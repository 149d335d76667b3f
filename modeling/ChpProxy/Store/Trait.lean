import ChpProxy.RouteTable.Ordered

/-! Backend-neutral route persistence (`store/mod.rs`): the errors, the mutators the registry
calls, and the contract the trait documents for every backend. -/
namespace ChpProxy

inductive StoreError where
  | message (text : String)
  | backend (operation : String)
  | indeterminate (operation : String)
  | corruptData (operation : String) (key : String)
  deriving DecidableEq, Repr

namespace StoreError

def isIndeterminate : StoreError → Bool
  | .indeterminate _ => true
  | _ => false

/-- The errors after which the backend is known to be unchanged. -/
def isOrdinary : StoreError → Bool
  | .backend _ | .corruptData .. => true
  | .message _ | .indeterminate _ => false

theorem isOrdinary_of_isIndeterminate (e : StoreError) (h : e.isIndeterminate = true) :
    e.isOrdinary = false := by
  cases e with
  | message | backend | corruptData => exact nomatch h
  | indeterminate => rfl

end StoreError

/-- One invocation of a `Store` mutator by the registry. -/
inductive Call where
  | add (key : RouteKey) (target : String) (extra : Map)
  | putPreservingActivity (key : RouteKey) (data : RouteData)
  | updateActivity (key : RouteKey) (at' : DateTime)
  | delete (key : RouteKey)
  deriving DecidableEq

namespace Call

def key : Call → RouteKey
  | .add key _ _ | .putPreservingActivity key _ | .updateActivity key _ | .delete key => key

/-- Only replacements carry an `ActivityFloor`. -/
def samplesFloor : Call → Bool
  | .add .. | .putPreservingActivity .. => true
  | .updateActivity .. | .delete _ => false

def Output : Call → Type
  | .add .. => RouteData
  | .putPreservingActivity .. => RouteData
  | .updateActivity .. => Unit
  | .delete _ => Option RouteData

end Call

/-- A backend. `σ` is its persistent state and `ι` whatever decides how one call ends: clocks,
the network, injected failures. `floors` are the values `ActivityFloor::current` returned to the
call, oldest first; `none` means that the call cannot end after these samples. -/
structure Store (σ ι : Type) where
  snapshot : ι → σ → Except StoreError RouteMap
  add : ι → RouteKey → String → Map → List (Option DateTime) → σ →
    Option (σ × Except StoreError RouteData)
  putPreservingActivity : ι → RouteKey → RouteData → List (Option DateTime) → σ →
    Option (σ × Except StoreError RouteData)
  updateActivity : ι → RouteKey → DateTime → σ → Option (σ × Except StoreError Unit)
  delete : ι → RouteKey → σ → Option (σ × Except StoreError (Option RouteData))

namespace Store

variable {σ ι : Type}

def exec (S : Store σ ι) (i : ι) (floors : List (Option DateTime)) (s : σ) :
    (c : Call) → Option (σ × Except StoreError c.Output)
  | .add key target extra => S.add i key target extra floors s
  | .putPreservingActivity key data => S.putPreservingActivity i key data floors s
  | .updateActivity key at' => S.updateActivity i key at' s
  | .delete key => S.delete i key s

/-- What the trait promises to the registry. Each call changes the state in one step, an
ordinary error changes nothing, a successful replacement returns the committed record, and an
activity update touches one timestamp. -/
structure Contract (S : Store σ ι) where
  contents : σ → RouteMap
  snapshot_ok : ∀ {i s routes}, S.snapshot i s = .ok routes → routes = contents s
  add_ok : ∀ {i key target extra floors s s' data},
    S.add i key target extra floors s = some (s', .ok data) →
      contents s' = (contents s).insert key data
  put_ok : ∀ {i key data floors s s' committed},
    S.putPreservingActivity i key data floors s = some (s', .ok committed) →
      contents s' = (contents s).insert key committed
  update_ok : ∀ {i key at' s s'}, S.updateActivity i key at' s = some (s', .ok ()) →
    ∀ k, ((contents s')[k]?).map RouteData.payload = ((contents s)[k]?).map RouteData.payload ∧
      (k ≠ key → (contents s')[k]? = (contents s)[k]?)
  delete_ok : ∀ {i key s s' prior}, S.delete i key s = some (s', .ok prior) →
    contents s' = (contents s).erase key
  error_unchanged : ∀ {i floors s s' c e}, S.exec i floors s c = some (s', .error e) →
    e.isIndeterminate = false → contents s' = contents s

/-- The documented treatment of timestamps: an activity update assigns its argument, and a
replacement samples the floor before its commit and never falls below a sample. -/
structure ActivityContract (S : Store σ ι) extends Contract S where
  update_assigns : ∀ {i key at' s s'}, S.updateActivity i key at' s = some (s', .ok ()) →
    (contents s')[key]? = ((contents s)[key]?).map ({ · with lastActivity := at' })
  add_floor : ∀ {i key target extra floors s s' data},
    S.add i key target extra floors s = some (s', .ok data) →
      floors ≠ [] ∧ ∀ floor ∈ floors, ∀ at', floor = some at' → at' ≤ data.lastActivity
  put_floor : ∀ {i key data floors s s' committed},
    S.putPreservingActivity i key data floors s = some (s', .ok committed) →
      floors ≠ [] ∧ ∀ floor ∈ floors, ∀ at', floor = some at' → at' ≤ committed.lastActivity

/-- The contract of the trait with what its answers are made of: a replacement keeps what it was
given, and a deletion returns the record that it takes away. -/
structure RecordContract (S : Store σ ι) extends Contract S where
  add_payload : ∀ {i key target extra floors s s' data},
    S.add i key target extra floors s = some (s', .ok data) → data.payload = (target, extra)
  delete_prior : ∀ {i key s s' prior},
    S.delete i key s = some (s', .ok prior) → prior = (contents s)[key]?

end Store

end ChpProxy

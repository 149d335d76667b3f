import ChpProxy.Store.Trait

/-! A backend behind a connection that may fail, as the registry has to expect it of every backend
but the memory. -/
namespace ChpProxy

/-- What may befall a call: it is refused before it is made, or its reply is lost, whether or not
it took effect. -/
inductive Fault where
  | none
  | refused
  | lost (applied : Bool)
  deriving DecidableEq

namespace Fault

variable {σ α : Type} {operation : String} {s s' : σ} {reply : Option (σ × Except StoreError α)}
  {fault : Fault}

/-- The end of a call that would end in `reply`. -/
def befall (operation : String) (s : σ) (reply : Option (σ × Except StoreError α)) :
    Fault → Option (σ × Except StoreError α)
  | .none => reply
  | .refused => some (s, .error (.backend operation))
  | .lost applied =>
    reply.map fun p => (if applied then p.1 else s, .error (.indeterminate operation))

theorem befall_eq_ok {a : α} (h : fault.befall operation s reply = some (s', .ok a)) :
    reply = some (s', .ok a) := by
  cases fault with
  | none => exact h
  | refused => cases h
  | lost applied =>
    obtain ⟨p, -, hp⟩ := Option.map_eq_some_iff.mp h
    cases hp

theorem befall_eq_error {e : StoreError} (h : fault.befall operation s reply = some (s', .error e))
    (he : e.isIndeterminate = false) : s' = s ∨ reply = some (s', .error e) := by
  cases fault with
  | none => exact .inr h
  | refused =>
    obtain ⟨rfl, -⟩ := Prod.mk.inj (Option.some.inj h)
    exact .inl rfl
  | lost applied =>
    obtain ⟨p, -, hp⟩ := Option.map_eq_some_iff.mp h
    obtain rfl := Except.error.inj (Prod.mk.inj hp).2
    cases he

end Fault

namespace Store

variable {σ ι : Type} {S : Store σ ι}

def faulty (S : Store σ ι) : Store σ (ι × Fault) where
  snapshot i s := if i.2 = .none then S.snapshot i.1 s else .error (.backend "snapshot")
  add i key target extra floors s := i.2.befall "add" s (S.add i.1 key target extra floors s)
  putPreservingActivity i key data floors s :=
    i.2.befall "put" s (S.putPreservingActivity i.1 key data floors s)
  updateActivity i key at' s := i.2.befall "update_activity" s (S.updateActivity i.1 key at' s)
  delete i key s := i.2.befall "delete" s (S.delete i.1 key s)

/-- A fault takes nothing from the contract. -/
def Contract.faulty (K : S.Contract) : S.faulty.Contract where
  contents := K.contents
  snapshot_ok {i s routes} h := by
    change (if i.2 = .none then S.snapshot i.1 s else .error (.backend "snapshot")) = _ at h
    split_ifs at h
    exact K.snapshot_ok h
  add_ok h := K.add_ok (Fault.befall_eq_ok h)
  put_ok h := K.put_ok (Fault.befall_eq_ok h)
  update_ok h := K.update_ok (Fault.befall_eq_ok h)
  delete_ok h := K.delete_ok (Fault.befall_eq_ok h)
  error_unchanged {i floors s s' c e} h he := by
    have hbefall : s' = s ∨ S.exec i.1 floors s c = some (s', .error e) := by
      cases c with
      | add | putPreservingActivity | updateActivity | delete => exact Fault.befall_eq_error h he
    rcases hbefall with rfl | hexec
    · rfl
    · exact K.error_unchanged hexec he

def RecordContract.faulty (K : S.RecordContract) : S.faulty.RecordContract where
  toContract := K.toContract.faulty
  add_payload h := K.add_payload (Fault.befall_eq_ok h)
  delete_prior h := K.delete_prior (Fault.befall_eq_ok h)

end Store

end ChpProxy

import Mathlib.Data.List.Infix

/-! Prefix trees over an arbitrary alphabet: overwriting insertion, a deepest-match
walk with early exit, and their meaning as lookups on whole paths. -/
namespace PrefixTree

/-- A node stores an optional value and its edges; at most one edge per letter matters. -/
inductive Node (α β : Type*) where
  | mk (value : Option β) (children : List (α × Node α β))

variable {α β γ : Type*}

namespace Node

def empty : Node α β := .mk none []

def value : Node α β → Option β
  | .mk v _ => v

def children : Node α β → List (α × Node α β)
  | .mk _ c => c

variable [DecidableEq α]

def child? (n : Node α β) (a : α) : Option (Node α β) := n.children.lookup a

/-- Replace the edge at `a`, as a map insertion does. -/
def setChild (n : Node α β) (a : α) (c : Node α β) : Node α β :=
  .mk n.value ((a, c) :: n.children.filter (fun e => e.1 ≠ a))

/-- Create missing nodes along the path and overwrite the value at its end. -/
def insert : List α → β → Node α β → Node α β
  | [], b, n => .mk (some b) n.children
  | a :: as, b, n => n.setChild a (insert as b ((n.child? a).getD empty))

def value? : List α → Node α β → Option β
  | [], n => n.value
  | a :: as, n => (n.child? a).bind (value? as)

/-- Descend while edges exist, remembering the last value seen. -/
def walk : List α → Node α β → Option β → Option β
  | [], _, matched => matched
  | a :: as, n, matched =>
    match n.child? a with
    | none => matched
    | some c => walk as c (if c.value.isSome then c.value else matched)

def deepest (n : Node α β) (path : List α) : Option β := walk path n n.value

@[simp] theorem value_setChild (n : Node α β) (a : α) (c : Node α β) :
    (n.setChild a c).value = n.value := rfl

private theorem lookup_filter_ne (l : List (α × γ)) (a b : α) (h : b ≠ a) :
    (l.filter (fun e => e.1 ≠ a)).lookup b = l.lookup b := by
  induction l with
  | nil => rfl
  | cons e l ih =>
    by_cases ha : e.1 = a
    · have hb : (b == e.1) = false := by simpa [ha] using h
      rw [List.filter_cons_of_neg (by simpa using ha), ih, List.lookup_cons, hb]
    · rw [List.filter_cons_of_pos (by simpa using ha), List.lookup_cons, List.lookup_cons, ih]

theorem child?_setChild (n : Node α β) (a b : α) (c : Node α β) :
    (n.setChild a c).child? b = if b = a then some c else n.child? b := by
  by_cases h : b = a
  · subst h
    simp [child?, setChild, children]
  · have hb : (b == a) = false := by simpa using h
    simp only [child?, setChild, children, List.lookup_cons, hb, h, if_false]
    exact lookup_filter_ne n.children a b h

@[simp] theorem value?_empty (path : List α) : value? path (empty : Node α β) = none := by
  cases path <;> rfl

/-- Insertion overwrites one path and leaves every other path alone. -/
theorem value?_insert (p q : List α) (b : β) (n : Node α β) :
    value? q (insert p b n) = if q = p then some b else value? q n := by
  induction p generalizing q n with
  | nil =>
    cases q with
    | nil => rfl
    | cons a as => simp [insert, value?, child?, children]
  | cons a as ih =>
    cases q with
    | nil => simp [insert, value?]
    | cons c cs =>
      simp only [insert, value?, child?_setChild]
      by_cases h : c = a
      · subst h
        rw [if_pos rfl, Option.bind_some, ih]
        by_cases hs : cs = as
        · simp [hs]
        · cases hc : n.child? c <;> simp [hs]
      · simp [h]

/-- The walk with early exit finds the value at the longest prefix that has one. -/
theorem walk_eq_findSome? (path : List α) (n : Node α β) (matched : Option β) :
    walk path n matched =
      (path.inits.tail.reverse.findSome? (fun q => value? q n)).or matched := by
  induction path generalizing n matched with
  | nil => simp [walk]
  | cons a as ih =>
    have hi : (a :: as).inits.tail.reverse = as.inits.reverse.map (a :: ·) := by simp
    have hs : as.inits = [] :: as.inits.tail := by cases as <;> simp
    rw [hi, List.findSome?_map]
    cases hc : n.child? a with
    | none =>
      have hn : List.findSome? ((fun q => value? q n) ∘ (a :: ·)) as.inits.reverse = none := by
        simp [List.findSome?_eq_none_iff, value?, hc]
      simp [walk, hc, hn]
    | some c =>
      have hv : ((fun q => value? q n) ∘ (a :: ·)) = fun q => value? q c := by
        funext q
        simp [value?, hc]
      rw [walk, hc, hv, hs, List.reverse_cons, List.findSome?_append]
      simp only [ih, List.findSome?_singleton, value?]
      cases hm : as.inits.tail.reverse.findSome? (fun q => value? q c) <;>
        cases hw : c.value <;> simp

theorem deepest_eq_findSome? (n : Node α β) (path : List α) :
    n.deepest path = path.inits.reverse.findSome? (fun q => value? q n) := by
  have hs : path.inits = [] :: path.inits.tail := by cases path <;> simp
  rw [deepest, walk_eq_findSome?]
  conv_rhs => rw [hs, List.reverse_cons, List.findSome?_append]
  simp [value?]

omit [DecidableEq α] in
private theorem inits_reverse_pairwise (l : List α) :
    l.inits.reverse.Pairwise (fun p q => q.length < p.length) := by
  rw [List.pairwise_reverse, List.pairwise_iff_getElem]
  intro i j hi hj hij
  have hl := List.length_inits l
  simp only [List.getElem_inits, List.length_take]
  omega

theorem deepest_eq_none_iff (n : Node α β) (path : List α) :
    n.deepest path = none ↔ ∀ q, q <+: path → value? q n = none := by
  simp [deepest_eq_findSome?, List.findSome?_eq_none_iff, List.mem_inits]

/-- The match is the value at the longest prefix of the path that holds one. -/
theorem deepest_eq_some_iff (n : Node α β) (path : List α) (b : β) :
    n.deepest path = some b ↔ ∃ q, q <+: path ∧ value? q n = some b ∧
      ∀ q', q' <+: path → (value? q' n).isSome → q'.length ≤ q.length := by
  have found : ∀ c, n.deepest path = some c → ∃ q, q <+: path ∧ value? q n = some c ∧
      ∀ q', q' <+: path → (value? q' n).isSome → q'.length ≤ q.length := by
    intro c hc
    rw [deepest_eq_findSome?, List.findSome?_eq_some_iff] at hc
    obtain ⟨l₁, q, l₂, hl, hv, hn⟩ := hc
    have hmem : ∀ q', q' <+: path ↔ q' ∈ l₁ ++ q :: l₂ := by
      intro q'
      rw [← hl, List.mem_reverse, List.mem_inits]
    refine ⟨q, (hmem q).mpr (by simp), hv, ?_⟩
    intro q' hp hs
    have ho := inits_reverse_pairwise path
    rw [hl, List.pairwise_append, List.pairwise_cons] at ho
    rcases List.mem_append.mp ((hmem q').mp hp) with h | h
    · simp [hn q' h] at hs
    · rcases List.mem_cons.mp h with rfl | h
      · exact le_rfl
      · exact (ho.2.1.1 q' h).le
  constructor
  · exact found b
  · rintro ⟨q, hq, hv, hmax⟩
    cases hd : n.deepest path with
    | none => simp [(deepest_eq_none_iff n path).mp hd q hq] at hv
    | some c =>
      obtain ⟨r, hr, hrv, hrmax⟩ := found c hd
      have hle := hmax r hr (by simp [hrv])
      have hge := hrmax q hq (by simp [hv])
      have he : q = r := (List.prefix_of_prefix_length_le hq hr hge).eq_of_length (by omega)
      rw [← hrv, ← hv, he]

/-- Insert entries from left to right into an empty tree. -/
def build (entries : List (List α × β)) : Node α β :=
  entries.foldl (fun n e => insert e.1 e.2 n) empty

theorem value?_build (entries : List (List α × β)) (q : List α) :
    value? q (build entries) = entries.reverse.lookup q := by
  induction entries using List.reverseRecOn with
  | nil => simp [build]
  | append_singleton l e ih =>
    have hb : build (l ++ [e]) = insert e.1 e.2 (build l) := by simp [build]
    rw [hb, value?_insert, ih, List.reverse_append, List.reverse_singleton,
      List.singleton_append, List.lookup_cons]
    by_cases h : q = e.1
    · simp [h]
    · have hq : (q == e.1) = false := by simpa using h
      simp [h, hq]

end Node

end PrefixTree

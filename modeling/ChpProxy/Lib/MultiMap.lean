import Mathlib.Data.List.Induction
import Mathlib.Data.List.Nodup

/-! Multimaps that keep the values of a key in order and every key in one bucket. The owning
iterator names a key only with its first value. -/

structure Bucket (κ ν : Type*) where
  key : κ
  first : ν
  rest : List ν
  deriving DecidableEq

namespace Bucket

variable {κ ν : Type*}

def values (b : Bucket κ ν) : List ν := b.first :: b.rest

/-- The key stands beside the first value alone. -/
def iter (b : Bucket κ ν) : List (Option κ × ν) :=
  (some b.key, b.first) :: b.rest.map ((none, ·))

end Bucket

structure MultiMap (κ ν : Type*) where
  buckets : List (Bucket κ ν)
  nodup : (buckets.map Bucket.key).Nodup

namespace MultiMap

variable {κ ν : Type*} [DecidableEq κ]

def empty : MultiMap κ ν := ⟨[], List.nodup_nil⟩

def bucket? (m : MultiMap κ ν) (k : κ) : Option (Bucket κ ν) := m.buckets.find? (·.key = k)

def getAll (m : MultiMap κ ν) (k : κ) : List ν := (m.bucket? k).elim [] Bucket.values

def get? (m : MultiMap κ ν) (k : κ) : Option ν := (m.bucket? k).map Bucket.first

def contains (m : MultiMap κ ν) (k : κ) : Bool := (m.bucket? k).isSome

def keys (m : MultiMap κ ν) : List κ := m.buckets.map Bucket.key

def iter (m : MultiMap κ ν) : List (κ × ν) := m.buckets.flatMap fun b => b.values.map ((b.key, ·))

def intoIter (m : MultiMap κ ν) : List (Option κ × ν) := m.buckets.flatMap Bucket.iter

/-- Change the bucket of a key, or open one. -/
def upsert (m : MultiMap κ ν) (k : κ) (v : ν) (f : Bucket κ ν → List ν × ν) : MultiMap κ ν where
  buckets :=
    if k ∈ m.keys then
      m.buckets.map fun b => if b.key = k then ⟨k, (f b).2, (f b).1⟩ else b
    else m.buckets ++ [⟨k, v, []⟩]
  nodup := by
    split_ifs with h
    · have hkeys : (m.buckets.map fun b => if b.key = k then ⟨k, (f b).2, (f b).1⟩ else b).map
          Bucket.key = m.buckets.map Bucket.key := by
        rw [List.map_map]
        refine List.map_congr_left fun b _ => ?_
        by_cases hb : b.key = k
        · simp [hb]
        · simp [hb]
      rw [hkeys]
      exact m.nodup
    · rw [List.map_append, List.nodup_append]
      refine ⟨m.nodup, by simp, ?_⟩
      rintro a ha b hb rfl
      obtain rfl : a = k := by simpa using hb
      exact h ha

def insert (m : MultiMap κ ν) (k : κ) (v : ν) : MultiMap κ ν := m.upsert k v fun _ => ([], v)

def append (m : MultiMap κ ν) (k : κ) (v : ν) : MultiMap κ ν :=
  m.upsert k v fun b => (b.rest ++ [v], b.first)

def remove (m : MultiMap κ ν) (k : κ) : MultiMap κ ν where
  buckets := m.buckets.filter (·.key ≠ k)
  nodup := m.nodup.sublist (List.filter_sublist.map _)

def removeAll (m : MultiMap κ ν) (ks : List κ) : MultiMap κ ν := ks.foldl remove m

def appendAll (m : MultiMap κ ν) (l : List (κ × ν)) : MultiMap κ ν :=
  l.foldl (fun m p => m.append p.1 p.2) m

/-- Insert in order, so that the last value of a key stays. -/
def insertAll (m : MultiMap κ ν) (l : List (κ × ν)) : MultiMap κ ν :=
  l.foldl (fun m p => m.insert p.1 p.2) m

theorem contains_eq (m : MultiMap κ ν) (k : κ) : m.contains k = !(m.getAll k).isEmpty := by
  unfold contains getAll
  cases m.bucket? k <;> rfl

theorem bucket?_eq_none_iff (m : MultiMap κ ν) (k : κ) : m.bucket? k = none ↔ k ∉ m.keys := by
  simp [bucket?, keys]

theorem key_of_bucket? {m : MultiMap κ ν} {k : κ} {b : Bucket κ ν} (h : m.bucket? k = some b) :
    b.key = k := by simpa using List.find?_some h

theorem bucket?_upsert_of_ne (m : MultiMap κ ν) {k k' : κ} (v : ν) (f : Bucket κ ν → List ν × ν)
    (h : k' ≠ k) : (m.upsert k v f).bucket? k' = m.bucket? k' := by
  unfold upsert bucket?
  dsimp only
  split_ifs
  · rw [List.find?_map]
    have hkey : ((fun b : Bucket κ ν => decide (b.key = k')) ∘
        fun b => if b.key = k then ⟨k, (f b).2, (f b).1⟩ else b) = fun b => decide (b.key = k') := by
      funext b
      by_cases hb : b.key = k
      · simp [hb, h.symm]
      · simp [hb]
    rw [hkey]
    cases hf : m.buckets.find? (·.key = k') with
    | none => rfl
    | some b =>
      have hb : ¬b.key = k := fun e => h ((key_of_bucket? hf).symm.trans e)
      simp [hb]
  · rw [List.find?_append]
    simp [h.symm]

theorem bucket?_upsert_self (m : MultiMap κ ν) (k : κ) (v : ν) (f : Bucket κ ν → List ν × ν) :
    (m.upsert k v f).bucket? k =
      some ((m.bucket? k).elim ⟨k, v, []⟩ fun b => ⟨k, (f b).2, (f b).1⟩) := by
  by_cases hk : k ∈ m.keys
  · have hkey : ((fun b : Bucket κ ν => decide (b.key = k)) ∘
        fun b => if b.key = k then ⟨k, (f b).2, (f b).1⟩ else b) = fun b => decide (b.key = k) := by
      funext b
      by_cases hb : b.key = k
      · simp [hb]
      · simp [hb]
    cases hf : m.bucket? k with
    | none => exact absurd hk ((bucket?_eq_none_iff m k).mp hf)
    | some b =>
      have hb := key_of_bucket? hf
      unfold bucket? at hf
      unfold upsert bucket?
      dsimp only
      rw [if_pos hk, List.find?_map, hkey, hf]
      simp [hb]
  · have hnone : m.bucket? k = none := (bucket?_eq_none_iff m k).mpr hk
    rw [hnone]
    unfold bucket? at hnone
    unfold upsert bucket?
    dsimp only
    rw [if_neg hk, List.find?_append, hnone]
    simp

theorem getAll_insert (m : MultiMap κ ν) (k k' : κ) (v : ν) :
    (m.insert k v).getAll k' = if k' = k then [v] else m.getAll k' := by
  unfold getAll insert
  split_ifs with h
  · subst h
    rw [bucket?_upsert_self]
    cases m.bucket? k' <;> rfl
  · rw [bucket?_upsert_of_ne m v _ h]

theorem getAll_append (m : MultiMap κ ν) (k k' : κ) (v : ν) :
    (m.append k v).getAll k' = if k' = k then m.getAll k' ++ [v] else m.getAll k' := by
  unfold getAll append
  split_ifs with h
  · subst h
    rw [bucket?_upsert_self]
    cases m.bucket? k' <;> rfl
  · rw [bucket?_upsert_of_ne m v _ h]

theorem bucket?_remove (m : MultiMap κ ν) (k k' : κ) :
    (m.remove k).bucket? k' = if k' = k then none else m.bucket? k' := by
  unfold bucket? remove
  rw [List.find?_filter]
  split_ifs with h
  · subst h
    simp
  · congr 1
    funext b
    by_cases hb : b.key = k'
    · simp [hb, h]
    · simp [hb]

theorem getAll_remove (m : MultiMap κ ν) (k k' : κ) :
    (m.remove k).getAll k' = if k' = k then [] else m.getAll k' := by
  unfold getAll
  rw [bucket?_remove]
  split_ifs <;> rfl

theorem getAll_removeAll (m : MultiMap κ ν) (ks : List κ) (k : κ) :
    (m.removeAll ks).getAll k = if k ∈ ks then [] else m.getAll k := by
  induction ks generalizing m with
  | nil => simp [removeAll]
  | cons a ks ih =>
    rw [removeAll, List.foldl_cons, ← removeAll, ih, getAll_remove]
    by_cases ha : k = a
    · simp [ha]
    · simp [ha]

theorem getAll_appendAll (m : MultiMap κ ν) (l : List (κ × ν)) (k : κ) :
    (m.appendAll l).getAll k = m.getAll k ++ (l.filter (·.1 = k)).map Prod.snd := by
  induction l generalizing m with
  | nil => simp [appendAll]
  | cons p l ih =>
    rw [appendAll, List.foldl_cons, ← appendAll, ih, getAll_append]
    by_cases hp : p.1 = k
    · simp [hp]
    · have hp' : ¬k = p.1 := fun e => hp e.symm
      simp [hp, hp']

theorem getAll_insertAll (m : MultiMap κ ν) (l : List (κ × ν)) (k : κ) :
    (m.insertAll l).getAll k =
      ((l.filter (·.1 = k)).getLast?).elim (m.getAll k) fun p => [p.2] := by
  induction l using List.reverseRecOn with
  | nil => rfl
  | append_singleton l p ih =>
    have hlast : m.insertAll (l ++ [p]) = (m.insertAll l).insert p.1 p.2 := by simp [insertAll]
    rw [hlast, getAll_insert, ih, List.filter_append]
    by_cases hp : p.1 = k
    · simp [hp]
    · have hp' : ¬k = p.1 := fun e => hp e.symm
      simp [hp, hp']

/-- The values that the owning iterator yields together with their key. -/
def named (m : MultiMap κ ν) : List (κ × ν) :=
  m.intoIter.filterMap fun p => p.1.map (·, p.2)

omit [DecidableEq κ] in
theorem named_eq (m : MultiMap κ ν) : m.named = m.buckets.map fun b => (b.key, b.first) := by
  unfold named intoIter
  induction m.buckets with
  | nil => rfl
  | cons b l ih =>
    have hrest : (b.rest.map ((none : Option κ), ·)).filterMap
        (fun p : Option κ × ν => p.1.map (·, p.2)) = [] := by
      simp
    rw [List.flatMap_cons, List.filterMap_append, ih]
    simp [Bucket.iter, hrest]

/-- Of every key the iterator names the first value and no other. -/
theorem filter_named (m : MultiMap κ ν) (k : κ) :
    (m.named.filter (·.1 = k)).map Prod.snd = (m.getAll k).take 1 := by
  rw [named_eq]
  obtain ⟨l, hl⟩ := m
  unfold getAll bucket?
  dsimp only
  induction l with
  | nil => rfl
  | cons b l ih =>
    have hl' := List.nodup_cons.mp hl
    by_cases hb : b.key = k
    · have hnone : l.filter (fun c => decide (c.key = k)) = [] := by
        rw [List.filter_eq_nil_iff]
        intro c hc
        have hmem : c.key ∈ l.map Bucket.key := List.mem_map_of_mem hc
        have hne : c.key ≠ b.key := fun e => hl'.1 (e ▸ hmem)
        simpa [hb] using hne
      simp [hb, List.filter_map, Function.comp_def, hnone, Bucket.values]
    · simpa [hb] using ih hl'.2

end MultiMap

import Mathlib.Data.List.Nodup
import Mathlib.Tactic.Linarith

/-! Sorted maps made from lists of entries. -/
namespace TreeMap

variable {κ ν : Type*} [Ord κ] [Std.TransOrd κ] [Std.LawfulEqOrd κ]
  {entries : List (κ × ν)} {m : Std.ExtTreeMap κ ν} {k : κ} {v : ν}

theorem getElem?_insert_eq [DecidableEq κ] (m : Std.ExtTreeMap κ ν) (k k' : κ) (v : ν) :
    (m.insert k v)[k']? = if k = k' then some v else m[k']? := by
  rw [Std.ExtTreeMap.getElem?_insert]
  exact if_congr Std.LawfulEqCmp.compare_eq_iff_eq rfl rfl

theorem getElem?_insertIfNew_eq [DecidableEq κ] (m : Std.ExtTreeMap κ ν) (k k' : κ) (v : ν) :
    (m.insertIfNew k v)[k']? = if k = k' then some ((m[k]?).getD v) else m[k']? := by
  simp only [Std.ExtTreeMap.getElem?_insertIfNew, Std.LawfulEqCmp.compare_eq_iff_eq,
    Std.ExtTreeMap.mem_iff_isSome_getElem?]
  by_cases hk : k = k'
  · subst hk
    cases m[k]? with
    | none => simp
    | some v' => simp
  · simp [hk]

theorem mem_of_getElem?_foldl
    (h : (entries.foldl (fun m p => m.insert p.1 p.2) m)[k]? = some v) :
    (k, v) ∈ entries ∨ m[k]? = some v := by
  classical
  induction entries generalizing m with
  | nil => exact .inr h
  | cons p entries ih =>
    rcases ih h with hmem | hbefore
    · exact .inl (List.mem_cons_of_mem p hmem)
    · rw [getElem?_insert_eq] at hbefore
      split_ifs at hbefore with hk
      · left
        rw [← hk, ← Option.some.inj hbefore]
        exact List.mem_cons_self
      · exact .inr hbefore

theorem mem_of_getElem?_ofList (h : (Std.ExtTreeMap.ofList entries)[k]? = some v) :
    (k, v) ∈ entries := by
  rw [Std.ExtTreeMap.ofList_eq_foldl] at h
  rcases mem_of_getElem?_foldl h with hmem | hempty
  · exact hmem
  · rw [Std.ExtTreeMap.getElem?_empty] at hempty
    cases hempty

theorem mem_of_mem_toList_ofList {p : κ × ν} (h : p ∈ (Std.ExtTreeMap.ofList entries).toList) :
    p ∈ entries :=
  mem_of_getElem?_ofList (Std.ExtTreeMap.mem_toList_iff_getElem?_eq_some.mp h)

theorem getElem?_ofList_of_nodup (hnodup : (entries.map Prod.fst).Nodup)
    (hmem : (k, v) ∈ entries) : (Std.ExtTreeMap.ofList entries)[k]? = some v := by
  refine Std.ExtTreeMap.getElem?_ofList_of_mem Std.ReflCmp.compare_self ?_ hmem
  refine (List.pairwise_map.mp hnodup).imp fun hne heq => hne ?_
  exact Std.LawfulEqCmp.eq_of_compare heq

theorem ofList_toList (m : Std.ExtTreeMap κ ν) : Std.ExtTreeMap.ofList m.toList = m := by
  have hnodup : (m.toList.map Prod.fst).Nodup := by
    rw [Std.ExtTreeMap.map_fst_toList_eq_keys]
    exact Std.ExtTreeMap.nodup_keys
  refine Std.ExtTreeMap.ext_getElem? fun k => ?_
  cases hk : m[k]? with
  | some v =>
    exact getElem?_ofList_of_nodup hnodup (Std.ExtTreeMap.mem_toList_iff_getElem?_eq_some.mpr hk)
  | none =>
    cases hv : (Std.ExtTreeMap.ofList m.toList)[k]? with
    | none => rfl
    | some v =>
      have hmem := mem_of_getElem?_ofList hv
      rw [Std.ExtTreeMap.mem_toList_iff_getElem?_eq_some, hk] at hmem
      cases hmem

end TreeMap

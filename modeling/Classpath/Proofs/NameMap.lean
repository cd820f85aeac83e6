import Classpath.NameMap
import Mathlib.Data.List.Basic

/-!
# Looking names up

What a map by name has for a name is what was put into it last for that name. The list that stands
for a map stays in the order of names, each name once.

* `Classpath.NameMap.lookup_put`, `Classpath.NameMap.lookup_overlay`,
  `Classpath.NameMap.lookup_ofList` – what a map has for a name.
* `Classpath.NameMap.Sorted.put`, `Classpath.NameMap.Sorted.overlay`,
  `Classpath.NameMap.sorted_ofList` – its order.
-/

namespace Classpath.NameMap

open Std

variable {α : Type} {name x : String} {value : α} {m pairs : List (String × α)} {p : String × α}

/-- The names come in order, each once. -/
def Sorted (m : List (String × α)) : Prop :=
  m.Pairwise fun p q => compare p.1 q.1 = .lt

/-- What pairs say of a name: the last value that is given for it. -/
def last? (pairs : List (String × α)) (name : String) : Option α :=
  ((pairs.filter (·.1 = name)).getLast?).map Prod.snd

theorem last?_cons :
    last? (p :: pairs) x = (last? pairs x).or (if x = p.1 then some p.2 else none) := by
  rw [last?, last?]
  by_cases hx : x = p.1
  · rw [if_pos hx, List.filter_cons_of_pos (by simp [hx]), List.getLast?_cons]
    cases (pairs.filter (·.1 = x)).getLast? <;> rfl
  · rw [if_neg hx, List.filter_cons_of_neg (by simpa using Ne.symm hx), Option.or_none]

/-! ### What a map has for a name -/

theorem lookup_cons_eq : (p :: m).lookup x = if x = p.1 then some p.2 else m.lookup x := by
  rw [List.lookup_cons]
  by_cases hx : x = p.1
  · rw [beq_iff_eq.mpr hx, if_pos hx]
  · rw [beq_eq_false_iff_ne.mpr hx, if_neg hx]

theorem lookup_put : (put name value m).lookup x = if x = name then some value else m.lookup x := by
  induction m with
  | nil => simp [put, lookup_cons_eq]
  | cons p rest ih =>
    rw [put]
    split
    · exact lookup_cons_eq
    · rename_i heq
      obtain rfl : name = p.1 := LawfulEqOrd.compare_eq_iff_eq.mp heq
      rw [lookup_cons_eq, lookup_cons_eq]
      split <;> rfl
    · rename_i hgt
      -- the pair in front is of another name
      have hne : name ≠ p.1 := by
        rintro rfl
        rw [ReflOrd.compare_self] at hgt
        cases hgt
      rw [lookup_cons_eq, lookup_cons_eq, ih]
      by_cases hx : x = p.1
      · rw [if_pos hx, if_pos hx, if_neg (hx ▸ Ne.symm hne)]
      · rw [if_neg hx, if_neg hx]

/-- **What is laid over a map comes first**, and of several values the last one. -/
theorem lookup_overlay : (overlay m pairs).lookup x = (last? pairs x).or (m.lookup x) := by
  induction pairs generalizing m with
  | nil => rfl
  | cons p rest ih =>
    change (overlay (put p.1 p.2 m) rest).lookup x = _
    rw [ih, lookup_put, last?_cons, Option.or_assoc]
    by_cases hx : x = p.1 <;> simp [hx]

theorem lookup_ofList : (ofList pairs).lookup x = last? pairs x := by
  rw [ofList, lookup_overlay, List.lookup_nil, Option.or_none]

/-! ### The order of names -/

theorem mem_put (h : p ∈ put name value m) : p = (name, value) ∨ p ∈ m := by
  induction m with
  | nil => simpa [put] using h
  | cons q rest ih =>
    rw [put] at h
    split at h
    · simpa using h
    · rcases List.mem_cons.mp h with h | h
      · exact .inl h
      · exact .inr (List.mem_cons_of_mem _ h)
    · rcases List.mem_cons.mp h with h | h
      · exact .inr (h ▸ List.mem_cons_self ..)
      · exact (ih h).imp id (List.mem_cons_of_mem _)

theorem mem_overlay (h : p ∈ overlay m pairs) : p ∈ pairs ∨ p ∈ m := by
  induction pairs generalizing m with
  | nil => exact .inr h
  | cons q rest ih =>
    rcases ih h with h | h
    · exact .inl (List.mem_cons_of_mem q h)
    · exact (mem_put h).imp_left fun heq => List.mem_cons.mpr (.inl heq)

theorem mem_ofList (h : p ∈ ofList pairs) : p ∈ pairs :=
  (mem_overlay h).resolve_right List.not_mem_nil

theorem Sorted.put (h : Sorted m) : Sorted (NameMap.put name value m) := by
  induction m with
  | nil => exact List.pairwise_singleton ..
  | cons q rest ih =>
    obtain ⟨hq, hrest⟩ := List.pairwise_cons.mp h
    rw [NameMap.put]
    split
    · rename_i hlt
      refine List.pairwise_cons.mpr ⟨fun p hp => ?_, h⟩
      rcases List.mem_cons.mp hp with rfl | hp
      · exact hlt
      · exact TransCmp.lt_trans hlt (hq p hp)
    · rename_i heq
      obtain rfl : name = q.1 := LawfulEqOrd.compare_eq_iff_eq.mp heq
      exact List.pairwise_cons.mpr ⟨hq, hrest⟩
    · rename_i hgt
      refine List.pairwise_cons.mpr ⟨fun p hp => ?_, ih hrest⟩
      rcases mem_put hp with rfl | hp
      · exact OrientedCmp.gt_iff_lt.mp hgt
      · exact hq p hp

theorem Sorted.overlay (h : Sorted m) : Sorted (NameMap.overlay m pairs) := by
  induction pairs generalizing m with
  | nil => exact h
  | cons p rest ih => exact ih h.put

theorem sorted_ofList : Sorted (ofList pairs) :=
  Sorted.overlay List.Pairwise.nil

end Classpath.NameMap

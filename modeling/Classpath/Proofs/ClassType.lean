import Classpath.ClassType
import Mathlib.Data.List.Sort

/-!
# The order of class types

`Classpath.ClassType.compare` goes by name and then by module. It is a linear order, so a set of
class types has one list in order: sorting it gives the same list however it was listed before. The
same holds of modules, which go by name.

* `Classpath.ClassType.compare_eq_lex` – the order as a lexicographic one.
* `Classpath.ClassType.eq_mergeSort` – a list in order is what sorting gives.
* `Classpath.ClassType.mem_sortedSet`, `Classpath.ClassType.nodup_sortedSet` – a list in order, with
  each type once.
* `Classpath.ClassType.sortedSet_congr` – it only depends on what its members are.
-/

namespace Classpath

open Std

/-- Sorting by what is compared brings a list in order. -/
theorem pairwise_mergeSort_isLE {α β : Type} (cmp : β → β → Ordering) [TransCmp cmp] (f : α → β)
    (l : List α) : (l.mergeSort fun a b => (cmp (f a) (f b)).isLE).Pairwise
      fun a b => (cmp (f a) (f b)).isLE := by
  refine List.pairwise_mergeSort (fun a b c hab hbc => ?_) (fun a b => ?_) l
  · exact TransCmp.isLE_trans hab hbc
  · have hswap : cmp (f a) (f b) = (cmp (f b) (f a)).swap := OrientedCmp.eq_swap
    rw [hswap]
    cases cmp (f b) (f a) <;> rfl

namespace ModuleName

/-- Whether a module does not come after another one. -/
def le (a b : ModuleName) : Bool :=
  (a.compare b).isLE

instance : TransCmp ModuleName.compare :=
  inferInstanceAs (TransCmp (compareOn ModuleName.text))

theorem le_antisymm {a b : ModuleName} (hab : a.le b = true) (hba : b.le a = true) : a = b := by
  have htext : a.text = b.text := LawfulEqOrd.eq_of_compare (OrientedCmp.isLE_antisymm hab hba)
  rw [show a = ⟨a.text⟩ from rfl, htext]

theorem le_refl (a : ModuleName) : a.le a = true := by
  have hsame : a.compare a = .eq := ReflCmp.compare_self
  rw [le, hsame]
  rfl

/-- Sorting by module brings a list in order. -/
theorem pairwise_mergeSort {α : Type} (f : α → ModuleName) (l : List α) :
    (l.mergeSort fun a b => (f a).le (f b)).Pairwise fun a b => (f a).le (f b) :=
  pairwise_mergeSort_isLE ModuleName.compare f l

end ModuleName

namespace ClassType

/-- The order of class types is lexicographic, in the order of texts and of what may be missing. -/
theorem compare_eq_lex : ClassType.compare =
    compareLex (compareOn (·.name)) (compareOn fun t : ClassType => t.moduleName.map (·.text)) := by
  funext ⟨name, m⟩ ⟨name', m'⟩
  rw [compareLex, ClassType.compare]
  congr 1
  cases m <;> cases m' <;> rfl

instance : TransCmp ClassType.compare := by
  rw [compare_eq_lex]
  infer_instance

instance : LawfulEqCmp ClassType.compare where
  eq_of_compare {a b} h := by
    rw [compare_eq_lex, compareLex_eq_eq] at h
    obtain ⟨name, m⟩ := a
    obtain ⟨name', m'⟩ := b
    obtain rfl : name = name' := LawfulEqOrd.eq_of_compare h.1
    have hmodule : m.map (·.text) = m'.map (·.text) := LawfulEqOrd.eq_of_compare h.2
    obtain rfl : m = m' := Option.map_injective (fun ⟨_⟩ ⟨_⟩ => congrArg ModuleName.mk) hmodule
    rfl

/-- Without their modules types are told apart by their names. -/
theorem unqualified_inj {t u : ClassType} : t.unqualified = u.unqualified ↔ t.name = u.name := by
  simp [unqualified]

theorem le_antisymm {a b : ClassType} (hab : a.le b) (hba : b.le a) : a = b :=
  LawfulEqCmp.eq_of_compare (OrientedCmp.isLE_antisymm hab hba)

/-- Of two different types in order the first is the smaller one. -/
theorem compare_eq_lt {a b : ClassType} (hab : a.le b) (hne : a ≠ b) : a.compare b = .lt := by
  rw [le] at hab
  rcases h : a.compare b with _ | _ | _
  · rfl
  · exact absurd (LawfulEqCmp.eq_of_compare h) hne
  · rw [h] at hab
    cases hab

/-- Sorting by type brings a list in order. -/
theorem pairwise_mergeSort {α : Type} (f : α → ClassType) (l : List α) :
    (l.mergeSort fun a b => (f a).le (f b)).Pairwise fun a b => (f a).le (f b) :=
  pairwise_mergeSort_isLE ClassType.compare f l

/-- A list in order is what sorting its members gives. -/
theorem eq_mergeSort {types sorted : List ClassType} (hperm : sorted.Perm types)
    (hsorted : sorted.Pairwise fun a b => a.le b) : sorted = types.mergeSort le :=
  (hperm.trans (List.mergeSort_perm types le).symm).eq_of_pairwise
    (fun _ _ _ _ => le_antisymm) hsorted (pairwise_mergeSort id types)

/-! ### Sets as lists in order -/

/-- Erasing repetitions leaves out only these: the members of a list in order stay, each once. -/
theorem exists_eraseReps_loop (a : ClassType) (rest done : List ClassType) :
    ∃ kept, List.eraseRepsBy.loop (· == ·) a rest done = done.reverse ++ a :: kept ∧
      (a :: kept).Sublist (a :: rest) ∧ (∀ t, t ∈ a :: kept ↔ t ∈ a :: rest) ∧
      ((a :: rest).Pairwise (fun t u => t.le u) → (a :: kept).Nodup) := by
  induction rest generalizing a done with
  | nil => exact ⟨[], by simp [List.eraseRepsBy.loop], .refl _, by simp, by simp⟩
  | cons b rest ih =>
    by_cases hab : a = b
    · subst hab
      obtain ⟨kept, hloop, hsublist, hmem, hnodup⟩ := ih a done
      refine ⟨kept, by simpa [List.eraseRepsBy.loop] using hloop, hsublist.cons a,
        by simpa using hmem, ?_⟩
      exact fun hsorted => hnodup hsorted.tail
    · obtain ⟨kept, hloop, hsublist, hmem, hnodup⟩ := ih b (a :: done)
      have hbeq : (a == b) = false := by simpa using hab
      refine ⟨b :: kept, by simp [List.eraseRepsBy.loop, hbeq, hloop], hsublist.cons_cons a,
        fun t => ?_, fun hsorted => ?_⟩
      · rw [List.mem_cons, hmem, ← List.mem_cons]
      · -- `a` comes before `b`, and `b` before the rest
        refine List.nodup_cons.mpr ⟨fun ha => hab ?_, hnodup hsorted.tail⟩
        obtain ⟨hbefore, hrest⟩ := List.pairwise_cons.mp hsorted
        rcases List.mem_cons.mp ((hmem a).mp ha) with rfl | ha
        · rfl
        · exact le_antisymm (hbefore b (List.mem_cons_self ..))
            ((List.pairwise_cons.mp hrest).1 a ha)

theorem sortedSet_spec (types : List ClassType) :
    (∀ t, t ∈ sortedSet types ↔ t ∈ types) ∧ (sortedSet types).Nodup ∧
      (sortedSet types).Pairwise fun t u => t.le u := by
  have hperm := List.mergeSort_perm types le
  have hsorted : (types.mergeSort le).Pairwise fun t u => t.le u := pairwise_mergeSort id types
  rw [sortedSet, List.eraseReps]
  rcases hsort : types.mergeSort le with _ | ⟨a, rest⟩
  · rw [hsort] at hperm
    simp [List.eraseRepsBy, List.nil_perm.mp hperm]
  · obtain ⟨kept, hloop, hsublist, hmem, hnodup⟩ := exists_eraseReps_loop a rest []
    rw [hsort] at hperm hsorted
    rw [List.eraseRepsBy, hloop]
    exact ⟨fun t => (hmem t).trans hperm.mem_iff, hnodup hsorted, hsorted.sublist hsublist⟩

@[simp] theorem mem_sortedSet {t : ClassType} {types : List ClassType} :
    t ∈ sortedSet types ↔ t ∈ types :=
  (sortedSet_spec types).1 t

@[simp] theorem sortedSet_nil : sortedSet [] = [] :=
  List.eq_nil_iff_forall_not_mem.mpr (by simp)

theorem nodup_sortedSet (types : List ClassType) : (sortedSet types).Nodup :=
  (sortedSet_spec types).2.1

/-- **A set has one list in order.** -/
theorem sortedSet_congr {types types' : List ClassType} (h : ∀ t, t ∈ types ↔ t ∈ types') :
    sortedSet types = sortedSet types' := by
  have hperm : (sortedSet types).Perm (sortedSet types') :=
    (List.perm_ext_iff_of_nodup (nodup_sortedSet types) (nodup_sortedSet types')).mpr
      fun t => by rw [mem_sortedSet, mem_sortedSet, h]
  exact hperm.eq_of_pairwise (fun _ _ _ _ => le_antisymm) (sortedSet_spec types).2.2
    (sortedSet_spec types').2.2

@[simp] theorem sortedSet_sortedSet (types : List ClassType) :
    sortedSet (sortedSet types) = sortedSet types :=
  sortedSet_congr fun _ => mem_sortedSet

end ClassType

end Classpath

import Classpath.Proofs.Hierarchy.Edges

/-!
# The class that is met again

Ancestors are collected depth first, and to come to a class that is on the path to itself is an
error. Which class that is depends on the order in which supertypes are visited, and on nothing
else: supertypes from which no cycle is reached are passed by, whether their ancestors are collected
or were remembered, and the first one from which a cycle is reached is not left again
(`Classpath.Hierarchy.Meets`).

* `Classpath.Hierarchy.Meets.on_cycle` – the class is on a cycle.
* `Classpath.Hierarchy.Meets.unique` – there is only one that can be met.
-/

namespace Classpath

namespace Hierarchy

open Relation

variable (classOf : ClassType → Option ClassInfo)

/-- **The walk out of `c` meets `d` again**, where the classes of `active` are on the path to `c`:
`c` itself is one of them; or the walk passes by supertypes that reach no cycle, comes to another
one, and meets `d` from there. -/
inductive Meets : List ClassType → ClassInfo → ClassInfo → Prop
  | again {active c} : c.type ∈ active → Meets active c c
  | onward {active before r after c d e} : c.type ∉ active → c.supertypes = before ++ r :: after →
      (∀ b ∈ before, ∀ e, denoted classOf c.type b = some e → Untangled classOf e) →
      denoted classOf c.type r = some e → Meets (c.type :: active) e d → Meets active c d

/-- The classes of `active` inherit from `c`. -/
def Above (active : List ClassType) (c : ClassInfo) : Prop :=
  ∀ u ∈ active, ∃ d, classOf u = some d ∧ TransGen (Inherits classOf) d c

variable {classOf} {active : List ClassType} {c d e : ClassInfo}

/-- So they do for what `c` inherits from, and so does `c`. -/
theorem Above.cons (h : Above classOf active c) (hself : classOf c.type = some c)
    (hedge : Inherits classOf c d) : Above classOf (c.type :: active) d := by
  intro u hu
  rcases List.mem_cons.mp hu with rfl | hu
  · exact ⟨c, hself, .single hedge⟩
  · obtain ⟨e, he, hpath⟩ := h u hu
    exact ⟨e, he, hpath.tail hedge⟩

section Meets

variable (hnamed : ∀ t c, classOf t = some c → c.type = t)

include hnamed

/-- What is inherited from is in the table under its own type. -/
theorem Inherits.self (h : Inherits classOf c d) : classOf d.type = some d := by
  obtain ⟨u, hu⟩ := h.exists_classOf
  rw [hnamed u d hu, hu]

/-- **What is met again is reached, and it is on the path or on a cycle.** -/
theorem Meets.path (h : Meets classOf active c d) (hself : classOf c.type = some c) :
    ReflTransGen (Inherits classOf) c d ∧ (d.type ∈ active ∨ TransGen (Inherits classOf) d d) := by
  induction h with
  | again hmem => exact ⟨.refl, .inl hmem⟩
  | @onward active before r after c d e hnew hsplit _ hdenoted _ ih =>
    have hedge : Inherits classOf c e := ⟨r, by simp [hsplit], hdenoted⟩
    obtain ⟨hpath, hmet⟩ := ih (hedge.self hnamed)
    refine ⟨.head hedge hpath, ?_⟩
    rcases hmet with hmem | hcycle
    · rcases List.mem_cons.mp hmem with htype | hmem
      -- the walk has come back to `c`
      · obtain ⟨u, hu⟩ := exists_classOf_of_path (hedge.self hnamed) hpath
        obtain rfl : d = c := by
          rw [← hnamed u d hu, htype, hself] at hu
          exact (Option.some.inj hu).symm
        exact .inr (.head' hedge hpath)
      · exact .inl hmem
    · exact .inr hcycle

/-- **The class that a walk meets again is on a cycle.** -/
theorem Meets.on_cycle (h : Meets classOf [] c d) (hself : classOf c.type = some c) :
    ReflTransGen (Inherits classOf) c d ∧ TransGen (Inherits classOf) d d := by
  obtain ⟨hpath, hmet⟩ := h.path hnamed hself
  exact ⟨hpath, hmet.resolve_left List.not_mem_nil⟩

/-- Where a walk meets a class again, a cycle is reached. -/
theorem Meets.not_untangled (h : Meets classOf active c d) (hself : classOf c.type = some c)
    (habove : Above classOf active c) : ¬ Untangled classOf c := by
  induction h with
  | @again active c hmem =>
    obtain ⟨d, hd, hpath⟩ := habove c.type hmem
    obtain rfl : c = d := Option.some.inj (hself.symm.trans hd)
    exact fun huntangled => huntangled c .refl hpath
  | @onward active before r after c d e _ hsplit _ hdenoted _ ih =>
    have hedge : Inherits classOf c e := ⟨r, by simp [hsplit], hdenoted⟩
    exact fun huntangled =>
      ih (hedge.self hnamed) (habove.cons hself hedge) (huntangled.of_inherits hedge)

omit hnamed in
open Classical in
/-- The supertype at which a walk goes on is the first one from which a cycle is reached. -/
theorem find?_of_first {before after : List ClassType} {r : ClassType}
    (hsplit : c.supertypes = before ++ r :: after)
    (hbefore : ∀ b ∈ before, ∀ e, denoted classOf c.type b = some e → Untangled classOf e)
    (hdenoted : denoted classOf c.type r = some e) (htangled : ¬ Untangled classOf e) :
    c.supertypes.find? (fun b => ∃ e, denoted classOf c.type b = some e ∧ ¬ Untangled classOf e) =
      some r := by
  refine List.find?_eq_some_iff_append.mpr ⟨decide_eq_true ⟨e, hdenoted, htangled⟩, before, after,
    hsplit, fun b hb => ?_⟩
  simpa using hbefore b hb

/-- **A walk meets one class only.** -/
theorem Meets.unique (h : Meets classOf active c d) (h' : Meets classOf active c e)
    (hself : classOf c.type = some c) (habove : Above classOf active c) : d = e := by
  induction h with
  | again hmem =>
    cases h' with
    | again _ => rfl
    | onward hnew _ _ _ _ => exact absurd hmem hnew
  | @onward active before r after c d x hnew hsplit hbefore hdenoted hmeets ih =>
    cases h' with
    | again hmem => exact absurd hmem hnew
    | @onward _ before' r' after' _ _ x' _ hsplit' hbefore' hdenoted' hmeets' =>
      have hedge : Inherits classOf c x := ⟨r, by simp [hsplit], hdenoted⟩
      have hedge' : Inherits classOf c x' := ⟨r', by simp [hsplit'], hdenoted'⟩
      have htangled := hmeets.not_untangled hnamed (hedge.self hnamed) (habove.cons hself hedge)
      have htangled' := hmeets'.not_untangled hnamed (hedge'.self hnamed) (habove.cons hself hedge')
      obtain rfl : r = r' := Option.some.inj
        ((find?_of_first hsplit hbefore hdenoted htangled).symm.trans
          (find?_of_first hsplit' hbefore' hdenoted' htangled'))
      obtain rfl : x = x' := Option.some.inj (hdenoted.symm.trans hdenoted')
      exact ih hmeets' (hedge.self hnamed) (habove.cons hself hedge)

end Meets

end Hierarchy

end Classpath

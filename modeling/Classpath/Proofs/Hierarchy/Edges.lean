import Classpath.Hierarchy
import Classpath.Proofs.ClassType
import Mathlib.Logic.Relation

/-!
# The graph of supertypes

The classes that can be resolved are the nodes of a graph. An edge leads from a class to each class
that it names as its superclass or as an interface; a name that denotes no class ends there. What a
class inherits from is what is named along the paths out of it (`Classpath.Hierarchy.Reaches`).

The ancestors that are collected for a class are something else
(`Classpath.Hierarchy.Gathers`): the names along its chain of superclasses, and the names of
interfaces along all paths. A superclass that is named behind an interface is neither, so the two
differ by that (`Classpath.Hierarchy.covered_iff`).

* `Classpath.Hierarchy.denoted` – the class that a name stands for.
* `Classpath.Hierarchy.inChain_iff`, `Classpath.Hierarchy.implements_iff` – what a class inherits,
  by what its supertypes inherit.
* `Classpath.Hierarchy.Ancestry` – the ancestors as they are listed; `Ancestry.unique`: there is one
  list.
-/

namespace Classpath

namespace Hierarchy

open Relation

variable (classOf : ClassType → Option ClassInfo)

/-! ### Names and edges -/

/-- The types under which the supertype `reference` of the class `subtype` is looked up, in order: a
reference out of a module first in that module. -/
def lookups (subtype reference : ClassType) : List ClassType :=
  match subtype.moduleName, reference.moduleName with
  | some m, none => [{ reference with moduleName := some m }, reference]
  | _, _ => [reference]

/-- The class that the supertype `reference` of the class `subtype` stands for, if it can be
resolved. -/
def denoted (subtype reference : ClassType) : Option ClassInfo :=
  (lookups subtype reference).findSome? classOf

/-- An edge to the superclass. -/
def Extends (c d : ClassInfo) : Prop :=
  ∃ r, c.superclass = some r ∧ denoted classOf c.type r = some d

/-- **An edge**, to the superclass or to an interface. -/
def Inherits (c d : ClassInfo) : Prop :=
  ∃ r ∈ c.supertypes, denoted classOf c.type r = some d

/-- The class `c` **reaches** the name `t`: a class on a path out of it names `t` as a supertype of
either kind. -/
def Reaches (c : ClassInfo) (t : ClassType) : Prop :=
  ∃ d, ReflTransGen (Inherits classOf) c d ∧ ∃ r ∈ d.supertypes, r.unqualified = t

/-- The name `t` is in the chain of superclasses. -/
def InChain (c : ClassInfo) (t : ClassType) : Prop :=
  ∃ d, ReflTransGen (Extends classOf) c d ∧ ∃ r, d.superclass = some r ∧ r.unqualified = t

/-- The name `t` is that of an interface on a path out of the class. -/
def Implements (c : ClassInfo) (t : ClassType) : Prop :=
  ∃ d, ReflTransGen (Inherits classOf) c d ∧ ∃ r ∈ d.interfaces, r.unqualified = t

/-- **No cycle is reached.** -/
def Untangled (c : ClassInfo) : Prop :=
  ∀ d, ReflTransGen (Inherits classOf) c d → ¬ TransGen (Inherits classOf) d d

/-- **Each superclass that is named on a path out of the class is the class itself, or in its own
chain of superclasses, or the name of an interface as well.** -/
def Covered (c : ClassInfo) : Prop :=
  ∀ d r, ReflTransGen (Inherits classOf) c d → d.superclass = some r →
    r.name = c.type.name ∨ InChain classOf c r.unqualified ∨ Implements classOf c r.unqualified

/-- **What is collected for a class.** -/
structure Gathers (c : ClassInfo) (a : Ancestors) : Prop where
  superclasses : ∀ t, t ∈ a.superclasses ↔ InChain classOf c t
  interfaces : ∀ t, t ∈ a.interfaces ↔ Implements classOf c t

/-- **The chain of superclasses as a list**, nearest first: it ends with the first superclass that
cannot be resolved, or where a class has none. -/
inductive Chain : ClassInfo → List ClassType → Prop
  | root {c} : c.superclass = none → Chain c []
  | missing {c r} : c.superclass = some r → denoted classOf c.type r = none →
      Chain c [r.unqualified]
  | next {c r d types} : c.superclass = some r → denoted classOf c.type r = some d →
      Chain d types → Chain c (r.unqualified :: types)

/-- **The ancestors of a class**, as they are listed: the chain of superclasses, and all interfaces
in order and each once. -/
structure Ancestry (c : ClassInfo) (a : Ancestors) : Prop where
  chain : Chain classOf c a.superclasses
  interfaces : ∀ t, t ∈ a.interfaces ↔ Implements classOf c t
  sorted : ClassType.sortedSet a.interfaces = a.interfaces

variable {classOf} {c d : ClassInfo} {t u r : ClassType} {types types' : List ClassType}
  {a b : Ancestors}

/-- A reference out of a module stands for the class of that module, or else for the unqualified
one. -/
theorem denoted_of_module {m : ModuleName} (hm : t.moduleName = some m)
    (hr : r.moduleName = none) :
    denoted classOf t r = (classOf { r with moduleName := some m }).or (classOf r) := by
  rw [denoted, lookups, hm, hr]
  simp only [List.findSome?_cons, List.findSome?_nil]
  cases classOf { r with moduleName := some m } <;> cases classOf r <;> rfl

/-- Any other reference stands for the class of its own type. -/
theorem denoted_of_plain (h : ∀ m, t.moduleName = some m → r.moduleName ≠ none) :
    denoted classOf t r = classOf r := by
  have hlookups : lookups t r = [r] := by
    rw [lookups]
    split
    · rename_i m hm hr
      exact absurd hr (h m hm)
    · rfl
  rw [denoted, hlookups]
  simp

theorem Extends.inherits (h : Extends classOf c d) : Inherits classOf c d := by
  obtain ⟨r, hr, hd⟩ := h
  exact ⟨r, by simp [ClassInfo.supertypes, hr], hd⟩

theorem reflTransGen_of_extends (h : ReflTransGen (Extends classOf) c d) :
    ReflTransGen (Inherits classOf) c d :=
  ReflTransGen.mono (fun _ _ => Extends.inherits) _ _ h

/-- A class is untangled, and so is what it inherits from. -/
theorem Untangled.of_inherits (h : Untangled classOf c) (hd : Inherits classOf c d) :
    Untangled classOf d :=
  fun _ hpath => h _ (.head hd hpath)

/-- A class that inherits only from untangled classes is untangled: a cycle through it would pass
through one of these. -/
theorem untangled_of_forall (h : ∀ d, Inherits classOf c d → Untangled classOf d) :
    Untangled classOf c := by
  intro d hpath hcycle
  rcases hpath.cases_head with rfl | ⟨e, he, hpath⟩
  · obtain ⟨e, he, hback⟩ := TransGen.head'_iff.mp hcycle
    exact h e he c hback hcycle
  · exact h e he d hpath hcycle

/-! ### What is inherited, step by step -/

/-- **The chain of superclasses** is the superclass and its chain. -/
theorem inChain_iff : InChain classOf c t ↔ ∃ r, c.superclass = some r ∧
    (r.unqualified = t ∨ ∃ d, denoted classOf c.type r = some d ∧ InChain classOf d t) := by
  constructor
  · rintro ⟨d, hpath, r, hr, rfl⟩
    rcases hpath.cases_head with rfl | ⟨e, ⟨r', hr', hd⟩, hpath⟩
    · exact ⟨r, hr, .inl rfl⟩
    · exact ⟨r', hr', .inr ⟨e, hd, d, hpath, r, hr, rfl⟩⟩
  · rintro ⟨r, hr, rfl | ⟨d, hd, e, hpath, r', hr', rfl⟩⟩
    · exact ⟨c, .refl, r, hr, rfl⟩
    · exact ⟨e, .head ⟨r, hr, hd⟩ hpath, r', hr', rfl⟩

/-- **The interfaces** are those of the superclass, those that are named, and the interfaces of
these. -/
theorem implements_iff : Implements classOf c t ↔
    (∃ d, Extends classOf c d ∧ Implements classOf d t) ∨ ∃ r ∈ c.interfaces,
      r.unqualified = t ∨ ∃ d, denoted classOf c.type r = some d ∧ Implements classOf d t := by
  constructor
  · rintro ⟨d, hpath, r, hr, rfl⟩
    rcases hpath.cases_head with rfl | ⟨e, ⟨r', hr', hd⟩, hpath⟩
    · exact .inr ⟨r, hr, .inl rfl⟩
    · have hrest : Implements classOf e r.unqualified := ⟨d, hpath, r, hr, rfl⟩
      rcases List.mem_append.mp hr' with hr' | hr'
      · exact .inl ⟨e, ⟨r', Option.mem_toList.mp hr', hd⟩, hrest⟩
      · exact .inr ⟨r', hr', .inr ⟨e, hd, hrest⟩⟩
  · rintro (⟨d, hd, e, hpath, hr⟩ | ⟨r, hr, rfl | ⟨d, hd, e, hpath, hr'⟩⟩)
    · exact ⟨e, .head hd.inherits hpath, hr⟩
    · exact ⟨c, .refl, r, hr, rfl⟩
    · exact ⟨e, .head ⟨r, List.mem_append_right _ hr, hd⟩ hpath, hr'⟩

theorem InChain.reaches (h : InChain classOf c t) : Reaches classOf c t := by
  obtain ⟨d, hpath, r, hr, ht⟩ := h
  exact ⟨d, reflTransGen_of_extends hpath, r, by simp [ClassInfo.supertypes, hr], ht⟩

theorem Implements.reaches (h : Implements classOf c t) : Reaches classOf c t := by
  obtain ⟨d, hpath, r, hr, ht⟩ := h
  exact ⟨d, hpath, r, List.mem_append_right _ hr, ht⟩

/-- **What is collected is what is reached** exactly if no superclass is missed behind an
interface. -/
theorem covered_iff : Covered classOf c ↔ ∀ s : ClassType,
    (s.name = c.type.name ∨ InChain classOf c s.unqualified ∨ Implements classOf c s.unqualified) ↔
      (s.name = c.type.name ∨ Reaches classOf c s.unqualified) := by
  constructor
  · refine fun h s => ⟨fun hs => ?_, fun hs => ?_⟩
    · exact hs.imp id fun hs => hs.elim InChain.reaches Implements.reaches
    · rcases hs with hname | ⟨d, hpath, r, hr, hrs⟩
      · exact .inl hname
      · rcases List.mem_append.mp hr with hr | hr
        · have hcovered := h d r hpath (Option.mem_toList.mp hr)
          rwa [hrs, ClassType.unqualified_inj.mp hrs] at hcovered
        · exact .inr (.inr ⟨d, hpath, r, hr, hrs⟩)
  · intro h d r hpath hr
    exact (h r).mpr (.inr ⟨d, hpath, r, by simp [ClassInfo.supertypes, hr], rfl⟩)

/-! ### The lists of ancestors -/

theorem Chain.mem_iff (h : Chain classOf c types) : t ∈ types ↔ InChain classOf c t := by
  induction h with
  | root hr =>
    rw [inChain_iff]
    simp [hr]
  | missing hr hd =>
    rw [inChain_iff]
    simp [hr, hd, eq_comm]
  | next hr hd _ ih =>
    rw [inChain_iff]
    simp [hr, hd, ih, eq_comm]

/-- A class has one chain. -/
theorem Chain.unique (h : Chain classOf c types) (h' : Chain classOf c types') :
    types = types' := by
  induction h generalizing types' with
  | root hr => cases h' <;> simp_all
  | missing hr hd => cases h' <;> simp_all
  | next hr hd _ ih =>
    cases h' with
    | root hr' => simp_all
    | missing hr' hd' => simp_all
    | next hr' hd' h' =>
      obtain rfl := Option.some.inj (hr.symm.trans hr')
      obtain rfl := Option.some.inj (hd.symm.trans hd')
      rw [ih h']

/-- **The ancestors of a class are determined** by the classes that are reached. -/
theorem Ancestry.unique (h : Ancestry classOf c a) (h' : Ancestry classOf c b) : a = b := by
  have hchain : a.superclasses = b.superclasses := h.chain.unique h'.chain
  have hinterfaces : a.interfaces = b.interfaces := by
    rw [← h.sorted, ← h'.sorted]
    exact ClassType.sortedSet_congr fun t => by rw [h.interfaces, h'.interfaces]
  cases a
  cases b
  simp_all

theorem Ancestry.gathers (h : Ancestry classOf c a) : Gathers classOf c a where
  superclasses _ := h.chain.mem_iff
  interfaces := h.interfaces

/-! ### The classes of the table -/

/-- What is inherited from is in the table. -/
theorem Inherits.exists_classOf (h : Inherits classOf c d) : ∃ u, classOf u = some d := by
  obtain ⟨r, -, hd⟩ := h
  obtain ⟨u, -, hu⟩ := List.exists_of_findSome?_eq_some hd
  exact ⟨u, hu⟩

/-- So is what is on a path out of a class of the table. -/
theorem exists_classOf_of_path (hclass : classOf t = some c)
    (h : ReflTransGen (Inherits classOf) c d) : ∃ u, classOf u = some d := by
  rcases h.cases_tail with rfl | ⟨e, -, hedge⟩
  · exact ⟨t, hclass⟩
  · exact hedge.exists_classOf

/-- Where a rank falls along the edges no cycle is reached. -/
theorem untangled_of_rank (rank : ClassInfo → Nat)
    (hrank : ∀ t c d, classOf t = some c → Inherits classOf c d → rank d < rank c)
    (hclass : classOf t = some c) : Untangled classOf c := by
  intro d hpath hcycle
  obtain ⟨u, hu⟩ := exists_classOf_of_path hclass hpath
  have hfalls : ∀ e, TransGen (Inherits classOf) d e → rank e < rank d := by
    intro e hpath
    induction hpath with
    | single hedge => exact hrank u d _ hu hedge
    | tail hpath hedge ih =>
      obtain ⟨f, -, hf⟩ := TransGen.tail'_iff.mp hpath
      obtain ⟨w, hw⟩ := hf.exists_classOf
      exact (hrank w _ _ hw hedge).trans ih
  exact (hfalls d hcycle).false

end Hierarchy

end Classpath

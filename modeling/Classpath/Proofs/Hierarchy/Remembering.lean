import Classpath.Proofs.Hierarchy.Subtyping

/-!
# What is remembered makes no difference

A hierarchy answers what follows from the classes that the view has loaded: the superclasses along
the chain out of the class, and the interfaces on all paths out of it. It does so with whatever it
remembers, also of queries that failed, and its answer stays what it is: asked again at any later
time, it or a hierarchy that remembers nothing answers the same
(`Classpath.Hierarchy.ancestry_told`).

This takes a view that keeps everything, and look-ups that tell the whole story. A type that a
location lists but does not find is missing at first and loaded by a scan later; what was remembered
before is then out of date (`Classpath.Hierarchy.ancestry_outdated`).
-/

namespace Classpath

namespace Hierarchy

open View Relation

variable {σ : Type} {v : View σ} {W : σ → Prop} {α : Type}

/-- **What is told of a class is its ancestry**, in every state of a view that keeps everything and
with whatever the hierarchy remembers, if nothing can go wrong but listing and no location lists
what no location has.

* In the tables of the state that is left, and of every later one, an answer for a class that
  reaches no cycle is read off its chain of superclasses and the set of its interfaces.
* Asked again at any later time, any hierarchy over the view answers the same.
* If only finitely many types are provided there is an answer. -/
theorem ancestry_told (hself : v.project.SelfTyped) (hv : Reliable v W)
    (hhidden : NothingHidden v W) (hfull : v.options.policy = .full) {r : Session σ}
    (hr : Reachable v W r) (q : Question α) (k : Nat) (t : ClassType) :
    (∀ fuel x r', (q.call k t).run v fuel r = some (x, r') →
      ∀ r'', ReflTransGen (Next v W) r' r'' →
        Describes v W r''.view r''.view.table ∧
        (∀ classOf, Describes v W r''.view classOf → ∀ c, classOf t = some c →
          Untangled classOf c → ∃ a, Ancestry classOf c a ∧ x = .ok (q.read t a)) ∧
        ∀ k' fuel' y r₃, (q.call k' t).run v fuel' r'' = some (y, r₃) → y = x) ∧
    ({t | Provided v W t}.Finite →
      (q.call k t).EndsBeyond v (2 * {t | Provided v W t}.ncard) r) := by
  refine ⟨fun fuel x r' hrun r'' hnext => ⟨?_, fun classOf hd c hclass huntangled => ?_,
    fun k' fuel' y r₃ hrun' => ?_⟩, fun hfinite => q.endsBeyond hv hfull hfinite hr k t⟩
  · exact describes_table hself hv.steady hhidden hfull ((hr.call _ hrun).trans hnext)
  · have hearlier := hd.of_next hv.steady (hr.call _ hrun) hnext
    obtain ⟨y, hy, rfl⟩ := Question.tells_of_run hv hr hrun hearlier
    cases y with
    | error e => exact absurd hy (not_tells_error hd.type_eq hclass huntangled)
    | ok a =>
      cases hy with
      | ancestors hc _ ha =>
        obtain rfl := Option.some.inj (hclass.symm.trans hc)
        exact ⟨a, ha, rfl⟩
  · exact Question.eq_of_run hself hv hhidden hfull hr hrun hnext hrun'

/-- **Two classes of one name in different modules**, asked for with one hierarchy: the superclass
that both name is the one of the own module, and the answer for the second one stays the chain of
its own superclasses. -/
theorem ancestry_told_homonyms :
    let v : View World := .ofStores [.homonyms] .full
    let classOf := tableOf .homonyms MemoryStore.faultless_homonyms
    let t : ClassType := ⟨"a.C", some ⟨"m"⟩⟩
    let chain : List ClassType := [⟨"a.B", none⟩, ⟨"java.lang.Object", none⟩]
    ∃ r r' c, (Call.superclassesOf 0 ⟨"a.C", some ⟨"n"⟩⟩).run v 9 (v.fresh {}) =
        some (.ok [⟨"a.B", none⟩], r) ∧
      (Call.superclassesOf 0 t).run v 9 r = some (.ok chain, r') ∧
      classOf t = some c ∧ Untangled classOf c ∧ Chain classOf c chain ∧
      ∀ r'', ReflTransGen (Next v fun _ => True) r' r'' → ∀ k fuel y r₃,
        (Call.superclassesOf k t).run v fuel r'' = some (y, r₃) → y = .ok chain := by
  intro v classOf t chain
  have hv : Settled v _ classOf :=
    (loads_ofStore MemoryStore.faultless_homonyms ⟨rfl, by decide⟩).settled
  have hself : v.project.SelfTyped := selfTyped_ofStores (by decide)
  have hruns : (((Call.superclassesOf 0 ⟨"a.C", some ⟨"n"⟩⟩).run v 9 (v.fresh {})).bind fun x =>
      ((Call.superclassesOf 0 t).run v 9 x.2).map fun y => (x.1.toOption, y.1.toOption)) =
      some (some [⟨"a.B", none⟩], some chain) := by
    decide +kernel
  obtain ⟨⟨x, r⟩, hrun, hrest⟩ := Option.bind_eq_some_iff.mp hruns
  obtain ⟨⟨y, r'⟩, hrun', hanswers⟩ := Option.map_eq_some_iff.mp hrest
  rcases x with e | x
  · cases hanswers
  rcases y with e | y
  · cases hanswers
  obtain ⟨rfl, rfl⟩ : x = [⟨"a.B", none⟩] ∧ y = chain := by simpa [Except.toOption] using hanswers
  have hr : Reachable v (fun _ => True) r := (reachable_fresh trivial).call _ hrun
  have htold := (ancestry_told hself hv.reliable hv.nothingHidden rfl hr .superclasses 0 t).1 _ _ _
    hrun'
  have hdescribes := hv.describes ((hr.call _ hrun').sound hv.steady).1
  obtain ⟨y, hy, hread⟩ :=
    Question.tells_of_run (q := .superclasses) hv.reliable hr hrun' hdescribes
  cases hy with
  | unknown => cases hread
  | cycle => cases hread
  | @ancestors c a hclass huntangled _ =>
    obtain ⟨a, ha, hread⟩ := (htold _ .refl).2.1 classOf hdescribes c hclass huntangled
    have hchain : chain = a.superclasses := Except.ok.inj hread
    exact ⟨r, r', c, hrun, hrun', hclass, huntangled, hchain ▸ ha.chain,
      fun r'' hnext => (htold r'' hnext).2.2⟩

/-- The class is that of `t`, with the superclass `r` and without interfaces. -/
def OnlyExtends (t r : ClassType) (c : ClassInfo) : Prop :=
  c.type = t ∧ c.superclass = some r ∧ c.interfaces = []

instance (t r : ClassType) (c : ClassInfo) : Decidable (OnlyExtends t r c) :=
  inferInstanceAs (Decidable (_ ∧ _))

/-- A class that only extends another one inherits from nothing else. -/
theorem OnlyExtends.inherits_iff {classOf : ClassType → Option ClassInfo} {t r : ClassType}
    {c d : ClassInfo} (h : OnlyExtends t r c) (ht : t.moduleName = none) :
    Inherits classOf c d ↔ classOf r = some d := by
  obtain ⟨rfl, hsuper, hinterfaces⟩ := h
  have hdenoted : denoted classOf c.type r = classOf r := denoted_of_plain (by simp [ht])
  simp [Inherits, ClassInfo.supertypes, hsuper, hinterfaces, hdenoted]

/-- **A superclass that is listed and not found**: the chain ends there as long as it is not loaded.
A scan loads it, and from then on the chain goes on; a hierarchy that was asked before does not
notice, and one that is asked for the first time does. -/
theorem ancestry_outdated :
    let v : View World := .ofStores [.hidden] .full
    let t : ClassType := ⟨"a.C", none⟩
    let x : ClassType := ⟨"a.X", none⟩
    let object : ClassType := ⟨"java.lang.Object", none⟩
    v.options.policy = .full ∧ v.project.SelfTyped ∧ (∀ e, ¬ Fault v (fun _ => True) e) ∧
      ∃ r₁ r₂ r₃ r₄ ids c,
        (Call.superclassesOf 0 t).run v 9 (v.fresh {}) = some (.ok [x], r₁) ∧
        Call.resolveAll.run v 9 r₁ = some (.ok ids, r₂) ∧
        (Call.superclassesOf 0 t).run v 9 r₂ = some (.ok [x], r₃) ∧
        (Call.superclassesOf 1 t).run v 9 r₂ = some (.ok [x, object], r₄) ∧
        r₂.view.table t = some c ∧ Untangled r₂.view.table c ∧
        Chain r₂.view.table c [x, object] := by
  intro v t x object
  have hdraws : v.DrawsOn [.hidden] := drawsOn_ofStores _ _
  have hdangling : ∀ m ∈ [MemoryStore.hidden], m.Dangling := by decide
  have hfault : ∀ e, ¬ Fault v (fun _ => True) e := fun e =>
    hdraws.not_fault hdangling (by simpa using ⟨rfl, by decide⟩) (by decide)
  refine ⟨rfl, hdraws.selfTyped hdangling, hfault, ?_⟩
  have hruns : (((Call.superclassesOf 0 t).run v 9 (v.fresh {})).bind fun a =>
      (Call.resolveAll.run v 9 a.2).bind fun b =>
        ((Call.superclassesOf 0 t).run v 9 b.2).bind fun c =>
          ((Call.superclassesOf 1 t).run v 9 b.2).map fun d =>
            ([a.1.toOption, c.1.toOption, d.1.toOption], b.1.toOption.isSome,
              [(b.2.view.table t).map fun info => decide (OnlyExtends t x info),
                (b.2.view.table x).map fun info => decide (OnlyExtends x object info),
                (b.2.view.table object).map fun _ => true])) =
      some ([some [x], some [x], some [x, object]], true, [some true, some true, none]) := by
    decide +kernel
  obtain ⟨⟨a, r₁⟩, hrun₁, hrest⟩ := Option.bind_eq_some_iff.mp hruns
  obtain ⟨⟨b, r₂⟩, hrun₂, hrest⟩ := Option.bind_eq_some_iff.mp hrest
  obtain ⟨⟨c, r₃⟩, hrun₃, hrest⟩ := Option.bind_eq_some_iff.mp hrest
  obtain ⟨⟨d, r₄⟩, hrun₄, hrest⟩ := Option.map_eq_some_iff.mp hrest
  simp only [Prod.mk.injEq, List.cons.injEq, and_true, Option.map_eq_some_iff,
    Option.map_eq_none_iff, decide_eq_true_eq] at hrest
  obtain ⟨⟨ha, hc, hd⟩, hids, ⟨info, hinfo, hextends⟩, ⟨super, hsuper, hextends'⟩, hobject⟩ := hrest
  obtain ⟨ids, hb⟩ := Option.isSome_iff_exists.mp hids
  obtain rfl := eq_ok_of_toOption ha
  obtain rfl := eq_ok_of_toOption hb
  obtain rfl := eq_ok_of_toOption hc
  obtain rfl := eq_ok_of_toOption hd
  refine ⟨r₁, r₂, r₃, r₄, ids, info, hrun₁, hrun₂, hrun₃, hrun₄, hinfo, ?_, ?_⟩
  · -- the only path leads to the superclass and ends there
    refine untangled_of_forall fun e he => untangled_of_forall fun e' he' => ?_
    rw [hextends.inherits_iff rfl, hsuper, Option.some.injEq] at he
    rw [← he, hextends'.inherits_iff rfl, hobject] at he'
    cases he'
  · refine .next hextends.2.1 ?_ (.missing hextends'.2.1 ?_)
    · exact (denoted_of_plain (by simp [hextends.1, t])).trans hsuper
    · exact (denoted_of_plain (by simp [hextends'.1, x])).trans hobject

end Hierarchy

end Classpath

import Classpath.Proofs.NameMap
import Classpath.Proofs.View.Described
import Classpath.Proofs.View.Recovery

/-!
# The elements of annotations

The elements of an annotation are computed when they are first asked for, and kept. Who asks first
is hard to tell: a call, or the view itself because it has just built an annotation type, possibly
deep within other builds, with the annotation's own type half done, or given up by the cache and
built again, or after the computation failed a few times. None of this can be seen in the result.
The elements are what is written in the annotation, and for the rest what its type declares.

Two things can be seen. A class may come with elements that were computed before it was loaded, and
a store may change the class of an annotation's type after the elements were computed
(`Classpath.View.elements_belied`).

The reason is that elements are recorded in one step, whose reason is an answer for the type of the
annotation (`Classpath.View.Explained`), and that they are recorded only where none were. For the
same reason a class that comes with the elements of an annotation keeps these, whatever is written
in the annotation (`Classpath.View.KeepsGiven`).

* `Classpath.View.lookup_mergedElements` – what an annotation says of an element.
* `Classpath.View.Step.explained`, `Classpath.View.Reachable.explained` – where elements come from.
* `Classpath.View.ends_valuesWithDefaults` – what computing them leaves.
* `Classpath.View.annotation_elements` – what is answered, for every state of a view in use.
* `Classpath.View.elements_belied` – what came with a class, and what has changed since.
-/

namespace Classpath

/-! ### What an annotation says -/

/-- The default that a class declares for an element: that of the last method of the name that has
one. -/
def ClassInfo.lastDefault? (c : ClassInfo) (name : String) : Option (ElementValue ClassType) :=
  ((c.methods.filter fun m => m.name = name ∧ m.defaultValue.isSome).getLast?).bind
    (·.defaultValue)

/-- **What an annotation says of an element**: the value that is written, or else the default that
the class declares, if there is a class. -/
def AnnotationUse.element? (a : AnnotationUse ClassType) (declaration : Option ClassInfo)
    (name : String) : Option (ElementValue ClassType) :=
  (NameMap.last? a.elements name).or (declaration.bind (·.lastDefault? name))

theorem ClassInfo.lookup_elementDefaults {c : ClassInfo} {name : String} :
    c.elementDefaults.lookup name = c.lastDefault? name := by
  rw [elementDefaults, NameMap.lookup_ofList, lastDefault?]
  induction c.methods with
  | nil => rfl
  | cons m rest ih =>
    rcases hdefault : m.defaultValue with _ | value
    · rw [List.filterMap_cons_none (by rw [hdefault]; rfl), ih,
        List.filter_cons_of_neg (by simp [hdefault])]
    · rw [List.filterMap_cons_some (by rw [hdefault]; rfl), NameMap.last?_cons, ih]
      by_cases hname : m.name = name
      · rw [if_pos hname.symm, List.filter_cons_of_pos (by simp [hname, hdefault]),
          List.getLast?_cons]
        have hrest : ∀ m ∈ rest.filter fun m => m.name = name ∧ m.defaultValue.isSome,
            m.defaultValue.isSome := fun m hm =>
          (of_decide_eq_true (List.mem_filter.mp hm).2).2
        generalize rest.filter _ = defaulted at hrest ⊢
        rcases hlast : defaulted.getLast? with _ | last
        · exact hdefault.symm
        · -- a later method of the name that has a default counts
          obtain ⟨later, hlater⟩ :=
            Option.isSome_iff_exists.mp (hrest last (List.mem_of_getLast? hlast))
          simp [hlater]
      · rw [if_neg (Ne.symm hname), List.filter_cons_of_neg (by simp [hname]), Option.or_none]

/-- Elements that are recorded are there, if the object has a place for them. -/
theorem Loaded.merged?_setMerged {o : Loaded} {i : Nat} {elements : Elements} :
    (o.setMerged i elements).merged? i = if i < o.merged.length then some elements else none := by
  rw [merged?, setMerged, List.getElem?_set_self']
  split <;> simp_all

/-- The elements that are computed for an annotation of an object, if they are. -/
def ViewState.elements? {σ : Type} (s : ViewState σ) (id i : Nat) : Option Elements :=
  (s.built[id]?).bind (·.merged? i)

namespace View

open Relation

theorem lookup_mergedElements {declaration : Option ClassInfo} {a : AnnotationUse ClassType}
    {name : String} :
    (mergedElements declaration a).lookup name = a.element? declaration name := by
  rw [mergedElements, NameMap.lookup_overlay, AnnotationUse.element?]
  cases declaration with
  | none => rfl
  | some c => exact congrArg _ ClassInfo.lookup_elementDefaults

theorem sorted_mergedElements {declaration : Option ClassInfo} {a : AnnotationUse ClassType} :
    NameMap.Sorted (mergedElements declaration a) := by
  cases declaration with
  | none => exact NameMap.sorted_ofList
  | some c => exact NameMap.sorted_ofList.overlay

/-! ### Where elements come from -/

variable {σ : Type} {v : View σ} {W : σ → Prop} {k fuel id i : Nat} {s s' : ViewState σ}
  {t : ClassType} {o : Loaded} {a : AnnotationUse ClassType} {elements : Elements}

/-- The class of an answer stays the same. -/
theorem Answers.bind_info? {answer : Option Nat} (h : Answers v W t answer s)
    (htrace : Trace v W k s s') : answer.bind s'.info? = answer.bind s.info? := by
  cases answer with
  | none => rfl
  | some id =>
    obtain ⟨c, hc, -⟩ := h
    rw [Option.bind_some, Option.bind_some, hc, htrace.info? hc]

variable (v W) in
/-- **All elements that a view computed are explained** by an answer for the type of their
annotation. -/
def Explained (s : ViewState σ) : Prop :=
  ∀ (id : Nat) (o : Loaded) (i : Nat) (a : AnnotationUse ClassType) (elements : Elements),
    s.built[id]? = some o → o.info.annotations[i]? = some a → o.info.computed? i = none →
    o.merged? i = some elements →
    ∃ answer, Answers v W a.type answer s ∧ elements = mergedElements (answer.bind s.info?) a

theorem explained_start (w : σ) : Explained v W (v.start w) := by
  intro id o i a elements ho
  simp [start] at ho

/-- **Every step keeps elements explained**: it records some with an answer, or none. -/
theorem Step.explained (h : Step v W k s s') (hs : Explained v W s) : Explained v W s' := by
  intro id o i a elements ho ha hown hmerged
  -- what was explained before is explained now
  have hlater : ∀ {answer}, Answers v W a.type answer s →
      elements = mergedElements (answer.bind s.info?) a →
      ∃ answer, Answers v W a.type answer s' ∧
        elements = mergedElements (answer.bind s'.info?) a := by
    intro answer hanswer helements
    refine ⟨answer, hanswer.trace (.single h), ?_⟩
    rw [hanswer.bind_info? (.single h), helements]
  have hold : ∀ {o}, s.built[id]? = some o → o.info.annotations[i]? = some a →
      o.info.computed? i = none → o.merged? i = some elements →
      ∃ answer, Answers v W a.type answer s' ∧
        elements = mergedElements (answer.bind s'.info?) a := by
    intro o ho ha hown hmerged
    obtain ⟨answer, hanswer, helements⟩ := hs id o i a elements ho ha hown hmerged
    exact hlater hanswer helements
  rcases h.of_built ho with
    ho | ⟨-, c, rfl⟩ | ⟨before, j, a', answer, hbefore, ha', -, hanswer, rfl⟩
  · exact hold ho ha hown hmerged
  · have hfresh : (Loaded.fresh c).merged? i = none :=
      (Loaded.merged?_fresh_of_getElem? ha).trans hown
    rw [hfresh] at hmerged
    cases hmerged
  · by_cases hj : j = i
    · subst hj
      obtain rfl : a' = a := Option.some.inj (ha'.symm.trans ha)
      rw [Loaded.merged?_setMerged] at hmerged
      split at hmerged
      · exact hlater hanswer (Option.some.inj hmerged).symm
      · cases hmerged
    · rw [Loaded.merged?_setMerged_of_ne hj] at hmerged
      exact hold hbefore ha hown hmerged

/-- **Wherever a view is in use all elements are explained.** -/
theorem Reachable.explained (hW : Steady v W) {r : Session σ} (h : Reachable v W r) :
    Explained v W r.view := by
  obtain ⟨w, hw, hnext⟩ := h
  exact (next_invariant hW (fun _ _ _ h hstep => hstep.explained h) (fun _ _ h _ => h)
    (fun _ _ h => h) hnext (sound_start w) hw (explained_start w)).2.2

/-- **Elements with which a class came are kept.** -/
def KeepsGiven (s : ViewState σ) : Prop :=
  ∀ (id : Nat) (o : Loaded) (i : Nat) (given : Elements), s.built[id]? = some o →
    i < o.info.annotations.length → o.info.computed? i = some given → o.merged? i = some given

theorem Step.keepsGiven (h : Step v W k s s') (hs : KeepsGiven s) : KeepsGiven s' := by
  intro id o i given ho hi hgiven
  rcases h.of_built ho with ho | ⟨-, c, rfl⟩ | ⟨before, j, a, answer, hbefore, -, hnone, -, rfl⟩
  · exact hs id o i given ho hi hgiven
  · exact (Loaded.merged?_fresh c i).trans ((if_pos hi).trans hgiven)
  · have hkept := hs id before i given hbefore hi hgiven
    -- elements are recorded where there are none
    have hj : j ≠ i := by
      rintro rfl
      rw [hkept] at hnone
      cases hnone
    rw [Loaded.merged?_setMerged_of_ne hj, hkept]

theorem Reachable.keepsGiven (hW : Steady v W) {r : Session σ} (h : Reachable v W r) :
    KeepsGiven r.view := by
  obtain ⟨w, hw, hnext⟩ := h
  have hstart : KeepsGiven (v.fresh w).view := by
    intro id o i given ho
    simp [fresh, start] at ho
  exact (next_invariant hW (fun _ _ _ h hstep => hstep.keepsGiven h) (fun _ _ h _ => h)
    (fun _ _ h => h) hnext (sound_start w) hw hstart).2.2

/-! ### Computing elements -/

theorem elements?_of_object (ho : s.built[id]? = some o) : s.elements? id i = o.merged? i := by
  rw [ViewState.elements?, ho, Option.bind_some]

theorem object_of_built (ho : s.built[id]? = some o) :
    (object id : Action σ Loaded) s = some (.ok o, s) := by
  change some (Except.ok ((s.built[id]?).getD default), s) = _
  rw [ho, Option.getD_some]

/-- Elements that are recorded for an object are there. -/
theorem elements?_recorded (hplace : o.merged.length = o.info.annotations.length)
    (ho : s.built[id]? = some o) (ha : o.info.annotations[i]? = some a) :
    (s.recorded id i elements).elements? id i = some elements := by
  have hi : i < o.merged.length := hplace ▸ (List.getElem?_eq_some_iff.mp ha).1
  rw [ViewState.elements?, ViewState.built_recorded_self, ho, Option.map_some, Option.bind_some,
    Loaded.merged?_setMerged, if_pos hi]

/-- **Elements that are computed are given as they are**, and nothing is done. -/
theorem valuesWithDefaults_of_computed {c : ClassInfo} (hc : s.info? id = some c)
    (ha : c.annotations[i]? = some a) (h : s.elements? id i = some elements) :
    v.valuesWithDefaults fuel id i s = some (.ok (some elements), s) := by
  obtain ⟨o, ho, rfl⟩ := Option.map_eq_some_iff.mp hc
  rw [elements?_of_object ho] at h
  rw [valuesWithDefaults, Run.bind_of_ok (object_of_built ho), ha]
  dsimp only
  rw [materialize, Run.bind_assoc, Run.bind_of_ok (object_of_built ho), h]
  rfl

variable (v) in
/-- **The elements of an annotation are computed**: they are there in the end, and if they were not
in the beginning the type of the annotation was resolved and they follow from that. -/
def Computes (fuel id i : Nat) (a : AnnotationUse ClassType) (s : ViewState σ)
    (elements : Elements) (s' : ViewState σ) : Prop :=
  s'.elements? id i = some elements ∧ (s.elements? id i = none →
    ∃ answer s₁, v.resolve fuel a.type s = some (.ok answer, s₁) ∧
      elements = mergedElements (answer.bind s₁.info?) a)

/-- **What asking for the elements of an annotation leaves**: they are computed, or there are
none. -/
theorem ends_valuesWithDefaults (hW : Steady v W) (hs : Sound v W s) (hw : W s.world)
    (hplace : Parallel s) (ho : s.built[id]? = some o) (ha : o.info.annotations[i]? = some a) :
    (v.valuesWithDefaults fuel id i).Ends s
      (fun answer s' => ∃ elements, answer = some elements ∧ Computes v fuel id i a s elements s')
      fun _ s' => s'.elements? id i = none := by
  rcases hmerged : o.merged? i with _ | elements
  · have hid : id < s.built.size := (Array.getElem?_eq_some_iff.mp ho).1
    rw [valuesWithDefaults, Run.Ends, Run.Outcome, Run.bind_of_ok (object_of_built ho), ha]
    dsimp only
    rw [materialize, Run.bind_assoc, Run.bind_of_ok (object_of_built ho), hmerged]
    dsimp only
    -- resolving the type looks at no annotation of this object
    refine Run.outcome_bind.mpr (Run.outcome_bind.mpr ((Run.Outcome.and (runs_resolve hW hs hw)
      (Run.ends_of_forall (A := fun answer s₁ => v.resolve fuel a.type s = some (.ok answer, s₁))
        (fun _ _ h => h) fun _ _ _ => trivial)).imp (fun answer s₁ h => ?_) fun _ s₁ he => ?_))
    · obtain ⟨⟨htrace, hanswer⟩, hres⟩ := h
      have ho₁ : s₁.built[id]? = some o := (htrace.built_eq hid hid).trans ho
      have hrecorded : ∀ elements, elements = mergedElements (answer.bind s₁.info?) a →
          ∃ elements', some elements = some elements' ∧
            Computes v fuel id i a s elements' (s₁.recorded id i elements) := fun elements h =>
        ⟨elements, rfl, elements?_recorded (hplace id o ho) ho₁ ha, fun _ => ⟨answer, s₁, hres, h⟩⟩
      cases answer with
      | none => exact hrecorded _ rfl
      | some declaring =>
        obtain ⟨c, hc, -⟩ := hanswer
        obtain ⟨d, hd, rfl⟩ := Option.map_eq_some_iff.mp hc
        refine Run.outcome_bind.mpr (Run.outcome_read.mpr (hrecorded _ ?_))
        rw [Option.bind_some, hc, hd, Option.getD_some]
    · rw [ViewState.elements?, he.1.1.built_eq hid hid, ho, Option.bind_some, hmerged]
  · have hcomputed : s.elements? id i = some elements := by rw [elements?_of_object ho, hmerged]
    have hc : s.info? id = some o.info := by rw [ViewState.info?, ho, Option.map_some]
    rw [Run.Ends, Run.Outcome, valuesWithDefaults_of_computed hc ha hcomputed]
    exact ⟨elements, rfl, hcomputed, fun hnone => by rw [hcomputed] at hnone; cases hnone⟩

/-- **Elements that are computed stay.** -/
theorem Step.elements? (h : Step v W k s s') (helements : s.elements? id i = some elements) :
    s'.elements? id i = some elements := by
  obtain ⟨o, ho, hmerged⟩ := Option.bind_eq_some_iff.mp helements
  have hc : s.info? id = some o.info := by rw [ViewState.info?, ho, Option.map_some]
  obtain ⟨o', ho', -⟩ := Option.map_eq_some_iff.mp (h.info? hc)
  refine Option.bind_eq_some_iff.mpr ⟨o', ho', ?_⟩
  rcases h.of_built ho' with hold | ⟨rfl, -⟩ | ⟨before, j, a', answer, hbefore, -, hnone, -, rfl⟩
  · obtain rfl : o = o' := Option.some.inj (ho.symm.trans hold)
    exact hmerged
  · exact absurd (Array.getElem?_eq_some_iff.mp ho).1 (lt_irrefl _)
  · obtain rfl : before = o := Option.some.inj (hbefore.symm.trans ho)
    -- elements are recorded where there are none, so for another annotation
    have hj : j ≠ i := by
      rintro rfl
      rw [hmerged] at hnone
      cases hnone
    rw [Loaded.merged?_setMerged_of_ne hj, hmerged]

/-! ### The class of an annotation's type -/

variable (cat : v.project.Catalog)

/-- **What a type denotes** in a coherent project: the class to which its provider is loaded, or no
class if it has no provider. -/
def Denotes (t : ClassType) : Option ClassInfo → Prop
  | none => cat.provider t = none
  | some c => ∃ l src w, cat.provider t = some (l, src) ∧ cat.steady w ∧
      (src.build (v.context l src) w).1 = .ok c

/-- **What is answered for a type is what it denotes.** -/
theorem Answers.denotes {answer : Option Nat} (h : Answers v cat.steady t answer s)
    (hs : Sound v cat.steady s) : Denotes cat t (answer.bind s.info?) := by
  cases answer with
  | none => exact (absent_iff cat).mp h
  | some id =>
    obtain ⟨c, hc, rfl⟩ := h.of_catalog cat
    rw [Option.bind_some, hc]
    exact hs.of_catalog cat hc

/-- Where each type has one class, that is the class. -/
theorem Answers.eq_of_fixed {answer : Option Nat} {classOf : ClassType → Option ClassInfo}
    (h : Answers v cat.steady t answer s) (hs : Sound v cat.steady s)
    (hone : Fixed v cat.steady classOf) : answer.bind s.info? = classOf t := by
  cases answer with
  | none => exact (hone.absent t h).symm
  | some id =>
    obtain ⟨c, hc, rfl⟩ := h.of_catalog cat
    rw [Option.bind_some, hc, (hone.describes hs).built id c hc]

/-- What `resolve` answers for a type is what it denotes. -/
theorem denotes_of_resolve {r r' : Session σ} (hr : Reachable v cat.steady r)
    {answer : Option Nat} (hrun : (Call.resolve t).run v fuel r = some (.ok answer, r')) :
    Denotes cat t (answer.bind r'.view.info?) := by
  have hW := steady_catalog cat
  obtain ⟨hs, hw⟩ := hr.sound hW
  exact (resolve_answers hW hs hw hrun).denotes cat ((hr.call _ hrun).sound hW).1

/-- **Elements that were recorded some time** follow from a class that the annotation's type denotes,
for the answer that there was then. -/
theorem exists_declaration {r : Session σ} (hr : Reachable v cat.steady r) {c : ClassInfo}
    (hc : r.view.info? id = some c) (ha : c.annotations[i]? = some a) (hown : c.computed? i = none)
    {elements : Elements} (h : r.view.elements? id i = some elements) :
    ∃ declaration, elements = mergedElements declaration a ∧ Denotes cat a.type declaration ∧
      ∀ classOf, Fixed v cat.steady classOf → declaration = classOf a.type := by
  have hW := steady_catalog cat
  obtain ⟨hs, -⟩ := hr.sound hW
  obtain ⟨o, ho, hmerged⟩ := Option.bind_eq_some_iff.mp h
  obtain ⟨d, hd, rfl⟩ := Option.map_eq_some_iff.mp hc
  obtain rfl : o = d := Option.some.inj (ho.symm.trans hd)
  obtain ⟨answer, hanswers, helements⟩ := hr.explained hW id o i a elements ho ha hown hmerged
  exact ⟨answer.bind r.view.info?, helements, hanswers.denotes cat hs,
    fun _ hone => hanswers.eq_of_fixed cat hs hone⟩

/-- **Elements that are recorded now** follow from the class that `resolve` answers. -/
theorem exists_declaration_of_resolve {r : Session σ} (hr : Reachable v cat.steady r)
    {answer : Option Nat} {s₁ : ViewState σ} {elements : Elements}
    (hres : v.resolve fuel a.type r.view = some (.ok answer, s₁))
    (h : elements = mergedElements (answer.bind s₁.info?) a) :
    ∃ declaration, elements = mergedElements declaration a ∧ Denotes cat a.type declaration ∧
      (∀ classOf, Fixed v cat.steady classOf → declaration = classOf a.type) ∧
      ∃ answer r₁, (Call.resolve a.type).run v fuel r = some (.ok answer, r₁) ∧
        declaration = answer.bind r₁.view.info? := by
  have hW := steady_catalog cat
  obtain ⟨hs, hw⟩ := hr.sound hW
  have hrun : (Call.resolve a.type).run v fuel r = some (.ok answer, { r with view := s₁ }) :=
    onView_of_eq hres
  have hanswers := resolve_answers hW hs hw hrun
  obtain ⟨hs₁, -⟩ := (hr.call _ hrun).sound hW
  exact ⟨answer.bind s₁.info?, h, denotes_of_resolve cat hr hrun,
    fun _ hone => hanswers.eq_of_fixed cat hs₁ hone, answer, _, hrun, rfl⟩

/-! ### The guarantee -/

/-- **What is answered for an annotation** of a class that a view of a coherent project built, in
every state in which the view can be, with either cache policy and whatever was resolved, given up
or failed before.

* If the call fails, no elements are computed for the annotation.
* If the class came with elements for the annotation, it answers these.
* If it came without, it answers elements in the order of names, each name once. There is a class
  that the type of the annotation denotes, or it denotes none, and for each name there is what the
  annotation says: the value that is written, or else the default of the last method of that name
  that declares one.
* Where each type has one class, it is that class; and unless the elements were there already, it is
  the one that `resolve` answers now.
* Whatever is done later, the same elements are answered again, and nothing is done for it. -/
theorem annotation_elements {r r' : Session σ} (hr : Reachable v cat.steady r)
    {x : Except HierarchyError (Option Elements)}
    (hrun : (Call.valuesWithDefaults id i).run v fuel r = some (x, r')) {c : ClassInfo}
    (hc : r.view.info? id = some c) (ha : c.annotations[i]? = some a) :
    (∀ e, x = .error e → r'.view.elements? id i = none) ∧
    ∀ answer, x = .ok answer → ∃ elements, answer = some elements ∧
      (∀ given, c.computed? i = some given → elements = given) ∧
      (c.computed? i = none → ∃ declaration, NameMap.Sorted elements ∧
        (∀ name, elements.lookup name = a.element? declaration name) ∧
        Denotes cat a.type declaration ∧
        (∀ classOf, Fixed v cat.steady classOf → declaration = classOf a.type) ∧
        (r.view.elements? id i = none → ∃ answer r₁,
          (Call.resolve a.type).run v fuel r = some (.ok answer, r₁) ∧
          declaration = answer.bind r₁.view.info?)) ∧
      ∀ r'', ReflTransGen (Next v cat.steady) r' r'' → ∀ fuel',
        (Call.valuesWithDefaults id i).run v fuel' r'' = some (.ok (some elements), r'') := by
  have hW := steady_catalog cat
  obtain ⟨hs, hw⟩ := hr.sound hW
  obtain ⟨o, ho, rfl⟩ := Option.map_eq_some_iff.mp hc
  have hr' := hr.call _ hrun
  have hc' : r'.view.info? id = some o.info :=
    ((Call.valuesWithDefaults id i).trace hW hs hw hrun).info? hc
  have hends : (onView (v.valuesWithDefaults fuel id i)).Ends r
      (fun answer r' => ∃ elements, answer = some elements ∧
        Computes v fuel id i a r.view elements r'.view)
      fun _ r' => r'.view.elements? id i = none :=
    Run.outcome_zoom.mpr (ends_valuesWithDefaults hW hs hw (hr.parallel hW) ho ha)
  refine ⟨fun e he => hends.error (he ▸ hrun), fun answer hanswer => ?_⟩
  obtain ⟨elements, rfl, hcomputed, hfirst⟩ := hends.ok (hanswer ▸ hrun)
  have hexplained : o.info.computed? i = none →
      ∃ declaration, elements = mergedElements declaration a ∧
      Denotes cat a.type declaration ∧
      (∀ classOf, Fixed v cat.steady classOf → declaration = classOf a.type) ∧
      (r.view.elements? id i = none → ∃ answer r₁,
        (Call.resolve a.type).run v fuel r = some (.ok answer, r₁) ∧
        declaration = answer.bind r₁.view.info?) := by
    intro hown
    rcases hbefore : r.view.elements? id i with _ | before
    · obtain ⟨answer, s₁, hres, helements⟩ := hfirst hbefore
      obtain ⟨declaration, hmerged, hdenotes, hfixed, hnow⟩ :=
        exists_declaration_of_resolve cat hr hres helements
      exact ⟨declaration, hmerged, hdenotes, hfixed, fun _ => hnow⟩
    · obtain ⟨declaration, hmerged, hdenotes, hfixed⟩ :=
        exists_declaration cat hr' hc' ha hown hcomputed
      exact ⟨declaration, hmerged, hdenotes, hfixed, nofun⟩
  refine ⟨elements, rfl, fun given hgiven => ?_, fun hown => ?_, fun r'' hlater fuel' => ?_⟩
  · obtain ⟨o', ho', hmerged⟩ := Option.bind_eq_some_iff.mp hcomputed
    obtain ⟨d, hd, hinfo⟩ := Option.map_eq_some_iff.mp hc'
    obtain rfl : o' = d := Option.some.inj (ho'.symm.trans hd)
    have hi : i < o'.info.annotations.length := hinfo ▸ (List.getElem?_eq_some_iff.mp ha).1
    have hkept := hr'.keepsGiven hW id o' i given ho' hi (hinfo ▸ hgiven)
    exact Option.some.inj (hmerged.symm.trans hkept)
  · obtain ⟨declaration, rfl, hdenotes, hfixed, hnow⟩ := hexplained hown
    exact ⟨declaration, sorted_mergedElements, fun name => lookup_mergedElements, hdenotes, hfixed,
      hnow⟩
  obtain ⟨hs', hw'⟩ := hr'.sound hW
  obtain ⟨-, -, hcomputed'', hc''⟩ := next_invariant hW
    (I := fun s => s.elements? id i = some elements ∧ s.info? id = some o.info)
    (fun _ _ _ h hstep => ⟨hstep.elements? h.1, hstep.info? h.2⟩) (fun _ _ h _ => h)
    (fun _ _ h => h) hlater hs' hw' ⟨hcomputed, hc'⟩
  exact onView_of_eq (valuesWithDefaults_of_computed hc'' ha hcomputed'')

end View

/-! ### An annotation that sets one of two elements -/

/-- An annotation type with two elements that have defaults, and another one that is annotated with it
and sets the first element. -/
def MemoryStore.configured : MemoryStore :=
  .ofClasses "app" 0 [
    { type := ⟨"a.Marker", none⟩, info := {
        type := ⟨"a.Marker", none⟩, flags := 0x2600
        annotations := [⟨⟨"a.Config", none⟩, [("retries", .const (.int 5))]⟩] } },
    { type := ⟨"a.Config", none⟩, info := {
        type := ⟨"a.Config", none⟩, flags := 0x2600
        methods := [
          { name := "retries", descriptor := "()I", defaultValue := some (.const (.int 3)) },
          { name := "timeout", descriptor := "()I", defaultValue := some (.const (.int 30)) }] } }]

/-- The value of an element that is an integer. -/
def ElementValue.int? {τ : Type} : ElementValue τ → Option Int32
  | .const (.int value) => some value
  | _ => none

namespace View

/-- With room for one class, the annotated class is given up while its annotation is computed. The
element that is set has its value, and the other one its default; asked again at any later time they
have the same. -/
theorem annotation_elements_configured :
    let v : View World := .ofStores [.configured] (.lru 1 Nat.one_pos)
    let cat := catalogOfStore .configured (.lru 1 Nat.one_pos) (MemoryStore.faultless_ofClasses ..)
    ∃ (r r' : Session World) (elements : Elements) (a : AnnotationUse ClassType)
      (declaration : Option ClassInfo),
      (Call.resolve ⟨"a.Marker", none⟩).run v 3 (v.fresh {}) = some (.ok (some 0), r) ∧
      r.view.cache.contains ⟨"a.Marker", none⟩ = false ∧
      (Call.valuesWithDefaults 0 0).run v 3 r = some (.ok (some elements), r') ∧
      elements.map (fun p => (p.1, p.2.int?)) = [("retries", some 5), ("timeout", some 30)] ∧
      a.type = ⟨"a.Config", none⟩ ∧ Denotes cat a.type declaration ∧
      (∀ name, elements.lookup name = a.element? declaration name) ∧
      ∀ r'', Relation.ReflTransGen (Next v cat.steady) r' r'' → ∀ fuel,
        (Call.valuesWithDefaults 0 0).run v fuel r'' = some (.ok (some elements), r'') := by
  intro v cat
  have hruns : (((Call.resolve ⟨"a.Marker", none⟩).run v 3 (v.fresh {})).bind fun x =>
      ((Call.valuesWithDefaults 0 0).run v 3 x.2).map fun y =>
        ((x.1.toOption, x.2.view.cache.contains ⟨"a.Marker", none⟩),
          (x.2.view.info? 0).bind fun c =>
            c.annotations[0]?.map fun a => (a.type, (c.computed? 0).isNone),
          y.1.toOption.join.map fun elements => decide (elements.map (fun p => (p.1, p.2.int?)) =
            [("retries", some 5), ("timeout", some 30)]))) =
      some ((some (some 0), false), some (⟨"a.Config", none⟩, true), some true) := by
    decide +kernel
  obtain ⟨⟨x, r⟩, hx, hrest⟩ := Option.bind_eq_some_iff.mp hruns
  obtain ⟨⟨y, r'⟩, hy, hanswers⟩ := Option.map_eq_some_iff.mp hrest
  simp only [Prod.mk.injEq, Option.map_eq_some_iff, Option.bind_eq_some_iff,
    decide_eq_true_eq, Option.isNone_iff_eq_none] at hanswers
  obtain ⟨⟨hfound, hheld⟩, ⟨c, hc, a, ha, htype, hown⟩, values, hvalues, hints⟩ := hanswers
  obtain rfl := eq_ok_of_toOption hfound
  obtain rfl := eq_ok_of_toOption (Option.join_eq_some_iff.mp hvalues)
  have hr : Reachable v cat.steady r := (reachable_fresh trivial).call _ hx
  obtain ⟨elements, heq, -, hcomputed, hlater⟩ := (annotation_elements cat hr hy hc ha).2 _ rfl
  obtain rfl : values = elements := Option.some.inj heq
  obtain ⟨declaration, -, hlookup, hdenotes, -, -⟩ := hcomputed hown
  exact ⟨r, r', values, a, declaration, hx, hheld, hy, hints, htype, hdenotes, hlookup, hlater⟩

end View

/-! ### Elements that an annotation does not say -/

/-- A class with an annotation that sets an element, which comes with the elements of this annotation
computed, and there are none. -/
def MemoryStore.prefilled : MemoryStore :=
  .ofClasses "app" 0 [
    { type := ⟨"a.S", none⟩, info := {
        type := ⟨"a.S", none⟩, flags := 0x21
        annotations := [⟨⟨"a.X", none⟩, [("x", .const (.int 1))]⟩], computed := [some []] } }]

namespace View

/-- **Two annotation types**, of which the first is annotated with the second. The second one declares
one element, and its default is up to the world. -/
def redefined : List (Source Bool) :=
  [{ type := ⟨"a.S", none⟩, origin := "a.S", sourceType := .application
     load := fun _ later => (.ok (MemoryClass.annotated "a.S" 0x2600 ["a.X"]).info, later) },
   { type := ⟨"a.X", none⟩, origin := "a.X", sourceType := .application
     load := fun _ later => (.ok {
        type := ⟨"a.X", none⟩, flags := 0x2600
        methods := [{ name := "x", descriptor := "()I"
                      defaultValue := some (.const (.int (if later then 2 else 1))) }] }, later) }]

variable {σ : Type}

/-- **An annotation is belied**: a call answers elements for it, and for some name they do not have
what the annotation says if its type is what `resolve` answers in the same state. `given` tells
whether the annotated class came with elements for the annotation. -/
def Belies (v : View σ) (cat : v.project.Catalog) (given : Bool) : Prop :=
  ∃ (r r' r₁ : Session σ) (fuel id i : Nat) (c : ClassInfo) (a : AnnotationUse ClassType)
    (elements : Elements) (answer : Option Nat) (name : String), Reachable v cat.steady r ∧
    r.view.info? id = some c ∧ c.annotations[i]? = some a ∧ (c.computed? i).isSome = given ∧
    (Call.valuesWithDefaults id i).run v fuel r = some (.ok (some elements), r') ∧
    (Call.resolve a.type).run v fuel r = some (.ok answer, r₁) ∧
    elements.lookup name ≠ a.element? (answer.bind r₁.view.info?) name

/-- What is answered for an annotation of the type `t` in a state, and what the annotation says if `t`
is what `resolve` answers: whether its class came with elements for it, and both values of an element
that is an integer. -/
def compared (v : View σ) (fuel id i : Nat) (t : ClassType) (name : String) (r : Session σ) :
    Option (ClassType × Bool × Option Int32 × Option Int32) :=
  ((Call.valuesWithDefaults id i).run v fuel r).bind fun y =>
    ((Call.resolve t).run v fuel r).bind fun z =>
      y.1.toOption.join.bind fun elements => z.1.toOption.bind fun answer =>
        (r.view.info? id).bind fun c => c.annotations[i]?.map fun a =>
          (a.type, (c.computed? i).isSome, (elements.lookup name).bind (·.int?),
            (a.element? (answer.bind z.2.view.info?) name).bind (·.int?))

/-- Values that are different integers belie an annotation. -/
theorem belies_of_compared {v : View σ} {cat : v.project.Catalog} {given : Bool} {r : Session σ}
    (hr : Reachable v cat.steady r) {fuel id i : Nat} {t : ClassType} {name : String}
    {m n : Option Int32} (h : compared v fuel id i t name r = some (t, given, m, n))
    (hne : m ≠ n) : Belies v cat given := by
  simp only [compared, Option.bind_eq_some_iff, Option.map_eq_some_iff, Prod.mk.injEq] at h
  obtain ⟨⟨y, r'⟩, hy, ⟨z, r₁⟩, hz, elements, helements, answer, hanswer, c, hc, a, ha, rfl, hgiven,
    hm, hn⟩ := h
  obtain rfl := eq_ok_of_toOption (Option.join_eq_some_iff.mp helements)
  obtain rfl := eq_ok_of_toOption hanswer
  refine ⟨r, r', r₁, fuel, id, i, c, a, elements, answer, name, hr, hc, ha, hgiven, hy, hz, ?_⟩
  intro heq
  exact hne (hm.symm.trans ((congrArg (·.bind (·.int?)) heq).trans hn))

/-- **Where an annotation does not say what is answered for it.** A class may come with elements of
its own, and these are answered. And elements stay as they were computed, so that an annotation type
that is given up and loaded again as another class does not show in them. -/
theorem elements_belied :
    Belies (.ofStores [.prefilled] .full)
      (catalogOfStore .prefilled .full (MemoryStore.faultless_ofClasses ..)) true ∧
    Belies (ofSources redefined (.lru 1 Nat.one_pos))
      (catalogOfSources redefined (.lru 1 Nat.one_pos)) false := by
  constructor
  · let v : View World := .ofStores [.prefilled] .full
    have hruns : ((Call.resolve ⟨"a.S", none⟩).run v 2 (v.fresh {})).bind
        (fun x => compared v 2 0 0 ⟨"a.X", none⟩ "x" x.2) =
          some (⟨"a.X", none⟩, true, none, some 1) := by
      decide +kernel
    obtain ⟨⟨x, r⟩, hx, hcompared⟩ := Option.bind_eq_some_iff.mp hruns
    exact belies_of_compared ((reachable_fresh trivial).call _ hx) hcompared (by decide)
  · let v : View Bool := ofSources redefined (.lru 1 Nat.one_pos)
    have hruns : ((Call.resolve ⟨"a.S", none⟩).run v 3 (v.fresh false)).bind (fun x =>
        ((Call.resolve ⟨"a.S", none⟩).run v 3
          { x.2 with view := { x.2.view with world := true } }).bind fun y =>
          compared v 3 0 0 ⟨"a.X", none⟩ "x" y.2) =
            some (⟨"a.X", none⟩, false, some 1, some 2) := by
      decide +kernel
    obtain ⟨⟨x, r⟩, hx, hrest⟩ := Option.bind_eq_some_iff.mp hruns
    obtain ⟨⟨y, r'⟩, hy, hcompared⟩ := Option.bind_eq_some_iff.mp hrest
    have hr := (reachable_fresh trivial).call (W := fun _ => True) _ hx
    have hlater := hr.trans (.single (.drift (w := true) trivial))
    exact belies_of_compared (hlater.call _ hy) hcompared (by decide)

end View

end Classpath

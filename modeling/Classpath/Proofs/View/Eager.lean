import Classpath.Proofs.View.Defaults

/-!
# Which annotations are looked at

An annotation type has the elements of all its annotations computed as soon as it is built, and any
other class has those of an annotation computed if a call asks for them. That is so between calls.
Within a call it is not: a class is cached before its annotations are looked at, and whatever is
resolved for these finds it in that state, possibly deep within other builds. What can be said
within a call is said of numbers. An object that was there before is left as it is, an object that
is numbered later is done with when it is answered, and the one being built has its annotations
looked at in order (`Classpath.View.InProgress`).

An error that ends a call leaves objects behind whose annotations were not looked at. All errors of
resolving come to light, so it is enough that no call reports one; what else a query reports does no
harm (`Classpath.View.Unfailing`).

* `Classpath.View.Processed` – the law, for the objects from some number on.
* `Classpath.View.runs_resolve_processed`, `Classpath.View.runs_resolveAll_processed` – resolving.
* `Classpath.View.Call.processed` – one call.
* `Classpath.View.processed_between_calls` – the law between calls.
-/

namespace Classpath

/-- **An object that is done with**: elements are computed for all its annotations if it is an
annotation type, and else at most for those that came with elements and those at the positions
`asked`. -/
def Loaded.Processed (o : Loaded) (asked : Nat → Prop) : Prop :=
  ∀ i < o.info.annotations.length, (o.info.isAnnotationType → (o.merged? i).isSome) ∧
    ((o.merged? i).isSome → o.info.isAnnotationType ∨ (o.info.computed? i).isSome ∨ asked i)

namespace View

variable {σ : Type} {v : View σ} {W : σ → Prop} {A B : Nat → Nat → Prop} {k n fuel : Nat}
  {stuck : Prop} {s s' : ViewState σ} {l : Location σ} {src : Source σ}

/-- **The objects from the number `n` on are done with**, where `asked` are the annotations that
calls asked for. -/
def Processed (asked : Nat → Nat → Prop) (n : Nat) (s : ViewState σ) : Prop :=
  ∀ id o, n ≤ id → s.built[id]? = some o → o.Processed (asked id)

theorem Processed.mono (h : Processed A n s) (hAB : ∀ id i, A id i → B id i) : Processed B n s :=
  fun id o hid ho i hi => ⟨(h id o hid ho i hi).1, fun hsome =>
    ((h id o hid ho i hi).2 hsome).imp_right (.imp_right (hAB id i))⟩

/-- There are no objects yet. -/
theorem processed_size (hbuilt : s'.built = s.built) : Processed A s.built.size s' := by
  intro id o hid ho
  rw [hbuilt] at ho
  exact absurd (Array.getElem?_eq_some_iff.mp ho).1 (not_lt.mpr hid)

/-- Objects that were there before are left as they are. -/
theorem Processed.extend (h : Processed A n s) (htrace : Trace v W s.built.size s s')
    (hnew : Processed A s.built.size s') : Processed A n s' := by
  intro id o hid ho
  rcases lt_or_ge id s.built.size with hlt | hge
  · rw [htrace.built_eq hlt hlt] at ho
    exact h id o hid ho
  · exact hnew id o hge ho

/-! ### Building -/

/-- **A class that is being built**: its object has elements for the annotations that were looked at,
besides those with which it came, and the objects that are numbered later are done with. -/
def InProgress (m : Nat) (c : ClassInfo) (done : List (AnnotationUse ClassType × Nat))
    (s : ViewState σ) : Prop :=
  (∃ o, s.built[m]? = some o ∧ o.info = c ∧ o.merged.length = c.annotations.length ∧
    ∀ i < c.annotations.length,
      (o.merged? i).isSome ↔ (c.computed? i).isSome ∨ i ∈ done.map Prod.snd) ∧
  Processed (fun _ _ => False) (m + 1) s

theorem inProgress_install {c : ClassInfo} {w : σ} :
    InProgress s.built.size c [] (s.install src.type c w) := by
  refine ⟨⟨.fresh c, ViewState.built_install_self, rfl, by simp [Loaded.fresh],
    fun i hi => ?_⟩, ?_⟩
  · simp [Loaded.merged?_fresh, hi]
  · have hsize : (s.install src.type c w).built.size = s.built.size + 1 := by
      simp [ViewState.install]
    exact hsize ▸ processed_size rfl

/-- Looking at the next annotation. -/
theorem InProgress.next {m i : Nat} {c : ClassInfo} {done : List (AnnotationUse ClassType × Nat)}
    {a : AnnotationUse ClassType} (h : InProgress m c done s) (hm : m < s.built.size)
    (hi : i < c.annotations.length) (htrace : Trace v W s.built.size s s')
    (hnew : Processed (fun _ _ => False) s.built.size s') (elements : Elements) :
    InProgress m c (done ++ [(a, i)]) (s'.recorded m i elements) := by
  obtain ⟨⟨o, ho, rfl, hplace, hdone⟩, hlater⟩ := h
  have ho' : s'.built[m]? = some o := (htrace.built_eq hm hm).trans ho
  refine ⟨⟨o.setMerged i elements, ?_, rfl, by simpa [Loaded.setMerged] using hplace,
    fun j hj => ?_⟩, ?_⟩
  · rw [ViewState.built_recorded_self, ho', Option.map_some]
  · have hlt : i < o.merged.length := by rw [hplace]; exact hi
    rw [List.map_append, List.mem_append, ← or_assoc]
    by_cases hij : i = j
    · subst hij
      simp [Loaded.merged?_setMerged, hlt]
    · rw [Loaded.merged?_setMerged_of_ne hij, hdone j hj]
      simp [Ne.symm hij]
  · intro id o' hid ho'
    rw [ViewState.built_recorded_of_ne (by omega)] at ho'
    exact (hlater.extend htrace hnew) id o' hid ho'

/-- A class is done with when all annotations that are to be looked at were. -/
theorem InProgress.processed {m : Nat} {c : ClassInfo} (h : InProgress m c c.eager s) :
    Processed (fun _ _ => False) m s := by
  obtain ⟨⟨o, ho, rfl, -, hdone⟩, hlater⟩ := h
  intro id o' hid ho'
  rcases eq_or_lt_of_le hid with rfl | hlt
  · obtain rfl : o = o' := Option.some.inj (ho.symm.trans ho')
    intro i hi
    have heager : i ∈ o.info.eager.map Prod.snd ↔
        o.info.isAnnotationType ∧ o.info.computed? i = none := by
      simp [ClassInfo.mem_eager, List.getElem?_eq_getElem hi]
    rw [hdone i hi, heager, ← Option.not_isSome_iff_eq_none]
    by_cases hcomputed : (o.info.computed? i).isSome <;> simp [hcomputed]
  · exact hlater id o' hlt ho'

/-- **Building leaves everything done with** that is numbered since, if resolving does. -/
theorem runs_build_processed {res : ClassType → Action σ (Option Nat)} (hW : Steady v W)
    (hs : Sound v W s) (hw : W s.world) (hl : Chosen v W l src)
    (habsent : s.cache.find? src.type = none ∨ ∃ t, Finds v W t l src ∧ src.type ≠ t)
    (hres : ∀ t s', Sound v W s' → W s'.world → Runs v W s'.built.size stuck (res t) s'
      fun answer s'' => Answers v W t answer s'' ∧ Processed (fun _ _ => False) s'.built.size s'') :
    Runs v W s.built.size stuck (v.build res l src) s fun id s' =>
      (∃ c, (src.build (v.context l src) s.world).1 = .ok c ∧ s'.info? id = some c) ∧
        Processed (fun _ _ => False) s.built.size s' := by
  refine (runs_build (I := InProgress s.built.size) hW hs hw hl habsent
    (fun _ _ _ _ => inProgress_install) fun c done a i rest s' _ hsplit htrace hs' hw' hI => ?_).imp
      fun id s' _ h => ?_
  · have hm : s.built.size < s'.built.size := by
      obtain ⟨⟨o, ho, -⟩, -⟩ := hI
      exact (Array.getElem?_eq_some_iff.mp ho).1
    have hmem : (a, i) ∈ c.eager := by simp [hsplit]
    have hi : i < c.annotations.length :=
      (List.getElem?_eq_some_iff.mp (ClassInfo.mem_eager.mp hmem).2.1).1
    exact (hres a.type s' hs' hw').imp fun answer s'' htrace' h =>
      ⟨h.1, fun elements => hI.next hm hi htrace' h.2 elements⟩
  · obtain ⟨c, hc, hid, hI⟩ := h
    exact ⟨⟨c, hc, hid⟩, hI.processed⟩

/-! ### Resolving -/

/-- **Resolving leaves everything done with** that is numbered since. -/
theorem runs_resolve_processed (hW : Steady v W) : ∀ {n : Nat} {t : ClassType} {s : ViewState σ},
    Sound v W s → W s.world → Runs v W s.built.size True (v.resolve n t) s fun answer s' =>
      Answers v W t answer s' ∧ Processed (fun _ _ => False) s.built.size s'
  | 0, _, _, _, _ => trivial
  | n + 1, t, s, hs, hw => by
    refine runs_resolve_succ hW hw (fun id hid => ⟨hs.answers hid _, processed_size rfl⟩)
      (fun _ hnone _ _ => ⟨hnone, processed_size rfl⟩) fun hnone l src w hfinds hw' => ?_
    refine (runs_build_processed hW (hs.inWorld w) hw' (.inl ⟨t, hfinds⟩)
      (hfinds.absent_or_ne hnone) fun t s' hs' hw'' => runs_resolve_processed hW hs' hw'').imp
      fun id s' _ h => ?_
    obtain ⟨⟨c, hc, hid⟩, hprocessed⟩ := h
    exact ⟨hfinds.answers hc hid, hprocessed⟩

/-- Scanning leaves everything done with as well. -/
theorem scanRule_processed (hW : Steady v W) :
    ScanRule v W n True fuel fun _ s =>
      (Sound v W s ∧ n ≤ s.built.size) ∧ Processed (fun _ _ => False) n s where
  world hs _ := ⟨⟨hs.1.1.inWorld _, hs.1.2⟩, hs.2⟩
  held hs _ := hs
  build {_ s l src} hs hw hscans _ habsent := by
    have hrun := runs_build_processed hW hs.1.1 hw (.inr hscans) (.inl habsent)
      fun t s' hs' hw' => runs_resolve_processed (n := fuel) (t := t) hW hs' hw'
    refine (hrun.imp fun _ s' htrace h => ?_).mono hs.1.2
    exact ⟨⟨Trace.sound htrace hs.1.1, hs.1.2.trans htrace.size_le⟩, hs.2.extend htrace h.2⟩

theorem runs_resolveAll_processed (hW : Steady v W) (hs : Sound v W s) (hw : W s.world) :
    RunsAll v W s.built.size True (v.resolveAll fuel) s
      (Processed (fun _ _ => False) s.built.size) :=
  runs_resolveAll (scanRule_processed hW) hW hw (fun _ => ⟨⟨hs, le_rfl⟩, processed_size rfl⟩)
    (fun _ => processed_size rfl) fun _ _ h _ => h.2

/-- **Computing elements that are asked for** leaves everything done with. -/
theorem runs_valuesWithDefaults_processed (hW : Steady v W) (hs : Sound v W s) (hw : W s.world)
    {id i : Nat} (hA : A id i) (h : Processed A 0 s) :
    Runs v W 0 True (v.valuesWithDefaults fuel id i) s fun _ => Processed A 0 := by
  refine runs_valuesWithDefaults h fun o a ho ha hnone => ?_
  refine (runs_resolve_processed hW hs hw).imp fun answer s' htrace h' =>
    ⟨h'.1, fun elements j o' _ ho' => ?_⟩
  have hid : id < s.built.size := (Array.getElem?_eq_some_iff.mp ho).1
  have hbefore := h.extend htrace (h'.2.mono fun _ _ => False.elim)
  by_cases hj : j = id
  · subst hj
    rw [ViewState.built_recorded_self, htrace.built_eq hid hid, ho] at ho'
    obtain rfl : o.setMerged i elements = o' := Option.some.inj ho'
    intro j' hj'
    by_cases hi : i = j'
    · -- the annotation is asked for, and its object is of another kind
      subst hi
      refine ⟨fun hkind => ?_, fun _ => .inr (.inr hA)⟩
      have hsome := (h j o (Nat.zero_le j) ho i hj').1 hkind
      rw [hnone] at hsome
      cases hsome
    · rw [Loaded.merged?_setMerged_of_ne hi]
      exact h j o (Nat.zero_le j) ho j' hj'
  · rw [ViewState.built_recorded_of_ne hj] at ho'
    exact hbefore j o' (Nat.zero_le j) ho'

/-! ### Calls -/

variable (v W) in
/-- **A view between calls.** -/
structure Between (asked : Nat → Nat → Prop) (s : ViewState σ) : Prop where
  sound : Sound v W s
  world : W s.world
  processed : Processed asked 0 s

theorem Between.of_trace (h : Between v W A s) (hW : Steady v W)
    (htrace : Trace v W s.built.size s s')
    (hnew : Processed (fun _ _ => False) s.built.size s') : Between v W A s' where
  sound := Trace.sound htrace h.sound
  world := hW.trace htrace h.world
  processed := h.processed.extend htrace (hnew.mono fun _ _ => False.elim)

/-- An error of resolving excuses everything. -/
theorem queryRule_between (hW : Steady v W) :
    QueryRule v (Between v W A) (fun _ => True) fun e s =>
      (∀ cause, e ≠ .resolve cause) → Between v W A s where
  resolve _ _ _ h := Run.Outcome.imp (runs_resolve_processed hW h.sound h.world)
    (fun _ _ h' => h.of_trace hW h'.1 h'.2.2) fun e _ _ hother => absurd rfl (hother e)
  unknownType _ _ h _ := h
  cycle _ _ h _ := h
  ancestors _ _ _ := trivial

theorem viewRule_between (hW : Steady v W) :
    ViewRule v (Between v W A) (fun _ => True) fun e s =>
      (∀ cause, e ≠ .resolve cause) → Between v W A s where
  toResolveRule := (queryRule_between hW).toResolveRule
  resolveAll _ s h := by
    refine Run.Outcome.imp (runs_resolveAll_processed hW h.sound h.world)
      (fun _ _ h' => ⟨?_, fun _ _ => trivial⟩) fun e _ _ hother => absurd rfl (hother e)
    have hmarked : Between v W A (s.marked true) := ⟨h.sound.marked true, h.world, h.processed⟩
    exact hmarked.of_trace hW h'.1 h'.2.2

/-- **A call leaves everything done with** if it reports no error of resolving, and what it asks for
counts as asked for. -/
theorem Call.processed (hW : Steady v W) {α : Type} {c : Call α} {r r' : Session σ}
    {x : Except HierarchyError α} (h : Between v W A r.view)
    (hasked : ∀ id i, c.asked? = some (id, i) → A id i) (hrun : c.run v fuel r = some (x, r'))
    (hx : ∀ e, x ≠ .error (.resolve e)) : Between v W A r'.view := by
  have hends := c.keeps_of (queryRule_between (A := A) hW) (viewRule_between hW) fuel h
    (fun _ => trivial) fun id i hi => Run.Outcome.imp
      (runs_valuesWithDefaults_processed hW h.sound h.world (hasked id i hi) h.processed)
      (fun _ _ h' => ⟨Trace.sound h'.1 h.sound, hW.trace h'.1 h.world, h'.2⟩)
      fun e _ _ hother => absurd rfl (hother e)
  cases x with
  | ok a => exact (hends.ok hrun).1
  | error e => exact (hends.error hrun).2 fun cause he => hx cause (he ▸ rfl)

/-! ### Sessions -/

variable (v W) in
/-- **The states of a view in use while no call reported an error of resolving**, with the
annotations that calls asked for. -/
inductive Unfailing : Session σ → List (Nat × Nat) → Prop
  | start {w : σ} : W w → Unfailing (v.fresh w) []
  | call {r r' : Session σ} {asked : List (Nat × Nat)} {α : Type} {x : Except HierarchyError α}
      (c : Call α) (fuel : Nat) : Unfailing r asked → c.run v fuel r = some (x, r') →
      (∀ e, x ≠ .error (.resolve e)) → Unfailing r' (c.asked?.toList ++ asked)
  | drift {r : Session σ} {asked : List (Nat × Nat)} {w : σ} : Unfailing r asked → W w →
      Unfailing { r with view := { r.view with world := w } } asked

theorem Unfailing.reachable {r : Session σ} {asked : List (Nat × Nat)}
    (h : Unfailing v W r asked) : Reachable v W r := by
  induction h with
  | start hw => exact reachable_fresh hw
  | call c fuel _ hrun _ ih => exact ih.call c hrun
  | drift _ hw ih => exact ih.trans (.single (.drift hw))

/-- **Between calls everything is done with**, as long as no call reports an error of resolving. -/
theorem Unfailing.between (hW : Steady v W) {r : Session σ} {asked : List (Nat × Nat)}
    (h : Unfailing v W r asked) : Between v W (fun id i => (id, i) ∈ asked) r.view := by
  induction h with
  | @start w hw => exact ⟨sound_start w, hw, processed_size (s := v.start w) rfl⟩
  | call c fuel _ hrun hx ih =>
    refine c.processed hW ⟨ih.sound, ih.world, ih.processed.mono fun _ _ h => ?_⟩
      (fun id i hi => ?_) hrun hx
    · exact List.mem_append_right _ h
    · exact List.mem_append_left _ (Option.mem_toList.mpr hi)
  | drift _ hw ih => exact ⟨ih.sound.inWorld _, hw, ih.processed⟩

/-! ### The guarantee -/

/-- **Which annotations are looked at**, for every project and cache policy, between the calls of
every session in which no call reports an error of resolving.

* What is cached for a type is an object of that type.
* An object that is an annotation type, cached or not, has elements for all its annotations.
* Any other object has elements at most for those annotations that a call asked for, apart from those
  with which it was loaded. -/
theorem processed_between_calls {r : Session σ} {asked : List (Nat × Nat)}
    (h : Unfailing v (fun _ => True) r asked) :
    (∀ t id, (t, id) ∈ r.view.cache.entries → ∃ c, r.view.info? id = some c ∧ c.type = t) ∧
    (∀ id c, r.view.info? id = some c → c.isAnnotationType →
      ∀ i < c.annotations.length, (r.view.elements? id i).isSome) ∧
    ∀ id c i, r.view.info? id = some c → ¬ c.isAnnotationType → c.computed? i = none →
      (r.view.elements? id i).isSome → (id, i) ∈ asked := by
  obtain ⟨hs, -, hprocessed⟩ := h.between steady_any
  refine ⟨fun t id hentry => hs.held t id (hs.kept.find?_eq_some.mpr hentry),
    fun id c hc hkind i hi => ?_, fun id c i hc hkind hcomputed hsome => ?_⟩
  · obtain ⟨o, ho, rfl⟩ := Option.map_eq_some_iff.mp hc
    rw [elements?_of_object ho]
    exact (hprocessed id o (Nat.zero_le id) ho i hi).1 hkind
  · obtain ⟨o, ho, rfl⟩ := Option.map_eq_some_iff.mp hc
    rw [elements?_of_object ho] at hsome
    have hi : i < o.info.annotations.length := by
      rw [← h.reachable.parallel steady_any id o ho]
      by_contra hge
      rw [Loaded.merged?, List.getElem?_eq_none (not_lt.mp hge)] at hsome
      cases hsome
    have hwhy := ((hprocessed id o (Nat.zero_le id) ho i hi).2 hsome).resolve_left hkind
    exact hwhy.resolve_left (by simp [hcomputed])

end View

/-- Two annotation types, each annotated with the other, and a class that is annotated with both. -/
def MemoryStore.applied : MemoryStore :=
  .ofClasses "app" 0 [.annotated "a.A" 0x2600 ["a.B"], .annotated "a.B" 0x2600 ["a.A"],
    .annotated "a.S" 0x21 ["a.A", "a.B"]]

namespace View

/-- With room for two classes: the class and one of the annotation types are resolved, which builds
the other one, and then the second annotation of the class is asked for. The annotation types have
elements for their annotations, and the class has none for its first annotation. -/
theorem processed_between_calls_applied :
    let v : View World := .ofStores [.applied] (.lru 2 Nat.two_pos)
    ∃ r : Session World, Unfailing v (fun _ => True) r [(0, 1)] ∧
      r.view.cache.contains ⟨"a.S", none⟩ = false ∧
      (r.view.elements? 0 0 = none ∧ (r.view.elements? 0 1).isSome) ∧
      (r.view.elements? 1 0).isSome ∧ (r.view.elements? 2 0).isSome := by
  intro v
  have hruns : (((Call.resolve ⟨"a.S", none⟩).run v 3 (v.fresh {})).bind fun x =>
      ((Call.resolve ⟨"a.A", none⟩).run v 4 x.2).bind fun y =>
        ((Call.valuesWithDefaults 0 1).run v 4 y.2).map fun z =>
          ((x.1.toOption.isSome, y.1.toOption.isSome, z.1.toOption.isSome),
            (z.2.view.cache.contains ⟨"a.S", none⟩,
              (z.2.view.elements? 0 1).isSome && !((z.2.view.info? 0).bind (·.computed? 0)).isSome),
            [0, 1, 2].map fun id => (z.2.view.info? id).map fun c =>
              (c.isAnnotationType, c.annotations.length))) =
      some ((true, true, true), (false, true),
        [some (false, 2), some (true, 1), some (true, 1)]) := by
    decide +kernel
  obtain ⟨⟨x, r₁⟩, hx, hrest⟩ := Option.bind_eq_some_iff.mp hruns
  obtain ⟨⟨y, r₂⟩, hy, hrest⟩ := Option.bind_eq_some_iff.mp hrest
  obtain ⟨⟨z, r⟩, hz, hanswers⟩ := Option.map_eq_some_iff.mp hrest
  simp only [Prod.mk.injEq, List.map_cons, List.map_nil, List.cons.injEq, Bool.and_eq_true,
    Option.map_eq_some_iff, Bool.not_eq_true', Option.isSome_eq_false_iff,
    Option.isNone_iff_eq_none] at hanswers
  obtain ⟨⟨hxok, hyok, hzok⟩, ⟨hgone, hasked, hbare⟩, ⟨c, hc, hplain, hctwo⟩,
    ⟨d, hd, hdkind, hdone⟩, ⟨e, he, hekind, heone⟩, -⟩ := hanswers
  rw [hc, Option.bind_some] at hbare
  have hok : ∀ {α : Type} {x : Except HierarchyError α}, x.toOption.isSome → ∀ cause,
      x ≠ .error (.resolve cause) := by
    rintro α x hx cause rfl
    cases hx
  have h : Unfailing v (fun _ => True) r [(0, 1)] :=
    (((Unfailing.start trivial).call _ _ hx (hok hxok)).call _ _ hy (hok hyok)).call _ _ hz
      (hok hzok)
  obtain ⟨-, heager, hlazy⟩ := processed_between_calls h
  refine ⟨r, h, hgone, ⟨?_, hasked⟩, heager 1 d hd hdkind 0 (hdone ▸ Nat.one_pos),
    heager 2 e he hekind 0 (heone ▸ Nat.one_pos)⟩
  rw [← Option.not_isSome_iff_eq_none]
  intro hsome
  simpa using hlazy 0 c 0 hc (by simp [hplain]) hbare hsome

end View

end Classpath

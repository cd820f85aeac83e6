import Classpath.Proofs.View.Completion
import Classpath.Proofs.View.Settled

/-!
# After a failure

A call may fail after it has built and cached classes: in the middle of a scan, or while the
annotations of a class are looked at that is cached itself. Nothing of that is taken back, and
nothing has to be. What is left in the cache was built completely, what an error blames is not in
the cache, and a view that keeps everything has given nothing up. So once the stores are mended the
view answers as one that never saw a failure.

* `Classpath.View.Uncached`, `Classpath.View.ends_resolve_uncached`,
  `Classpath.View.ends_resolveAll_uncached` – what an error blames.
* `Classpath.View.Intact` – what a failed call leaves.
* `Classpath.View.Recovers` – a coherent project whose failing builds succeed in some worlds.
* `Classpath.View.recovery` – both guarantees.
-/

namespace Classpath

namespace View

variable {σ : Type} {v : View σ} {W : σ → Prop} {s : ViewState σ} {α : Type}

/-! ### What an error blames -/

/-- A class that could not be built, if that is the error, is not cached. -/
def Uncached (e : ResolveError) (s : ViewState σ) : Prop :=
  ∀ t cause, e = .build t cause → s.cache.find? t = none

section Blame

variable {res : ClassType → Action σ (Option Nat)}

theorem ends_materialize_uncached
    (hres : ∀ t s, (res t).Ends s (fun _ _ => True) Uncached) (id i : Nat)
    (a : AnnotationUse ClassType) (s : ViewState σ) :
    (materialize res id a i).Ends s (fun _ _ => True) Uncached := by
  rw [materialize]
  refine Run.outcome_bind.mpr (Run.outcome_read.mpr ?_)
  rcases (s.built[id]?.getD default).merged? i with _ | elements
  · refine Run.outcome_bind.mpr ((hres a.type s).imp (fun answer s' _ => ?_) fun _ _ he => he)
    cases answer <;> trivial
  · trivial

theorem ends_materializeAll_uncached
    (hres : ∀ t s, (res t).Ends s (fun _ _ => True) Uncached) (id : Nat) (c : ClassInfo)
    (s : ViewState σ) : (materializeAll res id c).Ends s (fun _ _ => True) Uncached := by
  refine Run.outcome_forEach (fun _ _ => True) (fun ⟨a, i⟩ rest s' _ => ?_) trivial
  exact Run.outcome_bind.mpr ((ends_materialize_uncached hres id i a s').imp
    (fun _ _ _ => trivial) fun _ _ he => he)

/-- A source is only loaded if its type is not cached, and nothing happens after it fails. -/
theorem ends_build_uncached (hres : ∀ t s, (res t).Ends s (fun _ _ => True) Uncached)
    {l : Location σ} {src : Source σ} (hnone : s.cache.find? src.type = none) :
    (v.build res l src).Ends s (fun _ _ => True) Uncached := by
  rcases hbuild : src.build (v.context l src) s.world with ⟨e | c, w⟩
  · rw [Run.Ends, Run.Outcome, build_of_error hbuild]
    rintro t cause ⟨⟩
    exact hnone
  · rw [Run.Ends, Run.Outcome, build_of_absent hbuild hnone]
    change Run.Ends _ (s.install src.type c w) _ _
    split
    · exact Run.outcome_bind.mpr ((ends_materializeAll_uncached hres _ c _).imp
        (fun _ _ _ => trivial) fun _ _ he => he)
    · trivial

theorem ends_findIn_uncached (hres : ∀ t s, (res t).Ends s (fun _ _ => True) Uncached)
    {t : ClassType} : ∀ {locations : List (Location σ)} {s : ViewState σ},
      (∀ l ∈ locations, ∀ w src, (l.find t w).1 = .ok (some src) → src.type = t) →
      s.cache.find? t = none → (v.findIn res t locations).Ends s (fun _ _ => True) Uncached
  | [], _, _, _ => trivial
  | l :: rest, s, hself, hnone => by
    rw [findIn]
    refine Run.outcome_bind.mpr (Run.outcome_step.mpr ?_)
    dsimp only
    rcases hfind : (l.find t s.world).1 with e | _ | src
    · rintro u cause ⟨⟩
    · exact ends_findIn_uncached hres (fun m hm => hself m (List.mem_cons_of_mem l hm)) hnone
    · have htype : src.type = t := hself l (List.mem_cons_self ..) s.world src hfind
      refine Run.outcome_bind.mpr ((ends_build_uncached hres ?_).imp (fun _ _ _ => trivial)
        fun _ _ he => he)
      rw [htype]
      exact hnone

end Blame

variable (hself : v.project.SelfTyped)

include hself

/-- **Resolving blames what is not cached.** -/
theorem ends_resolve_uncached : ∀ (fuel : Nat) (t : ClassType) (s : ViewState σ),
    (v.resolve fuel t).Ends s (fun _ _ => True) Uncached
  | 0, _, _ => trivial
  | fuel + 1, t, s => by
    rw [resolve]
    refine Run.outcome_bind.mpr (Run.outcome_step.mpr ?_)
    dsimp only
    rw [Cache.get_fst]
    rcases hheld : s.cache.find? t with _ | id
    · refine ends_findIn_uncached (ends_resolve_uncached fuel)
        (fun l hl w src hfind => hself l hl t w src hfind) ?_
      rw [Cache.find?_get]
      exact hheld
    · trivial

theorem ends_scanEntries_uncached (fuel : Nat) (l : Location σ) :
    ∀ (entries : List (Except LocationError (Source σ))) (seen : List ClassType)
      (s : ViewState σ), (v.scanEntries fuel l seen entries).Ends s (fun _ _ => True) Uncached
  | [], _, _ => trivial
  | .error _ :: _, _, _ => by
    rintro t cause ⟨⟩
  | .ok src :: rest, seen, s => by
    rw [scanEntries]
    split
    · exact ends_scanEntries_uncached fuel l rest seen s
    · refine Run.outcome_bind.mpr (Run.outcome_read.mpr ?_)
      rcases hcached : s.cache.contains src.type with _ | _
      · refine Run.outcome_bind.mpr ((ends_build_uncached (ends_resolve_uncached hself fuel)
          (Cache.contains_eq_false.mp hcached)).imp (fun _ s' _ => ?_) fun _ _ he => he)
        exact ends_scanEntries_uncached fuel l rest _ s'
      · exact ends_scanEntries_uncached fuel l rest _ s

theorem ends_scanParts_uncached (fuel : Nat) (l : Location σ) :
    ∀ (parts : Listing σ) (seen : List ClassType) (s : ViewState σ),
      (v.scanParts fuel l seen parts).Ends s (fun _ _ => True) Uncached
  | [], _, _ => trivial
  | part :: rest, seen, s => by
    rw [scanParts]
    refine Run.outcome_bind.mpr (Run.outcome_step.mpr (Run.outcome_bind.mpr ?_))
    refine (ends_scanEntries_uncached hself fuel l _ seen _).imp (fun seen' s' _ => ?_)
      fun _ _ he => he
    exact ends_scanParts_uncached fuel l rest seen' s'

theorem ends_scan_uncached (fuel : Nat) :
    ∀ (locations : List (Location σ)) (seen : List ClassType) (s : ViewState σ),
      (v.scan fuel seen locations).Ends s (fun _ _ => True) Uncached
  | [], _, _ => trivial
  | l :: rest, seen, s => by
    rw [scan]
    refine Run.outcome_bind.mpr (Run.outcome_step.mpr ?_)
    dsimp only
    rcases (l.list v.project.naming s.world).1 with e | listing
    · rintro t cause ⟨⟩
    · refine Run.outcome_bind.mpr ((ends_scanParts_uncached hself fuel l listing seen _).imp
        (fun seen' s' _ => ?_) fun _ _ he => he)
      exact ends_scan_uncached fuel rest seen' s'

/-- **Listing every class blames what is not cached.** -/
theorem ends_resolveAll_uncached (fuel : Nat) (s : ViewState σ) :
    (v.resolveAll fuel).Ends s (fun _ _ => True) Uncached := by
  rw [resolveAll]
  refine Run.outcome_bind.mpr (Run.outcome_read.mpr ?_)
  rcases s.complete with _ | _
  · exact Run.outcome_bind.mpr ((ends_scan_uncached hself fuel v.project.locations [] s).imp
      (fun _ _ _ => trivial) fun _ _ he => he)
  · trivial

omit hself

/-! ### What a failed call leaves -/

/-- For each of its annotations an object has a place for the elements that are computed. -/
def Parallel (s : ViewState σ) : Prop :=
  ∀ (id : Nat) (o : Loaded), s.built[id]? = some o → o.merged.length = o.info.annotations.length

theorem Step.parallel {k : Nat} {s' : ViewState σ} (h : Step v W k s s') (hs : Parallel s) :
    Parallel s' := by
  intro id o ho
  rcases h.of_built ho with hold | ⟨-, c, rfl⟩ | ⟨before, i, a, answer, hbefore, -, -, -, rfl⟩
  · exact hs id o hold
  · simp [Loaded.fresh]
  · simpa [Loaded.setMerged] using hs id before hbefore

theorem Reachable.parallel (hW : Steady v W) {r : Session σ} (h : Reachable v W r) :
    Parallel r.view := by
  obtain ⟨w, hw, hnext⟩ := h
  have hstart : Parallel (v.fresh w).view := by
    intro id o ho
    simp [fresh, start] at ho
  exact (next_invariant hW (fun _ _ _ h hstep => hstep.parallel h) (fun _ _ h _ => h)
    (fun _ _ h => h) hnext (sound_start w) hw hstart).2.2

variable (v) in
/-- **An object that was built completely** for a type: a chosen source of the type was loaded
without an error, and the object has the class that this gave. -/
def BuiltCompletely (s : ViewState σ) (t : ClassType) (id : Nat) : Prop :=
  ∃ l src w o, Chosen v (fun _ => True) l src ∧ src.type = t ∧ s.built[id]? = some o ∧
    (src.build (v.context l src) w).1 = .ok o.info ∧ o.merged.length = o.info.annotations.length

variable (v) in
/-- **What a call leaves that fails with `e`.** The mark of a scan is what it was, and a class that
the error blames is not cached. A view that keeps everything still has the objects that it had, and
what it has cached besides are new objects that were built completely. -/
structure Intact (r r' : Session σ) (e : HierarchyError) : Prop where
  mark : r'.view.complete = r.view.complete
  blamed : ∀ t cause, e = .resolve (.build t cause) → r'.view.cache.find? t = none
  kept : v.options.policy = .full → ∀ t id, r.view.cache.find? t = some id →
    r'.view.cache.find? t = some id ∧ r'.view.info? id = r.view.info? id
  added : v.options.policy = .full → ∀ t id, r.view.cache.find? t = none →
    r'.view.cache.find? t = some id → r.view.built.size ≤ id ∧ BuiltCompletely v r'.view t id

/-- **A call that fails leaves the view intact** if its error blames nothing that is cached. -/
theorem Call.intact (hself : v.project.SelfTyped) (c : Call α) {fuel : Nat} {e : HierarchyError}
    {r r' : Session σ} (hr : Reachable v (fun _ => True) r)
    (hblamed : ∀ t cause, e = .resolve (.build t cause) → r'.view.cache.find? t = none)
    (hrun : c.run v fuel r = some (.error e, r')) : Intact v r r' e := by
  obtain ⟨hs, hw⟩ := hr.sound steady_any
  have hr' := hr.call c hrun
  obtain ⟨hs', -⟩ := hr'.sound steady_any
  have hinfo : ∀ id d, r.view.info? id = some d → r'.view.info? id = some d := fun id d hd =>
    (c.trace steady_any hs hw hrun).info? (s := r.view.marked _) hd
  refine ⟨c.complete_eq steady_any hs hw hrun fun _ => ⟨e, rfl⟩, hblamed,
    fun hfull t id hid => ⟨?_, ?_⟩, fun hfull t id hnone hid => ⟨?_, ?_⟩⟩
  · exact next_held hfull steady_any (.single (.call c fuel hrun)) hs hw hid
  · obtain ⟨d, hd, -⟩ := hs.held t id hid
    rw [hd, hinfo id d hd]
  -- an object that was there before is the one that was cached for its type
  · by_contra hlt
    obtain ⟨d, hd⟩ : ∃ d, r.view.info? id = some d := by
      rw [ViewState.info?, Array.getElem?_eq_getElem (not_le.mp hlt)]
      exact ⟨_, rfl⟩
    obtain ⟨d', hd', htype⟩ := hs'.held t id hid
    obtain rfl : d = d' := Option.some.inj ((hinfo id d hd).symm.trans hd')
    have hheld := hr.onePerClass hself hfull steady_any id d hd
    rw [htype, hnone] at hheld
    cases hheld
  · obtain ⟨d, hd, htype⟩ := hs'.held t id hid
    obtain ⟨o, ho, rfl⟩ := Option.map_eq_some_iff.mp hd
    obtain ⟨l, src, w, hchosen, -, hbuild⟩ := hs'.loaded id o.info hd
    exact ⟨l, src, w, o, hchosen, (Source.type_of_build hbuild).symm.trans htype, ho, hbuild,
      hr'.parallel steady_any id o ho⟩

/-- What an error blames, as an error of a call. -/
theorem blamed_onView {a : Action σ α} {r r' : Session σ} {e : HierarchyError}
    (h : a.Ends r.view (fun _ _ => True) Uncached) (hrun : onView a r = some (.error e, r')) :
    ∀ t cause, e = .resolve (.build t cause) → r'.view.cache.find? t = none := by
  have hends : (onView a).Ends r (fun _ _ => True) fun e r' => ∀ t cause,
      e = .resolve (.build t cause) → r'.view.cache.find? t = none := by
    refine Run.outcome_zoom.mpr (h.imp (fun _ _ _ => trivial) fun e' s' he => ?_)
    rintro t cause ⟨⟩
    exact he t cause rfl
  exact hends.error hrun

/-! ### Some of the worlds -/

section Mono

variable {W' : σ → Prop} (hsub : ∀ w, W w → W' w)

include hsub

theorem Reads.mono {listing : Listing σ} {entries : List (Except LocationError (Source σ))}
    (h : Reads W listing entries) : Reads W' listing entries := by
  induction h with
  | nil => exact .nil
  | snoc part _ hw ih => exact .snoc part ih (hsub _ hw)

theorem Lists.mono {l : Location σ} {entries : List (Except LocationError (Source σ))}
    (h : Lists v W l entries) : Lists v W' l entries := by
  obtain ⟨w, listing, hw, hlist, hreads⟩ := h
  exact ⟨w, listing, hsub w hw, hlist, hreads.mono hsub⟩

/-- What is chosen in some of the worlds is chosen. -/
theorem Chosen.mono {l : Location σ} {src : Source σ} (h : Chosen v W l src) :
    Chosen v W' l src := by
  rcases h with ⟨t, before, after, hsplit, hbefore, w, hw, hfind⟩ |
    ⟨before, after, hsplit, hbefore, earlier, later, hlists, hearlier⟩
  · refine .inl ⟨t, before, after, hsplit, fun m hm => ?_, w, hsub w hw, hfind⟩
    obtain ⟨w', hw', hnone⟩ := hbefore m hm
    exact ⟨w', hsub w' hw', hnone⟩
  · refine .inr ⟨before, after, hsplit, fun m hm => ?_, earlier, later, hlists.mono hsub, hearlier⟩
    obtain ⟨entries, hlists', hne⟩ := hbefore m hm
    exact ⟨entries, hlists'.mono hsub, hne⟩

theorem Absent.mono {t : ClassType} (h : Absent v W t) : Absent v W' t := by
  intro l hl
  obtain ⟨w, hw, hnone⟩ := h l hl
  exact ⟨w, hsub w hw, hnone⟩

end Mono

section Catalog

variable {cat : v.project.Catalog} (hsub : ∀ w, W w → cat.steady w) {t : ClassType}

include hsub

/-- The provider of a type is found in every world. -/
theorem finds_of_provider {w : σ} (hw : W w) {l : Location σ} {src : Source σ}
    (h : cat.provider t = some (l, src)) : Finds v W t l src := by
  obtain ⟨before, after, hsplit, hbefore, earlier, later, hlisted, hearlier, htype⟩ :=
    Project.Catalog.provider_eq_some.mp h
  refine ⟨before, after, hsplit, fun m hm => ⟨w, hw, ?_⟩, w, hw, ?_⟩
  · rw [cat.find m (by simp [hsplit, hm]) t w (hsub w hw)]
    exact congrArg _ (List.find?_eq_none.mpr fun other hother => by
      simpa using hbefore m hm other hother)
  · rw [cat.find l (by simp [hsplit]) t w (hsub w hw)]
    refine congrArg _ (List.find?_eq_some_iff_append.mpr ⟨by simpa using htype, earlier, later,
      hlisted, by simpa using hearlier⟩)

/-- **What a location lists is listed in every world**, so it does not matter in which of them it is
read. -/
theorem listed_iff {w : σ} (hw : W w) : Listed v W t ↔ t ∈ cat.types := by
  rw [Project.Catalog.mem_types]
  constructor
  · rintro ⟨l, hl, hread⟩
    obtain ⟨listing, hlist⟩ := cat.list l hl w (hsub w hw)
    obtain ⟨entries, hreads⟩ := Reads.extend (W := W) .nil hw listing
    rw [List.nil_append, List.nil_append] at hreads
    have hlists : Lists v W l entries := ⟨w, listing, hw, hlist, hreads⟩
    obtain ⟨src, hsrc, htype⟩ := hread entries hlists
    rw [Lists.eq cat hl (hlists.mono hsub)] at hsrc
    obtain ⟨other, hother, heq⟩ := List.mem_map.mp hsrc
    exact ⟨l, hl, other, hother, Except.ok.inj heq ▸ htype⟩
  · rintro ⟨l, hl, src, hsrc, htype⟩
    refine ⟨l, hl, fun entries hlists => ⟨src, ?_, htype⟩⟩
    rw [Lists.eq cat hl (hlists.mono hsub)]
    exact List.mem_map_of_mem hsrc

end Catalog

/-! ### Recovering -/

/-- **A coherent project whose failing builds succeed in the worlds `mended`**, which the steps of
the view do not lead out of. The provider of a type is loaded to the class that the table `classOf`
has, in these worlds always and in the others unless it fails. -/
structure Recovers (cat : v.project.Catalog) (mended : σ → Prop)
    (classOf : ClassType → Option ClassInfo) : Prop where
  coherent : ∀ w, mended w → cat.steady w
  steady : Steady v mended
  absent : ∀ t, cat.provider t = none → classOf t = none
  build : ∀ t l src w, cat.provider t = some (l, src) → mended w →
    ∃ c, classOf t = some c ∧ (src.build (v.context l src) w).1 = .ok c
  agree : ∀ t l src w c, cat.provider t = some (l, src) → cat.steady w →
    (src.build (v.context l src) w).1 = .ok c → classOf t = some c

section Recovers

variable {cat : v.project.Catalog} {mended : σ → Prop} {classOf : ClassType → Option ClassInfo}
  (h : Recovers cat mended classOf)

include h

/-- In the mended worlds nothing goes wrong. -/
theorem Recovers.settled {w : σ} (hw : mended w) : Settled v mended classOf where
  steady := h.steady
  exists_world := ⟨w, hw⟩
  absent t habsent := h.absent t ((absent_iff cat).mp (habsent.mono h.coherent))
  build l src w c hchosen hw hbuild :=
    h.agree _ l src w c ((hchosen.mono h.coherent).provider cat) (h.coherent w hw) hbuild
  not_fault e := by
    rintro (⟨hchosen, hw, hfail⟩ | ⟨hl, hw, hfail⟩ | ⟨hl, hw, hfail⟩ | ⟨hl, hlists, hmem⟩ |
      ⟨hfinds, hne⟩)
    · obtain ⟨c, -, hok⟩ := h.build _ _ _ _ ((hchosen.mono h.coherent).provider cat) hw
      rw [hok] at hfail
      cases hfail
    · rw [cat.find _ hl _ _ (h.coherent _ hw)] at hfail
      cases hfail
    · obtain ⟨listing, hok⟩ := cat.list _ hl _ (h.coherent _ hw)
      rw [hok] at hfail
      cases hfail
    · rw [Lists.eq cat hl (hlists.mono h.coherent)] at hmem
      simp at hmem
    · obtain ⟨before, after, hsplit, -, w, hw, hfind⟩ := hfinds
      rw [cat.find _ (by simp [hsplit]) _ w (h.coherent w hw)] at hfind
      have htype := List.find?_some (Except.ok.inj hfind)
      exact hne (of_decide_eq_true htype)

/-- What can be resolved is listed. -/
theorem Recovers.mem_types {t : ClassType} (ht : (classOf t).isSome) : t ∈ cat.types := by
  rcases hprovider : cat.provider t with _ | ⟨l, src⟩
  · rw [h.absent t hprovider] at ht
    cases ht
  · obtain ⟨hl, hsrc, htype⟩ := Project.Catalog.mem_of_provider hprovider
    exact Project.Catalog.mem_types.mpr ⟨l, hl, src, hsrc, htype⟩

theorem Recovers.finite : {t | (classOf t).isSome}.Finite :=
  cat.types.finite_toSet.subset fun _ ht => h.mem_types ht

/-- **What was built while builds failed** is what is built now. -/
theorem Recovers.sound {w : σ} (hw : mended w) {s : ViewState σ} (hs : Sound v cat.steady s) :
    Sound v mended s where
  kept := hs.kept
  policy := hs.policy
  held := hs.held
  loaded id c hc := by
    obtain ⟨l, src, w', hprovider, hw', hbuild⟩ := hs.of_catalog cat hc
    have hclass := h.agree _ l src w' c hprovider hw' hbuild
    obtain ⟨d, hd, hok⟩ := h.build _ l src w hprovider hw
    obtain rfl : c = d := Option.some.inj (hclass.symm.trans hd)
    exact ⟨l, src, w, .inl ⟨_, finds_of_provider h.coherent hw hprovider⟩, hw, hok⟩

/-- What a view kept while builds failed it keeps when the stores are mended. -/
theorem Recovers.stocked {w : σ} (hw : mended w) {s : ViewState σ} (hs : Stocked v cat.steady s) :
    Stocked v mended { s with world := w } where
  sound := (h.sound hw hs.sound).inWorld w
  world := hw
  holds hcomplete t ht := by
    have hlisted : Listed v cat.steady t :=
      (listed_iff (fun _ hw => hw) (h.coherent w hw)).mpr ((listed_iff h.coherent hw).mp ht)
    exact hs.holds hcomplete t hlisted

/-- **What is listed**: the class of every type that locations list. -/
theorem Recovers.classes_eq {s : ViewState σ} (hs : Stocked v mended s)
    (hheld : HoldsListed v mended s) : s.classes (sortedObjects s) = cat.census classOf := by
  have hv := h.settled hs.world
  refine classes_sortedObjects_of_table hs.sound (fun _ _ hc => hv.of_sound hs.sound hc)
    Project.Catalog.nodup_types fun t => ⟨fun ht => ?_, fun ht => ?_⟩
  · obtain ⟨id, hid⟩ := Option.isSome_iff_exists.mp ht
    obtain ⟨c, hc, rfl⟩ := hs.sound.held t id hid
    exact h.mem_types (by rw [hv.of_sound hs.sound hc]; rfl)
  · exact hheld t ((listed_iff h.coherent hs.world).mpr ht)

end Recovers

/-- **A view that keeps everything stays stocked**, whatever is called and whatever fails. -/
theorem callRule_stocked (hfull : v.options.policy = .full) (hW : Steady v W) :
    CallRule v (Stocked v W) (fun _ => True) fun _ => Stocked v W where
  resolve _ _ _ h :=
    Run.Outcome.imp (runs_resolve hW h.sound h.world) (fun _ _ h' => h.of_trace hfull hW h'.1)
      fun _ _ he => h.of_trace hfull hW he.1
  resolveAll _ _ h :=
    (runs_resolveAll_held hfull hW h fun _ _ hs hw => runs_resolve hW hs hw).imp
      (fun _ _ h' => ⟨h'.1, fun _ _ => trivial⟩) fun _ _ he => he.1
  valuesWithDefaults fuel id i _ h :=
    Run.Outcome.imp (runs_valuesWithDefaults_sound hW h.sound h.world fuel id i)
      (fun _ _ h' => h.of_trace hfull hW h'.1) fun _ _ he => h.of_trace hfull hW he.1
  unknownType _ _ h := h
  cycle _ _ h := h
  ancestors _ _ h := h

theorem next_stocked (hfull : v.options.policy = .full) (hW : Steady v W) {r r' : Session σ}
    (hnext : Relation.ReflTransGen (Next v W) r r') (hr : Stocked v W r.view) :
    Stocked v W r'.view :=
  (next_keeps (callRule_stocked hfull hW) (fun _ _ h => h)
    (fun _ w h hw => ⟨h.sound.inWorld w, hw, h.holds⟩) hnext hr fun _ => trivial).1

theorem Reachable.stocked (hfull : v.options.policy = .full) (hW : Steady v W) {r : Session σ}
    (h : Reachable v W r) : Stocked v W r.view := by
  obtain ⟨w, hw, hnext⟩ := h
  exact next_stocked hfull hW hnext (stocked_start hw)

/-! ### The guarantee -/

variable (v) in
/-- **Two views give the same classes.** Resolving any type and listing every class succeed on both,
and the answers are classes of equal value. -/
def GivesSame (fuel : Nat) (r f : Session σ) : Prop :=
  (∀ t, ∃ a r' b f' c, (Call.resolve t).run v fuel r = some (.ok a, r') ∧
    (Call.resolve t).run v fuel f = some (.ok b, f') ∧ Gives r'.view a c ∧ Gives f'.view b c) ∧
  ∃ ids r' ids' f', Call.resolveAll.run v fuel r = some (.ok ids, r') ∧
    Call.resolveAll.run v fuel f = some (.ok ids', f') ∧
    r'.view.classes ids = f'.view.classes ids'

/-- What a view does that cannot fail, as a call. -/
theorem exists_onView {a : Action σ α} {r : Session σ} {A : α → ViewState σ → Prop}
    (h : a.Halts r.view A fun _ _ => False) :
    ∃ x r', onView a r = some (.ok x, r') ∧ A x r'.view := by
  have hhalts : (onView a).Halts r (fun x r' => A x r'.view) fun _ _ => False :=
    Run.outcome_zoom.mpr h
  obtain ⟨x | x, r', hrun, hok, herror⟩ := hhalts.exists
  · exact (herror x rfl).elim
  · exact ⟨x, r', hrun, hok x rfl⟩

section Recovers

variable {cat : v.project.Catalog} {mended : σ → Prop} {classOf : ClassType → Option ClassInfo}

theorem Recovers.card_lt (h : Recovers cat mended classOf) {fuel : Nat}
    (hfuel : cat.types.length < fuel) : h.finite.toFinset.card < fuel := by
  refine lt_of_le_of_lt ?_ hfuel
  refine (Finset.card_le_card fun t ht => ?_).trans cat.types.toFinset_card_le
  exact List.mem_toFinset.mpr (h.mem_types (h.finite.mem_toFinset.mp ht))

/-- **Stocked views in mended worlds give the same classes**: those of the table. -/
theorem Recovers.givesSame (h : Recovers cat mended classOf) (hfull : v.options.policy = .full)
    {r f : Session σ} (hr : Stocked v mended r.view) (hf : Stocked v mended f.view) {fuel : Nat}
    (hfuel : cat.types.length < fuel) : GivesSame v fuel r f := by
  have hv := h.settled hr.world
  have hresolve : ∀ (q : Session σ) t, Stocked v mended q.view →
      ∃ a q', (Call.resolve t).run v fuel q = some (.ok a, q') ∧ Gives q'.view a (classOf t) := by
    intro q t hq
    obtain ⟨a, q', hrun, -, hgives⟩ :=
      exists_onView (hv.halts_resolve (t := t) hfull hq.sound hq.world (h.card_lt hfuel))
    exact ⟨a, q', hrun, hgives⟩
  have hall : ∀ q : Session σ, Stocked v mended q.view → ∃ ids q',
      Call.resolveAll.run v fuel q = some (.ok ids, q') ∧
        q'.view.classes ids = cat.census classOf := by
    intro q hq
    obtain ⟨ids, q', hrun, hq', hheld, rfl⟩ :=
      exists_onView (hv.halts_resolveAll hfull hq (h.card_lt hfuel))
    exact ⟨_, q', hrun, h.classes_eq hq' hheld⟩
  refine ⟨fun t => ?_, ?_⟩
  · obtain ⟨a, r', hrun, hgives⟩ := hresolve r t hr
    obtain ⟨b, f', hrun', hgives'⟩ := hresolve f t hf
    exact ⟨a, r', b, f', classOf t, hrun, hrun', hgives, hgives'⟩
  · obtain ⟨ids, r', hrun, hids⟩ := hall r hr
    obtain ⟨ids', f', hrun', hids'⟩ := hall f hf
    exact ⟨ids, r', ids', f', hrun, hrun', hids.trans hids'.symm⟩

end Recovers

/-- **Failures leave a view intact**, in whatever state they find it, and they leave no traces: if
the failing builds of a coherent project succeed later, a view that keeps everything gives from then
on the same classes as a view in which nothing ever failed. -/
theorem recovery (hself : v.project.SelfTyped) :
    (∀ r, Reachable v (fun _ => True) r →
      (∀ t fuel e r', (Call.resolve t).run v fuel r = some (.error e, r') → Intact v r r' e) ∧
      ∀ fuel e r', Call.resolveAll.run v fuel r = some (.error e, r') → Intact v r r' e) ∧
    (v.options.policy = .full →
      ∀ (cat : v.project.Catalog) mended classOf, Recovers cat mended classOf →
      ∀ r, Reachable v cat.steady r → ∀ w, mended w →
      ∀ r', Relation.ReflTransGen (Next v mended) { r with view := { r.view with world := w } } r' →
      ∀ f, Reachable v mended f → ∀ fuel, cat.types.length < fuel → GivesSame v fuel r' f) := by
  refine ⟨fun r hr => ⟨fun t fuel e r' hrun => ?_, fun fuel e r' hrun => ?_⟩,
    fun hfull cat mended classOf h r hr w hw r' hnext f hf fuel hfuel => ?_⟩
  · have hblamed := blamed_onView (ends_resolve_uncached hself fuel t r.view) hrun
    exact Call.intact hself _ hr hblamed hrun
  · have hblamed := blamed_onView (ends_resolveAll_uncached hself fuel r.view) hrun
    exact Call.intact hself _ hr hblamed hrun
  · have hstocked := h.stocked hw (hr.stocked hfull (steady_catalog cat))
    exact h.givesSame hfull (next_stocked hfull h.steady hnext hstocked)
      (hf.stocked hfull h.steady) hfuel

/-! ### A list of sources -/

/-- A view of one location, which has the sources of a list. -/
def ofSources (sources : List (Source Bool)) (policy : CachePolicy) : View Bool where
  project := {
    language := .text
    moduleAware := false
    locations := [{
      description := "sources"
      find := fun t w => (.ok (sources.find? (·.type = t)), w)
      list := fun _ w => (.ok [fun w => (sources.map .ok, w)], w) }] }
  options := { policy }

/-- The location is coherent in both worlds. -/
def catalogOfSources (sources : List (Source Bool)) (policy : CachePolicy) :
    (ofSources sources policy).project.Catalog where
  listed _ := sources
  steady _ := True
  exists_steady := ⟨false, trivial⟩
  find l hl t w _ := by
    obtain rfl := List.mem_singleton.mp hl
    rfl
  list l hl w _ := by
    obtain rfl := List.mem_singleton.mp hl
    exact ⟨_, rfl⟩
  entries l hl w listing es _ hlist hreads := by
    obtain rfl := List.mem_singleton.mp hl
    obtain rfl := Except.ok.inj hlist
    obtain ⟨w', -, rfl⟩ := hreads.of_singleton
    rfl
  find_steady _ _ _ _ _ := trivial
  list_steady _ _ _ _ := trivial
  part_steady _ _ _ _ _ _ _ _ _ _ := trivial
  load_steady _ _ _ _ _ _ _ := trivial

/-! ### A store that is mended -/

/-- An annotation type and the one that it is annotated with. Whether the latter can be loaded is up
to the world. -/
def mendable : List (Source Bool) :=
  [{ type := ⟨"a.A", none⟩, origin := "a.A", sourceType := .application
     load := fun _ mended => (.ok (MemoryClass.annotated "a.A" 0x2600 ["a.B"]).info, mended) },
   { type := ⟨"a.B", none⟩, origin := "a.B", sourceType := .application
     load := fun _ mended =>
      (if mended then .ok (MemoryClass.annotated "a.B" 0x2600 []).info
        else .error (.malformed "a.B" "truncated"), mended) }]

/-- A view of both. -/
def mendableView : View Bool :=
  ofSources mendable .full

theorem selfTyped_mendable : mendableView.project.SelfTyped := by
  intro l hl t w src hfind
  obtain rfl := List.mem_singleton.mp hl
  have htype := List.find?_some (Except.ok.inj hfind)
  exact of_decide_eq_true htype

/-- The stores are coherent in both worlds. -/
def mendableCatalog : mendableView.project.Catalog :=
  catalogOfSources mendable .full

/-- Loading leaves the world as it is, and where it succeeds its result does not depend on it. -/
theorem build_mendable {src : Source Bool} (hsrc : src ∈ mendable) (ctx : BuildContext) :
    (∀ w, (src.build ctx w).2 = w) ∧
    ∃ c, (src.build ctx true).1 = .ok c ∧ ∀ w d, (src.build ctx w).1 = .ok d → d = c := by
  simp only [mendable, List.mem_cons, List.not_mem_nil, or_false] at hsrc
  rcases hsrc with rfl | rfl
  · exact ⟨fun _ => rfl, _, rfl, fun w d hd => (Except.ok.inj hd).symm⟩
  · refine ⟨fun _ => rfl, _, rfl, fun w d hd => ?_⟩
    cases w with
    | false => cases hd
    | true => exact (Except.ok.inj hd).symm

theorem recovers_mendable :
    Recovers mendableCatalog (· = true) fun t => (mendableCatalog.provider t).bind fun (l, src) =>
      (src.build (mendableView.context l src) true).1.toOption where
  coherent _ _ := trivial
  steady w w' hstep := by
    cases hstep with
    | find t hl hw =>
      obtain rfl := List.mem_singleton.mp hl
      exact hw
    | list hl hw =>
      obtain rfl := List.mem_singleton.mp hl
      exact hw
    | part hl _ hlist hpart hw =>
      obtain rfl := List.mem_singleton.mp hl
      obtain rfl := Except.ok.inj hlist
      obtain rfl := List.mem_singleton.mp hpart
      exact hw
    | load hchosen hw =>
      have hchosen : Chosen mendableView mendableCatalog.steady _ _ :=
        hchosen.mono fun _ _ => trivial
      have hprovider := hchosen.provider
      exact ((build_mendable (Project.Catalog.mem_of_provider hprovider).2.1 _).1 w).trans hw
  absent t hnone := by rw [hnone]; rfl
  build t l src w hprovider := by
    rintro rfl
    obtain ⟨-, c, hc, -⟩ :=
      build_mendable (Project.Catalog.mem_of_provider hprovider).2.1 (mendableView.context l src)
    refine ⟨c, ?_, hc⟩
    rw [hprovider]
    exact congrArg Except.toOption hc
  agree t l src w c hprovider _ hbuild := by
    obtain ⟨-, d, hd, hagree⟩ :=
      build_mendable (Project.Catalog.mem_of_provider hprovider).2.1 (mendableView.context l src)
    rw [hprovider, hagree w c hbuild]
    exact congrArg Except.toOption hd

/-- While the second type cannot be loaded, resolving the first one fails and leaves it cached; the
error blames the second one. Once it can be loaded the view gives the same classes as a new one. -/
theorem recovery_mendable : ∃ (e : HierarchyError) (r : Session Bool),
    (Call.resolve ⟨"a.A", none⟩).run mendableView 3 (mendableView.fresh false) =
      some (.error e, r) ∧
    r.view.cache.size = 1 ∧ Intact mendableView (mendableView.fresh false) r e ∧
    GivesSame mendableView 3 { r with view := { r.view with world := true } }
      (mendableView.fresh true) := by
  have hruns : ((Call.resolve ⟨"a.A", none⟩).run mendableView 3 (mendableView.fresh false)).map
      (fun q => (q.1.toOption.isSome, q.2.view.cache.size)) = some (false, 1) := by decide +kernel
  obtain ⟨⟨x, r⟩, hrun, hx⟩ := Option.map_eq_some_iff.mp hruns
  obtain ⟨hfails, hsize⟩ := Prod.mk.inj hx
  cases x with
  | ok a => cases hfails
  | error e =>
    obtain ⟨hintact, hrecovers⟩ := recovery selfTyped_mendable
    refine ⟨e, r, hrun, hsize, (hintact _ (reachable_fresh trivial)).1 _ _ e r hrun, ?_⟩
    exact hrecovers rfl mendableCatalog _ _ recovers_mendable r
      ((reachable_fresh trivial).call _ hrun) true rfl _ .refl _ (reachable_fresh rfl) 3
      (by decide +kernel)

end View

end Classpath

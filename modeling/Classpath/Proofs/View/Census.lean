import Classpath.Proofs.ClassType
import Classpath.Proofs.Store.Memory

/-!
# Listing every class

Asking a view for every class, or for subtypes, is answered with what is cached once every location
was scanned. So the answers are complete if nothing was given up, and this file says when that is
so: exactly if the cache has room for all the types that are listed
(`Classpath.View.census_agrees_iff`). A scan does not notice that it pushes out what it brought in,
and a hierarchy that is asked for subtypes remembers what such a scan left.

The projects here are coherent, their classes can be loaded, and no annotation type carries
annotations, so that resolving a type brings in no other.

* `Classpath.View.Ample` – a view of such a project with room for everything.
* `Classpath.View.Ample.callRule` – with it, what is cached stays cached, and what a hierarchy
  remembers is complete.
-/

namespace Classpath

/-- The classes of a project in the order of their types. -/
def Project.Catalog.census {σ : Type} {p : Project σ} (cat : p.Catalog)
    (classOf : ClassType → Option ClassInfo) : List ClassInfo :=
  (cat.types.mergeSort ClassType.le).filterMap classOf

/-- **What a query on subtypes ends with** if `f` computes its answer from the edges of all
classes. -/
def Project.Catalog.downward {σ : Type} {p : Project σ} (cat : p.Catalog)
    (classOf : ClassType → Option ClassInfo) (t : ClassType)
    (f : List (ClassType × ClassType) → List ClassType) : Except HierarchyError (List ClassType) :=
  if (classOf t).isSome then .ok (f (Hierarchy.edgesOf (cat.census classOf)))
  else .error (.unknownType t)

namespace View

variable {σ : Type} {v : View σ} {W : σ → Prop} {k : Nat} {stuck : Prop} {s : ViewState σ}

/-! ### The list of what is cached -/

/-- With their types the objects of a snapshot are the entries. -/
theorem typed_snapshot (hs : Sound v W s) :
    (s.cache.snapshot.map fun id => ((s.built[id]?.getD default).info.type, id)) =
      s.cache.entries := by
  rw [Cache.snapshot, List.map_map]
  refine (List.map_congr_left fun e he => ?_).trans (List.map_id _)
  obtain ⟨c, hc, htype⟩ := hs.held e.1 e.2 (hs.kept.find?_eq_some.mpr he)
  obtain ⟨o, ho, rfl⟩ := Option.map_eq_some_iff.mp hc
  simp [ho, htype]

/-- The objects listed are those of the entries in the order of their types. -/
theorem sortedObjects_eq (hs : Sound v W s) : sortedObjects s =
    (s.cache.entries.mergeSort fun a b => a.1.le b.1).map Prod.snd := by
  rw [sortedObjects, byType, typed_snapshot hs]

/-- Sorting the entries gives one list whatever order they are in. -/
theorem mergeSort_entries (hs : Sound v W s) {entries : List (ClassType × Nat)}
    (hperm : entries.Perm s.cache.entries) :
    (entries.mergeSort fun a b => a.1.le b.1) =
      s.cache.entries.mergeSort fun a b => a.1.le b.1 := by
  have hsort := List.mergeSort_perm entries fun a b => a.1.le b.1
  have hsort' := List.mergeSort_perm s.cache.entries fun a b => a.1.le b.1
  refine (hsort.trans (hperm.trans hsort'.symm)).eq_of_pairwise (fun a b ha hb hab hba => ?_)
    (ClassType.pairwise_mergeSort Prod.fst _) (ClassType.pairwise_mergeSort Prod.fst _)
  -- two entries with one type are the same
  have htype : a.1 = b.1 := ClassType.le_antisymm hab hba
  have hfind := hs.kept.find?_eq_some.mpr (hperm.mem_iff.mp (hsort.mem_iff.mp ha))
  have hfind' := hs.kept.find?_eq_some.mpr (hsort'.mem_iff.mp hb)
  rw [htype, hfind'] at hfind
  exact Prod.ext htype (Option.some.inj hfind).symm

/-- **The order of a snapshot does not show** in what is listed. -/
theorem byType_of_mayList (hs : Sound v W s) {ids : List Nat} (hids : s.cache.MayList ids) :
    byType s ids = sortedObjects s := by
  have hperm := hids.1.map fun id => ((s.built[id]?.getD default).info.type, id)
  rw [typed_snapshot hs] at hperm
  rw [sortedObjects_eq hs, byType, mergeSort_entries hs hperm]

variable {cat : v.project.Catalog} {classOf : ClassType → Option ClassInfo}
  {types : List ClassType}

/-- The types of entries in order, if these types are cached. -/
theorem types_of_sorted (hs : Sound v W s) (htypes : types.Nodup)
    (hheld : ∀ t, (s.cache.find? t).isSome ↔ t ∈ types) {sorted : List (ClassType × Nat)}
    (hperm : sorted.Perm s.cache.entries) (hsorted : sorted.Pairwise fun a b => a.1.le b.1) :
    sorted.map Prod.fst = types.mergeSort ClassType.le := by
  refine ClassType.eq_mergeSort ((hperm.map Prod.fst).trans ?_) (List.pairwise_map.mpr hsorted)
  refine (List.perm_ext_iff_of_nodup hs.kept.distinct htypes).mpr fun t => ?_
  rw [← Cache.find?_isSome, hheld]

/-- The classes of entries are those that a table has for their types. -/
theorem classes_of_entries (hs : Sound v W s)
    (htable : ∀ id c, s.info? id = some c → classOf c.type = some c)
    {entries : List (ClassType × Nat)} (hsub : entries ⊆ s.cache.entries) :
    s.classes (entries.map Prod.snd) = (entries.map Prod.fst).filterMap classOf := by
  have hclass : ∀ e ∈ entries, classOf e.1 = some (s.built[e.2]?.getD default).info := by
    intro e he
    obtain ⟨c, hc, htype⟩ := hs.held e.1 e.2 (hs.kept.find?_eq_some.mpr (hsub he))
    obtain ⟨o, ho, rfl⟩ := Option.map_eq_some_iff.mp hc
    rw [← htype, htable e.2 o.info hc, ho]
    rfl
  rw [List.filterMap_map, ViewState.classes, List.map_map, ← List.filterMap_eq_map]
  exact (List.filterMap_congr hclass).symm

/-- **What is listed is settled by which types are cached** and by the classes that they have. -/
theorem classes_sortedObjects_of_table (hs : Sound v W s)
    (htable : ∀ id c, s.info? id = some c → classOf c.type = some c) (htypes : types.Nodup)
    (hheld : ∀ t, (s.cache.find? t).isSome ↔ t ∈ types) :
    s.classes (sortedObjects s) = (types.mergeSort ClassType.le).filterMap classOf := by
  have hperm := List.mergeSort_perm s.cache.entries fun a b => a.1.le b.1
  have hsorted := ClassType.pairwise_mergeSort Prod.fst s.cache.entries
  rw [sortedObjects_eq hs, classes_of_entries hs htable hperm.subset,
    types_of_sorted hs htypes hheld hperm hsorted]

variable (cat) in
/-- Every type that is listed is cached. -/
def Filled (s : ViewState σ) : Prop :=
  ∀ t ∈ cat.types, (s.cache.find? t).isSome

/-- **Where everything is cached, everything is listed.** -/
theorem classes_sortedObjects (hl : Loads cat classOf) (hs : Sound v cat.steady s)
    (hfilled : Filled cat s) : s.classes (sortedObjects s) = cat.census classOf := by
  refine classes_sortedObjects_of_table hs (fun _ _ hc => hl.of_sound hs hc)
    Project.Catalog.nodup_types fun t => ⟨fun ht => ?_, hfilled t⟩
  exact hl.isSome_iff.mp (hl.of_held hs ht)

/-- The list has every type once. -/
theorem types_census (hl : Loads cat classOf) :
    (cat.census classOf).map (·.type) = cat.types.mergeSort ClassType.le := by
  have htype : ∀ t ∈ cat.types.mergeSort ClassType.le, (classOf t).map (·.type) = some t := by
    intro t ht
    have hmem : t ∈ cat.types := (List.mergeSort_perm cat.types ClassType.le).mem_iff.mp ht
    obtain ⟨c, hc⟩ := Option.isSome_iff_exists.mp (hl.isSome_iff.mpr hmem)
    rw [hc, Option.map_some, hl.type_eq hc]
  rw [Project.Catalog.census, List.map_filterMap, List.filterMap_congr htype, List.filterMap_some]

/-! ### Room for everything -/

variable (v cat classOf) in
/-- **A view with room for all the types that are listed**, each of which brings in nothing but
itself. -/
structure Ample : Prop where
  loads : Loads cat classOf
  bare : ∀ t c, classOf t = some c → c.eagerAnnotations = []
  room : ∀ n, v.options.policy.capacity? = some n → cat.types.length ≤ n

section Ample

variable (ha : Ample v cat classOf)

include ha

/-- There is room for a type that is not cached yet. -/
theorem Ample.hasRoom (hs : Sound v cat.steady s) {t : ClassType} (ht : t ∈ cat.types)
    (hnone : s.cache.find? t = none) : s.cache.HasRoom := by
  intro n hn
  -- the cached types and `t` are different types, and all of them are listed
  have hnodup : (t :: s.cache.entries.map Prod.fst).Nodup :=
    List.nodup_cons.mpr ⟨Cache.find?_eq_none.mp hnone, hs.kept.distinct⟩
  have hsubset : t :: s.cache.entries.map Prod.fst ⊆ cat.types := by
    refine List.cons_subset.mpr ⟨ht, fun u hu => ?_⟩
    exact ha.loads.isSome_iff.mp (ha.loads.of_held hs (Cache.find?_isSome.mpr hu))
  have hlength := (List.subperm_of_subset hnodup hsubset).length_le
  have hroom := ha.room n (by rw [← hs.policy, hn])
  rw [List.length_cons, List.length_map] at hlength
  omega

/-- **Building gives nothing up**, and no annotation has its type resolved. -/
theorem Ample.runs_build (hs : Sound v cat.steady s) (hw : cat.steady s.world) {l : Location σ}
    {src : Source σ} (hchosen : Chosen v cat.steady l src)
    (hnone : s.cache.find? src.type = none) {res : ClassType → Action σ (Option Nat)} :
    Runs v cat.steady s.built.size stuck (v.build res l src) s fun id s' =>
      (∃ c, (src.build (v.context l src) s.world).1 = .ok c ∧ s'.info? id = some c) ∧
        ∀ u, u = src.type ∨ (s.cache.find? u).isSome → (s'.cache.find? u).isSome := by
  refine (View.runs_build (I := fun _ _ s' =>
    ∀ u, u = src.type ∨ (s.cache.find? u).isSome → (s'.cache.find? u).isSome)
    (steady_catalog cat) hs hw hchosen (.inl hnone) (fun c w _ _ u hu => ?_)
    fun c done a i rest s' hbuild hsplit => ?_).imp fun id s' _ ⟨c, hc, hid, hheld⟩ =>
      ⟨⟨c, hc, hid⟩, hheld⟩
  · change ((s.cache.push src.type s.built.size).find? u).isSome
    have hmem : src.type ∈ cat.types := by
      obtain ⟨hl, hsrc, -⟩ := Project.Catalog.mem_of_provider (hchosen.provider cat)
      exact Project.Catalog.mem_types.mpr ⟨l, hl, src, hsrc, rfl⟩
    rw [Cache.find?_push_of_hasRoom (ha.hasRoom hs hmem hnone)]
    split
    · rfl
    · rename_i hne
      exact hu.resolve_left hne
  · have hbare := ha.bare src.type c (ha.loads.of_build hchosen hw hbuild)
    rw [ClassInfo.eagerAnnotations_of_eager hsplit] at hbare
    simp at hbare

/-- **Resolving gives nothing up.** -/
theorem Ample.runs_resolve (hs : Sound v cat.steady s) (hw : cat.steady s.world) {fuel : Nat}
    (hfuel : 0 < fuel ∨ stuck) (t : ClassType) :
    Runs v cat.steady s.built.size stuck (v.resolve fuel t) s fun answer s' =>
      Answers v cat.steady t answer s' ∧
        ∀ u, (s.cache.find? u).isSome → (s'.cache.find? u).isSome := by
  rcases fuel with _ | fuel
  · exact hfuel.resolve_left (Nat.lt_irrefl 0)
  · refine runs_resolve_succ (steady_catalog cat) hw (fun id hid => ⟨hs.answers hid _, ?_⟩)
      (fun _ habsent _ _ => ⟨habsent, fun _ hu => hu⟩) fun hnone l src w hfinds hw' => ?_
    · exact fun u hu => by rwa [Cache.find?_get]
    · obtain rfl : src.type = t := hfinds.type_of_catalog cat
      refine (ha.runs_build (hs.inWorld w) hw' (.inl ⟨_, hfinds⟩) hnone).imp fun id s' _ h => ?_
      obtain ⟨⟨c, hc, hid⟩, hheld⟩ := h
      exact ⟨hfinds.answers hc hid, fun u hu => hheld u (.inr hu)⟩

/-- A scan gives nothing up, so all that it saw is cached. -/
theorem Ample.scanRule {fuel n : Nat} : ScanRule v cat.steady n stuck fuel fun seen s =>
    (Sound v cat.steady s ∧ n ≤ s.built.size) ∧ ∀ t ∈ seen, (s.cache.find? t).isSome where
  world h _ := ⟨⟨h.1.1.inWorld _, h.1.2⟩, h.2⟩
  held h hheld := ⟨h.1, List.forall_mem_cons.mpr ⟨hheld, h.2⟩⟩
  build {seen s l src} h hw hscans _ hnone := by
    obtain ⟨⟨hs, hsize⟩, hseen⟩ := h
    refine ((ha.runs_build hs hw (.inr hscans) hnone).mono hsize).imp fun _ s' htrace h => ?_
    refine ⟨⟨Trace.sound htrace hs, hsize.trans htrace.size_le⟩, fun t ht => h.2 t ?_⟩
    exact (List.mem_cons.mp ht).imp id (hseen t)

end Ample

variable (v cat) in
/-- **Nothing was given up**: once every location was scanned, everything is cached. -/
structure Whole (s : ViewState σ) : Prop where
  sound : Sound v cat.steady s
  world : cat.steady s.world
  filled : s.complete = true → Filled cat s

/-- Steps that give nothing up. -/
theorem Whole.of_trace {s' : ViewState σ} (h : Whole v cat s) (htrace : Trace v cat.steady k s s')
    (hheld : ∀ u, (s.cache.find? u).isSome → (s'.cache.find? u).isSome) : Whole v cat s' where
  sound := Trace.sound htrace h.sound
  world := (steady_catalog cat).trace htrace h.world
  filled hcomplete t ht := hheld t (h.filled (htrace.complete_eq ▸ hcomplete) t ht)

/-- **Every class is listed.** -/
theorem Ample.halts_resolveAll (ha : Ample v cat classOf) (h : Whole v cat s) (fuel : Nat) :
    (v.resolveAll fuel).Halts s
      (fun ids s' => Whole v cat s' ∧ s'.classes ids = cat.census classOf) fun _ _ => False := by
  have hfilled : RunsAll v cat.steady s.built.size False (v.resolveAll fuel) s (Filled cat) := by
    refine runs_resolveAll ha.scanRule (steady_catalog cat) h.world
      (fun _ => ⟨⟨h.sound, le_rfl⟩, by simp⟩) h.filled fun seen s' hI hlisted t ht => ?_
    obtain ⟨l, hl, src, hsrc, rfl⟩ := Project.Catalog.mem_types.mp ht
    obtain ⟨entries, hlists, hcovers⟩ := hlisted l hl
    obtain rfl := Lists.eq cat hl hlists
    exact hI.2 src.type (hcovers src (List.mem_map_of_mem hsrc))
  refine Run.Outcome.imp hfilled (fun ids s' h' => ?_) fun _ _ he => ha.loads.not_fault he.2
  obtain ⟨htrace, rfl, hfilled'⟩ := h'
  have hs' : Sound v cat.steady s' := Trace.sound htrace (h.sound.marked true)
  have hw' : cat.steady s'.world := (steady_catalog cat).trace htrace h.world
  exact ⟨⟨hs', hw', fun _ => hfilled'⟩, classes_sortedObjects ha.loads hs' hfilled'⟩

variable (cat classOf) in
/-- What a hierarchy remembers of subtypes is complete. -/
def Enumerated (m : Hierarchy) : Prop :=
  ∀ edges, m.edges = some edges → edges = Hierarchy.edgesOf (cat.census classOf)

/-- **With room for everything nothing is ever given up**, whatever is called, and what hierarchies
remember is complete. -/
theorem Ample.callRule (ha : Ample v cat classOf) :
    CallRule v (Whole v cat) (Enumerated cat classOf) fun _ => Whole v cat where
  resolve fuel t s h :=
    Run.Outcome.imp (ha.runs_resolve h.sound h.world (.inr trivial) t)
      (fun _ _ h' => h.of_trace h'.1 h'.2.2) fun _ _ he => (ha.loads.not_fault he.2).elim
  resolveAll fuel s h := by
    refine (ha.halts_resolveAll h fuel).ends.imp (fun ids s' h' => ⟨h'.1, ?_⟩) fun _ _ he => he.elim
    rintro m - edges ⟨⟩
    rw [h'.2]
  valuesWithDefaults fuel id i s h := by
    refine Run.Outcome.imp (runs_valuesWithDefaults
      (P := fun s' => ∀ u, (s.cache.find? u).isSome → (s'.cache.find? u).isSome) (fun _ hu => hu)
      fun _ a _ _ _ => ?_) (fun _ _ h' => h.of_trace h'.1 h'.2) fun _ _ he =>
        (ha.loads.not_fault he.2).elim
    exact (ha.runs_resolve h.sound h.world (.inr trivial) a.type).imp fun _ _ _ h' =>
      ⟨h'.1, fun _ => h'.2⟩
  unknownType _ _ h := h
  cycle _ _ h := h
  ancestors _ _ h := h

theorem Ample.reachable (ha : Ample v cat classOf) {s : Session σ}
    (h : Reachable v cat.steady s) :
    Whole v cat s.view ∧ ∀ k, Enumerated cat classOf (s.hierarchies k) := by
  obtain ⟨w, hw, hnext⟩ := h
  refine next_keeps ha.callRule (fun _ _ h => h)
    (fun s w h hw => ⟨h.sound.inWorld w, hw, h.filled⟩) hnext ⟨sound_start w, hw, ?_⟩ fun _ => ?_
  · rintro ⟨⟩
  · rintro edges ⟨⟩

/-! ### Queries on subtypes -/

section Queries

variable {q : HierarchyState σ} {fuel : Nat} {t : ClassType}

theorem Ample.halts_require (ha : Ample v cat classOf) (h : Whole v cat q.view)
    (hfuel : 0 < fuel) :
    (Hierarchy.require v fuel t).Halts q
      (fun _ q' => (classOf t).isSome ∧ Whole v cat q'.view ∧ q'.memo = q.memo)
      fun e _ => classOf t = none ∧ e = .unknownType t := by
  have hresolve : Runs v cat.steady q.view.built.size False (v.resolve fuel t) q.view _ :=
    ha.runs_resolve h.sound h.world (.inl hfuel) t
  rw [Hierarchy.require]
  refine Run.outcome_bind.mpr (Run.outcome_zoom.mpr (Run.Outcome.imp hresolve
    (fun answer s' h' => ?_) fun _ _ he => (ha.loads.not_fault he.2).elim))
  obtain ⟨htrace, hanswers, hheld⟩ := h'
  cases answer with
  | none => exact ⟨ha.loads.absent t ((absent_iff cat).mp hanswers), rfl⟩
  | some id =>
    have hwhole := h.of_trace htrace hheld
    obtain ⟨c, hc, rfl⟩ := hanswers.of_catalog cat
    refine ⟨?_, hwhole, rfl⟩
    rw [ha.loads.of_sound hwhole.sound hc]
    rfl

theorem Ample.halts_subtypeEdges (ha : Ample v cat classOf) (h : Whole v cat q.view)
    (hm : Enumerated cat classOf q.memo) :
    (Hierarchy.subtypeEdges v fuel).Halts q
      (fun edges _ => edges = Hierarchy.edgesOf (cat.census classOf)) fun _ _ => False := by
  rw [Hierarchy.subtypeEdges]
  refine Run.outcome_bind.mpr (Run.outcome_read.mpr ?_)
  rcases hedges : q.memo.edges with _ | edges
  · refine Run.outcome_bind.mpr (Run.outcome_zoom.mpr ?_)
    refine (ha.halts_resolveAll h fuel).imp (fun ids s' h' => ?_) fun _ _ he => he
    exact congrArg Hierarchy.edgesOf h'.2
  · exact hm edges hedges

/-- Both queries on subtypes ask for the type first and then for the edges. -/
theorem Ample.halts_downward (ha : Ample v cat classOf) (h : Whole v cat q.view)
    (hm : Enumerated cat classOf q.memo) (hfuel : 0 < fuel)
    (f : List (ClassType × ClassType) → List ClassType) :
    (Hierarchy.require v fuel t >>= fun _ =>
        Hierarchy.subtypeEdges v fuel >>= fun edges => pure (f edges)).Halts q
      (fun types _ => .ok types = cat.downward classOf t f)
      fun e _ => .error e = cat.downward classOf t f := by
  refine Run.outcome_bind.mpr (Run.Outcome.imp (ha.halts_require h hfuel) ?_ ?_)
  · rintro _ q' ⟨hsome, hwhole, hmemo⟩
    refine Run.outcome_bind.mpr (Run.Outcome.imp (ha.halts_subtypeEdges hwhole ?_) ?_ ?_)
    · rwa [hmemo]
    · rintro _ _ rfl
      change Except.ok _ = cat.downward classOf t f
      rw [Project.Catalog.downward, if_pos hsome]
    · exact fun _ _ he => he.elim
  · rintro _ _ ⟨hnone, rfl⟩
    rw [Project.Catalog.downward, hnone]
    rfl

variable {s : Session σ}

/-- **Direct subtypes are those in the list of all classes.** -/
theorem Ample.exists_directSubtypesOf (ha : Ample v cat classOf) (hs : Reachable v cat.steady s)
    (hfuel : 0 < fuel) (k : Nat) (t : ClassType) :
    ∃ s', (Call.directSubtypesOf k t).run v fuel s =
      some (cat.downward classOf t fun edges => Hierarchy.children edges t.unqualified, s') := by
  obtain ⟨h, hm⟩ := ha.reachable hs
  refine Run.Halts.exists_eq (Run.outcome_zoom.mpr ?_)
  exact ha.halts_downward h (hm k) hfuel _

/-- **Subtypes are those in the list of all classes.** -/
theorem Ample.exists_subtypesOf (ha : Ample v cat classOf) (hs : Reachable v cat.steady s)
    (hfuel : 0 < fuel) (k : Nat) (t : ClassType) :
    ∃ s', (Call.subtypesOf k t).run v fuel s = some (cat.downward classOf t fun edges =>
      ClassType.sortedSet
        (Hierarchy.reachable edges t.unqualified (edges.length + 1) [t.unqualified] []), s') := by
  obtain ⟨h, hm⟩ := ha.reachable hs
  refine Run.Halts.exists_eq (Run.outcome_zoom.mpr ?_)
  exact ha.halts_downward h (hm k) hfuel _

/-- **All classes are those in the list of all classes.** -/
theorem Ample.exists_resolveAll (ha : Ample v cat classOf) (hs : Reachable v cat.steady s)
    (fuel : Nat) : ∃ ids s', Call.resolveAll.run v fuel s = some (.ok ids, s') ∧
      s'.view.classes ids = cat.census classOf := by
  have hhalts : (onView (v.resolveAll fuel)).Halts s
      (fun ids s' => s'.view.classes ids = cat.census classOf) fun _ _ => False :=
    Run.outcome_zoom.mpr ((ha.halts_resolveAll (ha.reachable hs).1 fuel).imp
      (fun _ _ h => h.2) fun _ _ he => he)
  obtain ⟨x, s', hrun, hok, herror⟩ := hhalts.exists
  cases x with
  | ok ids => exact ⟨ids, s', hrun, hok ids rfl⟩
  | error e => exact (herror e rfl).elim

end Queries

/-! ### The exact condition -/

variable (v cat) in
/-- **The capacity plays no role for listings**: whatever a view with that capacity and a view that
keeps everything were asked before, both list the same types, and both end a query on subtypes in
the same way. -/
def CensusAgrees (capacity : Nat) (hpos : 0 < capacity) : Prop :=
  ∀ s f, Reachable (v.withPolicy (.lru capacity hpos)) cat.steady s →
    Reachable (v.withPolicy .full) cat.steady f → ∀ fuel, 0 < fuel →
    (∃ ids s' all f',
      Call.resolveAll.run (v.withPolicy (.lru capacity hpos)) fuel s = some (.ok ids, s') ∧
      Call.resolveAll.run (v.withPolicy .full) fuel f = some (.ok all, f') ∧
      (s'.view.classes ids).map (·.type) = (f'.view.classes all).map (·.type)) ∧
    ∀ k j t,
      (∃ x s' f',
        (Call.directSubtypesOf k t).run (v.withPolicy (.lru capacity hpos)) fuel s = some (x, s') ∧
        (Call.directSubtypesOf j t).run (v.withPolicy .full) fuel f = some (x, f')) ∧
      ∃ x s' f',
        (Call.subtypesOf k t).run (v.withPolicy (.lru capacity hpos)) fuel s = some (x, s') ∧
        (Call.subtypesOf j t).run (v.withPolicy .full) fuel f = some (x, f')

/-- No more is listed than the cache may hold. -/
theorem length_le_of_resolveAll {W : σ → Prop} (hW : Steady v W) {n fuel : Nat} {ids : List Nat}
    {s s' : Session σ} (hs : Reachable v W s) (hcapacity : v.options.policy.capacity? = some n)
    (hrun : Call.resolveAll.run v fuel s = some (.ok ids, s')) : ids.length ≤ n := by
  obtain ⟨hsound, hw⟩ := hs.sound hW
  obtain ⟨hsound', -⟩ := (hs.call .resolveAll hrun).sound hW
  have hends : (onView (v.resolveAll fuel)).Ends s (fun ids s' => ids = sortedObjects s'.view)
      fun _ _ => True :=
    Run.outcome_zoom.mpr (Run.Outcome.imp (runs_resolveAll_sound hW hsound hw)
      (fun _ _ h => h.2.1) fun _ _ _ => trivial)
  have hlength : (sortedObjects s'.view).length = s'.view.cache.entries.length := by
    simp [sortedObjects, byType, Cache.snapshot]
  rw [hends.ok hrun, hlength]
  exact (hsound'.kept.fits n (by rw [hsound'.policy, hcapacity])).2

/-- A view that keeps everything has room for everything. -/
theorem ample_full (hl : Loads cat classOf)
    (hbare : ∀ t c, classOf t = some c → c.eagerAnnotations = []) :
    Ample (v.withPolicy .full) cat classOf :=
  ⟨hl.withPolicy .full, hbare, by rintro n ⟨⟩⟩

/-- To list what a view lists that keeps everything takes room for everything. -/
theorem CensusAgrees.length_le {capacity : Nat} {hpos : 0 < capacity}
    (h : CensusAgrees v cat capacity hpos) (hl : Loads cat classOf)
    (hbare : ∀ t c, classOf t = some c → c.eagerAnnotations = []) :
    cat.types.length ≤ capacity := by
  obtain ⟨w, hw⟩ := cat.exists_steady
  obtain ⟨⟨ids, s', all, f', hrun, hrun', htypes⟩, -⟩ :=
    h _ _ (reachable_fresh hw) (reachable_fresh hw) 1 Nat.one_pos
  -- both have the same length, one fits into the cache, and the other has every type
  have hshort := length_le_of_resolveAll
    (steady_catalog (v := v.withPolicy (.lru capacity hpos)) cat) (reachable_fresh hw) rfl hrun
  obtain ⟨all', f'', hrun'', hcensus⟩ :=
    (ample_full hl hbare).exists_resolveAll (reachable_fresh hw) 1
  obtain ⟨rfl, rfl⟩ : all' = all ∧ f'' = f' := by simpa [hrun'] using hrun''.symm
  have hlength := congrArg List.length htypes
  rw [hcensus, types_census hl, List.length_mergeSort, List.length_map, ViewState.classes,
    List.length_map] at hlength
  omega

/-- **The capacity plays no role exactly if there is room for every type that is listed.** -/
theorem census_agrees_iff (hl : Loads cat classOf)
    (hbare : ∀ t c, classOf t = some c → c.eagerAnnotations = []) {capacity : Nat}
    (hpos : 0 < capacity) :
    CensusAgrees v cat capacity hpos ↔ cat.types.length ≤ capacity := by
  refine ⟨fun h => h.length_le hl hbare, fun hroom s f hs hf fuel hfuel => ?_⟩
  have hfull : Ample (v.withPolicy .full) cat classOf := ample_full hl hbare
  have hlru : Ample (v.withPolicy (.lru capacity hpos)) cat classOf := by
    refine ⟨hl.withPolicy (.lru capacity hpos), hbare, ?_⟩
    rintro n ⟨⟩
    exact hroom
  refine ⟨?_, fun k j t => ⟨?_, ?_⟩⟩
  · obtain ⟨ids, s', hrun, hids⟩ := hlru.exists_resolveAll hs fuel
    obtain ⟨all, f', hrun', hall⟩ := hfull.exists_resolveAll hf fuel
    exact ⟨ids, s', all, f', hrun, hrun', by rw [hids, hall]⟩
  · obtain ⟨s', hrun⟩ := hlru.exists_directSubtypesOf hs hfuel k t
    obtain ⟨f', hrun'⟩ := hfull.exists_directSubtypesOf hf hfuel j t
    exact ⟨_, s', f', hrun, hrun'⟩
  · obtain ⟨s', hrun⟩ := hlru.exists_subtypesOf hs hfuel k t
    obtain ⟨f', hrun'⟩ := hfull.exists_subtypesOf hf hfuel j t
    exact ⟨_, s', f', hrun, hrun'⟩

theorem loads_family : Loads (catalogOfStore .family .full MemoryStore.faultless_family)
    (tableOfStores (catalogOfStore .family .full MemoryStore.faultless_family)) :=
  loads_ofStore _ MemoryStore.loadable_family

/-- Neither of them is an annotation type. -/
theorem bare_family {t : ClassType} {c : ClassInfo}
    (hc : tableOfStores (catalogOfStore .family .full MemoryStore.faultless_family) t = some c) :
    c.eagerAnnotations = [] := by
  have htype : t ∈ [⟨"a.B", none⟩, ⟨"a.A", none⟩] :=
    mem_types_of_table MemoryStore.loadable_family (by rw [hc]; rfl)
  have hbare : ∀ u ∈ [⟨"a.B", none⟩, ⟨"a.A", none⟩], (tableOfStores (catalogOfStore .family .full
      MemoryStore.faultless_family) u).all (·.eagerAnnotations.isEmpty) := by
    decide +kernel
  have hempty := hbare t htype
  rw [hc] at hempty
  exact List.isEmpty_iff.mp hempty

/-- With room for two a view lists a class and its superclass, whatever it was asked before. -/
theorem census_agrees_family :
    CensusAgrees (ofStores [.family] .full)
      (catalogOfStore .family .full MemoryStore.faultless_family) 2 Nat.two_pos :=
  (census_agrees_iff loads_family (fun _ _ => bare_family) Nat.two_pos).mpr (by decide +kernel)

/-- **With room for one it lists one of them**: the scan pushes out the class when it comes to the
superclass. -/
theorem census_disagrees_family :
    (¬ CensusAgrees (ofStores [.family] .full)
      (catalogOfStore .family .full MemoryStore.faultless_family) 1 Nat.one_pos) ∧
    let left (v : View World) := (Call.resolveAll.run v 1 (v.fresh {})).map fun r =>
      r.2.view.cache.entries.map (·.1.name)
    left (ofStores [.family] (.lru 1 Nat.one_pos)) = some ["a.A"] ∧
      left (ofStores [.family] .full) = some ["a.A", "a.B"] := by
  refine ⟨fun hagrees => ?_, by decide +kernel⟩
  have hlength := hagrees.length_le loads_family fun _ _ => bare_family
  revert hlength
  decide +kernel

end View

end Classpath

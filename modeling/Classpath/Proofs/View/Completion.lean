import Classpath.Proofs.View.Census
import Classpath.Proofs.View.Full

/-!
# Once every class was resolved

A view with an unbounded cache scans its locations until a scan succeeds, and then never again: it
answers with what is cached. The stores may be any, and they may fail and change in between. What
such a view then lists is settled by three facts: a mark is set by a scan that succeeds and by
nothing else, what is cached stays cached, and the list is what is cached, in the order of types.

That nothing is listed again is a statement about what calls depend on. Where the mark is set, a
view does the same as any other view over locations that answer alike and list whatever they like
(`Classpath.View.Relisted`), down to the state of the world that is left.

* `Classpath.View.Call.complete_eq`, `Classpath.View.next_complete` – the mark.
* `Classpath.View.Relisted.run_eq` – no listing.
* `Classpath.View.classes_sortedObjects_pairwise`, `Classpath.View.sortedObjects_subset`,
  `Classpath.View.sortedObjects_eq_of_held` – the list.
* `Classpath.View.completion` – all of it, for every state of a view in use.
-/

namespace Classpath

namespace View

variable {σ : Type} {v : View σ} {W : σ → Prop} {α : Type}

/-! ### The mark of a scan -/

/-- Whether a call asks for every class. -/
def Call.scans : Call α → Bool
  | resolveAll | directSubtypesOf _ _ | subtypesOf _ _ => true
  | _ => false

/-- Resolving leaves the mark alone. -/
theorem queryRule_complete (hW : Steady v W) (b : Bool) :
    QueryRule v (fun s => (Sound v W s ∧ W s.world) ∧ s.complete = b) (fun _ => True)
      fun _ s => (Sound v W s ∧ W s.world) ∧ s.complete = b where
  resolve fuel t s h := by
    obtain ⟨⟨hs, hw⟩, hb⟩ := h
    refine Run.Outcome.imp (runs_resolve hW hs hw) (fun _ s' h' => ?_) fun _ s' he => ?_
    · exact ⟨⟨Trace.sound h'.1 hs, hW.trace h'.1 hw⟩, h'.1.complete_eq.trans hb⟩
    · exact ⟨⟨Trace.sound he.1 hs, hW.trace he.1 hw⟩, he.1.complete_eq.trans hb⟩
  unknownType _ _ h := h
  cycle _ _ h := h
  ancestors _ _ _ := trivial

/-- Computing defaults leaves the mark alone. -/
theorem ends_valuesWithDefaults_complete (hW : Steady v W) {s : ViewState σ} (hs : Sound v W s)
    (hw : W s.world) (fuel id i : Nat) :
    (v.valuesWithDefaults fuel id i).Ends s
      (fun _ s' => (Sound v W s' ∧ W s'.world) ∧ s'.complete = s.complete)
      fun _ s' => (Sound v W s' ∧ W s'.world) ∧ s'.complete = s.complete := by
  have hkept : ∀ {s'}, Trace v W 0 s s' →
      (Sound v W s' ∧ W s'.world) ∧ s'.complete = s.complete := fun htrace =>
    ⟨⟨Trace.sound htrace hs, hW.trace htrace hw⟩, htrace.complete_eq⟩
  exact Run.Outcome.imp (runs_valuesWithDefaults_sound hW hs hw fuel id i)
    (fun _ _ h' => hkept h'.1) fun _ _ he => hkept he.1

/-- **A set mark stays set**, whatever is called. -/
theorem callRule_complete (hW : Steady v W) :
    CallRule v (fun s => (Sound v W s ∧ W s.world) ∧ s.complete = true) (fun _ => True)
      fun _ s => (Sound v W s ∧ W s.world) ∧ s.complete = true where
  toQueryRule := queryRule_complete hW true
  resolveAll fuel s h := by
    obtain ⟨⟨hs, hw⟩, hb⟩ := h
    refine Run.Outcome.imp (runs_resolveAll_sound hW hs hw) (fun _ s' h' => ⟨?_, by simp⟩)
      fun _ s' he => ?_
    · exact ⟨⟨Trace.sound h'.1 (hs.marked _), hW.trace h'.1 hw⟩, h'.1.complete_eq⟩
    · exact ⟨⟨Trace.sound he.1 hs, hW.trace he.1 hw⟩, he.1.complete_eq.trans hb⟩
  valuesWithDefaults fuel id i s h := by
    obtain ⟨⟨hs, hw⟩, hb⟩ := h
    exact Run.Outcome.imp (ends_valuesWithDefaults_complete hW hs hw fuel id i)
      (fun _ _ h' => ⟨h'.1, h'.2.trans hb⟩) fun _ _ he => ⟨he.1, he.2.trans hb⟩

theorem next_complete (hW : Steady v W) {s s' : Session σ}
    (h : Relation.ReflTransGen (Next v W) s s') (hs : Sound v W s.view) (hw : W s.view.world)
    (hcomplete : s.view.complete = true) : s'.view.complete = true :=
  (next_keeps (callRule_complete hW) (fun _ _ h => h)
    (fun _ _ h hw => ⟨⟨h.1.1.inWorld _, hw⟩, h.2⟩) h ⟨⟨hs, hw⟩, hcomplete⟩ fun _ => trivial).1.2

/-- A query that only resolves leaves the mark alone, however it ends. -/
theorem ends_onHierarchy_complete {s : Session σ} (hs : Sound v W s.view) (hw : W s.view.world)
    {k : Nat} {q : Hierarchy.Query σ α}
    (hq : Hierarchy.Keeps (fun s' => (Sound v W s' ∧ W s'.world) ∧ s'.complete = s.view.complete)
      (fun _ => True)
      (fun _ s' => (Sound v W s' ∧ W s'.world) ∧ s'.complete = s.view.complete) q) :
    (onHierarchy k q).Ends s (fun _ s' => s'.view.complete = s.view.complete)
      fun _ s' => s'.view.complete = s.view.complete :=
  (keeps_onHierarchy (k := k) hq ⟨⟨hs, hw⟩, rfl⟩ fun _ => trivial).imp (fun _ _ h => h.1.2)
    fun _ _ he => he.2.2

/-- A query on subtypes that fails leaves the mark alone: nothing can fail once the scan that it
asks for has succeeded. -/
theorem ends_downward_complete (hW : Steady v W) {h : HierarchyState σ} (hs : Sound v W h.view)
    (hw : W h.view.world) (fuel : Nat) (t : ClassType) (f : List (ClassType × ClassType) → α) :
    (Hierarchy.require v fuel t >>= fun _ =>
        Hierarchy.subtypeEdges v fuel >>= fun edges => pure (f edges)).Ends h
      (fun _ _ => True) fun _ h' => h'.view.complete = h.view.complete := by
  have hrequire := Hierarchy.keeps_require (M := fun _ => True)
    (queryRule_complete hW h.view.complete).toResolveRule fuel t h
    ⟨⟨hs, hw⟩, rfl⟩ trivial
  refine Run.outcome_bind.mpr (Run.Outcome.imp hrequire ?_ fun _ _ he => he.2.2)
  rintro _ h' ⟨⟨⟨hs', hw'⟩, hb⟩, -⟩
  refine Run.outcome_bind.mpr ?_
  rw [Hierarchy.subtypeEdges]
  refine Run.outcome_bind.mpr (Run.outcome_read.mpr ?_)
  rcases h'.memo.edges with _ | edges
  · refine Run.outcome_bind.mpr (Run.outcome_zoom.mpr ?_)
    exact Run.Outcome.imp (runs_resolveAll_sound hW hs' hw') (fun _ _ _ => trivial)
      fun _ _ he => he.1.complete_eq.trans hb
  · trivial

/-- **A call that asks for no scan leaves the mark alone**, however it ends. -/
theorem Call.ends_complete_of_not_scans (hW : Steady v W) (c : Call α) (fuel : Nat) {s : Session σ}
    (hs : Sound v W s.view) (hw : W s.view.world) (hscans : c.scans = false) :
    (c.run v fuel).Ends s (fun _ s' => s'.view.complete = s.view.complete)
      fun _ s' => s'.view.complete = s.view.complete := by
  have hrule := queryRule_complete hW s.view.complete
  have hrequire := fun t =>
    Hierarchy.keeps_require (M := fun _ => True) hrule.toResolveRule fuel t
  have hancestors := fun t => Hierarchy.keeps_requireAncestors hrule fuel t
  cases c with
  | resolve t =>
    exact Run.outcome_zoom.mpr (Run.Outcome.imp (runs_resolve hW hs hw)
      (fun _ _ h => h.1.complete_eq) fun _ _ he => he.1.complete_eq)
  | valuesWithDefaults id i =>
    exact Run.outcome_zoom.mpr ((ends_valuesWithDefaults_complete hW hs hw fuel id i).imp
      (fun _ _ h => h.2) fun _ _ he => he.2)
  | superclassOf k t =>
    exact ends_onHierarchy_complete hs hw ((hrequire t).bind fun _ => Hierarchy.keeps_pure _)
  | interfacesOf k t =>
    exact ends_onHierarchy_complete hs hw ((hrequire t).bind fun _ => Hierarchy.keeps_pure _)
  | implementedInterfacesOf k t =>
    exact ends_onHierarchy_complete hs hw ((hancestors t).bind fun _ => Hierarchy.keeps_pure _)
  | superclassesOf k t =>
    exact ends_onHierarchy_complete hs hw ((hancestors t).bind fun _ => Hierarchy.keeps_pure _)
  | isSubtype k supertype candidate =>
    exact ends_onHierarchy_complete hs hw
      ((hancestors candidate).bind fun _ => Hierarchy.keeps_pure _)
  | resolveAll | directSubtypesOf _ _ | subtypesOf _ _ => exact absurd hscans (by simp [scans])

/-- **A scan that fails leaves the mark alone.** -/
theorem Call.ends_complete_of_scans (hW : Steady v W) (c : Call α) (fuel : Nat) {s : Session σ}
    (hs : Sound v W s.view) (hw : W s.view.world) (hscans : c.scans = true) :
    (c.run v fuel).Ends s (fun _ _ => True) fun _ s' => s'.view.complete = s.view.complete := by
  cases c with
  | resolveAll =>
    exact Run.outcome_zoom.mpr (Run.Outcome.imp (runs_resolveAll_sound hW hs hw)
      (fun _ _ _ => trivial) fun _ _ he => he.1.complete_eq)
  | directSubtypesOf k t => exact Run.outcome_zoom.mpr (ends_downward_complete hW hs hw fuel t _)
  | subtypesOf k t => exact Run.outcome_zoom.mpr (ends_downward_complete hW hs hw fuel t _)
  | _ => exact absurd hscans Bool.false_ne_true

/-- **Only a scan that succeeds sets the mark.** A call that asks for no scan leaves it alone, and
so does one that fails. -/
theorem Call.complete_eq (hW : Steady v W) (c : Call α) {fuel : Nat} {s s' : Session σ}
    {x : Except HierarchyError α} (hs : Sound v W s.view) (hw : W s.view.world)
    (hrun : c.run v fuel s = some (x, s')) (h : c.scans = true → ∃ e, x = .error e) :
    s'.view.complete = s.view.complete := by
  cases hscans : c.scans with
  | false =>
    exact Run.Ends.state (P := fun s' => s'.view.complete = s.view.complete)
      (c.ends_complete_of_not_scans hW fuel hs hw hscans) hrun
  | true =>
    obtain ⟨e, rfl⟩ := h hscans
    have hends := c.ends_complete_of_scans hW fuel hs hw hscans
    exact Run.Outcome.error (E := fun _ s' => s'.view.complete = s.view.complete) hends hrun

variable (v W) in
/-- What may happen next as long as no scan succeeds. -/
inductive Unscanned : Session σ → Session σ → Prop
  | call {α : Type} {s s' : Session σ} {x : Except HierarchyError α} (c : Call α) (fuel : Nat) :
      (c.scans = true → ∃ e, x = .error e) → c.run v fuel s = some (x, s') → Unscanned s s'
  | drift {s : Session σ} {w : σ} :
      W w → Unscanned s { s with view := { s.view with world := w } }

theorem Unscanned.next {s s' : Session σ} (h : Unscanned v W s s') : Next v W s s' := by
  cases h with
  | call c fuel _ hrun => exact .call c fuel hrun
  | drift hw => exact .drift hw

/-- **The mark is not set before a scan succeeds**, whatever was called and whatever failed. -/
theorem complete_eq_false (hW : Steady v W) {w : σ} (hw : W w) {s : Session σ}
    (h : Relation.ReflTransGen (Unscanned v W) (v.fresh w) s) : s.view.complete = false := by
  induction h with
  | refl => rfl
  | tail htrace hlast ih =>
    have hreachable : Reachable v W _ :=
      ⟨w, hw, Relation.ReflTransGen.mono (fun _ _ => Unscanned.next) _ _ htrace⟩
    obtain ⟨hs, hw'⟩ := hreachable.sound hW
    cases hlast with
    | call c fuel hfails hrun => exact (c.complete_eq hW hs hw' hrun hfails).trans ih
    | drift _ => exact ih

/-! ### Listing something else -/

/-- **The views differ at most in what their locations list.** -/
structure Relisted (v v' : View σ) : Prop where
  naming : v'.project.naming = v.project.naming
  sourceTypeOf : v'.project.sourceTypeOf = v.project.sourceTypeOf
  locations : List.Forall₂ (fun l l' : Location σ => l'.description = l.description ∧
    l'.find = l.find ∧ v'.options.interceptors l' = v.options.interceptors l)
      v.project.locations v'.project.locations

section Relisted

variable {v' : View σ}

theorem Relisted.findIn_eq (h : Relisted v v') {res : ClassType → Action σ (Option Nat)}
    {t : ClassType} {ls ls' : List (Location σ)}
    (hls : List.Forall₂ (fun l l' : Location σ => l'.description = l.description ∧
      l'.find = l.find ∧ v'.options.interceptors l' = v.options.interceptors l) ls ls') :
    v'.findIn res t ls' = v.findIn res t ls := by
  induction hls with
  | nil => rfl
  | @cons l l' ls ls' hl _ ih =>
    obtain ⟨hdescription, hfind, hinterceptors⟩ := hl
    have hcontext : v'.context l' = v.context l := by
      funext src
      rw [context, context, h.naming, h.sourceTypeOf, hinterceptors]
    simp only [findIn, build, hdescription, hfind, hcontext, ih]

/-- Resolving asks no location for its listing. -/
theorem Relisted.resolve_eq (h : Relisted v v') (fuel : Nat) :
    v'.resolve fuel = v.resolve fuel := by
  induction fuel with
  | zero => rfl
  | succ fuel ih =>
    funext t
    simp only [resolve, ih, h.findIn_eq h.locations]

theorem Relisted.require_eq (h : Relisted v v') (fuel : Nat) :
    Hierarchy.require v' fuel = Hierarchy.require v fuel := by
  funext t
  simp only [Hierarchy.require, h.resolve_eq]

theorem Relisted.ancestorsOf_eq (h : Relisted v v') (fuel : Nat) :
    Hierarchy.ancestorsOf v' fuel = Hierarchy.ancestorsOf v fuel := by
  induction fuel with
  | zero => rfl
  | succ fuel ih =>
    funext active t
    simp only [Hierarchy.ancestorsOf, h.resolve_eq, ih]

/-- Where the mark is set every class is known. -/
theorem resolveAll_of_complete {s : ViewState σ} (hs : s.complete = true) (fuel : Nat) :
    v.resolveAll fuel s = some (.ok (sortedObjects s), s) := by
  have hread : (Run.read (·.complete) : Action σ Bool) s = some (.ok true, s) := by
    rw [← hs]
    rfl
  rw [resolveAll, Run.bind_of_ok hread]
  rfl

theorem subtypeEdges_eq_of_complete (v v' : View σ) {h : HierarchyState σ}
    (hs : h.view.complete = true) (fuel : Nat) :
    Hierarchy.subtypeEdges v' fuel h = Hierarchy.subtypeEdges v fuel h := by
  have hall : ∀ u : View σ, (Hierarchy.inView (u.resolveAll fuel) : Hierarchy.Query σ _) h =
      some (.ok (sortedObjects h.view), h) := by
    intro u
    simp only [Hierarchy.inView, Run.zoom, resolveAll_of_complete hs]
    rfl
  have hread : (Run.read (·.memo.edges) : Hierarchy.Query σ _) h = some (.ok h.memo.edges, h) := rfl
  rw [Hierarchy.subtypeEdges, Hierarchy.subtypeEdges, Run.bind_of_ok hread, Run.bind_of_ok hread]
  rcases h.memo.edges with _ | edges
  · dsimp only
    rw [Run.bind_of_ok (hall v'), Run.bind_of_ok (hall v)]
  · rfl

/-- Both queries on subtypes ask for the type first and then for the edges. -/
theorem Relisted.downward_eq (h : Relisted v v') (hW : Steady v W) {q : HierarchyState σ}
    (hs : Sound v W q.view) (hw : W q.view.world) (hcomplete : q.view.complete = true)
    (fuel : Nat) (t : ClassType) {β : Type} (f : List (ClassType × ClassType) → β) :
    (Hierarchy.require v' fuel t >>= fun _ =>
        Hierarchy.subtypeEdges v' fuel >>= fun edges => pure (f edges)) q =
      (Hierarchy.require v fuel t >>= fun _ =>
        Hierarchy.subtypeEdges v fuel >>= fun edges => pure (f edges)) q := by
  rw [h.require_eq]
  refine Run.Ends.bind_congr (Run.Outcome.imp (Hierarchy.keeps_require (M := fun _ => True)
    (queryRule_complete hW true).toResolveRule fuel t q ⟨⟨hs, hw⟩, hcomplete⟩ trivial) ?_
    fun _ _ _ => trivial)
  rintro _ q' ⟨⟨-, hcomplete'⟩, -⟩
  change Run.bind _ _ q' = Run.bind _ _ q'
  rw [Run.bind, Run.bind, subtypeEdges_eq_of_complete v v' hcomplete']

/-- **Where the mark is set no location is asked for its listing**: what a call does there does not
depend on what is listed. -/
theorem Relisted.run_eq (h : Relisted v v') (hW : Steady v W) (c : Call α) {s : Session σ}
    (hs : Sound v W s.view) (hw : W s.view.world) (hcomplete : s.view.complete = true)
    (fuel : Nat) : c.run v' fuel s = c.run v fuel s := by
  cases c with
  | resolve t => simp only [Call.run, h.resolve_eq]
  | resolveAll => simp only [Call.run, onView, Run.zoom, resolveAll_of_complete hcomplete]
  | valuesWithDefaults id i => simp only [Call.run, View.valuesWithDefaults, h.resolve_eq]
  | superclassOf k t => simp only [Call.run, Hierarchy.superclassOf, h.require_eq]
  | interfacesOf k t => simp only [Call.run, Hierarchy.interfacesOf, h.require_eq]
  | implementedInterfacesOf k t =>
    simp only [Call.run, Hierarchy.implementedInterfacesOf, Hierarchy.requireAncestors,
      h.ancestorsOf_eq]
  | superclassesOf k t =>
    simp only [Call.run, Hierarchy.superclassesOf, Hierarchy.requireAncestors, h.ancestorsOf_eq]
  | isSubtype k supertype candidate =>
    simp only [Call.run, Hierarchy.isSubtype, Hierarchy.requireAncestors, h.ancestorsOf_eq]
  | directSubtypesOf k t =>
    have hq := h.downward_eq hW (q := ⟨s.view, s.hierarchies k⟩) hs hw hcomplete fuel t
      fun edges => Hierarchy.children edges t.unqualified
    simp only [Call.run, onHierarchy, Run.zoom, Hierarchy.directSubtypesOf, hq]
  | subtypesOf k t =>
    have hq := h.downward_eq hW (q := ⟨s.view, s.hierarchies k⟩) hs hw hcomplete fuel t
      fun edges => ClassType.sortedSet
        (Hierarchy.reachable edges t.unqualified (edges.length + 1) [t.unqualified] [])
    simp only [Call.run, onHierarchy, Run.zoom, Hierarchy.subtypesOf, hq]

end Relisted

/-! ### The list of every class -/

section List

variable {s s' : ViewState σ}

/-- **What is listed goes strictly upwards** in the order of types. -/
theorem classes_sortedObjects_pairwise (hs : Sound v W s) :
    (s.classes (sortedObjects s)).Pairwise fun c d => c.type.compare d.type = .lt := by
  have hclass : ∀ e ∈ s.cache.entries, (s.built[e.2]?.getD default).info.type = e.1 := by
    intro e he
    obtain ⟨c, hc, htype⟩ := hs.held e.1 e.2 (hs.kept.find?_eq_some.mpr he)
    obtain ⟨o, ho, rfl⟩ := Option.map_eq_some_iff.mp hc
    rw [ho, ← htype]
    rfl
  have hperm := List.mergeSort_perm s.cache.entries fun a b => a.1.le b.1
  have hdistinct : ((s.cache.entries.mergeSort fun a b => a.1.le b.1).map Prod.fst).Nodup :=
    (hperm.map Prod.fst).nodup_iff.mpr hs.kept.distinct
  rw [sortedObjects_eq hs, ViewState.classes, List.map_map, List.pairwise_map]
  refine ((ClassType.pairwise_mergeSort Prod.fst s.cache.entries).and
    (List.pairwise_map.mp hdistinct)).imp_of_mem fun {a b} ha hb h => ?_
  change ClassType.compare (s.built[a.2]?.getD default).info.type
    (s.built[b.2]?.getD default).info.type = .lt
  rw [hclass a (hperm.mem_iff.mp ha), hclass b (hperm.mem_iff.mp hb)]
  exact ClassType.compare_eq_lt h.1 h.2

/-- An object is listed if it is cached. -/
theorem mem_sortedObjects (hs : Sound v W s) {id : Nat} :
    id ∈ sortedObjects s ↔ ∃ t, s.cache.find? t = some id := by
  have hperm := List.mergeSort_perm s.cache.entries fun a b => a.1.le b.1
  rw [sortedObjects_eq hs, (hperm.map Prod.snd).mem_iff, List.mem_map]
  constructor
  · rintro ⟨e, he, rfl⟩
    exact ⟨e.1, hs.kept.find?_eq_some.mpr he⟩
  · rintro ⟨t, ht⟩
    exact ⟨(t, id), hs.kept.find?_eq_some.mp ht, rfl⟩

/-- **What is cached besides is listed besides.** -/
theorem sortedObjects_subset (hs : Sound v W s) (hs' : Sound v W s')
    (hheld : ∀ t id, s.cache.find? t = some id → s'.cache.find? t = some id) :
    sortedObjects s ⊆ sortedObjects s' := by
  intro id hid
  obtain ⟨t, ht⟩ := (mem_sortedObjects hs).mp hid
  exact (mem_sortedObjects hs').mpr ⟨t, hheld t id ht⟩

/-- **What is cached settles what is listed.** -/
theorem sortedObjects_eq_of_held (hs : Sound v W s) (hs' : Sound v W s')
    (hheld : ∀ t, s'.cache.find? t = s.cache.find? t) : sortedObjects s' = sortedObjects s := by
  have hentries : s'.cache.entries.Perm s.cache.entries := by
    refine (List.perm_ext_iff_of_nodup hs'.kept.distinct.of_map hs.kept.distinct.of_map).mpr ?_
    intro e
    rw [← hs'.kept.find?_eq_some, ← hs.kept.find?_eq_some, hheld]
  rw [sortedObjects_eq hs, sortedObjects_eq hs', mergeSort_entries hs hentries]

end List

/-! ### The guarantee -/

/-- A call on the view ends as what it asks of the view does. -/
theorem onView_eq_some {a : Action σ α} {s s' : Session σ} {x : α}
    (h : onView a s = some (.ok x, s')) :
    a s.view = some (.ok x, s'.view) ∧ s' = { s with view := s'.view } := by
  simp only [onView, Run.zoom] at h
  rcases ha : a s.view with _ | ⟨_ | y, view⟩
  · simp [ha] at h
  · simp [ha, Except.mapError] at h
  · simp only [ha, Except.mapError, Option.some.injEq, Prod.mk.injEq, Except.ok.injEq] at h
    obtain ⟨rfl, rfl⟩ := h
    exact ⟨rfl, rfl⟩

theorem onView_of_eq {a : Action σ α} {s : Session σ} {x : α} {view : ViewState σ}
    (h : a s.view = some (.ok x, view)) : onView a s = some (.ok x, { s with view }) := by
  simp only [onView, Run.zoom, h]
  rfl

/-- A list that takes a scan is what is cached once the scan succeeded. -/
theorem exists_readScan {s s' : ViewState σ} {fuel : Nat} {ids : List Nat}
    (hs : s.complete = false) (h : v.resolveAll fuel s = some (.ok ids, s')) :
    ∃ read scanned, v.readScan fuel [] v.project.locations s = some (.ok read, scanned) ∧
      s' = scanned.marked true := by
  have hmark : (Run.read (·.complete) : Action σ Bool) s = some (.ok false, s) := by
    rw [← hs]
    rfl
  rw [resolveAll, Run.bind_of_ok hmark] at h
  simp only [Bool.not_false, if_true, scan_eq, Run.bind_assoc, Run.pure_bind] at h
  rcases hread : v.readScan fuel [] v.project.locations s with _ | ⟨_ | read, scanned⟩
  · simp [Bind.bind, Run.bind, hread] at h
  · simp [Bind.bind, Run.bind, hread] at h
  · rw [Run.bind_of_ok hread] at h
    obtain ⟨-, hstate⟩ := Prod.mk.inj (Option.some.inj h)
    exact ⟨read, scanned, rfl, hstate.symm⟩

/-- What `resolveAll` lists is what is cached, and it leaves the mark. -/
theorem eq_sortedObjects (hW : Steady v W) {s s' : ViewState σ} {fuel : Nat} {ids : List Nat}
    (hs : Sound v W s) (hw : W s.world) (h : v.resolveAll fuel s = some (.ok ids, s')) :
    ids = sortedObjects s' ∧ s'.complete = true := by
  have hall := Run.Outcome.ok (runs_resolveAll_sound hW hs hw) h
  exact ⟨hall.2.1, hall.1.complete_eq⟩

/-- **What a full scan guarantees**, for every project and every view with an unbounded cache.

Before a scan succeeds the view is not marked as complete. When `resolveAll` gives its list, the
classes in it go strictly upwards in the order of types, and if that took a scan there is one for
every type that was read in it. From then on, whatever is called and however the world changes,

* the view is marked as complete, and no call depends on what locations list;
* each object of the list is what its type resolves to, and nothing is asked or built for it;
* `resolveAll` gives a list, with all objects of the first one and with no others if no class was
  cached in between. -/
theorem completion (hfull : v.options.policy = .full) :
    (∀ w s, Relation.ReflTransGen (Unscanned v fun _ => True) (v.fresh w) s →
      s.view.complete = false) ∧
    ∀ s fuel ids s', Reachable v (fun _ => True) s →
      Call.resolveAll.run v fuel s = some (.ok ids, s') →
      (s'.view.classes ids).Pairwise (fun c d => c.type.compare d.type = .lt) ∧
      (s.view.complete = false → ∃ read scanned,
        v.readScan fuel [] v.project.locations s.view = some (.ok read, scanned) ∧
        s'.view = scanned.marked true ∧
        ∀ src, .ok src ∈ read → ∃ id ∈ ids, (s'.view.info? id).map (·.type) = some src.type) ∧
      ∀ r, Relation.ReflTransGen (Next v fun _ => True) s' r →
        r.view.complete = true ∧
        (∀ v', Relisted v v' → ∀ {α : Type} (c : Call α) fuel, c.run v' fuel r = c.run v fuel r) ∧
        (∀ id ∈ ids, ∃ c, r.view.info? id = some c ∧ ∀ fuel,
          (Call.resolve c.type).run v (fuel + 1) r = some (.ok (some id),
            { r with view := { r.view with cache := (r.view.cache.get c.type).2 } })) ∧
        ∃ later, (∀ fuel, Call.resolveAll.run v fuel r = some (.ok later, r)) ∧ ids ⊆ later ∧
          ((∀ t, r.view.cache.contains t → s'.view.cache.contains t) → later = ids) := by
  refine ⟨fun w s h => complete_eq_false steady_any trivial h, fun s fuel ids s' hs hrun => ?_⟩
  obtain ⟨hsound, hw⟩ := hs.sound steady_any
  obtain ⟨hsound', hw'⟩ := (hs.call _ hrun).sound steady_any
  obtain ⟨hall, -⟩ := onView_eq_some hrun
  obtain ⟨rfl, hcomplete⟩ := eq_sortedObjects steady_any hsound hw hall
  refine ⟨classes_sortedObjects_pairwise hsound', fun hincomplete => ?_, fun r hlater => ?_⟩
  · obtain ⟨read, scanned, hread, hstate⟩ := exists_readScan hincomplete hall
    refine ⟨read, scanned, hread, hstate, fun src hsrc => ?_⟩
    have hheld := (Run.Outcome.ok (ends_readScan hfull steady_any hsound hw) hread).2 src hsrc
    obtain ⟨id, hid⟩ := Option.isSome_iff_exists.mp hheld
    have hid' : s'.view.cache.find? src.type = some id := by rw [hstate]; exact hid
    obtain ⟨c, hc, htype⟩ := hsound'.held src.type id hid'
    exact ⟨id, (mem_sortedObjects hsound').mpr ⟨_, hid'⟩, by rw [hc, Option.map_some, htype]⟩
  · obtain ⟨hsoundr, hwr⟩ := ((hs.call _ hrun).trans hlater).sound steady_any
    have hcompleter : r.view.complete = true :=
      next_complete steady_any hlater hsound' hw' hcomplete
    have hheld : ∀ t id, s'.view.cache.find? t = some id → r.view.cache.find? t = some id :=
      fun t id hid => next_held hfull steady_any hlater hsound' hw' hid
    refine ⟨hcompleter, fun v' h α c fuel => h.run_eq steady_any c hsoundr hwr hcompleter fuel,
      fun id hid => ?_, sortedObjects r.view, fun fuel => ?_,
      sortedObjects_subset hsound' hsoundr hheld, fun hsame => ?_⟩
    · obtain ⟨t, ht⟩ := (mem_sortedObjects hsound').mp hid
      obtain ⟨c, hc, rfl⟩ := hsoundr.held t id (hheld t id ht)
      refine ⟨c, hc, fun fuel => ?_⟩
      simp only [Call.run, onView, Run.zoom, resolve_of_held (hheld _ id ht)]
      rfl
    · simp only [Call.run, onView, Run.zoom, resolveAll_of_complete hcompleter]
      rfl
    · refine sortedObjects_eq_of_held hsound' hsoundr fun t => ?_
      rcases ht : s'.view.cache.find? t with _ | id
      · refine Cache.contains_eq_false.mp (Bool.eq_false_iff.mpr fun hcontains => ?_)
        have hcontains' := hsame t hcontains
        rw [Cache.contains, ht] at hcontains'
        cases hcontains'
      · exact hheld t id ht

/-- The guarantee for a class and its superclass: both are cached when they are listed, and listing
them again gives the same list. -/
theorem completion_family : ∃ (ids : List Nat) (s : Session World),
    Call.resolveAll.run (.ofStores [.family] .full) 1
      ((View.ofStores [.family] .full).fresh {}) = some (.ok ids, s) ∧
    s.view.cache.size = 2 ∧ s.view.complete = true ∧
    (s.view.classes ids).Pairwise (fun c d => c.type.compare d.type = .lt) ∧
    ∀ fuel, Call.resolveAll.run (.ofStores [.family] .full) fuel s = some (.ok ids, s) := by
  let v : View World := .ofStores [.family] .full
  have hruns : ((Call.resolveAll.run v 1 (v.fresh {})).map fun r =>
      (r.1.toOption.isSome, r.2.view.cache.size)) = some (true, 2) := by decide +kernel
  obtain ⟨⟨x, s⟩, hrun, hx⟩ := Option.map_eq_some_iff.mp hruns
  obtain ⟨hok, hsize⟩ := Prod.mk.inj hx
  cases x with
  | error e => cases hok
  | ok ids =>
    obtain ⟨hsorted, -, hlater⟩ :=
      (completion (v := v) rfl).2 _ 1 ids s (reachable_fresh trivial) hrun
    obtain ⟨hcomplete, -, -, later, hall, -, hsame⟩ := hlater s .refl
    obtain rfl := hsame fun _ ht => ht
    exact ⟨later, s, hrun, hsize, hcomplete, hsorted, hall⟩

end View

end Classpath

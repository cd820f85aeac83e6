import Classpath.Hierarchy
import Classpath.Proofs.View.Scan
import Mathlib.Logic.Function.Basic

/-!
# Views in use

A view is used by calls: it resolves a class or all classes, computes the elements of an annotation,
or answers a question about supertypes and subtypes. The calls come in any order, some of them end
with an error, and any number of hierarchies remember what they computed. Between two calls the
world may change by itself, since a view is not alone in it.

`Classpath.View.Reachable` collects the states in which a view can then be. Two principles say what
holds in all of them.

* `Classpath.View.Call.keeps`, `Classpath.View.next_keeps` – an invariant that `resolve`,
  `resolveAll` and `valuesWithDefaults` keep is kept by every call. A query on a hierarchy does
  nothing to the view but resolve classes, so being kept passes from the parts of a query to the
  whole (`Classpath.Hierarchy.Keeps`).
* `Classpath.View.Call.trace`, `Classpath.View.next_invariant` – every call is made of the steps of
  `Classpath.View.Step`, and what these preserve holds along a session. So does the invariant of
  views (`Classpath.View.Reachable.sound`).
-/

namespace Classpath

/-! ### Queries -/

/-- The classes of the objects of some numbers. -/
def ViewState.classes {σ : Type} (s : ViewState σ) (ids : List Nat) : List ClassInfo :=
  ids.map fun id => (s.built[id]?.getD default).info

/-- **An invariant of resolving**: of what a view holds, `V`, and where an error ends it, `E`. -/
structure ResolveRule {σ : Type} (v : View σ) (V : ViewState σ → Prop)
    (E : HierarchyError → ViewState σ → Prop) : Prop where
  resolve : ∀ fuel t s, V s →
    (v.resolve fuel t).Ends s (fun _ s' => V s') fun e s' => E (.resolve e) s'
  unknownType : ∀ t s, V s → E (.unknownType t) s

/-- **An invariant of queries that only resolve**: of what a view holds, `V`, and of what each
hierarchy remembers, `M`. It has to be kept by resolving a class, and by remembering ancestors. -/
structure QueryRule {σ : Type} (v : View σ) (V : ViewState σ → Prop) (M : Hierarchy → Prop)
    (E : HierarchyError → ViewState σ → Prop) : Prop extends ResolveRule v V E where
  cycle : ∀ t s, V s → E (.cycle t) s
  ancestors : ∀ m a, M m → M { m with ancestors := a }

/-- **An invariant of queries that also list every class**, and remember the edges that are computed
from the classes. -/
structure ViewRule {σ : Type} (v : View σ) (V : ViewState σ → Prop) (M : Hierarchy → Prop)
    (E : HierarchyError → ViewState σ → Prop) : Prop extends ResolveRule v V E where
  resolveAll : ∀ fuel s, V s →
    (v.resolveAll fuel).Ends s
      (fun ids s' => V s' ∧
        ∀ m, M m → M { m with edges := some (Hierarchy.edgesOf (s'.classes ids)) })
      fun e s' => E (.resolve e) s'

/-- **An invariant of calls** that does not look at the ancestors that are remembered. -/
structure CallRule {σ : Type} (v : View σ) (V : ViewState σ → Prop) (M : Hierarchy → Prop)
    (E : HierarchyError → ViewState σ → Prop) : Prop
    extends QueryRule v V M E, ViewRule v V M E where
  valuesWithDefaults : ∀ fuel id i s, V s →
    (v.valuesWithDefaults fuel id i).Ends s (fun _ s' => V s') fun e s' => E (.resolve e) s'

namespace Hierarchy

variable {σ : Type} {v : View σ} {V : ViewState σ → Prop} {M : Hierarchy → Prop}
  {E : HierarchyError → ViewState σ → Prop} {α β : Type}

variable (V M E) in
/-- A query keeps an invariant, or ends with an error of which something else is known. -/
def Keeps (q : Query σ α) : Prop :=
  ∀ s, V s.view → M s.memo →
    q.Ends s (fun _ s' => V s'.view ∧ M s'.memo) fun e s' => M s'.memo ∧ E e s'.view

theorem keeps_pure (a : α) : Keeps V M E (pure a : Query σ α) :=
  fun _ hV hM => ⟨hV, hM⟩

theorem keeps_fail {e : HierarchyError} (h : ∀ s, V s → E e s) :
    Keeps V M E (Run.fail e : Query σ α) :=
  fun s hV hM => ⟨hM, h s.view hV⟩

theorem keeps_read (f : HierarchyState σ → α) : Keeps V M E (Run.read f) :=
  fun _ hV hM => ⟨hV, hM⟩

/-- One query after another. -/
theorem Keeps.bind {q : Query σ α} {f : α → Query σ β} (hq : Keeps V M E q)
    (hf : ∀ a, Keeps V M E (f a)) : Keeps V M E (q >>= f) := fun s hV hM =>
  Run.outcome_bind.mpr ((hq s hV hM).imp (fun a s' h => hf a s' h.1 h.2) fun _ _ he => he)

theorem keeps_resolve (hrule : ResolveRule v V E) (fuel : Nat) (t : ClassType) :
    Keeps V M E (inView (v.resolve fuel t)) := fun s hV hM =>
  Run.outcome_zoom.mpr ((hrule.resolve fuel t s.view hV).imp (fun _ _ h => ⟨h, hM⟩)
    fun _ _ he => ⟨hM, he⟩)

theorem keeps_object (id : Nat) : Keeps V M E (inView (View.object id) : Query σ Loaded) :=
  fun _ hV hM => ⟨hV, hM⟩

theorem keeps_require (hrule : ResolveRule v V E) (fuel : Nat) (t : ClassType) :
    Keeps V M E (require v fuel t) := by
  rw [require]
  refine (keeps_resolve hrule fuel t).bind fun answer => ?_
  cases answer with
  | none => exact keeps_fail (hrule.unknownType t)
  | some id => exact (keeps_object id).bind fun _ => keeps_pure _

section Ancestors

variable {find : ClassType → Query σ (Option Ancestors)}

theorem keeps_inherited (hfind : ∀ t, Keeps V M E (find t)) (reference subtype : ClassType) :
    Keeps V M E (inherited find reference subtype) := by
  rw [inherited]
  split
  · refine (hfind _).bind fun found => ?_
    cases found with
    | none => exact hfind reference
    | some a => exact keeps_pure _
  · exact hfind reference

theorem keeps_addInterfaces (hfind : ∀ t, Keeps V M E (find t)) (subtype : ClassType) :
    ∀ types a, Keeps V M E (addInterfaces find subtype types a)
  | [], _ => keeps_pure _
  | t :: rest, _ => (keeps_inherited hfind t subtype).bind fun _ =>
      keeps_addInterfaces hfind subtype rest _

theorem keeps_collect (hfind : ∀ t, Keeps V M E (find t)) (c : ClassInfo) :
    Keeps V M E (collect find c) := by
  rw [collect]
  have hrest := fun a => keeps_addInterfaces hfind c.type c.interfaces a
  split
  · refine (keeps_inherited hfind _ c.type).bind fun _ => ?_
    exact (keeps_pure _).bind hrest
  · exact (keeps_pure _).bind hrest

end Ancestors

/-- Collecting the ancestors of a class resolves classes and remembers ancestors. -/
theorem keeps_ancestorsOf (hrule : QueryRule v V M E) : ∀ fuel active t,
    Keeps V M E (ancestorsOf v fuel active t)
  | 0, _, _ => fun _ _ _ => trivial
  | fuel + 1, active, t => by
    rw [ancestorsOf]
    refine (keeps_read _).bind fun known => ?_
    cases known with
    | some a => exact keeps_pure _
    | none =>
      refine (keeps_resolve hrule.toResolveRule (fuel + 1) t).bind fun answer => ?_
      cases answer with
      | none => exact keeps_pure _
      | some id =>
        refine (keeps_object id).bind fun o => ?_
        dsimp only
        split
        · exact keeps_fail (hrule.cycle _)
        · refine (keeps_collect (keeps_ancestorsOf hrule fuel _) o.info).bind fun a => ?_
          refine Keeps.bind (fun s hV hM => ?_) fun _ => keeps_pure _
          exact ⟨hV, hrule.ancestors _ _ hM⟩

theorem keeps_requireAncestors (hrule : QueryRule v V M E) (fuel : Nat) (t : ClassType) :
    Keeps V M E (requireAncestors v fuel t) := by
  rw [requireAncestors]
  refine (keeps_ancestorsOf hrule fuel [] t).bind fun found => ?_
  cases found with
  | none => exact keeps_fail (hrule.unknownType t)
  | some a => exact keeps_pure _

/-- The subtype edges are those of the classes that were resolved, and they are remembered. -/
theorem keeps_subtypeEdges (hrule : ViewRule v V M E) (fuel : Nat) :
    Keeps V M E (subtypeEdges v fuel) := by
  rw [subtypeEdges]
  refine (keeps_read _).bind fun known => ?_
  cases known with
  | some edges => exact keeps_pure _
  | none =>
    intro s hV hM
    refine Run.outcome_bind.mpr (Run.outcome_zoom.mpr ?_)
    refine (hrule.resolveAll fuel s.view hV).imp (fun ids s' h => ?_) fun _ _ he => ⟨hM, he⟩
    exact ⟨h.1, h.2 s.memo hM⟩

end Hierarchy

/-! ### Sessions -/

/-- The state of a view and of the hierarchies over it, which are numbered. -/
structure Session (σ : Type) where
  view : ViewState σ
  hierarchies : Nat → Hierarchy := fun _ => {}

namespace View

variable {σ : Type}

/-- **The calls on a view**, each with the kind of its answer. Those on a hierarchy name its
number. -/
inductive Call : Type → Type
  | resolve (t : ClassType) : Call (Option Nat)
  | resolveAll : Call (List Nat)
  | valuesWithDefaults (id i : Nat) : Call (Option Elements)
  | superclassOf (k : Nat) (t : ClassType) : Call (Option ClassType)
  | interfacesOf (k : Nat) (t : ClassType) : Call (List ClassType)
  | implementedInterfacesOf (k : Nat) (t : ClassType) : Call (List ClassType)
  | superclassesOf (k : Nat) (t : ClassType) : Call (List ClassType)
  | isSubtype (k : Nat) (supertype candidate : ClassType) : Call Bool
  | directSubtypesOf (k : Nat) (t : ClassType) : Call (List ClassType)
  | subtypesOf (k : Nat) (t : ClassType) : Call (List ClassType)

/-- The annotation whose elements a call asks for, if it does: an object and a position. -/
def Call.asked? {α : Type} : Call α → Option (Nat × Nat)
  | valuesWithDefaults id i => some (id, i)
  | _ => none

/-- What a view does, within a session. -/
def onView {α : Type} (a : Action σ α) : Run (Session σ) HierarchyError α :=
  Run.zoom (·.view) (fun view s => { s with view }) .resolve a

/-- A query on the hierarchy of a number, within a session. -/
def onHierarchy {α : Type} (k : Nat) (q : Hierarchy.Query σ α) :
    Run (Session σ) HierarchyError α :=
  Run.zoom (fun s => ⟨s.view, s.hierarchies k⟩)
    (fun h s => ⟨h.view, Function.update s.hierarchies k h.memo⟩) id q

/-- A call, run with fuel. -/
def Call.run (v : View σ) (fuel : Nat) {α : Type} : Call α → Run (Session σ) HierarchyError α
  | resolve t => onView (v.resolve fuel t)
  | resolveAll => onView (v.resolveAll fuel)
  | valuesWithDefaults id i => onView (v.valuesWithDefaults fuel id i)
  | superclassOf k t => onHierarchy k (Hierarchy.superclassOf v fuel t)
  | interfacesOf k t => onHierarchy k (Hierarchy.interfacesOf v fuel t)
  | implementedInterfacesOf k t => onHierarchy k (Hierarchy.implementedInterfacesOf v fuel t)
  | superclassesOf k t => onHierarchy k (Hierarchy.superclassesOf v fuel t)
  | isSubtype k supertype candidate =>
    onHierarchy k (Hierarchy.isSubtype v fuel supertype candidate)
  | directSubtypesOf k t => onHierarchy k (Hierarchy.directSubtypesOf v fuel t)
  | subtypesOf k t => onHierarchy k (Hierarchy.subtypesOf v fuel t)

variable (v : View σ) (W : σ → Prop)

/-- The session of a view that has done nothing. -/
def fresh (w : σ) : Session σ where
  view := v.start w

/-- **What may happen next**: a call ends, with an answer or with an error, or the world changes by
itself. -/
inductive Next : Session σ → Session σ → Prop
  | call {α : Type} {s s' : Session σ} {x : Except HierarchyError α} (c : Call α) (fuel : Nat) :
      c.run v fuel s = some (x, s') → Next s s'
  | drift {s : Session σ} {w : σ} : W w → Next s { s with view := { s.view with world := w } }

/-- **The states of a view in use.** -/
def Reachable (s : Session σ) : Prop :=
  ∃ w, W w ∧ Relation.ReflTransGen (Next v W) (v.fresh w) s

variable {v W}

theorem reachable_fresh {w : σ} (hw : W w) : Reachable v W (v.fresh w) :=
  ⟨w, hw, .refl⟩

theorem Reachable.trans {s s' : Session σ} (h : Reachable v W s)
    (hnext : Relation.ReflTransGen (Next v W) s s') : Reachable v W s' := by
  obtain ⟨w, hw, htrace⟩ := h
  exact ⟨w, hw, htrace.trans hnext⟩

theorem Reachable.call {α : Type} {s s' : Session σ} {x : Except HierarchyError α}
    (h : Reachable v W s) (c : Call α) {fuel : Nat} (hrun : c.run v fuel s = some (x, s')) :
    Reachable v W s' :=
  h.trans (.single (.call c fuel hrun))

/-! ### What calls keep -/

section Rule

variable {V : ViewState σ → Prop} {M : Hierarchy → Prop} {E : HierarchyError → ViewState σ → Prop}
  {α : Type}

theorem keeps_onView {a : Action σ α} {s : Session σ}
    (h : a.Ends s.view (fun _ s' => V s') fun e s' => E (.resolve e) s')
    (hM : ∀ k, M (s.hierarchies k)) :
    (onView a).Ends s (fun _ s' => V s'.view ∧ ∀ k, M (s'.hierarchies k)) fun e s' =>
      (∀ k, M (s'.hierarchies k)) ∧ E e s'.view :=
  Run.outcome_zoom.mpr (h.imp (fun _ _ hV => ⟨hV, hM⟩) fun _ _ he => ⟨hM, he⟩)

theorem keeps_onHierarchy {k : Nat} {q : Hierarchy.Query σ α} {s : Session σ}
    (h : Hierarchy.Keeps V M E q) (hV : V s.view) (hM : ∀ k, M (s.hierarchies k)) :
    (onHierarchy k q).Ends s (fun _ s' => V s'.view ∧ ∀ k, M (s'.hierarchies k)) fun e s' =>
      (∀ k, M (s'.hierarchies k)) ∧ E e s'.view := by
  have hupdate : ∀ m, M m → ∀ j, M (Function.update s.hierarchies k m j) := by
    intro m hm j
    rw [Function.update_apply]
    split
    · exact hm
    · exact hM j
  refine Run.outcome_zoom.mpr ((h ⟨s.view, s.hierarchies k⟩ hV (hM k)).imp ?_ ?_)
  · exact fun _ s' h => ⟨h.1, hupdate _ h.2⟩
  · exact fun _ s' he => ⟨hupdate _ he.1, he.2⟩

/-- **Every call keeps an invariant** of queries, if computing the elements that it asks for keeps
it. -/
theorem Call.keeps_of (hquery : QueryRule v V M E) (hview : ViewRule v V M E) (c : Call α)
    (fuel : Nat) {s : Session σ} (hV : V s.view) (hM : ∀ k, M (s.hierarchies k))
    (hvalues : ∀ id i, c.asked? = some (id, i) → (v.valuesWithDefaults fuel id i).Ends s.view
      (fun _ s' => V s') fun e s' => E (.resolve e) s') :
    (c.run v fuel).Ends s (fun _ s' => V s'.view ∧ ∀ k, M (s'.hierarchies k)) fun e s' =>
      (∀ k, M (s'.hierarchies k)) ∧ E e s'.view := by
  have hrequire := fun t => Hierarchy.keeps_require (M := M) hview.toResolveRule fuel t
  have hancestors := Hierarchy.keeps_requireAncestors hquery
  have hedges := Hierarchy.keeps_subtypeEdges hview fuel
  cases c with
  | resolve t => exact keeps_onView (hview.resolve fuel t s.view hV) hM
  | resolveAll =>
    refine keeps_onView ?_ hM
    exact (hview.resolveAll fuel s.view hV).imp (fun _ _ h => h.1) fun _ _ he => he
  | valuesWithDefaults id i => exact keeps_onView (hvalues id i rfl) hM
  | superclassOf k t =>
    exact keeps_onHierarchy ((hrequire t).bind fun _ => Hierarchy.keeps_pure _) hV hM
  | interfacesOf k t =>
    exact keeps_onHierarchy ((hrequire t).bind fun _ => Hierarchy.keeps_pure _) hV hM
  | implementedInterfacesOf k t =>
    exact keeps_onHierarchy ((hancestors fuel t).bind fun _ => Hierarchy.keeps_pure _) hV hM
  | superclassesOf k t =>
    exact keeps_onHierarchy ((hancestors fuel t).bind fun _ => Hierarchy.keeps_pure _) hV hM
  | isSubtype k supertype candidate =>
    refine keeps_onHierarchy ?_ hV hM
    exact (hancestors fuel candidate).bind fun _ => Hierarchy.keeps_pure _
  | directSubtypesOf k t =>
    refine keeps_onHierarchy ((hrequire t).bind fun _ => ?_) hV hM
    exact hedges.bind fun _ => Hierarchy.keeps_pure _
  | subtypesOf k t =>
    refine keeps_onHierarchy ((hrequire t).bind fun _ => ?_) hV hM
    exact hedges.bind fun _ => Hierarchy.keeps_pure _

/-- **Every call keeps an invariant of calls.** -/
theorem Call.keeps (hrule : CallRule v V M E) (c : Call α) (fuel : Nat) {s : Session σ}
    (hV : V s.view) (hM : ∀ k, M (s.hierarchies k)) :
    (c.run v fuel).Ends s (fun _ s' => V s'.view ∧ ∀ k, M (s'.hierarchies k)) fun e s' =>
      (∀ k, M (s'.hierarchies k)) ∧ E e s'.view :=
  c.keeps_of hrule.toQueryRule hrule.toViewRule fuel hV hM fun id i _ =>
    hrule.valuesWithDefaults fuel id i s.view hV

theorem Call.kept (hrule : CallRule v V M E) (hfail : ∀ e s, E e s → V s) {c : Call α}
    {fuel : Nat} {s s' : Session σ} {x : Except HierarchyError α} (hV : V s.view)
    (hM : ∀ k, M (s.hierarchies k)) (h : c.run v fuel s = some (x, s')) :
    V s'.view ∧ ∀ k, M (s'.hierarchies k) :=
  Run.Ends.state (P := fun s' => V s'.view ∧ ∀ k, M (s'.hierarchies k))
    ((c.keeps hrule fuel hV hM).imp (fun _ _ h => h) fun _ _ he => ⟨hfail _ _ he.2, he.1⟩) h

/-- **An invariant of calls holds along a session** if calls that fail and changes of the world keep
it. -/
theorem next_keeps (hrule : CallRule v V M E) (hfail : ∀ e s, E e s → V s)
    (hdrift : ∀ s w, V s → W w → V { s with world := w }) {s s' : Session σ}
    (h : Relation.ReflTransGen (Next v W) s s') (hV : V s.view) (hM : ∀ k, M (s.hierarchies k)) :
    V s'.view ∧ ∀ k, M (s'.hierarchies k) := by
  induction h with
  | refl => exact ⟨hV, hM⟩
  | tail _ hnext ih =>
    cases hnext with
    | call c fuel hrun => exact c.kept hrule hfail ih.1 ih.2 hrun
    | drift hw => exact ⟨hdrift _ _ ih.1 hw, ih.2⟩

end Rule

/-! ### Calls are made of steps -/

/-- **To be reached by steps is an invariant of calls**, and what calls report of resolving is a
fault of the stores. Steps leave the mark of a scan alone, so they begin where it is already set if
it will be. -/
theorem callRule_trace (hW : Steady v W) {s₀ : ViewState σ} (hs₀ : Sound v W s₀)
    (hw₀ : W s₀.world) :
    CallRule v (fun s => Trace v W 0 (s₀.marked s.complete) s) (fun _ => True) fun e s =>
      Trace v W 0 (s₀.marked s.complete) s ∧ ∀ e', e = .resolve e' → Fault v W e' := by
  have hsound : ∀ {s}, Trace v W 0 (s₀.marked s.complete) s → Sound v W s ∧ W s.world :=
    fun h => ⟨Trace.sound h (hs₀.marked _), hW.trace h hw₀⟩
  have hlater : ∀ {s s' : ViewState σ} {n}, Trace v W 0 (s₀.marked s.complete) s →
      Trace v W n s s' → Trace v W 0 (s₀.marked s'.complete) s' := by
    intro s s' n h htrace
    rw [htrace.complete_eq]
    exact h.trans (htrace.mono (Nat.zero_le _))
  have hfault : ∀ {e : ResolveError}, Fault v W e →
      ∀ e', HierarchyError.resolve e = .resolve e' → Fault v W e' := by
    rintro e he e' ⟨⟩
    exact he
  refine ⟨⟨⟨fun fuel t s h => ?_, fun _ _ h => ⟨h, nofun⟩⟩, fun _ _ h => ⟨h, nofun⟩,
    fun _ _ _ => trivial⟩, fun fuel s h => ?_, fun fuel id i s h => ?_⟩
  · exact Run.Outcome.imp (runs_resolve hW (hsound h).1 (hsound h).2) (fun _ _ h' => hlater h h'.1)
      fun _ _ he => ⟨hlater h he.1, hfault he.2⟩
  · refine Run.Outcome.imp (runs_resolveAll_sound hW (hsound h).1 (hsound h).2) (fun _ s' h' => ?_)
      fun _ _ he => ⟨hlater h he.1, hfault he.2⟩
    refine ⟨?_, fun _ _ => trivial⟩
    have hmark : s'.complete = true := h'.1.complete_eq
    rw [hmark]
    -- the steps so far begin as well where the mark is set, since they do not look at it
    exact (h.marked true).trans (h'.1.mono (Nat.zero_le _))
  · exact Run.Outcome.imp (runs_valuesWithDefaults_sound hW (hsound h).1 (hsound h).2 fuel id i)
      (fun _ _ h' => hlater h h'.1) fun _ _ he => ⟨hlater h he.1, hfault he.2⟩

/-- What is asked of a view keeps it sound, and remembering edges keeps what does not look at
them. -/
theorem viewRule_sound (hW : Steady v W) {M : Hierarchy → Prop}
    (hedges : ∀ m e, M m → M { m with edges := e }) :
    ViewRule v (fun s => Sound v W s ∧ W s.world) M fun _ s => Sound v W s ∧ W s.world where
  resolve fuel t s h := by
    have hkept : ∀ {s'}, Trace v W s.built.size s s' → Sound v W s' ∧ W s'.world :=
      fun htrace => ⟨Trace.sound htrace h.1, hW.trace htrace h.2⟩
    exact Run.Outcome.imp (runs_resolve hW h.1 h.2) (fun _ _ h' => hkept h'.1)
      fun _ _ he => hkept he.1
  unknownType _ _ h := h
  resolveAll fuel s h := by
    refine Run.Outcome.imp (runs_resolveAll_sound hW h.1 h.2) (fun _ _ h' => ⟨?_, ?_⟩)
      fun _ _ he => ⟨Trace.sound he.1 h.1, hW.trace he.1 h.2⟩
    · exact ⟨Trace.sound h'.1 (h.1.marked true), hW.trace h'.1 h.2⟩
    · exact fun m => hedges m _

/-- A call that ended was made of steps, whatever it ended with. -/
theorem Call.trace (hW : Steady v W) {α : Type} {c : Call α} {fuel : Nat} {s s' : Session σ}
    {x : Except HierarchyError α} (hs : Sound v W s.view) (hw : W s.view.world)
    (h : c.run v fuel s = some (x, s')) :
    Trace v W 0 (s.view.marked s'.view.complete) s'.view :=
  (c.kept (callRule_trace hW hs hw) (fun _ _ h => h.1) .refl (fun _ => trivial) h).1

/-- What a call reports of resolving is a fault of the stores. -/
theorem Call.fault (hW : Steady v W) {α : Type} {c : Call α} {fuel : Nat} {s s' : Session σ}
    {e : ResolveError} (hs : Sound v W s.view) (hw : W s.view.world)
    (h : c.run v fuel s = some (.error (.resolve e), s')) : Fault v W e :=
  ((c.keeps (callRule_trace hW hs hw) fuel .refl fun _ => trivial).error h).2.2 e rfl

/-- What `resolve` answers, as a call. -/
theorem resolve_answers (hW : Steady v W) {t : ClassType} {fuel : Nat} {answer : Option Nat}
    {s s' : Session σ} (hs : Sound v W s.view) (hw : W s.view.world)
    (h : (Call.resolve t).run v fuel s = some (.ok answer, s')) : Answers v W t answer s'.view := by
  have hends : (onView (v.resolve fuel t)).Ends s (fun a s' => Answers v W t a s'.view)
      fun _ _ => True :=
    Run.outcome_zoom.mpr (Run.Outcome.imp (runs_resolve hW hs hw) (fun _ _ h => h.2)
      fun _ _ _ => trivial)
  exact hends.ok h

/-! ### The invariant of views in use -/

/-- **What steps preserve holds along a session** if changes of the world and the mark of a scan
keep it. -/
theorem next_invariant (hW : Steady v W) {I : ViewState σ → Prop}
    (hstep : ∀ s s', Sound v W s → I s → Step v W 0 s s' → I s')
    (hdrift : ∀ s w, I s → W w → I { s with world := w })
    (hmark : ∀ s b, I s → I (s.marked b)) {s s' : Session σ}
    (h : Relation.ReflTransGen (Next v W) s s') (hs : Sound v W s.view) (hw : W s.view.world)
    (hI : I s.view) : Sound v W s'.view ∧ W s'.view.world ∧ I s'.view := by
  induction h with
  | refl => exact ⟨hs, hw, hI⟩
  | tail _ hnext ih =>
    obtain ⟨hs', hw', hI'⟩ := ih
    cases hnext with
    | call c fuel hrun =>
      have htrace := c.trace hW hs' hw' hrun
      exact ⟨Trace.sound htrace (hs'.marked _), hW.trace htrace hw',
        Trace.invariant hstep htrace (hs'.marked _) (hmark _ _ hI')⟩
    | drift hw'' => exact ⟨hs'.inWorld _, hw'', hdrift _ _ hI' hw''⟩

/-- **The invariant holds whenever a view is in use**, in one of the worlds it is used in. -/
theorem Reachable.sound (hW : Steady v W) {s : Session σ} (h : Reachable v W s) :
    Sound v W s.view ∧ W s.view.world := by
  obtain ⟨w, hw, htrace⟩ := h
  obtain ⟨hs, hw', -⟩ := next_invariant (I := fun _ => True) hW (fun _ _ _ _ _ => trivial)
    (fun _ _ _ _ => trivial) (fun _ _ _ => trivial) htrace (sound_start w) hw trivial
  exact ⟨hs, hw'⟩

end View

end Classpath

import Classpath.Proofs.Hierarchy.Subtypes
import Classpath.Proofs.View.Fuel

/-!
# Subtypes, read off one scan

The subtype queries of a hierarchy read an index, and the index is made once: the first query that
gets as far lists every class of the project, and the hierarchy remembers who names whom. Later
queries read the same index, whatever was called or changed in between. So all answers of a
hierarchy are about the classes of one list (`Classpath.Hierarchy.IndexedBy`), and they fit together
because of that: subtypes of subtypes are subtypes.

The classes of the list may be any. They may inherit from each other in a circle or from themselves,
they may name supertypes that no location has, and classes of several modules may have one name. The
search along the index is a loop that nothing bounds but what there is to find
(`Classpath.Hierarchy.Searches`); it ends since a type is queued only when it is found.

* `Classpath.Hierarchy.edges_of_run` – what a call does to an index.
* `Classpath.Hierarchy.exists_indexedBy` – every index comes from a scan.
* `Classpath.Hierarchy.subtypes_of_index` – what the subtype queries answer.
-/

namespace Classpath

namespace Hierarchy

open View Relation

/-! ### Searching without a bound -/

section Searches

variable {edges : List (ClassType × ClassType)} {root : ClassType}
  {queue found : List ClassType}

/-- The direct subtypes of a type that are new. -/
def unseen (edges : List (ClassType × ClassType)) (root : ClassType) (found : List ClassType)
    (t : ClassType) : List ClassType :=
  (children edges t).filter fun c => c ≠ root && !found.contains c

/-- **The search as a loop**: it takes types off the queue as long as there are any, and ends with
what was found. -/
inductive Searches (edges : List (ClassType × ClassType)) (root : ClassType) :
    List ClassType → List ClassType → List ClassType → Prop
  | done (found : List ClassType) : Searches edges root [] found found
  | step {t : ClassType} {queue found result : List ClassType} :
      Searches edges root (queue ++ unseen edges root found t) (found ++ unseen edges root found t)
        result → Searches edges root (t :: queue) found result

/-- **The loop ends** with what the search of as many steps as there are edges finds. -/
theorem Searching.searches : ∀ {fuel queue found}, Searching edges root queue found →
    queue.length + edges.length ≤ fuel + found.length →
    Searches edges root queue found (reachable edges root fuel queue found)
  | 0, queue, found, h, hfuel => by
    have hlength := h.length_le
    obtain rfl : queue = [] := List.eq_nil_of_length_eq_zero (by omega)
    rw [reachable]
    exact .done _
  | fuel + 1, [], found, _, _ => by
    rw [reachable]
    · exact .done _
    · simp
  | fuel + 1, t :: queue, found, h, hfuel => by
    rw [reachable]
    refine .step (h.step.searches ?_)
    simp only [List.length_append, List.length_cons] at hfuel ⊢
    omega

end Searches

/-! ### The classes of an index -/

section Classes

variable {classes : List ClassInfo} {p t x : ClassType}

/-- The name `x` is **directly under** `p`: among the classes one of this name names `p` as its
superclass or as an interface. -/
def DirectlyUnder (classes : List ClassInfo) (p x : ClassType) : Prop :=
  ∃ c ∈ classes, c.type.unqualified = x ∧ ∃ r ∈ c.supertypes, r.unqualified = p

theorem edge_edgesOf : Edge (edgesOf classes) = DirectlyUnder classes := by
  funext p x
  simp only [Edge, edgesOf, List.mem_flatMap, List.mem_map, Prod.mk.injEq, DirectlyUnder,
    eq_iff_iff]
  constructor
  · rintro ⟨c, hc, r, hr, hp, hx⟩
    exact ⟨c, hc, hx, r, hr, hp⟩
  · rintro ⟨c, hc, hx, r, hr, hp⟩
    exact ⟨c, hc, r, hr, hp, hx⟩

theorem mem_children_edgesOf : x ∈ children (edgesOf classes) t ↔ DirectlyUnder classes t x := by
  rw [mem_children, ← edge_edgesOf]
  rfl

/-- **The subtypes** are the other names that are reached in one or more steps. -/
theorem mem_subtypesIn_edgesOf : x ∈ subtypesIn (edgesOf classes) t ↔
    x ≠ t ∧ TransGen (DirectlyUnder classes) t x := by
  rw [mem_subtypesIn, edge_edgesOf, reflTransGen_iff_eq_or_transGen]
  exact ⟨fun ⟨hne, h⟩ => ⟨hne, h.resolve_left hne⟩, fun ⟨hne, h⟩ => ⟨hne, .inr h⟩⟩

end Classes

/-! ### What calls do to an index -/

variable {σ : Type} {v : View σ} {W : σ → Prop} {k n : Nat} {t : ClassType}
  {edges : List (ClassType × ClassType)} {classes : List ClassInfo} {s s' s₁ s₂ : Session σ}

/-- The session once a hierarchy remembers edges. -/
def remembering (s : Session σ) (k : Nat) (edges : List (ClassType × ClassType)) : Session σ :=
  { s with hierarchies :=
      Function.update s.hierarchies k { s.hierarchies k with edges := some edges } }

@[simp] theorem edges_remembering : ((remembering s k edges).hierarchies k).edges = some edges := by
  simp [remembering]

/-- What a view does, within a query. -/
theorem inView_of_eq {α : Type} {a : View.Action σ α} {q : HierarchyState σ} {x : α}
    {view : ViewState σ} (h : a q.view = some (.ok x, view)) :
    inView a q = some (.ok x, { q with view }) := by
  simp only [inView, Run.zoom, h]
  rfl

section Reading

variable {β : Type} {f : List (ClassType × ClassType) → β} {q : HierarchyState σ} {id : Nat}
  {view : ViewState σ}

/-- A query for a type that is resolved goes on to the edges. -/
theorem readEdges_of_resolve (hres : v.resolve n t q.view = some (.ok (some id), view)) :
    readEdges v t f n q = (subtypeEdges v n >>= fun edges => pure (f edges)) { q with view } := by
  have hrequire : require v n t q =
      some (.ok (view.built[id]?.getD default).info, { q with view }) := by
    rw [require, Run.bind_of_ok (inView_of_eq hres)]
    rfl
  rw [readEdges, Run.bind_of_ok hrequire]

/-- **Reading edges that are remembered.** -/
theorem run_readEdges_of_edges (hres : (Call.resolve t).run v n s = some (.ok (some id), s₁))
    (hedges : (s₁.hierarchies k).edges = some edges) :
    onHierarchy k (readEdges v t f n) s = some (.ok (f edges), s₁) := by
  obtain ⟨hview, hs₁⟩ := onView_eq_some hres
  have hread : subtypeEdges v n ⟨s₁.view, s.hierarchies k⟩ =
      some (.ok edges, ⟨s₁.view, s.hierarchies k⟩) := by
    have hedges' : (s.hierarchies k).edges = some edges := by rw [← hedges, hs₁]
    rw [subtypeEdges]
    change Run.bind _ _ _ = _
    simp only [Run.bind, Run.read, hedges']
    rfl
  have hquery : readEdges v t f n ⟨s.view, s.hierarchies k⟩ =
      some (.ok (f edges), ⟨s₁.view, s.hierarchies k⟩) := by
    rw [readEdges_of_resolve (q := ⟨s.view, s.hierarchies k⟩) hview, Run.bind_of_ok hread]
    rfl
  simp only [onHierarchy, Run.zoom, hquery, Function.update_eq_self]
  rw [hs₁]
  rfl

/-- **Reading edges for the first time**: every class is listed, and the edges are remembered. -/
theorem run_readEdges_of_scan {ids : List Nat}
    (hres : (Call.resolve t).run v n s = some (.ok (some id), s₁))
    (hedges : (s₁.hierarchies k).edges = none)
    (hall : Call.resolveAll.run v n s₁ = some (.ok ids, s₂)) :
    onHierarchy k (readEdges v t f n) s = some (.ok (f (edgesOf (s₂.view.classes ids))),
      remembering s₂ k (edgesOf (s₂.view.classes ids))) := by
  obtain ⟨hview, hs₁⟩ := onView_eq_some hres
  obtain ⟨hview', hs₂⟩ := onView_eq_some hall
  have hmemo : s₁.hierarchies = s.hierarchies := by rw [hs₁]
  have hmemo' : s₂.hierarchies = s.hierarchies := by rw [hs₂, ← hmemo]
  have hread : subtypeEdges v n ⟨s₁.view, s.hierarchies k⟩ =
      some (.ok (edgesOf (s₂.view.classes ids)),
        ⟨s₂.view, { s.hierarchies k with edges := some (edgesOf (s₂.view.classes ids)) }⟩) := by
    have hedges' : (s.hierarchies k).edges = none := by rw [← hedges, hmemo]
    rw [subtypeEdges]
    change Run.bind _ _ _ = _
    simp only [Run.bind, Run.read, hedges']
    rw [Run.bind_of_ok (inView_of_eq (q := ⟨s₁.view, s.hierarchies k⟩) hview')]
    rfl
  simp only [onHierarchy, Run.zoom]
  rw [readEdges_of_resolve (q := ⟨s.view, s.hierarchies k⟩) hview, Run.bind_of_ok hread,
    remembering, hmemo']
  rfl

/-- **What reading edges does to them**: nothing, or there were none and every class is listed. -/
theorem ends_readEdges_memo :
    let P (q' : HierarchyState σ) : Prop := q'.memo.edges = q.memo.edges ∨
      q.memo.edges = none ∧ ∃ id view ids, v.resolve n t q.view = some (.ok (some id), view) ∧
        v.resolveAll n view = some (.ok ids, q'.view) ∧
        q'.memo = { q.memo with edges := some (edgesOf (q'.view.classes ids)) }
    (readEdges v t f n).Ends q (fun _ => P) fun _ => P := by
  intro P
  rw [readEdges, require, Run.bind_assoc]
  refine Run.outcome_bind.mpr (Run.outcome_zoom.mpr (Run.ends_of_forall (fun answer view hres => ?_)
    fun _ _ _ => .inl rfl))
  rcases answer with _ | id
  · exact .inl rfl
  -- the type is resolved, and nothing that is remembered was changed
  change (subtypeEdges v n >>= fun edges => pure (f edges)).Ends { q with view } _ _
  rw [subtypeEdges, Run.bind_assoc]
  refine Run.outcome_bind.mpr (Run.outcome_read.mpr ?_)
  rcases hedges : q.memo.edges with _ | edges
  · rw [Run.bind_assoc]
    refine Run.outcome_bind.mpr (Run.outcome_zoom.mpr (Run.ends_of_forall (fun ids _ hall => ?_)
      fun _ _ _ => .inl rfl))
    exact .inr ⟨hedges, id, view, ids, hres, hall, rfl⟩
  · exact .inl rfl

end Reading

variable (v) in
/-- **A hierarchy is indexed** between two states: it remembered no edges, a type was resolved,
every class was listed, and now the edges of these classes are remembered. -/
def Indexes (k : Nat) (s s' : Session σ) : Prop :=
  (s.hierarchies k).edges = none ∧ ∃ n t id s₁ ids s₂,
    (Call.resolve t).run v n s = some (.ok (some id), s₁) ∧
    Call.resolveAll.run v n s₁ = some (.ok ids, s₂) ∧
    s' = remembering s₂ k (edgesOf (s₂.view.classes ids))

section Calls

variable {α : Type} {j : Nat} {q : Query σ α}

variable (v) in
/-- The edges of a hierarchy are what they were, or it is indexed. -/
def MayIndex (k : Nat) (s s' : Session σ) : Prop :=
  (s'.hierarchies k).edges = (s.hierarchies k).edges ∨ Indexes v k s s'

/-- A query on another hierarchy does nothing to this one. -/
theorem ends_onHierarchy_mayIndex
    (hq : j = k → (onHierarchy k q).Ends s (fun _ => MayIndex v k s) fun _ => MayIndex v k s) :
    (onHierarchy j q).Ends s (fun _ => MayIndex v k s) fun _ => MayIndex v k s := by
  by_cases hj : j = k
  · subst hj
    exact hq rfl
  · have hother : ∀ h : HierarchyState σ,
        MayIndex v k s ⟨h.view, Function.update s.hierarchies j h.memo⟩ := fun h =>
      .inl (by simp [Ne.symm hj])
    exact Run.outcome_zoom.mpr (Run.ends_of_forall (fun _ h _ => hother h) fun _ h _ => hother h)

/-- A query that keeps the edges. -/
theorem Keeps.mayIndex (hq : Keeps (fun _ => True) (fun m => m.edges = (s.hierarchies k).edges)
      (fun _ _ => True) q) :
    (onHierarchy j q).Ends s (fun _ => MayIndex v k s) fun _ => MayIndex v k s := by
  refine ends_onHierarchy_mayIndex fun _ => Run.outcome_zoom.mpr
    ((hq ⟨s.view, s.hierarchies k⟩ trivial rfl).imp (fun _ h hkeeps => .inl ?_)
      fun _ h hkeeps => .inl ?_)
  · simpa using hkeeps.2
  · simpa using hkeeps.1

/-- A query that reads edges. -/
theorem ends_readEdges_mayIndex (j : Nat) (t : ClassType)
    (f : List (ClassType × ClassType) → α) :
    (onHierarchy j (readEdges v t f n)).Ends s (fun _ => MayIndex v k s)
      fun _ => MayIndex v k s := by
  have hindexes : ∀ h : HierarchyState σ, (h.memo.edges = (s.hierarchies k).edges ∨
      (s.hierarchies k).edges = none ∧ ∃ id view ids,
        v.resolve n t s.view = some (.ok (some id), view) ∧
        v.resolveAll n view = some (.ok ids, h.view) ∧
        h.memo = { s.hierarchies k with edges := some (edgesOf (h.view.classes ids)) }) →
      MayIndex v k s ⟨h.view, Function.update s.hierarchies k h.memo⟩ := by
    rintro h (hsame | ⟨hnone, id, view, ids, hres, hall, hmemo⟩)
    · exact .inl (by simpa using hsame)
    · refine .inr ⟨hnone, n, t, id, { s with view }, ids, { s with view := h.view },
        onView_of_eq hres, onView_of_eq (s := { s with view }) hall, ?_⟩
      rw [hmemo]
      rfl
  exact ends_onHierarchy_mayIndex fun _ => Run.outcome_zoom.mpr
    ((ends_readEdges_memo (q := ⟨s.view, s.hierarchies k⟩)).imp (fun _ h => hindexes h)
      fun _ h => hindexes h)

/-- **What a call does to the edges of a hierarchy**: nothing, or it indexes the hierarchy. -/
theorem edges_of_run {c : Call α} {x : Except HierarchyError α}
    (hrun : c.run v n s = some (x, s')) : MayIndex v k s s' := by
  have hview : ∀ {β : Type} (a : View.Action σ β),
      (onView a).Ends s (fun _ => MayIndex v k s) fun _ => MayIndex v k s := fun _ =>
    Run.outcome_zoom.mpr (Run.ends_of_forall (fun _ _ _ => .inl rfl) fun _ _ _ => .inl rfl)
  -- a query that collects ancestors reads no edges
  have hrule : QueryRule v (fun _ => True) (fun m => m.edges = (s.hierarchies k).edges)
      fun _ _ => True :=
    ⟨⟨fun _ _ _ _ => Run.ends_of_forall (fun _ _ _ => trivial) fun _ _ _ => trivial,
      fun _ _ _ => trivial⟩, fun _ _ _ => trivial, fun _ _ h => h⟩
  refine Run.Ends.state (r := c.run v n) ?_ hrun
  cases c with
  | resolve _ | resolveAll | valuesWithDefaults _ _ => exact hview _
  | superclassOf _ t | interfacesOf _ t =>
    exact ((keeps_require hrule.toResolveRule n t).bind fun _ => keeps_pure _).mayIndex
  | implementedInterfacesOf _ t | superclassesOf _ t | isSubtype _ _ t =>
    exact ((keeps_requireAncestors hrule n t).bind fun _ => keeps_pure _).mayIndex
  | directSubtypesOf j t => exact ends_readEdges_mayIndex j t (children · t.unqualified)
  | subtypesOf j t => exact ends_readEdges_mayIndex j t (subtypesIn · t.unqualified)

end Calls

/-- **Edges that are remembered are remembered for good.** -/
theorem edges_of_next (h : ReflTransGen (Next v W) s s')
    (hedges : (s.hierarchies k).edges = some edges) : (s'.hierarchies k).edges = some edges := by
  induction h with
  | refl => exact hedges
  | tail _ hlast ih =>
    cases hlast with
    | call c fuel hrun =>
      rcases edges_of_run (k := k) hrun with hsame | ⟨hnone, -⟩
      · rw [hsame, ih]
      · rw [ih] at hnone
        cases hnone
    | drift _ => exact ih

variable (v W) in
/-- **The classes that a hierarchy is indexed by.** At some time, when it remembered no edges, these
are the classes that were listed; it remembered their edges, and anything was called since then. -/
def IndexedBy (k : Nat) (classes : List ClassInfo) (s : Session σ) : Prop :=
  ∃ r n ids r', Reachable v W r ∧ (r.hierarchies k).edges = none ∧
    Call.resolveAll.run v n r = some (.ok ids, r') ∧ classes = r'.view.classes ids ∧
    ReflTransGen (Next v W) (remembering r' k (edgesOf classes)) s

theorem IndexedBy.later (h : IndexedBy v W k classes s) (hnext : ReflTransGen (Next v W) s s') :
    IndexedBy v W k classes s' := by
  obtain ⟨r, n, ids, r', hr, hnone, hall, hclasses, hsince⟩ := h
  exact ⟨r, n, ids, r', hr, hnone, hall, hclasses, hsince.trans hnext⟩

theorem IndexedBy.edges_eq (h : IndexedBy v W k classes s) :
    (s.hierarchies k).edges = some (edgesOf classes) := by
  obtain ⟨r, n, ids, r', -, -, -, -, hsince⟩ := h
  exact edges_of_next hsince edges_remembering

/-- **Every index comes from a scan.** -/
theorem exists_indexedBy (hs : Reachable v W s) (hedges : (s.hierarchies k).edges = some edges) :
    ∃ classes, edges = edgesOf classes ∧ IndexedBy v W k classes s := by
  obtain ⟨w, hw, hnext⟩ := hs
  induction hnext generalizing edges with
  | refl => cases hedges
  | @tail s s' hbefore hlast ih =>
    rcases hbefore' : (s.hierarchies k).edges with _ | e
    -- this is the call that indexes the hierarchy
    · cases hlast with
      | call c fuel hrun =>
        rcases edges_of_run (k := k) hrun with hsame | ⟨-, n, t, id, s₁, ids, s₂, hres, hall, rfl⟩
        · rw [hsame, hbefore'] at hedges
          cases hedges
        · have hs₁ : Reachable v W s₁ := ⟨w, hw, hbefore.tail (.call _ n hres)⟩
          have hnone : (s₁.hierarchies k).edges = none := by
            rw [(onView_eq_some hres).2, hbefore']
          refine ⟨s₂.view.classes ids, ?_, s₁, n, ids, s₂, hs₁, hnone, hall, rfl, .refl⟩
          rw [edges_remembering] at hedges
          exact (Option.some.inj hedges).symm
      | drift _ =>
        rw [hbefore'] at hedges
        cases hedges
    -- it was indexed before
    · have hkept := edges_of_next (.single hlast) hbefore'
      obtain ⟨classes, rfl, hindexed⟩ := ih hbefore'
      rw [hedges] at hkept
      exact ⟨classes, Option.some.inj hkept, hindexed.later (.single hlast)⟩

/-! ### The guarantee -/

/-- **The queries for a type read the edges of one list**: of the classes that the hierarchy is
indexed by, or else of those that are listed now. -/
theorem exists_index (hs : Reachable v W s) {id : Nat}
    (hres : (Call.resolve t).run v n s = some (.ok (some id), s₁))
    (hscan : (s₁.hierarchies k).edges = none →
      ∃ m ids s₂, Call.resolveAll.run v m s₁ = some (.ok ids, s₂)) :
    ∃ classes s' m, IndexedBy v W k classes s' ∧
      ((s₁.hierarchies k).edges = none → ∀ i ids s₂,
        Call.resolveAll.run v i s₁ = some (.ok ids, s₂) → classes = s₂.view.classes ids) ∧
      ∀ fuel ≥ m, ∀ {β : Type} (f : List (ClassType × ClassType) → β),
        onHierarchy k (readEdges v t f fuel) s = some (.ok (f (edgesOf classes)), s') := by
  have hs₁ := hs.call _ hres
  rcases hedges : (s₁.hierarchies k).edges with _ | edges
  · obtain ⟨m, ids, s₂, hall⟩ := hscan hedges
    refine ⟨s₂.view.classes ids, remembering s₂ k (edgesOf (s₂.view.classes ids)), max n m,
      ⟨s₁, m, ids, s₂, hs₁, hedges, hall, rfl, .refl⟩, fun _ i ids' s₂' hall' => ?_,
      fun fuel hfuel β f => ?_⟩
    · obtain ⟨hids, rfl⟩ := Prod.mk.inj (Call.run_unique hall hall')
      rw [Except.ok.inj hids]
    · exact run_readEdges_of_scan
        ((Call.resolve t).run_extends ((le_max_left n m).trans hfuel) s _ hres) hedges
        (Call.resolveAll.run_extends ((le_max_right n m).trans hfuel) s₁ _ hall)
  · obtain ⟨classes, rfl, hindexed⟩ := exists_indexedBy hs₁ hedges
    refine ⟨classes, s₁, n, hindexed, nofun, fun fuel hfuel β f => ?_⟩
    exact run_readEdges_of_edges ((Call.resolve t).run_extends hfuel s _ hres) hedges

/-- **What the subtype queries answer** for a type that can be resolved, in every state of a view
with any locations, if every class can be listed where this was not done before.

All answers of a hierarchy are about the classes that it is indexed by; if it is not indexed yet,
these are the classes that are listed now.

* The direct subtypes are the names directly under the name of the type, in order and each once.
* The loop that searches all subtypes ends. It finds every name but that of the type that is reached
  in one or more steps, each step to a name directly under the one before, and nothing else. So what
  is directly under the type or a subtype is a subtype or the type itself.
* Whenever later one of the subtypes can be resolved, its own subtypes are among those of the type,
  apart from the type itself. -/
theorem subtypes_of_index (hs : Reachable v (fun _ => True) s) {id : Nat}
    (hres : (Call.resolve t).run v n s = some (.ok (some id), s₁))
    (hscan : (s₁.hierarchies k).edges = none →
      ∃ m ids s₂, Call.resolveAll.run v m s₁ = some (.ok ids, s₂)) :
    ∃ classes s' direct found,
      let all := ClassType.sortedSet found
      IndexedBy v (fun _ => True) k classes s' ∧
      ((s₁.hierarchies k).edges = none → ∀ i ids s₂,
        Call.resolveAll.run v i s₁ = some (.ok ids, s₂) → classes = s₂.view.classes ids) ∧
      (∃ m, ∀ fuel ≥ m, (Call.directSubtypesOf k t).run v fuel s = some (.ok direct, s') ∧
        (Call.subtypesOf k t).run v fuel s = some (.ok all, s')) ∧
      (ClassType.sortedSet direct = direct ∧
        ∀ x, x ∈ direct ↔ DirectlyUnder classes t.unqualified x) ∧
      (Searches (edgesOf classes) t.unqualified [t.unqualified] [] found ∧
        ∀ x, x ∈ all ↔ x ≠ t.unqualified ∧ TransGen (DirectlyUnder classes) t.unqualified x) ∧
      (∀ x y, x = t.unqualified ∨ x ∈ all → DirectlyUnder classes x y →
        y = t.unqualified ∨ y ∈ all) ∧
      ∀ u r r' i m, u.unqualified ∈ all → ReflTransGen (Next v fun _ => True) s' r →
        (Call.resolve u).run v m r = some (.ok (some i), r') →
        ∃ below, (∀ fuel ≥ m, (Call.subtypesOf k u).run v fuel r = some (.ok below, r')) ∧
          ∀ x ∈ below, x ≠ t.unqualified → x ∈ all := by
  obtain ⟨classes, s', m, hindexed, hlisted, hread⟩ := exists_index hs hres hscan
  have hall : ∀ {x}, x ∈ subtypesIn (edgesOf classes) t.unqualified ↔
      x ≠ t.unqualified ∧ TransGen (DirectlyUnder classes) t.unqualified x := mem_subtypesIn_edgesOf
  refine ⟨classes, s', children (edgesOf classes) t.unqualified, _, hindexed, hlisted,
    ⟨m, fun fuel hfuel => ⟨hread fuel hfuel _, hread fuel hfuel _⟩⟩,
    ⟨ClassType.sortedSet_sortedSet _, fun x => mem_children_edgesOf⟩,
    ⟨searching_start.searches (by simp [Nat.add_comm]), fun x => hall⟩, fun x y hx hxy => ?_,
    fun u r r' i m' hu hlater hres' => ?_⟩
  · by_cases hy : y = t.unqualified
    · exact .inl hy
    · refine .inr (hall.mpr ⟨hy, ?_⟩)
      rcases hx with rfl | hx
      · exact .single hxy
      · exact (hall.mp hx).2.tail hxy
  · -- the hierarchy is indexed by the same classes still
    have hedges := edges_of_next (hlater.tail (.call _ m' hres')) hindexed.edges_eq
    refine ⟨subtypesIn (edgesOf classes) u.unqualified, fun fuel hfuel => ?_, fun x hx hne => ?_⟩
    · exact run_readEdges_of_edges ((Call.resolve u).run_extends hfuel r _ hres') hedges
    · exact hall.mpr ⟨hne, (hall.mp hu).2.trans (mem_subtypesIn_edgesOf.mp hx).2⟩

/-- **Two classes that inherit from each other**, and a class that extends one of them. Each of the
two is a subtype of the other one and not of itself, and the third one is a subtype of both. -/
theorem subtypes_of_index_knotted :
    let v : View World := .ofStores [.knotted] .full
    let a : ClassType := ⟨"a.A", none⟩
    let b : ClassType := ⟨"a.B", none⟩
    let c : ClassType := ⟨"a.C", none⟩
    ∃ classes s' direct all below r' n, IndexedBy v (fun _ => True) 0 classes s' ∧
      DirectlyUnder classes a b ∧ DirectlyUnder classes b a ∧ DirectlyUnder classes a c ∧
      (Call.directSubtypesOf 0 a).run v n (v.fresh {}) = some (.ok direct, s') ∧
      (b ∈ direct ∧ c ∈ direct) ∧
      (Call.subtypesOf 0 a).run v n (v.fresh {}) = some (.ok all, s') ∧
      (b ∈ all ∧ c ∈ all ∧ a ∉ all) ∧
      (Call.subtypesOf 0 b).run v n s' = some (.ok below, r') ∧ ∀ x ∈ below, x ≠ a → x ∈ all := by
  intro v a b c
  have hruns : (((Call.resolve a).run v 9 (v.fresh {})).bind fun x =>
      (Call.resolveAll.run v 9 x.2).bind fun y =>
        ((Call.directSubtypesOf 0 a).run v 9 (v.fresh {})).bind fun z =>
          ((Call.resolve b).run v 9 z.2).map fun u =>
            ([x.1.toOption.map (·.isSome), y.1.toOption.map fun _ => true,
              u.1.toOption.map (·.isSome)],
              [y.2.view.table a, y.2.view.table b, y.2.view.table c].map fun d =>
                d.map fun info => info.supertypes.map (·.unqualified))) =
      some ([some true, some true, some true], [some [b], some [a], some [a]]) := by
    decide +kernel
  obtain ⟨⟨x, s₁⟩, hx, hrest⟩ := Option.bind_eq_some_iff.mp hruns
  obtain ⟨⟨y, s₂⟩, hy, hrest⟩ := Option.bind_eq_some_iff.mp hrest
  obtain ⟨⟨z, s₃⟩, hz, hrest⟩ := Option.bind_eq_some_iff.mp hrest
  obtain ⟨⟨u, r'⟩, hu, hanswers⟩ := Option.map_eq_some_iff.mp hrest
  simp only [Prod.mk.injEq, List.cons.injEq, List.map_cons, List.map_nil, and_true,
    Option.map_eq_some_iff] at hanswers
  obtain ⟨⟨⟨answer, hanswer, hfound⟩, ⟨ids, hids⟩, answer', hanswer', hfound'⟩,
    ⟨ca, hca, hunder⟩, ⟨cb, hcb, hunder'⟩, cc, hcc, hunder''⟩ := hanswers
  obtain ⟨id, rfl⟩ := Option.isSome_iff_exists.mp hfound
  obtain ⟨id', rfl⟩ := Option.isSome_iff_exists.mp hfound'
  obtain rfl := eq_ok_of_toOption hanswer
  obtain rfl := eq_ok_of_toOption hids
  obtain rfl := eq_ok_of_toOption hanswer'
  -- the classes that are listed, with their supertypes
  have hr : Reachable v (fun _ => True) (v.fresh {}) := reachable_fresh trivial
  have hs₁ := (hr.call _ hx).sound steady_any
  have hs₂ := ((hr.call _ hx).call _ hy).sound steady_any
  obtain ⟨rfl, -⟩ := eq_sortedObjects steady_any hs₁.1 hs₁.2 (onView_eq_some hy).1
  have hedge : ∀ {p x : ClassType} {info : ClassInfo}, s₂.view.table x = some info →
      x.unqualified = x → info.supertypes.map (·.unqualified) = [p] →
      DirectlyUnder (s₂.view.classes (sortedObjects s₂.view)) p x := by
    intro p x info htable hx hnames
    have hp : p ∈ info.supertypes.map (·.unqualified) := by simp [hnames]
    refine ⟨info, (mem_classes_iff_table hs₂.1).mpr ⟨x, htable⟩, ?_, by simpa using hp⟩
    rw [hs₂.1.type_of_table htable, hx]
  obtain ⟨classes, s', direct, found, hindexed, hclasses, ⟨m, hqueries⟩, ⟨-, hdirect⟩, ⟨-, hall⟩, -,
    hbelow⟩ := subtypes_of_index hr hx fun _ => ⟨9, _, s₂, hy⟩
  obtain rfl := hclasses (by rw [(onView_eq_some hx).2]; rfl) 9 _ s₂ hy
  obtain ⟨hrun, hrun'⟩ := hqueries (max m 9) (le_max_left m 9)
  obtain rfl : s₃ = s' := (Prod.mk.inj (Call.run_unique hz hrun)).2
  have hb := hedge hcb rfl hunder'
  have hc := hedge hcc rfl hunder''
  have hba : b ∈ ClassType.sortedSet found := (hall b).mpr ⟨by decide, .single hb⟩
  obtain ⟨below, hrun'', hsub⟩ := hbelow b s₃ r' id' 9 hba .refl hu
  exact ⟨_, s₃, direct, _, below, r', max m 9, hindexed, hb, hedge hca rfl hunder, hc, hrun,
    ⟨(hdirect b).mpr hb, (hdirect c).mpr hc⟩, hrun',
    ⟨hba, (hall c).mpr ⟨by decide, .single hc⟩, fun ha => ((hall a).mp ha).1 rfl⟩,
    hrun'' _ (le_max_right m 9), hsub⟩

end Hierarchy

end Classpath

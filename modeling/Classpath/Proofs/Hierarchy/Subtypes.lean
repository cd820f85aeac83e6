import Classpath.Proofs.Hierarchy.Edges
import Classpath.Proofs.View.Completion
import Classpath.Proofs.View.Described

/-!
# Subtypes

Subtypes are found by a search along the reversed edges between names, and these are read off all
classes of a view. The search finds what is reached, and does not run out of steps before
(`Classpath.Hierarchy.Searching.mem_reachable`). The edges are those of the classes that can be
resolved, provided that all of them are listed (`Classpath.Hierarchy.Complete`).

* `Classpath.Hierarchy.edges_of_reachable` – what a hierarchy remembers of edges.
* `Classpath.Hierarchy.readEdges`, `Classpath.Hierarchy.halts_readEdges` – what a query reads off
  the edges.
* `Classpath.Hierarchy.mem_subtypes_of_complete` – the subtypes, by paths between names.
-/

namespace Classpath

namespace Hierarchy

open Relation

/-! ### Searching -/

section Search

variable {edges : List (ClassType × ClassType)} {root t u : ClassType}
  {queue found : List ClassType}

@[simp] theorem mem_children : u ∈ children edges t ↔ (t, u) ∈ edges := by
  simp [children]

theorem nodup_children : (children edges t).Nodup :=
  ClassType.nodup_sortedSet _

variable (edges) in
/-- An edge between names, from a type to a direct subtype. -/
def Edge (t u : ClassType) : Prop :=
  (t, u) ∈ edges

variable (edges root) in
/-- **What holds during the search.** What was found is reached, and the edges out of what was found
were followed, unless it is queued. -/
structure Searching (queue found : List ClassType) : Prop where
  nodup : found.Nodup
  reached : ∀ t ∈ found, t ≠ root ∧ t ∈ edges.map Prod.snd ∧ ReflTransGen (Edge edges) root t
  queued : ∀ t ∈ queue, t = root ∨ t ∈ found
  followed : ∀ t u, t = root ∨ t ∈ found → t ∉ queue → Edge edges t u → u = root ∨ u ∈ found

theorem searching_start : Searching edges root [root] [] where
  nodup := List.nodup_nil
  reached _ h := by cases h
  queued t h := .inl (List.mem_singleton.mp h)
  followed t u h hqueue := by simp_all

/-- **A step of the search** takes a type off the queue and adds the subtypes that are new. -/
theorem Searching.step (h : Searching edges root (t :: queue) found) :
    let fresh := (children edges t).filter fun u => u ≠ root && !found.contains u
    Searching edges root (queue ++ fresh) (found ++ fresh) := by
  intro fresh
  have hfresh : ∀ u, u ∈ fresh ↔ Edge edges t u ∧ u ≠ root ∧ u ∉ found := by
    simp [fresh, Edge, List.mem_filter]
  have hroot : ReflTransGen (Edge edges) root t := by
    rcases h.queued t (List.mem_cons_self ..) with rfl | ht
    · exact .refl
    · exact (h.reached t ht).2.2
  refine ⟨?_, fun u hu => ?_, fun u hu => ?_, fun w u hw hqueue hedge => ?_⟩
  · refine h.nodup.append (nodup_children.filter _) fun u hu hu' => ?_
    exact ((hfresh u).mp hu').2.2 hu
  · rcases List.mem_append.mp hu with hu | hu
    · exact h.reached u hu
    · obtain ⟨hedge, hne, -⟩ := (hfresh u).mp hu
      exact ⟨hne, List.mem_map.mpr ⟨(t, u), hedge, rfl⟩, hroot.tail hedge⟩
  · rcases List.mem_append.mp hu with hu | hu
    · exact (h.queued u (List.mem_cons_of_mem _ hu)).imp id (List.mem_append_left _)
    · exact .inr (List.mem_append_right _ hu)
  · rw [List.mem_append, not_or] at hqueue
    have hold : w = root ∨ w ∈ found := by
      rcases hw with rfl | hw
      · exact .inl rfl
      · exact .inr ((List.mem_append.mp hw).resolve_right hqueue.2)
    by_cases hwt : w = t
    · -- its subtypes are found now, those that were not before
      subst hwt
      by_cases hu : u = root ∨ u ∈ found
      · exact hu.imp id (List.mem_append_left _)
      · rw [not_or] at hu
        exact .inr (List.mem_append_right _ ((hfresh u).mpr ⟨hedge, hu⟩))
    · have hout : w ∉ t :: queue := fun hmem =>
        (List.mem_cons.mp hmem).elim hwt hqueue.1
      exact (h.followed w u hold hout hedge).imp id (List.mem_append_left _)

/-- Once nothing is queued everything was found. -/
theorem Searching.mem_iff (h : Searching edges root [] found) :
    u ∈ found ↔ u ≠ root ∧ ReflTransGen (Edge edges) root u := by
  -- with no queue what was found is closed under edges
  have hfound : ∀ w, ReflTransGen (Edge edges) root w → w = root ∨ w ∈ found := by
    intro w hpath
    induction hpath with
    | refl => exact .inl rfl
    | tail _ hedge ih => exact h.followed _ _ ih List.not_mem_nil hedge
  constructor
  · exact fun hu => ⟨(h.reached u hu).1, (h.reached u hu).2.2⟩
  · exact fun ⟨hne, hpath⟩ => (hfound u hpath).resolve_left hne

theorem Searching.length_le (h : Searching edges root queue found) :
    found.length ≤ edges.length := by
  have hsub : found ⊆ edges.map Prod.snd := fun t ht => (h.reached t ht).2.1
  simpa using (List.subperm_of_subset h.nodup hsub).length_le

/-- **The search finds what is reached.** Each step takes one type off the queue, and a type comes
into it only once. -/
theorem Searching.mem_reachable : ∀ {fuel queue found}, Searching edges root queue found →
    queue.length + edges.length ≤ fuel + found.length →
    (u ∈ reachable edges root fuel queue found ↔ u ≠ root ∧ ReflTransGen (Edge edges) root u)
  | 0, queue, found, h, hfuel => by
    -- there is no fuel left for a queue that is not empty
    have hlength := h.length_le
    obtain rfl : queue = [] := List.eq_nil_of_length_eq_zero (by omega)
    rw [reachable]
    exact h.mem_iff
  | fuel + 1, [], found, h, _ => by
    rw [reachable]
    · exact h.mem_iff
    · simp
  | fuel + 1, t :: queue, found, h, hfuel => by
    rw [reachable]
    refine h.step.mem_reachable ?_
    simp only [List.length_append, List.length_cons] at hfuel ⊢
    omega

variable (edges root) in
/-- **What the search finds**, as a set. -/
def subtypesIn : List ClassType :=
  ClassType.sortedSet (reachable edges root (edges.length + 1) [root] [])

/-- The search finds what is reached. -/
theorem mem_subtypesIn : u ∈ subtypesIn edges root ↔
    u ≠ root ∧ ReflTransGen (Edge edges) root u := by
  rw [subtypesIn, ClassType.mem_sortedSet, searching_start.mem_reachable (by simp [Nat.add_comm])]

end Search

/-! ### The edges of all classes -/

open View

variable {σ : Type} {v : View σ} {W : σ → Prop} {classOf : ClassType → Option ClassInfo}

variable (classOf) in
/-- A class of the name `x` **names** `p` as its superclass or as an interface. -/
def Names (p x : ClassType) : Prop :=
  ∃ c, classOf c.type = some c ∧ c.type.unqualified = x ∧ ∃ r ∈ c.supertypes, r.unqualified = p

variable (classOf) in
/-- **Edges are complete**: they are those of all classes. -/
def Complete (edges : List (ClassType × ClassType)) : Prop :=
  ∀ p x, Edge edges p x ↔ Names classOf p x

variable (classOf) in
/-- What is remembered of edges is complete. -/
def RemembersEdges (m : Hierarchy) : Prop :=
  ∀ edges, m.edges = some edges → Complete classOf edges

/-- The classes that are listed are those of the cached objects. -/
theorem mem_classes_iff_table {s : ViewState σ} (hs : Sound v W s) {c : ClassInfo} :
    c ∈ s.classes (sortedObjects s) ↔ ∃ t, s.table t = some c := by
  have hinfo : ∀ {id : Nat} {d : ClassInfo}, s.info? id = some d →
      (s.built[id]?.getD default).info = d := by
    intro id d hd
    obtain ⟨o, ho, rfl⟩ := Option.map_eq_some_iff.mp hd
    rw [ho, Option.getD_some]
  rw [ViewState.classes, List.mem_map]
  constructor
  · rintro ⟨id, hid, rfl⟩
    obtain ⟨t, ht⟩ := (mem_sortedObjects hs).mp hid
    obtain ⟨d, hd, -⟩ := hs.held t id ht
    exact ⟨t, by rw [ViewState.table, ht, Option.bind_some, hd, hinfo hd]⟩
  · rintro ⟨t, ht⟩
    obtain ⟨id, hid, hc⟩ := Option.bind_eq_some_iff.mp ht
    exact ⟨id, (mem_sortedObjects hs).mpr ⟨t, hid⟩, hinfo hc⟩

/-- **Once everything that can be resolved is cached, all classes are listed.** -/
theorem mem_classes_sortedObjects (hone : Fixed v W classOf)
    (hlisted : ∀ t, (classOf t).isSome → Listed v W t) {s : ViewState σ} (hs : Sound v W s)
    (hheld : HoldsListed v W s) {c : ClassInfo} :
    c ∈ s.classes (sortedObjects s) ↔ classOf c.type = some c := by
  have hbuilt : ∀ {t d}, s.table t = some d → classOf d.type = some d := by
    intro t d hd
    obtain ⟨id, -, hid⟩ := Option.bind_eq_some_iff.mp hd
    exact (hone.describes hs).built id d hid
  rw [mem_classes_iff_table hs]
  constructor
  · exact fun ⟨t, ht⟩ => hbuilt ht
  · intro hc
    obtain ⟨id, hid⟩ := Option.isSome_iff_exists.mp (hheld _ (hlisted c.type (by rw [hc]; rfl)))
    obtain ⟨d, hd, htype⟩ := hs.held _ _ hid
    have htable : s.table c.type = some d := by rw [ViewState.table, hid, Option.bind_some, hd]
    have hd' := hbuilt htable
    rw [htype, hc] at hd'
    exact ⟨c.type, by rw [htable, Option.some.inj hd']⟩

theorem complete_edgesOf {classes : List ClassInfo}
    (h : ∀ c, c ∈ classes ↔ classOf c.type = some c) : Complete classOf (edgesOf classes) := by
  intro p x
  simp only [Edge, edgesOf, List.mem_flatMap, List.mem_map, Prod.mk.injEq, Names, h]
  constructor
  · rintro ⟨c, hc, r, hr, hp, hx⟩
    exact ⟨c, hc, hx, r, hr, hp⟩
  · rintro ⟨c, hc, hx, r, hr, hp⟩
    exact ⟨c, hc, r, hr, hp, hx⟩

section Complete

variable {edges edges' : List (ClassType × ClassType)} {t x : ClassType}

theorem edge_of_complete (h : Complete classOf edges) : Edge edges = Names classOf := by
  funext p x
  exact propext (h p x)

/-- **The subtypes of a type** are the names from which it is reached along the edges of all
classes. -/
theorem mem_subtypes_of_complete (h : Complete classOf edges) :
    x ∈ subtypesIn edges t ↔ x ≠ t ∧ ReflTransGen (Names classOf) t x := by
  rw [mem_subtypesIn, edge_of_complete h]

/-- Complete edges differ in their order only, which does not matter. -/
theorem children_congr (h : Complete classOf edges) (h' : Complete classOf edges') :
    children edges t = children edges' t := by
  refine ClassType.sortedSet_congr fun x => ?_
  have hedge : (t, x) ∈ edges ↔ (t, x) ∈ edges' := (h t x).trans (h' t x).symm
  simpa using hedge

theorem subtypesIn_congr (h : Complete classOf edges) (h' : Complete classOf edges') :
    subtypesIn edges t = subtypesIn edges' t := by
  refine ClassType.sortedSet_congr fun x => ?_
  have hmem : x ∈ subtypesIn edges t ↔ x ∈ subtypesIn edges' t := by
    rw [mem_subtypes_of_complete h, mem_subtypes_of_complete h']
  simpa only [subtypesIn, ClassType.mem_sortedSet] using hmem

end Complete

/-! ### Reading edges -/

section Reading

variable {α : Type} {t : ClassType}

variable (v) in
/-- **A query for a type that must be resolvable**, which reads something off the edges of all
classes. -/
def readEdges (t : ClassType) (f : List (ClassType × ClassType) → α) (fuel : Nat) : Query σ α := do
  let _ ← require v fuel t
  return f (← subtypeEdges v fuel)

theorem run_directSubtypesOf (k fuel : Nat) (t : ClassType) :
    (Call.directSubtypesOf k t).run v fuel =
      onHierarchy k (readEdges v t (children · t.unqualified) fuel) :=
  rfl

theorem run_subtypesOf (k fuel : Nat) (t : ClassType) :
    (Call.subtypesOf k t).run v fuel =
      onHierarchy k (readEdges v t (subtypesIn · t.unqualified) fuel) :=
  rfl

/-- The edges that are read are remembered. -/
theorem ends_subtypeEdges (fuel : Nat) (q : HierarchyState σ) :
    (subtypeEdges v fuel).Ends q (fun edges q' => q'.memo.edges = some edges) fun _ _ => True := by
  rw [subtypeEdges]
  refine Run.outcome_bind.mpr (Run.outcome_read.mpr ?_)
  rcases hedges : q.memo.edges with _ | edges
  · exact Run.outcome_bind.mpr (Run.ends_of_forall (fun _ _ _ => rfl) fun _ _ _ => trivial)
  · exact hedges

theorem ends_readEdges (f : List (ClassType × ClassType) → α) (fuel : Nat) (q : HierarchyState σ) :
    (readEdges v t f fuel).Ends q
      (fun a q' => ∃ edges, q'.memo.edges = some edges ∧ a = f edges) fun _ _ => True := by
  rw [readEdges]
  refine Run.outcome_bind.mpr (Run.ends_of_forall (fun _ q' _ => ?_) fun _ _ _ => trivial)
  exact Run.outcome_bind.mpr ((ends_subtypeEdges fuel q').imp
    (fun edges _ hedges => ⟨edges, hedges, rfl⟩) fun _ _ he => he)

/-- The edges that are read for the first time are those of the cached classes. -/
theorem ends_readEdges_scan (hW : Steady v W) (f : List (ClassType × ClassType) → α) (fuel : Nat)
    {q : HierarchyState σ} (hs : Sound v W q.view) (hw : W q.view.world)
    (hnone : q.memo.edges = none) :
    (readEdges v t f fuel).Ends q (fun a q' => Sound v W q'.view ∧
      a = f (edgesOf (q'.view.classes (sortedObjects q'.view)))) fun _ _ => True := by
  have hrule : ResolveRule v (fun s => Sound v W s ∧ W s.world) fun _ s =>
      Sound v W s ∧ W s.world :=
    (viewRule_sound (M := fun _ => True) hW fun _ _ _ => trivial).toResolveRule
  have hrequire := keeps_require (M := fun m => m.edges = none) hrule fuel t q ⟨hs, hw⟩ hnone
  rw [readEdges]
  refine Run.outcome_bind.mpr (hrequire.imp (fun _ q' h => ?_) fun _ _ _ => trivial)
  -- requiring the type has read no edges, so they are read now
  obtain ⟨⟨hs', hw'⟩, hnone'⟩ := h
  refine Run.outcome_bind.mpr ?_
  rw [subtypeEdges]
  refine Run.outcome_bind.mpr (Run.outcome_read.mpr ?_)
  rw [hnone']
  refine Run.outcome_bind.mpr (Run.outcome_zoom.mpr ?_)
  refine Run.Outcome.imp (runs_resolveAll_sound hW hs' hw') (fun ids s' h => ?_)
    fun _ _ _ => trivial
  obtain ⟨htrace, rfl, -⟩ := h
  exact ⟨Trace.sound htrace (hs'.marked true), rfl⟩

/-- **The direct subtypes**, where edges are read for the first time: the cached classes that name
the type. -/
theorem mem_directSubtypes_of_run (hW : Steady v W) {r r' : Session σ} (hr : Reachable v W r)
    {k fuel : Nat} (hnone : (r.hierarchies k).edges = none) {types : List ClassType}
    (hrun : (Call.directSubtypesOf k t).run v fuel r = some (.ok types, r')) {u : ClassType} :
    u ∈ types ↔ ∃ w c, r'.view.table w = some c ∧ c.type.unqualified = u ∧
      ∃ p ∈ c.supertypes, p.unqualified = t.unqualified := by
  have hends : (onHierarchy k (readEdges v t (children · t.unqualified) fuel)).Ends r
      (fun a r' => Sound v W r'.view ∧
        a = children (edgesOf (r'.view.classes (sortedObjects r'.view))) t.unqualified)
      fun _ _ => True :=
    Run.outcome_zoom.mpr ((ends_readEdges_scan hW _ fuel (hr.sound hW).1 (hr.sound hW).2
      hnone).imp (fun _ _ h => h) fun _ _ he => he)
  obtain ⟨hs, rfl⟩ := hends.ok hrun
  simp only [mem_children, edgesOf, List.mem_flatMap, List.mem_map, Prod.mk.injEq,
    mem_classes_iff_table hs]
  constructor
  · rintro ⟨c, ⟨w, hw⟩, p, hp, ht, hu⟩
    exact ⟨w, c, hw, hu, p, hp, ht⟩
  · rintro ⟨w, c, hw, hu, p, hp, ht⟩
    exact ⟨c, ⟨w, hw⟩, p, hp, ht, hu⟩

end Reading

/-! ### What is remembered of edges -/

section Remembered

variable (hone : Fixed v W classOf) (hW : Steady v W) (hfull : v.options.policy = .full)
  (hlisted : ∀ t, (classOf t).isSome → Listed v W t)

include hone hW hfull hlisted

/-- **What is remembered of edges stays complete**, whatever is called. -/
theorem callRule_edges :
    CallRule v (Stocked v W) (RemembersEdges classOf) fun _ => Stocked v W where
  resolve fuel t s h :=
    Run.Outcome.imp (runs_resolve hW h.sound h.world)
      (fun _ _ h' => h.of_trace hfull hW h'.1) fun _ _ he => h.of_trace hfull hW he.1
  resolveAll fuel s h := by
    refine (runs_resolveAll_held hfull hW h fun t s hs hw =>
      runs_resolve hW hs hw).imp (fun ids s' h' => ⟨h'.1, ?_⟩) fun _ _ he => he.1
    obtain ⟨hs', hheld, rfl⟩ := h'
    rintro m - edges ⟨⟩
    exact complete_edgesOf fun c => mem_classes_sortedObjects hone hlisted hs'.sound hheld
  valuesWithDefaults fuel id i s h :=
    Run.Outcome.imp (runs_valuesWithDefaults_sound hW h.sound h.world fuel id i)
      (fun _ _ h' => h.of_trace hfull hW h'.1) fun _ _ he => h.of_trace hfull hW he.1
  unknownType _ _ h := h
  cycle _ _ h := h
  ancestors _ _ h := h

theorem edges_of_reachable {s : Session σ} (h : Reachable v W s) :
    Stocked v W s.view ∧ ∀ k, RemembersEdges classOf (s.hierarchies k) := by
  obtain ⟨w, hw, hnext⟩ := h
  refine next_keeps (callRule_edges hone hW hfull hlisted) (fun _ _ h => h)
    (fun s w h hw => ⟨h.sound.inWorld w, hw, h.holds⟩) hnext (stocked_start hw) fun _ => ?_
  rintro edges ⟨⟩

end Remembered

section Full

variable (hv : Settled v W classOf) (hfull : v.options.policy = .full)
  (hlisted : ∀ t, (classOf t).isSome → Listed v W t)

include hv hfull hlisted

variable {hfinite : {t | (classOf t).isSome}.Finite} {n : Nat} {q : HierarchyState σ}
  {t : ClassType}

omit hlisted in
/-- A type that can be resolved is there. -/
theorem halts_require (hn : hfinite.toFinset.card < n) (hq : Stocked v W q.view)
    (hclass : (classOf t).isSome) :
    (require v n t).Halts q (fun _ q' => Stocked v W q'.view ∧ q'.memo = q.memo)
      fun _ _ => False := by
  rw [require]
  refine Run.outcome_bind.mpr (Run.outcome_zoom.mpr ?_)
  refine (hv.halts_resolve hfull hq.sound hq.world hn).imp (fun answer s' h => ?_)
    fun _ _ he => he
  obtain ⟨htrace, hanswer⟩ := h
  obtain ⟨c, hc⟩ := Option.isSome_iff_exists.mp hclass
  rw [hc] at hanswer
  cases hanswer with
  | some _ => exact ⟨hq.of_trace hfull hv.steady htrace, rfl⟩

/-- The edges of all classes are there, or they are now read off the classes. -/
theorem halts_subtypeEdges (hn : hfinite.toFinset.card < n) (hq : Stocked v W q.view)
    (hm : RemembersEdges classOf q.memo) :
    (subtypeEdges v n).Halts q (fun edges _ => Complete classOf edges) fun _ _ => False := by
  rw [subtypeEdges]
  refine Run.outcome_bind.mpr (Run.outcome_read.mpr ?_)
  rcases hedges : q.memo.edges with _ | edges
  · refine Run.outcome_bind.mpr (Run.outcome_zoom.mpr ?_)
    refine (hv.halts_resolveAll hfull hq hn).imp (fun ids s' h => ?_) fun _ _ he => he
    obtain ⟨hs', hheld, rfl⟩ := h
    exact complete_edgesOf fun c => mem_classes_sortedObjects hv.fixed hlisted hs'.sound hheld
  · exact hm edges hedges

/-- **What is read off the edges** for a type that can be resolved. -/
theorem halts_readEdges {α : Type} (hn : hfinite.toFinset.card < n) (hq : Stocked v W q.view)
    (hm : RemembersEdges classOf q.memo) (hclass : (classOf t).isSome)
    (f : List (ClassType × ClassType) → α) :
    (readEdges v t f n).Halts q (fun a _ => ∃ edges, Complete classOf edges ∧ a = f edges)
      fun _ _ => False := by
  rw [readEdges]
  refine Run.outcome_bind.mpr ((halts_require hv hfull hn hq hclass).imp (fun _ q' h => ?_)
    fun _ _ he => he)
  obtain ⟨hq', hmemo⟩ := h
  exact Run.outcome_bind.mpr ((halts_subtypeEdges hv hfull hlisted hn hq' (hmemo ▸ hm)).imp
    (fun edges _ hcomplete => ⟨edges, hcomplete, rfl⟩) fun _ _ he => he)

end Full

end Hierarchy

end Classpath

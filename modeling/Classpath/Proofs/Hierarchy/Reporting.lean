import Classpath.Proofs.Hierarchy.Remembering

/-!
# Cycles are reported

A question about what a class inherits ends, and it reports a cycle exactly if one is reached; the
class that is reported is on it (`Classpath.Hierarchy.cycle_reported_iff`). An interface that is
reached on several paths, or named twice, is no cycle.

A query that reports a cycle has loaded classes and remembers ancestors, and the next ones go on
with that. It changes no later answer if a type has one class however it is found
(`Classpath.View.Fixed`): then a call has one answer only, in all states and of all hierarchies.
Subtypes are read off the classes that are cached after all were listed, so for them everything that
is found must be listed as well.

* `Classpath.Hierarchy.MayEnd` – what a call may end with.
* `Classpath.Hierarchy.Upward.eq_of_mayEnd`, `Classpath.Hierarchy.Downward.eq_of_mayEnd` – calls
  have one answer.
* `Classpath.Hierarchy.cycle_overlooked` – where these conditions fail.
-/

namespace Classpath

namespace Hierarchy

open View Relation

variable {σ : Type} {v : View σ} {W : σ → Prop} {classOf : ClassType → Option ClassInfo}
  {α : Type} {c : ClassInfo} {t : ClassType} {x y : Except HierarchyError α}
  {call : Nat → Call α}

/-! ### What calls may end with -/

variable (v W) in
/-- **A call may end** with `x`: it does in some state of a view in use, asked of some hierarchy. -/
def MayEnd (call : Nat → Call α) (x : Except HierarchyError α) : Prop :=
  ∃ r, Reachable v W r ∧ ∃ k fuel r', (call k).run v fuel r = some (x, r')

/-- **The calls that look at supertypes.** -/
inductive Upward : {α : Type} → (Nat → Call α) → Prop
  | superclass (t : ClassType) : Upward (.superclassOf · t)
  | interfaces (t : ClassType) : Upward (.interfacesOf · t)
  | question {α : Type} (q : Question α) (t : ClassType) : Upward (q.call · t)

/-- **The calls that look at subtypes.** -/
inductive Downward : {α : Type} → (Nat → Call α) → Prop
  | direct (t : ClassType) : Downward (.directSubtypesOf · t)
  | all (t : ClassType) : Downward (.subtypesOf · t)

/-- What a call may end with is what its query amounts to. -/
theorem MayEnd.collected (hv : Reliable v W) (hone : Fixed v W classOf) (h : MayEnd v W call x)
    {q : Nat → Query σ α} (hcall : ∀ k fuel, (call k).run v fuel = onHierarchy k (q fuel))
    {P : Table → Except HierarchyError α → Prop} (hq : ∀ fuel, Collects v W True (q fuel) P) :
    P classOf x := by
  obtain ⟨r, hr, k, fuel, r', hrun⟩ := h
  have hdescribes := hone.describes ((hr.call _ hrun).sound hv.steady).1
  rw [hcall] at hrun
  exact (hq fuel).of_run hv hr hrun hdescribes

/-- **What is read off a class** that must be resolvable. -/
theorem collects_read (hv : Reliable v W) (fuel : Nat) (t : ClassType) (f : ClassInfo → α) :
    Collects v W True (require v fuel t >>= fun c => pure (f c)) fun classOf x =>
      x = (classOf t).elim (.error (.unknownType t)) fun c => .ok (f c) := by
  refine (collects_require hv fuel t).bind (fun classOf e he => ?_) fun c =>
    collects_pure fun classOf hc => ?_
  · cases hclass : classOf t <;> simp_all
  · cases hclass : classOf t <;> simp_all

/-- **A call that looks at supertypes has one answer.** -/
theorem Upward.eq_of_mayEnd (hcall : Upward call) (hv : Reliable v W) (hone : Fixed v W classOf)
    (hx : MayEnd v W call x) (hy : MayEnd v W call y) : x = y := by
  cases hcall with
  | superclass t =>
    have hread := fun fuel => collects_read hv fuel t fun c => c.superclass.map (·.unqualified)
    rw [hx.collected hv hone (fun _ _ => rfl) hread, hy.collected hv hone (fun _ _ => rfl) hread]
  | interfaces t =>
    have hread := fun fuel => collects_read hv fuel t fun c =>
      ClassType.sortedSet (c.interfaces.map (·.unqualified))
    rw [hx.collected hv hone (fun _ _ => rfl) hread, hy.collected hv hone (fun _ _ => rfl) hread]
  | question q t =>
    -- the table tells one thing of a type, and the answer is read off that
    have htells : ∀ fuel, Collects v W True (requireAncestors v fuel t >>= fun a =>
        pure (q.read t a)) fun classOf x => ∃ y, Tells classOf t y ∧ x = y.map (q.read t) :=
      fun _ => q.collects hv ∅ (absurd trivial) t
    obtain ⟨x, htold, rfl⟩ := hx.collected hv hone (fun k fuel => q.run_eq k fuel t) htells
    obtain ⟨y, htold', rfl⟩ := hy.collected hv hone (fun k fuel => q.run_eq k fuel t) htells
    rw [htold.unique hone.type_eq htold']

/-! ### Subtypes -/

variable (classOf t) in
/-- **What is read off the edges of all classes**: the value for complete edges, or that there is no
class of the type, or that classes could not be listed. -/
inductive ReadsOff (f : List (ClassType × ClassType) → α) : Except HierarchyError α → Prop
  | read {edges} : (classOf t).isSome → Complete classOf edges → ReadsOff f (.ok (f edges))
  | unknown : classOf t = none → ReadsOff f (.error (.unknownType t))
  | unlisted {cause} : ReadsOff f (.error (.resolve cause))

/-- What is read off is the same wherever it does not depend on the order of the edges. -/
theorem ReadsOff.eq {f : List (ClassType × ClassType) → α} (h : ReadsOff classOf t f x)
    (hf : ∀ edges edges', Complete classOf edges → Complete classOf edges' → f edges = f edges')
    (h' : ReadsOff classOf t f y) : x = y ∨ Unlisted x ∨ Unlisted y := by
  cases h with
  | unlisted => exact .inr (.inl ⟨_, rfl⟩)
  | unknown hnone =>
    cases h' with
    | unlisted => exact .inr (.inr ⟨_, rfl⟩)
    | unknown _ => exact .inl rfl
    | read hsome _ => simp_all
  | read hsome hcomplete =>
    cases h' with
    | unlisted => exact .inr (.inr ⟨_, rfl⟩)
    | unknown hnone => simp_all
    | read _ hcomplete' => exact .inl (congrArg Except.ok (hf _ _ hcomplete hcomplete'))

section Listed

variable (hv : Reliable v W) (hone : Fixed v W classOf) (hfull : v.options.policy = .full)
  (hlisted : ∀ t, (classOf t).isSome → Listed v W t)

include hv hone hfull hlisted

theorem MayEnd.readsOff (h : MayEnd v W call x) {f : List (ClassType × ClassType) → α}
    (hcall : ∀ k fuel, (call k).run v fuel = onHierarchy k (readEdges v t f fuel)) :
    ReadsOff classOf t f x := by
  have hanswer := h.collected hv hone hcall fun fuel => collects_readEdges hv f fuel
  obtain ⟨r, hr, k, fuel, r', hrun⟩ := h
  obtain ⟨-, hcomplete⟩ :=
    edges_of_reachable hone hv.steady hfull hlisted (hr.call _ hrun)
  rw [hcall] at hrun
  rcases hanswer with ⟨a, rfl, hclass⟩ | ⟨rfl, hclass⟩ | ⟨cause, rfl⟩
  -- the edges that were read are remembered now, and what is remembered is complete
  · have hends : (onHierarchy k (readEdges v t f fuel)).Ends r
        (fun a r' => ∃ edges, (r'.hierarchies k).edges = some edges ∧ a = f edges)
        fun _ _ => True :=
      Run.outcome_zoom.mpr ((ends_readEdges f fuel _).imp (fun a q' h => by simpa using h)
        fun _ _ he => he)
    obtain ⟨edges, hedges, rfl⟩ := hends.ok hrun
    exact .read hclass (hcomplete k edges hedges)
  · exact .unknown hclass
  · exact .unlisted

/-- **A call that looks at subtypes has one answer**, unless listing fails. -/
theorem Downward.eq_of_mayEnd (hcall : Downward call) (hx : MayEnd v W call x)
    (hy : MayEnd v W call y) : x = y ∨ Unlisted x ∨ Unlisted y := by
  cases hcall with
  | direct t =>
    have hreads := fun k fuel => run_directSubtypesOf (v := v) k fuel t
    exact (hx.readsOff hv hone hfull hlisted hreads).eq (fun _ _ => children_congr)
      (hy.readsOff hv hone hfull hlisted hreads)
  | all t =>
    have hreads := fun k fuel => run_subtypesOf (v := v) k fuel t
    exact (hx.readsOff hv hone hfull hlisted hreads).eq (fun _ _ => subtypesIn_congr)
      (hy.readsOff hv hone hfull hlisted hreads)

end Listed

/-! ### Cycles -/

/-- **What is told of a class is a cycle exactly if one is reached**, and the class that is reported
is on it. -/
theorem Tells.cycle_iff (hnamed : ∀ t c, classOf t = some c → c.type = t)
    {x : Except HierarchyError Ancestors} (h : Tells classOf t x) (hclass : classOf t = some c) :
    ((∃ u, x = .error (.cycle u)) ↔
      ∃ d, ReflTransGen (Inherits classOf) c d ∧ TransGen (Inherits classOf) d d) ∧
    ∀ e, x = .error e → ∃ d, e = .cycle d.type.unqualified ∧
      ReflTransGen (Inherits classOf) c d ∧ TransGen (Inherits classOf) d d := by
  cases h with
  | unknown hnone => simp_all
  | ancestors hc huntangled _ =>
    obtain rfl := Option.some.inj (hclass.symm.trans hc)
    refine ⟨⟨fun ⟨u, hu⟩ => (nomatch hu), fun ⟨d, hpath, hcycle⟩ => ?_⟩, fun e he => (nomatch he)⟩
    exact absurd hcycle (huntangled d hpath)
  | @cycle c' d hc hmeets =>
    obtain rfl := Option.some.inj (hclass.symm.trans hc)
    have hmet := hmeets.on_cycle hnamed (by rw [hnamed t c hclass, hclass])
    exact ⟨⟨fun _ => ⟨d, hmet⟩, fun _ => ⟨_, rfl⟩⟩,
      fun e he => ⟨d, (Except.error.inj he).symm, hmet⟩⟩

/-- **Cycles are reported**, in every state of a view that keeps everything and whatever was asked
before, if nothing can go wrong but listing and finitely many types are provided.

* A question about what a class inherits ends. In each table of the state that is left, it ends with
  a cycle exactly if the class reaches one, and the class that is reported is on a cycle that is
  reached. If no location lists what no location has, the cached objects are such a table.
* If types have one class each, no query changes a later answer, whatever it ended with: a call that
  looks at supertypes has one answer. So has a call that looks at subtypes unless listing fails, if
  moreover everything is listed. -/
theorem cycle_reported_iff (hself : v.project.SelfTyped) (hv : Reliable v W)
    (hfull : v.options.policy = .full) (hfinite : {t | Provided v W t}.Finite) {r : Session σ}
    (hr : Reachable v W r) (q : Question α) (k : Nat) (t : ClassType) :
    (∃ x r', (∀ fuel, 2 * {t | Provided v W t}.ncard < fuel →
        (q.call k t).run v fuel r = some (x, r')) ∧
      (NothingHidden v W → Describes v W r'.view r'.view.table) ∧
      ∀ classOf, Describes v W r'.view classOf →
        (classOf t = none → x = .error (.unknownType t)) ∧ ∀ c, classOf t = some c →
          ((∃ u, x = .error (.cycle u)) ↔
            ∃ d, ReflTransGen (Inherits classOf) c d ∧ TransGen (Inherits classOf) d d) ∧
          ∀ e, x = .error e → ∃ d, e = .cycle d.type.unqualified ∧
            ReflTransGen (Inherits classOf) c d ∧ TransGen (Inherits classOf) d d) ∧
    ∀ classOf, Fixed v W classOf →
      (∀ (β : Type) (call : Nat → Call β), Upward call → ∀ x y,
        MayEnd v W call x → MayEnd v W call y → x = y) ∧
      ((∀ t, (classOf t).isSome → Listed v W t) →
        ∀ (β : Type) (call : Nat → Call β), Downward call → ∀ x y,
          MayEnd v W call x → MayEnd v W call y → x = y ∨ Unlisted x ∨ Unlisted y) := by
  refine ⟨?_, fun classOf hone => ⟨fun β call hcall x y => hcall.eq_of_mayEnd hv hone,
    fun hlisted β call hcall x y => hcall.eq_of_mayEnd hv hone hfull hlisted⟩⟩
  obtain ⟨x, r', hends⟩ := q.endsBeyond hv hfull hfinite hr k t
  have hrun := hends _ (Nat.lt_succ_self _)
  refine ⟨x, r', hends, fun hhidden => ?_, fun classOf hd => ?_⟩
  · exact describes_table hself hv.steady hhidden hfull (hr.call _ hrun)
  obtain ⟨y, hy, rfl⟩ := Question.tells_of_run hv hr hrun hd
  -- reading an answer off ancestors makes no error and hides none
  have herror : ∀ e, y.map (q.read t) = .error e ↔ y = .error e := by cases y <;> simp [Except.map]
  simp only [herror]
  refine ⟨fun hnone => ?_, fun c hclass => hy.cycle_iff hd.type_eq hclass⟩
  cases hy <;> simp_all

/-- Runs of a call with enough fuel for each of them end alike. -/
theorem eq_of_endsBeyond {call : Call α} {r : Session σ} {n fuel : Nat}
    {y z : Except HierarchyError α × Session σ} (hrun : call.run v fuel r = some y)
    (hends : ∀ fuel, n < fuel → call.run v fuel r = some z) : y = z :=
  Call.run_unique hrun (hends (n + 1) (Nat.lt_succ_self n))

/-- The class that is reported, if a cycle is. -/
def reported : Except HierarchyError α → Option ClassType
  | .error (.cycle t) => some t
  | _ => none

theorem eq_error_of_reported (h : reported x = some t) : x = .error (.cycle t) := by
  unfold reported at h
  split at h
  · rw [Option.some.inj h]
  · cases h

/-- **Two classes that inherit from each other.** Asking for a class that leads to them reports one
of the two. Asking then for a class that reaches an interface on two paths reports nothing, and
answers what is always answered. -/
theorem cycle_reported_iff_knotted :
    let v : View World := .ofStores [.knotted] .full
    let W : World → Prop := fun _ => True
    let classOf := tableOf .knotted MemoryStore.faultless_knotted
    let t : ClassType := ⟨"a.C", none⟩
    let u : ClassType := ⟨"a.D", none⟩
    let chain : List ClassType := [⟨"lib.Missing", none⟩]
    (∃ r r', (Call.superclassesOf 0 t).run v 9 (v.fresh {}) =
        some (.error (.cycle ⟨"a.A", none⟩), r) ∧
      (Call.superclassesOf 0 u).run v 9 r = some (.ok chain, r')) ∧
    (∃ c d, classOf t = some c ∧ d.type.unqualified = ⟨"a.A", none⟩ ∧
      ReflTransGen (Inherits classOf) c d ∧ TransGen (Inherits classOf) d d) ∧
    (∃ c, classOf u = some c ∧ Untangled classOf c) ∧
    ∀ x, MayEnd v W (Call.superclassesOf · u) x → x = .ok chain := by
  intro v W classOf t u chain
  have hv : Settled v W classOf :=
    (loads_ofStore MemoryStore.faultless_knotted ⟨rfl, by decide⟩).settled
  have hself : v.project.SelfTyped := selfTyped_ofStores (by decide)
  have hfinite : {t | Provided v W t}.Finite := (drawsOn_ofStores _ _).finite_provided _
  have hruns : (((Call.superclassesOf 0 t).run v 9 (v.fresh {})).bind fun x =>
      ((Call.superclassesOf 0 u).run v 9 x.2).map fun y => (reported x.1, y.1.toOption)) =
      some (some ⟨"a.A", none⟩, some chain) := by
    decide +kernel
  obtain ⟨⟨x, r⟩, hrun, hrest⟩ := Option.bind_eq_some_iff.mp hruns
  obtain ⟨⟨y, r'⟩, hrun', hanswers⟩ := Option.map_eq_some_iff.mp hrest
  obtain ⟨hx, hy⟩ := Prod.mk.inj hanswers
  obtain rfl := eq_error_of_reported hx
  obtain rfl := eq_ok_of_toOption hy
  have hr : Reachable v W r := (reachable_fresh trivial).call _ hrun
  have hr' := hr.call _ hrun'
  -- the two runs are those of the general statement, which has enough fuel as well
  obtain ⟨⟨a, r₁, hends, -, htold⟩, -⟩ :=
    cycle_reported_iff hself hv.reliable rfl hfinite (reachable_fresh trivial) .superclasses 0 t
  obtain ⟨⟨b, r₂, hends', -, htold'⟩, hone⟩ :=
    cycle_reported_iff hself hv.reliable rfl hfinite hr .superclasses 0 u
  obtain ⟨rfl, rfl⟩ := Prod.mk.inj (eq_of_endsBeyond hrun hends)
  obtain ⟨rfl, rfl⟩ := Prod.mk.inj (eq_of_endsBeyond hrun' hends')
  obtain ⟨hknown, hcycle⟩ := htold classOf (hv.describes (hr.sound hv.steady).1)
  obtain ⟨hknown', hcycle'⟩ := htold' classOf (hv.describes (hr'.sound hv.steady).1)
  refine ⟨⟨r, r', hrun, hrun'⟩, ?_, ?_, fun x hx => ?_⟩
  · rcases hclass : classOf t with _ | c
    · cases hknown hclass
    obtain ⟨d, htype, hpath⟩ := (hcycle c hclass).2 _ rfl
    exact ⟨c, d, rfl, (HierarchyError.cycle.inj htype).symm, hpath⟩
  · rcases hclass : classOf u with _ | c
    · cases hknown' hclass
    refine ⟨c, rfl, fun d hpath hround => ?_⟩
    obtain ⟨w, hw⟩ := (hcycle' c hclass).1.mpr ⟨d, hpath, hround⟩
    cases hw
  · exact (hone classOf hv.fixed).1 _ _ (.question .superclasses u) x _ hx ⟨r, hr, 0, 9, r', hrun'⟩

/-! ### Where cycles are overlooked and answers change -/

/-- A view that keeps everything, of finitely many classes, in which nothing goes wrong. -/
structure Smooth (v : View World) : Prop where
  full : v.options.policy = .full
  selfTyped : v.project.SelfTyped
  not_fault : ∀ e, ¬ Fault v (fun _ => True) e
  finite : {t | Provided v (fun _ => True) t}.Finite

/-- Views of stores that are told nothing but to hide types are such. -/
theorem smooth_of_draws {v : View World} {stores : List MemoryStore} (hdraws : v.DrawsOn stores)
    (hfull : v.options.policy = .full) (hdangling : ∀ m ∈ stores, m.Dangling)
    (hloadable : ∀ m ∈ stores, m.Loadable)
    (htold : ∀ m ∈ stores, m.failing = [] ∧ m.listingLimit = none ∧ m.unlistable = false) :
    Smooth v where
  full := hfull
  selfTyped := hdraws.selfTyped hdangling
  not_fault _ := hdraws.not_fault hdangling hloadable htold
  finite := hdraws.finite_provided _

/-- **A cycle is overlooked**: once all classes are listed the class reaches itself, and the answer
is still a list of superclasses. -/
def Overlooks (v : View World) (t : ClassType) : Prop :=
  ∃ fuel x r₁ ids r₂ types r₃ c,
    (Call.superclassesOf 0 t).run v fuel (v.fresh {}) = some (x, r₁) ∧
    Call.resolveAll.run v fuel r₁ = some (.ok ids, r₂) ∧
    (Call.superclassesOf 0 t).run v fuel r₂ = some (.ok types, r₃) ∧
    r₂.view.table t = some c ∧ TransGen (Inherits r₂.view.table) c c

/-- **A query changes a later answer**: the query for `t` reports a cycle, and the call is answered
otherwise after it than without it. -/
def Disturbs (v : View World) (t : ClassType) (call : Call α) : Prop :=
  ∃ fuel u r₁, (Call.superclassesOf 0 t).run v fuel (v.fresh {}) = some (.error (.cycle u), r₁) ∧
    ∃ r₂ r₃ r₂' r₃' ids ids' x x',
      Call.resolveAll.run v fuel r₁ = some (.ok ids, r₂) ∧ call.run v fuel r₂ = some (.ok x, r₃) ∧
      Call.resolveAll.run v fuel (v.fresh {}) = some (.ok ids', r₂') ∧
      call.run v fuel r₂' = some (.ok x', r₃') ∧ x ≠ x'

/-- The superclass that closes the ring is listed and not found. -/
theorem overlooks_hiddenRing : Overlooks (.ofStores [.hiddenRing] .full) ⟨"a.C", none⟩ := by
  let v : View World := .ofStores [.hiddenRing] .full
  let t : ClassType := ⟨"a.C", none⟩
  let x : ClassType := ⟨"a.X", none⟩
  have hruns : (((Call.superclassesOf 0 t).run v 9 (v.fresh {})).bind fun a =>
      (Call.resolveAll.run v 9 a.2).bind fun b =>
        ((Call.superclassesOf 0 t).run v 9 b.2).map fun c =>
          (b.1.toOption.isSome, c.1.toOption,
            [(b.2.view.table t).map fun info => decide (OnlyExtends t x info),
              (b.2.view.table x).map fun info => decide (OnlyExtends x t info)])) =
      some (true, some [x], [some true, some true]) := by
    decide +kernel
  obtain ⟨⟨a, r₁⟩, hrun₁, hrest⟩ := Option.bind_eq_some_iff.mp hruns
  obtain ⟨⟨b, r₂⟩, hrun₂, hrest⟩ := Option.bind_eq_some_iff.mp hrest
  obtain ⟨⟨c, r₃⟩, hrun₃, hrest⟩ := Option.map_eq_some_iff.mp hrest
  simp only [Prod.mk.injEq, List.cons.injEq, and_true, Option.map_eq_some_iff,
    decide_eq_true_eq] at hrest
  obtain ⟨hids, hc, ⟨own, hown, hextends⟩, super, hsuper, hextends'⟩ := hrest
  obtain ⟨ids, hb⟩ := Option.isSome_iff_exists.mp hids
  obtain rfl := eq_ok_of_toOption hb
  obtain rfl := eq_ok_of_toOption hc
  refine ⟨9, a, r₁, ids, r₂, [x], r₃, own, hrun₁, hrun₂, hrun₃, hown, ?_⟩
  exact .tail (.single ((hextends.inherits_iff rfl).mpr hsuper))
    ((hextends'.inherits_iff rfl).mpr hown)

/-- The class that was asked for has loaded its superclass from the second store, and a scan alone
would load the one of the first store. -/
theorem disturbs_contested : Disturbs (.ofStores MemoryStore.contested .full) ⟨"a.L", none⟩
    (.superclassesOf 0 ⟨"a.X", none⟩) := by
  let v : View World := .ofStores MemoryStore.contested .full
  let t : ClassType := ⟨"a.L", none⟩
  let x : ClassType := ⟨"a.X", none⟩
  have hruns : (((Call.superclassesOf 0 t).run v 9 (v.fresh {})).bind fun a =>
      (Call.resolveAll.run v 9 a.2).bind fun b =>
        ((Call.superclassesOf 0 x).run v 9 b.2).map fun c =>
          (reported a.1, b.1.toOption.isSome, c.1.toOption)) =
      some (some t, true, some [⟨"p.Two", none⟩]) := by
    decide +kernel
  have hruns' : ((Call.resolveAll.run v 9 (v.fresh {})).bind fun b =>
      ((Call.superclassesOf 0 x).run v 9 b.2).map fun c =>
        (b.1.toOption.isSome, c.1.toOption)) = some (true, some [⟨"p.One", none⟩]) := by
    decide +kernel
  obtain ⟨⟨a, r₁⟩, hrun₁, hrest⟩ := Option.bind_eq_some_iff.mp hruns
  obtain ⟨⟨b, r₂⟩, hrun₂, hrest⟩ := Option.bind_eq_some_iff.mp hrest
  obtain ⟨⟨c, r₃⟩, hrun₃, hrest⟩ := Option.map_eq_some_iff.mp hrest
  obtain ⟨⟨b', r₂'⟩, hrun₂', hrest'⟩ := Option.bind_eq_some_iff.mp hruns'
  obtain ⟨⟨c', r₃'⟩, hrun₃', hrest'⟩ := Option.map_eq_some_iff.mp hrest'
  simp only [Prod.mk.injEq] at hrest hrest'
  obtain ⟨ha, hids, hc⟩ := hrest
  obtain ⟨hids', hc'⟩ := hrest'
  obtain ⟨ids, hb⟩ := Option.isSome_iff_exists.mp hids
  obtain ⟨ids', hb'⟩ := Option.isSome_iff_exists.mp hids'
  obtain rfl := eq_error_of_reported ha
  obtain rfl := eq_ok_of_toOption hb
  obtain rfl := eq_ok_of_toOption hb'
  obtain rfl := eq_ok_of_toOption hc
  obtain rfl := eq_ok_of_toOption hc'
  exact ⟨9, t, r₁, hrun₁, r₂, r₃, r₂', r₃', ids, ids', _, _, hrun₂, hrun₃, hrun₂', hrun₃',
    by decide⟩

/-- The class that was asked for has loaded its superclass, which no scan would load. -/
theorem disturbs_looped : Disturbs (.ofLocation (.ofMemoryListing .looped 2) .full)
    ⟨"a.L", none⟩ (.directSubtypesOf 0 ⟨"a.C", none⟩) := by
  let v : View World := .ofLocation (.ofMemoryListing .looped 2) .full
  let t : ClassType := ⟨"a.L", none⟩
  let x : ClassType := ⟨"a.X", none⟩
  let c : ClassType := ⟨"a.C", none⟩
  have hruns : (((Call.superclassesOf 0 t).run v 9 (v.fresh {})).bind fun a =>
      (Call.resolveAll.run v 9 a.2).bind fun b =>
        ((Call.directSubtypesOf 0 c).run v 9 b.2).map fun d =>
          (reported a.1, b.1.toOption.isSome, (b.2.hierarchies 0).edges.isNone,
            d.1.toOption.isSome,
            (d.2.view.table x).map fun info => decide (OnlyExtends x c info))) =
      some (some t, true, true, true, some true) := by
    decide +kernel
  have hruns' : ((Call.resolveAll.run v 9 (v.fresh {})).bind fun b =>
      ((Call.directSubtypesOf 0 c).run v 9 b.2).map fun d =>
        (b.1.toOption.isSome, (b.2.hierarchies 0).edges.isNone, d.1.toOption.isSome,
          d.2.view.cache.entries.all fun e => e.1 = c ∨ e.1 = t)) = some (true, true, true, true) := by
    decide +kernel
  obtain ⟨⟨a, r₁⟩, hrun₁, hrest⟩ := Option.bind_eq_some_iff.mp hruns
  obtain ⟨⟨b, r₂⟩, hrun₂, hrest⟩ := Option.bind_eq_some_iff.mp hrest
  obtain ⟨⟨d, r₃⟩, hrun₃, hrest⟩ := Option.map_eq_some_iff.mp hrest
  obtain ⟨⟨b', r₂'⟩, hrun₂', hrest'⟩ := Option.bind_eq_some_iff.mp hruns'
  obtain ⟨⟨d', r₃'⟩, hrun₃', hrest'⟩ := Option.map_eq_some_iff.mp hrest'
  simp only [Prod.mk.injEq, Option.isNone_iff_eq_none, Option.map_eq_some_iff,
    decide_eq_true_eq] at hrest hrest'
  obtain ⟨ha, hids, hnone, htypes, info, hinfo, hextends⟩ := hrest
  obtain ⟨hids', hnone', htypes', hcached⟩ := hrest'
  obtain ⟨ids, hb⟩ := Option.isSome_iff_exists.mp hids
  obtain ⟨ids', hb'⟩ := Option.isSome_iff_exists.mp hids'
  obtain ⟨types, hd⟩ := Option.isSome_iff_exists.mp htypes
  obtain ⟨types', hd'⟩ := Option.isSome_iff_exists.mp htypes'
  obtain rfl := eq_error_of_reported ha
  obtain rfl := eq_ok_of_toOption hb
  obtain rfl := eq_ok_of_toOption hb'
  obtain rfl := eq_ok_of_toOption hd
  obtain rfl := eq_ok_of_toOption hd'
  refine ⟨9, t, r₁, hrun₁, r₂, r₃, r₂', r₃', ids, ids', types, types', hrun₂, hrun₃, hrun₂',
    hrun₃', fun heq => ?_⟩
  have hfresh : Reachable v (fun _ => True) (v.fresh {}) := reachable_fresh trivial
  have hr₂ := (hfresh.call _ hrun₁).call _ hrun₂
  have hr₂' := hfresh.call _ hrun₂'
  -- the superclass is among the subtypes that are answered first
  have hmem : x ∈ types := (mem_directSubtypes_of_run steady_any hr₂ hnone hrun₃).mpr
    ⟨x, info, hinfo, by rw [hextends.1]; rfl, c, by simp [ClassInfo.supertypes, hextends.2.1], rfl⟩
  -- and it is not cached when they are answered again
  rw [heq, mem_directSubtypes_of_run steady_any hr₂' hnone' hrun₃'] at hmem
  obtain ⟨w, own, hown, hname, -⟩ := hmem
  obtain ⟨id, hid, -⟩ := Option.bind_eq_some_iff.mp hown
  have hw : w = c ∨ w = t :=
    of_decide_eq_true (List.all_eq_true.mp hcached (w, id) (Cache.mem_of_find? hid))
  rw [((hr₂'.call _ hrun₃').sound steady_any).1.type_of_table hown] at hname
  rcases hw with rfl | rfl <;> exact absurd hname (by decide)

/-- **Where cycles are overlooked and answers change.** A class that is listed and not found is
loaded by a scan only; two locations may have different classes of a name, of which one is found and
the other one listed; and a class that is found and not listed is among the subtypes only once it
was asked for. -/
theorem cycle_overlooked :
    (Smooth (.ofStores [.hiddenRing] .full) ∧
      Overlooks (.ofStores [.hiddenRing] .full) ⟨"a.C", none⟩) ∧
    (Smooth (.ofStores MemoryStore.contested .full) ∧
      Disturbs (.ofStores MemoryStore.contested .full) ⟨"a.L", none⟩
        (.superclassesOf 0 ⟨"a.X", none⟩)) ∧
    Smooth (.ofLocation (.ofMemoryListing .looped 2) .full) ∧
      Disturbs (.ofLocation (.ofMemoryListing .looped 2) .full) ⟨"a.L", none⟩
        (.directSubtypesOf 0 ⟨"a.C", none⟩) := by
  refine ⟨⟨?_, overlooks_hiddenRing⟩, ⟨?_, disturbs_contested⟩, ?_, disturbs_looped⟩
  · exact smooth_of_draws (drawsOn_ofStores _ _) rfl (by decide) (by simpa using ⟨rfl, by decide⟩)
      (by decide)
  · exact smooth_of_draws (drawsOn_ofStores _ _) rfl (by decide) (by
      simpa [MemoryStore.contested] using ⟨⟨rfl, by decide⟩, ⟨rfl, by decide⟩⟩) (by decide)
  · have hdraws : (View.ofLocation (.ofMemoryListing .looped 2) .full).DrawsOn [.looped] :=
      fun l hl => ⟨.looped, List.mem_singleton_self _, List.mem_singleton.mp hl ▸
        Location.drawsOn_ofMemoryListing .looped 2⟩
    exact smooth_of_draws hdraws rfl (by decide) (by simpa using ⟨rfl, by decide⟩) (by decide)

end Hierarchy

end Classpath

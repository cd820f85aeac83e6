import Classpath.Proofs.Hierarchy.Ancestors
import Classpath.Proofs.Hierarchy.Subtypes

/-!
# What hierarchies answer

Three calls read off what was collected for a class: its superclasses, its interfaces, and whether a
type is among them. They are put together here as the questions about what a class inherits
(`Classpath.Hierarchy.Question`), so that what is said of one is said of all.

What a hierarchy remembers stays right whatever is called in between, on the view or on another
hierarchy, and whether it succeeds or fails. So an answer does not depend on what was asked before:
in every table of the state that is left it is the one that the graph of supertypes gives
(`Classpath.Hierarchy.Question.tells_of_run`), and that is one only
(`Classpath.Hierarchy.Tells.unique`).
-/

namespace Classpath

namespace Hierarchy

open View Relation

variable {σ : Type} {v : View σ} {W : σ → Prop} {stuck : Prop} {α β : Type}
  {classOf : ClassType → Option ClassInfo} {c : ClassInfo} {t : ClassType} {fuel : Nat}

/-! ### There is one answer -/

/-- **One thing is told of a type.** -/
theorem Tells.unique (hnamed : ∀ t c, classOf t = some c → c.type = t)
    {x y : Except HierarchyError Ancestors} (h : Tells classOf t x) (h' : Tells classOf t y) :
    x = y := by
  have hself : ∀ {c}, classOf t = some c → classOf c.type = some c := fun {c} hc => by
    rw [hnamed t c hc, hc]
  have habove : ∀ c, Above classOf [] c := fun _ _ hu => absurd hu List.not_mem_nil
  -- which case it is depends on the class and on whether it reaches a cycle, not on the walk
  cases h with
  | unknown hnone => cases h' <;> simp_all
  | @ancestors c a hc huntangled ha =>
    cases h' with
    | unknown hnone => simp_all
    | ancestors hc' _ ha' =>
      obtain rfl := Option.some.inj (hc.symm.trans hc')
      rw [ha.unique ha']
    | cycle hc' hmeets =>
      obtain rfl := Option.some.inj (hc.symm.trans hc')
      exact absurd huntangled (hmeets.not_untangled hnamed (hself hc) (habove c))
  | @cycle c d hc hmeets =>
    cases h' with
    | unknown hnone => simp_all
    | ancestors hc' huntangled _ =>
      obtain rfl := Option.some.inj (hc.symm.trans hc')
      exact absurd huntangled (hmeets.not_untangled hnamed (hself hc) (habove c))
    | cycle hc' hmeets' =>
      obtain rfl := Option.some.inj (hc.symm.trans hc')
      rw [hmeets.unique hnamed hmeets' (hself hc) (habove c)]

/-- Where no cycle is reached no error is told. -/
theorem not_tells_error (hnamed : ∀ t c, classOf t = some c → c.type = t)
    (hclass : classOf t = some c) (huntangled : Untangled classOf c) {e : HierarchyError} :
    ¬ Tells classOf t (.error e) := by
  intro h
  cases h with
  | unknown hnone =>
    rw [hnone] at hclass
    cases hclass
  | @cycle c' d hc hmeets =>
    obtain rfl := Option.some.inj (hclass.symm.trans hc)
    obtain ⟨hpath, hcycle⟩ := hmeets.on_cycle hnamed (by rw [hnamed t c hclass, hclass])
    exact huntangled d hpath hcycle

/-! ### What is remembered stays right -/

section Ready

/-- One query after another. -/
theorem Collects.andThen {q : Query σ α} {f : α → Query σ β}
    (h : Collects v W True q fun _ _ => True) (hf : ∀ x, Collects v W True (f x) fun _ _ => True) :
    Collects v W True (q >>= f) fun _ _ => True :=
  h.bind (fun _ _ _ => trivial) fun x => (hf x).imp fun _ _ _ _ => trivial

/-- **The class of a type**, which must be resolvable. -/
theorem collects_require (hv : Reliable v W) (fuel : Nat) (t : ClassType) :
    Collects v W True (require v fuel t) fun classOf x =>
      x = (classOf t).elim (.error (.unknownType t)) .ok := by
  intro q hq
  rw [require]
  refine Run.outcome_bind.mpr (Run.outcome_zoom.mpr ?_)
  refine (hv.outcome_resolve (runs_resolve hv.steady hq.sound hq.world)).imp (fun answer s' h => ?_)
    fun _ _ he => he.elim
  obtain ⟨htrace, hanswers⟩ := h
  have hlater := hq.later_of_trace hv.steady htrace
  cases answer with
  | none =>
    refine ⟨hlater, fun classOf hd => ?_⟩
    beta_reduce
    rw [hd.absent t hanswers, Option.elim_none]
  | some id =>
    obtain ⟨c, hc, hanswered⟩ := hanswers
    obtain rfl : c.type = t := hv.type_eq_of_answered hanswered
    obtain ⟨o, ho, rfl⟩ := Option.map_eq_some_iff.mp hc
    refine ⟨hlater, fun classOf hd => ?_⟩
    beta_reduce
    rw [hd.built id o.info hc, Option.elim_some, ho, Option.getD_some]

/-- It is reported that classes could not be listed. -/
def Unlisted (x : Except HierarchyError α) : Prop :=
  ∃ cause, x = .error (.resolve cause)

/-- The mark of a scan and the edges that are remembered do not matter. -/
theorem Ready.scanned {q : HierarchyState σ} (h : Ready v W q) (b : Bool)
    (edges : Option (List (ClassType × ClassType))) :
    Ready v W ⟨q.view.marked b, { q.memo with edges }⟩ where
  sound := h.sound.marked b
  world := h.world
  memo classOf hd := h.memo classOf ⟨hd.type_eq, hd.built, hd.absent⟩

/-- **The edges of all classes**, unless listing them fails. -/
theorem collects_subtypeEdges (hW : Steady v W) (fuel : Nat) :
    Collects v W True (subtypeEdges v fuel) fun _ x =>
      ∀ e, x = .error e → ∃ cause, e = .resolve cause := by
  intro q hq
  rw [subtypeEdges]
  refine Run.outcome_bind.mpr (Run.outcome_read.mpr ?_)
  rcases q.memo.edges with _ | edges
  · refine Run.outcome_bind.mpr (Run.outcome_zoom.mpr ?_)
    refine Run.Outcome.imp (runs_resolveAll_sound hW hq.sound hq.world) (fun ids s' h => ?_)
      fun cause s' he => ⟨hq.later_of_trace hW he.1, fun _ _ e he' =>
        ⟨cause, (Except.error.inj he').symm⟩⟩
    have hlater := (hq.scanned true (some (edgesOf (s'.classes ids)))).later_of_trace hW h.1
    refine ⟨⟨hlater.ready, fun classOf hd => ?_⟩, by simp⟩
    have hd' := hlater.describes classOf hd
    exact ⟨hd'.type_eq, hd'.built, hd'.absent⟩
  · exact ⟨⟨hq, fun _ hd => hd⟩, by simp⟩

/-- A value is given for types that can be resolved only. -/
theorem collects_readEdges (hv : Reliable v W) (f : List (ClassType × ClassType) → α) (fuel : Nat) :
    Collects v W True (readEdges v t f fuel) fun classOf x =>
      (∃ a, x = .ok a ∧ (classOf t).isSome) ∨ (x = .error (.unknownType t) ∧ classOf t = none) ∨
        Unlisted x := by
  refine (collects_require hv fuel t).bind (fun classOf e he => ?_) fun c => ?_
  · cases hclass : classOf t <;> simp_all
  refine (collects_subtypeEdges hv.steady fuel).bind (fun classOf e he _ => ?_) fun edges =>
    collects_pure fun classOf _ hc => ?_
  · obtain ⟨cause, rfl⟩ := he e rfl
    exact .inr (.inr ⟨cause, rfl⟩)
  · refine .inl ⟨_, rfl, ?_⟩
    cases hclass : classOf t <;> simp_all

/-- A query on one hierarchy leaves what the others remember. -/
theorem ready_onHierarchy {q : Query σ α} (hq : Collects v W True q fun _ _ => True)
    {s s' : Session σ} (hs : ∀ k, Ready v W ⟨s.view, s.hierarchies k⟩) {k : Nat}
    {x : Except HierarchyError α} (hrun : onHierarchy k q s = some (x, s')) (j : Nat) :
    Ready v W ⟨s'.view, s'.hierarchies j⟩ := by
  have hlater : ∀ q', Later v W ⟨s.view, s.hierarchies k⟩ q' →
      Ready v W ⟨q'.view, Function.update s.hierarchies k q'.memo j⟩ := by
    intro q' h
    rcases eq_or_ne j k with rfl | hne
    · rw [Function.update_self]
      exact h.ready
    · rw [Function.update_of_ne hne]
      exact ⟨h.ready.sound, h.ready.world, fun classOf hd => (hs j).memo classOf (h.describes _ hd)⟩
  have hends : (onHierarchy k q).Ends s (fun _ s' => Ready v W ⟨s'.view, s'.hierarchies j⟩)
      fun _ s' => Ready v W ⟨s'.view, s'.hierarchies j⟩ :=
    Run.outcome_zoom.mpr ((hq _ (hs k)).imp (fun _ q' h => hlater q' h.1) fun _ q' h =>
      hlater q' h.1)
  exact Run.Ends.state (P := fun s' => Ready v W ⟨s'.view, s'.hierarchies j⟩) hends hrun

/-- What is done to the view alone leaves what hierarchies remember. -/
theorem ready_onView {a : Action σ α} {s s' : Session σ}
    (hs : ∀ k, Ready v W ⟨s.view, s.hierarchies k⟩) {x : Except HierarchyError α} {b : Bool}
    (hW : Steady v W) (hrun : onView a s = some (x, s'))
    (htrace : Trace v W 0 (s.view.marked b) s'.view) (j : Nat) :
    Ready v W ⟨s'.view, s'.hierarchies j⟩ := by
  have hmemo : s'.hierarchies = s.hierarchies := by
    rw [onView, Run.zoom] at hrun
    split at hrun
    · cases hrun
    · cases hrun
      rfl
  rw [hmemo]
  exact (((hs j).scanned b (s.hierarchies j).edges).later_of_trace hW htrace).ready

/-- **What hierarchies remember stays right**, whatever is called and whatever it ends with. -/
theorem ready_of_run (hv : Reliable v W) {s s' : Session σ}
    (hs : ∀ k, Ready v W ⟨s.view, s.hierarchies k⟩) {call : Call α} {x : Except HierarchyError α}
    (hrun : call.run v fuel s = some (x, s')) (j : Nat) :
    Ready v W ⟨s'.view, s'.hierarchies j⟩ := by
  have htrace := Call.trace hv.steady (hs 0).sound (hs 0).world hrun
  -- each call is a query that is put together from these
  have hpure : ∀ {β : Type} (x : β), Collects v W True (pure x : Query σ β) fun _ _ => True :=
    fun _ => collects_pure fun _ => trivial
  have hrequire : ∀ t, Collects v W True (require v fuel t) fun _ _ => True := fun t =>
    (collects_require hv fuel t).imp fun _ _ _ => trivial
  have hancestors : ∀ t, Collects v W True (requireAncestors v fuel t) fun _ _ => True := fun t =>
    (collects_requireAncestors hv ∅ (absurd trivial)).imp fun _ _ _ => trivial
  have hedges : ∀ {β : Type} t (f : List (ClassType × ClassType) → β),
      Collects v W True (readEdges v t f fuel) fun _ _ => True := fun t f =>
    (collects_readEdges hv f fuel).imp fun _ _ _ => trivial
  cases call with
  | resolve t => exact ready_onView hs hv.steady hrun htrace j
  | resolveAll => exact ready_onView hs hv.steady hrun htrace j
  | valuesWithDefaults id i => exact ready_onView hs hv.steady hrun htrace j
  | superclassOf k t => exact ready_onHierarchy ((hrequire t).andThen fun _ => hpure _) hs hrun j
  | interfacesOf k t => exact ready_onHierarchy ((hrequire t).andThen fun _ => hpure _) hs hrun j
  | implementedInterfacesOf k t =>
    exact ready_onHierarchy ((hancestors t).andThen fun _ => hpure _) hs hrun j
  | superclassesOf k t =>
    exact ready_onHierarchy ((hancestors t).andThen fun _ => hpure _) hs hrun j
  | isSubtype k supertype candidate =>
    exact ready_onHierarchy ((hancestors candidate).andThen fun _ => hpure _) hs hrun j
  | directSubtypesOf k t =>
    exact ready_onHierarchy (hedges t (children · t.unqualified)) hs hrun j
  | subtypesOf k t =>
    exact ready_onHierarchy (hedges t (subtypesIn · t.unqualified)) hs hrun j

/-- **What hierarchies remember is right** in every state of a view in use. -/
theorem ready_of_reachable (hv : Reliable v W) {s : Session σ} (h : Reachable v W s) (k : Nat) :
    Ready v W ⟨s.view, s.hierarchies k⟩ := by
  obtain ⟨w, hw, hnext⟩ := h
  induction hnext generalizing k with
  | refl => exact ⟨sound_start w, hw, fun _ _ _ _ ha => by cases ha⟩
  | tail _ hnext ih =>
    cases hnext with
    | call call fuel hrun => exact ready_of_run hv ih hrun k
    | drift hw' =>
      exact ⟨(ih k).sound.inWorld _, hw', fun classOf hd =>
        (ih k).memo classOf ⟨hd.type_eq, hd.built, hd.absent⟩⟩

/-- **What a query on a hierarchy amounts to**, in every state of a view in use. -/
theorem Collects.outcome_onHierarchy {q : Query σ α} {P : Table → Except HierarchyError α → Prop}
    (h : Collects v W stuck q P) (hv : Reliable v W) {r : Session σ} (hr : Reachable v W r)
    (k : Nat) : (onHierarchy k q).Outcome stuck r
      (fun a r' => ∀ classOf, Describes v W r'.view classOf → P classOf (.ok a))
      fun e r' => ∀ classOf, Describes v W r'.view classOf → P classOf (.error e) :=
  Run.outcome_zoom.mpr ((h _ (ready_of_reachable hv hr k)).imp (fun _ _ ha => ha.2)
    fun _ _ he => he.2)

theorem Collects.of_run {q : Query σ α} {P : Table → Except HierarchyError α → Prop}
    (h : Collects v W True q P) (hv : Reliable v W) {r r' : Session σ} (hr : Reachable v W r)
    {k : Nat} {x : Except HierarchyError α} (hrun : onHierarchy k q r = some (x, r'))
    (hd : Describes v W r'.view classOf) : P classOf x := by
  have hends := h.outcome_onHierarchy hv hr k
  cases x with
  | ok a => exact hends.ok hrun classOf hd
  | error e => exact hends.error hrun classOf hd

end Ready

/-! ### Questions -/

/-- **A question about what a class inherits.** -/
inductive Question : Type → Type
  | superclasses : Question (List ClassType)
  | interfaces : Question (List ClassType)
  | isSubtype (supertype : ClassType) : Question Bool

namespace Question

/-- The call that asks the question of a type. -/
def call : Question α → Nat → ClassType → Call α
  | superclasses, k, t => .superclassesOf k t
  | interfaces, k, t => .implementedInterfacesOf k t
  | isSubtype s, k, t => .isSubtype k s t

/-- The answer for a type of these ancestors. -/
def read : Question α → ClassType → Ancestors → α
  | superclasses, _, a => a.superclasses
  | interfaces, _, a => a.interfaces
  | isSubtype s, t, a => decide (t.name = s.name) || a.contains s.unqualified

theorem run_eq (q : Question α) (k fuel : Nat) (t : ClassType) :
    (q.call k t).run v fuel =
      onHierarchy k (requireAncestors v fuel t >>= fun a => pure (q.read t a)) := by
  cases q <;> rfl

/-- What is told of a type is what the answer is read off. -/
theorem collects (hv : Reliable v W) (types : Finset ClassType)
    (hfuel : ¬ stuck → Suffices v W types fuel []) (q : Question α) (t : ClassType) :
    Collects v W stuck (requireAncestors v fuel t >>= fun a => pure (q.read t a)) fun classOf x =>
      ∃ y, Tells classOf t y ∧ x = y.map (q.read t) :=
  (collects_requireAncestors hv types hfuel).bind (fun _ e he => ⟨.error e, he, rfl⟩) fun a =>
    collects_pure fun _ ha => ⟨.ok a, ha, rfl⟩

/-- **Whatever is answered is what the tables tell**, with any fuel. -/
theorem tells_of_run (hv : Reliable v W) {r r' : Session σ} (hr : Reachable v W r)
    {q : Question α} {k : Nat} {x : Except HierarchyError α}
    (hrun : (q.call k t).run v fuel r = some (x, r')) (hd : Describes v W r'.view classOf) :
    ∃ y, Tells classOf t y ∧ x = y.map (q.read t) := by
  rw [q.run_eq] at hrun
  exact (collects hv ∅ (absurd trivial) q t).of_run hv hr hrun hd

/-- **With enough fuel there is an answer.** -/
theorem exists_run (hv : Reliable v W) {types : Finset ClassType}
    (hfuel : Suffices v W types fuel []) {r : Session σ} (hr : Reachable v W r) (q : Question α)
    (k : Nat) (t : ClassType) : ∃ x r', (q.call k t).run v fuel r = some (x, r') := by
  have hhalts := (collects hv types (fun _ : ¬ False => hfuel) q t).outcome_onHierarchy hv hr k
  obtain ⟨x, r', hrun, -, -⟩ := Run.Halts.exists hhalts
  exact ⟨x, r', q.run_eq k fuel t ▸ hrun⟩

/-- **Questions are answered** if only finitely many types are provided. -/
theorem endsBeyond (hv : Reliable v W) (hfull : v.options.policy = .full)
    (hfinite : {t | Provided v W t}.Finite) {r : Session σ} (hr : Reachable v W r) (q : Question α)
    (k : Nat) (t : ClassType) :
    (q.call k t).EndsBeyond v (2 * {t | Provided v W t}.ncard) r := by
  have htypes : ∀ l src, Chosen v W l src → src.type ∈ hfinite.toFinset :=
    fun l src hchosen => hfinite.mem_toFinset.mpr hchosen.provided
  have hcard := Set.ncard_eq_toFinset_card _ hfinite
  obtain ⟨x, r', hrun⟩ := exists_run hv (suffices_nil hfull htypes (Nat.lt_succ_self _)) hr q k t
  refine ⟨x, r', fun fuel hfuel => Call.run_extends _ ?_ r _ hrun⟩
  omega

/-- **A question has one answer**, however often it is asked and whichever hierarchies are asked:
the later state has a table, which describes the earlier one as well. -/
theorem eq_of_run (hself : v.project.SelfTyped) (hv : Reliable v W) (hhidden : NothingHidden v W)
    (hfull : v.options.policy = .full) {r r' r'' r₃ : Session σ} (hr : Reachable v W r)
    {q : Question α} {k k' fuel' : Nat} {x y : Except HierarchyError α}
    (hrun : (q.call k t).run v fuel r = some (x, r')) (hnext : ReflTransGen (Next v W) r' r'')
    (hrun' : (q.call k' t).run v fuel' r'' = some (y, r₃)) : y = x := by
  have hr' := hr.call _ hrun
  have hr'' := hr'.trans hnext
  -- the table of the last state, in which both answers are right
  have hdescribes := describes_table hself hv.steady hhidden hfull (hr''.call _ hrun')
  have hearlier := hdescribes.of_next hv.steady hr' (hnext.tail (.call _ _ hrun'))
  obtain ⟨x, hx, rfl⟩ := tells_of_run hv hr hrun hearlier
  obtain ⟨y, hy, rfl⟩ := tells_of_run hv hr'' hrun' hdescribes
  rw [hx.unique hdescribes.type_eq hy]

end Question

end Hierarchy

end Classpath

import Classpath.Proofs.Hierarchy.Cycles
import Classpath.Proofs.View.Described

/-!
# Collecting ancestors

The ancestors of a class are collected over the graph of supertypes, depth first, and what was
collected for a class is remembered. Classes are loaded on the way, and which class a type has may
be open before. So the statements are about the tables that describe the state that is left
(`Classpath.View.Describes`): in each of them the answer is right, whether it is collected now or
was before, and an error reports the class that is met again.

What is remembered are the ancestors of classes that reach no cycle. To look one of these up is
therefore to pass by a supertype that a walk would pass by as well, and no answer shows which of the
two it was.

* `Classpath.Hierarchy.collects_collect` – what a class inherits, from what is told of its
  supertypes.
* `Classpath.Hierarchy.collects_ancestorsOf` – by induction on the fuel: whatever is told is right.
  It ends if only finitely many types are loaded, for the classes on a path are different ones.
* `Classpath.Hierarchy.ready_of_reachable` – what hierarchies remember is right in every state of a
  view in use.
-/

namespace Classpath

namespace Hierarchy

open View Relation

variable {σ : Type} (v : View σ) (W : σ → Prop) (classOf : ClassType → Option ClassInfo)

/-- A table of classes. -/
abbrev Table := ClassType → Option ClassInfo

/-- **What is told of a class**, or where there is none: its ancestors, if no cycle is reached, and
otherwise the class that is met again. The classes of `active` are on the path. -/
inductive Told (active : List ClassType) :
    Option ClassInfo → Except HierarchyError (Option Ancestors) → Prop
  | missing : Told active none (.ok none)
  | ancestors {c a} : Untangled classOf c → Ancestry classOf c a →
      Told active (some c) (.ok (some a))
  | cycle {c d} : Meets classOf active c d →
      Told active (some c) (.error (.cycle d.type.unqualified))

/-- **What is answered for a type.** -/
inductive Tells (t : ClassType) : Except HierarchyError Ancestors → Prop
  | unknown : classOf t = none → Tells t (.error (.unknownType t))
  | ancestors {c a} : classOf t = some c → Untangled classOf c → Ancestry classOf c a →
      Tells t (.ok a)
  | cycle {c d} : classOf t = some c → Meets classOf [] c d →
      Tells t (.error (.cycle d.type.unqualified))

/-- The ancestors of a class as far as they come from its superclass and the interfaces in `done`;
no cycle is reached from these. -/
structure GathersUpTo (c : ClassInfo) (done : List ClassType) (a : Ancestors) : Prop where
  chain : Chain classOf c a.superclasses
  interfaces : ∀ t, t ∈ a.interfaces ↔
    (∃ d, Extends classOf c d ∧ Implements classOf d t) ∨ ∃ r ∈ done,
      r.unqualified = t ∨ ∃ d, denoted classOf c.type r = some d ∧ Implements classOf d t
  sorted : ClassType.sortedSet a.interfaces = a.interfaces
  untangled : ∀ r ∈ c.superclass.toList ++ done, ∀ d, denoted classOf c.type r = some d →
    Untangled classOf d

/-- **What the walk over the supertypes of a class comes to**: they are passed by, or a class is met
again from the first one from which a cycle is reached. -/
inductive Walks (active : List ClassType) (c : ClassInfo) : Except HierarchyError Ancestors → Prop
  | done {a} : GathersUpTo classOf c c.interfaces a → Walks active c (.ok a)
  | stops {before r after d e} : c.supertypes = before ++ r :: after →
      (∀ b ∈ before, ∀ d, denoted classOf c.type b = some d → Untangled classOf d) →
      denoted classOf c.type r = some d → Meets classOf active d e →
      Walks active c (.error (.cycle e.type.unqualified))

/-- **What is remembered of ancestors is right.** -/
def Remembers (m : Hierarchy) : Prop :=
  ∀ t a, m.ancestors.lookup t = some a →
    ∃ c, classOf t = some c ∧ Untangled classOf c ∧ Ancestry classOf c a

/-- The states in which ancestors are collected. -/
structure Ready (q : HierarchyState σ) : Prop where
  sound : Sound v W q.view
  world : W q.view.world
  memo : ∀ classOf, Describes v W q.view classOf → Remembers classOf q.memo

/-- **One state after another**: it is ready, and its tables describe the earlier one. -/
structure Later (q q' : HierarchyState σ) : Prop where
  ready : Ready v W q'
  describes : ∀ classOf, Describes v W q'.view classOf → Describes v W q.view classOf

/-- **What a query amounts to**: in each table of the state that is left, the value or the error
satisfies `P`. -/
def Collects {α : Type} (stuck : Prop) (r : Query σ α)
    (P : Table → Except HierarchyError α → Prop) : Prop :=
  ∀ q, Ready v W q → r.Outcome stuck q
    (fun a q' => Later v W q q' ∧ ∀ classOf, Describes v W q'.view classOf → P classOf (.ok a))
    fun e q' => Later v W q q' ∧ ∀ classOf, Describes v W q'.view classOf → P classOf (.error e)

variable {v W classOf} {stuck : Prop} {α β : Type} {c d : ClassInfo} {t r : ClassType}
  {a : Ancestors} {active : List ClassType}

/-! ### Putting queries together -/

theorem Later.trans {q q' q'' : HierarchyState σ} (h : Later v W q q') (h' : Later v W q' q'') :
    Later v W q q'' where
  ready := h'.ready
  describes classOf hd := h.describes classOf (h'.describes classOf hd)

theorem collects_pure {P : Table → Except HierarchyError α → Prop} {x : α}
    (h : ∀ classOf, P classOf (.ok x)) : Collects v W stuck (pure x) P :=
  fun _ hq => ⟨⟨hq, fun _ hd => hd⟩, fun classOf _ => h classOf⟩

theorem collects_fail {P : Table → Except HierarchyError α → Prop} {e : HierarchyError}
    (h : ∀ classOf, P classOf (.error e)) : Collects v W stuck (Run.fail e) P :=
  fun _ hq => ⟨⟨hq, fun _ hd => hd⟩, fun classOf _ => h classOf⟩

theorem Collects.imp {q : Query σ α} {P Q : Table → Except HierarchyError α → Prop}
    (h : Collects v W stuck q P) (hPQ : ∀ classOf x, P classOf x → Q classOf x) :
    Collects v W stuck q Q := fun s hs =>
  (h s hs).imp (fun _ _ hx => ⟨hx.1, fun classOf hd => hPQ classOf _ (hx.2 classOf hd)⟩)
    fun _ _ he => ⟨he.1, fun classOf hd => hPQ classOf _ (he.2 classOf hd)⟩

/-- One query after another: the tables of the state that the second one leaves know what the first
one gave. -/
theorem Collects.bind {q : Query σ α} {f : α → Query σ β}
    {P : Table → Except HierarchyError α → Prop} {Q : Table → Except HierarchyError β → Prop}
    (h : Collects v W stuck q P)
    (herror : ∀ classOf e, P classOf (.error e) → Q classOf (.error e))
    (hf : ∀ x, Collects v W stuck (f x) fun classOf y => P classOf (.ok x) → Q classOf y) :
    Collects v W stuck (q >>= f) Q := by
  intro s hs
  refine Run.outcome_bind.mpr ((h s hs).imp (fun x s' hx => ?_) fun e s' he =>
    ⟨he.1, fun classOf hd => herror classOf e (he.2 classOf hd)⟩)
  obtain ⟨hlater, hP⟩ := hx
  have hknown : ∀ {s''}, Later v W s' s'' → ∀ classOf, Describes v W s''.view classOf →
      P classOf (.ok x) := fun hlater' classOf hd => hP classOf (hlater'.describes classOf hd)
  exact (hf x s' hlater.ready).imp
    (fun _ _ hy => ⟨hlater.trans hy.1, fun classOf hd => hy.2 classOf hd (hknown hy.1 classOf hd)⟩)
    fun _ _ he => ⟨hlater.trans he.1, fun classOf hd => he.2 classOf hd (hknown he.1 classOf hd)⟩

/-! ### Putting ancestors together -/

/-- What an interface adds. -/
theorem mem_interfaces_of_told {found : Option Ancestors} {c? : Option ClassInfo}
    (h : Told classOf active c? (.ok found)) :
    t ∈ (found.getD {}).interfaces ↔ ∃ e, c? = some e ∧ Implements classOf e t := by
  cases h with
  | missing => simp
  | ancestors _ ha => simp [ha.interfaces t]

theorem eq_none_of_told {c? : Option ClassInfo} (h : Told classOf active c? (.ok none)) :
    c? = none := by
  cases h
  rfl

/-- What is told of a class decides, and other classes do not matter. -/
theorem Told.or {c? d? : Option ClassInfo} {x : Except HierarchyError (Option Ancestors)}
    (h : Told classOf active c? x) (hx : x ≠ .ok none) : Told classOf active (c?.or d?) x := by
  cases h with
  | missing => exact absurd rfl hx
  | ancestors huntangled ha => exact .ancestors huntangled ha
  | cycle hmeets => exact .cycle hmeets

theorem untangled_of_told {found : Option Ancestors} {c? : Option ClassInfo}
    (h : Told classOf active c? (.ok found)) (hd : c? = some d) : Untangled classOf d := by
  cases h with
  | missing => cases hd
  | ancestors huntangled _ => exact Option.some.inj hd ▸ huntangled

/-- A class without a superclass. -/
theorem gathersUpTo_root (h : c.superclass = none) : GathersUpTo classOf c [] {} where
  chain := .root h
  interfaces t := by simp [Extends, h]
  sorted := ClassType.sortedSet_nil
  untangled r hr := by simp [h] at hr

/-- A class with a superclass. -/
theorem gathersUpTo_addSuperclass (h : c.superclass = some r) {found : Option Ancestors}
    (hfound : Told classOf active (denoted classOf c.type r) (.ok found)) :
    GathersUpTo classOf c [] (Ancestors.addSuperclass {} r found) where
  chain := by
    rw [Ancestors.addSuperclass]
    generalize hdenoted : denoted classOf c.type r = d? at hfound
    cases hfound with
    | missing => exact .missing h hdenoted
    | ancestors _ ha => exact .next h hdenoted ha.chain
  interfaces t := by
    simp [Ancestors.addSuperclass, Extends, h, mem_interfaces_of_told hfound]
  sorted := ClassType.sortedSet_sortedSet _
  untangled r' hr' d hd := by
    obtain rfl : r = r' := by simpa [h, eq_comm] using hr'
    exact untangled_of_told hfound hd

/-- One interface more. -/
theorem GathersUpTo.addInterface {done : List ClassType} (h : GathersUpTo classOf c done a)
    {found : Option Ancestors}
    (hfound : Told classOf active (denoted classOf c.type r) (.ok found)) :
    GathersUpTo classOf c (done ++ [r]) (a.addInterface r found) where
  chain := h.chain
  interfaces t := by
    have hmem : t ∈ (a.addInterface r found).interfaces ↔
        t ∈ a.interfaces ∨ r.unqualified = t ∨ t ∈ (found.getD {}).interfaces := by
      simp [Ancestors.addInterface, eq_comm]
    rw [hmem, h.interfaces, mem_interfaces_of_told hfound]
    simp only [List.mem_append, List.mem_singleton, or_and_right, exists_or, exists_eq_left,
      or_assoc]
  sorted := ClassType.sortedSet_sortedSet _
  untangled r' hr' d hd := by
    rw [← List.append_assoc, List.mem_append, List.mem_singleton] at hr'
    rcases hr' with hr' | rfl
    · exact h.untangled r' hr' d hd
    · exact untangled_of_told hfound hd

/-- With all interfaces these are the ancestors of the class. -/
theorem GathersUpTo.ancestry (h : GathersUpTo classOf c c.interfaces a) : Ancestry classOf c a where
  chain := h.chain
  interfaces t := by rw [h.interfaces, implements_iff]
  sorted := h.sorted

theorem GathersUpTo.untangled_class (h : GathersUpTo classOf c c.interfaces a) :
    Untangled classOf c :=
  untangled_of_forall fun d ⟨r, hr, hd⟩ => h.untangled r hr d hd

/-- Where the supertypes have been walked over, a class that is new on the path is told of. -/
theorem Walks.told {x : Except HierarchyError Ancestors}
    (h : Walks classOf (c.type :: active) c x) (hnew : c.type ∉ active) :
    Told classOf active (some c) (x.map some) := by
  cases h with
  | done ha => exact .ancestors ha.untangled_class ha.ancestry
  | stops hsplit hbefore hdenoted hmeets =>
    exact .cycle (.onward hnew hsplit hbefore hdenoted hmeets)

/-! ### Collecting -/

section Find

variable {find : ClassType → Query σ (Option Ancestors)}
  (hfind : ∀ u, Collects v W stuck (find u) fun classOf => Told classOf active (classOf u))

include hfind

/-- **What is told of a supertype** is told of the class that it stands for. -/
theorem collects_inherited (c : ClassInfo) (r : ClassType) :
    Collects v W stuck (inherited find r c.type) fun classOf =>
      Told classOf active (denoted classOf c.type r) := by
  rw [inherited]
  split
  · rename_i m hm hr
    refine (hfind _).bind (fun classOf e he => ?_) fun found => ?_
    · rw [denoted_of_module hm hr]
      exact he.or (by simp)
    · cases found with
      | none =>
        refine (hfind r).imp fun classOf x hx hnone => ?_
        rwa [denoted_of_module hm hr, eq_none_of_told hnone, Option.none_or]
      | some a =>
        refine collects_pure fun classOf hfound => ?_
        rw [denoted_of_module hm hr]
        exact hfound.or (by simp)
  · rename_i hplain
    refine (hfind r).imp fun classOf x hx => ?_
    rwa [denoted_of_plain hplain]

/-- Adding the interfaces that are left. -/
theorem collects_addInterfaces (c : ClassInfo) : ∀ rest done a, c.interfaces = done ++ rest →
    Collects v W stuck (addInterfaces find c.type rest a) fun classOf x =>
      GathersUpTo classOf c done a → Walks classOf active c x
  | [], done, a, hsplit => by
    rw [List.append_nil] at hsplit
    exact collects_pure fun classOf hdone => .done (hsplit ▸ hdone)
  | r :: rest, done, a, hsplit => by
    rw [addInterfaces]
    refine (collects_inherited hfind c r).bind (fun classOf e he hdone => ?_) fun found => ?_
    · generalize hdenoted : denoted classOf c.type r = d? at he
      cases he with
      | cycle hmeets =>
        have hsupertypes : c.supertypes = (c.superclass.toList ++ done) ++ r :: rest := by
          rw [ClassInfo.supertypes, hsplit, List.append_assoc]
        exact .stops hsupertypes hdone.untangled hdenoted hmeets
    · refine (collects_addInterfaces c rest (done ++ [r]) _ (by simp [hsplit])).imp
        fun classOf x hx hfound hdone => ?_
      exact hx (hdone.addInterface hfound)

/-- **What a class inherits** is put together from what is told of its supertypes. -/
theorem collects_collect (c : ClassInfo) :
    Collects v W stuck (collect find c) fun classOf => Walks classOf active c := by
  have hinterfaces := fun a => collects_addInterfaces hfind c c.interfaces [] a rfl
  rw [collect]
  split
  · rename_i r hr
    refine (collects_inherited hfind c r).bind (fun classOf e he => ?_) fun found => ?_
    · generalize hdenoted : denoted classOf c.type r = d? at he
      cases he with
      | cycle hmeets =>
        have hsupertypes : c.supertypes = [] ++ r :: c.interfaces := by
          rw [ClassInfo.supertypes, hr]
          rfl
        exact .stops hsupertypes (by simp) hdenoted hmeets
    · exact (hinterfaces _).imp fun classOf x hx hfound =>
        hx (gathersUpTo_addSuperclass hr hfound)
  · rename_i hnone
    exact (hinterfaces _).imp fun classOf x hx => hx (gathersUpTo_root hnone)

end Find

/-- To remember what was collected is right. -/
theorem Ready.remember {q : HierarchyState σ} (h : Ready v W q)
    (ha : ∀ classOf, Describes v W q.view classOf →
      classOf c.type = some c ∧ Untangled classOf c ∧ Ancestry classOf c a) :
    Ready v W { q with memo := { q.memo with ancestors := (c.type, a) :: q.memo.ancestors } } where
  sound := h.sound
  world := h.world
  memo classOf hd u b hb := by
    rw [List.lookup_cons] at hb
    split at hb
    · rename_i heq
      obtain rfl : u = c.type := by simpa using heq
      exact ⟨c, Option.some.inj hb ▸ ha classOf hd⟩
    · exact h.memo classOf hd u b hb

/-- **The ancestors of a class that is new on the path** are collected and remembered. -/
theorem outcome_collected {find : ClassType → Query σ (Option Ancestors)}
    (hfind : ∀ u, Collects v W stuck (find u) fun classOf =>
      Told classOf (c.type :: active) (classOf u))
    (hnew : c.type ∉ active) {q : HierarchyState σ} (hq : Ready v W q)
    (hclass : ∀ classOf, Describes v W q.view classOf → classOf c.type = some c) :
    (do
      let a ← collect find c
      Run.change fun s =>
        { s with memo := { s.memo with ancestors := (c.type, a) :: s.memo.ancestors } }
      return some a : Query σ (Option Ancestors)).Outcome stuck q
      (fun found q' => Later v W q q' ∧ ∀ classOf, Describes v W q'.view classOf →
        Told classOf active (classOf c.type) (.ok found))
      fun e q' => Later v W q q' ∧ ∀ classOf, Describes v W q'.view classOf →
        Told classOf active (classOf c.type) (.error e) := by
  refine Run.outcome_bind.mpr ((collects_collect hfind c q hq).imp (fun a q' h => ?_)
    fun e q' h => ⟨h.1, fun classOf hd => ?_⟩)
  · have htold : ∀ classOf, Describes v W q'.view classOf → classOf c.type = some c ∧
        Told classOf active (some c) (.ok (some a)) := fun classOf hd =>
      ⟨hclass classOf (h.1.describes classOf hd), (h.2 classOf hd).told hnew⟩
    refine ⟨⟨h.1.ready.remember fun classOf hd => ?_, h.1.describes⟩, fun classOf hd => ?_⟩
    · obtain ⟨hself, htold⟩ := htold classOf hd
      cases htold with
      | ancestors huntangled ha => exact ⟨hself, huntangled, ha⟩
    · rw [(htold classOf hd).1]
      exact (htold classOf hd).2
  · rw [hclass classOf (h.1.describes classOf hd)]
    exact (h.2 classOf hd).told hnew

/-- Resolving keeps what is remembered. -/
theorem Ready.later_of_trace (hW : Steady v W) {q : HierarchyState σ} (h : Ready v W q) {k : Nat}
    {s : ViewState σ} (htrace : Trace v W k q.view s) : Later v W q { q with view := s } where
  ready :=
    { sound := Trace.sound htrace h.sound
      world := hW.trace htrace h.world
      memo := fun classOf hd => h.memo classOf (hd.of_trace htrace) }
  describes _ hd := hd.of_trace htrace

variable (v W) in
/-- **Fuel that is enough**, with the classes of `active` on the path: only types of `types` are
loaded, and the path is without repetitions. Each step takes one unit of fuel and makes the path
longer by one, so there is always enough left to resolve a type. -/
structure Suffices (types : Finset ClassType) (fuel : Nat) (active : List ClassType) : Prop where
  full : v.options.policy = .full
  chosen : ∀ l src, Chosen v W l src → src.type ∈ types
  nodup : active.Nodup
  subset : ∀ u ∈ active, u ∈ types
  lt : 2 * types.card < fuel + active.length

section Suffices

variable {types : Finset ClassType} {fuel : Nat}

theorem Suffices.card_lt (h : Suffices v W types fuel active) : types.card < fuel := by
  have hpath : active.length ≤ types.card := by
    rw [← List.toFinset_card_of_nodup h.nodup]
    exact Finset.card_le_card fun u hu => h.subset u (List.mem_toFinset.mp hu)
  have hlt := h.lt
  omega

theorem suffices_nil (hfull : v.options.policy = .full)
    (htypes : ∀ l src, Chosen v W l src → src.type ∈ types) (hn : 2 * types.card < fuel) :
    Suffices v W types fuel [] where
  full := hfull
  chosen := htypes
  nodup := List.nodup_nil
  subset := by simp
  lt := by simpa using hn

theorem Suffices.cons (h : Suffices v W types (fuel + 1) active) (hmem : t ∈ types)
    (hnew : t ∉ active) : Suffices v W types fuel (t :: active) where
  full := h.full
  chosen := h.chosen
  nodup := List.nodup_cons.mpr ⟨hnew, h.nodup⟩
  subset := List.forall_mem_cons.mpr ⟨hmem, h.subset⟩
  lt := by
    have hlt := h.lt
    rw [List.length_cons]
    omega

/-- Only types of `types` are loaded. -/
theorem Suffices.mem_of_sound (h : Suffices v W types fuel active) {s : ViewState σ}
    (hs : Sound v W s) {id : Nat} (hc : s.info? id = some c) : c.type ∈ types := by
  obtain ⟨l, src, w, hchosen, -, hbuild⟩ := hs.loaded id c hc
  rw [Source.type_of_build hbuild]
  exact h.chosen l src hchosen

/-- Resolving does not fail, and with enough fuel it ends. -/
theorem outcome_resolve (hv : Reliable v W) (hfuel : ¬ stuck → Suffices v W types fuel active)
    {s : ViewState σ} (hs : Sound v W s) (hw : W s.world) :
    (v.resolve fuel t).Outcome stuck s
      (fun answer s' => Trace v W 0 s s' ∧ Answers v W t answer s') fun _ _ => False := by
  by_cases hstuck : stuck
  · rw [eq_true hstuck]
    exact hv.outcome_resolve (runs_resolve hv.steady hs hw)
  · have hsuffices := hfuel hstuck
    rw [eq_false hstuck]
    exact hv.outcome_resolve (runs_resolve_finite hsuffices.full hv.steady hsuffices.chosen hs hw
      (unbuilt_le.trans_lt hsuffices.card_lt))

/-- **The ancestors of a type**: they are remembered, or the type cannot be resolved, or they are
collected now unless the class is met again. -/
theorem collects_ancestorsOf (hv : Reliable v W) : ∀ fuel active t,
    (¬ stuck → Suffices v W types fuel active) →
    Collects v W stuck (ancestorsOf v fuel active t) fun classOf => Told classOf active (classOf t)
  | 0, active, t, hfuel => by
    intro q _
    refine Run.outcome_exhausted.mpr ?_
    by_contra hstuck
    exact absurd (hfuel hstuck).card_lt (Nat.not_lt_zero _)
  | fuel + 1, active, t, hfuel => by
    intro q hq
    rw [ancestorsOf]
    refine Run.outcome_bind.mpr (Run.outcome_read.mpr ?_)
    rcases hknown : q.memo.ancestors.lookup t with _ | a
    · refine Run.outcome_bind.mpr (Run.outcome_zoom.mpr ?_)
      refine (outcome_resolve hv hfuel hq.sound hq.world).imp (fun answer s' h => ?_)
        fun _ _ he => he.elim
      obtain ⟨htrace, hanswers⟩ := h
      have hlater := hq.later_of_trace hv.steady htrace
      cases answer with
      | none =>
        refine ⟨hlater, fun classOf hd => ?_⟩
        beta_reduce
        rw [hd.absent t hanswers]
        exact .missing
      | some id =>
        -- the class of the object that was found is what every table has for the type
        obtain ⟨c, hc, hanswered⟩ := hanswers
        obtain rfl : c.type = t := hv.type_eq_of_answered hanswered
        have hclass : ∀ classOf, Describes v W s' classOf → classOf c.type = some c :=
          fun classOf hd => hd.built id c hc
        obtain ⟨o, ho, rfl⟩ := Option.map_eq_some_iff.mp hc
        refine Run.outcome_bind.mpr (Run.outcome_zoom.mpr (Run.outcome_read.mpr ?_))
        dsimp only
        rw [ho, Option.getD_some]
        split
        · rename_i hactive
          refine ⟨hlater, fun classOf hd => ?_⟩
          rw [hclass classOf hd]
          exact .cycle (.again (List.contains_iff_mem.mp hactive))
        · rename_i hactive
          have hnew : o.info.type ∉ active := by simpa using hactive
          have hfind := fun u => collects_ancestorsOf hv fuel (o.info.type :: active) u
            fun hstuck =>
              (hfuel hstuck).cons ((hfuel hstuck).mem_of_sound hlater.ready.sound hc) hnew
          refine (outcome_collected hfind hnew hlater.ready hclass).imp (fun found q' h => ?_)
            fun e q' h => ?_
          · exact ⟨hlater.trans h.1, h.2⟩
          · exact ⟨hlater.trans h.1, h.2⟩
    · refine ⟨⟨hq, fun _ hd => hd⟩, fun classOf hd => ?_⟩
      obtain ⟨c, hc, huntangled, ha⟩ := hq.memo classOf hd t a hknown
      exact hc ▸ .ancestors huntangled ha

/-- **The ancestors of a type that must be resolvable.** -/
theorem collects_requireAncestors (hv : Reliable v W) (types : Finset ClassType)
    (hfuel : ¬ stuck → Suffices v W types fuel []) :
    Collects v W stuck (requireAncestors v fuel t) fun classOf => Tells classOf t := by
  rw [requireAncestors]
  refine (collects_ancestorsOf hv fuel [] t hfuel).bind (fun classOf e he => ?_) fun found => ?_
  · generalize hclass : classOf t = c? at he
    cases he with
    | cycle hmeets => exact .cycle hclass hmeets
  · cases found with
    | none => exact collects_fail fun classOf hnone => .unknown (eq_none_of_told hnone)
    | some a =>
      refine collects_pure fun classOf hfound => ?_
      generalize hclass : classOf t = c? at hfound
      cases hfound with
      | ancestors huntangled ha => exact .ancestors hclass huntangled ha

end Suffices

end Hierarchy

end Classpath

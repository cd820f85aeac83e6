import Classpath.Proofs.View.Settled

/-!
# What a view has loaded, as a table

Which class a type resolves to may be open until the type is resolved: stores depend on the world,
and a source that is listed need not be the one that is found. What a view has loaded is not open
any more. A table of classes **describes** a state of a view (`Classpath.View.Describes`) if it has
the class of every object that was built and no class for what no location has. The later the state,
the fewer tables describe it, since nothing that was built is taken back; so what holds for all
tables of a state holds for those of every later one.

* `Classpath.View.Reliable` – resolving does not fail, whatever listing does.
* `Classpath.View.Fixed` – a type has one class, and so there is one table for all states.
* `Classpath.View.Describes.of_next` – what is described later is described before.
* `Classpath.View.describes_table` – in a view that keeps everything the cached objects are such a
  table, if nothing is listed that no location has.
-/

namespace Classpath

/-! ### What runs fail with -/

namespace Run

variable {S ε α β : Type} {r : Run S ε α} {E : ε → Prop}

/-- What a run fails with is in `E`, wherever it begins. -/
def Fails (r : Run S ε α) (E : ε → Prop) : Prop :=
  ∀ s, r.Ends s (fun _ _ => True) fun e _ => E e

theorem fails_pure (a : α) : Fails (pure a : Run S ε α) E :=
  fun _ => trivial

theorem fails_fail {e : ε} (h : E e) : Fails (fail e : Run S ε α) E :=
  fun _ => h

theorem fails_step (f : S → α × S) : Fails (step f : Run S ε α) E :=
  fun _ => trivial

theorem fails_read (f : S → α) : Fails (read f : Run S ε α) E :=
  fun _ => trivial

theorem fails_change (f : S → S) : Fails (change f : Run S ε Unit) E :=
  fun _ => trivial

theorem Fails.bind {k : α → Run S ε β} (h : Fails r E) (hk : ∀ a, Fails (k a) E) :
    Fails (r >>= k) E := fun s =>
  outcome_bind.mpr ((h s).imp (fun a s' _ => hk a s') fun _ _ he => he)

theorem fails_forEach {f : α → Run S ε Unit} (h : ∀ a, Fails (f a) E) (l : List α) :
    Fails (forEach f l) E := by
  intro s
  refine (outcome_forEach (fun _ _ => True) (fun a _ s' _ => ?_) trivial).imp (fun _ _ _ => trivial)
    fun _ _ he => he
  exact (h a s').imp (fun _ _ _ => trivial) fun _ _ he => he

end Run

/-- The classes of the cached objects. -/
def ViewState.table {σ : Type} (s : ViewState σ) (t : ClassType) : Option ClassInfo :=
  (s.cache.find? t).bind s.info?

namespace View

variable {σ : Type} (v : View σ) (W : σ → Prop)

/-- An error that does not report a listing. -/
def NotScan (e : ResolveError) : Prop :=
  ∀ location cause, e ≠ .scan location cause

section Errors

variable {v} {res : ClassType → Action σ (Option Nat)} (hres : ∀ t, Run.Fails (res t) NotScan)

include hres

theorem fails_materialize (id i : Nat) (a : AnnotationUse ClassType) :
    Run.Fails (materialize res id a i) NotScan := by
  rw [materialize]
  refine (Run.fails_read _).bind fun o => ?_
  split
  · exact Run.fails_pure _
  · refine (hres a.type).bind fun answer => ?_
    cases answer with
    | none => exact (Run.fails_change _).bind fun _ => Run.fails_pure _
    | some id =>
      exact (Run.fails_read _).bind fun _ => (Run.fails_change _).bind fun _ => Run.fails_pure _

omit hres in
theorem fails_store (t : ClassType) (id : Nat) :
    Run.Fails (store t id : Action σ Unit) NotScan := by
  intro s
  rw [Run.Ends, Run.Outcome, store]
  rcases s.cache.insert t id with e | cache
  · rintro location cause ⟨⟩
  · trivial

theorem fails_build (l : Location σ) (src : Source σ) :
    Run.Fails (v.build res l src) NotScan := by
  rw [build]
  refine (Run.fails_step _).bind fun built => ?_
  rcases built with e | c
  · exact Run.fails_fail (by rintro location cause ⟨⟩)
  · refine (Run.fails_step _).bind fun id => (fails_store _ _).bind fun _ => ?_
    dsimp only
    split
    · refine Run.Fails.bind (Run.fails_forEach (fun x => ?_) _) fun _ => Run.fails_pure _
      exact (fails_materialize hres id x.2 x.1).bind fun _ => Run.fails_pure _
    · exact Run.fails_pure _

theorem fails_findIn (t : ClassType) : ∀ locations : List (Location σ),
    Run.Fails (v.findIn res t locations) NotScan
  | [] => Run.fails_pure _
  | l :: rest => by
    rw [findIn]
    refine (Run.fails_step _).bind fun found => ?_
    rcases found with e | _ | src
    · exact Run.fails_fail (by rintro location cause ⟨⟩)
    · exact fails_findIn t rest
    · exact (fails_build hres l src).bind fun _ => Run.fails_pure _

end Errors

/-- **Resolving does not report a listing**: it asks for none. -/
theorem fails_resolve : ∀ fuel t, Run.Fails (v.resolve fuel t) NotScan
  | 0, _ => fun _ => trivial
  | fuel + 1, t => by
    rw [resolve]
    refine (Run.fails_step _).bind fun held => ?_
    cases held with
    | none => exact fails_findIn (fails_resolve fuel) t _
    | some id => exact Run.fails_pure _

/-! ### Resolving that does not fail -/

/-- **A view whose look-ups and builds do not fail**, and whose locations answer for the type that
they are asked for: all that can go wrong is to list classes. -/
structure Reliable : Prop where
  steady : Steady v W
  fault : ∀ e, Fault v W e → ¬ NotScan e

/-- **What no location has when it is asked is never loaded**: no location lists it. -/
def NothingHidden : Prop :=
  ∀ t, Absent v W t → ∀ l src, Chosen v W l src → src.type ≠ t

/-- **A type has one class**, that of the table: every source of the type that is chosen, by looking
it up or in a listing, is loaded to that class, and what no location has when it is asked has
none. -/
structure Fixed (classOf : ClassType → Option ClassInfo) : Prop where
  type_eq : ∀ t c, classOf t = some c → c.type = t
  absent : ∀ t, Absent v W t → classOf t = none
  build : ∀ l src w c, Chosen v W l src → W w → (src.build (v.context l src) w).1 = .ok c →
    classOf src.type = some c

/-- **A table that describes a state**: it has the class of every object, and none for what no
location has. -/
structure Describes (s : ViewState σ) (classOf : ClassType → Option ClassInfo) : Prop where
  type_eq : ∀ t c, classOf t = some c → c.type = t
  built : ∀ id c, s.info? id = some c → classOf c.type = some c
  absent : ∀ t, Absent v W t → classOf t = none

variable {v W} {k : Nat} {stuck : Prop} {s s' : ViewState σ} {t : ClassType}
  {classOf : ClassType → Option ClassInfo}

theorem Reliable.type_eq_of_finds (hv : Reliable v W) {l : Location σ} {src : Source σ}
    (h : Finds v W t l src) : src.type = t := by
  by_contra hne
  exact hv.fault _ (.cache h hne) (by rintro location cause ⟨⟩)

/-- What is answered for a type has that type. -/
theorem Reliable.type_eq_of_answered (hv : Reliable v W) {u : ClassType} (h : Answered v W t u) :
    u = t := by
  rcases h with rfl | ⟨l, src, hfinds, rfl⟩
  · rfl
  · exact hv.type_eq_of_finds hfinds

/-- **What is described later is described before.** -/
theorem Describes.of_trace (h : Describes v W s' classOf) (htrace : Trace v W k s s') :
    Describes v W s classOf where
  type_eq := h.type_eq
  built id c hc := h.built id c (htrace.info? hc)
  absent := h.absent

/-- Along a session as well. -/
theorem Describes.of_next (hW : Steady v W) {r r' : Session σ} (hr : Reachable v W r)
    (hnext : Relation.ReflTransGen (Next v W) r r') (h : Describes v W r'.view classOf) :
    Describes v W r.view classOf where
  type_eq := h.type_eq
  built id c hc := by
    have hkept := next_invariant (I := fun s => s.info? id = some c) hW
      (fun _ _ _ hc hstep => hstep.info? hc) (fun _ _ hc _ => hc) (fun _ _ hc => hc) hnext
      (hr.sound hW).1 (hr.sound hW).2 hc
    exact h.built id c hkept.2.2
  absent := h.absent

/-- **Resolving does not fail.** -/
theorem Reliable.outcome_resolve (hv : Reliable v W) {n : Nat}
    (h : Runs v W k stuck (v.resolve n t) s (Answers v W t)) :
    (v.resolve n t).Outcome stuck s (fun answer s' => Trace v W 0 s s' ∧ Answers v W t answer s')
      fun _ _ => False :=
  (Run.Outcome.and (h.mono (Nat.zero_le k)) (fails_resolve v n t s)).imp (fun _ _ h' => h'.1)
    fun _ _ he => hv.fault _ he.1.2 he.2

/-! ### There are tables -/

/-- Where it is settled what a view resolves nothing fails. -/
theorem Settled.reliable (hv : Settled v W classOf) : Reliable v W where
  steady := hv.steady
  fault e he := absurd he (hv.not_fault e)

/-- What no location has is not in the table, and what is loaded is. -/
theorem Settled.nothingHidden (hv : Settled v W classOf) : NothingHidden v W := by
  rintro t habsent l src hchosen rfl
  have hsome := hv.isSome_of_chosen hchosen
  rw [hv.absent _ habsent] at hsome
  cases hsome

/-- **Where types have one class each, their table describes every state.** -/
theorem Fixed.describes (hone : Fixed v W classOf) (hs : Sound v W s) :
    Describes v W s classOf where
  type_eq := hone.type_eq
  built id c hc := by
    obtain ⟨l, src, w, hchosen, hw, hbuild⟩ := hs.loaded id c hc
    rw [Source.type_of_build hbuild]
    exact hone.build l src w c hchosen hw hbuild
  absent := hone.absent

/-- Where it is settled what a view resolves, that is the class of a type. -/
theorem Settled.fixed (hv : Settled v W classOf) : Fixed v W classOf where
  type_eq _ _ hc := hv.type_eq hc
  absent := hv.absent
  build := hv.build

theorem Settled.describes (hv : Settled v W classOf) (hs : Sound v W s) :
    Describes v W s classOf :=
  hv.fixed.describes hs

/-- What is cached for a type has that type. -/
theorem Sound.type_of_table (hs : Sound v W s) {c : ClassInfo} (hc : s.table t = some c) :
    c.type = t := by
  obtain ⟨id, hid, hc⟩ := Option.bind_eq_some_iff.mp hc
  obtain ⟨d, hd, htype⟩ := hs.held t id hid
  rwa [Option.some.inj (hc.symm.trans hd)]

/-- **In a view that keeps everything the cached objects are a table.** -/
theorem describes_table (hself : v.project.SelfTyped) (hW : Steady v W)
    (hhidden : NothingHidden v W) (hfull : v.options.policy = .full) {r : Session σ}
    (hr : Reachable v W r) : Describes v W r.view r.view.table where
  type_eq t c hc := (hr.sound hW).1.type_of_table hc
  built id c hc := by
    rw [ViewState.table, hr.onePerClass hself hfull hW id c hc, Option.bind_some, hc]
  absent t habsent := by
    rw [ViewState.table]
    rcases hid : r.view.cache.find? t with _ | id
    · rfl
    -- what is cached was chosen from a location, and nothing that is chosen is hidden
    · obtain ⟨c, hc, htype⟩ := (hr.sound hW).1.held t id hid
      obtain ⟨l, src, w, hchosen, -, hbuild⟩ := (hr.sound hW).1.loaded id c hc
      have hchosenType : src.type = t := (Source.type_of_build hbuild).symm.trans htype
      exact absurd hchosenType (hhidden t habsent l src hchosen)

end View

end Classpath

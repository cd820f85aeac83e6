import Classpath.Proofs.View.Finite
import Mathlib.Data.Option.Basic
import Mathlib.Data.Set.Finite.Basic

/-!
# Views that always answer

Nothing can go wrong in a view whose stores do not fail, and it is settled what it resolves if
moreover the sources that are chosen for a type are always loaded to the same class. This asks less
of a project than to be coherent: looking a type up and listing types need not tell the same story,
as long as they do not contradict each other. A location may have types that it does not list.

With an unbounded cache such a view always answers if it can resolve only finitely many types, for
then resolving ends (`Classpath.View.runs_resolve_finite`).

* `Classpath.View.Settled` – such a view, with its table of classes.
* `Classpath.View.Settled.halts_resolve`, `Classpath.View.Settled.halts_resolveAll` – it answers,
  and with what the table has.
-/

namespace Classpath

namespace View

variable {σ : Type} (v : View σ) (W : σ → Prop) (classOf : ClassType → Option ClassInfo)

/-- **It is settled what a view resolves.** Nothing goes wrong in its worlds, a type that no
location has is not in the table `classOf`, and what is chosen is loaded to the class that the table
has. -/
structure Settled : Prop where
  steady : Steady v W
  exists_world : ∃ w, W w
  not_fault : ∀ e, ¬ Fault v W e
  absent : ∀ t, Absent v W t → classOf t = none
  build : ∀ l src w c, Chosen v W l src → W w → (src.build (v.context l src) w).1 = .ok c →
    classOf src.type = some c

/-- A location lists a type, whenever it is read. -/
def Listed (t : ClassType) : Prop :=
  ∃ l ∈ v.project.locations, ∀ entries, Lists v W l entries →
    ∃ src, .ok src ∈ entries ∧ src.type = t

/-- Every type that is listed is cached. -/
def HoldsListed (s : ViewState σ) : Prop :=
  ∀ t, Listed v W t → (s.cache.find? t).isSome

/-- The answer is an object of the class, or none where there is no class. -/
abbrev Gives (s : ViewState σ) (answer : Option Nat) (c : Option ClassInfo) : Prop :=
  Option.Rel (fun id c => s.info? id = some c) answer c

variable {v W classOf} {k : Nat} {stuck : Prop} {s s' : ViewState σ} {t : ClassType}

/-- In a coherent project whose classes can be loaded it is settled what a view resolves. -/
theorem Loads.settled {cat : v.project.Catalog} (hl : Loads cat classOf) :
    Settled v cat.steady classOf where
  steady := steady_catalog cat
  exists_world := cat.exists_steady
  not_fault _ := hl.not_fault
  absent t h := hl.absent t ((absent_iff cat).mp h)
  build _ _ _ _ hchosen hw hbuild := hl.of_build hchosen hw hbuild

/-- In a coherent project the types that can be resolved are listed. -/
theorem Loads.listed {cat : v.project.Catalog} (hl : Loads cat classOf)
    (h : (classOf t).isSome) : Listed v cat.steady t := by
  obtain ⟨l, hmem, src, hsrc, htype⟩ := Project.Catalog.mem_types.mp (hl.isSome_iff.mp h)
  refine ⟨l, hmem, fun entries hlists => ⟨src, ?_, htype⟩⟩
  rw [Lists.eq cat hmem hlists]
  exact List.mem_map_of_mem hsrc

/-- In a coherent project there are finitely many of them. -/
theorem Loads.finite {cat : v.project.Catalog} (hl : Loads cat classOf) :
    {t | (classOf t).isSome}.Finite :=
  cat.types.finite_toSet.subset fun _ ht => hl.isSome_iff.mp ht

/-! ### The table -/

section Settled

variable (hv : Settled v W classOf)

include hv

/-- A location that answers otherwise than for the type it was asked for has the cache refuse the
class. -/
theorem Settled.type_eq_of_finds {l : Location σ} {src : Source σ} (h : Finds v W t l src) :
    src.type = t := by
  by_contra hne
  exact hv.not_fault _ (.cache h hne)

/-- A type is found, or no location has it. -/
theorem Settled.exists_finds (h : ¬ Absent v W t) : ∃ l src, Finds v W t l src := by
  by_contra hnone
  push Not at hnone
  refine h ?_
  -- the locations answer one after the other that they do not have the type
  have hbefore : ∀ after before, v.project.locations = before ++ after →
      (∀ m ∈ before, ∃ w, W w ∧ (m.find t w).1 = .ok none) →
      ∀ m ∈ after, ∃ w, W w ∧ (m.find t w).1 = .ok none := by
    intro after
    induction after with
    | nil => simp
    | cons l after ih =>
      intro before hsplit hbefore
      obtain ⟨w, hw⟩ := hv.exists_world
      have hl : ∃ w, W w ∧ (l.find t w).1 = .ok none := by
        refine ⟨w, hw, ?_⟩
        rcases hfind : (l.find t w).1 with e | _ | src
        · exact absurd (.lookup (by simp [hsplit]) hw hfind) (hv.not_fault _)
        · rfl
        · exact absurd ⟨before, after, hsplit, hbefore, w, hw, hfind⟩ (hnone l src)
      have hrest := ih (before ++ [l]) (by simp [hsplit]) (by
        simpa [or_imp, forall_and] using ⟨hbefore, hl⟩)
      exact List.forall_mem_cons.mpr ⟨hl, hrest⟩
  exact fun m hm => hbefore _ [] rfl (by simp) m hm

/-- What the table has for a type has that type. -/
theorem Settled.type_eq {c : ClassInfo} (hc : classOf t = some c) : c.type = t := by
  have hpresent : ¬ Absent v W t := fun habsent => by
    rw [hv.absent t habsent] at hc
    cases hc
  obtain ⟨l, src, hfinds⟩ := hv.exists_finds hpresent
  obtain ⟨w, hw⟩ := hv.exists_world
  have hchosen : Chosen v W l src := .inl ⟨t, hfinds⟩
  have htype := hv.type_eq_of_finds hfinds
  rcases hbuild : (src.build (v.context l src) w).1 with e | d
  · exact absurd (.build hchosen hw hbuild) (hv.not_fault _)
  · have hd := hv.build l src w d hchosen hw hbuild
    rw [htype, hc] at hd
    rw [Option.some.inj hd, Source.type_of_build hbuild, htype]

/-- Every object is the class that the table has for its type. -/
theorem Settled.of_sound (hs : Sound v W s) {id : Nat} {c : ClassInfo} (hc : s.info? id = some c) :
    classOf c.type = some c := by
  obtain ⟨l, src, w, hchosen, hw, hbuild⟩ := hs.loaded id c hc
  rw [Source.type_of_build hbuild]
  exact hv.build l src w c hchosen hw hbuild

/-- **An answer is what the table has.** -/
theorem Settled.gives (hs : Sound v W s) {answer : Option Nat} (h : Answers v W t answer s) :
    Gives s answer (classOf t) := by
  cases answer with
  | none => exact hv.absent t h ▸ .none
  | some id =>
    obtain ⟨c, hc, hanswered⟩ := h
    have htype : c.type = t := by
      rcases hanswered with htype | ⟨l, src, hfinds, htype⟩
      · exact htype
      · exact htype.symm.trans (hv.type_eq_of_finds hfinds)
    rw [← htype, hv.of_sound hs hc]
    exact .some hc

end Settled

/-! ### Resolving ends -/

variable {hfinite : {t | (classOf t).isSome}.Finite}

/-- A source that is chosen is loaded to a class of the table. -/
theorem Settled.isSome_of_chosen (hv : Settled v W classOf) {l : Location σ} {src : Source σ}
    (hchosen : Chosen v W l src) : (classOf src.type).isSome := by
  obtain ⟨w, hw⟩ := hv.exists_world
  rcases hbuild : (src.build (v.context l src) w).1 with e | c
  · exact absurd (.build hchosen hw hbuild) (hv.not_fault _)
  · rw [hv.build l src w c hchosen hw hbuild]
    rfl

/-- **Resolving ends** if the fuel exceeds the number of types that the table has. -/
theorem Settled.runs_resolve (hv : Settled v W classOf) (hfull : v.options.policy = .full)
    {n : Nat} (hs : Sound v W s) (hw : W s.world) (hn : hfinite.toFinset.card < n) :
    Runs v W s.built.size False (v.resolve n t) s (Answers v W t) :=
  runs_resolve_finite hfull hv.steady
    (fun _ _ hchosen => hfinite.mem_toFinset.mpr (hv.isSome_of_chosen hchosen)) hs hw
    (unbuilt_le.trans_lt hn)

/-- What resolving amounts to where nothing goes wrong. -/
theorem Settled.outcome_of_runs (hv : Settled v W classOf) (hs : Sound v W s)
    {r : Action σ (Option Nat)} (h : Runs v W k stuck r s (Answers v W t)) :
    r.Outcome stuck s (fun answer s' => Trace v W 0 s s' ∧ Gives s' answer (classOf t))
      fun _ _ => False :=
  Run.Outcome.imp (h.mono (Nat.zero_le k))
    (fun _ _ h' => ⟨h'.1, hv.gives (Trace.sound h'.1 hs) h'.2⟩) fun _ _ he => hv.not_fault _ he.2

/-- **A type resolves to what the table has.** -/
theorem Settled.halts_resolve (hv : Settled v W classOf) (hfull : v.options.policy = .full)
    (hs : Sound v W s) (hw : W s.world) {n : Nat} (hn : hfinite.toFinset.card < n) :
    (v.resolve n t).Halts s (fun answer s' => Trace v W 0 s s' ∧ Gives s' answer (classOf t))
      fun _ _ => False :=
  hv.outcome_of_runs hs (hv.runs_resolve hfull hs hw hn)

/-! ### Listing ends -/

variable (v W) in
/-- **The state of a view that keeps everything**: once every location was scanned, everything that
is listed is cached. -/
structure Stocked (s : ViewState σ) : Prop where
  sound : Sound v W s
  world : W s.world
  holds : s.complete = true → HoldsListed v W s

theorem stocked_start {w : σ} (hw : W w) : Stocked v W (v.start w) where
  sound := sound_start w
  world := hw
  holds h := by cases h

/-- Steps keep everything. -/
theorem Stocked.of_trace (hfull : v.options.policy = .full) (hW : Steady v W) (h : Stocked v W s)
    (htrace : Trace v W k s s') : Stocked v W s' where
  sound := Trace.sound htrace h.sound
  world := hW.trace htrace h.world
  holds hcomplete t ht :=
    htrace.held_isSome hfull h.sound (h.holds (htrace.complete_eq ▸ hcomplete) t ht)

/-- **Listing every class** leaves everything cached that is listed. -/
theorem runs_resolveAll_held (hfull : v.options.policy = .full) (hW : Steady v W)
    (h : Stocked v W s) {n : Nat} (hres : ∀ t s, Sound v W s → W s.world →
      Runs v W s.built.size stuck (v.resolve n t) s (Answers v W t)) :
    (v.resolveAll n).Outcome stuck s
      (fun ids s' => Stocked v W s' ∧ HoldsListed v W s' ∧ ids = sortedObjects s')
      fun e s' => Stocked v W s' ∧ Fault v W e := by
  have hrun : RunsAll v W s.built.size stuck (v.resolveAll n) s (HoldsListed v W) := by
    refine runs_resolveAll (scanRule_held hfull hW hres) hW h.world
      (fun _ => ⟨⟨h.sound, le_rfl⟩, by simp⟩) h.holds fun seen s' hI hlisted t ht => ?_
    obtain ⟨l, hl, hread⟩ := ht
    obtain ⟨entries, hlists, hcovers⟩ := hlisted l hl
    obtain ⟨src, hsrc, rfl⟩ := hread entries hlists
    exact hI.2 src.type (hcovers src hsrc)
  refine Run.Outcome.imp hrun (fun ids s' h' => ?_) fun _ s' he => ⟨h.of_trace hfull hW he.1, he.2⟩
  obtain ⟨htrace, rfl, hheld⟩ := h'
  exact ⟨⟨Trace.sound htrace (h.sound.marked true), hW.trace htrace h.world, fun _ => hheld⟩, hheld,
    rfl⟩

/-- **Every class is listed**, and nothing goes wrong. -/
theorem Settled.halts_resolveAll (hv : Settled v W classOf) (hfull : v.options.policy = .full)
    (h : Stocked v W s) {n : Nat} (hn : hfinite.toFinset.card < n) :
    (v.resolveAll n).Halts s
      (fun ids s' => Stocked v W s' ∧ HoldsListed v W s' ∧ ids = sortedObjects s')
      fun _ _ => False := by
  refine (runs_resolveAll_held hfull hv.steady h fun t s hs hw => ?_).imp (fun _ _ h => h)
    fun e _ he => hv.not_fault e he.2
  exact hv.runs_resolve hfull hs hw hn

end View

end Classpath

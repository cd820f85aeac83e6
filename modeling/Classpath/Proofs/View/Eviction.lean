import Classpath.Proofs.Store.Memory
import Classpath.Proofs.Termination

/-!
# When eviction can be noticed

A cache with a capacity gives classes up, and they are built again when they are asked for. In a
coherent project whose classes can be loaded this cannot be seen in an answer: it is what the table
of classes has. But it can be seen in whether there is an answer at all. An annotation type has the
annotations on it looked at as soon as it is cached; that resolves further types, and these may push
out the class that is just being resolved. If one of them asks for it again, it is built again, and
so on forever.

What decides is a relation between types, `Classpath.View.Pulls`: resolving one annotation type
resolves another. A type's annotations with itself do not count as long as nothing else was resolved
before them, for then it is still cached. Eviction goes unnoticed exactly if this relation has no
cycle (`Classpath.View.eviction_unnoticed_iff`).

* If there is no cycle, every run ends, by induction along the relation; the capacity, the state of
  the cache and the order in which it gives classes up play no role.
* If there is one, a cache of capacity 1 does not get around it: a run that ends on a type of the
  cycle contains a shorter run on the next one (`Classpath.View.runs_miss`).
-/

namespace Classpath

namespace View

variable {σ : Type}

/-! ### Which types pull in which -/

variable (classOf : ClassType → Option ClassInfo)

/-- The annotation `a` of the type `t`, after the annotations `before`, has its type resolved when
`t` may have been given up: its type can be resolved, and it is not `t` itself, or another type was
resolved before. -/
def Counts (t : ClassType) (before : List (AnnotationUse ClassType))
    (a : AnnotationUse ClassType) : Prop :=
  (classOf a.type).isSome ∧
    (a.type ≠ t ∨ ∃ b ∈ before, b.type ≠ t ∧ (classOf b.type).isSome)

/-- **Resolving `t` resolves `u`**, on account of an annotation that counts. Only annotation types
have theirs looked at. -/
def Pulls (t u : ClassType) : Prop :=
  ∃ c before a after, classOf t = some c ∧ c.eagerAnnotations = before ++ a :: after ∧
    a.type = u ∧ Counts classOf t before a

variable {classOf}

variable (classOf) in
/-- Nothing was resolved but the type `t` itself. -/
def Quiet (t : ClassType) (before : List (AnnotationUse ClassType)) : Prop :=
  ∀ b ∈ before, b.type = t ∨ classOf b.type = none

theorem Counts.not_quiet {t : ClassType} {before : List (AnnotationUse ClassType)}
    {a : AnnotationUse ClassType} (h : Counts classOf t before a) :
    ¬ Quiet classOf t (before ++ [a]) := by
  obtain ⟨hsome, hcounts⟩ := h
  intro hquiet
  rcases hcounts with hne | ⟨b, hb, hne, hb'⟩
  · rcases hquiet a (by simp) with heq | hnone
    · exact hne heq
    · rw [hnone] at hsome
      cases hsome
  · rcases hquiet b (by simp [hb]) with heq | hnone
    · exact hne heq
    · rw [hnone] at hb'
      cases hb'

/-- An annotation that does not count cannot be resolved, or it is one of the type itself and
nothing was resolved before. -/
theorem not_counts {t : ClassType} {before : List (AnnotationUse ClassType)}
    {a : AnnotationUse ClassType} (h : ¬ Counts classOf t before a) :
    classOf a.type = none ∨ a.type = t ∧ Quiet classOf t before := by
  rcases hclass : classOf a.type with _ | c
  · exact .inl rfl
  · refine .inr ?_
    by_contra hno
    refine h ⟨by rw [hclass]; rfl, ?_⟩
    by_contra hneither
    rw [not_or, not_not] at hneither
    refine hno ⟨hneither.1, fun b hb => ?_⟩
    by_contra hb'
    rw [not_or] at hb'
    exact hneither.2 ⟨b, hb, hb'.1, Option.isSome_iff_ne_none.mpr hb'.2⟩

variable {v : View σ} {cat : v.project.Catalog} {k : Nat} {stuck : Prop} {s : ViewState σ}

/-- Resolving a type that is cached, or that nobody has, leaves what is cached as it is. -/
theorem runs_resolve_idle (hl : Loads cat classOf) (hs : Sound v cat.steady s)
    (hw : cat.steady s.world) {n : Nat} {t : ClassType}
    (hidle : (s.cache.find? t).isSome ∨ classOf t = none) :
    Runs v cat.steady k stuck (v.resolve (n + 1) t) s fun answer s' =>
      Answers v cat.steady t answer s' ∧ ∀ u, s'.cache.find? u = s.cache.find? u := by
  refine runs_resolve_succ (steady_catalog cat) hw
    (fun id hid => ⟨hs.answers hid _, fun u => Cache.find?_get⟩)
    (fun _ habsent _ _ => ⟨habsent, fun _ => rfl⟩) fun hnone l src w hfinds hw' => ?_
  have hclass : classOf t = none := hidle.resolve_left (by simp [hnone])
  obtain ⟨c, hc, -⟩ := hl.build t l src w (hfinds.provider cat) hw'
  rw [hclass] at hc
  cases hc

/-! ### Without a cycle every run ends -/

/-- **Where pulling ends, resolving ends**, in whatever state and with whatever cache. -/
theorem exists_runs_resolve (hl : Loads cat classOf) {t : ClassType}
    (hacc : Acc (fun u t => Pulls classOf t u) t) :
    ∃ n, ∀ m, n ≤ m → ∀ s, Sound v cat.steady s → cat.steady s.world →
      Runs v cat.steady s.built.size False (v.resolve m t) s (Answers v cat.steady t) := by
  have hW := steady_catalog cat
  induction hacc with
  | intro t _ ih =>
    -- fuel for everything that the annotations of the type pull in
    obtain ⟨n, hn⟩ : ∃ n, ∀ a ∈ (classOf t).elim [] (·.eagerAnnotations), ∀ m, n ≤ m →
        Pulls classOf t a.type → ∀ s, Sound v cat.steady s → cat.steady s.world →
        Runs v cat.steady s.built.size False (v.resolve m a.type) s
          (Answers v cat.steady a.type) := by
      refine exists_bound _ fun a _ => ?_
      by_cases hpulls : Pulls classOf t a.type
      · obtain ⟨n, hn⟩ := ih a.type hpulls
        exact ⟨n, fun m hm _ => hn m hm⟩
      · exact ⟨0, fun m _ h => absurd h hpulls⟩
    refine ⟨n + 2, fun m hm s hs hw => ?_⟩
    obtain ⟨m, rfl⟩ : ∃ m', m = m' + 2 := ⟨m - 2, by omega⟩
    refine runs_resolve_succ hW hw (fun id hid => hs.answers hid _) (fun _ h _ _ => h)
      fun hnone l src w hfinds hw' => ?_
    obtain rfl : src.type = t := hfinds.type_of_catalog cat
    -- the type is cached until something that counts was resolved
    refine (runs_build (I := fun _ done s' => Quiet classOf src.type (done.map Prod.fst) →
      (s'.cache.find? src.type).isSome) hW (hs.inWorld w) hw' (.inl ⟨_, hfinds⟩) (.inl hnone)
      (fun c w' _ _ _ => ?_) fun c done a i rest s' hbuild heager _ hs' hw'' hI => ?_).imp
        fun id s' _ h => ?_
    · change ((s.cache.push src.type s.built.size).find? src.type).isSome
      rw [hs.kept.find?_push_self]
      rfl
    · have hclass : classOf src.type = some c := hl.of_build (.inl ⟨_, hfinds⟩) hw' hbuild
      have hsplit := ClassInfo.eagerAnnotations_of_eager heager
      simp only [List.map_append, List.map_cons, List.map_nil]
      by_cases hcounts : Counts classOf src.type (done.map Prod.fst) a
      · have hmem : a ∈ (classOf src.type).elim [] (·.eagerAnnotations) := by simp [hclass, hsplit]
        have hpulls : Pulls classOf src.type a.type :=
          ⟨c, done.map Prod.fst, a, rest.map Prod.fst, hclass, hsplit, rfl, hcounts⟩
        exact (hn a hmem (m + 1) (by omega) hpulls s' hs' hw'').imp fun _ _ _ h =>
          ⟨h, fun _ hquiet => absurd hquiet hcounts.not_quiet⟩
      · have hidle : (s'.cache.find? a.type).isSome ∨ classOf a.type = none := by
          rcases not_counts hcounts with hnone | ⟨htype, hquiet⟩
          · exact .inr hnone
          · exact .inl (htype ▸ hI hquiet)
        refine (runs_resolve_idle hl hs' hw'' hidle).imp fun _ s₁ _ h => ⟨h.1, fun _ hquiet => ?_⟩
        change (s₁.cache.find? src.type).isSome
        rw [h.2]
        exact hI fun b hb => hquiet b (List.mem_append_left _ hb)
    · obtain ⟨c, hc, hid, -⟩ := h
      exact hfinds.answers hc hid

/-! ### With a cycle a cache for one class does not do -/

variable (v cat) in
/-- Some run that ends resolves `t` with fuel `n` where `t` is not cached. -/
def Misses (n : Nat) (t : ClassType) : Prop :=
  ∃ s, Sound v cat.steady s ∧ cat.steady s.world ∧ s.cache.find? t = none ∧
    (v.resolve n t s).isSome

variable (classOf cat) in
/-- **While the annotations of `t` are looked at**, `done` so far, with fuel `n` in a cache for one
class: what counts was missed with less fuel, and so was all that is cached, unless nothing was
resolved but `t` itself. -/
structure Missed (n : Nat) (t : ClassType) (done : List (AnnotationUse ClassType))
    (s : ViewState σ) : Prop where
  counted : ∀ before b after, done = before ++ b :: after → Counts classOf t before b →
    ∃ m < n, Misses v cat m b.type
  cached : (Quiet classOf t done ∧ ∀ u, (s.cache.find? u).isSome → u = t) ∨
    ∀ u, (s.cache.find? u).isSome → ∃ m < n, Misses v cat m u

section Missed

variable {n : Nat} {t : ClassType} {done : List (AnnotationUse ClassType)}
  {a : AnnotationUse ClassType} {s' : ViewState σ}

/-- What counts among one annotation more. -/
theorem Missed.counted_concat (h : Missed classOf cat n t done s)
    (ha : Counts classOf t done a → ∃ m < n, Misses v cat m a.type) :
    ∀ before b after, done ++ [a] = before ++ b :: after → Counts classOf t before b →
      ∃ m < n, Misses v cat m b.type := by
  intro before b after hsplit hcounts
  rcases List.eq_nil_or_concat after with rfl | ⟨init, last, rfl⟩
  · obtain ⟨rfl, hab⟩ := List.append_inj' hsplit rfl
    obtain rfl : a = b := by simpa using hab
    exact ha hcounts
  · have hassoc : before ++ b :: init.concat last = (before ++ b :: init) ++ [last] := by simp
    rw [hassoc] at hsplit
    exact h.counted before b init (List.append_inj' hsplit rfl).1 hcounts

/-- An annotation whose type is cached, or has no class, changes nothing. If it counts, its type is
cached besides `t`, and so it was missed. -/
theorem Missed.idle (h : Missed classOf cat n t done s)
    (hidle : (s.cache.find? a.type).isSome ∨ classOf a.type = none)
    (hcache : ∀ u, s'.cache.find? u = s.cache.find? u) :
    Missed classOf cat n t (done ++ [a]) s' := by
  have hquiet : (Quiet classOf t done ∧ ∀ u, (s.cache.find? u).isSome → u = t) →
      Quiet classOf t (done ++ [a]) := by
    rintro ⟨hquiet, hself⟩ b hb
    rcases List.mem_append.mp hb with hb | hb
    · exact hquiet b hb
    · obtain rfl := List.mem_singleton.mp hb
      exact hidle.imp (hself b.type) id
  refine ⟨h.counted_concat fun hcounts => ?_, ?_⟩
  · rcases h.cached with hleft | hmissed
    · exact absurd (hquiet hleft) hcounts.not_quiet
    · have hheld := hidle.resolve_right (Option.isSome_iff_ne_none.mp hcounts.1)
      exact hmissed a.type hheld
  · simp only [hcache]
    exact h.cached.imp (fun hleft => ⟨hquiet hleft, hleft.2⟩) id

/-- An annotation whose type was missed: only what that run left is cached. -/
theorem Missed.concat (h : Missed classOf cat n t done s) {m : Nat} (hm : m < n)
    (hmisses : Misses v cat m a.type)
    (hcache : ∀ u, (s'.cache.find? u).isSome → ∃ j ≤ m, Misses v cat j u) :
    Missed classOf cat n t (done ++ [a]) s' := by
  refine ⟨h.counted_concat fun _ => ⟨m, hm, hmisses⟩, .inr fun u hu => ?_⟩
  obtain ⟨j, hj, hmisses'⟩ := hcache u hu
  exact ⟨j, by omega, hmisses'⟩

end Missed

/-- **A run that ends on a type contains shorter ones on all that it pulls in**, if the cache holds
one class only. A type that is pulled in is not cached at its turn, unless an earlier run brought it
there; so the types that are cached in between have been missed before as well. -/
theorem runs_miss (hl : Loads cat classOf) (hone : v.options.policy.capacity? = some 1) :
    ∀ n t s, Sound v cat.steady s → cat.steady s.world → s.cache.find? t = none →
      (classOf t).isSome →
      Runs v cat.steady s.built.size True (v.resolve n t) s fun answer s' =>
        Answers v cat.steady t answer s' ∧ Misses v cat n t ∧
          (∀ u, Pulls classOf t u → ∃ m < n, Misses v cat m u) ∧
          ∀ u, (s'.cache.find? u).isSome → ∃ m ≤ n, Misses v cat m u
  | 0, _, _, _, _, _, _ => trivial
  | n + 1, t, s, hs, hw, hnone, hclass => by
    by_cases hends : (v.resolve (n + 1) t s).isSome
    swap
    · rw [Runs, Run.Outcome, Option.not_isSome_iff_eq_none.mp hends]
      trivial
    have hmiss : Misses v cat (n + 1) t := ⟨s, hs, hw, hnone, hends⟩
    refine runs_resolve_succ (steady_catalog cat) hw (fun id hid => ?_) (fun _ habsent w hw' => ?_)
      fun _ l src w hfinds hw' => ?_
    · rw [hnone] at hid
      cases hid
    · rw [hl.absent t ((absent_iff cat).mp habsent)] at hclass
      cases hclass
    obtain rfl : src.type = t := hfinds.type_of_catalog cat
    refine (runs_build
      (I := fun _ done s' => Missed classOf cat (n + 1) src.type (done.map Prod.fst) s')
      (steady_catalog cat) (hs.inWorld w) hw' (.inl ⟨_, hfinds⟩) (.inl hnone)
      (fun c w' _ _ => ?_) fun c done a i rest s' _ _ _ hs' hw'' hI => ?_).imp
        fun id s' _ h => ?_
    · refine ⟨by simp, .inl ⟨by simp [Quiet], fun u hu => ?_⟩⟩
      exact Cache.eq_of_find?_push_isSome (by rw [hs.policy, hone]) hu
    · simp only [List.map_append, List.map_cons, List.map_nil]
      by_cases hidle : (s'.cache.find? a.type).isSome ∨ classOf a.type = none
      · rcases n with _ | n
        · trivial
        exact (runs_resolve_idle hl hs' hw'' hidle).imp fun _ s₁ _ h =>
          ⟨h.1, fun _ => hI.idle hidle h.2⟩
      · rw [not_or, Option.not_isSome_iff_eq_none] at hidle
        exact (runs_miss hl hone n a.type s' hs' hw'' hidle.1
          (Option.isSome_iff_ne_none.mpr hidle.2)).imp fun _ s₁ _ h =>
            ⟨h.1, fun _ => hI.concat (Nat.lt_succ_self n) h.2.1 h.2.2.2⟩
    · obtain ⟨c, hc, hid, hdone⟩ := h
      refine ⟨hfinds.answers hc hid, hmiss, ?_, fun u hu => ?_⟩
      · rintro u ⟨c', before, a, after, hc', hsplit, rfl, hcounts⟩
        obtain rfl : c = c' :=
          Option.some.inj ((hl.of_build (.inl ⟨_, hfinds⟩) hw' hc).symm.trans hc')
        exact hdone.counted before a after hsplit hcounts
      · rcases hdone.cached with ⟨-, hself⟩ | hmissed
        · exact ⟨n + 1, le_rfl, hself u hu ▸ hmiss⟩
        · obtain ⟨m, hm, hmisses⟩ := hmissed u hu
          exact ⟨m, by omega, hmisses⟩

/-- **On a cycle no run ends**: it would contain ever shorter ones. -/
theorem not_misses_of_cycle (hl : Loads cat classOf)
    (hone : v.options.policy.capacity? = some 1) (n : Nat) :
    ∀ t, Relation.TransGen (Pulls classOf) t t → ¬ Misses v cat n t := by
  induction n using Nat.strong_induction_on with
  | _ n ih =>
    rintro t hcycle ⟨s, hs, hw, hnone, hends⟩
    obtain ⟨u, hpulls, hback⟩ := Relation.TransGen.head'_iff.mp hcycle
    have hclass : (classOf t).isSome := by
      obtain ⟨c, -, -, -, hc, -⟩ := hpulls
      rw [hc]
      rfl
    obtain ⟨⟨x, s'⟩, hrun⟩ := Option.isSome_iff_exists.mp hends
    have hmiss := runs_miss hl hone n t s hs hw hnone hclass
    cases x with
    | error e => exact hl.not_fault (Run.Outcome.error hmiss hrun).2
    | ok answer =>
      obtain ⟨-, -, -, hpulled, -⟩ := Run.Outcome.ok hmiss hrun
      obtain ⟨m, hm, hmisses⟩ := hpulled u hpulls
      exact ih m hm u (Relation.TransGen.tail' hback hpulls) hmisses

/-! ### The exact condition -/

/-- **Without a cycle pulling ends**, since only the types in the table pull anything in. -/
theorem acc_pulls (hl : Loads cat classOf)
    (hacyclic : ∀ t, ¬ Relation.TransGen (Pulls classOf) t t) (t : ClassType) :
    Acc (fun u t => Pulls classOf t u) t := by
  have hpulled : ∀ {t u}, Pulls classOf t u → u ∈ cat.types := by
    rintro t u ⟨c, _, a, _, _, _, rfl, hcounts⟩
    exact hl.isSome_iff.mp hcounts.1
  refine acc_of_acyclic ((cat.types.finite_toSet.insert t).subset fun u hu => ?_)
    fun u _ => hacyclic u
  rcases hu.cases_tail with rfl | ⟨_, -, hpulls⟩
  · exact Set.mem_insert _ _
  · exact Set.mem_insert_of_mem _ (hpulled hpulls)

variable (v cat) in
/-- **Eviction goes unnoticed**: with any capacity, in whatever states the view and a view that
keeps everything are, resolving ends for both with the same class or for both with none. -/
def EvictionUnnoticed : Prop :=
  ∀ capacity (h : 0 < capacity) s f,
    Reachable (v.withPolicy (.lru capacity h)) cat.steady s →
    Reachable (v.withPolicy .full) cat.steady f →
    ∀ t, ∃ n, ∀ fuel, n ≤ fuel → ∃ a s' b f',
      (Call.resolve t).run (v.withPolicy (.lru capacity h)) fuel s = some (.ok a, s') ∧
      (Call.resolve t).run (v.withPolicy .full) fuel f = some (.ok b, f') ∧
      a.bind s'.view.info? = b.bind f'.view.info?

/-- **Where pulling ends, the call answers** with what the table has. -/
theorem exists_call_resolve (hl : Loads cat classOf) {t : ClassType}
    (hacc : Acc (fun u t => Pulls classOf t u) t) :
    ∃ n, ∀ fuel, n ≤ fuel → ∀ s, Reachable v cat.steady s → ∃ a s',
      (Call.resolve t).run v fuel s = some (.ok a, s') ∧ a.bind s'.view.info? = classOf t := by
  obtain ⟨n, hn⟩ := exists_runs_resolve hl hacc
  refine ⟨n, fun fuel hfuel s hs => ?_⟩
  obtain ⟨hsound, hw⟩ := hs.sound (steady_catalog cat)
  have hhalts : (onView (v.resolve fuel t)).Halts s
      (fun a s' => a.bind s'.view.info? = classOf t) fun _ _ => False := by
    refine Run.outcome_zoom.mpr (Run.Outcome.imp (hn fuel hfuel s.view hsound hw) ?_ ?_)
    · exact fun a s' h => h.2.eq_classOf hl (Trace.sound h.1 hsound)
    · exact fun e s' h => hl.not_fault h.2
  obtain ⟨x, s', hrun, hok, herror⟩ := hhalts.exists
  cases x with
  | error e => exact (herror e rfl).elim
  | ok a => exact ⟨a, s', hrun, hok a rfl⟩

/-- **On a cycle a view with room for one class never answers.** -/
theorem call_resolve_eq_none (hl : Loads cat classOf) (hone : v.options.policy.capacity? = some 1)
    {t : ClassType} (hcycle : Relation.TransGen (Pulls classOf) t t) {w : σ} (hw : cat.steady w)
    (fuel : Nat) : (Call.resolve t).run v fuel (v.fresh w) = none := by
  have hnone : v.resolve fuel t (v.start w) = none := by
    by_contra hsome
    exact not_misses_of_cycle hl hone fuel t hcycle
      ⟨v.start w, sound_start w, hw, rfl, Option.isSome_iff_ne_none.mpr hsome⟩
  simp [Call.run, onView, Run.zoom, fresh, hnone]

/-- **Eviction goes unnoticed exactly if nothing pulls itself in.** -/
theorem eviction_unnoticed_iff (hl : Loads cat classOf) :
    EvictionUnnoticed v cat ↔ ∀ t, ¬ Relation.TransGen (Pulls classOf) t t := by
  constructor
  · intro hunnoticed t hcycle
    obtain ⟨w, hw⟩ := cat.exists_steady
    obtain ⟨n, hn⟩ := hunnoticed 1 Nat.one_pos _ _ (reachable_fresh hw) (reachable_fresh hw) t
    obtain ⟨a, s', -, -, hrun, -⟩ := hn n le_rfl
    rw [call_resolve_eq_none (hl.withPolicy (.lru 1 Nat.one_pos)) rfl hcycle hw] at hrun
    cases hrun
  · intro hacyclic capacity hpos s f hs hf t
    have hacc := acc_pulls hl hacyclic t
    obtain ⟨n, hn⟩ := exists_call_resolve (hl.withPolicy (.lru capacity hpos)) hacc
    obtain ⟨n', hn'⟩ := exists_call_resolve (hl.withPolicy .full) hacc
    refine ⟨max n n', fun fuel hfuel => ?_⟩
    obtain ⟨a, s', hrun, ha⟩ := hn fuel (by omega) s hs
    obtain ⟨b, f', hrun', hb⟩ := hn' fuel (by omega) f hf
    exact ⟨a, s', b, f', hrun, hrun', ha.trans hb.symm⟩

/-- A type with one annotation, of another type, pulls that in. -/
theorem pulls_of_single {t u : ClassType}
    (h : (classOf t).map (fun c => c.eagerAnnotations.map (·.type)) = some [u])
    (hu : (classOf u).isSome) (hne : u ≠ t) : Pulls classOf t u := by
  obtain ⟨c, hc, htypes⟩ := Option.map_eq_some_iff.mp h
  obtain ⟨a, hsplit, rfl⟩ := List.map_eq_singleton_iff.mp htypes
  exact ⟨c, [], a, [], hc, hsplit, rfl, hu, .inl hne⟩

/-- A type with one annotation, of the type itself, pulls nothing in. -/
theorem not_pulls_of_single {t u : ClassType}
    (h : (classOf t).map (fun c => c.eagerAnnotations.map (·.type)) = some [t]) :
    ¬ Pulls classOf t u := by
  rintro ⟨c, before, a, after, hc, hsplit, rfl, -, hcounts⟩
  rw [hc, Option.map_some, hsplit] at h
  have hone := Option.some.inj h
  rcases before with _ | ⟨b, before⟩
  · have htype : a.type = t := by simpa using congrArg List.head? hone
    exact hcounts.elim (fun hne => hne htype) (by simp)
  · simp at hone

/-- An annotation type that is annotated with itself is found in the cache when it asks for itself,
and eviction goes unnoticed. -/
theorem eviction_unnoticed_selfAnnotated :
    EvictionUnnoticed (ofStores [.selfAnnotated] .full)
      (catalogOfStore .selfAnnotated .full MemoryStore.faultless_selfAnnotated) := by
  have hloadable : MemoryStore.selfAnnotated.Loadable := ⟨rfl, by decide⟩
  refine (eviction_unnoticed_iff (loads_ofStore _ hloadable)).mpr fun t hcycle => ?_
  obtain ⟨u, hpulls, -⟩ := Relation.TransGen.head'_iff.mp hcycle
  have htype : t = ⟨"a.A", none⟩ := by
    have hsome : (tableOfStores (catalogOfStore .selfAnnotated .full
        MemoryStore.faultless_selfAnnotated) t).isSome := by
      obtain ⟨c, -, -, -, hc, -⟩ := hpulls
      rw [hc]
      rfl
    simpa [MemoryStore.selfAnnotated, MemoryStore.ofClasses, MemoryClass.annotated] using
      mem_types_of_table hloadable hsome
  subst htype
  exact not_pulls_of_single (by decide +kernel) hpulls

/-- **Eviction is noticed**: of two annotation types that are annotated with each other, a view with
room for one class resolves neither, however long it is given, while a view that keeps everything
resolves both. -/
theorem eviction_noticed_twins :
    (¬ EvictionUnnoticed (ofStores [.twins] .full)
      (catalogOfStore .twins .full MemoryStore.faultless_twins)) ∧
    (∀ fuel, let v : View World := .ofStores [.twins] (.lru 1 Nat.one_pos)
      (Call.resolve ⟨"a.A", none⟩).run v fuel (v.fresh {}) = none) ∧
    let v : View World := .ofStores [.twins] .full
    ((Call.resolve ⟨"a.A", none⟩).run v 3 (v.fresh {})).map (fun r =>
      (r.1.toOption, r.2.view.cache.size)) = some (some (some 0), 2) := by
  let cat := catalogOfStore .twins .full MemoryStore.faultless_twins
  have hloads : Loads cat (tableOfStores cat) := loads_ofStore _ ⟨rfl, by decide⟩
  have hthere : Pulls (tableOfStores cat) ⟨"a.A", none⟩ ⟨"a.B", none⟩ :=
    pulls_of_single (by decide +kernel) (by decide +kernel) (by decide)
  have hback : Pulls (tableOfStores cat) ⟨"a.B", none⟩ ⟨"a.A", none⟩ :=
    pulls_of_single (by decide +kernel) (by decide +kernel) (by decide)
  have hdiverges : ∀ fuel, let v : View World := .ofStores [.twins] (.lru 1 Nat.one_pos)
      (Call.resolve ⟨"a.A", none⟩).run v fuel (v.fresh {}) = none := fun fuel =>
    call_resolve_eq_none (hloads.withPolicy (.lru 1 Nat.one_pos)) rfl
      (.tail (.single hthere) hback) trivial fuel
  refine ⟨fun hunnoticed => ?_, hdiverges, by decide +kernel⟩
  obtain ⟨n, hn⟩ := hunnoticed 1 Nat.one_pos _ _ (reachable_fresh (w := {}) trivial)
    (reachable_fresh (w := {}) trivial) ⟨"a.A", none⟩
  obtain ⟨a, s', -, -, hrun, -⟩ := hn n le_rfl
  exact absurd (hrun.symm.trans (hdiverges n)) (by simp)

end View

end Classpath

import Classpath.Proofs.Outcome
import Classpath.Proofs.View.Step

/-!
# What a view does is made of steps

One statement for each function of `Classpath.View`, all of the one shape `Classpath.View.Runs`: a
run is a trace of steps, it ends with a value of which something holds or with a fault of the
stores. The functions call each other through `resolve`, and a statement on a caller takes the
statement on what it calls as a hypothesis; the circle is closed by an induction on the fuel
(`Classpath.View.runs_resolve`).

The statements hold with the reading of both partial and total correctness. What the induction on
the fuel gives is partial correctness; where the recursion is known to end, the same statements are
put together once more by another induction.
-/

namespace Classpath

namespace View

variable {σ : Type} (v : View σ) (W : σ → Prop)

/-- **What a run of a view amounts to**: steps, and a value with `P` or a fault. -/
def Runs {α : Type} (k : Nat) (stuck : Prop) (r : Action σ α) (s : ViewState σ)
    (P : α → ViewState σ → Prop) : Prop :=
  r.Outcome stuck s (fun a s' => Trace v W k s s' ∧ P a s')
    (fun e s' => Trace v W k s s' ∧ Fault v W e)

variable {v W} {α β : Type} {k : Nat} {stuck : Prop} {s : ViewState σ}

/-! ### Putting runs together -/

theorem Runs.imp {r : Action σ α} {P Q : α → ViewState σ → Prop} (h : Runs v W k stuck r s P)
    (hPQ : ∀ a s', Trace v W k s s' → P a s' → Q a s') : Runs v W k stuck r s Q :=
  Run.Outcome.imp h (fun a s' ha => ⟨ha.1, hPQ a s' ha.1 ha.2⟩) fun _ _ he => he

theorem Runs.mono {k' : Nat} {r : Action σ α} {P : α → ViewState σ → Prop} (hk : k' ≤ k)
    (h : Runs v W k stuck r s P) : Runs v W k' stuck r s P :=
  Run.Outcome.imp h (fun _ _ ha => ⟨ha.1.mono hk, ha.2⟩) fun _ _ he => ⟨he.1.mono hk, he.2⟩

theorem runs_pure {a : α} {P : α → ViewState σ → Prop} (h : P a s) :
    Runs v W k stuck (pure a) s P :=
  ⟨.refl, h⟩

theorem runs_fail {e : ResolveError} {P : α → ViewState σ → Prop} (h : Fault v W e) :
    Runs v W k stuck (Run.fail e) s P :=
  ⟨.refl, h⟩

/-- A run that begins where another one ended. -/
theorem Runs.after {s₀ : ViewState σ} {r : Action σ α} {P : α → ViewState σ → Prop}
    (htrace : Trace v W k s₀ s) (h : Runs v W k stuck r s P) :
    r.Outcome stuck s (fun a s' => Trace v W k s₀ s' ∧ P a s')
      (fun e s' => Trace v W k s₀ s' ∧ Fault v W e) :=
  Run.Outcome.imp h (fun _ _ ha => ⟨htrace.trans ha.1, ha.2⟩) fun _ _ he =>
    ⟨htrace.trans he.1, he.2⟩

/-- One run after another. -/
theorem Runs.bind {r : Action σ α} {f : α → Action σ β} {P : α → ViewState σ → Prop}
    {Q : β → ViewState σ → Prop} (h : Runs v W k stuck r s P)
    (hf : ∀ a s', Trace v W k s s' → P a s' → Runs v W k stuck (f a) s' Q) :
    Runs v W k stuck (r >>= f) s Q :=
  Run.outcome_bind.mpr <| Run.Outcome.imp h
    (fun a s' ha => (hf a s' ha.1 ha.2).after ha.1) fun _ _ he => he

/-- A run after a step that never fails and that a trace accounts for. -/
theorem runs_of_trace {r : Action σ α} {s' : ViewState σ} {a : α} {P : α → ViewState σ → Prop}
    (hr : r s = some (.ok a, s')) (htrace : Trace v W k s s') (h : P a s') :
    Runs v W k stuck r s P := by
  rw [Runs, Run.Outcome, hr]
  exact ⟨htrace, h⟩

/-! ### Asking and reading -/

theorem runs_touch (t : ClassType) :
    Runs v W k stuck (touch t) s fun held s' =>
      held = s.cache.find? t ∧ s' = { s with cache := (s.cache.get t).2 } :=
  runs_of_trace rfl (.single (.touch t)) ⟨Cache.get_fst, rfl⟩

theorem runs_inWorld {f : σ → α × σ} (h : WorldStep v W (Chosen v W) s.world (f s.world).2) :
    Runs v W k stuck (inWorld f) s fun a s' =>
      a = (f s.world).1 ∧ s' = { s with world := (f s.world).2 } :=
  runs_of_trace rfl (.single (.world h)) ⟨rfl, rfl⟩

theorem runs_read {f : ViewState σ → α} :
    Runs v W k stuck (Run.read f) s fun a s' => a = f s ∧ s' = s :=
  runs_of_trace rfl .refl ⟨rfl, rfl⟩

theorem runs_object {id : Nat} {o : Loaded} (h : s.built[id]? = some o) :
    Runs v W k stuck (object id) s fun o' s' => o' = o ∧ s' = s := by
  have hread : (object id : Action σ Loaded) s = some (.ok o, s) := by
    change some (Except.ok ((s.built[id]?).getD default), s) = _
    rw [h]
    rfl
  exact runs_of_trace hread .refl ⟨rfl, rfl⟩

/-! ### Computing defaults -/

/-- **Computing the elements of an annotation**: the annotation's type is resolved, and what it
declares is recorded. Resolving must leave the annotated object alone; it does, because it only
looks at the annotations of objects that it builds. -/
theorem runs_materialize {res : ClassType → Action σ (Option Nat)} {id i : Nat} {o : Loaded}
    {a : AnnotationUse ClassType} {P : ViewState σ → Prop} (hk : k ≤ id)
    (ho : s.built[id]? = some o) (ha : o.info.annotations[i]? = some a)
    (hknown : (o.merged? i).isSome → P s)
    (hres : o.merged? i = none → Runs v W s.built.size stuck (res a.type) s fun answer s' =>
      Answers v W a.type answer s' ∧ ∀ elements, P (s'.recorded id i elements)) :
    Runs v W k stuck (materialize res id a i) s fun _ s' => P s' := by
  have hid : id < s.built.size := by
    by_contra hge
    rw [Array.getElem?_eq_none (not_lt.mp hge)] at ho
    cases ho
  rw [materialize]
  refine (runs_object ho).bind fun o' s' _ h => ?_
  obtain ⟨rfl, rfl⟩ := h
  rcases hmerged : o'.merged? i with _ | elements
  · have hframed := (hres hmerged).imp fun answer s₁ htrace h =>
      (⟨h.1, h.2, (htrace.built_eq hid hid).trans ho⟩ : _ ∧ _ ∧ s₁.built[id]? = some o')
    refine (hframed.mono (hk.trans hid.le)).bind fun answer s₁ _ ⟨hanswer, hP, ho₁⟩ => ?_
    have hrecord : ∀ elements, elements = mergedElements (answer.bind s₁.info?) a →
        Runs v W k stuck (record id i elements >>= fun _ => pure elements) s₁ fun _ s' => P s' := by
      rintro elements rfl
      exact (runs_of_trace rfl (.single (.record hk ho₁ ha hmerged hanswer)) (hP _)).bind
        fun _ _ _ h => runs_pure h
    cases answer with
    | none => exact hrecord _ rfl
    | some declaring =>
      obtain ⟨c, hc, -⟩ := hanswer
      obtain ⟨d, hd, rfl⟩ := Option.map_eq_some_iff.mp hc
      refine (runs_object hd).bind fun _ _ _ h => ?_
      obtain ⟨rfl, rfl⟩ := h
      exact hrecord _ (by rw [Option.bind_some, hc])
  · exact runs_pure (hknown (by rw [hmerged]; rfl))

/-- **How far the annotations of an object are computed**: as when it was built from the `n`-th on. -/
structure FreshFrom (c : ClassInfo) (n : Nat) (o : Loaded) : Prop where
  info : o.info = c
  merged : ∀ j, n ≤ j → o.merged? j = (Loaded.fresh c).merged? j

section All

variable {res : ClassType → Action σ (Option Nat)} {id : Nat} {c : ClassInfo}
  {I : List (AnnotationUse ClassType × Nat) → ViewState σ → Prop}

/-- Computing the elements of the next annotation: it is passed over if the object came with them. -/
theorem runs_materialize_next {passed rest : List (AnnotationUse ClassType)}
    {a : AnnotationUse ClassType} {o : Loaded} (hk : k ≤ id) (ho : s.built[id]? = some o)
    (hfresh : FreshFrom c passed.length o) (hsplit : c.annotations = passed ++ a :: rest)
    (hI : I (c.pendingFrom passed 0) s)
    (hres : ∀ pending, c.pendingFrom c.annotations 0 =
      c.pendingFrom passed 0 ++ (a, passed.length) :: pending →
      Runs v W s.built.size stuck (res a.type) s fun answer s' => Answers v W a.type answer s' ∧
        ∀ elements, I (c.pendingFrom passed 0 ++ [(a, passed.length)])
          (s'.recorded id passed.length elements)) :
    Runs v W k stuck (materialize res id a passed.length) s fun _ s' =>
      I (c.pendingFrom (passed ++ [a]) 0) s' ∧
        ∃ o', s'.built[id]? = some o' ∧ FreshFrom c (passed.length + 1) o' := by
  obtain ⟨rfl, hmerged⟩ := hfresh
  have hid : id < s.built.size := (Array.getElem?_eq_some_iff.mp ho).1
  have hann : o.info.annotations[passed.length]? = some a := by rw [hsplit]; simp
  have hown : o.merged? passed.length = o.info.computed? passed.length := by
    rw [hmerged _ le_rfl, Loaded.merged?_fresh_of_getElem? hann]
  rw [ClassInfo.pendingFrom_append, Nat.zero_add]
  refine runs_materialize hk ho hann (fun hknown => ⟨?_, o, ho, rfl, ?_⟩) fun hnone => ?_
  · rw [ClassInfo.pendingFrom_cons_of_some (hown ▸ hknown)]
    exact (List.append_nil _).symm ▸ hI
  · exact fun j hj => hmerged j (Nat.le_of_succ_le hj)
  · have hpending : o.info.pendingFrom o.info.annotations 0 = o.info.pendingFrom passed 0 ++
        (a, passed.length) :: o.info.pendingFrom rest (passed.length + 1) := by
      rw [hsplit, ClassInfo.pendingFrom_append, Nat.zero_add,
        ClassInfo.pendingFrom_cons_of_none (hown ▸ hnone)]
    rw [ClassInfo.pendingFrom_cons_of_none (hown ▸ hnone)]
    refine (hres _ hpending).imp fun answer s' hres' h => ?_
    refine ⟨h.1, fun elements =>
      ⟨h.2 elements, o.setMerged passed.length elements, ?_, rfl, fun j hj => ?_⟩⟩
    · rw [ViewState.built_recorded_self, hres'.built_eq hid hid, ho]
      rfl
    · rw [Loaded.merged?_setMerged_of_ne (by omega)]
      exact hmerged j (by omega)

/-- **Computing the elements of all annotations** of an object that was just built. Those that come
with elements are passed over. `I done` holds once the annotations of `done` are computed; none of
the others is before its turn. -/
theorem runs_materializeAll (hk : k ≤ id) (ho : s.built[id]? = some (.fresh c)) (hI : I [] s)
    (hres : ∀ done a i rest s', c.pendingFrom c.annotations 0 = done ++ (a, i) :: rest →
      Trace v W k s s' → I done s' →
      Runs v W s'.built.size stuck (res a.type) s' fun answer s'' =>
        Answers v W a.type answer s'' ∧
          ∀ elements, I (done ++ [(a, i)]) (s''.recorded id i elements)) :
    Runs v W k stuck (materializeAll res id c) s fun _ s' =>
      I (c.pendingFrom c.annotations 0) s' := by
  -- the annotations that are left are the last ones, and nothing is recorded for them
  let J (left : List (AnnotationUse ClassType × Nat)) (s' : ViewState σ) : Prop :=
    ∃ passed rest o, left = rest.zipIdx passed.length ∧ c.annotations = passed ++ rest ∧
      s'.built[id]? = some o ∧ FreshFrom c passed.length o ∧
      Trace v W k s s' ∧ I (c.pendingFrom passed 0) s'
  have hstart : J c.annotations.zipIdx s :=
    ⟨[], c.annotations, .fresh c, rfl, rfl, ho, ⟨rfl, fun _ _ => rfl⟩, .refl, hI⟩
  refine (Run.outcome_forEach J (fun ⟨a, i⟩ left s' hJ => ?_) hstart).imp ?_ fun _ _ he => he
  · obtain ⟨passed, rest, o, hleft, hsplit, ho', hfresh, htrace, hI'⟩ := hJ
    rcases rest with _ | ⟨a', rest⟩
    · cases hleft
    · rw [List.zipIdx_cons, List.cons.injEq, Prod.mk.injEq] at hleft
      obtain ⟨⟨rfl, rfl⟩, rfl⟩ := hleft
      have hnext := runs_materialize_next hk ho' hfresh hsplit hI' fun pending hpending =>
        hres _ a _ pending s' hpending htrace hI'
      refine Run.outcome_bind.mpr (Run.Outcome.imp hnext ?_ ?_)
      · rintro _ s'' ⟨htrace', hI'', o', ho'', hfresh'⟩
        exact ⟨passed ++ [a], rest, o', by simp, by simpa using hsplit, ho'',
          by simpa using hfresh', htrace.trans htrace', hI''⟩
      · rintro e s'' ⟨htrace', he⟩
        exact ⟨htrace.trans htrace', he⟩
  · rintro _ s' ⟨passed, rest, o, hleft, hsplit, -, -, htrace, hI'⟩
    obtain rfl : rest = [] := by simpa using hleft.symm
    rw [List.append_nil] at hsplit
    exact ⟨htrace, hsplit ▸ hI'⟩

end All

/-! ### Building -/

variable {res : ClassType → Action σ (Option Nat)} {l : Location σ} {src : Source σ}

theorem inWorld_of_eq {f : σ → α × σ} {a : α} {w : σ} (h : f s.world = (a, w)) :
    inWorld f s = some (.ok a, { s with world := w }) := by
  simp only [inWorld, Run.step, h]

/-- A source that cannot be loaded. -/
theorem build_of_error {e : BuildError} {w : σ}
    (h : src.build (v.context l src) s.world = (.error e, w)) :
    v.build res l src s = some (.error (.build src.type e), { s with world := w }) := by
  rw [build, Run.bind_of_ok (inWorld_of_eq h)]
  rfl

/-- A source whose type is cached: the class is built for nothing. -/
theorem build_of_held {c : ClassInfo} {w : σ} {held : Nat}
    (h : src.build (v.context l src) s.world = (.ok c, w))
    (hheld : s.cache.find? src.type = some held) (hne : held ≠ s.built.size) :
    v.build res l src s = some (.error (.cache (.duplicateInsertion src.type)),
      { s with world := w, built := s.built.push (.fresh c) }) := by
  rw [build, Run.bind_of_ok (inWorld_of_eq h)]
  change Run.bind (store src.type s.built.size) _ _ = _
  simp only [Run.bind, store, Cache.insert_of_ne hheld hne]

/-- A source whose type is not cached: what is left to do once the class is. -/
theorem build_of_absent {c : ClassInfo} {w : σ}
    (h : src.build (v.context l src) s.world = (.ok c, w))
    (habsent : s.cache.find? src.type = none) :
    v.build res l src s = (do
      if c.isAnnotationType then materializeAll res s.built.size c
      return s.built.size : Action σ Nat) (s.install src.type c w) := by
  rw [build, Run.bind_of_ok (inWorld_of_eq h)]
  change Run.bind (store src.type s.built.size) _ _ = _
  simp only [Run.bind, store, Cache.insert_of_find?_eq_none habsent]
  rfl

/-- **Building a chosen source**: it fails, or the cache refuses the class, or the class is cached
and its eager annotations are computed one after the other. `I c done` holds once the class `c` is
cached and the annotations of `done` are computed. -/
theorem runs_build {I : ClassInfo → List (AnnotationUse ClassType × Nat) → ViewState σ → Prop}
    (hW : Steady v W) (hs : Sound v W s) (hw : W s.world) (hl : Chosen v W l src)
    (habsent : s.cache.find? src.type = none ∨ ∃ t, Finds v W t l src ∧ src.type ≠ t)
    (hinstall : ∀ c w, src.build (v.context l src) s.world = (.ok c, w) →
      s.cache.find? src.type = none → I c [] (s.install src.type c w))
    (hres : ∀ c done a i rest s', (src.build (v.context l src) s.world).1 = .ok c →
      c.eager = done ++ (a, i) :: rest → Trace v W s.built.size s s' → Sound v W s' →
      W s'.world → I c done s' →
      Runs v W s'.built.size stuck (res a.type) s' fun answer s'' => Answers v W a.type answer s'' ∧
        ∀ elements, I c (done ++ [(a, i)]) (s''.recorded s.built.size i elements)) :
    Runs v W s.built.size stuck (v.build res l src) s fun id s' =>
      ∃ c, (src.build (v.context l src) s.world).1 = .ok c ∧ s'.info? id = some c ∧
        I c c.eager s' := by
  rcases hbuild : src.build (v.context l src) s.world with ⟨_ | c, w⟩
  -- the source cannot be loaded
  · have hworld : WorldStep v W (Chosen v W) s.world
        (src.build (v.context l src) s.world).2 := .load hl hw
    rw [hbuild] at hworld
    rw [Runs, Run.Outcome, build_of_error hbuild]
    exact ⟨.single (.world hworld), .build hl hw (by rw [hbuild])⟩
  · rcases hheld : s.cache.find? src.type with _ | held
    · have hstep : Trace v W s.built.size s (s.install src.type c w) :=
        .single (.build hl hw hbuild hheld)
      have hnew : (s.install src.type c w).info? s.built.size = some c := by
        rw [ViewState.info?, ViewState.built_install_self]
        rfl
      rw [Runs, Run.Outcome, build_of_absent hbuild hheld]
      -- the class is cached in the step that numbers it, so a trace can go on from there
      refine Runs.after hstep ?_
      by_cases hkind : c.isAnnotationType = true
      · rw [if_pos hkind]
        rw [hbuild] at hres
        have heager : c.eager = c.pendingFrom c.annotations 0 := if_pos hkind
        refine (runs_materializeAll (I := I c) le_rfl ViewState.built_install_self
          (hinstall c w hbuild hheld) fun done a i rest s' hsplit htrace hI => ?_).bind
            fun _ s' htrace hI => runs_pure ⟨c, rfl, htrace.info? hnew, heager ▸ hI⟩
        have htrace' := hstep.trans htrace
        exact hres c done a i rest s' rfl (heager.trans hsplit) htrace' (Trace.sound htrace' hs)
          (hW.trace htrace' hw) hI
      · rw [if_neg hkind]
        have heager : c.eager = [] := if_neg hkind
        exact runs_pure ⟨c, rfl, hnew, heager ▸ hinstall c w hbuild hheld⟩
    -- a location answered with the source of another type, which is cached: it is refused
    · obtain ⟨t, hfinds, hne⟩ := habsent.resolve_left (by rw [hheld]; simp)
      rw [Runs, Run.Outcome, build_of_held hbuild hheld (hs.lt_size hheld).ne]
      exact ⟨.single (.refuse hfinds hne hw hbuild hheld), .cache hfinds hne⟩

/-! ### Resolving -/

/-- **Asking locations in order.** None of those in `before` has the type. -/
theorem runs_findIn {t : ClassType} {P : Option Nat → ViewState σ → Prop} (hW : Steady v W)
    (habsent : Absent v W t → ∀ w, W w → P none { s with world := w })
    (hbuild : ∀ l src w, Finds v W t l src → W w →
      Runs v W k stuck (v.build res l src) { s with world := w } fun id s' => P (some id) s') :
    ∀ after before, v.project.locations = before ++ after →
      (∀ m ∈ before, ∃ w, W w ∧ (m.find t w).1 = .ok none) → ∀ w, W w →
      Runs v W k stuck (v.findIn res t after) { s with world := w } P
  | [], before, hsplit, hbefore, w, hw => by
    refine runs_pure (habsent (fun m hm => hbefore m ?_) w hw)
    simpa [hsplit] using hm
  | l :: after, before, hsplit, hbefore, w, hw => by
    have hl : l ∈ v.project.locations := by simp [hsplit]
    have hworld : WorldStep v W (Chosen v W) w (l.find t w).2 := .find t hl hw
    rw [findIn]
    refine (runs_inWorld hworld).bind fun answer s' _ h => ?_
    obtain ⟨rfl, rfl⟩ := h
    dsimp only
    rcases hanswer : (l.find t w).1 with e | _ | src
    · exact runs_fail (.lookup hl hw hanswer)
    · refine runs_findIn hW habsent hbuild after (before ++ [l]) (by simpa using hsplit) ?_ _
        (hW _ _ hworld)
      intro m hm
      rcases List.mem_append.mp hm with hm | hm
      · exact hbefore m hm
      · obtain rfl := List.mem_singleton.mp hm
        exact ⟨w, hw, hanswer⟩
    · have hfinds : Finds v W t l src := ⟨before, after, hsplit, hbefore, w, hw, hanswer⟩
      refine (hbuild l src _ hfinds (hW _ _ hworld)).bind fun id s' _ h => ?_
      exact runs_pure h

/-- **One level of resolving**: the type is cached, or no location has it, or the source of the
first that has it is built. -/
theorem runs_resolve_succ {n : Nat} {t : ClassType} {P : Option Nat → ViewState σ → Prop}
    (hW : Steady v W) (hw : W s.world)
    (hheld : ∀ id, s.cache.find? t = some id →
      P (some id) { s with cache := (s.cache.get t).2 })
    (habsent : s.cache.find? t = none → Absent v W t → ∀ w, W w → P none { s with world := w })
    (hbuild : s.cache.find? t = none → ∀ l src w, Finds v W t l src → W w →
      Runs v W k stuck (v.build (v.resolve n) l src) { s with world := w }
        fun id s' => P (some id) s') :
    Runs v W k stuck (v.resolve (n + 1) t) s P := by
  rw [resolve]
  refine (runs_touch t).bind fun held s' _ h => ?_
  obtain ⟨rfl, rfl⟩ := h
  rcases hfind : s.cache.find? t with _ | id
  · rw [Cache.get_of_find?_eq_none hfind]
    exact runs_findIn hW (habsent hfind) (hbuild hfind) v.project.locations [] rfl (by simp)
      s.world hw
  · exact runs_pure (hheld id hfind)

/-- What building for a type leaves is an answer for it. -/
theorem Finds.answers {t : ClassType} {id : Nat} {c : ClassInfo} {w : σ}
    (h : Finds v W t l src) (hc : (src.build (v.context l src) w).1 = .ok c)
    (hid : s.info? id = some c) : Answers v W t (some id) s := by
  refine ⟨c, hid, ?_⟩
  rw [Source.type_of_build hc]
  by_cases hne : src.type = t
  · exact .inl hne
  · exact .inr ⟨l, src, h, rfl⟩

/-- What is cached for a type is an answer for it. -/
theorem Sound.answers {t : ClassType} {id : Nat} (hs : Sound v W s)
    (hid : s.cache.find? t = some id) (cache : Cache Nat) :
    Answers v W t (some id) { s with cache } := by
  obtain ⟨c, hc, htype⟩ := hs.held t id hid
  exact ⟨c, hc, .inl htype⟩

/-- What is found for a type that is not cached is not cached either, unless it has another type. -/
theorem Finds.absent_or_ne {t : ClassType} (h : Finds v W t l src)
    (hnone : s.cache.find? t = none) :
    s.cache.find? src.type = none ∨ ∃ t, Finds v W t l src ∧ src.type ≠ t := by
  by_cases hne : src.type = t
  · exact .inl (hne ▸ hnone)
  · exact .inr ⟨t, h, hne⟩

/-- **Resolving is made of steps**, and it answers for the type that was asked for. Only objects
that it builds have their annotations looked at. -/
theorem runs_resolve (hW : Steady v W) : ∀ {n : Nat} {t : ClassType} {s : ViewState σ},
    Sound v W s → W s.world → Runs v W s.built.size True (v.resolve n t) s (Answers v W t)
  | 0, _, _, _, _ => trivial
  | n + 1, t, s, hs, hw => by
    refine runs_resolve_succ hW hw (fun id hid => hs.answers hid _) (fun _ hnone _ _ => hnone)
      fun hnone l src w hfinds hw' => ?_
    refine (runs_build (I := fun _ _ _ => True) hW (hs.inWorld w) hw' (.inl ⟨t, hfinds⟩)
      (hfinds.absent_or_ne hnone) (fun _ _ _ _ => trivial)
      fun c done a i rest s' _ _ _ hs' hw'' _ => ?_).imp fun id s' _ h => ?_
    · exact (runs_resolve hW hs' hw'').imp fun _ _ _ h => ⟨h, fun _ => trivial⟩
    · obtain ⟨c, hc, hid, -⟩ := h
      exact hfinds.answers hc hid

/-! ### Annotations of answers -/

/-- **The elements of an annotation**, of any object and at any position. -/
theorem runs_valuesWithDefaults {fuel id i : Nat} {P : ViewState σ → Prop} (hP : P s)
    (hres : ∀ o a, s.built[id]? = some o → o.info.annotations[i]? = some a → o.merged? i = none →
      Runs v W s.built.size stuck (v.resolve fuel a.type) s fun answer s' =>
        Answers v W a.type answer s' ∧ ∀ elements, P (s'.recorded id i elements)) :
    Runs v W 0 stuck (v.valuesWithDefaults fuel id i) s fun _ s' => P s' := by
  have hobject : Runs v W 0 stuck (object id) s fun o s' =>
      o = (s.built[id]?).getD default ∧ s' = s := runs_read
  rw [valuesWithDefaults]
  refine hobject.bind fun o s' _ h => ?_
  obtain ⟨rfl, rfl⟩ := h
  rcases ho : s'.built[id]? with _ | o
  · exact runs_pure hP
  · rw [Option.getD_some]
    rcases ha : o.info.annotations[i]? with _ | a
    · exact runs_pure hP
    · exact (runs_materialize (Nat.zero_le id) ho ha (fun _ => hP) (hres o a ho ha)).bind
        fun _ _ _ h => runs_pure h

/-- Computing the elements of an annotation is made of steps. -/
theorem runs_valuesWithDefaults_sound (hW : Steady v W) (hs : Sound v W s) (hw : W s.world)
    (fuel id i : Nat) : Runs v W 0 True (v.valuesWithDefaults fuel id i) s fun _ _ => True :=
  runs_valuesWithDefaults (P := fun _ => True) trivial fun _ _ _ _ _ =>
    (runs_resolve hW hs hw).imp fun _ _ _ h => ⟨h, fun _ => trivial⟩

end View

end Classpath

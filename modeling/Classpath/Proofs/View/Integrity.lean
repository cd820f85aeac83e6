import Classpath.Proofs.Store.Memory

/-!
# What holds of every cached class

A view that is used in any order of calls, with stores that fail now and then and a world that
changes in between, keeps its objects apart. As long as locations answer for the type they were
asked for, the cache never refuses a class; with an unbounded cache there is one object for each
type, and it is the answer forever; and under any policy a cached class is what the source was
loaded to, with the identifier, the origin and the source type that belong to it.

The reason is one invariant, `Classpath.View.OnePerClass`: the object of a class is the one that is
cached for its type. It survives that building a class builds others before it is done, because
every class comes into the cache in the same step in which it gets its number.

* `Classpath.View.not_fault_cache` – the cache refuses nothing.
* `Classpath.View.integrity` – all of the above, for every state of a view in use.
-/

namespace Classpath

namespace View

variable {σ : Type} {v : View σ} {W : σ → Prop} {k : Nat} {s s' : ViewState σ}

/-- The world may be any. -/
theorem steady_any : Steady v fun _ => True :=
  fun _ _ _ => trivial

theorem Finds.type_eq (hself : v.project.SelfTyped) {t : ClassType} {l : Location σ}
    {src : Source σ} (h : Finds v W t l src) : src.type = t := by
  obtain ⟨before, after, hsplit, -, w, -, hfind⟩ := h
  exact hself l (by simp [hsplit]) t w src hfind

/-- An answer for a type has that type. -/
theorem Answers.type_eq (hself : v.project.SelfTyped) {t : ClassType} {id : Nat}
    (h : Answers v W t (some id) s) : ∃ c, s.info? id = some c ∧ c.type = t := by
  obtain ⟨c, hc, htype | ⟨l, src, hfinds, htype⟩⟩ := h
  · exact ⟨c, hc, htype⟩
  · exact ⟨c, hc, htype.symm.trans (hfinds.type_eq hself)⟩

/-- **The cache refuses nothing**, for that would take a location that answers for another type. -/
theorem not_fault_cache (hself : v.project.SelfTyped) {e : CacheError} :
    ¬ Fault v W (.cache e) := by
  rintro ⟨⟩
  rename_i t l src hfinds hne
  exact hne (hfinds.type_eq hself)

/-! ### One object for each class -/

/-- The object of a class is the one that is cached for its type. -/
def OnePerClass (s : ViewState σ) : Prop :=
  ∀ id c, s.info? id = some c → s.cache.find? c.type = some id

theorem OnePerClass.unique (h : OnePerClass s) {i j : Nat} {c d : ClassInfo}
    (hi : s.info? i = some c) (hj : s.info? j = some d) (htype : c.type = d.type) : i = j := by
  have hheld := h i c hi
  rw [htype, h j d hj] at hheld
  exact (Option.some.inj hheld).symm

theorem onePerClass_start (w : σ) : OnePerClass (v.start w) := by
  intro id c hc
  simp [start, ViewState.info?] at hc

/-- An unbounded cache keeps one object for each class. -/
theorem Step.onePerClass (hself : v.project.SelfTyped) (hfull : v.options.policy = .full)
    (hs : Sound v W s) (hone : OnePerClass s) (h : Step v W k s s') : OnePerClass s' := by
  cases h with
  | world _ => exact hone
  | touch t =>
    intro id c hc
    rw [Cache.find?_get]
    exact hone id c hc
  | @build l src c w hl hw hb habsent =>
    have hroom : s.cache.HasRoom :=
      Cache.hasRoom_of_capacity_eq_none (by rw [hs.policy, hfull]; rfl)
    intro id d hd
    change (s.cache.push src.type s.built.size).find? d.type = some id
    rw [Cache.find?_push_of_hasRoom hroom]
    change ((s.built.push (.fresh c))[id]?).map (·.info) = some d at hd
    rw [Array.getElem?_push] at hd
    -- the new object is cached in front, and an old one of another type is not given up
    split at hd
    · rename_i hid
      obtain rfl : c = d := Option.some.inj hd
      have htype : c.type = src.type := Source.type_of_build (by rw [hb])
      rw [if_pos htype, hid]
    · have hold := hone id d hd
      have hne : d.type ≠ src.type := fun heq => by simp [← heq, hold] at habsent
      rw [if_neg hne, hold]
  | refuse hfinds hne _ _ _ => exact absurd (hfinds.type_eq hself) hne
  | record _ _ _ _ _ =>
    intro id c hc
    rw [ViewState.info?_recorded] at hc
    exact hone id c hc

variable {t t' : Session σ}

/-- Along a session an unbounded cache keeps one object for each class, and the objects stay. -/
theorem next_onePerClass (hself : v.project.SelfTyped) (hfull : v.options.policy = .full)
    (hW : Steady v W) (h : Relation.ReflTransGen (Next v W) t t') (hs : Sound v W t.view)
    (hw : W t.view.world) (hone : OnePerClass t.view) :
    OnePerClass t'.view ∧ ∀ id c, t.view.info? id = some c → t'.view.info? id = some c := by
  have hboth := next_invariant hW
    (I := fun s => OnePerClass s ∧ ∀ id c, t.view.info? id = some c → s.info? id = some c)
    (fun s s' hs hI hstep => ⟨hstep.onePerClass hself hfull hs hI.1, fun id c hc =>
      hstep.info? (hI.2 id c hc)⟩) (fun s w hI _ => hI) (fun s b hI => hI) h hs hw
    ⟨hone, fun _ _ hc => hc⟩
  exact hboth.2.2

theorem Reachable.onePerClass (hself : v.project.SelfTyped) (hfull : v.options.policy = .full)
    (hW : Steady v W) (h : Reachable v W t) : OnePerClass t.view := by
  obtain ⟨w, hw, htrace⟩ := h
  exact (next_onePerClass hself hfull hW htrace (sound_start w) hw (onePerClass_start w)).1

/-! ### The guarantee -/

/-- **What a view guarantees**, in every state in which it can be, whatever failed before.

No call reports that the cache refused a class. With an unbounded cache each class is built at most
once, and two answers for a type, however far apart, are the same object. Under either policy a
cached class has the type it is cached for, the name that its source declared, the origin of the
source that was located, and the source type that the project settles for that source. -/
theorem integrity (hself : v.project.SelfTyped) {s : Session σ}
    (hs : Reachable v (fun _ => True) s) :
    (∀ {α : Type} (c : Call α) fuel e s', c.run v fuel s = some (.error e, s') →
      ∀ refusal, e ≠ .resolve (.cache refusal)) ∧
    (v.options.policy = .full →
      (∀ i j c d, s.view.info? i = some c → s.view.info? j = some d → c.type = d.type → i = j) ∧
      ∀ t fuel id s₁ s₂ fuel' id' s₃, (Call.resolve t).run v fuel s = some (.ok (some id), s₁) →
        Relation.ReflTransGen (Next v fun _ => True) s₁ s₂ →
        (Call.resolve t).run v fuel' s₂ = some (.ok (some id'), s₃) →
        id' = id ∧ s₃.view.info? id' = s₁.view.info? id ∧
          ∃ c, s₁.view.info? id = some c ∧ c.type = t) ∧
    ∀ t id, (t, id) ∈ s.view.cache.entries → ∃ c l src w raw, s.view.info? id = some c ∧
      Chosen v (fun _ => True) l src ∧ (src.load (v.context l src) w).1 = .ok raw ∧
      src.type = t ∧ c.type = t ∧ c.type.name = raw.type.name ∧ c.origin = src.origin ∧
      c.sourceType = v.project.sourceTypeOf src := by
  obtain ⟨hsound, hw⟩ := hs.sound steady_any
  refine ⟨fun c fuel e s' hrun refusal he => ?_, fun hfull => ⟨fun i j c d hi hj htype => ?_, ?_⟩,
    fun t id hentry => ?_⟩
  · subst he
    exact not_fault_cache hself (c.fault steady_any hsound hw hrun)
  · exact (hs.onePerClass hself hfull steady_any).unique hi hj htype
  · intro t fuel id s₁ s₂ fuel' id' s₃ hrun hlater hrun'
    have hs₁ := hs.call (.resolve t) hrun
    have hs₂ := hs₁.trans hlater
    have hs₃ := hs₂.call (.resolve t) hrun'
    obtain ⟨c, hc, htype⟩ := (resolve_answers steady_any hsound hw hrun).type_eq hself
    obtain ⟨d, hd, htype'⟩ := (resolve_answers steady_any (hs₂.sound steady_any).1
      (hs₂.sound steady_any).2 hrun').type_eq hself
    have hkept : s₃.view.info? id = some c := by
      refine (next_onePerClass hself hfull steady_any (hlater.tail (.call _ fuel' hrun'))
        (hs₁.sound steady_any).1 trivial (hs₁.onePerClass hself hfull steady_any)).2 id c hc
    obtain rfl : id' = id := (hs₃.onePerClass hself hfull steady_any).unique hd hkept
      (htype'.trans htype.symm)
    exact ⟨rfl, hkept.trans hc.symm, c, hc, htype⟩
  · have hfind : s.view.cache.find? t = some id := hsound.kept.find?_eq_some.mpr hentry
    obtain ⟨c, hc, htype⟩ := hsound.held t id hfind
    obtain ⟨l, src, w, hchosen, -, hbuild⟩ := hsound.loaded id c hc
    obtain ⟨raw, hload, hname, rfl⟩ := Source.build_eq_ok hbuild
    exact ⟨_, l, src, w, raw, hc, hchosen, hload, htype, htype, hname.symm, rfl, rfl⟩

/-- The guarantee for two annotation types that are annotated with each other: resolving one of them
leaves both cached, with one object for each. -/
theorem integrity_twins : ∃ s : Session World,
    Reachable (.ofStores [.twins] .full) (fun _ => True) s ∧ s.view.cache.size = 2 ∧
      (∀ i j c d, s.view.info? i = some c → s.view.info? j = some d → c.type = d.type → i = j) ∧
      ∀ t id, (t, id) ∈ s.view.cache.entries → ∃ c, s.view.info? id = some c ∧ c.type = t := by
  let v : View World := .ofStores [.twins] .full
  have hself : v.project.SelfTyped := selfTyped_ofStores (by simp [MemoryStore.twins,
    MemoryStore.ofClasses])
  have hruns : (((Call.resolve ⟨"a.A", none⟩).run v 3 (v.fresh {})).map fun r =>
      r.2.view.cache.size) = some 2 := by decide +kernel
  obtain ⟨⟨x, s⟩, hrun, hsize⟩ := Option.map_eq_some_iff.mp hruns
  have hs : Reachable v (fun _ => True) s := (reachable_fresh trivial).call _ hrun
  have hgoal := integrity hself hs
  refine ⟨s, hs, hsize, (hgoal.2.1 rfl).1, fun t id hentry => ?_⟩
  obtain ⟨c, l, src, w, raw, hc, -, -, -, htype, -⟩ := hgoal.2.2 t id hentry
  exact ⟨c, hc, htype⟩

end View

end Classpath

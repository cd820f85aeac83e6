import Classpath.Proofs.View.Integrity

/-!
# Views that keep everything

With an unbounded cache an object that is cached for a type stays cached for it, whatever a view
does, so the object is what resolving the type gives from then on; nothing is asked and nothing is
built for it. This does not take locations that answer for the type they are asked for: an object
is cached for the type of its source.

* `Classpath.View.Trace.held`, `Classpath.View.next_held` – what is cached stays cached.
* `Classpath.View.resolve_of_held` – resolving a cached type.
* `Classpath.View.runs_build_held` – a class that is built stays cached.
* `Classpath.View.ends_readScan` – a scan leaves everything cached that it read.
-/

namespace Classpath

namespace View

variable {σ : Type} {v : View σ} {W : σ → Prop} {k : Nat} {s s' : ViewState σ} {t : ClassType}
  {id : Nat}

/-- **A step gives nothing up.** -/
theorem Step.held (hfull : v.options.policy = .full) (hs : Sound v W s) (h : Step v W k s s')
    (hid : s.cache.find? t = some id) : s'.cache.find? t = some id := by
  cases h with
  | world _ => exact hid
  | touch u =>
    rw [Cache.find?_get]
    exact hid
  | @build l src c w _ _ _ habsent =>
    have hroom : s.cache.HasRoom :=
      Cache.hasRoom_of_capacity_eq_none (by rw [hs.policy, hfull]; rfl)
    have hne : t ≠ src.type := by
      rintro rfl
      cases hid.symm.trans habsent
    change (s.cache.push src.type s.built.size).find? t = some id
    rw [Cache.find?_push_of_hasRoom hroom, if_neg hne, hid]
  | refuse _ _ _ _ _ => exact hid
  | record _ _ _ _ _ => exact hid

/-- **A run gives nothing up.** -/
theorem Trace.held (hfull : v.options.policy = .full) (hs : Sound v W s) (h : Trace v W k s s')
    (hid : s.cache.find? t = some id) : s'.cache.find? t = some id :=
  Trace.invariant (I := fun s => s.cache.find? t = some id)
    (fun _ _ hs hid hstep => hstep.held hfull hs hid) h hs hid

theorem Trace.held_isSome (hfull : v.options.policy = .full) (hs : Sound v W s)
    (h : Trace v W k s s') (hid : (s.cache.find? t).isSome) : (s'.cache.find? t).isSome := by
  obtain ⟨id, hid⟩ := Option.isSome_iff_exists.mp hid
  rw [h.held hfull hs hid]
  rfl

/-- **Nothing is given up along a session.** -/
theorem next_held (hfull : v.options.policy = .full) (hW : Steady v W) {r r' : Session σ}
    (h : Relation.ReflTransGen (Next v W) r r') (hs : Sound v W r.view) (hw : W r.view.world)
    (hid : r.view.cache.find? t = some id) : r'.view.cache.find? t = some id :=
  (next_invariant hW (I := fun s => s.cache.find? t = some id)
    (fun _ _ hs hid hstep => hstep.held hfull hs hid) (fun _ _ hid _ => hid) (fun _ _ hid => hid)
    h hs hw hid).2.2

/-- **A cached type resolves to its object**; nothing is asked and nothing is built. -/
theorem resolve_of_held {fuel : Nat} (hid : s.cache.find? t = some id) :
    v.resolve (fuel + 1) t s =
      some (.ok (some id), { s with cache := (s.cache.get t).2 }) := by
  have htouch : (touch t : Action σ (Option Nat)) s =
      some (.ok (some id), { s with cache := (s.cache.get t).2 }) := by
    rw [← hid, ← Cache.get_fst]
    rfl
  rw [resolve, Run.bind_of_ok htouch]
  rfl

/-! ### Building and scanning -/

variable {stuck : Prop}

/-- **Building leaves the class cached**, whatever it has resolved in between: the class is cached
before that, and it stays. Nothing is resolved if the type was cached already. -/
theorem runs_build_held (hfull : v.options.policy = .full) (hW : Steady v W) (hs : Sound v W s)
    (hw : W s.world) {l : Location σ} {src : Source σ} (hchosen : Chosen v W l src)
    (habsent : s.cache.find? src.type = none ∨ ∃ t, Finds v W t l src ∧ src.type ≠ t)
    {res : ClassType → Action σ (Option Nat)}
    (hres : ∀ t s', Sound v W s' → W s'.world → s.cache.find? src.type = none →
      (s'.cache.find? src.type).isSome → Trace v W s.built.size s s' →
      Runs v W s'.built.size stuck (res t) s' (Answers v W t)) :
    Runs v W s.built.size stuck (v.build res l src) s fun id s' =>
      (∃ c, (src.build (v.context l src) s.world).1 = .ok c ∧ s'.info? id = some c) ∧
        (s'.cache.find? src.type).isSome := by
  have hroom : s.cache.HasRoom :=
    Cache.hasRoom_of_capacity_eq_none (by rw [hs.policy, hfull]; rfl)
  have hinstall : ((s.cache.push src.type s.built.size).find? src.type).isSome := by
    rw [Cache.find?_push_of_hasRoom hroom, if_pos rfl]
    rfl
  refine (runs_build (I := fun _ _ s' => s.cache.find? src.type = none ∧
    (s'.cache.find? src.type).isSome) hW hs hw hchosen habsent
    (fun _ _ _ hnone => ⟨hnone, hinstall⟩)
    fun c done a i rest s' _ _ htrace hs' hw' ⟨hnone, hheld⟩ => ?_).imp
      fun id s' _ ⟨c, hc, hid, _, hheld⟩ => ⟨⟨c, hc, hid⟩, hheld⟩
  refine (hres a.type s' hs' hw' hnone hheld htrace).imp fun _ s'' htrace' h => ?_
  have hkept := htrace'.held_isSome hfull hs' hheld
  exact ⟨h, fun _ => ⟨hnone, hkept⟩⟩

/-- What a scan has seen is cached. -/
theorem scanRule_held (hfull : v.options.policy = .full) (hW : Steady v W) {fuel n : Nat}
    (hres : ∀ t s, Sound v W s → W s.world →
      Runs v W s.built.size stuck (v.resolve fuel t) s (Answers v W t)) :
    ScanRule v W n stuck fuel fun seen s =>
      (Sound v W s ∧ n ≤ s.built.size) ∧ ∀ t ∈ seen, (s.cache.find? t).isSome where
  world h _ := ⟨⟨h.1.1.inWorld _, h.1.2⟩, h.2⟩
  held h hheld := ⟨h.1, List.forall_mem_cons.mpr ⟨hheld, h.2⟩⟩
  build {seen s l src} h hw hscans _ habsent := by
    obtain ⟨⟨hs, hsize⟩, hseen⟩ := h
    have hrun := runs_build_held hfull hW hs hw (.inr hscans) (.inl habsent)
      fun t s' hs' hw' _ _ _ => hres t s' hs' hw'
    refine (hrun.mono hsize).imp fun _ s' htrace h => ?_
    refine ⟨⟨Trace.sound htrace hs, hsize.trans htrace.size_le⟩, ?_⟩
    exact List.forall_mem_cons.mpr ⟨h.2, fun t ht => htrace.held_isSome hfull hs (hseen t ht)⟩

/-- **A scan leaves a class cached for every type that it read.** -/
theorem ends_readScan (hfull : v.options.policy = .full) (hW : Steady v W) (hs : Sound v W s)
    (hw : W s.world) {fuel : Nat} :
    Runs v W s.built.size True (v.readScan fuel [] v.project.locations) s fun read s' =>
      ∀ src, .ok src ∈ read → (s'.cache.find? src.type).isSome := by
  have hrule : ScanRule v W s.built.size True fuel _ :=
    scanRule_held hfull hW fun _ _ hs' hw' => runs_resolve hW hs' hw'
  refine (runs_readScan hrule hW v.project.locations [] [] s rfl (by simp) hw
    ⟨⟨hs, le_rfl⟩, by simp⟩).imp fun read s' _ h => ?_
  obtain ⟨seen, ⟨-, hseen⟩, -, hread, -⟩ := h
  exact fun src hsrc => hseen src.type (hread src hsrc)

end View

end Classpath

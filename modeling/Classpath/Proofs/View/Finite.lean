import Classpath.Proofs.View.Full
import Classpath.Proofs.View.Fuel
import Mathlib.Data.Set.Card

/-!
# Views over finitely many types

A class comes into the cache before its annotations are looked at, and an unbounded cache never
gives it up. So a view that keeps everything builds no type twice while it answers a call, however
annotation types are annotated with each other. If its locations provide only finitely many types,
every call ends: each class that is built on the way leaves one type less to be built. It does not
matter which stores fail, or that a location answers for one type with the source of another.

* `Classpath.View.Provided` – the types of the sources that locations answer with or list.
* `Classpath.View.unbuilt`, `Classpath.View.unbuilt_lt` – how many of them are left to be built.
* `Classpath.View.runs_resolve_finite` – resolving ends.
* `Classpath.View.ends_of_finite` – so do listing every class and computing defaults.
-/

namespace Classpath

namespace View

variable {σ : Type} (v : View σ) (W : σ → Prop)

/-- **A type that is provided**: a location answers some question with a source of the type, or
lists one. -/
def Provided (t : ClassType) : Prop :=
  ∃ l ∈ v.project.locations, ∃ src : Source σ, src.type = t ∧
    ((∃ u w, W w ∧ (l.find u w).1 = .ok (some src)) ∨
      ∃ entries, Lists v W l entries ∧ .ok src ∈ entries)

/-- How many of some types are left to be built. -/
def unbuilt (types : Finset ClassType) (s : ViewState σ) : Nat :=
  (types.filter fun t => s.cache.find? t = none).card

variable {v W} {k : Nat} {s s' : ViewState σ} {types : Finset ClassType}

/-- What a view loads is provided. -/
theorem Chosen.provided {l : Location σ} {src : Source σ} (h : Chosen v W l src) :
    Provided v W src.type := by
  rcases h with ⟨t, before, after, hsplit, -, w, hw, hfind⟩ |
    ⟨before, after, hsplit, -, earlier, later, hlists, -⟩
  · exact ⟨l, by simp [hsplit], src, rfl, .inl ⟨t, w, hw, hfind⟩⟩
  · exact ⟨l, by simp [hsplit], src, rfl, .inr ⟨_, hlists, by simp⟩⟩

/-- **Stores in memory provide finitely many types**, whatever they are told. -/
theorem DrawsOn.finite_provided {v : View World} {stores : List MemoryStore}
    (hdraws : v.DrawsOn stores) (W : World → Prop) : {t | Provided v W t}.Finite := by
  refine (stores.flatMap fun m => m.classes.map (·.type)).finite_toSet.subset ?_
  rintro t ⟨l, hl, src, rfl, hprovided⟩
  obtain ⟨m, hm, hsrc⟩ :=
    hdraws.exists_store hl (hprovided.imp_left fun ⟨u, w, _, hfind⟩ => ⟨u, w, hfind⟩)
  exact List.mem_flatMap.mpr ⟨m, hm, MemoryStore.type_mem_of_mem_sources hsrc⟩

/-! ### Resolving -/

/-- Where more is cached, less is left. -/
theorem unbuilt_lt {t : ClassType}
    (hheld : ∀ u, (s.cache.find? u).isSome → (s'.cache.find? u).isSome) (ht : t ∈ types)
    (hnone : s.cache.find? t = none) (hsome : (s'.cache.find? t).isSome) :
    unbuilt types s' < unbuilt types s := by
  have hsubset : types.filter (fun u => s'.cache.find? u = none) ⊆
      types.filter fun u => s.cache.find? u = none := by
    intro u hu
    obtain ⟨hmem, hu⟩ := Finset.mem_filter.mp hu
    refine Finset.mem_filter.mpr ⟨hmem, ?_⟩
    by_contra hne
    have hkept := hheld u (Option.isSome_iff_ne_none.mpr hne)
    rw [hu] at hkept
    cases hkept
  refine Finset.card_lt_card ((Finset.ssubset_iff_of_subset hsubset).mpr ⟨t, ?_, ?_⟩)
  · exact Finset.mem_filter.mpr ⟨ht, hnone⟩
  · intro hmem
    rw [(Finset.mem_filter.mp hmem).2] at hsome
    cases hsome

theorem unbuilt_le : unbuilt types s ≤ types.card :=
  Finset.card_filter_le _ _

/-- **Resolving ends** if the fuel exceeds the number of types that are left to be built. -/
theorem runs_resolve_finite (hfull : v.options.policy = .full) (hW : Steady v W)
    (htypes : ∀ l src, Chosen v W l src → src.type ∈ types) :
    ∀ {n t s}, Sound v W s → W s.world → unbuilt types s < n →
      Runs v W s.built.size False (v.resolve n t) s (Answers v W t)
  | n + 1, t, s, hs, hw, hn => by
    refine runs_resolve_succ hW hw (fun id hid => hs.answers hid _) (fun _ habsent _ _ => habsent)
      fun hnone l src w hfinds hw' => ?_
    refine (runs_build_held hfull hW (hs.inWorld w) hw' (.inl ⟨t, hfinds⟩)
      (hfinds.absent_or_ne hnone) fun u s' hs' hw'' hnone' hheld htrace => ?_).imp
      fun id s' _ ⟨⟨c, hc, hid⟩, _⟩ => hfinds.answers hc hid
    -- the type that is built is no longer left to be built
    have hless : unbuilt types s' < unbuilt types s :=
      unbuilt_lt (fun u hu => htrace.held_isSome hfull (hs.inWorld w) hu)
        (htypes l src (.inl ⟨t, hfinds⟩)) hnone' hheld
    exact runs_resolve_finite hfull hW htypes hs' hw'' (by omega)

/-! ### Calls -/

/-- **A call ends**: it has one outcome, whatever fuel above `n` it is given. -/
def Call.EndsBeyond {α : Type} (v : View σ) (n : Nat) (c : Call α) (s : Session σ) : Prop :=
  ∃ x s', ∀ fuel, n < fuel → c.run v fuel s = some (x, s')

theorem Call.endsBeyond_of_halts {α : Type} {c : Call α} {n : Nat} {s : Session σ}
    (h : (c.run v (n + 1)).Halts s (fun _ _ => True) fun _ _ => True) : c.EndsBeyond v n s := by
  obtain ⟨x, s', hrun, -, -⟩ := h.exists
  refine ⟨x, s', fun fuel hfuel => ?_⟩
  exact c.run_extends (Nat.succ_le_of_lt hfuel) s _ hrun

/-- What a view does ends, so the call ends that asks for it. -/
theorem halts_onView {α : Type} {a : Action σ α} {r : Session σ} {A : α → ViewState σ → Prop}
    {E : ResolveError → ViewState σ → Prop} (h : a.Halts r.view A E) :
    (onView a).Halts r (fun _ _ => True) fun _ _ => True :=
  Run.outcome_zoom.mpr (h.imp (fun _ _ _ => trivial) fun _ _ _ => trivial)

/-- **What a view that keeps everything is asked for ends** if its locations provide finitely many
types: resolving a class, listing every class and computing defaults, wherever the view has come to
and whatever fails. Annotation types may be annotated with each other in any way. -/
theorem ends_of_finite (hfull : v.options.policy = .full) (hW : Steady v W)
    (hfinite : {t | Provided v W t}.Finite) {s : Session σ} (hs : Reachable v W s) :
    (∀ t, (Call.resolve t).EndsBeyond v {t | Provided v W t}.ncard s) ∧
    Call.resolveAll.EndsBeyond v {t | Provided v W t}.ncard s ∧
    ∀ id i, (Call.valuesWithDefaults id i).EndsBeyond v {t | Provided v W t}.ncard s := by
  obtain ⟨hsound, hw⟩ := hs.sound hW
  have htypes : ∀ l src, Chosen v W l src → src.type ∈ hfinite.toFinset :=
    fun l src hchosen => hfinite.mem_toFinset.mpr hchosen.provided
  have hresolve : ∀ t s, Sound v W s → W s.world →
      Runs v W s.built.size False (v.resolve ({t | Provided v W t}.ncard + 1) t) s
        (Answers v W t) := by
    intro t s hs hw
    refine runs_resolve_finite hfull hW htypes hs hw ?_
    have hle : unbuilt hfinite.toFinset s ≤ hfinite.toFinset.card := unbuilt_le
    have hcard := Set.ncard_eq_toFinset_card _ hfinite
    omega
  refine ⟨fun t => ?_, ?_, fun id i => ?_⟩
  · exact Call.endsBeyond_of_halts (halts_onView (hresolve t s.view hsound hw))
  · have hrule := scanRule_held hfull hW (n := 0) hresolve
    have hall : RunsAll v W 0 False _ s.view fun _ => True :=
      runs_resolveAll hrule hW hw (fun _ => ⟨⟨hsound, Nat.zero_le _⟩, by simp⟩)
        (fun _ => trivial) fun _ _ _ _ => trivial
    exact Call.endsBeyond_of_halts (halts_onView hall)
  · have hvalues : Runs v W 0 False
        (v.valuesWithDefaults ({t | Provided v W t}.ncard + 1) id i) s.view fun _ _ => True :=
      runs_valuesWithDefaults (P := fun _ => True) trivial fun o a _ _ _ =>
        (hresolve a.type s.view hsound hw).imp fun _ _ _ h => ⟨h, fun _ => trivial⟩
    exact Call.endsBeyond_of_halts (halts_onView hvalues)

/-- In a ring of annotation types of which one cannot be built everything ends, also after resolving
has failed and left the other two cached. -/
theorem ends_of_finite_brokenRing : ∃ s : Session World,
    Reachable (.ofStores [.brokenRing] .full) (fun _ => True) s ∧ s.view.cache.size = 2 ∧
      ∃ n, (∀ t, (Call.resolve t).EndsBeyond (.ofStores [.brokenRing] .full) n s) ∧
        Call.resolveAll.EndsBeyond (.ofStores [.brokenRing] .full) n s ∧
        ∀ id i, (Call.valuesWithDefaults id i).EndsBeyond (.ofStores [.brokenRing] .full) n s := by
  let v : View World := .ofStores [.brokenRing] .full
  have hruns : (((Call.resolve ⟨"a.A", none⟩).run v 4 (v.fresh {})).map fun r =>
      r.2.view.cache.size) = some 2 := by decide +kernel
  obtain ⟨⟨x, s⟩, hrun, hsize⟩ := Option.map_eq_some_iff.mp hruns
  have hs : Reachable v (fun _ => True) s := (reachable_fresh trivial).call _ hrun
  have hfinite : {t | Provided v (fun _ => True) t}.Finite :=
    (drawsOn_ofStores _ _).finite_provided _
  exact ⟨s, hs, hsize, _, ends_of_finite rfl steady_any hfinite hs⟩

end View

end Classpath

import Classpath.Proofs.Store.Memory

/-!
# Shadowing

A type that several locations have is resolved to the class of the first. That a view asks the
locations in order is one reason; but it also scans them, resolves types in the middle of a scan,
forgets what it resolved and meets sources that cannot be loaded, and none of this must bring a
later location into play. It does not, because whatever is loaded, and for whatever reason, is
loaded from the provider of its type (`Classpath.View.Chosen.provider`).

* `Classpath.View.shadowing` – the statement for views in use.
-/

namespace Classpath

namespace View

variable {σ : Type} {v : View σ} (cat : v.project.Catalog)

/-- **Earlier locations shadow later ones, whatever happened before.** In every state in which a
view of a coherent project can be, with either cache policy, and for every call that ends:

* the world is only asked questions, and of all the sources of a type only the provider's is loaded;
* every object that was built, cached or not, was loaded from the provider of its type;
* an answer of `resolve` is none exactly if no location lists the type, and otherwise an object of
  the type that was loaded from its provider. -/
theorem shadowing {s s' : Session σ} (hs : Reachable v cat.steady s) {α : Type} (c : Call α)
    {fuel : Nat} {x : Except HierarchyError α} (hrun : c.run v fuel s = some (x, s')) :
    Relation.ReflTransGen
        (WorldStep v cat.steady fun l src => cat.provider src.type = some (l, src))
        s.view.world s'.view.world ∧
      (∀ id d, s'.view.info? id = some d → ∃ l src w, cat.provider d.type = some (l, src) ∧
        cat.steady w ∧ (src.build (v.context l src) w).1 = .ok d) ∧
      ∀ t fuel' answer s'', (Call.resolve t).run v fuel' s' = some (.ok answer, s'') →
        (answer = none ↔ ∀ l ∈ v.project.locations, ∀ src ∈ cat.listed l, src.type ≠ t) ∧
        ∀ id, answer = some id → ∃ d l src w, s''.view.info? id = some d ∧ d.type = t ∧
          cat.provider t = some (l, src) ∧ cat.steady w ∧
          (src.build (v.context l src) w).1 = .ok d := by
  have hW := steady_catalog cat
  obtain ⟨hsound, hw⟩ := hs.sound hW
  obtain ⟨hsound', hw'⟩ := (hs.call c hrun).sound hW
  refine ⟨?_, fun id d hd => hsound'.of_catalog cat hd, fun t fuel' answer s'' hrun' => ?_⟩
  · refine Relation.ReflTransGen.mono (fun _ _ h => ?_) _ _ (c.trace hW hsound hw hrun).worldSteps
    exact h.mono fun _ _ hchosen => hchosen.provider cat
  · have hanswers := resolve_answers hW hsound' hw' hrun'
    obtain ⟨hsound'', -⟩ := ((hs.call c hrun).call _ hrun').sound hW
    cases answer with
    | none =>
      have hnone := (absent_iff cat).mp hanswers
      exact ⟨iff_of_true rfl (Project.Catalog.provider_eq_none.mp hnone), by simp⟩
    | some id =>
      obtain ⟨d, hd, rfl⟩ := hanswers.of_catalog cat
      obtain ⟨l, src, w, hprovider, hsteady, hbuild⟩ := hsound''.of_catalog cat hd
      refine ⟨iff_of_false (by simp) fun hnone => ?_, fun _ heq => ?_⟩
      · rw [Project.Catalog.provider_eq_none.mpr hnone] at hprovider
        cases hprovider
      · obtain rfl := Option.some.inj heq
        exact ⟨d, l, src, w, hd, rfl, hprovider, hsteady, hbuild⟩

/-- Of two stores that have a class, the first one cannot load it. Resolving fails, and the second
store is not asked to load it either. -/
theorem shadowing_broken :
    let v : View World := .ofStores MemoryStore.shadowed .full
    let cat := catalogOfStores MemoryStore.shadowed .full MemoryStore.faultless_shadowed
    let s := v.fresh { tallies := [{}, {}] }
    ∃ e s', (Call.resolve ⟨"a.A", none⟩).run v 1 s = some (.error e, s') ∧
      s'.view.world.tallies.map (·.builds) = [[(⟨"a.A", none⟩, 1)], []] ∧
      Relation.ReflTransGen
        (WorldStep v cat.steady fun l src => cat.provider src.type = some (l, src))
        s.view.world s'.view.world := by
  intro v cat s
  have hruns : ((Call.resolve ⟨"a.A", none⟩).run v 1 s).map (fun r =>
      (r.1.toBool, r.2.view.world.tallies.map (·.builds))) =
        some (false, [[(⟨"a.A", none⟩, 1)], []]) := by decide +kernel
  obtain ⟨⟨_ | _, s'⟩, hrun, hresult⟩ := Option.map_eq_some_iff.mp hruns
  · obtain ⟨-, hbuilds⟩ := Prod.mk.inj hresult
    exact ⟨_, s', hrun, hbuilds, (shadowing cat (reachable_fresh trivial) _ hrun).1⟩
  · cases hresult

end View

end Classpath

import Classpath.Proofs.View.Session

/-!
# More fuel changes no answer

Fuel bounds how deep resolving and collecting ancestors may go. A run that used it up has no
outcome; one that has an outcome has the same with more fuel. So a call has at most one outcome,
whatever it is given, and to say that a call ends is to say that it has an outcome with some fuel.

* `Classpath.Run.Extends` – a run that ends wherever another one does, and alike.
* `Classpath.View.resolve_extends`, `Classpath.Hierarchy.ancestorsOf_extends` – the two recursions.
* `Classpath.View.Call.run_extends`, `Classpath.View.Call.run_unique` – every call.
-/

namespace Classpath

namespace Run

variable {S T ε ε' α β : Type}

/-- **One run goes at least as far as another**: where `r` has an outcome, `r'` has the same. -/
def Extends (r r' : Run S ε α) : Prop :=
  ∀ s y, r s = some y → r' s = some y

theorem Extends.refl (r : Run S ε α) : Extends r r :=
  fun _ _ h => h

theorem extends_exhausted (r : Run S ε α) : Extends exhausted r := by
  rintro s y ⟨⟩

/-- One run after another. -/
theorem Extends.bind {r r' : Run S ε α} {k k' : α → Run S ε β} (h : Extends r r')
    (hk : ∀ a, Extends (k a) (k' a)) : Extends (r >>= k) (r' >>= k') := by
  intro s y hy
  change Run.bind r k s = some y at hy
  change Run.bind r' k' s = some y
  simp only [Run.bind] at hy ⊢
  rcases hr : r s with _ | ⟨e | a, s'⟩ <;> rw [hr] at hy
  · cases hy
  · rw [h s _ hr]
    exact hy
  · rw [h s _ hr]
    exact hk a s' y hy

theorem Extends.zoom {part : S → T} {put : T → S → S} {wrap : ε → ε'} {r r' : Run T ε α}
    (h : Extends r r') : Extends (Run.zoom part put wrap r) (Run.zoom part put wrap r') := by
  intro s y hy
  simp only [Run.zoom] at hy ⊢
  rcases hr : r (part s) with _ | ⟨x, t⟩ <;> rw [hr] at hy
  · cases hy
  · rw [h _ _ hr]
    exact hy

theorem Extends.forEach {f f' : α → Run S ε Unit} (h : ∀ a, Extends (f a) (f' a)) :
    ∀ l, Extends (Run.forEach f l) (Run.forEach f' l)
  | [] => .refl _
  | a :: rest => (h a).bind fun _ => Extends.forEach h rest

end Run

namespace View

variable {σ : Type} {v : View σ} {n m : Nat}

section Building

variable {res res' : ClassType → Action σ (Option Nat)}

theorem materialize_extends (hres : ∀ t, Run.Extends (res t) (res' t)) (id i : Nat)
    (a : AnnotationUse ClassType) :
    Run.Extends (materialize res id a i) (materialize res' id a i) := by
  rw [materialize, materialize]
  refine (Run.Extends.refl _).bind fun o => ?_
  rcases o.merged? i with _ | elements
  · exact (hres a.type).bind fun _ => .refl _
  · exact .refl _

theorem build_extends (hres : ∀ t, Run.Extends (res t) (res' t)) (l : Location σ)
    (src : Source σ) : Run.Extends (v.build res l src) (v.build res' l src) := by
  rw [build, build]
  refine (Run.Extends.refl _).bind fun loaded => ?_
  rcases loaded with e | c
  · exact .refl _
  · refine (Run.Extends.refl _).bind fun id => (Run.Extends.refl _).bind fun _ => ?_
    dsimp only
    split
    · refine Run.Extends.bind ?_ fun _ => .refl _
      exact Run.Extends.forEach (fun (x : AnnotationUse ClassType × Nat) =>
        (materialize_extends hres id x.2 x.1).bind fun _ => .refl _) _
    · exact .refl _

theorem findIn_extends (hres : ∀ t, Run.Extends (res t) (res' t)) (t : ClassType) :
    ∀ locations, Run.Extends (v.findIn res t locations) (v.findIn res' t locations)
  | [] => .refl _
  | l :: rest => by
    rw [findIn, findIn]
    refine (Run.Extends.refl _).bind fun found => ?_
    rcases found with e | _ | src
    · exact .refl _
    · exact findIn_extends hres t rest
    · exact (build_extends hres l src).bind fun _ => .refl _

end Building

/-- **Resolving with more fuel.** -/
theorem resolve_extends : ∀ {n m : Nat}, n ≤ m → ∀ t,
    Run.Extends (v.resolve n t) (v.resolve m t)
  | 0, _, _, _ => Run.extends_exhausted _
  | n + 1, m + 1, h, t => by
    rw [resolve, resolve]
    refine (Run.Extends.refl _).bind fun held => ?_
    rcases held with _ | id
    · exact findIn_extends (resolve_extends (Nat.le_of_succ_le_succ h)) t v.project.locations
    · exact .refl _

theorem scanEntries_extends (h : n ≤ m) (l : Location σ) :
    ∀ entries seen, Run.Extends (v.scanEntries n l seen entries) (v.scanEntries m l seen entries)
  | [], _ => .refl _
  | .error _ :: _, _ => .refl _
  | .ok src :: rest, seen => by
    rw [scanEntries, scanEntries]
    split
    · exact scanEntries_extends h l rest seen
    · refine (Run.Extends.refl _).bind fun cached => ?_
      dsimp only
      split
      · exact (build_extends (resolve_extends h) l src).bind fun _ =>
          scanEntries_extends h l rest _
      · exact scanEntries_extends h l rest _

theorem scanParts_extends (h : n ≤ m) (l : Location σ) :
    ∀ parts seen, Run.Extends (v.scanParts n l seen parts) (v.scanParts m l seen parts)
  | [], _ => .refl _
  | _ :: rest, seen => by
    rw [scanParts, scanParts]
    exact (Run.Extends.refl _).bind fun entries =>
      (scanEntries_extends h l entries seen).bind fun _ => scanParts_extends h l rest _

theorem scan_extends (h : n ≤ m) :
    ∀ locations seen, Run.Extends (v.scan n seen locations) (v.scan m seen locations)
  | [], _ => .refl _
  | l :: rest, seen => by
    rw [scan, scan]
    refine (Run.Extends.refl _).bind fun listed => ?_
    rcases listed with e | listing
    · exact .refl _
    · exact (scanParts_extends h l listing seen).bind fun _ => scan_extends h rest _

/-- **Listing every class with more fuel.** -/
theorem resolveAll_extends (h : n ≤ m) : Run.Extends (v.resolveAll n) (v.resolveAll m) := by
  rw [resolveAll, resolveAll]
  refine (Run.Extends.refl _).bind fun complete => ?_
  dsimp only
  split
  · exact (scan_extends h v.project.locations []).bind fun _ => .refl _
  · exact .refl _

/-- **Computing defaults with more fuel.** -/
theorem valuesWithDefaults_extends (h : n ≤ m) (id i : Nat) :
    Run.Extends (v.valuesWithDefaults n id i) (v.valuesWithDefaults m id i) := by
  rw [valuesWithDefaults, valuesWithDefaults]
  refine (Run.Extends.refl _).bind fun o => ?_
  rcases o.info.annotations[i]? with _ | a
  · exact .refl _
  · exact (materialize_extends (resolve_extends h) id i a).bind fun _ => .refl _

end View

namespace Hierarchy

variable {σ : Type} {v : View σ} {n m : Nat}

theorem require_extends (h : n ≤ m) (t : ClassType) :
    Run.Extends (require v n t) (require v m t) := by
  rw [require, require]
  exact (View.resolve_extends h t).zoom.bind fun _ => .refl _

section Ancestors

variable {find find' : ClassType → Query σ (Option Ancestors)}

theorem inherited_extends (hfind : ∀ t, Run.Extends (find t) (find' t))
    (reference subtype : ClassType) :
    Run.Extends (inherited find reference subtype) (inherited find' reference subtype) := by
  rw [inherited, inherited]
  split
  · refine (hfind _).bind fun found => ?_
    rcases found with _ | a
    · exact hfind reference
    · exact .refl _
  · exact hfind reference

theorem addInterfaces_extends (hfind : ∀ t, Run.Extends (find t) (find' t))
    (subtype : ClassType) : ∀ types a,
    Run.Extends (addInterfaces find subtype types a) (addInterfaces find' subtype types a)
  | [], _ => .refl _
  | t :: rest, _ => (inherited_extends hfind t subtype).bind fun _ =>
      addInterfaces_extends hfind subtype rest _

theorem collect_extends (hfind : ∀ t, Run.Extends (find t) (find' t)) (c : ClassInfo) :
    Run.Extends (collect find c) (collect find' c) := by
  rw [collect, collect]
  have hrest := addInterfaces_extends hfind c.type c.interfaces
  rcases c.superclass with _ | t
  · exact (Run.Extends.refl _).bind hrest
  · exact (inherited_extends hfind t c.type).bind fun _ => (Run.Extends.refl _).bind hrest

end Ancestors

/-- **Collecting ancestors with more fuel.** -/
theorem ancestorsOf_extends : ∀ {n m : Nat}, n ≤ m → ∀ active t,
    Run.Extends (ancestorsOf v n active t) (ancestorsOf v m active t)
  | 0, _, _, _, _ => Run.extends_exhausted _
  | n + 1, m + 1, h, active, t => by
    rw [ancestorsOf, ancestorsOf]
    refine (Run.Extends.refl _).bind fun known => ?_
    rcases known with _ | a
    · refine (View.resolve_extends h t).zoom.bind fun answer => ?_
      rcases answer with _ | id
      · exact .refl _
      · refine (Run.Extends.refl _).bind fun o => ?_
        dsimp only
        split
        · exact .refl _
        · refine Run.Extends.bind ?_ fun _ => .refl _
          exact collect_extends (ancestorsOf_extends (Nat.le_of_succ_le_succ h) _) o.info
    · exact .refl _

theorem requireAncestors_extends (h : n ≤ m) (t : ClassType) :
    Run.Extends (requireAncestors v n t) (requireAncestors v m t) := by
  rw [requireAncestors, requireAncestors]
  exact (ancestorsOf_extends h [] t).bind fun _ => .refl _

theorem subtypeEdges_extends (h : n ≤ m) :
    Run.Extends (subtypeEdges v n) (subtypeEdges v m) := by
  rw [subtypeEdges, subtypeEdges]
  refine (Run.Extends.refl _).bind fun known => ?_
  rcases known with _ | edges
  · exact (View.resolveAll_extends h).zoom.bind fun _ => .refl _
  · exact .refl _

end Hierarchy

namespace View

variable {σ : Type} {v : View σ} {n m : Nat} {α : Type}

/-- **Every call with more fuel.** -/
theorem Call.run_extends (c : Call α) (h : n ≤ m) : Run.Extends (c.run v n) (c.run v m) := by
  cases c with
  | resolve t => exact (resolve_extends h t).zoom
  | resolveAll => exact (resolveAll_extends h).zoom
  | valuesWithDefaults id i => exact (valuesWithDefaults_extends h id i).zoom
  | superclassOf k t | interfacesOf k t =>
    exact ((Hierarchy.require_extends h t).bind fun _ => .refl _).zoom
  | implementedInterfacesOf k t | superclassesOf k t =>
    exact ((Hierarchy.requireAncestors_extends h t).bind fun _ => .refl _).zoom
  | isSubtype k supertype candidate =>
    exact ((Hierarchy.requireAncestors_extends h candidate).bind fun _ => .refl _).zoom
  | directSubtypesOf k t | subtypesOf k t =>
    refine ((Hierarchy.require_extends h t).bind fun _ => ?_).zoom
    exact (Hierarchy.subtypeEdges_extends h).bind fun _ => .refl _

/-- **A call has one outcome**, whatever the fuel with which it has one. -/
theorem Call.run_unique {c : Call α} {s : Session σ} {x y : Except HierarchyError α × Session σ}
    (hx : c.run v n s = some x) (hy : c.run v m s = some y) : x = y := by
  have hmore := c.run_extends (le_max_left n m) s x hx
  rw [c.run_extends (le_max_right n m) s y hy] at hmore
  exact (Option.some.inj hmore).symm

end View

end Classpath

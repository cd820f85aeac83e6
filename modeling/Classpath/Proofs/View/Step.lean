import Classpath.View
import Classpath.Proofs.Recency
import Mathlib.Logic.Relation
import Mathlib.Order.Nat

/-!
# The steps of a view

Resolving, scanning and computing defaults call each other, and any of them may fail half-way. What
they do to a view is nevertheless made of a few steps, and this file says once and for all what they
are (`Classpath.View.Step`): the world answers a question, an entry is touched, a class is built and
cached, defaults are recorded. Whatever every step preserves holds in every state of a view, whoever
called whom and wherever an error cut a call short.

The steps name their reasons. A source is only loaded when it was chosen
(`Classpath.View.Chosen`): it is the answer of the first location that had one, or it was listed
before any other source of its type. An error only arises from a fault of the stores
(`Classpath.View.Fault`).

Stores may depend on the world and change it, and a store that is sound in one world may fail in
another. All of this is therefore relative to a set `W` of worlds in which the view is used;
`Classpath.View.Steady` says that its own steps do not lead out of it.

* `Classpath.View.Sound` – the invariant: what is cached was built, and what was built was chosen.
* `Classpath.View.Step.sound`, `Classpath.View.Trace.sound` – it is kept by a step and by a run.
-/

namespace Classpath

/-! ### Loading -/

/-- A class that is loaded carries the identifier, the origin and the source type that were settled
for it, and has the name it was stored under. -/
theorem Source.build_eq_ok {σ : Type} {s : Source σ} {ctx : BuildContext} {w : σ} {c : ClassInfo}
    (h : (s.build ctx w).1 = .ok c) :
    ∃ raw, (s.load ctx w).1 = .ok raw ∧ raw.type.name = s.type.name ∧
      c = { raw with type := s.type, origin := s.origin, sourceType := ctx.sourceType } := by
  change ((s.load ctx w).1.bind (·.stamped s.type s.origin ctx.sourceType)) = .ok c at h
  rcases hload : (s.load ctx w).1 with e | raw
  · rw [hload] at h
    cases h
  · rw [hload] at h
    change raw.stamped s.type s.origin ctx.sourceType = .ok c at h
    rw [ClassInfo.stamped] at h
    split at h
    · rename_i hname
      exact ⟨raw, rfl, hname, (Except.ok.inj h).symm⟩
    · cases h

theorem Source.type_of_build {σ : Type} {s : Source σ} {ctx : BuildContext} {w : σ} {c : ClassInfo}
    (h : (s.build ctx w).1 = .ok c) : c.type = s.type := by
  obtain ⟨raw, -, -, rfl⟩ := build_eq_ok h
  rfl

/-! ### Annotations to be looked at -/

namespace ClassInfo

variable {c : ClassInfo}

/-- The annotations of a list that come without computed elements, with their positions in the class,
if the first of the list is at position `n`. -/
def pendingFrom (c : ClassInfo) (annotations : List (AnnotationUse ClassType)) (n : Nat) :
    List (AnnotationUse ClassType × Nat) :=
  (annotations.zipIdx n).filter fun (_, i) => (c.computed? i).isNone

/-- The annotations whose elements are computed as soon as a class is cached, with their positions:
those of an annotation type that come without computed elements. -/
def eager (c : ClassInfo) : List (AnnotationUse ClassType × Nat) :=
  if c.isAnnotationType then c.pendingFrom c.annotations 0 else []

/-- The same annotations without their positions. -/
def eagerAnnotations (c : ClassInfo) : List (AnnotationUse ClassType) :=
  c.eager.map Prod.fst

theorem pendingFrom_append (first rest : List (AnnotationUse ClassType)) (n : Nat) :
    c.pendingFrom (first ++ rest) n =
      c.pendingFrom first n ++ c.pendingFrom rest (n + first.length) := by
  rw [pendingFrom, List.zipIdx_append, List.filter_append]
  rfl

theorem pendingFrom_cons_of_none {a : AnnotationUse ClassType}
    {rest : List (AnnotationUse ClassType)} {n : Nat} (h : c.computed? n = none) :
    c.pendingFrom (a :: rest) n = (a, n) :: c.pendingFrom rest (n + 1) := by
  rw [pendingFrom, List.zipIdx_cons, List.filter_cons_of_pos (by simp [h])]
  rfl

theorem pendingFrom_cons_of_some {a : AnnotationUse ClassType}
    {rest : List (AnnotationUse ClassType)} {n : Nat} (h : (c.computed? n).isSome) :
    c.pendingFrom (a :: rest) n = c.pendingFrom rest (n + 1) := by
  rw [pendingFrom, List.zipIdx_cons,
    List.filter_cons_of_neg (by simpa using Option.isSome_iff_ne_none.mp h)]
  rfl

theorem mem_pendingFrom_zero {a : AnnotationUse ClassType} {i : Nat} :
    (a, i) ∈ c.pendingFrom c.annotations 0 ↔ c.annotations[i]? = some a ∧ c.computed? i = none := by
  simp [pendingFrom, List.mem_zipIdx_iff_getElem?]

theorem mem_eager {a : AnnotationUse ClassType} {i : Nat} :
    (a, i) ∈ c.eager ↔
      c.isAnnotationType ∧ c.annotations[i]? = some a ∧ c.computed? i = none := by
  rw [eager]
  split
  · rw [mem_pendingFrom_zero]
    simp [*]
  · simp [*]

theorem eagerAnnotations_of_eager {done rest : List (AnnotationUse ClassType × Nat)}
    {a : AnnotationUse ClassType} {i : Nat} (h : c.eager = done ++ (a, i) :: rest) :
    c.eagerAnnotations = done.map Prod.fst ++ a :: rest.map Prod.fst := by
  rw [eagerAnnotations, h, List.map_append, List.map_cons]

end ClassInfo

namespace Loaded

/-- A class is built with the elements with which it came. -/
theorem merged?_fresh (c : ClassInfo) (i : Nat) :
    (fresh c).merged? i = if i < c.annotations.length then c.computed? i else none := by
  rw [merged?, fresh, List.getElem?_map]
  split
  · rename_i hi
    rw [List.getElem?_range hi]
    rfl
  · rename_i hi
    rw [List.getElem?_eq_none (by simpa using hi)]
    rfl

theorem merged?_fresh_of_getElem? {c : ClassInfo} {i : Nat} {a : AnnotationUse ClassType}
    (ha : c.annotations[i]? = some a) : (fresh c).merged? i = c.computed? i := by
  rw [merged?_fresh, if_pos (List.getElem?_eq_some_iff.mp ha).1]

theorem merged?_setMerged_of_ne {o : Loaded} {i j : Nat} {elements : Elements} (h : i ≠ j) :
    (o.setMerged i elements).merged? j = o.merged? j := by
  rw [merged?, setMerged, List.getElem?_set_ne h, merged?]

end Loaded

namespace ViewState

variable {σ : Type}

/-- The class of the object of a number. -/
def info? (s : ViewState σ) (id : Nat) : Option ClassInfo :=
  (s.built[id]?).map (·.info)

/-- The state once a class is built and cached for a type. -/
def install (s : ViewState σ) (t : ClassType) (c : ClassInfo) (w : σ) : ViewState σ where
  world := w
  cache := s.cache.push t s.built.size
  built := s.built.push (.fresh c)
  complete := s.complete

/-- The state with the mark that says whether every class was once resolved. -/
def marked (s : ViewState σ) (complete : Bool) : ViewState σ :=
  { s with complete }

/-- The state once the elements of an annotation are recorded. -/
def recorded (s : ViewState σ) (id i : Nat) (elements : Elements) : ViewState σ :=
  { s with built := s.built.modify id (·.setMerged i elements) }

theorem built_install_self {s : ViewState σ} {t : ClassType} {c : ClassInfo} {w : σ} :
    (s.install t c w).built[s.built.size]? = some (.fresh c) := by
  simp [install]

theorem info?_push {s : ViewState σ} {built : Array Loaded} {id : Nat} {c : ClassInfo} {o : Loaded}
    (h : s.info? id = some c) (hbuilt : built = s.built.push o) :
    (built[id]?).map (·.info) = some c := by
  have hid : id ≠ s.built.size := by
    rintro rfl
    simp [info?] at h
  rw [hbuilt, Array.getElem?_push, if_neg hid]
  exact h

theorem built_recorded_self (s : ViewState σ) (id i : Nat) (elements : Elements) :
    (s.recorded id i elements).built[id]? = (s.built[id]?).map (·.setMerged i elements) := by
  simp [recorded, Array.getElem?_modify]

theorem built_recorded_of_ne {s : ViewState σ} {id j : Nat} (h : j ≠ id) (i : Nat)
    (elements : Elements) : (s.recorded id i elements).built[j]? = s.built[j]? := by
  rw [recorded, Array.getElem?_modify, if_neg h.symm]

/-- Recording elements changes no class. -/
theorem info?_recorded (s : ViewState σ) (id i : Nat) (elements : Elements) (j : Nat) :
    (s.recorded id i elements).info? j = s.info? j := by
  simp only [info?, recorded, Array.getElem?_modify]
  split
  · rename_i hij
    subst hij
    rw [Option.map_map]
    rfl
  · rfl

end ViewState

namespace View

variable {σ : Type} (v : View σ) (W : σ → Prop)

/-! ### How sources are chosen -/

/-- What the parts of a listing hold, each of them read in one of the worlds. -/
inductive Reads : Listing σ → List (Except LocationError (Source σ)) → Prop
  | nil : Reads [] []
  | snoc {parts entries w} (part : σ → List (Except LocationError (Source σ)) × σ) :
      Reads parts entries → W w → Reads (parts ++ [part]) (entries ++ (part w).1)

/-- What a location lists, read in some of the worlds. -/
def Lists (l : Location σ) (entries : List (Except LocationError (Source σ))) : Prop :=
  ∃ w listing, W w ∧ (l.list v.project.naming w).1 = .ok listing ∧ Reads W listing entries

/-- No location has a type. -/
def Absent (t : ClassType) : Prop :=
  ∀ l ∈ v.project.locations, ∃ w, W w ∧ (l.find t w).1 = .ok none

/-- **A point look-up**: the source is the answer of a location, and no location before it had
one. -/
def Finds (t : ClassType) (l : Location σ) (src : Source σ) : Prop :=
  ∃ before after, v.project.locations = before ++ l :: after ∧
    (∀ m ∈ before, ∃ w, W w ∧ (m.find t w).1 = .ok none) ∧
    ∃ w, W w ∧ (l.find t w).1 = .ok (some src)

/-- **A scan**: the source is listed, and no source of its type is listed before it, neither by an
earlier location nor by its own. -/
def Scans (l : Location σ) (src : Source σ) : Prop :=
  ∃ before after, v.project.locations = before ++ l :: after ∧
    (∀ m ∈ before, ∃ entries, Lists v W m entries ∧
      ∀ other, .ok other ∈ entries → other.type ≠ src.type) ∧
    ∃ earlier later, Lists v W l (earlier ++ .ok src :: later) ∧
      ∀ other, .ok other ∈ earlier → other.type ≠ src.type

/-- A source that a view loads. -/
def Chosen (l : Location σ) (src : Source σ) : Prop :=
  (∃ t, Finds v W t l src) ∨ Scans v W l src

/-- The type of the class that is the answer for a type: the type itself, unless a location answered
with the source of another. -/
def Answered (t u : ClassType) : Prop :=
  u = t ∨ ∃ l src, Finds v W t l src ∧ src.type = u

/-- **An answer for a type**: an object, or none because no location has the type. -/
def Answers (t : ClassType) (answer : Option Nat) (s : ViewState σ) : Prop :=
  match answer with
  | none => Absent v W t
  | some id => ∃ c, s.info? id = some c ∧ Answered v W t c.type

/-- **What can go wrong**, each error with the fault of a store that it reports. A cache refuses a
class only if a location answers for one type with the source of another. -/
inductive Fault : ResolveError → Prop
  | build {l src w e} : Chosen v W l src → W w → (src.build (v.context l src) w).1 = .error e →
      Fault (.build src.type e)
  | lookup {l t w e} : l ∈ v.project.locations → W w → (l.find t w).1 = .error e →
      Fault (.lookup t l.description e)
  | list {l w e} : l ∈ v.project.locations → W w → (l.list v.project.naming w).1 = .error e →
      Fault (.scan l.description e)
  | entry {l entries e} : l ∈ v.project.locations → Lists v W l entries → .error e ∈ entries →
      Fault (.scan l.description e)
  | cache {t l src} : Finds v W t l src → src.type ≠ t →
      Fault (.cache (.duplicateInsertion src.type))

/-! ### Steps -/

/-- **What changes the world**: questions to the locations, and loading one of the sources that
`Loads` allows. -/
inductive WorldStep (Loads : Location σ → Source σ → Prop) : σ → σ → Prop
  | find {l w} (t : ClassType) : l ∈ v.project.locations → W w →
      WorldStep Loads w (l.find t w).2
  | list {l w} : l ∈ v.project.locations → W w → WorldStep Loads w (l.list v.project.naming w).2
  | part {l w₀ listing part w} : l ∈ v.project.locations → W w₀ →
      (l.list v.project.naming w₀).1 = .ok listing → part ∈ listing → W w →
      WorldStep Loads w (part w).2
  | load {l src w} : Loads l src → W w →
      WorldStep Loads w (src.build (v.context l src) w).2

/-- The steps of a view do not lead out of the worlds in which it is used. -/
def Steady : Prop :=
  ∀ w w', WorldStep v W (Chosen v W) w w' → W w'

/-- **The steps of a view.** Annotations are only looked at on objects from the number `k` on: a
class that is being resolved changes no object that was there before. -/
inductive Step (k : Nat) : ViewState σ → ViewState σ → Prop
  | world {s w} : WorldStep v W (Chosen v W) s.world w → Step k s { s with world := w }
  | touch {s} (t : ClassType) : Step k s { s with cache := (s.cache.get t).2 }
  | build {s l src c w} : Chosen v W l src → W s.world →
      src.build (v.context l src) s.world = (.ok c, w) → s.cache.find? src.type = none →
      Step k s (s.install src.type c w)
  | refuse {s t l src c w id} : Finds v W t l src → src.type ≠ t → W s.world →
      src.build (v.context l src) s.world = (.ok c, w) → s.cache.find? src.type = some id →
      Step k s { s with world := w, built := s.built.push (.fresh c) }
  | record {s id i o a answer} : k ≤ id → s.built[id]? = some o →
      o.info.annotations[i]? = some a → o.merged? i = none → Answers v W a.type answer s →
      Step k s (s.recorded id i (mergedElements (answer.bind s.info?) a))

/-- Any number of steps. -/
abbrev Trace (k : Nat) : ViewState σ → ViewState σ → Prop :=
  Relation.ReflTransGen (Step v W k)

variable {v W} {k : Nat} {s s' : ViewState σ}

theorem Step.mono {k' : Nat} (hk : k' ≤ k) (h : Step v W k s s') : Step v W k' s s' := by
  cases h with
  | world h => exact .world h
  | touch t => exact .touch t
  | build hl hw hb ha => exact .build hl hw hb ha
  | refuse hl hne hw hb hc => exact .refuse hl hne hw hb hc
  | record hid ho ha hn hd => exact .record (hk.trans hid) ho ha hn hd

theorem Trace.mono {k' : Nat} (hk : k' ≤ k) (h : Trace v W k s s') : Trace v W k' s s' :=
  Relation.ReflTransGen.mono (fun _ _ => Step.mono hk) _ _ h

/-! ### What steps leave alone -/

/-- Steps neither change the mark of a scan nor depend on it. -/
theorem Step.complete_eq (h : Step v W k s s') : s'.complete = s.complete := by
  cases h <;> rfl

theorem Trace.complete_eq (h : Trace v W k s s') : s'.complete = s.complete := by
  induction h with
  | refl => rfl
  | tail _ hstep ih => rw [hstep.complete_eq, ih]

theorem Step.marked (b : Bool) (h : Step v W k s s') : Step v W k (s.marked b) (s'.marked b) := by
  cases h with
  | world h => exact .world h
  | touch t => exact .touch t
  | build hl hw hb ha => exact .build hl hw hb ha
  | refuse hl hne hw hb hc => exact .refuse hl hne hw hb hc
  | record hid ho ha hn hd => exact .record hid ho ha hn hd

theorem Trace.marked (b : Bool) (h : Trace v W k s s') :
    Trace v W k (s.marked b) (s'.marked b) := by
  induction h with
  | refl => exact .refl
  | tail _ hstep ih => exact ih.tail (hstep.marked b)

/-- **Objects are never replaced.** -/
theorem Step.info? {id : Nat} {c : ClassInfo} (h : Step v W k s s') (hc : s.info? id = some c) :
    s'.info? id = some c := by
  cases h with
  | world _ => exact hc
  | touch t => exact hc
  | build _ _ _ _ => exact ViewState.info?_push hc rfl
  | refuse _ _ _ _ _ => exact ViewState.info?_push hc rfl
  | record _ _ _ _ _ => rwa [ViewState.info?_recorded]

theorem Trace.info? {id : Nat} {c : ClassInfo} (h : Trace v W k s s') (hc : s.info? id = some c) :
    s'.info? id = some c := by
  induction h with
  | refl => exact hc
  | tail _ hstep ih => exact hstep.info? ih

theorem Step.size_le (h : Step v W k s s') : s.built.size ≤ s'.built.size := by
  cases h with
  | world _ => exact le_rfl
  | touch t => exact le_rfl
  | build _ _ _ _ => simp [ViewState.install]
  | refuse _ _ _ _ _ => simp
  | record _ _ _ _ _ => simp [ViewState.recorded]

theorem Trace.size_le (h : Trace v W k s s') : s.built.size ≤ s'.built.size := by
  induction h with
  | refl => exact le_rfl
  | tail _ hstep ih => exact ih.trans hstep.size_le

/-- **Objects before the number `k` are left alone**, with the elements computed for them. -/
theorem Step.built_eq {id : Nat} (h : Step v W k s s') (hid : id < k) (hsize : id < s.built.size) :
    s'.built[id]? = s.built[id]? := by
  cases h with
  | world _ => rfl
  | touch t => rfl
  | build _ _ _ _ => exact Array.getElem?_push.trans (if_neg hsize.ne)
  | refuse _ _ _ _ _ => exact Array.getElem?_push.trans (if_neg hsize.ne)
  | record hk _ _ _ _ => exact ViewState.built_recorded_of_ne (by omega) _ _

theorem Trace.built_eq {id : Nat} (h : Trace v W k s s') (hid : id < k)
    (hsize : id < s.built.size) : s'.built[id]? = s.built[id]? := by
  induction h with
  | refl => rfl
  | tail htrace hstep ih =>
    rw [hstep.built_eq hid (hsize.trans_le (Trace.size_le htrace)), ih]

/-- **Where the objects after a step come from**: they were there before, or they are new, or
elements were recorded for an annotation that had none. -/
theorem Step.of_built {id : Nat} {o : Loaded} (h : Step v W k s s') (ho : s'.built[id]? = some o) :
    s.built[id]? = some o ∨ (id = s.built.size ∧ ∃ c, o = .fresh c) ∨ ∃ before i a answer,
      s.built[id]? = some before ∧ before.info.annotations[i]? = some a ∧
      before.merged? i = none ∧ Answers v W a.type answer s ∧
      o = before.setMerged i (mergedElements (answer.bind s.info?) a) := by
  have hpush : ∀ {c : ClassInfo}, (s.built.push (.fresh c))[id]? = some o →
      s.built[id]? = some o ∨ id = s.built.size ∧ ∃ c, o = .fresh c := by
    intro c ho
    rw [Array.getElem?_push] at ho
    split at ho
    · exact .inr ⟨‹_›, c, (Option.some.inj ho).symm⟩
    · exact .inl ho
  cases h with
  | world _ => exact .inl ho
  | touch _ => exact .inl ho
  | build _ _ _ _ => exact (hpush ho).imp_right .inl
  | refuse _ _ _ _ _ => exact (hpush ho).imp_right .inl
  | @record id' i before a answer _ hbefore ha hnone hanswer =>
    by_cases hid : id = id'
    · subst hid
      rw [ViewState.built_recorded_self, hbefore] at ho
      exact .inr (.inr ⟨before, i, a, answer, hbefore, ha, hnone, hanswer,
        (Option.some.inj ho).symm⟩)
    · rw [ViewState.built_recorded_of_ne hid] at ho
      exact .inl ho

theorem Answers.trace {t : ClassType} {answer : Option Nat} (h : Answers v W t answer s)
    (htrace : Trace v W k s s') : Answers v W t answer s' := by
  cases answer with
  | none => exact h
  | some id =>
    obtain ⟨c, hc, hanswered⟩ := h
    exact ⟨c, htrace.info? hc, hanswered⟩

/-! ### The invariant -/

variable (v W) in
/-- **The invariant of a view.** The cache is well kept, what it holds for a type is an object of
that type, and every object is what some chosen source was loaded to. -/
structure Sound (s : ViewState σ) : Prop where
  kept : s.cache.WellKept
  policy : s.cache.capacity = v.options.policy.capacity?
  held : ∀ t id, s.cache.find? t = some id → ∃ c, s.info? id = some c ∧ c.type = t
  loaded : ∀ id c, s.info? id = some c → ∃ l src w, Chosen v W l src ∧ W w ∧
    (src.build (v.context l src) w).1 = .ok c

theorem sound_start (w : σ) : Sound v W (v.start w) where
  kept := Cache.wellKept_empty _
  policy := rfl
  held _ _ h := by cases h
  loaded _ _ h := by simp [start, ViewState.info?] at h

/-- A cached number is the number of an object. -/
theorem Sound.lt_size (hs : Sound v W s) {t : ClassType} {id : Nat}
    (h : s.cache.find? t = some id) : id < s.built.size := by
  obtain ⟨c, hc, -⟩ := hs.held t id h
  by_contra hge
  rw [ViewState.info?, Array.getElem?_eq_none (not_lt.mp hge)] at hc
  cases hc

/-- The invariant does not look at the world or at the mark of a scan. -/
theorem Sound.of_eq (hs : Sound v W s) (hcache : s'.cache = s.cache) (hbuilt : s'.built = s.built) :
    Sound v W s' where
  kept := hcache ▸ hs.kept
  policy := hcache ▸ hs.policy
  held t id h := by
    have hinfo : s'.info? = s.info? := by funext; rw [ViewState.info?, hbuilt, ViewState.info?]
    rw [hcache] at h
    rw [hinfo]
    exact hs.held t id h
  loaded id c h := by
    rw [ViewState.info?, hbuilt] at h
    exact hs.loaded id c h

theorem Sound.inWorld (hs : Sound v W s) (w : σ) : Sound v W { s with world := w } :=
  hs.of_eq rfl rfl

theorem Sound.marked (hs : Sound v W s) (b : Bool) : Sound v W (s.marked b) :=
  hs.of_eq rfl rfl

/-- What was built so far, and one class more. -/
theorem Sound.loaded_push (hs : Sound v W s) {l : Location σ} {src : Source σ} {c : ClassInfo}
    {w : σ} (hl : Chosen v W l src) (hw : W s.world)
    (hb : src.build (v.context l src) s.world = (.ok c, w)) (id : Nat) (d : ClassInfo)
    (hd : ((s.built.push (.fresh c))[id]?).map (·.info) = some d) :
    ∃ l src w, Chosen v W l src ∧ W w ∧ (src.build (v.context l src) w).1 = .ok d := by
  rw [Array.getElem?_push] at hd
  split at hd
  · obtain rfl : c = d := Option.some.inj hd
    exact ⟨l, src, s.world, hl, hw, by rw [hb]⟩
  · exact hs.loaded id d hd

/-- **Every step keeps the invariant.** -/
theorem Step.sound (h : Step v W k s s') (hs : Sound v W s) : Sound v W s' := by
  have hinfo : ∀ {id c}, s.info? id = some c → s'.info? id = some c := fun hc => h.info? hc
  have hheld : ∀ t id, s.cache.find? t = some id → ∃ c, s'.info? id = some c ∧ c.type = t := by
    intro t id hid
    obtain ⟨c, hc, ht⟩ := hs.held t id hid
    exact ⟨c, hinfo hc, ht⟩
  cases h with
  | world _ => exact hs.of_eq rfl rfl
  | touch t =>
    exact ⟨hs.kept.get, by simpa using hs.policy, fun u id hid => hheld u id (by simpa using hid),
      hs.loaded⟩
  | @build l src c w hl hw hb ha =>
    refine ⟨hs.kept.push ha, hs.policy, fun t id hid => ?_, hs.loaded_push hl hw hb⟩
    -- what is held now is the new object, or it was held before
    rcases Cache.find?_push_eq_some hid with ⟨rfl, rfl⟩ | hold
    · refine ⟨c, ?_, Source.type_of_build (by rw [hb])⟩
      rw [ViewState.info?, ViewState.built_install_self]
      rfl
    · exact hheld t id hold
  | refuse hl hne hw hb hc =>
    -- the refused object stays, but the cache does not hold it
    exact ⟨hs.kept, hs.policy, hheld, hs.loaded_push (.inl ⟨_, hl⟩) hw hb⟩
  | record _ _ _ _ _ =>
    refine ⟨hs.kept, hs.policy, hheld, fun id c hc => hs.loaded id c ?_⟩
    rwa [ViewState.info?_recorded] at hc

/-- **Every run keeps the invariant**, also one that an error ends. -/
theorem Trace.sound (h : Trace v W k s s') (hs : Sound v W s) : Sound v W s' := by
  induction h with
  | refl => exact hs
  | tail _ hstep ih => exact hstep.sound ih

/-- What steps from sound states preserve is preserved by a run. -/
theorem Trace.invariant {I : ViewState σ → Prop}
    (hstep : ∀ s s', Sound v W s → I s → Step v W k s s' → I s') (h : Trace v W k s s')
    (hs : Sound v W s) (hI : I s) : I s' := by
  induction h with
  | refl => exact hI
  | tail htrace hlast ih => exact hstep _ _ (Trace.sound htrace hs) ih hlast

/-! ### The worlds of a run -/

/-- Loading another set of sources. -/
theorem WorldStep.mono {Loads Loads' : Location σ → Source σ → Prop} {w w' : σ}
    (hloads : ∀ l src, Loads l src → Loads' l src) (h : WorldStep v W Loads w w') :
    WorldStep v W Loads' w w' := by
  cases h with
  | find t hl hw => exact .find t hl hw
  | list hl hw => exact .list hl hw
  | part hl hw₀ hlisting hpart hw => exact .part hl hw₀ hlisting hpart hw
  | load hl hw => exact .load (hloads _ _ hl) hw

/-- A step of a view is at most one step of the world. -/
theorem Step.worldStep (h : Step v W k s s') :
    Relation.ReflTransGen (WorldStep v W (Chosen v W)) s.world s'.world := by
  have hload : ∀ {l : Location σ} {src : Source σ} {c : ClassInfo} {w : σ}, Chosen v W l src →
      W s.world → src.build (v.context l src) s.world = (.ok c, w) →
      Relation.ReflTransGen (WorldStep v W (Chosen v W)) s.world w := by
    intro l src c w hl hw hb
    have hstep : WorldStep v W (Chosen v W) s.world (src.build (v.context l src) s.world).2 :=
      .load hl hw
    rw [hb] at hstep
    exact .single hstep
  cases h with
  | world h => exact .single h
  | touch t => exact .refl
  | build hl hw hb _ => exact hload hl hw hb
  | refuse hl _ hw hb _ => exact hload (.inl ⟨_, hl⟩) hw hb
  | record _ _ _ _ _ => exact .refl

/-- **A run changes the world by questions and by loading chosen sources**, and by nothing else. -/
theorem Trace.worldSteps (h : Trace v W k s s') :
    Relation.ReflTransGen (WorldStep v W (Chosen v W)) s.world s'.world := by
  induction h with
  | refl => exact .refl
  | tail _ hstep ih => exact ih.trans hstep.worldStep

theorem Steady.trace (hW : Steady v W) (h : Trace v W k s s') (hw : W s.world) : W s'.world := by
  have hworlds := h.worldSteps
  generalize s'.world = w' at hworlds
  induction hworlds with
  | refl => exact hw
  | tail _ hstep _ => exact hW _ _ hstep

end View

end Classpath

import Classpath.Proofs.Hierarchy.Answers

/-!
# When subtyping is reachability

A type is asked to be a subtype of what its class reaches over edges of either kind. What is looked
up is something else, the ancestors that were collected for the class: its chain of superclasses and
all interfaces. This file says what is answered, for every state of a view that keeps everything,
and when the two are the same: exactly if each superclass that is named on a path out of the class
is also an ancestor of the class (`Classpath.Hierarchy.subtyping_iff_covered`). A class whose own
chain of superclasses breaks off misses the superclass of its interfaces.

Subtypes are found by another way, along the edges of all classes, and miss nothing. So the same
condition decides whether the two ways agree and whether subtyping is transitive, as long as names
stand for one class only (`Classpath.Hierarchy.Unambiguous`); without modules they do.

* `Classpath.Hierarchy.answer_of_run`, `Classpath.Hierarchy.decides_isSubtype` – the answer, in
  terms of paths; it is right with any fuel, and there is one where no cycle is reached.
* `Classpath.Hierarchy.reflTransGen_names_iff` – paths between names are paths between classes.
-/

namespace Classpath

namespace Hierarchy

open Relation View

variable {σ : Type} (v : View σ) (W : σ → Prop) (classOf : ClassType → Option ClassInfo)

/-- **A call on a hierarchy says what satisfies `P`**: in whatever state of a view in use, and with
whatever the hierarchy remembers, it ends with such an answer if it is given enough fuel. -/
def Says {α : Type} (call : Nat → Call α) (P : α → Prop) : Prop :=
  ∃ n, ∀ fuel, n ≤ fuel → ∀ s, Reachable v W s → ∀ k,
    ∃ a s', (call k).run v fuel s = some (.ok a, s') ∧ P a

/-- **A call decides `P`**: it says whether it holds. -/
def Decides (call : Nat → Call Bool) (P : Prop) : Prop :=
  Says v W call fun b => b = true ↔ P

/-- **Names stand for one class only.** A supertype of which there is a class can be resolved where
it is named, and classes of one name have the same supertypes. -/
structure Unambiguous : Prop where
  denoted : ∀ t c r u, classOf t = some c → r ∈ c.supertypes → (classOf u).isSome →
    u.name = r.name → (denoted classOf t r).isSome
  agree : ∀ t u c d, classOf t = some c → classOf u = some d → t.name = u.name →
    ∀ r ∈ c.supertypes, ∃ r' ∈ d.supertypes, r'.unqualified = r.unqualified

variable {v W classOf} {α : Type} {call : Nat → Call α} {P Q : α → Prop} {c d : ClassInfo}
  {t : ClassType}

/-! ### What calls say -/

theorem Says.imp (h : Says v W call P) (hPQ : ∀ a, P a → Q a) : Says v W call Q := by
  obtain ⟨n, hn⟩ := h
  refine ⟨n, fun fuel hfuel s hs k => ?_⟩
  obtain ⟨a, s', hrun, ha⟩ := hn fuel hfuel s hs k
  exact ⟨a, s', hrun, hPQ a ha⟩

/-- A call says one thing. -/
theorem Says.exists_and (hW : ∃ w, W w) (h : Says v W call P) (h' : Says v W call Q) :
    ∃ a, P a ∧ Q a := by
  obtain ⟨w, hw⟩ := hW
  obtain ⟨n, hn⟩ := h
  obtain ⟨m, hm⟩ := h'
  obtain ⟨a, s, hrun, ha⟩ := hn (max n m) (le_max_left n m) _ (reachable_fresh hw) 0
  obtain ⟨b, s', hrun', hb⟩ := hm (max n m) (le_max_right n m) _ (reachable_fresh hw) 0
  obtain ⟨rfl, -⟩ : a = b ∧ s = s' := by simpa [hrun] using hrun'
  exact ⟨a, ha, hb⟩

theorem Decides.iff {call : Nat → Call Bool} {P Q : Prop} (hW : ∃ w, W w)
    (h : Decides v W call P) (h' : Decides v W call Q) : P ↔ Q := by
  obtain ⟨b, hb, hb'⟩ := Says.exists_and hW h h'
  exact hb.symm.trans hb'

/-- What a call decides it says. -/
theorem Decides.says_iff {call : Nat → Call Bool} {P : Prop} (hW : ∃ w, W w)
    (h : Decides v W call P) : Says v W call (· = true) ↔ P := by
  constructor
  · intro hsays
    obtain ⟨b, hb, htrue⟩ := Says.exists_and hW h hsays
    exact hb.mp htrue
  · exact fun hP => Says.imp h fun b hb => hb.mpr hP

theorem Decides.congr {call : Nat → Call Bool} {P Q : Prop} (h : Decides v W call P)
    (hPQ : P ↔ Q) : Decides v W call Q :=
  Says.imp h fun _ hb => hb.trans hPQ

/-- A query that ends in all states of a view in use. -/
theorem says_of_halts {q : Nat → Query σ α}
    (hcall : ∀ k fuel, (call k).run v fuel = onHierarchy k (q fuel))
    (h : ∃ n, ∀ fuel, n ≤ fuel → ∀ s, Reachable v W s → ∀ k,
      (q fuel).Halts ⟨s.view, s.hierarchies k⟩ (fun a _ => P a) fun _ _ => False) :
    Says v W call P := by
  obtain ⟨n, hn⟩ := h
  refine ⟨n, fun fuel hfuel s hs k => ?_⟩
  have hhalts : ((call k).run v fuel).Halts s (fun a _ => P a) fun _ _ => False := by
    rw [hcall]
    exact Run.outcome_zoom.mpr (hn fuel hfuel s hs k)
  obtain ⟨x, s', hrun, hok, herror⟩ := hhalts.exists
  cases x with
  | ok a => exact ⟨a, s', hrun, hok a rfl⟩
  | error e => exact (herror e rfl).elim

/-! ### The answers -/

/-- What was collected decides what is answered. -/
theorem Gathers.answer_iff {a : Ancestors} (h : Gathers classOf c a) (s t : ClassType) :
    (decide (t.name = s.name) || a.contains s.unqualified) = true ↔ s.name = t.name ∨
      InChain classOf c s.unqualified ∨ Implements classOf c s.unqualified := by
  rw [Bool.or_eq_true, decide_eq_true_eq, Ancestors.contains, Bool.or_eq_true,
    List.contains_iff_mem, List.contains_iff_mem, h.superclasses, h.interfaces,
    or_comm (a := Implements classOf c s.unqualified), eq_comm]

/-- What is told of a type decides what is answered. -/
theorem Tells.answer_iff {a : Ancestors} (h : Tells classOf t (.ok a)) (hclass : classOf t = some c)
    (s : ClassType) :
    Question.read (.isSubtype s) t a = true ↔ s.name = t.name ∨
      InChain classOf c s.unqualified ∨ Implements classOf c s.unqualified := by
  cases h with
  | ancestors hc _ ha =>
    obtain rfl := Option.some.inj (hclass.symm.trans hc)
    exact ha.gathers.answer_iff s t

/-- **Whatever is answered is right**, with any fuel and whether or not a cycle is reached. -/
theorem answer_of_run (hv : Settled v W classOf) (hclass : classOf t = some c) {s : ClassType}
    {r r' : Session σ} (hr : Reachable v W r) {b : Bool} {k fuel : Nat}
    (hrun : (Call.isSubtype k s t).run v fuel r = some (.ok b, r')) :
    b = true ↔ s.name = t.name ∨ InChain classOf c s.unqualified ∨
      Implements classOf c s.unqualified := by
  have hdescribes := hv.describes ((hr.call _ hrun).sound hv.steady).1
  obtain ⟨y, hy, hx⟩ :=
    Question.tells_of_run hv.reliable hr (q := .isSubtype s) hrun hdescribes
  cases y with
  | error e => cases hx
  | ok a =>
    obtain rfl : b = _ := Except.ok.inj hx
    exact hy.answer_iff hclass s

section Answers

variable (hv : Settled v W classOf) (hfull : v.options.policy = .full)
  (hfinite : {t | (classOf t).isSome}.Finite)

include hv hfull hfinite

/-- **What is answered**: whether the names are the same, or the supertype is in the chain of
superclasses, or it is an interface that is reached. -/
theorem decides_isSubtype (hclass : classOf t = some c) (huntangled : Untangled classOf c)
    (s : ClassType) :
    Decides v W (.isSubtype · s t) (s.name = t.name ∨ InChain classOf c s.unqualified ∨
      Implements classOf c s.unqualified) := by
  refine ⟨2 * hfinite.toFinset.card + 1, fun fuel hfuel r hr k => ?_⟩
  have htypes : ∀ l src, Chosen v W l src → src.type ∈ hfinite.toFinset := fun l src hchosen =>
    hfinite.mem_toFinset.mpr (hv.isSome_of_chosen hchosen)
  obtain ⟨x, r', hrun⟩ := (Question.isSubtype s).exists_run hv.reliable
    (suffices_nil hfull htypes hfuel) hr k t
  have hdescribes := hv.describes ((hr.call _ hrun).sound hv.steady).1
  obtain ⟨y, hy, rfl⟩ := Question.tells_of_run hv.reliable hr hrun hdescribes
  cases y with
  | ok a => exact ⟨_, r', hrun, hy.answer_iff hclass s⟩
  | error e => exact absurd hy (not_tells_error (fun _ _ => hv.type_eq) hclass huntangled)

/-- **What is read off the edges** for a type that can be resolved. -/
theorem says_downward (hlisted : ∀ t, (classOf t).isSome → Listed v W t)
    (hclass : (classOf t).isSome) (f : List (ClassType × ClassType) → α)
    (hcall : ∀ k fuel, (call k).run v fuel = onHierarchy k (readEdges v t f fuel)) :
    Says v W call fun a => ∃ edges, Complete classOf edges ∧ a = f edges := by
  refine says_of_halts hcall ⟨hfinite.toFinset.card + 1, fun fuel hfuel s hs k => ?_⟩
  obtain ⟨hstocked, hedges⟩ := edges_of_reachable hv.fixed hv.steady hfull hlisted hs
  exact halts_readEdges hv hfull hlisted (by omega) hstocked (hedges k) hclass f

/-- **What is answered for subtypes.** -/
theorem says_subtypesOf (hlisted : ∀ t, (classOf t).isSome → Listed v W t)
    (hclass : (classOf t).isSome) :
    Says v W (.subtypesOf · t) fun types => ∀ x, x ∈ types ↔
      x ≠ t.unqualified ∧ ReflTransGen (Names classOf) t.unqualified x := by
  refine (says_downward hv hfull hfinite hlisted hclass (subtypesIn · t.unqualified)
    fun k fuel => run_subtypesOf k fuel t).imp fun types h x => ?_
  obtain ⟨edges, hcomplete, rfl⟩ := h
  exact mem_subtypes_of_complete hcomplete

end Answers

/-! ### Paths between names -/

section Names

variable (hnamed : ∀ t c, classOf t = some c → c.type = t)

include hnamed

theorem name_of_denoted {r : ClassType} (h : denoted classOf t r = some d) :
    d.type.unqualified = r.unqualified := by
  obtain ⟨u, hu, hd⟩ := List.exists_of_findSome?_eq_some h
  rw [hnamed u d hd, ClassType.unqualified_inj]
  rw [lookups] at hu
  split at hu <;> simp at hu
  · rcases hu with rfl | rfl <;> rfl
  · rw [hu]

/-- A path between classes is one between names. -/
theorem Reaches.names {x : ClassType} (h : Reaches classOf c x) (hself : classOf c.type = some c) :
    ReflTransGen (Names classOf) x c.type.unqualified := by
  obtain ⟨d, hpath, r, hr, rfl⟩ := h
  induction hpath using ReflTransGen.head_induction_on with
  | refl => exact .single ⟨_, hself, rfl, r, hr, rfl⟩
  | @head c e hedge _ ih =>
    obtain ⟨u, hu⟩ := hedge.exists_classOf
    have hself' : classOf e.type = some e := by rw [hnamed u e hu, hu]
    obtain ⟨r', hr', he⟩ := hedge
    exact (ih hself').tail ⟨c, hself, rfl, r', hr', (name_of_denoted hnamed he).symm⟩

/-- **Where names stand for one class only, a path between names is one between classes.** -/
theorem reflTransGen_names_iff (hu : Unambiguous classOf) {x : ClassType}
    (hclass : classOf t = some c) :
    ReflTransGen (Names classOf) x t.unqualified ↔
      x = t.unqualified ∨ Reaches classOf c x := by
  constructor
  · intro hpath
    generalize hy : t.unqualified = y at hpath
    induction hpath generalizing t c with
    | refl => exact .inl rfl
    | @tail p y hpath hlast ih =>
      obtain ⟨c', hc', hname, r', hr', rfl⟩ := hlast
      -- the class of `t` names the same supertypes
      have hsame : c'.type.name = t.name := ClassType.unqualified_inj.mp (hname.trans hy.symm)
      obtain ⟨r, hr, hrr⟩ := hu.agree _ _ _ _ hc' hclass hsame r' hr'
      have hdirect : Reaches classOf c r'.unqualified := ⟨c, .refl, r, hr, hrr⟩
      refine .inr ?_
      rcases hd : denoted classOf t r with _ | d
      -- there is no class of that name, so the path has only this edge
      · rcases hpath.cases_tail with heq | ⟨z, -, e, he, hez, -⟩
        · exact heq ▸ hdirect
        · have hesome := hu.denoted t c r e.type hclass hr (by rw [he]; rfl)
            (ClassType.unqualified_inj.mp (hez.trans hrr.symm))
          rw [hd] at hesome
          cases hesome
      · have hdr := name_of_denoted hnamed hd
        have hinherits : Inherits classOf c d := ⟨r, hr, by rwa [hnamed t c hclass]⟩
        obtain ⟨u, hu'⟩ := hinherits.exists_classOf
        have hself : classOf d.type = some d := by rw [hnamed u d hu', hu']
        rcases ih hself (hdr.trans hrr) with heq | ⟨e, hpath', hnames⟩
        · exact heq ▸ hdirect
        · exact ⟨e, .head hinherits hpath', hnames⟩
  · rintro (rfl | hreaches)
    · exact .refl
    · have hself := hreaches.names hnamed (by rw [hnamed t c hclass, hclass])
      rwa [hnamed t c hclass] at hself

end Names

/-! ### Where names stand for one class only -/

/-- **Without modules names stand for one class only.** -/
theorem unambiguous_of_unqualified (h : ∀ t c, classOf t = some c →
      t.moduleName = none ∧ ∀ r ∈ c.supertypes, r.moduleName = none) : Unambiguous classOf where
  denoted t c r u hc hr hu hname := by
    obtain ⟨d, hd⟩ := Option.isSome_iff_exists.mp hu
    have hru : u = r := by
      obtain ⟨name, m⟩ := u
      obtain ⟨name', m'⟩ := r
      obtain rfl : name = name' := hname
      obtain rfl : m = none := (h _ d hd).1
      obtain rfl : m' = none := (h t c hc).2 _ hr
      rfl
    have hlookups : lookups t r = [r] := by rw [lookups, (h t c hc).1]
    rw [denoted, hlookups, ← hru, List.findSome?_cons, hd]
    rfl
  agree t u c d hc hd hname r hr := by
    obtain rfl : t = u := by
      obtain ⟨name, m⟩ := t
      obtain ⟨name', m'⟩ := u
      obtain rfl : name = name' := hname
      obtain rfl : m = none := (h _ c hc).1
      obtain rfl : m' = none := (h _ d hd).1
      rfl
    obtain rfl : c = d := Option.some.inj (hc.symm.trans hd)
    exact ⟨r, hr, rfl⟩

/-! ### Checks for small projects -/

/-- The table of a store for a view that keeps everything. -/
abbrev tableOf (m : MemoryStore) (h : m.Faultless) : ClassType → Option ClassInfo :=
  tableOfStores (catalogOfStore m .full h)

/-- **What the closed instances ask of a store**, as a check: along the edges a rank falls, and
neither types nor references name modules. -/
def graded (m : MemoryStore) (h : m.Faultless) (names : List String) (c : ClassInfo) : Bool :=
  c.type.moduleName.isNone && c.supertypes.all fun r => r.moduleName.isNone &&
    (denoted (tableOf m h) c.type r).all fun d =>
      names.idxOf d.type.name < names.idxOf c.type.name

theorem untangled_of_graded {m : MemoryStore} {h : m.Faultless} (hloadable : m.Loadable)
    {names : List String} (hgraded : (m.classes.map (·.type)).all fun t =>
      (tableOf m h t).all (graded m h names))
    (hclass : tableOf m h t = some c) : Untangled (tableOf m h) c := by
  refine untangled_of_rank (fun c => names.idxOf c.type.name) (fun u e d hu hedge => ?_) hclass
  obtain ⟨r, hr, hd⟩ := hedge
  have hchecked := forall_of_table hloadable hgraded hu
  simp only [graded, Bool.and_eq_true, List.all_eq_true] at hchecked
  have hfalls := (hchecked.2 r hr).2
  rw [hd] at hfalls
  exact of_decide_eq_true hfalls

theorem unambiguous_of_graded {m : MemoryStore} {h : m.Faultless} (hloadable : m.Loadable)
    {names : List String} (hgraded : (m.classes.map (·.type)).all fun t =>
      (tableOf m h t).all (graded m h names)) : Unambiguous (tableOf m h) := by
  refine unambiguous_of_unqualified fun u e hu => ?_
  have hchecked := forall_of_table hloadable hgraded hu
  simp only [graded, Bool.and_eq_true, List.all_eq_true] at hchecked
  refine ⟨?_, fun r hr => Option.isNone_iff_eq_none.mp (hchecked.2 r hr).1⟩
  rw [← (loads_ofStore h hloadable).type_eq hu]
  exact Option.isNone_iff_eq_none.mp hchecked.1

/-! ### Reachability -/

section Reachability

variable (hv : Settled v W classOf) (hfull : v.options.policy = .full)
  (hfinite : {t | (classOf t).isSome}.Finite) (hclass : classOf t = some c)
  (huntangled : Untangled classOf c)

include hv hfull hfinite hclass huntangled

/-- **Subtyping is reachability exactly if no superclass is missed.** -/
theorem decides_reaches_iff :
    (∀ s, Decides v W (.isSubtype · s t) (s.name = t.name ∨ Reaches classOf c s.unqualified)) ↔
      Covered classOf c := by
  have htype := hv.type_eq hclass
  have hdecides := decides_isSubtype hv hfull hfinite hclass huntangled
  rw [covered_iff, htype]
  constructor
  · exact fun h s => (hdecides s).iff hv.exists_world (h s)
  · exact fun h s => (hdecides s).congr (h s)

/-- A type is a subtype of itself. -/
theorem says_isSubtype_self : Says v W (.isSubtype · t t) (· = true) :=
  ((decides_isSubtype hv hfull hfinite hclass huntangled t).says_iff hv.exists_world).mpr (.inl rfl)

/-- **Where subtyping is transitive no superclass is missed**: a path out of the class is a chain of
subtypes. -/
theorem covered_of_transitive (htrans : ∀ s u d, classOf u = some d → Untangled classOf d →
      Says v W (.isSubtype · s u) (· = true) → Says v W (.isSubtype · u t) (· = true) →
      Says v W (.isSubtype · s t) (· = true)) : Covered classOf c := by
  have hself : ∀ {d}, ReflTransGen (Inherits classOf) c d → classOf d.type = some d := by
    intro d hpath
    obtain ⟨u, hu⟩ := exists_classOf_of_path hclass hpath
    rw [hv.type_eq hu, hu]
  have hdecides : ∀ {d}, ReflTransGen (Inherits classOf) c d → ∀ s, _ := fun {d} hpath =>
    decides_isSubtype hv hfull hfinite (hself hpath) fun e he => huntangled e (hpath.trans he)
  have hbelow : ∀ d, ReflTransGen (Inherits classOf) c d →
      Says v W (.isSubtype · d.type t) (· = true) := by
    intro d hpath
    induction hpath with
    | refl =>
      rw [hv.type_eq hclass]
      exact says_isSubtype_self hv hfull hfinite hclass huntangled
    | @tail d e hpath hedge ih =>
      refine htrans e.type d.type d (hself hpath) (fun f hf => huntangled f (hpath.trans hf)) ?_ ih
      refine ((hdecides hpath e.type).says_iff hv.exists_world).mpr (.inr ?_)
      obtain ⟨r, hr, he⟩ := hedge
      rw [name_of_denoted (fun t c h => hv.type_eq h) he]
      rcases List.mem_append.mp hr with hr | hr
      · exact .inl ⟨d, .refl, r, Option.mem_toList.mp hr, rfl⟩
      · exact .inr ⟨d, .refl, r, hr, rfl⟩
  intro d r hpath hr
  have hdirect : Says v W (.isSubtype · r d.type) (· = true) :=
    ((hdecides hpath r).says_iff hv.exists_world).mpr (.inr (.inl ⟨d, .refl, r, hr, rfl⟩))
  have hsays := htrans r d.type d (hself hpath) (fun f hf => huntangled f (hpath.trans hf)) hdirect
    (hbelow d hpath)
  have hanswer := ((decides_isSubtype hv hfull hfinite hclass huntangled r).says_iff
    hv.exists_world).mp hsays
  rwa [hv.type_eq hclass]

/-- **Where no superclass is missed subtyping is transitive.** -/
theorem transitive_of_covered (hu : Unambiguous classOf) (hcovered : Covered classOf c)
    {s u : ClassType} (hclass' : classOf u = some d) (huntangled' : Untangled classOf d)
    (hsu : Says v W (.isSubtype · s u) (· = true)) (hut : Says v W (.isSubtype · u t) (· = true)) :
    Says v W (.isSubtype · s t) (· = true) := by
  have hnamed : ∀ t c, classOf t = some c → c.type = t := fun t c h => hv.type_eq h
  have hreaches := (decides_reaches_iff hv hfull hfinite hclass huntangled).mpr hcovered
  -- both answers are paths between names, one after the other
  have hupper : ReflTransGen (Names classOf) s.unqualified u.unqualified := by
    refine (reflTransGen_names_iff hnamed hu hclass').mpr ?_
    have hanswer := ((decides_isSubtype hv hfull hfinite hclass' huntangled' s).says_iff
      hv.exists_world).mp hsu
    exact hanswer.imp ClassType.unqualified_inj.mpr fun h => h.elim InChain.reaches
      Implements.reaches
  have hlower : ReflTransGen (Names classOf) u.unqualified t.unqualified :=
    (reflTransGen_names_iff hnamed hu hclass).mpr
      ((((hreaches u).says_iff hv.exists_world).mp hut).imp ClassType.unqualified_inj.mpr id)
  refine ((hreaches s).says_iff hv.exists_world).mpr ?_
  exact ((reflTransGen_names_iff hnamed hu hclass).mp (hupper.trans hlower)).imp
    ClassType.unqualified_inj.mp id

omit huntangled in
/-- **The subtypes of another type are the types that reach it**, whether they are told to be
subtypes or not. -/
theorem says_subtypesOf_reaches (hu : Unambiguous classOf)
    (hlisted : ∀ u, (classOf u).isSome → Listed v W u) {s : ClassType} (hs : (classOf s).isSome)
    (hne : s.name ≠ t.name) :
    Says v W (.subtypesOf · s) fun types =>
      t.unqualified ∈ types ↔ Reaches classOf c s.unqualified := by
  have hunqualified : s.unqualified ≠ t.unqualified := fun h => hne (ClassType.unqualified_inj.mp h)
  refine (says_subtypesOf hv hfull hfinite hlisted hs).imp fun types htypes => ?_
  rw [htypes, reflTransGen_names_iff (fun t c h => hv.type_eq h) hu hclass]
  simp [hunqualified, hunqualified.symm]

/-- **Where no superclass is missed the two ways agree.** -/
theorem says_subtypesOf_decides (hu : Unambiguous classOf) (hcovered : Covered classOf c)
    (hlisted : ∀ u, (classOf u).isSome → Listed v W u) {s : ClassType} (hs : (classOf s).isSome)
    (hne : s.name ≠ t.name) :
    Says v W (.subtypesOf · s) fun types =>
      Decides v W (.isSubtype · s t) (t.unqualified ∈ types) := by
  have hreaches := (decides_reaches_iff hv hfull hfinite hclass huntangled).mpr hcovered s
  refine (says_subtypesOf_reaches hv hfull hfinite hclass hu hlisted hs hne).imp
    fun types htypes => hreaches.congr ?_
  rw [htypes]
  simp [hne]

/-- **Subtyping and reachability**, for a view that keeps everything and of which it is settled what
it resolves, and a type whose class reaches no cycle.

* A type is told to be a subtype of itself, of its chain of superclasses and of the interfaces that
  it reaches; so it is a subtype of itself.
* What is told is reachability exactly if each superclass that is named on a path out of the class
  is covered.
* Where names stand for one class only, subtyping below the type is transitive exactly under this
  condition. If moreover what can be resolved is listed, the type is found among the subtypes of
  another one exactly if it reaches that one, and under the condition this is what is told. -/
theorem subtyping_iff_covered :
    (∀ s, Decides v W (.isSubtype · s t) (s.name = t.name ∨ InChain classOf c s.unqualified ∨
      Implements classOf c s.unqualified)) ∧
    Says v W (.isSubtype · t t) (· = true) ∧
    ((∀ s, Decides v W (.isSubtype · s t) (s.name = t.name ∨ Reaches classOf c s.unqualified)) ↔
      Covered classOf c) ∧
    (Unambiguous classOf →
      ((∀ s u d, classOf u = some d → Untangled classOf d →
        Says v W (.isSubtype · s u) (· = true) → Says v W (.isSubtype · u t) (· = true) →
        Says v W (.isSubtype · s t) (· = true)) ↔ Covered classOf c) ∧
      ((∀ u, (classOf u).isSome → Listed v W u) → ∀ s, (classOf s).isSome → s.name ≠ t.name →
        (Says v W (.subtypesOf · s) fun types =>
          t.unqualified ∈ types ↔ Reaches classOf c s.unqualified) ∧
        (Covered classOf c → Says v W (.subtypesOf · s) fun types =>
          Decides v W (.isSubtype · s t) (t.unqualified ∈ types)))) := by
  refine ⟨decides_isSubtype hv hfull hfinite hclass huntangled,
    says_isSubtype_self hv hfull hfinite hclass huntangled,
    decides_reaches_iff hv hfull hfinite hclass huntangled, fun hu => ⟨⟨?_, ?_⟩, ?_⟩⟩
  · exact covered_of_transitive hv hfull hfinite hclass huntangled
  · intro hcovered s u d hd hd' hsu hut
    exact transitive_of_covered hv hfull hfinite hclass huntangled hu hcovered hd hd' hsu hut
  · intro hlisted s hs hne
    refine ⟨says_subtypesOf_reaches hv hfull hfinite hclass hu hlisted hs hne, fun hcovered => ?_⟩
    exact says_subtypesOf_decides hv hfull hfinite hclass huntangled hu hcovered hlisted hs hne

end Reachability

/-- **A class whose chain of superclasses has that of its interfaces**: being a subtype is being
reached, and the subtypes of the outer interface are told alike in both ways. -/
theorem subtyping_iff_covered_lattice :
    let v : View World := .ofStores [.lattice] .full
    let classOf := tableOf .lattice MemoryStore.faultless_lattice
    ∃ c, classOf ⟨"a.C", none⟩ = some c ∧ Untangled classOf c ∧ Covered classOf c ∧
      Unambiguous classOf ∧
      (∀ s, Decides v (fun _ => True) (.isSubtype · s ⟨"a.C", none⟩)
        (s.name = "a.C" ∨ Reaches classOf c s.unqualified)) ∧
      Says v (fun _ => True) (.subtypesOf · ⟨"a.I", none⟩) fun types =>
        Decides v (fun _ => True) (.isSubtype · ⟨"a.I", none⟩ ⟨"a.C", none⟩)
          (⟨"a.C", none⟩ ∈ types) := by
  intro v classOf
  have hloadable : MemoryStore.lattice.Loadable := ⟨rfl, by decide⟩
  have hl : Loads (catalogOfStore .lattice .full MemoryStore.faultless_lattice) classOf :=
    loads_ofStore _ hloadable
  have hgraded : (MemoryStore.lattice.classes.map (·.type)).all fun t => (classOf t).all
      (graded .lattice MemoryStore.faultless_lattice
        ["java.lang.Object", "a.I", "a.J", "a.C"]) := by
    decide +kernel
  obtain ⟨c, hc⟩ : ∃ c, classOf ⟨"a.C", none⟩ = some c :=
    Option.isSome_iff_exists.mp (by decide +kernel)
  have huntangled : Untangled classOf c := untangled_of_graded hloadable hgraded hc
  have hu : Unambiguous classOf := unambiguous_of_graded hloadable hgraded
  -- every superclass is the one that the class itself has
  have hobject : ∀ {t d r}, classOf t = some d → d.superclass = some r →
      r = ⟨"java.lang.Object", none⟩ := by
    intro t d r hd hr
    have hchecked := forall_of_table (P := fun d => d.superclass.all
      (· = ⟨"java.lang.Object", none⟩)) hloadable (by decide +kernel) hd
    simpa [hr] using hchecked
  have hcovered : Covered classOf c := by
    intro d r hpath hr
    obtain ⟨t, hd⟩ := exists_classOf_of_path hc hpath
    obtain rfl := hobject hd hr
    refine .inr (.inl ⟨c, .refl, ?_⟩)
    have hsuper : (classOf ⟨"a.C", none⟩).bind (·.superclass) =
        some ⟨"java.lang.Object", none⟩ := by decide +kernel
    rw [hc, Option.bind_some] at hsuper
    exact ⟨_, hsuper, rfl⟩
  obtain ⟨-, -, hreaches, hnames⟩ :=
    subtyping_iff_covered hl.settled rfl hl.finite hc huntangled
  exact ⟨c, hc, huntangled, hcovered, hu, hreaches.mpr hcovered,
    ((hnames hu).2 (fun _ h => hl.listed h) ⟨"a.I", none⟩ (by decide +kernel) (by decide)).2
      hcovered⟩

/-- **A class whose superclass is missing misses the superclass of its interface**: it is told to be
a subtype of the interface, the interface of the root class, and the root class to have both as
subtypes, but the class not to be a subtype of the root class, which it reaches. -/
theorem subtyping_severed :
    let v : View World := .ofStores [.severed] .full
    let classOf := tableOf .severed MemoryStore.faultless_severed
    let isSubtype (s t : String) := ((Call.isSubtype 0 ⟨s, none⟩ ⟨t, none⟩).run v 9
      (v.fresh {})).map (·.1.toOption)
    (∃ c, classOf ⟨"a.C", none⟩ = some c ∧ Untangled classOf c ∧
      Reaches classOf c ⟨"java.lang.Object", none⟩ ∧
      ¬ ∀ s, Decides v (fun _ => True) (.isSubtype · s ⟨"a.C", none⟩)
        (s.name = "a.C" ∨ Reaches classOf c s.unqualified)) ∧
    isSubtype "a.I" "a.C" = some (some true) ∧
    isSubtype "java.lang.Object" "a.I" = some (some true) ∧
    isSubtype "java.lang.Object" "a.C" = some (some false) ∧
    Says v (fun _ => True) (.subtypesOf · ⟨"java.lang.Object", none⟩) (⟨"a.C", none⟩ ∈ ·) := by
  intro v classOf isSubtype
  have hloadable : MemoryStore.severed.Loadable := ⟨rfl, by decide⟩
  have hl : Loads (catalogOfStore .severed .full MemoryStore.faultless_severed) classOf :=
    loads_ofStore _ hloadable
  have hgraded : (MemoryStore.severed.classes.map (·.type)).all fun t => (classOf t).all
      (graded .severed MemoryStore.faultless_severed ["java.lang.Object", "a.I", "a.C"]) := by
    decide +kernel
  obtain ⟨c, hc⟩ : ∃ c, classOf ⟨"a.C", none⟩ = some c :=
    Option.isSome_iff_exists.mp (by decide +kernel)
  have huntangled : Untangled classOf c := untangled_of_graded hloadable hgraded hc
  have hreaches : Reaches classOf c ⟨"java.lang.Object", none⟩ := by
    obtain ⟨d, hd⟩ : ∃ d, classOf ⟨"a.I", none⟩ = some d :=
      Option.isSome_iff_exists.mp (by decide +kernel)
    have hinterfaces : (classOf ⟨"a.C", none⟩).map (·.interfaces) = some [⟨"a.I", none⟩] := by
      decide +kernel
    have hsuper : (classOf ⟨"a.I", none⟩).map (·.superclass) =
        some (some ⟨"java.lang.Object", none⟩) := by decide +kernel
    rw [hc, Option.map_some, Option.some.injEq] at hinterfaces
    rw [hd, Option.map_some, Option.some.injEq] at hsuper
    have hedge : Inherits classOf c d := by
      refine ⟨⟨"a.I", none⟩, List.mem_append_right _ (by simp [hinterfaces]), ?_⟩
      rw [hl.type_eq hc]
      exact (List.findSome?_cons ..).trans (by rw [hd])
    exact ⟨d, .single hedge, ⟨"java.lang.Object", none⟩, by simp [ClassInfo.supertypes, hsuper],
      rfl⟩
  have htold : isSubtype "java.lang.Object" "a.C" = some (some false) := by decide +kernel
  refine ⟨⟨c, hc, huntangled, hreaches, fun hdecides => ?_⟩, by decide +kernel, by decide +kernel,
    htold, ?_⟩
  · obtain ⟨⟨x, r⟩, hrun, hx⟩ := Option.map_eq_some_iff.mp htold
    cases x with
    | error e => cases hx
    | ok b =>
      obtain rfl := Option.some.inj hx
      have hanswer := answer_of_run hl.settled hc (reachable_fresh trivial) hrun
      have hcovered := (decides_reaches_iff hl.settled rfl hl.finite hc huntangled).mp hdecides
      rw [← hl.type_eq hc] at hanswer
      exact absurd (hanswer.mpr ((covered_iff.mp hcovered _).mpr (.inr hreaches))) (by decide)
  · refine (says_subtypesOf hl.settled rfl hl.finite (fun _ h => hl.listed h)
      (t := ⟨"java.lang.Object", none⟩) (by decide +kernel)).imp fun types htypes => ?_
    refine (htypes _).mpr ⟨by decide, ?_⟩
    have hpath := hreaches.names (fun _ _ h => hl.type_eq h) (by rw [hl.type_eq hc, hc])
    rwa [hl.type_eq hc] at hpath

end Hierarchy

end Classpath

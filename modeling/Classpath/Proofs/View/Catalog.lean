import Classpath.Proofs.View.Session
import Mathlib.Data.List.Dedup

/-!
# Coherent projects

A project is coherent if looking a class up and listing classes tell the same story: the stores do
not fail, and a location answers for a type with the first source of that type that it lists. What a
location lists is then a fixed list of sources, and `Classpath.Project.Catalog` is the table of
these lists. Stores may keep state all the same, and loading may fail and depend on the state;
`Classpath.Project.Catalog.steady` holds of the states in which the table is right, and no question
and no loading leads out of them.

A weaker property is enough for some purposes: that a location answers with nothing but the type it
was asked for (`Classpath.Project.SelfTyped`).

In a coherent project every type has one provider, `Classpath.Project.Catalog.provider`: the first
source of the first location that lists the type. A view chooses sources in two ways, by asking
location after location and by going through listings, and both come to the provider
(`Classpath.View.Chosen.provider`). Where moreover every provider can be loaded, and always to the
same class, there is a table of classes as well (`Classpath.View.Loads`).
-/

namespace Classpath

/-- **Locations answer for the type that was asked for**, in whatever world. -/
def Project.SelfTyped {σ : Type} (p : Project σ) : Prop :=
  ∀ l ∈ p.locations, ∀ t w src, (l.find t w).1 = .ok (some src) → src.type = t

/-- **A coherent project**: what each location lists, and the worlds in which that is so. -/
structure Project.Catalog {σ : Type} (p : Project σ) where
  /-- The sources that a location lists, in order. -/
  listed : Location σ → List (Source σ)
  steady : σ → Prop
  exists_steady : ∃ w, steady w
  /-- A location has a type exactly if it lists it, and answers with the first source listed. -/
  find : ∀ l ∈ p.locations, ∀ t w, steady w →
    (l.find t w).1 = .ok ((listed l).find? fun src => src.type = t)
  list : ∀ l ∈ p.locations, ∀ w, steady w → ∃ listing, (l.list p.naming w).1 = .ok listing
  entries : ∀ l ∈ p.locations, ∀ w listing es, steady w → (l.list p.naming w).1 = .ok listing →
    View.Reads steady listing es → es = (listed l).map .ok
  find_steady : ∀ l ∈ p.locations, ∀ t w, steady w → steady (l.find t w).2
  list_steady : ∀ l ∈ p.locations, ∀ w, steady w → steady (l.list p.naming w).2
  part_steady : ∀ l ∈ p.locations, ∀ w₀ listing, steady w₀ →
    (l.list p.naming w₀).1 = .ok listing → ∀ part ∈ listing, ∀ w, steady w → steady (part w).2
  load_steady : ∀ l ∈ p.locations, ∀ src ∈ listed l, ∀ ctx w, steady w → steady (src.load ctx w).2

namespace Project.Catalog

variable {σ : Type} {p : Project σ} (cat : p.Catalog)

/-- **The provider of a type**: the first location that lists it, and the first source of that type
that it lists. -/
def provider (t : ClassType) : Option (Location σ × Source σ) :=
  p.locations.findSome? fun l => ((cat.listed l).find? fun src => src.type = t).map (l, ·)

/-- The types that are listed, each once. -/
def types : List ClassType :=
  (p.locations.flatMap fun l => (cat.listed l).map (·.type)).dedup

variable {cat} {t : ClassType} {l : Location σ} {src : Source σ}

theorem nodup_types : cat.types.Nodup :=
  List.nodup_dedup _

theorem mem_types : t ∈ cat.types ↔ ∃ l ∈ p.locations, ∃ src ∈ cat.listed l, src.type = t := by
  simp [types]

/-- A type has no provider if nobody lists it. -/
theorem provider_eq_none :
    cat.provider t = none ↔ ∀ l ∈ p.locations, ∀ src ∈ cat.listed l, src.type ≠ t := by
  simp [provider]

/-- **The provider comes first**: no location before it lists the type, and no source before it in
its own location has the type. -/
theorem provider_eq_some :
    cat.provider t = some (l, src) ↔ ∃ before after, p.locations = before ++ l :: after ∧
      (∀ m ∈ before, ∀ other ∈ cat.listed m, other.type ≠ t) ∧
      ∃ earlier later, cat.listed l = earlier ++ src :: later ∧
        (∀ other ∈ earlier, other.type ≠ t) ∧ src.type = t := by
  rw [provider, List.findSome?_eq_some_iff]
  constructor
  · rintro ⟨before, m, after, hsplit, hfound, hbefore⟩
    obtain ⟨other, hfind, heq⟩ := Option.map_eq_some_iff.mp hfound
    obtain ⟨rfl, rfl⟩ : m = l ∧ other = src := by simpa using heq
    obtain ⟨htype, earlier, later, hlisted, hearlier⟩ := List.find?_eq_some_iff_append.mp hfind
    refine ⟨before, after, hsplit, fun m' hm' => ?_, earlier, later, hlisted, ?_,
      by simpa using htype⟩
    · simpa using hbefore m' hm'
    · simpa using hearlier
  · rintro ⟨before, after, hsplit, hbefore, earlier, later, hlisted, hearlier, htype⟩
    refine ⟨before, l, after, hsplit, ?_, fun m hm => by simpa using hbefore m hm⟩
    have hfind : (cat.listed l).find? (fun other => other.type = t) = some src :=
      List.find?_eq_some_iff_append.mpr ⟨by simpa using htype, earlier, later, hlisted,
        by simpa using hearlier⟩
    rw [hfind, Option.map_some]

theorem mem_of_provider (h : cat.provider t = some (l, src)) :
    l ∈ p.locations ∧ src ∈ cat.listed l ∧ src.type = t := by
  obtain ⟨before, after, hsplit, -, earlier, later, hlisted, -, htype⟩ := provider_eq_some.mp h
  exact ⟨by simp [hsplit], by simp [hlisted], htype⟩

end Project.Catalog

namespace View

variable {σ : Type} {v : View σ} (cat : v.project.Catalog) {k : Nat} {s s' : ViewState σ}
  {t : ClassType} {l : Location σ} {src : Source σ}

/-! ### Both ways lead to the provider -/

theorem Lists.eq {es : List (Except LocationError (Source σ))} (hl : l ∈ v.project.locations)
    (h : Lists v cat.steady l es) : es = (cat.listed l).map .ok := by
  obtain ⟨w, listing, hw, hlist, hreads⟩ := h
  exact cat.entries l hl w listing es hw hlist hreads

theorem Finds.provider (h : Finds v cat.steady t l src) : cat.provider t = some (l, src) := by
  obtain ⟨before, after, hsplit, hbefore, w, hw, hfind⟩ := h
  rw [Project.Catalog.provider, List.findSome?_eq_some_iff]
  refine ⟨before, l, after, hsplit, ?_, fun m hm => ?_⟩
  · rw [cat.find l (by simp [hsplit]) t w hw] at hfind
    rw [Except.ok.inj hfind, Option.map_some]
  · obtain ⟨w', hw', hnone⟩ := hbefore m hm
    rw [cat.find m (by simp [hsplit, hm]) t w' hw'] at hnone
    rw [Except.ok.inj hnone, Option.map_none]

/-- In a coherent project a location answers for the type that it is asked for. -/
theorem Finds.type_of_catalog (h : Finds v cat.steady t l src) : src.type = t :=
  (Project.Catalog.mem_of_provider (h.provider cat)).2.2

theorem Scans.provider (h : Scans v cat.steady l src) : cat.provider src.type = some (l, src) := by
  obtain ⟨before, after, hsplit, hbefore, earlier, later, hlists, hearlier⟩ := h
  have hlisted := Lists.eq cat (by simp [hsplit]) hlists
  obtain ⟨first, rest, hsources, hfirst, hrest⟩ := List.map_eq_append_iff.mp hlisted.symm
  obtain ⟨other, last, rfl, hother, -⟩ := List.map_eq_cons_iff.mp hrest
  obtain rfl : other = src := Except.ok.inj hother
  refine Project.Catalog.provider_eq_some.mpr ⟨before, after, hsplit, fun m hm other hmem => ?_,
    first, last, hsources, fun other hmem => ?_, rfl⟩
  · obtain ⟨es, hes, hne⟩ := hbefore m hm
    rw [Lists.eq cat (by simp [hsplit, hm]) hes] at hne
    exact hne other (List.mem_map_of_mem hmem)
  · exact hearlier other (hfirst ▸ List.mem_map_of_mem hmem)

/-- **Whatever is loaded is loaded from the provider of its type.** -/
theorem Chosen.provider (h : Chosen v cat.steady l src) :
    cat.provider src.type = some (l, src) := by
  rcases h with ⟨t, hfinds⟩ | hscans
  · have hprovider := hfinds.provider cat
    rwa [← (Project.Catalog.mem_of_provider hprovider).2.2] at hprovider
  · exact hscans.provider cat

theorem absent_iff : Absent v cat.steady t ↔ cat.provider t = none := by
  rw [Project.Catalog.provider_eq_none]
  constructor
  · intro h m hm other hother htype
    obtain ⟨w, hw, hnone⟩ := h m hm
    rw [cat.find m hm t w hw] at hnone
    have hall := List.find?_eq_none.mp (Except.ok.inj hnone) other hother
    simp [htype] at hall
  · intro h m hm
    obtain ⟨w, hw⟩ := cat.exists_steady
    refine ⟨w, hw, ?_⟩
    rw [cat.find m hm t w hw]
    exact congrArg _ (List.find?_eq_none.mpr fun other hother => by simpa using h m hm other hother)

/-- The steps of a view keep the worlds steady. -/
theorem steady_catalog : Steady v cat.steady := by
  intro w w' h
  cases h with
  | find t hl hw => exact cat.find_steady _ hl t _ hw
  | list hl hw => exact cat.list_steady _ hl _ hw
  | part hl hw₀ hlist hpart hw => exact cat.part_steady _ hl _ _ hw₀ hlist _ hpart _ hw
  | load hchosen hw =>
    obtain ⟨hl, hsrc, -⟩ := Project.Catalog.mem_of_provider (hchosen.provider cat)
    exact cat.load_steady _ hl _ hsrc _ _ hw

/-- **Only loading can go wrong**, and only loading the provider of a type. -/
theorem Fault.of_catalog {e : ResolveError} (h : Fault v cat.steady e) :
    ∃ l src w e', cat.provider src.type = some (l, src) ∧ cat.steady w ∧
      (src.build (v.context l src) w).1 = .error e' ∧ e = .build src.type e' := by
  cases h with
  | build hchosen hw hbuild => exact ⟨_, _, _, _, hchosen.provider cat, hw, hbuild, rfl⟩
  | lookup hl hw hfind =>
    rw [cat.find _ hl _ _ hw] at hfind
    cases hfind
  | list hl hw hlist =>
    obtain ⟨listing, hok⟩ := cat.list _ hl _ hw
    rw [hok] at hlist
    cases hlist
  | entry hl hlists hmem =>
    rw [Lists.eq cat hl hlists] at hmem
    simp at hmem
  | cache hfinds hne => exact absurd (hfinds.type_of_catalog cat) hne

/-- What is answered for a type is an object of that type. -/
theorem Answers.of_catalog {id : Nat} (h : Answers v cat.steady t (some id) s) :
    ∃ c, s.info? id = some c ∧ c.type = t := by
  obtain ⟨c, hc, htype | ⟨l, src, hfinds, htype⟩⟩ := h
  · exact ⟨c, hc, htype⟩
  · exact ⟨c, hc, htype.symm.trans (hfinds.type_of_catalog cat)⟩

/-- Every object was loaded from the provider of its type. -/
theorem Sound.of_catalog (hs : Sound v cat.steady s) {id : Nat} {c : ClassInfo}
    (hc : s.info? id = some c) :
    ∃ l src w, cat.provider c.type = some (l, src) ∧ cat.steady w ∧
      (src.build (v.context l src) w).1 = .ok c := by
  obtain ⟨l, src, w, hchosen, hw, hbuild⟩ := hs.loaded id c hc
  refine ⟨l, src, w, ?_, hw, hbuild⟩
  rw [Source.type_of_build hbuild]
  exact hchosen.provider cat

/-! ### Projects whose classes can be loaded -/

/-- **Every provider can be loaded**, and it is loaded to the class that the table `classOf` has for
its type. The table has nothing else. -/
structure Loads (classOf : ClassType → Option ClassInfo) : Prop where
  absent : ∀ t, cat.provider t = none → classOf t = none
  build : ∀ t l src w, cat.provider t = some (l, src) → cat.steady w →
    ∃ c, classOf t = some c ∧ (src.build (v.context l src) w).1 = .ok c

variable {cat} {classOf : ClassType → Option ClassInfo}

/-- The types that a table has are those that are listed. -/
theorem Loads.isSome_iff (hl : Loads cat classOf) : (classOf t).isSome ↔ t ∈ cat.types := by
  rw [Project.Catalog.mem_types]
  constructor
  · intro h
    by_contra hno
    have hnone : cat.provider t = none :=
      Project.Catalog.provider_eq_none.mpr fun l hmem src hsrc htype =>
        hno ⟨l, hmem, src, hsrc, htype⟩
    rw [hl.absent t hnone] at h
    cases h
  · rintro ⟨l, hmem, src, hsrc, htype⟩
    rcases hprovider : cat.provider t with _ | ⟨l', src'⟩
    · exact absurd htype (Project.Catalog.provider_eq_none.mp hprovider l hmem src hsrc)
    · obtain ⟨w, hw⟩ := cat.exists_steady
      obtain ⟨c, hc, -⟩ := hl.build t l' src' w hprovider hw
      rw [hc]
      rfl

/-- **Nothing can go wrong.** -/
theorem Loads.not_fault (hl : Loads cat classOf) {e : ResolveError} : ¬ Fault v cat.steady e := by
  intro h
  obtain ⟨l, src, w, e', hprovider, hw, hbuild, -⟩ := h.of_catalog cat
  obtain ⟨c, -, hok⟩ := hl.build _ l src w hprovider hw
  rw [hok] at hbuild
  cases hbuild

theorem Loads.of_build (hl : Loads cat classOf) (hchosen : Chosen v cat.steady l src) {w : σ}
    {c : ClassInfo} (hw : cat.steady w) (hbuild : (src.build (v.context l src) w).1 = .ok c) :
    classOf src.type = some c := by
  obtain ⟨d, hd, hok⟩ := hl.build _ l src w (hchosen.provider cat) hw
  rw [hbuild] at hok
  rw [hd, Except.ok.inj hok]

/-- Every object is the one that the table has for its type. -/
theorem Loads.of_sound (hl : Loads cat classOf) (hs : Sound v cat.steady s) {id : Nat}
    {c : ClassInfo} (hc : s.info? id = some c) : classOf c.type = some c := by
  obtain ⟨l, src, w, hchosen, hw, hbuild⟩ := hs.loaded id c hc
  rw [Source.type_of_build hbuild]
  exact hl.of_build hchosen hw hbuild

/-- What is cached is in the table. -/
theorem Loads.of_held (hl : Loads cat classOf) (hs : Sound v cat.steady s)
    (h : (s.cache.find? t).isSome) : (classOf t).isSome := by
  obtain ⟨id, hid⟩ := Option.isSome_iff_exists.mp h
  obtain ⟨c, hc, rfl⟩ := hs.held t id hid
  rw [hl.of_sound hs hc]
  rfl

/-- **An answer is what the table has.** -/
theorem Answers.eq_classOf {answer : Option Nat} (h : Answers v cat.steady t answer s)
    (hl : Loads cat classOf) (hs : Sound v cat.steady s) : answer.bind s.info? = classOf t := by
  cases answer with
  | none => exact (hl.absent t ((absent_iff cat).mp h)).symm
  | some id =>
    obtain ⟨c, hc, rfl⟩ := h.of_catalog cat
    rw [Option.bind_some, hc, hl.of_sound hs hc]

/-- What the table has for a type has that type. -/
theorem Loads.type_eq (hl : Loads cat classOf) {c : ClassInfo} (hc : classOf t = some c) :
    c.type = t := by
  rcases hprovider : cat.provider t with _ | ⟨l, src⟩
  · rw [hl.absent t hprovider] at hc
    cases hc
  · obtain ⟨w, hw⟩ := cat.exists_steady
    obtain ⟨d, hd, hbuild⟩ := hl.build t l src w hprovider hw
    obtain rfl : c = d := Option.some.inj (hc.symm.trans hd)
    rw [Source.type_of_build hbuild]
    exact (Project.Catalog.mem_of_provider hprovider).2.2

/-- The same view with another cache. -/
abbrev withPolicy (v : View σ) (policy : CachePolicy) : View σ :=
  { v with options := { v.options with policy } }

/-- Loading does not depend on the cache. -/
theorem Loads.withPolicy (hl : Loads cat classOf) (policy : CachePolicy) :
    Loads (v := v.withPolicy policy) cat classOf :=
  ⟨hl.absent, hl.build⟩

end View

end Classpath

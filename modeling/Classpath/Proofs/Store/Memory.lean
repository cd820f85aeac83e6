import Classpath.Store.Memory
import Classpath.Proofs.View.Catalog

/-!
# Stores in memory as coherent locations

A store in memory that is not told to fail in looking up or listing is coherent, whatever it counts
and whichever of its classes cannot be built; and it answers for the type it is asked for unless it
is told to answer for another. Projects of such stores are the smallest ones on which statements
about views can be tried out.

* `Classpath.MemoryStore.Faultless` – what a store must not be told.
* `Classpath.Project.Catalog.ofMemory` – the table of a project of faultless stores.
* `Classpath.View.DrawsOn` – views of such stores: what can go wrong in them.
-/

namespace Classpath

namespace MemoryStore

/-- The sources of a store, in order. -/
def sources (m : MemoryStore) : List (Source World) :=
  m.classes.map m.source

/-- **A store that is not told to fail**, in looking up or in listing. -/
structure Faultless (m : MemoryStore) : Prop where
  failing : m.failing = []
  aliases : m.aliases = []
  listingLimit : m.listingLimit = none
  unlistable : m.unlistable = false

variable {m : MemoryStore} {t : ClassType} {w : World}

theorem find?_map_source (classes : List MemoryClass) :
    (classes.find? (·.type = t)).map m.source = (classes.map m.source).find? (·.type = t) := by
  rw [List.find?_map]
  rfl

/-- Types are looked up as other types only if the store has no class of these. -/
def Dangling (m : MemoryStore) : Prop :=
  ∀ a ∈ m.aliases, ∀ c ∈ m.classes, c.type ≠ a.2

instance : Decidable m.Dangling :=
  inferInstanceAs (Decidable (∀ a ∈ m.aliases, ∀ c ∈ m.classes, c.type ≠ a.2))

/-- Where aliases lead to no class the answer for a type has that type. -/
theorem type_eq_of_find (hdangling : m.Dangling) {src : Source World}
    (h : (m.find t w).1 = .ok (some src)) : src.type = t := by
  simp only [find] at h
  split at h
  · cases h
  · obtain ⟨c, hc, rfl⟩ := Option.map_eq_some_iff.mp (Except.ok.inj h)
    have hfound := List.find?_some hc
    have htype : c.type = (m.aliases.lookup t).getD t := of_decide_eq_true hfound
    rcases halias : m.aliases.lookup t with _ | u
    · rwa [halias] at htype
    · rw [halias] at htype
      obtain ⟨before, after, hsplit, -⟩ := List.lookup_eq_some_iff.mp halias
      exact absurd htype (hdangling (t, u) (by simp [hsplit]) c (List.mem_of_find?_eq_some hc))

/-- Whatever a store answers with is one of its sources. -/
theorem mem_sources_of_find {src : Source World} (h : (m.find t w).1 = .ok (some src)) :
    src ∈ m.sources := by
  simp only [find] at h
  split at h
  · cases h
  · obtain ⟨c, hc, rfl⟩ := Option.map_eq_some_iff.mp (Except.ok.inj h)
    exact List.mem_map_of_mem (List.mem_of_find?_eq_some hc)

theorem type_mem_of_mem_sources {src : Source World} (h : src ∈ m.sources) :
    src.type ∈ m.classes.map (·.type) := by
  obtain ⟨c, hc, rfl⟩ := List.mem_map.mp h
  exact List.mem_map_of_mem hc

/-- A store lists everything at once: its sources, or some of them and a failure. -/
theorem exists_entries_of_list {listing : Listing World} (h : (m.list w).1 = .ok listing) :
    ∃ entries : List (Except LocationError (Source World)),
      listing = [fun w => (entries, w)] ∧ (∀ src, .ok src ∈ entries → src ∈ m.sources) ∧
        (m.listingLimit = none → ∀ e, .error e ∉ entries) := by
  simp only [list] at h
  split at h
  · cases h
  · refine ⟨_, (Except.ok.inj h).symm, fun src hsrc => ?_, fun hlimit e he => ?_⟩
    · have hlisted :
          .ok src ∈ m.classes.map fun c => (.ok (m.source c) : Except LocationError _) := by
        split at hsrc
        · rcases List.mem_append.mp hsrc with htaken | hfailure
          · exact List.mem_of_mem_take htaken
          · simp at hfailure
        · exact hsrc
      obtain ⟨c, hc, heq⟩ := List.mem_map.mp hlisted
      obtain rfl : m.source c = src := Except.ok.inj heq
      exact List.mem_map_of_mem hc
    · simp [hlimit] at he

theorem Faultless.find_fst (h : m.Faultless) (t : ClassType) (w : World) :
    (m.find t w).1 = .ok (m.sources.find? (·.type = t)) := by
  simp only [find, h.failing, h.aliases]
  exact congrArg Except.ok (find?_map_source m.classes)

theorem Faultless.list_fst (h : m.Faultless) (w : World) :
    (m.list w).1 = .ok [fun w => (m.sources.map .ok, w)] := by
  simp only [list, h.unlistable, h.listingLimit, sources, List.map_map]
  rfl

/-- **A store whose classes can be loaded**: it is not told otherwise, and every class has the name
under which it is found. -/
structure Loadable (m : MemoryStore) : Prop where
  broken : m.broken = []
  named : ∀ c ∈ m.classes, c.info.type.name = c.type.name

/-- A class that can be loaded is loaded to the same class in every world. -/
theorem Loadable.exists_build (h : m.Loadable) {src : Source World}
    (hsrc : src ∈ m.sources) (ctx : BuildContext) : ∃ c, ∀ w, (src.build ctx w).1 = .ok c := by
  obtain ⟨c, hc, rfl⟩ := List.mem_map.mp hsrc
  let raw : ClassInfo :=
    { c.info with methods := c.info.methods.map (Frontend.interceptMethod c.type ctx) }
  have hload : ∀ w, ((m.source c).load ctx w).1 = .ok raw := by
    intro w
    simp [source, h.broken, raw]
  refine ⟨{ raw with type := c.type, origin := (m.source c).origin, sourceType := ctx.sourceType },
    fun w => ?_⟩
  change ((m.source c).load ctx w).1.bind (·.stamped c.type _ _) = _
  rw [hload w]
  exact if_pos (h.named c hc)

end MemoryStore

/-! ### Locations that draw on stores -/

/-- **A location that draws on a store**: it finds what the store finds, and lists sources of the
store. -/
structure Location.DrawsOn (l : Location World) (m : MemoryStore) : Prop where
  find : ∀ t w, l.find t w = m.find t w
  list : m.unlistable = false → ∀ naming w, ∃ listing, (l.list naming w).1 = .ok listing
  entries : ∀ naming w listing, (l.list naming w).1 = .ok listing →
    ∃ entries : List (Except LocationError (Source World)), listing = [fun w => (entries, w)] ∧
      (∀ src, .ok src ∈ entries → src ∈ m.sources) ∧
        (m.listingLimit = none → ∀ e, .error e ∉ entries)

/-- A store as a location that finds all its classes and lists only the first `n` of them. -/
def Location.ofMemoryListing (m : MemoryStore) (n : Nat) : Location World :=
  { Location.ofMemory m with
    list := (Location.ofMemory { m with classes := m.classes.take n }).list }

theorem Location.drawsOn_ofMemory (m : MemoryStore) : (Location.ofMemory m).DrawsOn m where
  find _ _ := rfl
  list hlistable naming w := by
    change ∃ listing, (m.list w).1 = .ok listing
    rw [MemoryStore.list, hlistable]
    exact ⟨_, rfl⟩
  entries _ _ _ h := MemoryStore.exists_entries_of_list h

theorem Location.drawsOn_ofMemoryListing (m : MemoryStore) (n : Nat) :
    (Location.ofMemoryListing m n).DrawsOn m where
  find _ _ := rfl
  list hlistable := (drawsOn_ofMemory { m with classes := m.classes.take n }).list hlistable
  entries naming w listing h := by
    obtain ⟨entries, hlisting, hsources, herrors⟩ := MemoryStore.exists_entries_of_list h
    refine ⟨entries, hlisting, fun src hsrc => ?_, herrors⟩
    obtain ⟨c, hc, rfl⟩ := List.mem_map.mp (hsources src hsrc)
    exact List.mem_map.mpr ⟨c, List.mem_of_mem_take hc, rfl⟩

/-- What a location lists in the world in which nothing happened yet. -/
def Location.sources (naming : Naming) (l : Location World) : List (Source World) :=
  match (l.list naming {}).1 with
  | .ok listing => (listing.entries {}).1.filterMap (·.toOption)
  | .error _ => []

theorem MemoryStore.Faultless.sources_ofMemory {m : MemoryStore} (h : m.Faultless)
    (naming : Naming) : (Location.ofMemory m).sources naming = m.sources := by
  have hlist : ((Location.ofMemory m).list naming {}).1 = .ok [fun w => (m.sources.map .ok, w)] :=
    h.list_fst _
  rw [Location.sources, hlist]
  simp [Listing.entries, List.filterMap_map, Except.toOption]

/-- **A project of faultless stores is coherent**, in every world. -/
def Project.Catalog.ofMemory (p : Project World)
    (h : ∀ l ∈ p.locations, ∃ m : MemoryStore, m.Faultless ∧ l = .ofMemory m) : p.Catalog where
  listed := Location.sources p.naming
  steady _ := True
  exists_steady := ⟨{}, trivial⟩
  find l hl t w _ := by
    obtain ⟨m, hm, rfl⟩ := h l hl
    rw [hm.sources_ofMemory]
    exact hm.find_fst t w
  list l hl w _ := by
    obtain ⟨m, hm, rfl⟩ := h l hl
    exact ⟨_, hm.list_fst w⟩
  entries l hl w listing es _ hlist hreads := by
    obtain ⟨m, hm, rfl⟩ := h l hl
    obtain rfl : [fun w => (m.sources.map .ok, w)] = listing :=
      Except.ok.inj ((hm.list_fst w).symm.trans hlist)
    obtain ⟨w', -, rfl⟩ := hreads.of_singleton
    rw [hm.sources_ofMemory]
  find_steady _ _ _ _ _ := trivial
  list_steady _ _ _ _ := trivial
  part_steady _ _ _ _ _ _ _ _ _ _ := trivial
  load_steady _ _ _ _ _ _ _ := trivial

/-! ### Small projects -/

/-- A class with the annotations of some names, under its own name. -/
def MemoryClass.annotated (name : String) (flags : UInt16) (annotations : List String) :
    MemoryClass where
  type := ⟨name, none⟩
  info := {
    type := ⟨name, none⟩
    flags
    annotations := annotations.map fun a => ⟨⟨a, none⟩, []⟩ }

/-- A store of some classes. -/
def MemoryStore.ofClasses (name : String) (id : Nat) (classes : List MemoryClass) :
    MemoryStore where
  name
  classes
  id

/-- **Two annotation types, each annotated with the other**: the smallest store in which a class
asks for itself while it is being resolved. -/
def MemoryStore.twins : MemoryStore :=
  .ofClasses "app" 0 [.annotated "a.A" 0x2600 ["a.B"], .annotated "a.B" 0x2600 ["a.A"]]

/-- An annotation type that is annotated with itself. -/
def MemoryStore.selfAnnotated : MemoryStore :=
  .ofClasses "app" 0 [.annotated "a.A" 0x2600 ["a.A"]]

/-- Three annotation types, annotated with each other in a ring and the first one with itself as
well. The last one cannot be built. -/
def MemoryStore.brokenRing : MemoryStore :=
  { MemoryStore.ofClasses "app" 0 [.annotated "a.A" 0x2600 ["a.A", "a.B"],
      .annotated "a.B" 0x2600 ["a.C"], .annotated "a.C" 0x2600 ["a.A"]] with
    broken := [⟨"a.C", none⟩] }

/-- A class and its superclass, listed in this order. -/
def MemoryStore.family : MemoryStore :=
  .ofClasses "app" 0 [
    { type := ⟨"a.B", none⟩, info := {
        type := ⟨"a.B", none⟩, flags := 0x21, superclass := some ⟨"a.A", none⟩ } },
    .annotated "a.A" 0x21 []]

/-- A class with a superclass and interfaces of some names, under its own name. -/
def MemoryClass.inheriting (name : String) (flags : UInt16) (superclass : Option String)
    (interfaces : List String) : MemoryClass where
  type := ⟨name, none⟩
  info := {
    type := ⟨name, none⟩
    flags
    superclass := superclass.map (⟨·, none⟩)
    interfaces := interfaces.map (⟨·, none⟩) }

/-- A class that implements an interface, which extends another one. -/
def MemoryStore.lattice : MemoryStore :=
  .ofClasses "app" 0 [
    .inheriting "a.C" 0x21 (some "java.lang.Object") ["a.J"],
    .inheriting "a.J" 0x600 (some "java.lang.Object") ["a.I"],
    .inheriting "a.I" 0x600 (some "java.lang.Object") [],
    .inheriting "java.lang.Object" 0x21 none []]

/-- A class that implements an interface and whose superclass is missing. -/
def MemoryStore.severed : MemoryStore :=
  .ofClasses "app" 0 [
    .inheriting "a.C" 0x21 (some "lib.Missing") ["a.I"],
    .inheriting "a.I" 0x600 (some "java.lang.Object") [],
    .inheriting "java.lang.Object" 0x21 none []]

/-- The class in a module. -/
def MemoryClass.within (m : String) (c : MemoryClass) : MemoryClass :=
  { c with type := { c.type with moduleName := some ⟨m⟩ } }

/-- **Two modules with classes of the same names**, and other supertypes. -/
def MemoryStore.homonyms : MemoryStore :=
  .ofClasses "app" 0 [
    .within "m" (.inheriting "a.C" 0x21 (some "a.B") []),
    .within "m" (.inheriting "a.B" 0x21 (some "java.lang.Object") []),
    .within "n" (.inheriting "a.C" 0x21 (some "a.B") []),
    .within "n" (.inheriting "a.B" 0x21 none ["a.I"])]

/-- The store, with a type that it lists and does not find: it looks for another one, which it does
not have. -/
def MemoryStore.hiding (m : MemoryStore) (name : String) : MemoryStore :=
  { m with aliases := [(⟨name, none⟩, ⟨"", none⟩)] }

/-- A class and its superclass, which is listed and not found. -/
def MemoryStore.hidden : MemoryStore :=
  .hiding (.ofClasses "app" 0 [
    .inheriting "a.C" 0x21 (some "a.X") [],
    .inheriting "a.X" 0x21 (some "java.lang.Object") []]) "a.X"

/-- A class and its superclass, which extends the class in turn and is listed and not found. -/
def MemoryStore.hiddenRing : MemoryStore :=
  .hiding (.ofClasses "app" 0 [
    .inheriting "a.C" 0x21 (some "a.X") [],
    .inheriting "a.X" 0x21 (some "a.C") []]) "a.X"

/-- **Two classes that inherit from each other**, a class that leads to them, and a class that comes
to an interface on two paths and names one of its interfaces twice. -/
def MemoryStore.knotted : MemoryStore :=
  .ofClasses "app" 0 [
    .inheriting "a.A" 0x21 (some "a.B") [],
    .inheriting "a.B" 0x21 none ["a.A"],
    .inheriting "a.C" 0x21 (some "a.A") [],
    .inheriting "a.D" 0x21 (some "lib.Missing") ["a.I", "a.J", "a.I"],
    .inheriting "a.I" 0x600 none ["a.K"],
    .inheriting "a.J" 0x600 none ["a.K"],
    .inheriting "a.K" 0x600 none []]

/-- Two stores that have a class of the same name, and the first one does not find its own. The
second one also has a class that inherits from both that class and itself. -/
def MemoryStore.contested : List MemoryStore :=
  [.hiding (.ofClasses "one" 0 [.inheriting "a.X" 0x21 (some "p.One") []]) "a.X",
    .ofClasses "two" 1 [
      .inheriting "a.X" 0x21 (some "p.Two") [],
      .inheriting "a.L" 0x21 (some "a.X") ["a.L"]]]

theorem MemoryStore.faultless_ofClasses (name : String) (id : Nat) (classes : List MemoryClass) :
    (MemoryStore.ofClasses name id classes).Faultless :=
  ⟨rfl, rfl, rfl, rfl⟩

theorem MemoryStore.faultless_twins : MemoryStore.twins.Faultless :=
  faultless_ofClasses ..

theorem MemoryStore.faultless_selfAnnotated : MemoryStore.selfAnnotated.Faultless :=
  faultless_ofClasses ..

theorem MemoryStore.faultless_family : MemoryStore.family.Faultless :=
  faultless_ofClasses ..

theorem MemoryStore.faultless_lattice : MemoryStore.lattice.Faultless :=
  faultless_ofClasses ..

theorem MemoryStore.faultless_severed : MemoryStore.severed.Faultless :=
  faultless_ofClasses ..

theorem MemoryStore.faultless_homonyms : MemoryStore.homonyms.Faultless :=
  faultless_ofClasses ..

theorem MemoryStore.faultless_knotted : MemoryStore.knotted.Faultless :=
  faultless_ofClasses ..

theorem MemoryStore.loadable_family : MemoryStore.family.Loadable :=
  ⟨rfl, by decide⟩

/-- Two stores that have the same class, which the first of them cannot load. -/
def MemoryStore.shadowed : List MemoryStore :=
  [{ MemoryStore.ofClasses "app" 0 [.annotated "a.A" 0x21 []] with broken := [⟨"a.A", none⟩] },
    .ofClasses "lib" 1 [.annotated "a.A" 0x21 []]]

theorem MemoryStore.faultless_shadowed : ∀ m ∈ MemoryStore.shadowed, m.Faultless := by
  simp only [shadowed, List.mem_cons, List.not_mem_nil, or_false, forall_eq_or_imp, forall_eq]
  exact ⟨⟨rfl, rfl, rfl, rfl⟩, ⟨rfl, rfl, rfl, rfl⟩⟩

/-- Two classes that inherit from the third one, and the second one from itself as well. -/
def MemoryStore.looped : MemoryStore :=
  .ofClasses "app" 0 [
    .inheriting "a.C" 0x21 none [],
    .inheriting "a.L" 0x21 (some "a.X") ["a.L"],
    .inheriting "a.X" 0x21 (some "a.C") []]

/-- A view of stores in memory. -/
def View.ofStores (stores : List MemoryStore) (policy : CachePolicy) : View World where
  project := { language := .text, locations := stores.map .ofMemory, moduleAware := false }
  options := { policy }

/-- A view of one location. -/
def View.ofLocation (l : Location World) (policy : CachePolicy) : View World where
  project := { language := .text, locations := [l], moduleAware := false }
  options := { policy }

/-- **A view that draws on stores.** -/
def View.DrawsOn (v : View World) (stores : List MemoryStore) : Prop :=
  ∀ l ∈ v.project.locations, ∃ m ∈ stores, l.DrawsOn m

theorem View.drawsOn_ofStores (stores : List MemoryStore) (policy : CachePolicy) :
    (View.ofStores stores policy).DrawsOn stores := by
  intro l hl
  obtain ⟨m, hm, rfl⟩ := List.mem_map.mp hl
  exact ⟨m, hm, Location.drawsOn_ofMemory m⟩

section Draws

variable {v : View World} {stores : List MemoryStore} {policy : CachePolicy} {W : World → Prop}
  (hdraws : v.DrawsOn stores)

include hdraws

/-- **Stores whose aliases lead nowhere answer for the type they are asked for.** -/
theorem View.DrawsOn.selfTyped (hdangling : ∀ m ∈ stores, m.Dangling) : v.project.SelfTyped := by
  intro l hl t w src hfind
  obtain ⟨m, hm, hlm⟩ := hdraws l hl
  rw [hlm.find] at hfind
  exact MemoryStore.type_eq_of_find (hdangling m hm) hfind

/-- Whatever is found or listed is a source of one of the stores. -/
theorem View.DrawsOn.exists_store {l : Location World} (hl : l ∈ v.project.locations)
    {src : Source World} (h : (∃ t w, (l.find t w).1 = .ok (some src)) ∨
      ∃ entries, Lists v W l entries ∧ .ok src ∈ entries) : ∃ m ∈ stores, src ∈ m.sources := by
  obtain ⟨m, hm, hlm⟩ := hdraws l hl
  refine ⟨m, hm, ?_⟩
  rcases h with ⟨t, w, hfind⟩ | ⟨entries, ⟨w, listing, -, hlist, hreads⟩, hsrc⟩
  · rw [hlm.find] at hfind
    exact MemoryStore.mem_sources_of_find hfind
  · obtain ⟨listed, rfl, hsources, -⟩ := hlm.entries _ _ _ hlist
    obtain ⟨w', -, rfl⟩ := hreads.of_singleton
    exact hsources src hsrc

/-- What is loaded is a source of one of the stores. -/
theorem View.DrawsOn.exists_store_of_chosen {l : Location World} {src : Source World}
    (h : Chosen v W l src) : ∃ m ∈ stores, src ∈ m.sources := by
  rcases h with ⟨t, before, after, hsplit, -, w, -, hfind⟩ |
    ⟨before, after, hsplit, -, earlier, later, hlists, -⟩
  · exact hdraws.exists_store (W := W) (by simp [hsplit]) (.inl ⟨t, w, hfind⟩)
  · exact hdraws.exists_store (by simp [hsplit]) (.inr ⟨_, hlists, by simp⟩)

/-- **Nothing goes wrong in a view of stores that are told nothing but to hide types.** -/
theorem View.DrawsOn.not_fault (hdangling : ∀ m ∈ stores, m.Dangling)
    (hloadable : ∀ m ∈ stores, m.Loadable)
    (htold : ∀ m ∈ stores, m.failing = [] ∧ m.listingLimit = none ∧ m.unlistable = false)
    {e : ResolveError} : ¬ Fault v W e := by
  rintro (⟨hchosen, -, hbuild⟩ | ⟨hl, -, hfind⟩ | ⟨hl, -, hlist⟩ |
    ⟨hl, ⟨w, listing, -, hlist, hreads⟩, he⟩ | ⟨hfinds, hne⟩)
  -- every fault would be one that a store must be told to have
  · obtain ⟨m, hm, hsrc⟩ := hdraws.exists_store_of_chosen hchosen
    obtain ⟨c, hc⟩ := (hloadable m hm).exists_build hsrc _
    rw [hc] at hbuild
    cases hbuild
  · obtain ⟨m, hm, hlm⟩ := hdraws _ hl
    simp [hlm.find, MemoryStore.find, (htold m hm).1] at hfind
  · obtain ⟨m, hm, hlm⟩ := hdraws _ hl
    obtain ⟨listing, hlisting⟩ := hlm.list (htold m hm).2.2 _ _
    rw [hlisting] at hlist
    cases hlist
  · obtain ⟨m, hm, hlm⟩ := hdraws _ hl
    obtain ⟨listed, rfl, -, herrors⟩ := hlm.entries _ _ _ hlist
    obtain ⟨w', -, rfl⟩ := hreads.of_singleton
    exact herrors (htold m hm).2.1 _ he
  · obtain ⟨before, after, hsplit, -, w, -, hfind⟩ := hfinds
    exact hne (hdraws.selfTyped hdangling _ (by simp [hsplit]) _ _ _ hfind)

end Draws

theorem View.selfTyped_ofStores {stores : List MemoryStore} {policy : CachePolicy}
    (h : ∀ m ∈ stores, m.aliases = []) : (View.ofStores stores policy).project.SelfTyped :=
  (drawsOn_ofStores stores policy).selfTyped fun m hm a ha => by simp [h m hm] at ha

/-- The table of a view of faultless stores. -/
def View.catalogOfStores (stores : List MemoryStore) (policy : CachePolicy)
    (h : ∀ m ∈ stores, m.Faultless) : (View.ofStores stores policy).project.Catalog :=
  .ofMemory _ fun l hl => by
    obtain ⟨m, hm, rfl⟩ := List.mem_map.mp hl
    exact ⟨m, h m hm, rfl⟩

/-- The classes that the providers are loaded to in the world in which nothing happened yet. -/
def View.tableOfStores {v : View World} (cat : v.project.Catalog) (t : ClassType) :
    Option ClassInfo :=
  (cat.provider t).bind fun (l, src) => (src.build (v.context l src) {}).1.toOption

/-- **Stores whose classes can be loaded have a table of classes.** -/
theorem View.loads_ofStores {stores : List MemoryStore} {policy : CachePolicy}
    (h : ∀ m ∈ stores, m.Faultless) (hloadable : ∀ m ∈ stores, m.Loadable) :
    Loads (catalogOfStores stores policy h) (tableOfStores (catalogOfStores stores policy h)) where
  absent t hnone := by rw [tableOfStores, hnone]; rfl
  build t l src w hprovider _ := by
    obtain ⟨hl, hsrc, -⟩ := Project.Catalog.mem_of_provider hprovider
    obtain ⟨m, hm, rfl⟩ := List.mem_map.mp hl
    have hsources : src ∈ m.sources := by
      have hlisted : src ∈ (Location.ofMemory m).sources _ := hsrc
      rwa [(h m hm).sources_ofMemory] at hlisted
    obtain ⟨c, hc⟩ := (hloadable m hm).exists_build hsources
      ((ofStores stores policy).context (.ofMemory m) src)
    refine ⟨c, ?_, hc w⟩
    rw [tableOfStores, hprovider]
    exact congrArg Except.toOption (hc {})

/-- The table of a view of one faultless store. -/
def View.catalogOfStore (m : MemoryStore) (policy : CachePolicy) (h : m.Faultless) :
    (View.ofStores [m] policy).project.Catalog :=
  catalogOfStores [m] policy (List.forall_mem_singleton.mpr h)

theorem View.loads_ofStore {m : MemoryStore} {policy : CachePolicy} (h : m.Faultless)
    (hloadable : m.Loadable) :
    Loads (catalogOfStore m policy h) (tableOfStores (catalogOfStore m policy h)) :=
  loads_ofStores _ (List.forall_mem_singleton.mpr hloadable)

/-- Only the types of the store are in its table. -/
theorem View.mem_types_of_table {m : MemoryStore} {policy : CachePolicy} {h : m.Faultless}
    (hloadable : m.Loadable) {t : ClassType}
    (ht : (tableOfStores (catalogOfStore m policy h) t).isSome) : t ∈ m.classes.map (·.type) := by
  obtain ⟨l, hl, src, hsrc, rfl⟩ :=
    Project.Catalog.mem_types.mp ((loads_ofStore h hloadable).isSome_iff.mp ht)
  obtain rfl : l = .ofMemory m := List.mem_singleton.mp hl
  have hlisted : src ∈ (Location.ofMemory m).sources _ := hsrc
  rw [h.sources_ofMemory] at hlisted
  obtain ⟨c, hc, rfl⟩ := List.mem_map.mp hlisted
  exact List.mem_map_of_mem hc

/-- What can be checked of the classes of a store holds of all that are in its table. -/
theorem View.forall_of_table {m : MemoryStore} {policy : CachePolicy} {h : m.Faultless}
    (hloadable : m.Loadable) {P : ClassInfo → Bool}
    (hall : (m.classes.map (·.type)).all fun t =>
      (tableOfStores (catalogOfStore m policy h) t).all P)
    {t : ClassType} {c : ClassInfo}
    (hc : tableOfStores (catalogOfStore m policy h) t = some c) : P c = true := by
  have hchecked := List.all_eq_true.mp hall t (mem_types_of_table hloadable (by rw [hc]; rfl))
  rwa [hc] at hchecked

end Classpath

import Mathlib.Data.List.Forall2
import Classpath.Settings.Inputs
import Classpath.Proofs.Store.ModuleImage

/-!
# What becomes of inputs

Two passes turn inputs into a project: the first one makes a location of every input and stops where
none can be made, the second one looks for locations that the language does not allow. What is wrong
with an input by itself does not depend on the other inputs, and making a location changes no file,
so the first input that has a flaw is the one that is reported, and the language is looked at only
when no input has one. Nothing is said here of the installed platform: it is taken not to be found.

* `Classpath.InputSettings.At`, `Classpath.InputSettings.Flaw`, `Classpath.InputSettings.Located` –
  where an input is, what is wrong with it by itself, and what it is as a location.
* `Classpath.ModuleImage.open_eq_ok`, `Classpath.ModuleImage.open_eq_error` – images that open.
* `Classpath.InputSettings.registerAll_of_flaw`, `Classpath.InputSettings.registerAll_of_sound` –
  the inputs in order.
* `Classpath.Settings.project_of_inputs` – **the project of settings**.
-/

namespace Classpath

variable {base : Option Path} {files : FileTree} {env : Jdk.Environment} {w : World} {index : Nat}

/-! ### Images that open -/

/-- **A root that holds modules**, in one layout or in the other. -/
def FileTree.HoldsModules (files : FileTree) (root : Path) : Prop :=
  files.isDirectory (root.join ⟨"modules"⟩) = true ∨ files.isDirectory (root.join ⟨"jmods"⟩) = true

/-- A directory can be listed. -/
theorem FileTree.exists_entryNames {p : Path} (h : files.isDirectory p = true) :
    ∃ entries, files.entryNames p = .ok entries := by
  rw [isDirectory, target?, decide_eq_true_eq] at h
  rcases hkey : files.locate .target p with e | key
  · rw [hkey] at h
    cases h
  · rw [hkey] at h
    refine ⟨files.childrenOf key, ?_⟩
    have hnode : files.node? key = some .directory := h
    simp only [entryNames, hkey, hnode, bind, Except.bind]

namespace ModuleImage

variable {root : Path}

theorem exists_archivesIn {dir : Path} (h : w.files.isDirectory dir = true) :
    ∃ found, archivesIn dir w = .ok found := by
  obtain ⟨entries, hentries⟩ := FileTree.exists_entryNames h
  exact ⟨_, by rw [archivesIn, hentries]; rfl⟩

/-- **A root that holds modules opens**, as an image at this root. -/
theorem open_eq_ok (h : w.files.HoldsModules root) :
    ∃ i, (ModuleImage.open root w).1 = .ok i ∧ i.root = root := by
  by_cases hmodules : w.files.isDirectory (root.join ⟨"modules"⟩) = true
  · exact ⟨_, by rw [ModuleImage.open, if_pos hmodules], rfl⟩
  · have hjmods := h.resolve_left hmodules
    obtain ⟨found, hfound⟩ := exists_archivesIn hjmods
    refine ⟨⟨root, .archived (number found w).1⟩, ?_, rfl⟩
    rw [ModuleImage.open, if_neg hmodules, if_pos hjmods, hfound]

/-- **A root that holds no modules does not open.** -/
theorem open_eq_error (h : ¬w.files.HoldsModules root) :
    (ModuleImage.open root w).1 = .error (.noModules root) := by
  obtain ⟨hmodules, hjmods⟩ := not_or.mp h
  rw [ModuleImage.open, if_neg hmodules, if_neg hjmods]

/-- Opening an image changes no file. -/
theorem open_files (root : Path) (w : World) : (ModuleImage.open root w).2.files = w.files := by
  rw [ModuleImage.open]
  split_ifs
  · rfl
  · split
    · rfl
    · exact (number_world _ w).1
  · rfl

/-- Where no platform is found, there are no modules of it. -/
theorem openSystem_eq (h : Jdk.discover? w.files env = none) :
    openSystem env w = (.error .noSystemModules, w) := by
  rw [openSystem, h]

end ModuleImage

/-! ### Inputs by themselves -/

namespace InputSettings

variable {i : InputSettings}

/-- Whether an input holds modules. -/
def isModular (i : InputSettings) : Bool :=
  match i.kind with
  | .classDirectory | .archive | .textDirectory => false
  | .modules | .packedModules | .systemModules => true

/-- How the location of an input is called, with its path behind. -/
def label (i : InputSettings) : String :=
  match i.kind with
  | .classDirectory | .textDirectory => "class dir "
  | .archive => "archive "
  | .modules | .packedModules | .systemModules => "module fs "

/-- **Where an input is.** A relative path starts at the base directory, if there is one. -/
inductive At (base : Option Path) (i : InputSettings) : Path → Prop
  | absolute {p : Path} : i.path = some p → p.isAbsolute = true → At base i p
  | relative {p dir : Path} : i.path = some p → p.isAbsolute = false → base = some dir →
      At base i (dir.join p)
  | baseless {p : Path} : i.path = some p → base = none → At base i p

/-- **What is wrong with an input by itself**, by the error that reports it. -/
inductive Flaw (base : Option Path) (files : FileTree) (i : InputSettings) (index : Nat) :
    SettingsError → Prop
  /-- It is nowhere. -/
  | pathless : i.kind ≠ .systemModules → i.path = none →
      Flaw base files i index
        (.invalid (inputPlace index ++ ".path") "this input kind needs a path")
  /-- It is somewhere and may not be. -/
  | misplaced {p : Path} : i.kind = .systemModules → i.path = some p →
      Flaw base files i index
        (.invalid (inputPlace index ++ ".path") "system_modules is discovered and takes no path")
  /-- It stands for a platform, of which there is none. -/
  | undiscovered : i.kind = .systemModules → i.path = none →
      Flaw base files i index (.location (inputPlace index) .noSystemModules)
  /-- There are no modules where it is. -/
  | closed {root : Path} : i.kind = .modules ∨ i.kind = .packedModules → i.At base root →
      ¬files.HoldsModules root →
      Flaw base files i index (.location (inputPlace index) (.noModules root))

/-- **An input with which nothing is wrong.** -/
def Sound (base : Option Path) (files : FileTree) (i : InputSettings) : Prop :=
  ∀ index e, ¬i.Flaw base files index e

/-- **The location of an input**: where it is, of its kind, and with its source type. -/
inductive Located (base : Option Path) (files : FileTree) (i : InputSettings) :
    Location World → Prop
  | classDirectory {root : Path} : i.kind = .classDirectory → i.At base root →
      Located base files i (.ofDirectory root .classFile (i.sourceType.getD .application))
  | textDirectory {root : Path} : i.kind = .textDirectory → i.At base root →
      Located base files i (.ofDirectory root .textClass (i.sourceType.getD .application))
  | archive {a : Archive} : i.kind = .archive → i.At base a.path →
      Located base files i (.ofArchive a .classFile (i.sourceType.getD .application))
  | image {image : ModuleImage} {v : World} : i.kind = .modules ∨ i.kind = .packedModules →
      i.At base image.root → v.files = files → (ModuleImage.open image.root v).1 = .ok image →
      Located base files i (.ofImage image .classFile (i.sourceType.getD .application))

theorem at_iff {p : Path} : i.At base p ↔ i.path? base = some p := by
  constructor
  · rintro (⟨hpath, habsolute⟩ | ⟨hpath, -, rfl⟩ | ⟨hpath, rfl⟩)
    · rw [path?, hpath]
      rcases base with _ | dir
      · rfl
      · simp [Path.join, habsolute]
    · rw [path?, hpath]
      rfl
    · rw [path?, hpath]
      rfl
  · intro h
    obtain ⟨q, hpath, rfl⟩ := Option.map_eq_some_iff.mp h
    rcases base with _ | dir
    · exact .baseless hpath rfl
    · rcases habsolute : q.isAbsolute with _ | _
      · exact .relative hpath habsolute rfl
      · rw [show (some dir).elim q (·.join q) = q by simp [Path.join, habsolute]]
        exact .absolute hpath habsolute

theorem path?_eq_none_iff : i.path? base = none ↔ i.path = none :=
  Option.map_eq_none_iff

theorem isModular_of_kind (h : i.kind = .modules ∨ i.kind = .packedModules) :
    i.isModular = true := by
  rcases h with h | h <;> rw [isModular, h]

/-- An input holds modules if its location is organised in modules. -/
theorem Located.isModular_eq {l : Location World} (h : i.Located base files l) :
    l.isModular = i.isModular := by
  cases h with
  | classDirectory hkind | textDirectory hkind | archive hkind => rw [isModular, hkind]; rfl
  | image hkind => rw [isModular_of_kind hkind]; rfl

/-- **What a location shows of its input**: its source type, and its path behind its label. -/
structure Shows (base : Option Path) (i : InputSettings) (l : Location World) : Prop where
  sourceType : l.sourceType = i.sourceType.getD .application
  description : ∃ p, i.At base p ∧ l.description = i.label ++ p.text

theorem Located.shows {l : Location World} (h : i.Located base files l) : i.Shows base l := by
  cases h with
  | classDirectory hkind hat | textDirectory hkind hat =>
    exact ⟨rfl, _, hat, by rw [label, hkind]; rfl⟩
  | archive hkind hat => exact ⟨rfl, _, hat, by rw [label, hkind]; rfl⟩
  | image hkind hat =>
    refine ⟨rfl, _, hat, ?_⟩
    rcases hkind with hkind | hkind <;> rw [label, hkind] <;> rfl

/-- The location of an input is named by where the input is. -/
theorem Shows.description_eq {l : Location World} {p : Path} (h : i.Shows base l)
    (hat : i.At base p) : l.description = i.label ++ p.text := by
  obtain ⟨q, hq, hdescription⟩ := h.description
  have heq := (at_iff.mp hq).symm.trans (at_iff.mp hat)
  rw [hdescription, Option.some.inj heq]

theorem label_of_isModular (h : i.isModular = true) : i.label = "module fs " := by
  rw [isModular] at h
  rw [label]
  split at h
  all_goals simp_all

/-! ### One input -/

/-- Registering an input changes no file. -/
theorem register_files (i : InputSettings) (base : Option Path) (env : Jdk.Environment)
    (index : Nat) (w : World) : (i.register base env index w).2.files = w.files := by
  have himage : ∀ sourceType opened,
      (registerImage index sourceType opened).2 = opened.2 := by
    rintro sourceType ⟨e | image, w⟩ <;> rfl
  have hsystem : (ModuleImage.openSystem env w).2.files = w.files := by
    rw [ModuleImage.openSystem]
    split
    · exact ModuleImage.open_files _ w
    · rfl
  rcases i with ⟨kind, path, sourceType⟩
  rcases hpath : path? ⟨kind, path, sourceType⟩ base with _ | root <;> cases kind <;>
    simp only [register, hpath, registerAt, himage, hsystem, ModuleImage.open_files, Archive.ofPath]

/-- **An input with a flaw is not registered**, and the flaw is reported. -/
theorem register_of_flaw {e : SettingsError} (hplatform : Jdk.discover? w.files env = none)
    (h : i.Flaw base w.files index e) : (i.register base env index w).1 = .error e := by
  cases h with
  | pathless hkind hpath =>
    have hpath : i.path? base = none := path?_eq_none_iff.mpr hpath
    rw [register, hpath]
    rcases hk : i.kind with _ | _ | _ | _ | _ | _
    all_goals first | rfl | exact absurd hk hkind
  | misplaced hkind hpath =>
    rw [register, hkind, path?, hpath]
    rfl
  | undiscovered hkind hpath =>
    rw [register, hkind, path?_eq_none_iff.mpr hpath]
    rw [ModuleImage.openSystem_eq hplatform]
    rfl
  | closed hkind hroot hclosed =>
    rw [register, at_iff.mp hroot]
    rcases hkind with hkind | hkind <;>
      simp only [hkind, registerAt, registerImage, ModuleImage.open_eq_error hclosed]

/-- An input without a flaw is somewhere. -/
theorem Sound.exists_at (hsound : i.Sound base w.files) :
    i.kind ≠ .systemModules ∧ ∃ root, i.At base root := by
  have hkind : i.kind ≠ .systemModules := by
    intro hkind
    rcases hpath : i.path with _ | p
    · exact hsound 0 _ (.undiscovered hkind hpath)
    · exact hsound 0 _ (.misplaced hkind hpath)
  refine ⟨hkind, ?_⟩
  rcases hpath : i.path? base with _ | root
  · exact absurd (.pathless hkind (path?_eq_none_iff.mp hpath)) (hsound 0 _)
  · exact ⟨root, at_iff.mpr hpath⟩

/-- **What an input is registered as**: its location, as a module image only if it holds modules. -/
def RegisteredAs (base : Option Path) (files : FileTree) (i : InputSettings)
    (r : Registration World) : Prop :=
  i.Located base files r.location ∧ (r.asModules = true → i.isModular = true)

theorem RegisteredAs.isModular_eq {r : Registration World} (h : i.RegisteredAs base files r) :
    r.isModular = i.isModular := by
  rw [Registration.isModular, h.1.isModular_eq]
  rcases hr : r.asModules with _ | _
  · rfl
  · rw [h.2 hr]
    rfl

/-- **An input without a flaw is registered.** -/
theorem register_of_sound (env : Jdk.Environment) (index : Nat) (hsound : i.Sound base w.files) :
    ∃ r, (i.register base env index w).1 = .ok r ∧ i.RegisteredAs base w.files r := by
  obtain ⟨hkind, root, hat⟩ := hsound.exists_at
  have himage : i.kind = .modules ∨ i.kind = .packedModules →
      ∃ r, (registerImage index (i.sourceType.getD .application) (ModuleImage.open root w)).1 =
          .ok r ∧ i.Located base w.files r.location := by
    intro hmodules
    have hholds : w.files.HoldsModules root := by
      by_contra hclosed
      exact hsound 0 _ (.closed hmodules hat hclosed)
    obtain ⟨image, hopen, rfl⟩ := ModuleImage.open_eq_ok hholds
    refine ⟨⟨.ofImage image .classFile (i.sourceType.getD .application), true⟩, ?_,
      .image hmodules hat rfl hopen⟩
    simp only [registerImage, hopen]
  rw [register, at_iff.mp hat]
  let sourceType := i.sourceType.getD .application
  rcases hk : i.kind with _ | _ | _ | _ | _ | _
  · refine ⟨{ location := .ofDirectory root .classFile sourceType }, ?_,
      .classDirectory hk hat, by simp⟩
    simp only [registerAt, hk, sourceType]
  · refine ⟨{ location := Location.ofArchive (Archive.ofPath root w).1 .classFile sourceType }, ?_,
      .archive hk hat, by simp⟩
    simp only [registerAt, hk, sourceType]
  · refine ⟨{ location := .ofDirectory root .textClass sourceType }, ?_,
      .textDirectory hk hat, by simp⟩
    simp only [registerAt, hk, sourceType]
  · obtain ⟨r, hr, hlocated⟩ := himage (.inl hk)
    exact ⟨r, by simp only [registerAt, hk, hr], hlocated, fun _ => isModular_of_kind (.inl hk)⟩
  · obtain ⟨r, hr, hlocated⟩ := himage (.inr hk)
    exact ⟨r, by simp only [registerAt, hk, hr], hlocated, fun _ => isModular_of_kind (.inr hk)⟩
  · exact absurd hk hkind

/-! ### The inputs in order -/

variable {inputs : List InputSettings}

/-- Registering the first of some inputs, and then the others. -/
theorem registerAll_cons (i : InputSettings) (rest : List InputSettings) :
    registerAll base env index (i :: rest) w =
      match i.register base env index w with
      | (.error e, w) => (.error e, w)
      | (.ok first, w) =>
        ((registerAll base env (index + 1) rest w).1.map (first :: ·),
          (registerAll base env (index + 1) rest w).2) :=
  rfl

/-- **The first input with a flaw is reported.** -/
theorem registerAll_of_flaw {e : SettingsError} {n : Nat}
    (hplatform : Jdk.discover? w.files env = none) (hi : inputs[n]? = some i)
    (hflaw : i.Flaw base w.files (index + n) e)
    (hbefore : ∀ k < n, ∀ j, inputs[k]? = some j → j.Sound base w.files) :
    (registerAll base env index inputs w).1 = .error e := by
  induction inputs generalizing n index w with
  | nil => cases hi
  | cons first rest ih =>
    rw [registerAll_cons]
    rcases n with _ | n
    · obtain rfl : first = i := Option.some.inj hi
      have hregister := register_of_flaw hplatform hflaw
      split <;> simp_all
    · obtain ⟨r, hr, -⟩ := register_of_sound env index
        (hbefore 0 n.succ_pos first rfl)
      have hfiles := first.register_files base env index w
      rcases hregister : first.register base env index w with ⟨registered, v⟩
      rw [hregister] at hr hfiles
      obtain rfl : registered = .ok r := hr
      have hrest : (registerAll base env (index + 1) rest v).1 = .error e := by
        refine ih (n := n) (by rwa [hfiles]) hi ?_ fun k hk j hj => ?_
        · rwa [hfiles, Nat.add_right_comm]
        · rw [hfiles]
          exact hbefore (k + 1) (Nat.succ_lt_succ hk) j hj
      simp only [hrest]
      rfl

/-- **Inputs without flaws are registered**, each of them and in order. -/
theorem registerAll_of_sound (env : Jdk.Environment) (index : Nat)
    (hsound : ∀ i ∈ inputs, i.Sound base w.files) :
    ∃ rs, (registerAll base env index inputs w).1 = .ok rs ∧
      List.Forall₂ (RegisteredAs base w.files) inputs rs := by
  induction inputs generalizing index w with
  | nil => exact ⟨[], rfl, .nil⟩
  | cons first rest ih =>
    obtain ⟨hfirst, hrest⟩ := List.forall_mem_cons.mp hsound
    obtain ⟨r, hr, hregistered⟩ := register_of_sound env index hfirst
    have hfiles := first.register_files base env index w
    rw [registerAll_cons]
    rcases hregister : first.register base env index w with ⟨registered, v⟩
    rw [hregister] at hr hfiles
    obtain rfl : registered = .ok r := hr
    obtain ⟨rs, hrs, hall⟩ := ih (w := v) (index + 1) (by rwa [hfiles])
    refine ⟨r :: rs, ?_, .cons hregistered (hfiles ▸ hall)⟩
    simp only [hrs]
    rfl

/-- Registering inputs changes no file. -/
theorem registerAll_files (inputs : List InputSettings) (index : Nat) (w : World) :
    (registerAll base env index inputs w).2.files = w.files := by
  induction inputs generalizing index w with
  | nil => rfl
  | cons first rest ih =>
    have hfiles := first.register_files base env index w
    rw [registerAll_cons]
    split
    · rename_i h
      rwa [h] at hfiles
    · rename_i h
      rw [h] at hfiles
      exact (ih _ _).trans hfiles

end InputSettings

/-! ### The project -/

namespace Project

variable {language : Language} {useModules : Bool} {rs : List (Registration World)}

/-- **Locations that the language allows make a project.** -/
theorem ofLocations_eq_ok
    (h : rs.any Registration.isModular = true → language.supportsModules = true) :
    ofLocations language rs useModules =
      .ok { language, locations := rs.map (·.location),
            moduleAware := useModules || rs.any Registration.isModular } := by
  rcases hfind : rs.find? Registration.isModular with _ | r
  · have hany : rs.any Registration.isModular = false := by
      simpa using List.find?_eq_none.mp hfind
    rw [hany, Bool.or_false]
    simp only [ofLocations, hfind]
  · have hany : rs.any Registration.isModular = true :=
      List.any_eq_true.mpr ⟨r, List.mem_of_find?_eq_some hfind, List.find?_some hfind⟩
    rw [hany, Bool.or_true]
    simp only [ofLocations, hfind, h hany, if_true]

/-- **The first location with modules is an error** in a language without them. -/
theorem ofLocations_eq_error {r : Registration World}
    (hfind : rs.find? Registration.isModular = some r)
    (hlanguage : language.supportsModules = false) :
    ofLocations language rs useModules =
      .error (.modulesUnsupported r.location.description language) := by
  simp only [ofLocations, hfind, hlanguage, Bool.false_eq_true, if_false]

end Project

section Registered

variable {inputs : List InputSettings} {rs : List (Registration World)}

/-- There is a location with modules exactly if there is an input with modules. -/
theorem any_isModular (h : List.Forall₂ (InputSettings.RegisteredAs base files) inputs rs) :
    rs.any Registration.isModular = inputs.any InputSettings.isModular := by
  induction h with
  | nil => rfl
  | cons hregistered _ ih => rw [List.any_cons, List.any_cons, hregistered.isModular_eq, ih]

/-- The first location with modules is that of the first input with modules. -/
theorem exists_find?_isModular {i : InputSettings}
    (h : List.Forall₂ (InputSettings.RegisteredAs base files) inputs rs)
    (hi : inputs.find? InputSettings.isModular = some i) :
    ∃ r, rs.find? Registration.isModular = some r ∧ i.RegisteredAs base files r := by
  induction h with
  | nil => cases hi
  | @cons j r inputs rs hregistered _ ih =>
    rw [List.find?_cons, hregistered.isModular_eq]
    rw [List.find?_cons] at hi
    rcases hmodular : j.isModular with _ | _ <;> rw [hmodular] at hi
    · exact ih hi
    · obtain rfl := Option.some.inj hi
      exact ⟨r, rfl, hregistered⟩

theorem sourceTypes_of_shows {ls : List (Location World)}
    (h : List.Forall₂ (InputSettings.Shows base) inputs ls) :
    ls.map (·.sourceType) = inputs.map (·.sourceType.getD .application) := by
  induction h with
  | nil => rfl
  | cons hshows _ ih => rw [List.map_cons, List.map_cons, hshows.sourceType, ih]

theorem descriptions_of_shows {ls : List (Location World)} {paths : List Path}
    (h : List.Forall₂ (InputSettings.Shows base) inputs ls)
    (hat : List.Forall₂ (InputSettings.At base) inputs paths) :
    ls.map (·.description) = List.zipWith (fun i p => i.label ++ p.text) inputs paths := by
  induction h generalizing paths with
  | nil =>
    cases hat
    rfl
  | cons hshows _ ih =>
    obtain ⟨p, paths, hp, hpaths, rfl⟩ := List.forall₂_cons_left_iff.mp hat
    rw [List.map_cons, List.zipWith_cons_cons, hshows.description_eq hp, ih hpaths]

end Registered

namespace Settings

/-- **The project of settings.** Where no platform is installed, the first input with a flaw is what
is reported. If no input has one, then the first input that holds modules is reported if the
language has none. Otherwise there is a project; its locations are those of the inputs, in their
order, each with the source type and the path of its input, and it names modules if it is told to or
if an input holds modules. No file is changed in any case. -/
theorem project_of_inputs (s : Settings) (hplatform : Jdk.discover? w.files env = none) :
    (s.project env w).2.files = w.files ∧
      (∀ index (i : InputSettings) e, s.inputs[index]? = some i →
        i.Flaw s.base w.files index e →
          (∀ k < index, ∀ j : InputSettings, s.inputs[k]? = some j → j.Sound s.base w.files) →
            (s.project env w).1 = .error e) ∧
      ((∀ i ∈ s.inputs, i.Sound s.base w.files) →
        (s.language.language.supportsModules = false →
          ∀ (i : InputSettings) root, s.inputs.find? InputSettings.isModular = some i →
            i.At s.base root →
              (s.project env w).1 = .error (.project
                (.modulesUnsupported ("module fs " ++ root.text) s.language.language))) ∧
        ((∀ i ∈ s.inputs, i.isModular = true → s.language.language.supportsModules = true) →
          ∃ p, (s.project env w).1 = .ok p ∧ p.language = s.language.language ∧
            List.Forall₂ (InputSettings.Located s.base w.files) s.inputs p.locations ∧
            List.Forall₂ (InputSettings.Shows s.base) s.inputs p.locations ∧
            (p.moduleAware = true ↔
              s.language.modules = true ∨ ∃ i ∈ s.inputs, i.isModular = true))) := by
  have hproject : s.project env w =
      ((InputSettings.registerAll s.base env 0 s.inputs w).1.bind fun rs =>
        (Project.ofLocations s.language.language rs s.language.modules).mapError .project,
        (InputSettings.registerAll s.base env 0 s.inputs w).2) := rfl
  rw [hproject]
  refine ⟨InputSettings.registerAll_files _ _ _, fun index i e hi hflaw hbefore => ?_,
    fun hsound => ?_⟩
  · rw [InputSettings.registerAll_of_flaw hplatform hi (by rwa [Nat.zero_add]) hbefore]
    rfl
  obtain ⟨rs, hrs, hall⟩ := InputSettings.registerAll_of_sound env 0 hsound
  have hany := any_isModular hall
  rw [hrs]
  constructor
  · intro hlanguage i root hfind hat
    obtain ⟨r, hr, hregistered⟩ := exists_find?_isModular hall hfind
    rw [Except.bind, Project.ofLocations_eq_error hr hlanguage,
      hregistered.1.shows.description_eq hat, i.label_of_isModular (List.find?_some hfind)]
    rfl
  · intro hlanguage
    have hmodular : rs.any Registration.isModular = true →
        s.language.language.supportsModules = true := by
      rw [hany, List.any_eq_true]
      rintro ⟨i, hi, hmodular⟩
      exact hlanguage i hi hmodular
    refine ⟨_, by rw [Except.bind, Project.ofLocations_eq_ok hmodular]; rfl, rfl, ?_, ?_, ?_⟩
    · exact List.forall₂_map_right_iff.mpr (hall.imp fun _ _ h => h.1)
    · exact List.forall₂_map_right_iff.mpr (hall.imp fun _ _ h => h.1.shows)
    · rw [hany, Bool.or_eq_true, List.any_eq_true]

/-! ### Three projects of one image -/

/-- A base directory with a module image. -/
def imageBelow : World where
  files := { nodes := [(["b"], .directory), (["b", "m"], .directory),
    (["b", "m", "modules"], .directory)] }

namespace imageBelow

/-- An archive that is not looked at, the image, and an input whose flaw is reported. -/
def flawed : Settings where
  inputs := [{ kind := .archive, path := some ⟨"a.jar"⟩ }, { kind := .modules, path := some ⟨"m"⟩ },
    { kind := .packedModules, path := some ⟨"/x"⟩ }, { kind := .classDirectory }]
  base := some ⟨"b"⟩

/-- The image behind an archive, in a language without modules. -/
def outdated : Settings where
  inputs := flawed.inputs.take 2
  base := some ⟨"b"⟩

/-- The image between an archive and a directory of classes from elsewhere, in a language with
modules. -/
def modern : Settings where
  inputs := outdated.inputs ++
    [{ kind := .classDirectory, path := some ⟨"c"⟩, sourceType := some .library }]
  base := some ⟨"b"⟩
  language := { version := 11 }

theorem flaw_closed : ({ kind := .packedModules, path := some ⟨"/x"⟩ } : InputSettings).Flaw
    (some ⟨"b"⟩) imageBelow.files 2 (.location "inputs[2]" (.noModules ⟨"/x"⟩)) := by
  refine .closed (.inr rfl) (.absolute rfl (by decide)) ?_
  have hnone : ∀ p ∈ [(⟨"modules"⟩ : Path), ⟨"jmods"⟩],
      imageBelow.files.isDirectory ((⟨"/x"⟩ : Path).join p) = false := by
    intro p hp
    obtain ⟨inner, hlocate, hfollowed⟩ : ∃ inner,
        imageBelow.files.locate .target ((⟨"/x"⟩ : Path).join p) =
          imageBelow.files.locateFrom .target FileTree.maxLinks [] inner ∧
        imageBelow.files.followed? 1 FileTree.maxLinks [] inner = some (.error .notFound) := by
      rcases List.mem_pair.mp hp with rfl | rfl
      · exact ⟨["x", "modules"], FileTree.locate_of_absolute (by decide) (by decide) (by decide)
          (by decide) (by decide), by decide⟩
      · exact ⟨["x", "jmods"], FileTree.locate_of_absolute (by decide) (by decide) (by decide)
          (by decide) (by decide), by decide⟩
    rw [FileTree.isDirectory, FileTree.target?, hlocate, FileTree.locateFrom_of_followed? hfollowed]
    rfl
  rintro (h | h)
  · rw [hnone _ (by simp)] at h
    cases h
  · rw [hnone _ (by simp)] at h
    cases h

theorem wellFormed : imageBelow.files.WellFormed where
  distinct := by decide
  nonempty := by decide
  named := by decide
  directory := by decide

theorem holdsModules : imageBelow.files.HoldsModules ⟨"b/m"⟩ := by
  have hmem : (FileTree.names ((⟨"b/m"⟩ : Path).join ⟨"modules"⟩), Node.directory) ∈
      imageBelow.files.nodes := by
    decide
  left
  rw [FileTree.isDirectory, wellFormed.target?_eq hmem (by simp) (by decide)]
  rfl

theorem at_image : InputSettings.At (some ⟨"b"⟩) { kind := .modules, path := some ⟨"m"⟩ } ⟨"b/m"⟩ :=
  .relative (p := ⟨"m"⟩) rfl (by decide) rfl

theorem sound_outdated : ∀ i ∈ outdated.inputs, i.Sound (some ⟨"b"⟩) imageBelow.files := by
  intro i hi index e hflaw
  have hi : i = { kind := .archive, path := some ⟨"a.jar"⟩ } ∨
      i = { kind := .modules, path := some ⟨"m"⟩ } := by
    simpa [outdated, flawed] using hi
  rcases hi with rfl | rfl
  · rcases hflaw with ⟨-, h⟩ | ⟨h, -⟩ | ⟨h, -⟩ | ⟨h | h, -⟩ <;> cases h
  · rcases hflaw with ⟨-, h⟩ | ⟨h, -⟩ | ⟨h, -⟩ | ⟨-, hat, hclosed⟩
    · cases h
    · cases h
    · cases h
    · have heq := (InputSettings.at_iff.mp hat).symm.trans (InputSettings.at_iff.mp at_image)
      rw [Option.some.inj heq] at hclosed
      exact hclosed holdsModules

theorem sound_modern : ∀ i ∈ modern.inputs, i.Sound (some ⟨"b"⟩) imageBelow.files := by
  intro i hi
  rcases List.mem_append.mp hi with hi | hi
  · exact sound_outdated i hi
  · obtain rfl := List.mem_singleton.mp hi
    rintro index e (⟨-, h⟩ | ⟨h, -⟩ | ⟨h, -⟩ | ⟨h | h, -⟩) <;> cases h

/-- Where the inputs are. -/
theorem at_modern : List.Forall₂ (InputSettings.At (some ⟨"b"⟩)) modern.inputs
    [⟨"b/a.jar"⟩, ⟨"b/m"⟩, ⟨"b/c"⟩] := by
  refine .cons (.relative (p := ⟨"a.jar"⟩) rfl (by decide) rfl) (.cons at_image (.cons ?_ .nil))
  exact .relative (p := ⟨"c"⟩) rfl (by decide) rfl

end imageBelow

open imageBelow in
theorem project_of_inputs_imageBelow :
    (flawed.project {} imageBelow).1 = .error (.location "inputs[2]" (.noModules ⟨"/x"⟩)) ∧
      (outdated.project {} imageBelow).1 =
        .error (.project (.modulesUnsupported "module fs b/m" (.java 8))) ∧
      ∃ p, (modern.project {} imageBelow).1 = .ok p ∧
        p.locations.map (·.sourceType) = [.application, .application, .library] ∧
        p.locations.map (·.description) = ["archive b/a.jar", "module fs b/m", "class dir b/c"] ∧
        p.moduleAware = true := by
  have hplatform : Jdk.discover? imageBelow.files {} = none := rfl
  obtain ⟨-, hflawed, -⟩ := flawed.project_of_inputs hplatform
  obtain ⟨-, -, houtdated⟩ := outdated.project_of_inputs hplatform
  obtain ⟨-, -, hmodern⟩ := modern.project_of_inputs hplatform
  refine ⟨hflawed 2 _ _ rfl flaw_closed fun k hk j hj => ?_,
    (houtdated sound_outdated).1 rfl _ _ rfl at_image, ?_⟩
  · refine sound_outdated j (List.mem_of_getElem? (i := k) ?_)
    rwa [outdated, List.getElem?_take_of_lt hk]
  · obtain ⟨p, hp, -, -, hshows, haware⟩ := (hmodern sound_modern).2 fun _ _ _ => rfl
    refine ⟨p, hp, ?_, ?_,
      haware.mpr (.inr ⟨{ kind := .modules, path := some ⟨"m"⟩ }, by decide, rfl⟩)⟩
    · rw [sourceTypes_of_shows hshows]
      rfl
    · rw [descriptions_of_shows hshows at_modern]
      decide

end Settings

end Classpath

import Classpath.Project
import Classpath.Settings.Loading
import Classpath.Store.ClassArchive
import Classpath.Store.Jdk
import Classpath.Store.ModuleImage

/-!
# The project of settings

Settings say where the classes of a project are. Its locations are made in the order of the inputs,
and module images are opened on the way, so that a bad one is reported before there is a project.

* `Classpath.Settings.project` – the project.
* `Classpath.Settings.policy` – how much its views keep.
-/

namespace Classpath

/-- How errors name the input of an index. -/
def inputPlace (index : Nat) : String :=
  "inputs[" ++ toString index ++ "]"

/-- The modules of the installed platform. -/
def ModuleImage.openSystem (env : Jdk.Environment) (w : World) :
    Except LocationError ModuleImage × World :=
  match Jdk.discover? w.files env with
  | some root => ModuleImage.open root w
  | none => (.error .noSystemModules, w)

namespace InputSettings

/-- A module image as a registered location. -/
def registerImage (index : Nat) (sourceType : SourceType)
    (opened : Except LocationError ModuleImage × World) :
    Except SettingsError (Registration World) × World :=
  let (image, w) := opened
  match image with
  | .ok i => (.ok { location := .ofImage i .classFile sourceType, asModules := true }, w)
  | .error e => (.error (.location (inputPlace index) e), w)

/-- An input with a path as a registered location. -/
def registerAt (i : InputSettings) (index : Nat) (path : Path) (w : World) :
    Except SettingsError (Registration World) × World :=
  let sourceType := i.sourceType.getD .application
  match i.kind with
  | .classDirectory => (.ok { location := .ofDirectory path .classFile sourceType }, w)
  | .textDirectory => (.ok { location := .ofDirectory path .textClass sourceType }, w)
  | .archive =>
    let (a, w) := Archive.ofPath path w
    (.ok { location := .ofArchive a .classFile sourceType }, w)
  | .modules | .packedModules | .systemModules =>
    registerImage index sourceType (ModuleImage.open path w)

/-- The input of an index as a registered location. The modules of the platform are found without a
path; all other inputs need one. -/
def register (i : InputSettings) (base : Option Path) (env : Jdk.Environment) (index : Nat)
    (w : World) : Except SettingsError (Registration World) × World :=
  let refuse (complaint : String) : Except SettingsError (Registration World) × World :=
    (.error (.invalid (inputPlace index ++ ".path") complaint), w)
  match i.kind, i.path? base with
  | .systemModules, some _ => refuse "system_modules is discovered and takes no path"
  | .systemModules, none =>
    registerImage index (i.sourceType.getD .library) (ModuleImage.openSystem env w)
  | _, some path => i.registerAt index path w
  | _, none => refuse "this input kind needs a path"

/-- Inputs as registered locations, in order; the first one that fails ends it. -/
def registerAll (base : Option Path) (env : Jdk.Environment) :
    Nat → List InputSettings → World → Except SettingsError (List (Registration World)) × World
  | _, [], w => (.ok [], w)
  | index, i :: rest, w =>
    match i.register base env index w with
    | (.error e, w) => (.error e, w)
    | (.ok first, w) =>
      let (others, w) := registerAll base env (index + 1) rest w
      (others.map (first :: ·), w)

end InputSettings

namespace Settings

/-- The project of settings. -/
def project (s : Settings) (env : Jdk.Environment) (w : World) :
    Except SettingsError (Project World) × World :=
  let (registered, w) := InputSettings.registerAll s.base env 0 s.inputs w
  (registered.bind fun rs =>
    (Project.ofLocations s.language.language rs s.language.modules).mapError .project, w)

/-- How much the views of the project keep. -/
def policy (s : Settings) : Except SettingsError CachePolicy :=
  match s.cache.policy? with
  | some policy => .ok policy
  | none => .error (.invalid "cache.capacity" "lru cache needs a capacity of at least 1")

end Settings

end Classpath

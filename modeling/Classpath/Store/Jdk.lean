import Classpath.Store.FileTree
import Classpath.Store.Script.Basic

/-!
# Finding a JDK

Where the modules of the platform are, as far as the environment tells: a directory that is named
outright, or the one to which the launcher on the search path belongs. A directory is accepted if it
has module data, or else if its parent has, because older installations name a subdirectory.

* `Classpath.Jdk.rootOf?` – the installation that a directory belongs to.
* `Classpath.Jdk.discover?` – the installation that the environment leads to.
-/

namespace Classpath.Jdk

/-- What the environment says. -/
structure Environment where
  /-- The directory that is named as the installation. -/
  home : Option String := none
  /-- The directories in which commands are searched, with colons between them. -/
  searchPath : Option String := none
  deriving DecidableEq, Repr, Inhabited

/-- Whether a directory has modules, in either layout. -/
def hasModuleData (files : FileTree) (dir : Path) : Bool :=
  files.isDirectory (dir.join ⟨"jmods"⟩) || files.isDirectory (dir.join ⟨"modules"⟩)

/-- The installation that a directory belongs to: itself or its parent. -/
def rootOf? (files : FileTree) (dir : Path) : Option Path :=
  if hasModuleData files dir then some dir
  else
    let parent := dir.parent?.getD dir
    if hasModuleData files parent then some parent else none

/-- Where the launcher may be, in the order of search. -/
def launchers (env : Environment) : List Path :=
  match env.searchPath with
  | none => []
  | some dirs => (dirs.toList.splitOn ':').map fun dir => Path.join ⟨String.ofList dir⟩ ⟨"java"⟩

/-- What comes of running what a path leads to. -/
inductive Attempt where
  /-- Nothing can be run there, and the search goes on. -/
  | missing
  /-- Something is there that cannot be run, and the search ends. -/
  | failed
  /-- A script is there. -/
  | script (text : List Char)

/-- What comes of running the contents of a file. They must name the shell that reads them. -/
def runContents (contents : Bytes) : Attempt :=
  match contents.map fun b => Char.ofNat b.toNat with
  | '#' :: '!' :: text =>
    match ((text.takeWhile (· ≠ '\n')).splitOnP fun c => c = ' ' || c = '\t').find? (· ≠ []) with
    | none => .failed
    | some shell => if shell = "/bin/sh".toList then .script text else .missing
  | _ => .failed

/-- What comes of running what a path leads to. -/
def attempt (files : FileTree) (p : Path) : Attempt :=
  match files.locate .target p with
  | .error .notFound | .error .notADirectory => .missing
  | .error _ => .failed
  | .ok key =>
    match files.node? key with
    | some (.file contents true) => runContents contents.bytes
    | _ => .missing

/-- The script that is run for the launcher, and the path under which it was found. -/
def launched? (files : FileTree) : List Path → Option (Path × List Char)
  | [] => none
  | p :: rest =>
    match attempt files p with
    | .missing => launched? files rest
    | .failed => none
    | .script text => some (p, text)

/-- The arguments that make the launcher list its properties. -/
def listProperties : List String := ["-XshowSettings:properties", "-version"]

/-- The variables of the shell that runs the launcher. -/
def shellVariables (env : Environment) : List (String × String) :=
  (env.home.map ("JAVA_HOME", ·)).toList ++ (env.searchPath.map ("PATH", ·)).toList

/-- The value of the property `java.home` in a listing of properties. -/
def homeProperty? (listing : List Char) : Option (List Char) :=
  (lines listing).findSome? fun line => do
    let (key, value) ← cutAt? '=' (trim line)
    if trim key = "java.home".toList then some (trim value) else none

/-- The installation that the launcher reports when it is run. -/
def reportedRoot? (files : FileTree) (env : Environment) : Option Path := do
  let (path, text) ← launched? files (launchers env)
  let out := Script.run ⟨path.text :: listProperties, shellVariables env⟩ text
  let home ← homeProperty? (Utf8.decodeLossy out.standard ++ Utf8.decodeLossy out.error)
  rootOf? files ⟨String.ofList home⟩

/-- The installation whose launcher is on the search path, links followed. The launcher is in a
subdirectory of the installation. -/
def linkedRoot? (files : FileTree) (env : Environment) : Option Path := do
  let launcher ← (launchers env).find? files.isFile
  let real ← (files.canonical launcher).toOption
  rootOf? files (← (← real.parent?).parent?)

/-- The installation that the environment leads to: the one that is named, the one that the launcher
reports, or the one that the launcher is part of. -/
def discover? (files : FileTree) (env : Environment) : Option Path :=
  ((env.home.bind fun home => rootOf? files ⟨home⟩).or (reportedRoot? files env)).or
    (linkedRoot? files env)

end Classpath.Jdk

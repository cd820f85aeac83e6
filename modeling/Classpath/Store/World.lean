import Classpath.NameMap
import Classpath.Store.FileTree
import Classpath.Store.Zip

/-!
# The world that stores live in

The state that stores read and change: the file tree, the archives that were opened, and what the
stores in memory were asked. An archive is opened when it is first needed and read from what was
opened from then on, whatever becomes of its file. What was opened is the directory; an entry is
looked at when it is asked for.

* `Classpath.Archive.opened` – the directory of an archive, opened if need be.
* `Classpath.Archive.contains`, `Classpath.Archive.read`, `Classpath.Archive.names` – its entries.
-/

namespace Classpath

/-- A file in an archive: contents, or where they are found. -/
inductive ArchivedFile where
  | plain (bytes : Bytes)
  | packed (member : Zip.Member)
  deriving DecidableEq, Repr

namespace ArchivedFile

/-- The attempt to get at the data of a file. -/
def reach : ArchivedFile → Except Zip.Fault Unit
  | plain _ => .ok ()
  | packed member => member.stored.map fun _ => ()

/-- The contents of a file. -/
def contents : ArchivedFile → Except Zip.Fault Bytes
  | plain bytes => .ok bytes
  | packed member => member.contents

end ArchivedFile

/-- The entries of an opened archive, each name once and in order. -/
structure ArchiveDirectory where
  entries : List (String × ArchivedFile)
  deriving DecidableEq, Repr

/-- How often a store in memory was used. -/
structure Tally where
  /-- How often each class was built, in the order of first builds. -/
  builds : List (ClassType × Nat) := []
  scans : Nat := 0
  lookups : Nat := 0
  deriving Repr, Inhabited

/-- The state of all stores. -/
structure World where
  files : FileTree := {}
  /-- The opened archives by number. -/
  opened : List (Nat × ArchiveDirectory) := []
  /-- How many archives there are, opened or not. -/
  archives : Nat := 0
  /-- The uses of the stores in memory, by number. -/
  tallies : List Tally := []
  deriving Repr

namespace ArchiveDirectory

/-- The directory of entries in the order in which they are stored; of two of one name the later
counts. -/
def ofEntries (entries : List (String × ArchivedFile)) : ArchiveDirectory :=
  ⟨NameMap.ofList entries⟩

/-- The names of the entries, in order. -/
def names (d : ArchiveDirectory) : List String :=
  d.entries.map Prod.fst

/-- The entry of a name. -/
def find? (d : ArchiveDirectory) (name : String) : Option ArchivedFile :=
  d.entries.lookup name

/-- Whether an entry of a name stands for a directory. -/
def isDirectoryName (name : String) : Bool :=
  match name.toList.getLast? with
  | some c => c = '/' || c = '\\'
  | none => false

end ArchiveDirectory

/-- An archive file, opened on first use. -/
structure Archive where
  path : Path
  /-- The number by which the world knows the archive. -/
  id : Nat
  deriving DecidableEq, Repr

namespace Archive

/-- An archive that is not opened yet. -/
def ofPath (p : Path) (w : World) : Archive × World :=
  (⟨p, w.archives⟩, { w with archives := w.archives + 1 })

/-- The failure of an archive whose bytes are at fault. -/
def failure (path : Path) : Zip.Fault → LocationError
  | .file fault => .file path fault
  | fault => .archive path fault.message

/-- The directory of an archive file. -/
def directory (path : Path) (files : FileTree) : Except LocationError ArchiveDirectory :=
  match files.read path with
  | .error fault => .error (.file path fault)
  | .ok (.archive entries) => .ok (.ofEntries (entries.map fun (name, bytes) => (name, .plain bytes)))
  | .ok (.plain bytes) =>
    ((Zip.members bytes).map fun members =>
      .ofEntries (members.map fun (name, member) => (name, .packed member))).mapError (failure path)

/-- The directory of the archive. A failure to open it is not remembered. -/
def opened (a : Archive) (w : World) : Except LocationError ArchiveDirectory × World :=
  match w.opened.lookup a.id with
  | some d => (.ok d, w)
  | none =>
    match directory a.path w.files with
    | .ok d => (.ok d, { w with opened := (a.id, d) :: w.opened })
    | .error e => (.error e, w)

/-- What an archive answers, opened if need be. -/
def ask {α : Type} (f : ArchiveDirectory → Except Zip.Fault α) (a : Archive) (w : World) :
    Except LocationError α × World :=
  let (d, w) := a.opened w
  (d.bind fun d => (f d).mapError (failure a.path), w)

/-- Whether the archive holds a file of a name. An entry that there is must be within reach. -/
def contains (a : Archive) (name : String) : World → Except LocationError Bool × World :=
  a.ask fun d =>
    match d.find? name with
    | none => .ok false
    | some file => file.reach.map fun _ => !ArchiveDirectory.isDirectoryName name

/-- The contents of an entry. -/
def read (a : Archive) (name : String) : World → Except LocationError (Option Bytes) × World :=
  a.ask fun d =>
    match d.find? name with
    | none => .ok none
    | some file => file.contents.map some

/-- The names of all entries, in order. -/
def names (a : Archive) : World → Except LocationError (List String) × World :=
  a.ask fun d => .ok d.names

end Archive

end Classpath

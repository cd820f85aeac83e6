import Classpath.ClassType

/-!
# Paths as written

A path is kept as the text in which it was written, because that text is shown to the reader of an
error or of a class's origin. Its structure is read off the text when needed: segments between
slashes, of which empty ones and inner `.` segments name nothing.

* `Classpath.Path.components` – what the segments of a path name.
* `Classpath.Path.parent?`, `Classpath.Path.fileName?`, `Classpath.Path.join` – lexical operations,
  which never look at a file.
* `Classpath.Naming.ofPath?` – the class that a stored file holds, if it holds one.
-/

namespace Classpath

/-- A path, as the text in which it was written. -/
structure Path where
  text : String
  deriving DecidableEq, Repr, Inhabited

namespace Path

/-- What one step of a path names. -/
inductive Component where
  /-- The root of the file system. -/
  | root
  /-- A leading `.`. -/
  | current
  /-- `..`. -/
  | parent
  /-- A named entry. -/
  | entry (name : List Char)
  deriving DecidableEq, Repr

/-- The pieces between slashes. -/
def segments (p : Path) : List (List Char) :=
  p.text.toList.splitOn '/'

/-- The path whose pieces are given. -/
def ofSegments (pieces : List (List Char)) : Path :=
  ⟨String.ofList (['/'].intercalate pieces)⟩

/-- Whether a piece that is not the first one names nothing. -/
def isVoid (piece : List Char) : Bool :=
  piece.isEmpty || piece = ['.']

/-- What a piece names that is not the first one. -/
def component? (piece : List Char) : Option Component :=
  if isVoid piece then none
  else if piece = ['.', '.'] then some .parent
  else some (.entry piece)

/-- What the pieces of a path name, in order. -/
def components (p : Path) : List Component :=
  match p.segments with
  | [] => []
  | first :: rest =>
    let start :=
      if first.isEmpty then (if rest.isEmpty then [] else [.root])
      else if first = ['.'] then [.current]
      else (component? first).toList
    start ++ rest.filterMap component?

/-- Whether the path starts at the root. -/
def isAbsolute (p : Path) : Bool :=
  p.text.toList.head? = some '/'

/-- `p` followed by `q`; an absolute `q` replaces `p`. -/
def join (p q : Path) : Path :=
  if q.isAbsolute then q
  else
    match p.text.toList.getLast? with
    | none => q
    | some '/' => ⟨p.text ++ q.text⟩
    | some _ => ⟨p.text ++ "/" ++ q.text⟩

/-- Pieces without the trailing ones that name nothing. -/
def dropVoid (pieces : List (List Char)) : List (List Char) :=
  (pieces.reverse.dropWhile isVoid).reverse

/-- The pieces before the last one that names something, and that one. The first piece of a path
always counts, so that `.` and the root are pieces of their own. -/
def splitLast? (p : Path) : Option (List (List Char) × List Char) :=
  match p.segments with
  | [] => none
  | first :: rest =>
    let rest := dropVoid rest
    match rest.getLast? with
    | some last => some (first :: dropVoid rest.dropLast, last)
    | none => if first.isEmpty then none else some ([], first)

/-- The path without its last component; none for the root and the empty path. -/
def parent? (p : Path) : Option Path :=
  p.splitLast?.map fun (before, _) =>
    if before = [[]] then ⟨"/"⟩ else ofSegments before

/-- The last component, if it is a named entry. -/
def fileName? (p : Path) : Option (List Char) :=
  match p.splitLast? with
  | none => none
  | some (before, last) =>
    if last = ['.', '.'] || (before.isEmpty && last = ['.']) then none else some last

/-- A file name cut at its last dot; a name whose only dot leads it has no extension. -/
def splitExtension (name : List Char) : List Char × Option (List Char) :=
  match cutAtLast? '.' name with
  | some (stem, extension) => if stem.isEmpty then (name, none) else (stem, some extension)
  | none => (name, none)

/-- The file name without its extension. -/
def stem? (p : Path) : Option (List Char) :=
  p.fileName?.map fun name => (splitExtension name).1

/-- What follows the last dot of the file name. -/
def extension? (p : Path) : Option (List Char) :=
  p.fileName?.bind fun name => (splitExtension name).2

/-- The path with the extension of its file name taken off. -/
def withoutExtension (p : Path) : Path :=
  match p.fileName? with
  | none => p
  | some name =>
    -- What stands before the file name stays as written.
    let before := (p.segments.reverse.dropWhile (· != name)).drop 1
    ofSegments (before.reverse ++ [(splitExtension name).1])

instance : ToString Path := ⟨Path.text⟩

end Path

namespace Naming

/-- The class stored in the file at a path relative to the root of its store. Files with another
extension hold none. -/
def ofPath? (ids : Naming) (relative : Path) (extension : String) (m : Option ModuleName) :
    Option ClassType :=
  if relative.extension? = some extension.toList then
    let names := relative.withoutExtension.components.filterMap fun
      | .entry name => some name
      | _ => none
    ids.ofEntryName? (String.ofList (['.'].intercalate names)) m
  else none

end Naming

end Classpath

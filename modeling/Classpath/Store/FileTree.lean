import Classpath.ClassFile.Reader
import Classpath.Failure

/-!
# File trees

The files that a project reads, as a value. A tree maps keys – the names on the way from the working
directory – to files, directories and symbolic links; what is above the working directory does not
exist for it. Every directory on the way to an entry is an entry itself, and no key leads through a
link, so the entries below a directory are those whose keys extend its key.

A path is followed name by name: `..` leaves the directory that was reached, which need not be the
one that was written, and links are replaced by their targets.

* `Classpath.FileTree.locate` – the key that a path leads to.
* `Classpath.FileTree.read`, `Classpath.FileTree.entryNames`, `Classpath.FileTree.walk` – files,
  directories and whole subtrees.
* `Classpath.FileTree.put`, `Classpath.FileTree.remove` – changes.
-/

namespace Classpath

/-- The contents of a file. Archives are kept as what they hold: names and contents in order. -/
inductive Contents where
  | plain (bytes : Bytes)
  | archive (entries : List (String × Bytes))
  deriving DecidableEq, Repr

namespace Contents

/-- An archive into which things are put under names. What a name with a slash at its end stands for
is a directory and has no contents. -/
def ofEntries (entries : List (String × Bytes)) : Contents :=
  .archive (entries.map fun (name, bytes) =>
    (name, if name.toList.getLast? = some '/' then [] else bytes))

/-- The bytes of a file. Of an archive only the signature matters that it starts with, unless it is
empty. -/
def bytes : Contents → Bytes
  | plain bytes => bytes
  | archive [] => [0x50, 0x4B, 0x05, 0x06] ++ List.replicate 18 0
  | archive (_ :: _) => [0x50, 0x4B, 0x03, 0x04]

end Contents

/-- An entry of a file tree. -/
inductive Node where
  | file (contents : Contents) (executable : Bool := false)
  | directory
  | link (target : Path)
  deriving DecidableEq, Repr

/-- An entry that is written over one that may be there. A file that can be run stays one. -/
def Node.over (old : Option Node) (new : Node) : Node :=
  match old, new with
  | some (.file _ true), .file contents _ => .file contents true
  | _, _ => new

/-- The names on the way to an entry. -/
abbrev Key := List String

namespace Key

/-- Keys are ordered name by name, a directory before what it holds. -/
def compare : Key → Key → Ordering
  | [], [] => .eq
  | [], _ :: _ => .lt
  | _ :: _, [] => .gt
  | a :: as, b :: bs => (Ord.compare a b).then (compare as bs)

/-- `a` does not come after `b`. -/
def le (a b : Key) : Bool :=
  (compare a b).isLE

end Key

/-- Entries by key, and the absolute path of the working directory. -/
structure FileTree where
  nodes : List (Key × Node) := []
  mount : Path := ⟨"/"⟩
  deriving Repr

namespace FileTree

/-! ### Following paths -/

/-- The entry of a key. The empty key is the working directory. -/
def node? (t : FileTree) (key : Key) : Option Node :=
  if key.isEmpty then some .directory else t.nodes.lookup key

/-- The names of a path, with `.` and empty ones. -/
def names (p : Path) : List String :=
  p.segments.map String.ofList

/-- The names of an absolute path after those of the working directory, if it starts with them. -/
def inMount? (t : FileTree) (p : Path) : Option (List String) :=
  ((names t.mount).filter (· ≠ "")).isPrefixOf? ((names p).filter (· ≠ ""))

/-- What the last name of a path stands for. -/
inductive LastName where
  /-- The entry of this name, even if it is a link. -/
  | entry
  /-- What is there when links are followed. -/
  | target
  /-- What is there when links are followed, or would be there if it existed. -/
  | targetToBe
  deriving DecidableEq, Repr

/-- The number of bytes that a name may have. -/
def maxName : Nat := 255

/-- The number of bytes that a path may have. -/
def maxPath : Nat := 4095

/-- The key that names lead to from the directory `cur`; at most `links` links are followed. -/
def locateFrom (t : FileTree) (last : LastName) (links : Nat) (cur : Key) :
    List String → Except FileFault Key
  | [] => .ok cur
  | name :: rest =>
    if t.node? cur ≠ some .directory then .error .notADirectory
    else if name = "" ∨ name = "." then locateFrom t last links cur rest
    else if name = ".." then
      if cur.isEmpty then .error .notFound else locateFrom t last links cur.dropLast rest
    else if name.utf8ByteSize > maxName then .error .nameTooLong
    else
      let key := cur ++ [name]
      match t.node? key with
      | none => if rest.isEmpty && last = .targetToBe then .ok key else .error .notFound
      | some (.link target) =>
        if rest.isEmpty && last = .entry then .ok key
        else
          match links with
          | 0 => .error .tooManyLinks
          | links + 1 =>
            if target.isAbsolute then
              match t.inMount? target with
              | some inner => locateFrom t last links [] (inner ++ rest)
              | none => .error .notFound
            else locateFrom t last links cur (names target ++ rest)
      | some _ => locateFrom t last links key rest
termination_by todo => (links, todo.length)

/-- The number of links that a path may lead through. -/
def maxLinks : Nat := 40

/-- The key that a path leads to. -/
def locate (t : FileTree) (last : LastName) (p : Path) : Except FileFault Key :=
  if p.text.contains '\x00' then .error .nulInPath
  else if p.text.isEmpty then .error .notFound
  else if p.text.utf8ByteSize > maxPath then .error .nameTooLong
  else if p.isAbsolute then
    match t.inMount? p with
    | some inner => locateFrom t last maxLinks [] inner
    | none => .error .notFound
  else locateFrom t last maxLinks [] (names p)

/-- The entry that a path leads to, which is no link. -/
def target? (t : FileTree) (p : Path) : Option Node :=
  match t.locate .target p with
  | .ok key => t.node? key
  | .error _ => none

/-- Whether a path leads to a file. -/
def isFile (t : FileTree) (p : Path) : Bool :=
  match t.target? p with
  | some (.file ..) => true
  | _ => false

/-- Whether a path leads to a directory. -/
def isDirectory (t : FileTree) (p : Path) : Bool :=
  t.target? p = some .directory

/-! ### Reading -/

/-- The contents of the file that a path leads to. -/
def read (t : FileTree) (p : Path) : Except FileFault Contents := do
  match t.node? (← t.locate .target p) with
  | some (.file contents _) => .ok contents
  | some .directory => .error .isADirectory
  | _ => .error .notFound

/-- The entries in the directory of a key, by name. -/
def childrenOf (t : FileTree) (dir : Key) : List (String × Node) :=
  t.nodes.filterMap fun (key, node) =>
    match dir.isPrefixOf? key with
    | some [name] => some (name, node)
    | _ => none

/-- The entries of the directory that a path leads to. -/
def entryNames (t : FileTree) (p : Path) : Except FileFault (List (String × Node)) := do
  let key ← t.locate .target p
  match t.node? key with
  | some .directory => .ok (t.childrenOf key)
  | _ => .error .notADirectory

/-- The files below the directory of a key, by their keys relative to it, in order. -/
def filesBelow (t : FileTree) (dir : Key) : List Key :=
  let below := t.nodes.filterMap fun (key, node) =>
    match node, dir.isPrefixOf? key with
    | .file .., some relative => if relative.isEmpty then none else some relative
    | _, _ => none
  below.mergeSort Key.le

/-- The files below the directory that a path leads to, relative to it. A path that leads to a file
has none below it. -/
def walk (t : FileTree) (p : Path) : Except FileFault (List Key) := do
  let _ ← t.locate .entry p
  let key ← t.locate .target p
  match t.node? key with
  | some .directory => .ok (t.filesBelow key)
  | _ => .ok []

/-- The absolute path of what a path leads to, free of links. -/
def canonical (t : FileTree) (p : Path) : Except FileFault Path := do
  let key ← t.locate .target p
  .ok (key.foldl (fun p name => p.join ⟨name⟩) t.mount)

/-! ### Changes -/

/-- The tree with the entry of a key set. -/
def set (t : FileTree) (key : Key) (node : Node) : FileTree :=
  { t with nodes := t.nodes.filter (·.1 ≠ key) ++ [(key, node)] }

/-- The key of an entry that is put under a name in the directory `cur`. Files are written through
links; a link is put beside them. -/
def keyToBe (t : FileTree) (cur : Key) (node : Node) (name : String) : Key :=
  match node with
  | .link _ => cur ++ [name]
  | _ => ((t.locateFrom .targetToBe maxLinks cur [name]).toOption).getD (cur ++ [name])

/-- The tree with an entry put where names lead from the directory `cur`; missing directories on the
way are made. -/
def putFrom (t : FileTree) (cur : Key) (node : Node) : List String → FileTree
  | [] => t
  | [name] =>
    let key := t.keyToBe cur node name
    match t.node? key with
    | some .directory => t
    | old => t.set key (node.over old)
  | name :: rest =>
    match t.locateFrom .target maxLinks cur [name] with
    | .ok key => putFrom t key node rest
    | .error _ => putFrom (t.set (cur ++ [name]) .directory) (cur ++ [name]) node rest

/-- The tree with an entry put at a path. -/
def put (t : FileTree) (p : Path) (node : Node) : FileTree :=
  t.putFrom [] node ((names p).filter fun name => name ≠ "" ∧ name ≠ ".")

/-- The tree without the entry at a path and all that is below it. -/
def remove (t : FileTree) (p : Path) : FileTree :=
  match t.locate .entry p with
  | .ok key => { t with nodes := t.nodes.filter fun (k, _) => !key.isPrefixOf k }
  | .error _ => t

end FileTree

end Classpath

import Classpath.Store.ClassDirectory

/-!
# Module images

A store of modules, each of which has a subtree of its own. An image comes in one of two layouts: a
directory with one subdirectory for each module, or a directory of archives, one for each module,
with the classes under `classes/`.

* `Classpath.ModuleImage.open` – the image at a path.
* `Classpath.ModuleImage.lookup`, `Classpath.ModuleImage.entries` – what a module stores.
* `Classpath.Location.ofImage` – an image as a location.
-/

namespace Classpath

/-- How an image stores its modules. -/
inductive ModuleLayout where
  /-- In subdirectories of a directory. -/
  | exploded (directory : Path)
  /-- In archives, by module. -/
  | archived (archives : List (ModuleName × Archive))
  deriving Repr

/-- A store of modules. -/
structure ModuleImage where
  root : Path
  layout : ModuleLayout
  deriving Repr

namespace ModuleImage

/-- Where the archives of modules hold their classes. -/
def classesFolder : String := "classes/"

/-- The module whose archive has a given file name. -/
def archiveModule? (name : String) : Option ModuleName :=
  match Path.splitExtension name.toList with
  | (stem, some ['j', 'm', 'o', 'd']) => some ⟨String.ofList stem⟩
  | _ => none

/-- The archives of modules in a directory, in the order of modules. -/
def archivesIn (dir : Path) (w : World) : Except FileFault (List (ModuleName × Path)) := do
  let names := (← w.files.entryNames dir).map Prod.fst
  let found := names.filterMap fun name => do
    let m ← archiveModule? name
    let path := dir.join ⟨name⟩
    if w.files.isFile path then some (m, path) else none
  return found.mergeSort fun a b => (a.1.compare b.1).isLE

/-- Numbers archives that are not opened yet. -/
def number : List (ModuleName × Path) → World → List (ModuleName × Archive) × World
  | [], w => ([], w)
  | (m, path) :: rest, w =>
    let (a, w) := Archive.ofPath path w
    let (others, w) := number rest w
    ((m, a) :: others, w)

/-- The image at a path. Subdirectories are preferred to archives. -/
def «open» (root : Path) (w : World) : Except LocationError ModuleImage × World :=
  let modules := root.join ⟨"modules"⟩
  let jmods := root.join ⟨"jmods"⟩
  if w.files.isDirectory modules then (.ok ⟨root, .exploded modules⟩, w)
  else if w.files.isDirectory jmods then
    match archivesIn jmods w with
    | .error fault => (.error (.file jmods fault), w)
    | .ok found =>
      let (archives, w) := number found w
      (.ok ⟨root, .archived archives⟩, w)
  else (.error (.noModules root), w)

/-- The names of the modules, in order. A link to a directory is no module of an image. -/
def modules (i : ModuleImage) (w : World) : Except LocationError (List ModuleName) :=
  match i.layout with
  | .exploded dir =>
    match w.files.entryNames dir with
    | .error fault => .error (.file dir fault)
    | .ok entries =>
      let names := entries.filterMap fun (name, node) =>
        if node = .directory then some (ModuleName.mk name) else none
      .ok (names.mergeSort fun a b => (a.compare b).isLE)
  | .archived archives => .ok (archives.map Prod.fst)

/-- The subtree of a module. A name that is no single name of an entry has none. -/
def moduleRoot? (dir : Path) (m : ModuleName) : Option Path :=
  if m.text.toList.contains '/' || m.text.toList.contains '\\' then none
  else
    match Path.components ⟨m.text⟩ with
    | [.entry _] => some (dir.join ⟨m.text⟩)
    | _ => none

/-- The file at a path relative to a module, if there is one. -/
def lookup (i : ModuleImage) (m : ModuleName) (relative : String) (w : World) :
    Except LocationError (Option StoredClass) × World :=
  match i.layout with
  | .exploded dir =>
    match moduleRoot? dir m with
    | none => (.ok none, w)
    | some root =>
      let path := root.join ⟨relative⟩
      (.ok (if w.files.isFile path then some (.file path) else none), w)
  | .archived archives =>
    match archives.lookup m with
    | none => (.ok none, w)
    | some a =>
      let name := classesFolder ++ relative
      let (held, w) := a.contains name w
      (held.map fun held => if held then some (.entry a name) else none, w)

/-- The class that an entry of a module's archive holds, if it holds one. -/
def archivedClass? (extension : String) (ids : Naming) (m : ModuleName) (name : String) :
    Option ClassType := do
  let rest ← classesFolder.toList.isPrefixOf? name.toList
  let stem ← ("." ++ extension).toList.isSuffixOf? rest
  ids.ofEntryName? (String.ofList stem) (some m)

/-- The classes that a module stores. -/
def entries (i : ModuleImage) (m : ModuleName) (extension : String) (ids : Naming) (w : World) :
    Except LocationError (List (ClassType × StoredClass)) × World :=
  match i.layout with
  | .exploded dir =>
    match moduleRoot? dir m with
    | none => (.ok [], w)
    | some root =>
      ((storedClasses w.files root extension ids (some m)).map
        (List.map fun (t, path) => (t, .file path)), w)
  | .archived archives =>
    match archives.lookup m with
    | none => (.ok [], w)
    | some a =>
      let (names, w) := a.names w
      (names.map (List.filterMap fun name =>
        (archivedClass? extension ids m name).map fun t => (t, .entry a name)), w)

end ModuleImage

namespace Location

/-- The first of some modules that stores a file at a relative path. -/
def findInModules (i : ModuleImage) (relative : String) :
    List ModuleName → World → Except LocationError (Option StoredClass) × World
  | [], w => (.ok none, w)
  | m :: rest, w =>
    match i.lookup m relative w with
    | (.ok none, w) => findInModules i relative rest w
    | answer => answer

/-- The class of a type stored in an image. A type that names no module is looked for in all of
them. -/
def findInImage (i : ModuleImage) (frontend : Frontend) (sourceType : SourceType) (t : ClassType)
    (w : World) : Except LocationError (Option (Source World)) × World :=
  if isDescriptorName t.name then (.ok none, w)
  else
    let relative := t.relativePath frontend.extension
    let (found, w) :=
      match t.moduleName with
      | some m => i.lookup m relative w
      | none =>
        match i.modules w with
        | .ok ms => findInModules i relative ms w
        | .error e => (.error e, w)
    (found.map (Option.map (StoredClass.source frontend sourceType t)), w)

/-- The sources of a module. -/
def listModule (i : ModuleImage) (frontend : Frontend) (sourceType : SourceType) (ids : Naming)
    (m : ModuleName) (w : World) : List (Except LocationError (Source World)) × World :=
  match i.entries m frontend.extension ids w with
  | (.ok found, w) => (found.map fun (t, c) => .ok (c.source frontend sourceType t), w)
  | (.error e, w) => ([.error e], w)

/-- A module image as a location. Each module is listed in a part of its own. -/
def ofImage (i : ModuleImage) (frontend : Frontend) (sourceType : SourceType) : Location World where
  description := "module fs " ++ i.root.text
  sourceType
  find := findInImage i frontend sourceType
  list ids w := ((i.modules w).map (List.map (listModule i frontend sourceType ids)), w)
  modules? := some fun w => (i.modules w, w)

end Location

end Classpath

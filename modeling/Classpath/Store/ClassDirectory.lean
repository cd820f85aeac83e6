import Classpath.Store.StoredClass

/-!
# Directories of classes

A directory tree of stored classes, laid out by package: the class `a.b.C` is in the file `a/b/C`
with the extension of its format. A directory belongs to no module.

* `Classpath.storedClasses` – the classes below a directory.
* `Classpath.Location.ofDirectory` – a directory as a location.
-/

namespace Classpath

/-- The classes stored below a directory and their paths, in the order of the walk. A failure to walk
names the path where it happened. -/
def storedClasses (files : FileTree) (root : Path) (extension : String) (ids : Naming)
    (m : Option ModuleName) : Except LocationError (List (ClassType × Path)) :=
  match files.walk root with
  | .error fault => .error (.file root (.walk root fault))
  | .ok keys =>
    .ok (keys.filterMap fun key =>
      let relative : Path := ⟨"/".intercalate key⟩
      (ids.ofPath? relative extension m).map fun t => (t, root.join relative))

namespace Location

/-- The class of a type stored below a directory. -/
def findInDirectory (root : Path) (frontend : Frontend) (sourceType : SourceType) (t : ClassType)
    (w : World) : Except LocationError (Option (Source World)) × World :=
  if t.isQualified || isDescriptorName t.name then (.ok none, w)
  else
    let path := root.join ⟨t.relativePath frontend.extension⟩
    if w.files.isFile path then
      (.ok (some ((StoredClass.file path).source frontend sourceType t)), w)
    else (.ok none, w)

/-- The sources stored below a directory. -/
def listDirectory (root : Path) (frontend : Frontend) (sourceType : SourceType) (ids : Naming)
    (w : World) : List (Except LocationError (Source World)) × World :=
  match storedClasses w.files root frontend.extension ids none with
  | .ok found =>
    (found.map fun (t, path) => .ok ((StoredClass.file path).source frontend sourceType t), w)
  | .error e => ([.error e], w)

/-- A directory of classes as a location. -/
def ofDirectory (root : Path) (frontend : Frontend) (sourceType : SourceType) : Location World where
  description := "class dir " ++ root.text
  sourceType
  find := findInDirectory root frontend sourceType
  list ids w := (.ok [listDirectory root frontend sourceType ids], w)

end Location

end Classpath

import Classpath.Store.StoredClass

/-!
# Archives of classes

An archive of stored classes, laid out by package like a directory of classes. What an archive keeps
about itself, under `META-INF/`, is never listed.

* `Classpath.Location.ofArchive` – an archive as a location.
-/

namespace Classpath.Location

/-- The class of a type stored in an archive. -/
def findInArchive (a : Archive) (frontend : Frontend) (sourceType : SourceType) (t : ClassType)
    (w : World) : Except LocationError (Option (Source World)) × World :=
  if t.isQualified || isDescriptorName t.name then (.ok none, w)
  else
    let name := t.relativePath frontend.extension
    let (held, w) := a.contains name w
    (held.map fun held =>
      if held then some ((StoredClass.entry a name).source frontend sourceType t) else none, w)

/-- The class that an entry of an archive holds, if it holds one. -/
def archivedClass? (extension : String) (ids : Naming) (name : String) : Option ClassType :=
  if "META-INF/".toList.isPrefixOf name.toList then none
  else
    (("." ++ extension).toList.isSuffixOf? name.toList).bind fun stem =>
      ids.ofEntryName? (String.ofList stem) none

/-- The sources stored in an archive. -/
def listArchive (a : Archive) (frontend : Frontend) (sourceType : SourceType) (ids : Naming)
    (w : World) : Except LocationError (Listing World) × World :=
  let (names, w) := a.names w
  (names.map fun names =>
    let sources := names.filterMap fun name =>
      (archivedClass? frontend.extension ids name).map fun t =>
        .ok ((StoredClass.entry a name).source frontend sourceType t)
    [fun w => (sources, w)], w)

/-- An archive of classes as a location. -/
def ofArchive (a : Archive) (frontend : Frontend) (sourceType : SourceType) : Location World where
  description := "archive " ++ a.path.text
  sourceType
  find := findInArchive a frontend sourceType
  list := listArchive a frontend sourceType

end Classpath.Location

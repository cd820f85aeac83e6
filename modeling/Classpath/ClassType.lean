import Classpath.Text

/-!
# Class and module names

A `ClassType` is the key by which everything else finds a class: the dotted binary name, as in
`java.util.Map$Entry`, and possibly the module that the class belongs to. `Naming` turns the
spellings in which names are written – dotted, with slashes, as a descriptor, as an archive entry –
into class types, and decides whether module qualifiers are kept.

* `Classpath.ClassType.compare` – the order of class types: by name, then by module, the
  unqualified one first.
* `Classpath.normalizedName` – one spelling for each class name.
* `Classpath.Naming.ofEntryName?` – the class that a stored entry holds, if it holds one.
-/

namespace Classpath

/-- The name of a module. -/
structure ModuleName where
  text : String
  deriving DecidableEq, Repr, Inhabited

namespace ModuleName

instance : ToString ModuleName := ⟨ModuleName.text⟩

/-- The module that every other one depends on. -/
def javaBase : ModuleName := ⟨"java.base"⟩

/-- Modules are ordered by name. -/
def compare (a b : ModuleName) : Ordering :=
  Ord.compare a.text b.text

end ModuleName

/-- A class identifier: a dotted binary name and possibly a module. -/
structure ClassType where
  name : String
  moduleName : Option ModuleName := none
  deriving DecidableEq, Repr, Inhabited

namespace ClassType

/-- The written form: `module/name` for a qualified type and the name alone for another. -/
def display (t : ClassType) : String :=
  match t.moduleName with
  | some m => m.text ++ "/" ++ t.name
  | none => t.name

/-- The form for inspection, which names the kind of thing that is shown. -/
def debugText (t : ClassType) : String :=
  "ClassType(" ++ t.display ++ ")"

/-- The same class without its module qualifier. -/
def unqualified (t : ClassType) : ClassType :=
  { t with moduleName := none }

/-- Whether the type names its module. -/
def isQualified (t : ClassType) : Bool :=
  t.moduleName.isSome

/-- The part of the name before its last dot; empty in the default package. -/
def packageName (t : ClassType) : String :=
  match cutAtLast? '.' t.name.toList with
  | some (package, _) => String.ofList package
  | none => ""

/-- The part of the name after its last dot. -/
def simpleName (t : ClassType) : String :=
  match cutAtLast? '.' t.name.toList with
  | some (_, simple) => String.ofList simple
  | none => t.name

/-- The name with slashes in place of dots. -/
def internalName (t : ClassType) : String :=
  String.ofList (replaceChar '.' '/' t.name.toList)

/-- Where a store whose files carry `extension` keeps the class. The module is not part of the
path: a store of modules gives each its own root. -/
def relativePath (t : ClassType) (extension : String) : String :=
  t.internalName ++ "." ++ extension

/-- Class types are ordered by name, then by module, an unqualified type before a qualified one. -/
def compare (a b : ClassType) : Ordering :=
  (Ord.compare a.name b.name).then
    (compareOption ModuleName.compare a.moduleName b.moduleName)

instance : Ord ClassType := ⟨ClassType.compare⟩

/-- `a` does not come after `b`. -/
def le (a b : ClassType) : Bool :=
  (a.compare b).isLE

/-- The class types of a list in order, each once. -/
def sortedSet (types : List ClassType) : List ClassType :=
  (types.mergeSort le).eraseReps

end ClassType

/-! ### Spellings -/

/-- One spelling for each class name. Blanks around it and a trailing `.class` go, then the `L` and
`;` of a descriptor, then one leading slash; slashes become dots. -/
def normalizedName (name : List Char) : List Char :=
  let name := trim name
  let name := (".class".toList.isSuffixOf? name).getD name
  let name := ((['L'].isPrefixOf? name).bind fun rest => [';'].isSuffixOf? rest).getD name
  let name := (['/'].isPrefixOf? name).getD name
  replaceChar '/' '.' name

/-- Whether a dotted name is that of a module or package descriptor: these are stored like classes
and are none. -/
def isDescriptorName (name : String) : Bool :=
  let simple := (ClassType.mk name none).simpleName
  simple == "module-info" || simple == "package-info"

/-- How a project names its classes: with or without module qualifiers. -/
structure Naming where
  moduleAware : Bool := false
  deriving DecidableEq, Repr, Inhabited

namespace Naming

/-- The naming that never attaches a module. -/
def plain : Naming := ⟨false⟩

/-- The naming that keeps modules. -/
def qualified : Naming := ⟨true⟩

/-- The unqualified class of a name in any spelling. -/
def classType (_ : Naming) (name : String) : ClassType :=
  ⟨String.ofList (normalizedName name.toList), none⟩

/-- The class of a name in any spelling, in a module if modules are kept. -/
def classTypeIn (ids : Naming) (name module_ : String) : ClassType :=
  if ids.moduleAware then { ids.classType name with moduleName := some ⟨module_⟩ }
  else ids.classType name

/-- The module of a name: blanks around it do not count. -/
def moduleName (_ : Naming) (name : String) : ModuleName :=
  ⟨String.ofList (trim name.toList)⟩

/-- The class stored under an entry name whose extension is already taken off, as in `a/b/C`. An
empty name and a module or package descriptor are no class. -/
def ofEntryName? (ids : Naming) (entry : String) (m : Option ModuleName) : Option ClassType :=
  let t := ids.classType entry
  if t.name.isEmpty || isDescriptorName t.name then none
  else some (if ids.moduleAware then { t with moduleName := m } else t)

end Naming

end Classpath

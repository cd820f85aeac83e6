import Classpath.ClassFile.Basic
import Classpath.NameMap

/-!
# Classes

What is known of a class once it is loaded, whatever it was loaded from: its identifier and flags,
its supertypes, its members and their bodies, its annotations, and where it came from. Everything
here is immutable. The elements of annotations with their defaults are computed by a view, which
keeps them apart; a class may come with the elements of some annotations computed before.

* `Classpath.ClassKind.ofFlags` – the kind of a class, as its flags say it.
* `Classpath.ClassInfo` – a class.
* `Classpath.Interceptor` – a change made to method bodies while a class is loaded.
-/

namespace Classpath

/-! ### Flags and kinds -/

/-- The properties of classes and members that flags record. -/
inductive Flag where
  | isPublic | isPrivate | isProtected | isStatic | isFinal | isSynchronized | isVolatile
  | isTransient | isNative | isInterface | isAbstract | isAnnotationType | isEnum
  deriving DecidableEq, Repr

namespace Flag

/-- The bit that records a property. -/
def bit : Flag → UInt16
  | isPublic => 0x0001
  | isPrivate => 0x0002
  | isProtected => 0x0004
  | isStatic => 0x0008
  | isFinal => 0x0010
  | isSynchronized => 0x0020
  | isVolatile => 0x0040
  | isTransient => 0x0080
  | isNative => 0x0100
  | isInterface => 0x0200
  | isAbstract => 0x0400
  | isAnnotationType => 0x2000
  | isEnum => 0x4000

/-- Whether flags record a property. -/
def on (flag : Flag) (flags : UInt16) : Bool :=
  flags &&& flag.bit != 0

end Flag

/-- What kind of class a class is. -/
inductive ClassKind where
  | plain | interface | enumeration | annotationType
  deriving DecidableEq, Repr, Inhabited

namespace ClassKind

/-- The kind that flags give. Annotation interfaces are interfaces too, and an interface is never
an enum. -/
def ofFlags (flags : UInt16) : ClassKind :=
  if Flag.isAnnotationType.on flags then annotationType
  else if Flag.isInterface.on flags then interface
  else if Flag.isEnum.on flags then enumeration
  else plain

/-- Whether classes of this kind are implemented and not extended. -/
def isInterface : ClassKind → Bool
  | interface | annotationType => true
  | plain | enumeration => false

/-- The name of the kind. -/
def label : ClassKind → String
  | plain => "class"
  | interface => "interface"
  | enumeration => "enum"
  | annotationType => "annotation"

end ClassKind

/-- How a class takes part in an analysis. -/
inductive SourceType where
  /-- Part of the program. -/
  | application
  /-- Part of what the program uses. -/
  | library
  /-- Known only by name. -/
  | phantom
  deriving DecidableEq, Repr, Inhabited

namespace SourceType

/-- The name of a source type. -/
def label : SourceType → String
  | application => "application"
  | library => "library"
  | phantom => "phantom"

/-- The source type of a name. -/
def ofLabel? : String → Option SourceType
  | "application" => some application
  | "library" => some library
  | "phantom" => some phantom
  | _ => none

end SourceType

/-! ### Members and classes -/

/-- The body of a method. Bodies are kept and passed on, never looked into. -/
inductive Body where
  | bytecode (code : ClassFile.Code)
  | statements (lines : List String)
  deriving DecidableEq, Repr, Inhabited

/-- A field. -/
structure FieldInfo where
  name : String
  /-- The descriptor, or in a text class the type as written. -/
  descriptor : String
  flags : UInt16 := 0
  annotations : List (AnnotationUse ClassType) := []
  deriving Repr, Inhabited

/-- A method. -/
structure MethodInfo where
  name : String
  /-- The descriptor, or in a text class parameters and result as written. -/
  descriptor : String
  flags : UInt16 := 0
  annotations : List (AnnotationUse ClassType) := []
  body : Option Body := none
  /-- The default of an annotation element. -/
  defaultValue : Option (ElementValue ClassType) := none
  deriving Repr, Inhabited

namespace MethodInfo

/-- Whether the method belongs to the class and not to its instances. -/
def isStatic (m : MethodInfo) : Bool :=
  Flag.isStatic.on m.flags

/-- Whether the method is declared abstract. -/
def isAbstract (m : MethodInfo) : Bool :=
  Flag.isAbstract.on m.flags

end MethodInfo

/-- The elements of an annotation by name. -/
abbrev Elements := List (String × ElementValue ClassType)

/-- A class. -/
structure ClassInfo where
  type : ClassType
  flags : UInt16
  superclass : Option ClassType := none
  /-- The declared interfaces, in order and each once. -/
  interfaces : List ClassType := []
  fields : List FieldInfo := []
  methods : List MethodInfo := []
  annotations : List (AnnotationUse ClassType) := []
  /-- By the positions of annotations, the elements that were computed before the class was loaded.
  The classes of files come without any. -/
  computed : List (Option Elements) := []
  sourceType : SourceType := .application
  /-- Where the class was loaded from. -/
  origin : String := ""
  deriving Repr, Inhabited

namespace ClassInfo

/-- The kind of the class. -/
def kind (c : ClassInfo) : ClassKind :=
  .ofFlags c.flags

/-- Whether the class declares an annotation. -/
def isAnnotationType (c : ClassInfo) : Bool :=
  c.kind = .annotationType

/-- The direct supertypes: the superclass, if there is one, and the interfaces. -/
def supertypes (c : ClassInfo) : List ClassType :=
  c.superclass.toList ++ c.interfaces

/-- The elements with which the annotation at a position came, if they were computed before. -/
def computed? (c : ClassInfo) (i : Nat) : Option Elements :=
  (c.computed[i]?).join

/-- The first field of a name. -/
def field? (c : ClassInfo) (name : String) : Option FieldInfo :=
  c.fields.find? (·.name == name)

/-- The first method of a name; overloads are not told apart. -/
def method? (c : ClassInfo) (name : String) : Option MethodInfo :=
  c.methods.find? (·.name == name)

/-- The defaults that the methods declare, by element name; of two of one name the later counts. -/
def elementDefaults (c : ClassInfo) : List (String × ElementValue ClassType) :=
  NameMap.ofList (c.methods.filterMap fun m => m.defaultValue.map fun v => (m.name, v))

end ClassInfo

/-! ### Loading -/

/-- A change made to every method body of a class while it is loaded, which may depend on the class
and the method's name. -/
structure Interceptor where
  name : String
  apply : ClassType → String → Body → Body

namespace Interceptor

/-- The interceptor that leaves its tag on every body: as a further statement, or at the end of the
instructions with one more local. -/
def tagging (tag : String) : Interceptor where
  name := tag
  apply type method
    | .statements lines => .statements (lines ++ [tag ++ " " ++ type.display ++ "." ++ method])
    | .bytecode code =>
      .bytecode { code with
        maxLocals := code.maxLocals + 1
        instructions := code.instructions ++ tag.toUTF8.toList }

end Interceptor

/-- What is settled before a class is loaded. -/
structure BuildContext where
  sourceType : SourceType := .application
  interceptors : List Interceptor := []
  naming : Naming := {}

namespace BuildContext

/-- A body as the interceptors leave it, the first one applied first. -/
def intercept (ctx : BuildContext) (type : ClassType) (method : String) (body : Body) : Body :=
  ctx.interceptors.foldl (fun body i => i.apply type method body) body

end BuildContext

end Classpath

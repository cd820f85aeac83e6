import Classpath.TextClass.Basic
import Classpath.Utf8
import Classpath.Failure

/-!
# Frontends

A frontend makes a class of the contents of a file. There is one for class files and one for text
classes; each knows by which extension its files go.

* `Classpath.ClassFile.toClass` – the class that a class file describes.
* `Classpath.Frontend.build` – the class that some contents describe, with its bodies intercepted.
-/

namespace Classpath

/-! ### Class files as classes -/

mutual

/-- A value with its classes named by class types. -/
def ElementValue.qualify (name : String → ClassType) : ElementValue String → ElementValue ClassType
  | .const c => .const c
  | .enumConstant type constant => .enumConstant (name type) constant
  | .classLiteral descriptor => .classLiteral descriptor
  | .nested type elements => .nested (name type) (NameMap.ofList (qualifyElements name elements))
  | .array values => .array (qualifyValues name values)

/-- The elements of an annotation with their classes named by class types. -/
def ElementValue.qualifyElements (name : String → ClassType) :
    List (String × ElementValue String) → List (String × ElementValue ClassType)
  | [] => []
  | (n, v) :: rest => (n, v.qualify name) :: ElementValue.qualifyElements name rest

/-- The values of an array with their classes named by class types. -/
def ElementValue.qualifyValues (name : String → ClassType) :
    List (ElementValue String) → List (ElementValue ClassType)
  | [] => []
  | v :: rest => v.qualify name :: ElementValue.qualifyValues name rest

end

/-- An annotation with its classes named by class types, and its elements by name. -/
def AnnotationUse.qualify (name : String → ClassType) (a : AnnotationUse String) :
    AnnotationUse ClassType :=
  ⟨name a.type, NameMap.ofList (ElementValue.qualifyElements name a.elements)⟩

namespace ClassFile

/-- The field that a member of a class file describes; its descriptor must be one. -/
def Member.toField (name : String → ClassType) (m : Member) : Except ReadError FieldInfo := do
  let _ ← FieldType.parse m.descriptor
  let annotations := m.attributes.annotations.map (·.qualify name)
  return { name := m.name, descriptor := m.descriptor, flags := m.flags, annotations }

/-- The method that a member of a class file describes; its descriptor must be one. -/
def Member.toMethod (name : String → ClassType) (intercept : String → Body → Body) (m : Member) :
    Except ReadError MethodInfo := do
  let _ ← MethodDescriptor.parse m.descriptor
  return {
    name := m.name
    descriptor := m.descriptor
    flags := m.flags
    annotations := m.attributes.annotations.map (·.qualify name)
    body := m.attributes.code.map fun code => intercept m.name (.bytecode code)
    defaultValue := m.attributes.defaultValue.map (·.qualify name) }

/-- The class that a class file describes. -/
def toClass (name : String → ClassType) (intercept : String → Body → Body) (f : ClassFile) :
    Except ReadError ClassInfo := do
  let fields ← f.fields.mapM (·.toField name)
  let methods ← f.methods.mapM (·.toMethod name intercept)
  return {
    type := name f.name
    flags := f.flags
    superclass := f.superName.map name
    interfaces := ClassType.sortedSet (f.interfaces.map name)
    fields
    methods
    annotations := f.attributes.annotations.map (·.qualify name) }

end ClassFile

/-! ### Frontends -/

/-- The formats in which classes are stored. -/
inductive Frontend where
  | classFile
  | textClass
  deriving DecidableEq, Repr, Inhabited

namespace Frontend

/-- The extension of the files of a format. -/
def extension : Frontend → String
  | classFile => "class"
  | textClass => "jimple"

/-- The class that the contents of a class file describe. -/
def buildClassFile (located : ClassType) (contents : Bytes) (origin : String) (ctx : BuildContext) :
    Except BuildError ClassInfo :=
  ((ClassFile.parse contents).bind
    (ClassFile.toClass ctx.naming.classType (ctx.intercept located))).mapError
      fun e => .malformed origin e.message

/-- A method with its body intercepted. -/
def interceptMethod (located : ClassType) (ctx : BuildContext) (m : MethodInfo) : MethodInfo :=
  { m with body := m.body.map (ctx.intercept located m.name) }

/-- The class that the contents of a text describe. -/
def buildTextClass (located : ClassType) (contents : Bytes) (origin : String) (ctx : BuildContext) :
    Except BuildError ClassInfo := do
  let text ← (Utf8.decode contents).mapError fun e => .malformed origin e.message
  let c ← (TextClass.parse ctx.naming text).mapError fun e => .frontend origin e.message
  return { c with methods := c.methods.map (interceptMethod located ctx) }

/-- The class that some contents describe, which were found under the name `located`. -/
def build : Frontend → ClassType → Bytes → String → BuildContext → Except BuildError ClassInfo
  | classFile => buildClassFile
  | textClass => buildTextClass

end Frontend

/-- A class as it was located: its declared name must be the located one, and its identifier, origin
and source type are those of the place where it was found. -/
def ClassInfo.stamped (located : ClassType) (origin : String) (sourceType : SourceType)
    (c : ClassInfo) : Except BuildError ClassInfo :=
  if c.type.name = located.name then
    .ok { c with type := located, origin, sourceType }
  else .error (.typeMismatch origin located.name c.type.name)

end Classpath

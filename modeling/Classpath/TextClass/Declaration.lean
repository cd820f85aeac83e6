import Classpath.TextClass.Line
import Classpath.ClassInfo
import Classpath.Number.Numeral

/-!
# Declarations of a text class

The parts of a text class that stand on one line: values, annotations, fields, method signatures and
the class header. Each is read from the text of its line alone.

* `Classpath.TextClass.value` – a constant, a class literal or an enum constant.
* `Classpath.TextClass.annotationLine` – an annotation and its elements.
* `Classpath.TextClass.field`, `Classpath.TextClass.method` – members.
* `Classpath.TextClass.header` – the kind, name and supertypes of the class.
-/

namespace Classpath.TextClass

/-- The class that a name in a text refers to. -/
def namedClass (ids : Naming) (name : List Char) : ClassType :=
  ids.classType (String.ofList name)

/-- The nonempty items of a list with commas, without blanks around them. -/
def items (s : List Char) : List (List Char) :=
  ((s.splitOn ',').map trim).filter (!·.isEmpty)

/-! ### Values -/

/-- The contents of a text in double quotes. -/
def stringLiteral? (s : List Char) : Option (List Char) :=
  (['"'].isPrefixOf? s).bind fun rest => ['"'].isSuffixOf? rest

/-- The constant that a numeral writes: a long if it ends in `L`, else an integer if it fits 32 bits,
else a double-precision number. -/
def number? (s : List Char) : Option Constant :=
  match (['L'].isSuffixOf? s).bind (Numeral.int? 64) with
  | some n => some (.long (.ofInt n))
  | none =>
    match Numeral.int? 32 s with
    | some n => some (.int (.ofInt n))
    | none => (Numeral.double? s).map fun bits => .double (.ofNat bits)

/-- The value that a text writes. What is no constant and no class literal is an enum constant if it
has a dot. -/
def value (ids : Naming) (s : List Char) : Except Fault (ElementValue ClassType) :=
  if s = "true".toList then .ok (.const (.boolean true))
  else if s = "false".toList then .ok (.const (.boolean false))
  else
    match stringLiteral? s with
    | some contents => .ok (.const (.string (String.ofList contents)))
    | none =>
      match ".class".toList.isSuffixOf? s with
      | some name =>
        .ok (.classLiteral (String.ofList ('L' :: replaceChar '.' '/' name ++ [';'])))
      | none =>
        match number? s with
        | some constant => .ok (.const constant)
        | none =>
          match cutAtLast? '.' s with
          | some (type, constant) =>
            .ok (.enumConstant (namedClass ids type) (String.ofList constant))
          | none => .error (.unsupportedValue s)

/-- One `name = value` of an annotation. -/
def element (ids : Naming) (s : List Char) :
    Except Fault (String × ElementValue ClassType) :=
  match cutAt? '=' s with
  | some (name, v) => do return (String.ofList (trim name), ← value ids (trim v))
  | none => .error (.expectedElement s)

/-- The annotation that a line writes. -/
def annotationLine (ids : Naming) (s : List Char) : Except Fault (AnnotationUse ClassType) := do
  let s := trim ((['@'].isPrefixOf? s).getD s)
  let (name, arguments) ←
    match cutAt? '(' s with
    | some (name, arguments) =>
      match [')'].isSuffixOf? arguments with
      | some arguments => pure (trim name, arguments)
      | none => .error .unclosedArguments
    | none => pure (s, [])
  if name.isEmpty then .error .missingAnnotationType
  else
    let elements ← (items arguments).mapM (element ids)
    return ⟨namedClass ids name, NameMap.ofList elements⟩

/-! ### Members -/

/-- The flag that a modifier sets. -/
def modifier? (token : List Char) : Option Flag :=
  match String.ofList token with
  | "public" => some .isPublic
  | "private" => some .isPrivate
  | "protected" => some .isProtected
  | "static" => some .isStatic
  | "final" => some .isFinal
  | "abstract" => some .isAbstract
  | "synchronized" => some .isSynchronized
  | "volatile" => some .isVolatile
  | "transient" => some .isTransient
  | "native" => some .isNative
  | _ => none

/-- The flags that modifiers set together. -/
def modifiers (tokens : List (List Char)) : Except Fault UInt16 :=
  tokens.foldlM (fun flags token =>
    match modifier? token with
    | some flag => .ok (flags ||| flag.bit)
    | none => .error (.unknownModifier token)) 0

/-- Modifiers, a type and a name: the flags, the type and the name. -/
def declaration (s : List Char) : Except Fault (UInt16 × List Char × List Char) :=
  match (words s).reverse with
  | name :: type :: before => do return (← modifiers before.reverse, type, name)
  | _ => .error (.expectedTypeAndName s)

/-- The field that a text declares. An initial value is not kept. -/
def field (s : List Char) : Except Fault FieldInfo := do
  let s := trim ((cutAt? '=' s).elim s Prod.fst)
  let (flags, type, name) ← declaration s
  return { name := String.ofList name, descriptor := String.ofList type, flags }

/-- The default that follows the parameters of a method, if there is one; thrown types are not
kept. -/
def defaultClause (ids : Naming) (trailer : List Char) :
    Except Fault (Option (ElementValue ClassType)) :=
  match "default".toList.isPrefixOf? trailer with
  | some v => (value ids (trim v)).map some
  | none =>
    if trailer.isEmpty || "throws".toList.isPrefixOf trailer then .ok none
    else .error (.unexpectedTrailer trailer)

/-- The method whose signature a text writes, without a body. -/
def method (ids : Naming) (s : List Char) : Except Fault MethodInfo := do
  let some (head, tail) := cutAt? '(' s | .error .missingParameters
  let some (params, trailer) := cutAt? ')' tail | .error .unclosedParameters
  let (flags, result, name) ← declaration head
  let descriptor := '(' :: [','].intercalate (items params) ++ ')' :: result
  let defaultValue ← defaultClause ids (trim trailer)
  return { name := String.ofList name, descriptor := String.ofList descriptor, flags, defaultValue }

/-! ### The header -/

/-- The root of the class hierarchy, which every class extends that names no superclass. -/
def rootName : List Char := "java.lang.Object".toList

/-- The flags of the kind that a word names. -/
def kindFlags? (token : List Char) : Option UInt16 :=
  match String.ofList token with
  | "class" => some 0
  | "interface" => some (Flag.isInterface.bit ||| Flag.isAbstract.bit)
  | "annotation" =>
    some (Flag.isInterface.bit ||| Flag.isAbstract.bit ||| Flag.isAnnotationType.bit)
  | "enum" => some Flag.isEnum.bit
  | _ => none

/-- The modifiers and the kind that words start with: the flags they set and the other words. -/
def kind (flags : UInt16) : List (List Char) → Except Fault (UInt16 × List (List Char))
  | [] => .error .missingKind
  | token :: rest =>
    match kindFlags? token with
    | some own => .ok (flags ||| own, rest)
    | none =>
      match modifier? token with
      | some flag => kind (flags ||| flag.bit) rest
      | none => .error (.unknownModifier token)

/-- The text of the `extends` clause and that of the `implements` clause. -/
def clauses (s : List Char) : Except Fault (Option (List Char) × Option (List Char)) := do
  let (first, implemented) :=
    match cutAtWord? "implements".toList s with
    | some (first, rest) => (trim first, some (trim rest))
    | none => (trim s, none)
  if first.isEmpty then return (none, implemented)
  else
    match "extends".toList.isPrefixOf? first with
    | some extended => return (some (trim extended), implemented)
    | none => .error (.unexpectedClause first)

/-- The class that a header declares, without members. An interface extends interfaces and has the
root as its superclass. -/
def header (ids : Naming) (s : List Char) : Except Fault ClassInfo := do
  let (flags, rest) ← kind 0 (words s)
  let name :: rest := rest | .error .missingName
  let (extended, implemented) ← clauses ([' '].intercalate rest)
  let root := namedClass ids rootName
  let listed (clause : Option (List Char)) : List ClassType :=
    (clause.elim [] items).map (namedClass ids)
  let type := namedClass ids name
  if Flag.isInterface.on flags then
    let interfaces := ClassType.sortedSet (listed extended ++ listed implemented)
    return { type, flags, superclass := some root, interfaces }
  else
    let interfaces := ClassType.sortedSet (listed implemented)
    match extended with
    | some superclass =>
      if superclass.contains ',' then .error .severalSuperclasses
      else return { type, flags, superclass := some (namedClass ids superclass), interfaces }
    | none =>
      let superclass := if name = rootName then none else some root
      return { type, flags, superclass, interfaces }

end Classpath.TextClass

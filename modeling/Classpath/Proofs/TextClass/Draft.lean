import Classpath.TextClass.Basic
import Classpath.Text.Alphanumeric
import Classpath.Proofs.Text

/-!
# Classes that a text can write

A draft is a class together with the choices that its text leaves open: how members are interleaved,
in which order modifiers stand, whether an opening brace gets a line of its own. Its parts carry
with them what makes them fit for a text: names have the shape of identifiers, strings stay on their
line, statements are none of the lines that end a body.

* `Classpath.TextClass.Draft.Identifier`, `Classpath.TextClass.Draft.Value`,
  `Classpath.TextClass.Draft.Usage`, `Classpath.TextClass.Draft.Member` – the parts.
* `Classpath.TextClass.Draft.Class.info` – the class of a draft.
* `Classpath.TextClass.Draft.Class.text` – its text, in the layout of `Classpath.TextClass.parse`.
-/

namespace Classpath.TextClass.Draft

/-! ### Names -/

/-- The characters of names: letters, digits, underscores, dollar signs and dots. -/
def isNameChar (c : Char) : Bool :=
  isAlphanumeric c || c = '_' || c = '$' || c = '.'

/-- **A name in the shape of an identifier.** It begins with a letter, and it is told from a class
literal and from the word before interfaces. -/
structure Identifier where
  text : List Char
  letter : text.head?.any isAlphabetic
  chars : text.all isNameChar
  not_classLiteral : ¬ ".class".toList <:+ text
  not_keyword : ¬ "implements".toList <:+: text

/-- The name of an enum constant, which has no dot and is told from a class literal. -/
structure EnumConstant extends Identifier where
  dotless : '.' ∉ text
  not_class : text ≠ "class".toList

namespace Identifier

/-- The name. -/
def name (i : Identifier) : String :=
  String.ofList i.text

/-- The class of the name. -/
def type (i : Identifier) : ClassType :=
  ⟨i.name, none⟩

end Identifier

/-! ### Annotations -/

/-- A text that fits between double quotes in a list with commas. -/
structure Plain where
  text : List Char
  single : '\n' ∉ text
  commaless : ',' ∉ text
  quoteless : '"' ∉ text

/-- The values that elements and defaults may have. -/
inductive Value where
  | int (n : Int32)
  | long (n : Int64)
  | boolean (b : Bool)
  | enum (type : Identifier) (constant : EnumConstant)
  | string (contents : Plain)

namespace Value

/-- The value. -/
def element : Value → ElementValue ClassType
  | int n => .const (.int n)
  | long n => .const (.long n)
  | boolean b => .const (.boolean b)
  | enum type constant => .enumConstant type.type constant.name
  | string contents => .const (.string (String.ofList contents.text))

/-- How a value is written. -/
def text : Value → List Char
  | int n => (toString n.toInt).toList
  | long n => (toString n.toInt).toList ++ ['L']
  | boolean b => (toString b).toList
  | enum type constant => type.text ++ '.' :: constant.text
  | string contents => '"' :: (contents.text ++ ['"'])

end Value

/-- Texts in a row, with commas between them. -/
def commas (ts : List (List Char)) : List Char :=
  ", ".toList.intercalate ts

/-- An annotation and the values of its elements. -/
structure Usage where
  type : Identifier
  elements : List (Identifier × Value)

namespace Usage

/-- The annotation. -/
def info (a : Usage) : AnnotationUse ClassType where
  type := a.type.type
  elements := NameMap.ofList (a.elements.map fun (name, v) => (name.name, v.element))

/-- How an element is written. -/
def elementText (e : Identifier × Value) : List Char :=
  e.1.text ++ " = ".toList ++ e.2.text

/-- How an annotation is written; without elements it has no parentheses. -/
def text (a : Usage) : List Char :=
  '@' :: (a.type.text ++
    if a.elements.isEmpty then [] else '(' :: (commas (a.elements.map elementText) ++ [')']))

end Usage

/-! ### Members -/

/-- The word for a property that a modifier gives. -/
def word? : Flag → Option String
  | .isPublic => some "public"
  | .isPrivate => some "private"
  | .isProtected => some "protected"
  | .isStatic => some "static"
  | .isFinal => some "final"
  | .isSynchronized => some "synchronized"
  | .isVolatile => some "volatile"
  | .isTransient => some "transient"
  | .isNative => some "native"
  | .isAbstract => some "abstract"
  | .isInterface | .isAnnotationType | .isEnum => none

/-- A property that a modifier gives. -/
structure Modifier where
  flag : Flag
  isSome_word : (word? flag).isSome

/-- The word of a modifier. -/
def Modifier.text (m : Modifier) : List Char :=
  ((word? m.flag).get m.isSome_word).toList

/-- The flags that modifiers set. -/
def bits (modifiers : List Modifier) : UInt16 :=
  modifiers.foldl (fun flags m => flags ||| m.flag.bit) 0

/-- Modifiers, a type and a name, as they are written. -/
def declarationText (modifiers : List Modifier) (type name : Identifier) : List Char :=
  [' '].intercalate (modifiers.map (·.text) ++ [type.text, name.text])

/-- What a method is declared with. -/
structure Signature where
  modifiers : List Modifier
  result : Identifier
  name : Identifier
  parameters : List Identifier

namespace Signature

/-- The method, which has neither body nor annotations yet. -/
def method (s : Signature) : MethodInfo where
  name := s.name.name
  descriptor := String.ofList
    ('(' :: ([','].intercalate (s.parameters.map (·.text)) ++ ')' :: s.result.text))
  flags := bits s.modifiers

/-- How a signature is written. -/
def text (s : Signature) : List Char :=
  declarationText s.modifiers s.result s.name ++
    '(' :: (commas (s.parameters.map (·.text)) ++ [')'])

end Signature

/-- **A statement**: a line that is not the end of a body, without blanks at its ends, a comment or a
semicolon at its end, and whether a semicolon is written after it. -/
structure Statement where
  text : List Char
  nonempty : text ≠ []
  single : '\n' ∉ text
  tight : Tight text
  not_end : text ≠ ['}']
  uncommented : ¬ ['/', '/'] <:+: text
  unterminated : text.getLast? ≠ some ';'
  terminated : Bool

/-- How a statement is written. -/
def Statement.line (s : Statement) : List Char :=
  s.text ++ if s.terminated then [';'] else []

/-- A line, and how far it is indented. -/
structure Row where
  depth : Nat
  text : List Char

/-- A row as it stands in a text, without its end. -/
def Row.line (r : Row) : List Char :=
  List.replicate (4 * r.depth) ' ' ++ r.text

/-- A row that a brace follows, on the same line or on the next one. -/
def opening (ownLine : Bool) (r : Row) : List Row :=
  if ownLine then [r, ⟨r.depth, ['{']⟩] else [⟨r.depth, r.text ++ " \x7b".toList⟩]

/-- A member, with the annotations before it. -/
inductive Member where
  | field (annotations : List Usage) (modifiers : List Modifier) (type name : Identifier)
  | bodyless (annotations : List Usage) (signature : Signature) (default : Option Value)
  | bodied (annotations : List Usage) (signature : Signature) (ownLine : Bool)
      (statements : List Statement)

namespace Member

/-- The member. -/
def info : Member → TextClass.Member
  | field annotations modifiers type name =>
    .field {
      name := name.name
      descriptor := type.name
      flags := bits modifiers
      annotations := annotations.map (·.info) }
  | bodyless annotations signature default =>
    .method { signature.method with
      annotations := annotations.map (·.info)
      defaultValue := default.map (·.element) }
  | bodied annotations signature _ statements =>
    .method { signature.method with
      annotations := annotations.map (·.info)
      body := some (.statements (statements.map fun s => String.ofList s.text)) }

/-- The text of a default, if there is one. -/
def defaultText (default : Option Value) : List Char :=
  default.elim [] fun v => " default ".toList ++ v.text

/-- The rows of a member. -/
def rows : Member → List Row
  | field annotations modifiers type name =>
    annotations.map (⟨1, ·.text⟩) ++ [⟨1, declarationText modifiers type name ++ [';']⟩]
  | bodyless annotations signature default =>
    annotations.map (⟨1, ·.text⟩) ++ [⟨1, signature.text ++ defaultText default ++ [';']⟩]
  | bodied annotations signature ownLine statements =>
    annotations.map (⟨1, ·.text⟩) ++ opening ownLine ⟨1, signature.text⟩ ++
      statements.map (⟨2, ·.line⟩) ++ [⟨1, ['}']⟩]

end Member

/-! ### Classes -/

/-- The flags of a kind. -/
def kindBits : ClassKind → UInt16
  | .plain => 0
  | .interface => Flag.isInterface.bit ||| Flag.isAbstract.bit
  | .enumeration => Flag.isEnum.bit
  | .annotationType =>
    Flag.isInterface.bit ||| Flag.isAbstract.bit ||| Flag.isAnnotationType.bit

/-- **A class and the layout of its text.** Only a class that is no interface may name its
superclass, and if it does not it extends the root. -/
structure Class where
  annotations : List Usage
  modifiers : List Modifier
  kind : ClassKind
  name : Identifier
  superclass : Option Identifier
  interfaces : List Identifier
  members : List Member
  ownLine : Bool

namespace Class

/-- The superclass. -/
def extended (d : Class) : Option ClassType :=
  let root : ClassType := ⟨String.ofList rootName, none⟩
  if d.kind.isInterface then some root
  else
    match d.superclass with
    | some superclass => some superclass.type
    | none => if d.name.text = rootName then none else some root

/-- **The class of a draft.** -/
def info (d : Class) : ClassInfo where
  type := d.name.type
  flags := bits d.modifiers ||| kindBits d.kind
  superclass := d.extended
  interfaces := ClassType.sortedSet (d.interfaces.map (·.type))
  fields := (d.members.map (·.info)).filterMap TextClass.Member.field?
  methods := (d.members.map (·.info)).filterMap TextClass.Member.method?
  annotations := d.annotations.map (·.info)

/-- A clause of the header, if it names a type. -/
def clause (keyword : List Char) (types : List Identifier) : List (List Char) :=
  if types.isEmpty then [] else [keyword, commas (types.map (·.text))]

/-- The clauses of the header: an interface extends interfaces, any other class implements them. -/
def clauses (d : Class) : List (List Char) :=
  if d.kind.isInterface then clause "extends".toList d.interfaces
  else clause "extends".toList d.superclass.toList ++ clause "implements".toList d.interfaces

/-- How the header is written. -/
def headerText (d : Class) : List Char :=
  [' '].intercalate
    (d.modifiers.map (·.text) ++ d.kind.label.toList :: d.name.text :: d.clauses)

/-- The rows of a class, with an empty one between members. -/
def rows (d : Class) : List Row :=
  d.annotations.map (⟨0, ·.text⟩) ++ opening d.ownLine ⟨0, d.headerText⟩ ++
    [⟨0, []⟩].intercalate (d.members.map (·.rows)) ++ [⟨0, ['}']⟩]

/-- **The text of a draft.** -/
def text (d : Class) : String :=
  String.ofList (d.rows.flatMap (·.line ++ ['\n']))

example :
    let bed : Identifier :=
      ⟨"garden.Bed".toList, by decide +kernel, by decide +kernel, by decide, by decide⟩
    let void : Identifier :=
      ⟨"void".toList, by decide +kernel, by decide +kernel, by decide, by decide⟩
    let water : Identifier :=
      ⟨"water".toList, by decide +kernel, by decide +kernel, by decide, by decide⟩
    let leave : Statement :=
      ⟨"return".toList, by decide, by decide, tight_of_all (by decide), by decide, by decide,
        by decide, true⟩
    Class.text {
        annotations := []
        modifiers := [⟨.isPublic, rfl⟩]
        kind := .plain
        name := bed
        superclass := none
        interfaces := [bed]
        members := [.bodied [⟨bed, [(water, .int 2)]⟩] ⟨[], void, water, [bed]⟩ true [leave]]
        ownLine := false } =
      "public class garden.Bed implements garden.Bed \x7b
    @garden.Bed(water = 2)
    void water(garden.Bed)
    \x7b
        return;
    \x7d
\x7d
" := by
  decide +kernel

end Class

end Classpath.TextClass.Draft

import Classpath.TextClass.Declaration

/-!
# Text classes

A textual form of classes, one class to a text:

```text
@garden.Label(text = "bed")
public class garden.Bed extends garden.Plot implements garden.Watered
{
    protected garden.Plant[] plants;

    public void water(double litres)
    {
        spread(litres);
        dry = false;
    }

    public abstract double area() default 1.5;
}
```

Annotations stand on lines before what they annotate. A line that ends in a semicolon is a member
without a body: a method if it has a parenthesis and a field otherwise. Any other line is a method
whose body follows, between braces; an opening brace may end the line before. Statements are kept as
they are written, without a semicolon at the end.

* `Classpath.TextClass.Place` – where in a class body a line stands.
* `Classpath.TextClass.parse` – the class that a text writes.
-/

namespace Classpath.TextClass

/-- A member of a class. -/
inductive Member where
  | field (f : FieldInfo)
  | method (m : MethodInfo)
  deriving Repr

/-- The field that a member is, if it is one. -/
def Member.field? : Member → Option FieldInfo
  | field f => some f
  | method _ => none

/-- The method that a member is, if it is one. -/
def Member.method? : Member → Option MethodInfo
  | field _ => none
  | method m => some m

/-- Where in a class body a line stands. -/
inductive Place where
  /-- Between members, after some annotations. -/
  | members (annotations : List (AnnotationUse ClassType))
  /-- After the signature of a method whose body must begin. -/
  | opening (method : MethodInfo)
  /-- In the body of a method, after some statements, the last one first. -/
  | body (method : MethodInfo) (statements : List String)

/-- The fault of a text that ends at a place. -/
def Place.fault : Place → Fault
  | members _ => .unterminatedClass
  | opening _ => .expectedBrace none
  | body _ _ => .unterminatedBody

/-- A result at a line: its fault is at fault there. -/
def Line.check {α : Type} (l : Line) (x : Except Fault α) : Except ParseError α :=
  x.mapError (⟨l.number, ·⟩)

/-- A line without the opening brace at its end, and whether it has one. -/
def splitBrace (s : List Char) : List Char × Bool :=
  match ['{'].isSuffixOf? s with
  | some before => (trimEnd before, true)
  | none => (s, false)

/-- A statement as it is kept: without a semicolon at its end. -/
def statement (s : List Char) : String :=
  String.ofList (trimEnd (([';'].isSuffixOf? s).getD s))

/-- The member without a body that a text declares. -/
def bodyless (ids : Naming) (annotations : List (AnnotationUse ClassType)) (s : List Char) :
    Except Fault Member :=
  if s.contains '(' then do return .method { ← method ids s with annotations }
  else do return .field { ← field s with annotations }

/-- The method whose body follows its signature, and the place after the signature. -/
def beginMethod (ids : Naming) (annotations : List (AnnotationUse ClassType)) (s : List Char) :
    Except Fault Place := do
  let (signature, opened) := splitBrace s
  let m ← method ids signature
  if m.defaultValue.isSome then .error .defaultWithBody
  else
    let m := { m with annotations }
    return if opened then .body m [] else .opening m

/-- The members of a class, from a place in its body to its closing brace, and the lines after it.
`last` is the number of the last line of all. -/
def readMembers (ids : Naming) (last : Nat) :
    Place → List Line → Except ParseError (List Member × List Line)
  | place, [] => .error ⟨last, place.fault⟩
  | .members annotations, l :: rest =>
    if ['@'].isPrefixOf l.text then do
      let a ← l.check (annotationLine ids l.text)
      readMembers ids last (.members (annotations ++ [a])) rest
    else if l.text = ['}'] then
      if annotations.isEmpty then .ok ([], rest) else .error ⟨l.number, .strayAnnotations⟩
    else
      match [';'].isSuffixOf? l.text with
      | some s => do
        let m ← l.check (bodyless ids annotations s)
        let (ms, after) ← readMembers ids last (.members []) rest
        return (m :: ms, after)
      | none => do
        let place ← l.check (beginMethod ids annotations l.text)
        readMembers ids last place rest
  | .opening m, l :: rest =>
    if l.text = ['{'] then readMembers ids last (.body m []) rest
    else .error ⟨l.number, .expectedBrace (some l.text)⟩
  | .body m statements, l :: rest =>
    if l.text = ['}'] then do
      let m := { m with body := some (.statements statements.reverse) }
      let (ms, after) ← readMembers ids last (.members []) rest
      return (.method m :: ms, after)
    else readMembers ids last (.body m (statement l.text :: statements)) rest

/-- The annotations that lines start with, and the other lines. -/
def readAnnotations (ids : Naming) :
    List Line → Except ParseError (List (AnnotationUse ClassType) × List Line)
  | [] => .ok ([], [])
  | l :: rest =>
    if ['@'].isPrefixOf l.text then do
      let a ← l.check (annotationLine ids l.text)
      let (as, after) ← readAnnotations ids rest
      return (a :: as, after)
    else .ok ([], l :: rest)

/-- The lines after the opening brace of a class, which the header may already hold. -/
def readBrace (last : Nat) (opened : Bool) (ls : List Line) : Except ParseError (List Line) :=
  if opened then .ok ls
  else
    match ls with
    | [] => .error ⟨last, .expectedBrace none⟩
    | l :: rest =>
      if l.text = ['{'] then .ok rest else .error ⟨l.number, .expectedBrace (some l.text)⟩

/-- The class that lines write. -/
def parseLines (ids : Naming) (ls : List Line) : Except ParseError ClassInfo := do
  let last := lastNumber ls
  let (annotations, rest) ← readAnnotations ids ls
  let l :: rest := rest | .error ⟨last, .missingHeader⟩
  let (text, opened) := splitBrace l.text
  let c ← l.check (header ids text)
  let rest ← readBrace last opened rest
  let (members, after) ← readMembers ids last (.members []) rest
  match after with
  | [] =>
    return { c with
      annotations
      fields := members.filterMap Member.field?
      methods := members.filterMap Member.method? }
  | l :: _ => .error ⟨l.number, .trailingContent⟩

/-- The class that a text writes. Its annotations are as written, without defaults. -/
def parse (ids : Naming) (s : String) : Except ParseError ClassInfo :=
  parseLines ids (significantLines s.toList)

end Classpath.TextClass

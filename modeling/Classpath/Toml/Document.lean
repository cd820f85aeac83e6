import Classpath.Toml.Number
import Classpath.Toml.Table

/-!
# TOML documents

A document is a sequence of statements: an entry, or a header that says to which table the entries
after it belong. It is read statement by statement, and the table that the statements build is what
it holds. A document either has a meaning or it has none; what is wrong with it is not reported.

* `Classpath.Toml.value` – a value.
* `Classpath.Toml.Statement` – a statement.
* `Classpath.Toml.parse?` – the table of a document.
-/

namespace Classpath.Toml

/-- How many keys a dotted key may have, and how deep arrays and inline tables may nest. -/
def maxDepth : Nat := 79

/-! ### Keys -/

/-- The characters of keys without quotes. -/
def isKeyChar (c : Char) : Bool :=
  c.isAlphanum || c = '_' || c = '-'

/-- A single key. -/
def key (s : List Char) : Option (String × List Char) :=
  let bare := s.takeWhile isKeyChar
  if !bare.isEmpty then some (String.ofList bare, s.drop bare.length)
  else if s.head? = some basicQuote then lineString basicQuote s
  else lineString literalQuote s

/-- At most `n` keys with dots between them, and the spaces around them. -/
def keys : Nat → Reading (List String)
  | 0, _ => none
  | n + 1, s => do
    let (first, s) ← key (skipSpaces s)
    match skipSpaces s with
    | '.' :: s => (keys n s).map fun (rest, s) => (first :: rest, s)
    | s => some ([first], s)

/-- A dotted key: the keys before the last one, and that one. -/
def dottedKey (s : List Char) : Option ((List String × String) × List Char) := do
  let (all, s) ← keys maxDepth s
  let last ← all.getLast?
  some ((all.dropLast, last), s)

/-! ### Values -/

/-- An entry: a dotted key and its value, with the path to the key. -/
structure Entry where
  path : List String
  key : String
  value : Value

/-- An entry whose values are read by the given reader. -/
def entry (value : Reading Value) (s : List Char) : Option (Entry × List Char) := do
  let ((path, key), s) ← dottedKey s
  let (v, s) ← value (skipSpaces (← mark? '=' s))
  some (⟨path, key, v⟩, s)

/-- The elements of an array up to its bracket, at most `n` of them. -/
def elements (value : Reading Value) : Nat → Reading (List Value)
  | 0, _ => none
  | n + 1, s =>
    match skipLayout s with
    | ']' :: s => some ([], s)
    | s => do
      let (v, s) ← value s
      match skipLayout s with
      | ',' :: s => (elements value n s).map fun (rest, s) => (v :: rest, s)
      | ']' :: s => some ([v], s)
      | _ => none

/-- The entries of an inline table up to its brace: at least one of them and at most `n`. -/
def inlineEntries (value : Reading Value) : Nat → Reading (List Entry)
  | 0, _ => none
  | n + 1, s => do
    let (e, s) ← entry value s
    match skipSpaces s with
    | ',' :: s => (inlineEntries value n s).map fun (rest, s) => (e :: rest, s)
    | '\x7d' :: s => some ([e], s)
    | _ => none

/-- The table of some entries. -/
def tableOf? (es : List Entry) : Option Value :=
  (es.foldlM (fun table (e : Entry) => put e.path e.key e.value .header table) []).map fun table =>
    .table (closeAll table)

/-- An inline table; its brace has been read. -/
def inlineTable (value : Reading Value) (s : List Char) : Option (Value × List Char) :=
  match skipSpaces s with
  | '\x7d' :: s => some (.table [], s)
  | s => do
    let (es, s) ← inlineEntries value (s.length + 1) s
    some (← tableOf? es, s)

/-- A value without parts. -/
def scalar (s : List Char) : Option (Value × List Char) :=
  match s with
  | '"' :: _ | '\x27' :: _ => (string s).map fun (text, s) => (.string text, s)
  | 't' :: 'r' :: 'u' :: 'e' :: s => some (.boolean true, s)
  | 'f' :: 'a' :: 'l' :: 's' :: 'e' :: s => some (.boolean false, s)
  | s => (dateTime s).or (number s)

/-- A value with at most `depth` arrays and inline tables around its innermost parts. -/
def value : Nat → Reading Value
  | 0, s => scalar s
  | depth + 1, s =>
    match s with
    | '[' :: s =>
      (elements (value depth) (s.length + 1) s).map fun (vs, s) => (.array vs, s)
    | '\x7b' :: s => inlineTable (value depth) s
    | s => scalar s

/-! ### Documents -/

/-- A statement of a document. -/
inductive Statement where
  | entry (e : Entry)
  /-- The header of a table, by the path to its key. -/
  | table (path : List String) (key : String)
  /-- The header of a table in an array. -/
  | element (path : List String) (key : String)

/-- A statement without the end of its line. -/
def statement (s : List Char) : Option (Statement × List Char) :=
  match s with
  | '[' :: '[' :: s => do
    let ((path, key), s) ← dottedKey s
    some (.element path key, ← mark? ']' (← mark? ']' s))
  | '[' :: s => do
    let ((path, key), s) ← dottedKey s
    some (.table path key, ← mark? ']' s)
  | s => (entry (value maxDepth) s).map fun (e, s) => (.entry e, s)

/-- The statements of a document, at most `n` of them. -/
def statements : Nat → List Char → Option (List Statement)
  | 0, _ => none
  | n + 1, s =>
    match skipLayout s with
    | [] => some []
    | s => do
      let (first, s) ← statement s
      let rest ← statements n (← lineEnd? s)
      some (first :: rest)

/-- What has been built of a document, and the path of the last header. -/
structure Draft where
  root : Entries := []
  header : List String := []

/-- The effect of a statement. -/
def Draft.add? (d : Draft) : Statement → Option Draft
  | .entry e =>
    (update false (put e.path e.key e.value) d.header .header d.root).map fun root =>
      { d with root }
  | .table path key => (openTable path key d.root).map fun root => ⟨root, path ++ [key]⟩
  | .element path key => (openElement path key d.root).map fun root => ⟨root, path ++ [key]⟩

/-- The text after the byte order mark that it may start with. -/
def skipMark : List Char → List Char
  | '\ufeff' :: s => s
  | s => s

/-- The table of a document, if it has one. -/
def parse? (text : String) : Option Table := do
  let s := skipMark text.toList
  let d ← (← statements (s.length + 1) s).foldlM Draft.add? {}
  some (closeAll d.root)

end Classpath.Toml

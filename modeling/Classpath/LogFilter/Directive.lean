import Classpath.LogFilter.Field
import Classpath.LogFilter.Level
import Classpath.Text.Alphanumeric
import Classpath.Text.Positions

/-!
# Directives of log filters

A directive names a target, a span or a field of it, and the level up to which it is logged. Without
a level it allows all, and one that is nothing but a level holds for every target. Of the directives
that apply the most specific counts.

* `Classpath.LogDirective.parse?` – a directive.
* `Classpath.LogDirective.compare` – the order from less to more specific.
* `Classpath.LogDirective.ordered` – directives in this order, each place once.
-/

namespace Classpath

/-- A directive. -/
structure LogDirective where
  target : Option (List Char) := none
  span : Option (List Char) := none
  field : Option LogField := none
  level : LogLevel := .trace
  deriving DecidableEq, Repr

namespace LogDirective

/-! ### Reading -/

/-- Whether a target may start with a character. -/
def isTargetStart (c : Char) : Bool :=
  c = '-' || c = ':' || c = '_' || isAlphanumeric c

/-- The position of the first of some marks, at `start` or after it. -/
def markAfter? (marks : List Char) (start : Nat) (s : List Char) : Option Nat :=
  let before := (dropBytes start s).takeWhile (!marks.contains ·)
  if before.length < (dropBytes start s).length then some (start + byteSize before) else none

/-- What stands between two positions. -/
def between (start stop : Nat) (s : List Char) : List Char :=
  takeBytes (stop - start) (dropBytes start s)

/-- The character at a position. -/
def charAt? (position : Nat) (s : List Char) : Option Char :=
  (dropBytes position s).head?

/-- A level that may be left out. -/
def level? (s : List Char) : Option LogLevel :=
  if s.isEmpty then some .trace else LogLevel.ofText? s

/-- The end of a directive, after its target, span and field. -/
def finish? (d : LogDirective) (raw s : List Char) (start : Nat) : Option LogDirective :=
  match charAt? start s with
  | none => some d
  | some '=' => (level? (dropBytes (start + 1) raw)).map fun level => { d with level }
  | some _ => none

/-- The field of a span; its brace stands before `start`. -/
def field? (d : LogDirective) (raw s : List Char) (start : Nat) : Option LogDirective := do
  let stop ← markAfter? ['\x7d'] start s
  let field := between start stop raw
  if field.isEmpty || charAt? (stop + 1) s ≠ some ']' then none
  else finish? { d with field := some (← LogField.ofText? field) } raw s (stop + 2)

/-- The span of a directive; its bracket stands before `start`. -/
def span? (d : LogDirective) (raw s : List Char) (start : Nat) : Option LogDirective := do
  let stop ← markAfter? [']', '\x7b'] start s
  let span := between start stop raw
  if charAt? stop s = some ']' then finish? { d with span := some span } raw s (stop + 1)
  else
    field? (if span.isEmpty then d else { d with span := some span }) raw s (stop + 1)

/-- A directive. Its marks are looked for in the text `s` without surrounding blanks, but its parts
are cut at their positions, which count bytes, from the text `raw` as it stands: blanks before a
directive shift them. -/
def parse? (raw : List Char) : Option LogDirective :=
  let s := trim raw
  match s with
  | [] => none
  | '[' :: _ => span? {} raw s 1
  | c :: _ =>
    if !isTargetStart c then none
    else
      match markAfter? ['=', '['] 0 s with
      | none =>
        match LogLevel.ofText? raw with
        | some level => some { level }
        | none => some { target := some raw }
      | some stop =>
        let d : LogDirective := { target := some (between 0 stop raw) }
        if charAt? stop s = some '[' then span? d raw s (stop + 1) else finish? d raw s stop

/-! ### Order and text -/

/-- The order from less to more specific: a longer target counts most, then a span, then a field. -/
def compare (a b : LogDirective) : Ordering :=
  ((((compareOption Ord.compare (a.target.map byteSize) (b.target.map byteSize)).then
    (Ord.compare a.span.isSome b.span.isSome)).then
    (Ord.compare a.field.isSome b.field.isSome)).then
    (compareOption compareText a.target b.target)).then
    ((compareOption compareText a.span b.span).then
      (compareOption LogField.compare a.field b.field))

/-- A directive as it is written. -/
def text (d : LogDirective) : List Char :=
  let inside := d.span.getD [] ++ d.field.elim [] fun f => ['\x7b'] ++ f.text ++ ['\x7d']
  let place :=
    d.target.getD []
      ++ (if d.span.isSome || d.field.isSome then ['['] ++ inside ++ [']'] else [])
  let hasPlace := d.target.isSome || d.span.isSome || d.field.isSome
  place ++ (if hasPlace then ['='] else []) ++ d.level.label.toList

/-- Whether a directive can only be decided while the program runs. -/
def isDynamic (d : LogDirective) : Bool :=
  d.span.isSome || d.field.isSome

/-- The part of a directive that can be decided beforehand. -/
def static? (d : LogDirective) : Option LogDirective :=
  if d.span.isSome || (d.field.bind (·.value)).isSome then none else some d

/-- A directive put in its place, the more specific ones first. It replaces the one that differs from
it in the level only. -/
def insert (d : LogDirective) : List LogDirective → List LogDirective
  | [] => [d]
  | e :: rest =>
    match compare d e with
    | .gt => d :: e :: rest
    | .eq => d :: rest
    | .lt => e :: insert d rest

/-- Directives in order; of two that differ in the level only the later counts. -/
def ordered (ds : List LogDirective) : List LogDirective :=
  ds.foldl (fun sorted d => insert d sorted) []

end LogDirective

end Classpath

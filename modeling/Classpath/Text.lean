/-!
# Characters and cuts

The few operations on text that the rest of the library is written with. Text is cut as a list of
characters: a cut returns the pieces around a separator, `none` says that the separator does not
occur, and no cut here counts positions.

* `Classpath.isBlank` – Unicode's `White_Space` property, the only notion of blank used here.
* `Classpath.trim`, `Classpath.words` – trimming and splitting at blanks.
* `Classpath.cutAt?`, `Classpath.cutAtLast?`, `Classpath.cutAtWord?` – the pieces before and after
  the first or last occurrence of a separator.
* `Classpath.lines` – the lines of a text, without their ends.
* `Classpath.compareText`, `Classpath.compareOption` – the order of texts and of what may be missing.
-/

namespace Classpath

/-! ### Blanks -/

/-- The characters with Unicode's `White_Space` property. -/
def isBlank (c : Char) : Bool :=
  let n := c.toNat
  (0x9 ≤ n && n ≤ 0xD) || n == 0x20 || n == 0x85 || n == 0xA0 || n == 0x1680
    || (0x2000 ≤ n && n ≤ 0x200A) || n == 0x2028 || n == 0x2029 || n == 0x202F
    || n == 0x205F || n == 0x3000

/-- A text without its leading blanks. -/
def trimStart (s : List Char) : List Char :=
  s.dropWhile isBlank

/-- A text without its trailing blanks. -/
def trimEnd (s : List Char) : List Char :=
  (s.reverse.dropWhile isBlank).reverse

/-- A text without its leading and trailing blanks. -/
def trim (s : List Char) : List Char :=
  trimEnd (trimStart s)

/-- The maximal blank-free pieces of a text, in order. -/
def words (s : List Char) : List (List Char) :=
  (s.splitOnP isBlank).filter (!·.isEmpty)

/-! ### Cuts -/

/-- The pieces before and after the first `sep`. -/
def cutAt? (sep : Char) : List Char → Option (List Char × List Char)
  | [] => none
  | c :: rest =>
    if c = sep then some ([], rest)
    else (cutAt? sep rest).map fun (before, after) => (c :: before, after)

/-- The pieces and the separator between them make up the text. -/
theorem eq_append_of_cutAt?_eq_some {sep : Char} {s before after : List Char}
    (h : cutAt? sep s = some (before, after)) : s = before ++ sep :: after := by
  fun_induction cutAt? sep s generalizing before after with
  | case1 => simp at h
  | case2 =>
    obtain ⟨rfl, rfl⟩ := Prod.mk.inj (Option.some.inj h)
    simp
  | case3 c rest hc ih =>
    obtain ⟨⟨b, a⟩, hb, heq⟩ := Option.map_eq_some_iff.1 h
    obtain ⟨rfl, rfl⟩ := Prod.mk.inj heq
    rw [ih hb, List.cons_append]

/-- The pieces before and after the last `sep`. -/
def cutAtLast? (sep : Char) : List Char → Option (List Char × List Char)
  | [] => none
  | c :: rest =>
    match cutAtLast? sep rest with
    | some (before, after) => some (c :: before, after)
    | none => if c = sep then some ([], rest) else none

/-- The pieces before and after the first place where `word` stands. -/
def cutAtWord? (word : List Char) : List Char → Option (List Char × List Char)
  | [] => (word.isPrefixOf? []).map fun after => ([], after)
  | c :: rest =>
    match word.isPrefixOf? (c :: rest) with
    | some after => some ([], after)
    | none => (cutAtWord? word rest).map fun (before, after) => (c :: before, after)

/-- A text with every `old` replaced by `new`. -/
def replaceChar (old new : Char) (s : List Char) : List Char :=
  s.map fun c => if c = old then new else c

/-! ### Lines -/

/-- The line without the carriage return that may end it. -/
def withoutReturn (line : List Char) : List Char :=
  (['\r'].isSuffixOf? line).getD line

/-- The lines of a text. A line ends at a line feed or at a return followed by one; what follows
the last line feed is a line only if it is not empty, and keeps its return. -/
def lines (s : List Char) : List (List Char) :=
  let pieces := s.splitOn '\n'
  let ended := pieces.dropLast.map withoutReturn
  match pieces.getLast? with
  | none => ended
  | some last => if last.isEmpty then ended else ended ++ [last]

/-! ### Order -/

/-- Optional things: none comes before any. -/
def compareOption {α : Type} (compare : α → α → Ordering) : Option α → Option α → Ordering
  | none, none => .eq
  | none, some _ => .lt
  | some _, none => .gt
  | some a, some b => compare a b

/-- Texts in the order of their characters. -/
def compareText (a b : List Char) : Ordering :=
  Ord.compare (String.ofList a) (String.ofList b)

/-! ### Decimal and hexadecimal text -/

/-- The value of a decimal digit. -/
def digit? (c : Char) : Option Nat :=
  if '0' ≤ c ∧ c ≤ '9' then some (c.toNat - '0'.toNat) else none

/-- The value of a hexadecimal digit. -/
def hexDigit? (c : Char) : Option Nat :=
  if 'a' ≤ c ∧ c ≤ 'f' then some (c.toNat - 'a'.toNat + 10)
  else if 'A' ≤ c ∧ c ≤ 'F' then some (c.toNat - 'A'.toNat + 10)
  else digit? c

/-- The text of a number in base 16, lower case, padded with zeros to `width` digits. -/
def hexText (width n : Nat) : String :=
  let digits := Nat.toDigits 16 n
  String.ofList (List.replicate (width - digits.length) '0' ++ digits)

end Classpath

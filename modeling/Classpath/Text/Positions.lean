/-!
# Positions in text

A position in a text counts the bytes before it, of which a character takes one to four. A position
inside a character is one after it.

* `Classpath.takeBytes`, `Classpath.dropBytes` – the text before and after a position.
* `Classpath.takeBytes_append_dropBytes` – the two make up the text.
-/

namespace Classpath

/-- The number of bytes of a text. -/
def byteSize (s : List Char) : Nat :=
  s.foldr (fun c n => c.utf8Size + n) 0

/-- The text before a position. -/
def takeBytes : Nat → List Char → List Char
  | 0, _ => []
  | _, [] => []
  | n + 1, c :: rest => c :: takeBytes (n + 1 - c.utf8Size) rest

/-- The text after a position. -/
def dropBytes : Nat → List Char → List Char
  | 0, s => s
  | _, [] => []
  | n + 1, c :: rest => dropBytes (n + 1 - c.utf8Size) rest

/-- The text before a position and the text after it make up the text. -/
theorem takeBytes_append_dropBytes (n : Nat) (s : List Char) :
    takeBytes n s ++ dropBytes n s = s := by
  fun_induction takeBytes n s with
  | case1 => simp [dropBytes]
  | case2 => simp [dropBytes]
  | case3 n c rest ih => simp [dropBytes, ih]

end Classpath

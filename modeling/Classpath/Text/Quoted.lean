import Classpath.Text
import Classpath.Text.Invisible

/-!
# Quoted text

Text and characters as they are shown to the reader of an error: between quotes, with an escape for
every character that would not be seen or would end the quotation.

* `Classpath.quotedText`, `Classpath.quotedChar` – the two quotations.
-/

namespace Classpath

/-- A character between the given quotes. -/
def escaped (quote c : Char) : List Char :=
  if c = quote || c = '\\' then ['\\', c]
  else if c = '\x00' then ['\\', '0']
  else if c = '\t' then ['\\', 't']
  else if c = '\n' then ['\\', 'n']
  else if c = '\r' then ['\\', 'r']
  else if isInvisible c then
    ['\\', 'u', '\x7b'] ++ (hexText 1 c.toNat).toList ++ ['\x7d']
  else [c]

/-- A text between double quotes. -/
def quotedText (s : String) : String :=
  String.ofList (['"'] ++ s.toList.flatMap (escaped '"') ++ ['"'])

/-- A character between single quotes. -/
def quotedChar (c : Char) : String :=
  String.ofList (['\x27'] ++ escaped '\x27' c ++ ['\x27'])

end Classpath

/-
  Quoted words: a word between quotes, in which the quote and the backslash are written after a
  backslash and characters that show nothing as escapes. The quote is an apostrophe, or a double one
  for a word that holds an apostrophe and no double quote.
-/
import ApertureSynthesis.Text.Number
import ApertureSynthesis.Text.Shown

namespace ApertureSynthesis.Text

/-- The single quote. -/
def apostrophe : Char := Char.ofNat 39

/-- A number in `width` hexadecimal digits at least. -/
def hex (width n : Nat) : String := padZeros width (String.ofList (Nat.toDigits 16 n))

/-- A character of a word between given quotes. -/
def quotedChar (quote c : Char) : String :=
  if c = quote || c = '\\' then String.ofList ['\\', c]
  else if c = '\n' then "\\n"
  else if c = '\r' then "\\r"
  else if c = '\t' then "\\t"
  else if isShown c then c.toString
  else if c.toNat < 0x100 then "\\x" ++ hex 2 c.toNat
  else if c.toNat < 0x10000 then "\\u" ++ hex 4 c.toNat
  else "\\U" ++ hex 8 c.toNat

/-- The quote for a word. -/
def quoteFor (s : String) : Char :=
  if s.contains apostrophe && !s.contains '"' then '"' else apostrophe

/-- A word in quotes. -/
def quoted (s : String) : String :=
  let quote := quoteFor s
  quote.toString ++ String.join (s.toList.map (quotedChar quote)) ++ quote.toString

end ApertureSynthesis.Text

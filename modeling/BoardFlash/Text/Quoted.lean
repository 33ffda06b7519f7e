import BoardFlash.Text.Extender
import BoardFlash.Text.Hex
import BoardFlash.Text.Ignorable
import BoardFlash.Text.Unprintable

/-!
# Quoted text

A text between double quotes. A quote, a backslash and all that could not be
seen in its place are written as escapes, so that the quoted text is one line
and shows every character in it.
-/

namespace BoardFlash

namespace Text

/-- The number in as few hexadecimal digits as it takes. -/
def hexNumber (n : Nat) : List Char :=
  if n < 16 then [Hex.digit n] else hexNumber (n / 16) ++ [Hex.digit (n % 16)]

/-- The character leaves no mark or changes the one in front. -/
def isHidden (c : Char) : Bool := isUnprintable c || isExtender c || isIgnorable c

def escaped (c : Char) : List Char :=
  if c = '"' ∨ c = '\\' then ['\\', c]
  else if c = '\n' then ['\\', 'n']
  else if c = '\r' then ['\\', 'r']
  else if c = '\t' then ['\\', 't']
  else if c = Char.ofNat 0 then ['\\', '0']
  else if isHidden c then ['\\', 'u', '\x7b'] ++ hexNumber c.toNat ++ ['\x7d']
  else [c]

def quoted (text : String) : String :=
  "\"" ++ String.ofList (text.toList.flatMap escaped) ++ "\""

end Text

end BoardFlash

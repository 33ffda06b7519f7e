/-!
# Coloured terminal text

A style is switched on by an escape sequence before the text and everything
is switched off behind it. Where colours are off the text stands alone.
-/

namespace BoardFlash

namespace Terminal

inductive Style where
  | red
  | green
  | yellow
  | cyan
  | bold
  | onRed
  deriving DecidableEq, Repr

def Style.code : Style → Nat
  | .red => 31
  | .green => 32
  | .yellow => 33
  | .cyan => 36
  | .bold => 1
  | .onRed => 41

def escape (code : Nat) : String := s!"\x1b[{code}m"

/-- The text in the given styles, if there are colours at all. -/
def styled (colors : Bool) (styles : List Style) (text : String) : String :=
  if colors then String.join (styles.map fun s => escape s.code) ++ text ++ escape 0 else text

/-- The number in at least `width` places, blanks in front. -/
def padded (width n : Nat) : String :=
  let digits := toString n
  String.ofList (List.replicate (width - digits.length) ' ') ++ digits

end Terminal

end BoardFlash

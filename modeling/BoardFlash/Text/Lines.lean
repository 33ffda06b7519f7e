/-!
# Lines

A line ends with a line feed, or with a carriage return and a line feed; both
belong to none of the lines. Behind the last line feed there is one more line
only if anything is there. The symbols are characters or bytes.
-/

namespace BoardFlash

namespace Text

variable {α : Type} [DecidableEq α]

/-- The line, given backwards, that a line feed ended. -/
def ended (cr : α) : List α → List α
  | [] => []
  | a :: more => if a = cr then more.reverse else (a :: more).reverse

/-- The lines, where `line` is the beginning of the first one, backwards. -/
def linesFrom (cr lf : α) (line : List α) : List α → List (List α)
  | [] => if line.isEmpty then [] else [line.reverse]
  | a :: rest =>
    if a = lf then ended cr line :: linesFrom cr lf [] rest else linesFrom cr lf (a :: line) rest

def lines (text : List Char) : List (List Char) := linesFrom '\r' '\n' [] text

def byteLines (bytes : List UInt8) : List (List UInt8) := linesFrom 13 10 [] bytes

end Text

end BoardFlash

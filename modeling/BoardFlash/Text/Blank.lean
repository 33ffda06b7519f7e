import BoardFlash.Text.Ranges

/-!
# White space

The characters with the Unicode property `White_Space`, and the removal of
what stands blank at the ends of a text.
-/

namespace BoardFlash

namespace Text

/-- The ranges of the property, first and last code point of each. -/
def blankRanges : List (Nat × Nat) :=
  [(0x09, 0x0D), (0x20, 0x20), (0x85, 0x85), (0xA0, 0xA0), (0x1680, 0x1680), (0x2000, 0x200A),
    (0x2028, 0x2029), (0x202F, 0x202F), (0x205F, 0x205F), (0x3000, 0x3000)]

def isBlank (c : Char) : Bool := covers blankRanges c

def trimLeft (text : List Char) : List Char := text.dropWhile isBlank

/-- The text without the characters at its end for which `p` holds. -/
def dropEndWhile (p : Char → Bool) (text : List Char) : List Char :=
  (text.reverse.dropWhile p).reverse

def trimRight (text : List Char) : List Char := dropEndWhile isBlank text

def trim (text : List Char) : List Char := trimRight (trimLeft text)

end Text

end BoardFlash

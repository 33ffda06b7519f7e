/-!
# Filling lines

A text is broken into lines of a given width, each of which holds as many
words as fit. Blanks stay as they are between two words of one line and are
dropped where a line is broken.
-/

namespace BoardFlash

namespace Text

/-- The parts between the separators; there is one part more than
separators. -/
def split (separator : Char) : List Char → List (List Char)
  | [] => [[]]
  | c :: rest =>
    if c = separator then [] :: split separator rest
    else
      match split separator rest with
      | part :: parts => (c :: part) :: parts
      | [] => [[c]]

/-- Continues a line of which `line` is there, with `gap` blanks behind it. An
empty word stands for one blank more. -/
def fillFrom (width : Nat) (line : List Char) (gap : Nat) : List (List Char) → List (List Char)
  | [] => [line]
  | [] :: rest => fillFrom width line (gap + 1) rest
  | word :: rest =>
    if line.length + gap + word.length ≤ width then
      fillFrom width (line ++ List.replicate gap ' ' ++ word) 1 rest
    else line :: fillFrom width word 1 rest

/-- The lines of one paragraph. -/
def fill (width : Nat) (paragraph : List Char) : List (List Char) :=
  fillFrom width [] 0 (split ' ' paragraph)

/-- The lines of a text in which every line feed ends a paragraph. -/
def filled (width : Nat) (text : String) : List String :=
  ((split '\n' text.toList).flatMap (fill width)).map String.ofList

end Text

end BoardFlash

import BoardFlash.CommandLine.Vocabulary
import BoardFlash.Text.Fill

/-!
# Help

The help text says what the program does and what can be given on its command
line. It comes in two lengths: in full, more is said of some of the entries.
No line is longer than `Help.width` unless a word is.
-/

namespace BoardFlash

namespace CommandLine

namespace Help

def width : Nat := 80

/-- The columns in front of what is said of an entry. -/
def indent : Nat := 12

def creator : String := "Abdessattar Sassi <457645+abdes@users.noreply.github.com>"

def story : String :=
  "\n" ++
  "Flashcom pushes a firmware image to a set of boards sharing one serial link. Every board " ++
  "gets an update request with the number of chunks in the image and the HMAC-SHA256 digest " ++
  "of the whole image, then the image itself, one chunk at a time. A chunk is sent again when " ++
  "the board refuses it, up to the configured number of transmissions.\n" ++
  "\n" ++
  "Boards are updated one after the other unless `--parallel` is given. With `--cli`, lines " ++
  "typed on stdin are sent to the board selected with `--cli-board` and what the boards print " ++
  "is shown, until `end` is typed.\n" ++
  "\n" ++
  "Ctrl+C cancels all the updates and shuts down gracefully; a second Ctrl+C exits immediately."

/-- The line that names an entry. -/
def heading (e : Entry) : String :=
  match e.short, e.long with
  | some c, some _ => "    -" ++ String.singleton c ++ ", " ++ e.label
  | none, some _ => "        " ++ e.label
  | _, none => "    " ++ e.label

/-- All that is said of an entry, in one paragraph. -/
def remark (full : Bool) (e : Entry) : String :=
  (if full then e.story.getD e.about else e.about) ++
    " ".intercalate
      ((e.initial.map fun v => " [default: " ++ v ++ "]").toList ++
        if e.words.isEmpty then []
        else [" [possible values: " ++ ", ".intercalate e.words ++ "]"])

/-- The lines of an entry; a remark of one line is followed by a blank line. -/
def entryLines (full : Bool) (e : Entry) : List String :=
  let lines := Text.filled (width - indent) (remark full e)
  heading e :: lines.map (String.ofList (List.replicate indent ' ') ++ ·) ++
    if lines.length ≤ 1 then [""] else []

def block (full : Bool) (title : String) (entries : List Entry) : List String :=
  title :: entries.flatMap (entryLines full)

def usage : String :=
  "    " ++ programName ++ " [FLAGS] [OPTIONS] " ++
    " ".intercalate (Operand.all.map fun o => o.entry.label)

/-- The help text, in full or shorter. -/
def lines (full : Bool) : List String :=
  [signature, creator] ++
  Text.filled width story ++
  ["", "USAGE:", usage, ""] ++
  block full "FLAGS:" (Switch.all.map Switch.entry) ++ [""] ++
  block full "OPTIONS:" (Parameter.all.map Parameter.entry) ++ [""] ++
  block full "ARGS:" (Operand.all.map Operand.entry)

end Help

end CommandLine

end BoardFlash

/-!
# Log records

What a unit has to say about its work, beside what it prints for the
operator.
-/

namespace BoardFlash

namespace Log

/-- How much a record matters, the most urgent level first. -/
inductive Level where
  | error
  | warn
  | info
  | debug
  | trace
  deriving DecidableEq, Repr

namespace Level

def name : Level → String
  | .error => "ERROR"
  | .warn => "WARN"
  | .info => "INFO"
  | .debug => "DEBUG"
  | .trace => "TRACE"

def rank : Level → Nat
  | .error => 1
  | .warn => 2
  | .info => 3
  | .debug => 4
  | .trace => 5

end Level

structure Record where
  level : Level
  text : String
  deriving DecidableEq, Repr

/-- The record as one line, its level first. -/
def Record.line (r : Record) : String := r.level.name ++ " " ++ r.text

/-! ## The time of a record -/

def twoDigits (n : Nat) : String :=
  let digits := toString n
  if digits.length < 2 then "0" ++ digits else digits

/-- The time of day, so many seconds after some midnight. -/
def timeOfDay (seconds : Nat) : String :=
  ":".intercalate
    [twoDigits (seconds / 3600 % 24), twoDigits (seconds / 60 % 60), twoDigits (seconds % 60)]

end Log

end BoardFlash

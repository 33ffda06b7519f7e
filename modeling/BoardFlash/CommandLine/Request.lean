import BoardFlash.CommandLine.Vocabulary

/-!
# Reading the command line

The arguments are read from the left; the first one that cannot be read, or
that asks for help or the version, ends the reading (`Request.read`). Only
what could be read as a whole is checked: that nothing is missing, that
values are among the words allowed, and that nothing was said twice.
-/

namespace BoardFlash

namespace CommandLine

/-- What is wrong with the arguments. -/
inductive Fault where
  | unexpected (argument : String)
  | noValue (parameter : Parameter)
  | badWord (parameter : Parameter) (value : String)
  | repeated (label : String)
  | missing
  deriving DecidableEq, Repr

def Fault.message : Fault → String
  | .unexpected argument =>
    "Found argument '" ++ argument ++ "' which wasn't expected, or isn't valid in this context"
  | .noValue p =>
    "The argument '" ++ p.entry.label ++ "' requires a value but none was supplied"
  | .badWord p value => "'" ++ value ++ "' isn't a valid value for '" ++ p.entry.label ++ "'"
  | .repeated label =>
    "The argument '" ++ label ++ "' was provided more than once, but cannot be used multiple times"
  | .missing => "The following required arguments were not provided:"

/-- Why nothing is to be done beyond an answer to the user. -/
inductive Stop where
  | help (full : Bool)
  | version
  | fault (fault : Fault)
  deriving DecidableEq, Repr

/-- What the user has said, in order. -/
structure Request where
  values : List (Parameter × String) := []
  switches : List Switch := []
  operands : List String := []
  deriving DecidableEq, Repr

namespace Request

/-! ## One argument -/

/-- A parameter gets its value, less the equals signs in front of it. -/
def give (r : Request) (p : Parameter) (value : List Char) : Except Stop Request :=
  match value.dropWhile (· = '=') with
  | [] => .error (.fault (.noValue p))
  | value => .ok { r with values := r.values ++ [(p, String.ofList value)] }

/-- A switch is turned; `full` says how much help is wanted. -/
def turn (r : Request) (full : Bool) : Switch → Except Stop Request
  | .help => .error (.help full)
  | .version => .error .version
  | s => .ok { r with switches := r.switches ++ [s] }

/-- A long argument: all its leading dashes are dropped, and a switch does not
look at a value. -/
def addLong (r : Request) (argument : List Char) : Except Stop Request :=
  let text := argument.dropWhile (· = '-')
  let name := String.ofList (text.takeWhile (· ≠ '='))
  match Parameter.ofLong? name, Switch.ofLong? name with
  | some p, _ => r.give p (text.dropWhile (· ≠ '='))
  | none, some s => r.turn true s
  | none, none => .error (.fault (.unexpected ("--" ++ name)))

/-- A cluster of short switches, of which the last may be a parameter. -/
def addShort (r : Request) : List Char → Except Stop Request
  | [] => .ok r
  | c :: rest =>
    match Parameter.ofShort? c, Switch.ofShort? c with
    | some p, _ => if rest.head? = some '=' then r.give p rest else .error (.fault (.noValue p))
    | none, some s =>
      match r.turn false s with
      | .ok r => r.addShort rest
      | .error stop => .error stop
    | none, none => .error (.fault (.unexpected ("-" ++ String.singleton c)))

def addOperand (r : Request) (argument : String) : Except Stop Request :=
  if r.operands.length < Operand.all.length then
    .ok { r with operands := r.operands ++ [argument] }
  else .error (.fault (.unexpected argument))

/-- The argument is no separator. A dash alone is an operand. -/
def add (r : Request) (argument : String) : Except Stop Request :=
  match argument.toList with
  | '-' :: '-' :: rest => r.addLong rest
  | ['-'] => r.addOperand argument
  | '-' :: rest => r.addShort rest
  | _ => r.addOperand argument

/-! ## All arguments -/

/-- Two dashes separate: behind them all arguments are operands
(`operandsOnly`). -/
def addAll (r : Request) (operandsOnly : Bool) : List String → Except Stop Request
  | [] => .ok r
  | argument :: rest =>
    if !operandsOnly && argument == "--" then r.addAll true rest
    else
      match if operandsOnly then r.addOperand argument else r.add argument with
      | .ok r => r.addAll operandsOnly rest
      | .error stop => .error stop

/-! ## What was said as a whole -/

def valuesOf (r : Request) (p : Parameter) : List String :=
  (r.values.filter (·.1 = p)).map (·.2)

/-- The value of a parameter, which may be its initial one. -/
def value? (r : Request) (p : Parameter) : Option String := (r.valuesOf p).head? <|> p.entry.initial

/-- All operands are there, and a board is only named for the interactive
channel if that is open. -/
def complete (r : Request) : Bool :=
  r.operands.length == Operand.all.length &&
    ((r.valuesOf .cliBoard).isEmpty || r.switches.contains .cli)

def parameterFault? (r : Request) (p : Parameter) : Option Fault :=
  let words := p.entry.words
  match (r.valuesOf p).find? (fun v => !words.isEmpty && !words.contains v) with
  | some v => some (.badWord p v)
  | none => if 1 < (r.valuesOf p).length then some (.repeated p.entry.label) else none

/-- Only the verbosity grows with every time that its switch is given. -/
def switchFault? (r : Request) (s : Switch) : Option Fault :=
  if s ≠ .verbose ∧ 1 < r.switches.count s then some (.repeated s.entry.label) else none

def fault? (r : Request) : Option Fault :=
  if !r.complete then some .missing
  else Parameter.all.findSome? r.parameterFault? <|> Switch.all.findSome? r.switchFault?

/-- What the user has said in the arguments. -/
def read (arguments : List String) : Except Stop Request :=
  match ({} : Request).addAll false arguments with
  | .error stop => .error stop
  | .ok r =>
    match r.fault? with
    | some fault => .error (.fault fault)
    | none => .ok r

/-- How often more to be logged was asked for. -/
def verbosity (r : Request) : Nat := r.switches.count .verbose

end Request

end CommandLine

end BoardFlash

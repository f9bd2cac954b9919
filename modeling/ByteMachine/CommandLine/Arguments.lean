import ByteMachine.Text.ControlSequence

/-!
The arguments of the command line, taken from left to right. An option that wants a value waits
for it, and what waits is settled when the next option, program or end is reached. The first
problem counts, and so does the first call for help.
-/

namespace ByteMachine.CommandLine

/-- Options with a value. -/
inductive Setting where
  | config
  | maxSteps
  deriving DecidableEq

/-- Options without a value that change what is done. -/
inductive Switch where
  | strictRegisters
  | trace
  | disassemble
  | stats
  deriving DecidableEq

/-- Options that put a text in the place of everything else. -/
inductive Page where
  | shortHelp
  | longHelp
  | version
  deriving DecidableEq

inductive CountError where
  | empty
  | invalidDigit
  | tooLarge
  deriving DecidableEq

inductive ArgumentError where
  | programMissing
  | unexpected (argument : String)
  | unwantedValue (option value : String)
  | valueMissing (argument : String)
  | repeated (argument : String)
  | invalidCount (value : String) (error : CountError)
  deriving DecidableEq

/-- What is asked for when all is well. -/
structure Options where
  program : String
  config : Option String
  maxSteps : Option UInt64
  switches : List Switch
  deriving DecidableEq

inductive Request where
  | run (o : Options)
  | page (p : Page)
  deriving DecidableEq

namespace Setting

def name : Setting → String
  | config => "--config"
  | maxSteps => "--max-steps"

/-- The option as it stands in messages. -/
def usage : Setting → String
  | config => "--config <FILE>"
  | maxSteps => "--max-steps <N>"

end Setting

def Switch.name : Switch → String
  | strictRegisters => "--strict-registers"
  | trace => "--trace"
  | disassemble => "--disassemble"
  | stats => "--stats"

def programUsage : String := "<PROGRAM>"

def CountError.message : CountError → String
  | empty => "cannot parse integer from empty string"
  | invalidDigit => "invalid digit found in string"
  | tooLarge => "number too large to fit in target type"

/-- An argument between quotes, as a terminal shows it. -/
def quoted (argument : String) : String := "'" ++ ControlSequence.strip argument ++ "'"

def ArgumentError.message : ArgumentError → String
  | programMissing => "the following required arguments were not provided:"
  | unexpected a => "unexpected argument " ++ quoted a ++ " found"
  | unwantedValue o v =>
    "unexpected value " ++ quoted v ++ " for " ++ quoted o ++ " found; no more were expected"
  | valueMissing a => "a value is required for " ++ quoted a ++ " but none was supplied"
  | repeated a => "the argument " ++ quoted a ++ " cannot be used multiple times"
  | invalidCount v e =>
    "invalid value " ++ quoted v ++ " for " ++ quoted Setting.maxSteps.usage ++ ": " ++ e.message

/-- Appends decimal digits to a count below `2 ^ 64`. -/
def countDigits (n : Nat) : List Char → Except CountError Nat
  | [] => .ok n
  | c :: digits =>
    if ¬ c.isDigit then .error .invalidDigit
    else
      let next := 10 * n + (c.toNat - '0'.toNat)
      if next < UInt64.size then countDigits next digits else .error .tooLarge

/-- A count may begin with a plus sign and with zeros. -/
def count : List Char → Except CountError Nat
  | [] => .error .empty
  | ['+'] => .error .invalidDigit
  | '+' :: digits => countDigits 0 digits
  | digits => countDigits 0 digits

/-- What waits to be settled. -/
inductive Waiting where
  | nothing
  | program (path : String)
  | setting (s : Setting) (value : Option String)
  deriving DecidableEq

/-- How far the arguments have been taken. -/
structure Progress where
  program : Option String := none
  config : Option String := none
  maxSteps : Option UInt64 := none
  switches : List Switch := []
  waiting : Waiting := .nothing
  /-- After `--` no argument is an option. -/
  plain : Bool := false

/-- Why no more arguments are looked at. -/
inductive Interrupt where
  | failed (e : ArgumentError)
  | shown (p : Page)

abbrev Step := Except Interrupt Progress

def fail {α : Type} (e : ArgumentError) : Except Interrupt α := .error (.failed e)

namespace Progress

def setProgram (p : Progress) (path : String) : Step :=
  if path = "" then fail (.valueMissing programUsage)
  else .ok { p with program := some path, waiting := .nothing }

def setConfig (p : Progress) (path : String) : Step :=
  if p.config.isSome then fail (.repeated Setting.config.usage)
  else if path = "" then fail (.valueMissing Setting.config.usage)
  else .ok { p with config := some path, waiting := .nothing }

def setMaxSteps (p : Progress) (value : String) : Step :=
  if p.maxSteps.isSome then fail (.repeated Setting.maxSteps.usage)
  else
    match count value.toList with
    | .error e => fail (.invalidCount value e)
    | .ok n => .ok { p with maxSteps := some (UInt64.ofNat n), waiting := .nothing }

def set (p : Progress) : Setting → String → Step
  | .config, value => p.setConfig value
  | .maxSteps, value => p.setMaxSteps value

/-- Gives what waits its place. -/
def settle (p : Progress) : Step :=
  match p.waiting with
  | .nothing => .ok p
  | .program path => p.setProgram path
  | .setting s none => fail (.valueMissing s.usage)
  | .setting s (some value) => p.set s value

def turnOn (p : Progress) (s : Switch) : Step := do
  let p ← p.settle
  if s ∈ p.switches then fail (.repeated s.name)
  else .ok { p with switches := s :: p.switches }

def showPage (p : Progress) (page : Page) : Step := do
  let _ ← p.settle
  .error (.shown page)

/-- An argument that is no option: the value that is waited for, or the program. -/
def takePlain (p : Progress) (argument : String) : Step :=
  let hasProgram : Bool :=
    match p.program, p.waiting with
    | some _, _ => true
    | none, .program _ => true
    | _, _ => false
  if hasProgram then fail (.unexpected argument)
  else do
    let p ← p.settle
    .ok { p with waiting := .program argument }

def setting? (name : String) : Option Setting := [Setting.config, .maxSteps].find? (·.name = name)

def switch? (name : String) : Option Switch :=
  [Switch.strictRegisters, .trace, .disassemble, .stats].find? (·.name = name)

def page? (name : String) : Option Page :=
  if name = "--help" then some .longHelp
  else if name = "--version" then some .version
  else none

def takeSetting (p : Progress) (s : Setting) : Option String → Step
  | some value => do (← p.settle).set s value
  | none => do
    let p ← p.settle
    .ok { p with waiting := .setting s none }

/-- An option by its name, and the value after an equals sign. -/
def takeOption (p : Progress) (name : String) (value : Option String) : Step :=
  match setting? name, switch? name, page? name, value with
  | some s, _, _, value => p.takeSetting s value
  | _, some s, _, none => p.turnOn s
  | _, _, some page, none => p.showPage page
  | _, none, none, _ => fail (.unexpected name)
  | _, _, _, some v => fail (.unwantedValue name v)

/-- Options of one letter, which may stand together. Each of them ends the matter. -/
def takeLetters (p : Progress) : List Char → Step
  | [] => .ok p
  | 'h' :: _ => p.showPage .shortHelp
  | 'V' :: _ => p.showPage .version
  | c :: _ => fail (.unexpected (String.ofList ['-', c]))

/-- The parts before and after the first equals sign. -/
def splitValue (argument : List Char) : String × Option String :=
  match argument.span (· ≠ '=') with
  | (name, []) => (String.ofList name, none)
  | (name, _ :: value) => (String.ofList name, some (String.ofList value))

def takeFree (p : Progress) (argument : String) : Step :=
  match p.waiting with
  | .setting s none => .ok { p with waiting := .setting s (some argument) }
  | _ => p.takePlain argument

def take (p : Progress) (argument : String) : Step :=
  if p.plain then p.takePlain argument
  else
    match argument.toList with
    | ['-', '-'] => .ok { p with plain := true }
    | '-' :: '-' :: rest =>
      let (name, value) := splitValue ('-' :: '-' :: rest)
      p.takeOption name value
    | '-' :: c :: letters => p.takeLetters (c :: letters)
    | _ => p.takeFree argument

def finish (p : Progress) : Except Interrupt Options := do
  let p ← p.settle
  match p.program with
  | none => fail .programMissing
  | some program => .ok ⟨program, p.config, p.maxSteps, p.switches⟩

end Progress

def Request.ofArguments (arguments : List String) : Except ArgumentError Request :=
  match (arguments.foldlM Progress.take {}).bind Progress.finish with
  | .ok o => .ok (.run o)
  | .error (.shown p) => .ok (.page p)
  | .error (.failed e) => .error e

end ByteMachine.CommandLine

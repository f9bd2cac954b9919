import ByteMachine.CommandLine.Page
import ByteMachine.Config.Reader
import ByteMachine.Counters.Summary
import ByteMachine.Log.Setting
import ByteMachine.Simulator
import ByteMachine.Sink

/-!
One call of the program: what it writes and how it exits, given its arguments, what can be read
from files, and the log setting. The time that a run took is left open.
-/

namespace ByteMachine.CommandLine

/-- What is written on the side of the output proper. -/
inductive Diagnostic where
  | text (lines : String)
  | logged (event : Event)
  | hostTime
  deriving DecidableEq

structure Response where
  exitCode : UInt32
  output : Array UInt8
  diagnostics : List Diagnostic

/-- What the contents of a path are. -/
abbrev Files := String → Except ReadFailure (Array UInt8)

namespace Options

def Has (o : Options) (s : Switch) : Prop := s ∈ o.switches

instance (o : Options) (s : Switch) : Decidable (o.Has s) := inferInstanceAs (Decidable (_ ∈ _))

/-- The settings of the file with those of the options over them. -/
def override (o : Options) (c : Config) : Config :=
  { c with
    execution :=
      { maxSteps := o.maxSteps.or c.execution.maxSteps
        strictRegisters := o.Has .strictRegisters || c.execution.strictRegisters
        traceInstructions := o.Has .trace || c.execution.traceInstructions } }

def fileConfig (o : Options) (files : Files) : Except ConfigError Config :=
  match o.config with
  | none => .ok {}
  | some path => Config.ofFile path (files path)

/-- Tracing asks for every line, whatever the setting says. -/
def threshold (o : Options) (setting : Option String) : Threshold :=
  if o.Has .trace then some .trace else Threshold.ofSetting setting

end Options

def unlines (lines : List String) : String := String.join (lines.map (· ++ "\n"))

def utf8 (s : String) : Array UInt8 := s.toUTF8.data

def failed (message : String) : Response := ⟨1, #[], [.text message]⟩

def logged (t : Threshold) (events : List Event) : List Diagnostic :=
  (events.filter fun e => t.Admits e.level).map .logged

def summary (c : Counters) : List Diagnostic :=
  Counters.summaryHead.map .text ++ .hostTime :: c.summaryTail.map .text

/-- What follows the bytes of the program in the output. -/
def closing (s : Simulator) (outcome : Outcome) : String :=
  (if outcome = .stopped .halted then "\n" else "") ++ outcome.text ++ "\n" ++ s.report.text

/-- Runs a loaded simulator; `effects` are those of loading. -/
def execute (o : Options) (t : Threshold) (s : Simulator) (effects : List Effect) : Response :=
  let (s, outcome, more) := s.run
  let (output, events) := Sink.console.feed (effects ++ more.toList) #[]
  { exitCode := 0
    output := output ++ utf8 (closing s outcome)
    diagnostics :=
      logged t events.toList ++ if o.Has .stats then summary s.machine.counters else [] }

def list (t : Threshold) (s : Simulator) (effects : List Effect) : Response :=
  let (_, events) := Sink.console.feed effects #[]
  ⟨0, utf8 (unlines s.listing), logged t events.toList⟩

def Options.respond (o : Options) (files : Files) (setting : Option String) : Response :=
  match o.fileConfig files with
  | .error e => failed ("Error loading configuration: " ++ e.message)
  | .ok c =>
    match (Simulator.ofConfig (o.override c)).loadFile o.program (files o.program) with
    | .error e => failed ("Error loading program: " ++ e.message)
    | .ok (s, effects) =>
      let t := o.threshold setting
      if o.Has .disassemble then list t s effects else execute o t s effects

def respond (arguments : List String) (files : Files) (setting : Option String) : Response :=
  match Request.ofArguments arguments with
  | .error e => failed ("error: " ++ e.message)
  | .ok (.page p) => ⟨0, utf8 (unlines p.lines), []⟩
  | .ok (.run o) => o.respond files setting

end ByteMachine.CommandLine

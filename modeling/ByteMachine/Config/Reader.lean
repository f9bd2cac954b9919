import ByteMachine.Config
import ByteMachine.Json.Record
import ByteMachine.ReadFailure

/-!
Settings as a JSON text. A text is taken as a whole, and the bounds are looked at only after it
has been read.
-/

namespace ByteMachine

inductive ConfigError where
  | unreadable (path : String) (failure : ReadFailure)
  | malformed (problem : Json.Problem)
  | invalid (violation : Config.Violation)
  deriving DecidableEq

def ConfigError.message : ConfigError → String
  | unreadable path failure => "could not read config '" ++ path ++ "': " ++ failure.message
  | malformed problem => "invalid config: " ++ problem.message
  | invalid violation => violation.message

namespace Config

open Json

def sizeField : RecordField MemoryConfig where
  key := "size"
  read c text := (readNatural "usize" UInt64.size text).map fun r => ({ c with size := r.1 }, r.2)

def outputPortField : RecordField MemoryConfig where
  key := "output_port"
  read c text :=
    (readNatural "u32" UInt32.size text).map fun r =>
      ({ c with outputPort := UInt32.ofNat r.1 }, r.2)

def memoryShape : Shape MemoryConfig := ⟨"struct MemoryConfig", [sizeField, outputPortField]⟩

def maxStepsField : RecordField ExecutionConfig where
  key := "max_steps"
  read c text :=
    (readOptional (readNatural "u64" UInt64.size) text).map fun r =>
      ({ c with maxSteps := r.1.map UInt64.ofNat }, r.2)

def strictField : RecordField ExecutionConfig where
  key := "strict_registers"
  read c text := (readBoolean text).map fun r => ({ c with strictRegisters := r.1 }, r.2)

def traceField : RecordField ExecutionConfig where
  key := "trace_instructions"
  read c text := (readBoolean text).map fun r => ({ c with traceInstructions := r.1 }, r.2)

def executionShape : Shape ExecutionConfig :=
  ⟨"struct ExecutionConfig", [maxStepsField, strictField, traceField]⟩

/-- A section starts from the defaults, whatever stood before. -/
def memoryField : RecordField Config where
  key := "memory"
  read c text := (memoryShape.read {} text).map fun r => ({ c with memory := r.1 }, r.2)

def executionField : RecordField Config where
  key := "execution"
  read c text := (executionShape.read {} text).map fun r => ({ c with execution := r.1 }, r.2)

def shape : Shape Config := ⟨"struct Config", [memoryField, executionField]⟩

/-- The settings of a text, whether they keep the bounds or not. -/
def readWhole (text : List Char) : Except Problem Config := do
  let (c, rest) ← shape.read {} text
  match skipBlanks rest with
  | [] => .ok c
  | _ => .error (.malformed .trailingCharacters)

def check (c : Config) : Except ConfigError Config :=
  match c.violation? with
  | none => .ok c
  | some v => .error (.invalid v)

def ofText (text : String) : Except ConfigError Config :=
  match readWhole text.toList with
  | .error p => .error (.malformed p)
  | .ok c => c.check

theorem check_eq_ok_iff {c c' : Config} : c.check = .ok c' ↔ c = c' ∧ c.IsValid := by
  rw [check, ← violation?_eq_none_iff]
  rcases c.violation? with _ | v
  · rw [Except.ok.injEq, and_iff_left rfl]
  · exact ⟨nofun, nofun⟩

theorem ofText_eq_ok_iff {text : String} {c : Config} :
    ofText text = .ok c ↔ readWhole text.toList = .ok c ∧ c.IsValid := by
  rw [ofText]
  rcases readWhole text.toList with p | c'
  · exact ⟨nofun, nofun⟩
  · dsimp only
    rw [check_eq_ok_iff, Except.ok.injEq]
    exact ⟨fun ⟨h, hv⟩ => ⟨h, h ▸ hv⟩, fun ⟨h, hv⟩ => ⟨h, h ▸ hv⟩⟩

/-- The settings in what reading the file at `path` gave, which has to be UTF-8. -/
def ofFile (path : String) (contents : Except ReadFailure (Array UInt8)) :
    Except ConfigError Config :=
  match contents with
  | .error e => .error (.unreadable path e)
  | .ok bytes =>
    match String.fromUTF8? ⟨bytes⟩ with
    | none => .error (.unreadable path .notUtf8)
    | some text => ofText text

end Config

end ByteMachine

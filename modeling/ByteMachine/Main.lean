import ByteMachine.CommandLine.Session

/-!
The program: it reads the files that the arguments name, answers, and measures the time that
this took.
-/

namespace ByteMachine

open CommandLine

/-- An answer of the operating system. Its number may come with a minus sign. -/
def systemFailure (code : UInt32) (details : String) : ReadFailure :=
  .system details.capitalize (if code < 0x80000000 then code else 0 - code).toNat

def readFailure : IO.Error → ReadFailure
  | .noFileOrDirectory _ code details => systemFailure code details
  | .inappropriateType _ code details => systemFailure code details
  | .permissionDenied _ code details => systemFailure code details
  | .invalidArgument _ code details => systemFailure code details
  | .resourceExhausted _ code details => systemFailure code details
  | .otherError code details => systemFailure code details
  | e => .system (toString e) 0

def readContents (path : String) : IO (Except ReadFailure (Array UInt8)) := do
  match ← (IO.FS.readBinFile path).toBaseIO with
  | .ok bytes => return .ok bytes.data
  | .error e => return .error (readFailure e)

/-- The files that a request may look at. -/
def readFiles (arguments : List String) : IO Files := do
  let .ok (.run o) := Request.ofArguments arguments | return fun _ => .error .missing
  let program ← readContents o.program
  let config ← readContents (o.config.getD o.program)
  return fun path => if some path = o.config then config else program

def seconds (nanoseconds : Nat) : String :=
  ((Binary64.nearest? nanoseconds 1000000000).map (Decimal.fixed 4)).getD ""

def diagnosticText (nanoseconds : Nat) : Diagnostic → String
  | .text s => s
  | .logged e => e.line
  | .hostTime => Counters.hostTimeRow (seconds nanoseconds)

end ByteMachine

open ByteMachine in
def main (arguments : List String) : IO UInt32 := do
  let files ← readFiles arguments
  let setting ← IO.getEnv "RUST_LOG"
  let start ← IO.monoNanosNow
  let response ← IO.lazyPure fun _ => CommandLine.respond arguments files setting
  let stop ← IO.monoNanosNow
  let output ← IO.getStdout
  output.write ⟨response.output⟩
  output.flush
  for d in response.diagnostics do
    IO.eprintln (diagnosticText (stop - start) d)
  return response.exitCode

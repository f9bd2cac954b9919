import ByteMachine.ReadFailure
import ByteMachine.Text.Ascii

/-!
Why an image cannot be loaded.
-/

namespace ByteMachine

inductive LoadError where
  | unreadable (path : String) (failure : ReadFailure)
  | malformedHeader (size : Nat)
  | invalidSignature (signature : Vector UInt8 4)
  deriving DecidableEq

def LoadError.message : LoadError → String
  | unreadable path failure => "could not read '" ++ path ++ "': " ++ failure.message
  | malformedHeader size => "file too small for header (" ++ toString size ++ " bytes, need 28)"
  | invalidSignature s => "invalid signature b\"" ++ Ascii.escape s.toList ++ "\""

end ByteMachine

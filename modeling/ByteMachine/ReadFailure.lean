/-!
Why the contents of a file cannot be had.
-/

namespace ByteMachine

inductive ReadFailure where
  /-- What the operating system answered. -/
  | system (description : String) (code : Nat)
  | notUtf8
  /-- No file can have such a name. -/
  | nulInName
  deriving DecidableEq

namespace ReadFailure

def missing : ReadFailure := system "No such file or directory" 2

def directory : ReadFailure := system "Is a directory" 21

def message : ReadFailure → String
  | system description code => description ++ " (os error " ++ toString code ++ ")"
  | notUtf8 => "stream did not contain valid UTF-8"
  | nulInName => "file name contained an unexpected NUL byte"

end ReadFailure

end ByteMachine

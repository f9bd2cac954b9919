/-!
How much a log line matters, and a threshold below which lines are left out.
-/

namespace ByteMachine

inductive Level where
  | error
  | warn
  | info
  | debug
  | trace
  deriving DecidableEq

namespace Level

def all : List Level := [error, warn, info, debug, trace]

def name : Level → String
  | error => "ERROR"
  | warn => "WARN"
  | info => "INFO"
  | debug => "DEBUG"
  | trace => "TRACE"

/-- Larger numbers are written only when more detail is asked for. -/
def detail : Level → Nat
  | error => 1
  | warn => 2
  | info => 3
  | debug => 4
  | trace => 5

end Level

/-- The most detailed level that is written, or none at all. -/
abbrev Threshold := Option Level

namespace Threshold

def Admits : Threshold → Level → Prop
  | none, _ => False
  | some most, level => level.detail ≤ most.detail

instance (t : Threshold) (level : Level) : Decidable (t.Admits level) :=
  match t with
  | none => inferInstanceAs (Decidable False)
  | some _ => inferInstanceAs (Decidable (_ ≤ _))

end Threshold

end ByteMachine

import ByteMachine.Effect
import ByteMachine.Image.Header
import ByteMachine.Machine
import ByteMachine.Slice

/-!
Placing an image in memory. A file that is refused leaves the machine alone; any other starts
from a reset machine, and body bytes without room are dropped.
-/

namespace ByteMachine

/-- What the last accepted image was and how much of it got into memory. -/
structure Loaded where
  header : Header
  bodySize : Nat
  copied : Nat
  deriving DecidableEq

namespace Loaded

def entry (l : Loaded) : Address := l.header.entry

/-- The address after the last byte copied. -/
def stop (l : Loaded) : Address := l.header.head.advance l.copied

end Loaded

structure Installation where
  machine : Machine
  loaded : Loaded
  effects : List Effect

namespace Machine

/-- The bytes after the header, as many as the header announces and the file has. -/
def bodyOf (file : Array UInt8) (h : Header) : Array UInt8 :=
  (slice? file Header.size (min h.bodySize (file.size - Header.size))).getD #[]

def place (m : Machine) (h : Header) (body : Array UInt8) : Installation :=
  let m := m.reset
  let copied := m.memory.room h.head body.size
  let clipped :=
    if copied < body.size then [.log (.bodyClipped h.head body.size copied m.memory.size)] else []
  { machine := { m with memory := m.memory.load h.head body, pc := h.entry }
    loaded := ⟨h, body.size, copied⟩
    effects := clipped ++ [.log (.imageInstalled h.version h.head h.entry copied)] }

def install (m : Machine) (file : Array UInt8) : Except LoadError Installation :=
  match Header.ofFile file with
  | .error e => .error e
  | .ok h =>
    if h.IsSigned then .ok (m.place h (bodyOf file h)) else .error (.invalidSignature h.signature)

/-- Installs what reading the file at `path` gave. -/
def installFile (m : Machine) (path : String) (contents : Except ReadFailure (Array UInt8)) :
    Except LoadError Installation :=
  match contents with
  | .error e => .error (.unreadable path e)
  | .ok file => m.install file

end Machine

end ByteMachine

import ByteMachine.Image.Header
import ByteMachine.Instruction

/-!
A program image: a header and the bytes that go to memory.
-/

namespace ByteMachine

structure Image where
  header : Header
  body : List UInt8

namespace Image

def ofBody (head entry : Address) (body : List UInt8) : Image :=
  ⟨.ofBody head entry body.length, body⟩

/-- A program that is placed at `origin` and starts there. -/
def ofProgram (origin : Address) (program : List Instruction) : Image :=
  ofBody origin origin (assemble program)

def encode (i : Image) : List UInt8 := i.header.encode ++ i.body

@[simp] theorem length_encode (i : Image) : i.encode.length = Header.size + i.body.length := by
  simp [encode]

end Image

end ByteMachine

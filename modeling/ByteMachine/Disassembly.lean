import ByteMachine.Decode
import ByteMachine.Instruction.Mnemonic

/-!
Code read from one address to another, one instruction after the other, up to the first byte
that is none; and its listing, one line an instruction.
-/

namespace ByteMachine

/-- What stands at an address. -/
structure Located where
  addr : Address
  content : Except Fault Instruction

/-- Adds to `read` what is found from `addr` on. Only the opcode has to lie before `stop`. -/
def decodeOnto (bytes : Array UInt8) (stop addr : Address) (read : Array Located) :
    Array Located :=
  if addr < stop then
    match decode bytes addr with
    | .ok i => decodeOnto bytes stop (addr.advance i.size) (read.push ⟨addr, .ok i⟩)
    | .error f => read.push ⟨addr, .error f⟩
  else read
termination_by stop.toNat - addr.toNat
decreasing_by
  have := i.size_pos
  have := stop.toNat_lt
  have : addr.toNat < stop.toNat := ‹addr < stop›
  rw [Address.toNat_advance]
  omega

def decodeRange (bytes : Array UInt8) (start stop : Address) : Array Located :=
  decodeOnto bytes stop start #[]

theorem decodeOnto_append (bytes : Array UInt8) (stop addr : Address) (xs ys : Array Located) :
    decodeOnto bytes stop addr (xs ++ ys) = xs ++ decodeOnto bytes stop addr ys := by
  fun_induction decodeOnto bytes stop addr ys with
  | case1 addr ys h i hi ih => rw [decodeOnto, if_pos h, hi, ← ih, Array.append_push]
  | case2 addr ys h f hf => rw [decodeOnto, if_pos h, hf, Array.append_push]
  | case3 addr ys h => rw [decodeOnto, if_neg h]

/-- The walk unfolded once. -/
theorem decodeRange_eq (bytes : Array UInt8) (start stop : Address) :
    decodeRange bytes start stop =
      if start < stop then
        match decode bytes start with
        | .ok i => #[⟨start, .ok i⟩] ++ decodeRange bytes (start.advance i.size) stop
        | .error f => #[⟨start, .error f⟩]
      else #[] := by
  rw [decodeRange, decodeOnto]
  split
  · split
    · exact decodeOnto_append bytes stop _ #[_] #[]
    · rfl
  · rfl

namespace Located

def bytesWidth : Nat := 12

/-- Blanks after a text up to a width. -/
def padded (width : Nat) (s : String) : String := String.ofList (s.toList.rightpad width ' ')

def line (bytes : Array UInt8) (x : Located) : String :=
  let row :=
    match x.content with
    | .ok i =>
      let raw := ((slice? bytes x.addr.toNat i.size).getD #[]).toList
      padded bytesWidth (String.join (raw.map fun b => Hex.byte b ++ " ")) ++ " " ++ i.mnemonic
    | .error f => padded bytesWidth "??" ++ " ; " ++ f.message
  Hex.lower 4 x.addr.toNat ++ ":  " ++ row

end Located

def listing (bytes : Array UInt8) (start stop : Address) : List String :=
  (decodeRange bytes start stop).toList.map (Located.line bytes)

end ByteMachine

import ByteMachine.Text.Hex

/-!
Bytes shown as ASCII text. Printable bytes stand for themselves, three controls have short
forms, quotes and the backslash are marked, and all else is a hexadecimal escape.
-/

namespace ByteMachine.Ascii

def escapeByte (b : UInt8) : String :=
  if b = 0x09 then "\\t"
  else if b = 0x0a then "\\n"
  else if b = 0x0d then "\\r"
  else if b = 0x22 then "\\\""
  else if b = 0x27 then "\\'"
  else if b = 0x5c then "\\\\"
  else if 0x20 ≤ b ∧ b ≤ 0x7e then String.singleton (Char.ofUInt8 b)
  else "\\x" ++ Hex.byte b

def escape (bytes : List UInt8) : String := String.join (bytes.map escapeByte)

end ByteMachine.Ascii

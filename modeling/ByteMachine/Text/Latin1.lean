/-!
Bytes read as characters, each the character whose code point is the byte; and the UTF-8 form
of such a character.
-/

namespace ByteMachine.Latin1

def text (bytes : List UInt8) : String := String.ofList (bytes.map Char.ofUInt8)

def utf8 (b : UInt8) : List UInt8 :=
  if b < 0x80 then [b] else [0xc0 + b / 64, 0x80 + b % 64]

end ByteMachine.Latin1

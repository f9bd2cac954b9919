import ByteMachine.Text.Printable

/-!
Text between quotes for a reader who wants to see every character. Quotes and the backslash are
marked, four controls have short forms, and a character that would not show is written by its
code point.
-/

namespace ByteMachine.Quoted

def escapeChar (c : Char) : List Char :=
  if c = '\x00' then ['\\', '0']
  else if c = '\t' then ['\\', 't']
  else if c = '\r' then ['\\', 'r']
  else if c = '\n' then ['\\', 'n']
  else if c = '\\' ∨ c = '"' then ['\\', c]
  else if Printable.Shows c then [c]
  else ['\\', 'u', '{'] ++ Nat.toDigits 16 c.toNat ++ ['}']

def quote (s : String) : String :=
  String.ofList ('"' :: s.toList.flatMap escapeChar ++ ['"'])

end ByteMachine.Quoted

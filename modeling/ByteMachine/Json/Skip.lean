import ByteMachine.Json.Number
import ByteMachine.Json.Text

/-!
Passing over a value of any kind and depth. The brackets that are open are kept on a stack, so
that the depth of a text is no matter.
-/

namespace ByteMachine.Json

inductive Bracket where
  | square
  | curly
  deriving DecidableEq

namespace Bracket

def closing : Bracket → Char
  | square => ']'
  | curly => '}'

def unclosed : Bracket → Problem
  | square => .unclosed .list
  | curly => .unclosed .object

/-- What is said of a character that neither goes on with the list or object nor closes it. -/
def unexpected : Bracket → Problem
  | square => .malformed .expectedCommaOrBracket
  | curly => .malformed .expectedCommaOrBrace

end Bracket

/-- Closes brackets after a value, up to a comma or to the end of the outermost. Gives the
brackets that stay open. -/
def closeBrackets (opened : List Bracket) (text : List Char) :
    Except Problem (List Bracket × List Char) :=
  match opened, text with
  | [], text => .ok ([], text)
  | b :: _, [] => .error b.unclosed
  | b :: outer, c :: text =>
    if IsBlank c then closeBrackets (b :: outer) text
    else if c = ',' then .ok (b :: outer, text)
    else if c = b.closing then closeBrackets outer text
    else .error b.unexpected

/-- Passes over a key and its colon. -/
def skipKey (text : List Char) : Except Problem (List Char) :=
  match skipBlanks text with
  | [] => .error Bracket.curly.unclosed
  | c :: text =>
    if c = '"' then do
      let text ← Text.skip text
      match skipBlanks text with
      | [] => .error Bracket.curly.unclosed
      | ':' :: text => .ok text
      | _ => .error (.malformed .expectedColon)
    else .error (.malformed .keyNotText)

/-- In an object a value has a key before it. -/
def skipLabel : List Bracket → List Char → Except Problem (List Char)
  | .curly :: _, text => skipKey text
  | _, text => .ok text

/-- Passes over a value without brackets. -/
def skipScalar : List Char → Except Problem (List Char)
  | [] => .error (.unclosed .value)
  | c :: text =>
    if c = 'n' then takeWord ['u', 'l', 'l'] text
    else if c = 't' then takeWord ['r', 'u', 'e'] text
    else if c = 'f' then takeWord ['a', 'l', 's', 'e'] text
    else if c = '"' then Text.skip text
    else if c = '-' ∨ c.isDigit then skipNumber (c :: text)
    else .error (.malformed .expectedValue)

def opening? (c : Char) : Option Bracket :=
  if c = '[' then some .square else if c = '{' then some .curly else none

/-- Passes over one scalar or one opening bracket, with all closing ones that follow. -/
def skipPart (opened : List Bracket) (text : List Char) :
    Except Problem (List Bracket × List Char) :=
  match skipBlanks text with
  | [] => .error (.unclosed .value)
  | c :: text =>
    match opening? c with
    | none => do closeBrackets opened (← skipScalar (c :: text))
    | some b =>
      match skipBlanks text with
      | [] => .error b.unclosed
      | d :: rest =>
        if d = b.closing then closeBrackets opened rest else .ok (b :: opened, d :: rest)

/-- Goes on until no bracket is open. Every part takes a character at least, so that more parts
than there are characters are enough. -/
def skipParts (opened : List Bracket) (text : List Char) : Nat → Except Problem (List Char)
  | 0 => .error (.unclosed .value)
  | parts + 1 =>
    match skipPart opened text with
    | .error e => .error e
    | .ok ([], text) => .ok text
    | .ok (b :: opened, text) =>
      match skipLabel (b :: opened) text with
      | .error e => .error e
      | .ok text => skipParts (b :: opened) text parts

/-- Passes over a value of a text of fewer than `bound` characters. -/
def skipValue (bound : Nat) (text : List Char) : Except Problem (List Char) :=
  skipParts [] text bound

end ByteMachine.Json

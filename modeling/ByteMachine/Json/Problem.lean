import ByteMachine.Decimal.Shortest
import ByteMachine.Text.Quoted

/-!
What is wrong with a JSON text: it holds something else than is wanted, it breaks the grammar,
or it ends too early.
-/

namespace ByteMachine.Json

/-- What stands where something else is wanted. -/
inductive Found where
  | null
  | boolean (b : Bool)
  | integer (n : Int)
  | binary (negative : Bool) (magnitude : Binary64)
  | text (s : String)
  | sequence
  | map
  deriving DecidableEq

inductive Mismatch where
  | invalidType (found : Found) (expected : String)
  /-- A number of the right kind that is out of range. -/
  | invalidValue (found : Found) (expected : String)
  | duplicateField (key : String)
  deriving DecidableEq

inductive Malformation where
  | expectedValue
  | expectedWord
  | expectedColon
  | expectedCommaOrBrace
  | expectedCommaOrBracket
  | keyNotText
  | trailingComma
  | trailingCharacters
  | invalidNumber
  | numberOutOfRange
  | invalidEscape
  | unfinishedSurrogate
  | loneSurrogate
  | controlCharacter
  deriving DecidableEq

/-- What is still open at the end of the text. -/
inductive Unclosed where
  | value
  | text
  | list
  | object
  deriving DecidableEq

inductive Problem where
  | mismatch (m : Mismatch)
  | malformed (m : Malformation)
  | unclosed (u : Unclosed)
  deriving DecidableEq

/-- Numbers from `1e-5` up to below `1e16` are written without an exponent. -/
def numberLayout : Decimal.Layout := ⟨-5, 15⟩

def Found.describe : Found → String
  | null => "null"
  | boolean b => "boolean `" ++ toString b ++ "`"
  | integer n => "integer `" ++ toString n ++ "`"
  | binary negative x =>
    "floating point `" ++ (if negative then "-" else "")
      ++ numberLayout.text (Decimal.shortest x) ++ "`"
  | text s => "string " ++ Quoted.quote s
  | sequence => "sequence"
  | map => "map"

def Mismatch.message : Mismatch → String
  | invalidType found expected => "invalid type: " ++ found.describe ++ ", expected " ++ expected
  | invalidValue found expected => "invalid value: " ++ found.describe ++ ", expected " ++ expected
  | duplicateField key => "duplicate field `" ++ key ++ "`"

def Malformation.message : Malformation → String
  | expectedValue => "expected value"
  | expectedWord => "expected ident"
  | expectedColon => "expected `:`"
  | expectedCommaOrBrace => "expected `,` or `\x7d`"
  | expectedCommaOrBracket => "expected `,` or `]`"
  | keyNotText => "key must be a string"
  | trailingComma => "trailing comma"
  | trailingCharacters => "trailing characters"
  | invalidNumber => "invalid number"
  | numberOutOfRange => "number out of range"
  | invalidEscape => "invalid escape"
  | unfinishedSurrogate => "unexpected end of hex escape"
  | loneSurrogate => "lone leading surrogate in hex escape"
  | controlCharacter => "control character (\\u0000-\\u001F) found while parsing a string"

def Unclosed.message : Unclosed → String
  | value => "EOF while parsing a value"
  | text => "EOF while parsing a string"
  | list => "EOF while parsing a list"
  | object => "EOF while parsing an object"

def Problem.message : Problem → String
  | mismatch m => m.message
  | malformed m => m.message
  | unclosed u => u.message

end ByteMachine.Json

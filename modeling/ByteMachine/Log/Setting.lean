import ByteMachine.Log.Level

/-!
The threshold as a word: the name of a level in letters of either case, or `off`.
-/

namespace ByteMachine.Threshold

def ofWord? (word : String) : Option Threshold :=
  let word := word.map Char.toUpper
  if word = "OFF" then some none
  else (Level.all.find? (·.name = word)).map some

/-- Without a setting warnings are written, and with an empty one errors only. -/
def ofSetting : Option String → Threshold
  | none => some .warn
  | some word => if word = "" then some .error else (ofWord? word).getD (some .warn)

end ByteMachine.Threshold

import ByteMachine.Json.Problem

/-!
Reading a JSON text from left to right: a reader takes its part off the front of the text and
leaves the rest.
-/

namespace ByteMachine.Json

abbrev Reader (α : Type) := List Char → Except Problem (α × List Char)

/-- The white space of the grammar. -/
def IsBlank (c : Char) : Prop := c = ' ' ∨ c = '\t' ∨ c = '\n' ∨ c = '\r'

instance (c : Char) : Decidable (IsBlank c) := inferInstanceAs (Decidable (_ ∨ _))

def skipBlanks (text : List Char) : List Char := text.dropWhile fun c => IsBlank c

@[simp] theorem skipBlanks_nil : skipBlanks [] = [] := rfl

theorem skipBlanks_cons_of_isBlank {c : Char} (h : IsBlank c) (text : List Char) :
    skipBlanks (c :: text) = skipBlanks text := by
  simp [skipBlanks, h]

theorem skipBlanks_cons_of_not_isBlank {c : Char} (h : ¬ IsBlank c) (text : List Char) :
    skipBlanks (c :: text) = c :: text := by
  simp [skipBlanks, h]

theorem skipBlanks_append {blanks : List Char} (h : ∀ c ∈ blanks, IsBlank c)
    (text : List Char) : skipBlanks (blanks ++ text) = skipBlanks text := by
  induction blanks with
  | nil => rfl
  | cons c blanks ih =>
    rw [List.cons_append, skipBlanks_cons_of_isBlank (h c List.mem_cons_self)]
    exact ih fun d hd => h d (List.mem_cons_of_mem c hd)

/-- Takes the letters of a word. -/
def takeWord : List Char → List Char → Except Problem (List Char)
  | [], text => .ok text
  | _ :: _, [] => .error (.unclosed .value)
  | c :: word, d :: text =>
    if c = d then takeWord word text else .error (.malformed .expectedWord)

@[simp] theorem takeWord_append (word text : List Char) :
    takeWord word (word ++ text) = .ok text := by
  induction word with
  | nil => rfl
  | cons c word ih => rw [List.cons_append, takeWord, if_pos rfl, ih]

end ByteMachine.Json

/-!
Control sequences in text for a terminal. Without them and without lone controls the text is what
a reader gets to see. Main statement: text without controls stays as it is.
-/

namespace ByteMachine.ControlSequence

/-- How far a sequence has come. -/
inductive Part where
  /-- After the escape character. -/
  | escape
  | intermediate
  /-- After `[`, up to a letter. -/
  | control
  /-- After `]`, up to a bell. -/
  | command
  /-- After `P`, up to the letter that opens the contents. -/
  | device
  | deviceParameter
  | deviceIntermediate
  /-- A string that only a terminator ends. -/
  | contents
  deriving DecidableEq

def IsIntermediate (c : Char) : Prop := ' ' ≤ c ∧ c ≤ '/'

instance (c : Char) : Decidable (IsIntermediate c) := inferInstanceAs (Decidable (_ ∧ _))

/-- A letter or another mark that ends a control sequence. -/
def IsFinal (c : Char) : Prop := '@' ≤ c ∧ c ≤ '~'

instance (c : Char) : Decidable (IsFinal c) := inferInstanceAs (Decidable (_ ∧ _))

def IsBlank (c : Char) : Prop := c = '\t' ∨ c = '\n' ∨ c = '\x0c' ∨ c = '\r'

instance (c : Char) : Decidable (IsBlank c) := inferInstanceAs (Decidable (_ ∨ _))

/-- Everything but the controls of ASCII, of which only white space is kept. -/
def IsKept (c : Char) : Prop := (' ' ≤ c ∧ c ≠ '\x7f') ∨ IsBlank c

instance (c : Char) : Decidable (IsKept c) := inferInstanceAs (Decidable (_ ∨ _))

/-- The string terminator is a single byte, wherever it stands in an encoded character. -/
def HoldsTerminator (c : Char) : Prop := 0x9c ∈ String.utf8EncodeChar c

instance (c : Char) : Decidable (HoldsTerminator c) := inferInstanceAs (Decidable (_ ∈ _))

namespace Part

/-- The part after one more character, or nothing when that was the last of the sequence. -/
def after (c : Char) : Part → Option Part
  | escape =>
    if c = '[' then some control
    else if c = ']' then some command
    else if c = 'P' then some device
    else if c = 'X' ∨ c = '^' ∨ c = '_' then some contents
    else if IsIntermediate c then some intermediate
    else if '0' ≤ c ∧ c ≤ '~' then none
    else some escape
  | intermediate => if '0' ≤ c ∧ c ≤ '~' then none else some intermediate
  | control => if IsFinal c then none else some control
  | command => if c = '\x07' then none else some command
  | device =>
    if IsFinal c then some contents
    else if IsIntermediate c then some deviceIntermediate
    else if '0' ≤ c ∧ c ≤ '?' then some deviceParameter
    else some device
  | deviceParameter =>
    if IsFinal c ∨ ('<' ≤ c ∧ c ≤ '?') then some contents
    else if IsIntermediate c then some deviceIntermediate
    else some deviceParameter
  | deviceIntermediate => if '0' ≤ c ∧ c ≤ '~' then some contents else some deviceIntermediate
  | contents => if HoldsTerminator c then none else some contents

/-- White space shows inside these parts. -/
def IsBrokenByBlank (p : Part) : Prop := p ∈ [escape, intermediate, control]

instance (p : Part) : Decidable p.IsBrokenByBlank := inferInstanceAs (Decidable (_ ∈ _))

end Part

/-- Where reading stands. -/
inductive State where
  /-- Text shows. A sequence that white space broke into goes on at the next lone control. -/
  | text (broken : Option Part)
  | sequence (p : Part)
  deriving DecidableEq

namespace State

/-- The state after a character that neither starts nor cancels a sequence, and whether the
character is kept. A character beyond ASCII ends a broken sequence. -/
def readPlain (c : Char) : State → State × Bool
  | text broken =>
    if IsKept c then (text (if c.toNat < 0x80 then broken else none), true)
    else ((broken.map sequence).getD (text none), false)
  | sequence p =>
    if p.IsBrokenByBlank ∧ IsBlank c then (text (some p), true)
    else (((p.after c).map sequence).getD (text none), false)

def read (c : Char) (s : State) : State × Bool :=
  if c = '\x1b' then (sequence .escape, false)
  else if c = '\x18' ∨ c = '\x1a' then (text none, false)
  else s.readPlain c

end State

/-- The characters that are kept, with reading at `s`. -/
def kept (s : State) : List Char → List Char
  | [] => []
  | c :: text =>
    let (s, isKept) := s.read c
    if isKept then c :: kept s text else kept s text

def strip (s : String) : String := String.ofList (kept (.text none) s.toList)

theorem read_of_isKept {c : Char} (h : IsKept c) :
    (State.text none).read c = (.text none, true) := by
  have hne : c ≠ '\x1b' ∧ ¬ (c = '\x18' ∨ c = '\x1a') := by
    refine ⟨?_, ?_⟩
    · rintro rfl
      revert h
      decide
    · rintro (rfl | rfl) <;> revert h <;> decide
  simp [State.read, State.readPlain, hne.1, hne.2, h]

theorem kept_of_forall_isKept {text : List Char} (h : ∀ c ∈ text, IsKept c) :
    kept (.text none) text = text := by
  induction text with
  | nil => rfl
  | cons c text ih =>
    rw [List.forall_mem_cons] at h
    simp [kept, read_of_isKept h.1, ih h.2]

theorem strip_of_forall_isKept {s : String} (h : ∀ c ∈ s.toList, IsKept c) : strip s = s := by
  rw [strip, kept_of_forall_isKept h, String.ofList_toList]

end ByteMachine.ControlSequence

import ByteMachine.Json.Basic

/-!
Strings, from after the opening quote. When a string is read, its escapes become characters;
when it is passed over, they only have to be well formed.
-/

namespace ByteMachine.Json.Text

def hexValue? (c : Char) : Option Nat :=
  if c.isDigit then some (c.toNat - '0'.toNat)
  else if 'a' ≤ c ∧ c ≤ 'f' then some (c.toNat - 'a'.toNat + 10)
  else if 'A' ≤ c ∧ c ≤ 'F' then some (c.toNat - 'A'.toNat + 10)
  else none

def hexNumber? (digits : List Char) : Option Nat :=
  digits.foldlM (fun n c => (hexValue? c).map (16 * n + ·)) 0

/-- Four hexadecimal digits. The text is over where fewer than four bytes are left. -/
def takeUnit : Reader Nat
  | a :: b :: c :: d :: text =>
    match hexNumber? [a, b, c, d] with
    | some n => .ok (n, text)
    | none => .error (.malformed .invalidEscape)
  | few =>
    if few.foldr (fun c n => c.utf8Size + n) 0 < 4 then .error (.unclosed .text)
    else .error (.malformed .invalidEscape)

def IsLeading (unit : Nat) : Prop := 0xd800 ≤ unit ∧ unit < 0xdc00

instance (unit : Nat) : Decidable (IsLeading unit) := inferInstanceAs (Decidable (_ ∧ _))

def IsTrailing (unit : Nat) : Prop := 0xdc00 ≤ unit ∧ unit < 0xe000

instance (unit : Nat) : Decidable (IsTrailing unit) := inferInstanceAs (Decidable (_ ∧ _))

/-- The character of two surrogates. -/
def paired (leading trailing : Nat) : Char :=
  Char.ofNat (0x10000 + (leading - 0xd800) * 0x400 + (trailing - 0xdc00))

/-- The second surrogate, which has to be an escape as well. -/
def takeTrailing (leading : Nat) : Reader Char
  | [] => .error (.unclosed .text)
  | ['\\'] => .error (.unclosed .text)
  | '\\' :: 'u' :: text => do
    let (trailing, text) ← takeUnit text
    if IsTrailing trailing then .ok (paired leading trailing, text)
    else .error (.malformed .loneSurrogate)
  | _ => .error (.malformed .unfinishedSurrogate)

def takeCodePoint : Reader Char := fun text => do
  let (unit, text) ← takeUnit text
  if IsTrailing unit then .error (.malformed .loneSurrogate)
  else if IsLeading unit then takeTrailing unit text
  else .ok (Char.ofNat unit, text)

/-- The character of an escape of one letter. -/
def short? (c : Char) : Option Char :=
  if c = '"' ∨ c = '\\' ∨ c = '/' then some c
  else if c = 'b' then some '\x08'
  else if c = 'f' then some '\x0c'
  else if c = 'n' then some '\n'
  else if c = 'r' then some '\r'
  else if c = 't' then some '\t'
  else none

/-- An escape after its backslash. -/
def takeEscape : Reader Char
  | [] => .error (.unclosed .text)
  | c :: text =>
    match short? c with
    | some d => .ok (d, text)
    | none => if c = 'u' then takeCodePoint text else .error (.malformed .invalidEscape)

/-- Passes over an escape without a look at surrogates. -/
def skipEscape : Reader Unit
  | [] => .error (.unclosed .text)
  | c :: text =>
    match short? c with
    | some _ => .ok ((), text)
    | none =>
      if c = 'u' then (takeUnit text).map fun r => ((), r.2) else .error (.malformed .invalidEscape)

theorem length_takeUnit {text rest : List Char} {n : Nat} (h : takeUnit text = .ok (n, rest)) :
    rest.length < text.length := by
  unfold takeUnit at h
  split at h
  · split at h
    · cases h
      simp only [List.length_cons]
      omega
    · cases h
  · split at h <;> cases h

theorem length_takeTrailing {text rest : List Char} {n : Nat} {c : Char}
    (h : takeTrailing n text = .ok (c, rest)) : rest.length < text.length := by
  unfold takeTrailing at h
  split at h
  · cases h
  · cases h
  · rename_i text
    cases hu : takeUnit text with
    | error e => simp [hu, bind, Except.bind] at h
    | ok r =>
      have hr := @length_takeUnit _ r.2 r.1 hu
      simp only [hu, bind, Except.bind] at h
      split at h
      · simp only [Except.ok.injEq, Prod.mk.injEq] at h
        rw [← h.2, List.length_cons, List.length_cons]
        omega
      · cases h
  · cases h

theorem length_takeCodePoint {text rest : List Char} {c : Char}
    (h : takeCodePoint text = .ok (c, rest)) : rest.length < text.length := by
  unfold takeCodePoint at h
  cases hu : takeUnit text with
  | error e => simp [hu, bind, Except.bind] at h
  | ok r =>
    have hr := @length_takeUnit _ r.2 r.1 hu
    simp only [hu, bind, Except.bind] at h
    split at h
    · cases h
    · split at h
      · have := length_takeTrailing h
        omega
      · cases h
        exact hr

theorem length_takeEscape {text rest : List Char} {c : Char}
    (h : takeEscape text = .ok (c, rest)) : rest.length < text.length := by
  unfold takeEscape at h
  split at h
  · cases h
  · rw [List.length_cons]
    split at h
    · cases h
      omega
    · split at h
      · have := length_takeCodePoint h
        omega
      · cases h

theorem length_skipEscape {text rest : List Char} {u : Unit}
    (h : skipEscape text = .ok (u, rest)) : rest.length < text.length := by
  unfold skipEscape at h
  split at h
  · cases h
  · rename_i c text
    rw [List.length_cons]
    split at h
    · cases h
      omega
    · split at h
      · cases hu : takeUnit text with
        | error e => simp [hu, Except.map] at h
        | ok r =>
          have hr := @length_takeUnit _ r.2 r.1 hu
          simp only [hu, Except.map, Except.ok.injEq, Prod.mk.injEq] at h
          rw [← h.2]
          omega
      · cases h

/-- Adds the characters up to the closing quote to `read`, last one first. -/
def readOnto (read : List Char) : Reader String
  | [] => .error (.unclosed .text)
  | c :: text =>
    if c = '"' then .ok (String.ofList read.reverse, text)
    else if c = '\\' then
      match _ : takeEscape text with
      | .error e => .error e
      | .ok (d, rest) => readOnto (d :: read) rest
    else if c.toNat < 0x20 then .error (.malformed .controlCharacter)
    else readOnto (c :: read) text
termination_by text => text.length
decreasing_by
  · have := length_takeEscape ‹_›
    simp only [List.length_cons]
    omega
  · simp

def read : Reader String := readOnto []

def skip : List Char → Except Problem (List Char)
  | [] => .error (.unclosed .text)
  | c :: text =>
    if c = '"' then .ok text
    else if c = '\\' then
      match _ : skipEscape text with
      | .error e => .error e
      | .ok (_, rest) => skip rest
    else if c.toNat < 0x20 then .error (.malformed .controlCharacter)
    else skip text
termination_by text => text.length
decreasing_by
  · have := length_skipEscape ‹_›
    simp only [List.length_cons]
    omega
  · simp

end ByteMachine.Json.Text

import Mathlib.Data.Nat.Notation
import Mathlib.Tactic.Common
import ByteMachine.Json.Record

/-!
JSON objects as they are written, and what the readers take off the front of such texts: white
space, plain strings, decimal numbers and the words that stand for other values. None of them takes
more than its part, whatever may stand after it.
-/

namespace ByteMachine.Json

/-! ### The grammar -/

/-- White space and nothing else. -/
def Blank (text : List Char) : Prop := ∀ c ∈ text, IsBlank c

instance (text : List Char) : Decidable (Blank text) := List.decidableBAll IsBlank text

/-- A character of printable ASCII that stands for itself between quotes. -/
def IsPlain (c : Char) : Prop := 0x20 ≤ c.toNat ∧ c.toNat ≤ 0x7e ∧ c ≠ '"' ∧ c ≠ '\\'

instance (c : Char) : Decidable (IsPlain c) := inferInstanceAs (Decidable (_ ∧ _))

/-- A text of plain characters. -/
def IsPlainText (s : String) : Prop := ∀ c ∈ s.toList, IsPlain c

instance (s : String) : Decidable (IsPlainText s) := List.decidableBAll IsPlain s.toList

def quoted (s : String) : List Char := '"' :: (s.toList ++ ['"'])

/-- The decimal digits of a number, without a zero in front. -/
def decimal (n : Nat) : List Char := Nat.toDigits 10 n

def wordOfBool : Bool → List Char
  | true => ['t', 'r', 'u', 'e']
  | false => ['f', 'a', 'l', 's', 'e']

def wordOfNull : List Char := ['n', 'u', 'l', 'l']

/-- Values of a simple form: words, plain strings, and whole numbers with and without a sign. -/
inductive IsSimple : List Char → Prop
  | null : IsSimple wordOfNull
  | boolean (b : Bool) : IsSimple (wordOfBool b)
  | text {s : String} (plain : IsPlainText s) : IsSimple (quoted s)
  | natural (n : Nat) : IsSimple (decimal n)
  | negative (n : Nat) : IsSimple ('-' :: decimal n)

/-- The text with white space around it. -/
inductive Padded (core : List Char) : List Char → Prop
  | mk (front back : List Char) (hfront : Blank front) (hback : Blank back) :
    Padded core (front ++ (core ++ back))

/-- Members of an object, each a key with the text of its value, as they stand between braces. -/
inductive MembersText : List (String × List Char) → List Char → Prop
  | last {key : String} {value k v : List Char} (hkey : Padded (quoted key) k)
    (hvalue : Padded value v) : MembersText [(key, value)] (k ++ ':' :: v)
  | cons {key : String} {value k v text : List Char} {members : List (String × List Char)}
    (hkey : Padded (quoted key) k) (hvalue : Padded value v) (hrest : MembersText members text) :
    MembersText ((key, value) :: members) (k ++ ':' :: (v ++ ',' :: text))

/-- Members of an object and its text. -/
inductive ObjectText : List (String × List Char) → List Char → Prop
  | empty {blanks : List Char} (h : Blank blanks) : ObjectText [] ('{' :: (blanks ++ ['}']))
  | members {members : List (String × List Char)} {text : List Char}
    (h : MembersText members text) : ObjectText members ('{' :: (text ++ ['}']))

lemma blank_nil : Blank [] := nofun

lemma padded_self (core : List Char) : Padded core core := by
  have h : Padded core ([] ++ (core ++ [])) := .mk [] [] blank_nil blank_nil
  rwa [List.append_nil, List.nil_append] at h

/-- Members one after the other, without white space. -/
def membersOf : List (String × List Char) → List Char
  | [] => []
  | [(key, value)] => quoted key ++ ':' :: value
  | (key, value) :: m :: members => quoted key ++ ':' :: (value ++ ',' :: membersOf (m :: members))

def objectOf (members : List (String × List Char)) : List Char :=
  '{' :: (membersOf members ++ ['}'])

lemma membersText_membersOf (m : String × List Char) (members : List (String × List Char)) :
    MembersText (m :: members) (membersOf (m :: members)) := by
  induction members generalizing m with
  | nil => exact .last (padded_self _) (padded_self _)
  | cons m' members ih => exact .cons (padded_self _) (padded_self _) (ih m')

lemma objectText_objectOf (members : List (String × List Char)) :
    ObjectText members (objectOf members) := by
  rcases members with _ | ⟨m, members⟩
  · exact .empty blank_nil
  · exact .members (membersText_membersOf m members)

/-- What follows a value inside an object. -/
def Ends (rest : List Char) : Prop := ∃ c text, rest = c :: text ∧ (IsBlank c ∨ c = ',' ∨ c = '}')

lemma ends_append {blanks text : List Char} {c : Char} (h : Blank blanks) (hc : c = ',' ∨ c = '}') :
    Ends (blanks ++ c :: text) := by
  rcases blanks with _ | ⟨b, blanks⟩
  · exact ⟨c, text, rfl, Or.inr hc⟩
  · exact ⟨b, blanks ++ c :: text, rfl, Or.inl (h b List.mem_cons_self)⟩

/-- A value is not continued by what follows it. -/
lemma Ends.cases {rest : List Char} (h : Ends rest) :
    ∃ c text, rest = c :: text ∧ c.isDigit = false ∧ c ≠ '.' ∧ c ≠ 'e' ∧ c ≠ 'E' := by
  obtain ⟨c, text, rfl, (rfl | rfl | rfl | rfl) | rfl | rfl⟩ := h <;>
    exact ⟨_, text, rfl, by decide, by decide, by decide, by decide⟩

/-! ### White space -/

lemma skipBlanks_blank {blanks text : List Char} (h : Blank blanks) {c : Char}
    (hc : ¬ IsBlank c) : skipBlanks (blanks ++ c :: text) = c :: text := by
  rw [skipBlanks_append h, skipBlanks_cons_of_not_isBlank hc]

lemma not_isBlank_of_isDigit {c : Char} (h : c.isDigit = true) : ¬ IsBlank c := by
  rintro (rfl | rfl | rfl | rfl) <;> exact absurd h (by decide)

/-! ### Strings -/

lemma IsPlain.steps {c : Char} (h : IsPlain c) : c ≠ '"' ∧ c ≠ '\\' ∧ ¬ c.toNat < 0x20 :=
  ⟨h.2.2.1, h.2.2.2, Nat.not_lt.2 h.1⟩

lemma readOnto_plain {s : List Char} (h : ∀ c ∈ s, IsPlain c) (before rest : List Char) :
    Text.readOnto before (s ++ '"' :: rest) = .ok (String.ofList (before.reverse ++ s), rest) := by
  induction s generalizing before with
  | nil =>
    rw [List.nil_append, Text.readOnto, if_pos rfl, List.append_nil]
  | cons c s ih =>
    obtain ⟨hquote, hescape, hcontrol⟩ := (h c List.mem_cons_self).steps
    rw [List.cons_append, Text.readOnto, if_neg hquote, if_neg hescape, if_neg hcontrol,
      ih fun d hd => h d (List.mem_cons_of_mem c hd)]
    rw [List.reverse_cons, List.append_assoc, List.singleton_append]

/-- **A plain string is read as it stands.** -/
theorem read_plain {s : String} (h : IsPlainText s) (rest : List Char) :
    Text.read (s.toList ++ '"' :: rest) = .ok (s, rest) := by
  rw [Text.read, readOnto_plain h, List.reverse_nil, List.nil_append, String.ofList_toList]

lemma skip_plain {s : List Char} (h : ∀ c ∈ s, IsPlain c) (rest : List Char) :
    Text.skip (s ++ '"' :: rest) = .ok rest := by
  induction s with
  | nil => rw [List.nil_append, Text.skip, if_pos rfl]
  | cons c s ih =>
    obtain ⟨hquote, hescape, hcontrol⟩ := (h c List.mem_cons_self).steps
    rw [List.cons_append, Text.skip, if_neg hquote, if_neg hescape, if_neg hcontrol,
      ih fun d hd => h d (List.mem_cons_of_mem c hd)]

/-! ### Numbers -/

lemma isDigit_of_mem_decimal {n : Nat} {c : Char} (h : c ∈ decimal n) : c.isDigit = true :=
  Nat.isDigit_of_mem_toDigits (by decide) (by decide) h

lemma head_decimal {n : Nat} (hn : 0 < n) : (decimal n).head? ≠ some '0' := by
  unfold decimal
  induction n using Nat.strongRecOn with
  | ind n ih =>
    rcases Nat.lt_or_ge n 10 with h | h
    · have hdigit : ∀ n < 10, 0 < n → [n.digitChar].head? ≠ some '0' := by decide
      rw [Nat.toDigits_of_lt_base h]
      exact hdigit n h hn
    · have hdiv : 0 < n / 10 := Nat.div_pos h (by decide)
      have hhead := ih (n / 10) (Nat.div_lt_self hn (by decide)) hdiv
      rw [Nat.toDigits_of_base_le (by decide) h]
      rcases hd : Nat.toDigits 10 (n / 10) with _ | ⟨d, ds⟩
      · exact absurd hd Nat.toDigits_ne_nil
      · rwa [hd] at hhead

/-- A number begins with a digit, and only zero begins with a zero. -/
lemma decimal_cases (n : Nat) : decimal n = ['0'] ∨
    ∃ d ds, decimal n = d :: ds ∧ d ≠ '0' ∧ d.isDigit = true ∧ ∀ c ∈ ds, c.isDigit = true := by
  rcases Nat.eq_zero_or_pos n with rfl | hn
  · exact Or.inl rfl
  · right
    rcases hd : decimal n with _ | ⟨d, ds⟩
    · exact absurd hd Nat.toDigits_ne_nil
    · have hdigit : ∀ c ∈ d :: ds, c.isDigit = true := fun c hc =>
        isDigit_of_mem_decimal (hd ▸ hc)
      have hzero := head_decimal hn
      rw [hd, List.head?_cons] at hzero
      obtain ⟨hfirst, hothers⟩ := List.forall_mem_cons.1 hdigit
      exact ⟨d, ds, rfl, fun h => hzero (congrArg some h), hfirst, hothers⟩

lemma decimal_head (n : Nat) : ∃ d ds, decimal n = d :: ds ∧ d.isDigit = true := by
  rcases decimal_cases n with h | ⟨d, ds, h, -, hdigit, -⟩
  · exact ⟨'0', [], h, rfl⟩
  · exact ⟨d, ds, h, hdigit⟩

lemma takeWhole_decimal {rest : List Char} (h : Ends rest) (atEnd : Problem) (n : Nat) :
    Literal.takeWhole atEnd (decimal n ++ rest) = .ok (decimal n, rest) := by
  obtain ⟨c, text, rfl, hc, -⟩ := h.cases
  rcases decimal_cases n with hzero | ⟨d, ds, hn, hd, hdigit, hdigits⟩
  · simp only [hzero, List.singleton_append, Literal.takeWhole, hc]
    rfl
  · have htake : (ds ++ c :: text).takeWhile Char.isDigit = ds := by
      rw [List.takeWhile_append_of_pos hdigits, List.takeWhile_cons_of_neg (by simp [hc]),
        List.append_nil]
    have hdrop : (ds ++ c :: text).dropWhile Char.isDigit = c :: text := by
      rw [List.dropWhile_append_of_pos hdigits, List.dropWhile_cons_of_neg (by simp [hc])]
    rw [hn, List.cons_append, Literal.takeWhole, Literal.takeDigits, if_pos hdigit, htake, hdrop]
    intro c' text' h'
    exact absurd (List.cons.inj h').1 hd

lemma takeUnsigned_decimal {rest : List Char} (h : Ends rest) (atEnd : Problem) (negative : Bool)
    (n : Nat) : Literal.takeUnsigned atEnd negative (decimal n ++ rest) =
      .ok (⟨negative, decimal n, none, none⟩, rest) := by
  obtain ⟨c, text, hrest, -, hpoint, he, hE⟩ := h.cases
  have hfraction : Literal.takeFraction atEnd rest = .ok (none, rest) := by
    rw [hrest, Literal.takeFraction]
    rintro text' ⟨⟩
    exact hpoint rfl
  have hexponent : Literal.takeExponent atEnd rest = .ok (none, rest) := by
    rw [hrest]
    simp only [Literal.takeExponent, he, hE, or_self, ↓reduceIte]
  simp only [Literal.takeUnsigned, takeWhole_decimal h, hfraction, hexponent, bind, Except.bind]

lemma take_decimal {rest : List Char} (h : Ends rest) (atEnd : Problem) (n : Nat) :
    Literal.take atEnd (decimal n ++ rest) = .ok (⟨false, decimal n, none, none⟩, rest) := by
  obtain ⟨d, ds, hn, hdigit⟩ := decimal_head n
  have hminus : ∀ text, decimal n ++ rest ≠ '-' :: text := by
    rw [hn]
    rintro text ⟨⟩
    exact absurd hdigit (by decide)
  rw [Literal.take, takeUnsigned_decimal h]
  exact hminus

lemma le_ofDigitChars (digits : List Char) (n : Nat) : n ≤ Nat.ofDigitChars 10 digits n := by
  induction digits generalizing n with
  | nil => exact Nat.le_refl n
  | cons c digits ih =>
    rw [Nat.ofDigitChars_cons]
    have := ih (10 * n + (c.toNat - '0'.toNat))
    omega

/-- Digits of a number that fits in 64 bits are all taken. -/
lemma accumulate_of_lt {digits : List Char} {n : Nat}
    (h : Nat.ofDigitChars 10 digits n < UInt64.size) :
    Literal.accumulate n digits = (Nat.ofDigitChars 10 digits n, 0) := by
  induction digits generalizing n with
  | nil => rfl
  | cons c digits ih =>
    rw [Nat.ofDigitChars_cons] at h
    have hle := le_ofDigitChars digits (10 * n + (c.toNat - '0'.toNat))
    rw [Literal.accumulate, if_pos (Nat.lt_of_le_of_lt hle h), ih h, Nat.ofDigitChars_cons]

lemma value_decimal {n : Nat} (h : n < UInt64.size) :
    Literal.value ⟨false, decimal n, none, none⟩ = .ok (.natural n) := by
  have hn : Nat.ofDigitChars 10 (decimal n) 0 = n := Nat.ofDigitChars_ten_toDigits
  simp only [Literal.value, accumulate_of_lt (hn ▸ h), hn, and_self, ↓reduceIte]
  rfl

/-- **A decimal number is read as the number that it writes.** -/
theorem readNatural_decimal {blanks rest : List Char} (hblank : Blank blanks) (hends : Ends rest)
    (expected : String) {limit n : Nat} (hn : n < limit) (hlimit : limit ≤ UInt64.size) :
    readNatural expected limit (blanks ++ (decimal n ++ rest)) = .ok (n, rest) := by
  obtain ⟨d, ds, hd, hdigit⟩ := decimal_head n
  have hskip : skipBlanks (blanks ++ (decimal n ++ rest)) = d :: (ds ++ rest) := by
    rw [hd, List.cons_append, skipBlanks_blank hblank (not_isBlank_of_isDigit hdigit)]
  have hnumber : readNumber (d :: (ds ++ rest)) = .ok (.natural n, rest) := by
    rw [← List.cons_append, ← hd]
    simp only [readNumber, take_decimal hends, value_decimal (Nat.lt_of_lt_of_le hn hlimit), bind,
      Except.bind]
  simp only [readNatural, hskip, hdigit, hnumber, or_true, ↓reduceIte, bind, Except.bind, hn]

lemma skipNumber_decimal {rest : List Char} (h : Ends rest) (n : Nat) :
    skipNumber (decimal n ++ rest) = .ok rest := by
  simp only [skipNumber, take_decimal h, bind, Except.bind]

lemma skipNumber_minus_decimal {rest : List Char} (h : Ends rest) (n : Nat) :
    skipNumber ('-' :: (decimal n ++ rest)) = .ok rest := by
  simp only [skipNumber, Literal.take, takeUnsigned_decimal h, bind, Except.bind]

/-! ### Words -/

theorem readBoolean_word {blanks : List Char} (hblank : Blank blanks) (b : Bool)
    (rest : List Char) :
    readBoolean (blanks ++ (wordOfBool b ++ rest)) = .ok (b, rest) := by
  cases b with
  | true =>
    have hskip : skipBlanks (blanks ++ (wordOfBool true ++ rest)) =
        't' :: (['r', 'u', 'e'] ++ rest) := skipBlanks_blank hblank (by decide)
    simp only [readBoolean, hskip, takeWord_append, ↓reduceIte]
    rfl
  | false =>
    have hskip : skipBlanks (blanks ++ (wordOfBool false ++ rest)) =
        'f' :: (['a', 'l', 's', 'e'] ++ rest) := skipBlanks_blank hblank (by decide)
    simp only [readBoolean, hskip, takeWord_append, ↓reduceIte]
    rfl

theorem readOptional_null {α : Type} {blanks : List Char} (hblank : Blank blanks)
    (read : Reader α) (rest : List Char) :
    readOptional read (blanks ++ (wordOfNull ++ rest)) = .ok (none, rest) := by
  have hskip : skipBlanks (blanks ++ (wordOfNull ++ rest)) = 'n' :: (['u', 'l', 'l'] ++ rest) :=
    skipBlanks_blank hblank (by decide)
  simp only [readOptional, hskip, takeWord_append]
  rfl

theorem readOptional_decimal {blanks rest : List Char} (hblank : Blank blanks) (hends : Ends rest)
    (expected : String) {limit n : Nat} (hn : n < limit) (hlimit : limit ≤ UInt64.size) :
    readOptional (readNatural expected limit) (blanks ++ (decimal n ++ rest)) =
      .ok (some n, rest) := by
  obtain ⟨d, ds, hd, hdigit⟩ := decimal_head n
  have hread := readNatural_decimal blank_nil hends expected hn hlimit
  rw [List.nil_append] at hread
  have hskip : skipBlanks (blanks ++ (decimal n ++ rest)) = decimal n ++ rest := by
    rw [hd, List.cons_append, skipBlanks_blank hblank (not_isBlank_of_isDigit hdigit)]
  have hnull : ∀ text, decimal n ++ rest ≠ 'n' :: text := by
    rw [hd]
    rintro text ⟨⟩
    exact absurd hdigit (by decide)
  rw [readOptional, hskip]
  split
  · rename_i htext
    exact absurd htext (hnull _)
  · rw [hread]
    rfl

/-! ### Values that are passed over -/

/-- A simple value is told by its first character. -/
lemma skipScalar_simple {value rest : List Char} (h : IsSimple value) (hends : Ends rest) :
    ∃ c text, value ++ rest = c :: text ∧ ¬ IsBlank c ∧ opening? c = none ∧
      skipScalar (c :: text) = .ok rest := by
  cases h with
  | null => exact ⟨'n', _, rfl, by decide, rfl, takeWord_append ['u', 'l', 'l'] rest⟩
  | boolean b =>
    cases b with
    | true => exact ⟨'t', _, rfl, by decide, rfl, takeWord_append ['r', 'u', 'e'] rest⟩
    | false => exact ⟨'f', _, rfl, by decide, rfl, takeWord_append ['a', 'l', 's', 'e'] rest⟩
  | @text s plain =>
    refine ⟨'"', s.toList ++ '"' :: rest, ?_, by decide, rfl, skip_plain plain rest⟩
    simp only [quoted, List.cons_append, List.append_assoc, List.nil_append]
  | natural n =>
    obtain ⟨d, ds, hd, hdigit⟩ := decimal_head n
    refine ⟨d, ds ++ rest, by rw [hd, List.cons_append], not_isBlank_of_isDigit hdigit, ?_, ?_⟩
    · have hbracket : d ≠ '[' ∧ d ≠ '{' := by
        constructor <;> rintro rfl <;> exact absurd hdigit (by decide)
      rw [opening?, if_neg hbracket.1, if_neg hbracket.2]
    · have hletter : d ≠ 'n' ∧ d ≠ 't' ∧ d ≠ 'f' ∧ d ≠ '"' := by
        refine ⟨?_, ?_, ?_, ?_⟩ <;> rintro rfl <;> exact absurd hdigit (by decide)
      rw [skipScalar, if_neg hletter.1, if_neg hletter.2.1, if_neg hletter.2.2.1,
        if_neg hletter.2.2.2, if_pos (Or.inr hdigit), ← List.cons_append, ← hd,
        skipNumber_decimal hends]
  | negative n =>
    exact ⟨'-', decimal n ++ rest, rfl, by decide, rfl, skipNumber_minus_decimal hends n⟩

/-- **A simple value is passed over**, and nothing else. -/
theorem skipValue_simple {blanks value rest : List Char} (hblank : Blank blanks)
    (h : IsSimple value) (hends : Ends rest) {bound : Nat} (hbound : 0 < bound) :
    skipValue bound (blanks ++ (value ++ rest)) = .ok rest := by
  obtain ⟨c, text, hvalue, hc, hopening, hskip⟩ := skipScalar_simple h hends
  obtain ⟨parts, rfl⟩ := Nat.exists_eq_succ_of_ne_zero (Nat.ne_of_gt hbound)
  simp only [skipValue, skipParts, skipPart, hvalue, skipBlanks_blank hblank hc, hopening, hskip,
    bind, Except.bind, closeBrackets]

end ByteMachine.Json

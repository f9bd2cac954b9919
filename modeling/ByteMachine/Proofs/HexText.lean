import Mathlib.Data.List.Basic
import Mathlib.Data.Nat.Digits.Defs
import Mathlib.Tactic.Common
import ByteMachine.Text.Hex

/-!
Hexadecimal text read back. The digits of a number give the number again, however many zeros stand
in front of them, and a byte is always written with two.
-/

namespace ByteMachine.Hex

def alphabet : List Char :=
  ['0', '1', '2', '3', '4', '5', '6', '7', '8', '9', 'a', 'b', 'c', 'd', 'e', 'f']

def digit? (c : Char) : Option Nat := alphabet.idxOf? c

/-- Goes on reading digits after those of `n`. -/
def valueFrom? (n : Nat) (ds : List Char) : Option Nat :=
  ds.foldlM (fun n c => (digit? c).map (16 * n + ·)) n

/-- The number that digits stand for. There has to be one. -/
def value? (ds : List Char) : Option Nat := if ds = [] then none else valueFrom? 0 ds

def byte? (high low : Char) : Option UInt8 := (value? [high, low]).map UInt8.ofNat

lemma digit?_digitChar : ∀ d < 16, digit? d.digitChar = some d := by decide

lemma valueFrom?_append (n : Nat) (xs ys : List Char) :
    valueFrom? n (xs ++ ys) = (valueFrom? n xs).bind fun k => valueFrom? k ys :=
  List.foldlM_append

lemma valueFrom?_singleton {d : Nat} (n : Nat) (hd : d < 16) :
    valueFrom? n [d.digitChar] = some (16 * n + d) := by
  simp only [valueFrom?, List.foldlM_cons, List.foldlM_nil, digit?_digitChar d hd]
  rfl

lemma valueFrom?_zeros (k : Nat) : valueFrom? 0 (List.replicate k '0') = some 0 := by
  induction k with
  | zero => rfl
  | succ k ih => exact ih

lemma valueFrom?_toDigits (n : Nat) : valueFrom? 0 (Nat.toDigits 16 n) = some n := by
  induction n using Nat.strongRecOn with
  | ind n ih =>
    by_cases hn : n < 16
    · rw [Nat.toDigits_of_lt_base hn, valueFrom?_singleton 0 hn, Nat.mul_zero, Nat.zero_add]
    · have hlt : n % 16 < 16 := Nat.mod_lt n (by decide)
      rw [Nat.toDigits_of_base_le (by decide) (Nat.not_lt.1 hn), valueFrom?_append,
        ih (n / 16) (by omega), Option.bind_some, valueFrom?_singleton _ hlt, Nat.div_add_mod]

lemma digits_ne_nil (width n : Nat) : digits width n ≠ [] :=
  List.append_ne_nil_of_right_ne_nil _ Nat.toDigits_ne_nil

/-- **Digits give their number.** -/
theorem value?_digits (width n : Nat) : value? (digits width n) = some n := by
  rw [value?, if_neg (digits_ne_nil width n), digits, List.leftpad, valueFrom?_append,
    valueFrom?_zeros, Option.bind_some, valueFrom?_toDigits]

lemma eq_of_digits_eq {width m n : Nat} (h : digits width m = digits width n) : m = n := by
  have hvalue := congrArg value? h
  rw [value?_digits, value?_digits] at hvalue
  exact Option.some.inj hvalue

/-- Only digits of the alphabet are read. -/
lemma mem_alphabet_of_valueFrom? {ds : List Char} : ∀ {n k : Nat}, valueFrom? n ds = some k →
    ∀ c ∈ ds, c ∈ alphabet := by
  induction ds with
  | nil => exact fun _ c hc => absurd hc List.not_mem_nil
  | cons d ds ih =>
    intro n k h c hc
    obtain ⟨j, hj, hrest⟩ := Option.bind_eq_some_iff.1 h
    obtain ⟨e, he, -⟩ := Option.map_eq_some_iff.1 hj
    rcases List.mem_cons.1 hc with rfl | hc
    · exact List.isSome_idxOf?.1 (Option.isSome_of_mem he)
    · exact ih hrest c hc

lemma mem_alphabet_of_mem_digits {width n : Nat} {c : Char} (hc : c ∈ digits width n) :
    c ∈ alphabet := by
  have h := value?_digits width n
  rw [value?, if_neg (digits_ne_nil width n)] at h
  exact mem_alphabet_of_valueFrom? h c hc

lemma length_digits_byte (b : UInt8) : (digits 2 b.toNat).length = 2 := by
  have hle : (Nat.toDigits 16 b.toNat).length ≤ 2 :=
    Nat.toDigits_length 16 _ 2 (by decide) b.toNat_lt
  rw [digits, List.leftpad, List.length_append, List.length_replicate]
  omega

/-- A byte is two digits, and they give it again. -/
lemma exists_byte_eq (b : UInt8) : ∃ high low, digits 2 b.toNat = [high, low] ∧
    high ∈ alphabet ∧ byte? high low = some b := by
  obtain ⟨high, low, h⟩ := List.length_eq_two.1 (length_digits_byte b)
  refine ⟨high, low, h, mem_alphabet_of_mem_digits (h ▸ List.mem_cons_self), ?_⟩
  rw [byte?, ← h, value?_digits, Option.map_some, UInt8.ofNat_toNat]

end ByteMachine.Hex

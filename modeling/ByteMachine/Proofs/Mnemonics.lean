import ByteMachine.Proofs.ListingText

/-!
The texts of instructions. The first letter tells the operation, and the operands can be read off
their digits, since there is no comma among these. So no two instructions have the same text, and
neither have two lines of a trace; and in a listing the text says what bytes stand in front of it.
-/

namespace ByteMachine

/-- A text up to the first separator, and what follows it. -/
lemma eq_of_append_cons {c : Char} {xs ys before after : List Char} (hxs : c ∉ xs)
    (hys : c ∉ ys) (h : xs ++ c :: before = ys ++ c :: after) : xs = ys ∧ before = after := by
  have htake {zs : List Char} (rest : List Char) (hzs : c ∉ zs) :
      (zs ++ c :: rest).takeWhile (· ≠ c) = zs := by
    have hall : ∀ d ∈ zs, decide (d ≠ c) = true := fun d hd => by
      rw [decide_eq_true_iff]
      rintro rfl
      exact hzs hd
    rw [List.takeWhile_append_of_pos hall, List.takeWhile_cons_of_neg (by simp), List.append_nil]
  have hsame := congrArg (List.takeWhile (· ≠ c)) h
  rw [htake before hxs, htake after hys] at hsame
  subst hsame
  exact ⟨rfl, (List.cons.inj (List.append_cancel_left h)).2⟩

lemma comma_not_mem_toDigits (n : Nat) : ',' ∉ Nat.toDigits 10 n := by
  intro h
  have hdigit := Nat.isDigit_of_mem_toDigits (by decide) (by decide) h
  exact absurd hdigit (by decide)

/-- The digits of a byte give the byte. -/
lemma eq_of_toDigits_eq {a b : UInt8}
    (h : Nat.toDigits 10 a.toNat = Nat.toDigits 10 b.toNat) : a = b := by
  have hvalue := congrArg (Nat.ofDigitChars 10 · 0) h
  simp only [Nat.ofDigitChars_ten_toDigits] at hvalue
  exact UInt8.toNat_inj.1 hvalue

/-- The first operand ends at the comma. -/
lemma eq_of_toDigits_append {a b : UInt8} {xs ys : List Char}
    (h : Nat.toDigits 10 a.toNat ++ ',' :: xs = Nat.toDigits 10 b.toNat ++ ',' :: ys) :
    a = b ∧ xs = ys := by
  obtain ⟨hdigits, hrest⟩ :=
    eq_of_append_cons (comma_not_mem_toDigits _) (comma_not_mem_toDigits _) h
  exact ⟨eq_of_toDigits_eq hdigits, hrest⟩

/-- What stands in front of the operands. -/
def Opcode.lead : Opcode → List Char
  | nop => ['n', 'o', 'p']
  | halt => ['h', 'a', 'l', 't']
  | load => ['l', 'o', 'a', 'd', ' ', 'r']
  | store => ['s', 't', 'o', 'r', 'e', ' ', 'r']
  | add => ['a', 'd', 'd', ' ', 'r']

/-- The first letter tells the operation. -/
lemma Opcode.eq_of_head?_lead {op op' : Opcode} {xs ys : List Char}
    (h : (op.lead ++ xs).head? = (op'.lead ++ ys).head?) : op = op' := by
  cases op <;> cases op' <;> first | rfl | exact absurd (Option.some.inj h) (by decide)

namespace Instruction

/-- The operands as they are written, from the number of the first register on. -/
def operandText : Instruction → List Char
  | nop => []
  | halt => []
  | load reg value => Nat.toDigits 10 reg.toNat ++ ',' :: ' ' :: Nat.toDigits 10 value.toNat
  | add target source =>
    Nat.toDigits 10 target.toNat ++ ',' :: ' ' :: 'r' :: Nat.toDigits 10 source.toNat
  | store source addr =>
    Nat.toDigits 10 source.toNat ++ ',' :: ' ' :: '0' :: 'x' :: Hex.digits 4 addr.toNat

lemma toList_mnemonic (i : Instruction) : i.mnemonic.toList = i.opcode.lead ++ i.operandText := by
  cases i <;> simp [mnemonic, registerName, operandText, opcode, Opcode.lead, Hex.lower]

/-- **The text of an instruction determines it.** -/
theorem mnemonic_injective : Function.Injective mnemonic := by
  intro i j h
  have htext := congrArg String.toList h
  rw [toList_mnemonic, toList_mnemonic] at htext
  have hop := Opcode.eq_of_head?_lead (congrArg List.head? htext)
  rw [hop] at htext
  have hoperands := List.append_cancel_left htext
  cases i with
  | nop | halt => cases j <;> first | rfl | cases hop
  | load reg value =>
    cases j with
    | load reg' value' =>
      obtain ⟨rfl, hrest⟩ := eq_of_toDigits_append hoperands
      obtain rfl := eq_of_toDigits_eq (List.cons.inj hrest).2
      rfl
    | _ => cases hop
  | add target source =>
    cases j with
    | add target' source' =>
      obtain ⟨rfl, hrest⟩ := eq_of_toDigits_append hoperands
      obtain rfl := eq_of_toDigits_eq (List.cons.inj (List.cons.inj hrest).2).2
      rfl
    | _ => cases hop
  | store source addr =>
    cases j with
    | store source' addr' =>
      obtain ⟨rfl, hrest⟩ := eq_of_toDigits_append hoperands
      simp only [List.cons.injEq, true_and] at hrest
      obtain rfl := UInt16.toNat_inj.1 (Hex.eq_of_digits_eq hrest)
      rfl
    | _ => cases hop

/-- No mnemonic looks like the text of a fault. -/
lemma mnemonic_ne_fault (i : Instruction) (f : Fault) : "; " ++ f.message ≠ i.mnemonic := by
  intro h
  have htext : ';' :: ' ' :: f.message.toList = i.opcode.lead ++ i.operandText := by
    rw [← toList_mnemonic, ← h, String.toList_append]
    rfl
  cases i <;> exact absurd (List.cons.inj htext).1 (by decide)

end Instruction

/-! ### Lines of the log -/

namespace Event

/-- Only lines of the trace begin with its letter. -/
lemma level_of_head?_line {e : Event} (h : e.line.toList.head? = some 'T') : e.level = .trace := by
  rcases hlevel : e.level with _ | _ | _ | _ | _
  case trace => rfl
  all_goals
    simp only [line, hlevel, Level.name, String.toList_append, String.toList_ofList] at h
    exact absurd (Option.some.inj h) (by decide)

lemma toList_line_traced (a : Address) (i : Instruction) :
    (traced a i).line.toList = ['T', 'R', 'A', 'C', 'E', ' ', '0', 'x'] ++
      (Hex.digits 4 a.toNat ++ ':' :: ' ' :: i.mnemonic.toList) := by
  have hname : Level.trace.name.toList.leftpad 5 ' ' = ['T', 'R', 'A', 'C', 'E'] := by decide
  have hlevel : (traced a i).level = .trace := rfl
  have hmessage : (traced a i).message = "0x" ++ String.ofList (Hex.digits 4 a.toNat) ++ ": "
      ++ i.mnemonic := rfl
  have hfields : (traced a i).fields = [] := rfl
  rw [line, hlevel, hname, hmessage, hfields]
  simp only [List.map_nil, String.toList_append, String.toList_ofList, String.reduceToList,
    String.toList_join, List.flatMap_nil, List.cons_append, List.nil_append, List.append_nil,
    List.append_assoc]

/-- **A line of the trace tells the address and the instruction**, and no other line looks like
it. -/
theorem eq_of_line_traced {e : Event} {a : Address} {i : Instruction}
    (h : e.line = (traced a i).line) : e = .traced a i := by
  have htrace : e.level = .trace := by
    refine level_of_head?_line ?_
    rw [h, toList_line_traced]
    rfl
  cases e with
  | traced b j =>
    have hlines := congrArg String.toList h
    rw [toList_line_traced, toList_line_traced] at hlines
    have hcolon (n : Nat) : ':' ∉ Hex.digits 4 n := fun hc =>
      colon_not_mem_alphabet (Hex.mem_alphabet_of_mem_digits hc)
    obtain ⟨haddr, htext⟩ :=
      eq_of_append_cons (hcolon _) (hcolon _) (List.append_cancel_left hlines)
    obtain rfl := UInt32.toNat_inj.1 (Hex.eq_of_digits_eq haddr)
    have hmnemonic := String.toList_inj.1 (List.cons.inj htext).2
    rw [Instruction.mnemonic_injective hmnemonic]
  | _ => cases htrace

end Event

/-! ### Lines of a listing -/

/-- What is listed is decoded where it says. -/
lemma mem_listing {bytes : Array UInt8} {start stop : Address} {line : String}
    (h : line ∈ listing bytes start stop) :
    ∃ x : Located, x.line bytes = line ∧ decode bytes x.addr = x.content := by
  obtain ⟨x, hx, rfl⟩ := List.mem_map.1 h
  exact ⟨x, rfl, (walk_decodeRange bytes start stop).decode_of_mem hx⟩

/-- **Texts of instructions are unambiguous**, also with operands that name no register. Two
instructions with the same text are the same. A line of the log that reads like one of the trace is
that one, so that it says which instruction was read, and where. And a line of a listing whose text
is that of an instruction shows the bytes to which this instruction is encoded. -/
theorem mnemonics_unambiguous :
    (∀ i j : Instruction, i.mnemonic = j.mnemonic → i = j) ∧
    (∀ (e : Event) (a : Address) (i : Instruction),
      e.line = (Event.traced a i).line → e = .traced a i) ∧
    ∀ (bytes : Array UInt8) (start stop : Address), ∀ line ∈ listing bytes start stop,
      ∃ r, Reading.ofLine? line = some r ∧
        ∀ i : Instruction, r.text = i.mnemonic → r.bytes = some i.encode := by
  refine ⟨fun i j h => Instruction.mnemonic_injective h, fun e a i h => Event.eq_of_line_traced h,
    fun bytes start stop line hline => ?_⟩
  obtain ⟨x, rfl, hx⟩ := mem_listing hline
  refine ⟨.ofLocated x, ofLine?_line hx, fun i htext => ?_⟩
  obtain ⟨addr, f | j⟩ := x
  · exact absurd htext (i.mnemonic_ne_fault f)
  · rw [Instruction.mnemonic_injective (htext : j.mnemonic = i.mnemonic).symm]
    rfl

/-- A value and an address with the same digits, and a register that does not exist. -/
example : [Instruction.load 25 5, .load 2 55, .add 2 5, .store 255 5].map Instruction.mnemonic =
    ["load r25, 5", "load r2, 55", "add r2, r5", "store r255, 0x0005"] := by
  cbv

end ByteMachine

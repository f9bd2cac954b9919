import ByteMachine.Proofs.Codec
import ByteMachine.Proofs.HexText

/-!
Listings as they are read. A reader who has nothing but the lines takes the number in front of the
colon for the address and the pairs of digits in the column after it for bytes, and so gets back
where each instruction stands, of what bytes it is made, and where the code ends.
-/

namespace ByteMachine

open Located

/-! ### The reader -/

/-- The bytes of a column: two digits and a blank for each, and blanks up to the end. -/
def columnBytes? (column : List Char) : Option (List UInt8) :=
  if column.all (· = ' ') then some []
  else
    match column with
    | high :: low :: ' ' :: rest => do
      let b ← Hex.byte? high low
      let bs ← columnBytes? rest
      return b :: bs
    | _ => none

/-- The column of a line that shows no instruction. -/
def faultColumn : List Char := ['?', '?'].rightpad bytesWidth ' '

/-- The bytes of a column, or none if it says that there is a fault. -/
def readColumn? (column : List Char) : Option (Option (List UInt8)) :=
  if column = faultColumn then some none else (columnBytes? column).map some

/-- What a line tells its reader. -/
structure Reading where
  addr : Nat
  /-- None where there is a fault. -/
  bytes : Option (List UInt8)
  /-- What stands after the column. -/
  text : String

namespace Reading

/-- Reads a line: the number up to the first colon, the column, and the text after it. -/
def ofLine? (line : String) : Option Reading :=
  match line.toList.takeWhile (· ≠ ':'), line.toList.dropWhile (· ≠ ':') with
  | '0' :: 'x' :: number, ':' :: ' ' :: ' ' :: row => do
    let addr ← Hex.value? number
    let bytes ← readColumn? (row.take bytesWidth)
    match row.drop bytesWidth with
    | ' ' :: text => return ⟨addr, bytes, String.ofList text⟩
    | _ => none
  | _, _ => none

def ofListing? (lines : List String) : Option (List Reading) := lines.mapM ofLine?

/-- What there is to be read of an instruction or a fault. -/
def ofLocated (x : Located) : Reading :=
  match x.content with
  | .ok i => ⟨x.addr.toNat, some i.encode, i.mnemonic⟩
  | .error f => ⟨x.addr.toNat, none, "; " ++ f.message⟩

lemma addr_ofLocated (x : Located) : (ofLocated x).addr = x.addr.toNat := by
  rw [ofLocated]
  split <;> rfl

/-- The reading is that of what stands at an address in some bytes: the address and, if it is an
instruction, the bytes that it takes up, from which it is decoded, and its mnemonic. -/
structure Shows (bytes : Array UInt8) (r : Reading) (x : Located) : Prop where
  addr : r.addr = x.addr.toNat
  instruction : ∀ i, x.content = .ok i → ∃ raw, r.bytes = some raw ∧ raw.length = i.size ∧
    raw = (bytes.extract x.addr.toNat (x.addr.toNat + i.size)).toList ∧
    decode raw.toArray 0 = .ok i ∧ r.text = i.mnemonic
  fault : ∀ f, x.content = .error f → r.bytes = none ∧ r.text = "; " ++ f.message

end Reading

/-! ### Columns -/

/-- The text of some bytes, with a blank after each. -/
def bytesText (bs : List UInt8) : List Char := bs.flatMap fun b => Hex.digits 2 b.toNat ++ [' ']

lemma bytesText_cons {b : UInt8} {high low : Char} (hb : Hex.digits 2 b.toNat = [high, low])
    (bs : List UInt8) : bytesText (b :: bs) = high :: low :: ' ' :: bytesText bs := by
  rw [bytesText, List.flatMap_cons, hb]
  rfl

lemma length_bytesText (bs : List UInt8) : (bytesText bs).length = 3 * bs.length := by
  induction bs with
  | nil => rfl
  | cons b bs ih =>
    obtain ⟨high, low, hb, -⟩ := Hex.exists_byte_eq b
    simp only [bytesText_cons hb, List.length_cons, ih]
    omega

lemma blank_not_mem_alphabet : ' ' ∉ Hex.alphabet := by decide

/-- **Bytes in a column are read back**, whatever blanks fill it. -/
lemma columnBytes?_bytesText (bs : List UInt8) (k : Nat) :
    columnBytes? (bytesText bs ++ List.replicate k ' ') = some bs := by
  induction bs with
  | nil =>
    have hblank : (List.replicate k ' ').all (· = ' ') = true := by simp
    change columnBytes? (List.replicate k ' ') = some []
    unfold columnBytes?
    rw [if_pos hblank]
  | cons b bs ih =>
    obtain ⟨high, low, hb, hhigh, hbyte⟩ := Hex.exists_byte_eq b
    have hdigit : high ≠ ' ' := fun h => blank_not_mem_alphabet (h ▸ hhigh)
    rw [bytesText_cons hb, List.cons_append, List.cons_append, List.cons_append, columnBytes?,
      if_neg (by simp [hdigit])]
    simp only [hbyte, ih]
    rfl

lemma rightpad_bytesText {bs : List UInt8} (h : bs.length ≤ 4) :
    ((bytesText bs).rightpad bytesWidth ' ').length = bytesWidth := by
  have hlen := length_bytesText bs
  rw [List.rightpad, List.length_append, List.length_replicate, bytesWidth]
  omega

lemma readColumn?_bytesText (bs : List UInt8) :
    readColumn? ((bytesText bs).rightpad bytesWidth ' ') = some (some bs) := by
  have hread : columnBytes? ((bytesText bs).rightpad bytesWidth ' ') = some bs :=
    columnBytes?_bytesText bs _
  have hfault : columnBytes? faultColumn = none := by decide
  rw [readColumn?, if_neg, hread, Option.map_some]
  intro h
  rw [h, hfault] at hread
  cases hread

/-! ### Lines -/

lemma colon_not_mem_alphabet : ':' ∉ Hex.alphabet := by decide

/-- A line that is put together as it should be is read. -/
lemma ofLine?_eq {line text : String} {n : Nat} (column : List Char)
    {bytes : Option (List UInt8)}
    (hline : line.toList =
      '0' :: 'x' :: Hex.digits 4 n ++ ':' :: ' ' :: ' ' :: (column ++ ' ' :: text.toList))
    (hlength : column.length = bytesWidth) (hcolumn : readColumn? column = some bytes) :
    Reading.ofLine? line = some ⟨n, bytes, text⟩ := by
  have hnumber : ∀ c ∈ '0' :: 'x' :: Hex.digits 4 n, decide (c ≠ ':') = true := by
    intro c hc
    rw [decide_eq_true_iff]
    rintro rfl
    simp only [List.mem_cons] at hc
    obtain hc | hc | hc := hc
    · cases hc
    · cases hc
    · exact colon_not_mem_alphabet (Hex.mem_alphabet_of_mem_digits hc)
  have htake : line.toList.takeWhile (· ≠ ':') = '0' :: 'x' :: Hex.digits 4 n := by
    rw [hline, List.takeWhile_append_of_pos hnumber]
    exact List.append_nil _
  have hdrop : line.toList.dropWhile (· ≠ ':') =
      ':' :: ' ' :: ' ' :: (column ++ ' ' :: text.toList) := by
    rw [hline, List.dropWhile_append_of_pos hnumber]
    rfl
  have hrow : (column ++ ' ' :: text.toList).take bytesWidth = column := List.take_left' hlength
  have htext : (column ++ ' ' :: text.toList).drop bytesWidth = ' ' :: text.toList :=
    List.drop_left' hlength
  unfold Reading.ofLine?
  rw [htake, hdrop]
  simp only [hrow, htext, Hex.value?_digits, hcolumn, String.ofList_toList]
  rfl

/-- **A line is read back**: of an instruction where its bytes stand, and of a fault. -/
theorem ofLine?_line {bytes : Array UInt8} {x : Located} (hx : decode bytes x.addr = x.content) :
    Reading.ofLine? (x.line bytes) = some (.ofLocated x) := by
  obtain ⟨addr, f | i⟩ := x
  · refine ofLine?_eq faultColumn ?_ (by decide) (by decide)
    simp only [line, padded, Hex.lower, faultColumn, String.toList_append, String.toList_ofList,
      String.reduceToList, List.cons_append, List.nil_append, List.append_assoc]
  · have hraw : slice? bytes addr.toNat i.size = some i.encode.toArray := slice?_of_decode hx
    have hshort : i.encode.length ≤ 4 := by
      rw [Instruction.length_encode]
      exact i.size_le
    refine ofLine?_eq _ ?_ (rightpad_bytesText hshort) (readColumn?_bytesText i.encode)
    simp only [line, padded, hraw, Hex.lower, Hex.byte, bytesText, Option.getD_some,
      String.toList_append, String.toList_ofList, String.toList_join, List.flatMap_map,
      String.reduceToList, List.cons_append, List.nil_append, List.append_assoc]

/-! ### Listings -/

lemma mapM_eq_some_map {α β : Type} {f : α → Option β} {g : α → β} {l : List α}
    (h : ∀ x ∈ l, f x = some (g x)) : l.mapM f = some (l.map g) := by
  induction l with
  | nil => rfl
  | cons x l ih =>
    obtain ⟨hx, hl⟩ := List.forall_mem_cons.1 h
    rw [List.mapM_cons, hx, ih hl]
    rfl

lemma ofListing?_map {bytes : Array UInt8} {code : List Located}
    (h : ∀ x ∈ code, decode bytes x.addr = x.content) :
    Reading.ofListing? (code.map (Located.line bytes)) = some (code.map .ofLocated) := by
  have hread : ∀ x ∈ code, Reading.ofLine? (x.line bytes) = some (.ofLocated x) :=
    fun x hx => ofLine?_line (h x hx)
  rw [Reading.ofListing?, List.mapM_map, Function.comp_def]
  exact mapM_eq_some_map hread

/-- What is listed is what is decoded where it says. -/
lemma Walk.decode_of_mem {bytes : Array UInt8} {stop a : Address} {code : List Located}
    (h : Walk bytes stop a code) {x : Located} (hx : x ∈ code) :
    decode bytes x.addr = x.content := by
  obtain ⟨before, after, hcode⟩ := List.append_of_mem hx
  exact (h.line hcode).2.2.1

lemma shows_ofLocated {bytes : Array UInt8} {x : Located} (hx : decode bytes x.addr = x.content) :
    (Reading.ofLocated x).Shows bytes x := by
  obtain ⟨addr, f | i⟩ := x
  · exact ⟨rfl, nofun, fun g hg => by cases hg; exact ⟨rfl, rfl⟩⟩
  · refine ⟨rfl, fun j hj => ?_, nofun⟩
    cases hj
    have hheld := decode_eq_ok_iff.1 hx
    have hself : HoldsAt i.encode.toArray 0 i.encode := by
      intro k _
      rw [Nat.zero_add, List.getElem?_toArray]
    refine ⟨i.encode, rfl, i.length_encode, ?_, decode_eq_ok_iff.2 hself, rfl⟩
    rw [← i.length_encode, hheld.extract_eq]

/-- The bytes read are those of the instructions. -/
lemma flatten_bytes_ofLocated (code : List Located) :
    ((code.map Reading.ofLocated).filterMap Reading.bytes).flatten =
      assemble (instructions code) := by
  induction code with
  | nil => rfl
  | cons x code ih =>
    obtain ⟨addr, f | i⟩ := x
    · exact ih
    · rw [instructions_ok, assemble_cons, ← ih]
      rfl

/-- **A listing can be read back.** It has a line for each thing found in the range, and its reader
gets the address of each; for an instruction also the very bytes that stand there, from which it is
decoded, and its mnemonic; and for a fault that it is one, and which. Put one after the other, the
bytes read are those of memory from the start of the range up to the end of the last instruction. -/
theorem listing_reads_back (bytes : Array UInt8) (start stop : Address) :
    let code := (decodeRange bytes start stop).toList
    (listing bytes start stop).length = code.length ∧
    ∃ read, Reading.ofListing? (listing bytes start stop) = some read ∧
      List.Forall₂ (Reading.Shows bytes) read code ∧
      (read.filterMap Reading.bytes).flatten =
        (bytes.extract start.toNat (reached start.toNat code)).toList := by
  intro code
  have hwalk : Walk bytes stop start code := walk_decodeRange bytes start stop
  refine ⟨List.length_map _, code.map .ofLocated, ?_, ?_, ?_⟩
  · exact ofListing?_map fun x hx => hwalk.decode_of_mem hx
  · rw [List.forall₂_map_left_iff, List.forall₂_same]
    exact fun x hx => shows_ofLocated (hwalk.decode_of_mem hx)
  · rw [flatten_bytes_ofLocated, hwalk.reached_eq, hwalk.holdsAt.extract_eq]

/-- An address of more than four digits, a column that is full, and memory that ends inside an
instruction. -/
example : Reading.ofListing? ["0x10000:  11 02 34 12  store r2, 0x1234",
    "0x10004:  ??           ; instruction 0x10 at 0x10004 extends beyond memory"] =
      some [⟨0x10000, some [0x11, 2, 0x34, 0x12], "store r2, 0x1234"⟩,
        ⟨0x10004, none, "; instruction 0x10 at 0x10004 extends beyond memory"⟩] := by
  cbv

end ByteMachine

import ByteMachine.Proofs.Placement

/-!
Headers written back as they were read. The fields of a header stand one after the other and fill
all of its bytes, so that headers and lists of 28 bytes are the same thing in two forms.
-/

namespace ByteMachine.Header

variable {bytes : List UInt8} {start width : Nat}

/-! ### Fields -/

lemma length_drop_take (h : start + width ≤ bytes.length) :
    ((bytes.drop start).take width).length = width := by
  rw [List.length_take, List.length_drop]
  omega

/-- A field is written back as it was read. -/
lemma encode_field (h : start + width ≤ bytes.length) :
    LittleEndian.encode width (field bytes start width) = (bytes.drop start).take width := by
  have hback := LittleEndian.encode_decode ((bytes.drop start).take width)
  rwa [length_drop_take h] at hback

lemma field_lt (h : start + width ≤ bytes.length) :
    field bytes start width < Nat.pow 256 width := by
  have hlt := LittleEndian.decode_lt ((bytes.drop start).take width)
  rwa [length_drop_take h] at hlt

lemma encode_half (h : start + 2 ≤ bytes.length) :
    LittleEndian.encode 2 (UInt16.ofNat (field bytes start 2)).toNat =
      (bytes.drop start).take 2 := by
  rw [UInt16.toNat_ofNat', Nat.mod_eq_of_lt (field_lt h), encode_field h]

lemma encode_word (h : start + 4 ≤ bytes.length) :
    LittleEndian.encode 4 (UInt32.ofNat (field bytes start 4)).toNat =
      (bytes.drop start).take 4 := by
  rw [UInt32.toNat_ofNat', Nat.mod_eq_of_lt (field_lt h), encode_field h]

/-! ### Headers -/

/-- **A header is written back as it was read**: each field begins where the one before it ends. -/
theorem encode_decode (h : size ≤ bytes.length) : (decode bytes).encode = bytes.take size := by
  rw [size] at h
  rw [encode, signature_decode (by omega)]
  simp only [decode]
  rw [encode_half (by omega), encode_half (by omega), encode_word (by omega),
    encode_word (by omega), encode_word (by omega), encode_word (by omega),
    encode_word (by omega)]
  simp only [← List.take_add]
  rfl

lemma encode_inFront {file : Array UInt8} (h : 28 ≤ file.size) :
    (inFront file).encode = file.toList.take 28 := by
  have hlen := length_front h
  rw [inFront, encode_decode (Nat.le_of_eq hlen.symm), toList_front, List.take_take]
  rfl

/-- **Headers are lists of 28 bytes.** Each such list is what exactly one header is written as. A
file is refused if and only if it is shorter, with its size; from any other the header is read that
is written as the first 28 bytes, whatever follows them; and a header reads back as it was written,
whatever follows it. -/
theorem codec_bijective :
    Function.Bijective (fun h : Header =>
      (⟨h.encode, h.length_encode⟩ : { bytes : List UInt8 // bytes.length = 28 })) ∧
    (∀ file e, ofFile file = .error e ↔ file.size < 28 ∧ e = .malformedHeader file.size) ∧
    (∀ file, 28 ≤ file.size → ∃ h, ofFile file = .ok h ∧ h.encode = file.toList.take 28) ∧
    ∀ (h : Header) (rest : List UInt8), ofFile (h.encode ++ rest).toArray = .ok h := by
  refine ⟨⟨fun h h' heq => ?_, ?_⟩, fun file e => ?_, fun file hfile => ?_, ofFile_encode⟩
  · have hbytes : h.encode = h'.encode := congrArg Subtype.val heq
    have hread := h.decode_encode []
    rw [hbytes, h'.decode_encode] at hread
    exact hread.symm
  · rintro ⟨bytes, hlen⟩
    have hback : (decode bytes).encode = bytes.take size := encode_decode (Nat.le_of_eq hlen.symm)
    rw [size, List.take_of_length_le (Nat.le_of_eq hlen)] at hback
    exact ⟨decode bytes, Subtype.ext hback⟩
  · by_cases hlt : file.size < 28
    · rw [ofFile_of_lt hlt, Except.error.injEq]
      exact ⟨fun h => ⟨hlt, h.symm⟩, fun h => h.2.symm⟩
    · rw [ofFile_of_le (Nat.not_lt.1 hlt)]
      exact ⟨fun h => (by cases h), fun h => absurd h.1 hlt⟩
  · exact ⟨inFront file, ofFile_of_le hfile, encode_inFront hfile⟩

/-- Thirty bytes that all differ: the fields share none, and the last two bytes are in no field. -/
theorem codec_bijective_counting :
    let file : Array UInt8 := ((List.range 30).map UInt8.ofNat).toArray
    28 ≤ file.size ∧ ∃ h, ofFile file = .ok h ∧
      h.encode = (List.range 28).map UInt8.ofNat ∧ h.flags = 0x0706 ∧ h.fileSize = 0x1b1a1918 := by
  intro file
  have hfile : 28 ≤ file.size := by decide
  obtain ⟨-, -, hread, -⟩ := codec_bijective
  obtain ⟨h, hh, hencode⟩ := hread file hfile
  have hfront : h = inFront file := (Except.ok.inj ((ofFile_of_le hfile).symm.trans hh)).symm
  refine ⟨hfile, h, hh, hencode.trans (by decide), ?_, ?_⟩
  · rw [hfront]
    decide +kernel
  · rw [hfront]
    decide +kernel

end ByteMachine.Header

import Mathlib.Tactic.Common
import Mathlib.Tactic.IntervalCases
import ByteMachine.Proofs.Decoding
import ByteMachine.Simulator

/-!
Headers and images read back as they were written, and what memory holds once an image has been
placed.
-/

namespace ByteMachine

/-! ### Headers -/

namespace Header

lemma field_here {width n : Nat} (h : n < Nat.pow 256 width) (rest : List UInt8) :
    field (LittleEndian.encode width n ++ rest) 0 width = n := by
  have hlen := LittleEndian.length_encode width n
  rw [field, List.drop_zero, List.take_append_of_le_length (Nat.le_of_eq hlen.symm),
    List.take_of_length_le (Nat.le_of_eq hlen), LittleEndian.decode_encode, Nat.mod_eq_of_lt h]

lemma field_skip (front rest : List UInt8) {start : Nat} (h : front.length ≤ start)
    (width : Nat) :
    field (front ++ rest) start width = field rest (start - front.length) width := by
  rw [field, List.drop_append, List.drop_eq_nil_of_le h, List.nil_append, field]

lemma field_skip_signature (s : Vector UInt8 4) (rest : List UInt8) {start : Nat}
    (h : 4 ≤ start) (width : Nat) :
    field (s.toList ++ rest) start width = field rest (start - 4) width := by
  have hlen : s.toList.length = 4 := by simp
  rw [field_skip _ _ (by omega), hlen]

lemma field_skip_encode {w : Nat} (n : Nat) (rest : List UInt8) {start : Nat} (h : w ≤ start)
    (width : Nat) :
    field (LittleEndian.encode w n ++ rest) start width = field rest (start - w) width := by
  have hlen := LittleEndian.length_encode w n
  rw [field_skip _ _ (by omega), hlen]

lemma field_half (x : UInt16) (rest : List UInt8) :
    UInt16.ofNat (field (LittleEndian.encode 2 x.toNat ++ rest) 0 2) = x := by
  rw [field_here x.toNat_lt, UInt16.ofNat_toNat]

lemma field_word (x : UInt32) (rest : List UInt8) :
    UInt32.ofNat (field (LittleEndian.encode 4 x.toNat ++ rest) 0 4) = x := by
  rw [field_here x.toNat_lt, UInt32.ofNat_toNat]

lemma signature_encode (s : Vector UInt8 4) (rest : List UInt8) :
    #v[(s.toList ++ rest).getD 0 0, (s.toList ++ rest).getD 1 0, (s.toList ++ rest).getD 2 0,
      (s.toList ++ rest).getD 3 0] = s := by
  ext k hk
  have hget : (s.toList ++ rest).getD k 0 = s[k] := by
    rw [List.getD_eq_getElem?_getD, List.getElem?_append_left (by simpa using hk)]
    simp [hk]
  rw [← hget]
  interval_cases k <;> rfl

/-- **A header reads back as it was written**, whatever follows it. -/
theorem decode_encode (h : Header) (rest : List UInt8) : decode (h.encode ++ rest) = h := by
  simp only [encode, decode, List.append_assoc, signature_encode, field_skip_signature,
    field_skip_encode, field_half, field_word, Nat.reduceLeDiff, Nat.reduceSub]

lemma ofFile_encode (h : Header) (rest : List UInt8) :
    ofFile (h.encode ++ rest).toArray = .ok h := by
  have hlen := h.length_encode
  have hsize : ¬ (h.encode ++ rest).toArray.size < size := by
    simp only [List.size_toArray, List.length_append, hlen]
    omega
  have hfront : ((h.encode ++ rest).toArray.extract 0 size).toList = h.encode := by
    simp [hlen]
  have hdecode := h.decode_encode []
  rw [List.append_nil] at hdecode
  rw [ofFile, if_neg hsize, hfront, hdecode]

end Header

/-! ### Images -/

namespace Memory

lemma getElem?_write (m : Memory) (a : Address) (v : UInt8) (k : Nat) :
    (m.write a v).bytes[k]? = if k = a.toNat ∧ k < m.size then some v else m.bytes[k]? := by
  rw [write, Array.getElem?_setIfInBounds]
  by_cases hk : a.toNat = k
  · subst hk
    by_cases hin : a.toNat < m.bytes.size
    · rw [if_pos rfl, if_pos hin, if_pos ⟨rfl, hin⟩]
    · rw [if_pos rfl, if_neg hin, if_neg fun h => hin h.2]
      exact (Array.getElem?_eq_none (Nat.not_lt.1 hin)).symm
  · rw [if_neg hk, if_neg fun h => hk h.1.symm]

/-- **What placing leaves in memory**: the bytes that have room, and what was there before. -/
theorem getElem?_load (m : Memory) (offset : Address) (body : Array UInt8) (k : Nat) :
    (m.load offset body).bytes[k]? =
      if offset.toNat ≤ k ∧ k < offset.toNat + m.room offset body.size then
        body[k - offset.toNat]?
      else m.bytes[k]? := by
  have hroom : m.room offset body.size ≤ body.size := Nat.min_le_left ..
  have hin : 0 < m.room offset body.size →
      offset.toNat + m.room offset body.size ≤ m.bytes.size := by
    simp only [room, size]
    omega
  obtain ⟨r, hr⟩ : ∃ r, r = m.room offset body.size := ⟨_, rfl⟩
  simp only [load, ← hr, Array.getElem?_append, Array.size_append, Array.size_extract,
    Array.getElem?_extract, size] at hin hroom ⊢
  by_cases hk : offset.toNat ≤ k ∧ k < offset.toNat + r
  · have := hin (by omega)
    rw [if_pos hk, if_pos (by omega), if_neg (by omega), if_pos (by omega)]
    congr 1
    omega
  · rw [if_neg hk]
    by_cases hlt : k < min offset.toNat m.bytes.size
    · rw [if_pos (by omega), if_pos (by omega), if_pos (by omega), Nat.zero_add]
    · rw [if_neg (by omega)]
      split
      · congr 1
        omega
      · exact (Array.getElem?_eq_none (by omega)).symm

lemma room_of_fits {m : Memory} {offset : Address} {n : Nat} (h : offset.toNat + n ≤ m.size) :
    m.room offset n = n := by
  rw [room]
  omega

/-- What is placed stands in memory as far as there is room. -/
lemma holdsAt_load_take (m : Memory) (offset : Address) (body : List UInt8) :
    HoldsAt (m.load offset body.toArray).bytes offset.toNat
      (body.take (m.size - offset.toNat)) := by
  intro k hk
  rw [List.length_take] at hk
  rw [getElem?_load, List.size_toArray, room, if_pos (by omega), Nat.add_sub_cancel_left,
    List.getElem?_toArray, List.getElem?_take, if_pos (by omega)]

lemma holdsAt_load {m : Memory} {offset : Address} {body : List UInt8}
    (h : offset.toNat + body.length ≤ m.size) :
    HoldsAt (m.load offset body.toArray).bytes offset.toNat body := by
  have hheld := m.holdsAt_load_take offset body
  rwa [List.take_of_length_le (by omega)] at hheld

lemma getElem?_zeroed (n k : Nat) :
    (zeroed n).bytes[k]? = if k < (zeroed n).size then some 0 else none := by
  rw [size_zeroed]
  exact Array.getElem?_replicate

/-- New memory with something in it is zero around it. -/
lemma toList_load_zeroed {n : Nat} {offset : Address} {body : List UInt8}
    (h : offset.toNat + body.length ≤ (zeroed n).size) :
    ((zeroed n).load offset body.toArray).bytes.toList =
      List.replicate offset.toNat 0 ++ body ++
        List.replicate ((zeroed n).size - (offset.toNat + body.length)) 0 := by
  have hroom := room_of_fits h
  refine List.ext_getElem? fun k => ?_
  rw [Array.getElem?_toList, getElem?_load, List.size_toArray, hroom]
  simp only [List.getElem?_append, List.length_append, List.length_replicate,
    List.getElem?_replicate, List.getElem?_toArray, getElem?_zeroed]
  rcases Nat.lt_or_ge k offset.toNat with hlt | hge
  · rw [if_neg (by omega), if_pos (by omega), if_pos (by omega), if_pos hlt, if_pos hlt]
  · by_cases hk : k < offset.toNat + body.length
    · rw [if_pos ⟨hge, hk⟩, if_pos hk, if_neg (by omega)]
    · rw [if_neg (by omega), if_neg hk]
      by_cases hin : k < (zeroed n).size
      · rw [if_pos hin, if_pos (by omega)]
      · rw [if_neg hin, if_neg (by omega)]

lemma clear_zeroed (n : Nat) : (zeroed n).clear = zeroed n := by
  rw [clear, size_zeroed]
  simp only [zeroed, Nat.min_assoc, Nat.min_self]

end Memory

/-- A machine whose settings keep their bounds has the memory that they ask for. -/
lemma Config.IsValid.size_ofConfig {c : Config} (h : c.IsValid) :
    (Machine.ofConfig c).memory.size = c.memory.size := by
  have hle := h.size_le
  rw [Config.maxMemorySize] at hle
  exact (Memory.size_zeroed _).trans (Nat.min_eq_left (by omega))

namespace Machine

lemma reset_ofConfig (c : Config) : (ofConfig c).reset = ofConfig c := by
  simp only [reset, ofConfig, Memory.clear_zeroed]

/-- A file that begins with a header has a body as long as the header announces. -/
lemma bodyOf_encode (h : Header) (body : List UInt8) :
    bodyOf (h.encode ++ body).toArray h = (body.take h.bodySize).toArray := by
  have hlen := h.length_encode
  have hsize : (h.encode ++ body).toArray.size - Header.size = body.length := by
    simp only [List.size_toArray, List.length_append, hlen]
    omega
  have hslice : slice? (h.encode ++ body).toArray Header.size (min h.bodySize body.length) =
      some (body.take h.bodySize).toArray := by
    rw [slice?_eq_some_iff]
    refine ⟨?_, ?_⟩
    · simp only [List.size_toArray, List.length_append, hlen]
      omega
    · simp [hlen]
  rw [bodyOf, hsize, hslice, Option.getD_some]

/-- An image whose header is signed is installed as far as its header tells its size. -/
lemma install_encode_take (m : Machine) {i : Image} (hs : i.header.IsSigned) :
    m.install i.encode.toArray =
      .ok (m.place i.header (i.body.take i.header.bodySize).toArray) := by
  rw [install, Image.encode, Header.ofFile_encode]
  dsimp only
  rw [if_pos hs, bodyOf_encode]

/-- **An image is installed as it was written**, if its header is signed and tells its size. -/
theorem install_encode (m : Machine) {i : Image} (hs : i.header.IsSigned)
    (hn : i.body.length ≤ i.header.bodySize) :
    m.install i.encode.toArray = .ok (m.place i.header i.body.toArray) := by
  rw [m.install_encode_take hs, List.take_of_length_le hn]

lemma place_ofConfig (c : Config) (h : Header) (body : Array UInt8) :
    ((ofConfig c).place h body).machine = { ofConfig c with
      memory := (Memory.zeroed c.memory.size).load h.head body
      pc := h.entry } := by
  simp only [place, reset_ofConfig]
  rfl

lemma emitted_place (m : Machine) (h : Header) (body : Array UInt8) :
    Effect.emitted (m.place h body).effects = [] := by
  simp only [place, Effect.emitted_append]
  split <;> rfl

end Machine

namespace Header

lemma isSigned_ofBody (head entry : Address) (n : Nat) : (ofBody head entry n).IsSigned := rfl

/-- A header announces no longer body than its file size can express. -/
lemma bodySize_ofBody_eq_min (head entry : Address) (n : Nat) :
    (ofBody head entry n).bodySize = min n (0xffffffff - size) := by
  have hto : (Address.advance 0 (size + n)).toNat = min (size + n) 0xffffffff := by
    rw [Address.toNat_advance, UInt32.toNat_zero, Nat.zero_add]
  rw [bodySize, ofBody, hto, size]
  omega

lemma bodySize_ofBody (head entry : Address) {n : Nat} (h : size + n < 0x100000000) :
    (ofBody head entry n).bodySize = n := by
  rw [bodySize_ofBody_eq_min, size]
  rw [size] at h
  omega

end Header

/-- **The image of a program is placed as a whole**, and execution begins where it stands. -/
theorem Simulator.load_ofProgram (c : Config) (origin : Address) (program : List Instruction)
    (h : Header.size + (assemble program).length < 0x100000000) :
    ∃ ready loading,
      (ofConfig c).load (Image.ofProgram origin program).encode.toArray = .ok (ready, loading) ∧
      ready.machine = { Machine.ofConfig c with
        memory := (Memory.zeroed c.memory.size).load origin (assemble program).toArray
        pc := origin } ∧
      ready.maxSteps = c.execution.maxSteps ∧ Effect.emitted loading = [] := by
  have hn : (Image.ofProgram origin program).body.length ≤
      (Image.ofProgram origin program).header.bodySize :=
    Nat.le_of_eq (Header.bodySize_ofBody origin origin h).symm
  obtain ⟨i, hi⟩ : ∃ i, i = (Machine.ofConfig c).place
      (Image.ofProgram origin program).header (assemble program).toArray := ⟨_, rfl⟩
  refine ⟨((ofConfig c).accept i).1, i.effects, ?_, ?_, rfl, ?_⟩
  · rw [load, Machine.install_encode _ (Header.isSigned_ofBody ..) hn, hi]
    rfl
  · change i.machine = _
    rw [hi, Machine.place_ofConfig]
    rfl
  · rw [hi, Machine.emitted_place]

end ByteMachine

import ByteMachine.Proofs.Loading
import ByteMachine.Proofs.Step

/-!
What installing a file does: which files are taken, why the others are not, and every part of the
machine that a file which is taken leaves. The three sizes that decide it, those of the file, of
its announcement and of memory, are independent of each other.
-/

namespace ByteMachine

/-- The word in the four bytes from `k` on, low byte first. -/
def wordAt (file : Array UInt8) (k : Nat) : Nat :=
  (file.getD k 0).toNat + 0x100 * (file.getD (k + 1) 0).toNat
    + 0x10000 * (file.getD (k + 2) 0).toNat + 0x1000000 * (file.getD (k + 3) 0).toNat

/-- The bytes after the header, up to the announced size of the file or to its end. -/
def bodyBytes (file : Array UInt8) : Array UInt8 :=
  file.extract 28 (min (max 28 (wordAt file 24)) file.size)

/-- How a file that can be installed begins. -/
def mark : List UInt8 := ['M', 'H', 'F'].map Char.toUInt8

/-- What the machine `m` has become by installing the file. -/
structure Places (m : Machine) (file : Array UInt8) (i : Installation) : Prop where
  bodySize : i.loaded.bodySize = (bodyBytes file).size
  copied : i.loaded.copied = min (bodyBytes file).size (m.memory.size - wordAt file 8)
  /-- The bytes that were copied, and zero around them. -/
  memory : ∀ k < m.memory.size, i.machine.memory.bytes[k]? =
    if wordAt file 8 ≤ k ∧ k < wordAt file 8 + i.loaded.copied then
      (bodyBytes file)[k - wordAt file 8]?
    else some 0
  size : i.machine.memory.size = m.memory.size
  registers : i.machine.registers = .zero
  /-- Nothing has been counted, and the machine has not begun. -/
  counters : i.machine.counters = {}
  state : i.machine.state = .ready
  pc : i.machine.pc.toNat = wordAt file 12
  entry : i.loaded.entry = i.machine.pc
  settings : i.machine.settings = m.settings

/-! ### What the header says -/

namespace Header

/-- The header that stands at the beginning of a file. -/
def inFront (file : Array UInt8) : Header := decode (file.extract 0 size).toList

lemma ofFile_of_lt {file : Array UInt8} (h : file.size < 28) :
    ofFile file = .error (.malformedHeader file.size) := if_pos h

lemma ofFile_of_le {file : Array UInt8} (h : 28 ≤ file.size) : ofFile file = .ok (inFront file) :=
  if_neg (Nat.not_lt.2 h)

lemma take_four {l : List UInt8} {k : Nat} (h : k + 4 ≤ l.length) :
    (l.drop k).take 4 = [l.getD k 0, l.getD (k + 1) 0, l.getD (k + 2) 0, l.getD (k + 3) 0] := by
  have hget (j : Nat) (hj : j < l.length) : l[j]? = some (l.getD j 0) := by
    rw [List.getD_eq_getElem?_getD, List.getElem?_eq_getElem hj, Option.getD_some]
  refine List.ext_getElem? fun j => ?_
  rw [List.getElem?_take, List.getElem?_drop]
  by_cases hj : j < 4
  · rw [if_pos hj, hget (k + j) (by omega)]
    interval_cases j <;> rfl
  · rw [if_neg hj, List.getElem?_eq_none (by simpa using hj)]

lemma signature_decode {bytes : List UInt8} (h : 4 ≤ bytes.length) :
    (decode bytes).signature.toList = bytes.take 4 := by
  have hfour := take_four (l := bytes) (k := 0) (by omega)
  rw [List.drop_zero] at hfour
  rw [hfour]
  rfl

variable {file : Array UInt8}

lemma toList_front (file : Array UInt8) :
    (file.extract 0 size).toList = file.toList.take 28 := by
  rw [Array.toList_extract, List.extract_eq_take_drop, List.drop_zero]
  rfl

lemma length_front (h : 28 ≤ file.size) : (file.extract 0 size).toList.length = 28 := by
  rw [Array.length_toList, Array.size_extract, size]
  omega

lemma getD_front (h : 28 ≤ file.size) {j : Nat} (hj : j < 28) :
    (file.extract 0 size).toList.getD j 0 = file.getD j 0 := by
  have hin : j < min size file.size - 0 := by
    rw [size]
    omega
  rw [List.getD_eq_getElem?_getD, Array.getElem?_toList, Array.getElem?_extract, if_pos hin,
    Nat.zero_add, Array.getD_eq_getD_getElem?]

lemma field_eq_wordAt (h : 28 ≤ file.size) {k : Nat} (hk : k + 4 ≤ 28) :
    field (file.extract 0 size).toList k 4 = wordAt file k := by
  have hlen := length_front h
  rw [field, take_four (by omega), getD_front h (by omega), getD_front h (by omega),
    getD_front h (by omega), getD_front h (by omega)]
  simp only [LittleEndian.decode, wordAt]
  omega

lemma wordAt_lt (file : Array UInt8) (k : Nat) : wordAt file k < 0x100000000 := by
  have h0 := (file.getD k 0).toNat_lt
  have h1 := (file.getD (k + 1) 0).toNat_lt
  have h2 := (file.getD (k + 2) 0).toNat_lt
  have h3 := (file.getD (k + 3) 0).toNat_lt
  rw [wordAt]
  omega

lemma toNat_field (h : 28 ≤ file.size) {k : Nat} (hk : k + 4 ≤ 28) :
    (UInt32.ofNat (field (file.extract 0 size).toList k 4)).toNat = wordAt file k := by
  rw [UInt32.toNat_ofNat', field_eq_wordAt h hk]
  exact Nat.mod_eq_of_lt (wordAt_lt file k)

lemma signature_inFront (h : 28 ≤ file.size) :
    (inFront file).signature.toList = file.toList.take 4 := by
  have hlen := length_front h
  rw [inFront, signature_decode (by omega), toList_front, List.take_take]
  rfl

lemma isSigned_inFront (h : 28 ≤ file.size) :
    (inFront file).IsSigned ↔ file.toList.take 3 = mark := by
  rw [IsSigned, signature_inFront h, List.take_take]
  rfl

end Header

namespace Machine

lemma bodyOf_inFront {file : Array UInt8} (h : 28 ≤ file.size) :
    bodyOf file (.inFront file) = bodyBytes file := by
  have hsize : (Header.inFront file).bodySize = wordAt file 24 - 28 := by
    rw [Header.bodySize, Header.inFront, Header.decode]
    dsimp only
    rw [Header.toNat_field h (by omega), Header.size]
  have hslice : slice? file Header.size (min (wordAt file 24 - 28) (file.size - Header.size)) =
      some (bodyBytes file) := by
    rw [slice?_eq_some_iff, bodyBytes, Header.size]
    refine ⟨by omega, ?_⟩
    congr 1
    omega
  rw [bodyOf, hsize, hslice, Option.getD_some]

/-- **A file is taken if it has a header with the mark**, and then its body is placed. -/
theorem install_eq_ok_iff {m : Machine} {file : Array UInt8} {i : Installation} :
    m.install file = .ok i ↔
      28 ≤ file.size ∧ file.toList.take 3 = mark ∧
        i = m.place (.inFront file) (bodyBytes file) := by
  by_cases hsize : file.size < 28
  · rw [install, Header.ofFile_of_lt hsize]
    exact ⟨fun h => (by cases h), fun h => absurd h.1 (Nat.not_le.2 hsize)⟩
  · have hle : 28 ≤ file.size := Nat.not_lt.1 hsize
    rw [install, Header.ofFile_of_le hle, ← Header.isSigned_inFront hle, ← bodyOf_inFront hle]
    dsimp only
    split
    · rename_i hs
      rw [Except.ok.injEq]
      exact ⟨fun h => ⟨hle, hs, h.symm⟩, fun h => h.2.2.symm⟩
    · rename_i hs
      exact ⟨fun h => (by cases h), fun h => absurd h.2.1 hs⟩

lemma places_place (m : Machine) {file : Array UInt8} (h : 28 ≤ file.size) :
    Places m file (m.place (.inFront file) (bodyBytes file)) := by
  have hhead : (Header.inFront file).head.toNat = wordAt file 8 := Header.toNat_field h (by omega)
  have hentry : (Header.inFront file).entry.toNat = wordAt file 12 :=
    Header.toNat_field h (by omega)
  have hsize : m.reset.memory.size = m.memory.size := m.memory.size_clear
  have hroom : m.reset.memory.room (Header.inFront file).head (bodyBytes file).size =
      min (bodyBytes file).size (m.memory.size - wordAt file 8) := by
    rw [Memory.room, hsize, hhead]
  refine ⟨rfl, hroom, fun k hk => ?_, ?_, rfl, rfl, rfl, hentry, rfl, rfl⟩
  · have hzero : m.reset.memory.bytes[k]? = some 0 := by
      rw [← hsize] at hk
      exact (Memory.getElem?_zeroed ..).trans (if_pos hk)
    simp only [place, Memory.getElem?_load, hhead, hzero]
    rfl
  · simp only [place, Memory.size_load, hsize]

/-- **The exact effect of loading.** A file is taken if and only if it is long enough for a header
and begins with the mark. A shorter one is refused with its size, another one with the signature
that it has; and one that is taken leaves the machine as `Places` says. -/
theorem install_places (m : Machine) (file : Array UInt8) :
    ((∃ i, m.install file = .ok i) ↔ 28 ≤ file.size ∧ file.toList.take 3 = mark) ∧
      (file.size < 28 → m.install file = .error (.malformedHeader file.size)) ∧
      (28 ≤ file.size → file.toList.take 3 ≠ mark →
        ∃ s, m.install file = .error (.invalidSignature s) ∧ s.toList = file.toList.take 4) ∧
      ∀ i, m.install file = .ok i → Places m file i := by
  refine ⟨⟨fun ⟨i, hi⟩ => ?_, fun h => ?_⟩, fun h => ?_, fun h hmark => ?_, fun i hi => ?_⟩
  · obtain ⟨hsize, hmark, -⟩ := install_eq_ok_iff.1 hi
    exact ⟨hsize, hmark⟩
  · exact ⟨_, install_eq_ok_iff.2 ⟨h.1, h.2, rfl⟩⟩
  · rw [install, Header.ofFile_of_lt h]
  · refine ⟨_, ?_, Header.signature_inFront h⟩
    rw [install, Header.ofFile_of_le h]
    exact if_neg fun hs => hmark ((Header.isSigned_inFront h).1 hs)
  · obtain ⟨hsize, -, rfl⟩ := install_eq_ok_iff.1 hi
    exact m.places_place hsize

/-- A body of four bytes of which the header announces three and memory has room for two. -/
theorem install_places_clipped :
    let m : Machine := .ofConfig { memory := { size := 8, outputPort := 0 } }
    let file : Array UInt8 := #[0x4d, 0x48, 0x46, 0, 0, 0, 0, 0, 6, 0, 0, 0, 5, 0, 0, 0,
      0, 0, 0, 0, 0, 0, 0, 0, 31, 0, 0, 0, 1, 2, 3, 4]
    28 ≤ file.size ∧ file.toList.take 3 = mark ∧ ∃ i, m.install file = .ok i ∧
      i.loaded.bodySize = 3 ∧ i.loaded.copied = 2 ∧ i.machine.memory.bytes[5]? = some 0 ∧
      i.machine.memory.bytes[7]? = some 2 ∧ i.machine.pc.toNat = 5 := by
  intro m file
  obtain ⟨htaken, -, -, hplaces⟩ := install_places m file
  have hfile : 28 ≤ file.size ∧ file.toList.take 3 = mark := by decide
  obtain ⟨i, hi⟩ := htaken.2 hfile
  have h := hplaces i hi
  have hcopied : i.loaded.copied = 2 := h.copied.trans (by decide)
  refine ⟨hfile.1, hfile.2, i, hi, h.bodySize.trans (by decide), hcopied, ?_, ?_,
    h.pc.trans (by decide)⟩
  · exact (h.memory 5 (by decide)).trans (by rw [hcopied]; decide)
  · exact (h.memory 7 (by decide)).trans (by rw [hcopied]; decide)

end Machine

end ByteMachine

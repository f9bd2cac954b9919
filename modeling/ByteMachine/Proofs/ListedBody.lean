import ByteMachine.Proofs.ExactAddresses
import ByteMachine.Proofs.ListingText

/-!
The listing of a loaded image. It goes from the entry point up to the last byte copied. Where the
entry point is not before the body, nothing else is listed; but an entry point before it makes the
listing begin outside, with bytes that no image has brought there.
-/

namespace ByteMachine

/-- The line has its reader find an address in the range. -/
def AnnotatesWithin (line : String) (start stop : Nat) : Prop :=
  ∃ r, Reading.ofLine? line = some r ∧ start ≤ r.addr ∧ r.addr < stop

/-! ### Lines of a range -/

section Range

variable {bytes : Array UInt8} {start stop : Address}

/-- What is found in a range has its address there. -/
lemma addr_of_mem_decodeRange {x : Located} (hx : x ∈ (decodeRange bytes start stop).toList) :
    start.toNat ≤ x.addr.toNat ∧ x.addr.toNat < stop.toNat := by
  obtain ⟨before, after, hcode⟩ := List.append_of_mem hx
  obtain ⟨haddr, hlt, -⟩ := (walk_decodeRange bytes start stop).line hcode
  exact ⟨by omega, UInt32.lt_iff_toNat_lt.1 hlt⟩

lemma annotatesWithin_of_mem_listing {line : String} (h : line ∈ listing bytes start stop) :
    AnnotatesWithin line start.toNat stop.toNat := by
  obtain ⟨x, hx, rfl⟩ := List.mem_map.1 h
  have hread := ofLine?_line ((walk_decodeRange bytes start stop).decode_of_mem hx)
  refine ⟨_, hread, ?_⟩
  rw [Reading.addr_ofLocated]
  exact addr_of_mem_decodeRange hx

/-- A range that is not empty is listed from its start on. -/
lemma exists_start_of_lt (bytes : Array UInt8) (h : start < stop) :
    ∃ line ∈ listing bytes start stop, ∃ r, Reading.ofLine? line = some r ∧
      r.addr = start.toNat := by
  have hmem : ∃ x ∈ (decodeRange bytes start stop).toList, x.addr = start := by
    rw [decodeRange_eq, if_pos h]
    rcases decode bytes start with f | i
    · exact ⟨⟨start, .error f⟩, List.mem_singleton_self _, rfl⟩
    · dsimp only
      rw [Array.toList_append]
      exact ⟨⟨start, .ok i⟩, List.mem_cons_self, rfl⟩
  obtain ⟨x, hx, hstart⟩ := hmem
  refine ⟨x.line bytes, List.mem_map_of_mem hx, _,
    ofLine?_line ((walk_decodeRange bytes start stop).decode_of_mem hx), ?_⟩
  rw [Reading.addr_ofLocated, hstart]

lemma listing_eq_nil_iff : listing bytes start stop = [] ↔ stop.toNat ≤ start.toNat := by
  constructor
  · intro hnil
    by_contra hlt
    obtain ⟨line, hline, -⟩ :=
      exists_start_of_lt bytes (UInt32.lt_iff_toNat_lt.2 (Nat.not_le.1 hlt))
    rw [hnil] at hline
    exact absurd hline List.not_mem_nil
  · intro hle
    rw [listing, decodeRange_of_le hle]
    rfl

end Range

/-! ### The range of an image -/

/-- The address after the bytes copied is exact, also if there are none. -/
lemma Machine.toNat_stop_of_install {m : Machine} {file : Array UInt8} {i : Installation}
    (h : m.install file = .ok i) :
    i.loaded.stop.toNat = i.loaded.header.head.toNat + i.loaded.copied := by
  rcases Nat.eq_zero_or_pos i.loaded.copied with hnone | hcopied
  · rw [Loaded.stop, hnone, Address.advance_zero, Nat.add_zero]
  · exact (isExact_of_install h hcopied).stop

namespace Simulator

variable {s ready : Simulator} {file : Array UInt8} {loading : List Effect}

lemma exists_install_of_load (h : s.load file = .ok (ready, loading)) :
    ∃ i, s.machine.install file = .ok i ∧ ready = (s.accept i).1 := by
  rw [load] at h
  rcases hi : s.machine.install file with e | i
  · rw [hi] at h
    cases h
  · rw [hi] at h
    cases h
    exact ⟨i, rfl, rfl⟩

/-- What a file that is taken leaves and does. -/
lemma load_of_mark (s : Simulator) (hsize : 28 ≤ file.size) (hmark : file.toList.take 3 = mark) :
    s.load file = .ok (s.accept (s.machine.place (.inFront file) (bodyBytes file))) := by
  rw [load, Machine.install_eq_ok_iff.2 ⟨hsize, hmark, rfl⟩]
  rfl

/-- **What is listed of an image.** After a load, every line has an address from the entry point up
to the last byte copied. So all of them lie within the bytes copied if and only if the entry point
is not before these, and there are none if and only if it is after them. -/
theorem listing_within_iff (h : s.load file = .ok (ready, loading)) :
    ∃ l, ready.loaded = some l ∧
      let head := l.header.head.toNat
      (∀ line ∈ ready.listing, AnnotatesWithin line l.entry.toNat (head + l.copied)) ∧
      ((∀ line ∈ ready.listing, AnnotatesWithin line head (head + l.copied)) ↔
        head ≤ l.entry.toNat) ∧
      (ready.listing = [] ↔ head + l.copied ≤ l.entry.toNat) := by
  obtain ⟨i, hi, rfl⟩ := exists_install_of_load h
  refine ⟨i.loaded, rfl, ?_⟩
  intro head
  have hstop : i.loaded.stop.toNat = head + i.loaded.copied := Machine.toNat_stop_of_install hi
  have hlines : ∀ line ∈ (s.accept i).1.listing,
      AnnotatesWithin line i.loaded.entry.toNat (head + i.loaded.copied) := by
    intro line hline
    rw [← hstop]
    exact annotatesWithin_of_mem_listing hline
  refine ⟨hlines, ⟨fun hwithin => ?_, fun hle line hline => ?_⟩, ?_⟩
  · -- an entry point before the body is the address of the first line.
    by_contra hbefore
    have hlt : i.loaded.entry < i.loaded.stop := UInt32.lt_iff_toNat_lt.2 (by omega)
    obtain ⟨line, hline, r, hr, haddr⟩ := exists_start_of_lt i.machine.memory.bytes hlt
    obtain ⟨r', hr', hhead, -⟩ := hwithin line hline
    obtain rfl := Option.some.inj (hr.symm.trans hr')
    omega
  · obtain ⟨r, hr, hentry, hlast⟩ := hlines line hline
    exact ⟨r, hr, Nat.le_trans hle hentry, hlast⟩
  · rw [← hstop]
    exact listing_eq_nil_iff

/-- A body of which the first byte is no code. It is entered at the second, and memory has room for
all but its last. -/
theorem listing_within_iff_clipped :
    let c : Config := { memory := { size := 8, outputPort := 0 } }
    let file := (Image.ofBody 3 4 [0xff, 0x10, 2, 3, 1, 1]).encode.toArray
    ∃ ready loading l, (ofConfig c).load file = .ok (ready, loading) ∧ ready.loaded = some l ∧
      l.copied = 5 ∧ (∀ line ∈ ready.listing, AnnotatesWithin line 3 8) ∧ ready.listing ≠ [] := by
  intro c file
  have hload := (ofConfig c).load_of_mark (show 28 ≤ file.size by decide) (by decide)
  obtain ⟨i, hi⟩ : ∃ i, i = (ofConfig c).machine.place (.inFront file) (bodyBytes file) :=
    ⟨_, rfl⟩
  rw [← hi] at hload
  obtain ⟨l, hl, -, hwithin, hnil⟩ := listing_within_iff hload
  obtain rfl : i.loaded = l := Option.some.inj hl
  have hhead : i.loaded.header.head.toNat = 3 := by rw [hi]; decide
  have hentry : i.loaded.entry.toNat = 4 := by rw [hi]; decide
  have hcopied : i.loaded.copied = 5 := by rw [hi]; decide
  simp only [hhead, hentry, hcopied] at hwithin hnil
  refine ⟨_, _, _, hload, hl, hcopied, hwithin.2 (by decide), fun h => ?_⟩
  exact absurd (hnil.1 h) (by decide)

/-- Four bytes are listed of an image that has brought none: the entry point is before the place
where they would have gone. -/
theorem listing_of_nothing :
    let c : Config := { memory := { size := 8, outputPort := 0 } }
    let file := (Image.ofBody 4 0 []).encode.toArray
    c.IsValid ∧ ∃ ready loading l, (ofConfig c).load file = .ok (ready, loading) ∧
      ready.loaded = some l ∧ l.copied = 0 ∧
      ready.listing = ["0x0000:  00           nop", "0x0001:  00           nop",
        "0x0002:  00           nop", "0x0003:  00           nop"] ∧
      ¬ ∀ line ∈ ready.listing,
        AnnotatesWithin line l.header.head.toNat (l.header.head.toNat + l.copied) := by
  intro c file
  have hload := (ofConfig c).load_of_mark (show 28 ≤ file.size by decide) (by decide)
  obtain ⟨i, hi⟩ : ∃ i, i = (ofConfig c).machine.place (.inFront file) (bodyBytes file) :=
    ⟨_, rfl⟩
  rw [← hi] at hload
  have hlisting : ((ofConfig c).accept i).1.listing =
      ["0x0000:  00           nop", "0x0001:  00           nop", "0x0002:  00           nop",
        "0x0003:  00           nop"] := by
    rw [hi]
    decide +kernel
  refine ⟨⟨by decide, by decide, by decide⟩, _, _, _, hload, rfl, by rw [hi]; decide, hlisting,
    fun h => ?_⟩
  have hfirst : Reading.ofLine? "0x0000:  00           nop" = some ⟨0, some [0], "nop"⟩ := by cbv
  obtain ⟨r, hr, hhead, -⟩ := h _ (hlisting ▸ List.mem_cons_self)
  obtain rfl := Option.some.inj (hfirst.symm.trans hr)
  exact absurd hhead (by rw [hi]; decide)

end Simulator

end ByteMachine

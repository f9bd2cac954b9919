import ByteMachine.Proofs.Offered

/-!
The console. Each byte that it is offered is written as the character with its number, and the
bytes written are the UTF-8 form of the text that these characters make. So whoever decodes them
has the bytes back, as a sink has that keeps them as they are.
-/

namespace ByteMachine

namespace Latin1

/-- A byte below 128 is its own character in UTF-8, and any other one becomes two bytes. -/
lemma utf8_eq (b : UInt8) : utf8 b = String.utf8EncodeChar (Char.ofUInt8 b) := by
  have hlt := b.toNat_lt
  have hval : (Char.ofUInt8 b).val.toNat = b.toNat := rfl
  simp only [utf8, String.utf8EncodeChar, hval, UInt8.lt_iff_toNat_lt]
  have hhalf : (0x80 : UInt8).toNat = 128 := rfl
  by_cases h : b.toNat < 128
  · rw [hhalf, if_pos h, if_pos (by omega), UInt8.ofNat_toNat]
  · rw [hhalf, if_neg h, if_neg (by omega), if_pos (by omega)]
    congr 1
    · apply UInt8.toNat_inj.1
      simp
      omega
    · congr 1
      apply UInt8.toNat_inj.1
      simp
      omega

/-- **The UTF-8 form of a text is made of those of its characters**, one after the other. -/
theorem data_toUTF8_text (bytes : List UInt8) :
    (text bytes).toUTF8.data = (bytes.flatMap utf8).toArray := by
  have hform : (text bytes).toUTF8 =
      ((bytes.map Char.ofUInt8).flatMap String.utf8EncodeChar).toByteArray := rfl
  have hbyte : utf8 = fun b => String.utf8EncodeChar (Char.ofUInt8 b) := funext utf8_eq
  rw [hform, List.data_toByteArray, List.flatMap_map, hbyte]

end Latin1

namespace Sink

/-- The sink refuses nothing, and adds to what it has the form of every byte. -/
structure Adds (sink : Sink (Array UInt8)) (form : UInt8 → List UInt8) : Prop where
  emit : ∀ b out, ∃ added, sink.emit b out = (added, none) ∧ added.toList = out.toList ++ form b
  flush : ∀ out, sink.flush out = (out, none)

namespace Adds

variable {sink : Sink (Array UInt8)} {form : UInt8 → List UInt8}

lemma deliver (h : sink.Adds form) (x : Array UInt8 × Array Event) (e : Effect) :
    (sink.deliver x e).1.toList = x.1.toList ++ (Effect.emitted [e]).flatMap form := by
  obtain ⟨out, events⟩ := x
  cases e with
  | emit b =>
    obtain ⟨added, hemit, hadded⟩ := h.emit b out
    simp [Sink.deliver, Effect.emitted, hemit, hadded]
  | flush => simp [Sink.deliver, Effect.emitted, h.flush]
  | log => simp [Sink.deliver, Effect.emitted]

lemma foldl (h : sink.Adds form) (effects : List Effect) (x : Array UInt8 × Array Event) :
    (effects.foldl sink.deliver x).1.toList =
      x.1.toList ++ (Effect.emitted effects).flatMap form := by
  induction effects generalizing x with
  | nil => simp
  | cons e es ih =>
    rw [List.foldl_cons, ih, h.deliver, Effect.emitted_cons e es, List.flatMap_append,
      List.append_assoc]

end Adds

lemma console_adds : console.Adds Latin1.utf8 :=
  ⟨fun _ _ => ⟨_, rfl, Array.toList_appendList⟩, fun _ => rfl⟩

lemma capture_adds : capture.Adds fun b => [b] :=
  ⟨fun _ _ => ⟨_, rfl, Array.toList_push⟩, fun _ => rfl⟩

/-- **What the console writes**: the UTF-8 form of the bytes that it is offered, as a text. -/
theorem console_feed (effects : List Effect) (out : Array UInt8) :
    (console.feed effects out).1 =
      out ++ (Latin1.text (Effect.emitted effects)).toUTF8.data := by
  rw [Latin1.data_toUTF8_text]
  refine Array.toList_inj.1 ((console_adds.foldl effects (out, #[])).trans ?_)
  rw [Array.toList_append]

end Sink

/-! ### What is read back -/

namespace Latin1

/-- A character that has been made of a byte gives it back. -/
lemma map_toUInt8 (bytes : List UInt8) :
    (bytes.map Char.ofUInt8).map Char.toUInt8 = bytes := by
  have hbyte (b : UInt8) : (Char.ofUInt8 b).toUInt8 = b :=
    UInt8.toNat_inj.1 (Nat.mod_eq_of_lt b.toNat_lt)
  rw [List.map_map]
  exact (List.map_congr_left fun b _ => hbyte b).trans (List.map_id bytes)

/-- **The UTF-8 form of a text is decoded to one character a byte.** -/
theorem utf8Decode?_text (bytes : List UInt8) :
    (text bytes).toUTF8.utf8Decode? = some (bytes.map Char.ofUInt8).toArray :=
  List.utf8Decode?_utf8Encode

/-- Some characters take one byte and some take two, and still no two texts have the same form. -/
lemma toUTF8_text_inj {xs ys : List UInt8} :
    (text xs).toUTF8 = (text ys).toUTF8 ↔ xs = ys := by
  refine ⟨fun h => ?_, fun h => by rw [h]⟩
  have hdecoded := congrArg ByteArray.utf8Decode? h
  rw [utf8Decode?_text, utf8Decode?_text, Option.some.injEq] at hdecoded
  have hchars : xs.map Char.ofUInt8 = ys.map Char.ofUInt8 := List.toArray_inj hdecoded
  rw [← map_toUInt8 xs, hchars, map_toUInt8]

end Latin1

namespace Sink

/-- A capture has the bytes that it is offered. -/
lemma capture_feed (effects : List Effect) (out : Array UInt8) :
    (capture.feed effects out).1.toList = out.toList ++ Effect.emitted effects := by
  refine (capture_adds.foldl effects (out, #[])).trans ?_
  rw [List.flatMap_singleton']

/-- **The console loses nothing.** Whatever bytes are emitted, and whatever is logged or flushed in
between, the console has written the UTF-8 form of the text that a capture of the same bytes has.
This is valid UTF-8, and it is decoded to one character for each byte, with the number of the byte.
So the bytes can be read back, and other bytes are never written in the same way. -/
theorem console_reads_back (effects : List Effect) :
    let bytes := Effect.emitted effects
    let written := (console.feed effects #[]).1
    let captured := (capture.feed effects #[]).1
    captured.toList = bytes ∧
    written = (Latin1.text captured.toList).toUTF8.data ∧
    ByteArray.IsValidUTF8 ⟨written⟩ ∧
    (∃ chars, ByteArray.utf8Decode? ⟨written⟩ = some chars ∧
      chars.toList.map Char.toNat = bytes.map UInt8.toNat ∧
      chars.toList.map Char.toUInt8 = bytes) ∧
    ∀ other, (console.feed other #[]).1 = written ↔ Effect.emitted other = bytes := by
  intro bytes written captured
  have hform (es : List Effect) :
      (⟨(console.feed es #[]).1⟩ : ByteArray) = (Latin1.text (Effect.emitted es)).toUTF8 :=
    congrArg ByteArray.mk ((console_feed es #[]).trans (Array.empty_append ..))
  have hwritten : ⟨written⟩ = (Latin1.text bytes).toUTF8 := hform effects
  have hcaptured : captured.toList = bytes := capture_feed effects #[]
  refine ⟨hcaptured, ?_, ?_, ⟨(bytes.map Char.ofUInt8).toArray, ?_, ?_, ?_⟩, fun other => ?_⟩
  · rw [hcaptured, ← hwritten]
  · rw [hwritten]
    exact (Latin1.text bytes).isValidUTF8
  · rw [hwritten]
    exact Latin1.utf8Decode?_text bytes
  · rw [List.map_map]
    rfl
  · exact Latin1.map_toUInt8 bytes
  · rw [← ByteArray.mk.injEq, hform, hwritten]
    exact Latin1.toUTF8_text_inj

end Sink

end ByteMachine

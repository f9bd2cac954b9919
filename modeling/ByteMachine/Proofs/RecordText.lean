import ByteMachine.Proofs.ObjectText

/-!
Records as they are written. The members of an object may stand in any order, those with the default
value may be left out, and there may be others with other keys. Whatever the text, the record that
it writes is read from it, provided that the fields are.
-/

namespace ByteMachine.Json

/-- A part of a record: its key, the texts of its value, and whether it is what it is by default. -/
structure Entry (α : Type) where
  key : String
  Writes : α → List Char → Prop
  IsDefault : α → Prop

section Grammar

variable {α : Type}

/-- The members write parts of the record, each at most once, or have to do with other things. -/
structure Fits (entries : List (Entry α)) (value : α) (members : List (String × List Char)) :
    Prop where
  plain : ∀ m ∈ members, IsPlainText m.1
  known : ∀ m ∈ members, ∀ e ∈ entries, e.key = m.1 → e.Writes value m.2
  other : ∀ m ∈ members, (∀ e ∈ entries, e.key ≠ m.1) → IsSimple m.2
  once : ∀ e ∈ entries, (members.map Prod.fst).count e.key ≤ 1

/-- The text is an object that writes the record. What it leaves out is as it is by default. -/
inductive RecordText (entries : List (Entry α)) (value : α) : List Char → Prop
  | mk {members : List (String × List Char)} {text : List Char} (object : ObjectText members text)
    (fits : Fits entries value members)
    (omitted : ∀ e ∈ entries, e.key ∉ members.map Prod.fst → e.IsDefault value) :
    RecordText entries value text

end Grammar

namespace Shape

/-! ### From key to key -/

lemma nextKey_first {front : List Char} (h : Blank front) (text : List Char) :
    nextKey true (front ++ '"' :: text) = .ok (.key text) := by
  rw [nextKey, skipBlanks_blank h (by decide)]
  rfl

lemma nextKey_next {back front : List Char} (hback : Blank back) (hfront : Blank front)
    (text : List Char) :
    nextKey false (back ++ ',' :: (front ++ '"' :: text)) = .ok (.key text) := by
  rw [nextKey, skipBlanks_blank hback (by decide)]
  simp only [skipBlanks_blank hfront (c := '"') (by decide)]
  rfl

lemma nextKey_close {blanks : List Char} (h : Blank blanks) (first : Bool) (rest : List Char) :
    nextKey first (blanks ++ '}' :: rest) = .ok (.finished rest) := by
  rw [nextKey, skipBlanks_blank h (by decide)]
  rfl

lemma takeColon_blank {blanks : List Char} (h : Blank blanks) (text : List Char) :
    takeColon (blanks ++ ':' :: text) = .ok text := by
  rw [takeColon, skipBlanks_blank h (by decide)]
  rfl

/-! ### Members -/

variable {α : Type} {s : Shape α} {entries : List (Entry α)} {value : α}
  {patch : List String → α}

/-- The fields read what the entries write. With the keys in `seen` read, the record has come as far
as `patch seen`. -/
structure Reads (s : Shape α) (entries : List (Entry α)) (value : α) (patch : List String → α) :
    Prop where
  field : ∀ f ∈ s.fields, ∃ e ∈ entries, e.key = f.key ∧
    ∀ {v blanks rest}, e.Writes value v → Blank blanks → Ends rest → ∀ seen,
      f.read (patch seen) (blanks ++ (v ++ rest)) = .ok (patch (f.key :: seen), rest)
  entry : ∀ e ∈ entries, ∃ f ∈ s.fields, f.key = e.key
  complete : ∀ seen, (∀ e ∈ entries, e.key ∉ seen → e.IsDefault value) → patch seen = value

lemma field?_cases (s : Shape α) (key : String) :
    (s.field? key = none ∧ ∀ f ∈ s.fields, f.key ≠ key) ∨
      ∃ f ∈ s.fields, f.key = key ∧ s.field? key = some f := by
  rcases hf : s.field? key with _ | f
  · left
    refine ⟨rfl, fun f hmem hkey => ?_⟩
    exact List.find?_eq_none.1 hf f hmem (decide_eq_true hkey)
  · right
    have hkey := List.find?_some (hf : s.fields.find? (·.key = key) = some f)
    exact ⟨f, List.mem_of_find?_eq_some hf, of_decide_eq_true hkey, rfl⟩

lemma fits_tail {m : String × List Char} {members : List (String × List Char)}
    (h : Fits entries value (m :: members)) : Fits entries value members where
  plain m' hm' := h.plain m' (List.mem_cons_of_mem m hm')
  known m' hm' := h.known m' (List.mem_cons_of_mem m hm')
  other m' hm' := h.other m' (List.mem_cons_of_mem m hm')
  once e he := Nat.le_trans List.count_le_count_cons (h.once e he)

/-- The key of a member does not come again. -/
lemma key_not_mem {key : String} {v : List Char} {members : List (String × List Char)}
    (h : Fits entries value ((key, v) :: members)) {e : Entry α} (he : e ∈ entries)
    (hkey : e.key = key) : key ∉ members.map Prod.fst := by
  have honce := h.once e he
  rw [List.map_cons, hkey, List.count_cons_self] at honce
  exact List.count_eq_zero.1 (by omega)

/-- What one member does: its key is noted if the record has such a field. -/
lemma readMember_fits (h : s.Reads entries value patch) {key : String} {v : List Char}
    {members : List (String × List Char)} (hfits : Fits entries value ((key, v) :: members))
    {seen : List String} (hfresh : ∀ e ∈ entries, e.key = key → key ∉ seen)
    {kback vfront rest : List Char} (hkback : Blank kback) (hvfront : Blank vfront)
    (hends : Ends rest) {bound : Nat} (hbound : 0 < bound) :
    ∃ seen', s.readMember (patch seen) seen bound
        (key.toList ++ '"' :: (kback ++ ':' :: (vfront ++ (v ++ rest)))) =
          .ok (patch seen', seen', rest) ∧
      ∀ e ∈ entries, e.key ∈ seen' ↔ e.key = key ∨ e.key ∈ seen := by
  have hread := read_plain (hfits.plain _ List.mem_cons_self)
    (kback ++ ':' :: (vfront ++ (v ++ rest)))
  obtain ⟨hnone, hother⟩ | ⟨f, hf, rfl, hsome⟩ := s.field?_cases key
  · have hkeys : ∀ e ∈ entries, e.key ≠ key := by
      intro e he hkey
      obtain ⟨f, hf, hfkey⟩ := h.entry e he
      exact hother f hf (hfkey.trans hkey)
    have hskip := skipValue_simple hvfront (hfits.other _ List.mem_cons_self hkeys) hends hbound
    refine ⟨seen, ?_, fun e he => ⟨Or.inr, fun hor => hor.resolve_left (hkeys e he)⟩⟩
    simp only [readMember, hread, hnone, takeColon_blank hkback, hskip, bind, Except.bind]
  · obtain ⟨e, he, hekey, hfield⟩ := h.field f hf
    have hwrites := hfits.known _ List.mem_cons_self e he hekey
    refine ⟨f.key :: seen, ?_, fun e' _ => List.mem_cons⟩
    simp only [readMember, hread, hsome, if_neg (hfresh e he hekey), takeColon_blank hkback,
      hfield hwrites hvfront hends seen, bind, Except.bind]

/-- **A turn of the loop over members** reads one of them, and leaves what comes after it. -/
lemma readMembers_turn (h : s.Reads entries value patch) {key : String} {v k vtext : List Char}
    {members : List (String × List Char)} (hfits : Fits entries value ((key, v) :: members))
    (hkey : Padded (quoted key) k) (hvalue : Padded v vtext) {seen : List String}
    (hfresh : ∀ e ∈ entries, e.key = key → key ∉ seen) {c : Char} (hc : c = ',' ∨ c = '}')
    {first : Bool} {t text : List Char}
    (hnext : nextKey first t = nextKey true (k ++ ':' :: (vtext ++ c :: text))) (n : Nat) :
    ∃ seen' back, Blank back ∧
      s.readMembers (patch seen) seen first t (n + 2) =
        s.readMembers (patch seen') seen' false (back ++ c :: text) (n + 1) ∧
      ∀ e ∈ entries, e.key ∈ seen' ↔ e.key = key ∨ e.key ∈ seen := by
  obtain ⟨kfront, kback, hkfront, hkback⟩ := hkey
  obtain ⟨vfront, vback, hvfront, hvback⟩ := hvalue
  have hends : Ends (vback ++ c :: text) := ends_append hvback hc
  obtain ⟨seen', hmember, hkeys⟩ :=
    readMember_fits h hfits hfresh hkback hvfront hends (Nat.succ_pos n)
  refine ⟨seen', vback, hvback, ?_, hkeys⟩
  simp only [quoted, List.append_assoc, List.cons_append, List.nil_append] at hnext
  rw [nextKey_first hkfront] at hnext
  rw [readMembers, hnext]
  simp only [hmember]

lemma MembersText.opens {members : List (String × List Char)} {text : List Char}
    (h : MembersText members text) : ∃ front t, Blank front ∧ text = front ++ '"' :: t := by
  obtain ⟨⟨front, back, hfront, -⟩, -⟩ | ⟨⟨front, back, hfront, -⟩, -, -⟩ := h
  all_goals exact ⟨_, _, hfront, by rw [quoted, List.append_assoc]; rfl⟩

/-- **The members of an object are read to its end**, from the first of them or from the comma
before another one. -/
lemma readMembers_fits (h : s.Reads entries value patch) {members : List (String × List Char)}
    {text : List Char} (htext : MembersText members text) (rest : List Char) :
    ∀ {seen : List String} {first : Bool} {t : List Char} {bound : Nat},
      nextKey first t = nextKey true (text ++ '}' :: rest) → Fits entries value members →
      (∀ e ∈ entries, e.key ∈ seen → e.key ∉ members.map Prod.fst) → members.length < bound →
      ∃ seen', s.readMembers (patch seen) seen first t bound = .ok (patch seen', rest) ∧
        ∀ e ∈ entries, e.key ∈ members.map Prod.fst ∨ e.key ∈ seen → e.key ∈ seen' := by
  -- The text that is left may begin with a comma: it need only come to the same key.
  induction htext with
  | last hkey hvalue =>
    intro seen first t bound hnext hfits hseen hbound
    obtain ⟨n, rfl⟩ : ∃ n, bound = n + 2 := ⟨bound - 2, by
      rw [List.length_singleton] at hbound
      omega⟩
    have hfresh := fun e he (hkey : e.key = _) hmem =>
      hseen e he (hkey ▸ hmem) (hkey ▸ List.mem_cons_self)
    rw [List.append_assoc, List.cons_append] at hnext
    obtain ⟨seen', back, hback, hturn, hkeys⟩ :=
      readMembers_turn h hfits hkey hvalue hfresh (Or.inr rfl) hnext n
    refine ⟨seen', ?_, fun e he hor => (hkeys e he).2 ?_⟩
    · rw [hturn, readMembers, nextKey_close hback]
    · rwa [List.map_cons, List.map_nil, List.mem_singleton] at hor
  | @cons _ _ _ _ _ later hkey hvalue hrest ih =>
    intro seen first t bound hnext hfits hseen hbound
    obtain ⟨n, rfl⟩ : ∃ n, bound = n + 2 := ⟨bound - 2, by
      rw [List.length_cons] at hbound
      omega⟩
    have hfresh := fun e he (hkey : e.key = _) hmem =>
      hseen e he (hkey ▸ hmem) (hkey ▸ List.mem_cons_self)
    rw [List.append_assoc, List.cons_append, List.append_assoc, List.cons_append] at hnext
    obtain ⟨seen', back, hback, hturn, hkeys⟩ :=
      readMembers_turn h hfits hkey hvalue hfresh (Or.inl rfl) hnext n
    obtain ⟨front, t', hfront, rfl⟩ := MembersText.opens hrest
    have hnext' : nextKey false (back ++ ',' :: (front ++ '"' :: t' ++ '}' :: rest)) =
        nextKey true (front ++ '"' :: t' ++ '}' :: rest) := by
      rw [List.append_assoc, List.cons_append, nextKey_next hback hfront, nextKey_first hfront]
    have hseen' : ∀ e ∈ entries, e.key ∈ seen' → e.key ∉ later.map Prod.fst := by
      intro e he hmem hlater
      rcases (hkeys e he).1 hmem with hkey | hmem
      · exact key_not_mem hfits he hkey (hkey ▸ hlater)
      · exact hseen e he hmem (List.mem_cons_of_mem _ hlater)
    obtain ⟨seen'', hread, hkeys'⟩ := ih hnext' (fits_tail hfits) hseen'
      (by rw [List.length_cons] at hbound; exact Nat.lt_of_succ_lt_succ hbound)
    refine ⟨seen'', hturn.trans hread, fun e he hor => hkeys' e he ?_⟩
    rw [List.map_cons, List.mem_cons] at hor
    rw [hkeys e he]
    exact or_left_comm.1 (or_assoc.1 hor)

/-! ### Objects -/

lemma length_le_of_membersText {members : List (String × List Char)} {text : List Char}
    (h : MembersText members text) : members.length ≤ text.length := by
  induction h with
  | last =>
    simp only [List.length_cons, List.length_append, List.length_nil]
    omega
  | cons _ _ _ ih =>
    simp only [List.length_cons, List.length_append]
    omega

/-- **A record is read from any text that writes it.** -/
theorem read_recordText (h : s.Reads entries value patch) {text : List Char}
    (htext : RecordText entries value text) {blanks : List Char} (hblank : Blank blanks)
    (rest : List Char) : s.read (patch []) (blanks ++ (text ++ rest)) = .ok (value, rest) := by
  obtain @⟨members, text, hobject, hfits, homitted⟩ := htext
  cases hobject with
  | @empty inner hinner =>
    have hdefault : patch [] = value := h.complete [] fun e he _ => homitted e he List.not_mem_nil
    rw [List.cons_append, List.append_assoc, List.singleton_append, read,
      skipBlanks_blank hblank (by decide)]
    simp only [readMembers, nextKey_close hinner, hdefault]
    rfl
  | @members _ inner hmembers =>
    have hbound : members.length < (inner ++ '}' :: rest).length + 1 := by
      have := length_le_of_membersText hmembers
      rw [List.length_append]
      omega
    obtain ⟨seen, hread, hkeys⟩ : ∃ seen, s.readMembers (patch []) [] true (inner ++ '}' :: rest)
        ((inner ++ '}' :: rest).length + 1) = .ok (patch seen, rest) ∧
        ∀ e ∈ entries, e.key ∈ members.map Prod.fst ∨ e.key ∈ [] → e.key ∈ seen :=
      readMembers_fits h hmembers rest rfl hfits nofun hbound
    have hcomplete : patch seen = value := h.complete seen fun e he hmem =>
      homitted e he fun hkey => hmem (hkeys e he (Or.inl hkey))
    rw [List.cons_append, List.append_assoc, List.singleton_append, read,
      skipBlanks_blank hblank (by decide)]
    rw [hcomplete] at hread
    exact hread

end Shape

end ByteMachine.Json

import Mathlib.Data.List.Basic
import Mathlib.Data.List.Induction
import Mathlib.Data.List.TakeDrop
import Mathlib.Tactic.Common
import ByteMachine.CommandLine.Arguments

/-!
When what waits is settled. An argument that is taken settles what waits before it, unless it is the
value that is waited for, so it makes no difference if that has been done already.
-/

namespace ByteMachine.CommandLine

/-! ### Results that agree -/

section Results

variable {α γ : Type} {x x' : Except Interrupt α}

/-- Both results are failures, or they are the same. -/
inductive Agree : Except Interrupt α → Except Interrupt α → Prop
  | same (x : Except Interrupt α) : Agree x x
  | failed (e e' : ArgumentError) : Agree (fail e) (fail e')

lemma Agree.bind {f g : α → Except Interrupt γ} (h : Agree x x')
    (hfg : ∀ a, x = .ok a → Agree (f a) (g a)) : Agree (x >>= f) (x' >>= g) := by
  cases h with
  | same =>
    rcases x with e | a
    · exact .same _
    · exact hfg a rfl
  | failed e e' => exact .failed e e'

lemma Agree.of_ok {a : α} (h : Agree x x') (ha : x' = .ok a) : x = .ok a := by
  cases h with
  | same => exact ha
  | failed => cases ha

end Results

namespace Progress

variable {p q r : Progress} {s : Setting} {argument name value path : String} {e : ArgumentError}

/-! ### What is kept -/

/-- Nothing that has been asked for is taken back. -/
structure Grows (p q : Progress) : Prop where
  maxSteps : q.maxSteps = none → p.maxSteps = none
  switches : p.switches ⊆ q.switches
  plain : q.plain = p.plain

lemma Grows.refl (p : Progress) : p.Grows p := ⟨id, List.Subset.refl _, rfl⟩

lemma Grows.trans (h : p.Grows q) (h' : q.Grows r) : p.Grows r :=
  ⟨fun hr => h.maxSteps (h'.maxSteps hr), List.Subset.trans h.switches h'.switches,
    h'.plain.trans h.plain⟩

/-! ### What is set -/

lemma setProgram_eq_ok_iff : p.setProgram path = .ok q ↔
    path ≠ "" ∧ { p with program := some path, waiting := .nothing } = q := by
  rw [setProgram]
  split
  · rename_i h
    exact ⟨nofun, fun hq => absurd h hq.1⟩
  · rename_i h
    rw [Except.ok.injEq, and_iff_right h]

lemma setMaxSteps_eq_ok_iff : p.setMaxSteps value = .ok q ↔
    p.maxSteps = none ∧ ∃ n, count value.toList = .ok n ∧
      { p with maxSteps := some (UInt64.ofNat n), waiting := .nothing } = q := by
  rw [setMaxSteps]
  split
  · rename_i h
    exact ⟨nofun, fun hq => by rw [hq.1] at h; cases h⟩
  · rename_i h
    rw [Option.not_isSome_iff_eq_none] at h
    rw [and_iff_right h]
    rcases count value.toList with e | n
    · exact ⟨nofun, fun ⟨n, hn, _⟩ => nomatch hn⟩
    · rw [Except.ok.injEq]
      exact ⟨fun hq => ⟨n, rfl, hq⟩, fun ⟨_, hn, hq⟩ => Except.ok.inj hn ▸ hq⟩

/-- A value is set, or it is a failure. -/
lemma set_cases (p : Progress) (s : Setting) (value : String) :
    (∃ q, p.set s value = .ok q ∧ q.waiting = .nothing ∧ q.program = p.program ∧ p.Grows q) ∨
      ∃ e, p.set s value = fail e := by
  cases s with
  | config =>
    rw [set, setConfig]
    split
    · exact Or.inr ⟨_, rfl⟩
    · split
      · exact Or.inr ⟨_, rfl⟩
      · exact Or.inl ⟨_, rfl, rfl, rfl, id, List.Subset.refl _, rfl⟩
  | maxSteps =>
    rw [set, setMaxSteps]
    split
    · exact Or.inr ⟨_, rfl⟩
    · rcases count value.toList with e | n
      · exact Or.inr ⟨_, rfl⟩
      · exact Or.inl ⟨_, rfl, rfl, rfl, nofun, List.Subset.refl _, rfl⟩

lemma grows_set (h : p.set s value = .ok q) : p.Grows q := by
  obtain ⟨q', hq', -, -, hgrows⟩ | ⟨e, he⟩ := p.set_cases s value
  · obtain rfl : q' = q := Except.ok.inj (hq'.symm.trans h)
    exact hgrows
  · cases he.symm.trans h

/-! ### Settling first -/

lemma settle_nothing (h : p.waiting = .nothing) : p.settle = .ok p := by
  rw [settle, h]

lemma settle_program (h : p.waiting = .program path) : p.settle = p.setProgram path := by
  rw [settle, h]

lemma settle_open (h : p.waiting = .setting s none) : p.settle = fail (.valueMissing s.usage) := by
  rw [settle, h]

lemma settle_setting (h : p.waiting = .setting s (some value)) :
    p.settle = p.set s value := by
  rw [settle, h]

/-- What waits in `p` has its place in `q`. -/
structure Settles (p q : Progress) : Prop where
  settle : p.settle = .ok q
  waiting : q.waiting = .nothing
  grows : p.Grows q

lemma settle_cases (p : Progress) : (∃ q, p.Settles q) ∨ ∃ e, p.settle = fail e := by
  rcases hw : p.waiting with _ | path | ⟨s, _ | value⟩
  · exact Or.inl ⟨p, settle_nothing hw, hw, .refl p⟩
  · by_cases hpath : path = ""
    · refine Or.inr ⟨.valueMissing programUsage, ?_⟩
      rw [settle_program hw, setProgram, if_pos hpath]
    · exact Or.inl ⟨_, (settle_program hw).trans (setProgram_eq_ok_iff.2 ⟨hpath, rfl⟩), rfl,
        id, List.Subset.refl _, rfl⟩
  · exact Or.inr ⟨_, settle_open hw⟩
  · obtain ⟨q, h, hwaiting, -, hgrows⟩ | ⟨e, h⟩ := p.set_cases s value
    · exact Or.inl ⟨q, (settle_setting hw).trans h, hwaiting, hgrows⟩
    · exact Or.inr ⟨e, (settle_setting hw).trans h⟩

/-- What begins with settling succeeds only if it does. -/
lemma settle_bind_eq_ok {α : Type} {g : Progress → Except Interrupt α} {a : α}
    (h : p.settle >>= g = .ok a) : ∃ q, p.Settles q ∧ g q = .ok a := by
  obtain ⟨q, hq⟩ | ⟨e, he⟩ := p.settle_cases
  · rw [hq.settle] at h
    exact ⟨q, hq, h⟩
  · rw [he] at h
    cases h

/-- What is settled stays so. -/
lemma Settles.again (h : p.Settles q) : q.Settles q :=
  ⟨settle_nothing h.waiting, h.waiting, .refl q⟩

lemma settle_bind_settle (p : Progress) : p.settle >>= settle = p.settle := by
  obtain ⟨q, h⟩ | ⟨e, h⟩ := p.settle_cases
  · rw [h.settle]
    exact h.again.settle
  · rw [h]
    rfl

/-- A program has been named. -/
def HasProgram (p : Progress) : Prop := p.program.isSome ∨ ∃ path, p.waiting = .program path

lemma takePlain_of_hasProgram (h : p.HasProgram) (argument : String) :
    p.takePlain argument = fail (.unexpected argument) := by
  obtain ⟨program, config, maxSteps, switches, waiting, plain⟩ := p
  rcases program with _ | path
  · obtain h | ⟨path, rfl⟩ := h
    · cases h
    · rfl
  · rfl

lemma takePlain_of_not_hasProgram (h : ¬ p.HasProgram) (argument : String) :
    p.takePlain argument = p.settle >>= fun p => .ok { p with waiting := .program argument } := by
  obtain ⟨program, config, maxSteps, switches, waiting, plain⟩ := p
  rcases program with _ | path
  · rcases waiting with _ | path | ⟨s, value⟩
    · rfl
    · exact absurd (Or.inr ⟨path, rfl⟩) h
    · rfl
  · exact absurd (Or.inl rfl) h

lemma Settles.hasProgram_iff (h : p.Settles q) : q.HasProgram ↔ p.HasProgram := by
  have hq : q.HasProgram ↔ q.program.isSome := by
    rw [HasProgram, h.waiting]
    exact or_iff_left nofun
  have hsettle := h.settle
  rcases hw : p.waiting with _ | path | ⟨s, _ | value⟩
  · obtain rfl : p = q := Except.ok.inj ((settle_nothing hw).symm.trans hsettle)
    rfl
  · rw [settle_program hw] at hsettle
    obtain ⟨-, rfl⟩ := setProgram_eq_ok_iff.1 hsettle
    exact ⟨fun _ => Or.inr ⟨path, hw⟩, fun _ => Or.inl rfl⟩
  · rw [settle_open hw] at hsettle
    cases hsettle
  · rw [settle_setting hw] at hsettle
    obtain ⟨q', hq', -, hprogram, -⟩ | ⟨e, he⟩ := p.set_cases s value
    · obtain rfl : q' = q := Except.ok.inj (hq'.symm.trans hsettle)
      rw [hq, HasProgram, hw, hprogram]
      exact (or_iff_left nofun).symm
    · cases he.symm.trans hsettle

/-- What begins with settling may as well begin after it. -/
lemma agree_settle_bind {α : Type} (p : Progress) (f : Progress → Except Interrupt α) :
    Agree (p.settle >>= fun q => q.settle >>= f) (p.settle >>= f) := by
  rw [← bind_assoc, settle_bind_settle]
  exact .same _

lemma agree_fail (p : Progress) (e : ArgumentError) :
    Agree (p.settle >>= fun _ => fail e) (fail e : Step) := by
  obtain ⟨q, h⟩ | ⟨e', h⟩ := p.settle_cases
  · rw [h.settle]
    exact .same _
  · rw [h]
    exact .failed e' e

/-- Plain arguments are taken after what waits has been settled. -/
lemma agree_takePlain (p : Progress) (argument : String) :
    Agree (p.settle >>= (takePlain · argument)) (p.takePlain argument) := by
  obtain ⟨q, h⟩ | ⟨e, h⟩ := p.settle_cases
  · rw [h.settle]
    change Agree (q.takePlain argument) _
    by_cases hp : p.HasProgram
    · rw [takePlain_of_hasProgram hp, takePlain_of_hasProgram (h.hasProgram_iff.2 hp)]
      exact .same _
    · rw [takePlain_of_not_hasProgram hp, takePlain_of_not_hasProgram (h.hasProgram_iff.not.2 hp),
        h.settle, h.again.settle]
      exact .same _
  · by_cases hp : p.HasProgram
    · rw [h, takePlain_of_hasProgram hp]
      exact .failed e _
    · rw [takePlain_of_not_hasProgram hp, h]
      exact .same _

/-- So is an option. -/
lemma agree_takeOption (p : Progress) (name : String) (value : Option String) :
    Agree (p.settle >>= (takeOption · name value)) (p.takeOption name value) := by
  unfold takeOption
  generalize setting? name = setting, switch? name = switch, page? name = page
  rcases setting with _ | s
  · rcases switch with _ | s
    · rcases page with _ | page
      · exact p.agree_fail _
      · rcases value with _ | v
        · exact p.agree_settle_bind _
        · exact p.agree_fail _
    · rcases value with _ | v
      · exact p.agree_settle_bind _
      · exact p.agree_fail _
  · rcases value with _ | v
    · exact p.agree_settle_bind _
    · exact p.agree_settle_bind _

lemma agree_takeLetters (p : Progress) (c : Char) (letters : List Char) :
    Agree (p.settle >>= (takeLetters · (c :: letters))) (p.takeLetters (c :: letters)) := by
  by_cases hh : c = 'h'
  · subst hh
    exact p.agree_settle_bind _
  · by_cases hV : c = 'V'
    · subst hV
      exact p.agree_settle_bind _
    · have hfail (q : Progress) :
          q.takeLetters (c :: letters) = fail (.unexpected (String.ofList ['-', c])) := by
        unfold takeLetters
        split <;> simp_all
      simp only [hfail]
      exact p.agree_fail _

/-- An option waits for its value. -/
def IsOpen (p : Progress) : Prop := ∃ s, p.waiting = .setting s none

lemma not_isOpen_of_nothing (h : p.waiting = .nothing) : ¬ p.IsOpen := by
  rintro ⟨s, hs⟩
  cases h.symm.trans hs

lemma takeFree_eq (h : ¬ p.IsOpen) (argument : String) :
    p.takeFree argument = p.takePlain argument := by
  unfold takeFree
  split
  · rename_i s hw
    exact absurd ⟨s, hw⟩ h
  · rfl

/-- An option without a value is all name. -/
lemma fst_splitValue {argument : List Char} (h : (splitValue argument).2 = none) :
    (splitValue argument).1 = String.ofList argument := by
  rw [splitValue, List.span_eq_takeWhile_dropWhile] at h ⊢
  have hparts := List.takeWhile_append_dropWhile (l := argument) (p := (· ≠ '='))
  rcases hrest : argument.dropWhile (· ≠ '=') with _ | ⟨c, value⟩
  · rw [hrest, List.append_nil] at hparts
    simp only [hparts]
  · simp only [hrest] at h
    cases h

/-- How an argument is taken while there may be options depends on the argument alone. -/
lemma take_cases (h : argument ≠ "--") :
    (∃ name value, (value = none → name = argument) ∧
      ∀ p : Progress, p.plain = false → p.take argument = p.takeOption name value) ∨
    (∃ c letters, ∀ p : Progress, p.plain = false →
      p.take argument = p.takeLetters (c :: letters)) ∨
    ∀ p : Progress, p.plain = false → p.take argument = p.takeFree argument := by
  rcases hlist : argument.toList with _ | ⟨c, rest⟩
  · refine Or.inr (Or.inr fun p hp => ?_)
    rw [take, hp, hlist]
    rfl
  · by_cases hc : c = '-'
    · subst hc
      rcases rest with _ | ⟨d, rest⟩
      · refine Or.inr (Or.inr fun p hp => ?_)
        rw [take, hp, hlist]
        simp
      · by_cases hd : d = '-'
        · subst hd
          rcases rest with _ | ⟨x, rest⟩
          · exact absurd (String.toList_inj.1 hlist) h
          · let parts := splitValue ('-' :: '-' :: x :: rest)
            refine Or.inl ⟨parts.1, parts.2, fun hnone => ?_, fun p hp => ?_⟩
            · rw [fst_splitValue hnone, ← hlist, String.ofList_toList]
            · rw [take, hp, hlist]
              rfl
        · refine Or.inr (Or.inl ⟨d, rest, fun p hp => ?_⟩)
          rw [take, hp, hlist]
          simp [hd]
    · refine Or.inr (Or.inr fun p hp => ?_)
      rw [take, hp, hlist]
      simp [hc]

/-- Taking begins with settling if it does so for both. -/
lemma agree_of_eq {f g : Progress → Step} (hf : Agree (p.settle >>= f) (f p)) (hp : g p = f p)
    (hq : ∀ q, p.Settles q → g q = f q) : Agree (p.settle >>= g) (g p) := by
  rw [hp]
  obtain ⟨q, h⟩ | ⟨e, h⟩ := p.settle_cases
  · rw [h.settle] at hf ⊢
    change Agree (g q) (f p)
    rw [hq q h]
    exact hf
  · rw [h] at hf ⊢
    exact hf

/-- **What waits may be settled before an argument is taken**, unless it is the one that is waited
for, or the end of the options. -/
lemma agree_take (hopen : ¬ p.IsOpen) (h : p.plain = true ∨ argument ≠ "--") :
    Agree (p.settle >>= (take · argument)) (p.take argument) := by
  by_cases hplain : p.plain = true
  · have htake {q : Progress} (hq : q.plain = true) : q.take argument = q.takePlain argument := by
      rw [take, if_pos hq]
    exact agree_of_eq (p.agree_takePlain argument) (htake hplain)
      fun q hq => htake (hq.grows.plain.trans hplain)
  · have hdashes := h.resolve_left hplain
    rw [Bool.not_eq_true] at hplain
    have hplain' {q : Progress} (hq : p.Settles q) : q.plain = false := hq.grows.plain.trans hplain
    obtain ⟨name, value, -, htake⟩ | ⟨c, letters, htake⟩ | htake := take_cases hdashes
    · exact agree_of_eq (p.agree_takeOption name value) (htake p hplain)
        fun q hq => htake q (hplain' hq)
    · exact agree_of_eq (p.agree_takeLetters c letters) (htake p hplain)
        fun q hq => htake q (hplain' hq)
    · refine agree_of_eq (p.agree_takePlain argument) ?_ fun q hq => ?_
      · rw [htake p hplain, takeFree_eq hopen]
      · rw [htake q (hplain' hq), takeFree_eq (not_isOpen_of_nothing hq.waiting)]

/-- The end of the options is found with any progress. -/
lemma take_dashes (h : p.plain = false) : p.take "--" = .ok { p with plain := true } := by
  rw [take, h]
  rfl

/-! ### What is asked for is not taken back -/

lemma grows_of_wait {w : Waiting} (h : (.ok { p with waiting := w } : Step) = .ok q) :
    p.Grows q := by
  cases h
  exact ⟨id, List.Subset.refl _, rfl⟩

lemma grows_of_new {s : Switch} (h : (if s ∈ p.switches then fail e
    else .ok { p with switches := s :: p.switches } : Step) = .ok q) : p.Grows q := by
  by_cases hs : s ∈ p.switches
  · rw [if_pos hs] at h
    cases h
  · rw [if_neg hs] at h
    cases h
    exact ⟨id, List.subset_cons_self _ _, rfl⟩

lemma grows_takePlain (h : p.takePlain argument = .ok q) : p.Grows q := by
  by_cases hp : p.HasProgram
  · cases (takePlain_of_hasProgram hp argument).symm.trans h
  · rw [takePlain_of_not_hasProgram hp] at h
    obtain ⟨r, hr, h⟩ := settle_bind_eq_ok h
    exact hr.grows.trans (grows_of_wait h)

lemma grows_turnOn {s : Switch} (h : p.turnOn s = .ok q) : p.Grows q := by
  obtain ⟨r, hr, h⟩ := settle_bind_eq_ok h
  exact hr.grows.trans (grows_of_new h)

lemma showPage_ne_ok {page : Page} : p.showPage page ≠ .ok q := by
  intro h
  obtain ⟨r, -, h⟩ := settle_bind_eq_ok h
  cases h

lemma grows_takeSetting {value : Option String} (h : p.takeSetting s value = .ok q) :
    p.Grows q := by
  rcases value with _ | v
  · obtain ⟨r, hr, h⟩ := settle_bind_eq_ok h
    exact hr.grows.trans (grows_of_wait h)
  · obtain ⟨r, hr, h⟩ := settle_bind_eq_ok h
    exact hr.grows.trans (grows_set h)

lemma grows_takeOption {value : Option String} (h : p.takeOption name value = .ok q) :
    p.Grows q := by
  unfold takeOption at h
  split at h
  · exact grows_takeSetting h
  · exact grows_turnOn h
  · exact absurd h showPage_ne_ok
  · cases h
  · cases h

lemma grows_takeLetters {letters : List Char} (h : p.takeLetters letters = .ok q) :
    p.Grows q := by
  unfold takeLetters at h
  split at h
  · cases h
    exact .refl p
  · exact absurd h showPage_ne_ok
  · exact absurd h showPage_ne_ok
  · cases h

/-- Only the end of the options ends the options, and no argument takes another one back. -/
lemma grows_take (h : p.plain = true ∨ argument ≠ "--") (hq : p.take argument = .ok q) :
    p.Grows q := by
  by_cases hplain : p.plain = true
  · rw [take, if_pos hplain] at hq
    exact grows_takePlain hq
  · have hdashes := h.resolve_left hplain
    rw [Bool.not_eq_true] at hplain
    obtain ⟨name, value, -, htake⟩ | ⟨c, letters, htake⟩ | htake := take_cases hdashes
    · rw [htake p hplain] at hq
      exact grows_takeOption hq
    · rw [htake p hplain] at hq
      exact grows_takeLetters hq
    · rw [htake p hplain, takeFree] at hq
      split at hq
      · exact grows_of_wait hq
      · exact grows_takePlain hq

/-! ### Where a value is waited for -/

lemma not_isOpen_takePlain (h : p.takePlain argument = .ok q) : ¬ q.IsOpen := by
  by_cases hp : p.HasProgram
  · cases (takePlain_of_hasProgram hp argument).symm.trans h
  · rw [takePlain_of_not_hasProgram hp] at h
    obtain ⟨r, -, h⟩ := settle_bind_eq_ok h
    cases h
    rintro ⟨s, hs⟩
    cases hs

lemma not_isOpen_set (h : p.set s value = .ok q) : ¬ q.IsOpen := by
  obtain ⟨q', hq', hwaiting, -⟩ | ⟨e, he⟩ := p.set_cases s value
  · obtain rfl : q' = q := Except.ok.inj (hq'.symm.trans h)
    exact not_isOpen_of_nothing hwaiting
  · cases he.symm.trans h

lemma not_isOpen_turnOn {s : Switch} (h : p.turnOn s = .ok q) : ¬ q.IsOpen := by
  obtain ⟨r, hr, h⟩ := settle_bind_eq_ok h
  by_cases hs : s ∈ r.switches
  · rw [if_pos hs] at h
    cases h
  · rw [if_neg hs] at h
    cases h
    exact not_isOpen_of_nothing hr.waiting

lemma value_of_isOpen_takeSetting {value : Option String} (h : p.takeSetting s value = .ok q)
    (hopen : q.IsOpen) : value = none := by
  rcases value with _ | v
  · rfl
  · obtain ⟨r, -, h⟩ := settle_bind_eq_ok h
    exact absurd hopen (not_isOpen_set h)

lemma name_of_setting? (h : setting? name = some s) : s.name = name :=
  of_decide_eq_true (List.find?_some (p := fun s : Setting => decide (s.name = name)) h)

lemma of_isOpen_takeOption {value : Option String} (h : p.takeOption name value = .ok q)
    (hopen : q.IsOpen) : value = none ∧ ∃ s : Setting, name = s.name := by
  unfold takeOption at h
  split at h
  · rename_i hs
    exact ⟨value_of_isOpen_takeSetting h hopen, _, (name_of_setting? hs).symm⟩
  · exact absurd hopen (not_isOpen_turnOn h)
  · exact absurd h showPage_ne_ok
  · cases h
  · cases h

/-- Only the name of an option waits for a value. -/
lemma name_of_isOpen_take (hplain : p.plain = false) (hdashes : argument ≠ "--")
    (h : p.take argument = .ok q) (hopen : q.IsOpen) : ∃ s : Setting, argument = s.name := by
  obtain ⟨name, value, hname, htake⟩ | ⟨c, letters, htake⟩ | htake := take_cases hdashes
  · rw [htake p hplain] at h
    obtain ⟨hvalue, s, hs⟩ := of_isOpen_takeOption h hopen
    exact ⟨s, (hname hvalue).symm.trans hs⟩
  · rw [htake p hplain] at h
    unfold takeLetters at h
    split at h
    · rename_i hnil
      cases hnil
    · exact absurd h showPage_ne_ok
    · exact absurd h showPage_ne_ok
    · cases h
  · rw [htake p hplain, takeFree] at h
    split at h
    · cases h
      obtain ⟨s, hs⟩ := hopen
      cases hs
    · exact absurd hopen (not_isOpen_takePlain h)

/-- Before the end of the options, an option is waiting for its value only after its name. -/
lemma foldlM_front {front : List String} (hfront : "--" ∉ front)
    (h : front.foldlM take {} = .ok p) :
    p.plain = false ∧ (p.IsOpen → ∃ s : Setting, front.getLast? = some s.name) := by
  induction front using List.reverseRecOn generalizing p with
  | nil =>
    cases h
    exact ⟨rfl, fun hopen => absurd hopen (not_isOpen_of_nothing rfl)⟩
  | append_singleton front argument ih =>
    rw [List.mem_append, not_or, List.mem_singleton] at hfront
    have hdashes : argument ≠ "--" := Ne.symm hfront.2
    rw [List.foldlM_append] at h
    rcases hr : front.foldlM take {} with e | r
    · rw [hr] at h
      cases h
    · have hplain := (ih hfront.1 hr).1
      have htake : r.take argument = .ok p := by
        rw [hr] at h
        change (List.foldlM take r [argument] : Step) = _ at h
        rw [List.foldlM_cons] at h
        change r.take argument >>= pure = _ at h
        rwa [bind_pure] at h
      refine ⟨(grows_take (Or.inr hdashes) htake).plain.trans hplain, fun hopen => ?_⟩
      obtain ⟨s, rfl⟩ := name_of_isOpen_take hplain hdashes htake hopen
      exact ⟨s, List.getLast?_concat⟩

/-! ### What is left of the arguments -/

/-- Takes what is left of the arguments. -/
def complete (p : Progress) (arguments : List String) : Except Interrupt Options :=
  arguments.foldlM take p >>= finish

lemma complete_cons (p : Progress) (argument : String) (arguments : List String) :
    p.complete (argument :: arguments) = p.take argument >>= (complete · arguments) := by
  rw [complete, List.foldlM_cons, bind_assoc]
  rfl

lemma complete_append (p : Progress) (front back : List String) :
    p.complete (front ++ back) = front.foldlM take p >>= (complete · back) := by
  rw [complete, List.foldlM_append, bind_assoc]
  rfl

lemma settle_ends (p : Progress) :
    settle { p with plain := true } = p.settle.map fun q => { q with plain := true } := by
  obtain ⟨program, config, maxSteps, switches, waiting, plain⟩ := p
  rcases waiting with _ | path | ⟨s, _ | value⟩
  · rfl
  · simp only [settle, setProgram]
    split <;> rfl
  · rfl
  · cases s with
    | config =>
      simp only [settle, set, setConfig]
      split
      · rfl
      · split <;> rfl
    | maxSteps =>
      simp only [settle, set, setMaxSteps]
      split
      · rfl
      · rcases count value.toList with e | n <;> rfl

/-- **What waits may be settled before all arguments that are left**, unless a value is waited
for. -/
lemma agree_complete (arguments : List String) : ∀ {p : Progress}, ¬ p.IsOpen →
    Agree (p.settle >>= (complete · arguments)) (p.complete arguments) := by
  induction arguments with
  | nil =>
    intro p hopen
    change Agree (p.settle >>= finish) p.finish
    unfold finish
    exact p.agree_settle_bind _
  | cons argument arguments ih =>
    intro p hopen
    simp only [complete_cons]
    by_cases h : p.plain = true ∨ argument ≠ "--"
    · have hbind := (agree_take hopen h).bind fun q _ => Agree.same (q.complete arguments)
      rwa [bind_assoc] at hbind
    · -- The end of the options settles nothing: what waits goes past it.
      obtain ⟨hplain, rfl⟩ : p.plain = false ∧ argument = "--" := by simpa using h
      have hlater : Agree (settle { p with plain := true } >>= (complete · arguments))
        (complete { p with plain := true } arguments) := ih hopen
      rw [settle_ends] at hlater
      rw [take_dashes hplain]
      obtain ⟨q, hq⟩ | ⟨e, he⟩ := p.settle_cases
      · rw [hq.settle] at hlater ⊢
        change Agree (q.take "--" >>= (complete · arguments)) _
        rw [take_dashes (hq.grows.plain.trans hplain)]
        exact hlater
      · rw [he] at hlater ⊢
        exact hlater

end Progress

end ByteMachine.CommandLine

import ByteMachine.Proofs.Settling

/-!
Options that are added and left out. Where arguments are accepted, an option that stands among them
may be left out, together with its value, and one that does not may be put between them. The others
are taken as before, for none of them depends on an option of another name.
-/

namespace ByteMachine.CommandLine

/-! ### Results side by side -/

section Results

variable {α β γ δ : Type} {x x' : Except Interrupt α} {y y' : Except Interrupt β}
  {L L' : α → Prop} {M : γ → Prop} {R : α → β → Prop}

/-- The results correspond, or the second one is a failure where the first is nothing in `L`. -/
inductive Follows (L : α → Prop) (R : α → β → Prop) : Except Interrupt α → Except Interrupt β → Prop
  | ok {a : α} {b : β} (h : R a b) : Follows L R (.ok a) (.ok b)
  | shown (p : Page) : Follows L R (.error (.shown p)) (.error (.shown p))
  | failed {x : Except Interrupt α} (e : ArgumentError) (h : ∀ a, x = .ok a → ¬ L a) :
      Follows L R x (fail e)

lemma follows_fail (e e' : ArgumentError) : Follows L R (fail e) (fail e') := by
  refine .failed e' fun a ha => ?_
  cases ha

lemma Follows.mono (h : Follows L R x y) (hL : ∀ a, L' a → L a) : Follows L' R x y := by
  cases h with
  | ok h => exact .ok h
  | shown p => exact .shown p
  | failed e h => exact .failed e fun a ha hL' => h a ha (hL a hL')

lemma Follows.bind {S : γ → δ → Prop} {f : α → Except Interrupt γ} {g : β → Except Interrupt δ}
    (h : Follows L R x y) (hback : ∀ a c, f a = .ok c → M c → L a)
    (hfg : ∀ a b, R a b → Follows M S (f a) (g b)) : Follows M S (x >>= f) (y >>= g) := by
  cases h with
  | ok h => exact hfg _ _ h
  | shown p => exact .shown p
  | failed e h =>
    refine .failed e fun c hc hM => ?_
    rcases x with e | a
    · cases hc
    · exact h a rfl (hback a c hc hM)

/-- If `L` holds before every step that it holds after, it holds at first if it holds at last. -/
lemma foldlM_back {ι : Type} {f : α → ι → Except Interrupt α}
    (hback : ∀ i a c, f a i = .ok c → L c → L a) {xs : List ι} :
    ∀ {a c}, xs.foldlM f a = .ok c → L c → L a := by
  induction xs with
  | nil =>
    intro a c hc hL
    cases hc
    exact hL
  | cons i xs ih =>
    intro a c hc hL
    rw [List.foldlM_cons] at hc
    rcases hi : f a i with e | b
    · rw [hi] at hc
      cases hc
    · rw [hi] at hc
      exact hback i a b hi (ih hc hL)

lemma follows_foldlM {ι : Type} {f : α → ι → Except Interrupt α} {g : β → ι → Except Interrupt β}
    (hback : ∀ i a c, f a i = .ok c → L c → L a)
    (hstep : ∀ i a b, R a b → Follows L R (f a i) (g b i)) (xs : List ι) :
    ∀ {a b}, R a b → Follows L R (xs.foldlM f a) (xs.foldlM g b) := by
  induction xs with
  | nil => exact fun h => .ok h
  | cons i xs ih =>
    intro a b h
    rw [List.foldlM_cons, List.foldlM_cons]
    refine (hstep i a b h).bind (fun a c hc hc' => ?_) fun a b h => ih h
    exact foldlM_back hback hc hc'

lemma Follows.congr (h : Follows L R x y) (hx : Agree x x') (hy : Agree y y') :
    Follows L R x' y' := by
  cases h with
  | ok h =>
    cases hx
    cases hy
    exact .ok h
  | shown p =>
    cases hx
    cases hy
    exact .shown p
  | failed e h =>
    have hx' : ∀ a, x' = .ok a → ¬ L a := by
      cases hx with
      | same => exact h
      | failed => nofun
    cases hy with
    | same => exact .failed _ hx'
    | failed => exact .failed _ hx'

end Results

/-! ### Flags -/

/-- An option that may be left out. -/
inductive Flag where
  | maxSteps (n : UInt64)
  | switch (s : Switch)

namespace Flag

/-- The arguments that a flag is written with. -/
inductive Written : Flag → List String → Prop
  | switch (s : Switch) : Written (.switch s) [s.name]
  | apart {n : Nat} {value : String} (h : count value.toList = .ok n) :
      Written (.maxSteps (UInt64.ofNat n)) [Setting.maxSteps.name, value]
  | joined {n : Nat} {value : String} (h : count value.toList = .ok n) :
      Written (.maxSteps (UInt64.ofNat n)) [Setting.maxSteps.name ++ "=" ++ value]

/-- How many steps there may be without the flag, and with it. -/
def Budgets : Flag → Option UInt64 → Option UInt64 → Prop
  | maxSteps n, bare, full => bare = none ∧ full = some n
  | switch _, bare, full => full = bare

/-- The flag is not among what has been asked for. -/
def IsNew : Flag → Option UInt64 → List Switch → Prop
  | maxSteps _, n, _ => n = none
  | switch s, _, switches => s ∉ switches

lemma IsNew.of_fewer {f : Flag} {n n' : Option UInt64} {switches switches' : List Switch}
    (h : f.IsNew n' switches') (hn : n' = none → n = none) (hs : switches ⊆ switches') :
    f.IsNew n switches := by
  cases f with
  | maxSteps m => exact hn h
  | switch s => exact fun hmem => h (hs hmem)

end Flag

namespace Progress

variable {f : Flag} {p q : Progress} {argument value : String}

/-- The flag is not there yet. -/
def Lacks (f : Flag) (p : Progress) : Prop := f.IsNew p.maxSteps p.switches

lemma Grows.lacks (h : p.Grows q) (hq : q.Lacks f) : p.Lacks f :=
  Flag.IsNew.of_fewer hq h.maxSteps h.switches

lemma lacks_of_take (h : p.take argument = .ok q) (hq : q.Lacks f) : p.Lacks f := by
  by_cases hcases : p.plain = true ∨ argument ≠ "--"
  · exact (grows_take hcases h).lacks hq
  · obtain ⟨hplain, rfl⟩ : p.plain = false ∧ argument = "--" := by simpa using hcases
    rw [take_dashes hplain] at h
    cases h
    exact hq

/-! ### With a flag and without -/

/-- `q` is `p` with a flag. -/
structure Beside (f : Flag) (p q : Progress) : Prop where
  program : q.program = p.program
  config : q.config = p.config
  budgets : f.Budgets p.maxSteps q.maxSteps
  switches : ∀ s, s ∈ q.switches ↔ f = .switch s ∨ s ∈ p.switches
  waiting : q.waiting = p.waiting
  plain : q.plain = p.plain

/-- A count that is set with the flag is set without it, for it is not that of the flag. -/
lemma Beside.set (h : Beside f p q) (s : Setting) (value : String) :
    Follows (Lacks f) (Beside f) (p.set s value) (q.set s value) := by
  cases s with
  | config =>
    rw [Progress.set, Progress.set, setConfig, setConfig, h.config]
    split
    · exact follows_fail ..
    · split
      · exact follows_fail ..
      · exact .ok { h with config := rfl, waiting := rfl }
  | maxSteps =>
    have hbudgets := h.budgets
    rcases f with m | t
    · have hfull : q.set .maxSteps value = fail (.repeated Setting.maxSteps.usage) := by
        rw [Progress.set, setMaxSteps, hbudgets.2]
        rfl
      rw [hfull]
      refine .failed _ fun p' hp' hnew => ?_
      obtain ⟨-, n, -, rfl⟩ := setMaxSteps_eq_ok_iff.1 hp'
      cases hnew
    · have hsame : q.maxSteps = p.maxSteps := hbudgets
      rw [Progress.set, Progress.set, setMaxSteps, setMaxSteps, hsame]
      split
      · exact follows_fail ..
      · rcases count value.toList with e | n
        · exact follows_fail ..
        · exact .ok { h with budgets := rfl, waiting := rfl }

lemma Beside.settle (h : Beside f p q) : Follows (Lacks f) (Beside f) p.settle q.settle := by
  rcases hw : p.waiting with _ | path | ⟨s, _ | value⟩
  · rw [settle_nothing hw, settle_nothing (h.waiting.trans hw)]
    exact .ok h
  · rw [settle_program hw, settle_program (h.waiting.trans hw), setProgram, setProgram]
    split
    · exact follows_fail ..
    · exact .ok { h with program := rfl, waiting := rfl }
  · rw [settle_open hw, settle_open (h.waiting.trans hw)]
    exact follows_fail ..
  · rw [settle_setting hw, settle_setting (h.waiting.trans hw)]
    exact h.set s value

lemma Beside.turnOn (h : Beside f p q) (s : Switch) :
    Follows (Lacks f) (Beside f) (p.turnOn s) (q.turnOn s) := by
  refine h.settle.bind (fun p c hc => (grows_of_new hc).lacks) fun p q h => ?_
  by_cases hq : s ∈ q.switches
  · rw [if_pos hq]
    refine .failed _ fun c hc hnew => ?_
    by_cases hp : s ∈ p.switches
    · rw [if_pos hp] at hc
      cases hc
    · -- The switch is taken without the flag, but then the flag is not new any more.
      obtain rfl : f = .switch s := ((h.switches s).1 hq).resolve_right hp
      rw [if_neg hp] at hc
      cases hc
      exact hnew List.mem_cons_self
  · have hp : s ∉ p.switches := fun hs => hq ((h.switches s).2 (Or.inr hs))
    rw [if_neg hp, if_neg hq]
    refine .ok { h with switches := fun t => ?_ }
    rw [List.mem_cons, List.mem_cons, h.switches t, or_left_comm]

lemma Beside.showPage (h : Beside f p q) (page : Page) :
    Follows (Lacks f) (Beside f) (p.showPage page) (q.showPage page) := by
  refine h.settle.bind (fun p c hc => ?_) fun p q h => .shown page
  cases hc

lemma Beside.takePlain (h : Beside f p q) (argument : String) :
    Follows (Lacks f) (Beside f) (p.takePlain argument) (q.takePlain argument) := by
  have hiff : q.HasProgram ↔ p.HasProgram := by
    rw [HasProgram, HasProgram, h.program, h.waiting]
  by_cases hp : p.HasProgram
  · rw [takePlain_of_hasProgram hp, takePlain_of_hasProgram (hiff.2 hp)]
    exact follows_fail ..
  · rw [takePlain_of_not_hasProgram hp, takePlain_of_not_hasProgram (hiff.not.2 hp)]
    exact h.settle.bind (fun p c hc => (grows_of_wait hc).lacks)
      fun p q h => .ok { h with waiting := rfl }

lemma Beside.takeSetting (h : Beside f p q) (s : Setting) (value : Option String) :
    Follows (Lacks f) (Beside f) (p.takeSetting s value) (q.takeSetting s value) := by
  rcases value with _ | value
  · exact h.settle.bind (fun p c hc => (grows_of_wait hc).lacks)
      fun p q h => .ok { h with waiting := rfl }
  · exact h.settle.bind (fun p c hc => (grows_set hc).lacks) fun p q h => h.set s value

lemma Beside.takeOption (h : Beside f p q) (name : String) (value : Option String) :
    Follows (Lacks f) (Beside f) (p.takeOption name value) (q.takeOption name value) := by
  unfold Progress.takeOption
  generalize setting? name = setting, switch? name = switch, page? name = page
  rcases setting with _ | s
  · rcases switch with _ | s
    · rcases page with _ | page
      · exact follows_fail ..
      · rcases value with _ | v
        · exact h.showPage page
        · exact follows_fail ..
    · rcases value with _ | v
      · exact h.turnOn s
      · exact follows_fail ..
  · exact h.takeSetting s value

lemma Beside.takeLetters (h : Beside f p q) (letters : List Char) :
    Follows (Lacks f) (Beside f) (p.takeLetters letters) (q.takeLetters letters) := by
  unfold Progress.takeLetters
  split
  · exact .ok h
  · exact h.showPage .shortHelp
  · exact h.showPage .version
  · exact follows_fail ..

lemma Beside.takeFree (h : Beside f p q) (argument : String) :
    Follows (Lacks f) (Beside f) (p.takeFree argument) (q.takeFree argument) := by
  unfold Progress.takeFree
  rw [h.waiting]
  split
  · exact .ok { h with waiting := rfl }
  · exact h.takePlain argument

/-- **A flag makes no difference to other arguments.** -/
lemma Beside.take (h : Beside f p q) (argument : String) :
    Follows (Lacks f) (Beside f) (p.take argument) (q.take argument) := by
  unfold Progress.take
  rw [h.plain]
  split
  · exact h.takePlain argument
  · split
    · exact .ok { h with plain := rfl }
    · exact h.takeOption _ _
    · exact h.takeLetters _
    · exact h.takeFree argument

/-! ### Taking a flag -/

lemma take_name (h : p.plain = false) (s : Switch) : p.take s.name = p.turnOn s := by
  rw [take, h]
  cases s <;> rfl

lemma take_maxSteps (h : p.plain = false) :
    p.take Setting.maxSteps.name =
      p.settle >>= fun p => .ok { p with waiting := .setting .maxSteps none } := by
  rw [take, h]
  rfl

/-- A count is no option, so it is what an option waits for. -/
lemma take_count {n : Nat} (h : p.plain = false) (hvalue : count value.toList = .ok n) :
    p.take value = p.takeFree value := by
  rw [take, h]
  rcases hlist : value.toList with _ | ⟨c, rest⟩
  · rfl
  · have hc : c ≠ '-' := by
      rintro rfl
      rw [hlist] at hvalue
      cases hvalue
    simp [hc]

lemma take_joined (h : p.plain = false) (value : String) :
    p.take (Setting.maxSteps.name ++ "=" ++ value) = p.settle >>= (set · .maxSteps value) := by
  have hlist : (Setting.maxSteps.name ++ "=" ++ value).toList =
      '-' :: '-' :: ("max-steps=".toList ++ value.toList) := by
    rw [String.toList_append]
    rfl
  have hsplit : splitValue ('-' :: '-' :: ("max-steps=".toList ++ value.toList)) =
      (Setting.maxSteps.name, some (String.ofList value.toList)) := rfl
  rw [String.ofList_toList] at hsplit
  rw [take, h, hlist]
  exact congrArg (fun parts : String × Option String => p.takeOption parts.1 parts.2) hsplit

lemma set_bind_settle (p : Progress) (s : Setting) (value : String) :
    p.set s value >>= settle = p.set s value := by
  obtain ⟨q, hq, hwaiting, -⟩ | ⟨e, he⟩ := p.set_cases s value
  · rw [hq]
    exact settle_nothing hwaiting
  · rw [he]
    rfl

lemma beside_switch (p : Progress) (s : Switch) :
    Beside (.switch s) p { p with switches := s :: p.switches } where
  program := rfl
  config := rfl
  budgets := rfl
  switches t := by rw [List.mem_cons, Flag.switch.injEq, eq_comm]
  waiting := rfl
  plain := rfl

/-- A number of steps is set where there has been none. -/
lemma beside_setMaxSteps {n : Nat} (h : p.waiting = .nothing) (w : Waiting)
    (hvalue : count value.toList = .ok n) :
    Follows (Lacks (.maxSteps (UInt64.ofNat n))) (Beside (.maxSteps (UInt64.ofNat n))) (.ok p)
      (set { p with waiting := w } .maxSteps value) := by
  rw [set, setMaxSteps]
  split
  · rename_i hsome
    refine .failed _ fun p' hp' hnew => ?_
    cases hp'
    have hnone : p.maxSteps = none := hnew
    rw [hnone] at hsome
    cases hsome
  · rename_i hnone
    rw [Option.not_isSome_iff_eq_none] at hnone
    rw [hvalue]
    refine .ok ⟨rfl, rfl, ⟨hnone, rfl⟩, fun s => ⟨Or.inr, fun hs => ?_⟩, h.symm, rfl⟩
    exact hs.resolve_left Flag.noConfusion

/-- A flag that is written is set after what waits, unless it is there already. -/
lemma foldlM_written {tokens : List String} (hplain : p.plain = false) (h : f.Written tokens) :
    ∃ g : Progress → Step, tokens.foldlM take p = p.settle >>= g ∧ ∀ q, p.Settles q →
      (∀ q', g q = .ok q' → ¬ q'.IsOpen) ∧
      Follows (Lacks f) (Beside f) (.ok q) (g q >>= settle) := by
  cases h with
  | switch s =>
    refine ⟨fun q => if s ∈ q.switches then fail (.repeated s.name)
      else .ok { q with switches := s :: q.switches }, ?_, fun q hq => ?_⟩
    · rw [List.foldlM_cons, take_name hplain, turnOn]
      simp
    · by_cases hs : s ∈ q.switches
      · simp only [if_pos hs]
        refine ⟨nofun, .failed _ fun q' hq' hnew => ?_⟩
        cases hq'
        exact hnew hs
      · simp only [if_neg hs]
        refine ⟨?_, ?_⟩
        · intro q' hq'
          cases hq'
          exact not_isOpen_of_nothing hq.waiting
        · have hsettle : settle { q with switches := s :: q.switches } =
              .ok { q with switches := s :: q.switches } := settle_nothing hq.waiting
          change Follows _ _ _ (settle { q with switches := s :: q.switches })
          rw [hsettle]
          exact .ok (q.beside_switch s)
  | @apart n value hvalue =>
    refine ⟨fun q => .ok { q with waiting := .setting .maxSteps (some value) }, ?_,
      fun q hq => ⟨?_, beside_setMaxSteps hq.waiting _ hvalue⟩⟩
    · rw [List.foldlM_cons, take_maxSteps hplain]
      obtain ⟨q, hq⟩ | ⟨e, he⟩ := p.settle_cases
      · rw [hq.settle]
        have htake : take { q with waiting := .setting .maxSteps none } value =
            takeFree { q with waiting := .setting .maxSteps none } value :=
          take_count (hq.grows.plain.trans hplain) hvalue
        change List.foldlM take { q with waiting := .setting .maxSteps none } [value] = _
        rw [List.foldlM_cons, htake]
        rfl
      · rw [he]
        rfl
    · rintro q' hq' ⟨t, ht⟩
      cases hq'
      cases ht
  | @joined n value hvalue =>
    refine ⟨fun q => q.set .maxSteps value, ?_, fun q hq => ⟨fun q' => not_isOpen_set, ?_⟩⟩
    · rw [List.foldlM_cons, take_joined hplain]
      simp
    · rw [set_bind_settle]
      exact beside_setMaxSteps hq.waiting q.waiting hvalue

end Progress

/-! ### All arguments -/

namespace Options

/-- What is asked for with a flag. -/
structure Beside (f : Flag) (o o' : Options) : Prop where
  program : o'.program = o.program
  config : o'.config = o.config
  budgets : f.Budgets o.maxSteps o'.maxSteps
  switches : ∀ s, s ∈ o'.switches ↔ f = .switch s ∨ s ∈ o.switches

/-- The flag is not asked for. -/
def Lacks (f : Flag) (o : Options) : Prop := f.IsNew o.maxSteps o.switches

end Options

namespace Progress

variable {f : Flag} {p q : Progress}

lemma lacks_of_program {o : Options} (h : (match p.program with
      | none => fail .programMissing
      | some program => .ok ⟨program, p.config, p.maxSteps, p.switches⟩ :
      Except Interrupt Options) = .ok o)
    (ho : o.Lacks f) : p.Lacks f := by
  rcases hp : p.program with _ | program
  · rw [hp] at h
    cases h
  · rw [hp] at h
    cases h
    exact ho

lemma lacks_of_finish {o : Options} (h : p.finish = .ok o) (ho : o.Lacks f) : p.Lacks f := by
  rw [finish] at h
  obtain ⟨q, hq, h⟩ := settle_bind_eq_ok h
  exact hq.grows.lacks (lacks_of_program h ho)

lemma Beside.finish (h : Beside f p q) :
    Follows (Options.Lacks f) (Options.Beside f) p.finish q.finish := by
  refine h.settle.bind (fun p o => lacks_of_program) fun p q h => ?_
  rw [h.program]
  rcases p.program with _ | program
  · exact follows_fail ..
  · exact .ok ⟨rfl, h.config, h.budgets, h.switches⟩

lemma Beside.complete (h : Beside f p q) (arguments : List String) :
    Follows (Options.Lacks f) (Options.Beside f) (p.complete arguments)
      (q.complete arguments) :=
  (follows_foldlM (fun _ _ _ => lacks_of_take) (fun argument _ _ h => h.take argument) arguments
    h).bind (fun _ _ => lacks_of_finish) fun _ _ h => h.finish

lemma lacks_of_complete {o : Options} {arguments : List String}
    (h : p.complete arguments = .ok o) (ho : o.Lacks f) : p.Lacks f := by
  rw [Progress.complete] at h
  rcases hp : arguments.foldlM take p with e | q
  · rw [hp] at h
    cases h
  · rw [hp] at h
    exact foldlM_back (fun _ _ _ => lacks_of_take) hp (lacks_of_finish h ho)

/-- The flag may be left out where it stands, and may stand where no value is waited for. -/
lemma follows_written {tokens : List String} (hplain : p.plain = false) (h : f.Written tokens)
    (arguments : List String) :
    Follows (fun o => o.Lacks f ∧ ¬ p.IsOpen) (Options.Beside f) (p.complete arguments)
      (tokens.foldlM take p >>= (Progress.complete · arguments)) := by
  obtain ⟨g, hg, hwrites⟩ := foldlM_written hplain h
  rw [hg]
  by_cases hopen : p.IsOpen
  · obtain ⟨s, hs⟩ := hopen
    rw [settle_open hs]
    exact .failed _ fun o _ ho => ho.2 ⟨s, hs⟩
  have hx := agree_complete arguments hopen
  obtain ⟨q, hq⟩ | ⟨e, he⟩ := p.settle_cases
  · obtain ⟨hclosed, hfollows⟩ := hwrites q hq
    have hy := (Agree.same (g q)).bind fun q' hq' => agree_complete arguments (hclosed q' hq')
    rw [hq.settle] at hx ⊢
    rw [← bind_assoc] at hy
    -- The flag has its place before the arguments that are left, with it as without it.
    have hwritten : Follows (Options.Lacks f) (Options.Beside f)
        (.ok q >>= (Progress.complete · arguments))
        ((g q >>= settle) >>= (Progress.complete · arguments)) :=
      hfollows.bind (fun _ _ => lacks_of_complete) fun _ _ h => h.complete arguments
    exact (hwritten.congr hx hy).mono fun _ ho => ho.1
  · rw [he] at hx ⊢
    refine .failed _ fun o ho => ?_
    cases hx.of_ok ho

end Progress

/-! ### Requests -/

/-- What is asked for with a flag. A page is shown all the same. -/
inductive Request.Beside (f : Flag) : Request → Request → Prop
  | run {o o' : Options} (h : o.Beside f o') : Beside f (.run o) (.run o')
  | page (p : Page) : Beside f (.page p) (.page p)

section Requests

variable {f : Flag} {front back tokens : List String} {request : Request}

/-- The last argument is not the name of an option that wants a value. -/
def Closed (front : List String) : Prop := ∀ s : Setting, front.getLast? ≠ some s.name

lemma follows_complete (hfront : "--" ∉ front) (hf : f.Written tokens) (back : List String) :
    Follows (fun o => o.Lacks f ∧ Closed front) (Options.Beside f)
      (Progress.complete {} (front ++ back)) (Progress.complete {} (front ++ tokens ++ back)) := by
  rw [List.append_assoc, Progress.complete_append, Progress.complete_append]
  rcases hp : front.foldlM Progress.take {} with (e | page) | p
  · exact follows_fail ..
  · exact .shown page
  · obtain ⟨hplain, hname⟩ := Progress.foldlM_front hfront hp
    have hwritten := Progress.follows_written hplain hf back
    rw [← Progress.complete_append] at hwritten
    refine hwritten.mono fun o ⟨hnew, hclosed⟩ => ⟨hnew, fun hopen => ?_⟩
    obtain ⟨s, hs⟩ := hname hopen
    exact hclosed s hs

lemma ofArguments_eq (arguments : List String) : Request.ofArguments arguments =
    match Progress.complete {} arguments with
    | .ok o => .ok (.run o)
    | .error (.shown p) => .ok (.page p)
    | .error (.failed e) => .error e := rfl

/-- **A flag may be left out.** Arguments that are accepted with a flag are accepted without it, and
nothing else that is asked for is different. -/
theorem ofArguments_without (hfront : "--" ∉ front) (hf : f.Written tokens)
    (h : Request.ofArguments (front ++ tokens ++ back) = .ok request) :
    ∃ bare, Request.ofArguments (front ++ back) = .ok bare ∧ bare.Beside f request := by
  have hfollows := follows_complete hfront hf back
  rw [ofArguments_eq] at h ⊢
  generalize Progress.complete {} (front ++ tokens ++ back) = full,
    Progress.complete {} (front ++ back) = bare at h hfollows
  cases hfollows with
  | ok ho =>
    cases h
    exact ⟨_, rfl, .run ho⟩
  | shown page =>
    cases h
    exact ⟨_, rfl, .page page⟩
  | failed => cases h

/-- **A flag may be added**, if it is not there yet, and no option is waiting for its value. -/
theorem ofArguments_with {o : Options} (hfront : "--" ∉ front) (hclosed : Closed front)
    (hf : f.Written tokens) (h : Request.ofArguments (front ++ back) = .ok (.run o))
    (ho : o.Lacks f) :
    ∃ o', Request.ofArguments (front ++ tokens ++ back) = .ok (.run o') ∧ o.Beside f o' := by
  have hfollows := follows_complete hfront hf back
  rw [ofArguments_eq] at h ⊢
  generalize Progress.complete {} (front ++ tokens ++ back) = full,
    Progress.complete {} (front ++ back) = bare at h hfollows
  cases hfollows with
  | ok hbeside =>
    cases h
    exact ⟨_, rfl, hbeside⟩
  | shown page => cases h
  | failed e hnew =>
    rcases bare with (e | p) | o'
    · cases h
    · cases h
    · cases h
      exact absurd ⟨ho, hclosed⟩ (hnew o rfl)

end Requests

end ByteMachine.CommandLine

import ByteMachine.Proofs.Accounting
import ByteMachine.Proofs.Contents
import ByteMachine.Proofs.Loading

/-!
Machines that differ in the size of memory. What the smaller one reads the larger one reads too, so
that it goes along with it step by step. Only a fault for the end of memory parts them: there the
smaller machine stops, and the larger one may go on.
-/

namespace ByteMachine

/-- The same settings, but for the size of memory. -/
def Config.resized (c : Config) (size : Nat) : Config := { c with memory := { c.memory with size } }

/-- The fault is due to the end of memory. -/
def Fault.IsAtEnd : Fault → Prop
  | pcOutOfBounds _ => True
  | truncated .. => True
  | _ => False

/-! ### Memory -/

namespace Memory

/-- What can be read from one memory can be read from the other. -/
def Extends (m m' : Memory) : Prop :=
  ∀ (k : Nat) (v : UInt8), m.bytes[k]? = some v → m'.bytes[k]? = some v

variable {m m' : Memory}

namespace Extends

lemma size_le (h : m.Extends m') : m.size ≤ m'.size := by
  by_contra hlt
  rw [size, size, Nat.not_le] at hlt
  have hlast := h m'.bytes.size _ (Array.getElem?_eq_getElem hlt)
  rw [Array.getElem?_eq_none (Nat.le_refl _)] at hlast
  cases hlast

lemma getElem?_eq (h : m.Extends m') {k : Nat} (hk : k < m.size) : m'.bytes[k]? = m.bytes[k]? := by
  have hread := Array.getElem?_eq_getElem hk
  rw [hread]
  exact h k _ hread

lemma write (h : m.Extends m') (a : Address) (v : UInt8) :
    (m.write a v).Extends (m'.write a v) := by
  intro k x hx
  have hin : k < (m.write a v).size := (Array.getElem?_eq_some_iff.1 hx).1
  rw [size_write] at hin
  have hin' : k < m'.size := Nat.lt_of_lt_of_le hin h.size_le
  rw [getElem?_write] at hx ⊢
  by_cases ha : k = a.toNat
  · rw [if_pos ⟨ha, hin⟩] at hx
    rw [if_pos ⟨ha, hin'⟩, hx]
  · rw [if_neg fun hc => ha hc.1] at hx ⊢
    exact h k x hx

/-- More of a body may have room in the larger memory, but below the end of the smaller one nothing
else is placed. -/
lemma load (h : m.Extends m') (offset : Address) (body : Array UInt8) :
    (m.load offset body).Extends (m'.load offset body) := by
  intro k x hx
  have hin : k < (m.load offset body).size := (Array.getElem?_eq_some_iff.1 hx).1
  rw [size_load] at hin
  have hle := h.size_le
  rw [getElem?_load, room] at hx ⊢
  split at hx
  · rw [if_pos (by omega)]
    exact hx
  · rw [if_neg (by omega)]
    exact h k x hx

end Extends

lemma extends_zeroed {n n' : Nat} (h : n ≤ n') : (zeroed n).Extends (zeroed n') := by
  intro k v hv
  rw [getElem?_zeroed, size_zeroed] at hv ⊢
  split at hv
  · rw [if_pos (by omega)]
    exact hv
  · cases hv

end Memory

/-! ### Contents -/

namespace Contents

/-- The same registers and output, and more memory. -/
structure Extends (c c' : Contents) : Prop where
  registers : c'.registers = c.registers
  memory : c.memory.Extends c'.memory
  output : c'.output = c.output

variable {c c' : Contents}

lemma Extends.register (h : c.Extends c') (index : UInt8) :
    c'.register index = c.register index := by
  rw [Contents.register, Contents.register, h.registers]

lemma Extends.setRegister (h : c.Extends c') (index value : UInt8) :
    (c.setRegister index value).Extends (c'.setRegister index value) := by
  refine ⟨?_, h.memory, h.output⟩
  simp only [Contents.setRegister, h.registers]

/-- A store beyond the smaller memory changes nothing in it. -/
lemma Extends.store (h : c.Extends c') (port a : Address) (v : UInt8) :
    (c.store port a v).Extends (c'.store port a v) := by
  refine ⟨h.registers, ?_, ?_⟩
  · rw [store_memory, store_memory]
    exact h.memory.write a v
  · simp only [Contents.store, h.output]

/-- **An instruction does the same with more memory.** -/
lemma Extends.apply (h : c.Extends c') (port : Address) (i : Instruction) :
    (c.apply port i).Extends (c'.apply port i) := by
  unfold Contents.apply
  split
  · cases i with
    | nop => exact h
    | halt => exact h
    | load reg value => exact h.setRegister reg value
    | add target source =>
      simp only [carryOut, h.register]
      exact h.setRegister target _
    | store source target =>
      simp only [carryOut, h.register]
      exact h.store port target.toUInt32 _
  · exact h

end Contents

/-! ### Machines -/

namespace Machine

/-- The machine `m'` is `m` with more memory. -/
structure Extends (m m' : Machine) : Prop where
  registers : m'.registers = m.registers
  memory : m.memory.Extends m'.memory
  counters : m'.counters = m.counters
  pc : m'.pc = m.pc
  state : m'.state = m.state
  settings : m'.settings = m.settings

variable {m m' : Machine} {i : Instruction} {f : Fault} {budget : Option Nat}

namespace Extends

lemma outputPort (h : m.Extends m') : m'.outputPort = m.outputPort :=
  congrArg Prod.fst h.settings

lemma strict (h : m.Extends m') : m'.strict = m.strict :=
  congrArg (fun s => s.2.1) h.settings

lemma begun (h : m.Extends m') : m.begun.Extends m'.begun := by
  unfold Machine.begun
  rw [h.state]
  split
  · exact { h with counters := congrArg Counters.start h.counters, state := rfl }
  · exact h

lemma eq_with_memory (h : m.Extends m') : m' = { m with memory := m'.memory } := by
  obtain ⟨hregisters, -, hcounters, hpc, hstate, hsettings⟩ := h
  cases m
  cases m'
  simp only [Machine.settings, Prod.mk.injEq] at hregisters hcounters hpc hstate hsettings
  obtain ⟨hport, hstrict, htrace⟩ := hsettings
  simp only [hregisters, hcounters, hpc, hstate, hport, hstrict, htrace]

lemma decode_eq_ok (h : m.Extends m') (hd : decode m.memory.bytes m.pc = .ok i) :
    decode m'.memory.bytes m'.pc = .ok i := by
  rw [h.pc]
  rw [decode_eq_ok_iff] at hd ⊢
  intro k hk
  have hread := List.getElem?_eq_getElem hk
  rw [hread]
  exact h.memory _ _ ((hd k hk).trans hread)

lemma decode_eq_error (h : m.Extends m') (hd : decode m.memory.bytes m.pc = .error f)
    (hf : ¬ f.IsAtEnd) : decode m'.memory.bytes m'.pc = .error f := by
  rw [h.pc]
  rw [decode_eq_error_iff] at hd ⊢
  obtain ⟨-, rfl⟩ | ⟨b, hb, ⟨hop, rfl⟩ | ⟨op, -, -, rfl⟩⟩ := hd
  · exact absurd trivial hf
  · exact Or.inr ⟨b, h.memory _ b hb, Or.inl ⟨hop, rfl⟩⟩
  · exact absurd trivial hf

lemma passes (h : m.Extends m') (hp : m.Passes i) : m'.Passes i :=
  ⟨h.state ▸ hp.live, h.decode_eq_ok hp.decoded, fun hs => hp.allowed (h.strict ▸ hs)⟩

lemma refuses (h : m.Extends m') (hr : m.Refuses f) (hf : ¬ f.IsAtEnd) : m'.Refuses f := by
  refine ⟨h.state ▸ hr.live, ?_⟩
  obtain hd | ⟨i, r, hd, hs, hi, rfl⟩ := hr.cause
  · exact Or.inl (h.decode_eq_error hd hf)
  · exact Or.inr ⟨i, r, h.decode_eq_ok hd, h.strict.trans hs, hi, by rw [h.pc]⟩

/-! ### Steps -/

lemma counters_step (h : m.Extends m') (hp : m.Passes i) :
    m'.step.1.counters = m.step.1.counters := by
  have hbegun := h.begun.counters
  obtain ⟨hi, hc⟩ | ⟨r, hi, hc⟩ := hp.counters_cases
  · obtain ⟨-, hc'⟩ | ⟨r, hi', -⟩ := (h.passes hp).counters_cases
    · rw [hc', hc, hbegun, h.outputPort]
    · rw [hi] at hi'
      cases hi'
  · obtain ⟨hi', -⟩ | ⟨r', -, hc'⟩ := (h.passes hp).counters_cases
    · rw [hi] at hi'
      cases hi'
    · rw [hc', hc, hbegun]

lemma step_of_passes (h : m.Extends m') (hp : m.Passes i) :
    m.step.1.Extends m'.step.1 ∧ Effect.emitted m'.step.2 = Effect.emitted m.step.2 := by
  have hp' := h.passes hp
  have hbefore : (m.contents []).Extends (m'.contents []) := ⟨h.registers, h.memory, rfl⟩
  have hafter := hbefore.apply m.outputPort i
  have happly' := hp'.apply_contents []
  rw [h.outputPort] at happly'
  rw [hp.apply_contents, happly'] at hafter
  refine ⟨⟨hafter.registers, hafter.memory, h.counters_step hp, ?_, ?_, ?_⟩, hafter.output⟩
  · rw [hp'.pc, hp.pc, h.pc]
  · rw [hp'.state, hp.state]
  · rw [settings_step, settings_step, h.settings]

lemma step_of_refuses (h : m.Extends m') (hr : m.Refuses f) (hr' : m'.Refuses f) :
    m.step.1.Extends m'.step.1 ∧ Effect.emitted m'.step.2 = Effect.emitted m.step.2 := by
  have hbegun := h.begun
  have hpc : (m'.begun.fail f).1.pc = (m.begun.fail f).1.pc := by
    simp only [fail, hbegun.pc]
  rw [hr'.emitted, hr.emitted, hr'.step_fst, hr.step_fst]
  exact ⟨{ hbegun with pc := hpc, state := rfl }, rfl⟩

/-- **A step goes along with that of the smaller machine**, unless that one has come to the end of
its memory. -/
theorem step_cases (h : m.Extends m') :
    (m.step.1.Extends m'.step.1 ∧ Effect.emitted m'.step.2 = Effect.emitted m.step.2) ∨
      ∃ f, m.Refuses f ∧ f.IsAtEnd := by
  by_cases hterm : m.state.IsTerminal
  · have hterm' : m'.state.IsTerminal := h.state ▸ hterm
    rw [step_of_isTerminal hterm, step_of_isTerminal hterm']
    exact Or.inl ⟨h, rfl⟩
  · obtain ⟨i, hp⟩ | ⟨f, hr⟩ := passes_or_refuses hterm
    · exact Or.inl (h.step_of_passes hp)
    · by_cases hf : f.IsAtEnd
      · exact Or.inr ⟨f, hr, hf⟩
      · exact Or.inl (h.step_of_refuses hr (h.refuses hr hf))

end Extends

/-! ### Runs -/

/-- What a run in a smaller memory tells of the same run in a larger one. -/
structure Covers (small large : Run) : Prop where
  emitted : Effect.emitted small.effects.toList <+: Effect.emitted large.effects.toList
  inside : (∀ f, small.outcome = .stopped (.faulted f) → ¬ f.IsAtEnd) →
    small.machine.Extends large.machine ∧ large.outcome = small.outcome ∧
      Effect.emitted large.effects.toList = Effect.emitted small.effects.toList

lemma Covers.of_eq {small large : Run} (hmachine : small.machine.Extends large.machine)
    (hout : large.outcome = small.outcome)
    (heff : Effect.emitted large.effects.toList = Effect.emitted small.effects.toList) :
    Covers small large :=
  ⟨heff ▸ List.prefix_rfl, fun _ => ⟨hmachine, hout, heff⟩⟩

lemma Refuses.covers (hr : m.Refuses f) (hf : f.IsAtEnd) (hb : budget ≠ some 0) (large : Run) :
    Covers (m.run budget) large := by
  obtain ⟨-, hout, heff⟩ := run_stopped hb (congrArg State.stop? hr.state)
  refine ⟨?_, fun hinside => absurd hf (hinside f hout)⟩
  rw [heff, hr.emitted]
  exact List.nil_prefix

/-- **A run goes along with that in the smaller memory** up to the end of that memory. -/
lemma run_covers (m : Machine) (budget : Option Nat) :
    ∀ m', m.Extends m' → Covers (m.run budget) (m'.run budget) := by
  fun_induction m.trail budget with
  | case1 m =>
    intro m' h
    obtain ⟨hm, ho, he⟩ := m.run_zero
    obtain ⟨hm', ho', he'⟩ := m'.run_zero
    refine .of_eq ?_ ?_ ?_
    · rwa [hm, hm']
    · rw [ho', ho, h.pc]
    · rw [he', he]
  | case2 m budget hb stop hs =>
    intro m' h
    obtain ⟨hstep, heff⟩ | ⟨f, hr, hf⟩ := h.step_cases
    · obtain ⟨hm, ho, he⟩ := run_stopped hb hs
      obtain ⟨hm', ho', he'⟩ := run_stopped hb ((congrArg State.stop? hstep.state).trans hs)
      refine .of_eq ?_ ?_ ?_
      · rwa [hm, hm']
      · rw [ho', ho]
      · rw [he', he, heff]
    · exact hr.covers hf hb _
  | case3 m budget hb hs ih =>
    intro m' h
    obtain ⟨hstep, heff⟩ | ⟨f, hr, hf⟩ := h.step_cases
    · obtain ⟨hm, ho, he⟩ := run_running hb hs
      obtain ⟨hm', ho', he'⟩ := run_running hb ((congrArg State.stop? hstep.state).trans hs)
      obtain ⟨hfront, hinside⟩ := ih _ hstep
      refine ⟨?_, fun hnone => ?_⟩
      · rw [he, he', heff]
        exact (List.prefix_append_right_inj _).2 hfront
      · obtain ⟨hmachine, hout, hemitted⟩ :=
          hinside fun f hf => hnone f (ho.trans (Outcome.after_eq_stopped.2 hf))
        rw [hm, hm', ho, ho', he, he', heff, hout, hemitted]
        exact ⟨hmachine, rfl, rfl⟩
    · exact hr.covers hf hb _

/-! ### From the image on -/

lemma extends_of_install {c : Config} {size : Nat} (hle : c.memory.size ≤ size)
    {file : Array UInt8} {ready ready' : Installation} (h : (ofConfig c).install file = .ok ready)
    (h' : (ofConfig (c.resized size)).install file = .ok ready') :
    ready.machine.Extends ready'.machine := by
  have hready := congrArg Installation.machine (install_eq_ok_iff.1 h).2.2
  have hready' := congrArg Installation.machine (install_eq_ok_iff.1 h').2.2
  rw [place_ofConfig] at hready hready'
  rw [hready, hready']
  refine ⟨rfl, (Memory.extends_zeroed hle).load _ _, rfl, rfl, rfl, ?_⟩
  simp only [settings]
  rfl

/-- **More memory changes nothing for a program that stays inside.** Let an image be loaded into a
machine and into one that differs from it in having more memory, and let both run. What the first
one emits is the beginning of what the second one emits. And unless the first one ends with a fault
for the end of its memory, the two end alike, emit the same and differ in memory alone, where every
byte that the first one has stands in the second one too. -/
theorem run_eq_in_more_memory {σ : Type} (sink : Sink σ) (s : σ) {c : Config} {size : Nat}
    (hc : c.IsValid) (hle : c.memory.size ≤ size) {file : Array UInt8} {ready : Installation}
    (hload : (ofConfig c).install file = .ok ready) (budget : Option Nat) :
    ∃ ready', (ofConfig (c.resized size)).install file = .ok ready' ∧
      let small := ready.machine.run budget
      let large := ready'.machine.run budget
      sink.offered s small.effects.toList <+: sink.offered s large.effects.toList ∧
      ((∀ f, small.outcome = .stopped (.faulted f) → ¬ f.IsAtEnd) →
        large.outcome = small.outcome ∧
        large.machine = { small.machine with memory := large.machine.memory } ∧
        sink.offered s large.effects.toList = sink.offered s small.effects.toList ∧
        ∀ a : Address, a.toNat < c.memory.size →
          large.machine.memory.read? a = small.machine.memory.read? a) := by
  obtain ⟨hfile, hmark, hready⟩ := install_eq_ok_iff.1 hload
  have hload' : (ofConfig (c.resized size)).install file = .ok _ :=
    install_eq_ok_iff.2 ⟨hfile, hmark, rfl⟩
  obtain ⟨hfront, hinside⟩ := run_covers _ budget _ (extends_of_install hle hload hload')
  refine ⟨_, hload', ?_⟩
  intro small large
  rw [Sink.offered_eq, Sink.offered_eq]
  refine ⟨hfront, fun hnone => ?_⟩
  obtain ⟨hmachine, hout, hemitted⟩ := hinside hnone
  refine ⟨hout, hmachine.eq_with_memory, hemitted, fun a ha => ?_⟩
  have hsize : small.machine.memory.size = c.memory.size := by
    have hplaces := (ofConfig c).places_place hfile
    rw [← hready] at hplaces
    exact (size_run _ budget).trans (hplaces.size.trans hc.size_ofConfig)
  exact hmachine.memory.getElem?_eq (by rwa [hsize])

/-- A program that stores a byte where only the larger memory has room for it, and emits it. -/
theorem run_eq_in_more_memory_stores :
    let c : Config := { memory := { size := 16, outputPort := 15 } }
    let file := (Image.ofProgram 0 [.load 0 7, .store 0 20, .store 0 15, .halt]).encode.toArray
    c.IsValid ∧ c.memory.size ≤ 32 ∧ ∃ ready ready',
      (ofConfig c).install file = .ok ready ∧ (ofConfig (c.resized 32)).install file = .ok ready' ∧
      (ready.machine.run none).outcome = .stopped .halted ∧
      (ready.machine.run none).machine.memory.read? 20 = none ∧
      (ready'.machine.run none).outcome = .stopped .halted ∧
      (ready'.machine.run none).machine.memory.read? 20 = some 7 ∧
      Sink.capture.offered #[] (ready'.machine.run none).effects.toList = [7] := by
  intro c file
  have hc : c.IsValid := ⟨by decide, by decide, by decide⟩
  have hle : c.memory.size ≤ 32 := by decide
  obtain ⟨ready, hready⟩ : ∃ ready, ready = (ofConfig c).place (.inFront file) (bodyBytes file) :=
    ⟨_, rfl⟩
  have hload : (ofConfig c).install file = .ok ready :=
    install_eq_ok_iff.2 ⟨by decide, by decide, hready⟩
  have hhalted : (ready.machine.run none).outcome = .stopped .halted := by
    rw [hready]
    decide +kernel
  obtain ⟨ready', hload', -, hinside⟩ :=
    run_eq_in_more_memory Sink.capture #[] hc hle hload none
  obtain ⟨hout, -, hoffered, -⟩ := hinside fun f hf => by rw [hhalted] at hf; cases hf
  refine ⟨hc, hle, ready, ready', hload, hload', hhalted, ?_, hout.trans hhalted, ?_,
    hoffered.trans ?_⟩
  · rw [hready]
    decide +kernel
  · rw [(install_eq_ok_iff.1 hload').2.2]
    decide +kernel
  · rw [hready]
    decide +kernel

end Machine

end ByteMachine

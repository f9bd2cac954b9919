import ByteMachine.Proofs.Observers

/-!
What the log says of sinks and of skipped effects. A machine asks for bytes to be sent and for lines
that are no warnings, and a simulator for one flush at the end of each run. So every warning is
word of something that a sink has refused.
-/

namespace ByteMachine

namespace Event

/-- A warning, or something worse. -/
def isWarning (e : Event) : Bool := Threshold.Admits (some .warn) e.level

/-- A line for debugging that tells of a skipped effect. -/
def isSkip (e : Event) : Bool := e.level = .debug && e matches .effectSkipped ..

end Event

namespace Effect

/-- The lines that are to be logged, whatever the sinks answer. -/
def logged (effects : List Effect) : List Event :=
  effects.filterMap fun
    | log e => some e
    | _ => none

@[simp] lemma logged_append (xs ys : List Effect) :
    logged (xs ++ ys) = logged xs ++ logged ys := by
  simp [logged]

lemma mem_logged {effects : List Effect} {e : Event} : e ∈ logged effects ↔ log e ∈ effects := by
  rw [logged, List.mem_filterMap]
  constructor
  · rintro ⟨b | _ | e', hmem, heq⟩
    · cases heq
    · cases heq
    · rwa [← Option.some.inj heq]
  · exact fun h => ⟨_, h, rfl⟩

/-- A machine asks for nothing else: bytes for the port, and lines that are no warnings. -/
def IsPlain : Effect → Prop
  | emit _ => True
  | flush => False
  | log e => e.isWarning = false

end Effect

open Effect

/-! ### What is asked for -/

namespace Machine

variable {m : Machine} {i : Instruction} {f : Fault}

/-- Carrying out an instruction logs a halt or a store that has missed memory, if anything. -/
lemma mem_perform {a : Address} {e : Effect} (h : e ∈ (m.perform a i).2) :
    (∃ b, e = .emit b) ∨ (∃ steps, e = .log (.halted a steps)) ∨
      ∃ b size, e = .log (.storeOutside b size) := by
  have hstore {b : Address} {v : UInt8} (h : e ∈ (m.store b v).2) :
      e = .emit v ∨ e = .log (.storeOutside b m.memory.size) := by
    have hmissed
        (h : e ∈ if m.memory.Contains b then [] else [.log (.storeOutside b m.memory.size)]) :
        e = .log (.storeOutside b m.memory.size) := by
      split at h
      · cases h
      · exact List.mem_singleton.1 h
    unfold store at h
    dsimp only at h
    split at h
    · rcases List.mem_append.1 h with h | h
      · exact Or.inr (hmissed h)
      · exact Or.inl (List.mem_singleton.1 h)
    · exact Or.inr (hmissed h)
  cases i with
  | nop | load => cases h
  | halt => exact Or.inr (Or.inl ⟨_, List.mem_singleton.1 h⟩)
  | add =>
    simp only [perform] at h
    split at h <;> cases h
  | store =>
    simp only [perform] at h
    split at h
    · obtain he | he := hstore h
      · exact Or.inl ⟨_, he⟩
      · exact Or.inr (Or.inr ⟨_, _, he⟩)
    · cases h

lemma mem_logged_perform {a : Address} {e : Event} (h : e ∈ logged (m.perform a i).2) :
    (∃ steps, e = .halted a steps) ∨ ∃ b size, e = .storeOutside b size := by
  obtain ⟨b, heq⟩ | ⟨steps, heq⟩ | ⟨b, size, heq⟩ := mem_perform (mem_logged.1 h)
  · cases heq
  · exact Or.inl ⟨steps, Effect.log.inj heq⟩
  · exact Or.inr ⟨b, size, Effect.log.inj heq⟩

lemma mem_announced {e : Effect} (h : e ∈ m.announced i) : e = .log (.traced m.pc i) := by
  unfold announced at h
  split at h
  · exact List.mem_singleton.1 h
  · cases h

lemma Passes.isPlain (h : m.Passes i) {e : Effect} (he : e ∈ m.step.2) : e.IsPlain := by
  rw [h.step_eq] at he
  rcases List.mem_append.1 he with he | he
  · rw [mem_announced he]
    rfl
  · obtain ⟨-, hexecute⟩ | ⟨r, -, hexecute⟩ := h.execute_cases
    · rw [hexecute] at he
      obtain ⟨b, rfl⟩ | ⟨steps, rfl⟩ | ⟨b, size, rfl⟩ := mem_perform he
      · trivial
      · rfl
      · rfl
    · rw [hexecute] at he
      rw [List.mem_singleton.1 he]
      rfl

lemma Refuses.isPlain (h : m.Refuses f) {e : Effect} (he : e ∈ m.step.2) : e.IsPlain := by
  obtain ⟨-, heq⟩ | ⟨i, r, -, -, heq⟩ := h.step_eq
  · rw [heq] at he
    rw [List.mem_singleton.1 he]
    rfl
  · rw [heq] at he
    rcases List.mem_append.1 he with he | he
    · rw [mem_announced he]
      rfl
    · rw [List.mem_singleton.1 he]
      rfl

/-- **A step asks for no flush and logs no warning.** -/
theorem isPlain_step (m : Machine) : ∀ e ∈ m.step.2, e.IsPlain := by
  intro e he
  by_cases hterm : m.state.IsTerminal
  · rw [step_of_isTerminal hterm] at he
    cases he
  · obtain ⟨i, h⟩ | ⟨f, h⟩ := passes_or_refuses hterm
    · exact h.isPlain he
    · exact h.isPlain he

/-- **Neither does a run.** -/
theorem isPlain_run (m : Machine) (budget : Option Nat) :
    ∀ e ∈ (m.run budget).effects.toList, e.IsPlain := by
  intro e he
  rw [effects_run] at he
  rcases List.mem_cons.1 he with rfl | he
  · rfl
  rcases List.mem_append.1 he with he | he
  · obtain ⟨x, -, he⟩ := List.mem_flatMap.1 he
    exact x.isPlain_step e he
  · rcases hout : (m.run budget).outcome with stop | ⟨n, pc⟩
    · rw [hout] at he
      cases he
    · rw [hout] at he
      rw [List.mem_singleton.1 he]
      rfl

lemma isPlain_place (m : Machine) (h : Header) (body : Array UInt8) :
    ∀ e ∈ (m.place h body).effects, e.IsPlain := by
  intro e he
  simp only [place] at he
  rcases List.mem_append.1 he with he | he
  · split at he
    · rw [List.mem_singleton.1 he]
      rfl
    · cases he
  · rw [List.mem_singleton.1 he]
    rfl

lemma isPlain_next (m : Machine) (c : Call) : ∀ e ∈ (m.next c).2, e.IsPlain := by
  cases c with
  | step => exact m.isPlain_step
  | run budget => exact m.isPlain_run budget
  | _ => exact fun e he => absurd he List.not_mem_nil

end Machine

/-- The operation is a run of the simulator. -/
def Operation.isRun (op : Operation) : Bool := op matches .run

namespace Simulator

lemma isPlain_afterLoad (s : Simulator) (file : Array UInt8) :
    ∀ e ∈ (s.afterLoad (s.load file)).2, e.IsPlain := by
  rw [load]
  rcases hi : s.machine.install file with error | i
  · exact fun e he => absurd he List.not_mem_nil
  · obtain ⟨-, -, rfl⟩ := Machine.install_eq_ok_iff.1 hi
    exact s.machine.isPlain_place (.inFront file) (bodyBytes file)

/-- **A run of a simulator asks for one flush**, at its end, and no other operation asks for any. -/
theorem effects_next (s : Simulator) (op : Operation) :
    ∃ plain, (∀ e ∈ plain, e.IsPlain) ∧
      (s.next op).2 = plain ++ if op.isRun then [.flush] else [] := by
  cases op with
  | load file => exact ⟨_, s.isPlain_afterLoad file, (List.append_nil _).symm⟩
  | loadFile path contents =>
    rcases contents with error | file
    · exact ⟨[], fun e he => absurd he List.not_mem_nil, rfl⟩
    · exact ⟨_, s.isPlain_afterLoad file, (List.append_nil _).symm⟩
  | run => exact ⟨_, s.machine.isPlain_run (s.maxSteps.map UInt64.toNat), Array.toList_push⟩
  | call c => exact ⟨_, s.machine.isPlain_next c, (List.append_nil _).symm⟩

end Simulator

/-! ### What is refused -/

/-- What a sink has been asked for, and what it had against it. -/
inductive Reply where
  | emitted (byte : UInt8) (error : Option String)
  | flushed (error : Option String)

namespace Reply

/-- The warning that there has to be, if there has to be one. -/
def warning? : Reply → Option Event
  | emitted byte error => error.map fun e => .portWriteFailed e byte
  | flushed error => error.map .flushFailed

def isFlush : Reply → Bool
  | emitted .. => false
  | flushed _ => true

end Reply

namespace Sink

variable {σ : Type}

/-- The sink, with a record of what it has answered. -/
def journaling (sink : Sink σ) : Sink (σ × List Reply) where
  emit b s := (((sink.emit b s.1).1, s.2 ++ [.emitted b (sink.emit b s.1).2]), (sink.emit b s.1).2)
  flush s := (((sink.flush s.1).1, s.2 ++ [.flushed (sink.flush s.1).2]), (sink.flush s.1).2)

/-- How things stand with a sink, and how they stand with the sink that keeps a record: the same,
and the warnings in the log are those that the record calls for. -/
structure Journals (u : σ × Array Event) (w : (σ × List Reply) × Array Event) : Prop where
  state : w.1.1 = u.1
  events : w.2 = u.2
  warnings : u.2.toList.filter Event.isWarning = w.1.2.filterMap Reply.warning?

variable {u : σ × Array Event} {w : (σ × List Reply) × Array Event}

lemma Journals.deliver (h : Journals u w) (sink : Sink σ) {e : Effect}
    (he : ∀ event, e = .log event → event.isWarning = false) :
    Journals (sink.deliver u e) (sink.journaling.deliver w e) := by
  obtain ⟨s, events⟩ := u
  obtain ⟨⟨s', replies⟩, events'⟩ := w
  obtain ⟨rfl, rfl, hwarn⟩ := h
  rcases e with b | _ | event
  · rcases hs : sink.emit b s' with ⟨after, _ | error⟩
    · constructor <;> simp [Sink.deliver, journaling, hs, Reply.warning?, hwarn]
    · constructor <;> simp [Sink.deliver, journaling, hs, Reply.warning?, hwarn]
      rfl
  · rcases hs : sink.flush s' with ⟨after, _ | error⟩
    · constructor <;> simp [Sink.deliver, journaling, hs, Reply.warning?, hwarn]
    · constructor <;> simp [Sink.deliver, journaling, hs, Reply.warning?, hwarn]
      rfl
  · constructor <;> simp [Sink.deliver, hwarn, he event rfl]

/-- The record keeps up with the log, as long as the effects bring no warning with them. -/
lemma Journals.foldl (sink : Sink σ) {effects : List Effect}
    (he : ∀ event ∈ logged effects, event.isWarning = false) : ∀ {u w}, Journals u w →
      Journals (effects.foldl sink.deliver u) (effects.foldl sink.journaling.deliver w) := by
  induction effects with
  | nil => exact fun h => h
  | cons e es ih =>
    intro u w h
    have hfirst := h.deliver (e := e) sink fun event heq =>
      he event (mem_logged.2 (heq ▸ List.mem_cons_self))
    refine ih (fun event hmem => he event ?_) hfirst
    exact mem_logged.2 (List.mem_cons_of_mem e (mem_logged.1 hmem))

lemma flushes_deliver (sink : Sink σ) (w : (σ × List Reply) × Array Event) (e : Effect) :
    (sink.journaling.deliver w e).1.2.countP Reply.isFlush =
      w.1.2.countP Reply.isFlush + [e].count .flush := by
  obtain ⟨⟨s, replies⟩, events⟩ := w
  rcases e with b | _ | event
  · rcases hs : sink.emit b s with ⟨after, _ | error⟩ <;>
      simp [Sink.deliver, journaling, hs, Reply.isFlush]
  · rcases hs : sink.flush s with ⟨after, _ | error⟩ <;>
      simp [Sink.deliver, journaling, hs, Reply.isFlush]
  · simp [Sink.deliver]

lemma flushes_foldl (sink : Sink σ) (effects : List Effect) :
    ∀ w : (σ × List Reply) × Array Event,
      (effects.foldl sink.journaling.deliver w).1.2.countP Reply.isFlush =
        w.1.2.countP Reply.isFlush + effects.count .flush := by
  induction effects with
  | nil => exact fun w => rfl
  | cons e es ih =>
    intro w
    rw [List.foldl_cons, ih, flushes_deliver, Nat.add_assoc, ← List.count_append]
    rfl

/-- Lines that are no warnings do not depend on what the sink answers. -/
lemma filter_deliver (sink : Sink σ) {p : Event → Bool}
    (hp : ∀ e, e.isWarning = true → p e = false) (u : σ × Array Event) (e : Effect) :
    (sink.deliver u e).2.toList.filter p = u.2.toList.filter p ++ (logged [e]).filter p := by
  obtain ⟨s, events⟩ := u
  rcases e with b | _ | event
  · rcases hs : sink.emit b s with ⟨after, _ | error⟩ <;>
      simp [Sink.deliver, hs, logged, hp (.portWriteFailed _ _) rfl]
  · rcases hs : sink.flush s with ⟨after, _ | error⟩ <;>
      simp [Sink.deliver, hs, logged, hp (.flushFailed _) rfl]
  · simp [Sink.deliver, logged]

lemma filter_foldl (sink : Sink σ) {p : Event → Bool} (hp : ∀ e, e.isWarning = true → p e = false)
    (effects : List Effect) : ∀ u : σ × Array Event,
      (effects.foldl sink.deliver u).2.toList.filter p =
        u.2.toList.filter p ++ (logged effects).filter p := by
  induction effects with
  | nil => exact fun u => (List.append_nil _).symm
  | cons e es ih =>
    intro u
    rw [List.foldl_cons, ih, filter_deliver sink hp, List.append_assoc, ← List.filter_append,
      ← logged_append, List.singleton_append]

end Sink

open Sink

/-- The calls, each with a sink that keeps a record of its answers. -/
def journaled {σ ι : Type} (calls : List (Sink σ × ι)) : List (Sink (σ × List Reply) × ι) :=
  calls.map fun c => (c.1.journaling, c.2)

namespace Simulator

variable {σ : Type}

lemma not_isWarning_of_next (s : Simulator) (op : Operation) :
    ∀ event ∈ logged (s.next op).2, event.isWarning = false := by
  intro event hmem
  obtain ⟨plain, hplain, heff⟩ := s.effects_next op
  rw [heff] at hmem
  rcases List.mem_append.1 (mem_logged.1 hmem) with hmem | hmem
  · exact hplain _ hmem
  · split at hmem <;> simp at hmem

lemma flushes_next (s : Simulator) (op : Operation) :
    (s.next op).2.count .flush = [op].countP Operation.isRun := by
  obtain ⟨plain, hplain, heff⟩ := s.effects_next op
  have hnone : plain.count .flush = 0 := List.count_eq_zero.2 fun hmem => hplain _ hmem
  rw [heff, List.count_append, hnone, List.countP_singleton]
  split <;> simp

/-- **Operations with sinks that keep a record** go as they go without, and the record keeps up
with the log and has one flush for each run. -/
theorem journals_inTurn (calls : List (Sink σ × Operation)) : ∀ (s : Simulator) {u w},
    Journals u w →
      Journals (inTurn performTo s calls u).2 (inTurn performTo s (journaled calls) w).2 ∧
        (inTurn performTo s (journaled calls) w).2.1.2.countP Reply.isFlush =
          w.1.2.countP Reply.isFlush + (calls.map Prod.snd).countP Operation.isRun := by
  induction calls with
  | nil => exact fun s u w h => ⟨h, rfl⟩
  | cons c rest ih =>
    obtain ⟨sink, op⟩ := c
    intro s u w h
    have hfirst : s.performTo sink op u = ((s.next op).1, (s.next op).2.foldl sink.deliver u) :=
      congrFun (performTo_eq sink s op) u
    have hfirst' : s.performTo sink.journaling op w =
        ((s.next op).1, (s.next op).2.foldl sink.journaling.deliver w) :=
      congrFun (performTo_eq sink.journaling s op) w
    have hcalls : journaled ((sink, op) :: rest) = (sink.journaling, op) :: journaled rest := rfl
    obtain ⟨hjournals, hflushes⟩ :=
      ih (s.next op).1.1 (h.foldl sink (s.not_isWarning_of_next op))
    rw [hcalls, inTurn_cons, inTurn_cons, hfirst, hfirst']
    refine ⟨hjournals, hflushes.trans ?_⟩
    rw [flushes_foldl, flushes_next, Nat.add_assoc, ← List.countP_append]
    rfl

end Simulator

/-! ### Skipped effects -/

namespace Machine

/-- A run logs what its steps log, apart from the lines that it begins and ends with. -/
lemma filter_run {p : Event → Bool} (hstart : ∀ pc budget, p (.runStarted pc budget) = false)
    (hend : ∀ pc steps, p (.budgetExhausted pc steps) = false) (m : Machine)
    (budget : Option Nat) : (logged (m.run budget).effects.toList).filter p =
      (logged ((m.trail budget).flatMap fun x => x.step.2)).filter p := by
  have hfirst : (logged [.log (.runStarted m.pc budget)]).filter p = [] :=
    List.filter_cons_of_neg (by simp [hstart])
  have hclosing : (logged (m.run budget).outcome.closing).filter p = [] := by
    rcases (m.run budget).outcome with stop | ⟨n, pc⟩
    · rfl
    · exact List.filter_cons_of_neg (by simp [hend])
  rw [effects_run, ← List.singleton_append, logged_append, logged_append, List.filter_append,
    List.filter_append, hfirst, hclosing, List.nil_append, List.append_nil]

lemma countP_announced (m : Machine) (i : Instruction) :
    (logged (m.announced i)).countP Event.isSkip = 0 := by
  refine List.countP_eq_zero.2 fun e he => ?_
  cases mem_announced (mem_logged.1 he)
  exact nofun

lemma countP_perform (m : Machine) (a : Address) (i : Instruction) :
    (logged (m.perform a i).2).countP Event.isSkip = 0 := by
  refine List.countP_eq_zero.2 fun e he => ?_
  obtain ⟨steps, rfl⟩ | ⟨b, size, rfl⟩ := mem_logged_perform he
  · exact nofun
  · exact nofun

/-- **A step counts the effect that it skips and tells of it.** -/
theorem skippedEffects_step (m : Machine) : m.step.1.counters.skippedEffects =
    m.counters.skippedEffects + (logged m.step.2).countP Event.isSkip := by
  by_cases hterm : m.state.IsTerminal
  · rw [step_of_isTerminal hterm]
    rfl
  obtain ⟨i, h⟩ | ⟨f, h⟩ := passes_or_refuses hterm
  · obtain ⟨hr, hexecute⟩ | ⟨r, hr, hexecute⟩ := h.execute_cases
    · rw [h.skippedEffects hr, h.step_eq, hexecute, logged_append, List.countP_append,
        countP_announced, countP_perform, Nat.add_zero]
    · rw [Skips.skippedEffects ⟨h, hr⟩, h.step_eq, hexecute, logged_append, List.countP_append,
        countP_announced, Nat.zero_add]
      rfl
  · rw [h.skippedEffects]
    obtain ⟨-, heq⟩ | ⟨i, r, -, -, heq⟩ := h.step_eq
    · rw [heq]
      rfl
    · rw [heq, logged_append, List.countP_append, countP_announced]
      rfl

lemma skippedEffects_trail (m : Machine) (budget : Option Nat) :
    (m.run budget).machine.counters.skippedEffects = m.counters.skippedEffects +
      (logged ((m.trail budget).flatMap fun x => x.step.2)).countP Event.isSkip := by
  fun_induction m.trail budget with
  | case1 m =>
    rw [m.run_zero.1]
    rfl
  | case2 m budget hb stop hs =>
    rw [(run_stopped hb hs).1, List.flatMap_singleton, skippedEffects_step]
  | case3 m budget hb hs ih =>
    rw [(run_running hb hs).1, ih, skippedEffects_step, List.flatMap_cons, logged_append,
      List.countP_append, Nat.add_assoc]

/-- **So does a run.** -/
theorem skippedEffects_run (m : Machine) (budget : Option Nat) :
    (m.run budget).machine.counters.skippedEffects = m.counters.skippedEffects +
      (logged (m.run budget).effects.toList).countP Event.isSkip := by
  rw [List.countP_eq_length_filter, filter_run (fun _ _ => rfl) (fun _ _ => rfl),
    ← List.countP_eq_length_filter]
  exact m.skippedEffects_trail budget

end Machine

lemma Sink.countP_foldl {σ : Type} (sink : Sink σ) (effects : List Effect) (x : σ) :
    (effects.foldl sink.deliver (x, #[])).2.toList.countP Event.isSkip =
      (logged effects).countP Event.isSkip := by
  have hp (e : Event) (h : e.isWarning = true) : e.isSkip = false := by
    cases e with
    | effectSkipped => cases h
    | _ => rfl
  rw [List.countP_eq_length_filter, filter_foldl sink hp, List.countP_eq_length_filter]
  rfl

/-- **Warnings tell of refusals, and of nothing else.** Let a simulator go through any operations,
with any sink for each, and with the same sinks keeping a record of their answers, which makes no
difference. The warnings in the log are those that the answers call for, in the order of the
answers: one with the byte for every byte refused, and one for every flush refused. Each run of the
simulator has had one flush, and nothing else has had any. Of the lines for debugging, as many tell
of a skipped effect in a run as the run has counted. -/
theorem warnings_are_refusals {σ : Type} (s : Simulator) (x : σ) :
    (∀ calls : List (Sink σ × Operation),
      let plain := (inTurn Simulator.performTo s calls (x, #[])).2
      let kept := (inTurn Simulator.performTo s (journaled calls) ((x, []), #[])).2
      kept.1.1 = plain.1 ∧ kept.2 = plain.2 ∧
        plain.2.toList.filter Event.isWarning = kept.1.2.filterMap Reply.warning? ∧
        kept.1.2.countP Reply.isFlush = (calls.map Prod.snd).countP Operation.isRun) ∧
    ∀ sink : Sink σ,
      (∀ (m : Machine) (budget : Option Nat),
        let r := m.runTo sink budget (x, #[])
        r.1.1.counters.skippedEffects =
          m.counters.skippedEffects + r.2.2.toList.countP Event.isSkip) ∧
      let r := s.performTo sink .run (x, #[])
      r.1.1.machine.counters.skippedEffects =
        s.machine.counters.skippedEffects + r.2.2.toList.countP Event.isSkip := by
  refine ⟨fun calls => ?_, fun sink => ⟨fun m budget => ?_, ?_⟩⟩
  · have hstart : Journals (x, #[]) ((x, ([] : List Reply)), #[]) := ⟨rfl, rfl, rfl⟩
    obtain ⟨⟨hstate, hevents, hwarnings⟩, hflushes⟩ := Simulator.journals_inTurn calls s hstart
    refine ⟨hstate, hevents, hwarnings, hflushes.trans ?_⟩
    rw [List.countP_nil, Nat.zero_add]
  · intro r
    have hr : r = (((m.run budget).machine, (m.run budget).outcome),
        (m.run budget).effects.toList.foldl sink.deliver (x, #[])) :=
      congrFun (m.runTo_eq sink budget) _
    rw [hr, Sink.countP_foldl]
    exact m.skippedEffects_run budget
  · intro r
    have hr : r = ((s.run.1, .ended s.run.2.1), s.run.2.2.toList.foldl sink.deliver (x, #[])) :=
      congrFun (Simulator.performTo_eq sink s .run) _
    rw [hr, Sink.countP_foldl, Simulator.run, Array.toList_push, logged_append, List.countP_append]
    exact s.machine.skippedEffects_run (s.maxSteps.map UInt64.toNat)

/-- A byte and a flush, both refused. The byte is stored beyond memory as well. -/
example :
    let refusing : Sink Unit := ⟨fun _ s => (s, some "full"), fun s => (s, some "gone")⟩
    let file := (Image.ofProgram 0 [.load 0 7, .store 0 99, .halt]).encode.toArray
    let s : Simulator := .ofConfig { memory := { size := 16, outputPort := 99 } }
    let calls := [(refusing, .load file), (refusing, .run)]
    (inTurn Simulator.performTo s calls ((), #[])).2.2.toList.filter Event.isWarning =
      [.portWriteFailed "full" 7, .flushFailed "gone"] := by
  decide +kernel

end ByteMachine

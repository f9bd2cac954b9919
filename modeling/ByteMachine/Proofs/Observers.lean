import ByteMachine.Proofs.Attached
import ByteMachine.Proofs.Strictness

/-!
Sinks and the trace look on. What a sink answers, and whether instructions are traced, changes
neither what a machine does nor the bytes that it sends: two machines or simulators that differ in
nothing else go through any calls side by side.
-/

namespace ByteMachine

namespace Machine

variable {m : Machine} {on : Bool}

/-- The machine, with tracing on or off. -/
def traced (m : Machine) (on : Bool) : Machine := { m with trace := on }

lemma under_strict {m m' : Machine} (h : m'.strict = m.strict) :
    m'.under m.strict on = m'.traced on := by
  rw [← h]
  rfl

lemma Passes.traced {i : Instruction} (h : m.Passes i) (on : Bool) : (m.traced on).Passes i :=
  ⟨h.live, h.decoded, h.allowed⟩

lemma Refuses.traced {f : Fault} (h : m.Refuses f) (on : Bool) : (m.traced on).Refuses f :=
  ⟨h.live, h.cause⟩

/-- **A step is the same with and without a trace.** -/
theorem step_traced (m : Machine) (on : Bool) :
    (m.traced on).step.1 = m.step.1.traced on ∧
      Effect.emitted (m.traced on).step.2 = Effect.emitted m.step.2 := by
  by_cases hterm : m.state.IsTerminal
  · have hterm' : (m.traced on).state.IsTerminal := hterm
    rw [step_of_isTerminal hterm, step_of_isTerminal hterm']
    exact ⟨rfl, rfl⟩
  · rw [← under_strict (strict_step m)]
    obtain ⟨i, h⟩ | ⟨f, h⟩ := passes_or_refuses hterm
    · exact h.step_under (h.traced on)
    · exact h.step_under (h.traced on)

lemma strict_run (m : Machine) (budget : Option Nat) :
    (m.run budget).machine.strict = m.strict :=
  congrArg (fun s => s.2.1) (settings_run m budget)

lemma runsUnder_traced (on : Bool) (m : Machine) (budget : Option Nat) :
    RunsUnder m.strict on ((m.traced on).run budget) (m.run budget) := by
  fun_induction m.trail budget with
  | case1 m => exact m.runsUnder_zero
  | case2 m budget hb stop hs =>
    obtain ⟨hstep, heff⟩ := m.step_traced on
    rw [← under_strict (strict_step m)] at hstep
    refine runsUnder_of_step hb hstep heff fun hnone => ?_
    rw [hs] at hnone
    cases hnone
  | case3 m budget hb hs ih =>
    obtain ⟨hstep, heff⟩ := m.step_traced on
    rw [← under_strict (strict_step m)] at hstep
    rw [← under_strict (strict_step m), strict_step] at ih
    exact runsUnder_of_step hb hstep heff fun _ => ih

/-- **A run is the same with and without a trace.** -/
theorem run_traced (m : Machine) (on : Bool) (budget : Option Nat) :
    ((m.traced on).run budget).machine = (m.run budget).machine.traced on ∧
      ((m.traced on).run budget).outcome = (m.run budget).outcome ∧
      Effect.emitted ((m.traced on).run budget).effects.toList =
        Effect.emitted (m.run budget).effects.toList := by
  obtain ⟨hmachine, hout, heff⟩ := runsUnder_traced on m budget
  rw [under_strict (strict_run m budget)] at hmachine
  exact ⟨hmachine, hout, heff⟩

lemma install_traced (m : Machine) (on : Bool) (file : Array UInt8) :
    (m.traced on).install file =
      (m.install file).map fun i => { i with machine := i.machine.traced on } := by
  unfold install
  rcases Header.ofFile file with e | h
  · rfl
  · dsimp only
    split <;> rfl

/-- A call leaves machines that differ in tracing at most. -/
lemma next_traced (m : Machine) (on : Bool) (c : Call) :
    (∃ on', ((m.traced on).next c).1.1 = (m.next c).1.1.traced on') ∧
      ((m.traced on).next c).1.2 = (m.next c).1.2 ∧
      Effect.emitted ((m.traced on).next c).2 = Effect.emitted (m.next c).2 := by
  cases c with
  | step =>
    obtain ⟨hmachine, heff⟩ := m.step_traced on
    refine ⟨⟨on, hmachine⟩, ?_, heff⟩
    simp only [next, hmachine]
    rfl
  | run budget =>
    obtain ⟨hmachine, hout, heff⟩ := m.run_traced on budget
    refine ⟨⟨on, hmachine⟩, ?_, heff⟩
    simp only [next, hout]
  | setTrace on' => exact ⟨⟨on', rfl⟩, rfl, rfl⟩
  | setRegister | write | copy | setPc | reset => exact ⟨⟨on, rfl⟩, rfl, rfl⟩

end Machine

namespace Simulator

/-- The simulator, with tracing on or off. -/
def traced (s : Simulator) (on : Bool) : Simulator := { s with machine := s.machine.traced on }

/-- What two simulators come to, if they differ in tracing and in their logs at most. -/
structure Alike {α : Type} (x y : (Simulator × α) × List Effect) : Prop where
  after : ∃ on, x.1.1 = y.1.1.traced on
  answer : x.1.2 = y.1.2
  emitted : Effect.emitted x.2 = Effect.emitted y.2

/-- A load is the same with and without a trace. -/
lemma next_load_traced (s : Simulator) (on : Bool) (file : Array UInt8) :
    (s.traced on).next (.load file) =
      (((s.next (.load file)).1.1.traced on, (s.next (.load file)).1.2),
        (s.next (.load file)).2) := by
  have h := s.machine.install_traced on file
  simp only [next, load, traced, h]
  rcases s.machine.install file with e | i <;> rfl

lemma next_traced (s : Simulator) (on : Bool) (op : Operation) :
    Alike ((s.traced on).next op) (s.next op) := by
  have hload (file : Array UInt8) :
      Alike ((s.traced on).next (.load file)) (s.next (.load file)) := by
    rw [next_load_traced]
    exact ⟨⟨on, rfl⟩, rfl, rfl⟩
  cases op with
  | load file => exact hload file
  | loadFile path contents =>
    rcases contents with e | file
    · exact ⟨⟨on, rfl⟩, rfl, rfl⟩
    · exact hload file
  | run =>
    obtain ⟨hmachine, hout, heff⟩ := s.machine.run_traced on (s.maxSteps.map UInt64.toNat)
    refine ⟨⟨on, ?_⟩, congrArg Answer.ended hout, ?_⟩
    · exact congrArg (fun m => Simulator.mk m s.maxSteps s.loaded) hmachine
    · simp only [next, run, Array.toList_push, Effect.emitted_append]
      exact congrArg (· ++ Effect.emitted [.flush]) heff
  | call c =>
    obtain ⟨⟨on', hmachine⟩, hanswer, heff⟩ := s.machine.next_traced on c
    refine ⟨⟨on', ?_⟩, hanswer, heff⟩
    simp only [next, traced, hmachine]

/-- **Operations are the same with and without a trace.** -/
theorem course_traced (ops : List Operation) : ∀ (s : Simulator) (on : Bool),
    Alike (course next (s.traced on) ops) (course next s ops) := by
  induction ops with
  | nil => exact fun s on => ⟨⟨on, rfl⟩, rfl, rfl⟩
  | cons op ops ih =>
    intro s on
    obtain ⟨⟨on', hs⟩, hanswer, heff⟩ := s.next_traced on op
    obtain ⟨hlater, hanswers, heffs⟩ := ih (s.next op).1.1 on'
    simp only [course, hs]
    refine ⟨hlater, ?_, ?_⟩
    · rw [hanswer, hanswers]
    · rw [Effect.emitted_append, Effect.emitted_append, heff, heffs]

end Simulator

/-! ### With sinks attached -/

section Sinks

variable {σ τ : Type}

/-- What a run comes to with a sink that keeps a record. -/
lemma Machine.runTo_recording (sink : Sink σ) (m : Machine) (budget : Option Nat) (a : σ)
    (events : Array Event) :
    (m.runTo sink.recording budget ((a, []), events)).1 =
        ((m.run budget).machine, (m.run budget).outcome) ∧
      (m.runTo sink.recording budget ((a, []), events)).2.1.2 =
        Effect.emitted (m.run budget).effects.toList := by
  have hrun : m.runTo sink.recording budget ((a, []), events) =
      sink.recording.relay (m.run budget).result ((a, []), events) :=
    congrFun (m.runTo_eq sink.recording budget) _
  refine ⟨by rw [hrun]; rfl, ?_⟩
  rw [hrun, Sink.relay, Sink.recording_foldl, List.nil_append]
  rfl

/-- Calls that come to the same without sinks come to the same with them. -/
lemma Simulator.inTurn_alike {s s' : Simulator} (calls : List (Sink σ × Operation))
    (calls' : List (Sink τ × Operation))
    (h : Alike (course next s (calls.map Prod.snd)) (course next s' (calls'.map Prod.snd)))
    (a : σ) (a' : τ) (events events' : Array Event) :
    let r := inTurn performTo s (recorded calls) ((a, []), events)
    let r' := inTurn performTo s' (recorded calls') ((a', []), events')
    (∃ on, r.1.1 = r'.1.1.traced on) ∧ r.1.2 = r'.1.2 ∧ r.2.1.2 = r'.2.1.2 := by
  obtain ⟨hresult, hrecord⟩ := inTurn_recorded performTo_eq calls s ((a, []), events)
  obtain ⟨hresult', hrecord'⟩ := inTurn_recorded performTo_eq calls' s' ((a', []), events')
  intro r r'
  refine ⟨?_, ?_, ?_⟩
  · rw [hresult, hresult']
    exact h.after
  · rw [hresult, hresult']
    exact h.answer
  · rw [hrecord, hrecord', h.emitted]

/-- **Sinks and tracing change nothing.** Let a machine run with any sink, whatever of it fails, and
let the same machine run with any other sink, the one traced and the other not or as may be. The
runs end alike and leave machines that differ in tracing at most, and both sinks are offered the
same bytes. The same holds of any operations on two simulators, with any sinks for each call. -/
theorem observers_change_nothing (on on' : Bool) (a : σ) (a' : τ) (events events' : Array Event) :
    (∀ (m : Machine) (budget : Option Nat) (sink : Sink σ) (sink' : Sink τ),
      let r := (m.traced on).runTo sink.recording budget ((a, []), events)
      let r' := (m.traced on').runTo sink'.recording budget ((a', []), events')
      r'.1.2 = r.1.2 ∧ r'.1.1 = r.1.1.traced on' ∧ r'.2.1.2 = r.2.1.2) ∧
    ∀ (s : Simulator) (calls : List (Operation × Sink σ × Sink τ)),
      let r := inTurn Simulator.performTo (s.traced on)
        (recorded (calls.map fun c => (c.2.1, c.1))) ((a, []), events)
      let r' := inTurn Simulator.performTo (s.traced on')
        (recorded (calls.map fun c => (c.2.2, c.1))) ((a', []), events')
      r'.1.2 = r.1.2 ∧ (∃ on'', r'.1.1 = r.1.1.traced on'') ∧ r'.2.1.2 = r.2.1.2 := by
  refine ⟨?_, ?_⟩
  · intro m budget sink sink' r r'
    obtain ⟨hrun, hrecord⟩ := (m.traced on).runTo_recording sink budget a events
    obtain ⟨hrun', hrecord'⟩ := (m.traced on').runTo_recording sink' budget a' events'
    obtain ⟨hmachine, hout, hemitted⟩ := (m.traced on).run_traced on' budget
    refine ⟨?_, ?_, ?_⟩
    · rw [hrun, hrun']
      exact hout
    · rw [hrun, hrun']
      exact hmachine
    · rw [hrecord, hrecord']
      exact hemitted
  · intro s calls r r'
    have halike : Simulator.Alike
        (course Simulator.next (s.traced on') ((calls.map fun c => (c.2.2, c.1)).map Prod.snd))
        (course Simulator.next (s.traced on) ((calls.map fun c => (c.2.1, c.1)).map Prod.snd)) := by
      rw [List.map_map, List.map_map]
      exact Simulator.course_traced _ (s.traced on) on'
    obtain ⟨hafter, hanswers, hrecord⟩ :=
      Simulator.inTurn_alike _ _ halike a' a events' events
    exact ⟨hanswers, hafter, hrecord⟩

end Sinks

end ByteMachine

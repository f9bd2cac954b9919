import Mathlib.Tactic.Common
import ByteMachine.Proofs.History
import ByteMachine.Proofs.Offered
import ByteMachine.Proofs.Trail

/-!
Machines with a sink attached. Here a byte for the port is handed over while its store is carried
out, and what the sink answers is there for everything that comes after. It is shown that a machine
does what it does alone, and that the sink gets what the effects ask for, no matter what it answers.
-/

namespace ByteMachine

/-- Goes on with a sink at hand, in some state, and with what has been logged. -/
abbrev Attached (σ α : Type) : Type := StateM (σ × Array Event) α

/-- What a call comes back with. -/
inductive Answer where
  | done
  /-- A machine that goes on has no stop. -/
  | stepped (stop : Option Stop)
  | ended (outcome : Outcome)
  | loaded (image : Option Loaded)
  | refused (error : LoadError)

namespace Sink

variable {σ α β : Type}

def note (e : Event) : Attached σ Unit := fun w => ((), (w.1, w.2.push e))

/-- Hands a byte over. What the sink has against it comes back. -/
def offer (sink : Sink σ) (b : UInt8) : Attached σ (Option String) := fun w =>
  ((sink.emit b w.1).2, ((sink.emit b w.1).1, w.2))

/-- Has the sink flush. What it has against that comes back. -/
def settle (sink : Sink σ) : Attached σ (Option String) := fun w =>
  ((sink.flush w.1).2, ((sink.flush w.1).1, w.2))

/-- Gives a result and carries out its effects. -/
def relay (sink : Sink σ) (x : α × List Effect) : Attached σ α := fun w =>
  (x.1, x.2.foldl sink.deliver w)

lemma relay_bind (sink : Sink σ) (x : α × List Effect) (f : α → β × List Effect) :
    (sink.relay x >>= fun a => sink.relay (f a)) = sink.relay ((f x.1).1, x.2 ++ (f x.1).2) := by
  funext w
  simp only [relay, List.foldl_append]
  rfl

lemma note_eq (sink : Sink σ) (e : Event) : note e = sink.relay ((), [.log e]) := rfl

lemma pure_eq (sink : Sink σ) (a : α) : (pure a : Attached σ α) = sink.relay (a, []) := rfl

/-- Handing a byte over carries out an effect. -/
lemma offer_bind (sink : Sink σ) (b : UInt8) (a : α) :
    (sink.offer b >>= fun
      | none => pure a
      | some error => do
        note (.portWriteFailed error b)
        return a) = sink.relay (a, [.emit b]) := by
  funext w
  rcases h : sink.emit b w.1 with ⟨s, _ | error⟩
  · simp only [relay, List.foldl_cons, List.foldl_nil, deliver, h, bind, StateT.bind, offer]
    rfl
  · simp only [relay, List.foldl_cons, List.foldl_nil, deliver, h, bind, StateT.bind, offer]
    rfl

lemma settle_bind (sink : Sink σ) (a : α) :
    (sink.settle >>= fun
      | none => pure a
      | some error => do
        note (.flushFailed error)
        return a) = sink.relay (a, [.flush]) := by
  funext w
  rcases h : sink.flush w.1 with ⟨s, _ | error⟩
  · simp only [relay, List.foldl_cons, List.foldl_nil, deliver, h, bind, StateT.bind, settle]
    rfl
  · simp only [relay, List.foldl_cons, List.foldl_nil, deliver, h, bind, StateT.bind, settle]
    rfl

end Sink

open Sink

/-- What a run comes to, and what it asks for on the way. -/
def Run.result (r : Run) : (Machine × Outcome) × List Effect :=
  ((r.machine, r.outcome), r.effects.toList)

/-! ### Steps -/

namespace Machine

variable {σ : Type}

def storeTo (sink : Sink σ) (m : Machine) (a : Address) (value : UInt8) : Attached σ Machine := do
  unless m.memory.Contains a do
    note (.storeOutside a m.memory.size)
  let m := { m with memory := m.memory.write a value }
  if a = m.outputPort then
    let m := { m with counters := m.counters.writePort }
    match ← sink.offer value with
    | none => return m
    | some error =>
      note (.portWriteFailed error value)
      return m
  else return m

/-- Only a store has to do with the sink. -/
def performTo (sink : Sink σ) (m : Machine) (a : Address) : Instruction → Attached σ Machine
  | .store source target =>
    match m.registers.read? source with
    | some value => m.storeTo sink target.toUInt32 value
    | none => return m
  | i => sink.relay (m.perform a i)

def executeTo (sink : Sink σ) (m : Machine) (i : Instruction) : Attached σ Machine :=
  match i.invalidRegister? with
  | none => (m.retire i).performTo sink m.pc i
  | some _ => sink.relay (m.execute i)

def cycleTo (sink : Sink σ) (m : Machine) : Attached σ Machine :=
  match decode m.memory.bytes m.pc with
  | .error f => sink.relay (m.fail f)
  | .ok i => do
    if m.trace then
      note (.traced m.pc i)
    m.executeTo sink i

def stepTo (sink : Sink σ) (m : Machine) : Attached σ Machine :=
  match m.state with
  | .ready => m.start.cycleTo sink
  | .running => m.cycleTo sink
  | .stopped _ => return m

lemma storeTo_eq (sink : Sink σ) (m : Machine) (a : Address) (value : UInt8) :
    m.storeTo sink a value = sink.relay (m.store a value) := by
  unfold storeTo store
  dsimp only
  rw [offer_bind, pure_eq sink, note_eq sink]
  by_cases hin : m.memory.Contains a
  · simp only [if_pos hin]
    split <;> rfl
  · simp only [if_neg hin]
    split <;> exact relay_bind ..

lemma performTo_eq (sink : Sink σ) (m : Machine) (a : Address) (i : Instruction) :
    m.performTo sink a i = sink.relay (m.perform a i) := by
  cases i with
  | store source target =>
    rcases hread : m.registers.read? source with _ | value
    · simp only [performTo, perform, hread]
      rfl
    · simp only [performTo, perform, hread]
      exact storeTo_eq ..
  | _ => rfl

lemma executeTo_eq (sink : Sink σ) (m : Machine) (i : Instruction) :
    m.executeTo sink i = sink.relay (m.execute i) := by
  rcases hr : i.invalidRegister? with _ | r
  · simp only [executeTo, execute, hr]
    exact performTo_eq ..
  · simp only [executeTo, hr]

lemma cycleTo_eq (sink : Sink σ) (m : Machine) : m.cycleTo sink = sink.relay m.cycle := by
  rcases hd : decode m.memory.bytes m.pc with f | i
  · simp only [cycleTo, cycle, hd]
  · simp only [cycleTo, cycle, hd, executeTo_eq, note_eq sink]
    split
    · exact relay_bind ..
    · rfl

/-- **A step with a sink attached is the step of the machine alone.** -/
theorem stepTo_eq (sink : Sink σ) (m : Machine) : m.stepTo sink = sink.relay m.step := by
  rcases hs : m.state with _ | _ | stop
  · simp only [stepTo, step, hs, cycleTo_eq]
  · simp only [stepTo, step, hs, cycleTo_eq]
  · simp only [stepTo, step, hs]
    rfl

/-! ### Runs -/

/-- Goes on with a run that has made `steps` steps. -/
def runOnTo (sink : Sink σ) (m : Machine) (budget : Option Nat) (steps : Nat)
    (w : σ × Array Event) : (Machine × Outcome) × (σ × Array Event) :=
  if budget = some steps then
    ((m, .exhausted steps m.pc), (note (.budgetExhausted m.pc steps) w).2)
  else
    let next := m.stepTo sink w
    match _ : next.1.state.stop? with
    | some stop => ((next.1, .stopped stop), next.2)
    | none => next.1.runOnTo sink budget (steps + 1) next.2
termination_by m.memory.size - m.pc.toNat
decreasing_by
  have hnext : next.1 = m.step.1 := congrArg Prod.fst (congrFun (stepTo_eq sink m) w)
  have hrunning : m.step.1.state.stop? = none := by rw [← hnext]; assumption
  have := pc_step (State.not_isTerminal_of_stop? hrunning)
  dsimp only [next] at hnext
  rw [hnext, size_step]
  omega

def runTo (sink : Sink σ) (m : Machine) (budget : Option Nat) : Attached σ (Machine × Outcome) := do
  note (.runStarted m.pc budget)
  m.runOnTo sink budget 0

lemma runOnTo_stopped {sink : Sink σ} {m : Machine} {budget : Option Nat} {steps : Nat}
    {stop : Stop} (hb : budget ≠ some steps) (hs : m.step.1.state.stop? = some stop)
    (w : σ × Array Event) :
    m.runOnTo sink budget steps w = ((m.step.1, .stopped stop), m.step.2.foldl sink.deliver w) := by
  have hstep : m.stepTo sink w = (m.step.1, m.step.2.foldl sink.deliver w) :=
    congrFun (stepTo_eq sink m) w
  rw [runOnTo, if_neg hb, hstep]
  dsimp only
  split <;> simp_all

lemma runOnTo_running {sink : Sink σ} {m : Machine} {budget : Option Nat} {steps : Nat}
    (hb : budget ≠ some steps) (hs : m.step.1.state.stop? = none) (w : σ × Array Event) :
    m.runOnTo sink budget steps w =
      m.step.1.runOnTo sink budget (steps + 1) (m.step.2.foldl sink.deliver w) := by
  have hstep : m.stepTo sink w = (m.step.1, m.step.2.foldl sink.deliver w) :=
    congrFun (stepTo_eq sink m) w
  rw [runOnTo, if_neg hb, hstep]
  dsimp only
  split <;> simp_all

lemma runOnTo_eq (sink : Sink σ) (m : Machine) (budget : Option Nat) (steps : Nat)
    (effects : Array Effect) (w : σ × Array Event) :
    m.runOnTo sink budget steps (effects.toList.foldl sink.deliver w) =
      sink.relay (m.runOn budget steps effects).result w := by
  fun_induction m.runOn budget steps effects with
  | case1 m steps effects hb =>
    rw [runOnTo, if_pos hb]
    simp only [relay, Run.result, Array.toList_push, List.foldl_append]
    rfl
  | case2 m steps effects hb next stop hs =>
    rw [runOnTo_stopped hb hs, ← List.foldl_append]
    simp only [relay, Run.result, Array.toList_appendList, next]
  | case3 m steps effects hb next hs ih =>
    rw [runOnTo_running hb hs, ← List.foldl_append, ← ih, Array.toList_appendList]

/-- **A run with a sink attached is the run of the machine alone.** -/
theorem runTo_eq (sink : Sink σ) (m : Machine) (budget : Option Nat) :
    m.runTo sink budget = sink.relay (m.run budget).result := by
  funext w
  exact runOnTo_eq sink m budget 0 #[.log (.runStarted m.pc budget)] w

/-! ### Calls -/

def callTo (sink : Sink σ) (m : Machine) : Call → Attached σ (Machine × Answer)
  | .step => do
    let m ← m.stepTo sink
    return (m, .stepped m.state.stop?)
  | .run budget => do
    let r ← m.runTo sink budget
    return (r.1, .ended r.2)
  | c => sink.relay (((m.call c).1, .done), (m.call c).2)

/-- What a call comes to with the machine alone. -/
def next (m : Machine) : Call → (Machine × Answer) × List Effect
  | .step => ((m.step.1, .stepped m.step.1.state.stop?), m.step.2)
  | .run budget =>
    (((m.run budget).machine, .ended (m.run budget).outcome), (m.run budget).effects.toList)
  | c => (((m.call c).1, .done), (m.call c).2)

/-- **A call with a sink attached is that of the machine alone.** -/
theorem callTo_eq (sink : Sink σ) (m : Machine) (c : Call) :
    m.callTo sink c = sink.relay (m.next c) := by
  cases c with
  | step => simp only [callTo, stepTo_eq]; rfl
  | run budget => simp only [callTo, runTo_eq]; rfl
  | _ => rfl

end Machine

/-! ### Simulators -/

namespace Simulator

variable {σ : Type}

/-- What a load comes to. One that fails leaves the simulator as it is. -/
def afterLoad (s : Simulator) :
    Except LoadError (Simulator × List Effect) → (Simulator × Answer) × List Effect
  | .ok (after, effects) => ((after, .loaded after.loaded), effects)
  | .error e => ((s, .refused e), [])

def performTo (sink : Sink σ) (s : Simulator) : Operation → Attached σ (Simulator × Answer)
  | .load file => sink.relay (s.afterLoad (s.load file))
  | .loadFile path contents => sink.relay (s.afterLoad (s.loadFile path contents))
  | .run => do
    let r ← s.machine.runTo sink (s.maxSteps.map UInt64.toNat)
    match ← sink.settle with
    | none => return ({ s with machine := r.1 }, .ended r.2)
    | some error =>
      note (.flushFailed error)
      return ({ s with machine := r.1 }, .ended r.2)
  | .call c => do
    let r ← s.machine.callTo sink c
    return ({ s with machine := r.1 }, r.2)

/-- What an operation comes to with the simulator alone. -/
def next (s : Simulator) : Operation → (Simulator × Answer) × List Effect
  | .load file => s.afterLoad (s.load file)
  | .loadFile path contents => s.afterLoad (s.loadFile path contents)
  | .run => ((s.run.1, .ended s.run.2.1), s.run.2.2.toList)
  | .call c =>
    let r := s.machine.next c
    (({ s with machine := r.1.1 }, r.1.2), r.2)

/-- **An operation with a sink attached is that of the simulator alone.** -/
theorem performTo_eq (sink : Sink σ) (s : Simulator) (op : Operation) :
    s.performTo sink op = sink.relay (s.next op) := by
  cases op with
  | load file => rfl
  | loadFile path contents => rfl
  | run =>
    simp only [performTo, Machine.runTo_eq, settle_bind, relay_bind]
    rw [next, Simulator.run]
    simp only [Run.result, Array.toList_push]
  | call c => simp only [performTo, Machine.callTo_eq]; rfl

end Simulator

/-! ### One call after the other -/

section Turns

variable {σ α ι : Type}

/-- Makes calls one after the other, each with the sink that is lent for it, and collects what
they come back with. -/
def inTurn (act : Sink σ → α → ι → Attached σ (α × Answer)) (x : α) :
    List (Sink σ × ι) → Attached σ (α × List Answer)
  | [] => return (x, [])
  | (sink, call) :: rest => do
    let first ← act sink x call
    let later ← inTurn act first.1 rest
    return (later.1, first.2 :: later.2)

/-- What calls come to without a sink. -/
def course (next : α → ι → (α × Answer) × List Effect) (x : α) :
    List ι → (α × List Answer) × List Effect
  | [] => ((x, []), [])
  | call :: rest =>
    let first := next x call
    let later := course next first.1.1 rest
    ((later.1.1, first.1.2 :: later.1.2), first.2 ++ later.2)

/-- The calls, each with a sink that keeps a record. -/
def recorded (calls : List (Sink σ × ι)) : List (Sink (σ × List UInt8) × ι) :=
  calls.map fun c => (c.1.recording, c.2)

lemma inTurn_cons (act : Sink σ → α → ι → Attached σ (α × Answer)) (x : α) (sink : Sink σ)
    (call : ι) (rest : List (Sink σ × ι)) (w : σ × Array Event) :
    inTurn act x ((sink, call) :: rest) w =
      let first := act sink x call w
      let later := inTurn act first.1.1 rest first.2
      ((later.1.1, first.1.2 :: later.1.2), later.2) := rfl

/-- **No sink makes a difference to calls.** They come to what they come to without one. -/
theorem inTurn_result {act : Sink σ → α → ι → Attached σ (α × Answer)}
    {next : α → ι → (α × Answer) × List Effect}
    (hact : ∀ sink x call, act sink x call = sink.relay (next x call)) (calls : List (Sink σ × ι)) :
    ∀ (x : α) (w : σ × Array Event),
      (inTurn act x calls w).1 = (course next x (calls.map Prod.snd)).1 := by
  induction calls with
  | nil => exact fun x w => rfl
  | cons c rest ih =>
    obtain ⟨sink, call⟩ := c
    intro x w
    have hfirst : act sink x call w = ((next x call).1, (next x call).2.foldl sink.deliver w) :=
      congrFun (hact sink x call) w
    rw [inTurn_cons, hfirst, List.map_cons, course]
    dsimp only
    rw [ih]

/-- Together the sinks are offered what the effects ask for. -/
lemma inTurn_record
    {act : Sink (σ × List UInt8) → α → ι → Attached (σ × List UInt8) (α × Answer)}
    {next : α → ι → (α × Answer) × List Effect}
    (hact : ∀ sink x call, act sink x call = sink.relay (next x call)) (calls : List (Sink σ × ι)) :
    ∀ (x : α) (w : (σ × List UInt8) × Array Event),
      (inTurn act x (recorded calls) w).2.1.2 =
        w.1.2 ++ Effect.emitted (course next x (calls.map Prod.snd)).2 := by
  induction calls with
  | nil => exact fun x w => (List.append_nil _).symm
  | cons c rest ih =>
    obtain ⟨sink, call⟩ := c
    intro x w
    have hfirst : act sink.recording x call w =
        ((next x call).1, (next x call).2.foldl sink.recording.deliver w) :=
      congrFun (hact sink.recording x call) w
    have hrec : recorded ((sink, call) :: rest) = (sink.recording, call) :: recorded rest := rfl
    rw [hrec, inTurn_cons, hfirst, List.map_cons, course]
    dsimp only
    rw [ih, Sink.recording_foldl, Effect.emitted_append, List.append_assoc]

/-- **Calls with sinks that keep a record** come to what they come to without sinks, and the record
says what the effects ask for. -/
theorem inTurn_recorded
    {act : Sink (σ × List UInt8) → α → ι → Attached (σ × List UInt8) (α × Answer)}
    {next : α → ι → (α × Answer) × List Effect}
    (hact : ∀ sink x call, act sink x call = sink.relay (next x call)) (calls : List (Sink σ × ι))
    (x : α) (w : (σ × List UInt8) × Array Event) :
    (inTurn act x (recorded calls) w).1 = (course next x (calls.map Prod.snd)).1 ∧
      (inTurn act x (recorded calls) w).2.1.2 =
        w.1.2 ++ Effect.emitted (course next x (calls.map Prod.snd)).2 := by
  refine ⟨?_, inTurn_record hact calls x w⟩
  rw [inTurn_result hact, recorded, List.map_map]
  rfl

/-- What each call keeps of a state and of what has been emitted, calls one after the other keep. -/
lemma course_invariant {next : α → ι → (α × Answer) × List Effect} {P : α → List UInt8 → Prop}
    {calls : List ι} : (∀ c ∈ calls, ∀ x output, P x output →
      P (next x c).1.1 (output ++ Effect.emitted (next x c).2)) →
    ∀ x output, P x output →
      P (course next x calls).1.1 (output ++ Effect.emitted (course next x calls).2) := by
  induction calls with
  | nil =>
    intro _ x output h
    rw [course, Effect.emitted_nil, List.append_nil]
    exact h
  | cons c rest ih =>
    intro hnext x output h
    obtain ⟨hfirst, hrest⟩ := List.forall_mem_cons.1 hnext
    have hlater := ih hrest _ _ (hfirst x output h)
    rw [List.append_assoc, ← Effect.emitted_append] at hlater
    exact hlater

end Turns

end ByteMachine

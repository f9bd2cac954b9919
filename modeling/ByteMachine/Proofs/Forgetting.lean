import ByteMachine.Proofs.Observers
import ByteMachine.Proofs.Placement

/-!
What is left of the past. A reset gives back the machine that was made, whatever has been asked of
it in between, and a load begins with a reset. So an image that is loaded into a used machine finds
what it would find in a new one.
-/

namespace ByteMachine

namespace Machine

variable {m m' : Machine}

/-- The machine without its past, and without tracing. -/
def blank (m : Machine) : Machine := m.reset.traced false

lemma reset_eq_blank (m : Machine) : m.reset = m.blank.traced m.trace := rfl

lemma blank_ofConfig (c : Config) : (ofConfig c).blank = (ofConfig c).traced false := by
  rw [blank, reset_ofConfig]

/-- The size of memory and the settings are all that lasts. -/
lemma blank_eq (hsize : m'.memory.size = m.memory.size) (hsettings : m'.settings = m.settings) :
    m'.blank = m.blank := by
  simp only [settings, Prod.mk.injEq] at hsettings
  obtain ⟨hport, hstrict, -⟩ := hsettings
  simp only [blank, reset, traced, Memory.clear, hsize, hport, hstrict]

lemma size_of_blank_eq {m' : Machine} (h : m'.blank = m.blank) :
    m'.memory.size = m.memory.size := by
  have hclear := congrArg (fun x => x.memory.size) h
  exact m'.memory.size_clear.symm.trans (hclear.trans m.memory.size_clear)

lemma blank_step (m : Machine) : m.step.1.blank = m.blank :=
  blank_eq m.size_step m.settings_step

/-! ### What every call keeps -/

lemma blank_next (m : Machine) (c : Call) : (m.next c).1.1.blank = m.blank := by
  cases c with
  | step => exact m.blank_step
  | run budget => exact run_keeps blank_step m budget
  | write a value => exact blank_eq (m.memory.size_write a value) rfl
  | copy offset bytes => exact blank_eq (m.memory.size_load offset bytes) rfl
  | reset => exact blank_eq m.memory.size_clear rfl
  | setRegister | setPc | setTrace => rfl

lemma blank_install {file : Array UInt8} {i : Installation} (h : m.install file = .ok i) :
    i.machine.blank = m.blank := by
  obtain ⟨hfile, -, rfl⟩ := install_eq_ok_iff.1 h
  have hplaces := m.places_place hfile
  exact blank_eq hplaces.size hplaces.settings

/-- A file is installed into what a reset leaves. -/
lemma install_congr (h : m.reset = m'.reset) (file : Array UInt8) :
    m.install file = m'.install file := by
  unfold install
  simp only [place, h]

end Machine

namespace Simulator

variable {σ τ : Type}

/-- Operations keep what a reset leaves, and the budget of runs. -/
lemma blank_next (s : Simulator) (op : Operation) :
    (s.next op).1.1.machine.blank = s.machine.blank ∧ (s.next op).1.1.maxSteps = s.maxSteps := by
  have hload (file : Array UInt8) : (s.next (.load file)).1.1.machine.blank = s.machine.blank ∧
      (s.next (.load file)).1.1.maxSteps = s.maxSteps := by
    simp only [next, load]
    rcases h : s.machine.install file with e | i
    · exact ⟨rfl, rfl⟩
    · exact ⟨Machine.blank_install h, rfl⟩
  cases op with
  | load file => exact hload file
  | loadFile path contents =>
    rcases contents with e | file
    · exact ⟨rfl, rfl⟩
    · exact hload file
  | run => exact ⟨Machine.run_keeps Machine.blank_step _ _, rfl⟩
  | call c => exact ⟨s.machine.blank_next c, rfl⟩

lemma blank_course (ops : List Operation) (s : Simulator) :
    (course next s ops).1.1.machine.blank = s.machine.blank ∧
      (course next s ops).1.1.maxSteps = s.maxSteps := by
  refine course_invariant (P := fun x _ => x.machine.blank = s.machine.blank ∧
    x.maxSteps = s.maxSteps) (fun op _ x _ hx => ?_) s [] ⟨rfl, rfl⟩
  obtain ⟨hblank, hbudget⟩ := x.blank_next op
  exact ⟨hblank.trans hx.1, hbudget.trans hx.2⟩

/-- With sinks attached too. -/
lemma blank_inTurn (calls : List (Sink σ × Operation)) (s : Simulator) (w : σ × Array Event) :
    (inTurn performTo s calls w).1.1.machine.blank = s.machine.blank ∧
      (inTurn performTo s calls w).1.1.maxSteps = s.maxSteps := by
  rw [inTurn_result performTo_eq]
  exact blank_course _ s

/-- A load forgets everything but tracing. -/
lemma next_load_used {s used : Simulator} {file : Array UInt8} {i : Installation}
    (hblank : used.machine.blank = s.machine.blank) (hbudget : used.maxSteps = s.maxSteps)
    (h : s.machine.install file = .ok i) :
    used.next (.load file) =
      (((s.next (.load file)).1.1.traced used.machine.trace, (s.next (.load file)).1.2),
        (s.next (.load file)).2) := by
  have hreset : used.machine.reset = (s.machine.traced used.machine.trace).reset := by
    rw [used.machine.reset_eq_blank, hblank]
    rfl
  have hinstall := Machine.install_congr hreset file
  rw [Machine.install_traced, h] at hinstall
  simp only [next, load, h, hinstall, Except.map, afterLoad, accept, traced, hbudget]

/-- What is done after a load does not depend on what was done before. -/
lemma course_load_used {s used : Simulator} {file : Array UInt8} {i : Installation}
    (hblank : used.machine.blank = s.machine.blank) (hbudget : used.maxSteps = s.maxSteps)
    (h : s.machine.install file = .ok i) (ops : List Operation) :
    Alike (course next used (.load file :: ops)) (course next s (.load file :: ops)) := by
  obtain ⟨hafter, hanswers, heff⟩ :=
    course_traced ops (s.next (.load file)).1.1 used.machine.trace
  simp only [course, next_load_used hblank hbudget h]
  refine ⟨hafter, ?_, ?_⟩
  · rw [hanswers]
  · rw [Effect.emitted_append, Effect.emitted_append, heff]

/-- **A load forgets the past.** Two machines of the same configuration, whatever each of them has
been through, are equal after they have installed the same file, if both are traced or neither is;
and a reset gives back the new machine, but for tracing. So a file that a new simulator takes comes
to the same in a used one: the load and the run answer alike, leave the same report and counters,
and emit the same bytes. -/
theorem load_forgets_past (c : Config) (past : List (Sink σ × Operation)) (w : σ × Array Event)
    (past' : List (Sink τ × Operation)) (w' : τ × Array Event) (file : Array UInt8) :
    let used := (inTurn performTo (ofConfig c) past w).1.1
    let other := (inTurn performTo (ofConfig c) past' w').1.1
    (used.machine.trace = other.machine.trace →
      used.machine.install file = other.machine.install file) ∧
    used.machine.reset = (Machine.ofConfig c).traced used.machine.trace ∧
    ∀ i, (Machine.ofConfig c).install file = .ok i →
      ∀ (sink : Sink σ) (sink' : Sink τ) (a : σ) (a' : τ) (events events' : Array Event),
        let r := inTurn performTo used (recorded [(sink, .load file), (sink, .run)])
          ((a, []), events)
        let r' := inTurn performTo (ofConfig c) (recorded [(sink', .load file), (sink', .run)])
          ((a', []), events')
        r.1.2 = r'.1.2 ∧ r.1.1.report = r'.1.1.report ∧
          r.1.1.machine.counters = r'.1.1.machine.counters ∧ r.2.1.2 = r'.2.1.2 := by
  obtain ⟨hblank, hbudget⟩ := blank_inTurn past (ofConfig c) w
  obtain ⟨hblank', -⟩ := blank_inTurn past' (ofConfig c) w'
  intro used other
  refine ⟨fun htrace => ?_, ?_, fun i hi sink sink' a a' events events' => ?_⟩
  · refine Machine.install_congr ?_ file
    rw [used.machine.reset_eq_blank, other.machine.reset_eq_blank, hblank, hblank', htrace]
  · rw [used.machine.reset_eq_blank, hblank, ofConfig, Machine.blank_ofConfig]
    rfl
  · have halike := course_load_used hblank hbudget hi [.run]
    obtain ⟨⟨on, hafter⟩, hanswers, hrecord⟩ :=
      inTurn_alike [(sink, .load file), (sink, .run)] [(sink', .load file), (sink', .run)] halike
        a a' events events'
    intro r r'
    refine ⟨hanswers, ?_, ?_, hrecord⟩
    · rw [hafter]
      rfl
    · rw [hafter]
      rfl

/-- A simulator that has been through a write and a step, and whose machine has halted. -/
def spent : Simulator :=
  (inTurn performTo (ofConfig { memory := { size := 16, outputPort := 9 } })
    [(Sink.null, .call (.write 0 1)), (.null, .call (.setRegister 0 5)), (.null, .call .step)]
    ((), #[])).1.1

/-- The image of a program that loads a register and stores it at 9. -/
def storesSeven : Array UInt8 :=
  #[0x4d, 0x48, 0x46, 0, 0, 0, 0, 0, 0, 0, 0, 0, 0, 0, 0, 0,
    0, 0, 0, 0, 0, 0, 0, 0, 36, 0, 0, 0, 0x10, 0, 7, 0x11, 0, 9, 0, 1]

/-- The image runs in the simulator that has halted. -/
theorem load_forgets_past_halted :
    let c : Config := { memory := { size := 16, outputPort := 9 } }
    spent.machine.state = .stopped .halted ∧ spent.machine.trace = (ofConfig c).machine.trace ∧
      spent.machine.install storesSeven = (ofConfig c).machine.install storesSeven ∧
      ∃ i, (Machine.ofConfig c).install storesSeven = .ok i ∧
        (inTurn performTo spent (recorded [(Sink.null, .load storesSeven), (.null, .run)])
          (((), []), #[])).2.1.2 = [7] := by
  intro c
  have hhalted : spent.machine.state = .stopped .halted := by decide +kernel
  have htrace : spent.machine.trace = (ofConfig c).machine.trace := by decide +kernel
  have hfile : 28 ≤ storesSeven.size ∧ storesSeven.toList.take 3 = mark := by decide
  obtain ⟨i, hi⟩ : ∃ i, (Machine.ofConfig c).install storesSeven = .ok i :=
    ⟨_, Machine.install_eq_ok_iff.2 ⟨hfile.1, hfile.2, rfl⟩⟩
  have hnew : (inTurn performTo (ofConfig c)
      (recorded [(Sink.null, .load storesSeven), (.null, .run)]) (((), []), #[])).2.1.2 = [7] := by
    decide +kernel
  obtain ⟨hsame, -, hload⟩ := load_forgets_past c
    [(Sink.null, .call (.write 0 1)), (.null, .call (.setRegister 0 5)), (.null, .call .step)]
    ((), #[]) ([] : List (Sink Unit × Operation)) ((), #[]) storesSeven
  obtain ⟨-, -, -, hrecord⟩ := hload i hi .null .null () () #[] #[]
  exact ⟨hhalted, htrace, hsame htrace, i, hi, hrecord.trans hnew⟩

end Simulator

end ByteMachine

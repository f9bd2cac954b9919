import Mathlib.Tactic.Common
import ByteMachine.Simulator

/-!
Histories of a simulator. Loading is also written in place, as a sequence of changes and effects
that an error may break off half way, and shown to change nothing before the last error it can
have. So a load that fails might as well never have been tried.
-/

namespace ByteMachine

/-- How something stands, and what it has asked of the world on the way there. -/
structure History (σ : Type) where
  now : σ
  effects : List Effect

/-- Goes on with a history. An error breaks off, and what has been changed or done by then stays
so. -/
abbrev InPlace (σ α : Type) : Type := ExceptT LoadError (StateM (History σ)) α

namespace History

variable {σ : Type}

def change (f : σ → σ) : StateM (History σ) Unit := modify fun h => { h with now := f h.now }

def effect (e : Effect) : StateM (History σ) Unit :=
  modify fun h => { h with effects := h.effects ++ [e] }

lemma run_lift {α : Type} (x : StateM (History σ) α) (h : History σ) :
    (liftM x : InPlace σ α).run.run h = (.ok (x.run h).1, (x.run h).2) := rfl

end History

open History

/-! ### Loading in place -/

namespace Machine

/-- Resets the machine, copies the body and sets the program counter, one after the other. -/
def placeInPlace (header : Header) (body : Array UInt8) : StateM (History Machine) Loaded := do
  change reset
  let copied := (← get).now.memory.room header.head body.size
  change fun m => { m with memory := m.memory.load header.head body }
  if copied < body.size then
    effect (.log (.bodyClipped header.head body.size copied (← get).now.memory.size))
  change fun m => { m with pc := header.entry }
  effect (.log (.imageInstalled header.version header.head header.entry copied))
  return ⟨header, body.size, copied⟩

def installInPlace (file : Array UInt8) : InPlace Machine Loaded := do
  let header ← Header.ofFile file
  if header.IsSigned then placeInPlace header (bodyOf file header)
  else throw (.invalidSignature header.signature)

lemma run_placeInPlace (h : History Machine) (header : Header) (body : Array UInt8) :
    (placeInPlace header body).run h =
      ((h.now.place header body).loaded, ⟨(h.now.place header body).machine,
        h.effects ++ (h.now.place header body).effects⟩) := by
  -- the size is read off after the body is copied here, and before it there.
  have hsize := h.now.reset.memory.size_load header.head body
  simp only [placeInPlace, change, effect, StateT.run_bind, StateT.run_modify, StateT.run_get,
    pure_bind, place]
  split
  · simp only [StateT.run_bind, StateT.run_modify, StateT.run_get, StateT.run_pure, pure_bind,
      hsize, List.append_assoc]
    rfl
  · simp only [StateT.run_bind, StateT.run_modify, StateT.run_pure, pure_bind, List.nil_append]
    rfl

/-- **No error comes after a change.** -/
theorem run_installInPlace (h : History Machine) (file : Array UInt8) :
    (installInPlace file).run.run h =
      match h.now.install file with
      | .ok i => (.ok i.loaded, ⟨i.machine, h.effects ++ i.effects⟩)
      | .error e => (.error e, h) := by
  unfold installInPlace install
  rcases Header.ofFile file with e | header
  · rfl
  · change StateT.run (ExceptT.run (if header.IsSigned then _ else _)) h = _
    dsimp only
    split
    · rw [run_lift, run_placeInPlace]
    · rfl

/-! ### Calls -/

/-- What can be asked of a machine, loading apart. -/
inductive Call where
  | step
  | run (budget : Option Nat)
  | setRegister (index value : UInt8)
  | write (a : Address) (value : UInt8)
  | copy (offset : Address) (bytes : Array UInt8)
  | setPc (pc : Address)
  | setTrace (on : Bool)
  | reset

def call (m : Machine) : Call → Machine × List Effect
  | .step => m.step
  | .run budget => ((m.run budget).machine, (m.run budget).effects.toList)
  | .setRegister index value => (m.setRegister index value, [])
  | .write a value => ({ m with memory := m.memory.write a value }, [])
  | .copy offset bytes => ({ m with memory := m.memory.load offset bytes }, [])
  | .setPc pc => ({ m with pc }, [])
  | .setTrace on => ({ m with trace := on }, [])
  | .reset => (m.reset, [])

end Machine

/-- What can be asked of a simulator and of the machine in it. -/
inductive Operation where
  | load (file : Array UInt8)
  | loadFile (path : String) (contents : Except ReadFailure (Array UInt8))
  | run
  | call (c : Machine.Call)

/-- The bytes that a load has got hold of. -/
def Operation.file? : Operation → Option (Array UInt8)
  | load file => some file
  | loadFile _ (.ok file) => some file
  | _ => none

namespace Simulator

/-- Has the machine do something in place. -/
def onMachine {α : Type} (x : InPlace Machine α) : InPlace Simulator α := fun h =>
  let (answer, after) := x.run.run ⟨h.now.machine, h.effects⟩
  (answer, ⟨{ h.now with machine := after.now }, after.effects⟩)

/-- The record of the image is the last to change. -/
def loadInPlace (file : Array UInt8) : InPlace Simulator Unit := do
  let loaded ← onMachine (Machine.installInPlace file)
  change (σ := Simulator) fun s => { s with loaded := some loaded }

def loadFileInPlace (path : String) :
    Except ReadFailure (Array UInt8) → InPlace Simulator Unit
  | .error e => throw (.unreadable path e)
  | .ok file => loadInPlace file

/-- Takes over what an operation that cannot fail leaves and does. -/
def follow (x : Simulator → Simulator × List Effect) : InPlace Simulator Unit := fun h =>
  (.ok (), ⟨(x h.now).1, h.effects ++ (x h.now).2⟩)

def perform : Operation → InPlace Simulator Unit
  | .load file => loadInPlace file
  | .loadFile path contents => loadFileInPlace path contents
  | .run => follow fun s => (s.run.1, s.run.2.2.toList)
  | .call c => follow fun s => ({ s with machine := (s.machine.call c).1 }, (s.machine.call c).2)

lemma run_onMachine {α : Type} (x : InPlace Machine α) (h : History Simulator) :
    (onMachine x).run.run h =
      ((x.run.run ⟨h.now.machine, h.effects⟩).1,
        ⟨{ h.now with machine := (x.run.run ⟨h.now.machine, h.effects⟩).2.now },
          (x.run.run ⟨h.now.machine, h.effects⟩).2.effects⟩) := rfl

/-- Loading in place is loading. -/
theorem run_loadInPlace (h : History Simulator) (file : Array UInt8) :
    (loadInPlace file).run.run h =
      match h.now.load file with
      | .ok (s, effects) => (.ok (), ⟨s, h.effects ++ effects⟩)
      | .error e => (.error e, h) := by
  unfold loadInPlace load
  rw [ExceptT.run_bind, StateT.run_bind, run_onMachine, Machine.run_installInPlace]
  rcases h.now.machine.install file with e | i
  · rfl
  · rfl

lemma run_loadFileInPlace (h : History Simulator) (path : String)
    (contents : Except ReadFailure (Array UInt8)) :
    (loadFileInPlace path contents).run.run h =
      match h.now.loadFile path contents with
      | .ok (s, effects) => (.ok (), ⟨s, h.effects ++ effects⟩)
      | .error e => (.error e, h) := by
  rcases contents with e | file
  · rfl
  · exact run_loadInPlace h file

/-- **An operation that fails changes nothing and does nothing.** -/
theorem perform_of_error {h h' : History Simulator} {op : Operation} {e : LoadError}
    (hfails : (perform op).run.run h = (.error e, h')) : h' = h := by
  cases op with
  | load file =>
    rw [perform, run_loadInPlace] at hfails
    split at hfails <;> cases hfails
    rfl
  | loadFile path contents =>
    rw [perform, run_loadFileInPlace] at hfails
    split at hfails <;> cases hfails
    rfl
  | run => cases hfails
  | call c => cases hfails

/-! ### Histories -/

/-- Goes on with a history by one operation, also if that fails. -/
def proceed (h : History Simulator) (op : Operation) : History Simulator :=
  ((perform op).run.run h).2

/-- Goes on with a history, past all the errors. -/
def history (h : History Simulator) (ops : List Operation) : History Simulator :=
  ops.foldl proceed h

/-- Operations without those that fail. -/
def withoutFailures : History Simulator → List Operation → List Operation
  | _, [] => []
  | h, op :: ops =>
    match ((perform op).run.run h).1 with
    | .ok _ => op :: withoutFailures (proceed h op) ops
    | .error _ => withoutFailures (proceed h op) ops

/-- What an operation loads, if it does. -/
def taken? (s : Simulator) (op : Operation) : Option Loaded :=
  op.file?.bind fun file => (s.machine.install file).toOption.map Installation.loaded

/-- What the loads that are taken load, in order. -/
def accepted : History Simulator → List Operation → List Loaded
  | _, [] => []
  | h, op :: ops => (taken? h.now op).toList ++ accepted (proceed h op) ops

lemma history_withoutFailures (ops : List Operation) : ∀ h : History Simulator,
    history h (withoutFailures h ops) = history h ops := by
  induction ops with
  | nil => exact fun _ => rfl
  | cons op ops ih =>
    intro h
    have hrest := ih (proceed h op)
    rcases hop : (perform op).run.run h with ⟨e | _, h'⟩
    · -- the rest goes on from where it would have without the operation.
      have hsame : proceed h op = h := by rw [proceed, hop, perform_of_error hop]
      simp only [withoutFailures, hop]
      rw [hsame] at hrest ⊢
      rw [hrest, history, history, List.foldl_cons, hsame]
    · simp only [withoutFailures, hop]
      exact hrest

/-- An operation records the image that it loads, if it does, and else keeps the record. -/
lemma loaded_proceed (h : History Simulator) (op : Operation) :
    (proceed h op).now.loaded = (taken? h.now op).or h.now.loaded := by
  have hload (file : Array UInt8) : ((loadInPlace file).run.run h).2.now.loaded =
      ((h.now.machine.install file).toOption.map Installation.loaded).or h.now.loaded := by
    rw [run_loadInPlace, load]
    rcases h.now.machine.install file with e | i <;> rfl
  cases op with
  | load file => exact hload file
  | loadFile path contents =>
    rcases contents with e | file
    · rfl
    · exact hload file
  | run => rfl
  | call c => rfl

lemma loaded_history (ops : List Operation) : ∀ h : History Simulator,
    (history h ops).now.loaded = (accepted h ops).getLast?.or h.now.loaded := by
  induction ops with
  | nil => exact fun _ => rfl
  | cons op ops ih =>
    intro h
    rw [accepted, List.getLast?_append, Option.or_assoc]
    refine (ih (proceed h op)).trans (congrArg _ ?_)
    rw [loaded_proceed]
    rcases taken? h.now op with _ | loaded <;> rfl

/-- **Failed loads never happened.** Operations and the same ones without the loads that fail
leave the same simulator, with the same image, and have the same effects; and the image is that of
the last load that was taken. -/
theorem failed_loads_leave_no_trace (h : History Simulator) (ops : List Operation) :
    history h (withoutFailures h ops) = history h ops ∧
      (history h ops).now.loaded = (accepted h ops).getLast?.or h.now.loaded :=
  ⟨history_withoutFailures ops h, loaded_history ops h⟩

/-- A file without a mark and one that cannot be read, between a write and a step. -/
example : withoutFailures ⟨ofConfig { memory := { size := 4, outputPort := 0 } }, []⟩
    [.call (.write 0 1), .load (.replicate 40 0), .call .step, .loadFile "a" (.error .missing)] =
      [.call (.write 0 1), .call .step] := rfl

end Simulator

end ByteMachine

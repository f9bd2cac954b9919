import Mathlib.Tactic.Common
import ByteMachine.Sink

/-!
The bytes that a sink is offered. They are those that the effects ask for, whatever the sink
makes of them.
-/

namespace ByteMachine

lemma Effect.emitted_cons (e : Effect) (es : List Effect) :
    emitted (e :: es) = emitted [e] ++ emitted es := emitted_append [e] es

namespace Sink

variable {σ : Type}

/-- The sink, with a record of the bytes it has been offered. -/
def recording (sink : Sink σ) : Sink (σ × List UInt8) where
  emit b s := (((sink.emit b s.1).1, s.2 ++ [b]), (sink.emit b s.1).2)
  flush s := (((sink.flush s.1).1, s.2), (sink.flush s.1).2)

/-- The bytes that the sink is offered from state `s` on, taken or refused. -/
def offered (sink : Sink σ) (s : σ) (effects : List Effect) : List UInt8 :=
  (sink.recording.feed effects (s, [])).1.2

lemma deliver_recording (sink : Sink σ) (x : (σ × List UInt8) × Array Event) (e : Effect) :
    (sink.recording.deliver x e).1.2 = x.1.2 ++ Effect.emitted [e] := by
  obtain ⟨⟨s, bytes⟩, events⟩ := x
  rcases e with b | _ | e
  · rcases h : sink.emit b s with ⟨s', _ | error⟩ <;> simp [deliver, recording, h, Effect.emitted]
  · rcases h : sink.flush s with ⟨s', _ | error⟩ <;> simp [deliver, recording, h, Effect.emitted]
  · simp [deliver, Effect.emitted]

/-- Effects add to the record what they ask for. -/
lemma recording_foldl (sink : Sink σ) (effects : List Effect) (x : (σ × List UInt8) × Array Event) :
    (effects.foldl sink.recording.deliver x).1.2 = x.1.2 ++ Effect.emitted effects := by
  induction effects generalizing x with
  | nil => simp
  | cons e es ih =>
    rw [List.foldl_cons, ih, deliver_recording, Effect.emitted_cons e es, List.append_assoc]

/-- **A sink is offered what the effects ask for.** -/
theorem offered_eq (sink : Sink σ) (s : σ) (effects : List Effect) :
    sink.offered s effects = Effect.emitted effects :=
  (recording_foldl sink effects ((s, []), #[])).trans (List.nil_append _)

end Sink

end ByteMachine

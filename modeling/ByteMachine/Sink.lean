import ByteMachine.Effect
import ByteMachine.Text.Latin1

/-!
Where port bytes go. A sink may refuse a byte or a flush, and says why; the refusal becomes a
warning among the events.
-/

namespace ByteMachine

structure Sink (σ : Type) where
  emit : UInt8 → σ → σ × Option String
  flush : σ → σ × Option String

namespace Sink

variable {σ : Type}

/-- Carries out one effect and adds what there is to log. -/
def deliver (sink : Sink σ) (before : σ × Array Event) (effect : Effect) : σ × Array Event :=
  let (s, events) := before
  match effect with
  | .log e => (s, events.push e)
  | .emit b =>
    match sink.emit b s with
    | (s, none) => (s, events)
    | (s, some error) => (s, events.push (.portWriteFailed error b))
  | .flush =>
    match sink.flush s with
    | (s, none) => (s, events)
    | (s, some error) => (s, events.push (.flushFailed error))

/-- Carries out effects in order. -/
def feed (sink : Sink σ) (effects : List Effect) (s : σ) : σ × Array Event :=
  effects.foldl sink.deliver (s, #[])

/-- Keeps the bytes as they are. -/
def capture : Sink (Array UInt8) where
  emit b s := (s.push b, none)
  flush s := (s, none)

/-- Writes each byte as a character to a UTF-8 stream. -/
def console : Sink (Array UInt8) where
  emit b s := (s ++ Latin1.utf8 b, none)
  flush s := (s, none)

/-- Drops every byte. -/
def null : Sink Unit where
  emit _ s := (s, none)
  flush s := (s, none)

end Sink

end ByteMachine

import Mathlib.Data.List.Basic

set_option autoImplicit true

/-- The condition holds of every event, after the events before it. -/
def EachEvent (P : List ε → ε → Prop) (before : List ε) : List ε → Prop
  | [] => True
  | ev :: events => P before ev ∧ EachEvent P (before ++ [ev]) events

namespace EachEvent

variable {P : List ε → ε → Prop} {before events events' : List ε}

theorem append : EachEvent P before (events ++ events') ↔
    EachEvent P before events ∧ EachEvent P (before ++ events) events' := by
  induction events generalizing before with
  | nil => simp [EachEvent]
  | cons ev events ih =>
    rw [List.cons_append, EachEvent, EachEvent, ih, and_assoc, List.append_assoc]
    rfl

end EachEvent

/-- What a history leaves, when each event changes what the events before it left. -/
def leftBy (note : σ → ε → σ) (s : σ) (events : List ε) : σ := events.foldl note s

@[simp] theorem leftBy_append (note : σ → ε → σ) (s : σ) (events events' : List ε) :
    leftBy note s (events ++ events') = leftBy note (leftBy note s events) events' :=
  List.foldl_append

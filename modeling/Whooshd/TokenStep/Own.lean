import Whooshd.TokenStep.Schedule

namespace Whooshd.TokenStep
set_option autoImplicit true

/-- How far one sequence has come: its state, and the number of its tokens. -/
structure Track where
  state : TokenStepSequenceState
  steps : Nat
  deriving DecidableEq, Repr

/-- Whether a plan names a request at a step. -/
def Named (plan : Dict Int (List String)) (step : Nat) (rid : String) : Prop :=
  rid ∈ (plan.get? step).getD []

instance : Decidable (Named plan step rid) := inferInstanceAs (Decidable (rid ∈ _))

namespace Track

def done (t : Track) : Bool :=
  match t.state with
  | .finished | .cancelled | .failed | .timedOut => true
  | _ => false

def ended (t : Track) (state : TokenStepSequenceState) : Track :=
  if t.done then t else { t with state }

def endedIf (p : Prop) [Decidable p] (state : TokenStepSequenceState) (t : Track) : Track :=
  if p then t.ended state else t

/-- One decode step of a sequence with so many tokens to give. -/
def decoded (t : Track) (maxTokens : Int) : Track :=
  if t.done then t
  else if t.steps < maxTokens then { state := .decoding, steps := t.steps + 1 }
  else { t with state := .finished }

/-- What the plans do to a sequence at a step. -/
def planned (plans : Plans) (step : Nat) (rid : String) (t : Track) : Track :=
  ((t.endedIf (Named plans.cancelAt step rid) .cancelled).endedIf
    (Named plans.timeoutAt step rid) .timedOut).endedIf (Named plans.failAt step rid) .failed

/-- One turn of the loop, as one request sees it. -/
def turn (plans : Plans) (step : Nat) (req : TokenStepRequest) (t : Track) : Track :=
  if (step : Int) ∈ plans.sharedFailAt then t.ended .failed
  else (t.planned plans step req.requestId).decoded req.maxTokens

end Track

/-- The sequence of a request after some turns of the loop. -/
def track (plans : Plans) (req : TokenStepRequest) : Nat → Track
  | 0 => ⟨.readyToDecode, 0⟩
  | n + 1 => (track plans req n).turn plans n req

/-- Where the sequence of a request ends up. -/
def final (plans : Plans) (req : TokenStepRequest) : Track :=
  track plans req (req.maxTokens.toNat + 1)

def tokenOf (req : TokenStepRequest) (i : Nat) : String :=
  tokenText req.requestId req.samplerLabel i

namespace Track

variable {t : Track}

@[simp] theorem ended_of_done (h : t.done = true) (state : TokenStepSequenceState) :
    t.ended state = t := if_pos h

theorem ended_of_live (h : t.done = false) (state : TokenStepSequenceState) :
    t.ended state = { t with state } := if_neg (by rw [h]; exact Bool.false_ne_true)

@[simp] theorem ended_steps (t : Track) (state : TokenStepSequenceState) :
    (t.ended state).steps = t.steps := by
  unfold ended
  split <;> rfl

@[simp] theorem endedIf_steps (p : Prop) [Decidable p] (t : Track)
    (state : TokenStepSequenceState) : (t.endedIf p state).steps = t.steps := by
  unfold endedIf
  split
  · exact t.ended_steps state
  · rfl

theorem endedIf_of_done (h : t.done = true) (p : Prop) [Decidable p]
    (state : TokenStepSequenceState) : t.endedIf p state = t := by
  unfold endedIf
  rw [ended_of_done h, ite_self]

theorem turn_of_done (h : t.done = true) (plans : Plans) (step : Nat) (req : TokenStepRequest) :
    t.turn plans step req = t := by
  unfold turn planned
  simp only [endedIf_of_done h, ended_of_done h, decoded, h, if_true, ite_self]

end Track

theorem Track.endedIf_eq (p : Prop) [Decidable p] (t : Track) (state : TokenStepSequenceState) :
    t.endedIf p state = t ∨ t.done = false ∧ t.endedIf p state = { t with state } := by
  unfold Track.endedIf
  split
  · cases h : t.done with
    | true => exact .inl (Track.ended_of_done h state)
    | false => exact .inr ⟨rfl, Track.ended_of_live h state⟩
  · exact .inl rfl

/-- What a turn keeps: a live sequence has put out one token a turn, and one that finishes has
put out all its tokens. -/
structure OnTrack (req : TokenStepRequest) (n : Nat) (t : Track) : Prop where
  bounded : t.steps ≤ req.maxTokens.toNat
  live : t.done = false → t.steps = n ∧ (t.state = .readyToDecode ∨ t.state = .decoding)
  finished : t.state = .finished → t.steps = req.maxTokens.toNat

namespace OnTrack

theorem ends (h : OnTrack req n t) (hstate : Track.done ⟨state, t.steps⟩ = true)
    (hfinished : state ≠ .finished) : OnTrack req n { t with state } where
  bounded := h.bounded
  live := by
    intro hlive
    rw [hstate] at hlive
    cases hlive
  finished := fun he => absurd he hfinished

theorem endedIf (h : OnTrack req n t) (p : Prop) [Decidable p]
    (hstate : Track.done ⟨state, t.steps⟩ = true) (hfinished : state ≠ .finished) :
    OnTrack req n (t.endedIf p state) := by
  rcases t.endedIf_eq p state with he | ⟨-, he⟩
  · rw [he]
    exact h
  · rw [he]
    exact h.ends hstate hfinished

theorem planned (h : OnTrack req n t) (plans : Plans) (step : Nat) (rid : String) :
    OnTrack req n (t.planned plans step rid) := by
  have hcancel : OnTrack req n (t.endedIf (Named plans.cancelAt step rid) .cancelled) :=
    h.endedIf _ rfl nofun
  have htimeout : OnTrack req n ((t.endedIf (Named plans.cancelAt step rid) .cancelled).endedIf
      (Named plans.timeoutAt step rid) .timedOut) := hcancel.endedIf _ rfl nofun
  exact htimeout.endedIf _ rfl nofun

theorem decoded (h : OnTrack req n t) : OnTrack req (n + 1) (t.decoded req.maxTokens) := by
  unfold Track.decoded
  cases hdone : t.done with
  | true =>
    rw [if_pos rfl]
    exact ⟨h.bounded, fun hlive => (by rw [hdone] at hlive; cases hlive), h.finished⟩
  | false =>
    obtain ⟨hsteps, -⟩ := h.live hdone
    have hbounded := h.bounded
    rw [if_neg Bool.false_ne_true]
    split
    · next hless =>
      refine ⟨?_, fun _ => ⟨congrArg (· + 1) hsteps, .inr rfl⟩, nofun⟩
      dsimp only
      omega
    · next hless =>
      refine ⟨h.bounded, nofun, fun _ => ?_⟩
      dsimp only
      omega

theorem turn (h : OnTrack req n t) (plans : Plans) :
    OnTrack req (n + 1) (t.turn plans n req) := by
  unfold Track.turn
  split
  · cases hdone : t.done with
    | true =>
      rw [Track.ended_of_done hdone]
      exact ⟨h.bounded, fun hlive => (by rw [hdone] at hlive; cases hlive), h.finished⟩
    | false =>
      rw [Track.ended_of_live hdone]
      exact ⟨h.bounded, nofun, nofun⟩
  · exact (h.planned plans n req.requestId).decoded

end OnTrack

theorem track_onTrack (plans : Plans) (req : TokenStepRequest) (n : Nat) :
    OnTrack req n (track plans req n) := by
  induction n with
  | zero => exact ⟨Nat.zero_le _, fun _ => ⟨rfl, .inl rfl⟩, nofun⟩
  | succ n ih => exact ih.turn plans

theorem lt_of_live (h : (track plans req n).done = false) : n < req.maxTokens.toNat + 1 := by
  have hon := track_onTrack plans req n
  have hsteps := (hon.live h).1
  have hbounded := hon.bounded
  omega

theorem track_of_done (h : (track plans req n).done = true) (hle : n ≤ m) :
    track plans req m = track plans req n := by
  induction m, hle using Nat.le_induction with
  | base => rfl
  | succ m _ ih => rw [track, ih, Track.turn_of_done h]

theorem final_done (plans : Plans) (req : TokenStepRequest) : (final plans req).done = true := by
  by_contra hlive
  have hlt := lt_of_live (Bool.eq_false_of_not_eq_true hlive)
  omega

theorem track_eq_final (h : (track plans req n).done = true) :
    track plans req n = final plans req := by
  rcases Nat.le_total n (req.maxTokens.toNat + 1) with hle | hle
  · exact (track_of_done h hle).symm
  · exact track_of_done (final_done plans req) hle

end Whooshd.TokenStep

import Mathlib.Data.List.Basic

set_option autoImplicit true

/-- A deterministic machine whose steps may be refused and emit observable events. -/
structure Machine (σ ι ε : Type) where
  step : σ → ι → Option (σ × List ε)

namespace Machine

/-- Run a list of inputs from a state, collecting the events in order. -/
def exec (M : Machine σ ι ε) (s : σ) : List ι → Option (σ × List ε)
  | [] => some (s, [])
  | i :: is =>
    match M.step s i with
    | none => none
    | some (s', out) =>
      match exec M s' is with
      | none => none
      | some (t, es) => some (t, out ++ es)

/-- The condition holds of every step taken along a run, on the state before it. -/
def EachStep (M : Machine σ ι ε) (C : σ → ι → Prop) (s : σ) : List ι → Prop
  | [] => True
  | i :: is => C s i ∧ ∀ s' out, M.step s i = some (s', out) → EachStep M C s' is

/-- The property holds of every state met along a run, both ends included. -/
def EachState (M : Machine σ ι ε) (P : σ → Prop) (s : σ) : List ι → Prop
  | [] => P s
  | i :: is => P s ∧ ∀ s' out, M.step s i = some (s', out) → EachState M P s' is

/-- The condition holds of every step taken along a run, on the events emitted before the
step and the state it is taken in. -/
def EachStepAfter (M : Machine σ ι ε) (D : List ε → σ → ι → Prop) (h : List ε) (s : σ) :
    List ι → Prop
  | [] => True
  | i :: is => D h s i ∧ ∀ s' out, M.step s i = some (s', out) → EachStepAfter M D (h ++ out) s' is

/-- The states met along a run, in order, both ends included. -/
def visited (M : Machine σ ι ε) (s : σ) : List ι → List σ
  | [] => [s]
  | i :: is =>
    match M.step s i with
    | none => [s]
    | some (s', _) => s :: visited M s' is

/-- The number of steps of a run at which the condition held. -/
def stepCount (M : Machine σ ι ε) (c : σ → ι → Bool) (s : σ) : List ι → Nat
  | [] => 0
  | i :: is =>
    match M.step s i with
    | none => 0
    | some (s', _) => (c s i).toNat + stepCount M c s' is

variable {M : Machine σ ι ε}

instance decidableEachStep {C : σ → ι → Prop} [∀ s i, Decidable (C s i)] :
    ∀ (s : σ) (is : List ι), Decidable (M.EachStep C s is)
  | _, [] => .isTrue trivial
  | s, i :: is =>
    match h : M.step s i with
    | none => decidable_of_iff (C s i) (by simp [EachStep, h])
    | some (s', _) =>
      have := decidableEachStep (C := C) s' is
      decidable_of_iff (C s i ∧ M.EachStep C s' is) (by simp [EachStep, h])

instance decidableEachState {P : σ → Prop} [DecidablePred P] :
    ∀ (s : σ) (is : List ι), Decidable (M.EachState P s is)
  | s, [] => inferInstanceAs (Decidable (P s))
  | s, i :: is =>
    match h : M.step s i with
    | none => decidable_of_iff (P s) (by simp [EachState, h])
    | some (s', _) =>
      have := decidableEachState (P := P) s' is
      decidable_of_iff (P s ∧ M.EachState P s' is) (by simp [EachState, h])

@[simp] theorem exec_nil (s : σ) : M.exec s [] = some (s, []) := rfl

theorem exec_cons : M.exec s (i :: is) = some (t, es) ↔
    ∃ s' out es', M.step s i = some (s', out) ∧ M.exec s' is = some (t, es') ∧
      es = out ++ es' := by
  constructor
  · intro h
    simp only [exec] at h
    split at h
    · cases h
    · next s' out hs =>
      split at h
      · cases h
      · next t' es' he =>
        simp only [Option.some.injEq, Prod.mk.injEq] at h
        obtain ⟨rfl, rfl⟩ := h
        exact ⟨s', out, es', hs, he, rfl⟩
  · rintro ⟨s', out, es', hs, he, rfl⟩
    simp only [exec, hs, he]

theorem exec_append : M.exec s (is ++ js) = some (u, es) ↔
    ∃ t es₁ es₂, M.exec s is = some (t, es₁) ∧ M.exec t js = some (u, es₂) ∧
      es = es₁ ++ es₂ := by
  induction is generalizing s es with
  | nil => simp
  | cons i is ih =>
    rw [List.cons_append, exec_cons]
    constructor
    · rintro ⟨s', out, es', hs, he, rfl⟩
      obtain ⟨t, es₁, es₂, h₁, h₂, rfl⟩ := ih.1 he
      exact ⟨t, out ++ es₁, es₂, exec_cons.2 ⟨s', out, es₁, hs, h₁, rfl⟩, h₂,
        (List.append_assoc ..).symm⟩
    · rintro ⟨t, es₁, es₂, h₁, h₂, rfl⟩
      obtain ⟨s', out, es', hs, he, rfl⟩ := exec_cons.1 h₁
      exact ⟨s', out, es' ++ es₂, hs, ih.2 ⟨t, es', es₂, he, h₂, rfl⟩, List.append_assoc ..⟩

theorem eachStep_true (s : σ) (is : List ι) : M.EachStep (fun _ _ => True) s is := by
  induction is generalizing s with
  | nil => trivial
  | cons i is ih => exact ⟨trivial, fun s' _ _ => ih s'⟩

theorem eachStep_of_mem {C : ι → Prop} (h : ∀ i ∈ is, C i) (s : σ) :
    M.EachStep (fun _ i => C i) s is := by
  induction is generalizing s with
  | nil => trivial
  | cons i is ih =>
    exact ⟨h i (List.mem_cons_self ..), fun s' _ _ =>
      ih (fun j hj => h j (List.mem_cons_of_mem _ hj)) s'⟩

theorem EachStep.imp (hC : ∀ s i, C s i → D s i) (h : M.EachStep C s is) : M.EachStep D s is := by
  induction is generalizing s with
  | nil => trivial
  | cons i is ih => exact ⟨hC s i h.1, fun s' out hs => ih (h.2 s' out hs)⟩

theorem EachStep.of_append (h : M.EachStep C s (is ++ js)) : M.EachStep C s is := by
  induction is generalizing s with
  | nil => trivial
  | cons i is ih => exact ⟨h.1, fun s' out hs => ih (h.2 s' out hs)⟩

theorem EachState.head (h : M.EachState P s is) : P s := by
  cases is with
  | nil => exact h
  | cons => exact h.1

theorem EachState.last (h : M.EachState P s is) (hrun : M.exec s is = some (t, es)) : P t := by
  induction is generalizing s es with
  | nil =>
    simp only [exec_nil, Option.some.injEq, Prod.mk.injEq] at hrun
    exact hrun.1 ▸ h
  | cons i is ih =>
    obtain ⟨s', out, es', hs, he, -⟩ := exec_cons.1 hrun
    exact ih (h.2 s' out hs) he

theorem EachState.imp (hP : ∀ s, P s → Q s) (h : M.EachState P s is) : M.EachState Q s is := by
  induction is generalizing s with
  | nil => exact hP s h
  | cons i is ih => exact ⟨hP s h.1, fun s' out hs => ih (h.2 s' out hs)⟩

theorem EachState.and (h : M.EachState P s is) (h' : M.EachState Q s is) :
    M.EachState (fun s => P s ∧ Q s) s is := by
  induction is generalizing s with
  | nil => exact ⟨h, h'⟩
  | cons i is ih =>
    exact ⟨⟨h.1, h'.1⟩, fun s' out hs => ih (h.2 s' out hs) (h'.2 s' out hs)⟩

theorem EachState.eachStep (h : M.EachState P s is) : M.EachStep (fun s _ => P s) s is := by
  induction is generalizing s with
  | nil => trivial
  | cons i is ih => exact ⟨h.1, fun s' out hs => ih (h.2 s' out hs)⟩

theorem EachStep.and (h : M.EachStep C s is) (h' : M.EachStep D s is) :
    M.EachStep (fun s i => C s i ∧ D s i) s is := by
  induction is generalizing s with
  | nil => trivial
  | cons i is ih =>
    exact ⟨⟨h.1, h'.1⟩, fun s' out hs => ih (h.2 s' out hs) (h'.2 s' out hs)⟩

theorem visited_cons (hs : M.step s i = some (s', out)) :
    M.visited s (i :: is) = s :: M.visited s' is := by
  simp only [visited, hs]

theorem stepCount_cons (hs : M.step s i = some (s', out)) (c : σ → ι → Bool) :
    M.stepCount c s (i :: is) = (c s i).toNat + M.stepCount c s' is := by
  simp only [stepCount, hs]

theorem stepCount_eq_zero {c : σ → ι → Bool} (hrun : M.exec s is = some r) :
    M.stepCount c s is = 0 ↔ M.EachStep (fun s i => c s i = false) s is := by
  induction is generalizing s r with
  | nil => exact ⟨fun _ => trivial, fun _ => rfl⟩
  | cons i is ih =>
    obtain ⟨t, es⟩ := r
    obtain ⟨s', out, es', hs, he, -⟩ := exec_cons.1 hrun
    rw [stepCount_cons hs, Nat.add_eq_zero_iff, ih he, EachStep]
    simp [hs, Bool.toNat_eq_zero]

/-- The induction rule for a property of the state and of the events emitted so far. -/
theorem exec_history {P : List ε → σ → Prop} {C : σ → ι → Prop}
    (hstep : ∀ {h s i s' out}, P h s → C s i → M.step s i = some (s', out) → P (h ++ out) s')
    (h₀ : P h s) (hC : M.EachStep C s is) (hrun : M.exec s is = some (t, es)) :
    P (h ++ es) t := by
  induction is generalizing s h es with
  | nil =>
    simp only [exec_nil, Option.some.injEq, Prod.mk.injEq] at hrun
    obtain ⟨rfl, rfl⟩ := hrun
    simpa only [List.append_nil] using h₀
  | cons i is ih =>
    obtain ⟨s', out, es', hs, he, rfl⟩ := exec_cons.1 hrun
    have h' := ih (hstep h₀ hC.1 hs) (hC.2 s' out hs) he
    simpa only [List.append_assoc] using h'

/-- When each step adds to a history that was fine so far events that keep it fine exactly if
the step meets the condition, a run stays fine exactly if all its steps do. The invariant may
speak of the inputs still to come. -/
theorem exec_history_iff {I : List ε → σ → List ι → Prop} {P : List ε → Prop} {C : σ → ι → Prop}
    (hmono : ∀ {h out}, P (h ++ out) → P h)
    (hinv : ∀ {h s i is s' out}, I h s (i :: is) → M.step s i = some (s', out) →
      I (h ++ out) s' is)
    (hstep : ∀ {h s i is s' out}, I h s (i :: is) → P h → M.step s i = some (s', out) →
      (P (h ++ out) ↔ C s i))
    (hi : I h s is) (hp : P h) (hrun : M.exec s is = some (t, es)) :
    P (h ++ es) ↔ M.EachStep C s is := by
  induction is generalizing s h es with
  | nil =>
    simp only [exec_nil, Option.some.injEq, Prod.mk.injEq] at hrun
    obtain ⟨rfl, rfl⟩ := hrun
    simpa only [List.append_nil, EachStep, iff_true] using hp
  | cons i is ih =>
    obtain ⟨s', out, es', hs, he, rfl⟩ := exec_cons.1 hrun
    have hi' := hinv hi hs
    have hiff := hstep hi hp hs
    rw [← List.append_assoc]
    constructor
    · intro h
      have hp' : P (_ ++ out) := hmono h
      apply And.intro (hiff.1 hp')
      intro u out' hu
      rw [hs] at hu
      cases hu
      exact (ih hi' hp' he).1 h
    · intro h
      exact (ih hi' (hiff.2 h.1) he).2 (h.2 s' out hs)

/-- When a condition on the history of a step comes down to one on its state, it does so for
all the steps of a run. -/
theorem eachStepAfter_iff_eachStep {I : List ε → σ → Prop} {D : List ε → σ → ι → Prop}
    {C : σ → ι → Prop}
    (hinv : ∀ {h s i s' out}, I h s → M.step s i = some (s', out) → I (h ++ out) s')
    (hstep : ∀ {h s i s' out}, I h s → M.step s i = some (s', out) → (D h s i ↔ C s i))
    (hi : I h s) (hrun : M.exec s is = some r) :
    M.EachStepAfter D h s is ↔ M.EachStep C s is := by
  induction is generalizing s h r with
  | nil => exact ⟨fun _ => trivial, fun _ => trivial⟩
  | cons i is ih =>
    obtain ⟨t, es⟩ := r
    obtain ⟨s', out, es', hs, he, -⟩ := exec_cons.1 hrun
    have htail := ih (hinv hi hs) he
    have hhead := hstep hi hs
    constructor
    · intro h
      apply And.intro (hhead.1 h.1)
      intro u out' hu
      rw [hs] at hu
      cases hu
      exact htail.1 (h.2 _ _ hs)
    · intro h
      apply And.intro (hhead.2 h.1)
      intro u out' hu
      rw [hs] at hu
      cases hu
      exact htail.2 (h.2 _ _ hs)

theorem eachStepAfter_const {C : σ → ι → Prop} :
    M.EachStepAfter (fun _ => C) h s is ↔ M.EachStep C s is := by
  induction is generalizing s h with
  | nil => exact Iff.rfl
  | cons i is ih => simp only [EachStepAfter, EachStep, ih]

theorem eachStep_congr {I : σ → Prop} {C D : σ → ι → Prop}
    (hinv : ∀ {s i s' out}, I s → M.step s i = some (s', out) → I s')
    (hstep : ∀ {s i s' out}, I s → M.step s i = some (s', out) → (D s i ↔ C s i))
    (hi : I s) (hrun : M.exec s is = some r) : M.EachStep D s is ↔ M.EachStep C s is :=
  (eachStepAfter_const (h := [])).symm.trans
    (eachStepAfter_iff_eachStep (I := fun _ => I) hinv hstep hi hrun)

/-- The induction rule for a property of the state alone, under a condition on the steps. -/
theorem exec_invariant {P : σ → Prop} {C : σ → ι → Prop}
    (hstep : ∀ {s i s' out}, P s → C s i → M.step s i = some (s', out) → P s')
    (h₀ : P s) (hC : M.EachStep C s is) (hrun : M.exec s is = some (t, es)) : P t :=
  exec_history (P := fun _ => P) (h := []) hstep h₀ hC hrun

/-- The induction rule for a reflexive and transitive relation between the ends of a run. -/
theorem exec_relation {P : σ → Prop} {R : σ → σ → Prop} {C : σ → ι → Prop}
    (hrefl : ∀ s, R s s) (htrans : ∀ s t u, R s t → R t u → R s u)
    (hstep : ∀ {s i s' out}, P s → C s i → M.step s i = some (s', out) → P s' ∧ R s s')
    (h₀ : P s) (hC : M.EachStep C s is) (hrun : M.exec s is = some (t, es)) : R s t := by
  have h := exec_invariant (P := fun u => P u ∧ R s u) (C := C)
    (fun hu hc hs => ⟨(hstep hu.1 hc hs).1, htrans _ _ _ hu.2 (hstep hu.1 hc hs).2⟩)
    ⟨h₀, hrefl s⟩ hC hrun
  exact h.2

theorem eachState_of_step {P : σ → Prop} {C : σ → ι → Prop}
    (hstep : ∀ {s i s' out}, P s → C s i → M.step s i = some (s', out) → P s')
    (h₀ : P s) (hC : M.EachStep C s is) : M.EachState P s is := by
  induction is generalizing s with
  | nil => exact h₀
  | cons i is ih =>
    exact ⟨h₀, fun s' out hs => ih (hstep h₀ hC.1 hs) (hC.2 s' out hs)⟩

/-- When each step keeps the property exactly if it meets the condition, a run keeps it
throughout exactly if all its steps do. The invariant may speak of the inputs still to come. -/
theorem eachState_iff_eachStep_ahead {I : σ → List ι → Prop} {P : σ → Prop} {C : σ → ι → Prop}
    (hinv : ∀ {s i is s' out}, I s (i :: is) → M.step s i = some (s', out) → I s' is)
    (hstep : ∀ {s i is s' out}, I s (i :: is) → P s → M.step s i = some (s', out) →
      (P s' ↔ C s i))
    (hi : I s is) (hp : P s) (hrun : M.exec s is = some r) :
    M.EachState P s is ↔ M.EachStep C s is := by
  induction is generalizing s r with
  | nil => exact ⟨fun _ => trivial, fun _ => hp⟩
  | cons i is ih =>
    obtain ⟨t, es⟩ := r
    obtain ⟨s', out, es', hs, he, -⟩ := exec_cons.1 hrun
    have hiff := hstep hi hp hs
    have hi' := hinv hi hs
    constructor
    · intro h
      have hp' := (h.2 s' out hs).head
      refine ⟨hiff.1 hp', fun u out' hu => ?_⟩
      rw [hs] at hu
      cases hu
      exact (ih hi' hp' he).1 (h.2 _ _ hs)
    · intro h
      have hp' := hiff.2 h.1
      refine ⟨hp, fun u out' hu => ?_⟩
      rw [hs] at hu
      cases hu
      exact (ih hi' hp' he).2 (h.2 _ _ hs)

theorem eachState_iff_eachStep {I P : σ → Prop} {C : σ → ι → Prop}
    (hinv : ∀ {s i s' out}, I s → M.step s i = some (s', out) → I s')
    (hstep : ∀ {s i s' out}, I s → P s → M.step s i = some (s', out) → (P s' ↔ C s i))
    (hi : I s) (hp : P s) (hrun : M.exec s is = some r) :
    M.EachState P s is ↔ M.EachStep C s is :=
  eachState_iff_eachStep_ahead (I := fun s _ => I s) hinv hstep hi hp hrun

theorem eachState_and_eachStep {I : σ → List ι → Prop} {P Q : σ → Prop} {D : σ → ι → Prop}
    (hinv : ∀ {s i is s' out}, I s (i :: is) → M.step s i = some (s', out) → I s' is)
    (hstate : ∀ {s is}, I s is → (P s ↔ Q s))
    (hstep : ∀ {s i is}, I s (i :: is) → Q s → D s i) (hi : I s is) :
    M.EachState P s is ∧ M.EachStep D s is ↔ M.EachState Q s is := by
  induction is generalizing s with
  | nil => exact ⟨fun h => (hstate hi).1 h.1, fun h => ⟨(hstate hi).2 h, trivial⟩⟩
  | cons i is ih =>
    constructor
    · intro h
      refine ⟨(hstate hi).1 h.1.1, fun s' out hs => ?_⟩
      exact (ih (hinv hi hs)).1 ⟨h.1.2 s' out hs, h.2.2 s' out hs⟩
    · intro h
      refine ⟨⟨(hstate hi).2 h.1, fun s' out hs => ?_⟩, hstep hi h.1, fun s' out hs => ?_⟩
      · exact ((ih (hinv hi hs)).2 (h.2 s' out hs)).1
      · exact ((ih (hinv hi hs)).2 (h.2 s' out hs)).2

end Machine

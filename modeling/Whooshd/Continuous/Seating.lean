import Whooshd.Continuous.Scheduler
import Mathlib.Logic.Function.Basic

namespace Whooshd.Continuous
set_option autoImplicit true

/-- How far a request has come, as far as its slot is concerned. -/
inductive Phase where
  | waiting | running | ended
  deriving DecidableEq, Repr

def FakeContinuousRequest.phase (req : FakeContinuousRequest) : Phase :=
  if req.state.terminal then .ended else if req.state = .admitted then .waiting else .running

/-- The phase and the slot of each request. -/
abbrev Seats : Type := String → Option (Phase × Option String)

def FakeContinuousRequest.seat (req : FakeContinuousRequest) : Phase × Option String :=
  (req.phase, req.slotId)

def FakeTokenLevelScheduler.seats (s : FakeTokenLevelScheduler) : Seats :=
  fun rid => (s.requests.get? rid).map (·.seat)

/-- Requests and slots agree. A slot has belonged to one request at most. -/
structure Seated (seats : Seats) (slots : List ContinuousSlot) : Prop where
  ids : (slots.map (·.slotId)).Nodup
  named : ∀ slot ∈ slots, slot.slotId ≠ ""
  waiting : ∀ rid x, seats rid = some (.waiting, x) → x = none
  running : ∀ rid, seats rid ≠ some (.running, none)
  taken : ∀ rid phase x, seats rid = some (phase, some x) → ∃ slot ∈ slots, slot.slotId = x ∧
    slot.state ≠ .empty ∧ (phase ≠ .ended → slot.requestId = some rid)
  owned : ∀ slot ∈ slots, ∀ rid, slot.requestId = some rid → slot.state = .reserved ∧
    ∃ phase, phase ≠ .ended ∧ seats rid = some (phase, some slot.slotId)
  filled : ∀ slot ∈ slots, slot.state ≠ .empty →
    ∃ rid phase, seats rid = some (phase, some slot.slotId)
  alone : ∀ rid rid' phase phase' x, seats rid = some (phase, some x) →
    seats rid' = some (phase', some x) → rid = rid'

theorem eq_of_slotId {slots : List ContinuousSlot} (hids : (slots.map (·.slotId)).Nodup)
    (hslot : slot ∈ slots) (hslot' : slot' ∈ slots) (he : slot.slotId = slot'.slotId) :
    slot = slot' :=
  List.inj_on_of_nodup_map hids hslot hslot' he

theorem updateFirst_eq (hfind : slots.find? p = some slot) (f : ContinuousSlot → ContinuousSlot) :
    ∃ before after, slots = before ++ slot :: after ∧
      updateFirst p f slots = before ++ f slot :: after := by
  induction slots with
  | nil => cases hfind
  | cons a slots ih =>
    rw [List.find?_cons] at hfind
    cases hp : p a with
    | true =>
      rw [hp] at hfind
      cases hfind
      exact ⟨[], slots, rfl, by simp [updateFirst, hp]⟩
    | false =>
      rw [hp] at hfind
      obtain ⟨before, after, hslots, hupdate⟩ := ih hfind
      refine ⟨a :: before, after, by rw [hslots]; rfl, ?_⟩
      rw [updateFirst, hp, if_neg Bool.false_ne_true, hupdate]
      rfl

theorem updateFirst_of_none (hfind : slots.find? p = none)
    (f : ContinuousSlot → ContinuousSlot) : updateFirst p f slots = slots := by
  induction slots with
  | nil => rfl
  | cons a slots ih =>
    rw [List.find?_cons] at hfind
    cases hp : p a with
    | true =>
      rw [hp] at hfind
      cases hfind
    | false =>
      rw [hp] at hfind
      rw [updateFirst, hp, if_neg Bool.false_ne_true, ih hfind]

namespace Seated

variable {seats : Seats} {before after : List ContinuousSlot} {slot : ContinuousSlot}

theorem unslotted (h : Seated seats slots) (hbefore : ∀ phase x, seats rid ≠ some (phase, some x))
    (hphase : phase ≠ .running) :
    Seated (Function.update seats rid (some (phase, none))) slots := by
  have hother : ∀ rid' phase' x, Function.update seats rid (some (phase, none)) rid' =
      some (phase', some x) ↔ seats rid' = some (phase', some x) := by
    intro rid' phase' x
    by_cases he : rid' = rid
    · subst he
      simp [hbefore]
    · rw [Function.update_of_ne he]
  constructor
  · exact h.ids
  · exact h.named
  · intro rid' x hseat
    cases x with
    | none => rfl
    | some x => exact h.waiting rid' _ ((hother _ _ _).mp hseat)
  · intro rid' hseat
    by_cases he : rid' = rid
    · subst he
      rw [Function.update_self] at hseat
      cases hseat
      exact hphase rfl
    · rw [Function.update_of_ne he] at hseat
      exact h.running rid' hseat
  · exact fun rid' phase' x hseat => h.taken rid' phase' x ((hother _ _ _).mp hseat)
  · intro slot hslot rid' hreq
    obtain ⟨hstate, phase', hphase', hseat⟩ := h.owned slot hslot rid' hreq
    exact ⟨hstate, phase', hphase', (hother _ _ _).mpr hseat⟩
  · intro slot hslot hstate
    obtain ⟨rid', phase', hseat⟩ := h.filled slot hslot hstate
    exact ⟨rid', phase', (hother _ _ _).mpr hseat⟩
  · exact fun rid' rid'' phase' phase'' x hseat hseat' =>
      h.alone rid' rid'' phase' phase'' x ((hother _ _ _).mp hseat) ((hother _ _ _).mp hseat')

theorem replace (h : Seated seats (before ++ slot :: after)) (slot' : ContinuousSlot)
    (hid : slot'.slotId = slot.slotId) (hstate : slot'.state ≠ .empty) (hrun : phase ≠ .waiting)
    (hslot : slot'.requestId = if phase = .ended then none else some rid)
    (hreserved : phase ≠ .ended → slot'.state = .reserved)
    (hbefore : ∀ rid' phase', seats rid' = some (phase', some slot.slotId) → rid' = rid)
    (hrid : ∀ phase' x, seats rid = some (phase', some x) → x = slot.slotId) :
    Seated (Function.update seats rid (some (phase, some slot.slotId)))
      (before ++ slot' :: after) := by
  have hmem : ∀ a, a ∈ before ++ slot' :: after →
      a = slot' ∨ a ∈ before ++ slot :: after ∧ a.slotId ≠ slot.slotId := by
    intro a ha
    have hids := h.ids
    simp only [List.map_append, List.map_cons, List.nodup_append, List.nodup_cons,
      List.mem_map] at hids
    rcases List.mem_append.mp ha with hb | ha
    · refine .inr ⟨List.mem_append_left _ hb, ?_⟩
      exact hids.2.2 _ ⟨a, hb, rfl⟩ _ List.mem_cons_self
    · rcases List.mem_cons.mp ha with rfl | ha
      · exact .inl rfl
      · refine .inr ⟨List.mem_append_right _ (List.mem_cons_of_mem _ ha), ?_⟩
        intro he
        exact hids.2.1.1 ⟨a, ha, he⟩
  have hself : slot' ∈ before ++ slot' :: after := by simp
  have hkeep : ∀ a ∈ before ++ slot :: after, a.slotId ≠ slot.slotId →
      a ∈ before ++ slot' :: after := by
    intro a ha hne
    rcases List.mem_append.mp ha with hb | ha
    · exact List.mem_append_left _ hb
    · rcases List.mem_cons.mp ha with rfl | ha
      · exact absurd rfl hne
      · exact List.mem_append_right _ (List.mem_cons_of_mem _ ha)
  have hcases : ∀ rid' seat,
      Function.update seats rid (some (phase, some slot.slotId)) rid' = some seat →
        rid' = rid ∧ seat = (phase, some slot.slotId) ∨ rid' ≠ rid ∧ seats rid' = some seat := by
    intro rid' seat hseat
    by_cases he : rid' = rid
    · subst he
      rw [Function.update_self] at hseat
      exact .inl ⟨rfl, (Option.some.inj hseat).symm⟩
    · rw [Function.update_of_ne he] at hseat
      exact .inr ⟨he, hseat⟩
  constructor
  · have hids := h.ids
    simp only [List.map_append, List.map_cons] at hids ⊢
    rwa [hid]
  · intro a ha
    rcases hmem a ha with rfl | ⟨ha, -⟩
    · rw [hid]
      exact h.named slot (by simp)
    · exact h.named a ha
  · intro rid' x hseat
    rcases hcases _ _ hseat with ⟨-, he⟩ | ⟨-, hseat⟩
    · cases he
      exact absurd rfl hrun
    · exact h.waiting rid' x hseat
  · intro rid' hseat
    rcases hcases _ _ hseat with ⟨-, he⟩ | ⟨-, hseat⟩
    · cases he
    · exact h.running rid' hseat
  · intro rid' phase' x hseat
    rcases hcases _ _ hseat with ⟨rfl, he⟩ | ⟨hne, hseat⟩
    · cases he
      refine ⟨slot', hself, hid, hstate, ?_⟩
      intro hphase
      rw [hslot, if_neg hphase]
    · obtain ⟨a, ha, rfl, hfull, hreq⟩ := h.taken rid' phase' x hseat
      have hdiff : a.slotId ≠ slot.slotId := by
        intro he
        rw [he] at hseat
        exact hne (hbefore rid' phase' hseat)
      exact ⟨a, hkeep a ha hdiff, rfl, hfull, hreq⟩
  · intro a ha rid' hreq
    rcases hmem a ha with rfl | ⟨ha, hdiff⟩
    · rw [hslot] at hreq
      split at hreq
      · cases hreq
      · next hended =>
        cases hreq
        refine ⟨hreserved hended, phase, hended, ?_⟩
        rw [Function.update_self, hid]
    · obtain ⟨hres, phase', hphase', hseat⟩ := h.owned a ha rid' hreq
      have hne : rid' ≠ rid := by
        rintro rfl
        exact hdiff (hrid _ _ hseat)
      exact ⟨hres, phase', hphase', by rwa [Function.update_of_ne hne]⟩
  · intro a ha hfull
    rcases hmem a ha with rfl | ⟨ha, hdiff⟩
    · refine ⟨rid, phase, ?_⟩
      rw [Function.update_self, hid]
    · obtain ⟨rid', phase', hseat⟩ := h.filled a ha hfull
      have hne : rid' ≠ rid := by
        rintro rfl
        exact hdiff (hrid _ _ hseat)
      exact ⟨rid', phase', by rwa [Function.update_of_ne hne]⟩
  · intro rid' rid'' phase' phase'' x hseat hseat'
    rcases hcases _ _ hseat with ⟨h₁, he⟩ | ⟨-, hs⟩
    · cases he
      rcases hcases _ _ hseat' with ⟨h₂, -⟩ | ⟨-, hs'⟩
      · rw [h₁, h₂]
      · rw [h₁, hbefore _ _ hs']
    · rcases hcases _ _ hseat' with ⟨h₂, he⟩ | ⟨-, hs'⟩
      · cases he
        rw [h₂, hbefore _ _ hs]
      · exact h.alone _ _ _ _ _ hs hs'

theorem sit (h : Seated seats (before ++ slot :: after)) (hseat : seats rid = some (.waiting, none))
    (hempty : slot.state = .empty) :
    Seated (Function.update seats rid (some (.running, some slot.slotId)))
      (before ++ { slot with state := .reserved, requestId := some rid } :: after) := by
  have hfree : ∀ rid' phase', seats rid' = some (phase', some slot.slotId) → rid' = rid := by
    intro rid' phase' hseat'
    obtain ⟨a, ha, hid, hfull, -⟩ := h.taken rid' phase' _ hseat'
    rw [eq_of_slotId h.ids ha (by simp) hid] at hfull
    exact absurd hempty hfull
  have hnone : ∀ phase' x, seats rid = some (phase', some x) → x = slot.slotId := by
    intro phase' x hseat'
    rw [hseat] at hseat'
    cases hseat'
  exact h.replace { slot with state := .reserved, requestId := some rid } rfl nofun nofun rfl
    (fun _ => rfl) hfree hnone

theorem leave (h : Seated seats (before ++ slot :: after)) (hreq : slot.requestId = some rid)
    (hstate : state ≠ .empty) :
    Seated (Function.update seats rid (some (.ended, some slot.slotId)))
      (before ++ { slot with state, requestId := none } :: after) := by
  obtain ⟨-, phase', -, hseat⟩ := h.owned slot (by simp) rid hreq
  have hfree : ∀ rid' phase', seats rid' = some (phase', some slot.slotId) → rid' = rid :=
    fun rid' phase' hseat' => h.alone _ _ _ _ _ hseat' hseat
  have hown : ∀ phase' x, seats rid = some (phase', some x) → x = slot.slotId := by
    intro phase' x hseat'
    rw [hseat] at hseat'
    cases hseat'
    rfl
  exact h.replace { slot with state, requestId := none } rfl hstate nofun rfl
    (fun hne => absurd rfl hne) hfree hown

theorem slot_of_seat (h : Seated seats slots) (hseat : seats rid = some (phase, some x))
    (hphase : phase ≠ .ended) : ∃ slot ∈ slots, slot.slotId = x ∧ slot.requestId = some rid := by
  obtain ⟨slot, hslot, hid, -, hreq⟩ := h.taken rid phase x hseat
  exact ⟨slot, hslot, hid, hreq hphase⟩

end Seated

end Whooshd.Continuous

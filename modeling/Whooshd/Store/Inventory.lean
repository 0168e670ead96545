import Whooshd.Store.Compatibility

namespace Whooshd.Store
set_option autoImplicit true

variable [Interpreter]

/-- The id of an entry as the collection reads it, `str(entry.get("model_id", ""))`. -/
def printedId (entry : Json) : Except PyError String :=
  return (← entry.getD "model_id" noText).toStr

/-- The loop of `collect_advertisable_registered_models`. -/
def collectEntries (st : StoreView) (seen : List String) :
    List Json → Except PyError (List RegisteredModel)
  | [] => .ok []
  | entry :: rest => do
    let modelId ← printedId entry
    if modelId = "" ∨ modelId ∈ seen then collectEntries st seen rest
    else
      let rm ← RegisteredModel.fromDict entry
      if rm.status ≠ "registered" ∨ rm.storageMode ≠ "managed" then
        collectEntries st (modelId :: seen) rest
      else
        let compat ← validateRegisteredModelCompatibility st modelId
        let collected ← collectEntries st (modelId :: seen) rest
        return if compat.advertisable then rm :: collected else collected

def collectAdvertisableRegisteredModels (st : StoreView) :
    Except PyError (List RegisteredModel) := do
  match ← st.readEntries with
  | .error _ => return []
  | .ok models =>
    let results ← collectEntries st [] models
    return results.mergeSort (fun a b => a.modelId ≤ b.modelId)

/-- The entry is the first under its printed id, which is neither empty nor already seen. -/
structure Fresh (seen : List String) (pre : List Json) (entry : Json) (modelId : String) :
    Prop where
  printed : printedId entry = .ok modelId
  nonempty : modelId ≠ ""
  unseen : modelId ∉ seen
  first : ∀ e ∈ pre, printedId e ≠ .ok modelId

/-- No entry of the rest makes the loop raise. -/
def Collectable (st : StoreView) (models : List Json) (seen : List String) (rest : List Json) :
    Prop :=
  ∀ pre entry post, rest = pre ++ entry :: post → (printedId entry).Returns ∧
    ∀ modelId, Fresh seen pre entry modelId →
      ∃ rm, RegisteredModel.fromDict entry = .ok rm ∧
        (rm.IsManaged → LookupAnswers st models modelId)

/-- The loop adds this model: its own entry is fresh and managed, and the validation of the
entry that is found under its printed id says that it may be advertised. -/
def Collected (st : StoreView) (models : List Json) (seen : List String) (rest : List Json)
    (rm : RegisteredModel) : Prop :=
  ∃ pre entry post modelId, rest = pre ++ entry :: post ∧ Fresh seen pre entry modelId ∧
    RegisteredModel.fromDict entry = .ok rm ∧ rm.IsManaged ∧
      LookupAdvertises st models modelId

/-- The ids that count as seen once an entry has been passed. -/
def seenAfter (seen : List String) (modelId : String) : List String :=
  if modelId = "" ∨ modelId ∈ seen then seen else modelId :: seen

theorem fresh_cons (he : printedId e = .ok modelId) :
    Fresh seen (e :: pre) entry modelId' ↔
      Fresh (seenAfter seen modelId) pre entry modelId' := by
  have hunseen : modelId' ≠ "" →
      (modelId' ∉ seenAfter seen modelId ↔ modelId' ∉ seen ∧ modelId ≠ modelId') := by
    intro hne
    unfold seenAfter
    split
    · rename_i h
      constructor
      · intro hu
        refine ⟨hu, ?_⟩
        rintro rfl
        exact h.elim hne hu
      · exact And.left
    · rw [List.mem_cons, not_or, and_comm, ← ne_eq, ne_comm]
  constructor
  · rintro ⟨hp, hne, hu, hf⟩
    refine ⟨hp, hne, (hunseen hne).mpr ⟨hu, ?_⟩, fun e' he' => hf e' (.tail _ he')⟩
    rintro rfl
    exact hf e List.mem_cons_self he
  · rintro ⟨hp, hne, hu, hf⟩
    obtain ⟨hu, hid⟩ := (hunseen hne).mp hu
    refine ⟨hp, hne, hu, ?_⟩
    intro e' he'
    cases he' with
    | head =>
      rw [he]
      intro h
      cases h
      exact hid rfl
    | tail _ he' => exact hf e' he'

theorem fresh_nil (he : printedId e = .ok modelId) :
    Fresh seen [] e modelId' ↔ modelId' = modelId ∧ ¬ (modelId = "" ∨ modelId ∈ seen) := by
  constructor
  · rintro ⟨hp, hne, hu, -⟩
    rw [he] at hp
    cases hp
    exact ⟨rfl, by simp [hne, hu]⟩
  · rintro ⟨rfl, h⟩
    rw [not_or] at h
    exact ⟨he, h.1, h.2, by simp⟩

theorem collectable_cons (he : printedId e = .ok modelId) :
    Collectable st models seen (e :: rest) ↔
      (¬ (modelId = "" ∨ modelId ∈ seen) → ∃ rm, RegisteredModel.fromDict e = .ok rm ∧
        (rm.IsManaged → LookupAnswers st models modelId)) ∧
      Collectable st models (seenAfter seen modelId) rest := by
  constructor
  · intro h
    refine ⟨?_, ?_⟩
    · intro hnew
      exact (h [] e rest rfl).2 modelId ((fresh_nil he).mpr ⟨rfl, hnew⟩)
    · intro pre entry post hrest
      obtain ⟨hret, hfresh⟩ := h (e :: pre) entry post (by rw [hrest]; rfl)
      exact ⟨hret, fun modelId' hf => hfresh modelId' ((fresh_cons he).mpr hf)⟩
  · rintro ⟨hhead, htail⟩ pre entry post hrest
    cases pre with
    | nil =>
      obtain ⟨rfl, rfl⟩ : e = entry ∧ rest = post := by simpa using hrest
      refine ⟨⟨_, he⟩, ?_⟩
      intro modelId' hf
      obtain ⟨rfl, hnew⟩ := (fresh_nil he).mp hf
      exact hhead hnew
    | cons e' pre =>
      obtain ⟨rfl, rfl⟩ : e = e' ∧ rest = pre ++ entry :: post := by simpa using hrest
      obtain ⟨hret, hfresh⟩ := htail pre entry post rfl
      exact ⟨hret, fun modelId' hf => hfresh modelId' ((fresh_cons he).mp hf)⟩

theorem collected_cons (he : printedId e = .ok modelId) :
    Collected st models seen (e :: rest) rm ↔
      (¬ (modelId = "" ∨ modelId ∈ seen) ∧ RegisteredModel.fromDict e = .ok rm ∧
        rm.IsManaged ∧ LookupAdvertises st models modelId) ∨
      Collected st models (seenAfter seen modelId) rest rm := by
  constructor
  · rintro ⟨pre, entry, post, modelId', hrest, hf, hrm⟩
    cases pre with
    | nil =>
      obtain ⟨rfl, rfl⟩ : e = entry ∧ rest = post := by simpa using hrest
      obtain ⟨rfl, hnew⟩ := (fresh_nil he).mp hf
      exact .inl ⟨hnew, hrm⟩
    | cons e' pre =>
      obtain ⟨rfl, rfl⟩ : e = e' ∧ rest = pre ++ entry :: post := by simpa using hrest
      exact .inr ⟨pre, entry, post, modelId', rfl, (fresh_cons he).mp hf, hrm⟩
  · rintro (⟨hnew, hrm⟩ | ⟨pre, entry, post, modelId', rfl, hf, hrm⟩)
    · exact ⟨[], e, rest, modelId, rfl, (fresh_nil he).mpr ⟨rfl, hnew⟩, hrm⟩
    · exact ⟨e :: pre, entry, post, modelId', rfl, (fresh_cons he).mpr hf, hrm⟩

theorem collectEntries_spec (hread : st.readEntries = .ok (.ok models)) (seen : List String)
    (rest : List Json) :
    ((collectEntries st seen rest).Returns ↔ Collectable st models seen rest) ∧
      ∀ r, collectEntries st seen rest = .ok r →
        ∀ rm, rm ∈ r ↔ Collected st models seen rest rm := by
  induction rest generalizing seen with
  | nil => simp [collectEntries, Collectable, Collected]
  | cons e rest ih =>
    cases he : printedId e with
    | error err =>
      refine ⟨?_, ?_⟩
      · refine iff_of_false (by simp [collectEntries, he, bind, Except.bind]) ?_
        intro h
        have hret := (h [] e rest rfl).1
        rw [he] at hret
        exact Except.not_returns_error _ hret
      · intro r h
        simp [collectEntries, he, bind, Except.bind] at h
    | ok modelId =>
      rw [collectable_cons he]
      simp only [collected_cons he]
      rw [collectEntries]
      simp only [he, bind, Except.bind]
      by_cases hnew : modelId = "" ∨ modelId ∈ seen
      · obtain ⟨hret, hmem⟩ := ih seen
        simpa [hnew, seenAfter] using And.intro hret hmem
      · obtain ⟨hret, hmem⟩ := ih (modelId :: seen)
        have hafter : seenAfter seen modelId = modelId :: seen := if_neg hnew
        simp only [hnew, if_false, not_false_eq_true, true_implies, hafter, true_and]
        cases hrm : RegisteredModel.fromDict e with
        | error err => simp
        | ok rm' =>
          by_cases hman : rm'.IsManaged
          · have hcond : ¬ (rm'.status ≠ "registered" ∨ rm'.storageMode ≠ "managed") := by
              simpa [RegisteredModel.IsManaged] using hman
            have hval := validate_eq_among hread modelId
            simp only [hcond, if_false, hval]
            cases hv : validateAmong st models modelId with
            | error err =>
              have hno : ¬ LookupAnswers st models modelId := by
                rw [← validateAmong_returns, hv]
                exact Except.not_returns_error _
              simp [hman, hno]
            | ok compat =>
              have hans : LookupAnswers st models modelId := by
                rw [← validateAmong_returns, hv]
                exact Except.returns_ok _
              have hadv := validateAmong_advertises hv
              cases hc : collectEntries st (modelId :: seen) rest with
              | error err =>
                rw [hc] at hret
                simp [hans, ← hret]
              | ok collected =>
                rw [hc] at hret
                have hmem := hmem collected hc
                refine ⟨by simp [hans, ← hret], ?_⟩
                intro r hr rm
                cases hr
                rw [← hmem]
                cases hb : compat.advertisable with
                | true =>
                  have := hadv.mp hb
                  simp only [if_true, List.mem_cons, Except.ok.injEq]
                  constructor
                  · rintro (rfl | h)
                    · exact .inl ⟨rfl, hman, this⟩
                    · exact .inr h
                  · rintro (⟨rfl, -, -⟩ | h)
                    · exact .inl rfl
                    · exact .inr h
                | false =>
                  have hnot : ¬ LookupAdvertises st models modelId := by
                    rw [← hadv, hb]
                    simp
                  simp [hnot]
          · have hcond : rm'.status ≠ "registered" ∨ rm'.storageMode ≠ "managed" := by
              rw [← not_and_or]
              exact hman
            simp only [hcond, if_true]
            refine ⟨?_, ?_⟩
            · rw [hret]
              simp [hman]
            · intro r hr rm
              rw [hmem r hr rm]
              constructor
              · exact .inr
              · rintro (⟨h, hm, -⟩ | h)
                · cases h
                  exact absurd hm hman
                · exact h

theorem collect_returns (hread : st.readEntries = .ok (.ok models)) :
    (collectAdvertisableRegisteredModels st).Returns ↔ Collectable st models [] models := by
  rw [← (collectEntries_spec hread [] models).1]
  simp [collectAdvertisableRegisteredModels, hread, bind, Except.bind, Except.Returns]
  cases collectEntries st [] models with
  | error e => simp
  | ok r => simp [pure, Except.pure]

theorem mem_collect (hread : st.readEntries = .ok (.ok models))
    (h : collectAdvertisableRegisteredModels st = .ok r) :
    rm ∈ r ↔ Collected st models [] models rm := by
  simp only [collectAdvertisableRegisteredModels, hread, bind, Except.bind] at h
  cases hc : collectEntries st [] models with
  | error e =>
    rw [hc] at h
    cases h
  | ok results =>
    rw [hc] at h
    cases h
    rw [List.mem_mergeSort]
    exact (collectEntries_spec hread [] models).2 results hc rm

/-- An entry that is the first under its printed id is also the first under that text, if the
text is what it holds. -/
theorem findEntry_first (hfirst : ∀ e ∈ pre, printedId e ≠ .ok modelId)
    (hid : entry.get "model_id" = .ok (some (.str modelId)))
    (h : findEntry modelId (pre ++ entry :: post) = .ok found) : found = some entry := by
  induction pre with
  | nil =>
    rw [List.nil_append, findEntry, hid] at h
    simp only [if_true] at h
    cases h
    rfl
  | cons e pre ih =>
    have ih := ih fun e' he' => hfirst e' (.tail _ he')
    rw [List.cons_append, findEntry] at h
    split at h
    · cases h
    · rename_i s hs
      split at h
      · rename_i heq
        refine absurd ?_ (hfirst e List.mem_cons_self)
        simp [printedId, Json.getD, hs, heq, Json.toStr, bind, Except.bind, pure, Except.pure]
      · exact ih h
    · exact ih h

end Whooshd.Store

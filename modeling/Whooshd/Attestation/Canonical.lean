import Whooshd.Attestation.Identity

namespace Whooshd.Attestation
set_option autoImplicit true

mutual

/-- A document that `json.loads` gives back. -/
def ofJson : Json → Value
  | .str s => .str s
  | .obj fields => .mapping (ofJsonFields fields)
  | _ => .other

def ofJsonFields : List (String × Json) → List (Key × Value)
  | [] => []
  | (k, v) :: fields => (.str k, ofJson v) :: ofJsonFields fields

end

section Documents

variable (t : TextForms)

def nfcKey : Key → Option String
  | .str s => some (t.nfc s)
  | .other => none

/-- A text that stands for something observed. -/
def Evidence (s : String) : Prop := s ≠ "" ∧ t.casefold s ∉ placeholders

mutual

/-- Evidence at the leaves, and at each level the keys that are asked for, each once. -/
def Fits : Value → Spec → Prop
  | .str s, .str => Evidence t s
  | .mapping items, .object fields =>
    (items.map fun item => nfcKey t item.1).Nodup ∧
      (∀ f ∈ fields, some f.1 ∈ items.map fun item => nfcKey t item.1) ∧ ItemsFit items fields
  | _, _ => False

def ItemsFit : List (Key × Value) → List (String × Spec) → Prop
  | [], _ => True
  | (key, value) :: items, fields =>
    (∃ name spec, nfcKey t key = some name ∧ fieldSpec fields name = some spec ∧ Fits value spec) ∧
      ItemsFit items fields

end

mutual

/-- The text at the end of a path of keys. -/
def textAt : Value → List String → Option String
  | .str s, [] => some s
  | .mapping items, name :: path => itemAt items name path
  | _, _ => none

def itemAt : List (Key × Value) → String → List String → Option String
  | [], _, _ => none
  | (key, value) :: items, name, path =>
    if nfcKey t key = some name then textAt value path else itemAt items name path

end

mutual

/-- The value with its keys and texts normalised, nothing else being checked. -/
def normal : Value → Json
  | .str s => .str (t.nfc s)
  | .mapping items => .obj (normalItems items)
  | .other => .null

def normalItems : List (Key × Value) → List (String × Json)
  | [] => []
  | (key, value) :: items => ((nfcKey t key).getD "", normal value) :: normalItems items

end

end Documents

mutual

/-- The paths to the texts of a document. -/
def Spec.leaves : Spec → List (List String)
  | .str => [[]]
  | .object fields => fieldLeaves fields

def fieldLeaves : List (String × Spec) → List (List String)
  | [] => []
  | (name, spec) :: fields => spec.leaves.map (name :: ·) ++ fieldLeaves fields

end

mutual

/-- The document with the given texts at its leaves. -/
def Spec.fill : Spec → (List String → String) → Json
  | .str, leaf => .str (leaf [])
  | .object fields, leaf => .obj (fillFields fields leaf)

def fillFields : List (String × Spec) → (List String → String) → List (String × Json)
  | [], _ => []
  | (name, spec) :: fields, leaf =>
    (name, spec.fill fun path => leaf (name :: path)) :: fillFields fields leaf

end

mutual

/-- No key is asked for twice. -/
def Spec.Distinct : Spec → Prop
  | .str => True
  | .object fields => (fields.map Prod.fst).Nodup ∧ DistinctFields fields

def DistinctFields : List (String × Spec) → Prop
  | [] => True
  | (_, spec) :: fields => spec.Distinct ∧ DistinctFields fields

end

/-- What holds of a text and, if it holds of its fields, of an object, holds of a specification. -/
@[elab_as_elim]
theorem Spec.rule {motive : Spec → Prop} (str : motive .str)
    (object : ∀ fields : List (String × Spec), (∀ f ∈ fields, motive f.2) →
      motive (.object fields)) :
    (spec : Spec) → motive spec
  | .str => str
  | .object fields => by
    refine object fields ?_
    intro f hf
    have : sizeOf f.2 < sizeOf fields := by
      have := List.sizeOf_lt_of_mem hf
      have : sizeOf f = 1 + sizeOf f.1 + sizeOf f.2 := rfl
      omega
    exact Spec.rule str object f.2

theorem v1DocumentSpec_distinct : v1DocumentSpec.Distinct := by
  simp [v1DocumentSpec, Spec.Distinct, DistinctFields]

variable {t : TextForms}

theorem validEvidence_iff {s : String} : validEvidence t s = true ↔ Evidence t s := by
  simp [validEvidence, Evidence]

theorem itemsFit_iff {items : List (Key × Value)} {fields : List (String × Spec)} :
    ItemsFit t items fields ↔ ∀ item ∈ items, ∃ name spec, nfcKey t item.1 = some name ∧
      fieldSpec fields name = some spec ∧ Fits t item.2 spec := by
  induction items with
  | nil => simp [ItemsFit]
  | cons item items ih => rw [ItemsFit, ih, List.forall_mem_cons]

theorem normalItems_eq (items : List (Key × Value)) :
    normalItems t items = items.map fun item => ((nfcKey t item.1).getD "", normal t item.2) := by
  induction items with
  | nil => rfl
  | cons item items ih => rw [normalItems, ih, List.map_cons]

theorem keys_normalItems {items : List (Key × Value)} {fields : List (String × Spec)}
    (h : ItemsFit t items fields) :
    ((normalItems t items).map Prod.fst).map some = items.map fun item => nfcKey t item.1 := by
  rw [normalItems_eq, List.map_map, List.map_map]
  apply List.map_congr_left
  intro item hitem
  obtain ⟨name, -, hname, -⟩ := itemsFit_iff.mp h item hitem
  simp [hname]

mutual

theorem normalizeObject_ok_iff : (value : Value) → (spec : Spec) → (path : String) → (j : Json) →
    (normalizeObject t value spec path = .ok j ↔ Fits t value spec ∧ j = normal t value)
  | .str s, .str, path, j => by
    rw [normalizeObject, Fits, ← validEvidence_iff, normal]
    by_cases h : validEvidence t s = true
    · rw [if_pos h]
      simp [h, eq_comm]
    · rw [if_neg h]
      simp [h]
  | .str s, .object fields, path, j => by simp [normalizeObject, Fits]
  | .other, .str, path, j => by simp [normalizeObject, Fits]
  | .other, .object fields, path, j => by simp [normalizeObject, Fits]
  | .mapping items, .str, path, j => by simp [normalizeObject, Fits]
  | .mapping items, .object fields, path, j => by
    rw [normalizeObject, Fits, normal]
    have hitems := normalizeItems_ok_iff items fields path []
    simp only [List.nil_append, List.map_nil, List.not_mem_nil, false_implies, implies_true,
      and_true] at hitems
    constructor
    · intro h
      obtain ⟨normalized, hok, h⟩ := Except.bind_eq_ok_iff.mp h
      obtain ⟨⟨hfit, hnodup⟩, rfl⟩ := (hitems normalized).mp hok
      by_cases hall : ∀ key ∈ fields.map Prod.fst, key ∈ (normalItems t items).map Prod.fst
      · rw [if_pos hall] at h
        cases h
        refine ⟨⟨hnodup, ?_, hfit⟩, rfl⟩
        intro f hf
        rw [← keys_normalItems hfit]
        exact List.mem_map_of_mem (hall f.1 (List.mem_map_of_mem hf))
      · rw [if_neg hall] at h
        cases h
    · rintro ⟨⟨hnodup, hall, hfit⟩, rfl⟩
      rw [Except.bind_eq_ok_iff]
      refine ⟨normalItems t items, (hitems _).mpr ⟨⟨hfit, hnodup⟩, rfl⟩, ?_⟩
      rw [if_pos]
      · rfl
      · intro key hkey
        obtain ⟨f, hf, rfl⟩ := List.mem_map.mp hkey
        have hmem := hall f hf
        rw [← keys_normalItems hfit, List.mem_map] at hmem
        obtain ⟨k, hk, hsame⟩ := hmem
        rwa [← Option.some.inj hsame]

theorem normalizeItems_ok_iff : (items : List (Key × Value)) → (fields : List (String × Spec)) →
    (path : String) → (taken normalized : List (String × Json)) →
    (normalizeItems t items fields path taken = .ok normalized ↔
      (ItemsFit t items fields ∧ (items.map fun item => nfcKey t item.1).Nodup ∧
        ∀ key ∈ taken.map Prod.fst, some key ∉ items.map fun item => nfcKey t item.1) ∧
        normalized = taken ++ normalItems t items)
  | [], fields, path, taken, normalized => by
    simp [normalizeItems, ItemsFit, normalItems, eq_comm]
  | (.other, value) :: items, fields, path, taken, normalized => by
    simp [normalizeItems, ItemsFit, nfcKey]
  | (.str rawKey, rawValue) :: items, fields, path, taken, normalized => by
    have hkey : nfcKey t (.str rawKey) = some (t.nfc rawKey) := rfl
    rw [normalizeItems, ItemsFit, normalItems]
    simp only [hkey, List.map_cons, List.nodup_cons, List.mem_cons, not_or, Option.getD_some]
    by_cases hdup : t.nfc rawKey ∈ taken.map Prod.fst
    · rw [if_pos hdup]
      constructor
      · intro h
        cases h
      · rintro ⟨⟨-, -, hnew⟩, -⟩
        exact absurd rfl (hnew _ hdup).1
    · rw [if_neg hdup]
      cases hspec : fieldSpec fields (t.nfc rawKey) with
      | none =>
        constructor
        · intro h
          cases h
        · rintro ⟨⟨⟨⟨name, spec, hname, hsome, -⟩, -⟩, -⟩, -⟩
          rw [← Option.some.inj hname, hspec] at hsome
          cases hsome
      | some spec =>
        have hvalue := normalizeObject_ok_iff rawValue spec s!"{path}.{t.nfc rawKey}"
        have hrest := normalizeItems_ok_iff items fields path
          (taken ++ [(t.nfc rawKey, normal t rawValue)]) normalized
        simp only [List.map_append, List.map_cons, List.map_nil, List.mem_append,
          List.mem_singleton, List.append_assoc, List.singleton_append] at hrest
        constructor
        · intro h
          obtain ⟨value, hok, h⟩ := Except.bind_eq_ok_iff.mp h
          obtain ⟨hfit, rfl⟩ := (hvalue value).mp hok
          obtain ⟨⟨hitems, hnodup, hnew⟩, rfl⟩ := hrest.mp h
          refine ⟨⟨⟨⟨_, spec, rfl, hspec, hfit⟩, hitems⟩, ⟨hnew _ (.inr rfl), hnodup⟩, ?_⟩, rfl⟩
          intro key htaken
          refine ⟨?_, hnew key (.inl htaken)⟩
          intro hsame
          exact hdup (Option.some.inj hsame ▸ htaken)
        · rintro ⟨⟨⟨⟨name, spec', hname, hsome, hfit⟩, hitems⟩, ⟨hfirst, hnodup⟩, hnew⟩, rfl⟩
          rw [← Option.some.inj hname, hspec] at hsome
          cases hsome
          rw [Except.bind_eq_ok_iff]
          refine ⟨_, (hvalue _).mpr ⟨hfit, rfl⟩, hrest.mpr ⟨⟨hitems, hnodup, ?_⟩, rfl⟩⟩
          intro key hkeys
          cases hkeys with
          | inl htaken => exact (hnew key htaken).2
          | inr hsame => rwa [hsame]

end

/-- What holds of a text and, if it holds of its values, of a mapping, holds of what fits. -/
@[elab_as_elim]
theorem Fits.rule {motive : Value → Spec → Prop}
    (str : ∀ s, Evidence t s → motive (.str s) .str)
    (mapping : ∀ items fields, (items.map fun item => nfcKey t item.1).Nodup →
      (∀ f ∈ fields, some f.1 ∈ items.map fun item => nfcKey t item.1) → ItemsFit t items fields →
      (∀ item ∈ items, ∀ spec, Fits t item.2 spec → motive item.2 spec) →
      motive (.mapping items) (.object fields)) :
    (value : Value) → (spec : Spec) → Fits t value spec → motive value spec
  | .str s, .str, h => str s h
  | .mapping items, .object fields, h => by
    refine mapping items fields h.1 h.2.1 h.2.2 ?_
    intro item hitem spec hfit
    have : sizeOf item.2 < sizeOf items := by
      have := List.sizeOf_lt_of_mem hitem
      have : sizeOf item = 1 + sizeOf item.1 + sizeOf item.2 := rfl
      omega
    exact Fits.rule str mapping item.2 spec hfit

theorem mem_of_fieldSpec {fields : List (String × Spec)} {name : String} {spec : Spec}
    (h : fieldSpec fields name = some spec) : (name, spec) ∈ fields := by
  obtain ⟨⟨name', spec'⟩, hfind, rfl⟩ := Option.map_eq_some_iff.mp h
  have hname := List.find?_some hfind
  rw [decide_eq_true_eq] at hname
  subst hname
  exact List.mem_of_find?_eq_some hfind

theorem fieldSpec_of_mem {fields : List (String × Spec)} (hkeys : (fields.map Prod.fst).Nodup)
    {name : String} {spec : Spec} (h : (name, spec) ∈ fields) :
    fieldSpec fields name = some spec := by
  rw [fieldSpec, Json.find?_member hkeys h]
  rfl

theorem distinctFields_iff {fields : List (String × Spec)} :
    DistinctFields fields ↔ ∀ f ∈ fields, f.2.Distinct := by
  induction fields with
  | nil => simp [DistinctFields]
  | cons f fields ih => rw [DistinctFields, ih, List.forall_mem_cons]

theorem itemAt_of_mem {items : List (Key × Value)}
    (hkeys : (items.map fun item => nfcKey t item.1).Nodup) {item : Key × Value}
    (hitem : item ∈ items) {name : String} (hname : nfcKey t item.1 = some name)
    (path : List String) : itemAt t items name path = textAt t item.2 path := by
  induction items with
  | nil => cases hitem
  | cons first items ih =>
    obtain ⟨key, value⟩ := first
    rw [itemAt]
    rw [List.map_cons, List.nodup_cons] at hkeys
    cases hitem with
    | head => rw [if_pos hname]
    | tail _ hrest =>
      rw [if_neg, ih hkeys.2 hrest]
      intro hfirst
      apply hkeys.1
      rw [hfirst, ← hname]
      exact List.mem_map_of_mem hrest

theorem itemAt_of_not_mem {items : List (Key × Value)} {name : String}
    (hname : some name ∉ items.map fun item => nfcKey t item.1) (path : List String) :
    itemAt t items name path = none := by
  induction items with
  | nil => rfl
  | cons first items ih =>
    obtain ⟨key, value⟩ := first
    rw [List.map_cons, List.mem_cons, not_or] at hname
    rw [itemAt, if_neg (Ne.symm hname.1), ih hname.2]

theorem exists_item {items : List (Key × Value)} {fields : List (String × Spec)}
    (hdistinct : (fields.map Prod.fst).Nodup)
    (hall : ∀ f ∈ fields, some f.1 ∈ items.map fun item => nfcKey t item.1)
    (hfit : ItemsFit t items fields) {name : String} {spec : Spec} (h : (name, spec) ∈ fields) :
    ∃ item ∈ items, nfcKey t item.1 = some name ∧ Fits t item.2 spec := by
  obtain ⟨item, hitem, hname⟩ := List.mem_map.mp (hall _ h)
  obtain ⟨name', spec', hname', hspec, hvalue⟩ := itemsFit_iff.mp hfit item hitem
  have hsame := Option.some.inj (hname'.symm.trans hname)
  rw [hsame, fieldSpec_of_mem hdistinct h] at hspec
  exact ⟨item, hitem, hname, Option.some.inj hspec ▸ hvalue⟩

theorem mem_fieldLeaves {fields : List (String × Spec)} {path : List String} :
    path ∈ fieldLeaves fields ↔
      ∃ name spec rest, (name, spec) ∈ fields ∧ rest ∈ spec.leaves ∧ path = name :: rest := by
  induction fields with
  | nil => simp [fieldLeaves]
  | cons f fields ih =>
    obtain ⟨name, spec⟩ := f
    rw [fieldLeaves, List.mem_append, ih, List.mem_map]
    constructor
    · rintro (⟨rest, hrest, rfl⟩ | ⟨name', spec', rest, hmem, hrest, rfl⟩)
      · exact ⟨name, spec, rest, List.mem_cons_self, hrest, rfl⟩
      · exact ⟨name', spec', rest, List.mem_cons_of_mem _ hmem, hrest, rfl⟩
    · rintro ⟨name', spec', rest, hmem, hrest, rfl⟩
      cases hmem with
      | head => exact .inl ⟨rest, hrest, rfl⟩
      | tail _ hmem => exact .inr ⟨name', spec', rest, hmem, hrest, rfl⟩

theorem Fits.textAt_leaf {value : Value} {spec : Spec} (h : Fits t value spec) :
    spec.Distinct → ∀ path ∈ spec.leaves, ∃ s, textAt t value path = some s ∧ Evidence t s := by
  refine Fits.rule ?_ ?_ value spec h
  · intro s hs _ path hpath
    rw [Spec.leaves, List.mem_singleton] at hpath
    rw [hpath]
    exact ⟨s, rfl, hs⟩
  · intro items fields hkeys hall hfit ih hdistinct path hpath
    obtain ⟨name, spec, rest, hmem, hrest, rfl⟩ := mem_fieldLeaves.mp hpath
    obtain ⟨item, hitem, hname, hvalue⟩ := exists_item hdistinct.1 hall hfit hmem
    obtain ⟨s, hs, hevidence⟩ := ih item hitem spec hvalue
      (distinctFields_iff.mp hdistinct.2 _ hmem) rest hrest
    exact ⟨s, (itemAt_of_mem hkeys hitem hname rest).trans hs, hevidence⟩

theorem Fits.textTree {value : Value} {spec : Spec} (h : Fits t value spec) :
    (normal t value).TextTree := by
  refine Fits.rule ?_ ?_ value spec h
  · intro s _
    trivial
  · intro items fields hkeys _ hfit ih
    rw [normal, Json.TextTree, Json.textTrees_iff]
    constructor
    · apply List.Nodup.of_map some
      rw [keys_normalItems hfit]
      exact hkeys
    · intro f hf
      rw [normalItems_eq, List.mem_map] at hf
      obtain ⟨item, hitem, rfl⟩ := hf
      obtain ⟨name, spec, -, -, hvalue⟩ := itemsFit_iff.mp hfit item hitem
      exact ih item hitem spec hvalue

theorem fillFields_eq (fields : List (String × Spec)) (leaf : List String → String) :
    fillFields fields leaf =
      fields.map fun f => (f.1, f.2.fill fun path => leaf (f.1 :: path)) := by
  induction fields with
  | nil => rfl
  | cons f fields ih => rw [fillFields, ih, List.map_cons]

theorem keys_fillFields (fields : List (String × Spec)) (leaf : List String → String) :
    (fillFields fields leaf).map Prod.fst = fields.map Prod.fst := by
  rw [fillFields_eq, List.map_map]
  rfl

theorem Spec.fill_textTree (spec : Spec) (leaf : List String → String) (h : spec.Distinct) :
    (spec.fill leaf).TextTree := by
  induction spec using Spec.rule generalizing leaf with
  | str => trivial
  | object fields ih =>
    rw [Spec.fill, Json.TextTree, keys_fillFields, Json.textTrees_iff, fillFields_eq]
    refine ⟨h.1, ?_⟩
    intro member hmember
    obtain ⟨f, hf, rfl⟩ := List.mem_map.mp hmember
    exact ih f hf _ (distinctFields_iff.mp h.2 f hf)

theorem Spec.fill_congr (spec : Spec) (f g : List String → String)
    (h : ∀ path ∈ spec.leaves, f path = g path) : spec.fill f = spec.fill g := by
  induction spec using Spec.rule generalizing f g with
  | str => rw [Spec.fill, Spec.fill, h [] (by simp [Spec.leaves])]
  | object fields ih =>
    rw [Spec.fill, Spec.fill, fillFields_eq, fillFields_eq]
    congr 1
    apply List.map_congr_left
    intro field hfield
    rw [ih field hfield]
    intro path hpath
    exact h _ (mem_fieldLeaves.mpr ⟨field.1, field.2, path, hfield, hpath, rfl⟩)

theorem Spec.fill_cancel (spec : Spec) (hdistinct : spec.Distinct) (f g : List String → String)
    (h : (spec.fill f).sortKeys = (spec.fill g).sortKeys) :
    ∀ path ∈ spec.leaves, f path = g path := by
  induction spec using Spec.rule generalizing f g with
  | str =>
    intro path hpath
    rw [Spec.leaves, List.mem_singleton] at hpath
    rw [hpath]
    exact Json.str.inj h
  | object fields ih =>
    intro path hpath
    obtain ⟨name, spec, rest, hmem, hrest, rfl⟩ := mem_fieldLeaves.mp hpath
    refine ih (name, spec) hmem (distinctFields_iff.mp hdistinct.2 _ hmem)
      (fun path => f (name :: path)) (fun path => g (name :: path)) ?_ rest hrest
    have hsorted := Json.obj.inj h
    -- a member on one side stands on the other, where no member but that of the same key fits
    have hleft : (name, (spec.fill fun path => f (name :: path)).sortKeys) ∈
        (Json.sortKeysFields (fillFields fields f)).insertionSort (fun a b => a.1 ≤ b.1) := by
      rw [List.mem_insertionSort, Json.sortKeysFields_eq, fillFields_eq, List.map_map,
        List.mem_map]
      exact ⟨_, hmem, rfl⟩
    rw [hsorted, List.mem_insertionSort, Json.sortKeysFields_eq, fillFields_eq, List.map_map,
      List.mem_map] at hleft
    obtain ⟨other, hother, hsame⟩ := hleft
    obtain ⟨hname, hvalue⟩ := Prod.mk.inj hsame
    obtain rfl := List.inj_on_of_nodup_map hdistinct.1 hother hmem hname
    exact hvalue.symm

end Whooshd.Attestation

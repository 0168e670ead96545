import Whooshd.Context

namespace Whooshd
set_option autoImplicit true

open ThreadWake (ChatMessage)

/-- `len` of a JSON value, which only a text, a list and a dict have. -/
def pyLen : Json → Option Nat
  | .str s => some s.length
  | .arr items => some items.length
  | .obj fields => some fields.length
  | _ => none

/-- The part says that it is of type `text`. -/
def typedText (fields : List (String × Json)) : Bool :=
  match Json.field? "type" fields with
  | some (.str t) => t = "text"
  | _ => false

/-- What a content part adds to the estimate. Nothing is a `TypeError`. -/
def partChars : Json → Option Nat
  | .obj fields =>
    if typedText fields then
      match Json.field? "text" fields with
      | none => some 0
      | some text => pyLen text
    else some 0
  | _ => some 0

def messageChars (total : Nat) (m : ChatMessage) : Option Nat :=
  match m.content with
  | .str text => some (total + text.length)
  | .arr parts => parts.foldlM (fun total part => (partChars part).map (total + ·)) total
  | _ => some total

/-- `_estimade_prompt_chars`. -/
def estimadePromptChars (messages : List ChatMessage) : Option Nat :=
  messages.foldlM messageChars 0

/-- The estimate of the characters returns, and is the length of the chunks of text that the
token budget is computed from. -/
def ReadersAgree (messages : List ChatMessage) : Prop :=
  estimadePromptChars messages =
    some (((messages.foldl collectMessage .empty).chunks.map String.length).sum)

/-- The text of a part of type `text` has a length if it is there. -/
def Countable : Json → Prop
  | .obj fields => typedText fields = true →
    ∀ text, Json.field? "text" fields = some text → (pyLen text).isSome = true
  | _ => True

/-- The size of a list or dict that stands as the text of a part of type `text`. -/
def containerText : Json → Nat
  | .obj fields =>
    if typedText fields then
      match Json.field? "text" fields with
      | some (.arr items) => items.length
      | some (.obj members) => members.length
      | _ => 0
    else 0
  | _ => 0

/-- The length of the text of a part without a type. -/
def untypedText : Json → Nat
  | .obj fields =>
    if typedText fields then 0
    else if isTextPart fields then
      match Json.field? "text" fields with
      | some (.str text) => text.length
      | _ => 0
    else 0
  | _ => 0

def contentParts (m : ChatMessage) : List Json :=
  match m.content with
  | .arr parts => parts
  | _ => []

/-- Every part can be counted, and what is counted without being text makes up for the text that
is not counted. -/
def PartsBalanced (messages : List ChatMessage) : Prop :=
  (∀ part ∈ messages.flatMap contentParts, Countable part) ∧
    ((messages.flatMap contentParts).map containerText).sum =
      ((messages.flatMap contentParts).map untypedText).sum

theorem isTextPart_of_typed (h : typedText fields = true) : isTextPart fields = true := by
  rw [typedText] at h
  rw [isTextPart]
  split at h
  · next htype =>
    rw [htype]
    exact h
  · cases h

theorem textChunk_length (text : String) :
    ((textChunk (some text)).map String.length).sum = text.length := by
  rw [textChunk]
  split
  · next h => rw [h]; rfl
  · exact Nat.add_zero _

/-- The two readers of a part differ by what each of them alone counts. -/
theorem partChars_spec {part : Json} (h : Countable part) : ∃ n, partChars part = some n ∧
    n + untypedText part = ((partChunks part).map String.length).sum + containerText part := by
  cases part with
  | obj fields =>
    rw [partChars, partChunks, untypedText, containerText]
    by_cases htyped : typedText fields = true
    · rw [if_pos htyped, if_pos htyped, if_pos htyped, if_pos (isTextPart_of_typed htyped)]
      have hlen := h htyped
      cases htext : Json.field? "text" fields with
      | none => exact ⟨0, rfl, rfl⟩
      | some text =>
        cases text with
        | str text =>
          refine ⟨text.length, rfl, ?_⟩
          dsimp only
          rw [textChunk_length]
        | arr items => exact ⟨items.length, rfl, (Nat.zero_add _).symm⟩
        | obj members => exact ⟨members.length, rfl, (Nat.zero_add _).symm⟩
        | _ => cases hlen _ htext
    · rw [if_neg htyped, if_neg htyped, if_neg htyped]
      refine ⟨0, rfl, ?_⟩
      rw [Nat.zero_add, Nat.add_zero]
      split
      · cases Json.field? "text" fields with
        | none => rfl
        | some text =>
          cases text with
          | str text => exact (textChunk_length text).symm
          | _ => rfl
      · rfl
  | _ => exact ⟨0, rfl, rfl⟩

theorem partChars_none {part : Json} (h : ¬Countable part) : partChars part = none := by
  cases part with
  | obj fields =>
    simp only [Countable, Classical.not_imp, not_forall] at h
    obtain ⟨htyped, text, htext, hlen⟩ := h
    rw [partChars, if_pos htyped, htext]
    exact Option.not_isSome_iff_eq_none.mp hlen
  | _ => exact absurd trivial h

theorem countParts_none {parts : List Json} (hmem : part ∈ parts) (h : ¬Countable part)
    (total : Nat) :
    parts.foldlM (fun total part => (partChars part).map (total + ·)) total = none := by
  induction parts generalizing total with
  | nil => cases hmem
  | cons p parts ih =>
    rw [List.foldlM_cons]
    rcases List.mem_cons.mp hmem with rfl | hmem
    · rw [partChars_none h]
      rfl
    · cases partChars p with
      | none => rfl
      | some n => exact ih hmem (total + n)

theorem countParts_spec {parts : List Json} (h : ∀ part ∈ parts, Countable part) (total : Nat) :
    ∃ n, parts.foldlM (fun total part => (partChars part).map (total + ·)) total = some n ∧
      n + (parts.map untypedText).sum = total +
        ((parts.flatMap partChunks).map String.length).sum + (parts.map containerText).sum := by
  induction parts generalizing total with
  | nil => exact ⟨total, rfl, rfl⟩
  | cons p parts ih =>
    obtain ⟨n, hn, hsum⟩ := partChars_spec (h p List.mem_cons_self)
    have htail : ∀ part ∈ parts, Countable part := fun part hpart =>
      h part (List.mem_cons_of_mem p hpart)
    obtain ⟨k, hk, hrest⟩ := ih htail (total + n)
    refine ⟨k, ?_, ?_⟩
    · rw [List.foldlM_cons, hn]
      exact hk
    · simp only [List.map_cons, List.sum_cons, List.flatMap_cons, List.map_append,
        List.sum_append]
      omega

theorem messageChars_none {m : ChatMessage} (hmem : part ∈ contentParts m) (h : ¬Countable part)
    (total : Nat) : messageChars total m = none := by
  rw [contentParts] at hmem
  rw [messageChars]
  cases hcontent : m.content with
  | arr parts =>
    rw [hcontent] at hmem
    exact countParts_none hmem h total
  | _ =>
    rw [hcontent] at hmem
    cases hmem

theorem messageChars_spec {m : ChatMessage} (h : ∀ part ∈ contentParts m, Countable part)
    (total : Nat) : ∃ n, messageChars total m = some n ∧
      n + ((contentParts m).map untypedText).sum = total +
        ((messageChunks m).map String.length).sum +
          ((contentParts m).map containerText).sum := by
  rw [contentParts] at h ⊢
  rw [messageChars, messageChunks]
  cases hcontent : m.content with
  | str text =>
    refine ⟨total + text.length, rfl, ?_⟩
    dsimp only
    rw [textChunk_length]
    rfl
  | arr parts =>
    rw [hcontent] at h
    exact countParts_spec h total
  | _ => exact ⟨total, rfl, rfl⟩

theorem countMessages_none {messages : List ChatMessage}
    (hmem : part ∈ messages.flatMap contentParts) (h : ¬Countable part) (total : Nat) :
    messages.foldlM messageChars total = none := by
  induction messages generalizing total with
  | nil => cases hmem
  | cons m messages ih =>
    rw [List.flatMap_cons, List.mem_append] at hmem
    rw [List.foldlM_cons]
    rcases hmem with hmem | hmem
    · rw [messageChars_none hmem h]
      rfl
    · cases messageChars total m with
      | none => rfl
      | some n => exact ih hmem n

theorem countMessages_spec {messages : List ChatMessage}
    (h : ∀ part ∈ messages.flatMap contentParts, Countable part) (total : Nat) :
    ∃ n, messages.foldlM messageChars total = some n ∧
      n + ((messages.flatMap contentParts).map untypedText).sum = total +
        ((messages.flatMap messageChunks).map String.length).sum +
          ((messages.flatMap contentParts).map containerText).sum := by
  induction messages generalizing total with
  | nil => exact ⟨total, rfl, rfl⟩
  | cons m messages ih =>
    rw [List.flatMap_cons] at h
    obtain ⟨n, hn, hsum⟩ := messageChars_spec
      (fun part hpart => h part (List.mem_append_left _ hpart)) total
    obtain ⟨k, hk, hrest⟩ := ih (fun part hpart => h part (List.mem_append_right _ hpart)) n
    refine ⟨k, ?_, ?_⟩
    · rw [List.foldlM_cons, hn]
      exact hk
    · simp only [List.flatMap_cons, List.map_append, List.sum_append]
      omega

/-- The two readers agree exactly if every part can be counted and the lists and dicts counted
as text are as large as the texts without a type are long. -/
theorem readersAgree_iff (messages : List ChatMessage) :
    ReadersAgree messages ↔ PartsBalanced messages := by
  rw [ReadersAgree, collectMessages_eq, estimadePromptChars, PartsBalanced]
  simp only [Collected.plus, Collected.empty, List.nil_append]
  by_cases h : ∀ part ∈ messages.flatMap contentParts, Countable part
  · obtain ⟨n, hn, hsum⟩ := countMessages_spec h 0
    rw [hn, Option.some.injEq]
    constructor
    · intro heq
      exact ⟨h, by omega⟩
    · rintro ⟨-, heq⟩
      omega
  · constructor
    · intro heq
      simp only [not_forall] at h
      obtain ⟨part, hmem, hpart⟩ := h
      rw [countMessages_none hmem hpart] at heq
      cases heq
    · rintro ⟨hall, -⟩
      exact absurd hall h

/-- A part of type `text` whose text is null makes the estimate raise, and a part without a type
is not counted. -/
theorem readers_disagree :
    (¬ ∀ messages, ReadersAgree messages) ∧
      estimadePromptChars [⟨"user", .arr [.obj [("type", .str "text"), ("text", .null)]],
        none, none, none⟩] = none ∧
      estimadePromptChars [⟨"user", .arr [.obj [("text", .str "hello")]], none, none, none⟩] =
        some 0 := by
  refine ⟨?_, by decide, by decide⟩
  intro h
  have hraises := h [⟨"user", .arr [.obj [("type", .str "text"), ("text", .null)]],
    none, none, none⟩]
  rw [ReadersAgree] at hraises
  revert hraises
  decide

end Whooshd

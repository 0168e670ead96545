import Mathlib.Data.List.Sort

set_option autoImplicit true

/-- JSON values. A number that is not an integer is kept as the text it prints as. -/
inductive Json where
  | null
  | bool (b : Bool)
  | int (n : Int)
  | float (repr : String)
  | str (s : String)
  | arr (items : List Json)
  | obj (fields : List (String × Json))
  deriving Repr

namespace Json

def ofOption : Option String → Json
  | none => null
  | some s => str s

def field? (key : String) (fields : List (String × Json)) : Option Json :=
  (fields.find? (fun f => f.1 = key)).map Prod.snd

/-- Python's truth value. -/
def truthy : Json → Bool
  | null => false
  | bool b => b
  | int n => n ≠ 0
  | float repr => repr ≠ "0.0" && repr ≠ "-0.0"
  | str s => s ≠ ""
  | arr items => !items.isEmpty
  | obj fields => !fields.isEmpty

/-- The escapes of `json.dumps` with `ensure_ascii=False`. -/
def escapeChar (c : Char) : List Char :=
  if c = '"' then ['\\', '"']
  else if c = '\\' then ['\\', '\\']
  else if c = '\n' then ['\\', 'n']
  else if c = '\r' then ['\\', 'r']
  else if c = '\t' then ['\\', 't']
  else if c = '\x08' then ['\\', 'b']
  else if c = '\x0c' then ['\\', 'f']
  else if c.toNat < 32 then
    ['\\', 'u', '0', '0', Nat.digitChar (c.toNat / 16), Nat.digitChar (c.toNat % 16)]
  else [c]

def quote (s : String) : String :=
  "\"" ++ (String.ofList (s.toList.flatMap escapeChar) ++ "\"")

/-- The members of an object in the order of their keys. -/
def sortMembers (fields : List (String × String)) : List (String × String) :=
  fields.insertionSort (fun a b => a.1 ≤ b.1)

def member (f : String × String) : String := quote f.1 ++ (":" ++ f.2)

mutual

/-- `json.dumps` with sorted keys and no blanks. -/
def dumps : Json → String
  | null => "null"
  | bool b => if b then "true" else "false"
  | int n => toString n
  | float repr => repr
  | str s => quote s
  | arr items => "[" ++ (",".intercalate (dumpsItems items) ++ "]")
  | obj fields =>
    "\x7b" ++ (",".intercalate ((sortMembers (dumpsFields fields)).map member) ++ "\x7d")

def dumpsItems : List Json → List String
  | [] => []
  | v :: vs => dumps v :: dumpsItems vs

def dumpsFields : List (String × Json) → List (String × String)
  | [] => []
  | (k, v) :: fs => (k, dumps v) :: dumpsFields fs

end

end Json

/-- The end of a code word can be told from what follows it. -/
def SelfDelimiting (encode : α → String) : Prop :=
  ∀ a b u v, encode a ++ u = encode b ++ v → a = b ∧ u = v

namespace Json

/-- The characters with an escape of one letter. -/
def shortEscapes : List (Char × Char) :=
  [('"', '"'), ('\\', '\\'), ('\n', 'n'), ('\r', 'r'), ('\t', 't'), ('\x08', 'b'), ('\x0c', 'f')]

theorem escapeChar_cases (c : Char) :
    (∃ e, (c, e) ∈ shortEscapes ∧ escapeChar c = ['\\', e]) ∨
    (c.toNat < 32 ∧ escapeChar c =
      ['\\', 'u', '0', '0', Nat.digitChar (c.toNat / 16), Nat.digitChar (c.toNat % 16)]) ∨
    (c ≠ '\\' ∧ c ≠ '"' ∧ 32 ≤ c.toNat ∧ escapeChar c = [c]) := by
  have hshort : ∀ e, (c, e) ∈ shortEscapes → escapeChar c = ['\\', e] := by
    intro e he
    have hall : ∀ p ∈ shortEscapes, escapeChar p.1 = ['\\', p.2] := by decide
    exact hall (c, e) he
  by_cases hs : ∃ e, (c, e) ∈ shortEscapes
  · obtain ⟨e, he⟩ := hs
    exact .inl ⟨e, he, hshort e he⟩
  · have hne : ∀ p ∈ shortEscapes, c ≠ p.1 := by
      rintro ⟨d, e⟩ hp rfl
      exact hs ⟨e, hp⟩
    simp only [shortEscapes, List.forall_mem_cons, List.not_mem_nil, false_implies, implies_true,
      and_true] at hne
    obtain ⟨h₁, h₂, h₃, h₄, h₅, h₆, h₇⟩ := hne
    simp only [escapeChar, if_neg h₁, if_neg h₂, if_neg h₃, if_neg h₄, if_neg h₅, if_neg h₆,
      if_neg h₇]
    by_cases hc : c.toNat < 32
    · exact .inr (.inl ⟨hc, if_pos hc⟩)
    · exact .inr (.inr ⟨h₂, h₁, Nat.not_lt.mp hc, if_neg hc⟩)

theorem escapeChar_head (c : Char) : escapeChar c = [c] ∧ c ≠ '\\' ∧ c ≠ '"' ∨
    ∃ l, escapeChar c = '\\' :: l := by
  rcases escapeChar_cases c with ⟨e, -, he⟩ | ⟨-, he⟩ | ⟨h₁, h₂, -, he⟩
  · exact .inr ⟨_, he⟩
  · exact .inr ⟨_, he⟩
  · exact .inl ⟨he, h₁, h₂⟩

def hexValue (c : Char) : Nat :=
  if c.isDigit then c.toNat - '0'.toNat else c.toNat - 'a'.toNat + 10

/-- Read one escaped character back. -/
def unescapeChar : List Char → Option (Char × List Char)
  | '\\' :: '"' :: x => some ('"', x)
  | '\\' :: '\\' :: x => some ('\\', x)
  | '\\' :: 'n' :: x => some ('\n', x)
  | '\\' :: 'r' :: x => some ('\r', x)
  | '\\' :: 't' :: x => some ('\t', x)
  | '\\' :: 'b' :: x => some ('\x08', x)
  | '\\' :: 'f' :: x => some ('\x0c', x)
  | '\\' :: 'u' :: '0' :: '0' :: a :: b :: x =>
    some (Char.ofNat (16 * hexValue a + hexValue b), x)
  | c :: x => some (c, x)
  | [] => none

theorem hexValue_digits : ∀ n < 32,
    16 * hexValue (Nat.digitChar (n / 16)) + hexValue (Nat.digitChar (n % 16)) = n := by
  decide

theorem unescapeChar_short : ∀ p ∈ shortEscapes, ∀ x,
    unescapeChar ('\\' :: p.2 :: x) = some (p.1, x) := by
  simp [shortEscapes, unescapeChar]

theorem unescapeChar_escapeChar (c : Char) (x : List Char) :
    unescapeChar (escapeChar c ++ x) = some (c, x) := by
  rcases escapeChar_cases c with ⟨e, hp, he⟩ | ⟨hc, he⟩ | ⟨hc, -, -, he⟩
  · rw [he]
    exact unescapeChar_short (c, e) hp x
  · rw [he]
    simp only [List.cons_append, List.nil_append, unescapeChar, hexValue_digits _ hc,
      Char.ofNat_toNat]
  · rw [he]
    simp [unescapeChar, hc]

theorem escapeChar_cancel {c d : Char} {x y : List Char}
    (h : escapeChar c ++ x = escapeChar d ++ y) : c = d ∧ x = y := by
  have h' := congrArg unescapeChar h
  simpa only [unescapeChar_escapeChar, Option.some.injEq, Prod.mk.injEq] using h'

theorem flatMap_escapeChar_cancel {cs ds x y : List Char}
    (h : cs.flatMap escapeChar ++ '"' :: x = ds.flatMap escapeChar ++ '"' :: y) :
    cs = ds ∧ x = y := by
  have hq : ∀ (c : Char) (u v : List Char), escapeChar c ++ u ≠ '"' :: v := by
    intro c u v hc
    obtain ⟨he, -, hne⟩ | ⟨l, he⟩ := escapeChar_head c
    · rw [he] at hc
      exact hne (List.cons.inj hc).1
    · rw [he] at hc
      exact absurd (List.cons.inj hc).1 (by decide)
  induction cs generalizing ds with
  | nil =>
    cases ds with
    | nil => exact ⟨rfl, (List.cons.inj h).2⟩
    | cons d ds =>
      simp only [List.flatMap_nil, List.nil_append, List.flatMap_cons, List.append_assoc] at h
      exact absurd h.symm (hq d _ _)
  | cons c cs ih =>
    cases ds with
    | nil =>
      simp only [List.flatMap_nil, List.nil_append, List.flatMap_cons, List.append_assoc] at h
      exact absurd h (hq c _ _)
    | cons d ds =>
      simp only [List.flatMap_cons, List.append_assoc] at h
      obtain ⟨rfl, h'⟩ := escapeChar_cancel h
      obtain ⟨rfl, hxy⟩ := ih h'
      exact ⟨rfl, hxy⟩

theorem quote_selfDelimiting : SelfDelimiting quote := by
  intro s t u v h
  have h' := congrArg String.toList h
  simp only [quote, String.toList_append, String.toList_ofList, List.append_assoc] at h'
  obtain ⟨hst, huv⟩ := flatMap_escapeChar_cancel (List.cons.inj h').2
  exact ⟨String.toList_inj.1 hst, String.toList_inj.1 huv⟩

theorem dumps_ofOption_selfDelimiting : SelfDelimiting (fun o => dumps (ofOption o)) := by
  intro a b u v h
  cases a with
  | none =>
    cases b with
    | none => exact ⟨rfl, String.append_right_inj _ |>.1 h⟩
    | some t =>
      have h' := congrArg (fun w => w.toList.head?) h
      simp [ofOption, dumps, quote] at h'
  | some s =>
    cases b with
    | none =>
      have h' := congrArg (fun w => w.toList.head?) h
      simp [ofOption, dumps, quote] at h'
    | some t =>
      obtain ⟨rfl, huv⟩ := quote_selfDelimiting s t u v (by simpa only [ofOption, dumps] using h)
      exact ⟨rfl, huv⟩

theorem member_selfDelimiting {encode : α → String} (he : SelfDelimiting encode) :
    SelfDelimiting (fun f : String × α => member (f.1, encode f.2)) := by
  intro f g u v h
  simp only [member, String.append_assoc] at h
  obtain ⟨hk, h'⟩ := quote_selfDelimiting _ _ _ _ h
  obtain ⟨hv, huv⟩ := he _ _ _ _ ((String.append_right_inj _).1 h')
  exact ⟨Prod.ext hk hv, huv⟩

theorem intercalate_cancel {encode : α → String} (he : SelfDelimiting encode) {l m : List α}
    {u v : String} (hlen : l.length = m.length)
    (h : ",".intercalate (l.map encode) ++ u = ",".intercalate (m.map encode) ++ v) : l = m := by
  induction l generalizing m with
  | nil => exact (List.length_eq_zero_iff.1 hlen.symm).symm
  | cons a l ih =>
    cases m with
    | nil => cases hlen
    | cons b m =>
      have hlen' : l.length = m.length := Nat.succ.inj hlen
      cases l with
      | nil =>
        rw [List.length_eq_zero_iff.1 hlen'.symm] at h ⊢
        simp only [List.map_cons, List.map_nil, String.intercalate_singleton] at h
        rw [(he a b u v h).1]
      | cons a' l =>
        cases m with
        | nil => cases hlen'
        | cons b' m =>
          simp only [List.map_cons, String.intercalate_cons_cons, String.append_assoc] at h
          obtain ⟨rfl, h'⟩ := he a b _ _ h
          rw [ih hlen' ((String.append_right_inj _).1 h')]

end Json

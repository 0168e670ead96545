import Whooshd.Library.Dict
import Whooshd.Library.Json

set_option autoImplicit true

namespace Json

def isBlank (c : Char) : Bool := c = ' ' || c = '\t' || c = '\n' || c = '\r'

def skipBlanks (cs : List Char) : List Char := cs.dropWhile isBlank

def hexDigit? (c : Char) : Option Nat :=
  if '0' ≤ c ∧ c ≤ '9' then some (c.toNat - '0'.toNat)
  else if 'a' ≤ c ∧ c ≤ 'f' then some (c.toNat - 'a'.toNat + 10)
  else if 'A' ≤ c ∧ c ≤ 'F' then some (c.toNat - 'A'.toNat + 10)
  else none

def readHex (a b c d : Char) : Option Nat := do
  let a ← hexDigit? a
  let b ← hexDigit? b
  let c ← hexDigit? c
  let d ← hexDigit? d
  return 16 * (16 * (16 * a + b) + c) + d

/-- What stands behind a backslash, `u` apart. -/
def shortEscape (c : Char) : Option Char :=
  match c with
  | '"' => some '"'
  | '\\' => some '\\'
  | '/' => some '/'
  | 'b' => some '\x08'
  | 'f' => some '\x0c'
  | 'n' => some '\n'
  | 'r' => some '\r'
  | 't' => some '\t'
  | _ => none

/-- The characters up to the closing quote. A surrogate without its partner is no character. -/
def readChars : List Char → Option (List Char × List Char)
  | [] => none
  | '"' :: cs => some ([], cs)
  | '\\' :: 'u' :: a :: b :: c :: d :: cs =>
    match readHex a b c d with
    | none => none
    | some high =>
      if 0xD800 ≤ high ∧ high < 0xDC00 then
        match cs with
        | '\\' :: 'u' :: a :: b :: c :: d :: cs =>
          match readHex a b c d with
          | none => none
          | some low =>
            if 0xDC00 ≤ low ∧ low < 0xE000 then
              (readChars cs).map fun r =>
                (Char.ofNat (0x10000 + 0x400 * (high - 0xD800) + (low - 0xDC00)) :: r.1, r.2)
            else none
        | _ => none
      else if 0xDC00 ≤ high ∧ high < 0xE000 then none
      else (readChars cs).map fun r => (Char.ofNat high :: r.1, r.2)
  | '\\' :: e :: cs =>
    match shortEscape e with
    | none => none
    | some c => (readChars cs).map fun r => (c :: r.1, r.2)
  | c :: cs => if c.toNat < 32 then none else (readChars cs).map fun r => (c :: r.1, r.2)

def digitsOf (cs : List Char) : List Char := cs.takeWhile Char.isDigit

/-- A fraction with its point; it is empty where no digit follows. -/
def fractionOf : List Char → List Char
  | '.' :: cs => if (digitsOf cs).isEmpty then [] else '.' :: digitsOf cs
  | _ => []

def exponentOf : List Char → List Char
  | [] => []
  | e :: cs =>
    let sign := cs.takeWhile (fun c => c = '+' || c = '-') |>.take 1
    let digits := digitsOf (cs.drop sign.length)
    if (e = 'e' || e = 'E') && !digits.isEmpty then e :: (sign ++ digits) else []

/-- The digits before the point: a zero stands alone. -/
def wholeOf : List Char → List Char
  | '0' :: _ => ['0']
  | cs => digitsOf cs

section Read

-- `repr(float(text))`
variable (reprFloat : String → String)

def readNumber (cs : List Char) : Option (Json × List Char) :=
  let sign := cs.take 1 |>.filter (· = '-')
  let unsigned := cs.drop sign.length
  let whole := wholeOf unsigned
  let fraction := fractionOf (unsigned.drop whole.length)
  let exponent := exponentOf (unsigned.drop (whole.length + fraction.length))
  let rest := unsigned.drop (whole.length + fraction.length + exponent.length)
  if whole.isEmpty then
    match cs with
    | 'N' :: 'a' :: 'N' :: rest => some (.float "NaN", rest)
    | 'I' :: 'n' :: 'f' :: 'i' :: 'n' :: 'i' :: 't' :: 'y' :: rest => some (.float "Infinity", rest)
    | '-' :: 'I' :: 'n' :: 'f' :: 'i' :: 'n' :: 'i' :: 't' :: 'y' :: rest =>
      some (.float "-Infinity", rest)
    | _ => none
  else if fraction.isEmpty && exponent.isEmpty then
    let n : Int := whole.foldl (fun n c => 10 * n + (c.toNat - '0'.toNat : Nat)) 0
    some (.int (if sign.isEmpty then n else -n), rest)
  else
    some (.float (reprFloat (String.ofList (sign ++ whole ++ fraction ++ exponent))), rest)

/-- The members as a dictionary takes them in: a later value replaces an earlier one. -/
def asDict (members : List (String × Json)) : List (String × Json) :=
  (members.foldl (fun d m => d.set m.1 m.2) Dict.empty).entries

mutual

def readValue : Nat → List Char → Option (Json × List Char)
  | 0, _ => none
  | n + 1, cs =>
    match cs with
    | '"' :: cs => (readChars cs).map fun r => (.str (String.ofList r.1), r.2)
    | '\x7b' :: cs =>
      match skipBlanks cs with
      | '\x7d' :: cs => some (.obj [], cs)
      | cs => (readMembers n cs).map fun r => (.obj (asDict r.1), r.2)
    | '[' :: cs =>
      match skipBlanks cs with
      | ']' :: cs => some (.arr [], cs)
      | cs => (readItems n cs).map fun r => (.arr r.1, r.2)
    | 'n' :: 'u' :: 'l' :: 'l' :: cs => some (.null, cs)
    | 't' :: 'r' :: 'u' :: 'e' :: cs => some (.bool true, cs)
    | 'f' :: 'a' :: 'l' :: 's' :: 'e' :: cs => some (.bool false, cs)
    | cs => readNumber reprFloat cs

def readItems : Nat → List Char → Option (List Json × List Char)
  | 0, _ => none
  | n + 1, cs => do
    let (v, cs) ← readValue n cs
    match skipBlanks cs with
    | ',' :: cs =>
      let (vs, cs) ← readItems n (skipBlanks cs)
      return (v :: vs, cs)
    | ']' :: cs => return ([v], cs)
    | _ => none

def readMembers : Nat → List Char → Option (List (String × Json) × List Char)
  | 0, _ => none
  | n + 1, '"' :: cs => do
    let (key, cs) ← readChars cs
    match skipBlanks cs with
    | ':' :: cs =>
      let (v, cs) ← readValue n (skipBlanks cs)
      match skipBlanks cs with
      | ',' :: cs =>
        let (members, cs) ← readMembers n (skipBlanks cs)
        return ((String.ofList key, v) :: members, cs)
      | '\x7d' :: cs => return ([(String.ofList key, v)], cs)
      | _ => none
    | _ => none
  | _ + 1, _ => none

end

/-- `json.loads` of a text. -/
def loads (text : String) : Option Json :=
  match readValue reprFloat (text.length + 1) (skipBlanks text.toList) with
  | some (v, rest) => if (skipBlanks rest).isEmpty then some v else none
  | none => none

/-- `json.loads` of bytes that hold UTF-8. -/
def loadsBytes (bytes : ByteArray) : Option Json :=
  (String.fromUTF8? bytes).bind (loads reprFloat)

end Read

mutual

/-- Texts, and objects with their keys in order. -/
def Ordered : Json → Prop
  | .str _ => True
  | .obj fields =>
    (fields.map Prod.fst).Pairwise (· ≤ ·) ∧ (fields.map Prod.fst).Nodup ∧ OrderedFields fields
  | _ => False

def OrderedFields : List (String × Json) → Prop
  | [] => True
  | (_, v) :: fields => Ordered v ∧ OrderedFields fields

end

theorem hexDigit?_digitChar : ∀ n < 16, hexDigit? (Nat.digitChar n) = some n := by decide

theorem readHex_digits {n : Nat} (h : n < 32) :
    readHex '0' '0' (Nat.digitChar (n / 16)) (Nat.digitChar (n % 16)) = some n := by
  have hhigh := hexDigit?_digitChar (n / 16) (by omega)
  have hlow := hexDigit?_digitChar (n % 16) (by omega)
  have hzero : hexDigit? '0' = some 0 := by decide
  simp only [readHex, hzero, hhigh, hlow, Option.bind_eq_bind, Option.bind_some, Option.pure_def,
    Option.some.injEq]
  omega

theorem readChars_short : ∀ p ∈ shortEscapes, ∀ cs,
    readChars ('\\' :: p.2 :: cs) = (readChars cs).map fun r => (p.1 :: r.1, r.2) := by
  simp [shortEscapes, readChars, shortEscape]

theorem readChars_escapeChar (c : Char) (cs : List Char) :
    readChars (escapeChar c ++ cs) = (readChars cs).map fun r => (c :: r.1, r.2) := by
  rcases escapeChar_cases c with ⟨e, hp, he⟩ | ⟨hc, he⟩ | ⟨hbackslash, hquote, hc, he⟩
  · rw [he]
    exact readChars_short (c, e) hp cs
  · rw [he]
    have hhigh : ¬(0xD800 ≤ c.toNat ∧ c.toNat < 0xDC00) := by omega
    have hlow : ¬(0xDC00 ≤ c.toNat ∧ c.toNat < 0xE000) := by omega
    simp only [List.cons_append, List.nil_append, readChars, readHex_digits hc, if_neg hhigh,
      if_neg hlow, Char.ofNat_toNat]
  · rw [he, List.singleton_append, readChars]
    · rw [if_neg (by omega)]
    · exact hquote
    · intro a b d e cs' h
      exact absurd h hbackslash
    · intro e cs' h
      exact absurd h hbackslash

theorem readChars_text (s rest : List Char) :
    readChars (s.flatMap escapeChar ++ '"' :: rest) = some (s, rest) := by
  induction s with
  | nil => rfl
  | cons c s ih =>
    rw [List.flatMap_cons, List.append_assoc, readChars_escapeChar, ih]
    rfl

theorem dumpsFields_eq (fields : List (String × Json)) :
    dumpsFields fields = fields.map fun f => (f.1, dumps f.2) := by
  induction fields with
  | nil => rfl
  | cons f fields ih => rw [dumpsFields, ih, List.map_cons]

/-- The text of the members of an object in their own order. -/
def memberText (fields : List (String × Json)) : List Char :=
  (",".intercalate (fields.map fun f => member (f.1, dumps f.2))).toList

theorem dumps_ordered {fields : List (String × Json)} (h : Ordered (.obj fields)) :
    (dumps (.obj fields)).toList = '\x7b' :: (memberText fields ++ ['\x7d']) := by
  have hsorted : (dumpsFields fields).Pairwise fun a b => a.1 ≤ b.1 := by
    rw [dumpsFields_eq, List.pairwise_map]
    exact List.pairwise_map.mp h.1
  rw [dumps, sortMembers, hsorted.insertionSort_eq, dumpsFields_eq, List.map_map]
  simp [memberText, Function.comp_def]

theorem memberText_cons (key : String) (v : Json) (fields : List (String × Json)) :
    memberText ((key, v) :: fields) = '"' :: (key.toList.flatMap escapeChar ++ '"' :: ':' ::
      ((dumps v).toList ++ if fields = [] then [] else ',' :: memberText fields)) := by
  cases fields with
  | nil => simp [memberText, member, quote]
  | cons f fields => simp [memberText, member, quote]

theorem skipBlanks_cons {c : Char} (h : isBlank c = false) (cs : List Char) :
    skipBlanks (c :: cs) = c :: cs := by
  rw [skipBlanks, List.dropWhile_cons_of_neg (by simp [h])]

theorem dumps_head {v : Json} (h : Ordered v) :
    ∃ c cs, (dumps v).toList = c :: cs ∧ isBlank c = false := by
  cases v with
  | str s => exact ⟨'"', s.toList.flatMap escapeChar ++ ['"'], by simp [dumps, quote], by decide⟩
  | obj fields => exact ⟨'\x7b', _, dumps_ordered h, by decide⟩
  | null => cases h
  | bool b => cases h
  | int n => cases h
  | float repr => cases h
  | arr items => cases h

theorem skipBlanks_dumps {v : Json} (h : Ordered v) (rest : List Char) :
    skipBlanks ((dumps v).toList ++ rest) = (dumps v).toList ++ rest := by
  obtain ⟨c, cs, hcs, hc⟩ := dumps_head h
  rw [hcs, List.cons_append, skipBlanks_cons hc]

theorem asDict_eq {fields : List (String × Json)} (h : (fields.map Prod.fst).Nodup) :
    asDict fields = fields :=
  Dict.entries_foldl_set Dict.empty fields (by simpa [Dict.empty, Dict.keys] using h)

mutual

theorem readValue_dumps (reprFloat : String → String) : (v : Json) → Ordered v → ∀ n rest,
    (dumps v).toList.length ≤ n →
      readValue reprFloat n ((dumps v).toList ++ rest) = some (v, rest)
  | .str s, _ => by
    intro n rest hn
    cases n with
    | zero => simp [dumps, quote] at hn
    | succ n =>
      have htext : (dumps (.str s)).toList ++ rest =
          '"' :: (s.toList.flatMap escapeChar ++ '"' :: rest) := by simp [dumps, quote]
      rw [htext, readValue, readChars_text]
      simp
  | .obj fields, h => by
    intro n rest hn
    rw [dumps_ordered h] at hn ⊢
    cases n with
    | zero => simp at hn
    | succ n =>
      have hread := readMembers_text reprFloat fields h.2.2
      have hdict := asDict_eq h.2.1
      cases fields with
      | nil => rfl
      | cons f fields =>
        have hlength : (memberText (f :: fields)).length ≤ n := by
          rw [List.length_cons, List.length_append] at hn
          omega
        have hmembers := hread (by simp) n rest hlength
        obtain ⟨key, v⟩ := f
        rw [memberText_cons] at hmembers ⊢
        simp only [List.cons_append, List.append_assoc, List.nil_append] at hmembers ⊢
        rw [readValue, skipBlanks_cons (by decide)]
        simp [hmembers, hdict]

theorem readMembers_text (reprFloat : String → String) : (fields : List (String × Json)) →
    OrderedFields fields → fields ≠ [] → ∀ n rest, (memberText fields).length ≤ n →
      readMembers reprFloat n (memberText fields ++ '\x7d' :: rest) = some (fields, rest)
  | [], _, hne => absurd rfl hne
  | (key, v) :: fields, h, _ => by
    intro n rest hn
    rw [memberText_cons] at hn ⊢
    cases n with
    | zero => simp at hn
    | succ n =>
      simp only [List.length_cons, List.length_append] at hn
      have hv := fun rest => readValue_dumps reprFloat v h.1 n rest (by omega)
      simp only [List.cons_append, List.append_assoc]
      rw [readMembers, readChars_text]
      simp only [Option.bind_eq_bind, Option.bind_some, String.ofList_toList]
      rw [skipBlanks_cons (by decide)]
      simp only [skipBlanks_dumps h.1, hv, Option.bind_some]
      cases fields with
      | nil =>
        simp only [if_true, List.nil_append]
        rw [skipBlanks_cons (by decide)]
        rfl
      | cons f fields =>
        have hlength : (memberText (f :: fields)).length ≤ n := by
          simp only [reduceCtorEq, if_false, List.length_cons] at hn
          omega
        have hrest := readMembers_text reprFloat (f :: fields) h.2 (by simp) n rest hlength
        simp only [reduceCtorEq, if_false, List.cons_append]
        rw [skipBlanks_cons (by decide)]
        have hblank : skipBlanks (memberText (f :: fields) ++ '\x7d' :: rest) =
            memberText (f :: fields) ++ '\x7d' :: rest := by
          obtain ⟨key', v'⟩ := f
          rw [memberText_cons, List.cons_append, skipBlanks_cons (by decide)]
        simp only [hblank, hrest, Option.bind_some]
        rfl

end

/-- What is written is read back. -/
theorem loads_dumps (reprFloat : String → String) {v : Json} (h : Ordered v) :
    loads reprFloat (dumps v) = some v := by
  have hblank := skipBlanks_dumps h []
  have hread := readValue_dumps reprFloat v h ((dumps v).length + 1) []
    (Nat.le_succ_of_le (by rw [String.length_toList]))
  rw [List.append_nil] at hblank hread
  rw [loads, hblank, hread]
  rfl

theorem dumps_injective {v w : Json} (hv : Ordered v) (hw : Ordered w) (h : dumps v = dumps w) :
    v = w := by
  have hread := loads_dumps id hv
  rw [h, loads_dumps id hw, Option.some.injEq] at hread
  exact hread.symm

theorem loadsBytes_dumps (reprFloat : String → String) {v : Json} (h : Ordered v) :
    loadsBytes reprFloat (dumps v).toUTF8 = some v := by
  have htext : String.fromUTF8? (dumps v).toUTF8 = some (dumps v) :=
    dif_pos (dumps v).isValidUTF8
  rw [loadsBytes, htext, Option.bind_some, loads_dumps reprFloat h]

theorem find?_member {l : List (String × α)} (hkeys : (l.map Prod.fst).Nodup) {f : String × α}
    (h : f ∈ l) : l.find? (fun g => g.1 = f.1) = some f := by
  cases hfind : l.find? fun g => g.1 = f.1 with
  | none =>
    have := List.find?_eq_none.mp hfind f h
    simp at this
  | some g =>
    have hname := List.find?_some hfind
    rw [decide_eq_true_eq] at hname
    rw [List.inj_on_of_nodup_map hkeys (List.mem_of_find?_eq_some hfind) h hname]

mutual

/-- The value with the keys of each of its objects in order. -/
def sortKeys : Json → Json
  | .obj fields => .obj ((sortKeysFields fields).insertionSort (fun a b => a.1 ≤ b.1))
  | .arr items => .arr (sortKeysItems items)
  | v => v

def sortKeysItems : List Json → List Json
  | [] => []
  | v :: vs => sortKeys v :: sortKeysItems vs

def sortKeysFields : List (String × Json) → List (String × Json)
  | [] => []
  | (k, v) :: fields => (k, sortKeys v) :: sortKeysFields fields

end

mutual

/-- Texts, and objects with no key twice. -/
def TextTree : Json → Prop
  | .str _ => True
  | .obj fields => (fields.map Prod.fst).Nodup ∧ TextTrees fields
  | _ => False

def TextTrees : List (String × Json) → Prop
  | [] => True
  | (_, v) :: fields => TextTree v ∧ TextTrees fields

end

theorem sortKeysFields_eq (fields : List (String × Json)) :
    sortKeysFields fields = fields.map fun f => (f.1, sortKeys f.2) := by
  induction fields with
  | nil => rfl
  | cons f fields ih => rw [sortKeysFields, ih, List.map_cons]

theorem textTrees_iff {fields : List (String × Json)} :
    TextTrees fields ↔ ∀ f ∈ fields, TextTree f.2 := by
  induction fields with
  | nil => simp [TextTrees]
  | cons f fields ih => rw [TextTrees, ih, List.forall_mem_cons]

theorem orderedFields_iff {fields : List (String × Json)} :
    OrderedFields fields ↔ ∀ f ∈ fields, Ordered f.2 := by
  induction fields with
  | nil => simp [OrderedFields]
  | cons f fields ih => rw [OrderedFields, ih, List.forall_mem_cons]

theorem keys_sortKeysFields (fields : List (String × Json)) :
    (sortKeysFields fields).map Prod.fst = fields.map Prod.fst := by
  rw [sortKeysFields_eq, List.map_map]
  rfl

theorem pairwise_keys (l : List (String × α)) :
    (l.insertionSort (fun a b => a.1 ≤ b.1)).Pairwise (fun a b => a.1 ≤ b.1) := by
  have : Std.Total (fun a b : String × α => a.1 ≤ b.1) := ⟨fun a b => String.le_total a.1 b.1⟩
  have : IsTrans (String × α) (fun a b => a.1 ≤ b.1) := ⟨fun _ _ _ => String.le_trans⟩
  exact List.pairwise_insertionSort _ l

theorem sortMembers_of_perm {l m : List (String × String)} (hperm : l.Perm m)
    (hkeys : (l.map Prod.fst).Nodup) : sortMembers l = sortMembers m := by
  have hl := List.perm_insertionSort (fun a b : String × String => a.1 ≤ b.1) l
  have hm := List.perm_insertionSort (fun a b : String × String => a.1 ≤ b.1) m
  apply List.Perm.eq_of_pairwise _ (pairwise_keys l) (pairwise_keys m)
    (hl.trans (hperm.trans hm.symm))
  intro a b ha hb hab hba
  exact List.inj_on_of_nodup_map hkeys (hl.mem_iff.mp ha)
    (hperm.mem_iff.mpr (hm.mem_iff.mp hb)) (String.le_antisymm hab hba)

mutual

/-- The order of the keys does not show in what is written. -/
theorem dumps_sortKeys : (v : Json) → TextTree v → dumps (sortKeys v) = dumps v
  | .str _, _ => rfl
  | .obj fields, h => by
    have hfields := dumpsFields_sortKeys fields h.2
    rw [sortKeys, dumps, dumps, ← hfields]
    congr 3
    have hperm := (List.perm_insertionSort (fun a b : String × Json => a.1 ≤ b.1)
      (sortKeysFields fields)).map fun f => (f.1, dumps f.2)
    rw [← dumpsFields_eq, ← dumpsFields_eq] at hperm
    have hkeys : ((dumpsFields (sortKeysFields fields)).map Prod.fst).Nodup := by
      rw [hfields, dumpsFields_eq, List.map_map]
      exact h.1
    rw [sortMembers_of_perm hperm.symm hkeys]

theorem dumpsFields_sortKeys : (fields : List (String × Json)) → TextTrees fields →
    dumpsFields (sortKeysFields fields) = dumpsFields fields
  | [], _ => rfl
  | (k, v) :: fields, h => by
    rw [sortKeysFields, dumpsFields, dumpsFields, dumps_sortKeys v h.1,
      dumpsFields_sortKeys fields h.2]

end

mutual

theorem ordered_sortKeys : (v : Json) → TextTree v → Ordered (sortKeys v)
  | .str _, _ => trivial
  | .obj fields, h => by
    have hperm := List.perm_insertionSort (fun a b : String × Json => a.1 ≤ b.1)
      (sortKeysFields fields)
    refine ⟨List.pairwise_map.mpr (pairwise_keys _), ?_, ?_⟩
    · rw [(hperm.map Prod.fst).nodup_iff, keys_sortKeysFields]
      exact h.1
    · rw [orderedFields_iff]
      intro f hf
      exact orderedFields_iff.mp (orderedFields_sortKeys fields h.2) f (hperm.mem_iff.mp hf)

theorem orderedFields_sortKeys : (fields : List (String × Json)) → TextTrees fields →
    OrderedFields (sortKeysFields fields)
  | [], _ => trivial
  | (_, v) :: fields, h => ⟨ordered_sortKeys v h.1, orderedFields_sortKeys fields h.2⟩

end

theorem loadsBytes_dumps_sorted (reprFloat : String → String) {v : Json} (h : TextTree v) :
    loadsBytes reprFloat (dumps v).toUTF8 = some (sortKeys v) := by
  rw [← dumps_sortKeys v h]
  exact loadsBytes_dumps reprFloat (ordered_sortKeys v h)

/-- Two values are written alike only if they differ in the order of their keys at most. -/
theorem dumps_eq_iff {v w : Json} (hv : TextTree v) (hw : TextTree w) :
    dumps v = dumps w ↔ sortKeys v = sortKeys w := by
  rw [← dumps_sortKeys v hv, ← dumps_sortKeys w hw]
  constructor
  · exact dumps_injective (ordered_sortKeys v hv) (ordered_sortKeys w hw)
  · intro h
    rw [h]

end Json

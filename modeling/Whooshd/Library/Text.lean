import Mathlib.Algebra.Order.Ring.Int
import Mathlib.Data.Fintype.EquivFin
import Mathlib.Data.List.Basic
import Mathlib.Data.List.DropRight
import Mathlib.Data.List.Infix

set_option autoImplicit true

namespace Text

/-- White space as `str.strip` and `int` see it. -/
def isSpace (c : Char) : Bool :=
  let n := c.toNat
  (9 ≤ n && n ≤ 13) || (28 ≤ n && n ≤ 32) || n = 0x85 || n = 0xA0 || n = 0x1680 ||
    (0x2000 ≤ n && n ≤ 0x200A) || n = 0x2028 || n = 0x2029 || n = 0x202F || n = 0x205F ||
    n = 0x3000

/-- The characters without those that pass the test at either end. -/
def trimChars (p : Char → Bool) (cs : List Char) : List Char := (cs.dropWhile p).rdropWhile p

def trim (p : Char → Bool) (s : String) : String := String.ofList (trimChars p s.toList)

def strip (s : String) : String := trim isSpace s

def startsWith (pre s : String) : Bool := pre.toList.isPrefixOf s.toList

def endsWith (post s : String) : Bool := post.toList.isSuffixOf s.toList

def removeSuffix (post s : String) : String :=
  if endsWith post s then String.ofList (s.toList.take (s.length - post.length)) else s

/-- The first occurrence of one text in another. -/
def occursIn (part s : List Char) : Bool :=
  match s with
  | [] => part.isEmpty
  | c :: cs => part.isPrefixOf (c :: cs) || occursIn part cs

/-- `value or default` on an optional text: the empty text counts as absent. -/
def orElse (value : Option String) (default : String) : String :=
  match value with
  | none => default
  | some s => if s = "" then default else s

/-- The characters `a-z`, `A-Z`, `0-9`, `.`, `_` and `-`. -/
def isIdChar (c : Char) : Bool := c.isAlphanum || c ∈ ['.', '_', '-']

def isAscii (s : String) : Bool := s.toList.all fun c => c.toNat < 128

/-- `str.upper` and `str.lower`, which change the letters alone in a text of ASCII. -/
structure CaseMap where
  upper : String → String
  lower : String → String
  upper_ascii : ∀ s, isAscii s = true → upper s = String.ofList (s.toList.map Char.toUpper)
  lower_ascii : ∀ s, isAscii s = true → lower s = String.ofList (s.toList.map Char.toLower)

/-- The mapping of a text whose letters are those of ASCII. -/
def CaseMap.ascii : CaseMap where
  upper s := String.ofList (s.toList.map Char.toUpper)
  lower s := String.ofList (s.toList.map Char.toLower)
  upper_ascii _ _ := rfl
  lower_ascii _ _ := rfl

/-- The zeros of the decimal digit ranges of Unicode: each is followed by its nine. -/
def decimalZeros : List Nat :=
  [0x30, 0x660, 0x6F0, 0x7C0, 0x966, 0x9E6, 0xA66, 0xAE6, 0xB66, 0xBE6, 0xC66, 0xCE6, 0xD66,
    0xDE6, 0xE50, 0xED0, 0xF20, 0x1040, 0x1090, 0x17E0, 0x1810, 0x1946, 0x19D0, 0x1A80, 0x1A90,
    0x1B50, 0x1BB0, 0x1C40, 0x1C50, 0xA620, 0xA8D0, 0xA900, 0xA9D0, 0xA9F0, 0xAA50, 0xABF0,
    0xFF10, 0x104A0, 0x10D30, 0x11066, 0x110F0, 0x11136, 0x111D0, 0x112F0, 0x11450, 0x114D0,
    0x11650, 0x116C0, 0x11730, 0x118E0, 0x11950, 0x11C50, 0x11D50, 0x11DA0, 0x11F50, 0x16A60,
    0x16AC0, 0x16B50, 0x1D7CE, 0x1D7D8, 0x1D7E2, 0x1D7EC, 0x1D7F6, 0x1E140, 0x1E2F0, 0x1E4F0,
    0x1E950, 0x1FBF0]

def digitValue (c : Char) : Option Nat :=
  (decimalZeros.find? fun z => z ≤ c.toNat && c.toNat < z + 10).map (c.toNat - ·)

/-- Digits that may be separated by single underscores, most significant first. -/
def digits : List Char → Option (List Nat)
  | [] => none
  | [c] => (digitValue c).map ([·])
  | c :: '_' :: cs => do
    let d ← digitValue c
    let ds ← digits cs
    return d :: ds
  | c :: cs => do
    let d ← digitValue c
    let ds ← digits cs
    return d :: ds

def ofDigits (ds : List Nat) : Nat := ds.foldl (fun n d => 10 * n + d) 0

theorem length_intercalate (sep : String) (parts : List String) :
    (sep.intercalate parts).length =
      (parts.map (fun part => part.length + sep.length)).sum - sep.length := by
  induction parts with
  | nil => simp
  | cons part parts ih =>
    cases parts with
    | nil => simp
    | cons next parts =>
      rw [List.map_cons, List.sum_cons] at ih
      rw [String.intercalate_cons_cons, String.length_append, String.length_append, ih,
        List.map_cons, List.map_cons, List.sum_cons, List.sum_cons]
      omega

theorem occursIn_iff {part s : List Char} : occursIn part s = true ↔ part <:+: s := by
  induction s with
  | nil => rw [occursIn, List.isEmpty_iff, List.infix_nil]
  | cons c cs ih =>
    rw [occursIn, Bool.or_eq_true, List.isPrefixOf_iff_prefix, ih, List.infix_cons_iff]

theorem isAlphanum_lt {c : Char} (h : c.isAlphanum = true) : c.toNat < 128 := by
  delta Char.isAlphanum Char.isAlpha Char.isUpper Char.isLower Char.isDigit at h
  simp only [Bool.or_eq_true, Bool.and_eq_true, decide_eq_true_eq, UInt32.le_iff_toNat_le,
    ge_iff_le] at h
  change ((65 ≤ c.toNat ∧ c.toNat ≤ 90) ∨ (97 ≤ c.toNat ∧ c.toNat ≤ 122)) ∨
    (48 ≤ c.toNat ∧ c.toNat ≤ 57) at h
  omega

theorem isAlphanum_ge {c : Char} (h : c.isAlphanum = true) : 48 ≤ c.toNat := by
  delta Char.isAlphanum Char.isAlpha Char.isUpper Char.isLower Char.isDigit at h
  simp only [Bool.or_eq_true, Bool.and_eq_true, decide_eq_true_eq, UInt32.le_iff_toNat_le,
    ge_iff_le] at h
  change ((65 ≤ c.toNat ∧ c.toNat ≤ 90) ∨ (97 ≤ c.toNat ∧ c.toNat ≤ 122)) ∨
    (48 ≤ c.toNat ∧ c.toNat ≤ 57) at h
  omega

theorem toLower_cases (c : Char) :
    c.toLower = c ∨ (97 ≤ c.toLower.toNat ∧ c.toLower.toNat ≤ 122) := by
  unfold Char.toLower
  split
  · rename_i hup
    right
    obtain ⟨hlow, hhigh⟩ := hup
    rw [ge_iff_le, UInt32.le_iff_toNat_le] at hlow
    rw [UInt32.le_iff_toNat_le] at hhigh
    have hA : 'A'.val.toNat = 65 := rfl
    have hZ : 'Z'.val.toNat = 90 := rfl
    have hd : ('a'.val - 'A'.val).toNat = 32 := rfl
    have hsum : (c.val + ('a'.val - 'A'.val)).toNat = c.val.toNat + 32 := by
      rw [UInt32.toNat_add, hd]
      omega
    simp only [Char.toNat, hsum]
    omega
  · exact .inl rfl

theorem toLower_symbol {c : Char} (h : c.toLower.toNat < 97 ∨ 122 < c.toLower.toNat) :
    c.toLower = c := by
  cases toLower_cases c with
  | inl heq => exact heq
  | inr hletter => omega

theorem isLower_iff (c : Char) : c.isLower = true ↔ 97 ≤ c.toNat ∧ c.toNat ≤ 122 := by
  delta Char.isLower
  simp only [Bool.and_eq_true, decide_eq_true_eq, UInt32.le_iff_toNat_le, ge_iff_le]
  rfl

theorem isUpper_iff (c : Char) : c.isUpper = true ↔ 65 ≤ c.toNat ∧ c.toNat ≤ 90 := by
  delta Char.isUpper
  simp only [decide_eq_true_eq, UInt32.le_iff_toNat_le, ge_iff_le]
  rfl

theorem isAlpha_eq (c : Char) : c.isAlpha = (c.isUpper || c.isLower) := rfl

theorem isAlpha_toNat {c : Char} (h : c.isAlpha = true) : 65 ≤ c.toNat := by
  rw [isAlpha_eq, Bool.or_eq_true, isUpper_iff, isLower_iff] at h
  omega

theorem toLower_of_not_upper {c : Char} (h : c.isUpper = false) : c.toLower = c := by
  unfold Char.toLower
  rw [dif_neg]
  intro hup
  have htrue : c.isUpper = true := decide_eq_true hup
  exact Bool.false_ne_true (h.symm.trans htrue)

theorem toLower_toLower (c : Char) : c.toLower.toLower = c.toLower := by
  cases toLower_cases c with
  | inl h => rw [h, h]
  | inr h =>
    apply toLower_of_not_upper
    rw [← Bool.not_eq_true, isUpper_iff]
    omega

theorem exists_fresh (texts : List String) : ∃ s, s ∉ texts := by
  have hinj : Function.Injective fun n : Nat => String.ofList (List.replicate n 'a') := by
    intro n m h
    have hlen := congrArg (fun s => s.toList.length) h
    simpa using hlen
  have hinf : Infinite String := Infinite.of_injective _ hinj
  obtain ⟨s, hs⟩ := Infinite.exists_notMem_finset texts.toFinset
  exact ⟨s, by simpa using hs⟩

end Text

import Mathlib.Algebra.Group.Int.Defs
import Mathlib.Algebra.Group.Nat.Defs
import Whooshd.Library.Json
import Whooshd.Library.Text

set_option autoImplicit true

/-- The exceptions that the built-in conversions and the file system raise. -/
inductive PyError where
  | typeError | valueError | overflowError | attributeError | osError
  deriving DecidableEq, Repr

/-- What the interpreter brings along: the characters beyond ASCII that its Unicode table calls
printable, and how deep its recursion limit lets it go into a document. -/
class Interpreter where
  isPrintable : Char → Bool
  maxDepth : Nat
  two_le_maxDepth : 2 ≤ maxDepth

/-- The computation ends in a value and not in an exception. -/
def Except.Returns (x : Except ε α) : Prop := ∃ a, x = .ok a

/-- Two tests of which the second is made only if the first fails. -/
def Except.orTest (x y : Except ε Bool) : Except ε Bool := do
  if ← x then return true
  y

@[simp] theorem Except.map_of_ok (f : α → β) (a : α) :
    (Except.ok a : Except ε α).map f = .ok (f a) := rfl

@[simp] theorem Except.map_of_error (f : α → β) (e : ε) :
    (Except.error e : Except ε α).map f = .error e := rfl

theorem Except.map_after_map (f : α → β) (g : β → γ) (x : Except ε α) :
    (x.map f).map g = x.map fun a => g (f a) := by
  cases x <;> rfl

theorem Except.bind_eq_ok_iff {x : Except ε α} {f : α → Except ε β} {b : β} :
    (x >>= f) = .ok b ↔ ∃ a, x = .ok a ∧ f a = .ok b := by
  cases x with
  | error e => simp [bind, Except.bind]
  | ok a => simp [bind, Except.bind]

@[simp] theorem Except.returns_ok (a : α) : (Except.ok a : Except ε α).Returns := ⟨a, rfl⟩

@[simp] theorem Except.returns_pure (a : α) : (pure a : Except ε α).Returns := ⟨a, rfl⟩

@[simp] theorem Except.not_returns_error (e : ε) : ¬ (Except.error e : Except ε α).Returns := by
  rintro ⟨a, h⟩
  cases h

theorem Except.returns_bind {x : Except ε α} {f : α → Except ε β} :
    (x >>= f).Returns ↔ ∃ a, x = .ok a ∧ (f a).Returns := by
  cases x with
  | error e => simp [bind, Except.bind, Except.Returns]
  | ok a => simp [bind, Except.bind, Except.Returns]

theorem Except.map_eq_ok_iff {x : Except ε α} {f : α → β} {b : β} :
    x.map f = .ok b ↔ ∃ a, x = .ok a ∧ f a = b := by
  cases x with
  | error e => simp [Except.map]
  | ok a => simp [Except.map]

theorem Except.returns_map {x : Except ε α} {f : α → β} : (f <$> x).Returns ↔ x.Returns := by
  cases x with
  | error e => simp [Functor.map, Except.map, Except.Returns]
  | ok a => simp [Functor.map, Except.map, Except.Returns]

theorem Except.orTest_returns {x y : Except ε Bool} (hx : x.Returns) (hy : y.Returns) :
    (x.orTest y).Returns := by
  obtain ⟨a, rfl⟩ := hx
  cases a with
  | true => exact Except.returns_ok true
  | false => exact hy

namespace Json

/-- The longest run of decimal digits that `int` converts. -/
def maxStrDigits : Nat := 4300

/-- The value of a float, from the text it prints as. -/
inductive FloatValue where
  | nan
  | infinite
  /-- The mantissa times a power of ten. -/
  | finite (mantissa exponent : Int)
  deriving DecidableEq, Repr

def signed (neg : Bool) (n : Nat) : Int := if neg then -(n : Int) else n

def splitSign : List Char → Bool × List Char
  | '-' :: cs => (true, cs)
  | '+' :: cs => (false, cs)
  | cs => (false, cs)

def decimal (cs : List Char) : Nat := Text.ofDigits (cs.filterMap Text.digitValue)

def floatValue (repr : String) : FloatValue :=
  let (neg, cs) := splitSign repr.toList
  if cs = "nan".toList then .nan
  else if cs = "inf".toList then .infinite
  else
    let isDigit := fun c : Char => (Text.digitValue c).isSome
    let whole := cs.takeWhile isDigit
    let rest := cs.dropWhile isDigit
    let frac := if rest.head? = some '.' then (rest.drop 1).takeWhile isDigit else []
    let tail := if rest.head? = some '.' then (rest.drop 1).dropWhile isDigit else rest
    let exponent := match tail with
      | 'e' :: es => let (eneg, ds) := splitSign es; signed eneg (decimal ds)
      | _ => 0
    .finite (signed neg (decimal (whole ++ frac))) (exponent - frac.length)

/-- `int` on a text. -/
def intOfStr (s : String) : Except PyError Int :=
  let (neg, cs) := splitSign (Text.strip s).toList
  match Text.digits cs with
  | none => .error .valueError
  | some ds =>
    if maxStrDigits < ds.length then .error .valueError else .ok (signed neg (Text.ofDigits ds))

/-- `int` on a value of a JSON document. -/
def toInt : Json → Except PyError Int
  | null => .error .typeError
  | bool b => .ok (if b then 1 else 0)
  | int n => .ok n
  | float repr =>
    match floatValue repr with
    | .nan => .error .valueError
    | .infinite => .error .overflowError
    | .finite m e =>
      .ok (if 0 ≤ e then m * 10 ^ e.toNat else Int.tdiv m (10 ^ (-e).toNat))
  | str s => intOfStr s
  | arr _ => .error .typeError
  | obj _ => .error .typeError

/-- `list` on a value of a JSON document. -/
def toList : Json → Except PyError (List Json)
  | null => .error .typeError
  | bool _ => .error .typeError
  | int _ => .error .typeError
  | float _ => .error .typeError
  | str s => .ok (s.toList.map fun c => str (String.ofList [c]))
  | arr items => .ok items
  | obj fields => .ok (fields.map fun f => str f.1)

def isIterable : Json → Bool
  | null | bool _ | int _ | float _ => false
  | str _ | arr _ | obj _ => true

theorem toList_returns (v : Json) : v.toList.Returns ↔ v.isIterable = true := by
  cases v <;> simp [toList, isIterable]

/-- `v.get(key)`: only dictionaries have the method. -/
def get (v : Json) (key : String) : Except PyError (Option Json) :=
  match v with
  | obj fields => .ok (field? key fields)
  | _ => .error .attributeError

def getD (v : Json) (key : String) (default : Json) : Except PyError Json :=
  return (← v.get key).getD default

/-- The value of a key, or the default. -/
def fieldD (key : String) (default : Json) (fields : List (String × Json)) : Json :=
  (field? key fields).getD default

@[simp] theorem getD_obj (fields : List (String × Json)) (key : String) (default : Json) :
    (obj fields).getD key default = .ok (fieldD key default fields) := rfl

theorem getD_returns (v : Json) (key : String) (default : Json) :
    (v.getD key default).Returns ↔ ∃ fields, v = obj fields := by
  cases v <;> simp [getD, get, bind, Except.bind, pure, Except.pure]

/-- The last `width` digits of a number in base 16. -/
def hexDigits : Nat → Nat → List Char
  | 0, _ => []
  | width + 1, n => hexDigits width (n / 16) ++ [Nat.digitChar (n % 16)]

section
variable [Interpreter]

/-- `str.isprintable` on one character. -/
def isPrintable (c : Char) : Bool :=
  if c.toNat < 128 then 32 ≤ c.toNat && c.toNat ≠ 127 else Interpreter.isPrintable c

/-- The escapes of `repr` on a text, with the quote that encloses it. -/
def reprChar (q c : Char) : List Char :=
  if c = q || c = '\\' then ['\\', c]
  else if c = '\n' then ['\\', 'n']
  else if c = '\r' then ['\\', 'r']
  else if c = '\t' then ['\\', 't']
  else if isPrintable c then [c]
  else if c.toNat < 0x100 then '\\' :: 'x' :: hexDigits 2 c.toNat
  else if c.toNat < 0x10000 then '\\' :: 'u' :: hexDigits 4 c.toNat
  else '\\' :: 'U' :: hexDigits 8 c.toNat

def reprStr (s : String) : String :=
  let q := if s.toList.contains '\'' && !s.toList.contains '"' then '"' else '\''
  String.ofList ([q] ++ s.toList.flatMap (reprChar q) ++ [q])

mutual

/-- `repr` on a value of a JSON document. -/
def repr : Json → String
  | null => "None"
  | bool b => if b then "True" else "False"
  | int n => toString n
  | float r => r
  | str s => reprStr s
  | arr items => "[" ++ ", ".intercalate (reprItems items) ++ "]"
  | obj fields => "\x7b" ++ ", ".intercalate (reprFields fields) ++ "\x7d"

def reprItems : List Json → List String
  | [] => []
  | v :: vs => repr v :: reprItems vs

def reprFields : List (String × Json) → List String
  | [] => []
  | (k, v) :: fs => (reprStr k ++ ": " ++ repr v) :: reprFields fs

end

/-- `str` on a value of a JSON document. -/
def toStr : Json → String
  | str s => s
  | v => repr v

end

/-- The number that a value stands for in a comparison: truth values are numbers too. -/
def number? : Json → Option (Int × Int)
  | bool b => some (if b then 1 else 0, 0)
  | int n => some (n, 0)
  | float repr =>
    match floatValue repr with
    | .finite m e => some (m, e)
    | .nan | .infinite => none
  | null | str _ | arr _ | obj _ => none

def sameNumber (x y : Int × Int) : Bool :=
  let e := min x.2 y.2
  x.1 * 10 ^ (x.2 - e).toNat = y.1 * 10 ^ (y.2 - e).toNat

mutual

/-- `==` on values of JSON documents. -/
def pyEq : Json → Json → Bool
  | null, null => true
  | str a, str b => a = b
  | arr a, arr b => pyEqItems a b
  | obj a, obj b => a.length = b.length && pyEqFields a b
  | a, b =>
    match number? a, number? b with
    | some x, some y => sameNumber x y
    | _, _ => false

def pyEqItems : List Json → List Json → Bool
  | [], [] => true
  | v :: vs, w :: ws => pyEq v w && pyEqItems vs ws
  | _, _ => false

def pyEqFields : List (String × Json) → List (String × Json) → Bool
  | [], _ => true
  | (k, v) :: fs, b =>
    (match field? k b with
      | some w => pyEq v w
      | none => false) && pyEqFields fs b

end

mutual

/-- No integer of the document is longer than `json.loads` converts. -/
def integersFit : Json → Bool
  | int n => decide (n.natAbs < 10 ^ maxStrDigits)
  | arr items => integersFitItems items
  | obj fields => integersFitFields fields
  | null | bool _ | float _ | str _ => true

def integersFitItems : List Json → Bool
  | [] => true
  | v :: vs => integersFit v && integersFitItems vs

def integersFitFields : List (String × Json) → Bool
  | [] => true
  | (_, v) :: fs => integersFit v && integersFitFields fs

end

mutual

/-- How deep the arrays and objects of a document are nested. -/
def depth : Json → Nat
  | arr items => depthItems items + 1
  | obj fields => depthFields fields + 1
  | null | bool _ | int _ | float _ | str _ => 0

def depthItems : List Json → Nat
  | [] => 0
  | v :: vs => max (depth v) (depthItems vs)

def depthFields : List (String × Json) → Nat
  | [] => 0
  | (_, v) :: fs => max (depth v) (depthFields fs)

end

/-- `json.loads` gives the document: it converts every integer and does not run into the
recursion limit. -/
def loadable [Interpreter] (v : Json) : Bool :=
  v.integersFit && decide (v.depth ≤ Interpreter.maxDepth)

theorem loadable_of_depth [Interpreter] {v : Json} (hints : v.integersFit = true)
    (hdepth : v.depth ≤ 2) : v.loadable = true := by
  simp [loadable, hints, hdepth.trans Interpreter.two_le_maxDepth]

@[simp] theorem integersFitItems_texts (texts : List String) :
    integersFitItems (texts.map .str) = true := by
  induction texts with
  | nil => rfl
  | cons s texts ih => simp [integersFitItems, integersFit, ih]

@[simp] theorem depthItems_texts (texts : List String) : depthItems (texts.map .str) = 0 := by
  induction texts with
  | nil => rfl
  | cons s texts ih => simp [depthItems, depth, ih]

end Json

/-- An interpreter whose table ends with Latin-1. -/
@[reducible] def latin1Interpreter : Interpreter where
  isPrintable c := 160 < c.toNat && c.toNat < 256 && c.toNat ≠ 173
  maxDepth := 1000
  two_le_maxDepth := by decide

import Whooshd.Library.Json
import Whooshd.Library.Text

set_option autoImplicit true

namespace Json

/-- `\uXXXX`. -/
def unicodeEscape (n : Nat) : List Char :=
  ['\\', 'u', Nat.digitChar (n / 4096 % 16), Nat.digitChar (n / 256 % 16),
    Nat.digitChar (n / 16 % 16), Nat.digitChar (n % 16)]

/-- The escapes of `json.dumps` with `ensure_ascii=True`: what is not printable ASCII is written
in UTF-16 units. -/
def escapeAscii (c : Char) : List Char :=
  match shortEscapes.lookup c with
  | some e => ['\\', e]
  | none =>
    let n := c.toNat
    if 0x20 ≤ n ∧ n ≤ 0x7E then [c]
    else if n < 0x10000 then unicodeEscape n
    else unicodeEscape (0xD800 + (n - 0x10000) / 0x400) ++
      unicodeEscape (0xDC00 + (n - 0x10000) % 0x400)

def quoteAscii (s : String) : String :=
  "\"" ++ (String.ofList (s.toList.flatMap escapeAscii) ++ "\"")

mutual

/-- `json.dumps` without blanks, the members of an object in the order they have. -/
def dumpsAscii : Json → String
  | null => "null"
  | bool b => if b then "true" else "false"
  | int n => toString n
  | float repr => repr
  | str s => quoteAscii s
  | arr items => "[" ++ (",".intercalate (dumpsAsciiItems items) ++ "]")
  | obj fields => "\x7b" ++ (",".intercalate (dumpsAsciiFields fields) ++ "\x7d")

def dumpsAsciiItems : List Json → List String
  | [] => []
  | v :: vs => dumpsAscii v :: dumpsAsciiItems vs

def dumpsAsciiFields : List (String × Json) → List String
  | [] => []
  | (k, v) :: fs => (quoteAscii k ++ (":" ++ dumpsAscii v)) :: dumpsAsciiFields fs

end

theorem dumpsAsciiItems_append (vs ws : List Json) :
    dumpsAsciiItems (vs ++ ws) = dumpsAsciiItems vs ++ dumpsAsciiItems ws := by
  induction vs with
  | nil => rfl
  | cons v vs ih => rw [List.cons_append, dumpsAsciiItems, ih, dumpsAsciiItems, List.cons_append]

theorem length_dumpsAscii_append (vs ws : List Json) :
    (dumpsAscii (arr vs)).length ≤ (dumpsAscii (arr (vs ++ ws))).length := by
  rw [dumpsAscii, dumpsAscii]
  simp only [String.length_append, Text.length_intercalate, dumpsAsciiItems_append, List.map_append,
    List.sum_append]
  omega

end Json

import Whooshd.LogSafety.Url

set_option autoImplicit true

namespace Whooshd.LogSafety

open Regex

/-- An exception: the name of its type, and its text. -/
structure LogException where
  typeName : List Char
  text : List Char
  deriving DecidableEq

/-- What a record carries. Where the boundary does not look at the parts of a value, these are its
length and what `str` makes of it. -/
inductive LogValue
  | none
  | bool (b : Bool)
  | int (n : Int)
  | float (text : List Char)
  | str (s : List Char)
  | bytes (size : Nat) (text : List Char)
  | memoryview (size : Nat) (text : List Char)
  | mapping (size : Nat) (text : List Char)
  | sequence (size : Nat) (text : List Char)
  | exception (e : LogException)
  | other (text : List Char)
  deriving DecidableEq

/-- `str(value)` -/
def LogValue.text : LogValue → List Char
  | .none => "None".toList
  | .bool true => "True".toList
  | .bool false => "False".toList
  | .int n => (toString n).toList
  | .float text => text
  | .str s => s
  | .bytes _ text => text
  | .memoryview _ text => text
  | .mapping _ text => text
  | .sequence _ text => text
  | .exception e => e.text
  | .other text => text

def decimal (n : Nat) : List Char := (toString n).toList

/-- The dictionary `{"items": n}`. -/
def itemCount (n : Nat) : LogValue :=
  .mapping 1 ("\x7b'items': ".toList ++ decimal n ++ "\x7d".toList)

/-- Whether a text holds one of some words. -/
def holds (words : List String) (text : List Char) : Bool :=
  words.any fun word => Text.occursIn word.toList text

/-- `failure_class` -/
def failureClass (u : Unicode) : Option LogException → List Char
  | none => "unknown".toList
  | some e =>
    let name := u.lower e.typeName
    let text := u.lower e.text
    if holds ["timeout"] name || holds ["timeout"] text then "timeout".toList
    else if holds ["connect"] name || holds ["connection"] text then "connection".toList
    else if holds ["json", "parse"] name || holds ["decode"] text then "parse".toList
    else if holds ["permission", "auth"] name then "authorization".toList
    else if holds ["validation", "value"] name then "validation".toList
    else if holds ["http", "status"] name then "http".toList
    else "runtime".toList

/-- `"exception_type="` -/
def typeLabel : List Char :=
  ['e', 'x', 'c', 'e', 'p', 't', 'i', 'o', 'n', '_', 't', 'y', 'p', 'e', '=']

/-- `" failure_class="` -/
def classLabel : List Char :=
  [' ', 'f', 'a', 'i', 'l', 'u', 'r', 'e', '_', 'c', 'l', 'a', 's', 's', '=']

/-- `exception_metadata` -/
def exceptionMetadata (u : Unicode) (exception : Option LogException) : List Char :=
  match exception with
  | none => typeLabel ++ "unknown".toList ++ classLabel ++ "unknown".toList
  | some e => typeLabel ++ e.typeName.take 80 ++ classLabel ++ failureClass u (some e)

/-- `re.match(r"^[A-Za-z]:[\\/]", text)` -/
def startsWithDrive : List Char → Bool
  | letter :: ':' :: c :: _ => letter.isAlpha && (c = '\\' || c = '/')
  | _ => false

def startsWithAny (starts : List String) (text : List Char) : Bool :=
  starts.any fun start => start.toList.isPrefixOf text

def endsWithAny (ends : List String) (text : List Char) : Bool :=
  ends.any fun e => e.toList.isSuffixOf text

/-- The aliases that `safe_model_alias` does not show. -/
def isPrivateAlias (text : List Char) : Bool :=
  text = [] || text.length > 128 || startsWithAny ["/", "~/", "./", "../"] text ||
    startsWithDrive text || holds ["://", "@", "?"] text ||
    endsWithAny [".gguf", ".safetensors", ".bin"] text ||
    startsWithAny ["models/", "private/", "secret/"] text || text.any (·.toNat < 32)

/-- `safe_model_alias`, of a text -/
def safeModelAlias (text : List Char) : List Char :=
  if isPrivateAlias text then redacted else text

/-- `_looks_like_private_path`, where the separator of paths is a slash -/
def looksLikePrivatePath (text : List Char) : Bool :=
  startsWithAny ["/", "~/", "./", "../"] text || '/' ∈ text || startsWithDrive text

/-- `" bytes="` -/
def bytesLabel : List Char := [' ', 'b', 'y', 't', 'e', 's', '=']

/-- `" chars="` -/
def charsLabel : List Char := [' ', 'c', 'h', 'a', 'r', 's', '=']

/-- `" items="` -/
def itemsLabel : List Char := [' ', 'i', 't', 'e', 'm', 's', '=']

/-- `_summary` -/
def summary : LogValue → List Char
  | .bytes size _ => redacted ++ bytesLabel ++ decimal size
  | .memoryview size _ => redacted ++ bytesLabel ++ decimal size
  | .str s => redacted ++ charsLabel ++ decimal s.length
  | .mapping size _ => redacted ++ itemsLabel ++ decimal size
  | .sequence size _ => redacted ++ itemsLabel ++ decimal size
  | _ => redacted

/-- `_SAFE_DIAGNOSTIC_RE.fullmatch` -/
def isSafeDiagnostic (text : List Char) : Bool :=
  let rest := text.drop typeLabel.length
  let name := rest.takeWhile isNameChar
  let kind := (rest.dropWhile isNameChar).drop classLabel.length
  typeLabel.isPrefixOf text && (1 ≤ name.length && name.length ≤ 80) &&
    classLabel.isPrefixOf (rest.dropWhile isNameChar) &&
    (1 ≤ kind.length && kind.length ≤ 40) && kind.all fun c => c.isLower || c = '_'

/-- `text.split(",")` -/
def splitComma (text : List Char) : List (List Char) := text.splitOn ','

/-- `_FIELD_NAMES_VALUE_RE.fullmatch` -/
def isFieldNames (text : List Char) : Bool :=
  (splitComma text).all fun name => name.head?.any Char.isAlpha && name.all isNameChar

/-- `",".join(value.split(",")[:32])[:256]` -/
def keptNames (text : List Char) : List Char :=
  ([','].intercalate ((splitComma text).take 32)).take 256

def withoutBreak (c : Char) : Char := if c = '\n' || c = '\r' then ' ' else c

/-- `value.replace("\n", " ").replace("\r", " ")[:160]` -/
def oneLine (text : List Char) : List Char := (text.map withoutBreak).take 160

/-- `f"{REDACTED} path_present=True"` -/
def pathPresent : List Char := redacted ++
  [' ', 'p', 'a', 't', 'h', '_', 'p', 'r', 'e', 's', 'e', 'n', 't', '=', 'T', 'r', 'u', 'e']

def isIn (names : List String) (field : List Char) : Bool :=
  names.any fun name => name.toList = field

/-- `"diagnostic"` -/
def diagnosticField : List Char := ['d', 'i', 'a', 'g', 'n', 'o', 's', 't', 'i', 'c']

/-- What `_sanitize_value` makes of a text under the name of a safe field. -/
def sanitizeSafeText (normalized : List Char) (value : List Char) : List Char :=
  if normalized = diagnosticField && !isSafeDiagnostic value then summary (.str value)
  else if isIn fieldNamesFields normalized then
    if value = [] then []
    else if !isFieldNames value then summary (.str value)
    else keptNames value
  else if isIn modelFields normalized then safeModelAlias value
  else if looksLikePrivatePath value then pathPresent
  else oneLine value

/-- What `_sanitize_value` makes of a value under the name of a safe field. -/
def sanitizeSafe (normalized : List Char) (value : LogValue) : LogValue :=
  match value with
  | .none | .bool _ | .int _ | .float _ => value
  | .str s => .str (sanitizeSafeText normalized s)
  | .mapping size _ | .sequence size _ | .memoryview size _ => itemCount size
  | .bytes _ text | .other text => .str (text.take 80)
  | .exception e => .str (e.text.take 80)

/-- `isinstance(value, (str, bytes, bytearray, memoryview, Mapping, Sequence))` -/
def LogValue.isContent : LogValue → Bool
  | .str _ | .bytes _ _ | .memoryview _ _ | .mapping _ _ | .sequence _ _ => true
  | _ => false

/-- `field.lower() if field else None`, where no name is the empty name, which no set holds. -/
def normalizedField (u : Unicode) (field : Option (List Char)) : List Char :=
  ((field.filter (· ≠ [])).map u.lower).getD []

/-- `normalized and _UNSAFE_FIELD_RE.search(normalized)` -/
def isUnsafe (normalized : List Char) : Bool :=
  normalized ≠ [] && unsafePattern.occurs none normalized

/-- `_sanitize_value` -/
def sanitizeValue (u : Unicode) (value : LogValue) (field : Option (List Char)) : LogValue :=
  let normalized := normalizedField u field
  match value with
  | .exception e => .str (exceptionMetadata u (some e))
  | value =>
    if isIn urlFields normalized then .str (safeUrl u value.text)
    else if isIn safeFields normalized then sanitizeSafe normalized value
    else if isUnsafe normalized then .str (summary value)
    else if value.isContent then .str (summary value)
    else value

end Whooshd.LogSafety

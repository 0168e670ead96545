import Whooshd.Library.Cut
import Whooshd.Library.Regex
import Whooshd.Library.Text

set_option autoImplicit true

namespace Whooshd.LogSafety

open Regex

/-- What the boundary asks of Unicode and of the address parser. -/
structure Unicode where
  /-- `str.lower` -/
  lower : List Char → List Char
  /-- No letter becomes a character of ASCII that is not a letter. -/
  lower_mem : ∀ s c, c ∈ lower s → c.toNat < 128 → c.isAlpha = false → c ∈ s
  lower_ascii : ∀ s, s.all (·.toNat < 128) = true → lower s = s.map Char.toLower
  /-- Any part of a text in lower case is in lower case. -/
  lower_take : ∀ s n, lower ((lower s).take n) = (lower s).take n
  /-- `\w` -/
  isWord : Char → Bool
  /-- No delimiter is hidden in the compatibility form of the character. -/
  netlocChar : Char → Bool
  netlocChar_ascii : ∀ c, c.toNat < 128 → netlocChar c = true
  netlocChar_lower : ∀ s, s.all netlocChar = true → (lower s).all netlocChar = true
  /-- `_check_bracketed_host` -/
  addressValid : List Char → Bool

/-- `_checknetloc`, of a network location, which holds no delimiter itself. -/
def Unicode.netlocValid (u : Unicode) (netloc : List Char) : Bool := netloc.all u.netlocChar

/-- `"<redacted>"` -/
def redacted : List Char := ['<', 'r', 'e', 'd', 'a', 'c', 't', 'e', 'd', '>']

def isDecimal (c : Char) : Bool := (Text.digitValue c).isSome

/-- `[A-Za-z0-9_.-]` -/
def isNameChar (c : Char) : Bool := c.isAlphanum || c = '_' || c = '.' || c = '-'

def spaces : Pattern := .many Text.isSpace

def oneOf (cs : List Char) : Pattern := .one (· ∈ cs)

def noneOf (cs : List Char) : Pattern := .one fun c => !(Text.isSpace c) && c ∉ cs

/-- `_AUTH_RE` -/
def authPattern (u : Unicode) : Pattern :=
  .seq (.group (.all [.boundary u.isWord, .any [
      .all [.word "authorization", spaces, .char ':', spaces,
        .any [.word "bearer", .word "basic"]],
      .word "bearer"], .plus (.one Text.isSpace)]))
    (.plus (noneOf [',', ';']))

/-- `_COOKIE_RE` -/
def cookiePattern (u : Unicode) : Pattern :=
  .seq (.group (.all [.boundary u.isWord, .word "cookie", spaces, .char ':', spaces]))
    (.plus (.one fun c => c ≠ '\r' && c ≠ '\n'))

/-- `_QUERY_RE` -/
def queryPattern : Pattern :=
  .all [oneOf ['?', '&'],
    .any [.all [.word "api", .opt (oneOf ['_', '-']), .word "key"], .word "token", .word "secret",
      .word "code", .word "auth", .word "signature", .word "session"],
    .char '=', .plus (noneOf ['&', '#'])]

/-- `_SECRET_ASSIGNMENT_RE` -/
def secretAssignmentPattern (u : Unicode) : Pattern :=
  let two (a b : String) : Pattern := .all [.word a, .opt (oneOf ['_', '-']), .word b]
  .seq (.group (.all [.boundary u.isWord,
      .any [two "api" "key", two "access" "token", two "refresh" "token", two "session" "secret",
        .word "password", two "client" "secret"],
      spaces, oneOf ['=', ':'], spaces]))
    (.plus (noneOf [',', ';']))

/-- `"<redacted-query>"` -/
def redactedQuery : List Char :=
  ['<', 'r', 'e', 'd', 'a', 'c', 't', 'e', 'd', '-', 'q', 'u', 'e', 'r', 'y', '>']

/-- `sanitize_log_text` -/
def sanitizeLogText (u : Unicode) (text : List Char) : List Char :=
  let output := (authPattern u).sub redacted text
  let output := (cookiePattern u).sub redacted output
  let output := queryPattern.sub redactedQuery output
  (secretAssignmentPattern u).sub redacted output

/-- `_UNSAFE_FIELD_RE` -/
def unsafePattern : Pattern :=
  .any [.word "prompt", .word "message", .word "content", .word "completion", .word "response",
    .word "request", .word "body", .word "payload", .word "output", .word "generated",
    .word "assistant", .word "text", .word "media", .word "image", .word "base64", .word "stream",
    .word "frame", .word "line", .word "token", .word "cookie", .word "authorization",
    .word "bearer", .all [.word "api", .opt (oneOf ['_', '-']), .word "key"], .word "secret",
    .word "password", .word "header", .word "tool", .word "argument", .word "args",
    .word "result", .word "stderr", .word "stdout", .word "exception", .word "error",
    .word "detail", .word "path", .word "cwd", .word "argv", .word "command", .word "url",
    .word "query"]

/-- `_SAFE_FIELDS` -/
def safeFields : List String :=
  ["active_jobs", "adapter", "adapter_type", "adapter_kind", "actual_request_id", "backend",
    "binary_path_present", "body_bytes", "body_present", "cache_key", "cache_scope", "chain_hash",
    "bytes", "content_type", "duration_ms", "dynamic_tokens", "eligible", "endpoint_kind",
    "expected_request_id", "exception_type", "error_code", "event", "failure_class",
    "failure_kind", "forwarded_field_names", "frame_bytes", "frame_count", "host", "http_status",
    "item_count", "kind", "lifecycle", "mode", "model", "model_alias", "model_id",
    "model_path_present", "output_begun", "output_started", "prev_segments", "new_segments",
    "parser_failure_class", "pid", "port", "queue_depth", "request_id", "request_count",
    "policy_version", "rejected_field_names", "runtime", "runtime_kind", "reason", "scope",
    "status", "status_code", "stripped_field_names", "timeout_class", "timeout_seconds",
    "token_count", "transport", "transport_class", "stable_prefix_hash", "stable_prefix_tokens",
    "estimated_prefill_reuse_tokens", "appended_tokens", "thread", "thread_id", "task_id",
    "turn_id", "diagnostic", "type", "name"]

def urlFields : List String := ["url", "endpoint", "server_url", "base_url"]

def fieldNamesFields : List String :=
  ["forwarded_field_names", "rejected_field_names", "stripped_field_names"]

def modelFields : List String := ["model", "model_id", "model_alias"]

/-- `_FIELD_RE.search(prefix)`: the name at the end, before an equals sign or a colon. The search
takes the first start that reaches the end, which is the first letter of the last run of name
characters. -/
def trailingField (gap : List Char) : Option (List Char) :=
  match (gap.rdropWhile Text.isSpace).reverse with
  | '=' :: rest => nameAtEnd rest.reverse
  | ':' :: rest => nameAtEnd rest.reverse
  | _ => none
where
  nameAtEnd (text : List Char) : Option (List Char) :=
    let name := ((text.rdropWhile Text.isSpace).rtakeWhile isNameChar).dropWhile (!·.isAlpha)
    if name = [] then none else some name

def isConversion (c : Char) : Bool := c ∈ ['d', 'i', 'o', 'u', 'x', 'X', 'e', 'E', 'f', 'F', 'g',
  'G', 'c', 'r', 's', 'a', '%']

/-- `(?:\(([^)]+)\))?` -/
def dropKey (cs : List Char) : List Char :=
  match cs with
  | '(' :: inner =>
    if inner.takeWhile (· ≠ ')') = [] then cs
    else
      match inner.dropWhile (· ≠ ')') with
      | ')' :: rest => rest
      | _ => cs
  | _ => cs

/-- `[#0\- +]?` -/
def dropFlag : List Char → List Char
  | c :: cs => if c ∈ ['#', '0', '-', ' ', '+'] then cs else c :: cs
  | [] => []

/-- `(?:\.\d+)?` -/
def dropPrecision (cs : List Char) : List Char :=
  match cs with
  | '.' :: digits => if digits.takeWhile isDecimal = [] then cs else digits.dropWhile isDecimal
  | _ => cs

/-- The conversion at the end of a placeholder: what is left after it. -/
def conversionEnd : List Char → Option (List Char)
  | c :: rest => if isConversion c then some rest else none
  | [] => none

/-- `_PLACEHOLDER_RE` behind its `%`: what is left after its conversion. What a part of the
expression has read it never gives back, since no other part takes it: a flag is no conversion,
and the digit `0` may as well be one of the digits. -/
def placeholderEnd (cs : List Char) : Option (List Char) :=
  conversionEnd (dropPrecision ((dropFlag (dropKey cs)).dropWhile isDecimal))

/-- `_PLACEHOLDER_RE.finditer`, each match with its text. -/
def placeholder : Reader (List Char) := fun _ cs =>
  match cs with
  | '%' :: cs =>
    (placeholderEnd cs).map fun rest =>
      ('%' :: cs.take (cs.length - rest.length), cs.length - rest.length)
  | _ => none

/-- `_placeholder_fields` -/
def placeholderFields (u : Unicode) (template : List Char) : List (Option (List Char)) :=
  (tokens placeholder template).1.map fun found => (trailingField found.gap).map u.lower

end Whooshd.LogSafety

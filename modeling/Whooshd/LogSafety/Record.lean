import Whooshd.LogSafety.Values

set_option autoImplicit true

namespace Whooshd.LogSafety

open Regex

/-- The words that no event text may hold. -/
def markers : List String :=
  ["prompt", "message", "content", "completion", "response", "payload", "output", "generated",
    "assistant", "media", "tool", "image", "base64", "stderr", "stdout", "raw"]

/-- `[A-Za-z0-9_.:-]` -/
def isEventChar (c : Char) : Bool := isNameChar c || c = ':'

/-- `[A-Za-z0-9_.:-]` where case is ignored, which adds four letters. -/
def isAnyEventChar (c : Char) : Bool :=
  isEventChar c || c.toNat ∈ [0x130, 0x131, 0x17F, 0x212A]

/-- `re.fullmatch(r"[A-Za-z0-9_.:-]+", text)` -/
def isEventName (text : List Char) : Bool := text ≠ [] && text.all isEventChar

def states : List String :=
  ["started", "stopped", "failed", "ready", "available", "disabled", "enabled", "cancelled"]

/-- A word where case is ignored. -/
def isWordFolded (word : String) (text : List Char) : Bool :=
  word.toList.length = text.length &&
    (word.toList.zip text).all fun (letter, c) => Pattern.ignoringCase letter c

/-- `re.fullmatch(r"\[[A-Za-z0-9_.:-]+\]\s+(?:started|…)", text, re.I)` -/
def isStateLine : List Char → Bool
  | '[' :: inner =>
    match inner.dropWhile isAnyEventChar with
    | ']' :: tail =>
      inner.takeWhile isAnyEventChar ≠ [] && tail.head?.any Text.isSpace &&
        states.any fun state => isWordFolded state (tail.dropWhile Text.isSpace)
    | _ => false
  | _ => false

/-- `"log_event="` -/
def eventLabel : List Char := ['l', 'o', 'g', '_', 'e', 'v', 'e', 'n', 't', '=']

/-- `f"log_event={REDACTED} chars={len(message)}"` -/
def eventSummary (size : Nat) : List Char := eventLabel ++ redacted ++ charsLabel ++ decimal size

/-- Whether the event text is short, holds no marker and reads as one of the two forms. -/
def isPlainEvent (u : Unicode) (scrubbed : List Char) : Bool :=
  !(scrubbed.length > 200 || holds markers (u.lower scrubbed)) &&
    (isEventName scrubbed || isStateLine scrubbed)

/-- `_sanitize_freeform`, of a text -/
def sanitizeFreeformText (u : Unicode) (message : List Char) : List Char :=
  let scrubbed := sanitizeLogText u message
  if isPlainEvent u scrubbed then scrubbed else eventSummary message.length

/-- `_sanitize_freeform` -/
def sanitizeFreeform (u : Unicode) : LogValue → List Char
  | .str message => sanitizeFreeformText u message
  | message => summary message

/-- `_sanitize_format_template` -/
def sanitizeFormatTemplate (u : Unicode) (message : List Char) : List Char :=
  let (found, tail) := tokens placeholder message
  found.flatMap (fun f => sanitizeFreeformText u f.gap ++ f.token) ++ sanitizeFreeformText u tail

/-- What a record is formatted with: the entries of one mapping, or the values of a tuple. -/
inductive LogArgs
  | mapping (entries : List (List Char × LogValue))
  | tuple (values : List LogValue)
  deriving DecidableEq

/-- The fields of a record that the boundary looks at. The exception is that of `exc_info`, where
there is one; the extra fields are those a bare record does not have. -/
structure LogRecord where
  msg : LogValue
  args : LogArgs
  excInfo : Option (Option LogException)
  excText : LogValue
  stackInfo : LogValue
  extra : List (List Char × LogValue)
  sanitized : Bool
  deriving DecidableEq

/-- The values of a tuple under the names that the placeholders of the template have. -/
def sanitizeTuple (u : Unicode) (template : List Char) (values : List LogValue) : List LogValue :=
  let fields := placeholderFields u template
  values.mapIdx fun index value => sanitizeValue u value fields[index]?.join

/-- The message and the arguments. -/
def sanitizeArgs (u : Unicode) (record : LogRecord) : LogRecord :=
  match record.args with
  | .mapping entries =>
    { record with
      args := .mapping (entries.map fun (key, value) => (key, sanitizeValue u value (some key))) }
  | .tuple [] => { record with msg := .str (sanitizeFreeform u record.msg) }
  | .tuple values => { record with args := .tuple (sanitizeTuple u record.msg.text values) }

/-- The exception becomes a part of the message. -/
def sanitizeException (u : Unicode) (record : LogRecord) : LogRecord :=
  match record.excInfo with
  | none => record
  | some exception =>
    { record with
      msg := .str (record.msg.text ++ ' ' :: exceptionMetadata u exception)
      args := .tuple []
      excInfo := none
      excText := .none
      stackInfo := .none }

/-- `"color_message"` -/
def colorField : List Char := ['c', 'o', 'l', 'o', 'r', '_', 'm', 'e', 's', 's', 'a', 'g', 'e']

/-- One extra field. -/
def sanitizeField (u : Unicode) (key : List Char) (value : LogValue) : LogValue :=
  if key.head? = some '_' then value
  else
    match value with
    | .str s =>
      if key = colorField then .str (sanitizeFormatTemplate u s)
      else sanitizeValue u value (some key)
    | value => sanitizeValue u value (some key)

def sanitizeExtra (u : Unicode) (record : LogRecord) : LogRecord :=
  { record with extra := record.extra.map fun (key, value) => (key, sanitizeField u key value) }

/-- `sanitize_record` -/
def sanitizeRecord (u : Unicode) (force : Bool) (record : LogRecord) : LogRecord :=
  if record.sanitized && !force then record
  else { sanitizeExtra u (sanitizeException u (sanitizeArgs u record)) with sanitized := true }

/-- `getMessage`, where the operator `%` is the one given. Empty arguments are not formatted. -/
def getMessage (format : List Char → LogArgs → Option (List Char)) (record : LogRecord) :
    Option (List Char) :=
  match record.args with
  | .tuple [] => some record.msg.text
  | .mapping [] => some record.msg.text
  | args => format record.msg.text args

end Whooshd.LogSafety

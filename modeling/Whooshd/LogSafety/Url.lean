import Whooshd.LogSafety.Patterns

set_option autoImplicit true

namespace Whooshd.LogSafety

/-- `_WHATWG_C0_CONTROL_OR_SPACE` -/
def isControlOrSpace (c : Char) : Bool := c.toNat ≤ 0x20

/-- `_UNSAFE_URL_BYTES_TO_REMOVE` -/
def isRemoved (c : Char) : Bool := c = '\t' || c = '\r' || c = '\n'

def isSchemeChar (c : Char) : Bool := c.isAlphanum || c = '+' || c = '-' || c = '.'

/-- The scheme that a URL starts with, in lower case, and what follows its colon. -/
def splitScheme (url : List Char) : List Char × List Char :=
  let before := url.takeWhile (· ≠ ':')
  match url.dropWhile (· ≠ ':') with
  | ':' :: rest =>
    if before.head?.any Char.isAlpha && before.all isSchemeChar then
      (before.map Char.toLower, rest)
    else ([], url)
  | _ => ([], url)

def endsNetloc (c : Char) : Bool := c = '/' || c = '?' || c = '#'

/-- `_splitnetloc`, for a URL that has a network location. -/
def splitNetloc : List Char → List Char × List Char
  | '/' :: '/' :: rest => (rest.takeWhile (!endsNetloc ·), rest.dropWhile (!endsNetloc ·))
  | url => ([], url)

/-- What stands in the brackets of a network location. -/
def bracketed (netloc : List Char) : List Char :=
  ((netloc.dropWhile (· ≠ '[')).drop 1).takeWhile (· ≠ ']')

def bracketsValid (u : Unicode) (netloc : List Char) : Bool :=
  if '[' ∈ netloc then ']' ∈ netloc && u.addressValid (bracketed netloc) else ']' ∉ netloc

/-- The scheme, the network location and the path that `urlsplit` finds; none when it raises. -/
def urlsplit (u : Unicode) (text : List Char) : Option (List Char × List Char × List Char) :=
  let url := (text.dropWhile isControlOrSpace).filter (!isRemoved ·)
  let (scheme, url) := splitScheme url
  let (netloc, url) := splitNetloc url
  if bracketsValid u netloc && u.netlocValid netloc then
    some (scheme, netloc, (url.takeWhile (· ≠ '#')).takeWhile (· ≠ '?'))
  else none

/-- `_hostinfo` -/
def hostInfo (netloc : List Char) : List Char × List Char :=
  let info := netloc.rtakeWhile (· ≠ '@')
  if '[' ∈ info then
    let inner := (info.dropWhile (· ≠ '[')).drop 1
    (inner.takeWhile (· ≠ ']'), (inner.dropWhile (· ≠ ']')).dropWhile (· ≠ ':') |>.drop 1)
  else (info.takeWhile (· ≠ ':'), (info.dropWhile (· ≠ ':')).drop 1)

/-- `hostname`: a zone behind a percent sign keeps its case. -/
def hostname (u : Unicode) (netloc : List Char) : List Char :=
  let host := (hostInfo netloc).1
  if host = [] then []
  else u.lower (host.takeWhile (· ≠ '%')) ++ host.dropWhile (· ≠ '%')

/-- `f":{parsed.port}"`, or nothing without a port; none when the port is none. -/
def portText (netloc : List Char) : Option (List Char) :=
  let port := (hostInfo netloc).2
  if port = [] then some []
  else if port.all Char.isDigit then
    let number := port.foldl (fun n c => 10 * n + (c.toNat - '0'.toNat)) 0
    if number ≤ 65535 then some (':' :: (toString number).toList) else none
  else none

def isPathChar (c : Char) : Bool :=
  c.isAlphanum || c = '/' || c = '.' || c = '_' || c = '~' || c = '-'

def safePath (path : List Char) : List Char :=
  if path.length ≤ 128 && path.all isPathChar then path else []

/-- `urlunsplit`, with a scheme and a network location alone. -/
def urlunsplit (scheme netloc path : List Char) : List Char :=
  let path := if path ≠ [] && path.head? ≠ some '/' then '/' :: path else path
  scheme ++ ':' :: '/' :: '/' :: (netloc ++ path)

/-- `safe_url` -/
def safeUrl (u : Unicode) (value : List Char) : List Char :=
  match urlsplit u value with
  | none => redacted
  | some (scheme, netloc, path) =>
    let host := hostname u netloc
    if scheme = [] || host = [] then redacted
    else
      match portText netloc with
      | none => redacted
      | some port => (urlunsplit scheme (host ++ port) (safePath path)).take 256

end Whooshd.LogSafety

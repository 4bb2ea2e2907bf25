import AjarConnectors.Buffered.Reader
import AjarConnectors.Text.Strings
import AjarConnectors.Utf8.Decode

namespace HttpModel

open TextModel

abbrev Bytes := List UInt8

abbrev Text := List Char

abbrev Reader := Buffered.Reader UInt8

def maxFrame : Nat := 64 * 1024

def maxHeaderBytes : Nat := 16 * 1024

def maxHeaders : Nat := 64

structure Settings where
  path : Text
  token : Option Text

inductive Outcome where
  | accepted
  | badRequest
  | unauthorized
  | notFound
  | methodNotAllowed
  | payloadTooLarge
  | notImplemented
  | saturated
  deriving DecidableEq

def Outcome.status : Outcome → Nat × String
  | .accepted => (204, "No Content")
  | .badRequest => (400, "Bad Request")
  | .unauthorized => (401, "Unauthorized")
  | .notFound => (404, "Not Found")
  | .methodNotAllowed => (405, "Method Not Allowed")
  | .payloadTooLarge => (413, "Payload Too Large")
  | .notImplemented => (501, "Not Implemented")
  | .saturated => (503, "Service Unavailable")

section Text

def trimWith (p : Char → Bool) (text : Text) : Text := ((text.dropWhile p).reverse.dropWhile p).reverse

def trimText (text : Text) : Text := trimWith isWhitespace text

/-- One leading slash, no trailing one. -/
def normalisePath (path : Text) : Text :=
  match trimWith (· == '/') (trimText path) with
  | [] => ['/']
  | trimmed => '/' :: trimmed

def eqIgnoreAsciiCase (a b : Text) : Bool := a.map Char.toLower == b.map Char.toLower

def digitValue (c : Char) : Option Nat :=
  if '0' ≤ c ∧ c ≤ '9' then some (c.toNat - 48)
  else if 'a' ≤ c ∧ c ≤ 'f' then some (c.toNat - 87)
  else if 'A' ≤ c ∧ c ≤ 'F' then some (c.toNat - 55)
  else none

def parseDigits (radix : Nat) : Nat → Text → Option Nat
  | value, [] => some value
  | value, c :: rest => match digitValue c with
    | none => none
    | some d => if d < radix then parseDigits radix (value * radix + d) rest else none

def dropPlus : Text → Text
  | '+' :: rest => rest
  | text => text

/-- `usize::from_str_radix`, which takes a leading plus sign. -/
def parseUsize (radix : Nat) (text : Text) : Option Nat :=
  if dropPlus text = [] then none
  else (parseDigits radix 0 (dropPlus text)).filter fun value => value < 2^64

/-- `str::split_once`. -/
def splitOnce (separator : Char) : Text → Option (Text × Text)
  | [] => none
  | c :: rest =>
    if c = separator then some ([], rest)
    else (splitOnce separator rest).map fun parts => (c :: parts.1, parts.2)

/-- `secret_eq`, on the bytes of both texts. -/
def secretEq (a b : Text) : Bool :=
  let a := Utf8.bytes (String.ofList a)
  let b := Utf8.bytes (String.ofList b)
  a.length == b.length && (List.zipWith (· ^^^ ·) a b).foldl (· ||| ·) 0 == 0

end Text

structure Head where
  methodAllowed : Bool
  path : Text
  contentLength : Option Nat
  chunked : Bool
  expectContinue : Bool
  token : Option Text
  deriving DecidableEq

def isLineEnd (b : UInt8) : Bool := b == 10 || b == 13

/-- A line without the CR and LF characters it ends in. -/
def stripEnd (raw : Bytes) : Bytes := (raw.reverse.dropWhile isLineEnd).reverse

def readLine (budget : Nat) (r : Reader) : Except Outcome (Text × Nat × Reader) :=
  match r.readUntil 10 with
  | (raw, r) =>
    if raw = [] then .error .badRequest
    else if budget < raw.length then .error .badRequest
    else match Utf8.decode (stripEnd raw) with
      | none => .error .badRequest
      | some line => .ok (line, budget - raw.length, r)

/-- One header line in the loop of `read_head`. -/
def applyField (head : Head) (line : Text) : Except Outcome Head :=
  match splitOnce ':' line with
  | none => .error .badRequest
  | some (name, value) =>
    let value := trimText value
    if eqIgnoreAsciiCase name "content-length".toList then
      match parseUsize 10 value with
      | none => .error .badRequest
      | some n => .ok { head with contentLength := some n }
    else if eqIgnoreAsciiCase name "transfer-encoding".toList then
      if eqIgnoreAsciiCase value "chunked".toList then .ok { head with chunked := true } else .error .notImplemented
    else if eqIgnoreAsciiCase name "expect".toList then
      .ok { head with expectContinue := eqIgnoreAsciiCase value "100-continue".toList }
    else if eqIgnoreAsciiCase name "x-ajar-token".toList then .ok { head with token := some value }
    else .ok head

def readHeaders : Nat → Head → Nat → Reader → Except Outcome (Head × Reader)
  | 0, _, _, _ => .error .badRequest
  | lines + 1, head, budget, r => match readLine budget r with
    | .error outcome => .error outcome
    | .ok (line, budget, r) =>
      if line = [] then .ok (head, r)
      else match applyField head line with
        | .error outcome => .error outcome
        | .ok head => readHeaders lines head budget r

def startHead (method target : Text) : Head where
  methodAllowed := eqIgnoreAsciiCase method "POST".toList || eqIgnoreAsciiCase method "PUT".toList
  path := normalisePath (target.takeWhile fun c => c != '?' && c != '#')
  contentLength := none
  chunked := false
  expectContinue := false
  token := none

def readHead (r : Reader) : Except Outcome (Head × Reader) :=
  match readLine maxHeaderBytes r with
  | .error outcome => .error outcome
  | .ok (requestLine, budget, r) => match splitWhitespace requestLine with
    | method :: target :: _ => readHeaders maxHeaders (startHead method target) budget r
    | _ => .error .badRequest

/-- The trailers and the blank line after them. A line takes at least one byte, so as many rounds as
    there are bytes are enough. -/
def readTrailers : Nat → Nat → Reader → Except Outcome Reader
  | 0, _, _ => .error .badRequest
  | rounds + 1, budget, r => match readLine budget r with
    | .error outcome => .error outcome
    | .ok (line, budget, r) => if line = [] then .ok r else readTrailers rounds budget r

def sizeText (line : Text) : Text := trimText (line.takeWhile (· != ';'))

def readChunked : Nat → Bytes → Reader → Except Outcome (Bytes × Reader)
  | 0, _, _ => .error .badRequest
  | rounds + 1, body, r => match readLine maxHeaderBytes r with
    | .error outcome => .error outcome
    | .ok (line, _, r) => match parseUsize 16 (sizeText line) with
      | none => .error .badRequest
      | some 0 => (readTrailers (r.flat.length + 1) maxHeaderBytes r).map fun r => (body, r)
      | some (size + 1) =>
        if maxFrame < body.length + (size + 1) then .error .payloadTooLarge
        else match r.readExact (size + 1) with
          | none => .error .badRequest
          | some (data, r) => match readLine maxHeaderBytes r with
            | .error outcome => .error outcome
            | .ok (_, _, r) => readChunked rounds (body ++ data) r

def readBody (head : Head) (r : Reader) : Except Outcome (Bytes × Reader) :=
  if head.chunked then readChunked (r.flat.length + 1) [] r
  else match r.readExact (head.contentLength.getD 0) with
    | none => .error .badRequest
    | some (body, r) => .ok (body, r)

inductive TrySend where
  | sent
  | full
  | closed
  deriving DecidableEq

/-- What the surroundings do while one request is served: the queue, and the writes to the peer. -/
structure Turn where
  send : TrySend
  continues : Bool
  responds : Bool

structure Exchange where
  outcome : Outcome
  reusable : Bool
  queued : Option Bytes
  deriving DecidableEq

def refuse (outcome : Outcome) (r : Reader) : Exchange × Reader := (⟨outcome, false, none⟩, r)

def authorized (settings : Settings) (head : Head) : Bool :=
  match settings.token with
  | none => true
  | some expected => secretEq expected (head.token.getD [])

/-- `serve` from the body on. -/
def deliver (turn : Turn) (head : Head) (r : Reader) : Exchange × Reader :=
  if head.expectContinue && !turn.continues then refuse .badRequest r
  else match readBody head r with
    | .error outcome => refuse outcome r
    | .ok (body, r) => match turn.send with
      | .sent => (⟨.accepted, true, some body⟩, r)
      | .full => (⟨.saturated, true, none⟩, r)
      | .closed => (⟨.saturated, false, none⟩, r)

def serve (settings : Settings) (turn : Turn) (r : Reader) : Exchange × Reader :=
  match readHead r with
  | .error outcome => refuse outcome r
  | .ok (head, r) =>
    if head.path ≠ settings.path then refuse .notFound r
    else if !head.methodAllowed then refuse .methodNotAllowed r
    else if !authorized settings head then refuse .unauthorized r
    else if head.contentLength.any (maxFrame < ·) then refuse .payloadTooLarge r
    else if head.contentLength.isNone && !head.chunked then (⟨.accepted, true, none⟩, r)
    else deliver turn head r

/-- A request as the loop saw it: where it began, how it was answered, where the next one begins. -/
structure Served where
  start : Reader
  exchange : Exchange
  next : Reader

/-- The requests of one connection. Each takes at least one byte. -/
def connectionLoop (settings : Settings) (turns : Nat → Turn) : Nat → Nat → Reader → List Served
  | 0, _, _ => []
  | rounds + 1, index, r =>
    if r.isEnded then []
    else match serve settings (turns index) r with
      | (exchange, next) => ⟨r, exchange, next⟩ ::
          if (turns index).responds && exchange.reusable then connectionLoop settings turns rounds (index + 1) next else []

def connection (settings : Settings) (turns : Nat → Turn) (r : Reader) : List Served :=
  connectionLoop settings turns (r.flat.length + 1) 0 r

end HttpModel

namespace TextModel

open HttpModel

/-- `u8::from_str_radix`, which takes a leading plus sign. -/
def parseU8 (radix : Nat) (text : Text) : Option Nat := (parseUsize radix text).filter (· < 256)

/-- `str::trim_end_matches` with a set of characters. -/
def trimEndMatches (p : Char → Bool) (text : Text) : Text := (text.reverse.dropWhile p).reverse

end TextModel

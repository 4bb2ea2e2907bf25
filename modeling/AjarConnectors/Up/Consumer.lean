import AjarConnectors.Egress.Render
import AjarConnectors.Text.Strings

namespace UpModel

open TextModel

structure Keys where
  signingKeyPath : Option String := none
  mtlsCertPath : Option String := none
  mtlsKeyPath : Option String := none
  caCertPath : Option String := none

structure FileEntry where
  path : String
  sha256 : String

/-- The manifest, without the fields that nothing here reads: the entity types and the ontology version. -/
structure Manifest where
  manifestVersion : String
  role : Option String := none
  sourceId : String
  natsUrl : String
  protocol : Option String := none
  transport : Option EgressModel.Value := none
  subject : Option String := none
  spool : Option EgressModel.Value := none
  egressSubject : Option String := none
  formats : Option (List String) := none
  egressVerifyingKeyHex : Option String := none
  keys : Keys := {}
  files : List FileEntry := []

inductive Role where
  | producer
  | consumer
  deriving DecidableEq

/-- The role, unless this program does not know it. -/
def Manifest.roleOf (m : Manifest) : Option Role :=
  match m.role with
  | none => some .producer
  | some name => if name = "producer" then some .producer else if name = "consumer" then some .consumer else none

/-- `Path::join`: an absolute path replaces the directory. -/
def join (dir rel : String) : String :=
  match rel.toList with
  | '/' :: _ => rel
  | _ => if dir = "" ∨ dir.toList.getLast? = some '/' then dir ++ rel else dir ++ "/" ++ rel

def hexValue (c : Char) : Option Nat :=
  if '0' ≤ c ∧ c ≤ '9' then some (c.toNat - 48)
  else if 'a' ≤ c ∧ c ≤ 'f' then some (c.toNat - 87)
  else if 'A' ≤ c ∧ c ≤ 'F' then some (c.toNat - 55)
  else none

/-- `hex::decode`. -/
def hexDecode : List Char → Option (List UInt8)
  | [] => some []
  | [_] => none
  | high :: low :: rest =>
    match hexValue high, hexValue low, hexDecode rest with
    | some h, some l, some bytes => some (UInt8.ofNat (16 * h + l) :: bytes)
    | _, _, _ => none

end UpModel

namespace UpModel.Consumer

open TextModel

inductive RunError where
  | noEgressSubject
  | noEgressKey
  | keyNotHex
  | keyLength
  | keyInvalid
  | format (formats : List String) (want flag : String)
  deriving DecidableEq

structure Options where
  toTak : Option String := none
  toHttp : Option String := none

/-- What a run does once the packet's egress fields are in order. -/
inductive Delivery where
  /-- Writes a config of this name and text. -/
  | config (name text : String)
  /-- Connects and writes accepted payloads to stdout. -/
  | tap (subject : String)
  deriving DecidableEq

section

-- `VerifyingKey::from_bytes` of 32 bytes is `Ok`.
variable (validKey : List UInt8 → Bool)

/-- The egress subject and verifying key a consumer packet must carry. -/
def egress (m : Manifest) : Except RunError (String × List UInt8) :=
  match m.egressSubject with
  | none => .error .noEgressSubject
  | some subject =>
    match m.egressVerifyingKeyHex with
    | none => .error .noEgressKey
    | some keyHex =>
      match hexDecode (trim keyHex).toList with
      | none => .error .keyNotHex
      | some bytes =>
        if bytes.length ≠ 32 then .error .keyLength
        else if !validKey bytes then .error .keyInvalid
        else .ok (subject, bytes)

/-- The CoT egress slug: only rendered CoT, not every format. -/
def takSubject : String := "ajar.egress.cot.>"

/-- A tak-egress config. The two lines of the TAK-side client certificate are left to fill. -/
def takConfig (m : Manifest) (dir takUrl : String) : String :=
  "nats_url = \"" ++ m.natsUrl ++ "\"\n" ++
  "# The CoT egress slug: only rendered CoT, not every format.\n" ++
  "subject = \"" ++ takSubject ++ "\"\n" ++
  "egress_verifying_key = \"" ++ m.egressVerifyingKeyHex.getD "" ++ "\"\n\n" ++
  "[tak]\n" ++
  "url = \"" ++ takUrl ++ "\"\n" ++
  "# Enrolled with YOUR TAK Server (its owner issues these two):\n" ++
  "tls_cert = \"FILL-ME.client.pem\"\n" ++
  "tls_key = \"FILL-ME.client.key\"\n" ++
  "# CA that signed the TAK Server's certificate (often your own PKI's):\n" ++
  "tls_ca = \"" ++ join dir (m.keys.caCertPath.getD "ca.crt") ++ "\"\n"

def httpSubject (format : String) : String := "ajar.egress." ++ format ++ ".>"

/-- A generic-egress config delivering the JSON rendering to a webhook. -/
def httpConfig (m : Manifest) (url format : String) : String :=
  "nats_url = \"" ++ m.natsUrl ++ "\"\n" ++
  "subject = \"" ++ httpSubject format ++ "\"\n" ++
  "egress_verifying_key = \"" ++ m.egressVerifyingKeyHex.getD "" ++ "\"\n" ++
  "unmapped = \"include\"\n\n" ++
  "[deliver]\n" ++
  "url = \"" ++ url ++ "\"\n\n" ++
  "# Consumer-shaped field names go here; unmapped governed content is\n" ++
  "# delivered under `unmapped` either way (markings cannot be mapped away).\n" ++
  "[mapping]\n"

/-- The format a delivery over HTTP takes: the first of the two that the packet lists. -/
def httpFormat (formats : List String) : Option String :=
  ["geojson", "json"].find? fun format => formats.contains format

/-- `run`, up to what it does to the world. -/
def deliver (m : Manifest) (dir : String) (opts : Options) : Except RunError Delivery :=
  match egress validKey m with
  | .error e => .error e
  | .ok (subject, _) =>
    let formats := m.formats.getD []
    match opts.toTak with
    | some tak =>
      if !formats.contains "cot" then .error (.format formats "cot" "--to-tak")
      else .ok (.config (m.sourceId ++ "-tak-egress.toml") (takConfig m dir tak))
    | none =>
      match opts.toHttp with
      | some url =>
        match httpFormat formats with
        | none => .error (.format formats "geojson/json" "--to-http")
        | some format => .ok (.config (m.sourceId ++ "-http-egress.toml") (httpConfig m url format))
      | none => .ok (.tap subject)

end

end UpModel.Consumer

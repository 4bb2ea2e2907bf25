import AjarConnectors.Egress.Render
import AjarConnectors.Toml.Document

/-! The configs of the egress connectors, read out of a TOML table. -/

namespace ConfigModel

open Toml

def required (t : Table) (key : String) : Option String := (t.lookup key).bind Value.string?

/-- A string that may be left out; one that is there must be a string. -/
def optional (t : Table) (key : String) : Option (Option String) :=
  match t.lookup key with
  | none => some none
  | some value => value.string?.map some

def withDefault (t : Table) (key standard : String) : Option String :=
  match t.lookup key with
  | none => some standard
  | some value => value.string?

/-- An unsigned number below a bound. -/
def number (bound : Nat) (t : Table) (key : String) (standard : Nat) : Option Nat :=
  match t.lookup key with
  | none => some standard
  | some (.integer n) => if 0 ≤ n ∧ n < bound then some n.toNat else none
  | some _ => none

def strings : Table → Option (List (String × String))
  | [] => some []
  | (key, value) :: rest =>
    match value.string?, strings rest with
    | some text, some more => some ((key, text) :: more)
    | _, _ => none

def deniesUnknown (fields : List String) (t : Table) : Bool := t.all fun entry => fields.contains entry.1

def u32 : Nat := 2 ^ 32

def usize : Nat := 2 ^ 64

end ConfigModel

namespace TakModel

open Toml ConfigModel TextModel

structure TakConfig where
  url : String
  tlsCa : Option String
  tlsCert : Option String
  tlsKey : Option String
  serverName : Option String
  interface : Option String
  multicastTtl : Nat
  bufferMax : Nat
  deriving DecidableEq

structure EgressConfig where
  natsUrl : String
  egressSubject : String
  tak : TakConfig
  deriving DecidableEq

inductive LoadError where
  | parsing
  | bufferMax
  | tlsFiles (url : String)
  deriving DecidableEq

def defaultSubject : String := "ajar.egress.cot.*"

def defaultBufferMax : Nat := 1000

def defaultMulticastTtl : Nat := 1

/-- Keys it does not know are ignored. -/
def TakConfig.ofTable (t : Table) : Option TakConfig :=
  match required t "url", optional t "tls_ca", optional t "tls_cert", optional t "tls_key", optional t "server_name",
    optional t "interface", number u32 t "multicast_ttl" defaultMulticastTtl, number usize t "buffer_max" defaultBufferMax with
  | some url, some ca, some cert, some key, some name, some nic, some ttl, some buffer =>
    some ⟨url, ca, cert, key, name, nic, ttl, buffer⟩
  | _, _, _, _, _, _, _, _ => none

def EgressConfig.ofTable (t : Table) : Option EgressConfig :=
  match required t "nats_url", withDefault t "egress_subject" defaultSubject,
    ((t.lookup "tak").bind Value.table?).bind TakConfig.ofTable with
  | some natsUrl, some subject, some tak => some ⟨natsUrl, subject, tak⟩
  | _, _, _ => none

def TakConfig.isDatagram (c : TakConfig) : Bool := (stripPrefix "udp://" c.url).isSome

def EgressConfig.validate (cfg : EgressConfig) : Except LoadError Unit :=
  if cfg.tak.bufferMax = 0 then .error .bufferMax
  else if !cfg.tak.isDatagram && !(cfg.tak.tlsCa.isSome && cfg.tak.tlsCert.isSome && cfg.tak.tlsKey.isSome) then
    .error (.tlsFiles cfg.tak.url)
  else .ok ()

/-- `EgressConfig::load` of a file that can be read, by its text. -/
def EgressConfig.load (fromStr : String → Option Table) (text : String) : Except LoadError EgressConfig :=
  match (fromStr text).bind EgressConfig.ofTable with
  | none => .error .parsing
  | some cfg =>
    match cfg.validate with
    | .error e => .error e
    | .ok () => .ok cfg

end TakModel

namespace EgressModel

open Toml ConfigModel

/-- The whole config of generic-egress: what rendering uses, and where it comes from and goes to. -/
structure LoadedConfig extends Config where
  natsUrl : String
  egressVerifyingKey : String
  url : String
  headers : List (String × String)
  bufferMax : Nat
  deriving DecidableEq

inductive LoadError where
  | parsing
  | invalid (error : ConfigError)
  deriving DecidableEq

theorem pairwise_fields (entries : List (String × String)) :
    (KeyMap.insertAll entries []).Pairwise fun a b => a.1 < b.1 := by
  have general : ∀ (entries map : List (String × String)), map.Pairwise (fun a b => a.1 < b.1) →
      (KeyMap.insertAll entries map).Pairwise fun a b => a.1 < b.1 := by
    intro entries
    induction entries with
    | nil => exact fun _ sorted => sorted
    | cons entry entries ih =>
      intro map sorted
      apply ih
      apply KeyMap.pairwise_insert lt_trans _ _ _ sorted
      intro a b above different
      exact lt_of_le_of_ne (not_lt.mp above) (Ne.symm different)
  exact general entries [] List.Pairwise.nil

/-- Every key is a consumer's field name, so none is unknown. -/
def Mapping.ofTable (t : Table) : Option Mapping :=
  (strings t).map fun entries => ⟨KeyMap.insertAll entries [], pairwise_fields entries⟩

def Unmapped.ofValue : Option Toml.Value → Option Unmapped
  | none => some .include
  | some (.string name) => if name = "include" then some .include else if name = "refuse" then some .refuse else none
  | some _ => none

def LabelConfig.ofTable (t : Table) : Option LabelConfig :=
  if deniesUnknown ["policy_identifier"] t then (required t "policy_identifier").map .mk else none

def labelOf (t : Table) : Option (Option LabelConfig) :=
  match t.lookup "confidentiality_label" with
  | none => some none
  | some value => (value.table?.bind LabelConfig.ofTable).map some

/-- The url, the headers and the attempts. -/
def deliverOf (t : Table) : Option (String × List (String × String) × Nat) :=
  let headers : Option (List (String × String)) :=
    match t.lookup "headers" with
    | none => some []
    | some value => (value.table?.bind strings).map fun entries => KeyMap.insertAll entries []
  if deniesUnknown ["url", "headers", "attempts"] t then
    match required t "url", headers, number u32 t "attempts" 2 with
    | some url, some headers, some attempts => some (url, headers, attempts)
    | _, _, _ => none
  else none

def configFields : List String :=
  ["nats_url", "subject", "egress_verifying_key", "deliver", "mapping", "unmapped", "confidentiality_label", "buffer_max"]

def LoadedConfig.ofTable (t : Table) : Option LoadedConfig :=
  if deniesUnknown configFields t then
    match required t "nats_url", required t "subject", required t "egress_verifying_key",
      ((t.lookup "deliver").bind Value.table?).bind deliverOf, ((t.lookup "mapping").bind Value.table?).bind Mapping.ofTable,
      Unmapped.ofValue (t.lookup "unmapped"), labelOf t, number usize t "buffer_max" 1000 with
    | some natsUrl, some subject, some key, some (url, headers, attempts), some mapping, some unmapped, some label, some buffer =>
      some ⟨⟨subject, attempts, mapping, unmapped, label⟩, natsUrl, key, url, headers, buffer⟩
    | _, _, _, _, _, _, _, _ => none
  else none

/-- `Config::load` of a file that can be read, by its text. -/
def LoadedConfig.load (fromStr : String → Option Table) (text : String) : Except LoadError LoadedConfig :=
  match (fromStr text).bind LoadedConfig.ofTable with
  | none => .error .parsing
  | some cfg =>
    match cfg.validate with
    | .error e => .error (.invalid e)
    | .ok () => .ok cfg

end EgressModel

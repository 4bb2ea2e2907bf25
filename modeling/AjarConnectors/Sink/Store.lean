import Mathlib.Data.List.Basic
import Mathlib.Data.List.Pairwise
import AjarConnectors.Event.Types
import AjarConnectors.HashChain.Links
import AjarConnectors.Seal.Envelope

namespace SinkModel

open EventModel SealModel

structure Digest where
  bytes : Bytes
  length : bytes.length = 32
  deriving DecidableEq

def genesis : Digest := ⟨List.replicate 32 0, by decide⟩

/-- A stored cell. SQLite keeps the type with the value, not with the column. -/
inductive SqlValue where
  | null
  | integer (value : Int)
  | real (value : F64)
  | text (value : String)
  | blob (value : Bytes)
  deriving DecidableEq

def SqlValue.asText : SqlValue → Option String
  | .text value => some value
  | _ => none

def SqlValue.asBlob : SqlValue → Option Bytes
  | .blob value => some value
  | _ => none

structure Columns where
  receivedAt : SqlValue
  sourceId : SqlValue
  eventId : SqlValue
  entityType : SqlValue
  timestamp : SqlValue
  latitude : SqlValue
  longitude : SqlValue
  altitudeM : SqlValue
  deriving DecidableEq

structure Record where
  columns : Columns
  sealed : SqlValue
  prevHash : SqlValue
  recordHash : SqlValue
  deriving DecidableEq

structure Row extends Record where
  seq : Int
  deriving DecidableEq

structure Table where
  rows : List Row
  sorted : rows.Pairwise fun a b => a.seq < b.seq
  deriving DecidableEq

def Table.empty : Table := ⟨[], .nil⟩

/-- The database file: the table, and the largest key `AUTOINCREMENT` ever handed out. -/
structure Database where
  table : Table
  sequence : Int
  deriving DecidableEq

def Database.init : Database := ⟨.empty, 0⟩

inductive StoreError where
  | invalidColumnType
  | hashLength (len : Nat)
  | constraintUnique
  | busy
  | io
  deriving DecidableEq

structure Appended where
  seq : Int
  recordHash : Digest
  deriving DecidableEq

inductive Audit where
  | intact (records : Int) (head : Digest)
  | broken (seq : Int) (reason : String)
  deriving DecidableEq

inductive Refusal where
  | undecodable
  | unregisteredSource (sourceId : String)
  | signature (error : SealError)
  deriving DecidableEq

namespace Table

def head (table : Table) : Except StoreError Digest :=
  match table.rows.getLast? with
  | none => .ok genesis
  | some row =>
    match row.recordHash.asBlob with
    | none => .error .invalidColumnType
    | some bytes => if sized : bytes.length = 32 then .ok ⟨bytes, sized⟩ else .error (.hashLength bytes.length)

def count (table : Table) : Int := table.rows.length

end Table

/-- How SQLite binds a float: NaN is stored as NULL, and a column of type REAL keeps no sign of zero. -/
def sqlReal (x : F64) : SqlValue :=
  if x.isNaN then .null else if x = .negZero then .real .zero else .real x

def columnsOf (event : Event) (receivedAt : String) : Columns where
  receivedAt := .text receivedAt
  sourceId := .text event.sourceId
  eventId := .text event.id
  entityType := .text event.entityType
  timestamp := .text event.timestamp
  latitude := (event.location.map fun l => sqlReal l.latitude).getD .null
  longitude := (event.location.map fun l => sqlReal l.longitude).getD .null
  altitudeM := (event.location.map fun l => sqlReal l.altitudeM).getD .null

namespace Database

/-- The key `AUTOINCREMENT` picks: one more than any key there is or ever was. -/
def nextSeq (db : Database) : Int := db.table.rows.foldl (fun acc row => max acc row.seq) db.sequence + 1

theorem foldl_max_le (rows : List Row) (start : Int) :
    start ≤ rows.foldl (fun acc row => max acc row.seq) start ∧
      ∀ row ∈ rows, row.seq ≤ rows.foldl (fun acc row => max acc row.seq) start := by
  induction rows generalizing start with
  | nil => simp
  | cons row rows ih =>
    obtain ⟨above, all⟩ := ih (max start row.seq)
    rw [List.foldl_cons]
    refine ⟨by omega, fun r member => ?_⟩
    rcases List.mem_cons.mp member with rfl | member
    · omega
    · exact all r member

theorem lt_nextSeq (db : Database) {row : Row} (member : row ∈ db.table.rows) : row.seq < db.nextSeq := by
  have := (foldl_max_le db.table.rows db.sequence).2 row member
  rw [nextSeq]
  omega

/-- `INSERT INTO record`: refused by the unique index when the hash is there already. -/
def insert (db : Database) (record : Record) : Except StoreError Database :=
  if db.table.rows.any fun row => decide (row.recordHash = record.recordHash) then .error .constraintUnique
  else .ok {
    table := ⟨db.table.rows ++ [{ record with seq := db.nextSeq }], by
      rw [List.pairwise_append]
      refine ⟨db.table.sorted, by simp, fun row member last same => ?_⟩
      rw [List.mem_singleton.mp same]
      exact db.lt_nextSeq member⟩
    sequence := db.nextSeq }

end Database

section

variable (sha256 : Bytes → Digest)

def link (prev : Digest) (sealed : Bytes) : Digest := sha256 (prev.bytes ++ sealed)

def recordOf (prev : Digest) (sealed : Bytes) (event : Event) (receivedAt : String) : Record where
  columns := columnsOf event receivedAt
  sealed := .blob sealed
  prevHash := .blob prev.bytes
  recordHash := .blob (link sha256 prev sealed).bytes

/-- Append an already-verified event, extending the chain. `fault` is a transaction that fails in the
    storage layer; every failure rolls the database back. -/
def Database.append (db : Database) (sealed : Bytes) (event : Event) (receivedAt : String) (fault : Bool) :
    Database × Except StoreError Appended :=
  match db.table.head with
  | .error e => (db, .error e)
  | .ok prev =>
    match db.insert (recordOf sha256 prev sealed event receivedAt) with
    | .error e => (db, .error e)
    | .ok inserted =>
      if fault then (db, .error .io)
      else (inserted, .ok ⟨inserted.sequence, link sha256 prev sealed⟩)

variable {SK VK : Type} (scheme : Scheme SK VK)

def auditLoop (keys : String → Option VK) : List Row → Digest → Int → Int → Except StoreError Audit
  | [], expectedPrev, _, records => .ok (.intact records expectedPrev)
  | row :: rows, expectedPrev, expectedSeq, records =>
    match row.columns.sourceId.asText, row.sealed.asBlob, row.prevHash.asBlob, row.recordHash.asBlob with
    | some sourceId, some sealed, some storedPrev, some storedHash =>
      let seq := row.seq
      if seq ≠ expectedSeq then
        .ok (.broken expectedSeq s!"record {expectedSeq} is missing (next stored is {seq})")
      else if storedPrev ≠ expectedPrev.bytes then
        .ok (.broken seq "previous-hash does not match the record before it")
      else
        let recomputed := link sha256 expectedPrev sealed
        if storedHash ≠ recomputed.bytes then
          .ok (.broken seq "record hash does not match its stored bytes")
        else
          match keys sourceId with
          | none => .ok (.broken seq s!"no verifying key configured for source {sourceId}")
          | some key =>
            match verify scheme sealed key with
            | .error _ => .ok (.broken seq s!"signature does not verify for source {sourceId}")
            | .ok _ => auditLoop keys rows recomputed (expectedSeq + 1) (records + 1)
    | _, _, _, _ => .error .invalidColumnType

def Table.audit (table : Table) (keys : String → Option VK) : Except StoreError Audit :=
  auditLoop sha256 scheme keys table.rows genesis 1 0

variable (decode : Bytes → Option Event)

def accept (sealed : Bytes) (keys : String → Option VK) : Except Refusal Event :=
  match decode (canonicalPart sealed) with
  | none => .error .undecodable
  | some event =>
    match keys event.sourceId with
    | none => .error (.unregisteredSource event.sourceId)
    | some key =>
      match verify scheme sealed key with
      | .error e => .error (.signature e)
      | .ok _ => .ok event

structure Call where
  sealed : Bytes
  receivedAt : String
  fault : Bool
  deriving DecidableEq

def Database.take (keys : String → Option VK) (db : Database) (call : Call) : Database :=
  match accept scheme decode call.sealed keys with
  | .error _ => db
  | .ok event => (db.append sha256 call.sealed event call.receivedAt call.fault).1

def Database.run (keys : String → Option VK) (db : Database) (calls : List Call) : Database :=
  calls.foldl (Database.take sha256 scheme decode keys) db

end

end SinkModel

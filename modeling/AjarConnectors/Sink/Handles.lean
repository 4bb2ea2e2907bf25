import AjarConnectors.Sink.Columns
import AjarConnectors.Transition.Run

namespace SinkModel

open EventModel SealModel

structure Pending where
  prev : Digest
  sealed : Bytes
  event : Event
  receivedAt : String
  deriving DecidableEq

/-- Where one handle stands in `append`: called with an accepted event, its head read, its deferred
    transaction begun, or its row inserted in that transaction and the write lock held. -/
inductive Handle where
  | idle
  | called (sealed : Bytes) (event : Event) (receivedAt : String)
  | read (pending : Pending)
  | begun (pending : Pending)
  | inserted (pending : Pending) (uncommitted : Database)
  deriving DecidableEq

/-- The database as committed, the handle that holds the write lock, every handle open on it, and the
    envelopes whose `append` has returned `Ok`. -/
structure Shared where
  db : Database
  writer : Option Nat
  handles : Nat → Handle
  returned : List Bytes

/-- One step of one handle. A write against a held lock waits, or gives up when the busy timeout ends. -/
inductive HandleStep where
  | call (sealed : Bytes) (receivedAt : String)
  | readHead
  | begin
  | insert (timeout : Bool)
  | commit (fault : Bool)
  deriving DecidableEq

def Shared.start : Shared := ⟨.init, none, fun _ => .idle, []⟩

def Shared.move (s : Shared) (i : Nat) (handle : Handle) : Shared :=
  { s with handles := fun j => if j = i then handle else s.handles j }

section

variable (sha256 : Bytes → Digest) {SK VK : Type} (scheme : Scheme SK VK) (decode : Bytes → Option Event)
  (keys : String → Option VK)

def Pending.record (pending : Pending) : Record :=
  recordOf sha256 pending.prev pending.sealed pending.event pending.receivedAt

def Shared.step (s : Shared) (input : Nat × HandleStep) : Shared :=
  let i := input.1
  match input.2, s.handles i with
  | .call sealed receivedAt, .idle =>
    match accept scheme decode sealed keys with
    | .error _ => s
    | .ok event => s.move i (.called sealed event receivedAt)
  | .readHead, .called sealed event receivedAt =>
    match s.db.table.head with
    | .error _ => s.move i .idle
    | .ok prev => s.move i (.read ⟨prev, sealed, event, receivedAt⟩)
  | .begin, .read pending => s.move i (.begun pending)
  | .insert timeout, .begun pending =>
    match s.writer with
    | some _ => if timeout then s.move i .idle else s
    | none =>
      match s.db.insert (pending.record sha256) with
      | .error _ => s.move i .idle
      | .ok uncommitted => { s.move i (.inserted pending uncommitted) with writer := some i }
  | .commit fault, .inserted pending uncommitted =>
    let s := { s.move i .idle with writer := none }
    if fault then s else { s with db := uncommitted, returned := s.returned ++ [pending.sealed] }
  | _, _ => s

def Shared.run (s : Shared) (inputs : List (Nat × HandleStep)) : Shared :=
  inputs.foldl (Shared.step sha256 scheme decode keys) s

def Table.OneChain (table : Table) : Prop :=
  (∃ n h, table.audit sha256 scheme keys = .ok (.intact n h)) ∧ (table.rows.map fun row => row.prevHash).Nodup

/-- A handle that inserts does so behind the head it read, and its link is not a preimage of `GENESIS`. -/
def freshHead (s : Shared) (input : Nat × HandleStep) : Bool :=
  match input.2, s.handles input.1, s.writer with
  | .insert _, .begun pending, none =>
    decide (s.db.table.head = .ok pending.prev) && decide (link sha256 pending.prev pending.sealed ≠ genesis)
  | _, _, _ => true

end

end SinkModel

namespace SinkProof

open EventModel SealModel SinkModel

section

variable {sha256 : Bytes → Digest} {SK VK : Type} {scheme : Scheme SK VK} {keys : String → Option VK}
  {decode : Bytes → Option Event}

structure Forkless (sha256 : Bytes → Digest) (scheme : Scheme SK VK) (keys : String → Option VK) (db : Database) :
    Prop extends Chained sha256 scheme keys db where
  noGenesis : ∀ row ∈ db.table.rows, row.recordHash ≠ .blob genesis.bytes

theorem prevHashes_eq {rows : List Row} (continues : Continues sha256 scheme keys genesis 1 rows) :
    rows.map (fun row => row.prevHash) = (.blob genesis.bytes :: rows.map fun row => row.recordHash).take rows.length := by
  apply List.ext_getElem?
  intro i
  rw [List.getElem?_map, List.getElem?_take]
  cases found : rows[i]? with
  | none =>
    have beyond := List.getElem?_eq_none_iff.mp found
    rw [if_neg (by omega), Option.map_none]
  | some row =>
    have inside := (List.getElem?_eq_some_iff.mp found).1
    rw [if_pos inside, Option.map_some]
    have linked := (continues_iff_linked rows).mp continues i row found
    rw [linked.2.1]
    cases i with
    | zero => rfl
    | succ i =>
      have before : rows[i]? = some rows[i] := List.getElem?_eq_getElem (by omega)
      rw [storedPrev, List.getElem?_cons_succ, List.getElem?_map, before]
      rfl

theorem Forkless.oneChain {db : Database} (forkless : Forkless sha256 scheme keys db) :
    db.table.OneChain sha256 scheme keys := by
  obtain ⟨h, intact, -⟩ := forkless.toChained.audit
  refine ⟨⟨_, h, intact⟩, ?_⟩
  rw [prevHashes_eq forkless.continues]
  refine List.Nodup.sublist (List.take_sublist _ _) (List.nodup_cons.mpr ⟨?_, forkless.unique⟩)
  intro member
  obtain ⟨row, present, same⟩ := List.mem_map.mp member
  exact forkless.noGenesis row present same

theorem Forkless.insert {db db' : Database} (forkless : Forkless sha256 scheme keys db) {pending : Pending}
    (accepted : accept scheme decode pending.sealed keys = .ok pending.event)
    (head : db.table.head = .ok pending.prev) (fresh : link sha256 pending.prev pending.sealed ≠ genesis)
    (inserted : db.insert (pending.record sha256) = .ok db') : Forkless sha256 scheme keys db' := by
  obtain ⟨chained, -, rows⟩ := forkless.toChained.insert head pending.receivedAt accepted inserted
  refine ⟨chained, fun row member => ?_⟩
  rw [rows, List.mem_append, List.mem_singleton] at member
  rcases member with old | rfl
  · exact forkless.noGenesis row old
  · intro same
    exact fresh (digest_ext (SqlValue.blob.inj same))

def Handle.Sound (sha256 : Bytes → Digest) (scheme : Scheme SK VK) (decode : Bytes → Option Event)
    (keys : String → Option VK) : Handle → Prop
  | .idle => True
  | .called sealed event _ => accept scheme decode sealed keys = .ok event
  | .read pending | .begun pending => accept scheme decode pending.sealed keys = .ok pending.event
  | .inserted _ uncommitted => Forkless sha256 scheme keys uncommitted

/-- The committed table is a chain of the envelopes returned, and only the handle that holds the lock
    has a row to add to it. -/
structure Serial (sha256 : Bytes → Digest) (scheme : Scheme SK VK) (decode : Bytes → Option Event)
    (keys : String → Option VK) (s : Shared) : Prop where
  forkless : Forkless sha256 scheme keys s.db
  returned : s.db.table.sealeds = s.returned
  handles : ∀ i, Handle.Sound sha256 scheme decode keys (s.handles i)
  locked : ∀ i pending uncommitted, s.handles i = .inserted pending uncommitted →
    s.writer = some i ∧ uncommitted.table.sealeds = s.db.table.sealeds ++ [pending.sealed]

theorem start_serial : Serial sha256 scheme decode keys .start where
  forkless := ⟨init_chained, by simp [Shared.start, Database.init, Table.empty]⟩
  returned := rfl
  handles := fun _ => trivial
  locked := fun _ _ _ inserted => by cases inserted

theorem insert_sealeds {db db' : Database} {pending : Pending}
    (inserted : db.insert (pending.record sha256) = .ok db') :
    db'.table.sealeds = db.table.sealeds ++ [pending.sealed] := by
  unfold Database.insert at inserted
  split at inserted
  · cases inserted
  · cases inserted
    rw [Table.sealeds, List.map_append]
    rfl

namespace Serial

variable {s : Shared} (serial : Serial sha256 scheme decode keys s)

include serial

theorem move (i : Nat) (handle : Handle) (sound : Handle.Sound sha256 scheme decode keys handle)
    (unlocked : ∀ pending uncommitted, handle ≠ .inserted pending uncommitted) :
    Serial sha256 scheme decode keys (s.move i handle) := by
  refine ⟨serial.forkless, serial.returned, fun j => ?_, fun j pending uncommitted inserted => ?_⟩
  · simp only [Shared.move]
    split
    · exact sound
    · exact serial.handles j
  · simp only [Shared.move] at inserted
    split at inserted
    · exact absurd inserted (unlocked pending uncommitted)
    · exact serial.locked j pending uncommitted inserted

theorem lock (i : Nat) {pending : Pending} {uncommitted : Database} (free : s.writer = none)
    (forkless : Forkless sha256 scheme keys uncommitted)
    (sealeds : uncommitted.table.sealeds = s.db.table.sealeds ++ [pending.sealed]) :
    Serial sha256 scheme decode keys { s.move i (.inserted pending uncommitted) with writer := some i } := by
  refine ⟨serial.forkless, serial.returned, fun j => ?_, fun j pending' uncommitted' inserted => ?_⟩
  · simp only [Shared.move]
    split
    · exact forkless
    · exact serial.handles j
  · simp only [Shared.move] at inserted
    split at inserted
    · rename_i same
      cases inserted
      exact ⟨congrArg some same.symm, sealeds⟩
    · have held := (serial.locked j pending' uncommitted' inserted).1
      rw [free] at held
      cases held

theorem unlock {i : Nat} (held : s.writer = some i) {db : Database} {returned : List Bytes}
    (forkless : Forkless sha256 scheme keys db) (sealeds : db.table.sealeds = returned) :
    Serial sha256 scheme decode keys { s.move i .idle with writer := none, db, returned } := by
  refine ⟨forkless, sealeds, (serial.move i .idle trivial (by simp)).handles, fun j pending uncommitted inserted => ?_⟩
  simp only [Shared.move] at inserted
  split at inserted
  · cases inserted
  · rename_i other
    have holder := (serial.locked j pending uncommitted inserted).1
    rw [held, Option.some.injEq] at holder
    exact absurd holder.symm other

theorem insert (i : Nat) {pending : Pending} (timeout : Bool) (handle : s.handles i = .begun pending)
    (fresh : freshHead sha256 s (i, .insert timeout) = true) :
    Serial sha256 scheme decode keys (s.step sha256 scheme decode keys (i, .insert timeout)) := by
  have accepted : accept scheme decode pending.sealed keys = .ok pending.event := by
    have sound := serial.handles i
    rwa [handle] at sound
  simp only [Shared.step, handle]
  cases writer : s.writer with
  | some other =>
    dsimp only
    split
    · exact serial.move i .idle trivial (by simp)
    · exact serial
  | none =>
    simp only [freshHead, handle, writer, Bool.and_eq_true, decide_eq_true_eq] at fresh
    cases inserted : s.db.insert (pending.record sha256) with
    | error e => exact serial.move i .idle trivial (by simp)
    | ok uncommitted =>
      exact serial.lock i writer (serial.forkless.insert accepted fresh.1 fresh.2 inserted) (insert_sealeds inserted)

theorem commit (i : Nat) {pending : Pending} {uncommitted : Database} (fault : Bool)
    (handle : s.handles i = .inserted pending uncommitted) :
    Serial sha256 scheme decode keys (s.step sha256 scheme decode keys (i, .commit fault)) := by
  have forkless : Forkless sha256 scheme keys uncommitted := by
    have sound := serial.handles i
    rwa [handle] at sound
  obtain ⟨held, sealeds⟩ := serial.locked i pending uncommitted handle
  simp only [Shared.step, handle]
  split
  · exact serial.unlock held serial.forkless serial.returned
  · exact serial.unlock held forkless (by rw [sealeds, serial.returned]; rfl)

theorem step (input : Nat × HandleStep) (fresh : freshHead sha256 s input = true) :
    Serial sha256 scheme decode keys (s.step sha256 scheme decode keys input) := by
  obtain ⟨i, input⟩ := input
  have sound := serial.handles i
  cases handle : s.handles i with
  | idle =>
    cases input with
    | call sealed receivedAt =>
      simp only [Shared.step, handle]
      cases accepted : accept scheme decode sealed keys with
      | error e => exact serial
      | ok event => exact serial.move i _ accepted (by simp)
    | readHead | begin | insert _ | commit _ => simpa only [Shared.step, handle] using serial
  | called sealed event receivedAt =>
    rw [handle] at sound
    cases input with
    | readHead =>
      simp only [Shared.step, handle]
      cases head : s.db.table.head with
      | error e => exact serial.move i .idle trivial (by simp)
      | ok prev => exact serial.move i _ sound (by simp)
    | call _ _ | begin | insert _ | commit _ => simpa only [Shared.step, handle] using serial
  | read pending =>
    rw [handle] at sound
    cases input with
    | begin =>
      simp only [Shared.step, handle]
      exact serial.move i _ sound (by simp)
    | call _ _ | readHead | insert _ | commit _ => simpa only [Shared.step, handle] using serial
  | begun pending =>
    cases input with
    | insert timeout => exact serial.insert i timeout handle fresh
    | call _ _ | readHead | begin | commit _ => simpa only [Shared.step, handle] using serial
  | inserted pending uncommitted =>
    cases input with
    | commit fault => exact serial.commit i fault handle
    | call _ _ | readHead | begin | insert _ => simpa only [Shared.step, handle] using serial

end Serial

/-- Any number of handles on one database, their appends interleaved step by step: as long as every
    insert goes behind the head its handle read, the committed table is one chain at every moment, of
    the envelopes whose append returned, in the order they did. -/
theorem fresh_heads_keep_one_chain (sha256 : Bytes → Digest) (scheme : Scheme SK VK) (decode : Bytes → Option Event)
    (keys : String → Option VK) (inputs : List (Nat × HandleStep))
    (allowed : Transition.Allowed (Shared.step sha256 scheme decode keys)
      (fun s input => freshHead sha256 s input = true) .start inputs) :
    let s := Shared.start.run sha256 scheme decode keys inputs
    s.db.table.OneChain sha256 scheme keys ∧ s.db.table.sealeds = s.returned := by
  have serial := Transition.invariant (Serial sha256 scheme decode keys)
    (fun s input serial fresh => serial.step input fresh) start_serial allowed
  exact ⟨serial.forkless.oneChain, serial.returned⟩

end

end SinkProof

namespace SinkModel

def orderedAppends : List (Nat × HandleStep) :=
  [(0, .call sealedA "t"), (1, .call sealedB "t"), (0, .readHead), (0, .begin), (0, .insert false), (0, .commit false),
    (1, .readHead), (1, .begin), (1, .insert false), (1, .commit false)]

def forkedAppends : List (Nat × HandleStep) :=
  [(0, .call sealedA "t"), (1, .call sealedB "t"), (0, .readHead), (1, .readHead), (0, .begin), (1, .begin),
    (0, .insert false), (1, .insert false), (0, .commit false), (1, .insert false), (1, .commit false)]

end SinkModel

namespace SinkProof

open SinkModel SealModel

theorem orderedAppends_one_chain :
    (Shared.start.run testSha256 testScheme testDecode testKeys orderedAppends).db.table.OneChain testSha256 testScheme
      testKeys :=
  (fresh_heads_keep_one_chain testSha256 testScheme testDecode testKeys orderedAppends (by decide)).1

theorem forkedAppends_fork :
    ¬ ∀ inputs : List (Nat × HandleStep),
      let s := Shared.start.run testSha256 testScheme testDecode testKeys inputs
      s.db.table.OneChain testSha256 testScheme testKeys ∧ s.db.table.sealeds = s.returned := by
  intro claim
  have linear := (claim forkedAppends).1.2
  revert linear
  decide

end SinkProof

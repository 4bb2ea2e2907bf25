import AjarConnectors.Runtime.Loop
import AjarConnectors.Sink.History

namespace SinkModel

open EventModel SealModel

/-- What `run` has set up before its loop. -/
structure Recorder (SK VK : Type) where
  sha256 : Bytes → Digest
  scheme : Scheme SK VK
  decode : Bytes → Option Event
  keys : String → Option VK
  /-- Whether verified events go to the CoT output too. -/
  cot : Bool

/-- A message of the subscription: its payload, the time of its receipt where that has an RFC 3339 form, and whether
    the storage layer fails its transaction. -/
structure Delivery where
  payload : Bytes
  receivedAt : Option String
  fault : Bool
  deriving DecidableEq

/-- The loop between two messages. `held` is the count it found, `shown` what it gave to the CoT output; it is `failed`
    once `run` has returned an error. -/
structure Recording where
  database : Database
  held : Int
  accepted : Nat
  refused : Nat
  shown : List Event
  failed : Bool

def Recording.start (database : Database) : Recording := ⟨database, database.table.count, 0, 0, [], false⟩

/-- The hashed strings of a chain of these messages. -/
def chainInputs (sha256 : Bytes → Digest) (sealeds : List Bytes) : List Bytes :=
  (HashChain.uses (link sha256) genesis sealeds).map fun used => used.1.bytes ++ used.2

namespace Recorder

variable {SK VK : Type} (r : Recorder SK VK)

def take (s : Recording) (d : Delivery) : Recording :=
  if s.failed then s
  else match accept r.scheme r.decode d.payload r.keys with
  | .error _ => { s with refused := s.refused + 1 }
  | .ok event =>
    match d.receivedAt with
    | none => { s with failed := true }
    | some receivedAt =>
      match s.database.append r.sha256 d.payload event receivedAt d.fault with
      | (database, .error _) => { s with database, failed := true }
      | (database, .ok _) =>
        { s with
          database
          accepted := s.accepted + 1
          shown := if r.cot then s.shown ++ [event] else s.shown }

def run (s : Recording) (ds : List Delivery) : Recording := ds.foldl r.take s

/-- One process after the other on the same database. -/
def sessions (db : Database) (each : List (List Delivery)) : Database :=
  each.foldl (fun db ds => (r.run (.start db) ds).database) db

/-- What the sink makes of a message on its own. -/
def read (d : Delivery) : Option (Delivery × Event) :=
  match accept r.scheme r.decode d.payload r.keys with
  | .error _ => none
  | .ok event => some (d, event)

def readAll (ds : List Delivery) : List (Delivery × Event) := ds.filterMap r.read

def refusals (ds : List Delivery) : Nat := ds.countP fun d => (r.read d).isNone

/-- The message cannot be stored: there is no time for it, the storage layer fails, or its hash is in the table. -/
def Unstorable (db : Database) (d : Delivery) : Prop :=
  d.receivedAt = none ∨ d.fault = true ∨
    ∃ row ∈ db.table.rows, row.recordHash =
      .blob (link r.sha256 (HashChain.final (link r.sha256) genesis db.table.sealeds) d.payload).bytes

end Recorder

/-- What a row holds of its message. -/
def Row.content (row : Row) : SqlValue × Columns := (row.sealed, row.columns)

def contentOf (kept : Delivery × Event) : SqlValue × Columns :=
  (.blob kept.1.payload, columnsOf kept.2 (kept.1.receivedAt.getD ""))

/-- The loop against the messages it has had. It keeps those that verify, in order, and counts the others, up to the
    first that verifies and cannot be stored. -/
structure Recorded {SK VK : Type} (r : Recorder SK VK) (db : Database) (ds : List Delivery) (s : Recording)
    (kept : List (Delivery × Event)) : Prop where
  chained : SinkProof.Chained r.sha256 r.scheme r.keys s.database
  contents : s.database.table.rows.map Row.content = db.table.rows.map Row.content ++ kept.map contentOf
  held : s.held = db.table.count
  accepted : s.accepted = kept.length
  shown : s.shown = if r.cot then kept.map Prod.snd else []
  running : s.failed = false → kept = r.readAll ds ∧ s.refused = r.refusals ds
  failed : s.failed = true → ∃ front d back, ds = front ++ d :: back ∧ kept = r.readAll front ∧
    s.refused = r.refusals front ∧ (r.read d).isSome ∧ r.Unstorable s.database d

end SinkModel

namespace SinkProof

open EventModel SealModel SinkModel

section

variable {SK VK : Type} {r : Recorder SK VK} {db : Database} {ds : List Delivery} {s : Recording}
  {kept : List (Delivery × Event)}

theorem read_eq_some {d : Delivery} {entry : Delivery × Event} : r.read d = some entry ↔
    entry.1 = d ∧ accept r.scheme r.decode d.payload r.keys = .ok entry.2 := by
  unfold Recorder.read
  cases accept r.scheme r.decode d.payload r.keys with
  | error e => simp
  | ok event =>
    rw [Option.some.injEq, Prod.ext_iff, Except.ok.injEq, eq_comm (a := d), eq_comm (a := event)]

theorem readAll_concat (r : Recorder SK VK) (ds : List Delivery) (d : Delivery) :
    r.readAll (ds ++ [d]) = r.readAll ds ++ (r.read d).toList := by
  unfold Recorder.readAll
  rw [List.filterMap_append]
  cases read : r.read d <;> simp [read]

theorem refusals_concat (r : Recorder SK VK) (ds : List Delivery) (d : Delivery) :
    r.refusals (ds ++ [d]) = r.refusals ds + (r.read d).isNone.toNat := by
  unfold Recorder.refusals
  rw [List.countP_append, List.countP_singleton]
  cases (r.read d).isNone <;> rfl

/-- What a row of the chain was hashed from. -/
theorem recordHash_eq (chained : Chained r.sha256 r.scheme r.keys db) {i : Nat} {row : Row}
    (found : db.table.rows[i]? = some row) :
    row.recordHash = .blob (HashChain.final (link r.sha256) genesis (db.table.sealeds.take (i + 1))).bytes := by
  obtain ⟨_, _, _, hash, _⟩ := continues_getElem? chained.continues found
  have here : db.table.sealeds[i]? = some row.sealedBytes := by
    rw [Table.sealeds, List.getElem?_map, found]
    rfl
  rw [hash, List.take_add_one, here, HashChain.final_append, Table.sealeds, List.map_take]
  rfl

/-- Without a collision the next link is in no row yet. -/
theorem link_fresh (chained : Chained r.sha256 r.scheme r.keys db) (payload : Bytes)
    (free : CollisionFree r.sha256 (chainInputs r.sha256 (db.table.sealeds ++ [payload]))) :
    ¬∃ row ∈ db.table.rows, row.recordHash =
      .blob (link r.sha256 (HashChain.final (link r.sha256) genesis db.table.sealeds) payload).bytes := by
  intro taken
  obtain ⟨row, member, same⟩ := taken
  obtain ⟨i, found⟩ := List.mem_iff_getElem?.mp member
  rw [recordHash_eq chained found, SqlValue.blob.injEq] at same
  have final : HashChain.final (link r.sha256) genesis (db.table.sealeds.take (i + 1)) =
      HashChain.final (link r.sha256) genesis (db.table.sealeds ++ [payload]) := by
    rw [HashChain.final_append]
    exact digest_ext same
  have binding : HashChain.Binding (link r.sha256) genesis
      (HashChain.uses (link r.sha256) genesis (db.table.sealeds.take (i + 1)) ++
        HashChain.uses (link r.sha256) genesis (db.table.sealeds ++ [payload])) := by
    refine (CollisionFree.binding free).mono fun used among => ?_
    rcases List.mem_append.mp among with early | whole
    · rw [← List.take_append_drop (i + 1) db.table.sealeds, List.append_assoc, HashChain.uses_append]
      exact List.mem_append_left _ early
    · exact whole
  have length := congrArg List.length (HashChain.eq_of_final_eq binding final)
  rw [List.length_take, List.length_append, List.length_singleton] at length
  omega

theorem insert_error {record : Record} {e : StoreError} (refused : db.insert record = .error e) :
    ∃ row ∈ db.table.rows, row.recordHash = record.recordHash := by
  unfold Database.insert at refused
  split at refused
  · rename_i present
    obtain ⟨row, member, same⟩ := List.any_eq_true.mp present
    exact ⟨row, member, of_decide_eq_true same⟩
  · cases refused

/-- What an append of an accepted message can do. -/
theorem append_cases (chained : Chained r.sha256 r.scheme r.keys db) {payload : Bytes} {event : Event}
    (accepted : accept r.scheme r.decode payload r.keys = .ok event) (receivedAt : String) (fault : Bool) :
    (∃ e, db.append r.sha256 payload event receivedAt fault = (db, .error e) ∧
      r.Unstorable db ⟨payload, some receivedAt, fault⟩) ∨
    ∃ db' appended, db.append r.sha256 payload event receivedAt fault = (db', .ok appended) ∧
      Chained r.sha256 r.scheme r.keys db' ∧
      db'.table.rows.map Row.content =
        db.table.rows.map Row.content ++ [contentOf (⟨payload, some receivedAt, fault⟩, event)] := by
  have head := head_of_continues chained.continues
  simp only [Database.append, head]
  cases inserted : db.insert (recordOf r.sha256 (HashChain.final (link r.sha256) genesis db.table.sealeds) payload event
      receivedAt) with
  | error e => exact Or.inl ⟨e, rfl, Or.inr (Or.inr (insert_error inserted))⟩
  | ok db' =>
    obtain ⟨next, sequence, rows⟩ := chained.insert head receivedAt accepted inserted
    cases fault with
    | true => exact Or.inl ⟨.io, rfl, Or.inr (Or.inl rfl)⟩
    | false =>
      refine Or.inr ⟨db', _, rfl, next, ?_⟩
      rw [rows, List.map_append]
      rfl

theorem start_recorded (chained : Chained r.sha256 r.scheme r.keys db) : Recorded r db [] (.start db) [] where
  chained := chained
  contents := (List.append_nil _).symm
  held := rfl
  accepted := rfl
  shown := (ite_self _).symm
  running _ := ⟨rfl, rfl⟩
  failed ended := by cases ended

theorem take_recorded (inv : Recorded r db ds s kept) (d : Delivery) :
    ∃ kept', Recorded r db (ds ++ [d]) (r.take s d) kept' := by
  cases ended : s.failed with
  | true =>
    have same : r.take s d = s := if_pos ended
    obtain ⟨front, next, back, split, rest⟩ := inv.failed ended
    rw [same]
    refine ⟨kept, { inv with running := fun running => ?_, failed := fun _ => ⟨front, next, back ++ [d], ?_, rest⟩ }⟩
    · rw [ended] at running
      cases running
    · rw [split, List.append_assoc]
      rfl
  | false =>
    obtain ⟨all, refused⟩ := inv.running ended
    unfold Recorder.take
    rw [if_neg (by rw [ended]; decide)]
    cases accepted : accept r.scheme r.decode d.payload r.keys with
    | error e =>
      have none : r.read d = none := by rw [Recorder.read, accepted]
      refine ⟨kept, { inv with running := fun _ => ⟨?_, ?_⟩, failed := fun failed => ?_ }⟩
      · rw [readAll_concat, none, all]
        exact (List.append_nil _).symm
      · rw [refusals_concat, none, refused]
        rfl
      · rw [ended] at failed
        cases failed
    | ok event =>
      have read : r.read d = some (d, event) := by rw [Recorder.read, accepted]
      have stops {failed : Recording} (database : failed.database = s.database) (held : failed.held = s.held)
          (count : failed.accepted = s.accepted) (refusals : failed.refused = s.refused) (shown : failed.shown = s.shown)
          (ends : failed.failed = true) (unstorable : r.Unstorable s.database d) : Recorded r db (ds ++ [d]) failed kept := by
        refine ⟨?_, ?_, held.trans inv.held, count.trans inv.accepted, shown.trans inv.shown, fun running => ?_, fun _ => ?_⟩
        · rw [database]
          exact inv.chained
        · rw [database]
          exact inv.contents
        · rw [ends] at running
          cases running
        · refine ⟨ds, d, [], rfl, all, refusals.trans refused, ?_, ?_⟩
          · rw [read]
            rfl
          · rw [database]
            exact unstorable
      cases time : d.receivedAt with
      | none => exact ⟨kept, stops rfl rfl rfl rfl rfl rfl (Or.inl time)⟩
      | some receivedAt =>
        dsimp only
        rcases append_cases inv.chained accepted receivedAt d.fault with
          ⟨e, failed, unstorable⟩ | ⟨db', appended, stored, chained, contents⟩
        · rw [failed]
          refine ⟨kept, stops rfl rfl rfl rfl rfl rfl ?_⟩
          rw [← time] at unstorable
          exact unstorable
        · rw [stored]
          refine ⟨kept ++ [(d, event)], chained, ?_, inv.held, ?_, ?_, fun _ => ⟨?_, ?_⟩, fun failed => ?_⟩
          · rw [← time] at contents
            rw [contents, inv.contents, List.append_assoc, List.map_append]
            rfl
          · rw [List.length_append, ← inv.accepted]
            rfl
          · dsimp only
            rw [inv.shown]
            cases r.cot with
            | true => simp only [if_true, List.map_append, List.map_singleton]
            | false => rfl
          · rw [readAll_concat, read, all]
            rfl
          · dsimp only
            rw [refusals_concat, read, refused]
            rfl
          · dsimp only at failed
            rw [ended] at failed
            cases failed

theorem run_recorded (chained : Chained r.sha256 r.scheme r.keys db) (ds : List Delivery) :
    ∃ kept, Recorded r db ds (r.run (.start db) ds) kept := by
  have free : Transition.Allowed r.take (fun _ _ => True) (.start db) ds := .of_forall fun _ _ _ => trivial
  refine Transition.invariant_of_past (fun past s => ∃ kept, Recorded r db past s kept) ?_
    ⟨[], start_recorded chained⟩ free
  intro past s d inv _
  obtain ⟨kept, inv⟩ := inv
  exact take_recorded inv d

theorem sealeds_eq (inv : Recorded r db ds s kept) :
    s.database.table.sealeds = db.table.sealeds ++ kept.map fun entry => entry.1.payload := by
  have bytes := congrArg (List.map fun content : SqlValue × Columns => content.1.asBlob.getD []) inv.contents
  rw [List.map_append, List.map_map, List.map_map, List.map_map] at bytes
  exact bytes

theorem chainInputs_append (sha256 : Bytes → Digest) (front back : List Bytes) {input : Bytes}
    (member : input ∈ chainInputs sha256 front) : input ∈ chainInputs sha256 (front ++ back) := by
  unfold chainInputs at member ⊢
  rw [HashChain.uses_append, List.map_append]
  exact List.mem_append_left _ member

theorem CollisionFree.mono {sha256 : Bytes → Digest} {inputs fewer : List Bytes} (free : CollisionFree sha256 inputs)
    (subset : ∀ input ∈ fewer, input ∈ inputs) : CollisionFree sha256 fewer :=
  ⟨fun a memA b memB => free.injective a (subset a memA) b (subset b memB), fun a member => free.noGenesis a (subset a member)⟩

/-- While every message can be timed and stored and no two links collide, the loop goes on. -/
theorem keeps_running (inv : Recorded r db ds s kept) (stored : ∀ d ∈ ds, d.receivedAt ≠ none ∧ d.fault = false)
    (free : CollisionFree r.sha256
      (chainInputs r.sha256 (db.table.sealeds ++ (r.readAll ds).map fun entry => entry.1.payload))) :
    s.failed = false := by
  by_contra ended
  rw [Bool.not_eq_false] at ended
  obtain ⟨front, d, back, split, some, _, verified, unstorable⟩ := inv.failed ended
  obtain ⟨timed, sound⟩ := stored d (by rw [split]; exact List.mem_append_right _ List.mem_cons_self)
  rcases unstorable with untimed | fault | taken
  · exact timed untimed
  · rw [sound] at fault
    cases fault
  · obtain ⟨⟨d', event⟩, read⟩ := Option.isSome_iff_exists.mp verified
    obtain ⟨rfl, _⟩ := read_eq_some.mp read
    refine link_fresh inv.chained d'.payload (CollisionFree.mono free fun input member => ?_) taken
    have all : db.table.sealeds ++ (r.readAll ds).map (fun entry => entry.1.payload) =
        s.database.table.sealeds ++ [d'.payload] ++ (r.readAll back).map fun entry => entry.1.payload := by
      rw [sealeds_eq inv, some, split, ← List.append_cons]
      unfold Recorder.readAll
      rw [List.filterMap_append, List.filterMap_cons, read, List.map_append, List.append_assoc]
      rfl
    rw [all]
    exact chainInputs_append r.sha256 _ _ member

theorem sessions_chained (r : Recorder SK VK) (each : List (List Delivery)) :
    Chained r.sha256 r.scheme r.keys (r.sessions .init each) := by
  refine Transition.always (fun db => Chained r.sha256 r.scheme r.keys db) ?_ each init_chained
  intro db ds chained
  obtain ⟨kept, inv⟩ := run_recorded chained ds
  exact inv.chained

/-- Whatever messages come, after whatever earlier processes: the sink keeps those that verify, each as often as it
    came and in order, until one of them cannot be stored, counts them and the refused ones, shows exactly the kept ones,
    and its table audits intact. Where all can be stored it never stops. -/
theorem messages_are_recorded_or_refused (r : Recorder SK VK) (each : List (List Delivery)) (ds : List Delivery) :
    let db := r.sessions .init each
    let s := r.run (.start db) ds
    (∃ kept, Recorded r db ds s kept) ∧ s.database.table.count = s.held + s.accepted ∧
    (∃ h, s.database.table.audit r.sha256 r.scheme r.keys = .ok (.intact s.database.table.count h) ∧
      s.database.table.head = .ok h) ∧
    ((∀ d ∈ ds, d.receivedAt ≠ none ∧ d.fault = false) →
      CollisionFree r.sha256
        (chainInputs r.sha256 (db.table.sealeds ++ (r.readAll ds).map fun entry => entry.1.payload)) →
      s.failed = false ∧ s.database.table.sealeds = db.table.sealeds ++ (r.readAll ds).map fun entry => entry.1.payload) := by
  obtain ⟨kept, inv⟩ := run_recorded (sessions_chained r each) ds
  refine ⟨⟨kept, inv⟩, ?_, inv.chained.audit, fun stored free => ?_⟩
  · have count := congrArg List.length inv.contents
    rw [List.length_append, List.length_map, List.length_map, List.length_map] at count
    rw [inv.held, inv.accepted, Table.count, Table.count, count, Int.natCast_add]
  · have on := keeps_running inv stored free
    rw [sealeds_eq inv, (inv.running on).1]
    exact ⟨on, rfl⟩

end

end SinkProof

namespace SinkModel

open EventModel SealModel RuntimeModel

def testRecorder : Recorder Unit Unit := ⟨testSha256, testScheme, testDecode, testKeys, true⟩

def twoDeliveries : List Delivery :=
  [⟨sealedA, some "t1", false⟩, ⟨[1, 2, 3], some "t2", false⟩, ⟨sealedB, some "t3", false⟩]

end SinkModel

namespace SinkProof

open EventModel SealModel SinkModel

theorem twoDeliveries_are_recorded :
    (testRecorder.run (.start .init) twoDeliveries).failed = false ∧
      (testRecorder.run (.start .init) twoDeliveries).database.table.sealeds = [sealedA, sealedB] :=
  (messages_are_recorded_or_refused testRecorder [] twoDeliveries).2.2.2 (by decide) ⟨by decide, by decide⟩

end SinkProof

/-! From the connector's loop into the table. -/

namespace SinkModel

open EventModel SealModel RuntimeModel

variable {SK VK : Type}

/-- The sink has the connector's key under the event's source, and reads the event back from its canonical bytes. -/
structure Recorder.Knows (r : Recorder SK VK) (setup : Setup SK VK) (event : Event) : Prop where
  registered : r.keys event.sourceId = some (setup.scheme.verifyingKey setup.key)
  decodes : r.decode (setup.canonicalBytes event) = some event

/-- What the sink gets from the bus: all that the connector sent, in any order, as often as it comes and among anything
    else, as long as nobody else signs with the connector's key. -/
structure Carried (setup : Setup SK VK) (wire : List Message) (ds : List Delivery) : Prop where
  arrives : ∀ message ∈ wire, ∃ d ∈ ds, d.payload = message.2
  authentic : ∀ d ∈ ds, (verify setup.scheme d.payload (setup.scheme.verifyingKey setup.key)).isOk = true →
    ∃ message ∈ wire, message.2 = d.payload

end SinkModel

namespace RuntimeModel

/-- The drain task delivers what it publishes. -/
def Drain.Sends (d : Drain) : Prop := ∀ item, .deliver item ∈ d.trace → .publish item ∈ d.trace

end RuntimeModel

namespace RuntimeProof

open EventModel SealModel RuntimeModel

section

variable {SK VK : Type} {π : Type*} {setup : Setup SK VK} {parse : π → SealModel.Bytes → π × Except String (List Event)}

theorem step_sends (scheme : Scheme SK VK) (key : SK) (d : Drain) {input : Input} (own : input.drains = true)
    (sent : d.Sends) : (d.step scheme key input).Sends := by
  intro item delivered
  have steps := step_steps scheme key d own
  generalize d.step scheme key input = d' at steps delivered ⊢
  cases steps with
  | still _ _ | rejects _ _ | checks _ _ _ | peeks _ _ => exact sent item delivered
  | publishes held confirmed _ otherwise _ _ _ _ =>
    unfold Drain.published at delivered ⊢
    rcases List.mem_append.mp delivered with old | new
    · exact List.mem_append_left _ (sent item old)
    · apply List.mem_append_right
      cases confirmed with
      | true =>
        rw [if_pos rfl, List.mem_cons, List.mem_singleton] at new
        rcases new with other | same
        · cases other
        · cases same
          exact List.mem_cons_self
      | false =>
        rw [if_neg (by decide), List.mem_singleton] at new
        cases new
  | advances _ =>
    unfold Drain.advance at delivered ⊢
    rcases List.mem_append.mp delivered with old | new
    · exact List.mem_append_left _ (sent item old)
    · split at new <;> simp at new

variable (setup parse) in
/-- What one turn does to the drain task's trace. -/
theorem step_trace (w : Loop π) (turn : Turn) : (w.step setup parse turn).drain.trace = w.drain.trace ∨
    ∃ input : Input, input.drains = true ∧
      (w.step setup parse turn).drain = w.drain.step setup.scheme setup.key input := by
  unfold Loop.step
  split
  · exact Or.inl rfl
  · cases turn with
    | received frame =>
      dsimp only
      split
      · unfold Loop.receive
        dsimp only
        split <;> exact Or.inl rfl
      · exact Or.inl rfl
    | receiveFails => exact Or.inl rfl
    | handOn connected published room =>
      dsimp only
      split
      · exact Or.inl rfl
      · unfold Loop.handOn Loop.publishOrSpool Loop.spoolAppend
        dsimp only
        split
        · exact Or.inl rfl
        · split
          · exact Or.inl rfl
          · split <;> exact Or.inl rfl
    | drains input =>
      dsimp only
      split
      · rename_i own
        rw [Bool.and_eq_true_iff] at own
        exact Or.inr ⟨input, own.2, rfl⟩
      · exact Or.inl rfl
    | shutdown =>
      dsimp only
      split <;> exact Or.inl rfl

theorem run_append (w : Loop π) (turns more : List Turn) :
    w.run setup parse (turns ++ more) = (w.run setup parse turns).run setup parse more := List.foldl_append

variable (setup parse) in
theorem run_delivers (parser : π) (maxBytes : Nat) (turns : List Turn) (item : Item)
    (delivered : .deliver item ∈ ((Loop.start parser maxBytes).run setup parse turns).drain.trace) :
    .publish item ∈ ((Loop.start parser maxBytes).run setup parse turns).drain.trace := by
  have sends : ((Loop.start parser maxBytes).run setup parse turns).drain.Sends := by
    refine Transition.always (fun w : Loop π => w.drain.Sends) ?_ turns fun item none => absurd none List.not_mem_nil
    intro w turn sends
    rcases step_trace setup parse w turn with same | ⟨input, own, step⟩
    · unfold Drain.Sends
      rw [same]
      exact sends
    · rw [step]
      exact step_sends setup.scheme setup.key w.drain own sends
  exact sends item delivered

end

end RuntimeProof

namespace SinkProof

open EventModel SealModel SinkModel RuntimeModel RuntimeProof

section

variable {SK VK : Type} {π : Type*} {setup : Setup SK VK} {parse : π → SealModel.Bytes → π × Except String (List Event)}
  {r : Recorder SK VK}

theorem accept_sealEvent (correct : setup.scheme.Correct) (same : r.scheme = setup.scheme) {event : Event}
    (knows : r.Knows setup event) : accept r.scheme r.decode (setup.sealEvent event) r.keys = .ok event := by
  have verified := SealProof.verify_sealCanonical correct (setup.canonicalBytes event) setup.key
  have canonical := SealProof.verify_canonicalPart verified
  unfold accept Setup.sealEvent
  rw [canonical, knows.decodes]
  dsimp only
  rw [knows.registered, same]
  dsimp only
  rw [verified]

theorem accept_verified {payload : SealModel.Bytes} {event : Event} {key : VK}
    (accepted : accept r.scheme r.decode payload r.keys = .ok event) (registered : r.keys event.sourceId = some key) :
    (verify r.scheme payload key).isOk = true := by
  unfold accept at accepted
  split at accepted
  · cases accepted
  · split at accepted
    · cases accepted
    · rename_i key' found
      split at accepted
      · cases accepted
      · rename_i verified
        cases accepted
        rw [registered, Option.some.injEq] at found
        rw [found, verified]
        rfl

/-- From the frame to the table. After a run of the connector, once its link is up and the spool is drained, a sink that
    knows it and misses nothing has a row for every event the loop handed on, but those that were shed, failed to be
    spooled or went with a segment the bound took; and all it keeps under the connector's key are stamped events of
    accepted frames, under their own seal. -/
theorem handed_on_events_are_recorded (correct : setup.scheme.Correct) (with_spool : setup.spooling = true) (parser : π)
    (maxBytes : Nat) (turns : List Turn)
    (allowed : Transition.Allowed (Loop.step setup parse) (Loop.WholeHead setup) (.start parser maxBytes) turns)
    (running : ((Loop.start parser maxBytes).run setup parse turns).stopped = false) (n : Nat)
    (same : r.scheme = setup.scheme) (each : List (List Delivery)) (ds : List Delivery) :
    let w := (Loop.start parser maxBytes).run setup parse turns
    let w' := w.run setup parse ((List.replicate n drainPass).flatten.map .drains)
    let events := (eventsOf (parseAll parse parser w.frames).2).map setup.stamp
    let db := r.sessions .init each
    let s := r.run (.start db) ds
    w.drain.world.outstanding.length < n → (∀ event ∈ events, r.Knows setup event) → Carried setup w'.wire ds →
    (∀ d ∈ ds, d.receivedAt ≠ none ∧ d.fault = false) →
    CollisionFree r.sha256
      (chainInputs r.sha256 (db.table.sealeds ++ (r.readAll ds).map fun entry => entry.1.payload)) →
    ∃ fates kept, Accounted setup parse parser w fates ∧ Recorded r db ds s kept ∧ s.failed = false ∧
      (∀ event, event ∈ fated .published fates ∨ event ∈ fated .spooled fates →
        (∃ d ∈ ds, d.payload = setup.sealEvent event ∧ ∃ row ∈ s.database.table.rows, row.content = contentOf (d, event)) ∨
        ∃ item ∈ w.drain.world.appended, item.2 = setup.record event ∧ item.1.seg ∈ w.drain.world.dropped) ∧
      ∀ entry ∈ kept, r.keys entry.2.sourceId = some (setup.scheme.verifyingKey setup.key) →
        entry.2 ∈ events ∧ entry.1.payload = setup.sealEvent entry.2 := by
  obtain ⟨fates, accounted⟩ := run_accounted setup parse parser maxBytes turns
  obtain ⟨l, p, inv⟩ := run_drained correct parser maxBytes turns allowed
  have delivers := run_delivers setup parse parser maxBytes
    (turns ++ (List.replicate n drainPass).flatten.map .drains)
  rw [run_append] at delivers
  generalize (Loop.start parser maxBytes).run setup parse turns = w at running accounted inv delivers ⊢
  dsimp only
  intro enough known carried stored free
  obtain ⟨⟨l', p', after⟩, _, none, appended, dropped, live, _⟩ :=
    passes_empty parse correct with_spool inv running enough rfl
  obtain ⟨kept, recorded⟩ := run_recorded (sessions_chained r each) ds
  have on := keeps_running recorded stored free
  have all := (recorded.running on).1
  have among {event : Event} (handed : event ∈ fates.map Prod.fst) :
      event ∈ (eventsOf (parseAll parse parser w.frames).2).map setup.stamp := by
    obtain ⟨parsed, found, rfl⟩ := stamped_of_fated accounted handed
    exact List.mem_map_of_mem found
  -- What arrives of an event is accepted, and so its row is there.
  have arrived {event : Event} (handed : event ∈ fates.map Prod.fst)
      (sent : setup.message event ∈ (w.run setup parse ((List.replicate n drainPass).flatten.map .drains)).wire) :
      ∃ d ∈ ds, d.payload = setup.sealEvent event ∧
        ∃ row ∈ (r.run (.start (r.sessions .init each)) ds).database.table.rows, row.content = contentOf (d, event) := by
    obtain ⟨d, member, payload⟩ := carried.arrives _ sent
    refine ⟨d, member, payload, ?_⟩
    have read : r.read d = some (d, event) := by
      refine read_eq_some.mpr ⟨rfl, ?_⟩
      rw [payload]
      exact accept_sealEvent correct same (known event (among handed))
    have entry : (d, event) ∈ kept := by
      rw [all]
      exact List.mem_filterMap.mpr ⟨d, member, read⟩
    have content := List.mem_append_right ((r.sessions .init each).table.rows.map Row.content)
      (List.mem_map_of_mem (f := contentOf) entry)
    rw [← recorded.contents] at content
    obtain ⟨row, present, equal⟩ := List.mem_map.mp content
    exact ⟨row, present, equal⟩
  have handed {fate : Fate} {event : Event} (member : event ∈ fated fate fates) : event ∈ fates.map Prod.fst := by
    obtain ⟨entry, inside, rfl⟩ := List.mem_map.mp member
    exact List.mem_map_of_mem (List.mem_filter.mp inside).1
  refine ⟨fates, kept, accounted, recorded, on, fun event left => ?_, fun entry member registered => ?_⟩
  · rcases left with published | spooled
    · refine Or.inl (arrived (handed published) (List.mem_append_left _ ?_))
      rw [live, accounted.live]
      exact List.mem_map_of_mem published
    · have record := List.mem_map_of_mem (f := setup.record) spooled
      rw [← accounted.appended] at record
      obtain ⟨item, member, equal⟩ := List.mem_map.mp record
      rw [← appended] at member
      rcases emptied_accounts after.draining none member with delivered | gone
      · refine Or.inl (arrived (handed spooled) (List.mem_append_right _ ?_))
        refine List.mem_filterMap.mpr ⟨_, delivers item delivered, ?_⟩
        dsimp only
        rw [equal]
        rfl
      · rw [appended] at member
        rw [dropped] at gone
        exact Or.inr ⟨item, member, equal, gone⟩
  · rw [all] at member
    obtain ⟨d, inside, read⟩ := List.mem_filterMap.mp member
    obtain ⟨rfl, accepted⟩ := read_eq_some.mp read
    have verified := accept_verified accepted registered
    rw [same] at verified
    obtain ⟨message, sent, payload⟩ := carried.authentic _ inside verified
    obtain ⟨event, given, rfl⟩ := wire_handed accounted live appended after.publishes sent
    have event_eq : entry.2 = event := by
      have own := accept_sealEvent correct same (known event (among given))
      change setup.sealEvent event = entry.1.payload at payload
      rw [payload, accepted, Except.ok.injEq] at own
      exact own
    rw [event_eq]
    exact ⟨among given, payload.symm⟩

end

theorem lost_link_is_recorded :
    let s := testRecorder.run (.start .init) twoDeliveries
    ∃ kept, Recorded testRecorder .init twoDeliveries s kept ∧ s.failed = false ∧
      ∀ entry ∈ kept, testRecorder.keys entry.2.sourceId = some () → entry.1.payload = testSetup.sealEvent entry.2 := by
  have allowed : Transition.Allowed (Loop.step testSetup letterParse) (Loop.WholeHead testSetup) (.start () 1000)
      linkLoss := by
    decide +kernel
  have knows : ∀ event ∈ (eventsOf (parseAll letterParse ()
      ((Loop.start () 1000).run testSetup letterParse linkLoss).frames).2).map testSetup.stamp,
      testRecorder.keys event.sourceId = some () ∧ testRecorder.decode (testSetup.canonicalBytes event) = some event := by
    decide +kernel
  obtain ⟨_, kept, _, recorded, on, _, own⟩ := handed_on_events_are_recorded (r := testRecorder)
    SealProof.testScheme_correct rfl () 1000 linkLoss allowed (by decide +kernel) 2 rfl [] twoDeliveries
    (by decide +kernel) (fun event member => ⟨(knows event member).1, (knows event member).2⟩)
    ⟨by decide +kernel, by decide +kernel⟩ (by decide) ⟨by decide, by decide⟩
  exact ⟨kept, recorded, on, fun entry member registered => (own entry member registered).2⟩

end SinkProof

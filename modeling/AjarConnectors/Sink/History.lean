import AjarConnectors.Sink.Audit

namespace SinkModel

open EventModel SealModel

/-- What is assumed of SHA-256 on the byte strings that are hashed: no two of them collide, and none
    is a preimage of `GENESIS`. -/
structure CollisionFree (sha256 : Bytes → Digest) (inputs : List Bytes) : Prop where
  injective : ∀ a ∈ inputs, ∀ b ∈ inputs, sha256 a = sha256 b → a = b
  noGenesis : ∀ a ∈ inputs, sha256 a ≠ genesis

def Table.hashInputs (sha256 : Bytes → Digest) (table : Table) : List Bytes :=
  (HashChain.uses (link sha256) genesis table.sealeds).map fun used => used.1.bytes ++ used.2

end SinkModel

namespace SinkProof

open EventModel SealModel SinkModel

section

variable {sha256 : Bytes → Digest} {SK VK : Type} {scheme : Scheme SK VK} {keys : String → Option VK}
  {decode : Bytes → Option Event}

theorem CollisionFree.binding {used : List (Digest × Bytes)}
    (free : CollisionFree sha256 (used.map fun pair => pair.1.bytes ++ pair.2)) :
    HashChain.Binding (link sha256) genesis used := by
  refine ⟨fun a memA b memB same => ?_, fun a member => free.noGenesis _ (List.mem_map_of_mem member)⟩
  have bytes := free.injective _ (List.mem_map_of_mem memA) _ (List.mem_map_of_mem memB) same
  have parts := List.append_inj bytes (a.1.length.trans b.1.length.symm)
  exact Prod.ext (digest_ext parts.1) parts.2

theorem audit_commits {table table' : Table} {keys' : String → Option VK} {n n' : Int} {h : Digest}
    (free : CollisionFree sha256 (table.hashInputs sha256 ++ table'.hashInputs sha256))
    (intact : table.audit sha256 scheme keys = .ok (.intact n h))
    (intact' : table'.audit sha256 scheme keys' = .ok (.intact n' h)) : n = n' ∧ table.sealeds = table'.sealeds := by
  obtain ⟨-, count, head⟩ := (audit_intact_iff table n h).mp intact
  obtain ⟨-, count', head'⟩ := (audit_intact_iff table' n' h).mp intact'
  rw [Table.hashInputs, Table.hashInputs, ← List.map_append] at free
  have same := HashChain.eq_of_final_eq (CollisionFree.binding free) (head.symm.trans head')
  have length : table.rows.length = table'.rows.length := by
    have := congrArg List.length same
    simpa only [Table.sealeds, List.length_map] using this
  exact ⟨by rw [count, count', Table.count, Table.count, length], same⟩

theorem head_concat (front : List Row) (last : Row) (sorted : (front ++ [last]).Pairwise fun a b => a.seq < b.seq)
    {digest : Digest} (stored : last.recordHash = .blob digest.bytes) :
    Table.head ⟨front ++ [last], sorted⟩ = .ok digest := by
  simp only [Table.head, List.getLast?_concat, stored, SqlValue.asBlob, digest.length, ↓reduceDIte]

theorem head_of_continues {table : Table} (continues : Continues sha256 scheme keys genesis 1 table.rows) :
    table.head = .ok (HashChain.final (link sha256) genesis table.sealeds) := by
  obtain ⟨rows, sorted⟩ := table
  rcases rows.eq_nil_or_concat' with rfl | ⟨front, last, rfl⟩
  · rfl
  · have follows := ((continues_append front [last] genesis 1).mp continues).2.1
    rw [head_concat front last sorted follows.2.2.2.1, Table.sealeds, List.map_append, HashChain.final_append]
    rfl

structure Chained (sha256 : Bytes → Digest) (scheme : Scheme SK VK) (keys : String → Option VK) (db : Database) :
    Prop where
  continues : Continues sha256 scheme keys genesis 1 db.table.rows
  sequence : db.sequence = db.table.count
  unique : (db.table.rows.map fun row => row.recordHash).Nodup

theorem init_chained : Chained sha256 scheme keys .init := ⟨trivial, rfl, by simp [Database.init, Table.empty]⟩

namespace Chained

variable {db : Database} (chained : Chained sha256 scheme keys db)

include chained

theorem seq_eq {i : Nat} {row : Row} (found : db.table.rows[i]? = some row) : row.seq = i + 1 := by
  have follows := continues_getElem? chained.continues found
  rw [follows.1]
  omega

theorem nextSeq_eq : db.nextSeq = db.table.count + 1 := by
  obtain ⟨above, -⟩ := Database.foldl_max_le db.table.rows db.sequence
  have below : db.table.rows.foldl (fun acc row => max acc row.seq) db.sequence ≤ db.table.count := by
    have bounded : ∀ (rows : List Row) (start : Int), start ≤ db.table.count → (∀ row ∈ rows, row.seq ≤ db.table.count) →
        rows.foldl (fun acc row => max acc row.seq) start ≤ db.table.count := by
      intro rows
      induction rows with
      | nil => simp
      | cons row rows ih =>
        intro start le all
        exact ih _ (Int.max_le.mpr ⟨le, all row (by simp)⟩) fun row member => all row (List.mem_cons_of_mem _ member)
    apply bounded db.table.rows _ (Int.le_of_eq chained.sequence)
    intro row member
    obtain ⟨i, found⟩ := List.mem_iff_getElem?.mp member
    have inside := (List.getElem?_eq_some_iff.mp found).1
    rw [chained.seq_eq found, Table.count]
    omega
  rw [Database.nextSeq]
  have := chained.sequence
  omega

theorem insert {prev : Digest} (head : db.table.head = .ok prev) {sealed : Bytes} {event : Event} (receivedAt : String)
    (accepted : accept scheme decode sealed keys = .ok event) {db' : Database}
    (inserted : db.insert (recordOf sha256 prev sealed event receivedAt) = .ok db') :
    Chained sha256 scheme keys db' ∧ db'.sequence = db.table.count + 1 ∧
      db'.table.rows = db.table.rows ++ [{ recordOf sha256 prev sealed event receivedAt with seq := db.table.count + 1 }] := by
  rw [head_of_continues chained.continues, Except.ok.injEq] at head
  simp only [Database.insert, chained.nextSeq_eq] at inserted
  split at inserted
  · cases inserted
  · rename_i absent
    cases inserted
    refine ⟨⟨?_, ?_, ?_⟩, rfl, rfl⟩
    · rw [continues_append]
      refine ⟨chained.continues, ?_, trivial⟩
      rw [Table.sealeds] at head
      rw [head]
      refine ⟨Int.add_comm _ _, rfl, rfl, rfl, ?_⟩
      unfold accept at accepted
      split at accepted
      · cases accepted
      · split at accepted
        · cases accepted
        · rename_i key registered
          split at accepted
          · cases accepted
          · rename_i canonical verified
            cases accepted
            simp [Row.verifies, recordOf, columnsOf, SqlValue.asText, registered, Row.sealedBytes, SqlValue.asBlob,
              verified, Except.isOk, Except.toBool]
    · simp [Table.count]
    · rw [List.map_append, List.nodup_append]
      refine ⟨chained.unique, by simp, ?_⟩
      intro hash member other last same
      rw [List.map_singleton, List.mem_singleton] at last
      obtain ⟨row, present, rfl⟩ := List.mem_map.mp member
      apply absent
      apply List.any_eq_true.mpr
      exact ⟨row, present, by rw [decide_eq_true_eq, same, last]⟩

theorem append {sealed : Bytes} {event : Event} (receivedAt : String) (fault : Bool)
    (accepted : accept scheme decode sealed keys = .ok event) :
    (∃ e, db.append sha256 sealed event receivedAt fault = (db, .error e)) ∨
      ∃ db' hash, db.append sha256 sealed event receivedAt fault = (db', .ok ⟨db.table.count + 1, hash⟩) ∧
        Chained sha256 scheme keys db' := by
  have head := head_of_continues chained.continues
  simp only [Database.append, head]
  cases inserted : db.insert (recordOf sha256 (HashChain.final (link sha256) genesis db.table.sealeds) sealed event receivedAt) with
  | error e => exact .inl ⟨e, rfl⟩
  | ok db' =>
    obtain ⟨next, sequence, -⟩ := chained.insert head receivedAt accepted inserted
    cases fault with
    | true => exact .inl ⟨.io, rfl⟩
    | false => exact .inr ⟨db', _, by rw [← sequence]; rfl, next⟩

theorem take (call : Call) : Chained sha256 scheme keys (db.take sha256 scheme decode keys call) := by
  rw [Database.take]
  cases accepted : accept scheme decode call.sealed keys with
  | error e => exact chained
  | ok event =>
    rcases chained.append call.receivedAt call.fault accepted with ⟨e, failed⟩ | ⟨db', hash, appended, next⟩
    · simp only [failed]
      exact chained
    · simp only [appended]
      exact next

theorem run (calls : List Call) : Chained sha256 scheme keys (db.run sha256 scheme decode keys calls) := by
  induction calls generalizing db with
  | nil => exact chained
  | cons call calls ih => exact ih (chained.take call)

theorem audit : ∃ h, db.table.audit sha256 scheme keys = .ok (.intact db.table.count h) ∧ db.table.head = .ok h :=
  ⟨_, (audit_intact_iff db.table _ _).mpr ⟨chained.continues, rfl, rfl⟩, head_of_continues chained.continues⟩

end Chained

variable (sha256 scheme decode)

/-- The audited head commits to the envelopes of the whole table, whoever produced it and under
    whatever keys; and a store that only ever took accepted messages audits intact with the head it
    reads, its rows numbered from one on, whatever was refused or failed in between. -/
theorem head_commits_to_history :
    (∀ (table table' : Table) (keys keys' : String → Option VK) (n n' : Int) (h : Digest),
      CollisionFree sha256 (table.hashInputs sha256 ++ table'.hashInputs sha256) →
      table.audit sha256 scheme keys = .ok (.intact n h) → table'.audit sha256 scheme keys' = .ok (.intact n' h) →
      n = n' ∧ table.sealeds = table'.sealeds) ∧
    ∀ (keys : String → Option VK) (calls : List Call),
      let db := Database.init.run sha256 scheme decode keys calls
      (∃ h, db.table.audit sha256 scheme keys = .ok (.intact db.table.count h) ∧ db.table.head = .ok h) ∧
      (∀ (i : Nat) (row : Row), db.table.rows[i]? = some row → row.seq = i + 1) ∧
      ∀ call : Call, (∀ event, accept scheme decode call.sealed keys = .ok event →
          ∃ e, (db.append sha256 call.sealed event call.receivedAt call.fault).2 = .error e) →
        db.take sha256 scheme decode keys call = db := by
  refine ⟨fun table table' keys keys' n n' h free intact intact' => audit_commits free intact intact', ?_⟩
  intro keys calls db
  have chained : Chained sha256 scheme keys db := init_chained.run calls
  refine ⟨chained.audit, fun i row found => chained.seq_eq found, fun call fails => ?_⟩
  rw [Database.take]
  cases accepted : accept scheme decode call.sealed keys with
  | error e => rfl
  | ok event =>
    obtain ⟨e, failed⟩ := fails event accepted
    rcases chained.append call.receivedAt call.fault accepted with ⟨e', unchanged⟩ | ⟨db', hash, appended, -⟩
    · simp only [unchanged]
    · rw [appended] at failed
      cases failed

end

end SinkProof

namespace SinkModel

open EventModel SealModel

def sealedA : Bytes := sealCanonical testScheme (idOnlyEvent 97) ()

def sealedB : Bytes := sealCanonical testScheme (idOnlyEvent 98) ()

def digestA : Digest :=
  ⟨[241, 61, 155, 212, 84, 195, 137, 193, 139, 191, 183, 231, 231, 31, 141, 138,
      38, 127, 156, 210, 220, 237, 60, 56, 124, 177, 168, 17, 187, 195, 134, 236], by decide⟩

def digestAB : Digest :=
  ⟨[72, 161, 65, 65, 143, 105, 63, 196, 50, 9, 141, 176, 143, 85, 134, 128,
      48, 71, 164, 172, 234, 210, 189, 63, 45, 216, 20, 32, 223, 14, 108, 144], by decide⟩

def digestB : Digest :=
  ⟨[49, 156, 80, 119, 168, 153, 52, 31, 164, 240, 23, 109, 38, 225, 102, 18,
      60, 38, 75, 139, 255, 166, 246, 72, 124, 49, 31, 94, 51, 221, 95, 81], by decide⟩

/-- SHA-256 as far as the inputs below need it. -/
def testSha256 (bytes : Bytes) : Digest :=
  if bytes = genesis.bytes ++ sealedA then digestA
  else if bytes = digestA.bytes ++ sealedB then digestAB
  else if bytes = genesis.bytes ++ sealedB then digestB
  else ⟨List.replicate 32 1, by decide⟩

def testDecode (canonical : Bytes) : Option Event :=
  if canonical = idOnlyEvent 97 then some { Event.default with id := "a", sourceId := "x" }
  else if canonical = idOnlyEvent 98 then some { Event.default with id := "b", sourceId := "x" }
  else none

def testKeys (sourceId : String) : Option Unit := if sourceId = "x" then some () else none

def twoCalls (receivedAt : String) : List Call :=
  [⟨sealedA, receivedAt, false⟩, ⟨[1, 2, 3], receivedAt, false⟩, ⟨sealedB, receivedAt, false⟩]

def twoRecords (receivedAt : String) : Database :=
  Database.init.run testSha256 testScheme testDecode testKeys (twoCalls receivedAt)

end SinkModel

namespace SinkProof

open SinkModel SealModel

theorem twoRecords_commit : (twoRecords "t1").table.sealeds = (twoRecords "t2").table.sealeds :=
  ((head_commits_to_history testSha256 testScheme testDecode).1 (twoRecords "t1").table (twoRecords "t2").table
    testKeys testKeys 2 2 digestAB ⟨by decide, by decide⟩ (by decide) (by decide)).2

end SinkProof

import AjarConnectors.Sink.Store

namespace SinkModel

open EventModel SealModel

namespace Row

def sealedBytes (row : Row) : Bytes := row.sealed.asBlob.getD []

def Typed (row : Row) : Prop :=
  row.columns.sourceId.asText ≠ none ∧ row.sealed.asBlob ≠ none ∧ row.prevHash.asBlob ≠ none ∧
    row.recordHash.asBlob ≠ none

instance (row : Row) : Decidable row.Typed := inferInstanceAs (Decidable (_ ∧ _ ∧ _ ∧ _))

end Row

def Table.sealeds (table : Table) : List Bytes := table.rows.map Row.sealedBytes

section

variable (sha256 : Bytes → Digest) {SK VK : Type} (scheme : Scheme SK VK) (keys : String → Option VK)

def Row.verifies (row : Row) : Bool :=
  match row.columns.sourceId.asText.bind keys with
  | none => false
  | some key => (verify scheme row.sealedBytes key).isOk

/-- The row stands at `seq` right behind the link `prev`, and its own link and signature are right. -/
def Row.Follows (prev : Digest) (seq : Int) (row : Row) : Prop :=
  row.seq = seq ∧ row.prevHash = .blob prev.bytes ∧ row.sealed = .blob row.sealedBytes ∧
    row.recordHash = .blob (link sha256 prev row.sealedBytes).bytes ∧ row.verifies scheme keys = true

instance (prev : Digest) (seq : Int) (row : Row) : Decidable (row.Follows sha256 scheme keys prev seq) :=
  inferInstanceAs (Decidable (_ ∧ _ ∧ _ ∧ _ ∧ _))

def Continues : Digest → Int → List Row → Prop
  | _, _, [] => True
  | prev, seq, row :: rows =>
    row.Follows sha256 scheme keys prev seq ∧ Continues (link sha256 prev row.sealedBytes) (seq + 1) rows

end

end SinkModel

namespace SinkProof

open EventModel SealModel SinkModel

section

variable {sha256 : Bytes → Digest} {SK VK : Type} {scheme : Scheme SK VK} {keys : String → Option VK}

theorem asBlob_eq_some {value : SqlValue} {bytes : Bytes} : value.asBlob = some bytes ↔ value = .blob bytes := by
  cases value <;> simp [SqlValue.asBlob]

theorem digest_ext {a b : Digest} (same : a.bytes = b.bytes) : a = b := by
  cases a
  cases b
  cases same
  rfl

theorem sealed_of_sealedBytes {row : Row} {bytes : Bytes} (blob : row.sealed.asBlob = some bytes) :
    row.sealedBytes = bytes := by
  rw [Row.sealedBytes, blob, Option.getD_some]

theorem auditLoop_follows {row : Row} {rows : List Row} {prev : Digest} {seq records : Int}
    (follows : row.Follows sha256 scheme keys prev seq) :
    auditLoop sha256 scheme keys (row :: rows) prev seq records =
      auditLoop sha256 scheme keys rows (link sha256 prev row.sealedBytes) (seq + 1) (records + 1) := by
  obtain ⟨atSeq, prevHash, sealed, recordHash, verifies⟩ := follows
  rw [Row.verifies] at verifies
  cases source : row.columns.sourceId.asText with
  | none => simp [source] at verifies
  | some sourceId =>
    cases key : keys sourceId with
    | none => simp [source, key] at verifies
    | some registered =>
      simp only [source, Option.bind_some, key] at verifies
      cases verified : verify scheme row.sealedBytes registered with
      | error e => simp [verified, Except.isOk, Except.toBool] at verifies
      | ok canonical =>
        have blob : row.sealed.asBlob = some row.sealedBytes := asBlob_eq_some.mpr sealed
        simp only [auditLoop, source, blob, asBlob_eq_some.mpr prevHash, asBlob_eq_some.mpr recordHash, atSeq, ne_eq,
          not_true_eq_false, ↓reduceIte, key, verified]

theorem auditLoop_stops {row : Row} {prev : Digest} {seq : Int} (stops : ¬ row.Follows sha256 scheme keys prev seq)
    (rows : List Row) (records : Int) :
    (auditLoop sha256 scheme keys (row :: rows) prev seq records = .error .invalidColumnType ∧ ¬ row.Typed) ∨
      ∃ at_ reason, auditLoop sha256 scheme keys (row :: rows) prev seq records = .ok (.broken at_ reason) := by
  cases source : row.columns.sourceId.asText with
  | none => exact .inl ⟨by simp only [auditLoop, source], fun typed => typed.1 source⟩
  | some sourceId =>
    cases sealed : row.sealed.asBlob with
    | none => exact .inl ⟨by simp only [auditLoop, source, sealed], fun typed => typed.2.1 sealed⟩
    | some bytes =>
      cases prevHash : row.prevHash.asBlob with
      | none => exact .inl ⟨by simp only [auditLoop, source, sealed, prevHash], fun typed => typed.2.2.1 prevHash⟩
      | some storedPrev =>
        cases recordHash : row.recordHash.asBlob with
        | none =>
          exact .inl ⟨by simp only [auditLoop, source, sealed, prevHash, recordHash], fun typed => typed.2.2.2 recordHash⟩
        | some storedHash =>
          apply Or.inr
          simp only [auditLoop, source, sealed, prevHash, recordHash]
          by_cases atSeq : row.seq = seq
          · by_cases linked : storedPrev = prev.bytes
            · by_cases hashed : storedHash = (link sha256 prev bytes).bytes
              · simp only [atSeq, linked, hashed, ne_eq, not_true_eq_false, ↓reduceIte]
                cases key : keys sourceId with
                | none => exact ⟨_, _, rfl⟩
                | some registered =>
                  cases verified : verify scheme bytes registered with
                  | error e => exact ⟨seq, _, by simp only [verified]; rfl⟩
                  | ok canonical =>
                    have same := sealed_of_sealedBytes sealed
                    refine absurd ⟨atSeq, ?_, ?_, ?_, ?_⟩ stops
                    · rw [asBlob_eq_some.mp prevHash, linked]
                    · rw [same, asBlob_eq_some.mp sealed]
                    · rw [same, asBlob_eq_some.mp recordHash, hashed]
                    · simp [Row.verifies, source, key, same, verified, Except.isOk, Except.toBool]
              · exact ⟨row.seq, _, by simp only [atSeq, linked, hashed, ne_eq, not_true_eq_false, not_false_eq_true, ↓reduceIte]; rfl⟩
            · exact ⟨row.seq, _, by simp only [atSeq, linked, ne_eq, not_true_eq_false, not_false_eq_true, ↓reduceIte]; rfl⟩
          · exact ⟨seq, _, by simp only [atSeq, ne_eq, not_false_eq_true, ↓reduceIte]; rfl⟩

theorem auditLoop_intact_iff (rows : List Row) (prev : Digest) (seq records n : Int) (h : Digest) :
    auditLoop sha256 scheme keys rows prev seq records = .ok (.intact n h) ↔
      Continues sha256 scheme keys prev seq rows ∧ n = records + rows.length ∧
        h = HashChain.final (link sha256) prev (rows.map Row.sealedBytes) := by
  induction rows generalizing prev seq records with
  | nil =>
    simp only [auditLoop, Continues, HashChain.final, List.map_nil, List.foldl_nil, List.length_nil, Except.ok.injEq,
      Audit.intact.injEq, true_and]
    constructor
    · intro same
      rcases same with ⟨rfl, rfl⟩
      exact ⟨by simp, rfl⟩
    · intro same
      rcases same with ⟨rfl, rfl⟩
      exact ⟨by simp, rfl⟩
  | cons row rows ih =>
    by_cases follows : row.Follows sha256 scheme keys prev seq
    · rw [auditLoop_follows follows, ih]
      simp only [Continues, follows, true_and, List.length_cons, HashChain.final, List.map_cons, List.foldl_cons]
      push_cast
      rw [Int.add_assoc, Int.add_comm 1]
    · have absent : ¬ Continues sha256 scheme keys prev seq (row :: rows) := fun continues => follows continues.1
      simp only [absent, false_and, iff_false]
      intro intact
      rcases auditLoop_stops follows rows records with ⟨error, -⟩ | ⟨at_, reason, broken⟩
      · rw [error] at intact
        cases intact
      · rw [broken] at intact
        cases intact

theorem auditLoop_verdict (rows : List Row) (typed : ∀ row ∈ rows, row.Typed) (prev : Digest) (seq records : Int) :
    (∃ n h, auditLoop sha256 scheme keys rows prev seq records = .ok (.intact n h)) ∨
      ∃ at_ reason, auditLoop sha256 scheme keys rows prev seq records = .ok (.broken at_ reason) := by
  induction rows generalizing prev seq records with
  | nil => exact .inl ⟨_, _, rfl⟩
  | cons row rows ih =>
    by_cases follows : row.Follows sha256 scheme keys prev seq
    · rw [auditLoop_follows follows]
      exact ih (fun row member => typed row (List.mem_cons_of_mem _ member)) _ _ _
    · rcases auditLoop_stops follows rows records with ⟨-, untyped⟩ | broken
      · exact absurd (typed row (by simp)) untyped
      · exact .inr broken

theorem audit_intact_iff (table : Table) (n : Int) (h : Digest) :
    table.audit sha256 scheme keys = .ok (.intact n h) ↔
      Continues sha256 scheme keys genesis 1 table.rows ∧ n = table.count ∧
        h = HashChain.final (link sha256) genesis table.sealeds := by
  rw [Table.audit, auditLoop_intact_iff, Int.zero_add]
  rfl

theorem continues_append (front back : List Row) (prev : Digest) (seq : Int) :
    Continues sha256 scheme keys prev seq (front ++ back) ↔
      Continues sha256 scheme keys prev seq front ∧
        Continues sha256 scheme keys (HashChain.final (link sha256) prev (front.map Row.sealedBytes))
          (seq + front.length) back := by
  induction front generalizing prev seq with
  | nil => simp [Continues, HashChain.final]
  | cons row front ih =>
    simp only [List.cons_append, Continues, ih, HashChain.final, List.map_cons, List.foldl_cons, List.length_cons, and_assoc]
    push_cast
    rw [Int.add_assoc, Int.add_comm 1]

theorem continues_getElem? {rows : List Row} {prev : Digest} {seq : Int} {i : Nat} {row : Row}
    (continues : Continues sha256 scheme keys prev seq rows) (found : rows[i]? = some row) :
    row.Follows sha256 scheme keys (HashChain.final (link sha256) prev ((rows.take i).map Row.sealedBytes)) (seq + i) := by
  obtain ⟨inside, same⟩ := List.getElem?_eq_some_iff.mp found
  have split : rows = rows.take i ++ (row :: rows.drop (i + 1)) := by
    rw [← same, List.getElem_cons_drop inside, List.take_append_drop]
  rw [split, continues_append] at continues
  have length : (rows.take i).length = i := by rw [List.length_take]; omega
  have follows := continues.2.1
  rwa [length] at follows

end

end SinkProof

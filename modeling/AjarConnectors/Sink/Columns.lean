import AjarConnectors.Sink.History

namespace SinkModel

open EventModel SealModel

def Columns.queryable (columns : Columns) : List SqlValue :=
  [columns.sourceId, columns.eventId, columns.entityType, columns.timestamp, columns.latitude, columns.longitude,
    columns.altitudeM]

/-- The queryable columns are the ones `append` stores for the event in the row's envelope. -/
def Row.Matches (decode : Bytes → Option Event) (row : Row) : Prop :=
  (decode (canonicalPart row.sealedBytes)).map (fun event => (columnsOf event "").queryable) = some row.columns.queryable

instance (decode : Bytes → Option Event) (row : Row) : Decidable (row.Matches decode) :=
  inferInstanceAs (Decidable (_ = _))

def storedPrev (rows : List Row) : Nat → SqlValue
  | 0 => .blob genesis.bytes
  | i + 1 => (rows[i]?.map fun row => row.recordHash).getD .null

section

variable (sha256 : Bytes → Digest) {SK VK : Type} (scheme : Scheme SK VK) (keys : String → Option VK)

/-- The row at position `i` is numbered, linked and hashed as its neighbours require, and its envelope
    verifies under the key of the source in its `source_id`. -/
def Row.Linked (rows : List Row) (i : Nat) (row : Row) : Prop :=
  row.seq = i + 1 ∧ row.prevHash = storedPrev rows i ∧
    (∃ prev sealed, row.prevHash = .blob prev ∧ row.sealed = .blob sealed ∧
      row.recordHash = .blob (sha256 (prev ++ sealed)).bytes) ∧
    row.verifies scheme keys = true

end

end SinkModel

namespace SinkProof

open EventModel SealModel SinkModel

section

variable {sha256 : Bytes → Digest} {SK VK : Type} {scheme : Scheme SK VK} {keys : String → Option VK}

theorem final_take_succ {rows : List Row} {prev : Digest} {i : Nat} {row : Row} (found : rows[i]? = some row) :
    HashChain.final (link sha256) prev ((rows.take (i + 1)).map Row.sealedBytes) =
      link sha256 (HashChain.final (link sha256) prev ((rows.take i).map Row.sealedBytes)) row.sealedBytes := by
  rw [List.take_add_one, found, List.map_append, HashChain.final_append]
  rfl

theorem storedPrev_of_continues {rows : List Row} (continues : Continues sha256 scheme keys genesis 1 rows) {i : Nat}
    (inside : i ≤ rows.length) :
    storedPrev rows i = .blob (HashChain.final (link sha256) genesis ((rows.take i).map Row.sealedBytes)).bytes := by
  cases i with
  | zero => rfl
  | succ i =>
    have found : rows[i]? = some rows[i] := List.getElem?_eq_getElem inside
    have follows := continues_getElem? continues found
    rw [final_take_succ found, storedPrev, found, Option.map_some, Option.getD_some]
    exact follows.2.2.2.1

theorem continues_iff_linked (rows : List Row) : Continues sha256 scheme keys genesis 1 rows ↔
    ∀ (i : Nat) (row : Row), rows[i]? = some row → row.Linked sha256 scheme keys rows i := by
  constructor
  · intro continues i row found
    obtain ⟨atSeq, prevHash, sealed, recordHash, verifies⟩ := continues_getElem? continues found
    have inside := (List.getElem?_eq_some_iff.mp found).1
    refine ⟨by omega, prevHash.trans (storedPrev_of_continues continues (Nat.le_of_lt inside)).symm,
      ⟨_, _, prevHash, sealed, recordHash⟩, verifies⟩
  · intro linked
    have front : ∀ k ≤ rows.length, Continues sha256 scheme keys genesis 1 (rows.take k) := by
      intro k
      induction k with
      | zero => intro _; exact trivial
      | succ k ih =>
        intro inside
        have found : rows[k]? = some rows[k] := List.getElem?_eq_getElem inside
        have before := ih (by omega)
        obtain ⟨atSeq, prevHash, ⟨prev, sealed, prevBlob, sealedBlob, recordHash⟩, verifies⟩ := linked k _ found
        -- The predecessor's stored link is the recomputed one.
        have stored : storedPrev rows k =
            .blob (HashChain.final (link sha256) genesis ((rows.take k).map Row.sealedBytes)).bytes := by
          have same : storedPrev rows k = storedPrev (rows.take k) k := by
            cases k with
            | zero => rfl
            | succ k => rw [storedPrev, storedPrev, List.getElem?_take_of_lt (Nat.lt_succ_self k)]
          rw [same, storedPrev_of_continues before (by rw [List.length_take]; omega), List.take_take, Nat.min_self]
        have bytes := sealed_of_sealedBytes (asBlob_eq_some.mpr sealedBlob)
        rw [prevHash, stored, SqlValue.blob.injEq] at prevBlob
        rw [List.take_add_one, found, Option.toList_some, continues_append]
        refine ⟨before, ⟨?_, prevHash.trans stored, ?_, ?_, verifies⟩, trivial⟩
        · rw [List.length_take, atSeq]
          omega
        · rw [bytes, sealedBlob]
        · rw [bytes, recordHash, ← prevBlob]
          rfl
    have all := front rows.length (Nat.le_refl _)
    rwa [List.take_length] at all

end

end SinkProof

namespace SinkModel

end SinkModel

namespace SinkProof

open SinkModel SealModel

end SinkProof

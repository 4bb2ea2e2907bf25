import Mathlib.Data.List.Infix
import AjarConnectors.Sink.Columns

namespace SinkModel

open EventModel SealModel

/-- The table was changed in one of four ways. A row's key stays with the place it stands at: moving
    rows about means moving everything but `seq`. -/
inductive Change (table table' : Table) : Prop where
  | delete (kept : table'.rows.Sublist table.rows) (changed : table' ≠ table)
  | insert (kept : table.rows.Sublist table'.rows) (changed : table' ≠ table)
  | permute (seqs : table'.rows.map Row.seq = table.rows.map Row.seq)
      (moved : (table'.rows.map Row.toRecord).Perm (table.rows.map Row.toRecord)) (changed : table' ≠ table)
  | edit (kept : table'.rows.map (fun row => { row with sealed := .null }) =
      table.rows.map fun row => { row with sealed := .null }) (changed : table' ≠ table)

section

variable (sha256 : Bytes → Digest) {SK VK : Type} (scheme : Scheme SK VK) (keys : String → Option VK)

/-- Only the last rows are missing, or there are only more rows behind the last, numbered, linked and
    verifying as if they had been appended. -/
def Unnoticed (table table' : Table) : Prop :=
  table'.rows <+: table.rows ∨
    ∃ added, table'.rows = table.rows ++ added ∧
      Continues sha256 scheme keys (HashChain.final (link sha256) genesis table.sealeds) (table.count + 1) added

end

end SinkModel

namespace SinkProof

open EventModel SealModel SinkModel

section

variable {sha256 : Bytes → Digest} {SK VK : Type} {scheme : Scheme SK VK} {keys : String → Option VK}
  {decode : Bytes → Option Event}

theorem table_ext {table table' : Table} (rows : table.rows = table'.rows) : table = table' := by
  cases table
  cases table'
  cases rows
  rfl

theorem eq_of_take_agrees {α : Type} {xs ys : List α} (length : xs.length = ys.length)
    (agrees : ∀ (i : Nat) (x y : α), xs[i]? = some x → ys[i]? = some y → xs.take i = ys.take i → x = y) : xs = ys := by
  have front : ∀ k ≤ xs.length, xs.take k = ys.take k := by
    intro k
    induction k with
    | zero => intro _; rw [List.take_zero, List.take_zero]
    | succ k ih =>
      intro inside
      have before := ih (by omega)
      have found : xs[k]? = some xs[k] := List.getElem?_eq_getElem inside
      have found' : ys[k]? = some (ys.get ⟨k, by omega⟩) := List.getElem?_eq_getElem (by omega)
      rw [List.take_add_one, List.take_add_one, found, found', before, agrees k _ _ found found' before]
  have all := front xs.length (Nat.le_refl _)
  rwa [List.take_length, length, List.take_length] at all

theorem seq_of_continues {rows : List Row} (continues : Continues sha256 scheme keys genesis 1 rows) {i : Nat} {row : Row}
    (found : rows[i]? = some row) : row.seq = i + 1 := by
  rw [(continues_getElem? continues found).1]
  omega

theorem prefix_of_sublist {rows rows' : List Row} (sub : rows.Sublist rows')
    (numbered : ∀ (i : Nat) (row : Row), rows[i]? = some row → row.seq = i + 1)
    (numbered' : ∀ (i : Nat) (row : Row), rows'[i]? = some row → row.seq = i + 1) : rows <+: rows' := by
  rw [List.prefix_iff_getElem?]
  intro i inside
  have found : rows[i]? = some rows[i] := List.getElem?_eq_getElem inside
  obtain ⟨j, found'⟩ := List.mem_iff_getElem?.mp (sub.subset (List.getElem_mem inside))
  have := numbered i _ found
  have := numbered' j _ found'
  have same : j = i := by omega
  subst same
  exact found'

theorem continues_of_prefix {front rows : List Row} {prev : Digest} {seq : Int} (cut : front <+: rows)
    (continues : Continues sha256 scheme keys prev seq rows) : Continues sha256 scheme keys prev seq front := by
  obtain ⟨rest, rfl⟩ := cut
  exact ((continues_append front rest prev seq).mp continues).1

theorem final_take_inj {table : Table} (binding : HashChain.Binding (link sha256) genesis
      (HashChain.uses (link sha256) genesis table.sealeds)) {i j : Nat} (boundI : i ≤ table.rows.length)
    (boundJ : j ≤ table.rows.length)
    (same : HashChain.final (link sha256) genesis ((table.rows.take i).map Row.sealedBytes) =
      HashChain.final (link sha256) genesis ((table.rows.take j).map Row.sealedBytes)) : i = j := by
  have part : ∀ k, ∀ used ∈ HashChain.uses (link sha256) genesis ((table.rows.take k).map Row.sealedBytes),
      used ∈ HashChain.uses (link sha256) genesis table.sealeds := by
    intro k used member
    have split : table.sealeds = (table.rows.take k).map Row.sealedBytes ++ (table.rows.drop k).map Row.sealedBytes := by
      rw [← List.map_append, List.take_append_drop, Table.sealeds]
    rw [split, HashChain.uses_append]
    exact List.mem_append_left _ member
  have equal := HashChain.eq_of_final_eq (binding.mono fun used member =>
    (List.mem_append.mp member).elim (part i used) (part j used)) same
  have length := congrArg List.length equal
  simp only [List.length_map, List.length_take] at length
  omega

theorem use_of_row {table : Table} {i : Nat} {row : Row} (found : table.rows[i]? = some row) :
    (HashChain.final (link sha256) genesis ((table.rows.take i).map Row.sealedBytes), row.sealedBytes) ∈
      HashChain.uses (link sha256) genesis table.sealeds := by
  obtain ⟨inside, same⟩ := List.getElem?_eq_some_iff.mp found
  have split : table.sealeds = (table.rows.take i).map Row.sealedBytes ++
      row.sealedBytes :: (table.rows.drop (i + 1)).map Row.sealedBytes := by
    rw [← same, ← List.map_cons, ← List.map_append, List.getElem_cons_drop inside, List.take_append_drop, Table.sealeds]
  rw [split, HashChain.uses_append]
  exact List.mem_append_right _ List.mem_cons_self

theorem permuted_eq {table table' : Table} (continues : Continues sha256 scheme keys genesis 1 table.rows)
    (continues' : Continues sha256 scheme keys genesis 1 table'.rows)
    (binding : HashChain.Binding (link sha256) genesis (HashChain.uses (link sha256) genesis table.sealeds))
    (moved : (table'.rows.map Row.toRecord).Perm (table.rows.map Row.toRecord)) : table' = table := by
  have length : table'.rows.length = table.rows.length := by simpa using moved.length_eq
  apply table_ext
  apply eq_of_take_agrees length
  intro i row' row found' found before
  have follows := continues_getElem? continues found
  have follows' := continues_getElem? continues' found'
  obtain ⟨origin, member, content⟩ :=
    List.mem_map.mp (moved.subset (List.mem_map_of_mem (List.mem_of_getElem? found')))
  obtain ⟨j, place⟩ := List.mem_iff_getElem?.mp member
  have source := continues_getElem? continues place
  have prevs : origin.prevHash = row'.prevHash := congrArg Record.prevHash content
  rw [source.2.1, follows'.2.1, before, SqlValue.blob.injEq] at prevs
  have inside := (List.getElem?_eq_some_iff.mp found).1
  have insideJ := (List.getElem?_eq_some_iff.mp place).1
  have same := final_take_inj binding (Nat.le_of_lt insideJ) (Nat.le_of_lt inside) (digest_ext prevs)
  rw [same, found, Option.some.injEq] at place
  rw [← place] at content
  have seqs : row'.seq = row.seq := follows'.1.trans follows.1.symm
  cases row
  cases row'
  cases seqs
  cases content
  rfl

theorem edited_eq {table table' : Table} (continues : Continues sha256 scheme keys genesis 1 table.rows)
    (continues' : Continues sha256 scheme keys genesis 1 table'.rows)
    (binding : HashChain.Binding (link sha256) genesis
      (HashChain.uses (link sha256) genesis table.sealeds ++ HashChain.uses (link sha256) genesis table'.sealeds))
    (kept : table'.rows.map (fun row => { row with sealed := .null }) =
      table.rows.map fun row => { row with sealed := .null }) : table' = table := by
  have length : table'.rows.length = table.rows.length := by simpa using congrArg List.length kept
  apply table_ext
  apply eq_of_take_agrees length
  intro i row' row found' found before
  have follows := continues_getElem? continues found
  have follows' := continues_getElem? continues' found'
  have rest : ({ row' with sealed := .null } : Row) = { row with sealed := .null } := by
    have pointwise := congrArg (fun rows => rows[i]?) kept
    simpa only [List.getElem?_map, found, found', Option.map_some, Option.some.injEq] using pointwise
  have hashes : row'.recordHash = row.recordHash := congrArg (fun row => row.recordHash) rest
  rw [follows.2.2.2.1, follows'.2.2.2.1, before, SqlValue.blob.injEq] at hashes
  have use' : (HashChain.final (link sha256) genesis ((table'.rows.take i).map Row.sealedBytes), row'.sealedBytes) ∈
      HashChain.uses (link sha256) genesis table'.sealeds := use_of_row found'
  rw [before] at use'
  have pair := binding.injective _ (List.mem_append_right _ use') _ (List.mem_append_left _ (use_of_row found))
    (digest_ext hashes)
  have bytes : row'.sealedBytes = row.sealedBytes := congrArg Prod.snd pair
  have sealed : row'.sealed = row.sealed := by rw [follows'.2.2.1, follows.2.2.1, bytes]
  have whole : row' = { ({ row' with sealed := .null } : Row) with sealed := row'.sealed } := rfl
  rw [whole, rest, sealed]

theorem Chained.continues_iff_unnoticed {db : Database} (chained : Chained sha256 scheme keys db) {table' : Table}
    (change : Change db.table table')
    (free : CollisionFree sha256 (db.table.hashInputs sha256 ++ table'.hashInputs sha256)) :
    Continues sha256 scheme keys genesis 1 table'.rows ↔ Unnoticed sha256 scheme keys db.table table' := by
  rw [Table.hashInputs, Table.hashInputs, ← List.map_append] at free
  have binding := CollisionFree.binding free
  constructor
  · intro continues
    cases change with
    | delete kept changed =>
      exact .inl (prefix_of_sublist kept (fun _ _ => seq_of_continues continues) fun _ _ => chained.seq_eq)
    | insert kept changed =>
      obtain ⟨added, same⟩ :=
        prefix_of_sublist kept (fun _ _ => chained.seq_eq) fun _ _ => seq_of_continues continues
      refine .inr ⟨added, same.symm, ?_⟩
      rw [← same, continues_append, Int.add_comm] at continues
      exact continues.2
    | permute seqs moved changed =>
      exact absurd (permuted_eq chained.continues continues (binding.mono fun _ => List.mem_append_left _) moved) changed
    | edit kept changed => exact absurd (edited_eq chained.continues continues binding kept) changed
  · intro unnoticed
    rcases unnoticed with cut | ⟨added, same, continues⟩
    · exact continues_of_prefix cut chained.continues
    · rw [same, continues_append, Int.add_comm]
      exact ⟨chained.continues, continues⟩

/-- Deleting, inserting or moving rows of a store of accepted records, or editing their envelopes, breaks
    the audit unless it only removes the last rows or only adds verified rows in their place. -/
theorem change_noticed_iff (sha256 : Bytes → Digest) (scheme : Scheme SK VK) (decode : Bytes → Option Event)
    (keys : String → Option VK) (calls : List Call) (table' : Table)
    (change : Change (Database.init.run sha256 scheme decode keys calls).table table')
    (typed : ∀ row ∈ table'.rows, row.Typed)
    (free : CollisionFree sha256
      ((Database.init.run sha256 scheme decode keys calls).table.hashInputs sha256 ++ table'.hashInputs sha256)) :
    (∃ seq reason, table'.audit sha256 scheme keys = .ok (.broken seq reason)) ↔
      ¬ Unnoticed sha256 scheme keys (Database.init.run sha256 scheme decode keys calls).table table' := by
  have chained : Chained sha256 scheme keys (Database.init.run sha256 scheme decode keys calls) := init_chained.run calls
  rw [← chained.continues_iff_unnoticed change free]
  have verdict : (∃ n h, table'.audit sha256 scheme keys = .ok (.intact n h)) ∨
      ∃ seq reason, table'.audit sha256 scheme keys = .ok (.broken seq reason) :=
    auditLoop_verdict table'.rows typed genesis 1 0
  constructor
  · intro ⟨seq, reason, broken⟩ continues
    rw [(audit_intact_iff table' _ _).mpr ⟨continues, rfl, rfl⟩] at broken
    cases broken
  · intro breaks
    rcases verdict with ⟨n, h, intact⟩ | broken
    · exact absurd ((audit_intact_iff table' n h).mp intact).1 breaks
    · exact broken

end

end SinkProof

namespace SinkModel

def withoutRow (seq : Int) : Table :=
  ⟨(twoRecords "t1").table.rows.filter fun row => decide (row.seq ≠ seq), (twoRecords "t1").table.sorted.filter _⟩

end SinkModel

namespace SinkProof

open SinkModel SealModel

theorem withoutRow_change (seq : Int) (present : withoutRow seq ≠ (twoRecords "t1").table) :
    Change (Database.init.run testSha256 testScheme testDecode testKeys (twoCalls "t1")).table (withoutRow seq) :=
  .delete List.filter_sublist present

theorem withoutFirst_noticed : ¬ Unnoticed testSha256 testScheme testKeys (twoRecords "t1").table (withoutRow 1) :=
  (change_noticed_iff testSha256 testScheme testDecode testKeys (twoCalls "t1") (withoutRow 1)
    (withoutRow_change 1 (by decide)) (by decide) ⟨by decide, by decide⟩).mp
    ⟨1, "record 1 is missing (next stored is 2)", by decide⟩

/-- The last record deleted: what is left is a shorter chain. -/
theorem withoutLast_unnoticed :
    ¬ ∀ (calls : List Call) (table' : Table),
      Change (Database.init.run testSha256 testScheme testDecode testKeys calls).table table' →
      (∀ row ∈ table'.rows, row.Typed) →
      CollisionFree testSha256
        ((Database.init.run testSha256 testScheme testDecode testKeys calls).table.hashInputs testSha256 ++
          table'.hashInputs testSha256) →
      ∃ seq reason, table'.audit testSha256 testScheme testKeys = .ok (.broken seq reason) := by
  intro claim
  obtain ⟨seq, reason, broken⟩ := claim (twoCalls "t1") (withoutRow 2) (withoutRow_change 2 (by decide))
    (by decide) ⟨by decide, by decide⟩
  have intact : (withoutRow 2).audit testSha256 testScheme testKeys = .ok (.intact 1 digestA) := by decide
  rw [intact] at broken
  cases broken

end SinkProof

import AjarConnectors.Spool.Operations

namespace SpoolModel

/-- What the file system does in one pass of the loop of `enforce_bound`. -/
structure Pass where
  lists : Bool := true
  removes : Bool := true

inductive AppendError where
  | io (error : IoError)
  | listing
  deriving DecidableEq

namespace Spool

/-- `enforce_bound` is done. -/
def Settled (s : Spool) : Prop := s.dir.total ≤ s.maxBytes ∨ (existingSegments s.dir).length ≤ 1

instance Settled.decidable (s : Spool) : Decidable s.Settled := inferInstanceAs (Decidable (_ ∨ _))

/-- One pass of the loop of `enforce_bound`, whether or not the oldest segment could be removed: the error is
    discarded. -/
def tryDropOldest (s : Spool) (removed : Bool) : Spool :=
  let oldest := (existingSegments s.dir).head?.getD 0
  if removed then s.dropOldest oldest else { s.dropOldest oldest with dir := s.dir }

/-- The loop of `enforce_bound` against a file system that decides, pass by pass, whether the listing and the removal
    succeed. No result means that so many passes are not enough. -/
def enforceBoundWith (fs : Nat → Pass) : Nat → Nat → Spool → Bool → Option (Spool × Except AppendError Bool)
  | 0, _, _, _ => none
  | fuel + 1, pass, s, dropped =>
    if (fs pass).lists = false then some (s, .error .listing)
    else if s.Settled then some (s, .ok dropped)
    else enforceBoundWith fs fuel (pass + 1) (s.tryDropOldest (fs pass).removes) true

def appendWith (fs : Nat → Pass) (fuel : Nat) (s : Spool) (eventId : String) (sealed : Bytes) (room : Option Nat) :
    Option (Spool × Except AppendError Bool) :=
  match s.write eventId sealed room with
  | (written, .error e) => some (written, .error (.io e))
  | (written, .ok ()) => enforceBoundWith fs fuel 0 written false

/-- How many of the oldest segments have to go. -/
def surplus (maxBytes : Nat) : List (Nat × Bytes) → Nat
  | [] => 0
  | [_] => 0
  | seg :: next :: rest =>
    if ((seg :: next :: rest).map fun seg => seg.2.length).sum ≤ maxBytes then 0 else surplus maxBytes (next :: rest) + 1

/-- How many of the first passes remove their segment. -/
def removals (fs : Nat → Pass) (passes : Nat) : Nat := (List.range passes).countP fun pass => (fs pass).removes

/-- In the end as many removals succeed as there are segments to drop, or a listing fails. -/
def EnoughRemovals (s : Spool) (fs : Nat → Pass) : Prop :=
  (∃ pass, (fs pass).lists = false) ∨ ∃ passes, surplus s.maxBytes s.dir.segs ≤ removals fs passes

end Spool

end SpoolModel

namespace SpoolProof

open SpoolModel Spool

theorem settled_iff (s : Spool) : s.Settled ↔ surplus s.maxBytes s.dir.segs = 0 := by
  unfold Settled Dir.total existingSegments
  rw [List.length_map]
  rcases s.dir.segs with _ | ⟨seg, _ | ⟨next, rest⟩⟩
  · simp [surplus]
  · simp [surplus]
  · rw [surplus]
    split
    · rename_i within
      exact iff_of_true (Or.inl within) rfl
    · rename_i exceeds
      simp only [List.length_cons]
      omega

theorem removeFile_oldest {dir : Dir} {seg : Nat × Bytes} {rest : List (Nat × Bytes)} (shape : dir.segs = seg :: rest) :
    (dir.removeFile seg.1).segs = rest := by
  have sorted := dir.sorted
  rw [shape, List.pairwise_cons] at sorted
  rw [removeFile_segs, shape, List.filter_cons_of_neg (by simp), List.filter_eq_self]
  intro other member
  have later := sorted.1 other member
  simp only [ne_eq, decide_not, Bool.not_eq_eq_eq_not, Bool.not_true, decide_eq_false_iff_not]
  omega

theorem tryDropOldest_frame (s : Spool) (removed : Bool) :
    (s.tryDropOldest removed).maxBytes = s.maxBytes ∧ (s.tryDropOldest removed).droppedSegments = s.droppedSegments + 1 ∧
      (s.tryDropOldest removed).headSeq = s.headSeq := by
  unfold Spool.tryDropOldest
  cases removed <;> exact ⟨rfl, rfl, rfl⟩

/-- A pass brings the end closer by one segment if its removal succeeds. -/
theorem tryDropOldest_surplus {s : Spool} (unsettled : ¬ s.Settled) (removed : Bool) :
    surplus s.maxBytes (s.tryDropOldest removed).dir.segs + removed.toNat = surplus s.maxBytes s.dir.segs := by
  rw [settled_iff] at unsettled
  cases removed with
  | false => rfl
  | true =>
    rcases shape : s.dir.segs with _ | ⟨seg, _ | ⟨next, rest⟩⟩
    · rw [shape] at unsettled
      exact absurd rfl unsettled
    · rw [shape] at unsettled
      exact absurd rfl unsettled
    · have oldest : (existingSegments s.dir).head?.getD 0 = seg.1 := by
        rw [existingSegments, shape]
        rfl
      have left : (s.tryDropOldest true).dir.segs = next :: rest := by
        unfold Spool.tryDropOldest
        simp only [if_true, oldest]
        exact removeFile_oldest shape
      rw [left]
      rw [shape] at unsettled
      rw [surplus] at unsettled ⊢
      split at unsettled
      · exact absurd rfl unsettled
      · rename_i exceeds
        rw [if_neg exceeds]
        rfl

/-- So many passes are enough exactly if one of their listings fails, or all but the last remove what has to go. -/
theorem enforceBoundWith_isSome_iff (fs : Nat → Pass) (passes pass : Nat) (s : Spool) (dropped : Bool) :
    (enforceBoundWith fs (passes + 1) pass s dropped).isSome = true ↔
      (∃ failed ∈ List.range' pass (passes + 1), (fs failed).lists = false) ∨
        surplus s.maxBytes s.dir.segs ≤ (List.range' pass passes).countP fun pass => (fs pass).removes := by
  induction passes generalizing pass s dropped with
  | zero =>
    rw [enforceBoundWith]
    split
    · rename_i failed
      simp [failed]
    · rename_i listed
      split
      · rename_i settled
        rw [settled_iff] at settled
        simp [settled]
      · rename_i unsettled
        rw [settled_iff] at unsettled
        rw [enforceBoundWith, List.range'_zero, List.countP_nil, Nat.le_zero]
        apply iff_of_false (by simp)
        rintro (⟨failed, member, unlisted⟩ | settled)
        · rw [List.range'_one, List.mem_singleton] at member
          rw [member] at unlisted
          exact listed unlisted
        · exact unsettled settled
  | succ passes ih =>
    rw [enforceBoundWith]
    split
    · rename_i failed
      exact iff_of_true rfl (Or.inl ⟨pass, by simp, failed⟩)
    · rename_i listed
      split
      · rename_i settled
        rw [settled_iff] at settled
        simp [settled]
      · rename_i unsettled
        have closer := tryDropOldest_surplus unsettled (fs pass).removes
        rw [ih, (tryDropOldest_frame s (fs pass).removes).1, List.range'_succ (s := pass) (n := passes), List.countP_cons,
          List.range'_succ (s := pass) (n := passes + 1), List.exists_mem_cons_iff, or_iff_right listed]
        apply or_congr_right
        cases found : (fs pass).removes
        · simp only [found, Bool.toNat_false, Nat.add_zero] at closer
          simp [closer]
        · simp only [found, Bool.toNat_true] at closer
          simp only [if_true]
          omega

theorem enforceBound_returns_iff (s : Spool) (fs : Nat → Pass) :
    (∃ fuel, (enforceBoundWith fs fuel 0 s false).isSome = true) ↔ s.EnoughRemovals fs := by
  unfold EnoughRemovals removals
  constructor
  · rintro ⟨fuel, returned⟩
    cases fuel with
    | zero => cases returned
    | succ passes =>
      rw [enforceBoundWith_isSome_iff, ← List.range_eq_range', ← List.range_eq_range'] at returned
      rcases returned with ⟨failed, -, unlisted⟩ | enough
      · exact Or.inl ⟨failed, unlisted⟩
      · exact Or.inr ⟨passes, enough⟩
  · rintro (⟨failed, unlisted⟩ | ⟨passes, enough⟩)
    · exact ⟨failed + 1, (enforceBoundWith_isSome_iff fs failed 0 s false).mpr (Or.inl ⟨failed, by simp, unlisted⟩)⟩
    · rw [List.range_eq_range'] at enough
      exact ⟨passes + 1, (enforceBoundWith_isSome_iff fs passes 0 s false).mpr (Or.inr enough)⟩

theorem append_returns_iff (s : Spool) (fs : Nat → Pass) (eventId : String) (sealed : Bytes) (room : Option Nat) :
    (∃ fuel, (s.appendWith fs fuel eventId sealed room).isSome = true) ↔
      ((s.write eventId sealed room).2 = .ok () → (s.write eventId sealed room).1.EnoughRemovals fs) := by
  unfold appendWith
  rcases s.write eventId sealed room with ⟨written, e | _⟩
  · simp
  · dsimp only
    rw [← enforceBound_returns_iff, forall_prop_of_true rfl]

/-- `enforce_bound` returns, and so does the append that calls it, exactly if in the end enough removals succeed or a
    listing fails. -/
theorem append_returns_iff_enough_removals (s : Spool) (fs : Nat → Pass) :
    ((∃ fuel, (enforceBoundWith fs fuel 0 s false).isSome = true) ↔ s.EnoughRemovals fs) ∧
      ∀ (eventId : String) (sealed : Bytes) (room : Option Nat),
        (∃ fuel, (s.appendWith fs fuel eventId sealed room).isSome = true) ↔
          ((s.write eventId sealed room).2 = .ok () → (s.write eventId sealed room).1.EnoughRemovals fs) :=
  ⟨enforceBound_returns_iff s fs, append_returns_iff s fs⟩

/-- Two segments over the bound. -/
def crowdedDir : Dir := ⟨[(0, [0, 0, 0, 0, 0, 0, 0, 0]), (1, [])], none, by decide⟩

theorem stuck_removal_never_returns :
    ¬ ∀ (s : Spool) (removes : Nat → Bool), ∃ fuel,
      (enforceBoundWith (fun pass => { removes := removes pass }) fuel 0 s false).isSome = true := by
  intro returns
  rcases (enforceBound_returns_iff _ _).mp (returns (Spool.openDir 4 crowdedDir) fun _ => false) with
    ⟨pass, unlisted⟩ | ⟨passes, enough⟩
  · cases unlisted
  · have one : surplus (Spool.openDir 4 crowdedDir).maxBytes (Spool.openDir 4 crowdedDir).dir.segs = 1 := by
      decide
    have none : removals (fun _ => { removes := false }) passes = 0 := List.countP_eq_zero.mpr fun _ _ => Bool.false_ne_true
    rw [one, none] at enough
    omega

/-- Where every removal succeeds the passes are those of the loop that counts on it. -/
theorem enforceBoundWith_removing (fuel pass : Nat) (s : Spool) (dropped : Bool) (enough : surplus s.maxBytes s.dir.segs ≤ fuel) :
    enforceBoundWith (fun _ => {}) (fuel + 1) pass s dropped =
      some ((enforceBoundLoop fuel s dropped).1, .ok (enforceBoundLoop fuel s dropped).2) := by
  induction fuel generalizing pass s dropped with
  | zero =>
    have settled : s.Settled := (settled_iff s).mpr (by omega)
    rw [enforceBoundWith, if_neg (by decide), if_pos settled, enforceBoundLoop]
  | succ fuel ih =>
    rw [enforceBoundWith, if_neg (by decide)]
    by_cases settled : s.Settled
    · have done : enforceBoundLoop (fuel + 1) s dropped = (s, dropped) := if_pos settled
      rw [if_pos settled, done]
    · have closer := tryDropOldest_surplus settled true
      have more : enforceBoundLoop (fuel + 1) s dropped = enforceBoundLoop fuel (s.tryDropOldest true) true :=
        if_neg settled
      rw [if_neg settled, more]
      apply ih
      change surplus (s.tryDropOldest true).maxBytes (s.tryDropOldest true).dir.segs ≤ fuel
      rw [(tryDropOldest_frame s true).1]
      rw [Bool.toNat_true] at closer
      omega

theorem surplus_le_length (maxBytes : Nat) (segs : List (Nat × Bytes)) : surplus maxBytes segs ≤ segs.length := by
  induction segs with
  | nil => exact Nat.le_refl 0
  | cons seg rest ih =>
    cases rest with
    | nil => exact Nat.zero_le _
    | cons next rest =>
      rw [surplus]
      split
      · exact Nat.zero_le _
      · rw [List.length_cons]
        omega

theorem enforceBoundWith_enforceBound (s : Spool) :
    enforceBoundWith (fun _ => {}) ((existingSegments s.dir).length + 1) 0 s false =
      some (s.enforceBound.1, .ok s.enforceBound.2) := by
  apply enforceBoundWith_removing
  rw [existingSegments, List.length_map]
  exact surplus_le_length s.maxBytes s.dir.segs

/-- What a return of the loop leaves. -/
theorem enforceBoundWith_spec {fs : Nat → Pass} {fuel pass : Nat} {s s' : Spool} {dropped : Bool}
    {result : Except AppendError Bool} (returned : enforceBoundWith fs fuel pass s dropped = some (s', result)) :
    s.droppedSegments ≤ s'.droppedSegments ∧ ∀ dropped', result = .ok dropped' →
      s'.Settled ∧ (dropped' = true ↔ dropped = true ∨ s.droppedSegments < s'.droppedSegments) := by
  induction fuel generalizing pass s dropped with
  | zero => cases returned
  | succ fuel ih =>
    rw [enforceBoundWith] at returned
    split at returned
    · cases returned
      exact ⟨Nat.le_refl _, fun _ impossible => by cases impossible⟩
    · split at returned
      · rename_i settled
        cases returned
        refine ⟨Nat.le_refl _, fun dropped' same => ?_⟩
        cases same
        exact ⟨settled, by simp⟩
      · obtain ⟨more, finished⟩ := ih returned
        have count := (tryDropOldest_frame s (fs pass).removes).2.1
        refine ⟨by omega, fun dropped' same => ?_⟩
        obtain ⟨settled, flag⟩ := finished dropped' same
        refine ⟨settled, flag.trans ?_⟩
        constructor
        · intro _
          right
          omega
        · intro _
          exact Or.inl rfl

theorem enforceBound_settled (s : Spool) : s.enforceBound.1.Settled :=
  ((enforceBoundWith_spec (enforceBoundWith_enforceBound s)).2 _ rfl).1

end SpoolProof

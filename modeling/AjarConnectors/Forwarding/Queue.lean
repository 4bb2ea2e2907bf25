import Mathlib.Data.List.Basic

namespace Forwarding

variable {α L : Type*}

/-- A bounded queue with its counters. -/
structure Queue (α : Type*) where
  buffer : List α
  max : Nat
  delivered : Nat := 0
  gapDropped : Nat := 0

namespace Queue

def new (max : Nat) : Queue α := { buffer := [], max := Nat.max max 1 }

/-- Queue one payload; at capacity the oldest goes and is counted. -/
def push (q : Queue α) (payload : α) : Queue α :=
  if q.max ≤ q.buffer.length then { q with buffer := q.buffer.tail ++ [payload], gapDropped := q.gapDropped + 1 }
  else { q with buffer := q.buffer ++ [payload] }

end Queue

/-- Send oldest first up to the first failure: the link, what it took and what is left. -/
def drainLoop (send : L → α → L × Bool) : L → List α → L × List α × List α
  | link, [] => (link, [], [])
  | link, front :: later =>
    match send link front with
    | (link, false) => (link, [], front :: later)
    | (link, true) =>
      match drainLoop send link later with
      | (link, sent, left) => (link, front :: sent, left)

def Queue.drain (send : L → α → L × Bool) (q : Queue α) (link : L) : Queue α × L × List α :=
  match drainLoop send link q.buffer with
  | (link, sent, left) => ({ q with buffer := left, delivered := q.delivered + sent.length }, link, sent)

theorem drainLoop_append (send : L → α → L × Bool) (link : L) (buffer : List α) :
    buffer = (drainLoop send link buffer).2.1 ++ (drainLoop send link buffer).2.2 := by
  induction buffer generalizing link with
  | nil => rfl
  | cons front later ih =>
    rw [drainLoop]
    split
    · rfl
    · rename_i next _
      exact congrArg (front :: ·) (ih next)

/-- What was pushed is what went out, in order and with gaps, and then what waits; the gaps are counted. -/
def Conserved (pushed sent buffer : List α) (dropped : Nat) : Prop :=
  ∃ front, pushed = front ++ buffer ∧ sent.Sublist front ∧ front.length = sent.length + dropped

namespace Conserved

variable {pushed sent buffer : List α} {dropped : Nat}

theorem start : Conserved ([] : List α) [] [] 0 := ⟨[], rfl, List.Sublist.refl [], rfl⟩

theorem push (kept : Conserved pushed sent buffer dropped) (payload : α) :
    Conserved (pushed ++ [payload]) sent (buffer ++ [payload]) dropped := by
  obtain ⟨front, split, inOrder, count⟩ := kept
  refine ⟨front, ?_, inOrder, count⟩
  rw [split, List.append_assoc]

theorem dropOldest {oldest : α} (kept : Conserved pushed sent (oldest :: buffer) dropped) :
    Conserved pushed sent buffer (dropped + 1) := by
  obtain ⟨front, split, inOrder, count⟩ := kept
  refine ⟨front ++ [oldest], ?_, inOrder.trans (List.sublist_append_left front [oldest]), ?_⟩
  · rw [split, List.append_assoc]
    rfl
  · rw [List.length_append, List.length_singleton]
    omega

theorem deliver {done : List α} (kept : Conserved pushed sent (done ++ buffer) dropped) :
    Conserved pushed (sent ++ done) buffer dropped := by
  obtain ⟨front, split, inOrder, count⟩ := kept
  refine ⟨front ++ done, ?_, inOrder.append (List.Sublist.refl done), ?_⟩
  · rw [split, List.append_assoc]
  · rw [List.length_append, List.length_append]
    omega

theorem sublist (kept : Conserved pushed sent buffer dropped) : (sent ++ buffer).Sublist pushed := by
  obtain ⟨front, split, inOrder, _⟩ := kept
  rw [split]
  exact inOrder.append (List.Sublist.refl buffer)

theorem newest (kept : Conserved pushed sent buffer dropped) : buffer <:+ pushed := by
  obtain ⟨front, split, _⟩ := kept
  exact ⟨front, split.symm⟩

theorem count (kept : Conserved pushed sent buffer dropped) : pushed.length = sent.length + dropped + buffer.length := by
  obtain ⟨front, split, _, count⟩ := kept
  rw [split, List.length_append, count]

end Conserved

/-- A queue at any point of its life, against what was pushed and what a link took. -/
structure Accounted (max : Nat) (pushed sent buffer : List α) (delivered gapDropped : Nat) : Prop where
  /-- Nothing is sent twice, sent while it waits, or out of order. -/
  inOrder : (sent ++ buffer).Sublist pushed
  newest : buffer <:+ pushed
  bounded : buffer.length ≤ Nat.max max 1
  taken : delivered = sent.length
  counted : pushed.length = delivered + gapDropped + buffer.length

theorem Conserved.accounted {max : Nat} {pushed sent buffer : List α} {dropped delivered : Nat}
    (kept : Conserved pushed sent buffer dropped) (bounded : buffer.length ≤ Nat.max max 1)
    (counted : delivered = sent.length) : Accounted max pushed sent buffer delivered dropped where
  inOrder := kept.sublist
  newest := kept.newest
  bounded := bounded
  taken := counted
  counted := by rw [counted, kept.count]

/-- The oldest of a queue at capacity, which is never empty. -/
theorem full_cons {buffer : List α} {max : Nat} (room : 0 < max) (full : max ≤ buffer.length) :
    ∃ oldest rest, buffer = oldest :: rest := by
  cases buffer with
  | nil =>
    rw [List.length_nil] at full
    omega
  | cons oldest rest => exact ⟨oldest, rest, rfl⟩

/-- What a queue keeps to at every point. -/
structure Keeps (max : Nat) (pushed sent : List α) (q : Queue α) : Prop where
  capacity : q.max = Nat.max max 1
  conserved : Conserved pushed sent q.buffer q.gapDropped
  bounded : q.buffer.length ≤ Nat.max max 1
  delivered : q.delivered = sent.length

namespace Keeps

variable {max : Nat} {pushed sent : List α} {q : Queue α}

theorem start (max : Nat) : Keeps max [] [] (Queue.new max : Queue α) where
  capacity := rfl
  conserved := Conserved.start
  bounded := Nat.zero_le _
  delivered := rfl

theorem push (kept : Keeps max pushed sent q) (payload : α) : Keeps max (pushed ++ [payload]) sent (q.push payload) := by
  have room : 0 < q.max := by
    rw [kept.capacity]
    exact Nat.lt_of_lt_of_le Nat.zero_lt_one (Nat.le_max_right max 1)
  have capacity := kept.capacity
  have bounded := kept.bounded
  unfold Queue.push
  split
  · rename_i full
    obtain ⟨oldest, rest, shape⟩ := full_cons room full
    have before := kept.conserved
    rw [shape] at before
    have length : q.buffer.length = rest.length + 1 := by rw [shape, List.length_cons]
    have tail : q.buffer.tail = rest := by rw [shape, List.tail_cons]
    refine ⟨kept.capacity, ?_, ?_, kept.delivered⟩
    · rw [tail]
      exact before.dropOldest.push payload
    · rw [tail, List.length_append, List.length_singleton]
      omega
  · rename_i free
    refine ⟨kept.capacity, kept.conserved.push payload, ?_, kept.delivered⟩
    rw [List.length_append, List.length_singleton]
    omega

theorem drain (kept : Keeps max pushed sent q) (send : L → α → L × Bool) (link : L) :
    Keeps max pushed (sent ++ (q.drain send link).2.2) (q.drain send link).1 := by
  have split := drainLoop_append send link q.buffer
  have length := congrArg List.length split
  rw [List.length_append] at length
  have bounded := kept.bounded
  unfold Queue.drain
  refine ⟨kept.capacity, ?_, ?_, ?_⟩
  · apply Conserved.deliver
    rw [← split]
    exact kept.conserved
  · change (drainLoop send link q.buffer).2.2.length ≤ Nat.max max 1
    omega
  · dsimp only
    rw [List.length_append, kept.delivered]

theorem accounted (kept : Keeps max pushed sent q) :
    Accounted max pushed sent q.buffer q.delivered q.gapDropped :=
  kept.conserved.accounted kept.bounded kept.delivered

end Keeps

end Forwarding

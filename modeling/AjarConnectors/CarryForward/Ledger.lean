import Mathlib.Logic.Function.Basic
import AjarConnectors.CarryForward.Buffer

namespace CarryForward

variable {κ α β : Type*}

/-- The frames between one event and the next: those lost to the caps, and those the event carries. -/
structure Period (α : Type*) where
  lost : List α
  sent : List α

def Period.all (p : Period α) : List α := p.lost ++ p.sent

/-- What became of a key's frames: one closed period for each event, and the losses since the last. -/
structure Books (α : Type*) where
  closed : List (Period α) := []
  lost : List α := []

namespace Books

def whole (books : Books α) (pending : List α) : List α := books.closed.flatMap Period.all ++ (books.lost ++ pending)

def losses (books : Books α) : List α := books.closed.flatMap Period.lost ++ books.lost

end Books

/-- Every frame of one key stands in exactly one place: in the event of a closed period, among its
    losses, among the losses since, or in the buffer. An event is marked if its period lost frames, and
    the buffer is marked if frames were lost since. -/
structure Account (history : List α) (events : List (List α × Bool)) (buffer : Buffer α) (books : Books α) :
    Prop where
  whole : history = books.whole buffer.pending
  sent : events = books.closed.map fun p => (p.sent, !p.lost.isEmpty)
  marked : buffer.droppedSinceEmit = !books.lost.isEmpty

variable [DecidableEq κ]

def ofKey (key : κ) (entries : List (κ × β)) : List β :=
  entries.filterMap fun entry => if entry.1 = key then some entry.2 else none

/-- The accounts of all keys, with every loss in one count. -/
def Balanced (history : List (κ × α)) (events : List (κ × List α × Bool)) (buffers : κ → Buffer α)
    (total : Nat) : Prop :=
  ∃ losses : List (κ × α), losses.length = total ∧ ∀ key, ∃ books : Books α,
    Account (ofKey key history) (ofKey key events) (buffers key) books ∧ ofKey key losses = books.losses

section

variable (key : κ)

@[simp] theorem ofKey_nil : ofKey key ([] : List (κ × β)) = [] := rfl

@[simp] theorem ofKey_append (a b : List (κ × β)) : ofKey key (a ++ b) = ofKey key a ++ ofKey key b :=
  List.filterMap_append

theorem ofKey_same (values : List β) : ofKey key (values.map fun v => (key, v)) = values := by
  rw [ofKey, List.filterMap_map]
  simp

theorem ofKey_other {other : κ} (different : other ≠ key) (values : List β) :
    ofKey key (values.map fun v => (other, v)) = [] := by
  rw [ofKey, List.filterMap_map]
  simp [different]

end

theorem balanced_start : Balanced [] [] (fun _ : κ => ({} : Buffer α)) 0 :=
  ⟨[], rfl, fun _ => ⟨{}, ⟨rfl, rfl, rfl⟩, rfl⟩⟩

section

variable {history : List (κ × α)} {events : List (κ × List α × Bool)} {buffers : κ → Buffer α} {total : Nat}

/-- One key's entry changes; the accounts of the others stand. -/
theorem Balanced.change (balanced : Balanced history events buffers total) (key : κ) (frames lost : List α)
    (emitted : List (List α × Bool)) (buffer : Buffer α)
    (account : ∀ books, Account (ofKey key history) (ofKey key events) (buffers key) books →
      ∃ books', Account (ofKey key history ++ frames) (ofKey key events ++ emitted) buffer books' ∧
        books'.losses = books.losses ++ lost) :
    Balanced (history ++ frames.map fun x => (key, x)) (events ++ emitted.map fun e => (key, e))
      (Function.update buffers key buffer) (total + lost.length) := by
  rcases balanced with ⟨losses, count, accounts⟩
  refine ⟨losses ++ lost.map fun x => (key, x), ?_, ?_⟩
  · rw [List.length_append, List.length_map, count]
  · intro other
    rcases accounts other with ⟨books, was, same⟩
    by_cases here : other = key
    · subst here
      rcases account books was with ⟨books', is, grown⟩
      refine ⟨books', ?_, ?_⟩
      · rw [ofKey_append, ofKey_append, ofKey_same, ofKey_same, Function.update_self]
        exact is
      · rw [ofKey_append, ofKey_same, same, grown]
    · refine ⟨books, ?_, ?_⟩
      · rw [ofKey_append, ofKey_append, ofKey_other other (Ne.symm here), ofKey_other other (Ne.symm here),
          List.append_nil, List.append_nil, Function.update_of_ne here]
        exact was
      · rw [ofKey_append, ofKey_other other (Ne.symm here), List.append_nil, same]

/-- A frame carried for a key stays accounted for. -/
theorem Balanced.push (balanced : Balanced history events buffers total) (caps : Caps) (size : α → Nat) (key : κ)
    (raw : α) :
    Balanced (history ++ [(key, raw)]) events
      (Function.update buffers key ((buffers key).pushRaw caps size raw).1)
      (total + ((buffers key).pushRaw caps size raw).2) := by
  rcases pushRaw_spec caps size (buffers key) raw with ⟨lost, parts, count, flag⟩
  have changed := balanced.change key [raw] lost [] ((buffers key).pushRaw caps size raw).1 (by
      intro books was
      refine ⟨{ books with lost := books.lost ++ lost }, ⟨?_, ?_, ?_⟩, ?_⟩
      · rw [was.whole, Books.whole, Books.whole]
        simp only [List.append_assoc]
        rw [parts]
      · rw [List.append_nil, was.sent]
      · rw [flag, was.marked]
        cases books.lost <;> simp
      · simp [Books.losses])
  rw [count]
  simpa using changed

/-- An event takes all that waits for its key, and says if frames are missing. -/
theorem Balanced.drain (balanced : Balanced history events buffers total) (key : κ) (tail : List α) :
    Balanced (history ++ tail.map fun x => (key, x))
      (events ++ [(key, (buffers key).pending ++ tail, (buffers key).droppedSinceEmit)])
      (Function.update buffers key {}) total := by
  have changed := balanced.change key tail []
    [((buffers key).pending ++ tail, (buffers key).droppedSinceEmit)] {} (by
      intro books was
      refine ⟨⟨books.closed ++ [⟨books.lost, (buffers key).pending ++ tail⟩], []⟩, ⟨?_, ?_, rfl⟩, ?_⟩
      · rw [was.whole, Books.whole, Books.whole]
        simp [Period.all]
      · rw [was.sent, was.marked]
        simp
      · simp [Books.losses])
  simpa using changed

/-- With no event and no loss, all that was carried waits. -/
theorem Balanced.all_pending (balanced : Balanced history [] buffers 0) (key : κ) :
    ofKey key history = (buffers key).pending := by
  rcases balanced with ⟨losses, count, accounts⟩
  rcases accounts key with ⟨books, account, same⟩
  rw [List.length_eq_zero_iff.mp count, Books.losses, ofKey_nil, eq_comm, List.append_eq_nil_iff] at same
  have closed : books.closed = [] := List.map_eq_nil_iff.mp account.sent.symm
  rw [account.whole, Books.whole, closed, same.2]
  rfl

/-- Buffers that hold nothing new may be forgotten and found again. -/
theorem Balanced.congr (balanced : Balanced history events buffers total) {buffers' : κ → Buffer α}
    (pending : ∀ key, (buffers' key).pending = (buffers key).pending)
    (marked : ∀ key, (buffers' key).droppedSinceEmit = (buffers key).droppedSinceEmit) :
    Balanced history events buffers' total := by
  rcases balanced with ⟨losses, count, accounts⟩
  refine ⟨losses, count, fun key => ?_⟩
  rcases accounts key with ⟨books, was, same⟩
  refine ⟨books, ⟨?_, was.sent, ?_⟩, same⟩
  · rw [pending]
    exact was.whole
  · rw [marked]
    exact was.marked

end

end CarryForward

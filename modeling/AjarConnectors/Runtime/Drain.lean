import AjarConnectors.Seal.Envelope
import AjarConnectors.Spool.FailedAppends

namespace RuntimeModel

open SpoolModel SealModel

abbrev Item := Cursor × Record

/-- How a JetStream publish ends: acknowledged, not acknowledged with an error text, or not sent. -/
inductive JsOutcome where
  | acked
  | notAcked (text : String)
  | failed
  deriving DecidableEq

def noResponders (text : String) : Bool := TextModel.contains text "no responders"

/-- Where the drain task of `spawn_drain` stands. It holds the spool's lock only inside `peek` and
    `advance`, so appends may run between any two of its steps. -/
inductive Task where
  | idle
  | peeked (item : Item)
  | publishing (item : Item)
  | flushing (item : Item)
  | skipping (item : Item)
  | delivered (item : Item)
  deriving DecidableEq

def Task.item : Task → Option Item
  | .idle => none
  | .peeked item | .publishing item | .flushing item | .skipping item | .delivered item => some item

/-- What the outside sees of the drain: bytes handed to the broker, a confirmed delivery, an
    `advance` that returned `Ok`. -/
inductive Mark where
  | publish (item : Item)
  | deliver (item : Item)
  | confirm (item : Item)
  deriving DecidableEq

structure Drain where
  world : World
  task : Task
  jsMode : Bool
  trace : List Mark

/-- One atomic step: an event on the publish path, or the drain task's next step. -/
inductive Input where
  | event (eventId : String) (canonical : SealModel.Bytes) (connected published : Bool) (room : Option Nat)
  | peek
  | check
  | jetstream (outcome : JsOutcome)
  | plain (published flushed : Bool)
  | advance
  deriving DecidableEq

def Drain.start (maxBytes : Nat) : Drain := ⟨.start maxBytes, .idle, true, []⟩

section

variable {SK VK : Type} (scheme : Scheme SK VK) (key : SK)

def spoolAppend (eventId : String) (canonical : SealModel.Bytes) (room : Option Nat) : Op :=
  .append eventId (sealCanonical scheme canonical key) room

/-- Confirm the held record with the cursor of its own `peek`, whatever happened since. -/
def Drain.advance (d : Drain) (item : Item) : Drain :=
  { d with
    world := { d.world with peeked := some item }.step .advance
    task := .idle
    trace := d.trace ++ match (d.world.spool.advance item.1).2 with
      | .ok () => [.confirm item]
      | .error _ => [] }

def Drain.published (d : Drain) (item : Item) (delivered : Bool) (otherwise : Task) : Drain :=
  { d with
    task := if delivered then .delivered item else otherwise
    trace := d.trace ++ .publish item :: if delivered then [.deliver item] else [] }

/-- An input that is not the task's next step changes nothing. -/
def Drain.step (d : Drain) : Input → Drain
  | .event eventId canonical connected published room =>
    if connected && published then d
    else { d with world := d.world.step (spoolAppend scheme key eventId canonical room) }
  | .peek =>
    match d.task with
    | .idle =>
      let world := d.world.step .peek
      { d with world, task := match world.peeked with
        | some item => .peeked item
        | none => .idle }
    | _ => d
  | .check =>
    match d.task with
    | .peeked item =>
      match verify scheme item.2.sealed (scheme.verifyingKey key) with
      | .error _ => { d with task := .skipping item }
      | .ok _ => { d with task := if d.jsMode then .publishing item else .flushing item }
    | _ => d
  | .jetstream outcome =>
    match d.task with
    | .publishing item =>
      match outcome with
      | .acked => d.published item true .idle
      | .notAcked text =>
        if noResponders text then { d.published item false (.flushing item) with jsMode := false }
        else d.published item false .idle
      | .failed => d.published item false .idle
    | _ => d
  | .plain published flushed =>
    match d.task with
    | .flushing item => d.published item (published && flushed) .idle
    | _ => d
  | .advance =>
    match d.task with
    | .skipping item | .delivered item => d.advance item
    | _ => d

def Drain.run (d : Drain) (inputs : List Input) : Drain := inputs.foldl (Drain.step scheme key) d

/-- Every append is sized and finds the head segment free of what a failed one left. -/
def WholeHeadInput (d : Drain) : Input → Prop
  | .event eventId canonical connected published room =>
    (connected && published) = true ∨ WholeHeadStep d.world (spoolAppend scheme key eventId canonical room)
  | _ => True

instance (d : Drain) (input : Input) : Decidable (WholeHeadInput scheme key d input) :=
  match input with
  | .event _ _ _ _ _ => inferInstanceAs (Decidable (_ ∨ _))
  | .peek | .check | .jetstream _ | .plain _ _ | .advance => isTrue trivial

end

/-- Advancing with the held cursor fails without any change once the bound removed the record's
    segment, and otherwise moves the drain position from that record to right behind it. -/
def Drain.AdvancesPast (d : Drain) (item : Item) : Prop :=
  (d.world.spool.advance item.1 = (d.world.spool, .error (.reReading .notFound)) ∧ item.1.seg ∈ d.world.dropped) ∨
  ∃ s', d.world.spool.advance item.1 = (s', .ok ()) ∧ d.world.spool.cursor = item.1 ∧
    s'.cursor = ⟨item.1.seg, item.1.offset + item.2.bytes.length⟩

/-- Delivered, still on disk ahead of the cursor, or in a segment the bound removed. -/
def Drain.Accounts (d : Drain) (item : Item) : Prop :=
  .deliver item ∈ d.trace ∨ item ∈ d.world.spool.surviving ∨ item.1.seg ∈ d.world.dropped

def Drain.deliveredRecords (d : Drain) : List Record :=
  d.trace.filterMap fun
    | .deliver item => some item.2
    | _ => none

/-- After its `advance` succeeded no record is published again. -/
def Drain.NoRepublish (d : Drain) : Prop :=
  d.trace.Pairwise fun earlier later => ∀ item, earlier = .confirm item → later ≠ .publish item

end RuntimeModel

namespace RuntimeProof

open RuntimeModel SpoolModel SpoolProof SealModel SealProof

theorem dropOldest_existing (s : Spool) (oldest : Nat) :
    existingSegments (s.dropOldest oldest).dir = (existingSegments s.dir).filter (· ≠ oldest) := by
  simp only [existingSegments, Spool.dropOldest, removeFile_segs, List.filter_map]
  rfl

theorem existing_head_le (dir : Dir) {k : Nat} (listed : k ∈ existingSegments dir) :
    (existingSegments dir).head?.getD 0 ≤ k := by
  have sorted : (existingSegments dir).Pairwise (· < ·) := List.pairwise_map.mpr dir.sorted
  cases segs : existingSegments dir with
  | nil => simp
  | cons first rest =>
    rw [segs] at sorted listed
    rcases List.mem_cons.mp listed with rfl | later
    · exact Nat.le_refl _
    · exact Nat.le_of_lt ((List.pairwise_cons.mp sorted).1 k later)

theorem enforceBoundLoop_cursor (fuel : Nat) (s : Spool) (dropped : Bool) :
    (∀ k ∈ existingSegments (Spool.enforceBoundLoop fuel s dropped).1.dir, k ∈ existingSegments s.dir) ∧
    ((Spool.enforceBoundLoop fuel s dropped).1.cursor = s.cursor ∨
      ∀ k ∈ existingSegments (Spool.enforceBoundLoop fuel s dropped).1.dir, s.cursor.seg < k) := by
  induction fuel generalizing s dropped with
  | zero => exact ⟨fun _ listed => listed, .inl rfl⟩
  | succ fuel ih =>
    simp only [Spool.enforceBoundLoop]
    split
    · exact ⟨fun _ listed => listed, .inl rfl⟩
    · generalize oldest : (existingSegments s.dir).head?.getD 0 = first
      obtain ⟨kept, moved⟩ := ih (s.dropOldest first) true
      have later : ∀ k ∈ existingSegments (Spool.enforceBoundLoop fuel (s.dropOldest first) true).1.dir,
          k ∈ existingSegments s.dir ∧ first < k := by
        intro k listed
        have still := kept k listed
        rw [dropOldest_existing, List.mem_filter, decide_eq_true_eq] at still
        have := existing_head_le s.dir still.1
        exact ⟨still.1, by omega⟩
      refine ⟨fun k listed => (later k listed).1, ?_⟩
      by_cases behind : s.cursor.seg ≤ first
      · exact .inr fun k listed => Nat.lt_of_le_of_lt behind (later k listed).2
      · have same : (s.dropOldest first).cursor = s.cursor := by simp only [Spool.dropOldest, if_neg behind]
        rw [same] at moved
        exact moved

theorem append_cursor (s : Spool) (eventId : String) (sealed : SpoolModel.Bytes) (room : Option Nat) :
    (s.append eventId sealed room).1.cursor = s.cursor ∨
      ∀ k ∈ existingSegments (s.append eventId sealed room).1.dir, s.cursor.seg < k := by
  have written := (write_frame s eventId sealed room).2
  unfold Spool.append
  split
  · rename_i after same
    rw [same] at written
    have bounded := (enforceBoundLoop_cursor (existingSegments after.dir).length after false).2
    rw [written] at bounded
    exact bounded
  · rename_i after error same
    rw [same] at written
    exact .inl written

section

variable {SK VK : Type} {scheme : Scheme SK VK} {key : SK}

/-- What holds between any two steps: the spool's history is on record, all of it is this
    connector's own, and a held record is unconfirmed and, while on disk, the next to drain. -/
structure Draining (scheme : Scheme SK VK) (key : SK) (d : Drain) (l : Layout) (p : Nat) : Prop where
  tracked : Tracked [] d.world l p
  authentic : ∀ e ∈ d.world.appended, ∃ canonical, e.2.sealed = sealCanonical scheme canonical key
  held : ∀ e, d.task.item = some e →
    d.world.peeked = some e ∧ e ∉ d.world.confirmed ∧ (l.lo ≤ e.1.seg → d.world.spool.cursor = e.1)
  unskipped : ∀ e, d.task ≠ .skipping e
  delivered : ∀ e, d.task = .delivered e → .deliver e ∈ d.trace
  confirmed : ∀ e, .confirm e ∈ d.trace → e ∈ d.world.confirmed
  settled : ∀ e ∈ d.world.confirmed, .deliver e ∈ d.trace
  noRepublish : d.NoRepublish

theorem start_draining (maxBytes : Nat) : Draining scheme key (.start maxBytes) .start 0 where
  tracked := start_tracked maxBytes
  authentic := by simp [Drain.start, World.start, World.of]
  held := by simp [Drain.start, Task.item]
  unskipped := by simp [Drain.start]
  delivered := by simp [Drain.start]
  confirmed := by simp [Drain.start]
  settled := by simp [Drain.start, World.start, World.of]
  noRepublish := .nil

namespace Draining

variable {d : Drain} {l : Layout} {p : Nat} (inv : Draining scheme key d l p)

include inv

theorem held_appended {e : Item} (item : d.task.item = some e) : ∃ i : Nat, d.world.appended[i]? = some e := by
  obtain ⟨i, found, -⟩ := inv.tracked.peeked e (inv.held e item).1
  exact ⟨i, found⟩

theorem held_dropped {e : Item} (item : d.task.item = some e) (gone : e.1.seg < l.lo) : e.1.seg ∈ d.world.dropped := by
  obtain ⟨i, found⟩ := inv.held_appended item
  have entry := (inv.tracked.getElem? i).trans found
  have floor := inv.tracked.holds.floor_le
  have before : i < p := by
    by_contra after
    have := (l.lo_le_seg_iff entry).mpr (by omega)
    omega
  have member : e ∈ d.world.appended.take p :=
    List.mem_iff_getElem?.mpr ⟨i, by rw [List.getElem?_take_of_lt before, found]⟩
  exact (inv.tracked.settled e member).resolve_left (inv.held e item).2.1

theorem advancesPast {e : Item} (item : d.task.item = some e) : d.AdvancesPast e := by
  by_cases onDisk : l.lo ≤ e.1.seg
  · obtain ⟨i, found⟩ := inv.held_appended item
    obtain ⟨s', -, advanced, -, moved⟩ :=
      inv.tracked.holds.advance ((inv.tracked.getElem? i).trans found) onDisk
    exact .inr ⟨s', advanced, (inv.held e item).2.2 onDisk, moved⟩
  · exact .inl ⟨inv.tracked.holds.advance_gone (Nat.not_le.mp onDisk), inv.held_dropped item (Nat.not_le.mp onDisk)⟩

theorem accounts {e : Item} (member : e ∈ d.world.appended) : d.Accounts e := by
  obtain ⟨i, found⟩ := List.mem_iff_getElem?.mp member
  by_cases before : i < p
  · have settled := inv.tracked.settled e
      (List.mem_iff_getElem?.mpr ⟨i, by rw [List.getElem?_take_of_lt before, found]⟩)
    exact settled.elim (fun done => .inl (inv.settled e done)) (fun lost => .inr (.inr lost))
  · have ahead : e ∈ l.entries.drop p := by
      refine List.mem_iff_getElem?.mpr ⟨i - p, ?_⟩
      have entry := (inv.tracked.getElem? i).trans found
      rw [List.length_nil, Nat.zero_add] at entry
      rw [List.getElem?_drop, Nat.add_sub_cancel' (Nat.not_lt.mp before), entry]
    have holds := inv.tracked.holds
    rw [List.length_nil, Nat.zero_add] at holds
    rw [← holds.ahead] at ahead
    exact .inr (.inl ahead)

theorem published {e : Item} (item : d.task.item = some e) (delivered : Bool) {otherwise : Task}
    (next : otherwise = .idle ∨ otherwise = .flushing e) :
    Draining scheme key (d.published e delivered otherwise) l p := by
  have fresh : .confirm e ∉ d.trace := fun member => (inv.held e item).2.1 (inv.confirmed e member)
  have grown : ∀ mark ∈ d.trace, mark ∈ (d.published e delivered otherwise).trace := fun mark member =>
    List.mem_append_left _ member
  refine ⟨inv.tracked, inv.authentic, ?_, ?_, ?_, ?_, fun e' done => grown _ (inv.settled e' done), ?_⟩
  · intro e' same
    have : e' = e := by
      simp only [Drain.published] at same
      rcases next with rfl | rfl <;> split at same <;> simp_all [Task.item]
    rw [this]
    exact inv.held e item
  · intro e' same
    simp only [Drain.published] at same
    rcases next with rfl | rfl <;> split at same <;> simp at same
  · intro e' same
    simp only [Drain.published] at same ⊢
    rcases next with rfl | rfl <;> split at same <;> simp_all
  · intro e' member
    simp only [Drain.published, List.mem_append, List.mem_cons, reduceCtorEq, false_or] at member
    rcases member with member | member
    · exact inv.confirmed e' member
    · split at member <;> simp at member
  · refine List.pairwise_append.mpr ⟨inv.noRepublish, ?_, ?_⟩
    · split <;> simp
    · intro earlier member later last e' confirms publishes
      subst confirms publishes
      rcases List.mem_cons.mp last with same | rest
      · cases same
        exact fresh member
      · split at rest <;> simp at rest

theorem withJsMode (jsMode : Bool) : Draining scheme key { d with jsMode } l p :=
  ⟨inv.tracked, inv.authentic, inv.held, inv.unskipped, inv.delivered, inv.confirmed, inv.settled, inv.noRepublish⟩

theorem append (eventId : String) (canonical : SealModel.Bytes) (room : Option Nat)
    (ok : WholeHeadStep d.world (spoolAppend scheme key eventId canonical room)) :
    ∃ l' p', Draining scheme key { d with world := d.world.step (spoolAppend scheme key eventId canonical room) } l' p' := by
  obtain ⟨l', p', next, le⟩ := inv.tracked.tryAppend eventId (sealCanonical scheme canonical key) room ok
  obtain ⟨peeked, confirmed, spool, appended⟩ :=
    step_append_frame d.world eventId (sealCanonical scheme canonical key) room
  refine ⟨l', p', next, ?_, ?_, inv.unskipped, inv.delivered, ?_, ?_, inv.noRepublish⟩
  · intro e member
    rcases appended e member with old | new
    · exact inv.authentic e old
    · exact ⟨canonical, by rw [new]⟩
  · intro e item
    obtain ⟨same, fresh, atCursor⟩ := inv.held e item
    refine ⟨peeked.trans same, by rw [spoolAppend, confirmed]; exact fresh, fun onDisk => ?_⟩
    have cursor := atCursor (Nat.le_trans le onDisk)
    rw [spoolAppend, spool]
    rcases append_cursor d.world.spool eventId (sealCanonical scheme canonical key) room with stays | moved
    · exact stays.trans cursor
    · have listed : l'.lo ∈ existingSegments (d.world.spool.append eventId (sealCanonical scheme canonical key) room).1.dir := by
        rw [← spool]
        exact (mem_existing_iff next.holds.files _).mpr ⟨Nat.le_refl _, l'.lo_le⟩
      have := moved _ listed
      rw [cursor] at this
      omega
  · intro e member
    rw [spoolAppend, confirmed]
    exact inv.confirmed e member
  · intro e done
    rw [spoolAppend, confirmed] at done
    exact inv.settled e done

theorem peek (idle : d.task = .idle) : Draining scheme key (d.step scheme key .peek) l p := by
  have tracked := inv.tracked.peek
  obtain ⟨s', found, -, -, atNext⟩ := inv.tracked.holds.peek
  have spool : (d.world.step .peek).spool = s' := by simp only [World.step, found]
  simp only [Drain.step, idle]
  refine ⟨tracked, inv.authentic, ?_, ?_, ?_, inv.confirmed, inv.settled, inv.noRepublish⟩
  · intro e item
    have peeked : (d.world.step .peek).peeked = some e := by
      cases result : (d.world.step .peek).peeked with
      | none => simp [result, Task.item] at item
      | some e' => simpa [result, Task.item] using item
    have next : d.world.appended[p]? = some e := inv.tracked.peek_eq.symm.trans peeked
    refine ⟨peeked, (inv.tracked.ahead next (Nat.le_refl p)).1, fun _ => ?_⟩
    rw [spool]
    exact atNext e ((inv.tracked.getElem? p).trans next)
  · intro e
    split <;> simp
  · intro e
    split <;> simp

theorem check (correct : scheme.Correct) : Draining scheme key (d.step scheme key .check) l p := by
  cases task : d.task with
  | peeked item =>
    have holding : d.task.item = some item := by rw [task]; rfl
    obtain ⟨i, found⟩ := inv.held_appended holding
    obtain ⟨canonical, sealed⟩ := inv.authentic item (List.mem_of_getElem? found)
    have held := inv.held item holding
    simp only [Drain.step, task, sealed, verify_sealCanonical correct]
    have same : ∀ e, (if d.jsMode = true then Task.publishing item else .flushing item).item = some e → e = item := by
      intro e taken
      split at taken <;> (simp only [Task.item, Option.some.injEq] at taken; exact taken.symm)
    refine ⟨inv.tracked, inv.authentic, ?_, ?_, ?_, inv.confirmed, inv.settled, inv.noRepublish⟩
    · intro e taken
      rw [same e taken]
      exact held
    · intro e
      split <;> simp
    · intro e
      split <;> simp
  | idle | publishing _ | flushing _ | skipping _ | delivered _ => simpa only [Drain.step, task] using inv

theorem advance_outcome {e : Item} (task : d.task = .delivered e) :
    (d.advance e).world = d.world.step .advance ∧
    (((d.world.step .advance).confirmed = d.world.confirmed ++ [e] ∧ (d.advance e).trace = d.trace ++ [.confirm e]) ∨
      ((d.world.step .advance).confirmed = d.world.confirmed ∧ (d.advance e).trace = d.trace)) := by
  have holding : d.task.item = some e := by rw [task]; rfl
  obtain ⟨peeked, fresh, -⟩ := inv.held e holding
  have world : { d.world with peeked := some e } = d.world := by rw [← peeked]
  constructor
  · rw [Drain.advance, world]
  · cases result : d.world.spool.advance e.1 with
    | mk s' outcome =>
      cases outcome with
      | ok =>
        apply Or.inl
        rw [step_advance peeked result, if_neg fresh]
        exact ⟨rfl, by simp [Drain.advance, result]⟩
      | error error =>
        apply Or.inr
        rw [step_advance_error peeked result]
        exact ⟨rfl, by simp [Drain.advance, result]⟩

theorem advance {e : Item} (task : d.task = .delivered e) :
    ∃ l' p', Draining scheme key (d.advance e) l' p' := by
  obtain ⟨l', p', next, -⟩ := inv.tracked.advance
  obtain ⟨appended, -, -⟩ := step_advance_frame d.world
  obtain ⟨moved, outcome⟩ := inv.advance_outcome task
  have delivered := inv.delivered e task
  refine ⟨l', p', by rw [moved]; exact next, ?_, by simp [Drain.advance, Task.item], by simp [Drain.advance],
    by simp [Drain.advance], ?_, ?_, ?_⟩
  · rw [moved, appended]
    exact inv.authentic
  · rw [moved]
    rcases outcome with ⟨confirmed, trace⟩ | ⟨confirmed, trace⟩
    · intro e' member
      rw [trace, List.mem_append, List.mem_singleton, Mark.confirm.injEq] at member
      rw [confirmed]
      exact member.elim (fun old => List.mem_append_left _ (inv.confirmed e' old)) (fun new => by simp [new])
    · rw [trace, confirmed]
      exact inv.confirmed
  · rw [moved]
    rcases outcome with ⟨confirmed, trace⟩ | ⟨confirmed, trace⟩
    · intro e' member
      rw [confirmed, List.mem_append, List.mem_singleton] at member
      rw [trace]
      rcases member with old | rfl
      · exact List.mem_append_left _ (inv.settled e' old)
      · exact List.mem_append_left _ delivered
    · rw [trace, confirmed]
      exact inv.settled
  · rw [Drain.NoRepublish]
    rcases outcome with ⟨-, trace⟩ | ⟨-, trace⟩
    · rw [trace]
      exact List.pairwise_append.mpr ⟨inv.noRepublish, by simp, by simp⟩
    · rw [trace]
      exact inv.noRepublish

theorem step (correct : scheme.Correct) (input : Input) (ok : WholeHeadInput scheme key d input) :
    ∃ l' p', Draining scheme key (d.step scheme key input) l' p' := by
  cases input with
  | event eventId canonical connected published room =>
    by_cases live : (connected && published) = true
    · exact ⟨l, p, by simpa only [Drain.step, live, ↓reduceIte] using inv⟩
    · simp only [Drain.step, if_neg live]
      exact inv.append eventId canonical room (ok.resolve_left live)
  | peek =>
    cases task : d.task with
    | idle => exact ⟨l, p, inv.peek task⟩
    | peeked _ | publishing _ | flushing _ | skipping _ | delivered _ =>
      exact ⟨l, p, by simpa only [Drain.step, task] using inv⟩
  | check => exact ⟨l, p, inv.check correct⟩
  | jetstream outcome =>
    cases task : d.task with
    | publishing item =>
      have holding : d.task.item = some item := by rw [task]; rfl
      refine ⟨l, p, ?_⟩
      cases outcome with
      | acked => simpa only [Drain.step, task] using inv.published holding true (.inl rfl)
      | failed => simpa only [Drain.step, task] using inv.published holding false (.inl rfl)
      | notAcked text =>
        simp only [Drain.step, task]
        split
        · exact (inv.published holding false (.inr rfl)).withJsMode false
        · exact inv.published holding false (.inl rfl)
    | idle | peeked _ | flushing _ | skipping _ | delivered _ =>
      exact ⟨l, p, by simpa only [Drain.step, task] using inv⟩
  | plain published flushed =>
    cases task : d.task with
    | flushing item =>
      have holding : d.task.item = some item := by rw [task]; rfl
      exact ⟨l, p, by simpa only [Drain.step, task] using inv.published holding (published && flushed) (.inl rfl)⟩
    | idle | peeked _ | publishing _ | skipping _ | delivered _ =>
      exact ⟨l, p, by simpa only [Drain.step, task] using inv⟩
  | advance =>
    cases task : d.task with
    | skipping item => exact absurd task (inv.unskipped item)
    | delivered item => simpa only [Drain.step, task] using inv.advance task
    | idle | peeked _ | publishing _ | flushing _ => exact ⟨l, p, by simpa only [Drain.step, task] using inv⟩

end Draining

/-- However appends fall between the drain task's peeks, publishes and confirmations, and whatever
    the broker answers: confirming with a cursor peeked earlier moves the drain position over that
    record alone or changes nothing, no appended record goes missing, and none is published again
    once its confirmation succeeded. -/
theorem drain_accounts_for_all (correct : scheme.Correct) (maxBytes : Nat) (inputs : List Input)
    (allowed : Transition.Allowed (Drain.step scheme key) (WholeHeadInput scheme key) (.start maxBytes) inputs) :
    let d := (Drain.start maxBytes).run scheme key inputs
    (∀ item, d.task.item = some item → d.AdvancesPast item) ∧
    (∀ item ∈ d.world.appended, d.Accounts item) ∧ d.NoRepublish := by
  obtain ⟨l, p, inv⟩ := Transition.invariant (fun d => ∃ l p, Draining scheme key d l p)
    (fun d input inv ok => by obtain ⟨l, p, inv⟩ := inv; exact inv.step correct input ok)
    ⟨_, _, start_draining maxBytes⟩ allowed
  exact ⟨fun item held => inv.advancesPast held, fun item member => inv.accounts member, inv.noRepublish⟩

end

def spooledRun : List Input :=
  [.event "a" (idOnlyEvent 97) false false none, .peek, .event "b" (idOnlyEvent 98) false false none, .check,
    .jetstream (.notAcked "no responders"), .plain true true, .advance, .peek]

theorem spooledRun_accounts :
    ((Drain.start 1000).run testScheme () spooledRun).deliveredRecords.length = 1 ∧
      (∀ item ∈ ((Drain.start 1000).run testScheme () spooledRun).world.appended,
        ((Drain.start 1000).run testScheme () spooledRun).Accounts item) ∧
      ((Drain.start 1000).run testScheme () spooledRun).NoRepublish :=
  ⟨by decide +kernel, (drain_accounts_for_all testScheme_correct 1000 spooledRun (by decide +kernel)).2⟩

def tornSpoolRun : List Input :=
  [.event "a" (idOnlyEvent 97) false false (some 20), .event "b" (idOnlyEvent 98) false false none, .peek, .check,
    .advance]

theorem tornSpoolRun_loses_a_record :
    ¬ ∀ (scheme : Scheme Unit Unit), scheme.Correct → ∀ (maxBytes : Nat) (inputs : List Input),
      let d := (Drain.start maxBytes).run scheme () inputs
      ∀ item ∈ d.world.appended, item.2 ∈ d.deliveredRecords ∨
        item.2 ∈ d.world.spool.surviving.map Prod.snd ∨ item.1.seg ∈ d.world.dropped := by
  intro claim
  have lost := claim testScheme testScheme_correct 1000 tornSpoolRun
    (⟨0, 0⟩, ⟨"b", sealCanonical testScheme (idOnlyEvent 98) ()⟩)
  revert lost
  decide

end RuntimeProof

import AjarConnectors.Marking.Apply
import AjarConnectors.Ontology.Check
import AjarConnectors.Runtime.Drain
import AjarConnectors.Runtime.LossCounter

namespace OntologyModel.Ontology

/-- An event that carries something Core will not govern. -/
def loses (ont : Ontology) (event : EventModel.Event) : Bool :=
  !ont.knowsType event.entityType || !(ont.ungoverned event).isEmpty

/-- What a warning about the event names: its type, and the attribute or nothing. -/
def Warns (ont : Ontology) (event : EventModel.Event) (warning : String × String) : Prop :=
  event.entityType = warning.1 ∧
    if ont.knowsType event.entityType = false then warning.2 = "" else warning.2 ∈ ont.ungoverned event

end OntologyModel.Ontology

namespace RuntimeModel

open EventModel MarkingModel SealModel

/-- A marking that its configuration gave. -/
abbrev ConfiguredMarking := { m : Marking // ∃ cfg, Marking.fromConfig cfg = .ok m }

/-- What `run` sets up before its loop. -/
structure Setup (SK VK : Type) where
  scheme : Scheme SK VK
  key : SK
  canonicalBytes : Event → Bytes
  ontology : OntologyModel.Ontology
  marking : Option ConfiguredMarking
  spooling : Bool

structure Metrics extends SpoolMetrics where
  received : Nat := 0
  published : Nat := 0
  rejected : Nat := 0
  droppedBackpressure : Nat := 0
  drained : Nat := 0
  spoolCorrupt : Nat := 0

def SpoolMetrics.append (m : SpoolMetrics) : Except SpoolModel.IoError Bool → SpoolMetrics
  | .ok dropped =>
    { m with
      spooled := m.spooled + 1
      spoolDroppedSegments := if dropped then m.spoolDroppedSegments + 1 else m.spoolDroppedSegments }
  | .error _ => { m with spoolFailed := m.spoolFailed + 1 }

/-- One publish on the live path: the `Nats-Msg-Id` header and the sealed event. -/
abbrev Message := String × Bytes

/-- The loop between two of its awaits, next to the drain task. `frames` are the frames `recv` returned, `live` what
    the client took. -/
structure Loop (π : Type*) where
  parser : π
  /-- What is left of the events of the latest frame. -/
  pending : List Event
  stopped : Bool
  frames : List Bytes
  live : List Message
  metrics : Metrics
  log : OntologyModel.Ontology.UngovernedLog
  drain : Drain

def Loop.start {π : Type*} (parser : π) (maxBytes : Nat) : Loop π :=
  ⟨parser, [], false, [], [], {}, {}, .start maxBytes⟩

/-- What happens next: `recv` returns, the next event goes out, the drain task takes a step, a signal comes. -/
inductive Turn where
  | received (frame : Bytes)
  | receiveFails
  | handOn (connected published : Bool) (room : Option Nat)
  | drains (input : Input)
  | shutdown

/-- The drain task's own steps; an event is the loop's. -/
def Input.drains : Input → Bool
  | .event _ _ _ _ _ => false
  | .peek | .check | .jetstream _ | .plain _ _ | .advance => true

section

variable {SK VK : Type} {π : Type*} (setup : Setup SK VK) (parse : π → Bytes → π × Except String (List Event))

def Setup.stamp (event : Event) : Event :=
  match setup.marking with
  | some m => m.val.apply event
  | none => event

def Setup.sealEvent (event : Event) : Bytes := sealCanonical setup.scheme (setup.canonicalBytes event) setup.key

def Setup.message (event : Event) : Message := (event.id, setup.sealEvent event)

def Setup.record (event : Event) : SpoolModel.Record := ⟨event.id, setup.sealEvent event⟩

def Loop.spoolAppend (w : Loop π) (eventId : String) (sealed : Bytes) (room : Option Nat) : Loop π :=
  { w with
    drain := { w.drain with world := w.drain.world.step (.append eventId sealed room) }
    metrics := { w.metrics with toSpoolMetrics := w.metrics.append (w.drain.world.spool.append eventId sealed room).2 } }

/-- With the link known down the event goes straight to the spool. -/
def Loop.publishOrSpool (w : Loop π) (eventId : String) (sealed : Bytes) (connected published : Bool)
    (room : Option Nat) : Loop π :=
  if setup.spooling && !connected then w.spoolAppend eventId sealed room
  else if published then
    { w with
      live := w.live ++ [(eventId, sealed)]
      metrics := { w.metrics with published := w.metrics.published + 1 } }
  else if setup.spooling then w.spoolAppend eventId sealed room
  else { w with metrics := { w.metrics with droppedBackpressure := w.metrics.droppedBackpressure + 1 } }

def Loop.receive (w : Loop π) (frame : Bytes) : Loop π :=
  let w := { w with
    frames := w.frames ++ [frame]
    metrics := { w.metrics with received := w.metrics.received + 1 } }
  match parse w.parser frame with
  | (parser, .ok events) => { w with parser, pending := events }
  | (parser, .error _) => { w with parser, metrics := { w.metrics with rejected := w.metrics.rejected + 1 } }

def Loop.handOn (w : Loop π) (event : Event) (rest : List Event) (connected published : Bool) (room : Option Nat) : Loop π :=
  let event := setup.stamp event
  { w with pending := rest, log := setup.ontology.reportUngoverned event w.log }.publishOrSpool setup event.id
    (setup.sealEvent event) connected published room

/-- What the drain task counts in a step: a record that fails verification, a delivery it has confirmed. -/
def Drain.counts (d : Drain) (input : Input) (m : Metrics) : Metrics :=
  match d.task, input with
  | .peeked item, .check =>
    match verify setup.scheme item.2.sealed (setup.scheme.verifyingKey setup.key) with
    | .error _ => { m with spoolCorrupt := m.spoolCorrupt + 1 }
    | .ok _ => m
  | .delivered _, .advance => { m with drained := m.drained + 1 }
  | _, _ => m

/-- The source is polled, and a signal seen, only between frames; the drain task is only there with a spool. -/
def Loop.step (w : Loop π) (turn : Turn) : Loop π :=
  if w.stopped then w
  else match turn with
  | .received frame => if w.pending.isEmpty then w.receive parse frame else w
  | .receiveFails => w
  | .handOn connected published room =>
    match w.pending with
    | [] => w
    | event :: rest => w.handOn setup event rest connected published room
  | .drains input =>
    if setup.spooling && input.drains then
      { w with
        drain := w.drain.step setup.scheme setup.key input
        metrics := w.drain.counts setup input w.metrics }
    else w
  | .shutdown => if w.pending.isEmpty then { w with stopped := true } else w

/-- All that went to the broker, on the live path and from the spool. -/
def Loop.wire (w : Loop π) : List Message :=
  w.live ++ w.drain.trace.filterMap fun
    | .publish item => some (item.2.eventId, item.2.sealed)
    | _ => none

def Loop.run (w : Loop π) (turns : List Turn) : Loop π := turns.foldl (Loop.step setup parse) w

/-- The parser over the frames, one after the other. -/
def parseAll : π → List Bytes → π × List (Except String (List Event))
  | parser, [] => (parser, [])
  | parser, frame :: frames =>
    let (next, result) := parse parser frame
    let (last, results) := parseAll next frames
    (last, result :: results)

def eventsOf (results : List (Except String (List Event))) : List Event :=
  results.flatMap fun
    | .ok events => events
    | .error _ => []

def rejections (results : List (Except String (List Event))) : Nat :=
  results.countP fun
    | .ok _ => false
    | .error _ => true

/-- How an event leaves the loop: the client took it, the spool did, it was shed for want of a spool, the spool
    failed. -/
inductive Fate where
  | published
  | spooled
  | shed
  | lost
  deriving DecidableEq

def fated (fate : Fate) (fates : List (Event × Fate)) : List Event :=
  (fates.filter fun handed => handed.2 = fate).map Prod.fst

/-- The loop against what the parser makes of its frames. Every event of an accepted frame goes out once, stamped and in
    order, by the path its fate names, and each counter counts the events of its own fate. -/
structure Accounted (parser : π) (w : Loop π) (fates : List (Event × Fate)) : Prop where
  state : w.parser = (parseAll parse parser w.frames).1
  order : fates.map Prod.fst ++ w.pending.map setup.stamp =
    (eventsOf (parseAll parse parser w.frames).2).map setup.stamp
  received : w.metrics.received = w.frames.length
  rejected : w.metrics.rejected = rejections (parseAll parse parser w.frames).2
  live : w.live = (fated .published fates).map setup.message
  published : w.metrics.published = (fated .published fates).length
  appended : w.drain.world.appended.map Prod.snd = (fated .spooled fates).map setup.record
  spooled : w.metrics.spooled = (fated .spooled fates).length
  droppedBackpressure : w.metrics.droppedBackpressure = (fated .shed fates).length
  spoolFailed : w.metrics.spoolFailed = (fated .lost fates).length
  spooling : setup.spooling = true → fated .shed fates = []
  unspooled : setup.spooling = false → fated .spooled fates = [] ∧ fated .lost fates = []
  ungoverned : w.log.ungoverned = (fates.map Prod.fst).countP setup.ontology.loses
  distinct : w.log.reported.Nodup
  reported : ∀ warning, warning ∈ w.log.reported ↔
    ∃ event ∈ fates.map Prod.fst, setup.ontology.Warns event warning
  stopped : w.stopped = true → w.pending = []

/-- An event that goes to the spool finds its head segment free of what a failed append left. -/
def Loop.WholeHead (w : Loop π) : Turn → Prop
  | .handOn connected published room =>
    match w.pending with
    | [] => True
    | event :: _ =>
      setup.spooling = false ∨ WholeHeadInput setup.scheme setup.key w.drain
        (.event (setup.stamp event).id (setup.canonicalBytes (setup.stamp event)) connected published room)
  | _ => True

instance (w : Loop π) (turn : Turn) : Decidable (w.WholeHead setup turn) :=
  match turn, w with
  | .handOn _ _ _, ⟨_, [], _, _, _, _, _, _⟩ => isTrue trivial
  | .handOn _ _ _, ⟨_, _ :: _, _, _, _, _, _, _⟩ => inferInstanceAs (Decidable (_ ∨ _))
  | .received _, _ | .receiveFails, _ | .drains _, _ | .shutdown, _ => isTrue trivial

/-- One pass of the drain task over a link that is up to a broker that answers. -/
def drainPass : List Input := [.peek, .check, .jetstream .acked, .plain true true, .advance]

def Drain.pass (d : Drain) : Drain := drainPass.foldl (Drain.step setup.scheme setup.key) d

def Drain.passes (n : Nat) (d : Drain) : Drain :=
  (List.replicate n drainPass).flatten.foldl (Drain.step setup.scheme setup.key) d

/-- A delivery the task has still to confirm. -/
def Drain.unconfirmed (d : Drain) : Nat :=
  match d.task with
  | .delivered _ => 1
  | _ => 0

end

/-- The encoding of an event with no other fields than its id and its source. -/
def idAndSource (event : Event) : Bytes :=
  18 :: UInt8.ofNat event.id.length :: event.id.toList.map (fun c => UInt8.ofNat c.toNat) ++
    26 :: UInt8.ofNat event.sourceId.length :: event.sourceId.toList.map (fun c => UInt8.ofNat c.toNat)

def testSetup : Setup Unit Unit := ⟨testScheme, (), idAndSource, ⟨[]⟩, none, true⟩

/-- One letter is one event. -/
def letterParse (_ : Unit) (frame : Bytes) : Unit × Except String (List Event) :=
  ((), match frame with
    | [letter] => .ok [{ Event.default with id := String.singleton (Char.ofNat letter.toNat), sourceId := "x" }]
    | _ => .error "not a letter")

/-- The link goes down between two events. -/
def linkLoss : List Turn :=
  [.received [97], .handOn true true none, .received [], .received [98], .handOn false false none]

end RuntimeModel

namespace OntologyProof

open OntologyModel Ontology

theorem report_spec (log : UngovernedLog) (entityType name : String) :
    (log.report entityType name).ungoverned = log.ungoverned ∧
      (log.reported.Nodup → (log.report entityType name).reported.Nodup) ∧
      ∀ warning, warning ∈ (log.report entityType name).reported ↔
        warning ∈ log.reported ∨ warning = (entityType, name) := by
  unfold UngovernedLog.report
  by_cases known : (entityType, name) ∈ log.reported
  · rw [if_pos known]
    refine ⟨rfl, id, fun warning => ⟨Or.inl, ?_⟩⟩
    intro either
    rcases either with old | rfl
    · exact old
    · exact known
  · rw [if_neg known]
    refine ⟨rfl, fun distinct => List.nodup_cons.mpr ⟨known, distinct⟩, fun warning => ?_⟩
    rw [List.mem_cons, or_comm]

theorem foldl_report_spec (entityType : String) (names : List String) (log : UngovernedLog) :
    (names.foldl (fun log name => log.report entityType name) log).ungoverned = log.ungoverned ∧
      (log.reported.Nodup → (names.foldl (fun log name => log.report entityType name) log).reported.Nodup) ∧
      ∀ warning, warning ∈ (names.foldl (fun log name => log.report entityType name) log).reported ↔
        warning ∈ log.reported ∨ entityType = warning.1 ∧ warning.2 ∈ names := by
  induction names generalizing log with
  | nil =>
    refine ⟨rfl, id, fun warning => ?_⟩
    simp
  | cons name names ih =>
    obtain ⟨count, distinct, members⟩ := ih (log.report entityType name)
    obtain ⟨once, fresh, added⟩ := report_spec log entityType name
    refine ⟨count.trans once, fun before => distinct (fresh before), fun warning => ?_⟩
    rw [List.foldl_cons, members, added, List.mem_cons]
    constructor
    · intro either
      rcases either with (old | rfl) | later
      · exact Or.inl old
      · exact Or.inr ⟨rfl, Or.inl rfl⟩
      · exact Or.inr ⟨later.1, Or.inr later.2⟩
    · intro either
      rcases either with old | ⟨rfl, first | later⟩
      · exact Or.inl (Or.inl old)
      · exact Or.inl (Or.inr (by rw [← first]))
      · exact Or.inr ⟨rfl, later⟩

/-- One event is counted at most once, and warns about what no event before it did. -/
theorem reportUngoverned_spec (ont : Ontology) (event : EventModel.Event) (log : UngovernedLog) :
    (ont.reportUngoverned event log).ungoverned = log.ungoverned + (ont.loses event).toNat ∧
      (log.reported.Nodup → (ont.reportUngoverned event log).reported.Nodup) ∧
      ∀ warning, warning ∈ (ont.reportUngoverned event log).reported ↔
        warning ∈ log.reported ∨ ont.Warns event warning := by
  unfold reportUngoverned loses Warns
  dsimp only
  cases known : ont.knowsType event.entityType with
  | false =>
    obtain ⟨once, fresh, added⟩ := report_spec { log with ungoverned := log.ungoverned + 1 } event.entityType ""
    refine ⟨once, fresh, fun warning => (added warning).trans ?_⟩
    rw [if_pos rfl, Prod.ext_iff, eq_comm (a := warning.1)]
  | true =>
    simp only [Bool.true_eq_false, if_false]
    have all := foldl_report_spec event.entityType (ont.ungoverned event)
      (if (ont.ungoverned event).isEmpty then log else { log with ungoverned := log.ungoverned + 1 })
    cases governed : (ont.ungoverned event).isEmpty with
    | true =>
      rw [governed] at all
      simpa using all
    | false =>
      rw [governed] at all
      simpa using all

end OntologyProof

namespace RuntimeProof

open RuntimeModel EventModel MarkingModel SealModel SpoolModel SpoolProof

theorem parseAll_append {π : Type*} (parse : π → SealModel.Bytes → π × Except String (List Event)) (parser : π)
    (frames more : List SealModel.Bytes) :
    parseAll parse parser (frames ++ more) =
      ((parseAll parse (parseAll parse parser frames).1 more).1,
        (parseAll parse parser frames).2 ++ (parseAll parse (parseAll parse parser frames).1 more).2) := by
  induction frames generalizing parser with
  | nil => rfl
  | cons frame frames ih =>
    simp only [List.cons_append, parseAll, ih]

theorem fated_append (fate : Fate) (fates : List (Event × Fate)) (event : Event) (other : Fate) :
    fated fate (fates ++ [(event, other)]) = fated fate fates ++ if other = fate then [event] else [] := by
  unfold fated
  rw [List.filter_append, List.map_append]
  congr 1
  by_cases same : other = fate
  · simp [same]
  · simp [same]

/-- Every event has one fate. -/
theorem fated_total (fates : List (Event × Fate)) :
    (fated .published fates).length + (fated .spooled fates).length + (fated .shed fates).length +
      (fated .lost fates).length = fates.length := by
  induction fates with
  | nil => rfl
  | cons handed fates ih =>
    obtain ⟨event, fate⟩ := handed
    unfold fated at ih ⊢
    cases fate <;> simp at ih ⊢ <;> omega

/-- An append counts once: as spooled, with its record behind the others, or as failed. -/
theorem spoolAppend_cases {π : Type*} (w : Loop π) (eventId : String) (sealed : SealModel.Bytes) (room : Option Nat) :
    ((w.spoolAppend eventId sealed room).drain.world.appended.map Prod.snd =
          w.drain.world.appended.map Prod.snd ++ [⟨eventId, sealed⟩] ∧
        (w.spoolAppend eventId sealed room).metrics.spooled = w.metrics.spooled + 1 ∧
        (w.spoolAppend eventId sealed room).metrics.spoolFailed = w.metrics.spoolFailed) ∨
      ((w.spoolAppend eventId sealed room).drain.world.appended = w.drain.world.appended ∧
        (w.spoolAppend eventId sealed room).metrics.spooled = w.metrics.spooled ∧
        (w.spoolAppend eventId sealed room).metrics.spoolFailed = w.metrics.spoolFailed + 1) := by
  unfold Loop.spoolAppend World.step
  dsimp only
  cases result : w.drain.world.spool.append eventId sealed room with
  | mk spool outcome =>
    cases outcome with
    | ok dropped =>
      left
      refine ⟨?_, rfl, rfl⟩
      rw [List.map_append]
      rfl
    | error e => exact Or.inr ⟨rfl, rfl, rfl⟩

theorem fated_length_append (fate : Fate) (fates : List (Event × Fate)) (event : Event) (other : Fate) :
    (fated fate (fates ++ [(event, other)])).length = (fated fate fates).length + if other = fate then 1 else 0 := by
  rw [fated_append, List.length_append]
  split <;> rfl

/-- Everything the drain task's own inputs can do. -/
inductive Steps {SK VK : Type} (scheme : Scheme SK VK) (key : SK) (d : Drain) : Input → Drain → Prop where
  | still {input : Input} (unchecked : input = .check → ∀ item, d.task ≠ .peeked item)
      (unadvanced : input = .advance → ∀ item, d.task ≠ .delivered item) : Steps scheme key d input d
  | peeks {task : Task} (idle : d.task = .idle) (next : task = .idle ∨ ∃ item, task = .peeked item) :
      Steps scheme key d .peek { d with world := d.world.step .peek, task := task }
  | rejects {item : Item} {e : SealError} (task : d.task = .peeked item)
      (unverified : verify scheme item.2.sealed (scheme.verifyingKey key) = .error e) :
      Steps scheme key d .check { d with task := .skipping item }
  | checks {item : Item} {canonical : SealModel.Bytes} {task : Task} (peeked : d.task = .peeked item)
      (verified : verify scheme item.2.sealed (scheme.verifyingKey key) = .ok canonical)
      (next : task = .publishing item ∨ task = .flushing item) : Steps scheme key d .check { d with task := task }
  | publishes {input : Input} (item : Item) (delivered jsMode : Bool) (otherwise : Task)
      (task : d.task = .publishing item ∨ d.task = .flushing item)
      (next : otherwise = .idle ∨ otherwise = .flushing item) (unchecked : input ≠ .check) (unadvanced : input ≠ .advance) :
      Steps scheme key d input { d.published item delivered otherwise with jsMode := jsMode }
  | advances {item : Item} (task : d.task = .skipping item ∨ d.task = .delivered item) :
      Steps scheme key d .advance (d.advance item)

theorem step_steps {SK VK : Type} (scheme : Scheme SK VK) (key : SK) (d : Drain) {input : Input}
    (own : input.drains = true) : Steps scheme key d input (d.step scheme key input) := by
  have elsewhere (other : d.step scheme key input = d) (unchecked : input = .check → ∀ item, d.task ≠ .peeked item)
      (unadvanced : input = .advance → ∀ item, d.task ≠ .delivered item) :
      Steps scheme key d input (d.step scheme key input) := by
    rw [other]
    exact .still unchecked unadvanced
  cases input with
  | event _ _ _ _ _ => cases own
  | peek =>
    cases task : d.task with
    | idle =>
      simp only [Drain.step, task]
      refine .peeks task ?_
      split
      · exact Or.inr ⟨_, rfl⟩
      · exact Or.inl rfl
    | peeked _ | publishing _ | flushing _ | skipping _ | delivered _ =>
      exact elsewhere (by simp only [Drain.step, task]) (by simp) (by simp)
  | check =>
    cases task : d.task with
    | peeked item =>
      simp only [Drain.step, task]
      cases found : verify scheme item.2.sealed (scheme.verifyingKey key) with
      | error e => exact .rejects task found
      | ok canonical =>
        refine .checks task found ?_
        split
        · exact Or.inl rfl
        · exact Or.inr rfl
    | idle | publishing _ | flushing _ | skipping _ | delivered _ =>
      exact elsewhere (by simp only [Drain.step, task]) (by simp [task]) (by simp)
  | jetstream outcome =>
    cases task : d.task with
    | publishing item =>
      simp only [Drain.step, task]
      cases outcome with
      | acked => exact .publishes item true d.jsMode .idle (Or.inl task) (Or.inl rfl) (by simp) (by simp)
      | failed => exact .publishes item false d.jsMode .idle (Or.inl task) (Or.inl rfl) (by simp) (by simp)
      | notAcked text =>
        dsimp only
        split
        · exact .publishes item false false (.flushing item) (Or.inl task) (Or.inr rfl) (by simp) (by simp)
        · exact .publishes item false d.jsMode .idle (Or.inl task) (Or.inl rfl) (by simp) (by simp)
    | idle | peeked _ | flushing _ | skipping _ | delivered _ =>
      exact elsewhere (by simp only [Drain.step, task]) (by simp) (by simp)
  | plain published flushed =>
    cases task : d.task with
    | flushing item =>
      simp only [Drain.step, task]
      exact .publishes item (published && flushed) d.jsMode .idle (Or.inr task) (Or.inl rfl) (by simp) (by simp)
    | idle | peeked _ | publishing _ | skipping _ | delivered _ =>
      exact elsewhere (by simp only [Drain.step, task]) (by simp) (by simp)
  | advance =>
    cases task : d.task with
    | skipping item =>
      simp only [Drain.step, task]
      exact .advances (Or.inl task)
    | delivered item =>
      simp only [Drain.step, task]
      exact .advances (Or.inr task)
    | idle | peeked _ | publishing _ | flushing _ =>
      exact elsewhere (by simp only [Drain.step, task]) (by simp) (by simp [task])

theorem drain_appended {SK VK : Type} (scheme : Scheme SK VK) (key : SK) (d : Drain) {input : Input}
    (own : input.drains = true) : (d.step scheme key input).world.appended = d.world.appended := by
  have steps := step_steps scheme key d own
  generalize d.step scheme key input = d' at steps ⊢
  cases steps with
  | still _ _ | rejects _ _ | checks _ _ _ | publishes _ _ _ _ _ _ _ _ => rfl
  | peeks idle next => rfl
  | advances task => exact (step_advance_frame { d.world with peeked := some _ }).1

theorem counts_frame {SK VK : Type} (setup : Setup SK VK) (d : Drain) (input : Input) (m : Metrics) :
    d.counts setup input m =
      { m with drained := (d.counts setup input m).drained, spoolCorrupt := (d.counts setup input m).spoolCorrupt } := by
  unfold Drain.counts
  split
  · split <;> rfl
  · rfl
  · rfl

theorem counts_same {SK VK : Type} (setup : Setup SK VK) (d : Drain) {input : Input} (m : Metrics)
    (unchecked : input = .check → ∀ item, d.task ≠ .peeked item)
    (unadvanced : input = .advance → ∀ item, d.task ≠ .delivered item) : d.counts setup input m = m := by
  unfold Drain.counts
  split
  · rename_i task
    exact absurd task (unchecked rfl _)
  · rename_i task
    exact absurd task (unadvanced rfl _)
  · rfl

section

variable {SK VK : Type} {π : Type*} {setup : Setup SK VK} {parse : π → SealModel.Bytes → π × Except String (List Event)}

/-- What one event changes on its way out. -/
structure Goes (setup : Setup SK VK) (event : Event) (w w' : Loop π) (fate : Fate) : Prop where
  parser : w'.parser = w.parser
  pending : w'.pending = w.pending
  stopped : w'.stopped = w.stopped
  frames : w'.frames = w.frames
  log : w'.log = w.log
  received : w'.metrics.received = w.metrics.received
  rejected : w'.metrics.rejected = w.metrics.rejected
  live : w'.live = w.live ++ if fate = .published then [setup.message event] else []
  published : w'.metrics.published = w.metrics.published + if fate = .published then 1 else 0
  appended : w'.drain.world.appended.map Prod.snd =
    w.drain.world.appended.map Prod.snd ++ if fate = .spooled then [setup.record event] else []
  spooled : w'.metrics.spooled = w.metrics.spooled + if fate = .spooled then 1 else 0
  shed : w'.metrics.droppedBackpressure = w.metrics.droppedBackpressure + if fate = .shed then 1 else 0
  lost : w'.metrics.spoolFailed = w.metrics.spoolFailed + if fate = .lost then 1 else 0
  spooling : setup.spooling = true → fate ≠ .shed
  unspooled : setup.spooling = false → fate ≠ .spooled ∧ fate ≠ .lost

theorem spoolAppend_goes (with_spool : setup.spooling = true) (w : Loop π) (event : Event) (room : Option Nat) :
    ∃ fate, Goes setup event w (w.spoolAppend event.id (setup.sealEvent event) room) fate := by
  have without : setup.spooling = false → Fate.spooled ≠ .spooled ∧ Fate.spooled ≠ .lost := by
    rw [with_spool]
    intro impossible
    cases impossible
  rcases spoolAppend_cases w event.id (setup.sealEvent event) room with ⟨appended, spooled, failed⟩ | ⟨same, spooled, failed⟩
  · refine ⟨.spooled, rfl, rfl, rfl, rfl, rfl, rfl, rfl, ?_, rfl, appended, spooled, rfl, failed, fun _ => by decide, without⟩
    exact (List.append_nil _).symm
  · refine ⟨.lost, rfl, rfl, rfl, rfl, rfl, rfl, rfl, ?_, rfl, ?_, spooled, rfl, failed, fun _ => by decide, ?_⟩
    · exact (List.append_nil _).symm
    · rw [same]
      exact (List.append_nil _).symm
    · exact fun impossible => absurd rfl (without impossible).1

variable (setup) in
theorem publishOrSpool_goes (w : Loop π) (event : Event) (connected published : Bool) (room : Option Nat) :
    ∃ fate, Goes setup event w
      (w.publishOrSpool setup event.id (setup.sealEvent event) connected published room) fate := by
  unfold Loop.publishOrSpool
  split
  · rename_i down
    exact spoolAppend_goes (Bool.and_eq_true_iff.mp down).1 w event room
  · split
    · refine ⟨.published, rfl, rfl, rfl, rfl, rfl, rfl, rfl, rfl, rfl, ?_, rfl, rfl, rfl, fun _ => by decide,
        fun _ => by decide⟩
      exact (List.append_nil _).symm
    · split
      · rename_i with_spool
        exact spoolAppend_goes with_spool w event room
      · rename_i without
        refine ⟨.shed, rfl, rfl, rfl, rfl, rfl, rfl, rfl, ?_, rfl, ?_, rfl, rfl, rfl, fun impossible => absurd impossible without,
          fun _ => by decide⟩
        · exact (List.append_nil _).symm
        · exact (List.append_nil _).symm

variable {parser : π} {w : Loop π} {fates : List (Event × Fate)}

theorem start_accounted (setup : Setup SK VK) (parse : π → SealModel.Bytes → π × Except String (List Event)) (parser : π)
    (maxBytes : Nat) : Accounted setup parse parser (.start parser maxBytes) [] where
  state := rfl
  order := rfl
  received := rfl
  rejected := rfl
  live := rfl
  published := rfl
  appended := rfl
  spooled := rfl
  droppedBackpressure := rfl
  spoolFailed := rfl
  spooling _ := rfl
  unspooled _ := ⟨rfl, rfl⟩
  ungoverned := rfl
  distinct := .nil
  reported warning := by simp [Loop.start]
  stopped _ := rfl

namespace Accounted

variable (inv : Accounted setup parse parser w fates)

include inv

theorem handOn {event : Event} {rest : List Event} (next : w.pending = event :: rest) (connected published : Bool)
    (room : Option Nat) :
    ∃ fate, Accounted setup parse parser (w.handOn setup event rest connected published room)
      (fates ++ [(setup.stamp event, fate)]) := by
  obtain ⟨counted, fresh, warned⟩ :=
    OntologyProof.reportUngoverned_spec setup.ontology (setup.stamp event) w.log
  obtain ⟨fate, goes⟩ := publishOrSpool_goes setup
    { w with pending := rest, log := setup.ontology.reportUngoverned (setup.stamp event) w.log } (setup.stamp event)
    connected published room
  refine ⟨fate, ?_⟩
  unfold Loop.handOn
  dsimp only at goes ⊢
  generalize Loop.publishOrSpool _ _ _ _ _ _ _ = w' at goes ⊢
  refine ⟨?_, ?_, ?_, ?_, ?_, ?_, ?_, ?_, ?_, ?_, ?_, ?_, ?_, ?_, ?_, ?_⟩
  · rw [goes.parser, goes.frames]
    exact inv.state
  · rw [goes.frames, goes.pending, ← inv.order, next]
    simp
  · rw [goes.received, goes.frames]
    exact inv.received
  · rw [goes.rejected, goes.frames]
    exact inv.rejected
  · rw [goes.live, inv.live, fated_append, List.map_append]
    split <;> rfl
  · rw [goes.published, fated_length_append]
    exact congrArg (· + _) inv.published
  · rw [goes.appended, inv.appended, fated_append, List.map_append]
    split <;> rfl
  · rw [goes.spooled, fated_length_append]
    exact congrArg (· + _) inv.spooled
  · rw [goes.shed, fated_length_append]
    exact congrArg (· + _) inv.droppedBackpressure
  · rw [goes.lost, fated_length_append]
    exact congrArg (· + _) inv.spoolFailed
  · intro with_spool
    rw [fated_append, inv.spooling with_spool, if_neg (goes.spooling with_spool)]
    rfl
  · intro without
    obtain ⟨spooled, lost⟩ := goes.unspooled without
    rw [fated_append, fated_append, (inv.unspooled without).1, (inv.unspooled without).2, if_neg spooled, if_neg lost]
    exact ⟨rfl, rfl⟩
  · rw [goes.log, counted, inv.ungoverned, List.map_append, List.countP_append]
    cases lost : setup.ontology.loses (setup.stamp event) <;> simp [lost]
  · rw [goes.log]
    exact fresh inv.distinct
  · intro warning
    rw [goes.log, warned, inv.reported]
    simp only [List.map_append, List.map_cons, List.map_nil, List.mem_append, List.mem_singleton, or_and_right, exists_or,
      exists_eq_left]
  · rw [goes.stopped]
    intro stopped
    rw [inv.stopped stopped] at next
    cases next

theorem receive (running : ¬ w.stopped = true) (idle : w.pending = []) (frame : SealModel.Bytes) :
    Accounted setup parse parser (w.receive parse frame) fates := by
  have order := inv.order
  rw [idle] at order
  have all := parseAll_append parse parser w.frames [frame]
  have one : parseAll parse (parseAll parse parser w.frames).1 [frame] =
      ((parse w.parser frame).1, [(parse w.parser frame).2]) := by
    rw [← inv.state]
    rfl
  rw [one] at all
  unfold Loop.receive
  dsimp only
  cases parsed : parse w.parser frame with
  | mk next result =>
    rw [parsed] at all
    cases result with
    | ok events =>
      refine ⟨?_, ?_, ?_, ?_, inv.live, inv.published, inv.appended, inv.spooled, inv.droppedBackpressure, inv.spoolFailed,
        inv.spooling, inv.unspooled, inv.ungoverned, inv.distinct, inv.reported,
        fun stopped => absurd stopped running⟩
      · rw [all]
      · rw [all, eventsOf, List.flatMap_append, List.map_append]
        rw [List.map_nil, List.append_nil, eventsOf] at order
        rw [order]
        simp
      · rw [List.length_append]
        exact congrArg (· + 1) inv.received
      · rw [all, rejections, List.countP_append]
        exact inv.rejected
    | error e =>
      refine ⟨?_, ?_, ?_, ?_, inv.live, inv.published, inv.appended, inv.spooled, inv.droppedBackpressure, inv.spoolFailed,
        inv.spooling, inv.unspooled, inv.ungoverned, inv.distinct, inv.reported,
        fun stopped => absurd stopped running⟩
      · rw [all]
      · rw [all, eventsOf, List.flatMap_append, List.map_append, idle]
        rw [eventsOf] at order
        rw [order]
        simp
      · rw [List.length_append]
        exact congrArg (· + 1) inv.received
      · rw [all, rejections, List.countP_append]
        exact congrArg (· + 1) inv.rejected

/-- The drain task appends nothing and moves no counter of the loop. -/
theorem drains {input : Input} (own : input.drains = true) :
    Accounted setup parse parser
      { w with
        drain := w.drain.step setup.scheme setup.key input
        metrics := w.drain.counts setup input w.metrics } fates := by
  have appended := drain_appended setup.scheme setup.key w.drain own
  obtain ⟨m, drained, corrupt⟩ : ∃ m : Metrics, w.drain.counts setup input w.metrics = m ∧
      m = { w.metrics with drained := m.drained, spoolCorrupt := m.spoolCorrupt } := ⟨_, rfl, counts_frame setup w.drain input w.metrics⟩
  rw [drained]
  refine ⟨inv.state, inv.order, ?_, ?_, inv.live, ?_, ?_, ?_, ?_, ?_, inv.spooling, inv.unspooled, inv.ungoverned,
    inv.distinct, inv.reported, inv.stopped⟩
  · rw [corrupt]
    exact inv.received
  · rw [corrupt]
    exact inv.rejected
  · rw [corrupt]
    exact inv.published
  · rw [appended]
    exact inv.appended
  · rw [corrupt]
    exact inv.spooled
  · rw [corrupt]
    exact inv.droppedBackpressure
  · rw [corrupt]
    exact inv.spoolFailed

theorem step (turn : Turn) : ∃ fates', Accounted setup parse parser (w.step setup parse turn) fates' := by
  unfold Loop.step
  split
  · exact ⟨fates, inv⟩
  · rename_i running
    cases turn with
    | received frame =>
      dsimp only
      split
      · rename_i idle
        exact ⟨fates, receive inv running (List.isEmpty_iff.mp idle) frame⟩
      · exact ⟨fates, inv⟩
    | receiveFails => exact ⟨fates, inv⟩
    | handOn connected published room =>
      dsimp only
      cases next : w.pending with
      | nil => exact ⟨fates, inv⟩
      | cons event rest =>
        obtain ⟨fate, after⟩ := handOn inv next connected published room
        exact ⟨_, after⟩
    | drains input =>
      dsimp only
      split
      · rename_i runs
        exact ⟨fates, drains inv (Bool.and_eq_true_iff.mp runs).2⟩
      · exact ⟨fates, inv⟩
    | shutdown =>
      dsimp only
      split
      · rename_i idle
        exact ⟨fates, inv.state, inv.order, inv.received, inv.rejected, inv.live, inv.published, inv.appended, inv.spooled,
          inv.droppedBackpressure, inv.spoolFailed, inv.spooling, inv.unspooled, inv.ungoverned, inv.distinct, inv.reported,
          fun _ => List.isEmpty_iff.mp idle⟩
      · exact ⟨fates, inv⟩

end Accounted

theorem run_accounted (setup : Setup SK VK) (parse : π → SealModel.Bytes → π × Except String (List Event)) (parser : π)
    (maxBytes : Nat) (turns : List Turn) :
    ∃ fates, Accounted setup parse parser ((Loop.start parser maxBytes).run setup parse turns) fates := by
  refine Transition.always (fun w => ∃ fates, Accounted setup parse parser w fates) ?_ turns
    ⟨[], start_accounted setup parse parser maxBytes⟩
  intro w turn kept
  obtain ⟨fates, inv⟩ := kept
  exact Accounted.step inv turn

/-- What carries a configured marking keeps it. -/
theorem apply_again (m : ConfiguredMarking) (event : Event) : m.val.apply (m.val.apply event) = m.val.apply event := by
  obtain ⟨cfg, made⟩ := m.property
  unfold Marking.apply
  dsimp only
  rcases MarkingProof.fromConfig_floor made with ⟨_, none⟩ | ⟨_, floor, _, _, classified⟩
  · have untouched (tags : List String) : m.val.resolve tags = tags := by rw [Marking.resolve, none]
    rw [MarkingProof.applyTags_again_of (untouched _)]
  · rw [MarkingProof.applyTags_again classified event.policyTags]

theorem stamp_again (setup : Setup SK VK) {m : ConfiguredMarking} (marked : setup.marking = some m) (event : Event) :
    m.val.apply (setup.stamp event) = setup.stamp event := by
  unfold Setup.stamp
  rw [marked]
  exact apply_again m event

theorem stamped_of_fated (inv : Accounted setup parse parser w fates) {event : Event} (member : event ∈ fates.map Prod.fst) :
    ∃ parsed ∈ eventsOf (parseAll parse parser w.frames).2, event = setup.stamp parsed := by
  have whole : event ∈ (eventsOf (parseAll parse parser w.frames).2).map setup.stamp := by
    rw [← inv.order]
    exact List.mem_append_left _ member
  obtain ⟨parsed, among, same⟩ := List.mem_map.mp whole
  exact ⟨parsed, among, same.symm⟩

/-- What reaches the broker are messages of events the loop handed on, also after passes of the drain task. -/
theorem wire_handed (accounted : Accounted setup parse parser w fates) {w' : Loop π} (live : w'.live = w.live)
    (appended : w'.drain.world.appended = w.drain.world.appended)
    (publishes : ∀ item, .publish item ∈ w'.drain.trace → item ∈ w'.drain.world.appended) {message : Message}
    (sent : message ∈ w'.wire) : ∃ event ∈ fates.map Prod.fst, message = setup.message event := by
  have handed {fate : Fate} {event : Event} (member : event ∈ fated fate fates) : event ∈ fates.map Prod.fst := by
    obtain ⟨entry, among, rfl⟩ := List.mem_map.mp member
    exact List.mem_map_of_mem (List.mem_filter.mp among).1
  rcases List.mem_append.mp sent with direct | drained
  · rw [live, accounted.live] at direct
    obtain ⟨event, among, rfl⟩ := List.mem_map.mp direct
    exact ⟨event, handed among, rfl⟩
  · obtain ⟨mark, among, found⟩ := List.mem_filterMap.mp drained
    cases mark with
    | publish item =>
      cases found
      have record : item.2 ∈ (fated .spooled fates).map setup.record := by
        rw [← accounted.appended, ← appended]
        exact List.mem_map_of_mem (publishes item among)
      obtain ⟨event, spooled, same⟩ := List.mem_map.mp record
      refine ⟨event, handed spooled, ?_⟩
      rw [← same]
      rfl
    | deliver item => cases found
    | confirm item => cases found

/-- Whatever frames come, however the parser reads them, whether the link is up and the spool takes its records, and
    wherever the drain task's steps fall: every event of an accepted frame leaves the loop once, in order, under the
    configured marking, and the counters add up. -/
theorem every_event_leaves_once (setup : Setup SK VK) (parse : π → SealModel.Bytes → π × Except String (List Event))
    (parser : π) (maxBytes : Nat) (turns : List Turn) :
    let w := (Loop.start parser maxBytes).run setup parse turns
    ∃ fates, Accounted setup parse parser w fates ∧
      w.metrics.published + w.metrics.spooled + w.metrics.droppedBackpressure + w.metrics.spoolFailed +
        w.pending.length = (eventsOf (parseAll parse parser w.frames).2).length ∧
      ∀ m, setup.marking = some m → ∀ event ∈ fates.map Prod.fst, m.val.apply event = event := by
  obtain ⟨fates, inv⟩ := run_accounted setup parse parser maxBytes turns
  refine ⟨fates, inv, ?_, ?_⟩
  · have whole := congrArg List.length inv.order
    rw [List.length_append, List.length_map, List.length_map, List.length_map] at whole
    rw [inv.published, inv.spooled, inv.droppedBackpressure, inv.spoolFailed, fated_total, whole]
  · intro m marked event member
    obtain ⟨parsed, _, rfl⟩ := stamped_of_fated inv member
    exact stamp_again setup marked parsed

/-! With the drain task. -/

/-- The drain task's side of the loop: its own history, what it publishes, and its two counters. -/
structure Drained (setup : Setup SK VK) (w : Loop π) (l : Layout) (p : Nat) : Prop where
  draining : Draining setup.scheme setup.key w.drain l p
  publishes : ∀ item, .publish item ∈ w.drain.trace → item ∈ w.drain.world.appended
  spoolCorrupt : w.metrics.spoolCorrupt = 0
  drained : w.metrics.drained + w.drain.unconfirmed = w.drain.deliveredRecords.length

theorem published_publishes {d : Drain} {item held : Item} {delivered : Bool} {otherwise : Task}
    (published : .publish item ∈ (d.published held delivered otherwise).trace) :
    .publish item ∈ d.trace ∨ item = held := by
  unfold Drain.published at published
  dsimp only at published
  rcases List.mem_append.mp published with old | new
  · exact Or.inl old
  · rcases List.mem_cons.mp new with same | rest
    · cases same
      exact Or.inr rfl
    · split at rest <;> simp at rest

theorem advance_publishes {d : Drain} {item held : Item} (published : .publish item ∈ (d.advance held).trace) :
    .publish item ∈ d.trace := by
  unfold Drain.advance at published
  dsimp only at published
  rcases List.mem_append.mp published with old | new
  · exact old
  · split at new <;> simp at new

/-- The drain task publishes the record it holds. -/
theorem step_publishes (scheme : Scheme SK VK) (key : SK) (d : Drain) {input : Input} (own : input.drains = true)
    {item : Item} (published : .publish item ∈ (d.step scheme key input).trace) :
    .publish item ∈ d.trace ∨ d.task.item = some item := by
  have steps := step_steps scheme key d own
  generalize d.step scheme key input = d' at steps published
  cases steps with
  | still _ _ | rejects _ _ | checks _ _ _ | peeks _ _ => exact Or.inl published
  | publishes held delivered _ otherwise task _ _ _ =>
    have sent : .publish item ∈ (d.published held delivered otherwise).trace := published
    refine (published_publishes sent).imp_right fun same => ?_
    rw [same]
    rcases task with task | task <;> rw [task] <;> rfl
  | advances _ => exact Or.inl (advance_publishes published)

theorem published_deliveries (d : Drain) (held : Item) (delivered : Bool) {otherwise : Task}
    (next : otherwise = .idle ∨ otherwise = .flushing held) :
    (d.published held delivered otherwise).deliveredRecords.length =
      d.deliveredRecords.length + (d.published held delivered otherwise).unconfirmed := by
  unfold Drain.deliveredRecords Drain.published Drain.unconfirmed
  dsimp only
  rw [List.filterMap_append, List.length_append]
  congr 1
  cases delivered with
  | true => rfl
  | false => rcases next with rfl | rfl <;> rfl

theorem advance_deliveries (d : Drain) (held : Item) : (d.advance held).deliveredRecords = d.deliveredRecords := by
  unfold Drain.deliveredRecords Drain.advance
  dsimp only
  rw [List.filterMap_append]
  split <;> exact List.append_nil _

/-- Every delivery is counted, the latest one when it is confirmed. -/
theorem step_drained (setup : Setup SK VK) (d : Drain) {input : Input} (own : input.drains = true) (m : Metrics)
    (counted : m.drained + d.unconfirmed = d.deliveredRecords.length) :
    (d.counts setup input m).drained + (d.step setup.scheme setup.key input).unconfirmed =
      (d.step setup.scheme setup.key input).deliveredRecords.length := by
  have steps := step_steps setup.scheme setup.key d own
  generalize d.step setup.scheme setup.key input = d' at steps ⊢
  cases steps with
  | still unchecked unadvanced =>
    rw [counts_same setup d m (fun check item => unchecked check item) (fun advance item => unadvanced advance item)]
    exact counted
  | peeks idle next =>
    rw [counts_same setup d m (by simp) (by simp)]
    unfold Drain.unconfirmed at counted ⊢
    rw [idle] at counted
    rcases next with rfl | ⟨item, rfl⟩ <;> exact counted
  | rejects task unverified =>
    unfold Drain.counts Drain.unconfirmed at *
    simp only [task, unverified] at counted ⊢
    exact counted
  | checks peeked verified next =>
    unfold Drain.counts Drain.unconfirmed at *
    simp only [peeked, verified] at counted ⊢
    rcases next with rfl | rfl <;> exact counted
  | publishes held delivered jsMode otherwise task next unchecked unadvanced =>
    rw [counts_same setup d m (fun check => absurd check unchecked) (fun advance => absurd advance unadvanced)]
    have none : d.unconfirmed = 0 := by
      unfold Drain.unconfirmed
      rcases task with task | task <;> rw [task]
    rw [none] at counted
    have more := published_deliveries d held delivered next
    have counts : m.drained + (d.published held delivered otherwise).unconfirmed =
        (d.published held delivered otherwise).deliveredRecords.length := by omega
    exact counts
  | advances task =>
    rw [advance_deliveries, ← counted]
    unfold Drain.counts Drain.unconfirmed
    rcases task with task | task <;> rw [task] <;> rfl

theorem start_drained (setup : Setup SK VK) (parser : π) (maxBytes : Nat) :
    Drained setup (.start parser maxBytes) .start 0 where
  draining := start_draining maxBytes
  publishes item member := by cases member
  spoolCorrupt := rfl
  drained := rfl

namespace Drained

variable {l : Layout} {p : Nat} (inv : Drained setup w l p)

include inv

theorem counts_spoolCorrupt (correct : setup.scheme.Correct) (input : Input) :
    (w.drain.counts setup input w.metrics).spoolCorrupt = 0 := by
  unfold Drain.counts
  split
  · rename_i item task
    obtain ⟨i, found⟩ := inv.draining.held_appended (show w.drain.task.item = some item by rw [task]; rfl)
    obtain ⟨canonical, sealed⟩ := inv.draining.authentic item (List.mem_of_getElem? found)
    rw [sealed, SealProof.verify_sealCanonical correct]
    exact inv.spoolCorrupt
  · exact inv.spoolCorrupt
  · exact inv.spoolCorrupt

theorem drains (correct : setup.scheme.Correct) {input : Input} (own : input.drains = true) :
    ∃ l' p', Drained setup
      { w with
        drain := w.drain.step setup.scheme setup.key input
        metrics := w.drain.counts setup input w.metrics } l' p' := by
  have free : WholeHeadInput setup.scheme setup.key w.drain input := by
    cases input with
    | event _ _ _ _ _ => cases own
    | peek | check | jetstream _ | plain _ _ | advance => trivial
  obtain ⟨l', p', draining⟩ := inv.draining.step correct input free
  refine ⟨l', p', draining, ?_, inv.counts_spoolCorrupt correct input, step_drained setup w.drain own w.metrics inv.drained⟩
  intro item published
  rw [drain_appended setup.scheme setup.key w.drain own]
  rcases step_publishes setup.scheme setup.key w.drain own published with old | held
  · exact inv.publishes item old
  · obtain ⟨i, found⟩ := inv.draining.held_appended held
    exact List.mem_of_getElem? found

theorem spoolAppend (event : Event) (room : Option Nat)
    (ok : WholeHeadStep w.drain.world (RuntimeModel.spoolAppend setup.scheme setup.key event.id (setup.canonicalBytes event) room)) :
    ∃ l' p', Drained setup (w.spoolAppend event.id (setup.sealEvent event) room) l' p' := by
  obtain ⟨l', p', draining⟩ := inv.draining.append event.id (setup.canonicalBytes event) room ok
  refine ⟨l', p', draining, ?_, ?_, ?_⟩
  · intro item published
    have before := inv.publishes item published
    unfold Loop.spoolAppend World.step
    dsimp only
    split
    · exact List.mem_append_left _ before
    · exact before
  · unfold Loop.spoolAppend
    exact inv.spoolCorrupt
  · unfold Loop.spoolAppend
    exact inv.drained

theorem publishOrSpool (event : Event) (connected published : Bool) (room : Option Nat)
    (ok : setup.spooling = false ∨ WholeHeadInput setup.scheme setup.key w.drain
      (.event event.id (setup.canonicalBytes event) connected published room)) :
    ∃ l' p', Drained setup (w.publishOrSpool setup event.id (setup.sealEvent event) connected published room) l' p' := by
  have appends (with_spool : setup.spooling = true) (down : ¬(connected && published) = true) :
      ∃ l' p', Drained setup (w.spoolAppend event.id (setup.sealEvent event) room) l' p' := by
    rcases ok with without | live | whole
    · exact absurd (with_spool.symm.trans without) (by decide)
    · exact absurd live down
    · exact inv.spoolAppend event room whole
  unfold Loop.publishOrSpool
  split
  · rename_i down
    rw [Bool.and_eq_true_iff, Bool.not_eq_true'] at down
    exact appends down.1 (by simp [down.2])
  · split
    · exact ⟨l, p, inv.draining, inv.publishes, inv.spoolCorrupt, inv.drained⟩
    · rename_i stalls
      split
      · rename_i with_spool
        exact appends with_spool (by simp [stalls])
      · exact ⟨l, p, inv.draining, inv.publishes, inv.spoolCorrupt, inv.drained⟩

theorem step (correct : setup.scheme.Correct) (turn : Turn) (ok : w.WholeHead setup turn) :
    ∃ l' p', Drained setup (w.step setup parse turn) l' p' := by
  unfold Loop.step
  split
  · exact ⟨l, p, inv⟩
  · cases turn with
    | received frame =>
      dsimp only
      split
      · unfold Loop.receive
        dsimp only
        split <;> exact ⟨l, p, inv.draining, inv.publishes, inv.spoolCorrupt, inv.drained⟩
      · exact ⟨l, p, inv⟩
    | receiveFails => exact ⟨l, p, inv⟩
    | handOn connected published room =>
      unfold Loop.WholeHead at ok
      dsimp only at ok ⊢
      cases next : w.pending with
      | nil => exact ⟨l, p, inv⟩
      | cons event rest =>
        rw [next] at ok
        have same : Drained setup
            { w with pending := rest, log := setup.ontology.reportUngoverned (setup.stamp event) w.log } l p :=
          ⟨inv.draining, inv.publishes, inv.spoolCorrupt, inv.drained⟩
        exact same.publishOrSpool (setup.stamp event) connected published room ok
    | drains input =>
      dsimp only
      split
      · rename_i runs
        exact inv.drains correct (Bool.and_eq_true_iff.mp runs).2
      · exact ⟨l, p, inv⟩
    | shutdown =>
      dsimp only
      split
      · exact ⟨l, p, inv.draining, inv.publishes, inv.spoolCorrupt, inv.drained⟩
      · exact ⟨l, p, inv⟩

end Drained

theorem run_drained (correct : setup.scheme.Correct) (parser : π) (maxBytes : Nat) (turns : List Turn)
    (allowed : Transition.Allowed (Loop.step setup parse) (Loop.WholeHead setup) (.start parser maxBytes) turns) :
    ∃ l p, Drained setup ((Loop.start parser maxBytes).run setup parse turns) l p := by
  refine Transition.invariant (fun w => ∃ l p, Drained setup w l p) ?_ ⟨_, _, start_drained setup parser maxBytes⟩ allowed
  intro w turn kept ok
  obtain ⟨l, p, inv⟩ := kept
  exact inv.step correct turn ok

/-- Next to the drain task, with whole heads: what the client did not take is delivered from the spool, still on it, or
    went with a segment the bound removed; nothing but sealed events of accepted frames reaches the broker, none of them
    again after its confirmation, and no record of the spool fails its verification. -/
theorem spooled_events_are_drained (correct : setup.scheme.Correct) (parser : π) (maxBytes : Nat) (turns : List Turn)
    (allowed : Transition.Allowed (Loop.step setup parse) (Loop.WholeHead setup) (.start parser maxBytes) turns) :
    let w := (Loop.start parser maxBytes).run setup parse turns
    ∃ fates, Accounted setup parse parser w fates ∧
      (∀ item ∈ w.drain.world.appended, w.drain.Accounts item) ∧ w.drain.NoRepublish ∧
      (∀ message ∈ w.wire, ∃ parsed ∈ eventsOf (parseAll parse parser w.frames).2,
        message.1 = (setup.stamp parsed).id ∧
        verify setup.scheme message.2 (setup.scheme.verifyingKey setup.key) = .ok (setup.canonicalBytes (setup.stamp parsed))) ∧
      w.metrics.spoolCorrupt = 0 ∧ w.metrics.drained + w.drain.unconfirmed = w.drain.deliveredRecords.length := by
  obtain ⟨fates, accounted⟩ := run_accounted setup parse parser maxBytes turns
  obtain ⟨l, p, inv⟩ := run_drained correct parser maxBytes turns allowed
  generalize (Loop.start parser maxBytes).run setup parse turns = w at accounted inv ⊢
  refine ⟨fates, accounted, fun item => inv.draining.accounts, inv.draining.noRepublish, ?_, inv.spoolCorrupt, inv.drained⟩
  intro message sent
  obtain ⟨event, handed, rfl⟩ := wire_handed accounted rfl rfl inv.publishes sent
  obtain ⟨parsed, found, rfl⟩ := stamped_of_fated accounted handed
  exact ⟨parsed, found, rfl, SealProof.verify_sealCanonical correct _ _⟩

theorem one_event_is_spooled :
    let w := (Loop.start () 1000).run testSetup letterParse (linkLoss ++ drainPass.map .drains)
    w.wire.length = 2 ∧
      ∀ message ∈ w.wire, ∃ parsed ∈ eventsOf (parseAll letterParse () w.frames).2,
        message.1 = (testSetup.stamp parsed).id ∧
        verify testSetup.scheme message.2 () = .ok (testSetup.canonicalBytes (testSetup.stamp parsed)) := by
  have correct : testSetup.scheme.Correct := SealProof.testScheme_correct
  have allowed : Transition.Allowed (Loop.step testSetup letterParse) (Loop.WholeHead testSetup) (.start () 1000)
      (linkLoss ++ drainPass.map .drains) := by
    decide +kernel
  obtain ⟨_, _, _, _, wire, _⟩ := spooled_events_are_drained correct () 1000 _ allowed
  exact ⟨by decide +kernel, wire⟩

section

variable {scheme : Scheme SK VK} {key : SK} {d : Drain} {l : Layout} {p : Nat}

/-- A record the task holds is the next to drain, or went with its segment. -/
theorem held_next (inv : Draining scheme key d l p) {e : Item} (held : d.task.item = some e) :
    e.1.seg < l.lo ∨ l.lo ≤ e.1.seg ∧ d.world.appended[p]? = some e := by
  obtain ⟨peeked, fresh, _⟩ := inv.held e held
  obtain ⟨i, found, gone | rfl | rfl⟩ := inv.tracked.peeked e peeked
  · exact Or.inl gone
  · exact Or.inr ⟨inv.tracked.next_onDisk found, found⟩
  · have member : e ∈ d.world.appended.take (i + 1) :=
      List.mem_iff_getElem?.mpr ⟨i, by rw [List.getElem?_take_of_lt (Nat.lt_succ_self i), found]⟩
    exact Or.inl (inv.tracked.gone _ ((inv.tracked.settled e member).resolve_left fresh))

/-- The confirmation takes the record off what is outstanding, if the bound did not. -/
theorem advance_outstanding (inv : Draining scheme key d l p) {e : Item} (task : d.task = .delivered e) :
    (d.advance e).world.outstanding = d.world.outstanding.tail ∧ d.world.outstanding.head? = some e ∨
      (d.advance e).world.outstanding = d.world.outstanding ∧ e ∉ d.world.outstanding := by
  have held : d.task.item = some e := by rw [task]; rfl
  obtain ⟨peeked, _, _⟩ := inv.held e held
  obtain ⟨world, _⟩ := inv.advance_outcome task
  rw [world]
  rcases held_next inv held with gone | ⟨onDisk, found⟩
  · right
    have off := inv.tracked.holds.advance_gone gone
    rw [step_advance_error peeked off]
    refine ⟨rfl, fun member => ?_⟩
    have kept := (List.mem_filter.mp member).2
    rw [Bool.and_eq_true_iff, decide_eq_true_eq, decide_eq_true_eq] at kept
    exact kept.2 (inv.held_dropped held gone)
  · left
    obtain ⟨l', p', tracked, _, _, moves⟩ := inv.tracked.advance
    obtain ⟨_, _, next⟩ := moves e peeked onDisk
    rw [tracked.outstanding_eq, inv.tracked.outstanding_eq, (step_advance_frame d.world).1, next p found, List.tail_drop,
      List.head?_drop]
    exact ⟨rfl, found⟩

theorem published_advance (d : Drain) (e : Item) : (d.published e true .idle).task = .delivered e ∧
    (d.published e true .idle).world = d.world ∧
    (d.published e true .idle).deliveredRecords = d.deliveredRecords ++ [e.2] := by
  refine ⟨rfl, rfl, ?_⟩
  unfold Drain.deliveredRecords Drain.published
  dsimp only
  rw [List.filterMap_append]
  rfl

/-- What a pass comes to: nothing is left to drain, or one record is delivered, if it was not before, and confirmed. -/
theorem pass_cases (setup : Setup SK VK) (inv : Draining setup.scheme setup.key d l p) (correct : setup.scheme.Correct) :
    (d.task = .idle ∧ d.world.outstanding = [] ∧ d.pass setup = { d with world := d.world.step .peek }) ∨
    (∃ e, d.task = .delivered e ∧ d.pass setup = d.advance e) ∨
    ∃ e d', (d.task = .idle ∧ d.world.outstanding.head? = some e ∨ d.task.item = some e) ∧
      Draining setup.scheme setup.key d' l p ∧ d'.task.item = some e ∧ d'.world.outstanding = d.world.outstanding ∧
      d'.world.appended = d.world.appended ∧ d'.world.dropped = d.world.dropped ∧ d'.trace = d.trace ∧
      d.pass setup = (d'.published e true .idle).advance e := by
  have peeked (d : Drain) {e : Item} (inv : Draining setup.scheme setup.key d l p) (task : d.task = .peeked e) :
      d.pass setup = (d.published e true .idle).advance e := by
    obtain ⟨i, found⟩ := inv.held_appended (show d.task.item = some e by rw [task]; rfl)
    obtain ⟨canonical, sealed⟩ := inv.authentic e (List.mem_of_getElem? found)
    have waits : d.step setup.scheme setup.key .peek = d := by simp only [Drain.step, task]
    have checked : d.step setup.scheme setup.key .check =
        { d with task := if d.jsMode then .publishing e else .flushing e } := by
      simp only [Drain.step, task, sealed, SealProof.verify_sealCanonical correct]
    unfold Drain.pass drainPass
    rw [List.foldl_cons, waits, List.foldl_cons, checked]
    by_cases js : d.jsMode = true
    · rw [if_pos js]
      rfl
    · rw [if_neg js]
      rfl
  cases task : d.task with
  | idle =>
    have next := inv.tracked.peek_outstanding
    cases found : d.world.outstanding with
    | nil =>
      rw [found] at next
      have none : (d.world.step .peek).peeked = none := next
      refine Or.inl ⟨rfl, rfl, ?_⟩
      unfold Drain.pass drainPass
      simp only [List.foldl, Drain.step, task, none]
    | cons e rest =>
      rw [found] at next
      have some : (d.world.step .peek).peeked = some e := next
      have moved : d.step setup.scheme setup.key .peek = { d with world := d.world.step .peek, task := .peeked e } := by
        simp only [Drain.step, task, some]
      have draining := inv.peek task
      rw [moved] at draining
      refine Or.inr (Or.inr ⟨e, _, Or.inl ⟨rfl, rfl⟩, draining, rfl, found, rfl, rfl, rfl, ?_⟩)
      rw [← peeked _ draining rfl]
      unfold Drain.pass drainPass
      rw [List.foldl_cons, moved, List.foldl_cons]
      rfl
  | peeked e =>
    exact Or.inr (Or.inr ⟨e, d, Or.inr rfl, inv, by rw [task]; rfl, rfl, rfl, rfl, rfl, peeked d inv task⟩)
  | publishing e =>
    refine Or.inr (Or.inr ⟨e, d, Or.inr rfl, inv, by rw [task]; rfl, rfl, rfl, rfl, rfl, ?_⟩)
    unfold Drain.pass drainPass
    simp only [List.foldl, Drain.step, task]
    rfl
  | flushing e =>
    refine Or.inr (Or.inr ⟨e, d, Or.inr rfl, inv, by rw [task]; rfl, rfl, rfl, rfl, rfl, ?_⟩)
    unfold Drain.pass drainPass
    simp only [List.foldl, Drain.step, task]
    rfl
  | skipping e => exact absurd task (inv.unskipped e)
  | delivered e =>
    refine Or.inr (Or.inl ⟨e, rfl, ?_⟩)
    unfold Drain.pass drainPass
    simp only [List.foldl, Drain.step, task]

theorem advance_frame (d : Drain) (e : Item) : (d.advance e).task = .idle ∧
    (d.advance e).world.appended = d.world.appended ∧ (d.advance e).world.dropped = d.world.dropped := by
  obtain ⟨appended, dropped, _⟩ := step_advance_frame { d.world with peeked := some e }
  exact ⟨rfl, appended, dropped⟩

/-- A pass leaves the task idle with no more outstanding; an idle one delivers the oldest record of all. -/
theorem pass_drains (setup : Setup SK VK) (inv : Draining setup.scheme setup.key d l p) (correct : setup.scheme.Correct) :
    (∃ l' p', Draining setup.scheme setup.key (d.pass setup) l' p') ∧ (d.pass setup).task = .idle ∧
      (d.pass setup).world.appended = d.world.appended ∧ (d.pass setup).world.dropped = d.world.dropped ∧
      (d.pass setup).world.outstanding.length ≤ d.world.outstanding.length ∧
      (d.task = .idle → (d.pass setup).world.outstanding = d.world.outstanding.tail ∧
        (d.pass setup).deliveredRecords = d.deliveredRecords ++ (d.world.outstanding.head?.map Prod.snd).toList) := by
  rcases pass_cases setup inv correct with ⟨idle, empty, passed⟩ | ⟨e, task, passed⟩ |
      ⟨e, d', next, inv', held, outstanding, appended, dropped, trace, passed⟩
  · have draining := inv.peek idle
    have moved : d.step setup.scheme setup.key .peek = { d with world := d.world.step .peek } := by
      have none : (d.world.step .peek).peeked = none := inv.tracked.peek_outstanding.trans (by rw [empty]; rfl)
      simp only [Drain.step, idle, none]
    have same : (d.pass setup).world.outstanding = d.world.outstanding := by
      rw [passed]
      rfl
    refine ⟨⟨l, p, ?_⟩, ?_, ?_, ?_, Nat.le_of_eq (congrArg List.length same), fun _ => ?_⟩
    · rw [passed, ← moved]
      exact draining
    · rw [passed]
      exact idle
    · rw [passed]
      rfl
    · rw [passed]
      rfl
    · rw [same, passed, empty]
      exact ⟨rfl, (List.append_nil _).symm⟩
  · obtain ⟨idle, appended, dropped⟩ := advance_frame d e
    rw [passed]
    refine ⟨inv.advance task, idle, appended, dropped, ?_, fun other => ?_⟩
    · rcases advance_outstanding inv task with ⟨tail, _⟩ | ⟨same, _⟩
      · rw [tail, List.length_tail]
        omega
      · rw [same]
    · rw [task] at other
      cases other
  · have sent := inv'.published held true (Or.inl rfl)
    obtain ⟨task, world, delivered⟩ := published_advance d' e
    obtain ⟨idle, after, gone⟩ := advance_frame (d'.published e true .idle) e
    rw [passed]
    refine ⟨sent.advance task, idle, after.trans appended, gone.trans dropped, ?_, fun other => ?_⟩
    · rcases advance_outstanding sent task with ⟨tail, _⟩ | ⟨same, _⟩
      · rw [tail, List.length_tail, world, outstanding]
        omega
      · rw [same, world, outstanding]
    · rcases next with ⟨_, oldest⟩ | holding
      · rw [advance_deliveries, delivered, oldest]
        rcases advance_outstanding sent task with ⟨tail, _⟩ | ⟨_, absent⟩
        · rw [tail, world, outstanding]
          refine ⟨rfl, ?_⟩
          unfold Drain.deliveredRecords
          rw [trace]
          rfl
        · rw [world, outstanding] at absent
          exact absurd (List.mem_of_mem_head? oldest) absent
      · rw [other] at holding
        cases holding

theorem passes_succ (setup : Setup SK VK) (n : Nat) (d : Drain) :
    d.passes setup (n + 1) = (d.pass setup).passes setup n := by
  unfold Drain.passes Drain.pass
  rw [List.replicate_succ, List.flatten_cons, List.foldl_append]

/-- From an idle task `n` passes deliver the `n` oldest records, in order. -/
theorem passes_drain (setup : Setup SK VK) (correct : setup.scheme.Correct) (n : Nat)
    (inv : Draining setup.scheme setup.key d l p) (idle : d.task = .idle) :
    (d.passes setup n).task = .idle ∧ (d.passes setup n).world.appended = d.world.appended ∧
      (d.passes setup n).world.dropped = d.world.dropped ∧
      (d.passes setup n).world.outstanding = d.world.outstanding.drop n ∧
      (d.passes setup n).deliveredRecords = d.deliveredRecords ++ (d.world.outstanding.take n).map Prod.snd := by
  induction n generalizing d l p with
  | zero => exact ⟨idle, rfl, rfl, rfl, (List.append_nil _).symm⟩
  | succ n ih =>
    obtain ⟨⟨l', p', inv'⟩, idle', appended, dropped, _, oldest⟩ := pass_drains setup inv correct
    obtain ⟨tail, delivered⟩ := oldest idle
    obtain ⟨done, appended', dropped', outstanding, deliveries⟩ := ih inv' idle'
    rw [passes_succ]
    refine ⟨done, appended'.trans appended, dropped'.trans dropped, ?_, ?_⟩
    · rw [outstanding, tail, List.drop_tail, Nat.add_comm]
    · rw [deliveries, delivered, tail, List.append_assoc]
      cases d.world.outstanding with
      | nil => simp
      | cons e rest => rfl

end

variable (parse) in
/-- The drain task's turns are its inputs, as long as the loop runs. -/
theorem run_drains (with_spool : setup.spooling = true) (w : Loop π) (running : w.stopped = false) (inputs : List Input)
    (own : ∀ input ∈ inputs, input.drains = true) :
    (w.run setup parse (inputs.map .drains)).drain = inputs.foldl (Drain.step setup.scheme setup.key) w.drain ∧
      (w.run setup parse (inputs.map .drains)).live = w.live := by
  induction inputs generalizing w with
  | nil => exact ⟨rfl, rfl⟩
  | cons input inputs ih =>
    have one : w.step setup parse (.drains input) =
        { w with
          drain := w.drain.step setup.scheme setup.key input
          metrics := w.drain.counts setup input w.metrics } := by
      unfold Loop.step
      simp [running, with_spool, own input List.mem_cons_self]
    have later := ih (w.step setup parse (.drains input)) (by rw [one]; exact running)
      fun next member => own next (List.mem_cons_of_mem _ member)
    rw [one] at later
    unfold Loop.run at later ⊢
    rw [List.map_cons, List.foldl_cons, one]
    exact later

theorem passes_own (n : Nat) : ∀ input ∈ (List.replicate n drainPass).flatten, input.drains = true := by
  intro input member
  obtain ⟨pass, among, inside⟩ := List.mem_flatten.mp member
  rw [(List.mem_replicate.mp among).2] at inside
  have each : ∀ input ∈ drainPass, input.drains = true := by decide
  exact each input inside

/-- Where nothing is outstanding, every record is delivered or went with its segment. -/
theorem emptied_accounts {d : Drain} {l : Layout} {p : Nat} (inv : Draining setup.scheme setup.key d l p)
    (none : d.world.outstanding = []) {item : Item} (member : item ∈ d.world.appended) :
    .deliver item ∈ d.trace ∨ item.1.seg ∈ d.world.dropped := by
  by_contra neither
  rw [not_or] at neither
  have outstanding : item ∈ d.world.outstanding := by
    apply List.mem_filter.mpr
    rw [Bool.and_eq_true_iff, decide_eq_true_eq, decide_eq_true_eq]
    exact ⟨member, fun confirmed => neither.1 (inv.settled item confirmed), neither.2⟩
  rw [none] at outstanding
  cases outstanding

variable (parse) in
/-- Passes over an answering broker, one more than there are records outstanding, leave none. -/
theorem passes_empty (correct : setup.scheme.Correct) (with_spool : setup.spooling = true) {w : Loop π} {l : Layout}
    {p : Nat} (inv : Drained setup w l p) (running : w.stopped = false) {n : Nat}
    (enough : w.drain.world.outstanding.length < n) {w' : Loop π}
    (run : w.run setup parse ((List.replicate n drainPass).flatten.map .drains) = w') :
    (∃ l p, Drained setup w' l p) ∧ w'.drain.task = .idle ∧ w'.drain.world.outstanding = [] ∧
      w'.drain.world.appended = w.drain.world.appended ∧ w'.drain.world.dropped = w.drain.world.dropped ∧
      w'.live = w.live ∧
      (w.drain.task = .idle →
        w'.drain.deliveredRecords = w.drain.deliveredRecords ++ w.drain.world.outstanding.map Prod.snd) := by
  obtain ⟨drain, live⟩ := run_drains parse with_spool w running _ (passes_own n)
  have kept : ∃ l p, Drained setup (w.run setup parse ((List.replicate n drainPass).flatten.map .drains)) l p := by
    have free : Transition.Allowed (Loop.step setup parse) (Loop.WholeHead setup) w
        ((List.replicate n drainPass).flatten.map .drains) := by
      refine Transition.Allowed.of_forall fun w turn member => ?_
      obtain ⟨input, _, rfl⟩ := List.mem_map.mp member
      trivial
    refine Transition.invariant (fun w => ∃ l p, Drained setup w l p) ?_ ⟨l, p, inv⟩ free
    intro w turn kept ok
    obtain ⟨l, p, inv⟩ := kept
    exact inv.step correct turn ok
  rw [run] at drain live kept
  obtain ⟨m, rfl⟩ : ∃ m, n = m + 1 := ⟨n - 1, by omega⟩
  change w'.drain = w.drain.passes setup (m + 1) at drain
  rw [passes_succ] at drain
  obtain ⟨⟨l₁, p₁, first⟩, idle, appended, dropped, fewer, oldest⟩ := pass_drains setup inv.draining correct
  obtain ⟨idle', appended', dropped', outstanding, deliveries⟩ := passes_drain setup correct m first idle
  rw [← drain] at idle' appended' dropped' outstanding deliveries
  refine ⟨kept, idle', ?_, appended'.trans appended, dropped'.trans dropped, live, ?_⟩
  · rw [outstanding, List.drop_eq_nil_of_le (by omega)]
  · intro rest
    obtain ⟨tail, delivered⟩ := oldest rest
    have whole : w.drain.world.outstanding.tail.length ≤ m := by
      rw [List.length_tail]
      omega
    rw [deliveries, delivered, tail, List.take_of_length_le whole, List.append_assoc]
    cases w.drain.world.outstanding <;> rfl

/-- Once the link is up and the broker answers, the drain task empties the spool: from whatever point of whatever run,
    one pass for each record and one for what the task is about deliver all that was spooled, except what the bound took
    with its segments, and from rest in the order it was spooled. -/
theorem answered_spool_drains (correct : setup.scheme.Correct) (with_spool : setup.spooling = true) (parser : π)
    (maxBytes : Nat) (turns : List Turn)
    (allowed : Transition.Allowed (Loop.step setup parse) (Loop.WholeHead setup) (.start parser maxBytes) turns)
    (running : ((Loop.start parser maxBytes).run setup parse turns).stopped = false) (n : Nat) :
    let w := (Loop.start parser maxBytes).run setup parse turns
    let w' := w.run setup parse ((List.replicate n drainPass).flatten.map .drains)
    w.drain.world.outstanding.length < n →
      w'.drain.world.outstanding = [] ∧ w'.drain.world.appended = w.drain.world.appended ∧ w'.live = w.live ∧
      (∀ item ∈ w.drain.world.appended, .deliver item ∈ w'.drain.trace ∨ item.1.seg ∈ w.drain.world.dropped) ∧
      w'.metrics.drained = w'.drain.deliveredRecords.length ∧
      (w.drain.task = .idle →
        w'.drain.deliveredRecords = w.drain.deliveredRecords ++ w.drain.world.outstanding.map Prod.snd) := by
  obtain ⟨l, p, inv⟩ := run_drained correct parser maxBytes turns allowed
  generalize (Loop.start parser maxBytes).run setup parse turns = w at running inv ⊢
  dsimp only
  intro enough
  obtain ⟨⟨l', p', after⟩, idle, none, appended, dropped, live, inOrder⟩ :=
    passes_empty parse correct with_spool inv running enough rfl
  have counted := after.drained
  unfold Drain.unconfirmed at counted
  rw [idle] at counted
  refine ⟨none, appended, live, ?_, counted, inOrder⟩
  intro item member
  rw [← appended] at member
  rw [← dropped]
  exact emptied_accounts after.draining none member

end

theorem lost_link_is_drained :
    let w := (Loop.start () 1000).run testSetup letterParse linkLoss
    let w' := w.run testSetup letterParse ((List.replicate 2 drainPass).flatten.map .drains)
    w.drain.world.outstanding.length = 1 ∧
      w'.drain.deliveredRecords = w.drain.deliveredRecords ++ w.drain.world.outstanding.map Prod.snd := by
  have one : ((Loop.start () 1000).run testSetup letterParse linkLoss).drain.world.outstanding.length = 1 := by
    decide +kernel
  have correct : testSetup.scheme.Correct := SealProof.testScheme_correct
  have allowed : Transition.Allowed (Loop.step testSetup letterParse) (Loop.WholeHead testSetup) (.start () 1000)
      linkLoss := by
    decide +kernel
  have drained := answered_spool_drains correct rfl () 1000 linkLoss allowed (by decide +kernel) 2 (by rw [one]; decide)
  exact ⟨one, drained.2.2.2.2.2 (by decide +kernel)⟩

end RuntimeProof

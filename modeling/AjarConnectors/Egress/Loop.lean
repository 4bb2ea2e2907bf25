import AjarConnectors.Egress.Dedupe
import AjarConnectors.Egress.Render
import AjarConnectors.Seal.Envelope

namespace EgressModel

open EventModel SealModel

/-- Recent event ids remembered for dedupe. -/
def dedupeWindow : Nat := 4096

/-- What one POST came back with: the consumer's status, or no response. -/
inductive Answer where
  | status (code : Nat)
  | failed
  deriving DecidableEq

/-- `resp.status().is_success()`. -/
def Answer.isSuccess : Answer → Bool
  | .status code => 200 ≤ code && code < 300
  | .failed => false

/-- A message off the bus, with the answers its POSTs would get. -/
structure BusMessage where
  payload : Bytes
  answers : Nat → Answer

/-- What became of a message. -/
inductive Outcome where
  | unverified (size : Nat)
  | rejected
  | deduped (id : String)
  | refused (id : String)
  | printed (id : String)
  | delivered (id : String)
  | undelivered (id : String)
  deriving DecidableEq

structure EgressMetrics where
  delivered : Nat := 0
  rejected : Nat := 0
  deduped : Nat := 0
  gapDropped : Nat := 0
  deriving DecidableEq

/-- The counter that goes up with an outcome. -/
def EgressMetrics.count (m : EgressMetrics) : Outcome → EgressMetrics
  | .unverified _ => m
  | .rejected => { m with rejected := m.rejected + 1 }
  | .deduped _ => { m with deduped := m.deduped + 1 }
  | .refused _ => { m with gapDropped := m.gapDropped + 1 }
  | .printed _ => { m with delivered := m.delivered + 1 }
  | .delivered _ => { m with delivered := m.delivered + 1 }
  | .undelivered _ => { m with gapDropped := m.gapDropped + 1 }

def EgressMetrics.total (m : EgressMetrics) : Nat := m.delivered + m.rejected + m.deduped + m.gapDropped

/-- The delivery loop's own state, and what became of each message so far. -/
structure LoopState where
  received : Nat := 0
  metrics : EgressMetrics := {}
  dedupe : Dedupe := .new dedupeWindow
  outcomes : List Outcome := []

/-- The attempts of one message, from the given one on, until a POST succeeds. -/
def deliver (answers : Nat → Answer) : Nat → Nat → Bool
  | 0, _ => false
  | left + 1, attempt => if (answers attempt).isSuccess then true else deliver answers left (attempt + 1)

inductive AcceptError where
  | verify (error : SealError)
  | decode
  deriving DecidableEq

section

variable {SK VK : Type} (scheme : Scheme SK VK) (decode : Bytes → Option Event) (toUppercase : String → String)
  (cfg : Config) (key : Option VK) (dryRun : Bool)

/-- Verify one egress envelope and decode the governed event. -/
def accept (sealed : Bytes) (egressKey : VK) : Except AcceptError Event :=
  match verify scheme sealed egressKey with
  | .error e => .error (.verify e)
  | .ok canonical => match decode canonical with
    | none => .error .decode
    | some event => .ok event

/-- Whether the message's event, once through the window, reaches the consumer with a 2xx. -/
def answered (event : Event) (message : BusMessage) : Bool :=
  (render toUppercase event cfg.mapping cfg.unmapped cfg.confidentialityLabel).isSome && !dryRun &&
    deliver message.answers cfg.attempts 0

/-- What becomes of an event the window takes for new: rendered, then printed or delivered. -/
def publish (event : Event) (message : BusMessage) : Outcome :=
  match render toUppercase event cfg.mapping cfg.unmapped cfg.confidentialityLabel with
  | none => .refused event.id
  | some _ =>
    if dryRun then .printed event.id
    else if deliver message.answers cfg.attempts 0 then .delivered event.id else .undelivered event.id

/-- The body of the loop on one message, up to its counter: what becomes of it, and the window after it. -/
def handle (dedupe : Dedupe) (message : BusMessage) : Dedupe × Outcome :=
  match key with
  | none => (dedupe, .unverified message.payload.length)
  | some key =>
    match accept scheme decode message.payload key with
    | .error _ => (dedupe, .rejected)
    | .ok event =>
      match dedupe.firstTime event.id with
      | (dedupe, false) => (dedupe, .deduped event.id)
      | (dedupe, true) => (dedupe, publish toUppercase cfg dryRun event message)

def LoopState.step (s : LoopState) (message : BusMessage) : LoopState :=
  let handled := handle scheme decode toUppercase cfg key dryRun s.dedupe message
  ⟨s.received + 1, s.metrics.count handled.2, handled.1, s.outcomes ++ [handled.2]⟩

def LoopState.run (s : LoopState) (messages : List BusMessage) : LoopState :=
  messages.foldl (LoopState.step scheme decode toUppercase cfg key dryRun) s

/-- Every suppressed message had an earlier copy that the consumer answered with a 2xx. -/
def Suppressed (outcomes : List Outcome) : Prop :=
  ∀ before id after, outcomes = before ++ .deduped id :: after → Outcome.delivered id ∈ before

/-- The step is no first sight of an event that fails to reach the consumer: an accepted event that the
    window does not hold is answered with a 2xx, if no earlier copy was. -/
def Fulfils (s : LoopState) (message : BusMessage) : Prop :=
  ∀ verifying event, key = some verifying → accept scheme decode message.payload verifying = .ok event →
    event.id ∉ s.dedupe.seen →
      answered toUppercase cfg dryRun event message = true ∨ Outcome.delivered event.id ∈ s.outcomes

/-- Every step of a run does. -/
def AllFulfil (s : LoopState) : List BusMessage → Prop
  | [] => True
  | message :: messages => Fulfils scheme decode toUppercase cfg key dryRun s message ∧
      AllFulfil (s.step scheme decode toUppercase cfg key dryRun message) messages

end

end EgressModel

namespace EgressProof

open EventModel SealModel EgressModel

theorem firstTime_seen {d : Dedupe} {id : String} (seen : id ∈ d.seen) : d.firstTime id = (d, false) := by
  rw [Dedupe.firstTime, if_pos seen]

theorem firstTime_new {d : Dedupe} {id : String} (new : id ∉ d.seen) :
    ∃ next, d.firstTime id = (next, true) ∧ id ∈ next.seen ∧ ∀ other ∈ next.seen, other = id ∨ other ∈ d.seen := by
  rw [Dedupe.firstTime, if_neg new]
  refine ⟨_, rfl, Finset.mem_insert_self id _, ?_⟩
  intro other member
  rcases Finset.mem_insert.mp member with same | kept
  · exact Or.inl same
  · right
    revert kept
    split
    · split
      · exact fun kept => kept
      · exact Finset.mem_of_mem_erase
    · exact fun kept => kept

section

variable {SK VK : Type} (scheme : Scheme SK VK) (decode : Bytes → Option Event) (toUppercase : String → String)
  (cfg : Config) (key : Option VK) (dryRun : Bool)

theorem publish_ne_deduped (event : Event) (message : BusMessage) (id : String) :
    publish toUppercase cfg dryRun event message ≠ .deduped id := by
  rw [publish]
  split
  · simp
  · split
    · simp
    · split <;> simp

theorem publish_delivered_iff (event : Event) (message : BusMessage) (id : String) :
    publish toUppercase cfg dryRun event message = .delivered id ↔
      answered toUppercase cfg dryRun event message = true ∧ id = event.id := by
  rw [publish, answered]
  cases render toUppercase event cfg.mapping cfg.unmapped cfg.confidentialityLabel with
  | none => simp
  | some body =>
    cases dryRun with
    | true => simp
    | false => cases deliver message.answers cfg.attempts 0 <;> simp [eq_comm]

theorem handle_seen {verifying : VK} {event : Event} {dedupe : Dedupe} {message : BusMessage}
    (read : accept scheme decode message.payload verifying = .ok event) (seen : event.id ∈ dedupe.seen) :
    handle scheme decode toUppercase cfg (some verifying) dryRun dedupe message = (dedupe, .deduped event.id) := by
  simp only [handle, read, firstTime_seen seen]

theorem handle_new {verifying : VK} {event : Event} {dedupe : Dedupe} {message : BusMessage}
    (read : accept scheme decode message.payload verifying = .ok event) (new : event.id ∉ dedupe.seen) :
    ∃ next, handle scheme decode toUppercase cfg (some verifying) dryRun dedupe message =
        (next, publish toUppercase cfg dryRun event message) ∧
      event.id ∈ next.seen ∧ ∀ other ∈ next.seen, other = event.id ∨ other ∈ dedupe.seen := by
  obtain ⟨next, first, held, others⟩ := firstTime_new new
  exact ⟨next, by simp only [handle, read, first], held, others⟩

/-- Everything the loop can do with a message. -/
theorem handle_cases (dedupe : Dedupe) (message : BusMessage) :
    let handled := handle scheme decode toUppercase cfg key dryRun dedupe message
    (key = none ∧ handled = (dedupe, .unverified message.payload.length)) ∨
    (key.isSome ∧ handled = (dedupe, .rejected)) ∨
    ∃ verifying event, key = some verifying ∧ accept scheme decode message.payload verifying = .ok event ∧
      ((event.id ∈ dedupe.seen ∧ handled = (dedupe, .deduped event.id)) ∨
        (event.id ∉ dedupe.seen ∧ ∃ next, handled = (next, publish toUppercase cfg dryRun event message) ∧
          ∀ other ∈ next.seen, other = event.id ∨ other ∈ dedupe.seen)) := by
  cases key with
  | none => exact Or.inl ⟨rfl, rfl⟩
  | some verifying =>
    right
    cases read : accept scheme decode message.payload verifying with
    | error e => exact Or.inl ⟨rfl, by simp only [handle, read]⟩
    | ok event =>
      right
      refine ⟨verifying, event, rfl, read, ?_⟩
      by_cases seen : event.id ∈ dedupe.seen
      · exact Or.inl ⟨seen, handle_seen scheme decode toUppercase cfg dryRun read seen⟩
      · obtain ⟨next, handled, _, others⟩ := handle_new scheme decode toUppercase cfg dryRun read seen
        exact Or.inr ⟨seen, next, handled, others⟩

theorem suppressed_append {outcomes : List Outcome} {outcome : Outcome} :
    Suppressed (outcomes ++ [outcome]) ↔
      Suppressed outcomes ∧ ∀ id, outcome = .deduped id → Outcome.delivered id ∈ outcomes := by
  constructor
  · intro law
    constructor
    · intro before id after split
      exact law before id (after ++ [outcome]) (by rw [split, List.append_assoc, List.cons_append])
    · rintro id rfl
      exact law outcomes id [] rfl
  · rintro ⟨law, last⟩ before id after split
    rcases List.eq_nil_or_concat after with rfl | ⟨earlier, final, rfl⟩
    · obtain ⟨rfl, same⟩ := List.append_inj' split rfl
      exact last id (List.singleton_inj.mp same)
    · rw [List.concat_eq_append, ← List.cons_append, ← List.append_assoc] at split
      exact law before id earlier (List.append_inj' split rfl).1

/-- While every step delivers what it first sees, the window holds only what was delivered. -/
structure Faithful (s : LoopState) : Prop where
  remembered : ∀ id ∈ s.dedupe.seen, Outcome.delivered id ∈ s.outcomes
  suppressed : Suppressed s.outcomes

theorem faithful_start : Faithful {} where
  remembered := by simp [Dedupe.new]
  suppressed := by
    intro before id after split
    simp at split

theorem publish_verified (event : Event) (message : BusMessage) (size : Nat) :
    publish toUppercase cfg dryRun event message ≠ .unverified size := by
  rw [publish]
  split
  · simp
  · split
    · simp
    · split <;> simp

theorem count_total (m : EgressMetrics) (outcome : Outcome) (verified : ∀ size, outcome ≠ .unverified size) :
    (m.count outcome).total = m.total + 1 := by
  cases outcome with
  | unverified size => exact absurd rfl (verified size)
  | _ =>
    simp only [EgressMetrics.count, EgressMetrics.total]
    omega

/-- With a key, every message goes to one counter; without one, to none. -/
theorem total_step (s : LoopState) (message : BusMessage) :
    (s.step scheme decode toUppercase cfg key dryRun message).metrics.total =
      s.metrics.total + if key.isSome then 1 else 0 := by
  have cases := handle_cases scheme decode toUppercase cfg key dryRun s.dedupe message
  dsimp only at cases
  rw [LoopState.step]
  rcases cases with ⟨rfl, handled⟩ | ⟨present, handled⟩ | ⟨verifying, event, rfl, _, ⟨_, handled⟩ | ⟨_, next, handled, _⟩⟩ <;>
    rw [handled]
  · rfl
  · rw [count_total _ _ (by simp), if_pos present]
  · rw [count_total _ _ (by simp)]
    rfl
  · rw [count_total _ _ (publish_verified toUppercase cfg dryRun event message)]
    rfl

theorem run_counts (s : LoopState) (messages : List BusMessage) :
    (s.run scheme decode toUppercase cfg key dryRun messages).received = s.received + messages.length ∧
      (s.run scheme decode toUppercase cfg key dryRun messages).metrics.total =
        s.metrics.total + if key.isSome then messages.length else 0 := by
  induction messages generalizing s with
  | nil => simp [LoopState.run]
  | cons message messages ih =>
    rcases ih (s.step scheme decode toUppercase cfg key dryRun message) with ⟨received, total⟩
    rw [total_step] at total
    have next : (s.step scheme decode toUppercase cfg key dryRun message).received = s.received + 1 := rfl
    rw [LoopState.run] at received total
    rw [LoopState.run, List.foldl_cons, List.length_cons, received, total, next]
    constructor
    · omega
    · split <;> omega

variable {scheme decode toUppercase cfg key dryRun}

theorem Faithful.step {s : LoopState} (faithful : Faithful s) (message : BusMessage)
    (fulfils : Fulfils scheme decode toUppercase cfg key dryRun s message) :
    Faithful (s.step scheme decode toUppercase cfg key dryRun message) := by
  have kept (outcome : Outcome) : ∀ id ∈ s.dedupe.seen, Outcome.delivered id ∈ s.outcomes ++ [outcome] :=
    fun id member => List.mem_append_left _ (faithful.remembered id member)
  have cases := handle_cases scheme decode toUppercase cfg key dryRun s.dedupe message
  dsimp only at cases
  rw [LoopState.step]
  rcases cases with ⟨_, handled⟩ | ⟨_, handled⟩ | ⟨verifying, event, chosen, read, ⟨seen, handled⟩ | ⟨new, next, handled,
    others⟩⟩ <;> rw [handled]
  · exact ⟨kept _, suppressed_append.mpr ⟨faithful.suppressed, by simp⟩⟩
  · exact ⟨kept _, suppressed_append.mpr ⟨faithful.suppressed, by simp⟩⟩
  · refine ⟨kept _, suppressed_append.mpr ⟨faithful.suppressed, ?_⟩⟩
    rintro id ⟨⟩
    exact faithful.remembered event.id seen
  · constructor
    · intro id member
      rcases others id member with rfl | held
      · rcases fulfils verifying event chosen read new with reached | earlier
        · have delivered := (publish_delivered_iff toUppercase cfg dryRun event message event.id).mpr ⟨reached, rfl⟩
          exact List.mem_append_right _ (List.mem_singleton.mpr delivered.symm)
        · exact List.mem_append_left _ earlier
      · exact kept _ id held
    · refine suppressed_append.mpr ⟨faithful.suppressed, ?_⟩
      intro id suppressed
      exact absurd suppressed (publish_ne_deduped toUppercase cfg dryRun event message id)

theorem Faithful.run {s : LoopState} (faithful : Faithful s) (messages : List BusMessage)
    (fulfil : AllFulfil scheme decode toUppercase cfg key dryRun s messages) :
    Faithful (s.run scheme decode toUppercase cfg key dryRun messages) := by
  induction messages generalizing s with
  | nil => exact faithful
  | cons message messages ih => exact ih (faithful.step message fulfil.1) fulfil.2

/-- A step that does not fulfil is followed by trouble: a copy right after it is suppressed, and no copy
    ever reached the consumer. -/
theorem copy_is_lost {s : LoopState} {message : BusMessage} (copy : BusMessage)
    (lost : ¬ Fulfils scheme decode toUppercase cfg key dryRun s message) (same : copy.payload = message.payload) :
    ¬ Suppressed ((s.step scheme decode toUppercase cfg key dryRun message).step scheme decode toUppercase cfg key dryRun
      copy).outcomes := by
  simp only [Fulfils, not_forall, not_or] at lost
  obtain ⟨verifying, event, rfl, read, new, missed, never⟩ := lost
  obtain ⟨next, handled, held, _⟩ := handle_new scheme decode toUppercase cfg dryRun read new
  have again : accept scheme decode copy.payload verifying = .ok event := by rw [same, read]
  rw [LoopState.step, LoopState.step, handled]
  dsimp only
  rw [handle_seen scheme decode toUppercase cfg dryRun again held]
  intro law
  rcases List.mem_append.mp ((suppressed_append.mp law).2 event.id rfl) with earlier | now
  · exact never earlier
  · exact missed ((publish_delivered_iff toUppercase cfg dryRun event message event.id).mp
      (List.mem_singleton.mp now).symm).1

variable (scheme decode toUppercase cfg key dryRun)

/-- With a key, and as long as every event the window has not seen reaches the consumer, a message is
    suppressed only after a copy of it was delivered and every message is accounted for. Without a key no
    message is; and right after an event that does not reach the consumer, its copy is suppressed. -/
theorem suppressed_after_delivery (messages : List BusMessage) :
    (key.isSome ∨ messages = [] → AllFulfil scheme decode toUppercase cfg key dryRun {} messages →
      let s := LoopState.run scheme decode toUppercase cfg key dryRun {} messages
      Suppressed s.outcomes ∧ s.received = s.metrics.total) ∧
    (¬ (key.isSome ∨ messages = []) →
      let s := LoopState.run scheme decode toUppercase cfg key dryRun {} messages
      s.received ≠ s.metrics.total) ∧
    (∀ message copy : BusMessage, copy.payload = message.payload →
      ¬ Fulfils scheme decode toUppercase cfg key dryRun
        (LoopState.run scheme decode toUppercase cfg key dryRun {} messages) message →
      ¬ Suppressed
        (LoopState.run scheme decode toUppercase cfg key dryRun {} (messages ++ [message, copy])).outcomes) := by
  rcases run_counts scheme decode toUppercase cfg key dryRun {} messages with ⟨received, total⟩
  refine ⟨?_, ?_, ?_⟩
  · intro keyed fulfil
    have faithful := faithful_start.run messages fulfil
    refine ⟨faithful.suppressed, ?_⟩
    rw [received, total]
    rcases keyed with present | rfl
    · rw [if_pos present]
      rfl
    · simp [EgressMetrics.total]
  · intro unkeyed
    rw [not_or] at unkeyed
    have some_message := List.length_pos_iff.mpr unkeyed.2
    dsimp only
    rw [received, total, if_neg unkeyed.1]
    simp only [EgressMetrics.total]
    omega
  · intro message copy same lost
    rw [LoopState.run, List.foldl_append]
    exact copy_is_lost copy lost same

end

end EgressProof

namespace EgressModel

open EventModel SealModel

/-- The two events the test seed has signed. -/
def decodeId (canonical : Bytes) : Option Event :=
  if canonical = idOnlyEvent 97 then some { Event.default with id := "a", sourceId := "x" }
  else if canonical = idOnlyEvent 98 then some { Event.default with id := "b", sourceId := "x" }
  else none

def idConfig : Config := ⟨"ajar.egress.site", 2, ⟨[("id", "id")], by simp⟩, .include, none⟩

/-- Event `a` on the bus, its POSTs answered with the given status. -/
def arriving (code : Nat) : BusMessage := ⟨sealCanonical testScheme (idOnlyEvent 97) (), fun _ => .status code⟩

end EgressModel

namespace EgressProof

open EventModel SealModel EgressModel

theorem arriving_accepted (code : Nat) : accept testScheme decodeId (arriving code).payload () =
    .ok { Event.default with id := "a", sourceId := "x" } := by
  have canonical : verify testScheme (arriving code).payload () = .ok (idOnlyEvent 97) :=
    SealProof.verify_sealCanonical SealProof.testScheme_correct (idOnlyEvent 97) ()
  rw [accept, canonical]
  rfl

theorem delivered_copy_is_suppressed :
    let s := LoopState.run testScheme decodeId id idConfig (some ()) false {} [arriving 200, arriving 503]
    Suppressed s.outcomes ∧ s.received = s.metrics.total := by
  have law := (suppressed_after_delivery testScheme decodeId id idConfig (some ()) false
    [arriving 200, arriving 503]).1 (Or.inl rfl)
  apply law
  refine ⟨?_, ?_, trivial⟩
  · rintro _ event ⟨⟩ read _
    rw [arriving_accepted] at read
    cases read
    exact Or.inl (by decide)
  · rintro _ event ⟨⟩ read new
    rw [arriving_accepted] at read
    cases read
    exact absurd (by decide) new

/-- The consumer is down for one event; its copy is then taken for a duplicate. -/
theorem undelivered_copy_is_suppressed :
    (LoopState.run testScheme decodeId id idConfig (some ()) false {} [arriving 503, arriving 200]).outcomes =
      [.undelivered "a", .deduped "a"] ∧
    ¬ Suppressed
      (LoopState.run testScheme decodeId id idConfig (some ()) false {} [arriving 503, arriving 200]).outcomes := by
  have outcomes : (LoopState.run testScheme decodeId id idConfig (some ()) false {} [arriving 503, arriving 200]).outcomes =
      [.undelivered "a", .deduped "a"] := by decide
  refine ⟨outcomes, ?_⟩
  rw [outcomes]
  intro law
  have delivered := law [.undelivered "a"] "a" [] rfl
  simp at delivered

end EgressProof

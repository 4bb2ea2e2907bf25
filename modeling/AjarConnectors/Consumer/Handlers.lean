import AjarConnectors.Event.Types
import AjarConnectors.Seal.Envelope

namespace ConsumerModel

open EventModel SealModel

structure Message where
  data : Bytes
  subject : String
  deriving DecidableEq

structure Delivery where
  event : Event
  payload : Bytes
  subject : String
  deriving DecidableEq

/-- The C++ delivery carries the payload inside the event only. -/
structure Cpp.Delivery where
  event : Event
  subject : String
  deriving DecidableEq

structure Guards where
  skipSourceIds : List String
  skipDerived : Bool

structure Stats where
  accepted : Nat
  rejected : Nat
  skipped : Nat
  deriving DecidableEq

def Stats.zero : Stats := ⟨0, 0, 0⟩

def Stats.accept (s : Stats) : Stats := { s with accepted := s.accepted + 1 }

def Stats.reject (s : Stats) : Stats := { s with rejected := s.rejected + 1 }

def Stats.skip (s : Stats) : Stats := { s with skipped := s.skipped + 1 }

/-- What a consumer leaves behind: its counters, what it handed on, and whether an exception ended it. -/
structure Outcome (δ : Type) where
  stats : Stats
  deliveries : List δ
  raised : Bool
  deriving DecidableEq

/-- A subscription feeds its messages one by one to a handler that always returns. -/
def feed {δ : Type} (handler : Stats → Message → Stats × Option δ) : Stats → List Message → Outcome δ
  | stats, [] => ⟨stats, [], false⟩
  | stats, msg :: rest =>
    let handled := handler stats msg
    let later := feed handler handled.1 rest
    { later with deliveries := handled.2.toList ++ later.deliveries }

section Consumers

variable {SK VK : Type} (scheme : Scheme SK VK) (decode : Bytes → Option Event) (egressKey : VK) (guards : Guards)

namespace Rust

def process (stats : Stats) (msg : Message) : Stats × Option Delivery :=
  match verify scheme msg.data egressKey with
  | .error _ => (stats.reject, none)
  | .ok canonical => match decode canonical with
    | none => (stats.reject, none)
    | some event =>
      if guards.skipSourceIds.contains event.sourceId ||
          (guards.skipDerived && event.attributes.any fun a => a.key == "model") then (stats.skip, none)
      else (stats.accept, some ⟨event, event.payload, msg.subject⟩)

def verifiedEvents (messages : List Message) : Outcome Delivery :=
  feed (process scheme decode egressKey guards) .zero messages

end Rust

/-- The loop over an event's attributes that Go and C++ write out: it leaves at the first `model`. -/
def findsModel : List Attribute → Bool
  | [] => false
  | a :: rest => if a.key = "model" then true else findsModel rest

namespace Go

def verifyingHandler (stats : Stats) (msg : Message) : Stats × Option Delivery :=
  match verify scheme msg.data egressKey with
  | .error _ => (stats.reject, none)
  | .ok canonical => match decode canonical with
    | none => (stats.reject, none)
    | some event =>
      if guards.skipSourceIds.contains event.sourceId then (stats.skip, none)
      else if guards.skipDerived then
        if findsModel event.attributes then (stats.skip, none)
        else (stats.accept, some ⟨event, event.payload, msg.subject⟩)
      else (stats.accept, some ⟨event, event.payload, msg.subject⟩)

def consume (messages : List Message) : Outcome Delivery :=
  feed (verifyingHandler scheme decode egressKey guards) .zero messages

end Go

namespace Cpp

def verifyingHandler (stats : Stats) (msg : Message) : Stats × Option Delivery :=
  match (verify scheme msg.data egressKey).toOption with
  | none => (stats.reject, none)
  | some canonical => match decode canonical with
    | none => (stats.reject, none)
    | some event =>
      if (guards.skipSourceIds.idxOf? event.sourceId).isSome then (stats.skip, none)
      else if guards.skipDerived then
        if findsModel event.attributes then (stats.skip, none)
        else (stats.accept, some ⟨event, msg.subject⟩)
      else (stats.accept, some ⟨event, msg.subject⟩)

def consume (messages : List Message) : Outcome Delivery :=
  feed (verifyingHandler scheme decode egressKey guards) .zero messages

end Cpp

namespace Python

/-- The `async for` of `consume`. A `verify` that raises is counted; `ParseFromString` stands
    outside that `try`, so its `DecodeError` leaves the loop. -/
def loop (stats : Stats) : List Message → Outcome Delivery
  | [] => ⟨stats, [], false⟩
  | msg :: rest => match verify scheme msg.data egressKey with
    | .error _ => loop stats.reject rest
    | .ok canonical => match decode canonical with
      | none => ⟨stats, [], true⟩
      | some event =>
        if guards.skipSourceIds.contains event.sourceId ||
            (guards.skipDerived && event.attributes.any fun a => a.key == "model") then loop stats.skip rest
        else
          let later := loop stats.accept rest
          { later with deliveries := ⟨event, event.payload, msg.subject⟩ :: later.deliveries }

def consume (messages : List Message) : Outcome Delivery := loop scheme decode egressKey guards .zero messages

end Python

/-- The seal does not verify, or the verified bytes do not decode. -/
def rejects (msg : Message) : Bool :=
  match verify scheme msg.data egressKey with
  | .error _ => true
  | .ok canonical => (decode canonical).isNone

def undecodable (msg : Message) : Bool :=
  match verify scheme msg.data egressKey with
  | .error _ => false
  | .ok canonical => (decode canonical).isNone

/-- The consumer saw the whole sequence, and its counters account for every message. -/
structure Accounts {δ : Type} (messages : List Message) (outcome : Outcome δ) : Prop where
  finished : outcome.raised = false
  counted : outcome.stats.accepted + outcome.stats.rejected + outcome.stats.skipped = messages.length
  rejected : outcome.stats.rejected = messages.countP (rejects scheme decode egressKey)

/-- All four account for the sequence and hand on the same events, on the same subjects, in order. -/
structure ConsumersAgree (messages : List Message) : Prop where
  rust : Accounts scheme decode egressKey messages (Rust.verifiedEvents scheme decode egressKey guards messages)
  go : Accounts scheme decode egressKey messages (Go.consume scheme decode egressKey guards messages)
  cpp : Accounts scheme decode egressKey messages (Cpp.consume scheme decode egressKey guards messages)
  python : Accounts scheme decode egressKey messages (Python.consume scheme decode egressKey guards messages)
  sameGo : (Go.consume scheme decode egressKey guards messages).deliveries =
    (Rust.verifiedEvents scheme decode egressKey guards messages).deliveries
  sameCpp : (Cpp.consume scheme decode egressKey guards messages).deliveries =
    (Rust.verifiedEvents scheme decode egressKey guards messages).deliveries.map fun d => ⟨d.event, d.subject⟩
  samePython : (Python.consume scheme decode egressKey guards messages).deliveries =
    (Rust.verifiedEvents scheme decode egressKey guards messages).deliveries

end Consumers

end ConsumerModel

namespace ConsumerProof

open ConsumerModel EventModel SealModel

inductive Verdict where
  | reject
  | skip
  | accept (event : Event)

def Verdict.event? : Verdict → Option Event
  | .accept event => some event
  | _ => none

def count (s : Stats) : Verdict → Stats
  | .reject => s.reject
  | .skip => s.skip
  | .accept _ => s.accept

section Verdicts

variable {SK VK : Type} (scheme : Scheme SK VK) (decode : Bytes → Option Event) (egressKey : VK) (guards : Guards)

/-- What every handler decides about one message. -/
def judge (msg : Message) : Verdict :=
  match verify scheme msg.data egressKey with
  | .error _ => .reject
  | .ok canonical => match decode canonical with
    | none => .reject
    | some event =>
      if guards.skipSourceIds.contains event.sourceId ||
          (guards.skipDerived && event.attributes.any fun a => a.key == "model") then .skip
      else .accept event

theorem findsModel_eq (attributes : List Attribute) :
    findsModel attributes = attributes.any fun a => a.key == "model" := by
  induction attributes with
  | nil => rfl
  | cons a rest ih =>
    rw [findsModel, List.any_cons, ih]
    by_cases model : a.key = "model" <;> simp [model]

theorem rust_process (stats : Stats) (msg : Message) :
    Rust.process scheme decode egressKey guards stats msg =
      (count stats (judge scheme decode egressKey guards msg),
        (judge scheme decode egressKey guards msg).event?.map fun event => ⟨event, event.payload, msg.subject⟩) := by
  unfold Rust.process judge
  cases verify scheme msg.data egressKey with
  | error e => rfl
  | ok canonical =>
    dsimp only
    cases decode canonical with
    | none => rfl
    | some event =>
      dsimp only
      split <;> rfl

theorem go_verifyingHandler (stats : Stats) (msg : Message) :
    Go.verifyingHandler scheme decode egressKey guards stats msg =
      Rust.process scheme decode egressKey guards stats msg := by
  unfold Go.verifyingHandler Rust.process
  cases verify scheme msg.data egressKey with
  | error e => rfl
  | ok canonical =>
    dsimp only
    cases decode canonical with
    | none => rfl
    | some event =>
      dsimp only
      rw [findsModel_eq]
      cases guards.skipSourceIds.contains event.sourceId <;> cases guards.skipDerived <;> rfl

theorem cpp_verifyingHandler (stats : Stats) (msg : Message) :
    Cpp.verifyingHandler scheme decode egressKey guards stats msg =
      (count stats (judge scheme decode egressKey guards msg),
        (judge scheme decode egressKey guards msg).event?.map fun event => ⟨event, msg.subject⟩) := by
  have found : ∀ ids : List String, ∀ id, (ids.idxOf? id).isSome = ids.contains id := by
    intro ids id
    rw [Bool.eq_iff_iff, Option.isSome_iff_ne_none, ne_eq, List.idxOf?_eq_none_iff, not_not, List.contains_iff_mem]
  unfold Cpp.verifyingHandler judge
  cases verify scheme msg.data egressKey with
  | error e => rfl
  | ok canonical =>
    simp only [Except.toOption]
    cases decode canonical with
    | none => rfl
    | some event =>
      dsimp only
      rw [findsModel_eq, found]
      cases guards.skipSourceIds.contains event.sourceId <;> cases guards.skipDerived
      · rfl
      · cases event.attributes.any fun a => a.key == "model" <;> rfl
      · rfl
      · rfl

theorem feed_eq {δ : Type} (handler : Stats → Message → Stats × Option δ) (deliver : Message → Event → δ)
    (judged : ∀ stats msg, handler stats msg =
      (count stats (judge scheme decode egressKey guards msg),
        (judge scheme decode egressKey guards msg).event?.map (deliver msg)))
    (stats : Stats) (messages : List Message) :
    feed handler stats messages =
      ⟨messages.foldl (fun s msg => count s (judge scheme decode egressKey guards msg)) stats,
        messages.filterMap fun msg => (judge scheme decode egressKey guards msg).event?.map (deliver msg), false⟩ := by
  induction messages generalizing stats with
  | nil => rfl
  | cons msg rest ih =>
    rw [feed, judged, ih, List.foldl_cons, List.filterMap_cons]
    cases (judge scheme decode egressKey guards msg).event?.map (deliver msg) <;> rfl

theorem foldl_count_total (stats : Stats) (messages : List Message) :
    let final := messages.foldl (fun s msg => count s (judge scheme decode egressKey guards msg)) stats
    final.accepted + final.rejected + final.skipped =
      stats.accepted + stats.rejected + stats.skipped + messages.length := by
  induction messages generalizing stats with
  | nil => rfl
  | cons msg rest ih =>
    have later := ih (count stats (judge scheme decode egressKey guards msg))
    dsimp only at later ⊢
    rw [List.foldl_cons, later, List.length_cons]
    cases judge scheme decode egressKey guards msg <;>
      simp only [count, Stats.reject, Stats.skip, Stats.accept] <;> omega

theorem judge_reject_iff (msg : Message) :
    judge scheme decode egressKey guards msg = .reject ↔ rejects scheme decode egressKey msg = true := by
  unfold judge rejects
  cases verify scheme msg.data egressKey with
  | error e => simp
  | ok canonical =>
    dsimp only
    cases decode canonical with
    | none => simp
    | some event =>
      dsimp only
      split <;> simp

theorem foldl_count_rejected (stats : Stats) (messages : List Message) :
    (messages.foldl (fun s msg => count s (judge scheme decode egressKey guards msg)) stats).rejected =
      stats.rejected + messages.countP (rejects scheme decode egressKey) := by
  induction messages generalizing stats with
  | nil => rfl
  | cons msg rest ih =>
    have reject_iff := judge_reject_iff scheme decode egressKey guards msg
    rw [List.foldl_cons, ih, List.countP_cons]
    cases verdict : judge scheme decode egressKey guards msg with
    | reject =>
      rw [if_pos (reject_iff.mp verdict)]
      simp only [count, Stats.reject]
      omega
    | skip =>
      rw [if_neg (by rw [← reject_iff, verdict]; simp)]
      rfl
    | accept event =>
      rw [if_neg (by rw [← reject_iff, verdict]; simp)]
      rfl

theorem feed_accounts {δ : Type} (handler : Stats → Message → Stats × Option δ) (deliver : Message → Event → δ)
    (judged : ∀ stats msg, handler stats msg =
      (count stats (judge scheme decode egressKey guards msg),
        (judge scheme decode egressKey guards msg).event?.map (deliver msg))) (messages : List Message) :
    Accounts scheme decode egressKey messages (feed handler .zero messages) := by
  rw [feed_eq scheme decode egressKey guards handler deliver judged]
  constructor
  · rfl
  · exact (foldl_count_total scheme decode egressKey guards .zero messages).trans (by simp [Stats.zero])
  · exact (foldl_count_rejected scheme decode egressKey guards .zero messages).trans (by simp [Stats.zero])

/-- As long as every verified message decodes, the Python loop counts and yields as the others do. -/
theorem python_loop (stats : Stats) (messages : List Message)
    (decodes : ∀ msg ∈ messages, undecodable scheme decode egressKey msg = false) :
    Python.loop scheme decode egressKey guards stats messages =
      feed (Rust.process scheme decode egressKey guards) stats messages := by
  induction messages generalizing stats with
  | nil => rfl
  | cons msg rest ih =>
    have ours := decodes msg (by simp)
    have later := fun s => ih s fun other member => decodes other (List.mem_cons_of_mem _ member)
    unfold undecodable at ours
    rw [Python.loop, feed, Rust.process]
    cases found : verify scheme msg.data egressKey with
    | error e => simp [later]
    | ok canonical =>
      rw [found] at ours
      dsimp only at ours ⊢
      cases event : decode canonical with
      | none => simp [event] at ours
      | some event =>
        dsimp only
        split <;> simp [later]

theorem python_raised (stats : Stats) (messages : List Message)
    (fails : ∃ msg ∈ messages, undecodable scheme decode egressKey msg = true) :
    (Python.loop scheme decode egressKey guards stats messages).raised = true := by
  induction messages generalizing stats with
  | nil => simp at fails
  | cons msg rest ih =>
    rw [Python.loop]
    by_cases first : undecodable scheme decode egressKey msg = true
    · unfold undecodable at first
      cases found : verify scheme msg.data egressKey with
      | error e => simp [found] at first
      | ok canonical =>
        rw [found] at first
        dsimp only at first ⊢
        rw [Option.isNone_iff_eq_none.mp first]
    · have later : ∃ msg ∈ rest, undecodable scheme decode egressKey msg = true := by
        rcases fails with ⟨other, member, bad⟩
        rcases List.mem_cons.mp member with rfl | member
        · exact absurd bad first
        · exact ⟨other, member, bad⟩
      split
      · exact ih _ later
      · split
        · rfl
        · split
          · exact ih _ later
          · exact ih _ later

/-- The four consumers agree on a sequence exactly when no message in it verifies without decoding. -/
theorem consumers_agree_iff (messages : List Message) :
    ConsumersAgree scheme decode egressKey guards messages ↔
      ∀ msg ∈ messages, undecodable scheme decode egressKey msg = false := by
  have rust := feed_accounts scheme decode egressKey guards _ _ (rust_process scheme decode egressKey guards)
  have cpp := feed_accounts scheme decode egressKey guards _ _ (cpp_verifyingHandler scheme decode egressKey guards)
  have sameGo : Go.consume scheme decode egressKey guards messages =
      Rust.verifiedEvents scheme decode egressKey guards messages := by
    unfold Go.consume Rust.verifiedEvents
    rw [funext fun stats => funext fun msg => go_verifyingHandler scheme decode egressKey guards stats msg]
  constructor
  · intro agree msg member
    by_contra bad
    have raised := python_raised scheme decode egressKey guards .zero messages ⟨msg, member, by simpa using bad⟩
    have finished := agree.python.finished
    unfold Python.consume at finished
    rw [raised] at finished
    cases finished
  · intro decodes
    have samePython : Python.consume scheme decode egressKey guards messages =
        Rust.verifiedEvents scheme decode egressKey guards messages :=
      python_loop scheme decode egressKey guards .zero messages decodes
    constructor
    · exact rust messages
    · rw [sameGo]
      exact rust messages
    · exact cpp messages
    · rw [samePython]
      exact rust messages
    · rw [sameGo]
    · unfold Cpp.consume Rust.verifiedEvents
      rw [feed_eq scheme decode egressKey guards _ _ (rust_process scheme decode egressKey guards),
        feed_eq scheme decode egressKey guards _ _ (cpp_verifyingHandler scheme decode egressKey guards),
        List.map_filterMap]
      simp only [Option.map_map, Function.comp_def]
    · rw [samePython]

end Verdicts

end ConsumerProof

namespace ConsumerModel

open EventModel SealModel

/-- The published test seed's signature over the byte `0xff`, which no protobuf message starts with. -/
def strayByte : Message :=
  ⟨[156, 161, 202, 175, 43, 43, 213, 29, 22, 48, 5, 66, 162, 176, 179, 39, 246, 253, 176, 21, 195, 59, 81, 87,
    2, 132, 99, 236, 142, 152, 9, 190, 130, 35, 28, 235, 194, 137, 112, 225, 57, 136, 97, 114, 216, 218, 96, 37,
    195, 245, 253, 125, 192, 108, 30, 59, 106, 223, 31, 245, 46, 67, 97, 15, 255], "ajar.egress.signed.x"⟩

/-- The test seed's scheme on the canonical bytes `0xff` and on the two events of `testScheme`. -/
def strayScheme : Scheme Unit Unit where
  verifyingKey := id
  sign key canonical := if canonical = [255] then strayByte.data.take sealSignatureLen else testScheme.sign key canonical
  fromSlice signature := signature.length == sealSignatureLen
  verify key canonical signature :=
    if canonical = [255] then signature == strayByte.data.take sealSignatureLen
    else testScheme.verify key canonical signature

def idOnlyDecode (canonical : Bytes) : Option Event :=
  if canonical = idOnlyEvent 97 then some { Event.default with id := "a", sourceId := "x" } else none

end ConsumerModel

namespace ConsumerProof

open ConsumerModel SealModel

/-- The Python consumer ends at the stray byte: it counts nothing and never yields the event behind it. -/
theorem stray_byte_ends_python :
    ¬ ConsumersAgree strayScheme idOnlyDecode () ⟨[], false⟩
      [strayByte, ⟨sealCanonical testScheme (idOnlyEvent 97) (), "ajar.egress.signed.x"⟩] := by
  intro agree
  exact absurd agree.python.finished (by decide)

end ConsumerProof

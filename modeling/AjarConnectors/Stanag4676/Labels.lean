import AjarConnectors.Stanag4676.Walk

namespace Stanag4676Model

open EventModel TextModel MarkingModel

/-- An open element and the character data read directly inside it. -/
structure OpenElement where
  name : String
  content : String

/-- A document read up to some place: the open elements, the confidentiality labels that are
    complete, the last piece of one that stands as plain text, and the points of the open track. -/
structure Scan where
  openElements : List OpenElement := []
  labels : List String := []
  piece : Option String := none
  points : Nat := 0

namespace Scan

def parent (scan : Scan) : String := (scan.openElements.tail.head?.map OpenElement.name).getD ""

def current (scan : Scan) : String := (scan.openElements.head?.map OpenElement.name).getD ""

def addContent (scan : Scan) (data : String) : Scan :=
  match scan.openElements with
  | [] => scan
  | top :: rest => { scan with openElements := { top with content := top.content ++ data } :: rest }

def close (scan : Scan) (name : String) : Scan :=
  let points := if localName name = "tp" then scan.points + 1 else if localName name = "track" then 0 else scan.points
  match scan.openElements with
  | [] => { scan with points := points }
  | top :: rest =>
    { scan with
      openElements := rest
      labels := if isLabel scan.parent scan.current ∧ trim top.content ≠ "" then scan.labels ++ [top.content]
        else scan.labels
      points := points }

def read (scan : Scan) (token : Token) : Scan :=
  match token.event with
  | .startTag name _ =>
    { scan with
      openElements := ⟨localName name, ""⟩ :: scan.openElements
      points := if localName name = "track" then 0 else scan.points }
  | .endTag name => scan.close name
  | .text content =>
    { scan.addContent content with
      piece := if isLabel scan.parent scan.current ∧ trim content ≠ "" then some (trim content) else scan.piece }
  | .cdata content => scan.addContent content
  | .reference replacement => scan.addContent replacement
  | .emptyTag _ _ | .other => scan

end Scan

def scan (tokens : List Token) : Scan := tokens.foldl Scan.read {}

def Token.closesTrack (token : Token) : Bool :=
  match token.event with
  | .endTag name => localName name == "track"
  | _ => false

/-- The event has a `class:` tag of at least this level. -/
def Carries (event : Event) (level : Level) : Prop :=
  ∃ tag ∈ event.policyTags, ∃ stated, tagLevel tag = some stated ∧ level.rank ≤ stated.rank

/-- The label ranks no higher than the piece. -/
def Within (label piece : String) : Prop :=
  ∃ level stated, wireLevel label none = some level ∧ wireLevel piece none = some stated ∧ level.rank ≤ stated.rank

/-- At the close of every track with points, the last label piece in plain text ranks at least as
    high as every label so far. -/
def LastPieceHighest (tokens : List Token) : Prop :=
  ∀ before token after, tokens = before ++ token :: after → token.closesTrack = true → 0 < (scan before).points →
    ∀ label ∈ (scan before).labels, ∃ piece, (scan before).piece = some piece ∧ Within label piece

section

variable {Instant : Type} (platform : Platform Instant) (parser : S4676Parser)

/-- The events that reading `token` after `before` adds. -/
def emitted (native : Bytes) (before : List Token) (token : Token) : List Event :=
  match Progress.run platform parser native {} before, Progress.run platform parser native {} (before ++ [token]) with
  | .ok s, .ok s' => s'.events.drop s.events.length
  | _, _ => []

/-- Every event carries at least the level of every label that was complete when its track closed. -/
def LabelsKept (tokens : List Token) : Prop :=
  ∀ before token after, tokens = before ++ token :: after →
    ∀ event ∈ emitted platform parser (tokens.flatMap Token.raw) before token, ∀ label ∈ (scan before).labels,
      ∃ level, wireLevel label none = some level ∧ Carries event level

end

end Stanag4676Model

namespace Stanag4676Proof

open EventModel TextModel TextProof BuilderModel MarkingModel MarkingProof Stanag4676Model

def tagOf : Call → Option String
  | .policyTag tag => some tag
  | _ => none

theorem call_policyTags (b : Rust.EventBuilder) (call : Call) :
    (b.call call).policyTags = b.policyTags ++ (tagOf call).toList := by
  cases call <;> simp [Rust.EventBuilder.call, Fields.call, tagOf]

theorem calls_policyTags (b : Rust.EventBuilder) (calls : List Call) :
    (calls.foldl Rust.EventBuilder.call b).policyTags = b.policyTags ++ calls.filterMap tagOf := by
  induction calls generalizing b with
  | nil => simp
  | cons call calls ih =>
    rw [List.foldl_cons, ih, call_policyTags, List.append_assoc, List.filterMap_cons]
    cases tagOf call <;> rfl

/-- A check that passed. -/
theorem ite_eq_ok {ε α : Type} {c : Prop} [Decidable c] {e : ε} {rest : Except ε α} {a : α}
    (returned : (if c then .error e else rest) = .ok a) : rest = .ok a := by
  split at returned
  · cases returned
  · exact returned

theorem finish_policyTags {isNamespaced : String → Bool} {refused : F64 → Bool} {less : String → String → Bool}
    {f : Fields} {id timestamp : String} {location : Option GeoPoint} {event : Event}
    (built : f.finish isNamespaced refused less id timestamp location = .ok event) : event.policyTags = f.policyTags := by
  unfold Fields.finish at built
  iterate 7
    replace built := ite_eq_ok built
  split at built
  · cases built
  · split at built
    · cases built
    · cases built
      rfl

theorem run_policyTags {sourceId entityType : String} {calls : List Call} {event : Event}
    (built : Rust.run sourceId entityType calls = .ok event) : event.policyTags = calls.filterMap tagOf := by
  unfold Rust.run Rust.EventBuilder.build at built
  split at built
  · cases built
  · split at built
    · cases built
    · split at built
      · cases built
      · split at built
        · cases built
        · rw [finish_policyTags built, calls_policyTags]
          rfl

def labelTags (msg : MessageCtx) : List String :=
  match msg.classification with
  | none => []
  | some cls => wireClassification cls msg.policyId

section

variable {Instant : Type} (platform : Platform Instant) (parser : S4676Parser)

theorem governed_tag (entity key value : String) : tagOf (governed platform entity key value) = none := by
  unfold governed
  split <;> rfl

theorem toList_tags {α : Type} (found : Option α) {call : α → Call} (none : ∀ a, tagOf (call a) = none) :
    (found.map call).toList.filterMap tagOf = [] := by
  cases found with
  | none => rfl
  | some a => simp [none a]

theorem labelCalls_tags (msg : MessageCtx) : (labelCalls msg).filterMap tagOf = labelTags msg := by
  unfold labelCalls labelTags
  rw [List.filterMap_append, toList_tags _ fun _ => rfl, List.nil_append]
  cases msg.classification with
  | none => rfl
  | some cls =>
    dsimp only
    rw [List.filterMap_cons, List.filterMap_map]
    exact List.filterMap_some

theorem identityCalls_tags (standard id : String) : (identityCalls standard id).filterMap tagOf = [] := by
  unfold identityCalls
  split <;> rfl

theorem environmentCalls_tags (entity : String) (environment : Option String) :
    (environmentCalls platform entity environment).filterMap tagOf = [] := by
  unfold environmentCalls
  rw [List.filterMap_cons, governed_tag]
  cases environment with
  | none => rfl
  | some wire =>
    dsimp only
    split <;> rfl

theorem velocityCalls_tags (lat : F64) (vel : Option (List F64)) :
    (velocityCalls platform lat vel).filterMap tagOf = [] := by
  unfold velocityCalls
  split
  · rw [List.filterMap_append, toList_tags _ fun _ => rfl]
    rfl
  · rfl

theorem kinematicsCalls_tags (p : PointCtx) : (kinematicsCalls platform p).filterMap tagOf = [] := by
  unfold kinematicsCalls
  split
  · split
    · exact velocityCalls_tags platform _ _
    · rfl
  · split
    · rfl
    · rw [List.filterMap_cons, toList_tags _ fun _ => rfl]
      rfl

theorem uidCalls_tags (uid : Option String) : (uidCalls uid).filterMap tagOf = [] := by
  cases uid with
  | none => rfl
  | some uid => exact identityCalls_tags "STANAG4676" uid

theorem statusCalls_tags (entity : String) (status : Option String) :
    (statusCalls platform entity status).filterMap tagOf = [] := by
  cases status with
  | none => rfl
  | some st =>
    rw [statusCalls, List.filterMap_cons, governed_tag]
    rfl

theorem pointCalls_tags (track : TrackCtx) (raw : Bytes) (msg : MessageCtx) (index : Nat) (p : PointCtx) :
    (pointCalls platform parser track raw msg index p).filterMap tagOf = labelTags msg := by
  unfold pointCalls
  simp only [List.filterMap_append, uidCalls_tags, statusCalls_tags, labelCalls_tags, environmentCalls_tags,
    kinematicsCalls_tags]
  rw [toList_tags _ fun _ => rfl, toList_tags _ fun _ => rfl, toList_tags _ fun _ => governed_tag _ _ _ _,
    toList_tags _ fun _ => rfl]
  simp [tagOf]

/-- Closing a track adds one event a point, each with the tags of the message's label. -/
theorem flushTrack_spec {track : TrackCtx} {raw : Bytes} {msg : MessageCtx} {points : List PointCtx}
    {out events : List Event} (flushed : flushTrack platform parser track raw msg points out = .ok events) :
    ∃ new, events = out ++ new ∧ new.length = points.length ∧ ∀ event ∈ new, event.policyTags = labelTags msg := by
  induction points generalizing out with
  | nil =>
    cases flushed
    exact ⟨[], by simp, rfl, fun event member => by cases member⟩
  | cons p points ih =>
    rw [flushTrack] at flushed
    split at flushed
    · cases flushed
    · rename_i event built
      have tags : event.policyTags = labelTags msg := by
        unfold buildPoint at built
        rw [← pointCalls_tags platform parser track raw msg out.length p]
        cases run : Rust.run parser.sourceId (entityType parser track.environment)
          (pointCalls platform parser track raw msg out.length p) with
        | error e =>
          rw [run] at built
          cases built
        | ok other =>
          rw [run] at built
          cases built
          exact run_policyTags run
      rcases ih flushed with ⟨new, same, count, all⟩
      refine ⟨event :: new, by rw [same, List.append_assoc]; rfl, by rw [List.length_cons, count]; rfl, ?_⟩
      intro other member
      rcases List.mem_cons.mp member with rfl | member
      · exact tags
      · exact all other member

/-- Neither the label's slot nor the points read so far changed. -/
structure Kept (w w' : Walk) : Prop where
  slot : w'.msg.classification = w.msg.classification
  points : w'.track.points = w.track.points

theorem Kept.ite {w first second : Walk} {c : Prop} [Decidable c] (left : Kept w first) (right : Kept w second) :
    Kept w (if c then first else second) := by
  split
  · exact left
  · exact right

theorem routePos_kept (w : Walk) (v : List F64) : Kept w (w.routePos v) := by
  unfold Walk.routePos
  split <;> exact ⟨rfl, rfl⟩

/-- Only text inside a label changes the label's slot. -/
theorem routeText_kept (w : Walk) {parent cur : String} (text : String) (other : ¬ isLabel parent cur = true) :
    Kept w (w.routeText platform parent cur text) := by
  unfold Walk.routeText
  rw [if_neg other]
  repeat refine Kept.ite ⟨rfl, rfl⟩ ?_
  apply Kept.ite
  · cases parseFloats platform text with
    | none => exact ⟨rfl, rfl⟩
    | some v => exact routePos_kept w v
  · apply Kept.ite
    · cases parseFloats platform text <;> exact ⟨rfl, rfl⟩
    · exact ⟨rfl, rfl⟩

theorem routeText_label (w : Walk) {parent cur : String} (text : String) (label : isLabel parent cur = true) :
    w.routeText platform parent cur text = { w with msg := { w.msg with classification := some text } } := by
  have names : parent = "ConfidentialityInformation" ∧ cur = "Classification" := by
    rwa [isLabel, Bool.and_eq_true, beq_iff_eq, beq_iff_eq] at label
  rcases names with ⟨rfl, rfl⟩
  unfold Walk.routeText
  rw [if_neg (by decide), if_neg (by decide), if_neg (by decide), if_pos label]

/-- What the code holds after a part of the document, in terms of that part. -/
structure Agrees (s : Progress) (scan : Scan) : Prop where
  stack : s.stack = scan.openElements.map OpenElement.name
  slot : s.walk.msg.classification = scan.piece
  filled : ∀ piece, scan.piece = some piece → trim piece ≠ ""
  points : s.walk.track.points.length = scan.points

theorem Agrees.start : Agrees {} {} := ⟨rfl, rfl, fun piece same => (by cases same), rfl⟩

theorem addContent_names (scan : Scan) (data : String) :
    (scan.addContent data).openElements.map OpenElement.name = scan.openElements.map OpenElement.name ∧
      (scan.addContent data).piece = scan.piece ∧ (scan.addContent data).points = scan.points := by
  unfold Scan.addContent
  split
  · exact ⟨rfl, rfl, rfl⟩
  · rename_i top rest same
    rw [same]
    exact ⟨rfl, rfl, rfl⟩

theorem Agrees.parent {s : Progress} {scan : Scan} (agrees : Agrees s scan) :
    s.stack.tail.head?.getD "" = scan.parent ∧ s.stack.head?.getD "" = scan.current := by
  rw [agrees.stack, Scan.parent, Scan.current, ← List.map_tail, List.head?_map, List.head?_map]
  exact ⟨rfl, rfl⟩

theorem Agrees.content {s : Progress} {scan : Scan} (agrees : Agrees s scan) (position : Nat) (data : String) :
    Agrees { s with position := position } (scan.addContent data) := by
  have same := addContent_names scan data
  refine ⟨?_, ?_, ?_, ?_⟩
  · rw [same.1]
    exact agrees.stack
  · rw [same.2.1]
    exact agrees.slot
  · rw [same.2.1]
    exact agrees.filled
  · rw [same.2.2]
    exact agrees.points

theorem Agrees.text {s : Progress} {scan : Scan} (agrees : Agrees s scan) (position : Nat) (content : String) (raw : Bytes) :
    Agrees (Progress.onText platform { s with position := position } content) (scan.read ⟨.text content, raw⟩) := by
  have same := addContent_names scan content
  have names := agrees.parent
  unfold Progress.onText Scan.read
  dsimp only
  split
  · rename_i blank
    have plain : ¬ (isLabel scan.parent scan.current = true ∧ trim content ≠ "") := fun both => both.2 blank
    rw [if_neg plain]
    refine ⟨by rw [same.1]; exact agrees.stack, agrees.slot, agrees.filled, by rw [same.2.2]; exact agrees.points⟩
  · rename_i filled
    rw [names.1, names.2]
    by_cases label : isLabel scan.parent scan.current = true
    · rw [routeText_label platform _ _ label, if_pos ⟨label, filled⟩]
      refine ⟨by rw [same.1]; exact agrees.stack, rfl, ?_, by rw [same.2.2]; exact agrees.points⟩
      intro piece found
      cases found
      exact trim_trim_ne_empty filled
    · have kept := routeText_kept platform s.walk (trim content) label
      rw [if_neg fun both => label both.1]
      refine ⟨by rw [same.1]; exact agrees.stack, kept.slot.trans agrees.slot, agrees.filled, ?_⟩
      rw [same.2.2, ← agrees.points]
      exact congrArg List.length kept.points

theorem close_names (scan : Scan) (name : String) :
    (scan.close name).openElements = scan.openElements.tail ∧ (scan.close name).piece = scan.piece ∧
      (scan.close name).points =
        if localName name = "tp" then scan.points + 1 else if localName name = "track" then 0 else scan.points := by
  unfold Scan.close
  cases scan.openElements <;> exact ⟨by simp, rfl, rfl⟩

/-- What one token does: it adds the events of a closing track and nothing otherwise. -/
structure Step (scan : Scan) (s : Progress) (token : Token) (s' : Progress) : Prop where
  agrees : Agrees s' (scan.read token)
  added : ∃ new, s'.events = s.events ++ new ∧ (∀ event ∈ new, event.policyTags = labelTags s.walk.msg) ∧
    new.length = if token.closesTrack then scan.points else 0

theorem Step.silent {scan : Scan} {s s' : Progress} {token : Token} (agrees : Agrees s' (scan.read token))
    (events : s'.events = s.events) (other : token.closesTrack = false) : Step scan s token s' :=
  ⟨agrees, [], by rw [events, List.append_nil], fun event member => (by cases member), by rw [other]; rfl⟩

theorem Agrees.startTag {s : Progress} {scan : Scan} (agrees : Agrees s scan) (position before : Nat) (name : String)
    (attributes : List (String × String)) (raw : Bytes) :
    Agrees ({ s with position := position : Progress }.onStart before name attributes)
      (scan.read ⟨.startTag name attributes, raw⟩) := by
  unfold Progress.onStart Scan.read
  dsimp only
  refine ⟨?_, ?_, agrees.filled, ?_⟩
  · rw [List.map_cons, agrees.stack]
  · rw [← agrees.slot]
    split
    · rfl
    · split <;> rfl
  · split
    · rfl
    · rw [← agrees.points]
      split <;> rfl

theorem Agrees.endTag {s s' : Progress} {scan : Scan} (agrees : Agrees s scan) (native : Bytes) (position : Nat)
    (name : String) (raw : Bytes)
    (done : Progress.onEnd platform parser native { s with position := position } name = .ok s') :
    Step scan s ⟨.endTag name, raw⟩ s' := by
  have closed := close_names scan name
  have names : s.stack.tail = (scan.close name).openElements.map OpenElement.name := by
    rw [closed.1, agrees.stack, List.map_tail]
  have slot : s.walk.msg.classification = (scan.close name).piece := by rw [closed.2.1, agrees.slot]
  have filled : ∀ piece, (scan.close name).piece = some piece → trim piece ≠ "" := by
    rw [closed.2.1]
    exact agrees.filled
  have points := closed.2.2
  have other : ∀ s' : Progress, localName name ≠ "track" → s'.events = s.events → Agrees s' (scan.close name) →
      Step scan s ⟨.endTag name, raw⟩ s' :=
    fun s' different events agrees => Step.silent agrees events (beq_eq_false_iff_ne.mpr different)
  unfold Progress.onEnd at done
  dsimp only at done
  split at done
  · rename_i tp
    cases done
    have different : localName name ≠ "track" := by rw [tp]; decide
    refine other _ different rfl ⟨names, slot, filled, ?_⟩
    rw [points, if_pos tp, ← agrees.points, List.length_append]
    rfl
  · rename_i notTp
    rw [if_neg notTp] at points
    split at done
    · rename_i dynamics
      cases done
      have different : localName name ≠ "track" := by rw [dynamics]; decide
      exact other _ different rfl ⟨names, slot, filled, by rw [points, if_neg different, ← agrees.points]⟩
    · split at done
      · rename_i segment
        cases done
        have different : localName name ≠ "track" := by rw [segment]; decide
        exact other _ different rfl ⟨names, slot, filled, by rw [points, if_neg different, ← agrees.points]⟩
      · split at done
        · rename_i track
          split at done
          · cases done
          · rename_i events flushed
            cases done
            rcases flushTrack_spec platform parser flushed with ⟨new, same, count, tags⟩
            have cleared : (scan.close name).points = 0 := by rw [points, if_pos track]
            refine ⟨⟨names, slot, filled, cleared.symm⟩, new, same, tags, ?_⟩
            have closes : Token.closesTrack ⟨.endTag name, raw⟩ = true := beq_iff_eq.mpr track
            rw [count, closes, agrees.points]
            rfl
        · rename_i different
          cases done
          exact other _ different rfl ⟨names, slot, filled, by rw [points, if_neg different, ← agrees.points]⟩

theorem Agrees.step {s s' : Progress} {scan : Scan} (agrees : Agrees s scan) (native : Bytes) (token : Token)
    (done : s.step platform parser native token = .ok s') : Step scan s token s' := by
  rcases token with ⟨event, raw⟩
  cases event with
  | startTag name attributes =>
    cases done
    exact Step.silent (agrees.startTag _ _ name attributes raw) rfl rfl
  | endTag name => exact agrees.endTag platform parser native _ name raw done
  | emptyTag name attributes =>
    cases done
    exact Step.silent ⟨agrees.stack, agrees.slot, agrees.filled, agrees.points⟩ rfl rfl
  | text content =>
    obtain rfl := Except.ok.inj done
    apply Step.silent (agrees.text platform _ content raw) _ rfl
    unfold Progress.onText
    dsimp only
    split <;> rfl
  | cdata content =>
    cases done
    exact Step.silent (agrees.content _ content) rfl rfl
  | reference replacement =>
    cases done
    exact Step.silent (agrees.content _ replacement) rfl rfl
  | other =>
    cases done
    exact Step.silent ⟨agrees.stack, agrees.slot, agrees.filled, agrees.points⟩ rfl rfl

theorem run_concat (native : Bytes) (s : Progress) (before : List Token) (token : Token) :
    s.run platform parser native (before ++ [token]) =
      match s.run platform parser native before with
      | .error e => .error e
      | .ok s' => s'.step platform parser native token := by
  induction before generalizing s with
  | nil =>
    rw [List.nil_append, Progress.run, Progress.run]
    dsimp only
    cases s.step platform parser native token <;> rfl
  | cons head before ih =>
    rw [List.cons_append, Progress.run, Progress.run]
    cases s.step platform parser native head with
    | error e => rfl
    | ok s' => exact ih s'

theorem run_prefix (native : Bytes) {s s' : Progress} {before after : List Token}
    (done : s.run platform parser native (before ++ after) = .ok s') :
    ∃ middle, s.run platform parser native before = .ok middle := by
  induction before generalizing s with
  | nil => exact ⟨s, rfl⟩
  | cons head before ih =>
    rw [List.cons_append, Progress.run] at done
    rw [Progress.run]
    cases first : s.step platform parser native head with
    | error e =>
      rw [first] at done
      cases done
    | ok next =>
      rw [first] at done
      exact ih done

theorem run_agrees (native : Bytes) {before : List Token} {s : Progress}
    (done : Progress.run platform parser native {} before = .ok s) : Agrees s (scan before) := by
  induction before using List.reverseRecOn generalizing s with
  | nil =>
    cases done
    exact Agrees.start
  | append_singleton before token ih =>
    rw [run_concat] at done
    split at done
    · cases done
    · rename_i middle first
      rw [scan, List.foldl_append]
      exact ((ih first).step platform parser native token done).agrees

/-- The events of a token, as the document up to it decides them. -/
theorem emitted_spec (native : Bytes) {tokens before after : List Token} {token : Token} {s : Progress}
    (done : Progress.run platform parser native {} tokens = .ok s) (split : tokens = before ++ token :: after) :
    ∃ msg : MessageCtx, msg.classification = (scan before).piece ∧
      (∀ event ∈ emitted platform parser native before token, event.policyTags = labelTags msg) ∧
      (emitted platform parser native before token).length = if token.closesTrack then (scan before).points else 0 := by
  rw [split, List.append_cons] at done
  rcases run_prefix platform parser native done with ⟨later, reached⟩
  have start := reached
  rw [run_concat] at start
  split at start
  · cases start
  · rename_i middle first
    have agrees := run_agrees platform parser native first
    rcases (agrees.step platform parser native token start).added with ⟨new, same, tags, count⟩
    have drop : emitted platform parser native before token = new := by
      rw [emitted, first, reached]
      dsimp only
      rw [same, List.drop_left]
    refine ⟨middle.walk.msg, agrees.slot, ?_, ?_⟩
    · rw [drop]
      exact tags
    · rw [drop]
      exact count

/-- Every event in the result is added by some token. -/
theorem emitted_all (native : Bytes) {tokens : List Token} {s : Progress}
    (done : Progress.run platform parser native {} tokens = .ok s) (event : Event) (member : event ∈ s.events) :
    ∃ before token after, tokens = before ++ token :: after ∧ event ∈ emitted platform parser native before token := by
  induction tokens using List.reverseRecOn generalizing s with
  | nil =>
    cases done
    cases member
  | append_singleton before token ih =>
    have reached := done
    rw [run_concat] at done
    split at done
    · cases done
    · rename_i middle first
      rcases ((run_agrees platform parser native first).step platform parser native token done).added with
        ⟨new, same, _⟩
      rw [same] at member
      rcases List.mem_append.mp member with member | member
      · rcases ih first member with ⟨front, one, rest, split, found⟩
        exact ⟨front, one, rest ++ [token], by rw [split, List.append_assoc]; rfl, found⟩
      · refine ⟨before, token, [], rfl, ?_⟩
        rw [emitted, first, reached]
        dsimp only
        rw [same, List.drop_left]
        exact member

/-- An event states the level of its message's label and no other. -/
theorem carries_iff {event : Event} {msg : MessageCtx} (tags : event.policyTags = labelTags msg)
    (filled : ∀ piece, msg.classification = some piece → trim piece ≠ "") (level : Level) :
    Carries event level ↔ ∃ piece, msg.classification = some piece ∧
      ∃ stated, wireLevel piece none = some stated ∧ level.rank ≤ stated.rank := by
  unfold Carries
  rw [tags, labelTags]
  cases slot : msg.classification with
  | none => simp
  | some piece =>
    rcases wireClassification_of_nonblank (filled piece slot) msg.policyId with ⟨stated, policies, same, states, rest⟩
    dsimp only
    rw [same]
    constructor
    · intro carried
      rcases carried with ⟨tag, member, other, found, bound⟩
      rcases List.mem_cons.mp member with rfl | member
      · rw [tagLevel_class] at found
        cases found
        exact ⟨piece, rfl, stated, states, bound⟩
      · cases (rest tag member).symm.trans found
    · intro carried
      rcases carried with ⟨other, here, top, found, bound⟩
      cases here
      cases states.symm.trans found
      exact ⟨_, List.mem_cons_self, stated, tagLevel_class stated, bound⟩

/-- For every document that becomes events, each of them added when a track closes: the events
    carry at least the level of every label before the close of their track exactly when, at the
    close of every track with points, the last label piece in plain text is the highest label. -/
theorem labels_kept_iff (tokens : List Token) (events : List Event)
    (accepted : toEvents platform parser tokens = .ok events) :
    (∀ event ∈ events, ∃ before token after, tokens = before ++ token :: after ∧ token.closesTrack = true ∧
      event ∈ emitted platform parser (tokens.flatMap Token.raw) before token) ∧
    (LabelsKept platform parser tokens ↔ LastPieceHighest tokens) := by
  have done : ∃ s, Progress.run platform parser (tokens.flatMap Token.raw) {} tokens = .ok s ∧ s.events = events := by
    unfold toEvents at accepted
    cases run : Progress.run platform parser (tokens.flatMap Token.raw) {} tokens with
    | error e =>
      rw [run] at accepted
      cases accepted
    | ok s =>
      rw [run] at accepted
      cases accepted
      exact ⟨s, rfl, rfl⟩
  rcases done with ⟨s, done, rfl⟩
  have each : ∀ before token after, tokens = before ++ token :: after →
      ∃ msg : MessageCtx, msg.classification = (scan before).piece ∧
        (∀ event ∈ emitted platform parser (tokens.flatMap Token.raw) before token, event.policyTags = labelTags msg) ∧
        (emitted platform parser (tokens.flatMap Token.raw) before token).length =
          if token.closesTrack then (scan before).points else 0 := by
    intro before token after split
    exact emitted_spec platform parser _ done split
  have filled : ∀ before token after, tokens = before ++ token :: after →
      ∀ piece, (scan before).piece = some piece → trim piece ≠ "" := by
    intro before token after split
    rw [split] at done
    rcases run_prefix platform parser _ done with ⟨middle, reached⟩
    exact (run_agrees platform parser _ reached).filled
  refine ⟨?_, ?_, ?_⟩
  · intro event member
    rcases emitted_all platform parser (tokens.flatMap Token.raw) done event member with ⟨before, token, after, split, found⟩
    refine ⟨before, token, after, split, ?_, found⟩
    rcases each before token after split with ⟨_, _, _, count⟩
    by_contra other
    rw [if_neg other, List.length_eq_zero_iff] at count
    rw [count] at found
    cases found
  · intro kept before token after split closes points label member
    rcases each before token after split with ⟨msg, slot, tags, count⟩
    rw [if_pos closes] at count
    rcases List.exists_mem_of_length_pos (count ▸ points) with ⟨event, found⟩
    rcases kept before token after split event found label member with ⟨level, stated, carried⟩
    rw [carries_iff (tags event found) (by rw [slot]; exact filled before token after split), slot] at carried
    rcases carried with ⟨piece, same, top, states, bound⟩
    exact ⟨piece, same, level, top, stated, states, bound⟩
  · intro highest before token after split event found label member
    rcases each before token after split with ⟨msg, slot, tags, count⟩
    have positive := List.length_pos_of_mem found
    rw [count] at positive
    have closes : token.closesTrack = true := by
      by_contra other
      rw [if_neg other] at positive
      exact absurd positive (by decide)
    rw [if_pos closes] at positive
    rcases highest before token after split closes positive label member with
      ⟨piece, same, level, top, stated, states, bound⟩
    refine ⟨level, stated, ?_⟩
    rw [carries_iff (tags event found) (by rw [slot]; exact filled before token after split), slot]
    exact ⟨piece, same, top, states, bound⟩

end

end Stanag4676Proof

namespace Stanag4676Model

/-- The documents below hold no numbers and no times, so nothing is asked of those operations. -/
def testPlatform : Platform Unit where
  parseF64 := fun _ => none
  ofInt := fun _ => .zero
  mul := fun _ _ => .zero
  toRadians := fun x => x
  toDegrees := fun x => x
  cos := fun x => x
  hypot := fun x _ => x
  atan2 := fun x _ => x
  remEuclid := fun x _ => x
  display := fun _ => ""
  fixed := fun _ _ => ""
  parseTime := fun _ => none
  addSeconds := fun _ _ => none
  formatTime := fun _ => none
  governs := fun _ key => key == "environment"
  newId := fun _ => "0c58cbc0-0db6-4578-8a48-05a1d9e04e19"
  now := fun _ => "2026-08-06T12:00:00Z"

def testParser : S4676Parser := ⟨"isr-tracker-1", [], none⟩

def rawText (text : String) : Bytes := (Utf8.bytes text).map UInt8.ofNat

def element (name : String) (children : List Token) : List Token :=
  ⟨.startTag name [], rawText ("<" ++ name ++ ">")⟩ :: children ++ [⟨.endTag name, rawText ("</" ++ name ++ ">")⟩]

def plainText (text : String) : Token := ⟨.text text, rawText text⟩

def label (place classification : String) : List Token :=
  element place (element "ConfidentialityInformation" (element "Classification" [plainText classification]))

/-- A message with two labels and one track of one point. -/
def twoLabels (originator metadata : String) : List Token :=
  element "nitsRoot" (label "originatorConfidentialityLabel" originator ++ label "metadataConfidentialityLabel" metadata ++
    element "message" (element "track" (element "segment" (element "tp" []))))

end Stanag4676Model

namespace Stanag4676Proof

open EventModel TextModel MarkingModel Stanag4676Model

theorem ok_of_toOption {ε α : Type} {result : Except ε α} {a : α} (returned : result.toOption = some a) : result = .ok a := by
  cases result with
  | error e => cases returned
  | ok b => exact congrArg Except.ok (Option.some.inj returned)

theorem second_label_lowers_the_first :
    ¬ LabelsKept testPlatform testParser (twoLabels "SECRET" "UNCLASSIFIED") := by
  intro kept
  have split : twoLabels "SECRET" "UNCLASSIFIED" =
      (twoLabels "SECRET" "UNCLASSIFIED").take 21 ++
        ⟨.endTag "track", rawText "</track>"⟩ :: (twoLabels "SECRET" "UNCLASSIFIED").drop 22 := rfl
  have tags : (emitted testPlatform testParser ((twoLabels "SECRET" "UNCLASSIFIED").flatMap Token.raw)
      ((twoLabels "SECRET" "UNCLASSIFIED").take 21) ⟨.endTag "track", rawText "</track>"⟩).map Event.policyTags =
        [["class:unclassified"]] := by decide
  have found : "SECRET" ∈ (scan ((twoLabels "SECRET" "UNCLASSIFIED").take 21)).labels := by decide
  have secret : wireLevel "SECRET" none = some .secret := by decide
  have unclassified : tagLevel "class:unclassified" = some .unclassified := by decide
  rcases List.map_eq_singleton_iff.mp tags with ⟨event, only, here⟩
  have member := kept _ _ _ split event (by rw [only]; exact List.mem_singleton_self _) "SECRET" found
  rcases member with ⟨level, states, tag, carried, stated, read, bound⟩
  obtain rfl := Option.some.inj (secret.symm.trans states)
  rw [here, List.mem_singleton] at carried
  subst carried
  obtain rfl := Option.some.inj (unclassified.symm.trans read)
  exact absurd bound (by decide)

theorem rising_labels_are_kept :
    ∃ events, toEvents testPlatform testParser (twoLabels "RESTRICTED" "NATO SECRET") = .ok events ∧
      events.map Event.policyTags = [["class:secret", "policy:NATO"]] ∧
      (LabelsKept testPlatform testParser (twoLabels "RESTRICTED" "NATO SECRET") ↔
        LastPieceHighest (twoLabels "RESTRICTED" "NATO SECRET")) := by
  have tags : (toEvents testPlatform testParser (twoLabels "RESTRICTED" "NATO SECRET")).toOption.map
      (List.map Event.policyTags) = some [["class:secret", "policy:NATO"]] := by decide
  obtain ⟨events, returned, same⟩ := Option.map_eq_some_iff.mp tags
  have accepted := ok_of_toOption returned
  exact ⟨events, accepted, same, (labels_kept_iff testPlatform testParser _ events accepted).2⟩

end Stanag4676Proof

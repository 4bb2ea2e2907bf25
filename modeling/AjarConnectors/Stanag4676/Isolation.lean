import AjarConnectors.Stanag4676.Containment
import AjarConnectors.Stanag4676.Labels

namespace Stanag4676Model

open EventModel TextModel

/-- Blank text, a comment, an element without content. -/
def Token.Inert (token : Token) : Prop := token.opens = none ∧ token.closes = none ∧ token.content = none

/-- A whole `track` element and what stands in front of it. -/
structure TrackPart where
  gap : List Token
  first : Token
  inner : List Token
  last : Token
  blank : ∀ token ∈ gap, token.Inert
  element : IsElement "track" first inner last

def TrackPart.elementTokens (t : TrackPart) : List Token := t.first :: t.inner ++ [t.last]

def TrackPart.tokens (t : TrackPart) : List Token := t.gap ++ t.elementTokens

/-- A well-formed message: a header that leaves some elements open, tracks inside these, and a footer that closes them. -/
structure Message where
  header : List Token
  tracks : List TrackPart
  footer : List Token
  headerCloses : Transition.Allowed push Closes [] header
  footerCloses : Transition.Allowed push Closes (header.foldl push []) footer
  ends : footer.foldl push (header.foldl push []) = []
  outside : ∀ token ∈ header ++ footer, token.opens ≠ some "track"

namespace Message

def tokens (m : Message) : List Token := m.header ++ (m.tracks.flatMap TrackPart.tokens ++ m.footer)

/-- The same header, and only this track. -/
def only (m : Message) (t : TrackPart) : Message := { m with tracks := [t] }

/-- The elements open around the tracks. -/
def opened (m : Message) : List String := m.header.foldl push []

end Message

section

variable {Instant : Type} (platform : Platform Instant) (parser : S4676Parser)

/-- The same surroundings, with the identifiers and clock readings drawn from number `n` on. -/
def Platform.drawnFrom (n : Nat) : Platform Instant :=
  { platform with newId := fun k => platform.newId (n + k), now := fun k => platform.now (n + k) }

/-- The events of the messages with one track each, one after the other. The identifiers and the clock are drawn as in
    one run. -/
def Message.trackByTrack (m : Message) : Nat → List TrackPart → Except S4676Error (List Event)
  | _, [] => .ok []
  | n, t :: tracks =>
    (toEvents (platform.drawnFrom n) parser (m.only t).tokens).bind fun events =>
      (m.trackByTrack (n + events.length) tracks).map (events ++ ·)

/-- Reading so many tokens of a message, or a part of it on its own. -/
def reading (native tokens : List Token) (s : Progress) : Except S4676Error Progress :=
  s.run platform parser (native.flatMap Token.raw) tokens

/-- What a point holds is what its own `tp` element gives read on its own, with the status of its segment. -/
def Message.PointsOwned (m : Message) : Prop :=
  ∀ before first inner last after, m.tokens = before ++ ((first :: inner ++ [last]) ++ after) →
    IsElement "tp" first inner last → ∀ s, reading platform parser m.tokens before {} = .ok s →
      ∃ alone p s', reading platform parser (first :: inner ++ [last]) (first :: inner ++ [last]) {} = .ok alone ∧
        alone.walk.track.points = [p] ∧ reading platform parser m.tokens (first :: inner ++ [last]) s = .ok s' ∧
        s'.walk.track.points = s.walk.track.points ++ [{ p with status := s'.walk.segStatus }]

/-- The status known anywhere inside a segment is what the segment gives read on its own up to there. -/
def Message.StatusOwned (m : Message) : Prop :=
  ∀ before first sofar after, m.tokens = before ++ ((first :: sofar) ++ after) → first.opens = some "segment" →
    Transition.Allowed push Closes [] sofar → ∀ s, reading platform parser m.tokens before {} = .ok s →
      ∃ alone s', reading platform parser (first :: sofar) (first :: sofar) {} = .ok alone ∧
        reading platform parser m.tokens (first :: sofar) s = .ok s' ∧ s'.walk.segStatus = alone.walk.segStatus

/-- Outside the segments there is none. -/
def Message.StatusEnds (m : Message) : Prop :=
  ∀ before after s, m.tokens = before ++ after → reading platform parser m.tokens before {} = .ok s →
    "segment" ∉ s.stack → s.walk.segStatus = none

/-- Tracks, points and segments do not leak into each other. -/
structure Message.Isolated (m : Message) : Prop where
  events : toEvents platform parser m.tokens = m.trackByTrack platform parser 0 m.tracks
  points : m.PointsOwned platform parser
  status : m.StatusOwned platform parser
  outside : m.StatusEnds platform parser

/-- What is read inside a track that opens where nothing but these facts about the message is known. -/
def TrackPart.walk (t : TrackPart) (msg : MessageCtx) (opened : List String) : Walk :=
  ({ msg := msg } : Walk).through platform ("track" :: opened) t.inner

/-- The events of a track that closes after these events. -/
def TrackPart.events (t : TrackPart) (msg : MessageCtx) (opened : List String) (out : List Event) :
    Except S4676Error (List Event) :=
  flushTrack platform parser (t.walk platform msg opened).track (t.elementTokens.flatMap Token.raw) msg
    (t.walk platform msg opened).track.points out

def partByPart (msg : MessageCtx) (opened : List String) : List Event → List TrackPart → Except S4676Error (List Event)
  | out, [] => .ok out
  | out, t :: tracks => (t.events platform parser msg opened out).bind fun out => partByPart msg opened out tracks

/-- The facts the header states about the message. -/
def Message.facts (m : Message) : MessageCtx := (({} : Walk).through platform [] m.header).msg

end

end Stanag4676Model

namespace Stanag4676Proof

open EventModel TextModel Stanag4676Model

section

variable {Instant : Type} {platform : Platform Instant} {parser : S4676Parser}

theorem buildPoint_drawnFrom (track : TrackCtx) (x n k : Nat) (raw : Bytes) (msg : MessageCtx) (p : PointCtx) :
    buildPoint platform parser { track with start := x } raw msg (n + k) p =
      buildPoint (platform.drawnFrom n) parser track raw msg k p := rfl

/-- Events before it only shift the draws of a track. -/
theorem flushTrack_drawnFrom (platform : Platform Instant) (parser : S4676Parser) (track : TrackCtx) (x : Nat) (raw : Bytes) (msg : MessageCtx) (points : List PointCtx)
    (before out : List Event) :
    flushTrack platform parser { track with start := x } raw msg points (before ++ out) =
      (flushTrack (platform.drawnFrom before.length) parser track raw msg points out).map (before ++ ·) := by
  induction points generalizing out with
  | nil => rfl
  | cons p points ih =>
    rw [flushTrack, flushTrack, List.length_append, buildPoint_drawnFrom]
    cases buildPoint (platform.drawnFrom before.length) parser track raw msg out.length p with
    | error e => rfl
    | ok event =>
      dsimp only
      rw [List.append_assoc]
      exact ih (out ++ [event])

theorem after_drawnFrom (n : Nat) (w : Walk) (stack : List String) (token : Token) :
    w.after (platform.drawnFrom n) stack token = w.after platform stack token := by
  unfold Walk.after Walk.routeText parseFloats Platform.drawnFrom
  dsimp only

theorem through_drawnFrom (n : Nat) (w : Walk) (stack : List String) (tokens : List Token) :
    w.through (platform.drawnFrom n) stack tokens = w.through platform stack tokens := by
  induction tokens generalizing w stack with
  | nil => rfl
  | cons token tokens ih =>
    rw [Walk.through, Walk.through, after_drawnFrom]
    exact ih (w.after platform stack token) (push stack token)

theorem events_drawnFrom (t : TrackPart) (msg : MessageCtx) (opened : List String) (before : List Event) :
    t.events platform parser msg opened before =
      (t.events (platform.drawnFrom before.length) parser msg opened []).map (before ++ ·) := by
  have shifted := flushTrack_drawnFrom platform parser (t.walk platform msg opened).track
    (t.walk platform msg opened).track.start (t.elementTokens.flatMap Token.raw) msg
    (t.walk platform msg opened).track.points before []
  rw [List.append_nil] at shifted
  rw [TrackPart.events, TrackPart.events, TrackPart.walk, TrackPart.walk, through_drawnFrom]
  exact shifted

theorem flushTrack_start (track : TrackCtx) (x : Nat) (raw : Bytes) (msg : MessageCtx) (points : List PointCtx)
    (out : List Event) :
    flushTrack platform parser { track with start := x } raw msg points out =
      flushTrack platform parser track raw msg points out := by
  induction points generalizing out with
  | nil => rfl
  | cons p points ih =>
    rw [flushTrack, flushTrack]
    have same : buildPoint platform parser { track with start := x } raw msg out.length p =
        buildPoint platform parser track raw msg out.length p := rfl
    rw [same]
    cases buildPoint platform parser track raw msg out.length p with
    | error e => rfl
    | ok event => exact ih (out ++ [event])

theorem inert_quiet {token : Token} (inert : token.Inert) : token.Quiet := by
  refine ⟨?_, ?_⟩
  · rw [inert.1]
    exact (Option.some_ne_none _).symm
  · rw [inert.2.1]
    exact (Option.some_ne_none _).symm

theorem inert_push {token : Token} (inert : token.Inert) (stack : List String) : push stack token = stack := by
  rcases token with ⟨event, raw⟩
  cases event with
  | startTag name attributes => cases inert.1
  | endTag name => cases inert.2.1
  | _ => rfl

theorem inert_stack {tokens : List Token} (inert : ∀ token ∈ tokens, token.Inert) (stack : List String) :
    tokens.foldl push stack = stack := by
  induction tokens with
  | nil => rfl
  | cons token tokens ih =>
    rw [List.foldl_cons, inert_push (inert token (List.mem_cons_self ..))]
    exact ih fun token member => inert token (List.mem_cons_of_mem _ member)

theorem inert_after {token : Token} (inert : token.Inert) (stack : List String) (w : Walk) :
    w.after platform stack token = w := by
  cases token_reads platform token with
  | opened name cs opens closes push eq =>
    rw [inert.1] at opens
    cases opens
  | closed name opens closes push eq =>
    rw [inert.2.1] at closes
    cases closes
  | routed text opens closes content push eq => exact absurd inert.2.2 content
  | passed opens closes push eq => exact eq w stack

theorem inert_through (platform : Platform Instant) {tokens : List Token} (inert : ∀ token ∈ tokens, token.Inert) (stack : List String) (w : Walk) :
    w.through platform stack tokens = w := by
  induction tokens with
  | nil => rfl
  | cons token tokens ih =>
    have first := inert token (List.mem_cons_self ..)
    rw [Walk.through, inert_push first, inert_after first]
    exact ih fun token member => inert token (List.mem_cons_of_mem _ member)

theorem step_track_start {native : Bytes} (s : Progress) {token : Token} (opens : token.opens = some "track") :
    s.step platform parser native token = .ok
      { position := s.position + token.raw.length
        stack := "track" :: s.stack
        walk := { s.walk with track := { start := s.position } }
        events := s.events } := by
  rcases token with ⟨event, raw⟩
  cases event with
  | startTag name attributes =>
    have named : localName name = "track" := Option.some.inj opens
    unfold Progress.step
    dsimp only
    rw [Progress.onStart, if_pos named, named]
  | _ => cases opens

theorem step_track_end {native : Bytes} (s : Progress) {token : Token} (closes : token.closes = some "track") :
    s.step platform parser native token =
      (flushTrack platform parser s.walk.track
        (Progress.trackBytes native s.walk.track.start (s.position + token.raw.length)) s.walk.msg s.walk.track.points
        s.events).map fun events =>
          { position := s.position + token.raw.length
            stack := s.stack.tail
            walk := { s.walk with track := {} }
            events := events } := by
  rcases token with ⟨event, raw⟩
  cases event with
  | endTag name =>
    have named : localName name = "track" := Option.some.inj closes
    unfold Progress.step
    dsimp only
    unfold Progress.onEnd
    dsimp only
    rw [if_neg (by rw [named]; decide), if_neg (by rw [named]; decide), if_neg (by rw [named]; decide), if_pos named]
    cases flushTrack platform parser s.walk.track (Progress.trackBytes native s.walk.track.start (s.position + raw.length))
      s.walk.msg s.walk.track.points s.events <;> rfl
  | _ => cases closes

/-- The payload is cut out where the element stands. -/
theorem trackBytes_eq (before element rest : Bytes) :
    Progress.trackBytes (before ++ (element ++ rest)) before.length (before.length + element.length) = element := by
  have inside : before.length ≤ before.length + element.length ∧
      before.length + element.length ≤ (before ++ (element ++ rest)).length := by
    rw [List.length_append, List.length_append]
    omega
  rw [Progress.trackBytes, if_pos inside, List.drop_left, Nat.add_sub_cancel_left, List.take_left]

theorem push_opens {token : Token} {name : String} (opens : token.opens = some name) (stack : List String) :
    push stack token = name :: stack := by
  rcases token with ⟨event, raw⟩
  cases event with
  | startTag start attributes => exact congrArg (· :: stack) (Option.some.inj opens)
  | _ => cases opens

/-- A track opened where no point and no segment is under way, up to its end tag. -/
theorem open_run (platform : Platform Instant) (parser : S4676Parser) (native : Bytes) {s : Progress} {t : TrackPart}
    (contained : Transition.Allowed push Contained ("track" :: s.stack) t.inner) (tp : s.walk.tp = {})
    (status : s.walk.segStatus = none) :
    ∃ cs, s.run platform parser native (t.first :: t.inner) = .ok
      { position := s.position + ((t.first :: t.inner).flatMap Token.raw).length
        stack := "track" :: s.stack
        walk := (t.walk platform s.walk.msg s.stack).placed s.position cs
        events := s.events } := by
  have closes : Transition.Allowed push Closes [] t.inner := t.element.inner.closes
  have quiet := quiet_inside closes contained (by decide) (by simp)
  have within : t.inner.foldl push ("track" :: s.stack) = "track" :: s.stack := by
    have moved := foldl_push_append closes ("track" :: s.stack)
    rw [t.element.inner.ends] at moved
    exact moved
  have start : ({ s.walk with track := { start := s.position } } : Walk) =
      ({ msg := s.walk.msg } : Walk).placed s.position s.walk.dynamicsCs := by
    dsimp only [Walk.placed]
    rw [tp, status]
  obtain ⟨w', d', e', placed, canonical⟩ := through_placed platform (by decide : "track" ∈ containers) s.stack closes
    ({ msg := s.walk.msg } : Walk) (x := s.position) (y := 0) (d := s.walk.dynamicsCs) (e := none) fun member => by cases member
  rw [List.nil_append] at placed canonical
  have same : w'.placed s.position d' = (t.walk platform s.walk.msg s.stack).placed s.position d' := by
    have walk : t.walk platform s.walk.msg s.stack = w'.placed 0 e' := canonical
    rw [walk]
    rfl
  refine ⟨d', ?_⟩
  rw [Progress.run, step_track_start s t.element.first]
  dsimp only
  rw [run_quiet _ quiet, within, start, placed, same, List.flatMap_cons, List.length_append, Nat.add_assoc]

/-- One track read where the elements around it left nothing behind: its events are its own, and it leaves nothing
    behind either. -/
theorem part_run (platform : Platform Instant) (parser : S4676Parser) {native before rest : Bytes} {s : Progress} {t : TrackPart}
    (contained : Transition.Allowed push Contained s.stack t.tokens) (clean : Clean s.stack s.walk)
    (split : native = before ++ (t.tokens.flatMap Token.raw ++ rest)) (position : s.position = before.length) :
    ∃ cs, s.run platform parser native t.tokens =
      (t.events platform parser s.walk.msg s.stack s.events).map fun events =>
        { position := s.position + (t.tokens.flatMap Token.raw).length
          stack := s.stack
          walk := { msg := s.walk.msg, dynamicsCs := cs }
          events := events } := by
  have stillOpen := inert_stack t.blank s.stack
  have kept := inert_through platform t.blank s.stack s.walk
  rw [TrackPart.tokens, TrackPart.elementTokens, Transition.Allowed.append_iff, stillOpen, Transition.Allowed.append_iff]
    at contained
  have opens : Contained s.stack t.first := contained.2.1.1
  have inside : Transition.Allowed push Contained ("track" :: s.stack) t.inner := by
    have rest := contained.2.1.2
    rw [push_opens t.element.first] at rest
    exact rest
  -- Where the track opens, no point and no segment is open.
  obtain ⟨-, noSegment, noPoint⟩ := opens.track t.element.first
  have tp : s.walk.tp = {} := clean.tp noPoint
  have status : s.walk.segStatus = none := clean.segStatus noSegment
  -- What is read inside leaves the message's facts alone, and finishes its points and segments.
  have closes : Transition.Allowed push Closes [] t.inner := t.element.inner.closes
  have msg : (t.walk platform s.walk.msg s.stack).msg = s.walk.msg :=
    through_msg closes inside _ rfl
  have finished : Clean ("track" :: s.stack) (t.walk platform s.walk.msg s.stack) := by
    have empty : Clean ("track" :: s.stack) ({ msg := s.walk.msg } : Walk) := ⟨fun _ => rfl, fun _ => rfl⟩
    have left : Clean _ (t.walk platform s.walk.msg s.stack) :=
      through_clean empty (closes_append closes ("track" :: s.stack)) inside
    have within := foldl_push_append closes ("track" :: s.stack)
    rw [t.element.inner.ends] at within
    rw [List.nil_append] at within
    rw [within] at left
    exact left
  have noTp : (t.walk platform s.walk.msg s.stack).tp = {} := finished.tp (by simp [noPoint])
  have noStatus : (t.walk platform s.walk.msg s.stack).segStatus = none := finished.segStatus (by simp [noSegment])
  let opening : Progress :=
    { position := s.position + (t.gap.flatMap Token.raw).length, stack := s.stack, walk := s.walk, events := s.events }
  obtain ⟨cs, opened⟩ := open_run platform parser native (s := opening) inside tp status
  have payload : Progress.trackBytes native opening.position
      (opening.position + ((t.first :: t.inner).flatMap Token.raw).length + t.last.raw.length) =
        t.elementTokens.flatMap Token.raw := by
    have whole : native = (before ++ t.gap.flatMap Token.raw) ++ (t.elementTokens.flatMap Token.raw ++ rest) := by
      rw [split, TrackPart.tokens, List.flatMap_append, List.append_assoc, List.append_assoc]
    have place : opening.position = (before ++ t.gap.flatMap Token.raw).length := by
      rw [List.length_append, ← position]
    have stop : (t.elementTokens.flatMap Token.raw).length =
        ((t.first :: t.inner).flatMap Token.raw).length + t.last.raw.length := by
      rw [TrackPart.elementTokens, List.flatMap_append, List.length_append, List.flatMap_singleton]
    rw [whole, place, Nat.add_assoc, ← stop]
    exact trackBytes_eq _ _ _
  have stop : s.position + (t.gap.flatMap Token.raw).length + ((t.first :: t.inner).flatMap Token.raw).length +
      t.last.raw.length = s.position + ((t.gap ++ (t.first :: t.inner ++ [t.last])).flatMap Token.raw).length := by
    rw [List.flatMap_append, List.length_append, List.flatMap_append, List.length_append, List.flatMap_singleton]
    omega
  refine ⟨cs, ?_⟩
  rw [TrackPart.tokens, run_append, run_quiet s fun token member => inert_quiet (t.blank token member), stillOpen, kept]
  change Progress.run platform parser native opening t.elementTokens = _
  rw [TrackPart.elementTokens, run_append, opened]
  dsimp only [Except.bind]
  rw [Progress.run, step_track_end _ t.element.last]
  dsimp only [Walk.placed]
  rw [payload, msg, flushTrack_start, TrackPart.events]
  dsimp only [opening]
  rw [noTp, noStatus, stop]
  cases flushTrack platform parser (t.walk platform s.walk.msg s.stack).track (t.elementTokens.flatMap Token.raw) s.walk.msg
    (t.walk platform s.walk.msg s.stack).track.points s.events <;> rfl

theorem closes_of_opens {token : Token} {name : String} (opens : token.opens = some name) : token.closes = none := by
  rcases token with ⟨event, raw⟩
  cases event with
  | startTag start attributes => rfl
  | _ => cases opens

theorem opens_of_closes {token : Token} {name : String} (closes : token.closes = some name) : token.opens = none := by
  rcases token with ⟨event, raw⟩
  cases event with
  | endTag stop => rfl
  | _ => cases closes

theorem quiet_of_opens {token : Token} {name : String} (opens : token.opens = some name) (other : name ≠ "track") :
    token.Quiet := by
  refine ⟨fun track => other (Option.some.inj (opens.symm.trans track)), ?_⟩
  rw [closes_of_opens opens]
  exact (Option.some_ne_none _).symm

theorem quiet_of_closes {token : Token} {name : String} (closes : token.closes = some name) (other : name ≠ "track") :
    token.Quiet := by
  refine ⟨?_, fun track => other (Option.some.inj (closes.symm.trans track))⟩
  rw [opens_of_closes closes]
  exact (Option.some_ne_none _).symm

theorem except_map_ok {α β : Type} {f : α → β} {x : Except S4676Error α} {b : β} (mapped : x.map f = .ok b) :
    ∃ a, x = .ok a ∧ b = f a := by
  cases x with
  | error e => cases mapped
  | ok a =>
    cases mapped
    exact ⟨a, rfl, rfl⟩

theorem push_closes {token : Token} {name : String} (closes : token.closes = some name) (stack : List String) :
    push stack token = stack.tail := by
  rcases token with ⟨event, raw⟩
  cases event with
  | endTag stop => rfl
  | _ => cases closes

theorem part_stack (t : TrackPart) (stack : List String) : t.tokens.foldl push stack = stack := by
  have within := foldl_push_append t.element.inner.closes ("track" :: stack)
  rw [t.element.inner.ends, List.nil_append] at within
  have inside : (t.first :: t.inner).foldl push stack = "track" :: stack := by
    rw [List.foldl_cons, push_opens t.element.first, within]
  rw [TrackPart.tokens, TrackPart.elementTokens, List.foldl_append, inert_stack t.blank, List.foldl_append, inside,
    List.foldl_cons, push_closes t.element.last]
  rfl

/-- The tracks of a message one after the other. -/
theorem tracks_run {native before : Bytes} {footer : List Token} (quiet : ∀ token ∈ footer, token.Quiet)
    {tracks : List TrackPart} {s : Progress} (contained : ∀ t ∈ tracks, Transition.Allowed push Contained s.stack t.tokens)
    (clean : Clean s.stack s.walk)
    (split : native = before ++ (tracks.flatMap TrackPart.tokens ++ footer).flatMap Token.raw)
    (position : s.position = before.length) :
    (s.run platform parser native (tracks.flatMap TrackPart.tokens ++ footer)).map (·.events) =
      partByPart platform parser s.walk.msg s.stack s.events tracks := by
  induction tracks generalizing s before with
  | nil =>
    rw [List.flatMap_nil, List.nil_append, run_quiet s quiet]
    rfl
  | cons t tracks ih =>
    rw [List.flatMap_cons, List.append_assoc, List.flatMap_append] at split
    obtain ⟨cs, read⟩ := part_run platform parser (contained t (List.mem_cons_self ..)) clean split position
    rw [List.flatMap_cons, List.append_assoc, run_append, read, partByPart]
    cases t.events platform parser s.walk.msg s.stack s.events with
    | error e => rfl
    | ok events =>
      have later : native = (before ++ t.tokens.flatMap Token.raw) ++
          (tracks.flatMap TrackPart.tokens ++ footer).flatMap Token.raw := by rw [split, List.append_assoc]
      have place : s.position + (t.tokens.flatMap Token.raw).length = (before ++ t.tokens.flatMap Token.raw).length := by
        rw [List.length_append, position]
      exact ih (s := ⟨_, s.stack, { msg := s.walk.msg, dynamicsCs := cs }, events⟩)
        (fun t member => contained t (List.mem_cons_of_mem _ member)) ⟨fun _ => rfl, fun _ => rfl⟩ later place

section

variable (m : Message)

theorem header_tags : (∀ token ∈ m.header, token.Quiet) ∧ "track" ∉ m.opened := by
  have unopened : ∀ token ∈ m.header, token.opens ≠ some "track" := fun token member =>
    m.outside token (List.mem_append_left _ member)
  obtain ⟨unclosed, absent⟩ := never_closed m.headerCloses (by simp) unopened
  exact ⟨fun token member => ⟨unopened token member, unclosed token member⟩, absent⟩

theorem footer_quiet : ∀ token ∈ m.footer, token.Quiet := by
  have unopened : ∀ token ∈ m.footer, token.opens ≠ some "track" := fun token member =>
    m.outside token (List.mem_append_right _ member)
  exact fun token member =>
    ⟨unopened token member, (never_closed m.footerCloses (header_tags m).2 unopened).1 token member⟩

theorem message_events (parser : S4676Parser) (platform : Platform Instant) (header : Transition.Allowed push Contained [] m.header)
    (contained : ∀ t ∈ m.tracks, Transition.Allowed push Contained m.opened t.tokens) :
    toEvents platform parser m.tokens = partByPart platform parser (m.facts platform) m.opened [] m.tracks := by
  have clean : Clean m.opened (({} : Walk).through platform [] m.header) :=
    through_clean ⟨fun _ => rfl, fun _ => rfl⟩ m.headerCloses header
  rw [toEvents, Message.tokens, run_append, run_quiet _ (header_tags m).1]
  have split : (m.header ++ (m.tracks.flatMap TrackPart.tokens ++ m.footer)).flatMap Token.raw =
      m.header.flatMap Token.raw ++ (m.tracks.flatMap TrackPart.tokens ++ m.footer).flatMap Token.raw := List.flatMap_append
  exact tracks_run (footer_quiet m) (s := ⟨_, _, _, _⟩) contained clean split (Nat.zero_add _)

theorem parts_contained (contained : Transition.Allowed push Contained [] m.tokens) :
    Transition.Allowed push Contained [] m.header ∧ ∀ t ∈ m.tracks, Transition.Allowed push Contained m.opened t.tokens := by
  rw [Message.tokens, Transition.Allowed.append_iff, Transition.Allowed.append_iff] at contained
  refine ⟨contained.1, ?_⟩
  have parts := contained.2.1
  clear contained
  change Transition.Allowed push Contained m.opened (m.tracks.flatMap TrackPart.tokens) at parts
  generalize m.tracks = tracks at parts
  induction tracks with
  | nil => exact fun _ member => by cases member
  | cons t tracks ih =>
    rw [List.flatMap_cons, Transition.Allowed.append_iff, part_stack] at parts
    intro other member
    rcases List.mem_cons.mp member with rfl | later
    · exact parts.1
    · exact ih parts.2 other later

theorem facts_drawnFrom (n : Nat) : m.facts (platform.drawnFrom n) = m.facts platform := by
  rw [Message.facts, through_drawnFrom]
  rfl

/-- Read one after the other, the tracks add what each of them gives alone. -/
theorem partByPart_eq (header : Transition.Allowed push Contained [] m.header) {tracks : List TrackPart}
    (contained : ∀ t ∈ tracks, Transition.Allowed push Contained m.opened t.tokens) (out : List Event) :
    partByPart platform parser (m.facts platform) m.opened out tracks =
      (m.trackByTrack platform parser out.length tracks).map (out ++ ·) := by
  induction tracks generalizing out with
  | nil => exact congrArg Except.ok (List.append_nil out).symm
  | cons t tracks ih =>
    have alone : toEvents (platform.drawnFrom out.length) parser (m.only t).tokens =
        t.events (platform.drawnFrom out.length) parser (m.facts platform) m.opened [] := by
      have single := message_events (m.only t) parser (platform.drawnFrom out.length) header fun other member => by
        rw [List.mem_singleton.mp member]
        exact contained t (List.mem_cons_self ..)
      have facts : (m.only t).facts (platform.drawnFrom out.length) = m.facts platform := facts_drawnFrom m out.length
      rw [single, facts]
      change (t.events _ parser (m.facts platform) m.opened []).bind (fun out => Except.ok out) = _
      cases t.events (platform.drawnFrom out.length) parser (m.facts platform) m.opened [] <;> rfl
    rw [partByPart, Message.trackByTrack, alone, events_drawnFrom t (m.facts platform) m.opened out]
    cases t.events (platform.drawnFrom out.length) parser (m.facts platform) m.opened [] with
    | error e => rfl
    | ok events =>
      change partByPart platform parser (m.facts platform) m.opened (out ++ events) tracks = _
      rw [ih (fun t member => contained t (List.mem_cons_of_mem _ member)), List.length_append]
      dsimp only [Except.bind]
      cases m.trackByTrack platform parser (out.length + events.length) tracks with
      | error e => rfl
      | ok more => exact congrArg Except.ok (List.append_assoc out events more)

end

theorem part_closes (t : TrackPart) (stack : List String) : Transition.Allowed push Closes stack t.tokens := by
  have gap : ∀ tokens : List Token, (∀ token ∈ tokens, token.Inert) → Transition.Allowed push Closes stack tokens := by
    intro tokens inert
    induction tokens with
    | nil => trivial
    | cons token tokens ih =>
      have first := inert token (List.mem_cons_self ..)
      refine ⟨Or.inl first.2.1, ?_⟩
      rw [inert_push first]
      exact ih fun token member => inert token (List.mem_cons_of_mem _ member)
  have within := foldl_push_append t.element.inner.closes ("track" :: stack)
  have inner := closes_append t.element.inner.closes ("track" :: stack)
  rw [t.element.inner.ends, List.nil_append] at within
  rw [List.nil_append] at inner
  rw [TrackPart.tokens, TrackPart.elementTokens, Transition.Allowed.append_iff, inert_stack t.blank,
    Transition.Allowed.append_iff, List.foldl_cons, push_opens t.element.first, within]
  refine ⟨gap t.gap t.blank, ⟨Or.inl (closes_of_opens t.element.first), ?_⟩, Or.inr t.element.last, trivial⟩
  rw [push_opens t.element.first]
  exact inner

theorem message_closes (m : Message) : Transition.Allowed push Closes [] m.tokens := by
  have parts : ∀ (tracks : List TrackPart) (stack : List String),
      Transition.Allowed push Closes stack (tracks.flatMap TrackPart.tokens) ∧
        (tracks.flatMap TrackPart.tokens).foldl push stack = stack := by
    intro tracks stack
    induction tracks with
    | nil => exact ⟨trivial, rfl⟩
    | cons t tracks ih =>
      rw [List.flatMap_cons, Transition.Allowed.append_iff, List.foldl_append, part_stack]
      exact ⟨⟨part_closes t stack, ih.1⟩, ih.2⟩
  obtain ⟨closes, same⟩ := parts m.tracks m.opened
  rw [Message.tokens, Transition.Allowed.append_iff, Transition.Allowed.append_iff]
  refine ⟨m.headerCloses, closes, ?_⟩
  change Transition.Allowed push Closes ((m.tracks.flatMap TrackPart.tokens).foldl push m.opened) m.footer
  rw [same]
  exact m.footerCloses

theorem step_clean {native : Bytes} {s s' : Progress} {token : Token} (clean : Clean s.stack s.walk)
    (closes : Closes s.stack token) (inside : InsidePoint s.stack token)
    (stepped : s.step platform parser native token = .ok s') : s'.stack = push s.stack token ∧ Clean s'.stack s'.walk := by
  by_cases opening : token.opens = some "track"
  · rw [step_track_start s opening] at stepped
    cases stepped
    exact ⟨(push_opens opening s.stack).symm, fun outside => clean.tp fun member => outside (List.mem_cons_of_mem _ member),
      fun outside => clean.segStatus fun member => outside (List.mem_cons_of_mem _ member)⟩
  by_cases closing : token.closes = some "track"
  · have top := top_of_closes closes closing
    rw [step_track_end s closing] at stepped
    obtain ⟨events, -, rfl⟩ := except_map_ok stepped
    exact ⟨(push_closes closing s.stack).symm,
      fun outside => clean.tp fun member => outside (mem_tail_of_closed top (by decide) member),
      fun outside => clean.segStatus fun member => outside (mem_tail_of_closed top (by decide) member)⟩
  · rw [step_quiet s ⟨opening, closing⟩] at stepped
    cases stepped
    exact ⟨rfl, after_clean clean closes inside⟩

theorem run_clean {native : Bytes} {tokens : List Token} {s s' : Progress} (clean : Clean s.stack s.walk)
    (closes : Transition.Allowed push Closes s.stack tokens) (inside : Transition.Allowed push InsidePoint s.stack tokens)
    (read : s.run platform parser native tokens = .ok s') : s'.stack = tokens.foldl push s.stack ∧ Clean s'.stack s'.walk := by
  induction tokens generalizing s with
  | nil =>
    cases read
    exact ⟨rfl, clean⟩
  | cons token tokens ih =>
    rw [Progress.run] at read
    cases stepped : s.step platform parser native token with
    | error e =>
      rw [stepped] at read
      cases read
    | ok next =>
      rw [stepped] at read
      obtain ⟨stack, cleanNext⟩ := step_clean clean closes.1 inside.1 stepped
      have moreCloses := closes.2
      have moreInside := inside.2
      rw [← stack] at moreCloses moreInside
      have rest := ih cleanNext moreCloses moreInside read
      rw [stack] at rest
      exact rest

theorem through_append (w : Walk) (stack : List String) (before after : List Token) :
    w.through platform stack (before ++ after) =
      (w.through platform stack before).through platform (before.foldl push stack) after := by
  induction before generalizing w stack with
  | nil => rfl
  | cons token before ih => exact ih (w.after platform stack token) (push stack token)

theorem after_opens {token : Token} {name : String} (opens : token.opens = some name) (other : name ≠ "dynamics")
    (w : Walk) (stack : List String) : w.after platform stack token = w := by
  cases token_reads platform token with
  | opened found cs opens' closes push eq =>
    rw [opens] at opens'
    rw [eq, ← Option.some.inj opens', if_neg other]
  | closed found opens' closes push eq =>
    rw [opens] at opens'
    cases opens'
  | routed text opens' closes content push eq =>
    rw [opens] at opens'
    cases opens'
  | passed opens' closes push eq => exact eq w stack

theorem after_closes {token : Token} {name : String} (closes : token.closes = some name) (w : Walk) (stack : List String) :
    w.after platform stack token = w.close name := by
  rcases token with ⟨event, raw⟩
  cases event with
  | endTag stop => exact congrArg w.close (Option.some.inj closes)
  | _ => cases closes

/-- A `tp` element opened outside any other: the point it adds, wherever it stands. -/
theorem point_through {first last : Token} {inner : List Token} (element : IsElement "tp" first inner last)
    (unopened : ∀ token ∈ inner, token.opens ≠ some "tp") (stack : List String) (w : Walk) :
    (w.through platform stack (first :: inner ++ [last])).track.points = w.track.points ++
        [{ (w.through platform ("tp" :: stack) inner).tp with
            status := (w.through platform stack (first :: inner ++ [last])).segStatus }] := by
  have closes := element.inner.closes
  have within := foldl_push_append closes ("tp" :: stack)
  rw [element.inner.ends, List.nil_append] at within
  have unclosed := (never_closed closes (by simp) unopened).1
  have read : w.through platform stack (first :: inner ++ [last]) = (w.through platform ("tp" :: stack) inner).close "tp" := by
    have started : w.through platform stack (first :: inner) = w.through platform ("tp" :: stack) inner := by
      rw [Walk.through, push_opens element.first, after_opens element.first (by decide)]
    rw [through_append, List.foldl_cons, push_opens element.first, within, started, Walk.through, Walk.through,
      after_closes element.last]
  rw [read]
  unfold Walk.close
  rw [if_pos rfl]
  dsimp only
  rw [through_points w unclosed]

section

variable {m : Message} (contained : Transition.Allowed push Contained [] m.tokens)

include contained

/-- Up to any place of a contained message: the open elements, and nothing left over from closed ones. -/
theorem reading_clean {before after : List Token} {s : Progress} (split : m.tokens = before ++ after)
    (read : reading platform parser m.tokens before {} = .ok s) :
    Clean s.stack s.walk ∧ Transition.Allowed push Contained s.stack after := by
  have closes := message_closes m
  rw [split, Transition.Allowed.append_iff] at closes contained
  have start : Clean ({} : Progress).stack ({} : Progress).walk := ⟨fun _ => rfl, fun _ => rfl⟩
  obtain ⟨stack, clean⟩ := run_clean start closes.1 (contained.1.mono fun _ _ contained => contained.dynamics) read
  rw [stack]
  exact ⟨stack ▸ clean, contained.2⟩

theorem points_owned : m.PointsOwned platform parser := by
  intro before first inner last after split element s read
  obtain ⟨clean, ahead⟩ := reading_clean contained split read
  rw [Transition.Allowed.append_iff, Transition.Allowed.append_iff] at ahead
  have noPoint : s.walk.tp = {} := clean.tp (ahead.1.1.1.tp element.first)
  have inside : Transition.Allowed push Contained ("tp" :: s.stack) inner := by
    have rest := ahead.1.1.2
    rw [push_opens element.first] at rest
    exact rest
  have closes := element.inner.closes
  have unopened := unopened_inside closes inside "tp" fun stack token member contained opens => contained.tp opens member
  have quiet : ∀ token ∈ first :: inner ++ [last], token.Quiet := by
    intro token member
    rcases List.mem_append.mp member with member | member
    · rcases List.mem_cons.mp member with rfl | member
      · exact quiet_of_opens element.first (by decide)
      · exact quiet_inside closes inside (by decide) (by simp) token member
    · rw [List.mem_singleton.mp member]
      exact quiet_of_closes element.last (by decide)
  have same : (s.walk.through platform ("tp" :: s.stack) inner).tp = (({} : Walk).through platform ["tp"] inner).tp :=
    through_tp_congr (by decide) s.stack [] closes noPoint fun member => by cases member
  refine ⟨_, _, _, run_quiet _ quiet, point_through element unopened [] {}, run_quiet s quiet, ?_⟩
  rw [point_through element unopened s.stack s.walk, same]

theorem status_owned : m.StatusOwned platform parser := by
  intro before first sofar after split opens closes s read
  obtain ⟨clean, ahead⟩ := reading_clean contained split read
  rw [Transition.Allowed.append_iff] at ahead
  have noStatus : s.walk.segStatus = none := clean.segStatus (ahead.1.1.segment opens)
  have inside : Transition.Allowed push Contained ("segment" :: s.stack) sofar := by
    have rest := ahead.1.2
    rw [push_opens opens] at rest
    exact rest
  have quiet : ∀ token ∈ first :: sofar, token.Quiet := by
    intro token member
    rcases List.mem_cons.mp member with rfl | member
    · exact quiet_of_opens opens (by decide)
    · exact quiet_inside closes inside (by decide) (by simp) token member
  refine ⟨_, _, run_quiet _ quiet, run_quiet s quiet, ?_⟩
  dsimp only
  rw [Walk.through, Walk.through, push_opens opens, push_opens opens, after_opens opens (by decide), after_opens opens (by decide)]
  exact through_segStatus_congr (by decide) s.stack [] closes noStatus

theorem status_ends : m.StatusEnds platform parser := fun _ _ _ split read outside =>
  (reading_clean contained split read).1.segStatus outside

/-- In a message whose tokens all stay within the element they are about, the tracks, points and segments do not leak
    into each other. -/
theorem contained_message_is_isolated : m.Isolated platform parser where
  events := by
    obtain ⟨header, parts⟩ := parts_contained m contained
    rw [message_events m parser platform header parts, partByPart_eq m header parts []]
    cases m.trackByTrack platform parser 0 m.tracks <;> rfl
  points := points_owned contained
  status := status_owned contained
  outside := status_ends contained

end

end

end Stanag4676Proof

namespace Stanag4676Model

def startToken (name : String) : Token := ⟨.startTag name [], rawText ("<" ++ name ++ ">")⟩

def endToken (name : String) : Token := ⟨.endTag name, rawText ("</" ++ name ++ ">")⟩

/-- What a track with one point, or with a label of its own and no point, holds. -/
def pointInner : List Token := element "segment" (element "tp" [])

def labelInner : List Token := label "metadataConfidentialityLabel" "SECRET"

end Stanag4676Model

namespace Stanag4676Proof

open EventModel TextModel Stanag4676Model

theorem pointInner_element : IsElement "track" (startToken "track") pointInner (endToken "track") :=
  ⟨by decide, ⟨by decide, by decide⟩, by decide⟩

theorem labelInner_element : IsElement "track" (startToken "track") labelInner (endToken "track") :=
  ⟨by decide, ⟨by decide, by decide⟩, by decide⟩

theorem no_gap : ∀ token ∈ ([] : List Token), token.Inert := fun _ member => by cases member

theorem root_closes : Transition.Allowed push Closes [] [startToken "nitsRoot", startToken "message"] := by decide

theorem footer_closes : Transition.Allowed push Closes ([startToken "nitsRoot", startToken "message"].foldl push [])
    [endToken "message", endToken "nitsRoot"] := by decide

theorem root_ends : [endToken "message", endToken "nitsRoot"].foldl push
    ([startToken "nitsRoot", startToken "message"].foldl push []) = [] := by decide

theorem root_outside : ∀ token ∈ [startToken "nitsRoot", startToken "message"] ++ [endToken "message", endToken "nitsRoot"],
    token.opens ≠ some "track" := by decide

end Stanag4676Proof

namespace Stanag4676Model

open Stanag4676Proof

def pointTrack : TrackPart := ⟨[], startToken "track", pointInner, endToken "track", no_gap, pointInner_element⟩

def labelTrack : TrackPart := ⟨[], startToken "track", labelInner, endToken "track", no_gap, labelInner_element⟩

/-- A message with these tracks and nothing else. -/
def messageOf (tracks : List TrackPart) : Message :=
  ⟨[startToken "nitsRoot", startToken "message"], tracks, [endToken "message", endToken "nitsRoot"], root_closes, footer_closes,
    root_ends, root_outside⟩

end Stanag4676Model

namespace Stanag4676Proof

open EventModel TextModel Stanag4676Model

theorem two_point_tracks_are_isolated : (messageOf [pointTrack, pointTrack]).Isolated testPlatform testParser :=
  contained_message_is_isolated (by decide)

/-- The label of the first track is stamped on the point of the second. -/
theorem label_leaks_into_next_track : ¬ ∀ m : Message, m.Isolated testPlatform testParser := by
  intro claim
  have same := (claim (messageOf [labelTrack, pointTrack])).events
  have whole : (toEvents testPlatform testParser (messageOf [labelTrack, pointTrack]).tokens).toOption.map
      (List.map Event.policyTags) = some [["class:secret"]] := by decide
  have alone : ((messageOf [labelTrack, pointTrack]).trackByTrack testPlatform testParser 0
      (messageOf [labelTrack, pointTrack]).tracks).toOption.map (List.map Event.policyTags) = some [[]] := by decide
  rw [same, alone] at whole
  exact absurd whole (by decide)

end Stanag4676Proof

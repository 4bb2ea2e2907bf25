import AjarConnectors.Cot.Outcome

namespace CotModel

open EventModel TextModel BuilderModel

inductive Tag where
  | start (name : String) (attributes : List (String × String))
  | empty (name : String) (attributes : List (String × String))
  | close (name : String)
  /-- A declaration or a processing instruction. -/
  | other

/-- What stands between two tags; `other` is a comment, a reference or a CDATA section. -/
inductive Content where
  | text (content : String)
  | other

namespace Tag

def event : Tag → XmlEvent
  | start name attributes => .start name attributes
  | empty name attributes => .empty name attributes
  | close _ => .other
  | other => .other

/-- The elements open behind a tag, innermost first. -/
def within (opened : List String) : Tag → List String
  | start name _ => name :: opened
  | close _ => opened.tail
  | _ => opened

/-- An end tag closes the innermost element. -/
def Fits (opened : List String) : Tag → Prop
  | close name => opened.head? = some name
  | _ => True

/-- A confidence element with a value attribute. -/
def Gives (tag : Tag) : Prop := (Registers.latest (valued "confidence" "value") tag.event.writes).isSome = true

end Tag

def Content.event : Content → XmlEvent
  | .text content => .text content
  | .other => .other

def Content.text? : Content → Option String
  | .text content => some content
  | .other => none

/-- A tag, with what stands between it and the next. -/
structure Piece where
  tag : Tag
  content : List Content

def Piece.events (piece : Piece) : List XmlEvent := piece.tag.event :: piece.content.map Content.event

structure Document where
  lead : List Content
  pieces : List Piece

def Document.events (d : Document) : List XmlEvent := d.lead.map Content.event ++ d.pieces.flatMap Piece.events

def Blank (content : List Content) : Prop := ∀ s, .text s ∈ content → trim s = ""

/-- Elements are closed in turn, and outside them all there is only white space. -/
def Nested : List String → List Piece → Prop
  | opened, [] => opened = []
  | opened, piece :: later =>
    piece.tag.Fits opened ∧ (piece.tag.within opened = [] → Blank piece.content) ∧ Nested (piece.tag.within opened) later

structure WellFormed (d : Document) : Prop where
  lead : Blank d.lead
  nested : Nested [] d.pieces

/-- The same tags, and the same content wherever a confidence element is open. -/
def SameInside : List String → List Piece → List Piece → Prop
  | _, [], [] => True
  | opened, a :: as, b :: bs =>
    a.tag = b.tag ∧ ("confidence" ∈ a.tag.within opened → a.content = b.content) ∧ SameInside (a.tag.within opened) as bs
  | _, _, _ => False

def Sought.read (s : Sought) (content : List Content) : Sought := content.foldl (fun s c => s.step c.event) s

def Sought.piece (s : Sought) (piece : Piece) : Sought := (s.step piece.tag.event).read piece.content

/-- Behind a tag and what stands inside a confidence element. -/
def Sought.inside (opened : List String) (s : Sought) (piece : Piece) : Sought :=
  if "confidence" ∈ piece.tag.within opened then s.piece piece else s.step piece.tag.event

/-- Somewhere outside every confidence element, though inside some element, the next text is taken for a confidence: a
    confidence element without text stands before, no number has been found in one, and no value comes later. -/
def Leaks (floats : Floats) : List String → Sought → List Piece → Prop
  | _, _, [] => False
  | opened, s, piece :: later =>
    (piece.tag.within opened ≠ [] ∧ "confidence" ∉ piece.tag.within opened ∧ (s.step piece.tag.event).waiting = true ∧
      (∀ text ∈ (s.step piece.tag.event).texts, floats.parse text = none) ∧ ∀ q ∈ later, ¬ q.tag.Gives) ∨
    Leaks floats (piece.tag.within opened) (s.inside opened piece) later

/-- The confidence of the event, if there is one. -/
def confidenceMade (made : Except CotError Event) : Option F64 := made.toOption.map Event.confidence

end CotModel

namespace CotProof

open EventModel BuilderModel CotModel Registers TextModel

instance (tag : Tag) : Decidable tag.Gives :=
  inferInstanceAs (Decidable ((Registers.latest (valued "confidence" "value") tag.event.writes).isSome = true))

instance decidableLeaks (floats : Floats) : ∀ opened s pieces, Decidable (Leaks floats opened s pieces)
  | _, _, [] => inferInstanceAs (Decidable False)
  | opened, s, piece :: later =>
    have := decidableLeaks floats (piece.tag.within opened) (s.inside opened piece) later
    inferInstanceAs (Decidable ((piece.tag.within opened ≠ [] ∧ "confidence" ∉ piece.tag.within opened ∧
      (s.step piece.tag.event).waiting = true ∧ (∀ text ∈ (s.step piece.tag.event).texts, floats.parse text = none) ∧
      ∀ q ∈ later, ¬ q.tag.Gives) ∨ Leaks floats (piece.tag.within opened) (s.inside opened piece) later))

section

variable {floats : Floats}

theorem confidence_none_iff (s : Sought) : s.confidence floats = none ↔ ∀ text ∈ s.texts, floats.parse text = none := by
  rw [Sought.confidence, List.findSome?_eq_none_iff]
  apply forall₂_congr
  intro text _
  rw [normalizeConfidence, Option.map_eq_none_iff]

theorem text_waiting {s : Sought} (waiting : s.waiting = true) (content : String) :
    s.step (.text content) = { waiting := false, texts := s.texts ++ [trim content] } := by
  rw [Sought.step, if_pos waiting]

theorem text_idle {s : Sought} (idle : s.waiting = false) (content : String) : s.step (.text content) = s := by
  rw [Sought.step, idle]
  rfl

theorem read_idle {s : Sought} (idle : s.waiting = false) (content : List Content) : s.read content = s := by
  induction content with
  | nil => rfl
  | cons c content ih =>
    have here : s.step c.event = s := by
      cases c with
      | text t => exact text_idle idle t
      | other => rfl
    rw [Sought.read, List.foldl_cons, here]
    exact ih

/-- Only the first text counts, and only if one is waited for. -/
theorem read_eq (s : Sought) (content : List Content) :
    s.read content = if s.waiting then
      match content.findSome? Content.text? with
      | some t => { waiting := false, texts := s.texts ++ [trim t] }
      | none => s
    else s := by
  cases waiting : s.waiting with
  | false =>
    rw [read_idle waiting]
    rfl
  | true =>
    induction content with
    | nil => rfl
    | cons c content ih =>
      cases c with
      | other => exact ih
      | text t =>
        change (s.step (.text t)).read content = _
        rw [text_waiting waiting]
        exact read_idle rfl content

theorem read_waits {s : Sought} {content : List Content} (waiting : (s.read content).waiting = true) : s.waiting = true := by
  cases idle : s.waiting with
  | true => rfl
  | false =>
    rw [read_idle idle, idle] at waiting
    cases waiting

theorem confidence_concat (texts : List String) (text : String) (waiting : Bool) :
    (Sought.mk waiting (texts ++ [text])).confidence floats =
      ((Sought.mk waiting texts).confidence floats).or (normalizeConfidence floats text) := by
  simp [Sought.confidence, List.findSome?_append]

theorem read_confidence (s : Sought) (content : List Content) :
    (s.read content).confidence floats = if s.waiting then
      (s.confidence floats).or ((content.findSome? Content.text?).bind fun t => normalizeConfidence floats (trim t))
    else s.confidence floats := by
  rw [read_eq]
  cases s.waiting with
  | false => rfl
  | true =>
    cases content.findSome? Content.text? with
    | none => exact (Option.or_none).symm
    | some t => exact confidence_concat s.texts (trim t) false

/-- A number that was found stays. -/
theorem read_keeps {s : Sought} {v : F64} (found : s.confidence floats = some v) (content : List Content) :
    (s.read content).confidence floats = some v := by
  rw [read_confidence, found, Option.some_or, ite_self]

theorem read_blank (empty : floats.parse "" = none) {content : List Content} (blank : Blank content) (s : Sought) :
    (s.read content).confidence floats = s.confidence floats := by
  rw [read_confidence]
  cases first : content.findSome? Content.text? with
  | none => simp
  | some t =>
    obtain ⟨c, member, said⟩ := List.exists_of_findSome?_eq_some first
    have white : trim t = "" := by
      cases c with
      | text t' =>
        cases said
        exact blank t member
      | other => cases said
    have nothing : normalizeConfidence floats "" = none := by
      rw [normalizeConfidence, empty]
      rfl
    simp [white, nothing]

/-- Behind the tag of a confidence element, with the value it gives. -/
def Sought.entered (s : Sought) (value : Option String) : Sought where
  waiting := true
  texts := match value with
    | some v => [v]
    | none => s.texts

/-- A tag that has nothing to do with the confidence. -/
structure Unconcerned (tag : Tag) : Prop where
  same : ∀ s : Sought, s.step tag.event = s
  silent : ¬ tag.Gives
  around : ∀ opened, "confidence" ∈ tag.within opened → "confidence" ∈ opened

theorem named_cases {tag : Tag} {name : String} {attributes : List (String × String)}
    (step : ∀ s : Sought, s.step tag.event = s.tag name attributes)
    (writes : tag.event.writes = attributes.map fun a => (name, a.1, a.2))
    (within : ∀ opened, "confidence" ∈ tag.within opened → "confidence" = name ∨ "confidence" ∈ opened) :
    Unconcerned tag ∨
      ∀ s : Sought, s.step tag.event = Sought.entered s (latest (valued "confidence" "value") tag.event.writes) := by
  by_cases confidence : name = "confidence"
  · right
    intro s
    rw [step, Sought.tag, if_pos confidence, writes, confidence]
    rfl
  · left
    constructor
    · intro s
      rw [step, Sought.tag, if_neg confidence]
    · rw [Tag.Gives, writes, valued_elsewhere confidence]
      exact Bool.false_ne_true
    · intro opened member
      exact (within opened member).resolve_left fun same => confidence same.symm

theorem tag_cases (tag : Tag) :
    Unconcerned tag ∨
      ∀ s : Sought, s.step tag.event = Sought.entered s (latest (valued "confidence" "value") tag.event.writes) := by
  cases tag with
  | start name attributes => exact named_cases (fun _ => rfl) rfl fun _ member => List.mem_cons.mp member
  | empty name attributes => exact named_cases (fun _ => rfl) rfl fun _ member => Or.inr member
  | close name => exact Or.inl ⟨fun _ => rfl, Bool.false_ne_true, fun _ member => List.mem_of_mem_tail member⟩
  | other => exact Or.inl ⟨fun _ => rfl, Bool.false_ne_true, fun _ member => member⟩

/-- A run that has read texts outside the confidence elements beside one that has not, with what is still to be read. -/
structure Follows (floats : Floats) (opened : List String) (s b : Sought) (ahead : List Piece) : Prop where
  waits : s.waiting = true → b.waiting = true
  inside : "confidence" ∈ opened → s.waiting = b.waiting
  found : s.confidence floats = b.confidence floats ∨ ∃ q ∈ ahead, q.tag.Gives

theorem tag_follows {opened : List String} {s b : Sought} {piece : Piece} {later : List Piece}
    (follows : Follows floats opened s b (piece :: later)) :
    Follows floats (piece.tag.within opened) (s.step piece.tag.event) (b.step piece.tag.event) later := by
  rcases tag_cases piece.tag with unconcerned | confident
  · rw [unconcerned.same, unconcerned.same]
    apply Follows.mk follows.waits
    · exact fun member => follows.inside (unconcerned.around opened member)
    · rcases follows.found with same | ⟨q, member, gives⟩
      · exact Or.inl same
      · rcases List.mem_cons.mp member with rfl | member
        · exact absurd gives unconcerned.silent
        · exact Or.inr ⟨q, member, gives⟩
  · rw [confident, confident]
    constructor
    · exact fun _ => rfl
    · exact fun _ => rfl
    · cases given : latest (valued "confidence" "value") piece.tag.event.writes with
      | some v => exact Or.inl rfl
      | none =>
        rcases follows.found with same | ⟨q, member, gives⟩
        · exact Or.inl same
        · rcases List.mem_cons.mp member with rfl | member
          · rw [Tag.Gives, given] at gives
            cases gives
          · exact Or.inr ⟨q, member, gives⟩

theorem inside_follows {around : List String} {s b : Sought} {later : List Piece} (follows : Follows floats around s b later)
    (member : "confidence" ∈ around) (content : List Content) :
    Follows floats around (s.read content) (b.read content) later := by
  have same := follows.inside member
  have waits : (s.read content).waiting = (b.read content).waiting := by
    rw [read_eq, read_eq, same]
    cases waiting : b.waiting with
    | false => exact same
    | true => cases content.findSome? Content.text? with
      | none => exact same
      | some t => rfl
  apply Follows.mk (fun waiting => waits ▸ waiting) (fun _ => waits)
  rcases follows.found with found | ahead
  · left
    rw [read_confidence, read_confidence, same, found]
  · exact Or.inr ahead

/-- What stands outside changes nothing where nothing leaks. -/
theorem outside_follows (empty : floats.parse "" = none) {around : List String} {s b : Sought} {later : List Piece}
    (follows : Follows floats around s b later) (outside : "confidence" ∉ around) {content : List Content}
    (white : around = [] → Blank content)
    (tight : ¬ (around ≠ [] ∧ "confidence" ∉ around ∧ b.waiting = true ∧ (∀ text ∈ b.texts, floats.parse text = none) ∧
      ∀ q ∈ later, ¬ q.tag.Gives)) : Follows floats around (s.read content) b later := by
  apply Follows.mk (fun waiting => follows.waits (read_waits waiting)) (fun member => absurd member outside)
  rcases follows.found with found | ahead
  · by_cases ahead : ∃ q ∈ later, q.tag.Gives
    · exact Or.inr ahead
    · left
      by_cases root : around = []
      · rw [read_blank empty (white root), found]
      · cases waiting : s.waiting with
        | false => rw [read_idle waiting, found]
        | true =>
          cases number : b.confidence floats with
          | some v => exact read_keeps (found.trans number) content
          | none =>
            have silent : ∀ q ∈ later, ¬ q.tag.Gives := fun q member gives => ahead ⟨q, member, gives⟩
            exact absurd ⟨root, outside, follows.waits waiting, (confidence_none_iff b).mp number, silent⟩ tight
  · exact Or.inr ahead

/-- What is sought when only what stands inside confidence elements is read. -/
def bare : List String → Sought → List Piece → Sought
  | _, s, [] => s
  | opened, s, piece :: later => bare (piece.tag.within opened) (s.inside opened piece) later

/-- Where nothing leaks, a document has the confidence that it would have without any text outside. -/
theorem follows_bare (empty : floats.parse "" = none) {pieces : List Piece} {opened : List String} {s b : Sought}
    (follows : Follows floats opened s b pieces) (nested : Nested opened pieces) (tight : ¬ Leaks floats opened b pieces) :
    (pieces.foldl Sought.piece s).confidence floats = (bare opened b pieces).confidence floats := by
  induction pieces generalizing opened s b with
  | nil =>
    rcases follows.found with same | ⟨q, member, _⟩
    · exact same
    · cases member
  | cons piece later ih =>
    rw [Leaks, not_or] at tight
    have behind := tag_follows follows
    rw [List.foldl_cons, bare]
    apply ih _ nested.2.2 tight.2
    rw [Sought.inside, Sought.piece]
    by_cases member : "confidence" ∈ piece.tag.within opened
    · rw [if_pos member]
      exact inside_follows behind member piece.content
    · rw [if_neg member]
      exact outside_follows empty behind member nested.2.1 tight.1

theorem inside_same {opened : List String} {s : Sought} {a b : Piece} (tag : a.tag = b.tag)
    (content : "confidence" ∈ a.tag.within opened → a.content = b.content) : s.inside opened a = s.inside opened b := by
  rw [Sought.inside, Sought.inside, ← tag]
  by_cases member : "confidence" ∈ a.tag.within opened
  · rw [if_pos member, if_pos member, Sought.piece, Sought.piece, tag, content member]
  · rw [if_neg member, if_neg member]

theorem sameInside_bare {opened : List String} {s : Sought} {as bs : List Piece} (same : SameInside opened as bs) :
    bare opened s as = bare opened s bs := by
  induction as generalizing opened s bs with
  | nil =>
    cases bs with
    | nil => rfl
    | cons b bs => cases same
  | cons a as ih =>
    cases bs with
    | nil => cases same
    | cons b bs =>
      rw [bare, bare, ← inside_same same.1 same.2.1, ← same.1]
      exact ih same.2.2

theorem sameInside_tags {opened : List String} {as bs : List Piece} (same : SameInside opened as bs) :
    as.map Piece.tag = bs.map Piece.tag := by
  induction as generalizing opened bs with
  | nil =>
    cases bs with
    | nil => rfl
    | cons b bs => cases same
  | cons a as ih =>
    cases bs with
    | nil => cases same
    | cons b bs => rw [List.map_cons, List.map_cons, same.1, ih same.2.2]

theorem gives_tags {as bs : List Piece} (tags : as.map Piece.tag = bs.map Piece.tag) (silent : ∀ q ∈ bs, ¬ q.tag.Gives) :
    ∀ q ∈ as, ¬ q.tag.Gives := by
  intro q member
  have listed : q.tag ∈ bs.map Piece.tag := tags ▸ List.mem_map_of_mem member
  obtain ⟨r, member', same⟩ := List.mem_map.mp listed
  rw [← same]
  exact silent r member'

theorem sameInside_leaks {opened : List String} {s : Sought} {as bs : List Piece} (same : SameInside opened as bs)
    (leaks : Leaks floats opened s bs) : Leaks floats opened s as := by
  induction as generalizing opened s bs with
  | nil =>
    cases bs with
    | nil => exact leaks
    | cons b bs => cases same
  | cons a as ih =>
    cases bs with
    | nil => cases same
    | cons b bs =>
      rw [Leaks, ← same.1, ← inside_same same.1 same.2.1] at leaks
      rcases leaks with ⟨root, outside, waiting, unread, silent⟩ | leaks
      · exact Or.inl ⟨root, outside, waiting, unread, gives_tags (sameInside_tags same.2.2) silent⟩
      · exact Or.inr (ih same.2.2 leaks)

theorem sameInside_refl (opened : List String) (pieces : List Piece) : SameInside opened pieces pieces := by
  induction pieces generalizing opened with
  | nil => trivial
  | cons piece later ih => exact ⟨rfl, fun _ => rfl, ih (piece.tag.within opened)⟩

theorem run_keeps {pieces : List Piece} (silent : ∀ q ∈ pieces, ¬ q.tag.Gives) {s : Sought} {v : F64}
    (found : s.confidence floats = some v) : (pieces.foldl Sought.piece s).confidence floats = some v := by
  induction pieces generalizing s with
  | nil => exact found
  | cons piece later ih =>
    apply ih fun q member => silent q (List.mem_cons_of_mem piece member)
    apply read_keeps
    rcases tag_cases piece.tag with unconcerned | confident
    · rw [unconcerned.same]
      exact found
    · have none : latest (valued "confidence" "value") piece.tag.event.writes = none := by
        simpa [Tag.Gives] using silent piece List.mem_cons_self
      rw [confident, none]
      exact found

/-- Where something leaks, a number written there becomes the confidence. -/
theorem leak_planted {text : String} {v : F64} (number : normalizeConfidence floats (trim text) = some v)
    {pieces : List Piece} {opened : List String} {s : Sought} (leaks : Leaks floats opened s pieces)
    (nested : Nested opened pieces) :
    ∃ planted, SameInside opened pieces planted ∧ Nested opened planted ∧
      (planted.foldl Sought.piece s).confidence floats = some v := by
  induction pieces generalizing opened s with
  | nil => cases leaks
  | cons piece later ih =>
    rcases leaks with ⟨root, outside, waiting, unread, silent⟩ | leaks
    · refine ⟨⟨piece.tag, [.text text]⟩ :: later, ⟨rfl, fun member => absurd member outside, sameInside_refl _ later⟩,
        ⟨nested.1, fun empty => absurd empty root, nested.2.2⟩, ?_⟩
      apply run_keeps silent
      rw [Sought.piece, read_confidence, if_pos waiting, (confidence_none_iff _).mpr unread]
      exact number
    · obtain ⟨planted, same, nested', found⟩ := ih leaks nested.2.2
      by_cases member : "confidence" ∈ piece.tag.within opened
      · rw [Sought.inside, if_pos member] at found
        exact ⟨piece :: planted, ⟨rfl, fun _ => rfl, same⟩, ⟨nested.1, nested.2.1, nested'⟩, found⟩
      · rw [Sought.inside, if_neg member] at found
        refine ⟨⟨piece.tag, []⟩ :: planted, ⟨rfl, fun inside => absurd inside member, same⟩, ⟨nested.1, ?_, nested'⟩, found⟩
        intro _ t listed
        cases listed

theorem sought_events (d : Document) : Sought.of d.events = d.pieces.foldl Sought.piece {} := by
  have content (s : Sought) (content : List Content) : (content.map Content.event).foldl Sought.step s = s.read content := by
    rw [List.foldl_map]
    rfl
  have pieces (s : Sought) : (d.pieces.flatMap Piece.events).foldl Sought.step s = d.pieces.foldl Sought.piece s := by
    induction d.pieces generalizing s with
    | nil => rfl
    | cons piece later ih =>
      rw [List.flatMap_cons, List.foldl_append, ih, List.foldl_cons, Piece.events, List.foldl_cons, content]
      rfl
  rw [Sought.of, Document.events, List.foldl_append, content, read_idle rfl, pieces]

theorem writes_events (d : Document) :
    d.events.flatMap XmlEvent.writes = (d.pieces.map Piece.tag).flatMap fun tag => tag.event.writes := by
  have content (content : List Content) : (content.map Content.event).flatMap XmlEvent.writes = [] := by
    induction content with
    | nil => rfl
    | cons c content ih => cases c <;> exact ih
  rw [Document.events, List.flatMap_append, content, List.nil_append]
  induction d.pieces with
  | nil => rfl
  | cons piece later ih =>
    rw [List.flatMap_cons, List.flatMap_append, ih, Piece.events, List.flatMap_cons, content, List.append_nil]
    rfl

section

variable {p : CotParser} {events events' : List XmlEvent}
  (writes : events.flatMap XmlEvent.writes = events'.flatMap XmlEvent.writes)
include writes

theorem said_writes (name key : String) : said name key events = said name key events' :=
  congrArg (latest (valued name key)) writes

theorem acceptable_writes (acceptable : Acceptable floats p events) : Acceptable floats p events' := by
  have place : placeSaid floats events' = placeSaid floats events := by
    simp only [placeSaid, haeSaid, said_writes writes]
  constructor
  · exact acceptable.source
  · exact writes ▸ acceptable.coordinates
  · exact said_writes writes "event" "uid" ▸ acceptable.uid
  · exact said_writes writes "event" "type" ▸ acceptable.type
  · exact said_writes writes "event" "time" ▸ acceptable.time
  · exact place ▸ acceptable.place

end

/-- A number in the unit interval is taken as it is. -/
theorem number_taken {text : String} {v : F64} (bare : trim text = text) (number : floats.parse text = some v)
    (unit : F64.lt .one v = false ∧ clampUnit v = v) : normalizeConfidence floats (trim text) = some v := by
  rw [bare, normalizeConfidence, number, Option.map_some, unit.1]
  exact congrArg some unit.2

theorem made_accepted {reader : Bytes → Reading} {p : CotParser} {newId : String} {native : Bytes} {events : List XmlEvent}
    (read : reader native = { events := events }) (acceptable : Acceptable floats p events)
    (inside : Rust.outsideUnit (((Sought.of events).confidence floats).getD .zero) = false) :
    confidenceMade (p.toEvent floats reader newId native) = some (((Sought.of events).confidence floats).getD .zero) := by
  have accepted : ∃ event, p.toEvent floats reader newId native = .ok event := toEvent_accepts read acceptable inside
  obtain ⟨event, made⟩ := accepted
  rw [confidenceMade, made]
  exact congrArg some (toEvent_tells read made).2.confidence

theorem made_refused {reader : Bytes → Reading} {p : CotParser} {newId : String} {native : Bytes} {events : List XmlEvent}
    (read : reader native = { events := events })
    (refused : ¬ (Acceptable floats p events ∧
      Rust.outsideUnit (((Sought.of events).confidence floats).getD .zero) = false)) :
    confidenceMade (p.toEvent floats reader newId native) = none := by
  cases made : p.toEvent floats reader newId native with
  | error e => rfl
  | ok event => exact absurd (toEvent_tells read made).1 refused

/-- The confidence of an event is a matter of the attributes and of the confidence found. -/
theorem made_same {reader reader' : Bytes → Reading} {p : CotParser} {newId newId' : String} {native native' : Bytes}
    {events events' : List XmlEvent} (read : reader native = { events := events })
    (read' : reader' native' = { events := events' })
    (writes : events.flatMap XmlEvent.writes = events'.flatMap XmlEvent.writes)
    (found : Acceptable floats p events → (Sought.of events).confidence floats = (Sought.of events').confidence floats) :
    confidenceMade (p.toEvent floats reader' newId' native') = confidenceMade (p.toEvent floats reader newId native) := by
  by_cases acceptable : Acceptable floats p events
  · have acceptable' := acceptable_writes writes acceptable
    cases inside : Rust.outsideUnit (((Sought.of events).confidence floats).getD .zero) with
    | false =>
      rw [made_accepted read acceptable inside]
      rw [found acceptable] at inside ⊢
      exact made_accepted read' acceptable' inside
    | true =>
      rw [made_refused read (by simp [inside])]
      rw [found acceptable] at inside
      exact made_refused read' (by simp [inside])
  · have acceptable' : ¬ Acceptable floats p events' := fun other => acceptable (acceptable_writes writes.symm other)
    rw [made_refused read fun both => acceptable both.1, made_refused read' fun both => acceptable' both.1]

end

/-- Text outside confidence elements is without effect on the confidence exactly where nothing leaks, or where the document is
    refused whatever it says of its confidence. -/
theorem confidence_from_elements_iff (floats : Floats) (empty : floats.parse "" = none) (zero : floats.parse "0" = some .zero)
    (one : floats.parse "1" = some .one) (p : CotParser) (reader : Bytes → Reading) (newId : String) (native : Bytes)
    (d : Document) (read : reader native = { events := d.events }) (wellFormed : WellFormed d) :
    (∀ (reader' : Bytes → Reading) newId' native' (d' : Document), reader' native' = { events := d'.events } → WellFormed d' →
      SameInside [] d.pieces d'.pieces →
        confidenceMade (p.toEvent floats reader' newId' native') = confidenceMade (p.toEvent floats reader newId native)) ↔
      (Acceptable floats p d.events → ¬ Leaks floats [] {} d.pieces) := by
  constructor
  · intro same acceptable leaks
    have reached (text : String) (v : F64) (number : normalizeConfidence floats (trim text) = some v)
        (inside : Rust.outsideUnit v = false) : confidenceMade (p.toEvent floats reader newId native) = some v := by
      obtain ⟨planted, inner, nested, found⟩ := leak_planted number leaks wellFormed.nested
      have writes : d.events.flatMap XmlEvent.writes = (Document.mk d.lead planted).events.flatMap XmlEvent.writes := by
        rw [writes_events, writes_events, sameInside_tags inner]
      have sought : (Sought.of (Document.mk d.lead planted).events).confidence floats = some v := by
        rw [sought_events]
        exact found
      rw [← same (fun _ => { events := (Document.mk d.lead planted).events }) "" [] ⟨d.lead, planted⟩ rfl
        ⟨wellFormed.lead, nested⟩ inner]
      rw [made_accepted rfl (acceptable_writes writes acceptable) (by rw [sought]; exact inside), sought]
      rfl
    have nought := reached "0" .zero (number_taken (by decide) zero (by decide)) (by decide)
    have certain := reached "1" .one (number_taken (by decide) one (by decide)) (by decide)
    rw [nought] at certain
    exact absurd certain (by decide)
  · intro tight reader' newId' native' d' read' wellFormed' inner
    apply made_same read read'
    · rw [writes_events, writes_events, sameInside_tags inner]
    · intro acceptable
      have whole := tight acceptable
      have whole' : ¬ Leaks floats [] {} d'.pieces := fun leaks => whole (sameInside_leaks inner leaks)
      have start (pieces : List Piece) : Follows floats [] {} {} pieces := ⟨id, fun _ => rfl, Or.inl rfl⟩
      rw [sought_events, sought_events, follows_bare empty (start d.pieces) wellFormed.nested whole,
        follows_bare empty (start d'.pieces) wellFormed'.nested whole', sameInside_bare inner]

/-- The numbers of the document below. -/
def remarkFloats : Floats :=
  { Floats.idle with
    parse := fun text => match text with
      | "0" => some .zero
      | "1" => some .one
      | "51.5" => some ⟨0x4049c00000000000⟩
      | "-0.12" => some ⟨0xbfbeb851eb851eb8⟩
      | "0.9" => some ⟨0x3feccccccccccccd⟩
      | "0.3" => some ⟨0x3fd3333333333333⟩
      | _ => none }

/-- An empty confidence element, and a remark behind it. -/
def remarked (attributes : List (String × String)) (remark : String) : Document where
  lead := []
  pieces := [⟨.start "event" [("uid", "U"), ("type", "a-f-A"), ("time", "2026-06-10T08:00:00Z")], []⟩,
    ⟨.empty "point" [("lat", "51.5"), ("lon", "-0.12"), ("hae", "0")], []⟩, ⟨.start "detail" [], []⟩,
    ⟨.empty "confidence" attributes, []⟩, ⟨.start "remarks" [], [.text remark]⟩, ⟨.close "remarks", []⟩,
    ⟨.close "detail", []⟩, ⟨.close "event", []⟩]

def remarkParser : CotParser := ⟨"tak-field-1", fun _ => none⟩

theorem remarked_wellFormed (attributes : List (String × String)) (remark : String) :
    WellFormed (remarked attributes remark) := by
  constructor
  · intro s member
    cases member
  · simp [remarked, Nested, Tag.Fits, Tag.within, Blank]

/-- With a value in the confidence element, the remark does not change it. -/
theorem valued_remark_is_ignored :
    confidenceMade (remarkParser.toEvent remarkFloats (fun _ => { events := (remarked [("value", "1")] "0.3").events }) "b" []) =
      confidenceMade (remarkParser.toEvent remarkFloats (fun _ => { events := (remarked [("value", "1")] "0.9").events }) "a"
        []) := by
  have law := (confidence_from_elements_iff remarkFloats rfl rfl rfl remarkParser
    (fun _ => { events := (remarked [("value", "1")] "0.9").events }) "a" [] (remarked [("value", "1")] "0.9") rfl
    (remarked_wellFormed _ _)).mpr fun _ => by decide
  apply law _ "b" [] (remarked [("value", "1")] "0.3") rfl (remarked_wellFormed _ _)
  simp [remarked, SameInside, Tag.within]

theorem remarked_acceptable (remark : String) :
    Acceptable remarkFloats remarkParser (remarked [] remark).events := by
  constructor
  · decide
  · simp [remarked, Document.events, Piece.events, Tag.event, Content.event, XmlEvent.writes, Readable, remarkFloats]
  · rfl
  · exact ⟨"a-f-A", rfl, by decide⟩
  · exact ⟨"2026-06-10T08:00:00Z", rfl, by decide⟩
  · intro loc placed
    cases placed
    have valid : Rust.validLocation ⟨⟨0x4049c00000000000⟩, ⟨0xbfbeb851eb851eb8⟩, .zero⟩ = true := by decide
    exact valid

/-- After an empty confidence element the remark is taken for the confidence. -/
theorem remark_becomes_the_confidence :
    WellFormed (remarked [] "0.9") ∧ WellFormed (remarked [] "0.3") ∧
      SameInside [] (remarked [] "0.9").pieces (remarked [] "0.3").pieces ∧
      confidenceMade (remarkParser.toEvent remarkFloats (fun _ => { events := (remarked [] "0.9").events }) "a" []) =
        some ⟨0x3feccccccccccccd⟩ ∧
      confidenceMade (remarkParser.toEvent remarkFloats (fun _ => { events := (remarked [] "0.3").events }) "b" []) =
        some ⟨0x3fd3333333333333⟩ := by
  refine ⟨remarked_wellFormed _ _, remarked_wellFormed _ _, ?_, ?_, ?_⟩
  · simp [remarked, SameInside, Tag.within]
  · exact made_accepted rfl (remarked_acceptable "0.9") (by decide)
  · exact made_accepted rfl (remarked_acceptable "0.3") (by decide)

end CotProof

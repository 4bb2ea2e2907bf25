import AjarConnectors.Stanag4676.Elements

namespace Stanag4676Model

open EventModel TextModel

/-- The texts that become facts about the whole message. -/
def ofMessage (parent cur : String) : Bool :=
  (parent == "nitsRoot" && cur == "nitsVersion") ||
    (parent == "message" && (cur == "baseTime" || cur == "relTimeIncrement")) ||
    (parent == "ConfidentialityInformation" && (cur == "Classification" || cur == "PolicyIdentifier"))

def ofDynamics (parent cur : String) : Bool := parent == "dynamics" && (cur == "pos" || cur == "vel")

/-- Elements whose own text means nothing. -/
def containers : List String := ["track", "segment", "tp"]

/-- A token that stays within the element it is about: tracks, segments and points do not stand inside their own kind,
    nor a track inside a segment or a point; what is said of the message stands outside the tracks, and what is said of
    a position or a velocity inside a point. -/
structure Contained (stack : List String) (token : Token) : Prop where
  track : token.opens = some "track" → "track" ∉ stack ∧ "segment" ∉ stack ∧ "tp" ∉ stack
  segment : token.opens = some "segment" → "segment" ∉ stack
  tp : token.opens = some "tp" → "tp" ∉ stack
  message : token.content ≠ none → ofMessage (parent stack) (current stack) = true → "track" ∉ stack
  dynamics : token.content ≠ none → ofDynamics (parent stack) (current stack) = true → "tp" ∈ stack

instance Contained.decidable (stack : List String) (token : Token) : Decidable (Contained stack token) :=
  decidable_of_iff
    ((token.opens = some "track" → "track" ∉ stack ∧ "segment" ∉ stack ∧ "tp" ∉ stack) ∧
      (token.opens = some "segment" → "segment" ∉ stack) ∧ (token.opens = some "tp" → "tp" ∉ stack) ∧
      (token.content ≠ none → ofMessage (parent stack) (current stack) = true → "track" ∉ stack) ∧
      (token.content ≠ none → ofDynamics (parent stack) (current stack) = true → "tp" ∈ stack))
    ⟨fun ⟨track, segment, tp, message, dynamics⟩ => ⟨track, segment, tp, message, dynamics⟩,
      fun contained => ⟨contained.track, contained.segment, contained.tp, contained.message, contained.dynamics⟩⟩

/-- What is said of a position or a velocity stands inside a point. -/
def InsidePoint (stack : List String) (token : Token) : Prop :=
  token.content ≠ none → ofDynamics (parent stack) (current stack) = true → "tp" ∈ stack

/-- Outside a point no point is under way, and outside a segment there is no status. -/
structure Clean (stack : List String) (w : Walk) : Prop where
  tp : "tp" ∉ stack → w.tp = {}
  segStatus : "segment" ∉ stack → w.segStatus = none

/-- The same walk, as it stands with another start of the track and another coordinate system. -/
def Walk.placed (w : Walk) (start : Nat) (cs : Option String) : Walk :=
  { w with track := { w.track with start := start }, dynamicsCs := cs }

end Stanag4676Model

namespace Stanag4676Proof

open EventModel TextModel Stanag4676Model

section

variable {Instant : Type} {platform : Platform Instant}

/-- What one text does, whatever was read before it. -/
inductive Effect (platform : Platform Instant) (parent cur text : String) : Prop where
  | message (change : MessageCtx → MessageCtx) (kind : ofMessage parent cur = true)
    (eq : ∀ w : Walk, w.routeText platform parent cur text = { w with msg := change w.msg })
  | track (change : TrackCtx → TrackCtx) (points : ∀ t, (change t).points = t.points)
    (start : ∀ t x, change { t with start := x } = { change t with start := x })
    (eq : ∀ w : Walk, w.routeText platform parent cur text = { w with track := change w.track })
  | status (kind : parent = "segment") (eq : ∀ w : Walk, w.routeText platform parent cur text = { w with segStatus := some text })
  | point (change : Option String → PointCtx → PointCtx) (kind : parent = "tp" ∨ ofDynamics parent cur = true)
    (cs : ofDynamics parent cur = false → ∀ d e p, change d p = change e p)
    (eq : ∀ w : Walk, w.routeText platform parent cur text = { w with tp := change w.dynamicsCs w.tp })
  | nothing (eq : ∀ w : Walk, w.routeText platform parent cur text = w)

def posChange (values : Option (List F64)) (cs : Option String) (p : PointCtx) : PointCtx :=
  match values with
  | none => p
  | some v => match preferWgs p.pos p.cs cs v with
    | (pos, true) => { p with pos := pos, cs := cs }
    | (pos, false) => { p with pos := pos }

def velChange (values : Option (List F64)) (cs : Option String) (p : PointCtx) : PointCtx :=
  match values with
  | none => p
  | some v => { p with vel := (preferWgs p.vel p.cs cs v).1 }

theorem routePos_eq (v : List F64) (w : Walk) : w.routePos v = { w with tp := posChange (some v) w.dynamicsCs w.tp } := by
  unfold Walk.routePos posChange
  dsimp only
  cases preferWgs w.tp.pos w.tp.cs w.dynamicsCs v with
  | mk pos stored => cases stored <;> rfl

theorem routeText_effect (platform : Platform Instant) (parent cur text : String) : Effect platform parent cur text := by
  by_cases version : parent = "nitsRoot" ∧ cur = "nitsVersion"
  · exact .message (fun m => { m with nitsVersion := some text }) (by simp [ofMessage, version]) fun w => if_pos version
  by_cases base : parent = "message" ∧ cur = "baseTime"
  · refine .message (fun m => { m with baseTime := some text }) (by simp [ofMessage, base]) fun w => ?_
    rw [Walk.routeText, if_neg version, if_pos base]
  by_cases increment : parent = "message" ∧ cur = "relTimeIncrement"
  · refine .message (fun m => { m with relIncrement := platform.parseF64 text }) (by simp [ofMessage, increment]) fun w => ?_
    rw [Walk.routeText, if_neg version, if_neg base, if_pos increment]
  by_cases label : isLabel parent cur = true
  · have named : parent = "ConfidentialityInformation" ∧ cur = "Classification" := by simpa [isLabel] using label
    refine .message (fun m => { m with classification := some text }) (by simp [ofMessage, named]) fun w => ?_
    rw [Walk.routeText, if_neg version, if_neg base, if_neg increment, if_pos label]
  by_cases policy : parent = "ConfidentialityInformation" ∧ cur = "PolicyIdentifier"
  · refine .message (fun m => { m with policyId := some text }) (by simp [ofMessage, policy]) fun w => ?_
    rw [Walk.routeText, if_neg version, if_neg base, if_neg increment, if_neg label, if_pos policy]
  by_cases uid : parent = "track" ∧ cur = "uid"
  · refine .track (fun t => { t with uid := decodeUid text }) (fun _ => rfl) (fun _ _ => rfl) fun w => ?_
    rw [Walk.routeText, if_neg version, if_neg base, if_neg increment, if_neg label, if_neg policy, if_pos uid]
  by_cases identity : parent = "id1241" ∧ cur = "identity"
  · refine .track (fun t => { t with identity := some text }) (fun _ => rfl) (fun _ _ => rfl) fun w => ?_
    rw [Walk.routeText, if_neg version, if_neg base, if_neg increment, if_neg label, if_neg policy, if_neg uid,
      if_pos identity]
  by_cases environment : parent = "id1241" ∧ cur = "environment"
  · refine .track (fun t => { t with environment := some text }) (fun _ => rfl) (fun _ _ => rfl) fun w => ?_
    rw [Walk.routeText, if_neg version, if_neg base, if_neg increment, if_neg label, if_neg policy, if_neg uid,
      if_neg identity, if_pos environment]
  by_cases code : parent = "objectClass" ∧ cur = "code"
  · refine .track (fun t => { t with objectClass := some text }) (fun _ => rfl) (fun _ _ => rfl) fun w => ?_
    rw [Walk.routeText, if_neg version, if_neg base, if_neg increment, if_neg label, if_neg policy, if_neg uid,
      if_neg identity, if_neg environment, if_pos code]
  by_cases status : parent = "segment" ∧ cur = "status"
  · refine .status status.1 fun w => ?_
    rw [Walk.routeText, if_neg version, if_neg base, if_neg increment, if_neg label, if_neg policy, if_neg uid,
      if_neg identity, if_neg environment, if_neg code, if_pos status]
  by_cases relTime : parent = "tp" ∧ cur = "relTime"
  · refine .point (fun _ p => { p with relTime := parseI64 text }) (Or.inl relTime.1) (fun _ _ _ _ => rfl) fun w => ?_
    rw [Walk.routeText, if_neg version, if_neg base, if_neg increment, if_neg label, if_neg policy, if_neg uid,
      if_neg identity, if_neg environment, if_neg code, if_neg status, if_pos relTime]
  by_cases pos : parent = "dynamics" ∧ cur = "pos"
  · have dynamics : ofDynamics parent cur = true := by simp [ofDynamics, pos]
    refine .point (posChange (parseFloats platform text)) (Or.inr dynamics)
      (fun other => absurd dynamics (by simp [other])) fun w => ?_
    rw [Walk.routeText, if_neg version, if_neg base, if_neg increment, if_neg label, if_neg policy, if_neg uid,
      if_neg identity, if_neg environment, if_neg code, if_neg status, if_neg relTime, if_pos pos]
    cases parseFloats platform text with
    | none => rfl
    | some v => exact routePos_eq v w
  by_cases vel : parent = "dynamics" ∧ cur = "vel"
  · have dynamics : ofDynamics parent cur = true := by simp [ofDynamics, vel]
    refine .point (velChange (parseFloats platform text)) (Or.inr dynamics)
      (fun other => absurd dynamics (by simp [other])) fun w => ?_
    rw [Walk.routeText, if_neg version, if_neg base, if_neg increment, if_neg label, if_neg policy, if_neg uid,
      if_neg identity, if_neg environment, if_neg code, if_neg status, if_neg relTime, if_neg pos, if_pos vel]
    cases parseFloats platform text <;> rfl
  · refine .nothing fun w => ?_
    rw [Walk.routeText, if_neg version, if_neg base, if_neg increment, if_neg label, if_neg policy, if_neg uid,
      if_neg identity, if_neg environment, if_neg code, if_neg status, if_neg relTime, if_neg pos, if_neg vel]

/-- No text directly inside a track, a segment or a point is routed. -/
theorem routeText_container (w : Walk) (parent text : String) {cur : String} (container : cur ∈ containers) :
    w.routeText platform parent cur text = w := by
  simp only [containers, List.mem_cons, List.not_mem_nil, or_false] at container
  rcases container with rfl | rfl | rfl <;> simp [Walk.routeText, isLabel]

theorem routeText_directly {name : String} (container : name ∈ containers) {rel : List String} (directly : rel = [])
    (base : List String) (w : Walk) (text : String) :
    w.routeText platform (parent (rel ++ name :: base)) (current (rel ++ name :: base)) text = w := by
  rw [directly]
  exact routeText_container w _ _ container

theorem parent_mem {stack : List String} {name : String} (same : parent stack = name) (named : name ≠ "") : name ∈ stack := by
  unfold parent at same
  cases found : stack.tail.head? with
  | none =>
    rw [found] at same
    exact absurd same.symm named
  | some first =>
    rw [found, Option.getD_some] at same
    rw [← same]
    exact List.mem_of_mem_tail (List.mem_of_mem_head? (Option.mem_def.mpr found))

/-- Closing one element leaves the others open. -/
theorem mem_tail_of_closed {stack : List String} {name other : String} (top : some name = stack.head?) (different : other ≠ name)
    (member : other ∈ stack) : other ∈ stack.tail := by
  cases stack with
  | nil => cases member
  | cons first stack =>
    cases top
    exact (List.mem_cons.mp member).resolve_left different

/-- What one token is to the walk. -/
inductive Reads (platform : Platform Instant) (token : Token) : Prop where
  | opened (name : String) (cs : Option String) (opens : token.opens = some name) (closes : token.closes = none)
    (push : ∀ stack, push stack token = name :: stack) (eq : ∀ (w : Walk) stack,
      w.after platform stack token = { w with dynamicsCs := if name = "dynamics" then cs else w.dynamicsCs })
  | closed (name : String) (opens : token.opens = none) (closes : token.closes = some name)
    (push : ∀ stack, push stack token = stack.tail) (eq : ∀ (w : Walk) stack, w.after platform stack token = w.close name)
  | routed (text : String) (opens : token.opens = none) (closes : token.closes = none) (content : token.content ≠ none)
    (push : ∀ stack, push stack token = stack) (eq : ∀ (w : Walk) stack,
      w.after platform stack token = w.routeText platform (parent stack) (current stack) text)
  | passed (opens : token.opens = none) (closes : token.closes = none) (push : ∀ stack, push stack token = stack)
    (eq : ∀ (w : Walk) stack, w.after platform stack token = w)

theorem token_reads (platform : Platform Instant) (token : Token) : Reads platform token := by
  rcases token with ⟨event, raw⟩
  cases event with
  | startTag name attributes =>
    refine .opened (localName name) (attributes.findSome? fun a => if localName a.1 = "cs" then some a.2 else none) rfl rfl
      (fun _ => rfl) fun w stack => ?_
    unfold Walk.after
    dsimp only
    split <;> rfl
  | endTag name => exact .closed (localName name) rfl rfl (fun _ => rfl) fun _ _ => rfl
  | text content =>
    by_cases blank : trim content = ""
    · exact .passed rfl rfl (fun _ => rfl) fun _ _ => if_pos blank
    · refine .routed (trim content) rfl rfl ?_ (fun _ => rfl) fun _ _ => if_neg blank
      exact ne_of_eq_of_ne (if_neg blank) (Option.some_ne_none _)
  | emptyTag name attributes => exact .passed rfl rfl (fun _ => rfl) fun _ _ => rfl
  | cdata content => exact .passed rfl rfl (fun _ => rfl) fun _ _ => rfl
  | reference replacement => exact .passed rfl rfl (fun _ => rfl) fun _ _ => rfl
  | other => exact .passed rfl rfl (fun _ => rfl) fun _ _ => rfl

theorem top_of_closes {stack : List String} {token : Token} {name : String} (allowed : Closes stack token)
    (closes : token.closes = some name) : some name = stack.head? := by
  unfold Closes at allowed
  rw [closes] at allowed
  exact allowed.resolve_left (Option.some_ne_none _)

theorem after_clean {stack : List String} {w : Walk} {token : Token} (clean : Clean stack w) (allowed : Closes stack token)
    (inside : InsidePoint stack token) : Clean (push stack token) (w.after platform stack token) := by
  cases token_reads platform token with
  | opened name cs opens closes push eq =>
    rw [push, eq]
    exact ⟨fun outside => clean.tp fun member => outside (List.mem_cons_of_mem _ member),
      fun outside => clean.segStatus fun member => outside (List.mem_cons_of_mem _ member)⟩
  | closed name opens closes push eq =>
    have top := top_of_closes allowed closes
    rw [push, eq]
    unfold Walk.close
    split_ifs with tp dynamics segment
    · exact ⟨fun _ => rfl, fun outside => clean.segStatus fun member =>
        outside (mem_tail_of_closed top (by rw [tp]; decide) member)⟩
    · exact ⟨fun outside => clean.tp fun member => outside (mem_tail_of_closed top (Ne.symm tp) member),
        fun outside => clean.segStatus fun member => outside (mem_tail_of_closed top (by rw [dynamics]; decide) member)⟩
    · exact ⟨fun outside => clean.tp fun member => outside (mem_tail_of_closed top (Ne.symm tp) member), fun _ => rfl⟩
    · exact ⟨fun outside => clean.tp fun member => outside (mem_tail_of_closed top (Ne.symm tp) member),
        fun outside => clean.segStatus fun member => outside (mem_tail_of_closed top (Ne.symm segment) member)⟩
  | routed text opens closes content push eq =>
    rw [push, eq]
    cases routeText_effect platform (parent stack) (current stack) text with
    | message change kind eq =>
      rw [eq]
      exact ⟨clean.tp, clean.segStatus⟩
    | track change points start eq =>
      rw [eq]
      exact ⟨clean.tp, clean.segStatus⟩
    | status kind eq =>
      rw [eq]
      exact ⟨clean.tp, fun outside => absurd (parent_mem kind (by decide)) outside⟩
    | point change kind cs eq =>
      have within : "tp" ∈ stack := kind.elim (fun kind => parent_mem kind (by decide)) (inside content)
      rw [eq]
      exact ⟨fun outside => absurd within outside, clean.segStatus⟩
    | nothing eq =>
      rw [eq]
      exact clean
  | passed opens closes push eq =>
    rw [push, eq]
    exact clean

/-- Inside a track nothing is learnt about the message. -/
theorem after_msg {stack : List String} (w : Walk) {token : Token} (contained : Contained stack token)
    (inside : "track" ∈ stack) : (w.after platform stack token).msg = w.msg := by
  cases token_reads platform token with
  | opened name cs opens closes push eq => rw [eq]
  | closed name opens closes push eq =>
    rw [eq]
    unfold Walk.close
    split_ifs <;> rfl
  | routed text opens closes content push eq =>
    rw [eq]
    cases routeText_effect platform (parent stack) (current stack) text with
    | message change kind eq => exact absurd inside (contained.message content kind)
    | track change points start eq => rw [eq]
    | status kind eq => rw [eq]
    | point change kind cs eq => rw [eq]
    | nothing eq => rw [eq]
  | passed opens closes push eq => rw [eq]

/-- Only the end of a point adds one. -/
theorem after_points {stack : List String} (w : Walk) {token : Token} (other : token.closes ≠ some "tp") :
    (w.after platform stack token).track.points = w.track.points := by
  cases token_reads platform token with
  | opened name cs opens closes push eq => rw [eq]
  | closed name opens closes push eq =>
    have different : name ≠ "tp" := fun same => other (by rw [closes, same])
    rw [eq]
    unfold Walk.close
    rw [if_neg different]
    split_ifs <;> rfl
  | routed text opens closes content push eq =>
    rw [eq]
    cases routeText_effect platform (parent stack) (current stack) text with
    | message change kind eq => rw [eq]
    | track change points start eq =>
      rw [eq]
      exact points w.track
    | status kind eq => rw [eq]
    | point change kind cs eq => rw [eq]
    | nothing eq => rw [eq]
  | passed opens closes push eq => rw [eq]

theorem close_placed (w : Walk) (name : String) (x : Nat) (d : Option String) :
    (w.placed x d).close name = (w.close name).placed x (if name = "dynamics" then none else d) := by
  unfold Walk.close Walk.placed
  by_cases tp : name = "tp"
  · rw [if_pos tp, if_pos tp, if_neg (by rw [tp]; decide)]
  · rw [if_neg tp, if_neg tp]
    split_ifs <;> rfl

/-- Where the track starts and what coordinate system was open makes no difference to anything else. -/
theorem after_placed (platform : Platform Instant) {stack : List String} (w : Walk) (token : Token) {x y : Nat}
    {d e : Option String} (cs : ofDynamics (parent stack) (current stack) = true → d = e) :
    ∃ (w' : Walk) (d' e' : Option String), (w.placed x d).after platform stack token = w'.placed x d' ∧
      (w.placed y e).after platform stack token = w'.placed y e' ∧ (d = e → d' = e') ∧
      (token.opens = some "dynamics" → d' = e') := by
  cases token_reads platform token with
  | opened name found opens closes push eq =>
    refine ⟨w, if name = "dynamics" then found else d, if name = "dynamics" then found else e, eq _ _, eq _ _, ?_, ?_⟩
    · intro same
      rw [same]
    · intro dynamics
      rw [opens] at dynamics
      rw [if_pos (Option.some.inj dynamics), if_pos (Option.some.inj dynamics)]
  | closed name opens closes push eq =>
    refine ⟨w.close name, if name = "dynamics" then none else d, if name = "dynamics" then none else e, ?_, ?_, ?_, ?_⟩
    · rw [eq, close_placed]
    · rw [eq, close_placed]
    · intro same
      rw [same]
    · intro dynamics
      rw [opens] at dynamics
      cases dynamics
  | routed text opens closes content push eq =>
    have unopened : token.opens = some "dynamics" → d = e := fun dynamics => by rw [opens] at dynamics; cases dynamics
    cases routeText_effect platform (parent stack) (current stack) text with
    | message change kind routed => exact ⟨{ w with msg := change w.msg }, d, e, by rw [eq, routed]; rfl,
        by rw [eq, routed]; rfl, id, unopened⟩
    | track change points start routed =>
      refine ⟨{ w with track := change w.track }, d, e, ?_, ?_, id, unopened⟩
      · rw [eq, routed, Walk.placed, start]
        rfl
      · rw [eq, routed, Walk.placed, start]
        rfl
    | status kind routed => exact ⟨{ w with segStatus := some text }, d, e, by rw [eq, routed]; rfl,
        by rw [eq, routed]; rfl, id, unopened⟩
    | point change kind indifferent routed =>
      refine ⟨{ w with tp := change d w.tp }, d, e, by rw [eq, routed]; rfl, ?_, id, unopened⟩
      have same : change d w.tp = change e w.tp := by
        cases dynamics : ofDynamics (parent stack) (current stack) with
        | true => rw [cs dynamics]
        | false => exact indifferent dynamics d e w.tp
      rw [same, eq, routed]
      rfl
    | nothing routed => exact ⟨w, d, e, by rw [eq, routed], by rw [eq, routed], id, unopened⟩
  | passed opens closes push eq =>
    exact ⟨w, d, e, eq _ _, eq _ _, id, fun dynamics => by rw [opens] at dynamics; cases dynamics⟩

theorem mem_push {name : String} {rel : List String} {token : Token} (member : name ∈ push rel token) :
    token.opens = some name ∨ name ∈ rel := by
  rcases token with ⟨event, raw⟩
  cases event with
  | startTag start attributes => exact (List.mem_cons.mp member).imp_left fun same => congrArg some same.symm
  | endTag stop => exact Or.inr (List.mem_of_mem_tail member)
  | _ => exact Or.inr member

/-- Inside a container a position or a velocity belongs to a `dynamics` element of that container. -/
theorem dynamics_inside {name : String} (container : name ∈ containers) {rel base : List String}
    (dynamics : ofDynamics (parent (rel ++ name :: base)) (current (rel ++ name :: base)) = true) : "dynamics" ∈ rel := by
  unfold ofDynamics at dynamics
  rw [Bool.and_eq_true, Bool.or_eq_true, beq_iff_eq, beq_iff_eq, beq_iff_eq] at dynamics
  rcases rel with _ | ⟨first, _ | ⟨second, rel⟩⟩
  · have cur : name = "pos" ∨ name = "vel" := dynamics.2
    rcases cur with rfl | rfl <;> exact absurd container (by decide)
  · have parent : name = "dynamics" := dynamics.1
    rw [parent] at container
    exact absurd container (by decide)
  · have parent : second = "dynamics" := dynamics.1
    rw [parent]
    exact List.mem_cons_of_mem _ (List.mem_cons_self ..)

/-- The names a text is routed by do not depend on what stands around the container. -/
theorem names_inside (name : String) {rel : List String} (inside : rel ≠ []) (base base' : List String) :
    parent (rel ++ name :: base) = parent (rel ++ name :: base') ∧ current (rel ++ name :: base) = current (rel ++ name :: base') := by
  rcases rel with _ | ⟨first, _ | ⟨second, rel⟩⟩
  · exact absurd rfl inside
  · exact ⟨rfl, rfl⟩
  · exact ⟨rfl, rfl⟩

theorem through_placed (platform : Platform Instant) {name : String} (container : name ∈ containers) {rel : List String}
    (base : List String) {tokens : List Token} (closes : Transition.Allowed push Closes rel tokens) (w : Walk) {x y : Nat}
    {d e : Option String} (cs : "dynamics" ∈ rel → d = e) :
    ∃ (w' : Walk) (d' e' : Option String), (w.placed x d).through platform (rel ++ name :: base) tokens = w'.placed x d' ∧
      (w.placed y e).through platform (rel ++ name :: base) tokens = w'.placed y e' := by
  induction tokens generalizing rel w d e with
  | nil => exact ⟨w, d, e, rfl, rfl⟩
  | cons token tokens ih =>
    obtain ⟨w₁, d₁, e₁, first, second, same, opened⟩ :=
      after_placed platform w token (x := x) (y := y) fun dynamics => cs (dynamics_inside container dynamics)
    rw [Walk.through, Walk.through, push_append closes.1, first, second]
    exact ih closes.2 w₁ fun member => (mem_push member).elim opened fun inside => same (cs inside)

theorem after_tp_congr (platform : Platform Instant) {name : String} (container : name ∈ containers) {rel : List String}
    (base base' : List String) (token : Token) {w v : Walk} (tp : w.tp = v.tp) (cs : "dynamics" ∈ rel → w.dynamicsCs = v.dynamicsCs) :
    (w.after platform (rel ++ name :: base) token).tp = (v.after platform (rel ++ name :: base') token).tp ∧
      ("dynamics" ∈ push rel token →
        (w.after platform (rel ++ name :: base) token).dynamicsCs = (v.after platform (rel ++ name :: base') token).dynamicsCs) := by
  cases token_reads platform token with
  | opened name found opens closes push eq =>
    rw [eq, eq, push]
    refine ⟨tp, fun member => ?_⟩
    dsimp only
    split_ifs with dynamics
    · rfl
    · exact cs ((List.mem_cons.mp member).resolve_left (Ne.symm dynamics))
  | closed name opens closes push eq =>
    rw [eq, eq, push]
    unfold Walk.close
    split_ifs with point
    · exact ⟨rfl, fun member => cs (List.mem_of_mem_tail member)⟩
    · exact ⟨tp, fun _ => rfl⟩
    · exact ⟨tp, fun member => cs (List.mem_of_mem_tail member)⟩
    · exact ⟨tp, fun member => cs (List.mem_of_mem_tail member)⟩
  | routed text opens closes content push eq =>
    rw [eq, eq, push]
    by_cases directly : rel = []
    · rw [routeText_directly container directly, routeText_directly container directly]
      exact ⟨tp, cs⟩
    · obtain ⟨parents, currents⟩ := names_inside name directly base' base
      rw [parents, currents]
      cases routeText_effect platform (parent (rel ++ name :: base)) (current (rel ++ name :: base)) text with
      | message change kind routed =>
        rw [routed, routed]
        exact ⟨tp, cs⟩
      | track change points start routed =>
        rw [routed, routed]
        exact ⟨tp, cs⟩
      | status kind routed =>
        rw [routed, routed]
        exact ⟨tp, cs⟩
      | point change kind indifferent routed =>
        rw [routed, routed]
        refine ⟨?_, cs⟩
        dsimp only
        rw [tp]
        cases dynamics : ofDynamics (parent (rel ++ name :: base)) (current (rel ++ name :: base)) with
        | true => rw [cs (dynamics_inside container dynamics)]
        | false => exact indifferent dynamics _ _ _
      | nothing routed =>
        rw [routed, routed]
        exact ⟨tp, cs⟩
  | passed opens closes push eq =>
    rw [eq, eq, push]
    exact ⟨tp, cs⟩

/-- Read in two places, the same tokens make the same point. -/
theorem through_tp_congr {name : String} (container : name ∈ containers) {rel : List String} (base base' : List String)
    {tokens : List Token} (closes : Transition.Allowed push Closes rel tokens) {w v : Walk} (tp : w.tp = v.tp)
    (cs : "dynamics" ∈ rel → w.dynamicsCs = v.dynamicsCs) :
    (w.through platform (rel ++ name :: base) tokens).tp = (v.through platform (rel ++ name :: base') tokens).tp := by
  induction tokens generalizing rel w v with
  | nil => exact tp
  | cons token tokens ih =>
    obtain ⟨next, nextCs⟩ := after_tp_congr platform container base base' token tp cs
    rw [Walk.through, Walk.through, push_append closes.1, push_append closes.1]
    exact ih closes.2 next nextCs

theorem after_segStatus_congr (platform : Platform Instant) {name : String} (container : name ∈ containers)
    (rel base base' : List String) (token : Token) {w v : Walk} (status : w.segStatus = v.segStatus) :
    (w.after platform (rel ++ name :: base) token).segStatus = (v.after platform (rel ++ name :: base') token).segStatus := by
  cases token_reads platform token with
  | opened name found opens closes push eq =>
    rw [eq, eq]
    exact status
  | closed name opens closes push eq =>
    rw [eq, eq]
    unfold Walk.close
    split_ifs
    · exact status
    · exact status
    · rfl
    · exact status
  | routed text opens closes content push eq =>
    rw [eq, eq]
    by_cases directly : rel = []
    · rw [routeText_directly container directly, routeText_directly container directly]
      exact status
    · obtain ⟨parents, currents⟩ := names_inside name directly base' base
      rw [parents, currents]
      cases routeText_effect platform (parent (rel ++ name :: base)) (current (rel ++ name :: base)) text with
      | message change kind routed =>
        rw [routed, routed]
        exact status
      | track change points start routed =>
        rw [routed, routed]
        exact status
      | status kind routed => rw [routed, routed]
      | point change kind indifferent routed =>
        rw [routed, routed]
        exact status
      | nothing routed =>
        rw [routed, routed]
        exact status
  | passed opens closes push eq =>
    rw [eq, eq]
    exact status

theorem through_segStatus_congr {name : String} (container : name ∈ containers) {rel : List String} (base base' : List String)
    {tokens : List Token} (closes : Transition.Allowed push Closes rel tokens) {w v : Walk} (status : w.segStatus = v.segStatus) :
    (w.through platform (rel ++ name :: base) tokens).segStatus =
      (v.through platform (rel ++ name :: base') tokens).segStatus := by
  induction tokens generalizing rel w v with
  | nil => exact status
  | cons token tokens ih =>
    have next := after_segStatus_congr platform container rel base base' token status
    rw [Walk.through, Walk.through, push_append closes.1, push_append closes.1]
    exact ih closes.2 next

theorem through_clean {stack : List String} {w : Walk} {tokens : List Token} (clean : Clean stack w)
    (closes : Transition.Allowed push Closes stack tokens) (contained : Transition.Allowed push Contained stack tokens) :
    Clean (tokens.foldl push stack) (w.through platform stack tokens) := by
  induction tokens generalizing stack w with
  | nil => exact clean
  | cons token tokens ih => exact ih (after_clean clean closes.1 contained.1.dynamics) closes.2 contained.2

theorem through_points {stack : List String} (w : Walk) {tokens : List Token}
    (other : ∀ token ∈ tokens, token.closes ≠ some "tp") :
    (w.through platform stack tokens).track.points = w.track.points := by
  induction tokens generalizing stack w with
  | nil => rfl
  | cons token tokens ih =>
    rw [Walk.through, ih _ fun token member => other token (List.mem_cons_of_mem _ member),
      after_points w (other token (List.mem_cons_self ..))]

/-- What an open element bars is not opened inside it. -/
theorem unopened_inside {ok : List String → Token → Prop} {name : String} {rel base : List String} {tokens : List Token}
    (closes : Transition.Allowed push Closes rel tokens) (allowed : Transition.Allowed push ok (rel ++ name :: base) tokens)
    (barred : String) (bars : ∀ stack token, name ∈ stack → ok stack token → token.opens ≠ some barred) :
    ∀ token ∈ tokens, token.opens ≠ some barred := by
  induction tokens generalizing rel with
  | nil => exact fun _ member => by cases member
  | cons first tokens ih =>
    have rest := allowed.2
    rw [push_append closes.1] at rest
    intro token member
    rcases List.mem_cons.mp member with rfl | later
    · exact bars _ _ (by simp) allowed.1
    · exact ih closes.2 rest token later

section

variable {name : String} {rel base : List String} {tokens : List Token} (closes : Transition.Allowed push Closes rel tokens)
  (contained : Transition.Allowed push Contained (rel ++ name :: base) tokens)

include closes contained

theorem through_msg (w : Walk) (track : name = "track") :
    (w.through platform (rel ++ name :: base) tokens).msg = w.msg := by
  induction tokens generalizing rel w with
  | nil => rfl
  | cons token tokens ih =>
    have inside : "track" ∈ rel ++ name :: base := by
      rw [track]
      simp
    have rest := contained.2
    rw [Walk.through, push_append closes.1]
    rw [push_append closes.1] at rest
    rw [ih closes.2 rest, after_msg w contained.1 inside]

theorem quiet_inside (container : name ∈ containers) (absent : "track" ∉ rel) : ∀ token ∈ tokens, token.Quiet := by
  have unopened := unopened_inside closes contained "track" fun stack token member contained opens => by
    obtain ⟨track, segment, tp⟩ := contained.track opens
    simp only [containers, List.mem_cons, List.not_mem_nil, or_false] at container
    rcases container with rfl | rfl | rfl
    · exact track member
    · exact segment member
    · exact tp member
  exact fun token member => ⟨unopened token member, (never_closed closes absent unopened).1 token member⟩

end

end

end Stanag4676Proof

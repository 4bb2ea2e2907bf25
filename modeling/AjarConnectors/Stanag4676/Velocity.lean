import AjarConnectors.Stanag4676.Isolation
import AjarConnectors.Stanag4676.Readings

namespace Stanag4676Model

open EventModel TextModel BuilderModel

/-- The `cs` attribute of a start tag. -/
def Token.system (token : Token) : Option String :=
  match token.event with
  | .startTag _ attributes => attributes.findSome? fun a => if localName a.1 = "cs" then some a.2 else none
  | _ => none

def quantityOf (parent cur : String) : Option Quantity :=
  if parent = "dynamics" ∧ cur = "pos" then some .pos
  else if parent = "dynamics" ∧ cur = "vel" then some .vel
  else none

/-- A point stands in no other and holds no track, a `dynamics` stands in no other, and what is said of a position or a
    velocity stands in a point. -/
structure Placed (stack : List String) (token : Token) : Prop where
  track : token.opens = some "track" → "tp" ∉ stack
  tp : token.opens = some "tp" → "tp" ∉ stack
  dynamics : token.opens = some "dynamics" → "dynamics" ∉ stack
  inside : InsidePoint stack token

instance Placed.decidable (stack : List String) (token : Token) : Decidable (Placed stack token) :=
  decidable_of_iff
    ((token.opens = some "track" → "tp" ∉ stack) ∧ (token.opens = some "tp" → "tp" ∉ stack) ∧
      (token.opens = some "dynamics" → "dynamics" ∉ stack) ∧
      (token.content ≠ none → ofDynamics (parent stack) (current stack) = true → "tp" ∈ stack))
    ⟨fun ⟨track, tp, dynamics, inside⟩ => ⟨track, tp, dynamics, inside⟩,
      fun placed => ⟨placed.track, placed.tp, placed.dynamics, placed.inside⟩⟩

/-- A track point: a `tp` element with all it holds where it belongs. -/
structure IsPoint (stack : List String) (first : Token) (inner : List Token) (last : Token) : Prop where
  element : IsElement "tp" first inner last
  placed : Transition.Allowed push Placed stack (first :: inner)

section

variable {Instant : Type} (platform : Platform Instant)

def readingOf (stack : List String) (element : Nat) (cs : Option String) (token : Token) : Option Reading :=
  token.content.bind fun text => (quantityOf (parent stack) (current stack)).bind fun quantity =>
    (parseFloats platform text).map fun values => ⟨element, cs, quantity, values⟩

/-- The positions and velocities that can be read in some tokens, each with its `dynamics`. -/
def readings : List String → Nat → Option String → List Token → List Reading
  | _, _, _, [] => []
  | stack, element, cs, token :: tokens =>
    (readingOf platform stack element cs token).toList ++
      if token.opens = some "dynamics" then readings (push stack token) (element + 1) token.system tokens
      else readings (push stack token) element cs tokens

/-- The readings of a point, its `dynamics` numbered from 1. -/
def pointReadings (stack : List String) (inner : List Token) : List Reading := readings platform ("tp" :: stack) 0 none inner

end

/-- The slots of a point hold the values of these readings. -/
structure Mirrors (p : PointCtx) (s : Slots) : Prop where
  cs : p.cs = s.cs
  pos : p.pos = s.pos.map Reading.values
  vel : p.vel = s.vel.map Reading.values

/-- The attributes that tell of the velocity. -/
def velocityKeys : List String := ["speed", "course", "vertical_rate"]

/-- The velocity of a point comes from a `dynamics` of its position's coordinate system, what is told of it from a WGS-84
    one; and if all WGS-84 readings are of one `dynamics` with a position and a velocity, both come from there. -/
structure VelocityMatches {Instant : Type} (platform : Platform Instant) (p : PointCtx) (readings : List Reading) : Prop where
  system : ∀ pos vel, (Slots.of readings).pos = some pos → (Slots.of readings).vel = some vel → vel.cs = pos.cs
  told : ∀ (parser : S4676Parser) (track : TrackCtx) (raw : Bytes) (msg : MessageCtx) (index : Nat) (key value : String),
    key ∈ velocityKeys → Call.attribute key value ∈ pointCalls platform parser track raw msg index p →
      ∃ vel, (Slots.of readings).vel = some vel ∧ vel.isWgs = true
  only : ∀ element, (∀ r ∈ readings, r.isWgs = true → r.element = element) →
    (∃ r ∈ readings, r.isWgsPos = true) → (∃ r ∈ readings, (r.isVel && r.isWgs) = true) →
      ∃ pos vel, (Slots.of readings).pos = some pos ∧ (Slots.of readings).vel = some vel ∧
        pos.element = element ∧ vel.element = element

end Stanag4676Model

namespace Stanag4676Proof

open EventModel TextModel BuilderModel Stanag4676Model

section

variable {Instant : Type} (platform : Platform Instant)

theorem routePos_mirrors {w : Walk} {s : Slots} (mirrors : Mirrors w.tp s) {r : Reading} (quantity : r.quantity = .pos)
    (cs : r.cs = w.dynamicsCs) : Mirrors (w.routePos r.values).tp (s.take r) := by
  unfold Walk.routePos preferWgs Slots.take Slots.prefers Reading.isWgs
  rw [quantity, mirrors.cs, mirrors.pos, Option.isNone_map, cs]
  dsimp only
  by_cases store : (s.pos.isNone || (w.dynamicsCs == some "WGS_84" && s.cs != some "WGS_84")) = true
  · rw [if_pos store, if_pos store]
    exact ⟨rfl, rfl, mirrors.vel⟩
  · rw [if_neg store, if_neg store]
    exact ⟨mirrors.cs, rfl, mirrors.vel⟩

theorem routeVel_mirrors {w : Walk} {s : Slots} (mirrors : Mirrors w.tp s) {r : Reading} (quantity : r.quantity = .vel)
    (cs : r.cs = w.dynamicsCs) : Mirrors (w.routeVel r.values).tp (s.take r) := by
  unfold Walk.routeVel preferWgs Slots.take Slots.prefers Reading.isWgs
  rw [quantity, mirrors.cs, mirrors.vel, Option.isNone_map, cs]
  dsimp only
  by_cases store : (s.vel.isNone || (w.dynamicsCs == some "WGS_84" && s.cs != some "WGS_84")) = true
  · rw [if_pos store, if_pos store]
    exact ⟨mirrors.cs, mirrors.pos, rfl⟩
  · rw [if_neg store, if_neg store]
    exact ⟨mirrors.cs, mirrors.pos, rfl⟩

theorem routeText_pos (w : Walk) (text : String) :
    w.routeText platform "dynamics" "pos" text = (parseFloats platform text).elim w w.routePos := by
  unfold Walk.routeText isLabel
  simp only [String.reduceEq, String.reduceBEq, and_false, if_false, and_self, if_true, Bool.false_and,
    Bool.false_eq_true]
  cases parseFloats platform text <;> rfl

theorem routeText_vel (w : Walk) (text : String) :
    w.routeText platform "dynamics" "vel" text = (parseFloats platform text).elim w w.routeVel := by
  unfold Walk.routeText isLabel
  simp only [String.reduceEq, String.reduceBEq, and_false, if_false, and_self, if_true, Bool.false_and,
    Bool.false_eq_true]
  cases parseFloats platform text <;> rfl

theorem Mirrors.ite {c : Prop} [Decidable c] {w v : Walk} {s : Slots} (first : Mirrors w.tp s) (second : Mirrors v.tp s) :
    Mirrors (if c then w else v).tp s := by
  split
  · exact first
  · exact second

/-- Any other text leaves the slots as they are. -/
theorem routeText_mirrors {w : Walk} {s : Slots} (mirrors : Mirrors w.tp s) {parent cur : String}
    (other : quantityOf parent cur = none) (text : String) : Mirrors (w.routeText platform parent cur text).tp s := by
  unfold quantityOf at other
  split at other
  · cases other
  · rename_i notPos
    split at other
    · cases other
    · rename_i notVel
      unfold Walk.routeText
      rw [if_neg notPos, if_neg notVel]
      have same : ∀ {v : Walk}, v.tp.cs = w.tp.cs → v.tp.pos = w.tp.pos → v.tp.vel = w.tp.vel → Mirrors v.tp s :=
        fun cs pos vel => ⟨cs.trans mirrors.cs, pos.trans mirrors.pos, vel.trans mirrors.vel⟩
      repeat' apply Mirrors.ite
      all_goals exact same rfl rfl rfl

/-- A token inside a point fills the slots with what it reads. -/
theorem after_mirrors (stack : List String) {w : Walk} {s : Slots} (mirrors : Mirrors w.tp s) {token : Token}
    (unclosed : token.closes ≠ some "tp") (element : Nat) (cs : Option String)
    (system : quantityOf (parent stack) (current stack) ≠ none → w.dynamicsCs = cs) :
    Mirrors (w.after platform stack token).tp ((readingOf platform stack element cs token).toList.foldl Slots.take s) := by
  rcases token with ⟨event, raw⟩
  cases event with
  | startTag name attributes =>
    unfold Walk.after
    dsimp only
    split_ifs <;> exact mirrors
  | endTag name =>
    have other : localName name ≠ "tp" := fun same => unclosed (congrArg some same)
    unfold Walk.after Walk.close
    dsimp only
    rw [if_neg other]
    split_ifs <;> exact mirrors
  | text content =>
    unfold Walk.after readingOf Token.content
    dsimp only
    by_cases blank : trim content = ""
    · rw [if_pos blank, if_pos blank]
      exact mirrors
    rw [if_neg blank, if_neg blank, Option.bind_some]
    cases found : quantityOf (parent stack) (current stack) with
    | none => exact routeText_mirrors platform mirrors found _
    | some quantity =>
      have same := system (by rw [found]; exact Option.some_ne_none _)
      rw [Option.bind_some]
      unfold quantityOf at found
      split at found
      · rename_i names
        cases found
        rw [names.1, names.2, routeText_pos]
        cases parseFloats platform (trim content) with
        | none => exact mirrors
        | some values => exact routePos_mirrors mirrors (r := ⟨element, cs, .pos, values⟩) rfl same.symm
      · split at found
        · rename_i names
          cases found
          rw [names.1, names.2, routeText_vel]
          cases parseFloats platform (trim content) with
          | none => exact mirrors
          | some values => exact routeVel_mirrors mirrors (r := ⟨element, cs, .vel, values⟩) rfl same.symm
        · cases found
  | emptyTag name attributes => exact mirrors
  | cdata content => exact mirrors
  | reference replacement => exact mirrors
  | other => exact mirrors

theorem quantityOf_dynamics {parent cur : String} (found : quantityOf parent cur ≠ none) : ofDynamics parent cur = true := by
  unfold quantityOf at found
  unfold ofDynamics
  by_cases pos : parent = "dynamics" ∧ cur = "pos"
  · rw [pos.1, pos.2]
    decide
  · by_cases vel : parent = "dynamics" ∧ cur = "vel"
    · rw [vel.1, vel.2]
      decide
    · rw [if_neg pos, if_neg vel] at found
      exact absurd rfl found

theorem after_opened (w : Walk) (stack : List String) {token : Token} (opens : token.opens = some "dynamics") :
    (w.after platform stack token).dynamicsCs = token.system := by
  rcases token with ⟨event, raw⟩
  cases event with
  | startTag name attributes =>
    unfold Walk.after Token.system
    dsimp only
    rw [if_pos (Option.some.inj opens)]
  | _ => cases opens

/-- Outside its start and end tags a `dynamics` keeps its coordinate system. -/
theorem after_kept (w : Walk) (stack : List String) {token : Token} (opens : token.opens ≠ some "dynamics")
    (closes : token.closes ≠ some "dynamics") : (w.after platform stack token).dynamicsCs = w.dynamicsCs := by
  cases token_reads platform token with
  | opened name cs opened unclosed push eq =>
    have other : name ≠ "dynamics" := fun same => opens (by rw [opened, same])
    rw [eq]
    exact if_neg other
  | closed name unopened closed push eq =>
    have other : name ≠ "dynamics" := fun same => closes (by rw [closed, same])
    rw [eq]
    unfold Walk.close
    rw [if_neg other]
    split_ifs <;> rfl
  | routed text unopened unclosed content push eq =>
    rw [eq]
    cases routeText_effect platform (parent stack) (current stack) text with
    | message change kind routed => rw [routed]
    | track change points start routed => rw [routed]
    | status kind routed => rw [routed]
    | point change kind indifferent routed => rw [routed]
    | nothing routed => rw [routed]
  | passed unopened unclosed push eq => rw [eq]

theorem count_push_le {rel : List String} {token : Token} (opens : token.opens ≠ some "dynamics") :
    (push rel token).count "dynamics" ≤ rel.count "dynamics" := by
  rcases token with ⟨event, raw⟩
  cases event with
  | startTag name attributes =>
    have other : localName name ≠ "dynamics" := fun same => opens (congrArg some same)
    unfold push
    dsimp only
    rw [List.count_cons_of_ne other]
  | endTag name => exact (List.tail_sublist rel).count_le "dynamics"
  | _ => exact Nat.le_refl _

/-- Through the tokens of a point, by induction on them: while a `dynamics` is open its coordinate system is known, and the
    slots hold what was read. -/
theorem through_mirrors {rel : List String} (base : List String) {tokens : List Token}
    (closes : Transition.Allowed push Closes rel tokens)
    (placed : Transition.Allowed push Placed (rel ++ "tp" :: base) tokens)
    (unclosed : ∀ token ∈ tokens, token.closes ≠ some "tp") {w : Walk} {s : Slots} (mirrors : Mirrors w.tp s) (element : Nat)
    (cs : Option String) (single : rel.count "dynamics" ≤ 1) (system : "dynamics" ∈ rel → w.dynamicsCs = cs) :
    Mirrors (w.through platform (rel ++ "tp" :: base) tokens).tp
      ((readings platform (rel ++ "tp" :: base) element cs tokens).foldl Slots.take s) := by
  induction tokens generalizing rel w s element cs with
  | nil => exact mirrors
  | cons token tokens ih =>
    have here := after_mirrors platform (rel ++ "tp" :: base) mirrors (unclosed token List.mem_cons_self) element cs
      fun found => system (dynamics_inside (by decide) (quantityOf_dynamics found))
    have later : ∀ token ∈ tokens, token.closes ≠ some "tp" := fun other member =>
      unclosed other (List.mem_cons_of_mem _ member)
    have rest := placed.2
    rw [push_append closes.1] at rest
    rw [Walk.through, readings, List.foldl_append, push_append closes.1]
    by_cases opens : token.opens = some "dynamics"
    · have absent : "dynamics" ∉ rel := fun member => placed.1.dynamics opens (List.mem_append_left _ member)
      rw [if_pos opens]
      apply ih closes.2 rest later here
      · rw [push_opens opens, List.count_cons_self, List.count_eq_zero.mpr absent]
      · intro _
        exact after_opened platform w _ opens
    · rw [if_neg opens]
      apply ih closes.2 rest later here
      · exact (count_push_le opens).trans single
      · intro member
        by_cases closed : token.closes = some "dynamics"
        · have top := top_of_closes closes.1 closed
          rw [push_closes closed] at member
          cases rel with
          | nil => cases member
          | cons open_dynamics rel =>
            cases top
            change "dynamics" ∈ rel at member
            rw [List.count_cons_self] at single
            exact absurd member (List.count_eq_zero.mp (by omega))
        · rw [after_kept platform w _ opens closed]
          exact system ((mem_push member).resolve_left opens)

end

end Stanag4676Proof

namespace Stanag4676Model

open BuilderModel

def tellsVelocity : Call → Bool
  | .attribute key _ => velocityKeys.contains key
  | _ => false

end Stanag4676Model

namespace Stanag4676Proof

open EventModel TextModel BuilderModel Stanag4676Model

section

variable {Instant : Type} (platform : Platform Instant)

theorem governed_silent (entity value : String) {key : String} (other : velocityKeys.contains key = false) :
    tellsVelocity (governed platform entity key value) = false := by
  unfold governed
  split
  · exact other
  · rfl

theorem toList_silent {α : Type} (found : Option α) {call : α → Call} (silent : ∀ a, tellsVelocity (call a) = false) :
    (found.map call).toList.any tellsVelocity = false := by
  cases found with
  | none => rfl
  | some a => rw [Option.map_some, Option.toList_some, List.any_cons, silent, List.any_nil, Bool.or_false]

theorem uidCalls_silent (uid : Option String) : (uidCalls uid).any tellsVelocity = false := by
  cases uid with
  | none => rfl
  | some uid =>
    rw [uidCalls, identityCalls]
    split <;> rfl

theorem labelCalls_silent (msg : MessageCtx) : (labelCalls msg).any tellsVelocity = false := by
  unfold labelCalls
  rw [List.any_append, toList_silent _ fun _ => rfl, Bool.false_or]
  cases msg.classification with
  | none => rfl
  | some cls =>
    rw [List.any_cons, List.any_map, List.any_eq_false.mpr]
    · rfl
    · intro tag _
      exact Bool.false_ne_true

theorem environmentCalls_silent (entity : String) (environment : Option String) :
    (environmentCalls platform entity environment).any tellsVelocity = false := by
  unfold environmentCalls
  rw [List.any_cons, governed_silent _ _ _ (by decide), Bool.false_or]
  cases environment with
  | none => rfl
  | some wire =>
    dsimp only
    split <;> rfl

theorem statusCalls_silent (entity : String) (status : Option String) :
    (statusCalls platform entity status).any tellsVelocity = false := by
  cases status with
  | none => rfl
  | some st =>
    rw [statusCalls, List.any_cons, governed_silent _ _ _ (by decide), Bool.false_or]
    rfl

/-- Only the kinematics tell of the velocity. -/
theorem pointCalls_tell (parser : S4676Parser) (track : TrackCtx) (raw : Bytes) (msg : MessageCtx) (index : Nat) (p : PointCtx) :
    (pointCalls platform parser track raw msg index p).any tellsVelocity = (kinematicsCalls platform p).any tellsVelocity := by
  unfold pointCalls
  simp only [List.any_append, uidCalls_silent, labelCalls_silent, environmentCalls_silent, statusCalls_silent]
  rw [toList_silent _ fun _ => rfl, toList_silent _ fun _ => rfl,
    toList_silent _ fun _ => governed_silent _ _ _ (by decide), toList_silent _ fun _ => rfl]
  rfl

theorem kinematicsCalls_tell {p : PointCtx} (told : (kinematicsCalls platform p).any tellsVelocity = true) :
    p.cs = some "WGS_84" ∧ p.pos ≠ none ∧ p.vel ≠ none := by
  unfold kinematicsCalls at told
  by_cases wgs : p.cs = some "WGS_84"
  · rw [if_pos wgs] at told
    refine ⟨wgs, ?_, ?_⟩
    · intro none
      rw [none] at told
      cases told
    · intro none
      rw [none] at told
      split at told <;> cases told
  · rw [if_neg wgs] at told
    cases found : p.cs with
    | none =>
      rw [found] at told
      cases told
    | some cs =>
      rw [found] at told
      dsimp only at told
      rw [List.any_cons, toList_silent _ fun _ => rfl] at told
      cases told

theorem attribute_told {parser : S4676Parser} {track : TrackCtx} {raw : Bytes} {msg : MessageCtx} {index : Nat} {p : PointCtx}
    {key value : String} (named : key ∈ velocityKeys)
    (told : Call.attribute key value ∈ pointCalls platform parser track raw msg index p) :
    p.cs = some "WGS_84" ∧ p.pos ≠ none ∧ p.vel ≠ none := by
  apply kinematicsCalls_tell platform
  rw [← pointCalls_tell platform parser track raw msg index, List.any_eq_true]
  exact ⟨_, told, List.contains_iff_mem.mpr named⟩

/-- Given the coordinate systems agree, the rest of what is asked of the velocity follows. -/
theorem matches_iff {p : PointCtx} {readings : List Reading} (mirrors : Mirrors p (Slots.of readings)) :
    VelocityMatches platform p readings ↔ FollowsPosition readings := by
  rw [← same_system_iff, ← slots_settle]
  constructor
  · intro matching
    exact matching.system
  · intro system
    refine ⟨system, ?_, ?_⟩
    · intro parser track raw msg index key value named told
      obtain ⟨cs, pos, vel⟩ := attribute_told platform named told
      rw [mirrors.cs, slots_settle, cs_of_pos, ← slots_settle] at cs
      rw [mirrors.vel] at vel
      obtain ⟨pos, held, wgs⟩ := Option.bind_eq_some_iff.mp cs
      cases kept : (Slots.of readings).vel with
      | none =>
        rw [kept] at vel
        exact absurd rfl vel
      | some vel => exact ⟨vel, rfl, isWgs_iff.mpr ((system pos vel held kept).trans wgs)⟩
    · intro element alone somePos someVel
      obtain ⟨pos, found⟩ := Option.isSome_iff_exists.mp (List.find?_isSome.mpr somePos)
      have held : (Slots.of readings).pos = some pos := by rw [slots_settle, pos_of_found found]
      have wgs := found_wgs found
      obtain ⟨r, member, both⟩ := someVel
      have isVel := (Bool.and_eq_true_iff.mp both).1
      cases kept : (Slots.of readings).vel with
      | none =>
        rw [slots_settle] at kept
        have none := (Option.or_eq_none_iff.mp kept).2
        exact absurd isVel (List.find?_eq_none.mp none r member)
      | some vel =>
        have same := system pos vel held kept
        rw [slots_settle] at kept
        refine ⟨pos, vel, held, rfl, ?_, ?_⟩
        · exact alone pos (List.mem_of_find?_eq_some found) (isWgs_iff.mpr wgs)
        · exact alone vel (settled_mem kept) (isWgs_iff.mpr (same.trans wgs))

variable {parser : S4676Parser} {native : Bytes}

/-- Reading a point adds it to the track with its slots filled by its readings. -/
theorem point_read {s : Progress} (clean : s.walk.tp = {}) {first last : Token} {inner : List Token}
    (point : IsPoint s.stack first inner last) :
    ∃ s' p, s.run platform parser native (first :: inner ++ [last]) = .ok s' ∧
      s'.walk.track.points = s.walk.track.points ++ [p] ∧ Mirrors p (Slots.of (pointReadings platform s.stack inner)) := by
  obtain ⟨element, placed⟩ := point
  have closes := element.inner.closes
  have inside : Transition.Allowed push Placed ("tp" :: s.stack) inner := by
    have rest := placed.2
    rw [push_opens element.first] at rest
    exact rest
  have noPoint := unopened_inside closes inside "tp" fun stack token member placed opens => placed.tp opens member
  have noTrack := unopened_inside closes inside "track" fun stack token member placed opens => placed.track opens member
  have quiet : ∀ token ∈ first :: inner ++ [last], token.Quiet := by
    intro token member
    rcases List.mem_append.mp member with member | member
    · rcases List.mem_cons.mp member with rfl | member
      · exact quiet_of_opens element.first (by decide)
      · exact ⟨noTrack token member, (never_closed closes (by simp) noTrack).1 token member⟩
    · rw [List.mem_singleton.mp member]
      exact quiet_of_closes element.last (by decide)
  have unclosed := (never_closed closes (by simp) noPoint).1
  have blank : Mirrors s.walk.tp {} := by
    rw [clean]
    exact ⟨rfl, rfl, rfl⟩
  have mirrors := through_mirrors platform s.stack closes inside unclosed blank 0 none (by simp) fun member => by cases member
  refine ⟨_, _, run_quiet s quiet, point_through element noPoint s.stack s.walk, ?_⟩
  exact ⟨mirrors.cs, mirrors.pos, mirrors.vel⟩

/-- In a message read so far, a track point's velocity follows its position exactly if its readings come in such an
    order. -/
theorem velocity_matches_iff {before : List Token} (closes : Transition.Allowed push Closes [] before)
    (placed : Transition.Allowed push Placed [] before) {s : Progress}
    (read : Progress.run platform parser native {} before = .ok s) {first last : Token} {inner : List Token}
    (point : IsPoint s.stack first inner last) :
    ∃ s' p, s.run platform parser native (first :: inner ++ [last]) = .ok s' ∧
      s'.walk.track.points = s.walk.track.points ++ [p] ∧ Mirrors p (Slots.of (pointReadings platform s.stack inner)) ∧
      (VelocityMatches platform p (pointReadings platform s.stack inner) ↔
        FollowsPosition (pointReadings platform s.stack inner)) := by
  have start : Clean ({} : Progress).stack ({} : Progress).walk := ⟨fun _ => rfl, fun _ => rfl⟩
  obtain ⟨-, clean⟩ := run_clean start closes (placed.mono fun _ _ placed => placed.inside) read
  have outside : "tp" ∉ s.stack := point.placed.1.tp point.element.first
  obtain ⟨s', p, ran, points, mirrors⟩ := @point_read _ platform parser native s (clean.tp outside) _ _ _ point
  exact ⟨s', p, ran, points, mirrors, matches_iff platform mirrors⟩

end

end Stanag4676Proof

namespace Stanag4676Model

/-- Reads the few numbers of the points below. -/
def numberPlatform : Platform Unit := { testPlatform with
  parseF64 := fun text =>
    if text = "60" then some ⟨0x404e000000000000⟩
    else if text = "25" then some ⟨0x4039000000000000⟩
    else if text = "2" then some ⟨0x4000000000000000⟩
    else none }

def quantity (name values : String) : List Token := element name [plainText values]

def dynamics (cs : String) (children : List Token) : List Token :=
  ⟨.startTag "dynamics" [("cs", cs)], rawText ("<dynamics cs=" ++ cs ++ ">")⟩ :: children ++ [endToken "dynamics"]

/-- Up to the points of a segment. -/
def upToPoints : List Token := [startToken "nitsRoot", startToken "message", startToken "track", startToken "segment"]

def atPoints : Progress where
  position := 35
  stack := ["segment", "track", "message", "nitsRoot"]
  walk := { track := { start := 19 } }

/-- A position and a velocity on the Earth's axes, then a WGS-84 velocity and a WGS-84 position. -/
def velocityFirst : List Token :=
  dynamics "ECEF" (quantity "pos" "2 2 2" ++ quantity "vel" "2 2 2") ++
    dynamics "WGS_84" (quantity "vel" "25 25" ++ quantity "pos" "60 25")

/-- The same with the WGS-84 position ahead of its velocity. -/
def positionFirst : List Token :=
  dynamics "ECEF" (quantity "pos" "2 2 2" ++ quantity "vel" "2 2 2") ++
    dynamics "WGS_84" (quantity "pos" "60 25" ++ quantity "vel" "25 25")

end Stanag4676Model

namespace Stanag4676Proof

open EventModel TextModel BuilderModel Stanag4676Model

theorem velocityFirst_point : IsPoint ["segment", "track", "message", "nitsRoot"] (startToken "tp") velocityFirst (endToken "tp") :=
  ⟨⟨by decide, ⟨by decide, by decide⟩, by decide⟩, by decide⟩

theorem positionFirst_point : IsPoint ["segment", "track", "message", "nitsRoot"] (startToken "tp") positionFirst (endToken "tp") :=
  ⟨⟨by decide, ⟨by decide, by decide⟩, by decide⟩, by decide⟩

theorem upToPoints_closes : Transition.Allowed push Closes [] upToPoints := by decide

theorem upToPoints_placed : Transition.Allowed push Placed [] upToPoints := by decide

theorem upToPoints_read : Progress.run numberPlatform testParser [] {} upToPoints = .ok atPoints := rfl

theorem wgs_velocity_replaces_another :
    ∃ s' p, atPoints.run numberPlatform testParser [] (startToken "tp" :: velocityFirst ++ [endToken "tp"]) = .ok s' ∧
      s'.walk.track.points = [p] ∧ p.vel = some [⟨0x4039000000000000⟩, ⟨0x4039000000000000⟩] ∧
      VelocityMatches numberPlatform p (pointReadings numberPlatform atPoints.stack velocityFirst) := by
  obtain ⟨s', p, ran, points, mirrors, order⟩ := velocity_matches_iff numberPlatform upToPoints_closes
    upToPoints_placed upToPoints_read velocityFirst_point
  have follows : FollowsPosition (pointReadings numberPlatform atPoints.stack velocityFirst) :=
    ⟨fun _ => Or.inl (by decide), fun none => absurd none (by decide)⟩
  exact ⟨s', p, ran, points, mirrors.vel.trans (by decide), order.mpr follows⟩

/-- Once the position is a WGS-84 one, the velocity on the Earth's axes stays. -/
theorem velocity_of_another_system_is_kept :
    ¬ ∀ (platform : Platform Unit) (parser : S4676Parser) (native : Bytes) (before : List Token),
      Transition.Allowed push Closes [] before → Transition.Allowed push Placed [] before →
      ∀ s, Progress.run platform parser native {} before = .ok s →
      ∀ first inner last, IsPoint s.stack first inner last →
      ∀ s' p, s.run platform parser native (first :: inner ++ [last]) = .ok s' →
        s'.walk.track.points = s.walk.track.points ++ [p] →
        VelocityMatches platform p (pointReadings platform s.stack inner) := by
  intro all
  have clean : atPoints.walk.tp = {} := rfl
  obtain ⟨s', p, ran, points, -⟩ := @point_read _ numberPlatform testParser [] atPoints clean _ _ _ positionFirst_point
  have matching := all numberPlatform testParser [] upToPoints upToPoints_closes upToPoints_placed atPoints
    upToPoints_read _ _ _ positionFirst_point s' p ran points
  have held : (Slots.of (pointReadings numberPlatform atPoints.stack positionFirst)).pos =
      some ⟨2, some "WGS_84", .pos, [⟨0x404e000000000000⟩, ⟨0x4039000000000000⟩]⟩ := by decide
  have kept : (Slots.of (pointReadings numberPlatform atPoints.stack positionFirst)).vel =
      some ⟨1, some "ECEF", .vel, [⟨0x4000000000000000⟩, ⟨0x4000000000000000⟩, ⟨0x4000000000000000⟩]⟩ := by decide
  exact absurd (matching.system _ _ held kept) (by decide)

end Stanag4676Proof

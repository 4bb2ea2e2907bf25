import AjarConnectors.Registers.Latest
import AjarConnectors.Stanag4676.Walk
import Mathlib.Data.List.Induction
import Mathlib.Data.List.TakeWhile

namespace Stanag4676Model

open EventModel Registers

inductive Quantity where
  | pos
  | vel
  deriving DecidableEq

/-- A `pos` or a `vel` that can be read, with the number and the coordinate system of its `dynamics`. -/
structure Reading where
  element : Nat
  cs : Option String
  quantity : Quantity
  values : List F64
  deriving DecidableEq

namespace Reading

def isPos (r : Reading) : Bool := r.quantity == .pos

def isVel (r : Reading) : Bool := r.quantity == .vel

def isWgs (r : Reading) : Bool := r.cs == some "WGS_84"

def isWgsPos (r : Reading) : Bool := r.isPos && r.isWgs

/-- The reading itself, if it is a WGS-84 velocity. -/
def wgsVel (r : Reading) : Option Reading := if r.isVel && r.isWgs then some r else none

end Reading

/-- The slots of a point, with the readings they were filled from. -/
@[ext]
structure Slots where
  cs : Option String := none
  pos : Option Reading := none
  vel : Option Reading := none

namespace Slots

/-- The test of `prefer_wgs`. -/
def prefers (s : Slots) (slot : Option Reading) (r : Reading) : Bool := slot.isNone || (r.isWgs && s.cs != some "WGS_84")

def take (s : Slots) (r : Reading) : Slots :=
  match r.quantity with
  | .pos => if s.prefers s.pos r then { s with pos := some r, cs := r.cs } else s
  | .vel => if s.prefers s.vel r then { s with vel := some r } else s

def of (readings : List Reading) : Slots := readings.foldl take {}

end Slots

/-- The readings ahead of the first WGS-84 position. -/
def ahead (readings : List Reading) : List Reading := readings.takeWhile fun r => !r.isWgsPos

/-- What the slots hold after some readings: the first position, a WGS-84 one if there is any; and the last WGS-84
    velocity ahead of the first WGS-84 position, or else the first velocity. -/
def settled (readings : List Reading) : Slots where
  cs := ((readings.find? Reading.isWgsPos).or (readings.find? Reading.isPos)).bind Reading.cs
  pos := (readings.find? Reading.isWgsPos).or (readings.find? Reading.isPos)
  vel := (latest Reading.wgsVel (ahead readings)).or (readings.find? Reading.isVel)

/-- If there is a WGS-84 position, a WGS-84 velocity stands ahead of the first, or the first velocity of all is a WGS-84
    one. If there is none, the first velocity has the coordinate system of the first position and no velocity is a WGS-84
    one. -/
structure FollowsPosition (readings : List Reading) : Prop where
  wgs : readings.any Reading.isWgsPos = true →
    (∃ r ∈ ahead readings, r.isVel && r.isWgs) ∨ ∀ vel, readings.find? Reading.isVel = some vel → vel.isWgs = true
  other : readings.any Reading.isWgsPos = false →
    ∀ pos vel, readings.find? Reading.isPos = some pos → readings.find? Reading.isVel = some vel →
      vel.cs = pos.cs ∧ ∀ r ∈ readings, r.isVel = true → r.isWgs = false

end Stanag4676Model

namespace Stanag4676Proof

open EventModel Registers Stanag4676Model

theorem isWgs_iff {r : Reading} : r.isWgs = true ↔ r.cs = some "WGS_84" := beq_iff_eq

theorem isWgsPos_iff {r : Reading} : r.isWgsPos = true ↔ r.isPos = true ∧ r.cs = some "WGS_84" := by
  rw [Reading.isWgsPos, Bool.and_eq_true, isWgs_iff]

theorem ahead_whole {readings : List Reading} (absent : readings.find? Reading.isWgsPos = none) : ahead readings = readings := by
  unfold ahead
  rw [List.takeWhile_eq_self_iff]
  intro r member
  have other := List.find?_eq_none.mp absent r member
  simpa using other

theorem ahead_found {readings : List Reading} {pos : Reading} (found : readings.find? Reading.isWgsPos = some pos)
    (later : List Reading) : ahead (readings ++ later) = ahead readings := by
  obtain ⟨wgs, before, after, rfl, others⟩ := List.find?_eq_some_iff_append.mp found
  have stop : ∀ more : List Reading, (before ++ pos :: more).takeWhile (fun r => !r.isWgsPos) = before := by
    intro more
    rw [List.takeWhile_append_of_pos others, List.takeWhile_cons_of_neg (by rw [wgs]; decide), List.append_nil]
  unfold ahead
  rw [List.append_assoc, List.cons_append, stop, stop]

theorem pos_of_found {readings : List Reading} {pos : Reading} (found : readings.find? Reading.isWgsPos = some pos) :
    (settled readings).pos = some pos := by
  unfold settled
  rw [found]
  rfl

theorem pos_of_absent {readings : List Reading} (absent : readings.find? Reading.isWgsPos = none) :
    (settled readings).pos = readings.find? Reading.isPos := by
  unfold settled
  rw [absent, Option.none_or]

theorem cs_of_pos (readings : List Reading) : (settled readings).cs = (settled readings).pos.bind Reading.cs := rfl

theorem found_wgs {readings : List Reading} {pos : Reading} (found : readings.find? Reading.isWgsPos = some pos) :
    pos.cs = some "WGS_84" :=
  (isWgsPos_iff.mp (List.find?_some found)).2

theorem first_plain {readings : List Reading} (absent : readings.find? Reading.isWgsPos = none) {pos : Reading}
    (first : readings.find? Reading.isPos = some pos) : pos.cs ≠ some "WGS_84" := by
  intro wgs
  apply List.find?_eq_none.mp absent pos (List.mem_of_find?_eq_some first)
  exact isWgsPos_iff.mpr ⟨List.find?_some first, wgs⟩

theorem settled_wgs {readings : List Reading} {pos : Reading} (found : readings.find? Reading.isWgsPos = some pos) :
    (settled readings).cs = some "WGS_84" := by
  rw [cs_of_pos, pos_of_found found]
  exact found_wgs found

theorem settled_other {readings : List Reading} (absent : readings.find? Reading.isWgsPos = none) :
    (settled readings).cs ≠ some "WGS_84" := by
  rw [cs_of_pos, pos_of_absent absent]
  cases first : readings.find? Reading.isPos with
  | none =>
    intro wgs
    cases wgs
  | some pos => exact first_plain absent first

theorem ahead_append {readings : List Reading} (absent : readings.find? Reading.isWgsPos = none) (later : List Reading) :
    ahead (readings ++ later) = readings ++ ahead later := by
  apply List.takeWhile_append_of_pos
  intro r member
  have other := List.find?_eq_none.mp absent r member
  simpa using other

/-- A WGS-84 position that is there is never replaced. -/
theorem settled_found {readings : List Reading} {pos : Reading} (found : readings.find? Reading.isWgsPos = some pos)
    (r : Reading) : settled (readings ++ [r]) =
      { settled readings with vel := (settled readings).vel.or ([r].find? Reading.isVel) } := by
  unfold settled
  rw [List.find?_append, List.find?_append, List.find?_append, found, ahead_found found]
  apply Slots.ext
  · rfl
  · rfl
  · exact Option.or_assoc.symm

theorem take_pos {r : Reading} (quantity : r.quantity = .pos) (readings : List Reading) :
    (settled readings).take r = settled (readings ++ [r]) := by
  have pos : r.isPos = true := by rw [Reading.isPos, quantity]; rfl
  have vel : r.isVel = false := by rw [Reading.isVel, quantity]; rfl
  have silent : latest Reading.wgsVel (ahead [r]) = none := by
    rw [latest_eq_none_iff]
    intro other member
    rw [List.mem_singleton.mp ((List.takeWhile_sublist _).subset member), Reading.wgsVel, vel]
    rfl
  unfold Slots.take Slots.prefers
  rw [quantity]
  dsimp only
  cases found : readings.find? Reading.isWgsPos with
  | some first =>
    rw [pos_of_found found, settled_wgs found, settled_found found, List.find?_singleton, vel, if_neg (by simp), if_neg (by simp), Option.or_none]
  | none =>
    have other := settled_other found
    have held := pos_of_absent found
    have kept : (settled (readings ++ [r])).vel = (settled readings).vel := by
      show (latest Reading.wgsVel (ahead (readings ++ [r]))).or ((readings ++ [r]).find? Reading.isVel) =
        (latest Reading.wgsVel (ahead readings)).or (readings.find? Reading.isVel)
      rw [ahead_append found, ahead_whole found, latest_append, silent, Option.none_or, List.find?_append,
        List.find?_singleton, vel, if_neg (by simp), Option.or_none]
    have next : (settled (readings ++ [r])).pos = if r.isWgs then some r else (readings.find? Reading.isPos).or (some r) := by
      show ((readings ++ [r]).find? Reading.isWgsPos).or ((readings ++ [r]).find? Reading.isPos) = _
      rw [List.find?_append, List.find?_append, found, List.find?_singleton, List.find?_singleton, Reading.isWgsPos, pos,
        Bool.true_and, if_pos rfl]
      cases r.isWgs <;> rfl
    rw [held]
    apply Slots.ext
    · rw [cs_of_pos (readings ++ [r]), next]
      cases first : readings.find? Reading.isPos with
      | none => cases r.isWgs <;> rfl
      | some old =>
        have same : (settled readings).cs = old.cs := by
          rw [cs_of_pos, held, first]
          rfl
        cases r.isWgs with
        | false => exact same
        | true =>
          rw [if_pos (by simp [other]), if_pos rfl]
          rfl
    · rw [next]
      cases r.isWgs <;> cases first : readings.find? Reading.isPos <;> simp [first, other, held]
    · rw [kept]
      split_ifs <;> rfl

theorem take_vel {r : Reading} (quantity : r.quantity = .vel) (readings : List Reading) :
    (settled readings).take r = settled (readings ++ [r]) := by
  have pos : r.isPos = false := by rw [Reading.isPos, quantity]; rfl
  have vel : r.isVel = true := by rw [Reading.isVel, quantity]; rfl
  have plain : r.isWgsPos = false := by rw [Reading.isWgsPos, pos]; rfl
  unfold Slots.take Slots.prefers
  rw [quantity]
  dsimp only
  cases found : readings.find? Reading.isWgsPos with
  | some first =>
    have refused : (r.isWgs && (settled readings).cs != some "WGS_84") = false := by
      rw [settled_wgs found]
      simp
    rw [refused, settled_found found, List.find?_singleton, vel, if_pos rfl, Bool.or_false]
    cases held : (settled readings).vel with
    | none => rfl
    | some old =>
      rw [if_neg (by simp), Option.some_or, ← held]
  | none =>
    have other := settled_other found
    have alone : ahead [r] = [r] := by
      unfold ahead
      rw [List.takeWhile_cons_of_pos (by rw [plain]; rfl), List.takeWhile_nil]
    have said : Reading.wgsVel r = if r.isWgs then some r else none := by rw [Reading.wgsVel, vel, Bool.true_and]
    have held : (settled readings).vel = (latest Reading.wgsVel readings).or (readings.find? Reading.isVel) := by
      unfold settled
      rw [ahead_whole found]
    have next : (settled (readings ++ [r])).vel = if r.isWgs then some r else (settled readings).vel.or (some r) := by
      rw [held]
      show (latest Reading.wgsVel (ahead (readings ++ [r]))).or ((readings ++ [r]).find? Reading.isVel) = _
      rw [ahead_append found, alone, latest_append, latest_singleton, said, List.find?_append, List.find?_singleton, vel,
        if_pos rfl, Option.or_assoc]
      cases r.isWgs <;> simp
    have kept : (settled (readings ++ [r])).pos = (settled readings).pos := by
      show ((readings ++ [r]).find? Reading.isWgsPos).or ((readings ++ [r]).find? Reading.isPos) =
        (readings.find? Reading.isWgsPos).or (readings.find? Reading.isPos)
      rw [List.find?_append, List.find?_append, List.find?_singleton, List.find?_singleton, plain, pos]
      exact congrArg₂ Option.or (Option.or_none ..) (Option.or_none ..)
    have system : (settled (readings ++ [r])).cs = (settled readings).cs := congrArg (Option.bind · Reading.cs) kept
    apply Slots.ext
    · rw [system]
      split_ifs <;> rfl
    · rw [kept]
      split_ifs <;> rfl
    · rw [next]
      cases r.isWgs <;> cases old : (settled readings).vel <;> simp [old, other]

/-- The slots after some readings, whatever their order. -/
theorem slots_settle (readings : List Reading) : Slots.of readings = settled readings := by
  induction readings using List.reverseRecOn with
  | nil => rfl
  | append_singleton readings r ih =>
    unfold Slots.of at ih ⊢
    rw [List.foldl_append, ih, List.foldl_cons, List.foldl_nil]
    cases quantity : r.quantity with
    | pos => exact take_pos quantity readings
    | vel => exact take_vel quantity readings

theorem wgsVel_eq_none_iff {r : Reading} : r.wgsVel = none ↔ (r.isVel && r.isWgs) = false := by
  unfold Reading.wgsVel
  cases r.isVel && r.isWgs <;> simp

theorem wgsVel_eq_some {r vel : Reading} (said : r.wgsVel = some vel) : r = vel ∧ (r.isVel && r.isWgs) = true := by
  unfold Reading.wgsVel at said
  split at said
  · rename_i wgs
    cases said
    exact ⟨rfl, wgs⟩
  · cases said

theorem settled_mem {readings : List Reading} {vel : Reading} (kept : (settled readings).vel = some vel) : vel ∈ readings := by
  rcases Option.or_eq_some_iff.mp kept with last | ⟨-, first⟩
  · obtain ⟨r, member, said⟩ := latest_eq_some last
    rw [← (wgsVel_eq_some said).1]
    exact (List.takeWhile_sublist _).subset member
  · exact List.mem_of_find?_eq_some first

theorem vel_of_last {readings : List Reading} {vel : Reading} (last : latest Reading.wgsVel (ahead readings) = some vel) :
    (settled readings).vel = some vel := by
  unfold settled
  rw [last]
  rfl

theorem vel_of_none {readings : List Reading} (none : latest Reading.wgsVel (ahead readings) = none) :
    (settled readings).vel = readings.find? Reading.isVel := by
  unfold settled
  rw [none, Option.none_or]

theorem follows_of_found {readings : List Reading} {pos : Reading} (found : readings.find? Reading.isWgsPos = some pos) :
    FollowsPosition readings ↔ (∃ r ∈ ahead readings, r.isVel && r.isWgs) ∨
      ∀ vel, readings.find? Reading.isVel = some vel → vel.isWgs = true := by
  have wgs : readings.any Reading.isWgsPos = true :=
    List.any_eq_true.mpr ⟨pos, List.mem_of_find?_eq_some found, List.find?_some found⟩
  constructor
  · intro follows
    exact follows.wgs wgs
  · intro first
    exact ⟨fun _ => first, fun none => Bool.noConfusion (wgs.symm.trans none)⟩

theorem follows_of_absent {readings : List Reading} (absent : readings.find? Reading.isWgsPos = none) :
    FollowsPosition readings ↔
      ∀ pos vel, readings.find? Reading.isPos = some pos → readings.find? Reading.isVel = some vel →
        vel.cs = pos.cs ∧ ∀ r ∈ readings, r.isVel = true → r.isWgs = false := by
  have none : readings.any Reading.isWgsPos = false := List.any_eq_false.mpr (List.find?_eq_none.mp absent)
  constructor
  · intro follows
    exact follows.other none
  · intro first
    exact ⟨fun wgs => Bool.noConfusion (wgs.symm.trans none), fun _ => first⟩

/-- With a WGS-84 position, only what comes ahead of it or first of all counts. -/
theorem same_system_of_found {readings : List Reading} {first : Reading}
    (found : readings.find? Reading.isWgsPos = some first) :
    (∀ pos vel, (settled readings).pos = some pos → (settled readings).vel = some vel → vel.cs = pos.cs) ↔
      FollowsPosition readings := by
  rw [follows_of_found found, pos_of_found found]
  have system := found_wgs found
  cases last : latest Reading.wgsVel (ahead readings) with
  | some vel =>
    obtain ⟨r, member, said⟩ := latest_eq_some last
    obtain ⟨rfl, wgs⟩ := wgsVel_eq_some said
    rw [vel_of_last last]
    apply iff_of_true
    · intro pos vel held kept
      cases held
      cases kept
      rw [system]
      exact isWgs_iff.mp (Bool.and_eq_true_iff.mp wgs).2
    · exact Or.inl ⟨r, member, wgs⟩
  | none =>
    rw [vel_of_none last]
    constructor
    · intro same
      right
      intro vel firstVel
      rw [isWgs_iff, same first vel rfl firstVel, system]
    · intro follows pos vel held firstVel
      cases held
      rcases follows with ⟨r, member, wgs⟩ | wgs
      · rw [wgsVel_eq_none_iff.mp (latest_eq_none_iff.mp last r member)] at wgs
        cases wgs
      · rw [system]
        exact isWgs_iff.mp (wgs vel firstVel)

/-- Without one, a WGS-84 velocity can only be wrong, and otherwise the first of each is kept. -/
theorem same_system_of_absent {readings : List Reading} (absent : readings.find? Reading.isWgsPos = none) :
    (∀ pos vel, (settled readings).pos = some pos → (settled readings).vel = some vel → vel.cs = pos.cs) ↔
      FollowsPosition readings := by
  rw [follows_of_absent absent, pos_of_absent absent]
  cases last : latest Reading.wgsVel (ahead readings) with
  | some vel =>
    have whole := last
    rw [ahead_whole absent] at whole
    obtain ⟨r, member, said⟩ := latest_eq_some whole
    obtain ⟨rfl, wgs⟩ := wgsVel_eq_some said
    obtain ⟨isVel, isWgs⟩ := Bool.and_eq_true_iff.mp wgs
    rw [vel_of_last last]
    constructor
    · intro same pos firstVel first _
      exact absurd ((same pos r first rfl).symm.trans (isWgs_iff.mp isWgs)) (first_plain absent first)
    · intro follows pos vel first _
      obtain ⟨firstVel, isFirst⟩ := Option.isSome_iff_exists.mp (List.find?_isSome.mpr ⟨r, member, isVel⟩)
      have none := (follows pos firstVel first isFirst).2 r member isVel
      rw [isWgs] at none
      cases none
  | none =>
    rw [vel_of_none last]
    rw [ahead_whole absent] at last
    constructor
    · intro same pos vel first firstVel
      refine ⟨same pos vel first firstVel, ?_⟩
      intro r member isVel
      have silent := wgsVel_eq_none_iff.mp (latest_eq_none_iff.mp last r member)
      rwa [isVel, Bool.true_and] at silent
    · intro follows pos vel first firstVel
      exact (follows pos vel first firstVel).1

/-- The velocity that is kept has the coordinate system of the position exactly if the readings come in such an order. -/
theorem same_system_iff (readings : List Reading) :
    (∀ pos vel, (settled readings).pos = some pos → (settled readings).vel = some vel → vel.cs = pos.cs) ↔
      FollowsPosition readings := by
  cases found : readings.find? Reading.isWgsPos with
  | some first => exact same_system_of_found found
  | none => exact same_system_of_absent found

end Stanag4676Proof

import AjarConnectors.Adsb.Positions
import AjarConnectors.Caches.Representation

namespace AdsbModel

open EventModel HttpModel CarryForward

/-- The aircraft a MSG line names, in upper case, with the line and its fields. -/
def named (frame : Bytes) : Option (Text × Text × List Text) :=
  match readLine frame with
  | .ok (some (line, parts)) =>
    if parts.headD [] = "MSG".toList then (field parts 4).map fun address => (address.map Char.toUpper, line, parts)
    else none
  | _ => none

def namesIcao (icao : Text) (frame : Bytes) : Bool := (named frame).map Prod.fst == some icao

/-- Whether a line names the address, ignoring case. -/
def namesAddress (address : Text) : Bytes → Bool := namesIcao (address.map Char.toUpper)

/-- What the cache of an ADS-B parser always is. -/
def Represented (p : AdsbParser) : Prop :=
  (∃ inserted, Eviction.Kept maxAircraft inserted p.aircraft.cache) ∧
    Eviction.AllValues (fun e => Capped carryCaps List.length e.carry) p.aircraft.cache

variable (floats : Floats)

/-- What a line makes of its own aircraft's entry, and the position it gives. -/
def took (icao line : Text) (parts : List Text) (e : Entry) : Option AdsbPosition × Entry :=
  let (entry, _) := e.take floats line parts
  match fix floats parts with
  | none => (none, entry)
  | some (msgType, lat, lon) =>
    let (raw, truncated, drained) := entry.drainPayload
    (some { icao := icao, msgType := msgType, lat := lat, lon := lon, altM := altitudeM floats entry.state,
            state := entry.state, raw := raw, truncated := truncated }, drained)

/-- The positions that the lines of a feed give. -/
def AdsbParser.positions (p : AdsbParser) : List Bytes → List AdsbPosition
  | [] => []
  | frame :: frames =>
    (p.parseLine floats frame).1.toOption.join.toList ++ (p.parseLine floats frame).2.positions frames

end AdsbModel

namespace AdsbProof

open AdsbModel EventModel CarryForward
open HttpModel (Text Bytes)

variable (floats : Floats) {p : AdsbParser}

theorem parseLine_unnamed {frame : Bytes} (unnamed : named frame = none) :
    (p.parseLine floats frame).1.toOption.join = none ∧ (p.parseLine floats frame).2 = p := by
  unfold named at unnamed
  unfold AdsbParser.parseLine
  cases read : readLine frame with
  | error e => exact ⟨rfl, rfl⟩
  | ok line =>
    cases line with
    | none => exact ⟨rfl, rfl⟩
    | some given =>
      obtain ⟨line, parts⟩ := given
      rw [read] at unnamed
      dsimp only at unnamed ⊢
      by_cases msg : parts.headD [] = "MSG".toList
      · rw [if_pos msg, Option.map_eq_none_iff] at unnamed
        rw [if_neg (not_not.mpr msg), unnamed]
        exact ⟨rfl, rfl⟩
      · rw [if_pos msg]
        refine ⟨?_, rfl⟩
        dsimp only
        split <;> rfl

/-- A line that names an aircraft reads and writes that aircraft's entry only. -/
theorem parseLine_named {frame : Bytes} {icao line : Text} {parts : List Text}
    (name : named frame = some (icao, line, parts)) :
    (p.parseLine floats frame).1.toOption.join = (took floats icao line parts (p.aircraft.value icao)).1 ∧
    (p.parseLine floats frame).2.aircraft = p.aircraft.write icao fun e => (took floats icao line parts e).2 := by
  unfold named at name
  unfold AdsbParser.parseLine StateCache.write
  cases read : readLine frame with
  | error e =>
    rw [read] at name
    cases name
  | ok found =>
    rw [read] at name
    cases found with
    | none => cases name
    | some given =>
      obtain ⟨line', parts'⟩ := given
      dsimp only at name ⊢
      by_cases msg : parts'.headD [] = "MSG".toList
      · rw [if_pos msg] at name
        obtain ⟨address, stated, same⟩ := Option.map_eq_some_iff.mp name
        cases same
        rw [if_neg (not_not.mpr msg), stated]
        dsimp only
        rw [value_entry_self]
        unfold took
        dsimp only
        cases fix floats parts with
        | none => exact ⟨rfl, rfl⟩
        | some fixed => exact ⟨rfl, rfl⟩
      · rw [if_neg msg] at name
        cases name

theorem parseLine_cache {frame : Bytes} {icao line : Text} {parts : List Text}
    (name : named frame = some (icao, line, parts)) :
    (p.parseLine floats frame).2.aircraft.cache =
      p.aircraft.cache.write maxAircraft icao {} fun e => (took floats icao line parts e).2 := by
  rw [(parseLine_named floats name).2, CachesProof.state_write]

theorem took_icao {icao line : Text} {parts : List Text} {e : Entry} {pos : AdsbPosition}
    (given : (took floats icao line parts e).1 = some pos) : pos.icao = icao := by
  unfold took at given
  dsimp only at given
  split at given
  · cases given
  · cases given
    rfl

/-- What a line does to an entry is a sequence of the entry's operations. -/
theorem took_ops (icao line : Text) (parts : List Text) : ∃ ops : List EntryOp, ∀ e : Entry,
    (took floats icao line parts e).2 = ops.foldl Entry.apply e := by
  cases fixed : fix floats parts with
  | none =>
    refine ⟨[.pushRaw (Utf8.encodeText line), .update fun s => s.note floats parts], ?_⟩
    intro e
    unfold took
    rw [fixed]
    rfl
  | some found =>
    refine ⟨[.pushRaw (Utf8.encodeText line), .update fun s => s.note floats parts, .drainPayload], ?_⟩
    intro e
    unfold took
    rw [fixed]
    rfl

/-- The cache of a parser that has seen aircraft of a set only. -/
structure Within (names : Finset Text) (p : AdsbParser) : Prop where
  kept : ∃ inserted, Eviction.Kept maxAircraft inserted p.aircraft.cache
  listed : ∀ icao ∈ p.aircraft.order, icao ∈ names

section

variable {names : Finset Text} {frame : Bytes} {icao line : Text} {parts : List Text}

theorem parseLine_within (few : names.card ≤ maxAircraft) (within : Within names p)
    (inside : ∀ icao line parts, named frame = some (icao, line, parts) → icao ∈ names) :
    Within names (p.parseLine floats frame).2 := by
  cases name : named frame with
  | none =>
    rw [(parseLine_unnamed floats name).2]
    exact within
  | some found =>
    obtain ⟨icao, line, parts⟩ := found
    obtain ⟨inserted, kept⟩ := within.kept
    have listed := inside icao line parts name
    constructor
    · rw [parseLine_cache floats name]
      exact ⟨_, Eviction.write_kept (by decide) kept icao {} _⟩
    · change ∀ other ∈ (p.parseLine floats frame).2.aircraft.cache.order, other ∈ names
      rw [parseLine_cache floats name]
      exact Eviction.write_within few kept within.listed listed {} _

theorem parseLine_value_other (few : names.card ≤ maxAircraft) (within : Within names p)
    (name : named frame = some (icao, line, parts)) (listed : icao ∈ names) {other : Text} (different : other ≠ icao) :
    (p.parseLine floats frame).2.aircraft.value other = p.aircraft.value other := by
  obtain ⟨inserted, kept⟩ := within.kept
  change ((p.parseLine floats frame).2.aircraft.cache.map other).getD {} = (p.aircraft.cache.map other).getD {}
  rw [parseLine_cache floats name, Eviction.write_other few kept within.listed listed {} _ different]

theorem parseLine_value_self (name : named frame = some (icao, line, parts)) :
    (p.parseLine floats frame).2.aircraft.value icao = (took floats icao line parts (p.aircraft.value icao)).2 := by
  rw [(parseLine_named floats name).2]
  unfold StateCache.write
  rw [value_set, if_pos rfl, value_entry_self]

end

/-- What the lines of a feed give for one aircraft is what its own lines give, from any cache with the same entry. -/
theorem positions_of (names : Finset Text) (few : names.card ≤ maxAircraft) (icao : Text) (frames : List Bytes)
    {q : AdsbParser} (inside : ∀ frame ∈ frames, ∀ named' ∈ named frame, named'.1 ∈ names) (within : Within names p)
    (same : p.aircraft.value icao = q.aircraft.value icao) :
    (p.positions floats frames).filter (fun pos => pos.icao == icao) =
      q.positions floats (frames.filter (namesIcao icao)) := by
  induction frames generalizing p q with
  | nil => rfl
  | cons frame frames ih =>
    have later := fun frame member => inside frame (List.mem_cons_of_mem _ member)
    have here := inside frame List.mem_cons_self
    have after : Within names (p.parseLine floats frame).2 := by
      apply parseLine_within floats few within
      intro icao line parts name
      exact here (icao, line, parts) name
    rw [AdsbParser.positions, List.filter_append]
    cases name : named frame with
    | none =>
      have skip : ¬ namesIcao icao frame = true := by simp [namesIcao, name]
      rw [List.filter_cons_of_neg skip, (parseLine_unnamed floats name).1, (parseLine_unnamed floats name).2]
      exact ih later within same
    | some found =>
      obtain ⟨own, line, parts⟩ := found
      have listed := here (own, line, parts) name
      by_cases equal : own = icao
      · subst equal
        have keep : namesIcao own frame = true := by simp [namesIcao, name]
        have next : (p.parseLine floats frame).2.aircraft.value own = (q.parseLine floats frame).2.aircraft.value own := by
          rw [parseLine_value_self floats name, parseLine_value_self floats name, same]
        rw [List.filter_cons_of_pos keep, AdsbParser.positions, ih later after next, (parseLine_named floats name).1,
          (parseLine_named floats name).1, same]
        congr 1
        apply List.filter_eq_self.mpr
        intro pos member
        exact beq_iff_eq.mpr (took_icao floats (Option.mem_toList.mp member))
      · have skip : ¬ namesIcao icao frame = true := by simp [namesIcao, name, equal]
        have next : (p.parseLine floats frame).2.aircraft.value icao = q.aircraft.value icao := by
          rw [parseLine_value_other floats few within name listed (Ne.symm equal), same]
        rw [List.filter_cons_of_neg skip, ih later after next, (parseLine_named floats name).1]
        have others : (took floats own line parts (p.aircraft.value own)).1.toList.filter (fun pos => pos.icao == icao) = [] := by
          apply List.filter_eq_nil_iff.mpr
          intro pos member equal'
          rw [took_icao floats (Option.mem_toList.mp member)] at equal'
          exact equal (beq_iff_eq.mp equal')
        rw [others, List.nil_append]

theorem parseLine_represented (represented : Represented p) (frame : Bytes) : Represented (p.parseLine floats frame).2 := by
  cases name : named frame with
  | none =>
    rw [(parseLine_unnamed floats name).2]
    exact represented
  | some found =>
    obtain ⟨icao, line, parts⟩ := found
    obtain ⟨⟨inserted, kept⟩, capped⟩ := represented
    obtain ⟨ops, applied⟩ := took_ops floats icao line parts
    unfold Represented
    rw [parseLine_cache floats name]
    refine ⟨⟨_, Eviction.write_kept (by decide) kept icao {} _⟩, ?_⟩
    have entered : Eviction.AllValues (fun e : Entry => Capped carryCaps List.length e.carry)
        (p.aircraft.cache.entry maxAircraft icao {}) := Eviction.entry_values capped capped_empty icao
    have read : Capped carryCaps List.length ((p.aircraft.cache.entry maxAircraft icao {}).value icao {}).carry :=
      Eviction.value_holds entered capped_empty icao
    apply Eviction.update_values entered
    dsimp only
    rw [applied]
    exact CachesProof.entry_capped ops read

/-- Every parser a feed can reach has its queue and its buffers in order. -/
theorem run_represented (represented : Represented p) (arrivals : List Arrival) : Represented (p.run floats arrivals) := by
  induction arrivals generalizing p with
  | nil => exact represented
  | cons a arrivals ih =>
    apply ih
    change Represented (p.parse floats a).2
    rw [parse_state]
    exact parseLine_represented floats represented a.frame

/-- Among at most 10,000 aircraft, the positions of one are those its own lines give. -/
theorem aircraft_do_not_interfere (sourceId : String) (hostility : Option String) (frames : List Bytes)
    (few : (frames.filterMap fun frame => (named frame).map Prod.fst).toFinset.card ≤ 10000) (address : Text) :
    (AdsbParser.positions floats { sourceId := sourceId, hostility := hostility } frames).filter
        (fun pos => pos.icao == address.map Char.toUpper) =
      AdsbParser.positions floats { sourceId := sourceId, hostility := hostility } (frames.filter (namesAddress address)) := by
  apply positions_of floats _ few
  · intro frame member found name
    rw [List.mem_toFinset, List.mem_filterMap]
    exact ⟨frame, member, by rw [name, Option.map_some]⟩
  · exact ⟨⟨[], Eviction.kept_empty⟩, by simp⟩
  · rfl

/-- One altitude-only line of each of two aircraft, and a position of the first, in lower case. -/
def twoAircraft : List Bytes :=
  ["MSG,5,1,1,4CA2D6,1,,,,,,38000", "MSG,5,1,1,400ABC,1,,,,,,38000", "MSG,3,1,1,4ca2d6,1,,,,,,,,,51.50000,-0.50000"].map
    fun line => Utf8.encodeText line.toList

theorem lower_case_line_names_the_aircraft :
    (AdsbParser.positions fewFloats { sourceId := "adsb-1", hostility := none } twoAircraft).filter
        (fun pos => pos.icao == "4CA2D6".toList) =
      AdsbParser.positions fewFloats { sourceId := "adsb-1", hostility := none }
        [twoAircraft.getD 0 [], twoAircraft.getD 2 []] := by
  have own : twoAircraft.filter (namesAddress "4ca2d6".toList) = [twoAircraft.getD 0 [], twoAircraft.getD 2 []] := by
    decide +kernel
  have few : (twoAircraft.filterMap fun frame => (named frame).map Prod.fst).toFinset.card ≤ 10000 := by
    apply (List.toFinset_card_le _).trans
    apply (List.length_filterMap_le _ _).trans
    decide
  rw [← own]
  exact aircraft_do_not_interfere fewFloats "adsb-1" none twoAircraft few "4ca2d6".toList

end AdsbProof

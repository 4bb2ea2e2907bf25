import AjarConnectors.Ais.Conservation

namespace AisModel

open HttpModel

/-- A message of several fragments, as it is handed to `decode`. -/
structure Message where
  key : ReasmKey
  bits : Bits
  raws : List Bytes

/-- The message that a sentence completes, if it came in several fragments. -/
def completes (pending : Reassembly) (now : Nat) (s : Sentence) : List Message :=
  if s.fragCount = 1 then []
  else match (receive pending now s).1 with
    | .ok (some (bits, raws)) => [⟨s.key, bits, raws⟩]
    | _ => []

def collect (pending : Reassembly) : List (Nat × Sentence) → List Message
  | [] => []
  | (now, s) :: rest => completes pending now s ++ collect (receive pending now s).2 rest

def heardAs (a : Arrival) : Option (Nat × Sentence) :=
  match readSentence a.frame with
  | .ok (some s) => some (a.now, s)
  | _ => none

/-- The AIS sentences of a feed, with the times of their arrival. -/
def heard (arrivals : List Arrival) : List (Nat × Sentence) := arrivals.filterMap heardAs

def Parser.handed {ρ : Type} (p : Parser ρ) (a : Arrival) : List Message :=
  match heardAs a with
  | some (now, s) => completes p.pending now s
  | none => []

/-- The messages of several fragments that a parser hands to `decode`. -/
def Parser.messages {ρ : Type} (floats : EventModel.Floats) (radar : Radar ρ) (p : Parser ρ) : List Arrival → List Message
  | [] => []
  | a :: arrivals => p.handed a ++ (p.parse floats radar a).2.messages floats radar arrivals

/-- A fragment of a message under the key. -/
def ofKey (key : ReasmKey) (f : Nat × Sentence) : Bool := f.2.fragCount != 1 && f.2.key == key

/-- The monotonic clock does not go back from one frame to the next. -/
def Chronological (arrivals : List Arrival) : Prop := arrivals.Pairwise fun a b => a.now ≤ b.now

/-- A message is made of fragments 1 to n, in order, of one key and total, all within the time that a partial lives. -/
structure MadeOf (fragments : List (Nat × Sentence)) (m : Message) : Prop where
  several : 2 ≤ fragments.length
  numbered : fragments.map (fun f => f.2.fragNum) = List.range' 1 fragments.length
  key : ∀ f ∈ fragments, f.2.key = m.key
  total : ∀ f ∈ fragments, f.2.fragCount = fragments.length
  fresh : ∀ first ∈ fragments.head?, ∀ f ∈ fragments, f.1 - first.1 < reasmTtl
  payload : ∀ last ∈ fragments.getLast?,
    Bits.fromPayload (fragments.flatMap fun f => f.2.payload) last.2.fill = .ok m.bits
  raws : m.raws = fragments.map fun f => f.2.raw

/-- The fragments that a partial message holds, from those heard so far. -/
structure Collected (heard : List (Nat × Sentence)) (key : ReasmKey) (e : Pending) (fragments : List (Nat × Sentence)) :
    Prop where
  sublist : fragments.Sublist heard
  numbered : fragments.map (fun f => f.2.fragNum) = List.range' 1 fragments.length
  key : ∀ f ∈ fragments, f.2.key = key
  total : ∀ f ∈ fragments, f.2.fragCount = e.total
  first : ∀ first ∈ fragments.head?, first.1 = e.firstSeen
  fresh : ∀ f ∈ fragments, f.1 - e.firstSeen < reasmTtl
  payload : e.payload = fragments.flatMap fun f => f.2.payload
  raws : e.raws = fragments.map fun f => f.2.raw

/-- What a fragment makes of the partial message of its key. -/
def own (e : Option Pending) (now : Nat) (s : Sentence) :
    Except AisError (Option (Bits × List Bytes)) × Option Pending :=
  let (taken, rest) :=
    if s.fragNum = 1 then (some ⟨s.fragCount, [], [], now⟩, e)
    else (e.filter fun p => p.continues s.fragCount s.fragNum, none)
  match taken with
  | none => (.ok none, rest)
  | some entry =>
    let entry : Pending := { entry with payload := entry.payload ++ s.payload, raws := entry.raws ++ [s.raw] }
    if s.fragNum < s.fragCount then (.ok none, some entry)
    else ((Bits.fromPayload entry.payload s.fill).map fun bits => some (bits, entry.raws), rest)

end AisModel

namespace AisProof

open AisModel EventModel
open HttpModel (Text Bytes)

/-- A fragment reads and writes only the partial message of its key, after the old ones are gone. -/
theorem receive_own (pending : Reassembly) (now : Nat) {s : Sentence} (several : s.fragCount ≠ 1) :
    receive pending now s =
      ((own (pending.retain now s.key) now s).1,
        Function.update (pending.retain now) s.key (own (pending.retain now s.key) now s).2) := by
  unfold receive own
  rw [if_neg several]
  unfold Reassembly.take
  by_cases first : s.fragNum = 1
  · rw [if_pos first, if_pos first]
    dsimp only
    split
    · rfl
    · rw [Function.update_eq_self]
  · rw [if_neg first, if_neg first]
    cases found : (pending.retain now s.key).filter fun p => p.continues s.fragCount s.fragNum with
    | none => rfl
    | some entry =>
      dsimp only
      split
      · rw [Function.update_idem]
      · rfl

theorem receive_alone (pending : Reassembly) (now : Nat) {s : Sentence} (single : s.fragCount = 1) :
    (receive pending now s).2 = pending := by
  unfold receive
  rw [if_pos single]

section

variable {key : ReasmKey} {pending other : Reassembly} {now later : Nat}

/-- Two states of reassembly that treat the fragments of a key alike from a time on. -/
def AgreeFrom (key : ReasmKey) (now : Nat) (pending other : Reassembly) : Prop :=
  ∀ t, now ≤ t → pending.retain t key = other.retain t key

theorem retain_retain (pending : Reassembly) (key : ReasmKey) {now later : Nat} (after : now ≤ later) :
    (pending.retain now).retain later key = pending.retain later key := by
  unfold Reassembly.retain
  rw [Option.filter_filter]
  congr 1
  funext p
  by_cases fresh : later - p.firstSeen < reasmTtl
  · have before : now - p.firstSeen < reasmTtl := by omega
    simp [fresh, before]
  · simp [fresh]

theorem retain_update_self (pending : Reassembly) (key : ReasmKey) (e : Option Pending) (now : Nat) :
    Reassembly.retain (Function.update pending key e) now key = e.filter fun p => now - p.firstSeen < reasmTtl := by
  unfold Reassembly.retain
  rw [Function.update_self]

/-- A sentence that is no fragment of the key leaves what its later fragments find. -/
theorem receive_other {s : Sentence} (agree : AgreeFrom key now pending other) (after : now ≤ later)
    (apart : ofKey key (later, s) = false) : AgreeFrom key later (receive pending later s).2 other := by
  intro t further
  by_cases single : s.fragCount = 1
  · rw [receive_alone pending later single]
    exact agree t (by omega)
  · have different : key ≠ s.key := by
      rintro rfl
      simp [ofKey, single] at apart
    rw [receive_own pending later single, ← agree t (by omega), ← retain_retain pending key further]
    unfold Reassembly.retain
    dsimp only
    rw [Function.update_of_ne different]

theorem receive_same {s : Sentence} (agree : AgreeFrom key now pending other) (after : now ≤ later)
    (fragment : ofKey key (later, s) = true) :
    completes pending later s = completes other later s ∧
      AgreeFrom key later (receive pending later s).2 (receive other later s).2 := by
  have parts : s.fragCount ≠ 1 ∧ s.key = key := by simpa [ofKey] using fragment
  obtain ⟨several, rfl⟩ := parts
  have found := agree later after
  unfold completes
  rw [receive_own pending later several, receive_own other later several, found]
  refine ⟨rfl, ?_⟩
  intro t further
  rw [retain_update_self, retain_update_self]

theorem completes_key {s : Sentence} {m : Message} (member : m ∈ completes pending now s) :
    m.key = s.key ∧ s.fragCount ≠ 1 := by
  unfold completes at member
  split at member
  · cases member
  · rename_i several
    split at member
    · rw [List.mem_singleton] at member
      subst member
      exact ⟨rfl, several⟩
    · cases member

/-- The messages of a key are those that its own fragments complete. -/
theorem collect_own (key : ReasmKey) {sentences : List (Nat × Sentence)} (agree : AgreeFrom key now pending other)
    (chronological : (sentences.map Prod.fst).Pairwise (· ≤ ·)) (after : ∀ f ∈ sentences, now ≤ f.1) :
    (collect pending sentences).filter (fun m => m.key == key) = collect other (sentences.filter (ofKey key)) := by
  induction sentences generalizing pending other now with
  | nil => rfl
  | cons f rest ih =>
    obtain ⟨t, s⟩ := f
    rw [List.map_cons, List.pairwise_cons] at chronological
    have here := after (t, s) List.mem_cons_self
    have further : ∀ f ∈ rest, t ≤ f.1 := fun f member => chronological.1 f.1 (List.mem_map_of_mem member)
    rw [collect, List.filter_append]
    by_cases fragment : ofKey key (t, s) = true
    · obtain ⟨same, next⟩ := receive_same agree here fragment
      have parts : s.fragCount ≠ 1 ∧ s.key = key := by simpa [ofKey] using fragment
      have whole : (completes pending t s).filter (fun m => m.key == key) = completes pending t s := by
        apply List.filter_eq_self.mpr
        intro m member
        rw [(completes_key member).1]
        exact beq_iff_eq.mpr parts.2
      rw [List.filter_cons_of_pos fragment, collect, ih next chronological.2 further, whole, same]
    · have apart := Bool.eq_false_iff.mpr fragment
      have none : (completes pending t s).filter (fun m => m.key == key) = [] := by
        apply List.filter_eq_nil_iff.mpr
        intro m member equal
        obtain ⟨made, several⟩ := completes_key member
        rw [made] at equal
        simp only [ofKey, equal, Bool.and_true, bne_iff_ne, ne_eq, not_not] at fragment
        exact several fragment
      rw [List.filter_cons_of_neg fragment, none, List.nil_append]
      exact ih (receive_other agree here apart) chronological.2 further

end

section

variable {seen : List (Nat × Sentence)} {key : ReasmKey} {e : Pending} {fragments : List (Nat × Sentence)} {now : Nat}
  {s : Sentence}

theorem collected_later (holds : Collected seen key e fragments) (f : Nat × Sentence) : Collected (seen ++ [f]) key e fragments :=
  { holds with sublist := holds.sublist.trans (List.sublist_append_left seen [f]) }

theorem collected_count (holds : Collected seen key e fragments) : e.raws.length = fragments.length := by
  rw [holds.raws, List.length_map]

theorem collected_nothing (seen : List (Nat × Sentence)) (key : ReasmKey) (total now : Nat) :
    Collected seen key ⟨total, [], [], now⟩ [] where
  sublist := List.nil_sublist seen
  numbered := rfl
  key := by simp
  total := by simp
  first := by simp
  fresh := by simp
  payload := rfl
  raws := rfl

/-- The next fragment of its message, in time, is taken into the partial. -/
theorem collected_extend (holds : Collected seen key e fragments) (same : s.key = key) (total : s.fragCount = e.total)
    (next : e.raws.length + 1 = s.fragNum) (fresh : now - e.firstSeen < reasmTtl)
    (starts : fragments = [] → e.firstSeen = now) :
    Collected (seen ++ [(now, s)]) key { e with payload := e.payload ++ s.payload, raws := e.raws ++ [s.raw] }
      (fragments ++ [(now, s)]) where
  sublist := holds.sublist.append (List.Sublist.refl _)
  numbered := by
    rw [List.map_append, holds.numbered, List.length_append, List.length_singleton, List.range'_1_concat,
      List.map_singleton, ← next, collected_count holds, Nat.add_comm 1]
  key := by
    intro f member
    rcases List.mem_append.mp member with old | last
    · exact holds.key f old
    · rw [List.mem_singleton.mp last]
      exact same
  total := by
    intro f member
    rcases List.mem_append.mp member with old | last
    · exact holds.total f old
    · rw [List.mem_singleton.mp last]
      exact total
  first := by
    intro first head
    cases fragments with
    | nil =>
      cases head
      exact (starts rfl).symm
    | cons f rest => exact holds.first first head
  fresh := by
    intro f member
    rcases List.mem_append.mp member with old | last
    · exact holds.fresh f old
    · rw [List.mem_singleton.mp last]
      exact fresh
  payload := by rw [List.flatMap_append, ← holds.payload, List.flatMap_singleton]
  raws := by rw [List.map_append, ← holds.raws, List.map_singleton]

theorem collected_made {bits : Bits} (holds : Collected seen key e (fragments ++ [(now, s)])) (several : s.fragCount ≠ 1)
    (positive : 1 ≤ s.fragNum) (last : s.fragNum = s.fragCount) (read : Bits.fromPayload e.payload s.fill = .ok bits) :
    MadeOf (fragments ++ [(now, s)]) ⟨key, bits, e.raws⟩ := by
  have length : (fragments ++ [(now, s)]).length = s.fragNum := by
    have numbered := congrArg List.getLast? holds.numbered
    rw [List.map_append, List.map_singleton, List.getLast?_concat, List.length_append, List.length_singleton,
      List.range'_1_concat, List.getLast?_concat, Option.some_inj] at numbered
    rw [List.length_append, List.length_singleton, numbered, Nat.add_comm]
  have total : s.fragCount = e.total := holds.total (now, s) (by simp)
  constructor
  · omega
  · exact holds.numbered
  · exact holds.key
  · intro f member
    rw [holds.total f member, ← total, length, last]
  · intro first head f member
    rw [holds.first first head]
    exact holds.fresh f member
  · intro f final
    rw [List.getLast?_concat] at final
    cases final
    rw [← holds.payload]
    exact read
  · exact holds.raws

/-- Every partial message holds fragments that were heard. -/
def Partials (seen : List (Nat × Sentence)) (pending : Reassembly) : Prop :=
  ∀ key e, pending key = some e → ∃ fragments, Collected seen key e fragments

/-- What one fragment does: the partial of its key holds what was heard, and so does a message it completes. -/
theorem own_sound {held : Option Pending} (holds : ∀ e ∈ held, (∃ fragments, Collected seen s.key e fragments) ∧
      now - e.firstSeen < reasmTtl) (several : s.fragCount ≠ 1) (positive : 1 ≤ s.fragNum) (most : s.fragNum ≤ s.fragCount) :
    (∀ e ∈ (own held now s).2, ∃ fragments, Collected (seen ++ [(now, s)]) s.key e fragments) ∧
    ∀ bits raws, (own held now s).1 = .ok (some (bits, raws)) →
      ∃ fragments, fragments.Sublist (seen ++ [(now, s)]) ∧ MadeOf fragments ⟨s.key, bits, raws⟩ := by
  have kept : ∀ e ∈ held, ∃ fragments, Collected (seen ++ [(now, s)]) s.key e fragments := by
    intro e found
    obtain ⟨fragments, old⟩ := (holds e found).1
    exact ⟨fragments, collected_later old (now, s)⟩
  -- the partial that the fragment joins, with the fragments it has
  have joined : ∀ (rest : Option Pending) (entry : Pending) (fragments : List (Nat × Sentence)),
      (∀ e ∈ rest, ∃ fragments, Collected (seen ++ [(now, s)]) s.key e fragments) →
      Collected (seen ++ [(now, s)]) s.key { entry with payload := entry.payload ++ s.payload, raws := entry.raws ++ [s.raw] }
        (fragments ++ [(now, s)]) →
      let outcome : Except AisError (Option (Bits × List Bytes)) × Option Pending :=
        if s.fragNum < s.fragCount then
          (.ok none, some { entry with payload := entry.payload ++ s.payload, raws := entry.raws ++ [s.raw] })
        else ((Bits.fromPayload (entry.payload ++ s.payload) s.fill).map fun bits =>
          some (bits, entry.raws ++ [s.raw]), rest)
      (∀ e ∈ outcome.2, ∃ fragments, Collected (seen ++ [(now, s)]) s.key e fragments) ∧
      ∀ bits raws, outcome.1 = .ok (some (bits, raws)) →
        ∃ fragments, fragments.Sublist (seen ++ [(now, s)]) ∧ MadeOf fragments ⟨s.key, bits, raws⟩ := by
    intro rest entry fragments others extended
    dsimp only
    split
    · constructor
      · intro e found
        cases found
        exact ⟨_, extended⟩
      · intro bits raws completed
        cases completed
    · rename_i final
      refine ⟨others, ?_⟩
      intro bits raws completed
      cases read : Bits.fromPayload (entry.payload ++ s.payload) s.fill with
      | error e =>
        rw [read] at completed
        cases completed
      | ok found =>
        rw [read] at completed
        cases completed
        exact ⟨_, extended.sublist, collected_made extended several positive (by omega) read⟩
  unfold own
  by_cases first : s.fragNum = 1
  · rw [if_pos first]
    exact joined held ⟨s.fragCount, [], [], now⟩ [] kept
      (collected_extend (collected_nothing seen s.key s.fragCount now) rfl rfl (by simp [first]) (by simp [reasmTtl]) fun _ => rfl)
  · rw [if_neg first]
    cases found : held.filter fun p => p.continues s.fragCount s.fragNum with
    | none =>
      constructor
      · intro e none
        cases none
      · intro bits raws completed
        cases completed
    | some entry =>
      obtain ⟨present, continues⟩ := Option.filter_eq_some_iff.mp found
      obtain ⟨⟨fragments, old⟩, fresh⟩ := holds entry present
      simp only [Pending.continues, Bool.and_eq_true, beq_iff_eq] at continues
      apply joined none entry fragments (by simp)
      apply collected_extend old rfl continues.1.symm continues.2 fresh
      rintro rfl
      have count := collected_count old
      rw [List.length_nil] at count
      omega

theorem receive_sound (now : Nat) {pending : Reassembly} (partials : Partials seen pending) (positive : 1 ≤ s.fragNum)
    (most : s.fragNum ≤ s.fragCount) :
    Partials (seen ++ [(now, s)]) (receive pending now s).2 ∧
    ∀ m ∈ completes pending now s, ∃ fragments, fragments.Sublist (seen ++ [(now, s)]) ∧ MadeOf fragments m := by
  have later : ∀ key e, pending key = some e → ∃ fragments, Collected (seen ++ [(now, s)]) key e fragments := by
    intro key e found
    obtain ⟨fragments, holds⟩ := partials key e found
    exact ⟨fragments, collected_later holds (now, s)⟩
  unfold completes
  by_cases alone : s.fragCount = 1
  · rw [receive_alone pending now alone, if_pos alone]
    exact ⟨later, by simp⟩
  · have held : ∀ e ∈ pending.retain now s.key, (∃ fragments, Collected seen s.key e fragments) ∧
        now - e.firstSeen < reasmTtl := by
      intro e found
      obtain ⟨present, fresh⟩ := Option.filter_eq_some_iff.mp found
      exact ⟨partials s.key e present, of_decide_eq_true fresh⟩
    obtain ⟨after, made⟩ := own_sound held alone positive most
    rw [receive_own pending now alone, if_neg alone]
    constructor
    · intro key e found
      dsimp only at found
      by_cases same : key = s.key
      · subst same
        rw [Function.update_self] at found
        exact after e found
      · rw [Function.update_of_ne same] at found
        exact later key e (Option.filter_eq_some_iff.mp found).1
    · intro m member
      dsimp only at member
      split at member
      · rename_i bits raws completed
        rw [List.mem_singleton] at member
        subst member
        exact made bits raws completed
      · cases member

end

/-- The numbers that the parser checks in every sentence. -/
def Numbered (s : Sentence) : Prop := 1 ≤ s.fragNum ∧ s.fragNum ≤ s.fragCount

theorem collect_sound {sentences : List (Nat × Sentence)} (numbered : ∀ f ∈ sentences, Numbered f.2)
    {seen : List (Nat × Sentence)} {pending : Reassembly} (partials : Partials seen pending) :
    ∀ m ∈ collect pending sentences, ∃ fragments, fragments.Sublist (seen ++ sentences) ∧ MadeOf fragments m := by
  induction sentences generalizing seen pending with
  | nil =>
    intro m member
    cases member
  | cons f rest ih =>
    obtain ⟨now, s⟩ := f
    have here := numbered (now, s) List.mem_cons_self
    obtain ⟨after, made⟩ := receive_sound now partials here.1 here.2
    have whole : seen ++ (now, s) :: rest = (seen ++ [(now, s)]) ++ rest := by simp
    intro m member
    rw [whole]
    rcases List.mem_append.mp member with completed | further
    · obtain ⟨fragments, sublist, parts⟩ := made m completed
      exact ⟨fragments, sublist.trans (List.sublist_append_left _ rest), parts⟩
    · exact ih (fun f member => numbered f (List.mem_cons_of_mem _ member)) after m further

theorem readSentence_numbered {frame : Bytes} {s : Sentence} (read : readSentence frame = .ok (some s)) : Numbered s := by
  unfold readSentence at read
  split at read
  · cases read
  · dsimp only at read
    repeat' split at read
    all_goals try cases read
    unfold Numbered
    dsimp only
    omega

theorem heard_numbered {arrivals : List Arrival} : ∀ f ∈ heard arrivals, Numbered f.2 := by
  intro f member
  obtain ⟨a, _, found⟩ := List.mem_filterMap.mp member
  unfold heardAs at found
  split at found
  · rename_i s read
    cases found
    exact readSentence_numbered read
  · cases found

theorem heardAs_now {a : Arrival} {f : Nat × Sentence} (found : heardAs a = some f) : f.1 = a.now := by
  unfold heardAs at found
  split at found
  · cases found
    rfl
  · cases found

theorem heard_chronological {arrivals : List Arrival} (clock : Chronological arrivals) :
    ((heard arrivals).map Prod.fst).Pairwise (· ≤ ·) := by
  rw [List.pairwise_map]
  apply List.Pairwise.filterMap heardAs _ clock
  intro a b order f first g second
  rw [heardAs_now first, heardAs_now second]
  exact order

section

variable {ρ : Type} (floats : Floats) (radar : Radar ρ)

theorem noteStatic_pending (p : Parser ρ) (bits : Bits) (msgType mmsi : Nat) :
    (p.noteStatic bits msgType mmsi).pending = p.pending := by
  unfold Parser.noteStatic Parser.staticClassB
  repeat' split
  all_goals rfl

theorem pushRaws_pending {mmsi : Nat} (raws : List Bytes) (p : Parser ρ) :
    (raws.foldl (fun p raw => p.pushRaw mmsi raw) p).pending = p.pending := by
  induction raws generalizing p with
  | nil => rfl
  | cons raw raws ih => exact ih (p.pushRaw mmsi raw)

theorem position_pending (p : Parser ρ) (bits : Bits) (msgType mmsi : Nat) (layout : AisModel.Layout) :
    (p.position floats bits msgType mmsi layout).2.pending = p.pending := by
  unfold Parser.position
  dsimp only
  split <;> rfl

theorem decode_pending (p : Parser ρ) (bits : Bits) (raws : List Bytes) : (p.decode floats bits raws).2.pending = p.pending := by
  rw [Parser.decode]
  split
  · rfl
  · dsimp only
    split
    · rw [pushRaws_pending]
      exact noteStatic_pending p bits _ _
    · rw [position_pending]
      exact noteStatic_pending p bits _ _

theorem parseSentence_pending (p : Parser ρ) (now : Nat) (frame : Bytes) :
    (p.parseSentence floats now frame).2.pending =
      match readSentence frame with
      | .ok (some s) => (receive p.pending now s).2
      | _ => p.pending := by
  unfold Parser.parseSentence
  cases readSentence frame with
  | error e => rfl
  | ok found =>
    cases found with
    | none => rfl
    | some s =>
      dsimp only
      rcases receive p.pending now s with ⟨e | ⟨_ | ⟨bits, raws⟩⟩, q⟩
      · rfl
      · rfl
      · exact decode_pending floats _ bits raws

/-- Reassembly sees every AIS sentence of the feed and nothing else. -/
theorem parse_pending (p : Parser ρ) (a : Arrival) : (p.parse floats radar a).2.pending =
    match heardAs a with
    | some (now, s) => (receive p.pending now s).2
    | none => p.pending := by
  unfold heardAs
  cases wanted : radarSentence a.frame with
  | some s =>
    have kept : (p.parse floats radar a).2.pending = p.pending := by
      unfold Parser.parse
      rw [wanted]
      dsimp only
      repeat' split
      all_goals rfl
    rw [kept]
    split
    · rename_i sentence read
      split at read
      · rename_i found
        exact absurd found (radar_not_read wanted _)
      · cases read
    · rfl
  | none =>
    have parse : p.parse floats radar a = stamp floats a (p.parseSentence floats a.now a.frame) := by
      rw [Parser.parse, wanted]
    rw [parse, stamp_state, parseSentence_pending]
    cases readSentence a.frame with
    | error e => rfl
    | ok found => cases found <;> rfl

theorem messages_collect (p : Parser ρ) (arrivals : List Arrival) :
    p.messages floats radar arrivals = collect p.pending (heard arrivals) := by
  induction arrivals generalizing p with
  | nil => rfl
  | cons a arrivals ih =>
    rw [Parser.messages, Parser.handed, ih, parse_pending]
    unfold heard
    rw [List.filterMap_cons]
    cases heardAs a with
    | none => rfl
    | some f => rfl

end

/-- Messages are made of what was heard, and those of one key depend on its own fragments only. -/
theorem reassembly_is_sound_and_isolated {ρ : Type} (floats : Floats) (radar : Radar ρ) (sourceId : String)
    (hostility : Option String) (start : ρ) (arrivals : List Arrival) (clock : Chronological arrivals) :
    (∀ m ∈ (Parser.new sourceId hostility start).messages floats radar arrivals,
      ∃ fragments, fragments.Sublist (heard arrivals) ∧ MadeOf fragments m) ∧
    ∀ (key : ReasmKey) (others : List Arrival), Chronological others →
      (heard others).filter (ofKey key) = (heard arrivals).filter (ofKey key) →
      ((Parser.new sourceId hostility start).messages floats radar others).filter (fun m => m.key == key) =
        ((Parser.new sourceId hostility start).messages floats radar arrivals).filter fun m => m.key == key := by
  have own : ∀ (key : ReasmKey) (feed : List Arrival), Chronological feed →
      ((Parser.new sourceId hostility start).messages floats radar feed).filter (fun m => m.key == key) =
        collect (fun _ => none) ((heard feed).filter (ofKey key)) := by
    intro key feed order
    have silent : AgreeFrom key 0 (fun _ => none) fun _ => none := fun _ _ => rfl
    rw [messages_collect]
    exact collect_own key silent (heard_chronological order) fun _ _ => Nat.zero_le _
  constructor
  · intro m member
    rw [messages_collect] at member
    have nothing : Partials [] fun _ => none := by
      intro key e found
      cases found
    exact collect_sound heard_numbered nothing m member
  · intro key others order same
    rw [own key others order, own key arrivals clock, same]

section Interleaved

open FeedModel (body sentence)

/-- Fragment `number` of two under sequence id `seq`, a second after the one before. -/
def fragmentArrival (number : Nat) (seq : Text) (chunk : Text) (second : Nat) : Arrival :=
  ⟨Utf8.encodeText (sentence (body 2 number seq 'A' chunk 0)), second * 1000000000,
    "01890a5d-ac96-774b-bcce-b302099a8057", "2026-06-10T08:00:00Z"⟩

theorem fragment_heard {number : Nat} {seq chunk : Text} (plain : Plain 2 number 0 seq chunk 'A') (second : Nat) :
    heardAs (fragmentArrival number seq chunk second) = some (second * 1000000000,
      { talker := FeedModel.talker, fragCount := 2, fragNum := number, seq := (TextModel.parseU8 10 seq).getD 0,
        channel := ['A'], payload := chunk, fill := 0, raw := rawOf (body 2 number seq 'A' chunk 0) }) := by
  unfold heardAs fragmentArrival
  dsimp only
  rw [readSentence_body plain]

theorem plain_fragment (number : Nat) (seq chunk : Text) (first : 1 ≤ number) (last : number ≤ 2)
    (sequence : ',' ∉ seq ∧ '*' ∉ seq) (payload : ',' ∉ chunk ∧ '*' ∉ chunk) : Plain 2 number 0 seq chunk 'A' :=
  ⟨by decide, first, last, by decide, sequence, payload, by decide⟩

def aloneFeed : List Arrival := [fragmentArrival 1 ['0'] ['5'] 0, fragmentArrival 2 ['0'] ['8'] 2]

/-- A fragment under another sequence id arrives between the two. -/
def interleavedFeed : List Arrival :=
  [fragmentArrival 1 ['0'] ['5'] 0, fragmentArrival 2 ['1'] ['9'] 1, fragmentArrival 2 ['0'] ['8'] 2]

theorem interleaved_fragment_changes_nothing :
    ((Parser.new "ais-1" none ()).messages Floats.idle deafRadar aloneFeed).filter
        (fun m => m.key == ⟨FeedModel.talker, ['A'], 0⟩) =
      ((Parser.new "ais-1" none ()).messages Floats.idle deafRadar interleavedFeed).filter
        fun m => m.key == ⟨FeedModel.talker, ['A'], 0⟩ := by
  have one := fragment_heard (plain_fragment 1 ['0'] ['5'] (by decide) (by decide) (by decide) (by decide)) 0
  have two := fragment_heard (plain_fragment 2 ['0'] ['8'] (by decide) (by decide) (by decide) (by decide)) 2
  have between := fragment_heard (plain_fragment 2 ['1'] ['9'] (by decide) (by decide) (by decide) (by decide)) 1
  apply (reassembly_is_sound_and_isolated Floats.idle deafRadar "ais-1" none () interleavedFeed (by
    simp [Chronological, interleavedFeed, fragmentArrival])).2
  · simp [Chronological, aloneFeed, fragmentArrival]
  · unfold heard aloneFeed interleavedFeed
    simp only [List.filterMap_cons, List.filterMap_nil, one, two, between]
    rfl

end Interleaved

end AisProof

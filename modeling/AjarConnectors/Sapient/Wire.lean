import AjarConnectors.Framing.Prefixed
import AjarConnectors.Transition.Run

namespace SapientModel

abbrev Bytes := List UInt8

def prefixLen : Nat := 4

def maxMessageLen : Nat := 64 * 1024

inductive FrameError where
  | needPrefix
  | tooLong (declared : Nat)
  | incomplete (declared present : Nat)
  deriving DecidableEq

inductive ReadError where
  | tooLong (declared : Nat)
  | closed
  deriving DecidableEq

def u32LeBytes (n : Nat) : Bytes :=
  [UInt8.ofNat n, UInt8.ofNat (n / 2^8), UInt8.ofNat (n / 2^16), UInt8.ofNat (n / 2^24)]

def frame (payload : Bytes) : Bytes := u32LeBytes payload.length ++ payload

def unframe : Bytes → Except FrameError (Bytes × Bytes)
  | a :: b :: c :: d :: rest =>
    let declared := a.toNat + b.toNat * 2^8 + c.toNat * 2^16 + d.toNat * 2^24
    if maxMessageLen < declared then .error (.tooLong declared)
    else if rest.length < declared then .error (.incomplete declared rest.length)
    else .ok (rest.splitAt declared)
  | _ => .error .needPrefix

/-- A connection as `read_frame` sees it: the bytes not yet read, the bytes held, and whether a
    call is suspended at its `await`. -/
structure Stream where
  wire : Bytes
  held : Bytes
  waiting : Bool
  deriving DecidableEq

abbrev Result := Except ReadError Bytes

/-- From the top of the loop of `read_frame` to its `return` or its `await`. -/
def Stream.advance (s : Stream) : Stream × Option Result :=
  match unframe s.held with
  | .ok (payload, _) =>
    ({ s with held := s.held.drop (prefixLen + payload.length), waiting := false }, some (.ok payload))
  | .error (.tooLong n) => ({ s with waiting := false }, some (.error (.tooLong n)))
  | .error _ => ({ s with waiting := true }, none)

def Stream.receive (s : Stream) (size : Nat) : Stream :=
  { s with wire := s.wire.drop size, held := s.held ++ s.wire.take size }

inductive Input where
  | call
  /-- The awaited read completes with up to `n + 1` bytes, none where the peer has closed. -/
  | wake (n : Nat)
  /-- The suspended call is dropped. -/
  | cancel
  deriving DecidableEq

def Stream.step (s : Stream) : Input → Stream × Option Result
  | .call => if s.waiting then (s, none) else s.advance
  | .wake n =>
    if s.waiting then
      let size := min (n + 1) 8192
      if s.wire.take size = [] then ({ s with waiting := false }, some (.error .closed))
      else (s.receive size).advance
    else (s, none)
  | .cancel => ({ s with waiting := false }, none)

/-- A schedule of calls, wake-ups and cancellations: the state it ends in and what the completed
    calls returned. -/
def perform (run : Stream × List Result) (input : Input) : Stream × List Result :=
  ((run.1.step input).1, run.2 ++ (run.1.step input).2.toList)

def runFrom (wire : Bytes) (schedule : List Input) : Stream × List Result :=
  schedule.foldl perform (⟨wire, [], false⟩, [])

end SapientModel

namespace SapientProof

open SapientModel

theorem frame_eq_encode (payload : Bytes) : frame payload = Framing.u32Le.format.encode payload := rfl

theorem unframe_eq (data : Bytes) :
    unframe data = match Framing.u32Le.declared data with
      | none => .error .needPrefix
      | some n =>
        if maxMessageLen < n then .error (.tooLong n)
        else if data.length - prefixLen < n then .error (.incomplete n (data.length - prefixLen))
        else .ok ((data.drop prefixLen).splitAt n) := by
  rcases data with _ | ⟨a, _ | ⟨b, _ | ⟨c, _ | ⟨d, rest⟩⟩⟩⟩
  · rfl
  · rfl
  · rfl
  · rfl
  · have declared : Framing.u32Le.declared (a :: b :: c :: d :: rest) =
        some (a.toNat + b.toNat * 2^8 + c.toNat * 2^16 + d.toNat * 2^24) := by
      rw [Framing.LengthPrefix.declared, if_neg (by simp [Framing.u32Le])]
      simp [Framing.u32Le]
      omega
    rw [declared]
    rfl

/-- What follows the frames: the peer closes, or it sends a prefix above the bound. -/
inductive Ending : Bytes → ReadError → Prop where
  | closed : Ending [] .closed
  | tooLong (n : Nat) (rest : Bytes) (above : maxMessageLen < n) (small : n < 2^32) :
      Ending (u32LeBytes n ++ rest) (.tooLong n)

/-- `unframe` still needs bytes, so the call waits. -/
def Short (held : Bytes) : Prop :=
  unframe held = .error .needPrefix ∨ ∃ declared present, unframe held = .error (.incomplete declared present)

theorem unframe_next {held wire payload rest : Bytes} (fits : payload.length ≤ maxMessageLen)
    (stream : held ++ wire = frame payload ++ rest) :
    (Short held ∧ wire ≠ []) ∨
      (∃ more, unframe held = .ok (payload, more) ∧ held.drop (prefixLen + payload.length) ++ wire = rest) := by
  have limit : payload.length ≤ Framing.u32Le.limit := Nat.le_trans fits (by decide)
  have declared := Framing.LengthPrefix.declared_of_stream limit stream
  by_cases whole : prefixLen + payload.length ≤ held.length
  · right
    have split := Framing.LengthPrefix.split_of_stream (P := Framing.u32Le) stream whole
    refine ⟨(held.drop prefixLen).drop payload.length, ?_, split.2⟩
    rw [unframe_eq, declared, if_neg (by change ¬ held.length < prefixLen; omega)]
    dsimp only
    rw [if_neg (Nat.not_lt.mpr fits), if_neg (by omega), List.splitAt_eq]
    rw [show (held.drop prefixLen).take payload.length = payload from split.1]
  · left
    constructor
    · unfold Short
      rw [unframe_eq, declared]
      by_cases short : held.length < Framing.u32Le.width
      · rw [if_pos short]
        exact Or.inl rfl
      · have wide : ¬ held.length < prefixLen := short
        rw [if_neg short]
        dsimp only
        rw [if_neg (Nat.not_lt.mpr fits), if_pos (by omega)]
        exact Or.inr ⟨_, _, rfl⟩
    · intro empty
      have length := congrArg List.length stream
      rw [empty, List.append_nil, List.length_append, frame_eq_encode, Framing.LengthPrefix.encode_length] at length
      change held.length = prefixLen + payload.length + rest.length at length
      omega

theorem unframe_ending {held wire tail : Bytes} {final : ReadError} (ending : Ending tail final)
    (stream : held ++ wire = tail) :
    (Short held ∧ held.length < prefixLen ∧ (wire = [] → final = .closed)) ∨
      (∃ n, final = .tooLong n ∧ unframe held = .error (.tooLong n)) := by
  cases ending with
  | closed =>
    have empty := List.append_eq_nil_iff.mp stream
    rw [empty.1]
    exact Or.inl ⟨Or.inl rfl, by decide, fun _ => rfl⟩
  | tooLong n rest above small =>
    by_cases short : held.length < prefixLen
    · left
      refine ⟨Or.inl ?_, short, ?_⟩
      · rw [unframe_eq, Framing.LengthPrefix.declared, if_pos (show held.length < Framing.u32Le.width from short)]
      · intro empty
        have length := congrArg List.length stream
        rw [empty, List.append_nil, List.length_append] at length
        change held.length = prefixLen + rest.length at length
        omega
    · right
      refine ⟨n, rfl, ?_⟩
      have front : held.take prefixLen = u32LeBytes n := by
        have taken := congrArg (List.take prefixLen) stream
        rwa [List.take_append_of_le_length (Nat.not_lt.mp short),
          List.take_left' (show (u32LeBytes n).length = prefixLen from rfl)] at taken
      have declared : Framing.u32Le.declared held = some n := by
        rw [Framing.LengthPrefix.declared, if_neg (show ¬ held.length < Framing.u32Le.width from short)]
        change some (Framing.u32Le.get (held.take prefixLen)) = some n
        rw [front]
        exact congrArg some (Framing.u32Le.get_put n (Nat.le_of_lt_succ small))
      rw [unframe_eq, declared]
      dsimp only
      rw [if_pos above]

/-- The frames returned so far, the bytes held and the bytes on the wire make up the stream, and a
    call waits only where `unframe` needs more. -/
structure Progress (payloads : List Bytes) (tail : Bytes) (final : ReadError) (run : Stream × List Result)
    (done failed : Nat) : Prop where
  results : run.2 = (payloads.take done).map .ok ++ List.replicate failed (.error final)
  bound : done ≤ payloads.length
  last : 0 < failed → done = payloads.length
  stream : run.1.held ++ run.1.wire = (payloads.drop done).flatMap frame ++ tail
  short : run.1.waiting = true → Short run.1.held

variable {payloads : List Bytes} {tail : Bytes} {final : ReadError} {s : Stream} {results : List Result}
  {done failed : Nat}

theorem Short.advance (short : Short s.held) : s.advance = ({ s with waiting := true }, none) := by
  unfold Stream.advance
  rcases short with need | ⟨declared, present, need⟩ <;> rw [need]

theorem Progress.advance (fits : ∀ payload ∈ payloads, payload.length ≤ maxMessageLen) (ending : Ending tail final)
    (progress : Progress payloads tail final (s, results) done failed) :
    ∃ done failed, Progress payloads tail final (s.advance.1, results ++ s.advance.2.toList) done failed := by
  rcases progress with ⟨returned, bound, last, stream, _⟩
  dsimp only at returned stream
  cases remaining : payloads.drop done with
  | nil =>
    have all : done = payloads.length := by
      have length := List.drop_eq_nil_iff.mp remaining
      omega
    rw [remaining] at stream
    rcases unframe_ending ending stream with ⟨short, _⟩ | ⟨n, same, long⟩
    · refine ⟨done, failed, ?_⟩
      rw [short.advance]
      exact ⟨by simpa using returned, bound, last, by rw [remaining]; exact stream, fun _ => short⟩
    · refine ⟨done, failed + 1, ?_⟩
      unfold Stream.advance
      rw [long]
      refine ⟨?_, bound, fun _ => all, by rw [remaining]; exact stream, fun waiting => by cases waiting⟩
      simp only [Option.toList_some]
      rw [returned, List.append_assoc, same, List.replicate_succ']
  | cons payload more =>
    have inside : done < payloads.length := by
      by_contra beyond
      rw [List.drop_eq_nil_of_le (Nat.not_lt.mp beyond)] at remaining
      cases remaining
    have next : payloads[done]? = some payload := by
      rw [← List.head?_drop, remaining]
      rfl
    have none_failed : failed = 0 := by
      by_contra some_failed
      exact absurd (last (Nat.pos_of_ne_zero some_failed)) (Nat.ne_of_lt inside)
    rw [remaining, List.flatMap_cons, List.append_assoc] at stream
    have member : payload ∈ payloads := List.mem_of_getElem? next
    rcases unframe_next (fits payload member) stream with ⟨short, _⟩ | ⟨rest, found, after⟩
    · refine ⟨done, failed, ?_⟩
      rw [short.advance]
      refine ⟨by simpa using returned, bound, last, ?_, fun _ => short⟩
      rw [remaining, List.flatMap_cons, List.append_assoc]
      exact stream
    · refine ⟨done + 1, 0, ?_⟩
      unfold Stream.advance
      rw [found]
      have later : payloads.drop (done + 1) = more := by
        rw [← List.drop_drop, remaining]
        rfl
      refine ⟨?_, inside, fun none => absurd none (by decide), by rw [later]; exact after, fun waiting => by cases waiting⟩
      simp only [Option.toList_some]
      rw [returned, none_failed, List.take_add_one, next]
      simp

theorem Progress.wire_ne_nil (fits : ∀ payload ∈ payloads, payload.length ≤ maxMessageLen) (ending : Ending tail final)
    (progress : Progress payloads tail final (s, results) done failed) (waiting : s.waiting = true)
    (empty : s.wire = []) : done = payloads.length ∧ final = .closed := by
  have short : Short s.held := progress.short waiting
  have stream : s.held ++ s.wire = (payloads.drop done).flatMap frame ++ tail := progress.stream
  have bound := progress.bound
  cases remaining : payloads.drop done with
  | nil =>
    have length := List.drop_eq_nil_iff.mp remaining
    rw [remaining] at stream
    rcases unframe_ending ending stream with ⟨_, _, closed⟩ | ⟨n, _, long⟩
    · exact ⟨by omega, closed empty⟩
    · rcases short with need | ⟨declared, present, need⟩ <;> rw [long] at need <;> cases need
  | cons payload more =>
    have member : payload ∈ payloads := by
      apply List.mem_of_mem_drop (i := done)
      rw [remaining]
      exact List.mem_cons_self
    rw [remaining, List.flatMap_cons, List.append_assoc] at stream
    rcases unframe_next (fits payload member) stream with ⟨_, more⟩ | ⟨rest, found, _⟩
    · exact absurd empty more
    · rcases short with need | ⟨declared, present, need⟩ <;> rw [found] at need <;> cases need

/-- Everything one input can do. -/
theorem step_cases (s : Stream) (input : Input) :
    s.step input = (s, none) ∨ s.step input = ({ s with waiting := false }, none) ∨ s.step input = s.advance ∨
    (s.waiting = true ∧ s.wire = [] ∧ s.step input = ({ s with waiting := false }, some (.error .closed))) ∨
    (∃ chunk rest, s.wire = chunk ++ rest ∧ chunk ≠ [] ∧
      s.step input = Stream.advance { s with wire := rest, held := s.held ++ chunk }) := by
  cases input with
  | call =>
    by_cases waiting : s.waiting = true
    · exact Or.inl (if_pos waiting)
    · exact Or.inr (Or.inr (Or.inl (if_neg waiting)))
  | cancel => exact Or.inr (Or.inl rfl)
  | wake n =>
    by_cases waiting : s.waiting = true
    · simp only [Stream.step, if_pos waiting]
      by_cases nothing : s.wire.take (min (n + 1) 8192) = []
      · have empty : s.wire = [] := by
          rcases List.take_eq_nil_iff.mp nothing with zero | empty
          · omega
          · exact empty
        exact Or.inr (Or.inr (Or.inr (Or.inl ⟨waiting, empty, if_pos nothing⟩)))
      · exact Or.inr (Or.inr (Or.inr (Or.inr ⟨_, _, (List.take_append_drop _ _).symm, nothing, if_neg nothing⟩)))
    · exact Or.inl (if_neg waiting)

theorem advance_waiting (s : Stream) (waiting : Bool) :
    Stream.advance { s with waiting := waiting } = s.advance := rfl

/-- One step of a schedule, whatever it is, keeps the account of the stream. -/
theorem Progress.step (fits : ∀ payload ∈ payloads, payload.length ≤ maxMessageLen) (ending : Ending tail final)
    (run : Stream × List Result) (input : Input)
    (progress : ∃ done failed, Progress payloads tail final run done failed) :
    ∃ done failed, Progress payloads tail final (perform run input) done failed := by
  rcases run with ⟨s, results⟩
  rcases progress with ⟨done, failed, progress⟩
  unfold perform
  rcases step_cases s input with same | same | same | ⟨waiting, empty, same⟩ | ⟨chunk, rest, wire, _, same⟩
  · dsimp only
    rw [same, Option.toList_none, List.append_nil]
    exact ⟨done, failed, progress⟩
  · dsimp only
    rw [same, Option.toList_none, List.append_nil]
    exact ⟨done, failed, progress.results, progress.bound, progress.last, progress.stream, fun waiting => by cases waiting⟩
  · dsimp only
    rw [same]
    exact progress.advance fits ending
  · have finished := progress.wire_ne_nil fits ending waiting empty
    dsimp only
    rw [same]
    refine ⟨done, failed + 1, ?_, progress.bound, fun _ => finished.1, progress.stream, fun waiting => by cases waiting⟩
    have returned : results = _ := progress.results
    simp only [Option.toList_some]
    rw [returned, finished.2, List.append_assoc, List.replicate_succ']
  · have read : Progress payloads tail final
        ({ s with wire := rest, held := s.held ++ chunk, waiting := false }, results) done failed := by
      refine ⟨progress.results, progress.bound, progress.last, ?_, fun waiting => by cases waiting⟩
      dsimp only
      rw [List.append_assoc, ← wire]
      exact progress.stream
    have next := read.advance fits ending
    rw [advance_waiting { s with wire := rest, held := s.held ++ chunk } false] at next
    dsimp only
    rw [same]
    exact next

theorem runFrom_progress (fits : ∀ payload ∈ payloads, payload.length ≤ maxMessageLen) (ending : Ending tail final)
    (schedule : List Input) :
    ∃ done failed, Progress payloads tail final (runFrom (payloads.flatMap frame ++ tail) schedule) done failed := by
  apply Transition.always _ (fun run input progress => Progress.step fits ending run input progress) schedule
  exact ⟨0, 0, rfl, Nat.zero_le _, fun none => absurd none (by decide), rfl, fun waiting => by cases waiting⟩

theorem perform_keeps (run : Stream × List Result) (inputs : List Input) :
    run.2 <+: (inputs.foldl perform run).2 := by
  induction inputs generalizing run with
  | nil => exact List.prefix_refl _
  | cons input inputs ih => exact (List.prefix_append _ _).trans (ih (perform run input))

theorem advance_cases (s : Stream) :
    (∃ result, s.advance.2 = some result) ∨ s.advance = ({ s with waiting := true }, none) := by
  unfold Stream.advance
  split
  · exact Or.inl ⟨_, rfl⟩
  · exact Or.inl ⟨_, rfl⟩
  · exact Or.inr rfl

theorem returned_longer {run : Stream × List Result} {input : Input} {result : Result} (inputs : List Input)
    (returned : (run.1.step input).2 = some result) :
    run.2.length < ((input :: inputs).foldl perform run).2.length := by
  have more := (perform_keeps (perform run input) inputs).length_le
  have first : (perform run input).2.length = run.2.length + 1 := by
    rw [perform, returned]
    simp
  rw [List.foldl_cons]
  omega

/-- A suspended call returns after at most one wake-up for each unread byte and one for the close. -/
theorem wakes_return (wakes : List Nat) (run : Stream × List Result) (waiting : run.1.waiting = true)
    (enough : run.1.wire.length < wakes.length) :
    run.2.length < ((wakes.map Input.wake).foldl perform run).2.length := by
  induction wakes generalizing run with
  | nil => simp at enough
  | cons n wakes ih =>
    rw [List.map_cons]
    by_cases nothing : run.1.wire.take (min (n + 1) 8192) = []
    · have closed : (run.1.step (.wake n)).2 = some (.error .closed) := by
        simp only [Stream.step, if_pos waiting, if_pos nothing]
      exact returned_longer _ closed
    · have stepped : run.1.step (.wake n) = (run.1.receive (min (n + 1) 8192)).advance := by
        simp only [Stream.step, if_pos waiting, if_neg nothing]
      rcases advance_cases (run.1.receive (min (n + 1) 8192)) with ⟨result, returned⟩ | waits
      · rw [← stepped] at returned
        exact returned_longer _ returned
      · rw [waits] at stepped
        have unread : (run.1.wire.drop (min (n + 1) 8192)).length < wakes.length := by
          have some_bytes : run.1.wire.length ≠ 0 := fun zero =>
            nothing (by rw [List.eq_nil_of_length_eq_zero zero, List.take_nil])
          rw [List.length_drop]
          rw [List.length_cons] at enough
          omega
        have later := ih (perform run (.wake n)) (by rw [perform, stepped]) (by rw [perform, stepped]; exact unread)
        rw [List.foldl_cons]
        rw [perform, stepped] at later ⊢
        simpa using later

theorem call_returns (run : Stream × List Result) (wakes : List Nat) (enough : run.1.wire.length < wakes.length) :
    run.2.length < ((Input.call :: wakes.map Input.wake).foldl perform run).2.length := by
  by_cases waiting : run.1.waiting = true
  · have same : perform run .call = run := by
      simp [perform, Stream.step, waiting]
    rw [List.foldl_cons, same]
    exact wakes_return wakes run waiting enough
  · have stepped : run.1.step .call = run.1.advance := if_neg waiting
    rcases advance_cases run.1 with ⟨result, returned⟩ | waits
    · rw [← stepped] at returned
      exact returned_longer _ returned
    · rw [waits] at stepped
      have later := wakes_return wakes (perform run .call) (by rw [perform, stepped])
        (by rw [perform, stepped]; exact enough)
      rw [List.foldl_cons]
      rw [perform, stepped] at later ⊢
      simpa using later

/-- Whatever the segmentation and whenever a suspended call is dropped, the calls that complete
    return the payloads in order and then `Closed`, and no byte is lost or read twice. A prefix
    above the bound is refused as soon as it is held. -/
theorem frames_survive_cancellation (payloads : List Bytes)
    (fits : ∀ payload ∈ payloads, payload.length ≤ maxMessageLen) (schedule : List Input) :
    (∃ done failed,
      (runFrom (payloads.flatMap frame) schedule).2 =
        (payloads.take done).map .ok ++ List.replicate failed (.error .closed) ∧
      (0 < failed → done = payloads.length) ∧
      payloads.flatMap frame = (payloads.take done).flatMap frame ++
        ((runFrom (payloads.flatMap frame) schedule).1.held ++ (runFrom (payloads.flatMap frame) schedule).1.wire)) ∧
    (∀ n rest, maxMessageLen < n → n < 2^32 → ∃ done failed,
      (runFrom (payloads.flatMap frame ++ (u32LeBytes n ++ rest)) schedule).2 =
        (payloads.take done).map .ok ++ List.replicate failed (.error (.tooLong n)) ∧
      (0 < failed → done = payloads.length) ∧
      ((runFrom (payloads.flatMap frame ++ (u32LeBytes n ++ rest)) schedule).1.waiting = true →
        done = payloads.length →
        (runFrom (payloads.flatMap frame ++ (u32LeBytes n ++ rest)) schedule).1.held.length < prefixLen)) ∧
    (∀ (stream : Bytes) (wakes : List Nat), (runFrom stream schedule).1.wire.length < wakes.length →
      (runFrom stream schedule).2.length <
        (runFrom stream (schedule ++ .call :: wakes.map .wake)).2.length) := by
  apply And.intro _ (And.intro _ _)
  · rcases runFrom_progress fits .closed schedule with ⟨done, failed, progress⟩
    rw [List.append_nil] at progress
    refine ⟨done, failed, progress.results, progress.last, ?_⟩
    rw [progress.stream, List.append_nil, ← List.flatMap_append, List.take_append_drop]
  · intro n rest above small
    have ending := Ending.tooLong n rest above small
    rcases runFrom_progress fits ending schedule with ⟨done, failed, progress⟩
    refine ⟨done, failed, progress.results, progress.last, ?_⟩
    intro waiting all
    have stream := progress.stream
    rw [all, List.drop_length, List.flatMap_nil, List.nil_append] at stream
    rcases unframe_ending ending stream with ⟨_, short, _⟩ | ⟨m, _, long⟩
    · exact short
    · rcases progress.short waiting with need | ⟨declared, present, need⟩ <;> rw [long] at need <;> cases need
  · intro stream wakes enough
    rw [runFrom, runFrom, List.foldl_append]
    exact call_returns _ wakes enough

/-- Two frames with a cancellation in the middle of the first. -/
theorem two_frames_survive :
    ∃ done failed,
      (runFrom ([[1, 2], []].flatMap frame) [.call, .wake 4, .cancel, .call, .wake 9, .call, .call, .wake 0]).2 =
        ([[1, 2], []].take done).map .ok ++ List.replicate failed (.error .closed) ∧
      (0 < failed → done = 2) ∧
      [[1, 2], []].flatMap frame = ([[1, 2], []].take done).flatMap frame ++
        ((runFrom ([[1, 2], []].flatMap frame) [.call, .wake 4, .cancel, .call, .wake 9, .call, .call, .wake 0]).1.held ++
          (runFrom ([[1, 2], []].flatMap frame) [.call, .wake 4, .cancel, .call, .wake 9, .call, .call, .wake 0]).1.wire) :=
  (frames_survive_cancellation [[1, 2], []] (by decide)
    [.call, .wake 4, .cancel, .call, .wake 9, .call, .call, .wake 0]).1

end SapientProof

import AjarConnectors.Gmti.Parser
import AjarConnectors.Partial.Loops

namespace GmtiModel

open EventModel HttpModel

/-- Reading with nothing at all where the code indexes out of range. -/
abbrev CheckedReading := StateT Reader (ExceptT GmtiError Option)

def outOfRange {α : Type} : CheckedReading α := fun _ => (none : Option (Except GmtiError (α × Reader)))

/-- Its range comes from `get`. -/
def takeChecked (n : Nat) : CheckedReading Bytes := fun r => some (take n r)

/-- `array::<N>`; `copy_from_slice` fails on a slice of another length. -/
def array (n : Nat) : CheckedReading Bytes := do
  let bytes ← takeChecked n
  if bytes.length = n then return bytes else outOfRange

/-- `take(1)?[0]`. -/
def octet : CheckedReading UInt8 := do
  let bytes ← takeChecked 1
  match bytes[0]? with
  | some b => return b
  | none => outOfRange

def skipChecked (n : Nat) : CheckedReading Unit := do
  let _ ← takeChecked n

def u8Checked : CheckedReading Nat := do
  let b ← octet
  return b.toNat

def i8Checked : CheckedReading Int := do
  let b ← octet
  return (b.toNat : Int).bmod (2^8)

/-- `u16`, `u32` and `u64` by their bytes. -/
def unsignedChecked (n : Nat) : CheckedReading Nat := do
  let bytes ← array n
  return beNat bytes

/-- `i16` and `i32`. -/
def signedChecked (n : Nat) : CheckedReading Int := do
  let bytes ← array n
  return (beNat bytes : Int).bmod (256^n)

def presentChecked {α : Type} (bit : Bool) (field : CheckedReading α) : CheckedReading (Option α) :=
  if bit then do
    let value ← field
    return some value
  else return none

def skipPresentChecked (bit : Nat → Bool) : List (Nat × Nat) → CheckedReading Unit
  | [] => return ()
  | (n, len) :: fields => do
    if bit n then skipChecked len
    skipPresentChecked bit fields

def readDwellChecked : CheckedReading Dwell := do
  skipChecked segmentHeaderLen
  let mask ← unsignedChecked 8
  let bit := fun n => mask.testBit (63 - n)
  let revisit ← unsignedChecked 2
  let dwellIndex ← unsignedChecked 2
  let lastDwell ← u8Checked
  let targetCount ← unsignedChecked 2
  let dwellTimeMs ← signedChecked 4
  let sensorLat ← signedChecked 4
  let sensorLon ← unsignedChecked 4
  let sensorAltCm ← signedChecked 4
  let latScale ← presentChecked (bit 8) (signedChecked 4)
  let lonScale ← presentChecked (bit 9) (unsignedChecked 4)
  skipPresentChecked bit sensorFields
  let dwellCenterLat ← signedChecked 4
  let dwellCenterLon ← unsignedChecked 4
  skipChecked 4
  skipPresentChecked bit orientationFields
  return { mask := mask, revisit := revisit, dwellIndex := dwellIndex, lastDwell := lastDwell,
           targetCount := targetCount, dwellTimeMs := dwellTimeMs, sensorLat := sensorLat, sensorLon := sensorLon,
           sensorAltCm := sensorAltCm, latScale := latScale, lonScale := lonScale, dwellCenterLat := dwellCenterLat,
           dwellCenterLon := dwellCenterLon }

def readReportChecked (bit : Nat → Bool) : CheckedReading Report := do
  let mtiIndex ← presentChecked (bit 30) (unsignedChecked 2)
  let hrLat ← presentChecked (bit 31) (signedChecked 4)
  let hrLon ← presentChecked (bit 32) (unsignedChecked 4)
  let deltaLat ← presentChecked (bit 33) (signedChecked 2)
  let deltaLon ← presentChecked (bit 34) (signedChecked 2)
  let heightM ← presentChecked (bit 35) (signedChecked 2)
  let radialVelocity ← presentChecked (bit 36) (signedChecked 2)
  if bit 37 then skipChecked 2
  let snrDb ← presentChecked (bit 38) i8Checked
  let classification ← presentChecked (bit 39) u8Checked
  skipPresentChecked bit targetUncertaintyFields
  let rcsDb ← presentChecked (bit 47) i8Checked
  return { mtiIndex := mtiIndex, hrLat := hrLat, hrLon := hrLon, deltaLat := deltaLat, deltaLon := deltaLon,
           heightM := heightM, radialVelocity := radialVelocity, snrDb := snrDb, classification := classification,
           rcsDb := rcsDb }

/-- The loop over target reports; a located one is pushed behind those before it. -/
def pushReports (bit : Nat → Bool) (place : Report → Option GmtiTarget) :
    Nat → List GmtiTarget → CheckedReading (List GmtiTarget)
  | 0, out => return out
  | n + 1, out => do
    let report ← readReportChecked bit
    pushReports bit place n (out ++ (place report).toList)

/-- `u32_be`. -/
def u32Be (b : Bytes) : Option Nat := do
  let b0 ← b[0]?
  let b1 ← b[1]?
  let b2 ← b[2]?
  let b3 ← b[3]?
  return beNat [b0, b1, b2, b3]

section

variable (floats : Floats)

def parseDwell (seg : Bytes) (platform : Text) (jobId : Nat) (out : List GmtiTarget) :
    Option (Except GmtiError (List GmtiTarget)) :=
  match readDwellChecked { buf := seg } with
  | none => none
  | some (.error e) => some (.error e)
  | some (.ok (dwell, r)) =>
    match pushReports dwell.bit (locate floats platform jobId ⟨seg, dwell, []⟩) dwell.targetCount out r with
    | none => none
    | some (.error e) => some (.error e)
    | some (.ok (out, _)) => some (.ok out)

/-- The loop of `parse_packet`; none where it indexes out of range, or does not come to an end in so many turns. -/
def walkSegments (frame : Bytes) (platform : Text) (jobId packetSize : Nat) :
    Nat → Nat → List GmtiTarget → Option (Except GmtiError (List GmtiTarget))
  | 0, _, _ => none
  | turns + 1, off, targets =>
    if off + segmentHeaderLen ≤ packetSize then do
      let segType ← frame[off]?
      let size ← Partial.slice frame (off + 1) (off + 5)
      let segSize ← u32Be size
      if segSize < segmentHeaderLen ∨ packetSize < off + segSize then some (.error .badSegment)
      else if segType = segDwell then do
        let seg ← Partial.slice frame off (off + segSize)
        match ← parseDwell floats seg platform jobId targets with
        | .error e => some (.error e)
        | .ok targets => walkSegments frame platform jobId packetSize turns (off + segSize) targets
      else walkSegments frame platform jobId packetSize turns (off + segSize) targets
    else some (.ok targets)

def parsePacketChecked (frame : Bytes) : Option (Except GmtiError (List GmtiTarget)) :=
  if frame.length < packetHeaderLen then some (.error .truncated)
  else do
    let edition ← frame[0]?
    if edition ≠ 2 ∧ edition ≠ 3 then some (.error .notGmti)
    else do
      let packetSize ← u32Be (← Partial.slice frame 2 6)
      if packetSize < packetHeaderLen ∨ frame.length < packetSize then some (.error .truncated)
      else do
        let platform ← Partial.slice frame 14 24
        let jobId ← u32Be (← Partial.slice frame 28 32)
        walkSegments floats frame (trimText (Utf8.decodeLossy platform)) jobId packetSize packetSize packetHeaderLen []

end

end GmtiModel

namespace GmtiProof

open EventModel GmtiModel
open HttpModel (Bytes Text)

/-- A reader that never indexes out of range, and is otherwise the other. -/
def Agrees {α : Type} (checked : CheckedReading α) (m : Reading α) : Prop := ∀ r, checked r = some (m r)

section

variable {α β : Type}

theorem agrees_pure (a : α) : Agrees (pure a) (pure a) := fun _ => rfl

theorem agrees_bind {checked : CheckedReading α} {m : Reading α} {f : α → CheckedReading β} {g : α → Reading β}
    (here : Agrees checked m) (later : ∀ a, Agrees (f a) (g a)) : Agrees (checked >>= f) (m >>= g) := by
  intro r
  have first := here r
  change ExceptT.bind (checked r) (fun p => f p.1 p.2) = some ((m r).bind fun p => g p.1 p.2)
  rw [ExceptT.bind, first]
  cases m r with
  | error e => rfl
  | ok p => exact later p.1 p.2

theorem take_agrees (n : Nat) : Agrees (takeChecked n) (take n) := fun _ => rfl

/-- `take` hands on as many bytes as it is asked for, inside the buffer. -/
theorem take_length {n : Nat} {r next : Reader} {bytes : Bytes} (taken : take n r = .ok (bytes, next)) :
    bytes.length = n ∧ r.pos + n ≤ r.buf.length := by
  rw [take] at taken
  by_cases room : r.pos + n ≤ r.buf.length
  · rw [if_pos room] at taken
    cases taken
    rw [List.length_take, List.length_drop]
    omega
  · rw [if_neg room] at taken
    cases taken

theorem skip_agrees (n : Nat) : Agrees (skipChecked n) (skip n) := agrees_bind (take_agrees n) fun _ => agrees_pure ()

/-- What only looks at the bytes `take` hands on needs to agree on as many bytes. -/
theorem agrees_taken {n : Nat} {f : Bytes → CheckedReading β} {g : Bytes → Reading β}
    (later : ∀ bytes, bytes.length = n → Agrees (f bytes) (g bytes)) : Agrees (takeChecked n >>= f) (take n >>= g) := by
  intro r
  change ExceptT.bind (some (take n r)) (fun p => f p.1 p.2) = some ((take n r).bind fun p => g p.1 p.2)
  rw [ExceptT.bind]
  cases taken : take n r with
  | error e => rfl
  | ok p =>
    obtain ⟨bytes, next⟩ := p
    exact later bytes (take_length taken).1 next

theorem array_agrees (n : Nat) : Agrees (array n) (take n) := by
  have agrees := agrees_taken (n := n) (f := fun bytes => if bytes.length = n then return bytes else outOfRange)
    (g := pure) fun bytes long => by
      rw [if_pos long]
      exact agrees_pure bytes
  rw [bind_pure] at agrees
  exact agrees

theorem unsigned_agrees (n : Nat) : Agrees (unsignedChecked n) (unsigned n) :=
  agrees_bind (array_agrees n) fun bytes => agrees_pure (beNat bytes)

theorem signed_agrees (n : Nat) : Agrees (signedChecked n) (signed n) :=
  agrees_bind (array_agrees n) fun bytes => agrees_pure ((beNat bytes : Int).bmod (256^n))

theorem present_agrees {checked : CheckedReading α} {m : Reading α} (bit : Bool) (agrees : Agrees checked m) :
    Agrees (presentChecked bit checked) (present bit m) := by
  cases bit with
  | false => exact agrees_pure none
  | true => exact agrees_bind agrees fun a => agrees_pure (some a)

/-- One octet as a number, whatever is made of it. -/
theorem octet_agrees (g : Nat → α) :
    Agrees (octet >>= fun b => pure (g b.toNat)) (take 1 >>= fun bytes => pure (g (beNat bytes))) := by
  rw [octet, bind_assoc]
  apply agrees_taken
  intro bytes one
  obtain ⟨b, rfl⟩ := List.length_eq_one_iff.mp one
  have number : beNat [b] = b.toNat := by simp [beNat]
  rw [number]
  exact agrees_pure (g b.toNat)

theorem u8_agrees : Agrees u8Checked (unsigned 1) := octet_agrees id

theorem i8_agrees : Agrees i8Checked (signed 1) := octet_agrees fun n => (n : Int).bmod (2^8)

theorem skipIf_agrees (bit : Bool) (len : Nat) {checked : CheckedReading α} {m : Reading α} (agrees : Agrees checked m) :
    Agrees (if bit then skipChecked len >>= fun _ => checked else checked)
      (if bit then skip len >>= fun _ => m else m) := by
  cases bit with
  | false => exact agrees
  | true => exact agrees_bind (skip_agrees len) fun _ => agrees

theorem skipPresent_agrees (bit : Nat → Bool) (fields : List (Nat × Nat)) :
    Agrees (skipPresentChecked bit fields) (skipPresent bit fields) := by
  induction fields with
  | nil => exact agrees_pure ()
  | cons field fields ih =>
    obtain ⟨n, len⟩ := field
    rw [skipPresentChecked, skipPresent]
    exact skipIf_agrees (bit n) len ih

theorem dwell_agrees : Agrees readDwellChecked readDwell := by
  unfold readDwellChecked readDwell
  apply agrees_bind (skip_agrees segmentHeaderLen); intro _
  apply agrees_bind (unsigned_agrees 8); intro mask
  apply agrees_bind (unsigned_agrees 2); intro revisit
  apply agrees_bind (unsigned_agrees 2); intro dwellIndex
  apply agrees_bind u8_agrees; intro lastDwell
  apply agrees_bind (unsigned_agrees 2); intro targetCount
  apply agrees_bind (signed_agrees 4); intro dwellTimeMs
  apply agrees_bind (signed_agrees 4); intro sensorLat
  apply agrees_bind (unsigned_agrees 4); intro sensorLon
  apply agrees_bind (signed_agrees 4); intro sensorAltCm
  apply agrees_bind (present_agrees _ (signed_agrees 4)); intro latScale
  apply agrees_bind (present_agrees _ (unsigned_agrees 4)); intro lonScale
  apply agrees_bind (skipPresent_agrees _ sensorFields); intro _
  apply agrees_bind (signed_agrees 4); intro dwellCenterLat
  apply agrees_bind (unsigned_agrees 4); intro dwellCenterLon
  apply agrees_bind (skip_agrees 4); intro _
  apply agrees_bind (skipPresent_agrees _ orientationFields); intro _
  apply agrees_pure

theorem report_agrees (bit : Nat → Bool) : Agrees (readReportChecked bit) (readReport bit) := by
  unfold readReportChecked readReport
  apply agrees_bind (present_agrees _ (unsigned_agrees 2)); intro mtiIndex
  apply agrees_bind (present_agrees _ (signed_agrees 4)); intro hrLat
  apply agrees_bind (present_agrees _ (unsigned_agrees 4)); intro hrLon
  apply agrees_bind (present_agrees _ (signed_agrees 2)); intro deltaLat
  apply agrees_bind (present_agrees _ (signed_agrees 2)); intro deltaLon
  apply agrees_bind (present_agrees _ (signed_agrees 2)); intro heightM
  apply agrees_bind (present_agrees _ (signed_agrees 2)); intro radialVelocity
  apply skipIf_agrees (bit 37) 2
  apply agrees_bind (present_agrees _ i8_agrees); intro snrDb
  apply agrees_bind (present_agrees _ u8_agrees); intro classification
  apply agrees_bind (skipPresent_agrees bit targetUncertaintyFields); intro _
  apply agrees_bind (present_agrees _ i8_agrees); intro rcsDb
  apply agrees_pure

theorem pushReports_agrees (bit : Nat → Bool) (place : Report → Option GmtiTarget) (count : Nat) (out : List GmtiTarget) :
    Agrees (pushReports bit place count out) (readReports bit count >>= fun reports => pure (out ++ reports.filterMap place)) := by
  induction count generalizing out with
  | zero =>
    have same : out ++ ([] : List Report).filterMap place = out := List.append_nil out
    rw [pushReports, readReports, pure_bind, same]
    exact agrees_pure out
  | succ n ih =>
    rw [pushReports, readReports, bind_assoc]
    apply agrees_bind (report_agrees bit); intro report
    have pushed : ∀ reports : List Report, out ++ (report :: reports).filterMap place =
        out ++ (place report).toList ++ reports.filterMap place := by
      intro reports
      rw [List.append_assoc]
      cases found : place report with
      | none => rw [List.filterMap_cons_none found, Option.toList_none, List.nil_append]
      | some target => rw [List.filterMap_cons_some found, Option.toList_some, List.singleton_append]
    simp only [bind_assoc, pure_bind, pushed]
    exact ih (out ++ (place report).toList)

end

section

variable (floats : Floats)

theorem parseDwell_eq (seg : Bytes) (platform : Text) (jobId : Nat) (out : List GmtiTarget) :
    parseDwell floats seg platform jobId out =
      some ((readSegment seg).map fun s => out ++ s.reports.filterMap (locate floats platform jobId s)) := by
  rw [parseDwell, readSegment, dwell_agrees]
  cases readDwell { buf := seg } with
  | error e => rfl
  | ok p =>
    obtain ⟨dwell, r⟩ := p
    have pushed := pushReports_agrees dwell.bit (locate floats platform jobId ⟨seg, dwell, []⟩) dwell.targetCount out r
    change pushReports _ _ _ out r = some ((readReports dwell.bit dwell.targetCount r).bind fun p => .ok (_, p.2)) at pushed
    dsimp only
    rw [pushed]
    change _ = some (((readReports dwell.bit dwell.targetCount r).bind fun p => .ok (Segment.mk seg dwell p.1)).map _)
    cases readReports dwell.bit dwell.targetCount r <;> rfl

theorem u32Be_eq {b : Bytes} (four : b.length = 4) : u32Be b = some (beNat b) := by
  match b, four with
  | [b0, b1, b2, b3], _ => rfl

theorem u32Be_taken {frame : Bytes} {off : Nat} (inside : off + 4 ≤ frame.length) :
    u32Be ((frame.drop off).take 4) = some (beNat ((frame.drop off).take 4)) := by
  apply u32Be_eq
  rw [List.length_take, List.length_drop]
  omega

/-- The targets of segments, in order. -/
theorem walkSegments_eq {frame : Bytes} (platform : Text) (jobId : Nat) {packetSize : Nat} (whole : packetSize ≤ frame.length)
    {turns off : Nat} (before : off ≤ packetSize) (enough : packetSize < off + turns) (targets : List GmtiTarget) :
    walkSegments floats frame platform jobId packetSize turns off targets =
      some ((readSegments frame packetSize turns off).map fun segments =>
        targets ++ segments.flatMap fun s => s.reports.filterMap (locate floats platform jobId s)) := by
  induction turns generalizing off targets with
  | zero => omega
  | succ turns ih =>
    rw [walkSegments, readSegments]
    by_cases more : off + segmentHeaderLen ≤ packetSize
    · have inside : off < frame.length := by
        rw [segmentHeaderLen] at more
        omega
      have fourMore : off + 1 + 4 ≤ frame.length := by
        rw [segmentHeaderLen] at more
        omega
      have sliced : Partial.slice frame (off + 1) (off + 5) = some ((frame.drop (off + 1)).take 4) :=
        Partial.slice_inside fourMore
      rw [if_pos more, if_neg (Nat.not_lt.mpr more), Partial.index_inside 0 inside, sliced]
      simp only [Option.bind_eq_bind, Option.bind_some]
      rw [u32Be_taken fourMore, Option.bind_some]
      by_cases bad : beNat ((frame.drop (off + 1)).take 4) < segmentHeaderLen ∨
          packetSize < off + beNat ((frame.drop (off + 1)).take 4)
      · rw [if_pos bad, if_pos bad]
        rfl
      · rw [if_neg bad, if_neg bad]
        generalize beNat ((frame.drop (off + 1)).take 4) = segSize at bad ⊢
        rw [segmentHeaderLen] at bad
        have later := ih (show off + segSize ≤ packetSize by omega) (by omega)
        by_cases dwell : frame.getD off 0 = segDwell
        · rw [if_pos dwell, if_pos dwell, Partial.slice_inside (by omega), Option.bind_some, parseDwell_eq]
          cases readSegment ((frame.drop off).take segSize) with
          | error e => rfl
          | ok segment =>
            simp only [Except.map, Option.bind_some, later]
            cases readSegments frame packetSize turns (off + segSize) with
            | error e => rfl
            | ok segments =>
              change _ = some (Except.ok (targets ++ ([segment] ++ segments).flatMap _))
              rw [List.singleton_append, List.flatMap_cons, ← List.append_assoc]
        · rw [if_neg dwell, if_neg dwell, later]
          cases readSegments frame packetSize turns (off + segSize) <;> rfl
    · rw [if_neg more, if_pos (Nat.lt_of_not_le more)]
      rw [show (return [] : Except GmtiError (List Segment)) = .ok [] from rfl, Except.map, List.flatMap_nil, List.append_nil]

/-- Whatever the bytes, nothing is indexed out of range and the loop comes to its end. -/
theorem parsePacketChecked_eq (frame : Bytes) : parsePacketChecked floats frame = some (parsePacket floats frame) := by
  rw [parsePacketChecked, parsePacket, readPacket]
  by_cases short : frame.length < packetHeaderLen
  · rw [if_pos short, if_pos short]
    rfl
  · rw [if_neg short, if_neg short]
    rw [packetHeaderLen] at short
    have first : frame[0]? = some (frame.getD 0 0) := Partial.index_inside 0 (by omega)
    have size : Partial.slice frame 2 6 = some ((frame.drop 2).take 4) := Partial.slice_inside (show 2 + 4 ≤ frame.length by omega)
    have platform : Partial.slice frame 14 24 = some ((frame.drop 14).take 10) :=
      Partial.slice_inside (show 14 + 10 ≤ frame.length by omega)
    have job : Partial.slice frame 28 32 = some ((frame.drop 28).take 4) := Partial.slice_inside (show 28 + 4 ≤ frame.length by omega)
    have size32 : u32Be ((frame.drop 2).take 4) = some (beNat ((frame.drop 2).take 4)) := u32Be_taken (by omega)
    have job32 : u32Be ((frame.drop 28).take 4) = some (beNat ((frame.drop 28).take 4)) := u32Be_taken (by omega)
    simp only [Option.bind_eq_bind, first, size, platform, job, Option.bind_some, size32, job32]
    by_cases unknown : frame.getD 0 0 ≠ 2 ∧ frame.getD 0 0 ≠ 3
    · rw [if_pos unknown, if_pos unknown]
      rfl
    · rw [if_neg unknown, if_neg unknown]
      by_cases bad : beNat ((frame.drop 2).take 4) < packetHeaderLen ∨ frame.length < beNat ((frame.drop 2).take 4)
      · rw [if_pos bad, if_pos bad]
        rfl
      · rw [if_neg bad, if_neg bad]
        rw [packetHeaderLen] at bad ⊢
        rw [walkSegments_eq floats _ _ (by omega) (by omega) (by omega)]
        cases readSegments frame _ _ _ <;> rfl

end

end GmtiProof

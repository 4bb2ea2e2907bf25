import Mathlib.Algebra.Ring.Nat
import Mathlib.Data.List.Basic
import Mathlib.Data.List.Infix
import AjarConnectors.Framing.Format

namespace SpoolModel

abbrev Bytes := List UInt8

structure Record where
  eventId : String
  sealed : Bytes
  deriving DecidableEq

def idBytes (eventId : String) : Bytes := eventId.toByteArray.data.toList

def fromUtf8 (bytes : Bytes) : Option String := String.fromUTF8? ⟨bytes.toArray⟩

/-- `(len as u32).to_be_bytes()`: the cast keeps the low 32 bits. -/
def u32BeBytes (len : Nat) : Bytes :=
  [UInt8.ofNat (len / 2^24), UInt8.ofNat (len / 2^16), UInt8.ofNat (len / 2^8), UInt8.ofNat len]

def u32FromBeBytes (bytes : Bytes) : Nat := bytes.foldl (fun acc byte => acc * 256 + byte.toNat) 0

def recordBytes (eventId : String) (sealed : Bytes) : Bytes :=
  u32BeBytes (idBytes eventId).length ++ u32BeBytes sealed.length ++ idBytes eventId ++ sealed

def Record.bytes (r : Record) : Bytes := recordBytes r.eventId r.sealed

def readRecord (data : Bytes) (offset : Nat) : Option (Record × Nat) :=
  if data.length < offset then none else
  let rest := data.drop offset
  if rest.length < 8 then none else
  let idLen := u32FromBeBytes (rest.take 4)
  let payloadLen := u32FromBeBytes ((rest.drop 4).take 4)
  -- `usize` has 64 bits, so neither `checked_add` can fail here.
  let total := 8 + idLen + payloadLen
  if rest.length < total then none else
  match fromUtf8 ((rest.drop 8).take idLen) with
  | none => none
  | some eventId => some (⟨eventId, (rest.take total).drop (8 + idLen)⟩, offset + total)

inductive IoError where
  | notFound
  | storageFull
  deriving DecidableEq

/-- The same record read through a file handle; `none` is a path that does not open. -/
def readRecordAt (file : Option Bytes) (offset : Nat) : Except IoError (Option (Record × Nat)) :=
  match file with
  | none => .error .notFound
  | some content =>
    let remaining := content.length - offset
    if remaining < 8 then .ok none else
    let head := (content.drop offset).take 8
    let idLen := u32FromBeBytes (head.take 4)
    let payloadLen := u32FromBeBytes (head.drop 4)
    let total := 8 + idLen + payloadLen
    if remaining < total then .ok none else
    let data := head ++ ((content.drop offset).drop 8).take (total - 8)
    .ok ((readRecord data 0).map fun found => (found.1, offset + found.2))

def Record.Sized (r : Record) : Prop := (idBytes r.eventId).length < 2^32 ∧ r.sealed.length < 2^32

instance (r : Record) : Decidable r.Sized := inferInstanceAs (Decidable (_ ∧ _))

end SpoolModel

namespace SpoolProof

open SpoolModel

theorem fromUtf8_idBytes (eventId : String) : fromUtf8 (idBytes eventId) = some eventId := by
  change String.fromUTF8? eventId.toByteArray = some eventId
  unfold String.fromUTF8?
  rw [dif_pos eventId.isValidUTF8]
  rfl

theorem u32BeBytes_length (len : Nat) : (u32BeBytes len).length = 4 := rfl

theorem u32FromBeBytes_u32BeBytes (len : Nat) (bound : len < 2^32) :
    u32FromBeBytes (u32BeBytes len) = len := by
  simp only [u32FromBeBytes, u32BeBytes, List.foldl_cons, List.foldl_nil, UInt8.toNat_ofNat']
  omega

theorem recordBytes_length (eventId : String) (sealed : Bytes) :
    (recordBytes eventId sealed).length = 8 + (idBytes eventId).length + sealed.length := by
  simp only [recordBytes, List.length_append, u32BeBytes_length]

theorem bytes_layout (r : Record) : r.bytes =
    u32BeBytes (idBytes r.eventId).length ++ (u32BeBytes r.sealed.length ++ (idBytes r.eventId ++ r.sealed)) := by
  simp only [Record.bytes, recordBytes, List.append_assoc]

theorem bytes_idLen (r : Record) : r.bytes.take 4 = u32BeBytes (idBytes r.eventId).length := by
  rw [bytes_layout]
  exact List.take_left' rfl

theorem bytes_payloadLen (r : Record) : (r.bytes.drop 4).take 4 = u32BeBytes r.sealed.length := by
  rw [bytes_layout, List.drop_left' (u32BeBytes_length _)]
  exact List.take_left' rfl

theorem bytes_body (r : Record) : r.bytes.drop 8 = idBytes r.eventId ++ r.sealed := by
  have header : (u32BeBytes (idBytes r.eventId).length ++ u32BeBytes r.sealed.length).length = 8 := rfl
  rw [bytes_layout, ← List.append_assoc (u32BeBytes _), List.drop_left' header]

theorem bytes_sealed (r : Record) : r.bytes.drop (8 + (idBytes r.eventId).length) = r.sealed := by
  rw [← List.drop_drop, bytes_body, List.drop_left' rfl]

theorem readRecord_shift (data : Bytes) (offset : Nat) :
    readRecord data offset =
      (readRecord (data.drop offset) 0).map fun found => (found.1, offset + found.2) := by
  by_cases beyond : data.length < offset
  · simp [readRecord, beyond, List.drop_eq_nil_of_le (Nat.le_of_lt beyond)]
  · simp only [readRecord, beyond, ↓reduceIte, List.drop_zero, Nat.not_lt_zero, Nat.zero_add]
    split
    · rfl
    · split
      · rfl
      · split <;> rfl

theorem readRecord_bounds (data : Bytes) (r : Record) (n : Nat) (found : readRecord data 0 = some (r, n)) :
    0 < n ∧ n ≤ data.length := by
  simp only [readRecord, Nat.not_lt_zero, ↓reduceIte, List.drop_zero, Nat.zero_add] at found
  split at found
  · cases found
  · split at found
    · cases found
    · split at found
      · cases found
      · cases found
        omega

theorem readRecord_extend (data : Bytes) (r : Record) (n : Nat) (found : readRecord data 0 = some (r, n))
    (more : Bytes) : readRecord (data ++ more) 0 = some (r, n) := by
  simp only [readRecord, Nat.not_lt_zero, ↓reduceIte, List.drop_zero, Nat.zero_add] at found ⊢
  split at found
  · cases found
  · rename_i header
    split at found
    · cases found
    · rename_i whole
      have idLen : (data ++ more).take 4 = data.take 4 := List.take_append_of_le_length (by omega)
      have payloadLen : ((data ++ more).drop 4).take 4 = (data.drop 4).take 4 := by
        rw [List.drop_append_of_le_length (by omega), List.take_append_of_le_length (by simp; omega)]
      rw [if_neg (by simp; omega), idLen, payloadLen, if_neg (by simp; omega),
        List.drop_append_of_le_length (by omega), List.take_append_of_le_length (by simp; omega),
        List.take_append_of_le_length (by omega)]
      exact found

theorem readRecord_bytes (r : Record) (sized : r.Sized) :
    readRecord r.bytes 0 = some (r, r.bytes.length) := by
  have total : 8 + (idBytes r.eventId).length + r.sealed.length = r.bytes.length :=
    (recordBytes_length _ _).symm
  simp only [readRecord, Nat.not_lt_zero, ↓reduceIte, List.drop_zero, Nat.zero_add, bytes_idLen,
    bytes_payloadLen, bytes_body, u32FromBeBytes_u32BeBytes _ sized.1,
    u32FromBeBytes_u32BeBytes _ sized.2, List.take_left, fromUtf8_idBytes, total, List.take_length,
    bytes_sealed, lt_irrefl]
  rw [if_neg (by omega)]

theorem idBytes_fromUtf8 {bytes : Bytes} {eventId : String} (valid : fromUtf8 bytes = some eventId) :
    idBytes eventId = bytes := by
  unfold fromUtf8 String.fromUTF8? at valid
  split at valid
  · cases valid
    rfl
  · cases valid

theorem u32BeBytes_u32FromBeBytes (bytes : Bytes) (four : bytes.length = 4) :
    u32BeBytes (u32FromBeBytes bytes) = bytes ∧ u32FromBeBytes bytes < 2^32 := by
  match bytes, four with
  | [a, b, c, d], _ =>
    have := a.toNat_lt
    have := b.toNat_lt
    have := c.toNat_lt
    have := d.toNat_lt
    simp only [u32FromBeBytes, u32BeBytes, List.foldl_cons, List.foldl_nil, List.cons.injEq, and_true,
      ← UInt8.toNat_inj, UInt8.toNat_ofNat']
    omega

/-- Whatever bytes read as a record are the bytes `append` writes for it. -/
theorem readRecord_canonical (data : Bytes) (r : Record) (n : Nat) (found : readRecord data 0 = some (r, n)) :
    r.Sized ∧ r.bytes = data.take n := by
  simp only [readRecord, Nat.not_lt_zero, ↓reduceIte, List.drop_zero, Nat.zero_add] at found
  split at found
  · cases found
  · rename_i header
    split at found
    · cases found
    · rename_i whole
      split at found
      · cases found
      · rename_i eventId valid
        obtain ⟨idLen, idBound⟩ := u32BeBytes_u32FromBeBytes (data.take 4) (by simp; omega)
        obtain ⟨payloadLen, payloadBound⟩ := u32BeBytes_u32FromBeBytes ((data.drop 4).take 4) (by simp; omega)
        generalize u32FromBeBytes (data.take 4) = idCount at *
        generalize u32FromBeBytes ((data.drop 4).take 4) = payloadCount at *
        have id := idBytes_fromUtf8 valid
        have idLength : (idBytes eventId).length = idCount := by rw [id]; simp; omega
        cases found
        have sealedLength : ((data.take (8 + idCount + payloadCount)).drop (8 + idCount)).length = payloadCount := by
          simp
          omega
        refine ⟨⟨by rw [idLength]; exact idBound, by rw [sealedLength]; exact payloadBound⟩, ?_⟩
        have body : (data.drop 8).take idCount ++ (data.drop (8 + idCount)).take payloadCount =
            (data.drop 8).take (idCount + payloadCount) := by
          rw [← List.drop_drop, ← List.take_add]
        have header' : data.take 4 ++ (data.drop 4).take 4 = data.take 8 := by rw [← List.take_add]
        rw [bytes_layout, idLength, sealedLength, idLen, payloadLen, id, List.drop_take,
          show 8 + idCount + payloadCount - (8 + idCount) = payloadCount by omega, body, ← List.append_assoc,
          header', ← List.take_add, Nat.add_assoc]

def recordFormat : Framing.Format UInt8 Record where
  Fits := Record.Sized
  encode := Record.bytes
  read data := readRecord data 0
  read_bounds := readRecord_bounds
  read_extend := readRecord_extend
  read_encode := readRecord_bytes

theorem recordFormat_canonical : recordFormat.Canonical := readRecord_canonical

theorem readRecord_eq_readAt (data : Bytes) (offset : Nat) :
    readRecord data offset = recordFormat.readAt data offset := readRecord_shift data offset

theorem readRecordAt_eq_readAt (content : Bytes) (offset : Nat) :
    readRecordAt (some content) offset = .ok (recordFormat.readAt content offset) := by
  simp only [readRecordAt, Framing.Format.readAt, recordFormat]
  generalize rest : content.drop offset = suffix
  have length : content.length - offset = suffix.length := by rw [← rest, List.length_drop]
  rw [length]
  by_cases header : suffix.length < 8
  · simp [readRecord, header]
  · have first : (suffix.take 8).take 4 = suffix.take 4 := by simp [List.take_take]
    have second : (suffix.take 8).drop 4 = (suffix.drop 4).take 4 := by simp [List.drop_take]
    simp only [header, ↓reduceIte, first, second]
    generalize lengths : 8 + u32FromBeBytes (suffix.take 4) + u32FromBeBytes ((suffix.drop 4).take 4) = total
    by_cases short : suffix.length < total
    · simp [readRecord, header, lengths, short]
    · have slice : suffix.take 8 ++ (suffix.drop 8).take (total - 8) = suffix.take total := by
        rw [← List.take_add]
        congr 1
        omega
      have sliceLength : (suffix.take total).length = total := by simp; omega
      have eight : ¬ total < 8 := by omega
      have four : (suffix.take total).take 4 = suffix.take 4 := by
        rw [List.take_take]
        congr 1
        omega
      have next : ((suffix.take total).drop 4).take 4 = (suffix.drop 4).take 4 := by
        rw [List.drop_take, List.take_take]
        congr 1
        omega
      have idPart : ((suffix.take total).drop 8).take (u32FromBeBytes (suffix.take 4)) =
          (suffix.drop 8).take (u32FromBeBytes (suffix.take 4)) := by
        rw [List.drop_take, List.take_take]
        congr 1
        omega
      simp only [short, ↓reduceIte, slice, readRecord, Nat.not_lt_zero, List.drop_zero, sliceLength,
        eight, four, next, lengths, idPart, header, lt_irrefl, List.take_take, Nat.min_self]

end SpoolProof

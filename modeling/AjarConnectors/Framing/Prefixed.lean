import Mathlib.Algebra.Ring.Nat
import AjarConnectors.Framing.Format

namespace Framing

/-- A length field of fixed width: how a length is written, up to `limit`, and read back. -/
structure LengthPrefix (β : Type*) where
  width : Nat
  limit : Nat
  put : Nat → List β
  get : List β → Nat
  width_pos : 0 < width
  put_length : ∀ n, (put n).length = width
  get_put : ∀ n ≤ limit, get (put n) = n

namespace LengthPrefix

variable {β : Type*} (P : LengthPrefix β)

/-- The payload length a stream declares, once it holds a whole prefix. -/
def declared (data : List β) : Option Nat :=
  if data.length < P.width then none else some (P.get (data.take P.width))

def readFrame (data : List β) : Option (List β × Nat) :=
  match P.declared data with
  | none => none
  | some n => if data.length < P.width + n then none else some ((data.drop P.width).take n, P.width + n)

theorem declared_append {data : List β} (n : Nat) (found : P.declared data = some n) (more : List β) :
    P.declared (data ++ more) = some n := by
  unfold declared at found ⊢
  split at found
  · cases found
  · rename_i whole
    rw [if_neg (by rw [List.length_append]; omega), List.take_append_of_le_length (Nat.not_lt.mp whole)]
    exact found

theorem declared_put (payload rest : List β) (fits : payload.length ≤ P.limit) :
    P.declared (P.put payload.length ++ rest) = some payload.length := by
  unfold declared
  rw [if_neg (by rw [List.length_append, P.put_length]; omega), List.take_left' (P.put_length _),
    P.get_put _ fits]

theorem readFrame_bounds (data payload : List β) (n : Nat) (found : P.readFrame data = some (payload, n)) :
    0 < n ∧ n ≤ data.length := by
  have pos := P.width_pos
  unfold readFrame at found
  split at found
  · cases found
  · split at found
    · cases found
    · cases found
      omega

theorem readFrame_extend (data payload : List β) (n : Nat) (found : P.readFrame data = some (payload, n)) (more : List β) :
    P.readFrame (data ++ more) = some (payload, n) := by
  unfold readFrame at found ⊢
  split at found
  · cases found
  · rename_i len declared
    rw [P.declared_append len declared more]
    dsimp only
    split at found
    · cases found
    · rename_i whole
      cases found
      rw [if_neg (by rw [List.length_append]; omega), List.drop_append_of_le_length (by omega),
        List.take_append_of_le_length (by rw [List.length_drop]; omega)]

theorem readFrame_put (payload : List β) (fits : payload.length ≤ P.limit) :
    P.readFrame (P.put payload.length ++ payload) = some (payload, (P.put payload.length ++ payload).length) := by
  unfold readFrame
  rw [P.declared_put payload payload fits]
  dsimp only
  rw [List.length_append, P.put_length, if_neg (by omega), List.drop_left' (P.put_length _),
    List.take_length]

def format : Format β (List β) where
  Fits payload := payload.length ≤ P.limit
  encode payload := P.put payload.length ++ payload
  read := P.readFrame
  read_bounds := P.readFrame_bounds
  read_extend := P.readFrame_extend
  read_encode := P.readFrame_put

@[simp] theorem format_encode (payload : List β) : P.format.encode payload = P.put payload.length ++ payload := rfl

@[simp] theorem format_fits (payload : List β) : P.format.Fits payload ↔ payload.length ≤ P.limit := Iff.rfl

theorem encode_length (payload : List β) : (P.format.encode payload).length = P.width + payload.length := by
  rw [format_encode, List.length_append, P.put_length]

variable {P}

/-- A stream that goes on with a frame declares that frame's length as soon as the prefix is in. -/
theorem declared_of_stream {data more payload rest : List β} (fits : payload.length ≤ P.limit)
    (stream : data ++ more = P.format.encode payload ++ rest) :
    P.declared data = if data.length < P.width then none else some payload.length := by
  have whole := P.declared_put payload (payload ++ rest) fits
  rw [← List.append_assoc, ← format_encode, ← stream] at whole
  split
  · rename_i short
    rw [declared, if_pos short]
  · rename_i long
    unfold declared at whole ⊢
    rw [if_neg (by rw [List.length_append]; omega), List.take_append_of_le_length (Nat.not_lt.mp long)] at whole
    rw [if_neg long]
    exact whole

/-- Once the whole frame is in, what is held is the frame and the start of the rest. -/
theorem split_of_stream {data more payload rest : List β}
    (stream : data ++ more = P.format.encode payload ++ rest)
    (whole : P.width + payload.length ≤ data.length) :
    (data.drop P.width).take payload.length = payload ∧
      data.drop (P.width + payload.length) ++ more = rest := by
  have length := P.encode_length payload
  have front : data.take (P.width + payload.length) = P.format.encode payload := by
    have taken := congrArg (List.take (P.width + payload.length)) stream
    rw [List.take_append_of_le_length whole, List.take_left' length] at taken
    exact taken
  have payloads : (data.drop P.width).take payload.length = payload := by
    rw [List.take_drop, front, format_encode, List.drop_left' (P.put_length _)]
  have dropped := congrArg (List.drop (P.width + payload.length)) stream
  rw [List.drop_append_of_le_length whole, List.drop_left' length] at dropped
  exact ⟨payloads, dropped⟩

end LengthPrefix

def u16Be : LengthPrefix UInt8 where
  width := 2
  limit := 2^16 - 1
  put n := [UInt8.ofNat (n / 2^8), UInt8.ofNat n]
  get data := data.foldl (fun acc byte => acc * 256 + byte.toNat) 0
  width_pos := by decide
  put_length _ := rfl
  get_put := by
    intro n small
    simp only [List.foldl_cons, List.foldl_nil, UInt8.toNat_ofNat']
    omega

def u32Le : LengthPrefix UInt8 where
  width := 4
  limit := 2^32 - 1
  put n := [UInt8.ofNat n, UInt8.ofNat (n / 2^8), UInt8.ofNat (n / 2^16), UInt8.ofNat (n / 2^24)]
  get data := data.foldr (fun byte acc => acc * 256 + byte.toNat) 0
  width_pos := by decide
  put_length _ := rfl
  get_put := by
    intro n small
    simp only [List.foldr_cons, List.foldr_nil, UInt8.toNat_ofNat']
    omega

end Framing

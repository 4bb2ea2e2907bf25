import AjarConnectors.Http.Reading

namespace HttpModel

open TextModel

/-- The bytes of a token, of white space in a line, and of a field value, which may hold any byte
    above 127. -/
def isTokenByte (b : UInt8) : Bool :=
  (48 ≤ b && b ≤ 57) || (65 ≤ b && b ≤ 90) || (97 ≤ b && b ≤ 122) ||
    [33, 35, 36, 37, 38, 39, 42, 43, 45, 46, 94, 95, 96, 124, 126].contains b

def isOws (b : UInt8) : Bool := b == 32 || b == 9

def isFieldByte (b : UInt8) : Bool := b == 9 || (32 ≤ b && b != 127)

def isDigitByte (b : UInt8) : Bool := 48 ≤ b && b ≤ 57

def isHexByte (b : UInt8) : Bool := isDigitByte b || (65 ≤ b && b ≤ 70) || (97 ≤ b && b ≤ 102)

/-- The bytes of a path, and of a path with its query. -/
def isPathByte (b : UInt8) : Bool := 33 ≤ b && b ≤ 126 && b != 63 && b != 35

def isQueryByte (b : UInt8) : Bool := 33 ≤ b && b ≤ 126 && b != 35

def crlf : Bytes := [13, 10]

/-- A header or trailer field as it is sent. -/
structure Field where
  name : Bytes
  before : Bytes
  value : Bytes
  after : Bytes
  filled : name ≠ []
  token : ∀ b ∈ name, isTokenByte b = true
  blank : ∀ b ∈ before ++ after, isOws b = true
  content : ∀ b ∈ value, isFieldByte b = true

namespace Field

def line (f : Field) : Bytes := f.name ++ 58 :: (f.before ++ f.value ++ f.after)

def named (name : String) (f : Field) : Bool := eqIgnoreAsciiCase (Utf8.ascii f.name) name.toList

end Field

/-- The number a list of digits denotes. -/
def Denotes (radix : Nat) (digits : Bytes) (value : Nat) : Prop :=
  digits ≠ [] ∧ parseDigits radix 0 (Utf8.ascii digits) = some value

/-- What may stand between a chunk's size and the end of its line. -/
def isExtension (extension : Bytes) : Bool :=
  extension.all isFieldByte && (extension.isEmpty || (extension.dropWhile isOws).head? == some 59)

structure Chunk where
  size : Bytes
  extension : Bytes
  data : Bytes
  filled : data ≠ []
  digits : ∀ b ∈ size, isHexByte b = true
  denotes : Denotes 16 size data.length
  extends' : isExtension extension = true

namespace Chunk

def line (c : Chunk) : Bytes := c.size ++ c.extension

def encode (c : Chunk) : Bytes := c.line ++ crlf ++ (c.data ++ crlf)

end Chunk

inductive Payload where
  | length (content : Bytes)
  | chunked (chunks : List Chunk) (zeros extension : Bytes) (trailers : List Field)

namespace Payload

def body : Payload → Bytes
  | .length content => content
  | .chunked chunks _ _ _ => chunks.flatMap Chunk.data

def lines (fields : List Field) : Bytes := fields.flatMap fun f => f.line ++ crlf

def encode : Payload → Bytes
  | .length content => content
  | .chunked chunks zeros extension trailers =>
    chunks.flatMap Chunk.encode ++ (zeros ++ extension ++ crlf ++ (lines trailers ++ crlf))

end Payload

structure Request where
  put : Bool
  path : Bytes
  query : Option Bytes
  version : Bytes
  fields : List Field
  payload : Payload

namespace Request

def method (q : Request) : Bytes := if q.put then [80, 85, 84] else [80, 79, 83, 84]

def target (q : Request) : Bytes := q.path ++ (q.query.map fun query => 63 :: query).getD []

def requestLine (q : Request) : Bytes := q.method ++ 32 :: (q.target ++ 32 :: q.version)

def head (q : Request) : Bytes := q.requestLine ++ crlf ++ (Payload.lines q.fields ++ crlf)

def encode (q : Request) : Bytes := q.head ++ q.payload.encode

def body (q : Request) : Bytes := q.payload.body

/-- The payload is framed by one field, and by no other. -/
def Framed (fields : List Field) : Payload → Prop
  | .length content =>
    (∃ f, fields.filter (Field.named "content-length") = [f] ∧ (∀ b ∈ f.value, isDigitByte b = true) ∧
      Denotes 10 f.value content.length) ∧
    fields.filter (Field.named "transfer-encoding") = []
  | .chunked _ zeros extension trailers =>
    fields.filter (Field.named "content-length") = [] ∧
    (∃ f, fields.filter (Field.named "transfer-encoding") = [f] ∧
      eqIgnoreAsciiCase (Utf8.ascii f.value) "chunked".toList = true) ∧
    zeros ≠ [] ∧ (∀ b ∈ zeros, b = 48) ∧ isExtension extension = true ∧
    (Payload.lines trailers ++ crlf).length ≤ maxHeaderBytes

/-- A `POST` or `PUT` to the configured path with the right token and a body of at most `MAX_FRAME`
    bytes. -/
structure WellFormed (settings : Settings) (q : Request) : Prop where
  path : ∀ b ∈ q.path, isPathByte b = true
  rooted : q.path.head? = some 47
  query : ∀ query, q.query = some query → ∀ b ∈ query, isQueryByte b = true
  version : ∀ b ∈ q.version, isQueryByte b = true
  configured : normalisePath (Utf8.ascii q.path) = settings.path
  authorized : ∀ token, settings.token = some token →
    ∃ f, q.fields.filter (Field.named "x-ajar-token") = [f] ∧ Utf8.decode f.value = some token
  framed : Framed q.fields q.payload
  fits : q.body.length ≤ maxFrame

/-- The lines of a chunked body that carry free text: within the budget, and UTF-8. -/
def Readable : Payload → Prop
  | .length _ => True
  | .chunked chunks zeros extension trailers =>
    (∀ c ∈ chunks, c.line.length + 2 ≤ maxHeaderBytes ∧ (Utf8.decode c.extension).isSome = true) ∧
    (zeros ++ extension).length + 2 ≤ maxHeaderBytes ∧ (Utf8.decode extension).isSome = true ∧
    ∀ f ∈ trailers, (Utf8.decode f.value).isSome = true

/-- What the server asks of a request beyond that. -/
structure Acceptable (settings : Settings) (q : Request) : Prop where
  head : q.head.length ≤ maxHeaderBytes
  count : q.fields.length < maxHeaders
  text : ∀ f ∈ q.fields, (Utf8.decode f.value).isSome = true
  token : ∀ token, settings.token = some token → trimText token = token
  payload : Readable q.payload

end Request

end HttpModel

namespace HttpProof

open TextModel Buffered HttpModel

def charOf (b : UInt8) : Char := Char.ofNat b.toNat

theorem all_bytes {p : UInt8 → Prop} (each : ∀ n < 256, p (UInt8.ofNat n)) (b : UInt8) : p b := by
  have same : UInt8.ofNat b.toNat = b := UInt8.ofNat_toNat
  exact same ▸ each b.toNat b.toNat_lt

theorem token_byte (b : UInt8) : isTokenByte b = true →
    b.toNat < 0x80 ∧ charOf b ≠ ':' ∧ isLineEnd b = false := by
  revert b
  apply all_bytes
  decide +kernel

theorem ows_byte (b : UInt8) : isOws b = true →
    b.toNat < 0x80 ∧ isWhitespace (charOf b) = true ∧ isLineEnd b = false := by
  revert b
  apply all_bytes
  decide +kernel

theorem field_byte (b : UInt8) : isFieldByte b = true → isLineEnd b = false := by
  revert b
  apply all_bytes
  decide +kernel

theorem hex_byte (b : UInt8) : isHexByte b = true →
    b.toNat < 0x80 ∧ isWhitespace (charOf b) = false ∧ isLineEnd b = false ∧ charOf b ≠ '+' ∧ charOf b ≠ ';' := by
  revert b
  apply all_bytes
  decide +kernel

theorem query_byte (b : UInt8) : isQueryByte b = true →
    b.toNat < 0x80 ∧ isWhitespace (charOf b) = false ∧ isLineEnd b = false ∧ charOf b ≠ '#' := by
  revert b
  apply all_bytes
  decide +kernel

theorem path_byte (b : UInt8) : isPathByte b = true → isQueryByte b = true ∧ charOf b ≠ '?' := by
  revert b
  apply all_bytes
  decide +kernel

theorem hex_of_digit (b : UInt8) (digit : isDigitByte b = true) : isHexByte b = true := by
  rw [isHexByte, digit]
  rfl

theorem mem_ascii {bytes : Bytes} {c : Char} (member : c ∈ Utf8.ascii bytes) : ∃ b ∈ bytes, charOf b = c :=
  List.mem_map.mp member

section

variable (f : Field)

/-- A field's line as text: the name, a colon, and the value with white space around it. -/
theorem field_decode {value : Text} (decoded : Utf8.decode f.value = some value) :
    Utf8.decode f.line = some (Utf8.ascii f.name ++ ':' :: (Utf8.ascii f.before ++ value ++ Utf8.ascii f.after)) := by
  have before : ∀ b ∈ f.before, b.toNat < 0x80 := fun b member =>
    (ows_byte b (f.blank b (List.mem_append_left _ member))).1
  have after : ∀ b ∈ f.after, b.toNat < 0x80 := fun b member =>
    (ows_byte b (f.blank b (List.mem_append_right _ member))).1
  rw [Field.line, Utf8.decode_ascii_append fun b member => (token_byte b (f.token b member)).1,
    Utf8.decode_ascii_cons (by decide), List.append_assoc, Utf8.decode_ascii_append before,
    Utf8.decode_append decoded, Utf8.decode_ascii after]
  simp only [Option.map_some, List.append_assoc]
  rfl

theorem field_whole : ∀ b ∈ f.line, isLineEnd b = false := by
  intro b member
  rw [Field.line] at member
  rcases List.mem_append.mp member with member | member
  · exact (token_byte b (f.token b member)).2.2
  · rcases List.mem_cons.mp member with rfl | member
    · decide
    · rcases List.mem_append.mp member with member | member
      · rcases List.mem_append.mp member with member | member
        · exact (ows_byte b (f.blank b (List.mem_append_left _ member))).2.2
        · exact field_byte b (f.content b member)
      · exact (ows_byte b (f.blank b (List.mem_append_right _ member))).2.2

theorem field_split (value : Text) :
    splitOnce ':' (Utf8.ascii f.name ++ ':' :: (Utf8.ascii f.before ++ value ++ Utf8.ascii f.after)) =
      some (Utf8.ascii f.name, Utf8.ascii f.before ++ value ++ Utf8.ascii f.after) := by
  apply splitOnce_of_not_mem
  intro member
  rcases mem_ascii member with ⟨b, inside, same⟩
  exact (token_byte b (f.token b inside)).2.1 same

theorem field_trim (value : Text) :
    trimText (Utf8.ascii f.before ++ value ++ Utf8.ascii f.after) = trimText value := by
  apply trimWith_around
  · intro c member
    rcases mem_ascii member with ⟨b, inside, rfl⟩
    exact (ows_byte b (f.blank b (List.mem_append_left _ inside))).2.1
  · intro c member
    rcases mem_ascii member with ⟨b, inside, rfl⟩
    exact (ows_byte b (f.blank b (List.mem_append_right _ inside))).2.1

end

/-- What the server reads as a field's value. -/
def fieldText (f : Field) : Text := trimText ((Utf8.decode f.value).getD [])

def lengthOf (f : Field) : Option Nat := parseUsize 10 (fieldText f)

/-- The value the last field of a name gives. -/
def settle {α : Type} (name : String) (value : Field → Option α) : List Field → Option α → Option α
  | [], found => found
  | f :: fields, found => settle name value fields (if f.named name then value f else found)

theorem settle_absent {α : Type} {name : String} {value : Field → Option α} {fields : List Field}
    (absent : fields.filter (Field.named name) = []) (found : Option α) : settle name value fields found = found := by
  induction fields with
  | nil => rfl
  | cons f fields ih =>
    rw [List.filter_cons] at absent
    split at absent
    · cases absent
    · rename_i other
      rw [settle, if_neg other]
      exact ih absent

theorem settle_single {α : Type} {name : String} {value : Field → Option α} {fields : List Field} {f : Field}
    (single : fields.filter (Field.named name) = [f]) (found : Option α) :
    settle name value fields found = value f := by
  induction fields with
  | nil => cases single
  | cons g fields ih =>
    rw [List.filter_cons] at single
    rw [settle]
    split at single
    · rename_i here
      rw [List.cons.injEq] at single
      rcases single with ⟨rfl, none⟩
      rw [if_pos here, settle_absent none]
    · rename_i other
      rw [if_neg other]
      exact ih single

/-- The head after some more fields. -/
structure HeadAfter (fields : List Field) (head head' : Head) : Prop where
  path : head'.path = head.path
  methodAllowed : head'.methodAllowed = head.methodAllowed
  contentLength : head'.contentLength = settle "content-length" lengthOf fields head.contentLength
  chunked : head'.chunked = (head.chunked || fields.any (Field.named "transfer-encoding"))
  token : head'.token = settle "x-ajar-token" (fun f => some (fieldText f)) fields head.token

theorem named_eq {f : Field} {name : String} (named : f.named name = true) :
    (Utf8.ascii f.name).map Char.toLower = name.toList.map Char.toLower := beq_iff_eq.mp named

theorem named_other {f : Field} {name : String} (named : f.named name = true) (other : String)
    (different : (name.toList.map Char.toLower == other.toList.map Char.toLower) = false) : f.named other = false := by
  rw [Field.named, eqIgnoreAsciiCase, named_eq named]
  exact different

theorem applyField_field (f : Field) {value : Text} (decoded : Utf8.decode f.value = some value) (head : Head)
    (number : f.named "content-length" = true → (lengthOf f).isSome = true)
    (coding : f.named "transfer-encoding" = true → eqIgnoreAsciiCase (fieldText f) "chunked".toList = true) :
    ∃ head', applyField head (Utf8.ascii f.name ++ ':' :: (Utf8.ascii f.before ++ value ++ Utf8.ascii f.after)) = .ok head' ∧
      HeadAfter [f] head head' := by
  have text : trimText (Utf8.ascii f.before ++ value ++ Utf8.ascii f.after) = fieldText f := by
    rw [field_trim, fieldText, decoded]
    rfl
  have name : ∀ known : String, eqIgnoreAsciiCase (Utf8.ascii f.name) known.toList = f.named known := fun _ => rfl
  unfold applyField
  rw [field_split]
  dsimp only
  rw [text, name, name, name, name]
  split
  · rename_i length
    have noCoding := named_other length "transfer-encoding" (by decide)
    have noToken := named_other length "x-ajar-token" (by decide)
    rcases Option.isSome_iff_exists.mp (number length) with ⟨n, found⟩
    have parsed : parseUsize 10 (fieldText f) = some n := found
    rw [parsed]
    refine ⟨_, rfl, rfl, rfl, ?_, ?_, ?_⟩
    · simp only [settle, length, if_true, found]
    · simp [noCoding]
    · simp [settle, noToken]
  · rename_i noLength
    rw [Bool.not_eq_true] at noLength
    split
    · rename_i transfer
      have noToken := named_other transfer "x-ajar-token" (by decide)
      rw [if_pos (coding transfer)]
      refine ⟨_, rfl, rfl, rfl, ?_, ?_, ?_⟩
      · simp [settle, noLength]
      · simp [transfer]
      · simp [settle, noToken]
    · rename_i noCoding
      rw [Bool.not_eq_true] at noCoding
      split
      · rename_i expect
        have noToken := named_other expect "x-ajar-token" (by decide)
        refine ⟨_, rfl, rfl, rfl, ?_, ?_, ?_⟩
        · simp [settle, noLength]
        · simp [noCoding]
        · simp [settle, noToken]
      · split
        · rename_i token
          refine ⟨_, rfl, rfl, rfl, ?_, ?_, ?_⟩
          · simp [settle, noLength]
          · simp [noCoding]
          · simp [settle, token]
        · rename_i noToken
          rw [Bool.not_eq_true] at noToken
          refine ⟨_, rfl, rfl, rfl, ?_, ?_, ?_⟩
          · simp [settle, noLength]
          · simp [noCoding]
          · simp [settle, noToken]

theorem HeadAfter.cons {f : Field} {fields : List Field} {head head' head'' : Head} (first : HeadAfter [f] head head')
    (rest : HeadAfter fields head' head'') : HeadAfter (f :: fields) head head'' where
  path := rest.path.trans first.path
  methodAllowed := rest.methodAllowed.trans first.methodAllowed
  contentLength := by
    rw [rest.contentLength, first.contentLength]
    rfl
  chunked := by
    rw [rest.chunked, first.chunked]
    simp [Bool.or_assoc]
  token := by
    rw [rest.token, first.token]
    rfl

theorem lines_cons (f : Field) (fields : List Field) :
    Payload.lines (f :: fields) = f.line ++ [13, 10] ++ Payload.lines fields := rfl

section

variable {fields : List Field} {budget : Nat} {r : Reader} {rest : Bytes}

theorem readLine_field {f : Field} {value : Text} (decoded : Utf8.decode f.value = some value)
    (stream : r.flat = Payload.lines (f :: fields) ++ crlf ++ rest)
    (fits : (Payload.lines (f :: fields) ++ crlf).length ≤ budget) :
    ∃ left r', readLine budget r =
        .ok (Utf8.ascii f.name ++ ':' :: (Utf8.ascii f.before ++ value ++ Utf8.ascii f.after), left, r') ∧
      r'.flat = Payload.lines fields ++ crlf ++ rest ∧ (Payload.lines fields ++ crlf).length ≤ left := by
  rw [lines_cons, List.append_assoc, List.length_append, List.length_append] at fits
  have next : r.flat = f.line ++ [13, 10] ++ (Payload.lines fields ++ crlf ++ rest) := by
    rw [stream, lines_cons, List.append_assoc, List.append_assoc, List.append_assoc, List.append_assoc,
      List.append_assoc]
  have here : f.line.length + 2 ≤ budget := Nat.le_trans (Nat.le_add_right _ _) fits
  rcases readLine_line next (field_whole f) (field_decode f decoded) here with ⟨r', read, flat⟩
  refine ⟨_, r', read, flat, ?_⟩
  have two : ([13, 10] : Bytes).length = 2 := rfl
  omega

theorem readLine_blank (stream : r.flat = Payload.lines [] ++ crlf ++ rest)
    (fits : (Payload.lines [] ++ crlf).length ≤ budget) :
    ∃ left r', readLine budget r = .ok ([], left, r') ∧ r'.flat = rest := by
  have blank : r.flat = [] ++ [13, 10] ++ rest := stream
  rcases readLine_line blank (fun b member => by cases member) rfl fits with ⟨r', read, flat⟩
  exact ⟨_, r', read, flat⟩

end

/-- The header lines of a request, up to the empty one, are read as its fields. -/
theorem readHeaders_fields {fields : List Field} {lines budget : Nat} {r : Reader} {rest : Bytes} (head : Head)
    (stream : r.flat = Payload.lines fields ++ crlf ++ rest) (count : fields.length < lines)
    (fits : (Payload.lines fields ++ crlf).length ≤ budget)
    (text : ∀ f ∈ fields, (Utf8.decode f.value).isSome = true)
    (number : ∀ f ∈ fields, f.named "content-length" = true → (lengthOf f).isSome = true)
    (coding : ∀ f ∈ fields, f.named "transfer-encoding" = true →
      eqIgnoreAsciiCase (fieldText f) "chunked".toList = true) :
    ∃ head' r', readHeaders lines head budget r = .ok (head', r') ∧ r'.flat = rest ∧ HeadAfter fields head head' := by
  induction fields generalizing head lines budget r with
  | nil =>
    cases lines with
    | zero => cases count
    | succ lines =>
      rcases readLine_blank stream fits with ⟨left, r', read, flat⟩
      refine ⟨head, r', ?_, flat, ?_⟩
      · rw [readHeaders, read]
        rfl
      · exact ⟨rfl, rfl, rfl, by simp, rfl⟩
  | cons f fields ih =>
    cases lines with
    | zero => cases count
    | succ lines =>
      rcases Option.isSome_iff_exists.mp (text f List.mem_cons_self) with ⟨value, decoded⟩
      rcases readLine_field decoded stream fits with ⟨left, r1, read, next, later⟩
      rcases applyField_field f decoded head (number f List.mem_cons_self) (coding f List.mem_cons_self) with
        ⟨head1, applied, first⟩
      rcases ih head1 next (Nat.lt_of_succ_lt_succ count) later
          (fun g member => text g (List.mem_cons_of_mem _ member))
          (fun g member => number g (List.mem_cons_of_mem _ member))
          (fun g member => coding g (List.mem_cons_of_mem _ member)) with ⟨head', r', done, flat, after⟩
      refine ⟨head', r', ?_, flat, first.cons after⟩
      rw [readHeaders, read]
      dsimp only
      rw [if_neg (by simp), applied]
      exact done

end HttpProof

import AjarConnectors.Http.Requests

namespace HttpProof

open TextModel Buffered HttpModel

theorem named_of_filter {fields : List Field} {name : String} {f g : Field}
    (single : fields.filter (Field.named name) = [f]) (member : g ∈ fields) (named : g.named name = true) : g = f := by
  have inside : g ∈ fields.filter (Field.named name) := List.mem_filter.mpr ⟨member, named⟩
  rw [single] at inside
  exact List.mem_singleton.mp inside

theorem parseUsize_denotes {radix value : Nat} {digits : Bytes} (hex : ∀ b ∈ digits, isHexByte b = true)
    (denotes : Denotes radix digits value) (small : value < 2^64) :
    parseUsize radix (Utf8.ascii digits) = some value := by
  have plain : dropPlus (Utf8.ascii digits) = Utf8.ascii digits := by
    unfold dropPlus
    split
    · rename_i rest same
      rcases mem_ascii (show '+' ∈ Utf8.ascii digits by rw [same]; exact List.mem_cons_self) with ⟨b, member, plus⟩
      exact absurd plus (hex_byte b (hex b member)).2.2.2.1
    · rfl
  have filled : Utf8.ascii digits ≠ [] := fun none => denotes.1 (List.map_eq_nil_iff.mp none)
  rw [parseUsize, plain, if_neg filled, denotes.2]
  simpa [Option.filter] using small

theorem maxFrame_lt : maxFrame < 2^64 := by decide

theorem fieldText_ascii {f : Field} (visible : ∀ b ∈ f.value, isHexByte b = true) :
    fieldText f = Utf8.ascii f.value := by
  rw [fieldText, Utf8.decode_ascii fun b member => (hex_byte b (visible b member)).1]
  apply trimWith_of_none
  intro c member
  rcases mem_ascii member with ⟨b, inside, rfl⟩
  exact (hex_byte b (visible b inside)).2.1

theorem ascii_append (a b : Bytes) : Utf8.ascii (a ++ b) = Utf8.ascii a ++ Utf8.ascii b := List.map_append

section Requests

variable {settings : Settings} {q : Request}

theorem method_bytes (q : Request) : q.method ≠ [] ∧ ∀ b ∈ q.method, isQueryByte b = true := by
  unfold Request.method
  split <;> decide +kernel

theorem target_bytes (wellFormed : q.WellFormed settings) : q.target ≠ [] ∧ ∀ b ∈ q.target, isQueryByte b = true := by
  constructor
  · intro none
    have empty : q.path = [] := (List.append_eq_nil_iff.mp none).1
    have rooted := wellFormed.rooted
    rw [empty] at rooted
    cases rooted
  · intro b member
    rcases List.mem_append.mp member with member | member
    · exact (path_byte b (wellFormed.path b member)).1
    · cases query : q.query with
      | none =>
        rw [query] at member
        cases member
      | some bytes =>
        rw [query] at member
        rcases List.mem_cons.mp member with rfl | member
        · decide
        · exact wellFormed.query bytes query b member

theorem ascii_visible {bytes : Bytes} (query : ∀ b ∈ bytes, isQueryByte b = true) :
    ∀ c ∈ Utf8.ascii bytes, isWhitespace c = false := by
  intro c member
  rcases mem_ascii member with ⟨b, inside, rfl⟩
  exact (query_byte b (query b inside)).2.1

theorem requestLine_mem (wellFormed : q.WellFormed settings) {b : UInt8} (member : b ∈ q.requestLine) :
    b = 32 ∨ isQueryByte b = true := by
  rcases List.mem_append.mp member with member | member
  · exact Or.inr ((method_bytes q).2 b member)
  · rcases List.mem_cons.mp member with rfl | member
    · exact Or.inl rfl
    · rcases List.mem_append.mp member with member | member
      · exact Or.inr ((target_bytes wellFormed).2 b member)
      · rcases List.mem_cons.mp member with rfl | member
        · exact Or.inl rfl
        · exact Or.inr (wellFormed.version b member)

theorem requestLine_decode (wellFormed : q.WellFormed settings) :
    Utf8.decode q.requestLine = some (Utf8.ascii q.requestLine) := by
  apply Utf8.decode_ascii
  intro b member
  rcases requestLine_mem wellFormed member with rfl | query
  · decide
  · exact (query_byte b query).1

theorem requestLine_whole (wellFormed : q.WellFormed settings) : ∀ b ∈ q.requestLine, isLineEnd b = false := by
  intro b member
  rcases requestLine_mem wellFormed member with rfl | query
  · decide
  · exact (query_byte b query).2.2.1

theorem requestLine_split (wellFormed : q.WellFormed settings) :
    splitWhitespace (Utf8.ascii q.requestLine) =
      Utf8.ascii q.method :: Utf8.ascii q.target :: splitWhitespace (Utf8.ascii q.version) := by
  have method := method_bytes q
  have target := target_bytes wellFormed
  have words : Utf8.ascii q.requestLine =
      Utf8.ascii q.method ++ ' ' :: (Utf8.ascii q.target ++ ' ' :: Utf8.ascii q.version) := by
    rw [Request.requestLine, ascii_append]
    change _ ++ ' ' :: Utf8.ascii (q.target ++ 32 :: q.version) = _
    rw [ascii_append]
    rfl
  have filled : ∀ bytes : Bytes, bytes ≠ [] → Utf8.ascii bytes ≠ [] :=
    fun bytes some none => some (List.map_eq_nil_iff.mp none)
  rw [words, splitWhitespace_cons (filled _ method.1) (ascii_visible method.2) (by decide),
    splitWhitespace_cons (filled _ target.1) (ascii_visible target.2) (by decide)]

/-- The path of the target is what stands before its query. -/
theorem target_path (wellFormed : q.WellFormed settings) :
    (Utf8.ascii q.target).takeWhile (fun c => c != '?' && c != '#') = Utf8.ascii q.path := by
  have path : ∀ c ∈ Utf8.ascii q.path, (c != '?' && c != '#') = true := by
    intro c member
    rcases mem_ascii member with ⟨b, inside, rfl⟩
    have byte := path_byte b (wellFormed.path b inside)
    rw [Bool.and_eq_true, bne_iff_ne, bne_iff_ne]
    exact ⟨byte.2, (query_byte b byte.1).2.2.2⟩
  rw [Request.target, ascii_append, List.takeWhile_append_of_pos path]
  cases q.query with
  | none => simp [Utf8.ascii]
  | some query =>
    rw [Option.map_some, Option.getD_some]
    change _ ++ ('?' :: Utf8.ascii query).takeWhile _ = _
    rw [List.takeWhile_cons_of_neg (by decide), List.append_nil]

theorem startHead_request (wellFormed : q.WellFormed settings) :
    (startHead (Utf8.ascii q.method) (Utf8.ascii q.target)).path = settings.path ∧
      (startHead (Utf8.ascii q.method) (Utf8.ascii q.target)).methodAllowed = true := by
  constructor
  · rw [← wellFormed.configured, ← target_path wellFormed]
    rfl
  · unfold startHead Request.method
    dsimp only
    cases q.put <;> decide

theorem framed_number (framed : Request.Framed q.fields q.payload) (fits : q.body.length ≤ maxFrame) :
    ∀ f ∈ q.fields, f.named "content-length" = true → (lengthOf f).isSome = true := by
  intro f member named
  rw [Request.body] at fits
  cases payload : q.payload with
  | length content =>
    rw [payload] at framed fits
    rcases framed.1 with ⟨g, single, digits, denotes⟩
    have hex : ∀ b ∈ g.value, isHexByte b = true := fun b inside => hex_of_digit b (digits b inside)
    rw [named_of_filter single member named, lengthOf, fieldText_ascii hex,
      parseUsize_denotes hex denotes (Nat.lt_of_le_of_lt fits maxFrame_lt)]
    rfl
  | chunked chunks zeros extension trailers =>
    rw [payload] at framed
    have inside : f ∈ q.fields.filter (Field.named "content-length") := List.mem_filter.mpr ⟨member, named⟩
    rw [framed.1] at inside
    cases inside

theorem coding_byte (b : UInt8) : (charOf b).toLower ∈ "chunked".toList.map Char.toLower →
    b.toNat < 0x80 ∧ isWhitespace (charOf b) = false := by
  revert b
  apply all_bytes
  decide +kernel

theorem fieldText_chunked {f : Field} (chunked : eqIgnoreAsciiCase (Utf8.ascii f.value) "chunked".toList = true) :
    fieldText f = Utf8.ascii f.value := by
  have letters : ∀ b ∈ f.value, b.toNat < 0x80 ∧ isWhitespace (charOf b) = false := by
    intro b member
    apply coding_byte
    rw [← beq_iff_eq.mp chunked]
    exact List.mem_map_of_mem (List.mem_map_of_mem member)
  rw [fieldText, Utf8.decode_ascii fun b member => (letters b member).1]
  apply trimWith_of_none
  intro c member
  rcases mem_ascii member with ⟨b, inside, rfl⟩
  exact (letters b inside).2

theorem framed_coding (framed : Request.Framed q.fields q.payload) :
    ∀ f ∈ q.fields, f.named "transfer-encoding" = true → eqIgnoreAsciiCase (fieldText f) "chunked".toList = true := by
  intro f member named
  cases payload : q.payload with
  | length content =>
    rw [payload] at framed
    have inside : f ∈ q.fields.filter (Field.named "transfer-encoding") := List.mem_filter.mpr ⟨member, named⟩
    rw [framed.2] at inside
    cases inside
  | chunked chunks zeros extension trailers =>
    rw [payload] at framed
    rcases framed.2.1 with ⟨g, single, chunked⟩
    rw [named_of_filter single member named, fieldText_chunked chunked]
    exact chunked

theorem readHead_request (wellFormed : q.WellFormed settings) (acceptable : q.Acceptable settings) {r : Reader}
    {rest : Bytes} (stream : r.flat = q.head ++ rest) :
    ∃ head r', readHead r = .ok (head, r') ∧ r'.flat = rest ∧
      HeadAfter q.fields (startHead (Utf8.ascii q.method) (Utf8.ascii q.target)) head := by
  have size := acceptable.head
  rw [Request.head, List.length_append, List.length_append] at size
  have next : r.flat = q.requestLine ++ [13, 10] ++ (Payload.lines q.fields ++ crlf ++ rest) := by
    rw [stream, Request.head, List.append_assoc]
    rfl
  have two : crlf.length = 2 := rfl
  rcases readLine_line next (requestLine_whole wellFormed) (requestLine_decode wellFormed)
    (show q.requestLine.length + 2 ≤ maxHeaderBytes by omega) with ⟨r1, read, left⟩
  rcases readHeaders_fields (startHead (Utf8.ascii q.method) (Utf8.ascii q.target)) left acceptable.count
    (show _ ≤ maxHeaderBytes - (q.requestLine.length + 2) by omega) acceptable.text
    (framed_number wellFormed.framed wellFormed.fits) (framed_coding wellFormed.framed) with
    ⟨head, r', done, flat, after⟩
  refine ⟨head, r', ?_, flat, after⟩
  rw [readHead, read]
  dsimp only
  rw [requestLine_split wellFormed]
  exact done

end Requests

section Chunks

theorem extension_split {extension : Bytes} {text : Text} (extends' : isExtension extension = true)
    (decoded : Utf8.decode extension = some text) :
    text = [] ∨ ∃ blank later, text = blank ++ ';' :: later ∧ ∀ c ∈ blank, isWhitespace c = true ∧ c ≠ ';' := by
  rw [isExtension, Bool.and_eq_true, Bool.or_eq_true] at extends'
  rcases extends'.2 with empty | starts
  · rw [List.isEmpty_iff.mp empty] at decoded
    cases decoded
    exact Or.inl rfl
  · refine Or.inr ?_
    rw [beq_iff_eq] at starts
    cases rest : extension.dropWhile isOws with
    | nil =>
      rw [rest] at starts
      cases starts
    | cons b more =>
      rw [rest] at starts
      cases starts
      have parts : extension = extension.takeWhile isOws ++ 59 :: more := by
        rw [← rest, List.takeWhile_append_dropWhile]
      have ows : ∀ b ∈ extension.takeWhile isOws, isOws b = true := fun b member => List.mem_takeWhile_imp member
      rw [parts, Utf8.decode_ascii_append fun b member => (ows_byte b (ows b member)).1,
        Utf8.decode_ascii_cons (by decide)] at decoded
      rcases Option.map_eq_some_iff.mp decoded with ⟨tail, found, rfl⟩
      rcases Option.map_eq_some_iff.mp found with ⟨later, _, rfl⟩
      refine ⟨Utf8.ascii (extension.takeWhile isOws), later, rfl, ?_⟩
      intro c member
      rcases mem_ascii member with ⟨b, inside, rfl⟩
      refine ⟨(ows_byte b (ows b inside)).2.1, ?_⟩
      intro same
      have white := (ows_byte b (ows b inside)).2.1
      rw [same] at white
      exact absurd white (by decide)

/-- The size before any extension. -/
theorem sizeText_line {size extension : Bytes} {text : Text} (hex : ∀ b ∈ size, isHexByte b = true)
    (extends' : isExtension extension = true) (decoded : Utf8.decode extension = some text) :
    sizeText (Utf8.ascii size ++ text) = Utf8.ascii size := by
  have digit : ∀ c ∈ Utf8.ascii size, isWhitespace c = false ∧ (c != ';') = true := by
    intro c member
    rcases mem_ascii member with ⟨b, inside, rfl⟩
    have byte := hex_byte b (hex b inside)
    exact ⟨byte.2.1, bne_iff_ne.mpr byte.2.2.2.2⟩
  have front : ∀ c ∈ Utf8.ascii size, (c != ';') = true := fun c member => (digit c member).2
  have trimmed : trimText (Utf8.ascii size) = Utf8.ascii size := trimWith_of_none fun c member => (digit c member).1
  rw [sizeText, List.takeWhile_append_of_pos front]
  rcases extension_split extends' decoded with rfl | ⟨blank, later, rfl, white⟩
  · simpa using trimmed
  · rw [List.takeWhile_append_of_pos fun c member => bne_iff_ne.mpr (white c member).2,
      List.takeWhile_cons_of_neg (by decide), List.append_nil]
    have around : trimText ([] ++ Utf8.ascii size ++ blank) = trimText (Utf8.ascii size) :=
      trimWith_around (fun c member => by cases member) (fun c member => (white c member).1) _
    rw [List.nil_append] at around
    exact around.trans trimmed

theorem sizeLine_decode {size extension : Bytes} {text : Text} (hex : ∀ b ∈ size, isHexByte b = true)
    (decoded : Utf8.decode extension = some text) : Utf8.decode (size ++ extension) = some (Utf8.ascii size ++ text) := by
  rw [Utf8.decode_ascii_append fun b member => (hex_byte b (hex b member)).1, decoded]
  rfl

theorem sizeLine_whole {size extension : Bytes} (hex : ∀ b ∈ size, isHexByte b = true)
    (extends' : isExtension extension = true) : ∀ b ∈ size ++ extension, isLineEnd b = false := by
  intro b member
  rcases List.mem_append.mp member with member | member
  · exact (hex_byte b (hex b member)).2.2.1
  · rw [isExtension, Bool.and_eq_true, List.all_eq_true] at extends'
    exact field_byte b (extends'.1 b member)

theorem readTrailers_fields {fields : List Field} {rounds budget : Nat} {r : Reader} {rest : Bytes}
    (stream : r.flat = Payload.lines fields ++ crlf ++ rest) (count : fields.length < rounds)
    (fits : (Payload.lines fields ++ crlf).length ≤ budget)
    (text : ∀ f ∈ fields, (Utf8.decode f.value).isSome = true) :
    ∃ r', readTrailers rounds budget r = .ok r' ∧ r'.flat = rest := by
  induction fields generalizing rounds budget r with
  | nil =>
    cases rounds with
    | zero => cases count
    | succ rounds =>
      rcases readLine_blank stream fits with ⟨left, r', read, flat⟩
      refine ⟨r', ?_, flat⟩
      rw [readTrailers, read]
      rfl
  | cons f fields ih =>
    cases rounds with
    | zero => cases count
    | succ rounds =>
      rcases Option.isSome_iff_exists.mp (text f List.mem_cons_self) with ⟨value, decoded⟩
      rcases readLine_field decoded stream fits with ⟨left, r1, read, next, later⟩
      rcases ih next (Nat.lt_of_succ_lt_succ count) later (fun g member => text g (List.mem_cons_of_mem _ member)) with
        ⟨r', done, flat⟩
      refine ⟨r', ?_, flat⟩
      rw [readTrailers, read]
      dsimp only
      rw [if_neg (by simp)]
      exact done

theorem readExact_append {r : Reader} {data rest : Bytes} (stream : r.flat = data ++ rest) :
    ∃ r', r.readExact data.length = some (data, r') ∧ r'.flat = rest := by
  have enough : data.length ≤ r.flat.length := by
    rw [stream, List.length_append]
    omega
  rcases Option.isSome_iff_exists.mp (readExact_isSome enough) with ⟨⟨got, r'⟩, found⟩
  have flat := readExact_flat found
  rw [stream, List.take_left, List.drop_left] at flat
  refine ⟨r', ?_, flat.2.2⟩
  rw [found, flat.2.1]

theorem lines_length (fields : List Field) : fields.length ≤ (Payload.lines fields).length := by
  induction fields with
  | nil => exact Nat.le_refl 0
  | cons f fields ih =>
    rw [lines_cons, List.length_append, List.length_append, List.length_cons]
    have two : ([13, 10] : Bytes).length = 2 := rfl
    omega

theorem chunks_length (chunks : List Chunk) : chunks.length ≤ (chunks.flatMap Chunk.encode).length := by
  induction chunks with
  | nil => exact Nat.le_refl 0
  | cons c chunks ih =>
    have positive := List.length_pos_of_ne_nil c.filled
    rw [List.flatMap_cons, List.length_append, List.length_cons, Chunk.encode]
    simp only [List.length_append]
    omega

theorem zeros_denote {zeros : Bytes} (filled : zeros ≠ []) (all : ∀ b ∈ zeros, b = 48) : Denotes 16 zeros 0 := by
  refine ⟨filled, ?_⟩
  clear filled
  induction zeros with
  | nil => rfl
  | cons b zeros ih =>
    rw [all b List.mem_cons_self]
    change parseDigits 16 0 ('0' :: Utf8.ascii zeros) = some 0
    rw [parseDigits, show digitValue '0' = some 0 by decide]
    exact ih fun c member => all c (List.mem_cons_of_mem _ member)

theorem readChunked_zero {zeros extension rest : Bytes} {trailers : List Field} {rounds : Nat} {r : Reader} (body : Bytes)
    (stream : r.flat = zeros ++ extension ++ crlf ++ (Payload.lines trailers ++ crlf ++ rest))
    (filled : zeros ≠ []) (all : ∀ b ∈ zeros, b = 48) (extends' : isExtension extension = true)
    (fits : (zeros ++ extension).length + 2 ≤ maxHeaderBytes) (text : (Utf8.decode extension).isSome = true)
    (trailing : (Payload.lines trailers ++ crlf).length ≤ maxHeaderBytes)
    (readable : ∀ f ∈ trailers, (Utf8.decode f.value).isSome = true) :
    ∃ r', readChunked (rounds + 1) body r = .ok (body, r') ∧ r'.flat = rest := by
  have hex : ∀ b ∈ zeros, isHexByte b = true := by
    intro b member
    rw [all b member]
    decide
  rcases Option.isSome_iff_exists.mp text with ⟨more, decoded⟩
  rcases readLine_line stream (sizeLine_whole hex extends') (sizeLine_decode hex decoded) fits with ⟨r1, read, left⟩
  have enough : trailers.length < r1.flat.length + 1 := by
    have size := lines_length trailers
    rw [left, List.length_append, List.length_append]
    omega
  rcases readTrailers_fields left enough trailing readable with ⟨r', done, flat⟩
  refine ⟨r', ?_, flat⟩
  rw [readChunked, read]
  dsimp only
  rw [sizeText_line hex extends' decoded, parseUsize_denotes hex (zeros_denote filled all) (by decide)]
  dsimp only
  rw [done]
  rfl

/-- The chunks of a body, however it is cut into them, are read as the body. -/
theorem readChunked_chunks {chunks : List Chunk} {zeros extension rest : Bytes} {trailers : List Field} {rounds : Nat}
    {r : Reader} (body : Bytes)
    (stream : r.flat = chunks.flatMap Chunk.encode ++ (zeros ++ extension ++ crlf ++ (Payload.lines trailers ++ crlf ++ rest)))
    (count : chunks.length < rounds) (size : (body ++ chunks.flatMap Chunk.data).length ≤ maxFrame)
    (lines : ∀ c ∈ chunks, c.line.length + 2 ≤ maxHeaderBytes ∧ (Utf8.decode c.extension).isSome = true)
    (filled : zeros ≠ []) (all : ∀ b ∈ zeros, b = 48) (extends' : isExtension extension = true)
    (fits : (zeros ++ extension).length + 2 ≤ maxHeaderBytes) (text : (Utf8.decode extension).isSome = true)
    (trailing : (Payload.lines trailers ++ crlf).length ≤ maxHeaderBytes)
    (readable : ∀ f ∈ trailers, (Utf8.decode f.value).isSome = true) :
    ∃ r', readChunked rounds body r = .ok (body ++ chunks.flatMap Chunk.data, r') ∧ r'.flat = rest := by
  induction chunks generalizing rounds body r with
  | nil =>
    cases rounds with
    | zero => cases count
    | succ rounds =>
      rw [List.flatMap_nil, List.append_nil]
      exact readChunked_zero body stream filled all extends' fits text trailing readable
  | cons c chunks ih =>
    cases rounds with
    | zero => cases count
    | succ rounds =>
      have own := lines c List.mem_cons_self
      rcases Option.isSome_iff_exists.mp own.2 with ⟨more, decoded⟩
      have next : r.flat = c.line ++ [13, 10] ++ (c.data ++ ([] ++ [13, 10] ++ (chunks.flatMap Chunk.encode ++
          (zeros ++ extension ++ crlf ++ (Payload.lines trailers ++ crlf ++ rest))))) := by
        rw [stream, List.flatMap_cons, Chunk.encode]
        simp only [List.append_assoc, crlf, List.nil_append]
      rcases readLine_line next (sizeLine_whole c.digits c.extends') (sizeLine_decode c.digits decoded) own.1 with
        ⟨r1, read, left⟩
      rcases readExact_append left with ⟨r2, got, left⟩
      rcases readLine_line left (fun b member => by cases member) rfl (show 0 + 2 ≤ maxHeaderBytes by decide) with
        ⟨r3, ended, left⟩
      rw [List.flatMap_cons, ← List.append_assoc] at size
      have positive := List.length_pos_of_ne_nil c.filled
      have room : body.length + c.data.length ≤ maxFrame := by
        rw [List.length_append, List.length_append] at size
        omega
      rcases ih (body ++ c.data) left (Nat.lt_of_succ_lt_succ count) size
          (fun d member => lines d (List.mem_cons_of_mem _ member)) with ⟨r', done, flat⟩
      refine ⟨r', ?_, flat⟩
      have parsed := parseUsize_denotes c.digits c.denotes
        (Nat.lt_of_le_of_lt (Nat.le_trans (Nat.le_add_left _ _) room) maxFrame_lt)
      rcases Nat.exists_eq_succ_of_ne_zero (Nat.ne_of_gt positive) with ⟨n, length⟩
      rw [length] at parsed room got
      rw [readChunked, read]
      dsimp only
      rw [sizeText_line c.digits c.extends' decoded, parsed]
      dsimp only
      rw [if_neg (Nat.not_lt.mpr room), got]
      dsimp only
      rw [ended]
      dsimp only
      rw [done, List.flatMap_cons, List.append_assoc]

end Chunks

section Served

variable {settings : Settings} {q : Request}

theorem secretEq_self (text : Text) : secretEq text text = true := by
  have zero : ∀ bytes : List Nat, (List.zipWith (· ^^^ ·) bytes bytes).foldl (· ||| ·) 0 = 0 := by
    intro bytes
    induction bytes with
    | nil => rfl
    | cons b bytes ih =>
      rw [List.zipWith_cons_cons, List.foldl_cons, Nat.xor_self]
      exact ih
  rw [secretEq, zero, beq_self_eq_true]
  rfl

theorem authorized_request (wellFormed : q.WellFormed settings) (acceptable : q.Acceptable settings) {start head : Head}
    (after : HeadAfter q.fields start head) : authorized settings head = true := by
  unfold authorized
  split
  · rfl
  · rename_i token expected
    rcases wellFormed.authorized token expected with ⟨f, single, decoded⟩
    have presented : head.token = some token := by
      rw [after.token, settle_single single, fieldText, decoded, Option.getD_some, acceptable.token token expected]
    rw [presented, Option.getD_some]
    exact secretEq_self token

theorem readBody_request (wellFormed : q.WellFormed settings) (acceptable : q.Acceptable settings) {head : Head}
    (after : HeadAfter q.fields (startHead (Utf8.ascii q.method) (Utf8.ascii q.target)) head) {r : Reader} {rest : Bytes}
    (stream : r.flat = q.payload.encode ++ rest) :
    head.contentLength.any (maxFrame < ·) = false ∧ (head.contentLength.isNone && !head.chunked) = false ∧
      ∃ r', readBody head r = .ok (q.body, r') ∧ r'.flat = rest := by
  have framed := wellFormed.framed
  have fits := wellFormed.fits
  have readable := acceptable.payload
  have length := after.contentLength
  have chunked := after.chunked
  rw [Request.body] at fits ⊢
  cases payload : q.payload with
  | length content =>
    rw [payload] at framed fits stream
    rcases framed.1 with ⟨f, single, digits, denotes⟩
    have hex : ∀ b ∈ f.value, isHexByte b = true := fun b inside => hex_of_digit b (digits b inside)
    have small : content.length < 2^64 := Nat.lt_of_le_of_lt fits maxFrame_lt
    have value : head.contentLength = some content.length := by
      rw [length, settle_single single, lengthOf, fieldText_ascii hex, parseUsize_denotes hex denotes small]
    have plain : head.chunked = false := by
      rw [chunked, Bool.or_eq_false_iff]
      refine ⟨rfl, ?_⟩
      rw [List.any_eq_false]
      exact List.filter_eq_nil_iff.mp framed.2
    have whole : r.flat = content ++ rest := stream
    have within : content.length ≤ maxFrame := fits
    rcases readExact_append whole with ⟨r', got, flat⟩
    refine ⟨?_, ?_, r', ?_, flat⟩
    · rw [value]
      simpa using within
    · rw [value]
      rfl
    · rw [readBody, plain, value, Option.getD_some, got]
      rfl
  | chunked chunks zeros extension trailers =>
    rw [payload] at framed fits stream readable
    rcases framed with ⟨none, ⟨f, single, _⟩, filled, all, extends', trailing⟩
    rcases readable with ⟨lines, line, text, readable⟩
    have value : head.contentLength = .none := by
      rw [length, settle_absent none]
      rfl
    have coded : head.chunked = true := by
      rw [chunked, Bool.or_eq_true]
      refine Or.inr (List.any_eq_true.mpr ⟨f, ?_⟩)
      have member : f ∈ q.fields.filter (Field.named "transfer-encoding") := by
        rw [single]
        exact List.mem_singleton_self f
      exact List.mem_filter.mp member
    have next : r.flat = chunks.flatMap Chunk.encode ++
        (zeros ++ extension ++ crlf ++ (Payload.lines trailers ++ crlf ++ rest)) := by
      rw [stream, Payload.encode]
      simp only [List.append_assoc]
    have count : chunks.length < r.flat.length + 1 := by
      have each := chunks_length chunks
      rw [next, List.length_append]
      omega
    rcases readChunked_chunks [] next count fits lines filled all extends' line text trailing readable with
      ⟨r', done, flat⟩
    refine ⟨?_, ?_, r', ?_, flat⟩
    · rw [value]
      rfl
    · rw [coded]
      simp
    · rw [readBody, coded]
      exact done

/-- A request that is well-formed and within the server's limits is answered 204, with its body as
    the one frame queued, and the next request begins right after it. -/
theorem serve_request (wellFormed : q.WellFormed settings) (acceptable : q.Acceptable settings) {turn : Turn}
    (sent : turn.send = .sent) (continues : turn.continues = true) {r : Reader} {rest : Bytes}
    (stream : r.flat = q.encode ++ rest) :
    ∃ r', serve settings turn r = (⟨.accepted, true, some q.body⟩, r') ∧ r'.flat = rest := by
  rw [Request.encode, List.append_assoc] at stream
  rcases readHead_request wellFormed acceptable stream with ⟨head, r1, read, left, after⟩
  rcases readBody_request wellFormed acceptable after left with ⟨small, framed, r', body, flat⟩
  have start := startHead_request wellFormed
  have path : head.path = settings.path := after.path.trans start.1
  have method : head.methodAllowed = true := after.methodAllowed.trans start.2
  refine ⟨r', ?_, flat⟩
  rw [serve, read]
  dsimp only
  rw [if_neg (not_not.mpr path), method, authorized_request wellFormed acceptable after, small, framed]
  rw [if_neg (by decide), if_neg (by decide), if_neg (by decide), if_neg (by decide), deliver, continues, body, sent]
  simp

theorem encode_ne_nil (q : Request) : q.encode ≠ [] := by
  intro none
  have head := (List.append_eq_nil_iff.mp none).1
  have line := (List.append_eq_nil_iff.mp (List.append_eq_nil_iff.mp head).1).1
  exact (method_bytes q).1 (List.append_eq_nil_iff.mp line).1

end Served

theorem requests_length (requests : List Request) : requests.length ≤ (requests.flatMap Request.encode).length := by
  induction requests with
  | nil => exact Nat.le_refl 0
  | cons q requests ih =>
    have positive := List.length_pos_of_ne_nil (encode_ne_nil q)
    rw [List.flatMap_cons, List.length_append, List.length_cons]
    omega

theorem connectionLoop_requests {settings : Settings} {turns : Nat → Turn} {requests : List Request} {rounds : Nat}
    (index : Nat) {r : Reader} (wellFormed : ∀ q ∈ requests, q.WellFormed settings)
    (acceptable : ∀ q ∈ requests, q.Acceptable settings) (room : ∀ index, (turns index).send = .sent)
    (writes : ∀ index, (turns index).continues = true ∧ (turns index).responds = true)
    (stream : r.flat = requests.flatMap Request.encode) (count : requests.length < rounds) :
    (connectionLoop settings turns rounds index r).map Served.exchange =
      requests.map (fun q => ⟨.accepted, true, some q.body⟩) := by
  induction requests generalizing rounds index r with
  | nil =>
    cases rounds with
    | zero => rfl
    | succ rounds =>
      rw [connectionLoop, if_pos ((isEnded_iff r).mpr stream)]
      rfl
  | cons q requests ih =>
    cases rounds with
    | zero => cases count
    | succ rounds =>
      rw [List.flatMap_cons] at stream
      have more : ¬ r.isEnded = true := by
        rw [isEnded_iff, stream]
        exact fun none => encode_ne_nil q (List.append_eq_nil_iff.mp none).1
      rcases serve_request (wellFormed q List.mem_cons_self) (acceptable q List.mem_cons_self) (room index)
        (writes index).1 stream with ⟨r', served, flat⟩
      have rest := ih (index + 1) (fun p member => wellFormed p (List.mem_cons_of_mem _ member))
        (fun p member => acceptable p (List.mem_cons_of_mem _ member)) flat (Nat.lt_of_succ_lt_succ count)
      rw [connectionLoop, if_neg more, served]
      dsimp only
      rw [(writes index).2, Bool.and_self, if_pos rfl, List.map_cons, List.map_cons, rest]

/-- Well-formed requests within the server's limits, one after the other on one connection and cut
    into reads in any way: each is answered 204 and keeps the connection open, and the frames queued
    are their bodies in order. -/
theorem requests_are_delivered (settings : Settings) (turns : Nat → Turn) (requests : List Request) (r : Reader)
    (wellFormed : ∀ q ∈ requests, q.WellFormed settings) (acceptable : ∀ q ∈ requests, q.Acceptable settings)
    (room : ∀ index, (turns index).send = .sent)
    (writes : ∀ index, (turns index).continues = true ∧ (turns index).responds = true)
    (stream : r.flat = requests.flatMap Request.encode) :
    (connection settings turns r).map Served.exchange =
      requests.map (fun q => ⟨.accepted, true, some q.body⟩) := by
  apply connectionLoop_requests 0 wellFormed acceptable room writes stream
  rw [stream]
  exact Nat.lt_succ_of_le (requests_length requests)

end HttpProof

namespace HttpModel

def asBytes (text : String) : Bytes := (Utf8.bytes text).map UInt8.ofNat

def lengthField (digits : String) (all : ∀ b ∈ asBytes digits, isFieldByte b = true) : Field where
  name := asBytes "Content-Length"
  before := [32]
  value := asBytes digits
  after := []
  filled := by decide
  token := by decide +kernel
  blank := by decide +kernel
  content := all

def codingField : Field where
  name := asBytes "transfer-encoding"
  before := [32, 9]
  value := asBytes "Chunked"
  after := [32]
  filled := by decide
  token := by decide +kernel
  blank := by decide +kernel
  content := by decide +kernel

def tokenField : Field where
  name := asBytes "X-Ajar-Token"
  before := []
  value := asBytes "s3cret"
  after := []
  filled := by decide
  token := by decide +kernel
  blank := by decide +kernel
  content := by decide +kernel

def hello (extension : Bytes) (extends' : isExtension extension = true) : Chunk where
  size := asBytes "05"
  extension := extension
  data := asBytes "hello"
  filled := by decide
  digits := by decide +kernel
  denotes := ⟨by decide, by decide⟩
  extends' := extends'

def lengthRequest : Request :=
  ⟨false, asBytes "/hook/", some (asBytes "x=1"), asBytes "HTTP/1.1",
    [tokenField, lengthField "2" (by decide +kernel)], .length (asBytes "hi")⟩

def chunkedRequest (extension : Bytes) (extends' : isExtension extension = true) : Request :=
  ⟨true, asBytes "/hook", none, asBytes "HTTP/1.1", [codingField, tokenField],
    .chunked [hello extension extends', hello [] (by decide +kernel)] [48] [] [lengthField "99" (by decide +kernel)]⟩

def testSettings : Settings := ⟨"/hook".toList, some "s3cret".toList⟩

/-- The queue has room and every write succeeds. -/
def easyTurn : Turn := ⟨.sent, true, true⟩

/-- Every byte arrives in a segment of its own. -/
def bytewise (stream : Bytes) : Reader := ⟨[], stream.map fun b => (b, [])⟩

/-- A quoted string in a chunk extension may hold bytes above 127. -/
def opaqueExtension : Bytes := asBytes ";note=\"" ++ [128] ++ asBytes "\""

end HttpModel

namespace HttpProof

open TextModel Buffered HttpModel

theorem bytewise_flat (stream : Bytes) : (bytewise stream).flat = stream := by
  induction stream with
  | nil => rfl
  | cons b stream ih => exact congrArg (b :: ·) ih

theorem lengthRequest_wellFormed : lengthRequest.WellFormed testSettings where
  path := by decide +kernel
  rooted := by decide +kernel
  query := by
    intro query same
    cases same
    decide +kernel
  version := by decide +kernel
  configured := by decide +kernel
  authorized := by
    intro token same
    cases same
    exact ⟨tokenField, rfl, by decide +kernel⟩
  framed := by
    refine ⟨⟨lengthField "2" (by decide +kernel), rfl, ?_, ?_, ?_⟩, rfl⟩
    · decide +kernel
    · decide +kernel
    · decide +kernel
  fits := by decide +kernel

theorem chunkedRequest_wellFormed (extension : Bytes) (extends' : isExtension extension = true) :
    (chunkedRequest extension extends').WellFormed testSettings where
  path := show ∀ b ∈ asBytes "/hook", isPathByte b = true by decide +kernel
  rooted := show (asBytes "/hook").head? = some 47 by decide +kernel
  query := fun query same => by cases same
  version := show ∀ b ∈ asBytes "HTTP/1.1", isQueryByte b = true by decide +kernel
  configured := show normalisePath (Utf8.ascii (asBytes "/hook")) = testSettings.path by decide +kernel
  authorized := by
    intro token same
    cases same
    exact ⟨tokenField, rfl, by decide +kernel⟩
  framed := by
    refine ⟨rfl, ⟨codingField, rfl, ?_⟩, ?_, ?_, ?_, ?_⟩
    · decide +kernel
    · decide
    · decide +kernel
    · decide +kernel
    · decide +kernel
  fits := show (asBytes "hello" ++ (asBytes "hello" ++ [])).length ≤ maxFrame by decide +kernel

theorem lengthRequest_acceptable : lengthRequest.Acceptable testSettings where
  head := by decide +kernel
  count := by decide +kernel
  text := by
    intro f member
    rcases List.mem_cons.mp member with rfl | member
    · decide +kernel
    · rw [List.mem_singleton.mp member]
      decide +kernel
  token := by
    intro token same
    cases same
    decide +kernel
  payload := trivial

theorem chunkedRequest_acceptable : (chunkedRequest (asBytes " ;a=b") (by decide +kernel)).Acceptable testSettings where
  head := by decide +kernel
  count := by decide +kernel
  text := by
    intro f member
    rcases List.mem_cons.mp member with rfl | member
    · decide +kernel
    · rw [List.mem_singleton.mp member]
      decide +kernel
  token := by
    intro token same
    cases same
    decide +kernel
  payload := by
    refine ⟨?_, ?_, ?_, ?_⟩
    · intro c member
      rcases List.mem_cons.mp member with rfl | member
      · decide +kernel
      · rw [List.mem_singleton.mp member]
        decide +kernel
    · decide
    · decide
    · intro f member
      rw [List.mem_singleton.mp member]
      decide +kernel

theorem two_requests_delivered :
    (connection testSettings (fun _ => easyTurn)
      (bytewise ([lengthRequest, chunkedRequest (asBytes " ;a=b") (by decide +kernel)].flatMap Request.encode))).map
        Served.exchange =
      [⟨.accepted, true, some (asBytes "hi")⟩, ⟨.accepted, true, some (asBytes "hellohello")⟩] := by
  have delivered := requests_are_delivered testSettings (fun _ => easyTurn)
    [lengthRequest, chunkedRequest (asBytes " ;a=b") (by decide +kernel)] _
    (by
      intro q member
      rcases List.mem_cons.mp member with rfl | member
      · exact lengthRequest_wellFormed
      · rw [List.mem_singleton.mp member]
        exact chunkedRequest_wellFormed _ _)
    (by
      intro q member
      rcases List.mem_cons.mp member with rfl | member
      · exact lengthRequest_acceptable
      · rw [List.mem_singleton.mp member]
        exact chunkedRequest_acceptable)
    (fun _ => rfl) (fun _ => ⟨rfl, rfl⟩) (bytewise_flat _)
  rw [delivered]
  decide +kernel

/-- The server takes every line for UTF-8. -/
theorem opaque_extension_is_refused :
    (chunkedRequest opaqueExtension (by decide +kernel)).WellFormed testSettings ∧
    (connection testSettings (fun _ => easyTurn)
      (bytewise (chunkedRequest opaqueExtension (by decide +kernel)).encode)).map Served.exchange =
        [⟨.badRequest, false, none⟩] :=
  ⟨chunkedRequest_wellFormed _ _, by decide +kernel⟩

end HttpProof

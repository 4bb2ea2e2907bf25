import AjarConnectors.Http.Reading

namespace HttpModel

open Buffered

-- How RFC 9112 frames a request. Names, numbers and white space are judged as the RFC does, with a
-- bare CR as a space; a line is taken for text as the server takes it.
namespace Rfc9112

def isBlank (c : Char) : Bool := c == ' ' || c == '\t' || c == '\r'

def trimBlank (text : Text) : Text := trimWith isBlank text

/-- A number is digits and nothing else. -/
def number (radix : Nat) (text : Text) : Option Nat := if text = [] then none else parseDigits radix 0 text

/-- The end of a line alone. The last line of the stream may lack its LF. -/
def isEmptyLine (raw : Bytes) : Bool := raw == [13, 10] || raw == [10] || raw == [13]

/-- What the fields so far say about the body, and whether the last of them is one that does. -/
structure Seen where
  lengths : List Text := []
  codings : List Text := []
  pending : Bool := false

/-- A header line. White space before the colon is refused, and so is a folded line that would
    change a length or a coding; other folded lines do not matter here. -/
def Seen.field (seen : Seen) (line : Text) : Option Seen :=
  if line.head?.any isBlank then if seen.pending then none else some seen
  else match splitOnce ':' line with
    | none => none
    | some (name, value) =>
      if name.getLast?.any isBlank then none
      else if eqIgnoreAsciiCase name "content-length".toList then
        some { seen with lengths := seen.lengths ++ [value], pending := true }
      else if eqIgnoreAsciiCase name "transfer-encoding".toList then
        some { seen with codings := seen.codings ++ [value], pending := true }
      else some { seen with pending := false }

inductive Fields : Seen → Bytes → Seen → Bytes → Prop where
  | done {seen : Seen} {s raw rest : Bytes} (cut : takeThrough 10 s = (raw, rest)) (empty : isEmptyLine raw = true) :
      Fields seen s seen rest
  | field {seen next last : Seen} {s raw later rest : Bytes} {line : Text} (cut : takeThrough 10 s = (raw, later))
      (decoded : Utf8.decode (stripEnd raw) = some line) (filled : line ≠ []) (found : seen.field line = some next)
      (more : Fields next later last rest) : Fields seen s last rest

inductive BodyLength where
  | none
  | length (n : Nat)
  | chunked

/-- A transfer coding overrides a length; a length is given at most once, as a decimal number. -/
def Seen.bodyLength (seen : Seen) : Option BodyLength :=
  if seen.codings.any fun value => !eqIgnoreAsciiCase (trimBlank value) "chunked".toList then .none
  else match seen.lengths with
    | [] => some (if seen.codings.isEmpty then .none else .chunked)
    | [value] => match number 10 (trimBlank value) with
      | .none => .none
      | some n => some (if seen.codings.isEmpty then .length n else .chunked)
    | _ => .none

inductive Trailers : Bytes → Bytes → Prop where
  | done {s raw rest : Bytes} (cut : takeThrough 10 s = (raw, rest)) (empty : isEmptyLine raw = true) : Trailers s rest
  | field {s raw later rest : Bytes} (cut : takeThrough 10 s = (raw, later)) (filled : stripEnd raw ≠ [])
      (more : Trailers later rest) : Trailers s rest

/-- The size on a chunk's line: a hexadecimal number before any extension. -/
def chunkSize (raw : Bytes) : Option Nat :=
  (Utf8.decode (stripEnd raw)).bind fun line => number 16 (trimBlank (line.takeWhile (· != ';')))

/-- Chunk data is as long as its size says, and a line end follows it. -/
inductive Chunks : Bytes → Bytes → Bytes → Prop where
  | last {s raw later rest : Bytes} (cut : takeThrough 10 s = (raw, later)) (size : chunkSize raw = some 0)
      (trailers : Trailers later rest) : Chunks s [] rest
  | chunk {s raw data after ending later body rest : Bytes} {n : Nat} (cut : takeThrough 10 s = (raw, data ++ after))
      (size : chunkSize raw = some (n + 1)) (whole : data.length = n + 1)
      (ended : takeThrough 10 after = (ending, later)) (empty : isEmptyLine ending = true)
      (more : Chunks later body rest) : Chunks s (data ++ body) rest

def Content (s : Bytes) (content : Option Bytes) (rest : Bytes) : BodyLength → Prop
  | .none => content = .none ∧ rest = s
  | .length n => ∃ body, content = some body ∧ s = body ++ rest ∧ body.length = n
  | .chunked => ∃ body, content = some body ∧ Chunks s body rest

/-- The stream begins with a request that the RFC frames; `content` is its body, if it has one. -/
def Request (s : Bytes) (content : Option Bytes) (rest : Bytes) : Prop :=
  ∃ line fields seen body length, takeThrough 10 s = (line, fields) ∧ Fields {} fields seen body ∧
    seen.bodyLength = some length ∧ Content body content rest length

def Framed (s : Bytes) : Prop := ∃ content rest, Request s content rest

/-- Where requests begin. -/
inductive Boundary (stream : Bytes) : Bytes → Prop where
  | start : Boundary stream stream
  | next {s rest : Bytes} {content : Option Bytes} (before : Boundary stream s) (request : Request s content rest) :
      Boundary stream rest

end Rfc9112

end HttpModel

namespace HttpProof

open TextModel Buffered HttpModel Rfc9112

theorem trimWith_parts (p : Char → Bool) (text : Text) :
    ∃ front back, text = front ++ trimWith p text ++ back ∧ (∀ c ∈ front, p c = true) ∧ ∀ c ∈ back, p c = true := by
  let inner := text.dropWhile p
  refine ⟨text.takeWhile p, (inner.reverse.takeWhile p).reverse, ?_, ?_, ?_⟩
  · have ends : (inner.reverse.dropWhile p).reverse ++ (inner.reverse.takeWhile p).reverse = inner := by
      rw [← List.reverse_append, List.takeWhile_append_dropWhile, List.reverse_reverse]
    rw [List.append_assoc]
    change text = text.takeWhile p ++ ((inner.reverse.dropWhile p).reverse ++ (inner.reverse.takeWhile p).reverse)
    rw [ends, List.takeWhile_append_dropWhile]
  · exact fun c member => List.mem_takeWhile_imp member
  · exact fun c member => List.mem_takeWhile_imp (List.mem_reverse.mp member)

theorem blank_white {c : Char} (blank : isBlank c = true) : isWhitespace c = true := by
  rw [isBlank, Bool.or_eq_true, Bool.or_eq_true, beq_iff_eq, beq_iff_eq, beq_iff_eq] at blank
  rcases blank with (rfl | rfl) | rfl <;> decide

theorem parseDigits_digits {radix value n : Nat} {text : Text} (parsed : parseDigits radix value text = some n) :
    ∀ c ∈ text, (digitValue c).isSome = true := by
  induction text generalizing value with
  | nil => exact fun c member => by cases member
  | cons d text ih =>
    rw [parseDigits] at parsed
    split at parsed
    · cases parsed
    · rename_i digit found
      split at parsed
      · intro c member
        rcases List.mem_cons.mp member with rfl | member
        · rw [found]
          rfl
        · exact ih parsed c member
      · cases parsed

theorem digit_plain {c : Char} (digit : (digitValue c).isSome = true) : isWhitespace c = false ∧ c ≠ '+' := by
  have bounds : (48 ≤ c.toNat ∧ c.toNat ≤ 57) ∨ (97 ≤ c.toNat ∧ c.toNat ≤ 102) ∨ (65 ≤ c.toNat ∧ c.toNat ≤ 70) := by
    unfold digitValue at digit
    split at digit
    · rename_i range
      exact Or.inl range
    · split at digit
      · rename_i range
        exact Or.inr (Or.inl range)
      · split at digit
        · rename_i range
          exact Or.inr (Or.inr range)
        · cases digit
  constructor
  · simp only [isWhitespace, Bool.or_eq_false_iff, Bool.and_eq_false_iff, decide_eq_false_iff_not, beq_eq_false_iff_ne]
    omega
  · rintro rfl
    revert bounds
    decide

/-- Where both read a number, they read the same one. -/
theorem number_agrees {radix n m : Nat} {text : Text} (strict : number radix (trimBlank text) = some n)
    (lenient : parseUsize radix (trimText text) = some m) : m = n := by
  rw [number] at strict
  split at strict
  · cases strict
  · rename_i filled
    have digits := parseDigits_digits strict
    rcases trimWith_parts isBlank text with ⟨front, back, parts, before, after⟩
    have same : trimText text = trimBlank text := by
      rw [parts]
      change trimWith isWhitespace (front ++ trimBlank text ++ back) = trimBlank (front ++ trimBlank text ++ back)
      rw [trimWith_around (fun c member => blank_white (before c member)) (fun c member => blank_white (after c member)),
        trimWith_of_none fun c member => (digit_plain (digits c member)).1]
      exact congrArg trimBlank parts
    have plain : dropPlus (trimBlank text) = trimBlank text := by
      unfold dropPlus
      split
      · rename_i rest starts
        exact absurd rfl (digit_plain (digits '+' (by rw [starts]; exact List.mem_cons_self))).2
      · rfl
    rw [parseUsize, same, plain, if_neg filled, strict] at lenient
    rcases Option.filter_eq_some_iff.mp lenient with ⟨found, _⟩
    exact (Option.some.inj found).symm

section Heads

theorem splitOnce_parts {separator : Char} {text name value : Text}
    (found : splitOnce separator text = some (name, value)) : text = name ++ separator :: value := by
  induction text generalizing name with
  | nil => cases found
  | cons c rest ih =>
    rw [splitOnce] at found
    split at found
    · rename_i same
      cases found
      rw [same]
      rfl
    · rcases Option.map_eq_some_iff.mp found with ⟨parts, later, same⟩
      cases same
      rw [ih later]
      rfl

theorem blank_not_named {c : Char} {name : Text} {first : Char} {known : Text} (blank : isBlank c = true)
    (plain : [' ', '\t', '\r'].contains first.toLower = false) :
    eqIgnoreAsciiCase (c :: name) (first :: known) = false := by
  rw [eqIgnoreAsciiCase, List.map_cons, List.map_cons, beq_eq_false_iff_ne]
  intro same
  rw [List.cons.injEq] at same
  rw [isBlank, Bool.or_eq_true, Bool.or_eq_true, beq_iff_eq, beq_iff_eq, beq_iff_eq] at blank
  rw [← same.1] at plain
  rcases blank with (rfl | rfl) | rfl <;> revert plain <;> decide

/-- A header that says nothing about the body leaves both answers alone. -/
theorem applyField_other {head head' : Head} {line name value : Text} (split : splitOnce ':' line = some (name, value))
    (noLength : eqIgnoreAsciiCase name "content-length".toList = false)
    (noCoding : eqIgnoreAsciiCase name "transfer-encoding".toList = false)
    (applied : applyField head line = .ok head') :
    head'.contentLength = head.contentLength ∧ head'.chunked = head.chunked := by
  unfold applyField at applied
  rw [split] at applied
  dsimp only at applied
  rw [noLength, noCoding, if_neg Bool.false_ne_true, if_neg Bool.false_ne_true] at applied
  split at applied
  · cases applied
    exact ⟨rfl, rfl⟩
  · split at applied
    · cases applied
      exact ⟨rfl, rfl⟩
    · cases applied
      exact ⟨rfl, rfl⟩

/-- The server's head and the fields the RFC sees, where the latter are not contradictory. -/
structure Consistent (head : Head) (seen : Seen) : Prop where
  chunked : head.chunked = !seen.codings.isEmpty
  absent : seen.lengths = [] → head.contentLength = none
  single : ∀ value, seen.lengths = [value] →
    head.contentLength = parseUsize 10 (trimText value) ∧ head.contentLength.isSome = true

theorem Consistent.unchanged {head head' : Head} {seen next : Seen} (consistent : Consistent head seen)
    (length : head'.contentLength = head.contentLength) (chunked : head'.chunked = head.chunked)
    (lengths : next.lengths = seen.lengths) (codings : next.codings = seen.codings) : Consistent head' next where
  chunked := by rw [chunked, codings, consistent.chunked]
  absent none := by rw [length, consistent.absent (lengths ▸ none)]
  single value single := by
    rw [length]
    exact consistent.single value (lengths ▸ single)

theorem applyField_folded {head head' : Head} {line : Text} (folded : line.head?.any isBlank = true)
    (applied : applyField head line = .ok head') :
    head'.contentLength = head.contentLength ∧ head'.chunked = head.chunked := by
  cases split : splitOnce ':' line with
  | none =>
    rw [applyField, split] at applied
    cases applied
  | some parts =>
    rcases parts with ⟨name, value⟩
    rw [splitOnce_parts split] at folded
    cases name with
    | nil => exact absurd folded (show ¬ isBlank ':' = true by decide)
    | cons c name => exact applyField_other split (blank_not_named folded rfl) (blank_not_named folded rfl) applied

theorem applyField_consistent {head head' : Head} {seen next : Seen} {line : Text}
    (found : seen.field line = some next) (applied : applyField head line = .ok head')
    (consistent : Consistent head seen) : Consistent head' next := by
  rw [Seen.field] at found
  split at found
  · rename_i folded
    split at found
    · cases found
    · cases found
      rcases applyField_folded folded applied with ⟨length, chunked⟩
      exact consistent.unchanged length chunked rfl rfl
  · split at found
    · cases found
    · rename_i name value split
      split at found
      · cases found
      · split at found
        · rename_i length
          cases found
          rw [applyField, split] at applied
          dsimp only at applied
          rw [if_pos length] at applied
          split at applied
          · cases applied
          · rename_i n parsed
            cases applied
            refine ⟨consistent.chunked, ?_, ?_⟩
            · intro none
              cases (List.append_eq_nil_iff.mp none).2
            · intro other single
              rcases List.append_eq_singleton_iff.mp single with ⟨_, same⟩ | ⟨_, none⟩
              · cases same
                exact ⟨parsed.symm, rfl⟩
              · cases none
        · rename_i noLength
          rw [Bool.not_eq_true] at noLength
          split at found
          · rename_i coding
            cases found
            rw [applyField, split] at applied
            dsimp only at applied
            rw [if_neg (by rw [noLength]; decide), if_pos coding] at applied
            split at applied
            · cases applied
              refine ⟨?_, consistent.absent, consistent.single⟩
              simp
            · cases applied
          · rename_i noCoding
            rw [Bool.not_eq_true] at noCoding
            cases found
            rcases applyField_other split noLength noCoding applied with ⟨length, chunked⟩
            exact consistent.unchanged length chunked rfl rfl

theorem emptyLine_strip {raw : Bytes} (empty : isEmptyLine raw = true) : stripEnd raw = [] := by
  rw [isEmptyLine, Bool.or_eq_true, Bool.or_eq_true, beq_iff_eq, beq_iff_eq, beq_iff_eq] at empty
  rcases empty with (rfl | rfl) | rfl <;> rfl

/-- Reading a line goes where the stream's own cut says. -/
theorem readLine_cut {budget left : Nat} {r r' : Reader} {text : Text} {raw rest : Bytes}
    (read : readLine budget r = .ok (text, left, r')) (cut : takeThrough 10 r.flat = (raw, rest)) :
    r'.flat = rest ∧ Utf8.decode (stripEnd raw) = some text := by
  rcases readLine_ok read with ⟨raw', cut', _, decoded⟩
  rw [cut] at cut'
  cases cut'
  exact ⟨rfl, decoded⟩

theorem readLine_empty {budget left : Nat} {r r' : Reader} {text : Text} {raw rest : Bytes}
    (read : readLine budget r = .ok (text, left, r')) (cut : takeThrough 10 r.flat = (raw, rest))
    (empty : isEmptyLine raw = true) : r'.flat = rest ∧ text = [] := by
  rcases readLine_cut read cut with ⟨flat, decoded⟩
  rw [emptyLine_strip empty] at decoded
  cases decoded
  exact ⟨flat, rfl⟩

/-- Where the RFC finds fields, the server finds the same ones, and the body begins at one place. -/
theorem readHeaders_agrees {seen last : Seen} {s rest : Bytes} (fields : Fields seen s last rest)
    {lines budget : Nat} {head head' : Head} {r r' : Reader} (stream : r.flat = s)
    (read : readHeaders lines head budget r = .ok (head', r')) (consistent : Consistent head seen) :
    r'.flat = rest ∧ Consistent head' last := by
  induction fields generalizing lines budget head r with
  | done cut empty =>
    cases lines with
    | zero => cases read
    | succ lines =>
      rw [readHeaders] at read
      split at read
      · cases read
      · rename_i line left r1 found
        rcases readLine_empty found (stream ▸ cut) empty with ⟨flat, none⟩
        rw [if_pos none] at read
        cases read
        exact ⟨flat, consistent⟩
  | field cut decoded filled known more ih =>
    cases lines with
    | zero => cases read
    | succ lines =>
      rw [readHeaders] at read
      split at read
      · cases read
      · rename_i line left r1 found
        rcases readLine_cut found (stream ▸ cut) with ⟨flat, decoded'⟩
        rw [decoded] at decoded'
        cases decoded'
        rw [if_neg filled] at read
        split at read
        · cases read
        · rename_i head1 applied
          exact ih flat read (applyField_consistent known applied consistent)

theorem readHead_agrees {r r' : Reader} {head : Head} {line fields body : Bytes} {seen : Seen}
    (read : readHead r = .ok (head, r')) (cut : takeThrough 10 r.flat = (line, fields))
    (found : Fields {} fields seen body) : r'.flat = body ∧ Consistent head seen := by
  rw [readHead] at read
  split at read
  · cases read
  · rename_i requestLine budget r1 first
    split at read
    · exact readHeaders_agrees found (readLine_cut first cut).1 read
        ⟨rfl, fun _ => rfl, fun value single => by cases single⟩
    · cases read

end Heads

section Bodies

theorem readTrailers_agrees {s rest : Bytes} (trailers : Trailers s rest) {rounds budget : Nat} {r r' : Reader}
    (stream : r.flat = s) (read : readTrailers rounds budget r = .ok r') : r'.flat = rest := by
  induction trailers generalizing rounds budget r with
  | done cut empty =>
    cases rounds with
    | zero => cases read
    | succ rounds =>
      rw [readTrailers] at read
      split at read
      · cases read
      · rename_i line left r1 found
        rcases readLine_empty found (stream ▸ cut) empty with ⟨flat, none⟩
        rw [if_pos none] at read
        cases read
        exact flat
  | field cut filled more ih =>
    cases rounds with
    | zero => cases read
    | succ rounds =>
      rw [readTrailers] at read
      split at read
      · cases read
      · rename_i line left r1 found
        rcases readLine_cut found (stream ▸ cut) with ⟨flat, decoded⟩
        have more : line ≠ [] := by
          rintro rfl
          exact filled (Utf8.decode_eq_nil decoded)
        rw [if_neg more] at read
        exact ih flat read

theorem chunkSize_agrees {raw : Bytes} {line : Text} {n m : Nat} (size : chunkSize raw = some n)
    (decoded : Utf8.decode (stripEnd raw) = some line) (parsed : parseUsize 16 (sizeText line) = some m) : m = n := by
  rw [chunkSize, decoded, Option.bind_some] at size
  exact number_agrees size parsed

/-- Where the RFC finds chunks, the server reads the same data and stops at the same place. -/
theorem readChunked_agrees {s content rest : Bytes} (chunks : Chunks s content rest) {rounds : Nat}
    {body out : Bytes} {r r' : Reader} (stream : r.flat = s) (read : readChunked rounds body r = .ok (out, r')) :
    out = body ++ content ∧ r'.flat = rest := by
  induction chunks generalizing rounds body r with
  | last cut size trailers =>
    cases rounds with
    | zero => cases read
    | succ rounds =>
      rw [readChunked] at read
      split at read
      · cases read
      · rename_i line left r1 found
        rcases readLine_cut found (stream ▸ cut) with ⟨flat, decoded⟩
        split at read
        · cases read
        · cases done : readTrailers (r1.flat.length + 1) maxHeaderBytes r1 with
          | error outcome =>
            rw [done] at read
            cases read
          | ok r2 =>
            rw [done] at read
            cases read
            exact ⟨(List.append_nil _).symm, readTrailers_agrees trailers flat done⟩
        · rename_i m parsed
          cases chunkSize_agrees size decoded parsed
  | @chunk s raw data after ending later content rest n cut size whole ended empty more ih =>
    cases rounds with
    | zero => cases read
    | succ rounds =>
      rw [readChunked] at read
      split at read
      · cases read
      · rename_i line left r1 found
        rcases readLine_cut found (stream ▸ cut) with ⟨flat, decoded⟩
        split at read
        · cases read
        · rename_i parsed
          cases chunkSize_agrees size decoded parsed
        · rename_i m parsed
          have same : m = n := Nat.succ.inj (chunkSize_agrees size decoded parsed)
          subst same
          split at read
          · cases read
          · split at read
            · cases read
            · rename_i got r2 taken
              rcases readExact_flat taken with ⟨_, exact', left'⟩
              rw [flat] at exact' left'
              have data' : got = data := by rw [exact', ← whole, List.take_left]
              have after' : r2.flat = after := by rw [left', ← whole, List.drop_left]
              split at read
              · cases read
              · rename_i r3 lineEnd
                rcases readLine_empty lineEnd (after' ▸ ended) empty with ⟨flat', _⟩
                rcases ih flat' read with ⟨all, last⟩
                refine ⟨?_, last⟩
                rw [all, data', List.append_assoc]

/-- The head says of the body what the RFC makes of the fields. -/
def Announces (head : Head) : BodyLength → Prop
  | .none => head.contentLength = none ∧ head.chunked = false
  | .length n => head.contentLength = some n ∧ head.chunked = false
  | .chunked => head.chunked = true

theorem bodyLength_announced {head : Head} {seen : Seen} {length : BodyLength} (consistent : Consistent head seen)
    (known : seen.bodyLength = some length) : Announces head length := by
  rw [Seen.bodyLength] at known
  split at known
  · cases known
  · split at known
    · rename_i none
      cases known
      cases codings : seen.codings.isEmpty with
      | true => exact ⟨consistent.absent none, by rw [consistent.chunked, codings]; rfl⟩
      | false => exact consistent.chunked.trans (by rw [codings]; rfl)
    · rename_i value single
      split at known
      · cases known
      · rename_i n strict
        cases known
        cases codings : seen.codings.isEmpty with
        | true =>
          rcases consistent.single value single with ⟨parsed, some⟩
          rcases Option.isSome_iff_exists.mp some with ⟨m, found⟩
          refine ⟨?_, by rw [consistent.chunked, codings]; rfl⟩
          rw [found, number_agrees strict (parsed.symm.trans found)]
        | false => exact consistent.chunked.trans (by rw [codings]; rfl)
    · cases known

/-- Where the RFC finds the body, the server reads it and stops at the same place. -/
theorem readBody_agrees {head : Head} {length : BodyLength} {s rest out : Bytes} {content : Option Bytes}
    {r r' : Reader} (announced : Announces head length) (framed : Content s content rest length) (stream : r.flat = s)
    (expected : head.contentLength ≠ none ∨ head.chunked = true) (read : readBody head r = .ok (out, r')) :
    content = some out ∧ r'.flat = rest := by
  rw [readBody] at read
  cases length with
  | none =>
    rcases expected with some | chunked
    · exact absurd announced.1 some
    · rw [announced.2] at chunked
      cases chunked
  | length n =>
    rcases framed with ⟨body, rfl, parts, whole⟩
    rw [if_neg (by rw [announced.2]; decide), announced.1, Option.getD_some] at read
    split at read
    · cases read
    · rename_i got r1 taken
      cases read
      rcases readExact_flat taken with ⟨_, exact', left⟩
      rw [stream, parts, ← whole] at exact' left
      rw [List.take_left] at exact'
      rw [List.drop_left] at left
      exact ⟨congrArg some exact'.symm, left⟩
  | chunked =>
    have chunked : head.chunked = true := announced
    rcases framed with ⟨body, rfl, chunks⟩
    rw [if_pos chunked] at read
    rcases readChunked_agrees chunks stream read with ⟨all, flat⟩
    exact ⟨congrArg some all.symm, flat⟩

end Bodies

end HttpProof

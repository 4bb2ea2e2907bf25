import AjarConnectors.Http.Delivery
import AjarConnectors.Http.Rfc9112

namespace HttpModel

/-- After a request that leaves the connection open, the next one begins where the RFC ends it; and
    what was queued for it is its body, or nothing if it has none or was not accepted. -/
def Accounted (t : Served) : Prop :=
  (t.exchange.reusable = true → ∃ content, Rfc9112.Request t.start.flat content t.next.flat ∧
    (t.exchange.outcome = .accepted → t.exchange.queued = content)) ∧
  (t.exchange.outcome ≠ .accepted → t.exchange.queued = none) ∧
  (t.exchange.outcome = .accepted → t.exchange.reusable = true)

end HttpModel

namespace HttpProof

open TextModel Buffered HttpModel Rfc9112

section Refusals

theorem passed_on {α β : Type} {x : Except Outcome α} {outcome : Outcome} (found : x = .error outcome)
    (refuses : x ≠ .error .accepted) : (.error outcome : Except Outcome β) ≠ .error .accepted := by
  intro same
  cases same
  exact refuses found

theorem readLine_refuses (budget : Nat) (r : Reader) : readLine budget r ≠ .error .accepted := by
  unfold readLine
  split
  split
  · simp
  · split
    · simp
    · split <;> simp

theorem applyField_refuses (head : Head) (line : Text) : applyField head line ≠ .error .accepted := by
  unfold applyField
  split
  · simp
  · dsimp only
    split
    · split <;> simp
    · split
      · split <;> simp
      · split
        · simp
        · split <;> simp

theorem readHeaders_refuses (lines : Nat) (head : Head) (budget : Nat) (r : Reader) :
    readHeaders lines head budget r ≠ .error .accepted := by
  induction lines generalizing head budget r with
  | zero => simp [readHeaders]
  | succ lines ih =>
    rw [readHeaders]
    split
    · rename_i outcome found
      exact passed_on found (readLine_refuses budget r)
    · split
      · simp
      · split
        · rename_i outcome found
          exact passed_on found (applyField_refuses _ _)
        · exact ih _ _ _

theorem readHead_refuses (r : Reader) : readHead r ≠ .error .accepted := by
  unfold readHead
  split
  · rename_i outcome found
    exact passed_on found (readLine_refuses _ r)
  · split
    · exact readHeaders_refuses _ _ _ _
    · simp

theorem readTrailers_refuses (rounds budget : Nat) (r : Reader) : readTrailers rounds budget r ≠ .error .accepted := by
  induction rounds generalizing budget r with
  | zero => simp [readTrailers]
  | succ rounds ih =>
    rw [readTrailers]
    split
    · rename_i outcome found
      exact passed_on found (readLine_refuses budget r)
    · split
      · simp
      · exact ih _ _

theorem readChunked_refuses (rounds : Nat) (body : Bytes) (r : Reader) :
    readChunked rounds body r ≠ .error .accepted := by
  induction rounds generalizing body r with
  | zero => simp [readChunked]
  | succ rounds ih =>
    rw [readChunked]
    split
    · rename_i outcome found
      exact passed_on found (readLine_refuses _ r)
    · rename_i r1 _
      split
      · simp
      · cases done : readTrailers (r1.flat.length + 1) maxHeaderBytes r1 with
        | error outcome => exact passed_on done (readTrailers_refuses _ _ _)
        | ok r2 => simp [Except.map]
      · split
        · simp
        · split
          · simp
          · split
            · rename_i outcome found
              exact passed_on found (readLine_refuses _ _)
            · exact ih _ _

theorem readBody_refuses (head : Head) (r : Reader) : readBody head r ≠ .error .accepted := by
  unfold readBody
  split
  · exact readChunked_refuses _ _ _
  · split <;> simp

end Refusals

section Runs

variable (settings : Settings) (turns : Nat → Turn)

/-- How a request can be answered: refused, with the connection closed; as one without a body; or
    with its body read, and queued if there is room. -/
theorem serve_cases {turn : Turn} {r next : Reader} {exchange : Exchange}
    (served : serve settings turn r = (exchange, next)) :
    (∃ outcome, outcome ≠ .accepted ∧ exchange = ⟨outcome, false, none⟩) ∨
    ∃ head r1, readHead r = .ok (head, r1) ∧
      ((head.contentLength = none ∧ head.chunked = false ∧ exchange = ⟨.accepted, true, none⟩ ∧ next = r1) ∨
        ((head.contentLength ≠ none ∨ head.chunked = true) ∧ ∃ body, readBody head r1 = .ok (body, next) ∧
          (exchange = ⟨.accepted, true, some body⟩ ∨ ∃ reusable, exchange = ⟨.saturated, reusable, none⟩))) := by
  have refused : ∀ {outcome : Outcome} {r : Reader}, outcome ≠ .accepted → refuse outcome r = (exchange, next) →
      ∃ outcome, outcome ≠ .accepted ∧ exchange = ⟨outcome, false, none⟩ := by
    intro outcome r other same
    cases same
    exact ⟨outcome, other, rfl⟩
  unfold serve at served
  split at served
  · rename_i outcome failed
    refine Or.inl (refused ?_ served)
    rintro rfl
    exact readHead_refuses r failed
  · rename_i head r1 read
    split at served
    · exact Or.inl (refused (by decide) served)
    · split at served
      · exact Or.inl (refused (by decide) served)
      · split at served
        · exact Or.inl (refused (by decide) served)
        · split at served
          · exact Or.inl (refused (by decide) served)
          · split at served
            · rename_i bare
              rw [Bool.and_eq_true, Option.isNone_iff_eq_none, Bool.not_eq_true'] at bare
              cases served
              exact Or.inr ⟨head, _, read, Or.inl ⟨bare.1, bare.2, rfl, rfl⟩⟩
            · rename_i announced
              rw [Bool.and_eq_true, Option.isNone_iff_eq_none, Bool.not_eq_true', not_and_or,
                Bool.not_eq_false] at announced
              rw [deliver] at served
              split at served
              · exact Or.inl (refused (by decide) served)
              · split at served
                · rename_i outcome failed
                  refine Or.inl (refused ?_ served)
                  rintro rfl
                  exact readBody_refuses head _ failed
                · rename_i body r2 found
                  refine Or.inr ⟨head, r1, read, Or.inr ⟨announced, body, ?_⟩⟩
                  split at served
                  · cases served
                    exact ⟨found, Or.inl rfl⟩
                  · cases served
                    exact ⟨found, Or.inr ⟨true, rfl⟩⟩
                  · cases served
                    exact ⟨found, Or.inr ⟨false, rfl⟩⟩

/-- Only what is accepted is queued, and after it the connection stays open. -/
theorem serve_queued {turn : Turn} {r next : Reader} {exchange : Exchange}
    (served : serve settings turn r = (exchange, next)) :
    (exchange.outcome ≠ .accepted → exchange.queued = none) ∧
      (exchange.outcome = .accepted → exchange.reusable = true) := by
  rcases serve_cases settings served with ⟨outcome, other, rfl⟩ | ⟨head, r1, _, answered⟩
  · exact ⟨fun _ => rfl, fun same => absurd same other⟩
  · rcases answered with ⟨_, _, rfl, _⟩ | ⟨_, body, _, rfl | ⟨reusable, rfl⟩⟩
    · exact ⟨fun _ => rfl, fun _ => rfl⟩
    · exact ⟨fun other => absurd rfl other, fun _ => rfl⟩
    · exact ⟨fun _ => rfl, fun same => nomatch same⟩

theorem serve_shorter {turn : Turn} {r next : Reader} {exchange : Exchange}
    (served : serve settings turn r = (exchange, next)) (open' : exchange.reusable = true) :
    next.flat.length < r.flat.length := by
  rcases serve_cases settings served with ⟨outcome, _, rfl⟩ | ⟨head, r1, read, answered⟩
  · cases open'
  · have headed := readHead_shorter read
    rcases answered with ⟨_, _, _, rfl⟩ | ⟨_, body, taken, _⟩
    · exact headed
    · exact Nat.lt_of_le_of_lt (readBody_shorter taken) headed

/-- The rounds `connection` gives are enough: one more changes nothing. -/
theorem connectionLoop_rounds {rounds index : Nat} {r : Reader} (enough : r.flat.length < rounds) :
    connectionLoop settings turns (rounds + 1) index r = connectionLoop settings turns rounds index r := by
  induction rounds generalizing index r with
  | zero => cases enough
  | succ rounds ih =>
    rw [connectionLoop, connectionLoop]
    split
    · rfl
    · split
      rename_i exchange next served
      split
      · rename_i goesOn
        rw [Bool.and_eq_true] at goesOn
        have fewer := serve_shorter settings served goesOn.2
        rw [ih (by omega)]
      · rfl

/-- A request the RFC frames ends for the server where it ends for the RFC. -/
theorem serve_agrees {turn : Turn} {r next : Reader} {exchange : Exchange} {content : Option Bytes} {rest : Bytes}
    (served : serve settings turn r = (exchange, next)) (open' : exchange.reusable = true)
    (request : Rfc9112.Request r.flat content rest) :
    next.flat = rest ∧ (exchange.outcome = .accepted → exchange.queued = content) := by
  rcases request with ⟨line, fields, seen, body, length, cut, found, known, framed⟩
  rcases serve_cases settings served with ⟨outcome, _, rfl⟩ | ⟨head, r1, read, answered⟩
  · cases open'
  · rcases readHead_agrees read cut found with ⟨flat, consistent⟩
    have announced := bodyLength_announced consistent known
    rcases answered with ⟨noLength, notChunked, rfl, rfl⟩ | ⟨expected, body, taken, answer⟩
    · cases length with
      | none => exact ⟨flat.trans framed.2.symm, fun _ => framed.1.symm⟩
      | length n => exact absurd (noLength.symm.trans announced.1) (by simp)
      | chunked => exact absurd (notChunked.symm.trans announced) (by simp)
    · rcases readBody_agrees announced framed flat expected taken with ⟨all, left⟩
      refine ⟨left, ?_⟩
      rcases answer with rfl | ⟨reusable, rfl⟩
      · exact fun _ => all.symm
      · exact fun same => nomatch same

/-- What goes wrong goes wrong where the connection stays open after a request the RFC does not frame. -/
theorem accounted_iff {turn : Turn} {t : Served} (served : serve settings turn t.start = (t.exchange, t.next)) :
    Accounted t ↔ (t.exchange.reusable = true → Framed t.start.flat) := by
  constructor
  · intro accounted open'
    rcases accounted.1 open' with ⟨content, request, _⟩
    exact ⟨content, _, request⟩
  · intro framed
    refine ⟨fun open' => ?_, serve_queued settings served⟩
    rcases framed open' with ⟨content, rest, request⟩
    rcases serve_agrees settings served open' request with ⟨rfl, queued⟩
    exact ⟨content, request, queued⟩

theorem connectionLoop_served {rounds index : Nat} {r : Reader} :
    ∀ t ∈ connectionLoop settings turns rounds index r,
      t.start.isEnded = false ∧ ∃ turn, serve settings turn t.start = (t.exchange, t.next) := by
  induction rounds generalizing index r with
  | zero => exact fun t member => nomatch member
  | succ rounds ih =>
    intro t member
    rw [connectionLoop] at member
    split at member
    · cases member
    · rename_i more
      split at member
      rename_i exchange next served
      rcases List.mem_cons.mp member with rfl | member
      · exact ⟨Bool.eq_false_iff.mpr more, turns index, served⟩
      · split at member
        · exact ih t member
        · cases member

/-- As long as the RFC frames what comes, the server does not leave the boundaries. -/
theorem connectionLoop_boundary {stream : Bytes} {rounds index : Nat} {r : Reader} {before after : List Served}
    {t : Served} (here : Boundary stream r.flat)
    (requests : connectionLoop settings turns rounds index r = before ++ t :: after)
    (framed : ∀ u ∈ before, Boundary stream u.start.flat → u.start.flat ≠ [] → Framed u.start.flat) :
    Boundary stream t.start.flat := by
  induction rounds generalizing index r before with
  | zero => exact absurd requests (by simp [connectionLoop])
  | succ rounds ih =>
    rw [connectionLoop] at requests
    split at requests
    · exact absurd requests (by simp)
    · rename_i more
      split at requests
      rename_i exchange next served
      cases before with
      | nil =>
        rw [List.nil_append, List.cons.injEq] at requests
        rw [← requests.1]
        exact here
      | cons u before =>
        rw [List.cons_append, List.cons.injEq] at requests
        rcases requests with ⟨rfl, requests⟩
        split at requests
        · rename_i goesOn
          rw [Bool.and_eq_true] at goesOn
          have filled : r.flat ≠ [] := fun none => more ((isEnded_iff r).mpr none)
          rcases framed _ List.mem_cons_self here filled with ⟨content, rest, request⟩
          have same := (serve_agrees settings served goesOn.2 request).1
          exact ih (here.next (same ▸ request)) requests fun u member => framed u (List.mem_cons_of_mem _ member)
        · exact absurd requests (by simp)

/-- A request is accounted for exactly if RFC 9112 frames it or the connection is closed after it, and
    after requests it frames the next one is looked for where it is. So on a stream of such requests
    every one of them is. -/
theorem requests_are_accounted (r : Reader) :
    (∀ t ∈ connection settings turns r,
      (Accounted t ↔ (t.exchange.reusable = true → Framed t.start.flat))) ∧
    (∀ before t after, connection settings turns r = before ++ t :: after →
      (∀ u ∈ before, Framed u.start.flat) → Boundary r.flat t.start.flat) ∧
    ((∀ s, Boundary r.flat s → s ≠ [] → Framed s) →
      ∀ t ∈ connection settings turns r, Boundary r.flat t.start.flat ∧ Accounted t) := by
  refine ⟨?_, ?_, ?_⟩
  · intro t member
    rcases connectionLoop_served settings turns t member with ⟨_, turn, served⟩
    exact accounted_iff settings served
  · intro before t after requests framed
    exact connectionLoop_boundary settings turns .start requests fun u member _ _ => framed u member
  · intro framed t member
    rcases List.append_of_mem member with ⟨before, after, requests⟩
    have boundary := connectionLoop_boundary settings turns .start requests fun u _ => framed u.start.flat
    rcases connectionLoop_served settings turns t member with ⟨more, turn, served⟩
    refine ⟨boundary, (accounted_iff settings served).mpr fun _ => framed _ boundary ?_⟩
    intro none
    rw [(isEnded_iff t.start).mpr none] at more
    cases more

end Runs

end HttpProof

namespace HttpModel

/-- A length with a space before its colon, and a body of that length. -/
def spacedLength : Bytes := asBytes "POST / HTTP/1.1\r\nContent-Length : 5\r\n\r\nhello"

def plainLength : Bytes := asBytes "POST / HTTP/1.1\r\nContent-Length: 5\r\n\r\nhello"

def openSettings : Settings := ⟨['/'], none⟩

end HttpModel

namespace HttpProof

open TextModel Buffered HttpModel Rfc9112

theorem empty_unframed : ¬ Framed [] := by
  rintro ⟨content, rest, line, fields, seen, body, length, first, found, _, _⟩
  cases first
  cases found with
  | done cut empty =>
    cases cut
    cases empty
  | field cut decoded filled _ _ =>
    cases cut
    cases decoded
    exact filled rfl

theorem plainLength_framed : Rfc9112.Request plainLength (some (asBytes "hello")) [] := by
  have first : takeThrough 10 (asBytes "Content-Length: 5\r\n\r\nhello") =
      (asBytes "Content-Length: 5\r\n", asBytes "\r\nhello") := by decide
  have text : Utf8.decode (stripEnd (asBytes "Content-Length: 5\r\n")) = some "Content-Length: 5".toList := by
    decide +kernel
  have last : takeThrough 10 (asBytes "\r\nhello") = ([13, 10], asBytes "hello") := by decide
  refine ⟨asBytes "POST / HTTP/1.1\r\n", asBytes "Content-Length: 5\r\n\r\nhello", ⟨[" 5".toList], [], true⟩,
    asBytes "hello", .length 5, ?_, ?_, ?_, ?_⟩
  · decide
  · exact .field first text (by decide) rfl (.done last rfl)
  · rfl
  · exact ⟨asBytes "hello", rfl, by decide, by decide⟩

/-- The server finds the end of this request, and the RFC cannot find another. -/
theorem plainLength_ends {content : Option Bytes} {rest : Bytes} (request : Rfc9112.Request plainLength content rest) :
    rest = [] := by
  have served : (serve openSettings easyTurn (bytewise plainLength)).1.reusable = true ∧
      (serve openSettings easyTurn (bytewise plainLength)).2.flat = [] := by decide +kernel
  cases found : serve openSettings easyTurn (bytewise plainLength) with
  | mk exchange next =>
    rw [found] at served
    rw [← bytewise_flat plainLength] at request
    rw [← (serve_agrees openSettings found served.1 request).1]
    exact served.2

theorem plain_length_is_accounted :
    (connection openSettings (fun _ => easyTurn) (bytewise plainLength)).map Served.exchange =
      [⟨.accepted, true, some (asBytes "hello")⟩] ∧
    ∀ t ∈ connection openSettings (fun _ => easyTurn) (bytewise plainLength),
      Boundary (bytewise plainLength).flat t.start.flat ∧ Accounted t := by
  have boundaries : ∀ s, Boundary plainLength s → s = plainLength ∨ s = [] := by
    intro s boundary
    induction boundary with
    | start => exact Or.inl rfl
    | next _ request ih =>
      rcases ih with rfl | rfl
      · exact Or.inr (plainLength_ends request)
      · exact absurd ⟨_, _, request⟩ empty_unframed
  refine ⟨by decide +kernel, (requests_are_accounted openSettings (fun _ => easyTurn) (bytewise plainLength)).2.2 ?_⟩
  intro s boundary filled
  rw [bytewise_flat] at boundary
  rcases boundaries s boundary with rfl | none
  · exact ⟨_, _, plainLength_framed⟩
  · exact absurd none filled

theorem spacedLength_lines :
    takeThrough 10 spacedLength = (asBytes "POST / HTTP/1.1\r\n", asBytes "Content-Length : 5\r\n\r\nhello") ∧
    takeThrough 10 (asBytes "Content-Length : 5\r\n\r\nhello") =
      (asBytes "Content-Length : 5\r\n", asBytes "\r\nhello") := by
  decide

theorem spacedLength_unframed (content : Option Bytes) (rest : Bytes) :
    ¬ Rfc9112.Request spacedLength content rest := by
  rintro ⟨line, fields, seen, body, length, first, found, _, _⟩
  rw [spacedLength_lines.1] at first
  cases first
  cases found with
  | done cut empty =>
    rw [spacedLength_lines.2] at cut
    cases cut
    revert empty
    decide
  | @field _ _ _ _ _ _ _ line cut decoded _ known _ =>
    rw [spacedLength_lines.2] at cut
    cases cut
    have text : line = "Content-Length : 5".toList := by
      apply Option.some.inj
      rw [← decoded]
      decide +kernel
    rw [text] at known
    have refused : (Seen.field {} "Content-Length : 5".toList).isNone = true := by decide
    rw [known] at refused
    cases refused

/-- The body of a request whose length has a space before its colon is served as the next request. -/
theorem spaced_length_is_ignored :
    (connection openSettings (fun _ => easyTurn) (bytewise spacedLength)).map
      (fun t => (t.start.flat, t.exchange)) =
        [(spacedLength, ⟨.accepted, true, none⟩), (asBytes "hello", ⟨.badRequest, false, none⟩)] ∧
    ¬ ∀ t ∈ connection openSettings (fun _ => easyTurn) (bytewise spacedLength), Accounted t := by
  have served : (connection openSettings (fun _ => easyTurn) (bytewise spacedLength)).map
      (fun t => (t.start.flat, t.exchange)) =
        [(spacedLength, ⟨.accepted, true, none⟩), (asBytes "hello", ⟨.badRequest, false, none⟩)] := by
    decide +kernel
  refine ⟨served, ?_⟩
  intro all
  have first : (spacedLength, (⟨.accepted, true, none⟩ : Exchange)) ∈
      (connection openSettings (fun _ => easyTurn) (bytewise spacedLength)).map fun t => (t.start.flat, t.exchange) := by
    rw [served]
    exact List.mem_cons_self
  rcases List.mem_map.mp first with ⟨t, member, same⟩
  rw [Prod.mk.injEq] at same
  rcases (all t member).1 (by rw [same.2]) with ⟨content, request, _⟩
  rw [same.1] at request
  exact spacedLength_unframed content _ request

end HttpProof

import AjarConnectors.Http.Delivery
import AjarConnectors.Http.Framing
import AjarConnectors.Stream.Sources

namespace HttpModel

/-- Frames buffered across all connections before deliveries are refused. -/
def channelFrames : Nat := 256

/-- A connection under way: what is left of it, the requests served with the surroundings of each, and whether its loop
    still runs. -/
structure Connection where
  reader : Reader
  turns : List Turn
  served : List Served
  serving : Bool

namespace Connection

def start (r : Reader) : Connection := ⟨r, [], [], true⟩

def after (c : Connection) (turn : Turn) (exchange : Exchange) (next : Reader) : Connection where
  reader := next
  turns := c.turns ++ [turn]
  served := c.served ++ [⟨c.reader, exchange, next⟩]
  serving := turn.responds && exchange.reusable

/-- A turn of `connection_loop`. -/
def turn (settings : Settings) (turn : Turn) (c : Connection) : Connection :=
  if c.serving = false then c
  else if c.reader.isEnded then { c with serving := false }
  else match serve settings turn c.reader with
    | (exchange, next) => c.after turn exchange next

def queued (c : Connection) : List Bytes := c.served.filterMap fun t => t.exchange.queued

end Connection

/-- What the accept loop, the connections and the runtime's `recv` share. -/
abbrev HttpServerSource := Channel.World Unit Connection Bytes

/-- A peer connects, a request of a connection is served, a connection times out or fails, the runtime receives, the
    source is dropped. -/
inductive ServerEvent where
  | accept (r : Reader)
  | request (k : Nat) (continues responds : Bool)
  | close (k : Nat)
  | receive
  | dropReceiver

namespace HttpServerSource

def trySend (w : HttpServerSource) : TrySend :=
  if w.receiving = false then .closed else if w.channel.length < channelFrames then .sent else .full

/-- The connection `k` serves a request; `try_send` is its last step before the answer, and nothing comes between. -/
def request (settings : Settings) (w : HttpServerSource) (k : Nat) (continues responds : Bool) : HttpServerSource :=
  match w.tasks[k]? with
  | none => w
  | some c =>
    let next := c.turn settings ⟨trySend w, continues, responds⟩
    { w with
      tasks := w.tasks.set k next
      channel := w.channel ++ next.queued.drop c.queued.length }

def close (w : HttpServerSource) (k : Nat) : HttpServerSource :=
  match w.tasks[k]? with
  | none => w
  | some c => { w with tasks := w.tasks.set k { c with serving := false } }

def apply (settings : Settings) (w : HttpServerSource) : ServerEvent → HttpServerSource
  | .accept r => { w with tasks := w.tasks ++ [.start r] }
  | .request k continues responds => request settings w k continues responds
  | .close k => close w k
  | .receive => w.receive
  | .dropReceiver => { w with receiving := false }

def run (settings : Settings) (events : List ServerEvent) : HttpServerSource :=
  events.foldl (apply settings) (Channel.World.start ())

end HttpServerSource

/-- The connections of a run, in order. -/
def accepted (events : List ServerEvent) : List Reader :=
  events.filterMap fun
    | .accept r => some r
    | _ => none

/-- The runtime keeps up: a request that is served finds room for its body. -/
def Roomy (w : HttpServerSource) : ServerEvent → Prop
  | .request _ _ _ => HttpServerSource.trySend w = .sent
  | _ => True

instance (w : HttpServerSource) (event : ServerEvent) : Decidable (Roomy w event) :=
  match event with
  | .request _ _ _ => inferInstanceAs (Decidable (HttpServerSource.trySend w = .sent))
  | .accept _ | .close _ | .receive | .dropReceiver => isTrue trivial

/-- How a well-formed request is answered. -/
def answer (send : TrySend) (q : Request) : Exchange :=
  match send with
  | .sent => ⟨.accepted, true, some q.body⟩
  | .full => ⟨.saturated, true, none⟩
  | .closed => ⟨.saturated, false, none⟩

def deliveries (answers : List Exchange) : Nat := answers.countP fun exchange => exchange.outcome = .accepted

end HttpModel

namespace HttpProof

open HttpModel HttpModel.HttpServerSource Buffered

variable {settings : Settings}

theorem readChunked_fits {rounds : Nat} {body out : Bytes} {r r' : Reader}
    (read : readChunked rounds body r = .ok (out, r')) (fits : body.length ≤ maxFrame) : out.length ≤ maxFrame := by
  induction rounds generalizing body r with
  | zero => cases read
  | succ rounds ih =>
    rw [readChunked] at read
    split at read
    · cases read
    · split at read
      · cases read
      · rename_i rest _ _ _
        cases trailers : readTrailers (rest.flat.length + 1) maxHeaderBytes rest with
        | error outcome =>
          rw [trailers] at read
          cases read
        | ok r =>
          rw [trailers] at read
          cases read
          exact fits
      · split at read
        · cases read
        · rename_i small
          split at read
          · cases read
          · rename_i data r1 taken
            split at read
            · cases read
            · obtain ⟨-, got, -⟩ := readExact_flat taken
              refine ih read ?_
              have short : data.length ≤ _ := got ▸ List.length_take_le _ _
              rw [List.length_append]
              omega

theorem readBody_fits {head : Head} {body : Bytes} {r r' : Reader} (read : readBody head r = .ok (body, r'))
    (small : head.contentLength.any (maxFrame < ·) = false) : body.length ≤ maxFrame := by
  unfold readBody at read
  split at read
  · exact readChunked_fits read (Nat.zero_le _)
  · split at read
    · cases read
    · rename_i data r1 taken
      cases read
      obtain ⟨-, got, -⟩ := readExact_flat taken
      have short : body.length ≤ head.contentLength.getD 0 := got ▸ List.length_take_le _ _
      refine short.trans ?_
      cases length : head.contentLength with
      | none => exact Nat.zero_le _
      | some n =>
        rw [length] at small
        simpa using small

/-- A body is queued only if there was room for it, and it is at most a frame. -/
theorem serve_queues {turn : Turn} {r next : Reader} {exchange : Exchange} {body : Bytes}
    (served : serve settings turn r = (exchange, next)) (queued : exchange.queued = some body) :
    turn.send = .sent ∧ body.length ≤ maxFrame := by
  have refused : ∀ {outcome : Outcome} {r : Reader}, refuse outcome r ≠ (exchange, next) := by
    intro outcome r same
    cases same
    cases queued
  unfold serve at served
  split at served
  · exact absurd served refused
  · split at served
    · exact absurd served refused
    · split at served
      · exact absurd served refused
      · split at served
        · exact absurd served refused
        · split at served
          · exact absurd served refused
          · rename_i small
            split at served
            · cases served
              cases queued
            · unfold deliver at served
              split at served
              · exact absurd served refused
              · split at served
                · exact absurd served refused
                · rename_i read
                  split at served
                  · rename_i sent
                    cases served
                    cases queued
                    exact ⟨sent, readBody_fits read (Bool.eq_false_iff.mpr small)⟩
                  · cases served
                    cases queued
                  · cases served
                    cases queued

theorem turn_steps (settings : Settings) (c : Connection) (turn : Turn) :
    c.turn settings turn = c ∨
    c.turn settings turn = { c with serving := false } ∨
    (∃ exchange next, c.serving = true ∧ c.reader.isEnded = false ∧ serve settings turn c.reader = (exchange, next) ∧
      c.turn settings turn = c.after turn exchange next) := by
  unfold Connection.turn
  cases serving : c.serving with
  | false => exact Or.inl (if_pos rfl)
  | true =>
    rw [if_neg (by decide)]
    cases ended : c.reader.isEnded with
    | true => exact Or.inr (Or.inl (if_pos rfl))
    | false =>
      rw [if_neg (by decide)]
      cases answered : serve settings turn c.reader with
      | mk exchange next => exact Or.inr (Or.inr ⟨exchange, next, rfl, rfl, rfl, rfl⟩)

/-- The turns begin as those of the connection. -/
def Follows (c : Connection) (turns : Nat → Turn) : Prop := ∀ i turn, c.turns[i]? = some turn → turns i = turn

theorem follows_own (c : Connection) (idle : Turn) : Follows c fun i => (c.turns[i]?).getD idle := by
  intro i turn found
  dsimp only
  rw [found]
  rfl

/-- A connection against what its peer delivers: it serves the requests that `connection` finds, in order, and what it
    queues are their bodies, no longer than a frame. -/
structure Kept (settings : Settings) (r : Reader) (c : Connection) (out : List Bytes) : Prop where
  queued : c.queued = out
  fits : ∀ body ∈ out, body.length ≤ maxFrame
  length : c.turns.length = c.served.length
  front : ∀ turns, Follows c turns → c.served <+: connection settings turns r
  next : c.serving = true → ∀ turns, Follows c turns → ∃ rounds, c.reader.flat.length < rounds ∧
    connection settings turns r = c.served ++ connectionLoop settings turns rounds c.served.length c.reader

variable {r : Reader} {c : Connection} {out : List Bytes}

theorem start_kept (r : Reader) : Kept settings r (.start r) [] where
  queued := rfl
  fits := List.forall_mem_nil _
  length := rfl
  front _ _ := List.nil_prefix
  next _ _ _ := ⟨r.flat.length + 1, Nat.lt_succ_self _, rfl⟩

theorem close_kept (kept : Kept settings r c out) : Kept settings r { c with serving := false } out :=
  { kept with next := fun impossible => by cases impossible }

theorem after_queued (c : Connection) (turn : Turn) (exchange : Exchange) (next : Reader) :
    (c.after turn exchange next).queued = c.queued ++ exchange.queued.toList := by
  unfold Connection.queued Connection.after
  rw [List.filterMap_append]
  cases queued : exchange.queued with
  | none => rw [List.filterMap_cons, queued]; rfl
  | some body => rw [List.filterMap_cons, queued]; rfl

theorem serve_kept (kept : Kept settings r c out) {turn : Turn} {exchange : Exchange} {next : Reader}
    (serving : c.serving = true) (more : c.reader.isEnded = false)
    (served : serve settings turn c.reader = (exchange, next)) :
    Kept settings r (c.after turn exchange next) (out ++ exchange.queued.toList) := by
  have follows : ∀ turns, Follows (c.after turn exchange next) turns →
      Follows c turns ∧ turns c.served.length = turn := by
    intro turns all
    refine ⟨fun i t found => all i t ?_, ?_⟩
    · unfold Connection.after
      dsimp only
      rw [List.getElem?_append_left (List.getElem?_eq_some_iff.mp found).1]
      exact found
    · apply all
      rw [← kept.length]
      exact List.getElem?_concat_length
  have unrolled : ∀ turns, Follows c turns → turns c.served.length = turn → ∃ rounds, c.reader.flat.length ≤ rounds ∧
      connection settings turns r = c.served ++ ⟨c.reader, exchange, next⟩ ::
        if turn.responds && exchange.reusable then
          connectionLoop settings turns rounds (c.served.length + 1) next
        else [] := by
    intro turns before here
    obtain ⟨rounds, enough, whole⟩ := kept.next serving turns before
    cases rounds with
    | zero => cases enough
    | succ rounds =>
      refine ⟨rounds, Nat.le_of_lt_succ enough, ?_⟩
      rw [whole, connectionLoop, more, if_neg (by decide), here, served]
  refine ⟨?_, ?_, ?_, fun turns all => ?_, fun open' turns all => ?_⟩
  · rw [after_queued, kept.queued]
  · intro body member
    rcases List.mem_append.mp member with before | here
    · exact kept.fits body before
    · exact (serve_queues served (Option.mem_toList.mp here)).2
  · simp [Connection.after, kept.length]
  · obtain ⟨before, here⟩ := follows turns all
    obtain ⟨rounds, -, whole⟩ := unrolled turns before here
    rw [whole]
    exact ⟨_, List.append_assoc _ [_] _⟩
  · obtain ⟨before, here⟩ := follows turns all
    obtain ⟨rounds, enough, whole⟩ := unrolled turns before here
    have reusable : exchange.reusable = true := (Bool.and_eq_true_iff.mp open').2
    refine ⟨rounds, Nat.lt_of_lt_of_le (serve_shorter settings served reusable) enough, ?_⟩
    unfold Connection.after at open' ⊢
    dsimp only at open' ⊢
    rw [whole, open', if_pos rfl, List.length_append, List.append_assoc]
    rfl

theorem request_sound {started : List Reader} {w : HttpServerSource} {out : Nat → List Bytes}
    (sound : Channel.Sound channelFrames (Kept settings) started w out) (k : Nat) (continues responds : Bool) :
    ∃ out, Channel.Sound channelFrames (Kept settings) started (request settings w k continues responds) out := by
  unfold request
  cases found : w.tasks[k]? with
  | none => exact ⟨out, sound⟩
  | some c =>
    dsimp only
    rcases turn_steps settings c ⟨trySend w, continues, responds⟩ with same | same |
      ⟨exchange, next, serving, more, served, same⟩
    · rw [same, List.drop_length, List.append_nil]
      exact ⟨out, sound.set found (fun _ kept => kept) w.shared⟩
    · rw [same]
      change ∃ out, Channel.Sound channelFrames (Kept settings) started
        { w with tasks := _, channel := w.channel ++ c.queued.drop c.queued.length } out
      rw [List.drop_length, List.append_nil]
      exact ⟨out, sound.set found (fun _ kept => close_kept kept) w.shared⟩
    · rw [same, after_queued, List.drop_left]
      have keeps : ∀ r, Kept settings r c (out k) → _ := fun r kept => serve_kept kept serving more served
      cases queued : exchange.queued with
      | none =>
        rw [queued] at keeps
        simp only [Option.toList_none, List.append_nil] at keeps ⊢
        exact ⟨out, sound.set found keeps w.shared⟩
      | some body =>
        rw [queued] at keeps
        have sent := (serve_queues served queued).1
        have room : w.channel.length < channelFrames := by
          unfold trySend at sent
          dsimp only at sent
          split at sent
          · cases sent
          · split at sent
            · assumption
            · cases sent
        exact ⟨_, sound.send found room keeps⟩

theorem step_sound {past : List ServerEvent} {w : HttpServerSource} (event : ServerEvent)
    (sound : ∃ out, Channel.Sound channelFrames (Kept settings) (accepted past) w out) :
    ∃ out, Channel.Sound channelFrames (Kept settings) (accepted (past ++ [event])) (apply settings w event) out := by
  obtain ⟨out, sound⟩ := sound
  have same : (∀ r, event ≠ .accept r) → accepted (past ++ [event]) = accepted past := by
    intro other
    unfold accepted
    rw [List.filterMap_append]
    cases event with
    | accept r => exact absurd rfl (other r)
    | request k continues responds => exact List.append_nil _
    | close k => exact List.append_nil _
    | receive => exact List.append_nil _
    | dropReceiver => exact List.append_nil _
  cases event with
  | accept r =>
    have started : accepted (past ++ [.accept r]) = accepted past ++ [r] := List.filterMap_append
    rw [started]
    exact ⟨out, sound.spawn r (start_kept r)⟩
  | request k continues responds =>
    rw [same (by simp)]
    exact request_sound sound k continues responds
  | close k =>
    rw [same (by simp), apply, close]
    cases found : w.tasks[k]? with
    | none => exact ⟨out, sound⟩
    | some c => exact ⟨out, sound.set found (fun _ kept => close_kept kept) w.shared⟩
  | receive =>
    rw [same (by simp)]
    exact ⟨out, sound.receive⟩
  | dropReceiver =>
    rw [same (by simp)]
    exact ⟨out, sound.merged, sound.bound, sound.tasks, sound.kept, sound.rest⟩

theorem run_sound (settings : Settings) (events : List ServerEvent) :
    ∃ out, Channel.Sound channelFrames (Kept settings) (accepted events) (run settings events) out := by
  have started : ∃ out, Channel.Sound channelFrames (Kept settings) (accepted []) (Channel.World.start ()) out := by
    refine ⟨fun _ => [], Channel.Interleaves.start, Nat.zero_le _, rfl, ?_, fun _ _ => rfl⟩
    intro k r c opened
    cases opened
  have free : Transition.Allowed (apply settings) (fun _ _ => True) (Channel.World.start ()) events :=
    Transition.Allowed.of_forall fun _ _ _ => trivial
  exact Transition.invariant_of_past
    (fun past w => ∃ out, Channel.Sound channelFrames (Kept settings) (accepted past) w out)
    (fun past w event sound _ => step_sound event sound) started free

/-- What a connection queued are the bodies it answered 204. -/
theorem kept_accepted (kept : Kept settings r c out) :
    out = (c.served.filter fun t => t.exchange.outcome = .accepted).filterMap (fun t => t.exchange.queued) := by
  rw [← kept.queued, Connection.queued, List.filterMap_filter]
  apply List.filterMap_congr
  intro t member
  by_cases accepts : t.exchange.outcome = .accepted
  · simp [accepts]
  · have front := kept.front _ (follows_own c easyTurn)
    obtain ⟨-, turn, served⟩ := connectionLoop_served settings _ t (front.subset member)
    simp [accepts, (serve_queued settings served).1 accepts]

theorem connected_kept {started : List Reader} {w : HttpServerSource} {out : Nat → List Bytes}
    (sound : Channel.Sound channelFrames (Kept settings) started w out) {k : Nat} {r : Reader}
    (opened : started[k]? = some r) : ∃ c, w.tasks[k]? = some c ∧ Kept settings r c (out k) := by
  have inside : k < w.tasks.length := sound.tasks ▸ (List.getElem?_eq_some_iff.mp opened).1
  have found := List.getElem?_eq_getElem inside
  exact ⟨_, found, sound.kept k r _ opened found⟩

/-- However connections, their requests, timeouts and the runtime's receives interleave: what the source gives, with what
    waits in its channel, is a merge of what each connection queued, and never more than the channel takes waits. Each
    connection served a front of the requests that `connection` finds on it; what it queued are the bodies it answered
    204, in order, and the runtime's buffer takes each of them whole. -/
theorem deliveries_are_kept_apart (settings : Settings) (events : List ServerEvent) :
    ∃ out : Nat → List Bytes,
      Channel.Interleaves out ((run settings events).received ++ (run settings events).channel) ∧
      (run settings events).channel.length ≤ channelFrames ∧
      (∀ frame ∈ (run settings events).received, StreamModel.recvInto StreamModel.maxFrameBytes frame = frame) ∧
      (∀ k, (accepted events).length ≤ k → out k = []) ∧
      ∀ k r, (accepted events)[k]? = some r → ∃ c, (run settings events).tasks[k]? = some c ∧
        out k = (c.served.filter fun t => t.exchange.outcome = .accepted).filterMap (fun t => t.exchange.queued) ∧
        ∃ turns, c.served <+: connection settings turns r := by
  obtain ⟨out, sound⟩ := run_sound settings events
  refine ⟨out, sound.merged, sound.bound, fun frame member => ?_, sound.rest, fun k r opened => ?_⟩
  · obtain ⟨k, among⟩ := (sound.merged.mem_iff frame).mp (List.mem_append_left _ member)
    have opened : k < (accepted events).length := by
      by_contra beyond
      rw [sound.rest k (Nat.le_of_not_lt beyond)] at among
      cases among
    obtain ⟨c, -, kept⟩ := connected_kept sound (List.getElem?_eq_getElem opened)
    have short : frame.length ≤ StreamModel.maxFrameBytes := kept.fits frame among
    rw [StreamModel.recvInto, Nat.min_eq_left short, List.take_length]
  · obtain ⟨c, found, kept⟩ := connected_kept sound opened
    exact ⟨c, found, kept_accepted kept, _, kept.front _ (follows_own c easyTurn)⟩

section Attempts

variable {q : Request}

end Attempts

end HttpProof

import AjarConnectors.Transition.Run
import Mathlib.Algebra.BigOperators.Group.List.Basic
import Mathlib.Algebra.Ring.Nat
import Mathlib.Data.List.Perm.Basic
import Mathlib.Logic.Function.Basic

namespace Channel

variable {κ α : Type*} [DecidableEq κ]

/-- What `c` contributed to a tagged sequence. -/
def contributed (c : κ) (tagged : List (κ × α)) : List α :=
  (tagged.filter fun entry => entry.1 = c).map Prod.snd

/-- `merged` is made up of the sequences `parts`, each in its own order. -/
def Interleaves (parts : κ → List α) (merged : List α) : Prop :=
  ∃ tagged : List (κ × α), tagged.map Prod.snd = merged ∧ ∀ c, contributed c tagged = parts c

theorem contributed_append (c : κ) (front back : List (κ × α)) :
    contributed c (front ++ back) = contributed c front ++ contributed c back := by
  unfold contributed
  rw [List.filter_append, List.map_append]

theorem contributed_singleton (c d : κ) (a : α) : contributed c [(d, a)] = if d = c then [a] else [] := by
  unfold contributed
  by_cases same : d = c <;> simp [same]

namespace Interleaves

variable {parts : κ → List α} {merged : List α}

theorem start : Interleaves (fun _ : κ => ([] : List α)) [] := ⟨[], rfl, fun _ => rfl⟩

theorem push (kept : Interleaves parts merged) (c : κ) (a : α) :
    Interleaves (Function.update parts c (parts c ++ [a])) (merged ++ [a]) := by
  obtain ⟨tagged, flat, each⟩ := kept
  refine ⟨tagged ++ [(c, a)], by simp [flat], ?_⟩
  intro d
  rw [contributed_append, contributed_singleton, each]
  by_cases same : c = d
  · rw [if_pos same, ← same, Function.update_self]
  · rw [if_neg same, List.append_nil, Function.update_of_ne (Ne.symm same)]

/-- What comes first is made up of what each part has first. -/
theorem front {first second : List α} (kept : Interleaves parts (first ++ second)) :
    ∃ heads, (∀ c, heads c <+: parts c) ∧ Interleaves heads first := by
  obtain ⟨tagged, flat, each⟩ := kept
  obtain ⟨early, late, rfl, early_flat, -⟩ := List.map_eq_append_iff.mp flat
  refine ⟨fun c => contributed c early, ?_, early, early_flat, fun _ => rfl⟩
  intro c
  rw [← each c, contributed_append]
  exact List.prefix_append _ _

theorem sublist (kept : Interleaves parts merged) (c : κ) : (parts c).Sublist merged := by
  obtain ⟨tagged, flat, each⟩ := kept
  rw [← flat, ← each c]
  exact List.Sublist.map _ List.filter_sublist

theorem mem_iff (kept : Interleaves parts merged) (a : α) : a ∈ merged ↔ ∃ c, a ∈ parts c := by
  constructor
  · intro member
    obtain ⟨tagged, flat, each⟩ := kept
    rw [← flat] at member
    obtain ⟨entry, inside, rfl⟩ := List.mem_map.mp member
    refine ⟨entry.1, ?_⟩
    rw [← each]
    exact List.mem_map_of_mem (List.mem_filter.mpr ⟨inside, by simp⟩)
  · rintro ⟨c, member⟩
    exact (kept.sublist c).subset member

end Interleaves

/-- The tags below `n` make up a sequence all of whose tags are below `n`. -/
theorem perm_contributed {n : Nat} (tagged : List (Nat × α)) (below : ∀ entry ∈ tagged, entry.1 < n) :
    (tagged.map Prod.snd).Perm ((List.range n).flatMap fun c => contributed c tagged) := by
  induction n generalizing tagged with
  | zero =>
    have empty : tagged = [] := List.eq_nil_iff_forall_not_mem.mpr fun entry member => absurd (below entry member) (by omega)
    rw [empty]
    exact List.Perm.refl _
  | succ n ih =>
    have split := (List.filter_append_perm (fun entry : Nat × α => decide (entry.1 = n)) tagged).symm.map Prod.snd
    have others := ih (tagged.filter fun entry => !decide (entry.1 = n)) (by
      intro entry member
      have inside := List.mem_filter.mp member
      have least := below entry inside.1
      have different : entry.1 ≠ n := by simpa using inside.2
      omega)
    have same : ∀ c ∈ List.range n,
        contributed c (tagged.filter fun entry => !decide (entry.1 = n)) = contributed c tagged := by
      intro c member
      have small := List.mem_range.mp member
      unfold contributed
      rw [List.filter_filter]
      congr 2
      funext entry
      by_cases hit : entry.1 = c
      · simp [hit, Nat.ne_of_lt small]
      · simp [hit]
    rw [List.flatMap_congr same] at others
    rw [List.range_succ, List.flatMap_append, List.flatMap_singleton]
    rw [List.map_append] at split
    refine split.trans ?_
    refine List.Perm.trans ?_ (List.perm_append_comm)
    exact List.Perm.append_left _ others

theorem Interleaves.perm {n : Nat} {parts : Nat → List α} {merged : List α} (kept : Interleaves parts merged)
    (rest : ∀ c, n ≤ c → parts c = []) : merged.Perm ((List.range n).flatMap parts) := by
  obtain ⟨tagged, flat, each⟩ := kept
  have below : ∀ entry ∈ tagged, entry.1 < n := by
    intro entry member
    by_contra beyond
    have inside : entry.2 ∈ contributed entry.1 tagged :=
      List.mem_map_of_mem (List.mem_filter.mpr ⟨member, by simp⟩)
    rw [each, rest _ (Nat.le_of_not_lt beyond)] at inside
    cases inside
  have whole := perm_contributed tagged below
  rwa [flat, List.flatMap_congr fun c _ => each c] at whole

/-- A task that hands items on one at a time: its own steps on what it shares with the others, the item it waits to
    send, and what it does once that is taken or the receiver is gone. -/
structure Task (δ γ σ ι α : Type*) where
  start : δ → σ
  step : γ → σ → ι → γ × σ
  offer : σ → Option α
  sent : σ → σ
  refused : σ → σ

/-- Tasks that send on one bounded channel, and its receiver. -/
structure World (γ σ α : Type*) where
  shared : γ
  tasks : List σ
  channel : List α
  received : List α
  receiving : Bool

inductive Event (δ ι : Type*) where
  | spawn (d : δ)
  | turn (task : Nat) (input : ι)
  | send (task : Nat)
  | receive
  | dropReceiver

variable {δ γ σ ι : Type*} (T : Task δ γ σ ι α) (capacity : Nat)

def World.start (shared : γ) : World γ σ α := ⟨shared, [], [], [], true⟩

def World.turn (w : World γ σ α) (k : Nat) (input : ι) : World γ σ α :=
  match w.tasks[k]? with
  | none => w
  | some s => { w with shared := (T.step w.shared s input).1, tasks := w.tasks.set k (T.step w.shared s input).2 }

/-- The task `k` sends what it offers. At capacity it waits. -/
def World.send (w : World γ σ α) (k : Nat) : World γ σ α :=
  match w.tasks[k]? with
  | none => w
  | some s => match T.offer s with
    | none => w
    | some a =>
      if w.receiving = false then { w with tasks := w.tasks.set k (T.refused s) }
      else if w.channel.length < capacity then
        { w with tasks := w.tasks.set k (T.sent s), channel := w.channel ++ [a] }
      else w

def World.receive (w : World γ σ α) : World γ σ α :=
  match w.channel with
  | [] => w
  | a :: rest => if w.receiving then { w with channel := rest, received := w.received ++ [a] } else w

def World.apply (w : World γ σ α) : Event δ ι → World γ σ α
  | .spawn d => { w with tasks := w.tasks ++ [T.start d] }
  | .turn k input => w.turn T k input
  | .send k => w.send T capacity k
  | .receive => w.receive
  | .dropReceiver => { w with receiving := false }

/-- What the tasks of a run were started on, in order. -/
def spawned (events : List (Event δ ι)) : List δ :=
  events.filterMap fun
    | .spawn d => some d
    | _ => none

theorem spawned_append (front back : List (Event δ ι)) : spawned (front ++ back) = spawned front ++ spawned back :=
  List.filterMap_append

theorem spawned_quiet {events : List (Event δ ι)} (quiet : ∀ event ∈ events, ∀ d, event ≠ .spawn d) :
    spawned events = [] := by
  apply List.filterMap_eq_nil_iff.mpr
  intro event member
  cases event with
  | spawn d => exact absurd rfl (quiet _ member d)
  | turn k input => rfl
  | send k => rfl
  | receive => rfl
  | dropReceiver => rfl

variable {T capacity}

/-- Everything a turn can do. -/
theorem turn_cases (w : World γ σ α) (k : Nat) (input : ι) :
    w.turn T k input = w ∨
    (∃ s, w.tasks[k]? = some s ∧ w.turn T k input =
      { w with shared := (T.step w.shared s input).1, tasks := w.tasks.set k (T.step w.shared s input).2 }) := by
  unfold World.turn
  cases found : w.tasks[k]? with
  | none => exact Or.inl rfl
  | some s => exact Or.inr ⟨s, rfl, rfl⟩

variable (T capacity) in
/-- Everything a send can do. -/
theorem send_cases (w : World γ σ α) (k : Nat) :
    w.send T capacity k = w ∨
    (∃ s a, w.tasks[k]? = some s ∧ T.offer s = some a ∧ w.receiving = false ∧
      w.send T capacity k = { w with tasks := w.tasks.set k (T.refused s) }) ∨
    (∃ s a, w.tasks[k]? = some s ∧ T.offer s = some a ∧ w.receiving = true ∧ w.channel.length < capacity ∧
      w.send T capacity k = { w with tasks := w.tasks.set k (T.sent s), channel := w.channel ++ [a] }) := by
  unfold World.send
  cases found : w.tasks[k]? with
  | none => exact Or.inl rfl
  | some s =>
    cases offered : T.offer s with
    | none => simp [offered]
    | some a =>
      simp only [offered]
      cases receiving : w.receiving with
      | false => exact Or.inr (Or.inl ⟨s, a, rfl, offered, rfl, if_pos rfl⟩)
      | true =>
        rw [if_neg (by decide)]
        by_cases room : w.channel.length < capacity
        · exact Or.inr (Or.inr ⟨s, a, rfl, offered, rfl, room, if_pos room⟩)
        · exact Or.inl (if_neg room)

/-- Everything a receive can do. -/
theorem receive_cases (w : World γ σ α) :
    w.receive = w ∨
    (∃ a rest, w.channel = a :: rest ∧ w.receiving = true ∧
      w.receive = { w with channel := rest, received := w.received ++ [a] }) := by
  unfold World.receive
  cases buffered : w.channel with
  | nil => exact Or.inl rfl
  | cons a rest =>
    dsimp only
    cases receiving : w.receiving with
    | false => exact Or.inl (if_neg (by decide))
    | true => exact Or.inr ⟨a, rest, rfl, rfl, if_pos rfl⟩

theorem apply_receiving (w : World γ σ α) {event : Event δ ι} (kept : event ≠ .dropReceiver) :
    (w.apply T capacity event).receiving = w.receiving := by
  cases event with
  | spawn d => rfl
  | dropReceiver => exact absurd rfl kept
  | turn k input =>
    obtain same | ⟨s, _, moved⟩ := turn_cases (T := T) w k input
    · rw [World.apply, same]
    · rw [World.apply, moved]
  | send k =>
    obtain same | ⟨s, a, _, _, _, moved⟩ | ⟨s, a, _, _, _, _, moved⟩ := send_cases T capacity w k
    · rw [World.apply, same]
    · rw [World.apply, moved]
    · rw [World.apply, moved]
  | receive =>
    obtain same | ⟨a, rest, _, _, moved⟩ := receive_cases w
    · rw [World.apply, same]
    · rw [World.apply, moved]

variable (T capacity) in
theorem run_receiving (shared : γ) (events : List (Event δ ι)) (kept : ∀ event ∈ events, event ≠ .dropReceiver) :
    (events.foldl (World.apply T capacity) (World.start shared)).receiving = true :=
  have allowed : Transition.Allowed (World.apply T capacity) (fun _ event => event ≠ .dropReceiver)
      (World.start shared) events := Transition.Allowed.of_forall fun _ => kept
  Transition.invariant (fun w => w.receiving = true)
    (fun w _ still other => (apply_receiving w other).trans still) rfl allowed

/-- What every task keeps holds of all of them, and what the channel and the receiver have is made up of what
    each has sent. -/
structure Sound (capacity : Nat) (keeps : δ → σ → List α → Prop) (started : List δ)
    (w : World γ σ α) (out : Nat → List α) : Prop where
  merged : Interleaves out (w.received ++ w.channel)
  bound : w.channel.length ≤ capacity
  tasks : w.tasks.length = started.length
  kept : ∀ k d s, started[k]? = some d → w.tasks[k]? = some s → keeps d s (out k)
  rest : ∀ k, started.length ≤ k → out k = []

namespace Sound

variable {keeps : δ → σ → List α → Prop} {started : List δ} {w : World γ σ α} {out : Nat → List α}

/-- One task moves on without sending. -/
theorem set (sound : Sound capacity keeps started w out) {k : Nat} {s s' : σ} (found : w.tasks[k]? = some s)
    (moves : ∀ d, keeps d s (out k) → keeps d s' (out k)) (shared : γ) :
    Sound capacity keeps started { w with shared := shared, tasks := w.tasks.set k s' } out where
  merged := sound.merged
  bound := sound.bound
  tasks := by rw [List.length_set, sound.tasks]
  kept := by
    intro l d t opened at_l
    have kept := sound.kept l d
    rw [List.getElem?_set] at at_l
    by_cases same : k = l
    · subst same
      rw [if_pos rfl, if_pos (List.getElem?_eq_some_iff.mp found).1] at at_l
      cases at_l
      exact moves d (kept s opened found)
    · rw [if_neg same] at at_l
      exact kept t opened at_l
  rest := sound.rest

theorem spawn (sound : Sound capacity keeps started w out) (d : δ) {fresh : σ} (begins : keeps d fresh []) :
    Sound capacity keeps (started ++ [d]) { w with tasks := w.tasks ++ [fresh] } out where
  merged := sound.merged
  bound := sound.bound
  tasks := by simp [sound.tasks]
  kept := by
    intro k e s opened at_k
    have lengths := sound.tasks
    by_cases earlier : k < started.length
    · rw [List.getElem?_append_left earlier] at opened
      dsimp only at at_k
      rw [List.getElem?_append_left (by omega)] at at_k
      exact sound.kept k e s opened at_k
    · have last : k = started.length := by
        have inside := (List.getElem?_eq_some_iff.mp opened).1
        rw [List.length_append, List.length_singleton] at inside
        omega
      subst last
      dsimp only at at_k
      rw [List.getElem?_concat_length] at opened
      rw [← lengths, List.getElem?_concat_length] at at_k
      cases opened
      cases at_k
      rw [sound.rest _ (Nat.le_refl _)]
      exact begins
  rest := by
    intro k beyond
    rw [List.length_append, List.length_singleton] at beyond
    exact sound.rest k (by omega)

/-- One task sends. -/
theorem send (sound : Sound capacity keeps started w out) {k : Nat} {s s' : σ} {a : α} (found : w.tasks[k]? = some s)
    (room : w.channel.length < capacity) (moves : ∀ d, keeps d s (out k) → keeps d s' (out k ++ [a])) :
    Sound capacity keeps started { w with tasks := w.tasks.set k s', channel := w.channel ++ [a] }
      (Function.update out k (out k ++ [a])) where
  merged := by
    rw [← List.append_assoc]
    exact sound.merged.push k a
  bound := by
    rw [List.length_append, List.length_singleton]
    exact room
  tasks := by rw [List.length_set, sound.tasks]
  kept := by
    intro l d t opened at_l
    rw [List.getElem?_set] at at_l
    by_cases same : k = l
    · subst same
      rw [if_pos rfl, if_pos (List.getElem?_eq_some_iff.mp found).1] at at_l
      cases at_l
      rw [Function.update_self]
      exact moves d (sound.kept k d s opened found)
    · rw [if_neg same] at at_l
      rw [Function.update_of_ne (Ne.symm same)]
      exact sound.kept l d t opened at_l
  rest := by
    intro l beyond
    have inside : k < w.tasks.length := (List.getElem?_eq_some_iff.mp found).1
    have lengths := sound.tasks
    rw [Function.update_of_ne (by omega)]
    exact sound.rest l beyond

theorem receive (sound : Sound capacity keeps started w out) : Sound capacity keeps started w.receive out := by
  obtain same | ⟨a, rest, buffered, receiving, moved⟩ := receive_cases w
  · rw [same]
    exact sound
  · rw [moved]
    obtain ⟨merged, bound, tasks, kept, rest⟩ := sound
    rw [buffered] at bound merged
    refine ⟨?_, ?_, tasks, kept, rest⟩
    · rw [List.append_assoc]
      exact merged
    · exact Nat.le_of_succ_le bound

end Sound

/-- What the tasks of a kind keep, under the events a run is allowed. -/
structure Keeps (T : Task δ γ σ ι α) (allowed : Event δ ι → Prop) (keeps : δ → σ → List α → Prop) : Prop where
  start : ∀ d, keeps d (T.start d) []
  turn : ∀ k input, allowed (.turn k input) → ∀ d shared s out, keeps d s out →
    keeps d (T.step shared s input).2 out
  sent : ∀ d s a out, keeps d s out → T.offer s = some a → keeps d (T.sent s) (out ++ [a])
  refused : allowed .dropReceiver → ∀ d s a out, keeps d s out → T.offer s = some a → keeps d (T.refused s) out

section Runs

variable {allowed : Event δ ι → Prop} {keeps : δ → σ → List α → Prop}

/-- One event, whatever it is, keeps the account of who sent what. -/
theorem Sound.step (rules : Keeps T allowed keeps) {past : List (Event δ ι)} {w : World γ σ α} {event : Event δ ι}
    (sound : ∃ out, Sound capacity keeps (spawned past) w out) (gone : w.receiving = false → allowed .dropReceiver)
    (may : allowed event) :
    (∃ out, Sound capacity keeps (spawned (past ++ [event])) (w.apply T capacity event) out) ∧
      ((w.apply T capacity event).receiving = false → allowed .dropReceiver) := by
  obtain ⟨out, sound⟩ := sound
  have same_start : (∀ d, event ≠ .spawn d) → spawned (past ++ [event]) = spawned past := by
    intro other
    rw [spawned_append]
    cases event with
    | spawn d => exact absurd rfl (other d)
    | turn k input => exact List.append_nil _
    | send k => exact List.append_nil _
    | receive => exact List.append_nil _
    | dropReceiver => exact List.append_nil _
  cases event with
  | spawn d =>
    rw [spawned_append]
    exact ⟨⟨out, sound.spawn d (rules.start d)⟩, gone⟩
  | turn k input =>
    rw [same_start (by simp)]
    obtain same | ⟨s, found, moved⟩ := turn_cases (T := T) w k input
    · rw [World.apply, same]
      exact ⟨⟨out, sound⟩, gone⟩
    · rw [World.apply, moved]
      exact ⟨⟨out, sound.set found (fun d kept => rules.turn k input may d w.shared s _ kept) _⟩, gone⟩
  | send k =>
    rw [same_start (by simp)]
    obtain same | ⟨s, a, found, offered, receiving, moved⟩ | ⟨s, a, found, offered, receiving, room, moved⟩ :=
      send_cases T capacity w k
    · rw [World.apply, same]
      exact ⟨⟨out, sound⟩, gone⟩
    · rw [World.apply, moved]
      exact ⟨⟨out, sound.set found (fun d kept => rules.refused (gone receiving) d s a _ kept offered) w.shared⟩, gone⟩
    · rw [World.apply, moved]
      exact ⟨⟨_, sound.send found room fun d kept => rules.sent d s a _ kept offered⟩, gone⟩
  | receive =>
    rw [same_start (by simp)]
    refine ⟨⟨out, sound.receive⟩, fun lost => gone ?_⟩
    rw [← lost, apply_receiving w (by simp)]
  | dropReceiver =>
    rw [same_start (by simp)]
    exact ⟨⟨out, sound.merged, sound.bound, sound.tasks, sound.kept, sound.rest⟩, fun _ => may⟩

/-- The rule for a whole run, however the tasks, the sends and the receiver interleave. -/
theorem run_sound (rules : Keeps T allowed keeps) (capacity : Nat) (shared : γ) (events : List (Event δ ι))
    (may : ∀ event ∈ events, allowed event) :
    ∃ out, Sound capacity keeps (spawned events) (events.foldl (World.apply T capacity) (World.start shared)) out := by
  have initial : Sound capacity keeps [] (World.start shared) (fun _ => []) := by
    refine ⟨Interleaves.start, Nat.zero_le _, rfl, ?_, fun _ _ => rfl⟩
    intro k d s opened
    cases opened
  have started : (∃ out, Sound capacity keeps (spawned ([] : List (Event δ ι))) (World.start shared) out) ∧
      ((World.start shared : World γ σ α).receiving = false → allowed .dropReceiver) :=
    ⟨⟨_, initial⟩, fun impossible => by cases impossible⟩
  have run : Transition.Allowed (World.apply T capacity) (fun _ event => allowed event) (World.start shared) events :=
    Transition.Allowed.of_forall fun _ => may
  have whole := Transition.invariant_of_past
    (fun past w => (∃ out, Sound capacity keeps (spawned past) w out) ∧ (w.receiving = false → allowed .dropReceiver))
    (fun past w event sound may => Sound.step rules sound.1 sound.2 may) started run
  exact whole.1

end Runs

/-- A sum over the tasks after one of them has changed. -/
theorem sum_set {tasks : List σ} {k : Nat} {s : σ} (found : tasks[k]? = some s) (f : σ → Nat) (s' : σ) :
    ((tasks.set k s').map f).sum + f s = (tasks.map f).sum + f s' := by
  induction tasks generalizing k with
  | nil => cases found
  | cons t tasks ih =>
    cases k with
    | zero =>
      cases found
      simp only [List.set_cons_zero, List.map_cons, List.sum_cons]
      omega
    | succ k =>
      have later := ih found
      simp only [List.set_cons_succ, List.map_cons, List.sum_cons]
      omega

/-- A counter that every task shares is the sum of what each has added, where a turn adds to both alike and nothing
    else touches either. -/
theorem run_counted (capacity : Nat) (count : γ → Nat) (added : σ → Nat) (fresh : ∀ d, added (T.start d) = 0)
    (turn : ∀ shared s input, count (T.step shared s input).1 + added s = count shared + added (T.step shared s input).2)
    (sent : ∀ s a, T.offer s = some a → added (T.sent s) = added s)
    (refused : ∀ s a, T.offer s = some a → added (T.refused s) = added s) (shared : γ) (events : List (Event δ ι)) :
    count (events.foldl (World.apply T capacity) (World.start shared)).shared =
      count shared + ((events.foldl (World.apply T capacity) (World.start shared)).tasks.map added).sum := by
  apply Transition.always (fun w : World γ σ α => count w.shared = count shared + (w.tasks.map added).sum)
  · intro w event kept
    cases event with
    | spawn d =>
      simp only [World.apply, List.map_append, List.map_singleton, List.sum_append, List.sum_singleton, fresh]
      omega
    | turn k input =>
      obtain same | ⟨s, found, moved⟩ := turn_cases (T := T) w k input
      · rw [World.apply, same]
        exact kept
      · rw [World.apply, moved]
        have sum := sum_set found added (T.step w.shared s input).2
        have both := turn w.shared s input
        dsimp only
        omega
    | send k =>
      obtain same | ⟨s, a, found, offered, _, moved⟩ | ⟨s, a, found, offered, _, _, moved⟩ :=
        send_cases T capacity w k
      · rw [World.apply, same]
        exact kept
      · rw [World.apply, moved]
        have sum := sum_set found added (T.refused s)
        have none := refused s a offered
        dsimp only
        omega
      · rw [World.apply, moved]
        have sum := sum_set found added (T.sent s)
        have none := sent s a offered
        dsimp only
        omega
    | receive =>
      obtain same | ⟨a, rest, _, _, moved⟩ := receive_cases w
      · rw [World.apply, same]
        exact kept
      · rw [World.apply, moved]
        exact kept
    | dropReceiver => exact kept
  · rfl

/-- Every move of a task, sends included, lowers its weight, and at weight zero it has ended. -/
structure Terminates (T : Task δ γ σ ι α) (weight : σ → Nat) (kinds : List (ι → Prop)) : Prop where
  turn : ∀ shared s input, T.step shared s input = (shared, s) ∨ weight (T.step shared s input).2 < weight s
  sent : ∀ s a, T.offer s = some a → weight (T.sent s) < weight s
  refused : ∀ s a, T.offer s = some a → weight (T.refused s) < weight s
  /-- A task that has not ended and offers nothing moves at a turn of one of the kinds. -/
  awake : ∀ shared s, T.offer s = none → (∀ kind ∈ kinds, ∃ input, kind input ∧ T.step shared s input = (shared, s)) →
    weight s = 0

/-- A round of a fair schedule: each of `n` tasks gets a turn of each kind and a chance to send, in any order and
    with any others between, and the receiver receives. -/
structure Round (kinds : List (ι → Prop)) (n : Nat) (events : List (Event δ ι)) : Prop where
  turns : ∀ k < n, ∀ kind ∈ kinds, ∃ input, kind input ∧ Event.turn k input ∈ events
  sends : ∀ k < n, Event.send k ∈ events
  receives : Event.receive ∈ events
  only : ∀ event ∈ events, event ≠ .dropReceiver ∧ ∀ d, event ≠ .spawn d

def World.weight (weight : σ → Nat) (w : World γ σ α) : Nat :=
  (w.tasks.map fun s => 2 * weight s).sum + w.channel.length

theorem weight_eq_zero (weight : σ → Nat) (w : World γ σ α) :
    w.weight weight = 0 ↔ w.channel = [] ∧ ∀ s ∈ w.tasks, weight s = 0 := by
  unfold World.weight
  rw [Nat.add_eq_zero_iff, List.sum_eq_zero_iff_forall_eq_nat, List.length_eq_zero_iff, and_comm]
  apply and_congr_right
  intro _
  constructor
  · intro zeros s member
    have zero := zeros _ (List.mem_map_of_mem member)
    omega
  · intro zeros n member
    obtain ⟨s, inside, rfl⟩ := List.mem_map.mp member
    rw [zeros s inside]

theorem set_self {tasks : List σ} {k : Nat} {s : σ} (found : tasks[k]? = some s) : tasks.set k s = tasks := by
  obtain ⟨inside, rfl⟩ := List.getElem?_eq_some_iff.mp found
  exact List.set_getElem_self inside

section Fairness

variable {weight : σ → Nat} {kinds : List (ι → Prop)}

variable (capacity) in
theorem apply_lowers (terminates : Terminates T weight kinds) (w : World γ σ α) {event : Event δ ι}
    (kept : event ≠ .dropReceiver ∧ ∀ d, event ≠ .spawn d) :
    w.apply T capacity event = w ∨
      ((w.apply T capacity event).weight weight < w.weight weight ∧
        (w.apply T capacity event).tasks.length = w.tasks.length ∧
        (w.apply T capacity event).receiving = w.receiving) := by
  cases event with
  | spawn d => exact absurd rfl (kept.2 d)
  | dropReceiver => exact absurd rfl kept.1
  | turn k input =>
    rcases turn_cases (T := T) w k input with same | ⟨s, found, moved⟩
    · exact Or.inl same
    · rw [World.apply, moved]
      obtain still | lower := terminates.turn w.shared s input
      · left
        rw [still, set_self found]
      · right
        have sum := sum_set found (fun s => 2 * weight s) (T.step w.shared s input).2
        refine ⟨?_, List.length_set, rfl⟩
        unfold World.weight
        dsimp only at sum ⊢
        omega
  | send k =>
    rcases send_cases T capacity w k with
      same | ⟨s, a, found, offered, _, moved⟩ | ⟨s, a, found, offered, _, _, moved⟩
    · exact Or.inl same
    · right
      rw [World.apply, moved]
      have sum := sum_set found (fun s => 2 * weight s) (T.refused s)
      have lower := terminates.refused s a offered
      refine ⟨?_, List.length_set, rfl⟩
      unfold World.weight
      dsimp only at sum ⊢
      omega
    · right
      rw [World.apply, moved]
      have sum := sum_set found (fun s => 2 * weight s) (T.sent s)
      have lower := terminates.sent s a offered
      refine ⟨?_, List.length_set, rfl⟩
      unfold World.weight
      dsimp only at sum ⊢
      rw [List.length_append, List.length_singleton]
      omega
  | receive =>
    rcases receive_cases w with same | ⟨a, rest, buffered, _, moved⟩
    · exact Or.inl same
    · right
      rw [World.apply, moved]
      refine ⟨?_, rfl, rfl⟩
      unfold World.weight
      rw [buffered, List.length_cons]
      exact Nat.lt_succ_self _

variable (capacity) in
theorem foldl_lowers (terminates : Terminates T weight kinds) (w : World γ σ α) (events : List (Event δ ι))
    (kept : ∀ event ∈ events, event ≠ .dropReceiver ∧ ∀ d, event ≠ .spawn d) :
    (events.foldl (World.apply T capacity) w).weight weight ≤ w.weight weight ∧
      (events.foldl (World.apply T capacity) w).tasks.length = w.tasks.length ∧
      (events.foldl (World.apply T capacity) w).receiving = w.receiving := by
  induction events generalizing w with
  | nil => exact ⟨Nat.le_refl _, rfl, rfl⟩
  | cons event events ih =>
    have later := ih (w.apply T capacity event) fun next member => kept next (List.mem_cons_of_mem _ member)
    rw [List.foldl_cons]
    obtain same | ⟨lower, tasks, receiving⟩ := apply_lowers capacity terminates w (kept event List.mem_cons_self)
    · rw [same] at later ⊢
      exact later
    · exact ⟨Nat.le_trans later.1 (Nat.le_of_lt lower), later.2.1.trans tasks, later.2.2.trans receiving⟩

variable (capacity) in
/-- A round changes nothing from beginning to end or lowers the weight. -/
theorem foldl_still_or_lowers (terminates : Terminates T weight kinds) (w : World γ σ α) (events : List (Event δ ι))
    (kept : ∀ event ∈ events, event ≠ .dropReceiver ∧ ∀ d, event ≠ .spawn d) :
    (∀ event ∈ events, w.apply T capacity event = w) ∨
      (events.foldl (World.apply T capacity) w).weight weight < w.weight weight := by
  induction events with
  | nil => exact Or.inl fun event member => absurd member List.not_mem_nil
  | cons event events ih =>
    have others : ∀ next ∈ events, next ≠ .dropReceiver ∧ ∀ d, next ≠ .spawn d := fun next member =>
      kept next (List.mem_cons_of_mem _ member)
    rw [List.foldl_cons]
    obtain same | ⟨lower, _, _⟩ := apply_lowers capacity terminates w (kept event List.mem_cons_self)
    · rw [same]
      obtain still | less := ih others
      · left
        intro next member
        obtain rfl | inside := List.mem_cons.mp member
        · exact same
        · exact still next inside
      · exact Or.inr less
    · exact Or.inr (Nat.lt_of_le_of_lt (foldl_lowers capacity terminates _ events others).1 lower)

/-- Where a whole round changes nothing, every task has ended and the channel is empty. -/
theorem still_ended (terminates : Terminates T weight kinds) (room : 0 < capacity) {w : World γ σ α}
    (receiving : w.receiving = true) {events : List (Event δ ι)} (round : Round kinds w.tasks.length events)
    (still : ∀ event ∈ events, w.apply T capacity event = w) : w.channel = [] ∧ ∀ s ∈ w.tasks, weight s = 0 := by
  have empty : w.channel = [] := by
    have received := still .receive round.receives
    cases buffered : w.channel with
    | nil => rfl
    | cons a rest =>
      rw [World.apply, World.receive, buffered] at received
      dsimp only at received
      rw [if_pos receiving] at received
      have channels := congrArg World.channel received
      rw [buffered] at channels
      exact absurd (congrArg List.length channels) (by simp)
  refine ⟨empty, ?_⟩
  intro s member
  obtain ⟨k, inside, rfl⟩ := List.getElem_of_mem member
  have found := List.getElem?_eq_getElem inside
  have silent : T.offer w.tasks[k] = none := by
    have sent := still (.send k) (round.sends k inside)
    cases offered : T.offer w.tasks[k] with
    | none => rfl
    | some a =>
      rw [World.apply, World.send, found] at sent
      simp only [offered, receiving, empty, Bool.true_eq_false, if_false, List.length_nil, room, if_true] at sent
      have channels := congrArg World.channel sent
      rw [empty] at channels
      cases channels
  apply terminates.awake w.shared _ silent
  intro kind known
  obtain ⟨input, right, among⟩ := round.turns k inside kind known
  refine ⟨input, right, ?_⟩
  have turned := still (.turn k input) among
  rw [World.apply, World.turn, found] at turned
  have shared := congrArg World.shared turned
  have tasks := congrArg (fun v : World γ σ α => v.tasks[k]?) turned
  dsimp only at shared tasks
  rw [List.getElem?_set_self inside, found] at tasks
  exact Prod.ext shared (Option.some.inj tasks)

variable (capacity) in
/-- A run weighs no more than what its tasks started with. -/
theorem run_weight_le (terminates : Terminates T weight kinds) (shared : γ) (events : List (Event δ ι)) :
    (events.foldl (World.apply T capacity) (World.start shared)).weight weight ≤
      ((spawned events).map fun d => 2 * weight (T.start d)).sum := by
  have initial : (World.start shared : World γ σ α).weight weight ≤
      ((spawned ([] : List (Event δ ι))).map fun d => 2 * weight (T.start d)).sum := Nat.zero_le _
  have allowed : Transition.Allowed (World.apply T capacity) (fun _ _ => True) (World.start shared) events :=
    Transition.Allowed.of_forall fun _ _ _ => trivial
  refine Transition.invariant_of_past
    (fun past w => w.weight weight ≤ ((spawned past).map fun d => 2 * weight (T.start d)).sum) ?_ initial allowed
  intro past w event bound _
  rw [spawned_append, List.map_append, List.sum_append]
  by_cases spawns : ∃ d, event = .spawn d
  · obtain ⟨d, rfl⟩ := spawns
    have grown : (w.apply T capacity (.spawn d)).weight weight = w.weight weight + 2 * weight (T.start d) := by
      simp only [World.apply, World.weight, List.map_append, List.map_singleton, List.sum_append, List.sum_singleton]
      omega
    rw [grown]
    exact Nat.add_le_add_right bound _
  · refine Nat.le_trans ?_ (Nat.le_add_right_of_le bound)
    by_cases drops : event = .dropReceiver
    · rw [drops]
      exact Nat.le_refl _
    · obtain same | ⟨lower, _, _⟩ := apply_lowers capacity terminates w
        ⟨drops, fun d same => spawns ⟨d, same⟩⟩
      · exact Nat.le_of_eq (congrArg _ same)
      · exact Nat.le_of_lt lower

/-- Every fair schedule, run for as many rounds as there is weight, ends every task with the channel empty. -/
theorem rounds_end (terminates : Terminates T weight kinds) (room : 0 < capacity) (rounds : List (List (Event δ ι)))
    {w : World γ σ α} (receiving : w.receiving = true) (fair : ∀ round ∈ rounds, Round kinds w.tasks.length round)
    (enough : w.weight weight ≤ rounds.length) :
    (rounds.flatten.foldl (World.apply T capacity) w).channel = [] ∧
      ∀ s ∈ (rounds.flatten.foldl (World.apply T capacity) w).tasks, weight s = 0 := by
  suffices zero : (rounds.flatten.foldl (World.apply T capacity) w).weight weight = 0 from
    (weight_eq_zero weight _).mp zero
  induction rounds generalizing w with
  | nil => exact Nat.le_zero.mp enough
  | cons round rounds ih =>
    have first := fair round List.mem_cons_self
    have after := foldl_lowers capacity terminates w round first.only
    rw [List.flatten_cons, List.foldl_append]
    apply ih (after.2.2.trans receiving)
    · intro later member
      rw [after.2.1]
      exact fair later (List.mem_cons_of_mem _ member)
    · obtain still | less := foldl_still_or_lowers capacity terminates w round first.only
      · have ended := still_ended terminates room receiving first still
        have none : w.weight weight = 0 := (weight_eq_zero weight w).mpr ended
        omega
      · rw [List.length_cons] at enough
        omega

/-- The rule for a fair run: what every task keeps holds of all of them at their end, and nothing waits. -/
theorem fair_sound {allowed : Event δ ι → Prop} {keeps : δ → σ → List α → Prop} (rules : Keeps T allowed keeps)
    (terminates : Terminates T weight kinds) (room : 0 < capacity) (shared : γ) (events : List (Event δ ι))
    (rounds : List (List (Event δ ι))) (may : ∀ event ∈ events ++ rounds.flatten, allowed event)
    (kept : ∀ event ∈ events, event ≠ .dropReceiver)
    (fair : ∀ round ∈ rounds, Round kinds (spawned events).length round)
    (enough : ((spawned events).map fun d => 2 * weight (T.start d)).sum ≤ rounds.length) :
    ∃ out, Sound capacity keeps (spawned events)
        ((events ++ rounds.flatten).foldl (World.apply T capacity) (World.start shared)) out ∧
      ((events ++ rounds.flatten).foldl (World.apply T capacity) (World.start shared)).channel = [] ∧
      ∀ s ∈ ((events ++ rounds.flatten).foldl (World.apply T capacity) (World.start shared)).tasks, weight s = 0 := by
  have opened : spawned (events ++ rounds.flatten) = spawned events := by
    have quiet : spawned rounds.flatten = [] := by
      apply spawned_quiet
      intro event member
      obtain ⟨round, among, inside⟩ := List.mem_flatten.mp member
      exact ((fair round among).only event inside).2
    rw [spawned_append, quiet, List.append_nil]
  obtain ⟨out, sound⟩ := run_sound rules capacity shared (events ++ rounds.flatten) may
  obtain ⟨_, first⟩ := run_sound rules capacity shared events fun event member => may event (List.mem_append_left _ member)
  have light := Nat.le_trans (run_weight_le capacity terminates shared events) enough
  have ended := rounds_end terminates room rounds (run_receiving T capacity shared events kept)
    (by rw [first.tasks]; exact fair) light
  rw [← List.foldl_append] at ended
  rw [opened] at sound
  exact ⟨out, sound, ended⟩

end Fairness

end Channel

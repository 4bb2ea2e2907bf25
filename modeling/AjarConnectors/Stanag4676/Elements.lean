import AjarConnectors.Stanag4676.Walk
import AjarConnectors.Transition.Run

namespace Stanag4676Model

open EventModel TextModel

namespace Token

/-- The local name of the element a token opens. -/
def opens (token : Token) : Option String :=
  match token.event with
  | .startTag name _ => some (localName name)
  | _ => none

def closes (token : Token) : Option String :=
  match token.event with
  | .endTag name => some (localName name)
  | _ => none

/-- The text that is routed. -/
def content (token : Token) : Option String :=
  match token.event with
  | .text content => if trim content = "" then none else some (trim content)
  | _ => none

end Token

/-- The open elements after a token. -/
def push (stack : List String) (token : Token) : List String :=
  match token.event with
  | .startTag name _ => localName name :: stack
  | .endTag _ => stack.tail
  | _ => stack

def current (stack : List String) : String := stack.head?.getD ""

def parent (stack : List String) : String := stack.tail.head?.getD ""

/-- An end tag closes the innermost open element. -/
def Closes (stack : List String) (token : Token) : Prop := token.closes = none ∨ token.closes = stack.head?

instance Closes.decidable (stack : List String) (token : Token) : Decidable (Closes stack token) :=
  inferInstanceAs (Decidable (_ ∨ _))

/-- Tokens that leave the open elements as they found them, and close none of them. -/
structure Balanced (tokens : List Token) : Prop where
  closes : Transition.Allowed push Closes [] tokens
  ends : tokens.foldl push [] = []

/-- A whole element of this local name. -/
structure IsElement (name : String) (first : Token) (inner : List Token) (last : Token) : Prop where
  first : first.opens = some name
  inner : Balanced inner
  last : last.closes = some name

section

variable {Instant : Type} (platform : Platform Instant)

namespace Walk

/-- What an end tag other than that of a track does. -/
def close (w : Walk) (name : String) : Walk :=
  if name = "tp" then
    { w with track := { w.track with points := w.track.points ++ [{ w.tp with status := w.segStatus }] }, tp := {} }
  else if name = "dynamics" then { w with dynamicsCs := none }
  else if name = "segment" then { w with segStatus := none }
  else w

/-- What a token that neither opens nor closes a track does. -/
def after (w : Walk) (stack : List String) (token : Token) : Walk :=
  match token.event with
  | .startTag name attributes =>
    if localName name = "dynamics" then
      { w with dynamicsCs := attributes.findSome? fun a => if localName a.1 = "cs" then some a.2 else none }
    else w
  | .endTag name => w.close (localName name)
  | .text content => if trim content = "" then w else w.routeText platform (parent stack) (current stack) (trim content)
  | _ => w

def through (w : Walk) : List String → List Token → Walk
  | _, [] => w
  | stack, token :: tokens => (w.after platform stack token).through (push stack token) tokens

end Walk

end

/-- Neither a start tag nor an end tag of a track. -/
def Token.Quiet (token : Token) : Prop := token.opens ≠ some "track" ∧ token.closes ≠ some "track"

end Stanag4676Model

namespace Stanag4676Proof

open EventModel TextModel Stanag4676Model

theorem push_append {rel : List String} {token : Token} (closes : Closes rel token) (base : List String) :
    push (rel ++ base) token = push rel token ++ base := by
  unfold Closes Token.closes at closes
  unfold push
  split
  · rfl
  · rename_i name found
    rw [found] at closes
    cases rel with
    | nil => simp at closes
    | cons top rel => rfl
  · rfl

theorem foldl_push_append {rel : List String} {tokens : List Token} (closes : Transition.Allowed push Closes rel tokens)
    (base : List String) : tokens.foldl push (rel ++ base) = tokens.foldl push rel ++ base := by
  induction tokens generalizing rel with
  | nil => rfl
  | cons token tokens ih =>
    rw [List.foldl_cons, List.foldl_cons, push_append closes.1]
    exact ih closes.2

theorem closes_append {rel : List String} {tokens : List Token} (closes : Transition.Allowed push Closes rel tokens)
    (base : List String) : Transition.Allowed push Closes (rel ++ base) tokens := by
  induction tokens generalizing rel with
  | nil => trivial
  | cons token tokens ih =>
    have here : Closes (rel ++ base) token := by
      rcases closes.1 with none | top
      · exact Or.inl none
      · cases rel with
        | nil => exact Or.inl top
        | cons first rel => exact Or.inr top
    refine ⟨here, ?_⟩
    rw [push_append closes.1]
    exact ih closes.2

/-- What is never opened and was not open is never closed. -/
theorem never_closed {name : String} {rel : List String} {tokens : List Token}
    (closes : Transition.Allowed push Closes rel tokens) (absent : name ∉ rel)
    (unopened : ∀ token ∈ tokens, token.opens ≠ some name) :
    (∀ token ∈ tokens, token.closes ≠ some name) ∧ name ∉ tokens.foldl push rel := by
  induction tokens generalizing rel with
  | nil => exact ⟨fun _ member => (by cases member), absent⟩
  | cons token tokens ih =>
    have here : token.closes ≠ some name := by
      intro closed
      rcases closes.1 with none | top
      · rw [none] at closed
        cases closed
      · rw [closed] at top
        exact absent (List.mem_of_mem_head? (Option.mem_def.mpr top.symm))
    have still : name ∉ push rel token := by
      have opened := unopened token (List.mem_cons_self ..)
      unfold Token.opens at opened
      unfold push
      split
      · rename_i start _ found
        rw [found] at opened
        rw [List.mem_cons, not_or]
        exact ⟨fun same => opened (congrArg some same.symm), absent⟩
      · exact fun member => absent (List.mem_of_mem_tail member)
      · exact absent
    obtain ⟨rest, final⟩ := ih closes.2 still fun token member => unopened token (List.mem_cons_of_mem _ member)
    refine ⟨fun other member => ?_, final⟩
    rcases List.mem_cons.mp member with rfl | later
    · exact here
    · exact rest other later

section

variable {Instant : Type} {platform : Platform Instant} {parser : S4676Parser} {native : Bytes}

theorem step_quiet (s : Progress) {token : Token} (quiet : token.Quiet) :
    s.step platform parser native token = .ok
      { position := s.position + token.raw.length
        stack := push s.stack token
        walk := s.walk.after platform s.stack token
        events := s.events } := by
  unfold Token.Quiet Token.opens Token.closes at quiet
  unfold Progress.step push Walk.after
  cases found : token.event with
  | startTag name attributes =>
    rw [found] at quiet
    have other : localName name ≠ "track" := fun same => quiet.1 (congrArg some same)
    dsimp only
    rw [Progress.onStart, if_neg other]
  | endTag name =>
    rw [found] at quiet
    have other : localName name ≠ "track" := fun same => quiet.2 (congrArg some same)
    dsimp only
    unfold Progress.onEnd Walk.close
    dsimp only
    split_ifs <;> rfl
  | text content =>
    dsimp only
    unfold Progress.onText
    dsimp only
    split_ifs <;> rfl
  | emptyTag name attributes => rfl
  | cdata content => rfl
  | reference replacement => rfl
  | other => rfl

/-- A stretch without track tags cannot fail and adds no event. -/
theorem run_quiet (s : Progress) {tokens : List Token} (quiet : ∀ token ∈ tokens, token.Quiet) :
    s.run platform parser native tokens = .ok
      { position := s.position + (tokens.flatMap Token.raw).length
        stack := tokens.foldl push s.stack
        walk := s.walk.through platform s.stack tokens
        events := s.events } := by
  induction tokens generalizing s with
  | nil => rfl
  | cons token tokens ih =>
    rw [Progress.run, step_quiet s (quiet token (List.mem_cons_self ..))]
    dsimp only
    rw [ih _ fun token member => quiet token (List.mem_cons_of_mem _ member), List.flatMap_cons, List.length_append,
      Nat.add_assoc]
    rfl

theorem run_append (s : Progress) (before after : List Token) :
    s.run platform parser native (before ++ after) =
      (s.run platform parser native before).bind fun s => s.run platform parser native after := by
  induction before generalizing s with
  | nil => rfl
  | cons token before ih =>
    rw [List.cons_append, Progress.run, Progress.run]
    cases s.step platform parser native token with
    | error e => rfl
    | ok s => exact ih s

end

end Stanag4676Proof

import AjarConnectors.Drop.Settling
import AjarConnectors.Stream.Sources

namespace DropModel

open StreamModel (Incoming Reader maxFrameBytes)

/-- The kinds of errors that `recv` tells apart. -/
inductive IoError where
  | invalidData
  | unexpectedEof
  | other
  deriving DecidableEq

/-- `read_line` on the open file. Where a read fails, what it had of a line is gone, and the next read fails too. -/
def readFile (file : Incoming) : Except IoError Bytes × Reader :=
  if file.fails = true ∧ 10 ∉ file.reader.flat then (.error .other, ⟨[], []⟩)
  else match StreamModel.readLine maxFrameBytes file.reader with
    | (.ok line, r) => (.ok line, r)
    | (.error .invalidData, r) => (.error .invalidData, r)
    | (.error .unexpectedEof, r) => (.error .unexpectedEof, r)

/-- The source with what its calls returned so far and the files it opened, as they were when they were opened. -/
structure Intake where
  watch : Watch
  current : Option Incoming
  opened : List (Bytes × Option Incoming)
  given : List (Except IoError Bytes)

/-- A turn of the loop of `recv`, over as many calls. Opening finds the files as they are then; a poll may break off
    with an error. -/
inductive Turn where
  | read
  | openNext (files : Bytes → Option Incoming)
  | scan (listing : List Entry) (fails : Bool)

namespace Intake

def start (processExisting : Bool) (present : List Entry) : Intake := ⟨.start processExisting present, none, [], []⟩

def read (s : Intake) : Intake :=
  match s.current with
  | none => s
  | some file => match readFile file with
    | (.error .unexpectedEof, _) => { s with current := none }
    | (result, r) => { s with current := some { file with reader := r }, given := s.given ++ [result] }

def openNext (s : Intake) (files : Bytes → Option Incoming) : Intake :=
  match s.current, s.watch.source.ready with
  | none, path :: _ =>
    { s with watch := s.watch.step .next, current := files path, opened := s.opened ++ [(path, files path)] }
  | _, _ => s

def scan (s : Intake) (listing : List Entry) (fails : Bool) : Intake :=
  match s.current, s.watch.source.ready with
  | none, [] =>
    { s with
      watch := s.watch.step (.scan listing)
      given := if fails then s.given ++ [.error .other] else s.given }
  | _, _ => s

def step (s : Intake) : Turn → Intake
  | .read => s.read
  | .openNext files => s.openNext files
  | .scan listing fails => s.scan listing fails

end Intake

def intake (processExisting : Bool) (present : List Entry) (turns : List Turn) : Intake :=
  turns.foldl Intake.step (.start processExisting present)

/-- What a file has to give: a line or the report of an overlong one for each of its lines. -/
def contents (file : Option Incoming) : List (Except StreamModel.ReadError Bytes) :=
  file.toList.flatMap fun f => StreamProof.results .line maxFrameBytes f.fails f.reader.flat

/-- What is about a line; other errors are about the directory, or a file that cannot be read. -/
def aboutLine : Except IoError Bytes → Option (Except StreamModel.ReadError Bytes)
  | .ok line => some (.ok line)
  | .error .invalidData => some (.error .invalidData)
  | .error _ => none

/-- The directory over time: no more names than are remembered, and none twice in one listing. -/
def Turn.Orderly (names : Finset Name) : Turn → Prop
  | .scan listing _ => (fileNames listing).Nodup ∧ ∀ name ∈ fileNames listing, name ∈ names
  | _ => True

/-- Two scans, one after the other, listed the file with one size. -/
def ListedTwice (listings : List (List Entry)) (name : Name) : Prop :=
  ∃ size front listing back, listings = front ++ listing :: back ∧ Lists listing name size ∧
    ∃ before ∈ front, Lists before name size

/-- The reads a file takes. -/
def weightOf (file : Option Incoming) : Nat :=
  match file with
  | none => 0
  | some f => f.reader.flat.length + 1

/-- The reads and opens that are left. -/
def Intake.weight (files : Bytes → Option Incoming) (s : Intake) : Nat :=
  weightOf s.current + (s.watch.source.ready.map fun path => weightOf (files path) + 1).sum

/-- The files that were opened and those that will be. -/
def Intake.toRead (files : Bytes → Option Incoming) (s : Intake) : List (Bytes × Option Incoming) :=
  s.opened ++ s.watch.source.ready.map fun path => (path, files path)

/-- The open file and those in the queue can be read to their ends, or cannot be opened. -/
def Intake.Readable (files : Bytes → Option Incoming) (s : Intake) : Prop :=
  (∀ file, s.current = some file → file.fails = false) ∧
    ∀ path ∈ s.watch.source.ready, ∀ file, files path = some file → file.fails = false

def pass (files : Bytes → Option Incoming) : List Turn := [.read, .openNext files]

end DropModel

namespace DropProof

open DropModel StreamProof
open StreamModel (Incoming maxFrameBytes ReadError lineResult)

variable {s : Intake}

theorem contents_some (file : Incoming) :
    contents (some file) = results .line maxFrameBytes file.fails file.reader.flat :=
  (List.flatMap_singleton ..)

/-- Everything a read of a file can do: it tells of a line, or finds the end, or fails. -/
theorem readFile_cases (file : Incoming) :
    (∃ result line r, readFile file = (result, r) ∧ aboutLine result = some line ∧
      contents (some file) = line :: contents (some { file with reader := r }) ∧
      r.flat.length < file.reader.flat.length) ∨
    (∃ r, readFile file = (.error .unexpectedEof, r) ∧ file.fails = false ∧ contents (some file) = []) ∨
    (∃ r, readFile file = (.error .other, r) ∧ file.fails = true ∧ contents (some file) = [] ∧
      contents (some { file with reader := r }) = []) := by
  simp only [contents_some]
  unfold readFile
  by_cases broken : file.fails = true ∧ 10 ∉ file.reader.flat
  · rw [if_pos broken]
    refine Or.inr (Or.inr ⟨_, rfl, broken.1, ?_, ?_⟩)
    · exact results_ended _ _ _ (by rw [nextResult, if_pos (Or.inr broken)])
    · have none : Buffered.Reader.flat (⟨[], []⟩ : StreamModel.Reader) = [] := rfl
      exact results_ended _ _ _ (by rw [none, nextResult, if_pos (Or.inl rfl)])
  · rw [if_neg broken]
    obtain ⟨result, left⟩ := readLine_eq maxFrameBytes file.reader
    by_cases empty : file.reader.flat = []
    · rw [if_pos empty] at result
      have whole : file.fails = false := by
        rw [empty] at broken
        simpa using broken
      generalize StreamModel.readLine maxFrameBytes file.reader = outcome at result
      obtain ⟨given, r⟩ := outcome
      dsimp only at result
      rw [result]
      refine Or.inr (Or.inl ⟨_, rfl, whole, ?_⟩)
      exact results_ended _ _ _ (by rw [nextResult, if_pos (Or.inl empty)])
    · rw [if_neg empty] at result
      have next : nextResult .line maxFrameBytes file.fails file.reader.flat =
          (lineResult maxFrameBytes (Buffered.pieceOf 10 (Buffered.takeThrough 10 file.reader.flat).1),
            (Buffered.takeThrough 10 file.reader.flat).2) := by
        rw [nextResult, if_neg (fun either => either.elim empty broken)]
      have going := results_next .line maxFrameBytes file.fails (s := file.reader.flat)
        (by rw [next]; exact lineResult_open _ _)
      have shorter := nextResult_shorter .line maxFrameBytes file.fails (s := file.reader.flat)
        (by rw [next]; exact lineResult_open _ _)
      rw [next, ← result, ← left] at going shorter
      generalize StreamModel.readLine maxFrameBytes file.reader = outcome at result going shorter
      obtain ⟨given, r⟩ := outcome
      dsimp only at result going shorter
      left
      cases given with
      | ok line => exact ⟨_, _, _, rfl, rfl, going, shorter⟩
      | error e =>
        cases e with
        | invalidData => exact ⟨_, _, _, rfl, rfl, going, shorter⟩
        | unexpectedEof => exact absurd result.symm (lineResult_open _ _)

/-- What a turn that reads can do. -/
theorem read_steps (s : Intake) :
    (s.current = none ∧ s.read = s) ∨
    (∃ file result line r, s.current = some file ∧ aboutLine result = some line ∧
      contents (some file) = line :: contents (some { file with reader := r }) ∧
      r.flat.length < file.reader.flat.length ∧
      s.read = { s with current := some { file with reader := r }, given := s.given ++ [result] }) ∨
    (∃ file, s.current = some file ∧ file.fails = false ∧ contents (some file) = [] ∧
      s.read = { s with current := none }) ∨
    (∃ file r, s.current = some file ∧ file.fails = true ∧ contents (some file) = [] ∧
      contents (some { file with reader := r }) = [] ∧
      s.read = { s with current := some { file with reader := r }, given := s.given ++ [.error .other] }) := by
  unfold Intake.read
  cases current : s.current with
  | none => exact Or.inl ⟨rfl, rfl⟩
  | some file =>
    dsimp only
    rcases readFile_cases file with ⟨result, line, r, found, told, next, less⟩ | ⟨r, found, whole, ended⟩ |
      ⟨r, found, fails, ended, after⟩
    · refine Or.inr (Or.inl ⟨file, result, line, r, rfl, told, next, less, ?_⟩)
      rw [found]
      cases result with
      | ok frame => rfl
      | error e =>
        cases e with
        | invalidData => rfl
        | unexpectedEof => cases told
        | other => cases told
    · refine Or.inr (Or.inr (Or.inl ⟨file, rfl, whole, ended, ?_⟩))
      rw [found]
    · refine Or.inr (Or.inr (Or.inr ⟨file, r, rfl, fails, ended, after, ?_⟩))
      rw [found]

/-- What a turn that opens a file can do. -/
theorem openNext_steps (s : Intake) (files : Bytes → Option Incoming) :
    ((s.current = none → s.watch.source.ready = []) ∧ s.openNext files = s) ∨
    (∃ path rest, s.current = none ∧ s.watch.source.ready = path :: rest ∧ s.openNext files =
      { s with watch := s.watch.step .next, current := files path, opened := s.opened ++ [(path, files path)] }) := by
  unfold Intake.openNext
  cases current : s.current with
  | some file => exact Or.inl ⟨fun none => (by cases none), rfl⟩
  | none =>
    cases ready : s.watch.source.ready with
    | nil => exact Or.inl ⟨fun _ => rfl, rfl⟩
    | cons path rest => exact Or.inr ⟨path, rest, rfl, rfl, rfl⟩

/-- What a turn that polls can do. -/
theorem scan_steps (s : Intake) (listing : List Entry) (fails : Bool) :
    s.scan listing fails = s ∨
    (s.current = none ∧ s.watch.source.ready = [] ∧ s.scan listing fails =
      { s with
        watch := s.watch.step (.scan listing)
        given := if fails then s.given ++ [.error .other] else s.given }) := by
  unfold Intake.scan
  cases current : s.current with
  | some file => exact Or.inl rfl
  | none =>
    cases ready : s.watch.source.ready with
    | nil => exact Or.inr ⟨rfl, rfl, rfl⟩
    | cons path rest => exact Or.inl rfl

/-- What was told of lines, and what the open file still has to tell, is what the opened files hold. The files were
    queued in that order, and one that cannot be read is never left. -/
structure Reads (s : Intake) : Prop where
  told : s.given.filterMap aboutLine ++ contents s.current = s.opened.flatMap fun entry => contents entry.2
  names : s.opened.map (fun entry => Utf8.decodeLossy entry.1) ++ s.watch.source.ready.map Utf8.decodeLossy =
    s.watch.queued
  stuck : ∀ front path file back, s.opened = front ++ (path, some file) :: back → file.fails = true →
    back = [] ∧ ∃ f, s.current = some f ∧ f.fails = true

theorem start_reads (processExisting : Bool) (present : List Entry) : Reads (.start processExisting present) where
  told := rfl
  names := rfl
  stuck front path file back split := absurd split (by simp [Intake.start])

theorem read_reads (inv : Reads s) : Reads s.read := by
  obtain ⟨told, names, stuck⟩ := inv
  rcases read_steps s with ⟨-, same⟩ | ⟨file, result, line, r, current, tells, next, -, same⟩ |
    ⟨file, current, whole, ended, same⟩ | ⟨file, r, current, fails, ended, after, same⟩
  · rw [same]
    exact ⟨told, names, stuck⟩
  · rw [same]
    rw [current] at told stuck
    refine ⟨?_, names, fun front path f back split failing => ?_⟩
    · rw [next] at told
      rw [List.filterMap_append, List.filterMap_cons_some tells, List.filterMap_nil, List.append_assoc]
      exact told
    · obtain ⟨last, g, found, fails⟩ := stuck front path f back split failing
      cases found
      exact ⟨last, _, rfl, fails⟩
  · rw [same]
    rw [current] at told stuck
    refine ⟨?_, names, fun front path f back split failing => ?_⟩
    · rw [ended] at told
      exact told
    · obtain ⟨-, g, found, fails⟩ := stuck front path f back split failing
      cases found
      rw [whole] at fails
      cases fails
  · rw [same]
    rw [current] at told stuck
    refine ⟨?_, names, fun front path f back split failing => ?_⟩
    · rw [ended, List.append_nil] at told
      dsimp only
      rw [after, List.append_nil, List.filterMap_append, told]
      exact List.append_nil _
    · exact ⟨(stuck front path f back split failing).1, _, rfl, fails⟩

theorem openNext_reads (inv : Reads s) (files : Bytes → Option Incoming) : Reads (s.openNext files) := by
  obtain ⟨told, names, stuck⟩ := inv
  rcases openNext_steps s files with ⟨-, same⟩ | ⟨path, rest, current, ready, same⟩
  · rw [same]
    exact ⟨told, names, stuck⟩
  · rw [same]
    rw [current] at told stuck
    refine ⟨?_, ?_, fun front path' f back split failing => ?_⟩
    · rw [List.flatMap_append, ← told, List.flatMap_singleton, List.append_assoc]
      rfl
    · change (s.opened ++ [(path, files path)]).map _ ++ s.watch.source.ready.tail.map Utf8.decodeLossy = s.watch.queued
      rw [← names, ready, List.map_append, List.append_assoc]
      rfl
    · rcases List.eq_nil_or_concat back with rfl | ⟨earlier, last, rfl⟩
      · obtain ⟨-, same⟩ := List.append_inj' split rfl
        rw [List.singleton_inj, Prod.mk.injEq] at same
        exact ⟨rfl, f, same.2, failing⟩
      · rw [List.concat_eq_append, ← List.cons_append, ← List.append_assoc] at split
        obtain ⟨before, -⟩ := List.append_inj' split rfl
        obtain ⟨-, g, found, -⟩ := stuck front path' f earlier before failing
        cases found

theorem scan_reads (inv : Reads s) (listing : List Entry) (fails : Bool) : Reads (s.scan listing fails) := by
  obtain ⟨told, names, stuck⟩ := inv
  rcases scan_steps s listing fails with same | ⟨current, ready, same⟩
  · rw [same]
    exact ⟨told, names, stuck⟩
  · rw [same]
    refine ⟨?_, ?_, stuck⟩
    · cases fails with
      | false => exact told
      | true =>
        rw [if_pos rfl, List.filterMap_append]
        change _ ++ [] ++ _ = _
        rw [List.append_nil]
        exact told
    · rw [ready, List.map_nil, List.append_nil] at names
      rw [names]
      change _ = s.watch.queued ++ queuedBy s.watch.source listing
      rw [queuedBy, ready]
      rfl

theorem step_reads (s : Intake) (turn : Turn) (inv : Reads s) : Reads (s.step turn) := by
  cases turn with
  | read => exact read_reads inv
  | openNext files => exact openNext_reads inv files
  | scan listing fails => exact scan_reads inv listing fails

theorem intake_reads (processExisting : Bool) (present : List Entry) (turns : List Turn) :
    Reads (intake processExisting present turns) :=
  Transition.always Reads step_reads turns (start_reads processExisting present)

/-- A file whose reads all succeed has a result for each of its lines. -/
theorem contents_lines {file : Incoming} (whole : file.fails = false) :
    contents (some file) = (Buffered.pieces 10 file.reader.flat).map (lineResult maxFrameBytes) := by
  rw [contents_some, whole]
  generalize file.reader.flat = bytes
  induction length : bytes.length using Nat.strongRecOn generalizing bytes with
  | ind n ih =>
    by_cases empty : bytes = []
    · rw [empty, results_ended _ _ _ (by rw [nextResult, if_pos (Or.inl rfl)])]
      rfl
    · have next : nextResult .line maxFrameBytes false bytes =
          (lineResult maxFrameBytes (Buffered.pieceOf 10 (Buffered.takeThrough 10 bytes).1),
            (Buffered.takeThrough 10 bytes).2) := by
        rw [nextResult, if_neg (by simpa using empty)]
      have going : (nextResult .line maxFrameBytes false bytes).1 ≠ .error .unexpectedEof := by
        rw [next]
        exact lineResult_open _ _
      have shorter := nextResult_shorter .line maxFrameBytes false going
      rw [results_next _ _ _ going, Buffered.pieces_takeThrough empty, List.map_cons]
      rw [next] at shorter ⊢
      rw [ih _ (length ▸ shorter) _ rfl]

section

variable {names : Finset Name} {base : List Name}

/-- Nothing was forgotten, and every name that was queued had kept its size from one scan to a later one. -/
structure Settled (names : Finset Name) (base : List Name) (w : Watch) : Prop where
  watched : Watched names base w
  twice : ∀ name ∈ w.queued, ListedTwice w.listings name

theorem latest_lists {listings : List (List Entry)} {name : Name} {size : Nat}
    (last : Registers.latest (said name) listings.flatten = some size) :
    ∃ before ∈ listings, Lists before name size := by
  obtain ⟨e, member, told⟩ := Registers.latest_eq_some last
  obtain ⟨before, listed, inside⟩ := List.mem_flatten.mp member
  unfold said at told
  split at told
  · rename_i named
    exact ⟨before, listed, e, inside, named, told⟩
  · cases told

theorem scan_settled (few : names.card ≤ maxSeen) {w : Watch} (settled : Settled names base w) {listing : List Entry}
    (distinct : (fileNames listing).Nodup) (inside : ∀ name ∈ fileNames listing, name ∈ names) :
    Settled names base (w.step (.scan listing)) := by
  obtain ⟨watched, twice⟩ := settled
  refine ⟨step_watched few watched (.scan listing) distinct inside, fun name queued => ?_⟩
  rcases List.mem_append.mp queued with before | new
  · obtain ⟨size, front, later, back, split, lists, earlier⟩ := twice name before
    refine ⟨size, front, later, back ++ [listing], ?_, lists, earlier⟩
    change w.listings ++ [listing] = _
    rw [split, List.append_assoc]
    rfl
  · obtain ⟨-, size, lists, last⟩ := (scan_queues_iff few listing watched.tracks inside distinct name).mp new
    exact ⟨size, w.listings, listing, [], rfl, lists, latest_lists last⟩

theorem step_settled (few : names.card ≤ maxSeen) (s : Intake) (turn : Turn) (settled : Settled names base s.watch)
    (orderly : turn.Orderly names) : Settled names base (s.step turn).watch := by
  cases turn with
  | read =>
    rcases read_steps s with ⟨-, same⟩ | ⟨_, _, _, _, -, -, -, -, same⟩ | ⟨_, -, -, -, same⟩ |
      ⟨_, _, -, -, -, -, same⟩
    all_goals
      rw [Intake.step, same]
      exact settled
  | openNext files =>
    rcases openNext_steps s files with ⟨-, same⟩ | ⟨_, _, -, -, same⟩
    · rw [Intake.step, same]
      exact settled
    · rw [Intake.step, same]
      exact ⟨step_watched few settled.watched .next trivial trivial, settled.twice⟩
  | scan listing fails =>
    rcases scan_steps s listing fails with same | ⟨-, -, same⟩
    · rw [Intake.step, same]
      exact settled
    · rw [Intake.step, same]
      exact scan_settled few settled orderly.1 orderly.2

theorem intake_settled (few : names.card ≤ maxSeen) (processExisting : Bool) {present : List Entry}
    (distinct : (fileNames present).Nodup) (inside : ∀ name ∈ fileNames present, name ∈ names) {turns : List Turn}
    (orderly : ∀ turn ∈ turns, turn.Orderly names) :
    Settled names (if processExisting then [] else fileNames present) (intake processExisting present turns).watch :=
  Transition.invariant (fun s : Intake => Settled names _ s.watch) (step_settled few)
    ⟨start_watched distinct inside, fun _ member => absurd member List.not_mem_nil⟩
    (Transition.Allowed.of_forall fun _ => orderly)

end

section

variable (files : Bytes → Option Incoming)

theorem read_left (readable : s.Readable files) :
    s.read.Readable files ∧ s.read.toRead files = s.toRead files ∧
      (s.current = none ∧ s.read = s ∨ s.read.weight files < s.weight files) := by
  rcases read_steps s with ⟨none, same⟩ | ⟨file, result, line, r, current, -, -, less, same⟩ |
    ⟨file, current, -, -, same⟩ | ⟨file, r, current, fails, -, -, -⟩
  · rw [same]
    exact ⟨readable, rfl, Or.inl ⟨none, rfl⟩⟩
  · rw [same]
    refine ⟨⟨fun f found => ?_, readable.2⟩, rfl, Or.inr ?_⟩
    · cases found
      exact readable.1 file current
    · simp only [Intake.weight, current, weightOf]
      omega
  · rw [same]
    refine ⟨⟨fun f found => ?_, readable.2⟩, rfl, Or.inr ?_⟩
    · cases found
    · simp only [Intake.weight, current, weightOf]
      omega
  · have whole := readable.1 file current
    rw [fails] at whole
    cases whole

theorem openNext_left (readable : s.Readable files) :
    (s.openNext files).Readable files ∧ (s.openNext files).toRead files = s.toRead files ∧
      ((s.current = none → s.watch.source.ready = []) ∧ s.openNext files = s ∨
        (s.openNext files).weight files < s.weight files) := by
  rcases openNext_steps s files with ⟨rest, same⟩ | ⟨path, rest, current, ready, same⟩
  · rw [same]
    exact ⟨readable, rfl, Or.inl ⟨rest, rfl⟩⟩
  · rw [same]
    have next : (s.watch.step .next).source.ready = rest := by
      change s.watch.source.ready.tail = rest
      rw [ready]
      rfl
    obtain ⟨-, queue⟩ := readable
    rw [ready] at queue
    obtain ⟨first, others⟩ := List.forall_mem_cons.mp queue
    refine ⟨⟨first, ?_⟩, ?_, Or.inr ?_⟩
    · dsimp only
      rw [next]
      exact others
    · simp only [Intake.toRead, next, ready, List.map_cons, List.append_assoc, List.cons_append, List.nil_append]
    · simp only [Intake.weight, next, ready, current, List.map_cons, List.sum_cons, weightOf]
      omega

theorem weight_zero (zero : s.weight files = 0) : s.current = none ∧ s.watch.source.ready = [] := by
  unfold Intake.weight at zero
  refine ⟨?_, ?_⟩
  · cases current : s.current with
    | none => rfl
    | some file =>
      rw [current, weightOf] at zero
      omega
  · cases ready : s.watch.source.ready with
    | nil => rfl
    | cons path rest =>
      rw [ready, List.map_cons, List.sum_cons] at zero
      omega

/-- A read and an open get on with the files, unless all are read. -/
theorem pass_left (readable : s.Readable files) :
    ((pass files).foldl Intake.step s).Readable files ∧
      ((pass files).foldl Intake.step s).toRead files = s.toRead files ∧
      ((pass files).foldl Intake.step s).weight files ≤ s.weight files - 1 := by
  change (s.read.openNext files).Readable files ∧ (s.read.openNext files).toRead files = s.toRead files ∧
    (s.read.openNext files).weight files ≤ s.weight files - 1
  obtain ⟨first, same, reads⟩ := read_left files readable
  obtain ⟨second, same', opens⟩ := openNext_left files first
  refine ⟨second, same'.trans same, ?_⟩
  rcases opens with ⟨empty, idle⟩ | less
  · rw [idle]
    rcases reads with ⟨none, still⟩ | less
    · rw [still] at empty ⊢
      rw [Intake.weight, none, empty none]
      exact Nat.zero_le _
    · omega
  · rcases reads with ⟨-, still⟩ | less'
    · rw [still] at less ⊢
      omega
    · omega

theorem passes_left (readable : s.Readable files) (n : Nat) :
    ((List.replicate n (pass files)).flatten.foldl Intake.step s).toRead files = s.toRead files ∧
      ((List.replicate n (pass files)).flatten.foldl Intake.step s).weight files ≤ s.weight files - n := by
  induction n generalizing s with
  | zero => exact ⟨rfl, Nat.le_refl _⟩
  | succ n ih =>
    obtain ⟨next, same, less⟩ := pass_left files readable
    obtain ⟨all, rest⟩ := ih next
    rw [List.replicate_succ, List.flatten_cons, List.foldl_append]
    exact ⟨all.trans same, by omega⟩

theorem passes_read (readable : s.Readable files) {n : Nat} (enough : s.weight files ≤ n) :
    let done := (List.replicate n (pass files)).flatten.foldl Intake.step s
    done.current = none ∧ done.watch.source.ready = [] ∧ done.opened = s.toRead files := by
  obtain ⟨same, less⟩ := passes_left files readable n
  obtain ⟨current, ready⟩ := weight_zero files (Nat.le_zero.mp (less.trans (by omega)))
  refine ⟨current, ready, ?_⟩
  rw [← same, Intake.toRead, ready]
  exact (List.append_nil _).symm

end

/-- The files of a watched directory, over any run of polls, opens and reads. What was told of lines, and what the open
    file still has to tell, is what the opened files hold, in the order they were queued, and a file whose reading
    fails is never left. While those it has to read do not fail, as many reads and opens as they have bytes leave
    nothing unread. Where no more names turn up than are remembered, each file is read once, none that was there before,
    and each had kept its size from one poll to a later one. -/
theorem dropped_files_are_read (processExisting : Bool) (present : List Entry) (turns : List Turn) :
    Reads (intake processExisting present turns) ∧
    (∀ file : Incoming, file.fails = false →
      contents (some file) = (Buffered.pieces 10 file.reader.flat).map (lineResult maxFrameBytes)) ∧
    (∀ files, (intake processExisting present turns).Readable files →
      ∀ n, (intake processExisting present turns).weight files ≤ n →
        (intake processExisting present (turns ++ (List.replicate n (pass files)).flatten)).given.filterMap aboutLine =
          ((intake processExisting present turns).toRead files).flatMap fun entry => contents entry.2) ∧
    ∀ names : Finset Name, names.card ≤ maxSeen → (fileNames present).Nodup →
      (∀ name ∈ fileNames present, name ∈ names) → (∀ turn ∈ turns, turn.Orderly names) →
      ((if processExisting then [] else fileNames present) ++ (intake processExisting present turns).watch.queued).Nodup ∧
      ∀ name ∈ (intake processExisting present turns).watch.queued,
        ListedTwice (intake processExisting present turns).watch.listings name := by
  refine ⟨intake_reads _ _ _, fun file whole => contents_lines whole, fun files readable n enough => ?_,
    fun names few distinct inside orderly => ?_⟩
  · obtain ⟨current, -, opened⟩ := passes_read files readable enough
    have told := (intake_reads processExisting present (turns ++ (List.replicate n (pass files)).flatten)).told
    unfold intake at told current opened ⊢
    rw [List.foldl_append] at told ⊢
    rw [current, opened] at told
    rw [← told]
    exact (List.append_nil _).symm
  · obtain ⟨watched, twice⟩ := intake_settled few processExisting distinct inside orderly
    have once := watched.tracks.once
    rw [watched.tracks.order] at once
    exact ⟨once, twice⟩

/-- What a file of two lines gives, the second without a newline. -/
def twoLines (_ : Bytes) : Option Incoming := some ⟨⟨[], [(65, [10, 66])]⟩, false⟩

theorem dropped_file_is_read :
    (intake true [] ([.scan [drop] false, .scan [drop] false] ++
      (List.replicate 6 (pass twoLines)).flatten)).given.filterMap aboutLine = [.ok [65], .ok [66]] := by
  have read := (dropped_files_are_read true [] [.scan [drop] false, .scan [drop] false]).2.2.1 twoLines
    ⟨fun file found => (by cases found), fun path member file found => (by cases found; rfl)⟩ 6 (by decide)
  rw [read]
  decide

end DropProof

import Mathlib.Data.Finset.Card
import AjarConnectors.Registers.Latest
import AjarConnectors.Transition.Run
import AjarConnectors.Utf8.Lossy

namespace DropModel

abbrev Bytes := List UInt8

abbrev Name := List Char

/-- An entry of the directory: its name, and its size where it is a regular file whose metadata can be read. -/
structure Entry where
  fileName : Bytes
  file : Option Nat
  deriving DecidableEq

/-- `to_string_lossy`: the name the code goes by. -/
def Entry.name (e : Entry) : Name := Utf8.decodeLossy e.fileName

def maxSeen : Nat := 100000

structure DirSource where
  seen : Finset Name
  seenOrder : List Name
  settling : Name → Option Nat
  ready : List Bytes

/-- The names of the regular files. -/
def fileNames (listing : List Entry) : List Name := (listing.filter fun e => e.file.isSome).map Entry.name

/-- `open` on the files present now; all of them go to the queue of names, also names that read the same. -/
def openDir (processExisting : Bool) (present : List Entry) : DirSource where
  seen := if processExisting then ∅ else (fileNames present).toFinset
  seenOrder := if processExisting then [] else fileNames present
  settling _ := none
  ready := []

namespace DirSource

/-- The loop of `remember`: the oldest names go until there are few enough. -/
def forget (seen : Finset Name) : List Name → Finset Name × List Name
  | [] => (seen, [])
  | oldest :: order => if maxSeen < seen.card then forget (seen.erase oldest) order else (seen, oldest :: order)

def remember (s : DirSource) (name : Name) : DirSource :=
  if name ∈ s.seen then s
  else
    let left := forget (insert name s.seen) (s.seenOrder ++ [name])
    { s with seen := left.1, seenOrder := left.2 }

/-- One turn of the loop of `scan`. -/
def visit (s : DirSource) (e : Entry) : DirSource :=
  match e.file with
  | none => s
  | some size =>
    if e.name ∈ s.seen then s
    else if s.settling e.name = some size then
      let s := { s with settling := Function.update s.settling e.name none }.remember e.name
      { s with ready := s.ready ++ [e.fileName] }
    else { s with settling := Function.update s.settling e.name (some size) }

/-- A poll of the directory; a listing that breaks off with an error is the entries before. -/
def scan (s : DirSource) (listing : List Entry) : DirSource := listing.foldl visit s

/-- `recv` takes the next settled file. -/
def next (s : DirSource) : DirSource := { s with ready := s.ready.tail }

end DirSource

/-- The names a scan puts into the queue. -/
def queuedBy (s : DirSource) (listing : List Entry) : List Name :=
  ((s.scan listing).ready.drop s.ready.length).map Utf8.decodeLossy

/-- A source with the listings of its scans, oldest first, and the names they queued. -/
structure Watch where
  source : DirSource
  listings : List (List Entry)
  queued : List Name

inductive Op where
  | scan (listing : List Entry)
  | next

namespace Watch

def start (processExisting : Bool) (present : List Entry) : Watch := ⟨openDir processExisting present, [], []⟩

def step (w : Watch) : Op → Watch
  | .scan listing => ⟨w.source.scan listing, w.listings ++ [listing], w.queued ++ queuedBy w.source listing⟩
  | .next => { w with source := w.source.next }

end Watch

/-- The listing has the file with this size. -/
def Lists (listing : List Entry) (name : Name) (size : Nat) : Prop := ∃ e ∈ listing, e.name = name ∧ e.file = some size

/-- The immediately preceding scan listed the file with this size. -/
def ListedBefore (w : Watch) (name : Name) (size : Nat) : Prop :=
  ∃ listing, w.listings.getLast? = some listing ∧ Lists listing name size

/-- What a scan should do: queue exactly the names that are not remembered and that the scan before listed with the same
    size. -/
def Settles (w : Watch) : Op → Prop
  | .scan listing => ∀ name, name ∈ queuedBy w.source listing ↔
      name ∉ w.source.seen ∧ ∃ size, Lists listing name size ∧ ListedBefore w name size
  | .next => True

end DropModel

namespace DropModel

/-- The size an entry gives for a name. -/
def said (name : Name) (e : Entry) : Option Nat := if e.name = name then e.file else none

/-- No two files of a listing have the same name. -/
def Distinct : Op → Prop
  | .scan listing => (fileNames listing).Nodup
  | .next => True

def Within (names : Finset Name) : Op → Prop
  | .scan listing => ∀ name ∈ fileNames listing, name ∈ names
  | .next => True

/-- A file that is not remembered and has the size it was last listed with was listed by the scan before. -/
def Steady (w : Watch) : Op → Prop
  | .scan listing => ∀ name size, name ∉ w.source.seen → Lists listing name size →
      Registers.latest (said name) w.listings.flatten = some size → ListedBefore w name size
  | .next => True

end DropModel

namespace DropProof

open DropModel Registers

theorem mem_fileNames {listing : List Entry} {name : Name} :
    name ∈ fileNames listing ↔ ∃ size, Lists listing name size := by
  simp only [fileNames, List.mem_map, List.mem_filter, Option.isSome_iff_exists]
  constructor
  · rintro ⟨e, ⟨member, size, file⟩, named⟩
    exact ⟨size, e, member, named, file⟩
  · rintro ⟨size, e, member, named, file⟩
    exact ⟨e, ⟨member, size, file⟩, named⟩

theorem fileNames_cons (e : Entry) (listing : List Entry) :
    fileNames (e :: listing) = if e.file.isSome then e.name :: fileNames listing else fileNames listing := by
  rw [fileNames, List.filter_cons]
  split <;> rfl

/-- The names are remembered once each, in the queue and in the set: those of the start, then those queued. The map
    holds the size each other name was last listed with. -/
structure Tracks (names : Finset Name) (base : List Name) (visited : List Entry) (queued : List Name) (s : DirSource) :
    Prop where
  order : s.seenOrder = base ++ queued
  once : s.seenOrder.Nodup
  seen : s.seen = s.seenOrder.toFinset
  within : ∀ name ∈ s.seenOrder, name ∈ names
  settling : ∀ name, s.settling name = if name ∈ s.seen then none else latest (said name) visited

section

variable {names : Finset Name} {base queued : List Name} {visited : List Entry} {s : DirSource}

/-- While there are few names, none is forgotten. -/
theorem remember_few (few : names.card ≤ maxSeen) (tracks : Tracks names base visited queued s) {name : Name}
    (new : name ∉ s.seen) (named : name ∈ names) :
    s.remember name = { s with seen := insert name s.seen, seenOrder := s.seenOrder ++ [name] } := by
  have inside : insert name s.seen ⊆ names := by
    intro other member
    rcases Finset.mem_insert.mp member with rfl | member
    · exact named
    · rw [tracks.seen, List.mem_toFinset] at member
      exact tracks.within other member
  have room : ¬maxSeen < (insert name s.seen).card := Nat.not_lt.mpr ((Finset.card_le_card inside).trans few)
  have keeps : ∀ order, DirSource.forget (insert name s.seen) order = (insert name s.seen, order) := by
    intro order
    cases order with
    | nil => rfl
    | cons oldest order => rw [DirSource.forget, if_neg room]
  rw [DirSource.remember, if_neg new, keeps]

/-- What one entry can do. -/
theorem visit_cases (few : names.card ≤ maxSeen) (tracks : Tracks names base visited queued s) (e : Entry)
    (named : ∀ size, e.file = some size → e.name ∈ names) :
    (s.visit e = s ∧ (e.file = none ∨ e.name ∈ s.seen)) ∨
    (∃ size, e.file = some size ∧ e.name ∉ s.seen ∧ s.settling e.name = some size ∧
      s.visit e = { seen := insert e.name s.seen, seenOrder := s.seenOrder ++ [e.name],
                    settling := Function.update s.settling e.name none, ready := s.ready ++ [e.fileName] }) ∨
    (∃ size, e.file = some size ∧ e.name ∉ s.seen ∧ s.settling e.name ≠ some size ∧
      s.visit e = { s with settling := Function.update s.settling e.name (some size) }) := by
  unfold DirSource.visit
  cases file : e.file with
  | none => exact Or.inl ⟨rfl, Or.inl rfl⟩
  | some size =>
    dsimp only
    by_cases known : e.name ∈ s.seen
    · rw [if_pos known]
      exact Or.inl ⟨rfl, Or.inr known⟩
    · rw [if_neg known]
      by_cases settled : s.settling e.name = some size
      · rw [if_pos settled]
        refine Or.inr (Or.inl ⟨size, rfl, known, settled, ?_⟩)
        have kept := remember_few few tracks known (named size file)
        unfold DirSource.remember at kept ⊢
        rw [if_neg known] at kept
        dsimp only
        rw [if_neg known]
        have left := congrArg (fun t : DirSource => (t.seen, t.seenOrder)) kept
        dsimp only at left
        rw [Prod.mk.injEq] at left
        rw [left.1, left.2]
      · rw [if_neg settled]
        exact Or.inr (Or.inr ⟨size, rfl, known, settled, rfl⟩)

/-- The names one entry puts into the queue. -/
def queuedAt (s : DirSource) (e : Entry) : List Name :=
  if e.file.isSome ∧ e.name ∉ s.seen ∧ s.settling e.name = e.file then [e.name] else []

theorem visit_ready (few : names.card ≤ maxSeen) (tracks : Tracks names base visited queued s) (e : Entry)
    (named : ∀ size, e.file = some size → e.name ∈ names) :
    ∃ new, (s.visit e).ready = s.ready ++ new ∧ new.map Utf8.decodeLossy = queuedAt s e := by
  unfold queuedAt
  rcases visit_cases few tracks e named with ⟨same, idle⟩ | ⟨size, file, new, settled, result⟩ | ⟨size, file, new, other, result⟩
  · refine ⟨[], by rw [same, List.append_nil], ?_⟩
    rw [if_neg]
    · rfl
    · rintro ⟨some, unseen, -⟩
      rcases idle with none | known
      · rw [none] at some
        cases some
      · exact unseen known
  · refine ⟨[e.fileName], by rw [result], ?_⟩
    rw [if_pos ⟨by rw [file]; rfl, new, settled.trans file.symm⟩]
    rfl
  · refine ⟨[], by rw [result, List.append_nil], ?_⟩
    rw [if_neg]
    · rfl
    · rintro ⟨-, -, same⟩
      exact other (same.trans file)

theorem latest_visit (name : Name) (visited : List Entry) (e : Entry) :
    latest (said name) (visited ++ [e]) = (said name e).or (latest (said name) visited) := by
  rw [latest_append, latest_singleton]

theorem visit_tracks (few : names.card ≤ maxSeen) (tracks : Tracks names base visited queued s) (e : Entry)
    (named : ∀ size, e.file = some size → e.name ∈ names) :
    Tracks names base (visited ++ [e]) (queued ++ queuedAt s e) (s.visit e) := by
  unfold queuedAt
  rcases visit_cases few tracks e named with ⟨same, idle⟩ | ⟨size, file, new, settled, result⟩ | ⟨size, file, new, other, result⟩
  · rw [same, if_neg, List.append_nil]
    · refine { tracks with settling := fun name => ?_ }
      rw [tracks.settling name, latest_visit]
      by_cases known : name ∈ s.seen
      · rw [if_pos known, if_pos known]
      · rw [if_neg known, if_neg known, said]
        by_cases here : e.name = name
        · rcases idle with none | seen
          · rw [if_pos here, none, Option.none_or]
          · rw [here] at seen
            exact absurd seen known
        · rw [if_neg here, Option.none_or]
    · rintro ⟨some, unseen, -⟩
      rcases idle with none | known
      · rw [none] at some
        cases some
      · exact unseen known
  · have fresh : e.name ∉ s.seenOrder := by
      rw [tracks.seen, List.mem_toFinset] at new
      exact new
    rw [result, if_pos ⟨by rw [file]; rfl, new, settled.trans file.symm⟩]
    constructor
    · rw [tracks.order, List.append_assoc]
    · rw [List.nodup_append]
      refine ⟨tracks.once, List.nodup_singleton _, ?_⟩
      rintro name member last equal rfl
      rw [List.mem_singleton.mp equal] at member
      exact fresh member
    · ext name
      simp [tracks.seen, or_comm]
    · intro name member
      rcases List.mem_append.mp member with member | last
      · exact tracks.within name member
      · rw [List.mem_singleton.mp last]
        exact named size file
    · intro name
      dsimp only
      by_cases here : name = e.name
      · subst here
        rw [Function.update_self, if_pos (Finset.mem_insert_self _ _)]
      · have apart : said name e = none := if_neg fun same => here same.symm
        rw [Function.update_of_ne here, tracks.settling name, latest_visit, apart, Option.none_or]
        by_cases known : name ∈ s.seen
        · rw [if_pos known, if_pos (Finset.mem_insert_of_mem known)]
        · rw [if_neg known, if_neg fun member => (Finset.mem_insert.mp member).elim here known]
  · rw [result, if_neg, List.append_nil]
    · refine { tracks with settling := fun name => ?_ }
      dsimp only
      by_cases here : name = e.name
      · subst here
        have tells : said e.name e = some size := (if_pos rfl).trans file
        rw [Function.update_self, if_neg new, latest_visit, tells, Option.some_or]
      · have apart : said name e = none := if_neg fun same => here same.symm
        rw [Function.update_of_ne here, tracks.settling name, latest_visit, apart, Option.none_or]
    · rintro ⟨-, -, same⟩
      exact other (same.trans file)

theorem scan_cons (s : DirSource) (e : Entry) (listing : List Entry) :
    s.scan (e :: listing) = (s.visit e).scan listing := rfl

theorem named_head {e : Entry} {listing : List Entry} (inside : ∀ name ∈ fileNames (e :: listing), name ∈ names) :
    ∀ size, e.file = some size → e.name ∈ names :=
  fun size file => inside e.name (mem_fileNames.mpr ⟨size, e, List.mem_cons_self, rfl, file⟩)

theorem named_tail {e : Entry} {listing : List Entry} (inside : ∀ name ∈ fileNames (e :: listing), name ∈ names) :
    ∀ name ∈ fileNames listing, name ∈ names := by
  intro name member
  obtain ⟨size, other, listed, named, file⟩ := mem_fileNames.mp member
  exact inside name (mem_fileNames.mpr ⟨size, other, List.mem_cons_of_mem e listed, named, file⟩)

theorem scan_ready (few : names.card ≤ maxSeen) (listing : List Entry) (tracks : Tracks names base visited queued s)
    (inside : ∀ name ∈ fileNames listing, name ∈ names) :
    ∃ new, (s.scan listing).ready = s.ready ++ new := by
  induction listing generalizing s visited queued with
  | nil => exact ⟨[], (List.append_nil _).symm⟩
  | cons e listing ih =>
    obtain ⟨first, ready, -⟩ := visit_ready few tracks e (named_head inside)
    obtain ⟨later, all⟩ := ih (visit_tracks few tracks e (named_head inside)) (named_tail inside)
    exact ⟨first ++ later, by rw [scan_cons, all, ready, List.append_assoc]⟩

theorem queuedBy_nil (s : DirSource) : queuedBy s [] = [] := by
  change (s.ready.drop s.ready.length).map _ = []
  rw [List.drop_length]
  rfl

theorem queuedBy_cons (few : names.card ≤ maxSeen) (tracks : Tracks names base visited queued s) {e : Entry}
    {listing : List Entry} (inside : ∀ name ∈ fileNames (e :: listing), name ∈ names) :
    queuedBy s (e :: listing) = queuedAt s e ++ queuedBy (s.visit e) listing := by
  obtain ⟨first, ready, names⟩ := visit_ready few tracks e (named_head inside)
  obtain ⟨later, all⟩ := scan_ready few listing (visit_tracks few tracks e (named_head inside)) (named_tail inside)
  rw [queuedBy, queuedBy, scan_cons, all, ready, List.append_assoc, List.drop_left, ← List.append_assoc, List.drop_left,
    List.map_append, names]

theorem scan_tracks (few : names.card ≤ maxSeen) (listing : List Entry) (tracks : Tracks names base visited queued s)
    (inside : ∀ name ∈ fileNames listing, name ∈ names) :
    Tracks names base (visited ++ listing) (queued ++ queuedBy s listing) (s.scan listing) := by
  induction listing generalizing s visited queued with
  | nil =>
    rw [queuedBy_nil, List.append_nil, List.append_nil]
    exact tracks
  | cons e listing ih =>
    have later := ih (visit_tracks few tracks e (named_head inside)) (named_tail inside)
    rw [queuedBy_cons few tracks inside, scan_cons]
    rw [List.append_assoc, List.append_assoc] at later
    exact later

theorem lists_cons {e : Entry} {listing : List Entry} {name : Name} {size : Nat} :
    Lists (e :: listing) name size ↔ (e.name = name ∧ e.file = some size) ∨ Lists listing name size := by
  unfold DropModel.Lists
  constructor
  · rintro ⟨other, member, named, file⟩
    rcases List.mem_cons.mp member with rfl | member
    · exact Or.inl ⟨named, file⟩
    · exact Or.inr ⟨other, member, named, file⟩
  · rintro (⟨named, file⟩ | ⟨other, member, named, file⟩)
    · exact ⟨e, List.mem_cons_self, named, file⟩
    · exact ⟨other, List.mem_cons_of_mem e member, named, file⟩

theorem mem_queuedAt {e : Entry} {name : Name} : name ∈ queuedAt s e ↔
    e.name = name ∧ name ∉ s.seen ∧ ∃ size, e.file = some size ∧ s.settling name = some size := by
  unfold queuedAt
  split
  · rename_i settles
    obtain ⟨file, new, same⟩ := settles
    obtain ⟨size, file⟩ := Option.isSome_iff_exists.mp file
    rw [List.mem_singleton]
    constructor
    · rintro rfl
      exact ⟨rfl, new, size, file, same.trans file⟩
    · exact fun found => found.1.symm
  · rename_i waits
    constructor
    · intro member
      cases member
    · rintro ⟨rfl, new, size, file, same⟩
      exact absurd ⟨by rw [file]; rfl, new, same.trans file.symm⟩ waits

/-- A scan queues the names that are not remembered and have the size they were last listed with. -/
theorem scan_queues_iff (few : names.card ≤ maxSeen) (listing : List Entry) (tracks : Tracks names base visited queued s)
    (inside : ∀ name ∈ fileNames listing, name ∈ names) (distinct : (fileNames listing).Nodup) (name : Name) :
    name ∈ queuedBy s listing ↔
      name ∉ s.seen ∧ ∃ size, Lists listing name size ∧ latest (said name) visited = some size := by
  induction listing generalizing s visited queued with
  | nil =>
    rw [queuedBy_nil]
    constructor
    · intro member
      cases member
    · rintro ⟨_, _, ⟨_, member, _⟩, _⟩
      cases member
  | cons e listing ih =>
    have next := visit_tracks few tracks e (named_head inside)
    have shorter : (fileNames listing).Nodup := by
      rw [fileNames_cons] at distinct
      split at distinct
      · exact (List.nodup_cons.mp distinct).2
      · exact distinct
    rw [queuedBy_cons few tracks inside, List.mem_append, mem_queuedAt, ih next (named_tail inside) shorter]
    by_cases here : e.name = name ∧ e.file.isSome = true
    · obtain ⟨rfl, file⟩ := here
      obtain ⟨size, file⟩ := Option.isSome_iff_exists.mp file
      have once : ∀ other, ¬Lists listing e.name other := by
        intro other listed
        rw [fileNames_cons, if_pos (by rw [file]; rfl)] at distinct
        exact (List.nodup_cons.mp distinct).1 (mem_fileNames.mpr ⟨other, listed⟩)
      have only : ∀ other, Lists (e :: listing) e.name other ↔ e.file = some other := by
        intro other
        rw [lists_cons, or_iff_left (once other), and_iff_right rfl]
      have none : ¬(e.name ∉ (s.visit e).seen ∧ ∃ size, Lists listing e.name size ∧
          latest (said e.name) (visited ++ [e]) = some size) := fun found => found.2.elim fun other both => once other both.1
      rw [or_iff_left none, and_iff_right rfl]
      apply and_congr_right
      intro new
      rw [tracks.settling, if_neg new]
      simp only [only]
    · have apart : said name e = Option.none := by
        unfold said
        split
        · rename_i same
          cases file : e.file with
          | none => rfl
          | some size => exact absurd ⟨same, by rw [file]; rfl⟩ here
        · rfl
      have absent : ∀ size, ¬(e.name = name ∧ e.file = some size) := by
        rintro size ⟨same, file⟩
        exact here ⟨same, by rw [file]; rfl⟩
      have elsewhere : ¬(e.name = name ∧ name ∉ s.seen ∧ ∃ size, e.file = some size ∧ s.settling name = some size) :=
        fun found => found.2.2.elim fun size both => absent size ⟨found.1, both.1⟩
      have seen : name ∉ (s.visit e).seen ↔ name ∉ s.seen := by
        rcases visit_cases few tracks e (named_head inside) with ⟨same, -⟩ | ⟨size, file, -, -, result⟩ | ⟨_, -, -, -, result⟩
        · rw [same]
        · rw [result]
          have different : name ≠ e.name := fun same => absent size ⟨same.symm, file⟩
          simp [different]
        · rw [result]
      rw [or_iff_right elsewhere, seen, latest_visit, apart, Option.none_or]
      simp only [lists_cons, absent, false_or]

end

theorem lists_unique {listing : List Entry} (distinct : (fileNames listing).Nodup) {name : Name} {size other : Nat}
    (here : Lists listing name size) (there : Lists listing name other) : size = other := by
  obtain ⟨e, member, named, file⟩ := here
  obtain ⟨e', member', named', file'⟩ := there
  have first : e ∈ listing.filter fun e => e.file.isSome := List.mem_filter.mpr ⟨member, by rw [file]; rfl⟩
  have second : e' ∈ listing.filter fun e => e.file.isSome := List.mem_filter.mpr ⟨member', by rw [file']; rfl⟩
  have same := List.inj_on_of_nodup_map distinct first second (named.trans named'.symm)
  rw [same, file'] at file
  exact (Option.some.inj file).symm

/-- The last of the listings tells the size a file of it was last listed with. -/
theorem latest_of_listedBefore {w : Watch} (distinct : ∀ listing ∈ w.listings, (fileNames listing).Nodup) {name : Name}
    {size : Nat} (before : ListedBefore w name size) : latest (said name) w.listings.flatten = some size := by
  obtain ⟨listing, last, lists⟩ := before
  obtain ⟨earlier, shape⟩ := List.getLast?_eq_some_iff.mp last
  have tells : ∀ e ∈ listing, ∀ other, said name e = some other → Lists listing name other := by
    intro e member other told
    unfold said at told
    split at told
    · rename_i named
      exact ⟨e, member, named, told⟩
    · cases told
  have inside : latest (said name) listing = some size := by
    cases found : latest (said name) listing with
    | none =>
      obtain ⟨e, member, named, file⟩ := lists
      have silent := latest_eq_none_iff.mp found e member
      rw [said, if_pos named, file] at silent
      cases silent
    | some other =>
      obtain ⟨e, member, told⟩ := latest_eq_some found
      have distinct := distinct listing (List.mem_of_getLast? last)
      rw [lists_unique distinct (tells e member other told) lists]
  rw [shape, List.flatten_append, List.flatten_singleton, latest_append, inside, Option.some_or]

/-- What holds after every scan: nothing was forgotten, and no listing so far had a name twice. -/
structure Watched (names : Finset Name) (base : List Name) (w : Watch) : Prop where
  tracks : Tracks names base w.listings.flatten w.queued w.source
  distinct : ∀ listing ∈ w.listings, (fileNames listing).Nodup

section

variable {names : Finset Name} {base : List Name}

theorem start_watched {processExisting : Bool} {present : List Entry} (distinct : (fileNames present).Nodup)
    (inside : ∀ name ∈ fileNames present, name ∈ names) :
    Watched names (if processExisting then [] else fileNames present) (Watch.start processExisting present) := by
  refine ⟨?_, fun _ member => absurd member List.not_mem_nil⟩
  have settling : ∀ name : Name, none = if name ∈ (openDir processExisting present).seen then none else
      latest (said name) ([] : List Entry) := fun name => (ite_self none).symm
  cases processExisting with
  | true => exact ⟨rfl, List.nodup_nil, rfl, List.forall_mem_nil _, settling⟩
  | false => exact ⟨(List.append_nil _).symm, distinct, rfl, inside, settling⟩

theorem step_watched (few : names.card ≤ maxSeen) {w : Watch} (watched : Watched names base w) (op : Op)
    (distinct : Distinct op) (inside : Within names op) : Watched names base (w.step op) := by
  cases op with
  | next => exact ⟨{ watched.tracks with }, watched.distinct⟩
  | scan listing =>
    refine ⟨?_, ?_⟩
    · have tracks := scan_tracks few listing watched.tracks inside
      rw [Watch.step, List.flatten_append, List.flatten_singleton]
      exact tracks
    · intro other member
      rcases List.mem_append.mp member with earlier | last
      · exact watched.distinct other earlier
      · rw [List.mem_singleton.mp last]
        exact distinct

/-- A scan settles rightly exactly when no file comes back with the size it had before it was gone. -/
theorem settles_iff (few : names.card ≤ maxSeen) {w : Watch} (watched : Watched names base w) (op : Op)
    (distinct : Distinct op) (inside : Within names op) : Settles w op ↔ Steady w op := by
  cases op with
  | next => exact Iff.rfl
  | scan listing =>
    have queues := scan_queues_iff few listing watched.tracks inside distinct
    constructor
    · intro settles name size new lists latest
      obtain ⟨-, other, lists', before⟩ := (settles name).mp ((queues name).mpr ⟨new, size, lists, latest⟩)
      rw [lists_unique distinct lists lists']
      exact before
    · intro steady name
      rw [queues]
      apply and_congr_right
      intro new
      constructor
      · rintro ⟨size, lists, latest⟩
        exact ⟨size, lists, steady name size new lists latest⟩
      · rintro ⟨size, lists, before⟩
        exact ⟨size, lists, latest_of_listedBefore watched.distinct before⟩

theorem run_settles_iff (few : names.card ≤ maxSeen) (ops : List Op) {w : Watch} (watched : Watched names base w)
    (allowed : ∀ op ∈ ops, Distinct op ∧ Within names op) :
    (Transition.Allowed Watch.step Settles w ops ↔ Transition.Allowed Watch.step Steady w ops) ∧
      Watched names base (ops.foldl Watch.step w) := by
  induction ops generalizing w with
  | nil => exact ⟨Iff.rfl, watched⟩
  | cons op ops ih =>
    obtain ⟨⟨distinct, inside⟩, later⟩ := List.forall_mem_cons.mp allowed
    obtain ⟨rest, final⟩ := ih (step_watched few watched op distinct inside) later
    exact ⟨and_congr (settles_iff few watched op distinct inside) rest, final⟩

/-- In every run a file is queued exactly when its size is that of the scan before, if and only if no file that is not
    remembered is ever gone for a scan and back with the size it had. No name is queued twice, and the set of names is
    always the queue of names. -/
theorem directory_settles_iff (few : names.card ≤ maxSeen) (processExisting : Bool) {present : List Entry}
    (distinct : (fileNames present).Nodup) (inside : ∀ name ∈ fileNames present, name ∈ names) (ops : List Op)
    (allowed : ∀ op ∈ ops, Distinct op ∧ Within names op) :
    (Transition.Allowed Watch.step Settles (.start processExisting present) ops ↔
      Transition.Allowed Watch.step Steady (.start processExisting present) ops) ∧
    (ops.foldl Watch.step (.start processExisting present)).queued.Nodup ∧
    (ops.foldl Watch.step (.start processExisting present)).source.seenOrder.Nodup ∧
    (ops.foldl Watch.step (.start processExisting present)).source.seen =
      (ops.foldl Watch.step (.start processExisting present)).source.seenOrder.toFinset := by
  obtain ⟨settles, watched⟩ := run_settles_iff few ops (start_watched distinct inside) allowed
  have once := watched.tracks.once
  refine ⟨settles, ?_, once, watched.tracks.seen⟩
  rw [watched.tracks.order] at once
  exact (List.nodup_append.mp once).2.1

end

def drop : Entry := ⟨[0x61], some 5⟩

theorem drop_names : fileNames [drop] = [['a']] := by decide

/-- A file that two scans list alike is queued by the second. -/
theorem quiet_file_settles :
    Transition.Allowed Watch.step Settles (.start true []) [.scan [drop], .scan [drop], .next] := by
  have few : ({['a']} : Finset Name).card ≤ maxSeen := by decide
  have empty : (fileNames []).Nodup := List.nodup_nil
  refine (directory_settles_iff few true empty (List.forall_mem_nil _) _ ?_).1.mpr ?_
  · have scan : Distinct (.scan [drop]) ∧ Within {['a']} (.scan [drop]) := by
      rw [Distinct, Within, drop_names]
      exact ⟨List.nodup_singleton _, by simp⟩
    simp only [List.forall_mem_cons]
    exact ⟨scan, scan, ⟨trivial, trivial⟩, List.forall_mem_nil _⟩
  · refine ⟨?_, ?_, trivial, trivial⟩
    · intro name size _ _ last
      cases last
    · intro name size _ _ last
      obtain ⟨e, member, told⟩ := latest_eq_some last
      unfold said at told
      split at told
      · rename_i named
        exact ⟨[drop], rfl, e, member, named, told⟩
      · cases told

/-- A file that is gone for a scan and back with its old size is read at once. -/
theorem returned_file_is_queued :
    ['a'] ∈ queuedBy ([Op.scan [drop], .scan []].foldl Watch.step (.start true [])).source [drop] ∧
      ¬Transition.Allowed Watch.step Settles (.start true []) [.scan [drop], .scan [], .scan [drop]] := by
  have queued : ['a'] ∈ queuedBy ([Op.scan [drop], .scan []].foldl Watch.step (.start true [])).source [drop] := by decide
  refine ⟨queued, fun settles => ?_⟩
  obtain ⟨-, size, -, listing, last, e, member, -⟩ := (settles.2.2.1 ['a']).mp queued
  cases last
  cases member

end DropProof

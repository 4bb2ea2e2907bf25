import AjarConnectors.Up.Open

namespace UpProof

open UpModel FileTree

/-- Every place touched is in the directory. -/
def Stays (dir : Location) (w : World) : Prop := ∀ access ∈ w.trace, dir <+: access.place

section Steps

variable (w : World) (dir : Location)

theorem stays_touch (op : Op) (place : Location) : Stays dir (w.touch op place) ↔ Stays dir w ∧ dir <+: place := by
  unfold Stays World.touch
  simp only [List.forall_mem_append, List.forall_mem_singleton]

theorem stays_hand (accesses : List Access) :
    Stays dir (w.hand accesses) ↔ Stays dir w ∧ ∀ access ∈ accesses, dir <+: access.place := by
  unfold Stays World.hand
  exact List.forall_mem_append

theorem read_tree (path : String) : (w.read dir path).2.tree = w.tree := by
  unfold World.read
  split <;> rfl

theorem stays_read (path : String) :
    Stays dir (w.read dir path).2 ↔ Stays dir w ∧ ∀ place bytes, readable w.tree dir path = some (place, bytes) → dir <+: place := by
  unfold World.read
  cases found : readable w.tree dir path with
  | none => simp
  | some file =>
    simp only [stays_touch, Option.some.injEq]
    constructor
    · rintro ⟨stays, inside⟩
      refine ⟨stays, ?_⟩
      rintro place bytes rfl
      exact inside
    · exact fun ⟨stays, inside⟩ => ⟨stays, inside file.1 file.2 rfl⟩

theorem lock_tree (path : String) : (w.lock dir path).tree = w.tree := by
  unfold World.lock
  split <;> rfl

theorem stays_lock (path : String) :
    Stays dir (w.lock dir path) ↔ Stays dir w ∧ ∀ place, existing w.tree dir path = some place → dir <+: place := by
  unfold World.lock
  cases found : existing w.tree dir path with
  | none => simp
  | some place =>
    simp only [stays_touch, Option.some.injEq, forall_eq']

theorem stays_write (path : String) (bytes : Bytes) :
    Stays dir (w.write dir path bytes).2 ↔ Stays dir w ∧ ∀ place, writable w.tree dir path = some place → dir <+: place := by
  unfold World.write
  cases found : writable w.tree dir path with
  | none => simp
  | some place =>
    simp only [stays_touch, Option.some.injEq, forall_eq']
    rfl

theorem write_ways (path : String) (bytes : Bytes) :
    SameWays (w.write dir path bytes).2.tree w.tree := by
  unfold World.write
  split
  · exact SameWays.refl _
  · rename_i place goes
    exact sameWays_write bytes goes

/-- What was just written is there, at the place it was written to. -/
theorem existing_write {path : String} {bytes : Bytes} {place : Location}
    (found : existing (w.write dir path bytes).2.tree dir path = some place) (done : (w.write dir path bytes).1 = true) :
    writable w.tree dir path = some place := by
  have ways := write_ways w dir path bytes
  have leads := (Option.filter_eq_some_iff.mp found).1
  rw [find_congr ways] at leads
  unfold World.write at done
  split at done
  · cases done
  · rename_i place' goes
    have same := (Option.filter_eq_some_iff.mp goes).1
    rw [leads] at same
    rw [goes, ← same]

end Steps

/-! Opening. -/

section Opening

variable (lib : Libraries) (dir cwd : Location)

/-- Whatever the archive holds, unpacking writes into the directory only. -/
theorem unpackAll_stays (archive : List (Option Member)) (w : World) (stays : Stays dir w) :
    Stays dir (unpackAll dir cwd archive w).2 := by
  induction archive generalizing w with
  | nil => exact stays
  | cons entry rest ih =>
    cases entry with
    | none => exact stays
    | some m =>
      rw [unpackAll]
      split
      · exact stays
      · split
        · exact stays
        · apply ih
          rw [stays_touch]
          exact ⟨stays, List.prefix_append _ _⟩

/-- A read of this name, if it succeeds, is in the directory. -/
def ReadsInside (tree : Tree) (path : String) : Prop :=
  ∀ place bytes, readable tree dir path = some (place, bytes) → dir <+: place

/-- What is there under this name is in the directory. -/
def LeadsInside (tree : Tree) (path : String) : Prop := ∀ place, existing tree dir path = some place → dir <+: place

/-- A write to this name, if it succeeds, is in the directory. -/
def WritesInside (tree : Tree) (path : String) : Prop := ∀ place, writable tree dir path = some place → dir <+: place

theorem readText_tree (w : World) (path : String) : (readText dir w path).2.tree = w.tree := by
  have kept := read_tree w dir path
  unfold readText
  split
  · rename_i read
    rw [read] at kept
    exact kept
  · rename_i read
    rw [read] at kept
    split <;> exact kept

theorem stays_readText (w : World) (path : String) :
    Stays dir (readText dir w path).2 ↔ Stays dir w ∧ ReadsInside dir w.tree path := by
  have known := stays_read w dir path
  unfold readText
  split
  · rename_i read
    rw [read] at known
    exact known
  · rename_i read
    rw [read] at known
    split <;> exact known

theorem checkFiles_tree (files : List FileEntry) (w : World) : (checkFiles lib dir files w).2.tree = w.tree := by
  induction files generalizing w with
  | nil => rfl
  | cons f rest ih =>
    have kept := read_tree w dir f.path
    rw [checkFiles]
    split
    · rename_i read
      rw [read] at kept
      exact kept
    · rename_i read
      rw [read] at kept
      split
      · rw [ih]
        exact kept
      · exact kept

theorem checkFiles_stays (files : List FileEntry) (w : World) (stays : Stays dir w)
    (inside : ∀ f ∈ files, ReadsInside dir w.tree f.path) : Stays dir (checkFiles lib dir files w).2 := by
  induction files generalizing w with
  | nil => exact stays
  | cons f rest ih =>
    have kept := read_tree w dir f.path
    have first := (stays_read w dir f.path).mpr ⟨stays, inside f (List.mem_cons_self ..)⟩
    rw [checkFiles]
    split
    · rename_i read
      rw [read] at first
      exact first
    · rename_i w' read
      rw [read] at first kept
      split
      · apply ih w' first
        intro f member
        rw [kept]
        exact inside f (List.mem_cons_of_mem _ member)
      · exact first

/-- If every checksum matched, every listed file was read. -/
theorem checkFiles_inside (files : List FileEntry) (w : World) (passed : (checkFiles lib dir files w).1 = none)
    (stays : Stays dir (checkFiles lib dir files w).2) : Stays dir w ∧ ∀ f ∈ files, ReadsInside dir w.tree f.path := by
  induction files generalizing w with
  | nil => exact ⟨stays, by simp⟩
  | cons f rest ih =>
    have kept := read_tree w dir f.path
    have known := stays_read w dir f.path
    rw [checkFiles] at passed stays
    split at passed
    · cases passed
    · rename_i data w' read
      rw [read] at kept known stays
      simp only at stays
      split at passed
      · rename_i same
        rw [if_pos same] at stays
        rcases ih w' passed stays with ⟨before, later⟩
        rcases known.mp before with ⟨start, here⟩
        refine ⟨start, ?_⟩
        intro g member
        rcases List.mem_cons.mp member with rfl | member
        · exact here
        · have inside := later g member
          rw [show w'.tree = w.tree from kept] at inside
          exact inside
      · cases passed

theorem lockAll_tree (paths : List String) (w : World) : (paths.foldl (fun w path => w.lock dir path) w).tree = w.tree := by
  induction paths generalizing w with
  | nil => rfl
  | cons path rest ih =>
    rw [List.foldl_cons, ih, lock_tree]

theorem stays_lockAll (paths : List String) (w : World) :
    Stays dir (paths.foldl (fun w path => w.lock dir path) w) ↔ Stays dir w ∧ ∀ path ∈ paths, LeadsInside dir w.tree path := by
  induction paths generalizing w with
  | nil => simp
  | cons path rest ih =>
    rw [List.foldl_cons, ih, stays_lock, lock_tree, List.forall_mem_cons, and_assoc]
    rfl

def signedNames : List String := ["manifest.json", "manifest.sig", "egress.pub"]

/-- The manifest the unpacked directory holds. -/
def manifestIn (tree : Tree) : Option Manifest := (readable tree dir "manifest.json").bind fun file => lib.parseManifest file.2

theorem read_some {w after : World} {path : String} {bytes : Bytes} (read : w.read dir path = (some bytes, after)) :
    ∃ place, readable w.tree dir path = some (place, bytes) := by
  unfold World.read at read
  split at read
  · cases read
  · rename_i place found readableHere
    cases read
    exact ⟨place, readableHere⟩

theorem checkSignature_ok {manifestBytes : Bytes} {sigText pubText : List Char} {m : Manifest}
    (signed : checkSignature lib manifestBytes sigText pubText = .ok m) : lib.parseManifest manifestBytes = some m := by
  unfold checkSignature at signed
  split at signed
  · cases signed
  · split at signed
    · cases signed
    · split at signed
      · cases signed
      · split at signed
        · cases signed
        · rename_i parsed
          simp only at signed
          split at signed
          · cases signed
            exact parsed
          · cases signed

theorem readSigned_tree (w : World) : (readSigned dir w).2.tree = w.tree := by
  have kept := read_tree w dir "manifest.json"
  unfold readSigned
  split
  · rename_i read
    rw [read] at kept
    exact kept
  · rename_i w₁ read
    rw [read] at kept
    have keptSig := readText_tree dir w₁ "manifest.sig"
    split
    · rename_i read
      rw [read] at keptSig
      exact keptSig.trans kept
    · rename_i w₂ read
      rw [read] at keptSig
      have keptPub := readText_tree dir w₂ "egress.pub"
      split
      · rename_i read
        rw [read] at keptPub
        exact keptPub.trans (keptSig.trans kept)
      · rename_i read
        rw [read] at keptPub
        exact keptPub.trans (keptSig.trans kept)

theorem readSigned_stays (w : World) (stays : Stays dir w) (signed : ∀ path ∈ signedNames, ReadsInside dir w.tree path) :
    Stays dir (readSigned dir w).2 := by
  have first := (stays_read w dir "manifest.json").mpr ⟨stays, signed _ (by decide)⟩
  have kept := read_tree w dir "manifest.json"
  unfold readSigned
  split
  · rename_i read
    rw [read] at first
    exact first
  · rename_i w₁ read
    rw [read] at first kept
    rw [← show w₁.tree = w.tree from kept] at signed
    have second := (stays_readText dir w₁ "manifest.sig").mpr ⟨first, signed _ (by decide)⟩
    have keptSig := readText_tree dir w₁ "manifest.sig"
    split
    · rename_i read
      rw [read] at second
      exact second
    · rename_i w₂ read
      rw [read] at second keptSig
      rw [← show w₂.tree = w₁.tree from keptSig] at signed
      have third := (stays_readText dir w₂ "egress.pub").mpr ⟨second, signed _ (by decide)⟩
      split
      · rename_i read
        rw [read] at third
        exact third
      · rename_i read
        rw [read] at third
        exact third

/-- Once all three were read: the manifest's bytes are those of the tree, and staying inside meant all three. -/
theorem readSigned_ok {w after : World} {manifestBytes : Bytes} {sigText pubText : List Char}
    (read : readSigned dir w = (.ok (manifestBytes, sigText, pubText), after)) :
    (∃ place, readable w.tree dir "manifest.json" = some (place, manifestBytes)) ∧
      (Stays dir after → ∀ path ∈ signedNames, ReadsInside dir w.tree path) := by
  have first := stays_read w dir "manifest.json"
  have kept := read_tree w dir "manifest.json"
  unfold readSigned at read
  split at read
  · cases read
  · rename_i bytes w₁ readManifest
    rw [readManifest] at first kept
    have second := stays_readText dir w₁ "manifest.sig"
    have keptSig := readText_tree dir w₁ "manifest.sig"
    split at read
    · cases read
    · rename_i w₂ readSig
      rw [readSig] at second keptSig
      have third := stays_readText dir w₂ "egress.pub"
      split at read
      · cases read
      · rename_i readPub
        rw [readPub] at third
        cases read
        refine ⟨read_some dir readManifest, ?_⟩
        intro stays path member
        obtain ⟨sigInside, pub⟩ := third.mp stays
        obtain ⟨manifestInside, sig⟩ := second.mp sigInside
        obtain ⟨_, manifest⟩ := first.mp manifestInside
        rw [keptSig, kept] at pub
        rw [kept] at sig
        simp only [signedNames, List.mem_cons, List.not_mem_nil, or_false] at member
        rcases member with rfl | rfl | rfl
        · exact manifest
        · exact sig
        · exact pub

/-- The names a manifest makes opening use lead nowhere else. -/
structure FilesInside (tree : Tree) (m : Manifest) : Prop where
  listed : ∀ f ∈ m.files, ReadsInside dir tree f.path
  locked : ∀ path ∈ m.keys.privatePaths, LeadsInside dir tree path

/-- Opening touches no other place if the names it uses lead nowhere else. -/
theorem openPacket_stays (archive : List (Option Member)) (w : World) (stays : Stays dir w)
    (signed : ∀ path ∈ signedNames, ReadsInside dir (unpackAll dir cwd archive w).2.tree path)
    (files : ∀ m, manifestIn lib dir (unpackAll dir cwd archive w).2.tree = some m →
      FilesInside dir (unpackAll dir cwd archive w).2.tree m) :
    Stays dir (openPacket lib dir cwd archive w).2 := by
  have start := unpackAll_stays dir cwd archive w stays
  unfold openPacket
  generalize unpackAll dir cwd archive w = laid at start signed files
  rcases laid with ⟨error, w₀⟩
  cases error with
  | some e => exact start
  | none =>
    have signedInside := readSigned_stays dir w₀ start signed
    have kept := readSigned_tree dir w₀
    simp only
    split
    · rename_i read
      rw [read] at signedInside
      exact signedInside
    · rename_i w₁ read
      obtain ⟨⟨place, found⟩, _⟩ := readSigned_ok dir read
      rw [read] at signedInside kept
      split
      · exact signedInside
      · rename_i m accepted
        have inside := files m (by rw [manifestIn, found]; exact checkSignature_ok lib accepted)
        rw [← show w₁.tree = w₀.tree from kept] at inside
        have filesInside := checkFiles_stays lib dir m.files w₁ signedInside inside.listed
        have keptFiles := checkFiles_tree lib dir m.files w₁
        split
        · rename_i checked
          rw [checked] at filesInside
          exact filesInside
        · rename_i w₂ checked
          rw [checked] at filesInside keptFiles
          rw [← show w₂.tree = w₁.tree from keptFiles] at inside
          rw [stays_lockAll]
          exact ⟨filesInside, inside.locked⟩

/-- An opened packet: the tree it leaves, the manifest it is, and what its staying inside means. -/
theorem openPacket_ok {archive : List (Option Member)} {w after : World} {m : Manifest}
    (opened : openPacket lib dir cwd archive w = (.ok m, after)) :
    after.tree = (unpackAll dir cwd archive w).2.tree ∧ manifestIn lib dir after.tree = some m ∧
      (Stays dir after → (∀ path ∈ signedNames, ReadsInside dir after.tree path) ∧ FilesInside dir after.tree m) := by
  unfold openPacket at opened
  generalize unpackAll dir cwd archive w = laid at opened ⊢
  rcases laid with ⟨error, w₀⟩
  cases error with
  | some e => cases opened
  | none =>
    have kept := readSigned_tree dir w₀
    simp only at opened ⊢
    split at opened
    · cases opened
    · rename_i w₁ read
      obtain ⟨⟨place, found⟩, signedInside⟩ := readSigned_ok dir read
      rw [read] at kept
      split at opened
      · cases opened
      · rename_i m' accepted
        have filesInside := checkFiles_inside lib dir m'.files w₁
        have keptFiles := checkFiles_tree lib dir m'.files w₁
        split at opened
        · cases opened
        · rename_i w₂ checked
          rw [checked] at filesInside keptFiles
          cases opened
          rw [lockAll_tree, keptFiles, kept]
          refine ⟨rfl, ?_, ?_⟩
          · rw [manifestIn, found]
            exact checkSignature_ok lib accepted
          · intro stays
            obtain ⟨checkedInside, locked⟩ := (stays_lockAll dir _ w₂).mp stays
            obtain ⟨readInside, listed⟩ := filesInside rfl checkedInside
            rw [keptFiles, kept] at locked
            rw [kept] at listed
            exact ⟨signedInside readInside, listed, locked⟩

end Opening

/-! Running. -/

section Running

variable (lib : Libraries) (args : Args)

/-- The names a run writes to. -/
def writeNames (m : Manifest) : List String :=
  match m.roleOf with
  | none => []
  | some .producer =>
    (if args.signingKey.join.isSome then m.keys.signingKeyPath.toList else []) ++ [Producer.configName m]
  | some .consumer =>
    if args.check then []
    else if args.toTak.isSome then [m.sourceId ++ "-tak-egress.toml"]
    else if args.toHttp.isSome then [m.sourceId ++ "-http-egress.toml"]
    else []

/-- Whether a run goes on to the preflight or to the tap's connection. -/
def handsOn (m : Manifest) : Bool :=
  match m.roleOf with
  | none => false
  | some .producer => true
  | some .consumer => !args.check && args.toTak.isNone && args.toHttp.isNone

theorem writesInside_congr {tree other : Tree} (same : SameWays tree other) (dir : Location) (path : String) :
    WritesInside dir tree path ↔ WritesInside dir other path := by
  unfold WritesInside
  rw [writable_congr same]

theorem placeSeed_ways (path : String) (w : World) : SameWays (Producer.placeSeed args path w).2.tree w.tree := by
  unfold Producer.placeSeed
  split
  · exact SameWays.refl _
  · rename_i seed _
    have ways := write_ways w args.dir path seed
    split
    · rename_i written
      rw [written] at ways
      exact ways
    · rename_i written
      rw [written] at ways
      rw [lock_tree]
      exact ways
  · exact SameWays.refl _

theorem stays_placeSeed (path : String) (w : World) :
    Stays args.dir (Producer.placeSeed args path w).2 ↔
      Stays args.dir w ∧ (args.signingKey.join.isSome → WritesInside args.dir w.tree path) := by
  unfold Producer.placeSeed
  split
  · rename_i given
    simp [given]
  · rename_i seed given
    have known := stays_write w args.dir path seed
    have there := @existing_write w args.dir path seed
    simp only [given, Option.join_some, Option.isSome_some, forall_const]
    split
    · rename_i written
      rw [written] at known
      exact known
    · rename_i w' written
      rw [written] at known there
      rw [stays_lock]
      constructor
      · exact fun ⟨inside, _⟩ => known.mp inside
      · intro inside
        refine ⟨known.mpr inside, ?_⟩
        intro place found
        exact inside.2 place (there found rfl)
  · rename_i given
    simp [given]

theorem producer_stays {m : Manifest} (role : m.roleOf = some .producer) (handedOn : List Access) (w : World)
    (stays : Stays args.dir w) (writes : ∀ path ∈ writeNames args m, WritesInside args.dir w.tree path)
    (handed : ∀ access ∈ handedOn, args.dir <+: access.place) : Stays args.dir (Producer.run lib args m handedOn w).2 := by
  unfold writeNames at writes
  simp only [role, List.forall_mem_append, List.forall_mem_singleton] at writes
  unfold Producer.run
  split
  · exact stays
  · split
    · exact stays
    · split
      · exact stays
      · rename_i path named
        have ways := placeSeed_ways args path w
        have placed : Stays args.dir (Producer.placeSeed args path w).2 := by
          rw [stays_placeSeed]
          refine ⟨stays, ?_⟩
          intro given
          apply writes.1
          rw [if_pos given, named]
          exact List.mem_singleton_self path
        split
        · rename_i placing
          rw [placing] at placed
          exact placed
        · rename_i w' placing
          rw [placing] at placed ways
          split
          · exact placed
          · rename_i text _
            have written := (stays_write w' args.dir (Producer.configName m) (Utf8.encodeText text.toList)).mpr
              ⟨placed, (writesInside_congr ways _ _).mpr writes.2⟩
            split
            · rename_i writing
              rw [writing] at written
              exact written
            · rename_i writing
              rw [writing] at written
              rw [stays_hand]
              exact ⟨written, handed⟩

/-- A producer's run that went through used every one of its names. -/
theorem producer_inside {m : Manifest} (role : m.roleOf = some .producer) (handedOn : List Access) (w : World)
    (through : (Producer.run lib args m handedOn w).1 = none) (stays : Stays args.dir (Producer.run lib args m handedOn w).2) :
    Stays args.dir w ∧ (∀ path ∈ writeNames args m, WritesInside args.dir w.tree path) ∧
      ∀ access ∈ handedOn, args.dir <+: access.place := by
  unfold writeNames
  simp only [role, List.forall_mem_append, List.forall_mem_singleton]
  unfold Producer.run at through stays
  split at through
  · cases through
  · rename_i protocol
    rw [if_neg protocol] at stays
    split at through
    · cases through
    · rename_i transport
      rw [if_neg transport] at stays
      split at through
      · cases through
      · rename_i path named
        have ways := placeSeed_ways args path w
        have placed := stays_placeSeed args path w
        simp only [named] at stays
        split at through
        · cases through
        · rename_i w' placing
          rw [placing] at placed ways
          simp only [placing] at stays
          split at through
          · cases through
          · rename_i text rendered
            have known := stays_write w' args.dir (Producer.configName m) (Utf8.encodeText text.toList)
            simp only [rendered] at stays
            split at through
            · cases through
            · rename_i writing
              rw [writing] at known
              simp only [writing] at stays
              rw [stays_hand] at stays
              obtain ⟨written, handed⟩ := stays
              obtain ⟨seeded, config⟩ := known.mp written
              obtain ⟨start, seed⟩ := placed.mp seeded
              refine ⟨start, ⟨?_, (writesInside_congr ways _ _).mp config⟩, handed⟩
              intro name member
              split at member
              · rename_i given
                rw [named] at member
                rw [List.mem_singleton.mp member]
                exact seed given
              · cases member

/-- What a consumer delivers, by its flags. -/
theorem deliver_kind {validKey : Bytes → Bool} {m : Manifest} {text : String} {done : Consumer.Delivery}
    (delivered : Consumer.deliver validKey m text ⟨args.toTak, args.toHttp⟩ = .ok done) :
    (∃ subject, done = .tap subject ∧ args.toTak = none ∧ args.toHttp = none) ∨
      ∃ name config, done = .config name config ∧
        ((args.toTak.isSome ∧ name = m.sourceId ++ "-tak-egress.toml") ∨
          (args.toTak = none ∧ args.toHttp.isSome ∧ name = m.sourceId ++ "-http-egress.toml")) := by
  unfold Consumer.deliver at delivered
  split at delivered
  · cases delivered
  · simp only at delivered
    split at delivered
    · rename_i tak given
      split at delivered
      · cases delivered
      · cases delivered
        exact Or.inr ⟨_, _, rfl, Or.inl ⟨by rw [given]; rfl, rfl⟩⟩
    · rename_i noTak
      split at delivered
      · rename_i url given
        split at delivered
        · cases delivered
        · cases delivered
          exact Or.inr ⟨_, _, rfl, Or.inr ⟨noTak, by rw [given]; rfl, rfl⟩⟩
      · rename_i noHttp
        cases delivered
        exact Or.inl ⟨_, rfl, noTak, noHttp⟩

/-- A consumer's run that is not a check: it stays inside if and only if the one name it writes, or what its
    connection touches, does; a refused run only touches less. -/
theorem consumer_names {m : Manifest} (role : m.roleOf = some .consumer) (unchecked : args.check = false) {text : String}
    {done : Consumer.Delivery} (delivered : Consumer.deliver lib.validKey m text ⟨args.toTak, args.toHttp⟩ = .ok done) :
    (∃ subject, done = .tap subject ∧ writeNames args m = [] ∧ handsOn args m = true) ∨
      ∃ name config, done = .config name config ∧ writeNames args m = [name] ∧ handsOn args m = false := by
  unfold writeNames handsOn
  simp only [role, unchecked, Bool.false_eq_true, if_false, Bool.not_false, Bool.true_and]
  rcases deliver_kind args delivered with ⟨subject, tap, noTak, noHttp⟩ | ⟨name, config, written, named⟩
  · left
    refine ⟨subject, tap, ?_⟩
    simp [noTak, noHttp]
  · right
    refine ⟨name, config, written, ?_⟩
    rcases named with ⟨tak, rfl⟩ | ⟨noTak, http, rfl⟩
    · have noneTak : args.toTak.isNone = false := by rw [← Option.not_isSome, tak]; rfl
      simp [tak, noneTak]
    · have noneHttp : args.toHttp.isNone = false := by rw [← Option.not_isSome, http]; rfl
      simp [noTak, http, noneHttp]

theorem consumer_stays {m : Manifest} (role : m.roleOf = some .consumer) (unchecked : args.check = false)
    (handedOn : List Access) (w : World) (stays : Stays args.dir w)
    (writes : ∀ path ∈ writeNames args m, WritesInside args.dir w.tree path)
    (handed : handsOn args m = true → ∀ access ∈ handedOn, args.dir <+: access.place) :
    Stays args.dir (Consumer.run lib args m handedOn w).2 := by
  unfold Consumer.run
  split
  · exact stays
  · rename_i subject delivered
    rw [stays_hand]
    rcases consumer_names lib args role unchecked delivered with ⟨_, _, _, hands⟩ | ⟨_, _, other, _⟩
    · exact ⟨stays, handed hands⟩
    · cases other
  · rename_i name text delivered
    rcases consumer_names lib args role unchecked delivered with ⟨_, other, _⟩ | ⟨_, _, same, names, _⟩
    · cases other
    · cases same
      have written := (stays_write w args.dir name (Utf8.encodeText text.toList)).mpr
        ⟨stays, writes name (by rw [names]; exact List.mem_singleton_self name)⟩
      split
      · rename_i writing
        rw [writing] at written
        exact written
      · rename_i writing
        rw [writing] at written
        exact written

theorem consumer_inside {m : Manifest} (role : m.roleOf = some .consumer) (unchecked : args.check = false)
    (handedOn : List Access) (w : World) (through : (Consumer.run lib args m handedOn w).1 = none)
    (stays : Stays args.dir (Consumer.run lib args m handedOn w).2) :
    Stays args.dir w ∧ (∀ path ∈ writeNames args m, WritesInside args.dir w.tree path) ∧
      (handsOn args m = true → ∀ access ∈ handedOn, args.dir <+: access.place) := by
  unfold Consumer.run at through stays
  split at through
  · cases through
  · rename_i subject delivered
    simp only [delivered] at stays
    rw [stays_hand] at stays
    rcases consumer_names lib args role unchecked delivered with ⟨_, _, names, _⟩ | ⟨_, _, other, _⟩
    · rw [names]
      exact ⟨stays.1, by simp, fun _ => stays.2⟩
    · cases other
  · rename_i name text delivered
    simp only [delivered] at stays
    rcases consumer_names lib args role unchecked delivered with ⟨_, other, _⟩ | ⟨_, _, same, names, hands⟩
    · cases other
    · cases same
      have known := stays_write w args.dir name (Utf8.encodeText text.toList)
      rw [names, hands]
      split at through
      · cases through
      · rename_i writing
        rw [writing] at known
        simp only [writing] at stays
        obtain ⟨start, inside⟩ := known.mp stays
        refine ⟨start, ?_, by simp⟩
        intro path member
        rw [List.mem_singleton.mp member]
        exact inside

end Running

/-! The whole program. -/

section Whole

variable (lib : Libraries) (args : Args)

/-- The tree an archive lays out, up to the first entry that is refused. -/
def laidOut (dir cwd : Location) : List (Option Member) → Tree → Tree
  | some m :: rest, tree =>
    match plainName m.path with
    | none => tree
    | some name =>
      match unpackMember dir cwd tree m name with
      | none => tree
      | some tree => laidOut dir cwd rest tree
  | _, tree => tree

theorem unpackAll_tree (dir cwd : Location) (archive : List (Option Member)) (w : World) :
    (unpackAll dir cwd archive w).2.tree = laidOut dir cwd archive w.tree := by
  induction archive generalizing w with
  | nil => rfl
  | cons entry rest ih =>
    cases entry with
    | none => rfl
    | some m =>
      rw [unpackAll, laidOut]
      cases plainName m.path with
      | none => rfl
      | some name =>
        simp only
        cases unpackMember dir cwd w.tree m name with
        | none => rfl
        | some tree =>
          simp only
          rw [ih]
          rfl

/-- Every name the packet makes the program use leads, in the tree it lays out, into the directory. -/
structure Confined (archive : List (Option Member)) (handedOn : List Access) (tree : Tree) : Prop where
  signed : ∀ path ∈ signedNames, ReadsInside args.dir (laidOut args.dir args.cwd archive tree) path
  files : ∀ m, manifestIn lib args.dir (laidOut args.dir args.cwd archive tree) = some m →
    FilesInside args.dir (laidOut args.dir args.cwd archive tree) m
  written : ∀ m, manifestIn lib args.dir (laidOut args.dir args.cwd archive tree) = some m →
    ∀ path ∈ writeNames args m, WritesInside args.dir (laidOut args.dir args.cwd archive tree) path
  handed : ∀ m, manifestIn lib args.dir (laidOut args.dir args.cwd archive tree) = some m →
    handsOn args m = true → ∀ access ∈ handedOn, args.dir <+: access.place

theorem empty_stays (dir : Location) (tree : Tree) : Stays dir ⟨tree, []⟩ := by
  intro access member
  cases member

theorem confined_stays (archive : List (Option Member)) (handedOn : List Access) {tree start : Tree}
    (made : createDirAll tree args.dir = some start) (confined : Confined lib args archive handedOn start) :
    Stays args.dir (ajarUp lib args archive handedOn tree).2 := by
  have opened := openPacket_stays lib args.dir args.cwd archive ⟨start, []⟩ (empty_stays _ _)
  rw [unpackAll_tree] at opened
  have inside := opened confined.signed confined.files
  unfold ajarUp
  simp only [made]
  split
  · rename_i opening
    rw [opening] at inside
    exact inside
  · rename_i m w opening
    obtain ⟨after, manifest, _⟩ := openPacket_ok lib args.dir args.cwd opening
    rw [unpackAll_tree] at after
    rw [after] at manifest
    have written := confined.written m manifest
    rw [← after] at written
    rw [opening] at inside
    split
    · exact inside
    · rename_i role
      apply producer_stays lib args role handedOn w inside written
      apply confined.handed m manifest
      rw [handsOn, role]
    · rename_i role
      split
      · exact inside
      · rename_i unchecked
        exact consumer_stays lib args role (Bool.eq_false_iff.mpr unchecked) handedOn w inside written (confined.handed m manifest)

theorem stays_confined (archive : List (Option Member)) (handedOn : List Access) {tree start : Tree}
    (made : createDirAll tree args.dir = some start) (through : (ajarUp lib args archive handedOn tree).1 = none)
    (stays : Stays args.dir (ajarUp lib args archive handedOn tree).2) : Confined lib args archive handedOn start := by
  unfold ajarUp at through stays
  simp only [made] at through stays
  split at through
  · cases through
  · rename_i m w opening
    obtain ⟨after, manifest, opened⟩ := openPacket_ok lib args.dir args.cwd opening
    rw [unpackAll_tree] at after
    simp only [opening] at stays
    have known : Stays args.dir w ∧ (∀ path ∈ writeNames args m, WritesInside args.dir w.tree path) ∧
        (handsOn args m = true → ∀ access ∈ handedOn, args.dir <+: access.place) := by
      split at through
      · cases through
      · rename_i role
        simp only [role] at stays
        obtain ⟨start, writes, handed⟩ := producer_inside lib args role handedOn w through stays
        exact ⟨start, writes, fun _ => handed⟩
      · rename_i role
        simp only [role] at stays
        split at through
        · rename_i checked
          rw [if_pos checked] at stays
          refine ⟨stays, ?_, ?_⟩
          · simp [writeNames, role, checked]
          · simp [handsOn, role, checked]
        · rename_i unchecked
          rw [if_neg unchecked] at stays
          exact consumer_inside lib args role (Bool.eq_false_iff.mpr unchecked) handedOn w through stays
    obtain ⟨inside, writes, handed⟩ := known
    obtain ⟨signed, files⟩ := opened inside
    rw [after] at signed files writes manifest
    -- The manifest of the tree is the one that was opened.
    have only (m' : Manifest) (found : manifestIn lib args.dir (laidOut args.dir args.cwd archive start) = some m') : m' = m := by
      rw [manifest] at found
      exact (Option.some.inj found).symm
    constructor
    · exact signed
    · intro m' found
      rw [only m' found]
      exact files
    · intro m' found
      rw [only m' found]
      exact writes
    · intro m' found
      rw [only m' found]
      exact handed

/-- The tree an archive is unpacked in. -/
def workTree (tree : Tree) : Tree := (createDirAll tree args.dir).getD tree

/-- A packet whose names all lead into its directory is run inside it; one that is run to its end inside its
    directory has no other name. -/
theorem packet_stays_iff_confined (archive : List (Option Member)) (handedOn : List Access) (tree : Tree) :
    (Confined lib args archive handedOn (workTree args tree) → Stays args.dir (ajarUp lib args archive handedOn tree).2) ∧
      ((ajarUp lib args archive handedOn tree).1 = none →
        (Stays args.dir (ajarUp lib args archive handedOn tree).2 ↔
          Confined lib args archive handedOn (workTree args tree))) := by
  unfold workTree
  cases made : createDirAll tree args.dir with
  | none =>
    have refused : ajarUp lib args archive handedOn tree = (some .workingDirectory, ⟨tree, []⟩) := by
      simp only [ajarUp, made]
    rw [refused]
    exact ⟨fun _ => empty_stays _ _, fun through => by cases through⟩
  | some start =>
    rw [Option.getD_some]
    constructor
    · exact confined_stays lib args archive handedOn made
    · intro through
      exact ⟨stays_confined lib args archive handedOn made through, confined_stays lib args archive handedOn made⟩

end Whole

/-! A signed manifest that lists a file of the machine. -/

def hostsManifest : Manifest :=
  { manifestVersion := "1.0", sourceId := "radar", natsUrl := "nats://hub", files := [⟨"/etc/hosts", "e3"⟩] }

def hostsTree : Tree := fun loc =>
  if loc = ["etc"] then some .directory else if loc = ["etc", "hosts"] then some (.file []) else none

def hostsLibraries : Libraries where
  validKey _ := true
  verify _ _ _ := true
  sha256 _ := "e3"
  parseManifest _ := some hostsManifest
  render _ _ := none

def hostsArchive : List (Option Member) :=
  [some ⟨"manifest.json", .regular [0x7b, 0x7d]⟩, some ⟨"manifest.sig", .regular (List.replicate 128 0x30)⟩,
    some ⟨"egress.pub", .regular (List.replicate 64 0x30)⟩]

theorem listed_file_is_read_outside :
    ¬ ∀ (lib : Libraries) (args : Args) (archive : List (Option Member)) (handedOn : List Access) (tree : Tree),
      Stays args.dir (ajarUp lib args archive handedOn tree).2 := by
  intro all
  have stays := all hostsLibraries { dir := ["work"], cwd := [] } hostsArchive [] hostsTree
  have outside := stays ⟨.read, ["etc", "hosts"]⟩ (by decide +kernel)
  exact absurd outside (by decide)

end UpProof

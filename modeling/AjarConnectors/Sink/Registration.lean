import AjarConnectors.Cover.Gathering
import AjarConnectors.Hex.Digits
import AjarConnectors.Up.Consumer
import AjarConnectors.Utf8.Lossy
import AjarConnectors.Utf8.Slices

namespace RegistrationModel

open TextModel

abbrev Bytes := List UInt8

/-- What the crate offers for Ed25519 keys. -/
structure Keypairs (SK VK : Type) where
  signingKey : Bytes → SK
  verifyingKey : SK → VK
  toBytes : VK → Bytes
  fromBytes : Bytes → Option VK

structure Keypairs.Correct {SK VK : Type} (kp : Keypairs SK VK) : Prop where
  length : ∀ key, (kp.toBytes key).length = 32
  fromBytes : ∀ sk, kp.fromBytes (kp.toBytes (kp.verifyingKey sk)) = some (kp.verifyingKey sk)

def trimmed (text : List Char) : List Char := (trim (String.ofList text)).toList

def maxFrameBytes : Nat := 64 * 1024

/-! The connector's side: its seed file and its profile. -/

inductive ReadError where
  | notFound
  | other (cause : String)
  deriving DecidableEq

inductive LoadError where
  | notFound
  | reading (cause : String)
  | neither
  | length
  deriving DecidableEq

def LoadError.text (path : String) : LoadError → String
  | .notFound => "signing key " ++ path ++ " not found. If your operator issued a packet, " ++
      "`ajar-up <packet.tar>` places it there; a key you generated yourself " ++
      "goes at this path as 32 raw bytes or 64 hex characters (onboarding guide, Keys)"
  | .reading cause => "reading signing key " ++ path ++ ": " ++ cause
  | .neither => "signing key " ++ path ++ ": neither 32 raw bytes nor 64-char hex"
  | .length => "signing key " ++ path ++ ": hex must decode to exactly 32 bytes"

structure Profile where
  contract : Option String
  sourceId : String
  allowedEntityTypes : List String
  maxPayloadBytes : Option Nat
  verifyingKeyHex : String
  deriving DecidableEq

/-- What a profile takes from the config. The values of the entity map come in whatever order the map has. -/
structure ConnectorConfig where
  sourceId : String
  mapped : List String

def startsWith (p text : String) : Bool := decide (p.toList <+: text.toList)

def allowed (entityTypePrefixes mapped : List String) : List String :=
  Cover.sorted (Cover.addAll startsWith entityTypePrefixes mapped)

def hexEncode (bytes : Bytes) : String := String.ofList (Hex.encode bytes)

/-- Whether the arguments ask to print the profile instead of running. -/
def requested (args : List String) : Bool := args.any fun a => a == "--profile"

/-! The sink's side: its table of keys and the directory next to it. -/

inductive KeyError where
  | notHex
  | length
  | invalid
  deriving DecidableEq

def KeyError.text : KeyError → String
  | .notHex => "not hex"
  | .length => "not 32 bytes"
  | .invalid => "not a valid Ed25519 key"

/-- A directory entry: its name, and what it holds where that can be read. -/
structure DirEntry where
  name : Bytes
  content : Option Bytes
  deriving DecidableEq

/-- The entries of `[sources]` come in whatever order the map has. -/
structure SinkConfig where
  sources : List (String × String)
  sourcesDir : Option String

inductive KeysError where
  | source (source : String) (cause : KeyError)
  | sourcesDir (dir : String)
  | entry
  | unreadableName (dir : String)
  | read (name : Bytes)
  | file (name : Bytes) (cause : KeyError)
  deriving DecidableEq

/-- The parts of a name on both sides of its last dot. -/
def lastDot (name : Bytes) : Option (Bytes × Bytes) :=
  match name.reverse.dropWhile (· ≠ 46) with
  | [] => none
  | _ :: before => some (before.reverse, (name.reverse.takeWhile (· ≠ 46)).reverse)

/-- `Path::file_stem` and `Path::extension`. -/
def splitExtension (name : Bytes) : Bytes × Option Bytes :=
  match lastDot name with
  | none => (name, none)
  | some (before, after) => if before = [] ∨ name = [46, 46] then (name, none) else (before, some after)

section

variable {SK VK : Type} (kp : Keypairs SK VK)

/-- `load` of what reading the path gave. -/
def load : Except ReadError Bytes → Except LoadError SK
  | .error .notFound => .error .notFound
  | .error (.other cause) => .error (.reading cause)
  | .ok raw =>
    if raw.length = 32 then .ok (kp.signingKey raw)
    else match UpModel.hexDecode (trimmed (Utf8.decodeLossy raw)) with
      | none => .error .neither
      | some bytes => if bytes.length = 32 then .ok (kp.signingKey bytes) else .error .length

def Profile.derive (cfg : ConnectorConfig) (verifyingKey : VK) (entityTypePrefixes : List String) : Profile where
  contract := some "v1"
  sourceId := cfg.sourceId
  allowedEntityTypes := allowed entityTypePrefixes cfg.mapped
  maxPayloadBytes := some maxFrameBytes
  verifyingKeyHex := hexEncode (kp.toBytes verifyingKey)

/-- The profile `emit` prints. -/
def emit (cfg : ConnectorConfig) (file : Except ReadError Bytes) (entityTypePrefixes : List String) :
    Except LoadError Profile :=
  match load kp file with
  | .error e => .error e
  | .ok key => .ok (.derive kp cfg (kp.verifyingKey key) entityTypePrefixes)

def decodeKey (hexKey : List Char) : Except KeyError VK :=
  match UpModel.hexDecode (trimmed hexKey) with
  | none => .error .notHex
  | some raw =>
    if raw.length ≠ 32 then .error .length
    else match kp.fromBytes raw with
      | none => .error .invalid
      | some key => .ok key

/-- The latest entry of a source is the one that counts. -/
abbrev KeyTable (VK : Type) := List (String × VK)

def tableKeys (keys : KeyTable VK) : List (String × String) → Except KeysError (KeyTable VK)
  | [] => .ok keys
  | (source, hexKey) :: rest =>
    match decodeKey kp hexKey.toList with
    | .error e => .error (.source source e)
    | .ok key => tableKeys ((source, key) :: keys) rest

def dirKeys (dir : String) (keys : KeyTable VK) : List (Option DirEntry) → Except KeysError (KeyTable VK)
  | [] => .ok keys
  | none :: _ => .error .entry
  | some e :: rest =>
    let (stem, extension) := splitExtension e.name
    if extension.bind Utf8.decode ≠ some "pub".toList then dirKeys dir keys rest
    else match Utf8.decode stem with
      | none => .error (.unreadableName dir)
      | some source =>
        match e.content.bind Utf8.decode with
        | none => .error (.read e.name)
        | some text =>
          match decodeKey kp text with
          | .error cause => .error (.file e.name cause)
          | .ok key => dirKeys dir ((String.ofList source, key) :: keys) rest

/-- `keys`, over what listing the directory gives. -/
def SinkConfig.keys (cfg : SinkConfig) (readDir : String → Option (List (Option DirEntry))) :
    Except KeysError (KeyTable VK) :=
  match tableKeys kp [] cfg.sources with
  | .error e => .error e
  | .ok keys =>
    match cfg.sourcesDir with
    | none => .ok keys
    | some dir =>
      match readDir dir with
      | none => .error (.sourcesDir dir)
      | some entries => dirKeys kp dir keys entries

end

/-! Minting. -/

/-- The files of the directory by name. -/
abbrev Dir := List (Bytes × Bytes)

def Dir.write (dir : Dir) (name content : Bytes) : Dir := (name, content) :: dir.filter fun file => file.1 ≠ name

abbrev Seed := { bytes : Bytes // bytes.length = 32 }

/-- How far a mint gets before it fails or the process dies: nothing is there yet, part of the seed, the seed without
    the public half, part of that too, or everything. -/
inductive Reached where
  | nothing
  | seed (written : Nat)
  | noPub
  | pub (written : Nat)
  | done
  deriving DecidableEq

/-- A call of `mint` for a source whose files lie in the directory itself, with the seed it would draw. -/
structure Mint where
  sourceId : String
  inside : '/' ∉ sourceId.toList
  seed : Seed
  reached : Reached

def seedName (sourceId : String) : Bytes := Utf8.encodeText (sourceId.toList ++ ".seed".toList)

def pubName (sourceId : String) : Bytes := Utf8.encodeText (sourceId.toList ++ ".pub".toList)

section

variable {SK VK : Type} (kp : Keypairs SK VK)

def pubText (seed : Bytes) : Bytes := Utf8.encodeText (Hex.encode (kp.toBytes (kp.verifyingKey (kp.signingKey seed))))

/-- The directory afterwards, and whether `mint` returned `Ok`. An existing seed is kept. -/
def mint (dir : Dir) (m : Mint) : Dir × Bool :=
  if (dir.lookup (seedName m.sourceId)).isSome then (dir, true)
  else match m.reached with
    | .nothing => (dir, false)
    | .seed written => (dir.write (seedName m.sourceId) (m.seed.val.take written), false)
    | .noPub => (dir.write (seedName m.sourceId) m.seed.val, false)
    | .pub written =>
      ((dir.write (seedName m.sourceId) m.seed.val).write (pubName m.sourceId) ((pubText kp m.seed.val).take written), false)
    | .done =>
      ((dir.write (seedName m.sourceId) m.seed.val).write (pubName m.sourceId) (pubText kp m.seed.val), true)

def mintAll (dir : Dir) (ms : List Mint) : Dir := ms.foldl (fun dir m => (mint kp dir m).1) dir

end

/-- The hex digits of the bytes, in either case and with white space around them. -/
def Spells (bytes : Bytes) (text : List Char) : Prop :=
  ∃ lead digits trail, text = lead ++ digits ++ trail ∧ (∀ c ∈ lead, isWhitespace c = true) ∧
    (∀ c ∈ trail, isWhitespace c = true) ∧ digits.map Char.toLower = Hex.encode bytes

/-- A file that holds the seed: its 32 bytes, or a text that spells them. -/
inductive Holds (seed : Seed) : Bytes → Prop where
  | raw : Holds seed seed.val
  | hex {raw : Bytes} (long : raw.length ≠ 32) (spelled : Spells seed.val (Utf8.decodeLossy raw)) : Holds seed raw

/-- What a directory holds in which every mint got to its end: a seed and its public half for each source. -/
structure Minted {SK VK : Type} (kp : Keypairs SK VK) (dir : Dir) : Prop where
  named : ∀ file ∈ dir, ∃ (source : String) (seed : Seed), source ≠ "" ∧ dir.lookup (seedName source) = some seed.val ∧
    (file = (seedName source, seed.val) ∨ file = (pubName source, pubText kp seed.val))
  paired : ∀ source bytes, dir.lookup (seedName source) = some bytes →
    dir.lookup (pubName source) = some (pubText kp bytes)

/-- The files as a listing gives them. -/
def entriesOf (files : List (Bytes × Bytes)) : List (Option DirEntry) := files.map fun file => some ⟨file.1, some file.2⟩

/-- The connector's published test seed and its key. -/
def testSeed : Seed := ⟨List.replicate 32 0x47, List.length_replicate⟩

def testKey : Bytes :=
  [226, 138, 137, 112, 117, 51, 50, 189, 114, 254, 244, 19, 230, 176, 178, 239,
   27, 74, 173, 218, 122, 162, 193, 65, 242, 51, 113, 42, 104, 118, 179, 81]

def testKeypairs : Keypairs Unit Unit where
  signingKey _ := ()
  verifyingKey := id
  toBytes _ := testKey
  fromBytes bytes := if bytes = testKey then some () else none

def otherSeed : Seed := ⟨List.replicate 32 0x48, List.length_replicate⟩

theorem acme_inside : '/' ∉ "acme-1".toList := by decide

def twoStarts : List Mint := [⟨"acme-1", acme_inside, testSeed, .done⟩, ⟨"acme-1", acme_inside, otherSeed, .done⟩]

def testConfig : ConnectorConfig := ⟨"acme-1", ["x:acme:infantry", "mim:aircraft", "x:acme"]⟩

end RegistrationModel

namespace RegistrationProof

open RegistrationModel TextModel

/-! Hex digits and the white space around them. -/

theorem hexValue_small : ∀ k < 128, UpModel.hexValue (Char.ofNat k) =
    if (Char.ofNat k).toLower ∈ Hex.alphabet then some (Hex.alphabet.idxOf (Char.ofNat k).toLower) else none := by
  decide +kernel

theorem toLower_of_large {c : Char} (large : 128 ≤ c.toNat) : c.toLower = c := by
  unfold Char.toLower
  rw [dif_neg]
  intro upper
  have below : c.toNat ≤ 90 := upper.2
  omega

theorem alphabet_small (c : Char) (member : c ∈ Hex.alphabet) : c.toNat < 128 ∧ c.toLower = c := by
  have all : Hex.alphabet.all (fun c => decide (c.toNat < 128 ∧ c.toLower = c)) = true := by decide
  exact of_decide_eq_true (List.all_eq_true.mp all c member)

theorem hexValue_eq (c : Char) : UpModel.hexValue c =
    if c.toLower ∈ Hex.alphabet then some (Hex.alphabet.idxOf c.toLower) else none := by
  by_cases small : c.toNat < 128
  · have here := hexValue_small c.toNat small
    rwa [Char.ofNat_toNat] at here
  · have large := Nat.not_lt.mp small
    rw [toLower_of_large large, if_neg fun member => small (alphabet_small c member).1]
    unfold UpModel.hexValue
    have above {d : Char} (low : d.toNat < 128) : ¬ c ≤ d := by
      intro le
      have : c.toNat ≤ d.toNat := le
      omega
    rw [if_neg fun inside => above (by decide) inside.2, if_neg fun inside => above (by decide) inside.2,
      if_neg fun inside => above (by decide) inside.2]

theorem hexValue_eq_some {c : Char} {n : Nat} : UpModel.hexValue c = some n ↔ n < 16 ∧ c.toLower = Hex.digit n := by
  have alphabet : Hex.alphabet.length = 16 := by decide
  have digits : ∀ n < 16, Hex.alphabet.idxOf (Hex.digit n) = n := by decide
  rw [hexValue_eq]
  constructor
  · intro found
    split at found
    · rename_i member
      cases found
      have inside := List.idxOf_lt_length_of_mem member
      rw [alphabet] at inside
      refine ⟨inside, ?_⟩
      unfold Hex.digit
      rw [List.getD_eq_getElem?_getD, List.getElem?_idxOf member, Option.getD_some]
    · cases found
  · intro found
    obtain ⟨small, same⟩ := found
    rw [same, if_pos (Hex.digit_mem n small), digits n small]

theorem hexDecode_iff {text : List Char} {bytes : List UInt8} :
    UpModel.hexDecode text = some bytes ↔ text.map Char.toLower = Hex.encode bytes := by
  fun_induction UpModel.hexDecode text generalizing bytes with
  | case1 =>
    cases bytes with
    | nil => simp
    | cons b bytes => simp
  | case2 c =>
    cases bytes with
    | nil => simp
    | cons b bytes => simp
  | case3 high low rest h l bytes' isRest isLow isHigh ih =>
    rw [hexValue_eq_some] at isHigh isLow
    have rest' := ih.mp isRest
    rw [Option.some.injEq, List.map_cons, List.map_cons, isHigh.2, isLow.2, rest']
    have whole : (UInt8.ofNat (16 * h + l)).toNat = 16 * h + l := by
      rw [UInt8.toNat_ofNat', Nat.mod_eq_of_lt (by omega)]
    have shape : Hex.digit h :: Hex.digit l :: Hex.encode bytes' = Hex.encode (UInt8.ofNat (16 * h + l) :: bytes') := by
      rw [Hex.encode_cons, whole]
      congr 2
      · omega
      · congr 1
        omega
    rw [shape]
    exact ⟨fun same => by rw [same], fun same => Hex.encode_injective same⟩
  | case4 high low rest absent ih =>
    constructor
    · intro found
      cases found
    · intro same
      cases bytes with
      | nil => simp at same
      | cons b bytes =>
        rw [List.map_cons, List.map_cons, Hex.encode_cons, List.cons.injEq, List.cons.injEq] at same
        exact absurd (ih.mpr same.2.2) (absent _ _ bytes (hexValue_eq_some.mpr ⟨Hex.high_lt b, same.1⟩)
          (hexValue_eq_some.mpr ⟨Hex.low_lt b, same.2.1⟩))

theorem trimmed_split (text : List Char) : ∃ lead trail, text = lead ++ trimmed text ++ trail ∧
    (∀ c ∈ lead, isWhitespace c = true) ∧ ∀ c ∈ trail, isWhitespace c = true := by
  refine ⟨text.takeWhile isWhitespace, ((text.dropWhile isWhitespace).reverse.takeWhile isWhitespace).reverse, ?_,
    fun c member => List.mem_takeWhile_imp member, fun c member => List.mem_takeWhile_imp (List.mem_reverse.mp member)⟩
  unfold trimmed trim
  rw [String.toList_ofList, String.toList_ofList, List.append_assoc, ← List.reverse_append,
    List.takeWhile_append_dropWhile, List.reverse_reverse, List.takeWhile_append_dropWhile]

theorem trimmed_eq {lead inner trail : List Char} (before : ∀ c ∈ lead, isWhitespace c = true)
    (after : ∀ c ∈ trail, isWhitespace c = true) (visible : ∀ c ∈ inner, isWhitespace c = false) :
    trimmed (lead ++ inner ++ trail) = inner := by
  have gone {front : List Char} (blank : ∀ c ∈ front, isWhitespace c = true) (back : List Char) :
      (front ++ back).dropWhile isWhitespace = back.dropWhile isWhitespace := by
    rw [List.dropWhile_append, List.dropWhile_eq_nil_iff.mpr blank]
    rfl
  have stays {front : List Char} (seen : ∀ c ∈ front, isWhitespace c = false) : front.dropWhile isWhitespace = front := by
    cases front with
    | nil => rfl
    | cons c rest => rw [List.dropWhile_cons_of_neg (by rw [seen c List.mem_cons_self]; decide)]
  have seen : ∀ c ∈ inner.reverse, isWhitespace c = false := fun c member => visible c (List.mem_reverse.mp member)
  have blank : ∀ c ∈ trail.reverse, isWhitespace c = true := fun c member => after c (List.mem_reverse.mp member)
  unfold trimmed trim
  rw [String.toList_ofList, String.toList_ofList, List.append_assoc, gone before]
  cases inner with
  | nil =>
    rw [List.nil_append, List.dropWhile_eq_nil_iff.mpr after]
    rfl
  | cons c rest =>
    rw [List.cons_append, List.dropWhile_cons_of_neg (by rw [visible c List.mem_cons_self]; decide), ← List.cons_append,
      List.reverse_append, gone blank, stays seen, List.reverse_reverse]

theorem digit_visible {c : Char} (digit : c.toLower ∈ Hex.alphabet) : isWhitespace c = false := by
  have table : ∀ k < 128, (Char.ofNat k).toLower ∈ Hex.alphabet → isWhitespace (Char.ofNat k) = false := by decide +kernel
  by_cases small : c.toNat < 128
  · have here := table c.toNat small
    rw [Char.ofNat_toNat] at here
    exact here digit
  · rw [toLower_of_large (Nat.not_lt.mp small)] at digit
    exact absurd (alphabet_small c digit).1 small

theorem encode_lower (bytes : Bytes) : (Hex.encode bytes).map Char.toLower = Hex.encode bytes :=
  (List.map_congr_left fun c member => (alphabet_small c (Hex.encode_mem member)).2).trans (List.map_id _)

theorem hexDecode_trimmed_iff {text : List Char} {bytes : Bytes} :
    UpModel.hexDecode (trimmed text) = some bytes ↔ Spells bytes text := by
  rw [hexDecode_iff]
  constructor
  · intro spelled
    obtain ⟨lead, trail, split, before, after⟩ := trimmed_split text
    exact ⟨lead, trimmed text, trail, split, before, after, spelled⟩
  · intro spells
    obtain ⟨lead, digits, trail, rfl, before, after, spelled⟩ := spells
    have visible : ∀ c ∈ digits, isWhitespace c = false := by
      intro c member
      apply digit_visible
      apply Hex.encode_mem
      rw [← spelled]
      exact List.mem_map_of_mem member
    rw [trimmed_eq before after visible, spelled]

theorem spells_unique {text : List Char} {bytes other : Bytes} (first : Spells bytes text) (second : Spells other text) :
    bytes = other := by
  rw [← hexDecode_trimmed_iff] at first second
  rw [first] at second
  exact Option.some.inj second

section

variable {SK VK : Type} (kp : Keypairs SK VK)

theorem load_iff (raw : Bytes) (key : SK) :
    load kp (.ok raw) = .ok key ↔ ∃ seed, Holds seed raw ∧ kp.signingKey seed.val = key := by
  rw [load]
  by_cases short : raw.length = 32
  · rw [if_pos short, Except.ok.injEq]
    constructor
    · exact fun same => ⟨⟨raw, short⟩, .raw, same⟩
    · intro held
      obtain ⟨seed, holds, same⟩ := held
      cases holds with
      | raw => exact same
      | hex long _ => exact absurd short long
  · rw [if_neg short]
    constructor
    · intro loaded
      split at loaded
      · cases loaded
      · rename_i bytes decoded
        split at loaded
        · rename_i sized
          cases loaded
          exact ⟨⟨bytes, sized⟩, .hex short (hexDecode_trimmed_iff.mp decoded), rfl⟩
        · cases loaded
    · intro held
      obtain ⟨seed, holds, rfl⟩ := held
      cases holds with
      | raw => exact absurd seed.property short
      | hex long spelled =>
        rw [hexDecode_trimmed_iff.mpr spelled]
        dsimp only
        rw [if_pos seed.property]

theorem holds_unique {raw : Bytes} {seed other : Seed} (first : Holds seed raw) (second : Holds other raw) :
    seed = other := by
  cases first with
  | raw =>
    generalize held : seed.val = raw at second
    cases second with
    | raw => exact Subtype.ext held
    | hex long _ => exact absurd (held ▸ seed.property) long
  | hex long spelled =>
    cases second with
    | raw => exact absurd other.property long
    | hex _ spelled' => exact Subtype.ext (spells_unique spelled spelled')

/-- A written text that spells a seed is long enough not to be taken for its bytes. -/
theorem holds_of_spells {seed : Seed} {text : List Char} (spells : Spells seed.val text) :
    Holds seed (Utf8.encodeText text) := by
  refine .hex ?_ ?_
  · obtain ⟨lead, digits, trail, rfl, _, _, spelled⟩ := spells
    have size := congrArg List.length spelled
    have long := Utf8.length_le_byteLen (lead ++ digits ++ trail)
    rw [List.length_map, Hex.encode_length, seed.property] at size
    rw [List.length_append, List.length_append, Utf8.byteLen] at long
    omega
  · rw [Utf8.decodeLossy_of_decode (Utf8.decode_encodeText text)]
    exact spells

/-- A seed file is read exactly where it holds a seed, raw or in hex, and no file holds two; every way of writing the
    hex digits down is such a file. -/
theorem seed_files_are_read :
    (∀ raw key, load kp (.ok raw) = .ok key ↔ ∃ seed, Holds seed raw ∧ kp.signingKey seed.val = key) ∧
    (∀ raw seed other, Holds seed raw → Holds other raw → seed = other) ∧
    (∀ seed : Seed, load kp (.ok seed.val) = .ok (kp.signingKey seed.val)) ∧
    ∀ (seed : Seed) (text : List Char), Spells seed.val text →
      load kp (.ok (Utf8.encodeText text)) = .ok (kp.signingKey seed.val) :=
  ⟨load_iff kp, fun _ _ _ first second => holds_unique first second,
    fun seed => (load_iff kp _ _).mpr ⟨seed, .raw, rfl⟩,
    fun seed _ spells => (load_iff kp _ _).mpr ⟨seed, holds_of_spells spells, rfl⟩⟩

theorem testKeypairs_correct : testKeypairs.Correct where
  length _ := rfl
  fromBytes _ := rfl

theorem hex_line_is_read :
    load testKeypairs (.ok (Utf8.encodeText (Hex.encode testSeed.val ++ ['\n']))) = .ok () := by
  have spells : Spells testSeed.val (Hex.encode testSeed.val ++ ['\n']) :=
    ⟨[], Hex.encode testSeed.val, ['\n'], rfl, List.forall_mem_nil _, List.forall_mem_singleton.mpr rfl, encode_lower _⟩
  exact (seed_files_are_read testKeypairs).2.2.2 testSeed _ spells

/-! Profiles. -/

theorem encode_spells (bytes : Bytes) : Spells bytes (Hex.encode bytes) :=
  ⟨[], Hex.encode bytes, [], (List.append_nil _).symm, List.forall_mem_nil _, List.forall_mem_nil _, encode_lower bytes⟩

theorem decodeKey_iff (text : List Char) (key : VK) : decodeKey kp text = .ok key ↔
    ∃ bytes, Spells bytes text ∧ bytes.length = 32 ∧ kp.fromBytes bytes = some key := by
  simp only [← hexDecode_trimmed_iff]
  unfold decodeKey
  cases decoded : UpModel.hexDecode (trimmed text) with
  | none => simp
  | some raw =>
    dsimp only
    by_cases sized : raw.length = 32
    · rw [if_neg fun odd => odd sized]
      cases found : kp.fromBytes raw with
      | none => simp [sized, found]
      | some valid => simp [sized, found]
    · rw [if_pos sized]
      simp [sized]

theorem decodeKey_encode (correct : kp.Correct) (sk : SK) :
    decodeKey kp (Hex.encode (kp.toBytes (kp.verifyingKey sk))) = .ok (kp.verifyingKey sk) :=
  (decodeKey_iff kp _ _).mpr ⟨_, encode_spells _, correct.length _, correct.fromBytes sk⟩

theorem startsWith_iff {p text : String} : startsWith p text = true ↔ p.toList <+: text.toList := decide_eq_true_iff

theorem startsWith_refl (text : String) : startsWith text text = true := startsWith_iff.mpr (List.prefix_refl _)

theorem startsWith_trans {x y z : String} (first : startsWith x y = true) (second : startsWith y z = true) :
    startsWith x z = true :=
  startsWith_iff.mpr ((startsWith_iff.mp first).trans (startsWith_iff.mp second))

theorem covered_allowed_iff (entityTypePrefixes mapped : List String) (entityType : String) :
    (∃ p ∈ allowed entityTypePrefixes mapped, startsWith p entityType = true) ↔
      ∃ p, (p ∈ entityTypePrefixes ∨ p ∈ mapped) ∧ startsWith p entityType = true := by
  rw [← Cover.covered_addAll_iff startsWith_refl startsWith_trans, Cover.covered_iff]
  unfold allowed
  simp only [Cover.mem_sorted]

theorem allowed_order_free_iff (entityTypePrefixes mapped : List String) :
    (∀ mapped', mapped'.Perm mapped → allowed entityTypePrefixes mapped' = allowed entityTypePrefixes mapped) ↔
      ∀ x ∈ mapped, ∀ y ∈ mapped, Cover.covered startsWith entityTypePrefixes x = false →
        Cover.covered startsWith entityTypePrefixes y = false → startsWith x y = true → x = y := by
  rw [← Cover.order_free_iff startsWith_refl]
  unfold allowed
  simp only [Cover.sorted_eq_iff]

/-- The profile a connector prints registers it: the sink reads its key back from the hex, and its allowed types, which
    are sorted and told once, admit exactly what the connector's prefixes and its mapped types admit, in whatever order
    the map came. The text is the same in every order exactly when no mapped type outside the prefixes begins another. -/
theorem profile_registers (correct : kp.Correct) (cfg : ConnectorConfig) (file : Except ReadError Bytes)
    (entityTypePrefixes : List String) (profile : Profile) (emitted : emit kp cfg file entityTypePrefixes = .ok profile) :
    (∃ sk, load kp file = .ok sk ∧ decodeKey kp profile.verifyingKeyHex.toList = .ok (kp.verifyingKey sk)) ∧
    profile.allowedEntityTypes.Pairwise (· < ·) ∧
    (∀ entityType, (∃ p ∈ profile.allowedEntityTypes, startsWith p entityType = true) ↔
      ∃ p, (p ∈ entityTypePrefixes ∨ p ∈ cfg.mapped) ∧ startsWith p entityType = true) ∧
    ((∀ mapped, mapped.Perm cfg.mapped → emit kp { cfg with mapped } file entityTypePrefixes = .ok profile) ↔
      ∀ x ∈ cfg.mapped, ∀ y ∈ cfg.mapped, Cover.covered startsWith entityTypePrefixes x = false →
        Cover.covered startsWith entityTypePrefixes y = false → startsWith x y = true → x = y) := by
  unfold emit at emitted
  split at emitted
  · cases emitted
  · rename_i sk loaded
    cases emitted
    refine ⟨⟨sk, loaded, ?_⟩, Cover.sorted_pairwise _, covered_allowed_iff entityTypePrefixes cfg.mapped, ?_⟩
    · unfold Profile.derive hexEncode
      rw [String.toList_ofList]
      exact decodeKey_encode kp correct sk
    · rw [← allowed_order_free_iff]
      apply forall_congr'
      intro mapped
      apply imp_congr_right
      intro _
      unfold emit Profile.derive
      rw [loaded]
      simp

end

/-- Two of the mapped types lie outside the prefixes, and one of these begins the other: the profile's text depends on
    which of them the map gives first. -/
theorem nested_types_depend_on_order :
    ∃ profile, emit testKeypairs testConfig (.ok testSeed.val) ["mim:"] = .ok profile ∧
      ¬∀ mapped, mapped.Perm testConfig.mapped →
        emit testKeypairs { testConfig with mapped } (.ok testSeed.val) ["mim:"] = .ok profile := by
  have emitted : emit testKeypairs testConfig (.ok testSeed.val) ["mim:"] =
      .ok (.derive testKeypairs testConfig () ["mim:"]) := rfl
  obtain ⟨_, _, _, free⟩ := profile_registers testKeypairs testKeypairs_correct testConfig _ _ _ emitted
  refine ⟨_, emitted, fun same => ?_⟩
  have equal := free.mp same "x:acme" (by decide) "x:acme:infantry" (by decide) (by decide) (by decide) (by decide)
  exact absurd equal (by decide)

/-! Minting. -/

theorem lookup_write (dir : Dir) (name content other : Bytes) :
    (dir.write name content).lookup other = if other = name then some content else dir.lookup other := by
  unfold Dir.write
  by_cases same : other = name
  · rw [if_pos same, same, List.lookup_cons_self]
  · rw [if_neg same, List.lookup_cons, beq_false_of_ne same]
    induction dir with
    | nil => rfl
    | cons file dir ih =>
      obtain ⟨here, bytes⟩ := file
      by_cases gone : here = name
      · have differs : (other == here) = false := by
          rw [gone]
          exact beq_false_of_ne same
        rw [List.filter_cons_of_neg (by rw [gone]; simp), List.lookup_cons, differs]
        exact ih
      · rw [List.filter_cons_of_pos (by simpa using gone), List.lookup_cons, List.lookup_cons]
        cases other == here with
        | true => rfl
        | false => exact ih

theorem encodeText_injective : Function.Injective Utf8.encodeText := by
  intro a b same
  have decoded := congrArg Utf8.decode same
  rw [Utf8.decode_encodeText, Utf8.decode_encodeText] at decoded
  exact Option.some.inj decoded

theorem seedName_injective : Function.Injective seedName :=
  fun _ _ same => String.toList_inj.mp (List.append_cancel_right (encodeText_injective same))

theorem pubName_injective : Function.Injective pubName :=
  fun _ _ same => String.toList_inj.mp (List.append_cancel_right (encodeText_injective same))

theorem seedName_ne_pubName (source other : String) : seedName source ≠ pubName other := by
  intro same
  have last := congrArg List.getLast? (encodeText_injective same)
  have seed : ".seed".toList.getLast? = some 'd' := by decide
  have pub : ".pub".toList.getLast? = some 'b' := by decide
  rw [List.getLast?_append, List.getLast?_append, seed, pub, Option.some_or, Option.some_or] at last
  exact absurd last (by decide)

theorem pubName_ne_seedName (source other : String) : pubName source ≠ seedName other :=
  fun same => seedName_ne_pubName other source same.symm

section

variable {SK VK : Type} (kp : Keypairs SK VK)

/-- A mint leaves alone the files of every other source, and those of a source whose seed is there. -/
theorem mint_keeps (dir : Dir) (m : Mint) (source : String)
    (kept : source ≠ m.sourceId ∨ (dir.lookup (seedName source)).isSome = true) :
    (mint kp dir m).1.lookup (seedName source) = dir.lookup (seedName source) ∧
      (mint kp dir m).1.lookup (pubName source) = dir.lookup (pubName source) := by
  unfold mint
  by_cases there : (dir.lookup (seedName m.sourceId)).isSome = true
  · rw [if_pos there]
    exact ⟨rfl, rfl⟩
  · have other : source ≠ m.sourceId := by
      intro same
      rw [← same] at there
      exact kept.elim (fun differs => differs same) there
    have seed : seedName source ≠ seedName m.sourceId := fun same => other (seedName_injective same)
    have pub : pubName source ≠ pubName m.sourceId := fun same => other (pubName_injective same)
    have seed' := seedName_ne_pubName source m.sourceId
    have pub' := pubName_ne_seedName source m.sourceId
    rw [if_neg there]
    cases m.reached with
    | nothing => exact ⟨rfl, rfl⟩
    | seed written | noPub => simp only [lookup_write, if_neg seed, if_neg pub', and_self]
    | pub written | done => simp only [lookup_write, if_neg seed, if_neg pub, if_neg seed', if_neg pub', and_self]

theorem mintAll_keeps (dir : Dir) (ms : List Mint) (source : String)
    (kept : (∀ m ∈ ms, source ≠ m.sourceId) ∨ (dir.lookup (seedName source)).isSome = true) :
    (mintAll kp dir ms).lookup (seedName source) = dir.lookup (seedName source) ∧
      (mintAll kp dir ms).lookup (pubName source) = dir.lookup (pubName source) := by
  unfold mintAll
  induction ms generalizing dir with
  | nil => exact ⟨rfl, rfl⟩
  | cons m ms ih =>
    obtain ⟨seed, pub⟩ := mint_keeps kp dir m source (kept.imp_left fun others => others m List.mem_cons_self)
    obtain ⟨seed', pub'⟩ := ih (mint kp dir m).1 (by
      rw [seed]
      exact kept.imp_left fun others m member => others m (List.mem_cons_of_mem _ member))
    exact ⟨seed'.trans seed, pub'.trans pub⟩

theorem mint_done (dir : Dir) (m : Mint) (absent : dir.lookup (seedName m.sourceId) = none) (done : m.reached = .done) :
    (mint kp dir m).1 =
      (dir.write (seedName m.sourceId) m.seed.val).write (pubName m.sourceId) (pubText kp m.seed.val) := by
  unfold mint
  rw [absent, if_neg (by decide), done]

/-- A mint that gets to its end, or nowhere. -/
theorem mint_minted {dir : Dir} (inv : Minted kp dir) (m : Mint) (filled : m.sourceId ≠ "")
    (whole : m.reached = .nothing ∨ m.reached = .done) : Minted kp (mint kp dir m).1 := by
  by_cases there : (dir.lookup (seedName m.sourceId)).isSome = true
  · have same : (mint kp dir m).1 = dir := by
      unfold mint
      rw [if_pos there]
    rw [same]
    exact inv
  · have absent : dir.lookup (seedName m.sourceId) = none := by
      rwa [Bool.not_eq_true, Option.isSome_eq_false_iff, Option.isNone_iff_eq_none] at there
    rcases whole with nothing | done
    · have same : (mint kp dir m).1 = dir := by
        unfold mint
        rw [if_neg there, nothing]
      rw [same]
      exact inv
    · have after := mint_done kp dir m absent done
      have own : (mint kp dir m).1.lookup (seedName m.sourceId) = some m.seed.val := by
        rw [after, lookup_write, if_neg (seedName_ne_pubName _ _), lookup_write, if_pos rfl]
      constructor
      · intro file member
        rw [after] at member
        unfold Dir.write at member
        rcases List.mem_cons.mp member with rfl | member
        · exact ⟨m.sourceId, m.seed, filled, own, Or.inr rfl⟩
        · rcases List.mem_cons.mp (List.mem_filter.mp member).1 with rfl | member
          · exact ⟨m.sourceId, m.seed, filled, own, Or.inl rfl⟩
          · obtain ⟨source, seed, named, found, which⟩ := inv.named file (List.mem_filter.mp member).1
            have other : source ≠ m.sourceId := by
              rintro rfl
              rw [absent] at found
              cases found
            exact ⟨source, seed, named, ((mint_keeps kp dir m source (Or.inl other)).1).trans found, which⟩
      · intro source bytes found
        by_cases same : source = m.sourceId
        · rw [same] at found ⊢
          rw [own, Option.some.injEq] at found
          rw [after, lookup_write, if_pos rfl, found]
        · obtain ⟨seed, pub⟩ := mint_keeps kp dir m source (Or.inl same)
          rw [seed] at found
          rw [pub]
          exact inv.paired source bytes found

theorem mintAll_minted (ms : List Mint) (filled : ∀ m ∈ ms, m.sourceId ≠ "")
    (whole : ∀ m ∈ ms, m.reached = .nothing ∨ m.reached = .done) : Minted kp (mintAll kp [] ms) := by
  have all : ∀ (ms : List Mint) (dir : Dir), Minted kp dir → (∀ m ∈ ms, m.sourceId ≠ "") →
      (∀ m ∈ ms, m.reached = .nothing ∨ m.reached = .done) → Minted kp (mintAll kp dir ms) := by
    intro ms
    induction ms with
    | nil => exact fun dir inv _ _ => inv
    | cons m ms ih =>
      intro dir inv filled whole
      exact ih _ (mint_minted kp inv m (filled m List.mem_cons_self) (whole m List.mem_cons_self))
        (fun m member => filled m (List.mem_cons_of_mem _ member)) fun m member => whole m (List.mem_cons_of_mem _ member)
  exact all ms [] ⟨fun _ member => absurd member List.not_mem_nil, fun _ _ found => by cases found⟩ filled whole

/-! What the sink reads of it. -/

theorem lastDot_concat {before after : Bytes} (undotted : 46 ∉ after) :
    lastDot (before ++ 46 :: after) = some (before, after) := by
  have plain : ∀ b ∈ after.reverse, decide (b ≠ 46) = true := by
    intro b member
    apply decide_eq_true
    rintro rfl
    exact undotted (List.mem_reverse.mp member)
  unfold lastDot
  rw [List.reverse_append, List.reverse_cons, List.append_assoc, List.dropWhile_append_of_pos plain,
    List.takeWhile_append_of_pos plain]
  simp

theorem splitExtension_concat {before after : Bytes} (undotted : 46 ∉ after) (front : before ≠ []) (back : after ≠ []) :
    splitExtension (before ++ 46 :: after) = (before, some after) := by
  unfold splitExtension
  rw [lastDot_concat undotted]
  dsimp only
  rw [if_neg]
  intro odd
  rcases odd with empty | dots
  · exact front empty
  · have length := congrArg List.length dots
    rw [List.length_append, List.length_cons, List.length_cons, List.length_singleton] at length
    have := List.length_pos_iff.mpr front
    have := List.length_pos_iff.mpr back
    omega

theorem encodeText_ne_nil {source : String} (filled : source ≠ "") : Utf8.encodeText source.toList ≠ [] := by
  intro empty
  apply filled
  apply String.toList_inj.mp
  exact encodeText_injective empty

theorem dirKeys_seed (dir : String) (keys : KeyTable VK) {source : String} (filled : source ≠ "") (content : Bytes)
    (rest : List (Option DirEntry)) :
    dirKeys kp dir keys (some ⟨seedName source, some content⟩ :: rest) = dirKeys kp dir keys rest := by
  have split : splitExtension (seedName source) = (Utf8.encodeText source.toList, some [115, 101, 101, 100]) := by
    rw [seedName, Utf8.encodeText_append]
    exact splitExtension_concat (by decide) (encodeText_ne_nil filled) (by decide)
  have other : Utf8.decode [115, 101, 101, 100] ≠ some "pub".toList := by decide
  rw [dirKeys, split]
  exact if_pos other

theorem dirKeys_pub (correct : kp.Correct) (dir : String) (keys : KeyTable VK) {source : String} (filled : source ≠ "")
    (seed : Bytes) (rest : List (Option DirEntry)) :
    dirKeys kp dir keys (some ⟨pubName source, some (pubText kp seed)⟩ :: rest) =
      dirKeys kp dir ((source, kp.verifyingKey (kp.signingKey seed)) :: keys) rest := by
  have split : splitExtension (pubName source) = (Utf8.encodeText source.toList, some [112, 117, 98]) := by
    rw [pubName, Utf8.encodeText_append]
    exact splitExtension_concat (by decide) (encodeText_ne_nil filled) (by decide)
  have same : Utf8.decode [112, 117, 98] = some "pub".toList := by decide
  rw [dirKeys, split]
  dsimp only
  rw [Option.bind_some, same, if_neg (by simp), Utf8.decode_encodeText]
  dsimp only
  rw [Option.bind_some, pubText, Utf8.decode_encodeText]
  dsimp only
  rw [decodeKey_encode kp correct, String.ofList_toList]

/-- Over the files of minted sources, in whatever order: each public half that is listed gives its source its key. -/
theorem dirKeys_minted (correct : kp.Correct) (dir : String) {all : Dir} (files : List (Bytes × Bytes)) (keys : KeyTable VK)
    (named : ∀ file ∈ files, ∃ (source : String) (seed : Seed), source ≠ "" ∧ all.lookup (seedName source) = some seed.val ∧
      (file = (seedName source, seed.val) ∨ file = (pubName source, pubText kp seed.val))) :
    ∃ keys', dirKeys kp dir keys (entriesOf files) = .ok keys' ∧ ∀ source, keys'.lookup source =
      if pubName source ∈ files.map Prod.fst then
        (all.lookup (seedName source)).map fun seed => kp.verifyingKey (kp.signingKey seed)
      else keys.lookup source := by
  induction files generalizing keys with
  | nil => exact ⟨keys, rfl, fun source => (if_neg List.not_mem_nil).symm⟩
  | cons file files ih =>
    have later : ∀ file ∈ files, _ := fun file member => named file (List.mem_cons_of_mem _ member)
    obtain ⟨source, seed, filled, found, rfl | rfl⟩ := named file List.mem_cons_self
    · obtain ⟨keys', result, each⟩ := ih keys later
      refine ⟨keys', ?_, fun other => ?_⟩
      · unfold entriesOf at result ⊢
        rw [List.map_cons, dirKeys_seed kp dir keys filled]
        exact result
      · have listed : pubName other ∈ seedName source :: files.map Prod.fst ↔ pubName other ∈ files.map Prod.fst := by
          rw [List.mem_cons, or_iff_right (pubName_ne_seedName other source)]
        rw [each other]
        exact (if_congr listed rfl rfl).symm
    · obtain ⟨keys', result, each⟩ := ih ((source, kp.verifyingKey (kp.signingKey seed.val)) :: keys) later
      refine ⟨keys', ?_, fun other => ?_⟩
      · unfold entriesOf at result ⊢
        rw [List.map_cons, dirKeys_pub kp correct dir keys filled]
        exact result
      · rw [each other]
        by_cases same : other = source
        · have listed : pubName other ∈ ((pubName source, pubText kp seed.val) :: files).map Prod.fst := by
            rw [same]
            exact List.mem_cons_self
          rw [if_pos listed, same, found, List.lookup_cons_self]
          exact ite_self _
        · have listed : pubName other ∈ pubName source :: files.map Prod.fst ↔ pubName other ∈ files.map Prod.fst := by
            rw [List.mem_cons, or_iff_right fun equal => same (pubName_injective equal)]
          rw [List.lookup_cons, beq_false_of_ne same]
          exact (if_congr listed rfl rfl).symm

theorem mem_of_lookup {dir : Dir} {name content : Bytes} (found : dir.lookup name = some content) :
    name ∈ dir.map Prod.fst := by
  obtain ⟨front, back, rfl, _⟩ := List.lookup_eq_some_iff.mp found
  simp

theorem mint_nothing (dir : Dir) (m : Mint) (nothing : m.reached = .nothing) : (mint kp dir m).1 = dir := by
  unfold mint
  rw [nothing]
  exact (apply_ite Prod.fst _ _ _).trans (ite_self _)

theorem mintAll_absent (ms : List Mint) (dir : Dir) (source : String)
    (nothing : ∀ m ∈ ms, m.sourceId = source → m.reached = .nothing) (absent : dir.lookup (seedName source) = none) :
    (mintAll kp dir ms).lookup (seedName source) = none := by
  unfold mintAll
  induction ms generalizing dir with
  | nil => exact absent
  | cons m ms ih =>
    refine ih _ (fun m member => nothing m (List.mem_cons_of_mem _ member)) ?_
    dsimp only
    by_cases same : m.sourceId = source
    · rw [mint_nothing kp dir m (nothing m List.mem_cons_self same)]
      exact absent
    · rw [(mint_keeps kp dir m source (Or.inl fun equal => same equal.symm)).1]
      exact absent

theorem mintAll_append (dir : Dir) (ms more : List Mint) :
    mintAll kp dir (ms ++ more) = mintAll kp (mintAll kp dir ms) more := List.foldl_append

theorem minted_seed {dir : Dir} (inv : Minted kp dir) {source : String} {bytes : Bytes}
    (found : dir.lookup (seedName source) = some bytes) : bytes.length = 32 := by
  obtain ⟨front, back, split, _⟩ := List.lookup_eq_some_iff.mp found
  obtain ⟨other, seed, _, _, same | same⟩ := inv.named (seedName source, bytes) (by rw [split]; simp)
  · rw [(Prod.mk.inj same).2]
    exact seed.property
  · exact absurd (Prod.mk.inj same).1 (seedName_ne_pubName _ _)

theorem minted_listed {dir : Dir} (inv : Minted kp dir) (source : String) :
    pubName source ∈ dir.map Prod.fst ↔ (dir.lookup (seedName source)).isSome = true := by
  constructor
  · intro listed
    obtain ⟨file, member, name⟩ := List.mem_map.mp listed
    obtain ⟨other, seed, _, found, rfl | rfl⟩ := inv.named file member
    · exact absurd name (seedName_ne_pubName _ _)
    · rw [← pubName_injective name, found]
      rfl
  · intro there
    obtain ⟨bytes, found⟩ := Option.isSome_iff_exists.mp there
    exact mem_of_lookup (inv.paired source bytes found)

/-- An identity holds from its mint on. Whatever is minted later and however it fails, the seed that is there and its
    public half stay; the first mint of a source that gets to its end decides its seed; and where no mint stopped half
    way, the connector loads the key whose public half the sink reads, however the directory is listed, next to the
    keys of the table. -/
theorem minted_identities_hold (correct : kp.Correct) :
    (∀ (ms more : List Mint) (source : String), ((mintAll kp [] ms).lookup (seedName source)).isSome = true →
      (mintAll kp [] (ms ++ more)).lookup (seedName source) = (mintAll kp [] ms).lookup (seedName source) ∧
      (mintAll kp [] (ms ++ more)).lookup (pubName source) = (mintAll kp [] ms).lookup (pubName source)) ∧
    (∀ (front : List Mint) (m : Mint) (back : List Mint),
      (∀ other ∈ front, other.sourceId = m.sourceId → other.reached = .nothing) → m.reached = .done →
      (mintAll kp [] (front ++ m :: back)).lookup (seedName m.sourceId) = some m.seed.val) ∧
    ∀ (ms : List Mint) (cfg : SinkConfig) (dir : String) (readDir : String → Option (List (Option DirEntry)))
      (listing : List (Bytes × Bytes)) (table : KeyTable VK),
      (∀ m ∈ ms, m.sourceId ≠ "") → (∀ m ∈ ms, m.reached = .nothing ∨ m.reached = .done) →
      tableKeys kp [] cfg.sources = .ok table → cfg.sourcesDir = some dir → listing.Perm (mintAll kp [] ms) →
      readDir dir = some (entriesOf listing) →
      ∃ keys, cfg.keys kp readDir = .ok keys ∧
        (∀ source seed, (mintAll kp [] ms).lookup (seedName source) = some seed →
          load kp (.ok seed) = .ok (kp.signingKey seed) ∧
          keys.lookup source = some (kp.verifyingKey (kp.signingKey seed))) ∧
        ∀ source, (mintAll kp [] ms).lookup (seedName source) = none → keys.lookup source = table.lookup source := by
  refine ⟨fun ms more source there => ?_, fun front m back nothing done => ?_, ?_⟩
  · rw [mintAll_append]
    exact mintAll_keeps kp _ more source (Or.inr there)
  · have absent := mintAll_absent kp front [] m.sourceId nothing rfl
    have own : (mint kp (mintAll kp [] front) m).1.lookup (seedName m.sourceId) = some m.seed.val := by
      rw [mint_done kp _ m absent done, lookup_write, if_neg (seedName_ne_pubName _ _), lookup_write, if_pos rfl]
    have kept := (mintAll_keeps kp (mint kp (mintAll kp [] front) m).1 back m.sourceId (Or.inr (by rw [own]; rfl))).1
    rw [mintAll_append]
    exact kept.trans own
  · intro ms cfg dir readDir listing table filled whole tabled here perm listed
    have inv := mintAll_minted kp ms filled whole
    generalize mintAll kp [] ms = minted at perm inv ⊢
    obtain ⟨keys, result, each⟩ := dirKeys_minted kp correct dir listing table
      fun file member => inv.named file (perm.mem_iff.mp member)
    have named (source : String) : pubName source ∈ listing.map Prod.fst ↔
        (minted.lookup (seedName source)).isSome = true := by
      rw [← minted_listed kp inv]
      exact (perm.map Prod.fst).mem_iff
    refine ⟨keys, ?_, fun source seed found => ⟨?_, ?_⟩, fun source absent => ?_⟩
    · unfold SinkConfig.keys
      rw [tabled]
      dsimp only
      rw [here]
      dsimp only
      rw [listed]
      exact result
    · exact (load_iff kp seed _).mpr ⟨⟨seed, minted_seed kp inv found⟩, .raw, rfl⟩
    · rw [each, if_pos ((named source).mpr (by rw [found]; rfl)), found]
      rfl
    · rw [each, if_neg]
      rw [named source, absent]
      decide

end

/-- A first start and a restart of a stack with one source. -/
theorem minted_source_is_registered :
    ∃ keys, SinkConfig.keys testKeypairs ⟨[], some "/keys"⟩ (fun _ => some (entriesOf (mintAll testKeypairs [] twoStarts))) =
        .ok keys ∧ keys.lookup "acme-1" = some () ∧
      load testKeypairs (.ok testSeed.val) = .ok () := by
  obtain ⟨_, first, registers⟩ := minted_identities_hold testKeypairs testKeypairs_correct
  have seed := first [] ⟨"acme-1", acme_inside, testSeed, .done⟩ [⟨"acme-1", acme_inside, otherSeed, .done⟩] (by simp) rfl
  obtain ⟨keys, read, each, _⟩ := registers twoStarts ⟨[], some "/keys"⟩ "/keys"
    (fun _ => some (entriesOf (mintAll testKeypairs [] twoStarts))) _ [] (by decide) (by decide) rfl rfl (List.Perm.refl _) rfl
  exact ⟨keys, read, (each "acme-1" testSeed.val seed).2, (each "acme-1" testSeed.val seed).1⟩

end RegistrationProof

import AjarConnectors.FileTree.Paths
import AjarConnectors.Http.Server
import AjarConnectors.Up.Consumer
import AjarConnectors.Utf8.RoundTrip

namespace UpModel

open FileTree TextModel

abbrev Bytes := List UInt8

inductive Op where
  | read
  | write
  | chmod
  deriving DecidableEq

structure Access where
  op : Op
  place : Location
  deriving DecidableEq

/-- The file system, and every place the program has read, written or changed the mode of. The tar and the
    caller's signing key are given by what they hold and are not in it. -/
structure World where
  tree : Tree
  trace : List Access

namespace World

variable (w : World) (dir : Location) (path : String)

def touch (op : Op) (place : Location) : World := { w with trace := w.trace ++ [⟨op, place⟩] }

def hand (accesses : List Access) : World := { w with trace := w.trace ++ accesses }

/-- `std::fs::read`. -/
def read : Option Bytes × World :=
  match readable w.tree dir path with
  | none => (none, w)
  | some (place, bytes) => (some bytes, w.touch .read place)

/-- `std::fs::write`, and the write of `std::fs::copy`. -/
def write (bytes : Bytes) : Bool × World :=
  match writable w.tree dir path with
  | none => (false, w)
  | some place => (true, { w with tree := w.tree.set place (.file bytes) }.touch .write place)

/-- `std::fs::set_permissions` of what is there; modes are not in the tree. -/
def lock : World :=
  match existing w.tree dir path with
  | none => w
  | some place => w.touch .chmod place

end World

inductive Kind where
  | regular (bytes : Bytes)
  | directory
  | symlink (target : String)
  | hardLink (target : String)

structure Member where
  path : String
  kind : Kind

/-- What the libraries decide: keys and signatures, checksums, JSON, and the text of a producer's config. -/
structure Libraries where
  validKey : Bytes → Bool
  verify : Bytes → Bytes → Bytes → Bool
  sha256 : Bytes → String
  parseManifest : Bytes → Option Manifest
  render : Manifest → String → Option String

/-- The command line. A key that is given stands as what it holds, if it can be read. -/
structure Args where
  dir : Location
  cwd : Location
  signingKey : Option (Option Bytes) := none
  check : Bool := false
  toTak : Option String := none
  toHttp : Option String := none

inductive UpError where
  | workingDirectory
  | notAPacket
  | notPlain (path : String)
  | unpacking (path : String)
  | lacks (path : String)
  | notText (path : String)
  | key
  | signature
  | manifest
  | version (text : String)
  | checksum (path : String)
  | role
  | protocol
  | transport
  | signingKeyPath
  | placingSeed
  | noSeed
  | config
  | writing (path : String)
  | consumer (error : Consumer.RunError)
  deriving DecidableEq

/-- The one normal component of a path that has no other: `Path::components`, which skips empty parts and
    dots that do not lead. -/
def plainName (path : String) : Option String :=
  let parts := components path
  if isAbsolute path ∨ parts.head? = some "." then none
  else match parts.filter fun part => part ≠ "" ∧ part ≠ "." with
    | [name] => if name = ".." then none else some name
    | _ => none

section

variable (dir cwd : Location)

/-- `unpack`: the entry is created as its header says. A hard link to a file of the directory is a file of its own
    here. -/
def unpackMember (tree : Tree) (m : Member) (name : String) : Option Tree :=
  let place := dir ++ [name]
  match m.kind with
  | .regular bytes =>
    if m.path ≠ name ∨ tree place = some .directory then none else some (tree.set place (.file bytes))
  | .directory =>
    match tree place with
    | none => some (tree.set place .directory)
    | some .directory => some tree
    | some (.symlink _) => if ((find tree dir name).filter tree.isDirectory).isSome then some tree else none
    | _ => none
  | .symlink target =>
    if m.path ≠ name ∨ tree place = some .directory then none else some (tree.set place (.symlink target))
  | .hardLink target =>
    if m.path ≠ name ∨ (tree place).isSome then none
    else match readable tree cwd target with
      | none => none
      | some (found, bytes) => some (tree.set place (if dir <+: found then .file bytes else .hardLink found))

/-- The loop over the archive; an entry that cannot be read ends it. -/
def unpackAll : List (Option Member) → World → Option UpError × World
  | [], w => (none, w)
  | none :: _, w => (some .notAPacket, w)
  | some m :: rest, w =>
    match plainName m.path with
    | none => (some (.notPlain m.path), w)
    | some name =>
      match unpackMember dir cwd w.tree m name with
      | none => (some (.unpacking m.path), w)
      | some tree => unpackAll rest ({ w with tree := tree }.touch .write (dir ++ [name]))

end

def sigDomain : Bytes := "ajar-onboard-manifest:1\n".toList.map fun c => UInt8.ofNat c.toNat

def supportedMajor : Nat := 1

section

variable (lib : Libraries) (dir : Location)

/-- A file read as text. -/
def readText (w : World) (path : String) : Except UpError (List Char) × World :=
  match w.read dir path with
  | (none, w) => (.error (.lacks path), w)
  | (some bytes, w) =>
    match Utf8.decode bytes with
    | none => (.error (.notText path), w)
    | some text => (.ok text, w)

def trimmed (text : List Char) : List Char := (trim (String.ofList text)).toList

/-- The manifest is parsed only after its signature verifies. -/
def checkSignature (manifestBytes : Bytes) (sigText pubText : List Char) : Except UpError Manifest :=
  match (hexDecode (trimmed pubText)).filter fun bytes => bytes.length == 32 && lib.validKey bytes with
  | none => .error .key
  | some key =>
    match (hexDecode (trimmed sigText)).filter fun bytes => bytes.length == 64 with
    | none => .error .signature
    | some sig =>
      if !lib.verify key (sigDomain ++ manifestBytes) sig then .error .signature
      else match lib.parseManifest manifestBytes with
        | none => .error .manifest
        | some m =>
          let major := (HttpModel.parseUsize 10 (m.manifestVersion.toList.takeWhile (· ≠ '.'))).filter (· < 2 ^ 32)
          if major = some supportedMajor then .ok m else .error (.version m.manifestVersion)

def checkFiles : List FileEntry → World → Option UpError × World
  | [], w => (none, w)
  | f :: rest, w =>
    match w.read dir f.path with
    | (none, w) => (some (.lacks f.path), w)
    | (some data, w) =>
      if toAsciiLowercase (lib.sha256 data) = toAsciiLowercase f.sha256 then checkFiles rest w
      else (some (.checksum f.path), w)

/-- The private keys the manifest names. -/
def Keys.privatePaths (keys : Keys) : List String := keys.signingKeyPath.toList ++ keys.mtlsKeyPath.toList

/-- The manifest, its signature and the key, before anything is parsed. -/
def readSigned (w : World) : Except UpError (Bytes × List Char × List Char) × World :=
  match w.read dir "manifest.json" with
  | (none, w) => (.error (.lacks "manifest.json"), w)
  | (some manifestBytes, w) =>
    match readText dir w "manifest.sig" with
    | (.error e, w) => (.error e, w)
    | (.ok sigText, w) =>
      match readText dir w "egress.pub" with
      | (.error e, w) => (.error e, w)
      | (.ok pubText, w) => (.ok (manifestBytes, sigText, pubText), w)

/-- `open`, once the working directory is there. -/
def openPacket (cwd : Location) (archive : List (Option Member)) (w : World) : Except UpError Manifest × World :=
  match unpackAll dir cwd archive w with
  | (some e, w) => (.error e, w)
  | (none, w) =>
    match readSigned dir w with
    | (.error e, w) => (.error e, w)
    | (.ok (manifestBytes, sigText, pubText), w) =>
      match checkSignature lib manifestBytes sigText pubText with
      | .error e => (.error e, w)
      | .ok m =>
        match checkFiles lib dir m.files w with
        | (some e, w) => (.error e, w)
        | (none, w) => (.ok m, m.keys.privatePaths.foldl (fun w path => w.lock dir path) w)

/-- The directory as text, which the configs name. -/
def dirText : String := "/" ++ String.intercalate "/" dir

end

namespace Producer

variable (lib : Libraries) (args : Args)

/-- The seed is the flag's file, else whatever is already at the manifest's path. -/
def placeSeed (path : String) (w : World) : Option UpError × World :=
  match args.signingKey with
  | some none => (some .placingSeed, w)
  | some (some seed) =>
    match w.write args.dir path seed with
    | (false, w) => (some .placingSeed, w)
    | (true, w) => (none, w.lock args.dir path)
  | none => (if (existing w.tree args.dir path).isSome then none else some .noSeed, w)

def configName (m : Manifest) : String := m.sourceId ++ ".toml"

/-- `run`, with what the preflight touches at its end. -/
def run (m : Manifest) (handedOn : List Access) (w : World) : Option UpError × World :=
  if m.protocol.isNone then (some .protocol, w)
  else if m.transport.isNone then (some .transport, w)
  else match m.keys.signingKeyPath with
    | none => (some .signingKeyPath, w)
    | some path =>
      match placeSeed args path w with
      | (some e, w) => (some e, w)
      | (none, w) =>
        match lib.render m (join (dirText args.dir) path) with
        | none => (some .config, w)
        | some text =>
          match w.write args.dir (configName m) (Utf8.encodeText text.toList) with
          | (false, w) => (some (.writing (configName m)), w)
          | (true, w) => (none, w.hand handedOn)

end Producer

namespace Consumer

variable (lib : Libraries) (args : Args)

/-- The files the manifest references, each of which `check` looks for. -/
def certPaths (keys : Keys) : List String := keys.caCertPath.toList ++ keys.mtlsCertPath.toList ++ keys.mtlsKeyPath.toList

/-- Everything `run` checks before touching the network. -/
def check (m : Manifest) (w : World) : Option UpError :=
  match egress lib.validKey m with
  | .error e => some (.consumer e)
  | .ok _ => ((certPaths m.keys).find? fun path => (existing w.tree args.dir path).isNone).map .lacks

/-- `run`, with what the tap's connection touches. -/
def run (m : Manifest) (handedOn : List Access) (w : World) : Option UpError × World :=
  match deliver lib.validKey m (dirText args.dir) ⟨args.toTak, args.toHttp⟩ with
  | .error e => (some (.consumer e), w)
  | .ok (.tap _) => (none, w.hand handedOn)
  | .ok (.config name text) =>
    match w.write args.dir name (Utf8.encodeText text.toList) with
    | (false, w) => (some (.writing name), w)
    | (true, w) => (none, w)

end Consumer

/-- `create_dir_all`. -/
def createDirAll (tree : Tree) (dir : Location) : Option Tree :=
  if dir.inits.all fun part => tree.isDirectory part || (tree part).isNone then
    some fun loc => if loc ≠ [] ∧ loc ∈ dir.inits then some .directory else tree loc
  else none

/-- The whole program. What the preflight or the tap's connection touches, with the config and the paths it is
    handed, is given. -/
def ajarUp (lib : Libraries) (args : Args) (archive : List (Option Member)) (handedOn : List Access) (tree : Tree) :
    Option UpError × World :=
  match createDirAll tree args.dir with
  | none => (some .workingDirectory, ⟨tree, []⟩)
  | some tree =>
    match openPacket lib args.dir args.cwd archive ⟨tree, []⟩ with
    | (.error e, w) => (some e, w)
    | (.ok m, w) =>
      match m.roleOf with
      | none => (some .role, w)
      | some .producer => Producer.run lib args m handedOn w
      | some .consumer => if args.check then (Consumer.check lib args m w, w) else Consumer.run lib args m handedOn w

end UpModel

import Mathlib.Data.List.Infix
import Mathlib.Data.String.Basic

namespace FileTree

/-- A place in the tree: the names from the root down. -/
abbrev Location := List String

inductive Node where
  | file (bytes : List UInt8)
  | directory
  | symlink (target : String)
  /-- A second name of the file at another place. -/
  | hardLink (place : Location)
  deriving DecidableEq

abbrev Tree := Location → Option Node

def Tree.set (tree : Tree) (loc : Location) (node : Node) : Tree := fun l => if l = loc then some node else tree l

def Tree.isDirectory (tree : Tree) (loc : Location) : Bool := loc == [] || tree loc == some .directory

def components (path : String) : List String := (path.toList.splitOn '/').map String.ofList

def isAbsolute (path : String) : Bool := path.toList.head? == some '/'

/-- Walk down from a directory, name by name; `follow` takes over at a symbolic link. -/
def walkNames (tree : Tree) (follow : Location → List String → Option Location) : Location → List String → Option Location
  | cur, [] => some cur
  | cur, name :: rest =>
    if !tree.isDirectory cur then none
    else if name = "" ∨ name = "." then walkNames tree follow cur rest
    else if name = ".." then walkNames tree follow cur.dropLast rest
    else match tree (cur ++ [name]) with
      | some (.symlink target) => follow (if isAbsolute target then [] else cur) (components target ++ rest)
      | some (.hardLink place) => walkNames tree follow place rest
      | _ => walkNames tree follow (cur ++ [name]) rest

/-- A walk that follows at most so many symbolic links. -/
def walk (tree : Tree) : Nat → Location → List String → Option Location
  | 0 => walkNames tree fun _ _ => none
  | links + 1 => walkNames tree (walk tree links)

def maxLinks : Nat := 40

/-- Where a path leads, taken from a directory unless it is absolute. The last name need not be there yet. -/
def find (tree : Tree) (dir : Location) (path : String) : Option Location :=
  if path.toList.contains (Char.ofNat 0) then none
  else walk tree maxLinks (if isAbsolute path then [] else dir) (components path)

/-- The file a path leads to. -/
def readable (tree : Tree) (dir : Location) (path : String) : Option (Location × List UInt8) :=
  (find tree dir path).bind fun loc =>
    match tree loc with
    | some (.file bytes) => some (loc, bytes)
    | _ => none

/-- What a path leads to, if there is anything. -/
def existing (tree : Tree) (dir : Location) (path : String) : Option Location :=
  (find tree dir path).filter fun loc => tree.isDirectory loc || (tree loc).isSome

def Node.isFile : Node → Bool
  | .file _ => true
  | _ => false

/-- Where a file of this path would be written. -/
def writable (tree : Tree) (dir : Location) (path : String) : Option Location :=
  (find tree dir path).filter fun loc => !tree.isDirectory loc && (tree loc).all Node.isFile

/-! How two trees can differ so that paths lead to the same places. -/

/-- The same but for files and what they hold. -/
def SameWays (tree other : Tree) : Prop :=
  ∀ loc, tree loc = other loc ∨
    ((tree loc).all Node.isFile = true ∧ (other loc).all Node.isFile = true)

theorem SameWays.refl (tree : Tree) : SameWays tree tree := fun _ => Or.inl rfl

section

variable {tree other : Tree}

theorem SameWays.isDirectory (same : SameWays tree other) (loc : Location) :
    tree.isDirectory loc = other.isDirectory loc := by
  unfold Tree.isDirectory
  rcases same loc with equal | ⟨plain, plain'⟩
  · rw [equal]
  · have files {node : Option Node} (isFile : node.all Node.isFile = true) : (node == some .directory) = false := by
      match node with
      | none => rfl
      | some (.file _) => rfl
    rw [files plain, files plain']

theorem walkNames_congr (same : SameWays tree other) {follow : Location → List String → Option Location}
    (cur : Location) (names : List String) : walkNames tree follow cur names = walkNames other follow cur names := by
  induction names generalizing cur with
  | nil => rfl
  | cons name rest ih =>
    rw [walkNames, walkNames, same.isDirectory cur]
    split
    · rfl
    · split
      · exact ih cur
      · split
        · exact ih cur.dropLast
        · rcases same (cur ++ [name]) with equal | ⟨plain, plain'⟩
          · rw [equal]
            split
            · rfl
            · exact ih _
            · exact ih _
          · have onward {t : Tree} (isFile : (t (cur ++ [name])).all Node.isFile = true) :
                (match t (cur ++ [name]) with
                  | some (.symlink target) => follow (if isAbsolute target then [] else cur) (components target ++ rest)
                  | some (.hardLink place) => walkNames t follow place rest
                  | _ => walkNames t follow (cur ++ [name]) rest) = walkNames t follow (cur ++ [name]) rest := by
              split
              · rename_i found
                rw [found] at isFile
                cases isFile
              · rename_i found
                rw [found] at isFile
                cases isFile
              · rfl
            rw [onward plain, onward plain']
            exact ih _

theorem walk_congr (same : SameWays tree other) (links : Nat) : walk tree links = walk other links := by
  induction links with
  | zero =>
    funext cur names
    exact walkNames_congr same cur names
  | succ links ih =>
    funext cur names
    rw [walk, walk, ih]
    exact walkNames_congr same cur names

theorem find_congr (same : SameWays tree other) (dir : Location) (path : String) : find tree dir path = find other dir path := by
  rw [find, find, walk_congr same]

theorem writable_congr (same : SameWays tree other) (dir : Location) (path : String) :
    writable tree dir path = writable other dir path := by
  rw [writable, writable, find_congr same]
  congr 1
  funext loc
  rw [same.isDirectory loc]
  rcases same loc with equal | ⟨plain, plain'⟩
  · rw [equal]
  · rw [plain, plain']

/-- Writing a file changes no way. -/
theorem sameWays_write {dir loc : Location} {path : String} (bytes : List UInt8) (goes : writable tree dir path = some loc) :
    SameWays (tree.set loc (.file bytes)) tree := by
  intro l
  by_cases here : l = loc
  · right
    rcases Option.filter_eq_some_iff.mp goes with ⟨_, kind⟩
    rw [Bool.and_eq_true] at kind
    subst here
    rw [Tree.set, if_pos rfl]
    exact ⟨rfl, kind.2⟩
  · left
    simp only [Tree.set, here, if_false]

theorem SameWays.trans {third : Tree} (first : SameWays tree other) (second : SameWays other third) : SameWays tree third := by
  intro loc
  rcases first loc with equal | ⟨plain, plain'⟩
  · rw [equal]
    exact second loc
  · rcases second loc with equal | ⟨_, plain''⟩
    · rw [← equal]
      exact Or.inr ⟨plain, plain'⟩
    · exact Or.inr ⟨plain, plain''⟩

end

end FileTree

import CssTypings.Text.Quoted
import CssTypings.Tree.Basic

/-!
# Reading and changing a tree by path

A path is followed one component after the other, and every component but the last has to lead to a
directory. What goes wrong on the way is reported with the path that was asked for. All paths are
read from the root of the tree.

Nothing can be asked about a path that holds a null character. A path may have at most 4095 bytes,
which is checked before it is followed, and a name at most 255, which is checked when the name is
looked up in a directory that is there.
-/

namespace CssTypings.Tree

/-- What can go wrong at a path. -/
inductive Trouble where
  /-- Nothing is there. -/
  | missing
  /-- Something is there already. -/
  | occupied
  /-- A component that has to be a directory is none. -/
  | notDirectory
  /-- A directory is where a file is wanted. -/
  | isDirectory
  /-- The path or a name in it has too many bytes. -/
  | nameTooLong
deriving DecidableEq, Repr

namespace Trouble

/-- The number of a trouble. -/
def code : Trouble → Nat
  | missing => 2
  | occupied => 17
  | notDirectory => 20
  | isDirectory => 21
  | nameTooLong => 36

/-- The wording of a trouble. -/
def wording : Trouble → String
  | missing => "No such file or directory"
  | occupied => "File exists"
  | notDirectory => "Not a directory"
  | isDirectory => "Is a directory"
  | nameTooLong => "File name too long"

end Trouble

/-- Why a path cannot be read or changed. -/
inductive Fault where
  /-- The path holds a null character. -/
  | nullCharacter
  /-- Something is wrong at this path. -/
  | trouble (what : Trouble) (path : Path)
deriving DecidableEq, Repr

/-- The wording of a fault. -/
def Fault.message : Fault → String
  | nullCharacter => "embedded null byte"
  | trouble what path =>
    "[Errno " ++ String.ofList (Text.decimal what.code) ++ "] " ++ what.wording ++ ": " ++
      String.ofList path.text.quoted

/-! ### Following paths -/

/-- The most bytes of a name. -/
def nameLimit : Nat := 255

/-- The most bytes of a path. -/
def pathLimit : Nat := 4095

/-- Whether a path can be asked about: it holds no null character, and neither it nor a name in it
has too many bytes. -/
def withinLimits (path : Path) : Bool :=
  !path.hasNull && Utf8.size path.text ≤ pathLimit && path.parts.all (Utf8.size · ≤ nameLimit)

/-- Follows components from a location: where they lead, and what is there. Only the last component
may lead to nothing. -/
def follow (tree : Tree) (here : Location) :
    List Text → Except Trouble (Location × Option Entry)
  | [] => .ok (here, tree.find? here)
  | part :: rest =>
    match tree.find? here with
    | none => .error .missing
    | some (.file ..) => .error .notDirectory
    | some .directory =>
      if nameLimit < Utf8.size part then .error .nameTooLong
      else
        -- This is a directory, so the way back up is the way that led here.
        let next := if part = Path.up then here.dropLast else here ++ [part]
        match tree.find? next, rest with
        | none, [] => .ok (next, none)
        | none, _ :: _ => .error .missing
        | some _, _ => follow tree next rest

/-- Where a path leads, and what is there. -/
def walk (tree : Tree) (path : Path) : Except Fault (Location × Option Entry) :=
  if path.hasNull then .error .nullCharacter
  else if pathLimit < Utf8.size path.text then .error (.trouble .nameTooLong path)
  else (tree.follow [] path.parts).mapError (.trouble · path)

/-- What is at a path, if anything is. A path that leads nowhere leads to nothing, and so does one
about which nothing can be asked; only too many bytes are a fault. -/
def look (tree : Tree) (path : Path) : Except Fault (Option Entry) :=
  match tree.walk path with
  | .ok (_, entry) => .ok entry
  | .error (.trouble .nameTooLong path) => .error (.trouble .nameTooLong path)
  | .error _ => .ok none

/-- Whether something is at a path. -/
def has (tree : Tree) (path : Path) : Except Fault Bool := (tree.look path).map Option.isSome

/-- Whether a file is at a path. -/
def hasFile (tree : Tree) (path : Path) : Except Fault Bool :=
  (tree.look path).map (·.any Entry.isFile)

/-! ### Files -/

/-- The contents of the file at a path. -/
def read (tree : Tree) (path : Path) : Except Fault Bytes :=
  match tree.walk path with
  | .ok (_, some (.file bytes _)) => .ok bytes
  | .ok (_, some .directory) => .error (.trouble .isDirectory path)
  | .ok (_, none) => .error (.trouble .missing path)
  | .error fault => .error fault

/-- The tree with the file at a path changed: `change` gives the new contents from the former
ones, which are empty if there was no file. -/
def changeFile (tree : Tree) (path : Path) (change : Bytes → Bytes) : Except Fault Tree :=
  match tree.walk path with
  | .ok (location, some (.file bytes _)) => .ok (stamped location (change bytes))
  | .ok (location, none) => .ok (stamped location (change []))
  | .ok (_, some .directory) => .error (.trouble .isDirectory path)
  | .error fault => .error fault
where
  stamped (location : Location) (bytes : Bytes) : Tree :=
    { tree.put location (.file bytes tree.clock) with clock := tree.clock + 1 }

/-- The tree with the contents of the file at a path replaced. -/
def write (tree : Tree) (path : Path) (bytes : Bytes) : Except Fault Tree :=
  tree.changeFile path fun _ ↦ bytes

/-- The tree with bytes added at the end of the file at a path. -/
def append (tree : Tree) (path : Path) (bytes : Bytes) : Except Fault Tree :=
  tree.changeFile path (· ++ bytes)

/-- The tree without the file at a path; if there is none, nothing happens. Only a path about which
nothing can be asked is a fault. -/
def release (tree : Tree) (path : Path) : Except Fault Tree :=
  match tree.walk path with
  | .ok (location, some (.file ..)) => .ok (tree.remove location)
  | .ok _ | .error (.trouble ..) => .ok tree
  | .error .nullCharacter => .error .nullCharacter

/-! ### Directories -/

/-- The tree with a directory at a path. The way there has to be there already. -/
def makeDirectory (tree : Tree) (path : Path) : Except Fault Tree :=
  match tree.walk path with
  | .ok (_, some .directory) => .ok tree
  | .ok (_, some (.file ..)) => .error (.trouble .occupied path)
  | .ok (location, none) => .ok (tree.put location .directory)
  | .error fault => .error fault

/-- Makes a directory at the path of these components, which are given backwards, and the
directories that lead to it. Those made before a fault stay. -/
def makeDirectoriesFrom (tree : Tree) (anchor : Anchor) : List Text → Except Fault Unit × Tree
  | [] => (.ok (), tree)
  | part :: rest =>
    let path : Path := ⟨anchor, (part :: rest).reverse⟩
    match tree.makeDirectory path with
    | .ok tree => (.ok (), tree)
    | .error (.trouble .missing _) =>
      -- The way there is missing: it is made first, and then the path is tried again.
      match makeDirectoriesFrom tree anchor rest with
      | (.error fault, tree) => (.error fault, tree)
      | (.ok _, tree) =>
        match tree.makeDirectory path with
        | .ok tree => (.ok (), tree)
        | .error fault => (.error fault, tree)
    | .error fault => (.error fault, tree)

/-- Makes a directory at a path and the directories that lead to it. -/
def makeDirectories (tree : Tree) (path : Path) : Except Fault Unit × Tree :=
  tree.makeDirectoriesFrom path.anchor path.parts.reverse

end CssTypings.Tree

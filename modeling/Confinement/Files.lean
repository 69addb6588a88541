import Confinement.Document.Basic

/-!
# Files

The program reads documents from the working directory, from the home directory and from
absolute paths. `Files` says at which places there are documents, and at which directories; a
directory is there too as soon as the way to something leads through it, and so are the
directories above the working and the home directory. A path is taken apart at its slashes,
empty parts and single dots left out, and followed part by part (`Files.find?`).
-/

namespace Confinement

/-- A path, taken apart. -/
structure Path where
  /-- The slashes it starts with : none for a relative path. -/
  root : String
  /-- Its parts. -/
  parts : List String
  deriving DecidableEq, Repr

namespace Path

/-- Takes a path apart. Two slashes in front are kept, more count as one. -/
def ofString (s : String) : Path :=
  let slashes := (s.toList.takeWhile (· == '/')).length
  ⟨if slashes = 0 then "" else if slashes = 2 then "//" else "/",
    (s.splitOn "/").filter fun part => part != "" && part != "."⟩

/-- The path that is given by its text. An empty text gives none. -/
def given? (s : String) : Option Path :=
  if s.isEmpty then none else some (ofString s)

/-- The path as it is shown. -/
def text (p : Path) : String :=
  if p.root = "" ∧ p.parts = [] then "." else p.root ++ "/".intercalate p.parts

/-- Whether the path is relative. -/
def isRelative (p : Path) : Bool :=
  p.root == ""

/-- One part further down, or up if it is `..`, from the parts at `done`, which are kept in
reverse. Above a relative path there is always a directory, above the root there is only the
root itself. -/
def descend (isRelative : Bool) (done : List String) (part : String) : List String :=
  if part = ".." then
    match done with
    | [] => if isRelative then [".."] else []
    | last :: before => if last = ".." then ".." :: done else before
  else part :: done

/-- The path with every `..` taken back together with the part before it. -/
def settle (p : Path) : Path :=
  ⟨p.root, (p.parts.foldl (descend p.isRelative) []).reverse⟩

end Path

/-- Why a file cannot be opened. -/
inductive FileError where
  /-- There is nothing at this path. -/
  | missing (path : String)
  /-- There is a directory at this path. -/
  | isDirectory (path : String)
  /-- The path leads through a file. -/
  | notDirectory (path : String)
  /-- The path, or a part of it, is longer than a path may be. -/
  | tooLong (path : String)
  /-- The path holds a null character. -/
  | nullByte
  deriving DecidableEq, Repr

/-- The wording of each failure. -/
def FileError.message : FileError → String
  | .missing path => "[Errno 2] No such file or directory: " ++ Text.quoted path
  | .isDirectory path => "[Errno 21] Is a directory: " ++ Text.quoted path
  | .notDirectory path => "[Errno 20] Not a directory: " ++ Text.quoted path
  | .tooLong path => "[Errno 36] File name too long: " ++ Text.quoted path
  | .nullByte => "embedded null byte"

/-- The sort of each failure. -/
def FileError.sort : FileError → ErrorSort
  | .missing _ => .missing
  | .isDirectory _ => .directory
  | .notDirectory _ => .notDirectory
  | .tooLong _ => .system
  | .nullByte => .value

/-- What a path leads to. -/
inductive FileNode where
  /-- A document. -/
  | document (content : Document)
  /-- A directory. -/
  | directory
  /-- Nothing. -/
  | nothing

/-- Where places start. -/
inductive Base where
  /-- In the working directory. -/
  | working
  /-- In the home directory. -/
  | home
  /-- At the root. -/
  | root
  deriving DecidableEq, Repr

/-- A place : a path below a base. -/
structure Place where
  /-- The base. -/
  base : Base
  /-- The path. -/
  path : Path
  deriving DecidableEq, Repr

namespace Place

/-- The place that a path leads to as it is given. A tilde has no meaning in it. -/
def ofPath (path : Path) : Place :=
  ⟨if path.isRelative then .working else .root, path⟩

/-- The place that a name stands for. A tilde as its first part is the home directory. -/
def ofName (name : String) : Place :=
  match Path.ofString name with
  | ⟨"", "~" :: below⟩ => ⟨.home, ⟨"", below⟩⟩
  | path => ofPath path

/-- Whether a place is that of the parts below a base. -/
def isAt (base : Base) (parts : List String) (place : Place) : Bool :=
  decide (place.base = base ∧ place.path.settle.parts = parts)

/-- Whether the way to a place leads through the parts below a base. -/
def leadsThrough (base : Base) (parts : List String) (place : Place) : Bool :=
  (List.range place.path.parts.length).any fun count =>
    isAt base parts ⟨place.base, ⟨place.path.root, place.path.parts.take count⟩⟩

end Place

/-- What there is. Of two documents at the same place the later one counts. -/
structure Files where
  /-- The working directory, as it is shown. -/
  working : String
  /-- The home directory, as it is shown. -/
  home : String
  /-- The documents. -/
  documents : List (Place × Document)
  /-- Directories, beside those on the way to something. -/
  directories : List Place := []

namespace Files

/-- What lies at the parts below a base. -/
def node (files : Files) (base : Base) (parts : List String) : FileNode :=
  match files.documents.reverse.find? fun entry => entry.1.isAt base parts with
  | some (_, content) => .document content
  | none =>
    if parts.all (· == "..") || files.directories.any (·.isAt base parts) ||
        (files.documents.map (·.1) ++ files.directories).any (·.leadsThrough base parts) then
      .directory
    else .nothing

/-- The greatest length of a part of a path, in bytes. -/
def partLimit : Nat := 255

/-- The greatest length of a path, in bytes. -/
def pathLimit : Nat := 4095

/-- Follows parts below the directory at `done`, which is kept in reverse. -/
def follow? (files : Files) (base : Base) (shown : String) :
    List String → List String → Except FileError (List String)
  | done, [] => .ok done.reverse
  | done, part :: rest =>
    match files.node base done.reverse with
    | .document _ => .error (.notDirectory shown)
    | .nothing => .error (.missing shown)
    | .directory =>
      if partLimit < part.utf8ByteSize then .error (.tooLong shown)
      else follow? files base shown (Path.descend (base != .root) done part) rest

/-- Refuses paths that no file can have. -/
def admit? (shown : String) : Except FileError Unit :=
  if shown.contains '\x00' then .error .nullByte
  else if pathLimit < shown.utf8ByteSize then .error (.tooLong shown)
  else .ok ()

/-- The document at a place that is shown as `shown`. -/
def find? (files : Files) (place : Place) (shown : String) : Except FileError Document := do
  admit? shown
  let parts ← files.follow? place.base shown [] place.path.parts
  match files.node place.base parts with
  | .document content => return content
  | .directory => throw (.isDirectory shown)
  | .nothing => throw (.missing shown)

/-- The document at a path. -/
def read? (files : Files) (path : Path) : Except FileError Document :=
  files.find? (.ofPath path) path.text

/-- Whether there is a document at a place. -/
def hasDocument (files : Files) (place : Place) : Bool :=
  match files.node place.base place.path.settle.parts with
  | .document _ => true
  | _ => false

/-- A path from the root, as it is shown. -/
def absolute (files : Files) (path : Path) : String :=
  let parts := path.settle.parts
  if path.isRelative then "/".intercalate (files.working :: parts)
  else path.root ++ "/".intercalate parts

/-- Opens a path for writing : the directory must be there, and at the path itself there must
be none. Answers the path that leads there with no steps back. -/
def openForWriting? (files : Files) (path : Path) : Except FileError Path := do
  let shown := files.absolute path
  admit? shown
  let place := Place.ofPath path.settle
  let parts ← files.follow? place.base shown [] place.path.parts
  match files.node place.base parts, files.node place.base parts.dropLast with
  | .directory, _ => throw (.isDirectory shown)
  | _, .directory => return ⟨path.root, parts⟩
  | _, _ => throw (.missing shown)

/-- What there is once a path has been opened for writing : an empty document, if there was
none before. -/
def touch (files : Files) (path : Path) : Files :=
  let place := Place.ofPath path
  if files.hasDocument place then files
  else { files with documents := files.documents ++ [(place, .null)] }

end Files

end Confinement

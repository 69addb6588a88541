import Confinement.Config.Source
import Confinement.Document.Figure

/-!
# Region files

A region file holds a mapping with the region's boxes in the order of delivery, or else with
rectangles in any order. A box or rectangle has four parts, which are coordinates as the
document holds them.
-/

namespace Confinement

/-- Why a file describes no region. -/
inductive RegionFileError where
  /-- The file holds no mapping or cannot be opened. -/
  | config (reason : ConfigError)
  /-- A value is of the wrong kind. -/
  | access (reason : Document.AccessError)
  /-- A box has not four parts. -/
  | boxEntry (entry : Document)
  /-- A rectangle has not four parts. -/
  | rectangleEntry (entry : Document)
  /-- A box or rectangle is a mapping, which has no part of this number. -/
  | noPart (number : Nat)
  /-- The boxes or rectangles make no region. -/
  | region (reason : RegionError Figure)
  /-- The mapping has neither boxes nor rectangles. -/
  | noShapes (path : String)

/-- The wording of each failure. -/
def RegionFileError.message : RegionFileError → String
  | .config reason => reason.message
  | .access reason => reason.message
  | .boxEntry entry => "Box entry must be [x1, y1, x2, y2], got " ++ entry.quoted
  | .rectangleEntry entry =>
    "Rectangle entry must be [x, y, width, height], got " ++ entry.quoted
  | .noPart number => Nat.repr number
  | .region reason => reason.message
  | .noShapes path => s!"Region file {path} must define 'boxes' or 'rectangles'"

namespace RegionFile

/-- A region as a file describes it. -/
inductive Source where
  /-- Boxes in the order of delivery. -/
  | boxes (boxes : List (Box Figure))
  /-- Rectangles in any order. -/
  | rectangles (rectangles : List (Rectangle Figure))

/-- The parts of a box or rectangle, of which there must be four. They are looked up by their
number. -/
def parts? (refuse : Document → RegionFileError) (entry : Document) :
    Except RegionFileError (List Document) := do
  let length ← entry.length?.mapError .access
  if length ≠ 4 then throw (refuse entry)
  match entry with
  | .mapping _ => throw (.noPart 0)
  | entry => entry.items?.mapError .access

/-- A box. -/
def box? (entry : Document) : Except RegionFileError (Box Figure) := do
  match ← parts? .boxEntry entry with
  | [left, top, right, bottom] =>
    (Box.ofCorners? ⟨left, none⟩ ⟨top, none⟩ ⟨right, none⟩ ⟨bottom, none⟩).mapError fun reason =>
      .region (.box reason)
  | _ => throw (.boxEntry entry)

/-- The rectangle number `index`. Its sizes are numbered across all rectangles. -/
def rectangle? (entry : Document) (index : Nat) : Except RegionFileError (Rectangle Figure) := do
  match ← parts? .rectangleEntry entry with
  | [x, y, width, height] =>
    return ⟨⟨x, none⟩, ⟨y, none⟩, ⟨width, some (2 * index)⟩, ⟨height, some (2 * index + 1)⟩⟩
  | _ => throw (.rectangleEntry entry)

/-- The entries under a key; a void value has none. -/
def entries? (d : Document) : Except RegionFileError (List Document) :=
  if d.isVoid then .ok [] else d.items?.mapError .access

/-- The description in a mapping. -/
def source? (path : String) (entries : List (String × Document)) :
    Except RegionFileError Source :=
  match Document.find? "boxes" entries with
  | some d => do return .boxes (← (← entries? d).mapM box?)
  | none =>
    match Document.find? "rectangles" entries with
    | some d => do
      return .rectangles (← (← entries? d).zipIdx.mapM fun (entry, i) => rectangle? entry i)
    | none => .error (.noShapes path)

/-- The region of a description. -/
def Source.region? : Source → Except RegionFileError (Region Document)
  | .boxes bs => Figure.plain <$> (Region.ofBoxes? bs).mapError .region
  | .rectangles rs => Figure.plain <$> (Region.ofRectangles? rs).mapError .region

/-- Reads the description at a path. -/
def read? (files : Files) (path : Path) : Except RegionFileError Source := do
  let d ← (Config.readMapping? files path).mapError .config
  let entries ← d.entries?.mapError .access
  source? path.text entries

/-- Reads the region at a path. -/
def load? (files : Files) (path : Path) : Except RegionFileError (Region Document) := do
  (← read? files path).region?

end RegionFile

end Confinement

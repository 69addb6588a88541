import Confinement.Constraint

/-!
# Seats on a display

A seat gives access to the pointer of a display. It can be connected and closed, asked where
the pointer is, and told to warp it. Each connection shows a pointer of its own : it starts
where the display has its pointer, and the warps on the connection move it. Everything a seat
sends to the display is recorded (`DisplayCall`), so that what happens on the display can be
told from the calls. Positions on a display are whole pixels, and a warp goes to the pixel
that holds the position.
-/

namespace Confinement

/-- The name of a display. -/
inductive DisplayName where
  /-- None is given; the display is the one that the environment names. -/
  | standard
  /-- A name. -/
  | named (name : String)
  /-- A name was announced, but nothing was given for it. -/
  | blank
  deriving DecidableEq, Repr

/-- A name in a message. -/
def DisplayName.text : DisplayName → String
  | .standard => "None"
  | .named name => name
  | .blank => "[]"

/-- What a display is sent. -/
inductive DisplayCall where
  /-- A connection is opened to the display of this name. -/
  | openDisplay (name : DisplayName)
  /-- The pointer is warped. -/
  | warp (x y : Int)
  /-- What was sent is carried out. -/
  | sync
  /-- The connection is closed. -/
  | close
  deriving DecidableEq, Repr

/-- A seat and the display it is for. -/
structure Seat where
  /-- The name of the display. -/
  name : DisplayName
  /-- Where a new connection shows the pointer, if the display can be reached at all. -/
  pointer : Option (Point Int)
  /-- Where the connection shows the pointer, if the seat holds one. -/
  connection : Option (Point Int)
  deriving DecidableEq, Repr

/-- Why a seat cannot do what it is told. -/
inductive SeatError where
  /-- The seat holds no connection. -/
  | notConnected
  /-- The display cannot be reached. -/
  | refused (name : DisplayName)
  /-- The position lies in no pixel. -/
  | position (reason : ArithmeticError)
  deriving DecidableEq, Repr

/-- The wording of each failure. -/
def SeatError.message : SeatError → String
  | .notConnected => "Not connected to X11 display"
  | .refused name => "Can't connect to display \"" ++ name.text ++ "\": refused"
  | .position reason => reason.message

/-- Why the pointer of a seat cannot be rechecked. -/
inductive RecheckError (κ : Type) where
  /-- The seat cannot be asked or told. -/
  | seat (reason : SeatError)
  /-- The pointer cannot be recovered. -/
  | recovery (reason : RecoveryError κ)
  deriving DecidableEq, Repr

/-- The wording of each failure. -/
def RecheckError.message {κ : Type} [Coordinate κ] : RecheckError κ → String
  | .seat reason => reason.message
  | .recovery reason => reason.message

namespace Seat

/-- A seat that is not connected yet. -/
def new (name : DisplayName) (pointer : Option (Point Int)) : Seat :=
  ⟨name, pointer, none⟩

/-- Whether the seat holds a connection. -/
def isConnected (s : Seat) : Bool :=
  s.connection.isSome

/-- Opens a connection. It takes the place of the one that the seat holds, if any. -/
def connect (s : Seat) : List DisplayCall × Except SeatError Seat :=
  ([.openDisplay s.name],
    match s.pointer with
    | some p => .ok { s with connection := some p }
    | none => .error (.refused s.name))

/-- Closes the connection, if there is one. -/
def close (s : Seat) : List DisplayCall × Seat :=
  if s.isConnected then ([.close], { s with connection := none }) else ([], s)

/-- Where the pointer is. -/
def position? (s : Seat) : Except SeatError (Point Int) :=
  match s.connection with
  | some p => .ok p
  | none => .error .notConnected

variable {α : Type} [Scalar α]

/-- Warps the pointer to the pixel that holds a position. -/
def warp (s : Seat) (target : Point α) : Except SeatError (List DisplayCall × Seat) :=
  if s.isConnected then do
    let x ← (Scalar.floor target.x).mapError .position
    let y ← (Scalar.floor target.y).mapError .position
    return ([.warp x y, .sync], { s with connection := some ⟨x, y⟩ })
  else .error .notConnected

/-- Warps the pointer back if it is outside the region of a constraint, and tells whether it
was. -/
def recheck {κ : Type} [Coordinate κ] [Lift κ α] (s : Seat) (c : Constraint κ α) :
    Except (RecheckError κ) (List DisplayCall × Bool × Seat) := do
  let position ← s.position?.mapError .seat
  match ← (c.correction? (position.map Coordinate.ofInt)).mapError .recovery with
  | none => return ([], false, s)
  | some safe =>
    let (calls, after) ← (s.warp safe).mapError .seat
    return (calls, true, after)

end Seat

/-! ## Steps -/

/-- What can be done with a seat. -/
inductive SeatStep (κ α : Type) [Coordinate κ] where
  /-- It is connected. -/
  | connect
  /-- Its connection is closed. -/
  | close
  /-- A block that works with it is entered. -/
  | enter
  /-- The block is left. -/
  | leave
  /-- It is asked where the pointer is. -/
  | position
  /-- The pointer is warped. -/
  | warp (target : Point α)
  /-- The pointer is warped back if it is outside the region of a constraint. -/
  | recheck (c : Constraint κ α)
  deriving DecidableEq, Repr

/-- What a step answers. -/
inductive SeatAnswer where
  /-- Nothing. -/
  | done
  /-- The seat itself. -/
  | seat
  /-- Where the pointer is. -/
  | position (pointer : Point Int)
  /-- Whether the pointer was warped. -/
  | warped (value : Bool)
  deriving DecidableEq, Repr

namespace Seat

variable {κ α : Type} [Coordinate κ] [Scalar α] [Lift κ α]

/-- What a step sends to the display, and its answer with the seat after it unless it fails. A
block is entered with a new connection, which is closed when the block is left. -/
def perform (s : Seat) :
    SeatStep κ α → List DisplayCall × Except (RecheckError κ) (SeatAnswer × Seat)
  | .connect =>
    let (calls, after) := s.connect
    (calls, (fun after => (.done, after)) <$> after.mapError .seat)
  | .enter =>
    let (calls, after) := s.connect
    (calls, (fun after => (.seat, after)) <$> after.mapError .seat)
  | .close =>
    let (calls, after) := s.close
    (calls, .ok (.done, after))
  | .leave =>
    let (calls, after) := s.close
    (calls, .ok (.done, after))
  | .position => ([], (fun pointer => (.position pointer, s)) <$> s.position?.mapError .seat)
  | .warp target =>
    match s.warp target with
    | .ok (calls, after) => (calls, .ok (.done, after))
    | .error e => ([], .error (.seat e))
  | .recheck c =>
    match s.recheck c with
    | .ok (calls, warped, after) => (calls, .ok (.warped warped, after))
    | .error e => ([], .error e)

/-- The seat after a step, whether it fails or not. -/
def next (s : Seat) (action : SeatStep κ α) : Seat :=
  match (s.perform action).2 with
  | .ok (_, after) => after
  | .error _ => s

end Seat

end Confinement

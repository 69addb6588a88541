import Confinement.Arithmetic
import Confinement.Binary
import Confinement.Number
import Confinement.Decimal.Literal
import Confinement.Text.Quoted
import Confinement.Geometry.Box
import Confinement.Geometry.Border
import Confinement.Region.Basic
import Confinement.Outline.OfRegion
import Confinement.Document.Reader
import Confinement.Document.Writer
import Confinement.Session
import Confinement.Seat
import Confinement.Files
import Confinement.Config.Source
import Confinement.Log.Setup
import Confinement.Command.Run
import Confinement.Main
import Confinement.Proofs.Journeys
import Confinement.Proofs.Tunnels
import Confinement.Proofs.Uniqueness
import Confinement.Proofs.Corners
import Confinement.Proofs.Recoveries
import Confinement.Proofs.Nearest
import Confinement.Proofs.Vertices
import Confinement.Proofs.Decoding
import Confinement.Proofs.Sessions
import Confinement.Proofs.Rechecks
import Confinement.Proofs.Seats
import Confinement.Proofs.Landings
import Confinement.Proofs.Margins
import Confinement.Proofs.Deliveries
import Confinement.Proofs.Origins
import Confinement.Proofs.Tolerances
import Confinement.Proofs.Extractions
import Confinement.Proofs.Turns
import Confinement.Proofs.SingleBoxes
import Confinement.Proofs.FirstHits
import Confinement.Proofs.Interiors
import Confinement.Proofs.Extents
import Confinement.Proofs.Loadings
import Confinement.Proofs.Refusals
import Confinement.Proofs.Connections
import Confinement.Proofs.Crossings
import Confinement.Proofs.Differences
import Confinement.Proofs.Rejoins
import Confinement.Proofs.Agreements

import Easel.Config.Document
import Easel.Report.Session
import Easel.Script.Pen
import Easel.Proofs.PixelFormat.Odometer
import Easel.Proofs.PixelFormat.Offers
import Easel.Proofs.PixelFormat.Counting
import Easel.Proofs.PixelFormat.Reduction
import Easel.Proofs.Mesh.Blocks
import Easel.Proofs.Mesh.Cache
import Easel.Proofs.Mesh.Primitives
import Easel.Proofs.Mesh.Series
import Easel.Proofs.Number.Single
import Easel.Proofs.Pen.Figures
import Easel.Proofs.Pen.Cached
import Easel.Proofs.Render.Drawing
import Easel.Proofs.Render.InStep
import Easel.Proofs.Studio.Moves
import Easel.Proofs.Studio.InStep
import Easel.Proofs.Event.Bus
import Easel.Proofs.Handle.Ledger
import Easel.Proofs.Render.Size
import Easel.Proofs.DisplayMode
import Easel.Proofs.Render.Opening
import Easel.Proofs.Studio.Full
import Easel.Proofs.Studio.Resizing
import Easel.Proofs.Render.Relay
import Easel.Proofs.Studio.Textures
import Easel.Proofs.Studio.Confined
import Easel.Proofs.Studio.Painted
import Easel.Proofs.Event.Delivery
import Easel.Proofs.Studio.Inside
import Easel.Proofs.Render.Reopening
import Easel.Proofs.Pen.Coordinates
import Easel.Proofs.Studio.Asking
import Easel.Proofs.Studio.Windows
import Easel.Proofs.Registry
import Easel.Proofs.Pen.Crossing
import Easel.Proofs.Geometry.Segment
import Easel.Proofs.Number.Nearest
import Easel.Proofs.Number.Order
import Easel.Proofs.Pen.Sweep
import Easel.Proofs.Pen.Wide
import Easel.Proofs.Pen.Withheld
import Easel.Proofs.Pen.Nesting
import Easel.Proofs.Config.Lookup
import Easel.Proofs.Config.Changes
import Easel.Proofs.Config.Document
import Easel.Proofs.PixelFormat.Candidates
import Easel.Proofs.Studio.Options
import Easel.Proofs.Geometry.Rect
import Easel.Proofs.Render.Repeats
import Easel.Proofs.Mesh.Maximal
import Easel.Proofs.Studio.Handling
import Easel.Proofs.Render.Patterns
import Easel.Proofs.Render.Sessions
import Easel.Proofs.Render.Fitting

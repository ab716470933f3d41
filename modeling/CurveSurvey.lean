import CurveSurvey.Precision
import CurveSurvey.Rect
import CurveSurvey.Formula
import CurveSurvey.Bracket
import CurveSurvey.Cursor
import CurveSurvey.Refinement
import CurveSurvey.Scan
import CurveSurvey.Solver.Roots
import CurveSurvey.Landmarks
import CurveSurvey.Viewport.Magnitude
import CurveSurvey.Viewport.Sweep
import CurveSurvey.Scan.Journal
import CurveSurvey.Proofs.Order
import CurveSurvey.Proofs.Binary.Arithmetic
import CurveSurvey.Proofs.Machine
import CurveSurvey.Proofs.Progress
import CurveSurvey.Proofs.Interval
import CurveSurvey.Proofs.Interval.Negated
import CurveSurvey.Proofs.Viewport.Sides
import CurveSurvey.Proofs.Viewport.Contributions
import CurveSurvey.Proofs.Viewport.Limits
import CurveSurvey.Proofs.Viewport.Display
import CurveSurvey.Proofs.Refinement
import CurveSurvey.Proofs.Roots
import CurveSurvey.Proofs.Trace
import CurveSurvey.Proofs.Stride
import CurveSurvey.Proofs.Coverage
import CurveSurvey.Proofs.Nearest
import CurveSurvey.Proofs.Viewport.Forced
import CurveSurvey.Proofs.Binary.Symmetry
import CurveSurvey.Proofs.Numeric
import CurveSurvey.Proofs.Crossing
import CurveSurvey.Proofs.Directions
import CurveSurvey.Proofs.Structure
import CurveSurvey.Proofs.Exact
import CurveSurvey.Proofs.Room
import CurveSurvey.Proofs.Termination
import CurveSurvey.Proofs.Viewport.Containment
import CurveSurvey.Proofs.Viewport.Starts
import CurveSurvey.Proofs.Viewport.Crossings
import CurveSurvey.Proofs.Viewport.Spacing
import CurveSurvey.Proofs.Viewport.Bounds
import CurveSurvey.Proofs.Viewport.Diagonal
import CurveSurvey.Proofs.Solutions
import CurveSurvey.Proofs.Landmarks
import CurveSurvey.Proofs.Stretch
import CurveSurvey.Proofs.RootList
import CurveSurvey.Proofs.Padding
import CurveSurvey.Proofs.Viewport.Caps
import CurveSurvey.Proofs.Viewport.Normalization
import CurveSurvey.Proofs.Viewport.Fixpoints
import CurveSurvey.Proofs.Refinement.Samples
import CurveSurvey.Proofs.Extrema
import CurveSurvey.Proofs.Refinement.Orientation
import CurveSurvey.Proofs.Refinement.Enclosure
import CurveSurvey.Proofs.Transparency
import CurveSurvey.Proofs.Viewport.Precise
import CurveSurvey.Proofs.Refinement.Nesting
import CurveSurvey.Proofs.Refinement.Displacement
import CurveSurvey.Proofs.Refinement.Drift
import CurveSurvey.Proofs.Refinement.Sections
import CurveSurvey.Proofs.Viewport.Flattening
import CurveSurvey.Proofs.Jumps
import CurveSurvey.Proofs.Lengthening
import CurveSurvey.Proofs.Extended
import CurveSurvey.Proofs.Viewport.Magnitude
import CurveSurvey.Proofs.History
import CurveSurvey.Proofs.Halving
import CurveSurvey.Proofs.Narrowing
import CurveSurvey.Proofs.AdaptiveStep
import CurveSurvey.Proofs.Viewport.EvenSamples
import CurveSurvey.Proofs.Span
import CurveSurvey.Proofs.Symmetry

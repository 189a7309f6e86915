import Hexagony.Command.Arguments
import Hexagony.Command.Journal
import Hexagony.Command.Run
import Hexagony.Command.Session
import Hexagony.Command.World
import Hexagony.Escape
import Hexagony.Execution
import Hexagony.Failure
import Hexagony.Grid.Basic
import Hexagony.Grid.Shape
import Hexagony.Grid.Wrap
import Hexagony.Interpreter
import Hexagony.Machine.Basic
import Hexagony.Machine.Input
import Hexagony.Machine.Output
import Hexagony.Main
import Hexagony.Memory.Basic
import Hexagony.Memory.Lattice
import Hexagony.Opcode
import Hexagony.Plane.Basic
import Hexagony.Plane.Mirror
import Hexagony.Proofs.Budgets
import Hexagony.Proofs.Escape
import Hexagony.Proofs.Execution
import Hexagony.Proofs.Grid.Drawing
import Hexagony.Proofs.Grid.Numbering
import Hexagony.Proofs.Grid.Ranges
import Hexagony.Proofs.Grid.Shape
import Hexagony.Proofs.Grid.Symmetry
import Hexagony.Proofs.Grid.Wrap
import Hexagony.Proofs.Interpreter
import Hexagony.Proofs.Listing
import Hexagony.Proofs.Machine.Division
import Hexagony.Proofs.Machine.Input
import Hexagony.Proofs.Machine.Numerals
import Hexagony.Proofs.Machine.Output
import Hexagony.Proofs.Memory.Dump
import Hexagony.Proofs.Memory.Lattice
import Hexagony.Proofs.Pointers
import Hexagony.Proofs.Scaffold.Cursor
import Hexagony.Proofs.Scaffold.Discovery
import Hexagony.Proofs.Scaffold.Equivalence
import Hexagony.Proofs.Scaffold.Fill
import Hexagony.Proofs.Scaffold.Forks
import Hexagony.Proofs.Scaffold.Independence
import Hexagony.Proofs.Scaffold.Journey
import Hexagony.Proofs.Scaffold.Layout
import Hexagony.Proofs.Scaffold.Resolution
import Hexagony.Proofs.Scaffold.Rotation
import Hexagony.Proofs.Scaffold.Segment
import Hexagony.Proofs.Scaffold.Survey
import Hexagony.Proofs.Scaffold.Walk
import Hexagony.Proofs.Scaffold.WellFormed
import Hexagony.Proofs.Search.Choice
import Hexagony.Proofs.Search.Counts
import Hexagony.Proofs.Search.Coverage
import Hexagony.Proofs.Search.Dispatch
import Hexagony.Proofs.Search.Filling
import Hexagony.Proofs.Search.Fork
import Hexagony.Proofs.Search.Interleaving
import Hexagony.Proofs.Search.Positions
import Hexagony.Proofs.Search.Solutions
import Hexagony.Proofs.Search.Stages
import Hexagony.Proofs.Search.Tally
import Hexagony.Proofs.Search.Words
import Hexagony.Proofs.Simulation
import Hexagony.Proofs.Stream
import Hexagony.Proofs.Text
import Hexagony.Proofs.Verdict
import Hexagony.Scaffold.Basic
import Hexagony.Scaffold.Compile
import Hexagony.Scaffold.Cursor
import Hexagony.Scaffold.Layout
import Hexagony.Scaffold.Replay
import Hexagony.Scaffold.Survey
import Hexagony.Search.Candidates
import Hexagony.Search.Config
import Hexagony.Search.Dispatch
import Hexagony.Search.Journal
import Hexagony.Search.Report
import Hexagony.Search.Trial
import Hexagony.Stream
import Hexagony.Text

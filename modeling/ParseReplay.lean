import ParseReplay.Animation.Command
import ParseReplay.Animation.Scheduler
import ParseReplay.Automaton.Adjacency
import ParseReplay.Automaton.Edge
import ParseReplay.Automaton.Graph
import ParseReplay.Automaton.Layout
import ParseReplay.Automaton.Picture
import ParseReplay.Decimal.Binary64
import ParseReplay.Decimal.Notation
import ParseReplay.Decimal.Shortest
import ParseReplay.Fault
import ParseReplay.Json.Defect
import ParseReplay.Json.Document
import ParseReplay.Json.Numeral
import ParseReplay.Json.Quote
import ParseReplay.Json.Token
import ParseReplay.Json.Value
import ParseReplay.Log
import ParseReplay.Page.Address
import ParseReplay.Page.Form
import ParseReplay.Page.Html
import ParseReplay.Page.View
import ParseReplay.Plane.Arc
import ParseReplay.Plane.Bounds
import ParseReplay.Plane.Vec
import ParseReplay.Random.Keystream
import ParseReplay.Replay.ParseTree
import ParseReplay.Replay.Stepper
import ParseReplay.Scalar
import ParseReplay.Scalar.Binary64
import ParseReplay.Session
import ParseReplay.Settings
import ParseReplay.Source
import ParseReplay.Surface.Canvas
import ParseReplay.Surface.Op
import ParseReplay.Text.Printable
import ParseReplay.Text.Quoted
import ParseReplay.Trace.Basic
import ParseReplay.Trace.Decode
import ParseReplay.Trace.Refusal
import ParseReplay.Proofs.Animation.History
import ParseReplay.Proofs.Replay.Calls
import ParseReplay.Proofs.Replay.Listing
import ParseReplay.Proofs.Replay.Verdict
import ParseReplay.Proofs.Session.Calls
import ParseReplay.Proofs.Session.Drawing
import ParseReplay.Proofs.Replay.Spacing
import ParseReplay.Proofs.Replay.Order
import ParseReplay.Proofs.Animation.Clock
import ParseReplay.Proofs.Session.Gating
import ParseReplay.Proofs.Automaton.Transitions
import ParseReplay.Proofs.Plane.Vector
import ParseReplay.Proofs.Automaton.Forces
import ParseReplay.Proofs.Automaton.Renaming
import ParseReplay.Proofs.Automaton.Momentum
import ParseReplay.Proofs.Session.Reports
import ParseReplay.Proofs.Session.Ending
import ParseReplay.Proofs.Session.Painting
import ParseReplay.Proofs.Automaton.Resizing
import ParseReplay.Proofs.Session.Separation
import ParseReplay.Proofs.Json.Grammar
import ParseReplay.Proofs.Json.Tokens
import ParseReplay.Proofs.Json.Documents
import ParseReplay.Proofs.Json.Reading
import ParseReplay.Proofs.Json.Meaning
import ParseReplay.Proofs.Json.Values
import ParseReplay.Proofs.Trace.Spelling
import ParseReplay.Proofs.Trace.Kept
import ParseReplay.Proofs.Trace.Actions
import ParseReplay.Proofs.Trace.Decoding
import ParseReplay.Proofs.Animation.Timing
import ParseReplay.Proofs.Automaton.Bodies
import ParseReplay.Proofs.Automaton.Congruence
import ParseReplay.Proofs.Automaton.Stopping
import ParseReplay.Proofs.Replay.Halting
import ParseReplay.Proofs.Replay.Rows
import ParseReplay.Proofs.Automaton.Edges
import ParseReplay.Proofs.Plane.Sweep
import ParseReplay.Proofs.Plane.Travel
import ParseReplay.Proofs.Automaton.Bends
import ParseReplay.Proofs.Automaton.HalfTurns
import ParseReplay.Proofs.Automaton.Straight
import ParseReplay.Proofs.Automaton.Picture
import ParseReplay.Proofs.Automaton.Domain
import ParseReplay.Proofs.Plane.Scaling

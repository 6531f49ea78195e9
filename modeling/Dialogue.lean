import Dialogue.Check.Analysis
import Dialogue.Check.Diagnostic
import Dialogue.Check.Files
import Dialogue.CommandLine
import Dialogue.Config
import Dialogue.Decimal.Dyadic
import Dialogue.Decimal.Fixed
import Dialogue.Decimal.Numeral
import Dialogue.Decimal.Shortest
import Dialogue.Encoding.Play
import Dialogue.Encoding.Script
import Dialogue.Encoding.Settings
import Dialogue.Files.Disk
import Dialogue.Files.Path
import Dialogue.Files.Pictures
import Dialogue.Json.Number
import Dialogue.Json.Printer
import Dialogue.Json.Reader
import Dialogue.Json.Value
import Dialogue.Main
import Dialogue.Play.Cue
import Dialogue.Play.Effect
import Dialogue.Play.Narrator
import Dialogue.Play.Phase
import Dialogue.Player
import Dialogue.Proofs.Check.Exactness
import Dialogue.Proofs.Check.Labels
import Dialogue.Proofs.Check.Pictures
import Dialogue.Proofs.Check.SilentLoop
import Dialogue.Proofs.Check.Soundness
import Dialogue.Proofs.Check.Suspension
import Dialogue.Proofs.Check.Walk
import Dialogue.Proofs.Decimal.Overflow
import Dialogue.Proofs.Decimal.Rounding
import Dialogue.Proofs.Decimal.Sum
import Dialogue.Proofs.Json.Printed
import Dialogue.Proofs.Json.Records
import Dialogue.Proofs.Play.Calls
import Dialogue.Proofs.Play.Clicks
import Dialogue.Proofs.Play.Coherence
import Dialogue.Proofs.Play.Composition
import Dialogue.Proofs.Play.ControlFlow
import Dialogue.Proofs.Play.Course
import Dialogue.Proofs.Play.Cues
import Dialogue.Proofs.Play.Faults
import Dialogue.Proofs.Play.Flow
import Dialogue.Proofs.Play.Reader
import Dialogue.Proofs.Play.Reading
import Dialogue.Proofs.Play.Tick
import Dialogue.Proofs.Player.Closing
import Dialogue.Proofs.Player.Conduct
import Dialogue.Proofs.Player.Input
import Dialogue.Proofs.Player.Transcript
import Dialogue.Proofs.Player.Turns
import Dialogue.Proofs.Script.Assembly
import Dialogue.Proofs.Script.Attributes
import Dialogue.Proofs.Script.Content
import Dialogue.Proofs.Script.Draft
import Dialogue.Proofs.Script.Encoded
import Dialogue.Proofs.Script.Inline
import Dialogue.Proofs.Script.LineGrammar
import Dialogue.Proofs.Script.Movement
import Dialogue.Proofs.Script.NormalForm
import Dialogue.Proofs.Script.Outline
import Dialogue.Proofs.Script.Parameters
import Dialogue.Proofs.Script.RoundTrip
import Dialogue.Proofs.Script.Written
import Dialogue.Proofs.Stage.Alike
import Dialogue.Proofs.Stage.Attendance
import Dialogue.Proofs.Stage.Changes
import Dialogue.Proofs.Stage.Deeds
import Dialogue.Proofs.Stage.Figures
import Dialogue.Proofs.Stage.Finale
import Dialogue.Proofs.Stage.Instructions
import Dialogue.Proofs.Stage.Isolation
import Dialogue.Proofs.Stage.Lanes
import Dialogue.Proofs.Stage.Ledger
import Dialogue.Proofs.Stage.Lifecycle
import Dialogue.Proofs.Stage.Lineup
import Dialogue.Proofs.Stage.Orders
import Dialogue.Proofs.Stage.Performance
import Dialogue.Proofs.Stage.Pictures
import Dialogue.Proofs.Stage.Places
import Dialogue.Proofs.Stage.Presence
import Dialogue.Proofs.Stage.Prompts
import Dialogue.Proofs.Stage.Reload
import Dialogue.Proofs.Stage.Repose
import Dialogue.Proofs.Stage.Requests
import Dialogue.Proofs.Stage.Reveal
import Dialogue.Proofs.Stage.Scenery
import Dialogue.Proofs.Stage.Service
import Dialogue.Proofs.Stage.Shift
import Dialogue.Proofs.Stage.Single
import Dialogue.Proofs.Stage.Skipping
import Dialogue.Proofs.Stage.Standing
import Dialogue.Proofs.Stage.Timing
import Dialogue.Proofs.Stage.Tweens
import Dialogue.Proofs.Stage.Twins
import Dialogue.Proofs.Stage.Typing
import Dialogue.Proofs.Table
import Dialogue.Proofs.Text.Pattern
import Dialogue.Proofs.Text.Replacement
import Dialogue.Proofs.Variable.Addition
import Dialogue.Proofs.Variable.Finite
import Dialogue.Proofs.Variable.Placeholders
import Dialogue.Proofs.Variable.Reordering
import Dialogue.Script.Action
import Dialogue.Script.Attribute
import Dialogue.Script.Cursor
import Dialogue.Script.Line
import Dialogue.Script.Parse
import Dialogue.Script.Parser
import Dialogue.Script.Program
import Dialogue.Script.Source
import Dialogue.Script.Tag
import Dialogue.Session
import Dialogue.SortedTable
import Dialogue.Stage.Act
import Dialogue.Stage.Board
import Dialogue.Stage.Console
import Dialogue.Stage.Director
import Dialogue.Stage.Queues
import Dialogue.Stage.Screen
import Dialogue.Stage.Settings
import Dialogue.Stage.Stage
import Dialogue.Stage.Timeline
import Dialogue.Stage.Typewriter
import Dialogue.Table
import Dialogue.Text.Alphanumeric
import Dialogue.Text.Blank
import Dialogue.Text.Case
import Dialogue.Text.Lines
import Dialogue.Text.Replace
import Dialogue.Variable.Store
import Dialogue.Variable.Substitution
import Dialogue.Variable.Value

import LiveForm.AutoSave.Basic
import LiveForm.AutoSave.Run
import LiveForm.Command.Basic
import LiveForm.Command.Console
import LiveForm.Command.Form
import LiveForm.Command.Formula
import LiveForm.Command.Page
import LiveForm.Document.Error
import LiveForm.Document.Glyph
import LiveForm.Document.Json
import LiveForm.Document.Node
import LiveForm.Document.Part
import LiveForm.Document.Reader
import LiveForm.Document.Scalar
import LiveForm.Fault
import LiveForm.Files
import LiveForm.Form.Basic
import LiveForm.Form.Change
import LiveForm.Form.Condition
import LiveForm.Form.Definition
import LiveForm.Form.Error
import LiveForm.Form.Loader
import LiveForm.Form.Store
import LiveForm.Form.View
import LiveForm.Formula.Cache
import LiveForm.Formula.Context
import LiveForm.Formula.Error
import LiveForm.Formula.Eval
import LiveForm.Formula.Lexer
import LiveForm.Formula.Parser
import LiveForm.Formula.Reads
import LiveForm.Formula.Syntax
import LiveForm.Formula.Token
import LiveForm.Graph
import LiveForm.Host
import LiveForm.Logged
import LiveForm.Main
import LiveForm.Number.Basic
import LiveForm.Number.Binary
import LiveForm.Number.Decimal
import LiveForm.Number.Error
import LiveForm.Number.Numeral
import LiveForm.Pattern.Basic
import LiveForm.Pattern.Bounds
import LiveForm.Pattern.ClassReader
import LiveForm.Pattern.Error
import LiveForm.Pattern.Escape
import LiveForm.Pattern.Flags
import LiveForm.Pattern.Match
import LiveForm.Pattern.Parser
import LiveForm.Pattern.Piece
import LiveForm.Proofs.AutoSave.Account
import LiveForm.Proofs.AutoSave.Course
import LiveForm.Proofs.AutoSave.Moves
import LiveForm.Proofs.AutoSave.Repeats
import LiveForm.Proofs.AutoSave.Supersession
import LiveForm.Proofs.AutoSave.Timer
import LiveForm.Proofs.AutoSave.Version
import LiveForm.Proofs.AutoSave.Waiting
import LiveForm.Proofs.Form.Dirty
import LiveForm.Proofs.Form.Disabled
import LiveForm.Proofs.Form.Edits
import LiveForm.Proofs.Form.Given
import LiveForm.Proofs.Form.Lineage
import LiveForm.Proofs.Form.Loading
import LiveForm.Proofs.Form.Mounting
import LiveForm.Proofs.Form.Nesting
import LiveForm.Proofs.Form.Operation
import LiveForm.Proofs.Form.Reach
import LiveForm.Proofs.Form.Reading
import LiveForm.Proofs.Form.Record
import LiveForm.Proofs.Form.Settling
import LiveForm.Proofs.Form.Starting
import LiveForm.Proofs.Form.Steady
import LiveForm.Proofs.Form.Triggers
import LiveForm.Proofs.Form.Validations
import LiveForm.Proofs.Form.Views
import LiveForm.Proofs.Form.Walk
import LiveForm.Proofs.Form.Wiring
import LiveForm.Proofs.Formula.Beginnings
import LiveForm.Proofs.Formula.Caches
import LiveForm.Proofs.Formula.Classes
import LiveForm.Proofs.Formula.Code
import LiveForm.Proofs.Formula.Completeness
import LiveForm.Proofs.Formula.Contexts
import LiveForm.Proofs.Formula.Conversion
import LiveForm.Proofs.Formula.Cuts
import LiveForm.Proofs.Formula.Descriptors
import LiveForm.Proofs.Formula.Division
import LiveForm.Proofs.Formula.Failures
import LiveForm.Proofs.Formula.Grammar
import LiveForm.Proofs.Formula.Inference
import LiveForm.Proofs.Formula.Language
import LiveForm.Proofs.Formula.Longest
import LiveForm.Proofs.Formula.Names
import LiveForm.Proofs.Formula.Nodes
import LiveForm.Proofs.Formula.Orders
import LiveForm.Proofs.Formula.Outcomes
import LiveForm.Proofs.Formula.Pieces
import LiveForm.Proofs.Formula.Readers
import LiveForm.Proofs.Formula.Reads
import LiveForm.Proofs.Formula.Roots
import LiveForm.Proofs.Formula.Rows
import LiveForm.Proofs.Formula.Search
import LiveForm.Proofs.Formula.Spelling
import LiveForm.Proofs.Formula.Tiling
import LiveForm.Proofs.Formula.Wrapping
import LiveForm.Proofs.Graph.Closure
import LiveForm.Proofs.Graph.Edges
import LiveForm.Proofs.Graph.Relation
import LiveForm.Proofs.Number.Numeral
import LiveForm.Proofs.Pattern.Takes
import LiveForm.Proofs.Rule.Forms
import LiveForm.Proofs.Rule.Laws
import LiveForm.Proofs.Rule.Merge
import LiveForm.Proofs.Rule.Scene
import LiveForm.Proofs.Session.Collecting
import LiveForm.Proofs.Session.Debounce
import LiveForm.Proofs.Session.Dirty
import LiveForm.Proofs.Session.Events
import LiveForm.Proofs.Session.Findings
import LiveForm.Proofs.Session.Gate
import LiveForm.Proofs.Session.Live
import LiveForm.Proofs.Session.Manual
import LiveForm.Proofs.Session.OnDemand
import LiveForm.Proofs.Session.Prompt
import LiveForm.Proofs.Session.Rounds
import LiveForm.Proofs.Session.Sound
import LiveForm.Proofs.Session.Steps
import LiveForm.Proofs.Session.Submissions
import LiveForm.Proofs.Session.Turns
import LiveForm.Proofs.Session.Undisturbed
import LiveForm.Proofs.Session.Views
import LiveForm.Proofs.Text.Digit
import LiveForm.Proofs.Validation.Email
import LiveForm.Proofs.Validation.Finding
import LiveForm.Proofs.Validation.Leaves
import LiveForm.Proofs.Validation.Ledger
import LiveForm.Proofs.Validation.Returning
import LiveForm.Proofs.Validation.Row
import LiveForm.Proofs.Validation.Verdict
import LiveForm.Proofs.Validation.Vetting
import LiveForm.Proofs.Value.Code
import LiveForm.Proofs.Value.Equality
import LiveForm.Proofs.Value.Ground
import LiveForm.Proofs.Value.Keys
import LiveForm.Proofs.Value.Table
import LiveForm.Proofs.Value.Written
import LiveForm.Rule.Basic
import LiveForm.Rule.Effect
import LiveForm.Session.Basic
import LiveForm.Session.Task
import LiveForm.Session.World
import LiveForm.Settings
import LiveForm.Text.Blank
import LiveForm.Text.Case
import LiveForm.Text.Cased
import LiveForm.Text.CharName
import LiveForm.Text.Digit
import LiveForm.Text.Kin
import LiveForm.Text.Letter
import LiveForm.Text.Printable
import LiveForm.Text.Quoted
import LiveForm.Text.Ranges
import LiveForm.Text.Word
import LiveForm.Validation.Builtin
import LiveForm.Validation.Error
import LiveForm.Validation.Message
import LiveForm.Validation.Registry
import LiveForm.Validation.Run
import LiveForm.Value.Basic
import LiveForm.Value.Compare
import LiveForm.Value.FieldName
import LiveForm.Value.Names
import LiveForm.Value.Property
import LiveForm.Value.Shape
import LiveForm.Value.Table
import LiveForm.Value.Written

import LineScript.Batch
import LineScript.CommandLine
import LineScript.Decimal.Binary
import LineScript.Decimal.Digits
import LineScript.Decimal.Numeral
import LineScript.Fault.Cause
import LineScript.Fault.Kind
import LineScript.Fault.Report
import LineScript.Host.Basic
import LineScript.Host.Clock
import LineScript.Host.FileSystem
import LineScript.Host.Network
import LineScript.Host.Path
import LineScript.Interpreter.Assignment
import LineScript.Interpreter.Call
import LineScript.Interpreter.Declaration
import LineScript.Interpreter.Engine
import LineScript.Interpreter.Expression
import LineScript.Interpreter.Repetition
import LineScript.Interpreter.Run
import LineScript.Interpreter.Selection
import LineScript.Interpreter.Statement
import LineScript.Layout.Scan
import LineScript.Library.Args
import LineScript.Library.Collection
import LineScript.Library.Conversion
import LineScript.Library.Dispatch
import LineScript.Library.Files
import LineScript.Library.Number
import LineScript.Library.Signature
import LineScript.Library.Strings
import LineScript.Library.Time
import LineScript.Machine.Basic
import LineScript.Machine.Heap
import LineScript.Machine.Macro
import LineScript.Machine.Objects
import LineScript.Machine.Scope
import LineScript.Machine.Variables
import LineScript.Main
import LineScript.Program.Basic
import LineScript.Program.CallSites
import LineScript.Program.Continuation
import LineScript.Program.Functions
import LineScript.Program.Include
import LineScript.Program.Loops
import LineScript.Program.Prepare
import LineScript.Program.Structure
import LineScript.Proofs.Blocks.Accepted
import LineScript.Proofs.Blocks.Closers
import LineScript.Proofs.Blocks.Contained
import LineScript.Proofs.Blocks.Grammar
import LineScript.Proofs.Blocks.Line
import LineScript.Proofs.Blocks.Pairing
import LineScript.Proofs.Blocks.Path
import LineScript.Proofs.Blocks.Windows
import LineScript.Proofs.Congruence.Control
import LineScript.Proofs.Congruence.Logic
import LineScript.Proofs.Congruence.Relation
import LineScript.Proofs.Congruence.Statement
import LineScript.Proofs.Congruence.Walk
import LineScript.Proofs.Counting.Loop
import LineScript.Proofs.Counting.Range
import LineScript.Proofs.Custody.Basic
import LineScript.Proofs.Custody.Engine
import LineScript.Proofs.Custody.Handles
import LineScript.Proofs.Custody.Heap
import LineScript.Proofs.Custody.Library
import LineScript.Proofs.Custody.Objects
import LineScript.Proofs.Custody.Pairs
import LineScript.Proofs.Discipline.Basic
import LineScript.Proofs.Discipline.Engine
import LineScript.Proofs.Discipline.Statement
import LineScript.Proofs.Double.Addition
import LineScript.Proofs.Double.Arithmetic
import LineScript.Proofs.Double.Comparison
import LineScript.Proofs.Double.Rounding
import LineScript.Proofs.Double.Units
import LineScript.Proofs.Double.Whole
import LineScript.Proofs.Exit.Engine
import LineScript.Proofs.Exit.Outcome
import LineScript.Proofs.Exit.Prompt
import LineScript.Proofs.Expression.Assignment
import LineScript.Proofs.Expression.Reading
import LineScript.Proofs.Expression.Refinement
import LineScript.Proofs.Expression.Tree
import LineScript.Proofs.Include.Once
import LineScript.Proofs.Include.Paths
import LineScript.Proofs.Include.Running
import LineScript.Proofs.Include.Stack
import LineScript.Proofs.Jumps.Bodies
import LineScript.Proofs.Jumps.Levels
import LineScript.Proofs.Jumps.Nest
import LineScript.Proofs.Layout.Correspondence
import LineScript.Proofs.Layout.Parts
import LineScript.Proofs.Layout.Seek
import LineScript.Proofs.Lines.Attempt
import LineScript.Proofs.Lines.Basic
import LineScript.Proofs.Lines.Engine
import LineScript.Proofs.Lines.Expression
import LineScript.Proofs.Lines.Script
import LineScript.Proofs.Lists
import LineScript.Proofs.Machine.Beside
import LineScript.Proofs.Machine.Evolution
import LineScript.Proofs.Machine.Grid
import LineScript.Proofs.Machine.Library
import LineScript.Proofs.Machine.Margin
import LineScript.Proofs.Maps.Aside
import LineScript.Proofs.Maps.Entries
import LineScript.Proofs.Maps.History
import LineScript.Proofs.Origin.Calls
import LineScript.Proofs.Origin.Include
import LineScript.Proofs.Origin.Program
import LineScript.Proofs.Origin.Residue
import LineScript.Proofs.Origin.Tables
import LineScript.Proofs.Outcome
import LineScript.Proofs.Program.Continuation
import LineScript.Proofs.Program.Expansion
import LineScript.Proofs.Program.Functions
import LineScript.Proofs.Program.Loops
import LineScript.Proofs.Program.Numbering
import LineScript.Proofs.Program.Order
import LineScript.Proofs.Program.Places
import LineScript.Proofs.Program.Source
import LineScript.Proofs.Program.Tables
import LineScript.Proofs.Reading.Bytes
import LineScript.Proofs.Reading.Joined
import LineScript.Proofs.Reading.Numerals
import LineScript.Proofs.Reading.Tiles
import LineScript.Proofs.Reading.Written
import LineScript.Proofs.Rendition.Control
import LineScript.Proofs.Rendition.Engine
import LineScript.Proofs.Rendition.Expression
import LineScript.Proofs.Rendition.Machine
import LineScript.Proofs.Rendition.Parts
import LineScript.Proofs.Rendition.Tokens
import LineScript.Proofs.Run.Binding
import LineScript.Proofs.Run.Calls
import LineScript.Proofs.Run.Chain
import LineScript.Proofs.Run.Constants
import LineScript.Proofs.Run.Control
import LineScript.Proofs.Run.Engine
import LineScript.Proofs.Run.Expression
import LineScript.Proofs.Run.Guard
import LineScript.Proofs.Run.Halting
import LineScript.Proofs.Run.Leaks
import LineScript.Proofs.Run.Locals
import LineScript.Proofs.Run.Registers
import LineScript.Proofs.Run.Scopes
import LineScript.Proofs.Run.Script
import LineScript.Proofs.Run.Statics
import LineScript.Proofs.Run.Texts
import LineScript.Proofs.Spelling.Functions
import LineScript.Proofs.Spelling.Loops
import LineScript.Proofs.Spelling.Outcome
import LineScript.Proofs.Spelling.Script
import LineScript.Proofs.Spelling.Source
import LineScript.Proofs.Spelling.Tokens
import LineScript.Proofs.Structured.Acceptance
import LineScript.Proofs.Structured.Parts
import LineScript.Proofs.Structured.Placement
import LineScript.Proofs.Structured.Refinement
import LineScript.Proofs.Structured.Scan
import LineScript.Proofs.Structured.Tree
import LineScript.Proofs.Structured.Turns
import LineScript.Proofs.Supply.Basic
import LineScript.Proofs.Supply.Control
import LineScript.Proofs.Supply.Engine
import LineScript.Proofs.Supply.Expression
import LineScript.Proofs.Supply.Scope
import LineScript.Proofs.Text.Lower
import LineScript.Proofs.Text.Search
import LineScript.Proofs.Views.Block
import LineScript.Proofs.Views.Cursor
import LineScript.Proofs.Watch.Engine
import LineScript.Proofs.Watch.Suspension
import LineScript.Regex.Automaton
import LineScript.Regex.Bracket
import LineScript.Regex.CharClass
import LineScript.Regex.Match
import LineScript.Regex.Parser
import LineScript.Regex.Pattern
import LineScript.Regex.Reader
import LineScript.Text.Case
import LineScript.Text.Category
import LineScript.Text.Hex
import LineScript.Text.Property
import LineScript.Text.Quoted
import LineScript.Text.Script
import LineScript.Text.Search
import LineScript.Text.Table
import LineScript.Text.Utf8
import LineScript.Token.Basic
import LineScript.Token.Keyword
import LineScript.Token.Lexer
import LineScript.Value.Basic
import LineScript.Value.Operation

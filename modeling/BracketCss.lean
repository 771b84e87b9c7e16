import BracketCss.Cache.Keys
import BracketCss.Cache.System
import BracketCss.Cache.Tier
import BracketCss.Class.Basic
import BracketCss.Class.Reader
import BracketCss.Clean
import BracketCss.Command.Arguments
import BracketCss.Command.Run
import BracketCss.Command.Tree
import BracketCss.Digest
import BracketCss.Distinct
import BracketCss.Engine.Basic
import BracketCss.Engine.Compilation
import BracketCss.Failure
import BracketCss.Json.Basic
import BracketCss.Json.Printer
import BracketCss.Json.Reader
import BracketCss.Main
import BracketCss.Markup
import BracketCss.Number.Binary
import BracketCss.Number.Decimal
import BracketCss.Pattern.Basic
import BracketCss.Pattern.Guarded
import BracketCss.Pattern.Match
import BracketCss.Pattern.Reader
import BracketCss.Proofs.Cache.Entries
import BracketCss.Proofs.Cache.Eviction
import BracketCss.Proofs.Cache.Ledger
import BracketCss.Proofs.Cache.Lifetime
import BracketCss.Proofs.Cache.Memo
import BracketCss.Proofs.Cache.MemoCounts
import BracketCss.Proofs.Cache.MemoLedger
import BracketCss.Proofs.Cache.Recency
import BracketCss.Proofs.Cache.Tier
import BracketCss.Proofs.Class.Cleaned
import BracketCss.Proofs.Class.Faithful
import BracketCss.Proofs.Class.Form
import BracketCss.Proofs.Class.Grammar
import BracketCss.Proofs.Class.Identifier
import BracketCss.Proofs.Class.Overloaded
import BracketCss.Proofs.Class.Property
import BracketCss.Proofs.Class.Reader
import BracketCss.Proofs.Class.Selector
import BracketCss.Proofs.Class.SizeText
import BracketCss.Proofs.Class.Suggestion
import BracketCss.Proofs.Class.Token
import BracketCss.Proofs.Class.Variant
import BracketCss.Proofs.Clean.Loss
import BracketCss.Proofs.Clean.Projection
import BracketCss.Proofs.Engine.Account
import BracketCss.Proofs.Engine.Batch
import BracketCss.Proofs.Engine.Built
import BracketCss.Proofs.Engine.Check
import BracketCss.Proofs.Engine.Fresh
import BracketCss.Proofs.Engine.Grouped
import BracketCss.Proofs.Engine.Keeps
import BracketCss.Proofs.Engine.Kept
import BracketCss.Proofs.Engine.Names
import BracketCss.Proofs.Engine.Padding
import BracketCss.Proofs.Engine.Plain
import BracketCss.Proofs.Engine.Reading
import BracketCss.Proofs.Engine.Run
import BracketCss.Proofs.Engine.Sound
import BracketCss.Proofs.Engine.Trace
import BracketCss.Proofs.Json.Canonical
import BracketCss.Proofs.Json.Printed
import BracketCss.Proofs.Markup.Attribute
import BracketCss.Proofs.Markup.Document
import BracketCss.Proofs.Markup.Element
import BracketCss.Proofs.Number.Binary
import BracketCss.Proofs.Number.Decimal
import BracketCss.Proofs.Pattern.Costly
import BracketCss.Proofs.Pattern.Language
import BracketCss.Proofs.Pattern.Written
import BracketCss.Proofs.Session.Addition
import BracketCss.Proofs.Session.Held
import BracketCss.Proofs.Session.Load
import BracketCss.Proofs.Session.Order
import BracketCss.Proofs.Session.Override
import BracketCss.Proofs.Session.Removal
import BracketCss.Proofs.Session.Room
import BracketCss.Proofs.Session.Run
import BracketCss.Proofs.Session.Sheet
import BracketCss.Proofs.Session.Snapshot
import BracketCss.Proofs.Sheet.Balanced
import BracketCss.Proofs.Sheet.Cascade
import BracketCss.Proofs.Sheet.ClassComment
import BracketCss.Proofs.Sheet.Comment
import BracketCss.Proofs.Sheet.Group
import BracketCss.Proofs.Sheet.Lexeme
import BracketCss.Proofs.Sheet.Merging
import BracketCss.Proofs.Sheet.Options
import BracketCss.Proofs.Sheet.Order
import BracketCss.Proofs.Sheet.Override
import BracketCss.Proofs.Sheet.Partition
import BracketCss.Proofs.Sheet.Parts
import BracketCss.Proofs.Sheet.Readback
import BracketCss.Proofs.Sheet.Reader
import BracketCss.Proofs.Text.Caseless
import BracketCss.Proofs.Text.DecodedCase
import BracketCss.Proofs.Text.Decoding
import BracketCss.Proofs.Text.Firm
import BracketCss.Proofs.Text.FullCase
import BracketCss.Proofs.Text.LetterCase
import BracketCss.Proofs.Text.Pair
import BracketCss.Proofs.Text.Reference
import BracketCss.Proofs.Text.Stop
import BracketCss.Proofs.Threat.Bracket
import BracketCss.Proofs.Threat.Findings
import BracketCss.Proofs.Threat.Front
import BracketCss.Proofs.Threat.LetterCase
import BracketCss.Proofs.Threat.Report
import BracketCss.Proofs.Threat.Shape
import BracketCss.Proofs.Threat.Spelling
import BracketCss.Proofs.Threat.Transfer
import BracketCss.Proofs.Value.Accepted
import BracketCss.Proofs.Value.AnyCase
import BracketCss.Proofs.Value.Bounds
import BracketCss.Proofs.Value.Callee
import BracketCss.Proofs.Value.Calls
import BracketCss.Proofs.Value.Color.Argument
import BracketCss.Proofs.Value.Color.Call
import BracketCss.Proofs.Value.Color.LetterCase
import BracketCss.Proofs.Value.Contained
import BracketCss.Proofs.Value.EditDistance
import BracketCss.Proofs.Value.Enclosed
import BracketCss.Proofs.Value.Environment
import BracketCss.Proofs.Value.Escape
import BracketCss.Proofs.Value.Idempotent
import BracketCss.Proofs.Value.Kept
import BracketCss.Proofs.Value.Laced
import BracketCss.Proofs.Value.LetterCase
import BracketCss.Proofs.Value.LowerCase
import BracketCss.Proofs.Value.Math.Accepted
import BracketCss.Proofs.Value.Math.Callee
import BracketCss.Proofs.Value.Math.LetterCase
import BracketCss.Proofs.Value.Math.Lexed
import BracketCss.Proofs.Value.Math.Lexeme
import BracketCss.Proofs.Value.Math.Nested
import BracketCss.Proofs.Value.Math.Reader
import BracketCss.Proofs.Value.Math.Rules
import BracketCss.Proofs.Value.Math.Stack
import BracketCss.Proofs.Value.Math.Token
import BracketCss.Proofs.Value.Math.Tree
import BracketCss.Proofs.Value.MathCall
import BracketCss.Proofs.Value.Numbers
import BracketCss.Proofs.Value.Piece
import BracketCss.Proofs.Value.Quantity
import BracketCss.Proofs.Value.Rejoined
import BracketCss.Proofs.Value.Resplit
import BracketCss.Proofs.Value.Scan
import BracketCss.Proofs.Value.Shadow
import BracketCss.Proofs.Value.Single
import BracketCss.Proofs.Value.Stable
import BracketCss.Proofs.Value.Suggestion
import BracketCss.Proofs.Value.Trimmed
import BracketCss.Proofs.Value.Uncut
import BracketCss.Proofs.Value.Unseen
import BracketCss.Proofs.Value.Verdict
import BracketCss.Proofs.Value.Word
import BracketCss.Proofs.Value.Words
import BracketCss.Property.Rule
import BracketCss.Property.Utility
import BracketCss.Property.Variant
import BracketCss.Service
import BracketCss.Session
import BracketCss.Sheet.Group
import BracketCss.Sheet.Options
import BracketCss.Sheet.Render
import BracketCss.Sheet.Rule
import BracketCss.Text.Blank
import BracketCss.Text.Case
import BracketCss.Text.CharacterReference
import BracketCss.Text.Digit
import BracketCss.Text.Escape
import BracketCss.Text.Letter
import BracketCss.Text.LetterTable
import BracketCss.Text.Pieces
import BracketCss.Text.Quoted
import BracketCss.Text.ReferenceNames
import BracketCss.Text.Similarity
import BracketCss.Text.Utf8
import BracketCss.Threat.Basic
import BracketCss.Threat.Report
import BracketCss.Threat.Risk
import BracketCss.Value.Color
import BracketCss.Value.Components
import BracketCss.Value.Dimension
import BracketCss.Value.Function
import BracketCss.Value.Gradient
import BracketCss.Value.Math.Expr
import BracketCss.Value.Math.Reader
import BracketCss.Value.Math.Token
import BracketCss.Value.Outcome
import BracketCss.Value.Reference
import BracketCss.Value.Scan
import BracketCss.Value.Shadow
import BracketCss.Value.Signature
import BracketCss.Value.Validate

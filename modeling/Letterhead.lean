import Letterhead.Text.Basic
import Letterhead.Text.Blank
import Letterhead.Text.Digit
import Letterhead.Text.Word
import Letterhead.Text.Printable
import Letterhead.Text.CharName
import Letterhead.Text.Case
import Letterhead.Text.Utf8
import Letterhead.Text.Lines
import Letterhead.Text.Quoted
import Letterhead.Number.Rounding
import Letterhead.Number.Binary64
import Letterhead.Number.Shortest
import Letterhead.Template.Value
import Letterhead.Host
import Letterhead.Template.Fault
import Letterhead.Template.Segment
import Letterhead.Template.Spec
import Letterhead.Template.Format
import Letterhead.Template.Expand
import Letterhead.Pattern.CharSet
import Letterhead.Pattern.Regex
import Letterhead.Pattern.Regex.Parser
import Letterhead.Pattern.Regex.Search
import Letterhead.Settings.Basic
import Letterhead.Header.Style
import Letterhead.Header.Render
import Letterhead.Header.Notice
import Letterhead.Header.LineKind
import Letterhead.Header.Placement
import Letterhead.Header.Window
import Letterhead.Header.Rebuild
import Letterhead.Header.Normalize
import Letterhead.Header.Issue
import Letterhead.Header.Halt
import Letterhead.ContentType
import Letterhead.Pattern.Glob.Brace
import Letterhead.Pattern.Glob.Bracket
import Letterhead.Pattern.Glob.Piece
import Letterhead.Pattern.Glob
import Letterhead.Settings.Datum
import Letterhead.Settings.Problem
import Letterhead.Settings.Scalar
import Letterhead.Settings.Validate
import Letterhead.Selection
import Letterhead.Number.Decimal
import Letterhead.Number.Integer
import Letterhead.Yaml.Cursor
import Letterhead.Yaml.Token
import Letterhead.Yaml.Token.Quoted
import Letterhead.Yaml.Token.Plain
import Letterhead.Yaml.Token.Block
import Letterhead.Yaml.Token.Property
import Letterhead.Yaml.Token.Scan
import Letterhead.Yaml.Tag
import Letterhead.Yaml.Event
import Letterhead.Yaml.Node
import Letterhead.Yaml.Moment
import Letterhead.Yaml.Binary
import Letterhead.Yaml.Scalar
import Letterhead.Yaml.Merge
import Letterhead.Yaml.Document
import Letterhead.Path
import Letterhead.Tree.Basic
import Letterhead.Tree.Locate
import Letterhead.Tree.Walk
import Letterhead.Tree.Replace
import Letterhead.Tree.Tracked
import Letterhead.Tree.Index
import Letterhead.Settings.Load
import Letterhead.Source
import Letterhead.Run.Listing
import Letterhead.Run.Check
import Letterhead.Run.Fix
import Letterhead.Command.Argument
import Letterhead.Command.Options
import Letterhead.Command.Report
import Letterhead.Command.Execute
import Letterhead.Main
import Letterhead.Proofs.Except
import Letterhead.Proofs.Text.Trim
import Letterhead.Proofs.Text.Part
import Letterhead.Proofs.Text.Lines
import Letterhead.Proofs.Header.Placement
import Letterhead.Proofs.Header.Window
import Letterhead.Proofs.Header.Fate
import Letterhead.Proofs.Header.HeaderComment
import Letterhead.Proofs.Header.Reason
import Letterhead.Proofs.Header.Rebuild
import Letterhead.Proofs.Header.Stability
import Letterhead.Proofs.Header.Agreement
import Letterhead.Proofs.Header.Comment
import Letterhead.Proofs.Header.Fit
import Letterhead.Proofs.Header.Placed
import Letterhead.Proofs.Header.Seam
import Letterhead.Proofs.Text.LineEnd
import Letterhead.Proofs.Text.Uniform
import Letterhead.Proofs.Text.Piece
import Letterhead.Proofs.Text.Utf8
import Letterhead.Proofs.Template.Bare
import Letterhead.Proofs.Template.Edge
import Letterhead.Proofs.Header.Render
import Letterhead.Proofs.Header.Position
import Letterhead.Proofs.Header.Shape
import Letterhead.Proofs.Header.OtherYears
import Letterhead.Proofs.Header.Addition
import Letterhead.Proofs.Header.YearBump
import Letterhead.Proofs.Header.UsualStyle
import Letterhead.Proofs.ContentType.Mark
import Letterhead.Proofs.ContentType.Clause
import Letterhead.Proofs.ContentType.Change
import Letterhead.Proofs.ContentType.HeaderLine
import Letterhead.Proofs.Tree.Replace
import Letterhead.Proofs.Run.Fix
import Letterhead.Proofs.Run.FixTwice
import Letterhead.Proofs.Header.BelowWindow
import Letterhead.Proofs.Source
import Letterhead.Proofs.Tree.Node
import Letterhead.Proofs.Tree.Follow
import Letterhead.Proofs.Tree.Locate
import Letterhead.Proofs.Run.Fate
import Letterhead.Proofs.Run.Order
import Letterhead.Proofs.Path
import Letterhead.Proofs.Tree.Walk
import Letterhead.Proofs.Run.Account
import Letterhead.Proofs.Run.Pool
import Letterhead.Proofs.Header.Failure
import Letterhead.Proofs.Header.Halt
import Letterhead.Proofs.Run.Return
import Letterhead.Proofs.Selection
import Letterhead.Proofs.Tree.Tracked
import Letterhead.Proofs.Header.Notices
import Letterhead.Proofs.Run.Listing
import Letterhead.Proofs.Header.LineStyle
import Letterhead.Proofs.Pattern.Blind
import Letterhead.Proofs.Header.Ending
import Letterhead.Proofs.Pattern.Denote
import Letterhead.Proofs.Header.OwnPattern
import Letterhead.Proofs.Header.WindowEnd
import Letterhead.Proofs.Tree.Beside
import Letterhead.Proofs.Tree.AllOrNothing
import Letterhead.Proofs.Run.InMemory
import Letterhead.Proofs.Settings.Load
import Letterhead.Proofs.Extension
import Letterhead.Proofs.ContentType.Indicator
import Letterhead.Proofs.Tree.WalkOrder
import Letterhead.Proofs.Pattern.Glob.Brace
import Letterhead.Proofs.Pattern.Glob.Bracket
import Letterhead.Proofs.Pattern.Glob.Piece
import Letterhead.Proofs.Pattern.Glob.Descend
import Letterhead.Proofs.Pattern.Glob.Below
import Letterhead.Proofs.Settings.Entries
import Letterhead.Proofs.Settings.Field
import Letterhead.Proofs.Settings.ReadBack
import Letterhead.Proofs.Run.PassedOver

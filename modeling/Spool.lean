import Spool.Producer.Basic
import Spool.Producer.Source
import Spool.Context.Basic
import Spool.Context.Cursor
import Spool.Context.Boundary
import Spool.Context.View
import Spool.Grouping.Rule
import Spool.Grouping.Stream
import Spool.Grouping.Groups
import Spool.Grouping.Window
import Spool.Grouping.Rejoin
import Spool.Parser
import Spool.Script.Elements
import Spool.Script.Syntax
import Spool.Script.Reply
import Spool.Script.Handle
import Spool.Script.Run
import Spool.Io.Error
import Spool.Io.Reader
import Spool.Io.Bytes
import Spool.Io.Buffered
import Spool.Io.Lines
import Spool.Text.Blank
import Spool.Text.Printable
import Spool.Text.Escape
import Spool.Tool.Window
import Spool.Tool.RunLength
import Spool.Tool.Paragraphs
import Spool.Tool.Failure
import Spool.Tool.System
import Spool.Tool.Input
import Spool.Tool.Command
import Spool.Tool.Stamp
import Spool.Tool.Invocation
import Spool.Script.Pulls
import Spool.Main
import Spool.Proofs.Lifo
import Spool.Proofs.View
import Spool.Proofs.Rule
import Spool.Proofs.Partition
import Spool.Proofs.Groups
import Spool.Proofs.Reading
import Spool.Proofs.Windows
import Spool.Proofs.Conservation
import Spool.Proofs.ListGrouping
import Spool.Proofs.WindowChains
import Spool.Proofs.ParserLoop
import Spool.Proofs.CursorStream
import Spool.Proofs.Fused
import Spool.Proofs.Bisim
import Spool.Proofs.ScriptBisim
import Spool.Proofs.Regroup
import Spool.Proofs.Offset
import Spool.Proofs.Lookahead
import Spool.Proofs.Stopping
import Spool.Proofs.LazyWindow
import Spool.Proofs.Delivered
import Spool.Proofs.RunReport
import Spool.Proofs.Paragraphs
import Spool.Proofs.ParagraphReport
import Spool.Proofs.Progress
import Spool.Proofs.FirstFailure
import Spool.Proofs.ParseEnds

import Breadboard.Settings.Writing
import Breadboard.Sketch.Grammar
import Breadboard.Sketch.Pass
import Breadboard.Sketch.Rendering
import Breadboard.CommandLine.Folder
import Breadboard.Main
import Breadboard.Proofs.Run.Session
import Breadboard.Proofs.Run.Trace
import Breadboard.Proofs.Run.Timeline
import Breadboard.Proofs.Sketch.Extent
import Breadboard.Proofs.Sketch.LineComment
import Breadboard.Proofs.Sketch.TopLevel
import Breadboard.Proofs.Run.Mirror
import Breadboard.Proofs.Run.HostTime
import Breadboard.Proofs.Sketch.Quoting
import Breadboard.Proofs.Sketch.Spelling
import Breadboard.Proofs.Sketch.Body
import Breadboard.Proofs.Sketch.RoundTrip
import Breadboard.Proofs.Run.Gate
import Breadboard.Proofs.Run.Review
import Breadboard.Proofs.Run.Retention
import Breadboard.Proofs.Run.Restart
import Breadboard.Proofs.Run.Onlooker
import Breadboard.Proofs.Sketch.Recognition
import Breadboard.Proofs.Monitor.Source
import Breadboard.Proofs.Monitor.Review
import Breadboard.Proofs.Sketch.Alignment
import Breadboard.Proofs.Sketch.Nesting
import Breadboard.Proofs.Sketch.Alike
import Breadboard.Proofs.Sketch.Rewording
import Breadboard.Proofs.Board.Fragments
import Breadboard.Proofs.Board.Stream
import Breadboard.Proofs.Board.Growth
import Breadboard.Proofs.Monitor.Clearing
import Breadboard.Proofs.Run.Polling
import Breadboard.Proofs.Sketch.BlockComment
import Breadboard.Proofs.Sketch.Chunks
import Breadboard.Proofs.Board.Independence
import Breadboard.Proofs.Board.Parts
import Breadboard.Proofs.Sketch.Layout
import Breadboard.Proofs.Pane.Comment
import Breadboard.Proofs.Pane.Following
import Breadboard.Proofs.Monitor.Following
import Breadboard.Proofs.Sketch.Rounds

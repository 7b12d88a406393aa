import StreamScan.Text.Characters
import StreamScan.Text.Unmarked
import StreamScan.Text.Notation
import StreamScan.Text.WordCharacter
import StreamScan.Text.Case
import StreamScan.Failure
import StreamScan.Bytes
import StreamScan.Utf8
import StreamScan.Utf8.Text
import StreamScan.Window
import StreamScan.Match
import StreamScan.Source
import StreamScan.Source.Buffer
import StreamScan.Source.Chunks
import StreamScan.Source.Stream
import StreamScan.Source.Script
import StreamScan.Cursor
import StreamScan.Reader
import StreamScan.Cursor.Finite
import StreamScan.Pattern.Expr
import StreamScan.Pattern.Token
import StreamScan.Pattern.Assembly
import StreamScan.Pattern.Search
import StreamScan.Pattern.Forward
import StreamScan.Matcher
import StreamScan.Pattern
import StreamScan.Engine.Excerpt
import StreamScan.Engine
import StreamScan.Engine.Playback
import StreamScan.Scan
import StreamScan.Address.Host
import StreamScan.Address
import StreamScan.Source.Input
import StreamScan.FileSystem
import StreamScan.Source.File
import StreamScan.Pipe
import StreamScan.Feed
import StreamScan.CommandLine.Options
import StreamScan.CommandLine
import StreamScan.Main
import StreamScan.Proofs.Utf8.Decoding
import StreamScan.Proofs.Utf8.Encoding
import StreamScan.Proofs.Window.Sliding
import StreamScan.Proofs.Cursor.Tracking
import StreamScan.Proofs.Source.Recorded
import StreamScan.Proofs.Matcher.Laws
import StreamScan.Proofs.Matcher.Alignment
import StreamScan.Proofs.Matcher.Steadiness
import StreamScan.Proofs.Engine.Reading
import StreamScan.Proofs.Engine.Search
import StreamScan.Proofs.Engine.Turning
import StreamScan.Proofs.Engine.Charting
import StreamScan.Proofs.Engine.Exactness
import StreamScan.Proofs.Source.Delivering
import StreamScan.Proofs.Source.Supplying
import StreamScan.Proofs.Cursor.Recording
import StreamScan.Proofs.Cursor.Moving
import StreamScan.Proofs.Cursor.Invariant
import StreamScan.Proofs.Cursor.Lookback
import StreamScan.Proofs.Cursor.Standing
import StreamScan.Proofs.Cursor.Forward
import StreamScan.Proofs.Cursor.Copying
import StreamScan.Proofs.Cursor.Rewinding
import StreamScan.Proofs.Cursor.Lockstep
import StreamScan.Proofs.Cursor.Following
import StreamScan.Proofs.Scan.Course
import StreamScan.Proofs.Scan.Passes
import StreamScan.Proofs.Engine.Timely
import StreamScan.Proofs.Engine.Oversized
import StreamScan.Proofs.Cursor.Bytewise
import StreamScan.Proofs.Scan.Exactness
import StreamScan.Proofs.Scan.Loss
import StreamScan.Proofs.Scan.Stalling
import StreamScan.Proofs.Scan.Retention
import StreamScan.Proofs.Scan.Small
import StreamScan.Proofs.Pipe.History
import StreamScan.Proofs.Scan.Order
import StreamScan.Proofs.Feed.Interleaving
import StreamScan.Proofs.Scan.Pushing
import StreamScan.Proofs.Source.Logged
import StreamScan.Proofs.Cursor.Signals
import StreamScan.Proofs.Cursor.Latching
import StreamScan.Proofs.Cursor.Extraction
import StreamScan.Proofs.Scan.Consistency
import StreamScan.Proofs.Pipe.Closing
import StreamScan.Proofs.Feed.Ending
import StreamScan.Proofs.Cursor.Marking
import StreamScan.Proofs.Utf8.Sequences
import StreamScan.Proofs.Utf8.Replacing
import StreamScan.Proofs.Source.HandingOut
import StreamScan.Proofs.Source.Reopening
import StreamScan.Proofs.Source.Serving
import StreamScan.Proofs.Scan.Finishing
import StreamScan.Proofs.Scan.Breaking
import StreamScan.Proofs.CommandLine.Reporting

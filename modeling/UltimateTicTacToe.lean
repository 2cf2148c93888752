import UltimateTicTacToe.Agent.Practice
import UltimateTicTacToe.Game.Operation
import UltimateTicTacToe.Main
import UltimateTicTacToe.Proofs.Board
import UltimateTicTacToe.Proofs.Replay
import UltimateTicTacToe.Proofs.Tally
import UltimateTicTacToe.Proofs.Record
import UltimateTicTacToe.Proofs.Cursor
import UltimateTicTacToe.Proofs.Language
import UltimateTicTacToe.Proofs.MoveList
import UltimateTicTacToe.Proofs.Scan
import UltimateTicTacToe.Proofs.Settled
import UltimateTicTacToe.Proofs.Play
import UltimateTicTacToe.Proofs.TileRules
import UltimateTicTacToe.Proofs.ClosedForm
import UltimateTicTacToe.Proofs.Recording
import UltimateTicTacToe.Proofs.Reviewing
import UltimateTicTacToe.Proofs.Json.Text
import UltimateTicTacToe.Proofs.Json.Numeral
import UltimateTicTacToe.Proofs.Json.Tokens
import UltimateTicTacToe.Proofs.Json.Reading
import UltimateTicTacToe.Proofs.Json.Items
import UltimateTicTacToe.Proofs.Archive.OnBoard
import UltimateTicTacToe.Proofs.Archive.Codec
import UltimateTicTacToe.Proofs.Archive.EventList
import UltimateTicTacToe.Proofs.Archive.Routes
import UltimateTicTacToe.Proofs.Archive.RoundTrip
import UltimateTicTacToe.Proofs.Moves
import UltimateTicTacToe.Proofs.Choice
import UltimateTicTacToe.Proofs.Length
import UltimateTicTacToe.Proofs.Agent
import UltimateTicTacToe.Proofs.Match.Game
import UltimateTicTacToe.Match.Course
import UltimateTicTacToe.Proofs.Match.Result
import UltimateTicTacToe.Proofs.Match.Course
import UltimateTicTacToe.Proofs.Match.Feed
import UltimateTicTacToe.Proofs.Practice.Calls
import UltimateTicTacToe.Proofs.Practice.Turns
import UltimateTicTacToe.Proofs.Practice.Reported
import UltimateTicTacToe.Proofs.Practice.Answered
import UltimateTicTacToe.Proofs.Archive.Feed
import UltimateTicTacToe.Proofs.Json.Ordered
import UltimateTicTacToe.Proofs.Archive.Direct
import UltimateTicTacToe.Proofs.Symmetry
import UltimateTicTacToe.Proofs.Target
import UltimateTicTacToe.Proofs.Status
import UltimateTicTacToe.Proofs.Unambiguous
import UltimateTicTacToe.Proofs.Match.Calls
import UltimateTicTacToe.Proofs.Archive.Winner
import UltimateTicTacToe.Proofs.Match.Seeds
import UltimateTicTacToe.Proofs.Match.Score
import UltimateTicTacToe.Proofs.Archive.Position
import UltimateTicTacToe.Proofs.Diagram.Board
import UltimateTicTacToe.Proofs.Diagram.Listing

import UnoppServer.Fault
import UnoppServer.Json.Value
import UnoppServer.Json.Fields
import UnoppServer.Lib.Runs
import UnoppServer.Lib.Since
import UnoppServer.Lib.Ensures
import UnoppServer.Lib.Avoids
import UnoppServer.Lib.Handler
import UnoppServer.Lib.Budget
import UnoppServer.Lib.Assoc
import UnoppServer.Lib.Occupancy
import UnoppServer.Lib.Rotation
import UnoppServer.Lib.Shuffle
import UnoppServer.Lib.Cycles
import UnoppServer.Lib.FindIf
import UnoppServer.Lib.Paging
import UnoppServer.Lib.Marks
import UnoppServer.Lib.Search
import UnoppServer.Lib.AlphaBeta
import UnoppServer.Lib.Transactions
import UnoppServer.Lib.Locks
import UnoppServer.Lib.Deadlock
import UnoppServer.Lib.Pipeline
import UnoppServer.Lib.Rounding
import UnoppServer.Splendor.Tables
import UnoppServer.Splendor.Game
import UnoppServer.Splendor.Effect
import UnoppServer.Splendor.Completion
import UnoppServer.Splendor.Frame
import UnoppServer.Splendor.Idle
import UnoppServer.Splendor.Mines
import UnoppServer.Splendor.Cards
import UnoppServer.Splendor.Placeholder
import UnoppServer.Splendor.Turns
import UnoppServer.Splendor.Allies
import UnoppServer.Splendor.Winner
import UnoppServer.Splendor.Payment
import UnoppServer.Splendor.Others
import UnoppServer.Splendor.Limits
import UnoppServer.Splendor.Deadlock
import UnoppServer.Uno.Game
import UnoppServer.Uno.Cards
import UnoppServer.Uno.Supply
import UnoppServer.Uno.Deal
import UnoppServer.Uno.Idle
import UnoppServer.Uno.Effect
import UnoppServer.Uno.Exhaustion
import UnoppServer.Uno.Display
import UnoppServer.Uno.Turn
import UnoppServer.Uno.Flags
import UnoppServer.Uno.Challenge
import UnoppServer.Uno.Orders
import UnoppServer.Uno.Start
import UnoppServer.Uno.Play
import UnoppServer.Gomoku.Game
import UnoppServer.Gomoku.Board
import UnoppServer.Gomoku.Five
import UnoppServer.Gomoku.InPlace
import UnoppServer.Gomoku.Minimax
import UnoppServer.Gomoku.History
import UnoppServer.Gomoku.Draws
import UnoppServer.Gomoku.Range
import UnoppServer.Gomoku.Reply
import UnoppServer.Gomoku.Symmetry
import UnoppServer.Room.Room
import UnoppServer.Room.UnoRoom
import UnoppServer.Room.SplendorRoom
import UnoppServer.Room.GomokuRoom
import UnoppServer.Room.Manager
import UnoppServer.Room.MineRequests
import UnoppServer.Room.Requests
import UnoppServer.Room.Frame
import UnoppServer.Room.Announcements
import UnoppServer.Room.Lifetime
import UnoppServer.Room.Membership
import UnoppServer.Room.Isolation
import UnoppServer.Room.UnoCompletion
import UnoppServer.Room.Completion
import UnoppServer.Room.Phases
import UnoppServer.Room.Ghosts
import UnoppServer.Room.Faults
import UnoppServer.Room.GameExists
import UnoppServer.Room.Hands
import UnoppServer.Room.Rejoin
import UnoppServer.Room.GomokuEnd
import UnoppServer.Room.Colors
import UnoppServer.Room.Passwords
import UnoppServer.Room.Creation
import UnoppServer.Server.Server
import UnoppServer.Server.Indexes
import UnoppServer.Server.Completion
import UnoppServer.Accounts.Authorizer
import UnoppServer.Accounts.Effect
import UnoppServer.Accounts.Sessions
import UnoppServer.Accounts.Friends
import UnoppServer.Accounts.Names
import UnoppServer.Accounts.Relations
import UnoppServer.Accounts.Accepting
import UnoppServer.Accounts.Unread
import UnoppServer.Accounts.Locks
import UnoppServer.Chat.History
import UnoppServer.Chat.Pages
import UnoppServer.Chat.Cache
import UnoppServer.Chat.ConcurrentRead
import UnoppServer.Chat.Listing
import UnoppServer.Chat.Flush
import UnoppServer.Server.Lobby
import UnoppServer.Http.Cookie
import UnoppServer.Server.Threads
import UnoppServer.Server.Pipeline
import UnoppServer.Json.Text
import UnoppServer.Json.Reader
import UnoppServer.Json.Syntax
import UnoppServer.Json.Reading
import UnoppServer.Json.Doubles
import UnoppServer.Json.Writing
import UnoppServer.Json.RoundTrip
import UnoppServer.Json.Accepted
import UnoppServer.Lib.Sections
import UnoppServer.Http.Api
import UnoppServer.Http.Authority
import UnoppServer.Http.Failures
import UnoppServer.Server.Site
import UnoppServer.Server.Authority
import UnoppServer.Server.Provenance
import UnoppServer.Server.Seats

import Echo.Db.Types
import Echo.Db.Event
import Echo.Db.Apply
import Echo.Db.Log
import Echo.Db.Base
import Echo.Db.Account
import Echo.Db.Channel
import Echo.Db.Network
import Echo.Db.Wf
import Echo.Db.Lockstep
import Echo.Db.Call
import Echo.Db.CallLockstep
import Echo.Db.Compact
import Echo.Db.Recover
import Echo.Db.Persisted
import Echo.Db.Run
import Echo.Db.AntiEntropy
import Echo.Db.Identity
import Echo.Db.Ingest
import Echo.Db.File
import Echo.Db.Crash
import Echo.Db.FailedWrites
import Echo.Db.Access
import Echo.Db.Deciders
import Echo.Db.Isolation
import Echo.Db.Core
import Echo.Db.CoreRun
import Echo.Db.Fingerprints
import Echo.Db.Grounded
import Echo.Db.Codes
import Echo.Engine.Register
import Echo.Engine.Guards
import Echo.Db.Aliases
import Echo.Engine.Names
import Echo.Db.Founders
import Echo.Db.Release
import Echo.Engine.Owners
import Echo.Lib.Splitting
import Echo.Link.Parse
import Echo.Link.Redact
import Echo.Link.Slot
import Echo.Db.Claims
import Echo.Web.Mirror
import Echo.Login.Doors
import Echo.Login.Agreement
import Echo.Login.Frame
import Echo.Login.Steps
import Echo.Login.Fresh
import Echo.Login.Lockout
import Echo.Gossip.Handshake
import Echo.Engine.Handle
import Echo.Engine.Unbans
import Echo.Engine.Lines
import Echo.Engine.LinesMirror
import Echo.Engine.Addresses
import Echo.Engine.Security
import Echo.Engine.Exempt
import Echo.Migrate.Anope
import Echo.Migrate.Phases
import Echo.Migrate.Faithful
import Echo.Lib.Wildcards
import Echo.Engine.Globs
import Echo.Db.Guesses
import Echo.Db.Settling
import Echo.Db.Jupes
import Echo.Db.Tickets
import Echo.Engine.Provider
import Echo.Engine.Passwords
import Echo.Engine.ChanModes
import Echo.Engine.ModeLock
import Echo.Engine.Joins
import Echo.Engine.Statuses
import Echo.Engine.Staff
import Echo.Engine.LockText
import Echo.Lib.Offsets
import Echo.Link.Bodies
import Echo.Link.Fmode
import Echo.Db.FlagLetters
import Echo.Engine.FlagsCommand
import Echo.Engine.ModeCommand
import Echo.Chess.State
import Echo.Chess.Wire
import Echo.Chess.Moves
import Echo.Chess.Parse
import Echo.Chess.Rules
import Echo.Chess.Sight
import Echo.Chess.Legal
import Echo.ChanServ.Command
import Echo.ChanServ.Members
import Echo.ChanServ.Readers
import Echo.ChanServ.Settings
import Echo.ChanServ.Dispatch
import Echo.ChanServ.Frozen
import Echo.ChanServ.Spared
import Echo.ChanServ.Thaw
import Echo.ChanServ.Agreement
import Echo.Engine.Ranges
import Echo.Lib.Gregorian
import Echo.Panel.Dates
import Echo.Lib.Assoc
import Echo.Engine.Counters
import Echo.Engine.Limiter
import Echo.Lib.Descent
import Echo.Net.Engine
import Echo.Net.Sessions
import Echo.Net.Chanfix
import Echo.Net.Split
import Echo.Engine.Votes
import Echo.Engine.Triggers
import Echo.Lib.Base64
import Echo.Login.Scram
import Echo.GroupServ.Managers
import Echo.Engine.Scripts
import Echo.GameServ.Board
import Echo.GameServ.Referee
import Echo.Engine.PatternSets
import Echo.HostServ.Collisions
import Echo.OperServ.Durations
import Echo.Lib.Positions
import Echo.MemoServ.Commands
import Echo.MemoServ.Mailboxes
import Echo.Engine.Bots
import Echo.Engine.BotRuns
import Echo.Lib.Stamps
import Echo.Db.Aging
import Echo.Engine.KickerCaches
import Echo.Engine.CacheRuns
import Echo.Lib.Regexes
import Echo.OperServ.TooWide
import Echo.Gossip.Payload
import Echo.Lib.Base64Url
import Echo.Panel.Sessions
import Echo.Dns.Names
import Echo.Dns.Query
import Echo.Dns.Answers
import Echo.Api.Actions
import Echo.Lib.Templates
import Echo.Api.Replies
import Echo.DiceServ.Expr
import Echo.DiceServ.Grammar
import Echo.DiceServ.Rendering
import Echo.Lib.IrcLines
import Echo.Link.Serialize
import Echo.Link.Wire
import Echo.Engine.GuestNicks
import Echo.Db.Shared
import Echo.Lib.Interleavings
import Echo.Db.Places
import Echo.GameServ.Games
import Echo.GameServ.Ladder
import Echo.Gossip.Clocks
import Echo.Gossip.Convergence
import Echo.Engine.Budgets
import Echo.Engine.Protection
import Echo.Login.Exchanges
import Echo.Engine.Commands

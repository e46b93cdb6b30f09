import OpenFelt.Game.Card
import OpenFelt.Game.HandRank
import OpenFelt.Game.BestFive
import OpenFelt.Game.PokerOrder
import OpenFelt.Game.Seat
import OpenFelt.Game.Multiway
import OpenFelt.Game.Books
import OpenFelt.Game.HandStreet
import OpenFelt.Game.HandPlay
import OpenFelt.Game.Pots
import OpenFelt.Game.Settlement
import OpenFelt.Game.Showing
import OpenFelt.Game.Opening
import OpenFelt.Game.Lifecycle
import OpenFelt.Game.Runs
import OpenFelt.Game.Safety
import OpenFelt.Game.History
import OpenFelt.Game.Rounds
import OpenFelt.Game.Payouts
import OpenFelt.Lib.Apportion
import OpenFelt.Lib.Tickets
import OpenFelt.Lib.Betting
import OpenFelt.Lib.Layers
import OpenFelt.Lib.Ledger
import OpenFelt.Protocol.Authority
import OpenFelt.Protocol.RingHistory
import OpenFelt.Training.Arena
import OpenFelt.Training.Play
import OpenFelt.Protocol.AuthorizedTable
import OpenFelt.Protocol.Runtime
import OpenFelt.Protocol.Deadlines
import OpenFelt.Game.Seated
import OpenFelt.Game.SameRing
import OpenFelt.Game.Relabelled
import OpenFelt.Game.RelabelledPlay
import OpenFelt.Game.Relabelling
import OpenFelt.Lib.Idempotent
import OpenFelt.Protocol.ExactlyOnce
import OpenFelt.Protocol.Disclosure
import OpenFelt.Game.Hidden
import OpenFelt.Protocol.Noninterference
import OpenFelt.Lib.Drive
import OpenFelt.Game.Pacing
import OpenFelt.Game.Unpaced
import OpenFelt.Game.FullTable
import OpenFelt.Game.HoleCards
import OpenFelt.Game.Positions
import OpenFelt.Game.BlindOrder
import OpenFelt.Game.OpeningPrice
import OpenFelt.Lib.OrdMap
import OpenFelt.Lib.Numerals
import OpenFelt.Lib.Rotation
import OpenFelt.Game.Table
import OpenFelt.Game.TableLifecycle
import OpenFelt.Game.LifecycleRuns
import OpenFelt.Game.Checkpoint
import OpenFelt.Game.Debts
import OpenFelt.Game.DeadPosts
import OpenFelt.Game.Contestable
import OpenFelt.Game.Finite
import OpenFelt.Game.Dealing
import OpenFelt.Game.Shares
import OpenFelt.Registry.Tournament
import OpenFelt.Registry.Credentials
import OpenFelt.Registry.Lobby
import OpenFelt.Registry.TableRegistry
import OpenFelt.Registry.Starts
import OpenFelt.Registry.Rosters
import OpenFelt.Registry.Accepts
import OpenFelt.Registry.Field
import OpenFelt.Registry.Standings
import OpenFelt.Registry.RosterRuns
import OpenFelt.Registry.BlindWaits
import OpenFelt.Registry.Rollovers
import OpenFelt.Registry.Atomic
import OpenFelt.Registry.Steps
import OpenFelt.Registry.Queues
import OpenFelt.Registry.Routes
import OpenFelt.Registry.Vault
import OpenFelt.Registry.Reconnects
import OpenFelt.Registry.Checkpoints
import OpenFelt.Registry.HistoryFiles
import OpenFelt.Protocol.Announcements
import OpenFelt.Protocol.ActorClock
import OpenFelt.Protocol.Streams
import OpenFelt.Client.ProjectionClient
import OpenFelt.Client.Recovery
import OpenFelt.Client.Cuts
import OpenFelt.Client.Connections
import OpenFelt.Client.Overtaken
import OpenFelt.Client.Interleaved
import OpenFelt.Client.Activity
import OpenFelt.Trainer.Facts
import OpenFelt.Trainer.Policy
import OpenFelt.Trainer.Session
import OpenFelt.Trainer.SessionRuns
import OpenFelt.Trainer.HandsGoOn
import OpenFelt.Trainer.NextHands
import OpenFelt.Trainer.Bankroll
import OpenFelt.Lib.Upserts
import OpenFelt.Trainer.Records
import OpenFelt.Trainer.Progress
import OpenFelt.Trainer.ProgressRuns
import OpenFelt.Trainer.Results
import OpenFelt.Trainer.LateReviews
import OpenFelt.Network.Frames
import OpenFelt.Offline.GameState
import OpenFelt.Offline.Wagers
import OpenFelt.Offline.Streets
import OpenFelt.Offline.Driver
import OpenFelt.Offline.DriverRuns
import OpenFelt.Offline.Chips
import OpenFelt.Lib.Meter
import OpenFelt.Registry.Clock
import OpenFelt.Registry.Schedules
import OpenFelt.Registry.Eliminations
import OpenFelt.Game.PotLayers
import OpenFelt.Trainer.Observations
import OpenFelt.Trainer.BotTurns
import OpenFelt.Trainer.ContestablePots
import OpenFelt.Training.PolicyActions
import OpenFelt.Training.DealPlans
import OpenFelt.Trainer.SolverReview
import OpenFelt.Training.Evaluation
import OpenFelt.Network.Admission
import OpenFelt.Network.Invites
import OpenFelt.Bot.Draws
import OpenFelt.Offline.Menu
import OpenFelt.Offline.Aggressors
import OpenFelt.Bot.RuleBased
import OpenFelt.Trainer.Coaching
import OpenFelt.Practice.LocalPractice
import OpenFelt.Practice.Rollover
import OpenFelt.Lib.Mailbox
import OpenFelt.Protocol.TableActor
import OpenFelt.Protocol.Provenance
import OpenFelt.Registry.LobbyRequests
import OpenFelt.Registry.Indexed
import OpenFelt.Network.LobbyServer
import OpenFelt.Lib.Publishing
import OpenFelt.Client.LocalProfile
import OpenFelt.Trainer.Replacement
import OpenFelt.Trainer.Releases
import OpenFelt.Trainer.Downloads
import OpenFelt.Training.Benchmark
import OpenFelt.Lib.Json
import OpenFelt.Trainer.HistoryLines

import Guandan.Library.Machine
import Guandan.Library.Cyclic
import Guandan.Library.Bags
import Guandan.Game.Card
import Guandan.Game.CardAnalyzer
import Guandan.Game.Deck
import Guandan.Game.RoomConfig
import Guandan.Game.GameState
import Guandan.Game.Settlement
import Guandan.Game.Tribute
import Guandan.Game.GameEngine
import Guandan.Engine.Operations
import Guandan.Engine.Hands
import Guandan.Engine.Ranks
import Guandan.Engine.Deal
import Guandan.Engine.Frames
import Guandan.Engine.Accounting
import Guandan.Engine.Seating
import Guandan.Engine.TributePhase
import Guandan.Engine.PureExchange
import Guandan.Engine.Trick
import Guandan.Engine.TrickProtocol
import Guandan.Engine.TributeFlow
import Guandan.Engine.Choices
import Guandan.Engine.Liveness
import Guandan.Engine.FreshMatch
import Guandan.Network.Table
import Guandan.Engine.Course
import Guandan.Room.Members
import Guandan.Room.Rounds
import Guandan.Network.TableSteps
import Guandan.Network.RoomPhases
import Guandan.Network.Seats
import Guandan.Library.LiveVector
import Guandan.Network.BotReturns
import Guandan.Network.TributeCompletion
import Guandan.Auth.AuthService
import Guandan.Network.Sessions
import Guandan.Network.Delivery
import Guandan.Network.Impersonation
import Guandan.Room.TaskQueue
import Guandan.Engine.RoundRanks
import Guandan.Engine.MatchProgress
import Guandan.Engine.Refusals
import Guandan.Network.Hall
import Guandan.Network.Routing
import Guandan.Engine.TurnIds
import Guandan.Network.Redelivery
import Guandan.Room.Spectating
import Guandan.Library.Filling
import Guandan.Rules.Groups
import Guandan.Rules.Readings
import Guandan.Rules.Grammar
import Guandan.Rules.Exact
import Guandan.Rules.Beating
import Guandan.Library.Tiers
import Guandan.Rules.Order
import Guandan.Engine.TrickPlays
import Guandan.Rules.GroupRanks
import Guandan.Network.Lobby
import Guandan.Network.Registry
import Guandan.Network.Ownership
import Guandan.Network.Dismissal
import Guandan.Library.Quoted
import Guandan.Protocol.Extract
import Guandan.Auth.Persistence
import Guandan.Library.Json
import Guandan.Client.WebSocketClient
import Guandan.Protocol.Envelope
import Guandan.Protocol.Agreement
import Guandan.Protocol.Relay
import Guandan.Protocol.Forwarded
import Guandan.Protocol.Transparency
import Guandan.Library.Rounds
import Guandan.Protocol.CardsLoop
import Guandan.Room.Occupancy
import Guandan.Rules.TributeCards
import Guandan.Protocol.Numbers
import Guandan.Library.ByteOrder
import Guandan.Library.Pieces
import Guandan.Network.WebSocketFrame
import Guandan.Network.HttpRequest
import Guandan.Library.Masks
import Guandan.Engine.BotPlays
import Guandan.Network.BotTurns
import Guandan.Library.Spelling
import Guandan.Protocol.Nicknames
import Guandan.Network.SendQueue
import Guandan.Auth.Tokens
import Guandan.Voice.VoicePacket
import Guandan.Voice.VoiceRooms
import Guandan.Library.Base64
import Guandan.Utils.Base64
import Guandan.Sfu.RoomTable
import Guandan.Sfu.Forwarding
import Guandan.Client.ReconnectManager
import Guandan.Library.Histories
import Guandan.Library.Replica
import Guandan.Network.Broadcasts
import Guandan.Client.GameController
import Guandan.Client.Picture
import Guandan.Network.Reports
import Guandan.Network.TurnReports
import Guandan.Network.TributeReports
import Guandan.Network.Following
import Guandan.Network.ClientServer
import Guandan.Network.ClientAgreement
import Guandan.Library.Progress
import Guandan.Engine.RoundLength
import Guandan.Network.BotProgress
import Guandan.Library.Casts
import Guandan.Protocol.GameTexts
import Guandan.Client.Listeners
import Guandan.Client.Decoding
import Guandan.Client.ServerTexts
import Guandan.Protocol.Requests
import Guandan.Library.Simulation
import Guandan.Network.Exchange
import Guandan.Network.Writing
import Guandan.Network.TextAgreement
import Guandan.Library.IteratedHash
import Guandan.Utils.Sha1
import Guandan.Utils.HmacSha256
import Guandan.Auth.Passwords
import Guandan.Auth.Accounts
import Guandan.Auth.Returning
import Guandan.Livekit.AccessToken
import Guandan.Network.VoiceJoin
import Guandan.Library.Spacing
import Guandan.Network.Emotions
import Guandan.Timer.TimerManager

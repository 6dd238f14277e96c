import SpaceShooter.Common.FrameCodec
import SpaceShooter.Common.Stod
import SpaceShooter.Common.Protocol
import SpaceShooter.Client.GameController
import SpaceShooter.Library.Machine
import SpaceShooter.Library.Cursor
import SpaceShooter.Library.Extended
import SpaceShooter.Common.ExtendedScalar
import SpaceShooter.Common.WorldBounds
import SpaceShooter.Server.NetworkResponseRouter
import SpaceShooter.Server.Session
import SpaceShooter.Common.Config
import SpaceShooter.Server.TickLoop
import SpaceShooter.Server.EntityPool
import SpaceShooter.Server.EntityUtils
import SpaceShooter.Server.CollisionUtils
import SpaceShooter.Server.AsteroidFactory
import SpaceShooter.Common.GameSnapshot
import SpaceShooter.Common.SnapshotFormat
import SpaceShooter.Server.World
import SpaceShooter.Server.WorldCollisions
import SpaceShooter.Library.PartialSort
import SpaceShooter.Server.WorldTick
import SpaceShooter.Server.WorldInvariant
import SpaceShooter.Server.ShipBounds
import SpaceShooter.Server.Containment
import SpaceShooter.Server.Heading
import SpaceShooter.Library.Roster
import SpaceShooter.Server.SessionShips
import SpaceShooter.Server.Departures
import SpaceShooter.Server.SnapshotDelivery
import SpaceShooter.Server.PoolRuns
import SpaceShooter.Server.NetworkContext
import SpaceShooter.Server.GracefulStop
import SpaceShooter.Server.BroadcastSize
import SpaceShooter.Server.CommandDelivery
import SpaceShooter.Server.ShipDeaths
import SpaceShooter.Server.Disconnection
import SpaceShooter.Client.TcpClient
import SpaceShooter.Client.TcpMoves
import SpaceShooter.Client.ConnectCallbacks
import SpaceShooter.Client.FailedConnections
import SpaceShooter.Client.SnapshotChannel
import SpaceShooter.Server.TickFailures
import SpaceShooter.Server.StaleCommands
import SpaceShooter.Client.TcpWriter
import SpaceShooter.Client.FrameOrder
import SpaceShooter.Server.SessionWriter
import SpaceShooter.Server.FiredBullets
import SpaceShooter.Server.CollisionPass
import SpaceShooter.Server.BulletCredit
import SpaceShooter.Library.Interleaving
import SpaceShooter.Server.QueueOrder
import SpaceShooter.Server.ShipCondition
import SpaceShooter.Server.LiveShips
import SpaceShooter.Server.PlayerNames
import SpaceShooter.Server.Acceptance
import SpaceShooter.Server.Cadence
import SpaceShooter.Server.AsteroidBudget
import SpaceShooter.Client.ShotCooldown
import SpaceShooter.Common.FreeCircle
import SpaceShooter.Server.SpawnRoom
import SpaceShooter.Library.UsedUp
import SpaceShooter.Server.CollisionLedger
import SpaceShooter.Server.Growth
import SpaceShooter.Server.PairOrder
import SpaceShooter.Server.Meals
import SpaceShooter.Server.EdgeMotion
import SpaceShooter.Common.ShipPhysics
import SpaceShooter.Server.Thrust
import SpaceShooter.Server.AsteroidPlacement
import SpaceShooter.Common.FrameResync
import SpaceShooter.Common.FrameRetries
import SpaceShooter.Server.ReadBuffer
import SpaceShooter.Library.HalfEven
import SpaceShooter.Library.Turning
import SpaceShooter.Common.RotateTowards
import SpaceShooter.Common.ElasticImpulse
import SpaceShooter.Common.WorldWalls
import SpaceShooter.Library.Interning
import SpaceShooter.Server.EventBus
import SpaceShooter.Server.Rearming
import SpaceShooter.Library.Mixing
import SpaceShooter.Common.StrongId
import SpaceShooter.Library.Components
import SpaceShooter.Server.TcpServer
import SpaceShooter.Server.AcceptLoop
import SpaceShooter.Server.SessionRegistry
import SpaceShooter.Server.PacketDelivery
import SpaceShooter.Library.Streams
import SpaceShooter.Server.SessionStream
import SpaceShooter.Client.TcpReader
import SpaceShooter.Client.MessageOrder
import SpaceShooter.Library.Supervision
import SpaceShooter.Client.Transport
import SpaceShooter.Client.GameClient
import SpaceShooter.Client.Agreement
import SpaceShooter.Client.ClientSessions
import SpaceShooter.Client.SentFrames
import SpaceShooter.Client.Errands
import SpaceShooter.Client.Conversation
import SpaceShooter.System.Connections
import SpaceShooter.System.Exchange
import SpaceShooter.System.Understanding
import SpaceShooter.Server.ServerMain
import SpaceShooter.Client.Display
import SpaceShooter.Common.EntitySerder
import SpaceShooter.System.Screen
import SpaceShooter.Server.Succession
import SpaceShooter.Server.Ageing

import ChatServer.Lib.Program
import ChatServer.Lib.Run
import ChatServer.Lib.Decimal
import ChatServer.Lib.Word
import ChatServer.Domain
import ChatServer.Json
import ChatServer.MsgNode
import ChatServer.Calls
import ChatServer.Session
import ChatServer.LogicSystem
import ChatServer.ChatServiceImpl
import ChatServer.World
import ChatServer.Protocol
import ChatServer.Lib.Framing
import ChatServer.Sequential
import ChatServer.ReadBuffer
import ChatServer.ReadFrames
import ChatServer.Exceptions
import ChatServer.Cluster
import ChatServer.Ledger
import ChatServer.Regular
import ChatServer.LoginCount
import ChatServer.Binding
import ChatServer.Current
import ChatServer.CountUpdates
import ChatServer.ReadChain
import ChatServer.Authority
import ChatServer.Route
import ChatServer.Friends
import ChatServer.SendQueue
import ChatServer.TextChat
import ChatServer.DealMsg
import ChatServer.Replies
import ChatServer.Lib.ConnPool
import ChatServer.Connections
import ChatServer.MySqlPool
import ChatServer.RedisConPool
import ChatServer.Pools
import ChatServer.Authentic
import ChatServer.Coherence
import ChatServer.History
import ChatServer.Fleet
import ChatServer.Location
import ChatServer.LoginRace
import ChatServer.Lib.Relational
import ChatServer.Secrecy
import ChatServer.Passwords
import ChatServer.Faults
import ChatServer.SqlFaults
import ChatServer.Aliases
import ChatServer.Pending
import ChatServer.Search
import ChatServer.Wrappers
import ChatServer.Constructors
import ChatServer.Ownership
import ChatServer.UrlCodec
import ChatServer.Keyspace
import ChatServer.Handling
import ChatServer.Streams
import ChatServer.Addressees
import ChatServer.Conversation
import ChatServer.Lib.Fields
import ChatServer.ConfigMgr
import ChatServer.Peers
import ChatServer.Crashes
import ChatServer.Lib.FixedPool
import ChatServer.Outgoing
import ChatServer.StubPools
import ChatServer.Lib.Threads
import ChatServer.Workers
import ChatServer.Texts

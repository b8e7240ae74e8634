import BitprimNetwork.Async.Run
import BitprimNetwork.Async.Join
import BitprimNetwork.Data.CircularBuffer
import BitprimNetwork.Core
import BitprimNetwork.Pending
import BitprimNetwork.Hosts
import BitprimNetwork.Proxy.ReadCycle
import BitprimNetwork.Protocols.Events
import BitprimNetwork.Protocols.Ping
import BitprimNetwork.Protocols.Version
import BitprimNetwork.Protocols.Handshake
import BitprimNetwork.Sessions.Session
import BitprimNetwork.Sessions.Loopback
import BitprimNetwork.Sessions.Registration
import BitprimNetwork.Sessions.Outbound
import BitprimNetwork.Sessions.Channel
import BitprimNetwork.Sessions.Manual
import BitprimNetwork.Sessions.Seed
import BitprimNetwork.Protocols.SeedProtocol
import BitprimNetwork.Proxy.Stop
import BitprimNetwork.Async.Sequencer
import BitprimNetwork.Proxy.Send
import BitprimNetwork.Broadcast
import BitprimNetwork.Connector
import BitprimNetwork.Sessions.Batch
import BitprimNetwork.Sessions.Inbound
import BitprimNetwork.Protocols.Address
import BitprimNetwork.Async.Calls
import BitprimNetwork.Node
import BitprimNetwork.Async.Attach
import BitprimNetwork.Node.Sessions

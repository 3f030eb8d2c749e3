import WayNetstack.Lib.Traced
import WayNetstack.Lib.Slab
import WayNetstack.Lib.Table
import WayNetstack.Lib.RefCount
import WayNetstack.Lib.Runs
import WayNetstack.Lib.Keyed
import WayNetstack.Smoltcp
import WayNetstack.Session.Manager
import WayNetstack.Core
import WayNetstack.Stream.Tcp
import WayNetstack.Stream.Udp
import WayNetstack.Runner.PrePass
import WayNetstack.Runner.Poll
import WayNetstack.Runner.PostPass
import WayNetstack.Slots
import WayNetstack.World
import WayNetstack.Reference
import WayNetstack.Registry.Tcp
import WayNetstack.Registry.Udp
import WayNetstack.Registry.Effects
import WayNetstack.Registry.Moves
import WayNetstack.Registry.Polls
import WayNetstack.Registry.PrePass
import WayNetstack.Registry.Allocation
import WayNetstack.Registry.Rescan
import WayNetstack.Registry.Cycle
import WayNetstack.Registry.Loops
import WayNetstack.Registry.Outcome
import WayNetstack.Registry.Views
import WayNetstack.Registry.Admission
import WayNetstack.Registry.Steps
import WayNetstack.Registry.Runs
import WayNetstack.Runner.Loop
import WayNetstack.Runner.Wakeups
import WayNetstack.Runner.IterationOrder
import WayNetstack.Runner.Isolation
import WayNetstack.Runner.Ingress
import WayNetstack.Builder
import WayNetstack.Runner.Backpressure
import WayNetstack.Runner.Objects
import WayNetstack.Runner.Egress
import WayNetstack.Runner.Channels
import WayNetstack.Runner.Delivery
import WayNetstack.Runner.Deadlines
import WayNetstack.Runner.Shutdown
import WayNetstack.Udp.Lifetime
import WayNetstack.Udp.Replies
import WayNetstack.Udp.Redistribution
import WayNetstack.Udp.Sockets
import WayNetstack.Udp.Demux
import WayNetstack.Udp.Attribution
import WayNetstack.Udp.Outboxes
import WayNetstack.Udp.Inboxes
import WayNetstack.Udp.Receiver
import WayNetstack.Udp.Senders
import WayNetstack.Udp.Rings
import WayNetstack.Udp.Retry
import WayNetstack.Udp.Inactivity
import WayNetstack.Runner.Fragments
import WayNetstack.Tcp.Connections
import WayNetstack.Runner.Idle
import WayNetstack.Tcp.Peers
import WayNetstack.Tcp.Accept
import WayNetstack.Tcp.Leaks
import WayNetstack.Tcp.Pool
import WayNetstack.Tcp.Refusals
import WayNetstack.Tcp.Waiting
import WayNetstack.Tcp.Streams
import WayNetstack.Tcp.Lifecycle
import WayNetstack.Tcp.Bytes
import WayNetstack.Tcp.Wakers
import WayNetstack.Memory.Account
import WayNetstack.Memory.Cap

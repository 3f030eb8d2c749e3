import WayNetstack.Lib.Slab
import Mathlib.Data.Int.Notation

/-!
# The engine: smoltcp

The crate drives `smoltcp`, which is not part of it. What the crate uses of it is
a parameter of the whole development: a structure `Smoltcp` with the types of the
sockets and of the interface, the calls the crate makes, and the observations in
which those calls are documented. `Smoltcp.Lawful` collects what the crate relies
on: for each call, its documented effect on the observations. Nothing here says
how the engine works.

`SocketSet` is a slab of sockets: `add` stores the socket in a free cell of the
engine's choosing (`freeIndex`) and the cell's number is the `SocketHandle`.

The engine's own `poll` is described where it is used, in `WayNetstack.Runner.Poll`.
-/

namespace WayNetstack

open Lib

/-! ### Addresses, packets, time -/

/-- A string of bytes: a packet, a datagram, a piece of a stream. -/
abbrev Bytes := List UInt8

/-- `iface::SocketHandle`: the number of a cell of a socket set. -/
abbrev SocketHandle := ℕ

/-- `std::task::Waker`, by the task it wakes. -/
abbrev Waker := ℕ

/-- `time::Instant`, in microseconds. -/
abbrev Instant := ℤ

/-- `time::Duration`, in microseconds. -/
abbrev Duration := ℕ

/-- `wire::IpAddress`. -/
inductive IpAddress where
  /-- An IPv4 address. -/
  | v4 (addr : UInt32)
  /-- An IPv6 address. -/
  | v6 (addr : BitVec 128)
  deriving DecidableEq

/-- `wire::IpEndpoint`. -/
structure IpEndpoint where
  /-- The address. -/
  addr : IpAddress
  /-- The port. -/
  port : UInt16
  deriving DecidableEq

/-- `wire::IpListenEndpoint`: no address stands for any. -/
structure IpListenEndpoint where
  /-- The address. -/
  addr : Option IpAddress
  /-- The port. -/
  port : UInt16
  deriving DecidableEq

/-- `wire::IpProtocol`, as far as the crate tells protocols apart. -/
inductive IpProtocol where
  | tcp
  | udp
  /-- Any other protocol number. -/
  | other (number : UInt8)
  deriving DecidableEq

/-- `phy::ChecksumCapabilities`: verify checksums, or ignore them. -/
inductive ChecksumCapabilities where
  | default
  | ignored
  deriving DecidableEq

/-- `wire::Ipv4Repr` and `wire::Ipv6Repr`: the fields the crate reads. -/
structure IpRepr where
  srcAddr : IpAddress
  dstAddr : IpAddress
  nextHeader : IpProtocol
  deriving DecidableEq

/-- `wire::TcpControl`. -/
inductive TcpControl where
  | none
  | psh
  | syn
  | fin
  | rst
  deriving DecidableEq

/-- `wire::TcpRepr`: the fields the crate reads. -/
structure TcpRepr where
  srcPort : UInt16
  dstPort : UInt16
  control : TcpControl
  ackNumber : Option UInt32
  deriving DecidableEq

/-- `wire::UdpRepr`. -/
structure UdpRepr where
  srcPort : UInt16
  dstPort : UInt16
  deriving DecidableEq

/-! ### Sockets -/

/-- `tcp::State`. -/
inductive State where
  | closed
  | listen
  | synSent
  | synReceived
  | established
  | finWait1
  | finWait2
  | closeWait
  | closing
  | lastAck
  | timeWait
  deriving DecidableEq

/-- `tcp::ListenError` and `udp::BindError`. -/
inductive BindError where
  | invalidState
  | unaddressable
  deriving DecidableEq

/-- `tcp::RecvError`. -/
inductive TcpRecvError where
  | invalidState
  | finished
  deriving DecidableEq

/-- `tcp::SendError`. -/
inductive TcpSendError where
  | invalidState
  deriving DecidableEq

/-- `udp::RecvError`. -/
inductive UdpRecvError where
  | exhausted
  | truncated
  deriving DecidableEq

/-- `udp::SendError`. -/
inductive UdpSendError where
  | unaddressable
  | bufferFull
  deriving DecidableEq

/-- The two transport protocols. -/
inductive Proto where
  | tcp
  | udp
  deriving DecidableEq

/-- `socket::Socket`: a socket of either protocol. -/
inductive Socket (T U : Type) where
  | tcp (socket : T)
  | udp (socket : U)
  deriving DecidableEq

/-- The protocol of a socket. -/
def Socket.proto {T U : Type} : Socket T U → Proto
  | .tcp _ => .tcp
  | .udp _ => .udp

/-- The TCP socket in a socket of either protocol. -/
def Socket.tcp? {T U : Type} : Socket T U → Option T
  | .tcp t => some t
  | .udp _ => none

/-- The UDP socket in a socket of either protocol. -/
def Socket.udp? {T U : Type} : Socket T U → Option U
  | .tcp _ => none
  | .udp u => some u

/-- A TCP segment as the engine sees it once it has accepted the packet. -/
structure Segment where
  src : IpEndpoint
  dst : IpEndpoint
  control : TcpControl
  /-- Whether it carries an acknowledgement. -/
  ack : Bool
  deriving DecidableEq

/-! ### The calls and the observations -/

/-- What the crate uses of `smoltcp`. -/
structure Smoltcp where
  /-- `iface::Interface`, with whatever it keeps to itself. -/
  Iface : Type
  /-- `tcp::Socket`. -/
  Tcp : Type
  /-- `udp::Socket`. -/
  Udp : Type
  /-- `Ipv4Packet::new_checked` succeeds. -/
  ipv4NewChecked : Bytes → Bool
  /-- `Ipv4Repr::parse`. -/
  ipv4Parse : Bytes → ChecksumCapabilities → Option IpRepr
  /-- `Ipv4Packet::payload`. -/
  ipv4Payload : Bytes → Bytes
  /-- `Ipv6Packet::new_checked` succeeds. -/
  ipv6NewChecked : Bytes → Bool
  /-- `Ipv6Repr::parse`. -/
  ipv6Parse : Bytes → Option IpRepr
  /-- `Ipv6Packet::payload`. -/
  ipv6Payload : Bytes → Bytes
  /-- `TcpPacket::new_checked` succeeds. -/
  tcpNewChecked : Bytes → Bool
  /-- `TcpRepr::parse`. -/
  tcpParse : Bytes → IpAddress → IpAddress → ChecksumCapabilities → Option TcpRepr
  /-- `UdpPacket::new_checked` succeeds. -/
  udpNewChecked : Bytes → Bool
  /-- `UdpRepr::parse`. -/
  udpParse : Bytes → IpAddress → IpAddress → ChecksumCapabilities → Option UdpRepr
  /-- The TCP segment the engine's ingress makes of a packet by itself, every
  checksum verified; `none` when it discards the packet, the packet is not TCP, or
  it is a fragment. A segment put together from fragments is that of no packet, so
  that laws stated by it leave out polls in which a fragment completes one. -/
  segment : Bytes → Option Segment
  /-- `SocketSet::add`: the cell it stores the next socket in. -/
  freeIndex : Slab (Socket Tcp Udp) → ℕ
  /-- `Interface::poll_delay`. -/
  pollDelay : Instant → Iface → Slab (Socket Tcp Udp) → Option Duration
  /-- `Instant - Instant`. -/
  since : Instant → Instant → Duration
  /-- `Duration::from` a standard duration, which is given in nanoseconds. -/
  durationFrom : ℕ → Duration
  /-- `tcp::Socket::new` over two fresh buffers of the given sizes. -/
  tcpNew : ℕ → ℕ → Tcp
  /-- `tcp::Socket::state`. -/
  tcpState : Tcp → State
  /-- `tcp::Socket::is_open`. -/
  tcpIsOpen : Tcp → Bool
  /-- `tcp::Socket::listen`. -/
  tcpListen : Tcp → IpListenEndpoint → Except BindError Tcp
  /-- `tcp::Socket::close`. -/
  tcpClose : Tcp → Tcp
  /-- `tcp::Socket::recv_slice`, into a slice of the given length. -/
  tcpRecvSlice : Tcp → ℕ → Except TcpRecvError (Bytes × Tcp)
  /-- `tcp::Socket::send_slice`: how many bytes were taken. -/
  tcpSendSlice : Tcp → Bytes → Except TcpSendError (ℕ × Tcp)
  /-- `tcp::Socket::register_recv_waker`. -/
  tcpRegisterRecvWaker : Tcp → Waker → Tcp
  /-- `tcp::Socket::register_send_waker`. -/
  tcpRegisterSendWaker : Tcp → Waker → Tcp
  /-- `tcp::Socket::local_endpoint` and `remote_endpoint`, when connected. -/
  tcpTuple : Tcp → Option (IpEndpoint × IpEndpoint)
  /-- `tcp::Socket::listen_endpoint`. -/
  tcpListenEndpoint : Tcp → IpListenEndpoint
  /-- `tcp::Socket::recv_capacity` and `send_capacity`. -/
  tcpCapacity : Tcp → ℕ × ℕ
  /-- `udp::Socket::new` over two fresh packet buffers, each with room for the
  given number of packets and bytes. -/
  udpNew : ℕ → ℕ → Udp
  /-- `udp::Socket::bind`. -/
  udpBind : Udp → IpEndpoint → Except BindError Udp
  /-- `udp::Socket::recv`: the payload and the remote endpoint of its metadata. -/
  udpRecv : Udp → Except UdpRecvError (Bytes × IpEndpoint) × Udp
  /-- `udp::Socket::send_slice`. -/
  udpSendSlice : Udp → Bytes → IpEndpoint → Except UdpSendError Udp
  /-- The datagrams in the receive buffer, with their remote endpoints. -/
  udpRx : Udp → List (Bytes × IpEndpoint)
  /-- The datagrams in the transmit buffer, with their targets. -/
  udpTx : Udp → List (Bytes × IpEndpoint)
  /-- `udp::Socket::payload_recv_capacity` and `payload_send_capacity`. -/
  udpCapacity : Udp → ℕ × ℕ

/-- A socket of the engine. -/
abbrev Smoltcp.Socket (S : Smoltcp) := WayNetstack.Socket S.Tcp S.Udp

/-- `iface::SocketSet`. -/
abbrev Smoltcp.SocketSet (S : Smoltcp) := Slab S.Socket

namespace Smoltcp

variable (S : Smoltcp)

/-- `tcp::Socket::accepts`: a closed socket accepts nothing, a connected one the
segments of its connection, a listening one any segment to its listen endpoint that
neither acknowledges nor resets, whoever sent it. -/
def accepts (t : S.Tcp) (seg : Segment) : Bool :=
  if S.tcpState t = .closed then false
  else if S.tcpState t = .listen ∧ (seg.ack = true ∨ seg.control = .rst) then false
  else match S.tcpTuple t with
    | some (loc, remote) => decide (seg.dst = loc ∧ seg.src = remote)
    | none =>
      let ep := S.tcpListenEndpoint t
      decide ((ep.addr.all fun a => seg.dst.addr = a) = true ∧ seg.dst.port ≠ 0 ∧ seg.dst.port = ep.port)

/-- The payload bytes of the receive and transmit buffers of a socket. -/
def capacity : S.Socket → ℕ × ℕ
  | .tcp t => S.tcpCapacity t
  | .udp u => S.udpCapacity u

end Smoltcp

/-! ### What the crate relies on -/

/-- The states in which this side has closed the connection, or there is none. -/
def State.LocallyClosed : State → Prop
  | .finWait1 | .finWait2 | .closing | .lastAck | .timeWait | .closed => True
  | _ => False

instance : DecidablePred State.LocallyClosed := fun s => by
  cases s <;> unfold State.LocallyClosed <;> infer_instance

/-- The states of a socket that was never closed on this side. -/
def State.Passive : State → Prop
  | .listen | .synReceived | .established | .closeWait | .closed => True
  | _ => False

instance : DecidablePred State.Passive := fun s => by
  cases s <;> unfold State.Passive <;> infer_instance

/-- The documented effects of the calls the crate makes. -/
structure Smoltcp.Lawful (S : Smoltcp) : Prop where
  /-- `add` stores the socket in a free cell. -/
  freeIndex_free : ∀ s : S.SocketSet, s.Free (S.freeIndex s)
  /-- `is_open` is false in `Closed` and `TimeWait` only. -/
  tcpIsOpen_iff : ∀ t, S.tcpIsOpen t = false ↔ S.tcpState t = .closed ∨ S.tcpState t = .timeWait
  /-- A fresh socket has the buffers it was given. -/
  tcpNew_capacity : ∀ rx tx, S.tcpCapacity (S.tcpNew rx tx) = (rx, tx)
  /-- `listen` leaves the socket listening, connected to nobody. -/
  tcpListen_ok : ∀ {t ep t'}, S.tcpListen t ep = .ok t' →
    S.tcpState t' = .listen ∧ S.tcpTuple t' = none ∧ S.tcpCapacity t' = S.tcpCapacity t
  /-- `close` closes this side and keeps the connection's endpoints and buffers. -/
  tcpClose_ok : ∀ t, (S.tcpState (S.tcpClose t)).LocallyClosed ∧
    S.tcpTuple (S.tcpClose t) = S.tcpTuple t ∧ S.tcpCapacity (S.tcpClose t) = S.tcpCapacity t
  /-- Reading does not change the connection. -/
  tcpRecvSlice_ok : ∀ {t n r}, S.tcpRecvSlice t n = .ok r → S.tcpState r.2 = S.tcpState t ∧
    S.tcpTuple r.2 = S.tcpTuple t ∧ S.tcpCapacity r.2 = S.tcpCapacity t
  /-- Writing does not change the connection. -/
  tcpSendSlice_ok : ∀ {t b r}, S.tcpSendSlice t b = .ok r → S.tcpState r.2 = S.tcpState t ∧
    S.tcpTuple r.2 = S.tcpTuple t ∧ S.tcpCapacity r.2 = S.tcpCapacity t
  /-- Registering a waker does not change the connection. -/
  tcpRegisterRecvWaker_ok : ∀ t w, S.tcpState (S.tcpRegisterRecvWaker t w) = S.tcpState t ∧
    S.tcpTuple (S.tcpRegisterRecvWaker t w) = S.tcpTuple t ∧
    S.tcpCapacity (S.tcpRegisterRecvWaker t w) = S.tcpCapacity t
  /-- Registering a waker does not change the connection. -/
  tcpRegisterSendWaker_ok : ∀ t w, S.tcpState (S.tcpRegisterSendWaker t w) = S.tcpState t ∧
    S.tcpTuple (S.tcpRegisterSendWaker t w) = S.tcpTuple t ∧
    S.tcpCapacity (S.tcpRegisterSendWaker t w) = S.tcpCapacity t
  /-- A fresh UDP socket has nothing to send, and the buffers it was given. -/
  udpNew_ok : ∀ packets bytes, S.udpTx (S.udpNew packets bytes) = [] ∧
    S.udpCapacity (S.udpNew packets bytes) = (bytes, bytes)
  /-- `bind` keeps the buffers. -/
  udpBind_ok : ∀ {u ep u'}, S.udpBind u ep = .ok u' →
    S.udpTx u' = S.udpTx u ∧ S.udpCapacity u' = S.udpCapacity u
  /-- `recv` from an empty buffer says so. -/
  udpRecv_nil : ∀ u, S.udpRx u = [] → S.udpRecv u = (.error .exhausted, u)
  /-- `recv` takes the oldest datagram. -/
  udpRecv_cons : ∀ u d ds, S.udpRx u = d :: ds → ∃ u', S.udpRecv u = (.ok d, u') ∧
    S.udpRx u' = ds ∧ S.udpTx u' = S.udpTx u ∧ S.udpCapacity u' = S.udpCapacity u
  /-- `send_slice` queues the datagram behind the others. -/
  udpSendSlice_ok : ∀ {u b ep u'}, S.udpSendSlice u b ep = .ok u' →
    S.udpTx u' = S.udpTx u ++ [(b, ep)] ∧ S.udpCapacity u' = S.udpCapacity u
  /-- From an instant to itself no time passes. -/
  since_self : ∀ t, S.since t t = 0

/-- A fresh UDP socket can be bound to the destination of a received packet. -/
structure Smoltcp.Binds (S : Smoltcp) : Prop where
  /-- A received UDP packet has a destination port. -/
  udpParse_port : ∀ {b src dst caps r}, S.udpParse b src dst caps = some r → r.dstPort ≠ 0
  /-- `bind` of a fresh socket to a non-zero port succeeds. -/
  udpBind_new : ∀ packets bytes ep, ep.port ≠ 0 →
    ∃ u, S.udpBind (S.udpNew packets bytes) ep = .ok u

/-- A closed TCP socket can listen at the destination of a received packet. -/
structure Smoltcp.Listens (S : Smoltcp) : Prop where
  /-- A received TCP packet has a destination port. -/
  tcpParse_port : ∀ {b src dst caps r}, S.tcpParse b src dst caps = some r → r.dstPort ≠ 0
  /-- A fresh socket is closed. -/
  tcpNew_closed : ∀ rx tx, S.tcpState (S.tcpNew rx tx) = .closed
  /-- `listen` fails only without a port or on an open socket. -/
  tcpListen_closed : ∀ t ep, ep.port ≠ 0 → S.tcpIsOpen t = false → ∃ t', S.tcpListen t ep = .ok t'

end WayNetstack

import WayNetstack.Smoltcp
import WayNetstack.Lib.RefCount

/-!
# The session registry

`session/types.rs` and `session/manager.rs`: the keys of sessions, the entries
the stack keeps for them, and the reference-counted map of shared UDP sockets.

An `Arc<UdpQueue>` is shared by a table entry and by the session object handed to
the application. It is a reference, `QueueRef`, to a cell of a heap of queues; the
heap belongs to `Core`. The queue's `notify` is the subject of the receiver's own
model and is not kept here.
-/

namespace WayNetstack

open Lib

/-- `InterfaceId`. -/
structure InterfaceId where
  /-- The raw identifier. -/
  raw : UInt16
  deriving DecidableEq

/-- `SessionKey`: (interface, protocol, source endpoint, destination endpoint). -/
structure SessionKey where
  interface : InterfaceId
  proto : Proto
  src : IpEndpoint
  dst : IpEndpoint
  deriving DecidableEq

/-! ### Queues -/

/-- `Arc<UdpQueue>`: where the queue is on the heap. -/
abbrev QueueRef := ℕ

/-- `UdpQueue`. -/
structure UdpQueue where
  /-- The datagrams waiting, oldest first. -/
  inner : List Bytes
  /-- Set when the session has ended. -/
  closed : Bool
  deriving DecidableEq

/-- `UdpQueue::new`. -/
def UdpQueue.new : UdpQueue := ⟨[], false⟩

/-- `UdpQueue::push`. -/
def UdpQueue.push (q : UdpQueue) (data : Bytes) : UdpQueue := { q with inner := q.inner ++ [data] }

/-- `UdpQueue::pop`. -/
def UdpQueue.pop (q : UdpQueue) : Option Bytes × UdpQueue :=
  (q.inner.head?, { q with inner := q.inner.tail })

/-- `UdpQueue::mark_closed`. -/
def UdpQueue.markClosed (q : UdpQueue) : UdpQueue := { q with closed := true }

/-- The heap of queues. Queues are never moved, so a reference stays good. -/
abbrev Queues := List UdpQueue

/-- `UdpQueue::is_closed`, through a reference. -/
def Queues.isClosed (qs : Queues) (r : QueueRef) : Bool := (qs[r]?).elim true (·.closed)

/-! ### Entries -/

/-- `TcpState`: the lifecycle of an accepted TCP session. -/
inductive TcpState where
  /-- The listen socket was allocated but the handshake is not complete. -/
  | pending
  /-- The handshake completed; the session is exposed through `accept()`. -/
  | established
  /-- The connection reached CLOSED or TIME-WAIT. -/
  | closed
  deriving DecidableEq

/-- `TcpEntry`. -/
structure TcpEntry where
  handle : SocketHandle
  state : TcpState
  /-- Set when the application dropped the stream. -/
  orphaned : Bool
  deriving DecidableEq

/-- `UdpEntry`. -/
structure UdpEntry where
  socket : SocketHandle
  queue : QueueRef
  lastActivity : Instant
  deriving DecidableEq

/-- `SessionManager`: the registry of every active session. -/
structure SessionManager where
  tcp : Table SessionKey TcpEntry
  udp : Table SessionKey UdpEntry
  /-- One UDP socket per (interface, destination), with its reference count. -/
  udpDstSockets : Table (InterfaceId × IpEndpoint) (SocketHandle × ℕ)

namespace SessionManager

/-- `SessionManager::default`. -/
def empty : SessionManager := ⟨∅, ∅, ∅⟩

/-- `SessionManager::udp_socket_for`. The closure `create` acts on what it
captures, `s`, which is therefore passed through. -/
def udpSocketFor {σ : Type} (m : SessionManager) (interface : InterfaceId) (dst : IpEndpoint) (s : σ)
    (create : σ → Option (SocketHandle × σ)) : Option (SocketHandle × SessionManager × σ) :=
  match m.udpDstSockets.lookup (interface, dst) with
  | some (handle, _) => some (handle, m, s)
  | none =>
    match create s with
    | none => none
    | some (handle, s') =>
      some (handle, { m with udpDstSockets := m.udpDstSockets.insert (interface, dst) (handle, 0) }, s')

/-- `SessionManager::udp_socket_retain`. -/
def udpSocketRetain (m : SessionManager) (interface : InterfaceId) (dst : IpEndpoint) :
    SessionManager :=
  match m.udpDstSockets.lookup (interface, dst) with
  | some (handle, count) =>
    { m with udpDstSockets := m.udpDstSockets.replace (interface, dst) (handle, count + 1) }
  | none => m

/-- `SessionManager::udp_socket_release`: the subtraction saturates, and `true`
says that the socket is no longer used. -/
def udpSocketRelease (m : SessionManager) (interface : InterfaceId) (dst : IpEndpoint) :
    SessionManager × Bool :=
  match m.udpDstSockets.lookup (interface, dst) with
  | some (handle, count) =>
    if count - 1 = 0 then
      ({ m with udpDstSockets := m.udpDstSockets.erase (interface, dst) }, true)
    else
      ({ m with udpDstSockets := m.udpDstSockets.replace (interface, dst) (handle, count - 1) }, false)
  | none => (m, false)

section Specs

variable {m : SessionManager} {interface : InterfaceId} {dst : IpEndpoint} {h : SocketHandle} {n : ℕ}

theorem udpSocketFor_of_some {σ : Type} (hd : m.udpDstSockets.lookup (interface, dst) = some (h, n))
    (s : σ) (create : σ → Option (SocketHandle × σ)) :
    m.udpSocketFor interface dst s create = some (h, m, s) := by
  unfold udpSocketFor
  rw [hd]

theorem udpSocketFor_of_none {σ : Type} (hd : m.udpDstSockets.lookup (interface, dst) = none)
    (s : σ) (create : σ → Option (SocketHandle × σ)) :
    m.udpSocketFor interface dst s create = (create s).map fun r =>
      (r.1, { m with udpDstSockets := m.udpDstSockets.insert (interface, dst) (r.1, 0) }, r.2) := by
  unfold udpSocketFor
  rw [hd]
  cases create s <;> rfl

theorem udpSocketRetain_of_some (hd : m.udpDstSockets.lookup (interface, dst) = some (h, n)) :
    m.udpSocketRetain interface dst =
      { m with udpDstSockets := m.udpDstSockets.replace (interface, dst) (h, n + 1) } := by
  unfold udpSocketRetain
  rw [hd]

theorem udpSocketRelease_last (hd : m.udpDstSockets.lookup (interface, dst) = some (h, n))
    (hn : n - 1 = 0) : m.udpSocketRelease interface dst =
      ({ m with udpDstSockets := m.udpDstSockets.erase (interface, dst) }, true) := by
  unfold udpSocketRelease
  rw [hd]
  exact if_pos hn

theorem udpSocketRelease_more (hd : m.udpDstSockets.lookup (interface, dst) = some (h, n))
    (hn : n - 1 ≠ 0) : m.udpSocketRelease interface dst =
      ({ m with udpDstSockets := m.udpDstSockets.replace (interface, dst) (h, n - 1) }, false) := by
  unfold udpSocketRelease
  rw [hd]
  exact if_neg hn

end Specs

/-- The same registry with its tables in another order: the order in which a hash
map is visited is not specified and may change at any time. -/
structure Rehashed (m m' : SessionManager) : Prop where
  tcp : Table.Reordered m.tcp m'.tcp
  udp : Table.Reordered m.udp m'.udp
  udpDstSockets : Table.Reordered m.udpDstSockets m'.udpDstSockets

/-- The key of the shared socket a UDP session uses. -/
def dstOf (k : SessionKey) : InterfaceId × IpEndpoint := (k.interface, k.dst)

/-- The reference counts are exact: `Counted` of the session table and the socket
map, each session holding the socket its entry names. -/
def RefsExact (m : SessionManager) : Prop := Counted dstOf UdpEntry.socket m.udp m.udpDstSockets

end SessionManager

end WayNetstack

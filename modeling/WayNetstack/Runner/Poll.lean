import WayNetstack.Core

/-!
# The engine's poll

`Interface::poll` takes packets from the device, gives them to sockets, runs the
sockets' timers and sends what they have to send. What it does in one call is a
list of events, `PollEvent`, chosen by the engine; the effect of each event on the
slot is fixed here. A poll neither adds nor removes sockets and never turns one
protocol's socket into the other's: an event that names a cell without a socket of
its own protocol changes no socket.

The laws below say what else is documented of the events. Each is a property of one
event in the slot it happens in, so that a run can be asked to obey just the laws
an argument needs.
-/

namespace WayNetstack

open Lib

variable {S : Smoltcp}

/-- One thing the engine does in a poll. -/
inductive PollEvent (S : Smoltcp) where
  /-- `VirtualDevice::receive` hands over the oldest packet; if a socket takes what
  is in it, the socket's handle and what the socket becomes. -/
  | receive (taken : Option (SocketHandle × S.Socket))
  /-- A socket is dispatched, or a timer of it fires; what it becomes. -/
  | egress (handle : SocketHandle) (socket : S.Socket)
  /-- `TxToken::consume`: a packet goes to the device's egress queue. -/
  | transmit (data : Bytes)
  /-- The interface's own state changes. -/
  | internal (iface : S.Iface)

/-- The socket an event is about, and what it becomes. -/
def PollEvent.touches : PollEvent S → Option (SocketHandle × S.Socket)
  | .receive taken => taken
  | .egress h s => some (h, s)
  | .transmit _ | .internal _ => none

namespace InterfaceSlot

/-- A socket becomes another of the same protocol. -/
def swapSocket (slot : InterfaceSlot S) (h : SocketHandle) (s : S.Socket) : InterfaceSlot S :=
  if slot.protoAt h = some s.proto then slot.putSocket h s else slot

/-- `VirtualDevice::receive`: the oldest packet leaves the ingress queue. -/
def popIngress (slot : InterfaceSlot S) : InterfaceSlot S :=
  { slot with device := { slot.device with ingress := slot.device.ingress.tail } }

/-- The effect of an event. -/
def apply (slot : InterfaceSlot S) : PollEvent S → InterfaceSlot S
  | .receive none => slot.popIngress
  | .receive (some (h, s)) => slot.popIngress.swapSocket h s
  | .egress h s => slot.swapSocket h s
  | .transmit data => { slot with device := { slot.device with egress := slot.device.egress ++ [data] } }
  | .internal iface => { slot with iface }

/-- `slot.iface.poll(now, &mut slot.device, &mut slot.sockets)`. -/
def poll (slot : InterfaceSlot S) (events : List (PollEvent S)) : InterfaceSlot S :=
  events.foldl apply slot

/-- Every event of a poll obeys `law` in the slot it happens in. -/
def Obeys (law : InterfaceSlot S → PollEvent S → Prop) : InterfaceSlot S → List (PollEvent S) → Prop
  | _, [] => True
  | slot, e :: es => law slot e ∧ Obeys law (slot.apply e) es

instance {law : InterfaceSlot S → PollEvent S → Prop} [∀ s e, Decidable (law s e)] :
    ∀ (slot : InterfaceSlot S) (es : List (PollEvent S)), Decidable (Obeys law slot es)
  | _, [] => inferInstanceAs (Decidable True)
  | slot, e :: es =>
    have : Decidable (Obeys law (slot.apply e) es) := instDecidableObeys _ _
    inferInstanceAs (Decidable (law slot e ∧ Obeys law (slot.apply e) es))

/-! ### Laws of the events -/

/-- The TCP socket a handle names. -/
def tcpAt (slot : InterfaceSlot S) (h : SocketHandle) : Option S.Tcp :=
  (slot.sockets.get? h).bind Socket.tcp?

/-- The UDP socket a handle names. -/
def udpAt (slot : InterfaceSlot S) (h : SocketHandle) : Option S.Udp :=
  (slot.sockets.get? h).bind Socket.udp?

/-- The TCP segment an event takes from the device; a packet that fails a checksum gives
none, and so does a fragment. -/
def offered (slot : InterfaceSlot S) : PollEvent S → Option Segment
  | .receive _ => slot.device.ingress.head?.bind S.segment
  | _ => none

/-- The first TCP socket, in the order of the handles, that accepts a segment. -/
def acceptor (slot : InterfaceSlot S) (seg : Segment) : Option SocketHandle :=
  (List.range slot.sockets.cells.length).find? fun h => (slot.tcpAt h).any (S.accepts · seg)

/-- The endpoints of a TCP socket change in two ways only: they are forgotten, or the
socket listens and is the first that accepts a SYN, whose endpoints it takes. An
established socket has endpoints. -/
def Connects (slot : InterfaceSlot S) (e : PollEvent S) : Prop :=
  ∀ x ∈ e.touches, ∀ t ∈ slot.tcpAt x.1, ∀ t' ∈ x.2.tcp?,
    (S.tcpTuple t' = S.tcpTuple t ∨ S.tcpTuple t' = none ∨
      ∃ seg ∈ slot.offered e, slot.acceptor seg = some x.1 ∧ S.tcpState t = .listen ∧
        seg.control = .syn ∧ S.tcpTuple t' = some (seg.dst, seg.src)) ∧
    (S.tcpState t' = .established → (S.tcpTuple t').isSome)

instance (slot : InterfaceSlot S) (e : PollEvent S) : Decidable (slot.Connects e) :=
  inferInstanceAs (Decidable (∀ x ∈ e.touches, _))

/-- Only a call closes this side of a connection: a socket closed on this side stays
so, and one that was not ends a connection only as a whole. -/
def KeepsSide (slot : InterfaceSlot S) (e : PollEvent S) : Prop :=
  ∀ x ∈ e.touches, ∀ t ∈ slot.tcpAt x.1, ∀ t' ∈ x.2.tcp?,
    ((S.tcpState t).LocallyClosed → (S.tcpState t').LocallyClosed) ∧
    ((S.tcpState t).Passive → (S.tcpState t').Passive)

instance (slot : InterfaceSlot S) (e : PollEvent S) : Decidable (slot.KeepsSide e) :=
  inferInstanceAs (Decidable (∀ x ∈ e.touches, _))

/-- Sockets keep their buffers. -/
def KeepsBuffers (slot : InterfaceSlot S) (e : PollEvent S) : Prop :=
  ∀ x ∈ e.touches, ∀ s ∈ slot.sockets.get? x.1, S.capacity x.2 = S.capacity s

instance (slot : InterfaceSlot S) (e : PollEvent S) : Decidable (slot.KeepsBuffers e) :=
  inferInstanceAs (Decidable (∀ x ∈ e.touches, _))

/-- A UDP socket that is dispatched sends its oldest datagrams; receiving leaves its
transmit buffer alone. -/
def Dispatches (slot : InterfaceSlot S) : PollEvent S → Prop
  | .receive taken => ∀ x ∈ taken, ∀ u ∈ slot.udpAt x.1, ∀ u' ∈ x.2.udp?, S.udpTx u' = S.udpTx u
  | .egress h s => ∀ u ∈ slot.udpAt h, ∀ u' ∈ s.udp?, S.udpTx u' <:+ S.udpTx u
  | .transmit _ | .internal _ => True

instance (slot : InterfaceSlot S) : ∀ e : PollEvent S, Decidable (slot.Dispatches e)
  | .receive taken => inferInstanceAs (Decidable (∀ x ∈ taken, _))
  | .egress h _ => inferInstanceAs (Decidable (∀ u ∈ slot.udpAt h, _))
  | .transmit _ | .internal _ => inferInstanceAs (Decidable True)

end InterfaceSlot

/-- The polls of one cycle: the interface `id` performs the events `polls id`. -/
def Core.pollSlots (c : Core S) (polls : InterfaceId → List (PollEvent S)) : Core S :=
  { c with slots := c.slots.map fun slot => slot.poll (polls slot.id) }

end WayNetstack

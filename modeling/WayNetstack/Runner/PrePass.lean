import WayNetstack.Stream.Udp

/-!
# Before the poll

The first part of `runner.rs`: parsing a queued packet down to its transport
endpoints (`parse_l4`, `dispatch_l4`), and the pre-pass, which makes sockets for
new flows before the engine sees their packets.
-/

namespace WayNetstack

open Lib

variable {S : Smoltcp}

/-! ### Parsing -/

/-- `L4`: the protocol and flags of an ingress packet. -/
inductive L4 where
  | tcp (syn : Bool)
  | udp
  deriving DecidableEq

/-- `dispatch_l4`. -/
def dispatchL4 (S : Smoltcp) (srcIp dstIp : IpAddress) (nextHeader : IpProtocol) (payload : Bytes)
    (caps : ChecksumCapabilities) : Option (IpEndpoint × IpEndpoint × L4) :=
  match nextHeader with
  | .tcp =>
    if S.tcpNewChecked payload then
      (S.tcpParse payload srcIp dstIp caps).map fun repr =>
        (⟨srcIp, repr.srcPort⟩, ⟨dstIp, repr.dstPort⟩,
          .tcp (decide (repr.control = .syn) && repr.ackNumber.isNone))
    else none
  | .udp =>
    if S.udpNewChecked payload then
      (S.udpParse payload srcIp dstIp caps).map fun repr =>
        (⟨srcIp, repr.srcPort⟩, ⟨dstIp, repr.dstPort⟩, .udp)
    else none
  | .other _ => none

/-- `parse_l4`. -/
def parseL4 (S : Smoltcp) (pkt : Bytes) : Option (IpEndpoint × IpEndpoint × L4) :=
  match pkt.head? with
  | none => none
  | some first =>
    if first >>> 4 = 4 then
      if S.ipv4NewChecked pkt then
        (S.ipv4Parse pkt .ignored).bind fun repr =>
          dispatchL4 S repr.srcAddr repr.dstAddr repr.nextHeader (S.ipv4Payload pkt) .ignored
      else none
    else if first >>> 4 = 6 then
      if S.ipv6NewChecked pkt then
        (S.ipv6Parse pkt).bind fun repr =>
          dispatchL4 S repr.srcAddr repr.dstAddr repr.nextHeader (S.ipv6Payload pkt) .ignored
      else none
    else none

/-! ### Making sockets -/

/-- `NetstackRunner::alloc_tcp`. -/
def allocTcp (c : Core S) (i : ℕ) (key : SessionKey) : Op (Core S) :=
  match c.slots[i]? with
  | none => pure c
  | some slot =>
    let bufSize := slot.tcpBufferSize
    let need := 2 * bufSize
    match c.reserveBuffer need with
    | none => pure c
    | some c =>
      let socket := slot.tcpPool.head?.getD (S.tcpNew bufSize bufSize)
      let slot := { slot with tcpPool := slot.tcpPool.tail }
      match S.tcpListen socket ⟨some key.dst.addr, key.dst.port⟩ with
      -- the socket taken from the pool is dropped, the reservation is undone
      | .error _ => (c.setSlotAt i slot).releaseBuffer need
      | .ok socket =>
        let (handle, slot) := slot.addSocket (.tcp socket)
        let c := c.setSlotAt i slot
        pure { c with
          manager := { c.manager with tcp := c.manager.tcp.insert key ⟨handle, .pending, false⟩ } }

/-- The closure of `alloc_udp` that makes the shared socket. -/
def createUdp (packets bytes : ℕ) (dst : IpEndpoint) (slot : InterfaceSlot S) :
    Option (SocketHandle × InterfaceSlot S) :=
  match S.udpBind (S.udpNew packets bytes) dst with
  | .error _ => none
  | .ok socket => some (slot.addSocket (.udp socket))

/-- The session made for an entry. -/
def sessionOf (key : SessionKey) (handle : SocketHandle) (queue : QueueRef) : WayUdpSession :=
  ⟨key.interface, key, handle, queue, toSocketAddr key.src, toSocketAddr key.dst⟩

/-- The end of `alloc_udp`, once the shared socket is there: take a reference,
make the queue and the entry, and hand out the session. -/
def openUdp (c : Core S) (interface : InterfaceId) (key : SessionKey) (handle : SocketHandle)
    (now : Instant) : Core S × Session :=
  let m := c.manager.udpSocketRetain interface key.dst
  let queue : QueueRef := c.queues.length
  ({ c with
      manager := { m with udp := m.udp.insert key ⟨handle, queue, now⟩ }
      queues := c.queues ++ [UdpQueue.new] },
    .udp (sessionOf key handle queue))

/-- `NetstackRunner::alloc_udp`. -/
def allocUdp (c : Core S) (i : ℕ) (key : SessionKey) (now : Instant) :
    Core S × Option Session :=
  match c.slots[i]? with
  | none => (c, none)
  | some slot =>
    let packets := max c.config.udpBufferPackets 1
    let bytes := max c.config.udpBufferBytes slot.mtu
    let udpPerSocketBytes := packets * 64 + bytes
    let fresh := (c.manager.udpDstSockets.lookup (key.interface, key.dst)).isNone
    match (if fresh then c.reserveBuffer udpPerSocketBytes else some c) with
    | none => (c, none)
    | some c =>
      match c.manager.udpSocketFor slot.id key.dst slot (createUdp packets bytes key.dst) with
      -- the `?` leaves the reservation as it is
      | none => (c, none)
      | some (handle, m, slot') =>
        let (c, session) := openUdp ({ c with manager := m }.setSlotAt i slot') slot.id key handle now
        (c, some session)

/-! ### The pass -/

/-- The body of the pre-pass's loop, on one queued packet of slot `i`. -/
def admitPacket (i : ℕ) (now : Instant) (st : Core S × List Session) (pkt : Bytes) :
    Op (Core S × List Session) :=
  let (c, accepted) := st
  match parseL4 S pkt, c.slots[i]? with
  | some (src, dst, .tcp true), some slot =>
    let key : SessionKey := ⟨slot.id, .tcp, src, dst⟩
    if (c.manager.tcp.lookup key).isSome then pure (c, accepted)
    else if c.config.tcpMaxConnections ≤ Table.len c.manager.tcp then pure (c, accepted)
    else do
      let c ← allocTcp c i key
      pure (c, accepted)
  | some (src, dst, .udp), some slot =>
    let key : SessionKey := ⟨slot.id, .udp, src, dst⟩
    if (c.manager.udp.lookup key).isSome then pure (c, accepted)
    else if c.config.udpMaxSessions ≤ Table.len c.manager.udp then pure (c, accepted)
    else
      let (c, session) := allocUdp c i key now
      pure (c, accepted ++ session.toList)
  | _, _ => pure (c, accepted)

/-- Replace the ingress queue of slot `i`. -/
def Core.setIngress (c : Core S) (i : ℕ) (f : List Bytes → List Bytes) : Core S :=
  match c.slots[i]? with
  | none => c
  | some slot =>
    c.setSlotAt i { slot with device := { slot.device with ingress := f slot.device.ingress } }

/-- The ingress queue of slot `i`. -/
def Core.ingress (c : Core S) (i : ℕ) : List Bytes :=
  (c.slots[i]?).elim [] fun slot => slot.device.ingress

/-- The pre-pass on slot `i`: the queue is taken out, each packet of it is looked
at, and the queue is put back. -/
def prePassSlot (now : Instant) (st : Core S × List Session) (i : ℕ) : Op (Core S × List Session) := do
  let packets := st.1.ingress i
  let (c, accepted) ← packets.foldlM (admitPacket i now) (st.1.setIngress i fun _ => [], st.2)
  pure (c.setIngress i (· ++ packets), accepted)

/-- `NetstackRunner::pre_pass`. -/
def prePass (c : Core S) (now : Instant) : Op (Core S × List Session) :=
  (List.range c.slots.length).foldlM (prePassSlot now) (c, [])

end WayNetstack

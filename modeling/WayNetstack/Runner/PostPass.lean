import WayNetstack.Runner.PrePass
import WayNetstack.Runner.Poll

/-!
# After the poll

The rest of `runner.rs`'s cycle: the post-pass, in the order of the source — TCP
transitions, TCP reap, UDP redistribution, UDP timeout sweep — and `poll_once`,
which runs the whole cycle under the lock.

A loop over a hash map visits the entries of the table in the table's order. The
`loop` that drains a UDP socket is given as many turns as there are datagrams, and
one more to find the buffer empty; if that is not enough it does not end.
-/

namespace WayNetstack

open Lib

variable {S : Smoltcp}

/-! ### TCP transitions -/

/-- The states that close an entry: `Closed | TimeWait | Listen`. -/
def State.closesEntry : State → Bool
  | .closed | .timeWait | .listen => true
  | _ => false

/-- The entry's next state and whether the session is surfaced, from the state of
its socket. -/
def TcpEntry.advance (entry : TcpEntry) (socket : State) : TcpEntry × Bool :=
  match entry.state with
  | .pending =>
    if socket = .established then ({ entry with state := .established }, true) else (entry, false)
  | .established =>
    if socket.closesEntry then ({ entry with state := .closed }, false) else (entry, false)
  | .closed => (entry, false)

/-- The stream made for an entry. -/
def streamOf (key : SessionKey) (handle : SocketHandle) : WayTcpStream :=
  ⟨key.interface, key, handle, toSocketAddr key.src, toSocketAddr key.dst⟩

/-- The state of the TCP loop: the core, the sessions surfaced, the keys to reap. -/
structure TcpLoop (S : Smoltcp) where
  core : Core S
  accepted : List Session
  tcpReap : List SessionKey

/-- The body of the loop over `manager.tcp`. -/
def tcpVisit (st : TcpLoop S) (e : Σ _ : SessionKey, TcpEntry) : Op (TcpLoop S) :=
  match st.core.slot e.1.interface with
  | none => pure st
  | some slot => do
    let socket ← slot.getTcp e.2.handle
    let (entry, surfaced) := e.2.advance (S.tcpState socket)
    let c := st.core
    pure
      { core := { c with manager := { c.manager with tcp := c.manager.tcp.replace e.1 entry } }
        accepted := if surfaced then st.accepted ++ [.tcp (streamOf e.1 entry.handle)] else st.accepted
        tcpReap := if entry.orphaned && decide (S.tcpState socket = .closed) then st.tcpReap ++ [e.1]
          else st.tcpReap }

/-- The TCP transitions. -/
def tcpTransitions (c : Core S) : Op (TcpLoop S) :=
  c.manager.tcp.entries.foldlM tcpVisit ⟨c, [], []⟩

/-- The body of the loop over `tcp_reap`, with the bytes to release so far. -/
def reapTcp (st : Core S × ℕ) (key : SessionKey) : Op (Core S × ℕ) :=
  let (c, releasedTotal) := st
  match c.manager.tcp.lookup key with
  | none => pure (c, releasedTotal)
  | some entry =>
    let c := { c with manager := { c.manager with tcp := c.manager.tcp.erase key } }
    match c.slot key.interface with
    | none => pure (c, releasedTotal)
    | some slot => do
      let size := slot.tcpBufferSize
      let (removed, slot) ← slot.removeSocket entry.handle .tcp
      let slot := match removed with
        | .tcp s => if slot.tcpPool.length < slot.tcpPoolMax then
            { slot with tcpPool := slot.tcpPool ++ [s] } else slot
        | .udp _ => slot
      pure (c.setSlot slot, releasedTotal + 2 * size)

/-! ### UDP redistribution -/

/-- The `loop` that receives until the buffer is exhausted. -/
def drainUdp (S : Smoltcp) : ℕ → S.Udp → List (Bytes × IpEndpoint) →
    Except Fault (List (Bytes × IpEndpoint) × S.Udp)
  | 0, _, _ => .error .unending
  | n + 1, u, got =>
    match S.udpRecv u with
    | (.ok d, u') => drainUdp S n u' (got ++ [d])
    | (.error .exhausted, u') => .ok (got, u')
    | (.error .truncated, u') => drainUdp S n u' got

/-- The body of the loop over the shared sockets of slot `i`: drain the socket, and
address each datagram to the session of its source and the bound endpoint. -/
def drainDst (i : ℕ) (st : Core S × List (SessionKey × Bytes)) (dst : SocketHandle × IpEndpoint) :
    Op (Core S × List (SessionKey × Bytes)) :=
  match st.1.slots[i]? with
  | none => pure st
  | some slot => do
    let socket ← slot.getUdp dst.1
    let (got, socket) ← (⟨drainUdp S ((S.udpRx socket).length + 1) socket [], []⟩ : Op _)
    pure (st.1.setSlotAt i (slot.putSocket dst.1 (.udp socket)),
      st.2 ++ got.map fun d => (⟨slot.id, .udp, ⟨d.2.addr, d.2.port⟩, dst.2⟩, d.1))

/-- `dst_sockets`: the shared sockets of an interface with their bound endpoints. -/
def dstSockets (m : SessionManager) (id : InterfaceId) : List (SocketHandle × IpEndpoint) :=
  (m.udpDstSockets.entries.filter fun e => decide (e.1.1 = id)).map fun e => (e.2.1, e.1.2)

/-- The body of the loop over the slots. -/
def drainSlot (st : Core S × List (SessionKey × Bytes)) (i : ℕ) :
    Op (Core S × List (SessionKey × Bytes)) :=
  match st.1.slots[i]? with
  | none => pure st
  | some slot => (dstSockets st.1.manager slot.id).foldlM (drainDst i) st

/-- Receive everything the shared sockets hold: `routed`. -/
def drainSlots (c : Core S) : Op (Core S × List (SessionKey × Bytes)) :=
  (List.range c.slots.length).foldlM drainSlot (c, [])

/-- The body of the loop over `routed`. -/
def route (now : Instant) (c : Core S) (d : SessionKey × Bytes) : Core S :=
  match c.manager.udp.lookup d.1 with
  | none => c
  | some entry =>
    { c with
      queues := c.queues.modify entry.queue (·.push d.2)
      manager := { c.manager with udp := c.manager.udp.replace d.1 { entry with lastActivity := now } } }

/-! ### UDP timeout sweep -/

/-- Whether the sweep at `now` expires an entry. -/
def UdpEntry.expiredAt (S : Smoltcp) (entry : UdpEntry) (now : Instant) (timeout : ℕ) : Bool :=
  decide (S.durationFrom timeout < S.since now entry.lastActivity)

/-- `expired`: the keys the sweep removes. -/
def expiredKeys (c : Core S) (now : Instant) : List SessionKey :=
  (c.manager.udp.entries.filter fun e => e.2.expiredAt S now c.config.udpSessionTimeout).map (·.1)

/-- The body of the loop over `expired`, with the bytes to release so far. -/
def sweepUdp (st : Core S × ℕ) (key : SessionKey) : Op (Core S × ℕ) := do
  let (c, released) ← st.1.endUdp key.interface key
  pure (c, st.2 + released.getD 0)

/-! ### The pass and the cycle -/

/-- What the post-pass goes through. -/
structure PostPass (S : Smoltcp) where
  /-- After the TCP transitions. -/
  tcp : TcpLoop S
  /-- After the reap, with the bytes to release so far. -/
  reaped : Core S × ℕ
  /-- After the shared sockets were drained, with the datagrams received. -/
  drained : Core S × List (SessionKey × Bytes)
  /-- After the redistribution; the sweep starts here. -/
  routed : Core S
  /-- After the sweep, with the bytes to release. -/
  swept : Core S × ℕ
  /-- At the end. -/
  core : Core S

/-- `NetstackRunner::post_pass`. -/
def postPass (c : Core S) (now : Instant) : Op (PostPass S) := do
  let tcp ← tcpTransitions c
  let reaped ← tcp.tcpReap.foldlM reapTcp (tcp.core, 0)
  let drained ← drainSlots reaped.1
  let routed := drained.2.foldl (route now) drained.1
  let swept ← (expiredKeys routed now).foldlM sweepUdp (routed, reaped.2)
  let core ← swept.1.releaseBuffer swept.2
  pure ⟨tcp, reaped, drained, routed, swept, core⟩

/-- `EgressPacket`. -/
structure EgressPacket where
  interfaceId : InterfaceId
  data : Bytes
  deriving DecidableEq

/-- The end of the locked part: collect and clear the egress queues. -/
def Core.drainEgress (c : Core S) : Core S × List EgressPacket :=
  ({ c with slots := c.slots.map fun slot => { slot with device := { slot.device with egress := [] } } },
    c.slots.flatMap fun slot => slot.device.egress.map fun data => ⟨slot.id, data⟩)

/-- What one cycle went through. -/
structure Cycle (S : Smoltcp) where
  /-- After the pre-pass, with the sessions made in it. -/
  admitted : Core S × List Session
  /-- After the polls. -/
  polled : Core S
  /-- The post-pass. -/
  post : PostPass S
  /-- At the end of the locked part. -/
  core : Core S
  /-- `scratch_accepted`. -/
  accepted : List Session
  /-- `scratch_egress`. -/
  egress : List EgressPacket

/-- The locked part of `NetstackRunner::poll_once`, the engine performing the events
`polls`. -/
def pollOnce (c : Core S) (now : Instant) (polls : InterfaceId → List (PollEvent S)) :
    Op (Cycle S) := do
  let admitted ← prePass c now
  let polled := admitted.1.pollSlots polls
  let post ← postPass polled now
  let (core, egress) := post.core.drainEgress
  pure ⟨admitted, polled, post, core, admitted.2 ++ post.tcp.accepted, egress⟩

/-- `IngressPacket`. -/
structure IngressPacket where
  interface : InterfaceId
  data : Bytes
  deriving DecidableEq

/-- `NetstackRunner::queue_ingress`. -/
def queueIngress (c : Core S) (pkt : IngressPacket) : Core S :=
  match c.slot pkt.interface with
  | some slot => c.setSlot { slot with device := slot.device.pushIngress pkt.data }
  | none => c

end WayNetstack

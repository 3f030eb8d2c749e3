import WayNetstack.Stream.Tcp

/-!
# UDP sessions

`stream/udp.rs`: the object the application holds for a UDP pseudo-session, and
the end of a session, which `WayUdpSession::drop` and the runner's timeout sweep
carry out in the same way.
-/

namespace WayNetstack

open Lib

variable {S : Smoltcp}

/-- `WayUdpSession`. -/
structure WayUdpSession where
  interface : InterfaceId
  key : SessionKey
  socket : SocketHandle
  queue : QueueRef
  srcAddr : SocketAddr
  dstAddr : SocketAddr
  deriving DecidableEq

/-- `Session`: what is handed out through `accept()`. -/
inductive Session where
  | tcp (stream : WayTcpStream)
  | udp (session : WayUdpSession)
  deriving DecidableEq

/-- `SendOutcome`. -/
inductive SendOutcome where
  | sent
  | full
  | failed (error : NetstackError)
  deriving DecidableEq

/-- Take the entry of `key` out of the table, close its queue and give up its
reference to the shared socket; the last reference takes the socket with it, and
the bytes to be released are returned. -/
def Core.endUdp (c : Core S) (interface : InterfaceId) (key : SessionKey) :
    Op (Core S × Option ℕ) :=
  match c.manager.udp.lookup key with
  | none => pure (c, none)
  | some entry =>
    let m := { c.manager with udp := c.manager.udp.erase key }
    let (m, released) := m.udpSocketRelease interface key.dst
    let c := { c with manager := m, queues := c.queues.modify entry.queue UdpQueue.markClosed }
    if released then
      match c.slot interface with
      | none => pure (c, none)
      | some slot => do
        let (_, slot') ← slot.removeSocket entry.socket .udp
        pure (c.setSlot slot',
          some (max c.config.udpBufferPackets 1 * 64 + max c.config.udpBufferBytes slot.mtu))
    else pure (c, none)

namespace WayUdpSession

/-- `WayUdpSession::try_send`. -/
def trySend (ses : WayUdpSession) (c : Core S) (payload : Bytes) (target : IpEndpoint) :
    Op (Core S × SendOutcome) :=
  if c.queues.isClosed ses.queue then pure (c, .failed .udpNotOpen)
  else
    match c.slot ses.interface with
    | none => pure (c, .failed (.internal "interface is gone"))
    | some slot => do
      let socket ← slot.getUdp ses.socket
      match S.udpSendSlice socket payload target with
      | .ok socket' => pure (c.setSlot (slot.putSocket ses.socket (.udp socket')), .sent)
      | .error .bufferFull => pure (c, .full)
      | .error .unaddressable => pure (c, .failed .udpNotOpen)

/-- The target of `WayUdpSession::send`. -/
def target (ses : WayUdpSession) : IpEndpoint := ⟨ses.key.src.addr, ses.key.src.port⟩

/-- The first step of `WayUdpSession::recv`: `self.queue.pop()`. -/
def popQueue (ses : WayUdpSession) (c : Core S) : Core S × Option Bytes :=
  match c.queues[ses.queue]? with
  | none => (c, none)
  | some q => ({ c with queues := c.queues.set ses.queue q.pop.2 }, q.pop.1)

/-- `WayUdpSession::drop`. The entry is looked up by the session's key. -/
def drop (ses : WayUdpSession) (c : Core S) : Op (StreamOp S Unit) := do
  let (c, released) ← c.endUdp ses.interface ses.key
  match released with
  | some bytes =>
    let c ← c.releaseBuffer bytes
    pure ⟨c, (), true⟩
  | none => pure ⟨c, (), true⟩

end WayUdpSession

end WayNetstack

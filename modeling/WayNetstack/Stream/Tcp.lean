import WayNetstack.Core

/-!
# TCP streams

`stream/tcp.rs`: the object the application holds for an accepted connection. Its
operations lock the core, work on the connection's socket, and — after the lock is
released — may call `notify_poll`; each returns the new core, the value returned
to the caller, and whether it makes that call.
-/

namespace WayNetstack

open Lib

variable {S : Smoltcp}

/-- `std::net::SocketAddr`. -/
structure SocketAddr where
  ip : IpAddress
  port : UInt16
  deriving DecidableEq

/-- `to_socket_addr`. -/
def toSocketAddr (ep : IpEndpoint) : SocketAddr := ⟨ep.addr, ep.port⟩

/-- `std::task::Poll`. -/
inductive Poll (α : Type) where
  | ready (value : α)
  | pending
  deriving DecidableEq

/-- `std::io::ErrorKind`: the kinds the streams use. -/
inductive ErrorKind where
  | notConnected
  | brokenPipe
  deriving DecidableEq

/-- `std::io::Error`. -/
structure IoError where
  kind : ErrorKind
  msg : String
  deriving DecidableEq

/-- `WayTcpStream`. -/
structure WayTcpStream where
  interface : InterfaceId
  key : SessionKey
  handle : SocketHandle
  srcAddr : SocketAddr
  dstAddr : SocketAddr
  deriving DecidableEq

/-- What an operation on a stream ends in: the core, the value for the caller, and
whether `notify_poll` is called once the lock is released. -/
structure StreamOp (S : Smoltcp) (α : Type) where
  core : Core S
  value : α
  notify : Bool

namespace WayTcpStream

/-- The error of an operation on an interface that is not there. -/
def interfaceGone : IoError := ⟨.notConnected, "interface is gone"⟩

/-- `WayTcpStream::poll_read`, into a buffer with `room` bytes unfilled: the bytes
read, none at the end of the stream. -/
def pollRead (st : WayTcpStream) (c : Core S) (cx : Waker) (room : ℕ) :
    Op (StreamOp S (Poll (Except IoError Bytes))) :=
  match c.slot st.interface with
  | none => pure ⟨c, .ready (.error interfaceGone), false⟩
  | some slot => do
    let socket ← slot.getTcp st.handle
    match S.tcpRecvSlice socket room with
    | .ok (data, socket') =>
      if 0 < data.length then
        pure ⟨c.setSlot (slot.putSocket st.handle (.tcp socket')), .ready (.ok data), false⟩
      else
        pure ⟨c.setSlot (slot.putSocket st.handle (.tcp (S.tcpRegisterRecvWaker socket' cx))),
          .pending, true⟩
    | .error .finished => pure ⟨c, .ready (.ok []), false⟩
    | .error .invalidState =>
      if S.tcpIsOpen socket then
        pure ⟨c.setSlot (slot.putSocket st.handle (.tcp (S.tcpRegisterRecvWaker socket cx))),
          .pending, true⟩
      else
        pure ⟨c, .ready (.ok []), false⟩

/-- `WayTcpStream::poll_write`. Bytes accepted do not notify the runner. -/
def pollWrite (st : WayTcpStream) (c : Core S) (cx : Waker) (data : Bytes) :
    Op (StreamOp S (Poll (Except IoError ℕ))) :=
  match c.slot st.interface with
  | none => pure ⟨c, .ready (.error interfaceGone), false⟩
  | some slot => do
    let socket ← slot.getTcp st.handle
    match S.tcpSendSlice socket data with
    | .ok (n, socket') =>
      if 0 < n then
        pure ⟨c.setSlot (slot.putSocket st.handle (.tcp socket')), .ready (.ok n), false⟩
      else
        pure ⟨c.setSlot (slot.putSocket st.handle (.tcp (S.tcpRegisterSendWaker socket' cx))),
          .pending, true⟩
    | .error .invalidState =>
      if S.tcpIsOpen socket then
        pure ⟨c.setSlot (slot.putSocket st.handle (.tcp (S.tcpRegisterSendWaker socket cx))),
          .pending, true⟩
      else
        pure ⟨c, .ready (.error ⟨.brokenPipe, "connection closed"⟩), false⟩

/-- `if socket.is_open() { socket.close(); }`. -/
def closeIfOpen (socket : S.Tcp) : S.Tcp :=
  if S.tcpIsOpen socket then S.tcpClose socket else socket

/-- `WayTcpStream::poll_shutdown`. -/
def pollShutdown (st : WayTcpStream) (c : Core S) :
    Op (StreamOp S (Poll (Except IoError Unit))) :=
  match c.slot st.interface with
  | none => pure ⟨c, .ready (.ok ()), true⟩
  | some slot => do
    let socket ← slot.getTcp st.handle
    pure ⟨c.setSlot (slot.putSocket st.handle (.tcp (closeIfOpen socket))), .ready (.ok ()), true⟩

/-- The part of `drop` that closes the socket. -/
def dropSocket (st : WayTcpStream) (c : Core S) : Op (Core S) :=
  match c.slot st.interface with
  | none => pure c
  | some slot => do
    let socket ← slot.getTcp st.handle
    pure (c.setSlot (slot.putSocket st.handle (.tcp (closeIfOpen socket))))

/-- The part of `drop` that marks the entry: `entry.orphaned = true`. -/
def orphan (st : WayTcpStream) (c : Core S) : Core S :=
  match c.manager.tcp.lookup st.key with
  | some entry =>
    { c with
      manager := { c.manager with tcp := c.manager.tcp.replace st.key { entry with orphaned := true } } }
  | none => c

/-- `WayTcpStream::drop`. -/
def drop (st : WayTcpStream) (c : Core S) : Op (StreamOp S Unit) :=
  match c.manager.tcp.lookup st.key with
  | some _ => do
    let c ← st.dropSocket c
    pure ⟨st.orphan c, (), true⟩
  | none => pure ⟨c, (), true⟩

end WayTcpStream

end WayNetstack

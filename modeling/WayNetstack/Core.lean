import WayNetstack.Session.Manager
import WayNetstack.Lib.Traced

/-!
# The shared core

`core.rs`, `device/virtual_device.rs` and the parts of `builder.rs` that make a
core: the configuration, the virtual device, one slot per interface, and `Core`,
everything behind the lock.

An operation that works on a socket set runs in `Traced`: it records every call of
`SocketSet::get_mut` and `SocketSet::remove` with the protocol the caller expects
and what the handle named, and every release of buffer budget with what was held
(`Call`). A call that would panic stops the operation with a `Fault`. A slot or a
socket reached through a mutable reference is read, and written back at the end
(`setSlot`, `Slab.put`).

Logging is left out throughout.
-/

namespace WayNetstack

open Lib

/-! ### Configuration -/

/-- `NetstackConfig`, without the log level and the allocator's settings. -/
structure NetstackConfig where
  mtu : ℕ
  tcpBufferSize : ℕ
  tcpMaxConnections : ℕ
  tcpPoolSize : ℕ
  /-- In nanoseconds, as `std::time::Duration` keeps it. -/
  udpSessionTimeout : ℕ
  udpMaxSessions : ℕ
  channelCapacity : ℕ
  udpBufferPackets : ℕ
  udpBufferBytes : ℕ
  maxBufferBytes : Option ℕ

/-- `NetstackConfig::default`. -/
def NetstackConfig.default : NetstackConfig where
  mtu := 1500
  tcpBufferSize := 16 * 1024
  tcpMaxConnections := 4096
  tcpPoolSize := 4096
  udpSessionTimeout := 30 * 1000000000
  udpMaxSessions := 4096
  channelCapacity := 2048
  udpBufferPackets := 16
  udpBufferBytes := 16 * 1024
  maxBufferBytes := none

/-- `NetstackError`: the errors the modelled operations return. -/
inductive NetstackError where
  | interfaceNotFound (id : InterfaceId)
  | channelClosed
  | channelFull
  | udpNotOpen
  | internal (msg : String)
  deriving DecidableEq

/-! ### Device, slot, core -/

/-- `VirtualDevice`. -/
structure VirtualDevice where
  mtu : ℕ
  ingress : List Bytes
  egress : List Bytes
  deriving DecidableEq

/-- `VirtualDevice::new`. -/
def VirtualDevice.new (mtu : ℕ) : VirtualDevice := ⟨mtu, [], []⟩

/-- `VirtualDevice::push_ingress`. -/
def VirtualDevice.pushIngress (d : VirtualDevice) (packet : Bytes) : VirtualDevice :=
  { d with ingress := d.ingress ++ [packet] }

/-- `InterfaceSlot`: one serviced interface. -/
structure InterfaceSlot (S : Smoltcp) where
  id : InterfaceId
  iface : S.Iface
  device : VirtualDevice
  sockets : S.SocketSet
  /-- Reclaimed idle TCP sockets awaiting reuse. -/
  tcpPool : List S.Tcp
  tcpPoolMax : ℕ
  mtu : ℕ
  tcpBufferSize : ℕ

/-- `InterfaceSlot::new`. -/
def InterfaceSlot.new {S : Smoltcp} (id : InterfaceId) (iface : S.Iface) (device : VirtualDevice)
    (sockets : S.SocketSet) (tcpPoolMax mtu tcpBufferSize : ℕ) : InterfaceSlot S :=
  ⟨id, iface, device, sockets, [], tcpPoolMax, mtu, tcpBufferSize⟩

/-- `Core`, together with the heap the `Arc<UdpQueue>`s point into. -/
structure Core (S : Smoltcp) where
  slots : List (InterfaceSlot S)
  manager : SessionManager
  config : NetstackConfig
  /-- The count of buffer bytes charged. -/
  bufferBytes : ℕ
  queues : Queues

variable {S : Smoltcp}

/-- `Core::slot` and `Core::slot_mut`: the first slot with the identifier. -/
def Core.slot (c : Core S) (id : InterfaceId) : Option (InterfaceSlot S) :=
  c.slots.find? fun s => decide (s.id = id)

/-- What is written through the reference `Core::slot_mut` gives. -/
def Core.setSlot (c : Core S) (slot : InterfaceSlot S) : Core S :=
  { c with slots := c.slots.set (c.slots.findIdx fun s => decide (s.id = slot.id)) slot }

/-- What is written through `core.slots[i]`. -/
def Core.setSlotAt (c : Core S) (i : ℕ) (slot : InterfaceSlot S) : Core S :=
  { c with slots := c.slots.set i slot }

/-! ### Calls and faults -/

/-- A call on a socket set or on the budget, as an operation made it. -/
inductive Call where
  /-- `SocketSet::get_mut` for a socket of protocol `expected`; the handle named a
  socket of protocol `found`. -/
  | getMut (interface : InterfaceId) (handle : SocketHandle) (expected : Proto) (found : Option Proto)
  /-- `SocketSet::remove`. -/
  | remove (interface : InterfaceId) (handle : SocketHandle) (expected : Proto) (found : Option Proto)
  /-- `Core::release_buffer` of `bytes` when `held` bytes were charged. -/
  | release (bytes held : ℕ)
  deriving DecidableEq

/-- What stops an operation: a panic, or a loop that does not end. -/
inductive Fault where
  /-- The handle names no socket. -/
  | absent
  /-- The handle names a socket of the other protocol. -/
  | wrongType
  /-- A loop does not end. -/
  | unending
  deriving DecidableEq

/-- A traced operation of the crate. -/
abbrev Op (α : Type) := Traced Fault Call α

/-- The protocol of the socket a handle names. -/
def InterfaceSlot.protoAt (slot : InterfaceSlot S) (h : SocketHandle) : Option Proto :=
  (slot.sockets.get? h).map Socket.proto

/-- `slot.sockets.get_mut::<tcp::Socket>(handle)`. -/
def InterfaceSlot.getTcp (slot : InterfaceSlot S) (h : SocketHandle) : Op S.Tcp :=
  .call (.getMut slot.id h .tcp (slot.protoAt h)) <|
    match slot.sockets.get? h with
    | some (.tcp t) => .ok t
    | some (.udp _) => .error .wrongType
    | none => .error .absent

/-- `slot.sockets.get_mut::<udp::Socket>(handle)`. -/
def InterfaceSlot.getUdp (slot : InterfaceSlot S) (h : SocketHandle) : Op S.Udp :=
  .call (.getMut slot.id h .udp (slot.protoAt h)) <|
    match slot.sockets.get? h with
    | some (.udp u) => .ok u
    | some (.tcp _) => .error .wrongType
    | none => .error .absent

/-- `slot.sockets.remove(handle)`, for a handle kept as one of protocol
`expected`: the socket that was there, of either protocol. -/
def InterfaceSlot.removeSocket (slot : InterfaceSlot S) (h : SocketHandle) (expected : Proto) :
    Op (S.Socket × InterfaceSlot S) :=
  .call (.remove slot.id h expected (slot.protoAt h)) <|
    match slot.sockets.get? h with
    | some s => .ok (s, { slot with sockets := slot.sockets.remove h })
    | none => .error .absent

/-- Write a socket back through the reference `get_mut` gave. -/
def InterfaceSlot.putSocket (slot : InterfaceSlot S) (h : SocketHandle) (s : S.Socket) :
    InterfaceSlot S :=
  { slot with sockets := slot.sockets.put h s }

/-- `slot.sockets.add(socket)`. -/
def InterfaceSlot.addSocket (slot : InterfaceSlot S) (s : S.Socket) :
    SocketHandle × InterfaceSlot S :=
  let h := S.freeIndex slot.sockets
  (h, { slot with sockets := slot.sockets.insertAt h s })

/-! ### Budget -/

/-- `Core::reserve_buffer`. -/
def Core.reserveBuffer (c : Core S) (bytes : ℕ) : Option (Core S) :=
  match c.config.maxBufferBytes with
  | some limit =>
    if limit < c.bufferBytes + bytes then none
    else some { c with bufferBytes := c.bufferBytes + bytes }
  | none => some { c with bufferBytes := c.bufferBytes + bytes }

/-- `Core::release_buffer`; the subtraction saturates. -/
def Core.releaseBuffer (c : Core S) (bytes : ℕ) : Op (Core S) :=
  .call (.release bytes c.bufferBytes) (.ok { c with bufferBytes := c.bufferBytes - bytes })

/-! ### Building a core -/

/-- `NetstackBuilder` as `build` uses it, an interface given by its identifier and the
engine's interface made for it. `add_interface` has refused every identifier in use,
so that the identifiers are distinct. -/
structure NetstackBuilder (S : Smoltcp) where
  config : NetstackConfig
  interfaces : List (InterfaceId × S.Iface)
  /-- No identifier twice. -/
  distinct : (interfaces.map Prod.fst).Nodup

/-- `build_interface`, from the point where the engine's interface exists. -/
def buildInterface (config : NetstackConfig) (i : InterfaceId × S.Iface) : InterfaceSlot S :=
  .new i.1 i.2 (.new config.mtu) .empty config.tcpPoolSize config.mtu config.tcpBufferSize

/-- The core that `NetstackBuilder::build` shares with the runner. -/
def NetstackBuilder.build (b : NetstackBuilder S) : Core S where
  slots := b.interfaces.map (buildInterface b.config)
  manager := .empty
  config := b.config
  bufferBytes := 0
  queues := []

end WayNetstack

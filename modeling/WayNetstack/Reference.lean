import WayNetstack.World

/-!
# A reference engine

An engine that can be run: sockets are records of what is observed of them, packets
are IPv4 with their real headers and checksums, `add` takes the first free cell. It
is lawful (`reference_lawful`, `reference_binds`), so that what is proved of every
lawful engine is about something, and runs of the stack can be computed with it.

The engine speaks IPv4 only; options of headers are skipped.
-/

namespace WayNetstack

open Lib

namespace Reference

/-! ### Bytes -/

/-- The big-endian number in the two bytes at `i`. -/
def word (b : Bytes) (i : ℕ) : ℕ := (b.getD i 0).toNat * 256 + (b.getD (i + 1) 0).toNat

/-- The sum of the 16-bit words of a string, padded with a zero byte. -/
def sumWords : Bytes → ℕ
  | [] => 0
  | [x] => x.toNat * 256
  | x :: y :: rest => x.toNat * 256 + y.toNat + sumWords rest

/-- The one's complement sum of the words. -/
def onesSum (b : Bytes) : ℕ :=
  let n := sumWords b
  let n := n % 65536 + n / 65536
  n % 65536 + n / 65536

/-- A string that contains its own checksum. -/
def checksumOk (b : Bytes) : Bool := decide (onesSum b = 65535)

/-! ### IPv4 -/

/-- `Ipv4Packet::header_len`. -/
def ipv4HeaderLen (b : Bytes) : ℕ := (b.getD 0 0 &&& 15).toNat * 4

/-- `Ipv4Packet::check_len`. -/
def ipv4NewChecked (b : Bytes) : Bool :=
  decide (20 ≤ b.length ∧ ipv4HeaderLen b ≤ b.length ∧ ipv4HeaderLen b ≤ word b 2 ∧
    word b 2 ≤ b.length)

/-- The address in the four bytes at `i`. -/
def ipv4Addr (b : Bytes) (i : ℕ) : IpAddress := .v4 (UInt32.ofNat (word b i * 65536 + word b (i + 2)))

/-- `IpProtocol::from`. -/
def protocol (n : UInt8) : IpProtocol := if n = 6 then .tcp else if n = 17 then .udp else .other n

/-- `Ipv4Repr::parse`. -/
def ipv4Parse (b : Bytes) (caps : ChecksumCapabilities) : Option IpRepr :=
  if b.getD 0 0 >>> 4 = 4 ∧ 20 ≤ ipv4HeaderLen b ∧
      (caps = .default → checksumOk (b.take (ipv4HeaderLen b)) = true) then
    some ⟨ipv4Addr b 12, ipv4Addr b 16, protocol (b.getD 9 0)⟩
  else none

/-- `Ipv4Packet::payload`. -/
def ipv4Payload (b : Bytes) : Bytes := (b.take (word b 2)).drop (ipv4HeaderLen b)

/-- The four bytes of an address. -/
def addrBytes : IpAddress → Bytes
  | .v4 a => [(a >>> 24).toUInt8, (a >>> 16).toUInt8, (a >>> 8).toUInt8, a.toUInt8]
  | .v6 _ => []

/-- The pseudo header of a transport checksum. -/
def pseudoHeader (src dst : IpAddress) (proto : UInt8) (len : ℕ) : Bytes :=
  addrBytes src ++ addrBytes dst ++ [0, proto, UInt8.ofNat (len / 256), UInt8.ofNat len]

/-! ### TCP and UDP headers -/

/-- `TcpPacket::header_len`. -/
def tcpHeaderLen (b : Bytes) : ℕ := (b.getD 12 0 >>> 4).toNat * 4

/-- `TcpPacket::check_len`. -/
def tcpNewChecked (b : Bytes) : Bool :=
  decide (20 ≤ b.length ∧ 20 ≤ tcpHeaderLen b ∧ tcpHeaderLen b ≤ b.length)

/-- The control field, from the flags; some combinations are malformed. -/
def tcpControl (flags : UInt8) : Option TcpControl :=
  match decide (flags &&& 2 ≠ 0), decide (flags &&& 1 ≠ 0), decide (flags &&& 4 ≠ 0),
    decide (flags &&& 8 ≠ 0) with
  | false, false, false, false => some .none
  | false, false, false, true => some .psh
  | true, false, false, _ => some .syn
  | false, true, false, _ => some .fin
  | false, false, true, _ => some .rst
  | _, _, _, _ => none

/-- `TcpRepr::parse`. -/
def tcpParse (b : Bytes) (src dst : IpAddress) (caps : ChecksumCapabilities) : Option TcpRepr :=
  if word b 0 ≠ 0 ∧ word b 2 ≠ 0 ∧
      (caps = .default → checksumOk (pseudoHeader src dst 6 b.length ++ b) = true) then
    (tcpControl (b.getD 13 0)).map fun control =>
      ⟨UInt16.ofNat (word b 0), UInt16.ofNat (word b 2), control,
        if b.getD 13 0 &&& 16 ≠ 0 then some (UInt32.ofNat (word b 8 * 65536 + word b 10)) else none⟩
  else none

/-- `UdpPacket::check_len`. -/
def udpNewChecked (b : Bytes) : Bool := decide (8 ≤ b.length ∧ 8 ≤ word b 4 ∧ word b 4 ≤ b.length)

/-- `UdpRepr::parse`. -/
def udpParse (b : Bytes) (src dst : IpAddress) (caps : ChecksumCapabilities) : Option UdpRepr :=
  if UInt16.ofNat (word b 2) ≠ 0 ∧ (caps = .default → word b 6 ≠ 0 →
      checksumOk (pseudoHeader src dst 17 (word b 4) ++ b.take (word b 4)) = true) then
    some ⟨UInt16.ofNat (word b 0), UInt16.ofNat (word b 2)⟩
  else none

/-- The packet is a part of a datagram only: more parts follow, or it is not the first. -/
def isFragment (b : Bytes) : Bool := decide (word b 6 % 16384 ≠ 0)

/-- What the engine's ingress makes of a packet by itself. -/
def segment (b : Bytes) : Option Segment :=
  if ipv4NewChecked b ∧ isFragment b = false then
    (ipv4Parse b .default).bind fun ip =>
      if ip.nextHeader = .tcp ∧ tcpNewChecked (ipv4Payload b) = true then
        (tcpParse (ipv4Payload b) ip.srcAddr ip.dstAddr .default).map fun repr =>
          ⟨⟨ip.srcAddr, repr.srcPort⟩, ⟨ip.dstAddr, repr.dstPort⟩, repr.control,
            repr.ackNumber.isSome⟩
      else none
  else none

/-! ### Sockets -/

/-- A TCP socket. -/
structure Tcp where
  state : State
  tuple : Option (IpEndpoint × IpEndpoint)
  listenEndpoint : IpListenEndpoint
  capacity : ℕ × ℕ
  rx : Bytes
  tx : Bytes
  deriving DecidableEq

/-- A UDP socket; its endpoint once it is bound. -/
structure Udp where
  endpoint : Option IpEndpoint
  packets : ℕ
  bytes : ℕ
  rx : List (Bytes × IpEndpoint)
  tx : List (Bytes × IpEndpoint)
  deriving DecidableEq

namespace Tcp

/-- `tcp::Socket::new`. -/
def new (rx tx : ℕ) : Tcp := ⟨.closed, none, ⟨none, 0⟩, (rx, tx), [], []⟩

/-- `tcp::Socket::is_open`. -/
def isOpen (t : Tcp) : Bool := decide (t.state ≠ .closed ∧ t.state ≠ .timeWait)

/-- `tcp::Socket::listen`. A socket that is listening at the endpoint goes on; it has
no connection and nothing in its buffers. -/
def listen (t : Tcp) (ep : IpListenEndpoint) : Except BindError Tcp :=
  if ep.port = 0 then .error .unaddressable
  else if t.isOpen ∧ ¬(t.state = .listen ∧ t.listenEndpoint = ep) then .error .invalidState
  else .ok { t with state := .listen, tuple := none, listenEndpoint := ep, rx := [], tx := [] }

/-- The state after `tcp::Socket::close`. -/
def closeState : State → State
  | .listen | .synSent => .closed
  | .synReceived | .established => .finWait1
  | .closeWait => .lastAck
  | s => s

/-- `tcp::Socket::close`. -/
def close (t : Tcp) : Tcp := { t with state := closeState t.state }

/-- `tcp::Socket::may_recv`. -/
def mayRecv (t : Tcp) : Bool :=
  match t.state with
  | .established | .finWait1 | .finWait2 => true
  | _ => !t.rx.isEmpty

/-- `tcp::Socket::recv_slice`. -/
def recvSlice (t : Tcp) (n : ℕ) : Except TcpRecvError (Bytes × Tcp) :=
  if t.mayRecv then .ok (t.rx.take n, { t with rx := t.rx.drop n })
  else if t.state = .closeWait ∨ t.state = .closing ∨ t.state = .lastAck ∨ t.state = .timeWait then
    .error .finished
  else .error .invalidState

/-- `tcp::Socket::send_slice`. -/
def sendSlice (t : Tcp) (b : Bytes) : Except TcpSendError (ℕ × Tcp) :=
  if t.state = .established ∨ t.state = .closeWait then
    let n := min b.length (t.capacity.2 - t.tx.length)
    .ok (n, { t with tx := t.tx ++ b.take n })
  else .error .invalidState

end Tcp

namespace Udp

/-- `udp::Socket::bind`. -/
def bind (u : Udp) (ep : IpEndpoint) : Except BindError Udp :=
  if ep.port = 0 then .error .unaddressable
  else if u.endpoint.isSome then .error .invalidState
  else .ok { u with endpoint := some ep }

/-- `udp::Socket::recv`. -/
def recv (u : Udp) : Except UdpRecvError (Bytes × IpEndpoint) × Udp :=
  match u.rx with
  | [] => (.error .exhausted, u)
  | d :: ds => (.ok d, { u with rx := ds })

/-- `udp::Socket::send_slice`. -/
def sendSlice (u : Udp) (b : Bytes) (ep : IpEndpoint) : Except UdpSendError Udp :=
  if u.endpoint.isNone ∨ ep.port = 0 then .error .unaddressable
  else if u.tx.length < u.packets ∧ u.tx.foldl (fun n d => n + d.1.length) 0 + b.length ≤ u.bytes then
    .ok { u with tx := u.tx ++ [(b, ep)] }
  else .error .bufferFull

end Udp

/-- Whether a socket has something to send at once. -/
def wantsPoll : Socket Tcp Udp → Bool
  | .tcp t => !t.tx.isEmpty || decide (t.state = .synReceived)
  | .udp u => !u.tx.isEmpty

end Reference

open Reference in
/-- The reference engine. -/
def reference : Smoltcp where
  Iface := Unit
  Tcp := Reference.Tcp
  Udp := Reference.Udp
  ipv4NewChecked := ipv4NewChecked
  ipv4Parse := ipv4Parse
  ipv4Payload := ipv4Payload
  ipv6NewChecked := fun _ => false
  ipv6Parse := fun _ => none
  ipv6Payload := fun _ => []
  tcpNewChecked := tcpNewChecked
  tcpParse := tcpParse
  udpNewChecked := udpNewChecked
  udpParse := udpParse
  segment := segment
  freeIndex := Slab.firstFree
  pollDelay := fun _ _ s => if s.cells.any fun o => o.any wantsPoll then some 0 else none
  since := fun a b => (a - b).natAbs
  durationFrom := fun nanos => nanos / 1000 % 2 ^ 64
  tcpNew := Reference.Tcp.new
  tcpState := Reference.Tcp.state
  tcpIsOpen := Reference.Tcp.isOpen
  tcpListen := Reference.Tcp.listen
  tcpClose := Reference.Tcp.close
  tcpRecvSlice := Reference.Tcp.recvSlice
  tcpSendSlice := Reference.Tcp.sendSlice
  tcpRegisterRecvWaker := fun t _ => t
  tcpRegisterSendWaker := fun t _ => t
  tcpTuple := Reference.Tcp.tuple
  tcpListenEndpoint := Reference.Tcp.listenEndpoint
  tcpCapacity := Reference.Tcp.capacity
  udpNew := fun packets bytes => ⟨none, packets, bytes, [], []⟩
  udpBind := Reference.Udp.bind
  udpRecv := Reference.Udp.recv
  udpSendSlice := Reference.Udp.sendSlice
  udpRx := Reference.Udp.rx
  udpTx := Reference.Udp.tx
  udpCapacity := fun u => (u.bytes, u.bytes)

instance : DecidableEq reference.Tcp := inferInstanceAs (DecidableEq Reference.Tcp)

instance : DecidableEq reference.Udp := inferInstanceAs (DecidableEq Reference.Udp)

/-! ### The laws -/

namespace Reference

theorem Tcp.isOpen_eq_false (t : Tcp) :
    t.isOpen = false ↔ t.state = .closed ∨ t.state = .timeWait := by
  unfold isOpen
  rw [decide_eq_false_iff_not, not_and_or, not_not, not_not]

theorem Tcp.listen_ok {t t' : Tcp} {ep : IpListenEndpoint} (h : t.listen ep = .ok t') :
    t'.state = .listen ∧ t'.tuple = none ∧ t'.capacity = t.capacity := by
  unfold listen at h
  split at h
  · cases h
  split at h
  · cases h
  cases h
  exact ⟨rfl, rfl, rfl⟩

theorem Tcp.closeState_locallyClosed (s : State) : (closeState s).LocallyClosed := by
  cases s <;> trivial

theorem Tcp.recvSlice_ok {t : Tcp} {n : ℕ} {r : Bytes × Tcp} (h : t.recvSlice n = .ok r) :
    r.2.state = t.state ∧ r.2.tuple = t.tuple ∧ r.2.capacity = t.capacity := by
  unfold recvSlice at h
  split at h
  · cases h
    exact ⟨rfl, rfl, rfl⟩
  split at h <;> cases h

theorem Tcp.sendSlice_ok {t : Tcp} {b : Bytes} {r : ℕ × Tcp} (h : t.sendSlice b = .ok r) :
    r.2.state = t.state ∧ r.2.tuple = t.tuple ∧ r.2.capacity = t.capacity := by
  unfold sendSlice at h
  split at h
  · cases h
    exact ⟨rfl, rfl, rfl⟩
  · cases h

theorem Udp.bind_ok {u u' : Udp} {ep : IpEndpoint} (h : u.bind ep = .ok u') :
    u'.tx = u.tx ∧ (u'.bytes, u'.bytes) = (u.bytes, u.bytes) := by
  unfold bind at h
  split at h
  · cases h
  split at h
  · cases h
  cases h
  exact ⟨rfl, rfl⟩

theorem Udp.recv_nil (u : Udp) (h : u.rx = []) : u.recv = (.error .exhausted, u) := by
  simp [recv, h]

theorem Udp.recv_cons {u : Udp} {d : Bytes × IpEndpoint} {ds : List (Bytes × IpEndpoint)}
    (h : u.rx = d :: ds) : u.recv = (.ok d, { u with rx := ds }) := by
  simp [recv, h]

theorem Udp.sendSlice_ok {u u' : Udp} {b : Bytes} {ep : IpEndpoint} (h : u.sendSlice b ep = .ok u') :
    u'.tx = u.tx ++ [(b, ep)] ∧ (u'.bytes, u'.bytes) = (u.bytes, u.bytes) := by
  unfold sendSlice at h
  split at h
  · cases h
  split at h
  · cases h
    exact ⟨rfl, rfl⟩
  · cases h

end Reference

theorem reference_lawful : reference.Lawful where
  freeIndex_free := Slab.free_firstFree
  tcpIsOpen_iff := Reference.Tcp.isOpen_eq_false
  tcpNew_capacity := fun _ _ => rfl
  tcpListen_ok := Reference.Tcp.listen_ok
  tcpClose_ok := fun t => ⟨Reference.Tcp.closeState_locallyClosed t.state, rfl, rfl⟩
  tcpRecvSlice_ok := Reference.Tcp.recvSlice_ok
  tcpSendSlice_ok := Reference.Tcp.sendSlice_ok
  tcpRegisterRecvWaker_ok := fun _ _ => ⟨rfl, rfl, rfl⟩
  tcpRegisterSendWaker_ok := fun _ _ => ⟨rfl, rfl, rfl⟩
  udpNew_ok := fun _ _ => ⟨rfl, rfl⟩
  udpBind_ok := Reference.Udp.bind_ok
  udpRecv_nil := Reference.Udp.recv_nil
  udpRecv_cons := fun u _ ds hu => ⟨{ u with rx := ds }, Reference.Udp.recv_cons hu, rfl, rfl, rfl⟩
  udpSendSlice_ok := Reference.Udp.sendSlice_ok
  since_self := fun t => by simp [reference]

theorem reference_binds : reference.Binds where
  udpParse_port := by
    intro b src dst caps r h
    have h : Reference.udpParse b src dst caps = some r := h
    unfold Reference.udpParse at h
    split at h
    · next hc =>
      cases h
      exact hc.1
    · cases h
  udpBind_new := by
    intro packets bytes ep hport
    refine ⟨⟨some ep, packets, bytes, [], []⟩, ?_⟩
    show Reference.Udp.bind _ ep = _
    unfold Reference.Udp.bind
    rw [if_neg hport]
    rfl

theorem Reference.word_lt (b : Bytes) (i : ℕ) : word b i < 65536 := by
  unfold word
  have hi := (b.getD i 0).toNat_lt
  have hi' := (b.getD (i + 1) 0).toNat_lt
  omega

theorem reference_listens : reference.Listens where
  tcpParse_port := by
    intro b src dst caps r h
    have h : Reference.tcpParse b src dst caps = some r := h
    unfold Reference.tcpParse at h
    split at h
    · next hc =>
      obtain ⟨control, -, rfl⟩ := Option.map_eq_some_iff.mp h
      intro hzero
      have hnat : (UInt16.ofNat (Reference.word b 2)).toNat = 0 := by
        rw [show UInt16.ofNat (Reference.word b 2) = 0 from hzero]
        rfl
      rw [UInt16.toNat_ofNat', Nat.mod_eq_of_lt (Reference.word_lt b 2)] at hnat
      exact hc.2.1 hnat
    · cases h
  tcpNew_closed := fun _ _ => rfl
  tcpListen_closed := by
    intro t ep hport hopen
    have hopen : Reference.Tcp.isOpen t = false := hopen
    show ∃ t', Reference.Tcp.listen t ep = .ok t'
    unfold Reference.Tcp.listen
    rw [if_neg hport, if_neg (by simp [hopen])]
    exact ⟨_, rfl⟩

/-! ### Packets and computed runs -/

namespace Reference

/-- The two bytes of a number. -/
def bytes16 (n : ℕ) : Bytes := [UInt8.ofNat (n / 256), UInt8.ofNat n]

/-- The checksum that makes a string with a zero in its place correct. -/
def checksum (b : Bytes) : Bytes := bytes16 (65535 - onesSum b)

/-- An IPv4 packet with protocol number `proto`. -/
def ipv4Packet (proto : UInt8) (src dst : IpAddress) (payload : Bytes) : Bytes :=
  let head (sum : Bytes) : Bytes := [0x45, 0] ++ bytes16 (20 + payload.length) ++ [0, 0, 0x40, 0, 64, proto] ++
    sum ++ addrBytes src ++ addrBytes dst
  head (checksum (head [0, 0])) ++ payload

/-- A TCP packet without payload, with the given flags; a spoilt one has no checksum. -/
def tcpPacket (src dst : IpEndpoint) (flags : UInt8) (spoil : Bool) : Bytes :=
  let body (sum : Bytes) : Bytes := bytes16 src.port.toNat ++ bytes16 dst.port.toNat ++ [0, 0, 0, 1, 0, 0, 0, 0] ++
    [0x50, flags] ++ [0x10, 0] ++ sum ++ [0, 0]
  let sum := checksum (pseudoHeader src.addr dst.addr 6 20 ++ body [0, 0])
  ipv4Packet 6 src.addr dst.addr (body (if spoil then [0, 0] else sum))

/-- A UDP packet, without a checksum. -/
def udpPacket (src dst : IpEndpoint) (payload : Bytes) : Bytes :=
  ipv4Packet 17 src.addr dst.addr (bytes16 src.port.toNat ++ bytes16 dst.port.toNat ++
    bytes16 (8 + payload.length) ++ [0, 0] ++ payload)

end Reference

namespace World

variable {S : Smoltcp}

instance (w : World S) : ∀ l : Label S, Decidable (w.Enabled l)
  | .ingress _ | .cycle _ _ => inferInstanceAs (Decidable True)
  | .read st _ _ | .write st _ _ | .shutdown st | .dropStream st =>
    inferInstanceAs (Decidable (st ∈ w.streams))
  | .send ses _ | .recv ses | .dropSession ses => inferInstanceAs (Decidable (ses ∈ w.sessions))
  | .rehash m =>
    decidable_of_iff (w.core.manager.tcp.entries.Perm m.tcp.entries ∧
      w.core.manager.udp.entries.Perm m.udp.entries ∧
      w.core.manager.udpDstSockets.entries.Perm m.udpDstSockets.entries)
      ⟨fun h => ⟨h.1, h.2.1, h.2.2⟩, fun h => ⟨h.tcp, h.udp, h.udpDstSockets⟩⟩

variable {μ : Type}

/-- Compute a step that can be taken. -/
def next (w : World S) (l : Label S) : Option (World S) :=
  if w.Enabled l then (w.step l).result.toOption else none

theorem steps_of_next {w : World S} {l : Label S} {w' : World S} (h : next w l = some w') :
    Steps w l w' := by
  unfold next at h
  split at h
  · next hen => exact ⟨hen, Traced.toOption_eq_some.mp h⟩
  · cases h

/-- A world found by computing a run, with what an observer has seen. -/
theorem exists_watched (obs : Observer S μ) (ok : World S × μ → Label S → Prop)
    [∀ s l, Decidable (ok s l)] (b : NetstackBuilder S) (m : μ) (ls : List (Label S))
    (check : World S × μ → Bool)
    (h : (System.compute next obs ok (init b, m) ls).any check = true) :
    ∃ s, Watched obs ok b m s ∧ check s = true :=
  System.exists_of_compute steps_of_next h

/-- A world found by computing a run. -/
theorem exists_of_run (ok : World S → Label S → Prop) [∀ w l, Decidable (ok w l)]
    (b : NetstackBuilder S) (ls : List (Label S)) (check : World S → Bool)
    (h : (System.compute next (fun _ _ _ u => u) (fun s => ok s.1) (init b, ()) ls).any
      (fun s => check s.1) = true) : ∃ w, Reachable ok b w ∧ check w = true :=
  System.exists_of_compute_unwatched steps_of_next h

/-- A world found by computing a run, and the world after one more step. -/
theorem exists_step_of_run (ok : World S → Label S → Prop) [∀ w l, Decidable (ok w l)]
    (b : NetstackBuilder S) (ls : List (Label S)) (l : Label S) (check : World S → Bool)
    (h : (System.compute next (fun _ _ _ u => u) (fun s => ok s.1) (init b, ()) ls).any
      (fun s => decide (ok s.1 l) && (next s.1 l).any check) = true) :
    ∃ w w', Reachable ok b w ∧ ok w l ∧ Steps w l w' ∧ check w' = true := by
  obtain ⟨w, hw, hcheck⟩ := exists_of_run ok b ls (fun w => decide (ok w l) && (next w l).any check) h
  rw [Bool.and_eq_true, decide_eq_true_eq] at hcheck
  obtain ⟨w', hw', hc⟩ := (Option.any_eq_true _ _).mp hcheck.2
  exact ⟨w, w', hw, hcheck.1, steps_of_next hw', hc⟩

end World

/-! ### A trial stack -/

namespace Reference

/-- A client. -/
def client : IpEndpoint := ⟨.v4 0x0a000001, 40000⟩

/-- Another client. -/
def client₂ : IpEndpoint := ⟨.v4 0x0a000003, 40001⟩

/-- Where the clients connect to. -/
def server : IpEndpoint := ⟨.v4 0x0a000002, 80⟩

/-- The interface of the trial stack. -/
def eth : InterfaceId := ⟨1⟩

/-- A stack with one interface. -/
def trial (config : NetstackConfig) : NetstackBuilder reference := ⟨config, [(eth, ())], by decide⟩

/-- Another interface. -/
def wlan : InterfaceId := ⟨2⟩

/-- A stack with two interfaces. -/
def pair : NetstackBuilder reference := ⟨.default, [(wlan, ()), (eth, ())], by decide⟩

/-- The packet of a TCP segment from a client, with the given flags. -/
def fromClient (remote : IpEndpoint) (flags : UInt8) : Label reference :=
  .ingress ⟨eth, tcpPacket remote server flags false⟩

/-- A datagram from a client. -/
def datagram (remote : IpEndpoint) (payload : Bytes) : Label reference :=
  .ingress ⟨eth, udpPacket remote server payload⟩

/-- A TCP socket listening for the server's clients. -/
def listening (size : ℕ) : reference.Tcp :=
  (⟨.listen, none, ⟨some server.addr, server.port⟩, (size, size), [], []⟩ : Tcp)

/-- A TCP socket connected to a client. -/
def connected (size : ℕ) (remote : IpEndpoint) (state : State) : reference.Tcp :=
  (⟨state, some (server, remote), ⟨some server.addr, server.port⟩, (size, size), [], []⟩ : Tcp)

/-- The flags of a SYN. -/
def syn : UInt8 := 2

/-- The flags of an ACK. -/
def ack : UInt8 := 16

/-- The flags of a FIN. -/
def fin : UInt8 := 1

/-- The flags of a RST. -/
def rst : UInt8 := 4

/-- A cycle of the trial stack at time `now`. -/
def cycle (now : Instant) (events : List (PollEvent reference)) : Label reference :=
  .cycle now fun _ => events

/-- Socket `h` takes a segment and becomes `t`. -/
def takes (h : SocketHandle) (t : reference.Tcp) : PollEvent reference := .receive (some (h, .tcp t))

/-- A shared socket of the default configuration with the given buffers. -/
def udpSocket (rx tx : List (Bytes × IpEndpoint)) : reference.Udp :=
  (⟨some server, 16, 16384, rx, tx⟩ : Udp)

/-- The shared socket `h` takes a datagram and has `rx` in its receive buffer. -/
def hears (h : SocketHandle) (rx : List (Bytes × IpEndpoint)) : PollEvent reference :=
  .receive (some (h, .udp (udpSocket rx [])))

/-- A client connects and another sends a datagram: a stream and a session. -/
def openBoth : List (Label reference) :=
  [fromClient client syn, datagram client₂ [1, 2, 3],
    cycle 0 [takes 0 (connected 16384 client .synReceived), hears 1 [([1, 2, 3], client₂)]],
    fromClient client ack, cycle 1 [takes 0 (connected 16384 client .established)]]

/-- Two clients connect, and both their streams are dropped. -/
def dropTwo : List (Label reference) :=
  [fromClient client syn, fromClient client₂ syn,
    cycle 0 [takes 0 (connected 16384 client .synReceived), takes 1 (connected 16384 client₂ .synReceived)],
    fromClient client ack, fromClient client₂ ack,
    cycle 1 [takes 0 (connected 16384 client .established), takes 1 (connected 16384 client₂ .established)],
    .dropStream (streamOf ⟨eth, .tcp, client, server⟩ 0),
    .dropStream (streamOf ⟨eth, .tcp, client₂, server⟩ 1)]

/-- A TCP socket whose connection was reset with `rx` still to be read. -/
def resetWith (rx : Bytes) : reference.Tcp :=
  (⟨.closed, none, ⟨some server.addr, server.port⟩, (16384, 16384), rx, []⟩ : Tcp)

/-- Both connections are reset, the first with a byte to be read. -/
def resetTwo : List (PollEvent reference) := [takes 0 (resetWith [1]), takes 1 (resetWith [])]

end Reference

end WayNetstack

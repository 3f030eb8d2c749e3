import WayNetstack.Udp.Sockets
import WayNetstack.Reference

/-!
# Which socket takes a datagram

The engine gives a UDP datagram to the first socket, in the order of the handles, that is
bound to its destination port and to its destination address; if the datagram is for a
broadcast or multicast address, the address a socket is bound to does not count. `Demux` is
what is needed of the engine to say so, and `InterfaceSlot.Demuxes` says it of the events of
a poll.

`taken` are the datagrams that a socket takes in a poll, and they are what its receive
buffer has got (`taken_poll`). The shared sockets of a core are `Tidy` between cycles: each
is bound to the destination it is listed under, and its receive buffer is empty
(`World.Does.tidy`).
-/

namespace WayNetstack

open Lib Lib.Table Lib.Traced SessionManager Relation

variable {S : Smoltcp}

/-! ### Datagrams -/

/-- A UDP datagram as the engine sees it once it has accepted the packet. -/
structure Datagram where
  src : IpEndpoint
  dst : IpEndpoint
  payload : Bytes
  deriving DecidableEq

/-- What the engine goes by when it gives datagrams to sockets. -/
structure Demux (S : Smoltcp) where
  /-- The datagram that the engine's ingress makes of a packet by itself; `none` when it discards
  the packet, the packet is not UDP, or it is a fragment. A datagram put together from fragments is
  that of no packet, so that laws stated by it leave out polls in which a fragment completes one. -/
  datagram : Bytes → Option Datagram
  /-- `udp::Socket::endpoint`. -/
  endpoint : S.Udp → Option IpEndpoint
  /-- The address is a broadcast address of the interface or a multicast address. -/
  isGroup : S.Iface → IpAddress → Bool

namespace Demux

variable (D : Demux S)

/-- `udp::Socket::accepts`. -/
def accepts (iface : S.Iface) (u : S.Udp) (d : Datagram) : Bool :=
  (D.endpoint u).any fun ep => decide (ep.port = d.dst.port) &&
    (decide (ep.addr = d.dst.addr) || D.isGroup iface d.dst.addr)

/-- The documented effects of the calls on endpoints and receive buffers. -/
structure Lawful : Prop where
  /-- A fresh socket has received nothing. -/
  udpNew_ok : ∀ packets bytes, S.udpRx (S.udpNew packets bytes) = []
  /-- `bind` binds. -/
  udpBind_ok : ∀ {u ep u'}, S.udpBind u ep = .ok u' →
    D.endpoint u' = some ep ∧ S.udpRx u' = S.udpRx u
  /-- `recv` leaves the socket bound as it is. -/
  udpRecv_ok : ∀ u, D.endpoint (S.udpRecv u).2 = D.endpoint u
  /-- `send_slice` leaves the endpoint and the receive buffer alone. -/
  udpSendSlice_ok : ∀ {u b ep u'}, S.udpSendSlice u b ep = .ok u' →
    D.endpoint u' = D.endpoint u ∧ S.udpRx u' = S.udpRx u

end Demux

/-! ### The poll -/

namespace InterfaceSlot

variable {slot : InterfaceSlot S} {e : PollEvent S} {h : SocketHandle} {u : S.Udp}

variable (D : Demux S)

/-- The datagram an event takes from the device. -/
def arriving (slot : InterfaceSlot S) : PollEvent S → Option Datagram
  | .receive _ => slot.device.ingress.head?.bind D.datagram
  | _ => none

/-- The first UDP socket, in the order of the handles, that accepts a datagram. -/
def udpAcceptor (slot : InterfaceSlot S) (d : Datagram) : Option SocketHandle :=
  (List.range slot.sockets.cells.length).find? fun h => (slot.udpAt h).any (D.accepts slot.iface · d)

/-- Sockets stay bound as they are, and a receive buffer changes in one way only: the socket
is the first that accepts the datagram arriving, which is put behind the others with its
source. -/
def Demuxes (slot : InterfaceSlot S) (e : PollEvent S) : Prop :=
  ∀ x ∈ e.touches, ∀ u ∈ slot.udpAt x.1, ∀ u' ∈ x.2.udp?,
    D.endpoint u' = D.endpoint u ∧
    (S.udpRx u' = S.udpRx u ∨ ∃ d ∈ slot.arriving D e, slot.udpAcceptor D d = some x.1 ∧
      S.udpRx u' = S.udpRx u ++ [(d.payload, d.src)])

instance (slot : InterfaceSlot S) (e : PollEvent S) : Decidable (slot.Demuxes D e) :=
  inferInstanceAs (Decidable (∀ x ∈ e.touches, _))

/-- The datagram that socket `h` takes in an event. -/
def gains (h : SocketHandle) (slot : InterfaceSlot S) (e : PollEvent S) : List Datagram :=
  match slot.udpAt h, e.udpFor h with
  | some u, some u' => if S.udpRx u' = S.udpRx u then [] else (slot.arriving D e).toList
  | _, _ => []

/-- The datagrams that socket `h` takes in a poll, in order. -/
def taken (h : SocketHandle) : InterfaceSlot S → List (PollEvent S) → List Datagram
  | _, [] => []
  | slot, e :: es => slot.gains D h e ++ taken h (slot.apply e) es

variable {D}

/-- What a socket takes in an event was arriving and found it to be the first acceptor. -/
theorem Demuxes.gains (hlaw : slot.Demuxes D e) (hu : slot.udpAt h = some u) :
    ∃ u', (slot.apply e).udpAt h = some u' ∧ D.endpoint u' = D.endpoint u ∧
      S.udpRx u' = S.udpRx u ++ (slot.gains D h e).map (fun d => (d.payload, d.src)) ∧
      ∀ d ∈ slot.gains D h e, slot.arriving D e = some d ∧ slot.udpAcceptor D d = some h := by
  refine ⟨_, udpAt_apply hu e, ?_⟩
  unfold InterfaceSlot.gains
  rw [hu]
  cases hfor : e.udpFor h with
  | none => simp
  | some u' =>
    obtain ⟨hend, hrx⟩ := hlaw _ (PollEvent.udpFor_eq_some.mp hfor) u hu u' rfl
    refine ⟨hend, ?_⟩
    rcases hrx with hsame | ⟨d, hd, hacc, hnew⟩
    · simp [hsame]
    · have harr : slot.arriving D e = some d := hd
      simp [hnew, harr, hacc]

/-- **The receive buffer gets the datagrams that the socket takes.** -/
theorem taken_poll {es : List (PollEvent S)} (hlaw : slot.Obeys (Demuxes D) es)
    (hu : slot.udpAt h = some u) : ∃ u', (slot.poll es).udpAt h = some u' ∧
      D.endpoint u' = D.endpoint u ∧
      S.udpRx u' = S.udpRx u ++ (slot.taken D h es).map fun d => (d.payload, d.src) := by
  induction es generalizing slot u with
  | nil => exact ⟨u, hu, rfl, (List.append_nil _).symm⟩
  | cons e es ih =>
    obtain ⟨u₁, hu₁, hend₁, hrx₁, -⟩ := hlaw.1.gains hu
    obtain ⟨u', hu', hend, hrx⟩ := ih hlaw.2 hu₁
    refine ⟨u', hu', hend.trans hend₁, ?_⟩
    rw [hrx, hrx₁, taken, List.map_append, List.append_assoc]

end InterfaceSlot

/-! ### Tidy sockets -/

namespace Core

variable (D : Demux S)

/-- Every shared socket is bound to the destination it is listed under, and has nothing in
its receive buffer. -/
def Tidy (c : Core S) : Prop :=
  ∀ i ep h n u, c.manager.udpDstSockets.lookup (i, ep) = some (h, n) → c.socketAt i h = some (.udp u) →
    D.endpoint u = some ep ∧ S.udpRx u = []

variable {D} {c : Core S}

theorem Tidy.shares (ht : c.Tidy D) {d : InterfaceId × IpEndpoint} {h : SocketHandle} {u : S.Udp}
    (hu : c.Shares d h u) : D.endpoint u = some d.2 ∧ S.udpRx u = [] := by
  obtain ⟨n, hn, hat⟩ := hu
  exact ht d.1 d.2 h n u hn hat

end Core

section Steps

variable {D : Demux S} {c : Core S} {streams : List WayTcpStream} {sessions : List WayUdpSession}

/-- A new socket is bound to its destination and has received nothing. -/
theorem Demux.Lawful.fresh (hD : D.Lawful) {config : NetstackConfig} {dst : IpEndpoint} {u : S.Udp}
    (hu : S.FreshUdp config dst u) : D.endpoint u = some dst ∧ S.udpRx u = [] := by
  obtain ⟨hend, hrx⟩ := hD.udpBind_ok hu
  exact ⟨hend, hrx.trans (hD.udpNew_ok _ _)⟩

/-- The pre-pass leaves the sockets tidy. -/
theorem Admits.tidy (hS : S.Lawful) (hD : D.Lawful) {now : Instant} {queued : InterfaceId → Bytes → Prop}
    {st : Core S × List Session} (h : ReflTransGen (Admit now queued) (c, []) st)
    (hr : c.Registered streams sessions) (ht : c.Tidy D) : st.1.Tidy D := by
  intro i ep hd n u hn hu
  rcases Admits.shares hS h hr ⟨n, hn, hu⟩ with hold | ⟨-, hfresh⟩
  · exact ht.shares hold
  · exact hD.fresh hfresh

/-- A shared socket after the polls has got what it has taken. -/
theorem Core.Tidy.poll {polls : InterfaceId → List (PollEvent S)} (ht : c.Tidy D)
    (hr : c.Registered streams sessions)
    (hlaw : World.PollsObey (fun _ => InterfaceSlot.Demuxes D) polls c)
    {i : InterfaceId} {ep : IpEndpoint} {h : SocketHandle} {n : ℕ}
    (hn : c.manager.udpDstSockets.lookup (i, ep) = some (h, n)) :
    ∃ slot u', c.slot i = some slot ∧ (c.pollSlots polls).socketAt i h = some (.udp u') ∧
      D.endpoint u' = some ep ∧
      S.udpRx u' = (slot.taken D h (polls i)).map fun d => (d.payload, d.src) := by
  obtain ⟨slot, u, hs, hget⟩ := Core.exists_udp (hr.udp.named hn)
  obtain ⟨hend, hrx⟩ := ht i ep h n u hn (by rw [Core.socketAt, hs]; exact hget)
  have hobeys : slot.Obeys (InterfaceSlot.Demuxes D) (polls i) :=
    Core.id_of_slot hs ▸ hlaw slot (Core.mem_of_slot hs)
  obtain ⟨u', hu', hend', hrx'⟩ := InterfaceSlot.taken_poll hobeys (InterfaceSlot.udpAt_eq_some.mpr hget)
  refine ⟨slot, u', hs, ?_, hend'.trans hend, by rw [hrx', hrx, List.nil_append]⟩
  rw [Core.socketAt_pollSlots hs]
  exact InterfaceSlot.udpAt_eq_some.mp hu'

/-- **The shared sockets stay tidy** in every step in which the engine is lawful. -/
theorem World.Does.tidy (hS : S.Lawful) (hD : D.Lawful) {w w' : World S} {l : Label S} (h : w.Does l w')
    (hw : w.Registered) (hlaw : w.Polls (fun _ => InterfaceSlot.Demuxes D) l) (ht : w.core.Tidy D) :
    w'.core.Tidy D := by
  intro i ep hd n u hn hu
  cases h.sharedFate hS hw ⟨n, hn, hu⟩ with
  | kept spares hu => exact ht.shares hu
  | sent hd hi hh hsent hu hsend =>
    obtain ⟨hend, hrx⟩ := hD.udpSendSlice_ok hsend
    rw [hend, hrx]
    exact ht.shares hu
  | @polled now polls st n slot u₀ v hpre hn hs hu₀ hold hv =>
    have hid : slot.id = i := Core.id_of_slot hs
    have hobeys : slot.Obeys (InterfaceSlot.Demuxes D) (polls i) :=
      hid ▸ (World.atPoll_prePass hpre).mp hlaw slot (Core.mem_of_slot hs)
    obtain ⟨v', hv', hend, -⟩ := InterfaceSlot.taken_poll hobeys hu₀
    cases hv.symm.trans hv'
    have hend₀ : D.endpoint u₀ = some ep := hold.elim (fun hu => (ht.shares hu).1) fun hf => (hD.fresh hf.2).1
    exact ⟨(drained_keeps hD.udpRecv_ok v).trans (hend.trans hend₀), (drainUdp_drained hS v).2.1⟩

end Steps

/-! ### The reference engine -/

namespace Reference

/-- What the engine's ingress makes of a packet by itself. -/
def datagramOf (b : Bytes) : Option Datagram :=
  if ipv4NewChecked b ∧ isFragment b = false then
    (ipv4Parse b .default).bind fun ip =>
      if ip.nextHeader = .udp ∧ udpNewChecked (ipv4Payload b) = true then
        (udpParse (ipv4Payload b) ip.srcAddr ip.dstAddr .default).map fun repr =>
          ⟨⟨ip.srcAddr, repr.srcPort⟩, ⟨ip.dstAddr, repr.dstPort⟩,
            ((ipv4Payload b).take (word (ipv4Payload b) 4)).drop 8⟩
      else none
  else none

/-- The limited broadcast address and the multicast addresses. -/
def isGroup : IpAddress → Bool
  | .v4 a => decide (a = 0xffffffff ∨ a >>> 28 = 14)
  | .v6 a => decide (a >>> 120 = 255)

/-- How the reference engine gives datagrams to sockets. -/
def demux : Demux reference := ⟨datagramOf, Udp.endpoint, fun _ => isGroup⟩

end Reference

open Reference in
theorem demux_lawful : demux.Lawful where
  udpNew_ok := fun _ _ => rfl
  udpBind_ok := fun {u ep u'} h => by
    simp only [reference, Udp.bind] at h
    split at h
    · cases h
    split at h <;> cases h
    exact ⟨rfl, rfl⟩
  udpRecv_ok := fun u => by
    show (Udp.recv u).2.endpoint = u.endpoint
    unfold Udp.recv
    split <;> rfl
  udpSendSlice_ok := fun {u b ep u'} h => by
    simp only [reference, Udp.sendSlice] at h
    split at h
    · cases h
    split at h <;> cases h
    exact ⟨rfl, rfl⟩

end WayNetstack

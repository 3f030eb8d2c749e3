import WayNetstack.Udp.Sockets

/-!
# The buffers of shared sockets

`alloc_udp` gives a shared socket rings for a number of datagrams and of bytes. What `send_slice`
makes of a datagram depends on these (`DatagramRings`), which every step keeps
(`DatagramRings.AllFurnished.step`). A transmit buffer that the polls empty stays empty until a
datagram is sent through the socket (`World.Does.txEmpty`).
-/

namespace WayNetstack

open Lib Lib.Traced Relation

variable {S : Smoltcp}

/-! ### The rings -/

/-- What is seen of the rings of UDP sockets: how many datagrams they hold each way. -/
structure DatagramRings (S : Smoltcp) where
  packets : S.Udp → ℕ

namespace DatagramRings

variable (D : DatagramRings S)

/-- What `send_slice` makes of a datagram, and that the rings stay what they are. -/
structure Lawful : Prop where
  udpNew_ok : ∀ packets bytes, D.packets (S.udpNew packets bytes) = packets
  udpBind_ok : ∀ {u ep u'}, S.udpBind u ep = .ok u' → D.packets u' = D.packets u
  udpRecv_ok : ∀ u, D.packets (S.udpRecv u).2 = D.packets u
  udpSendSlice_ok : ∀ {u b ep u'}, S.udpSendSlice u b ep = .ok u' → D.packets u' = D.packets u
  /-- An empty transmit buffer has room for every datagram that it can hold. -/
  udpSendSlice_empty : ∀ u b ep, S.udpTx u = [] → 0 < D.packets u → b.length ≤ (S.udpCapacity u).2 →
    S.udpSendSlice u b ep ≠ .error .bufferFull
  /-- There is never room for one that is larger. -/
  udpSendSlice_large : ∀ u b ep, (S.udpCapacity u).2 < b.length →
    S.udpSendSlice u b ep = .error .bufferFull ∨ S.udpSendSlice u b ep = .error .unaddressable
  /-- Whether the datagram can be addressed does not depend on what it holds. -/
  udpSendSlice_unaddressable : ∀ {u b ep} b', S.udpSendSlice u b ep = .error .unaddressable →
    S.udpSendSlice u b' ep = .error .unaddressable

/-- UDP sockets keep their rings in an event. -/
def KeepsRings (slot : InterfaceSlot S) (e : PollEvent S) : Prop :=
  ∀ x ∈ e.touches, ∀ u ∈ slot.udpAt x.1, ∀ u' ∈ x.2.udp?,
    D.packets u' = D.packets u ∧ S.udpCapacity u' = S.udpCapacity u

instance (slot : InterfaceSlot S) (e : PollEvent S) : Decidable (D.KeepsRings slot e) :=
  inferInstanceAs (Decidable (∀ x ∈ e.touches, _))

/-- The rings are those that `alloc_udp` asks for. -/
def Furnished (config : NetstackConfig) (u : S.Udp) : Prop :=
  D.packets u = max config.udpBufferPackets 1 ∧ (S.udpCapacity u).2 = config.udpBuffer

/-- Every UDP socket has the rings that `alloc_udp` asks for. -/
def AllFurnished (c : Core S) : Prop :=
  ∀ i h u, c.socketAt i h = some (.udp u) → D.Furnished c.config u

variable {D} {config : NetstackConfig} {u u' : S.Udp}

theorem Furnished.congr (h : D.Furnished config u) (hp : D.packets u' = D.packets u)
    (hc : S.udpCapacity u' = S.udpCapacity u) : D.Furnished config u' :=
  ⟨hp.trans h.1, hc ▸ h.2⟩

theorem furnished_of_fresh (hS : S.Lawful) (hD : D.Lawful) {dst : IpEndpoint} (h : S.FreshUdp config dst u) :
    D.Furnished config u := by
  obtain ⟨-, hcap⟩ := hS.udpBind_ok h
  refine ⟨(hD.udpBind_ok h).trans (hD.udpNew_ok _ _), ?_⟩
  rw [hcap, (hS.udpNew_ok _ _).2]

/-- A poll keeps the rings. -/
theorem Furnished.poll {slot : InterfaceSlot S} {es : List (PollEvent S)} {h : SocketHandle} {v : S.Udp}
    (hlaw : slot.Obeys D.KeepsRings es) (hu : slot.udpAt h = some u) (hv : (slot.poll es).udpAt h = some v)
    (hf : D.Furnished config u) : D.Furnished config v := by
  induction es generalizing slot u with
  | nil =>
    cases hu.symm.trans hv
    exact hf
  | cons e es ih =>
    refine ih hlaw.2 (InterfaceSlot.udpAt_apply hu e) hv ?_
    cases hfor : e.udpFor h with
    | none => exact hf
    | some u' =>
      obtain ⟨hp, hc⟩ := hlaw.1 _ (PollEvent.udpFor_eq_some.mp hfor) u hu u' rfl
      exact hf.congr hp hc

/-- **The sockets keep the rings they were made with.** -/
theorem AllFurnished.step (hS : S.Lawful) (hD : D.Lawful) {w w' : World S} {l : Label S} (hdoes : w.Does l w')
    (hw : w.Registered) (hw' : w'.Registered) (hlaw : w.Polls (fun _ => D.KeepsRings) l)
    (hf : D.AllFurnished w.core) : D.AllFurnished w'.core := by
  intro i h u hu
  rw [hdoes.config]
  obtain ⟨ep, hshared⟩ := Core.Registered.shares hw' hu
  have hold : ∀ {u}, w.core.Shares (i, ep) h u → D.Furnished w.core.config u :=
    fun ⟨_, _, hat⟩ => hf i h _ hat
  cases hdoes.sharedFate hS hw hshared with
  | kept spares hu => exact hold hu
  | sent hd hi hh hsent hu hsend => exact (hold hu).congr (hD.udpSendSlice_ok hsend) (hS.udpSendSlice_ok hsend).2
  | @polled now polls st n slot u₀ v hpre hn hs hu₀ hfrom hv =>
    have hid : slot.id = i := Core.id_of_slot hs
    have hobeys : slot.Obeys D.KeepsRings (polls i) :=
      hid ▸ (World.atPoll_prePass hpre).mp hlaw slot (Core.mem_of_slot hs)
    have hu' : D.Furnished w.core.config u₀ := hfrom.elim hold fun hfresh => furnished_of_fresh hS hD hfresh.2
    obtain ⟨-, -, -, hcap⟩ := drainUdp_drained hS v
    exact (hu'.poll hobeys hu₀ hv).congr (drained_keeps hD.udpRecv_ok v) hcap

theorem init_allFurnished (b : NetstackBuilder S) : D.AllFurnished (World.init b).core := by
  intro i h u hu
  obtain ⟨slot, hs, hget⟩ := Option.bind_eq_some_iff.mp hu
  obtain ⟨x, -, rfl⟩ := List.mem_map.mp (Core.mem_of_slot hs)
  cases hget

end DatagramRings

/-! ### The transmit buffer of a socket -/

section TxEmpty

variable {c : Core S} {i : InterfaceId} {h : SocketHandle}

theorem Core.txEmpty_iff : c.TxEmpty i h ↔ ∀ u, c.socketAt i h = some (.udp u) → S.udpTx u = [] := by
  constructor
  · exact fun ht u hu => ht _ hu u rfl
  · intro ht s hs u hu
    cases s with
    | tcp t => cases hu
    | udp u' =>
      cases hu
      exact ht u hs

/-- **A transmit buffer that is empty stays so**, unless a datagram is sent through the socket, if
the polls empty it; and a cycle leaves it empty. -/
theorem World.Does.txEmpty (hS : S.Lawful) {w w' : World S} {l : Label S} (hdoes : w.Does l w')
    (hw : w.Registered) (hw' : w'.Registered)
    (hsend : ∀ ses payload, l = .send ses payload → ¬(ses.interface = i ∧ ses.socket = h))
    (hpoll : w.AtPoll (fun polls c => (c.pollSlots polls).TxEmpty i h) l)
    (ht : w.core.TxEmpty i h ∨ ∃ now polls, l = .cycle now polls) : w'.core.TxEmpty i h := by
  refine Core.txEmpty_iff.mpr fun u hu => ?_
  obtain ⟨ep, hshared⟩ := Core.Registered.shares hw' hu
  cases hdoes.sharedFate hS hw hshared with
  | kept spares hu =>
    obtain ⟨-, -, hat⟩ := hu
    rcases ht with ht | ⟨now, polls, rfl⟩
    · exact Core.txEmpty_iff.mp ht u hat
    · exact spares.elim
  | sent hd hi hh => exact absurd ⟨hi, hh⟩ (hsend _ _ rfl)
  | @polled now polls st n slot u₀ v hpre hn hs hu₀ hold hv =>
    obtain ⟨-, -, htx, -⟩ := drainUdp_drained hS v
    rw [htx]
    refine Core.txEmpty_iff.mp ((World.atPoll_prePass hpre).mp hpoll) v ?_
    rw [Core.socketAt_pollSlots hs]
    exact InterfaceSlot.udpAt_eq_some.mp hv

theorem InterfaceSlot.get?_of_getUdp {slot : InterfaceSlot S} {u : S.Udp} (hu : (slot.getUdp h).result = .ok u) :
    slot.sockets.get? h = some (.udp u) := by
  simp only [InterfaceSlot.getUdp, call] at hu
  split at hu
  · next hget =>
    cases hu
    exact hget
  · cases hu
  · cases hu

end TxEmpty

end WayNetstack

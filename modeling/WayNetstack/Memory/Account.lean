import Mathlib.Algebra.GroupWithZero.Nat
import WayNetstack.Registry.Runs

/-!
# The buffers really held

What the stack counts against `max_buffer_bytes` is `buffer_bytes`; what it holds are
the receive and transmit buffers of the sockets in its socket sets and of those parked
in its pools, `Core.held`.

Along every run the bytes held are those of the TCP entries, of the parked sockets and
of the shared UDP sockets (`Core.Accounted`). Most changes of the core take no memory
(`Core.Eases`); those that do are the two ways a socket is opened.
-/

namespace WayNetstack

open Lib Lib.Table SessionManager Relation

variable {S : Smoltcp}

/-- The bytes of both buffers of a socket. -/
def Smoltcp.bytes (S : Smoltcp) (s : S.Socket) : ℕ := (S.capacity s).1 + (S.capacity s).2

/-- The bytes of the sockets of a slot and of those parked in its pool. -/
def InterfaceSlot.held (slot : InterfaceSlot S) : ℕ :=
  slot.sockets.total S.bytes + (slot.tcpPool.map fun t => S.bytes (.tcp t)).sum

/-- The bytes a socket of each protocol holds. -/
def NetstackConfig.bytesOf (config : NetstackConfig) : Proto → ℕ
  | .tcp => config.tcpCharge
  | .udp => 2 * config.udpRegion

/-- The sockets of a slot, parked or not, have the sizes of the configuration. -/
structure InterfaceSlot.Sized (config : NetstackConfig) (slot : InterfaceSlot S) : Prop where
  sockets : ∀ {h s}, slot.sockets.get? h = some s → S.bytes s = config.bytesOf s.proto
  pool : ∀ t ∈ slot.tcpPool, S.bytes (.tcp t) = config.tcpCharge

namespace Core

/-- The payload bytes of all buffers the stack keeps allocated. -/
def held (c : Core S) : ℕ := c.sumSlots InterfaceSlot.held

/-- The sockets parked in the pools. -/
def parked (c : Core S) : ℕ := c.sumSlots fun slot => slot.tcpPool.length

/-- The bytes held are those of the entries, the parked sockets and the shared sockets. -/
structure Accounted (c : Core S) : Prop where
  sized : ∀ slot ∈ c.slots, slot.Sized c.config
  held : c.held = c.config.tcpCharge * (len c.manager.tcp + c.parked) +
    2 * c.config.udpRegion * len c.manager.udpDstSockets

/-! ### Writing a slot -/

variable {c c' : Core S} {slot : InterfaceSlot S}

theorem held_setSlot (hs : c.slot slot.id = some slot) (slot' : InterfaceSlot S)
    (hid : slot'.id = slot.id) (hc : c'.slots = (c.setSlot slot').slots) :
    c'.held + slot.held = c.held + slot'.held :=
  sumSlots_setSlot InterfaceSlot.held hs slot' hid hc

theorem parked_setSlot (hs : c.slot slot.id = some slot) (slot' : InterfaceSlot S)
    (hid : slot'.id = slot.id) (hc : c'.slots = (c.setSlot slot').slots) :
    c'.parked + slot.tcpPool.length = c.parked + slot'.tcpPool.length :=
  sumSlots_setSlot (fun s : InterfaceSlot S => s.tcpPool.length) hs slot' hid hc

/-- A slot is written back and the tables change with it. -/
theorem Accounted.write (ha : c.Accounted) (hs : c.slot slot.id = some slot)
    (slot' : InterfaceSlot S) (hid : slot'.id = slot.id) (hc : c'.slots = (c.setSlot slot').slots)
    (hconf : c'.config = c.config) (hsized : slot'.Sized c.config)
    (hbal : slot'.held + (c.config.tcpCharge * (len c.manager.tcp + slot.tcpPool.length) +
        2 * c.config.udpRegion * len c.manager.udpDstSockets) =
      slot.held + (c.config.tcpCharge * (len c'.manager.tcp + slot'.tcpPool.length) +
        2 * c.config.udpRegion * len c'.manager.udpDstSockets)) : c'.Accounted := by
  constructor
  · intro s hmem
    rw [hc] at hmem
    rw [hconf]
    rcases mem_setSlot hmem with hold | rfl
    · exact ha.sized s hold
    · exact hsized
  · have hheld := held_setSlot hs slot' hid hc
    have hpark := congrArg (c.config.tcpCharge * ·) (parked_setSlot hs slot' hid hc)
    have hold := ha.held
    rw [hconf]
    simp only [Nat.mul_add] at hpark hbal hold ⊢
    omega

/-- A change that takes no memory: the account is kept and no more is held. -/
structure Eases (c c' : Core S) : Prop where
  accounted : c.Accounted → c'.Accounted
  held : c'.held ≤ c.held
  shared : len c'.manager.udpDstSockets ≤ len c.manager.udpDstSockets
  config : c'.config = c.config

namespace Eases

theorem refl (c : Core S) : Eases c c := ⟨id, le_rfl, le_rfl, rfl⟩

theorem trans {c'' : Core S} (h : Eases c c') (h' : Eases c' c'') : Eases c c'' :=
  ⟨h'.accounted ∘ h.accounted, h'.held.trans h.held, h'.shared.trans h.shared,
    h'.config.trans h.config⟩

/-- The slots stay as they are, and so do the sizes of the tables. -/
theorem of_eq (hslots : c'.slots = c.slots) (hconf : c'.config = c.config)
    (ht : len c'.manager.tcp = len c.manager.tcp)
    (hd : len c'.manager.udpDstSockets = len c.manager.udpDstSockets) : Eases c c' := by
  have hheld : c'.held = c.held := sumSlots_congr _ hslots
  have hpark : c'.parked = c.parked := sumSlots_congr _ hslots
  refine ⟨fun ha => ⟨fun s hs => ?_, ?_⟩, hheld.le, hd.le, hconf⟩
  · rw [hconf]
    exact ha.sized s (hslots ▸ hs)
  · rw [hheld, hpark, ht, hd, hconf]
    exact ha.held

/-- A slot is written back with the same sockets and the same pool. -/
theorem device (hs : c.slot slot.id = some slot) (slot' : InterfaceSlot S) (hid : slot'.id = slot.id)
    (hsock : slot'.sockets = slot.sockets) (hpool : slot'.tcpPool = slot.tcpPool)
    (hc : c' = c.setSlot slot') : Eases c c' := by
  have hslot : slot'.held = slot.held := by simp only [InterfaceSlot.held, hsock, hpool]
  subst hc
  have hheld := held_setSlot hs slot' hid rfl
  refine ⟨fun ha => ha.write hs slot' hid rfl rfl ?_ (by rw [hslot, hpool]; rfl), by omega, le_rfl, rfl⟩
  have hsized := ha.sized slot (mem_of_slot hs)
  exact ⟨fun hg => hsized.sockets (hsock ▸ hg), hpool ▸ hsized.pool⟩

/-- A socket is replaced by another with the same buffers. -/
theorem put (hs : c.slot slot.id = some slot) {h : SocketHandle} {s : S.Socket}
    (hget : slot.sockets.get? h = some s) (s' : S.Socket) (hp : s'.proto = s.proto)
    (hb : S.bytes s' = S.bytes s) (hc : c'.slots = (c.setSlot (slot.putSocket h s')).slots)
    (hconf : c'.config = c.config) (ht : len c'.manager.tcp = len c.manager.tcp)
    (hd : len c'.manager.udpDstSockets = len c.manager.udpDstSockets) : Eases c c' := by
  have htotal := Slab.total_put S.bytes hget s'
  have hslot : (slot.putSocket h s').held = slot.held := by
    simp only [InterfaceSlot.held, InterfaceSlot.putSocket]
    omega
  have hheld := held_setSlot hs (slot.putSocket h s') rfl hc
  refine ⟨fun ha => ha.write hs (slot.putSocket h s') rfl hc hconf ?_ (by rw [hslot, ht, hd]; rfl),
    by omega, hd.le, hconf⟩
  have hsized := ha.sized slot (mem_of_slot hs)
  refine ⟨fun {h' s₁} hg => ?_, hsized.pool⟩
  have hput : (slot.putSocket h s').sockets.get? h' = if h' = h then some s' else slot.sockets.get? h' :=
    Slab.get?_put hget s' h'
  rw [hput] at hg
  split at hg
  · cases hg
    rw [hb, hp]
    exact hsized.sockets hget
  · exact hsized.sockets hg

/-- Every slot is changed without its memory. -/
theorem map {f : InterfaceSlot S → InterfaceSlot S} (hc : c'.slots = c.slots.map f)
    (hconf : c'.config = c.config) (hm : c'.manager = c.manager)
    (hf : ∀ slot ∈ c.slots, (f slot).held = slot.held ∧ (f slot).tcpPool = slot.tcpPool ∧
      (slot.Sized c.config → (f slot).Sized c.config)) : Eases c c' := by
  have hheld : c'.held = c.held := by
    simp only [Core.held, sumSlots, hc, List.map_map]
    exact congrArg List.sum (List.map_congr_left fun slot hslot => (hf slot hslot).1)
  have hpark : c'.parked = c.parked := by
    simp only [Core.parked, sumSlots, hc, List.map_map]
    exact congrArg List.sum (List.map_congr_left fun slot hslot =>
      congrArg List.length (hf slot hslot).2.1)
  refine ⟨fun ha => ⟨fun s hs => ?_, ?_⟩, hheld.le, by rw [hm], hconf⟩
  · rw [hc] at hs
    obtain ⟨slot, hslot, rfl⟩ := List.mem_map.mp hs
    rw [hconf]
    exact (hf slot hslot).2.2 (ha.sized slot hslot)
  · rw [hheld, hpark, hm, hconf]
    exact ha.held

/-- A socket is taken out of its cell, and perhaps into the pool. -/
theorem remove (hs : c.slot slot.id = some slot) {h : SocketHandle} {s : S.Socket}
    (hget : slot.sockets.get? h = some s) (pool : List S.Tcp)
    (hpool : pool = slot.tcpPool ∨ ∃ t, s = .tcp t ∧ pool = slot.tcpPool ++ [t])
    (hc : c'.slots = (c.setSlot ((slot.withoutSocket h).withPool pool)).slots)
    (hconf : c'.config = c.config)
    (hd : len c'.manager.udpDstSockets ≤ len c.manager.udpDstSockets)
    (hbal : c.config.tcpCharge * len c.manager.tcp +
        2 * c.config.udpRegion * len c.manager.udpDstSockets =
      c.config.bytesOf s.proto + (c.config.tcpCharge * len c'.manager.tcp +
        2 * c.config.udpRegion * len c'.manager.udpDstSockets)) : Eases c c' := by
  have htotal := Slab.total_remove S.bytes hget
  have hheld := held_setSlot hs ((slot.withoutSocket h).withPool pool) rfl hc
  have hsum : ((slot.withoutSocket h).withPool pool).held =
      (slot.sockets.remove h).total S.bytes + (pool.map fun t => S.bytes (.tcp t)).sum := rfl
  have hslot : slot.held =
      slot.sockets.total S.bytes + (slot.tcpPool.map fun t => S.bytes (.tcp t)).sum := rfl
  -- the bytes the pool gains are those of the socket, if it is parked
  have hgain : ((pool.map fun t => S.bytes (.tcp t)).sum =
        (slot.tcpPool.map fun t => S.bytes (.tcp t)).sum ∧ pool.length = slot.tcpPool.length) ∨
      ((pool.map fun t => S.bytes (.tcp t)).sum =
        (slot.tcpPool.map fun t => S.bytes (.tcp t)).sum + S.bytes s ∧
        pool.length = slot.tcpPool.length + 1 ∧ c.config.bytesOf s.proto = c.config.tcpCharge) := by
    rcases hpool with rfl | ⟨t, rfl, rfl⟩
    · exact .inl ⟨rfl, rfl⟩
    · exact .inr ⟨by simp, by simp, rfl⟩
  refine ⟨fun ha => ?_, by omega, hd, hconf⟩
  have hsized := ha.sized slot (mem_of_slot hs)
  have hbytes := hsized.sockets hget
  refine ha.write hs ((slot.withoutSocket h).withPool pool) rfl hc hconf ⟨fun {h' s'} hg => ?_,
    fun t ht => ?_⟩ ?_
  · have hrem : ((slot.withoutSocket h).withPool pool).sockets.get? h' =
        if h' = h then none else slot.sockets.get? h' := Slab.get?_remove slot.sockets h h'
    rw [hrem] at hg
    split at hg
    · cases hg
    · exact hsized.sockets hg
  · change t ∈ pool at ht
    rcases hpool with rfl | ⟨t', rfl, rfl⟩
    · exact hsized.pool t ht
    · rcases List.mem_append.mp ht with ht | ht
      · exact hsized.pool t ht
      · rw [List.mem_singleton.mp ht]
        exact hbytes
  · rw [hsum, hslot, show ((slot.withoutSocket h).withPool pool).tcpPool = pool from rfl]
    rcases hgain with ⟨hb, hl⟩ | ⟨hb, hl, hone⟩
    · rw [hb, hl]
      simp only [Nat.mul_add]
      omega
    · rw [hb, hl]
      simp only [Nat.mul_add, Nat.mul_one]
      omega

end Eases

end Core

/-! ### Steps that take no memory -/

section Steps

open WayNetstack.Core

variable {c c' : Core S}

theorem DrainUdp.eases (h : DrainUdp c c') : Eases c c' := by
  cases h with
  | @drain slot h u u' hs hget hrx htx hcap =>
    refine .put hs hget (.udp u') rfl ?_ rfl rfl rfl rfl
    simp only [Smoltcp.bytes, Smoltcp.capacity, hcap]

theorem RouteUdp.eases {now : Instant} (h : RouteUdp now c c') : Eases c c' := by
  cases h
  exact .of_eq rfl rfl rfl rfl

theorem ReapTcp.eases {st st' : Core S × ℕ} (h : ReapTcp st st') : Eases st.1 st'.1 := by
  cases h with
  | @reap c m slot key e t hs hid he ho hget hst =>
    have hlen := len_erase (mem_of_lookup he)
    refine .remove hs hget (if slot.tcpPool.length < slot.tcpPoolMax then slot.tcpPool ++ [t]
      else slot.tcpPool) ?_ rfl rfl le_rfl ?_
    · split
      · exact .inr ⟨t, rfl, rfl⟩
      · exact .inl rfl
    · simp only [Core.closeTcp, Core.setSlot, NetstackConfig.bytesOf, Socket.proto]
      rw [← hlen, Nat.mul_succ]
      omega

theorem EndUdp.eases {st st' : Core S × ℕ} (h : EndUdp st st') : Eases st.1 st'.1 := by
  cases h with
  | leave he hn more => exact .of_eq rfl rfl rfl (len_replace _ _ _)
  | @close c m slot key e h n u hs hid he hn last hget =>
    have hlen := len_erase (mem_of_lookup hn)
    refine .remove hs hget slot.tcpPool (.inl rfl) rfl rfl ?_ ?_
    · simp only [Core.closeUdp, Core.setSlot]
      omega
    · simp only [Core.closeUdp, Core.setSlot, NetstackConfig.bytesOf, Socket.proto]
      rw [← hlen, Nat.mul_succ]
      omega

theorem TcpLoop.Spec.eases {st : TcpLoop S} (h : TcpLoop.Spec c st) : Eases c st.core := by
  have hlen : len st.core.manager.tcp = len c.manager.tcp := by
    rw [len_eq_length_keys, h.keys, len_eq_length_keys]
  exact .of_eq (by rw [h.core]) (by rw [h.core]) hlen (by rw [h.core])

theorem Core.Eases.drainEgress (c : Core S) : Eases c c.drainEgress.1 :=
  .map (f := fun slot => { slot with device := { slot.device with egress := [] } }) rfl rfl rfl
    fun _ _ => ⟨rfl, rfl, fun h => ⟨h.sockets, h.pool⟩⟩

theorem PostPass.Spec.eases {now : Instant} {p : PostPass S} (h : PostPass.Spec c now p) :
    Eases c p.core := by
  have hreaped := run_keeps (P := fun st : Core S × ℕ => Eases c st.1)
    (fun _ _ hs hp => hp.trans hs.eases) h.reaped h.tcp.eases
  have hdrained := run_keeps (P := Eases c) (fun _ _ hs hp => hp.trans hs.eases) h.drained hreaped
  have hrouted := run_keeps (P := Eases c) (fun _ _ hs hp => hp.trans hs.eases) h.routed hdrained
  have hswept := run_keeps (P := fun st : Core S × ℕ => Eases c st.1)
    (fun _ _ hs hp => hp.trans hs.eases) h.swept hrouted
  rw [h.settled]
  exact hswept.trans (.of_eq rfl rfl rfl rfl)

theorem TouchTcp.eases {R : S.Tcp → S.Tcp → Prop} {st : WayTcpStream}
    (hR : ∀ t t', R t t' → S.tcpCapacity t' = S.tcpCapacity t) (h : TouchTcp R st c c') : Eases c c' := by
  cases h with
  | same => exact .refl c
  | @put slot t t' hs hid hget hrel =>
    refine .put hs hget (.tcp t') rfl ?_ rfl rfl rfl rfl
    simp only [Smoltcp.bytes, Smoltcp.capacity, hR _ _ hrel]

theorem closeIfOpen_capacity (hS : S.Lawful) (t : S.Tcp) :
    S.tcpCapacity (WayTcpStream.closeIfOpen t) = S.tcpCapacity t := by
  unfold WayTcpStream.closeIfOpen
  split
  · exact (hS.tcpClose_ok t).2.2
  · rfl

theorem DropTcp.eases (hS : S.Lawful) {st : WayTcpStream} (h : DropTcp st c c') : Eases c c' := by
  cases h with
  | @drop slot t e hs hid hget he hh =>
    refine .put hs hget (.tcp (WayTcpStream.closeIfOpen t)) rfl ?_ rfl rfl (len_replace _ _ _) rfl
    simp only [Smoltcp.bytes, Smoltcp.capacity, closeIfOpen_capacity hS]

theorem SendUdp.eases (hS : S.Lawful) {ses : WayUdpSession} {payload : Bytes}
    {r : Core S × SendOutcome} (h : SendUdp ses payload c r) : Eases c r.1 := by
  cases h with
  | refused => exact .refl c
  | @sent slot u u' e hs hid hget he hsock hsend =>
    refine .put hs hget (.udp u') rfl ?_ rfl rfl rfl rfl
    simp only [Smoltcp.bytes, Smoltcp.capacity, (hS.udpSendSlice_ok hsend).2]

theorem DropUdp.eases {ses : WayUdpSession} (h : DropUdp ses c c') : Eases c c' := by
  cases h with
  | gone hnone => exact .refl c
  | ended hstep hlook => exact hstep.eases.trans (.of_eq rfl rfl rfl rfl)

/-- A lawful poll keeps every buffer. -/
theorem Core.Eases.poll {polls : InterfaceId → List (PollEvent S)}
    (hlaw : World.PollsObey (fun _ => InterfaceSlot.KeepsBuffers) polls c) : Eases c (c.pollSlots polls) := by
  refine .map rfl rfl rfl fun slot hslot => ?_
  refine (hlaw slot hslot).keeps (P := fun s : InterfaceSlot S => s.held = slot.held ∧
    s.tcpPool = slot.tcpPool ∧ (slot.Sized c.config → s.Sized c.config)) ?_ ⟨rfl, rfl, id⟩
  rintro s ev hev ⟨hheld, hpool, hsized⟩
  have hpool' : (s.apply ev).tcpPool = slot.tcpPool := by rw [InterfaceSlot.tcpPool_apply, hpool]
  rcases InterfaceSlot.sockets_apply s ev with heq | ⟨h, x, x', htouch, hget, hproto, heq⟩
  · refine ⟨?_, hpool', fun hz => ⟨fun hg => (hsized hz).sockets (heq ▸ hg), ?_⟩⟩
    · rw [← hheld, InterfaceSlot.held, InterfaceSlot.held, heq, InterfaceSlot.tcpPool_apply]
    · rw [hpool']
      exact hz.pool
  · have hcap : S.bytes x' = S.bytes x := by
      have := hev _ htouch x hget
      simp only [Smoltcp.bytes, this]
    have htotal := Slab.total_put S.bytes hget x'
    refine ⟨?_, hpool', fun hz => ⟨fun {h' y} hg => ?_, ?_⟩⟩
    · rw [← hheld, InterfaceSlot.held, InterfaceSlot.held, heq, InterfaceSlot.tcpPool_apply]
      omega
    · rw [heq, Slab.get?_put hget] at hg
      split at hg
      · cases hg
        rw [hcap, hproto]
        exact (hsized hz).sockets hget
      · exact (hsized hz).sockets hg
    · rw [hpool']
      exact hz.pool

end Steps

/-! ### Opening sockets -/

section Slots

variable {slot : InterfaceSlot S} {config : NetstackConfig}

theorem InterfaceSlot.held_withSocket (hS : S.Lawful) (slot : InterfaceSlot S) (s : S.Socket) :
    (slot.withSocket s).held = slot.held + S.bytes s := by
  have htotal := Slab.total_insertAt S.bytes (hS.freeIndex_free slot.sockets) s
  simp only [InterfaceSlot.held, InterfaceSlot.withSocket]
  omega

theorem InterfaceSlot.Sized.withSocket (hS : S.Lawful) (h : slot.Sized config) {s : S.Socket}
    (hb : S.bytes s = config.bytesOf s.proto) : (slot.withSocket s).Sized config := by
  refine ⟨fun {hd s'} hg => ?_, h.pool⟩
  have hins : (slot.withSocket s).sockets.get? hd =
      if hd = S.freeIndex slot.sockets then some s else slot.sockets.get? hd :=
    Slab.get?_insertAt (hS.freeIndex_free slot.sockets) s hd
  rw [hins] at hg
  split at hg
  · cases hg
    exact hb
  · exact h.sockets hg

theorem InterfaceSlot.Sized.popPool (h : slot.Sized config) :
    (slot.withPool slot.tcpPool.tail).Sized config :=
  ⟨h.sockets, fun t ht => h.pool t (List.mem_of_mem_tail ht)⟩

/-- Taking a socket from the pool takes its bytes. -/
theorem InterfaceSlot.Sized.held_popPool (h : slot.Sized config) :
    (slot.withPool slot.tcpPool.tail).held + config.tcpCharge * slot.tcpPool.length =
      slot.held + config.tcpCharge * slot.tcpPool.tail.length := by
  cases hpool : slot.tcpPool with
  | nil => simp [InterfaceSlot.held, InterfaceSlot.withPool, hpool]
  | cons t rest =>
    have ht := h.pool t (by simp [hpool])
    simp only [InterfaceSlot.held, InterfaceSlot.withPool, hpool, List.tail_cons, List.map_cons,
      List.sum_cons, List.length_cons, Nat.mul_add, Nat.mul_one]
    omega

/-- The socket that serves a SYN has the buffers of the configuration, pooled or fresh. -/
theorem InterfaceSlot.Sized.bytes_listen (hS : S.Lawful) (h : slot.Sized config)
    (hsize : 2 * slot.tcpBufferSize = config.tcpCharge) {t : S.Tcp} {ep : IpListenEndpoint}
    (hl : S.tcpListen (slot.tcpPool.head?.getD (S.tcpNew slot.tcpBufferSize slot.tcpBufferSize)) ep =
      .ok t) : S.bytes (.tcp t) = config.tcpCharge := by
  have hcap := (hS.tcpListen_ok hl).2.2
  cases hpool : slot.tcpPool with
  | nil =>
    simp only [hpool, List.head?_nil, Option.getD_none, hS.tcpNew_capacity] at hcap
    simp only [Smoltcp.bytes, Smoltcp.capacity, hcap]
    omega
  | cons t₀ rest =>
    have ht := h.pool t₀ (by simp [hpool])
    simp only [hpool, List.head?_cons, Option.getD_some] at hcap
    simp only [Smoltcp.bytes, Smoltcp.capacity] at ht ⊢
    rw [hcap]
    exact ht

end Slots

namespace Core

variable {c c' : Core S} {slot : InterfaceSlot S} {key : SessionKey}

/-- A session joins a socket in use. -/
theorem Eases.joinUdp (c : Core S) (key : SessionKey) (h : SocketHandle) (n : ℕ) (now : Instant) :
    Eases c (c.joinUdp key h n now) := .of_eq rfl rfl rfl (len_replace _ _ _)

/-- A pooled socket is dropped. -/
theorem Eases.popPool (hs : c.slot slot.id = some slot) (hsized : slot.Sized c.config) :
    Eases c (c.setSlot (slot.withPool slot.tcpPool.tail)) := by
  have hpop := hsized.held_popPool
  have hle := Nat.mul_le_mul_left c.config.tcpCharge
    (show slot.tcpPool.tail.length ≤ slot.tcpPool.length by simp)
  have hheld : (c.setSlot (slot.withPool slot.tcpPool.tail)).held + slot.held =
      c.held + (slot.withPool slot.tcpPool.tail).held :=
    held_setSlot hs (slot.withPool slot.tcpPool.tail) rfl rfl
  refine ⟨fun ha => ?_, by omega, le_rfl, rfl⟩
  refine ha.write hs (slot.withPool slot.tcpPool.tail) rfl rfl rfl hsized.popPool ?_
  rw [show (slot.withPool slot.tcpPool.tail).tcpPool = slot.tcpPool.tail from rfl]
  simp only [Core.setSlot, Nat.mul_add]
  omega

theorem Accounted.openTcp (hS : S.Lawful) (hsh : c.Shaped) (ha : c.Accounted)
    (hs : c.slot slot.id = some slot) (new : c.manager.tcp.lookup key = none)
    {t : S.Tcp} {ep : IpListenEndpoint} (hl : S.tcpListen
      (slot.tcpPool.head?.getD (S.tcpNew slot.tcpBufferSize slot.tcpBufferSize)) ep = .ok t) :
    (c.openTcp slot key t).Accounted := by
  have hsized := ha.sized slot (mem_of_slot hs)
  have hbytes := hsized.bytes_listen hS (hsh.tcpCharge_eq hs) hl
  have hlen := len_insert (notMem_of_lookup new) (⟨S.freeIndex slot.sockets, .pending, false⟩ : TcpEntry)
  have hpop := hsized.held_popPool
  refine ha.write hs ((slot.withPool slot.tcpPool.tail).withSocket (.tcp t)) rfl rfl rfl
    (hsized.popPool.withSocket hS hbytes) ?_
  rw [InterfaceSlot.held_withSocket hS, hbytes,
    show ((slot.withPool slot.tcpPool.tail).withSocket (.tcp t)).tcpPool = slot.tcpPool.tail from rfl]
  simp only [Core.openTcp, Core.setSlot] at hlen ⊢
  rw [hlen]
  simp only [Nat.mul_add, Nat.mul_one]
  omega

/-- A SYN served from the pool takes no memory. -/
theorem Accounted.held_openTcp (hS : S.Lawful) (hsh : c.Shaped) (ha : c.Accounted)
    (hs : c.slot slot.id = some slot) (hpool : slot.tcpPool ≠ [])
    {t : S.Tcp} {ep : IpListenEndpoint} (hl : S.tcpListen
      (slot.tcpPool.head?.getD (S.tcpNew slot.tcpBufferSize slot.tcpBufferSize)) ep = .ok t) :
    (c.openTcp slot key t).held = c.held := by
  have hsized := ha.sized slot (mem_of_slot hs)
  have hbytes := hsized.bytes_listen hS (hsh.tcpCharge_eq hs) hl
  have hpop := hsized.held_popPool
  have hheld : (c.openTcp slot key t).held + slot.held =
      c.held + ((slot.withPool slot.tcpPool.tail).withSocket (.tcp t)).held :=
    held_setSlot hs ((slot.withPool slot.tcpPool.tail).withSocket (.tcp t)) rfl rfl
  obtain ⟨t₀, rest, heq⟩ := List.exists_cons_of_ne_nil hpool
  rw [InterfaceSlot.held_withSocket hS, hbytes] at hheld
  rw [heq, List.tail_cons, List.length_cons, Nat.mul_succ] at hpop
  rw [heq, List.tail_cons] at hheld
  omega

theorem Accounted.openUdpNew (hS : S.Lawful) (hsh : c.Shaped) (ha : c.Accounted)
    (hs : c.slot slot.id = some slot)
    (fresh : c.manager.udpDstSockets.lookup (dstOf key) = none) {u : S.Udp} {packets : ℕ}
    {ep : IpEndpoint}
    (hb : S.udpBind (S.udpNew packets (max c.config.udpBufferBytes slot.mtu)) ep = .ok u)
    (now : Instant) : (c.openUdpNew slot key u now).Accounted := by
  have hsized := ha.sized slot (mem_of_slot hs)
  have hlen := len_insert (notMem_of_lookup fresh) ((S.freeIndex slot.sockets, 1) : SocketHandle × ℕ)
  have hbytes : S.bytes (.udp u) = 2 * c.config.udpRegion := by
    simp only [Smoltcp.bytes, Smoltcp.capacity, (hS.udpBind_ok hb).2, (hS.udpNew_ok _ _).2,
      (hsh.sizes slot (mem_of_slot hs)).1, NetstackConfig.udpRegion]
    omega
  refine ha.write hs (slot.withSocket (.udp u)) rfl rfl rfl (hsized.withSocket hS hbytes) ?_
  rw [InterfaceSlot.held_withSocket hS, hbytes,
    show (slot.withSocket (.udp u)).tcpPool = slot.tcpPool from rfl]
  simp only [Core.openUdpNew, Core.setSlot] at hlen ⊢
  rw [hlen]
  simp only [Nat.mul_add, Nat.mul_one]
  omega

end Core

end WayNetstack

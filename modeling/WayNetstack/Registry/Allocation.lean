import WayNetstack.Registry.PrePass
import WayNetstack.Reference

/-!
# Allocations that fail

`alloc_tcp` and `alloc_udp` reserve budget, make a socket and register it; each has several
ways to fail. What must then be as before is told by `Core.Untouched`. Nothing is assumed
here of the core, of the place of the slot, of the key or of the engine: the key need not
even be of the slot's own interface.

**`failed_allocation_traceless`**: `alloc_tcp` undoes all it did, whichever way it fails;
`alloc_udp` does so just when it did not fail at the bind of a socket it had reserved budget
for, since the `?` on the closure's result passes over the release.
-/

namespace WayNetstack

open Lib Lib.Table SessionManager

variable {S : Smoltcp}

/-- The tables, the sockets of every slot and the budget are as before. -/
structure Core.Untouched (c c' : Core S) : Prop where
  tcp : c'.manager.tcp = c.manager.tcp
  udp : c'.manager.udp = c.manager.udp
  udpDstSockets : c'.manager.udpDstSockets = c.manager.udpDstSockets
  sockets : c'.slots.map (·.sockets) = c.slots.map (·.sockets)
  bufferBytes : c'.bufferBytes = c.bufferBytes

theorem Core.Untouched.refl (c : Core S) : c.Untouched c := ⟨rfl, rfl, rfl, rfl, rfl⟩

/-- The socket that the next allocation of the slot will listen with. -/
def InterfaceSlot.nextTcp (slot : InterfaceSlot S) : S.Tcp :=
  slot.tcpPool.head?.getD (S.tcpNew slot.tcpBufferSize slot.tcpBufferSize)

/-- There is budget for a TCP socket of the slot, and the socket can listen for `key`. -/
def Core.ListensFor (c : Core S) (slot : InterfaceSlot S) (key : SessionKey) : Prop :=
  c.Affords (2 * slot.tcpBufferSize) ∧
    ∃ t, S.tcpListen slot.nextTcp ⟨some key.dst.addr, key.dst.port⟩ = .ok t

/-- If slot `i` has to make a socket for the destination of `key`, and budget is reserved for
it, then the fresh socket can be bound. -/
def Core.BindsFor (c : Core S) (i : ℕ) (key : SessionKey) : Prop :=
  ∀ slot, c.slots[i]? = some slot → c.manager.udpDstSockets.lookup (key.interface, key.dst) = none →
    c.manager.udpDstSockets.lookup (slot.id, key.dst) = none → c.Affords (c.udpCharge slot) →
    ∃ u, S.udpBind (S.udpNew (max c.config.udpBufferPackets 1) (max c.config.udpBufferBytes slot.mtu))
      key.dst = .ok u

section Failures

variable {c : Core S} {i : ℕ} {slot : InterfaceSlot S} {key : SessionKey}

/-- `alloc_tcp` on a slot that is there. -/
theorem allocTcp_listens (key : SessionKey) (hi : c.slots[i]? = some slot) :
    ∃ c', (allocTcp c i key).result = .ok c' ∧
    (c.ListensFor slot key ∧
        c'.manager.tcp = c.manager.tcp.insert key ⟨S.freeIndex slot.sockets, .pending, false⟩ ∨
      ¬c.ListensFor slot key ∧ c.Untouched c') := by
  unfold allocTcp
  simp only [hi]
  cases hres : c.reserveBuffer (2 * slot.tcpBufferSize) with
  | none =>
    exact ⟨c, rfl, .inr ⟨fun h => Core.reserveBuffer_eq_none.mp hres h.1, .refl c⟩⟩
  | some c₁ =>
    obtain ⟨ha, rfl⟩ := Core.reserveBuffer_eq_some.mp hres
    cases hl : S.tcpListen slot.nextTcp ⟨some key.dst.addr, key.dst.port⟩ with
    | error err =>
      unfold InterfaceSlot.nextTcp at hl
      simp only [hl]
      refine ⟨_, rfl, .inr ⟨?_, rfl, rfl, rfl, map_set_of_getElem? hi rfl, Nat.add_sub_cancel _ _⟩⟩
      rintro ⟨-, t, ht⟩
      cases hl.symm.trans ht
    | ok t =>
      unfold InterfaceSlot.nextTcp at hl
      simp only [hl]
      exact ⟨_, rfl, .inl ⟨⟨ha, t, hl⟩, rfl⟩⟩

/-- `alloc_udp` on a slot that is there, when it hands out no session: the core is as it was,
unless budget was reserved for a socket that could then not be bound. -/
theorem allocUdp_none {now : Instant} (hi : c.slots[i]? = some slot) (h : (allocUdp c i key now).2 = none) :
    c.BindsFor i key ∧ (allocUdp c i key now).1 = c ∨
      ¬c.BindsFor i key ∧
        (allocUdp c i key now).1 = { c with bufferBytes := c.bufferBytes + c.udpCharge slot } := by
  have hsame : ∀ {slot'}, c.slots[i]? = some slot' → slot' = slot := fun h => Option.some.inj (h.symm.trans hi)
  unfold allocUdp at h ⊢
  simp only [hi] at h ⊢
  cases hkey : c.manager.udpDstSockets.lookup (key.interface, key.dst) with
  | some x =>
    -- nothing is reserved
    have hbinds : c.BindsFor i key := fun slot' _ hnone => by cases hkey.symm.trans hnone
    simp only [hkey, Option.isNone_some, Bool.false_eq_true, if_false] at h ⊢
    cases hfor : c.manager.udpSocketFor slot.id key.dst slot
        (createUdp (max c.config.udpBufferPackets 1) (max c.config.udpBufferBytes slot.mtu) key.dst) with
    | none => exact .inl ⟨hbinds, rfl⟩
    | some r =>
      rw [hfor] at h
      cases h
  | none =>
    simp only [hkey, Option.isNone_none, if_true] at h ⊢
    cases hres : c.reserveBuffer (max c.config.udpBufferPackets 1 * 64 +
        max c.config.udpBufferBytes slot.mtu) with
    | none =>
      refine .inl ⟨fun slot' hi' _ _ ha => ?_, rfl⟩
      obtain rfl := hsame hi'
      exact absurd ha (Core.reserveBuffer_eq_none.mp hres)
    | some c₁ =>
      obtain ⟨ha, rfl⟩ := Core.reserveBuffer_eq_some.mp hres
      simp only [hres] at h
      cases hid : c.manager.udpDstSockets.lookup (slot.id, key.dst) with
      | some x =>
        rw [udpSocketFor_of_some (n := x.2) (h := x.1) hid] at h
        cases h
      | none =>
        simp only [udpSocketFor_of_none hid, createUdp] at h ⊢
        cases hb : S.udpBind (S.udpNew (max c.config.udpBufferPackets 1)
            (max c.config.udpBufferBytes slot.mtu)) key.dst with
        | error err =>
          refine .inr ⟨fun hbinds => ?_, rfl⟩
          obtain ⟨u, hu⟩ := hbinds slot hi hkey hid ha
          cases hb.symm.trans hu
        | ok u =>
          rw [hb] at h
          cases h

end Failures

/-- **A failed allocation leaves no trace**, with one exception. For every core, slot and key:
`alloc_tcp` ends, and it registers an entry if there is budget and the socket can listen and
otherwise leaves the tables, the sockets and the budget as they were; `alloc_udp` that returns
no session does so too just when it has not reserved budget for a socket whose bind fails. -/
theorem failed_allocation_traceless (c : Core S) (i : ℕ) (key : SessionKey) (now : Instant) :
    (∃ c', (allocTcp c i key).result = .ok c' ∧
      ((∃ slot, c.slots[i]? = some slot ∧ c.ListensFor slot key ∧
          c'.manager.tcp = c.manager.tcp.insert key ⟨S.freeIndex slot.sockets, .pending, false⟩) ∨
        (∀ slot, c.slots[i]? = some slot → ¬c.ListensFor slot key) ∧ c.Untouched c')) ∧
    ((allocUdp c i key now).2 = none → (c.Untouched (allocUdp c i key now).1 ↔ c.BindsFor i key)) := by
  cases hi : c.slots[i]? with
  | none =>
    have hudp : allocUdp c i key now = (c, none) := by simp only [allocUdp, hi]
    refine ⟨⟨c, by simp only [allocTcp, hi, Traced.pure_result], .inr ⟨by simp, .refl c⟩⟩, fun _ => ?_⟩
    rw [hudp]
    exact ⟨fun _ slot hslot => absurd (hi.symm.trans hslot) nofun, fun _ => .refl c⟩
  | some slot =>
    constructor
    · obtain ⟨c', hc', hcase⟩ := allocTcp_listens key hi
      refine ⟨c', hc', ?_⟩
      rcases hcase with ⟨hl, htab⟩ | ⟨hl, hun⟩
      · exact .inl ⟨slot, rfl, hl, htab⟩
      · exact .inr ⟨fun slot' hslot' => by cases hslot'; exact hl, hun⟩
    · intro hnone
      rcases allocUdp_none hi hnone with ⟨hbinds, heq⟩ | ⟨hbinds, heq⟩
      · rw [heq]
        exact ⟨fun _ => hbinds, fun _ => .refl c⟩
      · rw [heq]
        refine ⟨fun hun => ?_, fun h => absurd h hbinds⟩
        -- what stays reserved is never nothing
        have hbytes : c.bufferBytes + c.udpCharge slot = c.bufferBytes := hun.bufferBytes
        have hpos : 0 < c.udpCharge slot := by
          unfold Core.udpCharge
          have := Nat.le_max_right c.config.udpBufferPackets 1
          omega
        omega

namespace Reference

/-- A stack whose budget is that of one shared UDP socket. -/
def oneSocket : Core reference :=
  (trial { NetstackConfig.default with maxBufferBytes := some 17408 }).build

end Reference

open Reference in
/-- A session that the budget has no room for leaves no trace. -/
theorem failed_allocation_traceless_refused :
    (allocUdp { oneSocket with bufferBytes := 1 } 0 ⟨eth, .udp, client, server⟩ 0).2 = none ∧
      Core.Untouched { oneSocket with bufferBytes := 1 }
        (allocUdp { oneSocket with bufferBytes := 1 } 0 ⟨eth, .udp, client, server⟩ 0).1 := by
  have hnone : (allocUdp { oneSocket with bufferBytes := 1 } 0 ⟨eth, .udp, client, server⟩ 0).2 = none := by
    decide +kernel
  refine ⟨hnone, ((failed_allocation_traceless _ 0 _ 0).2 hnone).mpr ?_⟩
  rintro slot hslot - - -
  exact reference_binds.udpBind_new _ _ _ (by decide)

open Reference in
/-- A destination without a port cannot be bound. The allocation fails, the budget stays
reserved, and a session that there was room for no longer gets its socket. -/
theorem failed_bind_keeps_reservation :
    (allocUdp oneSocket 0 ⟨eth, .udp, client, ⟨server.addr, 0⟩⟩ 0).2 = none ∧
    oneSocket.bufferBytes = 0 ∧
    (allocUdp oneSocket 0 ⟨eth, .udp, client, ⟨server.addr, 0⟩⟩ 0).1.bufferBytes = 17408 ∧
    ¬oneSocket.Untouched (allocUdp oneSocket 0 ⟨eth, .udp, client, ⟨server.addr, 0⟩⟩ 0).1 ∧
    (allocUdp oneSocket 0 ⟨eth, .udp, client, server⟩ 0).2.isSome ∧
    (allocUdp (allocUdp oneSocket 0 ⟨eth, .udp, client, ⟨server.addr, 0⟩⟩ 0).1 0
      ⟨eth, .udp, client, server⟩ 0).2 = none := by
  have hbytes : (allocUdp oneSocket 0 ⟨eth, .udp, client, ⟨server.addr, 0⟩⟩ 0).1.bufferBytes = 17408 := by
    decide +kernel
  refine ⟨by decide +kernel, rfl, hbytes, fun h => ?_, by decide +kernel, by decide +kernel⟩
  cases hbytes.symm.trans h.bufferBytes

end WayNetstack

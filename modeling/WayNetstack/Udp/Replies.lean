import WayNetstack.Registry.Runs
import Mathlib.Algebra.Order.Group.Multiset

/-!
# Replies that were accepted

`WayUdpSession::send` returns once the reply is in the transmit buffer of the socket its
session shares. From there a poll dispatches it. The replies in the buffers of a core
are `Core.unsent`; a ledger notes which replies were accepted and which dispatched.

A socket goes with its last session, whatever is in its buffers. Along every run in
which this happens to empty transmit buffers only (`World.Flushed`), the replies accepted
are those dispatched and those still in a buffer (`accepted_replies_kept`). A reply sent
just before its session is dropped is lost (`dropped_session_loses_reply`).
-/

namespace WayNetstack

open Lib Lib.Table SessionManager Relation

variable {S : Smoltcp}

/-- A reply: the interface it leaves by, its payload and its target. -/
abbrev Reply := InterfaceId × Bytes × IpEndpoint

/-- The replies in the transmit buffer of a socket of interface `i`. -/
def Smoltcp.replies (S : Smoltcp) (i : InterfaceId) : S.Socket → Multiset Reply
  | .udp u => ((S.udpTx u).map fun d => (i, d) : List Reply)
  | .tcp _ => 0

/-- The replies in the transmit buffers of a slot. -/
def InterfaceSlot.unsent (slot : InterfaceSlot S) : Multiset Reply :=
  slot.sockets.total (S.replies slot.id)

/-- The replies in the transmit buffers of all sockets. -/
def Core.unsent (c : Core S) : Multiset Reply := c.sumSlots InterfaceSlot.unsent

/-! ### Dispatching -/

namespace InterfaceSlot

/-- The datagrams gone from the transmit buffer when a socket has become another. -/
def gone : Option S.Udp → Option S.Udp → List (Bytes × IpEndpoint)
  | some u, some u' => (S.udpTx u).take ((S.udpTx u).length - (S.udpTx u').length)
  | _, _ => []

/-- The datagrams an event dispatches, with the socket they leave. -/
def dispatched (slot : InterfaceSlot S) : PollEvent S → List (SocketHandle × Bytes × IpEndpoint)
  | .egress h s => (gone (slot.udpAt h) s.udp?).map fun d => (h, d)
  | _ => []

/-- The datagrams a poll dispatches, with the sockets they leave. -/
def dispatchedBy : InterfaceSlot S → List (PollEvent S) → List (SocketHandle × Bytes × IpEndpoint)
  | _, [] => []
  | slot, e :: es => slot.dispatched e ++ dispatchedBy (slot.apply e) es

/-- The replies that leave an interface, whatever socket they are from. -/
def asReplies (slot : InterfaceSlot S) (ds : List (SocketHandle × Bytes × IpEndpoint)) : List Reply :=
  ds.map fun d => (slot.id, d.2)

theorem gone_append {u u' : S.Udp} (hsuffix : S.udpTx u' <:+ S.udpTx u) :
    gone (some u) (some u') ++ S.udpTx u' = S.udpTx u := List.suffix_iff_eq_append.mp hsuffix

variable {slot : InterfaceSlot S}

/-- A socket that has sent its oldest replies. -/
theorem unsent_swapSocket {h : SocketHandle} {s : S.Socket}
    (hlaw : ∀ u ∈ slot.udpAt h, ∀ u' ∈ s.udp?, S.udpTx u' <:+ S.udpTx u) :
    (slot.swapSocket h s).unsent + (slot.asReplies (slot.dispatched (.egress h s)) : Multiset Reply) =
      slot.unsent := by
  generalize hds : slot.asReplies (slot.dispatched (.egress h s)) = sent
  unfold swapSocket
  split
  · next hp =>
    obtain ⟨s₀, hget, hproto⟩ := Option.map_eq_some_iff.mp hp
    have htotal := Slab.total_put (S.replies slot.id) hget s
    have hsent : S.replies slot.id s + (sent : Multiset Reply) = S.replies slot.id s₀ := by
      subst hds
      cases s₀ with
      | tcp t =>
        cases s with
        | tcp t' => simp [Smoltcp.replies, asReplies, dispatched, gone, udpAt, hget, Socket.udp?]
        | udp u' => cases hproto
      | udp u =>
        cases s with
        | tcp t' => cases hproto
        | udp u' =>
          have hu : slot.udpAt h = some u := by simp [udpAt, hget, Socket.udp?]
          have hsplit := gone_append (hlaw u hu u' rfl)
          simp only [asReplies, dispatched, hu, Socket.udp?, Smoltcp.replies, Multiset.coe_add, List.map_map]
          rw [Multiset.coe_eq_coe, show ((fun d => (slot.id, d.2)) ∘ fun d => (h, d)) =
            fun d : Bytes × IpEndpoint => (slot.id, d) from rfl, ← List.map_append]
          conv_rhs => rw [← hsplit]
          exact List.Perm.map _ List.perm_append_comm
    refine add_right_cancel (b := S.replies slot.id s) ?_
    calc (slot.putSocket h s).unsent + (sent : Multiset Reply) + S.replies slot.id s
        = (slot.putSocket h s).unsent + (S.replies slot.id s + (sent : Multiset Reply)) := by
          rw [add_assoc, add_comm (sent : Multiset Reply)]
      _ = slot.unsent + S.replies slot.id s := by
          rw [hsent]
          exact htotal
  · next hp =>
    -- no socket of the protocol of `s`: nothing is sent
    have hnone : gone (slot.udpAt h) s.udp? = [] := by
      unfold gone
      split
      · next u u' hu hu' =>
        refine absurd ?_ hp
        obtain ⟨s₀, hget, hs₀⟩ := Option.bind_eq_some_iff.mp hu
        cases s₀ with
        | tcp t => cases hs₀
        | udp u₀ =>
          cases s with
          | tcp t => cases hu'
          | udp u₁ => simp [protoAt, hget, Socket.proto]
      · rfl
    simp [← hds, asReplies, dispatched, hnone]

theorem unsent_apply {e : PollEvent S} (hlaw : slot.Dispatches e) :
    (slot.apply e).unsent + (slot.asReplies (slot.dispatched e) : Multiset Reply) = slot.unsent := by
  cases e with
  | receive taken =>
    cases taken with
    | none => exact add_zero _
    | some x =>
      have hkeep : ∀ u ∈ slot.popIngress.udpAt x.1, ∀ u' ∈ x.2.udp?, S.udpTx u' = S.udpTx u :=
        fun u hu u' hu' => hlaw x rfl u hu u' hu'
      have hnone : gone (slot.popIngress.udpAt x.1) x.2.udp? = [] := by
        unfold gone
        split
        · next u u' hu hu' => simp [hkeep u hu u' hu']
        · rfl
      have hswap : (slot.popIngress.swapSocket x.1 x.2).unsent +
          (slot.popIngress.asReplies (slot.popIngress.dispatched (.egress x.1 x.2)) : Multiset Reply) =
            slot.popIngress.unsent :=
        unsent_swapSocket fun u hu u' hu' => (hkeep u hu u' hu') ▸ List.suffix_rfl
      rw [dispatched, hnone] at hswap
      exact hswap
  | egress h s => exact unsent_swapSocket hlaw
  | transmit data => exact add_zero _
  | internal iface => exact add_zero _

/-- **A lawful poll dispatches what leaves the buffers.** -/
theorem unsent_poll {es : List (PollEvent S)} (hlaw : slot.Obeys Dispatches es) :
    (slot.poll es).unsent + (slot.asReplies (slot.dispatchedBy es) : Multiset Reply) = slot.unsent := by
  induction es generalizing slot with
  | nil => exact add_zero _
  | cons e es ih =>
    have hrest : slot.asReplies (dispatchedBy (slot.apply e) es) =
        (slot.apply e).asReplies (dispatchedBy (slot.apply e) es) := by
      rw [asReplies, asReplies, id_apply]
    have hboth : slot.asReplies (slot.dispatchedBy (e :: es)) =
        slot.asReplies (slot.dispatched e) ++ (slot.apply e).asReplies (dispatchedBy (slot.apply e) es) :=
      List.map_append.trans (by rw [← hrest]; rfl)
    rw [poll_cons, hboth, ← Multiset.coe_add, add_comm (slot.asReplies (slot.dispatched e) : Multiset Reply),
      ← add_assoc, ih hlaw.2, unsent_apply hlaw.1]

end InterfaceSlot

/-- The replies the polls of a cycle dispatch. -/
def Core.dispatched (polls : InterfaceId → List (PollEvent S)) (c : Core S) : List Reply :=
  c.slots.flatMap fun slot => slot.asReplies (slot.dispatchedBy (polls slot.id))

theorem Core.unsent_pollSlots {c : Core S} {polls : InterfaceId → List (PollEvent S)}
    (hlaw : World.PollsObey (fun _ => InterfaceSlot.Dispatches) polls c) :
    (c.pollSlots polls).unsent + (c.dispatched polls : Multiset Reply) = c.unsent := by
  have key : ∀ slots : List (InterfaceSlot S),
      (∀ slot ∈ slots, slot.Obeys InterfaceSlot.Dispatches (polls slot.id)) →
      ((slots.map fun slot => slot.poll (polls slot.id)).map InterfaceSlot.unsent).sum +
        (slots.flatMap fun slot => slot.asReplies (slot.dispatchedBy (polls slot.id)) : List Reply) =
      (slots.map InterfaceSlot.unsent).sum := by
    intro slots h
    induction slots with
    | nil => rfl
    | cons slot slots ih =>
      have hslot := InterfaceSlot.unsent_poll (h slot List.mem_cons_self)
      have hrest := ih fun s hs => h s (List.mem_cons_of_mem _ hs)
      simp only [List.map_cons, List.sum_cons, List.flatMap_cons]
      rw [← Multiset.coe_add, add_add_add_comm, hslot, hrest]
  exact key c.slots hlaw

/-! ### What the operations do to the buffers -/

namespace Core

variable {c c' : Core S} {slot : InterfaceSlot S} {h : SocketHandle}

theorem unsent_congr (hslots : c'.slots = c.slots) : c'.unsent = c.unsent :=
  sumSlots_congr InterfaceSlot.unsent hslots

theorem unsent_setSlot (hs : c.slot slot.id = some slot) (slot' : InterfaceSlot S)
    (hid : slot'.id = slot.id) (hc : c'.slots = (c.setSlot slot').slots) :
    c'.unsent + slot.unsent = c.unsent + slot'.unsent :=
  sumSlots_setSlot InterfaceSlot.unsent hs slot' hid hc

/-- A slot is written back with the same replies. -/
theorem unsent_same (hs : c.slot slot.id = some slot) (slot' : InterfaceSlot S)
    (hid : slot'.id = slot.id) (hc : c'.slots = (c.setSlot slot').slots)
    (hsame : slot'.unsent = slot.unsent) : c'.unsent = c.unsent := by
  have key := unsent_setSlot hs slot' hid hc
  rw [hsame] at key
  exact add_right_cancel key

theorem unsent_put (hs : c.slot slot.id = some slot) {s : S.Socket}
    (hget : slot.sockets.get? h = some s) (s' : S.Socket)
    (hc : c'.slots = (c.setSlot (slot.putSocket h s')).slots) :
    c'.unsent + S.replies slot.id s = c.unsent + S.replies slot.id s' := by
  have hput : (slot.putSocket h s').unsent + S.replies slot.id s = slot.unsent + S.replies slot.id s' :=
    Slab.total_put (S.replies slot.id) hget s'
  have key := unsent_setSlot hs (slot.putSocket h s') rfl hc
  refine add_right_cancel (b := slot.unsent) ?_
  calc c'.unsent + S.replies slot.id s + slot.unsent
      = c.unsent + ((slot.putSocket h s').unsent + S.replies slot.id s) := by
        rw [add_right_comm, key, add_assoc]
    _ = c.unsent + S.replies slot.id s' + slot.unsent := by
        rw [hput, add_comm slot.unsent, add_assoc]

theorem unsent_remove (hs : c.slot slot.id = some slot) {s : S.Socket}
    (hget : slot.sockets.get? h = some s) (slot' : InterfaceSlot S) (hid : slot'.id = slot.id)
    (hsock : slot'.sockets = slot.sockets.remove h) (hc : c'.slots = (c.setSlot slot').slots) :
    c'.unsent + S.replies slot.id s = c.unsent := by
  have hrem : slot'.unsent + S.replies slot.id s = slot.unsent := by
    unfold InterfaceSlot.unsent
    rw [hsock, hid]
    exact Slab.total_remove (S.replies slot.id) hget
  have key := unsent_setSlot hs slot' hid hc
  refine add_right_cancel (b := slot'.unsent) ?_
  rw [add_assoc, add_comm (S.replies slot.id s), hrem, key]

theorem unsent_insert (hS : S.Lawful) (hs : c.slot slot.id = some slot) {s : S.Socket}
    (slot' : InterfaceSlot S) (hid : slot'.id = slot.id)
    (hsock : slot'.sockets = slot.sockets.insertAt (S.freeIndex slot.sockets) s)
    (hc : c'.slots = (c.setSlot slot').slots) (hnone : S.replies slot.id s = 0) :
    c'.unsent = c.unsent := by
  refine unsent_same hs slot' hid hc ?_
  unfold InterfaceSlot.unsent
  rw [hsock, hid, Slab.total_insertAt _ (hS.freeIndex_free slot.sockets), hnone, add_zero]

/-- The transmit buffer of socket `h` of interface `i`, if it is a UDP socket, is empty. -/
def TxEmpty (c : Core S) (i : InterfaceId) (h : SocketHandle) : Prop :=
  ∀ s ∈ c.socketAt i h, ∀ u ∈ s.udp?, S.udpTx u = []

theorem replies_of_tx {u : S.Udp} (i : InterfaceId) (h : S.udpTx u = []) :
    S.replies i (.udp u) = 0 := by
  simp [Smoltcp.replies, h]

end Core

section PrePass

variable {now : Instant} {queued : InterfaceId → Bytes → Prop} {st st' : Core S × List Session}

/-- The pre-pass changes no transmit buffer. -/
theorem Admit.unsent (hS : S.Lawful) (h : Admit now queued st st') : st'.1.unsent = st.1.unsent := by
  cases h with
  | @device c acc slot hs d => exact Core.unsent_same hs { slot with device := d } rfl rfl rfl
  | @spoil c acc slot hs => exact Core.unsent_same hs (slot.withPool slot.tcpPool.tail) rfl rfl rfl
  | leak hb ha => exact Core.unsent_congr rfl
  | @tcp c acc slot key pkt t hs hid hq hp new room ha hl hproto =>
    exact Core.unsent_insert hS hs ((slot.withPool slot.tcpPool.tail).withSocket (.tcp t)) rfl rfl rfl rfl
  | @udpNew c acc slot key pkt u hs hid hq hp new room fresh ha hb =>
    refine Core.unsent_insert hS hs (slot.withSocket (.udp u)) rfl rfl rfl ?_
    exact Core.replies_of_tx _ ((hS.udpBind_ok hb).1.trans (hS.udpNew_ok _ _).1)
  | udpJoin => exact Core.unsent_congr rfl

end PrePass

/-! ### Up to the sweep -/

/-- The session of `k` is there, and a sweep at `now` would leave it. -/
def Core.Alive (c : Core S) (now : Instant) (k : SessionKey) : Prop :=
  ∃ e, c.manager.udp.lookup k = some e ∧ e.expiredAt S now c.config.udpSessionTimeout = false

/-- What the post-pass keeps until its sweep at `now`. -/
structure Core.Carries (now : Instant) (c c' : Core S) : Prop where
  unsent : c'.unsent = c.unsent
  shared : c'.manager.udpDstSockets = c.manager.udpDstSockets
  empty : ∀ {i h}, c.TxEmpty i h → c'.TxEmpty i h
  alive : ∀ {k}, c.Alive now k → c'.Alive now k

section Carries

open WayNetstack.Core

variable {now : Instant} {c c' c'' : Core S}

theorem Core.Carries.trans (h : Carries now c c') (h' : Carries now c' c'') : Carries now c c'' :=
  ⟨h'.unsent.trans h.unsent, h'.shared.trans h.shared, h'.empty ∘ h.empty, h'.alive ∘ h.alive⟩

/-- Neither the slots nor the UDP tables change. -/
theorem Core.Carries.of_eq (hslots : c'.slots = c.slots) (hudp : c'.manager.udp = c.manager.udp)
    (hd : c'.manager.udpDstSockets = c.manager.udpDstSockets) (hconf : c'.config = c.config) :
    Carries now c c' := by
  refine ⟨unsent_congr hslots, hd, fun he => ?_, fun ha => ?_⟩
  · unfold TxEmpty
    rw [socketAt_congr hslots]
    exact he
  · unfold Alive
    rw [hudp, hconf]
    exact ha

theorem ReapTcp.carries {st st' : Core S × ℕ} (h : ReapTcp st st') : Carries now st.1 st'.1 := by
  cases h with
  | @reap c m slot key e t hs hid he ho hget hst =>
    let slot' := (slot.withoutSocket e.handle).withPool
      (if slot.tcpPool.length < slot.tcpPoolMax then slot.tcpPool ++ [t] else slot.tcpPool)
    refine ⟨?_, rfl, fun {i hd} hempty s hsock => ?_, fun ha => ha⟩
    · have hrem : (c.closeTcp slot key e t).unsent + 0 = c.unsent :=
        unsent_remove hs hget slot' rfl rfl rfl
      rw [add_zero] at hrem
      exact hrem
    · have hw : (c.closeTcp slot key e t).socketAt i hd =
          if i = slot.id ∧ hd = e.handle then none else c.socketAt i hd :=
        socketAt_write hs slot' rfl (fun hd => Slab.get?_remove _ e.handle hd) i hd
      rw [hw] at hsock
      split at hsock
      · cases hsock
      · exact hempty s hsock

theorem DrainUdp.carries (h : DrainUdp c c') : Carries now c c' := by
  cases h with
  | @drain slot h u u' hs hget hrx htx hcap =>
    have hreplies : S.replies slot.id (.udp u') = S.replies slot.id (.udp u) := by
      simp only [Smoltcp.replies, htx]
    refine ⟨?_, rfl, fun {i hd} hempty s hsock => ?_, fun ha => ha⟩
    · have hput : (c.setSlot (slot.putSocket h (.udp u'))).unsent + _ = _ :=
        unsent_put hs hget (.udp u') rfl
      rw [hreplies] at hput
      exact add_right_cancel hput
    · rw [socketAt_write hs (slot.putSocket h (.udp u')) rfl (fun hd => Slab.get?_put hget _ hd)] at hsock
      split at hsock
      · next heq =>
        cases hsock
        rintro _ ⟨⟩
        rw [htx]
        exact hempty (.udp u) (by rw [heq.1, heq.2, socketAt_of_slot hs]; exact hget) u rfl
      · exact hempty s hsock

theorem RouteUdp.carries (hS : S.Lawful) (h : RouteUdp now c c') : Carries now c c' := by
  cases h with
  | @push key e data he =>
    refine ⟨unsent_congr rfl, rfl, fun hempty => hempty, ?_⟩
    rintro k ⟨e', he', hfresh⟩
    by_cases hk : k = key
    · -- the session is refreshed
      subst hk
      exact ⟨{ e with lastActivity := now }, by rw [lookup_replace he, if_pos rfl],
        UdpEntry.not_expiredAt_now hS rfl⟩
    · exact ⟨e', by rw [lookup_replace he, if_neg hk]; exact he', hfresh⟩

theorem PostPass.Spec.carries (hS : S.Lawful) {p : PostPass S} (h : PostPass.Spec c now p) :
    Carries now c p.routed := by
  have htcp : Carries now c p.tcp.core :=
    .of_eq (by rw [h.tcp.core]) (by rw [h.tcp.core]) (by rw [h.tcp.core]) (by rw [h.tcp.core])
  have hreaped := run_keeps (P := fun st : Core S × ℕ => Carries now c st.1)
    (fun _ _ hs hp => hp.trans hs.carries) h.reaped htcp
  have hdrained := run_keeps (P := Carries now c) (fun _ _ hs hp => hp.trans hs.carries) h.drained hreaped
  exact run_keeps (P := Carries now c) (fun _ _ hs hp => hp.trans (hs.carries hS)) h.routed hdrained

end Carries

/-! ### Ending sessions -/

section Ends

open WayNetstack.Core

variable {st st' : Core S × ℕ} {streams : List WayTcpStream} {sessions : List WayUdpSession}

/-- The last session of a socket takes along what is in its buffer. -/
theorem EndUdp.unsent_close {c : Core S} {slot : InterfaceSlot S} {key : SessionKey} {e : UdpEntry}
    {u : S.Udp} (hs : c.slot slot.id = some slot)
    (hget : slot.sockets.get? e.socket = some (.udp u)) :
    (c.closeUdp slot key e).unsent + S.replies slot.id (.udp u) = c.unsent :=
  unsent_remove hs hget (slot.withoutSocket e.socket) rfl rfl rfl

/-- Ending a session loses nothing, if a socket that goes with it has an empty buffer. -/
theorem EndUdp.unsent (h : EndUdp st st') (hr : st.1.Registered streams sessions)
    (hempty : ∀ key e n, st.1.manager.udp.lookup key = some e →
      st.1.manager.udpDstSockets.lookup (dstOf key) = some (e.socket, n) → n ≤ 1 →
      st'.1.manager.udpDstSockets.lookup (dstOf key) = none → st.1.TxEmpty key.interface e.socket) :
    st'.1.unsent = st.1.unsent := by
  cases h with
  | leave he hn more => exact unsent_congr rfl
  | @close c m slot key e h n u hs hid he hn last hget =>
    obtain ⟨n', hn'⟩ := hr.udp.counted.held he
    have hsame : (h, n) = (e.socket, n') := Option.some.inj (hn.symm.trans hn')
    obtain ⟨-, rfl⟩ := Prod.mk.inj hsame
    have hgone : (c.closeUdp slot key e).manager.udpDstSockets.lookup (dstOf key) = none := by
      rw [closeUdp, lookup_erase', if_pos rfl]
    have hsock : c.socketAt key.interface e.socket = some (.udp u) := by
      rw [hid, socketAt_of_slot hs, hget]
    have htx : S.udpTx u = [] := hempty key e n he hn' (by omega) hgone (.udp u) hsock u rfl
    have hclose : (c.closeUdp slot key e).unsent + _ = _ := EndUdp.unsent_close hs hget
    rw [replies_of_tx _ htx, add_zero] at hclose
    exact hclose

/-- Ending a session makes no socket, no session and no reply. -/
theorem EndUdp.shrinks (h : EndUdp st st') :
    (∀ d h n, st'.1.manager.udpDstSockets.lookup d = some (h, n) →
      ∃ n', st.1.manager.udpDstSockets.lookup d = some (h, n')) ∧
    (∀ i h, st.1.TxEmpty i h → st'.1.TxEmpty i h) ∧
    (∀ k e, st'.1.manager.udp.lookup k = some e → st.1.manager.udp.lookup k = some e) := by
  cases h with
  | @leave c m key e h n he hn more =>
    refine ⟨fun d h' n' hd => ?_, fun _ _ hempty => hempty, fun k e' hk => (lookup_of_erase hk).2⟩
    rcases lookup_of_replace hn hd with ⟨rfl, heq⟩ | ⟨-, hd⟩
    · cases heq
      exact ⟨n, hn⟩
    · exact ⟨n', hd⟩
  | @close c m slot key e h n u hs hid he hn last hget =>
    refine ⟨fun d h' n' hd => ?_, fun i hd hempty s hsock => ?_, fun k e' hk => (lookup_of_erase hk).2⟩
    · exact ⟨n', (lookup_of_erase hd).2⟩
    · have hw : (c.closeUdp slot key e).socketAt i hd =
          if i = slot.id ∧ hd = e.socket then none else c.socketAt i hd :=
        socketAt_write hs (slot.withoutSocket e.socket) rfl (fun hd => Slab.get?_remove _ e.socket hd) i hd
      rw [hw] at hsock
      split at hsock
      · cases hsock
      · exact hempty s hsock

/-- **A sweep that takes only sockets with empty buffers loses nothing.** Every socket
is empty, or a session of it is there to the end. -/
theorem Ends.unsent (h : ReflTransGen EndUdp st st') (hr : st.1.Registered streams sessions)
    (hkeep : ∀ d h n, st.1.manager.udpDstSockets.lookup d = some (h, n) →
      (∃ k e, st'.1.manager.udp.lookup k = some e ∧ dstOf k = d) ∨ st.1.TxEmpty d.1 h) :
    st'.1.unsent = st.1.unsent := by
  induction h using ReflTransGen.head_induction_on with
  | refl => rfl
  | @head st mid hstep hrun ih =>
    have hr' := hstep.registered hr
    obtain ⟨hshared, hempties, -⟩ := hstep.shrinks
    -- a session that is there in the end is there in between
    have hthere : ∀ k e, st'.1.manager.udp.lookup k = some e → mid.1.manager.udp.lookup k = some e :=
      run_keeps (P := fun s : Core S × ℕ => ∀ k e, s.1.manager.udp.lookup k = some e →
        mid.1.manager.udp.lookup k = some e)
        (fun _ _ hs hp k e hk => hp k e (hs.shrinks.2.2 k e hk)) hrun fun _ _ hk => hk
    have hfirst : mid.1.unsent = st.1.unsent := by
      refine hstep.unsent hr fun key e n he hn hle hgone => ?_
      rcases hkeep _ _ _ hn with ⟨k, e', hk, hdst⟩ | hempty
      · obtain ⟨n', hn'⟩ := hr'.udp.counted.held (hthere k e' hk)
        have hfound : mid.1.manager.udpDstSockets.lookup (dstOf k) = some (e'.socket, n') := hn'
        rw [hdst, hgone] at hfound
        cases hfound
      · exact hempty
    rw [ih hr' fun d h n hd => ?_, hfirst]
    obtain ⟨n', hn'⟩ := hshared d h n hd
    exact (hkeep d h n' hn').imp_right (hempties _ _)

end Ends

/-! ### The condition -/

namespace Core

/-- Should ending the session of `key` take its socket along, the socket's transmit
buffer is empty. -/
def ClosesEmpty (c : Core S) (key : SessionKey) : Prop :=
  ∀ e ∈ c.manager.udp.lookup key, ∀ x ∈ c.manager.udpDstSockets.lookup (dstOf key),
    x.2 ≤ 1 → c.TxEmpty key.interface e.socket

/-- Every shared socket has an empty transmit buffer, or a session that a sweep at
`now` would leave. -/
def SweepsEmpty (now : Instant) (c : Core S) : Prop :=
  ∀ x ∈ c.manager.udpDstSockets.entries, (∃ y ∈ c.manager.udp.entries,
    dstOf y.1 = x.1 ∧ y.2.expiredAt S now c.config.udpSessionTimeout = false) ∨ c.TxEmpty x.1.1 x.2.1

instance (c : Core S) (i : InterfaceId) (h : SocketHandle) : Decidable (c.TxEmpty i h) :=
  inferInstanceAs (Decidable (∀ s ∈ c.socketAt i h, _))

instance (c : Core S) (key : SessionKey) : Decidable (c.ClosesEmpty key) :=
  inferInstanceAs (Decidable (∀ e ∈ c.manager.udp.lookup key, _))

instance (now : Instant) (c : Core S) : Decidable (c.SweepsEmpty now) :=
  inferInstanceAs (Decidable (∀ x ∈ c.manager.udpDstSockets.entries, _))

end Core

/-- Shared sockets go with empty transmit buffers: those whose last session is dropped,
and after the polls of a cycle those whose sessions have all timed out. -/
def World.Flushed (w : World S) : Label S → Prop
  | .dropSession ses => w.core.ClosesEmpty ses.key
  | .cycle now polls =>
    AfterPrePass (fun c => (c.pollSlots polls).SweepsEmpty now) (prePass w.core now).result
  | _ => True

instance (w : World S) : ∀ l, Decidable (w.Flushed l)
  | .dropSession ses => inferInstanceAs (Decidable (w.core.ClosesEmpty ses.key))
  | .cycle now polls => inferInstanceAs (Decidable (World.AfterPrePass
      (fun c => (c.pollSlots polls).SweepsEmpty now) (prePass w.core now).result))
  | .ingress _ | .read _ _ _ | .write _ _ _ | .shutdown _ | .dropStream _ | .send _ _ | .recv _
  | .rehash _ => inferInstanceAs (Decidable True)

/-! ### Runs -/

/-- The replies accepted and those dispatched, in order. -/
structure Ledger where
  sent : List Reply
  dispatched : List Reply
  deriving DecidableEq

/-- Note the replies for which `send` returns `Ok` and those that polls dispatch. -/
def watchReplies : World.Observer S Ledger := fun w l _ m =>
  match l with
  | .send ses payload =>
    match (ses.trySend w.core payload ses.target).result with
    | .ok (_, .sent) => { m with sent := m.sent ++ [(ses.interface, payload, ses.target)] }
    | _ => m
  | .cycle now polls =>
    match (prePass w.core now).result with
    | .ok r => { m with dispatched := m.dispatched ++ r.1.dispatched polls }
    | .error _ => m
  | _ => m

/-- Every reply accepted is in a buffer or dispatched, once. -/
def Conserved (s : World S × Ledger) : Prop :=
  (s.2.sent : Multiset Reply) = s.1.core.unsent + (s.2.dispatched : Multiset Reply)

section Runs

open WayNetstack.Core

variable {w w' : World S} {l : Label S} {m : Ledger} {b : NetstackBuilder S}
  {streams : List WayTcpStream} {sessions : List WayUdpSession}

theorem unsent_drainEgress (c : Core S) : c.drainEgress.1.unsent = c.unsent := by
  unfold Core.unsent sumSlots drainEgress
  rw [List.map_map]
  rfl

/-- What a cycle takes out of the buffers is what its polls dispatch. -/
theorem CycleSpec.unsent (hS : S.Lawful) {c : Core S} {now : Instant}
    {polls : InterfaceId → List (PollEvent S)} {r : Cycle S} (h : CycleSpec c now polls r)
    (hr : c.Registered streams sessions)
    (hlaw : World.PollsObey (fun _ => InterfaceSlot.Dispatches) polls r.admitted.1)
    (hflush : (r.admitted.1.pollSlots polls).SweepsEmpty now) :
    r.core.unsent + (r.admitted.1.dispatched polls : Multiset Reply) = c.unsent := by
  have hadm : r.admitted.1.unsent = c.unsent :=
    run_keeps (P := fun st : Core S × List Session => st.1.unsent = c.unsent)
      (fun _ _ hs hp => (hs.unsent hS).trans hp) h.admitted rfl
  have hcarries := h.post.carries hS
  rw [← h.polled] at hflush
  have hswept : r.post.swept.1.unsent = r.post.routed.unsent := by
    refine Ends.unsent h.post.swept (h.registered hS hr).post.routed fun d hd n hn => ?_
    rw [hcarries.shared] at hn
    rcases hflush _ (lookup_eq_some.mp hn) with ⟨y, hy, hdst, hfresh⟩ | hempty
    · -- its session is alive at the sweep, so it is there afterwards
      obtain ⟨e, he, hfresh'⟩ := hcarries.alive ⟨y.2, lookup_eq_some.mpr hy, hfresh⟩
      refine .inl ⟨y.1, e, ?_, hdst⟩
      rw [h.post.swept_lookup, if_neg fun hmem => ?_, he]
      obtain ⟨e', he', hexp⟩ := mem_expiredKeys.mp hmem
      rw [he, Option.some.injEq] at he'
      rw [he', hexp] at hfresh'
      cases hfresh'
    · exact .inr (hcarries.empty hempty)
  have hpost : r.post.core.unsent = r.post.swept.1.unsent := by
    rw [h.post.settled]
    exact unsent_congr rfl
  rw [h.core, unsent_drainEgress, hpost, hswept, hcarries.unsent, h.polled, unsent_pollSlots hlaw, hadm]

/-- A reply accepted is a reply more in the buffers. -/
theorem SendUdp.unsent_sent (hS : S.Lawful) {ses : WayUdpSession} {payload : Bytes} {c c' : Core S}
    (h : SendUdp ses payload c (c', .sent)) :
    c'.unsent = c.unsent + {(ses.key.interface, payload, ses.target)} := by
  cases h with
  | refused hne => exact absurd rfl hne
  | @sent slot u u' e hs hid hget he hsock hsend =>
    have hput : (c.setSlot (slot.putSocket ses.socket (.udp u'))).unsent + S.replies slot.id (.udp u) =
        c.unsent + S.replies slot.id (.udp u') := unsent_put hs hget (.udp u') rfl
    have htx : S.replies slot.id (.udp u') =
        {(ses.key.interface, payload, ses.target)} + S.replies slot.id (.udp u) := by
      simp only [Smoltcp.replies, (hS.udpSendSlice_ok hsend).1, List.map_append, hid]
      rw [← Multiset.coe_add, add_comm]
      rfl
    rw [htx, ← add_assoc] at hput
    exact add_right_cancel hput

theorem TouchTcp.unsent {R : S.Tcp → S.Tcp → Prop} {st : WayTcpStream} {c c' : Core S}
    (h : TouchTcp R st c c') : c'.unsent = c.unsent := by
  cases h with
  | same => rfl
  | @put slot t t' hs hid hget hR => exact add_right_cancel (unsent_put hs hget (.tcp t') rfl)

theorem DropTcp.unsent {st : WayTcpStream} {c c' : Core S} (h : DropTcp st c c') :
    c'.unsent = c.unsent := by
  cases h with
  | @drop slot t e hs hid hget he hh =>
    exact add_right_cancel (unsent_put hs hget (.tcp (WayTcpStream.closeIfOpen t)) rfl)

/-- A session that is dropped as it should be takes no reply along. -/
theorem DropUdp.unsent {ses : WayUdpSession} {c c' : Core S} (h : DropUdp ses c c')
    (hr : c.Registered streams sessions) (hempty : c.ClosesEmpty ses.key) : c'.unsent = c.unsent := by
  cases h with
  | gone hnone => rfl
  | @ended c₁ n hstep hlook =>
    have hr₁ : c₁.Registered streams sessions := hstep.registered hr
    have hend : c₁.unsent = c.unsent := by
      refine hstep.unsent hr fun key e n he hn hle hgone => ?_
      by_cases hk : key = ses.key
      · subst hk
        exact hempty e he (e.socket, n) hn hle
      · -- another session keeps its socket
        have hkept : c₁.manager.udp.lookup key = some e := by rw [hlook, if_neg hk, he]
        obtain ⟨n', hn'⟩ := hr₁.udp.counted.held hkept
        cases hgone.symm.trans hn'
    exact (unsent_congr rfl).trans hend

/-- **A step that takes only empty buffers conserves the replies.** -/
theorem Conserved.step (hS : S.Lawful) (hw : w.Registered) (hd : w.Does l w')
    (hlaw : w.Polls (fun _ => InterfaceSlot.Dispatches) l) (hflush : w.Flushed l)
    (h : Conserved (w, m)) : Conserved (w', watchReplies w l w' m) := by
  have same : ∀ {c : Core S}, c.unsent = w.core.unsent →
      (m.sent : Multiset Reply) = c.unsent + (m.dispatched : Multiset Reply) := by
    intro c hc
    rw [hc]
    exact h
  cases hd with
  | ingress pkt =>
    rcases queueIngress_eq w.core pkt with heq | ⟨slot, hs, heq⟩
    · exact same (by rw [heq])
    · exact same (by
        rw [heq]
        exact unsent_same hs { slot with device := slot.device.pushIngress pkt.data } rfl rfl rfl)
  | @cycle now polls r result spec =>
    have hpre := prePass_of_pollOnce result
    simp only [World.Flushed, World.AfterPrePass, hpre] at hflush
    have hcycle := spec.unsent hS hw ((World.atPoll_cycle result).mp hlaw) hflush
    simp only [Conserved, watchReplies, hpre, World.afterCycle] at h ⊢
    rw [h, ← hcycle, ← Multiset.coe_add, add_assoc,
      add_comm (r.admitted.1.dispatched polls : Multiset Reply)]
  | read alive touch | write alive touch | shutdown alive touch => exact same touch.unsent
  | dropStream alive drop => exact same drop.unsent
  | @send ses payload r alive result send =>
    obtain ⟨c', outcome⟩ := r
    cases outcome with
    | sent =>
      simp only [Conserved, watchReplies, result] at h ⊢
      rw [← Multiset.coe_add, h, send.unsent_sent hS, hw.session_interface alive, add_right_comm]
      rfl
    | full | failed =>
      simp only [Conserved, watchReplies, result]
      cases send
      exact h
  | recv alive => exact same (unsent_congr (popQueue_frame _ _).1)
  | dropSession alive drop => exact same (drop.unsent hw hflush)
  | rehash => exact same (unsent_congr rfl)

theorem init_conserved (b : NetstackBuilder S) : Conserved (World.init b, ⟨[], []⟩) := by
  have hnone : (World.init b).core.unsent = 0 := by
    refine List.sum_eq_zero fun x hx => ?_
    obtain ⟨slot, hslot, rfl⟩ := List.mem_map.mp hx
    obtain ⟨i, -, rfl⟩ := List.mem_map.mp hslot
    rfl
  simp [Conserved, hnone]

/-- A reply not yet sent is in the transmit buffer of a socket of its interface. -/
theorem exists_of_mem_unsent {c : Core S} (hn : c.ids.Nodup) {d : Reply} (hd : d ∈ c.unsent) :
    ∃ h u, c.socketAt d.1 h = some (.udp u) ∧ d.2 ∈ S.udpTx u := by
  have hbind : d ∈ Multiset.bind (c.slots : Multiset (InterfaceSlot S)) InterfaceSlot.unsent := by
    rw [Multiset.bind, Multiset.map_coe, Multiset.join, Multiset.sum_coe]
    exact hd
  obtain ⟨slot, hslot, hmem⟩ := Multiset.mem_bind.mp hbind
  obtain ⟨h, s, hget, hs⟩ := Slab.exists_of_mem_total hmem
  cases s with
  | tcp t => simp [Smoltcp.replies] at hs
  | udp u =>
    obtain ⟨x, hx, rfl⟩ : ∃ x ∈ S.udpTx u, (slot.id, x) = d := by simpa [Smoltcp.replies] using hs
    refine ⟨h, u, ?_, hx⟩
    rw [socketAt_of_slot (slot_of_mem hn (Multiset.mem_coe.mp hslot)), hget]

/-- A drop that takes a socket with something in its buffer leaves less in the buffers. -/
theorem DropUdp.unsent_ne {ses : WayUdpSession} {c c' : Core S} (h : DropUdp ses c c')
    (hnot : ¬c.ClosesEmpty ses.key) : c'.unsent ≠ c.unsent := by
  obtain ⟨e, he, x, hx, hle, s, hsock, u, hu, htx⟩ : ∃ e, c.manager.udp.lookup ses.key = some e ∧
      ∃ x, c.manager.udpDstSockets.lookup (dstOf ses.key) = some x ∧ x.2 ≤ 1 ∧
      ∃ s, c.socketAt ses.key.interface e.socket = some s ∧ ∃ u, s.udp? = some u ∧ S.udpTx u ≠ [] := by
    simpa [ClosesEmpty, TxEmpty] using hnot
  cases h with
  | gone hnone => cases hnone.symm.trans he
  | @ended c₁ n hstep hlook =>
    -- the session that is ended is the one of the key
    have hkey : ∀ k e', c.manager.udp.lookup k = some e' → c₁.manager.udp.lookup k = none →
        k = ses.key := by
      intro k e' hk hnone
      by_contra hne
      rw [hlook, if_neg hne, hk] at hnone
      cases hnone
    cases hstep with
    | @leave _ _ key e' hd k he' hn more =>
      obtain rfl := hkey key e' he' (by rw [leaveUdp, lookup_erase', if_pos rfl])
      rw [hn, Option.some.injEq] at hx
      subst hx
      omega
    | @close _ _ slot key e' hd k u' hs hid he' hn last hget =>
      obtain rfl := hkey key e' he' (by rw [closeUdp, lookup_erase', if_pos rfl])
      rw [he, Option.some.injEq] at he'
      subst he'
      rw [hid, socketAt_of_slot hs, hget, Option.some.injEq] at hsock
      subst hsock
      cases hu
      intro heq
      have hclose : (c.closeUdp slot ses.key e).unsent + _ = _ := EndUdp.unsent_close hs hget
      have hsame : (c.closeUdp slot ses.key e).unsent = c.unsent := (unsent_congr rfl).trans heq
      rw [hsame, add_eq_left] at hclose
      exact htx (by simpa [Smoltcp.replies] using hclose)

/-- **No accepted reply is discarded**, along every run in which shared sockets go with
empty transmit buffers: the replies for which `send` returned `Ok` are those dispatched
and those still in a buffer, each once; so each is dispatched or in the transmit buffer of
a socket. A drop that takes a socket with something in its buffer loses a reply. -/
theorem accepted_replies_kept (hS : S.Lawful) (b : NetstackBuilder S) {s : World S × Ledger}
    (h : World.Watched watchReplies
      (fun s l => s.1.Polls (fun _ => InterfaceSlot.Dispatches) l ∧ s.1.Flushed l) b ⟨[], []⟩ s) :
    (s.2.sent : Multiset Reply) = s.1.core.unsent + (s.2.dispatched : Multiset Reply) ∧
    (∀ d ∈ s.2.sent, d ∈ s.2.dispatched ∨
      ∃ hd u, s.1.core.socketAt d.1 hd = some (.udp u) ∧ d.2 ∈ S.udpTx u) ∧
    (∀ ses w', World.Steps s.1 (.dropSession ses) w' → ¬s.1.Flushed (.dropSession ses) →
      (s.2.sent : Multiset Reply) ≠ w'.core.unsent + (s.2.dispatched : Multiset Reply)) := by
  obtain ⟨hinv, hcons⟩ : s.1.Inv False b ∧ Conserved s := by
    refine System.Reaches.invariant (P := fun s => s.1.Inv False b ∧ Conserved s) h
      ⟨⟨init_registered b, init_budgeted b False, rfl⟩, init_conserved b⟩ ?_
    rintro s l t - ⟨hinv, hcons⟩ ⟨⟨hlaw, hflush⟩, hstep, hobs⟩
    obtain ⟨hdoes, hinv'⟩ := hinv.step hS False.elim hstep
    obtain ⟨w', m'⟩ := t
    cases hobs
    exact ⟨hinv', hcons.step hS hinv.registered hdoes hlaw hflush⟩
  refine ⟨hcons, fun d hd => ?_, fun ses w' hstep hnot heq => ?_⟩
  · have hmem : d ∈ s.1.core.unsent + (s.2.dispatched : Multiset Reply) :=
      hcons ▸ Multiset.mem_coe.mpr hd
    rcases Multiset.mem_add.mp hmem with hmem | hmem
    · exact .inr (exists_of_mem_unsent hinv.registered.shaped.ids hmem)
    · exact .inl (Multiset.mem_coe.mp hmem)
  · obtain ⟨hdoes, -⟩ := hinv.step hS False.elim hstep
    cases hdoes with
    | dropSession alive drop =>
      refine drop.unsent_ne hnot ?_
      exact add_right_cancel (heq.symm.trans hcons)

end Runs

open Reference in
/-- A reply is sent and dispatched by a cycle, and only then its session is dropped. -/
theorem accepted_replies_kept_flushed : ∃ s : World reference × Ledger, World.Watched watchReplies
      (fun s l => s.1.Polls (fun _ => InterfaceSlot.Dispatches) l ∧ s.1.Flushed l)
      (trial .default) ⟨[], []⟩ s ∧
    s.2.sent = [(eth, [7], client)] ∧ s.1.sessions = [] ∧
    ∀ d ∈ s.2.sent, d ∈ s.2.dispatched ∨
      ∃ hd u, s.1.core.socketAt d.1 hd = some (.udp u) ∧ d.2 ∈ reference.udpTx u := by
  obtain ⟨s, hs, hcheck⟩ := World.exists_watched watchReplies
    (fun s l => s.1.Polls (fun _ => InterfaceSlot.Dispatches) l ∧ s.1.Flushed l) (trial .default) ⟨[], []⟩
    [datagram client [1], cycle 0 [hears 0 [([1], client)]], .send (sessionOf ⟨eth, .udp, client, server⟩ 0 0) [7],
      cycle 1 [.egress 0 (.udp (udpSocket [] [])), .transmit (udpPacket server client [7])],
      .dropSession (sessionOf ⟨eth, .udp, client, server⟩ 0 0)]
    (fun s => decide (s.2.sent = [(eth, [7], client)] ∧ s.1.sessions = [])) (by decide +kernel)
  obtain ⟨hsent, hsessions⟩ := of_decide_eq_true hcheck
  exact ⟨s, hs, hsent, hsessions, (accepted_replies_kept reference_lawful (trial .default) hs).2.1⟩

open Reference in
/-- A session is dropped right after its reply was accepted: the socket goes with the
reply in its buffer, which no poll has dispatched. -/
theorem dropped_session_loses_reply : ∃ s : World reference × Ledger, World.Watched watchReplies
      (fun s l => s.1.Polls (fun _ => InterfaceSlot.Dispatches) l) (trial .default) ⟨[], []⟩ s ∧
    s.2.sent = [(eth, [7], client)] ∧ s.2.dispatched = [] ∧
    ∀ hd, s.1.core.socketAt eth hd = none := by
  obtain ⟨s, hs, hcheck⟩ := World.exists_watched watchReplies
    (fun s l => s.1.Polls (fun _ => InterfaceSlot.Dispatches) l) (trial .default) ⟨[], []⟩
    [datagram client [1], cycle 0 [hears 0 [([1], client)]], .send (sessionOf ⟨eth, .udp, client, server⟩ 0 0) [7],
      .dropSession (sessionOf ⟨eth, .udp, client, server⟩ 0 0)]
    (fun s => decide (s.2.sent = [(eth, [7], client)] ∧ s.2.dispatched = [] ∧
      (s.1.core.slot eth).map (·.sockets) = some ⟨[none]⟩)) (by decide +kernel)
  obtain ⟨hsent, hdisp, hsockets⟩ := of_decide_eq_true hcheck
  obtain ⟨slot, hslot, heq⟩ := Option.map_eq_some_iff.mp hsockets
  refine ⟨s, hs, hsent, hdisp, fun hd => ?_⟩
  rw [Core.socketAt, hslot, Option.bind_some, heq]
  cases hd <;> rfl

end WayNetstack

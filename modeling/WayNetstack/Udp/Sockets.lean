import WayNetstack.Udp.Redistribution
import WayNetstack.Udp.Replies

/-!
# What becomes of shared sockets

The sessions of one destination share a UDP socket, which `udp_dst_sockets` lists under the
destination. `World.Does.sharedFate` says once what can become of such a socket in a step: it is
left alone; an accepted reply is put into its transmit buffer; or, in a cycle, it was there or has
just been bound to the destination, goes through the poll and is drained. The invariants of shared
sockets are read off it.
-/

namespace WayNetstack

open Lib Lib.Table SessionManager Relation

variable {S : Smoltcp}

/-! ### The poll -/

/-- The UDP socket that handle `h` names after an event, if the event is about it. -/
def PollEvent.udpFor (e : PollEvent S) (h : SocketHandle) : Option S.Udp :=
  e.touches.bind fun x => if x.1 = h then x.2.udp? else none

theorem PollEvent.udpFor_eq_some {e : PollEvent S} {h : SocketHandle} {u : S.Udp} :
    e.udpFor h = some u ↔ e.touches = some (h, .udp u) := by
  unfold udpFor
  cases ht : e.touches with
  | none => simp
  | some x =>
    obtain ⟨h', s⟩ := x
    cases s <;> by_cases hh : h' = h <;> simp [hh, Socket.udp?]

namespace InterfaceSlot

variable {slot : InterfaceSlot S} {e : PollEvent S} {h : SocketHandle} {u : S.Udp}

theorem udpAt_eq_some : slot.udpAt h = some u ↔ slot.sockets.get? h = some (.udp u) := by
  unfold udpAt
  cases slot.sockets.get? h with
  | none => simp
  | some s => cases s <;> simp [Socket.udp?]

theorem udpAt_swapSocket (hu : slot.udpAt h = some u) (h' : SocketHandle) (s : S.Socket) :
    (slot.swapSocket h' s).udpAt h = some ((if h' = h then s.udp? else none).getD u) := by
  obtain ⟨s₀, hget, hs₀⟩ := Option.bind_eq_some_iff.mp hu
  cases s₀ with
  | tcp t => cases hs₀
  | udp u₀ =>
    cases hs₀
    unfold swapSocket
    split
    · next hp =>
      obtain ⟨s₁, hget₁, hproto⟩ := Option.map_eq_some_iff.mp hp
      unfold udpAt putSocket
      simp only [Slab.get?_put hget₁]
      by_cases hh : h' = h
      · subst hh
        cases hget.symm.trans hget₁
        cases s with
        | tcp t => cases hproto
        | udp u' => simp [Socket.udp?]
      · rw [if_neg (Ne.symm hh), if_neg hh]
        exact hu
    · next hp =>
      rw [hu]
      by_cases hh : h' = h
      · subst hh
        -- a socket of the other protocol changes nothing
        cases s with
        | tcp t => simp [Socket.udp?]
        | udp u' => exact absurd (by rw [protoAt, hget]; rfl) hp
      · rw [if_neg hh]
        rfl

/-- A UDP socket is what an event makes of it, or is left alone. -/
theorem udpAt_apply (hu : slot.udpAt h = some u) (e : PollEvent S) :
    (slot.apply e).udpAt h = some ((e.udpFor h).getD u) := by
  cases e with
  | receive taken =>
    cases taken with
    | none => exact hu
    | some x =>
      have hpop : slot.popIngress.udpAt h = some u := hu
      exact udpAt_swapSocket hpop x.1 x.2
  | egress h' s => exact udpAt_swapSocket hu h' s
  | transmit data => exact hu
  | internal iface => exact hu

end InterfaceSlot

/-! ### Shared sockets -/

/-- The size of the buffers of a shared socket. -/
def NetstackConfig.udpBuffer (config : NetstackConfig) : ℕ := max config.udpBufferBytes config.mtu

/-- A socket as `alloc_udp` makes it for a destination. -/
def Smoltcp.FreshUdp (S : Smoltcp) (config : NetstackConfig) (dst : IpEndpoint) (u : S.Udp) : Prop :=
  S.udpBind (S.udpNew (max config.udpBufferPackets 1) config.udpBuffer) dst = .ok u

/-- The shared socket of a destination, at its handle. -/
def Core.Shares (c : Core S) (d : InterfaceId × IpEndpoint) (h : SocketHandle) (u : S.Udp) : Prop :=
  ∃ n, c.manager.udpDstSockets.lookup d = some (h, n) ∧ c.socketAt d.1 h = some (.udp u)

/-- `send` of a session returns `Ok`. -/
def WayUdpSession.isSent (ses : WayUdpSession) (c : Core S) (payload : Bytes) : Bool :=
  match (ses.trySend c payload ses.target).result with
  | .ok (_, .sent) => true
  | _ => false

namespace Core

variable {c c' : Core S} {slot : InterfaceSlot S} {d : InterfaceId × IpEndpoint} {h : SocketHandle} {u : S.Udp}

theorem boundUdp_eq_some : c.boundUdp d = some u ↔ ∃ h, c.Shares d h u := by
  unfold boundUdp
  rw [Option.bind_eq_some_iff]
  constructor
  · rintro ⟨⟨h, n⟩, hn, hu⟩
    obtain ⟨s, hs, hsu⟩ := Option.bind_eq_some_iff.mp hu
    cases s with
    | tcp t => cases hsu
    | udp v =>
      cases hsu
      exact ⟨h, n, hn, hs⟩
  · rintro ⟨h, n, hn, hs⟩
    exact ⟨(h, n), hn, by rw [hs]; rfl⟩

/-- Every UDP socket is that of a destination. -/
theorem Registered.shares {streams : List WayTcpStream} {sessions : List WayUdpSession} {i : InterfaceId}
    (hr : c.Registered streams sessions) (hu : c.socketAt i h = some (.udp u)) : ∃ ep, c.Shares (i, ep) h u := by
  obtain ⟨ep, n, hn⟩ := hr.udp.owned (show c.protoAt i h = some .udp by rw [protoAt, hu]; rfl)
  exact ⟨ep, n, hn, hu⟩

/-- No socket is written. -/
theorem Shares.of_same (hu : c'.Shares d h u) (hsock : c'.socketAt = c.socketAt)
    (hshared : ∀ n, c'.manager.udpDstSockets.lookup d = some (h, n) →
      ∃ n', c.manager.udpDstSockets.lookup d = some (h, n')) : c.Shares d h u := by
  obtain ⟨n, hn, hat⟩ := hu
  obtain ⟨n', hn'⟩ := hshared n hn
  exact ⟨n', hn', hsock ▸ hat⟩

/-- A cell is written, and not with a UDP socket. -/
theorem Shares.of_write (hu : c'.Shares d h u) (hs : c.slot slot.id = some slot) (slot' : InterfaceSlot S)
    (hid : slot'.id = slot.id) {hd : SocketHandle} {o : Option S.Socket}
    (hget : ∀ k, slot'.sockets.get? k = if k = hd then o else slot.sockets.get? k)
    (ho : ∀ u, o ≠ some (.udp u)) (hslots : c'.slots = (c.setSlot slot').slots)
    (hshared : ∀ n, c'.manager.udpDstSockets.lookup d = some (h, n) →
      ∃ n', c.manager.udpDstSockets.lookup d = some (h, n')) : c.Shares d h u := by
  obtain ⟨n, hn, hat⟩ := hu
  obtain ⟨n', hn'⟩ := hshared n hn
  rw [socketAt_congr (c := c.setSlot slot') hslots, socketAt_write hs slot' hid hget] at hat
  split at hat
  · exact absurd hat (ho u)
  · exact ⟨n', hn', hat⟩

end Core

section Steps

variable {c c' : Core S} {streams : List WayTcpStream} {sessions : List WayUdpSession}
  {d : InterfaceId × IpEndpoint} {h : SocketHandle} {u : S.Udp}

theorem EndUdp.shares {st st' : Core S × ℕ} (hstep : EndUdp st st') (hu : st'.1.Shares d h u) :
    st.1.Shares d h u := by
  have hshared := hstep.shrinks.1 d h
  cases hstep with
  | leave => exact hu.of_same rfl hshared
  | @close c m slot key e hd n u hs hid he hn last hget =>
    exact hu.of_write hs (slot.withoutSocket e.socket) rfl (o := none)
      (fun k => Slab.get?_remove _ e.socket k) (by simp) rfl hshared

theorem TouchTcp.shares {R : S.Tcp → S.Tcp → Prop} {st : WayTcpStream} (htouch : TouchTcp R st c c')
    (hu : c'.Shares d h u) : c.Shares d h u := by
  cases htouch with
  | same => exact hu
  | @put slot t t' hs hid hget hR =>
    exact hu.of_write hs (slot.putSocket st.handle (.tcp t')) rfl (fun k => Slab.get?_put hget _ k) (by simp) rfl
      fun n hn => ⟨n, hn⟩

theorem DropTcp.shares {st : WayTcpStream} (hdrop : DropTcp st c c') (hu : c'.Shares d h u) : c.Shares d h u := by
  cases hdrop with
  | @drop slot t e hs hid hget he hh =>
    exact hu.of_write hs (slot.putSocket st.handle (.tcp (WayTcpStream.closeIfOpen t))) rfl
      (fun k => Slab.get?_put hget _ k) (by simp) rfl fun n hn => ⟨n, hn⟩

theorem DropUdp.shares {ses : WayUdpSession} (hdrop : DropUdp ses c c') (hu : c'.Shares d h u) :
    c.Shares d h u := by
  cases hdrop with
  | gone => exact hu
  | ended hstep hlook => exact hstep.shares hu

/-- The pre-pass gives up no shared socket. -/
theorem Admit.shared_none {now : Instant} {queued : InterfaceId → Bytes → Prop} {st st' : Core S × List Session}
    (hstep : Admit now queued st st') (hnone : st'.1.manager.udpDstSockets.lookup d = none) :
    st.1.manager.udpDstSockets.lookup d = none := by
  cases hstep with
  | device | spoil | leak | tcp => exact hnone
  | @udpNew c acc slot key pkt u hs hid hq hp new room fresh ha hb =>
    rw [show (c.openUdpNew slot key u now).manager.udpDstSockets.lookup d = _ from
      lookup_insert' _ _ _ _] at hnone
    split at hnone
    · cases hnone
    · exact hnone
  | @udpJoin c acc slot key pkt h n hs hid hq hp new room inUse =>
    rw [show (c.joinUdp key h n now).manager.udpDstSockets.lookup d = _ from lookup_replace inUse _ _] at hnone
    split at hnone
    · cases hnone
    · exact hnone

/-- A shared socket of the pre-pass was there, or has just been bound to its destination. -/
theorem Admit.shares (hS : S.Lawful) {now : Instant} {queued : InterfaceId → Bytes → Prop}
    {st st' : Core S × List Session} (hstep : Admit now queued st st') (hr : st.1.Registered streams sessions)
    (hu : st'.1.Shares d h u) : st.1.Shares d h u ∨
      st.1.manager.udpDstSockets.lookup d = none ∧ S.FreshUdp st.1.config d.2 u := by
  cases hstep with
  | @device c acc slot hs dev =>
    exact .inl (hu.of_same (Core.socketAt_setSlot_same { slot with device := dev } hs rfl) fun n hn => ⟨n, hn⟩)
  | @spoil c acc slot hs =>
    exact .inl (hu.of_same (Core.socketAt_setSlot_same (slot.withPool slot.tcpPool.tail) hs rfl)
      fun n hn => ⟨n, hn⟩)
  | leak => exact .inl hu
  | @tcp c acc slot key pkt t hs hid hq hp new room ha hl hproto =>
    exact .inl (hu.of_write hs ((slot.withPool slot.tcpPool.tail).withSocket (.tcp t)) rfl
      (fun k => Slab.get?_insertAt (hS.freeIndex_free slot.sockets) _ k) (by simp) rfl fun n hn => ⟨n, hn⟩)
  | @udpNew c acc slot key pkt u' hs hid hq hp new room fresh ha hb =>
    obtain ⟨n, hn, hat⟩ := hu
    rw [show (c.openUdpNew slot key u' now).manager.udpDstSockets.lookup d = _ from
      lookup_insert' _ _ _ _] at hn
    rw [show (c.openUdpNew slot key u' now).socketAt d.1 h = _ from
      Core.socketAt_write hs (slot.withSocket (.udp u')) rfl (o := some (.udp u'))
        (fun k => Slab.get?_insertAt (hS.freeIndex_free slot.sockets) _ k) d.1 h] at hat
    split at hn
    · next heq =>
      -- the new socket
      subst heq
      cases hn
      rw [if_pos ⟨hid, rfl⟩] at hat
      cases hat
      rw [(hr.shaped.sizes slot (Core.mem_of_slot hs)).1] at hb
      exact .inr ⟨fresh, hb⟩
    · split at hat
      · next heq =>
        -- the cell of a shared socket is not free
        have hfree := Core.protoAt_freeIndex hS hs
        rw [← heq.1, ← heq.2] at hfree
        have hnamed : c.protoAt d.1 h = some .udp := hr.udp.named hn
        cases hfree.symm.trans hnamed
      · exact .inl ⟨n, hn, hat⟩
  | @udpJoin c acc slot key pkt h' n' hs hid hq hp new room inUse =>
    refine .inl (hu.of_same rfl fun n hn => ?_)
    rcases lookup_of_replace inUse hn with ⟨rfl, heq⟩ | ⟨-, hn⟩
    · cases heq
      exact ⟨n', inUse⟩
    · exact ⟨n, hn⟩

theorem Admits.shares (hS : S.Lawful) {now : Instant} {queued : InterfaceId → Bytes → Prop}
    {st : Core S × List Session} (hrun : ReflTransGen (Admit now queued) (c, []) st)
    (hr : c.Registered streams sessions) (hu : st.1.Shares d h u) : c.Shares d h u ∨
      c.manager.udpDstSockets.lookup d = none ∧ S.FreshUdp c.config d.2 u := by
  have hkeep := run_keeps (P := fun st : Core S × List Session =>
    st.1.Registered streams (sessions ++ st.2.filterMap Session.session?) ∧ st.1.config = c.config ∧
      (st.1.manager.udpDstSockets.lookup d = none → c.manager.udpDstSockets.lookup d = none) ∧
      ∀ u, st.1.Shares d h u → c.Shares d h u ∨
        c.manager.udpDstSockets.lookup d = none ∧ S.FreshUdp c.config d.2 u) ?_ hrun
    ⟨by simpa using hr, rfl, id, fun _ => .inl⟩
  · exact hkeep.2.2.2 u hu
  rintro st st' hstep ⟨hr, hconf, hnone, hold⟩
  refine ⟨hstep.registered hS hr, hstep.config.trans hconf, hnone ∘ hstep.shared_none, fun u hu => ?_⟩
  rcases hstep.shares hS hr hu with hu | ⟨hfresh, hbound⟩
  · exact hold u hu
  · exact .inr ⟨hnone hfresh, hconf ▸ hbound⟩

/-- The post-pass makes no shared socket. -/
theorem PostPass.Spec.shared (hS : S.Lawful) {now : Instant} {p : PostPass S} (h : PostPass.Spec c now p) :
    ∀ d hd n, p.core.manager.udpDstSockets.lookup d = some (hd, n) →
      ∃ n', c.manager.udpDstSockets.lookup d = some (hd, n') := by
  have hswept := run_keeps (P := fun st : Core S × ℕ => ∀ d hd n,
      st.1.manager.udpDstSockets.lookup d = some (hd, n) →
      ∃ n', p.routed.manager.udpDstSockets.lookup d = some (hd, n'))
    (fun _ _ hstep hp d hd n hn => by
      obtain ⟨n', hn'⟩ := hstep.shrinks.1 d hd n hn
      exact hp d hd n' hn') h.swept fun _ _ n hn => ⟨n, hn⟩
  rw [(h.carries hS).shared] at hswept
  rw [h.settled]
  exact hswept

/-- A step in which the shared socket of `d` is left alone: no cycle, and no reply of one of its
sessions is accepted. -/
def World.Spares (w : World S) (d : InterfaceId × IpEndpoint) : Label S → Prop
  | .cycle _ _ => False
  | .send ses payload => dstOf ses.key = d → ses.isSent w.core payload = false
  | _ => True

/-- How a socket came to be the shared socket of `d` in a step. -/
inductive World.SharedFate (w : World S) (d : InterfaceId × IpEndpoint) (h : SocketHandle) : Label S → S.Udp → Prop
  | kept {l : Label S} {u : S.Udp} (spares : w.Spares d l) (hu : w.core.Shares d h u) : SharedFate w d h l u
  | sent {ses : WayUdpSession} {payload : Bytes} {u u' : S.Udp} (hd : dstOf ses.key = d)
    (hi : ses.interface = d.1) (hh : ses.socket = h) (hsent : ses.isSent w.core payload = true)
    (hu : w.core.Shares d h u) (hsend : S.udpSendSlice u payload ses.target = .ok u') :
    SharedFate w d h (.send ses payload) u'
  | polled {now : Instant} {polls : InterfaceId → List (PollEvent S)} {st : Core S × List Session} {n : ℕ}
    {slot : InterfaceSlot S} {u v : S.Udp} (hpre : (prePass w.core now).result = .ok st)
    (hn : st.1.manager.udpDstSockets.lookup d = some (h, n)) (hs : st.1.slot d.1 = some slot)
    (hu : slot.udpAt h = some u) (hold : w.core.Shares d h u ∨
      w.core.manager.udpDstSockets.lookup d = none ∧ S.FreshUdp w.core.config d.2 u)
    (hv : (slot.poll (polls d.1)).udpAt h = some v) : SharedFate w d h (.cycle now polls) (S.drained v)

theorem Cycle.Outcome.sharedFate (hS : S.Lawful) {w : World S} {now : Instant}
    {polls : InterfaceId → List (PollEvent S)} {r : Cycle S} (hr : (pollOnce w.core now polls).result = .ok r)
    (hout : r.Outcome w.core now polls) (hspec : CycleSpec w.core now polls r) (hw : w.Registered)
    (hu : r.core.Shares d h u) : w.SharedFate d h (.cycle now polls) u := by
  obtain ⟨n, hn, hat⟩ := hu
  rw [hout.core] at hn hat
  rw [Core.socketAt_drainEgress] at hat
  obtain ⟨v, hv, rfl⟩ := hout.post.udp_drained hat
  obtain ⟨n', hn'⟩ := hspec.post.shared hS d h n hn
  rw [hout.polled] at hv hn'
  have hn' : r.admitted.1.manager.udpDstSockets.lookup d = some (h, n') := hn'
  obtain ⟨slot, u₀, hs, hget⟩ := Core.exists_udp ((hspec.registered hS hw).admitted.udp.named hn')
  rw [Core.socketAt_pollSlots hs] at hv
  exact .polled (prePass_of_pollOnce hr) hn' hs (InterfaceSlot.udpAt_eq_some.mpr hget)
    (Admits.shares hS hspec.admitted hw ⟨n', hn', by rw [Core.socketAt, hs]; exact hget⟩)
    (InterfaceSlot.udpAt_eq_some.mpr hv)

theorem SendUdp.sharedFate {w : World S} {ses : WayUdpSession} {payload : Bytes} {r : Core S × SendOutcome}
    (hsend : SendUdp ses payload w.core r) (hw : w.Registered) (alive : ses ∈ w.sessions)
    (result : (ses.trySend w.core payload ses.target).result = .ok r) (hu : r.1.Shares d h u) :
    w.SharedFate d h (.send ses payload) u := by
  have hint := Core.Registered.session_interface hw alive
  have hsent : ses.isSent w.core payload = decide (r.2 = .sent) := by
    obtain ⟨c', outcome⟩ := r
    unfold WayUdpSession.isSent
    rw [result]
    cases outcome <;> rfl
  cases hsend with
  | refused hne => exact .kept (fun _ => by rw [hsent]; exact decide_eq_false hne) hu
  | @sent slot u₀ u₁ e hs hid hget he hsock hsend =>
    obtain ⟨m, hm⟩ := hw.udp.counted.held he
    have hm : w.core.manager.udpDstSockets.lookup (dstOf ses.key) = some (ses.socket, m) := hsock ▸ hm
    obtain ⟨n, hn, hat⟩ := hu
    have hn : w.core.manager.udpDstSockets.lookup d = some (h, n) := hn
    rw [Core.socketAt_write hs (slot.putSocket ses.socket (.udp u₁)) rfl
      (fun k => Slab.get?_put hget _ k)] at hat
    split at hat
    · next heq =>
      -- the socket is that of the session, so the destination is too
      obtain ⟨i, ep⟩ := d
      obtain ⟨hi, rfl⟩ := heq
      obtain rfl : i = ses.key.interface := hi.trans hid.symm
      obtain rfl : ses.key.dst = ep := hw.udp.inj hm hn
      cases hat
      refine .sent rfl hint rfl (hsent.trans rfl) ⟨n, hn, ?_⟩ hsend
      rw [hid, Core.socketAt_of_slot hs]
      exact hget
    · next hne =>
      refine .kept (fun hd => ?_) ⟨n, hn, hat⟩
      subst hd
      cases hm.symm.trans hn
      exact absurd ⟨hid, rfl⟩ hne

/-- **What becomes of shared sockets in a step.** -/
theorem World.Does.sharedFate (hS : S.Lawful) {w w' : World S} {l : Label S} (hdoes : w.Does l w')
    (hw : w.Registered) (hu : w'.core.Shares d h u) : w.SharedFate d h l u := by
  cases hdoes with
  | ingress pkt =>
    rcases queueIngress_eq w.core pkt with heq | ⟨slot, hs, heq⟩
    · simp only [heq] at hu
      exact .kept trivial hu
    · simp only [heq] at hu
      exact .kept trivial (hu.of_same (Core.socketAt_setSlot_same
        { slot with device := slot.device.pushIngress pkt.data } hs rfl) fun n hn => ⟨n, hn⟩)
  | @cycle now polls r result spec =>
    obtain ⟨r', hr', hout, -⟩ := pollOnce_outcome hS hw now polls
    cases result.symm.trans hr'
    exact hout.sharedFate hS result spec hw hu
  | read alive touch | write alive touch | shutdown alive touch => exact .kept trivial (touch.shares hu)
  | dropStream alive drop => exact .kept trivial (drop.shares hu)
  | send alive result send => exact send.sharedFate hw alive result hu
  | @recv ses alive =>
    obtain ⟨hslots, hm, -⟩ := popQueue_frame ses w.core
    exact .kept trivial (hu.of_same (Core.socketAt_congr hslots) fun n hn => ⟨n, hm ▸ hn⟩)
  | dropSession alive drop => exact .kept trivial (drop.shares hu)
  | rehash same =>
    exact .kept trivial (hu.of_same rfl fun n hn => ⟨n, (same.udpDstSockets.lookup d).trans hn⟩)

end Steps

end WayNetstack

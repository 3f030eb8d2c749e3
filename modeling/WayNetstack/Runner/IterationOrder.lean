import WayNetstack.Registry.Views
import WayNetstack.Registry.Runs

/-!
# The order of hash maps

The loops of the post-pass visit `manager.tcp`, `manager.udp` and `udp_dst_sockets`, in the
order the hash maps happen to have. `postPass_order_irrelevant`: **nothing of the result
depends on it** but the order of the sessions surfaced and of the sockets that go to a pool.
-/

namespace WayNetstack

open Lib Lib.Table SessionManager

variable {S : Smoltcp} {c : Core S} {m : SessionManager} {streams : List WayTcpStream}
  {sessions : List WayUdpSession}

theorem Core.Registered.rehash (hr : c.Registered streams sessions) (hm : c.manager.Rehashed m) :
    { c with manager := m }.Registered streams sessions :=
  ⟨hr.shaped.congr rfl rfl, hr.tcp.rehashed hm.tcp, hr.udp.rehashed hm.udp hm.udpDstSockets⟩

/-- The sessions surfaced come in the order of the table. -/
theorem TcpBook.surfaced_perm {t t' : Table SessionKey TcpEntry} (h : Reordered t t')
    (socket : SessionKey → TcpEntry → State) :
    (TcpBook.surfaced t socket).Perm (TcpBook.surfaced t' socket) :=
  (h.filter _).map _

section Order

variable {now : Instant} {p p' : PostPass S}

/-- The queues do not depend on the order. -/
theorem PostPass.Outcome.queues_rehash (h : PostPass.Outcome c now p)
    (h' : PostPass.Outcome { c with manager := m } now p') (hm : c.manager.Rehashed m) :
    p.core.queues = p'.core.queues := by
  have hview := Core.view_rehash hm
  refine List.ext_getElem? fun q => ?_
  by_cases hq : ∃ k e, c.manager.udp.lookup k = some e ∧ e.queue = q
  · obtain ⟨k, e, he, rfl⟩ := hq
    have hset : c.settled now k e = { c with manager := m }.settled now k e := by
      unfold Core.settled
      rw [Core.heldFor_of_view (hview k.interface)]
    rw [h.queue he, h'.queue (hm.udp.lookup k ▸ he), hset, Core.heldFor_of_view (hview k.interface)]
  · push Not at hq
    rw [h.otherQueue hq, h'.otherQueue fun k e he => hq k e ((hm.udp.lookup k).symm ▸ he)]

/-- **The order of the tables does not matter to the post-pass**: from a core in order and
from the same core with its tables in another order it ends with the same tables, the same
queues, the same sockets, pools as long and the same count of bytes, and has surfaced the
same sessions in some order. -/
theorem postPass_order_irrelevant (hS : S.Lawful) (hr : c.Registered streams sessions)
    (hm : c.manager.Rehashed m) (now : Instant) :
    ∃ p p', (postPass c now).result = .ok p ∧ (postPass { c with manager := m } now).result = .ok p' ∧
      p.core.manager.Rehashed p'.core.manager ∧
      p.core.queues = p'.core.queues ∧
      p.core.socketAt = p'.core.socketAt ∧
      (∀ id, (p.core.slot id).map (·.tcpPool.length) = (p'.core.slot id).map (·.tcpPool.length)) ∧
      p.core.bufferBytes = p'.core.bufferBytes ∧
      p.tcp.accepted.Perm p'.tcp.accepted := by
  have hview := Core.view_rehash hm
  obtain ⟨p, hp, hout, hreg⟩ := postPass_outcome hS hr now
  obtain ⟨p', hp', hout', hreg'⟩ := postPass_outcome hS (hr.rehash hm) now
  have hsame : ∀ id, (p.core.view id).withoutPool = (p'.core.view id).withoutPool :=
    fun id => hout.view_congr hout' hreg hreg' rfl (hview id)
  have hmanager : p.core.manager.Rehashed p'.core.manager := by
    refine ⟨reordered_of_lookup fun k => ?_, reordered_of_lookup fun k => ?_, reordered_of_lookup fun d => ?_⟩
    · exact hout.tcp_congr hout' (hview k.interface)
    · rw [hout.udp, hout'.udp, ← hm.udp.lookup]
      congr 1
      funext e
      unfold Core.settled
      rw [Core.heldFor_of_view (hview k.interface)]
    · exact congrFun (congrArg InterfaceView.shared (hsame d.1)) d.2
  have hslot : ∀ id, (p.core.slot id).map (·.withPool []) = (p'.core.slot id).map (·.withPool []) :=
    fun id => congrArg InterfaceView.slot (hsame id)
  refine ⟨p, p', hp, hp', hmanager, hout.queues_rehash hout' hm, ?_, fun id => ?_, ?_, ?_⟩
  · funext id hd
    have := congrArg (fun o : Option (InterfaceSlot S) => o.bind fun slot => slot.sockets.get? hd) (hslot id)
    rw [Option.bind_map, Option.bind_map] at this
    exact this
  · exact hout.pool_length hout' (hview id)
  · have hcharge : p.core.charge = p'.core.charge := by
      unfold Core.charge
      rw [hmanager.tcp.len, hmanager.udpDstSockets.len, hout.config, hout'.config]
    have hcharge' : c.charge = { c with manager := m }.charge := by
      unfold Core.charge
      rw [hm.tcp.len, hm.udpDstSockets.len]
    rw [hout.bufferBytes, hout'.bufferBytes, hcharge, hcharge']
  · rw [hout.accepted, hout'.accepted]
    exact (TcpBook.surfaced_perm hm.tcp _).map _

end Order

open Reference in
/-- Two connections are reaped in either order: two sockets come to the pool. -/
theorem postPass_order_irrelevant_reaped : ∃ (c : Core reference) (m : SessionManager)
    (p p' : PostPass reference), c.manager.Rehashed m ∧ c.manager.tcp.entries ≠ m.tcp.entries ∧
    (postPass c 2).result = .ok p ∧ (postPass { c with manager := m } 2).result = .ok p' ∧
    p.core.manager.Rehashed p'.core.manager ∧ p.core.socketAt = p'.core.socketAt ∧
    (p.core.slot eth).map (·.tcpPool.length) = (p'.core.slot eth).map (·.tcpPool.length) := by
  obtain ⟨w, hw, hcheck⟩ := World.exists_of_run (fun _ _ => True) (trial .default) dropTwo
    (fun w => decide (w.core.manager.tcp.entries ≠ w.core.manager.tcp.reverse.entries)) (by decide +kernel)
  have hreg : w.Registered := (World.Reachable.inv reference_lawful False.elim hw).registered
  let c := w.core.pollSlots fun _ => resetTwo
  have hm : c.manager.Rehashed { c.manager with tcp := c.manager.tcp.reverse } :=
    ⟨reordered_reverse _, .refl _, .refl _⟩
  obtain ⟨p, p', hp, hp', hmanager, -, hsockets, hpool, -⟩ :=
    postPass_order_irrelevant reference_lawful (hreg.pollSlots _) hm 2
  exact ⟨c, _, p, p', hm, of_decide_eq_true hcheck, hp, hp', hmanager, hsockets, hpool eth⟩

end WayNetstack

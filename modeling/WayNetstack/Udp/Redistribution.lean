import WayNetstack.Registry.Outcome
import WayNetstack.Registry.Runs

/-!
# Redistribution

One socket receives for all the sessions of a destination, and the post-pass gives each
session what its own source has sent. `redistribution_exact`: **nothing is lost,
duplicated, reordered or misplaced**. Whatever the shared sockets hold when the post-pass
starts, their buffers are empty when it ends, and the queue of each session has got exactly
the datagrams of its source, in the order of the buffer; a session that has got one is not
swept.
-/

namespace WayNetstack

open Lib Lib.Table SessionManager

variable {S : Smoltcp} {c : Core S} {streams : List WayTcpStream} {sessions : List WayUdpSession}
  {now : Instant} {p : PostPass S}

/-- The datagrams of a buffer that have come from `src`. -/
def datagramsFrom (src : IpEndpoint) (rx : List (Bytes × IpEndpoint)) : List Bytes :=
  (rx.filter fun d => decide (d.2 = src)).map (·.1)

/-- What is held for a session, by the socket of its destination. -/
theorem Core.heldFor_eq {i : InterfaceId} {src dst : IpEndpoint} {h : SocketHandle} {n : ℕ} {u : S.Udp}
    (hn : c.manager.udpDstSockets.lookup (i, dst) = some (h, n))
    (hu : c.socketAt i h = some (.udp u)) :
    c.heldFor ⟨i, .udp, src, dst⟩ = datagramsFrom src (S.udpRx u) := by
  have hbound : c.boundUdp (dstOf ⟨i, .udp, src, dst⟩) = some u := by
    unfold boundUdp dstOf
    rw [hn, Option.bind_some, hu]
    rfl
  unfold heldFor
  rw [if_pos rfl, hbound]
  rfl

/-- An entry that has got a datagram is touched, and not swept; another is as it was. -/
theorem Core.settled_eq (hS : S.Lawful) (c : Core S) (now : Instant) (k : SessionKey) (e : UdpEntry) :
    (c.heldFor k ≠ [] → c.settled now k e = some { e with lastActivity := now }) ∧
    (c.heldFor k = [] → ∀ e', c.settled now k e = some e' → e' = e) := by
  unfold settled
  constructor
  · intro hheld
    simp [hheld, UdpEntry.not_expiredAt_now (e := { e with lastActivity := now }) hS rfl]
  · intro hheld e' he'
    simp only [if_pos hheld] at he'
    split at he'
    · cases he'
    · exact (Option.some.inj he').symm

/-- A UDP socket left has been drained. -/
theorem PostPass.Outcome.udp_drained (h : PostPass.Outcome c now p) {i : InterfaceId} {hd : SocketHandle}
    {u : S.Udp} (hu : p.core.socketAt i hd = some (.udp u)) :
    ∃ v, c.socketAt i hd = some (.udp v) ∧ u = S.drained v := by
  obtain ⟨slot', hs', hu⟩ := Option.bind_eq_some_iff.mp hu
  obtain ⟨slot, hs⟩ := Core.exists_slot.mpr (h.ids ▸ Core.exists_slot.mp ⟨slot', hs'⟩)
  obtain ⟨slot₁, hs₁, -, hthin⟩ := h.slot i slot hs
  obtain rfl : slot₁ = slot' := Option.some.inj (hs₁.symm.trans hs')
  have hmap := hthin.get?_of_some hu
  rw [Slab.get?_map, Option.map_eq_some_iff] at hmap
  obtain ⟨s, hget, hdrain⟩ := hmap
  cases s with
  | tcp t => cases hdrain
  | udp v =>
    cases hdrain
    exact ⟨v, by rw [Core.socketAt, hs]; exact hget, rfl⟩

/-- The UDP sockets left have nothing in their receive buffers. -/
theorem PostPass.Outcome.rx_nil (hS : S.Lawful) (h : PostPass.Outcome c now p)
    {i : InterfaceId} {hd : SocketHandle} {u : S.Udp}
    (hu : p.core.socketAt i hd = some (.udp u)) : S.udpRx u = [] := by
  obtain ⟨v, -, rfl⟩ := h.udp_drained hu
  exact (drainUdp_drained hS v).2.1

/-- The socket of a session's destination, and its queue. -/
theorem Core.Registered.udp_entry (hr : c.Registered streams sessions) {k : SessionKey} {e : UdpEntry}
    (he : c.manager.udp.lookup k = some e) :
    ∃ n u q, c.manager.udpDstSockets.lookup (k.interface, k.dst) = some (e.socket, n) ∧
      c.socketAt k.interface e.socket = some (.udp u) ∧ c.queues[e.queue]? = some q ∧
      q.closed = false := by
  obtain ⟨n, hn⟩ := hr.udp.counted.held he
  obtain ⟨slot, u, hs, hget⟩ := Core.exists_udp (hr.udp.named hn)
  have hopen : (c.queues.map (·.closed))[e.queue]? = some false := hr.udp.isOpen he
  rw [List.getElem?_map, Option.map_eq_some_iff] at hopen
  obtain ⟨q, hq, hclosed⟩ := hopen
  exact ⟨n, u, q, hn, by rw [Core.socketAt, hs]; exact hget, hq, hclosed⟩

/-- **Redistribution is exact.** From every core in order, whatever its sockets hold, the
post-pass ends, and
* every receive buffer is empty;
* the queue of the session of `src` and `dst` has got the datagrams from `src` that the
  socket of `dst` held, in order; if there were any, the session was active now and is not
  swept, and otherwise its last activity, if it is not swept, is as it was;
* no other queue has got anything;
* a datagram whose session has an entry is in that session's queue: only one without an
  entry is discarded. -/
theorem redistribution_exact (hS : S.Lawful) (hr : c.Registered streams sessions) (now : Instant) :
    ∃ p, (postPass c now).result = .ok p ∧
      (∀ i hd u, p.core.socketAt i hd = some (.udp u) → S.udpRx u = []) ∧
      (∀ i src dst e, c.manager.udp.lookup ⟨i, .udp, src, dst⟩ = some e → ∃ n u q q',
        c.manager.udpDstSockets.lookup (i, dst) = some (e.socket, n) ∧
        c.socketAt i e.socket = some (.udp u) ∧
        c.queues[e.queue]? = some q ∧ p.core.queues[e.queue]? = some q' ∧
        q'.inner = q.inner ++ datagramsFrom src (S.udpRx u) ∧
        (datagramsFrom src (S.udpRx u) ≠ [] →
          p.core.manager.udp.lookup ⟨i, .udp, src, dst⟩ = some { e with lastActivity := now }) ∧
        (datagramsFrom src (S.udpRx u) = [] → ∀ e',
          p.core.manager.udp.lookup ⟨i, .udp, src, dst⟩ = some e' → e' = e)) ∧
      (∀ r : QueueRef, (∀ i src dst e, c.manager.udp.lookup ⟨i, .udp, src, dst⟩ = some e → e.queue ≠ r) →
        (p.core.queues[r]?).map (·.inner) = (c.queues[r]?).map (·.inner)) ∧
      (∀ i dst hd n u d e, c.manager.udpDstSockets.lookup (i, dst) = some (hd, n) →
        c.socketAt i hd = some (.udp u) → d ∈ S.udpRx u →
        c.manager.udp.lookup ⟨i, .udp, d.2, dst⟩ = some e →
        ∃ q', p.core.queues[e.queue]? = some q' ∧ d.1 ∈ q'.inner) := by
  obtain ⟨p, hp, hout, -⟩ := postPass_outcome hS hr now
  have hqueue : ∀ {k e q}, c.manager.udp.lookup k = some e → c.queues[e.queue]? = some q →
      ∃ q', p.core.queues[e.queue]? = some q' ∧ q'.inner = q.inner ++ c.heldFor k := by
    intro k e q he hq
    rw [hout.queue he, hq]
    exact ⟨_, rfl, rfl⟩
  refine ⟨p, hp, fun i hd u hu => ?_, fun i src dst e he => ?_, fun r hr => ?_, ?_⟩
  · exact hout.rx_nil hS hu
  · obtain ⟨n, u, q, hn, hu, hq, -⟩ := hr.udp_entry he
    obtain ⟨q', hq', hinner⟩ := hqueue he hq
    have hlook : p.core.manager.udp.lookup ⟨i, .udp, src, dst⟩ = c.settled now ⟨i, .udp, src, dst⟩ e := by
      rw [hout.udp, he, Option.bind_some]
    have hsettled := Core.settled_eq hS c now ⟨i, .udp, src, dst⟩ e
    rw [Core.heldFor_eq hn hu] at hinner hsettled
    rw [hlook]
    exact ⟨n, u, q, q', hn, hu, hq, hq', hinner, hsettled⟩
  · by_cases hany : ∃ k e, c.manager.udp.lookup k = some e ∧ e.queue = r
    · -- an entry that is not of a UDP session: nothing is held for it
      obtain ⟨k, e, he, rfl⟩ := hany
      have hk : k.proto ≠ .udp := by
        obtain ⟨i, proto, src, dst⟩ := k
        rintro rfl
        exact hr i src dst e he rfl
      have hheld : c.heldFor k = [] := if_neg hk
      rw [hout.queue he, hheld, Option.map_map]
      simp [Function.comp_def]
    · push Not at hany
      rw [hout.otherQueue hany]
  · intro i dst hd n u d e hn hu hd' he
    obtain ⟨-, -, q, -, -, hq, -⟩ := hr.udp_entry he
    obtain ⟨q', hq', hinner⟩ := hqueue he hq
    refine ⟨q', hq', ?_⟩
    rw [hinner, Core.heldFor_eq hn hu]
    refine List.mem_append_right _ (List.mem_map.mpr ⟨d, ?_, rfl⟩)
    exact List.mem_filter.mpr ⟨hd', decide_eq_true rfl⟩

/-- A poll after which the socket of the server holds datagrams of three sources. -/
def Reference.mixed : InterfaceId → List (PollEvent reference) :=
  fun _ => [.receive (some (0, .udp (udpSocket [([1], client), ([2], client₂), ([3], server), ([4], client)] [])))]

open Reference in
/-- Two clients have sessions to one destination, and their datagrams are mixed in its
socket's buffer: each session gets its own, and those of a third source go nowhere. -/
theorem redistribution_exact_mixed : ∃ (w : World reference) (p : PostPass reference),
    World.AnyRun (trial .default) w ∧ (postPass (w.core.pollSlots mixed) 5).result = .ok p ∧
    (∃ q, p.core.queues[0]? = some q ∧ q.inner = [[1], [4]]) ∧
    (∃ q, p.core.queues[1]? = some q ∧ q.inner = [[2]]) := by
  obtain ⟨w, hw, hcheck⟩ := World.exists_of_run (fun _ _ => True) (trial .default)
    [datagram client [0], datagram client₂ [0], cycle 0 [.receive none, .receive none]]
    (fun w => decide (w.core.manager.udp.lookup ⟨eth, .udp, client, server⟩ = some ⟨0, 0, 0⟩ ∧
      w.core.manager.udp.lookup ⟨eth, .udp, client₂, server⟩ = some ⟨0, 1, 0⟩ ∧
      (∀ q ∈ w.core.queues, q.inner = []) ∧ (w.core.pollSlots mixed).socketAt eth 0 =
        some (.udp (udpSocket [([1], client), ([2], client₂), ([3], server), ([4], client)] []))))
    (by decide +kernel)
  obtain ⟨hfirst, hsecond, hempty, hsock⟩ := of_decide_eq_true hcheck
  have hreg : w.Registered := (World.Reachable.inv reference_lawful False.elim hw).registered
  obtain ⟨p, hp, -, hqueue, -⟩ := redistribution_exact reference_lawful (hreg.pollSlots mixed) 5
  -- what a session with an entry has got
  have hgot : ∀ (src : IpEndpoint) (e : UdpEntry),
      w.core.manager.udp.lookup ⟨eth, .udp, src, server⟩ = some e → e.socket = 0 →
      ∃ q, p.core.queues[e.queue]? = some q ∧ q.inner =
        datagramsFrom src [([1], client), ([2], client₂), ([3], server), ([4], client)] := by
    intro src e he hzero
    obtain ⟨-, u, q, q', -, hu, hq, hq', hinner, -⟩ := hqueue eth src server e he
    rw [hzero, hsock, Option.some.injEq, Socket.udp.injEq] at hu
    rw [← hu, hempty q (List.mem_of_getElem? hq)] at hinner
    exact ⟨q', hq', hinner⟩
  exact ⟨w, p, hw, hp, hgot client _ hfirst rfl, hgot client₂ _ hsecond rfl⟩

end WayNetstack

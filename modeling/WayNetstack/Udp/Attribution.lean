import WayNetstack.Udp.Demux
import WayNetstack.Registry.Runs

/-!
# Whose datagrams a session gets

A session is keyed by an interface, a source and a destination, and what it receives is
meant to be what came from that source for that destination on that interface. The post-pass
does not know the destination of a datagram: it goes by the endpoint of the socket that has
taken it. The two agree for every datagram to a single host. One to a broadcast or multicast
address is taken by the first socket with its port, and if its sender has a session with
that socket's endpoint, that session gets it.

`datagrams_attributed`: **every datagram that reaches a queue belongs there**, along every
run in which that does not happen (`DatagramAtHome`). The observer `watchArrivals` notes
what reaches the queues, and misses nothing.
-/

namespace WayNetstack

open Lib Lib.Table Lib.Traced SessionManager

variable {S : Smoltcp}

/-- A datagram for a broadcast or multicast address is taken by the socket bound to it, or by
one with whose endpoint the datagram's sender has no session. -/
def DatagramAtHome (D : Demux S) (c : Core S) (slot : InterfaceSlot S) (e : PollEvent S) : Prop :=
  ∀ d ∈ slot.arriving D e, D.isGroup slot.iface d.dst.addr = true → ∀ h ∈ slot.udpAcceptor D d,
    ∀ u ∈ slot.udpAt h, ∀ ep ∈ D.endpoint u,
      ep = d.dst ∨ c.manager.udp.lookup ⟨slot.id, .udp, d.src, ep⟩ = none

instance (D : Demux S) (c : Core S) (slot : InterfaceSlot S) (e : PollEvent S) :
    Decidable (DatagramAtHome D c slot e) := inferInstanceAs (Decidable (∀ d ∈ slot.arriving D e, _))

/-- A datagram that has arrived on an interface. -/
structure Arrival where
  interface : InterfaceId
  datagram : Datagram
  deriving DecidableEq

/-- The arrival belongs to the session of the key. -/
def Arrival.BelongsTo (a : Arrival) (k : SessionKey) : Prop :=
  k.interface = a.interface ∧ k.src = a.datagram.src ∧ k.dst = a.datagram.dst

/-! ### What reaches the queues -/

namespace Core

variable (D : Demux S) (polls : InterfaceId → List (PollEvent S))

/-- The datagrams that polls bring to the session of a key: those from its source that the
socket of its destination takes. -/
def broughtTo (c : Core S) (k : SessionKey) : List Arrival :=
  if k.proto = .udp then
    match c.manager.udpDstSockets.lookup (dstOf k), c.slot k.interface with
    | some (h, _), some slot =>
      ((slot.taken D h (polls k.interface)).filter fun d => decide (d.src = k.src)).map (⟨slot.id, ·⟩)
    | _, _ => []
  else []

/-- The datagrams that polls bring to the sessions. -/
def arrivals (c : Core S) : List (SessionKey × Arrival) :=
  c.manager.udp.entries.flatMap fun x => (c.broughtTo D polls x.1).map fun a => (x.1, a)

variable {D} {polls} {c : Core S} {streams : List WayTcpStream} {sessions : List WayUdpSession}
  {k : SessionKey} {e : UdpEntry}

/-- What is noted for a session. -/
theorem arrivals_of (he : c.manager.udp.lookup k = some e) :
    (c.arrivals D polls).filter (fun x => decide (x.1 = k)) = (c.broughtTo D polls k).map fun a => (k, a) := by
  unfold arrivals
  rw [List.filter_flatMap,
    flatMap_of_unique (List.Nodup.of_map _ c.manager.udp.nodupKeys) (lookup_eq_some.mp he)]
  · exact List.filter_eq_self.mpr (by simp)
  · rintro ⟨k', e'⟩ hx hne
    refine List.filter_eq_nil_iff.mpr ?_
    rintro _ hmem hk
    obtain ⟨a, -, rfl⟩ := List.mem_map.mp hmem
    obtain rfl : k' = k := of_decide_eq_true hk
    cases he.symm.trans (lookup_eq_some.mpr hx)
    exact hne rfl

/-- **What polls bring to a session is what the post-pass finds for it.** -/
theorem heldFor_pollSlots (ht : c.Tidy D) (hr : c.Registered streams sessions)
    (hlaw : World.PollsObey (fun _ => InterfaceSlot.Demuxes D) polls c)
    (he : c.manager.udp.lookup k = some e) :
    (c.pollSlots polls).heldFor k = (c.broughtTo D polls k).map (·.datagram.payload) := by
  obtain ⟨i, proto, src, dst⟩ := k
  cases proto with
  | tcp => rfl
  | udp =>
    obtain ⟨n, hn⟩ := hr.udp.counted.held he
    obtain ⟨slot, u', hs, hu', -, hrx⟩ :=
      ht.poll hr hlaw (show c.manager.udpDstSockets.lookup (i, dst) = _ from hn)
    have hn' : (c.pollSlots polls).manager.udpDstSockets.lookup (i, dst) = some (e.socket, n) := hn
    rw [heldFor_eq hn' hu', hrx, broughtTo, if_pos rfl]
    simp only [show c.manager.udpDstSockets.lookup (dstOf ⟨i, .udp, src, dst⟩) = _ from hn, hs]
    unfold datagramsFrom
    rw [List.filter_map, List.map_map, List.map_map]
    rfl

/-- What is brought to a session has its source and has come on its interface. -/
theorem mem_broughtTo {a : Arrival} (ha : a ∈ c.broughtTo D polls k) :
    k.proto = .udp ∧ ∃ h n slot, c.manager.udpDstSockets.lookup (dstOf k) = some (h, n) ∧
      c.slot k.interface = some slot ∧ a.datagram ∈ slot.taken D h (polls k.interface) ∧
      a.datagram.src = k.src ∧ a.interface = k.interface := by
  unfold broughtTo at ha
  split at ha
  · next hproto =>
    split at ha
    · next h n slot hn hs =>
      obtain ⟨d, hd, rfl⟩ := List.mem_map.mp ha
      rw [List.mem_filter, decide_eq_true_eq] at hd
      exact ⟨hproto, h, n, slot, hn, hs, hd.1, hd.2, id_of_slot hs⟩
    · cases ha
  · cases ha

end Core

/-! ### Datagrams at home -/

section Home

variable {D : Demux S} {c : Core S} {slot : InterfaceSlot S} {h : SocketHandle} {u : S.Udp}
  {ep : IpEndpoint}

/-- A socket that accepts a datagram is bound to its destination, or the destination is a
group. -/
theorem Demux.eq_or_isGroup {d : Datagram} (hacc : slot.udpAcceptor D d = some h)
    (hu : slot.udpAt h = some u) (hep : D.endpoint u = some ep) :
    ep = d.dst ∨ D.isGroup slot.iface d.dst.addr = true := by
  have hany := List.find?_some hacc
  simp only [hu, Option.any_some, Demux.accepts, hep, Bool.and_eq_true, decide_eq_true_eq,
    Bool.or_eq_true] at hany
  obtain ⟨hport, haddr | hgroup⟩ := hany
  · refine .inl ?_
    obtain ⟨addr, port⟩ := ep
    cases haddr
    cases hport
    rfl
  · exact .inr hgroup

/-- What a socket takes from a sender that has a session with its endpoint is for it. -/
theorem InterfaceSlot.taken_home {es : List (PollEvent S)} (hlaw : slot.Obeys (Demuxes D) es)
    (hhome : slot.Obeys (DatagramAtHome D c) es) (hu : slot.udpAt h = some u)
    (hep : D.endpoint u = some ep) : ∀ d ∈ slot.taken D h es,
      c.manager.udp.lookup ⟨slot.id, .udp, d.src, ep⟩ ≠ none → ep = d.dst := by
  induction es generalizing slot u with
  | nil => exact fun d hd => absurd hd List.not_mem_nil
  | cons e es ih =>
    intro d hd hsession
    obtain ⟨u₁, hu₁, hend₁, -, hgains⟩ := hlaw.1.gains hu
    rcases List.mem_append.mp hd with hd | hd
    · obtain ⟨harr, hacc⟩ := hgains d hd
      rcases Demux.eq_or_isGroup hacc hu hep with heq | hgroup
      · exact heq
      · exact (hhome.1 d harr hgroup h hacc u hu ep hep).resolve_right hsession
    · exact ih hlaw.2 hhome.2 hu₁ (hend₁.trans hep) d hd (id_apply slot e ▸ hsession)

end Home

/-! ### Runs -/

/-- Note what the polls of a cycle bring to the sessions. -/
def watchArrivals (D : Demux S) : World.Observer S (List (SessionKey × Arrival)) := fun w l _ m =>
  match l with
  | .cycle now polls =>
    match (prePass w.core now).result with
    | .ok st => m ++ st.1.arrivals D polls
    | .error _ => m
  | _ => m

/-- The engine gives datagrams to sockets as documented. -/
abbrev World.Demuxes (D : Demux S) (w : World S) (l : Label S) : Prop :=
  w.Polls (fun _ => InterfaceSlot.Demuxes D) l

section Runs

variable {D : Demux S} {b : NetstackBuilder S}

theorem init_tidy (D : Demux S) (b : NetstackBuilder S) : (World.init b).core.Tidy D :=
  fun _ _ _ _ _ hn => by cases hn

/-- What arrives in a cycle belongs where it arrives. -/
theorem CycleSpec.attributed (hS : S.Lawful) (hD : D.Lawful) {c : Core S} {now : Instant}
    {polls : InterfaceId → List (PollEvent S)} {r : Cycle S} {streams : List WayTcpStream}
    {sessions : List WayUdpSession} (h : CycleSpec c now polls r) (hr : c.Registered streams sessions)
    (ht : c.Tidy D) (hlaw : World.PollsObey (fun _ => InterfaceSlot.Demuxes D) polls r.admitted.1)
    (hhome : World.PollsObey (DatagramAtHome D) polls r.admitted.1) :
    ∀ x ∈ r.admitted.1.arrivals D polls, x.2.BelongsTo x.1 := by
  have hadm : r.admitted.1.Tidy D := Admits.tidy hS hD h.admitted hr ht
  have hradm := (h.registered hS hr).admitted
  rintro x hx
  obtain ⟨⟨k, e⟩, hmem, hx⟩ := List.mem_flatMap.mp hx
  obtain ⟨a, ha, rfl⟩ := List.mem_map.mp hx
  obtain ⟨hproto, hd, n, slot, hn, hs, htaken, hsrc, hid⟩ := Core.mem_broughtTo ha
  obtain ⟨slot', u, hs', hget⟩ := Core.exists_udp (hradm.udp.named hn)
  obtain rfl : slot = slot' := Option.some.inj (hs.symm.trans hs')
  have hsock : r.admitted.1.socketAt k.interface hd = some (.udp u) := by
    rw [Core.socketAt, hs]
    exact hget
  have hslot := Core.id_of_slot hs
  have hdst := InterfaceSlot.taken_home (hslot ▸ hlaw slot (Core.mem_of_slot hs))
    (hslot ▸ hhome slot (Core.mem_of_slot hs)) (InterfaceSlot.udpAt_eq_some.mpr hget)
    (hadm k.interface k.dst hd n u hn hsock).1 a.datagram htaken
  refine ⟨hid.symm, hsrc.symm, hdst ?_⟩
  -- the key is the one under which the sender has its session
  have hkey : (⟨slot.id, .udp, a.datagram.src, k.dst⟩ : SessionKey) = k := by
    rw [hslot, hsrc, ← hproto]
  rw [hkey, lookup_eq_some.mpr hmem]
  simp

theorem World.Reachable.tidy (hS : S.Lawful) (hD : D.Lawful) {w : World S}
    (h : World.Reachable (fun w l => w.Demuxes D l) b w) : w.core.Tidy D := by
  refine System.Reaches.invariant (P := fun w => w.core.Tidy D) h (init_tidy D b) ?_
  rintro w l w' hw ht ⟨hlaw, hstep⟩
  have hinv : w.Inv False b := World.Reachable.inv hS False.elim hw
  exact (hinv.step hS False.elim hstep).1.tidy hS hD hinv.registered hlaw ht

/-- A datagram goes to the session that its sender has with the endpoint of the socket that
takes it. -/
theorem Core.Tidy.mem_arrivals {c : Core S} {streams : List WayTcpStream} {sessions : List WayUdpSession}
    {polls : InterfaceId → List (PollEvent S)} (ht : c.Tidy D) (hr : c.Registered streams sessions)
    {slot : InterfaceSlot S} (hslot : slot ∈ c.slots) {h : SocketHandle} {u : S.Udp} {ep : IpEndpoint}
    (hu : slot.udpAt h = some u) (hep : D.endpoint u = some ep) {d : Datagram}
    (hd : d ∈ slot.taken D h (polls slot.id))
    (hsession : c.manager.udp.lookup ⟨slot.id, .udp, d.src, ep⟩ ≠ none) :
    (⟨slot.id, .udp, d.src, ep⟩, ⟨slot.id, d⟩) ∈ c.arrivals D polls := by
  have hs := Core.slot_of_mem hr.shaped.ids hslot
  have hsock : c.socketAt slot.id h = some (.udp u) := by
    rw [Core.socketAt_of_slot hs]
    exact InterfaceSlot.udpAt_eq_some.mp hu
  -- the socket is listed under the endpoint it is bound to
  obtain ⟨ep', n, hn⟩ : ∃ ep' n, c.manager.udpDstSockets.lookup (slot.id, ep') = some (h, n) :=
    hr.udp.owned (show c.protoAt slot.id h = some .udp by rw [Core.protoAt, hsock]; rfl)
  obtain rfl : ep' = ep := Option.some.inj ((ht slot.id ep' h n u hn hsock).1.symm.trans hep)
  obtain ⟨e, he⟩ := Option.ne_none_iff_exists'.mp hsession
  refine List.mem_flatMap.mpr ⟨_, lookup_eq_some.mp he, List.mem_map_of_mem ?_⟩
  unfold Core.broughtTo
  rw [if_pos rfl]
  simp only [show c.manager.udpDstSockets.lookup (dstOf ⟨slot.id, .udp, d.src, ep'⟩) = _ from hn, hs]
  exact List.mem_map_of_mem (List.mem_filter.mpr ⟨hd, decide_eq_true rfl⟩)

/-- **Datagrams are attributed to the session they are for.**
* Along every run in which the engine gives datagrams to sockets as documented, and in which
  no datagram for a group is taken by the socket of another destination that its sender has a
  session with: each datagram that has reached a queue is from the source, for the destination
  and of the interface of the queue's session.
* What is noted is what reaches the queues: in a cycle of any run with such an engine, the
  queue of a session gets the datagrams noted for it, in order, and no other queue gets any.
* A datagram taken by the socket of another destination that its sender has a session with
  is noted for that session. -/
theorem datagrams_attributed (hS : S.Lawful) (hD : D.Lawful) (b : NetstackBuilder S) :
    (∀ s, World.Watched (watchArrivals D) (fun s l => s.1.Demuxes D l ∧ s.1.Polls (DatagramAtHome D) l) b [] s →
      ∀ x ∈ s.2, x.1.interface = x.2.interface ∧ x.1.src = x.2.datagram.src ∧ x.1.dst = x.2.datagram.dst) ∧
    (∀ w now polls, World.Reachable (fun w l => w.Demuxes D l) b w → w.Demuxes D (.cycle now polls) →
      ∃ r, (pollOnce w.core now polls).result = .ok r ∧
        (∀ m, watchArrivals D w (.cycle now polls) (w.afterCycle r) m = m ++ r.admitted.1.arrivals D polls) ∧
        (∀ k e, r.admitted.1.manager.udp.lookup k = some e →
          ∃ q q', r.admitted.1.queues[e.queue]? = some q ∧ r.core.queues[e.queue]? = some q' ∧
            q'.inner = q.inner ++ ((r.admitted.1.arrivals D polls).filter fun x => decide (x.1 = k)).map
              (·.2.datagram.payload)) ∧
        (∀ q : QueueRef, (∀ k e, r.admitted.1.manager.udp.lookup k = some e → e.queue ≠ q) →
          r.core.queues[q]? = r.admitted.1.queues[q]?) ∧
        (∀ slot ∈ r.admitted.1.slots, ∀ h u ep, slot.udpAt h = some u → D.endpoint u = some ep →
          ∀ d ∈ slot.taken D h (polls slot.id),
            r.admitted.1.manager.udp.lookup ⟨slot.id, .udp, d.src, ep⟩ ≠ none →
            (⟨slot.id, .udp, d.src, ep⟩, ⟨slot.id, d⟩) ∈ r.admitted.1.arrivals D polls)) := by
  constructor
  · intro s hs
    refine (System.Reaches.invariant (P := fun s => s.1.Inv False b ∧ ∀ x ∈ s.2, x.2.BelongsTo x.1) hs
      ⟨⟨init_registered b, init_budgeted b False, rfl⟩, fun _ h => absurd h List.not_mem_nil⟩ ?_).2
    rintro ⟨w, m⟩ l ⟨w', m'⟩ hpre ⟨hw, hall⟩ ⟨⟨hlaw, hhome⟩, hstep, hobs⟩
    obtain ⟨hdoes, hw'⟩ := hw.step hS False.elim hstep
    have ht : w.core.Tidy D := World.Reachable.tidy hS hD (System.Reaches.forget (fun _ _ h => h.1) hpre)
    refine ⟨hw', ?_⟩
    cases hobs
    cases hdoes with
    | @cycle now polls r result spec =>
      simp only [prePass_of_pollOnce result]
      refine List.forall_mem_append.mpr ⟨hall, ?_⟩
      exact spec.attributed hS hD hw.registered ht ((World.atPoll_cycle result).mp hlaw)
        ((World.atPoll_cycle result).mp hhome)
    | _ => exact hall
  · intro w now polls hw hlaw
    have hinv : w.Inv False b := World.Reachable.inv hS False.elim hw
    obtain ⟨r, result, hout, -⟩ := pollOnce_outcome hS hinv.registered now polls
    have hspec := ((pollOnce_ok hS False.elim hinv.registered hinv.budgeted now polls).post result).1
    have ht : r.admitted.1.Tidy D := Admits.tidy hS hD hspec.admitted hinv.registered (hw.tidy hS hD)
    have hr := (hspec.registered hS hinv.registered).admitted
    have hdemux := (World.atPoll_cycle result).mp hlaw
    have hcore : r.core.queues = r.post.core.queues := by
      rw [hout.core]
      rfl
    refine ⟨r, result, fun m => by simp only [watchArrivals, prePass_of_pollOnce result], fun k e he => ?_,
      fun q hq => ?_, fun slot hslot h u ep hu hep d hd => ht.mem_arrivals hr hslot hu hep hd⟩
    · obtain ⟨-, -, q, -, -, hq, -⟩ := hr.udp_entry he
      have hqueue := hout.post.queue (k := k) (e := e) (by rw [hout.polled]; exact he)
      rw [hout.polled, show (r.admitted.1.pollSlots polls).queues[e.queue]? = some q from hq,
        Option.map_some, Core.heldFor_pollSlots ht hr hdemux he] at hqueue
      rw [← hcore] at hqueue
      refine ⟨q, _, hq, hqueue, ?_⟩
      rw [Core.arrivals_of he, List.map_map]
      rfl
    · have hother := hout.post.otherQueue (q := q) (by rw [hout.polled]; exact hq)
      rw [hout.polled, ← hcore] at hother
      exact hother

end Runs

namespace Reference

/-- A multicast group. -/
def group : IpEndpoint := ⟨.v4 0xe0000001, 80⟩

/-- The shared socket of the group with the given receive buffer. -/
def groupSocket (rx : List (Bytes × IpEndpoint)) : reference.Udp := (⟨some group, 16, 16384, rx, []⟩ : Udp)

/-- The client's session with the server. -/
def serverKey : SessionKey := ⟨eth, .udp, client, server⟩

/-- The client's session with the group. -/
def groupKey : SessionKey := ⟨eth, .udp, client, group⟩

end Reference

open Reference in
/-- A client sends to a group and then to the server: each session gets its own. -/
theorem datagrams_attributed_group : ∃ s : World reference × List (SessionKey × Arrival),
    World.Watched (watchArrivals demux)
      (fun s l => s.1.Demuxes demux l ∧ s.1.Polls (DatagramAtHome demux) l) (trial .default) [] s ∧
    groupKey ∈ s.2.map Prod.fst ∧ serverKey ∈ s.2.map Prod.fst ∧
    ∀ x ∈ s.2, x.1.interface = x.2.interface ∧ x.1.src = x.2.datagram.src ∧ x.1.dst = x.2.datagram.dst := by
  obtain ⟨s, hs, hcheck⟩ := World.exists_watched (watchArrivals demux)
    (fun s l => s.1.Demuxes demux l ∧ s.1.Polls (DatagramAtHome demux) l) (trial .default) []
    [.ingress ⟨eth, udpPacket client group [1]⟩, datagram client [2],
      cycle 0 [.receive (some (0, .udp (groupSocket [([1], client)]))),
        hears 1 [([2], client)]]]
    (fun s => decide (groupKey ∈ s.2.map Prod.fst ∧ serverKey ∈ s.2.map Prod.fst)) (by decide +kernel)
  obtain ⟨hgroup, hserver⟩ := of_decide_eq_true hcheck
  exact ⟨s, hs, hgroup, hserver,
    (datagrams_attributed reference_lawful demux_lawful (trial .default)).1 s hs⟩

open Reference in
/-- A client has a session with the server and sends to a group, on the same port. The
datagram comes to the queue of its session with the server, and that of the session made
for it stays empty. -/
theorem datagram_astray : ∃ s : World reference × List (SessionKey × Arrival),
    World.Watched (watchArrivals demux) (fun s l => s.1.Demuxes demux l) (trial .default) [] s ∧
    s.1.core.manager.udp.lookup groupKey ≠ none ∧
    (serverKey, ⟨eth, ⟨client, group, [7]⟩⟩) ∈ s.2 ∧ serverKey.dst ≠ group ∧
    (s.1.core.manager.udp.lookup serverKey).map (·.queue) = some 0 ∧
    s.1.core.queues.map (·.inner) = [[[1], [7]], []] := by
  obtain ⟨s, hs, hcheck⟩ := World.exists_watched (watchArrivals demux)
    (fun s l => s.1.Demuxes demux l) (trial .default) []
    [datagram client [1], cycle 0 [hears 0 [([1], client)]],
      .ingress ⟨eth, udpPacket client group [7]⟩,
      cycle 1 [hears 0 [([7], client)]]]
    (fun s => decide (s.1.core.manager.udp.lookup groupKey ≠ none ∧
      (serverKey, (⟨eth, ⟨client, group, [7]⟩⟩ : Arrival)) ∈ s.2 ∧
      (s.1.core.manager.udp.lookup serverKey).map (·.queue) = some 0 ∧
      s.1.core.queues.map (·.inner) = [[[1], [7]], []])) (by decide +kernel)
  obtain ⟨hsession, hmem, hqueue, hinner⟩ := of_decide_eq_true hcheck
  exact ⟨s, hs, hsession, hmem, by decide, hqueue, hinner⟩

end WayNetstack

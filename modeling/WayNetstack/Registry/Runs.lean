import WayNetstack.Registry.Steps
import WayNetstack.Reference

/-!
# Whole runs: handles, reference counts, budget

What holds in every world that a run reaches, whatever the order of cycles, stream
operations, session operations and drops:

* `handles_safe` — no call on a socket set is made with a handle that is free or
  that names a socket of the other protocol;
* `udp_references_exact` — the reference counts of the shared UDP sockets are the
  numbers of their sessions, and the UDP sockets are those of the map;
* `budget_exact` — the bytes counted are those of the entries and shared sockets,
  and no release takes more than is there.
-/

namespace WayNetstack

open Lib Lib.Table Lib.Traced SessionManager Relation

variable {S : Smoltcp}

/-! ### The invariant of runs -/

/-- A stack just built has no sockets. -/
theorem init_protoAt (b : NetstackBuilder S) (i : InterfaceId) (h : SocketHandle) :
    (World.init b).core.protoAt i h = none := by
  unfold Core.protoAt Core.socketAt
  cases hs : (World.init b).core.slot i with
  | none => rfl
  | some slot =>
    obtain ⟨x, -, rfl⟩ := List.mem_map.mp (Core.mem_of_slot hs)
    rfl

theorem init_tcpBook (b : NetstackBuilder S) : (World.init b).core.tcpBook [] = .empty := by
  simp only [Core.tcpBook, init_protoAt, reduceCtorEq]
  rfl

theorem init_udpBook (b : NetstackBuilder S) : (World.init b).core.udpBook [] = .empty := by
  simp only [Core.udpBook, init_protoAt, reduceCtorEq]
  rfl

theorem init_shaped (b : NetstackBuilder S) : (World.init b).core.Shaped := by
  constructor
  · have hids : (World.init b).core.ids = b.interfaces.map Prod.fst := by
      unfold Core.ids World.init NetstackBuilder.build
      rw [List.map_map]
      rfl
    rw [hids]
    exact b.distinct
  · intro slot hslot
    obtain ⟨x, -, rfl⟩ := List.mem_map.mp hslot
    exact ⟨rfl, rfl⟩

theorem init_registered (b : NetstackBuilder S) : (World.init b).Registered where
  shaped := init_shaped b
  tcp := (init_tcpBook b).symm ▸ TcpBook.inv_empty
  udp := (init_udpBook b).symm ▸ UdpBook.inv_empty

theorem init_budgeted (b : NetstackBuilder S) (exact : Prop) :
    (World.init b).core.Budgeted exact 0 :=
  ⟨fun _ => by simp [World.init, NetstackBuilder.build, Core.charge, SessionManager.empty, len],
    fun _ _ => Nat.zero_le _⟩

/-- What every world of a run satisfies. -/
structure World.Inv (exact : Prop) (b : NetstackBuilder S) (w : World S) : Prop where
  registered : w.Registered
  budgeted : w.core.Budgeted exact 0
  config : w.core.config = b.config

variable {ok : World S → Label S → Prop} {exact : Prop} {b : NetstackBuilder S} {w w' : World S}
  {l : Label S}

/-- What a step did, and the world it leads to. -/
theorem World.Inv.step (hS : S.Lawful) (hx : exact → S.Binds) (hw : w.Inv exact b)
    (h : Steps w l w') : w.Does l w' ∧ w'.Inv exact b := by
  obtain ⟨hdoes, hb⟩ := (World.step_ok hS hx hw.registered hw.budgeted h.1).post h.2
  have hreg := (hdoes.evolves hS hw.registered).registered hw.registered
  exact ⟨hdoes, hreg, hb, hdoes.config.trans hw.config⟩

/-- **Every world of a run is in order.** -/
theorem World.Reachable.inv (hS : S.Lawful) (hx : exact → S.Binds) (h : Reachable ok b w) :
    w.Inv exact b :=
  System.Reaches.invariant h ⟨init_registered b, init_budgeted b exact, rfl⟩
    fun _ _ _ _ hw hstep => (hw.step hS hx hstep.2).2

/-- **The stack refines the accounts.** Whatever a run does to the core, the streams and
the sessions, each account gets by steps of its own from empty to that of the world
reached. -/
theorem World.Reachable.refines (hS : S.Lawful) (h : Reachable ok b w) :
    ReflTransGen TcpBook.Step .empty (w.core.tcpBook w.streams) ∧
      ReflTransGen UdpBook.Step .empty (w.core.udpBook w.sessions) := by
  have start : (init b).Evolves (init b) := .refl (init_registered b)
  have hev : (init b).Evolves w := by
    refine System.Reaches.invariant h start fun s l t hs hev hstep => ?_
    have hw : s.Inv False b := World.Reachable.inv hS False.elim hs
    exact hev.trans ((hw.step hS False.elim hstep.2).1.evolves hS hw.registered)
  exact ⟨init_tcpBook b ▸ hev.tcp, init_udpBook b ▸ hev.udp⟩

/-- **The stack simulates the accounts.** In every world a run reaches, the accounts read off the
core, the streams and the sessions can be reached from the empty ones by their own steps; and
every step that can be taken ends in a world whose accounts follow from these by their own
steps. -/
theorem registry_simulates (hS : S.Lawful) (h : World.AnyRun b w) :
    (ReflTransGen TcpBook.Step .empty (w.core.tcpBook w.streams) ∧
      ReflTransGen UdpBook.Step .empty (w.core.udpBook w.sessions)) ∧
    ∀ l, w.Enabled l → ∃ w', World.Steps w l w' ∧
      ReflTransGen TcpBook.Step (w.core.tcpBook w.streams) (w'.core.tcpBook w'.streams) ∧
      ReflTransGen UdpBook.Step (w.core.udpBook w.sessions) (w'.core.udpBook w'.sessions) := by
  refine ⟨World.Reachable.refines hS h, fun l hen => ?_⟩
  have hw : w.Inv False b := World.Reachable.inv hS False.elim h
  obtain ⟨⟨w', hw', -⟩, -⟩ := World.step_ok hS False.elim hw.registered hw.budgeted hen
  have hev := (hw.step hS False.elim ⟨hen, hw'⟩).1.evolves hS hw.registered
  exact ⟨w', ⟨hen, hw'⟩, hev.tcp, hev.udp⟩

open Reference in
/-- The accounts of a run that has opened a stream and a session. -/
theorem registry_simulates_openBoth : ∃ w : World reference, World.AnyRun (trial .default) w ∧
    w.streams.length = 1 ∧ w.sessions.length = 1 ∧
    ReflTransGen TcpBook.Step .empty (w.core.tcpBook w.streams) ∧
    ReflTransGen UdpBook.Step .empty (w.core.udpBook w.sessions) := by
  obtain ⟨w, hw, hcheck⟩ := World.exists_of_run (fun _ _ => True) (trial .default) openBoth
    (fun w => decide (w.streams.length = 1 ∧ w.sessions.length = 1)) (by decide +kernel)
  obtain ⟨hstreams, hsessions⟩ := of_decide_eq_true hcheck
  exact ⟨w, hw, hstreams, hsessions, (registry_simulates reference_lawful hw).1⟩

/-! ### Handles -/

/-- A call on a socket set finds a socket of the protocol it expects. -/
def Call.FindsSocket : Call → Prop
  | .getMut _ _ expected found | .remove _ _ expected found => found = some expected
  | .release _ _ => True

/-- **No call is ever made with a bad handle.** In every world a run reaches, every
step that can be taken ends, and each of its `get_mut` and `remove` calls finds a
socket of the right protocol. The handle of a live stream names the TCP socket of
the stream's own entry, and no two live streams share an entry; the handle of a
session whose queue is open names a UDP socket, and a closed session does not use
its handle; the handles in the tables name sockets of their protocols. -/
theorem handles_safe (hS : S.Lawful) (h : World.AnyRun b w) :
    (∀ l, w.Enabled l → (∃ w', (w.step l).result = .ok w') ∧
      ∀ call ∈ (w.step l).calls, call.FindsSocket) ∧
    (∀ st ∈ w.streams, w.core.protoAt st.interface st.handle = some .tcp ∧
      ∃ e, w.core.manager.tcp.lookup st.key = some e ∧ e.handle = st.handle ∧
        st.interface = st.key.interface) ∧
    (w.streams.map (·.key)).Nodup ∧
    (∀ ses ∈ w.sessions, w.core.queues.isClosed ses.queue = false →
      w.core.protoAt ses.interface ses.socket = some .udp) ∧
    (∀ ses ∈ w.sessions, w.core.queues.isClosed ses.queue = true →
      ∀ payload target, (ses.trySend w.core payload target).calls = []) ∧
    (∀ k e, w.core.manager.tcp.lookup k = some e →
      w.core.protoAt k.interface e.handle = some .tcp) ∧
    (∀ k e, w.core.manager.udp.lookup k = some e →
      w.core.protoAt k.interface e.socket = some .udp) ∧
    (∀ i ep hd n, w.core.manager.udpDstSockets.lookup (i, ep) = some (hd, n) →
      w.core.protoAt i hd = some .udp) := by
  have hw : w.Inv False b := World.Reachable.inv hS False.elim h
  refine ⟨?_, ?_, hw.registered.tcp.distinct, ?_, ?_, ?_, ?_, ?_⟩
  · intro l hen
    obtain ⟨⟨w', hw', -⟩, hcalls⟩ := World.step_ok hS False.elim hw.registered hw.budgeted hen
    refine ⟨⟨w', hw'⟩, fun call hcall => ?_⟩
    have hgood := hcalls call hcall
    cases call with
    | getMut | remove => exact hgood
    | release => trivial
  · intro st hst
    obtain ⟨e, he, heq, -, -⟩ := hw.registered.tcp.stream hst
    have hnamed : w.core.protoAt st.key.interface e.handle = some .tcp := hw.registered.tcp.named he
    rw [heq]
    exact ⟨hnamed, e, he, rfl, rfl⟩
  · intro ses hses hopen
    obtain ⟨e, he, -, hsock⟩ := hw.registered.session_entry hses hopen
    have hnamed : w.core.protoAt ses.key.interface e.socket = some .udp :=
      hw.registered.udp.entry_named he
    rw [hw.registered.session_interface hses, ← hsock]
    exact hnamed
  · intro ses _ hclosed payload target
    unfold WayUdpSession.trySend
    rw [if_pos hclosed]
    rfl
  · exact fun k e he => hw.registered.tcp.named he
  · exact fun k e he => hw.registered.udp.entry_named he
  · exact fun i ep hd n hn => hw.registered.udp.named hn

open Reference in
/-- A run with a live stream and a live session. -/
theorem handles_safe_openBoth : ∃ w : World reference, World.AnyRun (trial .default) w ∧
    w.streams.length = 1 ∧ w.sessions.length = 1 ∧
    ∀ st ∈ w.streams, w.core.protoAt st.interface st.handle = some .tcp := by
  obtain ⟨w, hw, hcheck⟩ := World.exists_of_run (fun _ _ => True) (trial .default) openBoth
    (fun w => decide (w.streams.length = 1 ∧ w.sessions.length = 1))
    (by decide +kernel)
  have hlen := of_decide_eq_true hcheck
  exact ⟨w, hw, hlen.1, hlen.2, fun st hst => ((handles_safe reference_lawful hw).2.1 st hst).1⟩

/-! ### Reference counts -/

/-- The number of UDP sessions of an interface and destination. -/
def SessionManager.sessionsOf (m : SessionManager) (i : InterfaceId) (ep : IpEndpoint) : ℕ :=
  (m.udp.entries.filter fun e => decide (e.1.interface = i ∧ e.1.dst = ep)).length

theorem SessionManager.sessionsOf_eq (m : SessionManager) (i : InterfaceId) (ep : IpEndpoint) :
    m.sessionsOf i ep = holdersOf dstOf m.udp (i, ep) := by
  unfold SessionManager.sessionsOf holdersOf countKeys AList.keys List.keys
  rw [List.countP_map, List.countP_eq_length_filter]
  congr 1
  refine List.filter_congr fun e _ => ?_
  simp [dstOf]

/-- **The reference counts are exact.** In every world a run reaches, the map of
shared sockets has a destination exactly when some session has it, its count is the
number of these sessions, each of them uses the map's socket, and the UDP sockets of
the interface are exactly the sockets of the map. -/
theorem udp_references_exact (hS : S.Lawful) (h : World.AnyRun b w) (i : InterfaceId)
    (ep : IpEndpoint) :
    ((∃ hd n, w.core.manager.udpDstSockets.lookup (i, ep) = some (hd, n)) ↔
      ∃ k e, w.core.manager.udp.lookup k = some e ∧ k.interface = i ∧ k.dst = ep) ∧
    (∀ hd n, w.core.manager.udpDstSockets.lookup (i, ep) = some (hd, n) →
      n = w.core.manager.sessionsOf i ep ∧
      ∀ k e, w.core.manager.udp.lookup k = some e → k.interface = i → k.dst = ep → e.socket = hd) ∧
    (∀ hd, w.core.protoAt i hd = some .udp ↔
      ∃ ep' n, w.core.manager.udpDstSockets.lookup (i, ep') = some (hd, n)) := by
  have hinv : w.Inv False b := World.Reachable.inv hS False.elim h
  have hudp := hinv.registered.udp
  have hcounted : w.core.manager.RefsExact := hudp.counted
  refine ⟨?_, ?_, ?_⟩
  · rw [hcounted.lookup_isSome_iff (i, ep)]
    simp [dstOf]
  · intro hd n hn
    refine ⟨by rw [sessionsOf_eq]; exact hcounted.count hn, fun k e he hi hep => ?_⟩
    obtain ⟨m, hm⟩ := hcounted.held he
    have hdst : dstOf k = (i, ep) := by rw [← hi, ← hep]; rfl
    rw [hdst, hn, Option.some.injEq, Prod.mk.injEq] at hm
    exact hm.1.symm
  · intro hd
    constructor
    · exact fun hp => hudp.owned hp
    · rintro ⟨ep', n, hn⟩
      exact hudp.named hn

open Reference in
/-- Two clients of one destination share its socket, counted twice. -/
theorem udp_references_exact_shared : ∃ w : World reference, World.AnyRun (trial .default) w ∧
    w.core.manager.udpDstSockets.lookup (eth, server) = some (0, 2) ∧
    w.core.manager.sessionsOf eth server = 2 := by
  obtain ⟨w, hw, hcheck⟩ := World.exists_of_run (fun _ _ => True) (trial .default)
    [datagram client [1], datagram client₂ [2],
      cycle 0 [hears 0 [([1], client)], hears 0 [([1], client), ([2], client₂)]]]
    (fun w => decide (w.core.manager.udpDstSockets.lookup (eth, server) = some (0, 2)))
    (by decide +kernel)
  have hlook := of_decide_eq_true hcheck
  have hexact := udp_references_exact reference_lawful hw eth server
  exact ⟨w, hw, hlook, (hexact.2.1 0 2 hlook).1.symm⟩

/-! ### Budget -/

/-- Without UDP sessions there are no shared sockets. -/
theorem shared_empty (hw : w.Registered) (hudp : len w.core.manager.udp = 0) :
    len w.core.manager.udpDstSockets = 0 := by
  rw [len_eq_zero] at hudp ⊢
  cases hd : w.core.manager.udpDstSockets.entries with
  | nil => rfl
  | cons x xs =>
    have hx : w.core.manager.udpDstSockets.lookup x.1 = some (x.2.1, x.2.2) := by
      rw [lookup_eq_some, hd]
      exact List.mem_cons_self
    obtain ⟨k, e, he, -⟩ := (hw.udp.counted.lookup_isSome_iff x.1).mp ⟨_, _, hx⟩
    have hmem : (⟨k, e⟩ : Σ _ : SessionKey, UdpEntry) ∈ w.core.manager.udp.entries :=
      lookup_eq_some.mp he
    rw [hudp] at hmem
    cases hmem

/-- **The budget is exact.** In every world a run reaches, the bytes counted are
those of the TCP entries and of the shared UDP sockets; no release saturates; with
no sessions left nothing is counted; and the count never passes the limit. -/
theorem budget_exact (hS : S.Lawful) (hB : S.Binds) (h : World.AnyRun b w) :
    w.core.bufferBytes = 2 * b.config.tcpBufferSize * len w.core.manager.tcp +
      (max b.config.udpBufferPackets 1 * 64 + max b.config.udpBufferBytes b.config.mtu) *
        len w.core.manager.udpDstSockets ∧
    (∀ l, w.Enabled l → ∀ bytes held, Call.release bytes held ∈ (w.step l).calls → bytes ≤ held) ∧
    (len w.core.manager.tcp = 0 → len w.core.manager.udp = 0 → w.core.bufferBytes = 0) ∧
    (∀ limit, b.config.maxBufferBytes = some limit → w.core.bufferBytes ≤ limit) := by
  have hw : w.Inv True b := World.Reachable.inv hS (fun _ => hB) h
  have hbal : w.core.bufferBytes = b.config.tcpCharge * len w.core.manager.tcp +
      b.config.udpCharge * len w.core.manager.udpDstSockets := by
    have := hw.budgeted.balance trivial
    rw [Core.charge, hw.config, Nat.zero_add] at this
    exact this
  refine ⟨hbal, ?_, ?_, ?_⟩
  · intro l hen bytes held hcall
    have hcalls := (World.step_ok hS (fun _ => hB) hw.registered hw.budgeted hen).2
    exact hcalls _ hcall trivial
  · intro htcp hudp
    rw [hbal, htcp, shared_empty hw.registered hudp, Nat.mul_zero, Nat.mul_zero]
  · intro limit hl
    exact hw.budgeted.limit limit (hw.config ▸ hl)

open Reference in
/-- A run that holds a TCP entry and a shared UDP socket of the default sizes. -/
theorem budget_exact_openBoth : ∃ w : World reference, World.AnyRun (trial .default) w ∧
    len w.core.manager.tcp = 1 ∧ len w.core.manager.udpDstSockets = 1 ∧
    w.core.bufferBytes = 2 * 16384 + (16 * 64 + 16384) := by
  obtain ⟨w, hw, hcheck⟩ := World.exists_of_run (fun _ _ => True) (trial .default) openBoth
    (fun w => decide (len w.core.manager.tcp = 1 ∧ len w.core.manager.udpDstSockets = 1))
    (by decide +kernel)
  have hlen := of_decide_eq_true hcheck
  have hbal := (budget_exact reference_lawful reference_binds hw).1
  rw [hlen.1, hlen.2] at hbal
  exact ⟨w, hw, hlen.1, hlen.2, hbal⟩

end WayNetstack

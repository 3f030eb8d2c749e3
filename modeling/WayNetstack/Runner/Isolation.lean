import WayNetstack.Registry.Admission
import WayNetstack.Registry.Runs

/-!
# Interfaces do not see each other

The interfaces of a stack share one registry and every pass of a cycle. **`interface_isolated`**:
two stacks that hold the same for an interface come out of a cycle holding the same for it,
surface the same sessions for it and send the same packets from it, whatever else they hold,
as long as no limit is reached and the engine's poll of a slot depends on that slot only.

What is not kept is the order in which sockets come into the pool: they are reaped in the
order of `manager.tcp`, and a hash map of other entries may have another order. And the cores
must be in order: a dangling handle of one interface stops the cycle for all
(**`isolation_needs_order`**).
-/

namespace WayNetstack

open Lib Lib.Table Lib.Traced SessionManager Relation

variable {S : Smoltcp}

/-- The polls of a cycle when the poll of a slot is a function of the time and the slot. -/
def Core.enginePolls (engine : Instant → InterfaceSlot S → List (PollEvent S)) (now : Instant)
    (c : Core S) : InterfaceId → List (PollEvent S) :=
  match (prePass c now).result with
  | .ok st => fun id => (st.1.slot id).elim [] (engine now)
  | .error _ => fun _ => []

/-- A session as the application sees it: with what its queue holds, wherever that is. -/
def Core.shows (c : Core S) : Session → Session × Option UdpQueue
  | .tcp st => (.tcp st, none)
  | .udp ses => (.udp { ses with queue := 0 }, c.queues[ses.queue]?)

/-- What the queue of a session of the interface holds. -/
def InterfaceView.queueOf (v : InterfaceView S) : Session → Option UdpQueue
  | .tcp _ => none
  | .udp ses => (v.udp ses.key.flow).bind (·.queue)

section Passes

variable {c c' : Core S} {id : InterfaceId} {now : Instant}

/-! ### The poll and the egress -/

theorem Core.view_pollSlots (c : Core S) (polls : InterfaceId → List (PollEvent S)) (id : InterfaceId) :
    (c.pollSlots polls).view id =
      { c.view id with slot := (c.slot id).map fun slot => slot.poll (polls id) } := by
  refine InterfaceView.ext ?_ rfl rfl rfl
  show (c.pollSlots polls).slot id = (c.slot id).map fun slot => slot.poll (polls id)
  rw [Core.slot_pollSlots]
  cases hs : c.slot id with
  | none => rfl
  | some slot => rw [Option.map_some, Option.map_some, Core.id_of_slot hs]

theorem Core.view_drainEgress (c : Core S) (id : InterfaceId) : c.drainEgress.1.view id =
    { c.view id with
      slot := (c.slot id).map fun slot => { slot with device := { slot.device with egress := [] } } } :=
  InterfaceView.ext (c.slot_drainEgress id) rfl rfl rfl

/-- Emptying the egress queues does not touch the rest. -/
theorem Core.withoutPool_drainEgress (h : (c.view id).withoutPool = (c'.view id).withoutPool) :
    (c.drainEgress.1.view id).withoutPool = (c'.drainEgress.1.view id).withoutPool := by
  have hslot : (c.slot id).map (·.withPool []) = (c'.slot id).map (·.withPool []) :=
    congrArg InterfaceView.slot h
  have hclear := congrArg (Option.map fun slot : InterfaceSlot S =>
    { slot with device := { slot.device with egress := [] } }) hslot
  rw [Option.map_map, Option.map_map] at hclear
  rw [Core.view_drainEgress, Core.view_drainEgress]
  refine InterfaceView.ext ?_ (congrArg InterfaceView.tcp h :) (congrArg InterfaceView.udp h :)
    (congrArg InterfaceView.shared h :)
  show ((c.slot id).map _).map _ = ((c'.slot id).map _).map _
  rw [Option.map_map, Option.map_map]
  exact hclear

theorem Core.pool_drainEgress (c : Core S) (id : InterfaceId) :
    (c.drainEgress.1.slot id).map (·.tcpPool) = (c.slot id).map (·.tcpPool) := by
  rw [c.slot_drainEgress, Option.map_map]
  rfl

/-- The egress packets of an interface. -/
theorem Core.egress_on (hn : c.ids.Nodup) (id : InterfaceId) :
    c.drainEgress.2.filter (fun pkt => decide (pkt.interfaceId = id)) =
      (c.slot id).elim [] fun slot => slot.device.egress.map fun data => ⟨id, data⟩ := by
  have hfilter : ∀ slot : InterfaceSlot S,
      (slot.device.egress.map fun data => (⟨slot.id, data⟩ : EgressPacket)).filter
        (fun pkt => decide (pkt.interfaceId = id)) =
      if slot.id = id then slot.device.egress.map fun data => ⟨id, data⟩ else [] := by
    intro slot
    rw [List.filter_map]
    by_cases h : slot.id = id <;> simp [h, Function.comp_def]
  unfold drainEgress
  rw [List.filter_flatMap]
  simp only [hfilter]
  rw [Core.flatMap_slots hn fun slot hid => if_neg hid]
  cases hs : c.slot id with
  | none => rfl
  | some slot => exact if_pos (Core.id_of_slot hs)

/-! ### The sessions -/

/-- The streams surfaced for an interface, up to their order. -/
theorem surfaced_on_perm (hv : c.view id = c'.view id) :
    (sessionsOn id ((TcpBook.surfaced c.manager.tcp c.tcpStateOf).map .tcp)).Perm
      (sessionsOn id ((TcpBook.surfaced c'.manager.tcp c'.tcpStateOf).map .tcp)) := by
  have hform : ∀ d : Core S, sessionsOn id ((TcpBook.surfaced d.manager.tcp d.tcpStateOf).map .tcp) =
      ((d.manager.tcp.entries.filter fun e => decide (e.1.interface = id)).filter fun e =>
        (e.2.advance (d.tcpStateOf e.1 e.2)).2).map fun e => .tcp (streamOf e.1 e.2.handle) := by
    intro d
    unfold sessionsOn TcpBook.surfaced
    rw [List.map_map, List.filter_map, List.map_map, List.filter_filter, List.filter_filter]
    congr 1
    exact List.filter_congr fun e _ => Bool.and_comm _ _
  have hstate : ∀ e ∈ c'.manager.tcp.entries.filter fun e => decide (e.1.interface = id),
      (e.2.advance (c'.tcpStateOf e.1 e.2)).2 = (e.2.advance (c.tcpStateOf e.1 e.2)).2 := by
    intro e he
    have hid := of_decide_eq_true (List.mem_filter.mp he).2
    subst hid
    rw [Core.tcpStateOf_of_view hv]
  have hentries : (c.manager.tcp.entries.filter fun e => decide (e.1.interface = id)).Perm
      (c'.manager.tcp.entries.filter fun e => decide (e.1.interface = id)) := by
    refine entries_filter_perm (p := fun k : SessionKey => decide (k.interface = id)) fun k hk => ?_
    have hid := of_decide_eq_true hk
    subst hid
    exact Core.tcp_of_view hv
  rw [hform c, hform c', List.filter_congr hstate]
  exact (hentries.filter _).map _

/-- The session has its entry, active now. -/
def Core.Opened (c : Core S) (now : Instant) (ses : WayUdpSession) : Prop :=
  ses.interface = ses.key.interface ∧
    ∃ e, c.manager.udp.lookup ses.key = some e ∧ e.queue = ses.queue ∧ e.lastActivity = now

/-- A session made in the pre-pass has its entry, active now. -/
theorem Admits.opened {queued : InterfaceId → Bytes → Prop} {st : Core S × List Session}
    (h : ReflTransGen (Admit now queued) (c, []) st) :
    ∀ ses ∈ st.2.filterMap Session.session?, st.1.Opened now ses := by
  refine run_keeps (P := fun st : Core S × List Session =>
    ∀ ses ∈ st.2.filterMap Session.session?, st.1.Opened now ses) ?_ h (by simp)
  rintro st st' hstep hall
  cases hstep with
  | device | spoil | leak | tcp => exact hall
  | udpNew hs hid hq hp new | udpJoin hs hid hq hp new =>
    intro ses hses
    rw [List.filterMap_append] at hses
    rcases List.mem_append.mp hses with hses | hses
    · -- an earlier session: the new key is not its own
      obtain ⟨hid, e, he, hq⟩ := hall ses hses
      exact ⟨hid, e, lookup_insert_of_new new he, hq⟩
    · obtain rfl := List.mem_singleton.mp hses
      exact ⟨rfl, _, (lookup_insert' _ _ _ _).trans (if_pos rfl), rfl, rfl⟩

/-- An entry active now is not swept. -/
theorem Core.settled_now (hS : S.Lawful) (c : Core S) {k : SessionKey} {e : UdpEntry}
    (he : e.lastActivity = now) : ∃ e', c.settled now k e = some e' ∧ e'.queue = e.queue := by
  unfold settled
  by_cases hheld : c.heldFor k = []
  · exact ⟨e, by simp [hheld, UdpEntry.not_expiredAt_now hS he], rfl⟩
  · refine ⟨{ e with lastActivity := now }, ?_, rfl⟩
    simp [hheld, UdpEntry.not_expiredAt_now (e := { e with lastActivity := now }) hS rfl]

/-! ### The pool -/

/-- The sockets reaped come in the order of the entries. -/
theorem Core.socketsOf_eq (hv : c.view id = c'.view id)
    (horder : (c.manager.tcp.entries.filter fun e => decide (e.1.interface = id)) =
      c'.manager.tcp.entries.filter fun e => decide (e.1.interface = id)) :
    c.socketsOf c.reapable id = c'.socketsOf c'.reapable id := by
  have hform : ∀ d : Core S, d.reapable.filter (fun k => decide (k.interface = id)) =
      ((d.manager.tcp.entries.filter fun e => decide (e.1.interface = id)).filter fun e =>
        e.2.orphaned && decide (d.tcpStateOf e.1 e.2 = .closed)).map (·.1) := by
    intro d
    unfold Core.reapable
    rw [List.filter_map, List.filter_filter, List.filter_filter]
    congr 1
    exact List.filter_congr fun e _ => Bool.and_comm _ _
  have hkeys : c.reapable.filter (fun k => decide (k.interface = id)) =
      c'.reapable.filter fun k => decide (k.interface = id) := by
    rw [hform c, hform c', horder]
    congr 1
    refine List.filter_congr fun e he => ?_
    have hid := of_decide_eq_true (List.mem_filter.mp he).2
    subst hid
    rw [Core.tcpStateOf_of_view hv]
  have hsame : c'.socketsOf c.reapable id = c.socketsOf c.reapable id := by
    refine Core.socketsOf_congr (fun k _ hk => ?_) (Core.socketAt_of_view hv).symm
    subst hk
    rw [Core.tcp_of_view hv]
  rw [← hsame]
  unfold Core.socketsOf
  rw [hkeys]

/-- A view is known by its pool and the rest. -/
theorem InterfaceView.eq_of_withoutPool {v v' : InterfaceView S} (h : v.withoutPool = v'.withoutPool)
    (hpool : v.slot.map (·.tcpPool) = v'.slot.map (·.tcpPool)) : v = v' := by
  obtain ⟨slot, tcp, udp, shared⟩ := v
  obtain ⟨slot', tcp', udp', shared'⟩ := v'
  obtain ⟨hslot, rfl, rfl, rfl⟩ := InterfaceView.mk.inj h
  congr 1
  cases slot with
  | none => exact (Option.map_eq_none_iff.mp hslot.symm).symm
  | some s =>
    obtain ⟨s', rfl, hframe⟩ := Option.map_eq_some_iff.mp hslot.symm
    have hpool : s.tcpPool = s'.tcpPool := Option.some.inj hpool
    calc some s = some ((s.withPool []).withPool s.tcpPool) := rfl
      _ = some ((s'.withPool []).withPool s'.tcpPool) := by rw [hframe, hpool]
      _ = some s' := rfl

/-! ### The cycle -/

variable {polls polls' : InterfaceId → List (PollEvent S)} {r r' : Cycle S} {streams streams' : List WayTcpStream}
  {sessions sessions' : List WayUdpSession}

/-- The sessions a cycle has surfaced are shown by the view of their interface. -/
theorem Cycle.Outcome.shows (hS : S.Lawful) (hr : c.Registered streams sessions)
    (h : r.Outcome c now polls) {s : Session} (hs : s ∈ r.accepted) :
    r.core.shows s = (s.anonymous, (r.core.view s.interface).queueOf s.anonymous) := by
  cases s with
  | tcp st => rfl
  | udp ses =>
    have hses : ses ∈ r.admitted.2.filterMap Session.session? := by
      rw [h.accepted, h.post.accepted] at hs
      rcases List.mem_append.mp hs with hs | hs
      · exact List.mem_filterMap.mpr ⟨_, hs, rfl⟩
      · obtain ⟨st, -, hst⟩ := List.mem_map.mp hs
        cases hst
    have hok : Ok (Call.Good False) (prePass c now) _ := prePass_ok hr
    obtain ⟨hid, e, he, hq, hnow⟩ := Admits.opened (hok.post h.admitted).1 ses hses
    obtain ⟨e', he', hq'⟩ := Core.settled_now hS r.polled (k := ses.key) hnow
    have hlook : r.core.manager.udp.lookup ses.key = some e' := by
      have hpolled : r.polled.manager.udp.lookup ses.key = some e := by
        rw [h.polled]
        exact he
      rw [h.core]
      show r.post.core.manager.udp.lookup ses.key = some e'
      rw [h.post.udp, hpolled]
      exact he'
    have hview : (r.core.view ses.interface).udp ses.key.flow = some (r.core.udpView e') := by
      rw [hid]
      show (r.core.manager.udp.lookup ses.key).map r.core.udpView = _
      rw [hlook]
      rfl
    show (_, r.core.queues[ses.queue]?) = (_, ((r.core.view ses.interface).udp ses.key.flow).bind (·.queue))
    rw [hview, Option.bind_some]
    show _ = (_, r.core.queues[e'.queue]?)
    rw [hq', hq]
    rfl

/-- The sessions surfaced for an interface, as the application sees them. -/
theorem Cycle.Outcome.shown (hS : S.Lawful) (hr : c.Registered streams sessions)
    (h : r.Outcome c now polls) (id : InterfaceId) :
    (r.accepted.filter fun s => decide (s.interface = id)).map r.core.shows =
      (sessionsOn id r.accepted).map fun s => (s, (r.core.view id).queueOf s) := by
  unfold sessionsOn
  rw [List.map_map]
  refine List.map_congr_left fun s hs => ?_
  obtain ⟨hmem, hid⟩ := List.mem_filter.mp hs
  have hid := of_decide_eq_true hid
  subst hid
  exact h.shows hS hr hmem

theorem Cycle.Outcome.pool (h : r.Outcome c now polls) (id : InterfaceId) :
    (r.core.slot id).map (·.tcpPool) = (r.polled.slot id).map fun slot => slot.tcpPool ++
      (r.polled.socketsOf r.polled.reapable id).take (slot.tcpPoolMax - slot.tcpPool.length) := by
  rw [h.core, Core.pool_drainEgress, h.post.pool]

/-- The poll of an interface is that of its slot. -/
theorem Core.enginePolls_eq (engine : Instant → InterfaceSlot S → List (PollEvent S))
    {st : Core S × List Session} (h : (prePass c now).result = .ok st) (id : InterfaceId) :
    c.enginePolls engine now id = (st.1.slot id).elim [] (engine now) := by
  unfold enginePolls
  rw [h]

/-- Up to the post-pass an interface is served as its view says. -/
theorem Cycle.Outcome.polled_congr (hS : S.Lawful) (engine : Instant → InterfaceSlot S → List (PollEvent S))
    (hr : c.Registered streams sessions) (hr' : c'.Registered streams' sessions')
    (hroom : c.Unlimited now) (hroom' : c'.Unlimited now) (hconfig : c.config = c'.config)
    (h : r.Outcome c now (c.enginePolls engine now)) (h' : r'.Outcome c' now (c'.enginePolls engine now))
    (hv : c.view id = c'.view id) :
    r.polled.view id = r'.polled.view id ∧ r.polled.config = r'.polled.config ∧
      sessionsOn id r.admitted.2 = sessionsOn id r'.admitted.2 := by
  have hok : Ok (Call.Good False) (prePass c now) _ := prePass_observed hS hr hroom
  have hok' : Ok (Call.Good False) (prePass c' now) _ := prePass_observed hS hr' hroom'
  obtain ⟨hkeep, hobs⟩ := hok.post h.admitted
  obtain ⟨hkeep', hobs'⟩ := hok'.post h'.admitted
  have hsame : observed r.admitted id = observed r'.admitted id := by rw [hobs, hobs', hv, hconfig]
  obtain ⟨hview, hsessions⟩ := Prod.mk.inj hsame
  refine ⟨?_, ?_, hsessions⟩
  · rw [h.polled, h'.polled, Core.view_pollSlots, Core.view_pollSlots,
      Core.enginePolls_eq engine h.admitted, Core.enginePolls_eq engine h'.admitted, hview,
      Core.slot_of_view hview]
  · rw [h.polled, h'.polled]
    exact hkeep.config.trans (hconfig.trans hkeep'.config.symm)

end Passes

variable {c c' : Core S} {streams streams' : List WayTcpStream} {sessions sessions' : List WayUdpSession}

/-- **Interfaces are isolated.** Two cores in order with the same configuration that hold the
same for interface `j` go through a cycle at the same time, no limit being reached. Then
* they again hold the same for `j`, apart from its pool;
* the pools are what was in the pool before the reap and, as far as there is room, the
  sockets reaped, which are the same in some order; if `manager.tcp` has the entries of `j`
  in the same order, the pools are the same too;
* the sessions surfaced for `j` are the same in some order, and so are their queues;
* the packets sent from `j` are the same in the same order. -/
theorem interface_isolated (hS : S.Lawful) (engine : Instant → InterfaceSlot S → List (PollEvent S))
    (hr : c.Registered streams sessions) (hr' : c'.Registered streams' sessions')
    (hconfig : c.config = c'.config) (j : InterfaceId) (hv : c.view j = c'.view j) (now : Instant)
    (hroom : c.Unlimited now) (hroom' : c'.Unlimited now) :
    ∃ r r', (pollOnce c now (c.enginePolls engine now)).result = .ok r ∧
      (pollOnce c' now (c'.enginePolls engine now)).result = .ok r' ∧
      (r.core.view j).withoutPool = (r'.core.view j).withoutPool ∧
      (∀ slot slot', r.core.slot j = some slot → r'.core.slot j = some slot' →
        ∃ pool room, slot.tcpPool = pool ++ (r.polled.socketsOf r.polled.reapable j).take room ∧
          slot'.tcpPool = pool ++ (r'.polled.socketsOf r'.polled.reapable j).take room ∧
          (r.polled.socketsOf r.polled.reapable j).Perm (r'.polled.socketsOf r'.polled.reapable j)) ∧
      ((r.polled.manager.tcp.entries.filter fun e => decide (e.1.interface = j)) =
          (r'.polled.manager.tcp.entries.filter fun e => decide (e.1.interface = j)) →
        r.core.view j = r'.core.view j) ∧
      ((r.accepted.filter fun s => decide (s.interface = j)).map r.core.shows).Perm
        ((r'.accepted.filter fun s => decide (s.interface = j)).map r'.core.shows) ∧
      (r.egress.filter fun pkt => decide (pkt.interfaceId = j)) =
        r'.egress.filter fun pkt => decide (pkt.interfaceId = j) := by
  obtain ⟨r, hres, h, hreg⟩ := pollOnce_outcome hS hr now (c.enginePolls engine now)
  obtain ⟨r', hres', h', hreg'⟩ := pollOnce_outcome hS hr' now (c'.enginePolls engine now)
  obtain ⟨hpolled, hpconfig, hsessions⟩ := h.polled_congr hS engine hr hr' hroom hroom' hconfig h' hv
  have hpost := h.post.view_congr h'.post hreg hreg' hpconfig hpolled
  have hslot : (r.post.core.slot j).map (·.withPool []) = (r'.post.core.slot j).map (·.withPool []) :=
    congrArg InterfaceView.slot hpost
  have hcore : (r.core.view j).withoutPool = (r'.core.view j).withoutPool := by
    rw [h.core, h'.core]
    exact Core.withoutPool_drainEgress hpost
  have hpool := h.pool j
  have hpool' := h'.pool j
  rw [← Core.slot_of_view hpolled] at hpool'
  refine ⟨r, r', hres, hres', hcore, fun slot slot' hs hs' => ?_, fun horder => ?_, ?_, ?_⟩
  · rw [hs, Option.map_some, eq_comm, Option.map_eq_some_iff] at hpool
    obtain ⟨slot₀, hs₀, hpool⟩ := hpool
    rw [hs', hs₀, Option.map_some, Option.map_some, Option.some.injEq] at hpool'
    exact ⟨_, _, hpool.symm, hpool', Core.socketsOf_perm hpolled⟩
  · refine InterfaceView.eq_of_withoutPool hcore ?_
    show (r.core.slot j).map _ = (r'.core.slot j).map _
    rw [hpool, hpool', Core.socketsOf_eq hpolled horder]
  · have hudp : (r.core.view j).udp = (r'.core.view j).udp := (congrArg InterfaceView.udp hcore :)
    have hqueue : (r.core.view j).queueOf = (r'.core.view j).queueOf := by
      funext s
      cases s with
      | tcp st => rfl
      | udp ses => exact congrArg (fun o : Option UdpView => o.bind (·.queue)) (congrFun hudp ses.key.flow)
    have hsplit : ∀ q : Cycle S, q.accepted = q.admitted.2 ++ q.post.tcp.accepted →
        sessionsOn j q.accepted = sessionsOn j q.admitted.2 ++ sessionsOn j q.post.tcp.accepted := by
      intro q hq
      rw [hq]
      unfold sessionsOn
      rw [List.filter_append, List.map_append]
    rw [h.shown hS hr, h'.shown hS hr', hqueue, hsplit r h.accepted, hsplit r' h'.accepted, hsessions,
      h.post.accepted, h'.post.accepted]
    exact ((surfaced_on_perm hpolled).append_left _).map _
  · rw [h.egress, h'.egress, Core.egress_on hreg.shaped.ids, Core.egress_on hreg'.shaped.ids]
    have helim : ∀ o : Option (InterfaceSlot S), (o.elim [] fun slot =>
        slot.device.egress.map fun data => (⟨j, data⟩ : EgressPacket)) =
        (o.map (·.withPool [])).elim [] fun slot => slot.device.egress.map fun data => ⟨j, data⟩ := by
      rintro (_ | slot) <;> rfl
    rw [helim, helim (r'.post.core.slot j), hslot]

instance : DecidableEq (InterfaceSlot reference) := fun s t =>
  decidable_of_iff (s.id = t.id ∧ s.device = t.device ∧ s.sockets = t.sockets ∧ s.tcpPool = t.tcpPool ∧
    s.tcpPoolMax = t.tcpPoolMax ∧ s.mtu = t.mtu ∧ s.tcpBufferSize = t.tcpBufferSize) (by
    obtain ⟨_, _, _, _, _, _, _, _⟩ := s
    obtain ⟨_, _, _, _, _, _, _, _⟩ := t
    rw [InterfaceSlot.mk.injEq]
    exact ⟨fun ⟨h, h'⟩ => ⟨h, rfl, h'⟩, fun ⟨h, _, h'⟩ => ⟨h, h'⟩⟩)

/-- A core without entries for an interface. -/
theorem Core.view_of_vacant {id : InterfaceId} (htcp : ∀ e ∈ c.manager.tcp.entries, e.1.interface ≠ id)
    (hudp : ∀ e ∈ c.manager.udp.entries, e.1.interface ≠ id)
    (hshared : ∀ e ∈ c.manager.udpDstSockets.entries, e.1.1 ≠ id) :
    c.view id = ⟨c.slot id, fun _ => none, fun _ => none, fun _ => none⟩ := by
  have hnone : ∀ {K V : Type} [DecidableEq K] (t : Table K V) (k : K), (∀ e ∈ t.entries, e.1 ≠ k) →
      t.lookup k = none := by
    intro K V _ t k h
    rw [Option.eq_none_iff_forall_ne_some]
    exact fun v hv => h _ (lookup_eq_some.mp hv) rfl
  refine InterfaceView.ext rfl (funext fun f => ?_) (funext fun f => ?_) (funext fun ep => ?_)
  · exact hnone _ _ fun e he hk => htcp e he (hk ▸ rfl)
  · exact Option.map_eq_none_iff.mpr (hnone _ _ fun e he hk => hudp e he (hk ▸ rfl))
  · exact hnone _ _ fun e he hk => hshared e he (hk ▸ rfl)

/-- An interface with the given packets to take in and no session. -/
def Core.Quiet (c : Core reference) (id : InterfaceId) (ingress : List Bytes) : Prop :=
  c.slot id = some ⟨id, (), ⟨1500, ingress, []⟩, ⟨[]⟩, [], 4096, 1500, 16384⟩ ∧
    (∀ e ∈ c.manager.tcp.entries, e.1.interface ≠ id) ∧
    (∀ e ∈ c.manager.udp.entries, e.1.interface ≠ id) ∧
    (∀ e ∈ c.manager.udpDstSockets.entries, e.1.1 ≠ id)

instance (c : Core reference) (id : InterfaceId) (ingress : List Bytes) :
    Decidable (c.Quiet id ingress) := inferInstanceAs (Decidable (_ ∧ _))

theorem Core.Quiet.view {c : Core reference} {id : InterfaceId} {ingress : List Bytes}
    (h : c.Quiet id ingress) :
    c.view id = ⟨some ⟨id, (), ⟨1500, ingress, []⟩, ⟨[]⟩, [], 4096, 1500, 16384⟩,
      fun _ => none, fun _ => none, fun _ => none⟩ := by
  obtain ⟨hslot, htcp, hudp, hshared⟩ := h
  rw [Core.view_of_vacant htcp hudp hshared, hslot]

open Reference in
/-- The interface of the trial stack, alone and next to another that has a connection: the
datagram it gets makes the same session. -/
theorem interface_isolated_pair : ∃ (w w' : World reference) (r r' : Cycle reference),
    World.AnyRun (trial .default) w ∧ World.AnyRun pair w' ∧
    w.core.manager.tcp.entries = [] ∧ w'.core.manager.tcp.entries ≠ [] ∧
    w.core.view eth = w'.core.view eth ∧
    (r.core.view eth).withoutPool = (r'.core.view eth).withoutPool ∧
    ((r.accepted.filter fun s => decide (s.interface = eth)).map r.core.shows).Perm
      ((r'.accepted.filter fun s => decide (s.interface = eth)).map r'.core.shows) := by
  obtain ⟨w, hw, hcheck⟩ := World.exists_of_run (fun _ _ => True) (trial .default) [datagram client [1]]
    (fun w => decide (w.core.manager.tcp.entries = [] ∧ w.core.Quiet eth [udpPacket client server [1]] ∧
      w.core.Unlimited 1)) (by decide +kernel)
  obtain ⟨w', hw', hcheck'⟩ := World.exists_of_run (fun _ _ => True) pair
    [.ingress ⟨wlan, tcpPacket client server syn false⟩,
      cycle 0 [takes 0 (connected 16384 client .synReceived)], datagram client [1]]
    (fun w => decide (w.core.manager.tcp.entries ≠ [] ∧ w.core.Quiet eth [udpPacket client server [1]] ∧
      w.core.Unlimited 1)) (by decide +kernel)
  obtain ⟨hnone, hquiet, hroom⟩ := of_decide_eq_true hcheck
  obtain ⟨hsome, hquiet', hroom'⟩ := of_decide_eq_true hcheck'
  have hi : w.Inv False _ := World.Reachable.inv reference_lawful False.elim hw
  have hi' : w'.Inv False _ := World.Reachable.inv reference_lawful False.elim hw'
  have hv : w.core.view eth = w'.core.view eth := hquiet.view.trans hquiet'.view.symm
  obtain ⟨r, r', -, -, hview, -, -, hsessions, -⟩ := interface_isolated reference_lawful
    (fun _ _ => [.receive none]) hi.registered hi'.registered (hi.config.trans hi'.config.symm) eth hv 1
    hroom hroom'
  exact ⟨w, w', r, r', hw, hw', hnone, hsome, hv, hview, hsessions⟩

/-- The core with the connections in the reverse order. -/
def Core.turned (c : Core S) : Core S :=
  { c with manager := { c.manager with tcp := c.manager.tcp.reverse } }

theorem Core.turned_rehashed (c : Core S) : c.manager.Rehashed c.turned.manager :=
  ⟨reordered_reverse _, .refl _, .refl _⟩

open Reference in
/-- The pool after a cycle in which both connections are reset. -/
def Core.poolAfter (c : Core reference) : Option (List reference.Tcp) :=
  (pollOnce c 2 (c.enginePolls (fun _ _ => resetTwo) 2)).result.toOption.bind fun r =>
    (r.core.slot eth).map (·.tcpPool)

open Reference in
/-- The core with an entry on the second interface whose socket is not there. -/
def Core.dangling (c : Core reference) : Core reference :=
  { c with manager := { c.manager with
    tcp := c.manager.tcp.insert ⟨wlan, .tcp, client, server⟩ ⟨0, .pending, false⟩ } }

open Reference in
/-- What isolation needs.
* Two connections of one interface are reaped. The tables of the two stacks have their
  entries in two orders, and so have the pools the sockets.
* Of two cores that hold the same for one interface, one is not in order: it has an entry
  for another interface whose socket is not there. Its cycle panics. -/
theorem isolation_needs_order :
    (∃ (w w' : World reference) (r r' : Cycle reference),
      World.AnyRun (trial .default) w ∧ World.AnyRun (trial .default) w' ∧
      w.core.config = w'.core.config ∧ w.core.view eth = w'.core.view eth ∧
      w.core.Unlimited 2 ∧ w'.core.Unlimited 2 ∧
      (pollOnce w.core 2 (w.core.enginePolls (fun _ _ => resetTwo) 2)).result = .ok r ∧
      (pollOnce w'.core 2 (w'.core.enginePolls (fun _ _ => resetTwo) 2)).result = .ok r' ∧
      r.core.view eth ≠ r'.core.view eth) ∧
    (∃ (c c' : Core reference) (r : Cycle reference) (fault : Fault),
      c.config = c'.config ∧ c.view eth = c'.view eth ∧ c.Unlimited 2 ∧ c'.Unlimited 2 ∧
      (pollOnce c 2 (c.enginePolls (fun _ _ => []) 2)).result = .ok r ∧
      (pollOnce c' 2 (c'.enginePolls (fun _ _ => []) 2)).result = .error fault) := by
  constructor
  · obtain ⟨w, hw, hcheck⟩ := World.exists_of_run (fun _ _ => True) (trial .default) dropTwo
      (fun w => decide (w.core.Unlimited 2 ∧ w.core.turned.Unlimited 2 ∧
        w.core.poolAfter ≠ w.core.turned.poolAfter)) (by decide +kernel)
    obtain ⟨hroom, hroom', hne⟩ := of_decide_eq_true hcheck
    have hw' : World.AnyRun (trial .default) { w with core := w.core.turned } :=
      hw.step (l := .rehash w.core.turned.manager) ⟨trivial, w.core.turned_rehashed, rfl⟩
    have hi : w.Inv False _ := World.Reachable.inv reference_lawful False.elim hw
    have hi' : World.Inv False _ _ := World.Reachable.inv reference_lawful False.elim hw'
    have hpool : ∀ {c : Core reference} {r : Cycle reference},
        (pollOnce c 2 (c.enginePolls (fun _ _ => resetTwo) 2)).result = .ok r →
        c.poolAfter = (r.core.slot eth).map (·.tcpPool) := by
      intro c r h
      unfold Core.poolAfter
      rw [h]
      rfl
    obtain ⟨r, hres, -⟩ := pollOnce_outcome reference_lawful hi.registered 2
      (w.core.enginePolls (fun _ _ => resetTwo) 2)
    obtain ⟨r', hres', -⟩ := pollOnce_outcome reference_lawful hi'.registered 2
      (w.core.turned.enginePolls (fun _ _ => resetTwo) 2)
    refine ⟨w, _, r, r', hw, hw', rfl, Core.view_rehash w.core.turned_rehashed eth, hroom, hroom',
      hres, hres', fun hview => hne ?_⟩
    rw [hpool hres, hpool hres', Core.slot_of_view hview]
  · have hquiet : (World.init pair).core.Quiet eth [] := by decide +kernel
    have hquiet' : (World.init pair).core.dangling.Quiet eth [] := by decide +kernel
    obtain ⟨r, hres, -⟩ := pollOnce_outcome reference_lawful (init_registered pair) 2
      ((World.init pair).core.enginePolls (fun _ _ => []) 2)
    refine ⟨(World.init pair).core, (World.init pair).core.dangling, r, .absent, rfl,
      hquiet.view.trans hquiet'.view.symm, by decide +kernel, by decide +kernel, hres, ?_⟩
    rfl

end WayNetstack

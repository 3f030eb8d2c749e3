import WayNetstack.Registry.Loops

/-!
# What the post-pass leaves

`PostPass.Spec` says what the loops of the post-pass can do at a time. `PostPass.Outcome`
says what has become of the core when they are through, key by key and cell by cell: which
entries are left, what each queue holds, which sockets have gone. Nothing in it mentions
the order in which a table was visited, apart from the order in which reaped sockets come
into a pool.
-/

namespace WayNetstack

open Lib Lib.Table Lib.Traced SessionManager Relation

variable {S : Smoltcp}

/-- What becomes of the entry of a session: it is touched if something is held for it, and
gone if it has expired even so. -/
def Core.settled (c : Core S) (now : Instant) (k : SessionKey) (e : UdpEntry) : Option UdpEntry :=
  let e' := if c.heldFor k = [] then e else { e with lastActivity := now }
  if e'.expiredAt S now c.config.udpSessionTimeout then none else some e'

/-- What the post-pass has done when it is through. -/
structure PostPass.Outcome (c : Core S) (now : Instant) (p : PostPass S) : Prop where
  config : p.core.config = c.config
  ids : p.core.ids = c.ids
  accepted : p.tcp.accepted = (TcpBook.surfaced c.manager.tcp c.tcpStateOf).map .tcp
  tcp : ∀ k, p.core.manager.tcp.lookup k = if k ∈ c.reapable then none else
    (c.manager.tcp.lookup k).map fun e => (e.advance (c.tcpStateOf k e)).1
  udp : ∀ k, p.core.manager.udp.lookup k = (c.manager.udp.lookup k).bind (c.settled now k)
  /-- The queue of an entry gets what is held for it, and is closed when the entry goes. -/
  queue : ∀ {k e}, c.manager.udp.lookup k = some e → p.core.queues[e.queue]? =
    (c.queues[e.queue]?).map fun q => ⟨q.inner ++ c.heldFor k, q.closed || (c.settled now k e).isNone⟩
  otherQueue : ∀ {q}, (∀ k e, c.manager.udp.lookup k = some e → e.queue ≠ q) →
    p.core.queues[q]? = c.queues[q]?
  /-- Sockets go, the others are drained; the pool takes the sockets reaped. -/
  slot : c.Slotwise (fun slot slot' =>
    slot' = { slot with
      sockets := slot'.sockets
      tcpPool := slot.tcpPool ++
        (c.socketsOf c.reapable slot.id).take (slot.tcpPoolMax - slot.tcpPool.length) } ∧
    (slot.sockets.map S.drainedSocket).Thinned slot'.sockets) p.core
  bufferBytes : p.core.bufferBytes = c.bufferBytes - (c.charge - p.core.charge)

section Outcome

variable {c c' : Core S} {streams : List WayTcpStream} {sessions : List WayUdpSession} {now : Instant}
  {p : PostPass S}

/-- The post-pass taken apart. -/
theorem postPass_result (h : (postPass c now).result = .ok p) :
    (tcpTransitions c).result = .ok p.tcp ∧
    (p.tcp.tcpReap.foldlM reapTcp (p.tcp.core, 0)).result = .ok p.reaped ∧
    (drainSlots p.reaped.1).result = .ok p.drained ∧
    p.routed = p.drained.2.foldl (route now) p.drained.1 := by
  unfold postPass at h
  obtain ⟨tcp, htcp, h⟩ := bind_result_ok.mp h
  obtain ⟨reaped, hreaped, h⟩ := bind_result_ok.mp h
  obtain ⟨drained, hdrained, h⟩ := bind_result_ok.mp h
  obtain ⟨swept, -, h⟩ := bind_result_ok.mp h
  obtain ⟨core, -, h⟩ := bind_result_ok.mp h
  cases h
  exact ⟨htcp, hreaped, hdrained, rfl⟩

/-- What is held for a session depends on the socket of its destination only. -/
theorem Core.heldFor_congr {k : SessionKey}
    (hdst : c'.manager.udpDstSockets.lookup (dstOf k) = c.manager.udpDstSockets.lookup (dstOf k))
    (hsock : ∀ h n, c.manager.udpDstSockets.lookup (dstOf k) = some (h, n) →
      c'.socketAt k.interface h = c.socketAt k.interface h) : c'.heldFor k = c.heldFor k := by
  have hbound : c'.boundUdp (dstOf k) = c.boundUdp (dstOf k) := by
    unfold boundUdp
    rw [hdst]
    cases hlook : c.manager.udpDstSockets.lookup (dstOf k) with
    | none => rfl
    | some x =>
      have hat : c'.socketAt (dstOf k).1 x.1 = c.socketAt (dstOf k).1 x.1 := hsock x.1 x.2 hlook
      simp only [Option.bind_some, hat]
  unfold heldFor
  rw [hbound]

/-- The sockets of the entries are known by the handles. -/
theorem Core.socketsOf_congr {keys : List SessionKey} {id : InterfaceId}
    (hhandle : ∀ k ∈ keys, k.interface = id → (c'.manager.tcp.lookup k).map (·.handle) =
      (c.manager.tcp.lookup k).map (·.handle))
    (hsock : c'.socketAt id = c.socketAt id) : c'.socketsOf keys id = c.socketsOf keys id := by
  refine List.filterMap_congr fun k hk => ?_
  rw [List.mem_filter, decide_eq_true_eq] at hk
  have hmap : ∀ d : Core S, ((d.manager.tcp.lookup k).bind fun e =>
      (c.socketAt id e.handle).bind Socket.tcp?) =
      ((d.manager.tcp.lookup k).map (·.handle)).bind fun h => (c.socketAt id h).bind Socket.tcp? := by
    intro d
    cases d.manager.tcp.lookup k <;> rfl
  rw [hsock, hmap c', hhandle k hk.1 hk.2, ← hmap c]

/-- A loop releases what is no longer charged for, if each of its steps does. -/
theorem releases_charge {R : Core S × ℕ → Core S × ℕ → Prop}
    (hreg : ∀ {st st'}, R st st' → st.1.Registered streams sessions → st'.1.Registered streams sessions)
    (hcharge : ∀ {st st'}, R st st' → st.1.Shaped → st'.2 + st'.1.charge = st.2 + st.1.charge)
    {st st' : Core S × ℕ} (h : ReflTransGen R st st') (hr : st.1.Registered streams sessions) :
    st'.2 + st'.1.charge = st.2 + st.1.charge :=
  (run_keeps (P := fun x => x.1.Registered streams sessions ∧ x.2 + x.1.charge = st.2 + st.1.charge)
    (fun _ _ hstep hx => ⟨hreg hstep hx.1, (hcharge hstep hx.1.shaped).trans hx.2⟩) h ⟨hr, rfl⟩).2

/-- What is no longer charged for is what is released. -/
theorem PostPass.Spec.charge (h : PostPass.Spec c now p) (hr : c.Registered streams sessions) :
    p.swept.2 + p.swept.1.charge = c.charge := by
  have hp := h.registered hr
  have hdrained : p.drained.1.charge = p.reaped.1.charge :=
    run_keeps (P := fun d => d.charge = p.reaped.1.charge)
      (fun _ _ hstep hd => by cases hstep; exact hd) h.drained rfl
  have hrouted : p.routed.charge = p.drained.1.charge :=
    run_keeps (P := fun d => d.charge = p.drained.1.charge)
      (fun _ _ hstep hd => by cases hstep; exact hd) h.routed rfl
  calc p.swept.2 + p.swept.1.charge = p.reaped.2 + p.routed.charge :=
      releases_charge EndUdp.registered EndUdp.charge h.swept hp.routed
    _ = p.reaped.2 + p.reaped.1.charge := by rw [hrouted, hdrained]
    _ = 0 + p.tcp.core.charge := releases_charge ReapTcp.registered ReapTcp.charge h.reaped hp.tcp
    _ = c.charge := by rw [Nat.zero_add, h.tcp.charge]

theorem ReapTcp.feeds {st st' : Core S × ℕ} (h : ReapTcp st st') : st'.1.feeds = st.1.feeds := by
  cases h with
  | @reap c m slot key e t hs hid he ho hget hst =>
    exact Core.feeds_setSlot ((slot.withoutSocket e.handle).withPool _) hs rfl

theorem EndUdp.feeds {st st' : Core S × ℕ} (h : EndUdp st st') : st'.1.feeds = st.1.feeds := by
  cases h with
  | leave => rfl
  | @close c m slot key e hd n u hs hid he hn last hget =>
    exact Core.feeds_setSlot (slot.withoutSocket e.socket) hs rfl

/-- No interface comes or goes, and the devices are left alone. -/
theorem PostPass.Spec.feeds (h : PostPass.Spec c now p) : p.core.feeds = c.feeds := by
  have htcp : p.tcp.core.feeds = c.feeds := by
    rw [h.tcp.core]
    rfl
  have hreaped : p.reaped.1.feeds = p.tcp.core.feeds :=
    run_keeps (P := fun st => st.1.feeds = p.tcp.core.feeds) (fun _ _ hstep hst => hstep.feeds.trans hst)
      h.reaped rfl
  have hdrained : p.drained.1.feeds = p.reaped.1.feeds :=
    run_keeps (P := fun d => d.feeds = p.reaped.1.feeds) (fun _ _ hstep hd => hstep.feeds.trans hd)
      h.drained rfl
  have hrouted : p.routed.feeds = p.drained.1.feeds :=
    run_keeps (P := fun d => d.feeds = p.drained.1.feeds) (fun _ _ hstep hd => by cases hstep; exact hd)
      h.routed rfl
  have hswept : p.swept.1.feeds = p.routed.feeds :=
    run_keeps (P := fun st => st.1.feeds = p.routed.feeds) (fun _ _ hstep hst => hstep.feeds.trans hst)
      h.swept rfl
  have hcore : p.core.feeds = p.swept.1.feeds := by
    rw [h.settled]
    rfl
  rw [hcore, hswept, hrouted, hdrained, hreaped, htcp]

/-- The reap of the post-pass. -/
theorem PostPass.Spec.reap (h : PostPass.Spec c now p) (hr : c.Registered streams sessions)
    (hp : (postPass c now).result = .ok p) : Reaped p.tcp.core c.reapable p.reaped := by
  have hloop := (postPass_result hp).2.1
  rw [h.tcp.tcpReap] at hloop
  have hok : Ok (Call.Good False) (c.reapable.foldlM reapTcp (p.tcp.core, 0))
      (Reaped p.tcp.core c.reapable) := by
    refine reap_reaped (h.tcp.registered hr) c.reapable c.nodup_reapable ?_ (h.tcp.tcpReap ▸ h.tcp.reapable)
    intro k hk
    obtain ⟨e, he, -⟩ := Core.mem_reapable.mp hk
    exact ⟨_, by rw [h.tcp.entries, he]; rfl⟩
  exact hok.post hloop

/-- The draining of the post-pass. -/
theorem PostPass.Spec.drain (hS : S.Lawful) (h : PostPass.Spec c now p)
    (hr : c.Registered streams sessions) (hp : (postPass c now).result = .ok p) :
    Drained p.reaped.1 p.reaped.1.visits p.drained := by
  have hok : Ok (Call.Good False) (drainSlots p.reaped.1) (Drained p.reaped.1 p.reaped.1.visits) :=
    drainSlots_drained hS (h.registered hr).reaped
  exact hok.post (postPass_result hp).2.2.1

/-- The reap leaves what is held for the sessions. -/
theorem PostPass.Spec.heldFor (h : PostPass.Spec c now p) (hr : c.Registered streams sessions)
    (hp : (postPass c now).result = .ok p) (k : SessionKey) : p.reaped.1.heldFor k = c.heldFor k := by
  have hreap := h.reap hr hp
  have hdst : p.reaped.1.manager.udpDstSockets = c.manager.udpDstSockets := by
    rw [hreap.core, h.tcp.core]
  refine Core.heldFor_congr (by rw [hdst]) fun hd n hn => ?_
  -- the socket is there after the reap, so it is what it was before
  obtain ⟨slot', u, hs', hget⟩ := Core.exists_udp ((h.registered hr).reaped.udp.named
    (show p.reaped.1.manager.udpDstSockets.lookup (k.interface, k.dst) = some (hd, n) from hdst ▸ hn))
  obtain ⟨slot, -, hs, -⟩ := Core.exists_udp (hr.udp.named hn)
  have hs₀ : p.tcp.core.slot k.interface = some slot := by
    rw [h.tcp.core]
    exact hs
  obtain ⟨slot₁, hs₁, hthin, -⟩ := hreap.slot k.interface slot hs₀
  obtain rfl : slot₁ = slot' := Option.some.inj (hs₁.symm.trans hs')
  rw [Core.socketAt, Core.socketAt, hs, hs', Option.bind_some, Option.bind_some, hget]
  exact (hthin.sockets.get?_of_some hget).symm

/-- Nothing before the routing changes the sessions and their queues. -/
theorem PostPass.Spec.drained_udp (hS : S.Lawful) (h : PostPass.Spec c now p)
    (hr : c.Registered streams sessions) (hp : (postPass c now).result = .ok p) :
    p.drained.1.manager.udp = c.manager.udp ∧ p.drained.1.queues = c.queues := by
  rw [(h.drain hS hr hp).core, (h.reap hr hp).core, h.tcp.core]
  exact ⟨rfl, rfl⟩

/-- The sessions after the routing. -/
theorem PostPass.Spec.routed_lookup (hS : S.Lawful) (h : PostPass.Spec c now p)
    (hr : c.Registered streams sessions) (hp : (postPass c now).result = .ok p) (k : SessionKey) :
    p.routed.manager.udp.lookup k = (c.manager.udp.lookup k).map fun e =>
      if c.heldFor k = [] then e else { e with lastActivity := now } := by
  have hheld := (h.drain hS hr hp).heldFor (h.registered hr).reaped k
  rw [h.heldFor hr hp] at hheld
  -- something is addressed to the session just when something is held for it
  have hmem : k ∈ p.drained.2.map (·.1) ↔ c.heldFor k ≠ [] := by
    rw [← hheld, Ne, List.map_eq_nil_iff, List.filter_eq_nil_iff]
    simp [eq_comm]
  rw [(postPass_result hp).2.2.2, lookup_route, (h.drained_udp hS hr hp).1]
  congr 1
  funext e
  by_cases hnil : c.heldFor k = []
  · rw [if_neg (fun hk => hmem.mp hk hnil), if_pos hnil]
  · rw [if_pos (hmem.mpr hnil), if_neg hnil]

/-- The queues after the routing. -/
theorem PostPass.Spec.routed_queues (hS : S.Lawful) (h : PostPass.Spec c now p)
    (hr : c.Registered streams sessions) (hp : (postPass c now).result = .ok p) :
    (∀ {k e}, c.manager.udp.lookup k = some e → p.routed.queues[e.queue]? =
      (c.queues[e.queue]?).map fun q => { q with inner := q.inner ++ c.heldFor k }) ∧
    (∀ {q}, (∀ k e, c.manager.udp.lookup k = some e → e.queue ≠ q) →
      p.routed.queues[q]? = c.queues[q]?) := by
  obtain ⟨hudp, hqueues⟩ := h.drained_udp hS hr hp
  have hroute : ∀ q : QueueRef, p.routed.queues[q]? = (c.queues[q]?).map fun u =>
      { u with inner := u.inner ++ (p.drained.2.filter fun d =>
        (c.manager.udp.lookup d.1).any fun e => decide (e.queue = q)).map (·.2) } := by
    intro q
    rw [(postPass_result hp).2.2.2, queues_route, hudp, hqueues]
  constructor
  · intro k e he
    -- the queue is that of no other entry
    have hkey : ∀ d : SessionKey × Bytes,
        ((c.manager.udp.lookup d.1).any fun e' => decide (e'.queue = e.queue)) = decide (d.1 = k) := by
      intro d
      rw [Bool.eq_iff_iff, Option.any_eq_true, decide_eq_true_eq]
      constructor
      · rintro ⟨e', he', hq⟩
        exact hr.udp.queue_inj he' he (of_decide_eq_true hq)
      · rintro hk
        exact ⟨e, by rw [hk]; exact he, decide_eq_true rfl⟩
    rw [hroute]
    simp only [hkey, (h.drain hS hr hp).heldFor (h.registered hr).reaped k, h.heldFor hr hp]
  · intro q hq
    have hnone : ∀ d : SessionKey × Bytes,
        ((c.manager.udp.lookup d.1).any fun e' => decide (e'.queue = q)) = false := by
      intro d
      rw [Bool.eq_false_iff, Ne, Option.any_eq_true]
      rintro ⟨e, he, hqe⟩
      exact hq d.1 e he (of_decide_eq_true hqe)
    rw [hroute]
    simp [hnone]

/-- The sessions after the sweep. -/
theorem PostPass.Spec.swept_settled (hS : S.Lawful) (h : PostPass.Spec c now p)
    (hr : c.Registered streams sessions) (hp : (postPass c now).result = .ok p) (k : SessionKey) :
    p.swept.1.manager.udp.lookup k = (c.manager.udp.lookup k).bind (c.settled now k) := by
  have hconfig : p.routed.config = c.config := by
    rw [(postPass_result hp).2.2.2, route_frame, (h.drain hS hr hp).core, (h.reap hr hp).core, h.tcp.core]
  rw [h.swept_lookup]
  have hrouted := h.routed_lookup hS hr hp k
  cases he : c.manager.udp.lookup k with
  | none =>
    rw [he] at hrouted
    simp [hrouted]
  | some e =>
    rw [he, Option.map_some] at hrouted
    simp only [mem_expiredKeys, hrouted, hconfig, Option.some.injEq, exists_eq_left', Option.bind_some,
      Core.settled]

/-- The queue of a session after the sweep. -/
theorem PostPass.Spec.swept_queue (hS : S.Lawful) (h : PostPass.Spec c now p)
    (hr : c.Registered streams sessions) (hp : (postPass c now).result = .ok p) {k : SessionKey}
    {e : UdpEntry} (he : c.manager.udp.lookup k = some e) :
    p.swept.1.queues[e.queue]? = (c.queues[e.queue]?).map fun q =>
      ⟨q.inner ++ c.heldFor k, q.closed || (c.settled now k e).isNone⟩ := by
  have hsweep := Ends.swept (h.registered hr).routed h.swept
  have hqueue := (h.routed_queues hS hr hp).1 he
  have hgone : p.swept.1.manager.udp.lookup k = c.settled now k e := by
    rw [h.swept_settled hS hr hp, he, Option.bind_some]
  obtain ⟨e', he', hq⟩ : ∃ e', p.routed.manager.udp.lookup k = some e' ∧ e'.queue = e.queue := by
    rw [h.routed_lookup hS hr hp, he]
    exact ⟨_, rfl, by split <;> rfl⟩
  cases hset : c.settled now k e with
  | none =>
    rw [← hq, hsweep.closed he' (hgone.trans hset), hq, hqueue, Option.map_map]
    simp [UdpQueue.markClosed, Function.comp_def]
  | some e'' =>
    rw [hsweep.kept, hqueue]
    · simp
    · -- no entry that has gone has this queue
      intro k' e₁ he₁ hgone' hq'
      obtain rfl := (h.registered hr).routed.udp.queue_inj he₁ he' (hq'.trans hq.symm)
      cases hgone'.symm.trans (hgone.trans hset)

/-- A queue of no session after the sweep. -/
theorem PostPass.Spec.swept_otherQueue (hS : S.Lawful) (h : PostPass.Spec c now p)
    (hr : c.Registered streams sessions) (hp : (postPass c now).result = .ok p) {q : QueueRef}
    (hq : ∀ k e, c.manager.udp.lookup k = some e → e.queue ≠ q) :
    p.swept.1.queues[q]? = c.queues[q]? := by
  rw [(Ends.swept (h.registered hr).routed h.swept).kept, (h.routed_queues hS hr hp).2 hq]
  intro k e' he' _
  rw [h.routed_lookup hS hr hp, Option.map_eq_some_iff] at he'
  obtain ⟨e, he, rfl⟩ := he'
  have hne := hq k e he
  split <;> exact hne

/-- The transitions leave the sockets of the entries as they are. -/
theorem TcpLoop.Spec.socketsOf {st : TcpLoop S} (h : TcpLoop.Spec c st) (keys : List SessionKey)
    (id : InterfaceId) : st.core.socketsOf keys id = c.socketsOf keys id := by
  refine Core.socketsOf_congr (fun k _ _ => ?_) ?_
  · rw [h.entries, Option.map_map]
    congr 1
    funext e
    exact TcpEntry.advance_handle e _
  · rw [h.core]
    rfl

/-- **The post-pass is through.** -/
theorem PostPass.Spec.outcome (hS : S.Lawful) (h : PostPass.Spec c now p)
    (hr : c.Registered streams sessions) (hp : (postPass c now).result = .ok p) :
    PostPass.Outcome c now p := by
  have hreap := h.reap hr hp
  have hdrain := h.drain hS hr hp
  have hroute : p.routed = _ := (postPass_result hp).2.2.2.trans (route_frame now p.drained.2 p.drained.1)
  have hsweep := Ends.swept (h.registered hr).routed h.swept
  refine ⟨h.config, Core.ids_of_feeds h.feeds, h.tcp.accepted, fun k => ?_, fun k => ?_, fun he => ?_,
    fun hq => ?_, fun id slot hs => ?_, ?_⟩
  · have htcp : p.core.manager.tcp = p.reaped.1.manager.tcp := by
      rw [h.settled]
      show p.swept.1.manager.tcp = _
      rw [hsweep.core, hroute, hdrain.core]
    rw [htcp, h.reaped_lookup, h.tcp.entries]
  · rw [h.settled]
    exact h.swept_settled hS hr hp k
  · rw [h.settled]
    exact h.swept_queue hS hr hp he
  · rw [h.settled]
    exact h.swept_otherQueue hS hr hp hq
  · have hs₀ : p.tcp.core.slot id = some slot := by
      rw [h.tcp.core]
      exact hs
    obtain ⟨slot₁, hs₁, hthin₁, hpool₁⟩ := hreap.slot id slot hs₀
    obtain ⟨slot₂, hs₂, rfl⟩ := hdrain.slots (h.registered hr).reaped id slot₁ hs₁
    have hs₂' : p.routed.slot id = some { slot₁ with sockets := slot₁.sockets.map S.drainedSocket } := by
      rw [hroute]
      exact hs₂
    obtain ⟨slot₃, hs₃, hthin₃, hpool₃⟩ := hsweep.slot id _ hs₂'
    refine ⟨slot₃, by rw [h.settled]; exact hs₃, ?_, (hthin₁.sockets.map _).trans hthin₃.sockets⟩
    rw [hthin₃.frame, hpool₃]
    simp only
    rw [hpool₁, h.tcp.socketsOf, hthin₁.frame]
  · have hcharge := h.charge hr
    have hbytes : p.swept.1.bufferBytes = c.bufferBytes := by
      rw [hsweep.core, hroute, hdrain.core, hreap.core, h.tcp.core]
    have hcore : p.core.charge = p.swept.1.charge := by
      rw [h.settled]
      rfl
    rw [hcore, h.settled]
    show p.swept.1.bufferBytes - p.swept.2 = _
    rw [hbytes]
    omega

/-- **The post-pass ends**, from every core in order, and leaves one. -/
theorem postPass_outcome (hS : S.Lawful) (hr : c.Registered streams sessions) (now : Instant) :
    ∃ p, (postPass c now).result = .ok p ∧ PostPass.Outcome c now p ∧
      p.core.Registered (streams ++ p.tcp.accepted.filterMap Session.stream?) sessions := by
  have hok : Ok (Call.Good False) (postPass c now) (PostPass.Spec c now) :=
    postPass_run hS hr fun _ _ => False.elim
  obtain ⟨⟨p, hp, hspec⟩, -⟩ := hok
  exact ⟨p, hp, hspec.outcome hS hr hp, (hspec.registered hr).core⟩

/-- What a cycle has gone through when it is over. -/
structure Cycle.Outcome (c : Core S) (now : Instant) (polls : InterfaceId → List (PollEvent S))
    (r : Cycle S) : Prop where
  admitted : (prePass c now).result = .ok r.admitted
  polled : r.polled = r.admitted.1.pollSlots polls
  post : PostPass.Outcome r.polled now r.post
  core : r.core = r.post.core.drainEgress.1
  egress : r.egress = r.post.core.drainEgress.2
  accepted : r.accepted = r.admitted.2 ++ r.post.tcp.accepted

/-- **The cycle ends**, from every core in order. -/
theorem pollOnce_outcome (hS : S.Lawful) (hr : c.Registered streams sessions) (now : Instant)
    (polls : InterfaceId → List (PollEvent S)) :
    ∃ r, (pollOnce c now polls).result = .ok r ∧ r.Outcome c now polls ∧
      r.post.core.Registered (streams ++ r.post.tcp.accepted.filterMap Session.stream?)
        (sessions ++ r.admitted.2.filterMap Session.session?) := by
  have hok : Ok (Call.Good False) (prePass c now) fun st =>
      ReflTransGen (Admit now c.Queued) (c, []) st ∧ st.1.feeds = c.feeds := prePass_ok hr
  obtain ⟨⟨admitted, hadm, hrun, -⟩, -⟩ := hok
  have hr' := (Admits.registered hS hrun (by simpa using hr)).pollSlots polls
  obtain ⟨post, hpost, hout, hreg⟩ := postPass_outcome hS hr' now
  refine ⟨⟨admitted, admitted.1.pollSlots polls, post, post.core.drainEgress.1,
    admitted.2 ++ post.tcp.accepted, post.core.drainEgress.2⟩, ?_, ⟨hadm, rfl, hout, rfl, rfl, rfl⟩, hreg⟩
  unfold pollOnce
  exact bind_result_ok.mpr ⟨admitted, hadm, bind_result_ok.mpr ⟨post, hpost, rfl⟩⟩

end Outcome

end WayNetstack

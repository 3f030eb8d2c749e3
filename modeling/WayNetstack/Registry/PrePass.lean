import WayNetstack.Registry.Moves

/-!
# What the pre-pass does

From a core in order the pre-pass ends without a fault, all its calls are good
(`Call.Good`), and what it does is a run of `Admit`.
-/

namespace WayNetstack

open Lib Lib.Table Lib.Traced SessionManager Relation

variable {S : Smoltcp}

/-- A call that finds what it expects; a release of bytes that are held, where the
budget is exact. -/
def Call.Good (exact : Prop) : Call → Prop
  | .getMut _ _ expected found => found = some expected
  | .remove _ _ expected found => found = some expected
  | .release bytes held => exact → bytes ≤ held

variable {exact : Prop}

/-! ### Reaching a socket -/

namespace InterfaceSlot

variable {slot : InterfaceSlot S} {h : SocketHandle}

theorem getTcp_ok {t : S.Tcp} (hget : slot.sockets.get? h = some (.tcp t)) :
    Ok (Call.Good exact) (slot.getTcp h) (· = t) := by
  unfold getTcp protoAt
  rw [hget]
  exact ok_call rfl rfl

theorem getUdp_ok {u : S.Udp} (hget : slot.sockets.get? h = some (.udp u)) :
    Ok (Call.Good exact) (slot.getUdp h) (· = u) := by
  unfold getUdp protoAt
  rw [hget]
  exact ok_call rfl rfl

theorem removeSocket_ok {s : S.Socket} (hget : slot.sockets.get? h = some s) :
    Ok (Call.Good exact) (slot.removeSocket h s.proto) (· = (s, slot.withoutSocket h)) := by
  unfold removeSocket protoAt
  rw [hget]
  exact ok_call rfl rfl

end InterfaceSlot

namespace Core

variable {c : Core S} {streams : List WayTcpStream} {sessions : List WayUdpSession}

theorem exists_of_protoAt {i : InterfaceId} {h : SocketHandle} {p : Proto}
    (hp : c.protoAt i h = some p) :
    ∃ slot s, c.slot i = some slot ∧ slot.sockets.get? h = some s ∧ s.proto = p := by
  unfold protoAt socketAt at hp
  obtain ⟨s, hs, rfl⟩ := Option.map_eq_some_iff.mp hp
  obtain ⟨slot, hslot, hget⟩ := Option.bind_eq_some_iff.mp hs
  exact ⟨slot, s, hslot, hget, rfl⟩

theorem exists_tcp {i : InterfaceId} {h : SocketHandle} (hp : c.protoAt i h = some .tcp) :
    ∃ slot t, c.slot i = some slot ∧ slot.sockets.get? h = some (.tcp t) := by
  obtain ⟨slot, s, hslot, hget, hs⟩ := exists_of_protoAt hp
  cases s with
  | tcp t => exact ⟨slot, t, hslot, hget⟩
  | udp u => cases hs

theorem exists_udp {i : InterfaceId} {h : SocketHandle} (hp : c.protoAt i h = some .udp) :
    ∃ slot u, c.slot i = some slot ∧ slot.sockets.get? h = some (.udp u) := by
  obtain ⟨slot, s, hslot, hget, hs⟩ := exists_of_protoAt hp
  cases s with
  | tcp t => cases hs
  | udp u => exact ⟨slot, u, hslot, hget⟩

/-- The slot found under an identifier is found under its own. -/
theorem slot_id {i : InterfaceId} {slot : InterfaceSlot S} (h : c.slot i = some slot) :
    c.slot slot.id = some slot := by
  rw [id_of_slot h, h]

end Core

/-! ### The pre-pass -/

section PrePass

variable {c : Core S} {i : ℕ} {slot : InterfaceSlot S} {key : SessionKey} {now : Instant}

/-- The allocation of a TCP socket: nothing happens without budget, and otherwise the socket
listens or is dropped. -/
theorem allocTcp_exact (hn : c.ids.Nodup) (hi : c.slots[i]? = some slot) :
    Ok (Call.Good exact) (allocTcp c i key) fun c' => ¬c.Affords (2 * slot.tcpBufferSize) ∧ c' = c ∨
      c.Affords (2 * slot.tcpBufferSize) ∧
      match S.tcpListen (slot.tcpPool.head?.getD (S.tcpNew slot.tcpBufferSize slot.tcpBufferSize))
          ⟨some key.dst.addr, key.dst.port⟩ with
      | .error _ => c' = c.setSlot (slot.withPool slot.tcpPool.tail)
      | .ok t => c' = c.openTcp slot key t := by
  unfold allocTcp
  simp only [hi]
  cases hres : c.reserveBuffer (2 * slot.tcpBufferSize) with
  | none =>
    exact ok_pure (.inl ⟨Core.reserveBuffer_eq_none.mp hres, rfl⟩)
  | some c₁ =>
    obtain ⟨ha, rfl⟩ := Core.reserveBuffer_eq_some.mp hres
    cases hl : S.tcpListen (slot.tcpPool.head?.getD (S.tcpNew slot.tcpBufferSize slot.tcpBufferSize))
        ⟨some key.dst.addr, key.dst.port⟩ with
    | error err =>
      -- the reservation is released again
      refine ok_call (fun _ => Nat.le_add_left _ _) (.inr ⟨ha, ?_⟩)
      have hslots := Core.slots_set hn hi (slot.withPool slot.tcpPool.tail) rfl
      have hn' := Nat.add_sub_cancel c.bufferBytes (2 * slot.tcpBufferSize)
      unfold Core.setSlotAt
      simp only [hn']
      exact congrArg (fun l => { c with slots := l }) hslots
    | ok t =>
      refine ok_pure (.inr ⟨ha, ?_⟩)
      have hslots := Core.slots_set hn hi ((slot.withPool slot.tcpPool.tail).withSocket (.tcp t)) rfl
      simp only [Core.openTcp, ← hslots]
      rfl

/-- The two ways a TCP socket is allocated, and the two it is not. -/
theorem allocTcp_ok (hn : c.ids.Nodup) (hi : c.slots[i]? = some slot) :
    Ok (Call.Good exact) (allocTcp c i key) fun c' => c' = c ∨
      c' = c.setSlot (slot.withPool slot.tcpPool.tail) ∨
      ∃ t, c.Affords (2 * slot.tcpBufferSize) ∧ c' = c.openTcp slot key t ∧
        S.tcpListen (slot.tcpPool.head?.getD (S.tcpNew slot.tcpBufferSize slot.tcpBufferSize))
          ⟨some key.dst.addr, key.dst.port⟩ = .ok t := by
  refine (allocTcp_exact hn hi).mono ?_
  rintro c' (⟨-, hc⟩ | ⟨ha, hc⟩)
  · exact .inl hc
  · split at hc
    · exact .inr (.inl hc)
    · next t hl => exact .inr (.inr ⟨t, ha, hc, hl⟩)

/-- What a packet is parsed to, its transport header was. -/
theorem exists_dispatchL4 {pkt : Bytes} {x : IpEndpoint × IpEndpoint × L4} (h : parseL4 S pkt = some x) :
    ∃ srcIp dstIp nextHeader payload, dispatchL4 S srcIp dstIp nextHeader payload .ignored = some x := by
  unfold parseL4 at h
  split at h
  · cases h
  split at h
  · split at h
    · obtain ⟨repr, -, hd⟩ := Option.bind_eq_some_iff.mp h
      exact ⟨_, _, _, _, hd⟩
    · cases h
  split at h
  · split at h
    · obtain ⟨repr, -, hd⟩ := Option.bind_eq_some_iff.mp h
      exact ⟨_, _, _, _, hd⟩
    · cases h
  · cases h

/-- The UDP destination of a parsed packet has a port. -/
theorem parseL4_udp_port (hb : S.Binds) {pkt : Bytes} {src dst : IpEndpoint}
    (h : parseL4 S pkt = some (src, dst, .udp)) : dst.port ≠ 0 := by
  obtain ⟨srcIp, dstIp, nextHeader, payload, hd⟩ := exists_dispatchL4 h
  unfold dispatchL4 at hd
  cases nextHeader with
  | tcp =>
    simp only [Option.ite_none_right_eq_some] at hd
    obtain ⟨repr, -, heq⟩ := Option.map_eq_some_iff.mp hd.2
    simp at heq
  | udp =>
    simp only [Option.ite_none_right_eq_some] at hd
    obtain ⟨repr, hr, heq⟩ := Option.map_eq_some_iff.mp hd.2
    simp only [Prod.mk.injEq, and_true] at heq
    rw [← heq.2]
    exact hb.udpParse_port hr
  | other n => cases hd

/-- The TCP destination of a parsed packet has a port. -/
theorem parseL4_tcp_port (hl : S.Listens) {pkt : Bytes} {src dst : IpEndpoint} {syn : Bool}
    (h : parseL4 S pkt = some (src, dst, .tcp syn)) : dst.port ≠ 0 := by
  obtain ⟨srcIp, dstIp, nextHeader, payload, hd⟩ := exists_dispatchL4 h
  unfold dispatchL4 at hd
  cases nextHeader with
  | tcp =>
    simp only [Option.ite_none_right_eq_some] at hd
    obtain ⟨repr, hr, heq⟩ := Option.map_eq_some_iff.mp hd.2
    simp only [Prod.mk.injEq] at heq
    rw [← heq.2.1]
    exact hl.tcpParse_port hr
  | udp =>
    simp only [Option.ite_none_right_eq_some] at hd
    obtain ⟨repr, -, heq⟩ := Option.map_eq_some_iff.mp hd.2
    simp at heq
  | other n => cases hd

/-- The allocation of a UDP session: it joins the socket of its destination, or makes one if
there is budget and the bind succeeds; a failed bind leaves the reservation. -/
theorem allocUdp_exact (key : SessionKey) (now : Instant) (hn : c.ids.Nodup) (hi : c.slots[i]? = some slot)
    (hid : key.interface = slot.id) :
    match c.manager.udpDstSockets.lookup (dstOf key) with
    | some (h, n) => allocUdp c i key now =
        (c.joinUdp key h n now, some (.udp (sessionOf key h c.queues.length)))
    | none => ¬c.Affords (c.udpCharge slot) ∧ allocUdp c i key now = (c, none) ∨
      c.Affords (c.udpCharge slot) ∧
      match S.udpBind (S.udpNew (max c.config.udpBufferPackets 1)
          (max c.config.udpBufferBytes slot.mtu)) key.dst with
      | .error _ => allocUdp c i key now =
          ({ c with bufferBytes := c.bufferBytes + c.udpCharge slot }, none)
      | .ok u => allocUdp c i key now = (c.openUdpNew slot key u now,
          some (.udp (sessionOf key (S.freeIndex slot.sockets) c.queues.length))) := by
  have hset : c.slots.set i slot = c.slots := by
    obtain ⟨hlt, hget⟩ := List.getElem?_eq_some_iff.mp hi
    rw [← hget, List.set_getElem_self]
  unfold allocUdp
  simp only [hi]
  cases hd : c.manager.udpDstSockets.lookup (dstOf key) with
  | none =>
    have hd' : c.manager.udpDstSockets.lookup (slot.id, key.dst) = none := by rw [← hid]; exact hd
    rw [show c.manager.udpDstSockets.lookup (key.interface, key.dst) = none from hd]
    simp only [Option.isNone_none, if_true]
    cases hres : c.reserveBuffer (max c.config.udpBufferPackets 1 * 64 +
        max c.config.udpBufferBytes slot.mtu) with
    | none =>
      exact .inl ⟨Core.reserveBuffer_eq_none.mp hres, rfl⟩
    | some c₁ =>
      obtain ⟨ha, rfl⟩ := Core.reserveBuffer_eq_some.mp hres
      simp only [udpSocketFor_of_none hd', createUdp]
      refine .inr ⟨ha, ?_⟩
      cases hb : S.udpBind (S.udpNew (max c.config.udpBufferPackets 1)
          (max c.config.udpBufferBytes slot.mtu)) key.dst with
      | error err => rfl
      | ok u =>
        have hretain := udpSocketRetain_of_some
          (m := { c.manager with
            udpDstSockets := c.manager.udpDstSockets.insert (slot.id, key.dst) (S.freeIndex slot.sockets, 0) })
          (lookup_insert' _ _ _ _ |>.trans (if_pos rfl))
        rw [replace_insert] at hretain
        have hslots := Core.slots_set hn hi (slot.withSocket (.udp u)) rfl
        simp only [Option.map_some, InterfaceSlot.addSocket, openUdp, Core.setSlotAt, hretain,
          Core.openUdpNew, ← hslots, dstOf, hid]
        rfl
  | some hn' =>
    obtain ⟨h, n⟩ := hn'
    have hd' : c.manager.udpDstSockets.lookup (slot.id, key.dst) = some (h, n) := by
      rw [← hid]
      exact hd
    rw [show c.manager.udpDstSockets.lookup (key.interface, key.dst) = some (h, n) from hd]
    simp only [Option.isNone_some, Bool.false_eq_true, if_false, udpSocketFor_of_some hd']
    simp only [openUdp, Core.setSlotAt, hset, udpSocketRetain_of_some hd', Core.joinUdp, dstOf, hid]

/-- The ways a UDP session is allocated, and those it is not. -/
theorem allocUdp_cases (key : SessionKey) (now : Instant) (hn : c.ids.Nodup) (hi : c.slots[i]? = some slot)
    (hid : key.interface = slot.id) :
    allocUdp c i key now = (c, none) ∨
    (c.Affords (c.udpCharge slot) ∧
      (∀ u, S.udpBind (S.udpNew (max c.config.udpBufferPackets 1)
        (max c.config.udpBufferBytes slot.mtu)) key.dst ≠ .ok u) ∧
      allocUdp c i key now = ({ c with bufferBytes := c.bufferBytes + c.udpCharge slot }, none)) ∨
    (∃ u, c.manager.udpDstSockets.lookup (dstOf key) = none ∧ c.Affords (c.udpCharge slot) ∧
      S.udpBind (S.udpNew (max c.config.udpBufferPackets 1)
        (max c.config.udpBufferBytes slot.mtu)) key.dst = .ok u ∧
      allocUdp c i key now = (c.openUdpNew slot key u now,
        some (.udp (sessionOf key (S.freeIndex slot.sockets) c.queues.length)))) ∨
    ∃ h n, c.manager.udpDstSockets.lookup (dstOf key) = some (h, n) ∧
      allocUdp c i key now =
        (c.joinUdp key h n now, some (.udp (sessionOf key h c.queues.length))) := by
  have halloc := allocUdp_exact key now hn hi hid
  split at halloc
  · next h n hd => exact .inr (.inr (.inr ⟨h, n, hd, halloc⟩))
  · next hd =>
    rcases halloc with ⟨-, halloc⟩ | ⟨ha, halloc⟩
    · exact .inl halloc
    split at halloc
    · next err hb =>
      refine .inr (.inl ⟨ha, fun u hu => ?_, halloc⟩)
      cases hb.symm.trans hu
    · next u hb => exact .inr (.inr (.inl ⟨u, hd, ha, hb, halloc⟩))

/-- One packet: nothing is done, or a step of `Admit`; the devices are as they were. -/
theorem admit_ok {q : InterfaceId → Bytes → Prop} {pkt : Bytes} (hn : c.ids.Nodup)
    (hq : ∀ slot, c.slots[i]? = some slot → q slot.id pkt) (acc : List Session) :
    Ok (Call.Good exact) (admitPacket i now (c, acc) pkt) fun r =>
      (r = (c, acc) ∨ Admit now q (c, acc) r) ∧ r.1.feeds = c.feeds := by
  dsimp only [admitPacket]
  split
  · next src dst slot hp hi =>
    have hs := Core.slot_of_getElem? hn hi
    split
    · exact ok_pure ⟨.inl rfl, rfl⟩
    next hnew =>
    split
    · exact ok_pure ⟨.inl rfl, rfl⟩
    next hroom =>
    refine (allocTcp_ok hn hi).bind fun c' hc' => ok_pure ?_
    rcases hc' with rfl | rfl | ⟨t, ha, rfl, hl⟩
    · exact ⟨.inl rfl, rfl⟩
    · exact ⟨.inr (.spoil hs), Core.feeds_setSlot (slot.withPool _) hs rfl⟩
    · exact ⟨.inr (.tcp hs rfl (hq slot hi) hp (Option.not_isSome_iff_eq_none.mp hnew)
        (Nat.lt_of_not_le hroom) ha hl rfl),
        Core.feeds_setSlot ((slot.withPool _).withSocket _) hs rfl⟩
  · next src dst slot hp hi =>
    have hs := Core.slot_of_getElem? hn hi
    split
    · exact ok_pure ⟨.inl rfl, rfl⟩
    next hnew =>
    split
    · exact ok_pure ⟨.inl rfl, rfl⟩
    next hroom =>
    have hnew := Option.not_isSome_iff_eq_none.mp hnew
    have hroom := Nat.lt_of_not_le hroom
    rcases allocUdp_cases ⟨slot.id, .udp, src, dst⟩ now hn hi rfl with
      h | ⟨ha, hb, h⟩ | ⟨u, hfresh, ha, hb, h⟩ | ⟨h', n, hin, h⟩
    · simp only [h]
      exact ok_pure ⟨.inl (by simp), rfl⟩
    · simp only [h]
      have hnb : ¬S.Binds := by
        intro hB
        obtain ⟨u, hu⟩ := hB.udpBind_new (max c.config.udpBufferPackets 1)
          (max c.config.udpBufferBytes slot.mtu) dst (parseL4_udp_port hB hp)
        exact hb u hu
      refine ok_pure ⟨.inr ?_, rfl⟩
      have hleak : Admit now q (c, acc) _ := .leak hnb ha
      simpa using hleak
    · simp only [h]
      exact ok_pure ⟨.inr (.udpNew hs rfl (hq slot hi) hp hnew hroom hfresh ha hb rfl),
        Core.feeds_setSlot (slot.withSocket _) hs rfl⟩
    · simp only [h]
      exact ok_pure ⟨.inr (.udpJoin hs rfl (hq slot hi) hp hnew hroom hin rfl), rfl⟩
  · exact ok_pure ⟨.inl rfl, rfl⟩

theorem feeds_setIngress (hi : c.slots[i]? = some slot) (f : List Bytes → List Bytes) :
    (c.setIngress i f).feeds =
      c.feeds.set i (slot.id, { slot.device with ingress := f slot.device.ingress }) := by
  unfold Core.setIngress Core.feeds
  simp only [hi, Core.setSlotAt, List.map_set]

theorem getElem?_feeds (hi : c.slots[i]? = some slot) :
    c.feeds[i]? = some (slot.id, slot.device) := by
  unfold Core.feeds
  rw [List.getElem?_map, hi]
  rfl

theorem admit_setIngress {queued : InterfaceId → Bytes → Prop} (hn : c.ids.Nodup)
    (hi : c.slots[i]? = some slot) (f : List Bytes → List Bytes) (acc : List Session) :
    Admit now queued (c, acc) (c.setIngress i f, acc) := by
  unfold Core.setIngress
  simp only [hi]
  rw [Core.setSlotAt_eq hn hi
    { slot with device := { slot.device with ingress := f slot.device.ingress } } rfl]
  exact .device (Core.slot_of_getElem? hn hi) _

variable {streams : List WayTcpStream} {sessions : List WayUdpSession}

theorem Admits.evolves {queued : InterfaceId → Bytes → Prop} {st st' : Core S × List Session}
    (hS : S.Lawful) (h : ReflTransGen (Admit now queued) st st')
    (hr : st.1.Registered streams (sessions ++ st.2.filterMap Session.session?)) :
    World.Evolves ⟨st.1, streams, sessions ++ st.2.filterMap Session.session?⟩
      ⟨st'.1, streams, sessions ++ st'.2.filterMap Session.session?⟩ :=
  World.Evolves.loop (fun st : Core S × List Session =>
      ⟨st.1, streams, sessions ++ st.2.filterMap Session.session?⟩)
    (fun _ _ hstep hr => hstep.evolves hS hr) h hr

theorem Admits.registered {queued : InterfaceId → Bytes → Prop} {st st' : Core S × List Session}
    (hS : S.Lawful) (h : ReflTransGen (Admit now queued) st st')
    (hr : st.1.Registered streams (sessions ++ st.2.filterMap Session.session?)) :
    st'.1.Registered streams (sessions ++ st'.2.filterMap Session.session?) :=
  (Admits.evolves hS h hr).registered hr

theorem Admits.dims {queued : InterfaceId → Bytes → Prop} {st st' : Core S × List Session}
    (h : ReflTransGen (Admit now queued) st st') :
    st'.1.slots.map InterfaceSlot.dims = st.1.slots.map InterfaceSlot.dims :=
  run_keeps (P := fun x : Core S × List Session =>
    x.1.slots.map InterfaceSlot.dims = st.1.slots.map InterfaceSlot.dims)
    (fun _ _ hstep hx => hstep.dims.trans hx) h rfl

theorem Admits.ids {queued : InterfaceId → Bytes → Prop} {st st' : Core S × List Session}
    (h : ReflTransGen (Admit now queued) st st') : st'.1.ids = st.1.ids :=
  Core.ids_of_dims (Admits.dims h)

/-- What the pre-pass has done so far is a run of `Admit` that has left the devices alone. -/
structure Admitted (now : Instant) (c : Core S) (st : Core S × List Session) : Prop where
  run : ReflTransGen (Admit now c.Queued) (c, []) st
  feeds : st.1.feeds = c.feeds

/-- **The loop over packets** `pkts` of slot `i`, the queue of which is taken out. It is a run of
`Admit`; `I done` is an invariant of the packets visited so far. -/
theorem admitPackets_rule (hn : c.ids.Nodup) {st : Core S × List Session} (hst : Admitted now c st)
    (hi : st.1.slots[i]? = some slot) {pkts : List Bytes} (hpkts : ∀ pkt ∈ pkts, pkt ∈ slot.device.ingress)
    {I : List Bytes → Core S × List Session → Prop} (start : I [] (st.1.setIngress i fun _ => [], st.2))
    (visit : ∀ done pkt st', ReflTransGen (Admit now c.Queued) (c, []) st' →
      st'.1.feeds = (st.1.setIngress i fun _ => []).feeds → I done st' →
      Ok (Call.Good exact) (admitPacket i now st' pkt) fun r =>
        (r = st' ∨ Admit now c.Queued st' r) → I (done ++ [pkt]) r) :
    Ok (Call.Good exact) (pkts.foldlM (admitPacket i now) (st.1.setIngress i fun _ => [], st.2)) fun st' =>
      (ReflTransGen (Admit now c.Queued) (c, []) st' ∧
        st'.1.feeds = (st.1.setIngress i fun _ => []).feeds) ∧ I pkts st' := by
  have hn' : ∀ {st'}, ReflTransGen (Admit now c.Queued) (c, []) st' → st'.1.ids.Nodup :=
    fun hrun => (Admits.ids hrun).symm ▸ hn
  have hfi := getElem?_feeds hi
  have hlt := (List.getElem?_eq_some_iff.mp hfi).1
  refine ok_foldlM_visited (I := fun done _ st' => (ReflTransGen (Admit now c.Queued) (c, []) st' ∧
    st'.1.feeds = (st.1.setIngress i fun _ => []).feeds) ∧ I done st')
    ⟨⟨hst.run.tail (admit_setIngress (hn' hst.run) hi _ _), rfl⟩, start⟩ ?_
  rintro done pkt rest ⟨c', acc'⟩ hsplit ⟨⟨hrun', hf'⟩, hI⟩
  have hpkt : pkt ∈ slot.device.ingress := hpkts pkt (hsplit ▸ List.mem_append_right _ List.mem_cons_self)
  have hq : ∀ slot', c'.slots[i]? = some slot' → c.Queued slot'.id pkt := by
    intro slot' hi'
    have hfi' := getElem?_feeds hi'
    rw [hf', feeds_setIngress hi, List.getElem?_set_self hlt, Option.some.injEq, Prod.mk.injEq] at hfi'
    rw [← hfi'.1]
    exact ⟨slot.device, hst.feeds ▸ List.mem_of_getElem? hfi, hpkt⟩
  refine ((admit_ok (hn' hrun') hq acc').and (visit done pkt (c', acc') hrun' hf' hI)).mono ?_
  rintro r ⟨⟨hstep, hf⟩, hI'⟩
  refine ⟨⟨?_, hf.trans hf'⟩, hI' hstep⟩
  rcases hstep with rfl | hstep
  · exact hrun'
  · exact hrun'.tail hstep

/-- The loop over packets, without an invariant. -/
theorem admitPackets_ok (hn : c.ids.Nodup) {st : Core S × List Session} (hst : Admitted now c st)
    (hi : st.1.slots[i]? = some slot) {pkts : List Bytes} (hpkts : ∀ pkt ∈ pkts, pkt ∈ slot.device.ingress) :
    Ok (Call.Good exact) (pkts.foldlM (admitPacket i now) (st.1.setIngress i fun _ => [], st.2)) fun st' =>
      ReflTransGen (Admit now c.Queued) (c, []) st' ∧
        st'.1.feeds = (st.1.setIngress i fun _ => []).feeds := by
  refine (admitPackets_rule hn hst hi hpkts (I := fun _ _ => True) trivial ?_).mono fun _ h => h.1
  intro done pkt st' hrun hf _
  exact (admit_ok (q := fun _ _ => True) ((Admits.ids hrun).symm ▸ hn) (fun _ _ => trivial) st'.2).mono
    fun _ _ _ => trivial

/-- The queue is put back where it was. -/
theorem Admitted.putBack (hn : c.ids.Nodup) {st st' : Core S × List Session} (hst : Admitted now c st)
    (hi : st.1.slots[i]? = some slot) (hrun : ReflTransGen (Admit now c.Queued) (c, []) st')
    (hf : st'.1.feeds = (st.1.setIngress i fun _ => []).feeds) :
    Admit now c.Queued st' (st'.1.setIngress i (· ++ slot.device.ingress), st'.2) ∧
      Admitted now c (st'.1.setIngress i (· ++ slot.device.ingress), st'.2) := by
  have hfi := getElem?_feeds hi
  have hlt := (List.getElem?_eq_some_iff.mp hfi).1
  have hempty := feeds_setIngress hi fun _ => []
  -- the queue was empty meanwhile, so putting it back restores the device
  have hfi' : st'.1.feeds[i]? = some (slot.id, { slot.device with ingress := [] }) := by
    rw [hf, hempty, List.getElem?_set_self hlt]
  obtain ⟨slot', hi', heq⟩ : ∃ slot', st'.1.slots[i]? = some slot' ∧
      (slot'.id, slot'.device) = (slot.id, { slot.device with ingress := [] }) := by
    unfold Core.feeds at hfi'
    rw [List.getElem?_map] at hfi'
    exact Option.map_eq_some_iff.mp hfi'
  have hback : Admit now c.Queued st' (st'.1.setIngress i (· ++ slot.device.ingress), st'.2) :=
    admit_setIngress ((Admits.ids hrun).symm ▸ hn) hi' (· ++ slot.device.ingress) st'.2
  refine ⟨hback, hrun.tail hback, ?_⟩
  obtain ⟨hid, hdev⟩ := Prod.mk.inj heq
  rw [feeds_setIngress hi', hid, hdev, hf, hempty, List.set_set, ← hst.feeds]
  obtain ⟨hlt', hget⟩ := List.getElem?_eq_some_iff.mp hfi
  have hdevice : ({ slot.device with ingress := [] ++ slot.device.ingress } : VirtualDevice) =
      slot.device := rfl
  rw [hdevice, ← hget, List.set_getElem_self]

/-- The pre-pass on a slot that is not there. -/
theorem prePassSlot_of_none {st : Core S × List Session} (hi : st.1.slots[i]? = none) :
    prePassSlot now st i = pure st := by
  have hing : st.1.ingress i = [] := by simp [Core.ingress, hi]
  have hset : ∀ f, st.1.setIngress i f = st.1 := fun f => by simp [Core.setIngress, hi]
  unfold prePassSlot
  rw [hing, hset]
  show pure (st.1.setIngress i _, st.2) = _
  rw [hset]

theorem ingress_of_slot (hi : c.slots[i]? = some slot) : c.ingress i = slot.device.ingress := by
  simp [Core.ingress, hi]

/-- The pre-pass on one slot. -/
theorem prePassSlot_ok (hn : c.ids.Nodup) {st : Core S × List Session} (hst : Admitted now c st) (i : ℕ) :
    Ok (Call.Good exact) (prePassSlot now st i) (Admitted now c) := by
  cases hi : st.1.slots[i]? with
  | none =>
    rw [prePassSlot_of_none hi]
    exact ok_pure hst
  | some slot =>
    unfold prePassSlot
    rw [ingress_of_slot hi]
    exact (admitPackets_ok hn hst hi fun _ h => h).bind fun st' hst' =>
      ok_pure (hst.putBack hn hi hst'.1 hst'.2).2

/-- The pre-pass on any slots. -/
theorem prePassSlots_ok (hn : c.ids.Nodup) (is : List ℕ) :
    Ok (Call.Good exact) (is.foldlM (prePassSlot now) (c, [])) (Admitted now c) :=
  ok_foldlM_const ⟨.refl, rfl⟩ fun i _ _ hst => prePassSlot_ok hn hst i

/-- **The pre-pass** is a run of `Admit` and leaves the devices as they were. -/
theorem prePass_ok (hr : c.Registered streams sessions) :
    Ok (Call.Good exact) (prePass c now) fun st =>
      ReflTransGen (Admit now c.Queued) (c, []) st ∧ st.1.feeds = c.feeds :=
  (prePassSlots_ok hr.shaped.ids _).mono fun _ h => ⟨h.run, h.feeds⟩

end PrePass

end WayNetstack

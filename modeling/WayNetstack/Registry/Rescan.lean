import WayNetstack.Registry.Allocation

/-!
# Scanning the queues again

The pre-pass puts the packets it has looked at back, so that the next cycle may scan them
again. What it decides about a packet depends on counters that change during the scan: the
sizes of the tables, the budget, the map of shared sockets. All of these only grow while the
pre-pass runs, and a packet that has been looked at is settled (`Core.Settled`): it starts no
flow, or its flow has an entry, or it is refused and stays so.

**`prePass_idempotent`**: in a core whose interfaces are distinct and whose pooled sockets are
not open, a second pre-pass does nothing at all, and the first one makes one entry, one
listening socket and one session for each new flow (`Core.OncePerFlow`).
-/

namespace WayNetstack

open Lib Lib.Table Lib.Traced SessionManager Relation

variable {S : Smoltcp}

/-! ### Settled packets -/

/-- Looking at the packet, which is queued in a slot like `slot`, changes nothing: it starts
no flow, its flow has an entry, or a limit refuses it. -/
def Core.Settled (c : Core S) (slot : InterfaceSlot S) (pkt : Bytes) : Prop :=
  match parseL4 S pkt with
  | some (src, dst, .tcp true) =>
    (c.manager.tcp.lookup ⟨slot.id, .tcp, src, dst⟩).isSome ∨
      c.config.tcpMaxConnections ≤ len c.manager.tcp ∨ ¬c.Affords (2 * slot.tcpBufferSize)
  | some (src, dst, .udp) =>
    (c.manager.udp.lookup ⟨slot.id, .udp, src, dst⟩).isSome ∨
      c.config.udpMaxSessions ≤ len c.manager.udp ∨
      c.manager.udpDstSockets.lookup (slot.id, dst) = none ∧ ¬c.Affords (c.udpCharge slot)
  | _ => True

instance (c : Core S) (slot : InterfaceSlot S) (pkt : Bytes) : Decidable (c.Settled slot pkt) := by
  unfold Core.Settled
  exact match parseL4 S pkt with
    | none | some (_, _, .tcp false) => inferInstanceAs (Decidable True)
    | some (_, _, .tcp true) => inferInstanceAs (Decidable (_ ∨ _ ∨ _))
    | some (_, _, .udp) => inferInstanceAs (Decidable (_ ∨ _ ∨ _))

/-- No pooled socket is open. -/
def Core.PoolsClosed (c : Core S) : Prop := ∀ slot ∈ c.slots, ∀ t ∈ slot.tcpPool, S.tcpIsOpen t = false

section Settled

variable {c c' : Core S} {slot slot' : InterfaceSlot S} {pkt : Bytes} {i : ℕ} {now : Instant} {exact : Prop}
  {queued : InterfaceId → Bytes → Prop} {st st' : Core S × List Session}

/-- Only the sizes of the slot matter. -/
theorem Core.Settled.congr (h : c.Settled slot pkt) (hd : slot'.dims = slot.dims) : c.Settled slot' pkt := by
  simp only [InterfaceSlot.dims, Prod.mk.injEq] at hd
  unfold Settled udpCharge at h ⊢
  rw [hd.1, hd.2.1, hd.2.2]
  exact h

/-- A settled packet is passed over. -/
theorem admitPacket_settled (hi : c.slots[i]? = some slot) (h : c.Settled slot pkt) (acc : List Session) :
    admitPacket i now (c, acc) pkt = pure (c, acc) := by
  unfold Core.Settled at h
  dsimp only [admitPacket]
  simp only [hi]
  split at h
  · next src dst hp =>
    simp only [hp]
    split
    · rfl
    next hnew =>
    split
    · rfl
    next hroom =>
    -- the flow is new and there is room: then there is no budget
    have hbudget := (h.resolve_left hnew).resolve_left hroom
    simp only [allocTcp, hi, Core.reserveBuffer_eq_none.mpr hbudget]
    rfl
  · next src dst hp =>
    simp only [hp]
    split
    · rfl
    next hnew =>
    split
    · rfl
    next hroom =>
    obtain ⟨hfresh, hbudget⟩ := (h.resolve_left hnew).resolve_left hroom
    have hres : c.reserveBuffer (max c.config.udpBufferPackets 1 * 64 +
        max c.config.udpBufferBytes slot.mtu) = none := Core.reserveBuffer_eq_none.mpr hbudget
    simp only [allocUdp, hi, hfresh, Option.isNone_none, if_true, hres, Option.toList_none, List.append_nil]
  · next hsyn hudp =>
    split
    · next src dst _ hp _ => exact absurd hp (hsyn src dst)
    · next src dst _ hp _ => exact absurd hp (hudp src dst)
    · rfl

/-! ### What has grown -/

/-- What only grows while the pre-pass runs. -/
structure Core.Grows (c c' : Core S) : Prop where
  config : c'.config = c.config
  ids : c'.ids = c.ids
  tcp : ∀ {k e}, c.manager.tcp.lookup k = some e → c'.manager.tcp.lookup k = some e
  udp : ∀ {k e}, c.manager.udp.lookup k = some e → c'.manager.udp.lookup k = some e
  tcpLen : len c.manager.tcp ≤ len c'.manager.tcp
  udpLen : len c.manager.udp ≤ len c'.manager.udp
  bufferBytes : c.bufferBytes ≤ c'.bufferBytes

theorem Core.Grows.refl (c : Core S) : c.Grows c := ⟨rfl, rfl, id, id, le_rfl, le_rfl, le_rfl⟩

theorem Core.Grows.trans {c'' : Core S} (h : c.Grows c') (h' : c'.Grows c'') : c.Grows c'' where
  config := h'.config.trans h.config
  ids := h'.ids.trans h.ids
  tcp := fun he => h'.tcp (h.tcp he)
  udp := fun he => h'.udp (h.udp he)
  tcpLen := h.tcpLen.trans h'.tcpLen
  udpLen := h.udpLen.trans h'.udpLen
  bufferBytes := h.bufferBytes.trans h'.bufferBytes

theorem Admit.grows (h : Admit now queued st st') : st.1.Grows st'.1 := by
  have hids : st'.1.ids = st.1.ids := Core.ids_of_dims h.dims
  cases h with
  | device | spoil => exact ⟨rfl, hids, id, id, le_rfl, le_rfl, le_rfl⟩
  | leak => exact ⟨rfl, hids, id, id, le_rfl, le_rfl, Nat.le_add_right _ _⟩
  | tcp hs hid hq hp new =>
    refine ⟨rfl, hids, lookup_insert_of_new new, id, ?_, le_rfl, Nat.le_add_right _ _⟩
    exact (Nat.le_succ _).trans (len_insert (notMem_of_lookup new) _).ge
  | udpNew hs hid hq hp new =>
    refine ⟨rfl, hids, id, lookup_insert_of_new new, le_rfl, ?_, Nat.le_add_right _ _⟩
    exact (Nat.le_succ _).trans (len_insert (notMem_of_lookup new) _).ge
  | udpJoin hs hid hq hp new =>
    refine ⟨rfl, hids, id, lookup_insert_of_new new, le_rfl, ?_, le_rfl⟩
    exact (Nat.le_succ _).trans (len_insert (notMem_of_lookup new) _).ge

theorem Admits.grows (h : ReflTransGen (Admit now queued) st st') : st.1.Grows st'.1 :=
  run_keeps (P := fun x : Core S × List Session => st.1.Grows x.1) (fun _ _ hstep hx => hx.trans hstep.grows) h
    (.refl st.1)

/-- A budget that is too small stays so. -/
theorem Core.Grows.not_affords (h : c.Grows c') {n : ℕ} (hn : ¬c.Affords n) : ¬c'.Affords n := by
  intro ha
  refine hn fun limit hl => ?_
  exact (Nat.add_le_add_right h.bufferBytes n).trans (ha limit (h.config ▸ hl))

theorem Core.Grows.isSome_tcp (h : c.Grows c') {k : SessionKey} (hk : (c.manager.tcp.lookup k).isSome) :
    (c'.manager.tcp.lookup k).isSome := by
  obtain ⟨e, he⟩ := Option.isSome_iff_exists.mp hk
  rw [h.tcp he]
  rfl

theorem Core.Grows.isSome_udp (h : c.Grows c') {k : SessionKey} (hk : (c.manager.udp.lookup k).isSome) :
    (c'.manager.udp.lookup k).isSome := by
  obtain ⟨e, he⟩ := Option.isSome_iff_exists.mp hk
  rw [h.udp he]
  rfl

/-- A destination without a socket, and without budget for one, gets none. -/
theorem Admit.stays_unaffordable (h : Admit now queued st st')
    (hd : ∀ slot', st.1.slot slot.id = some slot' → slot'.dims = slot.dims) {dst : IpEndpoint}
    (hnone : st.1.manager.udpDstSockets.lookup (slot.id, dst) = none)
    (hbudget : ¬st.1.Affords (st.1.udpCharge slot)) :
    st'.1.manager.udpDstSockets.lookup (slot.id, dst) = none := by
  cases h with
  | device | spoil | leak | tcp => exact hnone
  | @udpNew c acc slot₁ key pkt u hs hid hq hp new room fresh ha =>
    show (c.manager.udpDstSockets.insert (dstOf key) _).lookup (slot.id, dst) = none
    rw [lookup_insert']
    split
    · next heq =>
      -- the socket is made in a slot of the same size
      have hslot : slot.id = slot₁.id := (congrArg Prod.fst heq).trans hid
      have hdims := hd slot₁ (hslot ▸ hs)
      have hmtu : slot₁.mtu = slot.mtu := congrArg (fun d => d.2.1) hdims
      unfold Core.udpCharge at ha hbudget
      rw [hmtu] at ha
      exact absurd ha hbudget
    · exact hnone
  | @udpJoin c acc slot₁ key pkt h n hs hid hq hp new room inUse =>
    show (c.manager.udpDstSockets.replace (dstOf key) _).lookup (slot.id, dst) = none
    rw [lookup_replace inUse]
    split
    · next heq =>
      rw [heq] at hnone
      cases inUse.symm.trans hnone
    · exact hnone

/-- **What is settled stays settled.** -/
theorem Admit.settled (h : Admit now queued st st')
    (hd : ∀ slot', st.1.slot slot.id = some slot' → slot'.dims = slot.dims)
    (hset : st.1.Settled slot pkt) : st'.1.Settled slot pkt := by
  have hg := h.grows
  have hcharge : st'.1.udpCharge slot = st.1.udpCharge slot := by
    unfold Core.udpCharge
    rw [hg.config]
  unfold Core.Settled at hset ⊢
  split
  · next src dst hp =>
    simp only [hp] at hset
    rw [hg.config]
    rcases hset with hk | hcap | hbudget
    · exact .inl (hg.isSome_tcp hk)
    · exact .inr (.inl (hcap.trans hg.tcpLen))
    · exact .inr (.inr (hg.not_affords hbudget))
  · next src dst hp =>
    simp only [hp] at hset
    rw [hg.config, hcharge]
    rcases hset with hk | hcap | ⟨hnone, hbudget⟩
    · exact .inl (hg.isSome_udp hk)
    · exact .inr (.inl (hcap.trans hg.udpLen))
    · exact .inr (.inr ⟨h.stays_unaffordable hd hnone hbudget, hg.not_affords hbudget⟩)
  · trivial

/-! ### A packet is settled by a visit -/

/-- A pool only loses sockets. -/
theorem Admit.poolsClosed (h : Admit now queued st st') (hp : st.1.PoolsClosed) : st'.1.PoolsClosed := by
  have write : ∀ {c : Core S} {slot₁ : InterfaceSlot S} (slot₂ : InterfaceSlot S),
      c.PoolsClosed → c.slot slot₁.id = some slot₁ → slot₂.tcpPool ⊆ slot₁.tcpPool →
      ∀ {c' : Core S}, c'.slots = (c.setSlot slot₂).slots → c'.PoolsClosed := by
    intro c slot₁ slot₂ hp hs hsub c' hslots slot hslot t ht
    rcases Core.mem_setSlot (hslots ▸ hslot) with hmem | rfl
    · exact hp slot hmem t ht
    · exact hp slot₁ (Core.mem_of_slot hs) t (hsub ht)
  cases h with
  | @device c acc slot hs d => exact write { slot with device := d } hp hs (List.Subset.refl _) rfl
  | @spoil c acc slot hs => exact write (slot.withPool slot.tcpPool.tail) hp hs (List.tail_subset _) rfl
  | leak | udpJoin => exact hp
  | @tcp c acc slot key pkt t hs =>
    exact write ((slot.withPool slot.tcpPool.tail).withSocket (.tcp t)) hp hs (List.tail_subset _) rfl
  | @udpNew c acc slot key pkt u hs =>
    exact write (slot.withSocket (.udp u)) hp hs (List.Subset.refl _) rfl

/-- The next socket of a slot can listen. -/
theorem InterfaceSlot.nextTcp_isOpen (hS : S.Lawful) (hL : S.Listens)
    (hp : ∀ t ∈ slot.tcpPool, S.tcpIsOpen t = false) : S.tcpIsOpen slot.nextTcp = false := by
  unfold nextTcp
  cases hpool : slot.tcpPool with
  | nil => exact (hS.tcpIsOpen_iff _).mpr (.inl (hL.tcpNew_closed _ _))
  | cons t ts => exact hp t (hpool ▸ List.mem_cons_self)

/-- A SYN that there is room for opens an entry. -/
theorem allocTcp_opens (hS : S.Lawful) (hL : S.Listens) (hn : c.ids.Nodup) (hi : c.slots[i]? = some slot)
    (hpool : ∀ t ∈ slot.tcpPool, S.tcpIsOpen t = false) (key : SessionKey) (hport : key.dst.port ≠ 0)
    (ha : c.Affords (2 * slot.tcpBufferSize)) :
    ∃ t, S.tcpListen slot.nextTcp ⟨some key.dst.addr, key.dst.port⟩ = .ok t ∧
      Ok (Call.Good exact) (allocTcp c i key) (· = c.openTcp slot key t) := by
  obtain ⟨t, ht⟩ := hL.tcpListen_closed slot.nextTcp ⟨some key.dst.addr, key.dst.port⟩ hport
    (InterfaceSlot.nextTcp_isOpen hS hL hpool)
  refine ⟨t, ht, (allocTcp_exact hn hi).mono fun c' hc' => ?_⟩
  obtain ⟨-, hc'⟩ := hc'.resolve_left fun h => h.1 ha
  have ht' : S.tcpListen (slot.tcpPool.head?.getD (S.tcpNew slot.tcpBufferSize slot.tcpBufferSize))
    ⟨some key.dst.addr, key.dst.port⟩ = .ok t := ht
  rw [ht'] at hc'
  exact hc'

/-- **A packet that has been looked at is settled.** -/
theorem admitPacket_settles (hS : S.Lawful) (hL : S.Listens) (hB : S.Binds) (hn : c.ids.Nodup)
    (hi : c.slots[i]? = some slot) (hpool : c.PoolsClosed) (acc : List Session) :
    Ok (Call.Good exact) (admitPacket i now (c, acc) pkt) fun r => r.1.Settled slot pkt := by
  unfold Core.Settled
  dsimp only [admitPacket]
  simp only [hi]
  cases hp : parseL4 S pkt with
  | none => exact ok_pure trivial
  | some x =>
    obtain ⟨src, dst, l4⟩ := x
    cases l4 with
    | tcp syn =>
      cases syn with
      | false => exact ok_pure trivial
      | true =>
        simp only
        split
        · next hold => exact ok_pure (.inl hold)
        split
        · next hcap => exact ok_pure (.inr (.inl hcap))
        by_cases ha : c.Affords (2 * slot.tcpBufferSize)
        · obtain ⟨t, -, hok⟩ := allocTcp_opens hS hL hn hi
            (fun t ht => hpool slot (List.mem_of_getElem? hi) t ht)
            ⟨slot.id, .tcp, src, dst⟩ (parseL4_tcp_port hL hp) ha
          refine hok.bind ?_
          rintro _ rfl
          refine ok_pure (.inl ?_)
          show ((c.manager.tcp.insert _ _).lookup _).isSome
          rw [AList.lookup_insert]
          rfl
        · refine (allocTcp_exact hn hi).bind fun c' hc' => ?_
          rcases hc' with ⟨-, rfl⟩ | ⟨ha', -⟩
          · exact ok_pure (.inr (.inr ha))
          · exact absurd ha' ha
    | udp =>
      simp only
      split
      · next hold => exact ok_pure (.inl hold)
      split
      · next hcap => exact ok_pure (.inr (.inl hcap))
      have halloc := allocUdp_exact ⟨slot.id, .udp, src, dst⟩ now hn hi rfl
      split at halloc
      · rw [halloc]
        refine ok_pure (.inl ?_)
        show ((c.manager.udp.insert _ _).lookup _).isSome
        rw [AList.lookup_insert]
        rfl
      · next hnone =>
        rcases halloc with ⟨ha, halloc⟩ | ⟨-, halloc⟩
        · rw [halloc]
          exact ok_pure (.inr (.inr ⟨hnone, ha⟩))
        · obtain ⟨u, hu⟩ := hB.udpBind_new (max c.config.udpBufferPackets 1)
            (max c.config.udpBufferBytes slot.mtu) dst (parseL4_udp_port hB hp)
          rw [show S.udpBind _ (SessionKey.dst ⟨slot.id, .udp, src, dst⟩) = .ok u from hu] at halloc
          rw [halloc]
          refine ok_pure (.inl ?_)
          show ((c.manager.udp.insert _ _).lookup _).isSome
          rw [AList.lookup_insert]
          rfl

end Settled

/-! ### The whole scan -/

section Scan

variable {c : Core S} {i : ℕ} {now : Instant} {exact : Prop}

/-- The slots of a core and those of what the pre-pass has made of it. -/
theorem Admitted.slot {st : Core S × List Session} (hst : Admitted now c st) {slot : InterfaceSlot S}
    (hi : c.slots[i]? = some slot) :
    ∃ slot', st.1.slots[i]? = some slot' ∧ slot'.dims = slot.dims ∧ slot'.device = slot.device := by
  have hd : (st.1.slots.map InterfaceSlot.dims)[i]? = (c.slots.map InterfaceSlot.dims)[i]? := by
    rw [Admits.dims hst.run]
  have hf : st.1.feeds[i]? = c.feeds[i]? := by rw [hst.feeds]
  rw [List.getElem?_map, List.getElem?_map, hi, Option.map_some, Option.map_eq_some_iff] at hd
  obtain ⟨slot', hi', hdims⟩ := hd
  rw [getElem?_feeds hi, getElem?_feeds hi', Option.some.injEq, Prod.mk.injEq] at hf
  exact ⟨slot', hi', hdims, hf.2⟩

/-- The slot with an identifier has the sizes that it had. -/
theorem Admits.dims_slot {queued : InterfaceId → Bytes → Prop} {st₀ st : Core S × List Session}
    (hrun : ReflTransGen (Admit now queued) st₀ st) (hn : st₀.1.ids.Nodup) {slot slot' : InterfaceSlot S}
    (hi : st₀.1.slots[i]? = some slot) (hs' : st.1.slot slot.id = some slot') : slot'.dims = slot.dims := by
  obtain ⟨j, hj⟩ := List.mem_iff_getElem?.mp (Core.mem_of_slot hs')
  have hd : (st.1.slots.map InterfaceSlot.dims)[j]? = (st₀.1.slots.map InterfaceSlot.dims)[j]? := by
    rw [Admits.dims hrun]
  rw [List.getElem?_map, List.getElem?_map, hj, Option.map_some, eq_comm, Option.map_eq_some_iff] at hd
  obtain ⟨slot₁, hj₁, hdims⟩ := hd
  -- both have the identifier, so both are the slot at `i`
  have hid : slot₁.id = slot.id := (congrArg Prod.fst hdims).trans (Core.id_of_slot hs')
  have hs₁ := Core.slot_of_getElem? hn hj₁
  rw [hid, Core.slot_of_getElem? hn hi, Option.some.injEq] at hs₁
  rw [← hdims, hs₁]

theorem Admits.poolsClosed {queued : InterfaceId → Bytes → Prop} {st st' : Core S × List Session}
    (h : ReflTransGen (Admit now queued) st st') (hp : st.1.PoolsClosed) : st'.1.PoolsClosed :=
  run_keeps (P := fun x : Core S × List Session => x.1.PoolsClosed) (fun _ _ hstep => hstep.poolsClosed) h hp

theorem Admits.settled {queued : InterfaceId → Bytes → Prop} {st st' : Core S × List Session} (hn : c.ids.Nodup)
    (hst : ReflTransGen (Admit now queued) (c, []) st) (h : ReflTransGen (Admit now queued) st st')
    {slot : InterfaceSlot S} (hi : c.slots[i]? = some slot) {pkt : Bytes} (hset : st.1.Settled slot pkt) :
    st'.1.Settled slot pkt := by
  refine (run_keeps (P := fun x : Core S × List Session =>
    ReflTransGen (Admit now queued) (c, []) x ∧ x.1.Settled slot pkt) ?_ h ⟨hst, hset⟩).2
  rintro x y hstep ⟨hx, hset⟩
  exact ⟨hx.tail hstep, hstep.settled (fun slot' hs' => Admits.dims_slot hx hn hi hs') hset⟩

/-- The pre-pass on one slot settles its packets. -/
theorem prePassSlot_settles (hS : S.Lawful) (hL : S.Listens) (hB : S.Binds) (hn : c.ids.Nodup)
    (hpool : c.PoolsClosed) {st : Core S × List Session} (hst : Admitted now c st) (i : ℕ) :
    Ok (Call.Good exact) (prePassSlot now st i) fun st' => Admitted now c st' ∧
      ReflTransGen (Admit now c.Queued) st st' ∧
      ∀ slot, c.slots[i]? = some slot → ∀ pkt ∈ slot.device.ingress, st'.1.Settled slot pkt := by
  cases hi : c.slots[i]? with
  | none =>
    have hlen : st.1.slots.length = c.slots.length := by
      have := congrArg List.length (Admits.dims hst.run)
      simpa using this
    have hi' : st.1.slots[i]? = none := by
      rw [List.getElem?_eq_none_iff, hlen]
      exact List.getElem?_eq_none_iff.mp hi
    rw [prePassSlot_of_none hi']
    exact ok_pure ⟨hst, .refl, fun slot hslot => by cases hslot⟩
  | some slot =>
    obtain ⟨slot', hi', hdims, hdev⟩ := hst.slot hi
    have htake : Admit now c.Queued st (st.1.setIngress i fun _ => [], st.2) :=
      admit_setIngress ((Admits.ids hst.run).symm ▸ hn) hi' (fun _ => []) st.2
    unfold prePassSlot
    rw [ingress_of_slot hi', hdev]
    refine (admitPackets_rule hn hst hi' (fun pkt hpkt => hdev ▸ hpkt) (I := fun done st' =>
      ReflTransGen (Admit now c.Queued) st st' ∧ ∀ pkt ∈ done, st'.1.Settled slot pkt)
      ⟨.single htake, fun _ h => absurd h List.not_mem_nil⟩ ?_).bind ?_
    · rintro done pkt ⟨c', acc'⟩ hrun hf ⟨hfrom, hdone⟩
      have hn' : c'.ids.Nodup := (Admits.ids hrun).symm ▸ hn
      obtain ⟨slot₁, hi₁, hdims₁⟩ : ∃ slot₁, c'.slots[i]? = some slot₁ ∧ slot₁.dims = slot.dims := by
        have hd : (c'.slots.map InterfaceSlot.dims)[i]? = (c.slots.map InterfaceSlot.dims)[i]? := by
          rw [Admits.dims hrun]
        rw [List.getElem?_map, List.getElem?_map, hi, Option.map_some, Option.map_eq_some_iff] at hd
        exact hd
      refine (admitPacket_settles hS hL hB hn' hi₁ (Admits.poolsClosed hrun hpool) acc').mono ?_
      rintro r hset hstep
      have hfrom' : ReflTransGen (Admit now c.Queued) (c', acc') r := by
        rcases hstep with rfl | hstep
        · exact .refl
        · exact .single hstep
      refine ⟨hfrom.trans hfrom', fun q hq => ?_⟩
      rcases List.mem_append.mp hq with hq | hq
      · exact Admits.settled hn hrun hfrom' hi (hdone q hq)
      · rw [List.mem_singleton.mp hq]
        exact hset.congr hdims₁.symm
    · rintro st' ⟨⟨hrun, hf⟩, hfrom, hdone⟩
      obtain ⟨hback, hst'⟩ := hst.putBack hn hi' hrun hf
      rw [hdev] at hback hst'
      refine ok_pure ⟨hst', hfrom.tail hback, fun slot₁ hi₁ pkt hpkt => ?_⟩
      cases hi₁
      exact Admits.settled hn hrun (.single hback) hi (hdone pkt hpkt)

/-- **The pre-pass settles every packet it finds.** -/
theorem prePass_settles (hS : S.Lawful) (hL : S.Listens) (hB : S.Binds) (hn : c.ids.Nodup)
    (hpool : c.PoolsClosed) : Ok (Call.Good exact) (prePass c now) fun st => Admitted now c st ∧
      ∀ (i : ℕ) slot, c.slots[i]? = some slot → ∀ pkt ∈ slot.device.ingress, st.1.Settled slot pkt := by
  unfold prePass
  refine (ok_foldlM_visited (I := fun done _ st => Admitted now c st ∧ ∀ i ∈ done, ∀ slot,
    c.slots[i]? = some slot → ∀ pkt ∈ slot.device.ingress, st.1.Settled slot pkt)
    ⟨⟨.refl, rfl⟩, fun _ h => absurd h List.not_mem_nil⟩ ?_).mono ?_
  · rintro done i rest st - ⟨hst, hdone⟩
    refine (prePassSlot_settles hS hL hB hn hpool hst i).mono ?_
    rintro st' ⟨hst', hfrom, hset⟩
    refine ⟨hst', fun j hj slot hslot pkt hpkt => ?_⟩
    rcases List.mem_append.mp hj with hj | hj
    · exact Admits.settled hn hst.run hfrom hslot (hdone j hj slot hslot pkt hpkt)
    · rw [List.mem_singleton.mp hj] at hslot
      exact hset slot hslot pkt hpkt
  · rintro st ⟨hst, hall⟩
    refine ⟨hst, fun i slot hi => hall i (List.mem_range.mpr ?_) slot hi⟩
    exact (List.getElem?_eq_some_iff.mp hi).1

/-- Taking the queue out and putting it back. -/
theorem Core.setIngress_setIngress {slot : InterfaceSlot S} (hi : c.slots[i]? = some slot) :
    (c.setIngress i fun _ => []).setIngress i (· ++ slot.device.ingress) = c := by
  obtain ⟨hlt, hget⟩ := List.getElem?_eq_some_iff.mp hi
  simp only [setIngress, hi, setSlotAt, List.getElem?_set_self hlt, List.set_set, List.nil_append]
  rw [← hget, List.set_getElem_self]

/-- A slot with settled packets only is passed over. -/
theorem prePassSlot_settled (h : ∀ slot, c.slots[i]? = some slot → ∀ pkt ∈ slot.device.ingress,
    c.Settled slot pkt) (acc : List Session) : prePassSlot now (c, acc) i = pure (c, acc) := by
  cases hi : c.slots[i]? with
  | none => exact prePassSlot_of_none hi
  | some slot =>
    have hlt := (List.getElem?_eq_some_iff.mp hi).1
    have hset : (c.setIngress i fun _ => []).slots[i]? =
        some { slot with device := { slot.device with ingress := [] } } := by
      simp only [Core.setIngress, hi, Core.setSlotAt, List.getElem?_set_self hlt]
    have hloop : slot.device.ingress.foldlM (admitPacket i now) (c.setIngress i fun _ => [], acc) =
        pure (c.setIngress i fun _ => [], acc) := by
      refine foldlM_pure fun pkt hpkt => admitPacket_settled hset ?_ acc
      have hsame : (c.setIngress i fun _ => []).Settled slot pkt := by
        simp only [Core.setIngress, hi]
        exact h slot hi pkt hpkt
      exact hsame.congr rfl
    unfold prePassSlot
    rw [ingress_of_slot hi]
    show (slot.device.ingress.foldlM (admitPacket i now) (c.setIngress i fun _ => [], acc) >>= fun r =>
      pure (r.1.setIngress i (· ++ slot.device.ingress), r.2)) = _
    rw [hloop, pure_bind, Core.setIngress_setIngress hi]

/-- **A second pre-pass does nothing**, once every queued packet is settled. -/
theorem prePass_settled (h : ∀ (i : ℕ) slot, c.slots[i]? = some slot → ∀ pkt ∈ slot.device.ingress,
    c.Settled slot pkt) : prePass c now = pure (c, []) :=
  foldlM_pure fun i _ => prePassSlot_settled (h i) []

end Scan

/-! ### What one scan adds -/

/-- What a pre-pass has added to `c`: what was there is as it was, and for each new flow there
is one entry with one listening socket, or one session; for each new destination, one socket. -/
structure Core.OncePerFlow (c : Core S) (r : Core S × List Session) : Prop where
  tcp : ∀ {k e}, c.manager.tcp.lookup k = some e → r.1.manager.tcp.lookup k = some e
  udp : ∀ {k e}, c.manager.udp.lookup k = some e → r.1.manager.udp.lookup k = some e
  dst : ∀ {d h n}, c.manager.udpDstSockets.lookup d = some (h, n) →
    ∃ n', r.1.manager.udpDstSockets.lookup d = some (h, n')
  sockets : ∀ {id h s}, c.socketAt id h = some s → r.1.socketAt id h = some s
  /-- A new entry has a listening socket of its own. -/
  opened : ∀ {k e}, c.manager.tcp.lookup k = none → r.1.manager.tcp.lookup k = some e →
    c.socketAt k.interface e.handle = none ∧
      ∃ t, r.1.socketAt k.interface e.handle = some (.tcp t) ∧ S.tcpState t = .listen
  opened_inj : ∀ {k k' e e'}, c.manager.tcp.lookup k = none → c.manager.tcp.lookup k' = none →
    r.1.manager.tcp.lookup k = some e → r.1.manager.tcp.lookup k' = some e' →
    k.interface = k'.interface → e.handle = e'.handle → k = k'
  /-- A new TCP socket is that of a new entry. -/
  listening : ∀ {id h t}, c.socketAt id h = none → r.1.socketAt id h = some (.tcp t) →
    ∃ k e, c.manager.tcp.lookup k = none ∧ r.1.manager.tcp.lookup k = some e ∧ k.interface = id ∧ e.handle = h
  /-- A new destination has a socket of its own. -/
  bound : ∀ {id ep h n}, c.manager.udpDstSockets.lookup (id, ep) = none →
    r.1.manager.udpDstSockets.lookup (id, ep) = some (h, n) →
    c.socketAt id h = none ∧ ∃ u, r.1.socketAt id h = some (.udp u)
  bound_inj : ∀ {id ep ep' h n n'}, c.manager.udpDstSockets.lookup (id, ep) = none →
    c.manager.udpDstSockets.lookup (id, ep') = none →
    r.1.manager.udpDstSockets.lookup (id, ep) = some (h, n) →
    r.1.manager.udpDstSockets.lookup (id, ep') = some (h, n') → ep = ep'
  /-- A new UDP socket is that of a new destination. -/
  sharing : ∀ {id h u}, c.socketAt id h = none → r.1.socketAt id h = some (.udp u) →
    ∃ ep n, c.manager.udpDstSockets.lookup (id, ep) = none ∧
      r.1.manager.udpDstSockets.lookup (id, ep) = some (h, n)
  /-- The sessions are those of the new UDP entries, one each. -/
  streams : r.2.filterMap Session.stream? = []
  sessions : ((r.2.filterMap Session.session?).map (·.key)).Nodup
  session_iff : ∀ k, k ∈ (r.2.filterMap Session.session?).map (·.key) ↔
    c.manager.udp.lookup k = none ∧ (r.1.manager.udp.lookup k).isSome

section Additions

variable {c : Core S} {now : Instant} {queued : InterfaceId → Bytes → Prop} {st st' : Core S × List Session}

theorem Core.OncePerFlow.refl (c : Core S) : c.OncePerFlow (c, []) where
  tcp := id
  udp := id
  dst := fun h => ⟨_, h⟩
  sockets := id
  opened := fun hnone hsome => absurd (hnone.symm.trans hsome) nofun
  opened_inj := fun hnone _ hsome => absurd (hnone.symm.trans hsome) nofun
  listening := fun hnone hsome => absurd (hnone.symm.trans hsome) nofun
  bound := fun hnone hsome => absurd (hnone.symm.trans hsome) nofun
  bound_inj := fun hnone _ hsome => absurd (hnone.symm.trans hsome) nofun
  sharing := fun hnone hsome => absurd (hnone.symm.trans hsome) nofun
  streams := rfl
  sessions := List.nodup_nil
  session_iff := fun k => by
    constructor
    · intro h
      cases h
    · rintro ⟨hnone, hsome⟩
      rw [hnone] at hsome
      cases hsome

/-- A change of neither the tables nor the sockets adds nothing. -/
theorem Core.OncePerFlow.congr {c' c'' : Core S} {acc : List Session} (h : c.OncePerFlow (c', acc))
    (hm : c''.manager = c'.manager) (hs : c''.socketAt = c'.socketAt) : c.OncePerFlow (c'', acc) := by
  obtain ⟨h₁, h₂, h₃, h₄, h₅, h₆, h₇, h₈, h₉, h₁₀, h₁₁, h₁₂, h₁₃⟩ := h
  refine ⟨?_, ?_, ?_, ?_, ?_, ?_, ?_, ?_, ?_, ?_, h₁₁, h₁₂, ?_⟩ <;> simp only [hm, hs] <;> assumption

/-- A flow without an entry had none before. -/
theorem Core.OncePerFlow.new_tcp {r : Core S × List Session} (h : c.OncePerFlow r) {k : SessionKey}
    (new : r.1.manager.tcp.lookup k = none) : c.manager.tcp.lookup k = none := by
  cases hk : c.manager.tcp.lookup k with
  | none => rfl
  | some e => cases new.symm.trans (h.tcp hk)

theorem Core.OncePerFlow.new_udp {r : Core S × List Session} (h : c.OncePerFlow r) {k : SessionKey}
    (new : r.1.manager.udp.lookup k = none) : c.manager.udp.lookup k = none := by
  cases hk : c.manager.udp.lookup k with
  | none => rfl
  | some e => cases new.symm.trans (h.udp hk)

theorem Core.OncePerFlow.new_dst {r : Core S × List Session} (h : c.OncePerFlow r)
    {d : InterfaceId × IpEndpoint} (new : r.1.manager.udpDstSockets.lookup d = none) :
    c.manager.udpDstSockets.lookup d = none := by
  cases hk : c.manager.udpDstSockets.lookup d with
  | none => rfl
  | some e =>
    obtain ⟨n, hn⟩ := h.dst hk
    cases new.symm.trans hn

/-- A cell that is free was free before. -/
theorem Core.OncePerFlow.free {r : Core S × List Session} (h : c.OncePerFlow r) {id : InterfaceId}
    {hd : SocketHandle} (hfree : r.1.socketAt id hd = none) : c.socketAt id hd = none := by
  cases hk : c.socketAt id hd with
  | none => rfl
  | some s => cases hfree.symm.trans (h.sockets hk)

/-- A socket comes into a free cell of a slot. -/
theorem Core.socketAt_add {c : Core S} (c' : Core S) (hS : S.Lawful) {slot : InterfaceSlot S}
    (slot' : InterfaceSlot S) (hs : c.slot slot.id = some slot) (hid : slot'.id = slot.id) {s : S.Socket}
    (hsock : slot'.sockets = slot.sockets.insertAt (S.freeIndex slot.sockets) s)
    (hslots : c'.slots = (c.setSlot slot').slots) :
    c.socketAt slot.id (S.freeIndex slot.sockets) = none ∧
      (∀ id h, c'.socketAt id h =
        if id = slot.id ∧ h = S.freeIndex slot.sockets then some s else c.socketAt id h) ∧
      ∀ {id h s'}, c.socketAt id h = some s' → c'.socketAt id h = some s' := by
  have hfree : c.socketAt slot.id (S.freeIndex slot.sockets) = none := by
    rw [socketAt_of_slot hs]
    exact (hS.freeIndex_free slot.sockets).2
  have hw : ∀ id h, c'.socketAt id h =
      if id = slot.id ∧ h = S.freeIndex slot.sockets then some s else c.socketAt id h := by
    intro id h
    rw [socketAt_congr hslots]
    exact socketAt_write hs slot' hid
      (fun hd => by rw [hsock]; exact Slab.get?_insertAt (hS.freeIndex_free slot.sockets) s hd) id h
  refine ⟨hfree, hw, fun {id h s'} hsome => ?_⟩
  rw [hw, if_neg, hsome]
  rintro ⟨rfl, rfl⟩
  cases hfree.symm.trans hsome

/-- One more session, of a key that had no entry. -/
theorem sessions_append {c c' : Core S} {acc : List Session} (h : c.OncePerFlow (c', acc)) {key : SessionKey}
    (new : c'.manager.udp.lookup key = none) (hd : SocketHandle) (q : QueueRef) (e : UdpEntry) :
    let acc' := acc ++ [Session.udp (sessionOf key hd q)]
    acc'.filterMap Session.stream? = [] ∧ ((acc'.filterMap Session.session?).map (·.key)).Nodup ∧
      ∀ k, k ∈ (acc'.filterMap Session.session?).map (·.key) ↔
        c.manager.udp.lookup k = none ∧ ((c'.manager.udp.insert key e).lookup k).isSome := by
  have hkeys : ((acc ++ [Session.udp (sessionOf key hd q)]).filterMap Session.session?).map (·.key) =
      (acc.filterMap Session.session?).map (·.key) ++ [key] := by
    rw [List.filterMap_append, List.map_append]
    rfl
  have hnew : c.manager.udp.lookup key = none := h.new_udp new
  refine ⟨?_, ?_, fun k => ?_⟩
  · rw [List.filterMap_append, h.streams]
    rfl
  · rw [hkeys, List.nodup_append]
    refine ⟨h.sessions, List.nodup_singleton _, ?_⟩
    rintro k hk _ hk' rfl
    rw [List.mem_singleton] at hk'
    have hsome := ((h.session_iff k).mp hk).2
    rw [hk', show (c', acc).1.manager.udp.lookup key = none from new] at hsome
    cases hsome
  · rw [hkeys, List.mem_append, List.mem_singleton, lookup_insert', h.session_iff]
    by_cases hk : k = key
    · subst hk
      simp [hnew]
    · simp [hk]

variable {slot : InterfaceSlot S} {key : SessionKey} {c' : Core S} {acc : List Session}

theorem Core.OncePerFlow.openTcp (hS : S.Lawful) (h : c.OncePerFlow (c', acc))
    (hs : c'.slot slot.id = some slot) (hid : key.interface = slot.id)
    (new : c'.manager.tcp.lookup key = none) {t : S.Tcp} (ht : S.tcpState t = .listen) :
    c.OncePerFlow (c'.openTcp slot key t, acc) := by
  obtain ⟨hfree, hw, hkeep⟩ := socketAt_add (c'.openTcp slot key t) hS
    ((slot.withPool slot.tcpPool.tail).withSocket (.tcp t)) hs rfl rfl rfl
  -- the cells of the new entries are in use
  have hused : ∀ {k e}, c.manager.tcp.lookup k = none → c'.manager.tcp.lookup k = some e →
      k.interface = key.interface → e.handle ≠ S.freeIndex slot.sockets := by
    intro k e hnone he hint hhandle
    obtain ⟨-, t', ht', -⟩ := h.opened hnone he
    rw [hint, hid, hhandle] at ht'
    cases hfree.symm.trans ht'
  refine ⟨fun he => lookup_insert_of_new new (h.tcp he), h.udp, h.dst, fun hsome => hkeep (h.sockets hsome),
    ?_, ?_, ?_, ?_, h.bound_inj, ?_, h.streams, h.sessions, h.session_iff⟩
  · intro k e hnone he
    rcases lookup_of_insert he with ⟨rfl, rfl⟩ | ⟨-, he⟩
    · refine ⟨?_, t, ?_, ht⟩
      · rw [hid]
        exact h.free hfree
      · rw [hw, if_pos ⟨hid, rfl⟩]
    · obtain ⟨hcell, t', ht', hl⟩ := h.opened hnone he
      exact ⟨hcell, t', hkeep ht', hl⟩
  · intro k k' e e' hnone hnone' he he' hint hhandle
    rcases lookup_of_insert he with ⟨rfl, rfl⟩ | ⟨-, hold⟩
    · rcases lookup_of_insert he' with ⟨rfl, -⟩ | ⟨-, hold'⟩
      · rfl
      · exact absurd hhandle.symm (hused hnone' hold' hint.symm)
    · rcases lookup_of_insert he' with ⟨rfl, rfl⟩ | ⟨-, hold'⟩
      · exact absurd hhandle (hused hnone hold hint)
      · exact h.opened_inj hnone hnone' hold hold' hint hhandle
  · intro id hd t' hnone hsome
    rw [hw] at hsome
    split at hsome
    · next heq => exact ⟨key, _, h.new_tcp new, AList.lookup_insert _, hid.trans heq.1.symm, heq.2.symm⟩
    · obtain ⟨k, e, hk, he, hint, hhandle⟩ := h.listening hnone hsome
      exact ⟨k, e, hk, lookup_insert_of_new new he, hint, hhandle⟩
  · intro id ep hd n hnone hsome
    obtain ⟨hcell, u, hu⟩ := h.bound hnone hsome
    exact ⟨hcell, u, hkeep hu⟩
  · intro id hd u hnone hsome
    rw [hw] at hsome
    split at hsome
    · cases hsome
    · exact h.sharing hnone hsome

theorem Core.OncePerFlow.openUdpNew (hS : S.Lawful) (h : c.OncePerFlow (c', acc))
    (hs : c'.slot slot.id = some slot) (hid : key.interface = slot.id)
    (new : c'.manager.udp.lookup key = none)
    (fresh : c'.manager.udpDstSockets.lookup (dstOf key) = none) (u : S.Udp) (now : Instant) :
    c.OncePerFlow (c'.openUdpNew slot key u now,
      acc ++ [.udp (sessionOf key (S.freeIndex slot.sockets) c'.queues.length)]) := by
  obtain ⟨hfree, hw, hkeep⟩ := socketAt_add (c'.openUdpNew slot key u now) hS
    (slot.withSocket (.udp u)) hs rfl rfl rfl
  obtain ⟨hstreams, hnodup, hiff⟩ := sessions_append h new (S.freeIndex slot.sockets) c'.queues.length
    ⟨S.freeIndex slot.sockets, c'.queues.length, now⟩
  -- the cells of the new destinations are in use
  have hused : ∀ {id ep hd n}, c.manager.udpDstSockets.lookup (id, ep) = none →
      c'.manager.udpDstSockets.lookup (id, ep) = some (hd, n) → id = key.interface →
      hd ≠ S.freeIndex slot.sockets := by
    intro id ep hd n hnone hsome hint hhandle
    obtain ⟨-, u', hu'⟩ := h.bound hnone hsome
    rw [hint, hid, hhandle] at hu'
    cases hfree.symm.trans hu'
  refine ⟨h.tcp, fun he => lookup_insert_of_new new (h.udp he), ?_, fun hsome => hkeep (h.sockets hsome),
    ?_, h.opened_inj, ?_, ?_, ?_, ?_, hstreams, hnodup, hiff⟩
  · intro d hd n hsome
    obtain ⟨n', hn'⟩ := h.dst hsome
    exact ⟨n', lookup_insert_of_new fresh hn'⟩
  · intro k e hnone he
    obtain ⟨hcell, t, ht, hl⟩ := h.opened hnone he
    exact ⟨hcell, t, hkeep ht, hl⟩
  · intro id hd t hnone hsome
    rw [hw] at hsome
    split at hsome
    · cases hsome
    · exact h.listening hnone hsome
  · intro id ep hd n hnone hsome
    rcases lookup_of_insert hsome with ⟨heq, hval⟩ | ⟨-, hsome⟩
    · obtain ⟨rfl, rfl⟩ := Prod.mk.inj heq
      obtain ⟨rfl, rfl⟩ := Prod.mk.inj hval
      refine ⟨?_, u, ?_⟩
      · rw [hid]
        exact h.free hfree
      · rw [hw, if_pos ⟨hid, rfl⟩]
    · obtain ⟨hcell, u', hu'⟩ := h.bound hnone hsome
      exact ⟨hcell, u', hkeep hu'⟩
  · intro id ep ep' hd n n' hnone hnone' hsome hsome'
    rcases lookup_of_insert hsome with ⟨heq, hval⟩ | ⟨-, hsome⟩
    · obtain ⟨rfl, rfl⟩ := Prod.mk.inj heq
      obtain ⟨rfl, rfl⟩ := Prod.mk.inj hval
      rcases lookup_of_insert hsome' with ⟨heq', -⟩ | ⟨-, hsome'⟩
      · exact (Prod.mk.inj heq').2.symm
      · exact absurd rfl (hused hnone' hsome' rfl)
    · rcases lookup_of_insert hsome' with ⟨heq', hval'⟩ | ⟨-, hsome'⟩
      · obtain ⟨rfl, rfl⟩ := Prod.mk.inj heq'
        obtain ⟨rfl, rfl⟩ := Prod.mk.inj hval'
        exact absurd rfl (hused hnone hsome rfl)
      · exact h.bound_inj hnone hnone' hsome hsome'
  · intro id hd u' hnone hsome
    rw [hw] at hsome
    split at hsome
    · next heq =>
      obtain ⟨rfl, rfl⟩ := heq
      rw [← hid]
      exact ⟨key.dst, 1, h.new_dst fresh, AList.lookup_insert _⟩
    · obtain ⟨ep, n, hn, hs'⟩ := h.sharing hnone hsome
      exact ⟨ep, n, hn, lookup_insert_of_new fresh hs'⟩

theorem Core.OncePerFlow.joinUdp (h : c.OncePerFlow (c', acc)) (new : c'.manager.udp.lookup key = none)
    {hd : SocketHandle} {n : ℕ} (inUse : c'.manager.udpDstSockets.lookup (dstOf key) = some (hd, n))
    (now : Instant) : c.OncePerFlow (c'.joinUdp key hd n now,
      acc ++ [.udp (sessionOf key hd c'.queues.length)]) := by
  obtain ⟨hstreams, hnodup, hiff⟩ := sessions_append h new hd c'.queues.length ⟨hd, c'.queues.length, now⟩
  -- a destination keeps its socket, only the count changes
  have hforth : ∀ {d h' m}, c'.manager.udpDstSockets.lookup d = some (h', m) →
      ∃ m', (c'.joinUdp key hd n now).manager.udpDstSockets.lookup d = some (h', m') := by
    intro d h' m hsome
    show ∃ m', (c'.manager.udpDstSockets.replace (dstOf key) (hd, n + 1)).lookup d = some (h', m')
    rw [lookup_replace inUse]
    split
    · next heq =>
      rw [heq, inUse, Option.some.injEq, Prod.mk.injEq] at hsome
      exact ⟨n + 1, by rw [hsome.1]⟩
    · exact ⟨m, hsome⟩
  have hback : ∀ {d h' m}, (c'.joinUdp key hd n now).manager.udpDstSockets.lookup d = some (h', m) →
      ∃ m', c'.manager.udpDstSockets.lookup d = some (h', m') := by
    intro d h' m hsome
    rcases lookup_of_replace inUse hsome with ⟨rfl, heq⟩ | ⟨-, hold⟩
    · obtain ⟨rfl, -⟩ := Prod.mk.inj heq
      exact ⟨n, inUse⟩
    · exact ⟨m, hold⟩
  refine ⟨h.tcp, fun he => lookup_insert_of_new new (h.udp he), ?_, h.sockets, h.opened, h.opened_inj,
    h.listening, ?_, ?_, ?_, hstreams, hnodup, hiff⟩
  · intro d h' m hsome
    obtain ⟨m', hm'⟩ := h.dst hsome
    exact hforth hm'
  · intro id ep h' m hnone hsome
    obtain ⟨m', hm'⟩ := hback hsome
    exact h.bound hnone hm'
  · intro id ep ep' h' m m' hnone hnone' hsome hsome'
    obtain ⟨m₁, hm₁⟩ := hback hsome
    obtain ⟨m₂, hm₂⟩ := hback hsome'
    exact h.bound_inj hnone hnone' hm₁ hm₂
  · intro id h' u hnone hsome
    obtain ⟨ep, m, hm, hd'⟩ := h.sharing hnone hsome
    obtain ⟨m', hm'⟩ := hforth hd'
    exact ⟨ep, m', hm, hm'⟩

/-- One step of the pre-pass. -/
theorem Admit.oncePerFlow (hS : S.Lawful) (hB : S.Binds) (hstep : Admit now queued st st')
    (h : c.OncePerFlow st) : c.OncePerFlow st' := by
  cases hstep with
  | @device c' acc slot hs d => exact h.congr rfl (Core.socketAt_setSlot_same { slot with device := d } hs rfl)
  | @spoil c' acc slot hs =>
    exact h.congr rfl (Core.socketAt_setSlot_same (slot.withPool slot.tcpPool.tail) hs rfl)
  | leak hb => exact absurd hB hb
  | tcp hs hid hq hp new room ha hl => exact h.openTcp hS hs hid new (hS.tcpListen_ok hl).1
  | udpNew hs hid hq hp new room fresh => exact h.openUdpNew hS hs hid new fresh _ now
  | udpJoin hs hid hq hp new room inUse => exact h.joinUdp new inUse now

theorem Admits.oncePerFlow (hS : S.Lawful) (hB : S.Binds) (h : ReflTransGen (Admit now queued) (c, []) st) :
    c.OncePerFlow st :=
  run_keeps (P := c.OncePerFlow) (fun _ _ hstep => hstep.oncePerFlow hS hB) h (.refl c)

end Additions

/-! ### Idempotence -/

/-- After the pre-pass every queued packet is settled. -/
theorem prePass_leaves_settled (hS : S.Lawful) (hL : S.Listens) (hB : S.Binds) {c : Core S} (hn : c.ids.Nodup)
    (hpool : c.PoolsClosed) (now : Instant) (exact : Prop) : Ok (Call.Good exact) (prePass c now) fun st =>
      Admitted now c st ∧
        ∀ (i : ℕ) slot, st.1.slots[i]? = some slot → ∀ pkt ∈ slot.device.ingress, st.1.Settled slot pkt := by
  refine (prePass_settles hS hL hB hn hpool).mono ?_
  rintro st ⟨hst, hset⟩
  refine ⟨hst, fun i slot' hi' pkt hpkt => ?_⟩
  cases hi : c.slots[i]? with
  | none =>
    have hlen : st.1.slots.length = c.slots.length := by
      simpa using congrArg List.length (Admits.dims hst.run)
    rw [List.getElem?_eq_none_iff, ← hlen, ← List.getElem?_eq_none_iff, hi'] at hi
    cases hi
  | some slot =>
    -- the slot has the sizes and the queue that it had
    obtain ⟨slot₁, hi₁, hdims, hdev⟩ := hst.slot hi
    cases hi'.symm.trans hi₁
    rw [hdev] at hpkt
    exact (hset i slot hi pkt hpkt).congr hdims

/-- **The pre-pass is idempotent.** Whatever is queued, and whatever the limits and the budget:
in a core with distinct interfaces and no open socket in a pool, the pre-pass ends; it adds one
entry with one listening socket, or one session, for each new flow, and leaves what was there as
it was; and running it again, then or later, changes nothing and yields no session. -/
theorem prePass_idempotent (hS : S.Lawful) (hL : S.Listens) (hB : S.Binds) (c : Core S) (hn : c.ids.Nodup)
    (hpool : c.PoolsClosed) (now : Instant) :
    ∃ r, (prePass c now).result = .ok r ∧ c.OncePerFlow r ∧
      ∀ later, (prePass r.1 later).result = .ok (r.1, []) := by
  obtain ⟨⟨r, hr, hst, hset⟩, -⟩ := prePass_leaves_settled hS hL hB hn hpool now True
  refine ⟨r, hr, Admits.oncePerFlow hS hB hst.run, fun later => ?_⟩
  rw [prePass_settled hset]
  rfl

namespace Reference

/-- A slot of the trial stack with the given MTU, pool and queue. -/
def slotWith (mtu : ℕ) (pool : List reference.Tcp) (queue : List Bytes) : InterfaceSlot reference :=
  { buildInterface { NetstackConfig.default with mtu := mtu } (eth, ()) with
    tcpPool := pool
    device := { (VirtualDevice.new mtu) with ingress := queue } }

/-- A core with the given slots and budget. -/
def coreWith (budget : Option ℕ) (slots : List (InterfaceSlot reference)) : Core reference :=
  { (trial { NetstackConfig.default with maxBufferBytes := budget }).build with slots := slots }

/-- A SYN that comes twice, a datagram of another flow, and a SYN of a third. -/
def batch : Core reference :=
  coreWith none [slotWith 1500 [] [tcpPacket client server syn false, tcpPacket client server syn false,
    udpPacket client server [1], tcpPacket client₂ server syn false]]

/-- A socket that listens at another port than the clients connect to. -/
def listeningElsewhere : reference.Tcp :=
  (⟨.listen, none, ⟨some server.addr, 81⟩, (16384, 16384), [], []⟩ : Tcp)

/-- A core with an open socket in its pool, and a SYN. -/
def openPool : Core reference :=
  coreWith none [slotWith 1500 [listeningElsewhere] [tcpPacket client server syn false]]

/-- Two slots with one identifier, and a budget that has room for the shared socket of the
second one only. -/
def twins : Core reference :=
  coreWith (some 17408) [slotWith 20000 [] [udpPacket client server [1]],
    slotWith 1500 [] [udpPacket client₂ server [1]]]

end Reference

open Reference in
/-- The queue of `batch` is scanned. -/
theorem prePass_idempotent_batch : batch.ids.Nodup ∧ batch.PoolsClosed ∧
    ∃ r, (prePass batch 0).result = .ok r ∧ batch.OncePerFlow r ∧
      ∀ later, (prePass r.1 later).result = .ok (r.1, []) := by
  have hn : batch.ids.Nodup := by decide
  have hp : batch.PoolsClosed := by
    intro slot hslot t ht
    obtain rfl := List.mem_singleton.mp hslot
    cases ht
  exact ⟨hn, hp, prePass_idempotent reference_lawful reference_listens reference_binds batch hn hp 0⟩

open Reference in
/-- Neither condition can be left out. The socket in the pool of `openPool` is open at another
port: it cannot listen at the SYN's destination and is dropped, so that the first scan makes no
entry and the second one does. In `twins` the first slot's datagram is refused, the second slot's
datagram then gets a socket for the destination, and the second scan lets the first datagram share
it. -/
theorem second_scan_admits :
    (∃ r r', (prePass openPool 0).result = .ok r ∧ (prePass r.1 0).result = .ok r' ∧
      len r.1.manager.tcp = 0 ∧ len r'.1.manager.tcp = 1) ∧
    (∃ r r', (prePass twins 0).result = .ok r ∧ (prePass r.1 0).result = .ok r' ∧
      len r.1.manager.udp = 1 ∧ len r'.1.manager.udp = 2 ∧ r'.2.length = 1) := by
  have count : ∀ {c : Core reference} {f : Core reference × List Session → ℕ × ℕ} {a b : ℕ × ℕ},
      ((prePass c 0).result.toOption.map f, ((prePass c 0).result.toOption.bind
        fun r => (prePass r.1 0).result.toOption).map f) = (some a, some b) →
      ∃ r r', (prePass c 0).result = .ok r ∧ (prePass r.1 0).result = .ok r' ∧ f r = a ∧ f r' = b := by
    intro c f a b h
    obtain ⟨h₁, h₂⟩ := Prod.mk.inj h
    obtain ⟨r, hr, ha⟩ := Option.map_eq_some_iff.mp h₁
    obtain ⟨r', hr', hb⟩ := Option.map_eq_some_iff.mp h₂
    rw [hr, Option.bind_some] at hr'
    exact ⟨r, r', toOption_eq_some.mp hr, toOption_eq_some.mp hr', ha, hb⟩
  constructor
  · obtain ⟨r, r', hr, hr', ha, hb⟩ := count (c := openPool) (f := fun r => (len r.1.manager.tcp, 0))
      (a := (0, 0)) (b := (1, 0)) (by decide +kernel)
    exact ⟨r, r', hr, hr', congrArg Prod.fst ha, congrArg Prod.fst hb⟩
  · obtain ⟨r, r', hr, hr', ha, hb⟩ := count (c := twins) (f := fun r => (len r.1.manager.udp, r.2.length))
      (a := (1, 1)) (b := (2, 1)) (by decide +kernel)
    exact ⟨r, r', hr, hr', congrArg Prod.fst ha, congrArg Prod.fst hb, congrArg Prod.snd hb⟩

end WayNetstack

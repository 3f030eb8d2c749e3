import WayNetstack.Memory.Account
import WayNetstack.Registry.Rescan

/-!
# The cap on buffer memory

`max_buffer_bytes` is documented as a hard cap on all buffer memory. A parked socket is
not charged, though, and a shared UDP socket holds two regions where one and the packet
metadata are charged. So in any run the bytes held are within the cap just when what is
not charged (`Core.uncharged`) fits in the budget that is left and the metadata charged.

A run stays within the cap if every packet of a cycle that is not refused and opens a socket
finds nothing parked that its socket does not reuse, and if the metadata charge of a shared
socket makes up for its second region (`Core.Covers`, `buffers_held_within_cap`). Outside
these runs the cap is passed (`cap_passed`).
-/

namespace WayNetstack

open Lib Lib.Table SessionManager Relation

variable {S : Smoltcp}

/-- The charge of a shared socket pays for both its regions. -/
def NetstackConfig.MetaPays (config : NetstackConfig) : Prop :=
  config.udpRegion ≤ max config.udpBufferPackets 1 * 64

instance (config : NetstackConfig) : Decidable config.MetaPays := inferInstanceAs (Decidable (_ ≤ _))

namespace Core

variable {c c' : Core S} {slot : InterfaceSlot S} {limit : ℕ}

/-- The bytes held that are not charged: the parked sockets and the second region of each
shared socket. -/
def uncharged (c : Core S) : ℕ :=
  c.config.tcpCharge * c.parked + c.config.udpRegion * len c.manager.udpDstSockets

/-- The bytes charged for the packet metadata of the shared sockets, which are no payload. -/
def metadata (c : Core S) : ℕ := max c.config.udpBufferPackets 1 * 64 * len c.manager.udpDstSockets

/-- What is held and what is counted differ by what is not charged and what is no payload. -/
theorem Accounted.balance (ha : c.Accounted) (hb : c.Budgeted True 0) :
    c.held + c.metadata = c.bufferBytes + c.uncharged := by
  rw [ha.held, hb.balance trivial]
  simp only [charge, uncharged, metadata, NetstackConfig.udpCharge, Nat.mul_add, Nat.add_mul, Nat.mul_assoc]
  omega

theorem Accounted.held_le_iff (ha : c.Accounted) (hb : c.Budgeted True 0) :
    c.held ≤ limit ↔ c.bufferBytes + c.uncharged ≤ limit + c.metadata := by
  have hbal := ha.balance hb
  omega

/-- The memory is within the cap, and the shared sockets in use are paid for. -/
structure Within (c : Core S) : Prop where
  cap : ∀ limit, c.config.maxBufferBytes = some limit → c.held ≤ limit
  paid : len c.manager.udpDstSockets ≠ 0 → c.config.MetaPays

theorem Eases.within (h : Eases c c') (hc : c.Within) : c'.Within := by
  refine ⟨fun limit hl => ?_, fun hne => ?_⟩
  · exact h.held.trans (hc.cap limit (h.config ▸ hl))
  · rw [h.config]
    exact hc.paid fun hz => hne (Nat.le_zero.mp (hz ▸ h.shared))

/-- With nothing parked, what is held is charged. -/
theorem Accounted.within (ha : c.Accounted) (hb : c.Budgeted True 0) (hparked : c.parked = 0)
    (hpaid : len c.manager.udpDstSockets ≠ 0 → c.config.MetaPays) : c.Within := by
  refine ⟨fun limit hl => (ha.held_le_iff hb).mpr ?_, hpaid⟩
  have hshared : c.uncharged ≤ c.metadata := by
    rw [uncharged, metadata, hparked, Nat.mul_zero, Nat.zero_add]
    rcases Nat.eq_zero_or_pos (len c.manager.udpDstSockets) with hz | hpos
    · simp [hz]
    · exact Nat.mul_le_mul_right _ (hpaid hpos.ne')
  exact Nat.add_le_add (hb.limit limit hl) hshared

theorem parked_eq_zero (h : ∀ slot ∈ c.slots, slot.tcpPool = []) : c.parked = 0 := by
  refine List.sum_eq_zero fun n hn => ?_
  obtain ⟨slot, hslot, rfl⟩ := List.mem_map.mp hn
  simp [h slot hslot]

/-- What a packet of the interface may open is paid for: no pool holds a socket but the one
that a new TCP socket is taken from, and a new shared socket is charged for both regions. -/
def Pays (c : Core S) (id : InterfaceId) : Option (IpEndpoint × IpEndpoint × L4) → Prop
  | some (_, _, .tcp true) => ∀ slot ∈ c.slots, slot.id = id ∨ slot.tcpPool = []
  | some (_, dst, .udp) => (id, dst) ∈ c.manager.udpDstSockets ∨
    (∀ slot ∈ c.slots, slot.tcpPool = []) ∧ c.config.MetaPays
  | _ => True

instance (c : Core S) (id : InterfaceId) : ∀ p, Decidable (c.Pays id p)
  | none | some (_, _, .tcp false) => inferInstanceAs (Decidable True)
  | some (_, _, .tcp true) => inferInstanceAs (Decidable (∀ slot ∈ c.slots, _))
  | some (_, _, .udp) => inferInstanceAs (Decidable (_ ∨ _ ∧ _))

/-- The budget covers the packet, queued in the slot: its flow has an entry, or a limit or
the budget refuses it, or what it opens is paid for. -/
def Covers (c : Core S) (slot : InterfaceSlot S) (pkt : Bytes) : Prop :=
  c.Settled slot pkt ∨ c.Pays slot.id (parseL4 S pkt)

instance (c : Core S) (slot : InterfaceSlot S) (pkt : Bytes) : Decidable (c.Covers slot pkt) :=
  inferInstanceAs (Decidable (_ ∨ _))

/-- What the pre-pass does not undo: shared sockets stay, and pools are not filled. -/
structure Extends (c c' : Core S) : Prop where
  shared : ∀ {d}, d ∈ c.manager.udpDstSockets → d ∈ c'.manager.udpDstSockets
  pools : ∀ slot' ∈ c'.slots, ∃ slot ∈ c.slots, slot.id = slot'.id ∧
    (slot.tcpPool = [] → slot'.tcpPool = [])

theorem Extends.refl (c : Core S) : Extends c c := ⟨id, fun slot h => ⟨slot, h, rfl, id⟩⟩

/-- A slot is written back with a pool that is empty if it was. -/
theorem Extends.write {c₀ : Core S} (h : Extends c₀ c) (hs : c.slot slot.id = some slot)
    (slot' : InterfaceSlot S) (hid : slot'.id = slot.id) (hpool : slot.tcpPool = [] → slot'.tcpPool = [])
    (hc : c'.slots = (c.setSlot slot').slots)
    (hd : ∀ {d}, d ∈ c.manager.udpDstSockets → d ∈ c'.manager.udpDstSockets) : Extends c₀ c' := by
  refine ⟨fun hd₀ => hd (h.shared hd₀), fun s hmem => ?_⟩
  rw [hc] at hmem
  rcases mem_setSlot hmem with hold | rfl
  · exact h.pools s hold
  · obtain ⟨slot₀, hslot₀, hid₀, hpool₀⟩ := h.pools slot (mem_of_slot hs)
    exact ⟨slot₀, hslot₀, hid₀.trans hid.symm, hpool ∘ hpool₀⟩

end Core

section PrePass

open WayNetstack.Core

variable {now : Instant} {queued : InterfaceId → Bytes → Prop} {st st' : Core S × List Session}
  {c : Core S} {slot : InterfaceSlot S} {pkt : Bytes} {src dst : IpEndpoint}

/-- A visit of the pre-pass keeps the shared sockets and fills no pool. -/
theorem Admit.extends (h : Admit now queued st st') (he : Extends c st.1) : Extends c st'.1 := by
  cases h with
  | @device c₁ acc slot hs d => exact he.write hs { slot with device := d } rfl id rfl id
  | @spoil c₁ acc slot hs =>
    refine he.write hs (slot.withPool slot.tcpPool.tail) rfl (fun hnil => ?_) rfl id
    simp [InterfaceSlot.withPool, hnil]
  | leak hb ha => exact ⟨he.shared, he.pools⟩
  | @tcp c₁ acc slot key pkt t hs =>
    refine he.write hs ((slot.withPool slot.tcpPool.tail).withSocket (.tcp t)) rfl (fun hnil => ?_) rfl id
    simp [InterfaceSlot.withPool, InterfaceSlot.withSocket, hnil]
  | @udpNew c₁ acc slot key pkt u hs =>
    exact he.write hs (slot.withSocket (.udp u)) rfl id rfl fun hd => (AList.mem_insert _).mpr (.inr hd)
  | udpJoin => exact ⟨fun hd => AList.mem_replace.mpr (he.shared hd), he.pools⟩

theorem Admits.extends (h : ReflTransGen (Admit now queued) (c, []) st) : Extends c st.1 :=
  run_keeps (P := fun x : Core S × List Session => Extends c x.1) (fun _ _ hstep => hstep.extends) h
    (Extends.refl c)

/-- A visit of the pre-pass keeps the account. -/
theorem Admit.accounted (hS : S.Lawful) (h : Admit now queued st st') (hsh : st.1.Shaped)
    (ha : st.1.Accounted) : st'.1.Accounted := by
  cases h with
  | @device c₁ acc slot hs d =>
    exact (Eases.device hs { slot with device := d } rfl rfl rfl rfl).accounted ha
  | spoil hs => exact (Eases.popPool hs (ha.sized _ (mem_of_slot hs))).accounted ha
  | @leak c₁ acc n =>
    have hleak : Eases c₁ { c₁ with bufferBytes := c₁.bufferBytes + n } := .of_eq rfl rfl rfl rfl
    exact hleak.accounted ha
  | tcp hs hid hq hp new room _ hl => exact ha.openTcp hS hsh hs new hl
  | udpNew hs hid hq hp new room fresh _ hb => exact ha.openUdpNew hS hsh hs fresh hb now
  | @udpJoin c₁ acc slot key pkt h n => exact (Eases.joinUdp c₁ key h n now).accounted ha

/-- A packet that opens a socket is paid for if it is covered: it was not settled when the
pre-pass began, or it would be settled now. -/
theorem Admits.pays (h : ReflTransGen (Admit now c.Queued) (c, []) st) (hn : c.ids.Nodup)
    (hcov : ∀ slot ∈ c.slots, ∀ pkt ∈ slot.device.ingress, c.Covers slot pkt)
    (hs : st.1.slot slot.id = some slot) (hq : c.Queued slot.id pkt) (hset : ¬st.1.Settled slot pkt) :
    c.Pays slot.id (parseL4 S pkt) := by
  obtain ⟨d, hd, hpkt⟩ := hq
  obtain ⟨slot₀, hslot₀, heq⟩ := List.mem_map.mp hd
  obtain ⟨hid, rfl⟩ := Prod.mk.inj heq
  rw [← hid] at hs ⊢
  rcases hcov slot₀ hslot₀ pkt hpkt with hset₀ | hpays
  · obtain ⟨i, hi⟩ := List.mem_iff_getElem?.mp hslot₀
    have hset₁ : st.1.Settled slot₀ pkt := Admits.settled hn .refl h hi hset₀
    exact absurd (hset₁.congr (Admits.dims_slot h hn hi hs)) hset
  · exact hpays

theorem Core.not_settled_tcp (hp : parseL4 S pkt = some (src, dst, .tcp true))
    (new : c.manager.tcp.lookup ⟨slot.id, .tcp, src, dst⟩ = none)
    (room : len c.manager.tcp < c.config.tcpMaxConnections) (ha : c.Affords (2 * slot.tcpBufferSize)) :
    ¬c.Settled slot pkt := by
  simp [Settled, hp, new, room, ha]

theorem Core.not_settled_udp (hp : parseL4 S pkt = some (src, dst, .udp))
    (new : c.manager.udp.lookup ⟨slot.id, .udp, src, dst⟩ = none)
    (room : len c.manager.udp < c.config.udpMaxSessions) (ha : c.Affords (c.udpCharge slot)) :
    ¬c.Settled slot pkt := by
  simp [Settled, hp, new, room, ha]

/-- **A covered visit of the pre-pass stays within the cap.** -/
theorem Admit.within (hS : S.Lawful) (hB : S.Binds) (h : Admit now c.Queued st st')
    (hrun : ReflTransGen (Admit now c.Queued) (c, []) st) (hn : c.ids.Nodup)
    (hcov : ∀ slot ∈ c.slots, ∀ pkt ∈ slot.device.ingress, c.Covers slot pkt) (hsh : st.1.Shaped)
    (ha : st.1.Accounted) (hb' : st'.1.Budgeted True 0) (hw : st.1.Within) : st'.1.Within := by
  have he := Admits.extends hrun
  have ha' := h.accounted hS hsh ha
  cases h with
  | @device c₁ acc slot hs d =>
    exact (Eases.device hs { slot with device := d } rfl rfl rfl rfl).within hw
  | spoil hs => exact (Eases.popPool hs (ha.sized _ (mem_of_slot hs))).within hw
  | leak hnb => exact absurd hB hnb
  | @tcp c₁ acc slot key pkt t hs hid hq hp new room haff hl hproto =>
    by_cases hpool : slot.tcpPool = []
    · -- a fresh socket: nothing is parked on the other interfaces either
      refine ha'.within hb' (parked_eq_zero fun slot' hslot' => ?_) hw.paid
      have hkey : key = ⟨slot.id, .tcp, key.src, key.dst⟩ := by rw [← hid, ← hproto]
      have hpays := Admits.pays hrun hn hcov hs hq (not_settled_tcp hp (hkey ▸ new) room haff)
      rw [hp] at hpays
      rcases mem_setSlot hslot' with hold | rfl
      · obtain ⟨slot₀, hslot₀, hid₀, hnil⟩ := he.pools slot' hold
        rcases hpays slot₀ hslot₀ with hown | hnone
        · have hfind := slot_of_mem hsh.ids hold
          rw [← hid₀, hown, hs, Option.some.injEq] at hfind
          rw [← hfind, hpool]
        · exact hnil hnone
      · simp [InterfaceSlot.withPool, InterfaceSlot.withSocket, hpool]
    · refine ⟨fun limit hlim => ?_, hw.paid⟩
      rw [ha.held_openTcp hS hsh hs hpool hl]
      exact hw.cap limit hlim
  | @udpNew c₁ acc slot key pkt u hs hid hq hp new room fresh haff hb hproto =>
    have hkey : key = ⟨slot.id, .udp, key.src, key.dst⟩ := by rw [← hid, ← hproto]
    have hpays := Admits.pays hrun hn hcov hs hq (not_settled_udp hp (hkey ▸ new) room haff)
    rw [hp] at hpays
    have hnew : (slot.id, key.dst) ∉ c.manager.udpDstSockets := by
      rw [← hid]
      exact fun hmem => notMem_of_lookup fresh (he.shared hmem)
    obtain ⟨hpools, hmeta⟩ := hpays.resolve_left hnew
    have hempty : ∀ slot' ∈ c₁.slots, slot'.tcpPool = [] := by
      intro slot' hslot'
      obtain ⟨slot₀, hslot₀, -, hnil⟩ := he.pools slot' hslot'
      exact hnil (hpools slot₀ hslot₀)
    refine ha'.within hb' (parked_eq_zero fun slot' hslot' => ?_) fun _ => (Admits.grows hrun).config ▸ hmeta
    rcases mem_setSlot hslot' with hold | rfl
    · exact hempty slot' hold
    · exact hempty slot (mem_of_slot hs)
  | @udpJoin c₁ acc slot key pkt h n => exact (Eases.joinUdp c₁ key h n now).within hw

end PrePass

/-! ### Runs -/

/-- The packets that a cycle finds in the ingress queues are all covered. -/
def World.Covered (w : World S) : Label S → Prop
  | .cycle _ _ => ∀ slot ∈ w.core.slots, ∀ pkt ∈ slot.device.ingress, w.core.Covers slot pkt
  | _ => True

instance (w : World S) : ∀ l, Decidable (w.Covered l)
  | .cycle _ _ => inferInstanceAs (Decidable (∀ slot ∈ w.core.slots, _))
  | .ingress _ | .read _ _ _ | .write _ _ _ | .shutdown _ | .dropStream _ | .send _ _ | .recv _
  | .dropSession _ | .rehash _ => inferInstanceAs (Decidable True)

section Runs

open WayNetstack.Core

variable {b : NetstackBuilder S} {w w' : World S} {l : Label S} {limit : ℕ}

/-- At the start nothing is held. -/
theorem init_accounted (b : NetstackBuilder S) : (World.init b).core.Accounted ∧ (World.init b).core.Within := by
  have hslots : ∀ slot ∈ (World.init b).core.slots, slot.sockets = Slab.empty ∧ slot.tcpPool = [] := by
    intro slot hslot
    obtain ⟨x, -, rfl⟩ := List.mem_map.mp hslot
    exact ⟨rfl, rfl⟩
  have hparked := parked_eq_zero fun slot hslot => (hslots slot hslot).2
  have hheld : (World.init b).core.held = 0 := by
    refine List.sum_eq_zero fun n hn => ?_
    obtain ⟨slot, hslot, rfl⟩ := List.mem_map.mp hn
    simp [InterfaceSlot.held, hslots slot hslot]
  have hacc : (World.init b).core.Accounted := by
    refine ⟨fun slot hslot => ⟨fun hg => ?_, fun t ht => ?_⟩, ?_⟩
    · simp [hslots slot hslot] at hg
    · simp [hslots slot hslot] at ht
    · rw [hheld, hparked]
      rfl
  exact ⟨hacc, hacc.within (init_budgeted b True) hparked fun hne => absurd rfl hne⟩

section Cycle

variable {c : Core S} {now : Instant} {polls : InterfaceId → List (PollEvent S)} {r : Cycle S}
  {streams : List WayTcpStream} {sessions : List WayUdpSession}

/-- After the pre-pass a cycle takes no memory. -/
theorem CycleSpec.eases (h : CycleSpec c now polls r)
    (hlaw : World.PollsObey (fun _ => InterfaceSlot.KeepsBuffers) polls r.admitted.1) :
    Eases r.admitted.1 r.core := by
  have hpoll : Eases r.admitted.1 r.polled := h.polled ▸ Eases.poll hlaw
  rw [h.core]
  exact (hpoll.trans h.post.eases).trans (Eases.drainEgress _)

/-- **A cycle keeps the account.** -/
theorem CycleSpec.accounted (hS : S.Lawful) (h : CycleSpec c now polls r)
    (hlaw : World.PollsObey (fun _ => InterfaceSlot.KeepsBuffers) polls r.admitted.1)
    (hr : c.Registered streams sessions) (ha : c.Accounted) : r.core.Accounted := by
  have hadm := run_keeps (P := fun st : Core S × List Session =>
      st.1.Registered streams (sessions ++ st.2.filterMap Session.session?) ∧ st.1.Accounted)
    (fun _ _ hstep hp => ⟨hstep.registered hS hp.1, hstep.accounted hS hp.1.shaped hp.2⟩)
    h.admitted ⟨by simpa using hr, ha⟩
  exact (h.eases hlaw).accounted hadm.2

/-- **A covered cycle stays within the cap.** -/
theorem CycleSpec.within (hS : S.Lawful) (hB : S.Binds) (h : CycleSpec c now polls r)
    (hlaw : World.PollsObey (fun _ => InterfaceSlot.KeepsBuffers) polls r.admitted.1)
    (hcov : ∀ slot ∈ c.slots, ∀ pkt ∈ slot.device.ingress, c.Covers slot pkt)
    (hr : c.Registered streams sessions) (hb : c.Budgeted True 0) (ha : c.Accounted) (hw : c.Within) :
    r.core.Within := by
  -- the visits of the pre-pass, each from a core in order with a balanced budget
  have hadm := run_keeps (P := fun st : Core S × List Session =>
      ReflTransGen (Admit now c.Queued) (c, []) st ∧
        st.1.Registered streams (sessions ++ st.2.filterMap Session.session?) ∧
        st.1.Budgeted True 0 ∧ st.1.Accounted ∧ st.1.Within)
    (fun _ _ hstep hp => by
      obtain ⟨hrun, hr₁, hb₁, ha₁, hw₁⟩ := hp
      have hb₂ := hstep.budgeted (fun _ => hB) hr₁.shaped hb₁
      exact ⟨hrun.tail hstep, hstep.registered hS hr₁, hb₂, hstep.accounted hS hr₁.shaped ha₁,
        hstep.within hS hB hrun hr.shaped.ids hcov hr₁.shaped ha₁ hb₂ hw₁⟩)
    h.admitted ⟨.refl, by simpa using hr, hb, ha, hw⟩
  exact (h.eases hlaw).within hadm.2.2.2.2

end Cycle

/-- Only a cycle may take memory. -/
theorem World.Does.eases_or_cycle (hS : S.Lawful) (h : w.Does l w') : Eases w.core w'.core ∨
    ∃ now polls r, l = .cycle now polls ∧ (pollOnce w.core now polls).result = .ok r ∧
      CycleSpec w.core now polls r ∧ w'.core = r.core := by
  cases h with
  | ingress pkt =>
    left
    rcases queueIngress_eq w.core pkt with heq | ⟨slot, hs, heq⟩
    · simp only [heq]
      exact .refl _
    · exact Eases.device hs { slot with device := slot.device.pushIngress pkt.data } rfl rfl rfl heq
  | @cycle now polls r result spec => exact .inr ⟨now, polls, r, rfl, result, spec, rfl⟩
  | read alive touch | write alive touch => exact .inl (touch.eases fun _ _ hq => hq.capacity)
  | shutdown alive touch =>
    refine .inl (touch.eases fun t t' hclose => ?_)
    rw [hclose]
    exact closeIfOpen_capacity hS t
  | dropStream alive drop => exact .inl (drop.eases hS)
  | send alive result send => exact .inl (send.eases hS)
  | recv alive =>
    obtain ⟨hslots, hm, hc, -⟩ := popQueue_frame _ w.core
    exact .inl (Eases.of_eq hslots hc (by rw [hm]) (by rw [hm]))
  | dropSession alive drop => exact .inl drop.eases
  | rehash same => exact .inl (.of_eq rfl rfl same.tcp.len.symm same.udpDstSockets.len.symm)

/-- A step keeps the account. -/
theorem World.Does.accounted (hS : S.Lawful) (h : w.Does l w')
    (hlaw : w.Polls (fun _ => InterfaceSlot.KeepsBuffers) l) (hinv : w.Inv True b)
    (ha : w.core.Accounted) : w'.core.Accounted := by
  rcases h.eases_or_cycle hS with heases | ⟨now, polls, r, rfl, result, spec, hcore⟩
  · exact heases.accounted ha
  · rw [hcore]
    exact spec.accounted hS ((World.atPoll_cycle result).mp hlaw) hinv.registered ha

/-- A covered step stays within the cap. -/
theorem World.Does.within (hS : S.Lawful) (hB : S.Binds) (h : w.Does l w')
    (hlaw : w.Polls (fun _ => InterfaceSlot.KeepsBuffers) l) (hcov : w.Covered l) (hinv : w.Inv True b)
    (ha : w.core.Accounted) (hw : w.core.Within) : w'.core.Within := by
  rcases h.eases_or_cycle hS with heases | ⟨now, polls, r, rfl, result, spec, hcore⟩
  · exact heases.within hw
  · rw [hcore]
    exact spec.within hS hB ((World.atPoll_cycle result).mp hlaw) hcov hinv.registered hinv.budgeted ha hw

/-- **The account is kept in every run.** -/
theorem World.Reachable.accounted (hS : S.Lawful) (hB : S.Binds)
    (h : World.Reachable (fun w l => w.Polls (fun _ => InterfaceSlot.KeepsBuffers) l) b w) :
    w.Inv True b ∧ w.core.Accounted := by
  refine System.Reaches.invariant (P := fun w => w.Inv True b ∧ w.core.Accounted) h
    ⟨⟨init_registered b, init_budgeted b True, rfl⟩, (init_accounted b).1⟩ ?_
  rintro w l w' - ⟨hw, ha⟩ ⟨hlaw, hstep⟩
  obtain ⟨hdoes, hw'⟩ := hw.step hS (fun _ => hB) hstep
  exact ⟨hw', hdoes.accounted hS hlaw hw ha⟩

/-- **The cap holds of the buffers really held, where they are covered.** In the worlds of
every run the payload bytes of all sockets, in the socket sets and parked in the pools, are
within the cap just when the bytes counted and those that are not charged are within the cap
and the metadata charged. If every cycle of a run finds only packets that the budget covers,
they are. -/
theorem buffers_held_within_cap (hS : S.Lawful) (hB : S.Binds)
    (hlimit : b.config.maxBufferBytes = some limit) :
    (∀ w, World.Reachable (fun w l => w.Polls (fun _ => InterfaceSlot.KeepsBuffers) l) b w →
      (w.core.held ≤ limit ↔ w.core.bufferBytes + w.core.uncharged ≤ limit + w.core.metadata)) ∧
    ∀ w, World.Reachable
        (fun w l => w.Polls (fun _ => InterfaceSlot.KeepsBuffers) l ∧ w.Covered l) b w →
      w.core.held ≤ limit := by
  constructor
  · intro w h
    obtain ⟨hinv, hacc⟩ := World.Reachable.accounted hS hB h
    exact hacc.held_le_iff hinv.budgeted
  · intro w h
    have hinv : w.Inv True b ∧ w.core.Accounted ∧ w.core.Within := by
      refine System.Reaches.invariant (P := fun w => w.Inv True b ∧ w.core.Accounted ∧ w.core.Within) h
        ⟨⟨init_registered b, init_budgeted b True, rfl⟩, init_accounted b⟩ ?_
      rintro w l w' - ⟨hw, ha, hwithin⟩ ⟨⟨hlaw, hcov⟩, hstep⟩
      obtain ⟨hdoes, hw'⟩ := hw.step hS (fun _ => hB) hstep
      exact ⟨hw', hdoes.accounted hS hlaw hw ha, hdoes.within hS hB hlaw hcov hw ha hwithin⟩
    exact hinv.2.2.cap limit (by rw [hinv.1.config, hlimit])

end Runs

open Reference in
/-- With 256 packet slots the metadata pays for the second region: a stream and a
session fill a cap of exactly their bytes. -/
theorem buffers_held_within_cap_openBoth :
    ∃ w : World reference, World.Reachable
        (fun w l => w.Polls (fun _ => InterfaceSlot.KeepsBuffers) l ∧ w.Covered l)
        (trial { NetstackConfig.default with udpBufferPackets := 256, maxBufferBytes := some 65536 }) w ∧
      len w.core.manager.tcp = 1 ∧ len w.core.manager.udpDstSockets = 1 ∧ w.core.held ≤ 65536 := by
  obtain ⟨w, hw, hcheck⟩ := World.exists_of_run
    (fun w l => w.Polls (fun _ => InterfaceSlot.KeepsBuffers) l ∧ w.Covered l)
    (trial { NetstackConfig.default with udpBufferPackets := 256, maxBufferBytes := some 65536 }) openBoth
    (fun w => decide (len w.core.manager.tcp = 1 ∧ len w.core.manager.udpDstSockets = 1))
    (by decide +kernel)
  obtain ⟨htcp, hudp⟩ := of_decide_eq_true hcheck
  exact ⟨w, hw, htcp, hudp, (buffers_held_within_cap reference_lawful reference_binds rfl).2 w hw⟩

namespace Reference

/-- A second interface. -/
def eth₂ : InterfaceId := ⟨2⟩

/-- A stack with two interfaces. -/
def trial₂ (config : NetstackConfig) : NetstackBuilder reference :=
  ⟨config, [(eth, ()), (eth₂, ())], by decide⟩

/-- A client connects, its stream is dropped and the client resets the connection, so
that the socket is parked; then a client of the other interface connects. -/
def parkThenOpen : List (Label reference) :=
  [fromClient client syn, cycle 0 [takes 0 (connected 16384 client .synReceived)],
    fromClient client ack, cycle 1 [takes 0 (connected 16384 client .established)],
    .dropStream (streamOf ⟨eth, .tcp, client, server⟩ 0),
    fromClient client rst, cycle 2 [takes 0 (connected 16384 client .closed)],
    .ingress ⟨eth₂, tcpPacket client₂ server syn false⟩,
    .cycle 3 fun i => if i = eth₂ then [takes 0 (connected 16384 client₂ .synReceived)] else []]

end Reference

open Reference in
/-- The cap is passed in two ways. With the default sizes and a cap of 17408 bytes,
which is what a shared UDP socket is charged, one datagram makes the stack hold 32768.
With a cap of one TCP socket, a socket parked on one interface and a connection of
another are two. -/
theorem cap_passed :
    (∃ w : World reference, World.Reachable (fun w l => w.Polls (fun _ => InterfaceSlot.KeepsBuffers) l)
        (trial { NetstackConfig.default with maxBufferBytes := some 17408 }) w ∧
      w.core.bufferBytes = 17408 ∧ w.core.held = 32768) ∧
    (∃ w : World reference, World.Reachable (fun w l => w.Polls (fun _ => InterfaceSlot.KeepsBuffers) l)
        (trial₂ { NetstackConfig.default with maxBufferBytes := some 32768 }) w ∧
      w.core.bufferBytes = 32768 ∧ w.core.held = 65536) := by
  obtain ⟨w, hw, hcheck⟩ := World.exists_of_run
    (fun w l => w.Polls (fun _ => InterfaceSlot.KeepsBuffers) l)
    (trial { NetstackConfig.default with maxBufferBytes := some 17408 })
    [datagram client [1, 2, 3], cycle 0 [hears 0 [([1, 2, 3], client)]]]
    (fun w => decide (w.core.bufferBytes = 17408 ∧ w.core.held = 32768)) (by decide +kernel)
  obtain ⟨w₂, hw₂, hcheck₂⟩ := World.exists_of_run
    (fun w l => w.Polls (fun _ => InterfaceSlot.KeepsBuffers) l)
    (trial₂ { NetstackConfig.default with maxBufferBytes := some 32768 }) parkThenOpen
    (fun w => decide (w.core.bufferBytes = 32768 ∧ w.core.held = 65536)) (by decide +kernel)
  exact ⟨⟨w, hw, of_decide_eq_true hcheck⟩, w₂, hw₂, of_decide_eq_true hcheck₂⟩

end WayNetstack

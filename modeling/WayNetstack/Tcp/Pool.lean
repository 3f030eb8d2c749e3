import WayNetstack.Registry.Rescan
import WayNetstack.Runner.Isolation
import WayNetstack.Memory.Account

/-!
# The pools of sockets, and the limits

A slot parks the sockets of reaped connections in its pool and serves later connections from
there. A parked socket is of use only if it can listen again: it must be closed, and its
buffers must be those that a fresh socket would get.

The invariant `Core.Limited` says this of every pool, together with the pool's own size and the
two limits on the tables. Every step of a run keeps it (`World.Does.limited`).

**`pooled_sockets_reusable`**: in every run the pools and the limits are in order, a cycle parks
only sockets that have left their cell together with their entry, and so no SYN ever fails to
listen: each one that the pre-pass finds within the limits and the budget has an entry when the
pre-pass ends.
-/

namespace WayNetstack

open Lib Lib.Table Lib.Traced SessionManager Relation

variable {S : Smoltcp}

/-! ### The invariant -/

/-- The buffers of a TCP socket of the configuration. -/
def NetstackConfig.tcpBuffers (config : NetstackConfig) : ℕ × ℕ := (config.tcpBufferSize, config.tcpBufferSize)

/-- The pool of a slot is in order; the TCP sockets in use have the buffers that it asks for. -/
structure InterfaceSlot.Pooled (config : NetstackConfig) (slot : InterfaceSlot S) : Prop where
  poolMax : slot.tcpPoolMax = config.tcpPoolSize
  length_le : slot.tcpPool.length ≤ config.tcpPoolSize
  closed : ∀ t ∈ slot.tcpPool, S.tcpState t = .closed
  buffers : ∀ t ∈ slot.tcpPool, S.tcpCapacity t = config.tcpBuffers
  sockets : ∀ {h t}, slot.sockets.get? h = some (.tcp t) → S.tcpCapacity t = config.tcpBuffers

/-- The pools are in order and the tables within their limits. -/
structure Core.Limited (c : Core S) : Prop where
  slots : ∀ slot ∈ c.slots, slot.Pooled c.config
  tcp : len c.manager.tcp ≤ c.config.tcpMaxConnections
  udp : len c.manager.udp ≤ c.config.udpMaxSessions

section Slots

variable {config : NetstackConfig} {slot : InterfaceSlot S}

/-- The pool loses its first socket. -/
theorem InterfaceSlot.Pooled.popPool (h : slot.Pooled config) :
    (slot.withPool slot.tcpPool.tail).Pooled config where
  poolMax := h.poolMax
  length_le := (List.length_tail.le.trans (Nat.sub_le _ _)).trans h.length_le
  closed := fun t ht => h.closed t (List.mem_of_mem_tail ht)
  buffers := fun t ht => h.buffers t (List.mem_of_mem_tail ht)
  sockets := h.sockets

/-- The pool takes a closed socket of its size while there is room. -/
theorem InterfaceSlot.Pooled.park (h : slot.Pooled config) {t : S.Tcp} (hstate : S.tcpState t = .closed)
    (hcap : S.tcpCapacity t = config.tcpBuffers) :
    (slot.withPool (if slot.tcpPool.length < slot.tcpPoolMax then slot.tcpPool ++ [t] else
      slot.tcpPool)).Pooled config := by
  split
  · next hroom =>
    refine ⟨h.poolMax, ?_, fun t' ht' => ?_, fun t' ht' => ?_, h.sockets⟩
    · rw [h.poolMax] at hroom
      show (slot.tcpPool ++ [t]).length ≤ _
      rw [List.length_append, List.length_singleton]
      exact hroom
    · rcases List.mem_append.mp ht' with ht' | ht'
      · exact h.closed t' ht'
      · rw [List.mem_singleton.mp ht']
        exact hstate
    · rcases List.mem_append.mp ht' with ht' | ht'
      · exact h.buffers t' ht'
      · rw [List.mem_singleton.mp ht']
        exact hcap
  · exact ⟨h.poolMax, h.length_le, h.closed, h.buffers, h.sockets⟩

/-- The sockets of the slot change; those of TCP keep their buffers. -/
theorem InterfaceSlot.Pooled.withSockets (h : slot.Pooled config) (slot' : InterfaceSlot S)
    (hmax : slot'.tcpPoolMax = slot.tcpPoolMax) (hpool : slot'.tcpPool = slot.tcpPool)
    (hsock : ∀ {hd t}, slot'.sockets.get? hd = some (.tcp t) →
      slot.sockets.get? hd = some (.tcp t) ∨ S.tcpCapacity t = config.tcpBuffers) :
    slot'.Pooled config where
  poolMax := hmax.trans h.poolMax
  length_le := hpool ▸ h.length_le
  closed := hpool ▸ h.closed
  buffers := hpool ▸ h.buffers
  sockets := fun hget => (hsock hget).elim h.sockets fun hcap => hcap

/-- A socket is replaced by one of the same protocol and with the same buffers. -/
theorem InterfaceSlot.Pooled.putSocket (h : slot.Pooled config) {hd : SocketHandle} {s : S.Socket}
    (hget : slot.sockets.get? hd = some s) (s' : S.Socket)
    (hcap : ∀ t', s' = .tcp t' → ∃ t, s = .tcp t ∧ S.tcpCapacity t' = S.tcpCapacity t) :
    (slot.putSocket hd s').Pooled config := by
  refine h.withSockets (slot.putSocket hd s') rfl rfl fun {hd' t'} hget' => ?_
  rw [show (slot.putSocket hd s').sockets.get? hd' = _ from Slab.get?_put hget s' hd'] at hget'
  split at hget'
  · obtain ⟨t, rfl, ht⟩ := hcap t' (Option.some.inj hget')
    exact .inr (ht.trans (h.sockets hget))
  · exact .inl hget'

/-- A socket comes into a free cell. -/
theorem InterfaceSlot.Pooled.withSocket (hS : S.Lawful) (h : slot.Pooled config) (s : S.Socket)
    (hcap : ∀ t, s = .tcp t → S.tcpCapacity t = config.tcpBuffers) : (slot.withSocket s).Pooled config := by
  refine h.withSockets (slot.withSocket s) rfl rfl fun {hd t} hget => ?_
  rw [show (slot.withSocket s).sockets.get? hd = _ from
    Slab.get?_insertAt (hS.freeIndex_free slot.sockets) s hd] at hget
  split at hget
  · exact .inr (hcap t (Option.some.inj hget))
  · exact .inl hget

/-- A socket leaves its cell. -/
theorem InterfaceSlot.Pooled.withoutSocket (h : slot.Pooled config) (hd : SocketHandle) :
    (slot.withoutSocket hd).Pooled config := by
  refine h.withSockets (slot.withoutSocket hd) rfl rfl fun {hd' t} hget => ?_
  rw [show (slot.withoutSocket hd).sockets.get? hd' = _ from Slab.get?_remove slot.sockets hd hd'] at hget
  split at hget
  · cases hget
  · exact .inl hget

/-- The socket that serves the next SYN has the right buffers, parked or fresh. -/
theorem InterfaceSlot.Pooled.capacity_nextTcp (hS : S.Lawful) (h : slot.Pooled config)
    (hsize : slot.tcpBufferSize = config.tcpBufferSize) : S.tcpCapacity slot.nextTcp = config.tcpBuffers := by
  unfold nextTcp
  cases hpool : slot.tcpPool with
  | nil =>
    rw [List.head?_nil, Option.getD_none, hS.tcpNew_capacity, hsize]
    rfl
  | cons t ts => exact h.buffers t (hpool ▸ List.mem_cons_self)

end Slots

namespace Core

variable {c c' : Core S} {slot : InterfaceSlot S}

/-- A slot is written back and the tables change with it. -/
theorem Limited.write (h : c.Limited) (slot' : InterfaceSlot S) (hslot : slot'.Pooled c.config)
    (hslots : c'.slots = (c.setSlot slot').slots) (hconf : c'.config = c.config)
    (ht : len c'.manager.tcp ≤ c.config.tcpMaxConnections)
    (hu : len c'.manager.udp ≤ c.config.udpMaxSessions) : c'.Limited := by
  refine ⟨fun s hs => ?_, hconf ▸ ht, hconf ▸ hu⟩
  rw [hconf]
  rcases mem_setSlot (hslots ▸ hs) with hold | rfl
  · exact h.slots s hold
  · exact hslot

/-- The slots stay, and the tables do not grow. -/
theorem Limited.shrink (h : c.Limited) (hslots : c'.slots = c.slots) (hconf : c'.config = c.config)
    (ht : len c'.manager.tcp ≤ len c.manager.tcp) (hu : len c'.manager.udp ≤ len c.manager.udp) :
    c'.Limited := by
  refine ⟨fun s hs => ?_, ?_, ?_⟩
  · rw [hconf]
    exact h.slots s (hslots ▸ hs)
  · rw [hconf]
    exact ht.trans h.tcp
  · rw [hconf]
    exact hu.trans h.udp

/-- Every slot changes. -/
theorem Limited.map (h : c.Limited) {f : InterfaceSlot S → InterfaceSlot S} (hslots : c'.slots = c.slots.map f)
    (hconf : c'.config = c.config) (hm : c'.manager = c.manager)
    (hf : ∀ slot ∈ c.slots, slot.Pooled c.config → (f slot).Pooled c.config) : c'.Limited := by
  refine ⟨fun s hs => ?_, by rw [hm, hconf]; exact h.tcp, by rw [hm, hconf]; exact h.udp⟩
  rw [hslots] at hs
  obtain ⟨slot, hslot, rfl⟩ := List.mem_map.mp hs
  rw [hconf]
  exact hf slot hslot (h.slots slot hslot)

/-- The pooled sockets are closed. -/
theorem Limited.poolsClosed (hS : S.Lawful) (h : c.Limited) : c.PoolsClosed :=
  fun slot hslot t ht => (hS.tcpIsOpen_iff t).mpr (.inl ((h.slots slot hslot).closed t ht))

end Core

/-! ### Every step keeps it -/

section Steps

variable {c c' : Core S}

/-- A step of the pre-pass. The limits are checked right before an entry is made. -/
theorem Admit.limited (hS : S.Lawful) {now : Instant} {queued : InterfaceId → Bytes → Prop}
    {st st' : Core S × List Session} (hstep : Admit now queued st st')
    (hsh : ∀ slot ∈ st.1.slots, slot.tcpBufferSize = st.1.config.tcpBufferSize) (h : st.1.Limited) :
    st'.1.Limited := by
  cases hstep with
  | @device c acc slot hs d =>
    have hslot := h.slots slot (Core.mem_of_slot hs)
    exact h.write { slot with device := d } ⟨hslot.poolMax, hslot.length_le, hslot.closed, hslot.buffers,
      hslot.sockets⟩ rfl rfl h.tcp h.udp
  | @spoil c acc slot hs =>
    exact h.write _ (h.slots slot (Core.mem_of_slot hs)).popPool rfl rfl h.tcp h.udp
  | leak => exact ⟨h.slots, h.tcp, h.udp⟩
  | @tcp c acc slot key pkt t hs hid hq hp new room ha hl =>
    have hslot := h.slots slot (Core.mem_of_slot hs)
    have hcap : S.tcpCapacity t = c.config.tcpBuffers :=
      (hS.tcpListen_ok hl).2.2.trans (hslot.capacity_nextTcp hS (hsh slot (Core.mem_of_slot hs)))
    refine h.write ((slot.withPool slot.tcpPool.tail).withSocket (.tcp t))
      (hslot.popPool.withSocket hS (.tcp t) fun t' ht' => ?_) rfl rfl ?_ h.udp
    · cases ht'
      exact hcap
    · exact (len_insert (notMem_of_lookup new) _).trans_le room
  | @udpNew c acc slot key pkt u hs hid hq hp new room =>
    refine h.write (slot.withSocket (.udp u)) ((h.slots slot (Core.mem_of_slot hs)).withSocket hS (.udp u)
      fun t ht => by cases ht) rfl rfl h.tcp ?_
    exact (len_insert (notMem_of_lookup new) _).trans_le room
  | udpJoin hs hid hq hp new room =>
    exact ⟨h.slots, h.tcp, (len_insert (notMem_of_lookup new) _).trans_le room⟩

/-- What is parked is closed, by the guard of the reap. -/
theorem ReapTcp.limited {st st' : Core S × ℕ} (hstep : ReapTcp st st') (h : st.1.Limited) : st'.1.Limited := by
  cases hstep with
  | @reap c m slot key e t hs hid he ho hget hst =>
    have hslot := h.slots slot (Core.mem_of_slot hs)
    refine h.write ((slot.withoutSocket e.handle).withPool _)
      ((hslot.withoutSocket e.handle).park hst (hslot.sockets hget)) rfl rfl ?_ h.udp
    exact ((Nat.le_succ _).trans (len_erase (mem_of_lookup he)).le).trans h.tcp

theorem EndUdp.limited {st st' : Core S × ℕ} (hstep : EndUdp st st') (h : st.1.Limited) : st'.1.Limited := by
  cases hstep with
  | leave he => exact h.shrink rfl rfl le_rfl ((Nat.le_succ _).trans (len_erase (mem_of_lookup he)).le)
  | @close c m slot key e hd n u hs hid he hn last hget =>
    refine h.write (slot.withoutSocket e.socket) ((h.slots slot (Core.mem_of_slot hs)).withoutSocket _) rfl
      rfl h.tcp ?_
    exact ((Nat.le_succ _).trans (len_erase (mem_of_lookup he)).le).trans h.udp

theorem DrainUdp.limited (hstep : DrainUdp c c') (h : c.Limited) : c'.Limited := by
  cases hstep with
  | @drain slot hd u u' hs hget =>
    refine h.write (slot.putSocket hd (.udp u')) ?_ rfl rfl h.tcp h.udp
    exact (h.slots slot (Core.mem_of_slot hs)).putSocket hget (.udp u') fun t ht => by cases ht

theorem RouteUdp.limited {now : Instant} (hstep : RouteUdp now c c') (h : c.Limited) : c'.Limited := by
  cases hstep
  exact h.shrink rfl rfl le_rfl (len_replace _ _ _).le

theorem TcpLoop.Spec.limited {st : TcpLoop S} (hst : TcpLoop.Spec c st) (h : c.Limited) : st.core.Limited := by
  have hlen : len st.core.manager.tcp = len c.manager.tcp := by
    rw [len_eq_length_keys, hst.keys, len_eq_length_keys]
  exact h.shrink (by rw [hst.core]) (by rw [hst.core]) hlen.le (by rw [hst.core])

theorem PostPass.Spec.limited {now : Instant} {p : PostPass S} (hp : PostPass.Spec c now p) (h : c.Limited) :
    p.core.Limited := by
  have hreaped := run_keeps (P := fun st : Core S × ℕ => st.1.Limited) (fun _ _ hs => hs.limited) hp.reaped
    (hp.tcp.limited h)
  have hdrained := run_keeps (P := Core.Limited) (fun _ _ hs => hs.limited) hp.drained hreaped
  have hrouted := run_keeps (P := Core.Limited) (fun _ _ hs => hs.limited) hp.routed hdrained
  have hswept := run_keeps (P := fun st : Core S × ℕ => st.1.Limited) (fun _ _ hs => hs.limited) hp.swept hrouted
  rw [hp.settled]
  exact ⟨hswept.slots, hswept.tcp, hswept.udp⟩

/-- A poll that keeps the buffers. -/
theorem Core.Limited.pollSlots {polls : InterfaceId → List (PollEvent S)} (h : c.Limited)
    (hlaw : World.PollsObey (fun _ => InterfaceSlot.KeepsBuffers) polls c) : (c.pollSlots polls).Limited := by
  refine h.map rfl rfl rfl fun slot hslot hpooled => ?_
  refine (hlaw slot hslot).keeps (P := InterfaceSlot.Pooled c.config) ?_ hpooled
  intro s ev hev hs
  refine hs.withSockets (s.apply ev) (InterfaceSlot.tcpPoolMax_apply s ev) (InterfaceSlot.tcpPool_apply s ev)
    fun {hd t} hget => ?_
  rcases InterfaceSlot.sockets_apply s ev with heq | ⟨h', x, x', htouch, hget', hproto, heq⟩
  · exact .inl (heq ▸ hget)
  · rw [heq, Slab.get?_put hget'] at hget
    split at hget
    · cases hget
      obtain ⟨t₀, rfl⟩ : ∃ t₀, x = .tcp t₀ := by
        cases x with
        | tcp t₀ => exact ⟨t₀, rfl⟩
        | udp u => cases hproto
      have hcap : S.tcpCapacity t = S.tcpCapacity t₀ := hev _ htouch _ hget'
      exact .inr (hcap.trans (hs.sockets hget'))
    · exact .inl hget

theorem TouchTcp.limited {R : S.Tcp → S.Tcp → Prop} {st : WayTcpStream}
    (hR : ∀ t t', R t t' → S.tcpCapacity t' = S.tcpCapacity t) (hstep : TouchTcp R st c c') (h : c.Limited) :
    c'.Limited := by
  cases hstep with
  | same => exact h
  | @put slot t t' hs hid hget hrel =>
    refine h.write (slot.putSocket st.handle (.tcp t')) ?_ rfl rfl h.tcp h.udp
    refine (h.slots slot (Core.mem_of_slot hs)).putSocket hget (.tcp t') fun t₁ ht₁ => ?_
    cases ht₁
    exact ⟨t, rfl, hR t t' hrel⟩

theorem DropTcp.limited (hS : S.Lawful) {st : WayTcpStream} (hstep : DropTcp st c c') (h : c.Limited) :
    c'.Limited := by
  cases hstep with
  | @drop slot t e hs hid hget he hh =>
    refine h.write (slot.putSocket st.handle (.tcp (WayTcpStream.closeIfOpen t))) ?_ rfl rfl ?_ h.udp
    · refine (h.slots slot (Core.mem_of_slot hs)).putSocket hget _ fun t₁ ht₁ => ?_
      cases ht₁
      exact ⟨t, rfl, closeIfOpen_capacity hS t⟩
    · exact (len_replace _ _ _).trans_le h.tcp

theorem SendUdp.limited {ses : WayUdpSession} {payload : Bytes} {r : Core S × SendOutcome}
    (hstep : SendUdp ses payload c r) (h : c.Limited) : r.1.Limited := by
  cases hstep with
  | refused => exact h
  | @sent slot u u' e hs hid hget he hsock hsend =>
    refine h.write (slot.putSocket ses.socket (.udp u')) ?_ rfl rfl h.tcp h.udp
    exact (h.slots slot (Core.mem_of_slot hs)).putSocket hget (.udp u') fun t ht => by cases ht

theorem DropUdp.limited {ses : WayUdpSession} (hstep : DropUdp ses c c') (h : c.Limited) : c'.Limited := by
  cases hstep with
  | gone hnone => exact h
  | @ended c₁ m hstep hlook =>
    have hend : c₁.Limited := hstep.limited h
    exact ⟨hend.slots, hend.tcp, hend.udp⟩

variable {w w' : World S} {l : Label S}

/-- **A step of a run keeps the pools and the limits.** -/
theorem World.Does.limited (hS : S.Lawful) (hdoes : w.Does l w')
    (hlaw : w.Polls (fun _ => InterfaceSlot.KeepsBuffers) l) (hr : w.Registered) (h : w.core.Limited) :
    w'.core.Limited := by
  cases hdoes with
  | ingress pkt =>
    rcases queueIngress_eq w.core pkt with heq | ⟨slot, hs, heq⟩
    · simp only [heq]
      exact h
    · have hslot := h.slots slot (Core.mem_of_slot hs)
      simp only [heq]
      exact h.write { slot with device := slot.device.pushIngress pkt.data } ⟨hslot.poolMax, hslot.length_le,
        hslot.closed, hslot.buffers, hslot.sockets⟩ rfl rfl h.tcp h.udp
  | @cycle now polls r result spec =>
    have hr' : w.core.Registered w.streams w.sessions := hr
    have hadm : r.admitted.1.Limited :=
      (run_keeps (P := fun st : Core S × List Session => (st.1.Registered w.streams
          (w.sessions ++ st.2.filterMap Session.session?)) ∧ st.1.Limited)
        (fun _ _ hstep hp => ⟨hstep.registered hS hp.1, hstep.limited hS
          (fun slot hslot => (hp.1.shaped.sizes slot hslot).2) hp.2⟩)
        spec.admitted ⟨by simpa using hr', h⟩).2
    have hpolled : r.polled.Limited := by
      rw [spec.polled]
      exact hadm.pollSlots ((World.atPoll_cycle result).mp hlaw)
    show r.core.Limited
    rw [spec.core]
    exact (spec.post.limited hpolled).map rfl rfl rfl fun slot _ hs =>
      ⟨hs.poolMax, hs.length_le, hs.closed, hs.buffers, hs.sockets⟩
  | read alive touch | write alive touch => exact touch.limited (fun _ _ hq => hq.capacity) h
  | shutdown alive touch =>
    refine touch.limited (fun t t' hclose => ?_) h
    rw [hclose]
    exact closeIfOpen_capacity hS t
  | dropStream alive drop => exact drop.limited hS h
  | send alive result send => exact send.limited h
  | recv alive =>
    obtain ⟨hslots, hm, hc, -⟩ := popQueue_frame _ w.core
    exact h.shrink hslots hc (by rw [hm]) (by rw [hm])
  | dropSession alive drop => exact drop.limited h
  | @rehash m same =>
    have hre : ({ w.core with manager := m } : Core S).Limited :=
      h.shrink rfl rfl same.tcp.len.ge same.udp.len.ge
    exact hre

variable {b : NetstackBuilder S}

theorem init_limited (b : NetstackBuilder S) : (World.init b).core.Limited := by
  refine ⟨fun slot hslot => ?_, Nat.zero_le _, Nat.zero_le _⟩
  obtain ⟨x, -, rfl⟩ := List.mem_map.mp hslot
  refine ⟨rfl, Nat.zero_le _, fun t ht => ?_, fun t ht => ?_, fun hget => ?_⟩
  · cases ht
  · cases ht
  · cases (Slab.get?_empty _).symm.trans hget

/-- **In every run the pools and the limits are in order.** -/
theorem World.Reachable.limited (hS : S.Lawful)
    (h : World.Reachable (fun w l => w.Polls (fun _ => InterfaceSlot.KeepsBuffers) l) b w) :
    w.core.Limited := by
  refine System.Reaches.invariant (P := fun w : World S => w.core.Limited) h (init_limited b) ?_
  rintro w l w' hw hlim ⟨hlaw, hstep⟩
  have hinv : w.Inv False b := World.Reachable.inv hS False.elim hw
  exact (hinv.step hS False.elim hstep).1.limited hS hlaw hinv.registered hlim

end Steps

/-! ### The visit of one packet -/

/-- Scanning the queues of `c`, the pre-pass comes to the packet `pkt`, at place `n` of the queue of
slot `i`, in the state `st`: it has been through the slots before `i` and the packets before `pkt`. -/
def Core.ComesTo (c : Core S) (now : Instant) (i n : ℕ) (pkt : Bytes) (st : Core S × List Session) : Prop :=
  ∃ before, ((List.range i).foldlM (prePassSlot now) (c, [])).result = .ok before ∧
    (before.1.ingress i)[n]? = some pkt ∧
    (((before.1.ingress i).take n).foldlM (admitPacket i now)
      (before.1.setIngress i fun _ => [], before.2)).result = .ok st

/-- Steps of the pre-pass, whatever is queued. -/
abbrev AdmitRun (now : Instant) : Core S × List Session → Core S × List Session → Prop :=
  ReflTransGen (Admit now fun _ _ => True)

section Visits

variable {c : Core S} {now : Instant} {i n : ℕ} {pkt : Bytes} {st st' r : Core S × List Session}

theorem Admits.nodup (h : AdmitRun now st st') (hn : st.1.ids.Nodup) : st'.1.ids.Nodup :=
  (Admits.ids h).symm ▸ hn

theorem admitPacket_admits (hn : st.1.ids.Nodup) :
    Ok (Call.Good True) (admitPacket i now st pkt) (AdmitRun now st) := by
  refine (admit_ok (q := fun _ _ => True) hn (fun _ _ => trivial) st.2).mono ?_
  rintro r ⟨rfl | hstep, -⟩
  · exact .refl
  · exact .single hstep

theorem admitPackets_admits (hn : st.1.ids.Nodup) (pkts : List Bytes) :
    Ok (Call.Good True) (pkts.foldlM (admitPacket i now) st) (AdmitRun now st) := by
  refine ok_foldlM_const .refl fun pkt _ st' hst' => ?_
  exact (admitPacket_admits (Admits.nodup hst' hn)).mono fun r hr => hst'.trans hr

theorem setIngress_admits (st : Core S × List Session) (hn : st.1.ids.Nodup) (i : ℕ)
    (f : List Bytes → List Bytes) : AdmitRun now st (st.1.setIngress i f, st.2) := by
  cases hi : st.1.slots[i]? with
  | none =>
    simp only [Core.setIngress, hi]
    exact .refl
  | some slot => exact .single (admit_setIngress hn hi f st.2)

theorem prePassSlot_admits (hn : st.1.ids.Nodup) (i : ℕ) :
    Ok (Call.Good True) (prePassSlot now st i) (AdmitRun now st) := by
  have htake : AdmitRun now st (st.1.setIngress i fun _ => [], st.2) := setIngress_admits st hn i fun _ => []
  refine (admitPackets_admits (Admits.nodup htake hn) _).bind fun r hr => ok_pure ?_
  have hrun := htake.trans hr
  exact hrun.trans (setIngress_admits r (Admits.nodup hrun hn) i _)

theorem prePassSlots_admits (hn : st.1.ids.Nodup) (is : List ℕ) :
    Ok (Call.Good True) (is.foldlM (prePassSlot now) st) (AdmitRun now st) := by
  refine ok_foldlM_const .refl fun i _ st' hst' => ?_
  exact (prePassSlot_admits (Admits.nodup hst' hn) i).mono fun r hr => hst'.trans hr

/-- What has been done when the pre-pass comes to a packet. -/
theorem Core.ComesTo.admits (h : c.ComesTo now i n pkt st) (hn : c.ids.Nodup) : AdmitRun now (c, []) st := by
  obtain ⟨before, hbefore, -, hst⟩ := h
  have hrun : AdmitRun now (c, []) before := (prePassSlots_admits hn _).post hbefore
  have htake := hrun.trans (setIngress_admits before (Admits.nodup hrun hn) i fun _ => [])
  exact htake.trans ((admitPackets_admits (Admits.nodup htake hn) _).post hst)

/-- A list taken apart at one of its elements. -/
theorem take_append_of_getElem? {α : Type} {l : List α} {n : ℕ} {x : α} (h : l[n]? = some x) :
    l.take n ++ x :: l.drop (n + 1) = l := by
  obtain ⟨hlt, rfl⟩ := List.getElem?_eq_some_iff.mp h
  rw [← List.drop_eq_getElem_cons hlt, List.take_append_drop]

/-- The slots from `i` on. -/
theorem range_split {i n : ℕ} (h : i < n) : ∃ rest, List.range n = List.range i ++ i :: rest := by
  obtain ⟨k, rfl⟩ : ∃ k, n = i + (k + 1) := ⟨n - i - 1, by omega⟩
  rw [List.range_add, List.range_succ_eq_map, List.map_cons, Nat.add_zero]
  exact ⟨_, rfl⟩

/-- After the visit of a packet the pre-pass goes on. -/
theorem Core.ComesTo.goes_on (h : c.ComesTo now i n pkt st) (hn : c.ids.Nodup)
    (hr : (prePass c now).result = .ok r) :
    ∃ st', (admitPacket i now st pkt).result = .ok st' ∧ AdmitRun now st' r := by
  have hst := h.admits hn
  obtain ⟨before, hbefore, hpkt, hdone⟩ := h
  have hrun : AdmitRun now (c, []) before := (prePassSlots_admits hn _).post hbefore
  -- the slot is there, since it has a packet
  have hlt : i < c.slots.length := by
    have hlen : before.1.slots.length = c.slots.length := by
      simpa [Core.ids] using congrArg List.length (Admits.grows hrun).ids
    rw [← hlen]
    by_contra hge
    have hnone : before.1.slots[i]? = none := List.getElem?_eq_none (Nat.not_lt.mp hge)
    simp [Core.ingress, hnone] at hpkt
  obtain ⟨later, hrange⟩ := range_split hlt
  unfold prePass at hr
  rw [hrange, foldlM_append_ok] at hr
  obtain ⟨before', hbefore', hr⟩ := hr
  cases hbefore.symm.trans hbefore'
  rw [List.foldlM_cons, bind_result_ok] at hr
  obtain ⟨after, hafter, hr⟩ := hr
  unfold prePassSlot at hafter
  obtain ⟨s, hs, hafter⟩ := bind_result_ok.mp hafter
  rw [← take_append_of_getElem? hpkt, foldlM_append_ok] at hs
  obtain ⟨st₁, hst₁, hs⟩ := hs
  cases hdone.symm.trans hst₁
  rw [List.foldlM_cons, bind_result_ok] at hs
  obtain ⟨st', hst', hs⟩ := hs
  refine ⟨st', hst', ?_⟩
  -- the rest of the queue, then the other slots
  have hvisit := hst.trans ((admitPacket_admits (Admits.nodup hst hn)).post hst')
  have hqueue' := (admitPackets_admits (Admits.nodup hvisit hn) _).post hs
  have hput : AdmitRun now s after := by
    cases hafter
    exact setIngress_admits s (Admits.nodup (hvisit.trans hqueue') hn) i _
  have hall := (hvisit.trans hqueue').trans hput
  exact (hqueue'.trans hput).trans ((prePassSlots_admits (Admits.nodup hall hn) _).post hr)

end Visits

/-! ### What enters and leaves a pool -/

/-- What a cycle from `c` does with the pools. -/
structure Cycle.MovesPools (c : Core S) (r : Cycle S) : Prop where
  /-- The pre-pass and the poll take sockets out, from the front. -/
  taken : c.Slotwise (fun slot slot' => slot'.tcpPool <:+ slot.tcpPool) r.polled
  /-- The post-pass parks the sockets of entries that it reaps. -/
  parked : ∀ id, (r.core.slot id).map (·.tcpPool) = (r.polled.slot id).map fun slot => slot.tcpPool ++
    (r.polled.socketsOf r.polled.reapable id).take (slot.tcpPoolMax - slot.tcpPool.length)
  /-- Of an entry that is reaped, neither the entry nor the socket's cell is left. -/
  vacated : ∀ k ∈ r.polled.reapable, ∀ e, r.polled.manager.tcp.lookup k = some e →
    r.core.manager.tcp.lookup k = none ∧ r.core.socketAt k.interface e.handle = none

section Moves

variable {c c' : Core S} {now : Instant} {polls : InterfaceId → List (PollEvent S)} {r : Cycle S}
  {streams : List WayTcpStream} {sessions : List WayUdpSession}

theorem Admit.pools {queued : InterfaceId → Bytes → Prop} {st st' : Core S × List Session}
    (h : Admit now queued st st') :
    st.1.Slotwise (fun slot slot' => slot'.tcpPool <:+ slot.tcpPool) st'.1 := by
  have same : ∀ c : Core S, c.Slotwise (fun slot slot' => slot' = slot) c := fun c id slot hs => ⟨slot, hs, rfl⟩
  have write : ∀ {c : Core S} {slot : InterfaceSlot S} (slot' : InterfaceSlot S),
      c.slot slot'.id = some slot → slot'.tcpPool <:+ slot.tcpPool →
      c.Slotwise (fun slot slot' => slot'.tcpPool <:+ slot.tcpPool) (c.setSlot slot') := by
    intro c slot slot' hs hsuf
    refine (same c).setSlot slot' hs (fun slot₀ _ heq => heq ▸ hsuf) fun id slot₀ slot₁ _ _ heq => ?_
    rw [heq]
  have keep : ∀ c : Core S, c.Slotwise (fun slot slot' => slot'.tcpPool <:+ slot.tcpPool) c :=
    fun c id slot hs => ⟨slot, hs, List.suffix_refl _⟩
  cases h with
  | @device c acc slot hs d => exact write { slot with device := d } hs (List.suffix_refl _)
  | @spoil c acc slot hs => exact write (slot.withPool slot.tcpPool.tail) hs (List.tail_suffix _)
  | leak | udpJoin => exact keep _
  | @tcp c acc slot key pkt t hs =>
    exact write ((slot.withPool slot.tcpPool.tail).withSocket (.tcp t)) hs (List.tail_suffix _)
  | @udpNew c acc slot key pkt u hs => exact write (slot.withSocket (.udp u)) hs (List.suffix_refl _)

theorem Core.Slotwise.trans_pools {c'' : Core S}
    (h : c.Slotwise (fun slot slot' => slot'.tcpPool <:+ slot.tcpPool) c')
    (h' : c'.Slotwise (fun slot slot' => slot'.tcpPool <:+ slot.tcpPool) c'') :
    c.Slotwise (fun slot slot' => slot'.tcpPool <:+ slot.tcpPool) c'' := by
  intro id slot hs
  obtain ⟨slot', hs', hsuf⟩ := h id slot hs
  obtain ⟨slot'', hs'', hsuf'⟩ := h' id slot' hs'
  exact ⟨slot'', hs'', hsuf'.trans hsuf⟩

theorem InterfaceSlot.tcpPool_poll (es : List (PollEvent S)) (slot : InterfaceSlot S) :
    (slot.poll es).tcpPool = slot.tcpPool := by
  induction es generalizing slot with
  | nil => rfl
  | cons e es ih => rw [poll_cons, ih, tcpPool_apply]

/-- A poll leaves the pools alone. -/
theorem Core.pools_pollSlots (c : Core S) (polls : InterfaceId → List (PollEvent S)) :
    c.Slotwise (fun slot slot' => slot'.tcpPool <:+ slot.tcpPool) (c.pollSlots polls) := by
  intro id slot hs
  have hpoll : (c.pollSlots polls).slot id = some (slot.poll (polls slot.id)) := by
    rw [slot_pollSlots, hs]
    rfl
  refine ⟨_, hpoll, ?_⟩
  show (slot.poll (polls slot.id)).tcpPool <:+ slot.tcpPool
  rw [InterfaceSlot.tcpPool_poll]

/-- The cell of a TCP socket holds, after the post-pass, a TCP socket or none. -/
theorem PostPass.Outcome.tcp_or_free {p : PostPass S} (h : PostPass.Outcome c now p) {id : InterfaceId}
    {hd : SocketHandle} (hp : c.protoAt id hd = some .tcp) {s : S.Socket}
    (hs : p.core.socketAt id hd = some s) : p.core.protoAt id hd = some .tcp := by
  obtain ⟨slot, t, hslot, hget⟩ := Core.exists_tcp hp
  obtain ⟨slot', hslot', -, hthin⟩ := h.slot id slot hslot
  have hs' : slot'.sockets.get? hd = some s := by
    rw [Core.socketAt, hslot'] at hs
    exact hs
  have hmap : (slot.sockets.map S.drainedSocket).get? hd = some s := hthin.get?_of_some hs'
  rw [Slab.get?_map, hget, Option.map_some, Option.some.injEq] at hmap
  rw [Core.protoAt, hs, ← hmap]
  rfl

/-- **What a cycle does with the pools**, from a core in order. -/
theorem Cycle.Outcome.movesPools (hr : c.Registered streams sessions) (h : r.Outcome c now polls)
    (hS : S.Lawful) (hreg : r.post.core.Registered (streams ++ r.post.tcp.accepted.filterMap Session.stream?)
      (sessions ++ r.admitted.2.filterMap Session.session?)) : r.MovesPools c where
  taken := by
    have hrun := (prePassSlots_admits hr.shaped.ids _).post h.admitted
    have hpre : c.Slotwise (fun slot slot' => slot'.tcpPool <:+ slot.tcpPool) r.admitted.1 :=
      run_keeps (P := fun x : Core S × List Session =>
        c.Slotwise (fun slot slot' => slot'.tcpPool <:+ slot.tcpPool) x.1)
        (fun _ _ hstep hx => hx.trans_pools hstep.pools) hrun fun _ slot hs => ⟨slot, hs, List.suffix_refl _⟩
    rw [h.polled]
    exact hpre.trans_pools (r.admitted.1.pools_pollSlots polls)
  parked := h.pool
  vacated := by
    intro k hk e he
    have hpolled : r.polled.Registered streams (sessions ++ r.admitted.2.filterMap Session.session?) := by
      rw [h.polled]
      exact (Admits.registered hS ((prePassSlots_admits hr.shaped.ids _).post h.admitted)
        (by simpa using hr)).pollSlots polls
    have hgone : r.post.core.manager.tcp.lookup k = none := by rw [h.post.tcp, if_pos hk]
    refine ⟨by rw [h.core]; exact hgone, ?_⟩
    rw [h.core, Core.socketAt_drainEgress]
    cases hs : r.post.core.socketAt k.interface e.handle with
    | none => rfl
    | some s =>
      -- a socket left in the cell would have an owner, and that was reaped
      have hproto := h.post.tcp_or_free (hpolled.tcp.named he) hs
      obtain ⟨k', e', he', hint, hhandle⟩ := hreg.tcp.owned hproto
      have he' : r.post.core.manager.tcp.lookup k' = some e' := he'
      rw [h.post.tcp] at he'
      split at he'
      · cases he'
      · next hk' =>
        obtain ⟨e₀, he₀, rfl⟩ := Option.map_eq_some_iff.mp he'
        rw [TcpEntry.advance_handle] at hhandle
        exact absurd hk (hpolled.tcp.inj he₀ he hint hhandle ▸ hk')

/-- A step other than a cycle leaves the pools alone. -/
theorem World.Does.pools {w w' : World S} {l : Label S} (h : w.Does l w')
    (hl : ∀ now polls, l ≠ .cycle now polls) : w'.core.slots.map (·.tcpPool) = w.core.slots.map (·.tcpPool) := by
  have write : ∀ {c : Core S} {slot : InterfaceSlot S} (slot' : InterfaceSlot S),
      c.slot slot'.id = some slot → slot.tcpPool = slot'.tcpPool →
      (c.setSlot slot').slots.map (·.tcpPool) = c.slots.map (·.tcpPool) :=
    fun slot' hs heq => Core.map_setSlot _ slot' hs heq
  cases h with
  | ingress pkt =>
    rcases queueIngress_eq w.core pkt with heq | ⟨slot, hs, heq⟩
    · simp only [heq]
    · simp only [heq]
      exact write { slot with device := slot.device.pushIngress pkt.data } hs rfl
  | cycle => exact absurd rfl (hl _ _)
  | read alive touch | write alive touch | shutdown alive touch =>
    cases touch with
    | same => rfl
    | @put slot t t' hs => exact write (slot.putSocket _ (.tcp t')) hs rfl
  | dropStream alive drop =>
    cases drop with
    | @drop slot t e hs => exact write (slot.putSocket _ (.tcp (WayTcpStream.closeIfOpen t))) hs rfl
  | send alive result send =>
    cases send with
    | refused => rfl
    | @sent slot u u' e hs => exact write (slot.putSocket _ (.udp u')) hs rfl
  | recv alive => rw [(popQueue_frame _ w.core).1]
  | dropSession alive drop =>
    cases drop with
    | gone => rfl
    | ended hstep =>
      cases hstep with
      | leave => rfl
      | @close c m slot key e h n u hs => exact write (slot.withoutSocket e.socket) hs rfl
  | rehash same => rfl

end Moves

/-! ### The sockets of a run -/

/-- No two TCP sockets of the sets have one owner, and none is without. -/
def Core.EveryTcpOwned (c : Core S) : Prop :=
  ∀ id hd t, c.socketAt id hd = some (.tcp t) →
    ∃! k, k.interface = id ∧ ∃ e, c.manager.tcp.lookup k = some e ∧ e.handle = hd

/-- A packet that starts a TCP flow which `c` has no entry for, has room for and can pay for. -/
def Core.Admissible (c : Core S) (slot : InterfaceSlot S) (src dst : IpEndpoint) : Prop :=
  c.manager.tcp.lookup ⟨slot.id, .tcp, src, dst⟩ = none ∧ len c.manager.tcp < c.config.tcpMaxConnections ∧
    c.Affords (2 * slot.tcpBufferSize)

section Reusable

variable {c : Core S} {now : Instant} {i n : ℕ} {pkt : Bytes} {st : Core S × List Session}
  {slot : InterfaceSlot S} {src dst : IpEndpoint} {streams : List WayTcpStream} {sessions : List WayUdpSession}

theorem Core.Registered.everyTcpOwned (hr : c.Registered streams sessions) : c.EveryTcpOwned := by
  intro id hd t ht
  have hproto : c.protoAt id hd = some .tcp := by
    rw [protoAt, ht]
    rfl
  obtain ⟨k, e, he, hint, hhandle⟩ := hr.tcp.owned hproto
  refine ⟨k, ⟨hint, e, he, hhandle⟩, ?_⟩
  rintro k' ⟨hint', e', he', hhandle'⟩
  exact hr.tcp.inj he' he (hint'.trans hint.symm) (hhandle'.trans hhandle.symm)

/-- **No SYN fails to listen**, whenever the pre-pass comes to it. -/
theorem Core.ComesTo.listens (hS : S.Lawful) (hL : S.Listens) (h : c.ComesTo now i n pkt st) (hn : c.ids.Nodup)
    (hp : c.PoolsClosed) (hi : st.1.slots[i]? = some slot) (hparse : parseL4 S pkt = some (src, dst, .tcp true)) :
    ∃ t, S.tcpListen slot.nextTcp ⟨some dst.addr, dst.port⟩ = .ok t := by
  have hclosed := Admits.poolsClosed (h.admits hn) hp slot (List.mem_of_getElem? hi)
  exact hL.tcpListen_closed slot.nextTcp ⟨some dst.addr, dst.port⟩ (parseL4_tcp_port hL hparse)
    (InterfaceSlot.nextTcp_isOpen hS hL hclosed)

/-- The visit of a SYN of a new flow that there is room for. -/
theorem admitPacket_syn (hi : st.1.slots[i]? = some slot) (hparse : parseL4 S pkt = some (src, dst, .tcp true))
    (hnew : st.1.manager.tcp.lookup ⟨slot.id, .tcp, src, dst⟩ = none)
    (hroom : len st.1.manager.tcp < st.1.config.tcpMaxConnections) :
    admitPacket i now st pkt = allocTcp st.1 i ⟨slot.id, .tcp, src, dst⟩ >>= fun c => pure (c, st.2) := by
  dsimp only [admitPacket]
  simp only [hparse, hi, hnew, Option.isSome_none, Bool.false_eq_true, if_false, if_neg (Nat.not_le.mpr hroom)]

/-- **A SYN within the limits and the budget gets an entry**, which is there when the pre-pass ends. -/
theorem Core.ComesTo.admitted (hS : S.Lawful) (hL : S.Listens) (h : c.ComesTo now i n pkt st) (hn : c.ids.Nodup)
    (hp : c.PoolsClosed) (hi : st.1.slots[i]? = some slot) (hparse : parseL4 S pkt = some (src, dst, .tcp true))
    (ha : st.1.Admissible slot src dst) {r : Core S × List Session} (hr : (prePass c now).result = .ok r) :
    ∃ hd, r.1.manager.tcp.lookup ⟨slot.id, .tcp, src, dst⟩ = some ⟨hd, .pending, false⟩ := by
  have hrun := h.admits hn
  obtain ⟨hnew, hroom, hafford⟩ := ha
  obtain ⟨st', hst', hrest⟩ := h.goes_on hn hr
  have hopen : ∃ t, _ ∧ Ok (Call.Good True) (allocTcp st.1 i ⟨slot.id, .tcp, src, dst⟩) _ :=
    allocTcp_opens hS hL (Admits.nodup hrun hn) hi
      (Admits.poolsClosed hrun hp slot (List.mem_of_getElem? hi)) ⟨slot.id, .tcp, src, dst⟩
      (parseL4_tcp_port hL hparse) hafford
  obtain ⟨t, -, hopen⟩ := hopen
  refine ⟨S.freeIndex slot.sockets, (Admits.grows hrest).tcp ?_⟩
  rw [admitPacket_syn hi hparse hnew hroom, bind_result_ok] at hst'
  obtain ⟨c', hc', hst'⟩ := hst'
  obtain rfl := hopen.post hc'
  cases hst'
  exact AList.lookup_insert _

end Reusable

/-- **Pooled sockets are reusable and the limits hold.** In every world that a run reaches: each
pool has at most `tcp_pool_size` sockets, all closed and with two buffers of `tcp_buffer_size`; the
TCP sockets of the sets are those of the entries, one each, and a socket that a cycle parks has
left its cell together with its entry, no other step touching the pools; the tables are within
their limits. When the pre-pass comes to a SYN, the socket for it can listen, and if the flow is
new and within the limits and the budget, the pre-pass ends with an entry for it. -/
theorem pooled_sockets_reusable (hS : S.Lawful) (hL : S.Listens) {b : NetstackBuilder S} {w : World S}
    (h : World.Reachable (fun w l => w.Polls (fun _ => InterfaceSlot.KeepsBuffers) l) b w) :
    (∀ slot ∈ w.core.slots, slot.tcpPool.length ≤ b.config.tcpPoolSize ∧ ∀ t ∈ slot.tcpPool,
      S.tcpState t = .closed ∧ S.tcpCapacity t = (b.config.tcpBufferSize, b.config.tcpBufferSize)) ∧
    w.core.EveryTcpOwned ∧
    (∀ now polls, ∃ r, (pollOnce w.core now polls).result = .ok r ∧ r.MovesPools w.core) ∧
    (∀ l w', World.Steps w l w' → (∀ now polls, l ≠ .cycle now polls) →
      w'.core.slots.map (·.tcpPool) = w.core.slots.map (·.tcpPool)) ∧
    len w.core.manager.tcp ≤ b.config.tcpMaxConnections ∧
    len w.core.manager.udp ≤ b.config.udpMaxSessions ∧
    (∀ now i n pkt st slot src dst, w.core.ComesTo now i n pkt st → st.1.slots[i]? = some slot →
      parseL4 S pkt = some (src, dst, .tcp true) →
      (∃ t, S.tcpListen slot.nextTcp ⟨some dst.addr, dst.port⟩ = .ok t) ∧
      (st.1.Admissible slot src dst → ∃ r, (prePass w.core now).result = .ok r ∧
        ∃ hd, r.1.manager.tcp.lookup ⟨slot.id, .tcp, src, dst⟩ = some ⟨hd, .pending, false⟩)) := by
  have hinv : w.Inv False b := World.Reachable.inv hS False.elim h
  have hlim := World.Reachable.limited hS h
  have hclosed := hlim.poolsClosed hS
  have hn : w.core.ids.Nodup := hinv.registered.shaped.ids
  rw [← hinv.config]
  refine ⟨fun slot hslot => ?_, Core.Registered.everyTcpOwned hinv.registered, fun now polls => ?_,
    fun l w' hstep hl => ?_, hlim.tcp, hlim.udp,
    fun now i n pkt st slot src dst hcomes hi hparse => ⟨?_, fun ha => ?_⟩⟩
  · have hpooled := hlim.slots slot hslot
    exact ⟨hpooled.length_le, fun t ht => ⟨hpooled.closed t ht, hpooled.buffers t ht⟩⟩
  · obtain ⟨r, hr, hout, hreg⟩ := pollOnce_outcome hS hinv.registered now polls
    exact ⟨r, hr, hout.movesPools hinv.registered hS hreg⟩
  · exact (hinv.step hS False.elim hstep).1.pools hl
  · exact hcomes.listens hS hL hn hclosed hi hparse
  · have hok : Ok (Call.Good True) (prePass w.core now) _ := prePassSlots_admits hn _
    obtain ⟨⟨r, hr, -⟩, -⟩ := hok
    exact ⟨r, hr, hcomes.admitted hS hL hn hclosed hi hparse ha hr⟩

open Reference in
/-- Two streams are dropped and their connections reset: both sockets are parked. -/
theorem pooled_sockets_reusable_two :
    ∃ w : World reference, World.Reachable (fun w l => w.Polls (fun _ => InterfaceSlot.KeepsBuffers) l)
        (trial .default) w ∧ w.core.slots.map (·.tcpPool.length) = [2] ∧
      ∀ slot ∈ w.core.slots, ∀ t ∈ slot.tcpPool,
        reference.tcpState t = .closed ∧ reference.tcpCapacity t = (16384, 16384) := by
  obtain ⟨w, hw, hcheck⟩ := World.exists_of_run (fun w l => w.Polls (fun _ => InterfaceSlot.KeepsBuffers) l)
    (trial .default) (dropTwo ++ [cycle 2 resetTwo])
    (fun w => decide (w.core.slots.map (·.tcpPool.length) = [2])) (by decide +kernel)
  refine ⟨w, hw, of_decide_eq_true hcheck, fun slot hslot t ht => ?_⟩
  exact ((pooled_sockets_reusable reference_lawful reference_listens hw).1 slot hslot).2 t ht

end WayNetstack

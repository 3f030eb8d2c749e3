import WayNetstack.Registry.Effects

/-!
# The loop bodies as relations

One relation for the body of each loop of the cycle: what a single visit can do to
the core and to the loop's accumulator. Each relation is shown to keep the core in
order and the budget exact, so that both hold along any number of visits. What the
functions themselves do is a run of these relations, `WayNetstack.Registry.PrePass` and
`WayNetstack.Registry.Cycle`.
-/

namespace WayNetstack

open Lib Lib.Table SessionManager Relation

variable {S : Smoltcp}

/-! ### The budget -/

/-- The bytes charged for a TCP entry. -/
def NetstackConfig.tcpCharge (config : NetstackConfig) : ℕ := 2 * config.tcpBufferSize

/-- The payload region of each buffer of a shared UDP socket. -/
def NetstackConfig.udpRegion (config : NetstackConfig) : ℕ := max config.udpBufferBytes config.mtu

/-- The bytes charged for a shared UDP socket. -/
def NetstackConfig.udpCharge (config : NetstackConfig) : ℕ :=
  max config.udpBufferPackets 1 * 64 + config.udpRegion

namespace Core

/-- What the tables of a core are charged for. -/
def charge (c : Core S) : ℕ :=
  c.config.tcpCharge * len c.manager.tcp + c.config.udpCharge * len c.manager.udpDstSockets

/-- There is budget for `n` more bytes. -/
def Affords (c : Core S) (n : ℕ) : Prop :=
  ∀ limit, c.config.maxBufferBytes = some limit → c.bufferBytes + n ≤ limit

instance (c : Core S) (n : ℕ) : Decidable (c.Affords n) :=
  decidable_of_iff (∀ limit ∈ c.config.maxBufferBytes, c.bufferBytes + n ≤ limit) Iff.rfl

/-- The bytes counted are those charged and the `owed` bytes still to be released,
where `exact` holds; they never pass the limit. -/
structure Budgeted (exact : Prop) (owed : ℕ) (c : Core S) : Prop where
  balance : exact → c.bufferBytes = owed + c.charge
  limit : ∀ limit, c.config.maxBufferBytes = some limit → c.bufferBytes ≤ limit

theorem reserveBuffer_eq_some {c c' : Core S} {n : ℕ} : c.reserveBuffer n = some c' ↔
    c.Affords n ∧ c' = { c with bufferBytes := c.bufferBytes + n } := by
  unfold reserveBuffer Affords
  cases hl : c.config.maxBufferBytes with
  | none => simp [eq_comm]
  | some limit =>
    by_cases hlt : limit < c.bufferBytes + n
    · simp only [hlt, if_true, reduceCtorEq, false_iff]
      rintro ⟨ha, -⟩
      exact absurd (ha limit rfl) (Nat.not_le.mpr hlt)
    · simp only [hlt, if_false, Option.some.injEq, eq_comm (a := c')]
      constructor
      · rintro rfl
        exact ⟨fun _ h => h ▸ Nat.le_of_not_lt hlt, rfl⟩
      · exact fun h => h.2

theorem reserveBuffer_eq_none {c : Core S} {n : ℕ} : c.reserveBuffer n = none ↔ ¬c.Affords n := by
  constructor
  · intro hnone ha
    cases hnone.symm.trans (reserveBuffer_eq_some.mpr ⟨ha, rfl⟩)
  · intro ha
    cases hres : c.reserveBuffer n with
    | none => rfl
    | some c' => exact absurd (reserveBuffer_eq_some.mp hres).1 ha

variable {c c' : Core S} {exact : Prop} {owed : ℕ}

/-- A change of neither the tables nor the count. -/
theorem Budgeted.congr (hb : c.Budgeted exact owed) (hm : c'.manager = c.manager)
    (hc : c'.config = c.config) (hn : c'.bufferBytes = c.bufferBytes) : c'.Budgeted exact owed := by
  constructor
  · intro he
    rw [hn, hb.balance he, charge, charge, hm, hc]
  · intro limit hl
    rw [hn]
    exact hb.limit limit (hc ▸ hl)

theorem Shaped.tcpCharge_eq (hs : c.Shaped) {id : InterfaceId} {slot : InterfaceSlot S}
    (h : c.slot id = some slot) : 2 * slot.tcpBufferSize = c.config.tcpCharge := by
  rw [(hs.sizes slot (mem_of_slot h)).2]
  rfl

theorem Shaped.udpCharge_eq (hs : c.Shaped) {id : InterfaceId} {slot : InterfaceSlot S}
    (h : c.slot id = some slot) : c.udpCharge slot = c.config.udpCharge := by
  unfold udpCharge
  rw [(hs.sizes slot (mem_of_slot h)).1]
  rfl

end Core

/-! ### The pre-pass -/

namespace Core

/-- The interfaces with their devices, in order. -/
def feeds (c : Core S) : List (InterfaceId × VirtualDevice) := c.slots.map fun s => (s.id, s.device)

theorem ids_of_feeds {c c' : Core S} (h : c'.feeds = c.feeds) : c'.ids = c.ids := by
  have := congrArg (List.map Prod.fst) h
  unfold feeds at this
  rwa [List.map_map, List.map_map] at this

/-- Writing a slot back with the device it had. -/
theorem feeds_setSlot {c : Core S} {slot : InterfaceSlot S} (slot' : InterfaceSlot S)
    (hs : c.slot slot'.id = some slot) (hd : slot.device = slot'.device) :
    (c.setSlot slot').feeds = c.feeds :=
  map_setSlot _ slot' hs (by rw [id_of_slot hs, hd])

/-- The packet waits in the ingress queue of the interface. -/
def Queued (c : Core S) (id : InterfaceId) (pkt : Bytes) : Prop :=
  ∃ d, (id, d) ∈ c.feeds ∧ pkt ∈ d.ingress

end Core

/-- What the pre-pass does at a time, on the core and the sessions made so far. -/
inductive Admit (now : Instant) (queued : InterfaceId → Bytes → Prop) :
    Core S × List Session → Core S × List Session → Prop
  /-- The ingress queue is taken out or put back. -/
  | device {c : Core S} {acc : List Session} {slot : InterfaceSlot S}
    (hs : c.slot slot.id = some slot) (d : VirtualDevice) :
    Admit now queued (c, acc) (c.setSlot { slot with device := d }, acc)
  /-- A pooled socket that cannot listen is dropped. -/
  | spoil {c : Core S} {acc : List Session} {slot : InterfaceSlot S}
    (hs : c.slot slot.id = some slot) :
    Admit now queued (c, acc) (c.setSlot (slot.withPool slot.tcpPool.tail), acc)
  /-- A UDP socket is charged for and then cannot be bound. -/
  | leak {c : Core S} {acc : List Session} {n : ℕ} (hb : ¬S.Binds) (ha : c.Affords n) :
    Admit now queued (c, acc) ({ c with bufferBytes := c.bufferBytes + n }, acc)
  /-- A SYN opens an entry. -/
  | tcp {c : Core S} {acc : List Session} {slot : InterfaceSlot S} {key : SessionKey} {pkt : Bytes}
    {t : S.Tcp} (hs : c.slot slot.id = some slot) (hid : key.interface = slot.id)
    (hq : queued slot.id pkt) (hp : parseL4 S pkt = some (key.src, key.dst, .tcp true))
    (new : c.manager.tcp.lookup key = none)
    (room : len c.manager.tcp < c.config.tcpMaxConnections)
    (ha : c.Affords (2 * slot.tcpBufferSize))
    (hl : S.tcpListen (slot.tcpPool.head?.getD (S.tcpNew slot.tcpBufferSize slot.tcpBufferSize))
      ⟨some key.dst.addr, key.dst.port⟩ = .ok t) (hproto : key.proto = .tcp) :
    Admit now queued (c, acc) (c.openTcp slot key t, acc)
  /-- A datagram opens a session on a new socket. -/
  | udpNew {c : Core S} {acc : List Session} {slot : InterfaceSlot S} {key : SessionKey} {pkt : Bytes}
    {u : S.Udp} (hs : c.slot slot.id = some slot) (hid : key.interface = slot.id)
    (hq : queued slot.id pkt) (hp : parseL4 S pkt = some (key.src, key.dst, .udp))
    (new : c.manager.udp.lookup key = none)
    (room : len c.manager.udp < c.config.udpMaxSessions)
    (fresh : c.manager.udpDstSockets.lookup (dstOf key) = none)
    (ha : c.Affords (c.udpCharge slot))
    (hb : S.udpBind (S.udpNew (max c.config.udpBufferPackets 1) (max c.config.udpBufferBytes slot.mtu))
      key.dst = .ok u) (hproto : key.proto = .udp) :
    Admit now queued (c, acc) (c.openUdpNew slot key u now,
      acc ++ [.udp (sessionOf key (S.freeIndex slot.sockets) c.queues.length)])
  /-- A datagram opens a session on a socket in use. -/
  | udpJoin {c : Core S} {acc : List Session} {slot : InterfaceSlot S} {key : SessionKey}
    {pkt : Bytes} {h : SocketHandle} {n : ℕ} (hs : c.slot slot.id = some slot)
    (hid : key.interface = slot.id) (hq : queued slot.id pkt)
    (hp : parseL4 S pkt = some (key.src, key.dst, .udp)) (new : c.manager.udp.lookup key = none)
    (room : len c.manager.udp < c.config.udpMaxSessions)
    (inUse : c.manager.udpDstSockets.lookup (dstOf key) = some (h, n)) (hproto : key.proto = .udp) :
    Admit now queued (c, acc) (c.joinUdp key h n now, acc ++ [.udp (sessionOf key h c.queues.length)])

section Admit

variable {now : Instant} {queued : InterfaceId → Bytes → Prop} {st st' : Core S × List Session}
  {streams : List WayTcpStream} {sessions : List WayUdpSession} {exact : Prop} {owed : ℕ}

theorem Admit.evolves (hS : S.Lawful) (h : Admit now queued st st')
    (hr : st.1.Registered streams (sessions ++ st.2.filterMap Session.session?)) :
    World.Evolves ⟨st.1, streams, sessions ++ st.2.filterMap Session.session?⟩
      ⟨st'.1, streams, sessions ++ st'.2.filterMap Session.session?⟩ := by
  cases h with
  | @device c acc slot hs d => exact hr.setSlot { slot with device := d } hs rfl rfl
  | spoil hs => exact hr.setSlot (InterfaceSlot.withPool _ _) hs rfl rfl
  | leak hb ha => exact Core.Shaped.evolves (hr.shaped.congr rfl rfl) rfl rfl rfl
  | tcp hs hid hq hp new room ha hl => exact hr.openTcp hS hs hid new _
  | @udpNew c acc slot key pkt u hs hid hq hp new room fresh ha hb =>
    have := hr.openUdpNew hS hs hid new fresh u now
    rw [List.filterMap_append, ← List.append_assoc]
    exact this
  | udpJoin hs hid hq hp new room inUse =>
    have := hr.joinUdp new inUse now
    rw [List.filterMap_append, ← List.append_assoc]
    exact this

theorem Admit.registered (hS : S.Lawful) (h : Admit now queued st st')
    (hr : st.1.Registered streams (sessions ++ st.2.filterMap Session.session?)) :
    st'.1.Registered streams (sessions ++ st'.2.filterMap Session.session?) :=
  (h.evolves hS hr).registered hr

theorem Admit.config (h : Admit now queued st st') : st'.1.config = st.1.config := by
  cases h <;> rfl

/-- The interfaces and their sizes stay what they are. -/
theorem Admit.dims (h : Admit now queued st st') :
    st'.1.slots.map InterfaceSlot.dims = st.1.slots.map InterfaceSlot.dims := by
  cases h with
  | @device c acc slot hs d => exact Core.map_setSlot _ { slot with device := d } hs rfl
  | @spoil c acc slot hs => exact Core.map_setSlot _ (slot.withPool slot.tcpPool.tail) hs rfl
  | leak | udpJoin => rfl
  | @tcp c acc slot key pkt t hs =>
    exact Core.map_setSlot _ ((slot.withPool slot.tcpPool.tail).withSocket (.tcp t)) hs rfl
  | @udpNew c acc slot key pkt u hs => exact Core.map_setSlot _ (slot.withSocket (.udp u)) hs rfl

theorem Admit.budgeted (h : Admit now queued st st') (hx : exact → S.Binds) (hc : st.1.Shaped)
    (hb : st.1.Budgeted exact owed) : st'.1.Budgeted exact owed := by
  cases h with
  | device hs d => exact hb.congr rfl rfl rfl
  | spoil hs => exact hb.congr rfl rfl rfl
  | leak hnb ha => exact ⟨fun he => absurd (hx he) hnb, ha⟩
  | @tcp c acc slot key pkt t hs hid hq hp new room ha hl =>
    refine ⟨fun he => ?_, ha⟩
    have hbal := hb.balance he
    have hlen := len_insert (notMem_of_lookup new) (⟨S.freeIndex slot.sockets, .pending, false⟩ : TcpEntry)
    have hcharge : _ = c.config.tcpCharge := hc.tcpCharge_eq hs
    simp only [Core.openTcp, Core.charge, Core.setSlot] at hbal hlen ⊢
    rw [hlen, Nat.mul_succ, hbal, hcharge]
    omega
  | @udpNew c acc slot key pkt u hs hid hq hp new room fresh ha hbind =>
    refine ⟨fun he => ?_, ha⟩
    have hbal := hb.balance he
    have hlen := len_insert (notMem_of_lookup fresh) ((S.freeIndex slot.sockets, 1) : SocketHandle × ℕ)
    have hcharge : _ = c.config.udpCharge := hc.udpCharge_eq hs
    simp only [Core.openUdpNew, Core.charge, Core.setSlot] at hbal hlen ⊢
    rw [hlen, Nat.mul_succ, hbal, hcharge]
    omega
  | udpJoin hs hid hq hp new room inUse =>
    refine ⟨fun he => ?_, hb.limit⟩
    have hbal := hb.balance he
    simp only [Core.joinUdp, Core.charge, len_replace] at hbal ⊢
    exact hbal

end Admit

/-! ### The post-pass -/

/-- What the body of the reap loop does, on the core and the bytes to release. -/
inductive ReapTcp : Core S × ℕ → Core S × ℕ → Prop
  /-- An orphaned entry whose socket is closed goes, and its socket with it. -/
  | reap {c : Core S} {m : ℕ} {slot : InterfaceSlot S} {key : SessionKey} {e : TcpEntry} {t : S.Tcp}
    (hs : c.slot slot.id = some slot) (hid : key.interface = slot.id)
    (he : c.manager.tcp.lookup key = some e) (ho : e.orphaned = true)
    (hget : slot.sockets.get? e.handle = some (.tcp t)) (hst : S.tcpState t = .closed) :
    ReapTcp (c, m) (c.closeTcp slot key e t, m + 2 * slot.tcpBufferSize)

/-- What the body of the loop that drains the shared sockets does. -/
inductive DrainUdp : Core S → Core S → Prop
  /-- The receive buffer of a UDP socket is emptied. -/
  | drain {c : Core S} {slot : InterfaceSlot S} {h : SocketHandle} {u u' : S.Udp}
    (hs : c.slot slot.id = some slot) (hget : slot.sockets.get? h = some (.udp u))
    (hrx : S.udpRx u' = []) (htx : S.udpTx u' = S.udpTx u)
    (hcap : S.udpCapacity u' = S.udpCapacity u) :
    DrainUdp c (c.setSlot (slot.putSocket h (.udp u')))

/-- What the body of the loop that routes datagrams does. -/
inductive RouteUdp (now : Instant) : Core S → Core S → Prop
  /-- A datagram goes to the queue of its session. -/
  | push {c : Core S} {key : SessionKey} {e : UdpEntry} {data : Bytes}
    (he : c.manager.udp.lookup key = some e) :
    RouteUdp now c { c with
      queues := c.queues.modify e.queue (·.push data)
      manager := { c.manager with udp := c.manager.udp.replace key { e with lastActivity := now } } }

/-- What ending a UDP session does, on the core and the bytes to release. -/
inductive EndUdp : Core S × ℕ → Core S × ℕ → Prop
  /-- Others still use the socket. -/
  | leave {c : Core S} {m : ℕ} {key : SessionKey} {e : UdpEntry} {h : SocketHandle} {n : ℕ}
    (he : c.manager.udp.lookup key = some e)
    (hn : c.manager.udpDstSockets.lookup (dstOf key) = some (h, n)) (more : n - 1 ≠ 0) :
    EndUdp (c, m) (c.leaveUdp key e h n, m)
  /-- The last session of the socket takes it along. -/
  | close {c : Core S} {m : ℕ} {slot : InterfaceSlot S} {key : SessionKey} {e : UdpEntry}
    {h : SocketHandle} {n : ℕ} {u : S.Udp} (hs : c.slot slot.id = some slot)
    (hid : key.interface = slot.id) (he : c.manager.udp.lookup key = some e)
    (hn : c.manager.udpDstSockets.lookup (dstOf key) = some (h, n)) (last : n - 1 = 0)
    (hget : slot.sockets.get? e.socket = some (.udp u)) :
    EndUdp (c, m) (c.closeUdp slot key e, m + c.udpCharge slot)

section PostPass

variable {streams : List WayTcpStream} {sessions : List WayUdpSession} {exact : Prop}

theorem ReapTcp.evolves {st st' : Core S × ℕ} (h : ReapTcp st st')
    (hr : st.1.Registered streams sessions) :
    World.Evolves ⟨st.1, streams, sessions⟩ ⟨st'.1, streams, sessions⟩ := by
  cases h with
  | reap hs hid he ho hget hst => exact hr.closeTcp hs hid he ho _

theorem ReapTcp.registered {st st' : Core S × ℕ} (h : ReapTcp st st')
    (hr : st.1.Registered streams sessions) : st'.1.Registered streams sessions :=
  (h.evolves hr).registered hr

theorem ReapTcp.config {st st' : Core S × ℕ} (h : ReapTcp st st') : st'.1.config = st.1.config := by
  cases h
  rfl

theorem ReapTcp.bufferBytes {st st' : Core S × ℕ} (h : ReapTcp st st') :
    st'.1.bufferBytes = st.1.bufferBytes := by
  cases h
  rfl

/-- What is no longer charged for is to be released. -/
theorem ReapTcp.charge {st st' : Core S × ℕ} (h : ReapTcp st st') (hc : st.1.Shaped) :
    st'.2 + st'.1.charge = st.2 + st.1.charge := by
  cases h with
  | @reap c m slot key e t hs hid he ho hget hst =>
    have hlen := len_erase (mem_of_lookup he)
    have hcharge : _ = c.config.tcpCharge := hc.tcpCharge_eq hs
    simp only [Core.closeTcp, Core.charge, Core.setSlot] at hlen ⊢
    rw [hcharge, ← hlen, Nat.mul_succ]
    omega

/-- A budget stays in balance when what is no longer charged for is owed. -/
theorem Core.Budgeted.transfer {c c' : Core S} {owed owed' : ℕ} (hb : c.Budgeted exact owed)
    (hn : c'.bufferBytes = c.bufferBytes) (hc : c'.config = c.config)
    (hcharge : owed' + c'.charge = owed + c.charge) : c'.Budgeted exact owed' := by
  constructor
  · intro hx
    rw [hn, hcharge]
    exact hb.balance hx
  · intro limit hl
    rw [hn]
    exact hb.limit limit (hc ▸ hl)

theorem ReapTcp.budgeted {st st' : Core S × ℕ} (h : ReapTcp st st') (hc : st.1.Shaped)
    (hb : st.1.Budgeted exact st.2) : st'.1.Budgeted exact st'.2 :=
  hb.transfer h.bufferBytes h.config (h.charge hc)

theorem DrainUdp.evolves {c c' : Core S} (h : DrainUdp c c') (hr : c.Registered streams sessions) :
    World.Evolves ⟨c, streams, sessions⟩ ⟨c', streams, sessions⟩ := by
  cases h with
  | drain hs hget hrx htx hcap => exact hr.putSocket hs hget _ rfl

theorem DrainUdp.config {c c' : Core S} (h : DrainUdp c c') : c'.config = c.config := by
  cases h
  rfl

theorem DrainUdp.budgeted {c c' : Core S} {owed : ℕ} (h : DrainUdp c c')
    (hb : c.Budgeted exact owed) : c'.Budgeted exact owed := by
  cases h with
  | drain hs hget hrx htx hcap => exact hb.congr rfl rfl rfl

theorem map_closed_push (qs : Queues) (q : QueueRef) (data : Bytes) :
    (qs.modify q (·.push data)).map (·.closed) = qs.map (·.closed) := by
  apply List.ext_getElem?
  intro i
  rw [List.getElem?_map, List.getElem?_modify, List.getElem?_map]
  cases qs[i]? with
  | none => rfl
  | some x => by_cases hq : q = i <;> simp [hq, UdpQueue.push]

theorem RouteUdp.evolves {now : Instant} {c c' : Core S} (h : RouteUdp now c c')
    (hr : c.Registered streams sessions) :
    World.Evolves ⟨c, streams, sessions⟩ ⟨c', streams, sessions⟩ := by
  cases h with
  | @push key e data he =>
    refine ⟨hr.shaped.congr rfl rfl, .refl, .single ?_⟩
    unfold Core.udpBook
    rw [map_closed_push]
    exact .touched he

theorem RouteUdp.config {now : Instant} {c c' : Core S} (h : RouteUdp now c c') :
    c'.config = c.config := by
  cases h
  rfl

theorem RouteUdp.budgeted {now : Instant} {c c' : Core S} {owed : ℕ} (h : RouteUdp now c c')
    (hb : c.Budgeted exact owed) : c'.Budgeted exact owed := by
  cases h with
  | push he => exact ⟨hb.balance, hb.limit⟩

theorem EndUdp.evolves {st st' : Core S × ℕ} (h : EndUdp st st')
    (hr : st.1.Registered streams sessions) :
    World.Evolves ⟨st.1, streams, sessions⟩ ⟨st'.1, streams, sessions⟩ := by
  cases h with
  | leave he hn more => exact hr.leaveUdp he hn more
  | close hs hid he hn last hget => exact hr.closeUdp hs hid he hn last

theorem EndUdp.registered {st st' : Core S × ℕ} (h : EndUdp st st')
    (hr : st.1.Registered streams sessions) : st'.1.Registered streams sessions :=
  (h.evolves hr).registered hr

theorem EndUdp.config {st st' : Core S × ℕ} (h : EndUdp st st') : st'.1.config = st.1.config := by
  cases h <;> rfl

theorem EndUdp.bufferBytes {st st' : Core S × ℕ} (h : EndUdp st st') :
    st'.1.bufferBytes = st.1.bufferBytes := by
  cases h <;> rfl

/-- What is no longer charged for is to be released. -/
theorem EndUdp.charge {st st' : Core S × ℕ} (h : EndUdp st st') (hc : st.1.Shaped) :
    st'.2 + st'.1.charge = st.2 + st.1.charge := by
  cases h with
  | leave he hn more => simp only [Core.leaveUdp, Core.charge, len_replace]
  | @close c m slot key e h n u hs hid he hn last hget =>
    have hlen := len_erase (mem_of_lookup hn)
    have hcharge : _ = c.config.udpCharge := hc.udpCharge_eq hs
    simp only [Core.closeUdp, Core.charge, Core.setSlot] at hlen ⊢
    rw [hcharge, ← hlen, Nat.mul_succ]
    omega

theorem EndUdp.budgeted {st st' : Core S × ℕ} (h : EndUdp st st') (hc : st.1.Shaped)
    (hb : st.1.Budgeted exact st.2) : st'.1.Budgeted exact st'.2 :=
  hb.transfer h.bufferBytes h.config (h.charge hc)

end PostPass

end WayNetstack

import WayNetstack.Registry.Tcp
import WayNetstack.Registry.Udp
import Mathlib.Logic.Relation

/-!
# What the operations do to the core

Everything the crate does under the lock comes down to a few changes of the core:
a TCP socket is opened for an entry or reaped with it, a UDP session opens, joins,
leaves or closes a shared socket, a socket is replaced by another of its protocol.
This module names these changes and the relations made of them, one for the body of
each loop of the cycle, and proves what they do to the two accounts.

`Core.Registered` says that a core is in order: its slots are well formed and both
accounts satisfy their invariants. `World.Evolves` says that the accounts can follow
a change: each gets by steps of its own to what the change has made of it. Every
change of the core is one the accounts can follow, and so keeps the order.
-/

namespace WayNetstack

open Lib Lib.Table SessionManager Relation

variable {S : Smoltcp}

/-! ### Accounts of a core -/

/-- The slots have distinct identifiers and the sizes of the configuration. -/
structure Core.Shaped (c : Core S) : Prop where
  ids : c.ids.Nodup
  sizes : ∀ slot ∈ c.slots, slot.mtu = c.config.mtu ∧ slot.tcpBufferSize = c.config.tcpBufferSize

/-- The account of the TCP sockets of a core. -/
def Core.tcpBook (c : Core S) (streams : List WayTcpStream) : TcpBook where
  has i h := c.protoAt i h = some .tcp
  entries := c.manager.tcp
  streams := streams

/-- The account of the UDP sockets of a core. -/
def Core.udpBook (c : Core S) (sessions : List WayUdpSession) : UdpBook where
  has i h := c.protoAt i h = some .udp
  entries := c.manager.udp
  shared := c.manager.udpDstSockets
  closed := c.queues.map (·.closed)
  sessions := sessions

/-- A core in order, `streams` and `sessions` being the objects alive. -/
structure Core.Registered (c : Core S) (streams : List WayTcpStream)
    (sessions : List WayUdpSession) : Prop where
  shaped : c.Shaped
  tcp : (c.tcpBook streams).Inv
  udp : (c.udpBook sessions).Inv

/-- The world is in order. -/
def World.Registered (w : World S) : Prop := w.core.Registered w.streams w.sessions

/-! ### Evolution -/

/-- Each account gets from `w` to `w'` by steps of its own. -/
structure World.Evolves (w w' : World S) : Prop where
  shaped : w'.core.Shaped
  tcp : ReflTransGen TcpBook.Step (w.core.tcpBook w.streams) (w'.core.tcpBook w'.streams)
  udp : ReflTransGen UdpBook.Step (w.core.udpBook w.sessions) (w'.core.udpBook w'.sessions)

namespace World

variable {w w' w'' : World S}

theorem Evolves.refl (hw : w.Registered) : w.Evolves w := ⟨hw.shaped, .refl, .refl⟩

theorem Evolves.trans (h : w.Evolves w') (h' : w'.Evolves w'') : w.Evolves w'' :=
  ⟨h'.shaped, h.tcp.trans h'.tcp, h.udp.trans h'.udp⟩

/-- The steps of the accounts keep their invariants, so the order is kept. -/
theorem Evolves.registered (h : w.Evolves w') (hw : w.Registered) : w'.Registered :=
  ⟨h.shaped, run_keeps (fun _ _ hstep => hstep.inv) h.tcp hw.tcp,
    run_keeps (fun _ _ hstep => hstep.inv) h.udp hw.udp⟩

/-- **The loop rule.** The accounts can follow a loop whose body they can follow from
every world in order. -/
theorem Evolves.loop {σ : Type} {R : σ → σ → Prop} (view : σ → World S)
    (body : ∀ a b, R a b → (view a).Registered → (view a).Evolves (view b)) {a b : σ}
    (h : ReflTransGen R a b) (ha : (view a).Registered) : (view a).Evolves (view b) :=
  run_keeps (P := fun x => (view a).Evolves (view x))
    (fun x y hstep hx => hx.trans (body x y hstep (hx.registered ha))) h (.refl ha)

end World

/-! ### Writing slots and sockets -/

/-- What never changes about a slot. -/
def InterfaceSlot.dims (slot : InterfaceSlot S) : InterfaceId × ℕ × ℕ :=
  (slot.id, slot.mtu, slot.tcpBufferSize)

namespace Core

variable {c c' : Core S} {slot : InterfaceSlot S} {id : InterfaceId} {h : SocketHandle}

theorem ids_of_dims (hs : c'.slots.map InterfaceSlot.dims = c.slots.map InterfaceSlot.dims) :
    c'.ids = c.ids := by
  have hid : ∀ d : Core S, d.ids = (d.slots.map InterfaceSlot.dims).map Prod.fst := by
    intro d
    rw [List.map_map]
    rfl
  rw [hid, hs, ← hid]

theorem Shaped.congr (hc : c.Shaped)
    (hs : c'.slots.map InterfaceSlot.dims = c.slots.map InterfaceSlot.dims)
    (hconf : c'.config = c.config) : c'.Shaped := by
  constructor
  · rw [ids_of_dims hs]
    exact hc.ids
  · intro slot hslot
    have hmem : slot.dims ∈ c.slots.map InterfaceSlot.dims := hs ▸ List.mem_map_of_mem hslot
    obtain ⟨slot₀, hslot₀, heq⟩ := List.mem_map.mp hmem
    have hsz := hc.sizes slot₀ hslot₀
    simp only [InterfaceSlot.dims, Prod.mk.injEq] at heq
    rw [hconf, ← heq.2.1, ← heq.2.2]
    exact hsz

theorem Shaped.setSlot (hc : c.Shaped) (slot' : InterfaceSlot S) (hs : c.slot slot'.id = some slot)
    (heq : slot.dims = slot'.dims) : (c.setSlot slot').Shaped :=
  hc.congr (map_setSlot InterfaceSlot.dims slot' hs heq) rfl

/-- One cell of a slot is written. -/
theorem socketAt_write (hs : c.slot slot.id = some slot) (slot' : InterfaceSlot S)
    (hid : slot'.id = slot.id) {o : Option S.Socket}
    (hget : ∀ hd, slot'.sockets.get? hd = if hd = h then o else slot.sockets.get? hd)
    (i : InterfaceId) (hd : SocketHandle) :
    (c.setSlot slot').socketAt i hd = if i = slot.id ∧ hd = h then o else c.socketAt i hd := by
  have hs' : c.slot slot'.id = some slot := by rw [hid, hs]
  rw [socketAt_setSlot hs', hid]
  by_cases hi : i = slot.id
  · subst hi
    rw [if_pos rfl, hget, socketAt_of_slot hs]
    simp
  · simp [hi]

theorem protoAt_write (hs : c.slot slot.id = some slot) (slot' : InterfaceSlot S)
    (hid : slot'.id = slot.id) {o : Option S.Socket}
    (hget : ∀ hd, slot'.sockets.get? hd = if hd = h then o else slot.sockets.get? hd)
    (i : InterfaceId) (hd : SocketHandle) : (c.setSlot slot').protoAt i hd =
      if i = slot.id ∧ hd = h then o.map Socket.proto else c.protoAt i hd := by
  unfold protoAt
  rw [socketAt_write hs slot' hid hget]
  split <;> rfl

/-- A socket is replaced by another of its protocol: no handle names another protocol. -/
theorem protoAt_putSocket (hs : c.slot slot.id = some slot) {s s' : S.Socket}
    (hget : slot.sockets.get? h = some s) (hp : s'.proto = s.proto) :
    (c.setSlot (slot.putSocket h s')).protoAt = c.protoAt := by
  funext i hd
  rw [protoAt_write hs (slot.putSocket h s') rfl (fun hd => Slab.get?_put hget s' hd)]
  split
  · next heq =>
    unfold protoAt
    rw [heq.1, heq.2, socketAt_of_slot hs, hget, Option.map_some, Option.map_some, hp]
  · rfl

/-- The slots are changed without their sockets. -/
theorem socketAt_setSlot_same (slot' : InterfaceSlot S) (hs : c.slot slot'.id = some slot)
    (hsock : slot'.sockets = slot.sockets) : (c.setSlot slot').socketAt = c.socketAt := by
  funext i hd
  rw [socketAt_setSlot hs]
  split
  · next hi => rw [hi, hsock, socketAt, hs, Option.bind_some]
  · rfl

theorem protoAt_setSlot_same {slot' : InterfaceSlot S} (hs : c.slot slot'.id = some slot)
    (hsock : slot'.sockets = slot.sockets) : (c.setSlot slot').protoAt = c.protoAt := by
  funext i hd
  rw [protoAt, socketAt_setSlot_same slot' hs hsock]
  rfl

theorem protoAt_congr (hs : c'.slots = c.slots) : c'.protoAt = c.protoAt := by
  funext i hd
  unfold protoAt
  rw [socketAt_congr hs]

/-- A socket comes into a free cell. -/
theorem has_insert (c' : Core S) {p : Proto} (free : c.protoAt id h = none)
    (hw : ∀ i hd, c'.protoAt i hd = if i = id ∧ hd = h then some p else c.protoAt i hd)
    (q : Proto) (i : InterfaceId) (hd : SocketHandle) :
    c'.protoAt i hd = some q ↔ c.protoAt i hd = some q ∨ q = p ∧ i = id ∧ hd = h := by
  rw [hw]
  split
  · next heq =>
    rw [heq.1, heq.2, free]
    simp [eq_comm]
  · next hne => simp [hne]

/-- A socket leaves its cell. -/
theorem has_remove (c' : Core S) {p : Proto} (hp : c.protoAt id h = some p)
    (hw : ∀ i hd, c'.protoAt i hd = if i = id ∧ hd = h then none else c.protoAt i hd)
    (q : Proto) (i : InterfaceId) (hd : SocketHandle) :
    c'.protoAt i hd = some q ↔ c.protoAt i hd = some q ∧ ¬(q = p ∧ i = id ∧ hd = h) := by
  rw [hw]
  split
  · next heq =>
    rw [heq.1, heq.2, hp]
    simp [eq_comm]
  · next hne => simp [hne]

/-! ### Frames -/

variable {streams : List WayTcpStream} {sessions : List WayUdpSession}

/-- A change that keeps the protocols, the tables and the flags keeps the accounts. -/
theorem Shaped.evolves (hs : c'.Shaped) (hp : c'.protoAt = c.protoAt) (hm : c'.manager = c.manager)
    (hq : c'.queues.map (·.closed) = c.queues.map (·.closed)) :
    World.Evolves ⟨c, streams, sessions⟩ ⟨c', streams, sessions⟩ := by
  have ht : c'.tcpBook streams = c.tcpBook streams := by
    unfold tcpBook
    rw [hp, hm]
  have hu : c'.udpBook sessions = c.udpBook sessions := by
    unfold udpBook
    rw [hp, hm, hq]
  exact ⟨hs, ht ▸ .refl, hu ▸ .refl⟩

/-- A slot is written back with a socket replaced by another of its protocol. -/
theorem Registered.putSocket (hr : c.Registered streams sessions) (hs : c.slot slot.id = some slot)
    {s : S.Socket} (hget : slot.sockets.get? h = some s) (s' : S.Socket) (hp : s'.proto = s.proto) :
    World.Evolves ⟨c, streams, sessions⟩ ⟨c.setSlot (slot.putSocket h s'), streams, sessions⟩ :=
  (hr.shaped.setSlot (slot.putSocket h s') hs rfl).evolves (protoAt_putSocket hs hget hp) rfl rfl

/-- A slot is written back with its sockets as they were. -/
theorem Registered.setSlot (hr : c.Registered streams sessions) (slot' : InterfaceSlot S)
    (hs : c.slot slot'.id = some slot) (hd : slot.dims = slot'.dims)
    (hsock : slot'.sockets = slot.sockets) :
    World.Evolves ⟨c, streams, sessions⟩ ⟨c.setSlot slot', streams, sessions⟩ :=
  (hr.shaped.setSlot slot' hs hd).evolves (protoAt_setSlot_same hs hsock) rfl rfl

end Core

/-! ### Opening a TCP socket -/

/-- A slot with a socket added. -/
def InterfaceSlot.withSocket (slot : InterfaceSlot S) (s : S.Socket) : InterfaceSlot S :=
  { slot with sockets := slot.sockets.insertAt (S.freeIndex slot.sockets) s }

/-- A slot with a socket removed. -/
def InterfaceSlot.withoutSocket (slot : InterfaceSlot S) (h : SocketHandle) : InterfaceSlot S :=
  { slot with sockets := slot.sockets.remove h }

/-- A slot with another pool. -/
def InterfaceSlot.withPool (slot : InterfaceSlot S) (pool : List S.Tcp) : InterfaceSlot S :=
  { slot with tcpPool := pool }

namespace Core

variable {c : Core S} {slot : InterfaceSlot S}

/-- The cell a new socket will be stored in names nothing. -/
theorem protoAt_freeIndex (hS : S.Lawful) (hs : c.slot slot.id = some slot) :
    c.protoAt slot.id (S.freeIndex slot.sockets) = none := by
  unfold protoAt
  rw [socketAt_of_slot hs, (hS.freeIndex_free slot.sockets).2]
  rfl

theorem protoAt_withSocket (hS : S.Lawful) (hs : c.slot slot.id = some slot)
    (slot' : InterfaceSlot S) (hid : slot'.id = slot.id) {s : S.Socket}
    (hsock : slot'.sockets = slot.sockets.insertAt (S.freeIndex slot.sockets) s) (i : InterfaceId)
    (hd : SocketHandle) : (c.setSlot slot').protoAt i hd =
      if i = slot.id ∧ hd = S.freeIndex slot.sockets then some s.proto else c.protoAt i hd :=
  protoAt_write (o := some s) hs slot' hid
    (fun hd => by rw [hsock]; exact Slab.get?_insertAt (hS.freeIndex_free slot.sockets) s hd) i hd

theorem protoAt_withoutSocket (hs : c.slot slot.id = some slot) (slot' : InterfaceSlot S)
    (hid : slot'.id = slot.id) {h : SocketHandle} (hsock : slot'.sockets = slot.sockets.remove h)
    (i : InterfaceId) (hd : SocketHandle) :
    (c.setSlot slot').protoAt i hd = if i = slot.id ∧ hd = h then none else c.protoAt i hd :=
  protoAt_write (o := none) hs slot' hid (fun hd => by rw [hsock]; exact Slab.get?_remove _ h hd) i hd

end Core

/-- The socket `t` starts listening for `key` and gets an entry. -/
def Core.openTcp (c : Core S) (slot : InterfaceSlot S) (key : SessionKey) (t : S.Tcp) : Core S :=
  { c.setSlot ((slot.withPool slot.tcpPool.tail).withSocket (.tcp t)) with
    manager := { c.manager with
      tcp := c.manager.tcp.insert key ⟨S.freeIndex slot.sockets, .pending, false⟩ }
    bufferBytes := c.bufferBytes + 2 * slot.tcpBufferSize }

/-- A TCP socket and its orphaned entry are gone; the pool may take the socket. -/
def Core.closeTcp (c : Core S) (slot : InterfaceSlot S) (key : SessionKey) (e : TcpEntry)
    (t : S.Tcp) : Core S :=
  { c.setSlot ((slot.withoutSocket e.handle).withPool
      (if slot.tcpPool.length < slot.tcpPoolMax then slot.tcpPool ++ [t] else slot.tcpPool)) with
    manager := { c.manager with tcp := c.manager.tcp.erase key } }

namespace Core

variable {c : Core S} {slot : InterfaceSlot S} {key : SessionKey} {streams : List WayTcpStream}
  {sessions : List WayUdpSession}

theorem Registered.openTcp (hS : S.Lawful) (hr : c.Registered streams sessions)
    (hs : c.slot slot.id = some slot) (hid : key.interface = slot.id)
    (hnew : c.manager.tcp.lookup key = none) (t : S.Tcp) :
    World.Evolves ⟨c, streams, sessions⟩ ⟨c.openTcp slot key t, streams, sessions⟩ := by
  have hfree := protoAt_freeIndex hS hs
  have hw := has_insert (c.openTcp slot key t) hfree
    (protoAt_withSocket hS hs ((slot.withPool slot.tcpPool.tail).withSocket (.tcp t)) rfl rfl)
  have ht : (c.openTcp slot key t).tcpBook streams =
      ⟨fun i h' => c.protoAt i h' = some .tcp ∨ i = key.interface ∧ h' = S.freeIndex slot.sockets,
        c.manager.tcp.insert key ⟨S.freeIndex slot.sockets, .pending, false⟩, streams⟩ := by
    unfold tcpBook
    congr 1
    funext i h'
    rw [hw, hid]
    simp [Socket.proto]
  have hu : (c.openTcp slot key t).udpBook sessions = c.udpBook sessions := by
    unfold udpBook
    congr 1
    funext i h'
    rw [hw]
    simp [Socket.proto]
  have hshape : (c.openTcp slot key t).Shaped :=
    (hr.shaped.setSlot ((slot.withPool slot.tcpPool.tail).withSocket (.tcp t)) hs rfl).congr
      rfl rfl
  have hstep : TcpBook.Step (c.tcpBook streams) ((c.openTcp slot key t).tcpBook streams) :=
    ht ▸ .opened (by simp [tcpBook, hid, hfree]) hnew
  exact ⟨hshape, .single hstep, hu ▸ .refl⟩

theorem Registered.closeTcp (hr : c.Registered streams sessions)
    (hs : c.slot slot.id = some slot) (hid : key.interface = slot.id) {e : TcpEntry}
    (he : c.manager.tcp.lookup key = some e) (ho : e.orphaned = true) (t : S.Tcp) :
    World.Evolves ⟨c, streams, sessions⟩ ⟨c.closeTcp slot key e t, streams, sessions⟩ := by
  have hp : c.protoAt slot.id e.handle = some .tcp := hid ▸ hr.tcp.named he
  let slot' := (slot.withoutSocket e.handle).withPool
    (if slot.tcpPool.length < slot.tcpPoolMax then slot.tcpPool ++ [t] else slot.tcpPool)
  have hw := has_remove (c.closeTcp slot key e t) hp
    (protoAt_withoutSocket hs slot' rfl rfl)
  have ht : (c.closeTcp slot key e t).tcpBook streams =
      ⟨fun i h' => c.protoAt i h' = some .tcp ∧ ¬(i = key.interface ∧ h' = e.handle),
        c.manager.tcp.erase key, streams⟩ := by
    unfold tcpBook
    congr 1
    funext i h'
    rw [hw, hid]
    simp
  have hu : (c.closeTcp slot key e t).udpBook sessions = c.udpBook sessions := by
    unfold udpBook
    congr 1
    funext i h'
    rw [hw]
    simp
  have hshape : (c.closeTcp slot key e t).Shaped :=
    (hr.shaped.setSlot slot' hs rfl).congr rfl rfl
  have hstep : TcpBook.Step (c.tcpBook streams) ((c.closeTcp slot key e t).tcpBook streams) :=
    ht ▸ .reaped he ho
  exact ⟨hshape, .single hstep, hu ▸ .refl⟩

end Core

/-! ### Opening and leaving a UDP socket -/

/-- The bytes charged for a shared UDP socket of a slot. -/
def Core.udpCharge (c : Core S) (slot : InterfaceSlot S) : ℕ :=
  max c.config.udpBufferPackets 1 * 64 + max c.config.udpBufferBytes slot.mtu

/-- The first session of a destination: the socket `u` is added for it. -/
def Core.openUdpNew (c : Core S) (slot : InterfaceSlot S) (key : SessionKey) (u : S.Udp)
    (now : Instant) : Core S :=
  { c.setSlot (slot.withSocket (.udp u)) with
    manager := { c.manager with
      udp := c.manager.udp.insert key ⟨S.freeIndex slot.sockets, c.queues.length, now⟩
      udpDstSockets := c.manager.udpDstSockets.insert (dstOf key) (S.freeIndex slot.sockets, 1) }
    queues := c.queues ++ [UdpQueue.new]
    bufferBytes := c.bufferBytes + c.udpCharge slot }

/-- A session of a destination whose socket `h` is in use `n` times. -/
def Core.joinUdp (c : Core S) (key : SessionKey) (h : SocketHandle) (n : ℕ) (now : Instant) :
    Core S :=
  { c with
    manager := { c.manager with
      udp := c.manager.udp.insert key ⟨h, c.queues.length, now⟩
      udpDstSockets := c.manager.udpDstSockets.replace (dstOf key) (h, n + 1) }
    queues := c.queues ++ [UdpQueue.new] }

/-- An entry is gone, others still using the socket. -/
def Core.leaveUdp (c : Core S) (key : SessionKey) (e : UdpEntry) (h : SocketHandle) (n : ℕ) :
    Core S :=
  { c with
    manager := { c.manager with
      udp := c.manager.udp.erase key
      udpDstSockets := c.manager.udpDstSockets.replace (dstOf key) (h, n - 1) }
    queues := c.queues.modify e.queue UdpQueue.markClosed }

/-- The last entry of a socket is gone, and the socket with it. -/
def Core.closeUdp (c : Core S) (slot : InterfaceSlot S) (key : SessionKey) (e : UdpEntry) :
    Core S :=
  { c.setSlot (slot.withoutSocket e.socket) with
    manager := { c.manager with
      udp := c.manager.udp.erase key
      udpDstSockets := c.manager.udpDstSockets.erase (dstOf key) }
    queues := c.queues.modify e.queue UdpQueue.markClosed }

namespace Core

theorem map_closed_markClosed (qs : Queues) (q : QueueRef) :
    (qs.modify q UdpQueue.markClosed).map (·.closed) = (qs.map (·.closed)).set q true := by
  apply List.ext_getElem?
  intro i
  rw [List.getElem?_map, List.getElem?_modify, List.getElem?_set]
  by_cases hq : q = i
  · subst hq
    by_cases hlt : q < qs.length
    · simp [hlt, UdpQueue.markClosed]
    · simp [hlt]
  · simp [hq]

variable {c : Core S} {slot : InterfaceSlot S} {key : SessionKey} {streams : List WayTcpStream}
  {sessions : List WayUdpSession} {e : UdpEntry} {h : SocketHandle} {n : ℕ}

theorem Registered.openUdpNew (hS : S.Lawful) (hr : c.Registered streams sessions)
    (hs : c.slot slot.id = some slot) (hid : key.interface = slot.id)
    (hnew : c.manager.udp.lookup key = none)
    (hfresh : c.manager.udpDstSockets.lookup (dstOf key) = none) (u : S.Udp) (now : Instant) :
    World.Evolves ⟨c, streams, sessions⟩ ⟨c.openUdpNew slot key u now, streams,
      sessions ++ [sessionOf key (S.freeIndex slot.sockets) c.queues.length]⟩ := by
  have hfree := protoAt_freeIndex hS hs
  have hw := has_insert (c.openUdpNew slot key u now) hfree
    (protoAt_withSocket hS hs (slot.withSocket (.udp u)) rfl rfl)
  have ht : (c.openUdpNew slot key u now).tcpBook streams = c.tcpBook streams := by
    unfold tcpBook
    congr 1
    funext i h'
    rw [hw]
    simp [Socket.proto]
  have hshape : (c.openUdpNew slot key u now).Shaped :=
    (hr.shaped.setSlot (slot.withSocket (.udp u)) hs rfl).congr rfl rfl
  have hnot : ¬(c.udpBook sessions).has key.interface (S.freeIndex slot.sockets) := by
    simp [udpBook, hid, hfree]
  have hstep : UdpBook.Step (c.udpBook sessions) ((c.openUdpNew slot key u now).udpBook
      (sessions ++ [sessionOf key (S.freeIndex slot.sockets) c.queues.length])) := by
    convert UdpBook.Step.opened hnot hnew hfresh using 1
    unfold udpBook Core.openUdpNew
    simp only [UdpBook.mk.injEq, List.length_map, List.map_append, and_true]
    refine ⟨?_, rfl, trivial, rfl⟩
    funext i h'
    rw [hid]
    exact propext ((hw .udp i h').trans (by simp [Socket.proto]))
  exact ⟨hshape, ht ▸ .refl, .single hstep⟩

theorem Registered.joinUdp (hr : c.Registered streams sessions)
    (hnew : c.manager.udp.lookup key = none)
    (hn : c.manager.udpDstSockets.lookup (dstOf key) = some (h, n)) (now : Instant) :
    World.Evolves ⟨c, streams, sessions⟩
      ⟨c.joinUdp key h n now, streams, sessions ++ [sessionOf key h c.queues.length]⟩ := by
  have hstep : UdpBook.Step (c.udpBook sessions)
      ((c.joinUdp key h n now).udpBook (sessions ++ [sessionOf key h c.queues.length])) := by
    convert UdpBook.Step.joined (b := c.udpBook sessions) hnew hn using 1
    unfold udpBook Core.joinUdp
    simp only [UdpBook.mk.injEq, List.length_map, List.map_append, and_true]
    exact ⟨rfl, rfl, trivial, rfl⟩
  exact ⟨hr.shaped.congr rfl rfl, .refl, .single hstep⟩

theorem Registered.leaveUdp (hr : c.Registered streams sessions)
    (he : c.manager.udp.lookup key = some e)
    (hn : c.manager.udpDstSockets.lookup (dstOf key) = some (h, n)) (hmore : n - 1 ≠ 0) :
    World.Evolves ⟨c, streams, sessions⟩ ⟨c.leaveUdp key e h n, streams, sessions⟩ := by
  have hstep : UdpBook.Step (c.udpBook sessions) ((c.leaveUdp key e h n).udpBook sessions) := by
    convert UdpBook.Step.left (b := c.udpBook sessions) he hn hmore using 1
    unfold udpBook Core.leaveUdp
    simp only [UdpBook.mk.injEq, map_closed_markClosed, and_true]
    rfl
  exact ⟨hr.shaped.congr rfl rfl, .refl, .single hstep⟩

theorem Registered.closeUdp (hr : c.Registered streams sessions)
    (hs : c.slot slot.id = some slot) (hid : key.interface = slot.id)
    (he : c.manager.udp.lookup key = some e)
    (hn : c.manager.udpDstSockets.lookup (dstOf key) = some (h, n)) (hlast : n - 1 = 0) :
    World.Evolves ⟨c, streams, sessions⟩ ⟨c.closeUdp slot key e, streams, sessions⟩ := by
  have hp : c.protoAt slot.id e.socket = some .udp := hid ▸ hr.udp.entry_named he
  have hw := has_remove (c.closeUdp slot key e) hp
    (protoAt_withoutSocket hs (slot.withoutSocket e.socket) rfl rfl)
  have ht : (c.closeUdp slot key e).tcpBook streams = c.tcpBook streams := by
    unfold tcpBook
    congr 1
    funext i h'
    rw [hw]
    simp
  have hshape : (c.closeUdp slot key e).Shaped :=
    (hr.shaped.setSlot (slot.withoutSocket e.socket) hs rfl).congr rfl rfl
  have hstep : UdpBook.Step (c.udpBook sessions) ((c.closeUdp slot key e).udpBook sessions) := by
    convert UdpBook.Step.leftLast (b := c.udpBook sessions) he hn hlast using 1
    unfold udpBook Core.closeUdp
    simp only [UdpBook.mk.injEq, map_closed_markClosed, and_true]
    funext i h'
    rw [hid]
    exact propext ((hw .udp i h').trans (by simp))
  exact ⟨hshape, ht ▸ .refl, .single hstep⟩

end Core

end WayNetstack

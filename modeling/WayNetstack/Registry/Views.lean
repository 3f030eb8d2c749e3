import WayNetstack.Registry.Outcome

/-!
# What a core holds for one interface

The interfaces of a stack share one registry. The view of an interface (`Core.view`) is what
belongs to it alone: its slot, the entries under its keys, the shared sockets of its
destinations, and each of its UDP sessions with its queue, wherever on the heap that is.

What the post-pass does for an interface is known by the view of it: cores with the same view
come out with the same view, but for the sockets that the pool has taken, which are the same
up to their order as long as there is room (**`PostPass.Outcome.view_congr`**,
`PostPass.Outcome.pool`, `Core.socketsOf_perm`).
-/

namespace WayNetstack

open Lib Lib.Table SessionManager

variable {S : Smoltcp}

/-! ### Views -/

/-- What a session key says besides the interface. -/
structure Flow where
  proto : Proto
  src : IpEndpoint
  dst : IpEndpoint
  deriving DecidableEq

/-- The key of a flow on an interface. -/
def Flow.on (f : Flow) (id : InterfaceId) : SessionKey := ⟨id, f.proto, f.src, f.dst⟩

/-- The flow of a session. -/
def SessionKey.flow (k : SessionKey) : Flow := ⟨k.proto, k.src, k.dst⟩

theorem Flow.on_eq_iff {f : Flow} {id : InterfaceId} {k : SessionKey} :
    f.on id = k ↔ id = k.interface ∧ f = k.flow := by
  constructor
  · rintro rfl
    exact ⟨rfl, rfl⟩
  · rintro ⟨rfl, rfl⟩
    rfl

/-- A UDP session with its queue. -/
structure UdpView where
  socket : SocketHandle
  lastActivity : Instant
  queue : Option UdpQueue
  deriving DecidableEq

/-- What belongs to one interface. -/
@[ext]
structure InterfaceView (S : Smoltcp) where
  slot : Option (InterfaceSlot S)
  tcp : Flow → Option TcpEntry
  udp : Flow → Option UdpView
  shared : IpEndpoint → Option (SocketHandle × ℕ)

/-- The view, whatever the pool holds. -/
def InterfaceView.withoutPool (v : InterfaceView S) : InterfaceView S :=
  { v with slot := v.slot.map (·.withPool []) }

namespace Core

/-- The session of an entry. -/
def udpView (c : Core S) (e : UdpEntry) : UdpView := ⟨e.socket, e.lastActivity, c.queues[e.queue]?⟩

/-- What the core holds for an interface. -/
def view (c : Core S) (id : InterfaceId) : InterfaceView S where
  slot := c.slot id
  tcp f := c.manager.tcp.lookup (f.on id)
  udp f := (c.manager.udp.lookup (f.on id)).map c.udpView
  shared ep := c.manager.udpDstSockets.lookup (id, ep)

variable {c c' : Core S} {id : InterfaceId} {k : SessionKey}

theorem slot_of_view (h : c.view id = c'.view id) : c.slot id = c'.slot id := congrArg InterfaceView.slot h

theorem socketAt_of_view (h : c.view id = c'.view id) : c.socketAt id = c'.socketAt id := by
  funext hd
  unfold socketAt
  rw [slot_of_view h]

theorem tcp_of_view (h : c.view k.interface = c'.view k.interface) :
    c.manager.tcp.lookup k = c'.manager.tcp.lookup k :=
  congrFun (congrArg InterfaceView.tcp h) k.flow

theorem udp_of_view (h : c.view k.interface = c'.view k.interface) :
    (c.manager.udp.lookup k).map c.udpView = (c'.manager.udp.lookup k).map c'.udpView :=
  congrFun (congrArg InterfaceView.udp h) k.flow

theorem shared_of_view (h : c.view id = c'.view id) (ep : IpEndpoint) :
    c.manager.udpDstSockets.lookup (id, ep) = c'.manager.udpDstSockets.lookup (id, ep) :=
  congrFun (congrArg InterfaceView.shared h) ep

/-! ### What the view determines -/

theorem tcpStateOf_of_view (h : c.view k.interface = c'.view k.interface) (e : TcpEntry) :
    c.tcpStateOf k e = c'.tcpStateOf k e := by
  unfold tcpStateOf
  rw [socketAt_of_view h]

theorem mem_reapable_of_view (h : c.view k.interface = c'.view k.interface) :
    k ∈ c.reapable ↔ k ∈ c'.reapable := by
  rw [mem_reapable, mem_reapable, tcp_of_view h]
  simp only [tcpStateOf_of_view h]

theorem heldFor_of_view (h : c.view k.interface = c'.view k.interface) : c.heldFor k = c'.heldFor k :=
  heldFor_congr (shared_of_view h k.dst) fun hd _ _ => congrFun (socketAt_of_view h) hd

/-- The sockets to be reaped on an interface are known up to their order. -/
theorem socketsOf_perm (h : c.view id = c'.view id) :
    (c.socketsOf c.reapable id).Perm (c'.socketsOf c'.reapable id) := by
  have hkeys : (c.reapable.filter fun k => decide (k.interface = id)).Perm
      (c'.reapable.filter fun k => decide (k.interface = id)) := by
    refine (List.perm_ext_iff_of_nodup (c.nodup_reapable.filter _) (c'.nodup_reapable.filter _)).mpr
      fun k => ?_
    rw [List.mem_filter, List.mem_filter, decide_eq_true_eq]
    constructor
    · rintro ⟨hk, rfl⟩
      exact ⟨(mem_reapable_of_view h).mp hk, rfl⟩
    · rintro ⟨hk, rfl⟩
      exact ⟨(mem_reapable_of_view h).mpr hk, rfl⟩
  have hsame : c'.socketsOf c.reapable id = c.socketsOf c.reapable id := by
    refine socketsOf_congr (fun k _ hk => ?_) (socketAt_of_view h).symm
    subst hk
    rw [tcp_of_view h]
  rw [← hsame]
  exact hkeys.filterMap _

end Core

/-- Another order of the tables is the same view of every interface. -/
theorem Core.view_rehash {c : Core S} {m : SessionManager} (hm : c.manager.Rehashed m) (id : InterfaceId) :
    c.view id = { c with manager := m }.view id := by
  refine InterfaceView.ext rfl ?_ ?_ ?_
  · exact funext fun f => hm.tcp.lookup _
  · exact funext fun f => congrArg (Option.map c.udpView) (hm.udp.lookup _)
  · exact funext fun ep => hm.udpDstSockets.lookup _

/-! ### The post-pass -/

section PostPass

variable {c c' : Core S} {now : Instant} {p p' : PostPass S} {id : InterfaceId}
  {streams streams' : List WayTcpStream} {sessions sessions' : List WayUdpSession}

/-- An entry that stays keeps its socket and its queue. -/
theorem Core.settled_keeps {k : SessionKey} {e e' : UdpEntry} (h : c.settled now k e = some e') :
    e'.socket = e.socket ∧ e'.queue = e.queue := by
  unfold settled at h
  dsimp only at h
  split_ifs at h <;> cases h <;> exact ⟨rfl, rfl⟩

/-- No interface comes. -/
theorem PostPass.Outcome.slot_none (h : PostPass.Outcome c now p) (hs : c.slot id = none) :
    p.core.slot id = none := by
  rw [Option.eq_none_iff_forall_ne_some]
  intro slot hslot
  obtain ⟨slot₀, hs₀⟩ := Core.exists_slot.mpr (h.ids ▸ Core.exists_slot.mp ⟨slot, hslot⟩)
  cases hs.symm.trans hs₀

/-- What becomes of the session of an entry. -/
theorem PostPass.Outcome.udpView (h : PostPass.Outcome c now p) {k : SessionKey} {e : UdpEntry}
    (he : c.manager.udp.lookup k = some e) : (p.core.manager.udp.lookup k).map p.core.udpView =
      (c.settled now k e).map fun e' => ⟨e.socket, e'.lastActivity,
        (c.queues[e.queue]?).map fun q => ⟨q.inner ++ c.heldFor k, q.closed⟩⟩ := by
  rw [h.udp, he, Option.bind_some]
  cases hset : c.settled now k e with
  | none => rfl
  | some e' =>
    obtain ⟨hsocket, hq⟩ := Core.settled_keeps hset
    have hqueue := h.queue he
    rw [hset] at hqueue
    simp only [Option.map_some, Core.udpView, hsocket, hq, hqueue, Option.isNone_some, Bool.or_false]

/-- When an entry goes is known by its last activity and what is held for it. -/
theorem Core.settled_map (now : Instant) {k : SessionKey} {e e' : UdpEntry} (hheld : c.heldFor k = c'.heldFor k)
    (hconfig : c.config = c'.config) (hlast : e.lastActivity = e'.lastActivity) :
    (c.settled now k e).map (·.lastActivity) = (c'.settled now k e').map (·.lastActivity) := by
  unfold settled UdpEntry.expiredAt
  simp only [hheld, hconfig]
  by_cases hnil : c'.heldFor k = []
  · simp only [hnil, if_true, hlast]
    split <;> simp [hlast]
  · simp only [hnil, if_false]
    split <;> rfl

theorem PostPass.Outcome.tcp_congr (h : PostPass.Outcome c now p) (h' : PostPass.Outcome c' now p')
    {k : SessionKey} (hv : c.view k.interface = c'.view k.interface) :
    p.core.manager.tcp.lookup k = p'.core.manager.tcp.lookup k := by
  rw [h.tcp, h'.tcp, Core.tcp_of_view hv]
  simp only [Core.mem_reapable_of_view hv, Core.tcpStateOf_of_view hv]

theorem PostPass.Outcome.udp_congr (h : PostPass.Outcome c now p) (h' : PostPass.Outcome c' now p')
    {k : SessionKey} (hconfig : c.config = c'.config) (hv : c.view k.interface = c'.view k.interface) :
    (p.core.manager.udp.lookup k).map p.core.udpView =
      (p'.core.manager.udp.lookup k).map p'.core.udpView := by
  have hudp := Core.udp_of_view hv
  cases he : c.manager.udp.lookup k with
  | none =>
    rw [he, Option.map_none, eq_comm, Option.map_eq_none_iff] at hudp
    rw [h.udp, h'.udp, he, hudp]
    rfl
  | some e =>
    rw [he, Option.map_some, eq_comm, Option.map_eq_some_iff] at hudp
    obtain ⟨e', he', heq⟩ := hudp
    obtain ⟨hsocket, hlast, hqueue⟩ := UdpView.mk.inj heq
    have hset := Core.settled_map now (Core.heldFor_of_view hv) hconfig hlast.symm
    have hmap : ∀ (d : Core S) (e : UdpEntry) (r : Option UdpQueue),
        ((d.settled now k e).map fun e' => (⟨e.socket, e'.lastActivity, r⟩ : UdpView)) =
          ((d.settled now k e).map (·.lastActivity)).map fun t => ⟨e.socket, t, r⟩ := by
      intro d e r
      rw [Option.map_map]
      rfl
    rw [h.udpView he, h'.udpView he', hmap c, hmap c', hset, hsocket, hqueue, Core.heldFor_of_view hv]

/-- Which sockets are shared is known by the sessions. -/
theorem shared_congr (hr : p.core.Registered streams sessions) (hr' : p'.core.Registered streams' sessions')
    (hudp : ∀ k : SessionKey, k.interface = id → (p.core.manager.udp.lookup k).map p.core.udpView =
      (p'.core.manager.udp.lookup k).map p'.core.udpView) (ep : IpEndpoint) :
    p.core.manager.udpDstSockets.lookup (id, ep) = p'.core.manager.udpDstSockets.lookup (id, ep) := by
  refine hr.udp.counted.lookup_congr hr'.udp.counted fun k hk => ?_
  have hmap := congrArg (Option.map UdpView.socket) (hudp k (Prod.mk.inj hk).1)
  rw [Option.map_map, Option.map_map] at hmap
  exact hmap

/-- A cell of a core in order is in use when an entry names it. -/
theorem Core.Registered.used_iff {c : Core S} (hr : c.Registered streams sessions) {h : SocketHandle} :
    (c.socketAt id h).isSome ↔
      (∃ k e, c.manager.tcp.lookup k = some e ∧ k.interface = id ∧ e.handle = h) ∨
      ∃ ep n, c.manager.udpDstSockets.lookup (id, ep) = some (h, n) := by
  constructor
  · intro hsome
    obtain ⟨s, hs⟩ := Option.isSome_iff_exists.mp hsome
    have hproto : c.protoAt id h = some s.proto := by rw [Core.protoAt, hs]; rfl
    cases s with
    | tcp t => exact .inl (hr.tcp.owned hproto)
    | udp u => exact .inr (hr.udp.owned hproto)
  · intro hused
    have hproto : ∃ proto, c.protoAt id h = some proto := by
      rcases hused with ⟨k, e, he, rfl, rfl⟩ | ⟨ep, n, hn⟩
      · exact ⟨_, hr.tcp.named he⟩
      · exact ⟨_, hr.udp.named hn⟩
    obtain ⟨proto, hproto⟩ := hproto
    obtain ⟨s, hs, -⟩ := Option.map_eq_some_iff.mp hproto
    rw [hs]
    rfl

/-- **The post-pass keeps interfaces apart**: what it makes of an interface, but for the
order in which the pool takes the sockets reaped, is known by the view of it. -/
theorem PostPass.Outcome.view_congr (h : PostPass.Outcome c now p) (h' : PostPass.Outcome c' now p')
    (hr : p.core.Registered streams sessions) (hr' : p'.core.Registered streams' sessions')
    (hconfig : c.config = c'.config) (hv : c.view id = c'.view id) :
    (p.core.view id).withoutPool = (p'.core.view id).withoutPool := by
  have htcp : ∀ k : SessionKey, k.interface = id →
      p.core.manager.tcp.lookup k = p'.core.manager.tcp.lookup k := by
    rintro k rfl
    exact h.tcp_congr h' hv
  have hudp : ∀ k : SessionKey, k.interface = id → (p.core.manager.udp.lookup k).map p.core.udpView =
      (p'.core.manager.udp.lookup k).map p'.core.udpView := by
    rintro k rfl
    exact h.udp_congr h' hconfig hv
  have hshared := shared_congr hr hr' hudp
  have hused : ∀ hd, (p.core.socketAt id hd).isSome ↔ (p'.core.socketAt id hd).isSome := by
    intro hd
    rw [hr.used_iff, hr'.used_iff]
    simp only [hshared]
    refine or_congr_left ⟨?_, ?_⟩
    · rintro ⟨k, e, he, hk, hh⟩
      exact ⟨k, e, htcp k hk ▸ he, hk, hh⟩
    · rintro ⟨k, e, he, hk, hh⟩
      exact ⟨k, e, (htcp k hk).symm ▸ he, hk, hh⟩
  have hslot : (p.core.slot id).map (·.withPool []) = (p'.core.slot id).map (·.withPool []) := by
    cases hs : c.slot id with
    | none => rw [h.slot_none hs, h'.slot_none (Core.slot_of_view hv ▸ hs)]
    | some slot =>
      obtain ⟨slot₁, hs₁, hframe, hthin⟩ := h.slot id slot hs
      obtain ⟨slot₂, hs₂, hframe', hthin'⟩ := h'.slot id slot (Core.slot_of_view hv ▸ hs)
      have hsockets : slot₁.sockets = slot₂.sockets := by
        refine hthin.unique hthin' fun hd => ?_
        have := hused hd
        rwa [Core.socketAt, Core.socketAt, hs₁, hs₂] at this
      rw [hs₁, hs₂, Option.map_some, Option.map_some, hframe, hframe', hsockets]
      rfl
  refine InterfaceView.ext hslot ?_ ?_ ?_
  · exact funext fun f => htcp (f.on id) rfl
  · exact funext fun f => hudp (f.on id) rfl
  · exact funext hshared

/-- What the pool is once the post-pass is through. -/
theorem PostPass.Outcome.pool (h : PostPass.Outcome c now p) (id : InterfaceId) :
    (p.core.slot id).map (·.tcpPool) = (c.slot id).map fun slot => slot.tcpPool ++
      (c.socketsOf c.reapable id).take (slot.tcpPoolMax - slot.tcpPool.length) := by
  cases hs : c.slot id with
  | none => rw [h.slot_none hs, Option.map_none, Option.map_none]
  | some slot =>
    obtain ⟨slot', hs', hframe, -⟩ := h.slot id slot hs
    rw [hs', Option.map_some, Option.map_some, hframe, Core.id_of_slot hs]

/-- The pools are as long, whichever sockets they have taken. -/
theorem PostPass.Outcome.pool_length (h : PostPass.Outcome c now p) (h' : PostPass.Outcome c' now p')
    (hv : c.view id = c'.view id) :
    (p.core.slot id).map (·.tcpPool.length) = (p'.core.slot id).map (·.tcpPool.length) := by
  have hlen : ∀ d : Core S, (d.slot id).map (·.tcpPool.length) =
      ((d.slot id).map (·.tcpPool)).map List.length := fun d => (Option.map_map _ _ _).symm
  rw [hlen, hlen, h.pool, h'.pool, Core.slot_of_view hv, Option.map_map, Option.map_map]
  congr 1
  funext slot
  simp only [Function.comp_apply, List.length_append, List.length_take, (Core.socketsOf_perm hv).length_eq]

end PostPass

end WayNetstack

import WayNetstack.Registry.Runs

/-!
# TCP connections

A TCP entry and its socket belong together: `Core.conn` gives, for a key, the entry
under it and the socket the entry's handle names. This module says what every step
of a run does to the connection of each key:

* the pre-pass opens connections (`Fresh`) and leaves the others alone;
* a poll changes sockets only;
* the post-pass settles each connection on its own (`settle`): it is reaped, or its
  entry advances;
* the application uses the connection through its stream (`Use`).

All else — UDP, queues, devices, the budget — leaves every connection as it is
(`Core.SameTcp`). Arguments about TCP are then about one connection at a time.
-/

namespace WayNetstack

open Lib Lib.Table SessionManager Relation

variable {S : Smoltcp}

/-- An entry with its socket. -/
abbrev Conn (S : Smoltcp) := TcpEntry × S.Tcp

/-- The connection of a key. -/
def Core.conn (c : Core S) (k : SessionKey) : Option (Conn S) :=
  (c.manager.tcp.lookup k).bind fun e =>
    ((c.socketAt k.interface e.handle).bind Socket.tcp?).map fun t => (e, t)

namespace Core

variable {c c' : Core S} {k : SessionKey} {e : TcpEntry} {t : S.Tcp} {streams : List WayTcpStream}
  {sessions : List WayUdpSession}

theorem bind_tcp?_eq_some {o : Option S.Socket} : o.bind Socket.tcp? = some t ↔ o = some (.tcp t) := by
  cases o with
  | none => simp
  | some s => cases s <;> simp [Socket.tcp?]

theorem conn_eq_some : c.conn k = some (e, t) ↔
    c.manager.tcp.lookup k = some e ∧ c.socketAt k.interface e.handle = some (.tcp t) := by
  unfold conn
  rw [Option.bind_eq_some_iff]
  constructor
  · rintro ⟨e', he', h⟩
    obtain ⟨t', ht', heq⟩ := Option.map_eq_some_iff.mp h
    cases heq
    exact ⟨he', bind_tcp?_eq_some.mp ht'⟩
  · rintro ⟨he, ht⟩
    exact ⟨e, he, by rw [bind_tcp?_eq_some.mpr ht, Option.map_some]⟩

theorem conn_of_lookup (he : c.manager.tcp.lookup k = some e) :
    c.conn k = ((c.socketAt k.interface e.handle).bind Socket.tcp?).map fun t => (e, t) := by
  rw [conn, he, Option.bind_some]

/-- In a core in order every entry has its socket. -/
theorem Registered.exists_conn (hr : c.Registered streams sessions)
    (he : c.manager.tcp.lookup k = some e) : ∃ t, c.conn k = some (e, t) := by
  obtain ⟨slot, t, hs, hget, -⟩ := hr.tcp_socket he
  refine ⟨t, conn_eq_some.mpr ⟨he, ?_⟩⟩
  simp [socketAt, hs, hget]

theorem Registered.conn_eq_none (hr : c.Registered streams sessions) :
    c.conn k = none ↔ c.manager.tcp.lookup k = none := by
  constructor
  · intro h
    cases he : c.manager.tcp.lookup k with
    | none => rfl
    | some e =>
      obtain ⟨t, ht⟩ := hr.exists_conn he
      rw [h] at ht
      cases ht
  · intro h
    simp [conn, h]

theorem tcpStateOf_conn (h : c.conn k = some (e, t)) : c.tcpStateOf k e = S.tcpState t := by
  simp [tcpStateOf, (conn_eq_some.mp h).2]

/-- Two connections with one handle are the same. -/
theorem Registered.key_inj (hr : c.Registered streams sessions) {k' : SessionKey} {e' : TcpEntry}
    (he : c.manager.tcp.lookup k = some e) (he' : c.manager.tcp.lookup k' = some e')
    (hi : k.interface = k'.interface) (hh : e.handle = e'.handle) : k = k' :=
  hr.tcp.inj he he' hi hh

/-! ### Changes that leave the connections alone -/

/-- Neither the TCP entries nor the TCP sockets change. -/
structure SameTcp (c c' : Core S) : Prop where
  entries : c'.manager.tcp = c.manager.tcp
  sockets : ∀ i h t, c'.socketAt i h = some (.tcp t) ↔ c.socketAt i h = some (.tcp t)

namespace SameTcp

theorem conn (h : SameTcp c c') (k : SessionKey) : c'.conn k = c.conn k := by
  ext ⟨e, t⟩
  rw [conn_eq_some, conn_eq_some, h.entries, h.sockets]

theorem refl (c : Core S) : SameTcp c c := ⟨rfl, fun _ _ _ => Iff.rfl⟩

theorem trans {c'' : Core S} (h : SameTcp c c') (h' : SameTcp c' c'') : SameTcp c c'' :=
  ⟨h'.entries.trans h.entries, fun i hd t => (h'.sockets i hd t).trans (h.sockets i hd t)⟩

/-- A change of none of the sockets. -/
theorem of_eq (hm : c'.manager.tcp = c.manager.tcp) (hs : c'.socketAt = c.socketAt) :
    SameTcp c c' :=
  ⟨hm, fun i h t => by rw [hs]⟩

/-- A cell that holds no TCP socket is given something that is none. -/
theorem write {slot : InterfaceSlot S} {h : SocketHandle} {o : Option S.Socket}
    (hs : c.slot slot.id = some slot) (slot' : InterfaceSlot S) (hid : slot'.id = slot.id)
    (hget : ∀ hd, slot'.sockets.get? hd = if hd = h then o else slot.sockets.get? hd)
    (hold : (slot.sockets.get? h).bind Socket.tcp? = none) (hnew : o.bind Socket.tcp? = none)
    (hm : c'.manager.tcp = c.manager.tcp) (hc : c'.slots = (c.setSlot slot').slots) :
    SameTcp c c' := by
  refine ⟨hm, fun i hd t => ?_⟩
  rw [socketAt_congr hc, socketAt_write hs slot' hid hget]
  split
  · next heq =>
    -- neither the old nor the new content of the cell is a TCP socket
    rw [heq.1, heq.2, socketAt_of_slot hs, ← bind_tcp?_eq_some, ← bind_tcp?_eq_some, hold, hnew]
  · rfl

end SameTcp

end Core

section Frames

open WayNetstack.Core

variable {c c' : Core S} {slot : InterfaceSlot S}

theorem DrainUdp.sameTcp (h : DrainUdp c c') : SameTcp c c' := by
  cases h with
  | @drain slot h u u' hs hget hrx htx hcap =>
    exact .write hs (slot.putSocket h (.udp u')) rfl (Slab.get?_put hget _) (by simp [hget, Socket.tcp?])
      rfl rfl rfl

theorem RouteUdp.sameTcp {now : Instant} (h : RouteUdp now c c') : SameTcp c c' := by
  cases h with
  | push he => exact .of_eq rfl (socketAt_congr rfl)

theorem EndUdp.sameTcp {st st' : Core S × ℕ} (h : EndUdp st st') : SameTcp st.1 st'.1 := by
  cases h with
  | leave he hn more => exact .of_eq rfl (socketAt_congr rfl)
  | @close c m slot key e h n u hs hid he hn last hget =>
    exact .write hs (slot.withoutSocket e.socket) rfl (Slab.get?_remove _ _)
      (by simp [hget, Socket.tcp?]) rfl rfl rfl

theorem SendUdp.sameTcp {ses : WayUdpSession} {payload : Bytes} {r : Core S × SendOutcome}
    (h : SendUdp ses payload c r) : SameTcp c r.1 := by
  cases h with
  | refused => exact .refl c
  | @sent slot u u' e hs hid hget he hsock hsend =>
    exact .write hs (slot.putSocket ses.socket (.udp u')) rfl (Slab.get?_put hget _)
      (by simp [hget, Socket.tcp?]) rfl rfl rfl

theorem DropUdp.sameTcp {ses : WayUdpSession} (h : DropUdp ses c c') : SameTcp c c' := by
  cases h with
  | gone hnone => exact .refl c
  | ended hstep hlook => exact hstep.sameTcp.trans (.of_eq rfl (socketAt_congr rfl))

/-- A slot is written back with its sockets as they were. -/
theorem Core.SameTcp.setSlot (hs : c.slot slot.id = some slot) (slot' : InterfaceSlot S)
    (hid : slot'.id = slot.id) (hsock : slot'.sockets = slot.sockets) : SameTcp c (c.setSlot slot') := by
  refine .of_eq rfl (funext fun i => funext fun h => ?_)
  have hs' : c.slot slot'.id = some slot := by rw [hid, hs]
  rw [socketAt_setSlot hs', hid, hsock]
  split
  · next heq => rw [heq, socketAt_of_slot hs]
  · rfl

theorem Core.SameTcp.drainEgress (c : Core S) : SameTcp c c.drainEgress.1 :=
  .of_eq rfl c.socketAt_drainEgress

end Frames

/-! ### Changes of one connection -/

namespace Core

variable {c c' : Core S} {slot : InterfaceSlot S} {k k' : SessionKey} {e e' : TcpEntry}
  {streams : List WayTcpStream} {sessions : List WayUdpSession}

/-- The connection of one key is replaced. -/
theorem Registered.conn_replace (hr : c.Registered streams sessions)
    (he : c.manager.tcp.lookup k = some e) (hh : e'.handle = e.handle) {t' : S.Tcp}
    (hsock : ∀ i h, c'.socketAt i h =
      if i = k.interface ∧ h = e.handle then some (.tcp t') else c.socketAt i h)
    (hlook : ∀ k', c'.manager.tcp.lookup k' = if k' = k then some e' else c.manager.tcp.lookup k')
    (k' : SessionKey) : c'.conn k' = if k' = k then some (e', t') else c.conn k' := by
  by_cases hk : k' = k
  · subst hk
    rw [if_pos rfl, conn_eq_some, hlook, if_pos rfl, hsock, hh, if_pos ⟨rfl, rfl⟩]
    exact ⟨rfl, rfl⟩
  · rw [if_neg hk]
    ext ⟨e₁, t₁⟩
    simp only [conn_eq_some, hlook, if_neg hk]
    refine and_congr_right fun he₁ => ?_
    -- the written cell belongs to `k`, so it is not that of another entry
    rw [hsock, if_neg fun ⟨hi, hd⟩ => hk (hr.key_inj he₁ he hi hd)]

/-- The connection of a new key is opened in a free cell. -/
theorem Registered.conn_insert (hr : c.Registered streams sessions)
    (hfree : c.protoAt k.interface e.handle = none) {t : S.Tcp}
    (hsock : ∀ i h, c'.socketAt i h =
      if i = k.interface ∧ h = e.handle then some (.tcp t) else c.socketAt i h)
    (hlook : ∀ k', c'.manager.tcp.lookup k' = if k' = k then some e else c.manager.tcp.lookup k')
    (k' : SessionKey) : c'.conn k' = if k' = k then some (e, t) else c.conn k' := by
  by_cases hk : k' = k
  · subst hk
    rw [if_pos rfl, conn_eq_some, hlook, if_pos rfl, hsock, if_pos ⟨rfl, rfl⟩]
    exact ⟨rfl, rfl⟩
  · rw [if_neg hk]
    ext ⟨e₁, t₁⟩
    simp only [conn_eq_some, hlook, if_neg hk]
    refine and_congr_right fun he₁ => ?_
    have hnamed : c.protoAt k'.interface e₁.handle = some .tcp := hr.tcp.named he₁
    rw [hsock, if_neg]
    rintro ⟨hi, hd⟩
    rw [hi, hd, hfree] at hnamed
    cases hnamed

/-- The connection of a key is removed. -/
theorem Registered.conn_erase (hr : c.Registered streams sessions)
    (he : c.manager.tcp.lookup k = some e)
    (hsock : ∀ i h, c'.socketAt i h =
      if i = k.interface ∧ h = e.handle then none else c.socketAt i h)
    (hlook : ∀ k', c'.manager.tcp.lookup k' = if k' = k then none else c.manager.tcp.lookup k')
    (k' : SessionKey) : c'.conn k' = if k' = k then none else c.conn k' := by
  by_cases hk : k' = k
  · subst hk
    simp [conn, hlook]
  · rw [if_neg hk]
    ext ⟨e₁, t₁⟩
    simp only [conn_eq_some, hlook, if_neg hk]
    refine and_congr_right fun he₁ => ?_
    rw [hsock, if_neg fun ⟨hi, hd⟩ => hk (hr.key_inj he₁ he hi hd)]

end Core

/-! ### The pre-pass -/

/-- A connection the pre-pass has opened for a SYN queued on its interface. -/
structure Fresh (queued : InterfaceId → Bytes → Prop) (k : SessionKey) (p : Conn S) : Prop where
  pending : p.1.state = .pending
  owned : p.1.orphaned = false
  listening : S.tcpState p.2 = .listen
  unconnected : S.tcpTuple p.2 = none
  syn : ∃ pkt, queued k.interface pkt ∧ parseL4 S pkt = some (k.src, k.dst, .tcp true)

section PrePass

open WayNetstack.Core

variable {now : Instant} {queued : InterfaceId → Bytes → Prop} {st st' : Core S × List Session}
  {streams : List WayTcpStream} {sessions : List WayUdpSession}

/-- A visit of the pre-pass opens at most one connection. -/
theorem Admit.conn (hS : S.Lawful) (h : Admit now queued st st')
    (hr : st.1.Registered streams sessions) (k : SessionKey) : st'.1.conn k = st.1.conn k ∨
      st.1.conn k = none ∧ ∃ p, st'.1.conn k = some p ∧ Fresh queued k p := by
  cases h with
  | @device c acc slot hs d => exact .inl ((SameTcp.setSlot hs { slot with device := d } rfl rfl).conn k)
  | @spoil c acc slot hs => exact .inl ((SameTcp.setSlot hs (slot.withPool slot.tcpPool.tail) rfl rfl).conn k)
  | leak hb ha => exact .inl ((SameTcp.of_eq rfl (socketAt_congr rfl)).conn k)
  | @tcp c acc slot key pkt t hs hid hq hp new room ha hl =>
    have hsock : ∀ i h, (c.openTcp slot key t).socketAt i h =
        if i = key.interface ∧ h = S.freeIndex slot.sockets then some (.tcp t)
        else c.socketAt i h := by
      rw [hid]
      exact socketAt_write hs ((slot.withPool slot.tcpPool.tail).withSocket (.tcp t)) rfl
        (Slab.get?_insertAt (hS.freeIndex_free slot.sockets) _)
    have hfree := protoAt_freeIndex hS hs
    rw [← hid] at hfree
    have hconn := hr.conn_insert (e := ⟨S.freeIndex slot.sockets, .pending, false⟩) hfree hsock
      (fun k' => lookup_insert' _ _ _ _) k
    rw [hconn]
    split
    · next heq =>
      obtain ⟨hst, htup, -⟩ := hS.tcpListen_ok hl
      refine .inr ⟨?_, _, rfl, rfl, rfl, hst, htup, pkt, ?_, ?_⟩
      · rw [heq]
        exact hr.conn_eq_none.mpr new
      · rw [heq, hid]
        exact hq
      · rw [heq]
        exact hp
    · exact .inl rfl
  | @udpNew c acc slot key pkt u hs hid hq hp new room fresh ha hb =>
    have hsame : SameTcp c (c.openUdpNew slot key u now) :=
      .write hs (slot.withSocket (.udp u)) rfl (Slab.get?_insertAt (hS.freeIndex_free slot.sockets) _)
        (by simp [(hS.freeIndex_free slot.sockets).2]) rfl rfl rfl
    exact .inl (hsame.conn k)
  | udpJoin hs hid hq hp new room inUse => exact .inl ((SameTcp.of_eq rfl (socketAt_congr rfl)).conn k)

/-- The pre-pass opens connections and leaves the others alone. -/
theorem Admits.conn (hS : S.Lawful) (h : ReflTransGen (Admit now queued) st st')
    (hr : st.1.Registered streams (sessions ++ st.2.filterMap Session.session?)) (k : SessionKey) :
    st'.1.conn k = st.1.conn k ∨
      st.1.conn k = none ∧ ∃ p, st'.1.conn k = some p ∧ Fresh queued k p := by
  have key := run_keeps (R := Admit now queued) (P := fun x : Core S × List Session =>
      x.1.Registered streams (sessions ++ x.2.filterMap Session.session?) ∧
      (x.1.conn k = st.1.conn k ∨ st.1.conn k = none ∧ ∃ p, x.1.conn k = some p ∧ Fresh queued k p))
    (fun x y hstep hx => ?_) h ⟨hr, .inl rfl⟩
  · exact key.2
  refine ⟨hstep.registered hS hx.1, ?_⟩
  rcases hstep.conn hS hx.1 k with heq | ⟨hnone, hnew⟩
  · rw [heq]
    exact hx.2
  · rcases hx.2 with heq | ⟨-, p, hp, -⟩
    · exact .inr ⟨heq ▸ hnone, hnew⟩
    · rw [hnone] at hp
      cases hp

end PrePass

/-! ### The poll -/

namespace Core

variable {c : Core S} {polls : InterfaceId → List (PollEvent S)} {k : SessionKey} {e : TcpEntry}
  {t t' : S.Tcp} {streams : List WayTcpStream} {sessions : List WayUdpSession}

/-- A polled connection, before and after. -/
theorem conn_pollSlots (h : (c.pollSlots polls).conn k = some (e, t'))
    (hr : c.Registered streams sessions) : ∃ slot t, c.slot k.interface = some slot ∧
      c.conn k = some (e, t) ∧ slot.sockets.get? e.handle = some (.tcp t) ∧
      (slot.poll (polls k.interface)).sockets.get? e.handle = some (.tcp t') := by
  obtain ⟨he, hsock⟩ := conn_eq_some.mp h
  obtain ⟨slot, t, hs, hget, -⟩ := hr.tcp_socket he
  rw [socketAt_pollSlots hs] at hsock
  refine ⟨slot, t, hs, conn_eq_some.mpr ⟨he, ?_⟩, hget, hsock⟩
  simp [socketAt, hs, hget]

/-- `P` holds of every connection. -/
def Conns (P : SessionKey → Conn S → Prop) (c : Core S) : Prop := ∀ k p, c.conn k = some p → P k p

/-- What every lawful event keeps of a connection, lawful polls keep of all. -/
theorem Conns.poll {P : SessionKey → Conn S → Prop}
    {law : Core S → InterfaceSlot S → PollEvent S → Prop} (hr : c.Registered streams sessions)
    (hlaw : World.PollsObey law polls c)
    (keep : ∀ {k e t t' slot ev}, c.manager.tcp.lookup k = some e → slot.id = k.interface →
      law c slot ev → slot.tcpAt e.handle = some t → ev.touches = some (e.handle, .tcp t') →
        P k (e, t) → P k (e, t'))
    (h : c.Conns P) : (c.pollSlots polls).Conns P := by
  rintro k ⟨e, t'⟩ hp
  obtain ⟨slot, t, hs, hconn, hget, hget'⟩ := conn_pollSlots hp hr
  have hslot := hlaw slot (mem_of_slot hs)
  rw [id_of_slot hs] at hslot
  have key := hslot.keeps (P := fun s : InterfaceSlot S => s.id = k.interface ∧
      ∀ t, s.tcpAt e.handle = some t → P k (e, t))
    (fun s ev hev hs => ⟨by rw [InterfaceSlot.id_apply, hs.1], fun t' ht' => ?_⟩)
    ⟨id_of_slot hs, fun t₀ ht₀ => ?_⟩
  · exact key.2 t' (by rw [InterfaceSlot.tcpAt, hget']; rfl)
  · rcases InterfaceSlot.tcpAt_apply ht' with hsame | ⟨t, ht, htouch⟩
    · exact hs.2 t' hsame
    · exact keep (conn_eq_some.mp hconn).1 hs.1 hev ht htouch (hs.2 t ht)
  · rw [InterfaceSlot.tcpAt, hget] at ht₀
    cases ht₀
    exact h k (e, t) hconn

/-- A poll closes no connection. -/
theorem exists_conn_pollSlots (h : c.conn k = some (e, t)) (hr : c.Registered streams sessions)
    (polls : InterfaceId → List (PollEvent S)) : ∃ t', (c.pollSlots polls).conn k = some (e, t') :=
  (hr.pollSlots polls).exists_conn (conn_eq_some.mp h).1

end Core

/-! ### The post-pass -/

/-- What the post-pass makes of a connection: it is reaped, or its entry advances. -/
def settle (p : Conn S) : Option (Conn S) :=
  if p.1.orphaned = true ∧ S.tcpState p.2 = .closed then none
  else some ((p.1.advance (S.tcpState p.2)).1, p.2)

section PostPass

open WayNetstack.Core

variable {c : Core S} {streams : List WayTcpStream} {sessions : List WayUdpSession} {now : Instant}

theorem TcpLoop.Spec.conn {st : TcpLoop S} (h : TcpLoop.Spec c st) (k : SessionKey) :
    st.core.conn k = (c.conn k).map fun p => ((p.1.advance (S.tcpState p.2)).1, p.2) := by
  have hsock : st.core.socketAt = c.socketAt := socketAt_congr (by rw [h.core])
  cases he : c.manager.tcp.lookup k with
  | none => simp [Core.conn, h.entries, he]
  | some e =>
    have he' : st.core.manager.tcp.lookup k = some (e.advance (c.tcpStateOf k e)).1 := by
      rw [h.entries, he, Option.map_some]
    rw [conn_of_lookup he, conn_of_lookup he', TcpEntry.advance_handle, hsock]
    cases ht : (c.socketAt k.interface e.handle).bind Socket.tcp? with
    | none => rfl
    | some t =>
      have hstate : c.tcpStateOf k e = S.tcpState t :=
        tcpStateOf_conn (conn_eq_some.mpr ⟨he, bind_tcp?_eq_some.mp ht⟩)
      rw [hstate]
      rfl

theorem ReapTcp.conn {st st' : Core S × ℕ} (h : ReapTcp st st')
    (hr : st.1.Registered streams sessions) (k : SessionKey) :
    st'.1.conn k = none ∨ st'.1.conn k = st.1.conn k := by
  cases h with
  | @reap c m slot key e t hs hid he ho hget hst =>
    have hsock : ∀ i h, (c.closeTcp slot key e t).socketAt i h =
        if i = key.interface ∧ h = e.handle then none else c.socketAt i h := by
      rw [hid]
      exact socketAt_closeTcp t hs
    rw [hr.conn_erase he hsock (fun k' => lookup_erase' _ _ _) k]
    split
    · exact .inl rfl
    · exact .inr rfl

theorem Reaps.conn {st st' : Core S × ℕ} (h : ReflTransGen ReapTcp st st')
    (hr : st.1.Registered streams sessions) (k : SessionKey) :
    st'.1.conn k = none ∨ st'.1.conn k = st.1.conn k := by
  have key := run_keeps (R := ReapTcp) (P := fun x : Core S × ℕ =>
      x.1.Registered streams sessions ∧ (x.1.conn k = none ∨ x.1.conn k = st.1.conn k))
    (fun x y hstep hx => ⟨hstep.registered hx.1, ?_⟩) h ⟨hr, .inr rfl⟩
  · exact key.2
  · rcases hstep.conn hx.1 k with hnone | heq
    · exact .inl hnone
    · rw [heq]
      exact hx.2

/-- **The post-pass settles every connection.** -/
theorem PostPass.Spec.conn {p : PostPass S} (h : PostPass.Spec c now p)
    (hr : c.Registered streams sessions) (k : SessionKey) : p.core.conn k = (c.conn k).bind settle := by
  have hreg := h.registered hr
  have hsame : SameTcp p.reaped.1 p.core := by
    have hdrained := run_keeps (P := SameTcp p.reaped.1) (fun _ _ hs hp => hp.trans hs.sameTcp)
      h.drained (.refl _)
    have hrouted := run_keeps (P := SameTcp p.reaped.1) (fun _ _ hs hp => hp.trans hs.sameTcp)
      h.routed hdrained
    have hswept := run_keeps (P := fun st => SameTcp p.reaped.1 st.1)
      (fun _ _ hs hp => hp.trans hs.sameTcp) h.swept hrouted
    rw [h.settled]
    exact hswept.trans (.of_eq rfl (socketAt_congr rfl))
  rw [hsame.conn]
  have htcp := h.tcp.conn k
  cases hc : c.conn k with
  | none =>
    rw [hc] at htcp
    rcases Reaps.conn h.reaped hreg.tcp k with hnone | heq
    · exact hnone
    · exact heq.trans htcp
  | some p₀ =>
    obtain ⟨e, t⟩ := p₀
    rw [hc] at htcp
    have hlook := (conn_eq_some.mp hc).1
    have hstate := tcpStateOf_conn hc
    rw [Option.bind_some, settle]
    split
    · next hreap =>
      -- the entry is among those reaped
      rw [hreg.reaped.conn_eq_none, h.reaped_lookup, if_pos]
      exact Core.mem_reapable.mpr ⟨e, hlook, hreap.1, hstate.trans hreap.2⟩
    · next hkeep =>
      rcases Reaps.conn h.reaped hreg.tcp k with hnone | heq
      · have hnot : k ∉ c.reapable := by
          rintro hmem
          obtain ⟨e', he', ho, hs⟩ := Core.mem_reapable.mp hmem
          rw [hlook] at he'
          cases he'
          exact hkeep ⟨ho, hstate.symm.trans hs⟩
        rw [hreg.reaped.conn_eq_none, h.reaped_lookup, if_neg hnot, ← hreg.tcp.conn_eq_none, htcp] at hnone
        cases hnone
      · exact heq.trans htcp

end PostPass

/-! ### Steps of a run -/

/-- What the application does to a connection through its stream. -/
inductive Use : Conn S → Conn S → Prop
  /-- The stream is read or written. -/
  | quiet {e : TcpEntry} {t t' : S.Tcp} (h : S.Quiet t t') : Use (e, t) (e, t')
  /-- The stream is shut down. -/
  | shut {e : TcpEntry} {t : S.Tcp} (surfaced : e.state ≠ .pending) :
    Use (e, t) (e, WayTcpStream.closeIfOpen t)
  /-- The stream is dropped. -/
  | drop {e : TcpEntry} {t : S.Tcp} (surfaced : e.state ≠ .pending) :
    Use (e, t) ({ e with orphaned := true }, WayTcpStream.closeIfOpen t)

section Steps

open WayNetstack.Core

variable {w w' : World S} {l : Label S} {c : Core S} {st : WayTcpStream}

theorem TouchTcp.conn {R : S.Tcp → S.Tcp → Prop} (hw : w.Registered) (hst : st ∈ w.streams)
    (h : TouchTcp R st w.core c) (k : SessionKey) : c.conn k = w.core.conn k ∨
      ∃ e t t', w.core.conn k = some (e, t) ∧ c.conn k = some (e, t') ∧ R t t' ∧
        e.state ≠ .pending := by
  cases h with
  | same => exact .inl rfl
  | @put slot t t' hs hid hget hR =>
    obtain ⟨e, he, heq, hsurf, -⟩ := hw.tcp.stream hst
    have hh : e.handle = st.handle := by rw [heq]; rfl
    have hsock : ∀ i h, (w.core.setSlot (slot.putSocket st.handle (.tcp t'))).socketAt i h =
        if i = st.key.interface ∧ h = e.handle then some (.tcp t') else w.core.socketAt i h := by
      rw [hid, hh]
      exact socketAt_write hs (slot.putSocket st.handle (.tcp t')) rfl (Slab.get?_put hget _)
    have hlook : ∀ k', w.core.manager.tcp.lookup k' =
        if k' = st.key then some e else w.core.manager.tcp.lookup k' := by
      intro k'
      split
      · next heq => rw [heq]; exact he
      · rfl
    rw [hw.conn_replace he rfl hsock hlook k]
    split
    · next heq =>
      refine .inr ⟨e, t, t', ?_, rfl, hR, hsurf⟩
      rw [heq]
      exact conn_eq_some.mpr ⟨he, by rw [hid, hh, socketAt_of_slot hs, hget]⟩
    · exact .inl rfl

/-- What a drop writes. -/
theorem DropTcp.writes (h : DropTcp st w.core c) : ∃ slot t e, w.core.slot slot.id = some slot ∧
    st.key.interface = slot.id ∧ slot.sockets.get? st.handle = some (.tcp t) ∧
    w.core.manager.tcp.lookup st.key = some e ∧ e.handle = st.handle ∧
    c.slots = (w.core.setSlot (slot.putSocket st.handle (.tcp (WayTcpStream.closeIfOpen t)))).slots ∧
    c.manager.tcp = w.core.manager.tcp.replace st.key { e with orphaned := true } := by
  cases h with
  | drop hs hid hget he hh => exact ⟨_, _, _, hs, hid, hget, he, hh, rfl, rfl⟩

theorem DropTcp.conn (hw : w.Registered) (hst : st ∈ w.streams) (h : DropTcp st w.core c)
    (k : SessionKey) : c.conn k = w.core.conn k ∨
      ∃ p p', w.core.conn k = some p ∧ c.conn k = some p' ∧ Use p p' := by
  obtain ⟨slot, t, e, hs, hid, hget, he, hh, hslots, htcp⟩ := h.writes
  have hsurf : e.state ≠ .pending := by
    obtain ⟨e', he', -, hsurf, -⟩ := hw.tcp.stream hst
    cases he.symm.trans he'
    exact hsurf
  have hsock : ∀ i h, c.socketAt i h = if i = st.key.interface ∧ h = e.handle then
      some (.tcp (WayTcpStream.closeIfOpen t)) else w.core.socketAt i h := by
    rw [socketAt_congr hslots, hid, hh]
    exact socketAt_write hs (slot.putSocket st.handle _) rfl (Slab.get?_put hget _)
  have hlook : ∀ k', c.manager.tcp.lookup k' = if k' = st.key then
      some { e with orphaned := true } else w.core.manager.tcp.lookup k' := by
    intro k'
    rw [htcp, lookup_replace he]
  have hh' : ({ e with orphaned := true } : TcpEntry).handle = e.handle := rfl
  rw [hw.conn_replace he hh' hsock hlook k]
  split
  · next heq =>
    refine .inr ⟨(e, t), _, ?_, rfl, .drop hsurf⟩
    rw [heq]
    exact conn_eq_some.mpr ⟨he, by rw [hid, hh, socketAt_of_slot hs, hget]⟩
  · exact .inl rfl

/-- **A step that is no cycle** leaves a connection alone or uses it. -/
theorem World.Does.conn (hw : w.Registered) (h : w.Does l w') (hl : ∀ now polls, l ≠ .cycle now polls)
    (k : SessionKey) : w'.core.conn k = w.core.conn k ∨
      ∃ p p', w.core.conn k = some p ∧ w'.core.conn k = some p' ∧ Use p p' := by
  cases h with
  | ingress pkt =>
    rcases queueIngress_eq w.core pkt with heq | ⟨slot, hs, heq⟩
    · exact .inl (by rw [heq])
    · refine .inl ?_
      simp only [heq]
      exact (SameTcp.setSlot hs { slot with device := slot.device.pushIngress pkt.data } rfl rfl).conn k
  | cycle result spec => exact absurd rfl (hl _ _)
  | read alive touch | write alive touch =>
    rcases touch.conn hw alive k with heq | ⟨e, t, t', hp, hp', hq, -⟩
    · exact .inl heq
    · exact .inr ⟨_, _, hp, hp', .quiet hq⟩
  | shutdown alive touch =>
    rcases touch.conn hw alive k with heq | ⟨e, t, t', hp, hp', hq, hsurf⟩
    · exact .inl heq
    · cases hq
      exact .inr ⟨_, _, hp, hp', .shut hsurf⟩
  | dropStream alive drop => exact drop.conn hw alive k
  | send alive result send => exact .inl (send.sameTcp.conn k)
  | recv alive =>
    obtain ⟨hslots, hm, -, -⟩ := popQueue_frame _ w.core
    exact .inl ((SameTcp.of_eq (by rw [hm]) (socketAt_congr hslots)).conn k)
  | dropSession alive drop => exact .inl (drop.sameTcp.conn k)
  | @rehash m same =>
    refine .inl ?_
    ext ⟨e, t⟩
    rw [conn_eq_some, conn_eq_some, ← same.tcp.lookup]
    rfl

variable {now : Instant} {polls : InterfaceId → List (PollEvent S)} {r : Cycle S}

/-- The pre-pass of a cycle. -/
theorem CycleSpec.admitted_conn (hS : S.Lawful) (hw : w.Registered) (h : CycleSpec w.core now polls r)
    (k : SessionKey) : r.admitted.1.conn k = w.core.conn k ∨
      w.core.conn k = none ∧ ∃ p, r.admitted.1.conn k = some p ∧ Fresh w.core.Queued k p := by
  have hr : w.core.Registered w.streams (w.sessions ++ ([] : List Session).filterMap Session.session?) := by
    simpa [World.Registered] using hw
  exact Admits.conn hS h.admitted hr k

/-- The rest of a cycle after the poll. -/
theorem CycleSpec.conn (hS : S.Lawful) (hw : w.Registered) (h : CycleSpec w.core now polls r)
    (k : SessionKey) : r.core.conn k = (r.polled.conn k).bind settle := by
  rw [h.core, (SameTcp.drainEgress _).conn]
  exact h.post.conn (h.registered hS hw).polled k

/-- What holds of every connection and of the new ones holds after the pre-pass. -/
theorem CycleSpec.admitted_conns {P : SessionKey → Conn S → Prop} (hS : S.Lawful) (hw : w.Registered)
    (spec : CycleSpec w.core now polls r) (fresh : ∀ k p, Fresh w.core.Queued k p → P k p)
    (hP : w.core.Conns P) : r.admitted.1.Conns P := by
  intro k p hp
  rcases spec.admitted_conn hS hw k with heq | ⟨-, p', hp', hfresh⟩
  · exact hP k p (heq ▸ hp)
  · cases hp.symm.trans hp'
    exact fresh k p hfresh

/-- **What holds of every connection.** A property of connections holds after a step
if new connections have it, uses and transitions keep it, and the polls of the step
keep it of all connections. -/
theorem World.Does.conns {P : SessionKey → Conn S → Prop} (hS : S.Lawful) (hw : w.Registered)
    (h : w.Does l w') (fresh : ∀ k p, Fresh w.core.Queued k p → P k p)
    (use : ∀ k p p', Use p p' → P k p → P k p')
    (advance : ∀ k e (t : S.Tcp), P k (e, t) → P k ((e.advance (S.tcpState t)).1, t))
    (poll : ∀ now polls r, l = .cycle now polls → (pollOnce w.core now polls).result = .ok r →
      CycleSpec w.core now polls r → r.admitted.1.Conns P → r.polled.Conns P)
    (hP : w.core.Conns P) : w'.core.Conns P := by
  by_cases hl : ∃ now polls, l = .cycle now polls
  · obtain ⟨now, polls, rfl⟩ := hl
    cases h with
    | @cycle _ _ r result spec =>
      have hpolled := poll now polls r rfl result spec (spec.admitted_conns hS hw fresh hP)
      intro k p hp
      have hp : r.core.conn k = some p := hp
      rw [spec.conn hS hw, Option.bind_eq_some_iff] at hp
      obtain ⟨⟨e, t⟩, hconn, hsettle⟩ := hp
      unfold settle at hsettle
      split at hsettle
      · cases hsettle
      · cases hsettle
        exact advance k e t (hpolled k (e, t) hconn)
  · intro k p hp
    rcases h.conn hw (fun now polls heq => hl ⟨now, polls, heq⟩) k with heq | ⟨p₀, p', hp₀, hp', huse⟩
    · exact hP k p (heq ▸ hp)
    · rw [hp'] at hp
      cases hp
      exact use k p₀ p huse (hP k p₀ hp₀)

end Steps

end WayNetstack

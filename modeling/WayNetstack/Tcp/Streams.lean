import WayNetstack.Tcp.Connections
import WayNetstack.Tcp.Waiting

/-!
# Connections and what is noted of them

What an operation on a stream makes of the socket of its connection, as a function of the
socket: `readTcp`, `writeTcp`, `closeIfOpen`. Under the lock that is all the operation does to
the connections: the one of its key changes so, and no other (`World.Inv.conn_use`).

A `Watch` notes things about one connection: it starts anew when the connection is opened, and
is told of every operation on its stream and of every event of the engine that touches its
socket. **`Watch.holds`** is the rule for what is noted along a run: a relation between the notes
and the connection holds throughout if it holds of a socket that has just been made to listen,
and if operations, lawful events and the transitions of the post-pass keep it.
-/

namespace WayNetstack

open Lib Lib.Table Lib.Traced SessionManager Relation

variable {S : Smoltcp}

/-! ### Operations on the socket -/

namespace WayTcpStream

/-- What `poll_read` makes of the socket, and what it returns. -/
def readTcp (socket : S.Tcp) (cx : Waker) (room : ℕ) : S.Tcp × Poll (Except IoError Bytes) :=
  match S.tcpRecvSlice socket room with
  | .ok (data, socket') =>
    if 0 < data.length then (socket', .ready (.ok data)) else (S.tcpRegisterRecvWaker socket' cx, .pending)
  | .error .finished => (socket, .ready (.ok []))
  | .error .invalidState =>
    if S.tcpIsOpen socket then (S.tcpRegisterRecvWaker socket cx, .pending) else (socket, .ready (.ok []))

/-- What `poll_write` makes of the socket, and what it returns. -/
def writeTcp (socket : S.Tcp) (cx : Waker) (data : Bytes) : S.Tcp × Poll (Except IoError ℕ) :=
  match S.tcpSendSlice socket data with
  | .ok (n, socket') =>
    if 0 < n then (socket', .ready (.ok n)) else (S.tcpRegisterSendWaker socket' cx, .pending)
  | .error .invalidState =>
    if S.tcpIsOpen socket then (S.tcpRegisterSendWaker socket cx, .pending)
    else (socket, .ready (.error ⟨.brokenPipe, "connection closed"⟩))

end WayTcpStream

open WayTcpStream

/-- The stream that an operation uses. -/
def Label.stream? : Label S → Option WayTcpStream
  | .read st _ _ | .write st _ _ | .shutdown st | .dropStream st => some st
  | .ingress _ | .cycle _ _ | .send _ _ | .recv _ | .dropSession _ | .rehash _ => none

/-- What an operation makes of the connection of its stream. -/
def Label.use : Label S → Conn S → Conn S
  | .read _ cx room, (e, t) => (e, (readTcp t cx room).1)
  | .write _ cx data, (e, t) => (e, (writeTcp t cx data).1)
  | .shutdown _, (e, t) => (e, closeIfOpen t)
  | .dropStream _, (e, t) => ({ e with orphaned := true }, closeIfOpen t)
  | _, p => p

section Operations

open WayNetstack.Core

variable {w w' : World S} {l : Label S} {st : WayTcpStream} {c : Core S}

/-- A read is not noticed by the connection. -/
theorem readTcp_quiet (hS : S.Lawful) (t : S.Tcp) (cx : Waker) (room : ℕ) :
    S.Quiet t (readTcp t cx room).1 := by
  unfold readTcp
  cases hrecv : S.tcpRecvSlice t room with
  | ok r =>
    obtain ⟨hst, htup, hcap⟩ := hS.tcpRecvSlice_ok hrecv
    dsimp only
    split
    · exact ⟨hst, htup, hcap⟩
    · obtain ⟨hst', htup', hcap'⟩ := hS.tcpRegisterRecvWaker_ok r.2 cx
      exact ⟨hst'.trans hst, htup'.trans htup, hcap'.trans hcap⟩
  | error err =>
    cases err with
    | finished => exact ⟨rfl, rfl, rfl⟩
    | invalidState =>
      dsimp only
      split
      · obtain ⟨hst, htup, hcap⟩ := hS.tcpRegisterRecvWaker_ok t cx
        exact ⟨hst, htup, hcap⟩
      · exact ⟨rfl, rfl, rfl⟩

/-- A write is not noticed by the connection. -/
theorem writeTcp_quiet (hS : S.Lawful) (t : S.Tcp) (cx : Waker) (data : Bytes) :
    S.Quiet t (writeTcp t cx data).1 := by
  unfold writeTcp
  cases hsend : S.tcpSendSlice t data with
  | ok r =>
    obtain ⟨hst, htup, hcap⟩ := hS.tcpSendSlice_ok hsend
    dsimp only
    split
    · exact ⟨hst, htup, hcap⟩
    · obtain ⟨hst', htup', hcap'⟩ := hS.tcpRegisterSendWaker_ok r.2 cx
      exact ⟨hst'.trans hst, htup'.trans htup, hcap'.trans hcap⟩
  | error err =>
    cases err with
    | invalidState =>
      dsimp only
      split
      · obtain ⟨hst, htup, hcap⟩ := hS.tcpRegisterSendWaker_ok t cx
        exact ⟨hst, htup, hcap⟩
      · exact ⟨rfl, rfl, rfl⟩

/-- The core in which the connection of `k` has become `p`. -/
def Core.Rewired (c : Core S) (k : SessionKey) (p : Conn S) (c' : Core S) : Prop :=
  ∀ k', c'.conn k' = if k' = k then some p else c.conn k'

theorem Core.Rewired.refl {k : SessionKey} {p : Conn S} (h : c.conn k = some p) : c.Rewired k p c := by
  intro k'
  split
  · next heq => rw [heq, h]
  · rfl

/-- The connection of a live stream, and what writing its socket makes of the connections. -/
theorem World.Registered.stream_conn (hw : w.Registered) (hst : st ∈ w.streams) :
    ∃ slot e t, w.core.slot st.interface = some slot ∧ slot.sockets.get? st.handle = some (.tcp t) ∧
      w.core.conn st.key = some (e, t) ∧ e.state ≠ .pending ∧
      ∀ t', w.core.Rewired st.key (e, t') (w.core.setSlot (slot.putSocket st.handle (.tcp t'))) := by
  obtain ⟨slot, t, e, hs, hs', hid, hget, he, hh⟩ := hw.stream_socket hst
  have hsurf : e.state ≠ .pending := by
    obtain ⟨e', he', -, hsurf, -⟩ := hw.tcp.stream hst
    cases he.symm.trans he'
    exact hsurf
  refine ⟨slot, e, t, hs, hget, conn_eq_some.mpr ⟨he, ?_⟩, hsurf, fun t' => ?_⟩
  · rw [hid, hh, socketAt_of_slot hs', hget]
  have hsock : ∀ i h, (w.core.setSlot (slot.putSocket st.handle (.tcp t'))).socketAt i h =
      if i = st.key.interface ∧ h = e.handle then some (.tcp t') else w.core.socketAt i h := by
    rw [hid, hh]
    exact socketAt_write hs' (slot.putSocket st.handle (.tcp t')) rfl (Slab.get?_put hget _)
  refine hw.conn_replace he rfl hsock fun k' => ?_
  split
  · next heq => rw [heq]; exact he
  · rfl

/-- **`poll_read` is `readTcp` of the socket.** -/
theorem pollRead_conn (hw : w.Registered) (hst : st ∈ w.streams) (cx : Waker) (room : ℕ) :
    ∃ e t, w.core.conn st.key = some (e, t) ∧ e.state ≠ .pending ∧
      Ok (Call.Good False) (st.pollRead w.core cx room) fun r =>
        r.value = (readTcp t cx room).2 ∧ w.core.Rewired st.key (e, (readTcp t cx room).1) r.core := by
  obtain ⟨slot, e, t, hs, hget, hconn, hsurf, hput⟩ := hw.stream_conn hst
  refine ⟨e, t, hconn, hsurf, ?_⟩
  unfold WayTcpStream.pollRead
  simp only [hs]
  refine (InterfaceSlot.getTcp_ok hget).bind ?_
  rintro t rfl
  unfold readTcp
  cases S.tcpRecvSlice t room with
  | ok r =>
    simp only
    split
    · exact ok_pure ⟨rfl, hput _⟩
    · exact ok_pure ⟨rfl, hput _⟩
  | error err =>
    cases err with
    | finished => exact ok_pure ⟨rfl, .refl hconn⟩
    | invalidState =>
      simp only
      split
      · exact ok_pure ⟨rfl, hput _⟩
      · exact ok_pure ⟨rfl, .refl hconn⟩

/-- **`poll_write` is `writeTcp` of the socket.** -/
theorem pollWrite_conn (hw : w.Registered) (hst : st ∈ w.streams) (cx : Waker) (data : Bytes) :
    ∃ e t, w.core.conn st.key = some (e, t) ∧ e.state ≠ .pending ∧
      Ok (Call.Good False) (st.pollWrite w.core cx data) fun r =>
        r.value = (writeTcp t cx data).2 ∧ w.core.Rewired st.key (e, (writeTcp t cx data).1) r.core := by
  obtain ⟨slot, e, t, hs, hget, hconn, hsurf, hput⟩ := hw.stream_conn hst
  refine ⟨e, t, hconn, hsurf, ?_⟩
  unfold WayTcpStream.pollWrite
  simp only [hs]
  refine (InterfaceSlot.getTcp_ok hget).bind ?_
  rintro t rfl
  unfold writeTcp
  cases S.tcpSendSlice t data with
  | ok r =>
    simp only
    split
    · exact ok_pure ⟨rfl, hput _⟩
    · exact ok_pure ⟨rfl, hput _⟩
  | error err =>
    cases err with
    | invalidState =>
      simp only
      split
      · exact ok_pure ⟨rfl, hput _⟩
      · exact ok_pure ⟨rfl, .refl hconn⟩

theorem pollShutdown_conn (hw : w.Registered) (hst : st ∈ w.streams) :
    ∃ e t, w.core.conn st.key = some (e, t) ∧ e.state ≠ .pending ∧
      Ok (Call.Good False) (st.pollShutdown w.core) fun r =>
        w.core.Rewired st.key (e, closeIfOpen t) r.core := by
  obtain ⟨slot, e, t, hs, hget, hconn, hsurf, hput⟩ := hw.stream_conn hst
  refine ⟨e, t, hconn, hsurf, ?_⟩
  unfold WayTcpStream.pollShutdown
  simp only [hs]
  refine (InterfaceSlot.getTcp_ok hget).bind ?_
  rintro t rfl
  exact ok_pure (hput _)

/-- **What a step that is no cycle does to the connections**: an operation on a stream does what
it does to the connection of its stream, and all other connections stay as they are. -/
theorem World.Inv.conn_use (hS : S.Lawful) {b : NetstackBuilder S} (hw : w.Inv False b)
    (h : Steps w l w') (hl : ∀ now polls, l ≠ .cycle now polls) :
    (l.stream? = none ∧ ∀ k, w'.core.conn k = w.core.conn k) ∨
      ∃ st p, l.stream? = some st ∧ w.core.conn st.key = some p ∧ p.1.state ≠ .pending ∧
        w.core.Rewired st.key (l.use p) w'.core := by
  have hr := hw.registered
  have hdoes := (hw.step hS False.elim h).1
  cases l with
  | ingress pkt =>
    refine .inl ⟨rfl, fun k => ?_⟩
    cases hdoes
    rcases queueIngress_eq w.core pkt with heq | ⟨slot, hs, heq⟩
    · simp only [heq]
    · simp only [heq]
      exact (SameTcp.setSlot hs { slot with device := slot.device.pushIngress pkt.data } rfl rfl).conn k
  | cycle now polls => exact absurd rfl (hl now polls)
  | read st cx room =>
    obtain ⟨e, t, hconn, hsurf, hok⟩ := pollRead_conn hr h.1 cx room
    obtain ⟨r, hres, hstep⟩ := bind_result_ok.mp h.2
    cases hstep
    exact .inr ⟨st, (e, t), rfl, hconn, hsurf, (hok.post hres).2⟩
  | write st cx data =>
    obtain ⟨e, t, hconn, hsurf, hok⟩ := pollWrite_conn hr h.1 cx data
    obtain ⟨r, hres, hstep⟩ := bind_result_ok.mp h.2
    cases hstep
    exact .inr ⟨st, (e, t), rfl, hconn, hsurf, (hok.post hres).2⟩
  | shutdown st =>
    obtain ⟨e, t, hconn, hsurf, hok⟩ := pollShutdown_conn hr h.1
    obtain ⟨r, hres, hstep⟩ := bind_result_ok.mp h.2
    cases hstep
    exact .inr ⟨st, (e, t), rfl, hconn, hsurf, hok.post hres⟩
  | dropStream st =>
    obtain ⟨slot₀, e₀, t₀, hs₀, hget₀, hconn, hsurf, -⟩ := hr.stream_conn h.1
    cases hdoes with
    | dropStream alive drop =>
      obtain ⟨slot, t, e, hs, hid, hget, he, hh, hslots, htcp⟩ := drop.writes
      have hpair : w.core.conn st.key = some (e, t) :=
        conn_eq_some.mpr ⟨he, by rw [hid, hh, socketAt_of_slot hs, hget]⟩
      obtain ⟨rfl, rfl⟩ : e₀ = e ∧ t₀ = t := by simpa using hconn.symm.trans hpair
      refine .inr ⟨st, (e₀, t₀), rfl, hconn, hsurf, ?_⟩
      have hh' : ({ e₀ with orphaned := true } : TcpEntry).handle = e₀.handle := rfl
      refine hr.conn_replace he hh' ?_ fun k' => ?_
      · rw [socketAt_congr hslots, hid, hh]
        exact socketAt_write hs (slot.putSocket st.handle _) rfl (Slab.get?_put hget _)
      · rw [htcp, lookup_replace he]
  | send ses payload =>
    cases hdoes with
    | send alive result send => exact .inl ⟨rfl, send.sameTcp.conn⟩
  | recv ses =>
    cases hdoes
    obtain ⟨hslots, hm, -, -⟩ := popQueue_frame ses w.core
    exact .inl ⟨rfl, (SameTcp.of_eq (by rw [hm]) (socketAt_congr hslots)).conn⟩
  | dropSession ses =>
    cases hdoes with
    | dropSession alive drop => exact .inl ⟨rfl, drop.sameTcp.conn⟩
  | rehash m =>
    cases hdoes with
    | rehash same =>
      refine .inl ⟨rfl, fun k => ?_⟩
      ext ⟨e, t⟩
      rw [conn_eq_some, conn_eq_some, ← same.tcp.lookup]
      rfl

end Operations

/-! ### New connections -/

/-- A connection just opened: its socket has been made to listen. -/
def Listened (p : Conn S) : Prop :=
  p.1.state = .pending ∧ p.1.orphaned = false ∧ ∃ t₀ ep, S.tcpListen t₀ ep = .ok p.2

section PrePass

open WayNetstack.Core

variable {now : Instant} {queued : InterfaceId → Bytes → Prop} {st st' : Core S × List Session}
  {streams : List WayTcpStream} {sessions : List WayUdpSession}

/-- The socket of a new connection has been made to listen, wherever it comes from. -/
theorem Admit.listened (hS : S.Lawful) (h : Admit now queued st st')
    (hr : st.1.Registered streams sessions) {k : SessionKey} {p : Conn S} (hold : st.1.conn k = none)
    (hp : st'.1.conn k = some p) : Listened p := by
  cases h with
  | @device c acc slot hs d =>
    rw [(SameTcp.setSlot hs { slot with device := d } rfl rfl).conn k] at hp
    cases hold.symm.trans hp
  | @spoil c acc slot hs =>
    have hsame := SameTcp.setSlot hs (slot.withPool slot.tcpPool.tail) rfl rfl
    cases hold.symm.trans ((hsame.conn k).symm.trans hp)
  | leak hb ha => cases hold.symm.trans (((SameTcp.of_eq rfl (socketAt_congr rfl)).conn k).symm.trans hp)
  | @tcp c acc slot key pkt t hs hid hq hpkt new room ha hl =>
    have hsock : ∀ i h, (c.openTcp slot key t).socketAt i h =
        if i = key.interface ∧ h = S.freeIndex slot.sockets then some (.tcp t)
        else c.socketAt i h := by
      rw [hid]
      exact socketAt_write hs ((slot.withPool slot.tcpPool.tail).withSocket (.tcp t)) rfl
        (Slab.get?_insertAt (hS.freeIndex_free slot.sockets) _)
    have hfree := protoAt_freeIndex hS hs
    rw [← hid] at hfree
    have hconn := hr.conn_insert (e := ⟨S.freeIndex slot.sockets, .pending, false⟩) hfree hsock
      (fun k' => lookup_insert' _ _ _ _) k
    rw [hconn] at hp
    split at hp
    · cases hp
      exact ⟨rfl, rfl, _, _, hl⟩
    · cases hold.symm.trans hp
  | @udpNew c acc slot key pkt u hs hid hq hpkt new room fresh ha hb =>
    have hsame : SameTcp c (c.openUdpNew slot key u now) :=
      .write hs (slot.withSocket (.udp u)) rfl (Slab.get?_insertAt (hS.freeIndex_free slot.sockets) _)
        (by simp [(hS.freeIndex_free slot.sockets).2]) rfl rfl rfl
    cases hold.symm.trans ((hsame.conn k).symm.trans hp)
  | udpJoin hs hid hq hpkt new room inUse =>
    cases hold.symm.trans (((SameTcp.of_eq rfl (socketAt_congr rfl)).conn k).symm.trans hp)

/-- What the pre-pass makes of the connections. -/
theorem Admits.listened (hS : S.Lawful) (h : ReflTransGen (Admit now queued) st st')
    (hr : st.1.Registered streams (sessions ++ st.2.filterMap Session.session?)) (k : SessionKey) :
    st'.1.conn k = st.1.conn k ∨ st.1.conn k = none ∧ ∃ p, st'.1.conn k = some p ∧ Listened p := by
  have key := run_keeps (R := Admit now queued) (P := fun x : Core S × List Session =>
      x.1.Registered streams (sessions ++ x.2.filterMap Session.session?) ∧
      (x.1.conn k = st.1.conn k ∨ st.1.conn k = none ∧ ∃ p, x.1.conn k = some p ∧ Listened p))
    (fun x y hstep hx => ?_) h ⟨hr, .inl rfl⟩
  · exact key.2
  refine ⟨hstep.registered hS hx.1, ?_⟩
  rcases hstep.conn hS hx.1 k with heq | ⟨hnone, p, hp, -⟩
  · rw [heq]
    exact hx.2
  · rcases hx.2 with heq | ⟨-, p', hp', -⟩
    · exact .inr ⟨heq ▸ hnone, p, hp, hstep.listened hS hx.1 hnone hp⟩
    · cases hnone.symm.trans hp'

theorem CycleSpec.listened (hS : S.Lawful) {w : World S} {polls : InterfaceId → List (PollEvent S)}
    {r : Cycle S} (hw : w.Registered) (h : CycleSpec w.core now polls r) (k : SessionKey) :
    r.admitted.1.conn k = w.core.conn k ∨
      w.core.conn k = none ∧ ∃ p, r.admitted.1.conn k = some p ∧ Listened p := by
  have hr : w.core.Registered w.streams (w.sessions ++ ([] : List Session).filterMap Session.session?) := by
    simpa [World.Registered] using hw
  exact WayNetstack.Admits.listened hS h.admitted hr k

end PrePass

/-! ### Watching a connection -/

/-- How things are noted about a connection. -/
structure Watch (S : Smoltcp) (F : Type) where
  /-- What is noted of a new connection. -/
  start : F
  /-- An operation on the stream is done, the socket being the given one before. -/
  use : Label S → S.Tcp → F → F
  /-- An event of the engine turns one socket into the other. -/
  event : S.Tcp → S.Tcp → F → F
  event_self : ∀ t f, event t t f = f

namespace Watch

variable {F : Type} (W : Watch S F)

/-- A socket before an event and after it. -/
def change : Option S.Tcp → Option S.Tcp → F → F
  | some t, some t' => W.event t t'
  | _, _ => id

/-- What is noted of the socket `h` in a poll. -/
def events (h : SocketHandle) : InterfaceSlot S → List (PollEvent S) → F → F
  | _, [], f => f
  | slot, e :: es, f => events h (slot.apply e) es (W.change (slot.tcpAt h) ((slot.apply e).tcpAt h) f)

/-- What is noted of a connection in a cycle, from the pre-pass on. -/
def polled (k : SessionKey) (polls : InterfaceId → List (PollEvent S)) (f : F) (c : Core S) : F :=
  match c.manager.tcp.lookup k, c.slot k.interface with
  | some e, some slot => W.events e.handle slot (polls k.interface) f
  | _, _ => f

/-- What is noted of the connection of `k` in a step. -/
def next (w : World S) (l : Label S) (k : SessionKey) (f : F) : F :=
  match l with
  | .cycle now polls =>
    (prePass w.core now).result.toOption.elim f fun st =>
      W.polled k polls (if (w.core.manager.tcp.lookup k).isSome then f else W.start) st.1
  | l =>
    if l.stream?.map (·.key) = some k then (w.core.conn k).elim f fun p => W.use l p.2 f else f

/-- Every connection is watched. -/
def note : World.Observer S (SessionKey → F) := fun w l _ g k => W.next w l k (g k)

/-- Nothing has been noted yet. -/
def init : SessionKey → F := fun _ => W.start

variable {W}

theorem events_holds {M : F → Conn S → Prop} {law : InterfaceSlot S → PollEvent S → Prop} {e : TcpEntry}
    (event : ∀ {slot ev t t' f}, law slot ev → slot.tcpAt e.handle = some t →
      ev.touches = some (e.handle, .tcp t') → M f (e, t) → M (W.event t t' f) (e, t'))
    {es : List (PollEvent S)} {slot : InterfaceSlot S} {t : S.Tcp} {f : F} (hlaw : slot.Obeys law es)
    (ht : slot.tcpAt e.handle = some t) (hM : M f (e, t)) :
    ∃ t', (slot.poll es).tcpAt e.handle = some t' ∧ M (W.events e.handle slot es f) (e, t') := by
  induction es generalizing slot t f with
  | nil => exact ⟨t, ht, hM⟩
  | cons ev es ih =>
    -- an event never takes a socket away
    obtain ⟨t', ht'⟩ : ∃ t', (slot.apply ev).tcpAt e.handle = some t' := by
      have hproto : (slot.apply ev).protoAt e.handle = some .tcp := by
        rw [InterfaceSlot.protoAt_apply]
        obtain ⟨s, hs, hst⟩ := Option.bind_eq_some_iff.mp ht
        cases s with
        | tcp t => simp [InterfaceSlot.protoAt, hs, Socket.proto]
        | udp u => cases hst
      obtain ⟨s, hs, hst⟩ := Option.map_eq_some_iff.mp hproto
      cases s with
      | tcp t => exact ⟨t, by rw [InterfaceSlot.tcpAt, hs]; rfl⟩
      | udp u => cases hst
    have hnext : M (W.event t t' f) (e, t') := by
      rcases InterfaceSlot.tcpAt_apply ht' with hsame | ⟨t₁, ht₁, htouch⟩
      · cases ht.symm.trans hsame
        rw [W.event_self]
        exact hM
      · cases ht.symm.trans ht₁
        exact event hlaw.1 ht htouch hM
    rw [InterfaceSlot.poll_cons, events, ht, ht']
    exact ih hlaw.2 ht' hnext

/-- What a relation between the notes and the connection has to satisfy. -/
structure Keeps (W : Watch S F) (law : InterfaceSlot S → PollEvent S → Prop) (M : F → Conn S → Prop) : Prop where
  start : ∀ p, Listened p → M W.start p
  use : ∀ {l : Label S} {st f p}, l.stream? = some st → p.1.state ≠ .pending → M f p → M (W.use l p.2 f) (l.use p)
  event : ∀ {slot ev e t t' f}, law slot ev → slot.tcpAt e.handle = some t →
    ev.touches = some (e.handle, .tcp t') → M f (e, t) → M (W.event t t' f) (e, t')
  advance : ∀ {f e t}, M f (e, t) → M f ((e.advance (S.tcpState t)).1, t)

variable {law : InterfaceSlot S → PollEvent S → Prop} {M : F → Conn S → Prop} {b : NetstackBuilder S}

theorem Keeps.cycle (h : W.Keeps law M) (hS : S.Lawful) {w : World S} {now : Instant}
    {polls : InterfaceId → List (PollEvent S)} {r : Cycle S} (hw : w.Registered)
    (hr : (pollOnce w.core now polls).result = .ok r) (spec : CycleSpec w.core now polls r)
    (hlaw : World.PollsObey (fun _ => law) polls r.admitted.1) {g : SessionKey → F}
    (hM : ∀ k p, w.core.conn k = some p → M (g k) p) {k : SessionKey} {p : Conn S}
    (hp : r.core.conn k = some p) : M (W.next w (.cycle now polls) k (g k)) p := by
  have hpre : (prePass w.core now).result.toOption = some r.admitted := by
    rw [prePass_of_pollOnce hr]
    rfl
  have hregs := spec.registered hS hw
  rw [spec.conn hS hw, Option.bind_eq_some_iff] at hp
  obtain ⟨⟨e, t'⟩, hpolled, hsettle⟩ := hp
  rw [spec.polled] at hpolled
  obtain ⟨slot, t, hs, hadm, hget, hget'⟩ := Core.conn_pollSlots hpolled hregs.admitted
  -- after the pre-pass the connection is as it was, or new
  have hbase : M (if (w.core.manager.tcp.lookup k).isSome then g k else W.start) (e, t) := by
    rcases spec.listened hS hw k with heq | ⟨hnone, q, hq, hlist⟩
    · have hold : w.core.conn k = some (e, t) := heq ▸ hadm
      rw [if_pos (by rw [(Core.conn_eq_some.mp hold).1]; rfl)]
      exact hM k (e, t) hold
    · cases hadm.symm.trans hq
      rw [if_neg (by simp [hw.conn_eq_none.mp hnone])]
      exact h.start _ hlist
  have hobeys := hlaw slot (Core.mem_of_slot hs)
  rw [Core.id_of_slot hs] at hobeys
  have hat : slot.tcpAt e.handle = some t := by rw [InterfaceSlot.tcpAt, hget]; rfl
  obtain ⟨t₁, ht₁, hevents⟩ := events_holds (W := W) h.event hobeys hat hbase
  have heq : t₁ = t' := by
    rw [InterfaceSlot.tcpAt, hget'] at ht₁
    exact (Option.some.inj ht₁).symm
  subst heq
  have hnext : W.next w (.cycle now polls) k (g k) = W.events e.handle slot (polls k.interface)
      (if (w.core.manager.tcp.lookup k).isSome then g k else W.start) := by
    simp only [next, hpre, Option.elim_some, polled, (Core.conn_eq_some.mp hadm).1, hs]
  rw [hnext]
  unfold settle at hsettle
  split at hsettle
  · cases hsettle
  · cases hsettle
    exact h.advance hevents

/-- **The rule for what is noted of connections.** -/
theorem holds (h : W.Keeps law M) (hS : S.Lawful) {s : World S × (SessionKey → F)}
    (hs : World.Watched W.note (fun s l => s.1.Polls (fun _ => law) l) b W.init s) {k : SessionKey}
    {p : Conn S} (hp : s.1.core.conn k = some p) : M (s.2 k) p := by
  have key : s.1.Inv False b ∧ ∀ k p, s.1.core.conn k = some p → M (s.2 k) p := by
    refine System.Reaches.invariant (P := fun s : World S × (SessionKey → F) =>
      s.1.Inv False b ∧ ∀ k p, s.1.core.conn k = some p → M (s.2 k) p) hs ⟨?_, ?_⟩ ?_
    · have start : World.AnyRun b (World.init b) := System.Reaches.refl _ _
      exact World.Reachable.inv hS False.elim start
    · intro k p hp
      have hnone : (World.init b).core.conn k = none := by
        simp [Core.conn, World.init, NetstackBuilder.build, SessionManager.empty]
      cases hnone.symm.trans hp
    · rintro ⟨w, g⟩ l ⟨w', g'⟩ - ⟨hw, hM⟩ ⟨hlaw, hstep, hnote⟩
      have hnote : g' = W.note w l w' g := hnote
      subst hnote
      refine ⟨(hw.step hS False.elim hstep).2, fun k p hp => ?_⟩
      by_cases hl : ∃ now polls, l = .cycle now polls
      · obtain ⟨now, polls, rfl⟩ := hl
        cases (hw.step hS False.elim hstep).1 with
        | cycle result spec =>
          exact h.cycle hS hw.registered result spec ((World.atPoll_cycle result).mp hlaw) hM hp
      · have hnot : ∀ now polls, l ≠ .cycle now polls := fun now polls heq => hl ⟨now, polls, heq⟩
        have hnext : W.note w l w' g k = if l.stream?.map (·.key) = some k then
            (w.core.conn k).elim (g k) fun p => W.use l p.2 (g k) else g k := by
          cases l with
          | cycle now polls => exact absurd rfl (hnot now polls)
          | _ => rfl
        show M (W.note w l w' g k) p
        rw [hnext]
        rcases hw.conn_use hS hstep hnot with ⟨hst, hsame⟩ | ⟨st, q, hst, hq, hsurf, hrewired⟩
        · rw [hst]
          exact hM k p (hsame k ▸ hp)
        · rw [hst, Option.map_some]
          have hp' := hp
          rw [hrewired k] at hp'
          split at hp'
          · next heq =>
            subst heq
            cases hp'
            rw [if_pos rfl, hq, Option.elim_some]
            exact h.use hst hsurf (hM st.key q hq)
          · next hne =>
            rw [if_neg fun heq => hne (Option.some.inj heq).symm]
            exact hM k p hp'
  exact key.2 k p hp

end Watch

/-- The key of the trial stack's client. -/
def Reference.streamKey : SessionKey := ⟨eth, .tcp, client, server⟩

end WayNetstack

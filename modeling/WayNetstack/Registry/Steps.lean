import WayNetstack.Registry.Cycle

/-!
# What a step of a run does

The operations of streams and sessions, with their specifications, and one theorem
for the whole system: from a world in order every step that can be taken ends
without a fault, all its calls are good, and the world it leads to is in order
(`World.step_ok`). What the step did is told by `World.Does`, one constructor for
each way a step can go, which later proofs take apart instead of the functions.
-/

namespace WayNetstack

open Lib Lib.Table Lib.Traced SessionManager Relation

variable {S : Smoltcp} {exact : Prop}

/-! ### Streams -/

/-- A change of a TCP socket that the connection does not notice. -/
structure Smoltcp.Quiet (S : Smoltcp) (t t' : S.Tcp) : Prop where
  state : S.tcpState t' = S.tcpState t
  tuple : S.tcpTuple t' = S.tcpTuple t
  capacity : S.tcpCapacity t' = S.tcpCapacity t

/-- The socket of a stream is replaced, `R` saying by what; or nothing changes. -/
inductive TouchTcp (R : S.Tcp → S.Tcp → Prop) (st : WayTcpStream) (c : Core S) : Core S → Prop
  | same : TouchTcp R st c c
  | put {slot : InterfaceSlot S} {t t' : S.Tcp} (hs : c.slot slot.id = some slot)
    (hid : st.key.interface = slot.id) (hget : slot.sockets.get? st.handle = some (.tcp t))
    (hR : R t t') : TouchTcp R st c (c.setSlot (slot.putSocket st.handle (.tcp t')))

section Streams

variable {c c' : Core S} {streams : List WayTcpStream} {sessions : List WayUdpSession}
  {st : WayTcpStream} {R : S.Tcp → S.Tcp → Prop}

theorem TouchTcp.evolves (h : TouchTcp R st c c') (hr : c.Registered streams sessions) :
    World.Evolves ⟨c, streams, sessions⟩ ⟨c', streams, sessions⟩ := by
  cases h with
  | same => exact .refl hr
  | put hs hid hget hR => exact hr.putSocket hs hget _ rfl

theorem TouchTcp.budgeted {owed : ℕ} (h : TouchTcp R st c c') (hb : c.Budgeted exact owed) :
    c'.Budgeted exact owed := by
  cases h with
  | same => exact hb
  | put hs hid hget hR => exact hb.congr rfl rfl rfl

/-- A live stream's handle names the TCP socket of its own entry. -/
theorem Core.Registered.stream_socket (hr : c.Registered streams sessions) (hst : st ∈ streams) :
    ∃ slot t e, c.slot st.interface = some slot ∧ c.slot slot.id = some slot ∧
      st.key.interface = slot.id ∧ slot.sockets.get? st.handle = some (.tcp t) ∧
      c.manager.tcp.lookup st.key = some e ∧ e.handle = st.handle := by
  obtain ⟨e, he, heq, -, -⟩ := hr.tcp.stream hst
  have hint : st.interface = st.key.interface := by rw [heq]; rfl
  have hh : e.handle = st.handle := by rw [heq]; rfl
  obtain ⟨slot, t, hs, hget, -⟩ := hr.tcp_socket he
  exact ⟨slot, t, e, by rw [hint, hs], Core.slot_id hs, (Core.id_of_slot hs).symm, hh ▸ hget, he, hh⟩

theorem pollRead_ok (hS : S.Lawful) (hr : c.Registered streams sessions) (hst : st ∈ streams)
    (cx : Waker) (room : ℕ) :
    Ok (Call.Good exact) (st.pollRead c cx room) fun r => TouchTcp S.Quiet st c r.core := by
  obtain ⟨slot, t, -, hs, hs', hid, hget, -, -⟩ := hr.stream_socket hst
  have hwake := fun t => hS.tcpRegisterRecvWaker_ok t cx
  unfold WayTcpStream.pollRead
  simp only [hs]
  refine (InterfaceSlot.getTcp_ok hget).bind ?_
  rintro t rfl
  cases hrecv : S.tcpRecvSlice t room with
  | ok r =>
    obtain ⟨hst, htup, hcap⟩ := hS.tcpRecvSlice_ok hrecv
    simp only
    split
    · exact ok_pure (.put hs' hid hget ⟨hst, htup, hcap⟩)
    · obtain ⟨hst', htup', hcap'⟩ := hwake r.2
      exact ok_pure (.put hs' hid hget ⟨hst'.trans hst, htup'.trans htup, hcap'.trans hcap⟩)
  | error err =>
    cases err with
    | finished => exact ok_pure .same
    | invalidState =>
      simp only
      split
      · obtain ⟨hst, htup, hcap⟩ := hwake t
        exact ok_pure (.put hs' hid hget ⟨hst, htup, hcap⟩)
      · exact ok_pure .same

theorem pollWrite_ok (hS : S.Lawful) (hr : c.Registered streams sessions) (hst : st ∈ streams)
    (cx : Waker) (data : Bytes) :
    Ok (Call.Good exact) (st.pollWrite c cx data) fun r => TouchTcp S.Quiet st c r.core := by
  obtain ⟨slot, t, -, hs, hs', hid, hget, -, -⟩ := hr.stream_socket hst
  have hwake := fun t => hS.tcpRegisterSendWaker_ok t cx
  unfold WayTcpStream.pollWrite
  simp only [hs]
  refine (InterfaceSlot.getTcp_ok hget).bind ?_
  rintro t rfl
  cases hsend : S.tcpSendSlice t data with
  | ok r =>
    obtain ⟨hst, htup, hcap⟩ := hS.tcpSendSlice_ok hsend
    simp only
    split
    · exact ok_pure (.put hs' hid hget ⟨hst, htup, hcap⟩)
    · obtain ⟨hst', htup', hcap'⟩ := hwake r.2
      exact ok_pure (.put hs' hid hget ⟨hst'.trans hst, htup'.trans htup, hcap'.trans hcap⟩)
  | error err =>
    cases err with
    | invalidState =>
      simp only
      split
      · obtain ⟨hst, htup, hcap⟩ := hwake t
        exact ok_pure (.put hs' hid hget ⟨hst, htup, hcap⟩)
      · exact ok_pure .same

/-- A close is requested of the socket. -/
def Smoltcp.Closes (S : Smoltcp) (t t' : S.Tcp) : Prop := t' = WayTcpStream.closeIfOpen t

theorem pollShutdown_ok (hr : c.Registered streams sessions) (hst : st ∈ streams) :
    Ok (Call.Good exact) (st.pollShutdown c) fun r => TouchTcp S.Closes st c r.core := by
  obtain ⟨slot, t, -, hs, hs', hid, hget, -, -⟩ := hr.stream_socket hst
  unfold WayTcpStream.pollShutdown
  simp only [hs]
  refine (InterfaceSlot.getTcp_ok hget).bind ?_
  rintro t rfl
  exact ok_pure (.put hs' hid hget rfl)

/-- A dropped stream: its socket is closed and its entry orphaned. -/
inductive DropTcp (st : WayTcpStream) (c : Core S) : Core S → Prop
  | drop {slot : InterfaceSlot S} {t : S.Tcp} {e : TcpEntry} (hs : c.slot slot.id = some slot)
    (hid : st.key.interface = slot.id) (hget : slot.sockets.get? st.handle = some (.tcp t))
    (he : c.manager.tcp.lookup st.key = some e) (hh : e.handle = st.handle) :
    DropTcp st c { c.setSlot (slot.putSocket st.handle (.tcp (WayTcpStream.closeIfOpen t))) with
      manager := { c.manager with tcp := c.manager.tcp.replace st.key { e with orphaned := true } } }

theorem DropTcp.evolves (h : DropTcp st c c') (hr : c.Registered streams sessions)
    (hst : st ∈ streams) :
    World.Evolves ⟨c, streams, sessions⟩ ⟨c', streams.erase st, sessions⟩ := by
  cases h with
  | @drop slot t e hs hid hget he hh =>
    have hput := hr.putSocket hs hget (.tcp (WayTcpStream.closeIfOpen t)) rfl
    exact ⟨hput.shaped.congr rfl rfl, hput.tcp.tail (.orphaned hst he), hput.udp⟩

theorem DropTcp.budgeted {owed : ℕ} (h : DropTcp st c c') (hb : c.Budgeted exact owed) :
    c'.Budgeted exact owed := by
  cases h with
  | drop hs hid hget he hh =>
    refine ⟨fun hx => ?_, hb.limit⟩
    have hbal := hb.balance hx
    unfold Core.charge at hbal ⊢
    simp only [len_replace]
    exact hbal

theorem dropStream_ok (hr : c.Registered streams sessions) (hst : st ∈ streams) :
    Ok (Call.Good exact) (st.drop c) fun r => DropTcp st c r.core := by
  obtain ⟨slot, t, e, hs, hs', hid, hget, he, hh⟩ := hr.stream_socket hst
  unfold WayTcpStream.drop WayTcpStream.dropSocket
  simp only [he, hs]
  have hsocket : Ok (Call.Good exact) (do
      let socket ← slot.getTcp st.handle
      pure (c.setSlot (slot.putSocket st.handle (.tcp (WayTcpStream.closeIfOpen socket)))))
      (· = c.setSlot (slot.putSocket st.handle (.tcp (WayTcpStream.closeIfOpen t)))) := by
    refine (InterfaceSlot.getTcp_ok hget).bind ?_
    rintro t rfl
    exact ok_pure rfl
  refine hsocket.bind ?_
  rintro _ rfl
  refine ok_pure ?_
  unfold WayTcpStream.orphan
  simp only [show (c.setSlot (slot.putSocket st.handle
    (.tcp (WayTcpStream.closeIfOpen t)))).manager = c.manager from rfl, he]
  exact .drop hs' hid hget he hh

end Streams

/-! ### Sessions -/

section Sessions

variable {c c' : Core S} {streams : List WayTcpStream} {sessions : List WayUdpSession}
  {ses : WayUdpSession}

theorem isClosed_eq (qs : Queues) (q : QueueRef) :
    Queues.isClosed qs q = ((qs.map (·.closed))[q]?).getD true := by
  unfold Queues.isClosed
  rw [List.getElem?_map]
  cases qs[q]? <;> rfl

/-- The entry of a live session whose queue is open is still there, with its socket. -/
theorem Core.Registered.session_entry (hr : c.Registered streams sessions) (hses : ses ∈ sessions)
    (hopen : c.queues.isClosed ses.queue = false) :
    ∃ e, c.manager.udp.lookup ses.key = some e ∧ e.queue = ses.queue ∧ e.socket = ses.socket := by
  obtain ⟨-, hlt, hentry⟩ := hr.udp.session hses
  apply hentry
  rw [isClosed_eq] at hopen
  have hlt' : ses.queue < (c.queues.map (·.closed)).length := hlt
  rw [List.getElem?_eq_getElem hlt', Option.getD_some] at hopen
  rw [← hopen]
  exact List.getElem?_eq_getElem hlt'

theorem Core.Registered.session_interface (hr : c.Registered streams sessions)
    (hses : ses ∈ sessions) : ses.interface = ses.key.interface := by
  rw [(hr.udp.session hses).1]
  rfl

/-- What an attempt to send does. -/
inductive SendUdp (ses : WayUdpSession) (payload : Bytes) (c : Core S) : Core S × SendOutcome → Prop
  /-- Nothing is sent. -/
  | refused {outcome : SendOutcome} (h : outcome ≠ .sent) : SendUdp ses payload c (c, outcome)
  /-- The datagram is put into the transmit buffer. -/
  | sent {slot : InterfaceSlot S} {u u' : S.Udp} {e : UdpEntry} (hs : c.slot slot.id = some slot)
    (hid : ses.key.interface = slot.id) (hget : slot.sockets.get? ses.socket = some (.udp u))
    (he : c.manager.udp.lookup ses.key = some e) (hsock : e.socket = ses.socket)
    (hsend : S.udpSendSlice u payload ses.target = .ok u') :
    SendUdp ses payload c (c.setSlot (slot.putSocket ses.socket (.udp u')), .sent)

theorem SendUdp.evolves {payload : Bytes} {r : Core S × SendOutcome}
    (h : SendUdp ses payload c r) (hr : c.Registered streams sessions) :
    World.Evolves ⟨c, streams, sessions⟩ ⟨r.1, streams, sessions⟩ := by
  cases h with
  | refused => exact .refl hr
  | sent hs hid hget he hsock hsend => exact hr.putSocket hs hget _ rfl

theorem SendUdp.budgeted {payload : Bytes} {r : Core S × SendOutcome} {owed : ℕ}
    (h : SendUdp ses payload c r) (hb : c.Budgeted exact owed) : r.1.Budgeted exact owed := by
  cases h with
  | refused => exact hb
  | sent hs hid hget he hsock hsend => exact hb.congr rfl rfl rfl

theorem trySend_ok (exact : Prop) (hr : c.Registered streams sessions) (hses : ses ∈ sessions)
    (payload : Bytes) :
    Ok (Call.Good exact) (ses.trySend c payload ses.target) (SendUdp ses payload c) := by
  unfold WayUdpSession.trySend
  split
  · exact ok_pure (.refused (by simp))
  · next hopen =>
    obtain ⟨e, he, hq, hsock⟩ := hr.session_entry hses (by simpa using hopen)
    obtain ⟨slot, u, hs, hget⟩ := Core.exists_udp (hr.udp.entry_named he)
    rw [hsock] at hget
    have hint := hr.session_interface hses
    simp only [show c.slot ses.interface = some slot by rw [hint]; exact hs]
    refine (InterfaceSlot.getUdp_ok hget).bind ?_
    rintro u rfl
    cases hsend : S.udpSendSlice u payload ses.target with
    | ok u' => exact ok_pure (.sent (Core.slot_id hs) (Core.id_of_slot hs).symm hget he hsock hsend)
    | error err =>
      cases err with
      | bufferFull => exact ok_pure (.refused (by simp))
      | unaddressable => exact ok_pure (.refused (by simp))

/-- What dropping a session does to the core: the entry of its key, if there is one,
is ended, and the bytes it gives back are released. -/
inductive DropUdp (ses : WayUdpSession) (c : Core S) : Core S → Prop
  /-- There is no entry under the key. -/
  | gone (hnone : c.manager.udp.lookup ses.key = none) : DropUdp ses c c
  /-- The entry is ended, whosever it is. -/
  | ended {c₁ : Core S} {m : ℕ} (hstep : EndUdp (c, 0) (c₁, m))
    (hlook : ∀ k, c₁.manager.udp.lookup k = if k = ses.key then none else c.manager.udp.lookup k) :
    DropUdp ses c { c₁ with bufferBytes := c₁.bufferBytes - m }

theorem DropUdp.evolves (h : DropUdp ses c c') (hr : c.Registered streams sessions)
    (hses : ses ∈ sessions) :
    World.Evolves ⟨c, streams, sessions⟩ ⟨c', streams, sessions.erase ses⟩ := by
  cases h with
  | gone hnone => exact ⟨hr.shaped, .refl, .single (.dropped hses hnone)⟩
  | @ended c₁ m hstep hlook =>
    have hend : World.Evolves ⟨c, streams, sessions⟩ ⟨c₁, streams, sessions⟩ := hstep.evolves hr
    have hnone : c₁.manager.udp.lookup ses.key = none := by rw [hlook, if_pos rfl]
    exact ⟨hend.shaped.congr rfl rfl, hend.tcp, hend.udp.tail (.dropped hses hnone)⟩

theorem DropUdp.budgeted (h : DropUdp ses c c') (hr : c.Registered streams sessions)
    (hb : c.Budgeted exact 0) : c'.Budgeted exact 0 := by
  cases h with
  | gone hnone => exact hb
  | @ended c₁ m hstep hlook =>
    have hb₁ : c₁.Budgeted exact m := hstep.budgeted hr.shaped hb
    exact hb₁.release

theorem dropSession_ok (hr : c.Registered streams sessions) (hses : ses ∈ sessions)
    (hb : c.Budgeted exact 0) :
    Ok (Call.Good exact) (ses.drop c) fun r => DropUdp ses c r.core := by
  unfold WayUdpSession.drop
  rw [hr.session_interface hses]
  refine (Core.endUdp_ok hr ses.key 0).bind ?_
  rintro ⟨c₁, released⟩ ⟨hstep, hlook⟩
  rcases hstep with ⟨hnone, heq⟩ | hstep
  · cases heq
    exact ok_pure (.gone hnone)
  · rw [Nat.zero_add] at hstep
    cases released with
    | none => exact ok_pure (DropUdp.ended hstep hlook)
    | some bytes =>
      have hb₁ : c₁.Budgeted exact bytes := hstep.budgeted hr.shaped hb
      have hcall : Call.Good exact (.release bytes c₁.bufferBytes) := fun hx => by
        have hbal := hb₁.balance hx
        omega
      have hrelease : Ok (Call.Good exact) (c₁.releaseBuffer bytes)
          (· = { c₁ with bufferBytes := c₁.bufferBytes - bytes }) := ok_call hcall rfl
      refine hrelease.bind ?_
      rintro _ rfl
      exact ok_pure (DropUdp.ended hstep hlook)

end Sessions

/-! ### Steps -/

/-- What a step did. -/
inductive World.Does (w : World S) : Label S → World S → Prop
  | ingress (pkt : IngressPacket) : Does w (.ingress pkt) { w with core := queueIngress w.core pkt }
  | cycle {now : Instant} {polls : InterfaceId → List (PollEvent S)} {r : Cycle S}
    (result : (pollOnce w.core now polls).result = .ok r) (spec : CycleSpec w.core now polls r) :
    Does w (.cycle now polls) (w.afterCycle r)
  | read {st : WayTcpStream} {cx : Waker} {room : ℕ} {c : Core S} (alive : st ∈ w.streams)
    (touch : TouchTcp S.Quiet st w.core c) : Does w (.read st cx room) { w with core := c }
  | write {st : WayTcpStream} {cx : Waker} {data : Bytes} {c : Core S} (alive : st ∈ w.streams)
    (touch : TouchTcp S.Quiet st w.core c) : Does w (.write st cx data) { w with core := c }
  | shutdown {st : WayTcpStream} {c : Core S} (alive : st ∈ w.streams)
    (touch : TouchTcp S.Closes st w.core c) : Does w (.shutdown st) { w with core := c }
  | dropStream {st : WayTcpStream} {c : Core S} (alive : st ∈ w.streams)
    (drop : DropTcp st w.core c) :
    Does w (.dropStream st) { w with core := c, streams := w.streams.erase st }
  | send {ses : WayUdpSession} {payload : Bytes} {r : Core S × SendOutcome} (alive : ses ∈ w.sessions)
    (result : (ses.trySend w.core payload ses.target).result = .ok r)
    (send : SendUdp ses payload w.core r) : Does w (.send ses payload) { w with core := r.1 }
  | recv {ses : WayUdpSession} (alive : ses ∈ w.sessions) :
    Does w (.recv ses) { w with core := (ses.popQueue w.core).1 }
  | dropSession {ses : WayUdpSession} {c : Core S} (alive : ses ∈ w.sessions)
    (drop : DropUdp ses w.core c) :
    Does w (.dropSession ses) { w with core := c, sessions := w.sessions.erase ses }
  | rehash {m : SessionManager} (same : w.core.manager.Rehashed m) :
    Does w (.rehash m) { w with core := { w.core with manager := m } }

section Steps

variable {w w' : World S} {l : Label S}

/-- A cycle that ended well has gone through its pre-pass. -/
theorem prePass_of_pollOnce {c : Core S} {now : Instant} {polls : InterfaceId → List (PollEvent S)}
    {r : Cycle S} (hr : (pollOnce c now polls).result = .ok r) :
    (prePass c now).result = .ok r.admitted := by
  obtain ⟨admitted, hadm, hr⟩ := bind_result_ok.mp hr
  obtain ⟨post, -, hr⟩ := bind_result_ok.mp hr
  cases hr
  exact hadm

/-- What is asked of a cycle at its polls is asked of the core that the pre-pass leaves. -/
theorem World.atPoll_prePass {P : (InterfaceId → List (PollEvent S)) → Core S → Prop} {now : Instant}
    {polls : InterfaceId → List (PollEvent S)} {st : Core S × List Session}
    (hpre : (prePass w.core now).result = .ok st) : w.AtPoll P (.cycle now polls) ↔ P polls st.1 := by
  simp only [AtPoll, AfterPrePass, hpre]

/-- What was asked of a cycle at its polls, of one that ended well. -/
theorem World.atPoll_cycle {P : (InterfaceId → List (PollEvent S)) → Core S → Prop} {now : Instant}
    {polls : InterfaceId → List (PollEvent S)} {r : Cycle S}
    (hr : (pollOnce w.core now polls).result = .ok r) :
    w.AtPoll P (.cycle now polls) ↔ P polls r.admitted.1 := atPoll_prePass (prePass_of_pollOnce hr)

theorem World.AtPoll.imp {P Q : (InterfaceId → List (PollEvent S)) → Core S → Prop}
    (hP : w.AtPoll P l) (hPQ : ∀ polls c, P polls c → Q polls c) : w.AtPoll Q l := by
  cases l with
  | cycle now polls =>
    have hP : World.AfterPrePass (P polls) (prePass w.core now).result := hP
    show World.AfterPrePass (Q polls) (prePass w.core now).result
    cases hr : (prePass w.core now).result with
    | error => trivial
    | ok st =>
      rw [hr] at hP
      exact hPQ polls st.1 hP
  | ingress | read | write | shutdown | dropStream | send | recv | dropSession | rehash => trivial

theorem popQueue_closed (ses : WayUdpSession) (c : Core S) :
    (ses.popQueue c).1.queues.map (·.closed) = c.queues.map (·.closed) := by
  unfold WayUdpSession.popQueue
  cases hq : c.queues[ses.queue]? with
  | none => rfl
  | some q =>
    have hlt := (List.getElem?_eq_some_iff.mp hq)
    simp only [List.map_set]
    obtain ⟨hlt, rfl⟩ := hlt
    apply List.ext_getElem?
    intro i
    rw [List.getElem?_set, List.length_map]
    by_cases hi : ses.queue = i
    · subst hi
      simp [hlt, UdpQueue.pop]
    · simp [hi]

theorem popQueue_frame (ses : WayUdpSession) (c : Core S) :
    (ses.popQueue c).1.slots = c.slots ∧ (ses.popQueue c).1.manager = c.manager ∧
      (ses.popQueue c).1.config = c.config ∧ (ses.popQueue c).1.bufferBytes = c.bufferBytes := by
  unfold WayUdpSession.popQueue
  cases c.queues[ses.queue]? <;> exact ⟨rfl, rfl, rfl, rfl⟩

theorem queueIngress_eq (c : Core S) (pkt : IngressPacket) : queueIngress c pkt = c ∨
    ∃ slot, c.slot slot.id = some slot ∧
      queueIngress c pkt = c.setSlot { slot with device := slot.device.pushIngress pkt.data } := by
  unfold queueIngress
  cases hs : c.slot pkt.interface with
  | none => exact .inl rfl
  | some slot => exact .inr ⟨slot, Core.slot_id hs, rfl⟩

/-- **The accounts can follow every step** from a world in order. -/
theorem World.Does.evolves (hS : S.Lawful) (h : w.Does l w') (hw : w.Registered) : w.Evolves w' := by
  cases h with
  | ingress pkt =>
    rcases queueIngress_eq w.core pkt with heq | ⟨slot, hs, heq⟩
    · simp only [heq]
      exact .refl hw
    · simp only [heq]
      exact Core.Registered.setSlot hw
        { slot with device := slot.device.pushIngress pkt.data } hs rfl rfl
  | cycle result spec => exact spec.evolves hS hw
  | read alive touch => exact touch.evolves hw
  | write alive touch => exact touch.evolves hw
  | shutdown alive touch => exact touch.evolves hw
  | dropStream alive drop => exact drop.evolves hw alive
  | send alive result send => exact send.evolves hw
  | recv alive =>
    obtain ⟨hslots, hm, hc, -⟩ := popQueue_frame _ w.core
    exact Core.Shaped.evolves (hw.shaped.congr (by rw [hslots]) hc) (Core.protoAt_congr hslots) hm
      (popQueue_closed _ _)
  | dropSession alive drop => exact drop.evolves hw alive
  | rehash same =>
    exact ⟨hw.shaped.congr rfl rfl, .single (.rehashed same.tcp),
      .single (.rehashed same.udp same.udpDstSockets)⟩

theorem World.Does.config (h : w.Does l w') : w'.core.config = w.core.config := by
  cases h with
  | ingress pkt =>
    rcases queueIngress_eq w.core pkt with heq | ⟨slot, -, heq⟩
    · simp only [heq]
    · simp only [heq]
      rfl
  | cycle result spec => exact spec.config
  | read alive touch | write alive touch | shutdown alive touch => cases touch <;> rfl
  | dropStream alive drop =>
    cases drop
    rfl
  | send alive result send => cases send <;> rfl
  | recv alive => exact (popQueue_frame _ _).2.2.1
  | dropSession alive drop =>
    cases drop with
    | gone => rfl
    | ended hstep hlook => exact hstep.config
  | rehash same => rfl

/-- **Every step that can be taken ends well.** -/
theorem World.step_ok (hS : S.Lawful) (hx : exact → S.Binds) (hw : w.Registered)
    (hb : w.core.Budgeted exact 0) (hen : w.Enabled l) :
    Ok (Call.Good exact) (w.step l) fun w' => w.Does l w' ∧ w'.core.Budgeted exact 0 := by
  cases l with
  | ingress pkt =>
    refine ok_pure ⟨.ingress pkt, ?_⟩
    rcases queueIngress_eq w.core pkt with heq | ⟨slot, hs, heq⟩
    · simp only [heq]
      exact hb
    · simp only [heq]
      exact hb.congr rfl rfl rfl
  | cycle now polls =>
    have hok := pollOnce_ok hS hx hw hb now polls
    have hres : Ok (Call.Good exact) (pollOnce w.core now polls) fun r =>
        (pollOnce w.core now polls).result = .ok r ∧ CycleSpec w.core now polls r ∧
          r.core.Budgeted exact 0 := by
      obtain ⟨⟨r, hr, hspec⟩, hcalls⟩ := hok
      exact ⟨⟨r, hr, hr, hspec⟩, hcalls⟩
    exact hres.bind fun r hr => ok_pure ⟨.cycle hr.1 hr.2.1, hr.2.2⟩
  | read st cx room =>
    exact (pollRead_ok hS hw hen cx room).bind fun r hr => ok_pure ⟨.read hen hr, hr.budgeted hb⟩
  | write st cx data =>
    exact (pollWrite_ok hS hw hen cx data).bind fun r hr => ok_pure ⟨.write hen hr, hr.budgeted hb⟩
  | shutdown st =>
    exact (pollShutdown_ok hw hen).bind fun r hr => ok_pure ⟨.shutdown hen hr, hr.budgeted hb⟩
  | dropStream st =>
    exact (dropStream_ok hw hen).bind fun r hr => ok_pure ⟨.dropStream hen hr, hr.budgeted hb⟩
  | send ses payload =>
    obtain ⟨⟨r, hr, hsend⟩, hcalls⟩ := trySend_ok exact hw hen payload
    have hres : Ok (Call.Good exact) (ses.trySend w.core payload ses.target) (· = r) :=
      ⟨⟨r, hr, rfl⟩, hcalls⟩
    refine hres.bind ?_
    rintro r rfl
    exact ok_pure ⟨.send hen hr hsend, hsend.budgeted hb⟩
  | recv ses =>
    obtain ⟨-, hm, hc, hn⟩ := popQueue_frame ses w.core
    exact ok_pure ⟨.recv hen, hb.congr hm hc hn⟩
  | dropSession ses =>
    exact (dropSession_ok hw hen hb).bind fun r hr =>
      ok_pure ⟨.dropSession hen hr, hr.budgeted hw hb⟩
  | rehash m =>
    refine ok_pure ⟨.rehash hen, fun hx => ?_, hb.limit⟩
    have hbal := hb.balance hx
    unfold Core.charge at hbal ⊢
    rw [hen.tcp.len, hen.udpDstSockets.len] at hbal
    exact hbal

end Steps

end WayNetstack

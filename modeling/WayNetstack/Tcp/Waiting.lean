import WayNetstack.Registry.Runs

/-!
# When a stream operation waits

`poll_read` and `poll_write` tell from the count of bytes, or from `InvalidState` on an open
socket, that the caller has to wait. Neither sign means that waiting can help: a count of zero
also comes of an empty buffer, and a socket is open in states in which nothing can be sent any
more.

What is seen of the buffers of a socket is told by `StreamBuffers`; its laws say what
`send_slice`, `recv_slice` and `close` do in each of the eleven states. Under them it is settled
for every socket and every buffer of the caller when an operation waits (`pollWrite_pending`,
`pollRead_pending`), and so when it waits only where waiting can help: **`stream_waits_iff`**.
-/

namespace WayNetstack

open Lib Lib.Traced

variable {S : Smoltcp}

/-! ### The states -/

namespace State

/-- `may_send`: bytes are taken for sending. -/
def Sends : State → Prop
  | .established | .closeWait => True
  | _ => False

/-- The connection is still to be made. -/
def Opening : State → Prop
  | .listen | .synSent | .synReceived => True
  | _ => False

/-- The connection is made and the peer has not closed its side. -/
def Receives : State → Prop
  | .established | .finWait1 | .finWait2 => True
  | _ => False

/-- The peer has closed its side. -/
def Finished : State → Prop
  | .closeWait | .closing | .lastAck | .timeWait => True
  | _ => False

/-- The peer may still send. -/
def PeerMaySend (s : State) : Prop := s.Opening ∨ s.Receives

/-- `close` brings a socket in this state to `Closed`, or leaves it in a state that is not open. -/
def ClosesAtOnce : State → Prop
  | .listen | .synSent | .closed | .timeWait => True
  | _ => False

/-- The state after `close`. -/
def afterClose : State → State
  | .listen | .synSent => .closed
  | .synReceived | .established => .finWait1
  | .closeWait => .lastAck
  | s => s

instance : DecidablePred Sends := fun s => by cases s <;> unfold Sends <;> infer_instance

instance : DecidablePred Finished := fun s => by cases s <;> unfold Finished <;> infer_instance

/-- A state in which the peer does not send: it has closed its side, the connection is still to be
made, or there is none. -/
theorem cases_of_not_receives (s : State) (h : ¬s.Receives) : s.Finished ∨ s.Opening ∨ s = .closed := by
  cases s with
  | established | finWait1 | finWait2 => exact absurd trivial h
  | closeWait | closing | lastAck | timeWait => exact .inl trivial
  | listen | synSent | synReceived => exact .inr (.inl trivial)
  | closed => exact .inr (.inr rfl)

theorem Finished.not_opening {s : State} (h : s.Finished) : ¬s.Opening := by
  cases s <;> first | exact id | exact h.elim

end State

/-! ### The buffers -/

/-- What is seen of the buffers of TCP sockets: the bytes received and those still to be sent. -/
structure StreamBuffers (S : Smoltcp) where
  rx : S.Tcp → Bytes
  tx : S.Tcp → Bytes

namespace StreamBuffers

variable (B : StreamBuffers S)

/-- The room in the transmit buffer. -/
def free (t : S.Tcp) : ℕ := (S.tcpCapacity t).2 - (B.tx t).length

/-- `may_recv`: the peer has not closed its side, or something is left to be read. -/
def MayRecv (t : S.Tcp) : Prop := (S.tcpState t).Receives ∨ B.rx t ≠ []

/-- What `send_slice`, `recv_slice` and `close` do. -/
structure Lawful : Prop where
  sendSlice_ok : ∀ t b, (S.tcpState t).Sends → ∃ t', S.tcpSendSlice t b = .ok (min (B.free t) b.length, t')
  sendSlice_error : ∀ t b, ¬(S.tcpState t).Sends → S.tcpSendSlice t b = .error .invalidState
  recvSlice_ok : ∀ t n, B.MayRecv t → ∃ t', S.tcpRecvSlice t n = .ok ((B.rx t).take n, t')
  recvSlice_finished : ∀ t n, ¬B.MayRecv t → (S.tcpState t).Finished → S.tcpRecvSlice t n = .error .finished
  recvSlice_opening : ∀ t n, ¬B.MayRecv t → (S.tcpState t).Opening → S.tcpRecvSlice t n = .error .invalidState
  recvSlice_closed : ∀ t n, ¬B.MayRecv t → S.tcpState t = .closed → ∃ err, S.tcpRecvSlice t n = .error err
  tcpClose_state : ∀ t, S.tcpState (S.tcpClose t) = (S.tcpState t).afterClose

/-- `poll_write` of `data` has waited only where waiting can help: the transmit buffer is full and
something can be sent later; and not for an empty buffer on an open stream. -/
def WriteHelped (t : S.Tcp) (data : Bytes) (value : Poll (Except IoError ℕ)) : Prop :=
  (value = .pending → B.free t = 0 ∧ ((S.tcpState t).Sends ∨ (S.tcpState t).Opening)) ∧
    (data = [] → S.tcpIsOpen t = true → value ≠ .pending)

/-- `poll_read` into `room` bytes has waited only where waiting can help: nothing has been received
and the peer may still send; and not for an empty buffer on an open stream. -/
def ReadHelped (t : S.Tcp) (room : ℕ) (value : Poll (Except IoError Bytes)) : Prop :=
  (value = .pending → B.rx t = [] ∧ (S.tcpState t).PeerMaySend) ∧
    (room = 0 → S.tcpIsOpen t = true → value ≠ .pending)

/-- The stream is closed; or there is something to write, and this side can send or, with its buffer
full, will once the connection is made. -/
def Writes (t : S.Tcp) (data : Bytes) : Prop :=
  S.tcpIsOpen t = false ∨
    data ≠ [] ∧ ((S.tcpState t).Sends ∨ (S.tcpState t).Opening ∧ B.free t = 0)

/-- There is room to read into; or nothing is left to be read and nothing will come. -/
def Reads (t : S.Tcp) (room : ℕ) : Prop :=
  room ≠ 0 ∨ B.rx t = [] ∧ ¬(S.tcpState t).PeerMaySend

end StreamBuffers

section Operations

variable {B : StreamBuffers S} {c : Core S} {st : WayTcpStream} {slot : InterfaceSlot S} {t : S.Tcp}

/-- A socket that is being connected, or whose peer may be sent to or heard, is open. -/
theorem isOpen_of_live (hS : S.Lawful) (h : (S.tcpState t).Sends ∨ (S.tcpState t).PeerMaySend) :
    S.tcpIsOpen t = true := by
  rw [← Bool.not_eq_false, hS.tcpIsOpen_iff]
  rintro (hstate | hstate) <;> rw [hstate] at h <;> rcases h with h | h | h <;> exact h

/-- **When `poll_write` waits**, and when it fails. -/
theorem pollWrite_pending (hB : B.Lawful) (hs : c.slot st.interface = some slot)
    (hget : slot.sockets.get? st.handle = some (.tcp t)) (cx : Waker) (data : Bytes) :
    Ok (Call.Good True) (st.pollWrite c cx data) fun r =>
      (r.value = .pending ↔ (S.tcpState t).Sends ∧ min (B.free t) data.length = 0 ∨
        ¬(S.tcpState t).Sends ∧ S.tcpIsOpen t = true) ∧
      ((∃ err, r.value = .ready (.error err)) ↔ ¬(S.tcpState t).Sends ∧ S.tcpIsOpen t = false) := by
  unfold WayTcpStream.pollWrite
  simp only [hs]
  refine (InterfaceSlot.getTcp_ok hget).bind ?_
  rintro t rfl
  by_cases hsends : (S.tcpState t).Sends
  · obtain ⟨t', ht'⟩ := hB.sendSlice_ok t data hsends
    simp only [ht']
    split
    · next hpos =>
      refine ok_pure ⟨iff_of_false nofun ?_, iff_of_false ?_ fun h => h.1 hsends⟩
      · rintro (⟨-, hmin⟩ | ⟨h, -⟩)
        · exact absurd hmin hpos.ne'
        · exact h hsends
      · rintro ⟨err, herr⟩
        cases herr
    · next hzero =>
      refine ok_pure ⟨iff_of_true rfl (.inl ⟨hsends, Nat.eq_zero_of_not_pos hzero⟩), iff_of_false ?_ fun h =>
        h.1 hsends⟩
      rintro ⟨err, herr⟩
      cases herr
  · simp only [hB.sendSlice_error t data hsends]
    split
    · next hopen => exact ok_pure (by simp [hsends, hopen])
    · next hopen => exact ok_pure (by simp [hsends, hopen])

/-- **When `poll_read` waits.** -/
theorem pollRead_pending (hS : S.Lawful) (hB : B.Lawful) (hs : c.slot st.interface = some slot)
    (hget : slot.sockets.get? st.handle = some (.tcp t)) (cx : Waker) (room : ℕ) :
    Ok (Call.Good True) (st.pollRead c cx room) fun r =>
      (r.value = .pending ↔ B.MayRecv t ∧ (B.rx t).take room = [] ∨
        ¬B.MayRecv t ∧ (S.tcpState t).Opening) := by
  unfold WayTcpStream.pollRead
  simp only [hs]
  refine (InterfaceSlot.getTcp_ok hget).bind ?_
  rintro t rfl
  by_cases hrecv : B.MayRecv t
  · obtain ⟨t', ht'⟩ := hB.recvSlice_ok t room hrecv
    simp only [ht']
    split
    · next hpos => exact ok_pure (by simp [hrecv, List.ne_nil_of_length_pos hpos])
    · next hzero => exact ok_pure (by simp [hrecv, List.eq_nil_of_length_eq_zero (Nat.eq_zero_of_not_pos hzero)])
  -- nothing can be read: the state tells why
  have hready : ∀ {value : Except IoError Bytes}, ¬(S.tcpState t).Opening →
      ((Poll.ready value = .pending) ↔ B.MayRecv t ∧ (B.rx t).take room = [] ∨
        ¬B.MayRecv t ∧ (S.tcpState t).Opening) :=
    fun hnot => iff_of_false nofun fun h => h.elim (fun h => hrecv h.1) fun h => hnot h.2
  rcases State.cases_of_not_receives (S.tcpState t) fun h => hrecv (.inl h) with hfin | hopening | hclosed
  · simp only [hB.recvSlice_finished t room hrecv hfin]
    exact ok_pure (hready (State.Finished.not_opening hfin))
  · simp only [hB.recvSlice_opening t room hrecv hopening]
    split
    · exact ok_pure (iff_of_true rfl (.inr ⟨hrecv, hopening⟩))
    · next hopen =>
      rw [Bool.not_eq_true, hS.tcpIsOpen_iff] at hopen
      rcases hopen with h | h <;> rw [h] at hopening <;> exact hopening.elim
  · have hnot : ¬(S.tcpState t).Opening := by
      rw [hclosed]
      exact id
    obtain ⟨err, herr⟩ := hB.recvSlice_closed t room hrecv hclosed
    simp only [herr]
    cases err with
    | finished => exact ok_pure (hready hnot)
    | invalidState =>
      simp only [(hS.tcpIsOpen_iff t).mpr (.inl hclosed), Bool.false_eq_true, if_false]
      exact ok_pure (hready hnot)

theorem writeHelped_iff (hS : S.Lawful) {data : Bytes} {value : Poll (Except IoError ℕ)}
    (hp : value = .pending ↔ (S.tcpState t).Sends ∧ min (B.free t) data.length = 0 ∨
      ¬(S.tcpState t).Sends ∧ S.tcpIsOpen t = true) : B.WriteHelped t data value ↔ B.Writes t data := by
  unfold StreamBuffers.WriteHelped StreamBuffers.Writes
  rw [Ne, hp]
  constructor
  · rintro ⟨hwait, hempty⟩
    cases hopen : S.tcpIsOpen t with
    | false => exact .inl rfl
    | true =>
      refine .inr ⟨fun hdata => hempty hdata hopen ?_, ?_⟩
      · by_cases hsends : (S.tcpState t).Sends
        · exact .inl ⟨hsends, by rw [hdata]; exact Nat.min_zero _⟩
        · exact .inr ⟨hsends, hopen⟩
      · by_cases hsends : (S.tcpState t).Sends
        · exact .inl hsends
        · obtain ⟨hfull, hlater⟩ := hwait (.inr ⟨hsends, hopen⟩)
          exact .inr ⟨hlater.resolve_left hsends, hfull⟩
  · rintro (hclosed | ⟨hdata, hcan⟩)
    · -- a closed stream does not wait
      have hnot : ¬((S.tcpState t).Sends ∧ min (B.free t) data.length = 0 ∨
          ¬(S.tcpState t).Sends ∧ S.tcpIsOpen t = true) := by
        rw [hclosed]
        rintro (⟨hsends, -⟩ | ⟨-, h⟩)
        · cases hclosed.symm.trans (isOpen_of_live hS (.inl hsends))
        · cases h
      exact ⟨fun h => absurd h hnot, fun _ _ => hnot⟩
    · refine ⟨?_, fun h => absurd h hdata⟩
      rintro (⟨hsends, hmin⟩ | ⟨hsends, -⟩)
      · have hlen := List.length_pos_of_ne_nil hdata
        exact ⟨by omega, .inl hsends⟩
      · obtain ⟨hopening, hfull⟩ := hcan.resolve_left hsends
        exact ⟨hfull, .inr hopening⟩

theorem readHelped_iff (hS : S.Lawful) {room : ℕ} {value : Poll (Except IoError Bytes)}
    (hp : value = .pending ↔ B.MayRecv t ∧ (B.rx t).take room = [] ∨
      ¬B.MayRecv t ∧ (S.tcpState t).Opening) : B.ReadHelped t room value ↔ B.Reads t room := by
  unfold StreamBuffers.ReadHelped StreamBuffers.Reads
  rw [Ne, hp]
  constructor
  · rintro ⟨hwait, hempty⟩
    by_cases hroom : room = 0
    · -- with no room every wait is in vain, so the stream is not open
      refine .inr ?_
      subst hroom
      have hnot : ¬B.MayRecv t := by
        intro hrecv
        obtain ⟨-, hpeer⟩ := hwait (.inl ⟨hrecv, rfl⟩)
        exact hempty rfl (isOpen_of_live hS (.inr hpeer)) (.inl ⟨hrecv, rfl⟩)
      refine ⟨by_contra fun hrx => hnot (.inr hrx), ?_⟩
      rintro (hopening | hreceives)
      · exact hempty rfl (isOpen_of_live hS (.inr (.inl hopening))) (.inr ⟨hnot, hopening⟩)
      · exact hnot (.inl hreceives)
    · exact .inl hroom
  · rintro (hroom | ⟨hrx, hpeer⟩)
    · refine ⟨?_, fun h => absurd h hroom⟩
      rintro (⟨hrecv, htake⟩ | ⟨hrecv, hopening⟩)
      · have hrx : B.rx t = [] := (List.take_eq_nil_iff.mp htake).resolve_left hroom
        exact ⟨hrx, .inr (hrecv.resolve_right fun h => h hrx)⟩
      · exact ⟨by_contra fun hrx => hrecv (.inr hrx), .inl hopening⟩
    · have hnot : ¬(B.MayRecv t ∧ (B.rx t).take room = [] ∨ ¬B.MayRecv t ∧ (S.tcpState t).Opening) := by
        rintro (⟨hrecv, -⟩ | ⟨-, hopening⟩)
        · exact hrecv.elim (fun h => hpeer (.inr h)) fun h => h hrx
        · exact hpeer (.inl hopening)
      exact ⟨fun h => absurd h hnot, fun _ _ => hnot⟩

/-- A socket that has been closed is no longer open just when `close` closes it at once. -/
theorem closeIfOpen_isOpen (hS : S.Lawful) (hB : B.Lawful) (t : S.Tcp) :
    S.tcpIsOpen (WayTcpStream.closeIfOpen t) = false ↔ (S.tcpState t).ClosesAtOnce := by
  unfold WayTcpStream.closeIfOpen
  cases hopen : S.tcpIsOpen t with
  | false =>
    simp only [Bool.false_eq_true, if_false, hopen, true_iff]
    rcases (hS.tcpIsOpen_iff t).mp hopen with h | h <;> rw [h] <;> trivial
  | true =>
    have hstate := (hS.tcpIsOpen_iff t).not.mp (by simp [hopen])
    simp only [if_true]
    rw [hS.tcpIsOpen_iff, hB.tcpClose_state]
    cases h : S.tcpState t <;> simp_all [State.afterClose, State.ClosesAtOnce]

/-- The socket of a stream that has been shut down. -/
theorem pollShutdown_socket (hs : c.slot st.interface = some slot)
    (hget : slot.sockets.get? st.handle = some (.tcp t)) :
    Ok (Call.Good True) (st.pollShutdown c) fun r => ∃ slot', r.core.slot st.interface = some slot' ∧
      slot'.sockets.get? st.handle = some (.tcp (WayTcpStream.closeIfOpen t)) := by
  unfold WayTcpStream.pollShutdown
  simp only [hs]
  refine (InterfaceSlot.getTcp_ok hget).bind ?_
  rintro t rfl
  have hself : c.slot (slot.putSocket st.handle (.tcp (WayTcpStream.closeIfOpen t))).id = some slot :=
    Core.slot_id hs
  refine ok_pure ⟨slot.putSocket st.handle (.tcp (WayTcpStream.closeIfOpen t)), ?_, ?_⟩
  · rw [Core.slot_setSlot hself]
    exact if_pos (Core.id_of_slot hs).symm
  · exact (Slab.get?_put hget _ _).trans (if_pos rfl)

/-- **When stream operations wait only where waiting can help.** For every state of the socket, every
contents of its buffers and every buffer of the caller, the empty one included:
a write does so just when the stream is closed, or there is something to write and this side can
send, or will and has its buffer full; a read does so just when there is room to read into, or
nothing is left to be read and nothing will come; and a write after a shutdown fails just when
`close` closed the socket at once. -/
theorem stream_waits_iff (hS : S.Lawful) (hB : B.Lawful) (hs : c.slot st.interface = some slot)
    (hget : slot.sockets.get? st.handle = some (.tcp t)) (cx : Waker) (data : Bytes) (room : ℕ) :
    (∃ r, (st.pollWrite c cx data).result = .ok r ∧ (B.WriteHelped t data r.value ↔ B.Writes t data)) ∧
    (∃ r, (st.pollRead c cx room).result = .ok r ∧ (B.ReadHelped t room r.value ↔ B.Reads t room)) ∧
    (∃ r r', (st.pollShutdown c).result = .ok r ∧ (st.pollWrite r.core cx data).result = .ok r' ∧
      ((∃ err, r'.value = .ready (.error err)) ↔ (S.tcpState t).ClosesAtOnce)) := by
  refine ⟨?_, ?_, ?_⟩
  · obtain ⟨⟨r, hr, hp, -⟩, -⟩ := pollWrite_pending hB hs hget cx data
    exact ⟨r, hr, writeHelped_iff hS hp⟩
  · obtain ⟨⟨r, hr, hp⟩, -⟩ := pollRead_pending hS hB hs hget cx room
    exact ⟨r, hr, readHelped_iff hS hp⟩
  · obtain ⟨⟨r, hr, slot', hs', hget'⟩, -⟩ := pollShutdown_socket hs hget
    obtain ⟨⟨r', hr', -, herr⟩, -⟩ := pollWrite_pending hB hs' hget' cx data
    refine ⟨r, r', hr, hr', herr.trans ?_⟩
    rw [← closeIfOpen_isOpen hS hB]
    refine ⟨fun h => h.2, fun hclosed => ⟨fun hsends => ?_, hclosed⟩⟩
    cases hclosed.symm.trans (isOpen_of_live hS (.inl hsends))

end Operations

namespace Reference

/-- The buffers of the reference engine's sockets. -/
def buffers : StreamBuffers reference := ⟨Tcp.rx, Tcp.tx⟩

theorem Tcp.mayRecv_iff (t : Tcp) : t.mayRecv = true ↔ buffers.MayRecv t := by
  show _ ↔ t.state.Receives ∨ t.rx ≠ []
  unfold mayRecv State.Receives
  cases t.state <;> simp

theorem Tcp.sends_iff (s : State) : s = .established ∨ s = .closeWait ↔ s.Sends := by
  unfold State.Sends
  cases s <;> simp

theorem Tcp.sendSlice_sends {t : Tcp} (b : Bytes) (h : t.state.Sends) :
    ∃ t', t.sendSlice b = .ok (min (t.capacity.2 - t.tx.length) b.length, t') := by
  rw [sendSlice, if_pos ((sends_iff _).mpr h), Nat.min_comm]
  exact ⟨_, rfl⟩

theorem Tcp.recvSlice_mayRecv {t : Tcp} (n : ℕ) (h : buffers.MayRecv t) :
    ∃ t', t.recvSlice n = .ok (t.rx.take n, t') := by
  rw [recvSlice, if_pos ((mayRecv_iff t).mpr h)]
  exact ⟨_, rfl⟩

theorem Tcp.recvSlice_not_mayRecv {t : Tcp} (n : ℕ) (h : ¬buffers.MayRecv t) :
    t.recvSlice n = .error (if t.state.Finished then .finished else .invalidState) := by
  rw [recvSlice, if_neg fun hrecv => h ((mayRecv_iff t).mp hrecv)]
  cases t.state <;> rfl

theorem buffers_lawful : buffers.Lawful where
  sendSlice_ok := fun _ b hsends => Tcp.sendSlice_sends b hsends
  sendSlice_error := fun t b hsends => if_neg fun h => hsends ((Tcp.sends_iff _).mp h)
  recvSlice_ok := fun _ n hrecv => Tcp.recvSlice_mayRecv n hrecv
  recvSlice_finished := fun _ n hrecv hfin =>
    (Tcp.recvSlice_not_mayRecv n hrecv).trans (congrArg _ (if_pos hfin))
  recvSlice_opening := fun _ n hrecv hopening =>
    (Tcp.recvSlice_not_mayRecv n hrecv).trans (congrArg _ (if_neg fun hfin => hfin.not_opening hopening))
  recvSlice_closed := fun _ n hrecv _ => ⟨_, Tcp.recvSlice_not_mayRecv n hrecv⟩
  tcpClose_state := by
    intro t
    show Tcp.closeState (Tcp.state t) = (Tcp.state t).afterClose
    cases Tcp.state t <;> rfl

/-- A connected socket with a byte to be read. -/
def unread : reference.Tcp :=
  (⟨.established, some (server, client), ⟨some server.addr, server.port⟩, (16384, 16384), [7], []⟩ : Tcp)

/-- A client connects and sends a byte. -/
def connectAndSend : List (Label reference) :=
  [fromClient client syn, cycle 0 [takes 0 (connected 16384 client .synReceived)], fromClient client ack,
    cycle 1 [takes 0 unread]]

/-- The socket of the stream is `unread`. -/
def holdsUnread (c : Core reference) (st : WayTcpStream) : Bool :=
  (c.slot st.interface).any fun slot => decide (slot.sockets.get? st.handle = some (.tcp unread))

/-- The stream of the client that has sent a byte. -/
theorem exists_unread : ∃ w : World reference, World.AnyRun (trial .default) w ∧
    ∃ st ∈ w.streams, ∃ slot, w.core.slot st.interface = some slot ∧
      slot.sockets.get? st.handle = some (.tcp unread) := by
  obtain ⟨w, hw, hcheck⟩ := World.exists_of_run (fun _ _ => True) (trial .default) connectAndSend
    (fun w => w.streams.any (holdsUnread w.core)) (by decide +kernel)
  obtain ⟨st, hst, hcheck⟩ := List.any_eq_true.mp hcheck
  obtain ⟨slot, hs, hget⟩ := (Option.any_eq_true _ _).mp hcheck
  exact ⟨w, hw, st, hst, slot, hs, of_decide_eq_true hget⟩

end Reference

open Reference in
/-- A byte is written to, and read from, the stream of the client. -/
theorem stream_waits_iff_unread : ∃ w : World reference, World.AnyRun (trial .default) w ∧
    ∃ st ∈ w.streams,
      (∃ r, (st.pollWrite w.core 0 [1]).result = .ok r ∧ buffers.WriteHelped unread [1] r.value) ∧
      (∃ r, (st.pollRead w.core 0 1).result = .ok r ∧ buffers.ReadHelped unread 1 r.value) := by
  obtain ⟨w, hw, st, hst, slot, hs, hget⟩ := exists_unread
  obtain ⟨⟨r, hr, hwrite⟩, ⟨r', hr', hread⟩, -⟩ :=
    stream_waits_iff reference_lawful buffers_lawful hs hget 0 [1] 1
  exact ⟨w, hw, st, hst, ⟨r, hr, hwrite.mpr (.inr ⟨by decide, .inl trivial⟩)⟩, r', hr',
    hread.mpr (.inl (by decide))⟩

open Reference in
/-- **Operations that wait in vain.** The stream of a client is established, its transmit buffer is
empty and a byte has come. A write of no bytes waits; a read into no room waits; and after a
shutdown a write waits, in a state in which nothing can be sent any more. -/
theorem stream_waits_in_vain : ∃ w : World reference, World.AnyRun (trial .default) w ∧
    ∃ st ∈ w.streams, ∃ slot, w.core.slot st.interface = some slot ∧
      slot.sockets.get? st.handle = some (.tcp unread) ∧ reference.tcpState unread = .established ∧
      buffers.free unread = 16384 ∧ buffers.rx unread = [7] ∧
      (∃ r, (st.pollWrite w.core 0 []).result = .ok r ∧ r.value = .pending) ∧
      (∃ r, (st.pollRead w.core 0 0).result = .ok r ∧ r.value = .pending) ∧
      (∃ r r', (st.pollShutdown w.core).result = .ok r ∧ (st.pollWrite r.core 0 [1]).result = .ok r' ∧
        r'.value = .pending) := by
  obtain ⟨w, hw, st, hst, slot, hs, hget⟩ := exists_unread
  refine ⟨w, hw, st, hst, slot, hs, hget, rfl, rfl, rfl, ?_, ?_, ?_⟩
  · obtain ⟨⟨r, hr, hp, -⟩, -⟩ := pollWrite_pending buffers_lawful hs hget 0 []
    exact ⟨r, hr, hp.mpr (.inl ⟨trivial, rfl⟩)⟩
  · obtain ⟨⟨r, hr, hp⟩, -⟩ := pollRead_pending reference_lawful buffers_lawful hs hget 0 0
    exact ⟨r, hr, hp.mpr (.inl ⟨.inl trivial, rfl⟩)⟩
  · obtain ⟨⟨r, hr, slot', hs', hget'⟩, -⟩ := pollShutdown_socket hs hget
    obtain ⟨⟨r', hr', hp, -⟩, -⟩ := pollWrite_pending buffers_lawful hs' hget' 0 [1]
    exact ⟨r, r', hr, hr', hp.mpr (.inr ⟨id, rfl⟩)⟩

end WayNetstack

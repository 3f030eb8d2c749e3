import WayNetstack.Tcp.Streams

/-!
# The bytes of a stream

What the application reads from a stream and writes to it, against what the engine puts into
the receive buffer of the connection's socket and takes from its transmit buffer. Sockets are
kept in a pool and used again; `listen` empties their buffers, so a new connection starts with
none of the bytes of an old one.

A socket that has waited for its time in `TimeWait` is reset, and what was not read by then is
gone. `stream_bytes_conserved`: **until the application shuts the stream down, no byte is lost,
duplicated, reordered or taken from another connection**, in either direction. `eof_after_all`:
the end of a stream is reported when everything has been read.
-/

namespace WayNetstack

open Lib Lib.Traced WayTcpStream

variable {S : Smoltcp}

/-! ### What the calls do to the bytes -/

/-- What the calls do to the bytes in the buffers of a socket. -/
structure StreamBuffers.Flows (B : StreamBuffers S) : Prop where
  /-- `listen` empties the buffers. -/
  listen : ∀ {t ep t'}, S.tcpListen t ep = .ok t' → B.rx t' = [] ∧ B.tx t' = []
  /-- `recv_slice` takes bytes from the front of the receive buffer. -/
  recv : ∀ {t n r}, S.tcpRecvSlice t n = .ok r → B.rx t = r.1 ++ B.rx r.2 ∧ B.tx r.2 = B.tx t
  /-- `send_slice` puts bytes behind those in the transmit buffer. -/
  send : ∀ {t b r}, S.tcpSendSlice t b = .ok r → B.rx r.2 = B.rx t ∧ B.tx r.2 = B.tx t ++ b.take r.1
  close : ∀ t, B.rx (S.tcpClose t) = B.rx t ∧ B.tx (S.tcpClose t) = B.tx t
  recvWaker : ∀ t cx, B.rx (S.tcpRegisterRecvWaker t cx) = B.rx t ∧ B.tx (S.tcpRegisterRecvWaker t cx) = B.tx t
  sendWaker : ∀ t cx, B.rx (S.tcpRegisterSendWaker t cx) = B.rx t ∧ B.tx (S.tcpRegisterSendWaker t cx) = B.tx t

/-- The engine has reset a socket whose time in `TimeWait` is over. -/
def StreamBuffers.Reset (B : StreamBuffers S) (t t' : S.Tcp) : Prop :=
  S.tcpState t = .timeWait ∧ S.tcpState t' = .closed ∧ B.rx t' = [] ∧ B.tx t' = []

instance (B : StreamBuffers S) (t t' : S.Tcp) : Decidable (B.Reset t t') :=
  inferInstanceAs (Decidable (_ ∧ _ ∧ _ ∧ _))

/-- What an event does to the bytes of a TCP socket: some are put behind those received, some
are taken from the front of those to be sent; or the socket is reset. A closed socket stays as
it is, and only a call closes this side. -/
def InterfaceSlot.Streams (B : StreamBuffers S) (slot : InterfaceSlot S) (e : PollEvent S) : Prop :=
  slot.KeepsSide e ∧ ∀ x ∈ e.touches, ∀ t ∈ slot.tcpAt x.1, ∀ t' ∈ x.2.tcp?,
    (S.tcpState t = .closed → S.tcpState t' = .closed ∧ B.rx t' = B.rx t ∧ B.tx t' = B.tx t) ∧
      (B.rx t <+: B.rx t' ∧ B.tx t' <:+ B.tx t ∨ B.Reset t t')

instance (B : StreamBuffers S) (slot : InterfaceSlot S) (e : PollEvent S) : Decidable (slot.Streams B e) :=
  inferInstanceAs (Decidable (_ ∧ ∀ x ∈ e.touches, _))

/-! ### What is noted -/

/-- The bytes that `poll_read` has returned. -/
def Poll.bytes : Poll (Except IoError Bytes) → Bytes
  | .ready (.ok data) => data
  | _ => []

/-- How many bytes `poll_write` has accepted. -/
def Poll.count : Poll (Except IoError ℕ) → ℕ
  | .ready (.ok n) => n
  | _ => 0

/-- The bytes that have gone through a stream. -/
structure Traffic where
  /-- The bytes that the engine has put into the receive buffer. -/
  delivered : Bytes
  /-- The bytes that `poll_read` has returned. -/
  read : Bytes
  /-- The bytes that `poll_write` has accepted. -/
  written : Bytes
  /-- The bytes that the engine has taken from the transmit buffer. -/
  taken : Bytes
  /-- Whether the stream has been shut down or dropped. -/
  shut : Bool

namespace Traffic

/-- Nothing has gone through yet. -/
def empty : Traffic := ⟨[], [], [], [], false⟩

/-- An operation on the stream. -/
def use (f : Traffic) (t : S.Tcp) : Label S → Traffic
  | .read _ cx room => { f with read := f.read ++ (readTcp t cx room).2.bytes }
  | .write _ cx data => { f with written := f.written ++ data.take (writeTcp t cx data).2.count }
  | .shutdown _ | .dropStream _ => { f with shut := true }
  | _ => f

/-- An event of the engine; what is in the buffers when a socket is reset is not delivered. -/
def event (B : StreamBuffers S) (t t' : S.Tcp) (f : Traffic) : Traffic :=
  if B.Reset t t' then f
  else { f with
    delivered := f.delivered ++ (B.rx t').drop (B.rx t).length
    taken := f.taken ++ (B.tx t).take ((B.tx t).length - (B.tx t').length) }

theorem event_self (B : StreamBuffers S) (t : S.Tcp) (f : Traffic) : f.event B t t = f := by
  unfold event
  split
  · rfl
  · simp

/-- Nothing is missing: what was delivered was read or is in the receive buffer, and what was
written was taken or is in the transmit buffer. -/
def Whole (B : StreamBuffers S) (f : Traffic) (t : S.Tcp) : Prop :=
  f.delivered = f.read ++ B.rx t ∧ f.written = f.taken ++ B.tx t

/-- The socket has been reset, after the stream was shut down. -/
structure Cut (B : StreamBuffers S) (f : Traffic) (t : S.Tcp) : Prop where
  shut : f.shut = true
  closed : S.tcpState t = .closed
  rx : B.rx t = []
  tx : B.tx t = []
  read : f.read <+: f.delivered
  taken : f.taken <+: f.written

/-- What holds of a flow and the socket it goes through. -/
def Fits (B : StreamBuffers S) (f : Traffic) (p : Conn S) : Prop :=
  (f.shut = false → (S.tcpState p.2).Passive) ∧ (f.Whole B p.2 ∨ f.Cut B p.2)

theorem Fits.whole {B : StreamBuffers S} {f : Traffic} {p : Conn S} (h : f.Fits B p) (hopen : f.shut = false) :
    f.Whole B p.2 :=
  h.2.resolve_right fun hcut => absurd (hopen.symm.trans hcut.shut) (by decide)

end Traffic

/-- The watch of the bytes. -/
def trafficWatch (B : StreamBuffers S) : Watch S Traffic where
  start := .empty
  use l t f := f.use t l
  event t t' f := f.event B t t'
  event_self t f := f.event_self B t

/-! ### Every step keeps the bytes together -/

section Steps

variable {B : StreamBuffers S} {t t' : S.Tcp} {f : Traffic}

/-- A read takes from the front of the receive buffer what it returns. -/
theorem readTcp_flows (hF : B.Flows) (t : S.Tcp) (cx : Waker) (room : ℕ) :
    B.rx t = (readTcp t cx room).2.bytes ++ B.rx (readTcp t cx room).1 ∧ B.tx (readTcp t cx room).1 = B.tx t := by
  unfold readTcp
  cases hrecv : S.tcpRecvSlice t room with
  | ok r =>
    obtain ⟨hrx, htx⟩ := hF.recv hrecv
    dsimp only
    split
    · exact ⟨hrx, htx⟩
    · next hlen =>
      obtain ⟨hrx', htx'⟩ := hF.recvWaker r.2 cx
      have hnil : r.1 = [] := List.eq_nil_of_length_eq_zero (Nat.eq_zero_of_not_pos hlen)
      exact ⟨by rw [hrx, hnil, hrx']; rfl, htx'.trans htx⟩
  | error err =>
    cases err with
    | finished => exact ⟨rfl, rfl⟩
    | invalidState =>
      dsimp only
      split
      · obtain ⟨hrx', htx'⟩ := hF.recvWaker t cx
        exact ⟨hrx'.symm, htx'⟩
      · exact ⟨rfl, rfl⟩

/-- A write puts behind the transmit buffer what it accepts. -/
theorem writeTcp_flows (hF : B.Flows) (t : S.Tcp) (cx : Waker) (data : Bytes) :
    B.rx (writeTcp t cx data).1 = B.rx t ∧
      B.tx (writeTcp t cx data).1 = B.tx t ++ data.take (writeTcp t cx data).2.count := by
  unfold writeTcp
  cases hsend : S.tcpSendSlice t data with
  | ok r =>
    obtain ⟨hrx, htx⟩ := hF.send hsend
    dsimp only
    split
    · exact ⟨hrx, htx⟩
    · next hzero =>
      obtain ⟨hrx', htx'⟩ := hF.sendWaker r.2 cx
      have hcount : r.1 = 0 := Nat.eq_zero_of_not_pos hzero
      exact ⟨hrx'.trans hrx, by rw [htx', htx, hcount]; rfl⟩
  | error err =>
    cases err with
    | invalidState =>
      dsimp only
      split
      · obtain ⟨hrx', htx'⟩ := hF.sendWaker t cx
        exact ⟨hrx', by rw [htx']; exact (List.append_nil _).symm⟩
      · exact ⟨rfl, (List.append_nil _).symm⟩

/-- A write to a closed socket is refused. -/
theorem writeTcp_closed (hS : S.Lawful) (hB : B.Lawful) (hc : S.tcpState t = .closed) (cx : Waker) (data : Bytes) :
    writeTcp t cx data = (t, .ready (.error ⟨.brokenPipe, "connection closed"⟩)) := by
  have hsends : ¬(S.tcpState t).Sends := by
    rw [hc]
    exact id
  have hopen : S.tcpIsOpen t = false := (hS.tcpIsOpen_iff t).mpr (.inl hc)
  simp [writeTcp, hB.sendSlice_error t data hsends, hopen]

theorem closeIfOpen_closed (hS : S.Lawful) (hc : S.tcpState t = .closed) : closeIfOpen t = t := by
  have hopen : S.tcpIsOpen t = false := (hS.tcpIsOpen_iff t).mpr (.inl hc)
  simp [closeIfOpen, hopen]

theorem closeIfOpen_flows (hF : B.Flows) (t : S.Tcp) :
    B.rx (closeIfOpen t) = B.rx t ∧ B.tx (closeIfOpen t) = B.tx t := by
  unfold closeIfOpen
  split
  · exact hF.close t
  · exact ⟨rfl, rfl⟩

namespace Traffic

variable {p : Conn S} {l : Label S}

theorem Fits.read (hS : S.Lawful) (hF : B.Flows) (h : f.Fits B p) (cx : Waker) (room : ℕ) :
    Fits B { f with read := f.read ++ (readTcp p.2 cx room).2.bytes } (p.1, (readTcp p.2 cx room).1) := by
  obtain ⟨hrx, htx⟩ := readTcp_flows hF p.2 cx room
  have hstate := (readTcp_quiet hS p.2 cx room).state
  refine ⟨fun hopen => hstate ▸ h.1 hopen, ?_⟩
  rcases h.2 with hwhole | hcut
  · refine .inl ⟨?_, htx ▸ hwhole.2⟩
    show f.delivered = f.read ++ _ ++ _
    rw [List.append_assoc, ← hrx]
    exact hwhole.1
  · -- nothing is left to be read
    have hnil := List.append_eq_nil_iff.mp (hrx.symm.trans hcut.rx)
    refine .inr ⟨hcut.shut, hstate.trans hcut.closed, hnil.2, htx.trans hcut.tx, ?_, hcut.taken⟩
    show f.read ++ _ <+: f.delivered
    rw [hnil.1, List.append_nil]
    exact hcut.read

theorem Fits.write (hS : S.Lawful) (hB : B.Lawful) (hF : B.Flows) (h : f.Fits B p) (cx : Waker) (data : Bytes) :
    Fits B { f with written := f.written ++ data.take (writeTcp p.2 cx data).2.count }
      (p.1, (writeTcp p.2 cx data).1) := by
  refine ⟨fun hopen => (writeTcp_quiet hS p.2 cx data).state ▸ h.1 hopen, ?_⟩
  rcases h.2 with hwhole | hcut
  · obtain ⟨hrx, htx⟩ := writeTcp_flows hF p.2 cx data
    refine .inl ⟨hrx ▸ hwhole.1, ?_⟩
    show f.written ++ _ = f.taken ++ B.tx (writeTcp p.2 cx data).1
    rw [htx, hwhole.2, List.append_assoc]
  · rw [writeTcp_closed hS hB hcut.closed]
    refine .inr ⟨hcut.shut, hcut.closed, hcut.rx, hcut.tx, hcut.read, ?_⟩
    exact hcut.taken.trans (List.prefix_append _ _)

theorem Fits.close (hS : S.Lawful) (hF : B.Flows) (h : f.Fits B p) (e : TcpEntry) :
    Fits B { f with shut := true } (e, closeIfOpen p.2) := by
  refine ⟨fun hopen => absurd hopen (by simp), ?_⟩
  rcases h.2 with hwhole | hcut
  · obtain ⟨hrx, htx⟩ := closeIfOpen_flows hF p.2
    exact .inl ⟨hrx ▸ hwhole.1, htx ▸ hwhole.2⟩
  · rw [closeIfOpen_closed hS hcut.closed]
    exact .inr ⟨rfl, hcut.closed, hcut.rx, hcut.tx, hcut.read, hcut.taken⟩

theorem Fits.event {e : TcpEntry} (h : f.Fits B (e, t))
    (hside : (S.tcpState t).Passive → (S.tcpState t').Passive)
    (hclosed : S.tcpState t = .closed → S.tcpState t' = .closed ∧ B.rx t' = B.rx t ∧ B.tx t' = B.tx t)
    (hbytes : B.rx t <+: B.rx t' ∧ B.tx t' <:+ B.tx t ∨ B.Reset t t') : Fits B (f.event B t t') (e, t') := by
  unfold Traffic.event
  split
  · next hreset =>
    have hshut : f.shut = true := by
      cases hs : f.shut with
      | true => rfl
      | false =>
        -- a stream in use is never in `TimeWait`
        have hpass := h.1 hs
        rw [hreset.1] at hpass
        exact hpass.elim
    refine ⟨fun hopen => absurd hopen (by simp [hshut]), .inr ?_⟩
    obtain ⟨-, hstate, hrx, htx⟩ := hreset
    rcases h.2 with hwhole | hcut
    · exact ⟨hshut, hstate, hrx, htx, hwhole.1 ▸ List.prefix_append _ _, hwhole.2 ▸ List.prefix_append _ _⟩
    · exact ⟨hshut, hstate, hrx, htx, hcut.read, hcut.taken⟩
  · next hreset =>
    obtain ⟨hrx, htx⟩ := hbytes.resolve_right hreset
    refine ⟨fun hopen => hside (h.1 hopen), ?_⟩
    rcases h.2 with hwhole | hcut
    · refine .inl ⟨?_, ?_⟩
      · show f.delivered ++ _ = f.read ++ B.rx t'
        rw [hwhole.1, List.append_assoc, List.prefix_iff_eq_append.mp hrx]
      · show f.written = f.taken ++ _ ++ B.tx t'
        rw [List.append_assoc, List.suffix_iff_eq_append.mp htx]
        exact hwhole.2
    · obtain ⟨hstate, hrx', htx'⟩ := hclosed hcut.closed
      rw [hcut.rx] at hrx'
      rw [hcut.tx] at htx'
      refine .inr ⟨hcut.shut, hstate, hrx', htx', ?_, ?_⟩
      · exact hcut.read.trans (List.prefix_append _ _)
      · show f.taken ++ (B.tx t).take _ <+: f.written
        rw [hcut.tx, List.take_nil, List.append_nil]
        exact hcut.taken

end Traffic

/-- **The watch of the bytes never loses track.** -/
theorem trafficWatch_keeps (hS : S.Lawful) (hB : B.Lawful) (hF : B.Flows) :
    (trafficWatch B).Keeps (InterfaceSlot.Streams B) (Traffic.Fits B) where
  start := by
    rintro ⟨e, t⟩ ⟨-, -, t₀, ep, hl⟩
    obtain ⟨hrx, htx⟩ := hF.listen hl
    refine ⟨fun _ => ?_, .inl ⟨?_, ?_⟩⟩
    · rw [(hS.tcpListen_ok hl).1]
      trivial
    · exact hrx.symm
    · exact htx.symm
  use := by
    intro l st f p hst _ h
    cases l with
    | read st cx room => exact h.read hS hF cx room
    | write st cx data => exact h.write hS hB hF cx data
    | shutdown st => exact h.close hS hF _
    | dropStream st => exact h.close hS hF _
    | ingress | cycle | send | recv | dropSession | rehash => cases hst
  event := by
    intro slot ev e t t' f hlaw ht htouch h
    obtain ⟨hclosed, hbytes⟩ := hlaw.2 _ htouch t ht t' rfl
    exact h.event (hlaw.1 _ htouch t ht t' rfl).2 hclosed hbytes
  advance := fun h => h

end Steps

/-! ### Whole runs -/

/-- The runs in which the engine deals with the bytes as documented, every stream being watched. -/
def StreamBuffers.Runs (B : StreamBuffers S) (b : NetstackBuilder S) (s : World S × (SessionKey → Traffic)) : Prop :=
  World.Watched (trafficWatch B).note (fun s l => s.1.Polls (fun _ => InterfaceSlot.Streams B) l) b
    (trafficWatch B).init s

section Main

variable {B : StreamBuffers S} {b : NetstackBuilder S} {w : World S} {g : SessionKey → Traffic}

/-- **No byte of a stream is lost, duplicated, reordered or taken from another connection.** In
every run and for every connection: what was read and what is in the receive buffer of its
socket is the beginning of what the engine has delivered since the connection was opened, and
what the engine has taken and what is in the transmit buffer is the beginning of what was
written. Until the stream is shut down or dropped, it is all of it. -/
theorem stream_bytes_conserved (hS : S.Lawful) (hB : B.Lawful) (hF : B.Flows) (h : B.Runs b (w, g))
    {k : SessionKey} {e : TcpEntry} {t : S.Tcp} (hc : w.core.conn k = some (e, t)) :
    (g k).read ++ B.rx t <+: (g k).delivered ∧ (g k).taken ++ B.tx t <+: (g k).written ∧
      ((g k).shut = false →
        (g k).delivered = (g k).read ++ B.rx t ∧ (g k).written = (g k).taken ++ B.tx t) := by
  have hfits := Watch.holds (trafficWatch_keeps hS hB hF) hS h hc
  rw [← and_assoc]
  refine ⟨?_, hfits.whole⟩
  rcases hfits.2 with hwhole | hcut
  · exact ⟨hwhole.1 ▸ List.prefix_rfl, hwhole.2 ▸ List.prefix_rfl⟩
  · rw [hcut.rx, hcut.tx, List.append_nil, List.append_nil]
    exact ⟨hcut.read, hcut.taken⟩

/-- A read that reports the end finds nothing more to read, and nothing will come. -/
theorem readTcp_eof (hS : S.Lawful) (hB : B.Lawful) {t : S.Tcp} {cx : Waker} {room : ℕ}
    (h : (readTcp t cx room).2 = .ready (.ok [])) : B.rx t = [] ∧ ¬(S.tcpState t).PeerMaySend := by
  have hrecv : ¬B.MayRecv t := by
    intro hrecv
    obtain ⟨t', ht'⟩ := hB.recvSlice_ok t room hrecv
    simp only [readTcp, ht'] at h
    split at h
    · next hlen =>
      obtain hnil : (B.rx t).take room = [] := by simpa using h
      rw [hnil] at hlen
      exact absurd hlen (Nat.lt_irrefl 0)
    · cases h
  refine ⟨by_contra fun hrx => hrecv (.inr hrx), ?_⟩
  rintro (hopening | hreceives)
  · -- a socket still to be connected is open, and the read waits
    have hopen : S.tcpIsOpen t = true := isOpen_of_live hS (.inr (.inl hopening))
    simp only [readTcp, hB.recvSlice_opening t room hrecv hopening, hopen, if_true] at h
    cases h
  · exact hrecv (.inl hreceives)

/-- **The end of a stream is its end.** In every run, when `poll_read` of a live stream reports
the end, no byte is in the receive buffer and the peer will send none; and if the stream was not
shut down, everything delivered since the connection was opened has been read. -/
theorem eof_after_all (hS : S.Lawful) (hB : B.Lawful) (hF : B.Flows) (h : B.Runs b (w, g))
    {st : WayTcpStream} (hst : st ∈ w.streams) (cx : Waker) (room : ℕ) :
    ∃ e t r, w.core.conn st.key = some (e, t) ∧ (st.pollRead w.core cx room).result = .ok r ∧
      (r.value = .ready (.ok []) → B.rx t = [] ∧ ¬(S.tcpState t).PeerMaySend ∧
        ((g st.key).shut = false → (g st.key).delivered = (g st.key).read)) := by
  have hany : World.AnyRun b w := System.Reaches.forget (fun _ _ _ => trivial) h
  have hw : w.Inv False b := World.Reachable.inv hS False.elim hany
  obtain ⟨e, t, hconn, -, ⟨r, hr, hvalue, -⟩, -⟩ := pollRead_conn hw.registered hst cx room
  refine ⟨e, t, r, hconn, hr, fun hend => ?_⟩
  obtain ⟨hrx, hpeer⟩ := readTcp_eof hS hB (hvalue.symm.trans hend)
  refine ⟨hrx, hpeer, fun hopen => ?_⟩
  have hall := (Watch.holds (trafficWatch_keeps hS hB hF) hS h hconn).whole hopen
  rw [hall.1, hrx, List.append_nil]

end Main

namespace Reference

theorem buffers_flows : buffers.Flows where
  listen := by
    intro t ep t' h
    have h : Tcp.listen t ep = .ok t' := h
    unfold Tcp.listen at h
    split at h
    · cases h
    split at h
    · cases h
    · cases h
      exact ⟨rfl, rfl⟩
  recv := by
    intro t n r h
    have h : Tcp.recvSlice t n = .ok r := h
    unfold Tcp.recvSlice at h
    split at h
    · cases h
      exact ⟨(List.take_append_drop n _).symm, rfl⟩
    · split at h <;> cases h
  send := by
    intro t b r h
    have h : Tcp.sendSlice t b = .ok r := h
    unfold Tcp.sendSlice at h
    split at h
    · cases h
      exact ⟨rfl, rfl⟩
    · cases h
  close := fun _ => ⟨rfl, rfl⟩
  recvWaker := fun _ _ => ⟨rfl, rfl⟩
  sendWaker := fun _ _ => ⟨rfl, rfl⟩

/-- The client closes its side, having sent nothing more; a byte of the reply was acknowledged. -/
def halfClosed : reference.Tcp :=
  (⟨.closeWait, some (server, client), ⟨some server.addr, server.port⟩, (16384, 16384), [], [2]⟩ : Tcp)

/-- The client connects and sends a byte, which is read; two bytes are written; the client closes. -/
def answerClient : List (Label reference) :=
  connectAndSend ++ [.read (streamOf streamKey 0) 0 16, .write (streamOf streamKey 0) 0 [1, 2],
    fromClient client fin, cycle 2 [takes 0 halfClosed]]

/-- The traffic of the client's stream is that of `answerClient`. -/
def clientAnswered (s : World reference × (SessionKey → Traffic)) : Bool :=
  decide (s.1.core.conn streamKey = some (⟨0, .established, false⟩, halfClosed) ∧
    s.1.streams = [streamOf streamKey 0] ∧ (s.2 streamKey).read = [7] ∧ (s.2 streamKey).taken = [1] ∧
    (s.2 streamKey).shut = false)

end Reference

open Reference in
/-- A stream that is half closed: a byte was read, and of the two bytes written one is in the
buffer. -/
theorem stream_bytes_conserved_answered : ∃ (w : World reference) (g : SessionKey → Traffic),
    buffers.Runs (trial .default) (w, g) ∧ (g streamKey).delivered = [7] ∧ (g streamKey).written = [1, 2] := by
  obtain ⟨⟨w, g⟩, hs, hcheck⟩ := World.exists_watched (trafficWatch buffers).note
    (fun s l => s.1.Polls (fun _ => InterfaceSlot.Streams buffers) l) (trial .default) (trafficWatch buffers).init
    answerClient clientAnswered (by decide +kernel)
  obtain ⟨hconn, -, hread, htaken, hopen⟩ := of_decide_eq_true hcheck
  obtain ⟨hrx, htx⟩ :=
    (stream_bytes_conserved reference_lawful buffers_lawful buffers_flows hs hconn).2.2 hopen
  refine ⟨w, g, hs, ?_, ?_⟩
  · rw [hrx]
    show (g streamKey).read ++ [] = [7]
    rw [hread]
    rfl
  · rw [htx]
    show (g streamKey).taken ++ [2] = [1, 2]
    rw [htaken]
    rfl

open Reference in
/-- The client has closed its side: the read reports the end, and all has been read. -/
theorem eof_after_all_answered : ∃ (w : World reference) (g : SessionKey → Traffic),
    buffers.Runs (trial .default) (w, g) ∧ ∃ r,
      ((streamOf streamKey 0).pollRead w.core 0 16).result = .ok r ∧ r.value = .ready (.ok []) ∧
        (g streamKey).delivered = (g streamKey).read := by
  obtain ⟨⟨w, g⟩, hs, hcheck⟩ := World.exists_watched (trafficWatch buffers).note
    (fun s l => s.1.Polls (fun _ => InterfaceSlot.Streams buffers) l) (trial .default) (trafficWatch buffers).init
    answerClient clientAnswered (by decide +kernel)
  obtain ⟨hconn, hst, -, -, hopen⟩ := of_decide_eq_true hcheck
  have hmem : streamOf streamKey 0 ∈ w.streams := by
    show streamOf streamKey 0 ∈ (w, g).1.streams
    rw [hst]
    exact List.mem_singleton_self _
  obtain ⟨e, t, r, -, hr, hend⟩ := eof_after_all reference_lawful buffers_lawful buffers_flows hs hmem 0 16
  have hany : World.AnyRun (trial .default) w := System.Reaches.forget (fun _ _ _ => trivial) hs
  have hw : w.Inv False (trial .default) := World.Reachable.inv reference_lawful False.elim hany
  obtain ⟨e', t', hconn', -, hok⟩ := pollRead_conn hw.registered hmem 0 16
  obtain ⟨-, rfl⟩ : ⟨0, .established, false⟩ = e' ∧ halfClosed = t' := by simpa using hconn.symm.trans hconn'
  have hvalue : r.value = .ready (.ok []) := (hok.post hr).1
  exact ⟨w, g, hs, r, hr, hvalue, (hend hvalue).2.2 hopen⟩

end WayNetstack

import WayNetstack.Tcp.Bytes

/-!
# Tasks that wait for a stream

A `poll_read` or `poll_write` that has to wait leaves the waker of its task in the socket. The
engine wakes the task, and forgets the waker, when bytes arrive or leave or the state of the
connection changes; so does a `close`. Sockets are reset without a wake when their time in
`TimeWait` is over, and when they are taken from the pool to listen again.

`stream_tasks_not_lost`: **no wake-up of a task that waits for a stream is lost.** In every run, a
task whose last poll returned `Pending`, and that has not been woken since, has its waker in the
socket of its own connection, and would have to wait if it were polled again.
-/

namespace WayNetstack

open Lib Lib.Traced WayTcpStream

variable {S : Smoltcp}

/-! ### When an operation waits -/

section Pending

variable {B : StreamBuffers S} {t t' : S.Tcp}

theorem readTcp_pending (hS : S.Lawful) (hB : B.Lawful) (t : S.Tcp) (cx : Waker) (room : ℕ) :
    (readTcp t cx room).2 = .pending ↔
      B.MayRecv t ∧ (B.rx t).take room = [] ∨ ¬B.MayRecv t ∧ (S.tcpState t).Opening := by
  by_cases hrecv : B.MayRecv t
  · obtain ⟨t', ht'⟩ := hB.recvSlice_ok t room hrecv
    simp only [readTcp, ht', hrecv, true_and, not_true_eq_false, false_and, or_false]
    split
    · next hlen => simp [List.ne_nil_of_length_pos hlen]
    · next hlen => simp [List.eq_nil_of_length_eq_zero (Nat.eq_zero_of_not_pos hlen)]
  simp only [hrecv, false_and, false_or, not_false_eq_true, true_and]
  rcases State.cases_of_not_receives (S.tcpState t) fun h => hrecv (.inl h) with hfin | hopening | hclosed
  · simp [readTcp, hB.recvSlice_finished t room hrecv hfin, State.Finished.not_opening hfin]
  · have hopen : S.tcpIsOpen t = true := isOpen_of_live hS (.inr (.inl hopening))
    simp [readTcp, hB.recvSlice_opening t room hrecv hopening, hopen, hopening]
  · have hopen : S.tcpIsOpen t = false := (hS.tcpIsOpen_iff t).mpr (.inl hclosed)
    have hnot : ¬(S.tcpState t).Opening := by
      rw [hclosed]
      exact id
    obtain ⟨err, herr⟩ := hB.recvSlice_closed t room hrecv hclosed
    cases err <;> simp [readTcp, herr, hopen, hnot]

theorem writeTcp_pending (hB : B.Lawful) (t : S.Tcp) (cx : Waker) (data : Bytes) :
    (writeTcp t cx data).2 = .pending ↔
      (S.tcpState t).Sends ∧ min (B.free t) data.length = 0 ∨ ¬(S.tcpState t).Sends ∧ S.tcpIsOpen t = true := by
  by_cases hsends : (S.tcpState t).Sends
  · obtain ⟨t', ht'⟩ := hB.sendSlice_ok t data hsends
    simp only [writeTcp, ht', hsends, true_and, not_true_eq_false, false_and, or_false]
    split
    · next hpos => simp [hpos.ne']
    · next hzero => simp [Nat.eq_zero_of_not_pos hzero]
  · simp only [writeTcp, hB.sendSlice_error t data hsends, hsends, false_and, false_or, not_false_eq_true, true_and]
    split
    · next hopen => simp [hopen]
    · next hopen => simp [hopen]

/-- Whether a read waits is told by the bytes received and the state. -/
theorem readTcp_pending_congr (hS : S.Lawful) (hB : B.Lawful) (hrx : B.rx t' = B.rx t)
    (hstate : S.tcpState t' = S.tcpState t) {cx : Waker} {room : ℕ}
    (h : (readTcp t cx room).2 = .pending) : (readTcp t' cx room).2 = .pending := by
  rw [readTcp_pending hS hB] at h ⊢
  unfold StreamBuffers.MayRecv at h ⊢
  rwa [hrx, hstate]

/-- Whether a write waits is told by the room in the transmit buffer and the state. -/
theorem writeTcp_pending_congr (hS : S.Lawful) (hB : B.Lawful) (htx : B.tx t' = B.tx t)
    (hstate : S.tcpState t' = S.tcpState t) (hcap : S.tcpCapacity t' = S.tcpCapacity t) {cx : Waker}
    {data : Bytes} (h : (writeTcp t cx data).2 = .pending) : (writeTcp t' cx data).2 = .pending := by
  have hopen : S.tcpIsOpen t' = S.tcpIsOpen t := by
    rw [Bool.eq_iff_iff, ← not_iff_not, Bool.not_eq_true, Bool.not_eq_true, hS.tcpIsOpen_iff,
      hS.tcpIsOpen_iff, hstate]
  rw [writeTcp_pending hB] at h ⊢
  unfold StreamBuffers.free at h ⊢
  rwa [htx, hstate, hcap, hopen]

/-- A read with room that waits finds the peer able to send. -/
theorem peerMaySend_of_pending (hS : S.Lawful) (hB : B.Lawful) {cx : Waker} {room : ℕ} (hroom : room ≠ 0)
    (h : (readTcp t cx room).2 = .pending) : (S.tcpState t).PeerMaySend := by
  rcases (readTcp_pending hS hB t cx room).mp h with ⟨hrecv, htake⟩ | ⟨-, hopening⟩
  · have hrx : B.rx t = [] := (List.take_eq_nil_iff.mp htake).resolve_left hroom
    exact .inr (hrecv.resolve_right fun h => h hrx)
  · exact .inl hopening

/-- A write that waits finds an open socket. -/
theorem isOpen_of_pending (hS : S.Lawful) (hB : B.Lawful) {cx : Waker} {data : Bytes}
    (h : (writeTcp t cx data).2 = .pending) : S.tcpIsOpen t = true := by
  rcases (writeTcp_pending hB t cx data).mp h with ⟨hsends, -⟩ | ⟨-, hopen⟩
  · exact isOpen_of_live hS (.inl hsends)
  · exact hopen

end Pending

/-! ### Wakers -/

/-- The wakers in a socket: that of the task that waits to read, and of the one that waits to
write. -/
structure Wakers (S : Smoltcp) where
  recv : S.Tcp → Option Waker
  send : S.Tcp → Option Waker

/-- What the calls do to the wakers. -/
structure Wakers.Lawful (K : Wakers S) : Prop where
  recvWaker : ∀ t cx, K.recv (S.tcpRegisterRecvWaker t cx) = some cx ∧ K.send (S.tcpRegisterRecvWaker t cx) = K.send t
  sendWaker : ∀ t cx, K.send (S.tcpRegisterSendWaker t cx) = some cx ∧ K.recv (S.tcpRegisterSendWaker t cx) = K.recv t
  recvSlice : ∀ {t n r}, S.tcpRecvSlice t n = .ok r → K.recv r.2 = K.recv t ∧ K.send r.2 = K.send t
  sendSlice : ∀ {t b r}, S.tcpSendSlice t b = .ok r → K.recv r.2 = K.recv t ∧ K.send r.2 = K.send t
  /-- A `close` that changes the state wakes both tasks. -/
  close : ∀ t, S.tcpState (S.tcpClose t) = S.tcpState t ∧ K.recv (S.tcpClose t) = K.recv t ∧
      K.send (S.tcpClose t) = K.send t ∨ K.recv (S.tcpClose t) = none ∧ K.send (S.tcpClose t) = none

/-- What an event does to a task that waits to read: the waker is taken, or nothing has changed
for it. -/
def Wakers.ReadWakes (K : Wakers S) (B : StreamBuffers S) (t t' : S.Tcp) : Prop :=
  K.recv t' = none ∨ K.recv t' = K.recv t ∧ B.rx t' = B.rx t ∧ S.tcpState t' = S.tcpState t

/-- What an event does to a task that waits to write. -/
def Wakers.WriteWakes (K : Wakers S) (B : StreamBuffers S) (t t' : S.Tcp) : Prop :=
  K.send t' = none ∨ K.send t' = K.send t ∧ B.tx t' = B.tx t ∧ S.tcpState t' = S.tcpState t ∧
    S.tcpCapacity t' = S.tcpCapacity t

/-- The events treat the wakers as documented. -/
def InterfaceSlot.Wakes (K : Wakers S) (B : StreamBuffers S) (slot : InterfaceSlot S) (e : PollEvent S) : Prop :=
  ∀ x ∈ e.touches, ∀ t ∈ slot.tcpAt x.1, ∀ t' ∈ x.2.tcp?, K.ReadWakes B t t' ∧ K.WriteWakes B t t'

instance (K : Wakers S) (B : StreamBuffers S) (t t' : S.Tcp) : Decidable (K.ReadWakes B t t') :=
  inferInstanceAs (Decidable (_ ∨ _ ∧ _ ∧ _))

instance (K : Wakers S) (B : StreamBuffers S) (t t' : S.Tcp) : Decidable (K.WriteWakes B t t') :=
  inferInstanceAs (Decidable (_ ∨ _ ∧ _ ∧ _ ∧ _))

instance (K : Wakers S) (B : StreamBuffers S) (slot : InterfaceSlot S) (e : PollEvent S) :
    Decidable (slot.Wakes K B e) :=
  inferInstanceAs (Decidable (∀ x ∈ e.touches, _))

section Wakers

variable {K : Wakers S} {B : StreamBuffers S} {t t' : S.Tcp}

/-- A read leaves its own waker if it waits, and that of a writer in any case. -/
theorem readTcp_wakers (hK : K.Lawful) (t : S.Tcp) (cx : Waker) (room : ℕ) :
    K.send (readTcp t cx room).1 = K.send t ∧
      ((readTcp t cx room).2 = .pending → K.recv (readTcp t cx room).1 = some cx) := by
  unfold readTcp
  cases hrecv : S.tcpRecvSlice t room with
  | ok r =>
    obtain ⟨-, hsend⟩ := hK.recvSlice hrecv
    dsimp only
    split
    · exact ⟨hsend, fun h => by cases h⟩
    · obtain ⟨hrecv', hsend'⟩ := hK.recvWaker r.2 cx
      exact ⟨hsend'.trans hsend, fun _ => hrecv'⟩
  | error err =>
    cases err with
    | finished => exact ⟨rfl, fun h => by cases h⟩
    | invalidState =>
      dsimp only
      split
      · obtain ⟨hrecv', hsend'⟩ := hK.recvWaker t cx
        exact ⟨hsend', fun _ => hrecv'⟩
      · exact ⟨rfl, fun h => by cases h⟩

/-- A write leaves its own waker if it waits, and that of a reader in any case. -/
theorem writeTcp_wakers (hK : K.Lawful) (t : S.Tcp) (cx : Waker) (data : Bytes) :
    K.recv (writeTcp t cx data).1 = K.recv t ∧
      ((writeTcp t cx data).2 = .pending → K.send (writeTcp t cx data).1 = some cx) := by
  unfold writeTcp
  cases hsend : S.tcpSendSlice t data with
  | ok r =>
    obtain ⟨hrecv, -⟩ := hK.sendSlice hsend
    dsimp only
    split
    · exact ⟨hrecv, fun h => by cases h⟩
    · obtain ⟨hsend', hrecv'⟩ := hK.sendWaker r.2 cx
      exact ⟨hrecv'.trans hrecv, fun _ => hsend'⟩
  | error err =>
    cases err with
    | invalidState =>
      dsimp only
      split
      · obtain ⟨hsend', hrecv'⟩ := hK.sendWaker t cx
        exact ⟨hrecv', fun _ => hsend'⟩
      · exact ⟨rfl, fun h => by cases h⟩

end Wakers

/-! ### The tasks -/

/-- The tasks that wait for a stream: their wakers and what they asked for. -/
structure Tasks where
  /-- A `poll_read` has returned `Pending`, and its task was not woken since. -/
  reader : Option (Waker × ℕ)
  /-- A `poll_write` has returned `Pending`, and its task was not woken since. -/
  writer : Option (Waker × Bytes)

namespace Tasks

/-- Nobody waits. -/
def empty : Tasks := ⟨none, none⟩

/-- A waker is taken from the socket, and its task woken; a socket in `TimeWait` may also be
reset, which wakes nobody. -/
def Taken (t : S.Tcp) (old new : Option Waker) : Prop := old.isSome ∧ new = none ∧ S.tcpState t ≠ .timeWait

instance (t : S.Tcp) (old new : Option Waker) : Decidable (Taken t old new) :=
  inferInstanceAs (Decidable (_ ∧ _ ∧ _))

/-- A socket becomes another: the tasks whose wakers were taken no longer wait. -/
def wake (K : Wakers S) (t t' : S.Tcp) (f : Tasks) : Tasks where
  reader := if Taken t (K.recv t) (K.recv t') then none else f.reader
  writer := if Taken t (K.send t) (K.send t') then none else f.writer

theorem wake_self (K : Wakers S) (t : S.Tcp) (f : Tasks) : f.wake K t t = f := by
  have hnot : ∀ o : Option Waker, ¬Taken t o o := by
    rintro o ⟨hsome, rfl, -⟩
    cases hsome
  simp only [wake, hnot, if_false]

/-- An operation on the stream. A dropped stream has no task. -/
def use (K : Wakers S) (f : Tasks) (t : S.Tcp) : Label S → Tasks
  | .read _ cx room => { f with reader := if (readTcp t cx room).2 = .pending then some (cx, room) else none }
  | .write _ cx data => { f with writer := if (writeTcp t cx data).2 = .pending then some (cx, data) else none }
  | .shutdown _ => f.wake K t (closeIfOpen t)
  | .dropStream _ => empty
  | _ => f

/-- The task that waits to read, if any, has its waker in the socket and would wait again. -/
def ReaderFits (K : Wakers S) (f : Tasks) (t : S.Tcp) : Prop :=
  ∀ cx room, f.reader = some (cx, room) → room ≠ 0 → K.recv t = some cx ∧ (readTcp t cx room).2 = .pending

/-- The task that waits to write, if any, has its waker in the socket and would wait again. -/
def WriterFits (K : Wakers S) (f : Tasks) (t : S.Tcp) : Prop :=
  ∀ cx data, f.writer = some (cx, data) → K.send t = some cx ∧ (writeTcp t cx data).2 = .pending

/-- Both tasks. -/
def Fits (K : Wakers S) (f : Tasks) (p : Conn S) : Prop := f.ReaderFits K p.2 ∧ f.WriterFits K p.2

end Tasks

/-- The watch of the tasks. -/
def taskWatch (K : Wakers S) : Watch S Tasks where
  start := .empty
  use l t f := f.use K t l
  event t t' f := f.wake K t t'
  event_self t f := f.wake_self K t

section Steps

variable {K : Wakers S} {B : StreamBuffers S} {t t' : S.Tcp} {f : Tasks} {p : Conn S}

namespace Tasks

/-- A task that was not woken still has to wait. -/
theorem Fits.wake (hS : S.Lawful) (hB : B.Lawful) {e : TcpEntry} (h : f.Fits K (e, t)) (hread : K.ReadWakes B t t')
    (hwrite : K.WriteWakes B t t') : Fits K (f.wake K t t') (e, t') := by
  constructor
  · intro cx room hreader hroom
    obtain ⟨hnot, hreader⟩ : ¬Taken t (K.recv t) (K.recv t') ∧ f.reader = some (cx, room) := by
      simp only [Tasks.wake] at hreader
      split at hreader
      · cases hreader
      · next hnot => exact ⟨hnot, hreader⟩
    obtain ⟨hwaker, hpending⟩ := h.1 cx room hreader hroom
    -- a reader that waits is not in `TimeWait`, so its waker was not dropped
    have hstate : S.tcpState t ≠ .timeWait := by
      intro htw
      have hpeer := peerMaySend_of_pending hS hB hroom hpending
      rw [htw] at hpeer
      rcases hpeer with h | h <;> exact h
    rcases hread with hnone | ⟨hsame, hrx, hst⟩
    · exact absurd ⟨by rw [hwaker]; rfl, hnone, hstate⟩ hnot
    · exact ⟨hsame.trans hwaker, readTcp_pending_congr hS hB hrx hst hpending⟩
  · intro cx data hwriter
    obtain ⟨hnot, hwriter⟩ : ¬Taken t (K.send t) (K.send t') ∧ f.writer = some (cx, data) := by
      simp only [Tasks.wake] at hwriter
      split at hwriter
      · cases hwriter
      · next hnot => exact ⟨hnot, hwriter⟩
    obtain ⟨hwaker, hpending⟩ := h.2 cx data hwriter
    have hstate : S.tcpState t ≠ .timeWait := by
      intro htw
      have hopen := isOpen_of_pending hS hB hpending
      rw [(hS.tcpIsOpen_iff t).mpr (.inr htw)] at hopen
      cases hopen
    rcases hwrite with hnone | ⟨hsame, htx, hst, hcap⟩
    · exact absurd ⟨by rw [hwaker]; rfl, hnone, hstate⟩ hnot
    · exact ⟨hsame.trans hwaker, writeTcp_pending_congr hS hB htx hst hcap hpending⟩

theorem Fits.read (hS : S.Lawful) (hB : B.Lawful) (hF : B.Flows) (hK : K.Lawful) (h : f.Fits K p) (cx : Waker)
    (room : ℕ) :
    Fits K { f with reader := if (readTcp p.2 cx room).2 = .pending then some (cx, room) else none }
      (p.1, (readTcp p.2 cx room).1) := by
  obtain ⟨hsend, hrecv⟩ := readTcp_wakers hK p.2 cx room
  obtain ⟨hrx, htx⟩ := readTcp_flows hF p.2 cx room
  have hquiet := readTcp_quiet hS p.2 cx room
  constructor
  · intro cx' room' hreader hroom
    split_ifs at hreader with hpending
    cases hreader
    rw [hpending] at hrx
    exact ⟨hrecv hpending, readTcp_pending_congr hS hB hrx.symm hquiet.state hpending⟩
  · intro cx' data hwriter
    obtain ⟨hwaker, hpending⟩ := h.2 cx' data hwriter
    exact ⟨hsend.trans hwaker, writeTcp_pending_congr hS hB htx hquiet.state hquiet.capacity hpending⟩

theorem Fits.write (hS : S.Lawful) (hB : B.Lawful) (hF : B.Flows) (hK : K.Lawful) (h : f.Fits K p) (cx : Waker)
    (data : Bytes) :
    Fits K { f with writer := if (writeTcp p.2 cx data).2 = .pending then some (cx, data) else none }
      (p.1, (writeTcp p.2 cx data).1) := by
  obtain ⟨hrecv, hsend⟩ := writeTcp_wakers hK p.2 cx data
  obtain ⟨hrx, htx⟩ := writeTcp_flows hF p.2 cx data
  have hquiet := writeTcp_quiet hS p.2 cx data
  constructor
  · intro cx' room hreader hroom
    obtain ⟨hwaker, hpending⟩ := h.1 cx' room hreader hroom
    exact ⟨hrecv.trans hwaker, readTcp_pending_congr hS hB hrx hquiet.state hpending⟩
  · intro cx' data' hwriter
    split_ifs at hwriter with hpending
    cases hwriter
    have htx' : B.tx (writeTcp p.2 cx data).1 = B.tx p.2 := by
      rw [htx, hpending]
      exact List.append_nil _
    exact ⟨hsend hpending, writeTcp_pending_congr hS hB htx' hquiet.state hquiet.capacity hpending⟩

end Tasks

/-- A close that changes the state wakes both tasks. -/
theorem closeIfOpen_wakes (hS : S.Lawful) (hF : B.Flows) (hK : K.Lawful) (t : S.Tcp) :
    K.ReadWakes B t (closeIfOpen t) ∧ K.WriteWakes B t (closeIfOpen t) := by
  unfold closeIfOpen
  split
  · obtain ⟨hrx, htx⟩ := hF.close t
    rcases hK.close t with ⟨hstate, hrecv, hsend⟩ | ⟨hrecv, hsend⟩
    · exact ⟨.inr ⟨hrecv, hrx, hstate⟩, .inr ⟨hsend, htx, hstate, (hS.tcpClose_ok t).2.2⟩⟩
    · exact ⟨.inl hrecv, .inl hsend⟩
  · exact ⟨.inr ⟨rfl, rfl, rfl⟩, .inr ⟨rfl, rfl, rfl, rfl⟩⟩

/-- **The watch of the tasks never loses one.** -/
theorem taskWatch_keeps (hS : S.Lawful) (hB : B.Lawful) (hF : B.Flows) (hK : K.Lawful) :
    (taskWatch K).Keeps (InterfaceSlot.Wakes K B) (Tasks.Fits K) where
  start := by
    intro p _
    constructor
    · intro cx room h
      cases h
    · intro cx data h
      cases h
  use := by
    intro l st f p hst _ h
    cases l with
    | read st cx room => exact h.read hS hB hF hK cx room
    | write st cx data => exact h.write hS hB hF hK cx data
    | shutdown st =>
      obtain ⟨hread, hwrite⟩ := closeIfOpen_wakes hS hF hK p.2
      exact Tasks.Fits.wake hS hB h hread hwrite
    | dropStream st =>
      constructor
      · intro cx room h
        cases h
      · intro cx data h
        cases h
    | ingress | cycle | send | recv | dropSession | rehash => cases hst
  event := by
    intro slot ev e t t' f hlaw ht htouch h
    obtain ⟨hread, hwrite⟩ := hlaw _ htouch t ht t' rfl
    exact h.wake hS hB hread hwrite
  advance := fun h => h

end Steps

/-! ### Whole runs -/

/-- The runs in which the engine treats the wakers as documented, every stream being watched. -/
def Wakers.Runs (K : Wakers S) (B : StreamBuffers S) (b : NetstackBuilder S)
    (s : World S × (SessionKey → Tasks)) : Prop :=
  World.Watched (taskWatch K).note (fun s l => s.1.Polls (fun _ => InterfaceSlot.Wakes K B) l) b
    (taskWatch K).init s

/-- **No wake-up is lost.** In every run and for every live stream: a task whose last `poll_read`,
with room to read into, returned `Pending` and that was not woken since has its waker in the socket
of the stream's connection, and `poll_read` would return `Pending` again; and so for a task whose
last `poll_write` returned `Pending`. -/
theorem stream_tasks_not_lost {K : Wakers S} {B : StreamBuffers S} (hS : S.Lawful) (hB : B.Lawful) (hF : B.Flows)
    (hK : K.Lawful) {b : NetstackBuilder S} {w : World S} {g : SessionKey → Tasks} (h : K.Runs B b (w, g))
    {st : WayTcpStream} (hst : st ∈ w.streams) :
    ∃ e t, w.core.conn st.key = some (e, t) ∧
      (∀ cx room, (g st.key).reader = some (cx, room) → room ≠ 0 → K.recv t = some cx ∧
        ∃ r, (st.pollRead w.core cx room).result = .ok r ∧ r.value = .pending) ∧
      (∀ cx data, (g st.key).writer = some (cx, data) → K.send t = some cx ∧
        ∃ r, (st.pollWrite w.core cx data).result = .ok r ∧ r.value = .pending) := by
  have hany : World.AnyRun b w := System.Reaches.forget (fun _ _ _ => trivial) h
  have hw : w.Inv False b := World.Reachable.inv hS False.elim hany
  obtain ⟨slot, e, t, -, -, hconn, -, -⟩ := hw.registered.stream_conn hst
  have hfits := Watch.holds (taskWatch_keeps hS hB hF hK) hS h hconn
  refine ⟨e, t, hconn, fun cx room hreader hroom => ?_, fun cx data hwriter => ?_⟩
  · obtain ⟨hwaker, hpending⟩ := hfits.1 cx room hreader hroom
    obtain ⟨e', t', hconn', -, ⟨r, hr, hvalue, -⟩, -⟩ := pollRead_conn hw.registered hst cx room
    cases hconn.symm.trans hconn'
    exact ⟨hwaker, r, hr, hvalue.trans hpending⟩
  · obtain ⟨hwaker, hpending⟩ := hfits.2 cx data hwriter
    obtain ⟨e', t', hconn', -, ⟨r, hr, hvalue, -⟩, -⟩ := pollWrite_conn hw.registered hst cx data
    cases hconn.symm.trans hconn'
    exact ⟨hwaker, r, hr, hvalue.trans hpending⟩

/-! ### An engine that keeps the wakers -/

namespace Reference

/-- A TCP socket of the reference engine with the wakers it holds. -/
structure WakefulTcp where
  tcp : Tcp
  recv : Option Waker
  send : Option Waker
  deriving DecidableEq

namespace WakefulTcp

/-- The socket takes the place of the one inside; the wakers stay. -/
def keep (t : WakefulTcp) (tcp : Tcp) : WakefulTcp := { t with tcp := tcp }

/-- `tcp::Socket::close`: a change of the state wakes both tasks. -/
def close (t : WakefulTcp) : WakefulTcp :=
  if Tcp.closeState t.tcp.state = t.tcp.state then t.keep t.tcp.close else ⟨t.tcp.close, none, none⟩

/-- `tcp::Socket::recv_slice`. -/
def recvSlice (t : WakefulTcp) (n : ℕ) : Except TcpRecvError (Bytes × WakefulTcp) :=
  (t.tcp.recvSlice n).map fun r => (r.1, t.keep r.2)

/-- `tcp::Socket::send_slice`. -/
def sendSlice (t : WakefulTcp) (b : Bytes) : Except TcpSendError (ℕ × WakefulTcp) :=
  (t.tcp.sendSlice b).map fun r => (r.1, t.keep r.2)

/-- `tcp::Socket::listen`: the socket is reset and the wakers are dropped, unless it is
listening already. -/
def listen (t : WakefulTcp) (ep : IpListenEndpoint) : Except BindError WakefulTcp :=
  (t.tcp.listen ep).map fun tcp => if t.tcp.isOpen then t.keep tcp else ⟨tcp, none, none⟩

theorem map_eq_ok {ε α β : Type} {x : Except ε α} {f : α → β} {b : β} (h : x.map f = .ok b) :
    ∃ a, x = .ok a ∧ b = f a := by
  cases x with
  | error => cases h
  | ok a => exact ⟨a, rfl, (Except.ok.inj h).symm⟩

/-- The socket inside listens. -/
theorem listen_tcp {t t' : WakefulTcp} {ep : IpListenEndpoint} (h : t.listen ep = .ok t') :
    t.tcp.listen ep = .ok t'.tcp := by
  obtain ⟨tcp, htcp, rfl⟩ := map_eq_ok h
  rw [htcp]
  split <;> rfl

theorem close_tcp (t : WakefulTcp) : t.close.tcp = t.tcp.close := by
  unfold close
  split <;> rfl

end WakefulTcp

end Reference

open Reference in
/-- The reference engine, with wakers in its TCP sockets. -/
def wakeful : Smoltcp where
  Iface := Unit
  Tcp := WakefulTcp
  Udp := Reference.Udp
  ipv4NewChecked := ipv4NewChecked
  ipv4Parse := ipv4Parse
  ipv4Payload := ipv4Payload
  ipv6NewChecked := fun _ => false
  ipv6Parse := fun _ => none
  ipv6Payload := fun _ => []
  tcpNewChecked := tcpNewChecked
  tcpParse := tcpParse
  udpNewChecked := udpNewChecked
  udpParse := udpParse
  segment := segment
  freeIndex := Slab.firstFree
  pollDelay := fun _ _ _ => none
  since := reference.since
  durationFrom := reference.durationFrom
  tcpNew := fun rx tx => ⟨Reference.Tcp.new rx tx, none, none⟩
  tcpState := fun t => t.tcp.state
  tcpIsOpen := fun t => t.tcp.isOpen
  tcpListen := WakefulTcp.listen
  tcpClose := WakefulTcp.close
  tcpRecvSlice := WakefulTcp.recvSlice
  tcpSendSlice := WakefulTcp.sendSlice
  tcpRegisterRecvWaker := fun t cx => { t with recv := some cx }
  tcpRegisterSendWaker := fun t cx => { t with send := some cx }
  tcpTuple := fun t => t.tcp.tuple
  tcpListenEndpoint := fun t => t.tcp.listenEndpoint
  tcpCapacity := fun t => t.tcp.capacity
  udpNew := reference.udpNew
  udpBind := reference.udpBind
  udpRecv := reference.udpRecv
  udpSendSlice := reference.udpSendSlice
  udpRx := reference.udpRx
  udpTx := reference.udpTx
  udpCapacity := reference.udpCapacity

instance : DecidableEq wakeful.Tcp := inferInstanceAs (DecidableEq Reference.WakefulTcp)

instance : DecidableEq wakeful.Udp := inferInstanceAs (DecidableEq Reference.Udp)

open Reference in
theorem wakeful_lawful : wakeful.Lawful where
  freeIndex_free := Slab.free_firstFree
  tcpIsOpen_iff := fun t => Tcp.isOpen_eq_false t.tcp
  tcpNew_capacity := fun _ _ => rfl
  tcpListen_ok := fun h => Tcp.listen_ok (WakefulTcp.listen_tcp h)
  tcpClose_ok := by
    intro t
    have hclose := WakefulTcp.close_tcp t
    show ((WakefulTcp.close t).tcp.state).LocallyClosed ∧ (WakefulTcp.close t).tcp.tuple = _ ∧
      (WakefulTcp.close t).tcp.capacity = _
    rw [hclose]
    exact ⟨Tcp.closeState_locallyClosed _, rfl, rfl⟩
  tcpRecvSlice_ok := by
    intro t n r h
    obtain ⟨r', hr', rfl⟩ := WakefulTcp.map_eq_ok h
    exact Tcp.recvSlice_ok hr'
  tcpSendSlice_ok := by
    intro t b r h
    obtain ⟨r', hr', rfl⟩ := WakefulTcp.map_eq_ok h
    exact Tcp.sendSlice_ok hr'
  tcpRegisterRecvWaker_ok := fun _ _ => ⟨rfl, rfl, rfl⟩
  tcpRegisterSendWaker_ok := fun _ _ => ⟨rfl, rfl, rfl⟩
  udpNew_ok := reference_lawful.udpNew_ok
  udpBind_ok := reference_lawful.udpBind_ok
  udpRecv_nil := reference_lawful.udpRecv_nil
  udpRecv_cons := reference_lawful.udpRecv_cons
  udpSendSlice_ok := reference_lawful.udpSendSlice_ok
  since_self := reference_lawful.since_self

namespace Reference

/-- The buffers of the engine with wakers. -/
def wakefulBuffers : StreamBuffers wakeful := ⟨fun t => t.tcp.rx, fun t => t.tcp.tx⟩

/-- The wakers of the engine with wakers. -/
def wakefulWakers : Wakers wakeful := ⟨WakefulTcp.recv, WakefulTcp.send⟩

theorem wakefulBuffers_lawful : wakefulBuffers.Lawful where
  sendSlice_ok := by
    intro t b hsends
    obtain ⟨t', ht'⟩ := Tcp.sendSlice_sends (t := t.tcp) b hsends
    exact ⟨_, congrArg (Except.map _) ht'⟩
  sendSlice_error := fun t b hsends => congrArg (Except.map _) (buffers_lawful.sendSlice_error t.tcp b hsends)
  recvSlice_ok := by
    intro t n hrecv
    obtain ⟨t', ht'⟩ := Tcp.recvSlice_mayRecv (t := t.tcp) n hrecv
    exact ⟨_, congrArg (Except.map _) ht'⟩
  recvSlice_finished := fun t n hrecv hfin =>
    congrArg (Except.map _) (buffers_lawful.recvSlice_finished t.tcp n hrecv hfin)
  recvSlice_opening := fun t n hrecv hopening =>
    congrArg (Except.map _) (buffers_lawful.recvSlice_opening t.tcp n hrecv hopening)
  recvSlice_closed := by
    intro t n hrecv hclosed
    obtain ⟨err, herr⟩ := buffers_lawful.recvSlice_closed t.tcp n hrecv hclosed
    exact ⟨err, congrArg (Except.map _) herr⟩
  tcpClose_state := by
    intro t
    have hclose := WakefulTcp.close_tcp t
    show (WakefulTcp.close t).tcp.state = _
    rw [hclose]
    exact buffers_lawful.tcpClose_state t.tcp

theorem wakefulBuffers_flows : wakefulBuffers.Flows where
  listen := fun h => buffers_flows.listen (WakefulTcp.listen_tcp h)
  recv := by
    intro t n r h
    obtain ⟨r', hr', rfl⟩ := WakefulTcp.map_eq_ok h
    exact buffers_flows.recv hr'
  send := by
    intro t b r h
    obtain ⟨r', hr', rfl⟩ := WakefulTcp.map_eq_ok h
    exact buffers_flows.send hr'
  close := by
    intro t
    have hclose := WakefulTcp.close_tcp t
    show (WakefulTcp.close t).tcp.rx = _ ∧ (WakefulTcp.close t).tcp.tx = _
    rw [hclose]
    exact ⟨rfl, rfl⟩
  recvWaker := fun _ _ => ⟨rfl, rfl⟩
  sendWaker := fun _ _ => ⟨rfl, rfl⟩

theorem wakefulWakers_lawful : wakefulWakers.Lawful where
  recvWaker := fun _ _ => ⟨rfl, rfl⟩
  sendWaker := fun _ _ => ⟨rfl, rfl⟩
  recvSlice := by
    intro t n r h
    obtain ⟨r', -, rfl⟩ := WakefulTcp.map_eq_ok h
    exact ⟨rfl, rfl⟩
  sendSlice := by
    intro t b r h
    obtain ⟨r', -, rfl⟩ := WakefulTcp.map_eq_ok h
    exact ⟨rfl, rfl⟩
  close := by
    intro t
    by_cases h : Tcp.closeState t.tcp.state = t.tcp.state
    · have hclose : wakeful.tcpClose t = t.keep t.tcp.close := if_pos h
      rw [hclose]
      exact .inl ⟨h, rfl, rfl⟩
    · have hclose : wakeful.tcpClose t = ⟨t.tcp.close, none, none⟩ := if_neg h
      rw [hclose]
      exact .inr ⟨rfl, rfl⟩

/-- The stack with one interface, over the engine with wakers. -/
def wakefulTrial : NetstackBuilder wakeful := ⟨.default, [(eth, ())], by decide⟩

/-- A socket connected to the client, with bytes to send and the wakers of its tasks. -/
def awaited (state : State) (tx : Bytes) (recv send : Option Waker) : wakeful.Tcp :=
  (⟨⟨state, some (server, client), ⟨some server.addr, server.port⟩, (16384, 16384), [], tx⟩, recv, send⟩ : WakefulTcp)

/-- The client connects; two bytes are written to it; task 5 waits to read what it sends; it
acknowledges one byte. -/
def waitForClient : List (Label wakeful) :=
  [.ingress ⟨eth, tcpPacket client server syn false⟩,
    .cycle 0 fun _ => [.receive (some (0, .tcp (awaited .synReceived [] none none)))],
    .ingress ⟨eth, tcpPacket client server ack false⟩,
    .cycle 1 fun _ => [.receive (some (0, .tcp (awaited .established [] none none)))],
    .write (streamOf streamKey 0) 6 [1, 2], .read (streamOf streamKey 0) 5 16,
    .ingress ⟨eth, tcpPacket client server ack false⟩,
    .cycle 2 fun _ => [.receive (some (0, .tcp (awaited .established [2] (some 5) none)))]]

/-- Task 5 waits for the client's stream. -/
def clientAwaited (s : World wakeful × (SessionKey → Tasks)) : Bool :=
  decide (s.1.streams = [streamOf streamKey 0] ∧ (s.2 streamKey).reader = some (5, 16))

end Reference

open Reference in
/-- The task that waits for the client to send something would wait again. -/
theorem stream_tasks_not_lost_awaited : ∃ (w : World wakeful) (g : SessionKey → Tasks),
    wakefulWakers.Runs wakefulBuffers wakefulTrial (w, g) ∧ ∃ e t, w.core.conn streamKey = some (e, t) ∧
      t.recv = some 5 ∧ ∃ r, ((streamOf streamKey 0).pollRead w.core 5 16).result = .ok r ∧ r.value = .pending := by
  obtain ⟨⟨w, g⟩, hs, hcheck⟩ := World.exists_watched (taskWatch wakefulWakers).note
    (fun s l => s.1.Polls (fun _ => InterfaceSlot.Wakes wakefulWakers wakefulBuffers) l) wakefulTrial
    (taskWatch wakefulWakers).init waitForClient clientAwaited (by decide +kernel)
  obtain ⟨hst, hreader⟩ := of_decide_eq_true hcheck
  have hmem : streamOf streamKey 0 ∈ w.streams := by
    show streamOf streamKey 0 ∈ (w, g).1.streams
    rw [hst]
    exact List.mem_singleton_self _
  obtain ⟨e, t, hconn, hread, -⟩ := stream_tasks_not_lost wakeful_lawful wakefulBuffers_lawful wakefulBuffers_flows
    wakefulWakers_lawful hs hmem
  obtain ⟨hwaker, hpending⟩ := hread 5 16 hreader (by decide)
  exact ⟨w, g, hs, e, t, hconn, hwaker, hpending⟩

end WayNetstack

import WayNetstack.Slots
import WayNetstack.Lib.Runs

/-!
# Runs of the stack

The whole stack: the core behind its lock, and the objects alive outside it — the
streams and sessions handed out and not yet dropped. Everything that locks the core
does so for one uninterrupted step, and a run is any sequence of such steps: the
runner queues a packet or performs a cycle, the application uses or drops one of
its objects. A session counts as handed out from the cycle that made it, wherever
it is between the runner and the application.

Hash maps may be visited in any order, so a step may also reorder the tables.
-/

namespace WayNetstack

open Lib

variable {S : Smoltcp}

/-- The stream of a TCP session. -/
def Session.stream? : Session → Option WayTcpStream
  | .tcp st => some st
  | .udp _ => none

/-- The object of a UDP session. -/
def Session.session? : Session → Option WayUdpSession
  | .tcp _ => none
  | .udp ses => some ses

/-- The stack and the objects it has handed out. -/
structure World (S : Smoltcp) where
  core : Core S
  /-- The streams not yet dropped. -/
  streams : List WayTcpStream
  /-- The UDP sessions not yet dropped. -/
  sessions : List WayUdpSession

/-- A step of a run. -/
inductive Label (S : Smoltcp) where
  /-- The runner queues a packet. -/
  | ingress (pkt : IngressPacket)
  /-- The runner performs a cycle, the engine performing the events `polls`. -/
  | cycle (now : Instant) (polls : InterfaceId → List (PollEvent S))
  /-- `poll_read` of a stream. -/
  | read (st : WayTcpStream) (cx : Waker) (room : ℕ)
  /-- `poll_write` of a stream. -/
  | write (st : WayTcpStream) (cx : Waker) (data : Bytes)
  /-- `poll_shutdown` of a stream. -/
  | shutdown (st : WayTcpStream)
  /-- A stream is dropped. -/
  | dropStream (st : WayTcpStream)
  /-- `send` of a session makes an attempt. -/
  | send (ses : WayUdpSession) (payload : Bytes)
  /-- `recv` of a session takes a datagram from its queue. -/
  | recv (ses : WayUdpSession)
  /-- A session is dropped. -/
  | dropSession (ses : WayUdpSession)
  /-- The tables come to be visited in another order. -/
  | rehash (m : SessionManager)

namespace World

/-- The stack just built. -/
def init (b : NetstackBuilder S) : World S := ⟨b.build, [], []⟩

/-- A step can be taken: the object it uses is alive. -/
def Enabled (w : World S) : Label S → Prop
  | .ingress _ | .cycle _ _ => True
  | .read st _ _ | .write st _ _ | .shutdown st | .dropStream st => st ∈ w.streams
  | .send ses _ | .recv ses | .dropSession ses => ses ∈ w.sessions
  | .rehash m => w.core.manager.Rehashed m

/-- The world after a cycle. -/
def afterCycle (w : World S) (r : Cycle S) : World S where
  core := r.core
  streams := w.streams ++ r.accepted.filterMap Session.stream?
  sessions := w.sessions ++ r.accepted.filterMap Session.session?

/-- What a step does. -/
def step (w : World S) : Label S → Op (World S)
  | .ingress pkt => pure { w with core := queueIngress w.core pkt }
  | .cycle now polls => do
    let r ← pollOnce w.core now polls
    pure (w.afterCycle r)
  | .read st cx room => do
    let r ← st.pollRead w.core cx room
    pure { w with core := r.core }
  | .write st cx data => do
    let r ← st.pollWrite w.core cx data
    pure { w with core := r.core }
  | .shutdown st => do
    let r ← st.pollShutdown w.core
    pure { w with core := r.core }
  | .dropStream st => do
    let r ← st.drop w.core
    pure { w with core := r.core, streams := w.streams.erase st }
  | .send ses payload => do
    let r ← ses.trySend w.core payload ses.target
    pure { w with core := r.1 }
  | .recv ses => pure { w with core := (ses.popQueue w.core).1 }
  | .dropSession ses => do
    let r ← ses.drop w.core
    pure { w with core := r.core, sessions := w.sessions.erase ses }
  | .rehash m => pure { w with core := { w.core with manager := m } }

/-- The stack as a labelled system. -/
def Steps : System (World S) (Label S) := fun w l w' => w.Enabled l ∧ (w.step l).result = .ok w'

/-- The worlds that runs from the stack built by `b` reach, the steps of the run
each being allowed by `ok`. -/
def Reachable (ok : World S → Label S → Prop) (b : NetstackBuilder S) (w : World S) : Prop :=
  (Steps.restrict ok).Reaches (init b) w

/-- Any run at all. -/
abbrev AnyRun (b : NetstackBuilder S) (w : World S) : Prop := Reachable (fun _ _ => True) b w

/-- What an observer of runs does at a step. -/
abbrev Observer (S : Smoltcp) (μ : Type) := World S → Label S → World S → μ → μ

/-- The worlds reached together with what an observer, starting from `m`, has seen. -/
def Watched {μ : Type} (obs : Observer S μ) (ok : World S × μ → Label S → Prop)
    (b : NetstackBuilder S) (m : μ) (s : World S × μ) : Prop :=
  ((Steps.observe obs).restrict ok).Reaches (init b, m) s

theorem Watched.mono {μ : Type} {obs : Observer S μ} {ok ok' : World S × μ → Label S → Prop}
    {b : NetstackBuilder S} {m : μ} {s : World S × μ} (h : Watched obs ok b m s)
    (hok : ∀ s l, ok s l → ok' s l) : Watched obs ok' b m s :=
  System.Reaches.mono h fun _ _ _ hstep => ⟨hok _ _ hstep.1, hstep.2⟩

end World

namespace World

/-- `P` holds of the core that a pre-pass has left, if it has. -/
def AfterPrePass (P : Core S → Prop) : Except Fault (Core S × List Session) → Prop
  | .ok r => P r.1
  | .error _ => True

/-- If the step is a cycle, then `P` holds of the core and the polls at the moment
the cycle polls. -/
def AtPoll (P : (InterfaceId → List (PollEvent S)) → Core S → Prop) (w : World S) : Label S → Prop
  | .cycle now polls => AfterPrePass (P polls) (prePass w.core now).result
  | _ => True

/-- Every event of the polls obeys `law`, which may look at the core as well. -/
def PollsObey (law : Core S → InterfaceSlot S → PollEvent S → Prop)
    (polls : InterfaceId → List (PollEvent S)) (c : Core S) : Prop :=
  ∀ slot ∈ c.slots, slot.Obeys (law c) (polls slot.id)

/-- The polls of a cycle obey `law`. -/
abbrev Polls (law : Core S → InterfaceSlot S → PollEvent S → Prop) (w : World S) (l : Label S) : Prop :=
  w.AtPoll (PollsObey law) l

instance {P : Core S → Prop} [DecidablePred P] : ∀ r, Decidable (AfterPrePass P r)
  | .ok r => inferInstanceAs (Decidable (P r.1))
  | .error _ => inferInstanceAs (Decidable True)

instance {P : (InterfaceId → List (PollEvent S)) → Core S → Prop} [∀ polls, DecidablePred (P polls)]
    (w : World S) : ∀ l, Decidable (w.AtPoll P l)
  | .cycle now polls => inferInstanceAs (Decidable (AfterPrePass (P polls) (prePass w.core now).result))
  | .ingress _ | .read _ _ _ | .write _ _ _ | .shutdown _ | .dropStream _ | .send _ _ | .recv _
  | .dropSession _ | .rehash _ => inferInstanceAs (Decidable True)

instance {law : Core S → InterfaceSlot S → PollEvent S → Prop} [∀ c s e, Decidable (law c s e)]
    (polls : InterfaceId → List (PollEvent S)) (c : Core S) : Decidable (PollsObey law polls c) :=
  inferInstanceAs (Decidable (∀ slot ∈ c.slots, _))

end World

end WayNetstack

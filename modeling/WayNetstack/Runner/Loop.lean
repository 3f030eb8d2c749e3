import WayNetstack.Registry.Runs

/-!
# The runner's loop

`NetstackRunner::run` as a task among others. The runner computes its delay, parks in
`select!`, empties the ingress channel, performs a cycle and awaits the egress channel;
at any point between two of these steps other tasks use the streams and sessions, inject
packets, and call `notify_poll` once they have released the lock.

`Notify::notify_waiters` wakes the futures already created and stores nothing, so a call
made while the runner is not parked is gone. The future of the runner is created when it
enters `select!`, whose branches are tried in order.

Every step of the loop that touches the core is a step of `World` (`Runtime.Turn.causes`),
so that what holds along the runs of the world holds along those of the loop; and the
runner is never stuck outside `select!` (`Runtime.Reachable.not_stuck`).
-/

namespace WayNetstack

open Lib

variable {S : Smoltcp}

/-! ### The delay -/

/-- `NetstackRunner::next_poll_delay` at time `now`. -/
def nextPollDelay (c : Core S) (now : Instant) : Option Duration :=
  (c.slots.filterMap fun slot => S.pollDelay now slot.iface slot.sockets).min?

/-- `StdDuration::from_secs(3600)`. -/
def idleSleep : Duration := 3600000000

/-- The sleep that `run` arms for a delay; a delay of zero counts as none. -/
def sleepFor : Option Duration → Duration
  | some d => if d = 0 then idleSleep else d
  | none => idleSleep

/-! ### The state -/

/-- Where the runner is in its loop. -/
inductive Phase where
  /-- At the top of the loop. -/
  | top
  /-- The sleep is armed and `select!` not yet entered. -/
  | armed (sleep : Duration)
  /-- Parked in `select!`; whether its future of `poll_notify` was woken. -/
  | parked (sleep : Duration) (notified : Bool)
  /-- In the loop of `try_recv`. -/
  | draining
  /-- Before the locked part of `poll_once`. -/
  | polling
  /-- Awaiting the egress channel, with the packets still to be sent. -/
  | forwarding (egress : List EgressPacket)
  /-- `poll_once` has returned. -/
  | finishing
  /-- `run` has returned. -/
  | stopped
  deriving DecidableEq

/-- `poll_notify.notify_waiters()`. -/
def Phase.notifyWaiters : Phase → Phase
  | .parked sleep _ => .parked sleep true
  | p => p

/-- The stack with its runner and the tasks around it. -/
structure Runtime (S : Smoltcp) where
  world : World S
  phase : Phase
  /-- The packets in the ingress channel. -/
  channel : List IngressPacket
  /-- Whether the handle, the only sender of the ingress channel, is alive. -/
  handle : Bool
  /-- The calls of `notify_poll` that tasks are about to make. -/
  calls : ℕ

/-- The stack as `build` starts it. -/
def Runtime.init (b : NetstackBuilder S) : Runtime S := ⟨.init b, .top, [], true, 0⟩

/-! ### The other tasks -/

/-- The step is an operation of the application, not of the runner. -/
def Label.ofApp : Label S → Bool
  | .ingress _ | .cycle _ _ => false
  | _ => true

/-- Whether an operation calls `notify_poll` once it has released the lock. -/
def World.notifies (w : World S) : Label S → Bool
  | .read st cx room => (st.pollRead w.core cx room).result.toOption.any (·.notify)
  | .write st cx data => (st.pollWrite w.core cx data).result.toOption.any (·.notify)
  | .shutdown st => (st.pollShutdown w.core).result.toOption.any (·.notify)
  | .dropStream st => (st.drop w.core).result.toOption.any (·.notify)
  | .dropSession ses => (ses.drop w.core).result.toOption.any (·.notify)
  -- `send` notifies after `Sent` and after `Full`
  | .send ses payload => (ses.trySend w.core payload ses.target).result.toOption.any fun r =>
    decide (r.2 = .sent ∨ r.2 = .full)
  | .ingress _ | .cycle _ _ | .recv _ | .rehash _ => false

/-- `NetstackHandle::send_ip_packet`. -/
def Runtime.sendIpPacket (s : Runtime S) (pkt : IngressPacket) :
    Runtime S × Except NetstackError Unit :=
  if (s.world.core.slot pkt.interface).isNone then (s, .error (.interfaceNotFound pkt.interface))
  else if s.phase = .stopped then (s, .error .channelClosed)
  else if max s.world.core.config.channelCapacity 1 ≤ s.channel.length then (s, .error .channelFull)
  else ({ s with channel := s.channel ++ [pkt], calls := s.calls + 1 }, .ok ())

/-! ### Steps -/

/-- A step of the runner or of another task. -/
inductive Act (S : Smoltcp) where
  /-- The delay is computed and the sleep armed. -/
  | delay (now : Instant)
  /-- `select!` is entered. -/
  | park
  /-- The branch of `poll_notify`. -/
  | wake
  /-- The branch of `ingress_rx`, with a packet. -/
  | recv
  /-- The branch of `ingress_rx`, the handle being gone. -/
  | stop
  /-- The branch of the sleep. -/
  | timeout
  /-- `try_recv` gives a packet. -/
  | drain
  /-- `try_recv` gives none. -/
  | drained
  /-- The locked part of `poll_once`. -/
  | cycle (now : Instant) (polls : InterfaceId → List (PollEvent S))
  /-- A packet is sent to the egress channel. -/
  | forward
  /-- The receiver of the egress channel is gone. -/
  | egressGone
  /-- The sessions are sent to the accept channel. -/
  | accept
  /-- `notify_poll_done`, and back to the top. -/
  | done
  /-- An operation on a stream or session. -/
  | app (l : Label S)
  /-- An operation's call of `notify_poll`. -/
  | notify
  /-- `send_ip_packet`. -/
  | sendIp (pkt : IngressPacket)
  /-- The handle is dropped. -/
  | dropHandle

/-- The label with which a step of the loop changes the world. -/
inductive Act.Causes : Act S → Label S → Prop
  | recv (pkt : IngressPacket) : Causes .recv (.ingress pkt)
  | drain (pkt : IngressPacket) : Causes .drain (.ingress pkt)
  | cycle {now : Instant} {polls : InterfaceId → List (PollEvent S)} : Causes (.cycle now polls) (.cycle now polls)
  | app {l : Label S} (hl : l.ofApp = true) : Causes (.app l) l

namespace Runtime

/-- What a step does, if it can be taken. -/
def step (s : Runtime S) : Act S → Option (Runtime S)
  | .delay now =>
    if s.phase = .top then some { s with phase := .armed (sleepFor (nextPollDelay s.world.core now)) }
    else none
  | .park =>
    match s.phase with
    | .armed sleep => some { s with phase := .parked sleep false }
    | _ => none
  | .wake =>
    match s.phase with
    | .parked _ true => some { s with phase := .draining }
    | _ => none
  | .recv =>
    match s.phase, s.channel with
    | .parked _ false, pkt :: rest => some { s with
        world := { s.world with core := queueIngress s.world.core pkt }
        channel := rest
        phase := .draining }
    | _, _ => none
  | .stop =>
    match s.phase, s.channel, s.handle with
    | .parked _ false, [], false => some { s with phase := .stopped }
    | _, _, _ => none
  | .timeout =>
    match s.phase, s.channel, s.handle with
    | .parked _ false, [], true => some { s with phase := .draining }
    | _, _, _ => none
  | .drain =>
    match s.phase, s.channel with
    | .draining, pkt :: rest => some { s with
        world := { s.world with core := queueIngress s.world.core pkt }
        channel := rest }
    | _, _ => none
  | .drained =>
    match s.phase, s.channel with
    | .draining, [] => some { s with phase := .polling }
    | _, _ => none
  | .cycle now polls =>
    match s.phase, (pollOnce s.world.core now polls).result with
    | .polling, .ok r => some { s with world := s.world.afterCycle r, phase := .forwarding r.egress }
    | _, _ => none
  | .forward =>
    match s.phase with
    | .forwarding (_ :: rest) => some { s with phase := .forwarding rest }
    | _ => none
  | .egressGone =>
    match s.phase with
    | .forwarding (_ :: _) => some { s with phase := .finishing }
    | _ => none
  | .accept => if s.phase = .forwarding [] then some { s with phase := .finishing } else none
  | .done => if s.phase = .finishing then some { s with phase := .top } else none
  | .app l =>
    if l.ofApp = true ∧ s.world.Enabled l then
      (s.world.step l).result.toOption.map fun w => { s with
        world := w
        calls := s.calls + (s.world.notifies l).toNat }
    else none
  | .notify =>
    match s.calls with
    | n + 1 => some { s with calls := n, phase := s.phase.notifyWaiters }
    | 0 => none
  | .sendIp pkt => if s.handle then some (s.sendIpPacket pkt).1 else none
  | .dropHandle => if s.handle then some { s with handle := false } else none

/-- The loop as a labelled system. -/
def Steps : System (Runtime S) (Act S) := fun s a t => s.step a = some t

/-- What runs of the loop reach. -/
def Reachable (b : NetstackBuilder S) (s : Runtime S) : Prop := Steps.Reaches (init b) s

/-- What a step did, and when it can be taken. -/
inductive Turn (s : Runtime S) : Act S → Runtime S → Prop
  | delay (now : Instant) (hp : s.phase = .top) :
    Turn s (.delay now) { s with phase := .armed (sleepFor (nextPollDelay s.world.core now)) }
  | park {sleep : Duration} (hp : s.phase = .armed sleep) :
    Turn s .park { s with phase := .parked sleep false }
  | wake {sleep : Duration} (hp : s.phase = .parked sleep true) : Turn s .wake { s with phase := .draining }
  | recv {sleep : Duration} {pkt : IngressPacket} {rest : List IngressPacket}
    (hp : s.phase = .parked sleep false) (hc : s.channel = pkt :: rest) :
    Turn s .recv { s with
      world := { s.world with core := queueIngress s.world.core pkt }
      channel := rest
      phase := .draining }
  | stop {sleep : Duration} (hp : s.phase = .parked sleep false) (hc : s.channel = [])
    (hh : s.handle = false) : Turn s .stop { s with phase := .stopped }
  | timeout {sleep : Duration} (hp : s.phase = .parked sleep false) (hc : s.channel = [])
    (hh : s.handle = true) : Turn s .timeout { s with phase := .draining }
  | drain {pkt : IngressPacket} {rest : List IngressPacket} (hp : s.phase = .draining)
    (hc : s.channel = pkt :: rest) :
    Turn s .drain { s with
      world := { s.world with core := queueIngress s.world.core pkt }
      channel := rest }
  | drained (hp : s.phase = .draining) (hc : s.channel = []) :
    Turn s .drained { s with phase := .polling }
  | cycle {now : Instant} {polls : InterfaceId → List (PollEvent S)} {r : Cycle S}
    (hp : s.phase = .polling) (hr : (pollOnce s.world.core now polls).result = .ok r) :
    Turn s (.cycle now polls) { s with world := s.world.afterCycle r, phase := .forwarding r.egress }
  | forward {pkt : EgressPacket} {rest : List EgressPacket} (hp : s.phase = .forwarding (pkt :: rest)) :
    Turn s .forward { s with phase := .forwarding rest }
  | egressGone {pkt : EgressPacket} {rest : List EgressPacket}
    (hp : s.phase = .forwarding (pkt :: rest)) : Turn s .egressGone { s with phase := .finishing }
  | accept (hp : s.phase = .forwarding []) : Turn s .accept { s with phase := .finishing }
  | done (hp : s.phase = .finishing) : Turn s .done { s with phase := .top }
  | app {l : Label S} {w : World S} (ofApp : l.ofApp = true) (does : World.Steps s.world l w) :
    Turn s (.app l) { s with world := w, calls := s.calls + (s.world.notifies l).toNat }
  | notify {n : ℕ} (hn : s.calls = n + 1) :
    Turn s .notify { s with calls := n, phase := s.phase.notifyWaiters }
  | sendIp (pkt : IngressPacket) (hh : s.handle = true) : Turn s (.sendIp pkt) (s.sendIpPacket pkt).1
  | dropHandle (hh : s.handle = true) : Turn s .dropHandle { s with handle := false }

variable {s t : Runtime S} {a : Act S}

theorem turn_of_step (h : s.step a = some t) : s.Turn a t := by
  cases a with
  | delay now =>
    simp only [step, Option.ite_none_right_eq_some, Option.some.injEq] at h
    obtain ⟨hp, rfl⟩ := h
    exact .delay now hp
  | park =>
    simp only [step] at h
    split at h <;> cases h
    next hp => exact .park hp
  | wake =>
    simp only [step] at h
    split at h <;> cases h
    next hp => exact .wake hp
  | recv =>
    simp only [step] at h
    split at h <;> cases h
    next hp hc => exact .recv hp hc
  | stop =>
    simp only [step] at h
    split at h <;> cases h
    next hp hc hh => exact .stop hp hc hh
  | timeout =>
    simp only [step] at h
    split at h <;> cases h
    next hp hc hh => exact .timeout hp hc hh
  | drain =>
    simp only [step] at h
    split at h <;> cases h
    next hp hc => exact .drain hp hc
  | drained =>
    simp only [step] at h
    split at h <;> cases h
    next hp hc => exact .drained hp hc
  | cycle now polls =>
    simp only [step] at h
    split at h <;> cases h
    next hp hr => exact .cycle hp hr
  | forward =>
    simp only [step] at h
    split at h <;> cases h
    next hp => exact .forward hp
  | egressGone =>
    simp only [step] at h
    split at h <;> cases h
    next hp => exact .egressGone hp
  | accept =>
    simp only [step, Option.ite_none_right_eq_some, Option.some.injEq] at h
    obtain ⟨hp, rfl⟩ := h
    exact .accept hp
  | done =>
    simp only [step, Option.ite_none_right_eq_some, Option.some.injEq] at h
    obtain ⟨hp, rfl⟩ := h
    exact .done hp
  | app l =>
    simp only [step, Option.ite_none_right_eq_some] at h
    obtain ⟨⟨hl, hen⟩, h⟩ := h
    obtain ⟨w, hw, rfl⟩ := Option.map_eq_some_iff.mp h
    exact .app hl ⟨hen, Traced.toOption_eq_some.mp hw⟩
  | notify =>
    simp only [step] at h
    split at h <;> cases h
    next n hn => exact .notify hn
  | sendIp pkt =>
    simp only [step, Option.ite_none_right_eq_some, Option.some.injEq] at h
    obtain ⟨hh, rfl⟩ := h
    exact .sendIp pkt hh
  | dropHandle =>
    simp only [step, Option.ite_none_right_eq_some, Option.some.injEq] at h
    obtain ⟨hh, rfl⟩ := h
    exact .dropHandle hh

/-! ### The loop and the world -/

/-- An injected packet joins the channel, or nothing changes. -/
theorem sendIpPacket_cases (s : Runtime S) (pkt : IngressPacket) : (s.sendIpPacket pkt).1 = s ∨
    (s.sendIpPacket pkt).1 = { s with channel := s.channel ++ [pkt], calls := s.calls + 1 } := by
  unfold sendIpPacket
  split
  · exact .inl rfl
  split
  · exact .inl rfl
  split
  · exact .inl rfl
  · exact .inr rfl

/-- A step of the loop leaves the world alone or is a step of it. -/
theorem Turn.causes (ht : s.Turn a t) :
    (t.world = s.world ∧ ∀ now polls, a ≠ .cycle now polls) ∨ ∃ l, a.Causes l ∧ World.Steps s.world l t.world := by
  cases ht with
  | delay | park | wake | stop | timeout | drained | forward | egressGone | accept | done | notify
  | dropHandle => exact .inl ⟨rfl, nofun⟩
  | @recv sleep pkt => exact .inr ⟨.ingress pkt, .recv pkt, trivial, rfl⟩
  | @drain pkt => exact .inr ⟨.ingress pkt, .drain pkt, trivial, rfl⟩
  | @cycle now polls r hp hr => exact .inr ⟨_, .cycle, trivial, Traced.bind_result_ok.mpr ⟨r, hr, rfl⟩⟩
  | @app l w ofApp does => exact .inr ⟨l, .app ofApp, does⟩
  | sendIp pkt hh => rcases s.sendIpPacket_cases pkt with heq | heq <;> rw [heq] <;> exact .inl ⟨rfl, nofun⟩

theorem Turn.world (h : s.Turn a t) : t.world = s.world ∨ ∃ l, World.Steps s.world l t.world :=
  h.causes.imp (·.1) fun ⟨l, _, hl⟩ => ⟨l, hl⟩

/-- **The world of the loop goes through a run of the world.** -/
theorem Reachable.anyRun {b : NetstackBuilder S} (h : Reachable b s) : World.AnyRun b s.world := by
  have start : World.AnyRun b (init b).world := System.Reaches.refl _ _
  refine System.Reaches.invariant (P := fun s : Runtime S => World.AnyRun b s.world) h start ?_
  intro s a t _ hs hstep
  rcases (turn_of_step hstep).world with heq | ⟨l, hl⟩
  · rw [heq]
    exact hs
  · exact hs.step (l := l) ⟨trivial, hl⟩

/-- **The runner is never stuck outside `select!`**: until it parks or stops, it can
take its next step, whatever the engine does. -/
theorem Reachable.not_stuck (hS : S.Lawful) {b : NetstackBuilder S} (h : Reachable b s)
    (hparked : ∀ sleep notified, s.phase ≠ .parked sleep notified) (hstopped : s.phase ≠ .stopped)
    (now : Instant) (polls : InterfaceId → List (PollEvent S)) :
    ∃ a ∈ [.delay now, .park, .drain, .drained, .cycle now polls, .forward, .accept, .done],
      (s.step a).isSome := by
  cases hp : s.phase with
  | top => exact ⟨.delay now, by simp, by simp [step, hp]⟩
  | armed sleep => exact ⟨.park, by simp, by simp [step, hp]⟩
  | parked sleep notified => exact absurd hp (hparked sleep notified)
  | draining =>
    cases hc : s.channel with
    | nil => exact ⟨.drained, by simp, by simp [step, hp, hc]⟩
    | cons pkt rest => exact ⟨.drain, by simp, by simp [step, hp, hc]⟩
  | polling =>
    -- a cycle from a world in order ends without a fault
    have hw : s.world.Inv False b := World.Reachable.inv hS False.elim h.anyRun
    obtain ⟨⟨r, hr, -⟩, -⟩ := pollOnce_ok hS False.elim hw.registered hw.budgeted now polls
    exact ⟨.cycle now polls, by simp, by simp [step, hp, hr]⟩
  | forwarding egress =>
    cases egress with
    | nil => exact ⟨.accept, by simp, by simp [step, hp]⟩
    | cons pkt rest => exact ⟨.forward, by simp, by simp [step, hp]⟩
  | finishing => exact ⟨.done, by simp, by simp [step, hp]⟩
  | stopped => exact absurd hp hstopped

end Runtime

end WayNetstack

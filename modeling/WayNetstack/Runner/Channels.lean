import WayNetstack.Runner.Egress

/-!
# From the runner to the application

The tail of `poll_once` and what is at the other end of it. A cycle leaves its packets in
`scratch_egress` and its sessions in `scratch_accepted`. The runner then sends the packets to
the egress channel, which is bounded, and the sessions to the accept channel, which is not. If
the receiver of the packets is gone `poll_once` returns at once: the sessions stay in the
scratch buffer, and the next call of `poll_once` drops them. Sessions are dropped as well when
the handle, with the receiver of the accept channel, is gone, and when the runner returns.

`Channels` is the loop of the runner with both channels. Main results:

* `objects_owned` — its runs are runs of the loop in which every object the stack counts as
  alive is in one place: with the application, in the accept channel, or in the scratch buffer;
* `runner_waits_for_receiver` — what the runner can wait for, and when it stops.
-/

namespace WayNetstack

open Lib Lib.Traced

variable {S : Smoltcp}

/-! ### The channels -/

/-- The stack with the channels between its runner and the application. -/
structure Channels (S : Smoltcp) where
  runtime : Runtime S
  /-- `scratch_accepted`. -/
  scratch : List Session
  /-- The packets in the egress channel. -/
  egress : List EgressPacket
  /-- Whether the receiver of the egress channel is alive. -/
  receiver : Bool
  /-- The sessions in the accept channel. -/
  accept : List Session
  /-- Whether the receiver of the accept channel is alive. -/
  accepting : Bool
  /-- The sessions that `accept()` has returned and the application has not dropped. -/
  held : List Session

/-- A step of the stack with its channels. -/
inductive Move (S : Smoltcp) where
  /-- A step of the loop. -/
  | task (a : Act S)
  /-- A session left in `scratch_accepted` is dropped, by `clear` or with the runner. -/
  | discard
  /-- `accept_tx.send` of a session. -/
  | hand
  /-- The application receives a packet. -/
  | receive
  /-- The receiver of the packets is dropped, and the packets in the channel with it. -/
  | dropReceiver
  /-- `accept()` returns a session. -/
  | accept
  /-- The receiver of the accept channel is dropped, after the sender of the ingress channel. -/
  | closeAccept
  /-- A session in the accept channel is dropped with the receiver. -/
  | drainAccept

namespace Channels

/-- The stack as `build` starts it. -/
def init (b : NetstackBuilder S) : Channels S := ⟨.init b, [], [], true, [], true, []⟩

/-- `channel_capacity.max(1)`. -/
def capacity (d : Channels S) : ℕ := max d.runtime.world.core.config.channelCapacity 1

/-- Whether the channels permit a step of the loop. -/
def allows (d : Channels S) : Act S → Bool
  -- the scratch buffer is cleared before the cycle, and emptied after it
  | .cycle _ _ | .accept => d.scratch.isEmpty
  | .forward => d.receiver && decide (d.egress.length < d.capacity)
  | .egressGone => !d.receiver
  | .app l => l.object?.all fun s => decide (s ∈ d.held)
  | .delay _ | .park | .wake | .recv | .stop | .timeout | .drain | .drained | .done | .notify | .sendIp _
  | .dropHandle => true

/-- What a step does, if it can be taken. -/
def step (d : Channels S) : Move S → Option (Channels S)
  | .task a =>
    if d.allows a then
      (d.runtime.step a).map fun r => { d with
        runtime := r
        scratch := d.scratch ++ d.runtime.surfaces a
        egress := d.egress ++ d.runtime.forwards a
        held := d.held.diff a.drops }
    else none
  | .discard =>
    match d.scratch with
    | ses :: rest =>
      if d.runtime.phase = .polling ∨ d.runtime.phase = .stopped then
        (d.runtime.discard ses).map fun r => { d with runtime := r, scratch := rest }
      else none
    | [] => none
  | .hand =>
    match d.scratch with
    | ses :: rest =>
      if d.runtime.phase = .forwarding [] then
        if d.accepting then some { d with scratch := rest, accept := d.accept ++ [ses] }
        -- the session comes back in the error and is dropped with it
        else (d.runtime.discard ses).map fun r => { d with runtime := r, scratch := rest }
      else none
    | [] => none
  | .receive =>
    match d.egress with
    | _ :: rest => if d.receiver then some { d with egress := rest } else none
    | [] => none
  | .dropReceiver => if d.receiver then some { d with receiver := false, egress := [] } else none
  | .accept =>
    match d.accept with
    | ses :: rest => if d.runtime.handle then some { d with accept := rest, held := d.held ++ [ses] } else none
    | [] => none
  | .closeAccept =>
    if d.runtime.handle = false ∧ d.accepting = true then some { d with accepting := false } else none
  | .drainAccept =>
    match d.accept with
    | ses :: rest =>
      if d.accepting = false then
        (d.runtime.step (.app ses.dropLabel)).map fun r => { d with runtime := r, accept := rest }
      else none
    | [] => none

/-- The stack with its channels as a labelled system. -/
def Steps : System (Channels S) (Move S) := fun d m d' => d.step m = some d'

/-- What runs of the stack with its channels reach. -/
def Reachable (b : NetstackBuilder S) (d : Channels S) : Prop := Steps.Reaches (init b) d

/-- What a step did. -/
inductive Turn (d : Channels S) : Move S → Channels S → Prop
  | task {a : Act S} {r : Runtime S} (ha : d.allows a = true) (hr : d.runtime.step a = some r) :
    Turn d (.task a) { d with
      runtime := r
      scratch := d.scratch ++ d.runtime.surfaces a
      egress := d.egress ++ d.runtime.forwards a
      held := d.held.diff a.drops }
  | discard {ses : Session} {rest : List Session} {r : Runtime S} (hs : d.scratch = ses :: rest)
    (hp : d.runtime.phase = .polling ∨ d.runtime.phase = .stopped) (hr : d.runtime.discard ses = some r) :
    Turn d .discard { d with runtime := r, scratch := rest }
  | hand {ses : Session} {rest : List Session} (hs : d.scratch = ses :: rest)
    (hp : d.runtime.phase = .forwarding []) (ha : d.accepting = true) :
    Turn d .hand { d with scratch := rest, accept := d.accept ++ [ses] }
  | refused {ses : Session} {rest : List Session} {r : Runtime S} (hs : d.scratch = ses :: rest)
    (hp : d.runtime.phase = .forwarding []) (ha : d.accepting = false)
    (hr : d.runtime.discard ses = some r) : Turn d .hand { d with runtime := r, scratch := rest }
  | receive {pkt : EgressPacket} {rest : List EgressPacket} (he : d.egress = pkt :: rest)
    (hr : d.receiver = true) : Turn d .receive { d with egress := rest }
  | dropReceiver (hr : d.receiver = true) : Turn d .dropReceiver { d with receiver := false, egress := [] }
  | accept {ses : Session} {rest : List Session} (ha : d.accept = ses :: rest)
    (hh : d.runtime.handle = true) : Turn d .accept { d with accept := rest, held := d.held ++ [ses] }
  | closeAccept (hh : d.runtime.handle = false) (ha : d.accepting = true) :
    Turn d .closeAccept { d with accepting := false }
  | drainAccept {ses : Session} {rest : List Session} {r : Runtime S} (hs : d.accept = ses :: rest)
    (ha : d.accepting = false) (hr : d.runtime.step (.app ses.dropLabel) = some r) :
    Turn d .drainAccept { d with runtime := r, accept := rest }

variable {d d' : Channels S} {m : Move S} {b : NetstackBuilder S}

theorem turn_of_step (h : d.step m = some d') : d.Turn m d' := by
  cases m with
  | task a =>
    simp only [step, Option.ite_none_right_eq_some] at h
    obtain ⟨ha, h⟩ := h
    obtain ⟨r, hr, rfl⟩ := Option.map_eq_some_iff.mp h
    exact .task ha hr
  | discard =>
    simp only [step] at h
    split at h
    · next hs =>
      rw [Option.ite_none_right_eq_some] at h
      obtain ⟨hp, h⟩ := h
      obtain ⟨r, hr, rfl⟩ := Option.map_eq_some_iff.mp h
      exact .discard hs hp hr
    · cases h
  | hand =>
    simp only [step] at h
    split at h
    · next hs =>
      rw [Option.ite_none_right_eq_some] at h
      obtain ⟨hp, h⟩ := h
      split at h
      · next ha =>
        cases h
        exact .hand hs hp ha
      · next ha =>
        obtain ⟨r, hr, rfl⟩ := Option.map_eq_some_iff.mp h
        exact .refused hs hp (by simpa using ha) hr
    · cases h
  | receive =>
    simp only [step] at h
    split at h
    · next he =>
      rw [Option.ite_none_right_eq_some] at h
      obtain ⟨hr, h⟩ := h
      cases h
      exact .receive he hr
    · cases h
  | dropReceiver =>
    simp only [step, Option.ite_none_right_eq_some] at h
    obtain ⟨hr, h⟩ := h
    cases h
    exact .dropReceiver hr
  | accept =>
    simp only [step] at h
    split at h
    · next ha =>
      rw [Option.ite_none_right_eq_some] at h
      obtain ⟨hh, h⟩ := h
      cases h
      exact .accept ha hh
    · cases h
  | closeAccept =>
    simp only [step, Option.ite_none_right_eq_some] at h
    obtain ⟨⟨hh, ha⟩, h⟩ := h
    cases h
    exact .closeAccept hh ha
  | drainAccept =>
    simp only [step] at h
    split at h
    · next hs =>
      rw [Option.ite_none_right_eq_some] at h
      obtain ⟨ha, h⟩ := h
      obtain ⟨r, hr, rfl⟩ := Option.map_eq_some_iff.mp h
      exact .drainAccept hs ha hr
    · cases h

end Channels

namespace Channels

variable {d d' : Channels S} {m : Move S} {b : NetstackBuilder S}

/-- What holds of the stack with its channels in every run. -/
structure Inv (b : NetstackBuilder S) (d : Channels S) : Prop where
  runtime : Runtime.Reachable b d.runtime
  /-- Every object is in one place. -/
  owned : d.runtime.world.objects.Perm (d.held ++ d.accept ++ d.scratch)
  bounded : d.egress.length ≤ max b.config.channelCapacity 1
  /-- The runner stops when the handle is gone. -/
  stopped : d.runtime.phase = .stopped → d.runtime.handle = false
  closed : d.accepting = false → d.runtime.handle = false

theorem init_inv (b : NetstackBuilder S) : (init b).Inv b :=
  ⟨System.Reaches.refl _ _, .nil, Nat.zero_le _, fun h => absurd h (by simp [init, Runtime.init]),
    fun h => absurd h (by simp [init])⟩

theorem Inv.config (hS : S.Lawful) (hi : d.Inv b) : d.runtime.world.core.config = b.config := by
  have hw : d.runtime.world.Inv False b := World.Reachable.inv hS False.elim hi.runtime.anyRun
  exact hw.config

/-- A step of the loop to `stopped` is taken without a handle. -/
theorem stopped_of_turn {s t : Runtime S} {a : Act S} (h : s.Turn a t)
    (hs : s.phase = .stopped → s.handle = false) (ht : t.phase = .stopped) : t.handle = false := by
  cases h with
  | delay | park | wake | recv | timeout | drained | cycle | forward | egressGone | accept | done => cases ht
  | stop hp hc hh => exact hh
  | drain hp hc => cases hp.symm.trans ht
  | app => exact hs ht
  | notify hn =>
    refine hs ?_
    cases hp : s.phase <;> simp_all [Phase.notifyWaiters]
  | sendIp pkt hh => rcases s.sendIpPacket_cases pkt with heq | heq <;> rw [heq] at ht ⊢ <;> exact hs ht
  | dropHandle => rfl

/-- The objects after a step of the loop. -/
theorem owned_task {a : Act S} {r : Runtime S} (ha : d.allows a = true) (hr : d.runtime.step a = some r)
    (ho : d.runtime.world.objects.Perm (d.held ++ d.accept ++ d.scratch)) :
    r.world.objects.Perm (d.held.diff a.drops ++ d.accept ++ (d.scratch ++ d.runtime.surfaces a)) := by
  have key := (Runtime.turn_of_step hr).objects.trans ((ho.append_right _).diff_right _)
  rw [List.append_assoc] at key
  -- what the application drops it holds
  cases a with
  | app l =>
    have hsurf : d.runtime.surfaces (.app l) = [] := rfl
    rw [hsurf, List.append_nil] at key ⊢
    cases l with
    | dropStream st | dropSession ses =>
      have hmem : _ ∈ d.held := of_decide_eq_true ha
      simp only [Act.drops, Label.drops, List.diff_cons, List.diff_nil, List.append_assoc] at key ⊢
      rwa [List.erase_append_left _ hmem] at key
    | _ => exact key
  | _ => exact key

/-- The first of three lists loses nothing when the head of a later one goes. -/
theorem perm_erase_middle {objs before rest : List Session} {ses : Session}
    (h : objs.Perm (before ++ ses :: rest)) : (objs.erase ses).Perm (before ++ rest) := by
  have key := (h.trans List.perm_middle).erase ses
  rwa [List.erase_cons_head] at key

theorem Inv.step (hS : S.Lawful) (hi : d.Inv b) (h : d.Turn m d') : d'.Inv b := by
  have hdiscard : ∀ {ses rest r}, d.scratch = ses :: rest →
      (∀ sleep notified, d.runtime.phase ≠ .parked sleep notified) → d.runtime.discard ses = some r →
      Inv b { d with runtime := r, scratch := rest } := by
    intro ses rest r hs hp hr
    have hd := Runtime.discarded hp hr
    refine ⟨hi.runtime.discard hr, hd.objects.trans ?_, hi.bounded, ?_, ?_⟩
    · exact perm_erase_middle (hs ▸ hi.owned)
    · exact fun hstop => hd.handle.trans (hi.stopped (hd.phase.symm.trans hstop))
    · exact fun hacc => hd.handle.trans (hi.closed hacc)
  cases h with
  | @task a r ha hr =>
    have hturn := Runtime.turn_of_step hr
    refine ⟨hi.runtime.step hr, owned_task ha hr hi.owned, ?_, stopped_of_turn hturn hi.stopped, ?_⟩
    · -- a packet is sent only into a channel with room
      show (d.egress ++ d.runtime.forwards a).length ≤ _
      cases hturn with
      | forward hp =>
        have hroom : d.egress.length < d.capacity := by
          simp only [allows, Bool.and_eq_true, decide_eq_true_eq] at ha
          exact ha.2
        rw [capacity, hi.config hS] at hroom
        simp only [Runtime.forwards, hp, List.length_append, List.length_singleton]
        exact hroom
      | _ => exact (List.append_nil d.egress).symm ▸ hi.bounded
    · intro hacc
      by_cases hdrop : a = .dropHandle
      · subst hdrop
        cases hturn
        rfl
      · exact (hturn.handle hdrop).trans (hi.closed hacc)
  | discard hs hp hr =>
    refine hdiscard hs (fun sleep notified heq => ?_) hr
    rw [heq] at hp
    rcases hp with h | h <;> cases h
  | @hand ses rest hs hp ha =>
    refine ⟨hi.runtime, ?_, hi.bounded, hi.stopped, hi.closed⟩
    have howned := hi.owned
    rw [hs] at howned
    simpa only [List.append_assoc, List.cons_append, List.nil_append] using howned
  | refused hs hp ha hr =>
    refine hdiscard hs (fun sleep notified heq => ?_) hr
    cases hp.symm.trans heq
  | receive he hr =>
    refine ⟨hi.runtime, hi.owned, ?_, hi.stopped, hi.closed⟩
    have hb := hi.bounded
    rw [he] at hb
    exact (Nat.le_succ _).trans hb
  | dropReceiver hr => exact ⟨hi.runtime, hi.owned, Nat.zero_le _, hi.stopped, hi.closed⟩
  | @accept ses rest ha hh =>
    refine ⟨hi.runtime, ?_, hi.bounded, hi.stopped, hi.closed⟩
    have howned := hi.owned
    rw [ha] at howned
    simpa only [List.append_assoc, List.cons_append, List.nil_append] using howned
  | closeAccept hh ha => exact ⟨hi.runtime, hi.owned, hi.bounded, hi.stopped, fun _ => hh⟩
  | @drainAccept ses rest r hs ha hr =>
    have howned := hi.owned
    rw [hs, List.append_assoc, List.cons_append] at howned
    refine ⟨hi.runtime.step (l := .app ses.dropLabel) hr, ?_, hi.bounded, ?_, ?_⟩
    · rw [List.append_assoc]
      exact (Runtime.objects_drop hr).trans (perm_erase_middle howned)
    · exact stopped_of_turn (Runtime.turn_of_step hr) hi.stopped
    · exact fun hacc => ((Runtime.turn_of_step hr).handle (by simp)).trans (hi.closed hacc)

theorem Reachable.inv (hS : S.Lawful) (h : Reachable b d) : d.Inv b :=
  System.Reaches.invariant h (init_inv b) fun _ _ _ _ hi hstep => hi.step hS (turn_of_step hstep)

/-- A state found by computing a run. -/
theorem exists_of_run (b : NetstackBuilder S) (moves : List (Move S)) (check : Channels S → Bool)
    (h : (System.compute step (fun _ _ _ u => u) (fun _ _ => True) (init b, ()) moves).any
      (fun s => check s.1) = true) : ∃ d, Reachable b d ∧ check d = true :=
  System.exists_of_compute_free (R := Steps) (fun h => h) h

end Channels

namespace Reference

/-- A client's datagram opens a session, and the engine then does `sends` in the same poll; the
runner is about to send on what came of it. -/
def openAndSend (sends : List (PollEvent reference)) : List (Move reference) :=
  [.task (.sendIp ⟨eth, udpPacket client server [1]⟩), .task (.delay 0), .task .park, .task .recv, .task .drained,
    .task (.cycle 0 fun _ => hears 0 [([1], client)] :: sends)]

/-- The session that `openAndSend` opens. -/
def surfacedSession : Session := .udp (sessionOf ⟨eth, .udp, client, server⟩ 0 0)

end Reference

section Main

open Channels

variable {d : Channels S} {b : NetstackBuilder S}

/-- **Every object has one owner.** In every state that the stack with its channels reaches, its
loop has gone through a run of the loop, and the sessions that were made and not dropped are,
each once, those of the application, those in the accept channel and those in the scratch
buffer. Each entry of the UDP table has its session there, and each entry of the TCP table that
is neither pending nor orphaned its stream; and a session can be dropped wherever it is. -/
theorem objects_owned (hS : S.Lawful) (h : Channels.Reachable b d) :
    Runtime.Reachable b d.runtime ∧
    d.runtime.world.objects.Perm (d.held ++ d.accept ++ d.scratch) ∧
    (d.held ++ d.accept ++ d.scratch).Nodup ∧
    (∀ k e, d.runtime.world.core.manager.udp.lookup k = some e →
      ∃ ses, .udp ses ∈ d.held ++ d.accept ++ d.scratch ∧ ses.key = k ∧ ses.queue = e.queue) ∧
    (∀ k e, d.runtime.world.core.manager.tcp.lookup k = some e → e.state = .pending ∨ e.orphaned = true ∨
      ∃ st, .tcp st ∈ d.held ++ d.accept ++ d.scratch ∧ st.key = k) ∧
    ∀ ses ∈ d.held ++ d.accept ++ d.scratch,
      (d.runtime.step (.app ses.dropLabel)).isSome ∧ (d.runtime.discard ses).isSome := by
  have hi := h.inv hS
  have hw : d.runtime.world.Inv False b := World.Reachable.inv hS False.elim hi.runtime.anyRun
  refine ⟨hi.runtime, hi.owned, hi.owned.nodup_iff.mp hw.registered.nodup_objects, ?_, ?_, ?_⟩
  · intro k e he
    obtain ⟨ses, hses, hk, hq⟩ := hw.registered.udp.holder he
    refine ⟨ses, hi.owned.mem_iff.mp ?_, hk, hq⟩
    exact List.mem_append_right _ (List.mem_map_of_mem hses)
  · intro k e he
    by_cases hp : e.state = .pending
    · exact .inl hp
    cases ho : e.orphaned with
    | true => exact .inr (.inl rfl)
    | false =>
      obtain ⟨st, hst, hk⟩ := hw.registered.tcp.holder he hp ho
      refine .inr (.inr ⟨st, hi.owned.mem_iff.mp ?_, hk⟩)
      exact List.mem_append_left _ (List.mem_map_of_mem hst)
  · intro ses hses
    have hmem := hi.owned.mem_iff.mpr hses
    exact ⟨Option.isSome_iff_exists.mpr (hi.runtime.exists_drop hS hmem),
      Option.isSome_iff_exists.mpr (hi.runtime.exists_discard hS hmem)⟩

open Reference in
/-- A run that leaves a session in the scratch buffer. -/
theorem objects_owned_scratch : ∃ d : Channels reference, Channels.Reachable (trial .default) d ∧
    d.scratch = [surfacedSession] ∧ (d.runtime.discard surfacedSession).isSome := by
  obtain ⟨d, hd, hcheck⟩ := Channels.exists_of_run (trial .default)
    (.dropReceiver :: openAndSend [.transmit [9]] ++ [.task .egressGone, .task .done])
    (fun d => decide (d.scratch = [surfacedSession])) (by decide +kernel)
  have hscratch : d.scratch = [surfacedSession] := of_decide_eq_true hcheck
  refine ⟨d, hd, hscratch, ?_⟩
  have howned := objects_owned reference_lawful hd
  exact (howned.2.2.2.2.2 surfacedSession (by simp [hscratch])).2

/-- `accept()`, polled: a session, the end, or nothing yet. -/
def Channels.acceptResult (d : Channels S) : Poll (Option Session) :=
  match d.accept with
  | ses :: _ => .ready (some ses)
  | [] => if d.runtime.phase = .stopped then .ready none else .pending

/-- The steps that are the runner's own. -/
def Channels.runnerMoves (now : Instant) (polls : InterfaceId → List (PollEvent S)) : List (Move S) :=
  [.task (.delay now), .task .park, .task .drain, .task .drained, .discard, .task (.cycle now polls),
    .task .forward, .task .egressGone, .hand, .task .accept, .task .done]

/-- A step of the loop that the channels permit. -/
theorem Channels.isSome_task {a : Act S} (ha : d.allows a = true) (hr : (d.runtime.step a).isSome) :
    (d.step (.task a)).isSome := by
  simpa only [step, ha, if_true, Option.isSome_map] using hr

/-- A session of the scratch buffer can be dropped. -/
theorem Channels.Inv.exists_discard (hS : S.Lawful) (hi : d.Inv b) {ses : Session} (hses : ses ∈ d.scratch) :
    ∃ r, d.runtime.discard ses = some r :=
  hi.runtime.exists_discard hS (hi.owned.mem_iff.mpr (List.mem_append_right _ hses))

/-- The egress channel has room, or it is full and a packet received makes room. -/
theorem Channels.Inv.room_or_full (hS : S.Lawful) (hi : d.Inv b) (hrec : d.receiver = true) :
    d.allows .forward = true ∨ d.egress.length = d.capacity ∧ ∃ others,
      d.step .receive = some { d with egress := others } ∧ { d with egress := others }.allows .forward = true := by
  by_cases hroom : d.egress.length < d.capacity
  · exact .inl (by simp [allows, hrec, hroom])
  · have hfull : d.egress.length = d.capacity := by
      have hb := hi.bounded
      rw [capacity, hi.config hS] at hroom ⊢
      omega
    -- the capacity is not zero
    obtain ⟨first, others, hfirst⟩ : ∃ first others, d.egress = first :: others :=
      List.exists_cons_of_length_pos (by rw [hfull]; exact Nat.lt_of_lt_of_le Nat.one_pos (le_max_right _ _))
    have hlen : others.length < d.capacity := by
      rw [← hfull, hfirst]
      exact Nat.lt_succ_self _
    refine .inr ⟨hfull, others, by simp [Channels.step, hfirst, hrec], ?_⟩
    simp only [allows, hrec, Bool.true_and, decide_eq_true_eq]
    exact hlen

/-- **What the runner waits for.** It stops only when the handle is gone, never because the
egress receiver is, so that `accept()` does not report the end to the owner of the handle.
Outside `select!` it can always take its next step, whatever the engine does, unless the egress
channel is full and its receiver alive; then a packet received makes room for the next. -/
theorem runner_waits_for_receiver (hS : S.Lawful) (h : Channels.Reachable b d) :
    (d.runtime.phase = .stopped → d.runtime.handle = false) ∧
    (d.runtime.handle = true → d.acceptResult ≠ .ready none) ∧
    ((∀ sleep notified, d.runtime.phase ≠ .parked sleep notified) → d.runtime.phase ≠ .stopped →
      ∀ now polls, (∃ m ∈ runnerMoves now polls, (d.step m).isSome) ∨
        d.egress.length = d.capacity ∧ ∃ d', d.step .receive = some d' ∧ (d'.step (.task .forward)).isSome) := by
  have hi := h.inv hS
  refine ⟨hi.stopped, fun hh => ?_, fun hparked hstopped now polls => ?_⟩
  · unfold acceptResult
    cases d.accept with
    | cons ses rest => simp
    | nil =>
      rw [if_neg fun hstop => by cases hh.symm.trans (hi.stopped hstop)]
      simp
  · obtain ⟨a, ha, hsome⟩ := hi.runtime.not_stuck hS hparked hstopped now polls
    obtain ⟨r, hr⟩ := Option.isSome_iff_exists.mp hsome
    have hturn := Runtime.turn_of_step hr
    cases hturn with
    | delay now' hp =>
      exact .inl ⟨.task (.delay now), by simp [runnerMoves], isSome_task rfl (by simp [Runtime.step, hp])⟩
    | park => exact .inl ⟨.task .park, by simp [runnerMoves], isSome_task rfl hsome⟩
    | drain => exact .inl ⟨.task .drain, by simp [runnerMoves], isSome_task rfl hsome⟩
    | drained => exact .inl ⟨.task .drained, by simp [runnerMoves], isSome_task rfl hsome⟩
    | done => exact .inl ⟨.task .done, by simp [runnerMoves], isSome_task rfl hsome⟩
    | cycle hp _ =>
      -- what an earlier cycle has left is dropped first
      cases hs : d.scratch with
      | nil =>
        refine .inl ⟨.task (.cycle now polls), by simp [runnerMoves], isSome_task (by simp [allows, hs]) ?_⟩
        simp only [List.mem_cons, reduceCtorEq, Act.cycle.injEq, List.not_mem_nil, or_false, false_or] at ha
        rwa [ha.1, ha.2] at hsome
      | cons ses rest =>
        obtain ⟨r', hr'⟩ := hi.exists_discard hS (show ses ∈ d.scratch by simp [hs])
        exact .inl ⟨.discard, by simp [runnerMoves], by simp [Channels.step, hs, hp, hr']⟩
    | @forward pkt rest hp =>
      cases hrec : d.receiver with
      | false =>
        refine .inl ⟨.task .egressGone, by simp [runnerMoves], isSome_task (by simp [allows, hrec]) ?_⟩
        simp [Runtime.step, hp]
      | true =>
        rcases hi.room_or_full hS hrec with hroom | ⟨hfull, others, hreceive, hroom⟩
        · exact .inl ⟨.task .forward, by simp [runnerMoves], isSome_task hroom hsome⟩
        · exact .inr ⟨hfull, _, hreceive, isSome_task hroom hsome⟩
    | accept hp =>
      cases hs : d.scratch with
      | nil => exact .inl ⟨.task .accept, by simp [runnerMoves], isSome_task (by simp [allows, hs]) hsome⟩
      | cons ses rest =>
        obtain ⟨r', hr'⟩ := hi.exists_discard hS (show ses ∈ d.scratch by simp [hs])
        refine .inl ⟨.hand, by simp [runnerMoves], ?_⟩
        cases hacc : d.accepting <;> simp [Channels.step, hs, hp, hacc, hr']
    | wake | recv | stop | timeout | egressGone | app | notify | sendIp | dropHandle => simp at ha

open Reference in
/-- The runner waits for room in a channel of one packet. -/
theorem runner_waits_for_receiver_full : ∃ d : Channels reference,
    Channels.Reachable (trial { NetstackConfig.default with channelCapacity := 0 }) d ∧
      d.egress.length = d.capacity ∧ d.runtime.handle = true ∧ d.acceptResult ≠ .ready none := by
  obtain ⟨d, hd, hcheck⟩ := Channels.exists_of_run
    (trial { NetstackConfig.default with channelCapacity := 0 })
    (openAndSend [.transmit [8], .transmit [9]] ++ [.task .forward])
    (fun d => decide (d.egress.length = d.capacity ∧ d.runtime.handle = true)) (by decide +kernel)
  obtain ⟨hfull, hh⟩ := of_decide_eq_true hcheck
  exact ⟨d, hd, hfull, hh, (runner_waits_for_receiver reference_lawful hd).2.1 hh⟩

end Main

end WayNetstack

import WayNetstack.Runner.Loop

/-!
# Waking the runner

The runner must not sleep on work. Four operations give a socket work that only a poll
can carry out: bytes accepted by `poll_write`, a datagram accepted by `send`, and a close
requested by `poll_shutdown` or by the drop of a stream. The observer `watchWork` keeps
the operations whose work no poll has seen.

Two things can leave work behind. `poll_write` that accepts bytes does not call
`notify_poll`, and a call made between the poll of a cycle and the next `select!` wakes
nobody. Where neither happens (`Attended`) the runner is never asleep on work, and where
either does it can fall asleep on it (`runner_not_asleep_on_work`).
-/

namespace WayNetstack

open Lib

variable {S : Smoltcp}

/-! ### Work -/

/-- Whether an operation gives a socket work for the next poll. -/
def World.givesWork (w : World S) : Label S → Bool
  | .write st cx data => (st.pollWrite w.core cx data).result.toOption.any fun r =>
    match r.value with
    | .ready (.ok _) => true
    | _ => false
  | .send ses payload => (ses.trySend w.core payload ses.target).result.toOption.any fun r =>
    decide (r.2 = .sent)
  | .shutdown _ | .dropStream _ => true
  | _ => false

/-- Note the operations that have given work since the last poll. -/
def watchWork (s : Runtime S) (a : Act S) (_ : Runtime S) (work : List (Label S)) : List (Label S) :=
  match a with
  | .app l => if s.world.givesWork l then work ++ [l] else work
  | .cycle _ _ => []
  | _ => work

section Notifies

variable {c : Core S} {st : WayTcpStream}

/-- `poll_write` notifies when it has to wait, and only then. -/
theorem pollWrite_notify {cx : Waker} {data : Bytes} {r : StreamOp S (Poll (Except IoError ℕ))}
    (h : (st.pollWrite c cx data).result = .ok r) : r.notify = true ↔ r.value = .pending := by
  unfold WayTcpStream.pollWrite at h
  split at h
  · cases h
    simp
  · obtain ⟨socket, -, h⟩ := Traced.bind_result_ok.mp h
    split at h
    · split at h <;> cases h <;> simp
    · split at h <;> cases h <;> simp

theorem pollShutdown_notify {r : StreamOp S (Poll (Except IoError Unit))}
    (h : (st.pollShutdown c).result = .ok r) : r.notify = true := by
  unfold WayTcpStream.pollShutdown at h
  split at h
  · cases h
    rfl
  · obtain ⟨socket, -, h⟩ := Traced.bind_result_ok.mp h
    cases h
    rfl

theorem dropStream_notify {r : StreamOp S Unit} (h : (st.drop c).result = .ok r) : r.notify = true := by
  unfold WayTcpStream.drop at h
  split at h
  · obtain ⟨c', -, h⟩ := Traced.bind_result_ok.mp h
    cases h
    rfl
  · cases h
    rfl

/-- `poll_write` that accepts bytes does not notify the runner. -/
theorem notifies_write {w : World S} {cx : Waker} {data : Bytes}
    (h : w.givesWork (.write st cx data) = true) : w.notifies (.write st cx data) = false := by
  obtain ⟨r, hr, hvalue⟩ := (Option.any_eq_true _ _).mp h
  have hnot : r.value ≠ .pending := by
    intro hpending
    simp [hpending] at hvalue
  simp only [World.notifies, hr, Option.any_some]
  rw [Bool.eq_false_iff, Ne, pollWrite_notify (Traced.toOption_eq_some.mp hr)]
  exact hnot

/-- Every other operation that gives work notifies the runner. -/
theorem notifies_of_givesWork {w w' : World S} {l : Label S} (hstep : World.Steps w l w')
    (h : w.givesWork l = true) : w.notifies l = true ∨ ∃ st cx data, l = .write st cx data := by
  cases l with
  | ingress | cycle | read | recv | dropSession | rehash => cases h
  | write st cx data => exact .inr ⟨st, cx, data, rfl⟩
  | shutdown st =>
    obtain ⟨r, hr, -⟩ := Traced.bind_result_ok.mp hstep.2
    left
    simp only [World.notifies, Traced.toOption_eq_some.mpr hr, Option.any_some]
    exact pollShutdown_notify hr
  | dropStream st =>
    obtain ⟨r, hr, -⟩ := Traced.bind_result_ok.mp hstep.2
    left
    simp only [World.notifies, Traced.toOption_eq_some.mpr hr, Option.any_some]
    exact dropStream_notify hr
  | send ses payload =>
    obtain ⟨r, hr, hsent⟩ := (Option.any_eq_true _ _).mp h
    left
    simp only [World.notifies, hr, Option.any_some]
    simp [of_decide_eq_true hsent]

end Notifies

/-! ### What is to come -/

/-- What the runner may be on its way to. -/
inductive Milestone where
  /-- The poll of a cycle. -/
  | poll
  /-- The end of a cycle. -/
  | finish

/-- Whether the milestone is still to come when the poll is over. -/
def Milestone.afterPoll : Milestone → Bool
  | .poll => false
  | .finish => true

/-- Whether the runner is bound to come to the milestone from here. -/
def Phase.leads (m : Milestone) : Phase → Bool
  | .parked _ notified => notified
  | .draining | .polling => true
  | .forwarding _ | .finishing => m.afterPoll
  | .top | .armed _ | .stopped => false

/-- Whether the runner passes the milestone with this step. -/
def Act.passes : Milestone → Act S → Bool
  | .poll, .cycle _ _ => true
  | .finish, .done => true
  | _, _ => false

/-- The step is one of the runner itself. -/
def Act.ofRunner : Act S → Bool
  | .app _ | .notify | .sendIp _ | .dropHandle => false
  | _ => true

/-- Whether the runner is in `select!`. -/
def Phase.isParked : Phase → Bool
  | .parked _ _ => true
  | _ => false

/-- A runner in `select!` is woken. -/
theorem Phase.leads_notifyWaiters {m : Milestone} {p : Phase} (h : p.isParked = true ∨ p.leads m = true) :
    p.notifyWaiters.leads m = true := by
  cases p <;> simp_all [notifyWaiters, leads, isParked]

/-- No other runner is. -/
theorem Phase.notifyWaiters_of_not_isParked {p : Phase} (h : ¬p.isParked = true) :
    p.notifyWaiters = p := by
  cases p <;> simp_all [notifyWaiters, isParked]

namespace Runtime

/-- The milestone is to come: the runner is on its way to it, or a packet waits for it. -/
def Leads (m : Milestone) (s : Runtime S) : Prop := s.phase.leads m = true ∨ s.channel ≠ []

instance (m : Milestone) (s : Runtime S) : Decidable (s.Leads m) := inferInstanceAs (Decidable (_ ∨ _))

/-- The milestone or a call of `notify_poll` is to come, unless the runner has stopped. -/
def Assured (m : Milestone) (s : Runtime S) : Prop := s.phase = .stopped ∨ s.Leads m ∨ 0 < s.calls

/-- Parked in `select!` with no wake pending. -/
def Asleep (s : Runtime S) : Prop := (∃ sleep, s.phase = .parked sleep false) ∧ s.channel = [] ∧ s.calls = 0

/-- A cycle is due: the runner is on its way to one, or a packet waits for it. -/
abbrev Due (s : Runtime S) : Prop := s.Leads .poll

variable {m : Milestone} {s t : Runtime S} {a : Act S}

/-- A runner that is asleep has nothing before it. -/
theorem Asleep.not_assured (h : s.Asleep) : ¬s.Assured m := by
  obtain ⟨⟨sleep, hp⟩, hc, hn⟩ := h
  simp [Assured, Leads, hp, hc, hn, Phase.leads]

/-- A step that leads nowhere else, and takes nothing from the channel and the calls. -/
theorem Assured.same (h : s.Assured m) (hp : s.phase = .stopped → t.phase = .stopped)
    (hl : s.phase.leads m = true → t.phase.leads m = true) (hc : t.channel = s.channel)
    (hn : s.calls ≤ t.calls) : t.Assured m := by
  rcases h with h | h | h
  · exact .inl (hp h)
  · refine .inr (.inl ?_)
    unfold Leads at h ⊢
    rw [hc]
    exact h.imp_left hl
  · exact .inr (.inr (Nat.lt_of_lt_of_le h hn))

theorem Assured.of_leads (h : t.phase.leads m = true) : t.Assured m := .inr (.inl (.inl h))

/-- **The milestone stays assured until it is passed**, if every call of `notify_poll` finds the
runner parked or stopped or the milestone to come, or is not the last one to come. -/
theorem Assured.turn (ht : s.Turn a t) (h : s.Assured m) (hpass : a.passes m = false)
    (hheed : a = .notify → s.phase.isParked = true ∨ s.phase = .stopped ∨ s.Leads m ∨ 1 < s.calls) :
    t.Assured m := by
  cases ht with
  | delay now hp | park hp => exact h.same (by simp [hp]) (by simp [hp, Phase.leads]) rfl le_rfl
  | wake | recv | timeout => exact .of_leads rfl
  | drain hp | drained hp => exact .of_leads (by simp [hp, Phase.leads])
  | stop => exact .inl rfl
  | cycle hp =>
    cases m with
    | poll => cases hpass
    | finish => exact .of_leads rfl
  | forward hp | egressGone hp | accept hp =>
    exact h.same (by simp [hp]) (by simp [hp, Phase.leads]) rfl le_rfl
  | done hp =>
    cases m with
    | poll => exact h.same (by simp [hp]) (by simp [hp, Phase.leads, Milestone.afterPoll]) rfl le_rfl
    | finish => cases hpass
  | app => exact h.same id id rfl (Nat.le_add_right _ _)
  | @notify n hn =>
    rcases hheed rfl with hparked | hstop | hlead | hmore
    · exact .of_leads (Phase.leads_notifyWaiters (.inl hparked))
    · exact .inl (by simp [hstop, Phase.notifyWaiters])
    · exact .inr (.inl (hlead.imp_left fun hl => Phase.leads_notifyWaiters (.inr hl)))
    · have hleft : 0 < n := by omega
      exact .inr (.inr hleft)
  | sendIp pkt hh =>
    rcases s.sendIpPacket_cases pkt with heq | heq
    · rw [heq]
      exact h
    · rw [heq]
      exact .inr (.inr (Nat.succ_pos _))
  | dropHandle => exact h.same id id rfl le_rfl

/-- Any other call of `notify_poll` changes nothing but the number of calls. -/
theorem Turn.notify_unheeded (ht : s.Turn .notify t) (hparked : ¬s.phase.isParked = true) (hlead : ¬s.Leads m)
    (hmore : ¬1 < s.calls) : ¬t.Leads m ∧ t.calls = 0 ∧ t.phase = s.phase := by
  cases ht with
  | @notify n hn =>
    have hsame : s.phase.notifyWaiters = s.phase := Phase.notifyWaiters_of_not_isParked hparked
    refine ⟨?_, by simp only; omega, hsame⟩
    unfold Leads at hlead ⊢
    rw [hsame]
    exact hlead

/-- The runner alone can fall asleep before it comes to the milestone. -/
def CanSleep (m : Milestone) (s : Runtime S) : Prop :=
  ∃ t, (Steps.restrict fun _ a => a.ofRunner = true ∧ a.passes m = false).Reaches s t ∧ t.Asleep

theorem CanSleep.step (ht : t.CanSleep m) (h : s.step a = some t) (ha : a.ofRunner = true)
    (hpass : a.passes m = false) : s.CanSleep m := by
  obtain ⟨u, hrun, hasleep⟩ := ht
  have first : (Steps.restrict fun _ a => a.ofRunner = true ∧ a.passes m = false).Reaches s t :=
    (System.Reaches.refl _ _).step (l := a) ⟨⟨ha, hpass⟩, h⟩
  exact ⟨u, Relation.ReflTransGen.trans first hrun, hasleep⟩

theorem canSleep_of_armed {sleep : Duration} (hp : s.phase = .armed sleep) (hc : s.channel = [])
    (hn : s.calls = 0) : s.CanSleep m := by
  have parked : CanSleep m { s with phase := .parked sleep false } :=
    ⟨_, System.Reaches.refl _ _, ⟨sleep, rfl⟩, hc, hn⟩
  exact parked.step (a := .park) (by simp [step, hp]) rfl (by cases m <;> rfl)

theorem canSleep_of_top (hp : s.phase = .top) (hc : s.channel = []) (hn : s.calls = 0) : s.CanSleep m := by
  have armed : CanSleep m { s with phase := .armed (sleepFor (nextPollDelay s.world.core 0)) } :=
    canSleep_of_armed rfl hc hn
  exact armed.step (a := .delay 0) (by simp [step, hp]) rfl (by cases m <;> rfl)

theorem canSleep_of_finishing (hp : s.phase = .finishing) (hc : s.channel = []) (hn : s.calls = 0) :
    s.CanSleep .poll := by
  have top : CanSleep .poll { s with phase := .top } := canSleep_of_top rfl hc hn
  exact top.step (a := .done) (by simp [step, hp]) rfl rfl

theorem canSleep_of_forwarding {egress : List EgressPacket} (hp : s.phase = .forwarding egress)
    (hc : s.channel = []) (hn : s.calls = 0) : s.CanSleep .poll := by
  induction egress generalizing s with
  | nil =>
    have finishing : CanSleep .poll { s with phase := .finishing } := canSleep_of_finishing rfl hc hn
    exact finishing.step (a := .accept) (by simp [step, hp]) rfl rfl
  | cons pkt rest ih =>
    have forwarding : CanSleep .poll { s with phase := .forwarding rest } := ih rfl hc hn
    exact forwarding.step (a := .forward) (by simp [step, hp]) rfl rfl

/-- With neither the milestone nor a call to come, the runner alone can fall asleep. -/
theorem canSleep_of_not_leads (hlead : ¬s.Leads m) (hs : s.phase ≠ .stopped) (hn : s.calls = 0) :
    s.CanSleep m := by
  have hc : s.channel = [] := by
    by_contra hne
    exact hlead (.inr hne)
  have hphase : ¬s.phase.leads m = true := fun h => hlead (.inl h)
  cases hp : s.phase with
  | top => exact canSleep_of_top hp hc hn
  | armed sleep => exact canSleep_of_armed hp hc hn
  | parked sleep notified =>
    cases notified with
    | false => exact ⟨s, System.Reaches.refl _ _, ⟨sleep, hp⟩, hc, hn⟩
    | true => exact absurd (by simp [hp, Phase.leads]) hphase
  | draining | polling => exact absurd (by simp [hp, Phase.leads]) hphase
  | forwarding egress =>
    cases m with
    | poll => exact canSleep_of_forwarding hp hc hn
    | finish => exact absurd (by simp [hp, Phase.leads, Milestone.afterPoll]) hphase
  | finishing =>
    cases m with
    | poll => exact canSleep_of_finishing hp hc hn
    | finish => exact absurd (by simp [hp, Phase.leads, Milestone.afterPoll]) hphase
  | stopped => exact absurd hp hs

end Runtime

/-! ### The condition -/

/-- Bytes are accepted by `poll_write` only while a cycle is due or a call of
`notify_poll` to come; and such a call, while there is work, finds the runner parked or a
cycle due, or is not the last one to come. -/
def Attended (s : Runtime S × List (Label S)) : Act S → Prop
  | .app (.write st cx data) => s.1.world.givesWork (.write st cx data) = true → s.1.Due ∨ 0 < s.1.calls
  | .notify => s.2 = [] ∨ s.1.phase.isParked = true ∨ s.1.Due ∨ 1 < s.1.calls
  | _ => True

instance (s : Runtime S × List (Label S)) : ∀ a, Decidable (Attended s a)
  | .app (.write _ _ _) => inferInstanceAs (Decidable (_ = true → _ ∨ _))
  | .notify => inferInstanceAs (Decidable (_ ∨ _ ∨ _ ∨ _))
  | .app (.ingress _) | .app (.cycle _ _) | .app (.read _ _ _) | .app (.shutdown _)
  | .app (.dropStream _) | .app (.send _ _) | .app (.recv _) | .app (.dropSession _)
  | .app (.rehash _) | .delay _ | .park | .wake | .recv | .stop | .timeout | .drain | .drained
  | .cycle _ _ | .forward | .egressGone | .accept | .done | .sendIp _ | .dropHandle =>
    inferInstanceAs (Decidable True)

/-! ### The invariant -/

/-- Work is seen to: a cycle is due or a call to come, unless the runner has stopped. -/
def Seen (s : Runtime S × List (Label S)) : Prop := s.2 = [] ∨ s.1.Assured .poll

/-- **An attended step keeps work seen to.** -/
theorem Seen.step {s t : Runtime S} {a : Act S} {work : List (Label S)} (ht : s.Turn a t)
    (hatt : Attended (s, work) a) (h : Seen (s, work)) : Seen (t, watchWork s a t work) := by
  cases a with
  | cycle => exact .inl rfl
  | app l =>
    by_cases hgive : s.world.givesWork l = true
    · right
      cases ht with
      | app ofApp does =>
        -- work is given: a call is to come, or the bytes are attended to
        rcases notifies_of_givesWork does hgive with hn | ⟨st, cx, data, rfl⟩
        · exact .inr (.inr (by simp [hn]))
        · rcases hatt hgive with hdue | hcalls
          · exact .inr (.inl hdue)
          · exact .inr (.inr (Nat.lt_of_lt_of_le hcalls (Nat.le_add_right _ _)))
    · simp only [watchWork, hgive, if_false, Bool.false_eq_true]
      exact h.imp_right fun h => h.turn ht rfl nofun
  | notify =>
    rcases hatt with hwork | hheed
    · exact .inl hwork
    · exact h.imp_right fun h => h.turn ht rfl fun _ => hheed.imp_right .inr
  | delay | park | wake | recv | stop | timeout | drain | drained | forward | egressGone | accept | done
  | sendIp | dropHandle => exact h.imp_right fun h => h.turn ht rfl nofun

/-! ### Runs -/

namespace Runtime

/-- The runs of the loop, with the work watched, whose steps are each allowed by `ok`. -/
abbrev Watching (ok : Runtime S × List (Label S) → Act S → Prop) :
    System (Runtime S × List (Label S)) (Act S) := (Steps.observe watchWork).restrict ok

/-- What such runs from the start reach. -/
def Watched (ok : Runtime S × List (Label S) → Act S → Prop) (b : NetstackBuilder S)
    (s : Runtime S × List (Label S)) : Prop := (Watching ok).Reaches (init b, []) s

end Runtime

namespace Runtime

variable {s t : Runtime S} {a : Act S} {work : List (Label S)}

/-- Until the next poll the runner alone leaves the work as it is. -/
theorem watchWork_ofRunner (ha : a.ofRunner = true) (hpass : a.passes .poll = false) :
    watchWork s a t work = work := by
  cases a with
  | cycle => cases hpass
  | app => cases ha
  | _ => rfl

/-- After a step that is not attended there is work, no cycle is due and no call is to
come. -/
theorem not_due_of_not_attended (ht : s.Turn a t) (hatt : ¬Attended (s, work) a) :
    watchWork s a t work ≠ [] ∧ ¬t.Due ∧ t.calls = 0 ∧ (t.phase = .stopped → s.phase = .stopped) := by
  cases ht with
  | @app l w ofApp does =>
    cases l with
    | write st cx data =>
      obtain ⟨hgive, hnot⟩ := Classical.not_imp.mp hatt
      obtain ⟨hd, hcalls⟩ := not_or.mp hnot
      have hcalls : ¬0 < s.calls := hcalls
      refine ⟨by simp [watchWork, hgive], hd, ?_, id⟩
      simp only [notifies_write hgive, Bool.toNat_false, Nat.add_zero]
      omega
    | ingress | cycle | read | shutdown | dropStream | send | recv | dropSession | rehash =>
      exact absurd trivial hatt
  | @notify n hn =>
    obtain ⟨hwork, hrest⟩ := not_or.mp hatt
    obtain ⟨hparked, hrest⟩ := not_or.mp hrest
    obtain ⟨hd, hmore⟩ := not_or.mp hrest
    obtain ⟨hd', hcalls, hsame⟩ := (Turn.notify hn).notify_unheeded hparked hd hmore
    exact ⟨hwork, hd', hcalls, hsame.symm.trans⟩
  | delay | park | wake | recv | stop | timeout | drain | drained | cycle | forward | egressGone
  | accept | done | sendIp | dropHandle => exact absurd trivial hatt

end Runtime

/-- **The runner is never asleep on work**, along every run in which bytes are accepted
by `poll_write` only while a cycle is due or a call of `notify_poll` to come, and such a
call finds the runner parked, or no work, or another cycle or call on its way. The
condition is exact: after a step that breaks it the runner alone can fall asleep on the
work. -/
theorem runner_not_asleep_on_work (b : NetstackBuilder S) :
    (∀ s, Runtime.Watched Attended b s → s.1.Asleep → s.2 = []) ∧
    (∀ s a t, Runtime.Watched (fun _ _ => True) b s → Runtime.Steps.observe watchWork s a t →
      s.1.phase ≠ .stopped → ¬Attended s a →
      ∃ u, (Runtime.Watching fun _ a => a.ofRunner = true).Reaches t u ∧ u.1.Asleep ∧ u.2 ≠ []) := by
  refine ⟨fun s hs hasleep => ?_, fun s a t _ hstep hrun hatt => ?_⟩
  · have hseen : Seen s := by
      refine System.Reaches.invariant (P := Seen) hs (.inl rfl) ?_
      rintro ⟨s, work⟩ a ⟨t, work'⟩ - hseen ⟨hatt, hstep, hobs⟩
      cases hobs
      exact hseen.step (Runtime.turn_of_step hstep) hatt
    exact hseen.resolve_right hasleep.not_assured
  · obtain ⟨hwork, hd, hn, hstop⟩ :=
      Runtime.not_due_of_not_attended (Runtime.turn_of_step hstep.1) hatt
    obtain ⟨t, work'⟩ := t
    have hwork : work' ≠ [] := by
      rw [show work' = _ from hstep.2]
      exact hwork
    obtain ⟨u, hreach, hasleep⟩ : t.CanSleep .poll :=
      Runtime.canSleep_of_not_leads hd (fun h => hrun (hstop h)) hn
    refine ⟨(u, work'), hreach.lift (fun u => (u, work')) ?_, hasleep, hwork⟩
    rintro s a t ⟨⟨ha, hpass⟩, hstep⟩
    exact ⟨a, ha, hstep, (Runtime.watchWork_ofRunner ha hpass).symm⟩

/-! ### Computed runs -/

/-- A state of the loop found by computing a run. -/
theorem Runtime.exists_watched (ok : Runtime S × List (Label S) → Act S → Prop)
    [∀ s a, Decidable (ok s a)] (b : NetstackBuilder S) (acts : List (Act S))
    (check : Runtime S × List (Label S) → Bool)
    (h : (System.compute step watchWork ok (init b, []) acts).any check = true) :
    ∃ s, Watched ok b s ∧ check s = true :=
  System.exists_of_compute (fun h => h) h

namespace Reference

/-- The runner receives a packet, performs a cycle and goes back to the top. -/
def round (now : Instant) (pkt : IngressPacket) (events : List (PollEvent reference)) :
    List (Act reference) :=
  [.sendIp pkt, .notify, .delay now, .park, .recv, .drained, .cycle now fun _ => events, .accept, .done]

/-- A client connects; the stream is handed out and the runner at the top of its loop. -/
def connect : List (Act reference) :=
  round 0 ⟨eth, tcpPacket client server syn false⟩ [takes 0 (connected 16384 client .synReceived)] ++
  round 1 ⟨eth, tcpPacket client server ack false⟩ [takes 0 (connected 16384 client .established)]

/-- The client's stream. -/
def clientStream : WayTcpStream := streamOf ⟨eth, .tcp, client, server⟩ 0

/-- The call that left the work is a write to the client's stream. -/
def isWrite : Label reference → Bool
  | .write st _ _ => decide (st = clientStream)
  | _ => false

theorem exists_of_isWrite {l : Label reference} (h : isWrite l = true) :
    ∃ cx data, l = .write clientStream cx data := by
  cases l with
  | write st cx data =>
    cases of_decide_eq_true h
    exact ⟨cx, data, rfl⟩
  | _ => cases h

/-- The call that left the work is a shutdown of the client's stream. -/
def isShutdown : Label reference → Bool
  | .shutdown st => decide (st = clientStream)
  | _ => false

theorem eq_of_isShutdown {l : Label reference} (h : isShutdown l = true) :
    l = .shutdown clientStream := by
  cases l with
  | shutdown st =>
    cases of_decide_eq_true h
    rfl
  | _ => cases h

end Reference

open Reference in
/-- A shutdown finds the runner parked, wakes it and is seen to: asleep again, the
runner has left no work. -/
theorem runner_not_asleep_on_work_shutdown : ∃ s : Runtime reference × List (Label reference),
    Runtime.Watched Attended (trial .default) s ∧ s.1.Asleep ∧ s.1.world.streams = [clientStream] ∧
      s.2 = [] := by
  obtain ⟨s, hs, hcheck⟩ := Runtime.exists_watched Attended (trial .default)
    (connect ++ [.delay 2, .park, .app (.shutdown clientStream), .notify, .wake, .drained,
      .cycle 2 fun _ => [.egress 0 (.tcp (connected 16384 client .finWait1)),
        .transmit (tcpPacket server client (Reference.ack ||| fin) false)],
      .forward, .accept, .done, .delay 3, .park])
    (fun s => decide (s.1.phase = .parked idleSleep false ∧ s.1.channel = [] ∧ s.1.calls = 0 ∧
      s.1.world.streams = [clientStream])) (by decide +kernel)
  obtain ⟨hp, hc, hn, hstreams⟩ := of_decide_eq_true hcheck
  have hasleep : s.1.Asleep := ⟨⟨idleSleep, hp⟩, hc, hn⟩
  exact ⟨s, hs, hasleep, hstreams, (runner_not_asleep_on_work (trial .default)).1 s hs hasleep⟩

open Reference in
/-- The runner is asleep on work: on bytes that `poll_write` has accepted while the runner
was parked; and on a shutdown whose call of `notify_poll` came after the delay was
computed and before the runner parked. -/
theorem asleep_on_work :
    (∃ s : Runtime reference × List (Label reference),
      Runtime.Watched (fun _ _ => True) (trial .default) s ∧ s.1.Asleep ∧
        ∃ cx data, s.2 = [.write clientStream cx data]) ∧
    (∃ s : Runtime reference × List (Label reference),
      Runtime.Watched (fun _ _ => True) (trial .default) s ∧ s.1.Asleep ∧
        s.2 = [.shutdown clientStream]) := by
  constructor
  · obtain ⟨s, hs, hcheck⟩ := Runtime.exists_watched (fun _ _ => True) (trial .default)
      (connect ++ [.delay 2, .park, .app (.write clientStream 0 [1, 2, 3])])
      (fun s => decide (s.1.phase = .parked idleSleep false ∧ s.1.channel = [] ∧ s.1.calls = 0 ∧
        s.2.map isWrite = [true])) (by decide +kernel)
    obtain ⟨hp, hc, hn, hwork⟩ := of_decide_eq_true hcheck
    obtain ⟨l, hl, hwrite⟩ := List.map_eq_singleton_iff.mp hwork
    obtain ⟨cx, data, rfl⟩ := exists_of_isWrite hwrite
    exact ⟨s, hs, ⟨⟨idleSleep, hp⟩, hc, hn⟩, cx, data, hl⟩
  · obtain ⟨s, hs, hcheck⟩ := Runtime.exists_watched (fun _ _ => True) (trial .default)
      (connect ++ [.delay 2, .app (.shutdown clientStream), .notify, .park])
      (fun s => decide (s.1.phase = .parked idleSleep false ∧ s.1.channel = [] ∧ s.1.calls = 0 ∧
        s.2.map isShutdown = [true])) (by decide +kernel)
    obtain ⟨hp, hc, hn, hwork⟩ := of_decide_eq_true hcheck
    obtain ⟨l, hl, hshut⟩ := List.map_eq_singleton_iff.mp hwork
    cases eq_of_isShutdown hshut
    exact ⟨s, hs, ⟨⟨idleSleep, hp⟩, hc, hn⟩, hl⟩

end WayNetstack

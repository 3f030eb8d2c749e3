import WayNetstack.Runner.Wakeups

/-!
# Senders that wait

`WayUdpSession::send` that finds the shared socket's transmit buffer full calls
`notify_poll` and awaits `poll_done`, which the runner notifies at the end of a cycle. Any
number of calls of `send` run beside the loop of the runner; each attempt is an operation
of the loop's world, each call of `notify_poll` one of the loop's.

Neither notification is stored, so the two can miss each other: the cycle that the call of
`notify_poll` brought about may end before the sender has created its future, and a call
made while the runner computes its delay wakes nobody. Where neither happens (`Timely`) no
sender is stranded, and where either does it can be (`senders_not_stranded`).
-/

namespace WayNetstack

open Lib

variable {S : Smoltcp}

/-! ### The tasks -/

/-- Where a call of `send` is. -/
inductive SendPhase where
  /-- At the top of the loop. -/
  | attempting
  /-- The attempt found the buffer full; `notify_poll` is next. -/
  | notifying
  /-- `poll_done.notified()` is next. -/
  | subscribing
  /-- Awaiting the future; whether it was woken. -/
  | parked (woken : Bool)
  deriving DecidableEq

/-- `poll_done.notify_waiters()`: the future that exists is woken, nothing is stored. -/
def SendPhase.notifyWaiters : SendPhase → SendPhase
  | .parked _ => .parked true
  | p => p

/-- A call of `send`. -/
structure Sender where
  session : WayUdpSession
  payload : Bytes
  phase : SendPhase
  deriving DecidableEq

/-- The loop with the calls of `send` that are running. -/
structure Senders (S : Smoltcp) where
  runtime : Runtime S
  senders : List Sender

/-- A step of the loop, of another task, or of a call of `send`. -/
inductive SendAct (S : Smoltcp) where
  /-- A step that is not one of a call of `send`. -/
  | task (a : Act S)
  /-- `send` is called. -/
  | call (session : WayUdpSession) (payload : Bytes)
  /-- The `i`th call attempts to send. -/
  | attempt (i : ℕ)
  /-- It calls `notify_poll` after `Full`. -/
  | notify (i : ℕ)
  /-- It creates its future of `poll_done`. -/
  | subscribe (i : ℕ)
  /-- The future is ready: back to the top of the loop. -/
  | resume (i : ℕ)
  /-- The call is dropped while it awaits. -/
  | cancel (i : ℕ)

/-- The end of a cycle is to come: the runner is on its way to it, or a packet waits. -/
abbrev Runtime.Ending (s : Runtime S) : Prop := s.Leads .finish

namespace Senders

/-- No call of `send` is running. -/
def init (b : NetstackBuilder S) : Senders S := ⟨.init b, []⟩

/-- The outcome of an attempt. -/
def outcome (s : Senders S) (x : Sender) : Option SendOutcome :=
  (x.session.trySend s.runtime.world.core x.payload x.session.target).result.toOption.map (·.2)

/-- The senders about to call `notify_poll`. -/
def notifying (senders : List Sender) : ℕ := senders.countP fun x => x.phase = .notifying

/-- The step is open to tasks that are not in `send`: the calls of `notify_poll` that
waiting senders are about to make are their own. -/
def mayTake (s : Senders S) : Act S → Bool
  | .app (.send _ _) => false
  | .notify => decide (notifying s.senders < s.runtime.calls)
  | _ => true

/-- What a step of the loop or of another task does to the senders: `notify_poll_done`
wakes those that wait. -/
def told (a : Act S) (senders : List Sender) : List Sender :=
  match a with
  | .done => senders.map fun x => { x with phase := x.phase.notifyWaiters }
  | _ => senders

/-- The sender `i` moves from one phase to another. -/
def move (s : Senders S) (i : ℕ) (p q : SendPhase) : Option (Senders S) :=
  (s.senders[i]?).bind fun x =>
    if x.phase = p then some { s with senders := s.senders.set i { x with phase := q } } else none

/-- What a step does, if it can be taken. -/
def step (s : Senders S) : SendAct S → Option (Senders S)
  | .task a => if s.mayTake a then (s.runtime.step a).map fun t => ⟨t, told a s.senders⟩ else none
  | .call session payload => some { s with senders := s.senders ++ [⟨session, payload, .attempting⟩] }
  | .attempt i =>
    (s.senders[i]?).bind fun x =>
      if x.phase = .attempting then
        (s.runtime.step (.app (.send x.session x.payload))).map fun t =>
          if s.outcome x = some .full then ⟨t, s.senders.set i { x with phase := .notifying }⟩
          -- `send` returns; after `Sent` its call of `notify_poll` is still to come
          else ⟨t, s.senders.eraseIdx i⟩
      else none
  | .notify i =>
    (s.move i .notifying .subscribing).bind fun s' =>
      (s'.runtime.step .notify).map fun t => { s' with runtime := t }
  | .subscribe i => s.move i .subscribing (.parked false)
  | .resume i => s.move i (.parked true) .attempting
  | .cancel i =>
    (s.senders[i]?).bind fun x =>
      match x.phase with
      | .parked _ => some { s with senders := s.senders.eraseIdx i }
      | _ => none

/-- The loop and the senders as a labelled system. -/
def Steps : System (Senders S) (SendAct S) := fun s a t => s.step a = some t

/-- What a run reaches whose steps are each allowed by `ok`. -/
def Reachable (ok : Senders S → SendAct S → Prop) (b : NetstackBuilder S) (s : Senders S) : Prop :=
  (Steps.restrict ok).Reaches (init b) s

/-- Some sender awaits a notification that has not come. -/
def Waits (s : Senders S) : Prop := ∃ x ∈ s.senders, x.phase = .parked false

instance (s : Senders S) : Decidable s.Waits := inferInstanceAs (Decidable (∃ x ∈ s.senders, _))

/-- What a step did, and when it can be taken. -/
inductive Turn (s : Senders S) : SendAct S → Senders S → Prop
  | task {a : Act S} {t : Runtime S} (hm : s.mayTake a = true) (ht : s.runtime.Turn a t) :
    Turn s (.task a) ⟨t, told a s.senders⟩
  | call (session : WayUdpSession) (payload : Bytes) :
    Turn s (.call session payload) { s with senders := s.senders ++ [⟨session, payload, .attempting⟩] }
  | full {i : ℕ} {x : Sender} {t : Runtime S} (hx : s.senders[i]? = some x) (hf : s.outcome x = some .full)
    (ht : s.runtime.Turn (.app (.send x.session x.payload)) t) :
    Turn s (.attempt i) ⟨t, s.senders.set i { x with phase := .notifying }⟩
  | returns {i : ℕ} {x : Sender} {t : Runtime S} (hx : s.senders[i]? = some x)
    (ht : s.runtime.Turn (.app (.send x.session x.payload)) t) :
    Turn s (.attempt i) ⟨t, s.senders.eraseIdx i⟩
  | notify {i : ℕ} {x : Sender} {t : Runtime S} (hx : s.senders[i]? = some x) (hp : x.phase = .notifying)
    (ht : s.runtime.Turn .notify t) :
    Turn s (.notify i) ⟨t, s.senders.set i { x with phase := .subscribing }⟩
  | subscribe {i : ℕ} {x : Sender} (hx : s.senders[i]? = some x) (hp : x.phase = .subscribing) :
    Turn s (.subscribe i) { s with senders := s.senders.set i { x with phase := .parked false } }
  | resume {i : ℕ} {x : Sender} (hx : s.senders[i]? = some x) (hp : x.phase = .parked true) :
    Turn s (.resume i) { s with senders := s.senders.set i { x with phase := .attempting } }
  | cancel {i : ℕ} : Turn s (.cancel i) { s with senders := s.senders.eraseIdx i }

variable {s t : Senders S} {a : SendAct S}

theorem exists_of_move {i : ℕ} {p q : SendPhase} (h : s.move i p q = some t) :
    ∃ x, s.senders[i]? = some x ∧ x.phase = p ∧
      t = { s with senders := s.senders.set i { x with phase := q } } := by
  obtain ⟨x, hx, h⟩ := Option.bind_eq_some_iff.mp h
  simp only [Option.ite_none_right_eq_some, Option.some.injEq] at h
  exact ⟨x, hx, h.1, h.2.symm⟩

theorem turn_of_step (h : s.step a = some t) : s.Turn a t := by
  cases a with
  | task a =>
    simp only [step, Option.ite_none_right_eq_some] at h
    obtain ⟨u, hu, rfl⟩ := Option.map_eq_some_iff.mp h.2
    exact .task h.1 (Runtime.turn_of_step hu)
  | call session payload =>
    cases h
    exact .call session payload
  | attempt i =>
    obtain ⟨x, hx, h⟩ := Option.bind_eq_some_iff.mp h
    simp only [Option.ite_none_right_eq_some] at h
    obtain ⟨u, hu, rfl⟩ := Option.map_eq_some_iff.mp h.2
    split
    · next hf => exact .full hx hf (Runtime.turn_of_step hu)
    · exact .returns hx (Runtime.turn_of_step hu)
  | notify i =>
    obtain ⟨s', hs', h⟩ := Option.bind_eq_some_iff.mp h
    obtain ⟨x, hx, hp, rfl⟩ := exists_of_move hs'
    obtain ⟨u, hu, rfl⟩ := Option.map_eq_some_iff.mp h
    exact .notify hx hp (Runtime.turn_of_step hu)
  | subscribe i =>
    obtain ⟨x, hx, hp, rfl⟩ := exists_of_move h
    exact .subscribe hx hp
  | resume i =>
    obtain ⟨x, hx, hp, rfl⟩ := exists_of_move h
    exact .resume hx hp
  | cancel i =>
    obtain ⟨x, -, h⟩ := Option.bind_eq_some_iff.mp h
    split at h <;> cases h
    exact .cancel

/-! ### The calls of the senders -/

theorem notifying_set {senders : List Sender} {i : ℕ} {x : Sender} (hx : senders[i]? = some x)
    (p : SendPhase) : notifying (senders.set i { x with phase := p }) + notifying [x] =
      notifying senders + notifying [{ x with phase := p }] := by
  induction senders generalizing i with
  | nil => cases hx
  | cons y ys ih =>
    cases i with
    | zero =>
      cases hx
      simp only [notifying, List.set_cons_zero, List.countP_cons, List.countP_nil]
      omega
    | succ i =>
      have := ih hx
      simp only [notifying, List.set_cons_succ, List.countP_cons, List.countP_nil] at this ⊢
      omega

theorem notifying_eraseIdx (senders : List Sender) (i : ℕ) :
    notifying (senders.eraseIdx i) ≤ notifying senders :=
  (List.eraseIdx_sublist senders i).countP_le

theorem notifying_told (a : Act S) (senders : List Sender) :
    notifying (told a senders) = notifying senders := by
  cases a with
  | done =>
    simp only [told, notifying, List.countP_map]
    refine List.countP_congr fun x _ => ?_
    cases hx : x.phase <;> simp [hx, SendPhase.notifyWaiters]
  | _ => rfl

/-- The calls that senders are about to make are among those to come. -/
theorem Turn.notifying_le (ht : s.Turn a t) (h : notifying s.senders ≤ s.runtime.calls) :
    notifying t.senders ≤ t.runtime.calls := by
  cases ht with
  | @task a r hm ht =>
    rw [notifying_told]
    cases ht with
    | notify hn =>
      have hm : notifying s.senders < s.runtime.calls := of_decide_eq_true hm
      simp only
      omega
    | app => exact Nat.le_add_right_of_le h
    | sendIp pkt hh =>
      rcases s.runtime.sendIpPacket_cases pkt with heq | heq <;> rw [heq]
      · exact h
      · exact Nat.le_add_right_of_le h
    | delay | park | wake | recv | stop | timeout | drain | drained | cycle | forward | egressGone
    | accept | done | dropHandle => exact h
  | call session payload => simpa [notifying] using h
  | @full i x r hx hf ht =>
    cases ht with
    | app ofApp does =>
      -- a full buffer is one of the outcomes after which `send` notifies
      have hn : s.runtime.world.notifies (.send x.session x.payload) = true := by
        obtain ⟨r, hr, hfull⟩ := Option.map_eq_some_iff.mp hf
        simp [World.notifies, hr, hfull]
      have hset := notifying_set hx .notifying
      simp only [hn, Bool.toNat_true]
      simp [notifying] at hset h ⊢
      omega
  | returns hx ht =>
    cases ht with
    | app => exact Nat.le_add_right_of_le ((notifying_eraseIdx _ _).trans h)
  | @notify i x r hx hp ht =>
    cases ht with
    | notify hn =>
      have hset := notifying_set hx .subscribing
      simp [notifying, hp] at hset h ⊢
      omega
  | @subscribe i x hx hp =>
    have hset := notifying_set hx (.parked false)
    simp [notifying, hp] at hset h ⊢
    omega
  | @resume i x hx hp =>
    have hset := notifying_set hx .attempting
    simp [notifying, hp] at hset h ⊢
    omega
  | cancel => exact (notifying_eraseIdx _ _).trans h

/-- A sender about to call `notify_poll` can make the call. -/
theorem Reachable.notify_isSome {ok : Senders S → SendAct S → Prop} {b : NetstackBuilder S}
    (h : Reachable ok b s) {i : ℕ} {x : Sender} (hx : s.senders[i]? = some x)
    (hp : x.phase = .notifying) : (s.step (.notify i)).isSome := by
  have hle : notifying s.senders ≤ s.runtime.calls := by
    refine System.Reaches.invariant (P := fun s : Senders S => notifying s.senders ≤ s.runtime.calls)
      h le_rfl ?_
    intro s a t _ hs hstep
    exact (turn_of_step hstep.2).notifying_le hs
  have hpos : 0 < notifying s.senders :=
    List.countP_pos_iff.mpr ⟨x, List.mem_iff_getElem?.mpr ⟨i, hx⟩, by simp [hp]⟩
  obtain ⟨n, hn⟩ := Nat.exists_eq_add_of_lt (Nat.lt_of_lt_of_le hpos hle)
  simp [step, move, hx, hp, Runtime.step, show s.runtime.calls = n + 1 by omega]

/-! ### The condition -/

/-- A sender creates its future only while the end of a cycle or a call of `notify_poll`
is to come; and such a call, while a sender waits, finds the runner parked or the end of a
cycle to come, or is not the last one to come. -/
def Timely (s : Senders S) : SendAct S → Prop
  | .subscribe _ => s.runtime.phase = .stopped ∨ s.runtime.Ending ∨ 0 < s.runtime.calls
  | .notify _ | .task .notify => ¬s.Waits ∨ s.runtime.phase.isParked = true ∨
      s.runtime.phase = .stopped ∨ s.runtime.Ending ∨ 1 < s.runtime.calls
  | _ => True

instance (s : Senders S) : ∀ a, Decidable (s.Timely a)
  | .subscribe _ => inferInstanceAs (Decidable (_ ∨ _ ∨ _))
  | .notify _ | .task .notify => inferInstanceAs (Decidable (_ ∨ _ ∨ _ ∨ _ ∨ _))
  | .call _ _ | .attempt _ | .resume _ | .cancel _ | .task (.delay _) | .task .park | .task .wake
  | .task .recv | .task .stop | .task .timeout | .task .drain | .task .drained | .task (.cycle _ _)
  | .task .forward | .task .egressGone | .task .accept | .task .done | .task (.app _)
  | .task (.sendIp _) | .task .dropHandle => inferInstanceAs (Decidable True)

/-! ### The invariant -/

/-- While a sender waits, the end of a cycle or a call is to come, unless the runner has
stopped. -/
def Awaited (s : Senders S) : Prop := s.Waits → s.runtime.Assured .finish

theorem Waits.of_set {senders : List Sender} {r r' : Runtime S} {i : ℕ} {x : Sender}
    (h : Waits ⟨r, senders.set i x⟩) (hx : x.phase ≠ .parked false) : Waits ⟨r', senders⟩ := by
  obtain ⟨y, hy, hp⟩ := h
  rcases List.mem_or_eq_of_mem_set hy with hy | rfl
  · exact ⟨y, hy, hp⟩
  · exact absurd hp hx

theorem Waits.of_eraseIdx {senders : List Sender} {r r' : Runtime S} {i : ℕ}
    (h : Waits ⟨r, senders.eraseIdx i⟩) : Waits ⟨r', senders⟩ := by
  obtain ⟨y, hy, hp⟩ := h
  exact ⟨y, List.mem_of_mem_eraseIdx hy, hp⟩

/-- `notify_poll_done` leaves no sender waiting. -/
theorem not_waits_done (r : Runtime S) (senders : List Sender) :
    ¬Waits ⟨r, told (.done : Act S) senders⟩ := by
  rintro ⟨y, hy, hp⟩
  obtain ⟨x, -, rfl⟩ := List.mem_map.mp hy
  cases hx : x.phase <;> simp [hx, SendPhase.notifyWaiters] at hp

/-- Only the end of a cycle tells the senders anything. -/
theorem told_of_not_passes {a : Act S} (hpass : a.passes .finish = false) (senders : List Sender) :
    told a senders = senders := by
  cases a with
  | done => cases hpass
  | _ => rfl

/-- **A timely step keeps the senders awaited.** -/
theorem Awaited.step (ht : s.Turn a t) (htime : s.Timely a) (h : s.Awaited) : t.Awaited := by
  cases ht with
  | @task a r hm ht =>
    intro hw
    cases hpass : a.passes .finish with
    | false =>
      rw [told_of_not_passes hpass] at hw
      refine (h hw).turn ht hpass ?_
      rintro rfl
      exact htime.resolve_left (not_not_intro hw)
    | true =>
      cases a with
      | done => exact absurd hw (not_waits_done _ _)
      | _ => cases hpass
  | call session payload =>
    rintro ⟨x, hx, hp⟩
    rcases List.mem_append.mp hx with hx | hx
    · exact h ⟨x, hx, hp⟩
    · cases List.mem_singleton.mp hx
      cases hp
  | full hx hf ht => exact fun hw => (h (hw.of_set nofun)).turn ht rfl nofun
  | returns hx ht => exact fun hw => (h hw.of_eraseIdx).turn ht rfl nofun
  | notify hx hp ht =>
    intro hw
    have hw : s.Waits := hw.of_set nofun
    exact (h hw).turn ht rfl fun _ => htime.resolve_left (not_not_intro hw)
  | subscribe hx hp => exact fun _ => htime
  | resume hx hp => exact fun hw => h (hw.of_set nofun)
  | cancel => exact fun hw => h hw.of_eraseIdx

/-! ### A step that is not timely -/

/-- The step is one of the runner itself. -/
def ofRunner : SendAct S → Bool
  | .task a => a.ofRunner
  | _ => false

/-- A sender waits for a notification while the runner is asleep. -/
def Stranded (s : Senders S) : Prop := s.Waits ∧ s.runtime.Asleep

/-- The runner alone can strand a sender. -/
def CanStrand (s : Senders S) : Prop :=
  ∃ u, (Steps.restrict fun _ a => ofRunner a = true).Reaches s u ∧ u.Stranded

/-- With a sender waiting, no end of a cycle to come and no call to come, the runner alone
can strand the sender. -/
theorem canStrand_of_waits (hw : s.Waits) (hs : s.runtime.phase ≠ .stopped) (he : ¬s.runtime.Ending)
    (hn : s.runtime.calls = 0) : s.CanStrand := by
  obtain ⟨r, hrun, hasleep⟩ := Runtime.canSleep_of_not_leads he hs hn
  refine ⟨⟨r, s.senders⟩, hrun.lift (Senders.mk · s.senders) ?_, hw, hasleep⟩
  rintro r a r' ⟨⟨ha, hpass⟩, hstep⟩
  have hm : mayTake ⟨r, s.senders⟩ a = true := by
    cases a with
    | app | notify => cases ha
    | _ => rfl
  refine ⟨.task a, ha, ?_⟩
  have hstep : r.step a = some r' := hstep
  simp [Steps, step, hm, hstep, told_of_not_passes hpass]

/-- A call of `notify_poll` that is not timely changes nothing but the number of calls. -/
theorem canStrand_of_notify {r : Runtime S} {senders : List Sender} (ht : s.runtime.Turn .notify r)
    (htime : ¬(¬s.Waits ∨ s.runtime.phase.isParked = true ∨ s.runtime.phase = .stopped ∨
      s.runtime.Ending ∨ 1 < s.runtime.calls)) (hw : s.Waits → Waits ⟨r, senders⟩) :
    CanStrand ⟨r, senders⟩ := by
  simp only [not_or, not_not] at htime
  obtain ⟨hwait, hparked, hstop, he, hcalls⟩ := htime
  obtain ⟨he', hn, hsame⟩ := ht.notify_unheeded hparked he hcalls
  exact canStrand_of_waits (hw hwait) (hsame ▸ hstop) he' hn

/-- **After a step that is not timely the runner alone can strand a sender.** -/
theorem canStrand_of_not_timely (ht : s.Turn a t) (htime : ¬s.Timely a) : t.CanStrand := by
  cases ht with
  | @task a r hm ht =>
    cases ht with
    | notify hn => exact canStrand_of_notify (.notify hn) htime id
    | delay | park | wake | recv | stop | timeout | drain | drained | cycle | forward | egressGone
    | accept | done | app | sendIp | dropHandle => exact absurd trivial htime
  | @notify i x r hx hp ht =>
    refine canStrand_of_notify ht htime ?_
    rintro ⟨y, hy, hyp⟩
    -- the sender that calls is not the one that waits
    obtain ⟨j, hj⟩ := List.mem_iff_getElem?.mp hy
    have hne : i ≠ j := by
      rintro rfl
      cases hx.symm.trans hj
      cases hp.symm.trans hyp
    refine ⟨y, List.mem_iff_getElem?.mpr ⟨j, ?_⟩, hyp⟩
    rw [List.getElem?_set_ne hne]
    exact hj
  | @subscribe i x hx hp =>
    obtain ⟨hstop, hrest⟩ := not_or.mp htime
    obtain ⟨he, hcalls⟩ := not_or.mp hrest
    refine canStrand_of_waits ⟨_, List.mem_set ?_ _, rfl⟩ hstop he (Nat.eq_zero_of_not_pos hcalls)
    exact (List.getElem?_eq_some_iff.mp hx).1
  | call | full | returns | resume | cancel => exact absurd trivial htime

end Senders

/-- **No sender is stranded**: along every run in which each sender creates its future only
while the end of a cycle or a call of `notify_poll` is to come, and each such call made
while a sender waits finds the runner parked, or the end of a cycle or another call to come,
no sender ever waits for `poll_done` while the runner is asleep. The condition is exact:
after a step that breaks it the runner alone can strand a sender. -/
theorem senders_not_stranded (b : NetstackBuilder S) :
    (∀ s, Senders.Reachable Senders.Timely b s → ¬s.Stranded) ∧
    (∀ s a t, Senders.Reachable (fun _ _ => True) b s → Senders.Steps s a t → ¬s.Timely a →
      ∃ u, (Senders.Steps.restrict fun _ a => Senders.ofRunner a = true).Reaches t u ∧ u.Stranded) := by
  refine ⟨fun s hs hstranded => ?_, fun s a t _ hstep htime => ?_⟩
  · have hawaited : s.Awaited := by
      refine System.Reaches.invariant hs ?_ ?_
      · rintro ⟨x, hx, -⟩
        cases hx
      · intro s a t _ hawaited hstep
        exact hawaited.step (Senders.turn_of_step hstep.2) hstep.1
    exact hstranded.2.not_assured (hawaited hstranded.1)
  · exact Senders.canStrand_of_not_timely (Senders.turn_of_step hstep) htime

/-! ### Computed runs -/

/-- A state found by computing a run. -/
theorem Senders.exists_of_run (ok : Senders S → SendAct S → Prop) [∀ s a, Decidable (ok s a)]
    (b : NetstackBuilder S) (acts : List (SendAct S)) (check : Senders S → Bool)
    (h : (System.compute step (fun _ _ _ u => u) (fun s => ok s.1) (init b, ()) acts).any
      (fun s => check s.1) = true) : ∃ s, Reachable ok b s ∧ check s = true :=
  System.exists_of_compute_unwatched (fun h => h) h

namespace Reference

/-- A stack whose shared sockets hold one datagram each way. -/
def narrow : NetstackBuilder reference := trial { NetstackConfig.default with udpBufferPackets := 1 }

/-- The shared socket of that stack with the given buffers. -/
def narrowSocket (rx tx : List (Bytes × IpEndpoint)) : reference.Udp :=
  (⟨some server, 1, 16384, rx, tx⟩ : Udp)

/-- The client's session. -/
def replySession : WayUdpSession := sessionOf ⟨eth, .udp, client, server⟩ 0 0

/-- A client opens a session and the runner parks; then two datagrams are sent, of which
the second finds the buffer full. -/
def backlog : List (SendAct reference) :=
  (round 0 ⟨eth, udpPacket client server [1]⟩
    [.receive (some (0, .udp (narrowSocket [([1], client)] [])))]).map .task ++
  [.task (.delay 1), .task .park, .call replySession [2], .attempt 0, .task .notify,
    .call replySession [3], .attempt 0]

/-- The runner is woken and performs a cycle, in which the buffer is emptied. -/
def flush : List (SendAct reference) :=
  [.task .wake, .task .drained, .task (.cycle 2 fun _ => [.egress 0 (.udp (narrowSocket [] [])),
    .transmit (udpPacket server client [2])]), .task .forward, .task .accept, .task .done]

end Reference

open Reference in
/-- A sender that finds the buffer full creates its future before the cycle ends, is woken
by it and sends. -/
theorem senders_not_stranded_flushed : ∃ s : Senders reference,
    Senders.Reachable Senders.Timely narrow s ∧ s.senders = [] ∧ s.runtime.Asleep ∧ ¬s.Stranded := by
  obtain ⟨s, hs, hcheck⟩ := Senders.exists_of_run Senders.Timely narrow
    (backlog ++ [.notify 0, .subscribe 0] ++ flush ++
      [.resume 0, .attempt 0, .task (.delay 3), .task .park, .task .notify] ++ flush ++
      [.task (.delay 4), .task .park])
    (fun s => decide (s.runtime.phase = .parked idleSleep false ∧ s.runtime.channel = [] ∧
      s.runtime.calls = 0 ∧ s.senders = [])) (by decide +kernel)
  obtain ⟨hp, hc, hn, hsenders⟩ := of_decide_eq_true hcheck
  exact ⟨s, hs, hsenders, ⟨⟨idleSleep, hp⟩, hc, hn⟩, (senders_not_stranded narrow).1 s hs⟩

open Reference in
/-- A sender is stranded: the whole cycle that its call of `notify_poll` brought about goes
by before it has created its future. -/
theorem sender_stranded : ∃ s : Senders reference,
    Senders.Reachable (fun _ _ => True) narrow s ∧ s.Stranded ∧
      s.senders = [⟨replySession, [3], .parked false⟩] := by
  obtain ⟨s, hs, hcheck⟩ := Senders.exists_of_run (fun _ _ => True) narrow
    (backlog ++ [.notify 0] ++ flush ++ [.task (.delay 3), .task .park, .subscribe 0])
    (fun s => decide (s.runtime.phase = .parked idleSleep false ∧ s.runtime.channel = [] ∧
      s.runtime.calls = 0 ∧ s.senders = [⟨replySession, [3], .parked false⟩])) (by decide +kernel)
  obtain ⟨hp, hc, hn, hsenders⟩ := of_decide_eq_true hcheck
  have hwaits : s.Waits := ⟨⟨replySession, [3], .parked false⟩, by simp [hsenders], rfl⟩
  exact ⟨s, hs, ⟨hwaits, ⟨idleSleep, hp⟩, hc, hn⟩, hsenders⟩

end WayNetstack

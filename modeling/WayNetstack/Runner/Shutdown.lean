import WayNetstack.Runner.Backpressure
import WayNetstack.Runner.Deadlines
import WayNetstack.Runner.Objects
import WayNetstack.Runner.Wakeups

/-!
# The end of the runner

The runner returns when it is parked and `ingress_rx.recv()` gives `None`: the handle, the only
sender of the channel, is gone and the channel is empty. A wake-up by `notify_poll` is looked at
first, so the operations of streams that are still alive can put the end off.

* `runner_stops` — **once the handle is gone the runner comes to its end**: it performs at most two
  more cycles and one more for each call of `notify_poll`, it takes finitely many steps of its own
  in a row, and until it has stopped it can take the next one, or waits for the egress channel;
* `shutdown_complete` — **no accepted packet is left behind**: if every poll takes all that waits in
  the devices, then by the time the runner has stopped the engine has been handed every packet that
  `send_ip_packet` accepted, in order; and from then on nothing is accepted, handed over or sent out,
  and no session is made, whatever the application does.
-/

namespace WayNetstack

open Lib Lib.Traced

variable {S : Smoltcp}

/-! ### The steps after the handle is gone -/

/-- How many cycles a step is. -/
def Act.cycles : Act S → ℕ
  | .cycle _ _ => 1
  | _ => 0

/-- How many calls of `notify_poll` a step is. -/
def Act.notifications : Act S → ℕ
  | .notify => 1
  | _ => 0

namespace Runtime

/-- How many more cycles the runner performs if the handle is gone and nobody notifies it. -/
def pendingCycles (s : Runtime S) : ℕ :=
  let later := if s.channel = [] then 0 else 1
  match s.phase with
  | .stopped => 0
  | .parked _ true | .draining => 1
  | .polling => 1 + later
  | .top | .armed _ | .parked _ false | .forwarding _ | .finishing => later

/-- How far the runner is from its next cycle, or from its end. -/
def distance (s : Runtime S) : ℕ :=
  match s.phase with
  | .polling | .stopped => 0
  | .draining => 1 + s.channel.length
  | .parked _ _ => 2 + s.channel.length
  | .armed _ => 3 + s.channel.length
  | .top => 4 + s.channel.length
  | .finishing => 5 + s.channel.length
  | .forwarding egress => 6 + s.channel.length + egress.length

variable {s t : Runtime S} {a : Act S} {b : NetstackBuilder S}

theorem pendingCycles_le (s : Runtime S) : s.pendingCycles ≤ 2 := by
  unfold pendingCycles
  by_cases hc : s.channel = []
  · cases s.phase with
    | parked sleep notified => cases notified <;> simp [hc]
    | _ => simp [hc]
  · cases s.phase with
    | parked sleep notified => cases notified <;> simp [hc]
    | _ => simp [hc]

/-- A cycle is one of those pending, and only a notification makes another one pending. -/
theorem Turn.pendingCycles (h : s.Turn a t) (hh : s.handle = false) :
    a.cycles + t.pendingCycles ≤ s.pendingCycles + a.notifications := by
  cases h with
  | delay now hp | park hp | wake hp | forward hp | egressGone hp | accept hp | done hp =>
    simp [Runtime.pendingCycles, hp, Act.cycles]
  | recv hp hc | stop hp hc | drain hp hc | drained hp hc =>
    simp [Runtime.pendingCycles, hp, hc, Act.cycles]
  | cycle hp hr => simp [Runtime.pendingCycles, hp, Act.cycles]
  | app => simp [Runtime.pendingCycles, Act.cycles]
  | notify =>
    cases hp : s.phase with
    | parked sleep notified =>
      cases notified <;> simp [Runtime.pendingCycles, hp, Phase.notifyWaiters, Act.cycles, Act.notifications]
    | _ => simp [Runtime.pendingCycles, hp, Phase.notifyWaiters, Act.cycles]
  | timeout hp hc hh' | sendIp pkt hh' | dropHandle hh' =>
    rw [hh] at hh'
    cases hh'

/-- A step of the runner is a cycle, or brings the runner nearer to the next. -/
theorem Turn.distance (h : s.Turn a t) (hh : s.handle = false) (ha : a.ofRunner = true) :
    t.pendingCycles < s.pendingCycles ∨ t.pendingCycles = s.pendingCycles ∧ t.distance < s.distance := by
  cases h with
  | delay now hp | park hp | wake hp | forward hp | egressGone hp | accept hp | done hp =>
    refine .inr ⟨by simp [Runtime.pendingCycles, hp], ?_⟩
    simp only [Runtime.distance, hp, List.length_cons]
    omega
  | recv hp hc | stop hp hc | drain hp hc | drained hp hc =>
    refine .inr ⟨by simp [Runtime.pendingCycles, hp, hc], ?_⟩
    simp only [Runtime.distance, hp, hc, List.length_cons]
    omega
  | cycle hp hr => exact .inl (by simp [Runtime.pendingCycles, hp])
  | timeout hp hc hh' =>
    rw [hh] at hh'
    cases hh'
  | app | notify | sendIp | dropHandle => cases ha

/-- The handle does not come back. -/
theorem Turn.handle_gone (h : s.Turn a t) (hh : s.handle = false) : t.handle = false := by
  cases h with
  | sendIp pkt hh' | dropHandle hh' => exact absurd hh' (by simp [hh])
  | _ => exact hh

/-- Count the cycles and the notifications. -/
def watchCycles (_ : Runtime S) (a : Act S) (_ : Runtime S) (n : ℕ × ℕ) : ℕ × ℕ :=
  (n.1 + a.cycles, n.2 + a.notifications)

/-- **The runner comes to its end.** Once the handle is gone, and whatever the other tasks do:
* in every continuation the runner performs at most two more cycles, and one more for each
  notification;
* it does not take steps of its own for ever, and until it has stopped it can take the next one,
  unless it has a packet for the egress channel. -/
theorem runner_stops (hS : S.Lawful) (h : Reachable b s) (hh : s.handle = false) :
    (∀ t cycles notifications,
      (Steps.observe watchCycles).Reaches (s, (0, 0)) (t, (cycles, notifications)) → cycles ≤ 2 + notifications) ∧
    (WellFounded fun t s : Runtime S => s.handle = false ∧ ∃ a : Act S, a.ofRunner = true ∧ s.step a = some t) ∧
    (s.phase ≠ .stopped → (∀ pkt rest, s.phase ≠ .forwarding (pkt :: rest)) →
      ∃ a : Act S, a.ofRunner = true ∧ a ≠ .forward ∧ a ≠ .egressGone ∧ (s.step a).isSome) := by
  refine ⟨?_, ?_, ?_⟩
  · intro t cycles notifications hrun
    have hbound : t.handle = false ∧ cycles + t.pendingCycles ≤ s.pendingCycles + notifications := by
      refine System.Reaches.invariant (P := fun u : Runtime S × (ℕ × ℕ) => u.1.handle = false ∧
        u.2.1 + u.1.pendingCycles ≤ s.pendingCycles + u.2.2) hrun ⟨hh, by simp⟩ ?_
      rintro ⟨u, n⟩ a ⟨u', n'⟩ - ⟨hu, hle⟩ ⟨hstep, hobs⟩
      have hturn : u.Turn a u' := turn_of_step hstep
      have hmore := hturn.pendingCycles hu
      refine ⟨hturn.handle_gone hu, ?_⟩
      rw [hobs]
      show n.1 + a.cycles + u'.pendingCycles ≤ s.pendingCycles + (n.2 + a.notifications)
      have hle : n.1 + u.pendingCycles ≤ s.pendingCycles + n.2 := hle
      omega
    have hstart := s.pendingCycles_le
    omega
  · -- the pending cycles and the distance decrease in the lexicographic order
    have hlex : WellFounded (Prod.Lex (fun m n : ℕ => m < n) fun m n : ℕ => m < n) :=
      (Prod.lex ⟨_, Nat.lt_wfRel.wf⟩ ⟨_, Nat.lt_wfRel.wf⟩).wf
    refine Subrelation.wf ?_ (InvImage.wf (fun s : Runtime S => (s.pendingCycles, s.distance)) hlex)
    rintro t s ⟨hh, a, ha, hstep⟩
    exact Prod.lex_def.mpr ((turn_of_step hstep).distance hh ha)
  · intro hstopped hsending
    by_cases hparked : ∃ sleep notified, s.phase = .parked sleep notified
    · obtain ⟨sleep, notified, hp⟩ := hparked
      cases notified with
      | true => exact ⟨.wake, rfl, by simp, by simp, by simp [step, hp]⟩
      | false =>
        cases hc : s.channel with
        | nil => exact ⟨.stop, rfl, by simp, by simp, by simp [step, hp, hc, hh]⟩
        | cons pkt rest => exact ⟨.recv, rfl, by simp, by simp, by simp [step, hp, hc]⟩
    · push Not at hparked
      obtain ⟨a, ha, hsome⟩ := h.not_stuck hS hparked hstopped 0 fun _ => []
      have hforward : a ≠ .forward := by
        rintro rfl
        obtain ⟨t, ht⟩ := Option.isSome_iff_exists.mp hsome
        cases turn_of_step ht with
        | forward hp => exact hsending _ _ hp
      simp only [List.mem_cons, List.not_mem_nil, or_false] at ha
      rcases ha with rfl | rfl | rfl | rfl | rfl | rfl | rfl | rfl
      all_goals exact ⟨_, rfl, hforward, by simp, hsome⟩

open Reference in
/-- The handle is dropped with a packet in the channel. -/
theorem runner_stops_dropped : ∃ s : Runtime reference, Reachable (trial .default) s ∧ s.channel = [⟨eth, [1]⟩] ∧
    s.handle = false ∧ ∀ t cycles notifications,
      (Steps.observe watchCycles).Reaches (s, (0, 0)) (t, (cycles, notifications)) → cycles ≤ 2 + notifications := by
  obtain ⟨s, hs, hcheck⟩ := exists_of_run (trial .default) [.delay 0, .park, .sendIp ⟨eth, [1]⟩, .dropHandle]
    (fun s => decide (s.channel = [⟨eth, [1]⟩] ∧ s.handle = false)) (by decide +kernel)
  obtain ⟨hchannel, hh⟩ := of_decide_eq_true hcheck
  exact ⟨s, hs, hchannel, hh, (runner_stops reference_lawful hs hh).1⟩

/-! ### What is left when it has stopped -/

/-- The runner is neither in its loop of `try_recv` nor about to poll. -/
def Swept (s : Runtime S) : Prop := s.phase = .draining ∨ s.phase = .polling ∨ s.world.core.load = 0

/-- The polls of a step take all that waits in the devices. -/
def Sweeps (s : Runtime S) : Act S → Prop
  | .cycle _ polls => s.world.core.TakesAll polls
  | _ => True

instance (s : Runtime S) : ∀ a, Decidable (s.Sweeps a)
  | .cycle _ polls => inferInstanceAs (Decidable (s.world.core.TakesAll polls))
  | .delay _ | .park | .wake | .recv | .stop | .timeout | .drain | .drained | .forward | .egressGone | .accept
  | .done | .app _ | .notify | .sendIp _ | .dropHandle => inferInstanceAs (Decidable True)

/-- Between two cycles the devices are empty until the runner takes packets from the channel. -/
theorem Turn.swept (hS : S.Lawful) (hw : s.world.Inv False b) (h : s.Turn a t) (ha : s.Sweeps a) (hs : s.Swept) :
    t.Swept := by
  cases h with
  | delay now hp | park hp | wake hp | stop hp | timeout hp | forward hp | egressGone hp | accept hp | done hp =>
    refine .inr (.inr ?_)
    simpa [Swept, hp] using hs
  | recv => exact .inl rfl
  | drain hp => exact .inl hp
  | drained => exact .inr (.inl rfl)
  | @cycle now polls r hp hr =>
    have hspec := ((pollOnce_ok hS False.elim hw.registered hw.budgeted now polls).post hr).1
    exact .inr (.inr (hspec.load_eq_zero ha))
  | @app l w ofApp does =>
    have hfeeds := (hw.step hS False.elim does).1.feeds ofApp
    exact hs.imp_right (·.imp_right (Core.load_of_feeds hfeeds).trans)
  | notify =>
    rcases hs with hp | hp | hload
    · exact .inl (by simp [hp, Phase.notifyWaiters])
    · exact .inr (.inl (by simp [hp, Phase.notifyWaiters]))
    · exact .inr (.inr hload)
  | sendIp pkt =>
    rcases s.sendIpPacket_cases pkt with heq | heq <;> rw [heq] <;> exact hs
  | dropHandle => exact hs

/-- The runner has stopped, the handle is gone and the channel is empty. -/
structure Ended (s : Runtime S) : Prop where
  phase : s.phase = .stopped
  handle : s.handle = false
  channel : s.channel = []

/-- The runner stops only when the handle is gone and the channel is empty, and for good. -/
theorem Turn.ended (h : s.Turn a t) (hs : s.phase = .stopped → s.Ended) : t.phase = .stopped → t.Ended := by
  intro hstopped
  cases h with
  | stop hp hc hh => exact ⟨rfl, hh, hc⟩
  | delay | park | wake | recv | timeout | drained | cycle | forward | egressGone | accept | done => cases hstopped
  | drain hp =>
    rw [show s.phase = .stopped from hstopped] at hp
    cases hp
  | app =>
    have he := hs hstopped
    exact ⟨he.phase, he.handle, he.channel⟩
  | notify =>
    have hp : s.phase = .stopped := by
      cases hp : s.phase <;> simp [Phase.notifyWaiters, hp] at hstopped ⊢
    have he := hs hp
    exact ⟨hstopped, he.handle, he.channel⟩
  | sendIp pkt hh =>
    have hp : s.phase = .stopped := by
      rcases s.sendIpPacket_cases pkt with heq | heq <;> rw [heq] at hstopped <;> exact hstopped
    exact absurd (hs hp).handle (by simp [hh])
  | dropHandle hh => exact absurd (hs hstopped).handle (by simp [hh])

/-- After the end only the application takes steps: they touch no device and make no object. -/
theorem Ended.step (hS : S.Lawful) (hw : s.world.Inv False b) (hs : s.Ended) (h : s.Turn a t) :
    t.Ended ∧ s.hands a = [] ∧ t.world.core.feeds = s.world.core.feeds ∧ t.world.objects ⊆ s.world.objects := by
  have hp := hs.phase
  have hended := h.ended fun _ => hs
  cases h with
  | delay now hp' | park hp' | wake hp' | recv hp' | stop hp' | timeout hp' | drain hp' | drained hp' | cycle hp'
  | forward hp' | egressGone hp' | accept hp' | done hp' => exact absurd hp' (by simp [hp])
  | sendIp pkt hh | dropHandle hh => exact absurd hs.handle (by simp [hh])
  | @app l w ofApp does =>
    refine ⟨hended hp, rfl, (hw.step hS False.elim does).1.feeds ofApp, fun ses hses => ?_⟩
    have hsurf : s.world.surfaces l = [] := by cases l <;> first | rfl | cases ofApp
    have hmem := (World.objects_step does).mem_iff.mp hses
    rw [hsurf, List.append_nil] at hmem
    exact List.diff_subset _ _ hmem
  | notify => exact ⟨hended (by simp [hp, Phase.notifyWaiters]), rfl, rfl, List.Subset.refl _⟩

end Runtime

namespace Pipeline

variable {s t : Pipeline S} {b : NetstackBuilder S}

/-- The polls take all that waits in the devices. -/
def Sweeps (s : Pipeline S) : Act S → Prop
  | .task a => s.runtime.Sweeps a
  | _ => True

instance (s : Pipeline S) : ∀ a, Decidable (s.Sweeps a)
  | .task a => inferInstanceAs (Decidable (s.runtime.Sweeps a))
  | .check _ | .trySend _ => inferInstanceAs (Decidable True)

theorem init_swept (b : NetstackBuilder S) : (init b).runtime.Swept := by
  refine .inr (.inr (List.sum_eq_zero fun n hn => ?_))
  obtain ⟨slot, hslot, rfl⟩ := List.mem_map.mp hn
  obtain ⟨x, -, rfl⟩ := List.mem_map.mp hslot
  rfl

/-- A step of the pipeline, as far as the runner is concerned. -/
theorem Turn.runtime {a : Act S} (hi : s.Inv b) (h : s.Turn a t) : t.runtime = s.runtime ∨
    (∃ pkt, s.runtime.Turn (.sendIp pkt) t.runtime) ∨ ∃ a', a = .task a' ∧ s.runtime.Turn a' t.runtime := by
  cases h with
  | unknown | checked | refused => exact .inl rfl
  | @sent pkt hpkt hsend =>
    have hstep := hi.sendIp hpkt
    rw [hsend] at hstep
    exact .inr (.inl ⟨pkt, Runtime.turn_of_step hstep⟩)
  | task ha hr => exact .inr (.inr ⟨_, rfl, Runtime.turn_of_step hr⟩)

/-- What holds of the runner in every run whose polls take all packets. -/
theorem Swept.inv (hS : S.Lawful) (h : (Steps.restrict Sweeps).Reaches (init b) s) :
    s.Inv b ∧ s.runtime.Swept ∧ (s.runtime.phase = .stopped → s.runtime.Ended) := by
  refine System.Reaches.invariant (P := fun s : Pipeline S => s.Inv b ∧ s.runtime.Swept ∧
    (s.runtime.phase = .stopped → s.runtime.Ended)) h ⟨init_inv b, init_swept b, nofun⟩ ?_
  rintro s a t - ⟨hi, hswept, hended⟩ ⟨hok, hstep⟩
  have hturn := turn_of_step hstep
  have hw : s.runtime.world.Inv False b := World.Reachable.inv hS False.elim hi.runtime.anyRun
  refine ⟨hi.step hS hturn, ?_⟩
  rcases hturn.runtime hi with heq | ⟨pkt, hrun⟩ | ⟨a', rfl, hrun⟩
  · rw [heq]
    exact ⟨hswept, hended⟩
  · exact ⟨hrun.swept hS hw trivial hswept, hrun.ended hended⟩
  · exact ⟨hrun.swept hS hw hok hswept, hrun.ended hended⟩

/-- After the end no call returns, nothing is handed over and no object is made. -/
theorem Inv.afterEnd (hS : S.Lawful) (hi : s.Inv b) (hs : s.runtime.Ended) {a : Act S} (h : s.Turn a t) :
    t.runtime.Ended ∧ (accepted t.returned = accepted s.returned ∧ t.handed = s.handed) ∧
      t.runtime.world.core.feeds = s.runtime.world.core.feeds ∧
      t.runtime.world.objects ⊆ s.runtime.world.objects := by
  have hidle : s.checked = [] := by
    by_contra hne
    exact absurd (hi.borrowed hne) (by simp [hs.handle])
  cases h with
  | unknown => exact ⟨hs, ⟨accepted_refused _ _ _, rfl⟩, rfl, List.Subset.refl _⟩
  | checked hh => exact absurd hh (by simp [hs.handle])
  | refused hpkt | sent hpkt => exact absurd hpkt (by simp [hidle])
  | @task a r ha hr =>
    have hw : s.runtime.world.Inv False b := World.Reachable.inv hS False.elim hi.runtime.anyRun
    obtain ⟨hended, hhands, hfeeds, hobjects⟩ := hs.step hS hw (Runtime.turn_of_step hr)
    exact ⟨hended, ⟨rfl, by rw [hhands, List.append_nil]⟩, hfeeds, hobjects⟩

theorem packets_of_load {c : Core S} (h : c.load = 0) (i : InterfaceId) : c.waiting i = [] := by
  unfold Core.waiting
  cases hs : c.slot i with
  | none => rfl
  | some slot =>
    have hmem : slot.device.ingress.length ∈ c.slots.map fun slot => slot.device.ingress.length :=
      List.mem_map_of_mem (Core.mem_of_slot hs)
    exact List.length_eq_zero_iff.mp (List.sum_eq_zero_iff_forall_eq_nat.mp h _ hmem)

end Pipeline

/-- **Nothing accepted is left behind.** In every run in which each poll takes all that waits in the
devices, by the time the runner has stopped the handle is gone, and for each interface the packets
handed to the engine are those that `send_ip_packet` accepted, in order. In whatever happens after
that the runner stays stopped, no packet is accepted or handed over, the devices stay as they are,
and no stream or session is made. -/
theorem shutdown_complete (hS : S.Lawful) {b : NetstackBuilder S} {s : Pipeline S}
    (h : (Pipeline.Steps.restrict Pipeline.Sweeps).Reaches (Pipeline.init b) s)
    (hstop : s.runtime.phase = .stopped) :
    s.runtime.handle = false ∧
    (∀ i, packetsOn i s.handed = packetsOn i (Pipeline.accepted s.returned)) ∧
    ∀ t, Pipeline.Steps.Reaches s t → t.runtime.phase = .stopped ∧
      Pipeline.accepted t.returned = Pipeline.accepted s.returned ∧ t.handed = s.handed ∧
      t.runtime.world.core.feeds = s.runtime.world.core.feeds ∧
      t.runtime.world.objects ⊆ s.runtime.world.objects := by
  obtain ⟨hi, hswept, hended⟩ := Pipeline.Swept.inv hS h
  have hend := hended hstop
  refine ⟨hend.handle, fun i => ?_, fun t hrun => ?_⟩
  · have hload : s.runtime.world.core.load = 0 := by simpa [Runtime.Swept, hstop] using hswept
    have htotal := hi.total i
    rw [Runtime.queued, Pipeline.packets_of_load hload, hend.channel] at htotal
    simpa [packetsOn] using htotal
  · obtain ⟨-, hend', ⟨haccepted, hhanded⟩, hfeeds, hobjects⟩ : t.Inv b ∧ t.runtime.Ended ∧
        (Pipeline.accepted t.returned = Pipeline.accepted s.returned ∧ t.handed = s.handed) ∧
        t.runtime.world.core.feeds = s.runtime.world.core.feeds ∧
        t.runtime.world.objects ⊆ s.runtime.world.objects := by
      refine System.Reaches.invariant (P := fun t : Pipeline S => t.Inv b ∧ t.runtime.Ended ∧
        (Pipeline.accepted t.returned = Pipeline.accepted s.returned ∧ t.handed = s.handed) ∧
        t.runtime.world.core.feeds = s.runtime.world.core.feeds ∧
        t.runtime.world.objects ⊆ s.runtime.world.objects) hrun
        ⟨hi, hend, ⟨rfl, rfl⟩, rfl, List.Subset.refl _⟩ ?_
      rintro t a t' - ⟨hi, hend, ⟨haccepted, hhanded⟩, hfeeds, hobjects⟩ hstep
      have hturn := Pipeline.turn_of_step hstep
      obtain ⟨hend', ⟨haccepted', hhanded'⟩, hfeeds', hobjects'⟩ := hi.afterEnd hS hend hturn
      exact ⟨hi.step hS hturn, hend', ⟨haccepted'.trans haccepted, hhanded'.trans hhanded⟩,
        hfeeds'.trans hfeeds, List.Subset.trans hobjects' hobjects⟩
    exact ⟨hend'.phase, haccepted, hhanded, hfeeds, hobjects⟩

/-- A pipeline found by computing a run whose polls take all packets. -/
theorem Pipeline.exists_of_sweeps (b : NetstackBuilder S) (acts : List (Pipeline.Act S)) (check : Pipeline S → Bool)
    (h : (System.compute step (fun _ _ _ u => u) (fun s => Sweeps s.1) (init b, ()) acts).any
      (fun s => check s.1) = true) : ∃ s, (Steps.restrict Sweeps).Reaches (init b) s ∧ check s = true :=
  System.exists_of_compute_unwatched (fun h => h) h

open Reference in
/-- The handle is dropped when a packet is in the channel: the packet is handed over before the end. -/
theorem shutdown_complete_one : ∃ s : Pipeline reference,
    (Pipeline.Steps.restrict Pipeline.Sweeps).Reaches (Pipeline.init (trial .default)) s ∧
    s.runtime.phase = .stopped ∧ packetsOn eth s.handed = [[1]] := by
  obtain ⟨s, hs, hcheck⟩ := Pipeline.exists_of_sweeps (trial .default)
    [.check ⟨eth, [1]⟩, .trySend ⟨eth, [1]⟩, .task .dropHandle, .task (.delay 0), .task .park, .task .recv,
      .task .drained, .task (.cycle 0 fun _ => [.receive none]), .task .accept, .task .done, .task (.delay 1),
      .task .park, .task .stop]
    (fun s => decide (s.runtime.phase = .stopped ∧ Pipeline.accepted s.returned = [⟨eth, [1]⟩]))
    (by decide +kernel)
  obtain ⟨hstop, haccepted⟩ := of_decide_eq_true hcheck
  refine ⟨s, hs, hstop, ?_⟩
  rw [(shutdown_complete reference_lawful hs hstop).2.1 eth, haccepted]
  rfl

end WayNetstack

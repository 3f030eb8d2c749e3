import WayNetstack.Runner.Ingress

/-!
# Backpressure

The ingress channel holds a bounded number of packets and `send_ip_packet` refuses more. The
runner empties it, with a loop of `try_recv`, into the queues of the devices, which have no
bound; and callers go on sending while the loop runs.

`ingress_backlog_bounded`: **what keeps the backlog bounded** is that the callers are slower
than the loop. If at most one packet is accepted for every two that a loop moves, and every poll
takes what the devices hold, then at most `3 * max channel_capacity 1` packets are accepted and
not yet handed over, and a loop moves at most `2 * max channel_capacity 1` of them. At the loop's
own speed neither number has a bound (`Pipeline.exists_backlog`): a caller that sends a packet
after every `try_recv` keeps the runner in one loop for ever.
-/

namespace WayNetstack

open Lib Lib.Traced

variable {S : Smoltcp}

/-! ### The devices -/

/-- The event takes a packet from the device. -/
def PollEvent.isReceive : PollEvent S → Bool
  | .receive _ => true
  | .egress _ _ | .transmit _ | .internal _ => false

theorem InterfaceSlot.length_hands (slot : InterfaceSlot S) (e : PollEvent S) :
    (slot.hands e).length = min slot.device.ingress.length e.isReceive.toNat := by
  cases e with
  | receive taken =>
    show slot.device.ingress.head?.toList.length = min _ 1
    cases slot.device.ingress <;> simp
  | egress | transmit | internal => exact (Nat.min_zero _).symm

/-- A poll that receives `n` times takes the `n` oldest packets. -/
theorem InterfaceSlot.length_ingress_poll (es : List (PollEvent S)) (slot : InterfaceSlot S) :
    (slot.poll es).device.ingress.length = slot.device.ingress.length - es.countP PollEvent.isReceive := by
  induction es generalizing slot with
  | nil => rfl
  | cons e es ih =>
    have happly := congrArg List.length (slot.hands_apply e)
    rw [List.length_append, length_hands] at happly
    rw [poll_cons, ih, List.countP_cons]
    cases hrecv : e.isReceive with
    | true => simp only [hrecv, Bool.toNat_true, if_true] at happly ⊢; omega
    | false => simp only [hrecv, Bool.toNat_false, Bool.false_eq_true, if_false] at happly ⊢; omega

namespace Core

variable {c c' : Core S}

/-- The number of packets in the ingress queues of all devices. -/
def load (c : Core S) : ℕ := c.sumSlots fun slot => slot.device.ingress.length

/-- The polls receive at least as often as there are packets. -/
def TakesAll (c : Core S) (polls : InterfaceId → List (PollEvent S)) : Prop :=
  ∀ slot ∈ c.slots, slot.device.ingress.length ≤ (polls slot.id).countP PollEvent.isReceive

instance (c : Core S) (polls : InterfaceId → List (PollEvent S)) : Decidable (c.TakesAll polls) :=
  inferInstanceAs (Decidable (∀ slot ∈ c.slots, _))

theorem load_of_feeds (h : c'.feeds = c.feeds) : c'.load = c.load := by
  have hform : ∀ d : Core S, d.load = (d.feeds.map fun f => f.2.ingress.length).sum := by
    intro d
    unfold load sumSlots feeds
    rw [List.map_map]
    rfl
  rw [hform, hform, h]

theorem TakesAll.of_feeds {polls : InterfaceId → List (PollEvent S)} (h : c.TakesAll polls)
    (hf : c'.feeds = c.feeds) : c'.TakesAll polls := by
  intro slot hslot
  have hmem : (slot.id, slot.device) ∈ c.feeds := hf ▸ List.mem_map.mpr ⟨slot, hslot, rfl⟩
  obtain ⟨slot', hslot', heq⟩ := List.mem_map.mp hmem
  obtain ⟨hid, hdevice⟩ := Prod.mk.inj heq
  exact hid ▸ hdevice ▸ h slot' hslot'

theorem load_drainEgress (c : Core S) : c.drainEgress.1.load = c.load := by
  unfold load sumSlots drainEgress
  rw [List.map_map]
  rfl

theorem load_queueIngress {pkt : IngressPacket} (hpkt : pkt.interface ∈ c.ids) :
    (queueIngress c pkt).load = c.load + 1 := by
  obtain ⟨slot, hs⟩ := exists_slot.mpr hpkt
  have hsum := sumSlots_setSlot (fun slot => slot.device.ingress.length) (slot_id hs)
    { slot with device := slot.device.pushIngress pkt.data } rfl rfl
  have hpush : (slot.device.pushIngress pkt.data).ingress.length = slot.device.ingress.length + 1 :=
    List.length_append
  have hqueue : queueIngress c pkt = c.setSlot { slot with device := slot.device.pushIngress pkt.data } := by
    unfold queueIngress
    simp only [hs]
  rw [hqueue]
  simp only [hpush] at hsum
  unfold load
  omega

/-- What the polls take and leave, counted. -/
theorem length_received (c : Core S) (polls : InterfaceId → List (PollEvent S)) :
    (c.received polls).length + (c.pollSlots polls).load = c.load := by
  unfold received load sumSlots pollSlots
  rw [List.length_flatMap, List.map_map, ← List.sum_map_add]
  congr 1
  refine List.map_congr_left fun slot _ => ?_
  have hpoll := congrArg List.length (slot.received_poll (polls slot.id))
  rw [List.length_append] at hpoll
  rw [List.length_map]
  exact hpoll

theorem TakesAll.load {polls : InterfaceId → List (PollEvent S)} (h : c.TakesAll polls) :
    (c.pollSlots polls).load = 0 := by
  unfold Core.load sumSlots pollSlots
  rw [List.map_map]
  refine List.sum_eq_zero fun n hn => ?_
  obtain ⟨slot, hslot, rfl⟩ := List.mem_map.mp hn
  have htakes := h slot hslot
  show (slot.poll (polls slot.id)).device.ingress.length = 0
  rw [InterfaceSlot.length_ingress_poll]
  omega

end Core

section Cycles

variable {c : Core S} {now : Instant} {polls : InterfaceId → List (PollEvent S)} {r : Cycle S}

theorem CycleSpec.load (h : CycleSpec c now polls r) :
    (r.admitted.1.received polls).length + r.core.load = c.load := by
  rw [h.core, Core.load_drainEgress, Core.load_of_feeds h.post.feeds, h.polled, Core.length_received,
    Core.load_of_feeds h.feeds]

theorem CycleSpec.load_eq_zero (h : CycleSpec c now polls r) (htakes : c.TakesAll polls) :
    r.core.load = 0 := by
  rw [h.core, Core.load_drainEgress, Core.load_of_feeds h.post.feeds, h.polled]
  exact (htakes.of_feeds h.feeds).load

end Cycles

/-! ### The loop of `try_recv` -/

/-- What has happened since the last poll. -/
structure Drain where
  /-- The packets put into the queues of the devices. -/
  moved : ℕ
  /-- The packets accepted while the runner was in the loop of `try_recv`. -/
  joined : ℕ
  deriving DecidableEq

/-- The channel takes a packet only where it has room. -/
theorem Runtime.length_of_sent {r : Runtime S} {pkt : IngressPacket} (h : (r.trySend pkt).1 =
    { r with channel := r.channel ++ [pkt], calls := r.calls + 1 }) :
    r.channel.length < max r.world.core.config.channelCapacity 1 := by
  by_contra hfull
  have hsame : (r.trySend pkt).1 = r := by
    unfold trySend
    rw [if_pos (Nat.le_of_not_lt hfull)]
    split <;> rfl
  have hlen := congrArg (fun r : Runtime S => r.channel.length) (hsame.symm.trans h)
  simp at hlen

namespace Pipeline

/-- The number of packets accepted and not yet handed to the engine. -/
def backlog (s : Pipeline S) : ℕ := (accepted s.returned).length - s.handed.length

/-- The observer of the loop. -/
def watchDrain (s : Pipeline S) (a : Act S) (t : Pipeline S) (m : Drain) : Drain :=
  match a with
  | .task .recv | .task .drain => { m with moved := m.moved + 1 }
  | .task (.cycle _ _) => ⟨0, 0⟩
  | .trySend _ =>
    if s.runtime.phase = .draining then
      { m with joined := m.joined + ((accepted t.returned).length - (accepted s.returned).length) }
    else m
  | _ => m

/-- A packet is offered to the channel during a loop only if the channel is full, or if with it at
most half as many have joined the loop as it has moved; and a poll takes all the packets of the
devices. -/
def Paced (s : Pipeline S × Drain) : Act S → Prop
  | .trySend _ => s.1.runtime.phase = .draining →
      max s.1.runtime.world.core.config.channelCapacity 1 ≤ s.1.runtime.channel.length ∨
        2 * (s.2.joined + 1) ≤ s.2.moved
  | .task (.cycle _ polls) => s.1.runtime.world.core.TakesAll polls
  | _ => True

/-- The pipelines, with the observer, that runs with steps `ok` reach. -/
def Watched (ok : Pipeline S × Drain → Act S → Prop) (b : NetstackBuilder S) (s : Pipeline S × Drain) : Prop :=
  ((Steps.observe watchDrain).restrict ok).Reaches (init b, ⟨0, 0⟩) s

variable {s t : Pipeline S} {a : Act S} {b : NetstackBuilder S} {m : Drain}

theorem Watched.reachable {ok : Pipeline S × Drain → Act S → Prop} {s : Pipeline S × Drain}
    (h : Watched ok b s) : Reachable b s.1 :=
  (System.Reaches.forget (fun _ _ _ => trivial) h : (Steps.restrict fun _ _ => True).Reaches _ _).mono
    fun _ _ _ hstep => hstep.2

/-- What holds in a run of paced steps. -/
structure Bounded (b : NetstackBuilder S) (s : Pipeline S) (m : Drain) : Prop where
  total : (accepted s.returned).length = s.handed.length + (s.runtime.world.core.load + s.runtime.channel.length)
  load : s.runtime.world.core.load = m.moved
  channel : s.runtime.channel.length ≤ max b.config.channelCapacity 1
  /-- The callers are slower than the loop. -/
  joined : 2 * m.joined ≤ m.moved
  /-- Outside the loop and the poll after it the queues are empty. -/
  idle : s.runtime.phase ≠ .draining → s.runtime.phase ≠ .polling → m = ⟨0, 0⟩
  /-- A loop moves what was in the channel when it began and what joined. -/
  draining : s.runtime.phase = .draining →
    m.moved + s.runtime.channel.length ≤ max b.config.channelCapacity 1 + m.joined
  polling : s.runtime.phase = .polling → m.moved ≤ max b.config.channelCapacity 1 + m.joined

theorem init_bounded (b : NetstackBuilder S) : Bounded b (init b) ⟨0, 0⟩ := by
  have hload : (World.init b).core.load = 0 := by
    refine List.sum_eq_zero fun n hn => ?_
    obtain ⟨slot, hslot, rfl⟩ := List.mem_map.mp hn
    obtain ⟨x, -, rfl⟩ := List.mem_map.mp hslot
    rfl
  exact ⟨by rw [show (init b).runtime.world.core.load = 0 from hload]; rfl, hload, Nat.zero_le _, Nat.zero_le _,
    fun _ _ => rfl, nofun, nofun⟩

/-- Both numbers are within their bounds. -/
theorem Bounded.backlog_le (h : Bounded b s m) : m.moved ≤ 2 * max b.config.channelCapacity 1 ∧
    s.backlog ≤ 3 * max b.config.channelCapacity 1 := by
  have hmoved : m.moved ≤ max b.config.channelCapacity 1 + m.joined := by
    by_cases hdrain : s.runtime.phase = .draining
    · exact (Nat.le_add_right _ _).trans (h.draining hdrain)
    by_cases hpoll : s.runtime.phase = .polling
    · exact h.polling hpoll
    · rw [h.idle hdrain hpoll]
      exact Nat.zero_le _
  have htotal := h.total
  have hload := h.load
  have hchannel := h.channel
  have hjoined := h.joined
  unfold backlog
  omega

/-- A step of the runner that leaves the queues, the channel and the calls alone. -/
theorem Bounded.move {r : Runtime S} (h : Bounded b s m) (hload : r.world.core.load = s.runtime.world.core.load)
    (hc : r.channel = s.runtime.channel) (hp : r.phase = s.runtime.phase ∨
      (s.runtime.phase ≠ .draining ∧ s.runtime.phase ≠ .polling ∧ r.phase ≠ .polling)) :
    Bounded b { s with runtime := r, handed := s.handed ++ [] } m := by
  refine ⟨?_, hload.trans h.load, hc ▸ h.channel, h.joined, ?_, ?_, ?_⟩
  · rw [List.append_nil, hload, hc]
    exact h.total
  · rcases hp with hp | ⟨hdrain, hpoll, -⟩
    · exact fun hd hq => h.idle (hp ▸ hd) (hp ▸ hq)
    · exact fun _ _ => h.idle hdrain hpoll
  · rcases hp with hp | ⟨hdrain, hpoll, -⟩
    · exact fun hd => hc.symm ▸ h.draining (hp ▸ hd)
    · intro _
      rw [h.idle hdrain hpoll, hc, Nat.zero_add]
      exact h.channel
  · rcases hp with hp | ⟨-, -, hq⟩
    · exact fun hd => h.polling (hp ▸ hd)
    · exact fun hd => absurd hd hq

/-- A packet goes from the channel to its device. -/
theorem Bounded.queue {pkt : IngressPacket} {rest : List IngressPacket} (h : Bounded b s m)
    (hpkt : pkt.interface ∈ s.runtime.world.core.ids) (hc : s.runtime.channel = pkt :: rest)
    (hp : s.runtime.phase ≠ .polling) :
    Bounded b { s with
      runtime := { s.runtime with
        world := { s.runtime.world with core := queueIngress s.runtime.world.core pkt }
        channel := rest
        phase := .draining }
      handed := s.handed ++ [] } { m with moved := m.moved + 1 } := by
  have hlen : s.runtime.channel.length = rest.length + 1 := congrArg List.length hc
  have hload := Core.load_queueIngress hpkt
  have hdrain : m.moved + s.runtime.channel.length ≤ max b.config.channelCapacity 1 + m.joined := by
    by_cases hd : s.runtime.phase = .draining
    · exact h.draining hd
    · rw [h.idle hd hp, Nat.zero_add]
      exact h.channel
  refine ⟨?_, ?_, ?_, h.joined.trans (Nat.le_succ _), fun hd => absurd rfl hd, fun _ => ?_, nofun⟩
  · show _ = (s.handed ++ []).length + ((queueIngress s.runtime.world.core pkt).load + rest.length)
    rw [List.append_nil, h.total]
    omega
  · rw [← h.load]
    exact hload
  · show rest.length ≤ _
    have hchannel := h.channel
    omega
  · show m.moved + 1 + rest.length ≤ max b.config.channelCapacity 1 + m.joined
    omega

/-- A packet joins the channel. -/
theorem Bounded.sent {pkt : IngressPacket} (h : Bounded b s m)
    (hroom : s.runtime.channel.length < max b.config.channelCapacity 1)
    (hpaced : s.runtime.phase = .draining → 2 * (m.joined + 1) ≤ m.moved) :
    Bounded b { s with
      runtime := { s.runtime with channel := s.runtime.channel ++ [pkt], calls := s.runtime.calls + 1 }
      checked := s.checked.erase pkt
      returned := s.returned ++ [(pkt, .ok ())] }
      (if s.runtime.phase = .draining then { m with joined := m.joined + 1 } else m) := by
  have hlen : (s.runtime.channel ++ [pkt]).length = s.runtime.channel.length + 1 := List.length_append
  have htotal : (accepted (s.returned ++ [(pkt, .ok ())])).length = s.handed.length +
      (s.runtime.world.core.load + (s.runtime.channel ++ [pkt]).length) := by
    rw [accepted_sent, List.length_append, h.total, hlen]
    exact Nat.add_assoc _ _ _
  have hchannel : (s.runtime.channel ++ [pkt]).length ≤ max b.config.channelCapacity 1 := hlen ▸ hroom
  by_cases hdrain : s.runtime.phase = .draining
  · rw [if_pos hdrain]
    have hmoved := h.draining hdrain
    refine ⟨htotal, h.load, hchannel, hpaced hdrain, fun hd => absurd hdrain hd, fun _ => ?_, fun hq => ?_⟩
    · show m.moved + (s.runtime.channel ++ [pkt]).length ≤ max b.config.channelCapacity 1 + (m.joined + 1)
      omega
    · cases hdrain.symm.trans hq
  · rw [if_neg hdrain]
    exact ⟨htotal, h.load, hchannel, h.joined, h.idle, fun hd => absurd hd hdrain, h.polling⟩

/-- **A paced step keeps the bounds.** -/
theorem Bounded.step (hS : S.Lawful) (hi : s.Inv b) (ht : s.Turn a t) (hok : Paced (s, m) a)
    (h : Bounded b s m) : Bounded b t (watchDrain s a t m) := by
  have hw : s.runtime.world.Inv False b := World.Reachable.inv hS False.elim hi.runtime.anyRun
  cases ht with
  | unknown =>
    refine ⟨?_, h.load, h.channel, h.joined, h.idle, h.draining, h.polling⟩
    rw [accepted_refused]
    exact h.total
  | checked => exact ⟨h.total, h.load, h.channel, h.joined, h.idle, h.draining, h.polling⟩
  | @refused pkt e hpkt =>
    have hsame : watchDrain s (.trySend pkt) { s with
        checked := s.checked.erase pkt, returned := s.returned ++ [(pkt, .error e)] } m = m := by
      simp only [watchDrain, accepted_refused, Nat.sub_self, Nat.add_zero, ite_self]
    rw [hsame]
    refine ⟨?_, h.load, h.channel, h.joined, h.idle, h.draining, h.polling⟩
    rw [accepted_refused]
    exact h.total
  | @sent pkt hpkt hsend =>
    have hroom := Runtime.length_of_sent hsend
    have hpaced : s.runtime.phase = .draining → 2 * (m.joined + 1) ≤ m.moved := fun hdrain =>
      (hok hdrain).resolve_left (Nat.not_le_of_lt hroom)
    rw [hw.config] at hroom
    have hone : (accepted (s.returned ++ [(pkt, .ok ())])).length - (accepted s.returned).length = 1 := by
      rw [accepted_sent, List.length_append]
      exact Nat.add_sub_cancel_left _ _
    simp only [watchDrain, hone]
    exact h.sent hroom hpaced
  | @task a r ha hr =>
    cases Runtime.turn_of_step hr with
    | delay now hp | park hp | stop hp | forward hp | egressGone hp | accept hp | done hp | wake hp | timeout hp =>
      exact h.move rfl rfl (.inr ⟨by simp [hp], by simp [hp], by simp⟩)
    | dropHandle => exact h.move rfl rfl (.inl rfl)
    | app ofApp does => exact h.move (Core.load_of_feeds ((hw.step hS False.elim does).1.feeds ofApp)) rfl (.inl rfl)
    | notify hn =>
      refine h.move rfl rfl ?_
      cases hp : s.runtime.phase with
      | parked => exact .inr ⟨by simp, by simp, by simp [Phase.notifyWaiters]⟩
      | top | armed | draining | polling | forwarding | finishing | stopped => exact .inl rfl
    | sendIp => cases ha
    | @recv sleep pkt rest hp hc =>
      exact h.queue (hi.channel pkt (hc ▸ List.mem_cons_self)) hc (by simp [hp])
    | @drain pkt rest hp hc =>
      have hqueue := h.queue (hi.channel pkt (hc ▸ List.mem_cons_self)) hc (by simp [hp])
      rwa [← hp] at hqueue
    | drained hp hc =>
      have hmoved := h.draining hp
      rw [hc] at hmoved
      refine ⟨?_, h.load, h.channel, h.joined, fun _ hq => absurd rfl hq, by simp, fun _ => hmoved⟩
      rw [show s.handed ++ s.runtime.hands .drained = s.handed from List.append_nil _]
      exact h.total
    | @cycle now polls c hp hc =>
      have hspec := ((pollOnce_ok hS False.elim hw.registered hw.budgeted now polls).post hc).1
      have hhands : s.runtime.hands (.cycle now polls) = c.admitted.1.received polls := by
        simp only [Runtime.hands, prePass_of_pollOnce hc]
        rfl
      have hload := hspec.load
      have hzero : c.core.load = 0 := hspec.load_eq_zero hok
      refine ⟨?_, hzero, h.channel, Nat.zero_le _, fun _ _ => rfl, by simp, by simp⟩
      show _ = (s.handed ++ s.runtime.hands (.cycle now polls)).length +
        (c.core.load + s.runtime.channel.length)
      rw [hhands, List.length_append, h.total]
      omega

theorem Watched.bounded (hS : S.Lawful) {s : Pipeline S × Drain} (h : Watched Paced b s) :
    Bounded b s.1 s.2 := by
  refine System.Reaches.invariant (P := fun s => Bounded b s.1 s.2) h (init_bounded b) ?_
  rintro s a t hs hb ⟨hok, hstep, hobs⟩
  rw [hobs]
  exact hb.step hS ((Watched.reachable hs).inv hS) (turn_of_step hstep) hok

/-! ### Callers that do not pause -/

/-- The runner is in its loop with an empty channel, and the handle is there to send. -/
structure Looping (i : InterfaceId) (s : Pipeline S) : Prop where
  phase : s.runtime.phase = .draining
  channel : s.runtime.channel = []
  handle : s.runtime.handle = true
  known : i ∈ s.runtime.world.core.ids

/-- **A caller that sends after each `try_recv`**: a packet is accepted and moved, and the loop is
where it was. -/
theorem Looping.round {i : InterfaceId} (hs : Reachable b s) (h : Looping i s) (data : Bytes) :
    ∃ t, Reachable b t ∧ Looping i t ∧ t.handed = s.handed ∧
      (accepted t.returned).length = (accepted s.returned).length + 1 := by
  let pkt : IngressPacket := ⟨i, data⟩
  obtain ⟨slot, hslot⟩ := Core.exists_slot.mpr h.known
  have hcheck : s.step (.check pkt) = some { s with checked := pkt :: s.checked } := by
    simp [step, h.handle, pkt, hslot]
  let s₁ : Pipeline S := { s with checked := pkt :: s.checked }
  have hsend : s₁.runtime.trySend pkt =
      ({ s.runtime with channel := [pkt], calls := s.runtime.calls + 1 }, .ok ()) := by
    simp [s₁, Runtime.trySend, h.phase, h.channel]
  let s₂ : Pipeline S := { s with
    runtime := { s.runtime with channel := [pkt], calls := s.runtime.calls + 1 }
    checked := s₁.checked.erase pkt
    returned := s.returned ++ [(pkt, .ok ())] }
  have htry : s₁.step (.trySend pkt) = some s₂ := by
    show (if pkt ∈ pkt :: s.checked then _ else none) = _
    rw [if_pos List.mem_cons_self, hsend]
  let r₃ : Runtime S := { s₂.runtime with
    world := { s.runtime.world with core := queueIngress s.runtime.world.core pkt }, channel := [] }
  have hdrain : s₂.step (.task .drain) = some { s₂ with runtime := r₃, handed := s.handed ++ [] } := by
    simp [step, allows, s₂, r₃, Runtime.step, Runtime.hands, h.phase]
  refine ⟨_, ((hs.step hcheck).step htry).step hdrain, ⟨h.phase, rfl, h.handle, ?_⟩, List.append_nil _, ?_⟩
  · exact (Core.ids_queueIngress s.runtime.world.core pkt).symm ▸ h.known
  · show (accepted (s.returned ++ [(pkt, .ok ())])).length = _
    rw [accepted_sent]
    exact List.length_append

/-- **The backlog has no bound**: whatever the configuration, one loop of `try_recv` can move any
number of packets. -/
theorem exists_backlog (b : NetstackBuilder S) {i : InterfaceId} (hi : i ∈ (World.init b).core.ids) (n : ℕ) :
    ∃ s, Reachable b s ∧ Looping i s ∧ s.backlog = n := by
  have hrun : ∃ s, Reachable b s ∧ Looping i s ∧ s.handed = [] ∧ (accepted s.returned).length = n := by
    induction n with
    | zero =>
      -- the runner is woken by its sleep, before anything is sent
      let sleep := sleepFor (nextPollDelay (World.init b).core 0)
      let arrive (p : Phase) : Pipeline S := { init b with runtime := { Runtime.init b with phase := p } }
      have harmed : Steps (init b) (.task (.delay 0)) (arrive (.armed sleep)) := rfl
      have hparked : Steps (arrive (.armed sleep)) (.task .park) (arrive (.parked sleep false)) := rfl
      have hloop : Steps (arrive (.parked sleep false)) (.task .timeout) (arrive .draining) := rfl
      exact ⟨_, (((System.Reaches.refl _ _).step harmed).step hparked).step hloop, ⟨rfl, rfl, rfl, hi⟩, rfl, rfl⟩
    | succ n ih =>
      obtain ⟨s, hs, hloop, hhanded, hn⟩ := ih
      obtain ⟨t, ht, hloop', hhanded', hn'⟩ := hloop.round hs []
      exact ⟨t, ht, hloop', hhanded'.trans hhanded, hn'.trans (congrArg Nat.succ hn)⟩
  obtain ⟨s, hs, hloop, hhanded, hn⟩ := hrun
  refine ⟨s, hs, hloop, ?_⟩
  unfold backlog
  rw [hhanded, hn]
  rfl

/-- A pipeline found by computing a run that the observer watches. -/
theorem exists_watched (ok : Pipeline S × Drain → Act S → Prop) [∀ s a, Decidable (ok s a)]
    (b : NetstackBuilder S) (acts : List (Act S)) (check : Pipeline S × Drain → Bool)
    (h : (System.compute step watchDrain ok (init b, ⟨0, 0⟩) acts).any check = true) :
    ∃ s, Watched ok b s ∧ check s = true :=
  System.exists_of_compute (fun h => h) h

instance (s : Pipeline S × Drain) : ∀ a, Decidable (Paced s a)
  | .trySend _ => inferInstanceAs (Decidable (_ → _))
  | .task (.cycle _ polls) => inferInstanceAs (Decidable (s.1.runtime.world.core.TakesAll polls))
  | .check _ | .task (.delay _) | .task .park | .task .wake | .task .recv | .task .stop | .task .timeout
  | .task .drain | .task .drained | .task .forward | .task .egressGone | .task .accept | .task .done
  | .task (.app _) | .task .notify | .task (.sendIp _) | .task .dropHandle => inferInstanceAs (Decidable True)

end Pipeline

/-- **Backpressure, while callers are slower than the loop.** In every run in which at most one
packet is accepted for every two that a loop of `try_recv` moves, and each poll takes the packets of
the devices: the packets accepted and not yet handed over are at most `3 * max channel_capacity 1`,
and a loop moves at most `2 * max channel_capacity 1`. -/
theorem ingress_backlog_bounded (hS : S.Lawful) {b : NetstackBuilder S} {s : Pipeline S × Drain}
    (h : Pipeline.Watched Pipeline.Paced b s) :
    (Pipeline.accepted s.1.returned).length = s.1.handed.length + s.1.backlog ∧
      s.1.backlog ≤ 3 * max b.config.channelCapacity 1 ∧ s.2.moved ≤ 2 * max b.config.channelCapacity 1 := by
  have hbound := h.bounded hS
  have htotal := hbound.total
  refine ⟨?_, hbound.backlog_le.2, hbound.backlog_le.1⟩
  unfold Pipeline.backlog
  omega

namespace Reference

/-- A caller's call of `send_ip_packet`. -/
def offers (data : Bytes) : List (Pipeline.Act reference) := [.check ⟨eth, data⟩, .trySend ⟨eth, data⟩]

end Reference

open Reference in
/-- The channel has room for two packets. It is full when the loop begins, one packet joins the loop
when it has moved the two, and two more are accepted when it is over: five are on their way. -/
theorem ingress_backlog_bounded_five : ∃ s : Pipeline reference × Drain,
    Pipeline.Watched Pipeline.Paced (trial { NetstackConfig.default with channelCapacity := 2 }) s ∧
      s.1.backlog = 5 ∧ s.2.moved = 3 ∧ s.1.backlog ≤ 3 * max 2 1 ∧ s.2.moved ≤ 2 * max 2 1 := by
  obtain ⟨s, hs, hcheck⟩ := Pipeline.exists_watched Pipeline.Paced
    (trial { NetstackConfig.default with channelCapacity := 2 })
    (offers [1] ++ offers [2] ++ [.task (.delay 0), .task .park, .task .recv, .task .drain] ++ offers [3] ++
      [.task .drain, .task .drained] ++ offers [4] ++ offers [5])
    (fun s => decide (s.1.backlog = 5 ∧ s.2.moved = 3)) (by decide +kernel)
  obtain ⟨hbacklog, hmoved⟩ := of_decide_eq_true hcheck
  obtain ⟨-, hle, hle'⟩ := ingress_backlog_bounded reference_lawful hs
  exact ⟨s, hs, hbacklog, hmoved, hle, hle'⟩

open Reference in
/-- **No capacity bounds the backlog.** -/
theorem ingress_backlog_unbounded : ¬∃ B : ℕ → ℕ, ∀ (b : NetstackBuilder reference) (s : Pipeline reference),
    Pipeline.Reachable b s → s.backlog ≤ B b.config.channelCapacity := by
  rintro ⟨B, hB⟩
  obtain ⟨s, hs, -, hn⟩ := Pipeline.exists_backlog (trial .default) (i := eth) (by decide) (B 2048 + 1)
  have hle : s.backlog ≤ B 2048 := hB (trial .default) s hs
  omega

end WayNetstack

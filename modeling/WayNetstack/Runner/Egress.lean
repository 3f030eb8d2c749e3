import WayNetstack.Runner.Ingress
import WayNetstack.Runner.Objects

/-!
# What a cycle sends

The engine gives its packets to the devices while it is polled. The cycle then takes them
from the devices, interface by interface (`egress_of_cycle`), and leaves the devices empty,
which they are in every world of a run (`World.Reachable.emptied`). The runner sends them on
one by one (`Runtime.Turn.unsent`) before it hands out the sessions of the cycle.
-/

namespace WayNetstack

open Lib Lib.Traced

variable {S : Smoltcp}

/-! ### From the engine to the cycle -/

/-- The packet that an event gives to the device. -/
def PollEvent.sends : PollEvent S → List Bytes
  | .transmit data => [data]
  | .receive _ | .egress _ _ | .internal _ => []

/-- The packets that the polls of a cycle give to the devices, interface by interface. -/
def Core.transmits (c : Core S) (polls : InterfaceId → List (PollEvent S)) : List EgressPacket :=
  c.ids.flatMap fun i => ((polls i).flatMap PollEvent.sends).map fun data => ⟨i, data⟩

/-- The packets that the engine sends in a step of the loop. -/
def Runtime.transmits (s : Runtime S) : Act S → List EgressPacket
  | .cycle _ polls => s.world.core.transmits polls
  | _ => []

/-- The egress queues of the devices are empty. -/
def Core.Emptied (c : Core S) : Prop := ∀ f ∈ c.feeds, f.2.egress = []

section Egress

variable {c : Core S} {w w' : World S} {l : Label S} {now : Instant}
  {polls : InterfaceId → List (PollEvent S)} {r : Cycle S}

theorem InterfaceSlot.egress_poll (es : List (PollEvent S)) (slot : InterfaceSlot S) :
    (slot.poll es).device.egress = slot.device.egress ++ es.flatMap PollEvent.sends := by
  induction es generalizing slot with
  | nil => exact (List.append_nil _).symm
  | cons e es ih =>
    have hstep : (slot.apply e).device.egress = slot.device.egress ++ e.sends := by
      cases e with
      | receive taken =>
        rw [PollEvent.sends, List.append_nil]
        cases taken with
        | none => rfl
        | some x =>
          show (slot.popIngress.swapSocket x.1 x.2).device.egress = _
          rw [ingress_swapSocket]
          rfl
      | egress h s =>
        show (slot.swapSocket h s).device.egress = _
        rw [ingress_swapSocket, PollEvent.sends, List.append_nil]
      | transmit data => rfl
      | internal iface => exact (List.append_nil _).symm
    rw [poll_cons, ih, hstep, List.flatMap_cons, List.append_assoc]

/-- A cycle collects what the engine has sent in it. -/
theorem egress_of_cycle (he : c.Emptied) (hr : (pollOnce c now polls).result = .ok r)
    (spec : CycleSpec c now polls r) : r.egress = c.transmits polls := by
  have hcollect : r.egress = r.post.core.feeds.flatMap fun f => f.2.egress.map fun data => ⟨f.1, data⟩ := by
    obtain ⟨admitted, -, hr⟩ := bind_result_ok.mp hr
    obtain ⟨post, -, hr⟩ := bind_result_ok.mp hr
    cases hr
    unfold Core.feeds
    rw [List.flatMap_map]
  rw [hcollect, spec.post.feeds, spec.polled]
  unfold Core.transmits Core.feeds Core.pollSlots
  rw [← Core.ids_of_feeds spec.feeds, Core.ids, List.map_map, List.flatMap_map, List.flatMap_map]
  refine List.flatMap_congr fun slot hslot => ?_
  have hempty : slot.device.egress = [] := by
    refine he (slot.id, slot.device) ?_
    rw [← spec.feeds]
    exact List.mem_map_of_mem hslot
  simp only [Function.comp_apply, InterfaceSlot.id_poll, InterfaceSlot.egress_poll, hempty, List.nil_append]

theorem World.Does.emptied (h : w.Does l w') (he : w.core.Emptied) : w'.core.Emptied := by
  cases hl : l.ofApp with
  | true =>
    unfold Core.Emptied
    rwa [h.feeds hl]
  | false =>
    cases h with
    | ingress pkt =>
      rcases queueIngress_eq w.core pkt with heq | ⟨slot, hs, heq⟩
      · rwa [heq]
      · simp only [heq]
        intro f hf
        obtain ⟨slot', hslot', rfl⟩ := List.mem_map.mp hf
        have hold : ∀ y ∈ w.core.slots, y.device.egress = [] :=
          fun y hy => he (y.id, y.device) (List.mem_map_of_mem hy)
        rcases Core.mem_setSlot hslot' with hmem | rfl
        · exact hold slot' hmem
        · exact hold slot (Core.mem_of_slot hs)
    | cycle result spec =>
      intro f hf
      have hcore : (w.afterCycle _).core = _ := spec.core
      rw [hcore] at hf
      obtain ⟨slot, hslot, rfl⟩ := List.mem_map.mp hf
      obtain ⟨x, hx, rfl⟩ := List.mem_map.mp hslot
      rfl
    | read | write | shutdown | dropStream | send | recv | dropSession | rehash => cases hl

theorem World.Reachable.emptied (hS : S.Lawful) {ok : World S → Label S → Prop} {b : NetstackBuilder S}
    (h : World.Reachable ok b w) : w.core.Emptied := by
  refine System.Reaches.invariant (P := fun w : World S => w.core.Emptied) h ?_ fun s l t hs hp hstep => ?_
  · intro f hf
    obtain ⟨slot, hslot, rfl⟩ := List.mem_map.mp hf
    obtain ⟨x, -, rfl⟩ := List.mem_map.mp hslot
    rfl
  · have hw : s.Inv False b := World.Reachable.inv hS False.elim hs
    exact (hw.step hS False.elim hstep.2).1.emptied hp

end Egress

/-! ### From the cycle to the channel -/

/-- The packet that a step of the loop sends to the egress channel. -/
def Runtime.forwards (s : Runtime S) : Act S → List EgressPacket
  | .forward =>
    match s.phase with
    | .forwarding (pkt :: _) => [pkt]
    | _ => []
  | _ => []

/-- The packets still to be sent to the egress channel. -/
def Phase.unsent : Phase → List EgressPacket
  | .forwarding egress => egress
  | _ => []

theorem Phase.notifyWaiters_eq_forwarding {p : Phase} {egress : List EgressPacket} :
    p.notifyWaiters = .forwarding egress ↔ p = .forwarding egress := by
  cases p <;> simp [notifyWaiters]

namespace Runtime.Turn

variable {s t : Runtime S} {a : Act S} {b : NetstackBuilder S}

/-- The packets of a cycle are sent on one by one. -/
theorem unsent (hS : S.Lawful) (hs : Reachable b s) (h : s.Turn a t) (ha : a ≠ .egressGone) :
    s.phase.unsent ++ s.transmits a = s.forwards a ++ t.phase.unsent := by
  cases h with
  | delay now hp | park hp | wake hp | recv hp hc | stop hp hc hh | timeout hp hc hh | drain hp hc
  | drained hp hc | accept hp | done hp => simp [hp, Phase.unsent, transmits, forwards]
  | @cycle now polls r hp hr =>
    have hw : s.world.Inv False b := World.Reachable.inv hS False.elim hs.anyRun
    have hspec := ((pollOnce_ok hS False.elim hw.registered hw.budgeted now polls).post hr).1
    have hegress := egress_of_cycle (World.Reachable.emptied hS hs.anyRun) hr hspec
    simp [hp, Phase.unsent, transmits, forwards, hegress]
  | forward hp => simp [hp, Phase.unsent, transmits, forwards]
  | egressGone => exact absurd rfl ha
  | app | dropHandle => exact List.append_nil _
  | notify hn => cases s.phase <;> simp [Phase.unsent, transmits, forwards, Phase.notifyWaiters]
  | sendIp pkt hh =>
    rcases s.sendIpPacket_cases pkt with heq | heq <;> rw [heq] <;> exact List.append_nil _

/-- A step that makes sessions is followed by their delivery. -/
theorem forwarding_of_surfaces (h : s.Turn a t) (hne : s.surfaces a ≠ []) : t.phase = .forwarding t.phase.unsent := by
  cases h with
  | cycle => rfl
  | _ => exact absurd rfl hne

/-- The delivery ends with its last session, or when the egress receiver is gone. -/
theorem forwarding_ends (h : s.Turn a t) {egress : List EgressPacket} (hs : s.phase = .forwarding egress)
    (ha : a ≠ .accept) (hgone : a ≠ .egressGone) : t.phase = .forwarding t.phase.unsent := by
  cases h with
  | delay now hp | park hp | wake hp | recv hp hc | stop hp hc hh | timeout hp hc hh | drain hp hc
  | drained hp hc | cycle hp hr | done hp => cases hp.symm.trans hs
  | forward hp => rfl
  | egressGone => exact absurd rfl hgone
  | accept => exact absurd rfl ha
  | app | dropHandle => rw [hs]; rfl
  | notify hn =>
    simp only [hs]
    rfl
  | sendIp pkt hh => rcases s.sendIpPacket_cases pkt with heq | heq <;> rw [heq, hs] <;> rfl

/-- How the runner comes to deliver sessions, other than by a cycle. -/
theorem delivering (h : s.Turn a t) (ht : t.phase = .forwarding []) (hc : ∀ now polls, a ≠ .cycle now polls) :
    s.phase = .forwarding [] ∨ a = .forward := by
  cases h with
  | delay | park | wake | recv | stop | timeout | drained | egressGone | accept | done => cases ht
  | drain hp hc => cases hp.symm.trans ht
  | cycle => exact absurd rfl (hc _ _)
  | forward => exact .inr rfl
  | app | dropHandle => exact .inl ht
  | notify => exact .inl (Phase.notifyWaiters_eq_forwarding.mp ht)
  | sendIp pkt hh => rcases s.sendIpPacket_cases pkt with heq | heq <;> rw [heq] at ht <;> exact .inl ht

end Runtime.Turn

end WayNetstack

import WayNetstack.Registry.Outcome
import WayNetstack.Runner.Loop
import WayNetstack.Reference

/-!
# The way of a packet

A packet given to `send_ip_packet` goes through the ingress channel, which the runner reads
in `select!` and in its loop of `try_recv`, to the queue of its interface's device, and from
there to the engine. The pre-pass takes the whole queue out and puts it back.

A call of `send_ip_packet` is two steps: the interface is looked up under the lock, and then
the packet is offered to the channel, with other tasks in between. `Pipeline` is the loop of
the runner with such calls in progress; as the interfaces never change, a call does what it
would do at once (`Pipeline.Reachable.runtime`).

`ingress_conserved`: **no packet is lost, reordered or given to another interface**. What an
interface has handed to the engine, what waits in its device and what is in the channel for
it are together, at every moment and in this order, the packets accepted for it.
-/

namespace WayNetstack

open Lib Lib.Traced

variable {S : Smoltcp}

/-- The data of the packets of an interface. -/
def packetsOn (i : InterfaceId) (pkts : List IngressPacket) : List Bytes :=
  (pkts.filter fun pkt => decide (pkt.interface = i)).map (·.data)

@[simp] theorem packetsOn_append (i : InterfaceId) (l l' : List IngressPacket) :
    packetsOn i (l ++ l') = packetsOn i l ++ packetsOn i l' := by
  unfold packetsOn
  rw [List.filter_append, List.map_append]

theorem packetsOn_cons (i : InterfaceId) (pkt : IngressPacket) (l : List IngressPacket) :
    packetsOn i (pkt :: l) = packetsOn i [pkt] ++ packetsOn i l := packetsOn_append i [pkt] l

theorem packetsOn_singleton (i : InterfaceId) (pkt : IngressPacket) :
    packetsOn i [pkt] = if pkt.interface = i then [pkt.data] else [] := by
  unfold packetsOn
  by_cases h : pkt.interface = i <;> simp [h]

/-! ### The device -/

namespace InterfaceSlot

/-- The packet that `VirtualDevice::receive` hands over in an event. -/
def hands (slot : InterfaceSlot S) : PollEvent S → List Bytes
  | .receive _ => slot.device.ingress.head?.toList
  | .egress _ _ | .transmit _ | .internal _ => []

/-- The packets handed over in a poll. -/
def received : InterfaceSlot S → List (PollEvent S) → List Bytes
  | _, [] => []
  | slot, e :: es => slot.hands e ++ (slot.apply e).received es

theorem ingress_swapSocket (slot : InterfaceSlot S) (h : SocketHandle) (s : S.Socket) :
    (slot.swapSocket h s).device = slot.device := by
  unfold swapSocket
  split <;> rfl

/-- An event hands over the oldest packet or none. -/
theorem hands_apply (slot : InterfaceSlot S) (e : PollEvent S) :
    slot.hands e ++ (slot.apply e).device.ingress = slot.device.ingress := by
  have hpop : slot.device.ingress.head?.toList ++ slot.popIngress.device.ingress = slot.device.ingress := by
    unfold popIngress
    cases slot.device.ingress <;> rfl
  cases e with
  | receive taken =>
    cases taken with
    | none => exact hpop
    | some x =>
      show _ ++ (slot.popIngress.swapSocket x.1 x.2).device.ingress = _
      rw [ingress_swapSocket]
      exact hpop
  | egress h s =>
    show [] ++ (slot.swapSocket h s).device.ingress = _
    rw [ingress_swapSocket, List.nil_append]
  | transmit data => rfl
  | internal iface => rfl

/-- **A poll takes packets from the front of the queue only.** -/
theorem received_poll (es : List (PollEvent S)) (slot : InterfaceSlot S) :
    slot.received es ++ (slot.poll es).device.ingress = slot.device.ingress := by
  induction es generalizing slot with
  | nil => rfl
  | cons e es ih => rw [poll_cons, received, List.append_assoc, ih, hands_apply]

end InterfaceSlot

namespace Core

variable {c c' : Core S} {i : InterfaceId}

/-- The packets in the ingress queue of an interface. -/
def waiting (c : Core S) (i : InterfaceId) : List Bytes := (c.slot i).elim [] fun slot => slot.device.ingress

/-- The packets that the polls of a cycle take from the devices. -/
def received (c : Core S) (polls : InterfaceId → List (PollEvent S)) : List IngressPacket :=
  c.slots.flatMap fun slot => (slot.received (polls slot.id)).map fun data => ⟨slot.id, data⟩

theorem waiting_of_feeds (h : c'.feeds = c.feeds) : c'.waiting = c.waiting := by
  have hform : ∀ d : Core S, d.waiting =
      fun i => (d.feeds.find? fun f => decide (f.1 = i)).elim [] fun f => f.2.ingress := by
    intro d
    funext i
    unfold waiting feeds Core.slot
    rw [List.find?_map]
    show _ = ((d.slots.find? fun slot => decide (slot.id = i)).map _).elim [] _
    cases d.slots.find? fun slot => decide (slot.id = i) <;> rfl
  rw [hform, hform, h]

theorem packetsOn_received (hn : c.ids.Nodup) (polls : InterfaceId → List (PollEvent S)) (i : InterfaceId) :
    packetsOn i (c.received polls) = (c.slot i).elim [] fun slot => slot.received (polls i) := by
  have hslot : ∀ slot : InterfaceSlot S,
      packetsOn i ((slot.received (polls slot.id)).map fun data => ⟨slot.id, data⟩) =
        if slot.id = i then slot.received (polls i) else [] := by
    intro slot
    unfold packetsOn
    rw [List.filter_map, List.map_map]
    by_cases h : slot.id = i <;> simp [h, Function.comp_def]
  have hflat : packetsOn i (c.received polls) =
      c.slots.flatMap fun slot => if slot.id = i then slot.received (polls i) else [] := by
    simp only [← hslot]
    unfold received packetsOn
    rw [List.filter_flatMap, List.map_flatMap]
  rw [hflat, flatMap_slots hn fun slot hid => if_neg hid]
  cases hs : c.slot i with
  | none => rfl
  | some slot => exact if_pos (id_of_slot hs)

/-- What the polls take and leave. -/
theorem received_pollSlots (hn : c.ids.Nodup) (polls : InterfaceId → List (PollEvent S)) (i : InterfaceId) :
    packetsOn i (c.received polls) ++ (c.pollSlots polls).waiting i = c.waiting i := by
  rw [packetsOn_received hn]
  unfold waiting
  rw [slot_pollSlots]
  cases hs : c.slot i with
  | none => rfl
  | some slot =>
    show slot.received (polls i) ++ (slot.poll (polls slot.id)).device.ingress = slot.device.ingress
    rw [id_of_slot hs, InterfaceSlot.received_poll]

theorem waiting_drainEgress (c : Core S) : c.drainEgress.1.waiting = c.waiting := by
  funext i
  unfold waiting
  rw [slot_drainEgress]
  cases c.slot i <;> rfl

/-- A queued packet waits behind the others of its interface. -/
theorem waiting_queueIngress {pkt : IngressPacket} (hpkt : pkt.interface ∈ c.ids) (i : InterfaceId) :
    (queueIngress c pkt).waiting i = c.waiting i ++ packetsOn i [pkt] := by
  obtain ⟨slot, hs⟩ := exists_slot.mpr hpkt
  have hid := id_of_slot hs
  rw [packetsOn_singleton]
  unfold queueIngress waiting
  simp only [hs]
  have hset : (c.setSlot { slot with device := slot.device.pushIngress pkt.data }).slot i =
      if i = slot.id then some { slot with device := slot.device.pushIngress pkt.data } else c.slot i :=
    slot_setSlot (hid.symm ▸ hs) i
  rw [hset]
  by_cases h : pkt.interface = i
  · subst h
    rw [if_pos hid.symm, if_pos rfl, hs]
    rfl
  · rw [if_neg fun he => h (hid.symm.trans he.symm), if_neg h, List.append_nil]

theorem ids_queueIngress (c : Core S) (pkt : IngressPacket) : (queueIngress c pkt).ids = c.ids := by
  rcases queueIngress_eq c pkt with heq | ⟨slot, hs, heq⟩
  · rw [heq]
  · rw [heq]
    exact map_setSlot InterfaceSlot.id { slot with device := slot.device.pushIngress pkt.data } hs rfl

end Core

/-! ### The steps -/

section Turns

variable {w w' : World S} {l : Label S}

/-- The application does not touch the devices. -/
theorem World.Does.feeds (h : w.Does l w') (hl : l.ofApp = true) : w'.core.feeds = w.core.feeds := by
  cases h with
  | ingress | cycle => cases hl
  | read alive touch | write alive touch | shutdown alive touch =>
    cases touch with
    | same => rfl
    | @put slot t t' hs hid hget hR => exact Core.feeds_setSlot (slot.putSocket _ _) hs rfl
  | dropStream alive drop =>
    cases drop with
    | @drop slot t e hs hid hget he hh => exact Core.feeds_setSlot (slot.putSocket _ _) hs rfl
  | send alive result send =>
    cases send with
    | refused => rfl
    | @sent slot u u' e hs hid hget he hsock hsend => exact Core.feeds_setSlot (slot.putSocket _ _) hs rfl
  | recv alive =>
    unfold Core.feeds
    rw [(popQueue_frame _ _).1]
  | dropSession alive drop =>
    cases drop with
    | gone => rfl
    | ended hstep hlook => exact hstep.feeds
  | rehash same => rfl

variable {c : Core S} {now : Instant} {polls : InterfaceId → List (PollEvent S)} {r : Cycle S}

/-- A cycle takes packets from the front of the queues only. -/
theorem CycleSpec.received (h : CycleSpec c now polls r) (hn : c.ids.Nodup) (i : InterfaceId) :
    packetsOn i (r.admitted.1.received polls) ++ r.core.waiting i = c.waiting i := by
  have hn' : r.admitted.1.ids.Nodup := Core.ids_of_feeds h.feeds ▸ hn
  rw [h.core, Core.waiting_drainEgress, Core.waiting_of_feeds h.post.feeds, h.polled,
    Core.received_pollSlots hn', Core.waiting_of_feeds h.feeds]

theorem CycleSpec.ids (h : CycleSpec c now polls r) : r.core.ids = c.ids := by
  have hdrain : r.core.ids = r.post.core.ids := by
    rw [h.core]
    unfold Core.drainEgress Core.ids
    rw [List.map_map]
    rfl
  have hpolled : r.polled.ids = r.admitted.1.ids := by
    rw [h.polled]
    unfold Core.pollSlots Core.ids
    rw [List.map_map]
    exact List.map_congr_left fun slot _ => InterfaceSlot.id_poll _ _
  rw [hdrain, Core.ids_of_feeds h.post.feeds, hpolled, Core.ids_of_feeds h.feeds]

/-- No interface comes or goes. -/
theorem World.Does.ids (h : w.Does l w') : w'.core.ids = w.core.ids := by
  cases hl : l.ofApp with
  | true => exact Core.ids_of_feeds (h.feeds hl)
  | false =>
    cases h with
    | ingress pkt => exact Core.ids_queueIngress w.core pkt
    | cycle result spec => exact spec.ids
    | read | write | shutdown | dropStream | send | recv | dropSession | rehash => cases hl

end Turns

namespace Runtime

variable {s t : Runtime S} {a : Act S} {b : NetstackBuilder S}

/-- The packets that the engine takes from the devices in a step. -/
def hands (s : Runtime S) : Act S → List IngressPacket
  | .cycle now polls => (prePass s.world.core now).result.toOption.elim [] fun st => st.1.received polls
  | _ => []

/-- The packets of an interface between `send_ip_packet` and the engine, the oldest first. -/
def queued (s : Runtime S) (i : InterfaceId) : List Bytes :=
  s.world.core.waiting i ++ packetsOn i s.channel

/-- The second step of `NetstackHandle::send_ip_packet`: `try_send`, and `notify_poll` to
come. -/
def trySend (s : Runtime S) (pkt : IngressPacket) : Runtime S × Except NetstackError Unit :=
  if s.phase = .stopped then (s, .error .channelClosed)
  else if max s.world.core.config.channelCapacity 1 ≤ s.channel.length then (s, .error .channelFull)
  else ({ s with channel := s.channel ++ [pkt], calls := s.calls + 1 }, .ok ())

/-- The two steps of a call at once. -/
theorem sendIpPacket_eq (s : Runtime S) (pkt : IngressPacket) : s.sendIpPacket pkt =
    if (s.world.core.slot pkt.interface).isNone then (s, .error (.interfaceNotFound pkt.interface))
    else s.trySend pkt := rfl

/-- A packet is refused, and nothing changes, or joins the channel. -/
theorem trySend_cases (s : Runtime S) (pkt : IngressPacket) : (∃ e, s.trySend pkt = (s, .error e)) ∨
    s.trySend pkt = ({ s with channel := s.channel ++ [pkt], calls := s.calls + 1 }, .ok ()) := by
  unfold trySend
  split
  · exact .inl ⟨_, rfl⟩
  split
  · exact .inl ⟨_, rfl⟩
  · exact .inr rfl

theorem Turn.ids (hS : S.Lawful) (hw : s.world.Inv False b) (h : s.Turn a t) :
    t.world.core.ids = s.world.core.ids := by
  rcases h.world with heq | ⟨l, hl⟩
  · rw [heq]
  · exact (hw.step hS False.elim hl).1.ids

/-- **A step moves packets on and keeps their order**: what is handed over in it and what is
then queued was queued before. -/
theorem Turn.queued (hS : S.Lawful) (hw : s.world.Inv False b) (h : s.Turn a t)
    (hknown : ∀ pkt ∈ s.channel, pkt.interface ∈ s.world.core.ids) (ha : ∀ pkt, a ≠ .sendIp pkt)
    (i : InterfaceId) : packetsOn i (s.hands a) ++ t.queued i = s.queued i := by
  cases h with
  | delay | park | wake | stop | timeout | drained | forward | egressGone | accept | done | notify
  | dropHandle => rfl
  | @recv sleep pkt rest hp hc | @drain pkt rest hp hc =>
    have hpkt : pkt.interface ∈ s.world.core.ids := hknown pkt (hc ▸ List.mem_cons_self)
    show (queueIngress s.world.core pkt).waiting i ++ packetsOn i rest = _
    rw [Core.waiting_queueIngress hpkt, Runtime.queued, hc, packetsOn_cons i pkt rest, List.append_assoc]
  | @cycle now polls r hp hr =>
    have hspec := ((pollOnce_ok hS False.elim hw.registered hw.budgeted now polls).post hr).1
    have hhands : s.hands (.cycle now polls) = r.admitted.1.received polls := by
      simp only [hands, prePass_of_pollOnce hr]
      rfl
    rw [hhands]
    show _ ++ (r.core.waiting i ++ _) = _
    rw [← List.append_assoc, hspec.received hw.registered.shaped.ids]
    rfl
  | @app l w ofApp does =>
    have hfeeds := (hw.step hS False.elim does).1.feeds ofApp
    show w.core.waiting i ++ _ = _
    rw [Core.waiting_of_feeds hfeeds]
    rfl
  | sendIp pkt => exact absurd rfl (ha pkt)

/-- Only the drop of the handle ends it. -/
theorem Turn.handle (h : s.Turn a t) (ha : a ≠ .dropHandle) : t.handle = s.handle := by
  cases h with
  | sendIp pkt => rcases s.sendIpPacket_cases pkt with heq | heq <;> rw [heq]
  | dropHandle => exact absurd rfl ha
  | _ => rfl

/-- What is new in the channel after a step comes from a call. -/
theorem Turn.channel (h : s.Turn a t) (ha : ∀ pkt, a ≠ .sendIp pkt) : t.channel ⊆ s.channel := by
  cases h with
  | delay | park | wake | stop | timeout | drained | forward | egressGone | accept | done | notify
  | dropHandle | cycle | app => exact List.Subset.refl _
  | @recv sleep pkt rest hp hc | @drain pkt rest hp hc =>
    rw [hc]
    exact List.subset_cons_self _ _
  | sendIp pkt => exact absurd rfl (ha pkt)

end Runtime

/-! ### Calls in progress -/

/-- The runtime with calls of `send_ip_packet` in progress, and what has happened so far. -/
structure Pipeline (S : Smoltcp) where
  runtime : Runtime S
  /-- The packets of the calls that have found their interface. -/
  checked : List IngressPacket
  /-- The calls that have returned, and what they returned. -/
  returned : List (IngressPacket × Except NetstackError Unit)
  /-- The packets that `VirtualDevice::receive` has handed to the engine. -/
  handed : List IngressPacket

namespace Pipeline

/-- The stack as `build` starts it. -/
def init (b : NetstackBuilder S) : Pipeline S := ⟨.init b, [], [], []⟩

/-- A step of a call or of another task. -/
inductive Act (S : Smoltcp) where
  /-- A call looks up the interface. -/
  | check (pkt : IngressPacket)
  /-- A call offers its packet to the channel. -/
  | trySend (pkt : IngressPacket)
  /-- A step of the runner or of another task. -/
  | task (a : WayNetstack.Act S)

/-- The calls are steps of their own, and borrow the handle. -/
def allows (s : Pipeline S) : WayNetstack.Act S → Bool
  | .sendIp _ => false
  | .dropHandle => s.checked.isEmpty
  | _ => true

/-- What a step does, if it can be taken. -/
def step (s : Pipeline S) : Act S → Option (Pipeline S)
  | .check pkt =>
    if s.runtime.handle = false then none
    else if (s.runtime.world.core.slot pkt.interface).isNone then
      some { s with returned := s.returned ++ [(pkt, .error (.interfaceNotFound pkt.interface))] }
    else some { s with checked := pkt :: s.checked }
  | .trySend pkt =>
    if pkt ∈ s.checked then
      some { s with
        runtime := (s.runtime.trySend pkt).1
        checked := s.checked.erase pkt
        returned := s.returned ++ [(pkt, (s.runtime.trySend pkt).2)] }
    else none
  | .task a =>
    if s.allows a then
      (s.runtime.step a).map fun r => { s with runtime := r, handed := s.handed ++ s.runtime.hands a }
    else none

/-- The pipeline as a labelled system. -/
def Steps : System (Pipeline S) (Act S) := fun s a t => s.step a = some t

/-- What runs of the pipeline reach. -/
def Reachable (b : NetstackBuilder S) (s : Pipeline S) : Prop := Steps.Reaches (init b) s

/-- The packets for which `send_ip_packet` has returned `Ok`, in order. -/
def accepted (returned : List (IngressPacket × Except NetstackError Unit)) : List IngressPacket :=
  returned.filterMap fun call => call.2.toOption.map fun _ => call.1

@[simp] theorem accepted_refused (returned : List (IngressPacket × Except NetstackError Unit))
    (pkt : IngressPacket) (e : NetstackError) :
    accepted (returned ++ [(pkt, .error e)]) = accepted returned := by
  unfold accepted
  rw [List.filterMap_append]
  exact List.append_nil _

@[simp] theorem accepted_sent (returned : List (IngressPacket × Except NetstackError Unit))
    (pkt : IngressPacket) : accepted (returned ++ [(pkt, .ok ())]) = accepted returned ++ [pkt] :=
  List.filterMap_append

/-- What a step did. -/
inductive Turn (s : Pipeline S) : Act S → Pipeline S → Prop
  | unknown {pkt : IngressPacket} {e : NetstackError} :
    Turn s (.check pkt) { s with returned := s.returned ++ [(pkt, .error e)] }
  | checked {pkt : IngressPacket} (hh : s.runtime.handle = true)
    (hpkt : pkt.interface ∈ s.runtime.world.core.ids) :
    Turn s (.check pkt) { s with checked := pkt :: s.checked }
  | refused {pkt : IngressPacket} {e : NetstackError} (hpkt : pkt ∈ s.checked) :
    Turn s (.trySend pkt) { s with
      checked := s.checked.erase pkt, returned := s.returned ++ [(pkt, .error e)] }
  | sent {pkt : IngressPacket} (hpkt : pkt ∈ s.checked) (hsend : (s.runtime.trySend pkt).1 =
      { s.runtime with channel := s.runtime.channel ++ [pkt], calls := s.runtime.calls + 1 }) :
    Turn s (.trySend pkt) { s with
      runtime := { s.runtime with channel := s.runtime.channel ++ [pkt], calls := s.runtime.calls + 1 }
      checked := s.checked.erase pkt
      returned := s.returned ++ [(pkt, .ok ())] }
  | task {a : WayNetstack.Act S} {r : Runtime S} (ha : s.allows a = true) (hr : s.runtime.step a = some r) :
    Turn s (.task a) { s with runtime := r, handed := s.handed ++ s.runtime.hands a }

variable {s t : Pipeline S} {a : Act S} {b : NetstackBuilder S}

theorem turn_of_step (h : s.step a = some t) : s.Turn a t := by
  cases a with
  | check pkt =>
    simp only [step] at h
    split at h
    · cases h
    next hh =>
    split at h
    · cases h
      exact .unknown
    · next hslot =>
      cases h
      refine .checked (by simpa using hh) (Core.exists_slot.mp ?_)
      rw [Option.isNone_iff_eq_none] at hslot
      exact Option.ne_none_iff_exists'.mp hslot
  | trySend pkt =>
    simp only [step] at h
    split at h
    · next hpkt =>
      rcases s.runtime.trySend_cases pkt with ⟨e, he⟩ | hok
      · rw [he] at h
        cases h
        exact .refused hpkt
      · rw [hok] at h
        cases h
        exact .sent hpkt (by rw [hok])
    · cases h
  | task a =>
    simp only [step] at h
    split at h
    · next ha =>
      obtain ⟨r, hr, rfl⟩ := Option.map_eq_some_iff.mp h
      exact .task ha hr
    · cases h

/-- What holds of a pipeline in every run. -/
structure Inv (b : NetstackBuilder S) (s : Pipeline S) : Prop where
  runtime : Runtime.Reachable b s.runtime
  /-- A call in progress keeps the handle alive. -/
  borrowed : s.checked ≠ [] → s.runtime.handle = true
  /-- The packets on their way are for interfaces of the stack. -/
  checked : ∀ pkt ∈ s.checked, pkt.interface ∈ s.runtime.world.core.ids
  channel : ∀ pkt ∈ s.runtime.channel, pkt.interface ∈ s.runtime.world.core.ids
  /-- Nothing is lost. -/
  total : ∀ i, packetsOn i s.handed ++ s.runtime.queued i = packetsOn i (accepted s.returned)

theorem init_inv (b : NetstackBuilder S) : (init b).Inv b := by
  refine ⟨System.Reaches.refl _ _, fun h => absurd rfl h, fun _ h => absurd h List.not_mem_nil,
    fun _ h => absurd h List.not_mem_nil, fun i => ?_⟩
  show (World.init b).core.waiting i ++ [] = []
  rw [List.append_nil]
  unfold Core.waiting
  cases hs : (World.init b).core.slot i with
  | none => rfl
  | some slot =>
    obtain ⟨x, -, rfl⟩ := List.mem_map.mp (Core.mem_of_slot hs)
    rfl

/-- The second step of a call is the whole call. -/
theorem Inv.sendIp (hi : s.Inv b) {pkt : IngressPacket} (hpkt : pkt ∈ s.checked) :
    s.runtime.step (.sendIp pkt) = some (s.runtime.trySend pkt).1 := by
  obtain ⟨slot, hs⟩ := Core.exists_slot.mpr (hi.checked pkt hpkt)
  have hh := hi.borrowed (List.ne_nil_of_mem hpkt)
  simp [Runtime.step, hh, Runtime.sendIpPacket_eq, hs]

theorem Inv.step (hS : S.Lawful) (hi : s.Inv b) (h : s.Turn a t) : t.Inv b := by
  cases h with
  | unknown =>
    refine ⟨hi.runtime, hi.borrowed, hi.checked, hi.channel, fun i => ?_⟩
    rw [accepted_refused]
    exact hi.total i
  | checked hh hpkt =>
    exact ⟨hi.runtime, fun _ => hh, List.forall_mem_cons.mpr ⟨hpkt, hi.checked⟩, hi.channel, hi.total⟩
  | refused hpkt =>
    refine ⟨hi.runtime, fun _ => hi.borrowed (List.ne_nil_of_mem hpkt),
      fun q hq => hi.checked q (List.mem_of_mem_erase hq), hi.channel, fun i => ?_⟩
    rw [accepted_refused]
    exact hi.total i
  | @sent pkt hpkt hsend =>
    have hstep := hi.sendIp hpkt
    rw [hsend] at hstep
    refine ⟨hi.runtime.step (l := .sendIp pkt) hstep, fun _ => hi.borrowed (List.ne_nil_of_mem hpkt),
      fun q hq => hi.checked q (List.mem_of_mem_erase hq), ?_, fun i => ?_⟩
    · exact List.forall_mem_append.mpr ⟨hi.channel, by simpa using hi.checked pkt hpkt⟩
    · show packetsOn i s.handed ++
        (s.runtime.world.core.waiting i ++ packetsOn i (s.runtime.channel ++ [pkt])) = _
      rw [accepted_sent, packetsOn_append, packetsOn_append, ← hi.total i, Runtime.queued]
      simp only [List.append_assoc]
  | @task a r ha hr =>
    have hturn := Runtime.turn_of_step hr
    have hw : s.runtime.world.Inv False b := World.Reachable.inv hS False.elim hi.runtime.anyRun
    have hids : r.world.core.ids = s.runtime.world.core.ids := hturn.ids hS hw
    have hsend : ∀ pkt, a ≠ .sendIp pkt := by
      rintro pkt rfl
      cases ha
    refine ⟨hi.runtime.step hr, fun hne => ?_, fun pkt hpkt => hids ▸ hi.checked pkt hpkt,
      fun pkt hpkt => hids ▸ hi.channel pkt (hturn.channel hsend hpkt), fun i => ?_⟩
    · have hdrop : a ≠ .dropHandle := by
        rintro rfl
        exact hne (List.isEmpty_iff.mp ha)
      exact (hturn.handle hdrop).trans (hi.borrowed hne)
    · rw [packetsOn_append, List.append_assoc, hturn.queued hS hw hi.channel hsend]
      exact hi.total i

theorem Reachable.inv (hS : S.Lawful) (h : Reachable b s) : s.Inv b :=
  System.Reaches.invariant h (init_inv b) fun _ _ _ _ hi hstep => hi.step hS (turn_of_step hstep)

/-- **The two steps of a call do what it does at once**: the runtime goes through a run with
calls made in one step. -/
theorem Reachable.runtime (hS : S.Lawful) (h : Reachable b s) : Runtime.Reachable b s.runtime :=
  (h.inv hS).runtime

end Pipeline

/-- **Packets are conserved.** In every state that a run reaches, for every interface: the
packets its device has handed to the engine, followed by those waiting in the device and
those in the channel for it, are the packets that `send_ip_packet` has accepted for it. This
holds also in the middle of a cycle, after any events `es` of the engine's poll. -/
theorem ingress_conserved (hS : S.Lawful) {b : NetstackBuilder S} {s : Pipeline S}
    (h : Pipeline.Reachable b s) (i : InterfaceId) :
    packetsOn i s.handed ++ s.runtime.world.core.waiting i ++ packetsOn i s.runtime.channel =
        packetsOn i (Pipeline.accepted s.returned) ∧
      ∀ now st slot es, (prePass s.runtime.world.core now).result = .ok st → st.1.slot i = some slot →
        packetsOn i s.handed ++ slot.received es ++ (slot.poll es).device.ingress ++
          packetsOn i s.runtime.channel = packetsOn i (Pipeline.accepted s.returned) := by
  have hi := h.inv hS
  have htotal : packetsOn i s.handed ++ s.runtime.world.core.waiting i ++ packetsOn i s.runtime.channel =
      packetsOn i (Pipeline.accepted s.returned) := by
    rw [List.append_assoc]
    exact hi.total i
  refine ⟨htotal, fun now st slot es hst hs => ?_⟩
  have hw : s.runtime.world.Inv False b := World.Reachable.inv hS False.elim hi.runtime.anyRun
  have hok : Ok (Call.Good False) (prePass s.runtime.world.core now) _ := prePass_ok hw.registered
  have hwait : slot.device.ingress = s.runtime.world.core.waiting i := by
    rw [← Core.waiting_of_feeds (hok.post hst).2, Core.waiting, hs]
    rfl
  rw [List.append_assoc (packetsOn i s.handed), InterfaceSlot.received_poll, hwait]
  exact htotal

/-- A pipeline found by computing a run. -/
theorem Pipeline.exists_of_run (b : NetstackBuilder S) (acts : List (Pipeline.Act S)) (check : Pipeline S → Bool)
    (h : (System.compute step (fun _ _ _ u => u) (fun _ _ => True) (init b, ()) acts).any
      (fun s => check s.1) = true) : ∃ s, Reachable b s ∧ check s = true :=
  System.exists_of_compute_free (fun h => h) h

open Reference in
/-- Two callers use two interfaces, and a third one that does not exist; of three packets
one is with the engine, one in the device and one in the channel. -/
theorem ingress_conserved_pair : ∃ s : Pipeline reference, Pipeline.Reachable pair s ∧
    packetsOn wlan s.handed = [[9]] ∧ packetsOn eth s.handed = [[1]] ∧
    s.runtime.world.core.waiting eth = [[2]] ∧ packetsOn eth s.runtime.channel = [[3]] ∧
    s.returned.length = 5 ∧ packetsOn eth (Pipeline.accepted s.returned) = [[1], [2], [3]] := by
  obtain ⟨s, hs, hcheck⟩ := Pipeline.exists_of_run pair
    [.check ⟨eth, [1]⟩, .check ⟨wlan, [9]⟩, .trySend ⟨wlan, [9]⟩, .trySend ⟨eth, [1]⟩,
      .check ⟨eth, [2]⟩, .task (.delay 0), .trySend ⟨eth, [2]⟩, .check ⟨⟨7⟩, [5]⟩,
      .task .park, .task .recv, .task .drain, .task .drain, .task .drained, .check ⟨eth, [3]⟩,
      .task (.cycle 0 fun _ => [.receive none]), .trySend ⟨eth, [3]⟩]
    (fun s => decide (packetsOn wlan s.handed = [[9]] ∧ packetsOn eth s.handed = [[1]] ∧
      s.runtime.world.core.waiting eth = [[2]] ∧ packetsOn eth s.runtime.channel = [[3]] ∧
      s.returned.length = 5)) (by decide +kernel)
  obtain ⟨hwlan, heth, hwait, hchannel, hreturned⟩ := of_decide_eq_true hcheck
  have htotal := (ingress_conserved reference_lawful hs eth).1
  rw [heth, hwait, hchannel] at htotal
  exact ⟨s, hs, hwlan, heth, hwait, hchannel, hreturned, htotal.symm⟩

end WayNetstack

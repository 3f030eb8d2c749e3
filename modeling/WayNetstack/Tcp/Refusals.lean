import WayNetstack.Tcp.Pool
import WayNetstack.Runner.Fragments

/-!
# SYNs that are refused

The pre-pass refuses the SYN of a new flow when the table of connections is full or the budget is
spent: it makes no entry and no socket for it. It then puts the packet back into the queue with all
the others, so that the poll takes it from the device a moment later. The engine hands a SYN to the
first socket that accepts it, which may be one listening for another client of the destination, and
answers it with a reset if there is none.

**`refused_syn_dropped_iff`**: whatever the core and the queues, a SYN that is refused and that is a
whole packet is left without an answer just when the engine makes no segment of the packet at all,
say because of its checksum. A SYN in good order is answered (`refused_syn_answered`).

The first fragment of a SYN also reads as a SYN, and the engine may answer it when the last one has
come. Nothing is said about that here.
-/

namespace WayNetstack

open Lib Lib.Table Lib.Traced SessionManager Relation

variable {S : Smoltcp}

/-! ### What a poll makes of a SYN -/

/-- If the engine's ingress makes a segment of what `parse_l4` takes for a SYN, then it is that SYN:
they differ in the checksums only. -/
structure Smoltcp.Segments (S : Smoltcp) : Prop where
  segment_parse : ∀ {pkt seg src dst}, S.segment pkt = some seg →
    parseL4 S pkt = some (src, dst, .tcp true) → seg.src = src ∧ seg.dst = dst ∧ seg.control = .syn

/-- The packet is a reset from `dst` to `src`. -/
def Smoltcp.rejects (S : Smoltcp) (src dst : IpEndpoint) (data : Bytes) : Bool :=
  (S.segment data).any fun seg => decide (seg.control = .rst ∧ seg.src = dst ∧ seg.dst = src)

namespace PollEvent

/-- The TCP socket that takes what is in a packet. -/
def heardBy (taken : Option (SocketHandle × S.Socket)) : Option SocketHandle :=
  taken.bind fun x => x.2.tcp?.map fun _ => x.1

/-- What follows begins with a reset from `dst` to `src`. -/
def resets (src dst : IpEndpoint) : List (PollEvent S) → Bool
  | .transmit data :: _ => S.rejects src dst data
  | _ => false

/-- The events of a poll from the one that takes the packet at place `n` of the queue: the socket
that takes what is in it, and the events after that. -/
def receipt : List (PollEvent S) → ℕ → Option (Option (SocketHandle × S.Socket) × List (PollEvent S))
  | [], _ => none
  | .receive taken :: es, 0 => some (taken, es)
  | .receive _ :: es, n + 1 => receipt es n
  | .egress _ _ :: es, n | .transmit _ :: es, n | .internal _ :: es, n => receipt es n

/-- The SYN from `src` to `dst` at place `n` of the queue, a whole packet, is answered in the poll: a
TCP socket takes it, or a reset is sent for it at once. -/
def answered (es : List (PollEvent S)) (n : ℕ) (src dst : IpEndpoint) : Bool :=
  (receipt es n).any fun x => (heardBy x.1).isSome || resets src dst x.2

end PollEvent

open PollEvent

namespace InterfaceSlot

/-- What the engine does with the packet `pkt`, which it has just taken from the device: a SYN is
heard by the first socket that accepts it and answered with a reset if there is none; a whole packet
that it makes no segment of is heard by no TCP socket and answered by no reset. -/
def RespondsTo (slot : InterfaceSlot S) (taken : Option (SocketHandle × S.Socket)) (rest : List (PollEvent S))
    (pkt : Bytes) : Prop :=
  (∀ seg ∈ S.segment pkt, seg.control = .syn → heardBy taken = slot.acceptor seg ∧
    (slot.acceptor seg = none → resets seg.src seg.dst rest = true)) ∧
  (S.segment pkt = none → ¬IsFragment pkt → heardBy taken = none ∧
    ∀ x ∈ parseL4 S pkt, resets x.1 x.2.1 rest = false)

instance (slot : InterfaceSlot S) (taken : Option (SocketHandle × S.Socket)) (rest : List (PollEvent S))
    (pkt : Bytes) : Decidable (slot.RespondsTo taken rest pkt) := inferInstanceAs (Decidable (_ ∧ _))

/-- Every packet that a poll takes from the device is responded to. -/
def Responds : InterfaceSlot S → List (PollEvent S) → Prop
  | _, [] => True
  | slot, .receive taken :: rest =>
    (∀ pkt ∈ slot.device.ingress.head?, slot.RespondsTo taken rest pkt) ∧
      Responds (slot.apply (.receive taken)) rest
  | slot, .egress h s :: rest => Responds (slot.apply (.egress h s)) rest
  | slot, .transmit data :: rest => Responds (slot.apply (.transmit data)) rest
  | slot, .internal iface :: rest => Responds (slot.apply (.internal iface)) rest

instance : ∀ (slot : InterfaceSlot S) (es : List (PollEvent S)), Decidable (slot.Responds es)
  | _, [] => inferInstanceAs (Decidable True)
  | slot, .receive taken :: rest =>
    have : Decidable (Responds (slot.apply (.receive taken)) rest) := instDecidableResponds _ _
    inferInstanceAs (Decidable (_ ∧ _))
  | slot, .egress h s :: rest => instDecidableResponds (slot.apply (.egress h s)) rest
  | slot, .transmit data :: rest => instDecidableResponds (slot.apply (.transmit data)) rest
  | slot, .internal iface :: rest => instDecidableResponds (slot.apply (.internal iface)) rest

variable {slot : InterfaceSlot S} {n : ℕ} {pkt : Bytes} {es : List (PollEvent S)}

/-- A receipt takes the oldest packet from the queue. -/
theorem ingress_receive (slot : InterfaceSlot S) (taken : Option (SocketHandle × S.Socket)) :
    (slot.apply (.receive taken)).device.ingress = slot.device.ingress.tail := by
  cases taken with
  | none => rfl
  | some x => exact congrArg VirtualDevice.ingress (ingress_swapSocket slot.popIngress x.1 x.2)

/-- Other events leave the queue alone. -/
theorem ingress_other (slot : InterfaceSlot S) {e : PollEvent S} (he : slot.hands e = []) :
    (slot.apply e).device.ingress = slot.device.ingress := by
  rw [← hands_apply slot e, he, List.nil_append]

/-- A poll that empties the queue takes every packet of it. -/
theorem exists_receipt (hpkt : slot.device.ingress[n]? = some pkt) (hdrain : (slot.poll es).device.ingress = []) :
    ∃ x, receipt es n = some x := by
  induction es generalizing slot n with
  | nil =>
    rw [show slot.device.ingress = [] from hdrain] at hpkt
    cases hpkt
  | cons e es ih =>
    rw [poll_cons] at hdrain
    cases e with
    | receive taken =>
      cases n with
      | zero => exact ⟨_, rfl⟩
      | succ n => exact ih (by rw [ingress_receive, List.getElem?_tail]; exact hpkt) hdrain
    | egress | transmit | internal => exact ih (by rw [ingress_other slot rfl]; exact hpkt) hdrain

/-- A packet that a poll takes is responded to. -/
theorem Responds.receipt (h : slot.Responds es) (hpkt : slot.device.ingress[n]? = some pkt)
    {x : Option (SocketHandle × S.Socket) × List (PollEvent S)} (hx : receipt es n = some x) :
    ∃ slot' : InterfaceSlot S, slot'.RespondsTo x.1 x.2 pkt := by
  induction es generalizing slot n with
  | nil => cases hx
  | cons e es ih =>
    cases e with
    | receive taken =>
      cases n with
      | zero =>
        cases hx
        exact ⟨slot, h.1 pkt (by rw [List.head?_eq_getElem?]; exact hpkt)⟩
      | succ n => exact ih h.2 (by rw [ingress_receive, List.getElem?_tail]; exact hpkt) hx
    | egress | transmit | internal => exact ih h (by rw [ingress_other slot rfl]; exact hpkt) hx

end InterfaceSlot

/-! ### Refusals -/

/-- A limit stands against a new TCP flow: `c` has no entry for it, and no room or no budget. -/
def Core.Refuses (c : Core S) (slot : InterfaceSlot S) (src dst : IpEndpoint) : Prop :=
  c.manager.tcp.lookup ⟨slot.id, .tcp, src, dst⟩ = none ∧
    (c.config.tcpMaxConnections ≤ len c.manager.tcp ∨ ¬c.Affords (2 * slot.tcpBufferSize))

section Refusals

variable {c : Core S} {now : Instant} {i n : ℕ} {pkt : Bytes} {st st' r : Core S × List Session}
  {slot : InterfaceSlot S} {src dst : IpEndpoint}

/-- A refused packet is settled. -/
theorem Core.Refuses.settled (h : c.Refuses slot src dst) (hparse : parseL4 S pkt = some (src, dst, .tcp true)) :
    c.Settled slot pkt := by
  unfold Core.Settled
  simp only [hparse]
  exact .inr h.2

/-- **What is refused stays refused** for the rest of the pre-pass: neither room nor budget comes back. -/
theorem Admit.refuses {queued : InterfaceId → Bytes → Prop} (hstep : Admit now queued st st')
    (hd : ∀ slot', st.1.slot slot.id = some slot' → slot'.dims = slot.dims) (h : st.1.Refuses slot src dst) :
    st'.1.Refuses slot src dst := by
  have hg := hstep.grows
  refine ⟨?_, ?_⟩
  · cases hstep with
    | device | spoil | leak | udpNew | udpJoin => exact h.1
    | @tcp c acc slot₁ key pkt t hs hid hq hp new room ha =>
      show (c.manager.tcp.insert key _).lookup _ = none
      rw [lookup_insert']
      split
      · next heq =>
        -- the entry opened would be that of the flow, which there is no room or no budget for
        have hslot : slot.id = slot₁.id := (congrArg SessionKey.interface heq).trans hid
        have hsize : slot₁.tcpBufferSize = slot.tcpBufferSize := congrArg (fun d => d.2.2) (hd slot₁ (hslot ▸ hs))
        rw [hsize] at ha
        rcases h.2 with hcap | hbudget
        · exact absurd room (Nat.not_lt.mpr hcap)
        · exact absurd ha hbudget
      · exact h.1
  · rw [hg.config]
    rcases h.2 with hcap | hbudget
    · exact .inl (hcap.trans hg.tcpLen)
    · exact .inr (hg.not_affords hbudget)

theorem Admits.refuses (hn : st.1.ids.Nodup) (hi : st.1.slots[i]? = some slot) (hrun : AdmitRun now st st')
    (h : st.1.Refuses slot src dst) : st'.1.Refuses slot src dst := by
  refine (run_keeps (P := fun x : Core S × List Session => AdmitRun now st x ∧ x.1.Refuses slot src dst) ?_ hrun
    ⟨.refl, h⟩).2
  rintro x y hstep ⟨hx, href⟩
  exact ⟨hx.tail hstep, hstep.refuses (fun slot' hs' => Admits.dims_slot hx hn hi hs') href⟩

/-- **A flow that is refused has no entry when the pre-pass ends.** -/
theorem Core.ComesTo.refused (h : c.ComesTo now i n pkt st) (hn : c.ids.Nodup)
    (hi : st.1.slots[i]? = some slot) (hparse : parseL4 S pkt = some (src, dst, .tcp true))
    (href : st.1.Refuses slot src dst) (hr : (prePass c now).result = .ok r) :
    r.1.manager.tcp.lookup ⟨slot.id, .tcp, src, dst⟩ = none := by
  obtain ⟨st', hst', hrest⟩ := h.goes_on hn hr
  have hvisit : (admitPacket i now st pkt).result = .ok st :=
    congrArg Traced.result (admitPacket_settled hi (href.settled hparse) st.2)
  cases hvisit.symm.trans hst'
  exact (Admits.refuses (Admits.nodup (h.admits hn) hn) hi hrest href).1

/-- The packets of a slot are in its queue again when the pre-pass ends. -/
theorem Core.ComesTo.requeued (h : c.ComesTo now i n pkt st) (hn : c.ids.Nodup)
    (hr : (prePass c now).result = .ok r) {slot' : InterfaceSlot S} (hi' : r.1.slots[i]? = some slot') :
    slot'.device.ingress[n]? = some pkt := by
  obtain ⟨before, hbefore, hpkt, -⟩ := h
  have hb : Ok (Call.Good True) ((List.range i).foldlM (prePassSlot now) (c, [])) (Admitted now c) :=
    prePassSlots_ok hn _
  have ha : Ok (Call.Good True) (prePass c now) (Admitted now c) := prePassSlots_ok hn _
  have hfeeds : before.1.feeds[i]? = r.1.feeds[i]? := by rw [(hb.post hbefore).feeds, (ha.post hr).feeds]
  cases hi : before.1.slots[i]? with
  | none => simp [Core.ingress, hi] at hpkt
  | some slot =>
    rw [getElem?_feeds hi, getElem?_feeds hi', Option.some.injEq, Prod.mk.injEq] at hfeeds
    rw [ingress_of_slot hi] at hpkt
    rw [← hfeeds.2]
    exact hpkt

/-- **When a refused SYN is dropped.** For every core with distinct interfaces and every contents of
the queues: let the pre-pass come to a SYN of a new flow, in a whole packet, while the table is full
or the budget spent. Then the flow has no entry when the pre-pass ends, and in the following poll,
which responds to every packet and empties the queue, the SYN is left without an answer — no TCP
socket takes it and no reset is sent for it — just when the engine makes no segment of the packet. -/
theorem refused_syn_dropped_iff (hG : S.Segments) (hn : c.ids.Nodup) (h : c.ComesTo now i n pkt st)
    (hi : st.1.slots[i]? = some slot) (hparse : parseL4 S pkt = some (src, dst, .tcp true))
    (hwhole : ¬IsFragment pkt) (href : st.1.Refuses slot src dst) (hr : (prePass c now).result = .ok r)
    {slot' : InterfaceSlot S} (hi' : r.1.slots[i]? = some slot') {es : List (PollEvent S)}
    (hlaw : slot'.Responds es) (hdrain : (slot'.poll es).device.ingress = []) :
    r.1.manager.tcp.lookup ⟨slot.id, .tcp, src, dst⟩ = none ∧
      (answered es n src dst = false ↔ S.segment pkt = none) := by
  refine ⟨h.refused hn hi hparse href hr, ?_⟩
  have hpkt := h.requeued hn hr hi'
  obtain ⟨x, hx⟩ := InterfaceSlot.exists_receipt hpkt hdrain
  obtain ⟨slot₁, hsyn, hnone⟩ := hlaw.receipt hpkt hx
  have hanswer : answered es n src dst = ((heardBy x.1).isSome || resets src dst x.2) := by
    unfold answered
    rw [hx]
    rfl
  rw [hanswer]
  cases hseg : S.segment pkt with
  | none =>
    -- no socket hears it and nothing is sent
    obtain ⟨hheard, hreset⟩ := hnone hseg hwhole
    have hreset : resets src dst x.2 = false := hreset _ hparse
    simp [hheard, hreset]
  | some seg =>
    obtain ⟨rfl, rfl, hcontrol⟩ := hG.segment_parse hseg hparse
    obtain ⟨hheard, hreset⟩ := hsyn seg hseg hcontrol
    rw [hheard]
    cases hacc : slot₁.acceptor seg with
    | none => simp [hreset hacc]
    | some hd => simp

end Refusals

namespace Reference

/-- What parses with its checksums verified parses without. -/
theorem ipv4Parse_ignored {b : Bytes} {ip : IpRepr} (h : ipv4Parse b .default = some ip) :
    b.getD 0 0 >>> 4 = 4 ∧ ipv4Parse b .ignored = some ip := by
  unfold ipv4Parse at h ⊢
  split at h
  · next hok =>
    refine ⟨hok.1, ?_⟩
    rw [if_pos ⟨hok.1, hok.2.1, nofun⟩]
    exact h
  · cases h

theorem tcpParse_ignored {b : Bytes} {src dst : IpAddress} {repr : TcpRepr}
    (h : tcpParse b src dst .default = some repr) : tcpParse b src dst .ignored = some repr := by
  unfold tcpParse at h ⊢
  split at h
  · next hok =>
    rw [if_pos ⟨hok.1, hok.2.1, nofun⟩]
    exact h
  · cases h

/-- What the engine makes a segment of, `parse_l4` reads as that segment. -/
theorem parseL4_of_segment {b : Bytes} {seg : Segment} (h : segment b = some seg) :
    parseL4 reference b =
      some (seg.src, seg.dst, .tcp (decide (seg.control = .syn) && !seg.ack)) := by
  unfold segment at h
  rw [Option.ite_none_right_eq_some] at h
  obtain ⟨hlen, h⟩ := h
  obtain ⟨ip, hip, h⟩ := Option.bind_eq_some_iff.mp h
  rw [Option.ite_none_right_eq_some] at h
  obtain ⟨⟨hnext, hcheck⟩, h⟩ := h
  obtain ⟨repr, hrepr, rfl⟩ := Option.map_eq_some_iff.mp h
  obtain ⟨hversion, hip⟩ := ipv4Parse_ignored hip
  cases b with
  | nil => cases hversion
  | cons first rest =>
    have hdispatch : dispatchL4 reference ip.srcAddr ip.dstAddr ip.nextHeader (ipv4Payload (first :: rest))
        .ignored = some (⟨ip.srcAddr, repr.srcPort⟩, ⟨ip.dstAddr, repr.dstPort⟩,
          .tcp (decide (repr.control = .syn) && repr.ackNumber.isNone)) := by
      rw [hnext]
      show (if tcpNewChecked _ = true then (tcpParse _ _ _ .ignored).map _ else none) = _
      rw [if_pos hcheck, tcpParse_ignored hrepr]
      rfl
    have hnone : repr.ackNumber.isNone = !repr.ackNumber.isSome := by cases repr.ackNumber <;> rfl
    have hversion : first >>> 4 = 4 := hversion
    show (if first >>> 4 = 4 then if ipv4NewChecked (first :: rest) = true then
      (ipv4Parse (first :: rest) .ignored).bind _ else none else _) = _
    rw [if_pos hversion, if_pos hlen.1, hip]
    refine hdispatch.trans ?_
    rw [hnone]

theorem reference_segments : reference.Segments where
  segment_parse := by
    intro pkt seg src dst hseg hparse
    rw [parseL4_of_segment hseg, Option.some.injEq, Prod.mk.injEq, Prod.mk.injEq, L4.tcp.injEq,
      Bool.and_eq_true, decide_eq_true_eq] at hparse
    exact ⟨hparse.1, hparse.2.1, hparse.2.2.1⟩

/-- A stack with room for one connection. -/
def oneConnection : NetstackBuilder reference := trial { NetstackConfig.default with tcpMaxConnections := 1 }

/-- The packet is first in the queue of the first slot, where it is refused for want of room, and the
poll `es` keeps the laws and empties the queue. -/
def refusedFirst (c : Core reference) (now : Instant) (pkt : Bytes) (src dst : IpEndpoint)
    (es : List (PollEvent reference)) : Bool :=
  (c.slots[0]?).any fun slot => (prePass c now).result.toOption.any fun r => (r.1.slots[0]?).any fun slot' =>
    decide (slot.device.ingress.head? = some pkt ∧ parseL4 reference pkt = some (src, dst, .tcp true) ∧
      c.manager.tcp.lookup ⟨slot.id, .tcp, src, dst⟩ = none ∧
      c.config.tcpMaxConnections ≤ len c.manager.tcp ∧ slot'.Responds es ∧ (slot'.poll es).device.ingress = [])

/-- The first packet of the first slot, as the pre-pass finds it. -/
theorem exists_refused {c : Core reference} {now : Instant} {pkt : Bytes} {src dst : IpEndpoint}
    {es : List (PollEvent reference)} (h : refusedFirst c now pkt src dst es = true) :
    ∃ st slot r slot', c.ComesTo now 0 0 pkt st ∧ st.1.slots[0]? = some slot ∧
      parseL4 reference pkt = some (src, dst, .tcp true) ∧ st.1.Refuses slot src dst ∧
      (prePass c now).result = .ok r ∧ r.1.slots[0]? = some slot' ∧ slot'.Responds es ∧
      (slot'.poll es).device.ingress = [] := by
  obtain ⟨slot, hi, h⟩ := (Option.any_eq_true _ _).mp h
  obtain ⟨r, hr, h⟩ := (Option.any_eq_true _ _).mp h
  obtain ⟨slot', hi', h⟩ := (Option.any_eq_true _ _).mp h
  obtain ⟨hhead, hparse, hnew, hroom, hlaw, hdrain⟩ := of_decide_eq_true h
  have hlt := (List.getElem?_eq_some_iff.mp hi).1
  have hempty : (c.setIngress 0 fun _ => []).slots[0]? =
      some { slot with device := { slot.device with ingress := [] } } := by
    simp only [Core.setIngress, hi, Core.setSlotAt, List.getElem?_set_self hlt]
  have hset : (c.setIngress 0 fun _ => []).Refuses { slot with device := { slot.device with ingress := [] } }
      src dst := by
    simp only [Core.setIngress, hi]
    exact ⟨hnew, .inl hroom⟩
  refine ⟨(c.setIngress 0 fun _ => [], []), _, r, slot', ⟨(c, []), rfl, ?_, rfl⟩, hempty, hparse, hset,
    toOption_eq_some.mp hr, hi', hlaw, hdrain⟩
  show (c.ingress 0)[0]? = some pkt
  rw [ingress_of_slot hi, ← List.head?_eq_getElem?]
  exact hhead

end Reference

open Reference in
/-- The connection of a client is being made; the SYN of another one, with a bad checksum, is
refused for want of room and dropped. -/
theorem refused_syn_dropped_spoilt : ∃ w : World reference, World.AnyRun oneConnection w ∧
    refusedFirst w.core 1 (tcpPacket client₂ server syn true) client₂ server [.receive none] = true ∧
    ∃ r, (prePass w.core 1).result = .ok r ∧
      r.1.manager.tcp.lookup ⟨eth, .tcp, client₂, server⟩ = none ∧
      answered ([.receive none] : List (PollEvent reference)) 0 client₂ server = false := by
  obtain ⟨w, hw, hcheck⟩ := World.exists_of_run (fun _ _ => True) oneConnection
    [fromClient client syn, cycle 0 [takes 0 (connected 16384 client .synReceived)],
      .ingress ⟨eth, tcpPacket client₂ server syn true⟩]
    (fun w => refusedFirst w.core 1 (tcpPacket client₂ server syn true) client₂ server [.receive none] &&
      decide (w.core.ids = [eth])) (by decide +kernel)
  rw [Bool.and_eq_true, decide_eq_true_eq] at hcheck
  obtain ⟨hcheck, hids⟩ := hcheck
  obtain ⟨st, slot, r, slot', hcomes, hi, hparse, href, hr, hi', hlaw, hdrain⟩ := exists_refused hcheck
  have hn : w.core.ids.Nodup := by rw [hids]; decide
  obtain ⟨hnone, hiff⟩ := refused_syn_dropped_iff reference_segments hn hcomes hi hparse (by decide +kernel)
    href hr hi' hlaw hdrain
  have hid : slot.id = eth := by
    have hmem : slot.id ∈ st.1.ids := List.mem_map_of_mem (List.mem_of_getElem? hi)
    rw [(Admits.grows (hcomes.admits hn)).ids, hids] at hmem
    exact List.mem_singleton.mp hmem
  exact ⟨w, hw, hcheck, r, hr, hid ▸ hnone, hiff.mpr (by decide +kernel)⟩

open Reference in
/-- **Refused SYNs are answered.** There is room for one connection. First run: a client's connection
is being made, and the SYN of another client, refused, is answered with a reset. Second run: the SYN
of a client has a bad checksum, so that the socket made for it goes on listening; the SYN of another
client, refused, is taken by that socket. -/
theorem refused_syn_answered :
    (∃ w : World reference, World.AnyRun oneConnection w ∧ ∃ es : List (PollEvent reference),
      refusedFirst w.core 1 (tcpPacket client₂ server syn false) client₂ server es = true ∧
      (receipt es 0).any (fun x => resets client₂ server x.2) = true ∧ answered es 0 client₂ server = true) ∧
    (∃ w : World reference, World.AnyRun oneConnection w ∧ ∃ es : List (PollEvent reference),
      refusedFirst w.core 1 (tcpPacket client₂ server syn false) client₂ server es = true ∧
      ((receipt es 0).bind fun x => heardBy x.1) =
        (w.core.manager.tcp.lookup ⟨eth, .tcp, client, server⟩).map (·.handle) ∧
      answered es 0 client₂ server = true) := by
  constructor
  · obtain ⟨w, hw, hcheck⟩ := World.exists_of_run (fun _ _ => True) oneConnection
      [fromClient client syn, cycle 0 [takes 0 (connected 16384 client .synReceived)], fromClient client₂ syn]
      (fun w => refusedFirst w.core 1 (tcpPacket client₂ server syn false) client₂ server
        [.receive none, .transmit (tcpPacket server client₂ rst false)]) (by decide +kernel)
    exact ⟨w, hw, _, hcheck, by decide +kernel, by decide +kernel⟩
  · obtain ⟨w, hw, hcheck⟩ := World.exists_of_run (fun _ _ => True) oneConnection
      [.ingress ⟨eth, tcpPacket client server syn true⟩, cycle 0 [.receive none], fromClient client₂ syn]
      (fun w => refusedFirst w.core 1 (tcpPacket client₂ server syn false) client₂ server
          [takes 0 (connected 16384 client₂ .synReceived)] &&
        decide ((w.core.manager.tcp.lookup ⟨eth, .tcp, client, server⟩).map (·.handle) = some 0))
      (by decide +kernel)
    rw [Bool.and_eq_true, decide_eq_true_eq] at hcheck
    exact ⟨w, hw, _, hcheck.1, hcheck.2.symm, by decide +kernel⟩

end WayNetstack

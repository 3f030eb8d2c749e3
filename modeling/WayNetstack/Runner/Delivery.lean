import WayNetstack.Runner.Channels

/-!
# What arrives at the application

A run of the stack with its channels, watched: what the engine has sent and the application
received, which sessions the cycles have made, and which of them `accept()` has returned
(`Channels.Log`). Main results, over every run:

* `egress_conserved` — the packets arrive as the engine sent them;
* `sessions_delivered_in_order` — the sessions arrive as the cycles made them;
* `undelivered_without_receiver` — which sessions never arrive, the egress receiver being gone.
-/

namespace WayNetstack

open Lib Lib.Traced

variable {S : Smoltcp}

namespace Channels

/-- What has gone through the channels. -/
structure Log where
  /-- The packets that the engine has sent. -/
  sent : List EgressPacket
  /-- The packets that the application has received. -/
  received : List EgressPacket
  /-- The sessions that the cycles have made. -/
  surfaced : List Session
  /-- The sessions that `accept()` has returned. -/
  accepted : List Session
  /-- The sessions dropped on the way. -/
  dropped : List Session
  /-- The sessions made while the egress receiver was alive, or with nothing to send. -/
  due : List Session

/-- Nothing has happened yet. -/
def Log.empty : Log := ⟨[], [], [], [], [], []⟩

/-- What an observer of the channels notes. -/
def Log.note (g : Log) (d : Channels S) : Move S → Log
  | .task a => { g with
      sent := g.sent ++ d.runtime.transmits a
      surfaced := g.surfaced ++ d.runtime.surfaces a
      due := g.due ++ if d.receiver = true ∨ d.runtime.transmits a = [] then d.runtime.surfaces a else [] }
  | .receive => { g with received := g.received ++ d.egress.head?.toList }
  | .accept => { g with accepted := g.accepted ++ d.accept.head?.toList }
  | .discard => { g with dropped := g.dropped ++ d.scratch.head?.toList }
  | .hand => { g with dropped := g.dropped ++ if d.accepting then [] else d.scratch.head?.toList }
  | .drainAccept => { g with dropped := g.dropped ++ d.accept.head?.toList }
  | .dropReceiver | .closeAccept => g

/-- What runs reach, with what was noted on the way. -/
def Watched (b : NetstackBuilder S) (s : Channels S × Log) : Prop :=
  (Steps.observe fun d m _ g => g.note d m).Reaches (init b, .empty) s

variable {d d' : Channels S} {m : Move S} {g : Log} {b : NetstackBuilder S}

/-- What holds of what was noted. -/
structure Log.Inv (d : Channels S) (g : Log) : Prop where
  /-- While the egress receiver lives, sessions are in the scratch buffer only on their way. -/
  handing : d.receiver = true → d.scratch ≠ [] → ∃ egress, d.runtime.phase = .forwarding egress
  sent : d.receiver = true → g.sent = g.received ++ d.egress ++ d.runtime.phase.unsent
  received : g.received <+: g.sent
  kept : d.receiver = true → d.accepting = true → g.dropped = []
  order : (g.accepted ++ d.accept ++ d.scratch).Sublist g.surfaced
  total : g.surfaced.Perm (g.accepted ++ d.accept ++ d.scratch ++ g.dropped)
  due : (g.accepted ++ d.accept).Sublist g.due
  dueScratch : d.receiver = true ∨ d.runtime.phase = .forwarding [] →
    (g.accepted ++ d.accept ++ d.scratch).Sublist g.due

theorem Log.init_inv (b : NetstackBuilder S) : Log.Inv (init b) .empty :=
  ⟨fun _ h => absurd rfl h, fun _ => rfl, List.prefix_refl _, fun _ _ => rfl, .slnil, .nil, .slnil,
    fun _ => .slnil⟩

/-- What is taken out of a list can be put at its end. -/
theorem perm_to_end (before after : List Session) (ses : Session) :
    (before ++ ses :: after).Perm (before ++ after ++ [ses]) :=
  List.perm_middle.trans (List.perm_append_singleton ses _).symm

/-- A session leaves the scratch buffer and is dropped. -/
theorem Log.Inv.discard (hg : g.Inv d) {ses : Session} {rest : List Session} {r : Runtime S}
    (hs : d.scratch = ses :: rest) (hphase : r.phase = d.runtime.phase)
    (hwhy : d.receiver = true → d.accepting = true → False) :
    Log.Inv { d with runtime := r, scratch := rest } { g with dropped := g.dropped ++ [ses] } := by
  have hfewer : (g.accepted ++ d.accept ++ rest).Sublist (g.accepted ++ d.accept ++ d.scratch) := by
    rw [hs]
    exact (List.sublist_cons_self _ _).append_left _
  refine ⟨?_, ?_, hg.received, fun hr ha => (hwhy hr ha).elim, hfewer.trans hg.order, ?_, hg.due, ?_⟩
  · intro hr hne
    exact hphase ▸ hg.handing hr (by simp [hs])
  · intro hr
    exact hphase ▸ hg.sent hr
  · refine hg.total.trans ?_
    have key := perm_to_end (g.accepted ++ d.accept) (rest ++ g.dropped) ses
    rw [hs]
    simpa only [List.append_assoc, List.cons_append] using key
  · intro hcan
    exact hfewer.trans (hg.dueScratch (hphase ▸ hcan))

theorem Log.Inv.task (hS : S.Lawful) (hi : d.Inv b) (hg : g.Inv d) {a : Act S} {r : Runtime S}
    (ha : d.allows a = true) (hr : d.runtime.step a = some r) :
    Log.Inv { d with
        runtime := r
        scratch := d.scratch ++ d.runtime.surfaces a
        egress := d.egress ++ d.runtime.forwards a
        held := d.held.diff a.drops }
      (g.note d (.task a)) := by
  have hturn := Runtime.turn_of_step hr
  have hgone : d.receiver = true → a ≠ .egressGone := by
    rintro hrec rfl
    simp [allows, hrec] at ha
  refine ⟨?_, ?_, ?_, hg.kept, ?_, ?_, ?_, ?_⟩
  · intro hrec hne
    by_cases hsurf : d.runtime.surfaces a = []
    · rw [hsurf, List.append_nil] at hne
      obtain ⟨egress, hp⟩ := hg.handing hrec hne
      refine ⟨_, hturn.forwarding_ends hp ?_ (hgone hrec)⟩
      rintro rfl
      exact hne (List.isEmpty_iff.mp ha)
    · exact ⟨_, hturn.forwarding_of_surfaces hsurf⟩
  · intro hrec
    have key := hturn.unsent hS hi.runtime (hgone hrec)
    show g.sent ++ d.runtime.transmits a = g.received ++ (d.egress ++ d.runtime.forwards a) ++ r.phase.unsent
    rw [hg.sent hrec, List.append_assoc, key]
    simp only [List.append_assoc]
  · exact hg.received.trans (List.prefix_append _ _)
  · show (g.accepted ++ d.accept ++ (d.scratch ++ d.runtime.surfaces a)).Sublist (g.surfaced ++ _)
    rw [← List.append_assoc]
    exact hg.order.append_right _
  · refine (hg.total.append_right _).trans ?_
    show (g.accepted ++ d.accept ++ d.scratch ++ g.dropped ++ d.runtime.surfaces a).Perm
      (g.accepted ++ d.accept ++ (d.scratch ++ d.runtime.surfaces a) ++ g.dropped)
    simp only [List.append_assoc]
    exact ((List.perm_append_comm.append_left _).append_left _).append_left _
  · exact hg.due.trans (List.sublist_append_left _ _)
  · intro hcan
    show (g.accepted ++ d.accept ++ (d.scratch ++ d.runtime.surfaces a)).Sublist (g.due ++ ite _ _ _)
    by_cases hc : ∃ now polls, a = .cycle now polls
    · obtain ⟨now, polls, rfl⟩ := hc
      have hempty : d.scratch = [] := List.isEmpty_iff.mp ha
      have hif : d.receiver = true ∨ d.runtime.transmits (.cycle now polls) = [] := by
        refine hcan.imp_right fun hp => ?_
        have key := hturn.unsent hS hi.runtime (by simp)
        rw [hp] at key
        exact (List.append_eq_nil_iff.mp key).2
      rw [if_pos hif, hempty, List.nil_append]
      exact hg.due.append_right _
    · -- nothing new: the sessions in the scratch buffer were due before
      have hc' : ∀ now polls, a ≠ .cycle now polls := fun now polls h => hc ⟨now, polls, h⟩
      have hsurf : d.runtime.surfaces a = [] := by
        cases a with
        | cycle now polls => exact absurd rfl (hc' now polls)
        | _ => rfl
      rw [hsurf, List.append_nil, ite_self, List.append_nil]
      refine hg.dueScratch (hcan.elim .inl fun hp => ?_)
      rcases hturn.delivering hp hc' with h | rfl
      · exact .inr h
      · simp only [allows, Bool.and_eq_true] at ha
        exact .inl ha.1

theorem Log.Inv.step (hS : S.Lawful) (hi : d.Inv b) (hg : g.Inv d) (h : d.Turn m d') :
    (g.note d m).Inv d' := by
  cases h with
  | task ha hr => exact hg.task hS hi ha hr
  | @discard ses rest r hs hp hr =>
    have hd := Runtime.discarded (fun sleep notified heq => by rw [heq] at hp; rcases hp with h | h <;> cases h) hr
    have hnote : g.note d .discard = { g with dropped := g.dropped ++ [ses] } := by
      simp only [Log.note, hs]
      rfl
    rw [hnote]
    refine hg.discard hs hd.phase fun hrec _ => ?_
    -- a receiver that lives leaves nothing in the scratch buffer
    obtain ⟨egress, heq⟩ := hg.handing hrec (by simp [hs])
    rw [heq] at hp
    rcases hp with h | h <;> cases h
  | @hand ses rest hs hp ha =>
    have hnote : g.note d .hand = g := by simp [Log.note, ha]
    have hmove : g.accepted ++ (d.accept ++ [ses]) ++ rest = g.accepted ++ d.accept ++ d.scratch := by simp [hs]
    rw [hnote]
    refine ⟨?_, hg.sent, hg.received, hg.kept, hmove ▸ hg.order, hmove ▸ hg.total, ?_, fun hcan =>
      hmove ▸ hg.dueScratch hcan⟩
    · exact fun hrec _ => hg.handing hrec (by simp [hs])
    · refine List.Sublist.trans ?_ (hmove ▸ hg.dueScratch (.inr hp))
      exact List.sublist_append_left _ _
  | @refused ses rest r hs hp ha hr =>
    have hd := Runtime.discarded (fun sleep notified heq => by cases hp.symm.trans heq) hr
    have hnote : g.note d .hand = { g with dropped := g.dropped ++ [ses] } := by
      simp only [Log.note, hs, ha]
      rfl
    rw [hnote]
    exact hg.discard hs hd.phase fun _ hacc => by cases ha.symm.trans hacc
  | @receive pkt rest he hr =>
    have hnote : g.note d .receive = { g with received := g.received ++ [pkt] } := by
      simp only [Log.note, he]
      rfl
    have hsent : g.sent = g.received ++ [pkt] ++ rest ++ d.runtime.phase.unsent := by
      rw [hg.sent hr, he]
      simp
    rw [hnote]
    refine ⟨hg.handing, fun _ => hsent, ?_, hg.kept, hg.order, hg.total, hg.due, hg.dueScratch⟩
    exact ⟨rest ++ d.runtime.phase.unsent, by rw [hsent, List.append_assoc _ rest]⟩
  | dropReceiver hr =>
    refine ⟨fun h => ?_, fun h => ?_, hg.received, fun h => ?_, hg.order, hg.total, hg.due, fun _ =>
      hg.dueScratch (.inl hr)⟩ <;> cases h
  | @accept ses rest ha hh =>
    have hnote : g.note d .accept = { g with accepted := g.accepted ++ [ses] } := by
      simp only [Log.note, ha]
      rfl
    have hmove : g.accepted ++ [ses] ++ rest = g.accepted ++ d.accept := by simp [ha]
    rw [hnote]
    exact ⟨hg.handing, hg.sent, hg.received, hg.kept, hmove ▸ hg.order, hmove ▸ hg.total,
      hmove ▸ hg.due, fun hcan => hmove ▸ hg.dueScratch hcan⟩
  | closeAccept hh ha =>
    refine ⟨hg.handing, hg.sent, hg.received, fun _ h => ?_, hg.order, hg.total, hg.due, hg.dueScratch⟩
    cases h
  | @drainAccept ses rest r hs ha hr =>
    have hnote : g.note d .drainAccept = { g with dropped := g.dropped ++ [ses] } := by
      simp only [Log.note, hs]
      rfl
    have hfewer : (g.accepted ++ rest).Sublist (g.accepted ++ d.accept) := by
      rw [hs]
      exact (List.sublist_cons_self _ _).append_left _
    have hphase : r.phase = d.runtime.phase := by
      cases Runtime.turn_of_step hr
      rfl
    rw [hnote]
    refine ⟨?_, ?_, hg.received, fun _ hacc => absurd hacc (by simp [ha]),
      (hfewer.append_right _).trans hg.order, ?_, hfewer.trans hg.due, ?_⟩
    · exact fun hrec hne => hphase ▸ hg.handing hrec hne
    · exact fun hrec => hphase ▸ hg.sent hrec
    · refine hg.total.trans ?_
      have key := perm_to_end g.accepted (rest ++ d.scratch ++ g.dropped) ses
      rw [hs]
      simpa only [List.append_assoc, List.cons_append] using key
    · exact fun hcan => (hfewer.append_right _).trans (hg.dueScratch (hphase ▸ hcan))

theorem Watched.inv (hS : S.Lawful) (h : Watched b (d, g)) : d.Inv b ∧ g.Inv d := by
  refine System.Reaches.invariant (P := fun s : Channels S × Log => s.1.Inv b ∧ s.2.Inv s.1) h
    ⟨init_inv b, Log.init_inv b⟩ fun s m t _ hs hstep => ?_
  have hturn := turn_of_step hstep.1
  exact ⟨hs.1.step hS hturn, hstep.2 ▸ hs.2.step hS hs.1 hturn⟩

/-- A state found by computing a run that is watched. -/
theorem exists_watched (b : NetstackBuilder S) (moves : List (Move S)) (check : Channels S × Log → Bool)
    (h : (System.compute step (fun d m _ g => Log.note g d m) (fun _ _ => True) (init b, .empty) moves).any
      check = true) : ∃ s, Watched b s ∧ check s = true := by
  obtain ⟨s, hs, hcheck⟩ := System.exists_of_compute (R := Steps) (fun h => h) h
  exact ⟨s, hs.mono fun _ _ _ hstep => hstep.2, hcheck⟩

end Channels

section Main

open Channels

variable {d : Channels S} {g : Log} {b : NetstackBuilder S}

/-- **Packets arrive as the engine sent them.** In every run, what the application has received
is the beginning of what the engine has sent, in the same order. While the receiver lives the
rest is in the egress channel and in the hands of the runner, and nothing is left in the
devices; the channel never holds more than its capacity. -/
theorem egress_conserved (hS : S.Lawful) (h : Watched b (d, g)) :
    g.received <+: g.sent ∧
    (d.receiver = true → g.sent = g.received ++ d.egress ++ d.runtime.phase.unsent) ∧
    d.runtime.world.core.Emptied ∧
    d.egress.length ≤ max b.config.channelCapacity 1 := by
  obtain ⟨hi, hg⟩ := h.inv hS
  exact ⟨hg.received, hg.sent, World.Reachable.emptied hS hi.runtime.anyRun, hi.bounded⟩

open Reference in
/-- A packet on its way: one is received, one is in the channel, one is yet to be sent. -/
theorem egress_conserved_underway : ∃ (d : Channels reference) (g : Log), Watched (trial .default) (d, g) ∧
    g.received = [⟨eth, [7]⟩] ∧ d.egress = [⟨eth, [8]⟩] ∧ g.sent = [⟨eth, [7]⟩, ⟨eth, [8]⟩, ⟨eth, [9]⟩] := by
  obtain ⟨⟨d, g⟩, hs, hcheck⟩ := Channels.exists_watched (trial .default)
    (openAndSend [.transmit [7], .transmit [8], .transmit [9]] ++ [.task .forward, .receive, .task .forward])
    (fun s => decide (s.2.received = [⟨eth, [7]⟩] ∧ s.1.egress = [⟨eth, [8]⟩] ∧ s.1.receiver = true ∧
      s.1.runtime.phase = .forwarding [⟨eth, [9]⟩])) (by decide +kernel)
  obtain ⟨hrec, hch, halive, hphase⟩ := of_decide_eq_true hcheck
  refine ⟨d, g, hs, hrec, hch, ?_⟩
  rw [(egress_conserved reference_lawful hs).2.1 halive, hrec, hch, hphase]
  rfl

/-- **Sessions arrive once and in order.** In every run, the sessions that `accept()` has
returned, those in the accept channel and those in the scratch buffer are, in this order, among
the sessions that the cycles have made; the others were dropped on the way. While both receivers
live none is dropped. -/
theorem sessions_delivered_in_order (hS : S.Lawful) (h : Watched b (d, g)) :
    (g.accepted ++ d.accept ++ d.scratch).Sublist g.surfaced ∧
    g.surfaced.Perm (g.accepted ++ d.accept ++ d.scratch ++ g.dropped) ∧
    (d.receiver = true → d.accepting = true → g.surfaced = g.accepted ++ d.accept ++ d.scratch) := by
  obtain ⟨-, hg⟩ := h.inv hS
  refine ⟨hg.order, hg.total, fun hrec hacc => ?_⟩
  have hlen := hg.total.length_eq
  rw [hg.kept hrec hacc, List.append_nil] at hlen
  exact (hg.order.eq_of_length hlen.symm).symm

open Reference in
/-- A session is accepted. -/
theorem sessions_delivered_in_order_accepted : ∃ (d : Channels reference) (g : Log),
    Watched (trial .default) (d, g) ∧ g.accepted = [surfacedSession] ∧ g.surfaced = [surfacedSession] := by
  obtain ⟨⟨d, g⟩, hs, hcheck⟩ := Channels.exists_watched (trial .default)
    (openAndSend [.transmit [9]] ++ [.task .forward, .hand, .task .accept, .accept])
    (fun s => decide (s.2.accepted = [surfacedSession] ∧ s.1.accept = [] ∧ s.1.scratch = [] ∧ s.1.receiver = true ∧
      s.1.accepting = true)) (by decide +kernel)
  obtain ⟨hacc, hch, hscratch, halive, haccepting⟩ := of_decide_eq_true hcheck
  refine ⟨d, g, hs, hacc, ?_⟩
  rw [(sessions_delivered_in_order reference_lawful hs).2.2 halive haccepting, hacc, hch, hscratch]
  rfl

/-- **Without an egress receiver** a cycle's sessions arrive only if the cycle had nothing to
send: the sessions that `accept()` has returned or will return are among those made while the
receiver was alive and those made by cycles that sent no packet. -/
theorem undelivered_without_receiver (hS : S.Lawful) (h : Watched b (d, g)) :
    (g.accepted ++ d.accept).Sublist g.due :=
  (h.inv hS).2.due

open Reference in
/-- The receiver is dropped, and then a session surfaces in a cycle that sends a packet: the
session is dropped by the next cycle, unseen. -/
theorem undelivered_without_receiver_lost : ∃ (d : Channels reference) (g : Log),
    Watched (trial .default) (d, g) ∧ g.surfaced = [surfacedSession] ∧ g.dropped = [surfacedSession] ∧
      (g.accepted ++ d.accept).Sublist [] := by
  obtain ⟨⟨d, g⟩, hs, hcheck⟩ := Channels.exists_watched (trial .default)
    (.dropReceiver :: openAndSend [.transmit [9]] ++ [.task .egressGone, .task .done, .task (.delay 1), .task .park,
      .task .timeout, .task .drained, .discard])
    (fun s => decide (s.2.surfaced = [surfacedSession] ∧ s.2.dropped = [surfacedSession] ∧ s.2.due = []))
    (by decide +kernel)
  obtain ⟨hsurf, hdrop, hdue⟩ := of_decide_eq_true hcheck
  exact ⟨d, g, hs, hsurf, hdrop, hdue ▸ undelivered_without_receiver reference_lawful hs⟩

end Main

end WayNetstack

import WayNetstack.Udp.Attribution
import WayNetstack.Udp.Replies

/-!
# Replies leave in order

The sessions of one destination share a socket, and with it a transmit buffer. An `Outbox`
notes what goes through that buffer from the moment the socket is made: the replies that `send`
accepted, with the sessions they are from, and the datagrams that polls took out.

`replies_leave_in_order`: **the replies of a destination leave in the order in which they were
accepted, each for the source of its own session and from a socket bound to the session's
destination.** In every run the replies accepted since the socket was made are those dispatched
followed by those in the buffer.
-/

namespace WayNetstack

open Lib Lib.Table SessionManager Relation

variable {S : Smoltcp}

/-! ### What leaves a socket -/

namespace InterfaceSlot

/-- The datagrams that the polls take out of the transmit buffer of socket `h`. -/
def leaves (h : SocketHandle) (slot : InterfaceSlot S) (es : List (PollEvent S)) : List (Bytes × IpEndpoint) :=
  ((slot.dispatchedBy es).filter fun d => decide (d.1 = h)).map (·.2)

variable {slot : InterfaceSlot S} {h : SocketHandle} {u : S.Udp}

/-- **What was in the buffer has left it or is still there**, in order, after an event. -/
theorem leaves_apply {e : PollEvent S} (hlaw : slot.Dispatches e) (hu : slot.udpAt h = some u) :
    ∃ u', (slot.apply e).udpAt h = some u' ∧
      S.udpTx u = ((slot.dispatched e).filter fun d => decide (d.1 = h)).map (·.2) ++ S.udpTx u' := by
  rw [udpAt_apply hu]
  cases htouch : e.udpFor h with
  | none =>
    refine ⟨u, rfl, ?_⟩
    cases e with
    | egress h' s =>
      -- the socket that dispatches is another, or none
      by_cases hh : h' = h
      · have hnone : s.udp? = none := by
          simpa [PollEvent.udpFor, PollEvent.touches, hh] using htouch
        simp [dispatched, hnone, gone]
      · simp [dispatched, List.filter_map, Function.comp_def, hh]
    | receive taken => rfl
    | transmit data => rfl
    | internal iface => rfl
  | some u' =>
    refine ⟨u', rfl, ?_⟩
    have htouches := PollEvent.udpFor_eq_some.mp htouch
    cases e with
    | receive taken =>
      have heq : S.udpTx u' = S.udpTx u := hlaw _ htouches u hu u' rfl
      exact heq.symm
    | egress h' s =>
      cases htouches
      have hsuffix : S.udpTx u' <:+ S.udpTx u := hlaw u hu u' rfl
      simp [dispatched, hu, Socket.udp?, List.filter_map, Function.comp_def, gone_append hsuffix]
    | transmit data => cases htouches
    | internal iface => cases htouches

/-- The same after a poll. -/
theorem leaves_poll {es : List (PollEvent S)} (hlaw : slot.Obeys Dispatches es) (hu : slot.udpAt h = some u) :
    ∃ u', (slot.poll es).udpAt h = some u' ∧ S.udpTx u = slot.leaves h es ++ S.udpTx u' := by
  induction es generalizing slot u with
  | nil => exact ⟨u, hu, rfl⟩
  | cons e es ih =>
    obtain ⟨u₁, hu₁, htx₁⟩ := leaves_apply hlaw.1 hu
    obtain ⟨u', hu', htx⟩ := ih hlaw.2 hu₁
    refine ⟨u', hu', ?_⟩
    rw [htx₁, htx, leaves, leaves, dispatchedBy, List.filter_append, List.map_append, List.append_assoc]

end InterfaceSlot

/-! ### Outboxes -/

/-- What went through the transmit buffer of a shared socket since the socket was made. -/
structure Outbox where
  /-- The replies accepted, with the sessions they are from. -/
  accepted : List (SessionKey × Bytes)
  /-- The datagrams taken out by polls, with their targets. -/
  dispatched : List (Bytes × IpEndpoint)
  deriving DecidableEq

namespace Outbox

/-- Nothing yet. -/
def empty : Outbox := ⟨[], []⟩

/-- The polls of a cycle, from the pre-pass on. -/
def polled (d : InterfaceId × IpEndpoint) (polls : InterfaceId → List (PollEvent S)) (o : Outbox) (c : Core S) :
    Outbox :=
  match c.manager.udpDstSockets.lookup d, c.slot d.1 with
  | some x, some slot => { o with dispatched := o.dispatched ++ slot.leaves x.1 (polls d.1) }
  | _, _ => o

/-- What a step adds to the outbox of a destination. -/
def next (w : World S) (l : Label S) (d : InterfaceId × IpEndpoint) (o : Outbox) : Outbox :=
  match l with
  | .send ses payload =>
    if dstOf ses.key = d ∧ ses.isSent w.core payload then { o with accepted := o.accepted ++ [(ses.key, payload)] }
    else o
  | .cycle now polls => (prePass w.core now).result.toOption.elim o fun st =>
    polled d polls (if (w.core.manager.udpDstSockets.lookup d).isSome then o else empty) st.1
  | _ => o

/-- The outboxes of all destinations. -/
def watch : World.Observer S (InterfaceId × IpEndpoint → Outbox) := fun w l _ g d => next w l d (g d)

/-- The datagram of a reply, as it is put into the buffer. -/
def datagram (a : SessionKey × Bytes) : Bytes × IpEndpoint := (a.2, a.1.src)

/-- The outbox of the socket of destination `d`. -/
structure Fits (d : InterfaceId × IpEndpoint) (o : Outbox) (u : S.Udp) : Prop where
  order : o.accepted.map datagram = o.dispatched ++ S.udpTx u
  own : ∀ a ∈ o.accepted, dstOf a.1 = d

variable {d : InterfaceId × IpEndpoint} {o : Outbox} {u u' : S.Udp}

theorem Fits.congr (h : Fits d o u) (htx : S.udpTx u' = S.udpTx u) : Fits d o u' := ⟨htx ▸ h.order, h.own⟩

theorem fits_empty (htx : S.udpTx u = []) : Fits d empty u :=
  ⟨by rw [htx]; rfl, fun _ ha => absurd ha List.not_mem_nil⟩

/-- A reply is accepted. -/
theorem Fits.send (h : Fits d o u) {k : SessionKey} {payload : Bytes} (hk : dstOf k = d)
    (htx : S.udpTx u' = S.udpTx u ++ [(payload, k.src)]) :
    Fits d { o with accepted := o.accepted ++ [(k, payload)] } u' := by
  constructor
  · rw [List.map_append, h.order, htx, List.append_assoc]
    rfl
  · intro a ha
    rcases List.mem_append.mp ha with ha | ha
    · exact h.own a ha
    · rw [List.mem_singleton.mp ha]
      exact hk

/-- The oldest replies are dispatched. -/
theorem Fits.dispatch (h : Fits d o u) {sent : List (Bytes × IpEndpoint)} (htx : S.udpTx u = sent ++ S.udpTx u') :
    Fits d { o with dispatched := o.dispatched ++ sent } u' :=
  ⟨by rw [h.order, htx, List.append_assoc], h.own⟩

/-- A step that spares the socket adds nothing to its outbox. -/
theorem next_of_spares {w : World S} {l : Label S} (h : w.Spares d l) : next w l d o = o := by
  cases l with
  | send ses payload =>
    have h : dstOf ses.key = d → ses.isSent w.core payload = false := h
    refine if_neg ?_
    rintro ⟨hd, hsent⟩
    cases (h hd).symm.trans hsent
  | cycle now polls => exact h.elim
  | ingress | read | write | shutdown | dropStream | recv | dropSession | rehash => rfl

end Outbox

/-- The outboxes fit the sockets of their destinations. -/
def OutboxesFit (s : World S × (InterfaceId × IpEndpoint → Outbox)) : Prop :=
  ∀ d u, s.1.core.boundUdp d = some u → Outbox.Fits d (s.2 d) u

section Runs

variable {w w' : World S} {l : Label S} {g : InterfaceId × IpEndpoint → Outbox} {b : NetstackBuilder S}

/-- **A step keeps the outboxes.** -/
theorem OutboxesFit.step (hS : S.Lawful) (hw : w.Registered) (hdoes : w.Does l w')
    (hlaw : w.Polls (fun _ => InterfaceSlot.Dispatches) l) (h : OutboxesFit (w, g)) :
    OutboxesFit (w', Outbox.watch w l w' g) := by
  intro d u hu
  obtain ⟨hd, hu⟩ := Core.boundUdp_eq_some.mp hu
  have hfits : ∀ {u}, w.core.Shares d hd u → Outbox.Fits d (g d) u :=
    fun hu => h d _ (Core.boundUdp_eq_some.mpr ⟨hd, hu⟩)
  show Outbox.Fits d (Outbox.next w l d (g d)) u
  cases hdoes.sharedFate hS hw hu with
  | kept spares hu =>
    rw [Outbox.next_of_spares spares]
    exact hfits hu
  | @sent ses payload u₀ u' hdst hi hh hsent hu₀ hsend =>
    rw [Outbox.next, if_pos ⟨hdst, hsent⟩]
    exact (hfits hu₀).send hdst (hS.udpSendSlice_ok hsend).1
  | @polled now polls st n slot u₀ v hpre hn hs hu₀ hold hv =>
    -- through the poll from the socket after the pre-pass
    have hbase : Outbox.Fits d
        (if (w.core.manager.udpDstSockets.lookup d).isSome then g d else .empty) u₀ := by
      rcases hold with hold | ⟨hnone, hfresh⟩
      · obtain ⟨n₀, hn₀, -⟩ := id hold
        rw [hn₀]
        exact hfits hold
      · rw [hnone]
        exact Outbox.fits_empty ((hS.udpBind_ok hfresh).1.trans (hS.udpNew_ok _ _).1)
    have hobeys : slot.Obeys InterfaceSlot.Dispatches (polls d.1) :=
      Core.id_of_slot hs ▸ (World.atPoll_prePass hpre).mp hlaw slot (Core.mem_of_slot hs)
    obtain ⟨v', hv', hleft⟩ := InterfaceSlot.leaves_poll hobeys hu₀
    cases hv.symm.trans hv'
    simp only [Outbox.next, hpre, Except.toOption, Option.elim_some, Outbox.polled, hn, hs]
    exact (hbase.dispatch hleft).congr (drainUdp_drained hS v).2.2.1

theorem init_outboxesFit (b : NetstackBuilder S) (g : InterfaceId × IpEndpoint → Outbox) :
    OutboxesFit (World.init b, g) := by
  intro d u hu
  obtain ⟨h, n, hn, -⟩ := Core.boundUdp_eq_some.mp hu
  cases hn

/-- The runs in which the engine demultiplexes and dispatches datagrams as documented, the
replies being noted. -/
def RepliesRun (D : Demux S) (b : NetstackBuilder S) (s : World S × (InterfaceId × IpEndpoint → Outbox)) : Prop :=
  World.Watched Outbox.watch
    (fun s l => s.1.Polls (fun _ => InterfaceSlot.Dispatches) l ∧ s.1.Demuxes D l) b (fun _ => .empty) s

/-- **Replies leave in order and for the right client.** In every run, and for every destination
that has a socket: the socket is bound to the destination; the replies accepted from its sessions
since it was made are, in order, those dispatched followed by those in its buffer, each with the
source of its own session as its target; and the sessions they are from are of this interface and
destination. -/
theorem replies_leave_in_order {D : Demux S} (hS : S.Lawful) (hD : D.Lawful)
    {s : World S × (InterfaceId × IpEndpoint → Outbox)} (h : RepliesRun D b s) {d : InterfaceId × IpEndpoint}
    {u : S.Udp} (hu : s.1.core.boundUdp d = some u) :
    D.endpoint u = some d.2 ∧
      (s.2 d).accepted.map (fun a => (a.2, a.1.src)) = (s.2 d).dispatched ++ S.udpTx u ∧
      ∀ a ∈ (s.2 d).accepted, a.1.interface = d.1 ∧ a.1.dst = d.2 := by
  have hfit : s.1.Inv False b ∧ OutboxesFit s := by
    refine System.Reaches.invariant (P := fun s => s.1.Inv False b ∧ OutboxesFit s) h
      ⟨⟨init_registered b, init_budgeted b False, rfl⟩, init_outboxesFit b _⟩ ?_
    rintro s l t - ⟨hinv, hfit⟩ ⟨⟨hlaw, -⟩, hstep, hobs⟩
    obtain ⟨hdoes, hinv'⟩ := hinv.step hS False.elim hstep
    obtain ⟨w', g'⟩ := t
    cases hobs
    exact ⟨hinv', hfit.step hS hinv.registered hdoes hlaw⟩
  have htidy : s.1.core.Tidy D := World.Reachable.tidy hS hD
    (System.Reaches.forget (fun _ _ hok => hok.2) h : World.Reachable (fun w l => w.Demuxes D l) b s.1)
  obtain ⟨hd, hshared⟩ := Core.boundUdp_eq_some.mp hu
  obtain ⟨horder, hown⟩ := hfit.2 d u hu
  exact ⟨(htidy.shares hshared).1, horder, fun a ha => Prod.mk.inj (hown a ha)⟩

end Runs

namespace Reference

/-- Two clients of the server send datagrams and get a reply each; the first reply is dispatched. -/
def answerTwo : List (Label reference) :=
  [datagram client [1], datagram client₂ [2],
    cycle 0 [hears 0 [([1], client)], hears 0 [([1], client), ([2], client₂)]],
    .send (sessionOf ⟨eth, .udp, client₂, server⟩ 0 1) [8], .send (sessionOf ⟨eth, .udp, client, server⟩ 0 0) [7],
    cycle 1 [.egress 0 (.udp (udpSocket [] [([7], client)])), .transmit (udpPacket server client₂ [8])]]

/-- One reply has left and one is in the buffer. -/
def oneReplyLeft (s : World reference × (InterfaceId × IpEndpoint → Outbox)) : Bool :=
  decide (s.1.core.boundUdp (eth, server) = some (udpSocket [] [([7], client)]) ∧
    (s.2 (eth, server)).dispatched = [([8], client₂)])

end Reference

open Reference in
/-- Two sessions of one destination: the reply accepted first is dispatched, the other follows it. -/
theorem replies_leave_in_order_two : ∃ s : World reference × (InterfaceId × IpEndpoint → Outbox),
    RepliesRun demux (trial .default) s ∧
      (s.2 (eth, server)).accepted.map (fun a => (a.2, a.1.src)) = [([8], client₂), ([7], client)] := by
  obtain ⟨s, hs, hcheck⟩ := World.exists_watched Outbox.watch
    (fun s l => s.1.Polls (fun _ => InterfaceSlot.Dispatches) l ∧ s.1.Demuxes demux l) (trial .default)
    (fun _ => Outbox.empty) answerTwo oneReplyLeft (by decide +kernel)
  obtain ⟨hbound, hleft⟩ := of_decide_eq_true hcheck
  have horder := (replies_leave_in_order reference_lawful demux_lawful hs hbound).2.1
  rw [hleft] at horder
  exact ⟨s, hs, horder⟩

end WayNetstack

import WayNetstack.Udp.Attribution
import WayNetstack.Udp.Lifetime

/-!
# Datagrams arrive in order

What a session receives has come a long way: a poll puts a datagram into the socket of the
session's destination, the post-pass moves it to the session's queue, and `recv` takes it from
there, cycles later. An `Inbox` notes both ends of the way for each queue: the datagrams that polls
brought to the session with that queue, and the payloads that `recv` took.

* `datagrams_arrive_in_order` — **between the engine and the application nothing is lost,
  duplicated or reordered**: in every run the datagrams brought to a live session are those it has
  received followed by those in its queue, all of them from its own source and interface;
* `ended_session_final` — **the end of a session is final**: once its queue is closed it stays
  closed, nothing more is brought to it, what is left can still be received, in order, and every
  attempt to send fails without a call to a socket.
-/

namespace WayNetstack

open Lib Lib.Table SessionManager Relation

variable {S : Smoltcp}

/-! ### The contents of the queues -/

/-- What is in the queues. -/
def Core.contents (c : Core S) : List (List Bytes) := c.queues.map (·.inner)

section Contents

variable {c c' : Core S} {q : QueueRef}

theorem Core.contents_getElem? (c : Core S) (q : QueueRef) : c.contents[q]? = (c.queues[q]?).map (·.inner) :=
  List.getElem?_map

theorem inner_markClosed (qs : Queues) (q : QueueRef) :
    (qs.modify q UdpQueue.markClosed).map (·.inner) = qs.map (·.inner) := by
  apply List.ext_getElem?
  intro i
  rw [List.getElem?_map, List.getElem?_map, List.getElem?_modify]
  cases qs[i]? with
  | none => rfl
  | some x => by_cases hi : q = i <;> simp [hi, UdpQueue.markClosed]

theorem EndUdp.contents {st st' : Core S × ℕ} (h : EndUdp st st') : st'.1.contents = st.1.contents := by
  cases h with
  | leave | close => exact inner_markClosed _ _

theorem DropUdp.contents {ses : WayUdpSession} (h : DropUdp ses c c') : c'.contents = c.contents := by
  cases h with
  | gone => rfl
  | ended hstep hlook => exact hstep.contents

/-- `recv` takes the oldest datagram. -/
theorem popQueue_contents (ses : WayUdpSession) (c : Core S) (q : QueueRef) :
    (ses.popQueue c).2 = (c.contents[ses.queue]?).bind List.head? ∧
    (ses.popQueue c).1.contents[q]? = if ses.queue = q then (c.contents[q]?).map List.tail else c.contents[q]? := by
  unfold WayUdpSession.popQueue
  rw [Core.contents_getElem?, Core.contents_getElem?, Core.contents_getElem?]
  cases hq : c.queues[ses.queue]? with
  | none =>
    refine ⟨rfl, ?_⟩
    by_cases heq : ses.queue = q
    · subst heq
      simp [hq]
    · simp [heq]
  | some x =>
    refine ⟨rfl, ?_⟩
    obtain ⟨hlt, rfl⟩ := List.getElem?_eq_some_iff.mp hq
    by_cases heq : ses.queue = q
    · subst heq
      simp [hlt, UdpQueue.pop]
    · simp [heq]

/-- The pre-pass adds empty queues, each for a new session. -/
theorem Admits.contents {now : Instant} {queued : InterfaceId → Bytes → Prop} {st : Core S × List Session}
    (h : ReflTransGen (Admit now queued) (c, []) st) :
    (∃ n, st.1.contents = c.contents ++ List.replicate n []) ∧
      ∀ ses ∈ st.2.filterMap Session.session?, c.contents.length ≤ ses.queue := by
  refine run_keeps (P := fun st : Core S × List Session =>
    (∃ n, st.1.contents = c.contents ++ List.replicate n []) ∧
      ∀ ses ∈ st.2.filterMap Session.session?, c.contents.length ≤ ses.queue) ?_ h
    ⟨⟨0, (List.append_nil _).symm⟩, by simp⟩
  rintro st st' hstep ⟨⟨n, hn⟩, hnew⟩
  -- one more empty queue, which is that of the new session
  have hadd : ∀ {c₁ c₂ : Core S}, c₁.contents = c.contents ++ List.replicate n [] →
      c₂.queues = c₁.queues ++ [UdpQueue.new] → c₂.contents = c.contents ++ List.replicate (n + 1) [] := by
    intro c₁ c₂ h₁ h₂
    rw [Core.contents, h₂, List.map_append, ← Core.contents, h₁, List.append_assoc, List.replicate_succ']
    rfl
  have hlen : c.contents.length ≤ st.1.queues.length := by
    have := congrArg List.length hn
    rw [Core.contents, List.length_map, List.length_append] at this
    omega
  cases hstep with
  | device | spoil | leak | tcp => exact ⟨⟨n, hn⟩, hnew⟩
  | udpNew | udpJoin =>
    refine ⟨⟨n + 1, hadd hn rfl⟩, fun ses hses => ?_⟩
    rw [List.filterMap_append, List.mem_append] at hses
    rcases hses with hses | hses
    · exact hnew ses hses
    · obtain rfl := List.mem_singleton.mp hses
      exact hlen

end Contents

/-- Only a cycle and a `recv` change what is in the queues, and only a cycle makes sessions. -/
theorem World.Does.contents {w w' : World S} {l : Label S} (h : w.Does l w')
    (hcycle : ∀ now polls, l ≠ .cycle now polls) (hrecv : ∀ ses, l ≠ .recv ses) :
    w'.core.contents = w.core.contents ∧ ∀ ses ∈ w'.sessions, ses ∈ w.sessions := by
  cases h with
  | ingress pkt =>
    refine ⟨?_, fun _ h => h⟩
    rcases queueIngress_eq w.core pkt with heq | ⟨slot, -, heq⟩
    · rw [heq]
    · rw [heq]
      rfl
  | cycle => exact absurd rfl (hcycle _ _)
  | read alive touch | write alive touch | shutdown alive touch =>
    exact ⟨by cases touch <;> rfl, fun _ h => h⟩
  | dropStream alive drop => exact ⟨by cases drop; rfl, fun _ h => h⟩
  | send alive result send => exact ⟨by cases send <;> rfl, fun _ h => h⟩
  | recv alive => exact absurd rfl (hrecv _)
  | dropSession alive drop => exact ⟨drop.contents, fun _ h => List.mem_of_mem_erase h⟩
  | rehash same => exact ⟨rfl, fun _ h => h⟩

/-! ### What a cycle brings -/

namespace Core

variable (D : Demux S) (polls : InterfaceId → List (PollEvent S))

/-- The key of the entry that has a queue. -/
def keyOf (c : Core S) (q : QueueRef) : Option SessionKey :=
  (c.manager.udp.entries.find? fun x => decide (x.2.queue = q)).map (·.1)

/-- The datagrams that polls bring to the session with a queue. -/
def brings (c : Core S) (q : QueueRef) : List Arrival := (c.keyOf q).elim [] (c.broughtTo D polls)

variable {D} {polls} {c : Core S} {streams : List WayTcpStream} {sessions : List WayUdpSession}
  {k : SessionKey} {q : QueueRef}

theorem keyOf_eq_some (h : c.keyOf q = some k) : ∃ e, c.manager.udp.lookup k = some e ∧ e.queue = q := by
  obtain ⟨x, hx, rfl⟩ := Option.map_eq_some_iff.mp h
  have hq := List.find?_some hx
  exact ⟨x.2, lookup_eq_some.mpr (List.mem_of_find?_eq_some hx), of_decide_eq_true hq⟩

theorem keyOf_eq_none (h : c.keyOf q = none) : ∀ k e, c.manager.udp.lookup k = some e → e.queue ≠ q := by
  intro k e he
  rw [keyOf, Option.map_eq_none_iff, List.find?_eq_none] at h
  have hne := h _ (lookup_eq_some.mp he)
  rwa [decide_eq_true_eq] at hne

/-- A queue that an entry has is open. -/
theorem Registered.open_of_keyOf (hr : c.Registered streams sessions) (h : c.keyOf q = some k) :
    c.flags[q]? = some false := by
  obtain ⟨e, he, rfl⟩ := keyOf_eq_some h
  exact hr.udp.isOpen he

end Core

/-- **A queue gets what the polls bring to its session.** -/
theorem Cycle.Outcome.contents {D : Demux S} {c : Core S} {now : Instant}
    {polls : InterfaceId → List (PollEvent S)} {r : Cycle S} {streams : List WayTcpStream}
    {sessions : List WayUdpSession} (h : r.Outcome c now polls) (ht : r.admitted.1.Tidy D)
    (hr : r.admitted.1.Registered streams sessions)
    (hlaw : World.PollsObey (fun _ => InterfaceSlot.Demuxes D) polls r.admitted.1) (q : QueueRef) :
    r.core.contents[q]? = (r.admitted.1.contents[q]?).map
      (· ++ (r.admitted.1.brings D polls q).map (·.datagram.payload)) := by
  have hcore : r.core.queues = r.post.core.queues := by
    rw [h.core]
    rfl
  have hpolled : r.polled.queues = r.admitted.1.queues := by
    rw [h.polled]
    rfl
  rw [Core.contents_getElem?, Core.contents_getElem?, hcore]
  unfold Core.brings
  cases hk : r.admitted.1.keyOf q with
  | none =>
    rw [h.post.otherQueue (q := q) (by rw [h.polled]; exact Core.keyOf_eq_none hk), hpolled, Option.map_map]
    simp [Function.comp_def]
  | some k =>
    obtain ⟨e, he, rfl⟩ := Core.keyOf_eq_some hk
    rw [h.post.queue (k := k) (e := e) (by rw [h.polled]; exact he), hpolled, Option.map_map, Option.map_map,
      Option.elim_some, ← Core.heldFor_pollSlots ht hr hlaw he, h.polled]
    rfl

/-! ### Inboxes -/

/-- What went through a queue since it was made. -/
structure Inbox where
  /-- The datagrams that polls brought to its session. -/
  brought : List Arrival
  /-- The payloads that `recv` took from it. -/
  received : List Bytes
  deriving DecidableEq

namespace Inbox

/-- Nothing yet. -/
def empty : Inbox := ⟨[], []⟩

/-- What a step adds to the inbox of a queue. -/
def next (D : Demux S) (w : World S) (l : Label S) (q : QueueRef) (o : Inbox) : Inbox :=
  match l with
  | .cycle now polls => (prePass w.core now).result.toOption.elim o fun st =>
    { o with brought := o.brought ++ st.1.brings D polls q }
  | .recv ses =>
    if ses.queue = q then { o with received := o.received ++ (ses.popQueue w.core).2.toList } else o
  | _ => o

/-- The inboxes of all queues. -/
def watch (D : Demux S) : World.Observer S (QueueRef → Inbox) := fun w l _ g q => next D w l q (g q)

/-- The runs in which the engine gives datagrams to sockets as documented, the inboxes being
noted. -/
def Runs (D : Demux S) (b : NetstackBuilder S) (s : World S × (QueueRef → Inbox)) : Prop :=
  World.Watched (watch D) (fun s l => s.1.Demuxes D l) b (fun _ => empty) s

end Inbox

/-- The inboxes fit the queues and the sessions. -/
structure InboxesFit (s : World S × (QueueRef → Inbox)) : Prop where
  order : ∀ q inner, s.1.core.contents[q]? = some inner →
    (s.2 q).brought.map (·.datagram.payload) = (s.2 q).received ++ inner
  /-- Nothing is noted for a queue not made yet. -/
  unused : ∀ q, s.1.core.contents[q]? = none → s.2 q = .empty
  own : ∀ ses ∈ s.1.sessions, ∀ a ∈ (s.2 ses.queue).brought,
    a.interface = ses.key.interface ∧ a.datagram.src = ses.key.src

section Runs

variable {D : Demux S} {w w' : World S} {l : Label S} {g : QueueRef → Inbox} {b : NetstackBuilder S}

theorem Inbox.watch_cycle {now : Instant} {polls : InterfaceId → List (PollEvent S)} {r : Cycle S}
    (result : (pollOnce w.core now polls).result = .ok r) (q : QueueRef) :
    Inbox.watch D w (.cycle now polls) (w.afterCycle r) g q =
      ⟨(g q).brought ++ r.admitted.1.brings D polls q, (g q).received⟩ := by
  simp only [Inbox.watch, Inbox.next, prePass_of_pollOnce result]
  rfl

/-- Datagrams are brought. -/
theorem InboxesFit.cycle (hS : S.Lawful) (hD : D.Lawful) (hw : w.Registered) (ht : w.core.Tidy D) {now : Instant}
    {polls : InterfaceId → List (PollEvent S)} {r : Cycle S} (result : (pollOnce w.core now polls).result = .ok r)
    (spec : CycleSpec w.core now polls r)
    (hlaw : World.PollsObey (fun _ => InterfaceSlot.Demuxes D) polls r.admitted.1) (h : InboxesFit (w, g)) :
    InboxesFit (w.afterCycle r, Inbox.watch D w (.cycle now polls) (w.afterCycle r) g) := by
  obtain ⟨r', hr', hout, -⟩ := pollOnce_outcome hS hw now polls
  cases result.symm.trans hr'
  have hadm := (spec.registered hS hw).admitted
  obtain ⟨⟨n, hext⟩, hnew⟩ := Admits.contents spec.admitted
  have hcontents := hout.contents (Admits.tidy hS hD spec.admitted hw ht) hadm hlaw
  -- what was noted of the queues of the pre-pass fits them
  have horder : ∀ q inner, r.admitted.1.contents[q]? = some inner →
      (g q).brought.map (·.datagram.payload) = (g q).received ++ inner := by
    intro q inner hq
    by_cases hlt : q < w.core.contents.length
    · rw [hext, List.getElem?_append_left hlt] at hq
      exact h.order q inner hq
    · have hnone : g q = .empty := h.unused q (List.getElem?_eq_none (Nat.le_of_not_lt hlt))
      rw [hext, List.getElem?_append_right (Nat.le_of_not_lt hlt)] at hq
      obtain rfl : inner = [] := List.eq_of_mem_replicate (List.mem_of_getElem? hq)
      rw [hnone]
      rfl
  constructor
  · intro q inner hq
    have hq : r.core.contents[q]? = some inner := hq
    rw [hcontents, Option.map_eq_some_iff] at hq
    obtain ⟨inner₀, hq₀, rfl⟩ := hq
    simp only [Inbox.watch_cycle result]
    rw [List.map_append, horder q inner₀ hq₀, List.append_assoc]
  · intro q hq
    have hq : r.core.contents[q]? = none := hq
    rw [hcontents, Option.map_eq_none_iff] at hq
    have hold : g q = .empty := by
      refine h.unused q (List.getElem?_eq_none ?_)
      have hlen := List.getElem?_eq_none_iff.mp hq
      rw [hext, List.length_append] at hlen
      show w.core.contents.length ≤ q
      omega
    have hkey : r.admitted.1.keyOf q = none := by
      cases hk : r.admitted.1.keyOf q with
      | none => rfl
      | some k =>
        -- the queue of an entry has been made
        have hopen := hadm.open_of_keyOf hk
        rw [Core.contents_getElem?, Option.map_eq_none_iff] at hq
        rw [Core.flags, List.getElem?_map, hq] at hopen
        cases hopen
    show Inbox.watch D w (.cycle now polls) (w.afterCycle r) g q = _
    rw [Inbox.watch_cycle result, hold, Core.brings, hkey]
    rfl
  · intro ses hses a ha
    have ha : a ∈ (Inbox.watch D w (.cycle now polls) (w.afterCycle r) g ses.queue).brought := ha
    rw [Inbox.watch_cycle result] at ha
    rcases List.mem_append.mp ha with ha | ha
    · rcases List.mem_append.mp hses with hold | hses
      · exact h.own ses hold a ha
      · -- nothing is noted yet for the queue of a new session
        rw [spec.accepted_split.2] at hses
        rw [show g ses.queue = .empty from h.unused _ (List.getElem?_eq_none (hnew ses hses))] at ha
        cases ha
    · unfold Core.brings at ha
      cases hk : r.admitted.1.keyOf ses.queue with
      | none =>
        rw [hk] at ha
        cases ha
      | some k =>
        rw [hk] at ha
        have hbrought : a ∈ r.admitted.1.broughtTo D polls k := ha
        obtain ⟨e, he, hq⟩ := Core.keyOf_eq_some hk
        -- the entry's object is this session
        obtain ⟨ses', hses', hkey, hq'⟩ := hadm.udp.holder he
        obtain rfl : ses' = ses := hadm.udp.session_ext hses' hses (hq'.trans hq)
        obtain ⟨-, hd, m, slot, -, -, -, hsrc, hint⟩ := Core.mem_broughtTo hbrought
        rw [hkey]
        exact ⟨hint, hsrc⟩

/-- **A step keeps the inboxes.** -/
theorem InboxesFit.step (hS : S.Lawful) (hD : D.Lawful) (hw : w.Registered) (ht : w.core.Tidy D)
    (hd : w.Does l w') (hlaw : w.Demuxes D l) (h : InboxesFit (w, g)) :
    InboxesFit (w', Inbox.watch D w l w' g) := by
  by_cases hcycle : ∃ now polls, l = .cycle now polls
  · obtain ⟨now, polls, rfl⟩ := hcycle
    cases hd with
    | cycle result spec => exact h.cycle hS hD hw ht result spec ((World.atPoll_cycle result).mp hlaw)
  by_cases hrecv : ∃ ses, l = .recv ses
  · obtain ⟨ses, rfl⟩ := hrecv
    cases hd with
    | recv alive =>
      obtain ⟨hpop, -⟩ := popQueue_contents ses w.core ses.queue
      have hat := fun q => (popQueue_contents ses w.core q).2
      constructor
      · intro q inner hq
        have hq : (ses.popQueue w.core).1.contents[q]? = some inner := hq
        rw [hat q] at hq
        simp only [Inbox.watch, Inbox.next]
        split at hq
        · next heq =>
          subst heq
          obtain ⟨inner₀, hq₀, rfl⟩ := Option.map_eq_some_iff.mp hq
          have hold := h.order ses.queue inner₀ hq₀
          rw [if_pos rfl, hpop, hq₀]
          show (g ses.queue).brought.map _ = _
          rw [show (g ses.queue).brought.map _ = _ from hold]
          cases inner₀ <;> simp
        · next hne =>
          rw [if_neg hne]
          exact h.order q inner hq
      · intro q hq
        have hq : (ses.popQueue w.core).1.contents[q]? = none := hq
        rw [hat q] at hq
        simp only [Inbox.watch, Inbox.next]
        split at hq
        · next heq =>
          subst heq
          rw [Option.map_eq_none_iff] at hq
          rw [if_pos rfl, hpop, hq, show g ses.queue = .empty from h.unused _ hq]
          rfl
        · next hne =>
          rw [if_neg hne]
          exact h.unused q hq
      · intro ses' hses' a ha
        refine h.own ses' hses' a ?_
        simp only [Inbox.watch, Inbox.next] at ha
        split at ha <;> exact ha
  push Not at hcycle hrecv
  obtain ⟨hsame, hsub⟩ := hd.contents hcycle hrecv
  have hwatch : Inbox.watch D w l w' g = g := by
    funext q
    cases l with
    | cycle now polls => exact absurd rfl (hcycle now polls)
    | recv ses => exact absurd rfl (hrecv ses)
    | _ => rfl
  rw [hwatch]
  refine ⟨fun q inner hq => h.order q inner ?_, fun q hq => h.unused q ?_, fun ses hses => h.own ses (hsub ses hses)⟩
  · exact hsame ▸ hq
  · exact hsame ▸ hq

theorem Inbox.Runs.inv (hS : S.Lawful) (hD : D.Lawful) {s : World S × (QueueRef → Inbox)} (h : Inbox.Runs D b s) :
    s.1.Inv False b ∧ s.1.core.Tidy D ∧ InboxesFit s := by
  refine System.Reaches.invariant (P := fun s => s.1.Inv False b ∧ s.1.core.Tidy D ∧ InboxesFit s) h
    ⟨⟨init_registered b, init_budgeted b False, rfl⟩, init_tidy D b, ?_, fun _ _ => rfl, ?_⟩ ?_
  · intro q inner hq
    cases hq
  · intro ses hses
    cases hses
  · rintro s l t - ⟨hinv, ht, hfit⟩ ⟨hlaw, hstep, hobs⟩
    obtain ⟨hdoes, hinv'⟩ := hinv.step hS False.elim hstep
    obtain ⟨w', g'⟩ := t
    cases hobs
    exact ⟨hinv', hdoes.tidy hS hD hinv.registered hlaw ht, hfit.step hS hD hinv.registered ht hdoes hlaw⟩

/-- **Datagrams arrive in order.** In every run, and for every live session: the datagrams that
polls have brought to it since it was made are those it has received followed by those in its
queue, in this order, and each has come from the session's source on the session's interface. -/
theorem datagrams_arrive_in_order (hS : S.Lawful) (hD : D.Lawful) {s : World S × (QueueRef → Inbox)}
    (h : Inbox.Runs D b s) {ses : WayUdpSession} (hses : ses ∈ s.1.sessions) :
    ∃ cell, s.1.core.queues[ses.queue]? = some cell ∧
      (s.2 ses.queue).brought.map (·.datagram.payload) = (s.2 ses.queue).received ++ cell.inner ∧
      ∀ a ∈ (s.2 ses.queue).brought, a.interface = ses.interface ∧ a.datagram.src = ses.key.src := by
  obtain ⟨hinv, -, hfit⟩ := h.inv hS hD
  obtain ⟨-, hlt, -⟩ := hinv.registered.udp.session hses
  have hlt : ses.queue < s.1.core.queues.length := by
    simpa [Core.udpBook] using hlt
  have hcell := List.getElem?_eq_getElem hlt
  refine ⟨_, hcell, hfit.order ses.queue _ (by rw [Core.contents_getElem?, hcell]; rfl), fun a ha => ?_⟩
  rw [hinv.registered.session_interface hses]
  exact hfit.own ses hses a ha

/-! ### Ended sessions -/

/-- A step brings nothing to a closed queue, which stays closed; `recv` may take from it. -/
theorem World.Inv.ended (hS : S.Lawful) (hw : w.Inv False b) (hd : w.Does l w') {q : QueueRef}
    (hclosed : w.core.flags[q]? = some true) :
    w'.core.flags[q]? = some true ∧ (Inbox.watch D w l w' g q).brought = (g q).brought ∧
      ∃ more, (Inbox.watch D w l w' g q).received = (g q).received ++ more := by
  have hexpired : ExpiredClosed [q] w.core := fun _ hq' => List.mem_singleton.mp hq' ▸ hclosed
  have hstays := hexpired.step hS hw.registered hd
  refine ⟨hstays q ?_, ?_⟩
  · cases hd with
    | cycle result spec =>
      rw [watchExpired_cycle result]
      exact List.mem_append_left _ (List.mem_singleton_self q)
    | _ => exact List.mem_singleton_self q
  · cases hd with
    | @cycle now polls r result spec =>
      have hkey : r.admitted.1.keyOf q = none := by
        cases hk : r.admitted.1.keyOf q with
        | none => rfl
        | some k =>
          have hopen := (spec.registered hS hw.registered).admitted.open_of_keyOf hk
          rw [spec.admitted_ages.closed q hclosed] at hopen
          cases hopen
      rw [Inbox.watch_cycle result, Core.brings, hkey]
      exact ⟨List.append_nil _, [], (List.append_nil _).symm⟩
    | @recv ses alive =>
      simp only [Inbox.watch, Inbox.next]
      split
      · exact ⟨rfl, _, rfl⟩
      · exact ⟨rfl, [], (List.append_nil _).symm⟩
    | _ => exact ⟨rfl, [], (List.append_nil _).symm⟩

/-- **The end of a session is final.** From any state of a run, along every continuation: a queue
that is closed stays closed and gets nothing more; what was left in it is what `recv` takes from
then on followed by what is left in the end; and every attempt to send on a session with this
queue fails, leaves the core as it is and calls no socket. -/
theorem ended_session_final (hS : S.Lawful) (hD : D.Lawful) {s s' : World S × (QueueRef → Inbox)}
    (h : Inbox.Runs D b s)
    (hrun : ((World.Steps.observe (Inbox.watch D)).restrict fun s l => s.1.Demuxes D l).Reaches s s')
    {q : QueueRef} {cell : UdpQueue} (hcell : s.1.core.queues[q]? = some cell) (hclosed : cell.closed = true) :
    ∃ cell', s'.1.core.queues[q]? = some cell' ∧ cell'.closed = true ∧
      (s'.2 q).brought = (s.2 q).brought ∧
      (∃ more, (s'.2 q).received = (s.2 q).received ++ more ∧ cell.inner = more ++ cell'.inner) ∧
      ∀ ses : WayUdpSession, ses.queue = q → ∀ payload target,
        (ses.trySend s'.1.core payload target).result = .ok (s'.1.core, .failed .udpNotOpen) ∧
        (ses.trySend s'.1.core payload target).calls = [] := by
  have hflag : s.1.core.flags[q]? = some true := by
    rw [Core.flags, List.getElem?_map, hcell, Option.map_some, hclosed]
  obtain ⟨-, hflag', hbrought, more, hmore⟩ : s'.1.Inv False b ∧ s'.1.core.flags[q]? = some true ∧
      (s'.2 q).brought = (s.2 q).brought ∧ ∃ more, (s'.2 q).received = (s.2 q).received ++ more := by
    refine System.Reaches.invariant (P := fun t : World S × (QueueRef → Inbox) => t.1.Inv False b ∧
      t.1.core.flags[q]? = some true ∧ (t.2 q).brought = (s.2 q).brought ∧
      ∃ more, (t.2 q).received = (s.2 q).received ++ more) hrun
      ⟨(h.inv hS hD).1, hflag, rfl, [], (List.append_nil _).symm⟩ ?_
    rintro t l t' - ⟨hinv, hflag, hbrought, more, hmore⟩ ⟨-, hstep, hobs⟩
    obtain ⟨hdoes, hinv'⟩ := hinv.step hS False.elim hstep
    obtain ⟨w', g'⟩ := t'
    cases hobs
    obtain ⟨hflag', hbrought', more', hmore'⟩ := hinv.ended (D := D) (g := t.2) hS hdoes hflag
    exact ⟨hinv', hflag', hbrought'.trans hbrought, more ++ more',
      hmore'.trans (by rw [hmore, List.append_assoc])⟩
  rw [Core.flags, List.getElem?_map, Option.map_eq_some_iff] at hflag'
  obtain ⟨cell', hcell', hclosed'⟩ := hflag'
  refine ⟨cell', hcell', hclosed', hbrought, ⟨more, hmore, ?_⟩, ?_⟩
  · -- both states conserve what was brought
    have horder := (h.inv hS hD).2.2.order q cell.inner (by rw [Core.contents_getElem?, hcell]; rfl)
    have hruns' : Inbox.Runs D b s' := ReflTransGen.trans h hrun
    have horder' := (hruns'.inv hS hD).2.2.order q cell'.inner (by rw [Core.contents_getElem?, hcell']; rfl)
    rw [hbrought, horder, hmore, List.append_assoc] at horder'
    exact List.append_cancel_left horder'
  · rintro ses rfl payload target
    have hisClosed : s'.1.core.queues.isClosed ses.queue = true := by
      rw [Queues.isClosed, hcell']
      exact hclosed'
    unfold WayUdpSession.trySend
    rw [if_pos hisClosed]
    exact ⟨rfl, rfl⟩

end Runs

namespace Reference

/-- Two clients send the server a datagram each, and the first client another; the engine takes
them as they come. -/
def sendThree : List (Label reference) :=
  [datagram client [1], datagram client₂ [2], datagram client [3],
    cycle 0 [hears 0 [([1], client)],
      hears 0 [([1], client), ([2], client₂)],
      hears 0 [([1], client), ([2], client₂), ([3], client)]]]

/-- The first client's session has received a datagram and has another in its queue. -/
def oneReceived (s : World reference × (QueueRef → Inbox)) : Bool :=
  decide (clientSession client 0 ∈ s.1.sessions ∧ s.1.core.queues[0]? = some ⟨[[3]], false⟩ ∧
    (s.2 0).received = [[1]])

/-- The queue of the first client's ended session. -/
def endedQueue : UdpQueue := ⟨[[1], [3]], true⟩

end Reference

open Reference in
/-- A datagram is received, the next is in the queue; that of the other client is not there. -/
theorem datagrams_arrive_in_order_two : ∃ s : World reference × (QueueRef → Inbox),
    Inbox.Runs demux (trial .default) s ∧ (s.2 0).brought.map (·.datagram.payload) = [[1], [3]] := by
  obtain ⟨s, hs, hcheck⟩ := World.exists_watched (Inbox.watch demux) (fun s l => s.1.Demuxes demux l)
    (trial .default) (fun _ => Inbox.empty) (sendThree ++ [.recv (clientSession client 0)]) oneReceived
    (by decide +kernel)
  obtain ⟨hses, hcell, hreceived⟩ := of_decide_eq_true hcheck
  obtain ⟨cell, hcell', horder, -⟩ := datagrams_arrive_in_order reference_lawful demux_lawful hs hses
  cases hcell.symm.trans hcell'
  rw [show (s.2 (clientSession client 0).queue).received = [[1]] from hreceived] at horder
  exact ⟨s, hs, horder⟩

open Reference in
/-- A session expires with two datagrams in its queue; one is received after that. -/
theorem ended_session_final_expired : ∃ s s' : World reference × (QueueRef → Inbox),
    Inbox.Runs demux (trial .default) s ∧ s.1.core.queues[0]? = some endedQueue ∧
    World.Steps s.1 (.recv (clientSession client 0)) s'.1 ∧ (s'.2 0).brought = (s.2 0).brought ∧
    ∃ cell' more, s'.1.core.queues[0]? = some cell' ∧ cell'.closed = true ∧
      [[1], [3]] = more ++ cell'.inner := by
  obtain ⟨s, hs, hcheck⟩ := World.exists_watched (Inbox.watch demux) (fun s l => s.1.Demuxes demux l)
    (trial .default) (fun _ => Inbox.empty) (sendThree ++ [cycle 31000000 []])
    (fun s => decide (s.1.core.queues[0]? = some endedQueue) &&
      (s.1.next (.recv (clientSession client 0))).isSome) (by decide +kernel)
  rw [Bool.and_eq_true, decide_eq_true_eq] at hcheck
  obtain ⟨w', hnext⟩ := Option.isSome_iff_exists.mp hcheck.2
  have hstep := World.steps_of_next hnext
  have hrun : ((World.Steps.observe (Inbox.watch demux)).restrict fun s l => s.1.Demuxes demux l).Reaches s
      (w', Inbox.watch demux s.1 (.recv (clientSession client 0)) w' s.2) :=
    System.Reaches.step (.refl _ _) (l := .recv (clientSession client 0)) ⟨trivial, hstep, rfl⟩
  obtain ⟨cell', hcell', hclosed', hbrought, ⟨more, -, hmore⟩, -⟩ :=
    ended_session_final reference_lawful demux_lawful hs hrun hcheck.1 rfl
  exact ⟨s, _, hs, hcheck.1, hstep, hbrought, cell', more, hcell', hclosed', hmore⟩

end WayNetstack

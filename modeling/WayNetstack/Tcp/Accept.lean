import WayNetstack.Tcp.Connections

/-!
# Every handshake is surfaced once

The post-pass hands an entry to the application when it finds the entry's socket in
`Established`. It looks at the state between polls only, and one poll may process
several segments, so a socket can pass through `Established` without being seen in
it.

An observer (`watchAccepts`) keeps, for each key, what has happened to the current
entry under it: whether its socket has been established at some point of a poll, and
how many sessions have been surfaced for it. The two agree along every run whose polls
leave a newly established socket established (`handshakes_surfaced_once`), and part
at the first poll that does not.
-/

namespace WayNetstack

open Lib Lib.Table SessionManager World

variable {S : Smoltcp}

/-! ### The observer -/

/-- The states a TCP socket goes through in a poll, the first being the one it starts in. -/
def InterfaceSlot.visits (h : SocketHandle) : InterfaceSlot S → List (PollEvent S) → List State
  | slot, [] => (slot.tcpAt h).toList.map S.tcpState
  | slot, e :: es => (slot.tcpAt h).toList.map S.tcpState ++ visits h (slot.apply e) es

/-- The socket of the entry under `k` is established at some point of the polls. -/
def Core.Establishes (c : Core S) (polls : InterfaceId → List (PollEvent S)) (k : SessionKey) : Prop :=
  ∃ e ∈ c.manager.tcp.lookup k, ∃ slot ∈ c.slot k.interface,
    State.established ∈ slot.visits e.handle (polls k.interface)

instance (c : Core S) (polls : InterfaceId → List (PollEvent S)) (k : SessionKey) :
    Decidable (c.Establishes polls k) :=
  inferInstanceAs (Decidable (∃ e ∈ c.manager.tcp.lookup k, _))

/-- What has happened to an entry since it was opened. -/
structure Handshake where
  /-- Its socket has been established. -/
  reached : Bool
  /-- The sessions surfaced for it. -/
  surfaced : ℕ
  deriving DecidableEq

/-- The streams a cycle surfaces for a key. -/
def Cycle.surfacedFor (r : Cycle S) (k : SessionKey) : ℕ :=
  ((r.accepted.filterMap Session.stream?).map (·.key)).count k

/-- What a cycle adds to the history of a key; an entry that was not there before is new. -/
def Cycle.handshake (w : World S) (polls : InterfaceId → List (PollEvent S)) (r : Cycle S)
    (m : SessionKey → Handshake) (k : SessionKey) : Handshake :=
  let h := if (w.core.manager.tcp.lookup k).isSome then m k else ⟨false, 0⟩
  ⟨h.reached || decide (r.admitted.1.Establishes polls k), h.surfaced + r.surfacedFor k⟩

/-- The observer of handshakes. -/
def watchAccepts : Observer S (SessionKey → Handshake)
  | w, .cycle now polls, _, m =>
    match (pollOnce w.core now polls).result with
    | .ok r => r.handshake w polls m
    | .error _ => m
  | _, _, _, m => m

/-- The polls leave established the sockets they establish, of the entries not yet
surfaced: where a poll completes a handshake, it processes nothing after it that takes
the socket out of `Established`. -/
def Core.Settles (polls : InterfaceId → List (PollEvent S)) (c : Core S) : Prop :=
  ∀ e ∈ c.manager.tcp.entries, e.2.state = .pending → c.Establishes polls e.1 →
    (c.pollSlots polls).tcpStateOf e.1 e.2 = .established

instance (polls : InterfaceId → List (PollEvent S)) (c : Core S) : Decidable (c.Settles polls) :=
  inferInstanceAs (Decidable (∀ e ∈ c.manager.tcp.entries, _))

/-! ### One poll -/

section Poll

variable {c : Core S} {polls : InterfaceId → List (PollEvent S)} {k : SessionKey} {e : TcpEntry}
  {t : S.Tcp} {streams : List WayTcpStream} {sessions : List WayUdpSession}

/-- The state a socket ends a poll in is one it goes through. -/
theorem InterfaceSlot.poll_mem_visits {h : SocketHandle} :
    ∀ {es : List (PollEvent S)} {slot : InterfaceSlot S}, (slot.poll es).tcpAt h = some t →
      S.tcpState t ∈ slot.visits h es
  | [], slot, ht => by
    have ht : slot.tcpAt h = some t := ht
    simp [visits, ht]
  | e :: es, slot, ht => List.mem_append_right _ (poll_mem_visits ht)

/-- An entry whose socket ends the polls established is established by them. -/
theorem Core.Registered.establishes (hr : c.Registered streams sessions)
    (hp : (c.pollSlots polls).conn k = some (e, t)) (hest : S.tcpState t = .established) :
    c.Establishes polls k := by
  obtain ⟨slot, t₀, hs, hconn, -, hget⟩ := Core.conn_pollSlots hp hr
  refine ⟨e, (Core.conn_eq_some.mp hconn).1, slot, hs, ?_⟩
  rw [← hest]
  exact InterfaceSlot.poll_mem_visits (by rw [InterfaceSlot.tcpAt, hget]; rfl)

/-- The polls settle, so an entry not surfaced is established by them exactly when its
socket ends them established. -/
theorem Core.Settles.establishes_iff (h : c.Settles polls) (hr : c.Registered streams sessions)
    (hp : (c.pollSlots polls).conn k = some (e, t)) (hpend : e.state = .pending) :
    c.Establishes polls k ↔ S.tcpState t = .established := by
  constructor
  · intro hest
    have hlook : c.manager.tcp.lookup k = some e := (Core.conn_eq_some.mp hp).1
    rw [← Core.tcpStateOf_conn hp]
    exact h ⟨k, e⟩ (lookup_eq_some.mp hlook) hpend hest
  · exact hr.establishes hp

end Poll

/-! ### One cycle -/

section Cycle

variable {w : World S} {now : Instant} {polls : InterfaceId → List (PollEvent S)} {r : Cycle S}
  {k : SessionKey} {e : TcpEntry} {t : S.Tcp} {m : SessionKey → Handshake}

/-- A cycle surfaces an entry once if it is pending and its socket established after
the poll, and not at all otherwise. -/
theorem CycleSpec.surfacedFor (spec : CycleSpec w.core now polls r) (hp : r.polled.conn k = some (e, t)) :
    r.surfacedFor k = if e.state = .pending ∧ S.tcpState t = .established then 1 else 0 := by
  have hmem : k ∈ (TcpBook.surfaced r.polled.manager.tcp r.polled.tcpStateOf).map (·.key) ↔
      e.state = .pending ∧ S.tcpState t = .established := by
    have hlook := (Core.conn_eq_some.mp hp).1
    have hstate := Core.tcpStateOf_conn hp
    rw [List.mem_map]
    constructor
    · rintro ⟨st, hst, rfl⟩
      obtain ⟨e', he', -, hpend, hest⟩ := TcpBook.mem_surfaced.mp hst
      rw [hlook] at he'
      cases he'
      exact ⟨hpend, hstate.symm.trans hest⟩
    · rintro ⟨hpend, hest⟩
      exact ⟨streamOf k e.handle,
        TcpBook.mem_surfaced.mpr ⟨e, hlook, rfl, hpend, hstate.trans hest⟩, rfl⟩
  rw [Cycle.surfacedFor, spec.accepted_split.1, spec.post.tcp.surfaced,
    List.Nodup.count (TcpBook.nodup_surfaced _ _)]
  exact if_congr hmem rfl rfl

theorem CycleSpec.surfacedFor_none (spec : CycleSpec w.core now polls r)
    (hp : r.polled.manager.tcp.lookup k = none) : r.surfacedFor k = 0 := by
  rw [Cycle.surfacedFor, spec.accepted_split.1, spec.post.tcp.surfaced, List.count_eq_zero, List.mem_map]
  rintro ⟨st, hst, rfl⟩
  obtain ⟨e', he', -⟩ := TcpBook.mem_surfaced.mp hst
  rw [hp] at he'
  cases he'

/-- The history of a key agrees with the sessions surfaced, and with the entry. -/
structure Kept (h : Handshake) (o : Option (Conn S)) : Prop where
  once : h.surfaced = if h.reached then 1 else 0
  entry : ∀ p, o = some p → (p.1.state = .pending ↔ h.reached = false)

/-- The history of a key at the start of a cycle. -/
theorem Kept.admitted (hS : S.Lawful) (hw : w.Registered) (spec : CycleSpec w.core now polls r)
    (h : Kept (m k) (w.core.conn k)) :
    Kept (if (w.core.manager.tcp.lookup k).isSome then m k else ⟨false, 0⟩) (r.admitted.1.conn k) := by
  rcases spec.admitted_conn hS hw k with heq | ⟨hnone, p, hp, hfresh⟩
  · rw [heq]
    cases hl : w.core.manager.tcp.lookup k with
    | none =>
      rw [hw.conn_eq_none.mpr hl]
      exact ⟨rfl, fun p hp => by cases hp⟩
    | some e => exact h
  · have hl := hw.conn_eq_none.mp hnone
    rw [hl, hp]
    refine ⟨rfl, fun p' hp' => ?_⟩
    cases hp'
    simp [hfresh.pending]

/-- What the poll and the post-pass make of the history of a key. -/
theorem Kept.polled {h : Handshake} (spec : CycleSpec w.core now polls r)
    (hr : r.admitted.1.Registered w.streams (w.sessions ++ r.accepted.filterMap Session.session?))
    (hset : r.admitted.1.Settles polls) (hk : Kept h (r.admitted.1.conn k)) :
    Kept ⟨h.reached || decide (r.admitted.1.Establishes polls k), h.surfaced + r.surfacedFor k⟩
      ((r.polled.conn k).bind settle) := by
  cases hadm : r.admitted.1.conn k with
  | none =>
    have hl := hr.conn_eq_none.mp hadm
    have hl' : r.polled.manager.tcp.lookup k = none := by rw [spec.polled]; exact hl
    have hnot : ¬r.admitted.1.Establishes polls k := by
      rintro ⟨e, he, -⟩
      rw [hl] at he
      cases he
    have hconn : r.polled.conn k = none := by rw [Core.conn, hl', Option.bind_none]
    rw [spec.surfacedFor_none hl', hconn, decide_eq_false hnot, Bool.or_false]
    exact ⟨hk.once, fun p hp => by cases hp⟩
  | some p₀ =>
    obtain ⟨e, t₀⟩ := p₀
    obtain ⟨t, hp⟩ := Core.exists_conn_pollSlots hadm hr polls
    have hpend := hk.entry _ hadm
    have honce := hk.once
    have hp' : r.polled.conn k = some (e, t) := by rw [spec.polled]; exact hp
    rw [spec.surfacedFor hp', hp', Option.bind_some]
    by_cases hs : e.state = .pending
    · -- a pending entry is established by the poll iff the post-pass sees it established
      have hiff := hset.establishes_iff hr hp hs
      have hreached := hpend.mp hs
      rw [hreached] at honce ⊢
      have hdec : decide (r.admitted.1.Establishes polls k) = decide (S.tcpState t = .established) :=
        decide_eq_decide.mpr hiff
      rw [honce, hdec]
      refine ⟨by simp [hs], fun p hsettle => ?_⟩
      unfold settle at hsettle
      split at hsettle
      · cases hsettle
      · cases hsettle
        simp [TcpEntry.advance_pending, hs]
    · have hreached : h.reached = true := by
        rw [← Bool.not_eq_false]
        exact fun hf => hs (hpend.mpr hf)
      rw [hreached] at honce ⊢
      refine ⟨by simp [hs, honce], fun p hsettle => ?_⟩
      unfold settle at hsettle
      split at hsettle
      · cases hsettle
      · cases hsettle
        simp [TcpEntry.advance_pending, hs]

/-- A cycle whose poll settles keeps every history. -/
theorem Kept.cycle (hS : S.Lawful) (hw : w.Registered) (spec : CycleSpec w.core now polls r)
    (hset : r.admitted.1.Settles polls) (h : ∀ k, Kept (m k) (w.core.conn k)) (k : SessionKey) :
    Kept (r.handshake w polls m k) (r.core.conn k) := by
  rw [spec.conn hS hw]
  exact Kept.polled spec (spec.registered hS hw).admitted hset (Kept.admitted hS hw spec (h k))

/-- A poll that does not settle leaves behind an entry whose handshake is never surfaced. -/
theorem Kept.unsettled (hS : S.Lawful) (hw : w.Registered) (spec : CycleSpec w.core now polls r)
    (hset : ¬r.admitted.1.Settles polls) (h : ∀ k, Kept (m k) (w.core.conn k)) :
    ∃ k, r.handshake w polls m k = ⟨true, 0⟩ := by
  have hr := (spec.registered hS hw).admitted
  simp only [Core.Settles, not_forall] at hset
  obtain ⟨⟨k, e⟩, hmem, hpend, hest, hstate⟩ := hset
  have hlook : r.admitted.1.manager.tcp.lookup k = some e := lookup_eq_some.mpr hmem
  obtain ⟨t₀, hadm⟩ := hr.exists_conn hlook
  obtain ⟨t, hp⟩ := Core.exists_conn_pollSlots hadm hr polls
  have hp' : r.polled.conn k = some (e, t) := by rw [spec.polled]; exact hp
  have hne : S.tcpState t ≠ .established := fun ht => hstate ((Core.tcpStateOf_conn hp).trans ht)
  have hkept := Kept.admitted hS hw spec (h k)
  have hreached := (hkept.entry _ hadm).mp hpend
  have honce := hkept.once
  rw [hreached] at honce
  refine ⟨k, ?_⟩
  simp only [Cycle.handshake, spec.surfacedFor hp', hne, honce, hest, decide_true, Bool.or_true,
    and_false, if_false, Bool.false_eq_true]

end Cycle

/-! ### The theorem -/

theorem Kept.use {h : Handshake} {p p' : Conn S} (hu : Use p p') (hk : Kept h (some p)) :
    Kept h (some p') := by
  have hentry := hk.entry p rfl
  refine ⟨hk.once, fun q hq => ?_⟩
  cases hq
  cases hu with
  | quiet | shut | drop => exact hentry

section Runs

variable {s t : World S × (SessionKey → Handshake)} {b : NetstackBuilder S} {l : Label S}

/-- A step that is allowed keeps every history. -/
theorem Kept.step (hS : S.Lawful) (hw : s.1.Registered) (hd : s.1.Does l t.1) (hset : s.1.AtPoll Core.Settles l)
    (hobs : t.2 = watchAccepts s.1 l t.1 s.2) (h : ∀ k, Kept (s.2 k) (s.1.core.conn k)) (k : SessionKey) :
    Kept (t.2 k) (t.1.core.conn k) := by
  obtain ⟨w, m⟩ := s
  obtain ⟨w', m'⟩ := t
  by_cases hl : ∃ now polls, l = .cycle now polls
  · obtain ⟨now, polls, rfl⟩ := hl
    cases hd with
    | @cycle _ _ r result spec =>
      simp only [watchAccepts, result] at hobs
      rw [hobs]
      exact Kept.cycle hS hw spec ((atPoll_cycle result).mp hset) h k
  · have hsame : m' = m := by
      have hobs : m' = watchAccepts w l w' m := hobs
      rw [hobs]
      cases l with
      | cycle now polls => exact absurd ⟨now, polls, rfl⟩ hl
      | ingress | read | write | shutdown | dropStream | send | recv | dropSession | rehash => rfl
    rw [hsame]
    rcases hd.conn hw (fun now polls heq => hl ⟨now, polls, heq⟩) k with heq | ⟨p, p', hp, hp', huse⟩
    · rw [heq]
      exact h k
    · rw [hp']
      exact Kept.use huse (hp ▸ h k)

/-- **Every completed handshake is surfaced exactly once, by the cycle that completes
it**, along every run in which no poll takes the socket of an entry not yet surfaced
out of `Established` again: for each key, one session has been surfaced for the
current entry if its socket has been established, and none otherwise. The condition
is exact: the first cycle that fails it leaves an entry whose socket was established
and for which no session was surfaced. -/
theorem handshakes_surfaced_once (hS : S.Lawful) (b : NetstackBuilder S)
    (h : Watched watchAccepts (fun s => s.1.AtPoll Core.Settles) b (fun _ => ⟨false, 0⟩) s) :
    (∀ k, (s.2 k).surfaced = if (s.2 k).reached then 1 else 0) ∧
    (∀ now polls t, (Steps.observe watchAccepts) s (.cycle now polls) t →
      ¬s.1.AtPoll Core.Settles (.cycle now polls) → ∃ k, t.2 k = ⟨true, 0⟩) := by
  have hinv : s.1.Inv False b ∧ ∀ k, Kept (s.2 k) (s.1.core.conn k) := by
    refine System.Reaches.invariant
      (P := fun s => s.1.Inv False b ∧ ∀ k, Kept (s.2 k) (s.1.core.conn k)) h
      ⟨⟨init_registered b, init_budgeted b False, rfl⟩, fun k => ⟨rfl, fun p hp => ?_⟩⟩ ?_
    · rw [(init_registered b).conn_eq_none.mpr rfl] at hp
      cases hp
    · rintro s l t - ⟨hw, hk⟩ ⟨hset, hstep, hobs⟩
      obtain ⟨hdoes, hw'⟩ := hw.step hS False.elim hstep
      exact ⟨hw', Kept.step hS hw.registered hdoes hset hobs hk⟩
  obtain ⟨hw, hk⟩ := hinv
  refine ⟨fun k => (hk k).once, fun now polls t ⟨hstep, hobs⟩ hnot => ?_⟩
  obtain ⟨hdoes, -⟩ := hw.step hS False.elim hstep
  obtain ⟨w', m'⟩ := t
  cases hdoes with
  | @cycle _ _ r result spec =>
    simp only [watchAccepts, result] at hobs
    rw [hobs]
    exact Kept.unsettled hS hw.registered spec ((atPoll_cycle result).not.mp hnot) hk

end Runs

open Reference in
/-- A client connects in two polls and is surfaced once. -/
theorem handshakes_surfaced_once_openBoth : ∃ s : World reference × (SessionKey → Handshake),
    Watched watchAccepts (fun s => s.1.AtPoll Core.Settles) (trial .default) (fun _ => ⟨false, 0⟩) s ∧
    (s.2 ⟨eth, .tcp, client, server⟩).reached = true ∧
    (s.2 ⟨eth, .tcp, client, server⟩).surfaced = 1 := by
  obtain ⟨s, hs, hcheck⟩ := exists_watched watchAccepts (fun s => s.1.AtPoll Core.Settles)
    (trial .default) (fun _ => ⟨false, 0⟩) openBoth (fun s => (s.2 ⟨eth, .tcp, client, server⟩).reached)
    (by decide +kernel)
  refine ⟨s, hs, hcheck, ?_⟩
  rw [(handshakes_surfaced_once reference_lawful (trial .default) hs).1, hcheck]
  rfl

open Reference in
/-- The acknowledgement that completes a handshake and the client's FIN are processed
by one poll: the socket has been established, and no session is ever surfaced for it. -/
theorem handshake_with_fin_not_surfaced : ∃ s : World reference × (SessionKey → Handshake),
    Watched watchAccepts (fun _ _ => True) (trial .default) (fun _ => ⟨false, 0⟩) s ∧
    s.2 ⟨eth, .tcp, client, server⟩ = ⟨true, 0⟩ ∧ s.1.streams = [] := by
  obtain ⟨s, hs, hcheck⟩ := exists_watched watchAccepts (fun _ _ => True) (trial .default)
    (fun _ => ⟨false, 0⟩)
    [fromClient client syn, cycle 0 [takes 0 (connected 16384 client .synReceived)],
      fromClient client ack, fromClient client (Reference.ack ||| fin),
      cycle 1 [takes 0 (connected 16384 client .established), takes 0 (connected 16384 client .closeWait)]]
    (fun s => decide (s.2 ⟨eth, .tcp, client, server⟩ = ⟨true, 0⟩ ∧ s.1.streams = []))
    (by decide +kernel)
  obtain ⟨hseen, hstreams⟩ := of_decide_eq_true hcheck
  exact ⟨s, hs, hseen, hstreams⟩

end WayNetstack

import WayNetstack.Tcp.Connections

/-!
# Entries without an owner

The post-pass reaps an entry when its stream has been dropped and its socket is
closed. An entry exists before any stream does, and nothing reaps it then: it is left
behind if its handshake fails. This module says exactly when that happens.

At the end of a cycle, every entry without a live stream has a socket whose handshake
is under way or whose connection is being closed, if and only if the poll has left
every entry not yet surfaced in `SynReceived` or `Established` (`Core.Progresses`).
-/

namespace WayNetstack

open Lib Lib.Table SessionManager

variable {S : Smoltcp}

/-- The connection is being closed: this side has closed it, and it is not over. -/
def State.Closing : State → Prop
  | .finWait1 | .finWait2 | .closing | .lastAck | .timeWait => True
  | _ => False

instance : DecidablePred State.Closing := fun s => by
  cases s <;> unfold State.Closing <;> infer_instance

theorem State.LocallyClosed.closing {s : State} (h : s.LocallyClosed) (hs : s ≠ .closed) : s.Closing := by
  cases s <;> simp_all [LocallyClosed, Closing]

theorem State.Passive.not_closing {s : State} (h : s.Passive) : ¬s.Closing := by
  cases s <;> simp_all [Passive, Closing]

/-- The polls leave the handshakes of the entries not yet surfaced under way or complete:
none is left listening, reset, half closed or closed. -/
def Core.Progresses (polls : InterfaceId → List (PollEvent S)) (c : Core S) : Prop :=
  ∀ e ∈ c.manager.tcp.entries, e.2.state = .pending →
    (c.pollSlots polls).tcpStateOf e.1 e.2 = .synReceived ∨
    (c.pollSlots polls).tcpStateOf e.1 e.2 = .established

instance (polls : InterfaceId → List (PollEvent S)) (c : Core S) : Decidable (c.Progresses polls) :=
  inferInstanceAs (Decidable (∀ e ∈ c.manager.tcp.entries, _))

/-- Every entry without a live stream is still handshaking or closing. -/
def World.NoneLeaked (w : World S) : Prop :=
  ∀ k e t, w.core.conn k = some (e, t) → (∀ st ∈ w.streams, st.key ≠ k) →
    S.tcpState t = .synReceived ∨ (S.tcpState t).Closing

/-! ### Which side has closed -/

/-- This side of a connection is closed if its stream was dropped, and not before its
entry is surfaced. -/
structure Sided (_ : SessionKey) (p : Conn S) : Prop where
  pending : p.1.state = .pending → (S.tcpState p.2).Passive
  orphaned : p.1.orphaned = true → (S.tcpState p.2).LocallyClosed

section Sided

variable {queued : InterfaceId → Bytes → Prop} {k : SessionKey} {p p' : Conn S}

theorem Fresh.sided (h : Fresh queued k p) : Sided k p := by
  constructor
  · intro _
    rw [h.listening]
    trivial
  · intro ho
    rw [h.owned] at ho
    cases ho

theorem closeIfOpen_locallyClosed (hS : S.Lawful) (t : S.Tcp) :
    (S.tcpState (WayTcpStream.closeIfOpen t)).LocallyClosed := by
  unfold WayTcpStream.closeIfOpen
  split
  · exact (hS.tcpClose_ok t).1
  · next hopen =>
    rcases (hS.tcpIsOpen_iff t).mp (by simpa using hopen) with hs | hs
    · rw [hs]
      trivial
    · rw [hs]
      trivial

theorem Sided.use (hS : S.Lawful) (hu : Use p p') (h : Sided k p) : Sided k p' := by
  cases hu with
  | quiet hq =>
    refine ⟨fun hp => ?_, fun ho => ?_⟩
    · rw [hq.state]
      exact h.pending hp
    · rw [hq.state]
      exact h.orphaned ho
  | shut surfaced => exact ⟨fun hp => absurd hp surfaced, fun _ => closeIfOpen_locallyClosed hS _⟩
  | drop surfaced => exact ⟨fun hp => absurd hp surfaced, fun _ => closeIfOpen_locallyClosed hS _⟩

theorem Sided.advance {e : TcpEntry} {t : S.Tcp} (h : Sided k (e, t)) :
    Sided k ((e.advance (S.tcpState t)).1, t) := by
  refine ⟨fun hp => h.pending (TcpEntry.advance_pending.mp hp).1, fun ho => h.orphaned ?_⟩
  rw [TcpEntry.advance_orphaned] at ho
  exact ho

end Sided

/-- Lawful polls keep the sides of every connection. -/
theorem Sided.poll {c : Core S} {streams : List WayTcpStream} {sessions : List WayUdpSession}
    {polls : InterfaceId → List (PollEvent S)} (hr : c.Registered streams sessions)
    (hlaw : World.PollsObey (fun _ => InterfaceSlot.KeepsSide) polls c) (h : c.Conns Sided) :
    (c.pollSlots polls).Conns Sided := by
  refine Core.Conns.poll hr hlaw (fun _ _ hev ht htouch hs => ?_) h
  obtain ⟨hclosed, hpassive⟩ := hev _ htouch _ ht _ rfl
  exact ⟨fun hp => hpassive (hs.pending hp), fun ho => hclosed (hs.orphaned ho)⟩

/-! ### The end of a cycle -/

section Cycle

variable {w : World S} {now : Instant} {polls : InterfaceId → List (PollEvent S)} {r : Cycle S}
  {k : SessionKey} {e : TcpEntry} {t : S.Tcp}

/-- A connection without a stream is pending or orphaned. -/
theorem World.Registered.unowned (hw : w.Registered) (hp : w.core.conn k = some (e, t))
    (hno : ∀ st ∈ w.streams, st.key ≠ k) : e.state = .pending ∨ e.orphaned = true := by
  by_contra hnot
  rw [not_or, Bool.not_eq_true] at hnot
  obtain ⟨st, hst, hk⟩ := hw.tcp.holder (Core.conn_eq_some.mp hp).1 hnot.1 hnot.2
  exact hno st hst hk

theorem World.Registered.pending_unowned (hw : w.Registered) (hp : w.core.conn k = some (e, t))
    (hpend : e.state = .pending) : ∀ st ∈ w.streams, st.key ≠ k := by
  rintro st hst rfl
  obtain ⟨e', he', -, hne, -⟩ := hw.tcp.stream hst
  have he : w.core.manager.tcp.lookup st.key = some e := (Core.conn_eq_some.mp hp).1
  cases he.symm.trans he'
  exact hne hpend

/-- If the handshakes progress, a cycle leaks nothing. -/
theorem CycleSpec.noneLeaked (hS : S.Lawful) (hw : w.Registered) (spec : CycleSpec w.core now polls r)
    (hside : r.polled.Conns Sided) (hprog : r.admitted.1.Progresses polls) :
    (w.afterCycle r).NoneLeaked := by
  have hw' : (w.afterCycle r).Registered := (spec.registered hS hw).core
  intro k e' t hp hno
  have hp' : (r.polled.conn k).bind settle = some (e', t) := by rw [← spec.conn hS hw]; exact hp
  obtain ⟨⟨e, t⟩, hpolled, hsettle⟩ := Option.bind_eq_some_iff.mp hp'
  unfold settle at hsettle
  split at hsettle
  · cases hsettle
  next hkeep =>
  cases hsettle
  rcases hw'.unowned hp hno with hpend | horph
  · -- never surfaced: the poll has left it in one of two states, and it is not surfaced now
    obtain ⟨hpend, hne⟩ := TcpEntry.advance_pending.mp hpend
    have hstate := Core.tcpStateOf_conn hpolled
    have hlook := (Core.conn_eq_some.mp hpolled).1
    rw [spec.polled] at hlook hstate
    rcases hprog ⟨k, e⟩ (lookup_eq_some.mp hlook) hpend with hsyn | hest
    · exact .inl (hstate.symm.trans hsyn)
    · exact absurd (hstate.symm.trans hest) hne
  · -- dropped: closed on this side, and the closed ones are reaped
    rw [TcpEntry.advance_orphaned] at horph
    exact .inr (((hside k _ hpolled).orphaned horph).closing fun hc => hkeep ⟨horph, hc⟩)

/-- If a cycle leaks nothing, the handshakes progressed. -/
theorem CycleSpec.progresses (hS : S.Lawful) (hw : w.Registered) (spec : CycleSpec w.core now polls r)
    (hside : r.polled.Conns Sided) (hnone : (w.afterCycle r).NoneLeaked) :
    r.admitted.1.Progresses polls := by
  have hw' : (w.afterCycle r).Registered := (spec.registered hS hw).core
  have hreg := spec.registered hS hw
  rintro ⟨k, e⟩ hmem hpend
  have hlook : r.admitted.1.manager.tcp.lookup k = some e := lookup_eq_some.mpr hmem
  obtain ⟨t₀, hadm⟩ := hreg.admitted.exists_conn hlook
  obtain ⟨t, hp⟩ := Core.exists_conn_pollSlots hadm hreg.admitted polls
  rw [Core.tcpStateOf_conn hp]
  rw [← spec.polled] at hp
  by_cases hest : S.tcpState t = .established
  · exact .inr hest
  · -- the entry is pending after the cycle as well
    have horph : e.orphaned = false := hreg.admitted.tcp.pending hlook hpend
    have hcore : (w.afterCycle r).core.conn k = some ((e.advance (S.tcpState t)).1, t) := by
      have hc := spec.conn hS hw k
      rw [hp, Option.bind_some, settle, if_neg (by simp [horph])] at hc
      exact hc
    have hpend' : (e.advance (S.tcpState t)).1.state = .pending :=
      TcpEntry.advance_pending.mpr ⟨hpend, hest⟩
    rcases hnone k _ t hcore (hw'.pending_unowned hcore hpend') with hsyn | hclosing
    · exact .inl hsyn
    · exact absurd hclosing ((hside k _ hp).pending hpend).not_closing

end Cycle

/-! ### The theorem -/

/-- The polls of a run keep the sides of connections. -/
abbrev World.KeepsSide (w : World S) (l : Label S) : Prop :=
  w.Polls (fun _ => InterfaceSlot.KeepsSide) l

/-- **No entry outlives its connection without an owner**, along every run whose polls
leave the handshakes of the entries not yet surfaced under way or complete: at the end
of every cycle, every entry without a live stream has a socket that is in `SynReceived`
or being closed. The condition is exact, cycle by cycle. -/
theorem tcp_entries_not_leaked (hS : S.Lawful) (b : NetstackBuilder S) :
    (∀ w, World.Reachable (fun w l => w.KeepsSide l ∧ w.AtPoll Core.Progresses l) b w →
      ∀ now polls w', w.KeepsSide (.cycle now polls) → w.AtPoll Core.Progresses (.cycle now polls) →
        World.Steps w (.cycle now polls) w' → w'.NoneLeaked) ∧
    (∀ w, World.Reachable World.KeepsSide b w → ∀ now polls w', w.KeepsSide (.cycle now polls) →
      World.Steps w (.cycle now polls) w' →
        (w'.NoneLeaked ↔ w.AtPoll Core.Progresses (.cycle now polls))) := by
  have hinv : ∀ w, World.Reachable World.KeepsSide b w → w.Inv False b ∧ w.core.Conns Sided := by
    intro w h
    refine System.Reaches.invariant (P := fun w => w.Inv False b ∧ w.core.Conns Sided) h
      ⟨⟨init_registered b, init_budgeted b False, rfl⟩, fun k p hp => ?_⟩ ?_
    · rw [(init_registered b).conn_eq_none.mpr rfl] at hp
      cases hp
    · rintro w l w' - ⟨hw, hconns⟩ ⟨hlaw, hstep⟩
      obtain ⟨hdoes, hw'⟩ := hw.step hS False.elim hstep
      refine ⟨hw', hdoes.conns hS hw.registered (fun k p hf => hf.sided)
        (fun k p p' hu hp => hp.use hS hu) (fun k e t hp => hp.advance) ?_ hconns⟩
      rintro now polls r rfl hres spec hadm
      rw [spec.polled]
      exact Sided.poll (spec.registered hS hw.registered).admitted
        ((World.atPoll_cycle hres).mp hlaw) hadm
  have exact_cycle : ∀ w, World.Reachable World.KeepsSide b w → ∀ now polls w',
      w.KeepsSide (.cycle now polls) → World.Steps w (.cycle now polls) w' →
        (w'.NoneLeaked ↔ w.AtPoll Core.Progresses (.cycle now polls)) := by
    intro w h now polls w' hlaw hstep
    obtain ⟨hw, hconns⟩ := hinv w h
    obtain ⟨hdoes, -⟩ := hw.step hS False.elim hstep
    cases hdoes with
    | @cycle _ _ r hres spec =>
      have hreg := spec.registered hS hw.registered
      have hadm := spec.admitted_conns hS hw.registered (fun k p hf => hf.sided) hconns
      have hside : r.polled.Conns Sided := by
        rw [spec.polled]
        exact Sided.poll hreg.admitted ((World.atPoll_cycle hres).mp hlaw) hadm
      rw [World.atPoll_cycle hres]
      exact ⟨spec.progresses hS hw.registered hside, spec.noneLeaked hS hw.registered hside⟩
  refine ⟨fun w h now polls w' hlaw hprog hstep => ?_, exact_cycle⟩
  have h' : World.Reachable World.KeepsSide b w :=
    System.Reaches.mono h fun _ _ _ hs => ⟨hs.1.1, hs.2⟩
  exact (exact_cycle w h' now polls w' hlaw hstep).mpr hprog

open Reference in
/-- A client whose handshake is under way has an entry without a stream. -/
theorem tcp_entries_not_leaked_handshaking : ∃ w w' : World reference,
    World.Reachable (fun w l => w.KeepsSide l ∧ w.AtPoll Core.Progresses l) (trial .default) w ∧
    World.Steps w (cycle 0 [takes 0 (connected 16384 client .synReceived)]) w' ∧
    w'.core.conn ⟨eth, .tcp, client, server⟩ =
      some (⟨0, .pending, false⟩, connected 16384 client .synReceived) ∧ w'.NoneLeaked := by
  obtain ⟨w, w', hw, hok, hstep, hcheck⟩ := World.exists_step_of_run
    (fun w l => w.KeepsSide l ∧ w.AtPoll Core.Progresses l) (trial .default) [fromClient client syn]
    (cycle 0 [takes 0 (connected 16384 client .synReceived)])
    (fun w => decide (w.core.conn ⟨eth, .tcp, client, server⟩ =
      some (⟨0, .pending, false⟩, connected 16384 client .synReceived)))
    (by decide +kernel)
  exact ⟨w, w', hw, hstep, of_decide_eq_true hcheck,
    (tcp_entries_not_leaked reference_lawful (trial .default)).1 w hw _ _ w' hok.1 hok.2 hstep⟩

open Reference in
/-- A client resets its handshake: at the end of the cycle the entry has no stream and
its socket listens again, and nothing will ever reap it. -/
theorem reset_handshake_leaks : ∃ w w' : World reference,
    World.Reachable World.KeepsSide (trial .default) w ∧
    World.Steps w (cycle 1 [takes 0 (listening 16384)]) w' ∧
    w'.core.conn ⟨eth, .tcp, client, server⟩ = some (⟨0, .pending, false⟩, listening 16384) ∧
    w'.streams = [] ∧ ¬w'.NoneLeaked := by
  obtain ⟨w, w', hw, -, hstep, hcheck⟩ := World.exists_step_of_run World.KeepsSide (trial .default)
    [fromClient client syn, cycle 0 [takes 0 (connected 16384 client .synReceived)],
      fromClient client rst]
    (cycle 1 [takes 0 (listening 16384)])
    (fun w => decide (w.core.conn ⟨eth, .tcp, client, server⟩ =
      some (⟨0, .pending, false⟩, listening 16384) ∧ w.streams = []))
    (by decide +kernel)
  obtain ⟨hconn, hstreams⟩ := of_decide_eq_true hcheck
  refine ⟨w, w', hw, hstep, hconn, hstreams, fun hnone => ?_⟩
  have hno : ∀ st ∈ w'.streams, st.key ≠ ⟨eth, .tcp, client, server⟩ := by simp [hstreams]
  rcases hnone _ _ _ hconn hno with hsyn | hclosing
  · cases hsyn
  · exact hclosing

end WayNetstack

import WayNetstack.Tcp.Streams

/-!
# The life of a TCP entry

What the registry knows of a key is how far the life of its entry has got, its stage: there is none,
the handshake is under way, it was surfaced and its stream is alive, or its stream was dropped; and
from the surfacing on, whether the connection is over. The stages make a small machine. A SYN opens
a free key; the post-pass moves every key by the state of its socket (`Stage.settle`); dropping the
stream is the only move of the application (`Stage.leave`).

* `tcp_stages` — **the registry runs this machine**: what a step of the stack does to the stage of
  a key is what the machine does, a key is opened only by a SYN of its own flow, and a key has a
  live stream exactly in the stages in which its stream is held;
* `tcp_stage_forward` — over whole runs, as long as the entry stays it only moves forward, and it
  keeps its socket;
* `sockets_owned` — **no socket is without an owner**: every TCP socket is that of one entry, which
  is opening, or left, or has one live stream; every UDP socket is held by a live session whose
  queue is open. With no stream and no session alive, all that is left is TCP entries that are
  opening or left, and the budget counts these only.
-/

namespace WayNetstack

open Lib Lib.Table Lib.Traced SessionManager Relation

variable {S : Smoltcp}

/-! ### Stages -/

/-- How far the life of an entry has got. -/
inductive Stage where
  /-- There is no entry. -/
  | free
  /-- The handshake is under way. -/
  | opening
  /-- It was surfaced and its stream is alive; whether the connection is over. -/
  | held (ended : Bool)
  /-- Its stream was dropped; whether the connection is over. -/
  | left (ended : Bool)
  deriving DecidableEq

namespace Stage

/-- The post-pass, by the state of the socket. -/
def settle (socket : State) : Stage → Stage
  | .free => .free
  | .opening => if socket = .established then .held false else .opening
  | .held ended => .held (ended || socket.closesEntry)
  | .left ended => if socket = .closed then .free else .left (ended || socket.closesEntry)

/-- The stream is dropped. -/
def leave : Stage → Stage
  | .held ended => .left ended
  | s => s

/-- How far that is. -/
def rank : Stage → ℕ
  | .free => 0
  | .opening => 1
  | .held ended => if ended then 3 else 2
  | .left ended => if ended then 5 else 4

theorem rank_settle (s : Stage) (socket : State) : s.settle socket = .free ∨ s.rank ≤ (s.settle socket).rank := by
  cases s with
  | free => exact .inl rfl
  | opening =>
    refine .inr ?_
    by_cases hs : socket = .established <;> simp [settle, rank, hs]
  | held ended =>
    refine .inr ?_
    cases ended <;> cases hc : socket.closesEntry <;> simp [settle, rank, hc]
  | left ended =>
    by_cases hs : socket = .closed
    · exact .inl (if_pos hs)
    · refine .inr ?_
      cases ended <;> cases hc : socket.closesEntry <;> simp [settle, rank, hs, hc]

theorem rank_leave (s : Stage) : s.rank ≤ s.leave.rank := by
  cases s with
  | free | opening | left => exact Nat.le_refl _
  | held ended => cases ended <;> decide

end Stage

/-- The stage of an entry. -/
def TcpEntry.stage (e : TcpEntry) : Stage :=
  match e.state with
  | .pending => .opening
  | .established => if e.orphaned then .left false else .held false
  | .closed => if e.orphaned then .left true else .held true

/-- The stage of a key. -/
def Core.stage (c : Core S) (k : SessionKey) : Stage := (c.manager.tcp.lookup k).elim .free TcpEntry.stage

theorem TcpEntry.stage_ne_free (e : TcpEntry) : e.stage ≠ .free := by
  unfold stage
  cases e.state with
  | pending => simp
  | established | closed => cases e.orphaned <;> simp

/-- A surfaced entry is left when its stream is dropped. -/
theorem TcpEntry.stage_leave {e : TcpEntry} (h : e.state ≠ .pending) (ho : e.orphaned = false) :
    ({ e with orphaned := true } : TcpEntry).stage = e.stage.leave := by
  cases hs : e.state with
  | pending => exact absurd hs h
  | established | closed => simp [stage, Stage.leave, hs, ho]

/-- What the post-pass does to a connection is what the machine does. -/
theorem settle_stage {p : Conn S} (h : p.1.state = .pending → p.1.orphaned = false) :
    (settle p).elim .free (fun q => q.1.stage) = p.1.stage.settle (S.tcpState p.2) := by
  obtain ⟨e, t⟩ := p
  unfold settle
  generalize S.tcpState t = s
  cases hstate : e.state with
  | pending =>
    have ho : e.orphaned = false := h hstate
    by_cases hs : s = .established <;>
      simp [TcpEntry.stage, TcpEntry.advance, Stage.settle, hstate, ho, hs]
  | established =>
    cases ho : e.orphaned with
    | false => cases hs : s.closesEntry <;> simp [TcpEntry.stage, TcpEntry.advance, Stage.settle, hstate, ho, hs]
    | true =>
      by_cases hc : s = .closed
      · simp [TcpEntry.stage, Stage.settle, hstate, ho, hc]
      · cases hs : s.closesEntry <;> simp [TcpEntry.stage, TcpEntry.advance, Stage.settle, hstate, ho, hs, hc]
  | closed =>
    cases ho : e.orphaned with
    | false => simp [TcpEntry.stage, TcpEntry.advance, Stage.settle, hstate, ho]
    | true => by_cases hc : s = .closed <;> simp [TcpEntry.stage, TcpEntry.advance, Stage.settle, hstate, ho, hc]

/-! ### Steps -/

/-- The key whose stream is dropped. -/
def Label.leaving : Label S → Option SessionKey
  | .dropStream st => some st.key
  | _ => none

section Steps

variable {w w' : World S} {l : Label S} {b : NetstackBuilder S} {k : SessionKey}

theorem Core.lookup_of_conn {c : Core S} {streams : List WayTcpStream} {sessions : List WayUdpSession}
    (hr : c.Registered streams sessions) : c.manager.tcp.lookup k = (c.conn k).map Prod.fst := by
  cases he : c.manager.tcp.lookup k with
  | none => rw [hr.conn_eq_none.mpr he]; rfl
  | some e =>
    obtain ⟨t, ht⟩ := hr.exists_conn he
    rw [ht]
    rfl

theorem Core.stage_of_conn {c : Core S} {streams : List WayTcpStream} {sessions : List WayUdpSession}
    (hr : c.Registered streams sessions) : c.stage k = (c.conn k).elim .free fun p => p.1.stage := by
  unfold Core.stage
  rw [Core.lookup_of_conn hr]
  cases c.conn k <;> rfl

/-- What a step other than a cycle does to the entry of a key. -/
theorem World.Inv.lookup_use (hS : S.Lawful) (hw : w.Inv False b) (h : Steps w l w')
    (hl : ∀ now polls, l ≠ .cycle now polls) (k : SessionKey) : w'.core.manager.tcp.lookup k =
      (w.core.manager.tcp.lookup k).map fun e => if l.leaving = some k then { e with orphaned := true } else e := by
  have hw' := (hw.step hS False.elim h).2
  have hkeep : ∀ (o : Option TcpEntry), l.leaving ≠ some k →
      o.map (fun e => if l.leaving = some k then { e with orphaned := true } else e) = o := by
    intro o hne
    simp [hne]
  rw [Core.lookup_of_conn hw'.registered, Core.lookup_of_conn hw.registered]
  rcases hw.conn_use hS h hl with ⟨hst, hsame⟩ | ⟨st, p, hst, hp, -, hrewired⟩
  · rw [hsame k, hkeep]
    cases l with
    | dropStream st => cases hst
    | _ => simp [Label.leaving]
  · rw [hrewired k]
    split
    · next heq =>
      subst heq
      rw [hp]
      cases l with
      | dropStream st' =>
        cases hst
        simp [Label.use, Label.leaving]
      | read | write | shutdown =>
        cases hst
        simp [Label.use, Label.leaving]
      | _ => cases hst
    · next hne =>
      rw [hkeep]
      cases l with
      | dropStream st' =>
        cases hst
        simpa [Label.leaving] using Ne.symm hne
      | _ => simp [Label.leaving]

/-- What a cycle does to the entry of a key: a free key may be opened by a SYN of its flow, and
then the post-pass settles it by the state that the poll leaves its socket in. -/
theorem World.Inv.cycle_stage (hS : S.Lawful) (hw : w.Inv False b) {now : Instant}
    {polls : InterfaceId → List (PollEvent S)} {r : Cycle S} (spec : CycleSpec w.core now polls r)
    (k : SessionKey) : ∃ stage socket,
      (stage = w.core.stage k ∨ w.core.stage k = .free ∧ stage = .opening ∧
        ∃ pkt, w.core.Queued k.interface pkt ∧ parseL4 S pkt = some (k.src, k.dst, .tcp true)) ∧
      (∀ e t, r.polled.conn k = some (e, t) → S.tcpState t = socket) ∧
      r.core.stage k = stage.settle socket ∧
      ∀ e e', w.core.manager.tcp.lookup k = some e → r.core.manager.tcp.lookup k = some e' →
        e'.handle = e.handle := by
  have hregs := spec.registered hS hw.registered
  have hpolled : ∀ p, r.polled.conn k = some p → ∃ t, r.admitted.1.conn k = some (p.1, t) := by
    intro p hp
    rw [spec.polled] at hp
    obtain ⟨e, t'⟩ := p
    obtain ⟨slot, t, -, ht, -, -⟩ := Core.conn_pollSlots hp hregs.admitted
    exact ⟨t, ht⟩
  have hadm := spec.admitted_conn hS hw.registered k
  have hcore := spec.conn hS hw.registered k
  rw [Core.stage_of_conn hregs.core, Core.stage_of_conn hw.registered, hcore,
    Core.lookup_of_conn hregs.core, Core.lookup_of_conn hw.registered, hcore]
  cases hp : r.polled.conn k with
  | none =>
    -- no entry at the poll, so none before it
    have hnone : w.core.conn k = none := by
      rcases hadm with heq | ⟨hnone, -⟩
      · cases hc : w.core.conn k with
        | none => rfl
        | some q =>
          obtain ⟨t, ht⟩ := Core.exists_conn_pollSlots (e := q.1) (t := q.2) (heq.trans hc) hregs.admitted polls
          rw [← spec.polled, hp] at ht
          cases ht
      · exact hnone
    rw [hnone]
    exact ⟨.free, .closed, .inl rfl, by simp, rfl, by simp⟩
  | some p =>
    obtain ⟨t, ht⟩ := hpolled p hp
    have hentry : r.polled.manager.tcp.lookup k = some p.1 := by
      rw [Core.lookup_of_conn hregs.polled, hp]
      rfl
    have hpending : p.1.state = .pending → p.1.orphaned = false := hregs.polled.tcp.pending hentry
    refine ⟨p.1.stage, S.tcpState p.2, ?_, ?_, settle_stage hpending, ?_⟩
    · rcases hadm with heq | ⟨hnone, q, hq, hfresh⟩
      · rw [← heq, ht]
        exact .inl rfl
      · cases ht.symm.trans hq
        rw [hnone]
        have hfirst : p.1.state = .pending := hfresh.pending
        refine .inr ⟨rfl, ?_, hfresh.syn⟩
        simp only [TcpEntry.stage, hfirst]
    · rintro e t' heq
      cases heq
      rfl
    · rintro e e' he he'
      have hold : w.core.conn k = some (p.1, t) := by
        rcases hadm with heq | ⟨hnone, -⟩
        · exact heq ▸ ht
        · rw [hnone] at he
          cases he
      rw [hold] at he
      cases he
      rw [Option.bind_some] at he'
      unfold settle at he'
      split at he'
      · cases he'
      · cases he'
        exact TcpEntry.advance_handle _ _

/-- A key has a live stream exactly in the stages in which its stream is held. -/
theorem World.Registered.held_iff (hw : w.Registered) :
    (∃ st ∈ w.streams, st.key = k) ↔ ∃ ended, w.core.stage k = .held ended := by
  constructor
  · rintro ⟨st, hst, rfl⟩
    obtain ⟨e, he, -, hsurf, ho⟩ := hw.tcp.stream hst
    have he : w.core.manager.tcp.lookup st.key = some e := he
    refine ⟨decide (e.state = .closed), ?_⟩
    unfold Core.stage
    rw [he]
    cases hstate : e.state with
    | pending => exact absurd hstate hsurf
    | established | closed => simp [TcpEntry.stage, hstate, ho]
  · rintro ⟨ended, hended⟩
    unfold Core.stage at hended
    cases he : w.core.manager.tcp.lookup k with
    | none =>
      rw [he] at hended
      cases hended
    | some e =>
      rw [he] at hended
      have hended : e.stage = .held ended := hended
      obtain ⟨hsurf, ho⟩ : e.state ≠ .pending ∧ e.orphaned = false := by
        cases hstate : e.state with
        | pending => simp [TcpEntry.stage, hstate] at hended
        | established | closed => cases ho : e.orphaned <;> simp [TcpEntry.stage, hstate, ho] at hended ⊢
      exact hw.tcp.holder he hsurf ho

/-- What a step other than a cycle does to the stage of a key. -/
theorem World.Inv.stage_use (hS : S.Lawful) (hw : w.Inv False b) (h : Steps w l w')
    (hl : ∀ now polls, l ≠ .cycle now polls) (k : SessionKey) :
    w'.core.stage k = if l.leaving = some k then (w.core.stage k).leave else w.core.stage k := by
  unfold Core.stage
  rw [hw.lookup_use hS h hl]
  split
  · next hleave =>
    obtain ⟨st, rfl, rfl⟩ : ∃ st, l = .dropStream st ∧ st.key = k := by
      cases l with
      | dropStream st => exact ⟨st, rfl, Option.some.inj hleave⟩
      | _ => cases hleave
    obtain ⟨e, he, -, hsurf, ho⟩ := hw.registered.tcp.stream (show st ∈ w.streams from h.1)
    have he : w.core.manager.tcp.lookup st.key = some e := he
    rw [he]
    exact TcpEntry.stage_leave hsurf ho
  · cases w.core.manager.tcp.lookup k <;> rfl

/-- **The registry runs the machine.** In every run and for every key: a cycle opens the key, if at
all, for a SYN of its own flow that is queued at its interface, and then settles it by the state in
which the poll leaves its socket; every other step leaves the stage as it is, but for the drop of
the key's stream; and the key has a live stream exactly in the stages in which it is held. -/
theorem tcp_stages (hS : S.Lawful) (h : World.AnyRun b w) (hstep : World.Steps w l w') (k : SessionKey) :
    (∀ now polls, l = .cycle now polls → ∃ r stage socket, (pollOnce w.core now polls).result = .ok r ∧
      (stage = w.core.stage k ∨ w.core.stage k = .free ∧ stage = .opening ∧
        ∃ pkt, w.core.Queued k.interface pkt ∧ parseL4 S pkt = some (k.src, k.dst, .tcp true)) ∧
      (∀ e t, r.polled.conn k = some (e, t) → S.tcpState t = socket) ∧
      w'.core.stage k = stage.settle socket) ∧
    ((∀ now polls, l ≠ .cycle now polls) →
      w'.core.stage k = if l.leaving = some k then (w.core.stage k).leave else w.core.stage k) ∧
    ((∃ st ∈ w.streams, st.key = k) ↔ ∃ ended, w.core.stage k = .held ended) := by
  have hw : w.Inv False b := World.Reachable.inv hS False.elim h
  refine ⟨?_, fun hl => hw.stage_use hS hstep hl k, hw.registered.held_iff⟩
  rintro now polls rfl
  cases (hw.step hS False.elim hstep).1 with
  | @cycle _ _ r result spec =>
    obtain ⟨stage, socket, hopen, hsock, hnext, -⟩ := hw.cycle_stage hS spec k
    exact ⟨r, stage, socket, result, hopen, hsock, hnext⟩

open Reference in
/-- The client's stream is dropped. -/
theorem tcp_stages_dropped : ∃ w w' : World reference, World.AnyRun (trial .default) w ∧
    World.Steps w (.dropStream (streamOf streamKey 0)) w' ∧
    w'.core.stage streamKey = (w.core.stage streamKey).leave ∧ w'.core.stage streamKey = .left false := by
  obtain ⟨w, w', hw, -, hstep, hcheck⟩ := World.exists_step_of_run (fun _ _ => True) (trial .default) openBoth
    (.dropStream (streamOf streamKey 0)) (fun w => decide (w.core.stage streamKey = .left false))
    (by decide +kernel)
  have hleave := (tcp_stages reference_lawful hw hstep streamKey).2.1 (by simp)
  exact ⟨w, w', hw, hstep, hleave.trans (if_pos rfl), of_decide_eq_true hcheck⟩

/-- While the entry stays, a step does not take its stage back, and leaves it its socket. -/
theorem World.Inv.forward (hS : S.Lawful) (hw : w.Inv False b) (h : Steps w l w') (hfree : w.core.stage k ≠ .free)
    (hfree' : w'.core.stage k ≠ .free) : (w.core.stage k).rank ≤ (w'.core.stage k).rank ∧
      ∀ e e', w.core.manager.tcp.lookup k = some e → w'.core.manager.tcp.lookup k = some e' →
        e'.handle = e.handle := by
  by_cases hl : ∃ now polls, l = .cycle now polls
  · obtain ⟨now, polls, rfl⟩ := hl
    cases (hw.step hS False.elim h).1 with
    | @cycle _ _ r result spec =>
      obtain ⟨stage, socket, hopen, -, hnext, hhandle⟩ := hw.cycle_stage hS spec k
      have hnext : (w.afterCycle r).core.stage k = stage.settle socket := hnext
      refine ⟨?_, hhandle⟩
      rcases hopen with rfl | ⟨hnone, -⟩
      · rw [hnext] at hfree' ⊢
        exact (Stage.rank_settle _ _).resolve_left hfree'
      · exact absurd hnone hfree
  · have hl' : ∀ now polls, l ≠ .cycle now polls := fun now polls heq => hl ⟨now, polls, heq⟩
    constructor
    · rw [hw.stage_use hS h hl']
      split
      · exact Stage.rank_leave _
      · exact Nat.le_refl _
    · intro e e' he he'
      rw [hw.lookup_use hS h hl', he, Option.map_some, Option.some.injEq] at he'
      rw [← he']
      split <;> rfl

/-- **An entry only moves forward.** From any world of a run, along every continuation in which a
key is never free: its stage never goes back, and its entry keeps the socket it has. -/
theorem tcp_stage_forward (hS : S.Lawful) (h : World.AnyRun b w)
    (hrun : (World.Steps.restrict fun w _ => w.core.stage k ≠ .free).Reaches w w')
    (hfree : w'.core.stage k ≠ .free) :
    (w.core.stage k).rank ≤ (w'.core.stage k).rank ∧
      ∀ e e', w.core.manager.tcp.lookup k = some e → w'.core.manager.tcp.lookup k = some e' →
        e'.handle = e.handle := by
  have key : w'.Inv False b ∧ (w'.core.stage k ≠ .free → (w.core.stage k).rank ≤ (w'.core.stage k).rank ∧
      ∀ e e', w.core.manager.tcp.lookup k = some e → w'.core.manager.tcp.lookup k = some e' →
        e'.handle = e.handle) := by
    refine System.Reaches.invariant (P := fun v : World S => v.Inv False b ∧ (v.core.stage k ≠ .free →
      (w.core.stage k).rank ≤ (v.core.stage k).rank ∧
      ∀ e e', w.core.manager.tcp.lookup k = some e → v.core.manager.tcp.lookup k = some e' →
        e'.handle = e.handle)) hrun ⟨World.Reachable.inv hS False.elim h, ?_⟩ ?_
    · exact fun _ => ⟨Nat.le_refl _, fun e e' he he' => by cases he.symm.trans he'; rfl⟩
    · rintro v l v' - ⟨hv, hold⟩ ⟨hne, hstep⟩
      refine ⟨(hv.step hS False.elim hstep).2, fun hne' => ?_⟩
      obtain ⟨hrank, hhandle⟩ := hold hne
      obtain ⟨hrank', hhandle'⟩ := hv.forward hS hstep hne hne'
      refine ⟨hrank.trans hrank', fun e e' he he' => ?_⟩
      cases hm : v.core.manager.tcp.lookup k with
      | none => exact absurd (by rw [Core.stage, hm]; rfl) hne
      | some e₁ => exact (hhandle' e₁ e' hm he').trans (hhandle e e₁ he hm)
  exact key.2 hfree

open Reference in
/-- A handshake is completed. -/
theorem tcp_stage_forward_surfaced : ∃ w w' : World reference, World.AnyRun (trial .default) w ∧
    w.core.stage streamKey = .opening ∧ w'.core.stage streamKey = .held false ∧
    ∀ e e', w.core.manager.tcp.lookup streamKey = some e → w'.core.manager.tcp.lookup streamKey = some e' →
      e'.handle = e.handle := by
  obtain ⟨w, hw, hcheck⟩ := World.exists_of_run (fun _ _ => True) (trial .default)
    [fromClient client syn, cycle 0 [takes 0 (connected 16384 client .synReceived)], fromClient client ack]
    (fun w => decide (w.core.stage streamKey = .opening) &&
      (w.next (cycle 1 [takes 0 (connected 16384 client .established)])).any fun w' : World reference =>
        decide (w'.core.stage streamKey = .held false)) (by decide +kernel)
  rw [Bool.and_eq_true, decide_eq_true_eq] at hcheck
  obtain ⟨w', hnext, hheld⟩ := (Option.any_eq_true _ _).mp hcheck.2
  have hheld : w'.core.stage streamKey = .held false := of_decide_eq_true hheld
  have hrun : (World.Steps.restrict fun w _ => w.core.stage streamKey ≠ .free).Reaches w w' :=
    System.Reaches.step (.refl _ _) ⟨by simp [hcheck.1], World.steps_of_next hnext⟩
  exact ⟨w, w', hw, hcheck.1, hheld,
    (tcp_stage_forward reference_lawful hw hrun (by rw [hheld]; simp)).2⟩

/-! ### Owners -/

/-- An entry is opening, or left, or its stream is held. -/
theorem World.Registered.stage_cases {e : TcpEntry} (hw : w.Registered)
    (he : w.core.manager.tcp.lookup k = some e) :
    w.core.stage k = .opening ∨ (∃ ended, w.core.stage k = .left ended) ∨
      ∃! st, st ∈ w.streams ∧ st.key = k ∧ st.handle = e.handle := by
  cases hstage : w.core.stage k with
  | free =>
    unfold Core.stage at hstage
    rw [he] at hstage
    exact absurd hstage (TcpEntry.stage_ne_free e)
  | opening => exact .inl rfl
  | left ended => exact .inr (.inl ⟨ended, rfl⟩)
  | held ended =>
    obtain ⟨st, hst, rfl⟩ := hw.held_iff.mpr ⟨ended, hstage⟩
    obtain ⟨e', he', heq, -⟩ := hw.tcp.stream hst
    have hsame : e' = e := Option.some.inj (he'.symm.trans he)
    refine .inr (.inr ⟨st, ⟨hst, rfl, ?_⟩, ?_⟩)
    · rw [heq, ← hsame]
      rfl
    · rintro st' ⟨hst', hk, -⟩
      exact List.inj_on_of_nodup_map hw.tcp.distinct hst' hst hk

/-- A UDP socket is held by a live session whose queue is open. -/
theorem World.Registered.udp_owner (hw : w.Registered) {i : InterfaceId} {hd : SocketHandle}
    (hp : w.core.protoAt i hd = some .udp) : ∃ ses ∈ w.sessions,
      ses.interface = i ∧ ses.socket = hd ∧ w.core.queues.isClosed ses.queue = false := by
  -- the socket is shared, so it has an entry, and the entry has its object
  obtain ⟨ep, n, hn⟩ := hw.udp.owned hp
  obtain ⟨k, e, he, hk⟩ := (hw.udp.counted.lookup_isSome_iff (i, ep)).mp ⟨hd, n, hn⟩
  obtain ⟨ses, hses, rfl, hq⟩ := hw.udp.holder he
  have hopen : w.core.queues.isClosed ses.queue = false := by
    rw [isClosed_eq, hq, show (w.core.queues.map (·.closed))[e.queue]? = some false from hw.udp.isOpen he]
    rfl
  obtain ⟨e', he', -, hsock⟩ := hw.session_entry hses hopen
  have hsame : e' = e := Option.some.inj (he'.symm.trans he)
  obtain ⟨m, hm⟩ := hw.udp.counted.held he
  rw [hk, hn, Option.some.injEq, Prod.mk.injEq] at hm
  refine ⟨ses, hses, ?_, ?_, hopen⟩
  · rw [hw.session_interface hses]
    exact congrArg Prod.fst hk
  · rw [← hsock, hsame, hm.1]

/-- **No socket is without an owner.** In every world of a run: a TCP socket is that of exactly one
entry, which is opening, or left, or has a live stream, and then exactly one, with that very
handle; a UDP socket is held by a live session object whose queue is open. So with no stream and
no session alive there is no UDP socket, every entry is opening or left, and the budget counts
these entries only. -/
theorem sockets_owned (hS : S.Lawful) (hB : S.Binds) (h : World.AnyRun b w) :
    (∀ i hd, w.core.protoAt i hd = some .tcp → ∃! k, k.interface = i ∧
      ∃ e, w.core.manager.tcp.lookup k = some e ∧ e.handle = hd ∧
        (w.core.stage k = .opening ∨ (∃ ended, w.core.stage k = .left ended) ∨
          ∃! st, st ∈ w.streams ∧ st.key = k ∧ st.handle = e.handle)) ∧
    (∀ i hd, w.core.protoAt i hd = some .udp → ∃ ses ∈ w.sessions,
      ses.interface = i ∧ ses.socket = hd ∧ w.core.queues.isClosed ses.queue = false) ∧
    (w.streams = [] → w.sessions = [] →
      (∀ i hd, w.core.protoAt i hd ≠ some .udp) ∧
      (∀ k e, w.core.manager.tcp.lookup k = some e →
        w.core.stage k = .opening ∨ ∃ ended, w.core.stage k = .left ended) ∧
      w.core.bufferBytes = 2 * b.config.tcpBufferSize * len w.core.manager.tcp) := by
  have hw : w.Inv True b := World.Reachable.inv hS (fun _ => hB) h
  refine ⟨?_, fun i hd => hw.registered.udp_owner, ?_⟩
  · intro i hd hp
    obtain ⟨k, e, he, rfl, rfl⟩ := hw.registered.tcp.owned hp
    refine ⟨k, ⟨rfl, e, he, rfl, hw.registered.stage_cases he⟩, ?_⟩
    rintro k' ⟨hi, e', he', hh, -⟩
    exact hw.registered.tcp.inj he' he hi hh
  · intro hstreams hsessions
    refine ⟨?_, ?_, ?_⟩
    · intro i hd hp
      obtain ⟨ses, hses, -⟩ := hw.registered.udp_owner hp
      rw [hsessions] at hses
      cases hses
    · intro k e he
      rcases hw.registered.stage_cases he with hopening | hleft | ⟨st, ⟨hst, -⟩, -⟩
      · exact .inl hopening
      · exact .inr hleft
      · rw [hstreams] at hst
        cases hst
    · have hnone : len w.core.manager.udp = 0 := by
        rw [len_eq_zero]
        refine List.eq_nil_iff_forall_not_mem.mpr fun p hp => ?_
        obtain ⟨ses, hses, -⟩ := hw.registered.udp.holder (k := p.1) (e := p.2) (lookup_eq_some.mpr hp)
        rw [hsessions] at hses
        cases hses
      have hbal := hw.budgeted.balance trivial
      rw [Core.charge, hw.config, shared_empty hw.registered hnone] at hbal
      rw [hbal, Nat.mul_zero, Nat.zero_add, Nat.add_zero]
      rfl

open Reference in
/-- Two streams were dropped: their entries are all that the budget counts. -/
theorem sockets_owned_dropTwo : ∃ w : World reference, World.AnyRun (trial .default) w ∧
    len w.core.manager.tcp = 2 ∧ w.core.bufferBytes = 2 * 16384 * 2 ∧
    ∀ k e, w.core.manager.tcp.lookup k = some e →
      w.core.stage k = .opening ∨ ∃ ended, w.core.stage k = .left ended := by
  obtain ⟨w, hw, hcheck⟩ := World.exists_of_run (fun _ _ => True) (trial .default) dropTwo
    (fun w => decide (w.streams = [] ∧ w.sessions = [] ∧ len w.core.manager.tcp = 2)) (by decide +kernel)
  obtain ⟨hstreams, hsessions, hlen⟩ := of_decide_eq_true hcheck
  obtain ⟨-, hstages, hbytes⟩ :=
    (sockets_owned reference_lawful reference_binds hw).2.2 hstreams hsessions
  rw [hlen] at hbytes
  exact ⟨w, hw, hlen, hbytes, hstages⟩

end Steps

end WayNetstack

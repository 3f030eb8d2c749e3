import WayNetstack.Runner.Deadlines
import WayNetstack.Udp.Replies

/-!
# Inactivity

The post-pass ends the UDP sessions that have been inactive for longer than
`udp_session_timeout`. What it goes by is `last_activity`, which is written when the session is
made and when a datagram is routed to its queue; `send` does not write it.

`udp_reaped_iff_inactive`: in every run whose clock does not go back, each sweep ends just the
sessions that have neither been made nor heard for longer than the timeout. So it ends **just the
inactive ones if whoever was spoken to was heard as well**: a session through which datagrams are
only sent is ended in the middle of its traffic.

The times of creation, routing and sending are kept by an observer (`watchActivity`), not read off
the entries.
-/

namespace WayNetstack

open Lib Lib.Table Lib.Traced Relation

variable {S : Smoltcp}

/-! ### The observer -/

/-- What has been seen of the traffic of the sessions. -/
structure Activity where
  clock : Instant
  /-- When the session was made, or a datagram was last routed to its queue. -/
  heard : SessionKey → Instant
  /-- When `send` last returned `Ok`. -/
  spoken : SessionKey → Option Instant

/-- The pre-pass of the cycle made the session. -/
def Cycle.Made (c : Core S) (r : Cycle S) (k : SessionKey) : Prop :=
  c.manager.udp.lookup k = none ∧ (r.admitted.1.manager.udp.lookup k).isSome

instance (c : Core S) (r : Cycle S) (k : SessionKey) : Decidable (r.Made c k) :=
  inferInstanceAs (Decidable (_ ∧ _))

namespace Activity

/-- The latest of the session's creation, the last datagram routed to its queue and the last one
sent through it. -/
def last (m : Activity) (k : SessionKey) : Instant := (m.spoken k).elim (m.heard k) (max (m.heard k))

/-- A cycle at `now`, as far as its redistribution. -/
def cycle (m : Activity) (now : Instant) (c : Core S) (r : Cycle S) : Activity where
  clock := now
  heard k := if r.Made c k ∨ r.polled.heldFor k ≠ [] then now else m.heard k
  spoken k := if r.Made c k then none else m.spoken k

/-- A datagram is sent at `now`. -/
def send (m : Activity) (now : Instant) (k : SessionKey) : Activity :=
  { m with clock := now, spoken := Function.update m.spoken k (some now) }

end Activity

/-- The label can be that of a step at time `t`. -/
def Label.TakenAt (t : Instant) : Label S → Prop
  | .cycle now _ => now = t
  | _ => True

instance (t : Instant) : ∀ l : Label S, Decidable (l.TakenAt t)
  | .cycle now _ => inferInstanceAs (Decidable (now = t))
  | .ingress _ | .read _ _ _ | .write _ _ _ | .shutdown _ | .dropStream _ | .send _ _ | .recv _
  | .dropSession _ | .rehash _ => inferInstanceAs (Decidable True)

namespace World

/-- The stack with the time of each step. -/
def TimedSteps : System (World S) (Instant × Label S) := fun w x w' => x.2.TakenAt x.1 ∧ Steps w x.2 w'

/-- The observer of the traffic. -/
def watchActivity (w : World S) (x : Instant × Label S) (_ : World S) (m : Activity) : Activity :=
  match x.2 with
  | .cycle now polls => (pollOnce w.core now polls).result.toOption.elim m (m.cycle now w.core)
  | .send ses payload =>
    if (ses.trySend w.core payload ses.target).result.toOption.any (fun r => decide (r.2 = .sent)) then
      m.send x.1 ses.key
    else { m with clock := x.1 }
  | _ => { m with clock := x.1 }

/-- The runs whose clock starts at `t₀` and does not go back. -/
def ClockRun (b : NetstackBuilder S) (t₀ : Instant) (s : World S × Activity) : Prop :=
  ((TimedSteps.observe watchActivity).restrict fun s x => s.2.clock ≤ x.1).Reaches
    (init b, ⟨t₀, fun _ => t₀, fun _ => none⟩) s

end World

/-! ### What the entries record -/

/-- An entry after the pre-pass was there before it, or was made in it. -/
theorem Admits.udp_or_made {c : Core S} {now : Instant} {queued : InterfaceId → Bytes → Prop}
    {st : Core S × List Session} (hrun : ReflTransGen (Admit now queued) (c, []) st) {k : SessionKey}
    {e : UdpEntry} (he : st.1.manager.udp.lookup k = some e) :
    c.manager.udp.lookup k = some e ∨ c.manager.udp.lookup k = none ∧ e.lastActivity = now := by
  have hkeep := run_keeps (P := fun st : Core S × List Session =>
      (∀ e, c.manager.udp.lookup k = some e → st.1.manager.udp.lookup k = some e) ∧
      ∀ e, st.1.manager.udp.lookup k = some e →
        c.manager.udp.lookup k = some e ∨ c.manager.udp.lookup k = none ∧ e.lastActivity = now) ?_ hrun
      ⟨fun _ => id, fun _ => .inl⟩
  · exact hkeep.2 e he
  rintro st st' hstep ⟨hold, hnew⟩
  refine ⟨fun e he => Admits.keeps_udp (.single hstep) (hold e he), fun e he => ?_⟩
  -- a new entry is for a key that had none
  have hinsert : ∀ {t : Table SessionKey UdpEntry} {key : SessionKey} {v : UdpEntry},
      (t.insert key v).lookup k = some e → v.lastActivity = now → st.1.manager.udp.lookup key = none →
      t = st.1.manager.udp →
      c.manager.udp.lookup k = some e ∨ c.manager.udp.lookup k = none ∧ e.lastActivity = now := by
    rintro t key v hlook hv hnone rfl
    rw [lookup_insert'] at hlook
    split at hlook
    · next heq =>
      cases hlook
      refine .inr ⟨?_, hv⟩
      rw [Option.eq_none_iff_forall_ne_some]
      intro e' he'
      rw [heq] at hold he'
      cases hnone.symm.trans (hold e' he')
    · exact hnew e hlook
  cases hstep with
  | device | spoil | leak | tcp => exact hnew e he
  | udpNew hs hid hq hp new room fresh | udpJoin hs hid hq hp new => exact hinsert he rfl new rfl

/-- Only a cycle makes or touches entries. -/
theorem World.Does.udp_of_not_cycle {w w' : World S} {l : Label S} (hdoes : w.Does l w')
    (hl : ∀ now polls, l ≠ .cycle now polls) {k : SessionKey} {e : UdpEntry}
    (he : w'.core.manager.udp.lookup k = some e) : w.core.manager.udp.lookup k = some e := by
  cases hdoes with
  | cycle => exact absurd rfl (hl _ _)
  | ingress pkt =>
    rcases queueIngress_eq w.core pkt with heq | ⟨slot, -, heq⟩
    · exact heq ▸ he
    · have he : (queueIngress w.core pkt).manager.udp.lookup k = some e := he
      rw [heq] at he
      exact he
  | read alive touch | write alive touch | shutdown alive touch =>
    cases touch with
    | same | put => exact he
  | dropStream alive drop =>
    cases drop with
    | drop => exact he
  | send alive result send =>
    cases send with
    | refused | sent => exact he
  | @recv ses alive =>
    obtain ⟨-, hm, -⟩ := popQueue_frame ses w.core
    exact hm ▸ he
  | dropSession alive drop =>
    cases drop with
    | gone => exact he
    | ended hstep hlook => exact hstep.shrinks.2.2 k e he
  | rehash same => exact (same.udp.lookup k).trans he

namespace Activity

variable {w : World S} {m : Activity} {k : SessionKey} {e : UdpEntry}

/-- The entries record when their sessions were made or last heard, and no time lies in the
future. -/
structure Recorded (w : World S) (m : Activity) : Prop where
  entry : ∀ k e, w.core.manager.udp.lookup k = some e → e.lastActivity = m.heard k
  heard : ∀ k, m.heard k ≤ m.clock
  spoken : ∀ k, ∀ t ∈ m.spoken k, t ≤ m.clock

theorem cycle_heard_le {now : Instant} (hm : ∀ k, m.heard k ≤ m.clock) (hclock : m.clock ≤ now) (c : Core S)
    (r : Cycle S) (k : SessionKey) : (m.cycle now c r).heard k ≤ now := by
  show (if _ then now else m.heard k) ≤ now
  split
  · exact le_rfl
  · exact (hm k).trans hclock

section Sweep

variable {now : Instant} {polls : InterfaceId → List (PollEvent S)} {r : Cycle S}

/-- The entry that the sweep sees records when the session was made or last heard, this cycle
included. -/
theorem Recorded.touched (hm : Recorded w m) (hspec : CycleSpec w.core now polls r)
    (he : r.polled.manager.udp.lookup k = some e) :
    (if r.polled.heldFor k = [] then e else { e with lastActivity := now }).lastActivity =
      (m.cycle now w.core r).heard k := by
  show _ = if r.Made w.core k ∨ r.polled.heldFor k ≠ [] then now else m.heard k
  by_cases hheld : r.polled.heldFor k = []
  · rw [if_pos hheld]
    rw [hspec.polled] at he
    have he : r.admitted.1.manager.udp.lookup k = some e := he
    rcases Admits.udp_or_made hspec.admitted he with hold | ⟨hnone, hnow⟩
    · have hnot : ¬(r.Made w.core k ∨ r.polled.heldFor k ≠ []) := by
        rintro (⟨hnone, -⟩ | hne)
        · cases hnone.symm.trans hold
        · exact hne hheld
      rw [if_neg hnot]
      exact hm.entry k e hold
    · rw [if_pos (.inl ⟨hnone, he ▸ rfl⟩)]
      exact hnow
  · rw [if_neg hheld, if_pos (.inr hheld)]

/-- **What the sweep goes by**: the session is ended just when it was made and last heard longer
ago than the timeout. -/
theorem Recorded.settled (hC : S.Clock) (ht : w.core.config.udpTimeout < 2 ^ 64) (hm : Recorded w m)
    (hclock : m.clock ≤ now) (hspec : CycleSpec w.core now polls r)
    (he : r.polled.manager.udp.lookup k = some e) : r.polled.settled now k e = none ↔
      (w.core.config.udpTimeout : ℤ) < now - (m.cycle now w.core r).heard k := by
  have hconfig : r.polled.config = w.core.config := by
    rw [hspec.polled]
    exact Admits.config hspec.admitted
  have hle := cycle_heard_le hm.heard hclock w.core r k
  rw [← hm.touched hspec he] at hle ⊢
  unfold Core.settled
  simp only [hconfig]
  rw [ite_eq_left_iff]
  simp only [reduceCtorEq, imp_false, not_not]
  rw [UdpEntry.expiredAt_iff hC ht hle]
  exact ⟨Int.lt_sub_left_of_add_lt, Int.add_lt_of_lt_sub_left⟩

/-- A cycle. -/
theorem Recorded.cycle (hm : Recorded w m) (hclock : m.clock ≤ now) (hout : r.Outcome w.core now polls)
    (hspec : CycleSpec w.core now polls r) : Recorded (w.afterCycle r) (m.cycle now w.core r) := by
  refine ⟨fun k e he => ?_, cycle_heard_le hm.heard hclock w.core r, fun k t ht => ?_⟩
  · have he : r.core.manager.udp.lookup k = some e := he
    rw [hout.core] at he
    have he : r.post.core.manager.udp.lookup k = some e := he
    rw [hout.post.udp] at he
    obtain ⟨e₀, he₀, hset⟩ := Option.bind_eq_some_iff.mp he
    rw [← hm.touched hspec he₀]
    unfold Core.settled at hset
    simp only [Option.ite_none_left_eq_some, Option.some.injEq] at hset
    rw [hset.2]
  · have ht : (if r.Made w.core k then none else m.spoken k) = some t := ht
    split at ht
    · cases ht
    · exact (hm.spoken k t ht).trans hclock

end Sweep

/-- A step that makes and touches no entry, at a later time. -/
theorem Recorded.later {w' : World S} {t : Instant} {m' : Activity} (hm : Recorded w m) (ht : m.clock ≤ t)
    (hold : ∀ k e, w'.core.manager.udp.lookup k = some e → w.core.manager.udp.lookup k = some e)
    (hclock : m'.clock = t) (hheard : m'.heard = m.heard)
    (hspoken : ∀ k, ∀ t' ∈ m'.spoken k, t' = t ∨ t' ∈ m.spoken k) : Recorded w' m' := by
  refine ⟨fun k e he => ?_, fun k => ?_, fun k t' ht' => ?_⟩
  · rw [hheard]
    exact hm.entry k e (hold k e he)
  · rw [hheard, hclock]
    exact (hm.heard k).trans ht
  · rw [hclock]
    rcases hspoken k t' ht' with rfl | hold
    · exact le_rfl
    · exact (hm.spoken k t' hold).trans ht

/-- **The entries keep their record** in every step of a run. -/
theorem Recorded.step (hS : S.Lawful) {w' : World S} {x : Instant × Label S} (hw : w.Registered)
    (hdoes : w.Does x.2 w') (htaken : x.2.TakenAt x.1) (hclock : m.clock ≤ x.1) (hm : Recorded w m) :
    Recorded w' (World.watchActivity w x w' m) := by
  obtain ⟨t, l⟩ := x
  cases l with
  | cycle now polls =>
    cases hdoes with
    | @cycle _ _ r result spec =>
      obtain rfl : now = t := htaken
      obtain ⟨r', hr', hout, -⟩ := pollOnce_outcome hS hw now polls
      cases result.symm.trans hr'
      show Recorded _ ((pollOnce w.core now polls).result.toOption.elim m (m.cycle now w.core))
      rw [result]
      exact hm.cycle hclock hout spec
  | send ses payload =>
    have hold : ∀ k e, w'.core.manager.udp.lookup k = some e → w.core.manager.udp.lookup k = some e :=
      fun k e he => hdoes.udp_of_not_cycle nofun he
    show Recorded _ (if _ then m.send t ses.key else { m with clock := t })
    split
    · refine hm.later hclock hold rfl rfl fun k t' ht' => ?_
      have ht' : Function.update m.spoken ses.key (some t) k = some t' := ht'
      by_cases hk : k = ses.key
      · subst hk
        rw [Function.update_self] at ht'
        exact .inl (Option.some.inj ht').symm
      · rw [Function.update_of_ne hk] at ht'
        exact .inr ht'
    · exact hm.later hclock hold rfl rfl fun _ _ => .inr
  | ingress | read | write | shutdown | dropStream | recv | dropSession | rehash =>
    exact hm.later hclock (fun k e he => hdoes.udp_of_not_cycle nofun he) rfl rfl fun _ _ => .inr

end Activity

/-- What holds in every run whose clock does not go back. -/
theorem World.ClockRun.recorded (hS : S.Lawful) {b : NetstackBuilder S} {t₀ : Instant} {s : World S × Activity}
    (hs : World.ClockRun b t₀ s) : s.1.Inv False b ∧ Activity.Recorded s.1 s.2 := by
  refine System.Reaches.invariant (P := fun s : World S × Activity => s.1.Inv False b ∧ s.2.Recorded s.1) hs ?_ ?_
  · refine ⟨World.Reachable.inv hS False.elim (System.Reaches.refl _ _ : World.AnyRun b _), ?_,
      fun _ => le_rfl, nofun⟩
    intro k e he
    cases he
  · rintro s x t - ⟨hw, hm⟩ ⟨hclock, ⟨htaken, hstep⟩, hobs⟩
    obtain ⟨hdoes, hw'⟩ := hw.step hS False.elim hstep
    rw [hobs]
    exact ⟨hw', hm.step hS hw.registered hdoes htaken hclock⟩

/-- The later of two moments is overdue together with the first, just when the second makes no
difference. -/
theorem overdue_max_iff (timeout now heard t : ℤ) : (timeout < now - heard ↔ timeout < now - max heard t) ↔
    (now - t ≤ timeout → now - heard ≤ timeout) := by
  constructor
  · intro hiff hspoken
    by_contra hheard
    have hlast := hiff.mp (by omega)
    omega
  · intro hheard
    refine ⟨fun hlt => ?_, fun hlt => by omega⟩
    by_contra hlast
    have hle := hheard (by omega)
    omega

/-- **Sessions are ended when they are inactive, if whoever is spoken to is heard.** Let the timeout be
one that the engine can count to. In every run whose clock does not go back, for each session that
the sweep of a cycle at `now` sees: its entry is removed just when it was made and last heard longer
ago than the timeout; and so, just when the latest of its creation, of the datagrams routed to it
and of those sent through it is longer ago than the timeout, if and only if a session spoken to
within the timeout was made or heard within it, this cycle included. -/
theorem udp_reaped_iff_inactive (hS : S.Lawful) (hC : S.Clock) {b : NetstackBuilder S}
    (ht : b.config.udpTimeout < 2 ^ 64) {t₀ : Instant} {s : World S × Activity} (hs : World.ClockRun b t₀ s)
    {now : Instant} (hclock : s.2.clock ≤ now)
    {polls : InterfaceId → List (PollEvent S)} {r : Cycle S} (hr : (pollOnce s.1.core now polls).result = .ok r)
    {k : SessionKey} {e : UdpEntry} (he : r.polled.manager.udp.lookup k = some e) :
    (r.core.manager.udp.lookup k = none ↔
      (b.config.udpTimeout : ℤ) < now - (s.2.cycle now s.1.core r).heard k) ∧
    ((r.core.manager.udp.lookup k = none ↔
        (b.config.udpTimeout : ℤ) < now - (s.2.cycle now s.1.core r).last k) ↔
      ∀ t ∈ (s.2.cycle now s.1.core r).spoken k, now - t ≤ (b.config.udpTimeout : ℤ) →
        now - (s.2.cycle now s.1.core r).heard k ≤ (b.config.udpTimeout : ℤ)) := by
  obtain ⟨hw, hm⟩ := hs.recorded hS
  obtain ⟨r', hr', hout, -⟩ := pollOnce_outcome hS hw.registered now polls
  cases hr.symm.trans hr'
  have hspec := ((pollOnce_ok hS False.elim hw.registered hw.budgeted now polls).post hr).1
  have hremoved : r.core.manager.udp.lookup k = none ↔
      (b.config.udpTimeout : ℤ) < now - (s.2.cycle now s.1.core r).heard k := by
    rw [← hw.config, ← hm.settled hC (hw.config.symm ▸ ht) hclock hspec he, hout.core]
    show r.post.core.manager.udp.lookup k = none ↔ _
    rw [hout.post.udp, he]
    exact Iff.rfl
  refine ⟨hremoved, ?_⟩
  rw [hremoved]
  unfold Activity.last
  cases (s.2.cycle now s.1.core r).spoken k with
  | none => exact iff_of_true Iff.rfl nofun
  | some t =>
    simp only [Option.elim_some, Option.mem_some_iff, forall_eq']
    exact overdue_max_iff _ _ _ _

/-! ### Computed runs -/

/-- Compute a step at a time. -/
def World.timedNext (w : World S) (x : Instant × Label S) : Option (World S) :=
  if x.2.TakenAt x.1 then w.next x.2 else none

theorem World.timedSteps_of_next {w w' : World S} {x : Instant × Label S} (h : w.timedNext x = some w') :
    TimedSteps w x w' := by
  unfold timedNext at h
  split at h
  · next htaken => exact ⟨htaken, steps_of_next h⟩
  · cases h

/-- A world found by computing a run with a clock. -/
theorem World.exists_clockRun (b : NetstackBuilder S) (xs : List (Instant × Label S))
    (check : World S × Activity → Bool)
    (h : (System.compute timedNext watchActivity (fun s x => s.2.clock ≤ x.1)
      (init b, ⟨0, fun _ => 0, fun _ => none⟩) xs).any check = true) :
    ∃ s, ClockRun b 0 s ∧ check s = true :=
  System.exists_of_compute timedSteps_of_next h

namespace Reference

/-- The key of the client's session. -/
def clientUdpKey : SessionKey := ⟨eth, .udp, client, server⟩

/-- A client opens a session at time 0. -/
def opened : List (Instant × Label reference) :=
  [(0, .ingress ⟨eth, udpPacket client server [1]⟩),
    (0, .cycle 0 fun _ => [hears 0 [([1], client)]])]

/-- Twenty seconds later the application sends a datagram, which goes out at once. -/
def answered : List (Instant × Label reference) :=
  opened ++ [(20000000, .send (sessionOf clientUdpKey 0 0) [2]),
    (20000001, .cycle 20000001 fun _ => [.egress 0 (.udp (udpSocket [] [])),
      .transmit (udpPacket server client [2])])]

/-- The sweep at 31 seconds ends the client's session, whose last activity was at `t`. -/
def endsAt31 (t : Instant) (s : World reference × Activity) : Bool :=
  (pollOnce s.1.core 31000000 fun _ => []).result.toOption.any fun r =>
    (r.polled.manager.udp.lookup clientUdpKey).isSome && (r.core.manager.udp.lookup clientUdpKey).isNone &&
      decide ((s.2.cycle 31000000 s.1.core r).last clientUdpKey = t)

theorem exists_of_endsAt31 {t : Instant} {s : World reference × Activity} (h : endsAt31 t s = true) :
    ∃ r e, (pollOnce s.1.core 31000000 fun _ => []).result = .ok r ∧
      r.polled.manager.udp.lookup clientUdpKey = some e ∧ r.core.manager.udp.lookup clientUdpKey = none ∧
      (s.2.cycle 31000000 s.1.core r).last clientUdpKey = t := by
  obtain ⟨r, hr, h⟩ := (Option.any_eq_true _ _).mp h
  simp only [Bool.and_eq_true, decide_eq_true_eq, Option.isNone_iff_eq_none] at h
  obtain ⟨⟨he, hnone⟩, hlast⟩ := h
  obtain ⟨e, he⟩ := Option.isSome_iff_exists.mp he
  exact ⟨r, e, toOption_eq_some.mp hr, he, hnone, hlast⟩

end Reference

open Reference in
/-- A session with no traffic for 31 seconds is ended, and is inactive. -/
theorem udp_reaped_iff_inactive_idle : ∃ (s : World reference × Activity) (r : Cycle reference),
    World.ClockRun (trial .default) 0 s ∧ (pollOnce s.1.core 31000000 fun _ => []).result = .ok r ∧
      r.core.manager.udp.lookup clientUdpKey = none ∧
      (NetstackConfig.default.udpTimeout : ℤ) <
        31000000 - (s.2.cycle 31000000 s.1.core r).last clientUdpKey := by
  obtain ⟨s, hs, hcheck⟩ := World.exists_clockRun (trial .default) opened
    (fun s => decide (s.2.clock ≤ 31000000 ∧ s.2.spoken clientUdpKey = none) && endsAt31 0 s) (by decide +kernel)
  obtain ⟨hcheck, hends⟩ := Bool.and_eq_true_iff.mp hcheck
  obtain ⟨hclock, hspoken⟩ := of_decide_eq_true hcheck
  obtain ⟨r, e, hr, he, hnone, -⟩ := exists_of_endsAt31 hends
  obtain ⟨-, hiff⟩ := udp_reaped_iff_inactive reference_lawful reference_clock (by decide) hs hclock hr he
  refine ⟨s, r, hs, hr, hnone, (hiff.mpr fun t ht => ?_).mp hnone⟩
  have ht : (if r.Made s.1.core clientUdpKey then none else s.2.spoken clientUdpKey) = some t := ht
  rw [hspoken, ite_self] at ht
  cases ht

open Reference in
/-- **A session ended in the middle of its traffic.** A datagram was sent through it eleven seconds
before, and the timeout is thirty. -/
theorem spoken_session_reaped : ∃ (s : World reference × Activity) (r : Cycle reference) (e : UdpEntry),
    World.ClockRun (trial .default) 0 s ∧ s.2.clock ≤ 31000000 ∧
      (pollOnce s.1.core 31000000 fun _ => []).result = .ok r ∧
      r.polled.manager.udp.lookup clientUdpKey = some e ∧ r.core.manager.udp.lookup clientUdpKey = none ∧
      (s.2.cycle 31000000 s.1.core r).last clientUdpKey = 20000000 ∧
      31000000 - (20000000 : ℤ) ≤ (NetstackConfig.default.udpTimeout : ℤ) := by
  obtain ⟨s, hs, hcheck⟩ := World.exists_clockRun (trial .default) answered
    (fun s => decide (s.2.clock ≤ 31000000) && endsAt31 20000000 s) (by decide +kernel)
  obtain ⟨hclock, hends⟩ := Bool.and_eq_true_iff.mp hcheck
  obtain ⟨r, e, hr, he, hnone, hlast⟩ := exists_of_endsAt31 hends
  exact ⟨s, r, e, hs, of_decide_eq_true hclock, hr, he, hnone, hlast, by decide⟩

end WayNetstack

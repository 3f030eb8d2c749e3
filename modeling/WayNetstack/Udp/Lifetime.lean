import WayNetstack.Registry.Runs

/-!
# How a UDP session ends

A session should be ended by its own drop or by its own timeout and by nothing else.
`WayUdpSession::drop` looks the entry up by the session's key, and keys are used
again: after the sweep has expired a session, a new datagram opens another one under
the same key, and the old object's drop then ends the new session.

The observer `watchExpired` notes the queues of the sessions the sweeps expire.
`udp_sessions_end_alone` says that sessions end only as they should along every run
in which each dropped object finds no entry under its key or its own, and that the
first drop that finds another session's entry ends that session.
-/

namespace WayNetstack

open Lib Lib.Table Lib.Traced SessionManager Relation World

variable {S : Smoltcp}

/-! ### Observing the sweep -/

/-- The queues of the entries that the sweep of a cycle at `now` removes. -/
def Cycle.expired (r : Cycle S) (now : Instant) : List QueueRef :=
  (expiredKeys r.post.routed now).filterMap fun k =>
    (r.post.routed.manager.udp.lookup k).map (·.queue)

/-- Note the sessions expired, by their queues. -/
def watchExpired : Observer S (List QueueRef) := fun w l _ expired =>
  match l with
  | .cycle now polls =>
    match (pollOnce w.core now polls).result with
    | .ok r => expired ++ r.expired now
    | .error _ => expired
  | _ => expired

/-- A dropped session finds no entry under its key, or its own. -/
def OwnDrop (s : World S × List QueueRef) : Label S → Prop
  | .dropSession ses => ∀ e, s.1.core.manager.udp.lookup ses.key = some e → e.queue = ses.queue
  | _ => True

instance (s : World S × List QueueRef) : ∀ l, Decidable (OwnDrop s l)
  | .dropSession ses =>
    match h : s.1.core.manager.udp.lookup ses.key with
    | none => .isTrue fun e he => by rw [h] at he; cases he
    | some e =>
      if hq : e.queue = ses.queue then .isTrue fun e' he' => by rw [h] at he'; cases he'; exact hq
      else .isFalse fun hall => hq (hall e h)
  | .ingress _ | .cycle _ _ | .read _ _ _ | .write _ _ _ | .shutdown _ | .dropStream _ | .send _ _
  | .recv _ | .rehash _ => .isTrue trivial

/-- The entry of a session is there with its queue and its socket, the queue is open,
and the session is counted by its socket. -/
def World.Intact (w : World S) (ses : WayUdpSession) : Prop :=
  (∃ e, w.core.manager.udp.lookup ses.key = some e ∧ e.queue = ses.queue ∧ e.socket = ses.socket) ∧
  w.core.queues.isClosed ses.queue = false ∧
  w.core.manager.udpDstSockets.lookup (dstOf ses.key) =
    some (ses.socket, w.core.manager.sessionsOf ses.key.interface ses.key.dst)

/-! ### What the passes keep -/

/-- The `closed` flags of the queues. -/
def Core.flags (c : Core S) : List Bool := c.queues.map (·.closed)

/-- Closed queues stay closed. -/
def Core.StaysClosed (c c' : Core S) : Prop :=
  ∀ q : QueueRef, c.flags[q]? = some true → c'.flags[q]? = some true

/-- Sessions keep their entries and closed queues stay closed. -/
structure Core.Ages (c c' : Core S) : Prop where
  entries : ∀ {k e}, c.manager.udp.lookup k = some e →
    ∃ e', c'.manager.udp.lookup k = some e' ∧ e'.queue = e.queue
  closed : c.StaysClosed c'

namespace Core.Ages

variable {c c' c'' : Core S}

theorem of_eq (hm : c'.manager.udp = c.manager.udp) (hq : c'.flags = c.flags) : c.Ages c' :=
  ⟨fun he => ⟨_, by rw [hm]; exact he, rfl⟩, fun q h => by rw [hq]; exact h⟩

theorem trans (h : c.Ages c') (h' : c'.Ages c'') : c.Ages c'' := by
  refine ⟨fun he => ?_, fun q hq => h'.closed q (h.closed q hq)⟩
  obtain ⟨e', he', hq'⟩ := h.entries he
  obtain ⟨e'', he'', hq''⟩ := h'.entries he'
  exact ⟨e'', he'', hq''.trans hq'⟩

theorem run {R : Core S → Core S → Prop} (hR : ∀ a b, R a b → a.Ages b)
    (h : ReflTransGen R c c') : c.Ages c' :=
  run_keeps (P := fun d => c.Ages d) (fun _ _ hstep hp => hp.trans (hR _ _ hstep)) h (of_eq rfl rfl)

/-- A new session changes no other. -/
theorem insert {k : SessionKey} {e : UdpEntry} (new : c.manager.udp.lookup k = none)
    (hm : c'.manager.udp = c.manager.udp.insert k e) (hq : c'.flags = c.flags ++ [false]) :
    c.Ages c' := by
  constructor
  · intro k' e' he'
    exact ⟨e', by rw [hm]; exact lookup_insert_of_new new he', rfl⟩
  · intro q h
    rw [hq, List.getElem?_append_left (List.getElem?_eq_some_iff.mp h).1]
    exact h

end Core.Ages

section Passes

variable {now : Instant} {queued : InterfaceId → Bytes → Prop}

theorem flags_new (qs : Queues) : (qs ++ [UdpQueue.new]).map (·.closed) = qs.map (·.closed) ++ [false] := by
  rw [List.map_append]
  rfl

theorem Admit.ages {st st' : Core S × List Session} (h : Admit now queued st st') :
    st.1.Ages st'.1 := by
  cases h with
  | device | spoil | leak | tcp => exact .of_eq rfl rfl
  | udpNew hs hid hq hp new room fresh ha hb => exact .insert new rfl (flags_new _)
  | udpJoin hs hid hq hp new room inUse => exact .insert new rfl (flags_new _)

/-- The sessions made by the pre-pass have their entries. -/
theorem Admits.held {st st' : Core S × List Session} (h : ReflTransGen (Admit now queued) st st')
    (h0 : ∀ ses ∈ st.2.filterMap Session.session?,
      ∃ e, st.1.manager.udp.lookup ses.key = some e ∧ e.queue = ses.queue) :
    ∀ ses ∈ st'.2.filterMap Session.session?,
      ∃ e, st'.1.manager.udp.lookup ses.key = some e ∧ e.queue = ses.queue := by
  refine run_keeps (P := fun st : Core S × List Session => ∀ ses ∈ st.2.filterMap Session.session?,
    ∃ e, st.1.manager.udp.lookup ses.key = some e ∧ e.queue = ses.queue) ?_ h h0
  intro a b hstep hp
  have old : ∀ ses ∈ a.2.filterMap Session.session?,
      ∃ e, b.1.manager.udp.lookup ses.key = some e ∧ e.queue = ses.queue := by
    intro ses hses
    obtain ⟨e, he, hq⟩ := hp ses hses
    obtain ⟨e', he', hq'⟩ := hstep.ages.entries he
    exact ⟨e', he', hq'.trans hq⟩
  cases hstep with
  | device | spoil | leak | tcp => exact old
  | udpNew | udpJoin =>
    intro ses hses
    rw [List.filterMap_append, List.mem_append] at hses
    rcases hses with hses | hses
    · exact old ses hses
    · obtain rfl := List.mem_singleton.mp hses
      exact ⟨_, by rw [show (sessionOf _ _ _).key = _ from rfl]; exact AList.lookup_insert _, rfl⟩

theorem RouteUdp.ages {c c' : Core S} (h : RouteUdp now c c') : c.Ages c' := by
  cases h with
  | @push key e data he =>
    constructor
    · intro k e' he'
      by_cases hk : k = key
      · subst hk
        rw [he, Option.some.injEq] at he'
        exact ⟨{ e with lastActivity := now }, by rw [lookup_replace he, if_pos rfl], he' ▸ rfl⟩
      · exact ⟨e', by rw [lookup_replace he, if_neg hk]; exact he', rfl⟩
    · intro q hq
      unfold Core.flags at hq ⊢
      rw [map_closed_push]
      exact hq

theorem EndUdp.staysClosed {st st' : Core S × ℕ} (h : EndUdp st st') : st.1.StaysClosed st'.1 := by
  have key : ∀ (qs : Queues) (q₀ q : QueueRef), (qs.map (·.closed))[q]? = some true →
      ((qs.modify q₀ UdpQueue.markClosed).map (·.closed))[q]? = some true := by
    intro qs q₀ q hq
    rw [Core.map_closed_markClosed, List.getElem?_set]
    split
    · next heq =>
      subst heq
      rw [if_pos (List.getElem?_eq_some_iff.mp hq).1]
    · exact hq
  cases h with
  | leave => exact fun q hq => key _ _ q hq
  | close => exact fun q hq => key _ _ q hq

/-- From the start of a cycle to the sweep, sessions keep their entries. -/
theorem CycleSpec.ages {c : Core S} {polls : InterfaceId → List (PollEvent S)} {r : Cycle S}
    (h : CycleSpec c now polls r) : r.admitted.1.Ages r.post.routed := by
  have hpolled : r.admitted.1.Ages r.polled := by
    rw [h.polled]
    exact .of_eq rfl rfl
  have htcp : r.polled.Ages r.post.tcp.core := by
    rw [h.post.tcp.core]
    exact .of_eq rfl rfl
  have hreaped : r.post.tcp.core.Ages r.post.reaped.1 :=
    run_keeps (P := fun st : Core S × ℕ => r.post.tcp.core.Ages st.1)
      (fun _ _ hstep hp => hp.trans (by cases hstep; exact .of_eq rfl rfl)) h.post.reaped (.of_eq rfl rfl)
  have hdrained : r.post.reaped.1.Ages r.post.drained.1 :=
    .run (fun _ _ hstep => by cases hstep; exact .of_eq rfl rfl) h.post.drained
  have hrouted : r.post.drained.1.Ages r.post.routed :=
    .run (fun _ _ hstep => hstep.ages) h.post.routed
  exact hpolled.trans (htcp.trans (hreaped.trans (hdrained.trans hrouted)))

theorem CycleSpec.admitted_ages {c : Core S} {polls : InterfaceId → List (PollEvent S)} {r : Cycle S}
    (h : CycleSpec c now polls r) : c.Ages r.admitted.1 :=
  run_keeps (P := fun st : Core S × List Session => c.Ages st.1)
    (fun _ _ hstep hp => hp.trans hstep.ages) h.admitted (.of_eq rfl rfl)

theorem CycleSpec.final {c : Core S} {polls : InterfaceId → List (PollEvent S)} {r : Cycle S}
    (h : CycleSpec c now polls r) :
    r.core.manager = r.post.swept.1.manager ∧ r.core.queues = r.post.swept.1.queues := by
  rw [h.core, Core.drainEgress, h.post.settled]
  exact ⟨rfl, rfl⟩

end Passes

/-! ### The invariants -/

/-- Every session object not expired has its entry. -/
def Held (expired : List QueueRef) (sessions : List WayUdpSession) (c : Core S) : Prop :=
  ∀ ses ∈ sessions, ses.queue ∉ expired →
    ∃ e, c.manager.udp.lookup ses.key = some e ∧ e.queue = ses.queue

/-- The queues of expired sessions are closed. -/
def ExpiredClosed (expired : List QueueRef) (c : Core S) : Prop :=
  ∀ q ∈ expired, c.flags[q]? = some true

section Invariants

variable {w w' : World S} {l : Label S} {expired : List QueueRef} {b : NetstackBuilder S}
  {now : Instant} {polls : InterfaceId → List (PollEvent S)} {r : Cycle S}

theorem Held.ages {sessions : List WayUdpSession} {c c' : Core S} (h : Held expired sessions c)
    (ha : c.Ages c') : Held expired sessions c' := by
  intro ses hses hq
  obtain ⟨e, he, heq⟩ := h ses hses hq
  obtain ⟨e', he', heq'⟩ := ha.entries he
  exact ⟨e', he', heq'.trans heq⟩

/-- A cycle takes the entries of the sessions it expires, and no others. -/
theorem Held.cycle (h : Held expired w.sessions w.core) (spec : CycleSpec w.core now polls r) :
    Held (expired ++ r.expired now) (w.afterCycle r).sessions r.core := by
  have hadm : Held expired (w.afterCycle r).sessions r.admitted.1 := by
    intro ses hses hq
    rcases List.mem_append.mp hses with hses | hses
    · exact h.ages spec.admitted_ages ses hses hq
    · rw [spec.accepted_split.2] at hses
      exact Admits.held spec.admitted (fun _ h => by cases h) ses hses
  intro ses hses hq
  rw [List.mem_append, not_or] at hq
  obtain ⟨e, he, heq⟩ := hadm.ages spec.ages ses hses hq.1
  refine ⟨e, ?_, heq⟩
  rw [spec.final.1, spec.post.swept_lookup, if_neg ?_]
  · exact he
  · intro hexp
    refine hq.2 (List.mem_filterMap.mpr ⟨ses.key, hexp, ?_⟩)
    rw [he, Option.map_some, heq]

/-- The queues of the sessions a cycle expires are closed at its end. -/
theorem ExpiredClosed.cycle (hS : S.Lawful) (hw : w.Registered) (h : ExpiredClosed expired w.core)
    (spec : CycleSpec w.core now polls r) : ExpiredClosed (expired ++ r.expired now) r.core := by
  have hflags : r.core.flags = r.post.swept.1.flags := by unfold Core.flags; rw [spec.final.2]
  intro q hq
  rw [hflags]
  rcases List.mem_append.mp hq with hq | hq
  · have hrouted := spec.ages.closed q (spec.admitted_ages.closed q (h q hq))
    exact run_keeps (P := fun st : Core S × ℕ => st.1.flags[q]? = some true)
      (fun _ _ hstep hp => hstep.staysClosed q hp) spec.post.swept hrouted
  · obtain ⟨k, hk, hlook⟩ := List.mem_filterMap.mp hq
    obtain ⟨e, he, rfl⟩ := Option.map_eq_some_iff.mp hlook
    have hreg := (spec.registered hS hw).post
    -- its session object is alive and has no entry any more, so its queue is closed
    obtain ⟨ses, hses, rfl, hsq⟩ := hreg.routed.udp.holder he
    rw [← hsq]
    refine hreg.swept.udp.closed_of_gone hses fun e' he' => ?_
    have hnone : r.post.swept.1.manager.udp.lookup ses.key = none := by
      rw [spec.post.swept_lookup, if_pos hk]
    cases hnone.symm.trans he'

/-- A step that leaves the tables and the flags alone. -/
theorem Held.same {c c' : Core S} {sessions : List WayUdpSession} (h : Held expired sessions c)
    (hm : c'.manager.udp = c.manager.udp) : Held expired sessions c' := by
  unfold Held
  rw [hm]
  exact h

/-- A drop that finds no entry or its own takes no other session's entry. -/
theorem Held.drop {ses : WayUdpSession} {c : Core S} (hw : w.Registered) (alive : ses ∈ w.sessions)
    (h : Held expired w.sessions w.core) (hd : DropUdp ses w.core c)
    (hown : ∀ e, w.core.manager.udp.lookup ses.key = some e → e.queue = ses.queue) :
    Held expired (w.sessions.erase ses) c := by
  intro ses' hses' hq
  have hmem := List.mem_of_mem_erase hses'
  obtain ⟨e, he, heq⟩ := h ses' hmem hq
  cases hd with
  | gone hnone => exact ⟨e, he, heq⟩
  | @ended c₁ m hstep hlook =>
    refine ⟨e, ?_, heq⟩
    show c₁.manager.udp.lookup ses'.key = some e
    rw [hlook, if_neg ?_]
    · exact he
    · -- the same key and the same queue would make it the same object
      intro hkey
      rw [hkey] at he
      have hsame := hw.udp.session_ext hmem alive (heq.symm.trans (hown e he))
      subst hsame
      exact (List.Nodup.of_map _ hw.udp.distinct).not_mem_erase hses'

theorem DropUdp.staysClosed {ses : WayUdpSession} {c c' : Core S} (h : DropUdp ses c c') :
    c.StaysClosed c' := by
  cases h with
  | gone => exact fun _ hq => hq
  | ended hstep hlook => exact hstep.staysClosed

/-- What the observer sees at a step. -/
theorem watchExpired_cycle (hres : (pollOnce w.core now polls).result = .ok r) (w' : World S) :
    watchExpired w (.cycle now polls) w' expired = expired ++ r.expired now := by
  simp only [watchExpired, hres]

/-- Expired queues are closed after any step. -/
theorem ExpiredClosed.step (hS : S.Lawful) (hw : w.Registered) (hd : w.Does l w')
    (h : ExpiredClosed expired w.core) : ExpiredClosed (watchExpired w l w' expired) w'.core := by
  have same : ∀ {c : Core S}, c.flags = w.core.flags → ExpiredClosed expired c := by
    intro c hc q hq
    rw [hc]
    exact h q hq
  cases hd with
  | ingress pkt =>
    rcases queueIngress_eq w.core pkt with heq | ⟨slot, -, heq⟩
    · exact same (by rw [heq])
    · exact same (by rw [heq]; rfl)
  | cycle result spec =>
    rw [watchExpired_cycle result]
    exact h.cycle hS hw spec
  | read alive touch | write alive touch | shutdown alive touch =>
    cases touch <;> exact same rfl
  | dropStream alive drop =>
    cases drop
    exact same rfl
  | send alive result send => cases send <;> exact same rfl
  | recv alive => exact same (popQueue_closed _ _)
  | dropSession alive drop => exact fun q hq => drop.staysClosed q (h q hq)
  | rehash same' => exact same rfl

/-- A step that meets the condition leaves every unexpired session its entry. -/
theorem Held.step (hw : w.Registered) (hd : w.Does l w') (hown : OwnDrop (w, expired) l)
    (h : Held expired w.sessions w.core) : Held (watchExpired w l w' expired) w'.sessions w'.core := by
  cases hd with
  | ingress pkt =>
    rcases queueIngress_eq w.core pkt with heq | ⟨slot, -, heq⟩
    · exact h.same (by rw [heq])
    · exact h.same (by rw [heq]; rfl)
  | cycle result spec =>
    rw [watchExpired_cycle result]
    exact h.cycle spec
  | read alive touch | write alive touch | shutdown alive touch =>
    cases touch <;> exact h.same rfl
  | dropStream alive drop =>
    cases drop
    exact h.same rfl
  | send alive result send => cases send <;> exact h.same rfl
  | recv alive => exact h.same (by rw [(popQueue_frame _ _).2.1])
  | dropSession alive drop => exact h.drop hw alive drop hown
  | @rehash m same =>
    intro ses hses hq
    obtain ⟨e, he, heq⟩ := h ses hses hq
    exact ⟨e, by rw [← same.udp.lookup]; exact he, heq⟩

/-- An entry with the session's queue makes the session intact. -/
theorem World.Registered.intact (hw : w.Registered) {ses : WayUdpSession} (hses : ses ∈ w.sessions)
    {e : UdpEntry} (he : w.core.manager.udp.lookup ses.key = some e) (hq : e.queue = ses.queue) :
    w.Intact ses := by
  have hopen : (w.core.queues.map (·.closed))[ses.queue]? = some false := hq ▸ hw.udp.isOpen he
  obtain ⟨-, -, hentry⟩ := hw.udp.session hses
  obtain ⟨e', he', hq', hsock⟩ := hentry hopen
  refine ⟨⟨e', he', hq', hsock⟩, ?_, ?_⟩
  · rw [isClosed_eq, hopen]
    rfl
  · obtain ⟨n, hn⟩ := hw.udp.counted.held he'
    have hcount := hw.udp.counted.count hn
    rw [hsock] at hn
    rw [sessionsOf_eq]
    exact hn.trans (by rw [hcount]; rfl)

/-- The drop of a session whose key has no entry does nothing. -/
theorem drop_gone {ses : WayUdpSession} {c : Core S}
    (hnone : c.manager.udp.lookup ses.key = none) : (ses.drop c).result = .ok ⟨c, (), true⟩ := by
  unfold WayUdpSession.drop Core.endUdp
  rw [hnone]
  rfl

end Invariants

/-! ### The theorem -/

/-- **A UDP session is ended only by its own drop or its own timeout**, along every
run in which each dropped object finds no entry under its key or its own: every
session object alive and not expired is intact, and dropping one whose session has
expired changes nothing. The condition is exact: a drop that finds another session's
entry ends that session, which was neither dropped nor expired. -/
theorem udp_sessions_end_alone (hS : S.Lawful) (b : NetstackBuilder S) :
    (∀ s, Watched watchExpired OwnDrop b [] s →
      (∀ ses ∈ s.1.sessions, ses.queue ∉ s.2 → s.1.Intact ses) ∧
      (∀ ses ∈ s.1.sessions, ses.queue ∈ s.2 → OwnDrop s (.dropSession ses) →
        (ses.drop s.1.core).result = .ok ⟨s.1.core, (), true⟩)) ∧
    (∀ s, Watched watchExpired (fun _ _ => True) b [] s →
      ∀ ses w', Steps s.1 (.dropSession ses) w' → ¬OwnDrop s (.dropSession ses) →
        ∃ ses' ∈ w'.sessions, ses'.queue ∉ s.2 ∧ ¬w'.Intact ses') := by
  have closed : ∀ {s}, Watched watchExpired (fun _ _ => True) b [] s →
      s.1.Inv False b ∧ ExpiredClosed s.2 s.1.core := by
    intro s hs
    refine System.Reaches.invariant (P := fun s => s.1.Inv False b ∧ ExpiredClosed s.2 s.1.core) hs
      ⟨⟨init_registered b, init_budgeted b False, rfl⟩, fun q hq => by cases hq⟩ ?_
    rintro s l t - ⟨hinv, hex⟩ ⟨-, hstep, hobs⟩
    obtain ⟨hdoes, hinv'⟩ := hinv.step hS False.elim hstep
    exact ⟨hinv', hobs ▸ hex.step hS hinv.registered hdoes⟩
  refine ⟨fun s hs => ?_, ?_⟩
  · obtain ⟨hinv, hex⟩ := closed (hs.mono fun _ _ _ => trivial)
    have held : Held s.2 s.1.sessions s.1.core := by
      have := System.Reaches.invariant
        (P := fun s => s.1.Inv False b ∧ Held s.2 s.1.sessions s.1.core) hs
        ⟨⟨init_registered b, init_budgeted b False, rfl⟩, fun ses hses => by cases hses⟩ (by
          rintro s l t - ⟨hinv, hheld⟩ ⟨hown, hstep, hobs⟩
          obtain ⟨hdoes, hinv'⟩ := hinv.step hS False.elim hstep
          exact ⟨hinv', hobs ▸ hheld.step hinv.registered hdoes hown⟩)
      exact this.2
    refine ⟨fun ses hses hq => ?_, fun ses hses hq hown => drop_gone ?_⟩
    · obtain ⟨e, he, heq⟩ := held ses hses hq
      exact hinv.registered.intact hses he heq
    · -- an entry under the key would have the expired session's closed queue
      cases he : s.1.core.manager.udp.lookup ses.key with
      | none => rfl
      | some e =>
        have hopen : s.1.core.flags[e.queue]? = some false := hinv.registered.udp.isOpen he
        rw [hown e he, hex ses.queue hq] at hopen
        cases hopen
  · intro s hs ses w' hstep hnot
    obtain ⟨hinv, hex⟩ := closed hs
    obtain ⟨e, he, hne⟩ : ∃ e, s.1.core.manager.udp.lookup ses.key = some e ∧ e.queue ≠ ses.queue := by
      simpa [OwnDrop] using hnot
    -- the entry is that of another session object, which stays alive
    obtain ⟨ses', hses', hkey, hq⟩ := hinv.registered.udp.holder he
    have hdiff : ses' ≠ ses := fun h => hne (by rw [← hq, h])
    obtain ⟨hdoes, hinv'⟩ := hinv.step hS False.elim hstep
    cases hdoes with
    | dropSession alive drop =>
      refine ⟨ses', (List.mem_erase_of_ne hdiff).mpr hses', fun hmem => ?_, ?_⟩
      · have hopen : s.1.core.flags[e.queue]? = some false := hinv.registered.udp.isOpen he
        rw [← hq, hex _ hmem] at hopen
        cases hopen
      · rintro ⟨⟨e', he', -⟩, -⟩
        cases drop with
        | gone hnone => cases hnone.symm.trans he
        | @ended c₁ m hend hlook =>
          have hlook' : c₁.manager.udp.lookup ses'.key = none := by rw [hlook, if_pos hkey]
          cases hlook'.symm.trans he'

open Reference in
/-- The session of the client on the trial stack, with queue `q`. -/
def clientSession (remote : IpEndpoint) (q : QueueRef) : WayUdpSession :=
  sessionOf ⟨eth, .udp, remote, server⟩ 0 q

open Reference in
/-- One of two sessions is dropped: the other is intact. -/
theorem udp_sessions_end_alone_two : ∃ s, Watched watchExpired OwnDrop (trial .default) [] s ∧
    clientSession client₂ 1 ∈ s.1.sessions ∧ s.1.Intact (clientSession client₂ 1) := by
  obtain ⟨s, hs, hcheck⟩ := exists_watched watchExpired OwnDrop (trial .default) []
    [datagram client [1], datagram client₂ [2],
      cycle 0 [hears 0 [([1], client)], hears 0 [([1], client), ([2], client₂)]],
      .dropSession (clientSession client 0)]
    (fun s => decide (clientSession client₂ 1 ∈ s.1.sessions ∧ s.2 = []))
    (by decide +kernel)
  obtain ⟨hmem, hnil⟩ := of_decide_eq_true hcheck
  refine ⟨s, hs, hmem, ?_⟩
  exact ((udp_sessions_end_alone reference_lawful (trial .default)).1 s hs).1 _ hmem
    (by rw [hnil]; exact List.not_mem_nil)

open Reference in
/-- A session expires, a datagram opens another one under the same key, and the drop
of the first object ends the second session: it is alive and not expired, and has
lost its entry. -/
theorem late_drop_ends_another : ∃ s, Watched watchExpired (fun _ _ => True) (trial .default) [] s ∧
    clientSession client 1 ∈ s.1.sessions ∧ (clientSession client 1).queue ∉ s.2 ∧
    s.1.core.manager.udp.lookup (clientSession client 1).key = none ∧
    ¬s.1.Intact (clientSession client 1) := by
  obtain ⟨s, hs, hcheck⟩ := exists_watched watchExpired (fun _ _ => True) (trial .default) []
    [datagram client [1], cycle 0 [hears 0 [([1], client)]], cycle 31000000 [], datagram client [2],
      cycle 32000000 [hears 0 [([2], client)]], .dropSession (clientSession client 0)]
    (fun s => decide (clientSession client 1 ∈ s.1.sessions ∧
      (clientSession client 1).queue ∉ s.2 ∧
      s.1.core.manager.udp.lookup (clientSession client 1).key = none))
    (by decide +kernel)
  obtain ⟨hmem, hq, hnone⟩ := of_decide_eq_true hcheck
  refine ⟨s, hs, hmem, hq, hnone, ?_⟩
  rintro ⟨⟨e, he, -⟩, -⟩
  cases hnone.symm.trans he

end WayNetstack

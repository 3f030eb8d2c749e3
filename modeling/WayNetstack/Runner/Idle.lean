import WayNetstack.Tcp.Connections
import WayNetstack.Udp.Redistribution

/-!
# A pass with nothing to do

The post-pass reads the state of every socket and acts on what it finds. When it is through there
is nothing left for it: no entry has a transition to make, no orphan is left to be reaped, the
shared sockets have been drained, and no session is overdue. Such a core is at rest
(`Core.AtRest`), and the post-pass leaves such a core exactly as it is.

* `postPass_idempotent` — the post-pass run again, at the same time or at any other at which no
  session is overdue, changes nothing and surfaces nothing;
* `idle_cycle` — **a cycle with nothing to do does nothing**: once the packets of an earlier cycle
  are used up, a cycle in which the engine is idle leaves the whole core as it is, surfaces no
  session and sends no packet.
-/

namespace WayNetstack

open Lib Lib.Table Lib.Traced SessionManager

variable {S : Smoltcp}

/-! ### Cores at rest -/

/-- Nothing is left for a post-pass at `now`. -/
structure Core.AtRest (c : Core S) (now : Instant) : Prop where
  /-- No entry has a transition to make or is to be reaped. -/
  tcp : ∀ {k e}, c.manager.tcp.lookup k = some e →
    e.advance (c.tcpStateOf k e) = (e, false) ∧ ¬(e.orphaned = true ∧ c.tcpStateOf k e = .closed)
  /-- The shared sockets are drained. -/
  rx : ∀ {i h u}, c.socketAt i h = some (.udp u) → S.udpRx u = []
  /-- No session is overdue. -/
  fresh : ∀ {k e}, c.manager.udp.lookup k = some e → e.expiredAt S now c.config.udpSessionTimeout = false

section Loops

variable {c : Core S} {streams : List WayTcpStream} {sessions : List WayUdpSession} {now : Instant} {exact : Prop}

theorem replace_self {α β : Type} [DecidableEq α] {t : Table α β} {k : α} {v : β} (h : t.lookup k = some v) :
    t.replace k v = t :=
  AList.ext (List.kreplace_self t.nodupKeys (lookup_eq_some.mp h))

theorem set_self {α : Type} {l : List α} {i : ℕ} {a : α} (h : l[i]? = some a) : l.set i a = l := by
  obtain ⟨hlt, rfl⟩ := List.getElem?_eq_some_iff.mp h
  exact List.set_getElem_self hlt

theorem put_self {α : Type} {s : Slab α} {h : ℕ} {a : α} (hget : s.get? h = some a) : s.put h a = s := by
  have hlt := Slab.lt_length_of_get? hget
  have hcell : s.cells[h]? = some (some a) := by
    rw [Slab.get?, List.getD_eq_getElem?_getD, List.getElem?_eq_getElem hlt, Option.getD_some] at hget
    rw [List.getElem?_eq_getElem hlt, hget]
  unfold Slab.put
  rw [set_self hcell]

theorem Core.setSlotAt_self {i : ℕ} {slot : InterfaceSlot S} (hi : c.slots[i]? = some slot) :
    c.setSlotAt i slot = c := by
  unfold Core.setSlotAt
  rw [set_self hi]

/-- An entry without a transition is visited in vain. -/
theorem Core.AtRest.tcpVisit (h : c.AtRest now) (hr : c.Registered streams sessions)
    {e : Σ _ : SessionKey, TcpEntry} (he : c.manager.tcp.lookup e.1 = some e.2) :
    Ok (Call.Good exact) (WayNetstack.tcpVisit ⟨c, [], []⟩ e) (· = ⟨c, [], []⟩) := by
  obtain ⟨slot, t, hs, hget, hstate⟩ := hr.tcp_socket he
  obtain ⟨hadvance, hkeep⟩ := h.tcp he
  rw [hstate] at hadvance hkeep
  unfold WayNetstack.tcpVisit
  simp only [hs]
  refine (InterfaceSlot.getTcp_ok hget).bind ?_
  rintro t rfl
  have hreap : (e.2.orphaned && decide (S.tcpState t = .closed)) = false := by
    rw [← Bool.not_eq_true, Bool.and_eq_true, decide_eq_true_eq]
    exact hkeep
  simp only [hadvance, replace_self he, hreap, Bool.false_eq_true, if_false]
  exact ok_pure rfl

theorem Core.AtRest.tcpTransitions (h : c.AtRest now) (hr : c.Registered streams sessions) :
    Ok (Call.Good exact) (tcpTransitions c) (· = ⟨c, [], []⟩) := by
  unfold WayNetstack.tcpTransitions
  refine ok_foldlM_const (I := fun st : TcpLoop S => st = ⟨c, [], []⟩) rfl fun e he st hst => ?_
  subst hst
  exact h.tcpVisit hr (lookup_eq_some.mpr he)

/-- A drained socket is drained in vain. -/
theorem Core.AtRest.drainDst (hS : S.Lawful) (h : c.AtRest now) (hr : c.Registered streams sessions) {i : ℕ}
    {slot : InterfaceSlot S} (hi : c.slots[i]? = some slot) {dst : SocketHandle × IpEndpoint}
    (hdst : dst ∈ dstSockets c.manager slot.id) :
    Ok (Call.Good exact) (WayNetstack.drainDst i (c, []) dst) (· = (c, [])) := by
  obtain ⟨n, hn⟩ := mem_dstSockets.mp hdst
  obtain ⟨slot', u, hs, hget⟩ := Core.exists_udp (hr.udp.named hn)
  obtain rfl : slot' = slot := Option.some.inj (hs.symm.trans (Core.slot_of_getElem? hr.shaped.ids hi))
  have hrx : S.udpRx u = [] := h.rx (i := slot'.id) (h := dst.1) (by rw [Core.socketAt, hs]; exact hget)
  have hdrain : drainUdp S ((S.udpRx u).length + 1) u [] = .ok ([], u) := by
    rw [hrx]
    unfold drainUdp
    rw [hS.udpRecv_nil u hrx]
  unfold WayNetstack.drainDst
  simp only [hi]
  refine (InterfaceSlot.getUdp_ok hget).bind ?_
  rintro u rfl
  have hloop : Ok (Call.Good exact)
      (⟨drainUdp S ((S.udpRx u).length + 1) u [], []⟩ : Op (List (Bytes × IpEndpoint) × S.Udp)) (· = ([], u)) :=
    ⟨⟨_, hdrain, rfl⟩, by simp⟩
  refine hloop.bind ?_
  rintro _ rfl
  have hput : slot'.putSocket dst.1 (.udp u) = slot' := by
    unfold InterfaceSlot.putSocket
    rw [put_self hget]
  simp only [hput, Core.setSlotAt_self hi, List.map_nil, List.append_nil]
  exact ok_pure rfl

theorem Core.AtRest.drainSlots (hS : S.Lawful) (h : c.AtRest now) (hr : c.Registered streams sessions) :
    Ok (Call.Good exact) (drainSlots c) (· = (c, [])) := by
  unfold WayNetstack.drainSlots
  refine ok_foldlM_const (I := fun st : Core S × List (SessionKey × Bytes) => st = (c, [])) rfl fun i _ st hst => ?_
  subst hst
  unfold drainSlot
  split
  · exact ok_pure rfl
  · next slot hi =>
    refine ok_foldlM_const (I := fun st : Core S × List (SessionKey × Bytes) => st = (c, [])) rfl
      fun dst hdst st hst => ?_
    subst hst
    exact h.drainDst hS hr hi hdst

theorem Core.AtRest.expiredKeys (h : c.AtRest now) : expiredKeys c now = [] := by
  rw [List.eq_nil_iff_forall_not_mem]
  intro k hk
  obtain ⟨e, he, hexpired⟩ := mem_expiredKeys.mp hk
  rw [h.fresh he] at hexpired
  cases hexpired

/-- **The post-pass leaves a core at rest as it is.** -/
theorem Core.AtRest.postPass (hS : S.Lawful) (h : c.AtRest now) (hr : c.Registered streams sessions) :
    Ok (Call.Good exact) (postPass c now) fun p => p.core = c ∧ p.tcp.accepted = [] := by
  unfold WayNetstack.postPass
  refine (h.tcpTransitions hr).bind ?_
  rintro _ rfl
  refine Ok.bind (P := (· = (c, 0))) (ok_pure rfl) ?_
  rintro _ rfl
  refine (h.drainSlots hS hr).bind ?_
  rintro _ rfl
  simp only [List.foldl_nil, h.expiredKeys]
  refine Ok.bind (P := (· = (c, 0))) (ok_pure rfl) ?_
  rintro _ rfl
  refine Ok.bind (P := (· = c)) (ok_call (fun _ => Nat.zero_le _) rfl) ?_
  rintro _ rfl
  exact ok_pure ⟨rfl, rfl⟩

end Loops

/-! ### What the post-pass leaves is at rest -/

/-- Nothing is left to do for an entry that has just advanced. -/
theorem TcpEntry.advance_advance (e : TcpEntry) (s : State) :
    (e.advance s).1.advance s = ((e.advance s).1, false) := by
  cases hstate : e.state with
  | pending =>
    by_cases hs : s = .established
    · simp [advance, hstate, hs, State.closesEntry]
    · simp [advance, hstate, hs]
  | established =>
    by_cases hs : s.closesEntry = true
    · simp [advance, hstate, hs]
    · simp [advance, hstate, hs]
  | closed => simp [advance, hstate]

section Outcome

variable {c : Core S} {streams : List WayTcpStream} {sessions : List WayUdpSession} {now later : Instant}
  {p : PostPass S}

/-- An entry that the post-pass leaves is not overdue. -/
theorem PostPass.Outcome.fresh (h : PostPass.Outcome c now p) {k : SessionKey} {e : UdpEntry}
    (he : p.core.manager.udp.lookup k = some e) :
    e.expiredAt S now p.core.config.udpSessionTimeout = false := by
  rw [h.udp, Option.bind_eq_some_iff] at he
  obtain ⟨e₀, -, hsettled⟩ := he
  unfold Core.settled at hsettled
  dsimp only at hsettled
  rw [Option.ite_none_left_eq_some] at hsettled
  obtain ⟨hnot, heq⟩ := hsettled
  rw [Option.some.inj heq] at hnot
  rw [h.config]
  exact Bool.eq_false_iff.mpr hnot

/-- **A post-pass leaves a core at rest**, for as long as no session is overdue. -/
theorem PostPass.Spec.settles (hS : S.Lawful) (h : PostPass.Spec c now p) (hr : c.Registered streams sessions)
    (hout : PostPass.Outcome c now p)
    (hfresh : ∀ k e, p.core.manager.udp.lookup k = some e →
      e.expiredAt S later p.core.config.udpSessionTimeout = false) : p.core.AtRest later where
  tcp := by
    intro k e he
    obtain ⟨t, hconn⟩ := (h.registered hr).core.exists_conn he
    have hstate := Core.tcpStateOf_conn hconn
    rw [h.conn hr, Option.bind_eq_some_iff] at hconn
    obtain ⟨⟨e₀, t₀⟩, -, hsettle⟩ := hconn
    unfold settle at hsettle
    split at hsettle
    · cases hsettle
    · next hkeep =>
      cases hsettle
      rw [hstate, TcpEntry.advance_orphaned]
      exact ⟨TcpEntry.advance_advance e₀ _, hkeep⟩
  rx := hout.rx_nil hS
  fresh := fun {k e} he => hfresh k e he

/-- **The post-pass is idempotent.** From every core in order: run again on what it has left, at the
same time or at another at which no session is overdue, it changes nothing and surfaces nothing. -/
theorem postPass_idempotent (hS : S.Lawful) (hr : c.Registered streams sessions)
    (hp : (postPass c now).result = .ok p) :
    (∃ p', (postPass p.core now).result = .ok p' ∧ p'.core = p.core ∧ p'.tcp.accepted = []) ∧
    ∀ later, (∀ k e, p.core.manager.udp.lookup k = some e →
        e.expiredAt S later p.core.config.udpSessionTimeout = false) →
      ∃ p', (postPass p.core later).result = .ok p' ∧ p'.core = p.core ∧ p'.tcp.accepted = [] := by
  have hok : Ok (Call.Good False) (postPass c now) (PostPass.Spec c now) :=
    postPass_run hS hr fun _ _ => False.elim
  have hspec := hok.post hp
  have hout := hspec.outcome hS hr hp
  have again : ∀ later, (∀ k e, p.core.manager.udp.lookup k = some e →
      e.expiredAt S later p.core.config.udpSessionTimeout = false) →
      ∃ p', (postPass p.core later).result = .ok p' ∧ p'.core = p.core ∧ p'.tcp.accepted = [] := by
    intro later hfresh
    have hrest := hspec.settles hS hr hout hfresh
    have hpass : Ok (Call.Good False) (postPass p.core later) fun p' => p'.core = p.core ∧ p'.tcp.accepted = [] :=
      hrest.postPass hS (hspec.registered hr).core
    obtain ⟨⟨p', hp', hsame⟩, -⟩ := hpass
    exact ⟨p', hp', hsame⟩
  exact ⟨again now fun k e he => hout.fresh he, again⟩

end Outcome

open Reference in
/-- A session is overdue: the first pass ends it, the second finds nothing to do. -/
theorem postPass_idempotent_overdue : ∃ (w : World reference) (p p' : PostPass reference),
    World.AnyRun (trial .default) w ∧ w.sessions.length = 1 ∧ (postPass w.core 100000000).result = .ok p ∧
      p.core.manager.udp.lookup ⟨eth, .udp, client₂, server⟩ = none ∧
      (postPass p.core 100000000).result = .ok p' ∧ p'.core = p.core := by
  obtain ⟨w, hw, hcheck⟩ := World.exists_of_run (fun _ _ => True) (trial .default) openBoth
    (fun w => decide (w.sessions.length = 1 ∧ (postPass w.core 100000000).result.toOption.map
      (fun p => p.core.manager.udp.lookup ⟨eth, .udp, client₂, server⟩) = some none)) (by decide +kernel)
  obtain ⟨hlen, hgone⟩ := of_decide_eq_true hcheck
  obtain ⟨p, hp, hnone⟩ := Option.map_eq_some_iff.mp hgone
  have hinv : w.Inv False (trial .default) := World.Reachable.inv reference_lawful False.elim hw
  have hresult := Traced.toOption_eq_some.mp hp
  obtain ⟨p', hp', hcore, -⟩ := (postPass_idempotent reference_lawful hinv.registered hresult).1
  exact ⟨w, p, p', hw, hlen, hresult, hnone, hp', hcore⟩

/-! ### Idle cycles -/

section Cycle

variable {c : Core S} {b : NetstackBuilder S} {w : World S} {now later : Instant}
  {polls : InterfaceId → List (PollEvent S)} {r : Cycle S}

/-- Without packets the pre-pass does nothing. -/
theorem prePass_of_empty (hempty : ∀ slot ∈ c.slots, slot.device.ingress = []) (now : Instant) :
    prePass c now = pure (c, []) := by
  refine foldlM_pure fun i _ => ?_
  unfold prePassSlot
  cases hi : c.slots[i]? with
  | none =>
    have hingress : c.ingress i = [] := by
      unfold Core.ingress
      rw [hi]
      rfl
    simp only [hingress, List.foldlM_nil, pure_bind, Core.setIngress, hi]
  | some slot =>
    have hslot := hempty slot (List.mem_of_getElem? hi)
    have hingress : c.ingress i = [] := by
      unfold Core.ingress
      rw [hi]
      exact hslot
    have hset : ∀ f : List Bytes → List Bytes, f [] = [] → c.setIngress i f = c := by
      intro f hf
      have hsame : { slot with device := { slot.device with ingress := f slot.device.ingress } } = slot := by
        rw [hslot, hf, ← hslot]
      unfold Core.setIngress
      simp only [hi, hsame]
      exact Core.setSlotAt_self hi
    simp only [hingress, List.foldlM_nil, pure_bind]
    rw [hset (fun _ => []) rfl, hset (· ++ []) rfl]

/-- Without events the poll does nothing. -/
theorem pollSlots_idle (c : Core S) : (c.pollSlots fun _ => []) = c := by
  unfold Core.pollSlots InterfaceSlot.poll
  simp only [List.foldl_nil, List.map_id']

theorem drainEgress_of_empty (hempty : ∀ slot ∈ c.slots, slot.device.egress = []) : c.drainEgress = (c, []) := by
  have hslots : (c.slots.map fun slot => { slot with device := { slot.device with egress := [] } }) = c.slots := by
    refine List.map_congr_left (fun slot hslot => ?_) |>.trans (List.map_id _)
    rw [← hempty slot hslot]
    rfl
  have hegress : (c.slots.flatMap fun slot =>
      slot.device.egress.map fun data => (⟨slot.id, data⟩ : EgressPacket)) = [] := by
    refine List.flatMap_eq_nil_iff.mpr fun slot hslot => ?_
    rw [hempty slot hslot]
    rfl
  unfold Core.drainEgress
  rw [hslots, hegress]

/-- A core is at rest whatever is in its devices. -/
theorem Core.AtRest.drainEgress (h : c.AtRest now) : c.drainEgress.1.AtRest now where
  tcp := by
    intro k e he
    have hstate : c.drainEgress.1.tcpStateOf k e = c.tcpStateOf k e := by
      unfold Core.tcpStateOf
      rw [Core.socketAt_drainEgress]
    rw [hstate]
    exact h.tcp he
  rx := by
    intro i hd u hu
    rw [Core.socketAt_drainEgress] at hu
    exact h.rx hu
  fresh := fun {k e} he => h.fresh he

/-- The egress queues are empty after a cycle. -/
theorem egress_drainEgress (c : Core S) : ∀ slot ∈ c.drainEgress.1.slots, slot.device.egress = [] := by
  intro slot hslot
  obtain ⟨slot₀, -, rfl⟩ := List.mem_map.mp hslot
  rfl

/-- **A cycle with nothing to do does nothing.** In every run, after a cycle that has used up the
packets of all devices: as long as no session is overdue, a further cycle in which the engine has
nothing to do leaves the core exactly as it is, hands out no session and sends no packet. -/
theorem idle_cycle (hS : S.Lawful) (h : World.AnyRun b w) (hr : (pollOnce w.core now polls).result = .ok r)
    (hempty : ∀ slot ∈ r.core.slots, slot.device.ingress = [])
    (hfresh : ∀ k e, r.core.manager.udp.lookup k = some e →
      e.expiredAt S later r.core.config.udpSessionTimeout = false) :
    ∃ r', (pollOnce r.core later fun _ => []).result = .ok r' ∧ r'.core = r.core ∧ r'.accepted = [] ∧
      r'.egress = [] := by
  have hw : w.Inv False b := World.Reachable.inv hS False.elim h
  have spec : CycleSpec w.core now polls r :=
    ((pollOnce_ok hS False.elim hw.registered hw.budgeted now polls).post hr).1
  have hregs := spec.registered hS hw.registered
  obtain ⟨r₁, hr₁, hout, -⟩ := pollOnce_outcome hS hw.registered now polls
  obtain rfl : r₁ = r := Except.ok.inj (hr₁.symm.trans hr)
  have hrest : r₁.core.AtRest later := by
    rw [hout.core] at hfresh ⊢
    exact (spec.post.settles hS hregs.polled hout.post hfresh).drainEgress
  have hpass : Ok (Call.Good False) (postPass r₁.core later) fun p => p.core = r₁.core ∧ p.tcp.accepted = [] :=
    hrest.postPass hS hregs.core
  obtain ⟨⟨p, hp, hcore, haccepted⟩, -⟩ := hpass
  have hegress : r₁.core.drainEgress = (r₁.core, []) :=
    drainEgress_of_empty (by rw [hout.core]; exact egress_drainEgress _)
  have hrun : (pollOnce r₁.core later fun _ => []).result =
      .ok ⟨(r₁.core, []), r₁.core, p, r₁.core, [], []⟩ := by
    unfold pollOnce
    rw [prePass_of_empty hempty, pure_bind]
    simp only [pollSlots_idle]
    refine bind_result_ok.mpr ⟨p, hp, ?_⟩
    rw [hcore, hegress, haccepted]
    rfl
  exact ⟨_, hrun, rfl, rfl, rfl⟩

end Cycle

namespace Reference

/-- The packets of the cycle are used up, and no session is overdue a microsecond later. -/
def usedUp (r : Cycle reference) : Bool :=
  decide (∀ slot ∈ r.core.slots, slot.device.ingress = []) &&
    decide (∀ e ∈ r.core.manager.udp.entries, e.2.expiredAt reference 2 r.core.config.udpSessionTimeout = false) &&
    decide (len r.core.manager.tcp = 1 ∧ len r.core.manager.udp = 1)

/-- A client connects while another sends a datagram: the events of the poll. -/
def admitsBoth : List (PollEvent reference) :=
  [takes 0 (connected 16384 client .synReceived), hears 1 [([1, 2, 3], client₂)]]

end Reference

open Reference in
/-- A connection is opening and a session is open: the next cycle, with nothing to do, does nothing. -/
theorem idle_cycle_open : ∃ (w : World reference) (r r' : Cycle reference), World.AnyRun (trial .default) w ∧
    (pollOnce w.core 0 fun _ => admitsBoth).result = .ok r ∧ len r.core.manager.tcp = 1 ∧
      len r.core.manager.udp = 1 ∧ (pollOnce r.core 2 fun _ => []).result = .ok r' ∧ r'.core = r.core := by
  obtain ⟨w, hw, hcheck⟩ := World.exists_of_run (fun _ _ => True) (trial .default)
    [fromClient client syn, datagram client₂ [1, 2, 3]]
    (fun w => (pollOnce w.core 0 fun _ => admitsBoth).result.toOption.any usedUp) (by decide +kernel)
  obtain ⟨r, hr, hused⟩ := (Option.any_eq_true _ _).mp hcheck
  have hresult := Traced.toOption_eq_some.mp hr
  simp only [usedUp, Bool.and_eq_true, decide_eq_true_eq] at hused
  obtain ⟨⟨hempty, hfresh⟩, htcp, hudp⟩ := hused
  obtain ⟨r', hr', hcore, -, -⟩ := idle_cycle reference_lawful hw hresult hempty
    fun k e he => hfresh _ (lookup_eq_some.mp he)
  exact ⟨w, r, r', hw, hresult, htcp, hudp, hr', hcore⟩

end WayNetstack

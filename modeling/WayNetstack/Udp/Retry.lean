import WayNetstack.Runner.Isolation
import WayNetstack.Udp.Rings
import WayNetstack.Udp.Senders

/-!
# How often a sender tries

`WayUdpSession::send` takes every `BufferFull` for a passing one: it waits for the end of a
cycle and tries again. But `send_slice` gives the same error for a datagram that is larger
than the whole buffer, which no cycle can help.

`send_attempts_bounded`: **a datagram that the buffer can hold is tried three times at most**,
if each poll empties the socket and nobody else sends through it: the first attempt may come
after the poll of a cycle that has still to end, the second before the next poll, the third
finds the buffer empty. A larger datagram finds it full at every attempt, and the call goes on
for as long as the session is open.
-/

namespace WayNetstack

open Lib Lib.Traced Relation

variable {S : Smoltcp}

/-! ### The calls -/

/-- The call of `send` uses the socket. -/
def Sender.Uses (x : Sender) (i : InterfaceId) (h : SocketHandle) : Prop :=
  x.session.interface = i ∧ x.session.socket = h

instance (x : Sender) (i : InterfaceId) (h : SocketHandle) : Decidable (x.Uses i h) :=
  inferInstanceAs (Decidable (_ ∧ _))

/-- The future of the call is ready, or the call is about to try. -/
def SendPhase.awake : SendPhase → Bool
  | .attempting => true
  | .parked woken => woken
  | .notifying | .subscribing => false

/-- What the `k`th call does next by itself: nothing while its future is not ready. -/
def SendPhase.next (S : Smoltcp) (k : ℕ) : SendPhase → Option (SendAct S)
  | .attempting => some (.attempt k)
  | .notifying => some (.notify k)
  | .subscribing => some (.subscribe k)
  | .parked true => some (.resume k)
  | .parked false => none

/-- The next poll comes before the next end of a cycle. -/
def Phase.beforePoll : Phase → Bool
  | .forwarding _ | .finishing => false
  | .top | .armed _ | .parked _ _ | .draining | .polling | .stopped => true

theorem Phase.beforePoll_notifyWaiters (p : Phase) : p.notifyWaiters.beforePoll = p.beforePoll := by
  cases p <;> rfl

namespace Senders

variable (D : DatagramRings S) (i : InterfaceId) (h : SocketHandle)

/-- The observer of a socket: how often the call that uses it has tried. -/
def watchAttempts (s : Senders S) (a : SendAct S) (_ : Senders S) (n : ℕ) : ℕ :=
  match a with
  | .call session _ => if session.interface = i ∧ session.socket = h then 0 else n
  | .attempt k => if (s.senders[k]?).any (fun x => decide (x.Uses i h)) then n + 1 else n
  | _ => n

/-- What is asked of a cycle's polls: sockets keep their rings, and the transmit buffer of the
socket is emptied. -/
def Empties (polls : InterfaceId → List (PollEvent S)) (c : Core S) : Prop :=
  World.PollsObey (fun _ => D.KeepsRings) polls c ∧ (c.pollSlots polls).TxEmpty i h

instance (polls : InterfaceId → List (PollEvent S)) (c : Core S) : Decidable (Empties D i h polls c) :=
  inferInstanceAs (Decidable (_ ∧ _))

/-- One call at a time uses the socket, and each poll empties its transmit buffer. -/
def Lone (s : Senders S) : SendAct S → Prop
  | .call session _ => session.interface = i ∧ session.socket = h → ∀ x ∈ s.senders, ¬x.Uses i h
  | .task (.cycle now polls) => s.runtime.world.AtPoll (Empties D i h) (.cycle now polls)
  | _ => True

/-- The states, with the observer of a socket, that runs with steps `ok` reach. -/
def Watched (ok : Senders S → SendAct S → Prop) (b : NetstackBuilder S) (s : Senders S × ℕ) : Prop :=
  ((Steps.observe (watchAttempts i h)).restrict fun s => ok s.1).Reaches (init b, 0) s

/-- The transmit buffer is empty, or will be before the next end of a cycle. -/
def Ready (r : Runtime S) : Prop := r.world.core.TxEmpty i h ∨ r.phase.beforePoll = true

/-- What is known of a call that uses the socket and has tried `n` times. -/
structure Retrying (r : Runtime S) (n : ℕ) (x : Sender) : Prop where
  bound : n ≤ 2
  first : n = 0 → x.phase = .attempting
  second : n = 1 → x.phase.awake = true → Ready i h r
  waiting : n = 2 → Ready i h r
  third : n = 2 → x.phase.awake = true → r.world.core.TxEmpty i h

/-- What holds of the calls that use the socket, if their datagrams are at most `cap` bytes. -/
structure Tried (cap : ℕ) (s : Senders S) (n : ℕ) : Prop where
  alone : s.senders.countP (fun x => decide (x.Uses i h)) ≤ 1
  call : ∀ x ∈ s.senders, x.Uses i h → x.payload.length ≤ cap → Retrying i h s.runtime n x

variable {D} {i} {h} {s t : Senders S} {a : SendAct S} {b : NetstackBuilder S} {cap n : ℕ}

/-! #### The attempts -/

/-- An attempt that finds the buffer full. -/
theorem exists_of_full {x : Sender} (hx : x.Uses i h) (hf : s.outcome x = some .full) :
    ∃ u, s.runtime.world.core.socketAt i h = some (.udp u) ∧
      S.udpSendSlice u x.payload x.session.target = .error .bufferFull := by
  obtain ⟨rfl, rfl⟩ := hx
  obtain ⟨r, hr, hfull⟩ := Option.map_eq_some_iff.mp hf
  have hr := toOption_eq_some.mp hr
  unfold WayUdpSession.trySend at hr
  split at hr
  · cases hr
    cases hfull
  · split at hr
    · cases hr
      cases hfull
    · next slot hs =>
      obtain ⟨u, hu, hr⟩ := bind_result_ok.mp hr
      have hget : slot.sockets.get? x.session.socket = some (.udp u) := InterfaceSlot.get?_of_getUdp hu
      split at hr
      · cases hr
        cases hfull
      · next hsend =>
        refine ⟨u, ?_, hsend⟩
        rw [Core.socketAt, hs]
        exact hget
      · cases hr
        cases hfull

/-- **A datagram that is larger than the buffer finds it full**, at every attempt. -/
theorem full_of_large (hD : D.Lawful) {x : Sender} {u : S.Udp} (hx : x.Uses i h)
    (hu : s.runtime.world.core.socketAt i h = some (.udp u)) (hlarge : (S.udpCapacity u).2 < x.payload.length)
    (hopen : s.runtime.world.core.queues.isClosed x.session.queue = false)
    (haddr : S.udpSendSlice u [] x.session.target ≠ .error .unaddressable) : s.outcome x = some .full := by
  obtain ⟨rfl, rfl⟩ := hx
  obtain ⟨slot, hs, hget⟩ := Option.bind_eq_some_iff.mp hu
  have hfull : S.udpSendSlice u x.payload x.session.target = .error .bufferFull :=
    (hD.udpSendSlice_large u x.payload x.session.target hlarge).resolve_right fun hun =>
      haddr (hD.udpSendSlice_unaddressable [] hun)
  have hok : Ok (Call.Good True) (x.session.trySend s.runtime.world.core x.payload x.session.target)
      (·.2 = .full) := by
    unfold WayUdpSession.trySend
    simp only [hopen, Bool.false_eq_true, if_false, hs]
    refine (InterfaceSlot.getUdp_ok hget).bind ?_
    rintro u rfl
    simp only [hfull]
    exact ok_pure rfl
  obtain ⟨⟨r, hr, hout⟩, -⟩ := hok
  exact Option.map_eq_some_iff.mpr ⟨r, toOption_eq_some.mpr hr, hout⟩

/-- With its transmit buffer empty, the socket takes a datagram that it can hold. -/
theorem not_full_of_txEmpty (hD : D.Lawful) {x : Sender} (hx : x.Uses i h)
    (hf : D.AllFurnished s.runtime.world.core)
    (hlen : x.payload.length ≤ s.runtime.world.core.config.udpBuffer)
    (ht : s.runtime.world.core.TxEmpty i h) : s.outcome x ≠ some .full := by
  intro hfull
  obtain ⟨u, hu, hsend⟩ := exists_of_full hx hfull
  obtain ⟨hpackets, hcap⟩ := hf i h u hu
  refine hD.udpSendSlice_empty u _ _ (Core.txEmpty_iff.mp ht u hu) ?_ (hcap ▸ hlen) hsend
  rw [hpackets]
  exact Nat.lt_of_lt_of_le Nat.zero_lt_one (Nat.le_max_right _ _)

/-- A datagram to nobody is refused, whatever its length. -/
theorem not_full_of_unaddressable (hD : D.Lawful) {x : Sender} (hx : x.Uses i h) {u : S.Udp}
    (hu : s.runtime.world.core.socketAt i h = some (.udp u))
    (hun : S.udpSendSlice u [] x.session.target = .error .unaddressable) : s.outcome x ≠ some .full := by
  intro hfull
  obtain ⟨u', hu', hsend⟩ := exists_of_full hx hfull
  cases hu.symm.trans hu'
  cases hsend.symm.trans (hD.udpSendSlice_unaddressable x.payload hun)

/-! #### The steps -/

/-- The steps of the loop that send nothing through the socket, and whose polls empty it. -/
def Spares (D : DatagramRings S) (i : InterfaceId) (h : SocketHandle) (r : Runtime S) : Act S → Prop
  | .app (.send ses _) => ¬(ses.interface = i ∧ ses.socket = h)
  | .cycle now polls => r.world.AtPoll (Empties D i h) (.cycle now polls)
  | _ => True

variable {r r' : Runtime S} {act : Act S}

theorem Spares.causes {l : Label S} (hsp : Spares D i h r act) (hl : act.Causes l) :
    (∀ ses payload, l = .send ses payload → ¬(ses.interface = i ∧ ses.socket = h)) ∧
      r.world.AtPoll (Empties D i h) l := by
  cases hl with
  | recv | drain => exact ⟨by simp, trivial⟩
  | cycle => exact ⟨by simp, hsp⟩
  | @app l hl =>
    cases l with
    | ingress | cycle => cases hl
    | send ses payload =>
      refine ⟨?_, trivial⟩
      rintro _ _ ⟨⟩
      exact hsp
    | read | write | shutdown | dropStream | recv | dropSession | rehash => exact ⟨by simp, trivial⟩

/-- An empty transmit buffer stays empty in such a step, and a cycle leaves it empty. -/
theorem Spares.txEmpty (hS : S.Lawful) (hw : r.world.Inv False b) (ht : r.Turn act r') (hsp : Spares D i h r act)
    (hempty : r.world.core.TxEmpty i h ∨ ∃ now polls, act = .cycle now polls) : r'.world.core.TxEmpty i h := by
  rcases ht.causes with ⟨heq, hne⟩ | ⟨l, hl, hstep⟩
  · rw [heq]
    exact hempty.resolve_right fun ⟨now, polls, hcycle⟩ => hne now polls hcycle
  · obtain ⟨hsend, hpoll⟩ := hsp.causes hl
    obtain ⟨hdoes, hw'⟩ := hw.step hS False.elim hstep
    refine hdoes.txEmpty hS hw.registered hw'.registered hsend (hpoll.imp fun _ _ h => h.2) ?_
    refine hempty.imp_right ?_
    rintro ⟨now, polls, rfl⟩
    cases hl
    exact ⟨now, polls, rfl⟩

/-- A buffer that will be empty before the next end of a cycle still will be. -/
theorem Ready.turn (hS : S.Lawful) (hw : r.world.Inv False b) (ht : r.Turn act r') (hsp : Spares D i h r act)
    (hr : Ready i h r) : Ready i h r' := by
  have hempty := hsp.txEmpty hS hw ht
  rcases hr with hr | hp
  · exact .inl (hempty (.inl hr))
  cases ht with
  | delay | park | wake | recv | stop | timeout | drained | done => exact .inr rfl
  | cycle => exact .inl (hempty (.inr ⟨_, _, rfl⟩))
  | forward hp' | egressGone hp' | accept hp' =>
    rw [hp'] at hp
    cases hp
  | drain | app | dropHandle => exact .inr hp
  | notify hn => exact .inr ((Phase.beforePoll_notifyWaiters r.phase).trans hp)
  | sendIp pkt hh =>
    rcases r.sendIpPacket_cases pkt with heq | heq <;> rw [heq] <;> exact .inr hp

/-- A step that spares the socket keeps what is known of the call. -/
theorem Retrying.turn (hS : S.Lawful) (hw : r.world.Inv False b) (ht : r.Turn act r') (hsp : Spares D i h r act)
    {x : Sender} (hx : Retrying i h r n x) : Retrying i h r' n x where
  bound := hx.bound
  first := hx.first
  second := fun hn hp => (hx.second hn hp).turn hS hw ht hsp
  waiting := fun hn => (hx.waiting hn).turn hS hw ht hsp
  third := fun hn hp => hsp.txEmpty hS hw ht (.inl (hx.third hn hp))

/-- The end of a cycle wakes the call: by then the poll has been. -/
theorem Retrying.done (ht : r.Turn .done r') {x : Sender} (hx : Retrying i h r n x) :
    Retrying i h r' n { x with phase := x.phase.notifyWaiters } := by
  cases ht with
  | done hp =>
    refine ⟨hx.bound, fun hn => ?_, fun _ _ => .inr rfl, fun _ => .inr rfl, fun hn _ => ?_⟩
    · show x.phase.notifyWaiters = .attempting
      rw [hx.first hn]
      rfl
    · refine (hx.waiting hn).resolve_right ?_
      rw [hp]
      nofun

/-- The call moves on in a way that needs nothing more. -/
theorem Retrying.move {x : Sender} {p : SendPhase} (hx : Retrying i h r n x) (hn : n ≠ 0)
    (hp : p.awake = true → x.phase.awake = true) : Retrying i h r n { x with phase := p } where
  bound := hx.bound
  first := fun h0 => absurd h0 hn
  second := fun h1 hw => hx.second h1 (hp hw)
  waiting := hx.waiting
  third := fun h2 hw => hx.third h2 (hp hw)

/-- How many of the calls use the socket. -/
def users (i : InterfaceId) (h : SocketHandle) (senders : List Sender) : ℕ :=
  senders.countP fun x => decide (x.Uses i h)

theorem users_set {senders : List Sender} {k : ℕ} {x : Sender} (hx : senders[k]? = some x) (p : SendPhase) :
    users i h (senders.set k { x with phase := p }) = users i h senders := by
  obtain ⟨hk, rfl⟩ := List.getElem?_eq_some_iff.mp hx
  unfold users
  rw [(List.set_perm_cons_eraseIdx hk _).countP_eq, ← (List.getElem_cons_eraseIdx_perm hk).countP_eq,
    List.countP_cons, List.countP_cons]
  rfl

theorem users_told (act : Act S) (senders : List Sender) : users i h (told act senders) = users i h senders := by
  cases act with
  | done =>
    unfold users told
    rw [List.countP_map]
    rfl
  | _ => rfl

/-- If one call uses the socket, it is the only one. -/
theorem not_uses_of_eraseIdx {senders : List Sender} (hle : users i h senders ≤ 1) {k : ℕ} {x : Sender}
    (hx : senders[k]? = some x) (huse : x.Uses i h) : ∀ y ∈ senders.eraseIdx k, ¬y.Uses i h := by
  obtain ⟨hk, rfl⟩ := List.getElem?_eq_some_iff.mp hx
  unfold users at hle
  rw [← (List.getElem_cons_eraseIdx_perm hk).countP_eq, List.countP_cons_of_pos (by simpa using huse)] at hle
  intro y hy hyuse
  have hpos : 0 < (senders.eraseIdx k).countP fun x => decide (x.Uses i h) :=
    List.countP_pos_iff.mpr ⟨y, hy, by simpa using hyuse⟩
  omega

theorem mem_set_iff {senders : List Sender} {k : ℕ} {x y x' : Sender} (hx : senders[k]? = some x) :
    y ∈ senders.set k x' ↔ y = x' ∨ y ∈ senders.eraseIdx k := by
  obtain ⟨hk, -⟩ := List.getElem?_eq_some_iff.mp hx
  rw [(List.set_perm_cons_eraseIdx hk x').mem_iff, List.mem_cons]

/-- Only a call at the top of its loop tries. -/
theorem phase_of_attempt {k : ℕ} {x : Sender} (hstep : s.step (.attempt k) = some t) (hx : s.senders[k]? = some x) :
    x.phase = .attempting := by
  obtain ⟨y, hy, hstep⟩ := Option.bind_eq_some_iff.mp hstep
  cases hx.symm.trans hy
  simp only [Option.ite_none_right_eq_some] at hstep
  exact hstep.1

/-- An attempt that finds the buffer full: the third one does not. -/
theorem Retrying.full (hD : D.Lawful) (hf : D.AllFurnished s.runtime.world.core) {x : Sender} (huse : x.Uses i h)
    (hlen : x.payload.length ≤ s.runtime.world.core.config.udpBuffer) (hp : x.phase = .attempting)
    (hfull : s.outcome x = some .full) (hphase : r.phase = s.runtime.phase)
    (hx : Retrying i h s.runtime n x) : Retrying i h r (n + 1) { x with phase := .notifying } := by
  have hnot : ¬s.runtime.world.core.TxEmpty i h := fun ht => not_full_of_txEmpty hD huse hf hlen ht hfull
  have hawake : x.phase.awake = true := by
    rw [hp]
    rfl
  have hn : n ≠ 2 := fun h2 => hnot (hx.third h2 hawake)
  have hbound := hx.bound
  refine ⟨by omega, fun h0 => absurd h0 (Nat.succ_ne_zero n), nofun, fun h1 => ?_, nofun⟩
  -- the second attempt came before the poll
  have hready := (hx.second (Nat.succ.inj h1) hawake).resolve_left hnot
  exact .inr (hphase ▸ hready)

/-- **A step keeps what is known of the calls.** -/
theorem Tried.step (hS : S.Lawful) (hD : D.Lawful) (hw : s.runtime.world.Inv False b)
    (hf : D.AllFurnished s.runtime.world.core) (hstep : s.step a = some t) (hok : Lone D i h s a)
    (hT : Tried i h b.config.udpBuffer s n) : Tried i h b.config.udpBuffer t (watchAttempts i h s a t n) := by
  have halone : users i h s.senders ≤ 1 := hT.alone
  cases turn_of_step hstep with
  | @task act r hm ht =>
    have hsp : Spares D i h s.runtime act := by
      cases act with
      | cycle => exact hok
      | app l =>
        cases l with
        | send => cases hm
        | _ => trivial
      | _ => trivial
    refine ⟨(users_told act s.senders).trans_le halone, fun y hy huse hlen => ?_⟩
    cases act with
    | done =>
      obtain ⟨x, hx, rfl⟩ := List.mem_map.mp hy
      exact (hT.call x hx huse hlen).done ht
    | _ => exact (hT.call y hy huse hlen).turn hS hw ht hsp
  | call session payload =>
    by_cases hnew : session.interface = i ∧ session.socket = h
    · simp only [watchAttempts, if_pos hnew]
      have hnone := hok hnew
      have hzero : users i h s.senders = 0 := by
        rw [users, List.countP_eq_zero]
        simpa using hnone
      constructor
      · show users i h (s.senders ++ _) ≤ 1
        rw [users, List.countP_append, ← users, hzero, Nat.zero_add]
        exact List.countP_le_length
      · intro y hy huse hlen
        rcases List.mem_append.mp hy with hy | hy
        · exact absurd huse (hnone y hy)
        · cases List.mem_singleton.mp hy
          exact ⟨Nat.zero_le 2, fun _ => rfl, nofun, nofun, nofun⟩
    · simp only [watchAttempts, if_neg hnew]
      constructor
      · show users i h (s.senders ++ _) ≤ 1
        rw [users, List.countP_append, List.countP_cons_of_neg (by rw [decide_eq_true_eq]; exact hnew)]
        exact halone
      · intro y hy huse hlen
        rcases List.mem_append.mp hy with hy | hy
        · exact hT.call y hy huse hlen
        · cases List.mem_singleton.mp hy
          exact absurd huse hnew
  | @full k x r hx hfull ht =>
    have hmem := List.mem_of_getElem? hx
    refine ⟨(users_set hx _).trans_le halone, fun y hy huse hlen => ?_⟩
    by_cases hxuse : x.Uses i h
    · simp only [watchAttempts, hx, Option.any_some, hxuse, decide_true, if_true]
      rcases (mem_set_iff hx).mp hy with rfl | hy
      · refine (hT.call x hmem hxuse hlen).full hD hf hxuse (hw.config.symm ▸ hlen)
          (phase_of_attempt hstep hx) hfull ?_
        cases ht
        rfl
      · exact absurd huse (not_uses_of_eraseIdx halone hx hxuse y hy)
    · simp only [watchAttempts, hx, Option.any_some, hxuse, decide_false, Bool.false_eq_true, if_false]
      rcases (mem_set_iff hx).mp hy with rfl | hy
      · exact absurd huse hxuse
      · exact (hT.call y (List.mem_of_mem_eraseIdx hy) huse hlen).turn (D := D) hS hw ht hxuse
  | @returns k x r hx ht =>
    refine ⟨((List.eraseIdx_sublist s.senders k).countP_le).trans halone, fun y hy huse hlen => ?_⟩
    by_cases hxuse : x.Uses i h
    · exact absurd huse (not_uses_of_eraseIdx halone hx hxuse y hy)
    · simp only [watchAttempts, hx, Option.any_some, hxuse, decide_false, Bool.false_eq_true, if_false]
      exact (hT.call y (List.mem_of_mem_eraseIdx hy) huse hlen).turn (D := D) hS hw ht hxuse
  | @notify k x r hx hp ht =>
    refine ⟨(users_set hx _).trans_le halone, fun y hy huse hlen => ?_⟩
    rcases (mem_set_iff hx).mp hy with rfl | hy
    · have hcall := hT.call x (List.mem_of_getElem? hx) huse hlen
      refine (hcall.turn (D := D) hS hw ht trivial).move (fun h0 => ?_) nofun
      cases hp.symm.trans (hcall.first h0)
    · exact (hT.call y (List.mem_of_mem_eraseIdx hy) huse hlen).turn (D := D) hS hw ht trivial
  | @subscribe k x hx hp =>
    refine ⟨(users_set hx _).trans_le halone, fun y hy huse hlen => ?_⟩
    rcases (mem_set_iff hx).mp hy with rfl | hy
    · have hcall := hT.call x (List.mem_of_getElem? hx) huse hlen
      refine hcall.move (fun h0 => ?_) nofun
      cases hp.symm.trans (hcall.first h0)
    · exact hT.call y (List.mem_of_mem_eraseIdx hy) huse hlen
  | @resume k x hx hp =>
    refine ⟨(users_set hx _).trans_le halone, fun y hy huse hlen => ?_⟩
    rcases (mem_set_iff hx).mp hy with rfl | hy
    · have hcall := hT.call x (List.mem_of_getElem? hx) huse hlen
      refine hcall.move (fun h0 => ?_) fun _ => by rw [hp]; rfl
      cases hp.symm.trans (hcall.first h0)
    · exact hT.call y (List.mem_of_mem_eraseIdx hy) huse hlen
  | @cancel k =>
    refine ⟨((List.eraseIdx_sublist s.senders k).countP_le).trans halone, fun y hy huse hlen => ?_⟩
    exact hT.call y (List.mem_of_mem_eraseIdx hy) huse hlen

/-- The sockets of the loop keep their rings. -/
theorem furnished_of_turn (hS : S.Lawful) (hD : D.Lawful) (ht : r.Turn act r')
    (hpoll : ∀ now polls, act = .cycle now polls → r.world.Polls (fun _ => D.KeepsRings) (.cycle now polls))
    (hw : r.world.Inv False b) (hf : D.AllFurnished r.world.core) :
    r'.world.Inv False b ∧ D.AllFurnished r'.world.core := by
  rcases ht.causes with ⟨heq, -⟩ | ⟨l, hl, hstep⟩
  · rw [heq]
    exact ⟨hw, hf⟩
  · have hlaw : r.world.Polls (fun _ => D.KeepsRings) l := by
      cases hl with
      | recv | drain => trivial
      | cycle => exact hpoll _ _ rfl
      | @app l hl =>
        cases l with
        | cycle => cases hl
        | _ => trivial
    obtain ⟨hdoes, hw'⟩ := hw.step hS False.elim hstep
    exact ⟨hw', hf.step hS hD hdoes hw.registered hw'.registered hlaw⟩

theorem Turn.furnished (hS : S.Lawful) (hD : D.Lawful) (ht : s.Turn a t) (hok : Lone D i h s a)
    (hw : s.runtime.world.Inv False b) (hf : D.AllFurnished s.runtime.world.core) :
    t.runtime.world.Inv False b ∧ D.AllFurnished t.runtime.world.core := by
  cases ht with
  | task hm ht =>
    refine furnished_of_turn hS hD ht ?_ hw hf
    rintro now polls rfl
    exact World.AtPoll.imp hok fun _ _ h => h.1
  | full hx hfull ht | returns hx ht | notify hx hp ht => exact furnished_of_turn hS hD ht (by simp) hw hf
  | call | subscribe | resume | cancel => exact ⟨hw, hf⟩

/-- **What holds of the calls in every run.** -/
theorem Watched.tried (hS : S.Lawful) (hD : D.Lawful) {s : Senders S × ℕ} (hs : Watched i h (Lone D i h) b s) :
    s.1.runtime.world.Inv False b ∧ D.AllFurnished s.1.runtime.world.core ∧
      Tried i h b.config.udpBuffer s.1 s.2 := by
  refine System.Reaches.invariant (P := fun s : Senders S × ℕ => s.1.runtime.world.Inv False b ∧
    D.AllFurnished s.1.runtime.world.core ∧ Tried i h b.config.udpBuffer s.1 s.2) hs ?_ ?_
  · exact ⟨World.Reachable.inv hS False.elim (System.Reaches.refl _ _ : World.AnyRun b _),
      DatagramRings.init_allFurnished b, Nat.zero_le 1, fun _ hx => absurd hx List.not_mem_nil⟩
  · rintro s a t - ⟨hw, hf, hT⟩ ⟨hok, hstep, hobs⟩
    obtain ⟨hw', hf'⟩ := (turn_of_step hstep).furnished hS hD hok hw hf
    rw [hobs]
    exact ⟨hw', hf', hT.step hS hD hw hf hstep hok⟩

/-! #### The call goes on -/

/-- An attempt can be made while the session is alive, and ends the call unless it finds the buffer
full. -/
theorem exists_attempt (hS : S.Lawful) (hw : s.runtime.world.Inv False b) {k : ℕ} {x : Sender}
    (hx : s.senders[k]? = some x) (hp : x.phase = .attempting) (hses : x.session ∈ s.runtime.world.sessions) :
    ∃ t, s.step (.attempt k) = some t ∧ (s.outcome x ≠ some .full → t.senders = s.senders.eraseIdx k) := by
  have hok : Ok (Call.Good False) (s.runtime.world.step (.send x.session x.payload)) _ :=
    World.step_ok hS False.elim hw.registered hw.budgeted hses
  obtain ⟨⟨w, hstep, -⟩, -⟩ := hok
  have hrun : ∃ r, s.runtime.step (.app (.send x.session x.payload)) = some r := by
    simp only [Runtime.step]
    rw [if_pos ⟨rfl, hses⟩, toOption_eq_some.mpr hstep]
    exact ⟨_, rfl⟩
  obtain ⟨r, hr⟩ := hrun
  simp only [step, hx, hp, hr, Option.bind_some, if_true, Option.map_some]
  by_cases hfull : s.outcome x = some .full
  · exact ⟨_, rfl, fun hne => absurd hfull hne⟩
  · rw [if_neg hfull]
    exact ⟨_, rfl, fun _ => rfl⟩

/-- **A call whose session is alive is never stuck**: it can do what it does next. -/
theorem Reachable.exists_next (hS : S.Lawful) {ok : Senders S → SendAct S → Prop} (hs : Reachable ok b s)
    (hw : s.runtime.world.Inv False b) {k : ℕ} {x : Sender} (hx : s.senders[k]? = some x)
    (hses : x.session ∈ s.runtime.world.sessions) {act : SendAct S} (hact : x.phase.next S k = some act) :
    ∃ t, s.step act = some t := by
  cases hp : x.phase with
  | attempting =>
    rw [hp] at hact
    cases hact
    obtain ⟨t, ht, -⟩ := exists_attempt hS hw hx hp hses
    exact ⟨t, ht⟩
  | notifying =>
    rw [hp] at hact
    cases hact
    exact Option.isSome_iff_exists.mp (hs.notify_isSome hx hp)
  | subscribing =>
    rw [hp] at hact
    cases hact
    simp [step, move, hx, hp]
  | parked woken =>
    rw [hp] at hact
    cases woken with
    | false => cases hact
    | true =>
      cases hact
      simp [step, move, hx, hp]

/-- The end of a cycle wakes the call. -/
theorem next_of_done {k : ℕ} {x : Sender} (hx : s.senders[k]? = some x) (hstep : s.step (.task .done) = some t) :
    ∃ y, t.senders[k]? = some y ∧ (y.phase.next S k).isSome := by
  simp only [step, Option.ite_none_right_eq_some] at hstep
  obtain ⟨r, -, rfl⟩ := Option.map_eq_some_iff.mp hstep.2
  refine ⟨{ x with phase := x.phase.notifyWaiters }, by simp [told, hx], ?_⟩
  cases hp : x.phase with
  | attempting | notifying | subscribing | parked => rfl

end Senders

/-- **Three attempts are enough for a datagram that fits, and no number for a larger one.** In every
run in which one call at a time uses a socket and each poll empties its transmit buffer, for a call
of `send` that uses it and is still running: while its session is alive the call can do what it does
next, and what it may have to wait for comes with the end of a cycle. If the datagram is not longer
than `max udp_buffer_bytes mtu`, the call has tried twice at most, and the third attempt ends it; and
if it is longer, an attempt finds the buffer full whenever the session is open and its source can be
addressed. If its source cannot be addressed, any attempt ends the call. -/
theorem send_attempts_bounded (hS : S.Lawful) {D : DatagramRings S} (hD : D.Lawful) {b : NetstackBuilder S}
    {i : InterfaceId} {h : SocketHandle} {s : Senders S × ℕ} (hs : Senders.Watched i h (Senders.Lone D i h) b s)
    {k : ℕ} {x : Sender} (hx : s.1.senders[k]? = some x) (huse : x.Uses i h) :
    (x.session ∈ s.1.runtime.world.sessions → ∀ act ∈ x.phase.next S k, ∃ t, s.1.step act = some t) ∧
    (∀ t, s.1.step (.task .done) = some t → ∃ y, t.senders[k]? = some y ∧ (y.phase.next S k).isSome) ∧
    (x.payload.length ≤ b.config.udpBuffer → s.2 ≤ 2 ∧
      (s.2 = 2 → x.phase = .attempting → x.session ∈ s.1.runtime.world.sessions →
        ∃ t, s.1.step (.attempt k) = some t ∧ t.senders = s.1.senders.eraseIdx k)) ∧
    (b.config.udpBuffer < x.payload.length → ∀ u, s.1.runtime.world.core.socketAt i h = some (.udp u) →
      s.1.runtime.world.core.queues.isClosed x.session.queue = false →
      S.udpSendSlice u [] x.session.target ≠ .error .unaddressable → s.1.outcome x = some .full) ∧
    (∀ u, s.1.runtime.world.core.socketAt i h = some (.udp u) →
      S.udpSendSlice u [] x.session.target = .error .unaddressable → x.phase = .attempting →
      x.session ∈ s.1.runtime.world.sessions →
        ∃ t, s.1.step (.attempt k) = some t ∧ t.senders = s.1.senders.eraseIdx k) := by
  obtain ⟨hw, hf, hT⟩ := Senders.Watched.tried hS hD hs
  refine ⟨fun hses act hact => ?_, fun t => Senders.next_of_done hx, fun hlen => ?_,
    fun hlarge u hu hopen haddr => ?_, fun u hu hun hp hses => ?_⟩
  · have hreach : Senders.Reachable (fun _ _ => True) b s.1 := System.Reaches.forget (fun _ _ _ => trivial) hs
    exact hreach.exists_next hS hw hx hses hact
  · have hcall := hT.call x (List.mem_of_getElem? hx) huse hlen
    refine ⟨hcall.bound, fun hn hp hses => ?_⟩
    have hawake : x.phase.awake = true := by
      rw [hp]
      rfl
    obtain ⟨t, ht, hends⟩ := Senders.exists_attempt hS hw hx hp hses
    refine ⟨t, ht, hends ?_⟩
    exact Senders.not_full_of_txEmpty hD huse hf (hw.config.symm ▸ hlen) (hcall.third hn hawake)
  · have hcap : (S.udpCapacity u).2 < x.payload.length := by
      rw [(hf i h u hu).2, hw.config]
      exact hlarge
    exact Senders.full_of_large hD huse hu hcap hopen haddr
  · obtain ⟨t, ht, hends⟩ := Senders.exists_attempt hS hw hx hp hses
    exact ⟨t, ht, hends (Senders.not_full_of_unaddressable hD huse hu hun)⟩

/-! ### The reference engine -/

namespace Senders

instance (D : DatagramRings S) (i : InterfaceId) (h : SocketHandle) (s : Senders S) :
    ∀ a, Decidable (Lone D i h s a)
  | .call session _ => inferInstanceAs (Decidable (session.interface = i ∧ session.socket = h → _))
  | .task (.cycle now polls) =>
    inferInstanceAs (Decidable (s.runtime.world.AtPoll (Empties D i h) (.cycle now polls)))
  | .attempt _ | .notify _ | .subscribe _ | .resume _ | .cancel _ | .task (.delay _) | .task .park | .task .wake
  | .task .recv | .task .stop | .task .timeout | .task .drain | .task .drained | .task .forward
  | .task .egressGone | .task .accept | .task .done | .task (.app _) | .task .notify
  | .task (.sendIp _) | .task .dropHandle => inferInstanceAs (Decidable True)

/-- A state found by computing a run that the observer watches. -/
theorem exists_watched (i : InterfaceId) (h : SocketHandle) (ok : Senders S → SendAct S → Prop)
    [∀ s a, Decidable (ok s a)] (b : NetstackBuilder S) (acts : List (SendAct S)) (check : Senders S × ℕ → Bool)
    (hc : (System.compute step (watchAttempts i h) (fun s => ok s.1) (init b, 0) acts).any check = true) :
    ∃ s, Watched i h ok b s ∧ check s = true :=
  System.exists_of_compute (fun h => h) hc

/-- The step calls `send`. -/
def isCall : SendAct S → Bool
  | .call _ _ => true
  | _ => false

/-- A run in which nobody calls `send` counts on from any number of attempts. -/
theorem reaches_add {i : InterfaceId} {h : SocketHandle} {ok : Senders S → SendAct S → Prop}
    {s t : Senders S × ℕ} (n : ℕ)
    (hrun : ((Steps.observe (watchAttempts i h)).restrict fun s a => isCall a = false ∧ ok s.1 a).Reaches s t) :
    ((Steps.observe (watchAttempts i h)).restrict fun s a => ok s.1 a).Reaches (s.1, n + s.2) (t.1, n + t.2) := by
  induction hrun with
  | refl => exact System.Reaches.refl _ _
  | @tail u v _ hstep ih =>
    obtain ⟨a, ⟨hcall, hok⟩, hstep, hobs⟩ := hstep
    refine ih.step (l := a) ⟨hok, hstep, ?_⟩
    show n + v.2 = watchAttempts i h u.1 a v.1 (n + u.2)
    rw [hobs]
    cases a with
    | call => cases hcall
    | attempt k =>
      simp only [watchAttempts]
      split <;> rfl
    | task | notify | subscribe | resume | cancel => rfl

end Senders

namespace Reference

/-- The rings of the reference engine's sockets. -/
def rings : DatagramRings reference := ⟨Udp.packets⟩

theorem Udp.sendSlice_eq (u : Udp) (b : Bytes) (ep : IpEndpoint) :
    u.sendSlice b ep = .error .unaddressable ∧ (u.endpoint.isNone ∨ ep.port = 0) ∨
      ¬(u.endpoint.isNone ∨ ep.port = 0) ∧
        u.sendSlice b ep = if u.tx.length < u.packets ∧
          u.tx.foldl (fun n d => n + d.1.length) 0 + b.length ≤ u.bytes then
          .ok { u with tx := u.tx ++ [(b, ep)] } else .error .bufferFull := by
  unfold sendSlice
  by_cases hun : u.endpoint.isNone ∨ ep.port = 0
  · exact .inl ⟨if_pos hun, hun⟩
  · exact .inr ⟨hun, if_neg hun⟩

theorem rings_lawful : rings.Lawful where
  udpNew_ok := fun _ _ => rfl
  udpBind_ok := fun {u ep u'} h => by
    simp only [reference, Udp.bind] at h
    split at h
    · cases h
    split at h <;> cases h
    rfl
  udpRecv_ok := fun u => by
    show (Udp.recv u).2.packets = u.packets
    unfold Udp.recv
    split <;> rfl
  udpSendSlice_ok := fun {u b ep u'} h => by
    simp only [reference, Udp.sendSlice] at h
    split at h
    · cases h
    split at h <;> cases h
    rfl
  udpSendSlice_empty := fun u b ep htx hpackets hlen hfull => by
    have hfull : Udp.sendSlice u b ep = .error .bufferFull := hfull
    have htx : Udp.tx u = [] := htx
    rcases Udp.sendSlice_eq u b ep with ⟨heq, -⟩ | ⟨-, heq⟩
    · cases heq.symm.trans hfull
    · rw [if_pos ⟨by rw [htx]; exact hpackets, by rw [htx, List.foldl_nil, Nat.zero_add]; exact hlen⟩] at heq
      cases heq.symm.trans hfull
  udpSendSlice_large := fun u b ep hlarge => by
    have hlarge : Udp.bytes u < b.length := hlarge
    rcases Udp.sendSlice_eq u b ep with ⟨heq, -⟩ | ⟨-, heq⟩
    · exact .inr heq
    · refine .inl (heq.trans (if_neg ?_))
      omega
  udpSendSlice_unaddressable := fun {u b ep} b' hun => by
    have hun : Udp.sendSlice u b ep = .error .unaddressable := hun
    rcases Udp.sendSlice_eq u b ep with ⟨-, hcond⟩ | ⟨-, heq⟩
    · exact if_pos hcond
    · rw [heq] at hun
      split at hun <;> cases hun

/-- Between the poll of a cycle and its end a client's reply fills the buffer and a second one finds
it full; it is woken by the end of this cycle, finds the buffer full again, and is woken by the end
of the next. -/
def twiceFull : List (SendAct reference) :=
  (round 0 ⟨eth, udpPacket client server [1]⟩
    [.receive (some (0, .udp (narrowSocket [([1], client)] [])))]).map .task ++
  [.task (.delay 1), .task .park, .task .timeout, .task .drained, .task (.cycle 1 fun _ => []),
    .call replySession [2], .attempt 0, .call replySession [3], .attempt 0, .notify 0, .subscribe 0,
    .task .accept, .task .done, .resume 0, .attempt 0, .notify 0, .subscribe 0, .task (.delay 2), .task .park,
    .task .notify] ++ flush ++ [.resume 0]

/-- A stack whose shared sockets hold one datagram of at most 28 bytes each way. -/
def tight : NetstackBuilder reference :=
  trial { NetstackConfig.default with mtu := 28, udpBufferPackets := 1, udpBufferBytes := 0 }

/-- The shared socket of that stack. -/
def tightSocket (rx : List (Bytes × IpEndpoint)) : reference.Udp := (⟨some server, 1, 28, rx, []⟩ : Udp)

/-- A datagram one byte too long. -/
def overlong : Bytes := List.replicate 29 0

/-- A client opens a session and the runner parks; then the long datagram is to be sent. -/
def sendOverlong : List (SendAct reference) :=
  (round 0 ⟨eth, udpPacket client server [1]⟩
    [.receive (some (0, .udp (tightSocket [([1], client)])))]).map .task ++
  [.task (.delay 1), .task .park, .call replySession overlong]

/-- It is tried, the runner is woken and performs a cycle, and the call is woken and about to try
again. -/
def tryAgain : List (SendAct reference) :=
  [.attempt 0, .notify 0, .subscribe 0, .task .wake, .task .drained, .task (.cycle 1 fun _ => []),
    .task .accept, .task .done, .task (.delay 1), .task .park, .resume 0]

/-- The states agree in all but the configuration. -/
def Alike (s t : Senders reference) : Prop :=
  (s.runtime.world.core.slots = t.runtime.world.core.slots ∧
    s.runtime.world.core.manager.tcp.entries = t.runtime.world.core.manager.tcp.entries ∧
    s.runtime.world.core.manager.udp.entries = t.runtime.world.core.manager.udp.entries ∧
    s.runtime.world.core.manager.udpDstSockets.entries = t.runtime.world.core.manager.udpDstSockets.entries ∧
    s.runtime.world.core.bufferBytes = t.runtime.world.core.bufferBytes ∧
    s.runtime.world.core.queues = t.runtime.world.core.queues) ∧
  (s.runtime.world.streams = t.runtime.world.streams ∧ s.runtime.world.sessions = t.runtime.world.sessions) ∧
  s.runtime.phase = t.runtime.phase ∧ s.runtime.channel = t.runtime.channel ∧
  s.runtime.handle = t.runtime.handle ∧ s.runtime.calls = t.runtime.calls ∧ s.senders = t.senders

instance (s t : Senders reference) : Decidable (Alike s t) := inferInstanceAs (Decidable (_ ∧ _ ∧ _))

/-- Trying again leads back to the state, with one more attempt made. -/
def comesBack (s : Senders reference × ℕ) : Bool :=
  (System.compute Senders.step (Senders.watchAttempts eth 0)
    (fun s a => Senders.isCall a = false ∧ Senders.Lone rings eth 0 s.1 a) s tryAgain).any
      fun t : Senders reference × ℕ => decide (Alike t.1 s.1 ∧ t.2 = s.2 + 1)

theorem Alike.eq {s t : Senders reference} (hconf : s.runtime.world.core.config = t.runtime.world.core.config)
    (h : Alike s t) : s = t := by
  obtain ⟨⟨⟨⟨_, ⟨_, _, _⟩, _, _, _⟩, _, _⟩, _, _, _, _⟩, _⟩ := s
  obtain ⟨⟨⟨⟨_, ⟨_, _, _⟩, _, _, _⟩, _, _⟩, _, _, _, _⟩, _⟩ := t
  obtain ⟨⟨h₁, h₂, h₃, h₄, h₅, h₆⟩, ⟨h₇, h₈⟩, h₉, h₁₀, h₁₁, h₁₂, h₁₃⟩ := h
  have h₂ := AList.ext h₂
  have h₃ := AList.ext h₃
  have h₄ := AList.ext h₄
  subst hconf h₁ h₂ h₃ h₄ h₅ h₆ h₇ h₈ h₉ h₁₀ h₁₁ h₁₂ h₁₃
  rfl

end Reference

open Reference in
/-- A reply is tried twice and finds the buffer full; the third attempt ends the call. -/
theorem send_attempts_bounded_twiceFull : ∃ s : Senders reference × ℕ,
    Senders.Watched eth 0 (Senders.Lone rings eth 0) narrow s ∧ s.2 = 2 ∧
      s.1.senders = [⟨replySession, [3], .attempting⟩] ∧
      ∃ t, s.1.step (.attempt 0) = some t ∧ t.senders = [] := by
  obtain ⟨s, hs, hcheck⟩ := Senders.exists_watched eth 0 (Senders.Lone rings eth 0) narrow twiceFull
    (fun s => decide (s.2 = 2 ∧ s.1.senders = [⟨replySession, [3], .attempting⟩] ∧
      replySession ∈ s.1.runtime.world.sessions)) (by decide +kernel)
  obtain ⟨hn, hsenders, hses⟩ := of_decide_eq_true hcheck
  have hx : s.1.senders[0]? = some ⟨replySession, [3], .attempting⟩ := by
    rw [hsenders]
    rfl
  obtain ⟨-, -, hfits, -⟩ := send_attempts_bounded reference_lawful rings_lawful hs hx ⟨rfl, rfl⟩
  obtain ⟨t, ht, hends⟩ := (hfits (by decide)).2 hn rfl hses
  rw [hsenders] at hends
  exact ⟨s, hs, hn, hsenders, t, ht, hends⟩

open Reference in
/-- The long datagram can be tried any number of times. -/
theorem Reference.exists_overlong (n : ℕ) : ∃ s : Senders reference × ℕ,
    Senders.Watched eth 0 (Senders.Lone rings eth 0) tight s ∧ s.2 = n ∧
      s.1.senders = [⟨replySession, overlong, .attempting⟩] ∧
      s.1.runtime.world.core.queues.isClosed replySession.queue = false := by
  obtain ⟨s, hs, hcheck⟩ := Senders.exists_watched eth 0 (Senders.Lone rings eth 0) tight sendOverlong
    (fun s => decide (s.2 = 0 ∧ s.1.senders = [⟨replySession, overlong, .attempting⟩] ∧
      s.1.runtime.world.core.queues.isClosed replySession.queue = false) && comesBack s) (by decide +kernel)
  obtain ⟨hcheck, hagain⟩ := Bool.and_eq_true_iff.mp hcheck
  obtain ⟨hn, hsenders, hopen⟩ := of_decide_eq_true hcheck
  obtain ⟨t, hround, ht⟩ := System.exists_of_compute (R := Senders.Steps) (fun h => h) hagain
  obtain ⟨halike, hone⟩ := of_decide_eq_true ht
  have hrun : ∀ n, Senders.Watched eth 0 (Senders.Lone rings eth 0) tight (s.1, n) := by
    intro n
    induction n with
    | zero => exact hn ▸ hs
    | succ n ih =>
      have hnext := Senders.reaches_add n hround
      rw [hn, Nat.add_zero] at hnext
      have ht' : Senders.Watched eth 0 (Senders.Lone rings eth 0) tight (t.1, n + t.2) :=
        ReflTransGen.trans ih hnext
      have hconf := (Senders.Watched.tried reference_lawful rings_lawful ht').1.config
      have hconf' := (Senders.Watched.tried reference_lawful rings_lawful ih).1.config
      rwa [halike.eq (hconf.trans hconf'.symm), hone, hn] at ht'
  exact ⟨(s.1, n), hrun n, rfl, hsenders, hopen⟩

open Reference in
/-- **A call of `send` that never ends.** With buffers of 28 bytes a datagram of 29 is tried again
and again, without a bound, though each poll empties the buffer, nobody else sends and the session
stays open. -/
theorem send_never_ends : ¬∃ B : ℕ, ∀ s : Senders reference × ℕ,
    Senders.Watched eth 0 (Senders.Lone rings eth 0) tight s →
      s.1.senders = [⟨replySession, overlong, .attempting⟩] →
      s.1.runtime.world.core.queues.isClosed replySession.queue = false → s.2 ≤ B := by
  rintro ⟨B, hB⟩
  obtain ⟨s, hs, hn, hsenders, hopen⟩ := exists_overlong (B + 1)
  have hle := hB s hs hsenders hopen
  omega

end WayNetstack

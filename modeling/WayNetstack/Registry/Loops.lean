import WayNetstack.Registry.Cycle

/-!
# What the loops of the post-pass have done

The relations of the loop bodies say what one visit can do. Here is what the loops of the
post-pass have done after any number of visits: the reap (`Reaped`), the draining of the
shared sockets (`Drained`), the routing of what they held (`lookup_route`, `queues_route`)
and the sweep (`Swept`). Each is stated by the keys or sockets visited, or by the entries
that have gone, and is proved by one step and an induction over the loop.
-/

namespace WayNetstack

open Lib Lib.Table Lib.Traced SessionManager Relation

variable {S : Smoltcp}

/-! ### Slots one by one -/

/-- Sockets of the slot have gone, and its pool may have changed. -/
structure InterfaceSlot.Thinned (slot slot' : InterfaceSlot S) : Prop where
  frame : slot' = { slot with sockets := slot'.sockets, tcpPool := slot'.tcpPool }
  sockets : slot.sockets.Thinned slot'.sockets

theorem InterfaceSlot.Thinned.refl (slot : InterfaceSlot S) : slot.Thinned slot :=
  ⟨rfl, Slab.Thinned.refl _⟩

theorem InterfaceSlot.Thinned.trans {slot slot' slot'' : InterfaceSlot S} (h : slot.Thinned slot')
    (h' : slot'.Thinned slot'') : slot.Thinned slot'' :=
  ⟨h'.frame.trans (by rw [h.frame]), h.sockets.trans h'.sockets⟩

/-- Removing a socket thins a slot, whatever its pool becomes. -/
theorem InterfaceSlot.Thinned.withoutSocket (slot : InterfaceSlot S) (h : SocketHandle)
    (pool : List S.Tcp) : slot.Thinned ((slot.withoutSocket h).withPool pool) :=
  ⟨rfl, Slab.Thinned.remove _ _⟩

namespace Core

/-- Every slot of `c` has become one of `c'` that `R` relates it to. -/
def Slotwise (R : InterfaceSlot S → InterfaceSlot S → Prop) (c c' : Core S) : Prop :=
  ∀ id slot, c.slot id = some slot → ∃ slot', c'.slot id = some slot' ∧ R slot slot'

variable {R Q : InterfaceSlot S → InterfaceSlot S → Prop} {c c' c'' : Core S}

/-- A slot is written back. -/
theorem Slotwise.setSlot (h : c.Slotwise R c') {slot : InterfaceSlot S} (slot' : InterfaceSlot S)
    (hs : c'.slot slot'.id = some slot)
    (hstep : ∀ slot₀, c.slot slot'.id = some slot₀ → R slot₀ slot → Q slot₀ slot')
    (hrest : ∀ id slot₀ slot₁, id ≠ slot'.id → c.slot id = some slot₀ → R slot₀ slot₁ → Q slot₀ slot₁) :
    c.Slotwise Q (c'.setSlot slot') := by
  intro id slot₀ hs₀
  obtain ⟨slot₁, hs₁, hR⟩ := h id slot₀ hs₀
  rw [slot_setSlot hs]
  by_cases hid : id = slot'.id
  · subst hid
    obtain rfl : slot₁ = slot := Option.some.inj (hs₁.symm.trans hs)
    exact ⟨slot', if_pos rfl, hstep slot₀ hs₀ hR⟩
  · exact ⟨slot₁, by rw [if_neg hid]; exact hs₁, hrest id slot₀ slot₁ hid hs₀ hR⟩

end Core

/-! ### The reap -/

/-- The pool takes a socket while there is room. -/
theorem pool_take {α : Type} (pool reaped : List α) (x : α) (room : ℕ) :
    (if (pool ++ reaped.take (room - pool.length)).length < room then
        pool ++ reaped.take (room - pool.length) ++ [x]
      else pool ++ reaped.take (room - pool.length)) =
      pool ++ (reaped ++ [x]).take (room - pool.length) := by
  rcases Nat.lt_or_ge reaped.length (room - pool.length) with hlt | hge
  · rw [List.take_of_length_le (Nat.le_of_lt hlt), List.take_of_length_le (by simp; omega),
      if_pos (by simp; omega), List.append_assoc]
  · rw [List.take_append_of_le_length hge, if_neg (by simp; omega)]

/-- The sockets of the entries of `keys` on an interface. -/
def Core.socketsOf (c : Core S) (keys : List SessionKey) (id : InterfaceId) : List S.Tcp :=
  (keys.filter fun k => decide (k.interface = id)).filterMap fun k =>
    (c.manager.tcp.lookup k).bind fun e => (c.socketAt id e.handle).bind Socket.tcp?

/-- What the reap has done with the keys `done` visited: their entries and sockets have
gone, and the pools have taken the sockets as far as there was room. -/
structure Reaped (c : Core S) (done : List SessionKey) (st : Core S × ℕ) : Prop where
  core : st.1 = { c with slots := st.1.slots, manager := { c.manager with tcp := st.1.manager.tcp } }
  lookup : ∀ k, st.1.manager.tcp.lookup k = if k ∈ done then none else c.manager.tcp.lookup k
  slot : c.Slotwise (fun slot slot' => slot.Thinned slot' ∧ slot'.tcpPool = slot.tcpPool ++
    (c.socketsOf done slot.id).take (slot.tcpPoolMax - slot.tcpPool.length)) st.1

section Reap

variable {c c' : Core S} {streams : List WayTcpStream} {sessions : List WayUdpSession} {exact : Prop}

theorem Reaped.step {done : List SessionKey} {m : ℕ} (h : Reaped c done (c', m))
    (hr : c'.Registered streams sessions) {key : SessionKey} {e : TcpEntry} (hnew : key ∉ done)
    (he : c.manager.tcp.lookup key = some e) :
    Ok (Call.Good exact) (reapTcp (c', m) key) (Reaped c (done ++ [key])) := by
  have he' : c'.manager.tcp.lookup key = some e := by rw [h.lookup, if_neg hnew, he]
  obtain ⟨slot, t, hs, hid, hget, -, hok⟩ := reapTcp_entry hr m he'
  refine hok.mono ?_
  rintro _ rfl
  refine ⟨?_, fun k => ?_, ?_⟩
  · have hcore : c' = _ := h.core
    simp only [Core.closeTcp, Core.setSlot]
    rw [hcore]
  · show (c'.manager.tcp.erase key).lookup k = _
    rw [lookup_erase', h.lookup]
    by_cases hk : k = key <;> simp [hk]
  · let slot' := (slot.withoutSocket e.handle).withPool
      (if slot.tcpPool.length < slot.tcpPoolMax then slot.tcpPool ++ [t] else slot.tcpPool)
    refine Core.Slotwise.setSlot (show c.Slotwise _ c' from h.slot) slot' hs ?_ ?_
    · -- the slot of the key: its socket goes to the pool
      rintro slot₀ hs₀ ⟨hthin, hpool⟩
      have hs₀ : c.slot slot.id = some slot₀ := hs₀
      have hid₀ : slot₀.id = slot.id := Core.id_of_slot hs₀
      have hmax : slot.tcpPoolMax = slot₀.tcpPoolMax := by rw [hthin.frame]
      have hsock : c.socketsOf (done ++ [key]) slot₀.id = c.socketsOf done slot₀.id ++ [t] := by
        have hat : c.socketAt slot₀.id e.handle = some (.tcp t) := by
          rw [hid₀, Core.socketAt, hs₀]
          exact hthin.sockets.get?_of_some hget
        have hint : key.interface = slot₀.id := hid.trans hid₀.symm
        simp [Core.socketsOf, List.filter_append, hint, he, hat, Socket.tcp?]
      refine ⟨hthin.trans (.withoutSocket slot e.handle _), ?_⟩
      show (if slot.tcpPool.length < slot.tcpPoolMax then slot.tcpPool ++ [t] else slot.tcpPool) = _
      rw [hsock, ← pool_take, ← hpool, hmax]
    · -- another slot: no socket of its own
      rintro id slot₀ slot₁ hne hs₀ ⟨hthin, hpool⟩
      have hne : key.interface ≠ slot₀.id := by
        rw [hid, Core.id_of_slot hs₀]
        exact Ne.symm hne
      refine ⟨hthin, ?_⟩
      rw [hpool]
      simp [Core.socketsOf, List.filter_append, hne]

/-- The reap, from a core in order, of keys that have entries. -/
theorem reap_reaped (hr : c.Registered streams sessions) (keys : List SessionKey) (hnodup : keys.Nodup)
    (hkeys : ∀ k ∈ keys, ∃ e, c.manager.tcp.lookup k = some e) (hreap : c.Reapable keys) :
    Ok (Call.Good exact) (keys.foldlM reapTcp (c, 0)) (Reaped c keys) := by
  refine (ok_foldlM_visited (I := fun done rest st => Reaped c done st ∧
    st.1.Registered streams sessions ∧ st.1.Reapable rest)
    ⟨⟨rfl, by simp, fun _ _ hs => ⟨_, hs, .refl _, by simp [Core.socketsOf]⟩⟩, hr, hreap⟩ ?_).mono
    fun _ h => h.1
  rintro done key rest ⟨c', m⟩ hsplit ⟨hdone, hr', hreap'⟩
  obtain ⟨e, he⟩ := hkeys key (by rw [← hsplit]; simp)
  rw [← hsplit, List.nodup_middle, List.nodup_cons] at hnodup
  have hnew : key ∉ done := fun hmem => hnodup.1 (List.mem_append_left _ hmem)
  refine ((hdone.step hr' hnew he).and (reapTcp_ok hr' hreap')).mono ?_
  rintro st ⟨hstep, hrel, hrest, -⟩
  refine ⟨hstep, ?_, hrest⟩
  rcases hrel with rfl | hrel
  · exact hr'
  · exact hrel.registered hr'

end Reap

/-! ### Draining the shared sockets -/

/-- A socket once the shared sockets have been drained. -/
def Smoltcp.drainedSocket (S : Smoltcp) : S.Socket → S.Socket
  | .tcp t => .tcp t
  | .udp u => .udp (S.drained u)

namespace Core

/-- The shared socket of a destination. -/
def boundUdp (c : Core S) (d : InterfaceId × IpEndpoint) : Option S.Udp :=
  (c.manager.udpDstSockets.lookup d).bind fun x => (c.socketAt d.1 x.1).bind Socket.udp?

/-- The datagrams held for a session, oldest first: those that the socket of its
destination has received from its source. -/
def heldFor (c : Core S) (k : SessionKey) : List Bytes :=
  if k.proto = .udp then
    (((c.boundUdp (dstOf k)).elim [] S.udpRx).filter fun d => decide (d.2 = k.src)).map (·.1)
  else []

/-- A shared socket: its interface, its handle and its destination. -/
abbrev Visit := InterfaceId × SocketHandle × IpEndpoint

/-- What a shared socket holds, addressed to sessions. -/
def datagrams (c : Core S) (d : Visit) : List (SessionKey × Bytes) :=
  ((c.socketAt d.1 d.2.1).bind Socket.udp?).elim [] fun u =>
    (S.udpRx u).map fun x => (⟨d.1, .udp, x.2, d.2.2⟩, x.1)

/-- The shared sockets of slot `i`, as they are visited. -/
def visitsAt (c : Core S) (i : ℕ) : List Visit :=
  (c.slots[i]?).elim [] fun slot => (dstSockets c.manager slot.id).map fun dst => (slot.id, dst)

/-- All the shared sockets, as they are visited. -/
def visits (c : Core S) : List Visit := (List.range c.slots.length).flatMap c.visitsAt

variable {c : Core S} {streams : List WayTcpStream} {sessions : List WayUdpSession}

theorem mem_visitsAt {i : ℕ} {d : Visit} : d ∈ c.visitsAt i ↔
    ∃ slot n, c.slots[i]? = some slot ∧ slot.id = d.1 ∧
      c.manager.udpDstSockets.lookup (d.1, d.2.2) = some (d.2.1, n) := by
  unfold visitsAt
  cases hi : c.slots[i]? with
  | none => simp
  | some slot =>
    simp only [Option.elim_some, List.mem_map, Option.some.injEq, exists_and_left, exists_eq_left']
    constructor
    · rintro ⟨⟨h, ep⟩, hdst, rfl⟩
      exact ⟨rfl, mem_dstSockets.mp hdst⟩
    · rintro ⟨hid, hd⟩
      exact ⟨d.2, mem_dstSockets.mpr (hid ▸ hd), by rw [hid]⟩

theorem mem_visits (hr : c.Registered streams sessions) {d : Visit} : d ∈ c.visits ↔
    ∃ n, c.manager.udpDstSockets.lookup (d.1, d.2.2) = some (d.2.1, n) := by
  unfold visits
  simp only [List.mem_flatMap, mem_visitsAt]
  constructor
  · rintro ⟨i, -, slot, n, -, -, hd⟩
    exact ⟨n, hd⟩
  · rintro ⟨n, hd⟩
    obtain ⟨slot, u, hs, -⟩ := exists_udp (hr.udp.named hd)
    obtain ⟨i, hi⟩ := List.mem_iff_getElem?.mp (mem_of_slot hs)
    exact ⟨i, List.mem_range.mpr (List.getElem?_eq_some_iff.mp hi).1, slot, n, hi, id_of_slot hs, hd⟩

theorem nodup_dstSockets (m : SessionManager) (id : InterfaceId) : (dstSockets m id).Nodup := by
  have hkeys : (m.udpDstSockets.entries.map (·.1)).Nodup := m.udpDstSockets.nodupKeys
  refine (List.Nodup.of_map _ hkeys).filter _ |>.map_on ?_
  intro e he e' he' heq
  rw [List.mem_filter, decide_eq_true_eq] at he he'
  obtain ⟨h₁, h₂⟩ := Prod.mk.inj heq
  refine List.inj_on_of_nodup_map hkeys he.1 he'.1 (Prod.ext (he.2.trans he'.2.symm) h₂)

theorem nodup_visits (hn : c.ids.Nodup) : c.visits.Nodup := by
  refine List.nodup_flatMap.mpr ⟨fun i _ => ?_, ?_⟩
  · unfold visitsAt
    cases c.slots[i]? with
    | none => exact List.nodup_nil
    | some slot => exact (nodup_dstSockets c.manager slot.id).map fun _ _ h => (Prod.mk.inj h).2
  · refine List.nodup_range.imp_of_mem ?_
    intro i j _ _ hij d hdi hdj
    obtain ⟨slot, -, hi, hid, -⟩ := mem_visitsAt.mp hdi
    obtain ⟨slot', -, hj, hid', -⟩ := mem_visitsAt.mp hdj
    -- slots at two places have two identifiers
    have hi' : c.ids[i]? = some d.1 := by simp [ids, hi, hid]
    have hj' : c.ids[j]? = some d.1 := by simp [ids, hj, hid']
    exact hij ((List.getElem?_inj (List.getElem?_eq_some_iff.mp hi').1 hn).mp (hi'.trans hj'.symm))

end Core

/-- What draining has done with the sockets `done` visited. -/
structure Drained (c : Core S) (done : List Core.Visit) (st : Core S × List (SessionKey × Bytes)) :
    Prop where
  core : st.1 = { c with slots := st.1.slots }
  ids : st.1.ids = c.ids
  slot : c.Slotwise (fun slot slot' => slot' = { slot with sockets := slot'.sockets } ∧
    slot'.sockets.cells.length = slot.sockets.cells.length ∧
    ∀ h, slot'.sockets.get? h = if (slot.id, h) ∈ done.map (fun d => (d.1, d.2.1)) then
      (slot.sockets.get? h).map S.drainedSocket else slot.sockets.get? h) st.1
  routed : st.2 = done.flatMap c.datagrams

section Drain

variable {c c' : Core S} {streams : List WayTcpStream} {sessions : List WayUdpSession} {exact : Prop}

theorem Drained.step (hS : S.Lawful) {done : List Core.Visit} {routed : List (SessionKey × Bytes)}
    (h : Drained c done (c', routed)) (hr : c'.Registered streams sessions) {i : ℕ}
    {slot : InterfaceSlot S} (hi : c'.slots[i]? = some slot) {dst : SocketHandle × IpEndpoint}
    (hdst : dst ∈ dstSockets c.manager slot.id)
    (hnew : (slot.id, dst.1) ∉ done.map fun d => (d.1, d.2.1)) :
    Ok (Call.Good exact) (drainDst i (c', routed) dst) (Drained c (done ++ [(slot.id, dst)])) := by
  have hman : c'.manager = c.manager := by rw [show c' = _ from h.core]
  have hs := Core.slot_of_getElem? hr.shaped.ids hi
  obtain ⟨u, hget, hok⟩ := drainDst_shared hS hr hi (hman ▸ hdst) routed
  refine hok.mono ?_
  rintro _ rfl
  refine ⟨?_, ?_, ?_, ?_⟩
  · simp only [Core.setSlot]
    rw [show c' = _ from h.core]
  · exact (Core.map_setSlot InterfaceSlot.id (slot.putSocket dst.1 (.udp (S.drained u))) hs rfl).trans h.ids
  · refine Core.Slotwise.setSlot (show c.Slotwise _ c' from h.slot)
      (slot.putSocket dst.1 (.udp (S.drained u))) hs ?_ ?_
    · rintro slot₀ hs₀ ⟨hframe, hlen, hcells⟩
      have hid₀ : slot₀.id = slot.id := Core.id_of_slot hs₀
      refine ⟨?_, ?_, fun hd => ?_⟩
      · exact congrArg (fun s : InterfaceSlot S =>
          { s with sockets := slot.sockets.put dst.1 (.udp (S.drained u)) }) hframe
      · exact (Slab.length_put _ _ _).trans hlen
      · show (slot.sockets.put dst.1 (.udp (S.drained u))).get? hd = _
        rw [Slab.get?_put hget, hcells, hid₀]
        by_cases hhd : hd = dst.1
        · subst hhd
          have h₀ : slot₀.sockets.get? dst.1 = some (.udp u) := by
            rw [← hget, hcells, hid₀, if_neg hnew]
          simp [h₀, Smoltcp.drainedSocket]
        · simp only [hhd, if_false, List.map_append, List.map_cons, List.map_nil, List.mem_append,
            List.mem_singleton, Prod.mk.injEq, and_false, or_false]
    · rintro id slot₀ slot₁ hne hs₀ ⟨hframe, hlen, hcells⟩
      have hne : slot₀.id ≠ slot.id := by
        rw [Core.id_of_slot hs₀]
        exact hne
      refine ⟨hframe, hlen, fun hd => ?_⟩
      simp only [hcells, List.map_append, List.map_cons, List.map_nil, List.mem_append,
        List.mem_singleton, Prod.mk.injEq, hne, false_and, or_false]
  · have hrouted : routed = _ := h.routed
    have hat : c.socketAt slot.id dst.1 = some (.udp u) := by
      have hmem : slot.id ∈ c.ids := by
        rw [← h.ids]
        exact Core.exists_slot.mp ⟨slot, hs⟩
      obtain ⟨slot₀, hs₀⟩ := Core.exists_slot.mpr hmem
      obtain ⟨slot₁, hs₁, -, -, hcells⟩ := h.slot slot.id slot₀ hs₀
      obtain rfl : slot₁ = slot := Option.some.inj (hs₁.symm.trans hs)
      rw [Core.socketAt, hs₀, Option.bind_some, ← hget, hcells, Core.id_of_slot hs₀, if_neg hnew]
    simp [hrouted, Core.datagrams, hat, Socket.udp?]

/-- A socket still to be visited has not been drained: no other destination has it. -/
theorem Core.visit_fresh (hr : c.Registered streams sessions) {done rest : List Core.Visit} {d : Core.Visit}
    (hsplit : done ++ d :: rest = c.visits) : (d.1, d.2.1) ∉ done.map fun d => (d.1, d.2.1) := by
  intro hmem
  obtain ⟨d', hd', heq⟩ := List.mem_map.mp hmem
  obtain ⟨hid, hh⟩ := Prod.mk.inj heq
  obtain ⟨n, hn⟩ := (Core.mem_visits hr).mp (by rw [← hsplit]; simp : d ∈ c.visits)
  obtain ⟨n', hn'⟩ := (Core.mem_visits hr).mp (by rw [← hsplit]; simp [hd'] : d' ∈ c.visits)
  rw [hid, hh] at hn'
  obtain rfl : d' = d := Prod.ext hid (Prod.ext hh (hr.udp.inj hn' hn))
  have hnodup := Core.nodup_visits hr.shaped.ids
  rw [← hsplit, List.nodup_middle, List.nodup_cons] at hnodup
  exact hnodup.1 (List.mem_append_left _ hd')

/-- A slot has kept its place. -/
theorem Drained.place {done : List Core.Visit} {st : Core S × List (SessionKey × Bytes)}
    (h : Drained c done st) (i : ℕ) :
    (st.1.slots[i]?).map (·.id) = (c.slots[i]?).map (·.id) := by
  have hids : st.1.ids[i]? = c.ids[i]? := by rw [h.ids]
  simpa [Core.ids] using hids

/-- Draining a slot visits its shared sockets. -/
theorem drainSlot_drained (hS : S.Lawful) (hc : c.Registered streams sessions) {i : ℕ}
    {done rest : List Core.Visit} (hsplit : done ++ c.visitsAt i ++ rest = c.visits)
    {st : Core S × List (SessionKey × Bytes)} (h : Drained c done st)
    (hr : st.1.Registered streams sessions) :
    Ok (Call.Good exact) (drainSlot st i) fun st' =>
      Drained c (done ++ c.visitsAt i) st' ∧ st'.1.Registered streams sessions := by
  have hplace := h.place i
  unfold drainSlot
  cases hi : st.1.slots[i]? with
  | none =>
    have hnone : c.slots[i]? = none := by simpa [hi] using hplace.symm
    have hvisits : c.visitsAt i = [] := by simp [Core.visitsAt, hnone]
    rw [hvisits, List.append_nil]
    exact ok_pure ⟨h, hr⟩
  | some slot =>
    obtain ⟨slot₀, hi₀, hid₀⟩ : ∃ slot₀, c.slots[i]? = some slot₀ ∧ slot₀.id = slot.id := by
      simpa [hi] using hplace.symm
    have hman : ∀ {done st}, Drained c done st → st.1.manager = c.manager := fun h => by rw [h.core]
    have hvisits : c.visitsAt i = (dstSockets c.manager slot.id).map fun dst => (slot.id, dst) := by
      simp [Core.visitsAt, hi₀, hid₀]
    rw [hvisits] at hsplit ⊢
    simp only [hman h]
    refine ok_foldlM_visited (I := fun ds _ st => Drained c (done ++ ds.map fun dst => (slot.id, dst)) st ∧
      st.1.Registered streams sessions) ⟨by simpa using h, hr⟩ ?_
    rintro ds dst ds' ⟨c', routed⟩ hds ⟨hdone, hr'⟩
    obtain ⟨slot', hi', hid'⟩ : ∃ slot', c'.slots[i]? = some slot' ∧ slot'.id = slot.id := by
      simpa [hi₀, hid₀] using hdone.place i
    have hdst : dst ∈ dstSockets c.manager slot'.id := by
      rw [hid', ← hds]
      simp
    have hleft : (done ++ ds.map fun dst => (slot.id, dst)) ++
        (slot.id, dst) :: ((ds'.map fun dst => (slot.id, dst)) ++ rest) = c.visits := by
      rw [← hsplit, ← hds]
      simp
    have hnew := Core.visit_fresh hc hleft
    rw [← hid'] at hnew hdone ⊢
    refine ((hdone.step hS hr' hi' hdst hnew).and
      (drainDst_ok hS hr' hi' (hman hdone ▸ hdst) routed)).mono ?_
    rintro st' ⟨hstep, hrel⟩
    refine ⟨?_, (hrel.evolves hr').registered hr'⟩
    rw [List.map_append, ← List.append_assoc]
    exact hstep

/-- Draining visits every shared socket. -/
theorem drainSlots_drained (hS : S.Lawful) (hr : c.Registered streams sessions) :
    Ok (Call.Good exact) (drainSlots c) (Drained c c.visits) := by
  refine (ok_foldlM_visited (I := fun is _ st => Drained c (is.flatMap c.visitsAt) st ∧
    st.1.Registered streams sessions)
    ⟨⟨rfl, rfl, fun _ slot hs => ⟨slot, hs, rfl, rfl, by simp⟩, rfl⟩, hr⟩ ?_).mono fun _ h => h.1
  rintro is i is' st his ⟨hdone, hr'⟩
  rw [List.flatMap_append, List.flatMap_singleton]
  refine drainSlot_drained hS hr (show _ ++ _ ++ is'.flatMap c.visitsAt = _ from ?_) hdone hr'
  unfold Core.visits
  rw [← his]
  simp

/-- All shared sockets drained: every UDP socket is empty, and nothing else has changed. -/
theorem Drained.slots {st : Core S × List (SessionKey × Bytes)} (h : Drained c c.visits st)
    (hr : c.Registered streams sessions) :
    c.Slotwise (fun slot slot' => slot' = { slot with sockets := slot.sockets.map S.drainedSocket }) st.1 := by
  intro id slot hs
  obtain ⟨slot', hs', hframe, hlen, hcells⟩ := h.slot id slot hs
  refine ⟨slot', hs', hframe.trans ?_⟩
  congr 1
  refine Slab.ext_get? (by simp [hlen]) fun hd => ?_
  rw [hcells, Slab.get?_map]
  split
  · rfl
  · next hnot =>
    cases hget : slot.sockets.get? hd with
    | none => rfl
    | some s =>
      cases s with
      | tcp t => rfl
      | udp u =>
        -- every UDP socket is a shared one
        have hhas : c.protoAt id hd = some .udp := by
          simp [Core.protoAt, Core.socketAt, hs, hget, Socket.proto]
        obtain ⟨ep, n, hn⟩ := hr.udp.owned hhas
        have hmem : (id, hd, ep) ∈ c.visits := (Core.mem_visits hr).mpr ⟨n, hn⟩
        exact absurd (List.mem_map_of_mem (f := fun d => (d.1, d.2.1)) hmem) (Core.id_of_slot hs ▸ hnot)

/-- A socket of another destination has nothing for the session. -/
theorem Core.datagrams_other {d : Core.Visit} {k : SessionKey}
    (hd : ¬(k.proto = .udp ∧ (d.1, d.2.2) = dstOf k)) :
    (c.datagrams d).filter (fun x => decide (x.1 = k)) = [] := by
  rw [List.filter_eq_nil_iff]
  intro x hx hk
  cases hu : (c.socketAt d.1 d.2.1).bind Socket.udp? with
  | none => simp [Core.datagrams, hu] at hx
  | some u =>
    simp only [Core.datagrams, hu, Option.elim_some, List.mem_map] at hx
    obtain ⟨y, -, rfl⟩ := hx
    exact hd (of_decide_eq_true hk ▸ ⟨rfl, rfl⟩)

/-- The socket of its destination has what is held for the session. -/
theorem Core.datagrams_bound (hr : c.Registered streams sessions) {k : SessionKey} (hproto : k.proto = .udp)
    {h : SocketHandle} {n : ℕ} (hlook : c.manager.udpDstSockets.lookup (dstOf k) = some (h, n)) :
    ((c.datagrams (k.interface, h, k.dst)).filter fun x => decide (x.1 = k)).map (·.2) = c.heldFor k := by
  obtain ⟨slot, u, hs, hget⟩ := Core.exists_udp (hr.udp.named hlook)
  have hat : c.socketAt k.interface h = some (.udp u) := by
    rw [Core.socketAt, hs]
    exact hget
  have hbound : c.boundUdp (dstOf k) = some u := by
    simp [Core.boundUdp, hlook, show c.socketAt (dstOf k).1 h = _ from hat, Socket.udp?]
  have hkey : ∀ y : Bytes × IpEndpoint,
      ((⟨k.interface, .udp, y.2, k.dst⟩ : SessionKey) = k) = (y.2 = k.src) := by
    intro y
    obtain ⟨i, p, src, dst⟩ := k
    simp_all
  unfold Core.heldFor
  rw [if_pos hproto, hbound]
  simp [Core.datagrams, hat, Socket.udp?, List.filter_map, Function.comp_def, hkey]

/-- All shared sockets drained: what is addressed to a session is what is held for it, in
order. -/
theorem Drained.heldFor {st : Core S × List (SessionKey × Bytes)} (h : Drained c c.visits st)
    (hr : c.Registered streams sessions) (k : SessionKey) :
    (st.2.filter fun d => decide (d.1 = k)).map (·.2) = c.heldFor k := by
  rw [h.routed, List.filter_flatMap]
  by_cases hbound : k.proto = .udp ∧ ∃ x, c.manager.udpDstSockets.lookup (dstOf k) = some x
  · obtain ⟨hproto, ⟨hd, n⟩, hlook⟩ := hbound
    have hmem : (k.interface, hd, k.dst) ∈ c.visits := (Core.mem_visits hr).mpr ⟨n, hlook⟩
    rw [flatMap_of_unique (Core.nodup_visits hr.shaped.ids) hmem, Core.datagrams_bound hr hproto hlook]
    intro d hd' hne
    refine Core.datagrams_other fun hdst => hne ?_
    obtain ⟨n', hn'⟩ := (Core.mem_visits hr).mp hd'
    rw [hdst.2, hlook] at hn'
    cases hn'
    obtain ⟨hid, hep⟩ := Prod.mk.inj hdst.2
    exact Prod.ext hid (Prod.ext rfl hep)
  · -- no socket is visited for the session, and nothing is held
    have hnil : (c.visits.flatMap fun d => (c.datagrams d).filter fun x => decide (x.1 = k)) = [] := by
      refine List.flatMap_eq_nil_iff.mpr fun d hd => Core.datagrams_other fun hdst => hbound ⟨hdst.1, ?_⟩
      obtain ⟨n, hn⟩ := (Core.mem_visits hr).mp hd
      exact ⟨_, hdst.2 ▸ hn⟩
    rw [hnil, List.map_nil]
    unfold Core.heldFor
    split
    · next hproto =>
      have hnone : c.manager.udpDstSockets.lookup (dstOf k) = none := by
        rw [Option.eq_none_iff_forall_ne_some]
        exact fun x hx => hbound ⟨hproto, x, hx⟩
      simp [Core.boundUdp, hnone]
    · rfl

end Drain

/-! ### Routing -/

section Route

variable (now : Instant)

theorem route_frame (ds : List (SessionKey × Bytes)) (c : Core S) :
    ds.foldl (route now) c = { c with
      queues := (ds.foldl (route now) c).queues
      manager := { c.manager with udp := (ds.foldl (route now) c).manager.udp } } :=
  run_keeps (P := fun c' => c' = { c with
      queues := c'.queues
      manager := { c.manager with udp := c'.manager.udp } })
    (fun _ _ hstep hc => by
      cases hstep
      simp only
      rw [hc]) (route_run now ds c) rfl

theorem lookup_route_one (c : Core S) (d : SessionKey × Bytes) (k : SessionKey) :
    (route now c d).manager.udp.lookup k = (c.manager.udp.lookup k).map fun e =>
      if k = d.1 then { e with lastActivity := now } else e := by
  unfold route
  cases he : c.manager.udp.lookup d.1 with
  | none =>
    obtain rfl | hk := eq_or_ne k d.1
    · simp [he]
    · simp [hk]
  | some e =>
    simp only [lookup_replace he]
    obtain rfl | hk := eq_or_ne k d.1
    · simp [he]
    · simp [hk]

/-- Routing touches the entries that something is addressed to. -/
theorem lookup_route (ds : List (SessionKey × Bytes)) (c : Core S) (k : SessionKey) :
    (ds.foldl (route now) c).manager.udp.lookup k = (c.manager.udp.lookup k).map fun e =>
      if k ∈ ds.map (·.1) then { e with lastActivity := now } else e := by
  induction ds generalizing c with
  | nil => simp
  | cons d ds ih =>
    rw [List.foldl_cons, ih, lookup_route_one, Option.map_map]
    congr 1
    funext e
    by_cases hk : k = d.1 <;> by_cases hds : k ∈ ds.map (·.1) <;> simp_all

theorem queues_route_one (c : Core S) (d : SessionKey × Bytes) (q : QueueRef) :
    (route now c d).queues[q]? =
      if ((c.manager.udp.lookup d.1).any fun e => decide (e.queue = q)) = true then
        (c.queues[q]?).map (·.push d.2) else c.queues[q]? := by
  unfold route
  cases he : c.manager.udp.lookup d.1 with
  | none => simp
  | some e =>
    simp only [List.getElem?_modify, Option.any_some, decide_eq_true_eq]
    by_cases hq : e.queue = q <;> simp [hq]

/-- Routing appends to each queue what is addressed to its entry, in order. -/
theorem queues_route (ds : List (SessionKey × Bytes)) (c : Core S) (q : QueueRef) :
    (ds.foldl (route now) c).queues[q]? = (c.queues[q]?).map fun u => { u with
      inner := u.inner ++ (ds.filter fun d =>
        (c.manager.udp.lookup d.1).any fun e => decide (e.queue = q)).map (·.2) } := by
  induction ds generalizing c with
  | nil => simp
  | cons d ds ih =>
    have hsame : ∀ k, ((route now c d).manager.udp.lookup k).any (fun e => decide (e.queue = q)) =
        (c.manager.udp.lookup k).any fun e => decide (e.queue = q) := by
      intro k
      rw [lookup_route_one, Option.any_map]
      congr 1
      funext e
      by_cases hk : k = d.1 <;> simp [hk]
    rw [List.foldl_cons, ih, queues_route_one]
    simp only [hsame, List.filter_cons]
    split
    · rw [Option.map_map]
      congr 1
      funext u
      simp [UdpQueue.push]
    · rfl

end Route

/-! ### The sweep -/

/-- What the sweep has done, by the entries that have gone. -/
structure Swept (c : Core S) (st : Core S × ℕ) : Prop where
  core : st.1 = { c with
    slots := st.1.slots
    queues := st.1.queues
    manager := { c.manager with
      udp := st.1.manager.udp
      udpDstSockets := st.1.manager.udpDstSockets } }
  lookup : ∀ {k e}, st.1.manager.udp.lookup k = some e → c.manager.udp.lookup k = some e
  slot : c.Slotwise (fun slot slot' => slot.Thinned slot' ∧ slot'.tcpPool = slot.tcpPool) st.1
  kept : ∀ {q}, (∀ k e, c.manager.udp.lookup k = some e → st.1.manager.udp.lookup k = none → e.queue ≠ q) →
    st.1.queues[q]? = c.queues[q]?
  closed : ∀ {k e}, c.manager.udp.lookup k = some e → st.1.manager.udp.lookup k = none →
    st.1.queues[e.queue]? = (c.queues[e.queue]?).map UdpQueue.markClosed

section Sweep

variable {c : Core S} {streams : List WayTcpStream} {sessions : List WayUdpSession}

theorem Swept.refl (c : Core S) (m : ℕ) : Swept c (c, m) where
  core := rfl
  lookup := id
  slot := fun _ slot hs => ⟨slot, hs, .refl slot, rfl⟩
  kept := fun _ => rfl
  closed := fun h h' => by cases h.symm.trans h'

/-- The queues once one more entry has gone. -/
theorem Swept.queues (hr : c.Registered streams sessions) {st : Core S × ℕ} (h : Swept c st)
    {key : SessionKey} {e : UdpEntry} (he : st.1.manager.udp.lookup key = some e) :
    (∀ {q}, (∀ k e, c.manager.udp.lookup k = some e → (st.1.manager.udp.erase key).lookup k = none →
      e.queue ≠ q) → (st.1.queues.modify e.queue UdpQueue.markClosed)[q]? = c.queues[q]?) ∧
    (∀ {k e'}, c.manager.udp.lookup k = some e' → (st.1.manager.udp.erase key).lookup k = none →
      (st.1.queues.modify e.queue UdpQueue.markClosed)[e'.queue]? =
        (c.queues[e'.queue]?).map UdpQueue.markClosed) := by
  have he₀ := h.lookup he
  -- the entries gone before have other queues
  have hother : ∀ k e', c.manager.udp.lookup k = some e' → st.1.manager.udp.lookup k = none →
      e'.queue ≠ e.queue := by
    intro k e' he' hgone hq
    rw [hr.udp.queue_inj he' he₀ hq, he] at hgone
    cases hgone
  constructor
  · intro q hq
    have hne : e.queue ≠ q := hq key e he₀ (by rw [lookup_erase', if_pos rfl])
    rw [List.getElem?_modify_ne _ _ hne]
    refine h.kept fun k e' he' hgone => hq k e' he' ?_
    rw [lookup_erase', hgone, ite_self]
  · intro k e' he' hgone
    rw [lookup_erase'] at hgone
    by_cases hk : k = key
    · rw [hk, he₀, Option.some.injEq] at he'
      rw [← he', List.getElem?_modify_eq, h.kept hother]
      rfl
    · rw [if_neg hk] at hgone
      rw [List.getElem?_modify_ne _ _ (Ne.symm (hother k e' he' hgone))]
      exact h.closed he' hgone

theorem Swept.step (hr : c.Registered streams sessions) {st st' : Core S × ℕ} (h : Swept c st)
    (hstep : EndUdp st st') : Swept c st' := by
  cases hstep with
  | @leave c' m key e hd n he hn more =>
    obtain ⟨hkept, hclosed⟩ := h.queues hr he
    refine ⟨?_, ?_, h.slot, hkept, hclosed⟩
    · simp only [Core.leaveUdp]
      rw [show c' = _ from h.core]
    · intro k e' he'
      exact h.lookup (lookup_of_erase he').2
  | @close c' m slot key e hd n u hs hid he hn last hget =>
    obtain ⟨hkept, hclosed⟩ := h.queues hr he
    refine ⟨?_, ?_, ?_, hkept, hclosed⟩
    · simp only [Core.closeUdp, Core.setSlot]
      rw [show c' = _ from h.core]
    · intro k e' he'
      exact h.lookup (lookup_of_erase he').2
    · refine Core.Slotwise.setSlot (show c.Slotwise _ c' from h.slot) (slot.withoutSocket e.socket) hs ?_ ?_
      · rintro slot₀ _ ⟨hthin, hpool⟩
        exact ⟨hthin.trans (.withoutSocket slot e.socket slot.tcpPool), hpool⟩
      · exact fun _ _ _ _ _ hR => hR

theorem Ends.swept (hr : c.Registered streams sessions) {m : ℕ} {st : Core S × ℕ}
    (h : ReflTransGen EndUdp (c, m) st) : Swept c st :=
  run_keeps (P := Swept c) (fun _ _ hstep hs => hs.step hr hstep) h (.refl c m)

end Sweep

end WayNetstack

import WayNetstack.Registry.PrePass
import WayNetstack.Registry.Polls

/-!
# What the cycle does

The rest of the runner's cycle, each function with its specification: from a core
in order it ends without a fault, all its calls find what they expect, and what it
does is a run of the relation of its loop body. `pollOnce_ok` puts the passes
together; its postcondition, `CycleSpec`, is all that later proofs use of a cycle.
-/

namespace WayNetstack

open Lib Lib.Table Lib.Traced SessionManager Relation

variable {S : Smoltcp} {exact : Prop}

/-! ### TCP transitions -/

/-- The state of the socket of a TCP entry. -/
def Core.tcpStateOf (c : Core S) (key : SessionKey) (e : TcpEntry) : State :=
  match c.socketAt key.interface e.handle with
  | some (.tcp t) => S.tcpState t
  | _ => .closed

/-- The keys of the entries that are to be reaped. -/
def Core.reapable (c : Core S) : List SessionKey :=
  (c.manager.tcp.entries.filter fun e =>
    e.2.orphaned && decide (c.tcpStateOf e.1 e.2 = .closed)).map (·.1)

theorem Core.nodup_reapable (c : Core S) : c.reapable.Nodup :=
  List.Nodup.sublist (List.filter_sublist.map _) c.manager.tcp.nodupKeys

/-- A key that can be reaped has an entry. -/
theorem Core.mem_reapable {c : Core S} {k : SessionKey} : k ∈ c.reapable ↔ ∃ e, c.manager.tcp.lookup k = some e ∧
    e.orphaned = true ∧ c.tcpStateOf k e = .closed := by
  unfold reapable
  simp only [List.mem_map, List.mem_filter, Bool.and_eq_true, decide_eq_true_eq]
  constructor
  · rintro ⟨⟨k, e⟩, ⟨hmem, he⟩, rfl⟩
    exact ⟨e, lookup_eq_some.mpr hmem, he⟩
  · rintro ⟨e, he, hreap⟩
    exact ⟨⟨k, e⟩, ⟨lookup_eq_some.mp he, hreap⟩, rfl⟩

/-- What the TCP transitions do: every entry advances with its socket, and nothing
else changes. -/
structure TcpLoop.Spec (c : Core S) (st : TcpLoop S) : Prop where
  core : st.core = { c with manager := { c.manager with tcp := st.core.manager.tcp } }
  entries : ∀ k, st.core.manager.tcp.lookup k =
    (c.manager.tcp.lookup k).map fun e => (e.advance (c.tcpStateOf k e)).1
  keys : st.core.manager.tcp.keys = c.manager.tcp.keys
  accepted : st.accepted = (TcpBook.surfaced c.manager.tcp c.tcpStateOf).map .tcp
  tcpReap : st.tcpReap = c.reapable

section Transitions

variable {c : Core S} {streams : List WayTcpStream} {sessions : List WayUdpSession}

theorem Core.Registered.tcp_socket (hr : c.Registered streams sessions) {key : SessionKey}
    {e : TcpEntry} (he : c.manager.tcp.lookup key = some e) :
    ∃ slot t, c.slot key.interface = some slot ∧ slot.sockets.get? e.handle = some (.tcp t) ∧
      c.tcpStateOf key e = S.tcpState t := by
  obtain ⟨slot, t, hs, hget⟩ := Core.exists_tcp (hr.tcp.named he)
  refine ⟨slot, t, hs, hget, ?_⟩
  unfold Core.tcpStateOf Core.socketAt
  rw [hs, Option.bind_some, hget]

/-- The TCP transitions with the entries `done` visited. -/
structure TcpLoop.Visited (c : Core S) (done : List (Σ _ : SessionKey, TcpEntry))
    (st : TcpLoop S) : Prop where
  core : st.core = { c with manager := { c.manager with tcp := st.core.manager.tcp } }
  entries : ∀ k, st.core.manager.tcp.lookup k = if k ∈ done.map (·.1) then
    (c.manager.tcp.lookup k).map fun e => (e.advance (c.tcpStateOf k e)).1 else c.manager.tcp.lookup k
  keys : st.core.manager.tcp.keys = c.manager.tcp.keys
  accepted : st.accepted = ((done.filter fun e => (e.2.advance (c.tcpStateOf e.1 e.2)).2).map
    fun e => streamOf e.1 e.2.handle).map .tcp
  tcpReap : st.tcpReap = (done.filter fun e =>
    e.2.orphaned && decide (c.tcpStateOf e.1 e.2 = .closed)).map (·.1)

theorem tcpVisit_ok (hr : c.Registered streams sessions)
    {done : List (Σ _ : SessionKey, TcpEntry)} {e : Σ _ : SessionKey, TcpEntry} {st : TcpLoop S}
    (hv : TcpLoop.Visited c done st) (he : c.manager.tcp.lookup e.1 = some e.2)
    (hnew : e.1 ∉ done.map (·.1)) :
    Ok (Call.Good exact) (tcpVisit st e) (TcpLoop.Visited c (done ++ [e])) := by
  obtain ⟨slot, t, hs, hget, hstate⟩ := hr.tcp_socket he
  have hslot : st.core.slot e.1.interface = some slot := by rw [hv.core]; exact hs
  have hlook : st.core.manager.tcp.lookup e.1 = some e.2 := by rw [hv.entries, if_neg hnew, he]
  unfold tcpVisit
  simp only [hslot]
  refine (InterfaceSlot.getTcp_ok hget).bind ?_
  rintro _ rfl
  rw [← hstate]
  refine ok_pure ⟨?_, ?_, ?_, ?_, ?_⟩
  · rw [hv.core]
  · intro k
    simp only [lookup_replace hlook, List.map_append, List.map_cons, List.map_nil, List.mem_append,
      List.mem_singleton]
    by_cases hk : k = e.1
    · subst hk
      simp [he]
    · rw [if_neg hk, hv.entries k]
      exact if_congr (by simp [hk]) rfl rfl
  · simp only [AList.keys_replace]
    exact hv.keys
  · simp only [TcpEntry.advance_handle, hv.accepted, List.filter_append, List.map_append]
    cases hadv : (e.2.advance (c.tcpStateOf e.1 e.2)).2 with
    | true => simp [hadv]
    | false => simp [hadv]
  · simp only [TcpEntry.advance_orphaned, hv.tcpReap, List.filter_append, List.map_append]
    cases hreap : e.2.orphaned && decide (c.tcpStateOf e.1 e.2 = .closed) with
    | true => simp [hreap]
    | false => simp [hreap]

theorem tcpTransitions_ok (hr : c.Registered streams sessions) :
    Ok (Call.Good exact) (tcpTransitions c) (TcpLoop.Spec c) := by
  unfold tcpTransitions
  have hnodup : (c.manager.tcp.entries.map (·.1)).Nodup := c.manager.tcp.nodupKeys
  refine (ok_foldlM_visited (I := fun done _ st => TcpLoop.Visited c done st)
    ⟨rfl, fun _ => by simp, rfl, rfl, rfl⟩ ?_).mono ?_
  · intro done e rest st hsplit hv
    have he : c.manager.tcp.lookup e.1 = some e.2 := by
      rw [lookup_eq_some, ← hsplit]
      simp
    rw [← hsplit, List.map_append, List.map_cons, List.nodup_middle, List.nodup_cons] at hnodup
    exact tcpVisit_ok hr hv he fun hmem => hnodup.1 (List.mem_append_left _ hmem)
  · intro st hv
    refine ⟨hv.core, fun k => ?_, hv.keys, hv.accepted, hv.tcpReap⟩
    rw [hv.entries]
    split
    · rfl
    · next hk =>
      rw [AList.lookup_eq_none.mpr hk]
      rfl

/-- The streams among the sessions that the transitions surface. -/
theorem TcpLoop.Spec.surfaced {st : TcpLoop S} (h : TcpLoop.Spec c st) :
    st.accepted.filterMap Session.stream? = TcpBook.surfaced c.manager.tcp c.tcpStateOf := by
  rw [h.accepted, List.filterMap_map]
  exact List.filterMap_some

/-- The accounts follow the transitions, the streams surfaced coming alive. -/
theorem TcpLoop.Spec.evolves {st : TcpLoop S} (h : TcpLoop.Spec c st)
    (hr : c.Registered streams sessions) : World.Evolves ⟨c, streams, sessions⟩
      ⟨st.core, streams ++ st.accepted.filterMap Session.stream?, sessions⟩ := by
  have hstep := TcpBook.Step.transitions (b := c.tcpBook streams) c.tcpStateOf h.entries
  rw [h.surfaced, h.core]
  exact ⟨hr.shaped.congr rfl rfl, .single hstep, .refl⟩

theorem TcpLoop.Spec.registered {st : TcpLoop S} (h : TcpLoop.Spec c st)
    (hr : c.Registered streams sessions) :
    st.core.Registered (streams ++ st.accepted.filterMap Session.stream?) sessions :=
  (h.evolves hr).registered hr

theorem TcpLoop.Spec.charge {st : TcpLoop S} (h : TcpLoop.Spec c st) : st.core.charge = c.charge := by
  have hlen : len st.core.manager.tcp = len c.manager.tcp := by
    rw [len_eq_length_keys, h.keys, len_eq_length_keys]
  unfold Core.charge
  rw [hlen, h.core]

theorem TcpLoop.Spec.budgeted {st : TcpLoop S} {owed : ℕ} (h : TcpLoop.Spec c st)
    (hb : c.Budgeted exact owed) : st.core.Budgeted exact owed :=
  hb.transfer (by rw [h.core]) (by rw [h.core]) (by rw [h.charge])

end Transitions

/-! ### TCP reap -/

section Reap

variable {c : Core S} {streams : List WayTcpStream} {sessions : List WayUdpSession}

theorem Core.socketAt_closeTcp {slot : InterfaceSlot S} {key : SessionKey} {e : TcpEntry} (t : S.Tcp)
    (hs : c.slot slot.id = some slot) (i : InterfaceId) (h : SocketHandle) :
    (c.closeTcp slot key e t).socketAt i h =
      if i = slot.id ∧ h = e.handle then none else c.socketAt i h :=
  Core.socketAt_write hs ((slot.withoutSocket e.handle).withPool _) rfl
    (fun hd => Slab.get?_remove slot.sockets e.handle hd) i h

/-- The keys that the reap still has to visit name orphaned entries with closed
sockets. -/
def Core.Reapable (c : Core S) (keys : List SessionKey) : Prop :=
  ∀ k ∈ keys, ∀ e, c.manager.tcp.lookup k = some e →
    e.orphaned = true ∧ c.tcpStateOf k e = .closed

/-- Reaping one entry does not touch the sockets of the others. -/
theorem Core.Reapable.closeTcp {keys : List SessionKey} (h : c.Reapable keys)
    (hr : c.Registered streams sessions) {slot : InterfaceSlot S} {key : SessionKey} {e : TcpEntry}
    (t : S.Tcp) (hs : c.slot slot.id = some slot) (hid : key.interface = slot.id)
    (he : c.manager.tcp.lookup key = some e) : (c.closeTcp slot key e t).Reapable keys := by
  intro k hk e' he'
  obtain ⟨hne, hlook⟩ : k ≠ key ∧ c.manager.tcp.lookup k = some e' := lookup_of_erase he'
  obtain ⟨ho, hst⟩ := h k hk e' hlook
  refine ⟨ho, ?_⟩
  have hother : ¬(k.interface = slot.id ∧ e'.handle = e.handle) := fun ⟨hint, hh⟩ =>
    hne (hr.tcp.inj hlook he (hint.trans hid.symm) hh)
  unfold Core.tcpStateOf at hst ⊢
  rw [Core.socketAt_closeTcp t hs, if_neg hother]
  exact hst

/-- The reap of an entry, exactly. -/
theorem reapTcp_entry (hr : c.Registered streams sessions) (m : ℕ) {key : SessionKey} {e : TcpEntry}
    (he : c.manager.tcp.lookup key = some e) :
    ∃ slot t, c.slot slot.id = some slot ∧ key.interface = slot.id ∧
      slot.sockets.get? e.handle = some (.tcp t) ∧ c.tcpStateOf key e = S.tcpState t ∧
      Ok (Call.Good exact) (reapTcp (c, m) key)
        (· = (c.closeTcp slot key e t, m + 2 * slot.tcpBufferSize)) := by
  obtain ⟨slot, t, hs, hget, hstate⟩ := hr.tcp_socket he
  refine ⟨slot, t, Core.slot_id hs, (Core.id_of_slot hs).symm, hget, hstate, ?_⟩
  dsimp only [reapTcp]
  rw [he]
  simp only [show ({ c with manager := { c.manager with tcp := c.manager.tcp.erase key } } :
    Core S).slot key.interface = some slot from hs]
  refine (InterfaceSlot.removeSocket_ok (s := .tcp t) hget).bind ?_
  rintro _ rfl
  refine ok_pure (Prod.ext ?_ rfl)
  have hpool : (if (slot.withoutSocket e.handle).tcpPool.length <
      (slot.withoutSocket e.handle).tcpPoolMax then
        { slot.withoutSocket e.handle with
          tcpPool := (slot.withoutSocket e.handle).tcpPool ++ [t] }
      else slot.withoutSocket e.handle) = (slot.withoutSocket e.handle).withPool
        (if slot.tcpPool.length < slot.tcpPoolMax then slot.tcpPool ++ [t] else slot.tcpPool) := by
    unfold InterfaceSlot.withPool InterfaceSlot.withoutSocket
    split <;> rfl
  simp only [hpool]
  rfl

/-- One key of the reap. -/
theorem reapTcp_ok (hr : c.Registered streams sessions) {m : ℕ} {key : SessionKey}
    {keys : List SessionKey} (hreap : c.Reapable (key :: keys)) :
    Ok (Call.Good exact) (reapTcp (c, m) key) fun st =>
      (st = (c, m) ∨ ReapTcp (c, m) st) ∧ st.1.Reapable keys ∧
        ∀ k, st.1.manager.tcp.lookup k = if k = key then none else c.manager.tcp.lookup k := by
  have hrest : c.Reapable keys := fun k hk => hreap k (List.mem_cons_of_mem _ hk)
  cases he : c.manager.tcp.lookup key with
  | none =>
    dsimp only [reapTcp]
    rw [he]
    refine ok_pure ⟨.inl rfl, hrest, fun k => ?_⟩
    split
    · next hk => rw [hk, he]
    · rfl
  | some e =>
    obtain ⟨slot, t, hs, hid, hget, hstate, hok⟩ := reapTcp_entry hr m he
    obtain ⟨ho, hst⟩ := hreap key List.mem_cons_self e he
    refine hok.mono ?_
    rintro _ rfl
    refine ⟨.inr (.reap hs hid he ho hget (hstate ▸ hst)), ?_, fun k => lookup_erase' _ _ _⟩
    exact hrest.closeTcp hr t hs hid he

theorem Reaps.evolves {st st' : Core S × ℕ} (h : ReflTransGen ReapTcp st st')
    (hr : st.1.Registered streams sessions) :
    World.Evolves ⟨st.1, streams, sessions⟩ ⟨st'.1, streams, sessions⟩ :=
  World.Evolves.loop (fun st : Core S × ℕ => ⟨st.1, streams, sessions⟩) (fun _ _ hstep => hstep.evolves) h hr

theorem Reaps.registered {st st' : Core S × ℕ} (h : ReflTransGen ReapTcp st st')
    (hr : st.1.Registered streams sessions) : st'.1.Registered streams sessions :=
  (Reaps.evolves h hr).registered hr

/-- The reap: every key it is given has no entry afterwards. -/
theorem reap_ok (hr : c.Registered streams sessions) (keys : List SessionKey)
    (hreap : c.Reapable keys) :
    Ok (Call.Good exact) (keys.foldlM reapTcp (c, 0)) fun st => ReflTransGen ReapTcp (c, 0) st ∧
      ∀ k, st.1.manager.tcp.lookup k = if k ∈ keys then none else c.manager.tcp.lookup k := by
  refine (ok_foldlM_visited (I := fun done rest st => ReflTransGen ReapTcp (c, 0) st ∧
    st.1.Reapable rest ∧ ∀ k, st.1.manager.tcp.lookup k = if k ∈ done then none else
      c.manager.tcp.lookup k) ⟨.refl, hreap, fun _ => by simp⟩ ?_).mono fun _ h => ⟨h.1, h.2.2⟩
  rintro done key rest ⟨c', m⟩ - ⟨hrun, hreap', hlook⟩
  refine (reapTcp_ok (Reaps.registered hrun hr) hreap').mono ?_
  rintro st ⟨hstep, hrest, hlook'⟩
  refine ⟨?_, hrest, fun k => ?_⟩
  · rcases hstep with rfl | hstep
    · exact hrun
    · exact hrun.tail hstep
  · rw [hlook', hlook]
    by_cases hk : k = key <;> simp [hk]

/-- The keys collected by the transitions are those of orphaned entries with closed
sockets. -/
theorem TcpLoop.Spec.reapable {st : TcpLoop S} (h : TcpLoop.Spec c st) :
    st.core.Reapable st.tcpReap := by
  intro k hk e' he'
  rw [h.tcpReap] at hk
  obtain ⟨⟨k, e⟩, hmem, rfl⟩ := List.mem_map.mp hk
  rw [List.mem_filter, Bool.and_eq_true, decide_eq_true_eq] at hmem
  obtain ⟨hentry, ho, hst⟩ := hmem
  rw [h.entries, lookup_eq_some.mpr hentry, Option.map_some, Option.some.injEq] at he'
  subst he'
  refine ⟨by rw [TcpEntry.advance_orphaned]; exact ho, ?_⟩
  unfold Core.tcpStateOf at hst ⊢
  rw [TcpEntry.advance_handle, h.core]
  exact hst

end Reap

/-! ### UDP redistribution -/

section Drain

variable {c : Core S} {streams : List WayTcpStream} {sessions : List WayUdpSession}

/-- Draining a socket ends, with everything that was in its receive buffer. -/
theorem drainUdp_ok (hS : S.Lawful) : ∀ (n : ℕ) (u : S.Udp) (got : List (Bytes × IpEndpoint)),
    (S.udpRx u).length < n → ∃ u', drainUdp S n u got = .ok (got ++ S.udpRx u, u') ∧
      S.udpRx u' = [] ∧ S.udpTx u' = S.udpTx u ∧ S.udpCapacity u' = S.udpCapacity u
  | 0, _, _, h => absurd h (Nat.not_lt_zero _)
  | n + 1, u, got, h => by
    unfold drainUdp
    cases hrx : S.udpRx u with
    | nil =>
      rw [hS.udpRecv_nil u hrx]
      exact ⟨u, by simp, hrx, rfl, rfl⟩
    | cons d ds =>
      obtain ⟨u₁, hrecv, hrx₁, htx₁, hcap₁⟩ := hS.udpRecv_cons u d ds hrx
      rw [hrecv]
      have hlen : (S.udpRx u₁).length < n := by
        rw [hrx₁]
        rw [hrx, List.length_cons] at h
        omega
      obtain ⟨u', hd, hrest, htx, hcap⟩ := drainUdp_ok hS n u₁ (got ++ [d]) hlen
      refine ⟨u', ?_, hrest, htx.trans htx₁, hcap.trans hcap₁⟩
      simp only [hd, hrx₁, List.append_assoc, List.singleton_append]

/-- A UDP socket once it has been drained. -/
def Smoltcp.drained (S : Smoltcp) (u : S.Udp) : S.Udp :=
  match drainUdp S ((S.udpRx u).length + 1) u [] with
  | .ok r => r.2
  | .error _ => u

/-- Draining gives what the receive buffer held, in order, and leaves it empty. -/
theorem drainUdp_drained (hS : S.Lawful) (u : S.Udp) :
    drainUdp S ((S.udpRx u).length + 1) u [] = .ok (S.udpRx u, S.drained u) ∧
      S.udpRx (S.drained u) = [] ∧ S.udpTx (S.drained u) = S.udpTx u ∧
      S.udpCapacity (S.drained u) = S.udpCapacity u := by
  obtain ⟨u', hd, hrx, htx, hcap⟩ := drainUdp_ok hS ((S.udpRx u).length + 1) u [] (Nat.lt_succ_self _)
  have heq : S.drained u = u' := by
    unfold Smoltcp.drained
    rw [hd]
  rw [heq]
  exact ⟨hd, hrx, htx, hcap⟩

/-- **What receiving leaves as it is, draining does too.** -/
theorem drainUdp_keeps {α : Type} {f : S.Udp → α} (hf : ∀ u, f (S.udpRecv u).2 = f u) {n : ℕ} {u : S.Udp}
    {got : List (Bytes × IpEndpoint)} {r : List (Bytes × IpEndpoint) × S.Udp}
    (h : drainUdp S n u got = .ok r) : f r.2 = f u := by
  induction n generalizing u got with
  | zero => cases h
  | succ n ih =>
    have hrecv := hf u
    unfold drainUdp at h
    split at h
    · next d u' hu =>
      rw [hu] at hrecv
      exact (ih h).trans hrecv
    · next u' hu =>
      cases h
      rwa [hu] at hrecv
    · next u' hu =>
      rw [hu] at hrecv
      exact (ih h).trans hrecv

theorem drained_keeps {α : Type} {f : S.Udp → α} (hf : ∀ u, f (S.udpRecv u).2 = f u) (u : S.Udp) :
    f (S.drained u) = f u := by
  unfold Smoltcp.drained
  split
  · next r hr => exact drainUdp_keeps hf hr
  · rfl

theorem mem_dstSockets {m : SessionManager} {id : InterfaceId} {h : SocketHandle} {ep : IpEndpoint} :
    (h, ep) ∈ dstSockets m id ↔ ∃ n, m.udpDstSockets.lookup (id, ep) = some (h, n) := by
  unfold dstSockets
  simp only [List.mem_map, List.mem_filter, decide_eq_true_eq, Prod.mk.injEq]
  constructor
  · rintro ⟨⟨⟨i, ep⟩, ⟨h, n⟩⟩, ⟨hmem, rfl⟩, rfl, rfl⟩
    exact ⟨n, lookup_eq_some.mpr hmem⟩
  · rintro ⟨n, hn⟩
    exact ⟨⟨(id, ep), (h, n)⟩, ⟨lookup_eq_some.mp hn, rfl⟩, rfl, rfl⟩

theorem Drains.evolves {c' : Core S} (h : ReflTransGen DrainUdp c c')
    (hr : c.Registered streams sessions) :
    World.Evolves ⟨c, streams, sessions⟩ ⟨c', streams, sessions⟩ :=
  World.Evolves.loop (fun c => ⟨c, streams, sessions⟩) (fun _ _ hstep => hstep.evolves) h hr

theorem Drains.registered {c' : Core S} (h : ReflTransGen DrainUdp c c')
    (hr : c.Registered streams sessions) : c'.Registered streams sessions :=
  (Drains.evolves h hr).registered hr

theorem Drains.manager {c' : Core S} (h : ReflTransGen DrainUdp c c') : c'.manager = c.manager :=
  run_keeps (P := fun c' => c'.manager = c.manager) (fun _ _ hstep hm => by cases hstep; exact hm) h rfl

/-- The draining of a shared socket, exactly. -/
theorem drainDst_shared (hS : S.Lawful) (hr : c.Registered streams sessions) {i : ℕ}
    {slot : InterfaceSlot S} (hi : c.slots[i]? = some slot) {dst : SocketHandle × IpEndpoint}
    (hdst : dst ∈ dstSockets c.manager slot.id) (routed : List (SessionKey × Bytes)) :
    ∃ u, slot.sockets.get? dst.1 = some (.udp u) ∧
      Ok (Call.Good exact) (drainDst i (c, routed) dst)
        (· = (c.setSlot (slot.putSocket dst.1 (.udp (S.drained u))),
          routed ++ (S.udpRx u).map fun d => (⟨slot.id, .udp, d.2, dst.2⟩, d.1))) := by
  obtain ⟨n, hn⟩ := mem_dstSockets.mp hdst
  obtain ⟨slot', u, hs, hget⟩ := Core.exists_udp (hr.udp.named hn)
  obtain rfl : slot' = slot := Option.some.inj (hs.symm.trans (Core.slot_of_getElem? hr.shaped.ids hi))
  refine ⟨u, hget, ?_⟩
  unfold drainDst
  simp only [hi]
  refine (InterfaceSlot.getUdp_ok hget).bind ?_
  rintro u rfl
  have hloop : Ok (Call.Good exact)
      (⟨drainUdp S ((S.udpRx u).length + 1) u [], []⟩ : Op (List (Bytes × IpEndpoint) × S.Udp))
      (· = (S.udpRx u, S.drained u)) := ⟨⟨_, (drainUdp_drained hS u).1, rfl⟩, by simp⟩
  refine hloop.bind ?_
  rintro _ rfl
  refine ok_pure ?_
  rw [Core.setSlotAt_eq hr.shaped.ids hi (slot'.putSocket dst.1 (.udp (S.drained u))) rfl]

theorem drainDst_ok (hS : S.Lawful) (hr : c.Registered streams sessions) {i : ℕ}
    {slot : InterfaceSlot S} (hi : c.slots[i]? = some slot) {dst : SocketHandle × IpEndpoint}
    (hdst : dst ∈ dstSockets c.manager slot.id) (routed : List (SessionKey × Bytes)) :
    Ok (Call.Good exact) (drainDst i (c, routed) dst) fun st => DrainUdp c st.1 := by
  obtain ⟨u, hget, hok⟩ := drainDst_shared hS hr hi hdst routed
  obtain ⟨-, hrx, htx, hcap⟩ := drainUdp_drained hS u
  refine hok.mono ?_
  rintro _ rfl
  exact .drain (Core.slot_of_getElem? hr.shaped.ids hi) hget hrx htx hcap

theorem DrainUdp.feeds {c' : Core S} (h : DrainUdp c c') : c'.feeds = c.feeds := by
  cases h with
  | @drain slot h u u' hs hget hrx htx hcap => exact Core.feeds_setSlot (slot.putSocket h (.udp u')) hs rfl

theorem DrainUdp.ids {c' : Core S} (h : DrainUdp c c') : c'.ids = c.ids := Core.ids_of_feeds h.feeds

/-- Draining the shared sockets. -/
theorem drainSlots_ok (hS : S.Lawful) (hr : c.Registered streams sessions) :
    Ok (Call.Good exact) (drainSlots c) fun st => ReflTransGen DrainUdp c st.1 := by
  unfold drainSlots
  refine ok_foldlM_const (I := fun st : Core S × List (SessionKey × Bytes) =>
    ReflTransGen DrainUdp c st.1) .refl ?_
  intro i _ st hrun
  unfold drainSlot
  cases hi : st.1.slots[i]? with
  | none => exact ok_pure hrun
  | some slot =>
    -- the slots keep their identifiers while the sockets are drained
    have hid : st.1.ids[i]? = some slot.id := by
      unfold Core.ids
      rw [List.getElem?_map, hi]
      rfl
    have loop : Ok (Call.Good exact) ((dstSockets st.1.manager slot.id).foldlM (drainDst i) st)
        fun st' => ReflTransGen DrainUdp c st'.1 ∧ st'.1.ids = st.1.ids := by
      refine ok_foldlM_const ⟨hrun, rfl⟩ ?_
      rintro dst hdst ⟨c', routed⟩ ⟨hrun', hids⟩
      have hid' : c'.ids[i]? = some slot.id := by rw [hids, hid]
      unfold Core.ids at hid'
      rw [List.getElem?_map] at hid'
      obtain ⟨slot', hi', heq⟩ := Option.map_eq_some_iff.mp hid'
      have hdst' : dst ∈ dstSockets c'.manager slot'.id := by
        rw [Drains.manager hrun', heq, ← Drains.manager hrun]
        exact hdst
      exact (drainDst_ok hS (Drains.registered hrun' hr) hi' hdst' routed).mono fun st' hstep =>
        ⟨hrun'.tail hstep, hstep.ids.trans hids⟩
    exact loop.mono fun _ h => h.1

theorem route_run (now : Instant) (datagrams : List (SessionKey × Bytes)) (c : Core S) :
    ReflTransGen (RouteUdp now) c (datagrams.foldl (route now) c) := by
  induction datagrams generalizing c with
  | nil => exact .refl
  | cons d ds ih =>
    rw [List.foldl_cons]
    refine ReflTransGen.trans ?_ (ih _)
    unfold route
    cases he : c.manager.udp.lookup d.1 with
    | none => exact .refl
    | some e => exact .single (.push he)

theorem Routes.evolves {now : Instant} {c' : Core S} (h : ReflTransGen (RouteUdp now) c c')
    (hr : c.Registered streams sessions) :
    World.Evolves ⟨c, streams, sessions⟩ ⟨c', streams, sessions⟩ :=
  World.Evolves.loop (fun c => ⟨c, streams, sessions⟩) (fun _ _ hstep => hstep.evolves) h hr

theorem Routes.registered {now : Instant} {c' : Core S} (h : ReflTransGen (RouteUdp now) c c')
    (hr : c.Registered streams sessions) : c'.Registered streams sessions :=
  (Routes.evolves h hr).registered hr

end Drain

/-! ### Ending UDP sessions -/

section Sweep

variable {c : Core S} {streams : List WayTcpStream} {sessions : List WayUdpSession}

/-- Ending the session of a key, if it has one. -/
theorem Core.endUdp_ok (hr : c.Registered streams sessions) (key : SessionKey) (m : ℕ) :
    Ok (Call.Good exact) (c.endUdp key.interface key) fun r =>
      (c.manager.udp.lookup key = none ∧ r = (c, none) ∨ EndUdp (c, m) (r.1, m + r.2.getD 0)) ∧
        ∀ k, r.1.manager.udp.lookup k = if k = key then none else c.manager.udp.lookup k := by
  unfold Core.endUdp
  cases he : c.manager.udp.lookup key with
  | none =>
    refine ok_pure ⟨.inl ⟨rfl, rfl⟩, fun k => ?_⟩
    split
    · next hk => rw [hk, he]
    · rfl
  | some e =>
    obtain ⟨n, hn⟩ := hr.udp.counted.held he
    have hn' : ({ c.manager with udp := c.manager.udp.erase key } : SessionManager).udpDstSockets.lookup
        (key.interface, key.dst) = some (e.socket, n) := hn
    by_cases hlast : n - 1 = 0
    · obtain ⟨slot, u, hs, hget⟩ := Core.exists_udp (hr.udp.entry_named he)
      simp only [udpSocketRelease_last hn' hlast, if_true]
      split
      · next hnone => cases hs.symm.trans hnone
      next slot' hs' =>
      obtain rfl : slot = slot' := Option.some.inj (hs.symm.trans hs')
      refine (InterfaceSlot.removeSocket_ok (s := .udp u) hget).bind ?_
      rintro _ rfl
      refine ok_pure ⟨.inr ?_, fun k => lookup_erase' _ _ _⟩
      exact .close (Core.slot_id hs) (Core.id_of_slot hs).symm he hn hlast hget
    · simp only [udpSocketRelease_more hn' hlast, Bool.false_eq_true, if_false]
      exact ok_pure ⟨.inr (.leave he hn hlast), fun k => lookup_erase' _ _ _⟩

theorem Ends.evolves {st st' : Core S × ℕ} (h : ReflTransGen EndUdp st st')
    (hr : st.1.Registered streams sessions) :
    World.Evolves ⟨st.1, streams, sessions⟩ ⟨st'.1, streams, sessions⟩ :=
  World.Evolves.loop (fun st : Core S × ℕ => ⟨st.1, streams, sessions⟩) (fun _ _ hstep => hstep.evolves) h hr

theorem Ends.registered {st st' : Core S × ℕ} (h : ReflTransGen EndUdp st st')
    (hr : st.1.Registered streams sessions) : st'.1.Registered streams sessions :=
  (Ends.evolves h hr).registered hr

/-- An entry active now is not expired. -/
theorem UdpEntry.not_expiredAt_now (hS : S.Lawful) {e : UdpEntry} {now : Instant}
    (h : e.lastActivity = now) {timeout : ℕ} : e.expiredAt S now timeout = false := by
  simp [expiredAt, h, hS.since_self]

/-- The keys the sweep removes are those of the entries expired. -/
theorem mem_expiredKeys {now : Instant} {k : SessionKey} : k ∈ expiredKeys c now ↔
    ∃ e, c.manager.udp.lookup k = some e ∧ e.expiredAt S now c.config.udpSessionTimeout = true := by
  unfold expiredKeys
  simp only [List.mem_map, List.mem_filter]
  constructor
  · rintro ⟨⟨k, e⟩, ⟨hmem, he⟩, rfl⟩
    exact ⟨e, lookup_eq_some.mpr hmem, he⟩
  · rintro ⟨e, he, hexp⟩
    exact ⟨⟨k, e⟩, ⟨lookup_eq_some.mp he, hexp⟩, rfl⟩

/-- The sweep: every key it is given has no entry afterwards. -/
theorem sweep_ok (hr : c.Registered streams sessions) (m : ℕ) (keys : List SessionKey) :
    Ok (Call.Good exact) (keys.foldlM sweepUdp (c, m)) fun st => ReflTransGen EndUdp (c, m) st ∧
      ∀ k, st.1.manager.udp.lookup k = if k ∈ keys then none else c.manager.udp.lookup k := by
  refine ok_foldlM_visited (I := fun done _ st => ReflTransGen EndUdp (c, m) st ∧
    ∀ k, st.1.manager.udp.lookup k = if k ∈ done then none else c.manager.udp.lookup k)
    ⟨.refl, fun _ => by simp⟩ ?_
  rintro done key rest ⟨c', m'⟩ - ⟨hrun, hlook⟩
  unfold sweepUdp
  refine (Core.endUdp_ok (Ends.registered hrun hr) key m').bind ?_
  rintro ⟨c'', released⟩ ⟨hstep, hlook'⟩
  refine ok_pure ⟨?_, fun k => ?_⟩
  · rcases hstep with ⟨-, heq⟩ | hstep
    · cases heq
      exact hrun
    · exact hrun.tail hstep
  · rw [hlook', hlook]
    by_cases hk : k = key <;> simp [hk]

end Sweep

/-! ### The post-pass -/

/-- What the post-pass does, pass by pass. -/
structure PostPass.Spec (c : Core S) (now : Instant) (p : PostPass S) : Prop where
  tcp : TcpLoop.Spec c p.tcp
  reaped : ReflTransGen ReapTcp (p.tcp.core, 0) p.reaped
  /-- Exactly the entries that can be reaped are. -/
  reaped_lookup : ∀ k, p.reaped.1.manager.tcp.lookup k =
    if k ∈ c.reapable then none else p.tcp.core.manager.tcp.lookup k
  drained : ReflTransGen DrainUdp p.reaped.1 p.drained.1
  routed : ReflTransGen (RouteUdp now) p.drained.1 p.routed
  swept : ReflTransGen EndUdp (p.routed, p.reaped.2) p.swept
  /-- Exactly the expired entries are swept. -/
  swept_lookup : ∀ k, p.swept.1.manager.udp.lookup k =
    if k ∈ expiredKeys p.routed now then none else p.routed.manager.udp.lookup k
  settled : p.core = { p.swept.1 with bufferBytes := p.swept.1.bufferBytes - p.swept.2 }

/-- The cores of the post-pass are all in order. -/
structure PostPass.Registered (p : PostPass S) (streams : List WayTcpStream)
    (sessions : List WayUdpSession) : Prop where
  tcp : p.tcp.core.Registered streams sessions
  reaped : p.reaped.1.Registered streams sessions
  drained : p.drained.1.Registered streams sessions
  routed : p.routed.Registered streams sessions
  swept : p.swept.1.Registered streams sessions
  core : p.core.Registered streams sessions

section PostPass

variable {c : Core S} {streams : List WayTcpStream} {sessions : List WayUdpSession} {now : Instant}

theorem PostPass.Spec.registered {p : PostPass S} (h : PostPass.Spec c now p)
    (hr : c.Registered streams sessions) :
    p.Registered (streams ++ p.tcp.accepted.filterMap Session.stream?) sessions := by
  have htcp := h.tcp.registered hr
  have hreaped := Reaps.registered h.reaped htcp
  have hdrained := Drains.registered h.drained hreaped
  have hrouted := Routes.registered h.routed hdrained
  have hswept := Ends.registered h.swept hrouted
  have hcore : p.core.Registered (streams ++ p.tcp.accepted.filterMap Session.stream?) sessions :=
    h.settled ▸ ⟨hswept.shaped.congr rfl rfl, hswept.tcp, hswept.udp⟩
  exact ⟨htcp, hreaped, hdrained, hrouted, hswept, hcore⟩

/-- The accounts follow the post-pass. -/
theorem PostPass.Spec.evolves {p : PostPass S} (h : PostPass.Spec c now p)
    (hr : c.Registered streams sessions) : World.Evolves ⟨c, streams, sessions⟩
      ⟨p.core, streams ++ p.tcp.accepted.filterMap Session.stream?, sessions⟩ := by
  have hp := h.registered hr
  have hreap := (h.tcp.evolves hr).trans (Reaps.evolves h.reaped hp.tcp)
  have hroute := (Drains.evolves h.drained hp.reaped).trans (Routes.evolves h.routed hp.drained)
  have hsweep := (hreap.trans hroute).trans (Ends.evolves h.swept hp.routed)
  rw [h.settled]
  exact ⟨hp.swept.shaped.congr rfl rfl, hsweep.tcp, hsweep.udp⟩

theorem Reaps.budgeted {st st' : Core S × ℕ} (h : ReflTransGen ReapTcp st st')
    (hr : st.1.Registered streams sessions) (hb : st.1.Budgeted exact st.2) :
    st'.1.Budgeted exact st'.2 :=
  (run_keeps (P := fun st => st.1.Registered streams sessions ∧ st.1.Budgeted exact st.2)
    (fun _ _ hstep hp => ⟨hstep.registered hp.1, hstep.budgeted hp.1.shaped hp.2⟩) h ⟨hr, hb⟩).2

theorem Ends.budgeted {st st' : Core S × ℕ} (h : ReflTransGen EndUdp st st')
    (hr : st.1.Registered streams sessions) (hb : st.1.Budgeted exact st.2) :
    st'.1.Budgeted exact st'.2 :=
  (run_keeps (P := fun st => st.1.Registered streams sessions ∧ st.1.Budgeted exact st.2)
    (fun _ _ hstep hp => ⟨hstep.registered hp.1, hstep.budgeted hp.1.shaped hp.2⟩) h ⟨hr, hb⟩).2

theorem Drains.budgeted {c' : Core S} {owed : ℕ} (h : ReflTransGen DrainUdp c c')
    (hb : c.Budgeted exact owed) : c'.Budgeted exact owed :=
  run_keeps (P := fun c => c.Budgeted exact owed) (fun _ _ hstep => hstep.budgeted) h hb

theorem Routes.budgeted {c' : Core S} {owed : ℕ} (h : ReflTransGen (RouteUdp now) c c')
    (hb : c.Budgeted exact owed) : c'.Budgeted exact owed :=
  run_keeps (P := fun c => c.Budgeted exact owed) (fun _ _ hstep => hstep.budgeted) h hb

theorem PostPass.Spec.config {p : PostPass S} (h : PostPass.Spec c now p) :
    p.core.config = c.config := by
  have htcp : p.tcp.core.config = c.config := by rw [h.tcp.core]
  have hreaped : p.reaped.1.config = c.config :=
    run_keeps (P := fun st => st.1.config = c.config) (fun _ _ hs hp => hs.config.trans hp) h.reaped htcp
  have hdrained : p.drained.1.config = c.config :=
    run_keeps (P := fun d => d.config = c.config) (fun _ _ hs hp => hs.config.trans hp) h.drained hreaped
  have hrouted : p.routed.config = c.config :=
    run_keeps (P := fun d => d.config = c.config) (fun _ _ hs hp => hs.config.trans hp) h.routed hdrained
  have hswept : p.swept.1.config = c.config :=
    run_keeps (P := fun st => st.1.config = c.config) (fun _ _ hs hp => hs.config.trans hp) h.swept hrouted
  rw [h.settled]
  exact hswept

/-- Releasing what is owed balances the budget. -/
theorem Core.Budgeted.release {owed : ℕ} (hb : c.Budgeted exact owed) :
    Core.Budgeted exact 0 { c with bufferBytes := c.bufferBytes - owed } := by
  constructor
  · intro hx
    have hbal := hb.balance hx
    show c.bufferBytes - owed = 0 + c.charge
    omega
  · intro limit hl
    exact Nat.le_trans (Nat.sub_le _ _) (hb.limit limit hl)

/-- The post-pass from a core in order, the release at its end being a good one. -/
theorem postPass_run (hS : S.Lawful) (hr : c.Registered streams sessions)
    (hgood : ∀ p, PostPass.Spec c now p → Call.Good exact (.release p.swept.2 p.swept.1.bufferBytes)) :
    Ok (Call.Good exact) (postPass c now) (PostPass.Spec c now) := by
  unfold postPass
  refine (tcpTransitions_ok hr).bind fun tcp htcp => ?_
  have hr₁ := htcp.registered hr
  refine (reap_ok hr₁ tcp.tcpReap htcp.reapable).bind fun reaped hreaped => ?_
  have hr₂ := Reaps.registered hreaped.1 hr₁
  refine (drainSlots_ok hS hr₂).bind fun drained hdrained => ?_
  have hroute := route_run now drained.2 drained.1
  have hr₃ := Routes.registered hroute (Drains.registered hdrained hr₂)
  refine (sweep_ok hr₃ reaped.2 _).bind fun swept hswept => ?_
  have hspec : PostPass.Spec c now ⟨tcp, reaped, drained, drained.2.foldl (route now) drained.1, swept,
      { swept.1 with bufferBytes := swept.1.bufferBytes - swept.2 }⟩ := by
    refine ⟨htcp, hreaped.1, ?_, hdrained, hroute, hswept.1, hswept.2, rfl⟩
    rw [← htcp.tcpReap]
    exact hreaped.2
  have hrelease : Ok (Call.Good exact) (swept.1.releaseBuffer swept.2)
      (· = { swept.1 with bufferBytes := swept.1.bufferBytes - swept.2 }) :=
    ok_call (hgood _ hspec) rfl
  refine hrelease.bind ?_
  rintro _ rfl
  exact ok_pure hspec

/-- The budget up to the release: what is owed is what is no longer charged for. -/
theorem PostPass.Spec.budgeted {p : PostPass S} (h : PostPass.Spec c now p)
    (hr : c.Registered streams sessions) (hb : c.Budgeted exact 0) :
    p.swept.1.Budgeted exact p.swept.2 := by
  have hp := h.registered hr
  have hreaped := Reaps.budgeted h.reaped hp.tcp (h.tcp.budgeted hb)
  have hrouted := Routes.budgeted h.routed (Drains.budgeted h.drained hreaped)
  exact Ends.budgeted h.swept hp.routed hrouted

/-- **The post-pass.** -/
theorem postPass_ok (hS : S.Lawful) (hr : c.Registered streams sessions)
    (hb : c.Budgeted exact 0) :
    Ok (Call.Good exact) (postPass c now) fun p =>
      PostPass.Spec c now p ∧ p.core.Budgeted exact 0 := by
  refine (postPass_run hS hr fun p hp hx => ?_).mono fun p hp => ⟨hp, ?_⟩
  · have hbal := (hp.budgeted hr hb).balance hx
    omega
  · rw [hp.settled]
    exact (hp.budgeted hr hb).release

end PostPass

/-! ### The cycle -/

/-- What a cycle does, pass by pass. -/
structure CycleSpec (c : Core S) (now : Instant) (polls : InterfaceId → List (PollEvent S))
    (r : Cycle S) : Prop where
  admitted : ReflTransGen (Admit now c.Queued) (c, []) r.admitted
  /-- The pre-pass leaves the devices as they were. -/
  feeds : r.admitted.1.feeds = c.feeds
  polled : r.polled = r.admitted.1.pollSlots polls
  post : PostPass.Spec r.polled now r.post
  core : r.core = r.post.core.drainEgress.1
  accepted : r.accepted = r.admitted.2 ++ r.post.tcp.accepted

/-- The cores of a cycle are all in order. -/
structure Cycle.Registered (r : Cycle S) (streams : List WayTcpStream)
    (sessions : List WayUdpSession) : Prop where
  admitted : r.admitted.1.Registered streams (sessions ++ r.accepted.filterMap Session.session?)
  polled : r.polled.Registered streams (sessions ++ r.accepted.filterMap Session.session?)
  post : r.post.Registered (streams ++ r.accepted.filterMap Session.stream?)
    (sessions ++ r.accepted.filterMap Session.session?)
  core : r.core.Registered (streams ++ r.accepted.filterMap Session.stream?)
    (sessions ++ r.accepted.filterMap Session.session?)

section Cycle

variable {c : Core S} {streams : List WayTcpStream} {sessions : List WayUdpSession} {now : Instant}
  {polls : InterfaceId → List (PollEvent S)} {r : Cycle S}

/-- The pre-pass makes UDP sessions only. -/
theorem Admits.stream? {queued : InterfaceId → Bytes → Prop} {st st' : Core S × List Session}
    (h : ReflTransGen (Admit now queued) st st') (h0 : st.2.filterMap Session.stream? = []) :
    st'.2.filterMap Session.stream? = [] :=
  run_keeps (P := fun st : Core S × List Session => st.2.filterMap Session.stream? = [])
    (fun _ _ hstep hp => by
      cases hstep with
      | device | spoil | leak | tcp => exact hp
      | udpNew | udpJoin =>
        rw [List.filterMap_append, hp]
        rfl) h h0

/-- The pre-pass leaves the entries of UDP sessions. -/
theorem Admits.keeps_udp {queued : InterfaceId → Bytes → Prop} {st st' : Core S × List Session}
    (h : ReflTransGen (Admit now queued) st st') {k : SessionKey} {e : UdpEntry}
    (he : st.1.manager.udp.lookup k = some e) : st'.1.manager.udp.lookup k = some e := by
  refine run_keeps (P := fun st : Core S × List Session => st.1.manager.udp.lookup k = some e) ?_ h he
  rintro st st' hstep he
  cases hstep with
  | device | spoil | leak | tcp => exact he
  | udpNew hs hid hq hp new | udpJoin hs hid hq hp new => exact lookup_insert_of_new new he

/-- The pre-pass leaves the queues that there are. -/
theorem Admits.keeps_queue {queued : InterfaceId → Bytes → Prop} {st st' : Core S × List Session}
    (h : ReflTransGen (Admit now queued) st st') {q : QueueRef} {cell : UdpQueue}
    (hq : st.1.queues[q]? = some cell) : st'.1.queues[q]? = some cell := by
  refine run_keeps (P := fun st : Core S × List Session => st.1.queues[q]? = some cell) ?_ h hq
  rintro st st' hstep hq
  cases hstep with
  | device | spoil | leak | tcp => exact hq
  | @udpNew c acc | @udpJoin c acc =>
    show (c.queues ++ [UdpQueue.new])[q]? = some cell
    rw [List.getElem?_append_left (List.getElem?_eq_some_iff.mp hq).1]
    exact hq

theorem Admits.config {queued : InterfaceId → Bytes → Prop} {st st' : Core S × List Session}
    (h : ReflTransGen (Admit now queued) st st') : st'.1.config = st.1.config :=
  run_keeps (P := fun x : Core S × List Session => x.1.config = st.1.config)
    (fun _ _ hstep hx => hstep.config.trans hx) h rfl

/-- The sessions of a cycle: UDP ones from the pre-pass, TCP ones from the post-pass. -/
theorem CycleSpec.accepted_split (h : CycleSpec c now polls r) :
    r.accepted.filterMap Session.stream? = r.post.tcp.accepted.filterMap Session.stream? ∧
      r.accepted.filterMap Session.session? = r.admitted.2.filterMap Session.session? := by
  have hudp : r.post.tcp.accepted.filterMap Session.session? = [] := by
    rw [h.post.tcp.accepted, List.filterMap_map]
    exact List.filterMap_eq_nil_iff.mpr fun _ _ => rfl
  rw [h.accepted, List.filterMap_append, List.filterMap_append, Admits.stream? h.admitted rfl, hudp,
    List.append_nil]
  exact ⟨rfl, rfl⟩

theorem Core.Registered.drainEgress (hr : c.Registered streams sessions) :
    World.Evolves ⟨c, streams, sessions⟩ ⟨c.drainEgress.1, streams, sessions⟩ := by
  have hp : c.drainEgress.1.protoAt = c.protoAt := by
    funext i h
    rw [Core.protoAt, Core.socketAt_drainEgress]
    rfl
  refine Core.Shaped.evolves (hr.shaped.congr ?_ rfl) hp rfl rfl
  unfold Core.drainEgress
  rw [List.map_map]
  rfl

theorem CycleSpec.registered (hS : S.Lawful) (h : CycleSpec c now polls r)
    (hr : c.Registered streams sessions) : r.Registered streams sessions := by
  obtain ⟨htcp, hudp⟩ := h.accepted_split
  have hadm : r.admitted.1.Registered streams (sessions ++ r.accepted.filterMap Session.session?) := by
    rw [hudp]
    exact Admits.registered hS h.admitted (by simpa using hr)
  have hpolled : r.polled.Registered streams (sessions ++ r.accepted.filterMap Session.session?) := by
    rw [h.polled]
    exact hadm.pollSlots polls
  have hpost := h.post.registered hpolled
  rw [← htcp] at hpost
  refine ⟨hadm, hpolled, hpost, ?_⟩
  rw [h.core]
  exact hpost.core.drainEgress.registered hpost.core

/-- The accounts follow the cycle. -/
theorem CycleSpec.evolves (hS : S.Lawful) (h : CycleSpec c now polls r)
    (hr : c.Registered streams sessions) : World.Evolves ⟨c, streams, sessions⟩
      ⟨r.core, streams ++ r.accepted.filterMap Session.stream?,
        sessions ++ r.accepted.filterMap Session.session?⟩ := by
  obtain ⟨htcp, hudp⟩ := h.accepted_split
  have hreg := h.registered hS hr
  have hadm : World.Evolves ⟨c, streams, sessions⟩
      ⟨r.admitted.1, streams, sessions ++ r.accepted.filterMap Session.session?⟩ := by
    have hr' : (c, ([] : List Session)).1.Registered streams (sessions ++ [].filterMap Session.session?) := by
      simpa using hr
    have hrun := Admits.evolves hS h.admitted hr'
    simpa [hudp] using hrun
  have hpoll := hreg.admitted.evolves_poll polls
  rw [← h.polled] at hpoll
  have hpost := h.post.evolves hreg.polled
  rw [← htcp] at hpost
  have hdrain := hreg.post.core.drainEgress
  rw [← h.core] at hdrain
  exact ((hadm.trans hpoll).trans hpost).trans hdrain

theorem CycleSpec.config (h : CycleSpec c now polls r) : r.core.config = c.config := by
  have hadm : r.admitted.1.config = c.config :=
    run_keeps (P := fun st => st.1.config = c.config) (fun _ _ hs hp => hs.config.trans hp) h.admitted rfl
  have hpolled : r.polled.config = c.config := by
    rw [h.polled]
    exact hadm
  have hcore : r.core.config = r.post.core.config := by rw [h.core]; rfl
  exact hcore.trans (h.post.config.trans hpolled)

theorem Admits.budgeted {queued : InterfaceId → Bytes → Prop} {st st' : Core S × List Session}
    {owed : ℕ} (hS : S.Lawful) (h : ReflTransGen (Admit now queued) st st') (hx : exact → S.Binds)
    (hr : st.1.Registered streams (sessions ++ st.2.filterMap Session.session?))
    (hb : st.1.Budgeted exact owed) : st'.1.Budgeted exact owed :=
  (run_keeps (P := fun st : Core S × List Session =>
      st.1.Registered streams (sessions ++ st.2.filterMap Session.session?) ∧
        st.1.Budgeted exact owed)
    (fun _ _ hstep hp => ⟨hstep.registered hS hp.1, hstep.budgeted hx hp.1.shaped hp.2⟩) h
    ⟨hr, hb⟩).2

/-- **The cycle.** From a core in order with a balanced budget the cycle ends
without a fault, its calls are all good, and so is the core it leaves. -/
theorem pollOnce_ok (hS : S.Lawful) (hx : exact → S.Binds) (hr : c.Registered streams sessions)
    (hb : c.Budgeted exact 0) (now : Instant) (polls : InterfaceId → List (PollEvent S)) :
    Ok (Call.Good exact) (pollOnce c now polls) fun r =>
      CycleSpec c now polls r ∧ r.core.Budgeted exact 0 := by
  unfold pollOnce
  refine (prePass_ok hr).bind fun admitted hadm => ?_
  have hr' : c.Registered streams (sessions ++ ([] : List Session).filterMap Session.session?) := by
    simpa using hr
  have hr₁ := (Admits.registered hS hadm.1 hr').pollSlots polls
  have hb₁ : (admitted.1.pollSlots polls).Budgeted exact 0 :=
    (Admits.budgeted hS hadm.1 hx hr' hb).congr rfl rfl rfl
  refine (postPass_ok hS hr₁ hb₁).bind fun post hpost => ok_pure ?_
  exact ⟨⟨hadm.1, hadm.2, rfl, hpost.1, rfl, rfl⟩, hpost.2.congr rfl rfl rfl⟩

end Cycle

end WayNetstack

import WayNetstack.Tcp.Connections

/-!
# Who is at the other end

A TCP entry is keyed by the source and the destination of the SYN that opened it, and
its stream tells the application that these are the endpoints of the connection. The
socket itself listens for any client of the destination. The two agree as long as
every SYN reaches the socket opened for it: `SynAtHome`, a condition on each segment
the engine takes in and on the sockets that stand ready for it. Under it every
connected socket has the endpoints of its key (`tcp_peers_attributed`).

A listening socket left over from a SYN that the engine discarded, or from a reset
handshake, breaks the condition: it takes the next client's SYN
(`leftover_listener_misattributes`).
-/

namespace WayNetstack

open Lib Lib.Table SessionManager

variable {S : Smoltcp}

/-- A SYN that a listening socket will take is taken by the socket of its own key: the
first socket that accepts it is not one listening for another client. -/
def SynAtHome (c : Core S) (slot : InterfaceSlot S) (e : PollEvent S) : Prop :=
  ∀ seg ∈ slot.offered e, seg.control = .syn → ∀ h ∈ slot.acceptor seg, ∀ t ∈ slot.tcpAt h,
    S.tcpState t = .listen →
      (c.manager.tcp.lookup ⟨slot.id, .tcp, seg.src, seg.dst⟩).map (·.handle) = some h

instance (c : Core S) (slot : InterfaceSlot S) (e : PollEvent S) : Decidable (SynAtHome c slot e) :=
  inferInstanceAs (Decidable (∀ seg ∈ slot.offered e, _))

/-- The socket of a connection is connected to the endpoints of its key, if at all. -/
structure Attributed (k : SessionKey) (p : Conn S) : Prop where
  ends : ∀ ends, S.tcpTuple p.2 = some ends → ends = (k.dst, k.src)
  established : S.tcpState p.2 = .established → (S.tcpTuple p.2).isSome

section Attributed

variable {queued : InterfaceId → Bytes → Prop} {k : SessionKey} {p p' : Conn S}

theorem Fresh.attributed (h : Fresh queued k p) : Attributed k p := by
  constructor
  · intro ends hends
    rw [h.unconnected] at hends
    cases hends
  · intro hest
    rw [h.listening] at hest
    cases hest

/-- Closing keeps the endpoints, and does not establish. -/
theorem Attributed.closeIfOpen (hS : S.Lawful) {e e' : TcpEntry} {t : S.Tcp}
    (h : Attributed k (e, t)) : Attributed k (e', WayTcpStream.closeIfOpen t) := by
  unfold WayTcpStream.closeIfOpen
  split
  · obtain ⟨hclosed, htuple, -⟩ := hS.tcpClose_ok t
    refine ⟨fun ends hends => h.ends ends (htuple ▸ hends), fun hest => ?_⟩
    rw [hest] at hclosed
    exact hclosed.elim
  · exact ⟨h.ends, h.established⟩

theorem Attributed.use (hS : S.Lawful) (hu : Use p p') (h : Attributed k p) : Attributed k p' := by
  cases hu with
  | quiet hq =>
    refine ⟨fun ends hends => h.ends ends (hq.tuple ▸ hends), fun hest => ?_⟩
    rw [hq.tuple]
    exact h.established (hq.state ▸ hest)
  | shut => exact h.closeIfOpen hS
  | drop => exact h.closeIfOpen hS

end Attributed

/-! ### The poll -/

section Poll

variable {c : Core S} {streams : List WayTcpStream} {sessions : List WayUdpSession}
  {polls : InterfaceId → List (PollEvent S)}

/-- Lawful polls that bring SYNs home keep the endpoints of every connection. -/
theorem Attributed.poll (hr : c.Registered streams sessions)
    (hlaw : World.PollsObey (fun _ => InterfaceSlot.Connects) polls c)
    (hhome : World.PollsObey SynAtHome polls c) (h : c.Conns Attributed) :
    (c.pollSlots polls).Conns Attributed := by
  have hboth : World.PollsObey (fun c slot e => slot.Connects e ∧ SynAtHome c slot e) polls c :=
    fun slot hslot => (hlaw slot hslot).and (hhome slot hslot)
  refine Core.Conns.poll hr hboth (fun {k e t t' slot ev} he hid hev ht htouch hat => ?_) h
  obtain ⟨hends, hest⟩ := hev.1 _ htouch t ht t' rfl
  refine ⟨fun ends htup => ?_, hest⟩
  rcases hends with hkeep | hnone | ⟨seg, hseg, hacc, hlisten, hsyn, hnew⟩
  · exact hat.ends ends (hkeep ▸ htup)
  · cases hnone.symm.trans htup
  · -- the SYN's own key has this socket, so it is the key of the connection
    obtain ⟨e', he', hh⟩ := Option.map_eq_some_iff.mp (hev.2 seg hseg hsyn _ hacc t ht hlisten)
    have hk := hr.key_inj he he' hid.symm hh.symm
    cases hnew.symm.trans htup
    rw [hk]

end Poll

/-! ### The theorem -/

/-- The polls of a run connect sockets lawfully. -/
abbrev World.Connects (w : World S) (l : Label S) : Prop := w.Polls (fun _ => InterfaceSlot.Connects) l

/-- **Surfaced connections are attributed to their real peers**, along every run in
which no SYN is taken by a socket listening for another client: the endpoints of a
surfaced entry's socket are those of its key, so the addresses of a live stream are
the endpoints of the socket it reads and writes. -/
theorem tcp_peers_attributed (hS : S.Lawful) {b : NetstackBuilder S} {w : World S}
    (h : World.Reachable (fun w l => w.Connects l ∧ w.Polls SynAtHome l) b w) :
    (∀ k e t, w.core.conn k = some (e, t) → e.state ≠ .pending →
      (∀ ends, S.tcpTuple t = some ends → ends = (k.dst, k.src)) ∧
      (S.tcpState t = .established → S.tcpTuple t = some (k.dst, k.src))) ∧
    (∀ st ∈ w.streams, ∃ t, w.core.socketAt st.interface st.handle = some (.tcp t) ∧
      ∀ loc remote, S.tcpTuple t = some (loc, remote) →
        st.srcAddr = toSocketAddr remote ∧ st.dstAddr = toSocketAddr loc) := by
  have hinv : w.Inv False b ∧ w.core.Conns Attributed := by
    refine System.Reaches.invariant (P := fun w => w.Inv False b ∧ w.core.Conns Attributed) h
      ⟨⟨init_registered b, init_budgeted b False, rfl⟩, fun k p hp => ?_⟩ ?_
    · rw [(init_registered b).conn_eq_none.mpr rfl] at hp
      cases hp
    · rintro w l w' - ⟨hw, hconns⟩ ⟨⟨hlaw, hhome⟩, hstep⟩
      obtain ⟨hdoes, hw'⟩ := hw.step hS False.elim hstep
      refine ⟨hw', hdoes.conns hS hw.registered (fun k p hf => hf.attributed)
        (fun k p p' hu hp => hp.use hS hu) (fun k e t hp => ⟨hp.ends, hp.established⟩) ?_ hconns⟩
      rintro now polls r rfl hres spec hadm
      rw [spec.polled]
      exact Attributed.poll (spec.registered hS hw.registered).admitted ((World.atPoll_cycle hres).mp hlaw)
        ((World.atPoll_cycle hres).mp hhome) hadm
  obtain ⟨hw, hconns⟩ := hinv
  refine ⟨fun k e t hp _ => ?_, fun st hst => ?_⟩
  · have hat := hconns k (e, t) hp
    refine ⟨hat.ends, fun hest => ?_⟩
    obtain ⟨ends, hends⟩ := Option.isSome_iff_exists.mp (hat.established hest)
    rw [hends, hat.ends ends hends]
  · obtain ⟨e, he, heq, -, -⟩ := hw.registered.tcp.stream hst
    obtain ⟨t, hconn⟩ := hw.registered.exists_conn he
    have hsock := (Core.conn_eq_some.mp hconn).2
    refine ⟨t, by rw [heq]; exact hsock, fun loc remote htup => ?_⟩
    have hends := (hconns _ _ hconn).ends _ htup
    cases hends
    rw [heq]
    exact ⟨rfl, rfl⟩

open Reference in
/-- The key of a client's connection on the trial stack. -/
def clientKey (remote : IpEndpoint) : SessionKey := ⟨eth, .tcp, remote, server⟩

open Reference in
/-- A client connects: its stream has its address. -/
theorem tcp_peers_attributed_openBoth :
    ∃ w : World reference, World.Reachable (fun w l => w.Connects l ∧ w.Polls SynAtHome l)
        (trial .default) w ∧
      w.core.conn (clientKey client) =
        some (⟨0, .established, false⟩, connected 16384 client .established) ∧
      ∃ st ∈ w.streams, st.key = clientKey client ∧ st.srcAddr = toSocketAddr client := by
  obtain ⟨w, hw, hcheck⟩ := World.exists_of_run (fun w l => w.Connects l ∧ w.Polls SynAtHome l)
    (trial .default) openBoth
    (fun w => decide (streamOf (clientKey client) 0 ∈ w.streams ∧ w.core.conn (clientKey client) =
      some (⟨0, .established, false⟩, connected 16384 client .established)))
    (by decide +kernel)
  obtain ⟨hmem, hconn⟩ := of_decide_eq_true hcheck
  refine ⟨w, hw, hconn, _, hmem, rfl, ?_⟩
  obtain ⟨t, hsock, hends⟩ := (tcp_peers_attributed reference_lawful hw).2 _ hmem
  have hsock' := (Core.conn_eq_some.mp hconn).2
  rw [show (streamOf (clientKey client) 0).interface = (clientKey client).interface from rfl,
    show (streamOf (clientKey client) 0).handle = 0 from rfl, hsock'] at hsock
  cases hsock
  exact (hends server client rfl).1

open Reference in
/-- The SYN of a client fails its checksum: the pre-pass opens an entry for it and the
engine discards it. The socket, left listening, takes the SYN of another client, and
the entry is surfaced with the first client's address. -/
theorem leftover_listener_misattributes :
    ∃ w : World reference, World.Reachable World.Connects (trial .default) w ∧
      w.core.conn (clientKey client) =
        some (⟨0, .established, false⟩, connected 16384 client₂ .established) ∧
      ∃ st ∈ w.streams, st.handle = 0 ∧ st.srcAddr = toSocketAddr client ∧ client ≠ client₂ := by
  obtain ⟨w, hw, hcheck⟩ := World.exists_of_run World.Connects (trial .default)
    [.ingress ⟨eth, tcpPacket client server syn true⟩, cycle 0 [.receive none],
      fromClient client₂ syn, cycle 1 [takes 0 (connected 16384 client₂ .synReceived)],
      fromClient client₂ ack, cycle 2 [takes 0 (connected 16384 client₂ .established)]]
    (fun w => decide (streamOf (clientKey client) 0 ∈ w.streams ∧ w.core.conn (clientKey client) =
      some (⟨0, .established, false⟩, connected 16384 client₂ .established)))
    (by decide +kernel)
  obtain ⟨hmem, hconn⟩ := of_decide_eq_true hcheck
  exact ⟨w, hw, hconn, _, hmem, rfl, rfl, by decide⟩

end WayNetstack

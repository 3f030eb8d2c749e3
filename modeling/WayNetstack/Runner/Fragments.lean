import WayNetstack.Registry.Rescan
import WayNetstack.Runner.Ingress
import WayNetstack.Tcp.Connections

/-!
# Fragments of other datagrams

Only the first fragment of an IPv4 datagram begins with a transport header; what a later one
carries is data from the middle. `parse_l4` does not look at the fragment offset: it reads the
payload of any packet as a header of the protocol that the packet names. So a later fragment
is passed over just when its data happen not to look like one, by their lengths, ports, flags
and options (`PassesAsHeader`).

**`fragments_start_nothing_iff`**: `parse_l4` finds no flow in a non-first fragment if and only
if its data do not pass as a header; a pre-pass over such fragments alone does nothing; and in
every run in which no fragment passes, the flows that a pre-pass opens are those of packets
that are not non-first fragments.

The wire formats are those of the engine with its checksums ignored (`Smoltcp.Formats`). What
it takes for the options of a TCP header is left open.
-/

namespace WayNetstack

open Lib Lib.Table Lib.Traced SessionManager Relation
open Reference (word ipv4HeaderLen ipv4Addr protocol tcpHeaderLen tcpControl)

variable {S : Smoltcp} {optionsOk : Bytes → Bool}

/-! ### The wire formats -/

/-- The string is an IPv4 packet: it has a header, which says its version, and at least the
length that the header says. -/
def IsIpv4 (pkt : Bytes) : Prop :=
  pkt.getD 0 0 >>> 4 = 4 ∧ 20 ≤ ipv4HeaderLen pkt ∧ ipv4HeaderLen pkt ≤ word pkt 2 ∧
    word pkt 2 ≤ pkt.length

/-- The fragment offset, in units of eight bytes; the three bits above it are flags. -/
def fragmentOffset (pkt : Bytes) : ℕ := word pkt 6 % 8192

/-- An IPv4 packet that carries data from the middle of a datagram. -/
def NonFirstFragment (pkt : Bytes) : Prop := IsIpv4 pkt ∧ fragmentOffset pkt ≠ 0

/-- An IPv4 packet that carries a part of a datagram: more parts follow it, or it is not the
first. -/
def IsFragment (pkt : Bytes) : Prop := IsIpv4 pkt ∧ Reference.isFragment pkt = true

instance : DecidablePred IsIpv4 := fun _ => inferInstanceAs (Decidable (_ ∧ _))

instance : DecidablePred IsFragment := fun _ => inferInstanceAs (Decidable (_ ∧ _))

instance : DecidablePred NonFirstFragment := fun _ => inferInstanceAs (Decidable (_ ∧ _))

/-- The bytes pass as a TCP header. -/
def PassesAsTcp (optionsOk : Bytes → Bool) (data : Bytes) : Prop :=
  (20 ≤ data.length ∧ 20 ≤ tcpHeaderLen data ∧ tcpHeaderLen data ≤ data.length) ∧
    word data 0 ≠ 0 ∧ word data 2 ≠ 0 ∧ (tcpControl (data.getD 13 0)).isSome ∧ optionsOk data = true

/-- The bytes pass as a UDP header. -/
def PassesAsUdp (data : Bytes) : Prop :=
  (8 ≤ data.length ∧ 8 ≤ word data 4 ∧ word data 4 ≤ data.length) ∧ word data 2 ≠ 0

/-- What the packet carries passes as a header of its protocol. -/
def PassesAsHeader (optionsOk : Bytes → Bool) (pkt : Bytes) : Prop :=
  protocol (pkt.getD 9 0) = .tcp ∧ PassesAsTcp optionsOk (Reference.ipv4Payload pkt) ∨
    protocol (pkt.getD 9 0) = .udp ∧ PassesAsUdp (Reference.ipv4Payload pkt)

instance (data : Bytes) : Decidable (PassesAsTcp optionsOk data) := inferInstanceAs (Decidable (_ ∧ _))

instance : DecidablePred PassesAsUdp := fun _ => inferInstanceAs (Decidable (_ ∧ _))

instance (pkt : Bytes) : Decidable (PassesAsHeader optionsOk pkt) := inferInstanceAs (Decidable (_ ∨ _))

/-- What the parsers accept when checksums are ignored. An IPv4 packet is accepted whatever its
fragment fields say, and its payload is what follows its header, up to its total length. Of the
headers of TCP and UDP the lengths, ports and flags are checked, and the options, for which
`optionsOk` stands. -/
structure Smoltcp.Formats (S : Smoltcp) (optionsOk : Bytes → Bool) : Prop where
  ipv4_checked : ∀ {pkt}, IsIpv4 pkt → S.ipv4NewChecked pkt = true
  ipv4_parse : ∀ {pkt}, IsIpv4 pkt →
    S.ipv4Parse pkt .ignored = some ⟨ipv4Addr pkt 12, ipv4Addr pkt 16, protocol (pkt.getD 9 0)⟩
  ipv4_payload : ∀ {pkt}, IsIpv4 pkt → S.ipv4Payload pkt = Reference.ipv4Payload pkt
  tcp_checked : ∀ data, S.tcpNewChecked data = Reference.tcpNewChecked data
  tcp_parse : ∀ data src dst, Reference.tcpNewChecked data = true → S.tcpParse data src dst .ignored =
    if optionsOk data = true then Reference.tcpParse data src dst .ignored else none
  udp_checked : ∀ data, S.udpNewChecked data = Reference.udpNewChecked data
  udp_parse : ∀ data src dst, Reference.udpNewChecked data = true →
    S.udpParse data src dst .ignored = Reference.udpParse data src dst .ignored

section Parsing

variable {pkt data : Bytes} {src dst : IpAddress}

theorem Reference.isSome_tcpParse : (tcpParse data src dst .ignored).isSome ↔
    word data 0 ≠ 0 ∧ word data 2 ≠ 0 ∧ (tcpControl (data.getD 13 0)).isSome := by
  unfold tcpParse
  split
  · next h => simp [h.1, h.2.1]
  · next h =>
    refine ⟨nofun, fun hports => absurd ⟨hports.1, hports.2.1, nofun⟩ h⟩

theorem Reference.isSome_udpParse : (udpParse data src dst .ignored).isSome ↔ word data 2 ≠ 0 := by
  have hport : UInt16.ofNat (word data 2) = 0 ↔ word data 2 = 0 := by
    rw [← UInt16.toNat_inj, UInt16.toNat_ofNat', Nat.mod_eq_of_lt (word_lt data 2)]
    rfl
  unfold udpParse
  split
  · next h => simpa using fun hzero => h.1 (hport.mpr hzero)
  · next h =>
    refine ⟨nofun, fun hne => absurd ⟨fun hzero => hne (hport.mp hzero), nofun⟩ h⟩

/-- A TCP payload is read as a flow just when it passes as a header. -/
theorem Smoltcp.Formats.isSome_dispatchL4_tcp (hF : S.Formats optionsOk) :
    (dispatchL4 S src dst .tcp data .ignored).isSome ↔ PassesAsTcp optionsOk data := by
  simp only [dispatchL4, hF.tcp_checked]
  split
  · next hlen =>
    rw [Option.isSome_map, hF.tcp_parse data src dst hlen]
    have hlen := of_decide_eq_true hlen
    split
    · next hopt =>
      rw [Reference.isSome_tcpParse]
      exact ⟨fun ⟨h₁, h₂, h₃⟩ => ⟨hlen, h₁, h₂, h₃, hopt⟩, fun ⟨_, h₁, h₂, h₃, _⟩ => ⟨h₁, h₂, h₃⟩⟩
    · next hopt => exact ⟨nofun, fun h => absurd h.2.2.2.2 hopt⟩
  · next hlen => exact ⟨nofun, fun h => absurd (decide_eq_true h.1) hlen⟩

/-- A UDP payload is read as a flow just when it passes as a header. -/
theorem Smoltcp.Formats.isSome_dispatchL4_udp (hF : S.Formats optionsOk) :
    (dispatchL4 S src dst .udp data .ignored).isSome ↔ PassesAsUdp data := by
  simp only [dispatchL4, hF.udp_checked]
  split
  · next hlen =>
    rw [Option.isSome_map, hF.udp_parse data src dst hlen, Reference.isSome_udpParse]
    exact ⟨fun hport => ⟨of_decide_eq_true hlen, hport⟩, fun h => h.2⟩
  · next hlen => exact ⟨nofun, fun h => absurd (decide_eq_true h.1) hlen⟩

/-- An IPv4 packet, whatever its fragment offset, is read as its payload is. -/
theorem Smoltcp.Formats.parseL4_ipv4 (hF : S.Formats optionsOk) (h : IsIpv4 pkt) :
    parseL4 S pkt = dispatchL4 S (ipv4Addr pkt 12) (ipv4Addr pkt 16) (protocol (pkt.getD 9 0))
      (Reference.ipv4Payload pkt) .ignored := by
  cases pkt with
  | nil => cases h.1
  | cons first rest =>
    have hversion : first >>> 4 = 4 := h.1
    simp only [parseL4, List.head?_cons]
    rw [if_pos hversion, if_pos (hF.ipv4_checked h), hF.ipv4_parse h, hF.ipv4_payload h]
    rfl

/-- **A flow is found in an IPv4 packet just when its payload passes as a header.** -/
theorem Smoltcp.Formats.parseL4_eq_none_iff (hF : S.Formats optionsOk) (h : IsIpv4 pkt) :
    parseL4 S pkt = none ↔ ¬PassesAsHeader optionsOk pkt := by
  rw [hF.parseL4_ipv4 h, ← Option.not_isSome_iff_eq_none, not_iff_not]
  unfold PassesAsHeader
  cases protocol (pkt.getD 9 0) with
  | tcp => simpa using hF.isSome_dispatchL4_tcp
  | udp => simpa using hF.isSome_dispatchL4_udp
  | other n => simp [dispatchL4]

end Parsing

/-! ### What the pre-pass opens -/

section Opens

variable {c : Core S} {now : Instant} {P : Bytes → Prop}

/-- A packet in which no flow is found is settled. -/
theorem Core.settled_of_parse_none {slot : InterfaceSlot S} {pkt : Bytes} (h : parseL4 S pkt = none) :
    c.Settled slot pkt := by
  unfold Settled
  rw [h]
  trivial

theorem Core.queued_of_getElem? {i : ℕ} {slot : InterfaceSlot S} (hi : c.slots[i]? = some slot)
    {pkt : Bytes} (hpkt : pkt ∈ slot.device.ingress) : c.Queued slot.id pkt :=
  ⟨slot.device, List.mem_map_of_mem (List.mem_of_getElem? hi), hpkt⟩

/-- What a pre-pass has opened since `c` it has opened for packets with `P` that waited on the
interface: the TCP entries with their listening sockets, and the sessions. -/
structure Core.OpenedFor (c : Core S) (P : Bytes → Prop) (r : Core S × List Session) : Prop where
  tcp : ∀ {k e}, c.manager.tcp.lookup k = none → r.1.manager.tcp.lookup k = some e →
    ∃ pkt, c.Queued k.interface pkt ∧ P pkt ∧ parseL4 S pkt = some (k.src, k.dst, .tcp true)
  listening : ∀ {id h t}, c.socketAt id h = none → r.1.socketAt id h = some (.tcp t) →
    ∃ pkt, c.Queued id pkt ∧ P pkt ∧ ∃ src dst, parseL4 S pkt = some (src, dst, .tcp true)
  sessions : ∀ s ∈ r.2, ∃ ses, s = .udp ses ∧ ∃ pkt, c.Queued ses.interface pkt ∧ P pkt ∧
    parseL4 S pkt = some (ses.key.src, ses.key.dst, .udp)

/-- The sessions that a pre-pass makes are those of datagrams. -/
theorem Admits.sessions_queued {r : Core S × List Session} (h : ReflTransGen (Admit now c.Queued) (c, []) r) :
    ∀ s ∈ r.2, ∃ ses, s = .udp ses ∧ ∃ pkt, c.Queued ses.interface pkt ∧
      parseL4 S pkt = some (ses.key.src, ses.key.dst, .udp) := by
  refine run_keeps (P := fun st : Core S × List Session => ∀ s ∈ st.2, ∃ ses, s = .udp ses ∧
    ∃ pkt, c.Queued ses.interface pkt ∧ parseL4 S pkt = some (ses.key.src, ses.key.dst, .udp)) ?_ h
    (fun _ hs => absurd hs List.not_mem_nil)
  intro st st' hstep hold s hs
  cases hstep with
  | device | spoil | leak | tcp => exact hold s hs
  | udpNew _ hid hq hp | udpJoin _ hid hq hp =>
    rcases List.mem_append.mp hs with hs | hs
    · exact hold s hs
    · refine ⟨_, List.mem_singleton.mp hs, _, ?_, hp⟩
      show c.Queued (SessionKey.interface _) _
      rw [hid]
      exact hq

/-- **Whatever a pre-pass opens has a packet**, which is one of those in which a flow is found. -/
theorem Admits.openedFor (hS : S.Lawful) {streams : List WayTcpStream} {sessions : List WayUdpSession}
    (hr : c.Registered streams sessions) (hP : ∀ id pkt, c.Queued id pkt → parseL4 S pkt ≠ none → P pkt)
    {r : Core S × List Session} (h : ReflTransGen (Admit now c.Queued) (c, []) r) : c.OpenedFor P r := by
  have hstart : c.Registered streams (sessions ++ ([] : List Session).filterMap Session.session?) := by
    simpa using hr
  have hr' := Admits.registered hS h hstart
  have hpkt : ∀ {id pkt x}, c.Queued id pkt → parseL4 S pkt = some x → P pkt := by
    intro id pkt x hq hp
    exact hP id pkt hq (by simp [hp])
  have htcp : ∀ {k e}, c.manager.tcp.lookup k = none → r.1.manager.tcp.lookup k = some e →
      ∃ pkt, c.Queued k.interface pkt ∧ P pkt ∧ parseL4 S pkt = some (k.src, k.dst, .tcp true) := by
    intro k e hnone he
    obtain ⟨t, ht⟩ := hr'.exists_conn he
    rcases Admits.conn hS h hstart k with heq | ⟨-, p, -, hfresh⟩
    · have hold : c.conn k = some (e, t) := heq.symm.trans ht
      rw [hr.conn_eq_none.mpr hnone] at hold
      cases hold
    · obtain ⟨pkt, hq, hp⟩ := hfresh.syn
      exact ⟨pkt, hq, hpkt hq hp, hp⟩
  refine ⟨htcp, fun {id hd t} hnone ht => ?_, fun s hs => ?_⟩
  · -- the socket is that of an entry, and the entry is new since its cell was free
    have hproto : r.1.protoAt id hd = some .tcp := by
      rw [Core.protoAt, ht]
      rfl
    obtain ⟨k, e, he, rfl, rfl⟩ := hr'.tcp.owned hproto
    have hnew : c.manager.tcp.lookup k = none := by
      cases hk : c.manager.tcp.lookup k with
      | none => rfl
      | some e' =>
        obtain rfl : e' = e := Option.some.inj (((Admits.grows h).tcp hk).symm.trans he)
        have hnamed : c.protoAt k.interface e'.handle = some .tcp := hr.tcp.named hk
        rw [Core.protoAt, hnone] at hnamed
        cases hnamed
    obtain ⟨pkt, hq, hPpkt, hp⟩ := htcp hnew he
    exact ⟨pkt, hq, hPpkt, k.src, k.dst, hp⟩
  · obtain ⟨ses, heq, pkt, hq, hp⟩ := Admits.sessions_queued h s hs
    exact ⟨ses, heq, pkt, hq, hpkt hq hp, hp⟩

end Opens

/-! ### Runs -/

section Runs

variable {w w' : World S} {l : Label S} {ok : World S → Label S → Prop} {b : NetstackBuilder S}

theorem Core.queued_iff_waiting {c : Core S} (hn : c.ids.Nodup) {id : InterfaceId} {pkt : Bytes} :
    c.Queued id pkt ↔ pkt ∈ c.waiting id := by
  unfold Queued waiting feeds
  constructor
  · rintro ⟨d, hd, hpkt⟩
    obtain ⟨slot, hslot, heq⟩ := List.mem_map.mp hd
    cases heq
    rw [slot_of_mem hn hslot]
    exact hpkt
  · intro hpkt
    cases hs : c.slot id with
    | none =>
      rw [hs] at hpkt
      cases hpkt
    | some slot =>
      rw [hs] at hpkt
      exact ⟨slot.device, List.mem_map.mpr ⟨slot, mem_of_slot hs, by rw [id_of_slot hs]⟩, hpkt⟩

/-- A packet that waits was waiting before, or has just been queued. -/
theorem World.Does.waiting (h : w.Does l w') (hn : w.core.ids.Nodup) {id : InterfaceId} {pkt : Bytes}
    (hpkt : pkt ∈ w'.core.waiting id) : pkt ∈ w.core.waiting id ∨ l = .ingress ⟨id, pkt⟩ := by
  cases hl : l.ofApp with
  | true =>
    rw [Core.waiting_of_feeds (h.feeds hl)] at hpkt
    exact .inl hpkt
  | false =>
    cases h with
    | ingress offered =>
      by_cases hin : offered.interface ∈ w.core.ids
      · have hpkt : pkt ∈ (queueIngress w.core offered).waiting id := hpkt
        rw [Core.waiting_queueIngress hin, List.mem_append, packetsOn_singleton] at hpkt
        refine hpkt.imp_right fun hnew => ?_
        split at hnew
        · next hid =>
          rw [← hid, List.mem_singleton.mp hnew]
        · cases hnew
      · have hnone : w.core.slot offered.interface = none := by
          rw [Option.eq_none_iff_forall_ne_some]
          exact fun slot hs => hin (Core.exists_slot.mp ⟨slot, hs⟩)
        have hpkt : pkt ∈ (queueIngress w.core offered).waiting id := hpkt
        simp only [queueIngress, hnone] at hpkt
        exact .inl hpkt
    | cycle result spec =>
      rw [← spec.received hn id]
      exact .inl (List.mem_append_right _ hpkt)
    | read | write | shutdown | dropStream | send | recv | dropSession | rehash => cases hl

/-- **What waits has been queued.** If every packet that the steps of a run queue has `P`, so has
every packet that waits in a world of the run. -/
theorem World.Reachable.queued (hS : S.Lawful) {P : Bytes → Prop} (h : World.Reachable ok b w)
    (hok : ∀ w pkt, ok w (.ingress pkt) → P pkt.data) {id : InterfaceId} {pkt : Bytes}
    (hq : w.core.Queued id pkt) : P pkt := by
  have hn : w.core.ids.Nodup := (World.Reachable.inv hS False.elim h : w.Inv False b).registered.shaped.ids
  rw [Core.queued_iff_waiting hn] at hq
  refine System.Reaches.invariant (P := fun w : World S => ∀ id, ∀ pkt ∈ w.core.waiting id, P pkt) h ?_ ?_ id pkt hq
  · -- the devices of a stack just built are empty
    intro id pkt hpkt
    have hslots : ∀ slot ∈ (World.init b).core.slots, slot.device.ingress = [] := by
      intro slot hslot
      obtain ⟨x, -, rfl⟩ := List.mem_map.mp hslot
      rfl
    unfold Core.waiting at hpkt
    cases hs : (World.init b).core.slot id with
    | none =>
      rw [hs] at hpkt
      cases hpkt
    | some slot =>
      rw [hs] at hpkt
      have hpkt : pkt ∈ slot.device.ingress := hpkt
      rw [hslots slot (Core.mem_of_slot hs)] at hpkt
      cases hpkt
  · rintro w l w' hw hP ⟨hl, hstep⟩ id pkt hpkt
    have hinv : w.Inv False b := World.Reachable.inv hS False.elim hw
    rcases (hinv.step hS False.elim hstep).1.waiting hinv.registered.shaped.ids hpkt with hold | rfl
    · exact hP id pkt hold
    · exact hok w _ hl

/-- A fragment that the step queues, if it is not the first, does not pass as a header. -/
def Label.NoHeaderInside (optionsOk : Bytes → Bool) : Label S → Prop
  | .ingress pkt => NonFirstFragment pkt.data → ¬PassesAsHeader optionsOk pkt.data
  | _ => True

instance : ∀ l : Label S, Decidable (l.NoHeaderInside optionsOk)
  | .ingress _ => inferInstanceAs (Decidable (_ → _))
  | .cycle _ _ | .read _ _ _ | .write _ _ _ | .shutdown _ | .dropStream _ | .send _ _ | .recv _
  | .dropSession _ | .rehash _ => inferInstanceAs (Decidable True)

end Runs

/-- **Fragments and flows.** In an IPv4 packet with a fragment offset that is not zero, `parse_l4`
finds no flow if and only if what the packet carries does not pass as a header. A pre-pass that
finds only such packets in the queues does nothing. In every run in which no non-first fragment
passes, among whatever other packets, a pre-pass opens TCP entries, makes listening sockets and
surfaces sessions only for packets that are not non-first fragments. -/
theorem fragments_start_nothing_iff (hS : S.Lawful) (hF : S.Formats optionsOk) :
    (∀ pkt, NonFirstFragment pkt → (parseL4 S pkt = none ↔ ¬PassesAsHeader optionsOk pkt)) ∧
    (∀ (c : Core S) now, (∀ id pkt, c.Queued id pkt → NonFirstFragment pkt ∧ ¬PassesAsHeader optionsOk pkt) →
      prePass c now = pure (c, [])) ∧
    ∀ (b : NetstackBuilder S) w, World.Reachable (fun _ l => l.NoHeaderInside optionsOk) b w →
      ∀ now, ∃ r, (prePass w.core now).result = .ok r ∧ w.core.OpenedFor (fun pkt => ¬NonFirstFragment pkt) r := by
  have hparse : ∀ pkt, NonFirstFragment pkt → (parseL4 S pkt = none ↔ ¬PassesAsHeader optionsOk pkt) :=
    fun pkt hpkt => hF.parseL4_eq_none_iff hpkt.1
  refine ⟨hparse, fun c now hq => ?_, fun b w hw now => ?_⟩
  · refine prePass_settled fun i slot hi pkt hpkt => Core.settled_of_parse_none ?_
    obtain ⟨hfrag, hpass⟩ := hq slot.id pkt (Core.queued_of_getElem? hi hpkt)
    exact (hparse pkt hfrag).mpr hpass
  · have hinv : w.Inv False b := World.Reachable.inv hS False.elim hw
    have hpre : Ok (Call.Good False) (prePass w.core now) fun st =>
        ReflTransGen (Admit now w.core.Queued) (w.core, []) st ∧ st.1.feeds = w.core.feeds :=
      prePass_ok hinv.registered
    obtain ⟨⟨r, hr, hrun, -⟩, -⟩ := hpre
    refine ⟨r, hr, Admits.openedFor hS hinv.registered (fun id pkt hq hsome hfrag => ?_) hrun⟩
    have hpass : NonFirstFragment pkt → ¬PassesAsHeader optionsOk pkt :=
      hw.queued hS (P := fun data => NonFirstFragment data → ¬PassesAsHeader optionsOk data)
        (fun _ _ hl => hl) hq
    exact hsome ((hparse pkt hfrag).mpr (hpass hfrag))

namespace Reference

theorem reference_formats : reference.Formats fun _ => true where
  ipv4_checked := by
    intro pkt h
    refine decide_eq_true ⟨?_, ?_, h.2.2⟩ <;> have := h.2 <;> omega
  ipv4_parse := fun h => if_pos ⟨h.1, h.2.1, nofun⟩
  ipv4_payload := fun _ => rfl
  tcp_checked := fun _ => rfl
  tcp_parse := fun _ _ _ _ => rfl
  udp_checked := fun _ => rfl
  udp_parse := fun _ _ _ _ => rfl

/-- The fragment at byte 1480 of a datagram between the endpoints, with the payload of a packet as
its data. -/
def nonFirst (pkt : Bytes) : Bytes :=
  let head (sum : Bytes) : Bytes := pkt.take 6 ++ bytes16 185 ++ (pkt.drop 8).take 2 ++ sum ++ (pkt.drop 12).take 8
  head (checksum (head [0, 0])) ++ pkt.drop 20

/-- A fragment full of zeros. -/
def zeros : Bytes := nonFirst (ipv4Packet 17 client.addr server.addr (List.replicate 24 0))

/-- A fragment whose data look like a client's SYN. -/
def likeSyn : Bytes := nonFirst (tcpPacket client server syn false)

/-- A fragment whose data look like a client's datagram. -/
def likeDatagram : Bytes := nonFirst (udpPacket client server [1, 2, 3])

end Reference

open Reference in
/-- A client's SYN behind a fragment: the pre-pass opens the entry of the one and nothing for the
other. -/
theorem fragments_start_nothing_zeros : NonFirstFragment zeros ∧ parseL4 reference zeros = none ∧
    ∃ w : World reference, w.core.waiting eth = [zeros, tcpPacket client server syn false] ∧
      ∃ r, (prePass w.core 0).result = .ok r ∧ len r.1.manager.tcp = 1 ∧ r.2 = [] ∧
        w.core.OpenedFor (fun pkt => ¬NonFirstFragment pkt) r := by
  obtain ⟨hparse, -, hruns⟩ := fragments_start_nothing_iff reference_lawful reference_formats
  have hzeros : NonFirstFragment zeros := by decide +kernel
  refine ⟨hzeros, (hparse zeros hzeros).mpr (by decide +kernel), ?_⟩
  obtain ⟨w, hw, hcheck⟩ := World.exists_of_run (fun _ l => l.NoHeaderInside fun _ => true) (trial .default)
    [.ingress ⟨eth, zeros⟩, fromClient client syn]
    (fun w => decide (w.core.waiting eth = [zeros, tcpPacket client server syn false]) &&
      (prePass w.core 0).result.toOption.any fun r => decide (len r.1.manager.tcp = 1) && r.2.isEmpty)
    (by decide +kernel)
  rw [Bool.and_eq_true, decide_eq_true_eq] at hcheck
  obtain ⟨r, hr, hopened⟩ := hruns _ w hw 0
  obtain ⟨r', hr', hmade⟩ := (Option.any_eq_true _ _).mp hcheck.2
  obtain rfl : r = r' := Except.ok.inj (hr.symm.trans (toOption_eq_some.mp hr'))
  rw [Bool.and_eq_true, decide_eq_true_eq, List.isEmpty_iff] at hmade
  exact ⟨w, hcheck.1, r, hr, hmade.1, hmade.2, hopened⟩

namespace Reference

/-- The step queues non-first fragments only. -/
def onlyFragments : Label reference → Prop
  | .ingress pkt => NonFirstFragment pkt.data
  | _ => True

instance : DecidablePred onlyFragments
  | .ingress _ => inferInstanceAs (Decidable (NonFirstFragment _))
  | .cycle _ _ | .read _ _ _ | .write _ _ _ | .shutdown _ | .dropStream _ | .send _ _ | .recv _
  | .dropSession _ | .rehash _ => inferInstanceAs (Decidable True)

end Reference

open Reference in
/-- Two fragments from the middle of datagrams, and nothing else: the client gets an entry with a
listening socket, and the application a session. -/
theorem fragments_start_flows :
    parseL4 reference likeSyn = some (client, server, .tcp true) ∧
    parseL4 reference likeDatagram = some (client, server, .udp) ∧
    ∃ w : World reference, World.Reachable (fun _ l => onlyFragments l) (trial .default) w ∧
      w.core.manager.tcp.lookup ⟨eth, .tcp, client, server⟩ = some ⟨0, .pending, false⟩ ∧
      w.core.socketAt eth 0 = some (.tcp (listening 16384)) ∧
      w.sessions.map (·.key) = [⟨eth, .udp, client, server⟩] := by
  refine ⟨by decide +kernel, by decide +kernel, ?_⟩
  obtain ⟨w, hw, hcheck⟩ := World.exists_of_run (fun _ l => onlyFragments l) (trial .default)
    [.ingress ⟨eth, likeSyn⟩, .ingress ⟨eth, likeDatagram⟩, cycle 0 [.receive none, .receive none]]
    (fun w => decide (w.core.manager.tcp.lookup ⟨eth, .tcp, client, server⟩ = some ⟨0, .pending, false⟩ ∧
      w.core.socketAt eth 0 = some (.tcp (listening 16384)) ∧
      w.sessions.map (·.key) = [⟨eth, .udp, client, server⟩])) (by decide +kernel)
  exact ⟨w, hw, of_decide_eq_true hcheck⟩

end WayNetstack

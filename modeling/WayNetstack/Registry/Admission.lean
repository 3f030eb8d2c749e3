import WayNetstack.Registry.Views

/-!
# The pre-pass, one interface at a time

A pre-pass in which no new flow is refused for a cap or the budget (`Core.Roomy`) does to
each interface what the pre-pass of a stack with that interface alone and no limits would
do. Such a stack is a function of the view of the interface: `InterfaceView.prePass`, with
the code's decisions and without the counters that the interfaces share. **`prePass_observed`**
says that the two agree.
-/

namespace WayNetstack

open Lib Lib.Table Lib.Traced SessionManager Relation

variable {S : Smoltcp}

/-! ### One interface alone -/

namespace InterfaceView

/-- A flow gets a listening socket. -/
def openTcp (v : InterfaceView S) (slot : InterfaceSlot S) (f : Flow) (t : S.Tcp) : InterfaceView S :=
  { v with
    slot := some ((slot.withPool slot.tcpPool.tail).withSocket (.tcp t))
    tcp := Function.update v.tcp f (some ⟨S.freeIndex slot.sockets, .pending, false⟩) }

/-- A flow gets a session on the socket `h`, which then has `n` sessions. -/
def openUdp (v : InterfaceView S) (slot : InterfaceSlot S) (f : Flow) (h : SocketHandle) (n : ℕ)
    (now : Instant) : InterfaceView S :=
  { v with
    slot := some slot
    udp := Function.update v.udp f (some ⟨h, now, some .new⟩)
    shared := Function.update v.shared f.dst (some (h, n)) }

/-- What a packet does to an interface when nothing is refused. -/
def admitPacket (config : NetstackConfig) (now : Instant) (st : InterfaceView S × List Session) (pkt : Bytes) :
    InterfaceView S × List Session :=
  match parseL4 S pkt, st.1.slot with
  | some (src, dst, .tcp true), some slot =>
    if (st.1.tcp ⟨.tcp, src, dst⟩).isSome then st
    else
      match S.tcpListen (slot.tcpPool.head?.getD (S.tcpNew slot.tcpBufferSize slot.tcpBufferSize))
          ⟨some dst.addr, dst.port⟩ with
      | .error _ => ({ st.1 with slot := some (slot.withPool slot.tcpPool.tail) }, st.2)
      | .ok t => (st.1.openTcp slot ⟨.tcp, src, dst⟩ t, st.2)
  | some (src, dst, .udp), some slot =>
    if (st.1.udp ⟨.udp, src, dst⟩).isSome then st
    else
      match st.1.shared dst with
      | some (h, n) => (st.1.openUdp slot ⟨.udp, src, dst⟩ h (n + 1) now,
          st.2 ++ [.udp (sessionOf ⟨slot.id, .udp, src, dst⟩ h 0)])
      | none =>
        match S.udpBind (S.udpNew (max config.udpBufferPackets 1)
            (max config.udpBufferBytes slot.mtu)) dst with
        | .error _ => st
        | .ok u =>
          (st.1.openUdp (slot.withSocket (.udp u)) ⟨.udp, src, dst⟩ (S.freeIndex slot.sockets) 1 now,
            st.2 ++ [.udp (sessionOf ⟨slot.id, .udp, src, dst⟩ (S.freeIndex slot.sockets) 0)])
  | _, _ => st

/-- Replace the ingress queue. -/
def setIngress (v : InterfaceView S) (f : List Bytes → List Bytes) : InterfaceView S :=
  { v with slot := v.slot.map fun slot =>
    { slot with device := { slot.device with ingress := f slot.device.ingress } } }

/-- The ingress queue. -/
def ingress (v : InterfaceView S) : List Bytes := v.slot.elim [] fun slot => slot.device.ingress

/-- The pre-pass of an interface when nothing is refused. -/
def prePass (config : NetstackConfig) (now : Instant) (st : InterfaceView S × List Session) :
    InterfaceView S × List Session :=
  let r := st.1.ingress.foldl (admitPacket config now) (st.1.setIngress fun _ => [], st.2)
  (r.1.setIngress (· ++ st.1.ingress), r.2)

/-- Without a slot there is nothing to do. -/
theorem prePass_of_none (config : NetstackConfig) (now : Instant) {st : InterfaceView S × List Session}
    (h : st.1.slot = none) : prePass config now st = st := by
  have hset : ∀ f, st.1.setIngress f = st.1 := fun f => InterfaceView.ext (by simp [setIngress, h]) rfl rfl rfl
  unfold prePass ingress
  rw [h]
  simp [hset]

end InterfaceView

/-! ### What can be seen of one interface -/

/-- The interface of a session. -/
def Session.interface : Session → InterfaceId
  | .tcp st => st.interface
  | .udp ses => ses.interface

/-- A session, wherever its queue is. -/
def Session.anonymous : Session → Session
  | .tcp st => .tcp st
  | .udp ses => .udp { ses with queue := 0 }

/-- The sessions of an interface. -/
def sessionsOn (id : InterfaceId) (accepted : List Session) : List Session :=
  (accepted.filter fun s => decide (s.interface = id)).map Session.anonymous

/-- What the pre-pass has made of an interface so far. -/
def observed (st : Core S × List Session) (id : InterfaceId) : InterfaceView S × List Session :=
  (st.1.view id, sessionsOn id st.2)

/-- One more session. -/
theorem sessionsOn_append {key : SessionKey} {i : InterfaceId} (hid : key.interface = i) (h : SocketHandle)
    (queue : QueueRef) (accepted : List Session) (id : InterfaceId) :
    sessionsOn id (accepted ++ [.udp (sessionOf key h queue)]) =
      if id = i then sessionsOn id accepted ++ [.udp (sessionOf key h 0)] else sessionsOn id accepted := by
  have hsession : (Session.udp (sessionOf key h queue)).interface = i := hid
  unfold sessionsOn
  rw [List.filter_append, List.map_append]
  by_cases hne : id = i
  · simp only [List.filter_cons, hsession, hne, decide_true, if_true, List.filter_nil, List.map_cons,
      List.map_nil]
    rfl
  · simp [hsession, hne, Ne.symm hne]

section Writes

variable {c : Core S} {slot : InterfaceSlot S} {streams : List WayTcpStream} {sessions : List WayUdpSession}

/-- The slots once one is written back. -/
theorem Core.slot_write (slot' : InterfaceSlot S) (hs : c.slot slot.id = some slot)
    (hid : slot'.id = slot.id) (id : InterfaceId) :
    (c.setSlot slot').slot id = if id = slot.id then some slot' else c.slot id := by
  rw [← hid] at hs ⊢
  exact Core.slot_setSlot hs id

/-- A slot is written back. -/
theorem Core.view_setSlot (slot' : InterfaceSlot S) (hs : c.slot slot.id = some slot)
    (hid : slot'.id = slot.id) (id : InterfaceId) : (c.setSlot slot').view id =
      if id = slot.id then { c.view id with slot := some slot' } else c.view id := by
  have hslot := Core.slot_write slot' hs hid id
  by_cases h : id = slot.id
  · rw [if_pos h] at hslot ⊢
    exact InterfaceView.ext hslot rfl rfl rfl
  · rw [if_neg h] at hslot ⊢
    exact InterfaceView.ext hslot rfl rfl rfl

/-- An entry of a flow is seen on its interface. -/
theorem update_flow {α : Type} (g : Flow → α) (k : SessionKey) (a : α) (id : InterfaceId) (f : Flow) :
    (if f.on id = k then a else g f) = if id = k.interface then Function.update g k.flow a f else g f := by
  simp only [Flow.on_eq_iff, Function.update_apply]
  by_cases hid : id = k.interface <;> simp [hid]

theorem Core.view_openTcp (hs : c.slot slot.id = some slot) {key : SessionKey}
    (hid : key.interface = slot.id) (t : S.Tcp) (id : InterfaceId) :
    (c.openTcp slot key t).view id =
      if id = slot.id then (c.view id).openTcp slot key.flow t else c.view id := by
  have hslot := Core.slot_write ((slot.withPool slot.tcpPool.tail).withSocket (.tcp t)) hs rfl id
  have htcp : ∀ f : Flow, (c.openTcp slot key t).manager.tcp.lookup (f.on id) = _ :=
    fun f => (lookup_insert' c.manager.tcp key _ (f.on id)).trans
      (update_flow (fun f => c.manager.tcp.lookup (f.on id)) key _ id f)
  rw [hid] at htcp
  by_cases h : id = slot.id
  · rw [if_pos h]
    exact InterfaceView.ext (hslot.trans (if_pos h)) (funext fun f => (htcp f).trans (if_pos h)) rfl rfl
  · rw [if_neg h]
    exact InterfaceView.ext (hslot.trans (if_neg h)) (funext fun f => (htcp f).trans (if_neg h)) rfl rfl

/-- A new queue leaves the queues of the entries alone. -/
theorem Core.Registered.udpView_append (hr : c.Registered streams sessions) {k : SessionKey} {e : UdpEntry}
    (he : c.manager.udp.lookup k = some e) (c' : Core S) (hq : c'.queues = c.queues ++ [UdpQueue.new]) :
    c'.udpView e = c.udpView e := by
  have hopen : (c.queues.map (·.closed))[e.queue]? = some false := hr.udp.isOpen he
  have hlt := (List.getElem?_eq_some_iff.mp hopen).1
  rw [List.length_map] at hlt
  unfold udpView
  rw [hq, List.getElem?_append_left hlt]

/-- A session is opened on a slot whose socket is there. -/
theorem Core.view_openUdp (c' : Core S) {slot' : InterfaceSlot S} {key : SessionKey} {h : SocketHandle}
    {n : ℕ} {now : Instant} (hr : c.Registered streams sessions)
    (hslot : ∀ id, c'.slot id = if id = key.interface then some slot' else c.slot id)
    (htcp : c'.manager.tcp = c.manager.tcp)
    (hudp : c'.manager.udp = c.manager.udp.insert key ⟨h, c.queues.length, now⟩)
    (hshared : ∀ d, c'.manager.udpDstSockets.lookup d =
      if d = dstOf key then some (h, n) else c.manager.udpDstSockets.lookup d)
    (hqueues : c'.queues = c.queues ++ [UdpQueue.new]) (id : InterfaceId) :
    c'.view id = if id = key.interface then (c.view id).openUdp slot' key.flow h n now else c.view id := by
  have hview : ∀ f : Flow, (c'.manager.udp.lookup (f.on id)).map c'.udpView =
      if f.on id = key then some ⟨h, now, some .new⟩ else (c.manager.udp.lookup (f.on id)).map c.udpView := by
    intro f
    rw [hudp, lookup_insert']
    split
    · simp [udpView, hqueues]
    · cases he : c.manager.udp.lookup (f.on id) with
      | none => rfl
      | some e => exact congrArg some (hr.udpView_append he c' hqueues)
  have hview' : ∀ f : Flow, (c'.manager.udp.lookup (f.on id)).map c'.udpView = _ := fun f =>
    (hview f).trans (update_flow (fun f => (c.manager.udp.lookup (f.on id)).map c.udpView) key _ id f)
  have htcp' : (c'.view id).tcp = (c.view id).tcp := by
    unfold view
    rw [htcp]
  by_cases hid : id = key.interface
  · rw [if_pos hid]
    refine InterfaceView.ext ((hslot id).trans (if_pos hid)) htcp'
      (funext fun f => (hview' f).trans (if_pos hid)) (funext fun ep => ?_)
    show c'.manager.udpDstSockets.lookup (id, ep) = Function.update (c.view id).shared key.dst _ ep
    rw [hshared, Function.update_apply]
    simp [dstOf, hid, view]
  · rw [if_neg hid]
    refine InterfaceView.ext ((hslot id).trans (if_neg hid)) htcp'
      (funext fun f => (hview' f).trans (if_neg hid)) (funext fun ep => ?_)
    show c'.manager.udpDstSockets.lookup (id, ep) = _
    rw [hshared]
    simp [dstOf, hid, view]

theorem Core.view_openUdpNew (hr : c.Registered streams sessions) (hs : c.slot slot.id = some slot)
    {key : SessionKey} (hid : key.interface = slot.id) (u : S.Udp) (now : Instant) (id : InterfaceId) :
    (c.openUdpNew slot key u now).view id = if id = slot.id then
      (c.view id).openUdp (slot.withSocket (.udp u)) key.flow (S.freeIndex slot.sockets) 1 now
      else c.view id := by
  rw [← hid]
  refine Core.view_openUdp (c.openUdpNew slot key u now) hr (fun id' => ?_) rfl rfl
    (lookup_insert' _ _ _) rfl id
  rw [hid]
  exact Core.slot_write (slot.withSocket (.udp u)) hs rfl id'

theorem Core.view_joinUdp (hr : c.Registered streams sessions) (hs : c.slot slot.id = some slot)
    {key : SessionKey} (hid : key.interface = slot.id) {h : SocketHandle} {n : ℕ}
    (hn : c.manager.udpDstSockets.lookup (dstOf key) = some (h, n)) (now : Instant) (id : InterfaceId) :
    (c.joinUdp key h n now).view id = if id = slot.id then
      (c.view id).openUdp slot key.flow h (n + 1) now else c.view id := by
  rw [← hid]
  refine Core.view_openUdp (c.joinUdp key h n now) hr (fun id' => ?_) rfl rfl (lookup_replace hn _) rfl id
  show c.slot id' = _
  split
  · next h => rw [h, hid, hs]
  · rfl

end Writes

/-! ### Nothing is refused -/

namespace Core

/-- A packet is not refused: if it starts a flow, no cap is reached and the budget allows
for its socket. -/
def Roomy (c : Core S) (i : ℕ) (pkt : Bytes) : Prop :=
  match parseL4 S pkt, c.slots[i]? with
  | some (src, dst, .tcp true), some slot =>
    (c.manager.tcp.lookup ⟨slot.id, .tcp, src, dst⟩).isSome ∨
      len c.manager.tcp < c.config.tcpMaxConnections ∧ c.Affords (2 * slot.tcpBufferSize)
  | some (src, dst, .udp), some slot =>
    (c.manager.udp.lookup ⟨slot.id, .udp, src, dst⟩).isSome ∨
      len c.manager.udp < c.config.udpMaxSessions ∧
        ((c.manager.udpDstSockets.lookup (slot.id, dst)).isSome ∨ c.Affords (c.udpCharge slot))
  | _, _ => True

instance (c : Core S) (i : ℕ) (pkt : Bytes) : Decidable (c.Roomy i pkt) := by
  unfold Roomy
  split <;> infer_instance

end Core

/-- None of the packets is refused as the pre-pass comes to it. -/
def PacketsRoomy (now : Instant) (i : ℕ) : Core S × List Session → List Bytes → Prop
  | _, [] => True
  | st, pkt :: pkts => st.1.Roomy i pkt ∧
      ∀ st' ∈ (admitPacket i now st pkt).result.toOption, PacketsRoomy now i st' pkts

instance (now : Instant) (i : ℕ) : ∀ (st : Core S × List Session) (pkts : List Bytes),
    Decidable (PacketsRoomy now i st pkts)
  | _, [] => inferInstanceAs (Decidable True)
  | st, pkt :: pkts =>
    have : ∀ st', Decidable (PacketsRoomy now i st' pkts) := fun st' => instDecidablePacketsRoomy now i st' pkts
    inferInstanceAs (Decidable (st.1.Roomy i pkt ∧ ∀ st' ∈ (admitPacket i now st pkt).result.toOption, _))

/-- None of the packets of the slots is refused. -/
def SlotsRoomy (now : Instant) : Core S × List Session → List ℕ → Prop
  | _, [] => True
  | st, i :: is => PacketsRoomy now i (st.1.setIngress i fun _ => [], st.2) (st.1.ingress i) ∧
      ∀ st' ∈ (prePassSlot now st i).result.toOption, SlotsRoomy now st' is

instance (now : Instant) : ∀ (st : Core S × List Session) (is : List ℕ), Decidable (SlotsRoomy now st is)
  | _, [] => inferInstanceAs (Decidable True)
  | st, i :: is =>
    have : ∀ st', Decidable (SlotsRoomy now st' is) := fun st' => instDecidableSlotsRoomy now st' is
    inferInstanceAs (Decidable (_ ∧ ∀ st' ∈ (prePassSlot now st i).result.toOption, _))

/-- No limit is reached in the pre-pass: no new flow is refused. -/
def Core.Unlimited (c : Core S) (now : Instant) : Prop := SlotsRoomy now (c, []) (List.range c.slots.length)

instance (c : Core S) (now : Instant) : Decidable (c.Unlimited now) :=
  inferInstanceAs (Decidable (SlotsRoomy now (c, []) _))

section Admission

variable {c : Core S} {i : ℕ} {slot : InterfaceSlot S} {now : Instant} {exact : Prop}
  {streams : List WayTcpStream} {sessions : List WayUdpSession}

/-- A packet that finds its flow, or that the pre-pass does not look into. -/
theorem observed_same {pkt : Bytes} {acc : List Session}
    (hadm : InterfaceView.admitPacket c.config now (observed (c, acc) slot.id) pkt = observed (c, acc) slot.id)
    (id : InterfaceId) : observed (c, acc) id =
      if id = slot.id then InterfaceView.admitPacket c.config now (observed (c, acc) id) pkt
      else observed (c, acc) id := by
  split
  · next hid =>
    subst hid
    exact hadm.symm
  · rfl

/-- A SYN. -/
theorem admitSyn_observed (hr : c.Registered streams sessions) (hi : c.slots[i]? = some slot)
    {pkt : Bytes} {src dst : IpEndpoint} (hp : parseL4 S pkt = some (src, dst, .tcp true))
    (hroom : c.Roomy i pkt) (acc : List Session) :
    Ok (Call.Good exact) (admitPacket i now (c, acc) pkt) fun st' => ∀ id, observed st' id =
      if id = slot.id then InterfaceView.admitPacket c.config now (observed (c, acc) id) pkt
      else observed (c, acc) id := by
  have hn := hr.shaped.ids
  have hs := Core.slot_of_getElem? hn hi
  have hview : (c.view slot.id).slot = some slot := hs
  simp only [Core.Roomy, hp, hi] at hroom
  simp only [admitPacket, hp, hi]
  have hisSome : ((c.view slot.id).tcp ⟨.tcp, src, dst⟩).isSome =
      (c.manager.tcp.lookup ⟨slot.id, .tcp, src, dst⟩).isSome := rfl
  rw [← hisSome] at hroom ⊢
  by_cases hold : ((c.view slot.id).tcp ⟨.tcp, src, dst⟩).isSome
  · rw [if_pos hold]
    exact ok_pure (observed_same (by simp only [InterfaceView.admitPacket, hp, observed, hview, hold, if_true]))
  · obtain ⟨hcap, hbudget⟩ := hroom.resolve_left hold
    rw [if_neg hold, if_neg (Nat.not_le.mpr hcap)]
    refine (allocTcp_exact hn hi).bind fun c' hc' => ok_pure fun id => ?_
    obtain ⟨-, hc'⟩ := hc'.resolve_left fun h => h.1 hbudget
    -- the socket listens, or is dropped
    split at hc'
    · next err hl =>
      rw [hc', observed, Core.view_setSlot (slot.withPool slot.tcpPool.tail) hs rfl]
      split
      · next hid =>
        subst hid
        simp only [InterfaceView.admitPacket, hp, observed, hview, hold, hl]
        rfl
      · rfl
    · next t hl =>
      rw [hc', observed, Core.view_openTcp hs rfl]
      split
      · next hid =>
        subst hid
        simp only [InterfaceView.admitPacket, hp, observed, hview, hold, hl]
        rfl
      · rfl

/-- A datagram. -/
theorem admitDatagram_observed (hr : c.Registered streams sessions) (hi : c.slots[i]? = some slot)
    {pkt : Bytes} {src dst : IpEndpoint} (hp : parseL4 S pkt = some (src, dst, .udp))
    (hroom : c.Roomy i pkt) (acc : List Session) :
    Ok (Call.Good exact) (admitPacket i now (c, acc) pkt) fun st' => ∀ id, observed st' id =
      if id = slot.id then InterfaceView.admitPacket c.config now (observed (c, acc) id) pkt
      else observed (c, acc) id := by
  have hn := hr.shaped.ids
  have hs := Core.slot_of_getElem? hn hi
  have hview : (c.view slot.id).slot = some slot := hs
  simp only [Core.Roomy, hp, hi] at hroom
  simp only [admitPacket, hp, hi]
  have hisSome : ((c.view slot.id).udp ⟨.udp, src, dst⟩).isSome =
      (c.manager.udp.lookup ⟨slot.id, .udp, src, dst⟩).isSome := Option.isSome_map
  rw [← hisSome] at hroom ⊢
  by_cases hold : ((c.view slot.id).udp ⟨.udp, src, dst⟩).isSome
  · rw [if_pos hold]
    exact ok_pure (observed_same (by simp only [InterfaceView.admitPacket, hp, observed, hview, hold, if_true]))
  · obtain ⟨hcap, hbudget⟩ := hroom.resolve_left hold
    rw [if_neg hold, if_neg (Nat.not_le.mpr hcap)]
    have halloc := allocUdp_exact ⟨slot.id, .udp, src, dst⟩ now hn hi rfl
    cases hd : (c.view slot.id).shared dst with
    | some x =>
      obtain ⟨h, n⟩ := x
      have hd' : c.manager.udpDstSockets.lookup (dstOf ⟨slot.id, .udp, src, dst⟩) = some (h, n) := hd
      rw [hd'] at halloc
      rw [halloc]
      refine ok_pure fun id => ?_
      show (_, sessionsOn id (acc ++ [_])) = _
      rw [Core.view_joinUdp hr hs rfl hd', sessionsOn_append (show _ = slot.id from rfl)]
      split
      · next hid =>
        subst hid
        simp only [InterfaceView.admitPacket, hp, observed, hview, hold, hd]
        rfl
      · rfl
    | none =>
      have hd' : c.manager.udpDstSockets.lookup (dstOf ⟨slot.id, .udp, src, dst⟩) = none := hd
      have hbudget : c.Affords (c.udpCharge slot) := by
        refine hbudget.resolve_left fun hsome => ?_
        rw [show c.manager.udpDstSockets.lookup (slot.id, dst) = none from hd] at hsome
        cases hsome
      rw [hd'] at halloc
      obtain ⟨-, halloc⟩ := halloc.resolve_left fun h => h.1 hbudget
      -- the socket is bound, or given up
      split at halloc
      · next err hb =>
        rw [halloc]
        have hb : S.udpBind (S.udpNew (max c.config.udpBufferPackets 1)
          (max c.config.udpBufferBytes slot.mtu)) dst = .error err := hb
        refine ok_pure fun id => ?_
        show (c.view id, sessionsOn id (acc ++ [])) = _
        rw [List.append_nil]
        refine observed_same ?_ id
        simp only [InterfaceView.admitPacket, hp, observed, hview, hold, hd, hb]
        rfl
      · next u hb =>
        rw [halloc]
        have hb : S.udpBind (S.udpNew (max c.config.udpBufferPackets 1)
          (max c.config.udpBufferBytes slot.mtu)) dst = .ok u := hb
        refine ok_pure fun id => ?_
        show (_, sessionsOn id (acc ++ [_])) = _
        rw [Core.view_openUdpNew hr hs rfl, sessionsOn_append (show _ = slot.id from rfl)]
        split
        · next hid =>
          subst hid
          simp only [InterfaceView.admitPacket, hp, observed, hview, hold, hd, hb]
          rfl
        · rfl

/-- One packet. -/
theorem admitPacket_observed (hr : c.Registered streams sessions) (hi : c.slots[i]? = some slot)
    {pkt : Bytes} (hroom : c.Roomy i pkt) (acc : List Session) :
    Ok (Call.Good exact) (admitPacket i now (c, acc) pkt) fun st' => ∀ id, observed st' id =
      if id = slot.id then InterfaceView.admitPacket c.config now (observed (c, acc) id) pkt
      else observed (c, acc) id := by
  rcases hp : parseL4 S pkt with _ | ⟨src, dst, l4⟩
  · simp only [admitPacket, hp]
    exact ok_pure (observed_same (by simp only [InterfaceView.admitPacket, hp]))
  · cases l4 with
    | udp => exact admitDatagram_observed hr hi hp hroom acc
    | tcp syn =>
      cases syn with
      | true => exact admitSyn_observed hr hi hp hroom acc
      | false =>
        simp only [admitPacket, hp]
        exact ok_pure (observed_same (by simp only [InterfaceView.admitPacket, hp]))

/-- What a part of the pre-pass keeps of the core it started from. -/
structure Admitting (streams : List WayTcpStream) (sessions : List WayUdpSession)
    (st st' : Core S × List Session) : Prop where
  registered : st'.1.Registered streams (sessions ++ st'.2.filterMap Session.session?)
  ids : st'.1.ids = st.1.ids
  config : st'.1.config = st.1.config

theorem Core.exists_getElem? {id : InterfaceId} (h : c.ids[i]? = some id) :
    ∃ slot, c.slots[i]? = some slot ∧ slot.id = id := by
  unfold Core.ids at h
  rw [List.getElem?_map] at h
  exact Option.map_eq_some_iff.mp h

/-- The packets of one slot. -/
theorem packets_observed (hS : S.Lawful) {id₀ : InterfaceId} :
    ∀ (pkts : List Bytes) (st : Core S × List Session),
    st.1.Registered streams (sessions ++ st.2.filterMap Session.session?) → st.1.ids[i]? = some id₀ →
    PacketsRoomy now i st pkts →
    Ok (Call.Good exact) (pkts.foldlM (admitPacket i now) st) fun st' => Admitting streams sessions st st' ∧
      ∀ id, observed st' id = if id = id₀ then
        pkts.foldl (InterfaceView.admitPacket st.1.config now) (observed st id) else observed st id
  | [], st, hr, _, _ => ok_pure ⟨⟨hr, rfl, rfl⟩, fun id => (ite_self _).symm⟩
  | pkt :: pkts, (c, acc), hr, hid, ⟨hroom, hrest⟩ => by
    obtain ⟨slot, hi, rfl⟩ := Core.exists_getElem? hid
    rw [List.foldlM_cons]
    have hadmits : Ok (Call.Good exact) (admitPacket i now (c, acc) pkt) fun st' =>
        (st' = (c, acc) ∨ Admit now (fun _ _ => True) (c, acc) st') ∧ st'.1.feeds = c.feeds :=
      admit_ok hr.shaped.ids (fun _ _ => trivial) acc
    refine ((admitPacket_observed hr hi hroom acc).and hadmits).self.bind ?_
    rintro st' ⟨⟨hobs, hadm, hfeeds⟩, hres⟩
    have hr' : st'.1.Registered streams (sessions ++ st'.2.filterMap Session.session?) := by
      rcases hadm with rfl | hadm
      · exact hr
      · exact hadm.registered hS hr
    have hconfig : st'.1.config = c.config := by
      rcases hadm with rfl | hadm
      · rfl
      · exact hadm.config
    have hids : st'.1.ids = c.ids := Core.ids_of_feeds hfeeds
    refine (packets_observed hS pkts st' hr' (hids ▸ hid) (hrest st' (toOption_eq_some.mpr hres))).mono ?_
    rintro st'' ⟨hkeep, hobs'⟩
    refine ⟨⟨hkeep.registered, hkeep.ids.trans hids, hkeep.config.trans hconfig⟩, fun id => ?_⟩
    rw [hobs', hobs, hconfig]
    split <;> rfl

theorem Core.setIngress_eq (hn : c.ids.Nodup) (hi : c.slots[i]? = some slot) (f : List Bytes → List Bytes) :
    c.setIngress i f =
      c.setSlot { slot with device := { slot.device with ingress := f slot.device.ingress } } := by
  unfold Core.setIngress
  simp only [hi]
  exact Core.setSlotAt_eq hn hi
    { slot with device := { slot.device with ingress := f slot.device.ingress } } rfl

/-- The ingress queue is taken out or put back. -/
theorem observed_setIngress (hn : c.ids.Nodup) (hi : c.slots[i]? = some slot) (f : List Bytes → List Bytes)
    (acc : List Session) (id : InterfaceId) : observed (c.setIngress i f, acc) id =
      if id = slot.id then ((c.view id).setIngress f, sessionsOn id acc) else observed (c, acc) id := by
  have hs := Core.slot_of_getElem? hn hi
  rw [Core.setIngress_eq hn hi, observed, Core.view_setSlot
    { slot with device := { slot.device with ingress := f slot.device.ingress } } hs rfl]
  split
  · next hid =>
    subst hid
    refine Prod.ext (InterfaceView.ext ?_ rfl rfl rfl) rfl
    show some _ = (c.slot slot.id).map _
    rw [hs]
    rfl
  · rfl

theorem Admitting.setIngress (hS : S.Lawful) {st : Core S × List Session}
    (hr : st.1.Registered streams (sessions ++ st.2.filterMap Session.session?)) (i : ℕ)
    (f : List Bytes → List Bytes) : Admitting streams sessions st (st.1.setIngress i f, st.2) := by
  cases hi : st.1.slots[i]? with
  | none =>
    have hset : st.1.setIngress i f = st.1 := by simp [Core.setIngress, hi]
    exact ⟨by rw [hset]; exact hr, by rw [hset], by rw [hset]⟩
  | some slot =>
    have hadm : Admit 0 (fun _ _ => True) (st.1, st.2) (st.1.setIngress i f, st.2) :=
      admit_setIngress hr.shaped.ids hi f st.2
    refine ⟨hadm.registered hS hr, ?_, hadm.config⟩
    have hs := Core.slot_of_getElem? hr.shaped.ids hi
    rw [Core.setIngress_eq hr.shaped.ids hi]
    exact Core.map_setSlot InterfaceSlot.id
      { slot with device := { slot.device with ingress := f slot.device.ingress } } hs rfl

theorem Admitting.trans {st st' st'' : Core S × List Session} (h : Admitting streams sessions st st')
    (h' : Admitting streams sessions st' st'') : Admitting streams sessions st st'' :=
  ⟨h'.registered, h'.ids.trans h.ids, h'.config.trans h.config⟩

/-- One slot. -/
theorem prePassSlot_observed (hS : S.Lawful) {id₀ : InterfaceId} {st : Core S × List Session}
    (hr : st.1.Registered streams (sessions ++ st.2.filterMap Session.session?))
    (hid : st.1.ids[i]? = some id₀)
    (hroom : PacketsRoomy now i (st.1.setIngress i fun _ => [], st.2) (st.1.ingress i)) :
    Ok (Call.Good exact) (prePassSlot now st i) fun st' => Admitting streams sessions st st' ∧
      ∀ id, observed st' id = if id = id₀ then InterfaceView.prePass st.1.config now (observed st id)
        else observed st id := by
  obtain ⟨slot, hi, rfl⟩ := Core.exists_getElem? hid
  have hs := Core.slot_of_getElem? hr.shaped.ids hi
  have hing : (observed st slot.id).1.ingress = st.1.ingress i := by
    simp [observed, InterfaceView.ingress, Core.view, hs, Core.ingress, hi]
  have hempty := Admitting.setIngress hS hr i fun _ => []
  unfold prePassSlot
  refine (packets_observed hS _ _ hempty.registered (hempty.ids ▸ hid) hroom).bind ?_
  rintro ⟨c', acc'⟩ ⟨hkeep, hobs⟩
  obtain ⟨slot', hi', hid'⟩ := Core.exists_getElem? ((hempty.trans hkeep).ids ▸ hid)
  have hback := Admitting.setIngress hS hkeep.registered i (· ++ st.1.ingress i)
  refine ok_pure ⟨(hempty.trans hkeep).trans hback, fun id => ?_⟩
  rw [observed_setIngress hkeep.registered.shaped.ids hi', hid']
  have hstart := observed_setIngress hr.shaped.ids hi (fun _ => []) st.2 id
  split
  · next h =>
    subst h
    rw [if_pos rfl] at hstart
    have hrun := hobs slot.id
    rw [if_pos rfl, hstart, hempty.config] at hrun
    simp only [InterfaceView.prePass, hing]
    show ((observed (c', acc') slot.id).1.setIngress _, (observed (c', acc') slot.id).2) = _
    rw [hrun]
    rfl
  · next h =>
    rw [if_neg h] at hstart
    rw [hobs, if_neg h, hstart]

/-- The slots still to be visited. -/
theorem slots_observed (hS : S.Lawful) : ∀ (is : List ℕ) (st : Core S × List Session),
    st.1.Registered streams (sessions ++ st.2.filterMap Session.session?) → is.Nodup →
    (∀ i ∈ is, i < st.1.ids.length) → SlotsRoomy now st is →
    Ok (Call.Good exact) (is.foldlM (prePassSlot now) st) fun st' => Admitting streams sessions st st' ∧
      ∀ id, observed st' id = if ∃ i ∈ is, st.1.ids[i]? = some id then
        InterfaceView.prePass st.1.config now (observed st id) else observed st id
  | [], st, hr, _, _, _ => ok_pure ⟨⟨hr, rfl, rfl⟩, fun id => by simp⟩
  | i :: is, st, hr, hnodup, hlt, ⟨hroom, hrest⟩ => by
    rw [List.nodup_cons] at hnodup
    have hid : st.1.ids[i]? = some _ := List.getElem?_eq_getElem (hlt i List.mem_cons_self)
    rw [List.foldlM_cons]
    refine (prePassSlot_observed hS hr hid hroom).self.bind ?_
    rintro st' ⟨⟨hkeep, hobs⟩, hres⟩
    refine (slots_observed hS is st' hkeep.registered hnodup.2 (fun j hj => ?_)
      (hrest st' (toOption_eq_some.mpr hres))).mono ?_
    · rw [hkeep.ids]
      exact hlt j (List.mem_cons_of_mem _ hj)
    rintro st'' ⟨hkeep', hobs'⟩
    refine ⟨hkeep.trans hkeep', fun id => ?_⟩
    rw [hobs', hobs, hkeep.ids, hkeep.config]
    by_cases hfirst : st.1.ids[i]? = some id
    · -- the slot just visited is not visited again
      have hlast : ¬∃ j ∈ is, st.1.ids[j]? = some id := by
        rintro ⟨j, hj, hjd⟩
        have hij := (List.getElem?_inj (hlt i List.mem_cons_self) hr.shaped.ids).mp (hfirst.trans hjd.symm)
        exact hnodup.1 (hij ▸ hj)
      rw [if_neg hlast, if_pos (Option.some.inj (hfirst.symm.trans hid)),
        if_pos ⟨i, List.mem_cons_self, hfirst⟩]
    · have hne : id ≠ _ := fun h => hfirst (hid.trans (congrArg some h.symm))
      simp only [if_neg hne, List.exists_mem_cons_iff, hfirst, false_or]

/-- **The pre-pass, interface by interface**: if nothing is refused, each interface is served
as if it were alone. -/
theorem prePass_observed (hS : S.Lawful) (hr : c.Registered streams sessions) (hroom : c.Unlimited now) :
    Ok (Call.Good exact) (prePass c now) fun st => Admitting streams sessions (c, []) st ∧
      ∀ id, observed st id = InterfaceView.prePass c.config now (c.view id, []) := by
  have hr' : c.Registered streams (sessions ++ ([] : List Session).filterMap Session.session?) := by
    simpa using hr
  refine (slots_observed hS (List.range c.slots.length) (c, []) hr' List.nodup_range ?_ hroom).mono ?_
  · intro i hi
    rw [Core.ids, List.length_map]
    exact List.mem_range.mp hi
  · rintro st ⟨hkeep, hobs⟩
    refine ⟨hkeep, fun id => ?_⟩
    rw [hobs]
    split
    · rfl
    · next h =>
      -- an interface that is not there
      have hnone : c.slot id = none := by
        rw [Option.eq_none_iff_forall_ne_some]
        intro slot hs
        obtain ⟨i, hi⟩ := List.mem_iff_getElem?.mp (Core.exists_slot.mp ⟨slot, hs⟩)
        have hlt := (List.getElem?_eq_some_iff.mp hi).1
        rw [Core.ids, List.length_map] at hlt
        exact h ⟨i, List.mem_range.mpr hlt, hi⟩
      exact (InterfaceView.prePass_of_none c.config now hnone).symm

end Admission

end WayNetstack

import WayNetstack.Registry.Effects

/-!
# What a poll does

The events of a poll change the sockets of a slot and its device, one at a time. A
poll never changes which handles name a socket of which protocol, so it keeps the
core in order; and what each lawful event keeps, a lawful poll keeps
(`InterfaceSlot.Obeys.keeps`).
-/

namespace WayNetstack

open Lib

variable {S : Smoltcp}

/-! ### One event -/

namespace InterfaceSlot

@[simp] theorem dims_apply (slot : InterfaceSlot S) (e : PollEvent S) :
    (slot.apply e).dims = slot.dims := by
  cases e with
  | receive taken =>
    cases taken with
    | none => rfl
    | some hs =>
      simp only [apply, swapSocket]
      split <;> rfl
  | egress h s =>
    simp only [apply, swapSocket]
    split <;> rfl
  | transmit data => rfl
  | internal iface => rfl

@[simp] theorem id_apply (slot : InterfaceSlot S) (e : PollEvent S) : (slot.apply e).id = slot.id :=
  congrArg Prod.fst (dims_apply slot e)

theorem protoAt_swapSocket (slot : InterfaceSlot S) (h : SocketHandle) (s : S.Socket) :
    (slot.swapSocket h s).protoAt = slot.protoAt := by
  unfold swapSocket
  split
  · next hp =>
    obtain ⟨s₀, hget, hs₀⟩ := Option.map_eq_some_iff.mp hp
    funext hd
    unfold protoAt putSocket
    simp only [Slab.get?_put hget]
    split
    · next heq => rw [heq, hget, Option.map_some, Option.map_some, hs₀]
    · rfl
  · rfl

/-- A poll never changes which handles name a socket of which protocol. -/
theorem protoAt_apply (slot : InterfaceSlot S) (e : PollEvent S) :
    (slot.apply e).protoAt = slot.protoAt := by
  cases e with
  | receive taken =>
    cases taken with
    | none => rfl
    | some hs => exact protoAt_swapSocket slot.popIngress hs.1 hs.2
  | egress h s => exact protoAt_swapSocket slot h s
  | transmit data => rfl
  | internal iface => rfl

/-- An event leaves the sockets alone or replaces one by the one it names. -/
theorem sockets_apply (slot : InterfaceSlot S) (e : PollEvent S) :
    (slot.apply e).sockets = slot.sockets ∨
      ∃ h s s', e.touches = some (h, s') ∧ slot.sockets.get? h = some s ∧ s'.proto = s.proto ∧
        (slot.apply e).sockets = slot.sockets.put h s' := by
  have key : ∀ (slot : InterfaceSlot S) (h : SocketHandle) (s' : S.Socket),
      (slot.swapSocket h s').sockets = slot.sockets ∨
        ∃ s, slot.sockets.get? h = some s ∧ s'.proto = s.proto ∧
          (slot.swapSocket h s').sockets = slot.sockets.put h s' := by
    intro slot h s'
    unfold swapSocket
    split
    · next hp =>
      obtain ⟨s, hget, hs⟩ := Option.map_eq_some_iff.mp hp
      exact .inr ⟨s, hget, hs.symm, rfl⟩
    · exact .inl rfl
  cases e with
  | receive taken =>
    cases taken with
    | none => exact .inl rfl
    | some x =>
      rcases key slot.popIngress x.1 x.2 with heq | ⟨s, hrest⟩
      · exact .inl heq
      · exact .inr ⟨x.1, s, x.2, rfl, hrest⟩
  | egress h s' =>
    rcases key slot h s' with heq | ⟨s, hrest⟩
    · exact .inl heq
    · exact .inr ⟨h, s, s', rfl, hrest⟩
  | transmit data => exact .inl rfl
  | internal iface => exact .inl rfl

@[simp] theorem tcpPool_apply (slot : InterfaceSlot S) (e : PollEvent S) :
    (slot.apply e).tcpPool = slot.tcpPool := by
  cases e with
  | receive taken =>
    cases taken with
    | none => rfl
    | some hs =>
      simp only [apply, swapSocket]
      split <;> rfl
  | egress h s =>
    simp only [apply, swapSocket]
    split <;> rfl
  | transmit data => rfl
  | internal iface => rfl

@[simp] theorem tcpPoolMax_apply (slot : InterfaceSlot S) (e : PollEvent S) :
    (slot.apply e).tcpPoolMax = slot.tcpPoolMax := by
  cases e with
  | receive taken =>
    cases taken with
    | none => rfl
    | some hs =>
      simp only [apply, swapSocket]
      split <;> rfl
  | egress h s =>
    simp only [apply, swapSocket]
    split <;> rfl
  | transmit data => rfl
  | internal iface => rfl

/-- An event leaves a TCP socket alone or replaces it by the one it names. -/
theorem tcpAt_apply {slot : InterfaceSlot S} {e : PollEvent S} {h : SocketHandle} {t' : S.Tcp}
    (ht' : (slot.apply e).tcpAt h = some t') : slot.tcpAt h = some t' ∨
      ∃ t, slot.tcpAt h = some t ∧ e.touches = some (h, .tcp t') := by
  have hnew : (slot.apply e).sockets.get? h = some (.tcp t') := by
    obtain ⟨s, hs, hst⟩ := Option.bind_eq_some_iff.mp ht'
    cases s with
    | tcp t => rw [hs, ← Option.some.inj hst]
    | udp u => cases hst
  rcases sockets_apply slot e with heq | ⟨h', s, s', htouch, hget, hproto, heq⟩
  · exact .inl (by rw [tcpAt, ← heq, hnew]; rfl)
  · rw [heq, Slab.get?_put hget] at hnew
    split at hnew
    · next hh =>
      subst hh
      cases hnew
      cases s with
      | tcp t => exact .inr ⟨t, by rw [tcpAt, hget]; rfl, htouch⟩
      | udp u => cases hproto
    · exact .inl (by rw [tcpAt, hnew]; rfl)

/-! ### Whole polls -/

theorem poll_cons (slot : InterfaceSlot S) (e : PollEvent S) (es : List (PollEvent S)) :
    slot.poll (e :: es) = (slot.apply e).poll es := rfl

theorem dims_poll (es : List (PollEvent S)) (slot : InterfaceSlot S) :
    (slot.poll es).dims = slot.dims := by
  induction es generalizing slot with
  | nil => rfl
  | cons e es ih => rw [poll_cons, ih, dims_apply]

theorem id_poll (es : List (PollEvent S)) (slot : InterfaceSlot S) : (slot.poll es).id = slot.id :=
  congrArg Prod.fst (dims_poll es slot)

theorem protoAt_poll (es : List (PollEvent S)) (slot : InterfaceSlot S) :
    (slot.poll es).protoAt = slot.protoAt := by
  induction es generalizing slot with
  | nil => rfl
  | cons e es ih => rw [poll_cons, ih, protoAt_apply]

variable {slot : InterfaceSlot S} {law : InterfaceSlot S → PollEvent S → Prop}

/-- What every lawful event keeps, a lawful poll keeps. -/
theorem Obeys.keeps {P : InterfaceSlot S → Prop}
    (keep : ∀ slot e, law slot e → P slot → P (slot.apply e)) {es : List (PollEvent S)}
    (h : slot.Obeys law es) (h0 : P slot) : P (slot.poll es) := by
  induction es generalizing slot with
  | nil => exact h0
  | cons e es ih => exact ih h.2 (keep slot e h.1 h0)

theorem Obeys.and {law' : InterfaceSlot S → PollEvent S → Prop} {es : List (PollEvent S)}
    (h : slot.Obeys law es) (h' : slot.Obeys law' es) :
    slot.Obeys (fun slot e => law slot e ∧ law' slot e) es := by
  induction es generalizing slot with
  | nil => trivial
  | cons e es ih => exact ⟨⟨h.1, h'.1⟩, ih h.2 h'.2⟩

end InterfaceSlot

section Polls

variable {c : Core S} {streams : List WayTcpStream} {sessions : List WayUdpSession}

theorem Core.slot_pollSlots (c : Core S) (polls : InterfaceId → List (PollEvent S)) (id : InterfaceId) :
    (c.pollSlots polls).slot id = (c.slot id).map fun slot => slot.poll (polls slot.id) :=
  Core.slot_mapSlots (c := c) rfl (fun slot => InterfaceSlot.id_poll _ slot) id

theorem Core.socketAt_pollSlots {c : Core S} {polls : InterfaceId → List (PollEvent S)}
    {slot : InterfaceSlot S} {i : InterfaceId} (hs : c.slot i = some slot) (h : SocketHandle) :
    (c.pollSlots polls).socketAt i h = (slot.poll (polls i)).sockets.get? h := by
  have hi := id_of_slot hs
  simp [socketAt, slot_pollSlots, hs, hi]

theorem Core.protoAt_eq (c : Core S) (id : InterfaceId) (h : SocketHandle) :
    c.protoAt id h = (c.slot id).bind fun slot => slot.protoAt h := by
  unfold Core.protoAt Core.socketAt
  cases c.slot id <;> rfl

/-- The accounts do not notice a poll. -/
theorem Core.Registered.evolves_poll (hr : c.Registered streams sessions)
    (polls : InterfaceId → List (PollEvent S)) :
    World.Evolves ⟨c, streams, sessions⟩ ⟨c.pollSlots polls, streams, sessions⟩ := by
  have hp : (c.pollSlots polls).protoAt = c.protoAt := by
    funext i h
    rw [Core.protoAt_eq, Core.protoAt_eq, Core.slot_pollSlots]
    cases c.slot i with
    | none => rfl
    | some slot => exact congrFun (InterfaceSlot.protoAt_poll _ slot) h
  refine Core.Shaped.evolves (hr.shaped.congr ?_ rfl) hp rfl rfl
  unfold Core.pollSlots
  rw [List.map_map]
  exact List.map_congr_left fun slot _ => InterfaceSlot.dims_poll _ slot

theorem Core.Registered.pollSlots (hr : c.Registered streams sessions)
    (polls : InterfaceId → List (PollEvent S)) : (c.pollSlots polls).Registered streams sessions :=
  (hr.evolves_poll polls).registered hr

end Polls

end WayNetstack

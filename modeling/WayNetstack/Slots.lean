import WayNetstack.Runner.PostPass
import WayNetstack.Lib.Keyed

/-!
# Reading and writing slots

A slot is addressed by its place in `core.slots` or by its identifier. When the
identifiers are distinct the two agree (`setSlotAt_eq`), and a slot written back is
seen by a later search for its identifier and by no other (`slot_setSlot`).

`socketAt` is the socket a handle of an interface names: what a core amounts to as
far as its sockets are concerned.
-/

namespace WayNetstack

open Lib

variable {S : Smoltcp}

namespace Core

/-- The identifiers of the interfaces, in order. -/
def ids (c : Core S) : List InterfaceId := c.slots.map (·.id)

/-- The socket that handle `h` of interface `id` names. -/
def socketAt (c : Core S) (id : InterfaceId) (h : SocketHandle) : Option S.Socket :=
  (c.slot id).bind fun slot => slot.sockets.get? h

/-- The protocol of that socket. -/
def protoAt (c : Core S) (id : InterfaceId) (h : SocketHandle) : Option Proto :=
  (c.socketAt id h).map Socket.proto

theorem id_of_slot {c : Core S} {id : InterfaceId} {slot : InterfaceSlot S}
    (h : c.slot id = some slot) : slot.id = id := by
  simpa using List.find?_some h

theorem mem_of_slot {c : Core S} {id : InterfaceId} {slot : InterfaceSlot S}
    (h : c.slot id = some slot) : slot ∈ c.slots :=
  List.mem_of_find?_eq_some h

/-- There is a slot for every identifier and for no other. -/
theorem exists_slot {c : Core S} {id : InterfaceId} : (∃ slot, c.slot id = some slot) ↔ id ∈ c.ids := by
  unfold ids
  rw [List.mem_map]
  constructor
  · rintro ⟨slot, hs⟩
    exact ⟨slot, mem_of_slot hs, id_of_slot hs⟩
  · rintro ⟨slot, hmem, hid⟩
    exact Option.isSome_iff_exists.mp (List.find?_isSome.mpr ⟨slot, hmem, decide_eq_true hid⟩)

/-- A slot written back is found under its identifier, and nothing else changes. -/
theorem slot_setSlot {c : Core S} {slot slot' : InterfaceSlot S} (h : c.slot slot'.id = some slot)
    (id : InterfaceId) : (c.setSlot slot').slot id = if id = slot'.id then some slot' else c.slot id :=
  find?_set_findIdx InterfaceSlot.id slot' c.slots id ⟨slot, mem_of_slot h, id_of_slot h⟩

/-- What the handles name after a slot is written back. -/
theorem socketAt_setSlot {c : Core S} {slot slot' : InterfaceSlot S}
    (h : c.slot slot'.id = some slot) (id : InterfaceId) (hd : SocketHandle) :
    (c.setSlot slot').socketAt id hd =
      if id = slot'.id then slot'.sockets.get? hd else c.socketAt id hd := by
  unfold socketAt
  rw [slot_setSlot h]
  split <;> rfl

/-- A core is seen through its slots only. -/
theorem socketAt_congr {c c' : Core S} (h : c'.slots = c.slots) : c'.socketAt = c.socketAt := by
  funext id hd
  unfold socketAt Core.slot
  rw [h]

theorem socketAt_of_slot {c : Core S} {slot : InterfaceSlot S} (h : c.slot slot.id = some slot)
    (hd : SocketHandle) : c.socketAt slot.id hd = slot.sockets.get? hd := by
  unfold socketAt
  rw [h]
  rfl

/-- Writing a slot back keeps what both its versions have in common. -/
theorem map_setSlot {β : Type} (f : InterfaceSlot S → β) {c : Core S} {slot : InterfaceSlot S}
    (slot' : InterfaceSlot S) (h : c.slot slot'.id = some slot) (hf : f slot = f slot') :
    (c.setSlot slot').slots.map f = c.slots.map f := by
  refine map_set_findIdx InterfaceSlot.id f slot' c.slots fun b hb => ?_
  have hb : c.slot slot'.id = some b := hb
  rw [h, Option.some.injEq] at hb
  exact hb ▸ hf

/-- With distinct identifiers, the slot at a place is the one its identifier finds. -/
theorem slot_of_getElem? {c : Core S} (hn : c.ids.Nodup) {i : ℕ} {slot : InterfaceSlot S}
    (h : c.slots[i]? = some slot) : c.slot slot.id = some slot :=
  find?_of_getElem? InterfaceSlot.id hn h

theorem slot_of_mem {c : Core S} (hn : c.ids.Nodup) {slot : InterfaceSlot S} (h : slot ∈ c.slots) :
    c.slot slot.id = some slot := by
  obtain ⟨i, hi⟩ := List.mem_iff_getElem?.mp h
  exact slot_of_getElem? hn hi

/-- With distinct identifiers, writing a place is writing the identifier's slot. -/
theorem setSlotAt_eq {c : Core S} (hn : c.ids.Nodup) {i : ℕ} {slot : InterfaceSlot S}
    (h : c.slots[i]? = some slot) (slot' : InterfaceSlot S) (hid : slot'.id = slot.id) :
    c.setSlotAt i slot' = c.setSlot slot' := by
  unfold setSlotAt setSlot
  rw [hid, findIdx_of_getElem? InterfaceSlot.id hn h]

theorem slots_set {c : Core S} (hn : c.ids.Nodup) {i : ℕ} {slot : InterfaceSlot S}
    (h : c.slots[i]? = some slot) (slot' : InterfaceSlot S) (hid : slot'.id = slot.id) :
    c.slots.set i slot' = (c.setSlot slot').slots :=
  congrArg Core.slots (setSlotAt_eq hn h slot' hid)

/-- A slot of a core with one slot written back. -/
theorem mem_setSlot {c : Core S} {slot slot' : InterfaceSlot S} (h : slot ∈ (c.setSlot slot').slots) :
    slot ∈ c.slots ∨ slot = slot' :=
  List.mem_or_eq_of_mem_set h

/-- Only the slot of an interface contributes what is the interface's. -/
theorem flatMap_slots {β : Type} {c : Core S} (hn : c.ids.Nodup) {id : InterfaceId}
    {f : InterfaceSlot S → List β} (hf : ∀ slot, slot.id ≠ id → f slot = []) :
    c.slots.flatMap f = (c.slot id).elim [] f := by
  cases hs : c.slot id with
  | none =>
    refine List.flatMap_eq_nil_iff.mpr fun slot hslot => hf slot fun hid => ?_
    rw [← hid, slot_of_mem hn hslot] at hs
    cases hs
  | some slot =>
    refine flatMap_of_unique (List.Nodup.of_map _ hn) (mem_of_slot hs) fun slot' hslot' hne => hf slot' ?_
    rintro hid
    have hs' := slot_of_mem hn hslot'
    rw [hid, hs] at hs'
    exact hne (Option.some.inj hs').symm

section Sums

variable {M : Type*} [AddCommMonoid M]

/-- The total of `f` over the slots. -/
def sumSlots (f : InterfaceSlot S → M) (c : Core S) : M := (c.slots.map f).sum

theorem sumSlots_congr (f : InterfaceSlot S → M) {c c' : Core S} (hslots : c'.slots = c.slots) :
    c'.sumSlots f = c.sumSlots f := by
  unfold sumSlots
  rw [hslots]

/-- Writing a slot back changes a total by what the slot was and is. -/
theorem sumSlots_setSlot (f : InterfaceSlot S → M) {c c' : Core S} {slot : InterfaceSlot S}
    (hs : c.slot slot.id = some slot) (slot' : InterfaceSlot S) (hid : slot'.id = slot.id)
    (hc : c'.slots = (c.setSlot slot').slots) : c'.sumSlots f + f slot = c.sumSlots f + f slot' := by
  rw [← hid] at hs
  rw [sumSlots_congr f hc]
  exact sum_set_findIdx InterfaceSlot.id f slot' hs

end Sums

/-- A core whose slots are each changed in place, keeping their identifiers. -/
theorem slot_mapSlots {c c' : Core S} {f : InterfaceSlot S → InterfaceSlot S}
    (hc : c'.slots = c.slots.map f) (hf : ∀ slot, (f slot).id = slot.id) (id : InterfaceId) :
    c'.slot id = (c.slot id).map f := by
  unfold Core.slot
  rw [hc, List.find?_map]
  have hp : (fun s : InterfaceSlot S => decide (s.id = id)) ∘ f = fun s => decide (s.id = id) := by
    funext s
    simp [hf]
  rw [hp]

theorem slot_drainEgress (c : Core S) (id : InterfaceId) : c.drainEgress.1.slot id =
    (c.slot id).map fun slot => { slot with device := { slot.device with egress := [] } } :=
  slot_mapSlots (c := c) (f := fun slot => { slot with device := { slot.device with egress := [] } })
    rfl (fun _ => rfl) id

/-- Emptying the egress queues does not touch the sockets. -/
theorem socketAt_drainEgress (c : Core S) : c.drainEgress.1.socketAt = c.socketAt := by
  funext id h
  unfold socketAt
  rw [slot_drainEgress, Option.bind_map]
  rfl

end Core

end WayNetstack

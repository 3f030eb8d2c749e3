import WayNetstack.World

/-!
# Who holds which TCP socket

An abstract account of TCP sockets: which handles name one, which entry of the
session table holds which handle, and which streams are alive. A socket appears
with a new entry, an entry is surfaced as a stream, the stream is dropped, and the
entry left without an owner is reaped with its socket.

`TcpBook.Inv` is the invariant of this account: entries and sockets correspond one
to one, and so do streams and the surfaced entries that are not orphaned.
-/

namespace WayNetstack

open Lib Lib.Table

/-- The account of TCP sockets. -/
structure TcpBook where
  /-- A handle of an interface names a TCP socket. -/
  has : InterfaceId → SocketHandle → Prop
  /-- The session table. -/
  entries : Table SessionKey TcpEntry
  /-- The streams alive. -/
  streams : List WayTcpStream

/-! ### Transitions of one entry -/

namespace TcpEntry

@[simp] theorem advance_handle (e : TcpEntry) (s : State) : (e.advance s).1.handle = e.handle := by
  unfold advance
  split <;> (try split) <;> rfl

@[simp] theorem advance_orphaned (e : TcpEntry) (s : State) :
    (e.advance s).1.orphaned = e.orphaned := by
  unfold advance
  split <;> (try split) <;> rfl

/-- An entry is surfaced when it is pending and its socket is established. -/
theorem advance_surfaced {e : TcpEntry} {s : State} :
    (e.advance s).2 = true ↔ e.state = .pending ∧ s = .established := by
  unfold advance
  split <;> (try split) <;> simp_all

/-- An entry stays pending when it was and is not surfaced. -/
theorem advance_pending {e : TcpEntry} {s : State} :
    (e.advance s).1.state = .pending ↔ e.state = .pending ∧ s ≠ .established := by
  unfold advance
  split <;> (try split) <;> simp_all

end TcpEntry

namespace TcpBook

/-! ### What happens to the account -/

/-- The streams surfaced by the TCP transitions, `socket` being the states of the
entries' sockets. -/
def surfaced (t : Table SessionKey TcpEntry) (socket : SessionKey → TcpEntry → State) :
    List WayTcpStream :=
  (t.entries.filter fun e => (e.2.advance (socket e.1 e.2)).2).map fun e => streamOf e.1 e.2.handle

/-- One thing that happens to the account. -/
inductive Step (b : TcpBook) : TcpBook → Prop
  /-- A socket is made for a new entry. -/
  | opened {k : SessionKey} {h : SocketHandle} (free : ¬b.has k.interface h)
    (new : b.entries.lookup k = none) :
    Step b ⟨fun i h' => b.has i h' ∨ i = k.interface ∧ h' = h,
      b.entries.insert k ⟨h, .pending, false⟩, b.streams⟩
  /-- The transitions of the post-pass. -/
  | transitions {t : Table SessionKey TcpEntry} (socket : SessionKey → TcpEntry → State)
    (entries : ∀ k, t.lookup k = (b.entries.lookup k).map fun e => (e.advance (socket k e)).1) :
    Step b ⟨b.has, t, b.streams ++ surfaced b.entries socket⟩
  /-- A stream is dropped. -/
  | orphaned {st : WayTcpStream} {e : TcpEntry} (alive : st ∈ b.streams)
    (entry : b.entries.lookup st.key = some e) :
    Step b ⟨b.has, b.entries.replace st.key { e with orphaned := true }, b.streams.erase st⟩
  /-- An orphaned entry is reaped. -/
  | reaped {k : SessionKey} {e : TcpEntry} (entry : b.entries.lookup k = some e)
    (orphaned : e.orphaned = true) :
    Step b ⟨fun i h => b.has i h ∧ ¬(i = k.interface ∧ h = e.handle), b.entries.erase k, b.streams⟩
  /-- The table is reordered. -/
  | rehashed {t : Table SessionKey TcpEntry} (same : Reordered b.entries t) :
    Step b ⟨b.has, t, b.streams⟩

/-! ### The invariant -/

/-- Entries and sockets correspond, and so do streams and surfaced entries. -/
structure Inv (b : TcpBook) : Prop where
  /-- An entry's handle names a TCP socket. -/
  named : ∀ {k e}, b.entries.lookup k = some e → b.has k.interface e.handle
  /-- No two entries share a socket. -/
  inj : ∀ {k k' e e'}, b.entries.lookup k = some e → b.entries.lookup k' = some e' →
    k.interface = k'.interface → e.handle = e'.handle → k = k'
  /-- Every TCP socket belongs to an entry. -/
  owned : ∀ {i h}, b.has i h → ∃ k e, b.entries.lookup k = some e ∧ k.interface = i ∧ e.handle = h
  /-- A stream is that of its entry, which is surfaced and not orphaned. -/
  stream : ∀ {st}, st ∈ b.streams → ∃ e, b.entries.lookup st.key = some e ∧
    st = streamOf st.key e.handle ∧ e.state ≠ .pending ∧ e.orphaned = false
  /-- No two streams share an entry. -/
  distinct : (b.streams.map (·.key)).Nodup
  /-- A surfaced entry that is not orphaned has a stream. -/
  holder : ∀ {k e}, b.entries.lookup k = some e → e.state ≠ .pending → e.orphaned = false →
    ∃ st ∈ b.streams, st.key = k
  /-- An entry not surfaced is not orphaned. -/
  pending : ∀ {k e}, b.entries.lookup k = some e → e.state = .pending → e.orphaned = false

/-- Nothing has happened yet. -/
def empty : TcpBook := ⟨fun _ _ => False, ∅, []⟩

theorem inv_empty : empty.Inv where
  named := by simp [empty]
  inj := by simp [empty]
  owned := False.elim
  stream := by simp [empty]
  distinct := List.nodup_nil
  holder := by simp [empty]
  pending := by simp [empty]

variable {b b' : TcpBook}

theorem Inv.opened (hi : b.Inv) {k : SessionKey} {h : SocketHandle} (free : ¬b.has k.interface h)
    (new : b.entries.lookup k = none) :
    Inv ⟨fun i h' => b.has i h' ∨ i = k.interface ∧ h' = h,
      b.entries.insert k ⟨h, .pending, false⟩, b.streams⟩ := by
  constructor
  · intro k' e he
    rcases lookup_of_insert he with ⟨rfl, rfl⟩ | ⟨-, he⟩
    · exact .inr ⟨rfl, rfl⟩
    · exact .inl (hi.named he)
  · intro k₁ k₂ e₁ e₂ h₁ h₂ hint hh
    -- the new entry's handle was free, so no other entry has it
    rcases lookup_of_insert h₁ with ⟨rfl, rfl⟩ | ⟨-, he₁⟩ <;>
      rcases lookup_of_insert h₂ with ⟨rfl, rfl⟩ | ⟨-, he₂⟩
    · rfl
    · exact absurd (hi.named he₂) (by rw [← hint, ← hh]; exact free)
    · exact absurd (hi.named he₁) (by rw [hint, hh]; exact free)
    · exact hi.inj he₁ he₂ hint hh
  · rintro i h' (hh | ⟨rfl, rfl⟩)
    · obtain ⟨k', e, he, hrest⟩ := hi.owned hh
      exact ⟨k', e, lookup_insert_of_new new he, hrest⟩
    · exact ⟨k, _, by rw [lookup_insert', if_pos rfl], rfl, rfl⟩
  · intro st hst
    obtain ⟨e, he, hrest⟩ := hi.stream hst
    exact ⟨e, lookup_insert_of_new new he, hrest⟩
  · exact hi.distinct
  · intro k' e he hs ho
    rcases lookup_of_insert he with ⟨-, rfl⟩ | ⟨-, he⟩
    · exact absurd rfl hs
    · exact hi.holder he hs ho
  · intro k' e he hs
    rcases lookup_of_insert he with ⟨-, rfl⟩ | ⟨-, he⟩
    · rfl
    · exact hi.pending he hs

theorem mem_surfaced {t : Table SessionKey TcpEntry} {socket : SessionKey → TcpEntry → State}
    {st : WayTcpStream} : st ∈ surfaced t socket ↔ ∃ e, t.lookup st.key = some e ∧
      st = streamOf st.key e.handle ∧ e.state = .pending ∧ socket st.key e = .established := by
  unfold surfaced
  simp only [List.mem_map, List.mem_filter, TcpEntry.advance_surfaced]
  constructor
  · rintro ⟨⟨k, e⟩, ⟨hmem, hadv⟩, rfl⟩
    exact ⟨e, lookup_eq_some.mpr hmem, rfl, hadv⟩
  · rintro ⟨e, he, hst, hadv⟩
    exact ⟨⟨st.key, e⟩, ⟨lookup_eq_some.mp he, hadv⟩, hst.symm⟩

/-- Each entry is surfaced at most once. -/
theorem nodup_surfaced (t : Table SessionKey TcpEntry) (socket : SessionKey → TcpEntry → State) :
    ((surfaced t socket).map (·.key)).Nodup := by
  unfold surfaced
  rw [List.map_map]
  refine List.Nodup.sublist ?_ t.nodupKeys
  exact List.filter_sublist.map _

theorem Inv.transitions (hi : b.Inv) {t : Table SessionKey TcpEntry}
    (socket : SessionKey → TcpEntry → State)
    (entries : ∀ k, t.lookup k = (b.entries.lookup k).map fun e => (e.advance (socket k e)).1) :
    Inv ⟨b.has, t, b.streams ++ surfaced b.entries socket⟩ := by
  have back : ∀ {k e'}, t.lookup k = some e' →
      ∃ e, b.entries.lookup k = some e ∧ (e.advance (socket k e)).1 = e' := by
    intro k e' he'
    rw [entries] at he'
    exact Option.map_eq_some_iff.mp he'
  have forth : ∀ {k e}, b.entries.lookup k = some e →
      t.lookup k = some (e.advance (socket k e)).1 := by
    intro k e he
    rw [entries, he]
    rfl
  constructor
  · intro k e' he'
    obtain ⟨e, he, rfl⟩ := back he'
    rw [TcpEntry.advance_handle]
    exact hi.named he
  · intro k₁ k₂ e₁ e₂ h₁ h₂ hint hh
    obtain ⟨e₁', h₁', rfl⟩ := back h₁
    obtain ⟨e₂', h₂', rfl⟩ := back h₂
    rw [TcpEntry.advance_handle, TcpEntry.advance_handle] at hh
    exact hi.inj h₁' h₂' hint hh
  · intro i h hh
    obtain ⟨k, e, he, hint, hh⟩ := hi.owned hh
    exact ⟨k, _, forth he, hint, by rw [TcpEntry.advance_handle, hh]⟩
  · intro st hst
    rcases List.mem_append.mp hst with hst | hst
    · obtain ⟨e, he, heq, hs, ho⟩ := hi.stream hst
      refine ⟨_, forth he, by rw [TcpEntry.advance_handle]; exact heq, ?_, ?_⟩
      · exact fun hp => hs (TcpEntry.advance_pending.mp hp).1
      · rw [TcpEntry.advance_orphaned, ho]
    · obtain ⟨e, he, heq, hs, hsock⟩ := mem_surfaced.mp hst
      refine ⟨_, forth he, by rw [TcpEntry.advance_handle]; exact heq, ?_, ?_⟩
      · exact fun hp => (TcpEntry.advance_pending.mp hp).2 hsock
      · rw [TcpEntry.advance_orphaned]
        exact hi.pending he hs
  · rw [List.map_append, List.nodup_append]
    refine ⟨hi.distinct, nodup_surfaced _ _, ?_⟩
    -- an entry that has a stream is not pending any more
    rintro k₁ h₁ k₂ h₂ rfl
    obtain ⟨st₁, hst₁, rfl⟩ := List.mem_map.mp h₁
    obtain ⟨st₂, hst₂, hkey⟩ := List.mem_map.mp h₂
    obtain ⟨e₁, he₁, -, hs₁, -⟩ := hi.stream hst₁
    obtain ⟨e₂, he₂, -, hs₂, -⟩ := mem_surfaced.mp hst₂
    rw [hkey, he₁, Option.some.injEq] at he₂
    exact hs₁ (he₂ ▸ hs₂)
  · intro k e' he' hs ho
    obtain ⟨e, he, rfl⟩ := back he'
    rw [TcpEntry.advance_orphaned] at ho
    by_cases hp : e.state = .pending
    · have hsock : socket k e = .established := by
        by_contra hne
        exact hs (TcpEntry.advance_pending.mpr ⟨hp, hne⟩)
      refine ⟨streamOf k e.handle, List.mem_append_right _ ?_, rfl⟩
      exact mem_surfaced.mpr ⟨e, he, rfl, hp, hsock⟩
    · obtain ⟨st, hst, hk⟩ := hi.holder he hp ho
      exact ⟨st, List.mem_append_left _ hst, hk⟩
  · intro k e' he' hs
    obtain ⟨e, he, rfl⟩ := back he'
    rw [TcpEntry.advance_orphaned]
    exact hi.pending he (TcpEntry.advance_pending.mp hs).1

theorem Inv.orphaned (hi : b.Inv) {st : WayTcpStream} {e : TcpEntry} (alive : st ∈ b.streams)
    (entry : b.entries.lookup st.key = some e) :
    Inv ⟨b.has, b.entries.replace st.key { e with orphaned := true }, b.streams.erase st⟩ := by
  -- the stream dropped is the only one of its entry
  have other : ∀ {st'}, st' ∈ b.streams.erase st → st' ∈ b.streams ∧ st'.key ≠ st.key := by
    intro st' hst'
    refine ⟨List.mem_of_mem_erase hst', fun hkey => ?_⟩
    have hnd := List.inj_on_of_nodup_map hi.distinct (List.mem_of_mem_erase hst') alive hkey
    subst hnd
    exact (List.Nodup.of_map _ hi.distinct).not_mem_erase hst'
  have handle : ∀ {k e'}, (b.entries.replace st.key { e with orphaned := true }).lookup k = some e' →
      ∃ e'', b.entries.lookup k = some e'' ∧ e''.handle = e'.handle := by
    intro k e' he'
    rcases lookup_of_replace entry he' with ⟨rfl, rfl⟩ | ⟨-, he⟩
    · exact ⟨e, entry, rfl⟩
    · exact ⟨e', he, rfl⟩
  constructor
  · intro k e' he'
    obtain ⟨e'', he'', hh⟩ := handle he'
    exact hh ▸ hi.named he''
  · intro k₁ k₂ e₁ e₂ h₁ h₂ hint hh
    obtain ⟨e₁', h₁', hh₁⟩ := handle h₁
    obtain ⟨e₂', h₂', hh₂⟩ := handle h₂
    exact hi.inj h₁' h₂' hint (by rw [hh₁, hh₂, hh])
  · intro i h hh
    obtain ⟨k, e', he', hint, hh⟩ := hi.owned hh
    by_cases hk : k = st.key
    · subst hk
      rw [entry, Option.some.injEq] at he'
      exact ⟨_, { e with orphaned := true }, by rw [lookup_replace entry, if_pos rfl], hint, he' ▸ hh⟩
    · exact ⟨k, e', by rw [lookup_replace entry, if_neg hk]; exact he', hint, hh⟩
  · intro st' hst'
    obtain ⟨hmem, hkey⟩ := other hst'
    obtain ⟨e', he', hrest⟩ := hi.stream hmem
    exact ⟨e', by rw [lookup_replace entry, if_neg hkey]; exact he', hrest⟩
  · exact hi.distinct.sublist (List.erase_sublist.map _)
  · intro k e' he' hs ho
    rcases lookup_of_replace entry he' with ⟨-, rfl⟩ | ⟨hk, he⟩
    · cases ho
    · obtain ⟨st', hst', hkey⟩ := hi.holder he hs ho
      refine ⟨st', ?_, hkey⟩
      exact (List.mem_erase_of_ne fun h => hk (by rw [← hkey, h])).mpr hst'
  · intro k e' he' hs
    rcases lookup_of_replace entry he' with ⟨-, rfl⟩ | ⟨-, he⟩
    · obtain ⟨e₀, he₀, -, hne, -⟩ := hi.stream alive
      rw [entry, Option.some.injEq] at he₀
      exact absurd hs (he₀ ▸ hne)
    · exact hi.pending he hs

theorem Inv.reaped (hi : b.Inv) {k : SessionKey} {e : TcpEntry}
    (entry : b.entries.lookup k = some e) (orphaned : e.orphaned = true) :
    Inv ⟨fun i h => b.has i h ∧ ¬(i = k.interface ∧ h = e.handle), b.entries.erase k, b.streams⟩ := by
  constructor
  · intro k' e' he'
    obtain ⟨hk, he⟩ := lookup_of_erase he'
    exact ⟨hi.named he, fun ⟨hint, hh⟩ => hk (hi.inj he entry hint hh)⟩
  · intro k₁ k₂ e₁ e₂ h₁ h₂ hint hh
    exact hi.inj (lookup_of_erase h₁).2 (lookup_of_erase h₂).2 hint hh
  · rintro i h ⟨hh, hne⟩
    obtain ⟨k', e', he', rfl, rfl⟩ := hi.owned hh
    have hk : k' ≠ k := by
      rintro rfl
      rw [entry, Option.some.injEq] at he'
      exact hne ⟨rfl, by rw [he']⟩
    exact ⟨k', e', by rw [lookup_erase', if_neg hk]; exact he', rfl, rfl⟩
  · intro st hst
    obtain ⟨e', he', heq, hs, ho⟩ := hi.stream hst
    have hk : st.key ≠ k := by
      intro hk
      rw [hk, entry, Option.some.injEq] at he'
      rw [← he', orphaned] at ho
      cases ho
    exact ⟨e', by rw [lookup_erase', if_neg hk]; exact he', heq, hs, ho⟩
  · exact hi.distinct
  · intro k' e' he' hs ho
    exact hi.holder (lookup_of_erase he').2 hs ho
  · intro k' e' he' hs
    exact hi.pending (lookup_of_erase he').2 hs

theorem Inv.rehashed (hi : b.Inv) {t : Table SessionKey TcpEntry} (same : Reordered b.entries t) :
    Inv ⟨b.has, t, b.streams⟩ := by
  have hl := same.lookup
  constructor
  · exact fun he => hi.named (by rw [hl]; exact he)
  · exact fun h₁ h₂ => hi.inj (by rw [hl]; exact h₁) (by rw [hl]; exact h₂)
  · intro i h hh
    obtain ⟨k, e, he, hrest⟩ := hi.owned hh
    exact ⟨k, e, by rw [← hl]; exact he, hrest⟩
  · intro st hst
    obtain ⟨e, he, hrest⟩ := hi.stream hst
    exact ⟨e, by rw [← hl]; exact he, hrest⟩
  · exact hi.distinct
  · exact fun he => hi.holder (by rw [hl]; exact he)
  · exact fun he => hi.pending (by rw [hl]; exact he)

/-- **The correspondence is kept by everything that happens to the account.** -/
theorem Step.inv (h : Step b b') (hi : b.Inv) : b'.Inv := by
  cases h with
  | opened free new => exact hi.opened free new
  | transitions socket entries => exact hi.transitions socket entries
  | orphaned alive entry => exact hi.orphaned alive entry
  | reaped entry orphaned => exact hi.reaped entry orphaned
  | rehashed same => exact hi.rehashed same

end TcpBook

end WayNetstack

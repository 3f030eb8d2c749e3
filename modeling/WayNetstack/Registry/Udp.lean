import WayNetstack.World

/-!
# Who holds which UDP socket

An abstract account of UDP sockets: which handles name one, which sessions the table
holds, the map of shared sockets with its reference counts, the `closed` flags of
the queues, and which session objects are alive. A session comes to a shared socket
or brings it into being, and leaves it or takes it along; its object may stay alive
after its entry has gone.

`UdpBook.Inv` is the invariant: sockets are those of the map, the counts are exact,
and a session object whose queue is open is that of an entry.
-/

namespace WayNetstack

open Lib Lib.Table SessionManager

/-- The account of UDP sockets. -/
structure UdpBook where
  /-- A handle of an interface names a UDP socket. -/
  has : InterfaceId → SocketHandle → Prop
  /-- The session table. -/
  entries : Table SessionKey UdpEntry
  /-- The shared sockets, with their reference counts. -/
  shared : Table (InterfaceId × IpEndpoint) (SocketHandle × ℕ)
  /-- The `closed` flags of the queues. -/
  closed : List Bool
  /-- The session objects alive. -/
  sessions : List WayUdpSession

namespace UdpBook

/-! ### What happens to the account -/

/-- One thing that happens to the account. -/
inductive Step (b : UdpBook) : UdpBook → Prop
  /-- A session is opened with a new socket. -/
  | opened {k : SessionKey} {h : SocketHandle} {now : Instant} (free : ¬b.has k.interface h)
    (new : b.entries.lookup k = none) (fresh : b.shared.lookup (dstOf k) = none) :
    Step b ⟨fun i h' => b.has i h' ∨ i = k.interface ∧ h' = h,
      b.entries.insert k ⟨h, b.closed.length, now⟩, b.shared.insert (dstOf k) (h, 1),
      b.closed ++ [false], b.sessions ++ [sessionOf k h b.closed.length]⟩
  /-- A session is opened on a socket in use. -/
  | joined {k : SessionKey} {h : SocketHandle} {n : ℕ} {now : Instant}
    (new : b.entries.lookup k = none) (inUse : b.shared.lookup (dstOf k) = some (h, n)) :
    Step b ⟨b.has, b.entries.insert k ⟨h, b.closed.length, now⟩,
      b.shared.replace (dstOf k) (h, n + 1), b.closed ++ [false],
      b.sessions ++ [sessionOf k h b.closed.length]⟩
  /-- A datagram is routed to a session. -/
  | touched {k : SessionKey} {e : UdpEntry} {now : Instant} (entry : b.entries.lookup k = some e) :
    Step b ⟨b.has, b.entries.replace k { e with lastActivity := now }, b.shared, b.closed, b.sessions⟩
  /-- An entry leaves a socket that others use. -/
  | left {k : SessionKey} {e : UdpEntry} {h : SocketHandle} {n : ℕ}
    (entry : b.entries.lookup k = some e) (inUse : b.shared.lookup (dstOf k) = some (h, n))
    (more : n - 1 ≠ 0) :
    Step b ⟨b.has, b.entries.erase k, b.shared.replace (dstOf k) (h, n - 1),
      b.closed.set e.queue true, b.sessions⟩
  /-- The last entry of a socket takes it along. -/
  | leftLast {k : SessionKey} {e : UdpEntry} {h : SocketHandle} {n : ℕ}
    (entry : b.entries.lookup k = some e) (inUse : b.shared.lookup (dstOf k) = some (h, n))
    (last : n - 1 = 0) :
    Step b ⟨fun i h' => b.has i h' ∧ ¬(i = k.interface ∧ h' = e.socket), b.entries.erase k,
      b.shared.erase (dstOf k), b.closed.set e.queue true, b.sessions⟩
  /-- A session object is gone, its key having no entry any more. -/
  | dropped {ses : WayUdpSession} (alive : ses ∈ b.sessions)
    (gone : b.entries.lookup ses.key = none) :
    Step b ⟨b.has, b.entries, b.shared, b.closed, b.sessions.erase ses⟩
  /-- The tables are reordered. -/
  | rehashed {t : Table SessionKey UdpEntry}
    {d : Table (InterfaceId × IpEndpoint) (SocketHandle × ℕ)} (same : Reordered b.entries t)
    (same' : Reordered b.shared d) :
    Step b ⟨b.has, t, d, b.closed, b.sessions⟩

/-! ### The invariant -/

/-- The sockets are those of the map, the counts are exact, and open session
objects are those of entries. -/
structure Inv (b : UdpBook) : Prop where
  /-- A shared socket's handle names a UDP socket. -/
  named : ∀ {i ep h n}, b.shared.lookup (i, ep) = some (h, n) → b.has i h
  /-- No two destinations share a socket. -/
  inj : ∀ {i ep ep' h n n'}, b.shared.lookup (i, ep) = some (h, n) →
    b.shared.lookup (i, ep') = some (h, n') → ep = ep'
  /-- Every UDP socket is a shared one. -/
  owned : ∀ {i h}, b.has i h → ∃ ep n, b.shared.lookup (i, ep) = some (h, n)
  /-- The counts are exact. -/
  counted : Counted dstOf UdpEntry.socket b.entries b.shared
  /-- An entry's queue is open. -/
  isOpen : ∀ {k e}, b.entries.lookup k = some e → b.closed[e.queue]? = some false
  /-- A session object is that of its key, and of the entry under it while its queue
  is open. -/
  session : ∀ {ses}, ses ∈ b.sessions → ses = sessionOf ses.key ses.socket ses.queue ∧
    ses.queue < b.closed.length ∧ (b.closed[ses.queue]? = some false →
      ∃ e, b.entries.lookup ses.key = some e ∧ e.queue = ses.queue ∧ e.socket = ses.socket)
  /-- No two session objects share a queue. -/
  distinct : (b.sessions.map (·.queue)).Nodup
  /-- Every entry has its session object. -/
  holder : ∀ {k e}, b.entries.lookup k = some e → ∃ ses ∈ b.sessions, ses.key = k ∧ ses.queue = e.queue

/-- Nothing has happened yet. -/
def empty : UdpBook := ⟨fun _ _ => False, ∅, ∅, [], []⟩

theorem inv_empty : empty.Inv where
  named := by simp [empty]
  inj := by simp [empty]
  owned := False.elim
  counted := Counted.empty
  isOpen := by simp [empty]
  session := by simp [empty]
  distinct := List.nodup_nil
  holder := by simp [empty]

variable {b b' : UdpBook}

/-- A session object is known by its queue. -/
theorem Inv.session_ext (hi : b.Inv) {ses ses' : WayUdpSession} (h : ses ∈ b.sessions)
    (h' : ses' ∈ b.sessions) (hq : ses.queue = ses'.queue) : ses = ses' :=
  List.inj_on_of_nodup_map hi.distinct h h' hq

/-- No two entries share a queue. -/
theorem Inv.queue_inj (hi : b.Inv) {k k' : SessionKey} {e e' : UdpEntry}
    (h : b.entries.lookup k = some e) (h' : b.entries.lookup k' = some e')
    (hq : e.queue = e'.queue) : k = k' := by
  obtain ⟨ses, hm, hk, hsq⟩ := hi.holder h
  obtain ⟨ses', hm', hk', hsq'⟩ := hi.holder h'
  rw [← hk, ← hk', hi.session_ext hm hm' (by rw [hsq, hsq', hq])]

/-- An entry's socket is a UDP socket. -/
theorem Inv.entry_named (hi : b.Inv) {k : SessionKey} {e : UdpEntry}
    (h : b.entries.lookup k = some e) : b.has k.interface e.socket := by
  obtain ⟨n, hn⟩ := hi.counted.held h
  exact hi.named hn

/-- The queue of a session object without an entry is closed. -/
theorem Inv.closed_of_gone (hi : b.Inv) {ses : WayUdpSession} (h : ses ∈ b.sessions)
    (gone : ∀ e, b.entries.lookup ses.key = some e → e.queue ≠ ses.queue) :
    b.closed[ses.queue]? = some true := by
  obtain ⟨-, hlt, hopen⟩ := hi.session h
  have hget := List.getElem?_eq_getElem hlt
  cases hflag : b.closed[ses.queue] with
  | true => rw [hget, hflag]
  | false =>
    obtain ⟨e, he, hq, -⟩ := hopen (hget.trans (congrArg some hflag))
    exact absurd hq (gone e he)

/-! #### Opening -/

section Opening

variable {k : SessionKey} {h : SocketHandle} {now : Instant}

theorem Inv.opening_isOpen (hi : b.Inv) {k' : SessionKey} {e : UdpEntry}
    (he : (b.entries.insert k ⟨h, b.closed.length, now⟩).lookup k' = some e) :
    (b.closed ++ [false])[e.queue]? = some false := by
  rcases lookup_of_insert he with ⟨-, rfl⟩ | ⟨-, he⟩
  · rw [List.getElem?_append_right (Nat.le_refl _)]
    simp
  · have hq := hi.isOpen he
    rw [List.getElem?_append_left (List.getElem?_eq_some_iff.mp hq).1]
    exact hq

theorem Inv.opening_session (hi : b.Inv) (new : b.entries.lookup k = none) {ses : WayUdpSession}
    (hs : ses ∈ b.sessions ++ [sessionOf k h b.closed.length]) :
    ses = sessionOf ses.key ses.socket ses.queue ∧ ses.queue < (b.closed ++ [false]).length ∧
      ((b.closed ++ [false])[ses.queue]? = some false →
        ∃ e, (b.entries.insert k ⟨h, b.closed.length, now⟩).lookup ses.key = some e ∧
          e.queue = ses.queue ∧ e.socket = ses.socket) := by
  rw [List.length_append, List.length_singleton]
  rcases List.mem_append.mp hs with hs | hs
  · obtain ⟨heq, hlt, hopen⟩ := hi.session hs
    refine ⟨heq, Nat.lt_succ_of_lt hlt, fun hc => ?_⟩
    rw [List.getElem?_append_left hlt] at hc
    obtain ⟨e, he, hrest⟩ := hopen hc
    exact ⟨e, lookup_insert_of_new new he, hrest⟩
  · obtain rfl := List.mem_singleton.mp hs
    exact ⟨rfl, Nat.lt_succ_self _, fun _ => ⟨_, by rw [lookup_insert']; exact if_pos rfl, rfl, rfl⟩⟩

theorem Inv.opening_distinct (hi : b.Inv) :
    ((b.sessions ++ [sessionOf k h b.closed.length]).map (·.queue)).Nodup := by
  rw [List.map_append, List.nodup_append]
  refine ⟨hi.distinct, by simp, ?_⟩
  rintro q₁ h₁ q₂ h₂ rfl
  obtain ⟨ses, hs, rfl⟩ := List.mem_map.mp h₁
  have hq : ses.queue = b.closed.length := by simpa [sessionOf] using h₂
  exact absurd (hi.session hs).2.1 (by rw [hq]; exact Nat.lt_irrefl _)

theorem Inv.opening_holder (hi : b.Inv) {k' : SessionKey} {e : UdpEntry}
    (he : (b.entries.insert k ⟨h, b.closed.length, now⟩).lookup k' = some e) :
    ∃ ses ∈ b.sessions ++ [sessionOf k h b.closed.length], ses.key = k' ∧ ses.queue = e.queue := by
  rcases lookup_of_insert he with ⟨rfl, rfl⟩ | ⟨-, he⟩
  · exact ⟨_, List.mem_append_right _ (List.mem_singleton_self _), rfl, rfl⟩
  · obtain ⟨ses, hs, hrest⟩ := hi.holder he
    exact ⟨ses, List.mem_append_left _ hs, hrest⟩

theorem Inv.opened (hi : b.Inv) (now : Instant) (free : ¬b.has k.interface h)
    (new : b.entries.lookup k = none) (fresh : b.shared.lookup (dstOf k) = none) :
    Inv ⟨fun i h' => b.has i h' ∨ i = k.interface ∧ h' = h,
      b.entries.insert k ⟨h, b.closed.length, now⟩, b.shared.insert (dstOf k) (h, 1),
      b.closed ++ [false], b.sessions ++ [sessionOf k h b.closed.length]⟩ := by
  constructor
  · intro i ep h' n hs
    rcases lookup_of_insert hs with ⟨hd, hn⟩ | ⟨-, hs⟩
    · cases hn
      cases hd
      exact .inr ⟨rfl, rfl⟩
    · exact .inl (hi.named hs)
  · intro i ep ep' h' n n' h₁ h₂
    -- the new socket's handle was free, so no other destination has it
    rcases lookup_of_insert h₁ with ⟨hd₁, hn₁⟩ | ⟨-, h₁⟩ <;>
      rcases lookup_of_insert h₂ with ⟨hd₂, hn₂⟩ | ⟨-, h₂⟩
    · exact (Prod.mk.inj (hd₁.trans hd₂.symm)).2
    · cases hn₁
      cases hd₁
      exact absurd (hi.named h₂) free
    · cases hn₂
      cases hd₂
      exact absurd (hi.named h₁) free
    · exact hi.inj h₁ h₂
  · rintro i h' (hh | ⟨rfl, rfl⟩)
    · obtain ⟨ep, n, hs⟩ := hi.owned hh
      exact ⟨ep, n, lookup_insert_of_new fresh hs⟩
    · exact ⟨k.dst, 1, by rw [lookup_insert']; exact if_pos rfl⟩
  · exact hi.counted.acquireNew (v := ⟨h, b.closed.length, now⟩) (notMem_of_lookup new) fresh
  · exact hi.opening_isOpen
  · exact hi.opening_session new
  · exact hi.opening_distinct
  · exact hi.opening_holder

/-- Changing a reference count changes nothing but the count. -/
theorem lookup_recount {t : Table (InterfaceId × IpEndpoint) (SocketHandle × ℕ)}
    {d d' : InterfaceId × IpEndpoint} {h h' : SocketHandle} {n m : ℕ} (hd : t.lookup d = some (h, n)) :
    (∃ m', (t.replace d (h, m)).lookup d' = some (h', m')) ↔ ∃ m', t.lookup d' = some (h', m') := by
  by_cases hdd : d' = d
  · subst hdd
    simp [lookup_replace hd, hd]
  · simp [lookup_replace hd, hdd]

/-- Changing a reference count keeps the correspondence of sockets and destinations. -/
theorem Inv.recounted (hi : b.Inv) {d : InterfaceId × IpEndpoint} {n m : ℕ}
    (hd : b.shared.lookup d = some (h, n)) :
    (∀ {i ep h' n'}, (b.shared.replace d (h, m)).lookup (i, ep) = some (h', n') → b.has i h') ∧
    (∀ {i ep ep' h' n' n''}, (b.shared.replace d (h, m)).lookup (i, ep) = some (h', n') →
      (b.shared.replace d (h, m)).lookup (i, ep') = some (h', n'') → ep = ep') ∧
    (∀ {i h'}, b.has i h' → ∃ ep n', (b.shared.replace d (h, m)).lookup (i, ep) = some (h', n')) := by
  refine ⟨?_, ?_, ?_⟩
  · intro i ep h' n' hs
    obtain ⟨_, hs⟩ := (lookup_recount hd).mp ⟨n', hs⟩
    exact hi.named hs
  · intro i ep ep' h' n' n'' h₁ h₂
    obtain ⟨_, h₁⟩ := (lookup_recount hd).mp ⟨n', h₁⟩
    obtain ⟨_, h₂⟩ := (lookup_recount hd).mp ⟨n'', h₂⟩
    exact hi.inj h₁ h₂
  · intro i h' hh
    obtain ⟨ep, n', hs⟩ := hi.owned hh
    exact ⟨ep, (lookup_recount hd).mpr ⟨n', hs⟩⟩

theorem Inv.joined (hi : b.Inv) (now : Instant) {n : ℕ} (new : b.entries.lookup k = none)
    (inUse : b.shared.lookup (dstOf k) = some (h, n)) :
    Inv ⟨b.has, b.entries.insert k ⟨h, b.closed.length, now⟩,
      b.shared.replace (dstOf k) (h, n + 1), b.closed ++ [false],
      b.sessions ++ [sessionOf k h b.closed.length]⟩ where
  named := (hi.recounted inUse).1
  inj := (hi.recounted inUse).2.1
  owned := (hi.recounted inUse).2.2
  counted := hi.counted.acquire (v := ⟨h, b.closed.length, now⟩) (notMem_of_lookup new) inUse
  isOpen := hi.opening_isOpen
  session := hi.opening_session new
  distinct := hi.opening_distinct
  holder := hi.opening_holder

end Opening

theorem Inv.touched (hi : b.Inv) (now : Instant) {k : SessionKey} {e : UdpEntry}
    (entry : b.entries.lookup k = some e) :
    Inv ⟨b.has, b.entries.replace k { e with lastActivity := now }, b.shared, b.closed, b.sessions⟩ := by
  have back : ∀ {k' e'}, (b.entries.replace k { e with lastActivity := now }).lookup k' = some e' →
      ∃ e'', b.entries.lookup k' = some e'' ∧ e''.queue = e'.queue := by
    intro k' e' he'
    rcases lookup_of_replace entry he' with ⟨rfl, rfl⟩ | ⟨-, he'⟩
    · exact ⟨e, entry, rfl⟩
    · exact ⟨e', he', rfl⟩
  refine ⟨hi.named, hi.inj, hi.owned, hi.counted.replace entry rfl, ?_, ?_, hi.distinct, ?_⟩
  · intro k' e' he'
    obtain ⟨e'', he'', hq⟩ := back he'
    exact hq ▸ hi.isOpen he''
  · intro ses hs
    obtain ⟨heq, hlt, hopen⟩ := hi.session hs
    refine ⟨heq, hlt, fun hc => ?_⟩
    obtain ⟨e', he', hq, hso⟩ := hopen hc
    by_cases hk : ses.key = k
    · rw [hk, entry, Option.some.injEq] at he'
      exact ⟨{ e with lastActivity := now }, by rw [lookup_replace entry, if_pos hk],
        by rw [← hq, ← he'], by rw [← hso, ← he']⟩
    · exact ⟨e', by rw [lookup_replace entry, if_neg hk]; exact he', hq, hso⟩
  · intro k' e' he'
    obtain ⟨e'', he'', hq⟩ := back he'
    exact hq ▸ hi.holder he''

/-! #### Leaving -/

section Leaving

variable {k : SessionKey} {e : UdpEntry}

theorem Inv.leaving_isOpen (hi : b.Inv) (entry : b.entries.lookup k = some e) {k' : SessionKey}
    {e' : UdpEntry} (he' : (b.entries.erase k).lookup k' = some e') :
    (b.closed.set e.queue true)[e'.queue]? = some false := by
  obtain ⟨hk, he⟩ := lookup_of_erase he'
  have hq : e.queue ≠ e'.queue := fun hq => hk (hi.queue_inj entry he hq).symm
  rw [List.getElem?_set_ne hq]
  exact hi.isOpen he

theorem Inv.leaving_session (hi : b.Inv) (entry : b.entries.lookup k = some e)
    {ses : WayUdpSession} (hs : ses ∈ b.sessions) :
    ses = sessionOf ses.key ses.socket ses.queue ∧ ses.queue < (b.closed.set e.queue true).length ∧
      ((b.closed.set e.queue true)[ses.queue]? = some false →
        ∃ e', (b.entries.erase k).lookup ses.key = some e' ∧ e'.queue = ses.queue ∧
          e'.socket = ses.socket) := by
  obtain ⟨heq, hlt, hopen⟩ := hi.session hs
  refine ⟨heq, by rw [List.length_set]; exact hlt, fun hc => ?_⟩
  have hq : e.queue ≠ ses.queue := by
    intro hq
    rw [hq, List.getElem?_set_self hlt] at hc
    cases hc
  rw [List.getElem?_set_ne hq] at hc
  obtain ⟨e', he', hq', hso⟩ := hopen hc
  have hk : ses.key ≠ k := by
    intro hk
    rw [hk, entry, Option.some.injEq] at he'
    exact hq (he' ▸ hq')
  exact ⟨e', by rw [lookup_erase', if_neg hk]; exact he', hq', hso⟩

theorem Inv.left (hi : b.Inv) {h : SocketHandle} {n : ℕ} (entry : b.entries.lookup k = some e)
    (inUse : b.shared.lookup (dstOf k) = some (h, n)) (more : n - 1 ≠ 0) :
    Inv ⟨b.has, b.entries.erase k, b.shared.replace (dstOf k) (h, n - 1),
      b.closed.set e.queue true, b.sessions⟩ where
  named := (hi.recounted inUse).1
  inj := (hi.recounted inUse).2.1
  owned := (hi.recounted inUse).2.2
  counted := hi.counted.release entry inUse more
  isOpen := hi.leaving_isOpen entry
  session := hi.leaving_session entry
  distinct := hi.distinct
  holder he' := hi.holder (lookup_of_erase he').2

theorem Inv.leftLast (hi : b.Inv) {h : SocketHandle} {n : ℕ} (entry : b.entries.lookup k = some e)
    (inUse : b.shared.lookup (dstOf k) = some (h, n)) (last : n - 1 = 0) :
    Inv ⟨fun i h' => b.has i h' ∧ ¬(i = k.interface ∧ h' = e.socket), b.entries.erase k,
      b.shared.erase (dstOf k), b.closed.set e.queue true, b.sessions⟩ := by
  obtain ⟨m, hm⟩ := hi.counted.held entry
  constructor
  · intro i ep h' n' hs
    obtain ⟨hd, hs⟩ := lookup_of_erase hs
    refine ⟨hi.named hs, ?_⟩
    rintro ⟨rfl, rfl⟩
    have : ep = k.dst := hi.inj hs hm
    exact hd (by rw [this]; rfl)
  · intro i ep ep' h' n' n'' h₁ h₂
    exact hi.inj (lookup_of_erase h₁).2 (lookup_of_erase h₂).2
  · rintro i h' ⟨hh, hne⟩
    obtain ⟨ep, n', hs⟩ := hi.owned hh
    have hd : (i, ep) ≠ dstOf k := by
      intro hd
      rw [hd, hm, Option.some.injEq, Prod.mk.injEq] at hs
      exact hne ⟨congrArg Prod.fst hd, hs.1.symm⟩
    exact ⟨ep, n', by rw [lookup_erase', if_neg hd]; exact hs⟩
  · exact hi.counted.releaseLast entry inUse last
  · exact hi.leaving_isOpen entry
  · exact hi.leaving_session entry
  · exact hi.distinct
  · exact fun he' => hi.holder (lookup_of_erase he').2

end Leaving

theorem Inv.dropped (hi : b.Inv) {ses : WayUdpSession} (alive : ses ∈ b.sessions)
    (gone : b.entries.lookup ses.key = none) :
    Inv ⟨b.has, b.entries, b.shared, b.closed, b.sessions.erase ses⟩ where
  named := hi.named
  inj := hi.inj
  owned := hi.owned
  counted := hi.counted
  isOpen := hi.isOpen
  session hs := hi.session (List.mem_of_mem_erase hs)
  distinct := hi.distinct.sublist (List.erase_sublist.map _)
  holder := by
    intro k e he
    obtain ⟨ses', hs', hk, hq⟩ := hi.holder he
    refine ⟨ses', (List.mem_erase_of_ne ?_).mpr hs', hk, hq⟩
    rintro rfl
    rw [hk, he] at gone
    cases gone

theorem Inv.rehashed (hi : b.Inv) {t : Table SessionKey UdpEntry}
    {d : Table (InterfaceId × IpEndpoint) (SocketHandle × ℕ)} (same : Reordered b.entries t)
    (same' : Reordered b.shared d) : Inv ⟨b.has, t, d, b.closed, b.sessions⟩ := by
  have hl := same.lookup
  have hl' := same'.lookup
  constructor
  · exact fun hs => hi.named (by rw [hl']; exact hs)
  · exact fun h₁ h₂ => hi.inj (by rw [hl']; exact h₁) (by rw [hl']; exact h₂)
  · intro i h hh
    obtain ⟨ep, n, hs⟩ := hi.owned hh
    exact ⟨ep, n, by rw [← hl']; exact hs⟩
  · exact hi.counted.reordered same same'
  · exact fun he => hi.isOpen (by rw [hl]; exact he)
  · intro ses hs
    obtain ⟨heq, hlt, hopen⟩ := hi.session hs
    refine ⟨heq, hlt, fun hc => ?_⟩
    obtain ⟨e, he, hrest⟩ := hopen hc
    exact ⟨e, by rw [← hl]; exact he, hrest⟩
  · exact hi.distinct
  · exact fun he => hi.holder (by rw [hl]; exact he)

/-- **The invariant is kept by everything that happens to the account.** -/
theorem Step.inv (h : Step b b') (hi : b.Inv) : b'.Inv := by
  cases h with
  | opened free new fresh => exact hi.opened _ free new fresh
  | joined new inUse => exact hi.joined _ new inUse
  | touched entry => exact hi.touched _ entry
  | left entry inUse more => exact hi.left entry inUse more
  | leftLast entry inUse last => exact hi.leftLast entry inUse last
  | dropped alive gone => exact hi.dropped alive gone
  | rehashed same same' => exact hi.rehashed same same'

end UdpBook

end WayNetstack

import WayNetstack.Runner.Loop

/-!
# The objects of the stack

A cycle makes sessions, streams of TCP and sessions of UDP, and each is an object that
somebody owns and at last drops. The world counts those made and not dropped
(`World.objects`). A step adds what its cycle made and takes away what it dropped
(`World.objects_step`, `Runtime.Turn.objects`), the objects of a world in order are all
different, and each can be dropped, by the application or by the runner itself
(`Runtime.discard`).
-/

namespace WayNetstack

open Lib Lib.Traced

variable {S : Smoltcp}

/-- The drop of a session. -/
def Session.dropLabel : Session → Label S
  | .tcp st => .dropStream st
  | .udp ses => .dropSession ses

/-- The object that an operation uses. -/
def Label.object? : Label S → Option Session
  | .read st _ _ | .write st _ _ | .shutdown st | .dropStream st => some (.tcp st)
  | .send ses _ | .recv ses | .dropSession ses => some (.udp ses)
  | .ingress _ | .cycle _ _ | .rehash _ => none

/-- The object that a step drops. -/
def Label.drops : Label S → List Session
  | .dropStream st => [.tcp st]
  | .dropSession ses => [.udp ses]
  | _ => []

/-- The object that a step of the loop drops. -/
def Act.drops : Act S → List Session
  | .app l => l.drops
  | _ => []

/-- The objects not yet dropped. -/
def World.objects (w : World S) : List Session := w.streams.map .tcp ++ w.sessions.map .udp

/-- The sessions that a step makes. -/
def World.surfaces (w : World S) : Label S → List Session
  | .cycle now polls => (pollOnce w.core now polls).result.toOption.elim [] (·.accepted)
  | _ => []

/-- The sessions that a step of the loop makes. -/
def Runtime.surfaces (s : Runtime S) : Act S → List Session
  | .cycle now polls => s.world.surfaces (.cycle now polls)
  | _ => []

/-- A session is dropped by the runner itself, which is not parked when it calls `notify_poll`. -/
def Runtime.discard (s : Runtime S) (ses : Session) : Option (Runtime S) :=
  (s.step (.app ses.dropLabel)).bind fun t =>
    if s.world.notifies (S := S) ses.dropLabel then t.step .notify else some t

section Objects

variable {w w' : World S} {l : Label S}

theorem World.objects_afterCycle (w : World S) (r : Cycle S) :
    (w.afterCycle r).objects.Perm (w.objects ++ r.accepted) := by
  have hsplit : r.accepted.Perm
      ((r.accepted.filterMap Session.stream?).map .tcp ++ (r.accepted.filterMap Session.session?).map .udp) := by
    induction r.accepted with
    | nil => exact .nil
    | cons ses rest ih =>
      cases ses with
      | tcp st => exact ih.cons _
      | udp ses => exact (ih.cons _).trans List.perm_middle.symm
  unfold objects afterCycle
  rw [List.map_append, List.map_append]
  refine List.Perm.trans ?_ (hsplit.symm.append_left _)
  simp only [List.append_assoc]
  refine List.Perm.append_left _ ?_
  rw [← List.append_assoc, ← List.append_assoc]
  exact List.perm_append_comm.append_right _

/-- What a step makes and what it drops. -/
theorem World.objects_step (h : World.Steps w l w') :
    w'.objects.Perm ((w.objects ++ w.surfaces l).diff l.drops) := by
  obtain ⟨hen, h⟩ := h
  cases l with
  | ingress pkt =>
    cases h
    exact .of_eq (List.append_nil _).symm
  | cycle now polls =>
    obtain ⟨r, hr, h⟩ := bind_result_ok.mp h
    cases h
    have hsurf : w.surfaces (.cycle now polls) = r.accepted := by
      simp only [surfaces, hr]
      rfl
    rw [hsurf]
    exact w.objects_afterCycle r
  | read st cx room | write st cx data | shutdown st =>
    obtain ⟨r, -, h⟩ := bind_result_ok.mp h
    cases h
    exact .of_eq (List.append_nil _).symm
  | send ses payload =>
    obtain ⟨r, -, h⟩ := bind_result_ok.mp h
    cases h
    exact .of_eq (List.append_nil _).symm
  | recv ses | rehash m =>
    cases h
    exact .of_eq (List.append_nil _).symm
  | dropStream st =>
    obtain ⟨r, -, h⟩ := bind_result_ok.mp h
    cases h
    have hst : Session.tcp st ∈ w.streams.map Session.tcp := List.mem_map_of_mem hen
    refine .of_eq ?_
    simp only [objects, surfaces, Label.drops, List.append_nil, List.diff_cons, List.diff_nil]
    rw [List.erase_append_left _ hst, List.map_erase (fun _ _ h => Session.tcp.inj h)]
  | dropSession ses =>
    obtain ⟨r, -, h⟩ := bind_result_ok.mp h
    cases h
    have hses : Session.udp ses ∉ w.streams.map Session.tcp := by simp
    refine .of_eq ?_
    simp only [objects, surfaces, Label.drops, List.append_nil, List.diff_cons, List.diff_nil]
    rw [List.erase_append_right _ hses, List.map_erase (fun _ _ h => Session.udp.inj h)]

theorem World.enabled_dropLabel {ses : Session} (h : ses ∈ w.objects) : w.Enabled ses.dropLabel := by
  unfold objects at h
  rw [List.mem_append, List.mem_map, List.mem_map] at h
  rcases h with ⟨st, hst, rfl⟩ | ⟨ses, hses, rfl⟩
  · exact hst
  · exact hses

/-- The objects of a world in order are all different. -/
theorem World.Registered.nodup_objects (hw : w.Registered) : w.objects.Nodup := by
  have hstreams : w.streams.Nodup := .of_map _ hw.tcp.distinct
  have hsessions : w.sessions.Nodup := .of_map _ hw.udp.distinct
  refine List.nodup_append.mpr ⟨hstreams.map fun _ _ h => Session.tcp.inj h,
    hsessions.map fun _ _ h => Session.udp.inj h, ?_⟩
  simp

end Objects

section Loop

variable {s t : Runtime S} {a : Act S} {ses : Session} {b : NetstackBuilder S}

theorem Runtime.Turn.objects (h : s.Turn a t) :
    t.world.objects.Perm ((s.world.objects ++ s.surfaces a).diff a.drops) := by
  cases h with
  | delay | park | wake | stop | timeout | drained | forward | egressGone | accept | done | notify
  | dropHandle | recv | drain => exact .of_eq (List.append_nil _).symm
  | @cycle now polls r hp hr =>
    exact World.objects_step (l := .cycle now polls) ⟨trivial, bind_result_ok.mpr ⟨r, hr, rfl⟩⟩
  | @app l w ofApp does =>
    have hsurf : s.world.surfaces l = [] := by cases l <;> first | rfl | cases ofApp
    have key := World.objects_step does
    rw [hsurf] at key
    exact key
  | sendIp pkt =>
    rcases s.sendIpPacket_cases pkt with heq | heq <;> rw [heq] <;> exact .of_eq (List.append_nil _).symm

/-- A drop by the runner is a drop, and the call of `notify_poll` after it. -/
theorem Runtime.discard_cases (h : s.discard ses = some t) : ∃ r, s.step (.app ses.dropLabel) = some r ∧
    (r = t ∨ r.step .notify = some t) := by
  obtain ⟨r, hr, h⟩ := Option.bind_eq_some_iff.mp h
  refine ⟨r, hr, ?_⟩
  split at h
  · exact .inr h
  · cases h
    exact .inl rfl

theorem Runtime.Reachable.discard (hs : Reachable b s) (h : s.discard ses = some t) : Reachable b t := by
  obtain ⟨r, hr, hrest⟩ := discard_cases h
  have hdrop : Reachable b r := System.Reaches.step hs (l := .app ses.dropLabel) hr
  rcases hrest with rfl | hn
  · exact hdrop
  · exact System.Reaches.step hdrop (l := .notify) hn

/-- What a dropped object leaves. -/
theorem Runtime.objects_drop (h : s.step (.app ses.dropLabel) = some t) :
    t.world.objects.Perm (s.world.objects.erase ses) := by
  have key := (turn_of_step h).objects
  cases ses <;> simpa [surfaces, Act.drops, Session.dropLabel, Label.drops] using key

/-- What the runner leaves when it has dropped a session. -/
structure Runtime.Discarded (s : Runtime S) (ses : Session) (t : Runtime S) : Prop where
  objects : t.world.objects.Perm (s.world.objects.erase ses)
  phase : t.phase = s.phase
  handle : t.handle = s.handle
  world : World.Steps s.world ses.dropLabel t.world

theorem Runtime.discarded (hp : ∀ sleep notified, s.phase ≠ .parked sleep notified)
    (h : s.discard ses = some t) : s.Discarded ses t := by
  obtain ⟨r, hr, hrest⟩ := discard_cases h
  have hobj := objects_drop hr
  have hturn := turn_of_step hr
  cases hturn with
  | app ofApp does =>
    rcases hrest with rfl | hn
    · exact ⟨hobj, rfl, rfl, does⟩
    · cases turn_of_step hn with
      | notify hc =>
        refine ⟨hobj, ?_, rfl, does⟩
        show s.phase.notifyWaiters = s.phase
        cases hphase : s.phase with
        | parked sleep notified => exact absurd hphase (hp sleep notified)
        | _ => rfl

/-- An object can always be dropped. -/
theorem Runtime.Reachable.exists_drop (hS : S.Lawful) (hs : Reachable b s) (h : ses ∈ s.world.objects) :
    ∃ t, s.step (.app ses.dropLabel) = some t := by
  have hw : s.world.Inv False b := World.Reachable.inv hS False.elim hs.anyRun
  have hen := World.enabled_dropLabel h
  obtain ⟨⟨w, hstep, -⟩, -⟩ := World.step_ok hS False.elim hw.registered hw.budgeted hen
  have happ : (ses.dropLabel : Label S).ofApp = true := by cases ses <;> rfl
  refine ⟨{ s with world := w, calls := s.calls + (s.world.notifies (S := S) ses.dropLabel).toNat }, ?_⟩
  simp only [step, happ, hen, and_self, if_true, toOption_eq_some.mpr hstep, Option.map_some]

theorem Runtime.Reachable.exists_discard (hS : S.Lawful) (hs : Reachable b s) (h : ses ∈ s.world.objects) :
    ∃ t, s.discard ses = some t := by
  obtain ⟨r, hr⟩ := hs.exists_drop hS h
  unfold Runtime.discard
  rw [hr, Option.bind_some]
  split
  · next hn =>
    cases turn_of_step hr with
    | app ofApp does => exact Option.isSome_iff_exists.mp (by simp [step, hn])
  · exact ⟨r, rfl⟩

end Loop

end WayNetstack

import Pa6tEth.Calm

/-! Every submitted request is in exactly one place until its one completion. -/

namespace Pa6tEth

open Support World

def Handed (s t : Driver) : Prop := Handover Stage.promise Answer.Fair s.ledger t.ledger

theorem handed_call (ch : Channels) (s t : Driver) (i : Nat) (e : CallEnv)
    (stepped : driverStep ch s (.call i e) = some t) : Handed s t := by
  obtain ⟨c, w, next, present, moved, same⟩ := call_step ch s t i e stepped
  have handed := call_handover ch e s.world w c next moved
  have first := flatMap_leave Call.claim s.calls i c present
  have last : (t.calls.flatMap Call.claim).Perm
      (claimOf next ++ (s.calls.eraseIdx i).flatMap Call.claim) := by
    rw [same]
    cases next with
    | none => exact List.Perm.refl _
    | some next => exact flatMap_replace Call.claim s.calls i c next present
  subst same
  refine handedOver_frame s.world w _ _ s.places _
    ((s.calls.eraseIdx i).flatMap Call.claim ++ s.tasks.flatMap TaskPc.claim) ?_ ?_ handed
  · refine (first.append_right _).trans ?_
    rw [List.perm_iff_count]
    intro p
    simp only [List.count_append]
    omega
  · refine (last.append_right _).trans ?_
    rw [List.perm_iff_count]
    intro p
    simp only [List.count_append]
    omega

theorem handed_task (ch : Channels) (s t : Driver) (i : Nat) (e : TaskEnv)
    (stepped : driverStep ch s (.task i e) = some t) : Handed s t := by
  obtain ⟨pc, w, next, present, moved, rfl⟩ := task_step ch s t i e stepped
  have handed := task_handover ch e s.world w pc next moved
  have first := flatMap_leave TaskPc.claim s.tasks i pc present
  have last := flatMap_replace TaskPc.claim s.tasks i pc next present
  refine handedOver_frame s.world w _ _ s.places _
    ((s.tasks.eraseIdx i).flatMap TaskPc.claim ++ s.calls.flatMap Call.claim) ?_ ?_ handed
  · refine ((first.append_right _).append_left _).trans ?_
    rw [List.perm_iff_count]
    intro p
    simp only [List.count_append]
    omega
  · refine ((last.append_right _).append_left _).trans ?_
    rw [List.perm_iff_count]
    intro p
    simp only [List.count_append]
    omega

theorem taken_submit (ch : Channels) (s t : Driver) (r : ReqId) (q : IOSana2Req)
    (stepped : driverStep ch s (.submit r q) = some t) :
    Intake Stage.promise s.ledger t.ledger := by
  obtain ⟨settled, rfl⟩ := submit_step ch s t r q stepped
  have settled : s.world.submitted.count r = (s.world.answers.map Prod.fst).count r := by
    simpa [Driver.pending] using settled
  refine ⟨r, .called, settled, rfl, rfl, List.Perm.refl _, ?_, ?_⟩
  · intro other apart
    simp only [Driver.ledger, ledger, Function.update_of_ne apart]
  · simp only [Stage.promise, Driver.ledger, ledger, Function.update_self]

theorem close_stored (w : World) (bmCookie : Addr) :
    stored (w.close bmCookie).unit = stored w.unit := by
  simp only [close, unitTaskShutdown]
  split_ifs <;> rfl

theorem handed_close (s : Driver) (bmCookie : Addr) :
    Handed s { s with world := s.world.close bmCookie } := by
  have same : ({ s with world := s.world.close bmCookie } : Driver).ledger = s.ledger := by
    simp only [Driver.ledger, Driver.places, close_stored]
    simp only [close, unitTaskShutdown]
    split_ifs <;> rfl
  rw [Handed, same]
  exact handover_refl _ _ _

theorem lost_port (u : PA6TEthUnit) (port : Option (List ReqId)) (empty : portPlaces port = []) :
    ∃ lost, (stored u).Perm (lost ++ stored { u with ioPort := port }) := by
  refine ⟨portPlaces u.ioPort, ?_⟩
  rw [List.perm_iff_count]
  intro p
  simp only [stored, List.count_append, empty, List.count_nil]
  omega

theorem lost_start (w : World) (outcome : StartOutcome) :
    ∃ lost, (stored w.unit).Perm (lost ++ stored (w.unitTaskStart outcome).unit) := by
  cases outcome with
  | signalFailed => exact ⟨[], List.Perm.refl _⟩
  | createFailed => exact ⟨[], List.Perm.refl _⟩
  | portFailed => exact lost_port w.unit none rfl
  | irqFailed => exact lost_port w.unit none rfl
  | started => exact lost_port w.unit (some []) rfl

theorem lost_places (s t : Driver) (calls : t.calls = s.calls)
    (tasks : ∃ lost, (s.tasks.flatMap TaskPc.claim).Perm (lost ++ t.tasks.flatMap TaskPc.claim))
    (queues : ∃ lost, (stored s.world.unit).Perm (lost ++ stored t.world.unit))
    (same : t.world.submitted = s.world.submitted ∧ t.world.answers = s.world.answers ∧
      t.world.asked = s.world.asked ∧ t.world.reqs = s.world.reqs) :
    Loss s.ledger t.ledger := by
  obtain ⟨one, first⟩ := tasks
  obtain ⟨two, second⟩ := queues
  refine ⟨same.1, same.2.1, ?_, one ++ two, ?_⟩
  · simp only [Driver.ledger, ledger, same.2.2]
  · rw [List.perm_iff_count] at first second ⊢
    intro p
    have here := first p
    have there := second p
    simp only [Driver.ledger, ledger, Driver.places, List.count_append, calls] at here there ⊢
    omega

theorem started_fields (w : World) (outcome : StartOutcome) :
    (w.unitTaskStart outcome).submitted = w.submitted ∧
      (w.unitTaskStart outcome).answers = w.answers ∧
      (w.unitTaskStart outcome).asked = w.asked ∧ (w.unitTaskStart outcome).reqs = w.reqs := by
  cases outcome <;> exact ⟨rfl, rfl, rfl, rfl⟩

theorem lost_open (s t : Driver) (outcome : StartOutcome) (bmCookie : Addr)
    (opened : t = { s with world := s.world.unitTaskStart outcome } ∨
      t = { s with
        world :=
          { (s.world.unitTaskStart outcome).addOpener bmCookie with
            history := .session s.tasks.isEmpty :: s.world.history }
        tasks := .loopHead :: s.tasks }) : Loss s.ledger t.ledger := by
  have fields := started_fields s.world outcome
  rcases opened with rfl | rfl
  · exact lost_places _ _ rfl ⟨[], List.Perm.refl _⟩ (lost_start s.world outcome) fields
  · exact lost_places _ _ rfl ⟨[], List.Perm.refl _⟩ (lost_start s.world outcome) fields

theorem lost_teardown (ch : Channels) (s t : Driver) (i : Nat)
    (stepped : driverStep ch s (.teardown i) = some t) : Loss s.ledger t.ledger := by
  obtain ⟨done, rfl⟩ := teardown_step ch s t i stepped
  exact lost_places _ _ rfl ⟨[], flatMap_leave TaskPc.claim s.tasks i .drained done⟩
    (lost_port s.world.unit none rfl) ⟨rfl, rfl, rfl, rfl⟩

/-- A step takes one request in, hands requests over, or starts or ends a unit task. -/
theorem driver_step (ch : Channels) (s t : Driver) (a : Action)
    (stepped : driverStep ch s a = some t) :
    Intake Stage.promise s.ledger t.ledger ∨ Handed s t ∨
      (inSession s a = false ∧ Loss s.ledger t.ledger) := by
  cases a with
  | submit r q => exact .inl (taken_submit ch s t r q stepped)
  | abortIo r =>
      obtain rfl := Option.some.inj stepped
      exact .inr (.inl (handover_refl _ _ _))
  | call i e => exact .inr (.inl (handed_call ch s t i e stepped))
  | task i e => exact .inr (.inl (handed_task ch s t i e stepped))
  | signal more =>
      obtain rfl := Option.some.inj stepped
      exact .inr (.inl (handover_refl _ _ _))
  | dma ring mem =>
      obtain rfl := Option.some.inj stepped
      exact .inr (.inl (handover_refl _ _ _))
  | openDevice bmCookie allocated outcome =>
      rcases open_step ch s t bmCookie allocated outcome stepped with
        rfl | ⟨_, rfl⟩ | ⟨closed, _, rfl⟩ | ⟨closed, _, rfl⟩
      · exact .inr (.inl (handover_refl _ _ _))
      · exact .inr (.inl (handover_refl _ _ _))
      · exact .inr (.inr ⟨by simp [inSession, closed],
          lost_open s _ outcome bmCookie (.inl rfl)⟩)
      · exact .inr (.inr ⟨by simp [inSession, closed],
          lost_open s _ outcome bmCookie (.inr rfl)⟩)
  | closeDevice bmCookie =>
      obtain rfl := Option.some.inj stepped
      exact .inr (.inl (handed_close s bmCookie))
  | teardown i => exact .inr (.inr ⟨rfl, lost_teardown ch s t i stepped⟩)

theorem start_ledger (s : Driver) (calls : s.calls = []) (tasks : s.tasks.flatMap TaskPc.claim = [])
    (port : portPlaces s.world.unit.ioPort = []) (reads : ∀ c, s.world.unit.readList c = [])
    (events : s.world.unit.eventList = []) (submitted : s.world.submitted = [])
    (answers : s.world.answers = []) : Kept Stage.promise Answer.Fair s.ledger ∧
      Complete s.ledger := by
  have places : s.places = [] := by
    have ipv4 : s.world.unit.readListIpv4 = [] := reads .ipv4
    have arp : s.world.unit.readListArp = [] := reads .arp
    have other : s.world.unit.readListOther = [] := reads .other
    simp [Driver.places, stored, calls, tasks, port, events, ipv4, arp, other, readPlaces,
      eventPlaces]
  refine ⟨⟨?_, ?_, ?_, ?_⟩, ?_⟩
  · simp [Driver.ledger, ledger, Ledger.answered, Ledger.placed, Ledger.items, places, answers]
  · simp [Driver.ledger, ledger, Ledger.askedFor, submitted]
  · simp [Driver.ledger, ledger, Ledger.Promised, places]
  · simp [Driver.ledger, ledger, answers]
  · simp [Complete, Driver.ledger, ledger, Ledger.askedFor, Ledger.answered, Ledger.placed,
      Ledger.items, places, answers, submitted]

/-- In every run each request is in one place at most, and every place keeps its promise. -/
theorem kept_reached (ch : Channels) (s : Driver) (reached : (unitMachine ch).Reached s) :
    Kept Stage.promise Answer.Fair s.ledger := by
  refine (unitMachine ch).invariant (fun s => Kept Stage.promise Answer.Fair s.ledger)
    ?_ ?_ s reached
  · intro s cold
    exact (start_ledger s cold.calls (by simp [cold.tasks]) (by simp [cold.port, portPlaces])
      cold.reads cold.events cold.submitted cold.answers).1
  · intro s a t kept stepped
    rcases driver_step ch s t a stepped with taken | handed | ⟨_, lost⟩
    · exact kept_intake _ _ _ _ kept taken
    · exact kept_handover _ _ _ _ kept handed
    · exact kept_loss _ _ _ _ kept lost

theorem waiting_place (s : Driver) (r : ReqId) (queued : r ∈ s.world.unit.eventList) :
    (r, Stage.waiting) ∈ s.ledger.places := by
  simp only [Driver.ledger, ledger, Driver.places, stored, eventPlaces, List.mem_append,
    List.mem_map]
  right; right; right; right; right; left
  exact ⟨r, queued, rfl⟩

theorem waiting_promise (ch : Channels) (s : Driver) (reached : (unitMachine ch).Reached s)
    (r : ReqId) (queued : r ∈ s.world.unit.eventList) :
    Stage.waiting.promise (s.world.asked r, s.world.reqs r) :=
  (kept_reached ch s reached).promised _ (waiting_place s r queued)

theorem placed_pending (ch : Channels) (s : Driver) (reached : (unitMachine ch).Reached s)
    (r : ReqId) (placed : r ∈ s.ledger.items) : s.pending r = true := by
  have due := (kept_reached ch s reached).due r
  have here : 0 < s.ledger.placed r := List.count_pos_iff.mpr placed
  simp only [Ledger.askedFor, Ledger.answered, Driver.ledger, ledger] at due here
  simp only [Driver.pending, ne_eq, decide_eq_true_eq]
  omega

theorem session_reached (ch : Channels) (s : Driver) (reached : (sessionMachine ch).Reached s) :
    Kept Stage.promise Answer.Fair s.ledger ∧ Complete s.ledger := by
  refine (sessionMachine ch).invariant
    (fun s => Kept Stage.promise Answer.Fair s.ledger ∧ Complete s.ledger) ?_ ?_ s reached
  · intro s opened
    exact start_ledger s opened.calls (by simp [opened.tasks, TaskPc.claim])
      (by simp [opened.port, portPlaces]) opened.reads opened.events opened.submitted
      opened.answers
  · rintro s a t ⟨kept, complete⟩ moved
    obtain ⟨inside, stepped⟩ := session_step ch s t a moved
    rcases driver_step ch s t a stepped with taken | handed | ⟨outside, _⟩
    · exact ⟨kept_intake _ _ _ _ kept taken, complete_intake _ _ _ complete taken⟩
    · exact ⟨kept_handover _ _ _ _ kept handed, complete_handover _ _ _ _ complete handed⟩
    · rw [outside] at inside
      cases inside

/-- What the exit drain has emptied when the unit task is at this place. -/
def Emptied (u : PA6TEthUnit) : TaskPc → Prop
  | .exitDrain => True
  | .exitReply _ => True
  | .exitFlush => u.ioPort = some []
  | .exitFlushEvents => u.ioPort = some [] ∧ ∀ c, u.readList c = []
  | .drained => u.ioPort = some [] ∧ (∀ c, u.readList c = []) ∧ u.eventList = []
  | _ => False

/-- Only calls of `AbortIO` are in progress, and the only unit task is in its exit drain. -/
def Draining (s : Driver) : Prop :=
  (∀ c ∈ s.calls, c.begun = false) ∧ ∃ pc, s.tasks = [pc] ∧ Emptied s.world.unit pc

def StaysEmpty (u v : PA6TEthUnit) : Prop :=
  (u.ioPort = some [] → v.ioPort = some []) ∧ (∀ c, u.readList c = [] → v.readList c = []) ∧
    (u.eventList = [] → v.eventList = [])

theorem emptied_stays (u v : PA6TEthUnit) (pc : TaskPc) (stays : StaysEmpty u v)
    (emptied : Emptied u pc) : Emptied v pc := by
  obtain ⟨port, reads, events⟩ := stays
  cases pc with
  | exitDrain => trivial
  | exitReply r => trivial
  | exitFlush => exact port emptied
  | exitFlushEvents => exact ⟨port emptied.1, fun c => reads c (emptied.2 c)⟩
  | drained => exact ⟨port emptied.1, fun c => reads c (emptied.2.1 c), events emptied.2.2⟩
  | _ => exact emptied.elim

theorem abort_stays (ch : Channels) (e : CallEnv) (w v : World) (c : Call) (next : Option Call)
    (aborting : c.begun = false) (stepped : callStep ch e w c = some (v, next)) :
    StaysEmpty w.unit v.unit ∧ ∀ c' ∈ next, c'.begun = false := by
  have same : StaysEmpty w.unit w.unit := ⟨id, fun _ => id, id⟩
  cases c with
  | abortReads r =>
      simp only [callStep] at stepped
      split at stepped
      · obtain ⟨rfl, rfl⟩ := Prod.mk.inj (Option.some.inj stepped)
        exact ⟨same, by simp [Call.begun]⟩
      · rename_i c pr found
        obtain ⟨rfl, rfl⟩ := Prod.mk.inj (Option.some.inj stepped)
        refine ⟨⟨by simp, fun d empty => ?_, by simp⟩, by simp [Call.begun]⟩
        rw [PA6TEthUnit.readList_setReadList]
        split
        · rename_i here
          simp [← here, empty]
        · exact empty
  | abortEvents r =>
      simp only [callStep] at stepped
      split at stepped
      · obtain ⟨rfl, rfl⟩ := Prod.mk.inj (Option.some.inj stepped)
        exact ⟨⟨id, fun c => by cases c <;> exact id, fun empty => by simp [empty]⟩,
          by simp [Call.begun]⟩
      · obtain ⟨rfl, rfl⟩ := Prod.mk.inj (Option.some.inj stepped)
        exact ⟨same, by simp [Call.begun]⟩
  | abortPort r =>
      simp only [callStep] at stepped
      split at stepped
      · obtain ⟨rfl, rfl⟩ := Prod.mk.inj (Option.some.inj stepped)
        exact ⟨same, by simp⟩
      · rename_i port present
        split at stepped
        · obtain ⟨rfl, rfl⟩ := Prod.mk.inj (Option.some.inj stepped)
          refine ⟨⟨fun empty => ?_, fun c => by cases c <;> exact id, id⟩, by simp [Call.begun]⟩
          rw [present] at empty
          simp [Option.some.inj empty]
        · obtain ⟨rfl, rfl⟩ := Prod.mk.inj (Option.some.inj stepped)
          exact ⟨same, by simp⟩
  | abortReply r =>
      obtain ⟨rfl, rfl⟩ := Prod.mk.inj (Option.some.inj stepped)
      exact ⟨same, by simp⟩
  | _ => cases aborting

theorem flushReadQueue_reads (error : IoError) (w : World) (c : ReadClass) :
    (w.flushReadQueue error).unit.readList c = [] := by
  have events : ∀ u : PA6TEthUnit, ∀ list, ({ u with eventList := list } : PA6TEthUnit).readList c =
      u.readList c := fun u list => by cases c <;> rfl
  simp only [flushReadQueue, sweepEvents_unit, events, flushRead_unit,
    PA6TEthUnit.readList_setReadList]
  cases c <;> simp

theorem flushReadQueue_port (error : IoError) (w : World) :
    (w.flushReadQueue error).unit.ioPort = w.unit.ioPort := by
  simp only [flushReadQueue, sweepEvents_unit, flushRead_unit, PA6TEthUnit.setReadList_ioPort]

theorem sweep_all (answer : IOSana2Req → IOSana2Req) (via : Via) (ids : List ReqId) (w : World) :
    (sweep (fun _ => true) answer via ids w).2 = [] := by
  induction ids generalizing w with
  | nil => rfl
  | cons r rest ih =>
      rw [sweep, if_pos rfl]
      exact ih _

theorem drain_task (ch : Channels) (e : TaskEnv) (w v : World) (pc next : TaskPc)
    (emptied : Emptied w.unit pc) (stepped : taskStep ch e w pc = some (v, next)) :
    Emptied v.unit next := by
  cases pc with
  | exitDrain =>
      simp only [taskStep] at stepped
      split at stepped
      · cases stepped
      · rename_i empty
        obtain ⟨rfl, rfl⟩ := Prod.mk.inj (Option.some.inj stepped)
        exact empty
      · obtain ⟨rfl, rfl⟩ := Prod.mk.inj (Option.some.inj stepped)
        trivial
  | exitReply r =>
      obtain ⟨rfl, rfl⟩ := Prod.mk.inj (Option.some.inj stepped)
      trivial
  | exitFlush =>
      obtain ⟨rfl, rfl⟩ := Prod.mk.inj (Option.some.inj stepped)
      exact ⟨(flushReadQueue_port _ w).trans emptied, flushReadQueue_reads _ w⟩
  | exitFlushEvents =>
      obtain ⟨rfl, rfl⟩ := Prod.mk.inj (Option.some.inj stepped)
      refine ⟨?_, fun c => ?_, ?_⟩
      · simp only [flushRemaining, sweepEvents_unit]
        exact emptied.1
      · simp only [flushRemaining, sweepEvents_unit]
        have empty := emptied.2 c
        cases c <;> exact empty
      · simp only [flushRemaining, sweepEvents_unit, sweep_all]
  | drained => cases stepped
  | _ => exact emptied.elim

theorem close_stays (w : World) (bmCookie : Addr) :
    StaysEmpty w.unit (w.close bmCookie).unit := by
  simp only [close, unitTaskShutdown]
  split_ifs <;> exact ⟨id, fun c => by cases c <;> exact id, id⟩

def Action.isSubmit : Action → Bool
  | .submit _ _ => true
  | _ => false

theorem draining_step (ch : Channels) (s t : Driver) (a : Action) (draining : Draining s)
    (quiet : a.isSubmit = false) (moved : (sessionMachine ch).step s a = some t) : Draining t := by
  obtain ⟨aborting, pc, single, emptied⟩ := draining
  obtain ⟨inside, stepped⟩ := session_step ch s t a moved
  cases a with
  | submit r q => cases quiet
  | abortIo r =>
      obtain rfl := Option.some.inj stepped
      refine ⟨?_, pc, single, emptied⟩
      intro c member
      rcases List.mem_cons.mp member with rfl | old
      · rfl
      · exact aborting c old
  | call i e =>
      obtain ⟨c, w, next, present, called, rfl⟩ := call_step ch s t i e stepped
      have member : c ∈ s.calls := List.mem_of_getElem? present
      obtain ⟨stays, ending⟩ := abort_stays ch e s.world w c next (aborting c member) called
      refine ⟨?_, pc, single, emptied_stays _ _ pc stays emptied⟩
      intro d left
      cases next with
      | none => exact aborting d (List.mem_of_mem_eraseIdx left)
      | some next =>
          rcases List.mem_or_eq_of_mem_set left with old | rfl
          · exact aborting d old
          · exact ending d rfl
  | task i e =>
      obtain ⟨pc', w, next, present, ran, rfl⟩ := task_step ch s t i e stepped
      rw [single] at present
      obtain ⟨rfl, rfl⟩ : i = 0 ∧ pc' = pc := by
        cases i with
        | zero => exact ⟨rfl, by simpa using present.symm⟩
        | succ i => simp at present
      exact ⟨aborting, next, by simp [single], drain_task ch e s.world w _ next emptied ran⟩
  | signal more =>
      obtain rfl := Option.some.inj stepped
      exact ⟨aborting, pc, single, emptied⟩
  | dma ring mem =>
      obtain rfl := Option.some.inj stepped
      exact ⟨aborting, pc, single,
        emptied_stays _ _ pc ⟨id, fun c => by cases c <;> exact id, id⟩ emptied⟩
  | openDevice bmCookie allocated outcome =>
      rcases open_step ch s t bmCookie allocated outcome stepped with
        rfl | ⟨_, rfl⟩ | ⟨closed, _, rfl⟩ | ⟨closed, _, rfl⟩
      · exact ⟨aborting, pc, single, emptied⟩
      · exact ⟨aborting, pc, single,
          emptied_stays _ _ pc ⟨id, fun c => by cases c <;> exact id, id⟩ emptied⟩
      · simp [inSession, closed] at inside
      · simp [inSession, closed] at inside
  | closeDevice bmCookie =>
      obtain rfl := Option.some.inj stepped
      exact ⟨aborting, pc, single, emptied_stays _ _ pc (close_stays s.world bmCookie) emptied⟩
  | teardown i => cases inside

namespace Driver

/-- In how many places a request is: with the executing steps of calls and of the unit task, in
each read list, in the event list and in the port. -/
def placeCount (s : Driver) (r : ReqId) : Nat :=
  ((s.calls.flatMap Call.claim).map Prod.fst).count r +
    ((s.tasks.flatMap TaskPc.claim).map Prod.fst).count r +
    (s.world.unit.readListIpv4.map fun pr => pr.ioreq).count r +
    (s.world.unit.readListArp.map fun pr => pr.ioreq).count r +
    (s.world.unit.readListOther.map fun pr => pr.ioreq).count r +
    s.world.unit.eventList.count r + (s.world.unit.ioPort.getD []).count r

def completions (s : Driver) (r : ReqId) : Nat := (s.world.answers.map Prod.fst).count r

end Driver

theorem placeCount_eq (s : Driver) (r : ReqId) : s.ledger.placed r = s.placeCount r := by
  simp only [Ledger.placed, Ledger.items, Driver.ledger, ledger, Driver.places, stored,
    readPlaces, eventPlaces, portPlaces, List.map_append, List.count_append, List.map_map,
    Driver.placeCount]
  simp only [Function.comp_def, List.map_id']
  omega

/-- A submitted request that is not completed is in exactly one place, any other in none; a
request is completed at most once for each time it is submitted, by a reply without the quick
bit or by a return with it; and an exit drain during which no `BeginIO` runs leaves every queue
empty. -/
theorem request_conservation (ch : Channels) (s : Driver)
    (reached : (sessionMachine ch).Reached s) :
    (∀ r, s.placeCount r = if s.pending r then 1 else 0) ∧
    (∀ r, s.completions r ≤ s.world.submitted.count r ∧
      s.world.submitted.count r ≤ s.completions r + 1) ∧
    (∀ answer ∈ s.world.answers, answer.2.QuickRight) ∧
    (s.tasks = [.exitDrain] → (∀ c ∈ s.calls, c.begun = false) →
      ∀ actions t, (∀ a ∈ actions, a.isSubmit = false) →
        (sessionMachine ch).run s actions = some t → t.tasks = [.drained] →
        (∀ c, t.world.unit.readList c = []) ∧ t.world.unit.eventList = [] ∧
          t.world.unit.ioPort = some []) := by
  obtain ⟨kept, complete⟩ := session_reached ch s reached
  have balance : ∀ r, s.world.submitted.count r = s.completions r + s.placeCount r := by
    intro r
    rw [← placeCount_eq]
    exact complete r
  have single : ∀ r, s.world.submitted.count r ≤ s.completions r + 1 := fun r => kept.single r
  refine ⟨?_, ?_, fun answer member => fair_quick answer (kept.just answer member), ?_⟩
  · intro r
    have total := balance r
    have once := single r
    by_cases due : s.pending r = true
    · rw [if_pos due]
      simp only [Driver.pending, ne_eq, decide_eq_true_eq] at due
      simp only [Driver.completions] at total once
      omega
    · rw [if_neg due]
      simp only [Driver.pending, ne_eq, decide_eq_true_eq, not_not] at due
      simp only [Driver.completions] at total
      omega
  · intro r
    have total := balance r
    have once := single r
    omega
  · intro exiting aborting actions t quiet ran done
    obtain ⟨_, pc, last, emptied⟩ := (sessionMachine ch).run_invariant Draining
      (fun a => a.isSubmit = false) (fun s a t => draining_step ch s t a) s t actions quiet
      ⟨aborting, .exitDrain, exiting, trivial⟩ ran
    rw [done] at last
    obtain rfl : TaskPc.drained = pc := by simpa using last
    exact ⟨emptied.2.1, emptied.2.2, emptied.1⟩

/-- A client's event request is queued, the last opener closes, and the unit task drains. -/
theorem request_conservation_drain :
    ∃ s t, (sessionMachine ⟨0, 0, 0⟩).run openedDriver
        [.submit 1 (request .onEvent 0#32 0 0#32), .call 0 callEnv, .call 0 callEnv,
          .task 0 taskEnv, .closeDevice 0x77, .task 0 taskEnv, .task 0 taskEnv,
          .task 0 taskEnv, .task 0 taskEnv, .task 0 taskEnv] = some s ∧
      s.placeCount 1 = 1 ∧
      (sessionMachine ⟨0, 0, 0⟩).run s
        [.task 0 taskEnv, .task 0 taskEnv, .task 0 taskEnv] = some t ∧
      (∀ c, t.world.unit.readList c = []) ∧ t.world.unit.eventList = [] ∧
      t.world.unit.ioPort = some [] := by
  have front : ((sessionMachine ⟨0, 0, 0⟩).run openedDriver
      [.submit 1 (request .onEvent 0#32 0 0#32), .call 0 callEnv, .call 0 callEnv,
        .task 0 taskEnv, .closeDevice 0x77, .task 0 taskEnv, .task 0 taskEnv,
        .task 0 taskEnv, .task 0 taskEnv, .task 0 taskEnv]).map
      (fun s => (s.tasks, s.pending 1, s.calls.length,
        ((sessionMachine ⟨0, 0, 0⟩).run s
          [.task 0 taskEnv, .task 0 taskEnv, .task 0 taskEnv]).map (fun t => t.tasks))) =
      some ([.exitDrain], true, 0, some [.drained]) := by
    decide +kernel
  obtain ⟨s, ran, shape⟩ := Option.map_eq_some_iff.mp front
  simp only [Prod.mk.injEq] at shape
  obtain ⟨exiting, due, idle, last⟩ := shape
  obtain ⟨t, drained, done⟩ := Option.map_eq_some_iff.mp last
  have reached := (sessionMachine ⟨0, 0, 0⟩).run_reached _ _ _
    (.start _ openedDriver_opened) ran
  obtain ⟨places, _, _, drain⟩ := request_conservation ⟨0, 0, 0⟩ s reached
  have alone : ∀ c ∈ s.calls, c.begun = false := by
    simp [List.length_eq_zero_iff.mp idle]
  refine ⟨s, t, ran, ?_, drained, drain exiting alone _ t ?_ drained done⟩
  · rw [places 1, if_pos due]
  · simp [Action.isSubmit]

end Pa6tEth

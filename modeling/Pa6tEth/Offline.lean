import Pa6tEth.Events

/-! Reads and orphan reads on an offline unit. -/

namespace Pa6tEth

open Support World

def NoReader (w : World) : Prop :=
  (∀ c, w.unit.readList c = []) ∧ ∀ r ∈ w.unit.eventList, (w.asked r).command ≠ .readOrphan

/-- The unit is offline, its unit task is blocked in `Wait`, and no request is on its way. -/
structure IdleOffline (s : Driver) : Prop where
  offline : s.world.unit.online = false
  running : s.tasks ≠ []
  waiting : ∀ pc ∈ s.tasks, pc = .waiting
  unsignalled : s.world.signals.pending = false
  port : s.world.unit.ioPort = some []
  calls : ∀ c ∈ s.calls, c.begun = false

def TaskOp.isFlush : TaskOp → Bool
  | flushReadQueue _ => true
  | _ => false

def TaskPc.flushDue : TaskPc → Bool
  | handling _ ops _ => ops.any TaskOp.isFlush
  | _ => false

/-- A reader is linked while the unit is online, or before its handler flushes the readers. -/
def linksInTime (s : Driver) : Action → Bool
  | .call i _ =>
      let inTime := s.world.unit.online || s.tasks.any TaskPc.flushDue
      match s.calls[i]? with
      | some (.addingRead _ _) => inTime
      | some (.addingEvent r) => (s.world.asked r).command != .readOrphan || inTime
      | _ => true
  | _ => true

/-- An offline unit has no readers, or its handler is still to flush them. -/
def Cleared (s : Driver) : Prop :=
  s.world.unit.online = false → NoReader s.world ∨ ∃ pc ∈ s.tasks, pc.flushDue = true

theorem calm_noReader (w v : World) (calm : Calm w v) (none : NoReader w) : NoReader v := by
  refine ⟨fun c => calm.reads c (none.1 c), fun r queued => ?_⟩
  rw [calm.asked]
  exact none.2 r (calm.events queued)

theorem flushReadQueue_noReader (error : IoError) (w : World)
    (commands : ∀ r ∈ w.unit.eventList, (w.reqs r).command = (w.asked r).command) :
    NoReader (w.flushReadQueue error) := by
  have calm := flushReadQueue_calm error w
  refine ⟨flushReadQueue_reads error w, fun r queued => ?_⟩
  have before := commands r (calm.events queued)
  rw [flushReadQueue, sweepEvents_unit] at queued
  have unpicked := (sweep_left (fun q => decide (q.command = .readOrphan)) (flushed error) .flush
    (fun _ => rfl) _ _ r queued).2
  simp only [flushRead_command, before, decide_eq_false_iff_not] at unpicked
  rw [calm.asked]
  exact unpicked

theorem due_set (tasks : List TaskPc) (i : Nat) (pc next : TaskPc) (present : tasks[i]? = some pc)
    (kept : pc.flushDue = true → next.flushDue = true)
    (due : ∃ pc ∈ tasks, pc.flushDue = true) : ∃ pc ∈ tasks.set i next, pc.flushDue = true := by
  obtain ⟨pc', member, flush⟩ := due
  obtain ⟨j, at_j⟩ := List.mem_iff_getElem?.mp member
  by_cases here : j = i
  · subst here
    rw [present] at at_j
    obtain rfl := Option.some.inj at_j
    exact ⟨next, List.mem_set (List.getElem?_eq_some_iff.mp present).1 next, kept flush⟩
  · refine ⟨pc', List.mem_iff_getElem?.mpr ⟨j, ?_⟩, flush⟩
    rw [List.getElem?_set_ne (Ne.symm here)]
    exact at_j

theorem due_eraseIdx (tasks : List TaskPc) (i : Nat) (done : tasks[i]? = some .drained)
    (due : ∃ pc ∈ tasks, pc.flushDue = true) : ∃ pc ∈ tasks.eraseIdx i, pc.flushDue = true := by
  obtain ⟨pc, member, flush⟩ := due
  obtain ⟨j, at_j⟩ := List.mem_iff_getElem?.mp member
  refine ⟨pc, List.mem_eraseIdx_iff_getElem?.mpr ⟨j, ?_, at_j⟩, flush⟩
  rintro rfl
  rw [done] at at_j
  obtain rfl := Option.some.inj at_j
  cases flush

theorem cleared_calm (s t : Driver) (calm : Calm s.world t.world)
    (due : (∃ pc ∈ s.tasks, pc.flushDue = true) → ∃ pc ∈ t.tasks, pc.flushDue = true)
    (cleared : Cleared s) : Cleared t := by
  intro offline
  rw [calm.online] at offline
  exact (cleared offline).imp (calm_noReader _ _ calm) due

theorem cleared_submit (ch : Channels) (s t : Driver) (r : ReqId) (q : IOSana2Req)
    (reached : (unitMachine ch).Reached s) (cleared : Cleared s)
    (stepped : driverStep ch s (.submit r q) = some t) : Cleared t := by
  obtain ⟨settled, rfl⟩ := submit_step ch s t r q stepped
  intro offline
  refine (cleared offline).imp_left fun none => ⟨none.1, fun r' queued => ?_⟩
  have other : r' ≠ r := by
    rintro rfl
    have placed : r' ∈ s.ledger.items := by
      simp only [Ledger.items, List.mem_map]
      exact ⟨_, waiting_place s r' queued, rfl⟩
    rw [placed_pending ch s reached r' placed] at settled
    cases settled
  simp only [Function.update_of_ne other]
  exact none.2 r' queued

theorem cleared_call (ch : Channels) (s t : Driver) (i : Nat) (e : CallEnv)
    (inTime : linksInTime s (.call i e) = true) (cleared : Cleared s)
    (stepped : driverStep ch s (.call i e) = some t) : Cleared t := by
  obtain ⟨c, w, next, present, moved, rfl⟩ := call_step ch s t i e stepped
  have early : (s.world.unit.online || s.tasks.any TaskPc.flushDue) = true →
      s.world.unit.online = false → ∃ pc ∈ s.tasks, pc.flushDue = true := by
    intro inTime offline
    simpa [offline] using inTime
  simp only [linksInTime, present] at inTime
  cases c with
  | addingRead pr c =>
      obtain ⟨rfl, rfl⟩ := Prod.mk.inj (Option.some.inj moved)
      intro offline
      simp only [PA6TEthUnit.setReadList_online] at offline
      exact .inr (early inTime offline)
  | addingEvent r =>
      obtain ⟨rfl, rfl⟩ := Prod.mk.inj (Option.some.inj moved)
      intro offline
      rw [Bool.or_eq_true] at inTime
      rcases inTime with event | inTime
      · refine (cleared offline).imp_left fun none => ⟨fun c => ?_, fun r' queued => ?_⟩
        · have empty := none.1 c
          cases c <;> exact empty
        · rcases List.mem_append.mp queued with old | new
          · exact none.2 r' old
          · obtain rfl := List.mem_singleton.mp new
            simpa using event
      · exact .inr (early inTime offline)
  | _ => exact cleared_calm _ _ (call_calm ch e s.world w _ next rfl moved) id cleared

theorem task_due (ch : Channels) (e : TaskEnv) (w v : World) (pc next : TaskPc)
    (unflushed : ∀ r error ops fin, pc ≠ .handling r (.flushReadQueue error :: ops) fin)
    (due : pc.flushDue = true) (stepped : taskStep ch e w pc = some (v, next)) :
    next.flushDue = true := by
  cases pc with
  | handling r ops fin =>
      cases ops with
      | nil => cases due
      | cons op ops =>
          obtain ⟨rfl, rfl⟩ := Prod.mk.inj (Option.some.inj stepped)
          cases op with
          | flushReadQueue error => exact absurd rfl (unflushed r error ops fin)
          | _ => simpa [TaskPc.flushDue, TaskOp.isFlush] using due
  | _ => cases due

theorem commandOps_flush (now : Bool) (c : Command) (ops : List TaskOp)
    (ending : .setOnline false :: ops <:+ (commandOps now c).1) :
    ops.any TaskOp.isFlush = true := by
  have up : ¬ .setOnline false :: ops <:+ goOnline now := by
    intro ending
    have member := ending.subset List.mem_cons_self
    cases now <;> simp [goOnline] at member
  cases c with
  | configInterface => exact absurd ending up
  | online => exact absurd ending up
  | offline =>
      simp only [commandOps, List.suffix_cons_iff, List.suffix_nil, List.cons.injEq] at ending
      rcases ending with ⟨_, rfl⟩ | ⟨first, _⟩ | ⟨first, _⟩ | none
      · rfl
      · cases first
      · cases first
      · cases none
  | cmdFlush =>
      have member := ending.subset List.mem_cons_self
      simp [commandOps] at member
  | _ => cases ending.subset List.mem_cons_self

theorem cleared_task (ch : Channels) (s t : Driver) (i : Nat) (e : TaskEnv)
    (reached : (unitMachine ch).Reached s) (cleared : Cleared s)
    (stepped : driverStep ch s (.task i e) = some t) : Cleared t := by
  obtain ⟨pc, w, next, present, ran, rfl⟩ := task_step ch s t i e stepped
  by_cases turns : pc.turns = true
  · obtain ⟨r, online, ops, fin, rfl⟩ := turns_handling pc turns
    obtain ⟨rfl, rfl⟩ := Prod.mk.inj (Option.some.inj ran)
    intro offline
    obtain rfl : online = false := offline
    obtain ⟨now, c, ending⟩ := tasks_reached ch OfCommand trivial (ofCommand_step ch) s reached
      _ (List.mem_of_getElem? present)
    exact .inr ⟨_, List.mem_set (List.getElem?_eq_some_iff.mp present).1 _,
      commandOps_flush now c ops ending⟩
  · have calm := task_calm ch e s.world w pc next (by simpa using turns) ran
    by_cases flushes : ∃ r error ops fin, pc = .handling r (.flushReadQueue error :: ops) fin
    · obtain ⟨r, error, ops, fin, rfl⟩ := flushes
      obtain ⟨rfl, rfl⟩ := Prod.mk.inj (Option.some.inj ran)
      refine fun _ => .inl (flushReadQueue_noReader error s.world fun r queued => ?_)
      exact (waiting_promise ch s reached r queued).2.2.2.1
    · exact cleared_calm
        { s with world := { s.world with history := taken s.world pc ++ s.world.history } } _ calm
        (due_set s.tasks i pc next present fun due => task_due ch e s.world w pc next
          (fun r error ops fin same => flushes ⟨r, error, ops, fin, same⟩) due ran) cleared

theorem cleared_step (ch : Channels) (s t : Driver) (a : Action)
    (reached : (unitMachine ch).Reached s) (inTime : linksInTime s a = true) (cleared : Cleared s)
    (stepped : driverStep ch s a = some t) : Cleared t := by
  cases a with
  | submit r q => exact cleared_submit ch s t r q reached cleared stepped
  | call i e => exact cleared_call ch s t i e inTime cleared stepped
  | task i e => exact cleared_task ch s t i e reached cleared stepped
  | openDevice bmCookie allocated outcome =>
      have started := unitTaskStart_calm s.world outcome
      rcases open_step ch s t bmCookie allocated outcome stepped with
        rfl | ⟨_, rfl⟩ | ⟨_, _, rfl⟩ | ⟨_, _, rfl⟩
      · exact cleared
      · exact cleared_calm s _ (calm_unit _ _ rfl rfl rfl (fun c => by cases c <;> rfl) rfl) id
          cleared
      · exact cleared_calm s _ started id cleared
      · refine cleared_calm
          { s with world := { s.world with history := .session s.tasks.isEmpty :: s.world.history } }
          _ ⟨started.online, started.asked, rfl, fun c empty => ?_, started.events⟩ ?_ cleared
        · have empty := started.reads c empty
          cases c <;> exact empty
        · rintro ⟨pc, member, due⟩
          exact ⟨pc, List.mem_cons_of_mem _ member, due⟩
  | closeDevice bmCookie =>
      obtain rfl := Option.some.inj stepped
      exact cleared_calm s _ (close_calm s.world bmCookie) id cleared
  | teardown i =>
      obtain ⟨done, rfl⟩ := teardown_step ch s t i stepped
      exact cleared_calm s _ (calm_unit _ _ rfl rfl rfl (fun c => by cases c <;> rfl) rfl)
        (due_eraseIdx s.tasks i done) cleared
  | _ =>
      obtain rfl := Option.some.inj stepped
      exact cleared_calm s _ (calm_unit _ _ rfl rfl rfl (fun c => by cases c <;> rfl) rfl) id
        cleared

/-- When readers are only ever linked in time, none waits on an offline unit. -/
theorem nothing_waits (ch : Channels) (s : Driver)
    (reached : ((unitMachine ch).allow linksInTime).Reached s) (idle : IdleOffline s) :
    NoReader s.world := by
  have cleared := ((unitMachine ch).allow linksInTime).invariant_within Cleared
    (fun s cold _ => .inl ⟨cold.reads, by simp [cold.events]⟩)
    (fun s a t reached cleared stepped => by
      obtain ⟨inTime, moved⟩ := (unitMachine ch).allow_step linksInTime s t a stepped
      exact cleared_step ch s t a ((unitMachine ch).reached_allow linksInTime s reached) inTime
        cleared moved) s reached
  refine (cleared idle.offline).resolve_right ?_
  rintro ⟨pc, member, due⟩
  rw [idle.waiting pc member] at due
  cases due

def isIdleOffline (s : Driver) : Bool :=
  !s.world.unit.online && decide (s.tasks = [.waiting]) && !s.world.signals.pending &&
    decide (s.world.unit.ioPort = some []) && s.calls.isEmpty

theorem isIdleOffline_idle (s : Driver) (checked : isIdleOffline s = true) : IdleOffline s := by
  simp only [isIdleOffline, Bool.and_eq_true, Bool.not_eq_true', decide_eq_true_eq,
    List.isEmpty_iff] at checked
  obtain ⟨⟨⟨⟨offline, tasks⟩, unsignalled⟩, port⟩, calls⟩ := checked
  exact ⟨offline, by simp [tasks], by simp [tasks], unsignalled, port, by simp [calls]⟩

/-- `S2_OFFLINE` and the unit task's way to its next `Wait`. -/
def goOffline : List Action :=
  submitted 3 (request .offline 0#32 0 0#32) ++ List.replicate 11 (.task 0 taskEnv)

/-- A read that is queued in time is flushed. -/
theorem nothing_waits_read :
    ∃ s, (unitMachine ⟨0, 0, 0⟩).Reached s ∧ IdleOffline s ∧ s.pending 2 = false ∧
      NoReader s.world := by
  have ran : ((((unitMachine ⟨0, 0, 0⟩).allow linksInTime).run coldDriver
      (sessionUp ++ submitted 2 (request .cmdRead 0x0800#32 0x500 0#32) ++ goOffline)).map
        fun s => (isIdleOffline s, s.pending 2)) = some (true, false) := by
    decide +kernel
  obtain ⟨s, reached, shape⟩ := ((unitMachine ⟨0, 0, 0⟩).allow linksInTime).run_shape
    _ _ coldDriver _ (.start _ coldDriver_cold) ran
  obtain ⟨shape, flushed⟩ := Prod.mk.inj shape
  have idle := isIdleOffline_idle s shape
  exact ⟨s, (unitMachine ⟨0, 0, 0⟩).reached_allow linksInTime s reached, idle, flushed,
    nothing_waits ⟨0, 0, 0⟩ s reached idle⟩

/-- A read linked after the flush waits on the offline unit, and so does an orphan read that is
submitted to it. -/
theorem readers_wait_offline :
    (∃ s, (unitMachine ⟨0, 0, 0⟩).Reached s ∧ IdleOffline s ∧ s.world.unit.readListIpv4 ≠ []) ∧
    ∃ s, (unitMachine ⟨0, 0, 0⟩).Reached s ∧ IdleOffline s ∧
      ∃ r ∈ s.world.unit.eventList, (s.world.asked r).command = .readOrphan := by
  constructor
  · obtain ⟨s, reached, shape⟩ := (unitMachine ⟨0, 0, 0⟩).run_shape
      (fun s => (isIdleOffline s, s.world.unit.readListIpv4))
      (true, [⟨0x900, 2⟩]) coldDriver
      (sessionUp ++ [.submit 2 (request .cmdRead 0x0800#32 0x500 0#32), .call 0 callEnv] ++
        goOffline ++ [.call 0 callEnv])
      (.start _ coldDriver_cold) (by decide +kernel)
    obtain ⟨shape, list⟩ := Prod.mk.inj shape
    exact ⟨s, reached, isIdleOffline_idle s shape, by simp [list]⟩
  · obtain ⟨s, reached, shape⟩ := (unitMachine ⟨0, 0, 0⟩).run_shape
      (fun s => (isIdleOffline s, s.world.unit.eventList, (s.world.asked 2).command))
      (true, [2], .readOrphan) coldDriver
      (.openDevice 0x77 true .started ::
        submitted 2 (request .readOrphan 0#32 0x500 0#32) ++ [.task 0 taskEnv])
      (.start _ coldDriver_cold) (by decide +kernel)
    simp only [Prod.mk.injEq] at shape
    obtain ⟨shape, list, command⟩ := shape
    exact ⟨s, reached, isIdleOffline_idle s shape, 2, by simp [list], command⟩

end Pa6tEth

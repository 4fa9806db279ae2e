import Pa6tEth.Events
import Pa6tEth.Sessions
import Pa6tEth.Support.Switch

/-! `unit->online` and its broadcasts in one session of the unit task, as a switch that announces
its turns. -/

namespace Pa6tEth

open Support World

def onlineTurn (s t : Driver) : List (SwitchEvent (BitVec 32)) :=
  if t.world.unit.online = s.world.unit.online then [] else [.turned t.world.unit.online]

def placeBroadcast : TaskPc → List (SwitchEvent (BitVec 32))
  | .handling _ (.signalEvent event :: _) _ => [.announced event]
  | _ => []

def stepBroadcast (s : Driver) : Action → List (SwitchEvent (BitVec 32))
  | .task i _ => ((s.tasks[i]?).map placeBroadcast).getD []
  | _ => []

/-- What a step of the driver does to `online`, and the broadcast that it makes. -/
def linkEvents (ch : Channels) (s : Driver) (a : Action) : List (SwitchEvent (BitVec 32)) :=
  ((driverStep ch s a).map (onlineTurn s)).getD [] ++ stepBroadcast s a

/-- The runs of a unit task from its start on, as long as it is the only one. -/
def linkMachine (ch : Channels) : Machine Driver Action := (unitMachine ch).allow inSession

/-- The broadcasts are in turn the two events, from the one on that the unit was not at, and each
comes right after `online` has changed to what it says. -/
structure LinkAlternates (online : Bool) (log : List (SwitchEvent (BitVec 32))) : Prop where
  alternates : ∃ n, announcements log = alternation eventOf online n
  coincides : ∀ before after event, log = before ++ .announced event :: after →
    ∃ front now, before = front ++ [.turned now] ∧ event = eventOf now

/-- The unit is still online when the task takes up an `S2_OFFLINE`. -/
def offlineInTime (s : Driver) : Action → Bool
  | .task i _ =>
      match s.tasks[i]? with
      | some (.received r) => (s.world.reqs r).command != .offline || s.world.unit.online
      | _ => true
  | _ => true

def opEvents : TaskOp → List (SwitchEvent (BitVec 32))
  | .setOnline online => [.turned online]
  | .signalEvent event => [.announced event]
  | _ => []

def pendingEvents : TaskPc → List (SwitchEvent (BitVec 32))
  | .handling _ ops _ => ops.flatMap opEvents
  | _ => []

theorem command_turns (online : Bool) (c : Command) (inTime : (c != .offline || online) = true) :
    ∃ now, (switchMachine eventOf).run ⟨online, false⟩ ((commandOps online c).1.flatMap opEvents) =
      some ⟨now, false⟩ := by
  cases c with
  | configInterface => cases online <;> exact ⟨true, rfl⟩
  | online => cases online <;> exact ⟨true, rfl⟩
  | offline =>
      obtain rfl : online = true := by simpa using inTime
      exact ⟨false, rfl⟩
  | _ => exact ⟨online, rfl⟩

/-- The one unit task of a session, with the switch where the log has left it: what the task still
has to do ends with nothing owed. -/
structure LinkKept (start : Bool) (s : Driver) (log : List (SwitchEvent (BitVec 32))) : Prop where
  held : ∃ pc owes now, s.tasks = [pc] ∧
    (switchMachine eventOf).run ⟨start, false⟩ log = some ⟨s.world.unit.online, owes⟩ ∧
    (switchMachine eventOf).run ⟨s.world.unit.online, owes⟩ (pendingEvents pc) = some ⟨now, false⟩

/-- A step that changes neither `online` nor the task. -/
theorem linkKept_same (start : Bool) (s t : Driver) (log : List (SwitchEvent (BitVec 32)))
    (tasks : t.tasks = s.tasks) (online : t.world.unit.online = s.world.unit.online)
    (kept : LinkKept start s log) : LinkKept start t log := by
  obtain ⟨pc, owes, now, one, before, after⟩ := kept.held
  exact ⟨pc, owes, now, tasks.trans one, by rw [online]; exact before,
    by rw [online]; exact after⟩

theorem linkEvents_same (ch : Channels) (s t : Driver) (a : Action)
    (stepped : driverStep ch s a = some t) (online : t.world.unit.online = s.world.unit.online)
    (quiet : stepBroadcast s a = []) : linkEvents ch s a = [] := by
  simp only [linkEvents, stepped, Option.map_some, Option.getD_some, onlineTurn, if_pos online,
    quiet, List.append_nil]

theorem op_events (ch : Channels) (s : Driver) (i : Nat) (e : TaskEnv) (r : ReqId) (op : TaskOp)
    (ops : List TaskOp) (fin : Finish) (u : Switch) (owes : Bool)
    (present : s.tasks[i]? = some (.handling r (op :: ops) fin))
    (turns : (switchMachine eventOf).run ⟨s.world.unit.online, owes⟩ (opEvents op) = some u) :
    (runOp ch e s.world op).unit.online = u.on ∧ linkEvents ch s (.task i e) = opEvents op := by
  have stepped : driverStep ch s (.task i e) =
      some { s with
        world := runOp ch e s.world op
        tasks := s.tasks.set i (.handling r ops fin) } := by
    simp only [driverStep, present, taskStep, Option.map_some]
  cases op with
  | setOnline now =>
      obtain ⟨v, turned, last⟩ := Machine.run_cons _ _ u _ [] turns
      obtain rfl := Option.some.inj last
      obtain ⟨_, other, rfl⟩ := switch_turned eventOf _ v now turned
      have changed : now ≠ s.world.unit.online := by simp [other]
      refine ⟨rfl, ?_⟩
      simp only [linkEvents, stepped, Option.map_some, Option.getD_some, onlineTurn, runOp,
        if_neg changed, stepBroadcast, present, placeBroadcast, List.append_nil, opEvents]
  | signalEvent event =>
      obtain ⟨v, announced, last⟩ := Machine.run_cons _ _ u _ [] turns
      obtain rfl := Option.some.inj last
      obtain ⟨_, _, rfl⟩ := switch_announced eventOf _ v event announced
      have online := (runOp_calm ch e s.world (.signalEvent event) (by simp)).online
      refine ⟨online, ?_⟩
      simp only [linkEvents, stepped, Option.map_some, Option.getD_some, onlineTurn, if_pos online,
        stepBroadcast, present, placeBroadcast, List.nil_append, opEvents]
  | postRxBuffers =>
      obtain rfl := Option.some.inj turns
      exact ⟨rfl, linkEvents_same ch s _ _ stepped rfl (by simp [stepBroadcast, present, placeBroadcast])⟩
  | flushReadQueue error =>
      obtain rfl := Option.some.inj turns
      have online := (runOp_calm ch e s.world (.flushReadQueue error) (by simp)).online
      exact ⟨online, linkEvents_same ch s _ _ stepped online
        (by simp [stepBroadcast, present, placeBroadcast])⟩

theorem linkKept_task (ch : Channels) (start : Bool) (s t : Driver)
    (log : List (SwitchEvent (BitVec 32))) (i : Nat) (e : TaskEnv) (kept : LinkKept start s log)
    (inTime : offlineInTime s (.task i e) = true) (stepped : driverStep ch s (.task i e) = some t) :
    LinkKept start t (log ++ linkEvents ch s (.task i e)) := by
  obtain ⟨pc, owes, final, one, before, after⟩ := kept.held
  obtain ⟨pc', w, next, present, ran, rfl⟩ := task_step ch s t i e stepped
  obtain ⟨rfl, rfl⟩ : pc = pc' ∧ i = 0 := by
    rw [one] at present
    obtain ⟨small, rfl⟩ := List.getElem?_eq_some_iff.mp present
    obtain rfl : i = 0 := by simpa using small
    exact ⟨rfl, rfl⟩
  have still : s.tasks.set 0 next = [next] := by rw [one]; rfl
  by_cases handles : ∃ r ops fin, next = .handling r ops fin
  · obtain ⟨r, ops, fin, rfl⟩ := handles
    rcases handling_step ch e s.world w pc r ops fin ran with ⟨rfl, rfl⟩ | ⟨op, rfl⟩
    · -- The command is taken up; nothing is owed from the one before.
      obtain ⟨rfl, rfl⟩ := Switch.mk.inj (Option.some.inj after)
      have online : w.unit.online = s.world.unit.online :=
        (task_calm ch e s.world w _ _ rfl ran).online
      rw [linkEvents_same ch s _ _ stepped online
        (by simp [stepBroadcast, present, placeBroadcast]), List.append_nil]
      obtain ⟨now, turns⟩ := command_turns s.world.unit.online (s.world.reqs r).command
        (by simpa only [offlineInTime, present] using inTime)
      exact ⟨_, false, now, still, by rw [online]; exact before, by rw [online]; exact turns⟩
    · -- One of its actions is done, and the switch makes the same step.
      have split : pendingEvents (.handling r (op :: ops) fin) = opEvents op ++ ops.flatMap opEvents :=
        List.flatMap_cons
      rw [split, Machine.run_append, Option.bind_eq_some_iff] at after
      obtain ⟨u, turns, later⟩ := after
      obtain ⟨online, events⟩ := op_events ch s 0 e r op ops fin u owes present turns
      obtain ⟨rfl, _⟩ := Prod.mk.inj (Option.some.inj ran)
      refine ⟨_, u.owes, final, still, ?_, ?_⟩
      · rw [events, Machine.run_append, before, Option.bind_some, turns, online]
      · rw [online]
        exact later
  · -- Every other step leaves `online` alone and has nothing to broadcast.
    have quiet : pc.turns = false ∧ placeBroadcast pc = [] ∧ pendingEvents pc = [] := by
      cases pc with
      | handling r ops fin =>
          cases ops with
          | nil => exact ⟨rfl, rfl, rfl⟩
          | cons op ops =>
              obtain ⟨_, rfl⟩ := Prod.mk.inj (Option.some.inj ran)
              exact absurd ⟨r, ops, fin, rfl⟩ handles
      | _ => exact ⟨rfl, rfl, rfl⟩
    have idle : pendingEvents next = [] := by
      cases next with
      | handling r ops fin => exact absurd ⟨r, ops, fin, rfl⟩ handles
      | _ => rfl
    have online : w.unit.online = s.world.unit.online :=
      (task_calm ch e s.world w pc next quiet.1 ran).online
    rw [linkEvents_same ch s _ _ stepped online (by simp [stepBroadcast, present, quiet.2.1]),
      List.append_nil]
    rw [quiet.2.2] at after
    exact ⟨next, owes, final, still, by rw [online]; exact before,
      by rw [online, idle]; exact after⟩

theorem linkKept_step (ch : Channels) (start : Bool) (s t : Driver)
    (log : List (SwitchEvent (BitVec 32))) (a : Action) (kept : LinkKept start s log)
    (session : inSession s a = true) (inTime : offlineInTime s a = true)
    (stepped : driverStep ch s a = some t) : LinkKept start t (log ++ linkEvents ch s a) := by
  have same : t.tasks = s.tasks → t.world.unit.online = s.world.unit.online →
      stepBroadcast s a = [] → LinkKept start t (log ++ linkEvents ch s a) := by
    intro tasks online quiet
    rw [linkEvents_same ch s t a stepped online quiet, List.append_nil]
    exact linkKept_same start s t log tasks online kept
  cases a with
  | submit r q =>
      obtain ⟨_, rfl⟩ := submit_step ch s t r q stepped
      exact same rfl rfl rfl
  | call i e =>
      obtain ⟨c, w, next, _, moved, rfl⟩ := call_step ch s t i e stepped
      exact same rfl (call_online ch e s.world w c next moved).1 rfl
  | task i e => exact linkKept_task ch start s t log i e kept inTime stepped
  | openDevice bmCookie allocated outcome =>
      have opened : s.world.unit.openCount ≠ 0 := by simpa [inSession] using session
      rcases open_step ch s t bmCookie allocated outcome stepped with
        rfl | ⟨_, rfl⟩ | ⟨closed, _⟩ | ⟨closed, _⟩
      · exact same rfl rfl rfl
      · exact same rfl rfl rfl
      · exact absurd closed opened
      · exact absurd closed opened
  | closeDevice bmCookie =>
      obtain rfl := Option.some.inj stepped
      exact same rfl (close_calm s.world bmCookie).online rfl
  | teardown i => cases session
  | _ =>
      obtain rfl := Option.some.inj stepped
      exact same rfl rfl rfl

/-- In every run of a unit task that takes up `S2_OFFLINE` only while the unit is online, its
broadcasts alternate, each with a change of `online`. -/
theorem link_events_alternate (ch : Channels) (s t : Driver) (alone : s.tasks = [.loopHead])
    (actions : List Action) (ran : ((linkMachine ch).allow offlineInTime).run s actions = some t) :
    LinkAlternates s.world.unit.online
      (((linkMachine ch).allow offlineInTime).trace (linkEvents ch) s actions) := by
  have kept : LinkKept s.world.unit.online t
      ([] ++ ((linkMachine ch).allow offlineInTime).trace (linkEvents ch) s actions) := by
    refine Machine.trace_invariant _ (linkEvents ch) (LinkKept s.world.unit.online) ?_ s t []
      actions ⟨.loopHead, false, s.world.unit.online, alone, rfl, rfl⟩ ran
    intro s log a t kept stepped
    obtain ⟨inTime, allowed⟩ := (linkMachine ch).allow_step offlineInTime s t a stepped
    obtain ⟨session, moved⟩ := (unitMachine ch).allow_step inSession s t a allowed
    exact linkKept_step ch _ s t log a kept session inTime moved
  obtain ⟨_, owes, _, _, follows, _⟩ := kept.held
  rw [List.nil_append] at follows
  constructor
  · exact announcements_alternate eventOf _ _ _ follows
  · intro before after event same
    rw [same] at follows
    exact announced_turned eventOf _ _ before after event rfl follows

/-- `S2_CONFIGINTERFACE` and then `S2_OFFLINE`, each up to the next `Wait`. -/
def upAndDown : List Action :=
  submitted 1 (request .configInterface 0#32 0 0#32) ++ List.replicate 13 (.task 0 taskEnv) ++
    (submitted 2 (request .offline 0#32 0 0#32) ++ List.replicate 11 (.task 0 taskEnv))

theorem link_events_alternate_once :
    ∃ s t log, s.tasks = [.loopHead] ∧
      ((linkMachine ⟨0, 0, 0⟩).allow offlineInTime).run s upAndDown = some t ∧
      log = ((linkMachine ⟨0, 0, 0⟩).allow offlineInTime).trace (linkEvents ⟨0, 0, 0⟩) s upAndDown ∧
      announcements log = [s2eventOnline, s2eventOffline] ∧ LinkAlternates false log := by
  obtain ⟨t, ran⟩ := Option.isSome_iff_exists.mp (show
    (((linkMachine ⟨0, 0, 0⟩).allow offlineInTime).run openedDriver upAndDown).isSome = true by
      decide +kernel)
  exact ⟨openedDriver, t, _, rfl, ran, rfl, by decide +kernel,
    link_events_alternate ⟨0, 0, 0⟩ openedDriver t rfl upAndDown ran⟩

/-- Two `S2_OFFLINE` that both pass the test of `BeginIO` before the unit task runs. -/
def offlineTwice : List Action :=
  submitted 1 (request .configInterface 0#32 0 0#32) ++ List.replicate 13 (.task 0 taskEnv) ++
    (submitted 2 (request .offline 0#32 0 0#32) ++
      (submitted 3 (request .offline 0#32 0 0#32) ++ List.replicate 13 (.task 0 taskEnv)))

/-- The second one is broadcast again, without a change. -/
theorem offline_broadcast_twice :
    ∃ s t, (unitMachine ⟨0, 0, 0⟩).Reached s ∧ s.tasks = [.loopHead] ∧
      (linkMachine ⟨0, 0, 0⟩).run s offlineTwice = some t ∧
      announcements ((linkMachine ⟨0, 0, 0⟩).trace (linkEvents ⟨0, 0, 0⟩) s offlineTwice) =
        [s2eventOnline, s2eventOffline, s2eventOffline] ∧
      ¬ LinkAlternates s.world.unit.online
        ((linkMachine ⟨0, 0, 0⟩).trace (linkEvents ⟨0, 0, 0⟩) s offlineTwice) := by
  obtain ⟨s, reached, shape⟩ := (unitMachine ⟨0, 0, 0⟩).run_shape
    (fun s => (s.tasks, ((linkMachine ⟨0, 0, 0⟩).run s offlineTwice).isSome,
      (linkMachine ⟨0, 0, 0⟩).trace (linkEvents ⟨0, 0, 0⟩) s offlineTwice))
    ([.loopHead], true, [.turned true, .announced s2eventOnline, .turned false,
      .announced s2eventOffline, .announced s2eventOffline])
    coldDriver [.openDevice 0x77 true .started] (.start _ coldDriver_cold) (by decide +kernel)
  obtain ⟨alone, runs, log⟩ := by simpa only [Prod.mk.injEq] using shape
  obtain ⟨t, ran⟩ := Option.isSome_iff_exists.mp runs
  refine ⟨s, t, reached, alone, ran, by rw [log]; rfl, fun right => ?_⟩
  rw [log] at right
  obtain ⟨front, now, same, _⟩ := right.coincides [.turned true, .announced s2eventOnline,
    .turned false, .announced s2eventOffline] [] s2eventOffline rfl
  have last := congrArg List.getLast? same
  simp at last

end Pa6tEth

import Pa6tEth.Offline

/-! `online` at the start of a session. -/

namespace Pa6tEth

open Support World

def Command.turnsOnline : Command → Bool
  | .configInterface => true
  | .online => true
  | _ => false

/-- Newest first: the last session began with no other unit task, and its task has not yet taken
up a command that turns the unit online. -/
def fresh : List Moment → Bool
  | [] => true
  | .session alone :: _ => alone
  | .command c :: rest => !c.turnsOnline && fresh rest

def exitsOffline (s : Driver) : Action → Bool
  | .teardown _ => s.tasks.length != 1 || !s.world.unit.online
  | _ => true

/-- Before the first task and after the last the unit is offline, and in a fresh session nothing
is about to turn it online. -/
structure StartsOffline (s : Driver) : Prop where
  closed : s.tasks = [] → s.world.unit.online = false
  offline : fresh s.world.history = true → s.world.unit.online = false
  still : fresh s.world.history = true →
    ∀ r ops fin, .handling r ops fin ∈ s.tasks → .setOnline true ∉ ops

theorem startsOffline_same (s t : Driver) (online : t.world.unit.online = s.world.unit.online)
    (history : t.world.history = s.world.history) (tasks : t.tasks = s.tasks)
    (starts : StartsOffline s) : StartsOffline t := by
  constructor
  · rw [tasks, online]
    exact starts.closed
  · rw [history, online]
    exact starts.offline
  · rw [history, tasks]
    exact starts.still

theorem commandOps_still (now : Bool) (c : Command) (quiet : c.turnsOnline = false) :
    .setOnline true ∉ (commandOps now c).1 := by
  cases c with
  | configInterface => cases quiet
  | online => cases quiet
  | offline => simp [commandOps]
  | cmdFlush => simp [commandOps]
  | _ => exact List.not_mem_nil

theorem startsOffline_task (ch : Channels) (s t : Driver) (i : Nat) (e : TaskEnv)
    (starts : StartsOffline s) (stepped : driverStep ch s (.task i e) = some t) :
    StartsOffline t := by
  obtain ⟨pc, w, next, present, ran, rfl⟩ := task_step ch s t i e stepped
  have member := List.mem_of_getElem? present
  have running : s.tasks.set i next ≠ [] := by
    simpa using List.ne_nil_of_mem member
  by_cases turns : pc.turns = true
  · obtain ⟨r, online, ops, fin, rfl⟩ := turns_handling pc turns
    obtain ⟨rfl, rfl⟩ := Prod.mk.inj (Option.some.inj ran)
    refine ⟨fun none => absurd none running, fun new => ?_, fun new r' ops' fin' handling => ?_⟩
    · have absent := starts.still new r _ fin member
      cases online with
      | false => rfl
      | true => exact absurd List.mem_cons_self absent
    · rcases List.mem_or_eq_of_mem_set handling with old | same
      · exact starts.still new r' ops' fin' old
      · obtain ⟨rfl, rfl, rfl⟩ := TaskPc.handling.inj same
        exact fun later => starts.still new _ _ _ member (List.mem_cons_of_mem _ later)
  · have calm := task_calm ch e s.world w pc next (by simpa using turns) ran
    have earlier : fresh w.history = true → fresh s.world.history = true := by
      rw [calm.history]
      cases pc with
      | received r => exact fun new => (Bool.and_eq_true_iff.mp new).2
      | _ => exact id
    refine ⟨fun none => absurd none running,
      fun new => calm.online.trans (starts.offline (earlier new)),
      fun new r ops fin handling => ?_⟩
    rcases List.mem_or_eq_of_mem_set handling with old | rfl
    · exact starts.still (earlier new) r ops fin old
    · rcases handling_step ch e s.world w pc r ops fin ran with ⟨rfl, rfl⟩ | ⟨op, rfl⟩
      · rw [calm.history] at new
        have quiet := (Bool.and_eq_true_iff.mp new).1
        exact commandOps_still _ _ (by simpa using quiet)
      · exact fun later =>
          starts.still (earlier new) _ _ _ member (List.mem_cons_of_mem op later)

theorem startsOffline_open (ch : Channels) (s t : Driver) (bmCookie : Addr) (allocated : Bool)
    (outcome : StartOutcome) (starts : StartsOffline s)
    (stepped : driverStep ch s (.openDevice bmCookie allocated outcome) = some t) :
    StartsOffline t := by
  have started := unitTaskStart_calm s.world outcome
  rcases open_step ch s t bmCookie allocated outcome stepped with
    rfl | ⟨_, rfl⟩ | ⟨_, _, rfl⟩ | ⟨_, _, rfl⟩
  · exact starts
  · exact startsOffline_same s _ rfl rfl rfl starts
  · exact startsOffline_same s _ started.online started.history rfl starts
  · have alone : fresh (.session s.tasks.isEmpty :: s.world.history) = true → s.tasks = [] := by
      simp [fresh]
    refine ⟨nofun, fun new => started.online.trans (starts.closed (alone new)),
      fun new r ops fin handling => ?_⟩
    simp [alone new] at handling

theorem startsOffline_teardown (ch : Channels) (s t : Driver) (i : Nat)
    (exits : exitsOffline s (.teardown i) = true) (starts : StartsOffline s)
    (stepped : driverStep ch s (.teardown i) = some t) : StartsOffline t := by
  obtain ⟨done, rfl⟩ := teardown_step ch s t i stepped
  refine ⟨fun none => ?_, starts.offline, fun new r ops fin handling =>
    starts.still new r ops fin (List.mem_of_mem_eraseIdx handling)⟩
  have small := (List.getElem?_eq_some_iff.mp done).1
  have last : s.tasks.length = 1 := by
    have left := congrArg List.length none
    rw [List.length_eraseIdx_of_lt small, List.length_nil] at left
    omega
  have offline : s.world.unit.online = false := by simpa [exitsOffline, last] using exits
  exact offline

theorem startsOffline_step (ch : Channels) (s t : Driver) (a : Action)
    (exits : exitsOffline s a = true) (starts : StartsOffline s)
    (stepped : driverStep ch s a = some t) : StartsOffline t := by
  cases a with
  | submit r q =>
      obtain ⟨_, rfl⟩ := submit_step ch s t r q stepped
      exact startsOffline_same s _ rfl rfl rfl starts
  | call i e =>
      obtain ⟨c, w, next, _, moved, rfl⟩ := call_step ch s t i e stepped
      obtain ⟨online, history⟩ := call_online ch e s.world w c next moved
      exact startsOffline_same s _ online history rfl starts
  | task i e => exact startsOffline_task ch s t i e starts stepped
  | openDevice bmCookie allocated outcome =>
      exact startsOffline_open ch s t bmCookie allocated outcome starts stepped
  | closeDevice bmCookie =>
      obtain rfl := Option.some.inj stepped
      have closed := close_calm s.world bmCookie
      exact startsOffline_same s _ closed.online closed.history rfl starts
  | teardown i => exact startsOffline_teardown ch s t i exits starts stepped
  | _ =>
      obtain rfl := Option.some.inj stepped
      exact startsOffline_same s _ rfl rfl rfl starts

theorem online_accepted (e : CallEnv) (w : World) (r : ReqId) (offline : w.unit.online = false)
    (command : (w.reqs r).command = .online) : (beginIo e w r).2 = .queueing r := by
  simp [beginIo, command, offline]

theorem io_refused (e : CallEnv) (w : World) (r : ReqId) (offline : w.unit.online = false)
    (command : (w.reqs r).command = .cmdRead ∨ (w.reqs r).command = .cmdWrite) :
    (beginIo e w r).2 = .replying r .outOfService s2werrUnitOffline false := by
  rcases command with command | command <;> simp [beginIo, command, offline]

theorem turnsOnline_posts (c : Command) (turns : c.turnsOnline = true) :
    .postRxBuffers ∈ (commandOps false c).1 := by
  cases c with
  | configInterface => simp [commandOps, goOnline]
  | online => simp [commandOps, goOnline]
  | _ => cases turns

theorem session_starts (ch : Channels) (s : Driver)
    (reached : ((unitMachine ch).allow exitsOffline).Reached s) : StartsOffline s :=
  ((unitMachine ch).allow exitsOffline).invariant StartsOffline
    (fun s cold => ⟨fun _ => cold.offline, fun _ => cold.offline, by simp [cold.tasks]⟩)
    (fun s a t starts stepped => by
      obtain ⟨exits, moved⟩ := (unitMachine ch).allow_step exitsOffline s t a stepped
      exact startsOffline_step ch s t a exits starts moved) s reached

/-- When the last unit task always exits offline, the unit is offline whenever no unit task runs,
and a session that starts then accepts `S2_ONLINE`, refuses reads and writes and posts the receive
buffers at the first command that turns it online. -/
theorem sessions_start_offline (ch : Channels) (s : Driver)
    (reached : ((unitMachine ch).allow exitsOffline).Reached s) :
    (s.tasks = [] → s.world.unit.online = false) ∧
    (fresh s.world.history = true →
      (∀ i e r t, s.calls[i]? = some (.beginIo r) → driverStep ch s (.call i e) = some t →
        ((s.world.reqs r).command = .online → t.calls[i]? = some (.queueing r)) ∧
        ((s.world.reqs r).command = .cmdRead ∨ (s.world.reqs r).command = .cmdWrite →
          t.calls[i]? = some (.replying r .outOfService s2werrUnitOffline false))) ∧
      ∀ i e r t, s.tasks[i]? = some (.received r) → driverStep ch s (.task i e) = some t →
        (s.world.reqs r).command.turnsOnline = true →
        ∃ ops fin, t.tasks[i]? = some (.handling r ops fin) ∧ .postRxBuffers ∈ ops) := by
  have starts := session_starts ch s reached
  refine ⟨starts.closed, fun new => ⟨fun i e r t present stepped => ?_,
    fun i e r t present stepped turns => ?_⟩⟩
  · obtain ⟨c, w, next, here, moved, rfl⟩ := call_step ch s t i e stepped
    rw [present] at here
    obtain rfl := Option.some.inj here
    obtain ⟨rfl, rfl⟩ := Prod.mk.inj (Option.some.inj moved)
    have small := (List.getElem?_eq_some_iff.mp present).1
    simp only [List.getElem?_set_self small, Option.some.injEq]
    exact ⟨online_accepted e s.world r (starts.offline new),
      io_refused e s.world r (starts.offline new)⟩
  · obtain ⟨pc, w, next, here, ran, rfl⟩ := task_step ch s t i e stepped
    rw [present] at here
    obtain rfl := Option.some.inj here
    obtain ⟨rfl, rfl⟩ := Prod.mk.inj (Option.some.inj ran)
    have small := (List.getElem?_eq_some_iff.mp present).1
    refine ⟨_, _, List.getElem?_set_self small, ?_⟩
    rw [starts.offline new]
    exact turnsOnline_posts _ turns

/-- The last `Close` and the unit task's steps to its exit. -/
def exitSession (steps : Nat) : List Action :=
  .closeDevice 0x77 :: List.replicate steps (.task 0 taskEnv) ++ [.teardown 0]

/-- A session that goes offline before its last `Close`. -/
theorem sessions_start_offline_clean :
    ∃ s, (unitMachine ⟨0, 0, 0⟩).Reached s ∧ s.tasks = [] ∧ s.world.history.length = 3 ∧
      s.world.unit.online = false := by
  obtain ⟨s, reached, shape⟩ := ((unitMachine ⟨0, 0, 0⟩).allow exitsOffline).run_shape
    (fun s => (s.tasks, s.world.history.length)) ([], 3) coldDriver
    (sessionUp ++ goOffline ++ exitSession 8) (.start _ coldDriver_cold) (by decide +kernel)
  obtain ⟨exited, commands⟩ := Prod.mk.inj shape
  exact ⟨s, (unitMachine ⟨0, 0, 0⟩).reached_allow exitsOffline s reached, exited, commands,
    (sessions_start_offline ⟨0, 0, 0⟩ s reached).1 exited⟩

def lastReply (s : Driver) : Option (ReqId × IoError × BitVec 32) :=
  match s.world.answers with
  | (r, .replied _ _ done) :: _ => some (r, done.error, done.wireError)
  | _ => none

/-- A session that is closed while the unit is online leaves it online, and `S2_ONLINE` is then
answered `S2WERR_UNIT_ONLINE` in the next. -/
theorem closed_online :
    (∃ s, (unitMachine ⟨0, 0, 0⟩).Reached s ∧ s.tasks = [] ∧ s.world.unit.openerList = [] ∧
      s.world.unit.openCount = 0 ∧ s.world.unit.online = true) ∧
    ∃ s, (unitMachine ⟨0, 0, 0⟩).Reached s ∧ fresh s.world.history = true ∧
      lastReply s = some (4, .badState, s2werrUnitOnline) := by
  constructor
  · obtain ⟨s, reached, shape⟩ := (unitMachine ⟨0, 0, 0⟩).run_shape
      (fun s => (s.tasks, s.world.unit.openerList, s.world.unit.openCount, s.world.unit.online))
      ([], [], 0, true) coldDriver (sessionUp ++ exitSession 9) (.start _ coldDriver_cold)
      (by decide +kernel)
    simp only [Prod.mk.injEq] at shape
    obtain ⟨exited, openers, count, online⟩ := shape
    exact ⟨s, reached, exited, openers, count, online⟩
  · obtain ⟨s, reached, shape⟩ := (unitMachine ⟨0, 0, 0⟩).run_shape
      (fun s => (fresh s.world.history, lastReply s))
      (true, some (4, .badState, s2werrUnitOnline)) coldDriver
      (sessionUp ++ exitSession 9 ++ [.openDevice 0x77 true .started] ++
        submitted 4 (request .online 0#32 0 0#32)) (.start _ coldDriver_cold) (by decide +kernel)
    obtain ⟨new, answered⟩ := Prod.mk.inj shape
    exact ⟨s, reached, new, answered⟩

end Pa6tEth

import Pa6tEth.BeginIO
import Pa6tEth.UnitTask
import Pa6tEth.RxEngine

/-! The unit with its clients' calls and its unit tasks, one section or port operation a step. -/

namespace Pa6tEth

open Support

/-- After an exit that was not waited for, more than one unit task may be running. -/
structure Driver where
  world : World
  calls : List Call
  tasks : List TaskPc

/-- How `UnitTask_Start` ends: which allocation fails, in which of the two tasks. -/
inductive StartOutcome
  | signalFailed
  | createFailed
  | portFailed
  | irqFailed
  | started
  deriving DecidableEq, Repr

/-- Every choice of clients, system, engine and interrupt handler. -/
inductive Action
  | submit (r : ReqId) (q : IOSana2Req)
  | abortIo (r : ReqId)
  | call (i : Nat) (e : CallEnv)
  | task (i : Nat) (e : TaskEnv)
  | signal (more : Signals)
  | dma (ring : Ring rxRingSize Word) (mem : Addr → UInt8)
  | openDevice (bmCookie : Addr) (allocated : Bool) (outcome : StartOutcome)
  | closeDevice (bmCookie : Addr)
  | teardown (i : Nat)

namespace World

/-- `UnitTask_Start` with the startup of `UnitTaskBody`. -/
def unitTaskStart (w : World) : StartOutcome → World
  | .signalFailed => w
  | .createFailed => { w with unit := { w.unit with taskShutdown := false } }
  | .portFailed => { w with unit := { w.unit with taskShutdown := false, ioPort := none } }
  | .irqFailed =>
      { w with unit := { w.unit with taskShutdown := false, ioPort := none, task := false } }
  | .started =>
      { w with
        unit :=
          { w.unit with
            taskShutdown := false
            ioPort := some []
            task := true
            irqWaitTask := true }
        signals := .none }

def addOpener (w : World) (bmCookie : Addr) : World :=
  { w with
    unit :=
      { w.unit with
        openerList := w.unit.openerList ++ [⟨bmCookie, 0⟩]
        openCount := w.unit.openCount + 1 } }

/-- `UnitTask_Shutdown`; whether its polling sees the exit is left to the order of steps. -/
def unitTaskShutdown (w : World) : World :=
  if w.unit.task then
    { w with
      unit := { w.unit with taskShutdown := true }
      signals := { w.signals with ctrlC := true } }
  else w

/-- `_manager_Close`. -/
def close (w : World) (bmCookie : Addr) : World :=
  let removed :=
    { w with
      unit :=
        { w.unit with
          openerList := w.unit.openerList.eraseP fun op => op.bmCookie == bmCookie
          openCount := w.unit.openCount - 1 } }
  if w.unit.openCount = 1 then removed.unitTaskShutdown else removed

/-- The end of `UnitTaskBody`, after its exit drain. -/
def freeTask (w : World) : World :=
  { w with unit := { w.unit with irqWaitTask := false, ioPort := none, task := false } }

end World

namespace Driver

/-- The request has been submitted once more than it was completed. -/
def pending (s : Driver) (r : ReqId) : Bool :=
  s.world.submitted.count r ≠ (s.world.answers.map Prod.fst).count r

/-- The requests in the hands of calls and unit tasks, in the lists and in the port. -/
def places (s : Driver) : List (ReqId × Stage) :=
  s.calls.flatMap Call.claim ++ (s.tasks.flatMap TaskPc.claim ++ World.stored s.world.unit)

def ledger (s : Driver) : Ledger ReqId Stage (IOSana2Req × IOSana2Req) Answer :=
  s.world.ledger s.places

end Driver

/-- One step; a client resubmits a request only after it was completed. -/
def driverStep (ch : Channels) (s : Driver) : Action → Option Driver
  | .submit r q =>
      if s.pending r then none
      else
        some { s with
          world :=
            { s.world with
              reqs := Function.update s.world.reqs r q
              asked := Function.update s.world.asked r q
              submitted := r :: s.world.submitted }
          calls := .beginIo r :: s.calls }
  | .abortIo r => some { s with calls := .abortReads r :: s.calls }
  | .call i e =>
      match s.calls[i]? with
      | none => none
      | some c =>
          (callStep ch e s.world c).map fun
            | (w, some next) => { s with world := w, calls := s.calls.set i next }
            | (w, none) => { s with world := w, calls := s.calls.eraseIdx i }
  | .task i e =>
      match s.tasks[i]? with
      | none => none
      | some pc =>
          (taskStep ch e s.world pc).map fun (w, next) =>
            { s with world := w, tasks := s.tasks.set i next }
  | .signal more =>
      some { s with world := { s.world with signals := s.world.signals.join more } }
  | .dma ring mem =>
      some { s with
        world :=
          { s.world with
            unit := { s.world.unit with rx := { s.world.unit.rx with rxRing := ring } }
            mem := mem } }
  | .openDevice bmCookie allocated outcome =>
      if allocated = false then some s
      else if s.world.unit.openCount ≠ 0 then
        some { s with world := s.world.addOpener bmCookie }
      else if outcome ≠ .started then
        some { s with world := s.world.unitTaskStart outcome }
      else
        some { s with
          world :=
            { (s.world.unitTaskStart outcome).addOpener bmCookie with
              history := .session s.tasks.isEmpty :: s.world.history }
          tasks := .loopHead :: s.tasks }
  | .closeDevice bmCookie => some { s with world := s.world.close bmCookie }
  | .teardown i =>
      if s.tasks[i]? = some .drained then
        some { s with world := s.world.freeTask, tasks := s.tasks.eraseIdx i }
      else none

/-- The unit as `Init` leaves it. -/
structure Cold (s : Driver) : Prop where
  calls : s.calls = []
  tasks : s.tasks = []
  offline : s.world.unit.online = false
  closed : s.world.unit.openCount = 0
  task : s.world.unit.task = false
  port : s.world.unit.ioPort = none
  reads : ∀ c, s.world.unit.readList c = []
  events : s.world.unit.eventList = []
  openers : s.world.unit.openerList = []
  submitted : s.world.submitted = []
  answers : s.world.answers = []
  history : s.world.history = []

def unitMachine (ch : Channels) : Machine Driver Action where
  start := Cold
  step := driverStep ch

/-- An opened unit whose new unit task is about to enter its loop. -/
structure Opened (s : Driver) : Prop where
  calls : s.calls = []
  tasks : s.tasks = [.loopHead]
  opened : s.world.unit.openCount ≠ 0
  port : s.world.unit.ioPort = some []
  reads : ∀ c, s.world.unit.readList c = []
  events : s.world.unit.eventList = []
  submitted : s.world.submitted = []
  answers : s.world.answers = []

/-- The steps of one session: those up to the end of the exit drain. -/
def inSession (s : Driver) : Action → Bool
  | .teardown _ => false
  | .openDevice _ _ _ => s.world.unit.openCount ≠ 0
  | _ => true

def sessionMachine (ch : Channels) : Machine Driver Action :=
  { (unitMachine ch).allow inSession with start := Opened }

theorem call_step (ch : Channels) (s t : Driver) (i : Nat) (e : CallEnv)
    (stepped : driverStep ch s (.call i e) = some t) :
    ∃ c w next, s.calls[i]? = some c ∧ callStep ch e s.world c = some (w, next) ∧
      t = { s with
        world := w
        calls := match next with
          | some next => s.calls.set i next
          | none => s.calls.eraseIdx i } := by
  simp only [driverStep] at stepped
  split at stepped
  · cases stepped
  · rename_i c present
    obtain ⟨⟨w, next⟩, moved, same⟩ := Option.map_eq_some_iff.mp stepped
    refine ⟨c, w, next, present, moved, ?_⟩
    cases next <;> exact same.symm

theorem task_step (ch : Channels) (s t : Driver) (i : Nat) (e : TaskEnv)
    (stepped : driverStep ch s (.task i e) = some t) :
    ∃ pc w next, s.tasks[i]? = some pc ∧ taskStep ch e s.world pc = some (w, next) ∧
      t = { s with world := w, tasks := s.tasks.set i next } := by
  simp only [driverStep] at stepped
  split at stepped
  · cases stepped
  · rename_i pc present
    obtain ⟨⟨w, next⟩, moved, same⟩ := Option.map_eq_some_iff.mp stepped
    exact ⟨pc, w, next, present, moved, same.symm⟩

theorem submit_step (ch : Channels) (s t : Driver) (r : ReqId) (q : IOSana2Req)
    (stepped : driverStep ch s (.submit r q) = some t) :
    s.pending r = false ∧
      t = { s with
        world :=
          { s.world with
            reqs := Function.update s.world.reqs r q
            asked := Function.update s.world.asked r q
            submitted := r :: s.world.submitted }
        calls := .beginIo r :: s.calls } := by
  simp only [driverStep] at stepped
  split at stepped
  · cases stepped
  · rename_i settled
    exact ⟨by simpa using settled, (Option.some.inj stepped).symm⟩

theorem teardown_step (ch : Channels) (s t : Driver) (i : Nat)
    (stepped : driverStep ch s (.teardown i) = some t) :
    s.tasks[i]? = some .drained ∧
      t = { s with world := s.world.freeTask, tasks := s.tasks.eraseIdx i } := by
  simp only [driverStep] at stepped
  split at stepped
  · rename_i done
    exact ⟨done, (Option.some.inj stepped).symm⟩
  · cases stepped

theorem open_step (ch : Channels) (s t : Driver) (bmCookie : Addr) (allocated : Bool)
    (outcome : StartOutcome)
    (stepped : driverStep ch s (.openDevice bmCookie allocated outcome) = some t) :
    t = s ∨
      (s.world.unit.openCount ≠ 0 ∧ t = { s with world := s.world.addOpener bmCookie }) ∨
      (s.world.unit.openCount = 0 ∧ outcome ≠ .started ∧
        t = { s with world := s.world.unitTaskStart outcome }) ∨
      (s.world.unit.openCount = 0 ∧ outcome = .started ∧
        t = { s with
          world :=
            { (s.world.unitTaskStart outcome).addOpener bmCookie with
              history := .session s.tasks.isEmpty :: s.world.history }
          tasks := .loopHead :: s.tasks }) := by
  simp only [driverStep] at stepped
  split at stepped
  · exact .inl (Option.some.inj stepped).symm
  · split at stepped
    · rename_i opened
      exact .inr (.inl ⟨opened, (Option.some.inj stepped).symm⟩)
    · rename_i closed
      have closed : s.world.unit.openCount = 0 := by simpa using closed
      split at stepped
      · rename_i failed
        exact .inr (.inr (.inl ⟨closed, failed, (Option.some.inj stepped).symm⟩))
      · rename_i started
        exact .inr (.inr (.inr ⟨closed, by simpa using started, (Option.some.inj stepped).symm⟩))

theorem session_step (ch : Channels) (s t : Driver) (a : Action)
    (stepped : (sessionMachine ch).step s a = some t) :
    inSession s a = true ∧ driverStep ch s a = some t :=
  (unitMachine ch).allow_step inSession s t a stepped

theorem tasks_step (ch : Channels) (s t : Driver) (a : Action) (stepped : driverStep ch s a = some t)
    (next : TaskPc) (member : next ∈ t.tasks) :
    next ∈ s.tasks ∨ next = .loopHead ∨
      ∃ i e pc v, a = .task i e ∧ s.tasks[i]? = some pc ∧
        taskStep ch e s.world pc = some (v, next) := by
  cases a with
  | submit r q =>
      obtain ⟨_, rfl⟩ := submit_step ch s t r q stepped
      exact .inl member
  | call i e =>
      obtain ⟨c, w, next, _, _, rfl⟩ := call_step ch s t i e stepped
      exact .inl member
  | task i e =>
      obtain ⟨pc, w, next, present, ran, rfl⟩ := task_step ch s t i e stepped
      rcases List.mem_or_eq_of_mem_set member with old | rfl
      · exact .inl old
      · exact .inr (.inr ⟨i, e, pc, w, rfl, present, ran⟩)
  | openDevice bmCookie allocated outcome =>
      rcases open_step ch s t bmCookie allocated outcome stepped with
        rfl | ⟨_, rfl⟩ | ⟨_, _, rfl⟩ | ⟨_, _, rfl⟩
      · exact .inl member
      · exact .inl member
      · exact .inl member
      · exact (List.mem_cons.mp member).symm.imp_right .inl
  | teardown i =>
      obtain ⟨_, rfl⟩ := teardown_step ch s t i stepped
      exact .inl (List.mem_of_mem_eraseIdx member)
  | _ =>
      obtain rfl := Option.some.inj stepped
      exact .inl member

/-- What is so of every unit task: at its start, after a step of its own from a reached state, and
still after every other step. -/
theorem tasks_within (ch : Channels) (place : Driver → TaskPc → Prop)
    (head : ∀ s, place s .loopHead)
    (still : ∀ s t a pc, driverStep ch s a = some t → place s pc → place t pc)
    (moved : ∀ s t i e pc v next, (unitMachine ch).Reached s → place s pc →
      s.tasks[i]? = some pc → taskStep ch e s.world pc = some (v, next) →
      driverStep ch s (.task i e) = some t → place t next)
    (s : Driver) (reached : (unitMachine ch).Reached s) : ∀ pc ∈ s.tasks, place s pc := by
  refine (unitMachine ch).invariant_within (fun s => ∀ pc ∈ s.tasks, place s pc) ?_ ?_ s reached
  · intro s cold pc member
    simp [cold.tasks] at member
  · intro s a t before held stepped next member
    rcases tasks_step ch s t a stepped next member with old | rfl | ⟨i, e, pc, v, rfl, present, ran⟩
    · exact still s t a next stepped (held next old)
    · exact head t
    · exact moved s t i e pc v next before (held pc (List.mem_of_getElem? present)) present ran stepped

theorem tasks_reached (ch : Channels) (place : TaskPc → Prop) (head : place .loopHead)
    (kept : ∀ e w v pc next, place pc → taskStep ch e w pc = some (v, next) → place next)
    (s : Driver) (reached : (unitMachine ch).Reached s) : ∀ pc ∈ s.tasks, place pc :=
  tasks_within ch (fun _ => place) (fun _ => head) (fun _ _ _ _ _ => id)
    (fun s _ _ e pc v next _ held _ ran _ => kept e s.world v pc next held ran) s reached

def coldWorld : World where
  unit :=
    { openCount := 0
      online := false
      task := false
      ioPort := none
      taskShutdown := false
      irqWaitTask := false
      readListIpv4 := []
      readListArp := []
      readListOther := []
      eventList := []
      openerList := []
      tx := ⟨0x4000, Ring.fill txRingSize 0#64, 0, 0, 0#32, 0, 0#32⟩
      rx := coldRx }
  signals := .none
  reqs := fun _ => ⟨.other 0#16, 0#8, .ok, 0#32, 0#32, fun _ => 0, fun _ => 0, 0#32, 0, 0, 0⟩
  mem := fun _ => 0
  macAddr := fun _ => 0
  submitted := []
  asked := fun _ => ⟨.other 0#16, 0#8, .ok, 0#32, 0#32, fun _ => 0, fun _ => 0, 0#32, 0, 0, 0⟩
  answers := []
  freed := []
  regs := []
  reports := []
  history := []

def coldDriver : Driver := ⟨coldWorld, [], []⟩

theorem coldDriver_cold : Cold coldDriver where
  calls := rfl
  tasks := rfl
  offline := rfl
  closed := rfl
  task := rfl
  port := rfl
  reads := fun c => by cases c <;> rfl
  events := rfl
  openers := rfl
  submitted := rfl
  answers := rfl
  history := rfl

def openedDriver : Driver :=
  ⟨(coldWorld.unitTaskStart .started).addOpener 0x77, [], [.loopHead]⟩

theorem openedDriver_opened : Opened openedDriver where
  calls := rfl
  tasks := rfl
  opened := by decide
  port := rfl
  reads := fun c => by cases c <;> rfl
  events := rfl
  submitted := rfl
  answers := rfl

/-- A request of the client that opened with cookie `0x77`. -/
def request (c : Command) (packetType : BitVec 32) (data : Addr) (wireError : BitVec 32) :
    IOSana2Req where
  command := c
  flags := 0#8
  error := .ok
  wireError := wireError
  packetType := packetType
  srcAddr := fun _ => 0
  dstAddr := fun _ => 0
  dataLength := 0#32
  data := data
  statData := 0
  bufferManagement := 0x77

def callEnv : CallEnv := ⟨0x900, ⟨0xA00, true, fun _ => none, 1, true, 0xA00#32⟩⟩

def taskEnv : TaskEnv := ⟨mappedEnv 1, true⟩

/-- A client's call up to the end of `BeginIO`. -/
def submitted (r : ReqId) (q : IOSana2Req) : List Action :=
  [.submit r q, .call 0 callEnv, .call 0 callEnv]

/-- The first `Open`, then `S2_CONFIGINTERFACE` up to the next `Wait` of the unit task. -/
def sessionUp : List Action :=
  .openDevice 0x77 true .started :: submitted 1 (request .configInterface 0#32 0 0#32) ++
    List.replicate 13 (.task 0 taskEnv)

/-- One frame of this type in the first buffer, and the interrupt handler's signal. -/
def frameArrives (etherType : UInt8 × UInt8) : List Action :=
  [.dma (writeGroup (Ring.fill rxRingSize 0#64) 0
      ⟨xctMacrxO ||| 0x4000000000#64, 0x1000000#64, 0x10000#64, 0#64⟩)
      (fun a => if a = 65548 then etherType.1 else if a = 65549 then etherType.2 else 0),
    .signal ⟨false, true, false⟩]

end Pa6tEth

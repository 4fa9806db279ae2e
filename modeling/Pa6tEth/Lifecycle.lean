import Pa6tEth.Handover

/-! `UnitTask_Start`, `UnitTask_Shutdown` and `UnitTaskBody`, one statement on the shared fields of
the unit a step, under calls of the device manager that may overlap. -/

namespace Pa6tEth

open Support

/-- The number of unit tasks created before it. -/
abbrev TaskId := Nat

/-- The next statement of `UnitTaskBody`. -/
inductive BodyPc
  | allocPort
  | setTask
  | allocSignal
  | unwindPort
  | unwindTask
  | reportFailure
  | reportReady
  | loopHead
  | waiting
  | woken
  | working
  | draining
  | exitIrq
  | exitPort
  | exitTask
  deriving DecidableEq, Repr

structure UnitTaskBody where
  id : TaskId
  pc : BodyPc
  signals : Signals
  deriving DecidableEq, Repr

/-- The next statement of a call. `first` says that this `Open` has started the unit task. -/
inductive ManagerPc
  | opening
  | startFlag
  | creating
  | starting (id : TaskId)
  | counting (first : Bool)
  | failing
  | closeTest
  | uncounting
  | countTest
  | shutTest
  | shutFlag
  | shutSignal
  | polling (patience : Nat)
  | libUncount
  | libTest
  | expungeTest
  | expungeDefer
  | expungeRemove
  | expungeFree
  deriving DecidableEq, Repr

/-- A write of `NULL` by a unit task, with the task that had set the field. -/
structure Clearing where
  task : TaskId
  owner : Option TaskId
  deriving DecidableEq, Repr

/-- `task`, `ioPort` and `irqWaitTask` name the unit task that set them. A body stands in `bodies`
from its creation to its last write to the unit. `reported` are the tasks that have signalled their
parent; `requests`, `asked` and `cleared` only record what happened. -/
structure Lifecycle where
  openCount : Nat
  libOpenCnt : BitVec 16
  delExp : Bool
  taskShutdown : Bool
  task : Option TaskId
  ioPort : Option TaskId
  irqWaitTask : Option TaskId
  bodies : List UnitTaskBody
  calls : List ManagerPc
  created : Nat
  reported : List TaskId
  removed : Bool
  unitFreed : Bool
  requests : Nat
  asked : List TaskId
  cleared : List Clearing
  deriving DecidableEq, Repr

/-- `ok` is the answer of an allocation, or that a pass through the loop has come to its end. -/
inductive LifecycleAction
  | openDevice
  | closeDevice
  | expunge
  | call (i : Nat) (ok : Bool)
  | task (id : TaskId) (ok : Bool)
  | signal (id : TaskId) (port irq : Bool)
  deriving DecidableEq, Repr

namespace Lifecycle

def clear (s : Lifecycle) (id : TaskId) (owner : Option TaskId) : Lifecycle :=
  { s with cleared := ⟨id, owner⟩ :: s.cleared }

def report (s : Lifecycle) (id : TaskId) : Lifecycle := { s with reported := id :: s.reported }

/-- The body with this number gives way to another, or to none. -/
def putBody (s : Lifecycle) (id : TaskId) (next : Option UnitTaskBody) : Lifecycle :=
  { s with bodies := s.bodies.flatMap fun b => if b.id = id then next.toList else [b] }

def signalBody (s : Lifecycle) (id : TaskId) (more : Signals) : Lifecycle :=
  { s with
    bodies := s.bodies.map fun b =>
      if b.id = id then { b with signals := b.signals.join more } else b }

end Lifecycle

namespace UnitTaskBody

def goto (b : UnitTaskBody) (pc : BodyPc) : Option UnitTaskBody := some { b with pc := pc }

end UnitTaskBody

/-- One step of `UnitTaskBody`; `none` where it does not run on. -/
def bodyStep (ok : Bool) (s : Lifecycle) (b : UnitTaskBody) :
    Option (Lifecycle × Option UnitTaskBody) :=
  match b.pc with
  | .allocPort =>
      if ok then some ({ s with ioPort := some b.id }, b.goto .setTask)
      else some ({ s.clear b.id s.ioPort with ioPort := none }, b.goto .reportFailure)
  | .setTask => some ({ s with task := some b.id }, b.goto .allocSignal)
  | .allocSignal =>
      if ok then some ({ s with irqWaitTask := some b.id }, b.goto .reportReady)
      else some (s, b.goto .unwindPort)
  | .unwindPort => some ({ s.clear b.id s.ioPort with ioPort := none }, b.goto .unwindTask)
  | .unwindTask => some ({ s.clear b.id s.task with task := none }, b.goto .reportFailure)
  | .reportFailure => some (s.report b.id, none)
  | .reportReady => some (s.report b.id, b.goto .loopHead)
  | .loopHead => some (s, b.goto (if s.taskShutdown then .draining else .waiting))
  | .waiting =>
      if b.signals.pending then some (s, some { b with pc := .woken, signals := .none }) else none
  | .woken =>
      some (s, some { b with
        pc := if b.signals.ctrlC then .draining else .working
        signals := { b.signals with irq := false, ctrlC := false } })
  | .working => some (s, b.goto (if ok then .loopHead else .working))
  | .draining => some (s, b.goto (if ok then .exitIrq else .draining))
  | .exitIrq => some ({ s.clear b.id s.irqWaitTask with irqWaitTask := none }, b.goto .exitPort)
  | .exitPort => some ({ s.clear b.id s.ioPort with ioPort := none }, b.goto .exitTask)
  | .exitTask => some ({ s.clear b.id s.task with task := none }, none)

/-- `patience` of `UnitTask_Shutdown`. -/
def shutdownPatience : Nat := 100000

/-- One step of a call of `_manager_Open`, `_manager_Close` or `_manager_Expunge`. -/
def managerCallStep (ok : Bool) (s : Lifecycle) : ManagerPc → Option (Lifecycle × Option ManagerPc)
  | .opening =>
      if ok = false then some (s, some .failing)
      else some (s, some (if s.openCount = 0 then .startFlag else .counting false))
  | .startFlag =>
      if ok = false then some (s, some .failing)
      else some ({ s with taskShutdown := false }, some .creating)
  | .creating =>
      if ok = false then some (s, some .failing)
      else
        some ({ s with
          bodies := ⟨s.created, .allocPort, .none⟩ :: s.bodies
          created := s.created + 1 }, some (.starting s.created))
  | .starting id =>
      if id ∈ s.reported then
        some (s, some (if s.ioPort = none then .failing else .counting true))
      else none
  | .counting _ =>
      some ({ s with
        openCount := s.openCount + 1
        requests := s.requests + 1
        delExp := false }, none)
  | .failing => some ({ s with libOpenCnt := s.libOpenCnt - 1 }, none)
  | .closeTest => some (s, some (if 0 < s.openCount then .uncounting else .libUncount))
  | .uncounting => some ({ s with openCount := s.openCount - 1 }, some .countTest)
  | .countTest => some (s, some (if s.openCount = 0 then .shutTest else .libUncount))
  | .shutTest => some (s, some (if s.task = none then .libUncount else .shutFlag))
  | .shutFlag => some ({ s with taskShutdown := true }, some .shutSignal)
  | .shutSignal =>
      match s.task with
      | none => some (s, some (.polling shutdownPatience))
      | some id =>
          some ({ s.signalBody id ⟨false, false, true⟩ with asked := id :: s.asked },
            some (.polling shutdownPatience))
  | .polling patience =>
      some (s, some (if s.task = none ∨ patience = 0 then .libUncount else .polling (patience - 1)))
  | .libUncount => some ({ s with libOpenCnt := s.libOpenCnt - 1 }, some .libTest)
  | .libTest =>
      some (s, if s.libOpenCnt = 0#16 ∧ s.delExp = true then some .expungeTest else none)
  | .expungeTest => some (s, some (if s.libOpenCnt ≠ 0#16 then .expungeDefer else .expungeRemove))
  | .expungeDefer => some ({ s with delExp := true }, none)
  | .expungeRemove => some ({ s with removed := true }, some .expungeFree)
  | .expungeFree => some ({ s with unitFreed := true }, none)

/-- One step; no call begins on a removed base, and a `Close` is made on an open request. A call
that has made a step stands first. -/
def lifecycleStep (s : Lifecycle) : LifecycleAction → Option Lifecycle
  | .openDevice =>
      if s.removed then none
      else some { s with libOpenCnt := s.libOpenCnt + 1, calls := .opening :: s.calls }
  | .closeDevice =>
      if s.removed ∨ s.requests = 0 then none
      else some { s with requests := s.requests - 1, calls := .closeTest :: s.calls }
  | .expunge => if s.removed then none else some { s with calls := .expungeTest :: s.calls }
  | .call i ok =>
      match s.calls[i]? with
      | none => none
      | some pc =>
          (managerCallStep ok s pc).map fun done =>
            { done.1 with calls := done.2.toList ++ s.calls.eraseIdx i }
  | .task id ok =>
      match s.bodies.find? fun b => b.id = id with
      | none => none
      | some b => (bodyStep ok s b).map fun done => done.1.putBody id done.2
  | .signal id port irq => some (s.signalBody id ⟨port, irq, false⟩)

/-- The unit and the base as `Init` leaves them. -/
def noSession : Lifecycle where
  openCount := 0
  libOpenCnt := 0#16
  delExp := false
  taskShutdown := false
  task := none
  ioPort := none
  irqWaitTask := none
  bodies := []
  calls := []
  created := 0
  reported := []
  removed := false
  unitFreed := false
  requests := 0
  asked := []
  cleared := []

def lifecycleMachine : Machine Lifecycle LifecycleAction where
  start := fun s => s = noSession
  step := lifecycleStep

namespace ManagerPc

/-- Inside `UnitTask_Start`, or after it and before `open_count++`. -/
def startsTask : ManagerPc → Bool
  | startFlag => true
  | creating => true
  | starting _ => true
  | counting first => first
  | _ => false

/-- Past `open_count--`, up to the end of `UnitTask_Shutdown`. -/
def shutsDown : ManagerPc → Bool
  | countTest => true
  | shutTest => true
  | shutFlag => true
  | shutSignal => true
  | polling _ => true
  | _ => false

end ManagerPc

/-- An `Open` enters `UnitTask_Start` only while no other call is there or between `open_count--` and
the end of `UnitTask_Shutdown`, and none begins between the test of `_manager_Expunge` and its
`Remove`; the polling does not end with `unit->task` set, and `lib_OpenCnt` does not wrap. -/
def orderly (s : Lifecycle) : LifecycleAction → Bool
  | .openDevice => s.libOpenCnt ≠ 65535#16 && s.calls.all fun c => c ≠ .expungeRemove
  | .call i ok =>
      match s.calls[i]? with
      | some .opening =>
          !ok || s.openCount ≠ 0 || s.calls.all fun c => !c.startsTask && !c.shutsDown
      | some (.polling patience) => s.task = none || patience ≠ 0
      | _ => true
  | _ => true

/-- What the body shares with `UnitTask_Start` and `UnitTask_Shutdown`. -/
def sessionFields (u : PA6TEthUnit) : Nat × Bool × Bool × Bool × Bool :=
  (u.openCount, u.taskShutdown, u.task, u.ioPort.isSome, u.irqWaitTask)

def Lifecycle.fields (s : Lifecycle) : Nat × Bool × Bool × Bool × Bool :=
  (s.openCount, s.taskShutdown, s.task.isSome, s.ioPort.isSome, s.irqWaitTask.isSome)

def TaskPc.bodyPc : TaskPc → BodyPc
  | loopHead => .loopHead
  | waiting => .waiting
  | woken => .woken
  | exitDrain => .draining
  | exitReply _ => .draining
  | exitFlush => .draining
  | exitFlushEvents => .draining
  | drained => .exitIrq
  | _ => .working

/-- What a loop that answers queued requests leaves alone. -/
def sessionView (w : World) : (Nat × Bool × Bool × Bool × Bool) × Signals :=
  (sessionFields w.unit, w.signals)

theorem sweepEvents_session (picked : IOSana2Req → Bool) (answer : IOSana2Req → IOSana2Req)
    (via : Via) (w : World) : sessionView (w.sweepEvents picked answer via) = sessionView w := by
  have unit := sweepEvents_unit picked answer via w
  have signals : (w.sweepEvents picked answer via).signals = w.signals :=
    sweep_frame (fun w => w.signals) picked answer via _ w fun _ _ => rfl
  simp only [sessionView, sessionFields, unit, signals]

theorem flushRead_session (error : IoError) (c : ReadClass) (w : World) :
    sessionView (w.flushRead error c) = sessionView w := by
  have unit := flushRead_unit error c w
  have signals : (w.flushRead error c).signals = w.signals :=
    flushReadList_frame (fun w => w.signals) error _ w fun _ _ => rfl
  simp only [sessionView, sessionFields, unit, signals]
  cases c <;> rfl

theorem flushReadQueue_session (error : IoError) (w : World) :
    sessionView (w.flushReadQueue error) = sessionView w := by
  rw [World.flushReadQueue, sweepEvents_session, flushRead_session, flushRead_session,
    flushRead_session]

theorem runOp_session (ch : Channels) (e : TaskEnv) (w : World) (op : TaskOp) :
    sessionView (runOp ch e w op) = sessionView w := by
  cases op with
  | flushReadQueue error => exact flushReadQueue_session error w
  | signalEvent mask => exact sweepEvents_session _ _ _ w
  | _ => rfl

theorem rxBody_session (ch : Channels) (w : World) (v : RxLoop) :
    sessionView (rxBody ch w v).1 = sessionView w ∧
      ((rxBody ch w v).2 = .loopHead ∨ (rxBody ch w v).2.bodyPc = .working) := by
  simp only [rxBody]
  split
  · exact ⟨rfl, .inl rfl⟩
  · split
    · exact ⟨rfl, .inr rfl⟩
    · simp only [offerFrame]
      split
      · refine ⟨?_, .inr rfl⟩
        simp only [sessionView, sessionFields]
        cases readClass _ <;> rfl
      · exact ⟨rfl, .inr rfl⟩
      · exact ⟨rfl, .inr rfl⟩

theorem task_body (ch : Channels) (e : TaskEnv) (w v : World) (pc next : TaskPc) (s : Lifecycle)
    (id : TaskId) (shows : s.fields = sessionFields w.unit)
    (stepped : taskStep ch e w pc = some (v, next)) :
    sessionFields v.unit = sessionFields w.unit ∧
      (next.bodyPc = pc.bodyPc ∧ v.signals = w.signals ∨
        ∃ ok, bodyStep ok s ⟨id, pc.bodyPc, w.signals⟩ =
          some (s, some ⟨id, next.bodyPc, v.signals⟩)) := by
  have flag : s.taskShutdown = w.unit.taskShutdown := (Prod.mk.inj (Prod.mk.inj shows).2).1
  cases pc with
  | loopHead =>
      cases stepped
      refine ⟨rfl, .inr ⟨true, ?_⟩⟩
      simp only [TaskPc.bodyPc, bodyStep, UnitTaskBody.goto, flag]
      split <;> rfl
  | waiting =>
      simp only [taskStep] at stepped
      split at stepped
      · rename_i pending
        cases stepped
        exact ⟨rfl, .inr ⟨true, by simp [TaskPc.bodyPc, bodyStep, pending]⟩⟩
      · cases stepped
  | woken =>
      cases stepped
      refine ⟨rfl, .inr ⟨true, ?_⟩⟩
      simp only [TaskPc.bodyPc, bodyStep]
      split <;> rfl
  | draining | exitDrain =>
      simp only [taskStep] at stepped
      split at stepped
      · cases stepped
      · cases stepped
        exact ⟨rfl, .inl ⟨rfl, rfl⟩⟩
      · rename_i r rest port
        cases stepped
        exact ⟨by simp [sessionFields, port], .inl ⟨rfl, rfl⟩⟩
  | handling r ops fin =>
      cases ops with
      | nil =>
          cases stepped
          exact ⟨rfl, .inl ⟨rfl, rfl⟩⟩
      | cons op rest =>
          cases stepped
          obtain ⟨fields, signals⟩ := Prod.mk.inj (runOp_session ch e w op)
          exact ⟨fields, .inl ⟨rfl, signals⟩⟩
  | rxStart =>
      cases stepped
      refine ⟨rfl, ?_⟩
      split
      · exact .inl ⟨rfl, rfl⟩
      · exact .inr ⟨true, rfl⟩
  | rxLoop loop =>
      obtain ⟨same, place⟩ := rxBody_session ch w loop
      simp only [taskStep, Option.some.injEq] at stepped
      rw [stepped] at same place
      obtain ⟨fields, signals⟩ := Prod.mk.inj same
      simp only at place
      rcases place with head | working
      · rw [head, signals]
        exact ⟨fields, .inr ⟨true, rfl⟩⟩
      · exact ⟨fields, .inl ⟨working, signals⟩⟩
  | exitFlush =>
      cases stepped
      obtain ⟨fields, signals⟩ := Prod.mk.inj (flushReadQueue_session .aborted w)
      exact ⟨fields, .inl ⟨rfl, signals⟩⟩
  | exitFlushEvents =>
      cases stepped
      obtain ⟨fields, signals⟩ := Prod.mk.inj
        (sweepEvents_session (fun _ => true) (World.flushed .aborted) .flush w)
      refine ⟨fields, .inr ⟨true, ?_⟩⟩
      simp only [TaskPc.bodyPc, bodyStep, UnitTaskBody.goto, World.flushRemaining, if_true]
      rw [signals]
  | drained => cases stepped
  | _ =>
      cases stepped
      exact ⟨rfl, .inl ⟨rfl, rfl⟩⟩

/-- Some steps of one body; the answers of its allocations are given. -/
def bodySteps : List Bool → Lifecycle → UnitTaskBody → Option (Lifecycle × Option UnitTaskBody)
  | [], s, b => some (s, some b)
  | ok :: rest, s, b =>
      (bodyStep ok s b).bind fun done =>
        match done.2 with
        | none => if rest.isEmpty then some done else none
        | some next => bodySteps rest done.1 next

def startupAnswers : StartOutcome → List Bool
  | .portFailed => [false, true]
  | .irqFailed => [true, true, false, true, true, true]
  | _ => [true, true, true, true]

theorem startup_driver (s : Lifecycle) (w : World) (id : TaskId) (signals : Signals)
    (outcome : StartOutcome) (created : outcome ≠ .signalFailed ∧ outcome ≠ .createFailed)
    (shows : s.fields = sessionFields (w.unitTaskStart .createFailed).unit)
    (idle : w.unit.task = false ∧ w.unit.irqWaitTask = false) :
    ∃ u next, bodySteps (startupAnswers outcome) s ⟨id, .allocPort, signals⟩ = some (u, next) ∧
      u.fields = sessionFields (w.unitTaskStart outcome).unit ∧ id ∈ u.reported := by
  obtain ⟨noTask, noIrq⟩ := idle
  simp only [Lifecycle.fields, sessionFields, World.unitTaskStart, Prod.mk.injEq, noTask, noIrq] at shows
  obtain ⟨opened, flag, task, -, irq⟩ := shows
  cases outcome with
  | signalFailed => exact absurd rfl created.1
  | createFailed => exact absurd rfl created.2
  | portFailed =>
      refine ⟨_, _, rfl, ?_, List.mem_cons_self⟩
      simp [Lifecycle.fields, Lifecycle.clear, Lifecycle.report, sessionFields, World.unitTaskStart,
        opened, flag, task, irq, noTask, noIrq]
  | irqFailed =>
      refine ⟨_, _, rfl, ?_, List.mem_cons_self⟩
      simp [Lifecycle.fields, Lifecycle.clear, Lifecycle.report, sessionFields, World.unitTaskStart,
        opened, flag, irq, noIrq]
  | started =>
      refine ⟨_, _, rfl, ?_, List.mem_cons_self⟩
      simp [Lifecycle.fields, Lifecycle.report, sessionFields, World.unitTaskStart, opened, flag]

theorem exit_driver (s : Lifecycle) (w : World) (id : TaskId) (signals : Signals)
    (shows : s.fields = sessionFields w.unit) :
    ∃ u, bodySteps [true, true, true] s ⟨id, .exitIrq, signals⟩ = some (u, none) ∧
      u.fields = sessionFields w.freeTask.unit := by
  simp only [Lifecycle.fields, sessionFields, Prod.mk.injEq] at shows
  refine ⟨_, rfl, ?_⟩
  simp [Lifecycle.fields, Lifecycle.clear, sessionFields, World.freeTask, shows.1, shows.2.1]

end Pa6tEth

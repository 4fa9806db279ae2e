import Pa6tEth.OpenSystem

/-! An `Open` that fails, and what it leaves. -/

namespace Pa6tEth

open Support

/-- The steps of an `Open` that began in `s`, until it has returned: its own, those of the task that
it starts, signals to the tasks, and passes of an older task through its loop. -/
def attempt (s u : OpenSystem) : OpenAction → Bool
  | .call i _ => i = 0 && u.life.calls.length = s.life.calls.length + 1
  | .task id _ _ =>
      u.life.calls.length = s.life.calls.length + 1 &&
        (s.life.created ≤ id ||
          (u.life.bodies.find? fun b => b.id = id).any fun b => b.pc.inLoop)
  | .signal _ _ _ => u.life.calls.length = s.life.calls.length + 1
  | _ => false

/-- The fields of the unit that name its task, its port and its interrupt signal. -/
structure SameUnit (s t : OpenSystem) : Prop where
  task : t.life.task = s.life.task
  ioPort : t.life.ioPort = s.life.ioPort
  ioPortMask : t.ioPortMask = s.ioPortMask
  irqWaitTask : t.life.irqWaitTask = s.life.irqWaitTask
  irqSignalMask : t.irqSignalMask = s.irqSignalMask

/-- Nothing is left of the call; `LIBF_DELEXP` is the only flag of `lib_Flags` that is written. -/
structure Restored (s t : OpenSystem) : Prop where
  unit : SameUnit s t
  libOpenCnt : t.life.libOpenCnt = s.life.libOpenCnt
  delExp : t.life.delExp = s.life.delExp
  openCount : t.life.openCount = s.life.openCount
  openerList : t.openerList = s.openerList
  blocks : t.blocks = s.blocks
  bits : t.bits = s.bits
  calls : t.life.calls = s.life.calls
  frames : t.frames = s.frames

/-- No task of this call, and the fields as it found them. -/
structure Taskless (s u : OpenSystem) : Prop where
  created : u.life.created = s.life.created
  unit : SameUnit s u
  idle : s.life.bodies = [] → u.life.bodies = []

structure FirstOpen (s u : OpenSystem) (f : OpenFrame) : Prop where
  openCount : s.life.openCount = 0
  blocks : u.blocks = f.opener :: s.blocks

def handshakeBits (s : OpenSystem) (f : OpenFrame) : List SignalBit :=
  ⟨.ready, f.readyBit⟩ :: s.bits

/-- The task has its port and has not asked for `irq_bit`. -/
structure PortTaken (s u : OpenSystem) (f : OpenFrame) : Prop where
  ioPort : u.life.ioPort = some s.life.created
  irqWaitTask : u.life.irqWaitTask = s.life.irqWaitTask
  irqSignalMask : u.irqSignalMask = s.irqSignalMask
  bits : ∃ bit, u.bits = ⟨.port s.life.created, bit⟩ :: handshakeBits s f

def BodyProgress (s u : OpenSystem) (f : OpenFrame) : BodyPc → Prop
  | .allocPort => SameUnit s u ∧ u.bits = handshakeBits s f
  | .setTask =>
      PortTaken s u f ∧ u.life.task = s.life.task ∧ u.ioPortMask = s.ioPortMask
  | .allocSignal => PortTaken s u f
  | .unwindPort => PortTaken s u f
  | .unwindTask =>
      u.life.ioPort = s.life.ioPort ∧ u.life.irqWaitTask = s.life.irqWaitTask ∧
        u.irqSignalMask = s.irqSignalMask ∧ u.bits = handshakeBits s f
  | .reportFailure => SameUnit s u ∧ u.bits = handshakeBits s f
  | pc => (pc = .reportReady ∨ pc.inLoop = true) ∧ u.life.ioPort = some s.life.created

def Started (s u : OpenSystem) (f : OpenFrame) : Prop :=
  u.life.bodies = [] ∧ SameUnit s u ∧ u.bits = handshakeBits s f ∨
    ∃ b, u.life.bodies = [b] ∧ b.id = s.life.created ∧ b.signals.ctrlC = false ∧
      BodyProgress s u f b.pc

/-- What the call and its task have done so far, by the next statement of the call. -/
def Progress (s u : OpenSystem) (f : OpenFrame) : ManagerPc → Prop
  | .opening => Taskless s u ∧ u.blocks = s.blocks ∧ u.bits = s.bits
  | .startFlag => FirstOpen s u f ∧ Taskless s u ∧ u.bits = s.bits
  | .creating =>
      FirstOpen s u f ∧ Taskless s u ∧ u.life.taskShutdown = false ∧ u.bits = handshakeBits s f
  | .starting id =>
      FirstOpen s u f ∧ id = s.life.created ∧ u.life.taskShutdown = false ∧ Started s u f
  | .counting _ => True
  | .failing =>
      SameUnit s u ∧ u.blocks = s.blocks ∧ u.bits = s.bits ∧
        (u.life.created = s.life.created ∨ u.life.bodies = [])
  | _ => False

/-- What only the end of the call writes, and `lib_OpenCnt`. -/
structure Outside (s u : OpenSystem) : Prop where
  libOpenCnt : u.life.libOpenCnt = s.life.libOpenCnt + 1
  delExp : u.life.delExp = s.life.delExp
  openCount : u.life.openCount = s.life.openCount
  openerList : u.openerList = s.openerList
  returned : u.returned = s.returned

/-- The call is under way, or it has returned the base, or `NULL`. -/
inductive Attempt (s u : OpenSystem) : Prop
  | inside (pc : ManagerPc) (f : OpenFrame) (calls : u.life.calls = pc :: s.life.calls)
      (frames : u.frames = f :: s.frames) (outside : Outside s u) (progress : Progress s u f pc)
  | opened (calls : u.life.calls = s.life.calls) (returned : u.returned = true :: s.returned)
  | failed (calls : u.life.calls = s.life.calls) (restored : Restored s u)
      (gone : u.life.created = s.life.created ∨ u.life.bodies = [])

structure IdleUnit (s : OpenSystem) : Prop where
  bodies : s.life.bodies = []
  task : s.life.task = none
  ioPort : s.life.ioPort = none
  ioPortMask : s.ioPortMask = 0#32
  irqWaitTask : s.life.irqWaitTask = none
  irqSignalMask : s.irqSignalMask = 0#32

theorem idle_unit (s : OpenSystem) (inv : OpenInv s) (none : s.life.bodies = []) : IdleUnit s := by
  obtain ⟨port, task, irq⟩ := roster_idle s.life inv.roster none
  exact ⟨none, task, port, inv.portMask task, irq, inv.irqMask irq⟩

theorem sameUnit_trans (s u v : OpenSystem) (first : SameUnit s u) (second : SameUnit u v) :
    SameUnit s v :=
  ⟨second.task.trans first.task, second.ioPort.trans first.ioPort,
    second.ioPortMask.trans first.ioPortMask, second.irqWaitTask.trans first.irqWaitTask,
    second.irqSignalMask.trans first.irqSignalMask⟩

theorem opener_freed (s u : OpenSystem) (f : OpenFrame) (first : FirstOpen s u f) :
    u.blocks.erase f.opener = s.blocks := by
  rw [first.blocks, List.erase_cons_head]

theorem ready_freed (s u : OpenSystem) (f : OpenFrame) (bits : u.bits = handshakeBits s f) :
    u.bits.erase ⟨.ready, f.readyBit⟩ = s.bits := by
  rw [bits, handshakeBits, List.erase_cons_head]

theorem opening_effect (e : OpenEnv) (u : OpenSystem) (f : OpenFrame) :
    callOk e u f .opening = false ∧ (callEffect e u f .opening).1 = u ∨
      callOk e u f .opening = true ∧
        callEffect e u f .opening =
          ({ u with blocks := e.block :: u.blocks }, { f with opener := e.block }) := by
  simp only [callOk, callEffect, OpenSystem.allocOpener]
  by_cases number : f.unitNum = 0#32
  · by_cases present : u.unit = true
    · by_cases block : e.block = 0
      · exact .inl (by simp [number, present, block])
      · exact .inr (by simp [number, present, block])
    · exact .inl (by simp [number, present])
  · exact .inl (by simp [number])

theorem progress_past (s u : OpenSystem) (f : OpenFrame) (pc : BodyPc) (done : BodyProgress s u f pc)
    (past : pc.startup = false) : u.life.ioPort = some s.life.created := by
  cases pc
  all_goals first | exact And.right done | cases past

def OpenSystem.stated (u s : OpenSystem) (f : OpenFrame) (e : OpenEnv) (pc : ManagerPc)
    (x : Lifecycle) (next : Option ManagerPc) : OpenSystem :=
  { (callEffect e u f pc).1 with
    life := { x with calls := next.toList ++ s.life.calls }
    frames := (next.map fun _ => (callEffect e u f pc).2).toList ++ s.frames }

theorem stated_unit (s u : OpenSystem) (f : OpenFrame) (e : OpenEnv) (pc : ManagerPc)
    (x : Lifecycle) (next : Option ManagerPc)
    (moved : managerCallStep (callOk e u f pc) u.life pc = some (x, next)) :
    SameUnit u (u.stated s f e pc x next) := by
  obtain ⟨portMask, irqMask, -⟩ := callEffect_frame e u f pc
  obtain ⟨-, ioPort, task, irq, -⟩ := call_places _ u.life x pc next moved
  exact ⟨task, ioPort, portMask, irq, irqMask⟩

section OwnStatements

variable {s u v : OpenSystem} {f : OpenFrame} {e : OpenEnv} {x : Lifecycle}
  {next : Option ManagerPc}

theorem attempt_opening (outside : Outside s u) (progress : Progress s u f .opening)
    (moved : managerCallStep (callOk e u f .opening) u.life .opening = some (x, next))
    (shape : v = u.stated s f e .opening x next) : Attempt s v := by
  obtain ⟨taskless, blocks, bits⟩ := progress
  obtain ⟨libOpenCnt, delExp, openCount, openerList, returned⟩ := outside
  have kept := stated_unit s u f e .opening x next moved
  have unit : SameUnit s v := shape ▸ sameUnit_trans s u _ taskless.unit kept
  rcases opening_effect e u f with ⟨refused, same⟩ | ⟨given, same⟩
  · simp only [managerCallStep, refused, if_true] at moved
    cases moved
    rw [OpenSystem.stated, same] at shape
    subst shape
    exact .inside .failing _ rfl rfl ⟨libOpenCnt, delExp, openCount, openerList, returned⟩
      ⟨unit, blocks, bits, .inl taskless.created⟩
  · rw [OpenSystem.stated, same, blocks] at shape
    by_cases closed : u.life.openCount = 0
    · simp only [managerCallStep, given, closed, Bool.true_eq_false, if_false, if_true] at moved
      cases moved
      subst shape
      exact .inside .startFlag _ rfl rfl ⟨libOpenCnt, delExp, openCount, openerList, returned⟩
        ⟨⟨openCount ▸ closed, rfl⟩, ⟨taskless.created, unit, taskless.idle⟩, bits⟩
    · simp only [managerCallStep, given, closed, Bool.true_eq_false, if_false] at moved
      cases moved
      subst shape
      exact .inside (.counting false) _ rfl rfl
        ⟨libOpenCnt, delExp, openCount, openerList, returned⟩ trivial

theorem attempt_startFlag (outside : Outside s u) (progress : Progress s u f .startFlag)
    (moved : managerCallStep (callOk e u f .startFlag) u.life .startFlag = some (x, next))
    (shape : v = u.stated s f e .startFlag x next) : Attempt s v := by
  obtain ⟨first, taskless, bits⟩ := progress
  obtain ⟨libOpenCnt, delExp, openCount, openerList, returned⟩ := outside
  have kept := stated_unit s u f e .startFlag x next moved
  have unit : SameUnit s v := shape ▸ sameUnit_trans s u _ taskless.unit kept
  cases answer : e.bit with
  | none =>
      simp only [managerCallStep, callOk, answer, Option.isSome_none, if_true] at moved
      cases moved
      simp only [OpenSystem.stated, callEffect, answer, OpenSystem.freeOpener,
        opener_freed s u f first] at shape
      subst shape
      exact .inside .failing f rfl rfl ⟨libOpenCnt, delExp, openCount, openerList, returned⟩
        ⟨unit, rfl, bits, .inl taskless.created⟩
  | some bit =>
      simp only [managerCallStep, callOk, answer, Option.isSome_some, Bool.true_eq_false,
        if_false] at moved
      cases moved
      simp only [OpenSystem.stated, callEffect, answer, OpenSystem.takeBit, bits] at shape
      subst shape
      exact .inside .creating _ rfl rfl ⟨libOpenCnt, delExp, openCount, openerList, returned⟩
        ⟨⟨first.openCount, first.blocks⟩, ⟨taskless.created, unit, taskless.idle⟩, rfl, rfl⟩

theorem attempt_creating (idle : s.life.openCount = 0 → IdleUnit s) (outside : Outside s u)
    (progress : Progress s u f .creating)
    (moved : managerCallStep (callOk e u f .creating) u.life .creating = some (x, next))
    (shape : v = u.stated s f e .creating x next) : Attempt s v := by
  obtain ⟨first, taskless, flag, bits⟩ := progress
  obtain ⟨libOpenCnt, delExp, openCount, openerList, returned⟩ := outside
  have kept := stated_unit s u f e .creating x next moved
  have unit : SameUnit s v := shape ▸ sameUnit_trans s u _ taskless.unit kept
  cases answer : e.created with
  | false =>
      simp only [managerCallStep, callOk, answer, if_true] at moved
      cases moved
      simp only [OpenSystem.stated, callEffect, answer, OpenSystem.freeOpener, OpenSystem.freeReady,
        opener_freed s u f first, ready_freed s u f bits] at shape
      subst shape
      exact .inside .failing f rfl rfl ⟨libOpenCnt, delExp, openCount, openerList, returned⟩
        ⟨unit, rfl, rfl, .inl taskless.created⟩
  | true =>
      simp only [managerCallStep, callOk, answer, Bool.true_eq_false, if_false] at moved
      cases moved
      simp only [OpenSystem.stated, callEffect, answer, if_true] at shape
      subst shape
      have single : (⟨u.life.created, .allocPort, .none⟩ : UnitTaskBody) :: u.life.bodies =
          [⟨u.life.created, .allocPort, .none⟩] := by
        rw [taskless.idle (idle first.openCount).bodies]
      have started : Started s _ f :=
        .inr ⟨⟨u.life.created, .allocPort, .none⟩, single, taskless.created, rfl, unit, bits⟩
      exact .inside (.starting u.life.created) f rfl rfl
        ⟨libOpenCnt, delExp, openCount, openerList, returned⟩
        ⟨⟨first.openCount, first.blocks⟩, taskless.created, flag, started⟩

/-- `UnitTask_Start` after its `Wait`: the task has its port, or is gone with all that it took. -/
theorem attempt_starting (id : TaskId) (idle : s.life.openCount = 0 → IdleUnit s) (inv : OpenInv u)
    (outside : Outside s u) (progress : Progress s u f (.starting id))
    (moved : managerCallStep (callOk e u f (.starting id)) u.life (.starting id) = some (x, next))
    (shape : v = u.stated s f e (.starting id) x next) : Attempt s v := by
  obtain ⟨first, named, flag, started⟩ := progress
  obtain ⟨libOpenCnt, delExp, openCount, openerList, returned⟩ := outside
  have kept := stated_unit s u f e (.starting id) x next moved
  simp only [managerCallStep] at moved
  split at moved
  · rename_i told
    cases moved
    rcases started with ⟨empty, same, bits⟩ | ⟨b, single, number, calm, done⟩
    · have unit : SameUnit s v := shape ▸ sameUnit_trans s u _ same kept
      have closed : u.life.ioPort = none := same.ioPort.trans (idle first.openCount).ioPort
      simp only [OpenSystem.stated, callEffect, closed, if_true, OpenSystem.freeOpener,
        OpenSystem.freeReady, opener_freed s u f first, ready_freed s u f bits] at shape
      subst shape
      exact .inside .failing f rfl rfl ⟨libOpenCnt, delExp, openCount, openerList, returned⟩
        ⟨unit, rfl, rfl, .inr empty⟩
    · have past : b.pc.startup = false := by
        by_contra early
        have here : (b.id, b.pc) ∈ bodyPlaces u.life.bodies := by simp [single]
        have silent := (inv.roster.parent b.id b.pc here (by simpa using early)).2
        exact silent (number.trans named.symm ▸ told)
      have opened := progress_past s u f b.pc done past
      simp only [OpenSystem.stated, callEffect, opened, reduceCtorEq, if_false,
        OpenSystem.freeReady] at shape
      subst shape
      exact .inside _ f rfl rfl ⟨libOpenCnt, delExp, openCount, openerList, returned⟩ trivial
  · cases moved

theorem attempt_failing (outside : Outside s u) (progress : Progress s u f .failing)
    (moved : managerCallStep (callOk e u f .failing) u.life .failing = some (x, next))
    (shape : v = u.stated s f e .failing x next) : Attempt s v := by
  obtain ⟨same, blocks, bits, gone⟩ := progress
  obtain ⟨libOpenCnt, delExp, openCount, openerList, returned⟩ := outside
  have kept := stated_unit s u f e .failing x next moved
  have unit : SameUnit s v := shape ▸ sameUnit_trans s u _ same kept
  cases moved
  subst shape
  have lib : u.life.libOpenCnt - 1 = s.life.libOpenCnt := by
    rw [libOpenCnt]
    exact BitVec.add_sub_cancel _ _
  exact .failed rfl ⟨unit, lib, delExp, openCount, openerList, blocks, bits, rfl, rfl⟩ gone

end OwnStatements

theorem attempt_call (s u v : OpenSystem) (pc : ManagerPc) (f : OpenFrame) (e : OpenEnv)
    (idle : s.life.openCount = 0 → IdleUnit s) (inv : OpenInv u)
    (calls : u.life.calls = pc :: s.life.calls) (frames : u.frames = f :: s.frames)
    (outside : Outside s u) (progress : Progress s u f pc)
    (stepped : openStep u (.call 0 e) = some v) : Attempt s v := by
  obtain ⟨pc', f', x, next, called, framed, moved, shape⟩ := open_call u v 0 e stepped
  obtain rfl : pc' = pc := by simpa [calls] using called.symm
  obtain rfl : f' = f := by simpa [frames] using framed.symm
  have rest : u.life.calls.eraseIdx 0 = s.life.calls := by rw [calls]; rfl
  have others : u.frames.eraseIdx 0 = s.frames := by rw [frames]; rfl
  rw [rest, others] at shape
  cases pc' with
  | opening => exact attempt_opening outside progress moved shape
  | startFlag => exact attempt_startFlag outside progress moved shape
  | creating => exact attempt_creating idle outside progress moved shape
  | starting id => exact attempt_starting id idle inv outside progress moved shape
  | counting first =>
      cases moved
      subst shape
      exact .opened rfl (congrArg (true :: ·) outside.returned)
  | failing => exact attempt_failing outside progress moved shape
  | _ => exact progress.elim

theorem loop_body (ok : Bool) (bit : Nat) (u : OpenSystem) (x : Lifecycle) (b : UnitTaskBody)
    (next : Option UnitTaskBody) (looping : b.pc.inLoop = true)
    (stepped : bodyStep ok u.life b = some (x, next)) : x = u.life ∧ bodyEffect ok bit u b = u := by
  cases place : b.pc
  all_goals
    simp only [place, BodyPc.inLoop, Bool.false_eq_true] at looping
  all_goals
    simp only [bodyStep, place, UnitTaskBody.goto] at stepped
    repeat' split at stepped
  all_goals cases stepped
  all_goals exact ⟨rfl, by simp only [bodyEffect, place]⟩

theorem body_delExp (ok : Bool) (s u : Lifecycle) (b : UnitTaskBody) (next : Option UnitTaskBody)
    (stepped : bodyStep ok s b = some (u, next)) : u.delExp = s.delExp := by
  simp only [bodyStep] at stepped
  repeat' split at stepped
  all_goals cases stepped
  all_goals rfl

/-- The task goes on to its loop with its port, or undoes every step that it has made before it
reports. -/
theorem started_body (ok : Bool) (bit : Nat) (s u : OpenSystem) (f : OpenFrame) (x : Lifecycle)
    (b : UnitTaskBody) (next : Option UnitTaskBody) (idle : IdleUnit s)
    (waits : .starting b.id ∈ u.life.calls) (flag : u.life.taskShutdown = false)
    (single : u.life.bodies = [b]) (number : b.id = s.life.created)
    (calm : b.signals.ctrlC = false) (done : BodyProgress s u f b.pc)
    (stepped : bodyStep ok u.life b = some (x, next)) :
    Started s { bodyEffect ok bit u b with life := x.putBody b.id next } f := by
  have read : u.readStartMsg b.id = u := if_pos waits
  have put : (x.putBody b.id next).bodies = next.toList := by
    obtain ⟨-, -, -, -, -, -, -, -, -, bodies, -⟩ := body_frame ok u.life x b next stepped
    simp [Lifecycle.putBody, bodies, single]
  cases place : b.pc
  all_goals
    rw [place] at done
    simp only [bodyStep, place, UnitTaskBody.goto] at stepped
    simp only [bodyEffect, place, read]
  case allocPort =>
    obtain ⟨same, bits⟩ := done
    cases ok with
    | true =>
        cases stepped
        refine .inr ⟨_, put, number, calm, ⟨congrArg some number, same.irqWaitTask,
          same.irqSignalMask, bit, ?_⟩, same.task, same.ioPortMask⟩
        simp only [if_true, OpenSystem.takeBit, number, bits]
    | false =>
        cases stepped
        exact .inr ⟨_, put, number, calm,
          ⟨same.task, idle.ioPort.symm, same.ioPortMask, same.irqWaitTask, same.irqSignalMask⟩, bits⟩
  case setTask =>
    obtain ⟨⟨port, irq, irqMask, bits⟩, -, -⟩ := done
    cases stepped
    exact .inr ⟨_, put, number, calm, port, irq, irqMask, bits⟩
  case allocSignal =>
    cases ok with
    | true =>
        cases stepped
        exact .inr ⟨_, put, number, calm, .inl rfl, done.ioPort⟩
    | false =>
        cases stepped
        exact .inr ⟨_, put, number, calm, done.ioPort, done.irqWaitTask, done.irqSignalMask, done.bits⟩
  case unwindPort =>
    obtain ⟨port, irq, irqMask, taken, bits⟩ := done
    have freed : u.freePort.bits = handshakeBits s f := by
      simp only [OpenSystem.freePort, port, OpenSystem.freeBit, bits]
      exact List.eraseP_cons_of_pos (by simp)
    obtain ⟨-, mask, -⟩ := freePort_frame u
    cases stepped
    exact .inr ⟨_, put, number, calm, idle.ioPort.symm, irq, mask.trans irqMask, freed⟩
  case unwindTask =>
    obtain ⟨port, irq, irqMask, bits⟩ := done
    cases stepped
    exact .inr ⟨_, put, number, calm,
      ⟨idle.task.symm, port, idle.ioPortMask.symm, irq, irqMask⟩, bits⟩
  case reportFailure =>
    obtain ⟨same, bits⟩ := done
    cases stepped
    exact .inl ⟨put, ⟨same.task, same.ioPort, same.ioPortMask, same.irqWaitTask, same.irqSignalMask⟩,
      bits⟩
  case reportReady =>
    cases stepped
    exact .inr ⟨_, put, number, calm, .inr rfl, done.2⟩
  case loopHead =>
    simp only [flag, Bool.false_eq_true, if_false] at stepped
    cases stepped
    exact .inr ⟨_, put, number, calm, .inr rfl, done.2⟩
  case waiting =>
    split at stepped
    · cases stepped
      exact .inr ⟨_, put, number, rfl, .inr rfl, done.2⟩
    · cases stepped
  case woken =>
    simp only [calm, Bool.false_eq_true, if_false] at stepped
    cases stepped
    exact .inr ⟨_, put, number, rfl, .inr rfl, done.2⟩
  case working =>
    cases ok with
    | true =>
        cases stepped
        exact .inr ⟨_, put, number, calm, .inr rfl, done.2⟩
    | false =>
        cases stepped
        exact .inr ⟨_, put, number, calm, .inr rfl, done.2⟩
  all_goals
    obtain ⟨ready | looping, -⟩ := done
    · cases ready
    · cases looping

theorem attempt_task (s u v : OpenSystem) (pc : ManagerPc) (f : OpenFrame) (id : TaskId) (ok : Bool)
    (bit : Nat) (idle : s.life.openCount = 0 → IdleUnit s) (inv : OpenInv u)
    (calls : u.life.calls = pc :: s.life.calls) (frames : u.frames = f :: s.frames)
    (outside : Outside s u) (progress : Progress s u f pc)
    (own : s.life.created ≤ id ∨
      ∀ b, u.life.bodies.find? (fun b => b.id = id) = some b → b.pc.inLoop = true)
    (stepped : openStep u (.task id ok bit) = some v) : Attempt s v := by
  obtain ⟨b, x, next, found, moved, shape⟩ := open_task u v id ok bit stepped
  have older : u.life.created = s.life.created → b.pc.inLoop = true := by
    intro none
    rcases own with new | looping
    · obtain ⟨rfl, here, -⟩ := found_place u.life inv.roster.ids id b found
      have known := inv.roster.fresh b.id b.pc here
      exact absurd known (Nat.not_lt.mpr (none ▸ new))
    · exact looping b found
  obtain ⟨rfl, here, -⟩ := found_place u.life inv.roster.ids id b found
  have running : u.life.bodies ≠ [] := List.ne_nil_of_mem (List.mem_of_find?_eq_some found)
  have later : v.life.calls = pc :: s.life.calls ∧ v.frames = f :: s.frames ∧ Outside s v := by
    obtain ⟨opened, lib, -, same, -⟩ := body_frame ok u.life x b next moved
    obtain ⟨list, -, held, answers⟩ := bodyEffect_frame ok bit u b
    have flag := body_delExp ok u.life x b next moved
    rw [shape]
    exact ⟨same.trans calls, held.trans frames, lib.trans outside.libOpenCnt,
      flag.trans outside.delExp, opened.trans outside.openCount, list.trans outside.openerList,
      answers.trans outside.returned⟩
  obtain ⟨calls', frames', outside'⟩ := later
  apply Attempt.inside pc f calls' frames' outside'
  cases pc with
  | opening =>
      obtain ⟨taskless, blocks, bits⟩ := progress
      obtain ⟨rfl, same⟩ := loop_body ok bit u x b next (older taskless.created) moved
      rw [same] at shape
      subst shape
      obtain ⟨task, port, portMask, irq, irqMask⟩ := taskless.unit
      exact ⟨⟨taskless.created, ⟨task, port, portMask, irq, irqMask⟩,
        fun none => absurd (taskless.idle none) running⟩, blocks, bits⟩
  | startFlag =>
      obtain ⟨first, taskless, -⟩ := progress
      exact absurd (taskless.idle (idle first.openCount).bodies) running
  | creating =>
      obtain ⟨first, taskless, -⟩ := progress
      exact absurd (taskless.idle (idle first.openCount).bodies) running
  | starting id =>
      obtain ⟨first, named, flag, started⟩ := progress
      rcases started with ⟨empty, -⟩ | ⟨c, single, number, calm, done⟩
      · exact absurd empty running
      · obtain rfl : b = c := by
          have member := List.mem_of_find?_eq_some found
          rw [single] at member
          exact List.mem_singleton.mp member
        have waits : .starting b.id ∈ u.life.calls := by
          rw [calls, named, number]
          exact List.mem_cons_self
        have goes := started_body ok bit s u f x b next (idle first.openCount) waits flag single
          number calm done moved
        obtain ⟨-, -, low, -⟩ := body_frame ok u.life x b next moved
        obtain ⟨-, blocks, -⟩ := bodyEffect_frame ok bit u b
        subst shape
        exact ⟨⟨first.openCount, blocks.trans first.blocks⟩, named, low.trans flag, goes⟩
  | counting first => trivial
  | failing =>
      obtain ⟨unit, blocks, bits, gone | empty⟩ := progress
      · obtain ⟨rfl, same⟩ := loop_body ok bit u x b next (older gone) moved
        rw [same] at shape
        subst shape
        obtain ⟨task, port, portMask, irq, irqMask⟩ := unit
        exact ⟨⟨task, port, portMask, irq, irqMask⟩, blocks, bits, .inl gone⟩
      · exact absurd empty running
  | _ => exact progress.elim

theorem bodyProgress_same (s u v : OpenSystem) (f : OpenFrame) (pc : BodyPc) (unit : SameUnit u v)
    (bits : v.bits = u.bits) (done : BodyProgress s u f pc) : BodyProgress s v f pc := by
  have taken : PortTaken s u f → PortTaken s v f := fun before =>
    ⟨unit.ioPort.trans before.ioPort, unit.irqWaitTask.trans before.irqWaitTask,
      unit.irqSignalMask.trans before.irqSignalMask,
      before.bits.imp fun _ same => bits.trans same⟩
  cases pc with
  | allocPort => exact ⟨sameUnit_trans s u v done.1 unit, bits.trans done.2⟩
  | setTask =>
      exact ⟨taken done.1, unit.task.trans done.2.1, unit.ioPortMask.trans done.2.2⟩
  | allocSignal => exact taken done
  | unwindPort => exact taken done
  | unwindTask =>
      obtain ⟨port, irq, irqMask, same⟩ := done
      exact ⟨unit.ioPort.trans port, unit.irqWaitTask.trans irq, unit.irqSignalMask.trans irqMask,
        bits.trans same⟩
  | reportFailure => exact ⟨sameUnit_trans s u v done.1 unit, bits.trans done.2⟩
  | _ => exact ⟨done.1, unit.ioPort.trans done.2⟩

theorem attempt_signal (s u v : OpenSystem) (pc : ManagerPc) (f : OpenFrame) (id : TaskId)
    (port irq : Bool) (calls : u.life.calls = pc :: s.life.calls) (frames : u.frames = f :: s.frames)
    (outside : Outside s u) (progress : Progress s u f pc)
    (stepped : openStep u (.signal id port irq) = some v) : Attempt s v := by
  obtain rfl := Option.some.inj stepped
  have empty : u.life.bodies = [] → (u.life.signalBody id ⟨port, irq, false⟩).bodies = [] := by
    intro none
    simp [Lifecycle.signalBody, none]
  have kept : SameUnit u { u with life := u.life.signalBody id ⟨port, irq, false⟩ } :=
    ⟨rfl, rfl, rfl, rfl, rfl⟩
  have unit : SameUnit s u → SameUnit s { u with life := u.life.signalBody id ⟨port, irq, false⟩ } :=
    fun same => sameUnit_trans s u _ same kept
  have taskless : Taskless s u →
      Taskless s { u with life := u.life.signalBody id ⟨port, irq, false⟩ } :=
    fun before => ⟨before.created, unit before.unit, fun none => empty (before.idle none)⟩
  obtain ⟨libOpenCnt, delExp, openCount, openerList, returned⟩ := outside
  refine .inside pc f calls frames ⟨libOpenCnt, delExp, openCount, openerList, returned⟩ ?_
  cases pc with
  | opening => exact ⟨taskless progress.1, progress.2⟩
  | startFlag =>
      obtain ⟨⟨first, blocks⟩, before, bits⟩ := progress
      exact ⟨⟨first, blocks⟩, taskless before, bits⟩
  | creating =>
      obtain ⟨⟨first, blocks⟩, before, rest⟩ := progress
      exact ⟨⟨first, blocks⟩, taskless before, rest⟩
  | starting other =>
      obtain ⟨⟨first, blocks⟩, named, flag, none | ⟨b, single, number, calm, done⟩⟩ := progress
      · exact ⟨⟨first, blocks⟩, named, flag, .inl ⟨empty none.1, unit none.2.1, none.2.2⟩⟩
      · have onward := bodyProgress_same s u _ f b.pc kept rfl done
        refine ⟨⟨first, blocks⟩, named, flag, .inr ?_⟩
        by_cases target : b.id = id
        · have joined : (u.life.signalBody id ⟨port, irq, false⟩).bodies =
              [{ b with signals := b.signals.join ⟨port, irq, false⟩ }] := by
            simp [Lifecycle.signalBody, single, target]
          exact ⟨_, joined, number, by simp [Signals.join, calm], onward⟩
        · have same : (u.life.signalBody id ⟨port, irq, false⟩).bodies = [b] := by
            simp [Lifecycle.signalBody, single, target]
          exact ⟨b, same, number, calm, onward⟩
  | counting first => trivial
  | failing =>
      obtain ⟨same, blocks, bits, gone⟩ := progress
      exact ⟨unit same, blocks, bits, gone.imp_right empty⟩
  | _ => exact progress.elim

theorem attempt_step (s u : OpenSystem) (a : OpenAction) (v : OpenSystem)
    (idle : s.life.openCount = 0 → IdleUnit s) (inv : OpenInv u) (inside : Attempt s u)
    (own : attempt s u a = true) (stepped : openStep u a = some v) : Attempt s v := by
  have open_ : u.life.calls.length = s.life.calls.length + 1 := by
    cases a with
    | call i e => simp only [attempt, Bool.and_eq_true, decide_eq_true_eq] at own; exact own.2
    | task id ok bit => simp only [attempt, Bool.and_eq_true, decide_eq_true_eq] at own; exact own.1
    | signal id port irq => simpa only [attempt, decide_eq_true_eq] using own
    | _ => cases own
  cases inside with
  | opened calls returned =>
      rw [calls] at open_
      omega
  | failed calls restored gone =>
      rw [calls] at open_
      omega
  | inside pc f calls frames outside progress =>
      cases a with
      | call i e =>
          simp only [attempt, Bool.and_eq_true, decide_eq_true_eq] at own
          obtain ⟨rfl, -⟩ := own
          exact attempt_call s u v pc f e idle inv calls frames outside progress stepped
      | task id ok bit =>
          simp only [attempt, Bool.and_eq_true, Bool.or_eq_true, decide_eq_true_eq] at own
          apply attempt_task s u v pc f id ok bit idle inv calls frames outside progress _ stepped
          refine own.2.imp_right fun looping b found => ?_
          simpa only [found, Option.any_some] using looping
      | signal id port irq =>
          exact attempt_signal s u v pc f id port irq calls frames outside progress stepped
      | _ => cases own

theorem attempt_begun (s t : OpenSystem) (unitNum : BitVec 32) (bmCookie : Addr)
    (stepped : openStep s (.openDevice unitNum bmCookie) = some t) : Attempt s t := by
  obtain ⟨life, moved, rfl⟩ := Option.map_eq_some_iff.mp stepped
  simp only [lifecycleStep] at moved
  split at moved
  · cases moved
  · cases moved
    exact .inside .opening _ rfl rfl ⟨rfl, rfl, rfl, rfl, rfl⟩
      ⟨⟨rfl, ⟨rfl, rfl, rfl, rfl, rfl⟩, fun none => none⟩, rfl, rfl⟩

theorem numbers_step (s t : Lifecycle) (a : LifecycleAction)
    (stepped : lifecycleStep s a = some t) :
    s.created ≤ t.created ∧ ∀ id pc, (id, pc) ∈ bodyPlaces t.bodies →
      (∃ before, (id, before) ∈ bodyPlaces s.bodies) ∨ id = s.created := by
  have still : ∀ id pc, (id, pc) ∈ bodyPlaces s.bodies →
      (∃ before, (id, before) ∈ bodyPlaces s.bodies) ∨ id = s.created :=
    fun id pc there => .inl ⟨pc, there⟩
  cases a with
  | call i ok =>
      obtain ⟨pc, u, next, present, moved, rfl⟩ := lifecycle_call s t i ok stepped
      obtain ⟨who, -⟩ := call_places ok s u pc next moved
      rcases who with ⟨places, created⟩ | ⟨-, places, created, -⟩
      · exact ⟨Nat.le_of_eq created.symm, fun id pc there => still id pc (places ▸ there)⟩
      · refine ⟨by simp [created], fun id pc there => ?_⟩
        rcases List.mem_cons.mp (places ▸ there) with new | old
        · exact .inr (Prod.mk.inj new).1
        · exact still id pc old
  | task id ok =>
      obtain ⟨b, u, next, found, moved, rfl⟩ := lifecycle_task s t id ok stepped
      obtain ⟨-, -, -, -, created, -, -, -, -, bodies, -⟩ := body_frame ok s u b next moved
      refine ⟨Nat.le_of_eq created.symm, fun other pc there => ?_⟩
      rcases (putBody_places u id next (other, pc)).mp there with ⟨old, -⟩ | ⟨⟨c, going, same⟩, -⟩
      · exact still other pc (bodies ▸ old)
      · have number := (body_onward ok s u b c (going ▸ moved)).id
        have here : (b.id, b.pc) ∈ bodyPlaces s.bodies :=
          List.mem_map_of_mem (List.mem_of_find?_eq_some found)
        rw [(Prod.mk.inj same).1, number]
        exact still b.id b.pc here
  | signal id port irq =>
      obtain rfl := Option.some.inj stepped
      refine ⟨Nat.le_refl _, fun other pc there => still other pc ?_⟩
      exact signalBody_places s id ⟨port, irq, false⟩ ▸ there
  | _ =>
      simp only [lifecycleStep] at stepped
      split at stepped
      · cases stepped
      · obtain rfl := Option.some.inj stepped
        exact ⟨Nat.le_refl _, still⟩

/-- No task has a number from `first` on and below `bound`, and none will. -/
def NoneBetween (first bound : Nat) (s : OpenSystem) : Prop :=
  bound ≤ s.life.created ∧
    ∀ id pc, (id, pc) ∈ bodyPlaces s.life.bodies → id < first ∨ bound ≤ id

theorem noneBetween_run (first bound : Nat) (s t : OpenSystem) (actions : List OpenAction)
    (none : NoneBetween first bound s) (ran : openMachine.run s actions = some t) :
    NoneBetween first bound t := by
  apply openMachine.run_invariant (NoneBetween first bound) (fun _ => True) _ s t actions
    (fun _ _ => trivial) none ran
  rintro u a v ⟨above, apart⟩ - stepped
  rcases open_lifecycle u v a stepped with same | ⟨b, moved⟩
  · exact ⟨same ▸ above, same ▸ apart⟩
  · obtain ⟨grows, numbers⟩ := numbers_step u.life v.life b moved
    refine ⟨Nat.le_trans above grows, fun id pc there => ?_⟩
    rcases numbers id pc there with ⟨before, old⟩ | rfl
    · exact apart id before old
    · exact .inr above

theorem noneBetween_task (first bound : Nat) (s : OpenSystem) (none : NoneBetween first bound s)
    (id : TaskId) (ok : Bool) (bit : Nat) (low : first ≤ id) (high : id < bound) :
    openStep s (.task id ok bit) = .none := by
  have absent : s.life.bodies.find? (fun b => b.id = id) = .none := by
    apply List.find?_eq_none.mpr
    intro b member same
    obtain rfl : b.id = id := by simpa using same
    have there : (b.id, b.pc) ∈ bodyPlaces s.life.bodies := List.mem_map_of_mem member
    rcases none.2 b.id b.pc there with below | above
    · exact Nat.not_lt.mpr low below
    · exact Nat.not_lt.mpr above high
  simp only [openStep, absent]

/-- However an `Open` that returns `NULL` and the task it starts take turns, it leaves the counts, the
openers, the signal bits and the fields of the unit as they were before it. No task that it started
takes a further step in any later run, and no start message is read after `UnitTask_Start`. -/
theorem open_failure (s u t : OpenSystem) (unitNum : BitVec 32) (bmCookie : Addr)
    (actions : List OpenAction) (reached : openMachine.Reached s)
    (alone : s.life.openCount = 0 → s.life.bodies = [])
    (begun : openMachine.step s (.openDevice unitNum bmCookie) = some u)
    (ran : openMachine.run u actions = some t)
    (own : openMachine.Along (fun x a _ => attempt s x a = true) u actions)
    (failed : t.returned = false :: s.returned) :
    Restored s t ∧
      ∀ later v, openMachine.run t later = some v →
        v.staleReads = [] ∧
          ∀ id ok bit, s.life.created ≤ id → id < t.life.created →
            openMachine.step v (.task id ok bit) = none := by
  have idle : s.life.openCount = 0 → IdleUnit s := fun first =>
    idle_unit s (openInv_reached s reached) (alone first)
  have start : openMachine.Reached u := .step s _ u reached begun
  obtain ⟨reaches, attempted⟩ : openMachine.Reached t ∧ Attempt s t := by
    apply openMachine.along_invariant (fun x => openMachine.Reached x ∧ Attempt s x) _ _ u t actions
      own ⟨start, attempt_begun s u unitNum bmCookie begun⟩ ran
    rintro x a y ⟨before, inside⟩ mine stepped
    exact ⟨.step x a y before stepped,
      attempt_step s x a y idle (openInv_reached x before) inside mine stepped⟩
  cases attempted with
  | inside pc f calls frames outside progress =>
      rw [outside.returned] at failed
      exact absurd failed.symm (List.cons_ne_self false s.returned)
  | opened calls returned =>
      rw [returned] at failed
      cases failed
  | failed calls restored gone =>
      refine ⟨restored, fun later v onward => ?_⟩
      have none : NoneBetween s.life.created t.life.created t := by
        refine ⟨Nat.le_refl _, fun id pc there => ?_⟩
        rcases gone with same | empty
        · have known := (openInv_reached t reaches).roster.fresh id pc there
          exact .inl (same ▸ known)
        · rw [empty] at there
          cases there
      have after := noneBetween_run _ _ t v later none onward
      exact ⟨(openInv_reached v (openMachine.run_reached t v later reaches onward)).stale,
        fun id ok bit low high => noneBetween_task _ _ v after id ok bit low high⟩

/-- The first `Open` after `Init`: its task gets a port and no signal bit, and gives up. -/
def irqFails : List OpenAction :=
  [.call 0 ⟨4096, none, false⟩, .call 0 ⟨0, some 20, false⟩, .call 0 ⟨0, none, true⟩,
    .task 0 true 16, .task 0 true 0, .task 0 false 0, .task 0 true 0, .task 0 true 0,
    .task 0 true 0, .call 0 ⟨0, none, false⟩, .call 0 ⟨0, none, false⟩]

def firstOpen : OpenSystem where
  life := { noSession with libOpenCnt := 1#16, calls := [.opening] }
  unit := true
  openerList := []
  ioPortMask := 0#32
  irqSignalMask := 0#32
  frames := [⟨0#32, 8192, 0, 0⟩]
  blocks := []
  bits := []
  returned := []
  staleReads := []

theorem open_failure_irq :
    ∃ t, openMachine.run firstOpen irqFails = some t ∧ t.returned = [false] ∧
      t.life.created = 1 ∧ Restored (openCold true) t := by
  have cold : openMachine.Reached (openCold true) := .start _ ⟨true, rfl⟩
  have own := openMachine.along_check (attempt (openCold true)) firstOpen irqFails
    (by decide +kernel)
  obtain ⟨t, ran, shape⟩ := Option.map_eq_some_iff.mp
    (show (openMachine.run firstOpen irqFails).map (fun t => (t.returned, t.life.created)) =
      some ([false], 1) by decide +kernel)
  obtain ⟨null, created⟩ := Prod.mk.inj shape
  exact ⟨t, ran, null, created,
    (open_failure (openCold true) firstOpen t 0#32 8192 irqFails cold (fun _ => rfl) rfl ran own
      null).1⟩

end Pa6tEth

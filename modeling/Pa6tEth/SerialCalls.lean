import Pa6tEth.Manager
import Pa6tEth.OpenFailure

/-! Calls of the device manager that do not overlap: whatever their unit tasks do meanwhile, each
does what it does in one step. -/

namespace Pa6tEth

open Support

/-- What the calls of the device manager show of the base and its unit. `returned` are the answers
of `_manager_Open`, `openers` the cookies in `opener_list`. -/
structure ManagerView where
  libOpenCnt : BitVec 16
  delExp : Bool
  gone : Bool
  unitPresent : Bool
  openCount : Nat
  openers : List Addr
  returned : List Bool
  deriving DecidableEq, Repr

/-- Whether `_manager_Open` returned the base. -/
def ManagerEnd.answer : ManagerEnd → Option Bool
  | opened => some true
  | openFailed => some false
  | _ => none

def Manager.view (m : Manager) : ManagerView where
  libOpenCnt := m.libOpenCnt
  delExp := m.delExp
  gone := m.gone
  unitPresent := m.unitPresent
  openCount := m.world.unit.openCount
  openers := m.world.unit.openerList.map Opener.bmCookie
  returned := m.ends.filterMap ManagerEnd.answer

def OpenSystem.view (s : OpenSystem) : ManagerView where
  libOpenCnt := s.life.libOpenCnt
  delExp := s.life.delExp
  gone := s.life.removed
  unitPresent := s.unit
  openCount := s.life.openCount
  openers := s.openerList.map fun entry => entry.op.bmCookie
  returned := s.returned

/-- `unit->task` is set. -/
def OpenSystem.running (s : OpenSystem) : Bool := s.life.task.isSome

def OpenAction.begins : OpenAction → Bool
  | openDevice _ _ => true
  | closeDevice _ => true
  | expunge => true
  | _ => false

/-- A call begins only when none is under way, an `Open` with room in `lib_OpenCnt` and a `Close`
on a request that is open; and the polling of `UnitTask_Shutdown` ends with `unit->task` cleared. -/
def serial (s : OpenSystem) : OpenAction → Bool
  | .openDevice _ _ => s.life.calls.isEmpty && s.life.libOpenCnt ≠ 65535#16
  | .closeDevice bmCookie => s.life.calls.isEmpty && (findRecord bmCookie s.openerList).isSome
  | .expunge => s.life.calls.isEmpty
  | .call i _ =>
      match s.life.calls[i]? with
      | some (.polling patience) => s.life.task = none || patience ≠ 0
      | _ => true
  | _ => true

/-- The same call; the answers of its allocations are its own affair. -/
inductive SameCall : OpenAction → ManagerAction → Prop
  | openDevice (unitNum : BitVec 32) (bmCookie : Addr) (allocated : Bool) (outcome : StartOutcome) :
      SameCall (.openDevice unitNum bmCookie) (.openDevice unitNum bmCookie allocated outcome)
  | closeDevice (bmCookie : Addr) : SameCall (.closeDevice bmCookie) (.closeDevice bmCookie)
  | expunge : SameCall .expunge .expunge

namespace ManagerView

def counted (v : ManagerView) : ManagerView := { v with libOpenCnt := v.libOpenCnt + 1 }

/-- `Close` past the loop over the openers. -/
def unlisted (v : ManagerView) (bmCookie : Addr) : ManagerView :=
  { v with openers := v.openers.erase bmCookie }

/-- `Close` past `open_count--`. -/
def uncounted (v : ManagerView) (bmCookie : Addr) : ManagerView :=
  { v with openCount := v.openCount - 1, openers := v.openers.erase bmCookie }

end ManagerView

/-- `_manager_Open` by its next statement. -/
def Opening (m : Manager) (s : OpenSystem) (f : OpenFrame) : ManagerPc → Prop
  | .opening => s.running = m.world.unit.task
  | .startFlag =>
      s.running = m.world.unit.task ∧ f.unitNum = 0#32 ∧ m.unitPresent = true ∧
        m.world.unit.openCount = 0
  | .creating =>
      s.running = m.world.unit.task ∧ f.unitNum = 0#32 ∧ m.unitPresent = true ∧
        m.world.unit.openCount = 0
  | .starting _ => f.unitNum = 0#32 ∧ m.unitPresent = true ∧ m.world.unit.openCount = 0
  | .counting _ => f.unitNum = 0#32 ∧ m.unitPresent = true ∧ s.running = true
  | .failing => s.running = m.world.unit.task
  | _ => False

/-- `_manager_Expunge` by its next statement. -/
def Expunging (m : Manager) (s : OpenSystem) : ManagerPc → Prop
  | .expungeTest => s.view = m.view ∧ s.running = m.world.unit.task
  | .expungeDefer => s.view = m.view ∧ s.running = m.world.unit.task ∧ m.libOpenCnt ≠ 0#16
  | .expungeRemove => s.view = m.view ∧ s.running = m.world.unit.task ∧ m.libOpenCnt = 0#16
  | .expungeFree =>
      s.view = { m.view with gone := true } ∧ s.running = m.world.unit.task ∧ m.libOpenCnt = 0#16
  | _ => False

/-- `_manager_Close` by its next statement, with the `_manager_Expunge` at its end. -/
def Closing (m : Manager) (s : OpenSystem) (bmCookie : Addr) : ManagerPc → Prop
  | .closeTest => s.view = m.view ∧ s.running = m.world.unit.task
  | .uncounting => s.view = m.view.unlisted bmCookie ∧ s.running = m.world.unit.task
  | .countTest => s.view = m.view.uncounted bmCookie ∧ s.running = m.world.unit.task
  | .shutTest =>
      s.view = m.view.uncounted bmCookie ∧ m.world.unit.openCount = 1 ∧
        s.running = m.world.unit.task
  | .shutFlag =>
      s.view = m.view.uncounted bmCookie ∧ m.world.unit.openCount = 1 ∧ m.world.unit.task = true
  | .shutSignal =>
      s.view = m.view.uncounted bmCookie ∧ m.world.unit.openCount = 1 ∧ m.world.unit.task = true
  | .polling _ =>
      s.view = m.view.uncounted bmCookie ∧ m.world.unit.openCount = 1 ∧ m.world.unit.task = true
  | .libUncount =>
      s.view = m.view.uncounted bmCookie ∧
        s.running = (m.world.unit.task && decide (m.world.unit.openCount ≠ 1))
  | .libTest =>
      s.view = (m.countClose bmCookie).view ∧
        s.running = (m.countClose bmCookie).world.unit.task
  | pc =>
      (m.countClose bmCookie).libOpenCnt = 0#16 ∧ (m.countClose bmCookie).delExp = true ∧
        Expunging (m.countClose bmCookie) s pc

def Underway (m : Manager) (s : OpenSystem) (f : OpenFrame) (pc : ManagerPc) : OpenAction → Prop
  | .openDevice unitNum bmCookie =>
      f.unitNum = unitNum ∧ f.bmCookie = bmCookie ∧ m.requests.length + 1 < 65536 ∧
        s.view = m.view.counted ∧ Opening m s f pc
  | .closeDevice bmCookie =>
      f.bmCookie = bmCookie ∧ bmCookie ∈ m.requests ∧ Closing m s bmCookie pc
  | .expunge => Expunging m s pc
  | _ => False

/-- It has returned, and the base is as the manager's one step leaves it. -/
def Returned (m : Manager) (t : OpenSystem) (kind : OpenAction) : Prop :=
  ∃ a m', SameCall kind a ∧ (managerMachine.allow fewOpeners).step m a = some m' ∧
    t.view = m'.view ∧ t.running = m'.world.unit.task

/-- The manager that has made the calls of these kinds, and the one that is under way. -/
inductive CallsMade (m₀ : Manager) (kinds : List OpenAction) (s : OpenSystem) : Prop
  | idle (m : Manager) (calls : List ManagerAction)
      (ran : (managerMachine.allow fewOpeners).run m₀ calls = some m)
      (same : List.Forall₂ SameCall kinds calls) (none : s.life.calls = [])
      (frames : s.frames = []) (view : s.view = m.view) (task : s.running = m.world.unit.task)
  | inside (m : Manager) (calls : List ManagerAction) (done : List OpenAction) (kind : OpenAction)
      (pc : ManagerPc) (f : OpenFrame) (begun : kinds = done ++ [kind])
      (ran : (managerMachine.allow fewOpeners).run m₀ calls = some m)
      (same : List.Forall₂ SameCall done calls) (here : m.gone = false)
      (call : s.life.calls = [pc]) (frame : s.frames = [f]) (underway : Underway m s f pc kind)

theorem openFail_view (m : Manager) (w : World) (opened : w.unit.openCount = m.world.unit.openCount)
    (openers : w.unit.openerList = m.world.unit.openerList) :
    (({ m with libOpenCnt := m.libOpenCnt + 1 } : Manager).openFail w).view =
      { m.view with returned := false :: m.view.returned } := by
  have back : m.libOpenCnt + 1 - 1 = m.libOpenCnt := BitVec.add_sub_cancel _ _
  simp only [Manager.view, Manager.openFail, Manager.gone, opened, openers, back,
    List.filterMap_cons, ManagerEnd.answer]
  rfl

theorem opened_view (m : Manager) (bmCookie : Addr) (present : m.unitPresent = true) :
    (m.openDevice 0#32 bmCookie true .started).view =
        { m.view.counted with
          delExp := false
          openCount := m.view.openCount + 1
          openers := m.view.openers ++ [bmCookie]
          returned := true :: m.view.returned } ∧
      (m.world.unit.openCount ≠ 0 → m.world.unit.task = true →
        (m.openDevice 0#32 bmCookie true .started).world.unit.task = true) ∧
      (m.world.unit.openCount = 0 →
        (m.openDevice 0#32 bmCookie true .started).world.unit.task = true) := by
  obtain ⟨count, list, _⟩ := unitTaskStart_fields m.world .started
  by_cases first : m.world.unit.openCount = 0
  · simp [Manager.openDevice, Manager.view, Manager.gone, ManagerView.counted, present, first,
      World.addOpener, World.unitTaskStart, ManagerEnd.answer]
  · simp [Manager.openDevice, Manager.view, Manager.gone, ManagerView.counted, present, first,
      World.addOpener, ManagerEnd.answer]

theorem countClose_view (m : Manager) (bmCookie : Addr) :
    (m.countClose bmCookie).view =
        { m.view.uncounted bmCookie with libOpenCnt := m.view.libOpenCnt - 1 } ∧
      (m.countClose bmCookie).world.unit.task =
        (m.world.unit.task && decide (m.world.unit.openCount ≠ 1)) := by
  obtain ⟨opened, openers, task⟩ := closeUnit_fields m.world bmCookie
  have removed : (m.world.unit.openerList.eraseP fun op => op.bmCookie == bmCookie).map
      Opener.bmCookie = (m.world.unit.openerList.map Opener.bmCookie).erase bmCookie := by
    rw [List.erase_eq_eraseP', List.eraseP_map]
    rfl
  refine ⟨?_, task⟩
  simp [Manager.view, Manager.countClose, ManagerView.uncounted, Manager.gone, opened, openers,
    removed, List.filterMap_cons, ManagerEnd.answer]

theorem expunge_view (m : Manager) (here : m.gone = false) :
    m.expunge.view =
        (if m.libOpenCnt ≠ 0#16 then { m.view with delExp := true }
          else { m.view with gone := true, unitPresent := false }) ∧
      m.expunge.world = m.world := by
  refine ⟨?_, expunge_world m⟩
  have standing : ¬ ManagerEnd.tornDown ∈ m.ends := by simpa [Manager.gone] using here
  simp only [Manager.expunge]
  split <;> simp [Manager.view, Manager.gone, List.filterMap_cons, ManagerEnd.answer]

def OpenSystem.soleStated (s : OpenSystem) (f : OpenFrame) (e : OpenEnv) (pc : ManagerPc)
    (u : Lifecycle) (next : Option ManagerPc) : OpenSystem :=
  { (callEffect e s f pc).1 with
    life := { u with calls := next.toList }
    frames := (next.map fun _ => (callEffect e s f pc).2).toList }

def Onwards (m : Manager) (t : OpenSystem) (f : OpenFrame) (kind : OpenAction) :
    Option ManagerPc → Prop
  | none => Returned m t kind
  | some pc => Underway m t f pc kind

section Statements

variable (m : Manager) (s : OpenSystem) (f : OpenFrame) (e : OpenEnv) (u : Lifecycle)
  (next : Option ManagerPc)

theorem open_enabled (here : m.gone = false) (few : m.requests.length + 1 < 65536)
    (unitNum : BitVec 32) (bmCookie : Addr) (allocated : Bool) (outcome : StartOutcome) :
    (managerMachine.allow fewOpeners).step m (.openDevice unitNum bmCookie allocated outcome) =
      some (m.openDevice unitNum bmCookie allocated outcome) := by
  simp [Machine.allow, fewOpeners, few, managerMachine, managerStep, here]

theorem failing_returned (here : m.gone = false) (few : m.requests.length + 1 < 65536)
    (t : OpenSystem) (unitNum : BitVec 32) (bmCookie : Addr)
    (view : t.view = { m.view with returned := false :: m.view.returned })
    (task : t.running = m.world.unit.task) : Returned m t (.openDevice unitNum bmCookie) := by
  have failed : m.openDevice unitNum bmCookie false .started =
      ({ m with libOpenCnt := m.libOpenCnt + 1 } : Manager).openFail m.world := by
    simp only [Manager.openDevice]
    split_ifs <;> simp_all
  refine ⟨_, _, .openDevice unitNum bmCookie false .started,
    open_enabled m here few unitNum bmCookie false .started, ?_, ?_⟩
  · rw [view, failed, openFail_view m m.world rfl rfl]
  · rw [task, failed]
    rfl

theorem counting_returned (here : m.gone = false) (few : m.requests.length + 1 < 65536)
    (accounts : Accounts m) (present : m.unitPresent = true) (t : OpenSystem) (bmCookie : Addr)
    (view : t.view = { m.view.counted with
      delExp := false
      openCount := m.view.openCount + 1
      openers := m.view.openers ++ [bmCookie]
      returned := true :: m.view.returned })
    (task : t.running = true) : Returned m t (.openDevice 0#32 bmCookie) := by
  obtain ⟨shown, later, first⟩ := opened_view m bmCookie present
  refine ⟨_, _, .openDevice 0#32 bmCookie true .started,
    open_enabled m here few 0#32 bmCookie true .started, view.trans shown.symm, ?_⟩
  rw [task]
  by_cases none : m.world.unit.openCount = 0
  · exact (first none).symm
  · have some : 0 < m.requests.length := by
      rw [← accounts.opened]
      exact Nat.pos_of_ne_zero none
    exact (later none (accounts.task.mpr some)).symm

theorem callEffect_given (pc : ManagerPc) :
    (callEffect e s f pc).2.unitNum = f.unitNum ∧ (callEffect e s f pc).2.bmCookie = f.bmCookie := by
  cases pc
  all_goals
    simp only [callEffect]
    repeat' split
  all_goals simp

theorem early_view (pc : ManagerPc)
    (early : pc = .opening ∨ pc = .startFlag ∨ pc = .creating ∨ ∃ id, pc = .starting id)
    (moved : managerCallStep (callOk e s f pc) s.life pc = some (u, next)) :
    (s.soleStated f e pc u next).view = s.view ∧
      (s.soleStated f e pc u next).running = s.running := by
  rcases early with rfl | rfl | rfl | ⟨id, rfl⟩
  all_goals
    simp only [managerCallStep] at moved
    split at moved
  all_goals cases moved
  all_goals
    simp only [OpenSystem.soleStated, OpenSystem.view, OpenSystem.running, callEffect,
      OpenSystem.allocOpener, OpenSystem.freeOpener, OpenSystem.freeReady, OpenSystem.takeBit]
    repeat' split
  all_goals simp

theorem handshake_end (id : TaskId) (inv : SingleTask s.life) (calls : s.life.calls = [.starting id])
    (told : id ∈ s.life.reported) :
    s.life.ioPort = none ∧ s.running = false ∨ s.life.ioPort ≠ none ∧ s.running = true := by
  cases bodies : s.life.bodies with
  | nil =>
      obtain ⟨port, task, _⟩ := inv.own.idle (by simp [bodies])
      exact .inl ⟨port, by simp [OpenSystem.running, task]⟩
  | cons b rest =>
      have here : (b.id, b.pc) ∈ bodyPlaces s.life.bodies := by simp [bodies]
      have past : b.pc.startup = false := by
        by_contra early
        obtain ⟨waits, silent⟩ := inv.startup.parent b.id b.pc here (by simpa using early)
        rw [calls] at waits
        cases List.mem_singleton.mp waits
        exact silent told
      have unasked : ∀ c ∈ s.life.calls, ¬ c.asks = true := by
        rw [calls]
        simp [ManagerPc.asks]
      have looping : b.pc.inLoop = true := by
        by_contra left
        have flag := inv.asked.leaving b.id b.pc here past (by simpa using left)
        have holds : b.pc.holdsTask = true := by
          cases place : b.pc <;> simp_all [BodyPc.startup, BodyPc.holdsTask]
        obtain ⟨c, member, asks⟩ := inv.guarded.shown b.id b.pc here flag holds
        exact unasked c member asks
      have port := inv.own.port b.id b.pc here
      have task := inv.own.task b.id b.pc here
      have both : b.pc.holdsPort = true ∧ b.pc.holdsTask = true := by
        cases place : b.pc <;> simp_all [BodyPc.inLoop, BodyPc.holdsPort, BodyPc.holdsTask]
      rw [both.1, if_pos rfl] at port
      rw [both.2, if_pos rfl] at task
      exact .inr ⟨by simp [port], by simp [OpenSystem.running, task]⟩

theorem counting_step (accounts : Accounts m) (here : m.gone = false) (first : Bool)
    (few : m.requests.length + 1 < 65536) (view : s.view = m.view.counted)
    (opening : Opening m s f (.counting first))
    (moved : managerCallStep (callOk e s f (.counting first)) s.life (.counting first) =
      some (u, next)) :
    Onwards m (s.soleStated f e (.counting first) u next) (callEffect e s f (.counting first)).2
      (.openDevice f.unitNum f.bmCookie) next := by
  obtain ⟨passed, present, running⟩ := opening
  cases moved
  show Returned m _ (.openDevice f.unitNum f.bmCookie)
  have shown : (s.soleStated f e (.counting first)
      { s.life with
        openCount := s.life.openCount + 1
        requests := s.life.requests + 1
        delExp := false } none).view =
      { s.view with
        delExp := false
        openCount := s.view.openCount + 1
        openers := s.view.openers ++ [f.bmCookie]
        returned := true :: s.view.returned } := by
    simp [OpenSystem.view, OpenSystem.soleStated, callEffect]
  rw [passed]
  refine counting_returned m here few accounts present _ f.bmCookie ?_ running
  rw [shown, view]
  rfl

theorem failing_step (here : m.gone = false) (few : m.requests.length + 1 < 65536)
    (view : s.view = m.view.counted) (opening : Opening m s f .failing)
    (moved : managerCallStep (callOk e s f .failing) s.life .failing = some (u, next)) :
    Onwards m (s.soleStated f e .failing u next) (callEffect e s f .failing).2
      (.openDevice f.unitNum f.bmCookie) next := by
  cases moved
  have shown : (s.soleStated f e .failing
      { s.life with libOpenCnt := s.life.libOpenCnt - 1 } none).view =
      { s.view with
        libOpenCnt := s.view.libOpenCnt - 1
        returned := false :: s.view.returned } := rfl
  refine failing_returned m here few _ f.unitNum f.bmCookie ?_ opening
  rw [shown, view]
  simp only [ManagerView.counted, BitVec.add_sub_cancel]

theorem opening_step (accounts : Accounts m) (inv : SingleTask s.life) (here : m.gone = false)
    (pc : ManagerPc) (calls : s.life.calls = [pc]) (few : m.requests.length + 1 < 65536)
    (view : s.view = m.view.counted) (opening : Opening m s f pc)
    (moved : managerCallStep (callOk e s f pc) s.life pc = some (u, next)) :
    Onwards m (s.soleStated f e pc u next) (callEffect e s f pc).2
      (.openDevice f.unitNum f.bmCookie) next := by
  have opened : s.life.openCount = m.world.unit.openCount := congrArg ManagerView.openCount view
  have unit : s.unit = m.unitPresent := congrArg ManagerView.unitPresent view
  have task : m.world.unit.task = true ↔ m.world.unit.openCount ≠ 0 := by
    rw [accounts.task, ← accounts.opened]
    exact Nat.pos_iff_ne_zero
  obtain ⟨number, cookie⟩ := callEffect_given s f e pc
  have goes : ∀ later, next = some later → (s.soleStated f e pc u next).view = s.view →
      Opening m (s.soleStated f e pc u next) (callEffect e s f pc).2 later →
      Onwards m (s.soleStated f e pc u next) (callEffect e s f pc).2
        (.openDevice f.unitNum f.bmCookie) next := by
    rintro later rfl same done
    exact ⟨number, cookie, few, same.trans view, done⟩
  cases pc with
  | opening =>
      obtain ⟨same, running⟩ := early_view s f e u next _ (.inl rfl) moved
      have kept := running.trans opening
      simp only [managerCallStep] at moved
      split at moved
      · cases moved
        exact goes .failing rfl same kept
      · rename_i given
        have passed : f.unitNum = 0#32 ∧ s.unit = true := by
          simp only [callOk, Bool.not_eq_false, Bool.and_eq_true, decide_eq_true_eq] at given
          exact given.1
        have number' := number.trans passed.1
        have present := unit.symm.trans passed.2
        cases moved
        by_cases first : s.life.openCount = 0
        · exact goes .startFlag (by rw [if_pos first]) same
            ⟨kept, number', present, opened ▸ first⟩
        · exact goes (.counting false) (by rw [if_neg first]) same
            ⟨number', present, kept.trans (task.mpr (opened ▸ first))⟩
  | startFlag =>
      obtain ⟨same, running⟩ := early_view s f e u next _ (.inr (.inl rfl)) moved
      obtain ⟨before, passed, present, first⟩ := opening
      have kept := running.trans before
      simp only [managerCallStep] at moved
      split at moved
      · cases moved
        exact goes .failing rfl same kept
      · cases moved
        exact goes .creating rfl same ⟨kept, number.trans passed, present, first⟩
  | creating =>
      obtain ⟨same, running⟩ := early_view s f e u next _ (.inr (.inr (.inl rfl))) moved
      obtain ⟨before, passed, present, first⟩ := opening
      have kept := running.trans before
      simp only [managerCallStep] at moved
      split at moved
      · cases moved
        exact goes .failing rfl same kept
      · cases moved
        exact goes (.starting _) rfl same ⟨number.trans passed, present, first⟩
  | starting id =>
      obtain ⟨same, running⟩ := early_view s f e u next _ (.inr (.inr (.inr ⟨id, rfl⟩))) moved
      obtain ⟨passed, present, first⟩ := opening
      simp only [managerCallStep] at moved
      split at moved
      · rename_i told
        cases moved
        rcases handshake_end s id inv calls told with ⟨port, none⟩ | ⟨port, some⟩
        · have stopped : m.world.unit.task = false := by
            simpa using fun running => task.mp running first
          exact goes .failing (by rw [if_pos port]) same ((running.trans none).trans stopped.symm)
        · exact goes (.counting true) (by rw [if_neg port]) same
            ⟨number.trans passed, present, running.trans some⟩
      · cases moved
  | counting first => exact counting_step m s f e u next accounts here first few view opening moved
  | failing => exact failing_step m s f e u next here few view opening moved
  | _ => exact opening.elim

theorem expunging_step (here : m.gone = false) (pc : ManagerPc) (expunging : Expunging m s pc)
    (moved : managerCallStep (callOk e s f pc) s.life pc = some (u, next)) :
    (∀ later, next = some later → Expunging m (s.soleStated f e pc u next) later) ∧
      (next = none → (s.soleStated f e pc u next).view = m.expunge.view ∧
        (s.soleStated f e pc u next).running = m.expunge.world.unit.task) := by
  obtain ⟨shown, world⟩ := expunge_view m here
  cases pc with
  | expungeTest =>
      obtain ⟨view, running⟩ := expunging
      have lib : s.life.libOpenCnt = m.libOpenCnt := congrArg ManagerView.libOpenCnt view
      cases moved
      have same : ∀ next, (s.soleStated f e .expungeTest s.life next).view = s.view := fun _ => rfl
      refine ⟨?_, fun none => absurd none (Option.some_ne_none _)⟩
      intro later goes
      cases goes
      by_cases zero : s.life.libOpenCnt = 0#16
      · rw [if_neg (by simpa using zero)]
        exact ⟨(same _).trans view, running, lib ▸ zero⟩
      · rw [if_pos zero]
        exact ⟨(same _).trans view, running, lib ▸ zero⟩
  | expungeDefer =>
      obtain ⟨view, running, counted⟩ := expunging
      cases moved
      have flagged : (s.soleStated f e .expungeDefer { s.life with delExp := true } none).view =
          { s.view with delExp := true } := rfl
      refine ⟨fun _ same => absurd same.symm (Option.some_ne_none _), fun _ => ⟨?_, ?_⟩⟩
      · rw [flagged, view, shown, if_pos counted]
      · rw [world]
        exact running
  | expungeRemove =>
      obtain ⟨view, running, zero⟩ := expunging
      cases moved
      have removed : (s.soleStated f e .expungeRemove { s.life with removed := true }
          (some .expungeFree)).view = { s.view with gone := true } := rfl
      refine ⟨?_, fun same => absurd same (Option.some_ne_none _)⟩
      intro later same
      cases same
      exact ⟨by rw [removed, view], running, zero⟩
  | expungeFree =>
      obtain ⟨view, running, zero⟩ := expunging
      cases moved
      have freed : (s.soleStated f e .expungeFree { s.life with unitFreed := true } none).view =
          { s.view with unitPresent := false } := rfl
      refine ⟨fun _ same => absurd same.symm (Option.some_ne_none _), fun _ => ⟨?_, ?_⟩⟩
      · rw [freed, view, shown, if_neg (by simpa using zero)]
      · rw [world]
        exact running
  | _ => exact expunging.elim

theorem closed_openers :
    (callEffect e s f .closeTest).1.openerList = closeRecord f.bmCookie s.openerList := by
  simp only [callEffect]
  split
  · rename_i none
    have lacks := List.find?_eq_none.mp none
    exact (List.eraseP_of_forall_not lacks).symm
  · rfl

theorem closeTest_view :
    (s.soleStated f e .closeTest s.life next).view = s.view.unlisted f.bmCookie := by
  have removed : (closeRecord f.bmCookie s.openerList).map (fun entry => entry.op.bmCookie) =
      (s.openerList.map fun entry => entry.op.bmCookie).erase f.bmCookie := by
    rw [List.erase_eq_eraseP', List.eraseP_map]
    rfl
  have kept : (callEffect e s f .closeTest).1.unit = s.unit ∧
      (callEffect e s f .closeTest).1.returned = s.returned := by
    simp only [callEffect]
    split <;> exact ⟨rfl, rfl⟩
  simp only [OpenSystem.view, OpenSystem.soleStated, closed_openers, removed, kept,
    ManagerView.unlisted]

theorem close_enabled (here : m.gone = false) (bmCookie : Addr) (member : bmCookie ∈ m.requests) :
    (managerMachine.allow fewOpeners).step m (.closeDevice bmCookie) =
      some (m.closeDevice bmCookie) := by
  simp [Machine.allow, fewOpeners, managerMachine, managerStep, here, member]

theorem expunge_enabled (here : m.gone = false) :
    (managerMachine.allow fewOpeners).step m .expunge = some m.expunge := by
  simp [Machine.allow, fewOpeners, managerMachine, managerStep, here]

theorem libTest_step (here : m.gone = false) (member : f.bmCookie ∈ m.requests)
    (closing : Closing m s f.bmCookie .libTest)
    (moved : managerCallStep (callOk e s f .libTest) s.life .libTest = some (u, next)) :
    Onwards m (s.soleStated f e .libTest u next) (callEffect e s f .libTest).2
      (.closeDevice f.bmCookie) next := by
  obtain ⟨view, running⟩ := closing
  have lib : s.life.libOpenCnt = (m.countClose f.bmCookie).libOpenCnt :=
    congrArg ManagerView.libOpenCnt view
  have flag : s.life.delExp = (m.countClose f.bmCookie).delExp := congrArg ManagerView.delExp view
  cases moved
  have shown : ∀ next, (s.soleStated f e .libTest s.life next).view = s.view := fun _ => rfl
  by_cases empty : s.life.libOpenCnt = 0#16 ∧ s.life.delExp = true
  · rw [if_pos empty]
    exact ⟨rfl, member, lib ▸ empty.1, flag ▸ empty.2, (shown _).trans view, running⟩
  · have whole : m.closeDevice f.bmCookie = m.countClose f.bmCookie := by
      rw [lib, flag] at empty
      exact if_neg empty
    rw [if_neg empty]
    exact ⟨_, _, .closeDevice f.bmCookie, close_enabled m here f.bmCookie member,
      whole ▸ (shown _).trans view, whole ▸ running⟩

theorem closing_expunge (here : m.gone = false) (pc : ManagerPc) (member : f.bmCookie ∈ m.requests)
    (zero : (m.countClose f.bmCookie).libOpenCnt = 0#16)
    (flag : (m.countClose f.bmCookie).delExp = true)
    (expunging : Expunging (m.countClose f.bmCookie) s pc)
    (moved : managerCallStep (callOk e s f pc) s.life pc = some (u, next)) :
    Onwards m (s.soleStated f e pc u next) (callEffect e s f pc).2 (.closeDevice f.bmCookie)
      next := by
  have standing : (m.countClose f.bmCookie).gone = false := by
    simpa [Manager.gone, Manager.countClose] using here
  have whole : m.closeDevice f.bmCookie = (m.countClose f.bmCookie).expunge := by
    rw [Manager.closeDevice, if_pos ⟨zero, flag⟩]
  obtain ⟨stays, ends⟩ := expunging_step (m.countClose f.bmCookie) s f e u next standing pc
    expunging moved
  cases next with
  | none =>
      obtain ⟨view, task⟩ := ends rfl
      exact ⟨_, _, .closeDevice f.bmCookie, close_enabled m here f.bmCookie member,
        whole ▸ view, whole ▸ task⟩
  | some later =>
      have on := stays later rfl
      have cookie := (callEffect_given s f e pc).2
      cases later <;> first | exact ⟨cookie, member, zero, flag, on⟩ | exact on.elim

theorem closing_step (accounts : Accounts m) (here : m.gone = false) (pc : ManagerPc)
    (member : f.bmCookie ∈ m.requests) (closing : Closing m s f.bmCookie pc)
    (patient : ∀ patience, pc = .polling patience → s.life.task = none ∨ patience ≠ 0)
    (moved : managerCallStep (callOk e s f pc) s.life pc = some (u, next)) :
    Onwards m (s.soleStated f e pc u next) (callEffect e s f pc).2 (.closeDevice f.bmCookie)
      next := by
  have cookie := (callEffect_given s f e pc).2
  have goes : ∀ later, next = some later →
      Closing m (s.soleStated f e pc u next) f.bmCookie later →
      Onwards m (s.soleStated f e pc u next) (callEffect e s f pc).2 (.closeDevice f.bmCookie)
        next := by
    rintro later rfl done
    exact ⟨cookie, member, done⟩
  have unset : s.life.task = none → s.running = false := by
    intro none
    rw [OpenSystem.running, none]
    rfl
  have opened : 0 < m.world.unit.openCount := by
    rw [accounts.opened]
    exact List.length_pos_of_mem member
  have count : s.view.openCount = s.life.openCount := rfl
  cases pc with
  | closeTest =>
      obtain ⟨view, running⟩ := closing
      rw [view] at count
      have positive : 0 < s.life.openCount := count ▸ opened
      simp only [managerCallStep, if_pos positive] at moved
      cases moved
      exact goes .uncounting rfl
        ⟨(closeTest_view s f e _).trans (congrArg (ManagerView.unlisted · f.bmCookie) view), running⟩
  | uncounting =>
      obtain ⟨view, running⟩ := closing
      cases moved
      have taken : (s.soleStated f e .uncounting
          { s.life with openCount := s.life.openCount - 1 } (some .countTest)).view =
          { s.view with openCount := s.view.openCount - 1 } := rfl
      refine goes .countTest rfl ⟨?_, running⟩
      rw [taken, view]
      rfl
  | countTest =>
      obtain ⟨view, running⟩ := closing
      rw [view] at count
      have left : m.world.unit.openCount - 1 = s.life.openCount := count
      cases moved
      by_cases last : s.life.openCount = 0
      · exact goes .shutTest (by rw [if_pos last]) ⟨view, by omega, running⟩
      · refine goes .libUncount (by rw [if_neg last]) ⟨view, running.trans ?_⟩
        have more : m.world.unit.openCount ≠ 1 := by omega
        simp [more]
  | shutTest =>
      obtain ⟨view, last, running⟩ := closing
      cases moved
      by_cases none : s.life.task = none
      · refine goes .libUncount (by rw [if_pos none]) ⟨view, (unset none).trans ?_⟩
        simp [last]
      · have set : s.running = true := Option.isSome_iff_ne_none.mpr none
        exact goes .shutFlag (by rw [if_neg none]) ⟨view, last, running.symm.trans set⟩
  | shutFlag =>
      cases moved
      exact goes .shutSignal rfl closing
  | shutSignal =>
      simp only [managerCallStep] at moved
      split at moved
      · cases moved
        exact goes _ rfl closing
      · cases moved
        exact goes _ rfl closing
  | polling patience =>
      obtain ⟨view, last, running⟩ := closing
      cases moved
      by_cases none : s.life.task = none
      · refine goes .libUncount (by rw [if_pos (.inl none)]) ⟨view, (unset none).trans ?_⟩
        simp [last]
      · have more := (patient patience rfl).resolve_left none
        exact goes (.polling (patience - 1)) (by rw [if_neg (by simp [none, more])])
          ⟨view, last, running⟩
  | libUncount =>
      obtain ⟨view, running⟩ := closing
      obtain ⟨closedView, closedTask⟩ := countClose_view m f.bmCookie
      cases moved
      have taken : (s.soleStated f e .libUncount
          { s.life with libOpenCnt := s.life.libOpenCnt - 1 } (some .libTest)).view =
          { s.view with libOpenCnt := s.view.libOpenCnt - 1 } := rfl
      refine goes .libTest rfl ⟨?_, running.trans closedTask.symm⟩
      rw [taken, closedView, view]
      rfl
  | libTest => exact libTest_step m s f e u next here member closing moved
  | expungeTest =>
      exact closing_expunge m s f e u next here _ member closing.1 closing.2.1 closing.2.2 moved
  | expungeDefer =>
      exact closing_expunge m s f e u next here _ member closing.1 closing.2.1 closing.2.2 moved
  | expungeRemove =>
      exact closing_expunge m s f e u next here _ member closing.1 closing.2.1 closing.2.2 moved
  | expungeFree =>
      exact closing_expunge m s f e u next here _ member closing.1 closing.2.1 closing.2.2 moved
  | _ => exact closing.2.2.elim

end Statements

theorem bodyEffect_present (ok : Bool) (bit : Nat) (s : OpenSystem) (b : UnitTaskBody) :
    (bodyEffect ok bit s b).unit = s.unit := by
  have freed : s.freePort.unit = s.unit := by
    simp only [OpenSystem.freePort]
    split <;> rfl
  have read : (s.readStartMsg b.id).unit = s.unit := by
    simp only [OpenSystem.readStartMsg]
    split <;> rfl
  cases place : b.pc
  all_goals
    simp only [bodyEffect, place]
    repeat' split
  all_goals first | rfl | exact freed | exact read

theorem body_gone (ok : Bool) (s u : Lifecycle) (b : UnitTaskBody) (next : Option UnitTaskBody)
    (stepped : bodyStep ok s b = some (u, next)) :
    u.task = s.task ∨ b.pc.startup = true ∨ b.pc.startup = false ∧ b.pc.inLoop = false := by
  cases place : b.pc
  all_goals
    simp only [bodyStep, place, UnitTaskBody.goto] at stepped
    repeat' split at stepped
  all_goals cases stepped
  all_goals simp [BodyPc.startup, BodyPc.inLoop]

theorem task_view (s t : OpenSystem) (id : TaskId) (ok : Bool) (bit : Nat)
    (inv : SingleTask s.life) (stepped : openStep s (.task id ok bit) = some t) :
    t.view = s.view ∧ t.life.calls = s.life.calls ∧ t.frames = s.frames ∧
      (t.running = s.running ∨
        ∃ c ∈ s.life.calls, c.asks = true ∨ ∃ id, c = .starting id) := by
  obtain ⟨b, u, next, found, moved, rfl⟩ := open_task s t id ok bit stepped
  obtain ⟨opened, lib, -, calls, -, removed, -⟩ := body_frame ok s.life u b next moved
  obtain ⟨list, -, frames, answers⟩ := bodyEffect_frame ok bit s b
  have flag := body_delExp ok s.life u b next moved
  have present := bodyEffect_present ok bit s b
  have here : (b.id, b.pc) ∈ bodyPlaces s.life.bodies :=
    List.mem_map_of_mem (List.mem_of_find?_eq_some found)
  refine ⟨?_, calls, frames, ?_⟩
  · simp only [OpenSystem.view, Lifecycle.putBody, lib, flag, removed, opened, present, list, answers]
  · rcases body_gone ok s.life u b next moved with same | starts | ⟨past, left⟩
    · exact .inl (congrArg Option.isSome same)
    · exact .inr ⟨.starting b.id, (inv.startup.parent b.id b.pc here starts).1, .inr ⟨b.id, rfl⟩⟩
    · have asked := inv.asked.leaving b.id b.pc here past left
      have holds : b.pc.holdsTask = true := by
        cases place : b.pc <;> simp_all [BodyPc.startup, BodyPc.holdsTask]
      obtain ⟨c, member, asks⟩ := inv.guarded.shown b.id b.pc here asked holds
      exact .inr ⟨c, member, .inl asks⟩

theorem underway_same (m : Manager) (s t : OpenSystem) (f : OpenFrame) (pc : ManagerPc)
    (kind : OpenAction) (view : t.view = s.view)
    (running : t.running = s.running ∨ pc.asks = true ∨ ∃ id, pc = .starting id)
    (underway : Underway m s f pc kind) : Underway m t f pc kind := by
  have keeps : pc.asks = false → (∀ id, pc ≠ .starting id) → t.running = s.running := by
    intro quiet apart
    rcases running with same | asks | ⟨id, starts⟩
    · exact same
    · rw [quiet] at asks
      cases asks
    · exact absurd starts (apart id)
  cases kind with
  | openDevice unitNum bmCookie =>
      obtain ⟨number, cookie, few, shown, opening⟩ := underway
      refine ⟨number, cookie, few, view.trans shown, ?_⟩
      cases pc with
      | starting id => exact opening
      | opening => exact (keeps rfl nofun).trans opening
      | startFlag => exact ⟨(keeps rfl nofun).trans opening.1, opening.2⟩
      | creating => exact ⟨(keeps rfl nofun).trans opening.1, opening.2⟩
      | counting first => exact ⟨opening.1, opening.2.1, (keeps rfl nofun).trans opening.2.2⟩
      | failing => exact (keeps rfl nofun).trans opening
      | _ => exact opening.elim
  | closeDevice bmCookie =>
      obtain ⟨cookie, member, closing⟩ := underway
      refine ⟨cookie, member, ?_⟩
      cases pc with
      | closeTest => exact ⟨view.trans closing.1, (keeps rfl nofun).trans closing.2⟩
      | uncounting => exact ⟨view.trans closing.1, (keeps rfl nofun).trans closing.2⟩
      | countTest => exact ⟨view.trans closing.1, (keeps rfl nofun).trans closing.2⟩
      | libTest => exact ⟨view.trans closing.1, (keeps rfl nofun).trans closing.2⟩
      | shutTest =>
          exact ⟨view.trans closing.1, closing.2.1, (keeps rfl nofun).trans closing.2.2⟩
      | shutFlag => exact ⟨view.trans closing.1, closing.2⟩
      | shutSignal => exact ⟨view.trans closing.1, closing.2⟩
      | polling patience => exact ⟨view.trans closing.1, closing.2⟩
      | libUncount => exact ⟨view.trans closing.1, (keeps rfl nofun).trans closing.2⟩
      | expungeTest =>
          obtain ⟨zero, flag, shown, task⟩ := closing
          exact ⟨zero, flag, view.trans shown, (keeps rfl nofun).trans task⟩
      | expungeDefer | expungeRemove | expungeFree =>
          obtain ⟨zero, flag, shown, task, lib⟩ := closing
          exact ⟨zero, flag, view.trans shown, (keeps rfl nofun).trans task, lib⟩
      | _ => exact closing.2.2.elim
  | expunge =>
      cases pc with
      | expungeTest => exact ⟨view.trans underway.1, (keeps rfl nofun).trans underway.2⟩
      | expungeDefer | expungeRemove | expungeFree =>
          exact ⟨view.trans underway.1, (keeps rfl nofun).trans underway.2.1, underway.2.2⟩
      | _ => exact underway.elim
  | _ => exact underway.elim

theorem callsMade_same (m₀ : Manager) (kinds : List OpenAction) (s t : OpenSystem)
    (view : t.view = s.view) (calls : t.life.calls = s.life.calls) (frames : t.frames = s.frames)
    (running : t.running = s.running ∨
      ∃ c ∈ s.life.calls, c.asks = true ∨ ∃ id, c = .starting id)
    (made : CallsMade m₀ kinds s) : CallsMade m₀ kinds t := by
  cases made with
  | idle m acts ran same none noFrames shown task =>
      have kept : t.running = s.running := by
        rcases running with kept | ⟨c, member, -⟩
        · exact kept
        · rw [none] at member
          cases member
      exact .idle m acts ran same (calls.trans none) (frames.trans noFrames) (view.trans shown)
        (kept.trans task)
  | inside m acts done kind pc f begun ran same here call frame underway =>
      have kept : t.running = s.running ∨ pc.asks = true ∨ ∃ id, pc = .starting id := by
        rcases running with kept | ⟨c, member, waits⟩
        · exact .inl kept
        · rw [call] at member
          obtain rfl := List.mem_singleton.mp member
          exact .inr waits
      exact .inside m acts done kind pc f begun ran same here (calls.trans call)
        (frames.trans frame) (underway_same m s t f pc kind view kept underway)

theorem armRecord_cookies (bmCookie hook : Addr) (records : List Record) :
    (armRecord bmCookie hook records).map (fun entry => entry.op.bmCookie) =
      records.map fun entry => entry.op.bmCookie := by
  induction records with
  | nil => rfl
  | cons entry rest ih =>
      simp only [armRecord]
      split
      · rfl
      · rw [List.map_cons, List.map_cons, ih]

theorem callsMade_few (m₀ : Manager) (kinds : List OpenAction) (s : OpenSystem)
    (made : CallsMade m₀ kinds s) : s.life.calls.length ≤ 1 := by
  cases made with
  | idle m acts ran same none => simp [none]
  | inside m acts done kind pc f begun ran same here call => simp [call]

theorem serial_single (s t : OpenSystem) (a : OpenAction) (inv : SingleTask s.life)
    (few : s.life.calls.length ≤ 1) (allowed : serial s a = true)
    (stepped : openStep s a = some t) : SingleTask t.life := by
  cases a with
  | openDevice unitNum bmCookie =>
      obtain ⟨life, moved, rfl⟩ := Option.map_eq_some_iff.mp stepped
      simp only [serial, Bool.and_eq_true] at allowed
      have none : s.life.calls = [] := by simpa using allowed.1
      exact single_step s.life life .openDevice inv (by simpa [orderly, none] using allowed.2) moved
  | closeDevice bmCookie =>
      obtain ⟨life, moved, rfl⟩ := Option.map_eq_some_iff.mp stepped
      exact single_step s.life life .closeDevice inv rfl moved
  | expunge =>
      obtain ⟨life, moved, rfl⟩ := Option.map_eq_some_iff.mp stepped
      exact single_step s.life life .expunge inv rfl moved
  | call i e =>
      simp only [openStep] at stepped
      split at stepped
      · rename_i pc f called framed
        obtain ⟨life, moved, rfl⟩ := Option.map_eq_some_iff.mp stepped
        refine single_step s.life life _ inv ?_ moved
        simp only [serial, called] at allowed
        simp only [orderly, called]
        cases pc with
        | opening =>
            have alone : s.life.calls = [.opening] := by
              obtain ⟨small, same⟩ := List.getElem?_eq_some_iff.mp called
              obtain ⟨c, single⟩ := List.length_eq_one_iff.mp
                (Nat.le_antisymm few (Nat.lt_of_le_of_lt (Nat.zero_le i) small))
              have zero : i = 0 := by
                rw [single] at small
                exact Nat.lt_one_iff.mp small
              subst zero
              simp only [single] at same ⊢
              exact congrArg (· :: []) same
            simp [alone, ManagerPc.startsTask, ManagerPc.shutsDown]
        | polling patience => exact allowed
        | _ => rfl
      · cases stepped
  | task id ok bit =>
      simp only [openStep] at stepped
      split at stepped
      · cases stepped
      · obtain ⟨life, moved, rfl⟩ := Option.map_eq_some_iff.mp stepped
        exact single_step s.life life _ inv rfl moved
  | signal id port irq =>
      obtain rfl := Option.some.inj stepped
      exact single_step s.life _ (.signal id port irq) inv rfl rfl
  | installHook bmCookie hook =>
      obtain rfl := Option.some.inj stepped
      exact inv

theorem callsMade_begun (m₀ m : Manager) (acts : List ManagerAction) (kinds : List OpenAction)
    (t : OpenSystem) (kind : OpenAction) (pc : ManagerPc) (f : OpenFrame)
    (ran : (managerMachine.allow fewOpeners).run m₀ acts = some m)
    (same : List.Forall₂ SameCall kinds acts) (here : m.gone = false)
    (call : t.life.calls = [pc]) (frame : t.frames = [f]) (underway : Underway m t f pc kind) :
    CallsMade m₀ (kinds ++ [kind]) t :=
  .inside m acts kinds kind pc f rfl ran same here call frame underway

theorem callsMade_returned (m₀ m : Manager) (acts : List ManagerAction) (done : List OpenAction)
    (t : OpenSystem) (kind : OpenAction)
    (ran : (managerMachine.allow fewOpeners).run m₀ acts = some m)
    (same : List.Forall₂ SameCall done acts) (none : t.life.calls = []) (frames : t.frames = [])
    (returned : Returned m t kind) : CallsMade m₀ (done ++ [kind]) t := by
  obtain ⟨a, m', call, stepped, view, task⟩ := returned
  refine .idle m' (acts ++ [a]) ?_ ?_ none frames view task
  · rw [Machine.run_append, ran]
    simp [Machine.run, stepped]
  · exact List.rel_append same (.cons call .nil)

theorem callsMade_call (m₀ : Manager) (cold : ManagerCold m₀) (kinds : List OpenAction)
    (s t : OpenSystem) (i : Nat) (e : OpenEnv) (inv : SingleTask s.life)
    (made : CallsMade m₀ kinds s) (allowed : serial s (.call i e) = true)
    (stepped : openStep s (.call i e) = some t) : CallsMade m₀ kinds t := by
  obtain ⟨pc, f, u, next, called, framed, moved, rfl⟩ := open_call s t i e stepped
  cases made with
  | idle m acts ran same none =>
      rw [none] at called
      cases called
  | inside m acts done kind pc' f' begun ran same here call frame underway =>
      have accounts : Accounts m := accounts_reached m
        ((managerMachine.allow fewOpeners).run_reached m₀ m acts (.start m₀ cold) ran)
      -- the only call is the first one
      have first : i = 0 := by
        obtain ⟨small, -⟩ := List.getElem?_eq_some_iff.mp called
        rw [call] at small
        exact Nat.lt_one_iff.mp small
      subst first
      rw [call] at called
      rw [frame] at framed
      obtain rfl : pc' = pc := Option.some.inj called
      obtain rfl : f' = f := Option.some.inj framed
      have alone : { (callEffect e s f' pc').1 with
          life := { u with calls := next.toList ++ s.life.calls.eraseIdx 0 }
          frames := (next.map fun _ => (callEffect e s f' pc').2).toList ++ s.frames.eraseIdx 0 } =
          s.soleStated f' e pc' u next := by
        simp [OpenSystem.soleStated, call, frame]
      rw [alone]
      have onward : Onwards m (s.soleStated f' e pc' u next) (callEffect e s f' pc').2 kind
          next := by
        cases kind with
        | openDevice unitNum bmCookie =>
            obtain ⟨rfl, rfl, few, view, opening⟩ := underway
            exact opening_step m s f' e u next accounts inv here pc' call few view opening moved
        | closeDevice bmCookie =>
            obtain ⟨rfl, member, closing⟩ := underway
            refine closing_step m s f' e u next accounts here pc' member closing ?_ moved
            rintro patience rfl
            simpa [serial, call] using allowed
        | expunge =>
            obtain ⟨stays, ends⟩ := expunging_step m s f' e u next here pc' underway moved
            cases next with
            | none =>
                obtain ⟨view, task⟩ := ends rfl
                exact ⟨.expunge, m.expunge, .expunge, expunge_enabled m here, view, task⟩
            | some later => exact stays later rfl
        | _ => exact underway.elim
      cases next with
      | none =>
          rw [begun]
          exact callsMade_returned m₀ m acts done _ kind ran same rfl rfl onward
      | some later =>
          rw [begun]
          exact callsMade_begun m₀ m acts done _ kind later (callEffect e s f' pc').2 ran same here
            rfl rfl onward

section Begins

variable (m₀ m : Manager) (acts : List ManagerAction) (kinds : List OpenAction) (s t : OpenSystem)

theorem begins_here (a : OpenAction) (begins : a.begins = true)
    (stepped : openStep s a = some t) : s.life.removed = false := by
  by_contra gone
  have removed : s.life.removed = true := by simpa using gone
  cases a <;> simp_all [OpenAction.begins, openStep, lifecycleStep]

theorem openDevice_begun (unitNum : BitVec 32) (bmCookie : Addr) (accounts : Accounts m)
    (ran : (managerMachine.allow fewOpeners).run m₀ acts = some m)
    (same : List.Forall₂ SameCall kinds acts) (here : m.gone = false)
    (quiet : s.life.calls = []) (frames : s.frames = []) (view : s.view = m.view)
    (task : s.running = m.world.unit.task) (room : s.life.libOpenCnt ≠ 65535#16)
    (stepped : openStep s (.openDevice unitNum bmCookie) = some t) :
    CallsMade m₀ (kinds ++ [.openDevice unitNum bmCookie]) t := by
  have lib : s.life.libOpenCnt = m.libOpenCnt := congrArg ManagerView.libOpenCnt view
  have few : m.requests.length + 1 < 65536 := by
    have full : m.libOpenCnt.toNat ≠ (65535#16).toNat := fun same =>
      room (lib.trans (BitVec.eq_of_toNat_eq same))
    have below := accounts.few
    rw [accounts.lib] at full
    simp only [BitVec.toNat_ofNat] at full
    omega
  obtain ⟨life, moved, rfl⟩ := Option.map_eq_some_iff.mp stepped
  simp only [lifecycleStep] at moved
  split at moved
  · cases moved
  · cases moved
    apply callsMade_begun m₀ m acts kinds _ _ .opening ⟨unitNum, bmCookie, 0, 0⟩ ran same here
    · simp [quiet]
    · simp [frames]
    · refine ⟨rfl, rfl, few, ?_, task⟩
      simpa [OpenSystem.view, ManagerView.counted] using congrArg ManagerView.counted view

theorem closeDevice_begun (bmCookie : Addr) (accounts : Accounts m)
    (ran : (managerMachine.allow fewOpeners).run m₀ acts = some m)
    (same : List.Forall₂ SameCall kinds acts) (here : m.gone = false)
    (quiet : s.life.calls = []) (frames : s.frames = []) (view : s.view = m.view)
    (task : s.running = m.world.unit.task)
    (listed : (findRecord bmCookie s.openerList).isSome = true)
    (stepped : openStep s (.closeDevice bmCookie) = some t) :
    CallsMade m₀ (kinds ++ [.closeDevice bmCookie]) t := by
  have opened : bmCookie ∈ s.view.openers := by
    obtain ⟨entry, found⟩ := Option.isSome_iff_exists.mp listed
    have named : entry.op.bmCookie = bmCookie := by simpa using List.find?_some found
    exact List.mem_map.mpr ⟨entry, List.mem_of_find?_eq_some found, named⟩
  have member : bmCookie ∈ m.requests := by
    rw [view] at opened
    exact accounts.openers.mem_iff.mp opened
  obtain ⟨life, moved, rfl⟩ := Option.map_eq_some_iff.mp stepped
  simp only [lifecycleStep] at moved
  split at moved
  · cases moved
  · cases moved
    apply callsMade_begun m₀ m acts kinds _ _ .closeTest ⟨0#32, bmCookie, 0, 0⟩ ran same here
    · simp [quiet]
    · simp [frames]
    · exact ⟨rfl, member, view, task⟩

theorem expunge_begun (ran : (managerMachine.allow fewOpeners).run m₀ acts = some m)
    (same : List.Forall₂ SameCall kinds acts) (here : m.gone = false)
    (quiet : s.life.calls = []) (frames : s.frames = []) (view : s.view = m.view)
    (task : s.running = m.world.unit.task) (stepped : openStep s .expunge = some t) :
    CallsMade m₀ (kinds ++ [.expunge]) t := by
  obtain ⟨life, moved, rfl⟩ := Option.map_eq_some_iff.mp stepped
  simp only [lifecycleStep] at moved
  split at moved
  · cases moved
  · cases moved
    apply callsMade_begun m₀ m acts kinds _ _ .expungeTest ⟨0#32, 0, 0, 0⟩ ran same here
    · simp [quiet]
    · simp [frames]
    · exact ⟨view, task⟩

end Begins

theorem callsMade_begins (m₀ : Manager) (cold : ManagerCold m₀) (kinds : List OpenAction)
    (s t : OpenSystem) (a : OpenAction) (begins : a.begins = true) (made : CallsMade m₀ kinds s)
    (allowed : serial s a = true) (stepped : openStep s a = some t) :
    CallsMade m₀ (kinds ++ [a]) t := by
  have quiet : s.life.calls = [] := by
    cases a <;> simp_all [serial, OpenAction.begins]
  cases made with
  | inside m acts done kind pc f begun ran same here call =>
      rw [call] at quiet
      cases quiet
  | idle m acts ran same none frames view task =>
      have accounts : Accounts m := accounts_reached m
        ((managerMachine.allow fewOpeners).run_reached m₀ m acts (.start m₀ cold) ran)
      have here : m.gone = false := by
        have gone : s.life.removed = m.gone := congrArg ManagerView.gone view
        exact gone.symm.trans (begins_here s t a begins stepped)
      cases a with
      | openDevice unitNum bmCookie =>
          simp only [serial, Bool.and_eq_true, decide_eq_true_eq] at allowed
          exact openDevice_begun m₀ m acts kinds s t unitNum bmCookie accounts ran same here quiet
            frames view task allowed.2 stepped
      | closeDevice bmCookie =>
          simp only [serial, Bool.and_eq_true] at allowed
          exact closeDevice_begun m₀ m acts kinds s t bmCookie accounts ran same here quiet frames
            view task allowed.2 stepped
      | expunge =>
          exact expunge_begun m₀ m acts kinds s t ran same here quiet frames view task stepped
      | _ => cases begins

theorem callsMade_step (m₀ : Manager) (cold : ManagerCold m₀) (kinds : List OpenAction)
    (s t : OpenSystem) (a : OpenAction) (inv : SingleTask s.life) (made : CallsMade m₀ kinds s)
    (allowed : serial s a = true) (stepped : openStep s a = some t) :
    CallsMade m₀ (kinds ++ [a].filter OpenAction.begins) t := by
  by_cases begins : a.begins = true
  · rw [List.filter_cons_of_pos begins]
    exact callsMade_begins m₀ cold kinds s t a begins made allowed stepped
  · rw [List.filter_cons_of_neg begins, List.filter_nil, List.append_nil]
    cases a with
    | call i e => exact callsMade_call m₀ cold kinds s t i e inv made allowed stepped
    | task id ok bit =>
        obtain ⟨view, calls, frames, running⟩ := task_view s t id ok bit inv stepped
        exact callsMade_same m₀ kinds s t view calls frames running made
    | signal id port irq =>
        cases stepped
        exact callsMade_same m₀ kinds s _ rfl rfl rfl (.inl rfl) made
    | installHook bmCookie hook =>
        cases stepped
        have kept := armRecord_cookies bmCookie hook s.openerList
        refine callsMade_same m₀ kinds s _ ?_ rfl rfl (.inl rfl) made
        simp only [OpenSystem.view, kept]
    | _ => exact absurd rfl begins

theorem callsMade_run (m₀ : Manager) (cold : ManagerCold m₀) (kinds : List OpenAction)
    (s t : OpenSystem) (actions : List OpenAction) (inv : SingleTask s.life)
    (made : CallsMade m₀ kinds s) (ran : (openMachine.allow serial).run s actions = some t) :
    CallsMade m₀ (kinds ++ actions.filter OpenAction.begins) t := by
  induction actions generalizing s kinds with
  | nil =>
      cases ran
      simpa using made
  | cons a rest ih =>
      obtain ⟨u, moved, later⟩ := (openMachine.allow serial).run_cons s t a rest ran
      obtain ⟨allowed, stepped⟩ := openMachine.allow_step serial s u a moved
      have single := serial_single s u a inv (callsMade_few m₀ kinds s made) allowed stepped
      have now := callsMade_step m₀ cold kinds s u a inv made allowed stepped
      have all := ih (kinds ++ [a].filter OpenAction.begins) u single now later
      rwa [List.append_assoc, ← List.filter_append, List.singleton_append] at all

theorem callsMade_cold (m₀ : Manager) (cold : ManagerCold m₀) :
    CallsMade m₀ [] (openCold true) := by
  refine .idle m₀ [] rfl .nil rfl rfl ?_ cold.task.symm
  simp [OpenSystem.view, Manager.view, openCold, noSession, Manager.gone, cold.lib, cold.delExp,
    cold.unit, cold.ends, cold.opened, cold.openers]

/-- In a run whose calls do not overlap, while they and the unit tasks take turns statement by
statement, the calls leave the base and the unit as they do when each is one step. -/
theorem serial_calls_refine (m₀ : Manager) (cold : ManagerCold m₀) (t : OpenSystem)
    (actions : List OpenAction)
    (ran : (openMachine.allow serial).run (openCold true) actions = some t)
    (returned : t.life.calls = []) :
    ∃ calls m, List.Forall₂ SameCall (actions.filter OpenAction.begins) calls ∧
      (managerMachine.allow fewOpeners).run m₀ calls = some m ∧
      t.view = m.view ∧ t.running = m.world.unit.task := by
  have single : SingleTask (openCold true).life := single_reached noSession (.start noSession rfl)
  cases callsMade_run m₀ cold [] (openCold true) t actions single (callsMade_cold m₀ cold) ran with
  | idle m calls made same none frames view task => exact ⟨calls, m, same, made, view, task⟩
  | inside m calls done kind pc f begun made same here call =>
      rw [returned] at call
      cases call

/-- An `Open` after `Init`, its `Close` with the polling beside the exit of the unit task, and an
`Expunge`. -/
def wholeSession : List OpenAction :=
  [.openDevice 0#32 8192, .call 0 ⟨4096, none, false⟩, .call 0 ⟨0, some 20, false⟩,
    .call 0 ⟨0, none, true⟩, .task 0 true 16, .task 0 true 0, .task 0 true 17, .task 0 true 0,
    .call 0 ⟨0, none, false⟩, .task 0 true 0, .call 0 ⟨0, none, false⟩, .signal 0 false true,
    .task 0 true 0, .closeDevice 8192] ++
  List.replicate 6 (.call 0 ⟨0, none, false⟩) ++ List.replicate 3 (.task 0 true 0) ++
  [.call 0 ⟨0, none, false⟩] ++ List.replicate 2 (.task 0 true 0) ++
  List.replicate 3 (.call 0 ⟨0, none, false⟩) ++
  .expunge :: List.replicate 3 (.call 0 ⟨0, none, false⟩)

theorem serial_calls_refine_session :
    ∃ t calls m, (openMachine.allow serial).run (openCold true) wholeSession = some t ∧
      t.life.removed = true ∧
      List.Forall₂ SameCall [.openDevice 0#32 8192, .closeDevice 8192, .expunge] calls ∧
      (managerMachine.allow fewOpeners).run ⟨coldWorld, 0#16, false, true, [], []⟩ calls = some m ∧
      t.view = m.view ∧ t.running = m.world.unit.task := by
  obtain ⟨t, ran, shape⟩ := Option.map_eq_some_iff.mp
    (show ((openMachine.allow serial).run (openCold true) wholeSession).map
        (fun t => (t.life.calls, t.life.removed)) = some ([], true) by decide +kernel)
  obtain ⟨returned, removed⟩ := Prod.mk.inj shape
  obtain ⟨calls, m, same, made, view, task⟩ := serial_calls_refine
    ⟨coldWorld, 0#16, false, true, [], []⟩ ⟨rfl, rfl, rfl, rfl, rfl, rfl, rfl, rfl⟩ t wholeSession
    ran returned
  exact ⟨t, calls, m, ran, removed, same, made, view, task⟩

end Pa6tEth

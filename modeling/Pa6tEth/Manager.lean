import Pa6tEth.Driver
import Mathlib.Data.List.Perm.Basic

/-! `_manager_Open`, `_manager_Close` and `_manager_Expunge`, one call at a time. -/

namespace Pa6tEth

open Support

inductive ManagerEnd
  | opened
  | openFailed
  | closed
  | postponed
  | tornDown
  deriving DecidableEq, Repr

/-- The device base. `requests` are the cookies of the requests that `Open` succeeded on and that
were not closed, `ends` the calls made so far, the last one first. -/
structure Manager where
  world : World
  libOpenCnt : BitVec 16
  delExp : Bool
  unitPresent : Bool
  requests : List Addr
  ends : List ManagerEnd

inductive ManagerAction
  | openDevice (unitNum : BitVec 32) (bmCookie : Addr) (allocated : Bool) (outcome : StartOutcome)
  | closeDevice (bmCookie : Addr)
  | expunge

namespace Manager

/-- The base was deleted, and no call can be made on it. -/
def gone (s : Manager) : Bool := s.ends.contains .tornDown

/-- The `fail` label of `_manager_Open`. -/
def openFail (s : Manager) (w : World) : Manager :=
  { s with world := w, libOpenCnt := s.libOpenCnt - 1, ends := .openFailed :: s.ends }

/-- `_manager_Open`. -/
def openDevice (s : Manager) (unitNum : BitVec 32) (bmCookie : Addr) (allocated : Bool)
    (outcome : StartOutcome) : Manager :=
  let counted := { s with libOpenCnt := s.libOpenCnt + 1 }
  if unitNum ≠ 0#32 then counted.openFail s.world
  else if s.unitPresent = false then counted.openFail s.world
  else if allocated = false then counted.openFail s.world
  else if s.world.unit.openCount = 0 ∧ outcome ≠ .started then
    counted.openFail (s.world.unitTaskStart outcome)
  else
    let started :=
      if s.world.unit.openCount = 0 then s.world.unitTaskStart outcome else s.world
    { counted with
      world := started.addOpener bmCookie
      delExp := false
      requests := bmCookie :: s.requests
      ends := .opened :: s.ends }

/-- `_manager_Expunge`. -/
def expunge (s : Manager) : Manager :=
  if s.libOpenCnt ≠ 0#16 then { s with delExp := true, ends := .postponed :: s.ends }
  else { s with unitPresent := false, ends := .tornDown :: s.ends }

/-- `UnitTask_Shutdown` in `_manager_Close`, with the unit task's exit seen by its polling. -/
def closeUnit (w : World) (bmCookie : Addr) : World :=
  if w.unit.openCount = 1 ∧ w.unit.task = true then (w.close bmCookie).freeTask
  else w.close bmCookie

/-- `_manager_Close` up to its check for a postponed `Expunge`. -/
def countClose (s : Manager) (bmCookie : Addr) : Manager :=
  { s with
    world := closeUnit s.world bmCookie
    libOpenCnt := s.libOpenCnt - 1
    requests := s.requests.erase bmCookie
    ends := .closed :: s.ends }

/-- `_manager_Close`. -/
def closeDevice (s : Manager) (bmCookie : Addr) : Manager :=
  if (s.countClose bmCookie).libOpenCnt = 0#16 ∧ (s.countClose bmCookie).delExp = true then
    (s.countClose bmCookie).expunge
  else s.countClose bmCookie

end Manager

/-- One call; a `Close` is made on a request that is open. -/
def managerStep (s : Manager) (a : ManagerAction) : Option Manager :=
  if s.gone then none
  else
    match a with
    | .openDevice unitNum bmCookie allocated outcome =>
        some (s.openDevice unitNum bmCookie allocated outcome)
    | .closeDevice bmCookie => if bmCookie ∈ s.requests then some (s.closeDevice bmCookie) else none
    | .expunge => some s.expunge

/-- The base after `Init`. -/
structure ManagerCold (s : Manager) : Prop where
  lib : s.libOpenCnt = 0#16
  delExp : s.delExp = false
  unit : s.unitPresent = true
  requests : s.requests = []
  ends : s.ends = []
  opened : s.world.unit.openCount = 0
  openers : s.world.unit.openerList = []
  task : s.world.unit.task = false

def managerMachine : Machine Manager ManagerAction where
  start := ManagerCold
  step := managerStep

def fewOpeners (s : Manager) : ManagerAction → Bool
  | .openDevice _ _ _ _ => s.requests.length + 1 < 65536
  | _ => true

/-- An `Expunge` was postponed and no `Open` has succeeded since. -/
def postponed : List ManagerEnd → Bool
  | [] => false
  | .postponed :: _ => true
  | .opened :: _ => false
  | .openFailed :: rest => postponed rest
  | .closed :: rest => postponed rest
  | .tornDown :: rest => postponed rest

theorem openDevice_driver (ch : Channels) (s : Manager) (d t : Driver) (bmCookie : Addr)
    (allocated : Bool) (outcome : StartOutcome) (world : d.world = s.world)
    (present : s.unitPresent = true)
    (stepped : driverStep ch d (.openDevice bmCookie allocated outcome) = some t) :
    (s.openDevice 0#32 bmCookie allocated outcome).world.unit = t.world.unit := by
  simp only [driverStep, world] at stepped
  simp only [Manager.openDevice, ne_eq, not_true_eq_false, if_false, present, reduceCtorEq]
  split at stepped
  · rename_i none
    obtain rfl := Option.some.inj stepped
    rw [if_pos none, world]
    rfl
  · rename_i given
    rw [if_neg given]
    split at stepped
    · rename_i opened
      obtain rfl := Option.some.inj stepped
      rw [if_neg fun first => opened first.1, if_neg opened]
    · rename_i closed
      have closed : s.world.unit.openCount = 0 := by simpa using closed
      split at stepped
      · rename_i failed
        obtain rfl := Option.some.inj stepped
        rw [if_pos ⟨closed, failed⟩]
        rfl
      · rename_i started
        obtain rfl := Option.some.inj stepped
        rw [if_neg fun first => started first.2, if_pos closed]

theorem expunge_world (s : Manager) : s.expunge.world = s.world := by
  simp only [Manager.expunge]
  split <;> rfl

theorem closeDevice_driver (ch : Channels) (s : Manager) (d t : Driver) (bmCookie : Addr)
    (world : d.world = s.world)
    (stepped : driverStep ch d (.closeDevice bmCookie) = some t) :
    (s.closeDevice bmCookie).world.unit = t.world.unit ∨
      (s.closeDevice bmCookie).world.unit = t.world.freeTask.unit := by
  obtain rfl := Option.some.inj stepped
  have kept : (s.closeDevice bmCookie).world = Manager.closeUnit s.world bmCookie := by
    simp only [Manager.closeDevice]
    split
    · exact expunge_world _
    · rfl
  rw [kept, Manager.closeUnit, world]
  split
  · exact .inr rfl
  · exact .inl rfl

structure Accounts (s : Manager) : Prop where
  lib : s.libOpenCnt.toNat = s.requests.length
  few : s.requests.length < 65536
  opened : s.world.unit.openCount = s.requests.length
  openers : (s.world.unit.openerList.map Opener.bmCookie).Perm s.requests
  task : s.world.unit.task = true ↔ 0 < s.requests.length
  unit : s.gone = false → s.unitPresent = true
  flag : s.gone = false → s.delExp = postponed s.ends
  once : s.ends.count .tornDown ≤ 1
  torn : s.gone = true → s.requests = []

theorem closeUnit_fields (w : World) (bmCookie : Addr) :
    (Manager.closeUnit w bmCookie).unit.openCount = w.unit.openCount - 1 ∧
      (Manager.closeUnit w bmCookie).unit.openerList =
        w.unit.openerList.eraseP (fun op => op.bmCookie == bmCookie) ∧
      (Manager.closeUnit w bmCookie).unit.task =
        (w.unit.task && decide (w.unit.openCount ≠ 1)) := by
  by_cases last : w.unit.openCount = 1 <;> by_cases running : w.unit.task = true <;>
    simp [Manager.closeUnit, World.close, World.unitTaskShutdown, World.freeTask, last, running]

theorem accounts_fail (s : Manager) (w : World) (inv : Accounts s) (here : s.gone = false)
    (opened : w.unit.openCount = s.world.unit.openCount)
    (openers : w.unit.openerList = s.world.unit.openerList)
    (task : w.unit.task = s.world.unit.task) :
    Accounts (({ s with libOpenCnt := s.libOpenCnt + 1 } : Manager).openFail w) := by
  have count : s.libOpenCnt + 1 - 1 = s.libOpenCnt := by
    rw [BitVec.add_sub_cancel]
  have still : (({ s with libOpenCnt := s.libOpenCnt + 1 } : Manager).openFail w).gone = s.gone := by
    simp [Manager.gone, Manager.openFail]
  constructor
  · simp only [Manager.openFail, count]
    exact inv.lib
  · exact inv.few
  · exact opened.trans inv.opened
  · simp only [Manager.openFail, openers]
    exact inv.openers
  · simp only [Manager.openFail, task]
    exact inv.task
  · exact fun _ => inv.unit here
  · exact fun _ => inv.flag here
  · simpa [Manager.openFail] using inv.once
  · intro torn
    rw [still, here] at torn
    cases torn

theorem unitTaskStart_fields (w : World) (outcome : StartOutcome) :
    (w.unitTaskStart outcome).unit.openCount = w.unit.openCount ∧
      (w.unitTaskStart outcome).unit.openerList = w.unit.openerList ∧
      (w.unit.task = false → outcome ≠ .started → (w.unitTaskStart outcome).unit.task = false) := by
  cases outcome <;> simp [World.unitTaskStart]

theorem accounts_open (s : Manager) (unitNum : BitVec 32) (bmCookie : Addr) (allocated : Bool)
    (outcome : StartOutcome) (inv : Accounts s) (here : s.gone = false)
    (few : s.requests.length + 1 < 65536) :
    Accounts (s.openDevice unitNum bmCookie allocated outcome) := by
  obtain ⟨count, list, idle⟩ := unitTaskStart_fields s.world outcome
  simp only [Manager.openDevice]
  split
  · exact accounts_fail s s.world inv here rfl rfl rfl
  · split
    · exact accounts_fail s s.world inv here rfl rfl rfl
    · split
      · exact accounts_fail s s.world inv here rfl rfl rfl
      · split
        · rename_i failed
          have stopped : s.world.unit.task = false := by
            have none : ¬ 0 < s.requests.length := by
              rw [← inv.opened, failed.1]
              exact Nat.lt_irrefl 0
            simpa using mt inv.task.mp none
          refine accounts_fail s _ inv here count list ?_
          rw [idle stopped failed.2, stopped]
        · rename_i starts
          have lib := inv.lib
          have counted : (s.libOpenCnt + 1).toNat = s.requests.length + 1 := by
            have one : (1 : BitVec 16).toNat = 1 := rfl
            simp only [BitVec.toNat_add, lib, one]
            omega
          constructor
          · exact counted
          · exact few
          · have opened := inv.opened
            simp only [World.addOpener, List.length_cons]
            split <;> simp only [count, opened]
          · have openers := inv.openers
            simp only [World.addOpener]
            split <;> simp only [list, List.map_append, List.map_cons, List.map_nil] <;>
              exact (List.perm_append_singleton _ _).trans (openers.cons _)
          · have running := inv.task
            simp only [World.addOpener, List.length_cons, Nat.zero_lt_succ, iff_true]
            split
            · rename_i first
              have started : outcome = .started := by
                by_contra failed
                exact starts ⟨first, failed⟩
              simp [started, World.unitTaskStart]
            · rename_i later
              refine running.mpr ?_
              rw [← inv.opened]
              exact Nat.pos_of_ne_zero later
          · exact fun _ => inv.unit here
          · exact fun _ => rfl
          · simpa using inv.once
          · intro torn
            have still : s.gone = true := by simpa [Manager.gone] using torn
            rw [here] at still
            cases still

theorem accounts_expunge (s : Manager) (inv : Accounts s) (here : s.gone = false) :
    Accounts s.expunge := by
  have before : s.ends.count .tornDown = 0 := by
    rw [List.count_eq_zero]
    simpa [Manager.gone] using here
  simp only [Manager.expunge]
  split
  · refine { inv with flag := fun _ => rfl, unit := fun _ => inv.unit here, once := ?_, torn := ?_ }
    · simp [before]
    · intro torn
      have still : s.gone = true := by simpa [Manager.gone] using torn
      rw [here] at still
      cases still
  · rename_i zero
    have empty : s.libOpenCnt = 0#16 := by simpa using zero
    refine { inv with flag := ?_, unit := ?_, once := ?_, torn := fun _ => ?_ }
    · intro standing
      simp [Manager.gone] at standing
    · intro standing
      simp [Manager.gone] at standing
    · simp [before]
    · have lib := inv.lib
      rw [empty] at lib
      exact List.length_eq_zero_iff.mp lib.symm

theorem accounts_closed (s : Manager) (bmCookie : Addr) (inv : Accounts s)
    (here : s.gone = false) (member : bmCookie ∈ s.requests) :
    Accounts (s.countClose bmCookie) := by
  simp only [Manager.countClose]
  obtain ⟨opened, openers, task⟩ := closeUnit_fields s.world bmCookie
  have length := List.length_erase_of_mem member
  have positive := List.length_pos_of_mem member
  have lib := inv.lib
  have few := inv.few
  constructor
  · have one : (1 : BitVec 16).toNat = 1 := rfl
    simp only [length, BitVec.toNat_sub, lib, one]
    omega
  · simp only [length]
    omega
  · simp only [opened, length, inv.opened]
  · have removed : (s.world.unit.openerList.eraseP fun op => op.bmCookie == bmCookie).map
        Opener.bmCookie = (s.world.unit.openerList.map Opener.bmCookie).erase bmCookie := by
      rw [List.erase_eq_eraseP', List.eraseP_map]
      rfl
    simp only [openers, removed]
    exact inv.openers.erase bmCookie
  · have running := inv.task
    simp only [task, length, inv.opened, Bool.and_eq_true, running, decide_eq_true_eq]
    omega
  · exact fun _ => inv.unit here
  · exact fun _ => inv.flag here
  · simpa using inv.once
  · intro torn
    have still : s.gone = true := by simpa [Manager.gone] using torn
    rw [here] at still
    cases still

theorem accounts_close (s : Manager) (bmCookie : Addr) (inv : Accounts s) (here : s.gone = false)
    (member : bmCookie ∈ s.requests) : Accounts (s.closeDevice bmCookie) := by
  have closed := accounts_closed s bmCookie inv here member
  simp only [Manager.closeDevice]
  split
  · refine accounts_expunge _ closed ?_
    simpa [Manager.gone, Manager.countClose] using here
  · exact closed

theorem manager_step (s t : Manager) (a : ManagerAction) (stepped : managerStep s a = some t) :
    s.gone = false ∧
      ((∃ unitNum bmCookie allocated outcome, a = .openDevice unitNum bmCookie allocated outcome ∧
          t = s.openDevice unitNum bmCookie allocated outcome) ∨
        (∃ bmCookie, a = .closeDevice bmCookie ∧ bmCookie ∈ s.requests ∧
          t = s.closeDevice bmCookie) ∨
        (a = .expunge ∧ t = s.expunge)) := by
  simp only [managerStep] at stepped
  split at stepped
  · cases stepped
  · rename_i standing
    refine ⟨by simpa using standing, ?_⟩
    cases a with
    | openDevice unitNum bmCookie allocated outcome =>
        exact .inl ⟨_, _, _, _, rfl, (Option.some.inj stepped).symm⟩
    | closeDevice bmCookie =>
        simp only at stepped
        split at stepped
        · rename_i member
          exact .inr (.inl ⟨bmCookie, rfl, member, (Option.some.inj stepped).symm⟩)
        · cases stepped
    | expunge => exact .inr (.inr ⟨rfl, (Option.some.inj stepped).symm⟩)

theorem accounts_reached (s : Manager) (reached : (managerMachine.allow fewOpeners).Reached s) :
    Accounts s := by
  refine (managerMachine.allow fewOpeners).invariant Accounts ?_ ?_ s reached
  · intro s cold
    constructor
    · rw [cold.lib, cold.requests]
      rfl
    · simp [cold.requests]
    · rw [cold.opened, cold.requests]
      rfl
    · rw [cold.openers, cold.requests]
      exact List.Perm.refl _
    · simp [cold.task, cold.requests]
    · exact fun _ => cold.unit
    · intro _
      rw [cold.delExp, cold.ends]
      rfl
    · simp [cold.ends]
    · exact fun _ => cold.requests
  · intro s a t inv moved
    obtain ⟨few, stepped⟩ := managerMachine.allow_step fewOpeners s t a moved
    obtain ⟨here, calls⟩ := manager_step s t a stepped
    rcases calls with ⟨unitNum, bmCookie, allocated, outcome, rfl, rfl⟩ |
      ⟨bmCookie, rfl, member, rfl⟩ | ⟨rfl, rfl⟩
    · exact accounts_open s unitNum bmCookie allocated outcome inv here
        (by simpa [fewOpeners] using few)
    · exact accounts_close s bmCookie inv here member
    · exact accounts_expunge s inv here

theorem expunge_gone (s : Manager) (here : s.gone = false) :
    s.expunge.gone = true ↔ s.libOpenCnt = 0#16 := by
  have standing : ¬ ManagerEnd.tornDown ∈ s.ends := by simpa [Manager.gone] using here
  simp only [Manager.expunge]
  split
  · rename_i counted
    simp only [ne_eq] at counted
    simp [Manager.gone, standing, counted]
  · rename_i zero
    simp only [ne_eq, Decidable.not_not] at zero
    simp [Manager.gone, zero]

theorem open_gone (s : Manager) (unitNum : BitVec 32) (bmCookie : Addr) (allocated : Bool)
    (outcome : StartOutcome) :
    (s.openDevice unitNum bmCookie allocated outcome).gone = s.gone := by
  simp only [Manager.openDevice, Manager.openFail, Manager.gone]
  repeat' split
  all_goals simp

/-- A `Close` tears down exactly when it brings the count to zero with an `Expunge` postponed. -/
theorem close_gone (s : Manager) (bmCookie : Addr) (inv : Accounts s) (here : s.gone = false)
    (member : bmCookie ∈ s.requests) :
    (s.closeDevice bmCookie).gone = true ↔
      (s.closeDevice bmCookie).world.unit.openCount = 0 ∧ postponed s.ends = true := by
  have closed := accounts_closed s bmCookie inv here member
  have count : s.libOpenCnt - 1 = 0#16 ↔
      (Manager.closeUnit s.world bmCookie).unit.openCount = 0 := by
    have same := closed.lib.trans closed.opened.symm
    simp only [Manager.countClose] at same
    rw [← same]
    exact BitVec.toNat_inj.symm
  have standing : ¬ ManagerEnd.tornDown ∈ s.ends := by simpa [Manager.gone] using here
  have world : (s.countClose bmCookie).world = Manager.closeUnit s.world bmCookie := rfl
  have lib : (s.countClose bmCookie).libOpenCnt = s.libOpenCnt - 1 := rfl
  have flag : (s.countClose bmCookie).delExp = s.delExp := rfl
  simp only [Manager.closeDevice, lib, flag]
  split
  · rename_i last
    rw [expunge_gone _ (by simpa [Manager.gone, Manager.countClose] using standing), expunge_world,
      world, lib, ← inv.flag here, last.2]
    simp only [count, and_true]
  · rename_i kept
    rw [count, inv.flag here] at kept
    refine iff_of_false ?_ kept
    simp [Manager.gone, Manager.countClose, standing]

/-- Between calls the three counts agree, the cookies are those of the open requests and the unit
task runs exactly while one is open; the teardown happens at most once and with all of them at
zero, and of a postponed `Expunge` it is made by the `Close` that brings the count there. -/
theorem manager_accounting (s : Manager)
    (reached : (managerMachine.allow fewOpeners).Reached s) :
    (s.libOpenCnt.toNat = s.world.unit.openCount ∧
      s.world.unit.openCount = s.world.unit.openerList.length) ∧
    (s.world.unit.openerList.map Opener.bmCookie).Perm s.requests ∧
    (s.world.unit.task = true ↔ 0 < s.world.unit.openCount) ∧
    s.ends.count .tornDown ≤ 1 ∧
    (s.gone = true →
      s.libOpenCnt = 0#16 ∧ s.world.unit.openCount = 0 ∧ s.world.unit.openerList = []) ∧
    (∀ a t, managerMachine.step s a = some t →
      (t.gone = true ↔ (a = .expunge ∧ s.libOpenCnt = 0#16) ∨
        ∃ bmCookie, a = .closeDevice bmCookie ∧ t.world.unit.openCount = 0 ∧
          postponed s.ends = true)) := by
  have inv := accounts_reached s reached
  have length : s.world.unit.openerList.length = s.requests.length := by
    rw [← inv.openers.length_eq, List.length_map]
  refine ⟨⟨inv.lib.trans inv.opened.symm, inv.opened.trans length.symm⟩, inv.openers, ?_, inv.once,
    ?_, ?_⟩
  · rw [inv.opened]
    exact inv.task
  · intro torn
    have none := inv.torn torn
    have lib := inv.lib
    have opened := inv.opened
    rw [none] at length lib opened
    exact ⟨BitVec.eq_of_toNat_eq lib, opened, List.length_eq_zero_iff.mp length⟩
  · intro a t stepped
    obtain ⟨here, calls⟩ := manager_step s t a stepped
    rcases calls with ⟨unitNum, bmCookie, allocated, outcome, rfl, rfl⟩ |
      ⟨bmCookie, rfl, member, rfl⟩ | ⟨rfl, rfl⟩
    · simp [open_gone, here]
    · simp [close_gone s bmCookie inv here member]
    · simp [expunge_gone s here]

/-- Two openers, an `Expunge` while both are open, and both closed. -/
theorem manager_accounting_delayed :
    ∃ s, (managerMachine.allow fewOpeners).Reached s ∧ s.gone = true ∧
      s.libOpenCnt = 0#16 ∧ s.world.unit.openCount = 0 ∧ s.world.unit.openerList = [] := by
  obtain ⟨s, reached, torn⟩ := (managerMachine.allow fewOpeners).run_shape Manager.gone true
    ⟨coldWorld, 0#16, false, true, [], []⟩
    [.openDevice 0#32 0 true .started, .openDevice 0#32 0 true .started, .expunge,
      .closeDevice 0, .closeDevice 0]
    (.start _ ⟨rfl, rfl, rfl, rfl, rfl, rfl, rfl, rfl⟩) (by decide +kernel)
  exact ⟨s, reached, torn, (manager_accounting s reached).2.2.2.2.1 torn⟩

end Pa6tEth

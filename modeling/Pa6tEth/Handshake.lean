import Pa6tEth.Lifecycle
import Mathlib.Data.List.Perm.Basic

/-! What the calls of the device manager and the unit task know of each other, and that every step
of a call keeps it. -/

namespace Pa6tEth

open Support

namespace BodyPc

def startup : BodyPc → Bool
  | allocPort => true
  | setTask => true
  | allocSignal => true
  | unwindPort => true
  | unwindTask => true
  | reportFailure => true
  | reportReady => true
  | _ => false

def holdsPort : BodyPc → Bool
  | allocPort => false
  | unwindTask => false
  | reportFailure => false
  | exitTask => false
  | _ => true

def holdsTask : BodyPc → Bool
  | allocPort => false
  | setTask => false
  | reportFailure => false
  | _ => true

def holdsIrq : BodyPc → Bool
  | reportReady => true
  | loopHead => true
  | waiting => true
  | woken => true
  | working => true
  | draining => true
  | exitIrq => true
  | _ => false

def inLoop : BodyPc → Bool
  | loopHead => true
  | waiting => true
  | woken => true
  | working => true
  | _ => false

/-- Before `unit->task` is set. -/
def unnamed : BodyPc → Bool
  | allocPort => true
  | setTask => true
  | _ => false

end BodyPc

namespace ManagerPc

/-- In `UnitTask_Start`, before the task exists. -/
def beforeTask : ManagerPc → Bool
  | startFlag => true
  | creating => true
  | _ => false

/-- It has seen `unit->task` set. -/
def sees : ManagerPc → Bool
  | shutFlag => true
  | shutSignal => true
  | polling _ => true
  | _ => false

def asks : ManagerPc → Bool
  | shutSignal => true
  | polling _ => true
  | _ => false

/-- `lib_OpenCnt` counts the call. -/
def libCounted : ManagerPc → Bool
  | libTest => false
  | expungeTest => false
  | expungeDefer => false
  | expungeRemove => false
  | expungeFree => false
  | _ => true

/-- `open_count` counts the call. -/
def closes : ManagerPc → Bool
  | closeTest => true
  | uncounting => true
  | _ => false

end ManagerPc

/-- The counts, and that a base is removed only with all of them at zero. -/
structure OpensCounted (s : Lifecycle) : Prop where
  lib : s.libOpenCnt.toNat = s.requests + s.calls.countP ManagerPc.libCounted
  opened : s.openCount = s.requests + s.calls.countP ManagerPc.closes
  removed : s.removed = true → s.libOpenCnt = 0#16
  removing : .expungeRemove ∈ s.calls → s.libOpenCnt = 0#16
  freeing : .expungeFree ∈ s.calls → s.removed = true
  freed : s.unitFreed = true → s.removed = true

def bodyPlaces (bodies : List UnitTaskBody) : List (TaskId × BodyPc) :=
  bodies.map fun b => (b.id, b.pc)

structure OwnFields (s : Lifecycle) : Prop where
  one : s.bodies.length ≤ 1
  port : ∀ id pc, (id, pc) ∈ bodyPlaces s.bodies → s.ioPort = if pc.holdsPort then some id else none
  task : ∀ id pc, (id, pc) ∈ bodyPlaces s.bodies → s.task = if pc.holdsTask then some id else none
  irq : ∀ id pc, (id, pc) ∈ bodyPlaces s.bodies → s.irqWaitTask = if pc.holdsIrq then some id else none
  idle : bodyPlaces s.bodies = [] → s.ioPort = none ∧ s.task = none ∧ s.irqWaitTask = none
  cleared : ∀ c ∈ s.cleared, c.owner = none ∨ c.owner = some c.task

/-- A body has a parent until it has signalled it, and no second one is created meanwhile. -/
structure Startup (s : Lifecycle) : Prop where
  single : s.calls.countP ManagerPc.startsTask ≤ 1
  empty : ∀ c ∈ s.calls, c.beforeTask = true → bodyPlaces s.bodies = []
  parent : ∀ id pc, (id, pc) ∈ bodyPlaces s.bodies → pc.startup = true →
    .starting id ∈ s.calls ∧ id ∉ s.reported
  fresh : ∀ id pc, (id, pc) ∈ bodyPlaces s.bodies → id < s.created
  known : ∀ id ∈ s.reported, id < s.created

def Lifecycle.Wanted (s : Lifecycle) (id : TaskId) : Prop :=
  0 < s.openCount ∨ .starting id ∈ s.calls ∨ .counting true ∈ s.calls ∨
    ∃ c ∈ s.calls, c.shutsDown = true

/-- A task is about to be created, or has not yet set `unit->task`. -/
def Lifecycle.Nameless (s : Lifecycle) : Prop :=
  (∃ c ∈ s.calls, c.beforeTask = true) ∨ ∃ id pc, (id, pc) ∈ bodyPlaces s.bodies ∧ pc.unnamed = true

/-- One that can see the flag has a call that waits for it, and the flag is not lowered under
it. -/
structure Guarded (s : Lifecycle) : Prop where
  wanted : ∀ id pc, (id, pc) ∈ bodyPlaces s.bodies → s.Wanted id
  shown : ∀ id pc, (id, pc) ∈ bodyPlaces s.bodies → s.taskShutdown = true → pc.holdsTask = true →
    ∃ c ∈ s.calls, c.asks = true
  created : .creating ∈ s.calls → s.taskShutdown = false
  lowered : ∀ id pc, (id, pc) ∈ bodyPlaces s.bodies → pc.unnamed = true → s.taskShutdown = false
  unasked : s.Nameless → ∀ c ∈ s.calls, c.sees = false
  raised : ∀ c ∈ s.calls, c.asks = true → s.taskShutdown = true

structure Asked (s : Lifecycle) : Prop where
  leaving : ∀ id pc, (id, pc) ∈ bodyPlaces s.bodies → pc.startup = false → pc.inLoop = false →
    s.taskShutdown = true
  flagged : ∀ b ∈ s.bodies, b.signals.ctrlC = true ∨ b.id ∈ s.asked → s.taskShutdown = true
  awake : ∀ b ∈ s.bodies, b.id ∈ s.asked → b.pc = .waiting → b.signals.ctrlC = true
  known : ∀ id ∈ s.asked, id < s.created

theorem lifecycle_call (s t : Lifecycle) (i : Nat) (ok : Bool)
    (stepped : lifecycleStep s (.call i ok) = some t) :
    ∃ pc u next, s.calls[i]? = some pc ∧ managerCallStep ok s pc = some (u, next) ∧
      t = { u with calls := next.toList ++ s.calls.eraseIdx i } := by
  simp only [lifecycleStep] at stepped
  split at stepped
  · cases stepped
  · rename_i pc present
    obtain ⟨⟨u, next⟩, moved, rfl⟩ := Option.map_eq_some_iff.mp stepped
    exact ⟨pc, u, next, present, moved, rfl⟩

theorem lifecycle_task (s t : Lifecycle) (id : TaskId) (ok : Bool)
    (stepped : lifecycleStep s (.task id ok) = some t) :
    ∃ b u next, s.bodies.find? (fun b => b.id = id) = some b ∧
      bodyStep ok s b = some (u, next) ∧ t = u.putBody id next := by
  simp only [lifecycleStep] at stepped
  split at stepped
  · cases stepped
  · rename_i b found
    obtain ⟨⟨u, next⟩, moved, rfl⟩ := Option.map_eq_some_iff.mp stepped
    exact ⟨b, u, next, found, moved, rfl⟩

theorem counted_perm (s : Lifecycle) (calls : List ManagerPc) (perm : s.calls.Perm calls)
    (counted : OpensCounted s) : OpensCounted { s with calls := calls } := by
  constructor
  · simpa only [← perm.countP_eq] using counted.lib
  · simpa only [← perm.countP_eq] using counted.opened
  · exact counted.removed
  · simpa only [← perm.mem_iff] using counted.removing
  · simpa only [← perm.mem_iff] using counted.freeing
  · exact counted.freed

theorem startup_perm (s : Lifecycle) (calls : List ManagerPc) (perm : s.calls.Perm calls)
    (startup : Startup s) : Startup { s with calls := calls } := by
  constructor
  · simpa only [← perm.countP_eq] using startup.single
  · simpa only [← perm.mem_iff] using startup.empty
  · simpa only [← perm.mem_iff] using startup.parent
  · exact startup.fresh
  · exact startup.known

theorem guarded_perm (s : Lifecycle) (calls : List ManagerPc) (perm : s.calls.Perm calls)
    (guarded : Guarded s) : Guarded { s with calls := calls } := by
  constructor
  · simpa only [Lifecycle.Wanted, ← perm.mem_iff] using guarded.wanted
  · simpa only [← perm.mem_iff] using guarded.shown
  · simpa only [← perm.mem_iff] using guarded.created
  · exact guarded.lowered
  · simpa only [Lifecycle.Nameless, ← perm.mem_iff] using guarded.unasked
  · simpa only [← perm.mem_iff] using guarded.raised

theorem call_perm (calls : List ManagerPc) (i : Nat) (pc : ManagerPc)
    (present : calls[i]? = some pc) : calls.Perm (pc :: calls.eraseIdx i) := by
  obtain ⟨small, rfl⟩ := List.getElem?_eq_some_iff.mp present
  exact (List.getElem_cons_eraseIdx_perm small).symm

theorem counted_next (s u : Lifecycle) (pc : ManagerPc) (next : Option ManagerPc)
    (rest : List ManagerPc) (calls : s.calls = pc :: rest) (counted : OpensCounted s)
    (lib : u.libOpenCnt = s.libOpenCnt) (opened : u.openCount = s.openCount)
    (requests : u.requests = s.requests) (removed : u.removed = s.removed)
    (freed : u.unitFreed = s.unitFreed) (weight : next.any ManagerPc.libCounted = pc.libCounted)
    (closing : next.any ManagerPc.closes = pc.closes)
    (empty : next = some .expungeRemove → s.libOpenCnt = 0#16)
    (standing : next ≠ some .expungeFree) :
    OpensCounted { u with calls := next.toList ++ rest } := by
  constructor
  · have before := counted.lib
    rw [calls, List.countP_cons, ← weight] at before
    simp only [lib, requests]
    cases next <;> simpa [List.countP_cons] using before
  · have before := counted.opened
    rw [calls, List.countP_cons, ← closing] at before
    simp only [opened, requests]
    cases next <;> simpa [List.countP_cons] using before
  · simpa only [lib, removed] using counted.removed
  · intro member
    simp only [lib]
    rcases List.mem_append.mp member with new | old
    · exact empty (Option.mem_toList.mp new)
    · exact counted.removing (calls ▸ List.mem_cons_of_mem pc old)
  · intro member
    rw [removed]
    rcases List.mem_append.mp member with new | old
    · exact absurd (Option.mem_toList.mp new) standing
    · exact counted.freeing (calls ▸ List.mem_cons_of_mem pc old)
  · simpa only [freed, removed] using counted.freed

theorem libOpenCnt_minus (count : BitVec 16) (positive : 0 < count.toNat) :
    (count - 1).toNat = count.toNat - 1 := by
  have one : (1 : BitVec 16).toNat = 1 := rfl
  have small := count.isLt
  simp only [BitVec.toNat_sub, one]
  omega

theorem counted_stands (s : Lifecycle) (counted : OpensCounted s) (pc : ManagerPc)
    (member : pc ∈ s.calls) (weighs : pc.libCounted = true) :
    s.libOpenCnt ≠ 0#16 ∧ s.removed = false ∧ .expungeRemove ∉ s.calls := by
  have some : s.libOpenCnt ≠ 0#16 := by
    intro zero
    have lib := counted.lib
    have positive := List.countP_pos_iff.mpr ⟨pc, member, weighs⟩
    rw [zero, BitVec.toNat_zero] at lib
    omega
  refine ⟨some, ?_, fun removing => some (counted.removing removing)⟩
  by_contra gone
  exact some (counted.removed (by simpa using gone))

theorem counted_minus (s : Lifecycle) (pc : ManagerPc) (next : Option ManagerPc)
    (rest : List ManagerPc) (calls : s.calls = pc :: rest) (counted : OpensCounted s)
    (weighs : pc.libCounted = true) (light : next.any ManagerPc.libCounted = false)
    (closing : pc.closes = false) (ends : next = none ∨ next = some .libTest) :
    OpensCounted { s with libOpenCnt := s.libOpenCnt - 1, calls := next.toList ++ rest } := by
  have here : pc ∈ s.calls := by simp [calls]
  obtain ⟨-, standing, still⟩ := counted_stands s counted pc here weighs
  have lib := counted.lib
  have opened := counted.opened
  rw [calls, List.countP_cons, if_pos weighs] at lib
  rw [calls, List.countP_cons, closing, if_neg Bool.false_ne_true, Nat.add_zero] at opened
  have minus := libOpenCnt_minus s.libOpenCnt (by omega)
  have none : ∀ property : ManagerPc → Bool, next.any property = false →
      (next.toList ++ rest).countP property = rest.countP property := by
    intro property light
    rcases ends with rfl | rfl
    · rfl
    · simpa [List.countP_cons] using light
  have elsewhere : ∀ c, c ≠ .libTest → c ∈ next.toList ++ rest → c ∈ s.calls := by
    intro c apart member
    rcases ends with rfl | rfl
    · exact calls ▸ List.mem_cons_of_mem pc member
    · exact calls ▸ List.mem_cons_of_mem pc ((List.mem_cons.mp member).resolve_left apart)
  have free : next.any ManagerPc.closes = false := by rcases ends with rfl | rfl <;> rfl
  refine ⟨?_, ?_, ?_, ?_, ?_, counted.freed⟩
  · simp only [none _ light, minus]
    omega
  · simp only [none _ free]
    exact opened
  · simp [standing]
  · exact fun member => absurd (elsewhere .expungeRemove (by simp) member) still
  · exact fun member => counted.freeing (elsewhere .expungeFree (by simp) member)

theorem counted_call (ok : Bool) (s u : Lifecycle) (pc : ManagerPc) (next : Option ManagerPc)
    (rest : List ManagerPc) (calls : s.calls = pc :: rest) (counted : OpensCounted s)
    (stepped : managerCallStep ok s pc = some (u, next)) :
    OpensCounted { u with calls := next.toList ++ rest } := by
  have lib := counted.lib
  have opened := counted.opened
  have freeing := counted.freeing
  have removing := counted.removing
  rw [calls] at lib opened freeing removing
  have here : pc ∈ s.calls := by simp [calls]
  cases pc with
  | counting first =>
      cases stepped
      simp only [List.countP_cons, ManagerPc.libCounted, if_true] at lib
      simp only [List.countP_cons, ManagerPc.closes, Bool.false_eq_true, if_false] at opened
      refine ⟨?_, ?_, counted.removed, ?_, ?_, counted.freed⟩
      · simp only [Option.toList_none, List.nil_append]
        omega
      · simp only [Option.toList_none, List.nil_append]
        omega
      · exact fun member => removing (List.mem_cons_of_mem _ member)
      · exact fun member => freeing (List.mem_cons_of_mem _ member)
  | failing =>
      cases stepped
      exact counted_minus s _ none rest calls counted rfl rfl rfl (.inl rfl)
  | uncounting =>
      cases stepped
      simp only [List.countP_cons, ManagerPc.libCounted, if_true] at lib
      simp only [List.countP_cons, ManagerPc.closes, if_true] at opened
      refine ⟨?_, ?_, counted.removed, ?_, ?_, counted.freed⟩
      · simpa [List.countP_cons, ManagerPc.libCounted] using lib
      · simp [opened, ManagerPc.closes]
      · exact fun member => removing (by simpa using member)
      · exact fun member => freeing (by simpa using member)
  | libUncount =>
      cases stepped
      exact counted_minus s _ (some .libTest) rest calls counted rfl rfl rfl (.inr rfl)
  | expungeTest =>
      cases stepped
      split
      · exact counted_next s _ _ _ rest calls counted rfl rfl rfl rfl rfl rfl rfl nofun nofun
      · rename_i zero
        exact counted_next s _ _ _ rest calls counted rfl rfl rfl rfl rfl rfl rfl
          (fun _ => Decidable.not_not.mp zero) nofun
  | expungeRemove =>
      cases stepped
      have zero := counted.removing here
      simp only [List.countP_cons, ManagerPc.libCounted, Bool.false_eq_true, if_false] at lib
      simp only [List.countP_cons, ManagerPc.closes, Bool.false_eq_true, if_false] at opened
      refine ⟨?_, ?_, fun _ => zero, fun _ => zero, fun _ => rfl, fun _ => rfl⟩
      · simpa [List.countP_cons, ManagerPc.libCounted] using lib
      · simpa [List.countP_cons, ManagerPc.closes] using opened
  | expungeFree =>
      cases stepped
      have removed := counted.freeing here
      simp only [List.countP_cons, ManagerPc.libCounted, Bool.false_eq_true, if_false] at lib
      simp only [List.countP_cons, ManagerPc.closes, Bool.false_eq_true, if_false] at opened
      exact ⟨lib, opened, counted.removed, fun member => removing (List.mem_cons_of_mem _ member),
        fun _ => removed, fun _ => removed⟩
  | closeTest =>
      have positive : 0 < s.openCount := by
        have counts := List.countP_pos_iff.mpr ⟨.closeTest, here, (rfl : ManagerPc.closes _ = true)⟩
        rw [counted.opened]
        omega
      simp only [managerCallStep, if_pos positive] at stepped
      cases stepped
      exact counted_next s _ _ _ rest calls counted rfl rfl rfl rfl rfl rfl rfl nofun nofun
  | _ =>
      simp only [managerCallStep] at stepped
      repeat' split at stepped
      all_goals cases stepped
      all_goals
        exact counted_next s _ _ _ rest calls counted rfl rfl rfl rfl rfl rfl rfl (by simp) (by simp)

@[simp] theorem bodyPlaces_nil : bodyPlaces [] = [] := rfl

@[simp] theorem bodyPlaces_cons (b : UnitTaskBody) (rest : List UnitTaskBody) :
    bodyPlaces (b :: rest) = (b.id, b.pc) :: bodyPlaces rest := rfl

theorem bodyPlaces_length (bodies : List UnitTaskBody) :
    (bodyPlaces bodies).length = bodies.length := List.length_map _

theorem signalBody_places (s : Lifecycle) (id : TaskId) (more : Signals) :
    bodyPlaces (s.signalBody id more).bodies = bodyPlaces s.bodies := by
  simp only [bodyPlaces, Lifecycle.signalBody, List.map_map]
  refine List.map_congr_left fun b _ => ?_
  simp only [Function.comp_apply]
  split <;> rfl

theorem call_places (ok : Bool) (s u : Lifecycle) (pc : ManagerPc) (next : Option ManagerPc)
    (stepped : managerCallStep ok s pc = some (u, next)) :
    (bodyPlaces u.bodies = bodyPlaces s.bodies ∧ u.created = s.created ∨
      pc = .creating ∧ bodyPlaces u.bodies = (s.created, .allocPort) :: bodyPlaces s.bodies ∧
        u.created = s.created + 1 ∧ next = some (.starting s.created)) ∧
    u.ioPort = s.ioPort ∧ u.task = s.task ∧ u.irqWaitTask = s.irqWaitTask ∧
    u.cleared = s.cleared ∧ u.reported = s.reported := by
  cases pc <;> simp only [managerCallStep] at stepped <;> (repeat' split at stepped) <;>
    cases stepped <;> simp [signalBody_places]
  simp [Lifecycle.signalBody]

theorem ownFields_call (ok : Bool) (s u : Lifecycle) (pc : ManagerPc) (next : Option ManagerPc)
    (rest : List ManagerPc) (member : pc ∈ s.calls) (own : OwnFields s) (startup : Startup s)
    (stepped : managerCallStep ok s pc = some (u, next)) :
    OwnFields { u with calls := next.toList ++ rest } := by
  obtain ⟨who, port, task, irq, cleared, -⟩ := call_places ok s u pc next stepped
  rcases who with ⟨places, -⟩ | ⟨rfl, places, -, -⟩
  · have length : u.bodies.length = s.bodies.length := by
      rw [← bodyPlaces_length, places, bodyPlaces_length]
    constructor
    · exact length ▸ own.one
    · simpa only [places, port] using own.port
    · simpa only [places, task] using own.task
    · simpa only [places, irq] using own.irq
    · simpa only [places, port, task, irq] using own.idle
    · simpa only [cleared] using own.cleared
  · have none := startup.empty .creating member rfl
    obtain ⟨noPort, noTask, noIrq⟩ := own.idle none
    rw [none] at places
    constructor
    · simp [← bodyPlaces_length, places]
    · simp [places, port, noPort, BodyPc.holdsPort]
    · simp [places, task, noTask, BodyPc.holdsTask]
    · simp [places, irq, noIrq, BodyPc.holdsIrq]
    · simp [places]
    · simpa only [cleared] using own.cleared

theorem startup_next (s u : Lifecycle) (pc : ManagerPc) (next : Option ManagerPc)
    (rest : List ManagerPc) (calls : s.calls = pc :: rest) (startup : Startup s)
    (places : bodyPlaces u.bodies = bodyPlaces s.bodies) (created : u.created = s.created)
    (reported : u.reported = s.reported)
    (count : ∀ c ∈ next, c.startsTask = true → pc.startsTask = true)
    (before : ∀ c ∈ next, c.beforeTask = true → pc.beforeTask = true)
    (kept : ∀ id, pc = .starting id → id ∈ s.reported) :
    Startup { u with calls := next.toList ++ rest } := by
  obtain ⟨single, empty, parent, fresh, known⟩ := startup
  rw [calls] at single empty parent
  have single' : (next.toList ++ rest).countP ManagerPc.startsTask ≤ 1 := by
    cases next with
    | none => exact ((List.sublist_cons_self pc rest).countP_le).trans single
    | some c =>
        have more := count c rfl
        simp only [Option.toList_some, List.singleton_append, List.countP_cons] at single ⊢
        have counted : (if c.startsTask = true then 1 else 0) ≤
            if pc.startsTask = true then 1 else 0 := by
          split_ifs with starts earlier
          · exact Nat.le_refl 1
          · exact absurd (more starts) earlier
          · exact Nat.zero_le 1
          · exact Nat.le_refl 0
        omega
  refine ⟨single', ?_, ?_, by simpa only [places, created] using fresh,
    by simpa only [reported, created] using known⟩
  · intro c member early
    rw [places]
    rcases List.mem_append.mp member with new | old
    · exact empty pc List.mem_cons_self (before c (Option.mem_toList.mp new) early)
    · exact empty c (List.mem_cons_of_mem pc old) early
  · intro id place running starts
    rw [places] at running
    obtain ⟨waits, silent⟩ := parent id place running starts
    rw [reported]
    refine ⟨List.mem_append_right _ ?_, silent⟩
    rcases List.mem_cons.mp waits with same | old
    · exact absurd (kept id same.symm) silent
    · exact old

theorem unwanted_empty (s : Lifecycle) (guarded : Guarded s) (closed : s.openCount = 0)
    (idle : ∀ c ∈ s.calls, c.startsTask = false ∧ c.shutsDown = false) :
    bodyPlaces s.bodies = [] := by
  by_contra some
  obtain ⟨⟨id, place⟩, running⟩ := List.exists_mem_of_ne_nil _ some
  rcases guarded.wanted id place running with opened | starting | counting | ⟨c, member, shuts⟩
  · omega
  · exact absurd (idle _ starting).1 nofun
  · exact absurd (idle _ counting).1 nofun
  · rw [(idle c member).2] at shuts
    cases shuts

theorem startup_call (ok : Bool) (s u : Lifecycle) (pc : ManagerPc) (next : Option ManagerPc)
    (rest : List ManagerPc) (calls : s.calls = pc :: rest) (startup : Startup s)
    (guarded : Guarded s)
    (enters : pc = .opening → ok = true → s.openCount = 0 →
      ∀ c ∈ rest, c.startsTask = false ∧ c.shutsDown = false)
    (stepped : managerCallStep ok s pc = some (u, next)) :
    Startup { u with calls := next.toList ++ rest } := by
  obtain ⟨who, -, -, -, -, reported⟩ := call_places ok s u pc next stepped
  rcases who with ⟨places, created⟩ | ⟨rfl, places, created, rfl⟩
  · cases pc with
    | opening =>
        simp only [managerCallStep] at stepped
        repeat' split at stepped
        all_goals cases stepped
        · exact startup_next s _ _ _ rest calls startup places created reported nofun nofun nofun
        · rename_i okay closed
          have others := enters rfl (by simpa using okay) closed
          have empty := unwanted_empty s guarded closed (by
            rw [calls]
            exact List.forall_mem_cons.mpr ⟨⟨rfl, rfl⟩, others⟩)
          have alone : rest.countP ManagerPc.startsTask = 0 := by
            simpa [List.countP_eq_zero] using fun c member => (others c member).1
          constructor
          · simp [List.countP_cons, alone, ManagerPc.startsTask]
          · exact fun _ _ _ => empty
          · simp [empty]
          · exact startup.fresh
          · exact startup.known
        · exact startup_next s _ _ _ rest calls startup places created reported nofun nofun nofun
    | _ =>
      simp only [managerCallStep] at stepped
      repeat' split at stepped
      all_goals cases stepped
      all_goals
        exact startup_next s _ _ _ rest calls startup places created reported
          (by simp [ManagerPc.startsTask]) (by simp [ManagerPc.beforeTask]) (by simp [*])
  · have empty := startup.empty .creating (by simp [calls]) rfl
    have single := startup.single
    rw [empty] at places
    rw [calls] at single
    have alone : rest.countP ManagerPc.startsTask = 0 := by
      simpa [List.countP_cons, ManagerPc.startsTask] using single
    have none : ∀ c ∈ rest, c.startsTask = false := by
      simpa [List.countP_eq_zero] using alone
    constructor
    · simp [List.countP_cons, alone, ManagerPc.startsTask]
    · intro c member early
      rcases List.mem_cons.mp member with rfl | other
      · cases early
      · have := none c other
        cases c <;> simp_all [ManagerPc.beforeTask, ManagerPc.startsTask]
    · intro id pc running starts
      obtain ⟨rfl, rfl⟩ : id = s.created ∧ pc = .allocPort := by simpa [places] using running
      refine ⟨List.mem_cons_self, fun told => ?_⟩
      rw [reported] at told
      exact Nat.lt_irrefl _ (startup.known _ told)
    · simp [places, created]
    · simp only [reported, created]
      exact fun id told => Nat.lt_succ_of_lt (startup.known id told)

theorem unseen_parent (s : Lifecycle) (own : OwnFields s) (startup : Startup s) (id : TaskId)
    (place : BodyPc) (running : (id, place) ∈ bodyPlaces s.bodies) (unseen : s.task = none) :
    place.holdsTask = false ∧ .starting id ∈ s.calls := by
  have task := own.task id place running
  rw [unseen] at task
  have free : place.holdsTask = false := by
    by_contra held
    simp [held] at task
  refine ⟨free, (startup.parent id place running ?_).1⟩
  cases place <;> first | rfl | cases free

theorem asks_shuts (pc : ManagerPc) (asking : pc.asks = true) :
    pc.shutsDown = true ∧ pc.sees = true := by
  cases pc with
  | shutSignal => exact ⟨rfl, rfl⟩
  | polling patience => exact ⟨rfl, rfl⟩
  | _ => cases asking

theorem shuts_unseen (pc : ManagerPc) (apart : pc.shutsDown = false) : pc.sees = false := by
  cases pc <;> first | rfl | cases apart

theorem next_holds {property : ManagerPc → Prop} (c : ManagerPc) (held : property c) :
    ∀ d ∈ some c, property d := by
  intro d new
  cases new
  exact held

theorem guarded_next (s u : Lifecycle) (pc : ManagerPc) (next : Option ManagerPc)
    (rest : List ManagerPc) (calls : s.calls = pc :: rest) (guarded : Guarded s)
    (places : bodyPlaces u.bodies = bodyPlaces s.bodies) (flag : u.taskShutdown = s.taskShutdown)
    (wanted : ∀ id place, (id, place) ∈ bodyPlaces s.bodies → s.Wanted id →
      Lifecycle.Wanted { u with calls := next.toList ++ rest } id)
    (shown : ∀ id place, (id, place) ∈ bodyPlaces s.bodies → place.holdsTask = true →
      pc.asks = true → ∃ c ∈ next, c.asks = true)
    (before : ∀ c ∈ next, c.beforeTask = false)
    (seen : ∀ c ∈ next, c.sees = true → pc.asks = true ∨ ¬ s.Nameless)
    (asks : ∀ c ∈ next, c.asks = true → pc.asks = true) :
    Guarded { u with calls := next.toList ++ rest } := by
  have stays : ∀ c ∈ rest, c ∈ s.calls := fun c member => by simp [calls, member]
  have earlier : ∀ c ∈ next.toList ++ rest, c ∈ next ∨ c ∈ rest := fun c member => by
    simpa using member
  have nameless : Lifecycle.Nameless { u with calls := next.toList ++ rest } → s.Nameless := by
    simp only [Lifecycle.Nameless, places]
    rintro (⟨c, member, early⟩ | unnamed)
    · rcases earlier c member with new | old
      · rw [before c new] at early
        cases early
      · exact .inl ⟨c, stays c old, early⟩
    · exact .inr unnamed
  constructor
  · intro id place running
    rw [places] at running
    exact wanted id place running (guarded.wanted id place running)
  · intro id place running raised held
    rw [places] at running
    rw [flag] at raised
    obtain ⟨c, member, asking⟩ := guarded.shown id place running raised held
    rw [calls] at member
    rcases List.mem_cons.mp member with rfl | old
    · obtain ⟨d, new, asking⟩ := shown id place running held asking
      exact ⟨d, by simp [Option.mem_def.mp new], asking⟩
    · exact ⟨c, List.mem_append_right _ old, asking⟩
  · intro member
    rw [flag]
    rcases earlier _ member with new | old
    · exact absurd (before _ new) nofun
    · exact guarded.created (stays _ old)
  · simpa only [places, flag] using guarded.lowered
  · intro waits c member
    rcases earlier c member with new | old
    · by_contra sees
      rcases seen c new (by simpa using sees) with asking | named
      · have unseen := guarded.unasked (nameless waits) pc (by simp [calls])
        rw [(asks_shuts pc asking).2] at unseen
        cases unseen
      · exact named (nameless waits)
    · exact guarded.unasked (nameless waits) c (stays c old)
  · intro c member asking
    rw [flag]
    rcases earlier c member with new | old
    · exact guarded.raised pc (by simp [calls]) (asks c new asking)
    · exact guarded.raised c (stays c old) asking

theorem wanted_next (s u : Lifecycle) (pc : ManagerPc) (next : Option ManagerPc)
    (rest : List ManagerPc) (calls : s.calls = pc :: rest) (id : TaskId) (wanted : s.Wanted id)
    (opened : 0 < s.openCount → 0 < u.openCount)
    (guard : (pc.startsTask || pc.shutsDown) = true →
      ∃ c ∈ next, c = .counting true ∨ c.shutsDown = true) :
    Lifecycle.Wanted { u with calls := next.toList ++ rest } id := by
  by_cases guards : (pc.startsTask || pc.shutsDown) = true
  · obtain ⟨c, new, rfl | shuts⟩ := guard guards
    · exact .inr (.inr (.inl (by simp [Option.mem_def.mp new])))
    · exact .inr (.inr (.inr ⟨c, by simp [Option.mem_def.mp new], shuts⟩))
  · have other : ∀ c ∈ s.calls, (c.startsTask || c.shutsDown) = true → c ∈ next.toList ++ rest := by
      intro c member useful
      rw [calls] at member
      rcases List.mem_cons.mp member with rfl | old
      · exact absurd useful guards
      · exact List.mem_append_right _ old
    rcases wanted with open' | starting | counting | ⟨c, member, shuts⟩
    · exact .inl (opened open')
    · exact .inr (.inl (other _ starting rfl))
    · exact .inr (.inr (.inl (other _ counting rfl)))
    · exact .inr (.inr (.inr ⟨c, other c member (by simp [shuts]), shuts⟩))

theorem guarded_plain (s u : Lifecycle) (pc : ManagerPc) (next : Option ManagerPc)
    (rest : List ManagerPc) (calls : s.calls = pc :: rest) (guarded : Guarded s)
    (places : bodyPlaces u.bodies = bodyPlaces s.bodies) (flag : u.taskShutdown = s.taskShutdown)
    (plain : next.all (fun c => !c.beforeTask && !c.shutsDown) = true)
    (quiet : pc.asks = true → s.task = none) (own : OwnFields s)
    (wanted : ∀ id place, (id, place) ∈ bodyPlaces s.bodies → s.Wanted id →
      Lifecycle.Wanted { u with calls := next.toList ++ rest } id) :
    Guarded { u with calls := next.toList ++ rest } := by
  have plain : ∀ c ∈ next, c.beforeTask = false ∧ c.shutsDown = false := by
    simpa [Option.all_eq_true] using plain
  refine guarded_next s u pc next rest calls guarded places flag wanted ?_
    (fun c new => (plain c new).1) ?_ ?_
  · intro id place running held asking
    have task := own.task id place running
    rw [quiet asking, if_pos held] at task
    cases task
  · intro c new sees
    rw [shuts_unseen c (plain c new).2] at sees
    cases sees
  · intro c new asking
    have shuts := (asks_shuts c asking).1
    rw [(plain c new).2] at shuts
    cases shuts

/-- A statement outside `UnitTask_Start` and `UnitTask_Shutdown` that leaves `open_count` as it is. -/
theorem guarded_aside (s u : Lifecycle) (pc : ManagerPc) (next : Option ManagerPc)
    (rest : List ManagerPc) (calls : s.calls = pc :: rest) (guarded : Guarded s)
    (places : bodyPlaces u.bodies = bodyPlaces s.bodies) (flag : u.taskShutdown = s.taskShutdown)
    (count : u.openCount = s.openCount)
    (plain : next.all (fun c => !c.beforeTask && !c.shutsDown) = true)
    (aside : (pc.startsTask || pc.shutsDown) = false) (own : OwnFields s) :
    Guarded { u with calls := next.toList ++ rest } := by
  apply guarded_plain s u pc next rest calls guarded places flag plain _ own
  · intro id place _ wanted
    apply wanted_next s u pc next rest calls id wanted (fun opened => count ▸ opened)
    intro useful
    exact absurd (aside.symm.trans useful) Bool.false_ne_true
  · intro asking
    rw [(asks_shuts pc asking).1, Bool.or_true] at aside
    cases aside

theorem guarded_enter (s : Lifecycle) (rest : List ManagerPc) (calls : s.calls = .opening :: rest)
    (guarded : Guarded s) (empty : bodyPlaces s.bodies = [])
    (others : ∀ c ∈ rest, c.startsTask = false ∧ c.shutsDown = false) :
    Guarded { s with calls := .startFlag :: rest } := by
  have stays : ∀ c ∈ rest, c ∈ s.calls := fun c member => by simp [calls, member]
  constructor
  · simp [empty]
  · simp [empty]
  · intro member
    exact guarded.created (stays _ (by simpa using member))
  · simp [empty]
  · intro _ c member
    rcases List.mem_cons.mp member with rfl | old
    · rfl
    · exact shuts_unseen c (others c old).2
  · intro c member asking
    rcases List.mem_cons.mp member with rfl | old
    · cases asking
    · exact guarded.raised c (stays c old) asking

theorem guarded_lower (s : Lifecycle) (rest : List ManagerPc) (calls : s.calls = .startFlag :: rest)
    (guarded : Guarded s) (empty : bodyPlaces s.bodies = []) :
    Guarded { s with taskShutdown := false, calls := .creating :: rest } := by
  have stays : ∀ c ∈ rest, c ∈ s.calls := fun c member => by simp [calls, member]
  have unasked := guarded.unasked (.inl ⟨.startFlag, by simp [calls], rfl⟩)
  constructor
  · simp [empty]
  · exact fun _ _ _ raised => nomatch raised
  · exact fun _ => rfl
  · exact fun _ _ _ _ => rfl
  · intro _ c member
    rcases List.mem_cons.mp member with rfl | old
    · rfl
    · exact unasked c (stays c old)
  · intro c member asking
    rcases List.mem_cons.mp member with rfl | old
    · cases asking
    · have unseen := unasked c (stays c old)
      rw [(asks_shuts c asking).2] at unseen
      cases unseen

theorem guarded_create (s : Lifecycle) (rest : List ManagerPc) (calls : s.calls = .creating :: rest)
    (guarded : Guarded s) (empty : bodyPlaces s.bodies = []) :
    Guarded { s with
      bodies := ⟨s.created, .allocPort, .none⟩ :: s.bodies
      created := s.created + 1
      calls := .starting s.created :: rest } := by
  have stays : ∀ c ∈ rest, c ∈ s.calls := fun c member => by simp [calls, member]
  have here : .creating ∈ s.calls := by simp [calls]
  have low := guarded.created here
  constructor
  · intro id place running
    obtain ⟨rfl, rfl⟩ : id = s.created ∧ place = .allocPort := by simpa [empty] using running
    exact .inr (.inl List.mem_cons_self)
  · intro _ _ _ raised
    rw [low] at raised
    cases raised
  · exact fun _ => low
  · exact fun _ _ _ _ => low
  · intro _ c member
    rcases List.mem_cons.mp member with rfl | old
    · rfl
    · exact guarded.unasked (.inl ⟨.creating, here, rfl⟩) c (stays c old)
  · intro c member asking
    rcases List.mem_cons.mp member with rfl | old
    · cases asking
    · exact guarded.raised c (stays c old) asking

theorem wanted_failed (s u : Lifecycle) (id other : TaskId) (place : BodyPc) (rest : List ManagerPc)
    (calls : s.calls = .starting id :: rest) (own : OwnFields s) (startup : Startup s)
    (asked : Asked s) (guarded : Guarded s) (told : id ∈ s.reported) (noPort : s.ioPort = none)
    (running : (other, place) ∈ bodyPlaces s.bodies) :
    Lifecycle.Wanted { u with calls := .failing :: rest } other := by
  by_cases starts : place.startup = true
  · obtain ⟨parent, silent⟩ := startup.parent other place running starts
    rw [calls] at parent
    rcases List.mem_cons.mp parent with same | old
    · exact absurd told (ManagerPc.starting.inj same ▸ silent)
    · exact .inr (.inl (List.mem_cons_of_mem _ old))
  · -- It has reported and its port is gone: it is at its last write.
    have port := own.port other place running
    have last : place = .exitTask := by
      cases place <;> simp_all [BodyPc.holdsPort, BodyPc.startup]
    subst last
    have raised := asked.leaving other _ running rfl rfl
    obtain ⟨c, member, asking⟩ := guarded.shown other _ running raised rfl
    rw [calls] at member
    rcases List.mem_cons.mp member with rfl | old
    · cases asking
    · exact .inr (.inr (.inr ⟨c, List.mem_cons_of_mem _ old, (asks_shuts c asking).1⟩))

theorem guarded_raise (s : Lifecycle) (rest : List ManagerPc) (calls : s.calls = .shutFlag :: rest)
    (guarded : Guarded s) :
    Guarded { s with taskShutdown := true, calls := .shutSignal :: rest } := by
  have stays : ∀ c ∈ rest, c ∈ s.calls := fun c member => by simp [calls, member]
  have named : ¬ s.Nameless := fun waits =>
    nomatch guarded.unasked waits .shutFlag (by simp [calls])
  constructor
  · exact fun id place running =>
      wanted_next s { s with taskShutdown := true } _ (some .shutSignal) rest calls id
        (guarded.wanted id place running) (fun opened => opened) fun _ => ⟨_, rfl, .inr rfl⟩
  · exact fun _ _ _ _ _ => ⟨.shutSignal, List.mem_cons_self, rfl⟩
  · intro member
    have old : .creating ∈ s.calls := stays _ (by simpa using member)
    exact absurd (.inl ⟨.creating, old, rfl⟩) named
  · exact fun id place running unnamed => absurd (.inr ⟨id, place, running, unnamed⟩) named
  · rintro (⟨c, member, early⟩ | unnamed)
    · rcases List.mem_cons.mp member with rfl | old
      · cases early
      · exact absurd (.inl ⟨c, stays c old, early⟩) named
    · exact absurd (.inr unnamed) named
  · exact fun _ _ _ => rfl

theorem seen_named (s : Lifecycle) (own : OwnFields s) (startup : Startup s)
    (seen : s.task ≠ none) : ¬ s.Nameless := by
  rintro (⟨c, member, early⟩ | ⟨id, place, running, unnamed⟩)
  · exact seen (own.idle (startup.empty c member early)).2.1
  · have task := own.task id place running
    cases place with
    | allocPort => exact seen task
    | setTask => exact seen task
    | _ => cases unnamed

theorem guarded_call (ok : Bool) (s u : Lifecycle) (pc : ManagerPc) (next : Option ManagerPc)
    (rest : List ManagerPc) (calls : s.calls = pc :: rest) (own : OwnFields s) (startup : Startup s)
    (asked : Asked s) (guarded : Guarded s)
    (enters : pc = .opening → ok = true → s.openCount = 0 →
      ∀ c ∈ rest, c.startsTask = false ∧ c.shutsDown = false)
    (ends : ∀ patience, pc = .polling patience → s.task = none ∨ patience ≠ 0)
    (stepped : managerCallStep ok s pc = some (u, next)) :
    Guarded { u with calls := next.toList ++ rest } := by
  have here : pc ∈ s.calls := by simp [calls]
  have unseen : s.task = none → pc.shutsDown = true → ∀ id place,
      (id, place) ∈ bodyPlaces s.bodies → .starting id ∈ rest := by
    intro none shuts id place running
    have parent := (unseen_parent s own startup id place running none).2
    rw [calls] at parent
    rcases List.mem_cons.mp parent with rfl | old
    · cases shuts
    · exact old
  cases pc with
  | opening =>
      simp only [managerCallStep] at stepped
      repeat' split at stepped
      all_goals cases stepped
      · exact guarded_aside s _ _ _ rest calls guarded rfl rfl rfl rfl rfl own
      · rename_i okay closed
        have others := enters rfl (by simpa using okay) closed
        have empty := unwanted_empty s guarded closed (by
          rw [calls]
          exact List.forall_mem_cons.mpr ⟨⟨rfl, rfl⟩, others⟩)
        exact guarded_enter s rest calls guarded empty others
      · exact guarded_aside s _ _ _ rest calls guarded rfl rfl rfl rfl rfl own
  | startFlag =>
      have empty := startup.empty .startFlag here rfl
      simp only [managerCallStep] at stepped
      split at stepped
      all_goals cases stepped
      · exact guarded_plain s _ _ _ rest calls guarded rfl rfl rfl nofun own (by simp [empty])
      · exact guarded_lower s rest calls guarded empty
  | creating =>
      have empty := startup.empty .creating here rfl
      simp only [managerCallStep] at stepped
      split at stepped
      all_goals cases stepped
      · exact guarded_plain s _ _ _ rest calls guarded rfl rfl rfl nofun own (by simp [empty])
      · exact guarded_create s rest calls guarded empty
  | starting id =>
      simp only [managerCallStep] at stepped
      split at stepped
      · rename_i told
        cases stepped
        split
        · rename_i noPort
          exact guarded_plain s _ _ _ rest calls guarded rfl rfl rfl nofun own
            (fun other place running _ =>
              wanted_failed s s id other place rest calls own startup asked guarded told noPort running)
        · exact guarded_plain s _ _ _ rest calls guarded rfl rfl rfl nofun own
            (fun other _ _ wanted => wanted_next s _ _ _ rest calls other wanted
              (fun opened => opened) fun _ => ⟨_, rfl, .inl rfl⟩)
      · cases stepped
  | counting first =>
      cases stepped
      exact guarded_plain s _ _ _ rest calls guarded rfl rfl rfl nofun own
        (fun _ _ _ _ => .inl (Nat.succ_pos _))
  | uncounting =>
      cases stepped
      refine guarded_next s _ _ _ rest calls guarded rfl rfl ?_ nofun (next_holds _ rfl)
        (next_holds _ nofun) (next_holds _ nofun)
      exact fun _ _ _ _ => .inr (.inr (.inr ⟨.countTest, List.mem_cons_self, rfl⟩))
  | countTest =>
      cases stepped
      split
      · refine guarded_next s _ _ _ rest calls guarded rfl rfl ?_ nofun (next_holds _ rfl)
          (next_holds _ nofun) (next_holds _ nofun)
        exact fun _ _ _ _ => .inr (.inr (.inr ⟨.shutTest, List.mem_cons_self, rfl⟩))
      · rename_i opened
        refine guarded_plain s _ _ _ rest calls guarded rfl rfl rfl nofun own ?_
        exact fun _ _ _ _ => .inl (Nat.pos_of_ne_zero opened)
  | shutTest =>
      cases stepped
      split
      · rename_i none
        exact guarded_plain s _ _ _ rest calls guarded rfl rfl rfl nofun own
          (fun id place running _ =>
            .inr (.inl (List.mem_cons_of_mem _ (unseen none rfl id place running))))
      · rename_i seen
        exact guarded_next s _ _ _ rest calls guarded rfl rfl
          (fun id _ _ wanted => wanted_next s _ _ _ rest calls id wanted (fun opened => opened)
            fun _ => ⟨_, rfl, .inr rfl⟩) nofun (next_holds _ rfl)
          (fun _ _ _ => .inr (seen_named s own startup seen)) (next_holds _ nofun)
  | shutFlag =>
      cases stepped
      exact guarded_raise s rest calls guarded
  | shutSignal =>
      simp only [managerCallStep] at stepped
      split at stepped
      all_goals cases stepped
      all_goals
        exact guarded_next s _ _ _ rest calls guarded (by simp [signalBody_places]) rfl
          (fun id _ _ wanted => wanted_next s _ _ _ rest calls id wanted (fun opened => opened)
            fun _ => ⟨_, rfl, .inr rfl⟩)
          (fun _ _ _ _ _ => ⟨_, rfl, rfl⟩) (next_holds _ rfl) (fun _ _ _ => .inl rfl)
          (fun _ _ _ => rfl)
  | polling patience =>
      cases stepped
      split
      · rename_i ended
        have none : s.task = none := by
          rcases ended with none | exhausted
          · exact none
          · exact (ends patience rfl).resolve_right fun more => more exhausted
        exact guarded_plain s _ _ _ rest calls guarded rfl rfl rfl (fun _ => none) own
          (fun id place running _ =>
            .inr (.inl (List.mem_cons_of_mem _ (unseen none rfl id place running))))
      · exact guarded_next s _ _ _ rest calls guarded rfl rfl
          (fun id _ _ wanted => wanted_next s _ _ _ rest calls id wanted (fun opened => opened)
            fun _ => ⟨_, rfl, .inr rfl⟩)
          (fun _ _ _ _ _ => ⟨_, rfl, rfl⟩) (next_holds _ rfl) (fun _ _ _ => .inl rfl)
          (fun _ _ _ => rfl)
  | _ =>
      simp only [managerCallStep] at stepped
      repeat' split at stepped
      all_goals cases stepped
      all_goals
        exact guarded_aside s _ _ _ rest calls guarded rfl rfl rfl rfl rfl own

theorem asked_call (ok : Bool) (s u : Lifecycle) (pc : ManagerPc) (next : Option ManagerPc)
    (rest : List ManagerPc) (here : pc ∈ s.calls) (own : OwnFields s) (startup : Startup s)
    (guarded : Guarded s) (asked : Asked s)
    (stepped : managerCallStep ok s pc = some (u, next)) :
    Asked { u with calls := next.toList ++ rest } := by
  have same : Asked { s with calls := next.toList ++ rest } :=
    ⟨asked.leaving, asked.flagged, asked.awake, asked.known⟩
  have empty : pc.beforeTask = true → s.bodies = [] := fun early =>
    List.map_eq_nil_iff.mp (startup.empty pc here early)
  cases pc with
  | startFlag =>
      simp only [managerCallStep] at stepped
      split at stepped
      all_goals cases stepped
      · exact same
      · constructor
        · simp [empty rfl]
        · simp [empty rfl]
        · simp [empty rfl]
        · exact asked.known
  | creating =>
      simp only [managerCallStep] at stepped
      split at stepped
      all_goals cases stepped
      · exact same
      · have unknown : s.created ∉ s.asked := fun told =>
          Nat.lt_irrefl _ (asked.known s.created told)
        constructor
        · simp [empty rfl, BodyPc.startup]
        · simp [empty rfl, Signals.none, unknown]
        · simp [empty rfl]
        · exact fun id told => Nat.lt_succ_of_lt (asked.known id told)
  | shutFlag =>
      cases stepped
      exact ⟨fun _ _ _ _ _ => rfl, fun _ _ _ => rfl, asked.awake, asked.known⟩
  | shutSignal =>
      have raised := guarded.raised .shutSignal here rfl
      simp only [managerCallStep] at stepped
      split at stepped
      all_goals cases stepped
      · exact same
      · rename_i id seen
        constructor
        · exact fun _ _ _ _ _ => raised
        · exact fun _ _ _ => raised
        · intro b member told waits
          obtain ⟨a, before, rfl⟩ := List.mem_map.mp member
          by_cases target : a.id = id
          · simp [target, Signals.join]
          · simp only [target, if_false] at told waits ⊢
            rcases List.mem_cons.mp told with same | earlier
            · exact absurd same target
            · exact asked.awake a before earlier waits
        · intro other told
          rcases List.mem_cons.mp told with rfl | earlier
          · have some : bodyPlaces s.bodies ≠ [] := fun none => by
              have unseen := (own.idle none).2.1
              rw [seen] at unseen
              cases unseen
            obtain ⟨⟨one, place⟩, running⟩ := List.exists_mem_of_ne_nil _ some
            have task := own.task one place running
            rw [seen] at task
            split at task
            · cases task
              exact startup.fresh _ place running
            · cases task
          · exact asked.known other earlier
  | _ =>
      simp only [managerCallStep] at stepped
      repeat' split at stepped
      all_goals cases stepped
      all_goals exact ⟨asked.leaving, asked.flagged, asked.awake, asked.known⟩

end Pa6tEth

import Pa6tEth.Openers
import Pa6tEth.SingleTask

/-! The calls of the device manager and the unit tasks with all that they allocate: openers, signal
bits and ports. -/

namespace Pa6tEth

open Support

/-- What a signal bit is for: the handshake of `UnitTask_Start`, the port of a unit task or its
`irq_bit`. -/
inductive BitPurpose
  | ready
  | port (id : TaskId)
  | irq (id : TaskId)
  deriving DecidableEq, Repr

structure SignalBit where
  purpose : BitPurpose
  bit : Nat
  deriving DecidableEq, Repr

/-- What a call was given, with its variables `opener` and `ready_bit`. -/
structure OpenFrame where
  unitNum : BitVec 32
  bmCookie : Addr
  opener : Addr
  readyBit : Nat
  deriving DecidableEq, Repr

/-- The answers of `AllocVecTags`, `AllocSignal` and `CreateTaskTags`. -/
structure OpenEnv where
  block : Addr
  bit : Option Nat
  created : Bool
  deriving DecidableEq, Repr

/-- `frames` belong to the calls of `life`, in their order; `blocks` and `bits` are the openers and
the signal bits that are allocated. `returned` are the answers of `_manager_Open` so far, `false`
for `NULL`; `staleReads` are the tasks that read a start message whose `UnitTask_Start` had
returned. -/
structure OpenSystem where
  life : Lifecycle
  unit : Bool
  openerList : List Record
  ioPortMask : BitVec 32
  irqSignalMask : BitVec 32
  frames : List OpenFrame
  blocks : List Addr
  bits : List SignalBit
  returned : List Bool
  staleReads : List TaskId
  deriving DecidableEq, Repr

/-- `bit` is the signal bit that an allocation of a unit task answers. -/
inductive OpenAction
  | openDevice (unitNum : BitVec 32) (bmCookie : Addr)
  | closeDevice (bmCookie : Addr)
  | expunge
  | call (i : Nat) (e : OpenEnv)
  | task (id : TaskId) (ok : Bool) (bit : Nat)
  | signal (id : TaskId) (port irq : Bool)
  | installHook (bmCookie hook : Addr)
  deriving DecidableEq, Repr

namespace OpenSystem

def allocOpener (s : OpenSystem) (block : Addr) : OpenSystem :=
  if block = 0 then s else { s with blocks := block :: s.blocks }

def freeOpener (s : OpenSystem) (block : Addr) : OpenSystem :=
  { s with blocks := s.blocks.erase block }

def takeBit (s : OpenSystem) (purpose : BitPurpose) (bit : Nat) : OpenSystem :=
  { s with bits := ⟨purpose, bit⟩ :: s.bits }

def freeBit (s : OpenSystem) (purpose : BitPurpose) : OpenSystem :=
  { s with bits := s.bits.eraseP fun entry => entry.purpose = purpose }

/-- `FreeSignal(ready_bit)`, which the calls do not share. -/
def freeReady (s : OpenSystem) (bit : Nat) : OpenSystem :=
  { s with bits := s.bits.erase ⟨.ready, bit⟩ }

/-- `FreeSysObject` of the port that `unit->io_port` names. -/
def freePort (s : OpenSystem) : OpenSystem :=
  match s.life.ioPort with
  | none => s
  | some owner => s.freeBit (.port owner)

/-- `1UL << unit->io_port->mp_SigBit`. -/
def portMask (s : OpenSystem) : BitVec 32 :=
  match s.life.ioPort.bind fun owner => s.bits.find? fun entry => entry.purpose = .port owner with
  | none => 0#32
  | some entry => 1#32 <<< entry.bit

/-- A read of `startMsg`, which stands on the stack of `UnitTask_Start`. -/
def readStartMsg (s : OpenSystem) (id : TaskId) : OpenSystem :=
  if .starting id ∈ s.life.calls then s else { s with staleReads := id :: s.staleReads }

end OpenSystem

/-- How the allocation that a call makes at its next statement is answered. -/
def callOk (e : OpenEnv) (s : OpenSystem) (f : OpenFrame) : ManagerPc → Bool
  | .opening => f.unitNum = 0#32 && s.unit && e.block ≠ 0
  | .startFlag => e.bit.isSome
  | .creating => e.created
  | _ => true

/-- What one statement of a call does beside the step of `managerCallStep`. -/
def callEffect (e : OpenEnv) (s : OpenSystem) (f : OpenFrame) : ManagerPc → OpenSystem × OpenFrame
  | .opening =>
      if f.unitNum ≠ 0#32 then (s, f)
      else if s.unit = false then (s, f)
      else (s.allocOpener e.block, { f with opener := e.block })
  | .startFlag =>
      match e.bit with
      | none => (s.freeOpener f.opener, f)
      | some bit => (s.takeBit .ready bit, { f with readyBit := bit })
  | .creating =>
      if e.created then (s, f) else ((s.freeReady f.readyBit).freeOpener f.opener, f)
  | .starting _ =>
      if s.life.ioPort = none then ((s.freeReady f.readyBit).freeOpener f.opener, f)
      else (s.freeReady f.readyBit, f)
  | .counting _ =>
      ({ s with
        openerList := s.openerList ++ [⟨f.opener, ⟨f.bmCookie, 0⟩⟩]
        returned := true :: s.returned }, f)
  | .failing => ({ s with returned := false :: s.returned }, f)
  | .closeTest =>
      match findRecord f.bmCookie s.openerList with
      | none => (s, f)
      | some entry =>
          ({ s.freeOpener entry.node with openerList := closeRecord f.bmCookie s.openerList }, f)
  | .expungeFree => ({ s with unit := false }, f)
  | _ => (s, f)

/-- What one statement of `UnitTaskBody` does beside the step of `bodyStep`. -/
def bodyEffect (ok : Bool) (bit : Nat) (s : OpenSystem) (b : UnitTaskBody) : OpenSystem :=
  match b.pc with
  | .allocPort =>
      if ok then (s.readStartMsg b.id).takeBit (.port b.id) bit else s.readStartMsg b.id
  | .setTask => { s with ioPortMask := s.portMask }
  | .allocSignal =>
      if ok then { s.takeBit (.irq b.id) bit with irqSignalMask := 1#32 <<< bit } else s
  | .unwindPort => s.freePort
  | .unwindTask => { s with ioPortMask := 0#32 }
  | .reportFailure => s.readStartMsg b.id
  | .reportReady => s.readStartMsg b.id
  | .exitIrq => { s.freeBit (.irq b.id) with irqSignalMask := 0#32 }
  | .exitPort => s.freePort
  | .exitTask => { s with ioPortMask := 0#32 }
  | _ => s

def openStep (s : OpenSystem) : OpenAction → Option OpenSystem
  | .openDevice unitNum bmCookie =>
      (lifecycleStep s.life .openDevice).map fun life =>
        { s with life := life, frames := ⟨unitNum, bmCookie, 0, 0⟩ :: s.frames }
  | .closeDevice bmCookie =>
      (lifecycleStep s.life .closeDevice).map fun life =>
        { s with life := life, frames := ⟨0#32, bmCookie, 0, 0⟩ :: s.frames }
  | .expunge =>
      (lifecycleStep s.life .expunge).map fun life =>
        { s with life := life, frames := ⟨0#32, 0, 0, 0⟩ :: s.frames }
  | .call i e =>
      match s.life.calls[i]?, s.frames[i]? with
      | some pc, some f =>
          (lifecycleStep s.life (.call i (callOk e s f pc))).map fun life =>
            { (callEffect e s f pc).1 with
              life := life
              frames :=
                if life.calls.length < s.life.calls.length then s.frames.eraseIdx i
                else (callEffect e s f pc).2 :: s.frames.eraseIdx i }
      | _, _ => none
  | .task id ok bit =>
      match s.life.bodies.find? fun b => b.id = id with
      | none => none
      | some b =>
          (lifecycleStep s.life (.task id ok)).map fun life =>
            { bodyEffect ok bit s b with life := life }
  | .signal id port irq =>
      (lifecycleStep s.life (.signal id port irq)).map fun life => { s with life := life }
  | .installHook bmCookie hook =>
      some { s with openerList := armRecord bmCookie hook s.openerList }

/-- What `Init` leaves; `unit` says whether `base->unit` is there. -/
def openCold (unit : Bool) : OpenSystem where
  life := noSession
  unit := unit
  openerList := []
  ioPortMask := 0#32
  irqSignalMask := 0#32
  frames := []
  blocks := []
  bits := []
  returned := []
  staleReads := []

def openMachine : Machine OpenSystem OpenAction where
  start := fun s => ∃ unit, s = openCold unit
  step := openStep

theorem open_lifecycle (s t : OpenSystem) (a : OpenAction) (stepped : openStep s a = some t) :
    t.life = s.life ∨ ∃ b, lifecycleStep s.life b = some t.life := by
  cases a with
  | openDevice unitNum bmCookie =>
      obtain ⟨life, moved, rfl⟩ := Option.map_eq_some_iff.mp stepped
      exact .inr ⟨_, moved⟩
  | closeDevice bmCookie =>
      obtain ⟨life, moved, rfl⟩ := Option.map_eq_some_iff.mp stepped
      exact .inr ⟨_, moved⟩
  | expunge =>
      obtain ⟨life, moved, rfl⟩ := Option.map_eq_some_iff.mp stepped
      exact .inr ⟨_, moved⟩
  | call i e =>
      simp only [openStep] at stepped
      split at stepped
      · obtain ⟨life, moved, rfl⟩ := Option.map_eq_some_iff.mp stepped
        exact .inr ⟨_, moved⟩
      · cases stepped
  | task id ok bit =>
      simp only [openStep] at stepped
      split at stepped
      · cases stepped
      · obtain ⟨life, moved, rfl⟩ := Option.map_eq_some_iff.mp stepped
        exact .inr ⟨_, moved⟩
  | signal id port irq =>
      obtain rfl := Option.some.inj stepped
      exact .inr ⟨.signal id port irq, rfl⟩
  | installHook bmCookie hook =>
      obtain rfl := Option.some.inj stepped
      exact .inl rfl

theorem life_reached (s : OpenSystem) (reached : openMachine.Reached s) :
    lifecycleMachine.Reached s.life := by
  apply openMachine.invariant (fun s => lifecycleMachine.Reached s.life) _ _ s reached
  · rintro s ⟨unit, rfl⟩
    exact .start _ rfl
  · intro s a t before stepped
    rcases open_lifecycle s t a stepped with same | ⟨b, moved⟩
    · exact same ▸ before
    · exact .step _ b _ before moved

theorem open_call (s t : OpenSystem) (i : Nat) (e : OpenEnv)
    (stepped : openStep s (.call i e) = some t) :
    ∃ pc f u next, s.life.calls[i]? = some pc ∧ s.frames[i]? = some f ∧
      managerCallStep (callOk e s f pc) s.life pc = some (u, next) ∧
      t = { (callEffect e s f pc).1 with
            life := { u with calls := next.toList ++ s.life.calls.eraseIdx i }
            frames := (next.map fun _ => (callEffect e s f pc).2).toList ++ s.frames.eraseIdx i } := by
  simp only [openStep] at stepped
  split at stepped
  · rename_i pc f called framed
    obtain ⟨life, moved, rfl⟩ := Option.map_eq_some_iff.mp stepped
    obtain ⟨same, u, next, present, ran, rfl⟩ := lifecycle_call s.life life i _ moved
    obtain rfl : same = pc := Option.some.inj (present.symm.trans called)
    refine ⟨same, f, u, next, called, framed, ran, ?_⟩
    obtain ⟨small, -⟩ := List.getElem?_eq_some_iff.mp called
    have fewer := List.length_eraseIdx_of_lt small
    cases next with
    | none =>
        have ends : ((none : Option ManagerPc).toList ++ s.life.calls.eraseIdx i).length <
            s.life.calls.length := by
          rw [Option.toList_none, List.nil_append, fewer]
          omega
        rw [if_pos ends]
        rfl
    | some later =>
        have stays : ¬ ((some later).toList ++ s.life.calls.eraseIdx i).length <
            s.life.calls.length := by
          rw [Option.toList_some, List.singleton_append, List.length_cons, fewer]
          omega
        rw [if_neg stays]
        rfl
  · cases stepped

theorem open_task (s t : OpenSystem) (id : TaskId) (ok : Bool) (bit : Nat)
    (stepped : openStep s (.task id ok bit) = some t) :
    ∃ b u next, s.life.bodies.find? (fun b => b.id = id) = some b ∧
      bodyStep ok s.life b = some (u, next) ∧
      t = { bodyEffect ok bit s b with life := u.putBody id next } := by
  simp only [openStep] at stepped
  split at stepped
  · cases stepped
  · rename_i b found
    obtain ⟨life, moved, rfl⟩ := Option.map_eq_some_iff.mp stepped
    obtain ⟨same, u, next, present, ran, rfl⟩ := lifecycle_task s.life life id ok moved
    obtain rfl : same = b := Option.some.inj (present.symm.trans found)
    exact ⟨same, u, next, found, ran, rfl⟩

/-- A field that is set is that of a task which has still to clear it. -/
def Owned (holds : BodyPc → Bool) (field : Option TaskId) (bodies : List UnitTaskBody) : Prop :=
  ∀ id, field = some id → ∃ pc, (id, pc) ∈ bodyPlaces bodies ∧ holds pc = true

/-- Every unit task has its own number, and one that starts up has a parent that waits for it. -/
structure Roster (s : Lifecycle) : Prop where
  ids : ((bodyPlaces s.bodies).map Prod.fst).Nodup
  fresh : ∀ id pc, (id, pc) ∈ bodyPlaces s.bodies → id < s.created
  known : ∀ id ∈ s.reported, id < s.created
  parent : ∀ id pc, (id, pc) ∈ bodyPlaces s.bodies → pc.startup = true →
    .starting id ∈ s.calls ∧ id ∉ s.reported
  port : Owned BodyPc.holdsPort s.ioPort s.bodies
  task : Owned BodyPc.holdsTask s.task s.bodies
  irq : Owned BodyPc.holdsIrq s.irqWaitTask s.bodies

theorem owned_places (holds : BodyPc → Bool) (field : Option TaskId) (bodies others : List UnitTaskBody)
    (same : bodyPlaces others = bodyPlaces bodies) (held : Owned holds field bodies) :
    Owned holds field others := by
  simpa only [Owned, same] using held

theorem owned_empty (holds : BodyPc → Bool) (field : Option TaskId) (held : Owned holds field []) :
    field = none := by
  cases field with
  | none => rfl
  | some id =>
      obtain ⟨pc, there, -⟩ := held id rfl
      cases there

theorem putBody_places (s : Lifecycle) (id : TaskId) (next : Option UnitTaskBody)
    (p : TaskId × BodyPc) :
    p ∈ bodyPlaces (s.putBody id next).bodies ↔
      p ∈ bodyPlaces s.bodies ∧ p.1 ≠ id ∨
        (∃ c, next = some c ∧ p = (c.id, c.pc)) ∧ id ∈ (bodyPlaces s.bodies).map Prod.fst := by
  simp only [bodyPlaces, Lifecycle.putBody, List.mem_map, List.mem_flatMap]
  constructor
  · rintro ⟨c, ⟨b, member, placed⟩, rfl⟩
    split at placed
    · rename_i target
      exact .inr ⟨⟨c, Option.mem_toList.mp placed, rfl⟩, (b.id, b.pc), ⟨b, member, rfl⟩, target⟩
    · rename_i apart
      obtain rfl := List.mem_singleton.mp placed
      exact .inl ⟨⟨c, member, rfl⟩, apart⟩
  · rintro (⟨⟨b, member, rfl⟩, apart⟩ | ⟨⟨c, rfl, rfl⟩, q, ⟨b, member, rfl⟩, target⟩)
    · exact ⟨b, ⟨b, member, by simp [apart]⟩, rfl⟩
    · have placed : c ∈ if b.id = id then (some c).toList else [b] := by
        rw [if_pos target]
        exact List.mem_singleton_self c
      exact ⟨c, ⟨b, member, placed⟩, rfl⟩

theorem putBody_ids (s : Lifecycle) (id : TaskId) (next : Option UnitTaskBody)
    (same : ∀ c, next = some c → c.id = id) :
    ((bodyPlaces (s.putBody id next).bodies).map Prod.fst).Sublist
      ((bodyPlaces s.bodies).map Prod.fst) := by
  simp only [bodyPlaces, Lifecycle.putBody, List.map_map]
  induction s.bodies with
  | nil => exact List.Sublist.refl _
  | cons b rest ih =>
      rw [List.flatMap_cons, List.map_append, List.map_cons]
      split
      · rename_i target
        cases next with
        | none => exact ih.cons _
        | some c =>
            have number : c.id = b.id := (same c rfl).trans target.symm
            simp only [Option.toList_some, List.map_cons, List.map_nil, List.singleton_append,
              Function.comp_apply, number]
            exact ih.cons_cons _
      · exact ih.cons_cons _

/-- What a step of a body does to a field: it clears it, it goes on holding what it or another task
has set, or it does nothing to it and had not to clear it. -/
def Passes (holds : BodyPc → Bool) (b : UnitTaskBody) (next : Option UnitTaskBody)
    (before after : Option TaskId) : Prop :=
  after = none ∨
    (∃ c, next = some c ∧ holds c.pc = true ∧ (after = some b.id ∨ after = before)) ∨
    after = before ∧ holds b.pc = false

theorem body_passes (ok : Bool) (s u : Lifecycle) (b : UnitTaskBody) (next : Option UnitTaskBody)
    (stepped : bodyStep ok s b = some (u, next)) :
    Passes BodyPc.holdsPort b next s.ioPort u.ioPort ∧
      Passes BodyPc.holdsTask b next s.task u.task ∧
      Passes BodyPc.holdsIrq b next s.irqWaitTask u.irqWaitTask := by
  cases place : b.pc
  all_goals
    simp only [bodyStep, place, UnitTaskBody.goto] at stepped
    repeat' split at stepped
  all_goals cases stepped
  all_goals
    refine ⟨?_, ?_, ?_⟩
    all_goals
      simp [Passes, place, BodyPc.holdsPort, BodyPc.holdsTask, BodyPc.holdsIrq, Lifecycle.clear,
        Lifecycle.report]

theorem found_place (s : Lifecycle) (ids : ((bodyPlaces s.bodies).map Prod.fst).Nodup)
    (id : TaskId) (b : UnitTaskBody) (found : s.bodies.find? (fun b => b.id = id) = some b) :
    b.id = id ∧ (b.id, b.pc) ∈ bodyPlaces s.bodies ∧
      ∀ pc, (b.id, pc) ∈ bodyPlaces s.bodies → pc = b.pc := by
  have member : (b.id, b.pc) ∈ bodyPlaces s.bodies :=
    List.mem_map_of_mem (List.mem_of_find?_eq_some found)
  refine ⟨by simpa using List.find?_some found, member, fun pc there => ?_⟩
  have same := List.inj_on_of_nodup_map ids there member rfl
  exact (Prod.mk.inj same).2

theorem owned_body (holds : BodyPc → Bool) (s u : Lifecycle) (b : UnitTaskBody)
    (next : Option UnitTaskBody) (before after : Option TaskId) (bodies : u.bodies = s.bodies)
    (here : (b.id, b.pc) ∈ bodyPlaces s.bodies)
    (only : ∀ pc, (b.id, pc) ∈ bodyPlaces s.bodies → pc = b.pc)
    (number : ∀ c, next = some c → c.id = b.id) (held : Owned holds before s.bodies)
    (passes : Passes holds b next before after) :
    Owned holds after (u.putBody b.id next).bodies := by
  intro id set
  simp only [putBody_places, bodies]
  have present : b.id ∈ (bodyPlaces s.bodies).map Prod.fst := List.mem_map_of_mem here
  rcases passes with cleared | ⟨c, going, holding, owner⟩ | ⟨same, free⟩
  · rw [cleared] at set
    cases set
  · by_cases own : id = b.id
    · have named : (id, c.pc) = (c.id, c.pc) := by rw [own, number c going]
      exact ⟨c.pc, .inr ⟨⟨c, going, named⟩, present⟩, holding⟩
    · have old : before = some id := by
        rcases owner with mine | same
        · rw [mine] at set
          exact absurd (Option.some.inj set).symm own
        · exact same ▸ set
      obtain ⟨pc, there, holding⟩ := held id old
      exact ⟨pc, .inl ⟨there, own⟩, holding⟩
  · obtain ⟨pc, there, holding⟩ := held id (same ▸ set)
    have apart : id ≠ b.id := by
      rintro rfl
      rw [only pc there, free] at holding
      cases holding
    exact ⟨pc, .inl ⟨there, apart⟩, holding⟩

theorem roster_body (ok : Bool) (s u : Lifecycle) (id : TaskId) (b : UnitTaskBody)
    (next : Option UnitTaskBody) (roster : Roster s)
    (found : s.bodies.find? (fun b => b.id = id) = some b)
    (stepped : bodyStep ok s b = some (u, next)) : Roster (u.putBody id next) := by
  obtain ⟨rfl, here, only⟩ := found_place s roster.ids id b found
  obtain ⟨-, -, -, calls, created, -, -, -, -, bodies, reported⟩ := body_frame ok s u b next stepped
  have number : ∀ c, next = some c → c.id = b.id := fun c going =>
    (body_onward ok s u b c (going ▸ stepped)).id
  have places : ∀ id pc, (id, pc) ∈ bodyPlaces (u.putBody b.id next).bodies →
      (id, pc) ∈ bodyPlaces s.bodies ∧ id ≠ b.id ∨
        ∃ c, next = some c ∧ id = b.id ∧ pc = c.pc := by
    intro id pc there
    rcases (putBody_places u b.id next (id, pc)).mp there with ⟨old, apart⟩ | ⟨⟨c, going, same⟩, -⟩
    · exact .inl ⟨bodies ▸ old, apart⟩
    · obtain ⟨rfl, rfl⟩ := Prod.mk.inj same
      exact .inr ⟨c, going, number c going, rfl⟩
  obtain ⟨port, task, irq⟩ := body_passes ok s u b next stepped
  constructor
  · have before := roster.ids
    rw [← bodies] at before
    exact (putBody_ids u b.id next number).nodup before
  · intro id pc there
    show id < u.created
    rw [created]
    rcases places id pc there with ⟨old, -⟩ | ⟨c, -, rfl, -⟩
    · exact roster.fresh id pc old
    · exact roster.fresh b.id b.pc here
  · intro id told
    show id < u.created
    rw [created]
    rcases reported with same | more
    · exact roster.known id (same ▸ told)
    · rcases List.mem_cons.mp (more ▸ told) with rfl | earlier
      · exact roster.fresh b.id b.pc here
      · exact roster.known id earlier
  · intro id pc there starts
    show .starting id ∈ u.calls ∧ id ∉ u.reported
    rw [calls]
    rcases places id pc there with ⟨old, apart⟩ | ⟨c, going, rfl, rfl⟩
    · obtain ⟨waits, silent⟩ := roster.parent id pc old starts
      refine ⟨waits, fun told => ?_⟩
      rcases reported with same | more
      · exact silent (same ▸ told)
      · rcases List.mem_cons.mp (more ▸ told) with same | earlier
        · exact apart same
        · exact silent earlier
    · obtain ⟨before, same⟩ := (body_onward ok s u b c (going ▸ stepped)).startup starts
      rw [same]
      exact roster.parent b.id b.pc here before
  · exact owned_body _ s u b next _ _ bodies here only number roster.port port
  · exact owned_body _ s u b next _ _ bodies here only number roster.task task
  · exact owned_body _ s u b next _ _ bodies here only number roster.irq irq

theorem starting_stays (ok : Bool) (s u : Lifecycle) (i : Nat) (pc : ManagerPc)
    (next : Option ManagerPc) (id : TaskId) (present : s.calls[i]? = some pc)
    (stepped : managerCallStep ok s pc = some (u, next)) (waits : .starting id ∈ s.calls)
    (silent : id ∉ s.reported) : .starting id ∈ next.toList ++ s.calls.eraseIdx i := by
  have among := (call_perm s.calls i pc present).mem_iff.mp waits
  rcases List.mem_cons.mp among with rfl | other
  · rw [managerCallStep, if_neg silent] at stepped
    cases stepped
  · exact List.mem_append_right _ other

theorem roster_call (ok : Bool) (s u : Lifecycle) (i : Nat) (pc : ManagerPc)
    (next : Option ManagerPc) (roster : Roster s) (present : s.calls[i]? = some pc)
    (stepped : managerCallStep ok s pc = some (u, next)) :
    Roster { u with calls := next.toList ++ s.calls.eraseIdx i } := by
  have stays := starting_stays ok s u i pc next
  obtain ⟨who, port, task, irq, -, reported⟩ := call_places ok s u pc next stepped
  rcases who with ⟨places, created⟩ | ⟨rfl, places, created, rfl⟩
  · constructor
    · simpa only [places] using roster.ids
    · simpa only [places, created] using roster.fresh
    · simpa only [reported, created] using roster.known
    · intro id place there starts
      simp only [places] at there
      obtain ⟨waits, silent⟩ := roster.parent id place there starts
      exact ⟨stays id present stepped waits silent, reported ▸ silent⟩
    · exact owned_places _ _ _ _ places (port ▸ roster.port)
    · exact owned_places _ _ _ _ places (task ▸ roster.task)
    · exact owned_places _ _ _ _ places (irq ▸ roster.irq)
  · have new : s.created ∉ s.reported := fun told => Nat.lt_irrefl _ (roster.known _ told)
    have grows : ∀ holds field, Owned holds field s.bodies → Owned holds field u.bodies := by
      intro holds field held id set
      obtain ⟨pc, there, holding⟩ := held id set
      exact ⟨pc, places ▸ List.mem_cons_of_mem _ there, holding⟩
    constructor
    · simp only [places, List.map_cons, List.nodup_cons]
      refine ⟨fun there => ?_, roster.ids⟩
      obtain ⟨p, old, same⟩ := List.mem_map.mp there
      exact Nat.lt_irrefl _ (same ▸ roster.fresh p.1 p.2 old)
    · intro id place there
      show id < u.created
      rw [created]
      simp only [places] at there
      rcases List.mem_cons.mp there with same | old
      · obtain ⟨rfl, -⟩ := Prod.mk.inj same
        exact Nat.lt_succ_self _
      · exact Nat.lt_succ_of_lt (roster.fresh id place old)
    · intro id told
      show id < u.created
      rw [created]
      exact Nat.lt_succ_of_lt (roster.known id (reported ▸ told))
    · intro id place there starts
      simp only [places] at there
      rcases List.mem_cons.mp there with same | old
      · obtain ⟨rfl, -⟩ := Prod.mk.inj same
        exact ⟨List.mem_cons_self, reported ▸ new⟩
      · obtain ⟨waits, silent⟩ := roster.parent id place old starts
        exact ⟨stays id present stepped waits silent, reported ▸ silent⟩
    · exact port ▸ grows _ _ roster.port
    · exact task ▸ grows _ _ roster.task
    · exact irq ▸ grows _ _ roster.irq

theorem roster_step (s : Lifecycle) (a : LifecycleAction) (t : Lifecycle) (roster : Roster s)
    (stepped : lifecycleStep s a = some t) : Roster t := by
  have begins : ∀ pc : ManagerPc, ∀ id place, (id, place) ∈ bodyPlaces s.bodies →
      place.startup = true → .starting id ∈ pc :: s.calls ∧ id ∉ s.reported := by
    intro pc id place there starts
    obtain ⟨waits, silent⟩ := roster.parent id place there starts
    exact ⟨List.mem_cons_of_mem pc waits, silent⟩
  cases a with
  | call i ok =>
      obtain ⟨pc, u, next, present, moved, rfl⟩ := lifecycle_call s t i ok stepped
      exact roster_call ok s u i pc next roster present moved
  | task id ok =>
      obtain ⟨b, u, next, found, moved, rfl⟩ := lifecycle_task s t id ok stepped
      exact roster_body ok s u id b next roster found moved
  | signal id port irq =>
      obtain rfl := Option.some.inj stepped
      have places := signalBody_places s id ⟨port, irq, false⟩
      exact ⟨places ▸ roster.ids, places ▸ roster.fresh, roster.known, places ▸ roster.parent,
        owned_places _ _ _ _ places roster.port, owned_places _ _ _ _ places roster.task,
        owned_places _ _ _ _ places roster.irq⟩
  | _ =>
      simp only [lifecycleStep] at stepped
      split at stepped
      · cases stepped
      · obtain rfl := Option.some.inj stepped
        exact ⟨roster.ids, roster.fresh, roster.known, begins _, roster.port, roster.task,
          roster.irq⟩

theorem roster_reached (s : Lifecycle) (reached : lifecycleMachine.Reached s) : Roster s := by
  apply lifecycleMachine.invariant Roster _ roster_step s reached
  rintro s rfl
  exact ⟨List.nodup_nil, nofun, nofun, nofun, nofun, nofun, nofun⟩

theorem roster_idle (s : Lifecycle) (roster : Roster s) (none : s.bodies = []) :
    s.ioPort = .none ∧ s.task = .none ∧ s.irqWaitTask = .none := by
  have port := roster.port
  have task := roster.task
  have irq := roster.irq
  rw [none] at port task irq
  exact ⟨owned_empty _ _ port, owned_empty _ _ task, owned_empty _ _ irq⟩

/-- Every call has its variables, a mask is zero where its field is `NULL`, and no start message was
read too late. -/
structure OpenInv (s : OpenSystem) : Prop where
  roster : Roster s.life
  frames : s.frames.length = s.life.calls.length
  portMask : s.life.task = none → s.ioPortMask = 0#32
  irqMask : s.life.irqWaitTask = none → s.irqSignalMask = 0#32
  stale : s.staleReads = []

theorem callEffect_frame (e : OpenEnv) (s : OpenSystem) (f : OpenFrame) (pc : ManagerPc) :
    (callEffect e s f pc).1.ioPortMask = s.ioPortMask ∧
      (callEffect e s f pc).1.irqSignalMask = s.irqSignalMask ∧
      (callEffect e s f pc).1.staleReads = s.staleReads := by
  cases pc
  all_goals
    simp only [callEffect, OpenSystem.allocOpener]
    repeat' split
  all_goals simp [OpenSystem.freeOpener, OpenSystem.freeReady, OpenSystem.takeBit]

theorem freePort_frame (s : OpenSystem) :
    s.freePort.ioPortMask = s.ioPortMask ∧ s.freePort.irqSignalMask = s.irqSignalMask ∧
      s.freePort.staleReads = s.staleReads ∧ s.freePort.openerList = s.openerList ∧
      s.freePort.blocks = s.blocks ∧ s.freePort.frames = s.frames ∧
      s.freePort.returned = s.returned := by
  simp only [OpenSystem.freePort]
  split
  all_goals exact ⟨rfl, rfl, rfl, rfl, rfl, rfl, rfl⟩

theorem bodyEffect_masks (ok : Bool) (bit : Nat) (s : OpenSystem) (u : Lifecycle) (b : UnitTaskBody)
    (next : Option UnitTaskBody) (stepped : bodyStep ok s.life b = some (u, next))
    (portMask : s.life.task = none → s.ioPortMask = 0#32)
    (irqMask : s.life.irqWaitTask = none → s.irqSignalMask = 0#32) :
    (u.task = none → (bodyEffect ok bit s b).ioPortMask = 0#32) ∧
      (u.irqWaitTask = none → (bodyEffect ok bit s b).irqSignalMask = 0#32) := by
  obtain ⟨mask, irq, -⟩ := freePort_frame s
  cases place : b.pc
  all_goals
    simp only [bodyStep, place, UnitTaskBody.goto] at stepped
    simp only [bodyEffect, place, OpenSystem.readStartMsg]
    repeat' split at stepped
  all_goals cases stepped
  all_goals
    repeat' split
  all_goals
    simp_all [OpenSystem.takeBit, OpenSystem.freeBit, Lifecycle.clear, Lifecycle.report]

theorem bodyEffect_stale (ok : Bool) (bit : Nat) (s : OpenSystem) (b : UnitTaskBody)
    (waits : b.pc.startup = true → .starting b.id ∈ s.life.calls) :
    (bodyEffect ok bit s b).staleReads = s.staleReads := by
  obtain ⟨-, -, stale, -⟩ := freePort_frame s
  cases place : b.pc
  all_goals simp only [bodyEffect, place, OpenSystem.readStartMsg]
  case allocPort =>
    rw [if_pos (waits (by rw [place]; rfl))]
    split <;> rfl
  case reportFailure => rw [if_pos (waits (by rw [place]; rfl))]
  case reportReady => rw [if_pos (waits (by rw [place]; rfl))]
  case unwindPort => exact stale
  case exitPort => exact stale
  case allocSignal => split <;> rfl
  all_goals rfl

theorem bodyEffect_frame (ok : Bool) (bit : Nat) (s : OpenSystem) (b : UnitTaskBody) :
    (bodyEffect ok bit s b).openerList = s.openerList ∧ (bodyEffect ok bit s b).blocks = s.blocks ∧
      (bodyEffect ok bit s b).frames = s.frames ∧ (bodyEffect ok bit s b).returned = s.returned := by
  obtain ⟨-, -, -, freed⟩ := freePort_frame s
  cases place : b.pc
  all_goals
    simp only [bodyEffect, place, OpenSystem.readStartMsg]
    repeat' split
  all_goals simp [OpenSystem.takeBit, OpenSystem.freeBit, freed]

theorem openInv_step (s : OpenSystem) (a : OpenAction) (t : OpenSystem) (inv : OpenInv s)
    (stepped : openStep s a = some t) : OpenInv t := by
  have roster : Roster t.life := by
    rcases open_lifecycle s t a stepped with same | ⟨b, moved⟩
    · exact same ▸ inv.roster
    · exact roster_step s.life b t.life inv.roster moved
  have frames := inv.frames
  cases a with
  | call i e =>
      obtain ⟨pc, f, u, next, called, framed, moved, rfl⟩ := open_call s t i e stepped
      obtain ⟨portMask, irqMask, stale⟩ := callEffect_frame e s f pc
      obtain ⟨-, -, task, irq, -⟩ := call_places _ s.life u pc next moved
      obtain ⟨small, -⟩ := List.getElem?_eq_some_iff.mp called
      refine ⟨roster, ?_, ?_, ?_, stale.trans inv.stale⟩
      · have fewer := List.length_eraseIdx_of_lt small
        have less := List.length_eraseIdx_of_lt (frames.symm ▸ small)
        cases next <;> simp [fewer, less, frames]
      · intro none
        exact portMask.trans (inv.portMask (task ▸ none))
      · intro none
        exact irqMask.trans (inv.irqMask (irq ▸ none))
  | task id ok bit =>
      obtain ⟨b, u, next, found, moved, rfl⟩ := open_task s t id ok bit stepped
      obtain ⟨-, -, -, calls, -⟩ := body_frame ok s.life u b next moved
      obtain ⟨-, here, -⟩ := found_place s.life inv.roster.ids id b found
      obtain ⟨portMask, irqMask⟩ :=
        bodyEffect_masks ok bit s u b next moved inv.portMask inv.irqMask
      have stale := bodyEffect_stale ok bit s b fun starts =>
        (inv.roster.parent b.id b.pc here starts).1
      obtain ⟨-, -, same, -⟩ := bodyEffect_frame ok bit s b
      refine ⟨roster, ?_, portMask, irqMask, stale.trans inv.stale⟩
      show (bodyEffect ok bit s b).frames.length = u.calls.length
      rw [same, calls, frames]
  | signal id port irq =>
      obtain rfl := Option.some.inj stepped
      exact ⟨roster, frames, inv.portMask, inv.irqMask, inv.stale⟩
  | installHook bmCookie hook =>
      obtain rfl := Option.some.inj stepped
      exact ⟨roster, frames, inv.portMask, inv.irqMask, inv.stale⟩
  | _ =>
      obtain ⟨life, moved, rfl⟩ := Option.map_eq_some_iff.mp stepped
      simp only [lifecycleStep] at moved
      split at moved
      · cases moved
      · obtain rfl := Option.some.inj moved
        exact ⟨roster, congrArg Nat.succ frames, inv.portMask, inv.irqMask, inv.stale⟩

theorem openInv_reached (s : OpenSystem) (reached : openMachine.Reached s) : OpenInv s := by
  apply openMachine.invariant OpenInv _ openInv_step s reached
  rintro s ⟨unit, rfl⟩
  exact ⟨roster_reached _ (.start _ rfl), rfl, fun _ => rfl, fun _ => rfl, rfl⟩

end Pa6tEth

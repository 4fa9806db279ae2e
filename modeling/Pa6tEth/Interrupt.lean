import Pa6tEth.Driver
import Pa6tEth.RxCredits

/-! `PA6TEth_InterruptHandler` and the packet counter of the IOB beside the driver and the receive
engine, after a complete arming. -/

namespace Pa6tEth

open Support

def rxchResetPcntrst : BitVec 32 := 0x00000020
def rxchResetTintc : BitVec 32 := 0x00000008
def rxchResetDintc : BitVec 32 := 0x00000004
def rxchResetSintc : BitVec 32 := 0x00000002
def rxchResetPintc : BitVec 32 := 0x00000001

def statusTimer : Word := 0x1000000000000000#64
def statusError : Word := 0x2000000000000000#64
def statusSoft : Word := 0x4000000000000000#64

/-- `CNTTH` of the receive channel, as `PostRxBuffers` sets it. -/
def cntth : Nat := 1

/-- The packet count of the receive channel and its interrupt. -/
structure Iob where
  pcnt : Nat
  intgen : Bool
  deriving DecidableEq, Repr

namespace Iob

def count (iob : Iob) : Iob :=
  { pcnt := iob.pcnt + 1, intgen := iob.intgen || decide (cntth ≤ iob.pcnt + 1) }

/-- A write of `RXCH_RESET`. -/
def reset (iob : Iob) (value : BitVec 32) : Iob where
  pcnt := if value &&& rxchResetPcntrst ≠ 0#32 then 0 else iob.pcnt
  intgen := if value &&& rxchResetPintc ≠ 0#32 then false else iob.intgen

end Iob

/-- What the handler writes into `RXCH_RESET`, given the channel's word of `pasdma_status`. -/
def resetVal (ps : Word) : BitVec 32 :=
  rxchResetPcntrst ||| rxchResetPintc |||
    (if ps &&& statusTimer ≠ 0#64 then rxchResetTintc else 0#32) |||
    (if ps &&& statusSoft ≠ 0#64 then rxchResetSintc else 0#32) |||
    (if ps &&& statusError ≠ 0#64 then rxchResetDintc else 0#32)

/-- The place in its code at which the interrupt handler is. -/
inductive Handler
  | idle
  | claimed
  | acked
  deriving DecidableEq, Repr

/-- `outstanding` holds the numbers of the completed frames that the IOB has not yet counted. -/
structure WakeSystem where
  driver : Driver
  engine : RxEngine
  iob : Iob
  handler : Handler
  outstanding : List Nat
  written : Nat
  cleaned : Nat

inductive WakeAction
  | driver (a : Action)
  | complete (c : Completion) (mem : Addr → UInt8)
  | count (j : Nat)
  | interrupt (ps : Word)

namespace TaskPc

/-- The locals of `ProcessRX` while the unit task is in its loop. -/
def loop : TaskPc → Option RxLoop
  | rxLoop v => some v
  | rxDeliver v _ _ _ _ => some v
  | rxNext v _ => some v
  | _ => none

/-- The unit task will look at the ring before it calls `Wait` again. -/
def looks : TaskPc → Bool
  | woken => true
  | draining => true
  | received _ => true
  | handling _ _ _ => true
  | rxStart => true
  | rxLoop _ => true
  | rxDeliver _ _ _ _ _ => true
  | rxNext _ _ => true
  | _ => false

end TaskPc

def uncounted (u : UnitRx) : UnitRx := { u with statRx := 0#32, statRxDropped := 0#32 }

def loopOf : List TaskPc → Option RxLoop
  | [pc] => pc.loop
  | _ => none

namespace WakeSystem

def receive (s : WakeSystem) : RxSystem where
  rx := uncounted s.driver.world.unit.rx
  loop := loopOf s.driver.tasks
  engine := s.engine
  written := s.written
  cleaned := s.cleaned

def signal (s : WakeSystem) (more : Signals) : WakeSystem :=
  { s with
    driver :=
      { s.driver with
        world := { s.driver.world with signals := s.driver.world.signals.join more } } }

end WakeSystem

/-- The session goes on: the unit is online and the unit task is the one to be signalled. -/
def goesOn (t : Driver) : Bool :=
  t.world.unit.online && t.world.unit.irqWaitTask && !t.world.unit.taskShutdown

/-- The driver's own steps; the engine, the handler and `CTRL_C` are not among them. -/
def driverActs (s : Driver) : Action → Bool
  | .dma _ _ => false
  | .signal more => !more.ctrlC
  | a => inSession s a

/-- The step is the end of one iteration of `ProcessRX`. -/
def cleans (s : Driver) : Action → Bool
  | .task i _ =>
      match s.tasks[i]? with
      | some (.rxNext _ _) => true
      | _ => false
  | _ => false

/-- One step. The descriptor write of a completion comes before its count. -/
def wakeStep (ch : Channels) (s : WakeSystem) : WakeAction → Option WakeSystem
  | .driver a =>
      match driverStep ch s.driver a with
      | none => none
      | some t =>
          if driverActs s.driver a && goesOn t then
            some { s with
              driver := t
              engine := s.engine.writes ch (t.world.regs.drop s.driver.world.regs.length)
              cleaned := if cleans s.driver a then s.cleaned + 1 else s.cleaned }
          else none
  | .complete c mem =>
      (rxStep ch chanConforms s.receive (.complete c)).map fun r =>
        { s with
          driver :=
            { s.driver with
              world :=
                { s.driver.world with
                  unit :=
                    { s.driver.world.unit with
                      rx := { s.driver.world.unit.rx with rxRing := r.rx.rxRing } }
                  mem := mem } }
          engine := r.engine
          written := r.written
          outstanding := s.written :: s.outstanding }
  | .count j =>
      if j ∈ s.outstanding then
        some { s with
          iob := s.iob.count
          outstanding := s.outstanding.filter fun k => k ≠ j }
      else none
  | .interrupt ps =>
      match s.handler with
      | .idle => some { s with handler := if s.iob.intgen then .claimed else .idle }
      | .claimed => some { s with iob := s.iob.reset (resetVal ps), handler := .acked }
      | .acked =>
          some { s.signal ⟨false, s.driver.world.unit.irqWaitTask, false⟩ with handler := .idle }

/-- Right after `PostRxBuffers` has armed completely, in the handler that called it. -/
structure ArmedSession (ch : Channels) (s : WakeSystem) : Prop where
  ring : ArmedStart ch s.receive
  handling : ∃ r fin, s.driver.tasks = [.handling r [.signalEvent s2eventOnline] fin]
  goes : goesOn s.driver = true
  unbroken : s.driver.world.signals.ctrlC = false
  raised : cntth ≤ s.iob.pcnt → s.iob.intgen = true
  counted : s.outstanding = []

def wakeMachine (ch : Channels) : Machine WakeSystem WakeAction where
  start := ArmedSession ch
  step := wakeStep ch

theorem driver_act (ch : Channels) (s t : WakeSystem) (a : Action)
    (stepped : wakeStep ch s (.driver a) = some t) :
    ∃ d, driverStep ch s.driver a = some d ∧ driverActs s.driver a = true ∧ goesOn d = true ∧
      t = { s with
        driver := d
        engine := s.engine.writes ch (d.world.regs.drop s.driver.world.regs.length)
        cleaned := if cleans s.driver a then s.cleaned + 1 else s.cleaned } := by
  simp only [wakeStep] at stepped
  split at stepped
  · cases stepped
  · rename_i d moved
    split at stepped
    · rename_i allowed
      rw [Bool.and_eq_true] at allowed
      exact ⟨d, moved, allowed.1, allowed.2, (Option.some.inj stepped).symm⟩
    · cases stepped

theorem resetVal_bits (ps : Word) :
    resetVal ps &&& rxchResetPcntrst ≠ 0#32 ∧ resetVal ps &&& rxchResetPintc ≠ 0#32 := by
  simp only [resetVal]
  split_ifs <;> decide

theorem reset_resetVal (iob : Iob) (ps : Word) : iob.reset (resetVal ps) = ⟨0, false⟩ := by
  obtain ⟨count, interrupt⟩ := resetVal_bits ps
  simp only [Iob.reset, if_pos count, if_pos interrupt]

theorem count_raises (iob : Iob) : iob.count.intgen = true := by
  simp [Iob.count, cntth]

end Pa6tEth

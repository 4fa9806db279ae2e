import Pa6tEth.Deliver
import Pa6tEth.PostRxBuffers

/-! `UnitTaskBody`: the command loop, the receive pass and the exit drain. -/

namespace Pa6tEth

/-- The actions of a command handler before its reply. -/
inductive TaskOp
  | setOnline (online : Bool)
  | postRxBuffers
  | flushReadQueue (error : IoError)
  | signalEvent (mask : BitVec 32)
  deriving DecidableEq, Repr

/-- What a handler writes into the request before `ReplyMsg`. -/
structure Finish where
  error : IoError
  wireError : Option (BitVec 32)
  deriving DecidableEq, Repr

def Finish.apply (f : Finish) (q : IOSana2Req) : IOSana2Req :=
  { q with error := f.error, wireError := f.wireError.getD q.wireError }

/-- The branch that takes the unit from offline to online. -/
def goOnline (online : Bool) : List TaskOp :=
  if online then [] else [.setOnline true, .postRxBuffers, .signalEvent s2eventOnline]

/-- The `switch` of the command loop. -/
def commandOps (online : Bool) : Command → List TaskOp × Finish
  | .configInterface => (goOnline online, ⟨.ok, some 0#32⟩)
  | .online => (goOnline online, ⟨.ok, some 0#32⟩)
  | .offline =>
      ([.setOnline false, .flushReadQueue .outOfService, .signalEvent s2eventOffline],
        ⟨.ok, some 0#32⟩)
  | .cmdFlush => ([.flushReadQueue .aborted], ⟨.ok, none⟩)
  | .cmdWrite => ([], ⟨.txFailure, some s2werrGenericError⟩)
  | .broadcast => ([], ⟨.txFailure, some s2werrGenericError⟩)
  | .multicast => ([], ⟨.txFailure, some s2werrGenericError⟩)
  | _ => ([], ⟨.noCmd, none⟩)

/-- The place in its code at which the unit task is. -/
inductive TaskPc
  | loopHead
  | waiting
  | woken
  | draining
  | received (r : ReqId)
  | handling (r : ReqId) (ops : List TaskOp) (fin : Finish)
  | rxStart
  | rxLoop (v : RxLoop)
  | rxDeliver (v : RxLoop) (g : RxGroup) (f : RxFrame) (r : ReqId) (orphan : Bool)
  | rxNext (v : RxLoop) (g : RxGroup)
  | exitDrain
  | exitReply (r : ReqId)
  | exitFlush
  | exitFlushEvents
  | drained
  deriving DecidableEq, Repr

/-- What the system answers one step of the unit task: an arming, and a hook call. -/
structure TaskEnv where
  arm : ArmEnv
  hookOk : Bool

namespace TaskPc

def claim : TaskPc → List (ReqId × Stage)
  | received r => [(r, .clear)]
  | handling r _ _ => [(r, .clear)]
  | rxDeliver _ _ f r orphan =>
      [(r, if orphan then .orphan else .reading (readClass f.etherType))]
  | exitReply r => [(r, .clear)]
  | _ => []

end TaskPc

def runOp (ch : Channels) (e : TaskEnv) (w : World) : TaskOp → World
  | .setOnline online => { w with unit := { w.unit with online := online } }
  | .postRxBuffers =>
      { w with
        unit := { w.unit with rx := (postRxBuffers ch e.arm w.unit.rx).1 }
        regs := w.regs ++ (postRxBuffers ch e.arm w.unit.rx).2 }
  | .flushReadQueue error => w.flushReadQueue error
  | .signalEvent mask => w.signalEvent mask

/-- A group that is given to nobody counts as dropped. -/
def dropGroup (u : PA6TEthUnit) : PA6TEthUnit :=
  { u with rx := { u.rx with statRxDropped := u.rx.statRxDropped + 1 } }

/-- A frame for which `stat_rx` is counted, and what the section under `Forbid` does with it. -/
def offerFrame (w : World) (v : RxLoop) (g : RxGroup) (f : RxFrame) : World × TaskPc :=
  let u := { w.unit with rx := { w.unit.rx with statRx := w.unit.rx.statRx + 1 } }
  match takeReader w.reqs w.unit f.etherType with
  | .read pr rest =>
      ({ w with unit := u.setReadList rest (readClass f.etherType), freed := pr.node :: w.freed },
        .rxDeliver v g f pr.ioreq false)
  | .orphan r rest => ({ w with unit := { u with eventList := rest } }, .rxDeliver v g f r true)
  | .nobody => ({ w with unit := dropGroup u }, .rxNext v g)

/-- The body of the receive loop up to the end of its section under `Forbid`. -/
def rxBody (ch : Channels) (w : World) (v : RxLoop) : World × TaskPc :=
  match fetchGroup w.unit.rx v.n with
  | none =>
      ({ w with
          unit := { w.unit with rx := (leaveRing ch w.unit.rx v).1 }
          regs := w.regs ++ (leaveRing ch w.unit.rx v).2 }, .loopHead)
  | some g =>
      match checkGroup w.unit.rx g with
      | .error _ => ({ w with unit := dropGroup w.unit }, .rxNext v g)
      | .ok frameLen => offerFrame w v g (frameOf w.mem w.unit.rx g frameLen)

/-- One step of the unit task; `none` where it does not run on. -/
def taskStep (ch : Channels) (e : TaskEnv) (w : World) : TaskPc → Option (World × TaskPc)
  | .loopHead => some (w, if w.unit.taskShutdown then .exitDrain else .waiting)
  | .waiting =>
      -- `Wait` returns with a pending signal and clears all that it waits for.
      if w.signals.pending then some ({ w with signals := .none }, .woken) else none
  | .woken =>
      some ({ w with signals := { w.signals with irq := false, ctrlC := false } },
        if w.signals.ctrlC then .exitDrain else .draining)
  | .draining =>
      match w.unit.ioPort with
      | none => none
      | some [] => some (w, .rxStart)
      | some (r :: rest) =>
          some ({ w with unit := { w.unit with ioPort := some rest } }, .received r)
  | .received r =>
      let c := (w.reqs r).command
      some ({ w with history := .command c :: w.history },
        .handling r (commandOps w.unit.online c).1 (commandOps w.unit.online c).2)
  | .handling r (op :: ops) fin => some (runOp ch e w op, .handling r ops fin)
  | .handling r [] fin => some (w.replyMsg r (fin.apply (w.reqs r)) .unitTask, .draining)
  | .rxStart =>
      some (w,
        if w.unit.online && w.unit.rx.rxRingPtr ≠ 0 && w.unit.rx.rxBufRingPtr ≠ 0 then
          .rxLoop (enterRing w.unit.rx)
        else .loopHead)
  | .rxLoop v => some (rxBody ch w v)
  | .rxDeliver v g f r orphan =>
      let done := deliver orphan e.hookOk w.unit w.mem r f (w.reqs r)
      some (w.replyMsg r done.1 (.processRX done.2), .rxNext v g)
  | .rxNext v g =>
      some ({ w with unit := { w.unit with rx := (nextDesc w.unit.rx v g).1 } },
        .rxLoop (nextDesc w.unit.rx v g).2)
  | .exitDrain =>
      match w.unit.ioPort with
      | none => none
      | some [] => some (w, .exitFlush)
      | some (r :: rest) =>
          some ({ w with unit := { w.unit with ioPort := some rest } }, .exitReply r)
  | .exitReply r => some (w.replyMsg r { w.reqs r with error := .aborted } .exitDrain, .exitDrain)
  | .exitFlush => some (w.flushReadQueue .aborted, .exitFlushEvents)
  | .exitFlushEvents => some (w.flushRemaining, .drained)
  | .drained => none

end Pa6tEth

import Pa6tEth.Unit
import Pa6tEth.Support.Custody

/-! The shared state of the driver's tasks, and the loops that answer queued requests. -/

namespace Pa6tEth

open Support

/-- The signals that the unit task waits for: its port, the interrupt handler's and `CTRL_C`. -/
structure Signals where
  port : Bool
  irq : Bool
  ctrlC : Bool
  deriving DecidableEq, Repr

namespace Signals

def none : Signals := ⟨false, false, false⟩

def pending (s : Signals) : Bool := s.port || s.irq || s.ctrlC

def join (s more : Signals) : Signals :=
  ⟨s.port || more.port, s.irq || more.irq, s.ctrlC || more.ctrlC⟩

end Signals

/-- One delivery of `ProcessRX`: the frame, the opener list it searched and the hook call it
made. -/
structure Delivery where
  orphan : Bool
  frame : RxFrame
  openers : List Opener
  hook : Option HookCall
  deriving DecidableEq, Repr

/-- Who calls `ReplyMsg`. -/
inductive Via
  | beginIo
  | abortIo
  | flush
  | event (mask : BitVec 32)
  | unitTask
  | exitDrain
  | processRX (d : Delivery)
  deriving DecidableEq, Repr

/-- How a request was completed, with its record as submitted and as completed. -/
inductive Answer
  | returned (asked done : IOSana2Req)
  | replied (via : Via) (asked done : IOSana2Req)

/-- What an observer of the unit task notes: a task's start, with no other task running or not,
and the command it takes up. -/
inductive Moment
  | session (alone : Bool)
  | command (c : Command)
  deriving DecidableEq, Repr

/-- `submitted`, `asked`, `answers`, `freed`, `regs`, `reports` and `history` only record what
happened; `asked` is the record of a request when it was last submitted. -/
structure World where
  unit : PA6TEthUnit
  signals : Signals
  reqs : ReqId → IOSana2Req
  mem : Addr → UInt8
  macAddr : Nat → UInt8
  submitted : List ReqId
  asked : ReqId → IOSana2Req
  answers : List (ReqId × Answer)
  freed : List Addr
  regs : List RegWrite
  reports : List (Addr × Sana2DeviceStats)
  history : List Moment

/-- How far a request has come at the place where it is. -/
inductive Stage
  | called
  | loose
  | clear
  | reading (c : ReadClass)
  | waiting
  | orphan
  deriving DecidableEq, Repr

/-- What a stage promises about a request, given as submitted and as it is now. -/
def Stage.promise : Stage → IOSana2Req × IOSana2Req → Prop
  | .called, (asked, req) => req = asked
  | .loose, _ => True
  | .clear, (_, req) => req.quick = false
  | .reading c, (asked, req) =>
      req.quick = false ∧ req.error = .ok ∧ asked.command = .cmdRead ∧ req.command = .cmdRead ∧
        readClass (asked.packetType.setWidth 16) = c ∧ req.statData = asked.data ∧
        req.bufferManagement = asked.bufferManagement
  | .waiting, (asked, req) =>
      req.quick = false ∧ req.error = .ok ∧ req.wireError = 0#32 ∧ req.command = asked.command ∧
        (asked.command = .onEvent ∨ asked.command = .readOrphan ∧ req.statData = asked.data ∧
          req.bufferManagement = asked.bufferManagement)
  | .orphan, (asked, req) =>
      req.quick = false ∧ req.error = .ok ∧ asked.command = .readOrphan ∧
        req.command = .readOrphan ∧ req.statData = asked.data ∧
        req.bufferManagement = asked.bufferManagement

namespace World

def readPlaces (list : List PendingRead) (c : ReadClass) : List (ReqId × Stage) :=
  list.map fun pr => (pr.ioreq, .reading c)

def eventPlaces (list : List ReqId) : List (ReqId × Stage) := list.map fun r => (r, .waiting)

def portPlaces (port : Option (List ReqId)) : List (ReqId × Stage) :=
  (port.getD []).map fun r => (r, .clear)

/-- The requests in the four lists and the port. -/
def stored (u : PA6TEthUnit) : List (ReqId × Stage) :=
  readPlaces u.readListIpv4 .ipv4 ++ (readPlaces u.readListArp .arp ++
    (readPlaces u.readListOther .other ++ (eventPlaces u.eventList ++ portPlaces u.ioPort)))

/-- The ledger of a world for a given list of places. -/
def ledger (w : World) (places : List (ReqId × Stage)) :
    Ledger ReqId Stage (IOSana2Req × IOSana2Req) Answer where
  asked := w.submitted
  answers := w.answers
  record := fun r => (w.asked r, w.reqs r)
  places := places

def setReq (w : World) (r : ReqId) (q : IOSana2Req) : World :=
  { w with reqs := Function.update w.reqs r q }

/-- `ReplyMsg` of the request with the record it now has. -/
def replyMsg (w : World) (r : ReqId) (q : IOSana2Req) (via : Via) : World :=
  { w with
    reqs := Function.update w.reqs r q
    answers := (r, .replied via (w.asked r) q) :: w.answers }

/-- `reply_ioreq`, which is also `tx_reply`. -/
def replyIoreq (w : World) (r : ReqId) (err : IoError) (werr : BitVec 32) : World :=
  let q := { w.reqs r with error := err, wireError := werr }
  if q.quick then
    { w with
      reqs := Function.update w.reqs r q
      answers := (r, .returned (w.asked r) q) :: w.answers }
  else w.replyMsg r q .beginIo

/-- One walk over a list that removes and answers the requests it picks; the rest is returned. -/
def sweep (picked : IOSana2Req → Bool) (answer : IOSana2Req → IOSana2Req) (via : Via) :
    List ReqId → World → World × List ReqId
  | [], w => (w, [])
  | r :: rest, w =>
      if picked (w.reqs r) then
        sweep picked answer via rest (w.replyMsg r (answer (w.reqs r)) via)
      else ((sweep picked answer via rest w).1, r :: (sweep picked answer via rest w).2)

def flushed (error : IoError) (q : IOSana2Req) : IOSana2Req :=
  { q with error := error, wireError := s2werrGenericError }

/-- `flush_read_list`: every wrapper is freed and its request answered. -/
def flushReadList (error : IoError) : List PendingRead → World → World
  | [], w => w
  | pr :: rest, w =>
      flushReadList error rest
        ({ w with freed := pr.node :: w.freed }.replyMsg pr.ioreq
          (flushed error (w.reqs pr.ioreq)) .flush)

/-- One call of `flush_read_list`, which leaves its list empty. -/
def flushRead (error : IoError) (c : ReadClass) (w : World) : World :=
  let w' := flushReadList error (w.unit.readList c) w
  { w' with unit := w'.unit.setReadList [] c }

def sweepEvents (picked : IOSana2Req → Bool) (answer : IOSana2Req → IOSana2Req) (via : Via)
    (w : World) : World :=
  let (w', kept) := sweep picked answer via w.unit.eventList w
  { w' with unit := { w'.unit with eventList := kept } }

/-- `PA6TEth_FlushReadQueue`, one `Forbid` section. -/
def flushReadQueue (error : IoError) (w : World) : World :=
  sweepEvents (fun q => q.command = .readOrphan) (flushed error) .flush
    (flushRead error .other (flushRead error .arp (flushRead error .ipv4 w)))

/-- The second `Forbid` section of `PA6TEth_FlushAllPending`. -/
def flushRemaining (w : World) : World :=
  sweepEvents (fun _ => true) (flushed .aborted) .flush w

/-- `signal_event`, one `Forbid` section. -/
def signalEvent (mask : BitVec 32) (w : World) : World :=
  sweepEvents (fun q => q.wireError &&& mask ≠ 0#32)
    (fun q => { q with error := .ok, wireError := mask &&& q.wireError }) (.event mask) w

/-- `PutMsg` signals the task of the port; without a port the call does not return. -/
def putMsg (w : World) (r : ReqId) : Option World :=
  w.unit.ioPort.map fun port =>
    { w with
      unit := { w.unit with ioPort := some (port ++ [r]) }
      signals := { w.signals with port := true } }

end World

end Pa6tEth

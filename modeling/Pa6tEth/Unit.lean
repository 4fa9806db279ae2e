import Pa6tEth.RxRing

/-! `PA6TEthUnit` with its openers and its queues. -/

namespace Pa6tEth

open Support

structure Opener where
  bmCookie : Addr
  s2hook : Addr
  deriving DecidableEq, Repr

/-- The wrapper of a queued `CMD_READ`, named by the address of its own node. -/
structure PendingRead where
  node : Addr
  ioreq : ReqId
  deriving DecidableEq, Repr

inductive ReadClass
  | ipv4
  | arp
  | other
  deriving DecidableEq, Repr

/-- The `switch` that `BeginIO` makes on a request's type and `ProcessRX` on a frame's. -/
def readClass (etherType : BitVec 16) : ReadClass :=
  if etherType = 0x0800#16 then .ipv4
  else if etherType = 0x0806#16 then .arp
  else .other

theorem readClass_ipv4 (etherType : BitVec 16) :
    readClass etherType = .ipv4 ↔ etherType = 0x0800#16 := by
  simp only [readClass]
  split_ifs <;> simp_all

theorem readClass_arp (etherType : BitVec 16) :
    readClass etherType = .arp ↔ etherType = 0x0806#16 := by
  simp only [readClass]
  split_ifs with first second
  · simp [first]
  · simp [second]
  · simp [second]

structure UnitTx where
  txRingPtr : Addr
  txRing : Ring txRingSize Word
  txNextFill : Nat
  txBufPending : Addr
  txBufPendingLen : BitVec 32
  txFillPending : Nat
  statTx : BitVec 32

/-- A `Task` pointer is only compared with `NULL`, so it is a `Bool` here. -/
structure PA6TEthUnit where
  openCount : Nat
  online : Bool
  task : Bool
  ioPort : Option (List ReqId)
  taskShutdown : Bool
  irqWaitTask : Bool
  readListIpv4 : List PendingRead
  readListArp : List PendingRead
  readListOther : List PendingRead
  eventList : List ReqId
  openerList : List Opener
  tx : UnitTx
  rx : UnitRx

/-- The walk of `PA6TEth_FindOpener`: the first opener with the cookie. -/
def findCookie (openers : List Opener) (bmCookie : Addr) : Option Opener :=
  openers.find? fun op => op.bmCookie == bmCookie

theorem findCookie_found (openers : List Opener) (bmCookie : Addr) (op : Opener)
    (found : findCookie openers bmCookie = some op) : op ∈ openers ∧ op.bmCookie = bmCookie := by
  have same := List.find?_some found
  exact ⟨List.mem_of_find?_eq_some found, by simpa using same⟩

namespace PA6TEthUnit

def readList (u : PA6TEthUnit) : ReadClass → List PendingRead
  | .ipv4 => u.readListIpv4
  | .arp => u.readListArp
  | .other => u.readListOther

def setReadList (u : PA6TEthUnit) (list : List PendingRead) : ReadClass → PA6TEthUnit
  | .ipv4 => { u with readListIpv4 := list }
  | .arp => { u with readListArp := list }
  | .other => { u with readListOther := list }

/-- `PA6TEth_FindOpener`. -/
def findOpener (u : PA6TEthUnit) (bmCookie : Addr) : Option Opener :=
  findCookie u.openerList bmCookie

/-- `op->s2hook = hook` for the opener that `PA6TEth_FindOpener` returns. -/
def setHook (bmCookie hook : Addr) : List Opener → List Opener
  | [] => []
  | op :: rest =>
      if op.bmCookie = bmCookie then { op with s2hook := hook } :: rest
      else op :: setHook bmCookie hook rest

@[simp] theorem readList_setReadList (u : PA6TEthUnit) (list : List PendingRead)
    (c d : ReadClass) : (u.setReadList list c).readList d = if d = c then list else u.readList d := by
  cases c <;> cases d <;> rfl

@[simp] theorem setReadList_eventList (u : PA6TEthUnit) (list : List PendingRead)
    (c : ReadClass) : (u.setReadList list c).eventList = u.eventList := by
  cases c <;> rfl

@[simp] theorem setReadList_ioPort (u : PA6TEthUnit) (list : List PendingRead)
    (c : ReadClass) : (u.setReadList list c).ioPort = u.ioPort := by
  cases c <;> rfl

@[simp] theorem setReadList_online (u : PA6TEthUnit) (list : List PendingRead)
    (c : ReadClass) : (u.setReadList list c).online = u.online := by
  cases c <;> rfl

@[simp] theorem setReadList_rx (u : PA6TEthUnit) (list : List PendingRead) (c : ReadClass) :
    (u.setReadList list c).rx = u.rx := by
  cases c <;> rfl

end PA6TEthUnit

end Pa6tEth

import Pa6tEth.TxEngine
import Pa6tEth.Handover
import Pa6tEth.Init

/-! What the driver's calls and its unit tasks take from the system and give back. -/

namespace Pa6tEth

open Support

/-- What one call of the system hands out or takes back; a failed one hands out nothing. -/
def SysCall.uses : SysCall → ResourceLog
  | .allocVec _ block => takeIf block (.block block)
  | .freeVec block => [.give (.block block)]
  | .startDma block size nentries => if nentries = 0 then [] else [.take (.mapping block size)]
  | .endDma block size => [.give (.mapping block size)]
  | .callHook _ => []

def uses (calls : List SysCall) : ResourceLog := calls.flatMap SysCall.uses

def readBlocks (list : List PendingRead) : List Resource := list.map fun pr => .block pr.node

def readHeld (u : PA6TEthUnit) : List Resource :=
  readBlocks u.readListIpv4 ++ (readBlocks u.readListArp ++ readBlocks u.readListOther)

def txMapped (buf : Addr) (len : BitVec 32) : List Resource :=
  [.mapping buf len.toNat, .block buf]

def txHeld (u : UnitTx) : List Resource :=
  if u.txBufPending = 0 then [] else txMapped u.txBufPending u.txBufPendingLen

/-- The rings of the unit, with their mappings as `PA6TEth_HWInit` counted them. -/
def UnitRings.within (rings : UnitRings) (u : PA6TEthUnit) : UnitRings :=
  { rings with
    txRing := u.tx.txRingPtr
    rxRing := u.rx.rxRingPtr
    rxBufRing := u.rx.rxBufRingPtr }

def rxHeld (u : UnitRx) : List Resource := rxBufsHeld u.rxBufs u.rxBufsDmaEntries

def Call.holds : Call → List Resource
  | addingRead pr _ => [.block pr.node]
  | submitting _ f => txMapped f.buf f.frameLen
  | _ => []

end Pa6tEth

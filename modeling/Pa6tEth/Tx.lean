import Pa6tEth.World

/-! `PA6TEth_TransmitPacket`: what it builds and refuses, and the section under `tx_lock`. -/

namespace Pa6tEth

open Support

/-- What the system answers during one call: `AllocVecTags`, the hook with the bytes that it writes
behind the header, `StartDMA`, the DMA list and the address in its first entry. -/
structure TxEnv where
  buf : Addr
  hookOk : Bool
  copied : Nat → Option UInt8
  nentries : Nat
  dlist : Bool
  phys : BitVec 32

structure TxFrame where
  buf : Addr
  bytes : Nat → UInt8
  frameLen : BitVec 32
  phys : BitVec 32

/-- How the part before the lock ends, with the request as it leaves it. -/
inductive TxOutcome
  | refused (q : IOSana2Req) (err : IoError) (werr : BitVec 32)
  | built (q : IOSana2Req) (frame : TxFrame)

/-- The length with the header, padded to the Ethernet minimum; the sum wraps. -/
def txFrameLen (payLen : BitVec 32) : BitVec 32 :=
  if ethHdrLen + payLen < 60#32 then 60#32 else ethHdrLen + payLen

/-- A new block, after `AVT_ClearWithValue`. -/
def clearedBlock (_ : Nat) : UInt8 := 0

def txHeader (macAddr : Nat → UInt8) (q : IOSana2Req) (i : Nat) : UInt8 :=
  if i < ethAddrLen then q.dstAddr i
  else if i < 2 * ethAddrLen then macAddr (i - ethAddrLen)
  else if i = 12 then UInt8.ofBitVec ((q.packetType >>> 8).setWidth 8)
  else UInt8.ofBitVec (q.packetType.setWidth 8)

/-- The part before the lock. The requests that fail before the hook is looked up go back with
`ios2_Data` still pointing at themselves. -/
def txBuild (e : TxEnv) (w : World) (r : ReqId) : TxOutcome :=
  let q := w.reqs r
  let frameLen := txFrameLen q.dataLength
  let restored := { q with data := q.statData }
  if w.unit.tx.txRingPtr = 0 then .refused q .txFailure s2werrGenericError
  else if frameLen > ethMaxFrame then .refused q .mtuExceeded s2werrGenericError
  else if e.buf = 0 then .refused q .noResources s2werrGenericError
  else
    match w.unit.findOpener q.bufferManagement with
    | none => .refused restored .badArgument s2werrGenericError
    | some op =>
        if q.statData = 0 ∨ op.s2hook = 0 then .refused restored .badArgument s2werrGenericError
        else if e.hookOk = false then .refused restored .noResources s2werrBuffError
        else if e.nentries = 0 then .refused restored .txFailure s2werrGenericError
        else if e.dlist = false then .refused restored .noResources s2werrGenericError
        else
          .built restored
            { buf := e.buf
              bytes := fun i =>
                if i < ethHdrLen.toNat then txHeader w.macAddr q i
                else (e.copied (i - ethHdrLen.toNat)).getD (clearedBlock i)
              frameLen := frameLen
              phys := e.phys }

/-- `tx_cleanup_pending`, whose polling of the O bit ends in the same state either way. -/
def txCleanupPending (u : UnitTx) : UnitTx × List Addr :=
  if u.txBufPending = 0 then (u, [])
  else
    ({ u with
        txRing := (u.txRing.set u.txFillPending 0#64).set (u.txFillPending + 1) 0#64
        txBufPending := 0 }, [u.txBufPending])

/-- The section under `tx_lock`, with the blocks it frees and the registers it writes. -/
def txSubmit (ch : Channels) (u : UnitTx) (f : TxFrame) : UnitTx × List Addr × List RegWrite :=
  let (u, freed) := txCleanupPending u
  let fill := u.txNextFill
  ({ u with
      txRing :=
        (u.txRing.set fill
          (xctMactxO ||| xctMactxSt ||| xctMactxCrcPad ||| xctMactxLlen f.frameLen)).set (fill + 1)
          (xctPtrLen f.frameLen ||| xctPtrAddr f.phys)
      txNextFill := (fill + 2) % txRingSize
      txBufPending := f.buf
      txBufPendingLen := f.frameLen
      txFillPending := fill
      statTx := u.statTx + 1 },
    freed,
    [⟨.txchanTcmdsta ch.txChannelNum, 0x00000001 ||| 0x00000400⟩,
     ⟨.txchanIncr ch.txChannelNum, 1⟩])

end Pa6tEth

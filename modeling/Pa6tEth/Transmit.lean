import Pa6tEth.Driver

/-! The system calls of `PA6TEth_TransmitPacket` before its lock, and the lengths in them. -/

namespace Pa6tEth

/-- A call of the system that hands out or takes back a block or a DMA mapping, or runs a hook.
A failed allocation hands out block zero, a failed mapping has no entries. -/
inductive SysCall
  | allocVec (size : Nat) (block : Addr)
  | freeVec (block : Addr)
  | startDma (block : Addr) (size nentries : Nat)
  | endDma (block : Addr) (size : Nat)
  | callHook (call : HookCall)
  deriving DecidableEq, Repr

/-- `CallHookPkt` with the message of `S2_CopyFromBuff`. -/
def copyFromBuff (e : TxEnv) (op : Opener) (r : ReqId) (q : IOSana2Req) : HookCall where
  hook := op.s2hook
  object := r
  msg := ⟨.copyFromBuff, e.buf + ethHdrLen.toNat, q.statData, q.dataLength⟩
  ok := e.hookOk

/-- The calls that `txBuild` makes, in their order. -/
def txCalls (e : TxEnv) (w : World) (r : ReqId) : List SysCall :=
  let q := w.reqs r
  let frameLen := (txFrameLen q.dataLength).toNat
  if w.unit.tx.txRingPtr = 0 then []
  else if txFrameLen q.dataLength > ethMaxFrame then []
  else if e.buf = 0 then [.allocVec frameLen 0]
  else
    .allocVec frameLen e.buf ::
      match w.unit.findOpener q.bufferManagement with
      | none => [.freeVec e.buf]
      | some op =>
          if q.statData = 0 ∨ op.s2hook = 0 then [.freeVec e.buf]
          else
            .callHook (copyFromBuff e op r q) ::
              if e.hookOk = false then [.freeVec e.buf]
              else if e.nentries = 0 then [.startDma e.buf frameLen 0, .freeVec e.buf]
              else if e.dlist = false then
                [.startDma e.buf frameLen e.nentries, .endDma e.buf frameLen, .freeVec e.buf]
              else [.startDma e.buf frameLen e.nentries]

def restoredRequest (q : IOSana2Req) : IOSana2Req := { q with data := q.statData }

def builtFrame (e : TxEnv) (w : World) (r : ReqId) : TxFrame where
  buf := e.buf
  bytes := fun i =>
    if i < ethHdrLen.toNat then txHeader w.macAddr (w.reqs r) i
    else (e.copied (i - ethHdrLen.toNat)).getD (clearedBlock i)
  frameLen := txFrameLen (w.reqs r).dataLength
  phys := e.phys

def TxOutcome.request : TxOutcome → IOSana2Req
  | refused q _ _ => q
  | built q _ => q

/-- The ring is there, the frame is within the limit and it has its block. -/
structure TxReady (e : TxEnv) (w : World) (r : ReqId) : Prop where
  ring : w.unit.tx.txRingPtr ≠ 0
  fits : txFrameLen (w.reqs r).dataLength ≤ ethMaxFrame
  block : e.buf ≠ 0

/-- The ways through the part before the lock, each with its outcome and its calls. -/
inductive TxWay (e : TxEnv) (w : World) (r : ReqId) : TxOutcome → List SysCall → Prop
  | unsized (err : IoError) (failed : err ≠ .ok)
      (exit : w.unit.tx.txRingPtr = 0 ∨ txFrameLen (w.reqs r).dataLength > ethMaxFrame) :
      TxWay e w r (.refused (w.reqs r) err s2werrGenericError) []
  | noBlock (fits : txFrameLen (w.reqs r).dataLength ≤ ethMaxFrame) (block : e.buf = 0) :
      TxWay e w r (.refused (w.reqs r) .noResources s2werrGenericError)
        [.allocVec (txFrameLen (w.reqs r).dataLength).toNat 0]
  | noHook (ready : TxReady e w r) :
      TxWay e w r (.refused (restoredRequest (w.reqs r)) .badArgument s2werrGenericError)
        [.allocVec (txFrameLen (w.reqs r).dataLength).toNat e.buf, .freeVec e.buf]
  | notCopied (ready : TxReady e w r) (op : Opener) :
      TxWay e w r (.refused (restoredRequest (w.reqs r)) .noResources s2werrBuffError)
        [.allocVec (txFrameLen (w.reqs r).dataLength).toNat e.buf,
          .callHook (copyFromBuff e op r (w.reqs r)), .freeVec e.buf]
  | notMapped (ready : TxReady e w r) (op : Opener) :
      TxWay e w r (.refused (restoredRequest (w.reqs r)) .txFailure s2werrGenericError)
        [.allocVec (txFrameLen (w.reqs r).dataLength).toNat e.buf,
          .callHook (copyFromBuff e op r (w.reqs r)),
          .startDma e.buf (txFrameLen (w.reqs r).dataLength).toNat 0, .freeVec e.buf]
  | notListed (ready : TxReady e w r) (op : Opener) (mapped : e.nentries ≠ 0) :
      TxWay e w r (.refused (restoredRequest (w.reqs r)) .noResources s2werrGenericError)
        [.allocVec (txFrameLen (w.reqs r).dataLength).toNat e.buf,
          .callHook (copyFromBuff e op r (w.reqs r)),
          .startDma e.buf (txFrameLen (w.reqs r).dataLength).toNat e.nentries,
          .endDma e.buf (txFrameLen (w.reqs r).dataLength).toNat, .freeVec e.buf]
  | built (ready : TxReady e w r) (op : Opener)
      (found : w.unit.findOpener (w.reqs r).bufferManagement = some op)
      (cookie : (w.reqs r).statData ≠ 0) (hook : op.s2hook ≠ 0) (copied : e.hookOk = true)
      (mapped : e.nentries ≠ 0) (listed : e.dlist = true) :
      TxWay e w r (.built (restoredRequest (w.reqs r)) (builtFrame e w r))
        [.allocVec (txFrameLen (w.reqs r).dataLength).toNat e.buf,
          .callHook (copyFromBuff e op r (w.reqs r)),
          .startDma e.buf (txFrameLen (w.reqs r).dataLength).toNat e.nentries]

theorem txWay (e : TxEnv) (w : World) (r : ReqId) : TxWay e w r (txBuild e w r) (txCalls e w r) := by
  simp only [txBuild, txCalls]
  split
  · rename_i ring
    exact .unsized _ (by decide) (.inl ring)
  · rename_i ring
    split
    · rename_i long
      exact .unsized _ (by decide) (.inr long)
    · rename_i fits
      split
      · rename_i block
        exact .noBlock (BitVec.not_lt.mp fits) block
      · rename_i block
        have ready : TxReady e w r := ⟨ring, BitVec.not_lt.mp fits, block⟩
        cases found : w.unit.findOpener (w.reqs r).bufferManagement with
        | none => exact .noHook ready
        | some op =>
            simp only
            split
            · exact .noHook ready
            · rename_i cookie
              rw [not_or] at cookie
              split
              · exact .notCopied ready op
              · rename_i copied
                split
                · exact .notMapped ready op
                · rename_i mapped
                  split
                  · exact .notListed ready op mapped
                  · rename_i listed
                    exact .built ready op found cookie.1 cookie.2 (by simpa using copied) mapped
                      (by simpa using listed)

theorem txBuild_request (e : TxEnv) (w : World) (r : ReqId) :
    (¬ TxReady e w r ∧ ∃ err, txBuild e w r = .refused (w.reqs r) err s2werrGenericError) ∨
      TxReady e w r ∧ (txBuild e w r).request = restoredRequest (w.reqs r) := by
  have way := txWay e w r
  generalize txBuild e w r = outcome, txCalls e w r = calls at way ⊢
  cases way with
  | unsized err failed exit =>
      refine .inl ⟨fun ready => ?_, err, rfl⟩
      rcases exit with ring | long
      · exact ready.ring ring
      · exact BitVec.not_lt.mpr ready.fits long
  | noBlock fits block => exact .inl ⟨fun ready => ready.block block, _, rfl⟩
  | noHook ready => exact .inr ⟨ready, rfl⟩
  | notCopied ready op => exact .inr ⟨ready, rfl⟩
  | notMapped ready op => exact .inr ⟨ready, rfl⟩
  | notListed ready op mapped => exact .inr ⟨ready, rfl⟩
  | built ready => exact .inr ⟨ready, rfl⟩

/-- A length over the MTU is refused before any system call, and a hook is given no more than the
block behind the header holds. -/
def TxLengthSafe (e : TxEnv) (w : World) (r : ReqId) : Prop :=
  ((w.reqs r).dataLength.toNat > 1500 →
    txBuild e w r = .refused (w.reqs r) .mtuExceeded s2werrGenericError ∧ txCalls e w r = []) ∧
  ∀ call, .callHook call ∈ txCalls e w r →
    ∃ size block, .allocVec size block ∈ txCalls e w r ∧
      call.msg.schmTo = block + ethHdrLen.toNat ∧
      ethHdrLen.toNat + call.msg.schmSize.toNat ≤ size

theorem txFrameLen_exact (payLen : BitVec 32) (fits : payLen.toNat + 14 < 2 ^ 32) :
    (txFrameLen payLen).toNat = max 60 (payLen.toNat + 14) := by
  have sum : (ethHdrLen + payLen).toNat = payLen.toNat + 14 := by
    simp only [BitVec.toNat_add, ethHdrLen, BitVec.toNat_ofNat]
    omega
  simp only [txFrameLen, BitVec.lt_def, sum, BitVec.toNat_ofNat]
  split
  · rename_i short
    simp only [BitVec.toNat_ofNat]
    omega
  · rename_i long
    rw [sum]
    omega

/-- A sum that wraps is short, and is padded to the minimum. -/
theorem txFrameLen_wrapped (payLen : BitVec 32) (wraps : 2 ^ 32 ≤ payLen.toNat + 14) :
    txFrameLen payLen = 60#32 := by
  have small := payLen.isLt
  have sum : (ethHdrLen + payLen).toNat = payLen.toNat + 14 - 2 ^ 32 := by
    simp only [BitVec.toNat_add, ethHdrLen, BitVec.toNat_ofNat]
    omega
  have short : ethHdrLen + payLen < 60#32 := by
    simp only [BitVec.lt_def, sum, BitVec.toNat_ofNat]
    omega
  rw [txFrameLen, if_pos short]

theorem txCalls_hook (e : TxEnv) (w : World) (r : ReqId) (call : HookCall)
    (called : .callHook call ∈ txCalls e w r) :
    (txFrameLen (w.reqs r).dataLength ≤ ethMaxFrame) ∧
      (∃ op, call = copyFromBuff e op r (w.reqs r)) ∧
      .allocVec (txFrameLen (w.reqs r).dataLength).toNat e.buf ∈ txCalls e w r := by
  have way := txWay e w r
  generalize txBuild e w r = outcome, txCalls e w r = calls at way called ⊢
  cases way with
  | unsized => cases called
  | noBlock => simp at called
  | noHook => simp at called
  | notCopied ready op =>
      exact ⟨ready.fits, ⟨op, by simpa using called⟩, List.mem_cons_self⟩
  | notMapped ready op =>
      exact ⟨ready.fits, ⟨op, by simpa using called⟩, List.mem_cons_self⟩
  | notListed ready op =>
      exact ⟨ready.fits, ⟨op, by simpa using called⟩, List.mem_cons_self⟩
  | built ready op =>
      exact ⟨ready.fits, ⟨op, by simpa using called⟩, List.mem_cons_self⟩

theorem wrapped_unsafe (e : TxEnv) (w : World) (r : ReqId) (ring : w.unit.tx.txRingPtr ≠ 0)
    (wraps : 2 ^ 32 ≤ (w.reqs r).dataLength.toNat + 14) : ¬ TxLengthSafe e w r := by
  rintro ⟨refused, _⟩
  have padded := txFrameLen_wrapped (w.reqs r).dataLength wraps
  have none := (refused (by omega)).2
  have within : ¬ (60#32 > ethMaxFrame) := by decide
  simp only [txCalls, if_neg ring, padded, if_neg within] at none
  split at none <;> cases none

/-- The lengths are safe exactly when header and data together fit 32 bits. -/
theorem tx_length_safe_iff (e : TxEnv) (w : World) (r : ReqId)
    (ring : w.unit.tx.txRingPtr ≠ 0) :
    TxLengthSafe e w r ↔ (w.reqs r).dataLength.toNat + 14 < 2 ^ 32 := by
  constructor
  · intro safe
    by_contra wraps
    exact wrapped_unsafe e w r ring (by omega) safe
  · intro fits
    have exact := txFrameLen_exact (w.reqs r).dataLength fits
    have bound : ethMaxFrame.toNat = 1514 := rfl
    have header : ethHdrLen.toNat = 14 := rfl
    refine ⟨fun exceeds => ?_, fun call called => ?_⟩
    · have large : txFrameLen (w.reqs r).dataLength > ethMaxFrame := by
        simp only [gt_iff_lt, BitVec.lt_def, exact, bound]
        omega
      simp only [txBuild, txCalls, if_neg ring, if_pos large, and_self]
    · obtain ⟨_, ⟨op, rfl⟩, allocated⟩ := txCalls_hook e w r call called
      refine ⟨_, _, allocated, rfl, ?_⟩
      simp only [copyFromBuff, exact, header]
      omega

def hookedDriver : Driver :=
  { openedDriver with
    world :=
      { openedDriver.world with
        unit := { openedDriver.world.unit with openerList := [⟨0x77, 0x500⟩] }
        reqs := fun _ => { request .cmdWrite 0x0800#32 0x2000 0#32 with statData := 0x2000 } } }

/-- `hookedDriver` with a request of this length. -/
def lengthWorld (len : BitVec 32) : World :=
  { hookedDriver.world with
    reqs := fun r => { hookedDriver.world.reqs r with dataLength := len } }

theorem tx_length_safe_mtu : (lengthWorld 1500#32).unit.tx.txRingPtr ≠ 0 ∧
    TxLengthSafe callEnv.tx (lengthWorld 1500#32) 1 :=
  ⟨by decide, (tx_length_safe_iff callEnv.tx (lengthWorld 1500#32) 1 (by decide)).mpr (by decide)⟩

/-- A length near the end of the range is taken for a short frame: the block has 60 bytes, and
the hook is called with all of the length. -/
theorem tx_length_overflows :
    (lengthWorld 0xFFFFFFFF#32).unit.tx.txRingPtr ≠ 0 ∧
      ¬ TxLengthSafe callEnv.tx (lengthWorld 0xFFFFFFFF#32) 1 ∧
      ∃ call, .allocVec 60 0xA00 ∈ txCalls callEnv.tx (lengthWorld 0xFFFFFFFF#32) 1 ∧
        .callHook call ∈ txCalls callEnv.tx (lengthWorld 0xFFFFFFFF#32) 1 ∧
        call.msg.schmSize = 0xFFFFFFFF#32 :=
  ⟨by decide, wrapped_unsafe callEnv.tx (lengthWorld 0xFFFFFFFF#32) 1 (by decide) (by decide),
    copyFromBuff callEnv.tx ⟨0x77, 0x500⟩ 1 ((lengthWorld 0xFFFFFFFF#32).reqs 1),
    by decide, by decide, rfl⟩

end Pa6tEth

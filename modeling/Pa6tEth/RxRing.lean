import Pa6tEth.Regs
import Pa6tEth.Sana2
import Mathlib.Logic.Function.Basic

/-! The receive rings of `PA6TEthUnit` and the ring side of `PA6TEth_ProcessRX`. -/

namespace Pa6tEth

open Support

/-- The receive fields of `PA6TEthUnit`. A ring pointer is kept beside the ring it points to. -/
structure UnitRx where
  rxRingPtr : Addr
  rxRing : Ring rxRingSize Word
  rxNextClean : Nat
  rxBufRingPtr : Addr
  rxBufRing : Ring rxBufRingSize Word
  rxBufWritePtr : Nat
  rxSlotBuf : Nat → Nat
  rxBufs : Nat → Addr
  rxBufsPhys : Nat → BitVec 32
  rxBufsDmaEntries : Nat → Nat
  statRx : BitVec 32
  statRxDropped : BitVec 32

/-- The locals of `PA6TEth_ProcessRX`; `n` is not masked inside the loop. -/
structure RxLoop where
  n : Nat
  count : Nat
  replenish : Nat
  deriving DecidableEq, Repr

/-- One owned completion, with the slot and the buffer its eval word leads to. -/
structure RxGroup where
  macrx : Word
  evalWord : Word
  ptrWord : Word
  ringSlot : Nat
  actualBuf : Nat
  deriving DecidableEq, Repr

def enterRing (u : UnitRx) : RxLoop := ⟨u.rxNextClean, 0, 0⟩

/-- The head of the loop. Without the O bit the loop breaks; `rxRingSize` and `numRxBufs` are
the sentinels for no slot and no buffer. -/
def fetchGroup (u : UnitRx) (n : Nat) : Option RxGroup :=
  if owned (u.rxRing.get n) then
    let eval := evalOf (u.rxRing.get (n + 1))
    let ringSlot := if eval > 0 then eval - 1 else rxRingSize
    let actualBuf := if ringSlot < rxRingSize then u.rxSlotBuf ringSlot else numRxBufs
    some ⟨u.rxRing.get n, u.rxRing.get (n + 1), u.rxRing.get (n + 2), ringSlot, actualBuf⟩
  else none

inductive RxDrop
  | crcError
  | badRingSlot
  | badActualBuf
  | tooShort
  | truncated
  | splitFrame
  deriving DecidableEq, Repr

/-- The checks of one completion, in the source's order; the length leaves out the FCS. -/
def checkGroup (u : UnitRx) (g : RxGroup) : Except RxDrop (BitVec 32) :=
  if g.macrx &&& xctMacrxCrc ≠ 0#64 then .error .crcError
  else if rxRingSize ≤ g.ringSlot then .error .badRingSlot
  else if numRxBufs ≤ g.actualBuf ∨ u.rxBufs g.actualBuf = 0 then .error .badActualBuf
  else if llenOf g.macrx < 4#32 then .error .tooShort
  else if llenOf g.macrx - 4#32 < ethHdrLen then .error .truncated
  else if ptrPhys g.ptrWord ≠ u.rxBufsPhys g.actualBuf then .error .splitFrame
  else .ok (llenOf g.macrx - 4#32)

/-- The `next_desc` label: every path of the loop body ends here. -/
def nextDesc (u : UnitRx) (v : RxLoop) (g : RxGroup) : UnitRx × RxLoop :=
  let cleared :=
    { u with
      rxRing := (((u.rxRing.set v.n 0#64).set (v.n + 1) 0#64).set (v.n + 2) 0#64).set (v.n + 3) 0#64
      rxBufRing :=
        if g.ringSlot < rxRingSize then u.rxBufRing.set g.ringSlot 0#64 else u.rxBufRing }
  if g.actualBuf < numRxBufs then
    let wp := u.rxBufWritePtr
    ({ cleared with
        rxBufRing := cleared.rxBufRing.set wp (rxbWord (u.rxBufsPhys g.actualBuf))
        rxSlotBuf := Function.update u.rxSlotBuf wp (g.actualBuf % 65536)
        rxBufWritePtr := (wp + 1) % rxBufRingSize },
      ⟨v.n + 4, v.count + 1, v.replenish + 1⟩)
  else (cleared, ⟨v.n + 4, v.count + 1, v.replenish⟩)

/-- After the loop: the cursor is reduced, and the engine gets its credits back. -/
def leaveRing (ch : Channels) (u : UnitRx) (v : RxLoop) : UnitRx × List RegWrite :=
  ({ u with rxNextClean := if v.n ≥ rxRingSize then v.n % rxRingSize else v.n },
    if v.count > 0 then
      [⟨.iobPkthdrcnt, 0#32⟩,
       ⟨.rxchanIncr ch.rxChannelNum, BitVec.ofNat 32 (v.count * 2)⟩,
       ⟨.rxintIncr ch.dmaIf, BitVec.ofNat 32 v.replenish⟩]
    else [])

/-- What the delivery code reads from a checked completion and its buffer. -/
structure RxFrame where
  macrx : Word
  ethFrame : Addr
  etherType : BitVec 16
  payload : Addr
  payLen : BitVec 32
  deriving DecidableEq, Repr

def frameOf (mem : Addr → UInt8) (u : UnitRx) (g : RxGroup) (frameLen : BitVec 32) : RxFrame :=
  let ethFrame := u.rxBufs g.actualBuf
  { macrx := g.macrx
    ethFrame := ethFrame
    etherType := ((mem (ethFrame + 12)).toBitVec.setWidth 16 <<< 8) |||
      (mem (ethFrame + 13)).toBitVec.setWidth 16
    payload := ethFrame + ethHdrLen.toNat
    payLen := frameLen - ethHdrLen }

theorem nextDesc_rxRing (u : UnitRx) (v : RxLoop) (g : RxGroup) :
    (nextDesc u v g).1.rxRing =
      (((u.rxRing.set v.n 0#64).set (v.n + 1) 0#64).set (v.n + 2) 0#64).set (v.n + 3) 0#64 := by
  simp only [nextDesc]
  split <;> rfl

theorem nextDesc_get (u : UnitRx) (v : RxLoop) (g : RxGroup) (slot : Nat) :
    (nextDesc u v g).1.rxRing.get slot =
      if slot % 2048 = (v.n + 3) % 2048 ∨ slot % 2048 = (v.n + 2) % 2048 ∨
          slot % 2048 = (v.n + 1) % 2048 ∨ slot % 2048 = v.n % 2048 then 0#64
      else u.rxRing.get slot := by
  simp only [nextDesc_rxRing, Ring.get_set]
  split_ifs <;> simp_all

theorem nextDesc_rxBufs (u : UnitRx) (v : RxLoop) (g : RxGroup) :
    (nextDesc u v g).1.rxBufs = u.rxBufs ∧ (nextDesc u v g).1.rxBufsPhys = u.rxBufsPhys := by
  simp only [nextDesc]
  split <;> exact ⟨rfl, rfl⟩

theorem nextDesc_n (u : UnitRx) (v : RxLoop) (g : RxGroup) :
    (nextDesc u v g).2.n = v.n + 4 ∧ (nextDesc u v g).2.count = v.count + 1 := by
  simp only [nextDesc]
  split <;> exact ⟨rfl, rfl⟩

theorem fetchGroup_none (u : UnitRx) (n : Nat) :
    fetchGroup u n = none ↔ owned (u.rxRing.get n) = false := by
  simp only [fetchGroup]
  split <;> simp_all

theorem fetchGroup_owned (u : UnitRx) (n : Nat) (g : RxGroup) (fetched : fetchGroup u n = some g) :
    owned (u.rxRing.get n) = true := by
  by_contra idle
  rw [(fetchGroup_none u n).mpr (by simpa using idle)] at fetched
  cases fetched

end Pa6tEth

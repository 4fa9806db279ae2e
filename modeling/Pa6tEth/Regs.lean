import Pa6tEth.Support.BitField
import Pa6tEth.Support.Ring
import Mathlib.Tactic.NormNum

/-! Ring sizes, descriptor bit fields and register writes of the GMAC and its DMA engine. -/

namespace Pa6tEth

open Support

abbrev Word := BitVec 64

abbrev txRingSize : Nat := 256
abbrev rxRingSize : Nat := 2048
abbrev rxBufRingSize : Nat := rxRingSize
abbrev numRxBufs : Nat := 512
abbrev rxBufSize : Nat := 2048

instance txRingSize_neZero : NeZero txRingSize := ⟨by decide⟩
instance rxRingSize_neZero : NeZero rxRingSize := ⟨by decide⟩

def ethAddrLen : Nat := 6
def ethHdrLen : BitVec 32 := 14#32
def ethMaxFrame : BitVec 32 := 1514#32

def xctMacrxO : Word := 0x0400000000000000#64
def xctMacrxLlenM : Word := 0x00003fff00000000#64
def xctMacrxLlenS : Nat := 32
def xctMacrxCrc : Word := 0x0000000080000000#64
def xctMacrxCastM : Word := 0x0000000018000000#64
def xctMacrxCastMulti : Word := 0x0000000008000000#64
def xctMacrxCastBroad : Word := 0x0000000010000000#64

def xctRxres8bEvalM : Word := 0x000000ffff000000#64
def xctRxres8bEvalS : Nat := 24

def xctPtrAddrM : Word := 0x00000fffffffffff#64

def xctRxbLenM : Word := 0x0ffff00000000000#64
def xctRxbLen (x : BitVec 32) : Word := (x.setWidth 64 <<< 44) &&& xctRxbLenM
def xctRxbAddrM : Word := 0x00000fffffffffff#64
def xctRxbAddr (x : BitVec 32) : Word := (x.setWidth 64 <<< 0) &&& xctRxbAddrM

def xctMactxO : Word := 0x0400000000000000#64
def xctMactxSt : Word := 0x4000000000000000#64
def xctMactxCrcPad : Word := 0x0040000000000000#64
def xctMactxLlenM : Word := 0x00007fff00000000#64
def xctMactxLlen (x : BitVec 32) : Word := (x.setWidth 64 <<< 32) &&& xctMactxLlenM
def xctPtrLenM : Word := 0x7ffff00000000000#64
def xctPtrLen (x : BitVec 32) : Word := (x.setWidth 64 <<< 44) &&& xctPtrLenM
def xctPtrAddr (x : BitVec 32) : Word := (x.setWidth 64 <<< 0) &&& xctPtrAddrM

/-- The word that posts the buffer at a physical address. -/
def rxbWord (phys : BitVec 32) : Word :=
  xctRxbLen (BitVec.ofNat 32 rxBufSize) ||| xctRxbAddr phys

def owned (macrx : Word) : Bool := macrx &&& xctMacrxO ≠ 0#64

def evalOf (evalWord : Word) : Nat :=
  (((evalWord &&& xctRxres8bEvalM) >>> xctRxres8bEvalS).setWidth 32).toNat

/-- `(uint32)(ptr_word & XCT_PTR_ADDR_M)`. -/
def ptrPhys (ptrWord : Word) : BitVec 32 := (ptrWord &&& xctPtrAddrM).setWidth 32

def llenOf (macrx : Word) : BitVec 32 :=
  ((macrx &&& xctMacrxLlenM) >>> xctMacrxLlenS).setWidth 32

theorem owned_zero : owned 0#64 = false := by decide

theorem rxbAddr_field : FieldMask xctRxbAddrM 0 44 := by
  norm_num [FieldMask, xctRxbAddrM]

theorem rxbWord_toNat (phys : BitVec 32) :
    (rxbWord phys).toNat = 2048 * 2 ^ 44 + phys.toNat := by
  have small := phys.isLt
  have length : (xctRxbLen (BitVec.ofNat 32 rxBufSize)).toNat = 2048 * 2 ^ 44 := by decide
  have address := put_field phys xctRxbAddrM 0 44 rxbAddr_field (by omega) (by decide)
  rw [Nat.pow_zero, Nat.mul_one] at address
  rw [rxbWord, xctRxbAddr, or_fields _ _ 2048 44 length (by rw [address]; omega), address]

theorem rxbWord_addr (phys : BitVec 32) :
    (rxbWord phys &&& xctRxbAddrM).setWidth 32 = phys := by
  have small := phys.isLt
  have read := get_field (rxbWord phys) xctRxbAddrM 0 44 rxbAddr_field
  rw [BitVec.ushiftRight_zero, rxbWord_toNat] at read
  apply BitVec.eq_of_toNat_eq
  rw [BitVec.toNat_setWidth, read]
  omega

theorem rxbWord_present (phys : BitVec 32) : rxbWord phys ≠ 0#64 := by
  intro zero
  have value := rxbWord_toNat phys
  rw [zero, BitVec.toNat_zero] at value
  omega

theorem ptrPhys_of_field (ptrWord posted : Word)
    (same : ptrWord &&& xctPtrAddrM = posted &&& xctRxbAddrM) :
    ptrPhys ptrWord = (posted &&& xctRxbAddrM).setWidth 32 := by
  rw [ptrPhys, same]

inductive Reg
  | rxintCfg (intf : Nat)
  | rxintRcmdsta (intf : Nat)
  | rxintIncr (intf : Nat)
  | rxintBasel (intf : Nat)
  | rxchanCcmdsta (chan : Nat)
  | rxchanIncr (chan : Nat)
  | rxchanBasel (chan : Nat)
  | comTxcmd
  | txchanTcmdsta (chan : Nat)
  | txchanIncr (chan : Nat)
  | macPciCommand
  | dmaPciCommand
  | macPcfg
  | iobTimeoutcfg
  | iobRxchCfg (chan : Nat)
  | iobTxchCfg (chan : Nat)
  | iobTxchReset (chan : Nat)
  | iobRxchReset (chan : Nat)
  | iobPkthdrcnt
  deriving DecidableEq, Repr

structure RegWrite where
  reg : Reg
  value : BitVec 32
  deriving DecidableEq, Repr

/-- The channel numbers and the interface number that `PA6TEthBase` holds. -/
structure Channels where
  dmaIf : Nat
  txChannelNum : Nat
  rxChannelNum : Nat
  deriving DecidableEq, Repr

end Pa6tEth

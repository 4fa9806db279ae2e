import Pa6tEth.TxEngine
import Pa6tEth.Support.BitField

/-! What the engine reads from a descriptor pair of `PA6TEth_TransmitPacket`. -/

namespace Pa6tEth

open Support

def mactxLlenOf (word : Word) : Nat := ((word &&& xctMactxLlenM) >>> 32).toNat

def ptrLenOf (word : Word) : Nat := ((word &&& xctPtrLenM) >>> 44).toNat

def ptrAddrOf (word : Word) : Nat := ((word &&& xctPtrAddrM) >>> 0).toNat

def mactxBits : Word := xctMactxO ||| xctMactxSt ||| xctMactxCrcPad ||| xctMactxLlenM

def ptrBits : Word := xctPtrLenM ||| xctPtrAddrM

theorem llen_field : FieldMask xctMactxLlenM 32 15 := by
  norm_num [FieldMask, xctMactxLlenM]

theorem ptrLen_field : FieldMask xctPtrLenM 44 19 := by
  norm_num [FieldMask, xctPtrLenM]

theorem ptrAddr_field : FieldMask xctPtrAddrM 0 44 := by
  norm_num [FieldMask, xctPtrAddrM]

theorem mactx_toNat (f : TxFrame) (fits : f.frameLen.toNat < 2 ^ 15) :
    (txDesc f).1.toNat = 0x111 * 2 ^ 54 + f.frameLen.toNat * 2 ^ 32 := by
  have length := put_field f.frameLen xctMactxLlenM 32 15 llen_field fits (by decide)
  have flags : (xctMactxO ||| xctMactxSt ||| xctMactxCrcPad).toNat = 0x111 * 2 ^ 54 := by decide
  rw [txDesc, xctMactxLlen, or_fields _ _ 0x111 54 flags (by rw [length]; omega), length]

theorem ptr_toNat (f : TxFrame) (fits : f.frameLen.toNat < 2 ^ 19) :
    (txDesc f).2.toNat = f.frameLen.toNat * 2 ^ 44 + f.phys.toNat := by
  have small := f.phys.isLt
  have length := put_field f.frameLen xctPtrLenM 44 19 ptrLen_field fits (by decide)
  have address := put_field f.phys xctPtrAddrM 0 44 ptrAddr_field (by omega) (by decide)
  rw [Nat.pow_zero, Nat.mul_one] at address
  rw [txDesc, xctPtrLen, xctPtrAddr, or_fields _ _ _ 44 length (by rw [address]; omega), address]

theorem mactx_llen (f : TxFrame) (fits : f.frameLen.toNat < 2 ^ 15) :
    mactxLlenOf (txDesc f).1 = f.frameLen.toNat := by
  rw [mactxLlenOf, get_field _ _ 32 15 llen_field, mactx_toNat f fits]
  omega

theorem ptr_len (f : TxFrame) (fits : f.frameLen.toNat < 2 ^ 19) :
    ptrLenOf (txDesc f).2 = f.frameLen.toNat := by
  have small := f.phys.isLt
  rw [ptrLenOf, get_field _ _ 44 19 ptrLen_field, ptr_toNat f fits]
  omega

theorem ptr_addr (f : TxFrame) (fits : f.frameLen.toNat < 2 ^ 19) :
    ptrAddrOf (txDesc f).2 = f.phys.toNat := by
  have small := f.phys.isLt
  rw [ptrAddrOf, get_field _ _ 0 44 ptrAddr_field, ptr_toNat f fits]
  omega

theorem mactx_flags (f : TxFrame) :
    (txDesc f).1 &&& xctMactxO = xctMactxO ∧ (txDesc f).1 &&& xctMactxSt = xctMactxSt ∧
      (txDesc f).1 &&& xctMactxCrcPad = xctMactxCrcPad := by
  simp only [txDesc]
  refine ⟨?_, ?_, ?_⟩ <;>
    · apply BitVec.eq_of_getLsbD_eq
      intro i _
      simp only [BitVec.getLsbD_and, BitVec.getLsbD_or]
      grind

theorem mactx_bits (f : TxFrame) : (txDesc f).1 &&& ~~~mactxBits = 0#64 := by
  apply BitVec.eq_of_getLsbD_eq
  intro i inside
  simp only [txDesc, mactxBits, xctMactxLlen, BitVec.getLsbD_and, BitVec.getLsbD_or,
    BitVec.getLsbD_not, inside, decide_true, Bool.true_and, BitVec.getLsbD_zero]
  grind

theorem ptr_bits (f : TxFrame) : (txDesc f).2 &&& ~~~ptrBits = 0#64 := by
  apply BitVec.eq_of_getLsbD_eq
  intro i inside
  simp only [txDesc, ptrBits, xctPtrLen, xctPtrAddr, BitVec.getLsbD_and, BitVec.getLsbD_or,
    BitVec.getLsbD_not, inside, decide_true, Bool.true_and, BitVec.getLsbD_zero]
  grind

theorem txSubmit_pair (ch : Channels) (u : UnitTx) (f : TxFrame) :
    (txSubmit ch u f).1.txRing.get u.txNextFill = (txDesc f).1 ∧
      (txSubmit ch u f).1.txRing.get (u.txNextFill + 1) = (txDesc f).2 := by
  simp only [txSubmit, txCleanupPending, txDesc]
  split <;> simp [Ring.get_set, txRingSize] <;> omega

end Pa6tEth

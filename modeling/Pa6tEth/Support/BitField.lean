import Mathlib.Data.Nat.Bitwise

/-! Bit fields of machine words: a value shifted into its place under a mask, and back. -/

namespace Support

variable {wordSize valueSize : Nat}

/-- The mask of a field: `width` ones from bit `shift` on. -/
def FieldMask (mask : BitVec wordSize) (shift width : Nat) : Prop :=
  mask.toNat = (2 ^ width - 1) * 2 ^ shift

theorem and_field (value shift width : Nat) :
    (value * 2 ^ shift) &&& ((2 ^ width - 1) * 2 ^ shift) = value % 2 ^ width * 2 ^ shift := by
  simp only [← Nat.shiftLeft_eq]
  rw [← Nat.shiftLeft_and_distrib, Nat.and_two_pow_sub_one_eq_mod]

theorem put_field (value : BitVec valueSize) (mask : BitVec wordSize) (shift width : Nat)
    (field : FieldMask mask shift width) (fits : value.toNat < 2 ^ width)
    (room : width + shift ≤ wordSize) :
    ((value.setWidth wordSize <<< shift) &&& mask).toNat = value.toNat * 2 ^ shift := by
  have placed : value.toNat * 2 ^ shift < 2 ^ wordSize := by
    calc
      value.toNat * 2 ^ shift < 2 ^ width * 2 ^ shift :=
        Nat.mul_lt_mul_of_pos_right fits (Nat.two_pow_pos shift)
      _ = 2 ^ (width + shift) := (Nat.pow_add 2 width shift).symm
      _ ≤ 2 ^ wordSize := Nat.pow_le_pow_right (by decide) room
  have whole : value.toNat < 2 ^ wordSize :=
    Nat.lt_of_le_of_lt (Nat.le_mul_of_pos_right _ (Nat.two_pow_pos shift)) placed
  rw [BitVec.toNat_and, BitVec.toNat_shiftLeft, BitVec.toNat_setWidth, Nat.mod_eq_of_lt whole,
    Nat.shiftLeft_eq, Nat.mod_eq_of_lt placed, field, and_field, Nat.mod_eq_of_lt fits]

theorem get_field (word mask : BitVec wordSize) (shift width : Nat)
    (field : FieldMask mask shift width) :
    ((word &&& mask) >>> shift).toNat = word.toNat / 2 ^ shift % 2 ^ width := by
  rw [BitVec.toNat_ushiftRight, BitVec.toNat_and, field, Nat.shiftRight_and_distrib,
    Nat.shiftRight_eq_div_pow, Nat.shiftRight_eq_div_pow,
    Nat.mul_div_cancel _ (Nat.two_pow_pos shift), Nat.and_two_pow_sub_one_eq_mod]

theorem or_fields (high low : BitVec wordSize) (value shift : Nat)
    (placed : high.toNat = value * 2 ^ shift) (below : low.toNat < 2 ^ shift) :
    (high ||| low).toNat = value * 2 ^ shift + low.toNat := by
  rw [BitVec.toNat_or, placed, Nat.mul_comm, Nat.two_pow_add_eq_or_of_lt below]

end Support

import Mathlib.Logic.Function.Basic

/-! Registers that hold what was last written to them, and the logs of accesses that fit them. -/

namespace Support

inductive RegAccess (Reg Value : Type)
  | read (reg : Reg) (value : Value)
  | write (reg : Reg) (value : Value)
  deriving DecidableEq, Repr

section Registers

variable {Reg Value : Type} [DecidableEq Reg]

def fileAfter (file : Reg → Value) : List (RegAccess Reg Value) → Reg → Value
  | [] => file
  | .read _ _ :: rest => fileAfter file rest
  | .write reg value :: rest => fileAfter (Function.update file reg value) rest

/-- Every read of the log finds what its register then holds. -/
def Replays (file : Reg → Value) : List (RegAccess Reg Value) → Prop
  | [] => True
  | .read reg value :: rest => file reg = value ∧ Replays file rest
  | .write reg value :: rest => Replays (Function.update file reg value) rest

theorem fileAfter_append (file : Reg → Value) (front back : List (RegAccess Reg Value)) :
    fileAfter file (front ++ back) = fileAfter (fileAfter file front) back := by
  induction front generalizing file with
  | nil => rfl
  | cons access rest ih =>
      cases access with
      | read reg value => exact ih file
      | write reg value => exact ih (Function.update file reg value)

end Registers

section ReadModifyWrite

variable {width : Nat}

theorem outside_mask (old value mask : BitVec width)
    (inside : value &&& ~~~mask = BitVec.ofNat width 0) :
    (old &&& ~~~mask ||| value) &&& ~~~mask = old &&& ~~~mask := by
  rw [BitVec.and_or_distrib_right, inside, BitVec.or_zero, BitVec.and_assoc, BitVec.and_self]

theorem same_mask (old value mask : BitVec width) (same : value = old &&& mask) :
    old &&& ~~~mask ||| value = old := by
  rw [same, ← BitVec.and_or_distrib_left, BitVec.or_comm, BitVec.or_not_self, BitVec.and_allOnes]

end ReadModifyWrite

end Support

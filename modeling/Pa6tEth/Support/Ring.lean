import Mathlib.Algebra.GroupWithZero.Nat
import Mathlib.Data.Fin.Basic
import Mathlib.Data.Fintype.Card

/-! Fixed-size circular arrays whose index is reduced modulo their size. -/

namespace Support

/-- A ring has a value in each of its slots; a slot outside it cannot be named. -/
def Ring (size : Nat) (Value : Type) : Type := Fin size → Value

namespace Ring

variable {size : Nat} [NeZero size] {Value : Type}

def get (ring : Ring size Value) (index : Nat) : Value := ring (Fin.ofNat size index)

def set (ring : Ring size Value) (index : Nat) (value : Value) : Ring size Value :=
  fun slot => if slot = Fin.ofNat size index then value else ring slot

def fill (size : Nat) (value : Value) : Ring size Value := fun _ => value

@[simp] theorem get_fill (value : Value) (index : Nat) :
    (fill size value).get index = value := rfl

theorem get_set (ring : Ring size Value) (index other : Nat) (value : Value) :
    (ring.set index value).get other =
      if other % size = index % size then value else ring.get other := by
  simp only [get, set, Fin.ext_iff, Fin.val_ofNat]

@[simp] theorem get_set_same (ring : Ring size Value) (index : Nat) (value : Value) :
    (ring.set index value).get index = value := by
  rw [get_set, if_pos rfl]

theorem get_set_other (ring : Ring size Value) (index other : Nat) (value : Value)
    (apart : other % size ≠ index % size) :
    (ring.set index value).get other = ring.get other := by
  rw [get_set, if_neg apart]

theorem get_congr (ring : Ring size Value) (index other : Nat)
    (same : index % size = other % size) : ring.get index = ring.get other := by
  simp only [get]
  congr 1
  exact Fin.ext (by simpa only [Fin.val_ofNat] using same)

def count (picked : Value → Bool) (ring : Ring size Value) : Nat :=
  (Finset.univ.filter fun slot => picked (ring slot) = true).card

omit [NeZero size] in
theorem count_size (picked : Value → Bool) (ring : Ring size Value) : ring.count picked ≤ size := by
  calc
    ring.count picked ≤ (Finset.univ : Finset (Fin size)).card := Finset.card_filter_le _ _
    _ = size := Finset.card_fin size

theorem count_le (picked : Value → Bool) (ring other : Ring size Value)
    (fewer : ∀ index, picked (other.get index) = true → picked (ring.get index) = true) :
    other.count picked ≤ ring.count picked := by
  apply Finset.card_le_card
  intro slot member
  have held := fewer slot
  simp only [get, Fin.ofNat_val_eq_self] at held
  simpa using held (by simpa using member)

theorem count_lt (picked : Value → Bool) (ring other : Ring size Value) (index : Nat)
    (fewer : ∀ index, picked (other.get index) = true → picked (ring.get index) = true)
    (had : picked (ring.get index) = true) (gone : picked (other.get index) = false) :
    other.count picked < ring.count picked := by
  apply Finset.card_lt_card
  rw [Finset.ssubset_iff_of_subset]
  · refine ⟨Fin.ofNat size index, by simpa [get] using had, ?_⟩
    simpa [get] using gone
  · intro slot member
    have held := fewer slot
    simp only [get, Fin.ofNat_val_eq_self] at held
    simpa using held (by simpa using member)

end Ring

/-- The slots from `first` up to, and without, `last`, going round. -/
def InWindow (size first last slot : Nat) : Prop :=
  (slot + size - first % size) % size < (last + size - first % size) % size

instance (size first last slot : Nat) : Decidable (InWindow size first last slot) :=
  inferInstanceAs (Decidable (_ < _))

end Support

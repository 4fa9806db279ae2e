import Mathlib.Algebra.GroupWithZero.Nat
import Mathlib.Data.List.Basic

/-! A block of memory laid out over several segments, and when one range describes it. -/

namespace Support

structure Segment where
  base : Nat
  length : Nat
  deriving DecidableEq, Repr

namespace Segment

/-- The address of byte `i` of the block. -/
def byteAt : List Segment → Nat → Option Nat
  | [], _ => none
  | s :: rest, i => if i < s.length then some (s.base + i) else byteAt rest (i - s.length)

/-- As long as bytes are left, each segment begins where the one before it ends. -/
def seamless (next left : Nat) : List Segment → Bool
  | [] => true
  | s :: rest =>
      decide (left = 0) || decide (s.base = next) && seamless (next + s.length) (left - s.length) rest

/-- One range describes the first `left` bytes exactly when their segments have no seam. -/
theorem byteAt_iff (segments : List Segment) (next left : Nat)
    (nonempty : ∀ s ∈ segments, 0 < s.length)
    (whole : left ≤ (segments.map length).sum) :
    (∀ i < left, byteAt segments i = some (next + i)) ↔ seamless next left segments = true := by
  induction segments generalizing next left with
  | nil =>
      have idle : left = 0 := by simpa using whole
      simp [idle, seamless]
  | cons s rest ih =>
      have later := ih (next + s.length) (left - s.length)
        (fun s' member => nonempty s' (List.mem_cons_of_mem s member))
        (by simp only [List.map_cons, List.sum_cons] at whole; omega)
      have positive := nonempty s List.mem_cons_self
      simp only [seamless, Bool.or_eq_true, Bool.and_eq_true, decide_eq_true_eq, ← later]
      constructor
      · intro covers
        by_cases empty : left = 0
        · exact .inl empty
        · have first := covers 0 (by omega)
          simp only [byteAt, if_pos positive, Nat.add_zero, Option.some.injEq] at first
          refine .inr ⟨first, fun i inside => ?_⟩
          have beyond := covers (s.length + i) (by omega)
          rw [byteAt, if_neg (by omega), Nat.add_sub_cancel_left] at beyond
          rw [beyond, Nat.add_assoc]
      · rintro (empty | ⟨first, covers⟩) i inside
        · omega
        · by_cases here : i < s.length
          · rw [byteAt, if_pos here, first]
          · rw [byteAt, if_neg here, covers (i - s.length) (by omega)]
            congr 1
            omega

end Segment

end Support

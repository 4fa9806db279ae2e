import Mathlib.Data.List.Basic

/-! Event logs in which an event may need an earlier one, and loops that poll with a bound. -/

namespace Support

section Permitting

variable {Event : Type}

/-- Every event of the log is permitted by what came before it. -/
def Permitted (permits : List Event → Event → Prop) (past : List Event) : List Event → Prop
  | [] => True
  | event :: rest => permits past event ∧ Permitted permits (past ++ [event]) rest

variable (permits : List Event → Event → Prop)

theorem permitted_append (past front back : List Event) :
    Permitted permits past (front ++ back) ↔
      Permitted permits past front ∧ Permitted permits (past ++ front) back := by
  induction front generalizing past with
  | nil => simp [Permitted]
  | cons event rest ih =>
      simp only [List.cons_append, Permitted, ih, List.append_assoc, List.nil_append, and_assoc]

theorem permitted_always (past log : List Event)
    (always : ∀ event ∈ log, ∀ more, permits (past ++ more) event) : Permitted permits past log := by
  induction log generalizing past with
  | nil => trivial
  | cons event rest ih =>
      refine ⟨by simpa using always event List.mem_cons_self [], ih (past ++ [event]) ?_⟩
      intro later member more
      rw [List.append_assoc]
      exact always later (List.mem_cons_of_mem event member) ([event] ++ more)

theorem permitted_here (past before after : List Event) (event : Event)
    (permitted : Permitted permits past (before ++ event :: after)) :
    permits (past ++ before) event :=
  ((permitted_append permits past before (event :: after)).mp permitted).2.1

end Permitting

section Polling

variable {Value : Type}

/-- A loop that reads until a value is idle, at most `left` times from read number `k` on: what it
reads, and whether it saw an idle value. -/
def polls (idle : Value → Bool) (poll : Nat → Value) : Nat → Nat → List Value × Bool
  | 0, _ => ([], false)
  | left + 1, k =>
      if idle (poll k) then ([poll k], true)
      else (poll k :: (polls idle poll left (k + 1)).1, (polls idle poll left (k + 1)).2)

theorem polls_seen (idle : Value → Bool) (poll : Nat → Value) (left k : Nat) :
    (polls idle poll left k).2 = true ↔ ∃ value ∈ (polls idle poll left k).1, idle value = true := by
  induction left generalizing k with
  | zero => simp [polls]
  | succ left ih =>
      simp only [polls]
      split
      · rename_i now
        simp [now]
      · rename_i busy
        simp [busy, ih (k + 1)]

theorem polls_stop (idle : Value → Bool) (poll : Nat → Value) (left k : Nat) :
    (polls idle poll left k).2 = true ↔ ∃ j, k ≤ j ∧ j < k + left ∧ idle (poll j) = true := by
  induction left generalizing k with
  | zero =>
      simp only [polls, Bool.false_eq_true, false_iff]
      rintro ⟨j, low, high, _⟩
      omega
  | succ left ih =>
      simp only [polls]
      split
      · rename_i now
        simp only [true_iff]
        exact ⟨k, Nat.le_refl k, by omega, now⟩
      · rename_i busy
        rw [ih (k + 1)]
        constructor
        · rintro ⟨j, low, high, stops⟩
          exact ⟨j, by omega, by omega, stops⟩
        · rintro ⟨j, low, high, stops⟩
          have later : j ≠ k := fun same => busy (same ▸ stops)
          exact ⟨j, by omega, by omega, stops⟩

end Polling

end Support

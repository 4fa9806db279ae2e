import Pa6tEth.Support.Machine

/-! Loops without a condition, which their body leaves, on a bounded number of turns. -/

namespace Support

variable {State Action Result : Type}

/-- The body goes on with a state or leaves with a result. -/
def forever (body : State → State ⊕ Result) : Nat → State → Option Result
  | 0, _ => none
  | fuel + 1, s =>
      match body s with
      | .inl next => forever body fuel next
      | .inr done => some done

theorem forever_goes (body : State → State ⊕ Result) (fuel : Nat) (s next : State)
    (goes : body s = .inl next) : forever body (fuel + 1) s = forever body fuel next := by
  simp only [forever, goes]

theorem forever_leaves (body : State → State ⊕ Result) (fuel : Nat) (s : State) (done : Result)
    (leaves : body s = .inr done) : forever body (fuel + 1) s = some done := by
  simp only [forever, leaves]

/-- A measure that every turn lowers bounds the turns, and what every turn keeps holds when the
body leaves. -/
theorem forever_rule (body : State → State ⊕ Result) (inv : State → Prop) (left : State → Nat)
    (post : Result → Prop)
    (goes : ∀ s next, inv s → body s = .inl next → inv next ∧ left next < left s)
    (leaves : ∀ s done, inv s → body s = .inr done → post done)
    (s : State) (held : inv s) :
    ∃ done, (∀ fuel, left s < fuel → forever body fuel s = some done) ∧ post done := by
  induction measure : left s using Nat.strongRecOn generalizing s with
  | ind bound ih =>
      cases turn : body s with
      | inl next =>
          obtain ⟨later, lower⟩ := goes s next held turn
          obtain ⟨done, finishes, right⟩ := ih (left next) (measure ▸ lower) next later rfl
          refine ⟨done, fun fuel enough => ?_, right⟩
          obtain ⟨fuel, rfl⟩ : ∃ less, fuel = less + 1 := ⟨fuel - 1, by omega⟩
          rw [forever_goes body fuel s next turn]
          exact finishes fuel (by omega)
      | inr done =>
          refine ⟨done, fun fuel enough => ?_, leaves s done held turn⟩
          obtain ⟨fuel, rfl⟩ : ∃ less, fuel = less + 1 := ⟨fuel - 1, by omega⟩
          exact forever_leaves body fuel s done turn

/-- A machine that can make every turn of the loop makes the whole loop. -/
theorem forever_run (m : Machine State Action) {Turn : Type} (body : Turn → Turn ⊕ Result)
    (head : Turn → State) (out : Result → State)
    (goes : ∀ s next, body s = .inl next → ∃ actions, m.run (head s) actions = some (head next))
    (leaves : ∀ s done, body s = .inr done → ∃ actions, m.run (head s) actions = some (out done))
    (fuel : Nat) (s : Turn) (done : Result) (finished : forever body fuel s = some done) :
    ∃ actions, m.run (head s) actions = some (out done) := by
  induction fuel generalizing s with
  | zero => cases finished
  | succ fuel ih =>
      cases turn : body s with
      | inl next =>
          rw [forever_goes body fuel s next turn] at finished
          obtain ⟨first, reaches⟩ := goes s next turn
          obtain ⟨rest, ends⟩ := ih next finished
          exact ⟨first ++ rest, by rw [m.run_append, reaches, Option.bind_some, ends]⟩
      | inr last =>
          rw [forever_leaves body fuel s last turn] at finished
          rw [Option.some.inj finished] at turn
          exact leaves s done turn

end Support

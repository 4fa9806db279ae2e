import Mathlib.Data.List.Basic

/-! Machines given by a partial step function: runs, reached states, invariants. -/

namespace Support

/-- A machine resolves every choice of its environment in the action it is given. -/
structure Machine (State Action : Type) where
  start : State → Prop
  step : State → Action → Option State

namespace Machine

variable {State Action : Type}

def run (m : Machine State Action) : State → List Action → Option State
  | s, [] => some s
  | s, a :: rest => (m.step s a).bind fun t => m.run t rest

inductive Reached (m : Machine State Action) : State → Prop
  | start (s : State) (begun : m.start s) : Reached m s
  | step (s : State) (a : Action) (t : State) (reached : Reached m s)
      (stepped : m.step s a = some t) : Reached m t

/-- A fact that starts true and that every step from a reached state keeps. -/
theorem invariant_within (m : Machine State Action) (inv : State → Prop)
    (initial : ∀ s, m.start s → inv s)
    (kept : ∀ s a t, m.Reached s → inv s → m.step s a = some t → inv t)
    (s : State) (reached : m.Reached s) : inv s := by
  induction reached with
  | start s begun => exact initial s begun
  | step s a t before stepped ih => exact kept s a t before ih stepped

theorem invariant (m : Machine State Action) (inv : State → Prop)
    (initial : ∀ s, m.start s → inv s)
    (kept : ∀ s a t, inv s → m.step s a = some t → inv t)
    (s : State) (reached : m.Reached s) : inv s :=
  m.invariant_within inv initial (fun s a t _ held stepped => kept s a t held stepped) s reached

/-- The machine with only those steps that meet a condition. -/
def allow (m : Machine State Action) (ok : State → Action → Bool) : Machine State Action where
  start := m.start
  step := fun s a => if ok s a then m.step s a else none

theorem allow_step (m : Machine State Action) (ok : State → Action → Bool) (s t : State)
    (a : Action) (stepped : (m.allow ok).step s a = some t) :
    ok s a = true ∧ m.step s a = some t := by
  simp only [allow] at stepped
  split at stepped
  · rename_i allowed
    exact ⟨allowed, stepped⟩
  · cases stepped

theorem reached_allow (m : Machine State Action) (ok : State → Action → Bool) (s : State)
    (reached : (m.allow ok).Reached s) : m.Reached s := by
  induction reached with
  | start s begun => exact .start s begun
  | step s a t _ stepped ih => exact .step s a t ih (m.allow_step ok s t a stepped).2

theorem run_allow (m : Machine State Action) (ok : State → Action → Bool) (s t : State)
    (actions : List Action) (ran : (m.allow ok).run s actions = some t) :
    m.run s actions = some t := by
  induction actions generalizing s with
  | nil => exact ran
  | cons a rest ih =>
      obtain ⟨u, stepped, later⟩ := Option.bind_eq_some_iff.mp ran
      rw [run, (m.allow_step ok s u a stepped).2]
      exact ih u later

theorem run_cons (m : Machine State Action) (s t : State) (a : Action) (rest : List Action)
    (ran : m.run s (a :: rest) = some t) :
    ∃ u, m.step s a = some u ∧ m.run u rest = some t := by
  simpa only [run, Option.bind_eq_some_iff] using ran

theorem run_append (m : Machine State Action) (s : State) (first second : List Action) :
    m.run s (first ++ second) = (m.run s first).bind fun t => m.run t second := by
  induction first generalizing s with
  | nil => rfl
  | cons a rest ih =>
      simp only [List.cons_append, run, Option.bind_assoc]
      exact congrArg _ (funext ih)

theorem run_reached (m : Machine State Action) (s t : State) (actions : List Action)
    (reached : m.Reached s) (ran : m.run s actions = some t) : m.Reached t := by
  induction actions generalizing s with
  | nil =>
      cases ran
      exact reached
  | cons a rest ih =>
      obtain ⟨u, stepped, later⟩ := run_cons m s t a rest ran
      exact ih u (.step s a u reached stepped) later

theorem run_shape {Shape : Type} (m : Machine State Action) (shape : State → Shape)
    (expected : Shape) (s : State) (actions : List Action) (reached : m.Reached s)
    (ran : (m.run s actions).map shape = some expected) :
    ∃ t, m.Reached t ∧ shape t = expected := by
  obtain ⟨t, reaches, shaped⟩ := Option.map_eq_some_iff.mp ran
  exact ⟨t, m.run_reached s t actions reached reaches, shaped⟩

/-- The run to `s` came through a state with the property. -/
def Past (m : Machine State Action) (property : State → Prop) (s : State) : Prop :=
  ∃ x actions, m.Reached x ∧ m.run x actions = some s ∧ property x

theorem past_here (m : Machine State Action) (property : State → Prop) (s : State)
    (reached : m.Reached s) (holds : property s) : m.Past property s :=
  ⟨s, [], reached, rfl, holds⟩

theorem past_run (m : Machine State Action) (property : State → Prop) (s t : State)
    (actions : List Action) (past : m.Past property s) (ran : m.run s actions = some t) :
    m.Past property t := by
  obtain ⟨x, before, reached, came, holds⟩ := past
  refine ⟨x, before ++ actions, reached, ?_, holds⟩
  rw [run_append, came, Option.bind_some, ran]

theorem past_step (m : Machine State Action) (property : State → Prop) (s t : State) (a : Action)
    (past : m.Past property s) (stepped : m.step s a = some t) : m.Past property t := by
  apply m.past_run property s t [a] past
  rw [run, stepped]
  rfl

theorem past_mono (m : Machine State Action) (first second : State → Prop) (s : State)
    (weaker : ∀ x, first x → second x) (past : m.Past first s) : m.Past second s := by
  obtain ⟨x, actions, reached, ran, holds⟩ := past
  exact ⟨x, actions, reached, ran, weaker x holds⟩

theorem past_past (m : Machine State Action) (property : State → Prop) (s : State)
    (past : m.Past (m.Past property) s) : m.Past property s := by
  obtain ⟨x, actions, _, ran, before⟩ := past
  exact m.past_run property x s actions before ran

/-- Along one run: what the actions of the run keep holds at its end. -/
theorem run_invariant (m : Machine State Action) (inv : State → Prop) (allowed : Action → Prop)
    (kept : ∀ s a t, inv s → allowed a → m.step s a = some t → inv t)
    (s t : State) (actions : List Action) (every : ∀ a ∈ actions, allowed a)
    (held : inv s) (ran : m.run s actions = some t) : inv t := by
  induction actions generalizing s with
  | nil =>
      cases ran
      exact held
  | cons a rest ih =>
      obtain ⟨u, stepped, later⟩ := run_cons m s t a rest ran
      have now := kept s a u held (every a List.mem_cons_self) stepped
      exact ih u (fun b member => every b (List.mem_cons_of_mem a member)) now later

/-- What is observed at the steps of a run, in their order. -/
def trace {Event : Type} (m : Machine State Action) (observe : State → Action → List Event) :
    State → List Action → List Event
  | _, [] => []
  | s, a :: rest => observe s a ++ ((m.step s a).map fun t => m.trace observe t rest).getD []

theorem trace_cons {Event : Type} (m : Machine State Action)
    (observe : State → Action → List Event) (s t : State) (a : Action) (rest : List Action)
    (stepped : m.step s a = some t) :
    m.trace observe s (a :: rest) = observe s a ++ m.trace observe t rest := by
  simp only [trace, stepped, Option.map_some, Option.getD_some]

theorem trace_allow {Event : Type} (m : Machine State Action) (ok : State → Action → Bool)
    (observe : State → Action → List Event) (s t : State) (actions : List Action)
    (ran : (m.allow ok).run s actions = some t) :
    (m.allow ok).trace observe s actions = m.trace observe s actions := by
  induction actions generalizing s with
  | nil => rfl
  | cons a rest ih =>
      obtain ⟨u, stepped, later⟩ := (m.allow ok).run_cons s t a rest ran
      rw [(m.allow ok).trace_cons observe s u a rest stepped,
        m.trace_cons observe s u a rest (m.allow_step ok s u a stepped).2, ih u later]

theorem trace_invariant {Event : Type} (m : Machine State Action)
    (observe : State → Action → List Event) (inv : State → List Event → Prop)
    (kept : ∀ s events a t, inv s events → m.step s a = some t → inv t (events ++ observe s a))
    (s t : State) (events : List Event) (actions : List Action) (held : inv s events)
    (ran : m.run s actions = some t) : inv t (events ++ m.trace observe s actions) := by
  induction actions generalizing s events with
  | nil =>
      cases ran
      simpa only [trace, List.append_nil] using held
  | cons a rest ih =>
      obtain ⟨u, stepped, later⟩ := run_cons m s t a rest ran
      rw [trace_cons m observe s u a rest stepped, ← List.append_assoc]
      exact ih u (events ++ observe s a) (kept s events a u held stepped) later

def Along (m : Machine State Action) (property : State → Action → State → Prop) :
    State → List Action → Prop
  | _, [] => True
  | s, a :: rest => ∀ t, m.step s a = some t → property s a t ∧ m.Along property t rest

/-- What holds along a run holds of each of its steps. -/
theorem along_step (m : Machine State Action) (property : State → Action → State → Prop)
    (s t u : State) (before rest : List Action) (a : Action) (ran : m.run s before = some t)
    (stepped : m.step t a = some u) (along : m.Along property s (before ++ a :: rest)) :
    property t a u := by
  induction before generalizing s with
  | nil =>
      cases ran
      exact (along u stepped).1
  | cons b earlier ih =>
      obtain ⟨x, first, later⟩ := run_cons m s t b earlier ran
      exact ih x later (along x first).2

/-- What every step with the property keeps holds at the end of a run of such steps. -/
theorem along_invariant (m : Machine State Action) (inv : State → Prop)
    (property : State → Action → State → Prop)
    (kept : ∀ s a t, inv s → property s a t → m.step s a = some t → inv t)
    (s t : State) (actions : List Action) (along : m.Along property s actions) (held : inv s)
    (ran : m.run s actions = some t) : inv t := by
  induction actions generalizing s with
  | nil =>
      cases ran
      exact held
  | cons a rest ih =>
      obtain ⟨u, stepped, later⟩ := run_cons m s t a rest ran
      obtain ⟨now, after⟩ := along u stepped
      exact ih u after (kept s a u held now stepped) later

def check (m : Machine State Action) (ok : State → Action → Bool) : State → List Action → Bool
  | _, [] => true
  | s, a :: rest => ((m.step s a).map fun t => ok s a && m.check ok t rest).getD true

theorem along_check (m : Machine State Action) (ok : State → Action → Bool) (s : State)
    (actions : List Action) (checked : m.check ok s actions = true) :
    m.Along (fun s a _ => ok s a = true) s actions := by
  induction actions generalizing s with
  | nil => trivial
  | cons a rest ih =>
      intro t stepped
      simp only [check, stepped, Option.map_some, Option.getD_some, Bool.and_eq_true] at checked
      exact ⟨checked.1, ih t checked.2⟩

/-- A property that an evaluated check decides wherever a fact holds that every step keeps. -/
theorem along_check_while (m : Machine State Action) (inv : State → Prop)
    (ok : State → Action → Bool) (property : State → Action → State → Prop)
    (holds : ∀ s a t, inv s → ok s a = true → property s a t)
    (kept : ∀ s a t, inv s → m.step s a = some t → inv t) (s : State) (actions : List Action)
    (held : inv s) (checked : m.check ok s actions = true) : m.Along property s actions := by
  induction actions generalizing s with
  | nil => trivial
  | cons a rest ih =>
      intro t stepped
      simp only [check, stepped, Option.map_some, Option.getD_some, Bool.and_eq_true] at checked
      exact ⟨holds s a t held checked.1, ih t (kept s a t held stepped) checked.2⟩

/-- Two properties of steps agree on every run, when they agree wherever a fact holds and the
second one keeps that fact. -/
theorem along_iff_while (m : Machine State Action) (inv : State → Prop)
    (first second : State → Action → State → Prop)
    (same : ∀ s a t, inv s → m.step s a = some t → (first s a t ↔ second s a t))
    (kept : ∀ s a t, inv s → m.step s a = some t → second s a t → inv t)
    (s : State) (held : inv s) (actions : List Action) :
    m.Along first s actions ↔ m.Along second s actions := by
  induction actions generalizing s with
  | nil => exact Iff.rfl
  | cons a rest ih =>
      constructor
      · intro along t stepped
        obtain ⟨now, later⟩ := along t stepped
        have right := (same s a t held stepped).mp now
        exact ⟨right, (ih t (kept s a t held stepped right)).mp later⟩
      · intro along t stepped
        obtain ⟨right, later⟩ := along t stepped
        exact ⟨(same s a t held stepped).mpr right,
          (ih t (kept s a t held stepped right)).mpr later⟩

theorem along_iff (m : Machine State Action) (first second : State → Action → State → Prop)
    (same : ∀ s a t, m.Reached s → m.step s a = some t → (first s a t ↔ second s a t))
    (s : State) (reached : m.Reached s) (actions : List Action) :
    m.Along first s actions ↔ m.Along second s actions :=
  m.along_iff_while m.Reached first second same
    (fun s a t before stepped _ => .step s a t before stepped) s reached actions

/-- A rank that every step lowers bounds the steps until a state of rest, whatever actions come. -/
theorem comes_to_rest (m : Machine State Action) (inv rest : State → Prop) (rank : State → Nat)
    (onward : ∀ s a, inv s → ¬ rest s → ∃ t, m.step s a = some t ∧ inv t ∧ rank t < rank s)
    (action : Nat → Action) (s : State) (held : inv s) :
    ∃ k t, k ≤ rank s ∧ m.run s ((List.range k).map action) = some t ∧ inv t ∧ rest t := by
  induction bound : rank s using Nat.strongRecOn generalizing s action with
  | ind n ih =>
      by_cases resting : rest s
      · exact ⟨0, s, Nat.zero_le n, rfl, held, resting⟩
      · obtain ⟨t, stepped, kept, lower⟩ := onward s (action 0) held resting
        obtain ⟨k, u, short, ran, inside, ends⟩ :=
          ih (rank t) (bound ▸ lower) (fun j => action (j + 1)) t kept rfl
        refine ⟨k + 1, u, by omega, ?_, inside, ends⟩
        rw [List.range_succ_eq_map, List.map_cons, List.map_map, run, stepped, Option.bind_some]
        exact ran

end Machine

end Support

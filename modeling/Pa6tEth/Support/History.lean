import Mathlib.Data.List.Basic

/-! Logs whose entries name the party they belong to. -/

namespace Support

variable {Label Event : Type} [DecidableEq Label]

def history (log : List (Label × Event)) (label : Label) : List Event :=
  (log.filter fun entry => entry.1 = label).map Prod.snd

def tagged (label : Label) (events : List Event) : List (Label × Event) :=
  events.map fun event => (label, event)

theorem history_append (first second : List (Label × Event)) (label : Label) :
    history (first ++ second) label = history first label ++ history second label := by
  simp only [history, List.filter_append, List.map_append]

theorem history_tagged (label : Label) (events : List Event) :
    history (tagged label events) label = events := by
  induction events with
  | nil => rfl
  | cons event rest ih =>
      simp only [tagged, history, List.map_cons, List.filter_cons, decide_true, if_true] at ih ⊢
      rw [ih]

theorem history_other (label other : Label) (events : List Event) (apart : other ≠ label) :
    history (tagged other events) label = [] := by
  induction events with
  | nil => rfl
  | cons event rest ih =>
      simp only [tagged, history, List.map_cons, List.filter_cons, apart, decide_false] at ih ⊢
      exact ih

theorem history_mem (log : List (Label × Event)) (label : Label) (event : Event) :
    event ∈ history log label ↔ (label, event) ∈ log := by
  simp [history]

/-- An event that does not occur in the first part of a history comes after all of that part. -/
theorem history_before (before after : List (Label × Event)) (label : Label) (event : Event)
    (first rest : List Event)
    (whole : history (before ++ (label, event) :: after) label = first ++ rest)
    (later : event ∉ first) : ∃ between, history before label = first ++ between := by
  have here : history ((label, event) :: after) label = event :: history after label := by
    simp [history]
  rw [history_append, here] at whole
  rcases List.append_eq_append_iff.mp whole with ⟨middle, early, late⟩ | ⟨middle, early, _⟩
  · cases middle with
    | nil => exact ⟨[], by simpa using early.symm⟩
    | cons head tail =>
        obtain ⟨rfl, _⟩ := List.cons.inj late
        exact absurd (by rw [early]; simp) later
  · exact ⟨middle, early⟩

end Support

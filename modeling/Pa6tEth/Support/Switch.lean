import Pa6tEth.Support.Machine

/-! A switch that announces each of its turns before the next one. -/

namespace Support

inductive SwitchEvent (Mark : Type)
  | turned (on : Bool)
  | announced (mark : Mark)
  deriving DecidableEq, Repr

/-- Its position, and whether the last turn is still to be announced. -/
structure Switch where
  on : Bool
  owes : Bool
  deriving DecidableEq, Repr

section Switches

variable {Mark : Type} [DecidableEq Mark] (mark : Bool → Mark)

def switchStep (s : Switch) : SwitchEvent Mark → Option Switch
  | .turned on => if s.owes = false ∧ on ≠ s.on then some ⟨on, true⟩ else none
  | .announced m => if s.owes = true ∧ m = mark s.on then some ⟨s.on, false⟩ else none

def switchMachine : Machine Switch (SwitchEvent Mark) where
  start := fun s => s.owes = false
  step := switchStep mark

/-- What a log says to those who only hear the announcements. -/
def announcements : List (SwitchEvent Mark) → List Mark :=
  List.filterMap fun
    | .turned _ => none
    | .announced m => some m

/-- So many marks in turn, the first one for the position that is not this one. -/
def alternation (on : Bool) : Nat → List Mark
  | 0 => []
  | n + 1 => mark (!on) :: alternation (!on) n

theorem switch_turned (s t : Switch) (on : Bool) (stepped : switchStep mark s (.turned on) = some t) :
    s.owes = false ∧ on = !s.on ∧ t = ⟨on, true⟩ := by
  simp only [switchStep] at stepped
  split at stepped
  · rename_i turns
    exact ⟨turns.1, by simpa [Bool.eq_not] using turns.2, (Option.some.inj stepped).symm⟩
  · cases stepped

theorem switch_announced (s t : Switch) (m : Mark)
    (stepped : switchStep mark s (.announced m) = some t) :
    s.owes = true ∧ m = mark s.on ∧ t = ⟨s.on, false⟩ := by
  simp only [switchStep] at stepped
  split at stepped
  · rename_i owed
    exact ⟨owed.1, owed.2, (Option.some.inj stepped).symm⟩
  · cases stepped

/-- The announcements of a run alternate. -/
theorem announcements_alternate (s t : Switch) (log : List (SwitchEvent Mark))
    (ran : (switchMachine mark).run s log = some t) :
    ∃ n, announcements log = alternation mark (if s.owes then !s.on else s.on) n := by
  induction log generalizing s with
  | nil => exact ⟨0, rfl⟩
  | cons event rest ih =>
      obtain ⟨u, stepped, later⟩ := Machine.run_cons _ s t event rest ran
      obtain ⟨n, heard⟩ := ih u later
      cases event with
      | turned on =>
          obtain ⟨settled, rfl, rfl⟩ := switch_turned mark s u on stepped
          refine ⟨n, ?_⟩
          simpa [settled, announcements] using heard
      | announced m =>
          obtain ⟨owed, rfl, rfl⟩ := switch_announced mark s u m stepped
          refine ⟨n + 1, ?_⟩
          simpa [owed, announcements, alternation] using heard

theorem owing_turned (s t : Switch) (log : List (SwitchEvent Mark)) (settled : s.owes = false)
    (owes : t.owes = true) (ran : (switchMachine mark).run s log = some t) :
    ∃ front, log = front ++ [.turned t.on] := by
  rcases List.eq_nil_or_concat log with rfl | ⟨front, event, rfl⟩
  · obtain rfl := Option.some.inj ran
    rw [settled] at owes
    cases owes
  · rw [List.concat_eq_append] at ran ⊢
    rw [Machine.run_append, Option.bind_eq_some_iff] at ran
    obtain ⟨u, _, last⟩ := ran
    obtain ⟨v, stepped, rest⟩ := Machine.run_cons _ u t event [] last
    obtain rfl := Option.some.inj rest
    cases event with
    | turned on =>
        obtain ⟨_, _, rfl⟩ := switch_turned mark u v on stepped
        exact ⟨front, rfl⟩
    | announced m =>
        obtain ⟨_, _, rfl⟩ := switch_announced mark u v m stepped
        cases owes

theorem announced_turned (s t : Switch) (before after : List (SwitchEvent Mark)) (m : Mark)
    (settled : s.owes = false)
    (ran : (switchMachine mark).run s (before ++ .announced m :: after) = some t) :
    ∃ front on, before = front ++ [.turned on] ∧ m = mark on := by
  rw [Machine.run_append, Option.bind_eq_some_iff] at ran
  obtain ⟨u, first, last⟩ := ran
  obtain ⟨v, stepped, _⟩ := Machine.run_cons _ u t _ after last
  obtain ⟨owed, rfl, _⟩ := switch_announced mark u v m stepped
  obtain ⟨front, turned⟩ := owing_turned mark s u before settled owed first
  exact ⟨front, u.on, turned, rfl⟩

end Switches

end Support

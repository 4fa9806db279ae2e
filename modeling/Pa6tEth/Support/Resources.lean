import Mathlib.Data.List.Perm.Basic
import Mathlib.Data.List.Perm.Lattice

/-! Logs of resources that are taken and given back. -/

namespace Support

inductive Use (Resource : Type)
  | take (x : Resource)
  | give (x : Resource)
  deriving DecidableEq, Repr

section Settling

variable {Resource : Type} [DecidableEq Resource]

/-- What is held after a log; none if it gives what is not held. -/
def settle : List Resource → List (Use Resource) → Option (List Resource)
  | held, [] => some held
  | held, .take x :: rest => settle (x :: held) rest
  | held, .give x :: rest => if x ∈ held then settle (held.erase x) rest else none

/-- The log gives only what is held, and leads from the first holdings to the second, in any
order. -/
def Settles (held : List Resource) (log : List (Use Resource)) (left : List Resource) : Prop :=
  ∃ rest, settle held log = some rest ∧ rest.Perm left

theorem settle_append (held : List Resource) (first second : List (Use Resource)) :
    settle held (first ++ second) = (settle held first).bind fun rest => settle rest second := by
  induction first generalizing held with
  | nil => rfl
  | cons use rest ih =>
      cases use with
      | take x => exact ih (x :: held)
      | give x =>
          simp only [List.cons_append, settle]
          split
          · exact ih (held.erase x)
          · rfl

theorem settle_perm (held others : List Resource) (log : List (Use Resource))
    (left : List Resource) (same : held.Perm others) (ran : settle held log = some left) :
    ∃ rest, settle others log = some rest ∧ left.Perm rest := by
  induction log generalizing held others with
  | nil =>
      obtain rfl := Option.some.inj ran
      exact ⟨others, rfl, same⟩
  | cons use rest ih =>
      cases use with
      | take x => exact ih (x :: held) (x :: others) (same.cons x) ran
      | give x =>
          simp only [settle] at ran ⊢
          split at ran
          · rename_i here
            rw [if_pos (same.mem_iff.mp here)]
            exact ih (held.erase x) (others.erase x) (same.erase x) ran
          · cases ran

theorem settles_refl (held : List Resource) : Settles held [] held :=
  ⟨held, rfl, List.Perm.refl held⟩

theorem settles_trans (held between left : List Resource) (first second : List (Use Resource))
    (one : Settles held first between) (two : Settles between second left) :
    Settles held (first ++ second) left := by
  obtain ⟨rest, ran, same⟩ := one
  obtain ⟨last, ran', same'⟩ := two
  obtain ⟨last', ran'', same''⟩ := settle_perm between rest second last same.symm ran'
  exact ⟨last', by rw [settle_append, ran]; exact ran'', same''.symm.trans same'⟩

theorem settles_frame (before after others front back : List Resource)
    (log : List (Use Resource)) (first : front.Perm (before ++ others))
    (last : back.Perm (after ++ others)) (settles : Settles before log after) :
    Settles front log back := by
  have beside : ∀ held left, settle held log = some left →
      settle (held ++ others) log = some (left ++ others) := by
    clear settles first last
    induction log with
    | nil =>
        intro held left ran
        obtain rfl := Option.some.inj ran
        rfl
    | cons use rest ih =>
        intro held left ran
        cases use with
        | take x => exact ih (x :: held) left ran
        | give x =>
            simp only [settle] at ran ⊢
            split at ran
            · rename_i here
              rw [if_pos (List.mem_append_left others here), List.erase_append_left others here]
              exact ih (held.erase x) left ran
            · cases ran
  obtain ⟨left, ran, same⟩ := settles
  obtain ⟨rest, ran', same'⟩ := settle_perm _ front log _ first.symm (beside before left ran)
  exact ⟨rest, ran', same'.symm.trans ((same.append_right others).trans last.symm)⟩

theorem settles_between (before after front back : List Resource) (log : List (Use Resource))
    (first : front.Perm before) (last : back.Perm after) (settles : Settles before log after) :
    Settles front log back := by
  refine settles_frame before after [] front back log ?_ ?_ settles
  · rwa [List.append_nil]
  · rwa [List.append_nil]

theorem settles_taken (after others : List Resource) (log : List (Use Resource))
    (settles : Settles [] log after) : Settles others log (after ++ others) :=
  settles_frame [] after others _ _ log (List.Perm.refl _) (List.Perm.refl _) settles

theorem settles_given (before others : List Resource) (log : List (Use Resource))
    (settles : Settles before log []) : Settles (before ++ others) log others :=
  settles_frame before [] others _ _ log (List.Perm.refl _) (List.Perm.refl _) settles

theorem settles_take (x : Resource) : Settles [] [.take x] [x] :=
  ⟨[x], rfl, List.Perm.refl _⟩

theorem settles_give (x : Resource) : Settles [x] [.give x] [] := by
  refine ⟨[], ?_, List.Perm.refl _⟩
  simp only [settle, List.mem_singleton, if_true, List.erase_cons_head]

theorem settles_both (one two : List Resource) (first second : List (Use Resource))
    (here : Settles one first []) (there : Settles two second []) :
    Settles (one ++ two) (first ++ second) [] :=
  settles_trans (one ++ two) two [] first second (settles_given one two first here) there

theorem settles_gain (one two : List Resource) (first second : List (Use Resource))
    (here : Settles [] first one) (there : Settles [] second two) :
    Settles [] (first ++ second) (one ++ two) :=
  settles_trans [] one (one ++ two) first second here
    (settles_between _ _ _ _ second (List.Perm.refl _) List.perm_append_comm
      (settles_taken two one second there))

theorem settles_gives (held : List Resource) : Settles held (held.map .give) [] := by
  induction held with
  | nil => exact settles_refl []
  | cons x rest ih => exact settles_both [x] rest [.give x] _ (settles_give x) ih

theorem settles_nothing (held left : List Resource) (log : List (Use Resource))
    (settles : Settles held log left) : settle held log = some [] ↔ left = [] := by
  obtain ⟨rest, ran, same⟩ := settles
  rw [ran, Option.some.injEq]
  constructor
  · rintro rfl
    exact same.nil_eq.symm
  · rintro rfl
    exact same.eq_nil

end Settling

end Support

import Mathlib.Data.Set.Basic
import Mathlib.Logic.Function.Basic

/-! Items that lie in slots, each in exactly one, and moves of one item. -/

namespace Support

abbrev Shelf (Slot Item : Type) : Type := Slot → Option Item

namespace Shelf

variable {Slot Item : Type}

/-- Every item lies somewhere, and no item lies in two slots. -/
structure Complete (shelf : Shelf Slot Item) (items : Set Item) : Prop where
  present : ∀ i ∈ items, ∃ slot, shelf slot = some i
  once : ∀ slot other i, shelf slot = some i → shelf other = some i → slot = other

variable [DecidableEq Slot]

/-- The slot `src` is emptied, and then the item is put into `dst`, whatever lay in either. -/
def move (shelf : Shelf Slot Item) (src dst : Slot) (item : Item) : Shelf Slot Item :=
  Function.update (Function.update shelf src none) dst (some item)

theorem move_apply (shelf : Shelf Slot Item) (src dst slot : Slot) (item : Item) :
    shelf.move src dst item slot =
      if slot = dst then some item else if slot = src then none else shelf slot := by
  simp only [move, Function.update_apply]

theorem move_put (shelf : Shelf Slot Item) (src dst : Slot) (item : Item) :
    shelf.move src dst item dst = some item := by
  rw [move_apply, if_pos rfl]

theorem move_other (shelf : Shelf Slot Item) (src dst slot : Slot) (item : Item)
    (put : slot ≠ dst) (emptied : slot ≠ src) : shelf.move src dst item slot = shelf slot := by
  rw [move_apply, if_neg put, if_neg emptied]

theorem move_from (shelf : Shelf Slot Item) (src dst slot : Slot) (item i : Item)
    (lies : shelf.move src dst item slot = some i) :
    slot = dst ∧ i = item ∨ slot ≠ dst ∧ slot ≠ src ∧ shelf slot = some i := by
  rw [move_apply] at lies
  split at lies
  · rename_i put
    exact .inl ⟨put, (Option.some.inj lies).symm⟩
  · rename_i put
    split at lies
    · cases lies
    · rename_i emptied
      exact .inr ⟨put, emptied, lies⟩

theorem move_same (shelf : Shelf Slot Item) (src dst : Slot) (item : Item)
    (empty : shelf src = none) (there : shelf dst = some item) :
    shelf.move src dst item = shelf := by
  funext slot
  rw [move_apply]
  split
  · rename_i put
    rw [put, there]
  · split
    · rename_i emptied
      rw [emptied, empty]
    · rfl

theorem move_complete (shelf : Shelf Slot Item) (items : Set Item) (src dst : Slot) (item : Item)
    (complete : shelf.Complete items) (taken : shelf src = some item)
    (free : dst = src ∨ shelf dst = none) : (shelf.move src dst item).Complete items := by
  constructor
  · intro i member
    obtain ⟨slot, lies⟩ := complete.present i member
    by_cases moved : slot = src
    · rw [moved, taken] at lies
      exact ⟨dst, by rw [move_put, lies]⟩
    · refine ⟨slot, ?_⟩
      rw [move_other shelf src dst slot item ?_ moved, lies]
      rintro rfl
      rcases free with here | empty
      · exact moved here
      · rw [lies] at empty
        cases empty
  · intro slot other i first second
    rcases move_from shelf src dst slot item i first with ⟨rfl, rfl⟩ | ⟨_, apart, lies⟩
    · rcases move_from shelf src slot other i i second with ⟨rfl, _⟩ | ⟨_, apart, lies⟩
      · rfl
      · exact absurd (complete.once other src i lies taken) apart
    · rcases move_from shelf src dst other item i second with ⟨_, rfl⟩ | ⟨_, _, there⟩
      · exact absurd (complete.once slot src i lies taken) apart
      · exact complete.once slot other i lies there

/-- A move keeps every item in exactly one slot only when it takes the item from where it lies to
a free slot, or puts it back where it lies. -/
theorem move_complete_iff (shelf : Shelf Slot Item) (items : Set Item) (src dst : Slot)
    (item : Item) (complete : shelf.Complete items)
    (known : ∀ slot i, shelf slot = some i → i ∈ items) (member : item ∈ items) :
    (shelf.move src dst item).Complete items ↔
      shelf src = some item ∧ (dst = src ∨ shelf dst = none) ∨
        shelf src = none ∧ shelf dst = some item := by
  constructor
  · intro after
    cases lay : shelf src with
    | none =>
        obtain ⟨slot, lies⟩ := complete.present item member
        have apart : slot ≠ src := by
          rintro rfl
          rw [lay] at lies
          cases lies
        have here : slot = dst := by
          by_contra put
          have stays := move_other shelf src dst slot item put apart
          exact put (after.once slot dst item (stays.trans lies) (move_put shelf src dst item))
        exact .inr ⟨rfl, here ▸ lies⟩
    | some i =>
        -- Whatever lay in the slots emptied and filled must be found again.
        have moved : i = item := by
          obtain ⟨slot, lies⟩ := after.present i (known src i lay)
          rcases move_from shelf src dst slot item i lies with ⟨_, same⟩ | ⟨_, apart, stays⟩
          · exact same
          · exact absurd (complete.once slot src i stays lay) apart
        refine .inl ⟨by rw [moved], ?_⟩
        by_contra blocked
        rw [not_or] at blocked
        obtain ⟨j, covered⟩ := Option.ne_none_iff_exists'.mp blocked.2
        obtain ⟨slot, lies⟩ := after.present j (known dst j covered)
        rcases move_from shelf src dst slot item j lies with ⟨_, same⟩ | ⟨put, _, stays⟩
        · rw [same, ← moved] at covered
          exact blocked.1 (complete.once dst src i covered lay)
        · exact put (complete.once slot dst j stays covered)
  · rintro (⟨taken, free⟩ | ⟨empty, there⟩)
    · exact move_complete shelf items src dst item complete taken free
    · rw [move_same shelf src dst item empty there]
      exact complete

end Shelf

end Support

import Pa6tEth.Support.Machine
import Mathlib.Data.List.Nodup

/-! Custody of items that are asked for, handed from place to place, and answered once. -/

namespace Support

/-- Each item in a place has reached a stage there; its record is what the stage speaks of. -/
structure Ledger (Item Stage Record Answer : Type) where
  asked : List Item
  answers : List (Item × Answer)
  record : Item → Record
  places : List (Item × Stage)

section Ledgers

variable {Item Stage Record Answer : Type}

namespace Ledger

def items (l : Ledger Item Stage Record Answer) : List Item := l.places.map Prod.fst

/-- Every place keeps what its stage promises about the record of its item. -/
def Promised (promise : Stage → Record → Prop) (l : Ledger Item Stage Record Answer) : Prop :=
  ∀ p ∈ l.places, promise p.2 (l.record p.1)

end Ledger

/-- The items of all places are put into places again or answered, and nothing else changes. The
promises are passed on, and every new answer is fair. -/
def Handover (promise : Stage → Record → Prop) (fair : Item × Answer → Prop)
    (s t : Ledger Item Stage Record Answer) : Prop :=
  ∃ new : List (Item × Answer),
    s.items.Perm (t.items ++ new.map Prod.fst) ∧
    t.asked = s.asked ∧ t.answers = new ++ s.answers ∧
    (∀ x, x ∉ s.items → t.record x = s.record x) ∧
    (s.items.Nodup → s.Promised promise → t.Promised promise ∧ ∀ a ∈ new, fair a)

theorem handover_refl (promise : Stage → Record → Prop) (fair : Item × Answer → Prop)
    (s : Ledger Item Stage Record Answer) : Handover promise fair s s :=
  ⟨[], by simp, rfl, rfl, fun _ _ => rfl, fun _ held => ⟨held, by simp⟩⟩

theorem handover_trans (promise : Stage → Record → Prop) (fair : Item × Answer → Prop)
    (s t u : Ledger Item Stage Record Answer) (first : Handover promise fair s t)
    (second : Handover promise fair t u) : Handover promise fair s u := by
  obtain ⟨one, items, asked, answers, record, passed⟩ := first
  obtain ⟨two, items', asked', answers', record', passed'⟩ := second
  refine ⟨two ++ one, ?_, asked'.trans asked, ?_, ?_, ?_⟩
  · rw [List.map_append, ← List.append_assoc]
    exact items.trans (items'.append_right _)
  · rw [answers', answers, List.append_assoc]
  · intro x absent
    have later : x ∉ t.items := fun member =>
      absent (items.mem_iff.mpr (List.mem_append_left _ member))
    exact (record' x later).trans (record x absent)
  · intro distinct promised
    obtain ⟨kept, just⟩ := passed distinct promised
    obtain ⟨kept', just'⟩ := passed' (List.nodup_append.mp (items.nodup_iff.mp distinct)).1 kept
    refine ⟨kept', fun a member => ?_⟩
    rcases List.mem_append.mp member with later | earlier
    · exact just' a later
    · exact just a earlier

theorem handover_perm (promise : Stage → Record → Prop) (fair : Item × Answer → Prop)
    (s t : Ledger Item Stage Record Answer) (before after : List (Item × Stage))
    (first : before.Perm s.places) (last : after.Perm t.places)
    (handed : Handover promise fair s t) :
    Handover promise fair { s with places := before } { t with places := after } := by
  obtain ⟨new, items, asked, answers, record, passed⟩ := handed
  have source : (before.map Prod.fst).Perm s.items := first.map Prod.fst
  have target : (after.map Prod.fst).Perm t.items := last.map Prod.fst
  refine ⟨new, ?_, asked, answers, ?_, ?_⟩
  · exact (source.trans items).trans (target.symm.append_right _)
  · intro x absent
    exact record x fun member => absent (source.mem_iff.mpr member)
  · intro distinct promised
    obtain ⟨kept, just⟩ := passed (source.nodup_iff.mp distinct)
      fun p member => promised p (first.mem_iff.mpr member)
    exact ⟨fun p member => kept p (last.mem_iff.mp member), just⟩

theorem handover_beside (promise : Stage → Record → Prop) (fair : Item × Answer → Prop)
    (s t u : Ledger Item Stage Record Answer) (places : List (Item × Stage))
    (left : Handover promise fair s t)
    (right : Handover promise fair { t with places := places } u) :
    Handover promise fair { s with places := s.places ++ places }
      { u with places := t.places ++ u.places } := by
  obtain ⟨one, items, asked, answers, record, passed⟩ := left
  obtain ⟨two, items', asked', answers', record', passed'⟩ := right
  simp only [Ledger.items] at items items'
  have inside : ∀ x ∈ t.places.map Prod.fst, x ∈ s.places.map Prod.fst := fun x member =>
    items.mem_iff.mpr (List.mem_append_left _ member)
  refine ⟨two ++ one, ?_, asked'.trans asked, ?_, ?_, ?_⟩
  · simp only [Ledger.items, List.map_append]
    refine (items.append items').trans ?_
    simp only [List.append_assoc]
    refine List.Perm.append_left _ ?_
    refine (List.perm_append_comm_assoc _ _ _).trans (List.Perm.append_left _ ?_)
    exact List.perm_append_comm
  · rw [answers', answers, List.append_assoc]
  · intro x absent
    simp only [Ledger.items, List.map_append, List.mem_append, not_or] at absent
    exact (record' x absent.2).trans (record x absent.1)
  · intro distinct promised
    simp only [Ledger.items, List.map_append] at distinct
    obtain ⟨nodup, nodup', apart⟩ := List.nodup_append.mp distinct
    obtain ⟨kept, just⟩ := passed nodup fun p member =>
      promised p (List.mem_append_left _ member)
    obtain ⟨kept', just'⟩ := passed' nodup' fun p member => by
      have other : p.1 ∉ s.places.map Prod.fst := fun also =>
        apart p.1 also p.1 (List.mem_map_of_mem member) rfl
      rw [show ({ t with places := places } : Ledger Item Stage Record Answer).record p.1 =
        s.record p.1 from record p.1 other]
      exact promised p (List.mem_append_right _ member)
    constructor
    · intro p member
      rcases List.mem_append.mp member with here | there
      · have other : p.1 ∉ places.map Prod.fst := fun also =>
          apart p.1 (inside p.1 (List.mem_map_of_mem here)) p.1 also rfl
        rw [show u.record p.1 = t.record p.1 from record' p.1 other]
        exact kept p here
      · exact kept' p there
    · intro a member
      rcases List.mem_append.mp member with later | earlier
      · exact just' a later
      · exact just a earlier

theorem handover_frame (promise : Stage → Record → Prop) (fair : Item × Answer → Prop)
    (s t : Ledger Item Stage Record Answer) (before after others : List (Item × Stage))
    (first : before.Perm (s.places ++ others)) (last : after.Perm (t.places ++ others))
    (handed : Handover promise fair s t) :
    Handover promise fair { s with places := before } { t with places := after } :=
  handover_perm promise fair { s with places := s.places ++ others }
    { t with places := t.places ++ others } before after first last
    (handover_beside promise fair s t { t with places := others } others handed
      (handover_refl promise fair _))

variable [DecidableEq Item]

namespace Ledger

def askedFor (l : Ledger Item Stage Record Answer) (x : Item) : Nat := l.asked.count x

def answered (l : Ledger Item Stage Record Answer) (x : Item) : Nat :=
  (l.answers.map Prod.fst).count x

def placed (l : Ledger Item Stage Record Answer) (x : Item) : Nat := l.items.count x

end Ledger

/-- One item, asked for while no answer is due, enters a place. -/
def Intake (promise : Stage → Record → Prop) (s t : Ledger Item Stage Record Answer) : Prop :=
  ∃ x stage, s.askedFor x = s.answered x ∧ t.asked = x :: s.asked ∧ t.answers = s.answers ∧
    t.places.Perm ((x, stage) :: s.places) ∧ (∀ y, y ≠ x → t.record y = s.record y) ∧
    promise stage (t.record x)

def Loss (s t : Ledger Item Stage Record Answer) : Prop :=
  t.asked = s.asked ∧ t.answers = s.answers ∧ t.record = s.record ∧
    ∃ lost, s.places.Perm (lost ++ t.places)

/-- At most one answer is due for an item, and then it is in at most one place; every place keeps
its promise and every answer is fair. -/
structure Kept (promise : Stage → Record → Prop) (fair : Item × Answer → Prop)
    (l : Ledger Item Stage Record Answer) : Prop where
  due : ∀ x, l.answered x + l.placed x ≤ l.askedFor x
  single : ∀ x, l.askedFor x ≤ l.answered x + 1
  promised : l.Promised promise
  just : ∀ a ∈ l.answers, fair a

/-- An item is in a place exactly as long as its answer is due. -/
def Complete (l : Ledger Item Stage Record Answer) : Prop :=
  ∀ x, l.askedFor x = l.answered x + l.placed x

theorem handover_balance (promise : Stage → Record → Prop) (fair : Item × Answer → Prop)
    (s t : Ledger Item Stage Record Answer) (handed : Handover promise fair s t) (x : Item) :
    t.askedFor x = s.askedFor x ∧ s.answered x ≤ t.answered x ∧
      t.answered x + t.placed x = s.answered x + s.placed x := by
  obtain ⟨new, items, asked, answers, _, _⟩ := handed
  have moved := items.count_eq x
  rw [List.count_append] at moved
  have total : t.answered x = (new.map Prod.fst).count x + s.answered x := by
    simp only [Ledger.answered, answers, List.map_append, List.count_append]
  refine ⟨by rw [Ledger.askedFor, asked]; rfl, by omega, ?_⟩
  simp only [Ledger.placed]
  omega

theorem kept_nodup (promise : Stage → Record → Prop) (fair : Item × Answer → Prop)
    (l : Ledger Item Stage Record Answer) (kept : Kept promise fair l) : l.items.Nodup := by
  refine List.nodup_iff_count_le_one.mpr fun x => ?_
  have due := kept.due x
  have single := kept.single x
  simp only [Ledger.placed] at due
  omega

theorem kept_handover (promise : Stage → Record → Prop) (fair : Item × Answer → Prop)
    (s t : Ledger Item Stage Record Answer) (kept : Kept promise fair s)
    (handed : Handover promise fair s t) : Kept promise fair t := by
  have balance := handover_balance promise fair s t handed
  obtain ⟨new, _, _, answers, _, passed⟩ := handed
  obtain ⟨promised, fairs⟩ := passed (kept_nodup promise fair s kept) kept.promised
  refine ⟨?_, ?_, promised, ?_⟩
  · intro x
    have due := kept.due x
    obtain ⟨same, more, moved⟩ := balance x
    omega
  · intro x
    have single := kept.single x
    obtain ⟨same, more, moved⟩ := balance x
    omega
  · intro a member
    rw [answers] at member
    rcases List.mem_append.mp member with fresh | old
    · exact fairs a fresh
    · exact kept.just a old

theorem kept_intake (promise : Stage → Record → Prop) (fair : Item × Answer → Prop)
    (s t : Ledger Item Stage Record Answer) (kept : Kept promise fair s)
    (taken : Intake promise s t) : Kept promise fair t := by
  obtain ⟨x, stage, settled, asked, answers, places, record, promised⟩ := taken
  have absent : s.placed x = 0 := by
    have due := kept.due x
    omega
  have count : ∀ y, t.placed y = s.placed y + if x = y then 1 else 0 := by
    intro y
    simp only [Ledger.placed, Ledger.items, (places.map Prod.fst).count_eq, List.map_cons,
      List.count_cons, beq_iff_eq]
  have more : ∀ y, t.askedFor y = s.askedFor y + if x = y then 1 else 0 := by
    intro y
    simp only [Ledger.askedFor, asked, List.count_cons, beq_iff_eq]
  have same : ∀ y, t.answered y = s.answered y := fun y => by
    simp only [Ledger.answered, answers]
  constructor
  · intro y
    have due := kept.due y
    rw [count, more, same]
    omega
  · intro y
    have single := kept.single y
    rw [more, same]
    split
    · rename_i first
      subst first
      omega
    · omega
  · intro p member
    rcases List.mem_cons.mp (places.mem_iff.mp member) with rfl | old
    · exact promised
    · have other : p.1 ≠ x := by
        rintro rfl
        have here : 0 < s.placed p.1 := List.count_pos_iff.mpr (List.mem_map_of_mem old)
        omega
      rw [record p.1 other]
      exact kept.promised p old
  · rw [answers]
    exact kept.just

theorem kept_loss (promise : Stage → Record → Prop) (fair : Item × Answer → Prop)
    (s t : Ledger Item Stage Record Answer) (kept : Kept promise fair s) (lost : Loss s t) :
    Kept promise fair t := by
  obtain ⟨asked, answers, record, gone, places⟩ := lost
  constructor
  · intro x
    have due := kept.due x
    simp only [Ledger.askedFor, Ledger.answered, Ledger.placed, Ledger.items, asked, answers,
      (places.map Prod.fst).count_eq, List.map_append, List.count_append] at due ⊢
    omega
  · intro x
    have single := kept.single x
    simp only [Ledger.askedFor, Ledger.answered, asked, answers] at single ⊢
    exact single
  · intro p member
    rw [record]
    exact kept.promised p (places.mem_iff.mpr (List.mem_append_right gone member))
  · rw [answers]
    exact kept.just

theorem complete_handover (promise : Stage → Record → Prop) (fair : Item × Answer → Prop)
    (s t : Ledger Item Stage Record Answer) (complete : Complete s)
    (handed : Handover promise fair s t) : Complete t := by
  intro x
  have before := complete x
  obtain ⟨same, _, moved⟩ := handover_balance promise fair s t handed x
  omega

theorem complete_intake (promise : Stage → Record → Prop)
    (s t : Ledger Item Stage Record Answer) (complete : Complete s)
    (taken : Intake promise s t) : Complete t := by
  obtain ⟨x, stage, _, asked, answers, places, _, _⟩ := taken
  intro y
  have before := complete y
  simp only [Ledger.askedFor, Ledger.answered, Ledger.placed, Ledger.items, asked, answers,
    (places.map Prod.fst).count_eq, List.map_cons, List.count_cons, beq_iff_eq] at before ⊢
  omega

end Ledgers

section Holders

variable {Holder Place : Type}

theorem part_moved (whole whole' part part' more rest : List Place)
    (split : whole.Perm (part ++ rest)) (split' : whole'.Perm (part' ++ rest))
    (moved : part'.Perm (more ++ part)) : whole'.Perm (more ++ whole) := by
  calc
    whole'.Perm (part' ++ rest) := split'
    List.Perm _ (more ++ part ++ rest) := moved.append_right rest
    List.Perm _ (more ++ (part ++ rest)) := List.Perm.of_eq (List.append_assoc more part rest)
    List.Perm _ (more ++ whole) := split.symm.append_left more

theorem flatMap_leave (claim : Holder → List Place) (holders : List Holder) (i : Nat)
    (holder : Holder) (present : holders[i]? = some holder) :
    (holders.flatMap claim).Perm (claim holder ++ (holders.eraseIdx i).flatMap claim) := by
  induction holders generalizing i with
  | nil => simp at present
  | cons head tail ih =>
      cases i with
      | zero =>
          have same : head = holder := by simpa using present
          subst same
          exact List.Perm.refl _
      | succ i =>
          have later := ih i (by simpa using present)
          simp only [List.flatMap_cons, List.eraseIdx_cons_succ]
          exact (later.append_left (claim head)).trans (List.perm_append_comm_assoc _ _ _)

theorem flatMap_replace (claim : Holder → List Place) (holders : List Holder) (i : Nat)
    (holder next : Holder) (present : holders[i]? = some holder) :
    ((holders.set i next).flatMap claim).Perm
      (claim next ++ (holders.eraseIdx i).flatMap claim) := by
  induction holders generalizing i with
  | nil => simp at present
  | cons head tail ih =>
      cases i with
      | zero => exact List.Perm.refl _
      | succ i =>
          have later := ih i (by simpa using present)
          simp only [List.set_cons_succ, List.flatMap_cons, List.eraseIdx_cons_succ]
          exact (later.append_left (claim head)).trans (List.perm_append_comm_assoc _ _ _)

theorem mem_replaced (holders : List Holder) (i : Nat) (holder next other : Holder)
    (present : holders[i]? = some holder) (member : other ∈ holders.set i next) :
    other = next ∨ other ∈ holders.eraseIdx i := by
  have replaced := flatMap_replace (fun holder => [holder]) holders i holder next present
  simp only [List.flatMap_singleton'] at replaced
  exact List.mem_cons.mp (replaced.mem_iff.mp member)

theorem flatMap_idle (claim : Holder → List Place) (holders : List Holder) (i : Nat)
    (holder : Holder) (present : holders[i]? = some holder) (idle : claim holder = []) :
    (holders.eraseIdx i).flatMap claim = holders.flatMap claim := by
  induction holders generalizing i with
  | nil => simp at present
  | cons head tail ih =>
      cases i with
      | zero =>
          have same : head = holder := by simpa using present
          simp [same, idle]
      | succ i => simp only [List.eraseIdx_cons_succ, List.flatMap_cons, ih i (by simpa using present)]

end Holders

end Support

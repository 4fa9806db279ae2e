import Mathlib.Data.List.Perm.Basic

/-! What came out of a queue, in order, against what was put into it. -/

namespace Support

variable {Item : Type}

/-- What came out and then what is inside are in the order in which they were put in, and only what
was cancelled is missing. -/
structure PassedOn (put out cancelled inside : List Item) : Prop where
  order : (out ++ inside).Sublist put
  all : put.Perm (out ++ inside ++ cancelled)

theorem passedOn_empty : PassedOn ([] : List Item) [] [] [] :=
  ⟨List.Sublist.slnil, List.Perm.refl _⟩

theorem passedOn_put (put out cancelled inside : List Item) (x : Item)
    (held : PassedOn put out cancelled inside) :
    PassedOn (put ++ [x]) out cancelled (inside ++ [x]) := by
  constructor
  · rw [← List.append_assoc]
    exact held.order.append (List.Sublist.refl [x])
  · calc
      (put ++ [x]).Perm (out ++ inside ++ cancelled ++ [x]) := held.all.append_right [x]
      List.Perm _ (out ++ inside ++ (cancelled ++ [x])) :=
        List.Perm.of_eq (List.append_assoc (out ++ inside) cancelled [x])
      List.Perm _ (out ++ inside ++ ([x] ++ cancelled)) :=
        List.perm_append_comm.append_left (out ++ inside)
      List.Perm _ (out ++ (inside ++ [x]) ++ cancelled) :=
        List.Perm.of_eq (by simp only [List.append_assoc])

theorem passedOn_out (put out cancelled inside : List Item) (x : Item)
    (held : PassedOn put out cancelled (x :: inside)) :
    PassedOn put (out ++ [x]) cancelled inside := by
  have same : out ++ x :: inside = out ++ [x] ++ inside := List.append_cons out x inside
  exact ⟨same ▸ held.order, same ▸ held.all⟩

theorem passedOn_cancel (put out cancelled front back : List Item) (x : Item)
    (held : PassedOn put out cancelled (front ++ x :: back)) :
    PassedOn put out (cancelled ++ [x]) (front ++ back) := by
  constructor
  · have fewer : (out ++ (front ++ back)).Sublist (out ++ (front ++ x :: back)) :=
      ((List.sublist_cons_self x back).append_left front).append_left out
    exact fewer.trans held.order
  · calc
      put.Perm (out ++ (front ++ x :: back) ++ cancelled) := held.all
      List.Perm _ (out ++ (x :: (front ++ back)) ++ cancelled) :=
        (List.perm_middle.append_left out).append_right cancelled
      List.Perm _ (x :: (out ++ (front ++ back)) ++ cancelled) :=
        List.perm_middle.append_right cancelled
      List.Perm _ (out ++ (front ++ back) ++ cancelled ++ [x]) :=
        (List.perm_append_singleton x _).symm
      List.Perm _ (out ++ (front ++ back) ++ (cancelled ++ [x])) :=
        List.Perm.of_eq (List.append_assoc _ cancelled [x])

theorem passedOn_whole (put out inside : List Item) (held : PassedOn put out [] inside) :
    put = out ++ inside := by
  have length := held.all.length_eq
  rw [List.append_nil] at length
  exact (held.order.eq_of_length length.symm).symm

end Support

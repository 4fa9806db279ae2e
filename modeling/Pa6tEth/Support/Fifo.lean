import Pa6tEth.Support.Machine
import Mathlib.Logic.Function.Basic

/-! Queues of waiting items, one a class, and a queue of spares behind them: an offer goes to the
head of its class, else to the first spare that takes offers. -/

namespace Support

/-- A spare is marked as one that takes offers or as one that only waits. -/
structure Fifo (Class Item : Type) where
  waiting : Class → List Item
  spare : List (Item × Bool)

inductive FifoEvent (Class Item Offer : Type)
  | join (c : Class) (x : Item)
  | joinSpare (x : Item) (takes : Bool)
  | leave (x : Item)
  | leaveSpare (x : Item)
  | clear
  | clearSpare
  | offer (c : Class) (f : Offer)
  | reject

inductive FifoOutcome (Item Offer : Type)
  | served (x : Item) (spare : Bool) (f : Offer)
  | dropped

namespace Fifo

section Queues

variable {Class Item Offer : Type} [DecidableEq Class]

def offer (q : Fifo Class Item) (c : Class) (f : Offer) :
    Fifo Class Item × FifoOutcome Item Offer :=
  match q.waiting c with
  | x :: rest => ({ q with waiting := Function.update q.waiting c rest }, .served x false f)
  | [] =>
      match q.spare.find? Prod.snd with
      | some (x, _) => ({ q with spare := q.spare.eraseP Prod.snd }, .served x true f)
      | none => (q, .dropped)

theorem offer_waiters (q : Fifo Class Item) (c : Class) (f : Offer) :
    (q.offer c f).1.spare.filter (fun entry => !entry.2) =
      q.spare.filter fun entry => !entry.2 := by
  have erased : ∀ list : List (Item × Bool),
      (list.eraseP Prod.snd).filter (fun entry => !entry.2) =
        list.filter fun entry => !entry.2 := by
    intro list
    induction list with
    | nil => rfl
    | cons entry rest ih =>
        obtain ⟨x, takes⟩ := entry
        cases takes with
        | true => simp
        | false => simp [ih]
  simp only [offer]
  split
  · rfl
  · split
    · exact erased q.spare
    · rfl

variable [DecidableEq Item]

def step (q : Fifo Class Item) :
    FifoEvent Class Item Offer → Fifo Class Item × List (FifoOutcome Item Offer)
  | .join c x => ({ q with waiting := Function.update q.waiting c (q.waiting c ++ [x]) }, [])
  | .joinSpare x takes => ({ q with spare := q.spare ++ [(x, takes)] }, [])
  | .leave x => ({ q with waiting := fun c => (q.waiting c).erase x }, [])
  | .leaveSpare x => ({ q with spare := q.spare.eraseP fun entry => entry.1 == x }, [])
  | .clear => ({ waiting := fun _ => [], spare := q.spare.filter fun entry => !entry.2 }, [])
  | .clearSpare => ({ q with spare := [] }, [])
  | .offer c f => ((q.offer c f).1, [(q.offer c f).2])
  | .reject => (q, [.dropped])

def run (q : Fifo Class Item) :
    List (FifoEvent Class Item Offer) → Fifo Class Item × List (FifoOutcome Item Offer)
  | [] => (q, [])
  | event :: rest =>
      (((q.step event).1.run rest).1, (q.step event).2 ++ ((q.step event).1.run rest).2)

theorem run_append (q : Fifo Class Item) (first second : List (FifoEvent Class Item Offer)) :
    q.run (first ++ second) =
      (((q.run first).1.run second).1, (q.run first).2 ++ ((q.run first).1.run second).2) := by
  induction first generalizing q with
  | nil => rfl
  | cons event rest ih => simp only [List.cons_append, run, ih, List.append_assoc]

theorem run_one (q : Fifo Class Item) (event : FifoEvent Class Item Offer) :
    q.run [event] = q.step event := by
  simp only [run, List.append_nil]

end Queues

section Outcomes

variable {Item Offer : Type}

def servedIn (outcomes : List (FifoOutcome Item Offer)) : List (Item × Bool × Offer) :=
  outcomes.filterMap fun
    | .served x spare f => some (x, spare, f)
    | .dropped => none

def droppedIn (outcomes : List (FifoOutcome Item Offer)) : Nat :=
  outcomes.countP fun
    | .served _ _ _ => false
    | .dropped => true

theorem servedIn_append (first second : List (FifoOutcome Item Offer)) :
    servedIn (first ++ second) = servedIn first ++ servedIn second := List.filterMap_append

theorem droppedIn_append (first second : List (FifoOutcome Item Offer)) :
    droppedIn (first ++ second) = droppedIn first + droppedIn second := List.countP_append

def offersIn {Class Offer : Type} (events : List (FifoEvent Class Item Offer)) : Nat :=
  events.countP fun
    | .offer _ _ => true
    | _ => false

def rejectsIn {Class Offer : Type} (events : List (FifoEvent Class Item Offer)) : Nat :=
  events.countP fun
    | .reject => true
    | _ => false

theorem offersIn_append {Class Offer : Type} (first second : List (FifoEvent Class Item Offer)) :
    offersIn (first ++ second) = offersIn first + offersIn second := List.countP_append

/-- Every offer is served or dropped, and every reject is dropped. -/
theorem run_accounts {Class : Type} [DecidableEq Class] [DecidableEq Item] (q : Fifo Class Item)
    (events : List (FifoEvent Class Item Offer)) :
    (servedIn (q.run events).2).length + droppedIn (q.run events).2 =
      offersIn events + rejectsIn events := by
  induction events generalizing q with
  | nil => rfl
  | cons event rest ih =>
      have later := ih (q.step event).1
      have first : (servedIn (q.step event).2).length + droppedIn (q.step event).2 =
          offersIn [event] + rejectsIn [event] := by
        cases event with
        | offer c f =>
            simp only [step, offer]
            split
            · rfl
            · split <;> rfl
        | _ => rfl
      have offers := offersIn_append [event] rest
      have rejects : rejectsIn ([event] ++ rest) = rejectsIn [event] + rejectsIn rest :=
        List.countP_append
      rw [List.singleton_append] at offers rejects
      simp only [run, servedIn_append, droppedIn_append, List.length_append]
      omega

end Outcomes

end Fifo

end Support

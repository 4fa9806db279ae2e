import Mathlib.Data.List.Nodup
import Pa6tEth.Support.RegisterFile

/-! Engines that one register enables and that run on what other registers hold, and logs of
accesses that change nothing under a running engine. -/

namespace Support

/-- An engine: the register that enables it, the values of it that do, the registers that it runs
on, and what these have to hold. -/
structure Engine (Reg Value : Type) where
  command : Reg
  enables : Value → Bool
  settings : List Reg
  ready : (Reg → Value) → Prop
  apart : command ∉ settings
  fits : ∀ file other, (∀ reg ∈ settings, file reg = other reg) → ready file → ready other

/-- Writes of these values to these registers, in this order. -/
def writesOf {Reg Value : Type} (values : List (Reg × Value)) : List (RegAccess Reg Value) :=
  values.map fun p => .write p.1 p.2

def HoldsAll {Reg Value : Type} (values : List (Reg × Value)) (file : Reg → Value) : Prop :=
  ∀ p ∈ values, file p.1 = p.2

section Writes

variable {Reg Value : Type} [DecidableEq Reg]

theorem writesOf_other (values : List (Reg × Value)) (file : Reg → Value) (reg : Reg)
    (other : reg ∉ values.map Prod.fst) : fileAfter file (writesOf values) reg = file reg := by
  induction values generalizing file with
  | nil => rfl
  | cons p rest ih =>
      rw [List.map_cons, List.mem_cons, not_or] at other
      calc
        fileAfter file (writesOf (p :: rest)) reg = Function.update file p.1 p.2 reg := ih _ other.2
        _ = file reg := Function.update_of_ne other.1 _ _

theorem writesOf_holds (values : List (Reg × Value)) (file : Reg → Value)
    (once : (values.map Prod.fst).Nodup) : HoldsAll values (fileAfter file (writesOf values)) := by
  induction values generalizing file with
  | nil => exact nofun
  | cons p rest ih =>
      rw [List.map_cons, List.nodup_cons] at once
      intro q member
      rcases List.mem_cons.mp member with rfl | later
      · calc
          fileAfter file (writesOf (q :: rest)) q.1 = Function.update file q.1 q.2 q.1 :=
            writesOf_other rest _ q.1 once.1
          _ = q.2 := Function.update_self _ _ _
      · exact ih _ once.2 q later

end Writes

namespace Engine

variable {Reg Value : Type} (x : Engine Reg Value)

/-- The engine is enabled only where it is ready, and what it runs on stays as it is while it is
enabled. -/
def Allows (file : Reg → Value) : RegAccess Reg Value → Prop
  | .read _ _ => True
  | .write reg value =>
      (reg = x.command → x.enables value = true → x.ready file) ∧
        (reg ∈ x.settings → x.enables (file x.command) = true → value = file reg)

def Alike (file other : Reg → Value) : Prop :=
  ∀ reg, reg = x.command ∨ reg ∈ x.settings → file reg = other reg

theorem allows_alike (file other : Reg → Value) (access : RegAccess Reg Value)
    (alike : x.Alike file other) (allowed : x.Allows other access) : x.Allows file access := by
  cases access with
  | read reg value => trivial
  | write reg value =>
      obtain ⟨enabling, setting⟩ := allowed
      constructor
      · intro own enabled
        exact x.fits other file (fun reg inside => (alike reg (.inr inside)).symm)
          (enabling own enabled)
      · intro inside running
        rw [alike x.command (.inl rfl)] at running
        exact (setting inside running).trans (alike reg (.inr inside)).symm

variable [DecidableEq Reg]

def Obeyed (file : Reg → Value) : List (RegAccess Reg Value) → Prop
  | [] => True
  | access :: rest => x.Allows file access ∧ Obeyed (fileAfter file [access]) rest

def touches : RegAccess Reg Value → Bool
  | .read _ _ => false
  | .write reg _ => reg = x.command ∨ reg ∈ x.settings

theorem obeyed_append (file : Reg → Value) (front back : List (RegAccess Reg Value)) :
    x.Obeyed file (front ++ back) ↔
      x.Obeyed file front ∧ x.Obeyed (fileAfter file front) back := by
  induction front generalizing file with
  | nil => simp [Obeyed, fileAfter]
  | cons access rest ih =>
      have split : fileAfter file (access :: rest) = fileAfter (fileAfter file [access]) rest :=
        fileAfter_append file [access] rest
      simp only [List.cons_append, Obeyed, ih, split, and_assoc]

theorem untouched_allowed (file : Reg → Value) (access : RegAccess Reg Value)
    (aside : x.touches access = false) : x.Allows file access := by
  cases access with
  | read reg value => trivial
  | write reg value =>
      have apart := of_decide_eq_false aside
      exact ⟨fun own => absurd (.inl own) apart, fun inside => absurd (.inr inside) apart⟩

theorem untouched_alike (file other : Reg → Value) (access : RegAccess Reg Value)
    (aside : x.touches access = false) (alike : x.Alike file other) :
    x.Alike (fileAfter file [access]) other := by
  cases access with
  | read reg value => exact alike
  | write reg value =>
      have apart := of_decide_eq_false aside
      intro own inside
      have other_reg : own ≠ reg := fun same => apart (same ▸ inside)
      exact (Function.update_of_ne other_reg _ _).trans (alike own inside)

theorem touched_alike (file other : Reg → Value) (access : RegAccess Reg Value)
    (alike : x.Alike file other) :
    x.Alike (fileAfter file [access]) (fileAfter other [access]) := by
  cases access with
  | read reg value => exact alike
  | write reg value =>
      intro own inside
      by_cases same : own = reg
      · rw [same]
        exact (Function.update_self reg value file).trans (Function.update_self reg value other).symm
      · calc
          Function.update file reg value own = file own := Function.update_of_ne same _ _
          _ = other own := alike own inside
          _ = Function.update other reg value own := (Function.update_of_ne same _ _).symm

theorem obeyed_touches (file other : Reg → Value) (log : List (RegAccess Reg Value))
    (alike : x.Alike file other) (obeyed : x.Obeyed other (log.filter x.touches)) :
    x.Obeyed file log ∧ x.Alike (fileAfter file log) (fileAfter other (log.filter x.touches)) := by
  induction log generalizing file other with
  | nil => exact ⟨trivial, alike⟩
  | cons access rest ih =>
      have split : ∀ file : Reg → Value,
          fileAfter file (access :: rest) = fileAfter (fileAfter file [access]) rest :=
        fun file => fileAfter_append file [access] rest
      cases touched : x.touches access with
      | false =>
          rw [List.filter_cons_of_neg (by simp [touched])] at obeyed ⊢
          have later := ih _ other (x.untouched_alike file other access touched alike) obeyed
          exact ⟨⟨x.untouched_allowed file access touched, later.1⟩, split file ▸ later.2⟩
      | true =>
          rw [List.filter_cons_of_pos touched] at obeyed ⊢
          have later := ih _ _ (x.touched_alike file other access alike) obeyed.2
          refine ⟨⟨x.allows_alike file other access alike obeyed.1, later.1⟩, ?_⟩
          rw [split file]
          exact (fileAfter_append other [access] (rest.filter x.touches)) ▸ later.2

def stopping (stops : List Value) : List (RegAccess Reg Value) := stops.map (.write x.command)

theorem obeyed_stopping (stops : List Value) (file : Reg → Value)
    (off : ∀ value ∈ stops, x.enables value = false) : x.Obeyed file (x.stopping stops) := by
  induction stops generalizing file with
  | nil => trivial
  | cons value rest ih =>
      have here : x.Allows file (.write x.command value) := by
        constructor
        · intro _ enabled
          rw [off value List.mem_cons_self] at enabled
          cases enabled
        · intro inside
          exact absurd inside x.apart
      exact ⟨here, ih _ fun later member => off later (List.mem_cons_of_mem value member)⟩

theorem stopping_off (stops : List Value) (file : Reg → Value) (some : stops ≠ [])
    (off : ∀ value ∈ stops, x.enables value = false) :
    x.enables (fileAfter file (x.stopping stops) x.command) = false := by
  have last : ∀ (stops : List Value) (file : Reg → Value), x.enables (file x.command) = false →
      (∀ value ∈ stops, x.enables value = false) →
      x.enables (fileAfter file (x.stopping stops) x.command) = false := by
    intro stops
    induction stops with
    | nil => exact fun file now _ => now
    | cons value rest ih =>
        intro file now off
        apply ih (Function.update file x.command value)
        · rw [Function.update_self]
          exact off value List.mem_cons_self
        · exact fun later member => off later (List.mem_cons_of_mem value member)
  cases stops with
  | nil => exact absurd rfl some
  | cons value rest =>
      apply last rest (Function.update file x.command value)
      · rw [Function.update_self]
        exact off value List.mem_cons_self
      · exact fun later member => off later (List.mem_cons_of_mem value member)

theorem obeyed_setting (values : List (Reg × Value)) (file : Reg → Value)
    (inside : ∀ p ∈ values, p.1 ∈ x.settings) (off : x.enables (file x.command) = false) :
    x.Obeyed file (writesOf values) := by
  induction values generalizing file with
  | nil => trivial
  | cons p rest ih =>
      have setting := inside p List.mem_cons_self
      have other : x.command ≠ p.1 := fun same => x.apart (same ▸ setting)
      have here : x.Allows file (.write p.1 p.2) := by
        constructor
        · exact fun own => absurd own.symm other
        · intro _ running
          rw [off] at running
          cases running
      refine ⟨here, ih (Function.update file p.1 p.2) ?_ ?_⟩
      · exact fun q member => inside q (List.mem_cons_of_mem p member)
      · rw [Function.update_of_ne other]
        exact off

def Keeps (values : List (Reg × Value)) (log : List (RegAccess Reg Value)) : Prop :=
  ∀ reg value, .write reg value ∈ log → ∀ p ∈ values, p.1 = reg → p.2 = value

theorem obeyed_keeping (values : List (Reg × Value)) (log : List (RegAccess Reg Value))
    (file : Reg → Value) (whole : ∀ reg ∈ x.settings, reg ∈ values.map Prod.fst)
    (ready : ∀ file, HoldsAll values file → x.ready file) (keeps : Keeps values log)
    (holds : HoldsAll values file) :
    x.Obeyed file log ∧ HoldsAll values (fileAfter file log) := by
  induction log generalizing file with
  | nil => exact ⟨trivial, holds⟩
  | cons access rest ih =>
      have later : Keeps values rest := fun reg value member =>
        keeps reg value (List.mem_cons_of_mem access member)
      cases access with
      | read reg value =>
          obtain ⟨obeyed, held⟩ := ih file later holds
          exact ⟨⟨trivial, obeyed⟩, held⟩
      | write reg value =>
          have same : ∀ p ∈ values, p.1 = reg → p.2 = value := keeps reg value List.mem_cons_self
          have here : x.Allows file (.write reg value) := by
            constructor
            · exact fun _ _ => ready file holds
            · intro inside _
              obtain ⟨p, member, own⟩ := List.mem_map.mp (whole reg inside)
              calc
                value = p.2 := (same p member own).symm
                _ = file p.1 := (holds p member).symm
                _ = file reg := congrArg file own
          have next : HoldsAll values (Function.update file reg value) := by
            intro p member
            by_cases own : p.1 = reg
            · rw [own, Function.update_self]
              exact (same p member own).symm
            · rw [Function.update_of_ne own]
              exact holds p member
          obtain ⟨obeyed, held⟩ := ih (Function.update file reg value) later next
          exact ⟨⟨here, obeyed⟩, held⟩

/-- A log that stops the engine, sets it up and then keeps to its settings, with whatever else it
does to other registers. -/
theorem obeyed_life (stops : List Value) (values : List (Reg × Value))
    (tail init life : List (RegAccess Reg Value)) (file : Reg → Value)
    (split : init.filter x.touches = x.stopping stops ++ (writesOf values ++ tail))
    (stopped : stops ≠ []) (off : ∀ value ∈ stops, x.enables value = false)
    (whole : ∀ reg, reg ∈ x.settings ↔ reg ∈ values.map Prod.fst)
    (once : (values.map Prod.fst).Nodup) (ready : ∀ file, HoldsAll values file → x.ready file)
    (tailKeeps : Keeps values tail) (lifeKeeps : Keeps values life) :
    x.Obeyed file (init ++ life) ∧ x.ready (fileAfter file (init ++ life)) := by
  have inside : ∀ p ∈ values, p.1 ∈ x.settings := fun p member =>
    (whole p.1).mpr (List.mem_map_of_mem member)
  have covers : ∀ reg ∈ x.settings, reg ∈ values.map Prod.fst := fun reg => (whole reg).mp
  have idle := x.stopping_off stops file stopped off
  have set := writesOf_holds values (fileAfter file (x.stopping stops)) once
  have tailed := x.obeyed_keeping values tail _ covers ready tailKeeps set
  have touched : x.Obeyed file (init.filter x.touches) := by
    rw [split, obeyed_append, obeyed_append]
    exact ⟨x.obeyed_stopping stops file off, x.obeyed_setting values _ inside idle, tailed.1⟩
  obtain ⟨obeyed, alike⟩ := x.obeyed_touches file file init (fun _ _ => rfl) touched
  have held : HoldsAll values (fileAfter file init) := by
    intro p member
    rw [alike p.1 (.inr (inside p member)), split, fileAfter_append, fileAfter_append]
    exact tailed.2 p member
  have kept := x.obeyed_keeping values life _ covers ready lifeKeeps held
  rw [obeyed_append, fileAfter_append]
  exact ⟨⟨obeyed, kept.1⟩, ready _ kept.2⟩

theorem life_off (stops : List Value) (log : List (RegAccess Reg Value)) (file : Reg → Value)
    (split : log.filter x.touches = x.stopping stops) (stopped : stops ≠ [])
    (off : ∀ value ∈ stops, x.enables value = false) :
    x.enables (fileAfter file log x.command) = false := by
  have touched : x.Obeyed file (log.filter x.touches) :=
    split ▸ x.obeyed_stopping stops file off
  obtain ⟨_, alike⟩ := x.obeyed_touches file file log (fun _ _ => rfl) touched
  rw [alike x.command (.inl rfl), split]
  exact x.stopping_off stops file stopped off

end Engine

end Support

import Pa6tEth.ProcessRx

/-! One call of `_manager_AbortIO` among the steps of all other tasks. -/

namespace Pa6tEth

open Support World

/-- The driver with one call of `AbortIO` that is followed: its index among the calls, the world
before and after each of its sections, and the value that it has returned. -/
structure AbortWatch where
  driver : Driver
  place : Option Nat
  sections : List (World × World)
  returned : Option IoError

/-- The index of a call after a step that is not its own: new calls come first, and a call that
ends leaves the list. -/
def placeAfter (s t : Driver) (i : Nat) : Action → Nat
  | .submit _ _ => i + 1
  | .abortIo _ => i + 1
  | .call j _ => if j < i ∧ t.calls.length < s.calls.length then i - 1 else i
  | _ => i

/-- The value with which `AbortIO` returns from a place; `ok` stands for zero. -/
def Call.abortValue : Call → IoError
  | abortReply _ => .ok
  | _ => .noCmd

def ownSection (s : AbortWatch) (i : Nat) (t : Driver) : AbortWatch :=
  let sections := s.sections ++ [(s.driver.world, t.world)]
  if t.calls.length < s.driver.calls.length then
    ⟨t, none, sections, (s.driver.calls[i]?).map Call.abortValue⟩
  else ⟨t, some i, sections, s.returned⟩

def watchStep (ch : Channels) (s : AbortWatch) (a : Action) : Option AbortWatch :=
  (driverStep ch s.driver a).map fun t =>
    match s.place, a with
    | some i, .call j _ =>
        if j = i then ownSection s i t
        else { s with driver := t, place := some (placeAfter s.driver t i a) }
    | some i, _ => { s with driver := t, place := some (placeAfter s.driver t i a) }
    | none, _ => { s with driver := t }

def watched (s : Driver) (i : Nat) : AbortWatch := ⟨s, some i, [], none⟩

def abortMachine (ch : Channels) : Machine AbortWatch Action where
  start := fun s => ∃ d i, s = watched d i
  step := watchStep ch

def ReadsLack (u : PA6TEthUnit) (r : ReqId) : Prop := ∀ c, ∀ pr ∈ u.readList c, pr.ioreq ≠ r

def PortLacks (u : PA6TEthUnit) (r : ReqId) : Prop := ∀ port, u.ioPort = some port → r ∉ port

def Queued (u : PA6TEthUnit) (r : ReqId) : Prop :=
  ¬ ReadsLack u r ∨ r ∈ u.eventList ∨ ¬ PortLacks u r

/-- The sections up to a removal: those before it change nothing, and it takes the first entry of
the request out of its queue, with its wrapper if it has one, and changes nothing else. -/
inductive AbortFound (r : ReqId) : List (World × World) → Prop
  | read (w : World) (c : ReadClass) (pr : PendingRead) (front back : List PendingRead)
      (queue : w.unit.readList c = front ++ pr :: back) (own : pr.ioreq = r)
      (first : ∀ x ∈ front, x.ioreq ≠ r) :
      AbortFound r [(w, { w with
        unit := w.unit.setReadList (front ++ back) c
        freed := pr.node :: w.freed })]
  | event (a w : World) (front back : List ReqId) (absent : ReadsLack a.unit r)
      (queue : w.unit.eventList = front ++ r :: back) (first : r ∉ front) :
      AbortFound r [(a, a), (w, { w with unit := { w.unit with eventList := front ++ back } })]
  | port (a b w : World) (front back : List ReqId) (absent : ReadsLack a.unit r)
      (absent' : r ∉ b.unit.eventList) (queue : w.unit.ioPort = some (front ++ r :: back))
      (first : r ∉ front) :
      AbortFound r [(a, a), (b, b),
        (w, { w with unit := { w.unit with ioPort := some (front ++ back) } })]

/-- Three sections that find nothing and change nothing. -/
inductive AbortMissed (r : ReqId) : List (World × World) → Prop
  | missed (a b c : World) (reads : ReadsLack a.unit r) (events : r ∉ b.unit.eventList)
      (port : PortLacks c.unit r) : AbortMissed r [(a, a), (b, b), (c, c)]

def abortReplied (r : ReqId) (w : World) : World × World :=
  (w, w.replyMsg r { w.reqs r with error := .aborted } .abortIo)

def ExactAbort (r : ReqId) (sections : List (World × World)) (value : IoError) : Prop :=
  (∃ found w, AbortFound r found ∧ sections = found ++ [abortReplied r w] ∧ value = .ok) ∨
    (AbortMissed r sections ∧ value = .noCmd)

inductive AbortAt (r : ReqId) : List (World × World) → Call → Prop
  | reads : AbortAt r [] (.abortReads r)
  | events (a : World) (absent : ReadsLack a.unit r) : AbortAt r [(a, a)] (.abortEvents r)
  | port (a b : World) (absent : ReadsLack a.unit r) (absent' : r ∉ b.unit.eventList) :
      AbortAt r [(a, a), (b, b)] (.abortPort r)
  | reply (found : List (World × World)) (removed : AbortFound r found) :
      AbortAt r found (.abortReply r)

/-- What the sections are good for when a call is left, and when none is. -/
def AfterSection (r : ReqId) (sections : List (World × World)) (c : Call) : Option Call → Prop
  | some next => AbortAt r sections next
  | none => ExactAbort r sections c.abortValue

theorem findRead_first (u : PA6TEthUnit) (r : ReqId) (c : ReadClass) (pr : PendingRead)
    (found : findRead u r = some (c, pr)) :
    ∃ front back, u.readList c = front ++ pr :: back ∧ pr.ioreq = r ∧
      (∀ x ∈ front, x.ioreq ≠ r) ∧
      (u.readList c).eraseP (fun pr => pr.ioreq == r) = front ++ back := by
  obtain ⟨own, front, back, queue, before⟩ :=
    List.find?_eq_some_iff_append.mp (findRead_found u r c pr found)
  have own' : pr.ioreq = r := by simpa using own
  have before : ∀ x ∈ front, x.ioreq ≠ r := fun x member => by simpa using before x member
  refine ⟨front, back, queue, own', before, ?_⟩
  rw [queue, List.eraseP_append_right _ fun x member => by simpa using before x member]
  simp [own']

theorem findRead_lacks (u : PA6TEthUnit) (r : ReqId) (missing : findRead u r = none) :
    ReadsLack u r := fun c pr member own =>
  findRead_none u r missing c (List.mem_map.mpr ⟨pr, member, own⟩)

theorem abort_section (ch : Channels) (e : CallEnv) (r : ReqId) (w v : World)
    (sections : List (World × World)) (c : Call) (next : Option Call)
    (place : AbortAt r sections c) (stepped : callStep ch e w c = some (v, next)) :
    AfterSection r (sections ++ [(w, v)]) c next := by
  cases place with
  | reads =>
      simp only [callStep] at stepped
      split at stepped
      · rename_i missing
        obtain ⟨rfl, rfl⟩ := Prod.mk.inj (Option.some.inj stepped)
        exact .events w (findRead_lacks _ r missing)
      · rename_i c pr found
        obtain ⟨rfl, rfl⟩ := Prod.mk.inj (Option.some.inj stepped)
        obtain ⟨front, back, queue, own, first, rest⟩ := findRead_first _ r c pr found
        rw [rest]
        exact AbortAt.reply _ (AbortFound.read w c pr front back queue own first)
  | events a absent =>
      simp only [callStep] at stepped
      split at stepped
      · rename_i queued
        obtain ⟨rfl, rfl⟩ := Prod.mk.inj (Option.some.inj stepped)
        obtain ⟨front, back, first, queue, rest⟩ := List.exists_erase_eq queued
        rw [rest]
        exact .reply _ (.event a w front back absent queue first)
      · rename_i missing
        obtain ⟨rfl, rfl⟩ := Prod.mk.inj (Option.some.inj stepped)
        exact .port a w absent missing
  | port a b absent absent' =>
      simp only [callStep] at stepped
      split at stepped
      · rename_i closed
        obtain ⟨rfl, rfl⟩ := Prod.mk.inj (Option.some.inj stepped)
        refine .inr ⟨.missed a b w absent absent' ?_, rfl⟩
        intro port present
        rw [closed] at present
        cases present
      · rename_i port present
        split at stepped
        · rename_i queued
          obtain ⟨rfl, rfl⟩ := Prod.mk.inj (Option.some.inj stepped)
          obtain ⟨front, back, first, queue, rest⟩ := List.exists_erase_eq queued
          rw [rest]
          exact .reply _ (.port a b w front back absent absent' (present.trans (congrArg some queue))
            first)
        · rename_i missing
          obtain ⟨rfl, rfl⟩ := Prod.mk.inj (Option.some.inj stepped)
          refine .inr ⟨.missed a b w absent absent' ?_, rfl⟩
          intro port' present'
          obtain rfl := Option.some.inj (present.symm.trans present')
          exact missing
  | reply found removed =>
      obtain ⟨rfl, rfl⟩ := Prod.mk.inj (Option.some.inj stepped)
      exact .inl ⟨sections, w, removed, rfl, rfl⟩

theorem place_beside (ch : Channels) (s t : Driver) (i : Nat) (c : Call) (a : Action)
    (here : s.calls[i]? = some c) (other : ∀ e, a ≠ .call i e)
    (stepped : driverStep ch s a = some t) : t.calls[placeAfter s t i a]? = some c := by
  have inside : i < s.calls.length := (List.getElem?_eq_some_iff.mp here).1
  cases a with
  | submit r q =>
      obtain ⟨_, rfl⟩ := submit_step ch s t r q stepped
      exact here
  | abortIo r =>
      obtain rfl := Option.some.inj stepped
      exact here
  | call j e =>
      have apart : j ≠ i := by
        rintro rfl
        exact other e rfl
      obtain ⟨c', w, next, present, _, rfl⟩ := call_step ch s t j e stepped
      have bound : j < s.calls.length := (List.getElem?_eq_some_iff.mp present).1
      cases next with
      | some next =>
          simp only [placeAfter, List.length_set, lt_irrefl, and_false, if_false]
          rw [List.getElem?_set_ne apart]
          exact here
      | none =>
          have shorter : (s.calls.eraseIdx j).length < s.calls.length := by
            rw [List.length_eraseIdx_of_lt bound]
            omega
          simp only [placeAfter, shorter, and_true]
          by_cases below : j < i
          · rw [if_pos below, List.getElem?_eraseIdx_of_ge (by omega)]
            rwa [Nat.sub_add_cancel (by omega)]
          · rw [if_neg below, List.getElem?_eraseIdx_of_lt (by omega)]
            exact here
  | task j e =>
      obtain ⟨pc, w, next, _, _, rfl⟩ := task_step ch s t j e stepped
      exact here
  | openDevice bmCookie allocated outcome =>
      rcases open_step ch s t bmCookie allocated outcome stepped with
        rfl | ⟨_, rfl⟩ | ⟨_, _, rfl⟩ | ⟨_, _, rfl⟩ <;> exact here
  | teardown j =>
      obtain ⟨_, rfl⟩ := teardown_step ch s t j stepped
      exact here
  | _ =>
      obtain rfl := Option.some.inj stepped
      exact here

/-- The call is at the place that its sections have led to, or has returned. -/
inductive AbortHeld (r : ReqId) : AbortWatch → Prop
  | inside (d : Driver) (i : Nat) (c : Call) (sections : List (World × World))
      (here : d.calls[i]? = some c) (place : AbortAt r sections c) :
      AbortHeld r ⟨d, some i, sections, none⟩
  | done (d : Driver) (sections : List (World × World)) (v : IoError)
      (exact : ExactAbort r sections v) : AbortHeld r ⟨d, none, sections, some v⟩

theorem ownSection_call (ch : Channels) (e : CallEnv) (d : Driver) (i : Nat) (c : Call) (w : World)
    (next : Option Call) (sections : List (World × World)) (here : d.calls[i]? = some c)
    (moved : callStep ch e d.world c = some (w, next)) :
    watchStep ch ⟨d, some i, sections, none⟩ (.call i e) = some
      (match next with
      | some next =>
          ⟨{ d with world := w, calls := d.calls.set i next }, some i,
            sections ++ [(d.world, w)], none⟩
      | none =>
          ⟨{ d with world := w, calls := d.calls.eraseIdx i }, none,
            sections ++ [(d.world, w)], some c.abortValue⟩) := by
  have inside : i < d.calls.length := (List.getElem?_eq_some_iff.mp here).1
  have ran : driverStep ch d (.call i e) = some
      (match next with
      | some next => { d with world := w, calls := d.calls.set i next }
      | none => { d with world := w, calls := d.calls.eraseIdx i }) := by
    simp only [driverStep, here, moved, Option.map_some]
    cases next <;> rfl
  simp only [watchStep, ran, Option.map_some, if_true]
  cases next with
  | some next => simp only [ownSection, List.length_set, lt_irrefl, if_false]
  | none =>
      have shorter : (d.calls.eraseIdx i).length < d.calls.length := by
        rw [List.length_eraseIdx_of_lt inside]
        omega
      simp only [ownSection, shorter, if_true, here, Option.map_some]

theorem abortHeld_step (ch : Channels) (r : ReqId) (s t : AbortWatch) (a : Action)
    (held : AbortHeld r s) (stepped : watchStep ch s a = some t) : AbortHeld r t := by
  cases held with
  | done d sections v exact =>
      obtain ⟨d', _, rfl⟩ := Option.map_eq_some_iff.mp stepped
      exact .done d' sections v exact
  | inside d i c sections here place =>
      by_cases own : ∃ e, a = .call i e
      · obtain ⟨e, rfl⟩ := own
        obtain ⟨d', ran, _⟩ := Option.map_eq_some_iff.mp stepped
        obtain ⟨c', w, next, here', moved, _⟩ := call_step ch d d' i e ran
        obtain rfl : c = c' := Option.some.inj (here.symm.trans here')
        have after := abort_section ch e r d.world w sections c next place moved
        rw [ownSection_call ch e d i c w next sections here moved] at stepped
        obtain rfl := Option.some.inj stepped
        cases next with
        | some next =>
            refine .inside _ i next _ ?_ after
            exact List.getElem?_set_self (List.getElem?_eq_some_iff.mp here).1
        | none => exact .done _ _ _ after
      · have other : ∀ e, a ≠ .call i e := fun e same => own ⟨e, same⟩
        obtain ⟨d', ran, same⟩ := Option.map_eq_some_iff.mp stepped
        have kept := place_beside ch d d' i c a here other ran
        have same : t = ⟨d', some (placeAfter d d' i a), sections, none⟩ := by
          rw [← same]
          cases a with
          | call j e =>
              have apart : j ≠ i := by
                rintro rfl
                exact other e rfl
              simp only [if_neg apart]
          | _ => rfl
        rw [same]
        exact .inside d' _ c sections kept place

theorem abortAt_length (r : ReqId) (sections : List (World × World)) (c : Call)
    (place : AbortAt r sections c) : sections.length < 4 := by
  cases place with
  | reply found removed => cases removed <;> simp
  | _ => simp

theorem abort_enabled (ch : Channels) (e : CallEnv) (r : ReqId) (w : World)
    (sections : List (World × World)) (c : Call) (place : AbortAt r sections c) :
    ∃ v next, callStep ch e w c = some (v, next) := by
  cases place with
  | reply found removed => exact ⟨_, _, rfl⟩
  | _ =>
      simp only [callStep]
      repeat' split
      all_goals exact ⟨_, _, rfl⟩

def Unbroken (w : World) : List (World × World) → World → Prop
  | [], v => v = w
  | first :: rest, v => first.1 = w ∧ Unbroken first.2 rest v

theorem unbroken_snoc (w v x : World) (sections : List (World × World))
    (unbroken : Unbroken w sections v) : Unbroken w (sections ++ [(v, x)]) x := by
  induction sections generalizing w with
  | nil => exact ⟨unbroken, rfl⟩
  | cons first rest ih => exact ⟨unbroken.1, ih first.2 unbroken.2⟩

theorem alone_returns (ch : Channels) (e : CallEnv) (i : Nat) (r : ReqId) (w : World) (left : Nat)
    (d : Driver) (c : Call) (sections : List (World × World)) (here : d.calls[i]? = some c)
    (place : AbortAt r sections c) (few : sections.length + left = 4)
    (unbroken : Unbroken w sections d.world) :
    ∃ n t v, (abortMachine ch).run ⟨d, some i, sections, none⟩ (List.replicate n (.call i e)) =
        some t ∧ t.returned = some v ∧ ExactAbort r t.sections v ∧
      Unbroken w t.sections t.driver.world := by
  induction left generalizing d c sections with
  | zero =>
      have short := abortAt_length r sections c place
      omega
  | succ left ih =>
      obtain ⟨v, next, moved⟩ := abort_enabled ch e r d.world sections c place
      have stepped : (abortMachine ch).step ⟨d, some i, sections, none⟩ (.call i e) = _ :=
        ownSection_call ch e d i c v next sections here moved
      have after := abort_section ch e r d.world v sections c next place moved
      have onward := unbroken_snoc w d.world v sections unbroken
      cases next with
      | none =>
          refine ⟨1, ⟨{ d with world := v, calls := d.calls.eraseIdx i }, none,
            sections ++ [(d.world, v)], some c.abortValue⟩, _, ?_, rfl, after, onward⟩
          simp only [List.replicate_one, Machine.run, stepped, Option.bind_some]
      | some next =>
          have inside := (List.getElem?_eq_some_iff.mp here).1
          obtain ⟨n, t, value, ran, returned, exact, whole⟩ := ih
            { d with world := v, calls := d.calls.set i next } next _
            (List.getElem?_set_self inside) after (by simp; omega) onward
          refine ⟨n + 1, t, value, ?_, returned, exact, whole⟩
          simp only [List.replicate_succ, Machine.run, stepped, Option.bind_some]
          exact ran

theorem unbroken_queued (r : ReqId) (w v : World) (sections : List (World × World)) (value : IoError)
    (exact : ExactAbort r sections value) (unbroken : Unbroken w sections v) :
    value = .ok ↔ Queued w.unit r := by
  rcases exact with ⟨found, x, removed, rfl, rfl⟩ | ⟨missed, rfl⟩
  · refine iff_of_true rfl ?_
    cases removed with
    | read y c pr front back queue own first =>
        obtain ⟨rfl, _⟩ := unbroken
        exact .inl fun lacks => lacks c pr (by simp [queue]) own
    | event a y front back absent queue first =>
        obtain ⟨rfl, rfl, _⟩ := unbroken
        exact .inr (.inl (by simp [queue]))
    | port a b y front back absent absent' queue first =>
        obtain ⟨rfl, rfl, rfl, _⟩ := unbroken
        exact .inr (.inr fun lacks => lacks _ queue (by simp))
  · refine iff_of_false IoError.noConfusion ?_
    cases missed with
    | missed a b c reads events port =>
        obtain ⟨rfl, rfl, rfl, _⟩ := unbroken
        rintro (read | event | open')
        · exact read reads
        · exact events event
        · exact open' port

/-- Whatever other tasks do between its sections, a call of `AbortIO` takes the first entry of its
request out of one queue, frees its wrapper, replies the request once and returns zero; or it finds
the request in none of its three searches, changes nothing and returns `IOERR_NOCMD`. Every other
entry stays in its queue, in its order. The call can always go on until it returns, and without
interruption it returns zero exactly for a request that was queued. -/
theorem abort_exact (ch : Channels) (s : Driver) (i : Nat) (r : ReqId)
    (here : s.calls[i]? = some (.abortReads r)) :
    (∀ actions t, (abortMachine ch).run (watched s i) actions = some t →
      (∃ v, t.returned = some v ∧ t.place = none ∧ ExactAbort r t.sections v) ∨
      ∃ j c, t.place = some j ∧ t.returned = none ∧ t.driver.calls[j]? = some c ∧
        AbortAt r t.sections c ∧ t.sections.length < 4 ∧
        ∀ e, ∃ u, watchStep ch t (.call j e) = some u ∧
          u.sections.length = t.sections.length + 1) ∧
    ∀ e, ∃ n t v, (abortMachine ch).run (watched s i) (List.replicate n (.call i e)) = some t ∧
      t.returned = some v ∧ (v = .ok ↔ Queued s.world.unit r) := by
  constructor
  · intro actions t ran
    have held := (abortMachine ch).run_invariant (AbortHeld r) (fun _ => True)
      (fun s a t held _ stepped => abortHeld_step ch r s t a held stepped) _ t actions
      (fun _ _ => trivial) (.inside s i _ [] here .reads) ran
    cases held with
    | done d sections v exact => exact .inl ⟨v, rfl, rfl, exact⟩
    | inside d j c sections there place =>
        refine .inr ⟨j, c, rfl, rfl, there, place, abortAt_length r sections c place, fun e => ?_⟩
        obtain ⟨w, next, moved⟩ := abort_enabled ch e r d.world sections c place
        refine ⟨_, ownSection_call ch e d j c w next sections there moved, ?_⟩
        cases next <;> simp
  · intro e
    obtain ⟨n, t, v, ran, returned, exact, unbroken⟩ :=
      alone_returns ch e i r s.world 4 s _ [] here .reads rfl rfl
    exact ⟨n, t, v, ran, returned, unbroken_queued r s.world _ _ v exact unbroken⟩

/-- Three requests in the event list, and a call for the second of them. -/
def abortingDriver : Driver :=
  ⟨{ coldWorld with unit := { coldWorld.unit with eventList := [4, 5, 6] } }, [.abortReads 5], []⟩

/-- The call takes it out and replies it. -/
theorem abort_exact_event :
    ∃ n t, (abortMachine ⟨0, 0, 0⟩).run (watched abortingDriver 0)
        (List.replicate n (.call 0 callEnv)) = some t ∧
      t.returned = some .ok ∧ ExactAbort 5 t.sections .ok := by
  obtain ⟨every, alone⟩ := abort_exact ⟨0, 0, 0⟩ abortingDriver 0 5 rfl
  obtain ⟨n, t, v, ran, returned, right⟩ := alone callEnv
  obtain rfl : v = .ok := right.mpr (.inr (.inl (by decide)))
  refine ⟨n, t, ran, returned, ?_⟩
  rcases every _ t ran with ⟨v', same, _, exact⟩ | ⟨_, _, _, running, _⟩
  · obtain rfl := Option.some.inj (returned.symm.trans same)
    exact exact
  · rw [returned] at running
    cases running

end Pa6tEth

import Pa6tEth.Conservation

/-! `S2_ONEVENT` waiters and the broadcasts of `signal_event`. -/

namespace Pa6tEth

open Support World

def eventOf (online : Bool) : BitVec 32 := if online then s2eventOnline else s2eventOffline

/-- The request waits for the event, by the mask it was submitted with. -/
def waitsFor (event : BitVec 32) (asked : IOSana2Req) : Bool :=
  asked.command == .onEvent && asked.wireError &&& event != 0#32

/-- The walk answers exactly the queued requests that wait for the event, and keeps the others
in their order. -/
def FiresRight (event : BitVec 32) (w v : World) : Prop :=
  v.unit.eventList = w.unit.eventList.filter (fun r => !waitsFor event (w.asked r)) ∧
    ∃ new, v.answers = new ++ w.answers ∧
      (∀ answer ∈ new, waitsFor event (w.asked answer.1) = true) ∧
      ∀ r ∈ w.unit.eventList, waitsFor event (w.asked r) = true →
        ∃ done, (r, .replied (.event event) (w.asked r) done) ∈ new ∧ done.error = .ok ∧
          done.wireError = (w.asked r).wireError &&& event

/-- The step at which a handler calls `signal_event`. -/
def Broadcasts (s : Driver) (event : BitVec 32) : Action → Prop
  | .task i _ => ∃ r ops fin, s.tasks[i]? = some (.handling r (.signalEvent event :: ops) fin)
  | _ => False

def Fires (s : Driver) (a : Action) (t : Driver) : Prop :=
  ∀ event, Broadcasts s event a → FiresRight event s.world t.world

/-- Nobody in the event list waits for the event that the step broadcasts. -/
def Unawaited (s : Driver) (a : Action) (_ : Driver) : Prop :=
  ∀ event, Broadcasts s event a →
    ∀ r ∈ s.world.unit.eventList, waitsFor event (s.world.asked r) = false

def OfCommand : TaskPc → Prop
  | .handling _ ops _ => ∃ online c, ops <:+ (commandOps online c).1
  | _ => True

theorem ofCommand_step (ch : Channels) (e : TaskEnv) (w v : World) (pc next : TaskPc)
    (held : OfCommand pc) (stepped : taskStep ch e w pc = some (v, next)) : OfCommand next := by
  cases next with
  | handling r ops fin =>
      rcases handling_step ch e w v pc r ops fin stepped with ⟨rfl, rfl⟩ | ⟨op, rfl⟩
      · exact ⟨w.unit.online, (w.reqs r).command, List.suffix_refl _⟩
      · obtain ⟨online, c, ending⟩ := held
        exact ⟨online, c, (List.suffix_cons op ops).trans ending⟩
  | _ => trivial

theorem commandOps_announce (now online : Bool) (c : Command) (ops : List TaskOp)
    (ending : ops <:+ (commandOps now c).1) (changes : .setOnline online ∈ ops) :
    .signalEvent (eventOf online) ∈ ops := by
  have up : ∀ ops, ops <:+ goOnline now → .setOnline online ∈ ops →
      .signalEvent (eventOf online) ∈ ops := by
    intro ops ending changes
    cases now with
    | true => simp_all [goOnline]
    | false =>
        simp only [goOnline, Bool.false_eq_true, if_false, List.suffix_cons_iff,
          List.suffix_nil] at ending
        rcases ending with rfl | rfl | rfl | rfl <;> simp_all [eventOf]
  cases c with
  | configInterface => exact up ops ending changes
  | online => exact up ops ending changes
  | offline =>
      simp only [commandOps, List.suffix_cons_iff, List.suffix_nil] at ending
      rcases ending with rfl | rfl | rfl | rfl <;> simp_all [eventOf]
  | cmdFlush =>
      have changed := ending.subset changes
      simp [commandOps] at changed
  | _ => cases ending.subset changes

theorem sweep_none (picked : IOSana2Req → Bool) (answer : IOSana2Req → IOSana2Req) (via : Via)
    (ids : List ReqId) (w : World) (unpicked : ∀ r ∈ ids, picked (w.reqs r) = false) :
    sweep picked answer via ids w = (w, ids) := by
  induction ids with
  | nil => rfl
  | cons r rest ih =>
      have first := unpicked r List.mem_cons_self
      rw [sweep, first, ih fun r' member => unpicked r' (List.mem_cons_of_mem r member)]
      rfl

theorem signalEvent_silent (event : BitVec 32) (w : World)
    (cleared : ∀ r ∈ w.unit.eventList, (w.reqs r).wireError = 0#32) : w.signalEvent event = w := by
  simp only [signalEvent, sweepEvents]
  rw [sweep_none _ _ _ _ _ fun r queued => by simp [cleared r queued]]

theorem firesRight_self (event : BitVec 32) (w : World) :
    FiresRight event w w ↔ ∀ r ∈ w.unit.eventList, waitsFor event (w.asked r) = false := by
  constructor
  · rintro ⟨_, new, same, _, fired⟩ r queued
    by_contra waits
    obtain ⟨done, member, _⟩ := fired r queued (by simpa using waits)
    rw [List.self_eq_append_left.mp same] at member
    cases member
  · intro unawaited
    refine ⟨?_, [], rfl, by simp, ?_⟩
    · exact (List.filter_eq_self.mpr fun r queued => by simp [unawaited r queued]).symm
    · intro r queued waits
      rw [unawaited r queued] at waits
      cases waits

theorem fires_iff (ch : Channels) (s : Driver) (a : Action) (t : Driver)
    (reached : (unitMachine ch).Reached s) (stepped : (unitMachine ch).step s a = some t) :
    Fires s a t ↔ Unawaited s a t := by
  refine forall_congr' fun event => imp_congr_right fun broadcasts => ?_
  cases a with
  | task i e =>
      obtain ⟨r, ops, fin, present⟩ := broadcasts
      obtain ⟨pc, w, next, here, ran, rfl⟩ := task_step ch s t i e stepped
      rw [present] at here
      obtain rfl := Option.some.inj here
      obtain ⟨rfl, rfl⟩ := Prod.mk.inj (Option.some.inj ran)
      have silent : runOp ch e s.world (.signalEvent event) = s.world :=
        signalEvent_silent event s.world fun r queued => (waiting_promise ch s reached r queued).2.2.1
      simp only [silent]
      exact firesRight_self event s.world
  | _ => exact broadcasts.elim

/-- Every change of `online` by a handler is broadcast, and along every run the broadcasts answer
those that wait for them exactly as long as nobody does. -/
theorem events_fire_iff (ch : Channels) (s : Driver) (reached : (unitMachine ch).Reached s) :
    (∀ r ops fin online, .handling r ops fin ∈ s.tasks → .setOnline online ∈ ops →
      .signalEvent (eventOf online) ∈ ops) ∧
    ∀ actions, (unitMachine ch).Along Fires s actions ↔
      (unitMachine ch).Along Unawaited s actions := by
  constructor
  · intro r ops fin online handling changes
    obtain ⟨now, c, ending⟩ := tasks_reached ch OfCommand trivial (ofCommand_step ch) s reached
      _ handling
    exact commandOps_announce now online c ops ending changes
  · exact (unitMachine ch).along_iff Fires Unawaited
      (fun s a t reached stepped => fires_iff ch s a t reached stepped) s reached

/-- The first Open, an event request with this mask, and `S2_CONFIGINTERFACE` up to its
broadcast. -/
def waitThenOnline (mask : BitVec 32) : List Action :=
  .openDevice 0x77 true .started :: submitted 2 (request .onEvent 0#32 0 mask) ++
    submitted 1 (request .configInterface 0#32 0 0#32) ++ List.replicate 7 (.task 0 taskEnv)

/-- A waiter for the offline event lets the online broadcast pass. -/
theorem events_fire_offline :
    ∃ s, (unitMachine ⟨0, 0, 0⟩).Reached s ∧ Broadcasts s s2eventOnline (.task 0 taskEnv) ∧
      s.world.unit.eventList = [2] ∧
      (unitMachine ⟨0, 0, 0⟩).Along Fires s [.task 0 taskEnv] := by
  obtain ⟨s, reached, shape⟩ := (unitMachine ⟨0, 0, 0⟩).run_shape
    (fun s => (s.tasks, s.world.unit.eventList, (s.world.asked 2).wireError))
    ([.handling 1 [.signalEvent s2eventOnline] ⟨.ok, some 0#32⟩], [2], s2eventOffline)
    coldDriver (waitThenOnline s2eventOffline)
    (.start _ coldDriver_cold) (by decide +kernel)
  simp only [Prod.mk.injEq] at shape
  obtain ⟨tasks, queue, mask⟩ := shape
  refine ⟨s, reached, ⟨1, [], _, by rw [tasks]; rfl⟩, queue, ?_⟩
  refine ((events_fire_iff ⟨0, 0, 0⟩ s reached).2 [.task 0 taskEnv]).mpr fun t _ => ⟨?_, trivial⟩
  rintro event ⟨r, ops, fin, present⟩ r' queued
  have here : event = s2eventOnline := by simp_all
  have only : r' = 2 := by simpa [queue] using queued
  rw [here, only, waitsFor, mask]
  simp [s2eventOnline, s2eventOffline]

/-- A waiter for the online event is not answered when the unit goes online. -/
theorem online_event_missed :
    ∃ s t, (unitMachine ⟨0, 0, 0⟩).Reached s ∧
      (unitMachine ⟨0, 0, 0⟩).step s (.task 0 taskEnv) = some t ∧
      ¬ Fires s (.task 0 taskEnv) t := by
  obtain ⟨s, reached, shape⟩ := (unitMachine ⟨0, 0, 0⟩).run_shape
    (fun s => (s.tasks, waitsFor s2eventOnline (s.world.asked 2),
      (driverStep ⟨0, 0, 0⟩ s (.task 0 taskEnv)).map fun t => t.world.unit.eventList))
    ([.handling 1 [.signalEvent s2eventOnline] ⟨.ok, some 0#32⟩], true, some [2])
    coldDriver (waitThenOnline s2eventOnline)
    (.start _ coldDriver_cold) (by decide +kernel)
  simp only [Prod.mk.injEq, Option.map_eq_some_iff] at shape
  obtain ⟨tasks, waits, t, stepped, queue⟩ := shape
  refine ⟨s, t, reached, stepped, fun fires => ?_⟩
  have left := (fires s2eventOnline ⟨1, [], _, by rw [tasks]; rfl⟩).1
  have kept : 2 ∈ t.world.unit.eventList := by simp [queue]
  rw [left, List.mem_filter, waits] at kept
  simp at kept

end Pa6tEth

import Pa6tEth.RxSweep
import Pa6tEth.Conservation
import Pa6tEth.Lifecycle

/-! The unit task runs at a priority above its clients: what it does when nobody else runs. -/

namespace Pa6tEth

open Support World

def occupied (u : UnitRx) : Nat := u.rxRing.count owned

namespace World

def queueLength (w : World) : Nat := (w.unit.ioPort.getD []).length

def turnSteps (w : World) : Nat :=
  if w.signals.pending then 8 * w.queueLength + 3 * occupied w.unit.rx + 10 else 0

def headSteps (w : World) : Nat := w.turnSteps + 2 * w.queueLength + 5

def drainSteps (w : World) : Nat := 6 * w.queueLength + 3 * occupied w.unit.rx + w.headSteps

end World

namespace TaskPc

def stepsLeft (w : World) : TaskPc → Nat
  | loopHead => w.headSteps
  | waiting => w.turnSteps
  | woken => w.drainSteps + 4
  | draining => w.drainSteps + 3
  | received _ => w.drainSteps + 8
  | handling _ ops _ => w.drainSteps + ops.length + 4
  | rxStart => 3 * occupied w.unit.rx + w.headSteps + 2
  | rxLoop _ => 3 * occupied w.unit.rx + w.headSteps + 1
  | rxDeliver v g _ _ _ => 3 * occupied (nextDesc w.unit.rx v g).1 + w.headSteps + 3
  | rxNext v g => 3 * occupied (nextDesc w.unit.rx v g).1 + w.headSteps + 2
  | exitDrain => 2 * w.queueLength + 3
  | exitReply _ => 2 * w.queueLength + 4
  | exitFlush => 2
  | exitFlushEvents => 1
  | drained => 0

def opsLeft : TaskPc → Nat
  | handling _ ops _ => ops.length
  | _ => 0

/-- The task has gone past its command loop and comes to `Wait` before it looks at the port. -/
def pastQueue : TaskPc → Bool
  | loopHead => true
  | waiting => true
  | rxStart => true
  | rxLoop _ => true
  | rxDeliver _ _ _ _ _ => true
  | rxNext _ _ => true
  | _ => false

def pastDrain : TaskPc → Bool
  | exitFlush => true
  | exitFlushEvents => true
  | drained => true
  | _ => false

/-- The task waits without a signal, or its body has done its last drain. -/
def AtRest : World × TaskPc → Prop
  | (w, waiting) => w.signals.pending = false
  | (_, drained) => True
  | _ => False

end TaskPc

structure Quieter (w v : World) : Prop where
  queue : v.queueLength ≤ w.queueLength
  ring : occupied v.unit.rx ≤ occupied w.unit.rx
  signals : v.signals.pending = true → w.signals.pending = true
  port : w.unit.ioPort ≠ none → v.unit.ioPort ≠ none
  reads : ∀ c, v.unit.readList c ⊆ w.unit.readList c
  events : v.unit.eventList ⊆ w.unit.eventList

theorem quieter_refl (w : World) : Quieter w w :=
  ⟨Nat.le_refl _, Nat.le_refl _, id, id, fun _ => List.Subset.refl _, List.Subset.refl _⟩

theorem turnSteps_le (w v : World) (quieter : Quieter w v) : v.turnSteps ≤ w.turnSteps := by
  have queue := quieter.queue
  have ring := quieter.ring
  simp only [turnSteps]
  split
  · rename_i pending
    rw [if_pos (quieter.signals pending)]
    omega
  · exact Nat.zero_le _

theorem headSteps_le (w v : World) (quieter : Quieter w v) : v.headSteps ≤ w.headSteps := by
  have queue := quieter.queue
  have turn := turnSteps_le w v quieter
  simp only [headSteps]
  omega

theorem drainSteps_le (w v : World) (quieter : Quieter w v) : v.drainSteps ≤ w.drainSteps := by
  have queue := quieter.queue
  have ring := quieter.ring
  have head := headSteps_le w v quieter
  simp only [drainSteps]
  omega

theorem quieter_same (w v : World) (port : v.unit.ioPort = w.unit.ioPort)
    (signals : v.signals = w.signals) (ring : v.unit.rx.rxRing = w.unit.rx.rxRing)
    (reads : ∀ c, v.unit.readList c ⊆ w.unit.readList c)
    (events : v.unit.eventList ⊆ w.unit.eventList) : Quieter w v where
  queue := by simp only [queueLength, port, Nat.le_refl]
  ring := by simp only [occupied, ring, Nat.le_refl]
  signals := by rw [signals]; exact id
  port := by rw [port]; exact id
  reads := reads
  events := events

theorem occupied_next (u : UnitRx) (v : RxLoop) (g : RxGroup) :
    occupied (nextDesc u v g).1 ≤ occupied u := by
  apply Ring.count_le
  intro index
  rw [nextDesc_get]
  split
  · intro zero
    exact absurd zero (by decide)
  · exact id

/-- It clears the first slot of the group that it was given. -/
theorem occupied_fetched (u : UnitRx) (v : RxLoop) (g g' : RxGroup)
    (fetched : fetchGroup u v.n = some g') : occupied (nextDesc u v g).1 < occupied u := by
  apply Ring.count_lt owned u.rxRing _ v.n _ (fetchGroup_owned u v.n g' fetched)
  · rw [nextDesc_get]
    simp only [or_true, if_true]
    decide
  · intro index
    rw [nextDesc_get]
    split
    · intro zero
      exact absurd zero (by decide)
    · exact id

theorem occupied_congr (u u' : UnitRx) (v : RxLoop) (g : RxGroup) (same : u'.rxRing = u.rxRing) :
    occupied (nextDesc u' v g).1 = occupied (nextDesc u v g).1 := by
  simp only [occupied, nextDesc_rxRing, same]

theorem commandOps_length (online : Bool) (c : Command) : (commandOps online c).1.length ≤ 3 := by
  cases online <;> cases c <;> simp [commandOps, goOnline]

theorem occupied_arm (ch : Channels) (e : ArmEnv) (u : UnitRx) :
    occupied (postRxBuffers ch e u).1 ≤ occupied u := by
  by_cases armed : ringsReady u = true ∧ mapsNext e.buf u = true
  · rw [postRxBuffers_granted ch e u armed.1 armed.2]
    apply Ring.count_le
    intro index
    rw [armRings_rxRing]
    intro zero
    exact absurd zero (by decide)
  · have refused : ringsReady u = false ∨ mapsNext e.buf u = false := by
      rw [not_and_or] at armed
      simpa using armed
    simp only [occupied, (postRxBuffers_refused ch e u refused).2.1, Nat.le_refl]

theorem quieter_sweepEvents (picked : IOSana2Req → Bool) (answer : IOSana2Req → IOSana2Req)
    (via : Via) (w : World) : Quieter w (w.sweepEvents picked answer via) := by
  have signals : (w.sweepEvents picked answer via).signals = w.signals :=
    congrArg Prod.snd (sweepEvents_session picked answer via w)
  have unit := sweepEvents_unit picked answer via w
  refine quieter_same w _ (by rw [unit]) signals (by rw [unit]) ?_ ?_
  · rw [unit]
    intro c
    cases c <;> exact List.Subset.refl _
  · rw [unit]
    exact sweep_subset picked answer via w.unit.eventList w

theorem quieter_flushReadQueue (error : IoError) (w : World) :
    Quieter w (w.flushReadQueue error) := by
  have signals : (w.flushReadQueue error).signals = w.signals :=
    congrArg Prod.snd (flushReadQueue_session error w)
  have rx : (w.flushReadQueue error).unit.rx = w.unit.rx := by
    simp only [World.flushReadQueue, sweepEvents_unit, flushRead_unit, PA6TEthUnit.setReadList_rx]
  refine quieter_same w _ (flushReadQueue_port error w) signals (by rw [rx]) (fun c => ?_)
    (flushReadQueue_calm error w).events
  rw [flushReadQueue_reads]
  exact List.nil_subset _

theorem quieter_op (ch : Channels) (e : TaskEnv) (w : World) (op : TaskOp) :
    Quieter w (runOp ch e w op) := by
  cases op with
  | setOnline online =>
      exact quieter_same w _ rfl rfl rfl (fun c => by cases c <;> exact List.Subset.refl _)
        (List.Subset.refl _)
  | postRxBuffers =>
      exact ⟨Nat.le_refl _, occupied_arm ch e.arm w.unit.rx, id, id,
        fun c => by cases c <;> exact List.Subset.refl _, List.Subset.refl _⟩
  | flushReadQueue error => exact quieter_flushReadQueue error w
  | signalEvent mask => exact quieter_sweepEvents _ _ _ w

theorem quieter_offer (w : World) (v : RxLoop) (g : RxGroup) (f : RxFrame) :
    Quieter w (offerFrame w v g f).1 := by
  have calm := offer_calm w v g f
  simp only [offerFrame] at calm ⊢
  split
  · rename_i pr rest taken
    simp only [taken] at calm
    have head := takeReader_read _ _ _ _ _ taken
    refine quieter_same w _ ?_ rfl ?_ (fun c => ?_) calm.events
    · exact PA6TEthUnit.setReadList_ioPort _ _ _
    · simp only [PA6TEthUnit.setReadList_rx]
    · rw [PA6TEthUnit.readList_setReadList]
      split
      · rename_i same
        rw [same, head]
        exact List.subset_cons_self pr rest
      · cases c <;> exact List.Subset.refl _
  · rename_i r rest taken
    simp only [taken] at calm
    exact quieter_same w _ rfl rfl rfl (fun c => by cases c <;> exact List.Subset.refl _) calm.events
  · exact quieter_same w _ rfl rfl rfl (fun c => by cases c <;> exact List.Subset.refl _)
      (List.Subset.refl _)

theorem quieter_rxBody (ch : Channels) (w : World) (v : RxLoop) : Quieter w (rxBody ch w v).1 := by
  simp only [rxBody]
  split
  · exact quieter_same w _ rfl rfl rfl (fun c => by cases c <;> exact List.Subset.refl _)
      (List.Subset.refl _)
  · split
    · exact quieter_same w _ rfl rfl rfl (fun c => by cases c <;> exact List.Subset.refl _)
        (List.Subset.refl _)
    · exact quieter_offer w v _ _

theorem rxBody_leaves (ch : Channels) (w : World) (v : RxLoop) :
    (rxBody ch w v).1.unit.rx.rxRing = w.unit.rx.rxRing ∧
      (rxBody ch w v).1.unit.ioPort = w.unit.ioPort ∧ (rxBody ch w v).1.signals = w.signals := by
  simp only [rxBody, offerFrame]
  repeat' split
  all_goals simp [dropGroup, leaveRing, PA6TEthUnit.setReadList_rx, PA6TEthUnit.setReadList_ioPort]

theorem quieter_take (w : World) (r : ReqId) (rest : List ReqId)
    (queue : w.unit.ioPort = some (r :: rest)) :
    Quieter w { w with unit := { w.unit with ioPort := some rest } } where
  queue := by simp [queueLength, queue]
  ring := Nat.le_refl _
  signals := id
  port := fun _ absent => by cases absent
  reads := fun c => by cases c <;> exact List.Subset.refl _
  events := List.Subset.refl _

theorem task_quieter (ch : Channels) (e : TaskEnv) (w v : World) (pc next : TaskPc)
    (stepped : taskStep ch e w pc = some (v, next)) : Quieter w v := by
  cases pc with
  | waiting =>
      simp only [taskStep] at stepped
      split at stepped
      · obtain ⟨rfl, rfl⟩ := Prod.mk.inj (Option.some.inj stepped)
        exact ⟨Nat.le_refl _, Nat.le_refl _, fun pending => Bool.noConfusion pending, id,
          fun _ => List.Subset.refl _, List.Subset.refl _⟩
      · cases stepped
  | woken =>
      obtain ⟨rfl, rfl⟩ := Prod.mk.inj (Option.some.inj stepped)
      refine ⟨Nat.le_refl _, Nat.le_refl _, fun pending => ?_, id,
        fun _ => List.Subset.refl _, List.Subset.refl _⟩
      simp only [Signals.pending, Bool.or_false] at pending ⊢
      rw [pending, Bool.true_or, Bool.true_or]
  | draining =>
      simp only [taskStep] at stepped
      split at stepped
      · cases stepped
      · obtain ⟨rfl, rfl⟩ := Prod.mk.inj (Option.some.inj stepped)
        exact quieter_refl w
      · rename_i r rest queue
        obtain ⟨rfl, rfl⟩ := Prod.mk.inj (Option.some.inj stepped)
        exact quieter_take w r rest queue
  | handling r ops fin =>
      cases ops with
      | nil =>
          obtain ⟨rfl, rfl⟩ := Prod.mk.inj (Option.some.inj stepped)
          exact quieter_same w _ rfl rfl rfl (fun _ => List.Subset.refl _) (List.Subset.refl _)
      | cons op ops =>
          obtain ⟨rfl, rfl⟩ := Prod.mk.inj (Option.some.inj stepped)
          exact quieter_op ch e w op
  | rxLoop loop =>
      obtain ⟨rfl, rfl⟩ := Prod.mk.inj (Option.some.inj stepped)
      exact quieter_rxBody ch w loop
  | rxNext loop g =>
      obtain ⟨rfl, rfl⟩ := Prod.mk.inj (Option.some.inj stepped)
      exact ⟨Nat.le_refl _, occupied_next w.unit.rx loop g, id, id,
        fun c => by cases c <;> exact List.Subset.refl _, List.Subset.refl _⟩
  | exitDrain =>
      simp only [taskStep] at stepped
      split at stepped
      · cases stepped
      · obtain ⟨rfl, rfl⟩ := Prod.mk.inj (Option.some.inj stepped)
        exact quieter_refl w
      · rename_i r rest queue
        obtain ⟨rfl, rfl⟩ := Prod.mk.inj (Option.some.inj stepped)
        exact quieter_take w r rest queue
  | exitFlush =>
      obtain ⟨rfl, rfl⟩ := Prod.mk.inj (Option.some.inj stepped)
      exact quieter_flushReadQueue .aborted w
  | exitFlushEvents =>
      obtain ⟨rfl, rfl⟩ := Prod.mk.inj (Option.some.inj stepped)
      exact quieter_sweepEvents _ _ _ w
  | drained => cases stepped
  | _ =>
      obtain ⟨rfl, rfl⟩ := Prod.mk.inj (Option.some.inj stepped)
      exact quieter_same w _ rfl rfl rfl (fun _ => List.Subset.refl _) (List.Subset.refl _)

theorem queueLength_take (w v : World) (r : ReqId) (rest : List ReqId)
    (queue : w.unit.ioPort = some (r :: rest))
    (taken : { w with unit := { w.unit with ioPort := some rest } } = v) :
    w.queueLength = v.queueLength + 1 := by
  rw [← taken]
  simp [queueLength, queue]

theorem rxLoop_lowers (ch : Channels) (w v : World) (loop : RxLoop) (next : TaskPc)
    (body : rxBody ch w loop = (v, next)) :
    next.stepsLeft v < (TaskPc.rxLoop loop).stepsLeft w := by
  have quieter := quieter_rxBody ch w loop
  have ring := (rxBody_leaves ch w loop).1
  rw [body] at quieter ring
  have head := headSteps_le w v quieter
  cases fetched : fetchGroup w.unit.rx loop.n with
  | none =>
      have left : next = .loopHead := by
        simp only [rxBody, fetched] at body
        exact (Prod.mk.inj body).2.symm
      simp only [left, TaskPc.stepsLeft]
      omega
  | some g =>
      have cleared := occupied_fetched w.unit.rx loop g g fetched
      have same := occupied_congr w.unit.rx v.unit.rx loop g ring
      have ends : next = .rxNext loop g ∨ ∃ f r orphan, next = .rxDeliver loop g f r orphan := by
        have goes := congrArg Prod.snd body
        simp only [rxBody, fetched, offerFrame] at goes
        repeat' split at goes
        all_goals first
          | exact .inl goes.symm
          | exact .inr ⟨_, _, _, goes.symm⟩
      rcases ends with rfl | ⟨f, r, orphan, rfl⟩
      · simp only [TaskPc.stepsLeft, same]
        omega
      · simp only [TaskPc.stepsLeft, same]
        omega

theorem task_lowers (ch : Channels) (e : TaskEnv) (w v : World) (pc next : TaskPc)
    (stepped : taskStep ch e w pc = some (v, next)) : next.stepsLeft v < pc.stepsLeft w := by
  have quieter := task_quieter ch e w v pc next stepped
  have queue := quieter.queue
  have ring := quieter.ring
  have turn := turnSteps_le w v quieter
  have head := headSteps_le w v quieter
  have drain := drainSteps_le w v quieter
  cases pc with
  | loopHead =>
      obtain ⟨rfl, rfl⟩ := Prod.mk.inj (Option.some.inj stepped)
      split
      · simp only [TaskPc.stepsLeft, headSteps]
        omega
      · simp only [TaskPc.stepsLeft, headSteps]
        omega
  | waiting =>
      simp only [taskStep] at stepped
      split at stepped
      · rename_i pending
        obtain ⟨same, rfl⟩ := Prod.mk.inj (Option.some.inj stepped)
        have silent : v.turnSteps = 0 := by
          rw [← same]
          rfl
        have loud : w.turnSteps = 8 * w.queueLength + 3 * occupied w.unit.rx + 10 := if_pos pending
        simp only [TaskPc.stepsLeft, drainSteps, headSteps, silent, loud]
        omega
      · cases stepped
  | woken =>
      obtain ⟨same, rfl⟩ := Prod.mk.inj (Option.some.inj stepped)
      split
      · simp only [TaskPc.stepsLeft, drainSteps, headSteps]
        omega
      · simp only [TaskPc.stepsLeft]
        omega
  | draining =>
      simp only [taskStep] at stepped
      split at stepped
      · cases stepped
      · obtain ⟨same, rfl⟩ := Prod.mk.inj (Option.some.inj stepped)
        simp only [TaskPc.stepsLeft, drainSteps]
        omega
      · rename_i r rest messages
        obtain ⟨same, rfl⟩ := Prod.mk.inj (Option.some.inj stepped)
        have taken := queueLength_take w v r rest messages same
        simp only [TaskPc.stepsLeft, drainSteps]
        omega
  | received r =>
      obtain ⟨same, rfl⟩ := Prod.mk.inj (Option.some.inj stepped)
      have few := commandOps_length w.unit.online (w.reqs r).command
      simp only [TaskPc.stepsLeft]
      omega
  | handling r ops fin =>
      cases ops with
      | nil =>
          obtain ⟨same, rfl⟩ := Prod.mk.inj (Option.some.inj stepped)
          simp only [TaskPc.stepsLeft]
          omega
      | cons op ops =>
          obtain ⟨same, rfl⟩ := Prod.mk.inj (Option.some.inj stepped)
          simp only [TaskPc.stepsLeft, List.length_cons]
          omega
  | rxStart =>
      obtain ⟨same, rfl⟩ := Prod.mk.inj (Option.some.inj stepped)
      split
      · simp only [TaskPc.stepsLeft]
        omega
      · simp only [TaskPc.stepsLeft]
        omega
  | rxLoop loop =>
      have body : rxBody ch w loop = (v, next) := Option.some.inj stepped
      exact rxLoop_lowers ch w v loop next body
  | rxDeliver loop g f r orphan =>
      obtain ⟨same, rfl⟩ := Prod.mk.inj (Option.some.inj stepped)
      have rx : v.unit.rx = w.unit.rx := by
        rw [← same]
        rfl
      simp only [TaskPc.stepsLeft, rx]
      omega
  | rxNext loop g =>
      obtain ⟨same, rfl⟩ := Prod.mk.inj (Option.some.inj stepped)
      have rx : v.unit.rx = (nextDesc w.unit.rx loop g).1 := by rw [← same]
      simp only [TaskPc.stepsLeft, rx]
      omega
  | exitDrain =>
      simp only [taskStep] at stepped
      split at stepped
      · cases stepped
      · obtain ⟨same, rfl⟩ := Prod.mk.inj (Option.some.inj stepped)
        simp only [TaskPc.stepsLeft]
        omega
      · rename_i r rest messages
        obtain ⟨same, rfl⟩ := Prod.mk.inj (Option.some.inj stepped)
        have taken := queueLength_take w v r rest messages same
        simp only [TaskPc.stepsLeft]
        omega
  | exitReply r =>
      obtain ⟨same, rfl⟩ := Prod.mk.inj (Option.some.inj stepped)
      simp only [TaskPc.stepsLeft]
      omega
  | exitFlush =>
      obtain ⟨same, rfl⟩ := Prod.mk.inj (Option.some.inj stepped)
      exact Nat.lt_add_one 1
  | exitFlushEvents =>
      obtain ⟨same, rfl⟩ := Prod.mk.inj (Option.some.inj stepped)
      exact Nat.lt_add_one 0
  | drained => cases stepped

/-- The port is there, and messages in it have been signalled unless the task will look anyway. -/
structure PortTold (w : World) (pc : TaskPc) : Prop where
  port : w.unit.ioPort ≠ none
  told : pc.pastQueue = true → w.unit.ioPort ≠ some [] → w.signals.port = true

theorem portTold_task (ch : Channels) (e : TaskEnv) (w v : World) (pc next : TaskPc)
    (told : PortTold w pc) (stepped : taskStep ch e w pc = some (v, next)) : PortTold v next := by
  refine ⟨(task_quieter ch e w v pc next stepped).port told.port, fun past messages => ?_⟩
  cases pc with
  | loopHead =>
      obtain ⟨rfl, rfl⟩ := Prod.mk.inj (Option.some.inj stepped)
      exact told.told rfl messages
  | waiting =>
      simp only [taskStep] at stepped
      split at stepped
      · obtain ⟨rfl, rfl⟩ := Prod.mk.inj (Option.some.inj stepped)
        cases past
      · cases stepped
  | woken =>
      obtain ⟨rfl, rfl⟩ := Prod.mk.inj (Option.some.inj stepped)
      split at past
      · cases past
      · cases past
  | draining =>
      simp only [taskStep] at stepped
      split at stepped
      · cases stepped
      · rename_i empty
        obtain ⟨rfl, rfl⟩ := Prod.mk.inj (Option.some.inj stepped)
        exact absurd empty messages
      · obtain ⟨rfl, rfl⟩ := Prod.mk.inj (Option.some.inj stepped)
        cases past
  | handling r ops fin =>
      cases ops with
      | nil =>
          obtain ⟨rfl, rfl⟩ := Prod.mk.inj (Option.some.inj stepped)
          cases past
      | cons op ops =>
          obtain ⟨rfl, rfl⟩ := Prod.mk.inj (Option.some.inj stepped)
          cases past
  | rxStart =>
      obtain ⟨rfl, rfl⟩ := Prod.mk.inj (Option.some.inj stepped)
      exact told.told rfl messages
  | rxLoop loop =>
      have body : rxBody ch w loop = (v, next) := Option.some.inj stepped
      obtain ⟨_, port, signals⟩ := rxBody_leaves ch w loop
      rw [body] at port signals
      rw [signals]
      exact told.told rfl (port ▸ messages)
  | rxDeliver loop g f r orphan =>
      obtain ⟨rfl, rfl⟩ := Prod.mk.inj (Option.some.inj stepped)
      exact told.told rfl messages
  | rxNext loop g =>
      obtain ⟨rfl, rfl⟩ := Prod.mk.inj (Option.some.inj stepped)
      exact told.told rfl messages
  | exitDrain =>
      simp only [taskStep] at stepped
      split at stepped
      · cases stepped
      · obtain ⟨rfl, rfl⟩ := Prod.mk.inj (Option.some.inj stepped)
        cases past
      · obtain ⟨rfl, rfl⟩ := Prod.mk.inj (Option.some.inj stepped)
        cases past
  | drained => cases stepped
  | _ =>
      obtain ⟨rfl, rfl⟩ := Prod.mk.inj (Option.some.inj stepped)
      cases past

theorem portTold_call (ch : Channels) (e : CallEnv) (w v : World) (c : Call) (next : Option Call)
    (pc : TaskPc) (told : PortTold w pc) (stepped : callStep ch e w c = some (v, next)) :
    PortTold v pc := by
  cases c with
  | beginIo r =>
      obtain ⟨rfl, rfl⟩ := Prod.mk.inj (Option.some.inj stepped)
      obtain ⟨q, openers, reports, same⟩ := beginIo_frame e w r
      rw [same]
      exact ⟨told.port, told.told⟩
  | replying r err werr sent =>
      obtain ⟨rfl, rfl⟩ := Prod.mk.inj (Option.some.inj stepped)
      obtain ⟨unit, signals⟩ : (w.replyIoreq r err werr).unit = w.unit ∧
          (w.replyIoreq r err werr).signals = w.signals := by
        simp only [replyIoreq]
        split <;> exact ⟨rfl, rfl⟩
      exact ⟨unit ▸ told.port, by rw [unit, signals]; exact told.told⟩
  | queueing r =>
      obtain ⟨w', put, same⟩ := Option.map_eq_some_iff.mp stepped
      obtain ⟨rfl, rfl⟩ := Prod.mk.inj same
      obtain ⟨port, present, rfl⟩ := Option.map_eq_some_iff.mp put
      exact ⟨fun absent => (by cases absent), fun _ _ => rfl⟩
  | transmitting r =>
      simp only [callStep] at stepped
      split at stepped
      · obtain ⟨rfl, rfl⟩ := Prod.mk.inj (Option.some.inj stepped)
        exact ⟨told.port, told.told⟩
      · obtain ⟨rfl, rfl⟩ := Prod.mk.inj (Option.some.inj stepped)
        exact ⟨told.port, told.told⟩
  | addingRead pr c =>
      obtain ⟨rfl, rfl⟩ := Prod.mk.inj (Option.some.inj stepped)
      have port : (w.unit.setReadList (w.unit.readList c ++ [pr]) c).ioPort = w.unit.ioPort :=
        PA6TEthUnit.setReadList_ioPort _ _ _
      refine ⟨?_, fun past messages => ?_⟩
      · rw [port]
        exact told.port
      · rw [port] at messages
        exact told.told past messages
  | signalling =>
      obtain ⟨rfl, rfl⟩ := Prod.mk.inj (Option.some.inj stepped)
      refine ⟨told.port, fun past messages => ?_⟩
      have signalled := told.told past messages
      split
      · exact signalled
      · exact signalled
  | abortReads r =>
      simp only [callStep] at stepped
      split at stepped
      · obtain ⟨rfl, rfl⟩ := Prod.mk.inj (Option.some.inj stepped)
        exact told
      · rename_i c pr found
        obtain ⟨rfl, rfl⟩ := Prod.mk.inj (Option.some.inj stepped)
        cases c <;> exact ⟨told.port, told.told⟩
  | abortEvents r =>
      simp only [callStep] at stepped
      split at stepped
      · obtain ⟨rfl, rfl⟩ := Prod.mk.inj (Option.some.inj stepped)
        exact ⟨told.port, told.told⟩
      · obtain ⟨rfl, rfl⟩ := Prod.mk.inj (Option.some.inj stepped)
        exact told
  | abortPort r =>
      simp only [callStep] at stepped
      split at stepped
      · obtain ⟨rfl, rfl⟩ := Prod.mk.inj (Option.some.inj stepped)
        exact told
      · rename_i port present
        split at stepped
        · obtain ⟨rfl, rfl⟩ := Prod.mk.inj (Option.some.inj stepped)
          refine ⟨fun absent => (by cases absent), fun past messages => told.told past ?_⟩
          rw [present]
          intro empty
          obtain rfl := Option.some.inj empty
          exact messages rfl
        · obtain ⟨rfl, rfl⟩ := Prod.mk.inj (Option.some.inj stepped)
          exact told
  | _ =>
      obtain ⟨rfl, rfl⟩ := Prod.mk.inj (Option.some.inj stepped)
      exact ⟨told.port, told.told⟩

/-- In a session there is one unit task, and no message waits unseen. -/
theorem portTold_reached (ch : Channels) (s : Driver) (reached : (sessionMachine ch).Reached s) :
    ∃ pc, s.tasks = [pc] ∧ PortTold s.world pc := by
  apply (sessionMachine ch).invariant (fun s => ∃ pc, s.tasks = [pc] ∧ PortTold s.world pc) _ _ s
    reached
  · intro s opened
    refine ⟨.loopHead, opened.tasks, ?_, fun _ messages => absurd opened.port messages⟩
    rw [opened.port]
    exact Option.some_ne_none []
  · rintro s a t ⟨pc, alone, told⟩ moved
    obtain ⟨inside, stepped⟩ := session_step ch s t a moved
    cases a with
    | submit r q =>
        obtain ⟨_, rfl⟩ := submit_step ch s t r q stepped
        exact ⟨pc, alone, told.port, told.told⟩
    | call i e =>
        obtain ⟨c, w, next, _, ran, rfl⟩ := call_step ch s t i e stepped
        exact ⟨pc, alone, portTold_call ch e s.world w c next pc told ran⟩
    | task i e =>
        obtain ⟨pc', w, next, present, ran, rfl⟩ := task_step ch s t i e stepped
        rw [alone] at present ⊢
        cases i with
        | zero =>
            obtain rfl := Option.some.inj present
            exact ⟨next, rfl, portTold_task ch e s.world w pc next told ran⟩
        | succ i => cases present
    | signal more =>
        obtain rfl := Option.some.inj stepped
        refine ⟨pc, alone, told.port, fun past messages => ?_⟩
        simp only [Signals.join, told.told past messages, Bool.true_or]
    | openDevice bmCookie allocated outcome =>
        have opened : s.world.unit.openCount ≠ 0 := by simpa [inSession] using inside
        rcases open_step ch s t bmCookie allocated outcome stepped with
          rfl | ⟨_, rfl⟩ | ⟨closed, _, _⟩ | ⟨closed, _, _⟩
        · exact ⟨pc, alone, told⟩
        · exact ⟨pc, alone, told.port, told.told⟩
        · exact absurd closed opened
        · exact absurd closed opened
    | closeDevice bmCookie =>
        obtain rfl := Option.some.inj stepped
        refine ⟨pc, alone, ?_⟩
        simp only [World.close, World.unitTaskShutdown]
        split_ifs
        all_goals exact ⟨told.port, told.told⟩
    | teardown i => cases inside
    | _ =>
        obtain rfl := Option.some.inj stepped
        exact ⟨pc, alone, told.port, told.told⟩

theorem task_runs (ch : Channels) (e : TaskEnv) (w : World) (pc : TaskPc)
    (port : w.unit.ioPort ≠ none) (active : ¬ TaskPc.AtRest (w, pc)) :
    ∃ done, taskStep ch e w pc = some done := by
  obtain ⟨queue, here⟩ := Option.ne_none_iff_exists'.mp port
  cases pc with
  | waiting =>
      have pending : w.signals.pending = true := by simpa [TaskPc.AtRest] using active
      exact ⟨_, if_pos pending⟩
  | draining => cases queue <;> simp [taskStep, here]
  | exitDrain => cases queue <;> simp [taskStep, here]
  | handling r ops fin => cases ops <;> exact ⟨_, rfl⟩
  | drained => exact absurd trivial active
  | _ => exact ⟨_, rfl⟩

/-- What the unit task has got done since it started to run alone. -/
structure Alone (w₀ : World) (pc₀ : TaskPc) (s : World × TaskPc) : Prop where
  told : PortTold s.1 s.2
  reads : ∀ c, s.1.unit.readList c ⊆ w₀.unit.readList c
  events : s.1.unit.eventList ⊆ w₀.unit.eventList
  drained : pc₀.pastDrain = false → s.2.pastDrain = true → s.1.unit.ioPort = some []
  flushed : pc₀.pastDrain = false → s.2.pastDrain = true → s.2 ≠ .exitFlush →
    ∀ c, s.1.unit.readList c = []
  answered : pc₀.pastDrain = false → s.2 = .drained → s.1.unit.eventList = []

theorem alone_start (w : World) (pc : TaskPc) (told : PortTold w pc) : Alone w pc (w, pc) where
  told := told
  reads := fun _ => List.Subset.refl _
  events := List.Subset.refl _
  drained := fun before past => absurd (before.symm.trans past) Bool.false_ne_true
  flushed := fun before past => absurd (before.symm.trans past) Bool.false_ne_true
  answered := by
    intro before ended
    have last : pc = .drained := ended
    rw [last] at before
    cases before

theorem past_steps (ch : Channels) (e : TaskEnv) (w v : World) (pc next : TaskPc)
    (stepped : taskStep ch e w pc = some (v, next)) (past : next.pastDrain = true) :
    (pc = .exitDrain ∧ next = .exitFlush ∧ v = w ∧ w.unit.ioPort = some []) ∨
      (pc = .exitFlush ∧ next = .exitFlushEvents ∧ v = w.flushReadQueue .aborted) ∨
      (pc = .exitFlushEvents ∧ next = .drained ∧ v = w.flushRemaining) := by
  cases pc with
  | loopHead =>
      obtain ⟨rfl, rfl⟩ := Prod.mk.inj (Option.some.inj stepped)
      split at past <;> cases past
  | waiting =>
      simp only [taskStep] at stepped
      split at stepped
      · obtain ⟨rfl, rfl⟩ := Prod.mk.inj (Option.some.inj stepped)
        cases past
      · cases stepped
  | woken =>
      obtain ⟨rfl, rfl⟩ := Prod.mk.inj (Option.some.inj stepped)
      split at past <;> cases past
  | draining =>
      simp only [taskStep] at stepped
      split at stepped
      · cases stepped
      · obtain ⟨rfl, rfl⟩ := Prod.mk.inj (Option.some.inj stepped)
        cases past
      · obtain ⟨rfl, rfl⟩ := Prod.mk.inj (Option.some.inj stepped)
        cases past
  | handling r ops fin =>
      cases ops with
      | nil =>
          obtain ⟨rfl, rfl⟩ := Prod.mk.inj (Option.some.inj stepped)
          cases past
      | cons op ops =>
          obtain ⟨rfl, rfl⟩ := Prod.mk.inj (Option.some.inj stepped)
          cases past
  | rxStart =>
      obtain ⟨rfl, rfl⟩ := Prod.mk.inj (Option.some.inj stepped)
      split at past <;> cases past
  | rxLoop loop =>
      have goes := congrArg Prod.snd (Option.some.inj stepped)
      simp only [rxBody, offerFrame] at goes
      repeat' split at goes
      all_goals
        obtain rfl := goes
        cases past
  | exitDrain =>
      simp only [taskStep] at stepped
      split at stepped
      · cases stepped
      · rename_i empty
        obtain ⟨rfl, rfl⟩ := Prod.mk.inj (Option.some.inj stepped)
        exact .inl ⟨rfl, rfl, rfl, empty⟩
      · obtain ⟨rfl, rfl⟩ := Prod.mk.inj (Option.some.inj stepped)
        cases past
  | exitFlush =>
      obtain ⟨rfl, rfl⟩ := Prod.mk.inj (Option.some.inj stepped)
      exact .inr (.inl ⟨rfl, rfl, rfl⟩)
  | exitFlushEvents =>
      obtain ⟨rfl, rfl⟩ := Prod.mk.inj (Option.some.inj stepped)
      exact .inr (.inr ⟨rfl, rfl, rfl⟩)
  | drained => cases stepped
  | _ =>
      obtain ⟨rfl, rfl⟩ := Prod.mk.inj (Option.some.inj stepped)
      cases past

theorem alone_task (ch : Channels) (e : TaskEnv) (w₀ w v : World) (pc₀ pc next : TaskPc)
    (alone : Alone w₀ pc₀ (w, pc)) (stepped : taskStep ch e w pc = some (v, next)) :
    Alone w₀ pc₀ (v, next) := by
  have quieter := task_quieter ch e w v pc next stepped
  have emptied : ∀ c, w.unit.readList c = [] → v.unit.readList c = [] := fun c empty =>
    List.subset_nil.mp (empty ▸ quieter.reads c)
  have port : ∀ empty : w.unit.ioPort = some [], v.unit.ioPort = some [] := by
    intro empty
    have shorter := quieter.queue
    have opened := quieter.port (by rw [empty]; exact Option.some_ne_none [])
    obtain ⟨queue, here⟩ := Option.ne_none_iff_exists'.mp opened
    simp only [queueLength, empty, here, Option.getD_some, List.length_nil, Nat.le_zero_eq,
      List.length_eq_zero_iff] at shorter
    rw [here, shorter]
  constructor
  · exact portTold_task ch e w v pc next alone.told stepped
  · exact fun c => List.Subset.trans (quieter.reads c) (alone.reads c)
  · exact List.Subset.trans quieter.events alone.events
  · intro before past
    rcases past_steps ch e w v pc next stepped past with
      ⟨_, _, rfl, empty⟩ | ⟨rfl, _, _⟩ | ⟨rfl, _, _⟩
    · exact empty
    · exact port (alone.drained before rfl)
    · exact port (alone.drained before rfl)
  · intro before past other
    rcases past_steps ch e w v pc next stepped past with
      ⟨_, first, _, _⟩ | ⟨_, _, rfl⟩ | ⟨rfl, _, _⟩
    · exact absurd first other
    · exact flushReadQueue_reads .aborted w
    · exact fun c => emptied c (alone.flushed before rfl TaskPc.noConfusion c)
  · intro before last
    have ended : next = .drained := last
    rcases past_steps ch e w v pc next stepped (by rw [ended]; rfl) with
      ⟨_, first, _, _⟩ | ⟨_, second, _⟩ | ⟨_, _, rfl⟩
    · rw [first] at ended
      cases ended
    · rw [second] at ended
      cases ended
    · have unit := sweepEvents_unit (fun _ => true) (flushed .aborted) .flush w
      rw [sweep_all] at unit
      exact congrArg PA6TEthUnit.eventList unit

theorem opsLeft_task (ch : Channels) (e : TaskEnv) (w v : World) (pc next : TaskPc)
    (few : pc.opsLeft ≤ 3) (stepped : taskStep ch e w pc = some (v, next)) : next.opsLeft ≤ 3 := by
  cases pc with
  | received r =>
      obtain ⟨_, rfl⟩ := Prod.mk.inj (Option.some.inj stepped)
      simp only [TaskPc.opsLeft, commandOps, goOnline]
      cases (w.reqs r).command <;> cases w.unit.online <;> simp
  | handling r ops fin =>
      cases ops with
      | nil =>
          obtain ⟨_, rfl⟩ := Prod.mk.inj (Option.some.inj stepped)
          exact Nat.zero_le 3
      | cons op ops =>
          obtain ⟨_, rfl⟩ := Prod.mk.inj (Option.some.inj stepped)
          simp only [TaskPc.opsLeft, List.length_cons] at few ⊢
          omega
  | rxLoop loop =>
      have goes := congrArg Prod.snd (Option.some.inj stepped)
      simp only [rxBody, offerFrame] at goes
      repeat' split at goes
      all_goals
        obtain rfl := goes
        exact Nat.zero_le 3
  | _ =>
      simp only [taskStep] at stepped
      repeat' split at stepped
      all_goals first
        | (obtain ⟨_, rfl⟩ := Prod.mk.inj (Option.some.inj stepped)
           exact Nat.zero_le 3)
        | cases stepped

theorem opsLeft_reached (ch : Channels) (s : Driver) (reached : (sessionMachine ch).Reached s) :
    ∀ pc ∈ s.tasks, pc.opsLeft ≤ 3 := by
  apply (sessionMachine ch).invariant (fun s => ∀ pc ∈ s.tasks, pc.opsLeft ≤ 3) _ _ s reached
  · intro s opened pc member
    rw [opened.tasks] at member
    obtain rfl := List.mem_singleton.mp member
    exact Nat.zero_le 3
  · intro s a t few moved next member
    obtain ⟨_, stepped⟩ := session_step ch s t a moved
    rcases tasks_step ch s t a stepped next member with old | rfl | ⟨_, e, pc, v, _, present, ran⟩
    · exact few next old
    · exact Nat.zero_le 3
    · exact opsLeft_task ch e s.world v pc next (few pc (List.mem_of_getElem? present)) ran

/-- The steps that are left, in what the ring and the port can hold. -/
theorem stepsLeft_bound (w : World) (pc : TaskPc) (few : pc.opsLeft ≤ 3) :
    pc.stepsLeft w ≤ 16 * w.queueLength + 6 * rxRingSize + 26 := by
  have ring : occupied w.unit.rx ≤ rxRingSize := Ring.count_size owned w.unit.rx.rxRing
  have turn : w.turnSteps ≤ 8 * w.queueLength + 3 * occupied w.unit.rx + 10 := by
    simp only [turnSteps]
    split
    · exact Nat.le_refl _
    · exact Nat.zero_le _
  have cleared : ∀ v g, occupied (nextDesc w.unit.rx v g).1 ≤ occupied w.unit.rx := fun v g =>
    occupied_next w.unit.rx v g
  cases pc with
  | rxDeliver v g f r orphan =>
      have less := cleared v g
      simp only [TaskPc.stepsLeft, headSteps]
      omega
  | rxNext v g =>
      have less := cleared v g
      simp only [TaskPc.stepsLeft, headSteps]
      omega
  | _ =>
      simp only [TaskPc.opsLeft] at few
      simp only [TaskPc.stepsLeft, drainSteps, headSteps]
      omega

theorem task_run (ch : Channels) (s : Driver) (w v : World) (pc next : TaskPc)
    (envs : List TaskEnv) (ran : (taskMachine ch).run (w, pc) envs = some (v, next)) :
    (sessionMachine ch).run { s with world := w, tasks := [pc] } (envs.map fun e => .task 0 e) =
      some { s with world := v, tasks := [next] } := by
  induction envs generalizing w pc with
  | nil =>
      obtain ⟨rfl, rfl⟩ := Prod.mk.inj (Option.some.inj ran)
      rfl
  | cons e rest ih =>
      obtain ⟨⟨u, mid⟩, stepped, later⟩ := (taskMachine ch).run_cons (w, pc) (v, next) e rest ran
      have moved : (sessionMachine ch).step { s with world := w, tasks := [pc] } (.task 0 e) =
          some { s with world := u, tasks := [mid] } := by
        have taken : taskStep ch e w pc = some (u, mid) := stepped
        simp only [sessionMachine, unitMachine, Machine.allow, inSession, if_true, driverStep,
          List.getElem?_cons_zero, taken, Option.map_some, List.set_cons_zero]
      rw [List.map_cons, Machine.run, moved, Option.bind_some]
      exact ih u mid later

/-- The requests that are neither in the unit task's hands nor in its port. -/
def elsewhere (s : Driver) : List (ReqId × Stage) :=
  s.calls.flatMap Call.claim ++ stored { s.world.unit with ioPort := none }

theorem places_split (s : Driver) (pc : TaskPc) (port : List ReqId) (alone : s.tasks = [pc])
    (here : s.world.unit.ioPort = some port) :
    s.places.Perm ((pc.claim ++ portPlaces (some port)) ++ elsewhere s) := by
  have same : s.world.unit = { s.world.unit with ioPort := some port } := by rw [← here]
  have queues : (stored s.world.unit).Perm
      (portPlaces (some port) ++ stored { s.world.unit with ioPort := none }) := by
    conv_lhs => rw [same]
    exact stored_port s.world.unit port
  simp only [Driver.places, elsewhere, alone, List.flatMap_cons, List.flatMap_nil, List.append_nil]
  rw [List.perm_iff_count] at queues ⊢
  intro p
  have counted := queues p
  simp only [List.count_append] at counted ⊢
  omega

theorem elsewhere_fewer (s t : Driver) (calls : t.calls = s.calls)
    (reads : ∀ c, t.world.unit.readList c ⊆ s.world.unit.readList c)
    (events : t.world.unit.eventList ⊆ s.world.unit.eventList) :
    elsewhere t ⊆ elsewhere s := by
  intro p member
  simp only [elsewhere, calls, stored, portPlaces, readPlaces, eventPlaces, Option.getD_none,
    List.map_nil, List.append_nil, List.mem_append, List.mem_map] at member ⊢
  rcases member with claimed | ⟨pr, there, rfl⟩ | ⟨pr, there, rfl⟩ | ⟨pr, there, rfl⟩ |
    ⟨r, there, rfl⟩
  · exact .inl claimed
  · exact .inr (.inl ⟨pr, reads .ipv4 there, rfl⟩)
  · exact .inr (.inr (.inl ⟨pr, reads .arp there, rfl⟩))
  · exact .inr (.inr (.inr (.inl ⟨pr, reads .other there, rfl⟩)))
  · exact .inr (.inr (.inr (.inr ⟨r, events there, rfl⟩)))

theorem unplaced_settled (ch : Channels) (s : Driver) (reached : (sessionMachine ch).Reached s)
    (r : ReqId) (absent : r ∉ s.ledger.items) : s.pending r = false := by
  have total := (session_reached ch s reached).2 r
  have nowhere : s.ledger.placed r = 0 := List.count_eq_zero.mpr absent
  rw [nowhere] at total
  simp only [Ledger.askedFor, Ledger.answered, Driver.ledger, ledger] at total
  simp only [Driver.pending, total, Nat.add_zero, ne_eq, not_true_eq_false, decide_false]

theorem alone_ends (w v : World) (pc next : TaskPc) (alone : Alone w pc (v, next))
    (resting : TaskPc.AtRest (v, next)) :
    next = .waiting ∧ v.signals.pending = false ∧ v.unit.ioPort = some [] ∨
      next = .drained ∧ (pc.pastDrain = false →
        v.unit.ioPort = some [] ∧ v.unit.eventList = [] ∧ ∀ c, v.unit.readList c = []) := by
  cases next with
  | waiting =>
      have quiet : v.signals.pending = false := resting
      refine .inl ⟨rfl, quiet, ?_⟩
      by_contra messages
      have signalled : v.signals.port = true := alone.told.told rfl messages
      simp only [Signals.pending, signalled, Bool.true_or] at quiet
      cases quiet
  | drained =>
      exact .inr ⟨rfl, fun before => ⟨alone.drained before rfl, alone.answered before rfl,
        alone.flushed before rfl TaskPc.noConfusion⟩⟩
  | _ => cases resting

/-- What was in the unit task's hands or in its port at first is nowhere when both are empty. -/
theorem alone_answers (ch : Channels) (s : Driver) (pc next : TaskPc) (v : World)
    (reached : (sessionMachine ch).Reached s) (single : s.tasks = [pc])
    (later : (sessionMachine ch).Reached { s with world := v, tasks := [next] })
    (alone : Alone s.world pc (v, next)) (idle : next.claim = []) (empty : v.unit.ioPort = some [])
    (r : ReqId) (port : List ReqId) (here : s.world.unit.ioPort = some port)
    (mine : r ∈ (pc.claim ++ portPlaces (some port)).map Prod.fst) :
    ({ s with world := v, tasks := [next] } : Driver).pending r = false := by
  apply unplaced_settled ch _ later
  have places := (places_split s pc port single here).map Prod.fst
  have left := (places_split { s with world := v, tasks := [next] } next [] rfl empty).map Prod.fst
  have distinct := places.nodup_iff.mp (kept_nodup _ _ _ (session_reached ch s reached).1)
  rw [List.map_append] at distinct
  intro member
  have placed := left.mem_iff.mp member
  rw [idle] at placed
  obtain ⟨p, there, same⟩ := List.mem_map.mp placed
  have earlier := elsewhere_fewer s { s with world := v, tasks := [next] } rfl alone.reads
    alone.events there
  exact (List.nodup_append.mp distinct).2.2 r mine p.1 (List.mem_map_of_mem earlier) same.symm

/-- Whatever state a session has reached, the unit task alone comes to `Wait` without a signal, or
to the end of its exit drain, in a number of steps that the port and the ring bound. All that it had
in its hands or in its port is answered by then. -/
theorem unit_task_comes_to_rest (ch : Channels) (s : Driver) (env : Nat → TaskEnv)
    (reached : (sessionMachine ch).Reached s) :
    ∃ pc next k v, s.tasks = [pc] ∧
      k ≤ 16 * s.world.queueLength + 6 * rxRingSize + 26 ∧
      (sessionMachine ch).run s ((List.range k).map fun j => .task 0 (env j)) =
        some { s with world := v, tasks := [next] } ∧
      (next = .waiting ∧ v.signals.pending = false ∧ v.unit.ioPort = some [] ∨
        next = .drained ∧ (pc.pastDrain = false →
          v.unit.ioPort = some [] ∧ v.unit.eventList = [] ∧ ∀ c, v.unit.readList c = [])) ∧
      ∀ r, r ∈ pc.claim.map Prod.fst ∨ pc.pastDrain = false ∧ r ∈ s.world.unit.ioPort.getD [] →
        ({ s with world := v, tasks := [next] } : Driver).pending r = false := by
  obtain ⟨pc, single, told⟩ := portTold_reached ch s reached
  obtain ⟨k, ⟨v, next⟩, short, ran, alone, resting⟩ := (taskMachine ch).comes_to_rest
    (Alone s.world pc) TaskPc.AtRest (fun x => x.2.stepsLeft x.1)
    (fun x e alone active => by
      obtain ⟨⟨v, next⟩, stepped⟩ := task_runs ch e x.1 x.2 alone.told.port active
      exact ⟨(v, next), stepped, alone_task ch e s.world x.1 v pc x.2 next alone stepped,
        task_lowers ch e x.1 v x.2 next stepped⟩)
    env (s.world, pc) (alone_start s.world pc told)
  have start : s = { s with world := s.world, tasks := [pc] } := by rw [← single]
  have driven := task_run ch s s.world v pc next _ ran
  rw [← start, List.map_map] at driven
  have ends := alone_ends s.world v pc next alone resting
  have few := opsLeft_reached ch s reached pc (single ▸ List.mem_cons_self)
  refine ⟨pc, next, k, v, single, short.trans (stepsLeft_bound s.world pc few), driven, ends, ?_⟩
  have later := (sessionMachine ch).run_reached s _ _ reached driven
  intro r near
  have before : pc.pastDrain = false := by
    rcases near with mine | ⟨before, _⟩
    · cases pc <;> first | rfl | cases mine
    · exact before
  obtain ⟨port, here⟩ := Option.ne_none_iff_exists'.mp told.port
  have empty : v.unit.ioPort = some [] := by
    rcases ends with ⟨_, _, empty⟩ | ⟨_, flushed⟩
    · exact empty
    · exact (flushed before).1
  have idle : next.claim = [] := by
    rcases ends with ⟨rfl, _⟩ | ⟨rfl, _⟩ <;> rfl
  apply alone_answers ch s pc next v reached single later alone idle empty r port here
  rw [List.map_append]
  rcases near with claimed | ⟨_, queued⟩
  · exact List.mem_append_left _ claimed
  · rw [here] at queued
    refine List.mem_append_right _ (List.mem_map.mpr ⟨(r, .clear), ?_, rfl⟩)
    exact List.mem_map_of_mem queued

/-- A queued command is answered by the unit task's own steps. -/
theorem unit_task_comes_to_rest_command :
    ∃ s k t, (sessionMachine ⟨0, 0, 0⟩).run openedDriver
        (submitted 1 (request .configInterface 0#32 0 0#32)) = some s ∧
      s.pending 1 = true ∧
      (sessionMachine ⟨0, 0, 0⟩).run s ((List.range k).map fun _ => .task 0 taskEnv) = some t ∧
      t.pending 1 = false := by
  obtain ⟨s, ran, shape⟩ := Option.map_eq_some_iff.mp
    (show ((sessionMachine ⟨0, 0, 0⟩).run openedDriver
        (submitted 1 (request .configInterface 0#32 0 0#32))).map
        (fun s => (s.pending 1, s.tasks, s.world.unit.ioPort)) =
          some (true, [.loopHead], some [1]) by decide +kernel)
  obtain ⟨waits, rest⟩ := Prod.mk.inj shape
  obtain ⟨single, queue⟩ := Prod.mk.inj rest
  have reached := (sessionMachine ⟨0, 0, 0⟩).run_reached openedDriver s _
    (.start openedDriver openedDriver_opened) ran
  obtain ⟨pc, next, k, v, alone, _, driven, _, answered⟩ :=
    unit_task_comes_to_rest ⟨0, 0, 0⟩ s (fun _ => taskEnv) reached
  obtain rfl : pc = .loopHead := by
    rw [single] at alone
    exact ((List.cons.inj alone).1).symm
  refine ⟨s, k, _, ran, waits, driven, answered 1 (.inr ⟨rfl, ?_⟩)⟩
  rw [queue]
  exact List.mem_cons_self

end Pa6tEth

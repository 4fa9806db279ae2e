import Pa6tEth.Interrupt
import Pa6tEth.Calm

/-! The unit task's passes over the ring refine the machine of the descriptor ring, and no
completed frame is left to an unrelated wakeup. -/

namespace Pa6tEth

open Support World

/-- The rings stay as they are, and no register of the receive engine's is written. -/
structure Apart (ch : Channels) (w v : World) : Prop where
  rx : uncounted v.unit.rx = uncounted w.unit.rx
  ctrlC : w.signals.ctrlC = false → v.signals.ctrlC = false
  regs : ∃ new, v.regs = w.regs ++ new ∧ ∀ e : RxEngine, e.writes ch new = e

def Still (w v : World) : Prop :=
  uncounted v.unit.rx = uncounted w.unit.rx ∧ v.signals = w.signals ∧ v.regs = w.regs

theorem still_trans (w v x : World) (first : Still w v) (second : Still v x) : Still w x :=
  ⟨second.1.trans first.1, second.2.1.trans first.2.1, second.2.2.trans first.2.2⟩

theorem still_apart (ch : Channels) (w v : World) (still : Still w v) : Apart ch w v :=
  ⟨still.1, fun unbroken => by rw [still.2.1, unbroken], [], by simp [still.2.2], fun _ => rfl⟩

theorem still_call (ch : Channels) (w v : World) (still : Still w v) :
    Apart ch w v ∧ (w.signals.irq = true → v.signals.irq = true) :=
  ⟨still_apart ch w v still, fun raised => by rw [still.2.1, raised]⟩

theorem call_apart (ch : Channels) (e : CallEnv) (w v : World) (c : Call) (next : Option Call)
    (stepped : callStep ch e w c = some (v, next)) :
    Apart ch w v ∧ (w.signals.irq = true → v.signals.irq = true) := by
  cases c with
  | beginIo r =>
      obtain ⟨rfl, rfl⟩ := Prod.mk.inj (Option.some.inj stepped)
      obtain ⟨q, openers, reports, same⟩ := beginIo_frame e w r
      rw [same]
      exact still_call ch _ _ ⟨rfl, rfl, rfl⟩
  | replying r err werr sent =>
      obtain ⟨rfl, rfl⟩ := Prod.mk.inj (Option.some.inj stepped)
      simp only [replyIoreq]
      split <;> exact still_call ch _ _ ⟨rfl, rfl, rfl⟩
  | queueing r =>
      obtain ⟨w', put, same⟩ := Option.map_eq_some_iff.mp stepped
      obtain ⟨rfl, rfl⟩ := Prod.mk.inj same
      obtain ⟨port, _, rfl⟩ := Option.map_eq_some_iff.mp put
      exact ⟨⟨rfl, id, [], by simp, fun _ => rfl⟩, id⟩
  | addingRead pr c =>
      obtain ⟨rfl, rfl⟩ := Prod.mk.inj (Option.some.inj stepped)
      exact still_call ch _ _ ⟨by simp only [PA6TEthUnit.setReadList_rx], rfl, rfl⟩
  | addingEvent r =>
      obtain ⟨rfl, rfl⟩ := Prod.mk.inj (Option.some.inj stepped)
      exact still_call ch _ _ ⟨rfl, rfl, rfl⟩
  | transmitting r =>
      simp only [callStep] at stepped
      split at stepped <;> obtain ⟨rfl, rfl⟩ := Prod.mk.inj (Option.some.inj stepped) <;>
        exact still_call ch _ _ ⟨rfl, rfl, rfl⟩
  | submitting r f =>
      obtain ⟨rfl, rfl⟩ := Prod.mk.inj (Option.some.inj stepped)
      refine ⟨⟨rfl, id, _, rfl, fun e => ?_⟩, id⟩
      simp [RxEngine.writes, RxEngine.write]
  | signalling =>
      obtain ⟨rfl, rfl⟩ := Prod.mk.inj (Option.some.inj stepped)
      refine ⟨⟨rfl, fun unbroken => ?_, [], by simp, fun _ => rfl⟩, fun raised => ?_⟩
      · simp only
        split <;> exact unbroken
      · simp only
        split
        · rfl
        · exact raised
  | abortReads r =>
      simp only [callStep] at stepped
      split at stepped <;> obtain ⟨rfl, rfl⟩ := Prod.mk.inj (Option.some.inj stepped)
      · exact still_call ch _ _ ⟨rfl, rfl, rfl⟩
      · exact still_call ch _ _ ⟨by simp only [PA6TEthUnit.setReadList_rx], rfl, rfl⟩
  | abortEvents r =>
      simp only [callStep] at stepped
      split at stepped <;> obtain ⟨rfl, rfl⟩ := Prod.mk.inj (Option.some.inj stepped) <;>
        exact still_call ch _ _ ⟨rfl, rfl, rfl⟩
  | abortPort r =>
      simp only [callStep] at stepped
      repeat' split at stepped
      all_goals obtain ⟨rfl, rfl⟩ := Prod.mk.inj (Option.some.inj stepped)
      all_goals exact still_call ch _ _ ⟨rfl, rfl, rfl⟩
  | abortReply r =>
      obtain ⟨rfl, rfl⟩ := Prod.mk.inj (Option.some.inj stepped)
      exact still_call ch _ _ ⟨rfl, rfl, rfl⟩

theorem sweepEvents_still (picked : IOSana2Req → Bool) (answer : IOSana2Req → IOSana2Req)
    (via : Via) (w : World) : Still w (sweepEvents picked answer via w) := by
  refine ⟨?_, ?_, ?_⟩
  · rw [sweepEvents_unit]
  · exact sweep_frame (fun w => w.signals) picked answer via _ w fun _ _ => rfl
  · exact sweep_frame (fun w => w.regs) picked answer via _ w fun _ _ => rfl

theorem flushRead_still (error : IoError) (c : ReadClass) (w : World) :
    Still w (flushRead error c w) := by
  refine ⟨?_, ?_, ?_⟩
  · rw [flushRead_unit, PA6TEthUnit.setReadList_rx]
  · exact flushReadList_frame (fun w => w.signals) error _ w fun _ _ => rfl
  · exact flushReadList_frame (fun w => w.regs) error _ w fun _ _ => rfl

theorem flushReadQueue_still (error : IoError) (w : World) : Still w (w.flushReadQueue error) :=
  still_trans _ _ _ (still_trans _ _ _ (still_trans _ _ _ (flushRead_still error .ipv4 w)
    (flushRead_still error .arp _)) (flushRead_still error .other _)) (sweepEvents_still _ _ _ _)

theorem offer_still (w : World) (v : RxLoop) (g : RxGroup) (f : RxFrame) :
    Still w (offerFrame w v g f).1 := by
  simp only [offerFrame]
  split
  · exact ⟨by simp only [PA6TEthUnit.setReadList_rx]; rfl, rfl, rfl⟩
  · exact ⟨rfl, rfl, rfl⟩
  · exact ⟨rfl, rfl, rfl⟩

/-- The group in the unit task's hands is still the one at its cursor, and a handler has nothing
to arm. -/
def Held (u : UnitRx) : TaskPc → Prop
  | .handling _ ops _ => .postRxBuffers ∉ ops
  | .rxDeliver v g _ _ _ => fetchGroup u v.n = some g
  | .rxNext v g => fetchGroup u v.n = some g
  | .exitDrain => False
  | .exitReply _ => False
  | .exitFlush => False
  | .exitFlushEvents => False
  | .drained => False
  | _ => True

theorem fetchGroup_congr (u v : UnitRx) (n : Nat)
    (ring : ∀ k < 3, v.rxRing.get (n + k) = u.rxRing.get (n + k))
    (slots : v.rxSlotBuf = u.rxSlotBuf) : fetchGroup v n = fetchGroup u n := by
  have head := ring 0 (by omega)
  have eval := ring 1 (by omega)
  have ptr := ring 2 (by omega)
  rw [Nat.add_zero] at head
  simp only [fetchGroup, head, eval, ptr, slots]

theorem held_uncounted (u v : UnitRx) (pc : TaskPc) (same : uncounted v = uncounted u)
    (held : Held u pc) : Held v pc := by
  have fetch : ∀ n, fetchGroup (uncounted v) n = fetchGroup (uncounted u) n := fun n => by
    rw [same]
  cases pc with
  | rxDeliver l g f r orphan => exact (fetch l.n).trans held
  | rxNext l g => exact (fetch l.n).trans held
  | _ => exact held

def Counted (s : WakeSystem) : Prop :=
  ∃ j, s.cleaned ≤ j ∧ j < s.written ∧ j ∉ s.outstanding

def Awake (s : WakeSystem) (pc : TaskPc) : Prop :=
  s.iob.intgen = true ∨ s.handler = .acked ∨ s.driver.world.signals.irq = true ∨ pc.looks = true

structure WakeInv (ch : Channels) (s : WakeSystem) (pc : TaskPc) : Prop where
  ring : (descMachine ch).Reached s.receive
  single : s.driver.tasks = [pc]
  held : Held s.driver.world.unit.rx pc
  goes : goesOn s.driver = true
  ready : ringsReady s.driver.world.unit.rx = true
  unbroken : s.driver.world.signals.ctrlC = false
  awake : Counted s → Awake s pc

/-- The group in the unit task's hands is not the one that the engine completes next. -/
theorem fetchGroup_complete (s : RxSystem) (inv : DescInv s) (v : RxLoop) (g : RxGroup)
    (c : Completion) (inside : s.loop = some v) (fetched : fetchGroup s.rx v.n = some g)
    (credits : 2 ≤ s.engine.chanCredits) :
    fetchGroup { s.rx with rxRing := writeGroup s.rx.rxRing s.engine.descPos c } v.n = some g := by
  have pending := groupInv_pending s v inv.toGroupInv (fetchGroup_owned s.rx v.n g fetched)
  have room := descInv_room s inv credits
  have begins : v.n % 2048 = 4 * s.cleaned % 2048 := by
    simpa only [RxSystem.cursor, inside] using inv.cursor
  have next : s.engine.descPos % 2048 = 4 * s.written % 2048 := by rw [inv.position]; omega
  refine (fetchGroup_congr s.rx
    { s.rx with rxRing := writeGroup s.rx.rxRing s.engine.descPos c } v.n
    (fun k within => ?_) rfl).trans fetched
  refine writeGroup_other s.rx.rxRing _ s.written c _ next ?_
  rw [group_of_slot (v.n + k) v.n s.cleaned k (by omega) begins rfl]
  omega

/-- A pass ends only when every completed group is cleared. -/
theorem swept (s : RxSystem) (inv : DescInv s) (v : RxLoop) (inside : s.loop = some v)
    (idle : fetchGroup s.rx v.n = none) : s.written ≤ s.cleaned := by
  by_contra pending
  have begins : v.n % 2048 = 4 * s.cleaned % 2048 := by
    simpa only [RxSystem.cursor, inside] using inv.cursor
  have ready := inv.ready s.cleaned (le_refl _) (by omega)
  rw [Ring.get_congr s.rx.rxRing (4 * s.cleaned) v.n (by simpa using begins.symm),
    (fetchGroup_none s.rx v.n).mp idle] at ready
  cases ready

theorem nextDesc_uncounted (u : UnitRx) (v : RxLoop) (g : RxGroup) :
    uncounted (nextDesc u v g).1 = (nextDesc (uncounted u) v g).1 ∧
      (nextDesc (uncounted u) v g).2 = (nextDesc u v g).2 := by
  simp only [nextDesc]
  split <;> exact ⟨rfl, rfl⟩

theorem counted_same (s t : WakeSystem) (cleaned : t.cleaned = s.cleaned)
    (written : t.written = s.written) (outstanding : t.outstanding = s.outstanding)
    (counted : Counted t) : Counted s := by
  obtain ⟨j, low, high, settled⟩ := counted
  exact ⟨j, by omega, by omega, by rwa [outstanding] at settled⟩

theorem desc_step (ch : Channels) (s t : RxSystem) (a : RxAction)
    (reached : (descMachine ch).Reached s) (moved : rxStep ch chanConforms s a = some t) :
    (descMachine ch).Reached t := .step s a t reached moved

theorem inv_complete (ch : Channels) (s t : WakeSystem) (pc : TaskPc) (c : Completion)
    (mem : Addr → UInt8) (inv : WakeInv ch s pc)
    (stepped : wakeStep ch s (.complete c mem) = some t) : WakeInv ch t pc := by
  obtain ⟨r, moved, rfl⟩ := Option.map_eq_some_iff.mp stepped
  have desc := descInv_reached ch s.receive inv.ring
  have ring := desc_step ch s.receive r (.complete c) inv.ring moved
  obtain ⟨conforms, rfl⟩ := complete_step ch chanConforms s.receive r c moved
  simp only [chanConforms, Bool.and_eq_true, decide_eq_true_eq] at conforms
  have loop : s.receive.loop = pc.loop := by simp only [WakeSystem.receive, inv.single, loopOf]
  refine ⟨ring, inv.single, ?_, inv.goes, inv.ready, inv.unbroken, ?_⟩
  · have held := inv.held
    cases pc with
    | rxDeliver v g f r orphan => exact fetchGroup_complete s.receive desc v g c loop held conforms.2
    | rxNext v g => exact fetchGroup_complete s.receive desc v g c loop held conforms.2
    | _ => exact held
  · rintro ⟨j, low, high, settled⟩
    have older : j ≠ s.written := fun same => settled (same ▸ List.mem_cons_self)
    have high : j < s.written + 1 := high
    exact inv.awake ⟨j, low, by omega, fun out => settled (List.mem_cons_of_mem _ out)⟩

theorem inv_count (ch : Channels) (s t : WakeSystem) (pc : TaskPc) (j : Nat)
    (inv : WakeInv ch s pc) (stepped : wakeStep ch s (.count j) = some t) : WakeInv ch t pc := by
  simp only [wakeStep] at stepped
  split at stepped
  · obtain rfl := Option.some.inj stepped
    exact ⟨inv.ring, inv.single, inv.held, inv.goes, inv.ready, inv.unbroken,
      fun _ => .inl (count_raises s.iob)⟩
  · cases stepped

theorem inv_interrupt (ch : Channels) (s t : WakeSystem) (pc : TaskPc) (ps : Word)
    (inv : WakeInv ch s pc) (stepped : wakeStep ch s (.interrupt ps) = some t) :
    WakeInv ch t pc := by
  cases place : s.handler with
  | idle =>
      simp only [wakeStep, place] at stepped
      obtain rfl := Option.some.inj stepped
      refine ⟨inv.ring, inv.single, inv.held, inv.goes, inv.ready, inv.unbroken, fun counted => ?_⟩
      rcases inv.awake counted with raised | acked | signalled | looks
      · exact .inl raised
      · rw [place] at acked
        cases acked
      · exact .inr (.inr (.inl signalled))
      · exact .inr (.inr (.inr looks))
  | claimed =>
      simp only [wakeStep, place] at stepped
      obtain rfl := Option.some.inj stepped
      exact ⟨inv.ring, inv.single, inv.held, inv.goes, inv.ready, inv.unbroken,
        fun _ => .inr (.inl rfl)⟩
  | acked =>
      simp only [wakeStep, place] at stepped
      obtain rfl := Option.some.inj stepped
      have goes := inv.goes
      simp only [goesOn, Bool.and_eq_true] at goes
      refine ⟨inv.ring, inv.single, inv.held, inv.goes, inv.ready, ?_, fun _ => ?_⟩
      · simp only [WakeSystem.signal, Signals.join, inv.unbroken, Bool.or_false]
      · refine .inr (.inr (.inl ?_))
        simp only [WakeSystem.signal, Signals.join, goes.1.2, Bool.or_true]

def WakeSystem.driven (ch : Channels) (s : WakeSystem) (d : Driver) : WakeSystem :=
  { s with
    driver := d
    engine := s.engine.writes ch (d.world.regs.drop s.driver.world.regs.length) }

theorem inv_apart (ch : Channels) (s : WakeSystem) (pc next : TaskPc) (d : Driver)
    (inv : WakeInv ch s pc) (apart : Apart ch s.driver.world d.world) (single : d.tasks = [next])
    (goes : goesOn d = true) (loop : next.loop = pc.loop)
    (held : Held s.driver.world.unit.rx next) (looks : pc.looks = true → next.looks = true)
    (signal : (s.driver.world.signals.irq = true → d.world.signals.irq = true) ∨
      next.looks = true) : WakeInv ch (s.driven ch d) next := by
  obtain ⟨new, regs, silent⟩ := apart.regs
  have engine : (s.driven ch d).engine = s.engine := by
    simp only [WakeSystem.driven, regs, List.drop_left]
    exact silent s.engine
  have receive : (s.driven ch d).receive = s.receive := by
    simp only [WakeSystem.receive, engine, inv.single]
    simp only [WakeSystem.driven, apart.rx, single, loopOf, loop]
  refine ⟨receive ▸ inv.ring, single, held_uncounted _ _ next apart.rx held, goes, ?_,
    apart.ctrlC inv.unbroken, fun counted => ?_⟩
  · have same : ringsReady (uncounted d.world.unit.rx) =
        ringsReady (uncounted s.driver.world.unit.rx) := congrArg ringsReady apart.rx
    exact same.trans inv.ready
  · rcases inv.awake (counted_same s _ rfl rfl rfl counted) with raised | acked | signalled | look
    · exact .inl raised
    · exact .inr (.inl acked)
    · exact .inr (.inr (signal.imp_left fun keeps => keeps signalled))
    · exact .inr (.inr (.inr (looks look)))

theorem inv_still (ch : Channels) (s : WakeSystem) (pc next : TaskPc) (d : Driver)
    (inv : WakeInv ch s pc) (still : Still s.driver.world d.world) (single : d.tasks = [next])
    (goes : goesOn d = true) (loop : next.loop = pc.loop)
    (held : Held s.driver.world.unit.rx next) (looks : pc.looks = true → next.looks = true) :
    WakeInv ch (s.driven ch d) next :=
  inv_apart ch s pc next d inv (still_apart ch _ _ still) single goes loop held looks
    (.inl fun raised => by rw [still.2.1, raised])

theorem commandOps_unarmed (c : Command) : .postRxBuffers ∉ (commandOps true c).1 := by
  cases c <;> simp [commandOps, goOnline]

theorem runOp_still (ch : Channels) (e : TaskEnv) (w : World) (op : TaskOp)
    (unarmed : op ≠ .postRxBuffers) : Still w (runOp ch e w op) := by
  cases op with
  | setOnline online => exact ⟨rfl, rfl, rfl⟩
  | postRxBuffers => exact absurd rfl unarmed
  | flushReadQueue error => exact flushReadQueue_still error w
  | signalEvent mask => exact sweepEvents_still _ _ _ w

theorem inv_enter (ch : Channels) (s : WakeSystem) (d : Driver) (inv : WakeInv ch s .rxStart)
    (world : d.world = s.driver.world)
    (single : d.tasks = [.rxLoop (enterRing s.driver.world.unit.rx)]) (goes : goesOn d = true) :
    WakeInv ch (s.driven ch d) (.rxLoop (enterRing s.driver.world.unit.rx)) := by
  have outside : s.receive.loop = none := by simp only [WakeSystem.receive, inv.single]; rfl
  have moved : rxStep ch chanConforms s.receive .enter =
      some { s.receive with loop := some (enterRing s.receive.rx) } := by
    simp only [rxStep, outside]
  have receive : (s.driven ch d).receive =
      { s.receive with loop := some (enterRing s.receive.rx) } := by
    simp only [WakeSystem.receive, WakeSystem.driven, world, single, List.drop_length]
    rfl
  refine ⟨receive ▸ desc_step ch _ _ .enter inv.ring moved, single, trivial, goes, ?_, ?_,
    fun _ => .inr (.inr (.inr rfl))⟩
  · simpa only [WakeSystem.driven, world] using inv.ready
  · simpa only [WakeSystem.driven, world] using inv.unbroken

theorem inv_leave (ch : Channels) (s : WakeSystem) (v : RxLoop) (d : Driver)
    (inv : WakeInv ch s (.rxLoop v)) (idle : fetchGroup s.driver.world.unit.rx v.n = none)
    (world : d.world =
      { s.driver.world with
        unit :=
          { s.driver.world.unit with rx := (leaveRing ch s.driver.world.unit.rx v).1 }
        regs := s.driver.world.regs ++ (leaveRing ch s.driver.world.unit.rx v).2 })
    (single : d.tasks = [.loopHead]) (goes : goesOn d = true) :
    WakeInv ch (s.driven ch d) .loopHead := by
  have inside : s.receive.loop = some v := by simp only [WakeSystem.receive, inv.single]; rfl
  have empty : fetchGroup s.receive.rx v.n = none := idle
  have moved : rxStep ch chanConforms s.receive .leave =
      some { s.receive with
        rx := (leaveRing ch s.receive.rx v).1
        loop := none
        engine := s.receive.engine.writes ch (leaveRing ch s.receive.rx v).2 } := by
    simp only [rxStep, inside, empty]
  have receive : (s.driven ch d).receive =
      { s.receive with
        rx := (leaveRing ch s.receive.rx v).1
        loop := none
        engine := s.receive.engine.writes ch (leaveRing ch s.receive.rx v).2 } := by
    simp only [WakeSystem.receive, WakeSystem.driven, world, single, List.drop_left]
    rfl
  refine ⟨receive ▸ desc_step ch _ _ .leave inv.ring moved, single, trivial, goes, ?_, ?_, ?_⟩
  · simp only [WakeSystem.driven, world]
    exact inv.ready
  · simpa only [WakeSystem.driven, world] using inv.unbroken
  · rintro ⟨j, low, high, _⟩
    have done := swept s.receive (descInv_reached ch _ inv.ring) v inside empty
    simp only [WakeSystem.driven, WakeSystem.receive] at low high done
    omega

theorem inv_next (ch : Channels) (s : WakeSystem) (v : RxLoop) (g : RxGroup) (d : Driver)
    (inv : WakeInv ch s (.rxNext v g))
    (world : d.world =
      { s.driver.world with
        unit :=
          { s.driver.world.unit with rx := (nextDesc s.driver.world.unit.rx v g).1 } })
    (single : d.tasks = [.rxLoop (nextDesc s.driver.world.unit.rx v g).2])
    (goes : goesOn d = true) :
    WakeInv ch { s.driven ch d with cleaned := s.cleaned + 1 }
      (.rxLoop (nextDesc s.driver.world.unit.rx v g).2) := by
  have inside : s.receive.loop = some v := by simp only [WakeSystem.receive, inv.single]; rfl
  have fetched : fetchGroup s.receive.rx v.n = some g := inv.held
  obtain ⟨rx, locals⟩ := nextDesc_uncounted s.driver.world.unit.rx v g
  have moved : rxStep ch chanConforms s.receive .iterate =
      some { s.receive with
        rx := (nextDesc s.receive.rx v g).1
        loop := some (nextDesc s.receive.rx v g).2
        cleaned := s.receive.cleaned + 1 } := by
    simp only [rxStep, inside, fetched, Option.map_some]
  have receive : ({ s.driven ch d with cleaned := s.cleaned + 1 } : WakeSystem).receive =
      { s.receive with
        rx := (nextDesc s.receive.rx v g).1
        loop := some (nextDesc s.receive.rx v g).2
        cleaned := s.receive.cleaned + 1 } := by
    simp only [WakeSystem.receive, WakeSystem.driven, world, single, List.drop_length, rx, locals]
    rfl
  refine ⟨receive ▸ desc_step ch _ _ .iterate inv.ring moved, single, trivial, goes, ?_, ?_,
    fun _ => .inr (.inr (.inr rfl))⟩
  · simp only [WakeSystem.driven, world]
    exact (nextDesc_ready _ v g).trans inv.ready
  · simpa only [WakeSystem.driven, world] using inv.unbroken

theorem offer_pc (w : World) (v : RxLoop) (g : RxGroup) (f : RxFrame) :
    (offerFrame w v g f).2.loop = some v ∧ (offerFrame w v g f).2.looks = true ∧
      ∀ u, fetchGroup u v.n = some g → Held u (offerFrame w v g f).2 := by
  simp only [offerFrame]
  split <;> exact ⟨rfl, rfl, fun _ => id⟩

theorem inv_task (ch : Channels) (s : WakeSystem) (pc next : TaskPc) (e : TaskEnv) (w : World)
    (d : Driver) (inv : WakeInv ch s pc) (ran : taskStep ch e s.driver.world pc = some (w, next))
    (world : d.world = w) (single : d.tasks = [next]) (goes : goesOn d = true)
    (inside : ∀ v g, pc ≠ .rxNext v g) : WakeInv ch (s.driven ch d) next := by
  subst world
  have now := inv.goes
  simp only [goesOn, Bool.and_eq_true, Bool.not_eq_true'] at now
  obtain ⟨⟨online, _⟩, unstopped⟩ := now
  have still := fun moved held looks => inv_still ch s pc next d inv moved single goes held looks
  cases pc with
  | loopHead =>
      simp only [taskStep, unstopped, Bool.false_eq_true, if_false, Option.some.injEq,
        Prod.mk.injEq] at ran
      obtain ⟨same, rfl⟩ := ran
      exact still ⟨by rw [same], by rw [same], by rw [same]⟩ rfl trivial id
  | waiting =>
      simp only [taskStep] at ran
      split at ran
      · simp only [Option.some.injEq, Prod.mk.injEq] at ran
        obtain ⟨same, rfl⟩ := ran
        refine inv_apart ch s _ _ d inv ⟨by rw [← same], fun _ => by rw [← same]; rfl, [], ?_,
          fun _ => rfl⟩ single goes rfl trivial (fun _ => rfl) (.inr rfl)
        rw [← same, List.append_nil]
      · cases ran
  | woken =>
      simp only [taskStep, inv.unbroken, Bool.false_eq_true, if_false, Option.some.injEq,
        Prod.mk.injEq] at ran
      obtain ⟨same, rfl⟩ := ran
      refine inv_apart ch s _ _ d inv ⟨by rw [← same], fun _ => by rw [← same], [], ?_,
        fun _ => rfl⟩ single goes rfl trivial (fun _ => rfl) (.inr rfl)
      rw [← same, List.append_nil]
  | draining =>
      simp only [taskStep] at ran
      split at ran
      · cases ran
      · obtain ⟨same, rfl⟩ := Prod.mk.inj (Option.some.inj ran)
        exact still ⟨by rw [same], by rw [same], by rw [same]⟩ rfl trivial id
      · obtain ⟨same, rfl⟩ := Prod.mk.inj (Option.some.inj ran)
        exact still ⟨by rw [← same], by rw [← same], by rw [← same]⟩ rfl trivial id
  | received r =>
      obtain ⟨same, rfl⟩ := Prod.mk.inj (Option.some.inj ran)
      refine still ⟨by rw [← same], by rw [← same], by rw [← same]⟩ rfl ?_ id
      rw [online]
      exact commandOps_unarmed _
  | handling r ops fin =>
      cases ops with
      | nil =>
          obtain ⟨same, rfl⟩ := Prod.mk.inj (Option.some.inj ran)
          exact still ⟨by rw [← same]; rfl, by rw [← same]; rfl, by rw [← same]; rfl⟩ rfl trivial id
      | cons op ops =>
          obtain ⟨same, rfl⟩ := Prod.mk.inj (Option.some.inj ran)
          have unarmed := inv.held
          refine still (same ▸ runOp_still ch e s.driver.world op ?_) rfl ?_ id
          · rintro rfl
            exact unarmed List.mem_cons_self
          · exact fun later => unarmed (List.mem_cons_of_mem op later)
  | rxStart =>
      have ready := inv.ready
      simp only [ringsReady, Bool.and_eq_true, bne_iff_ne] at ready
      simp only [taskStep, online, ready.1, ready.2, ne_eq, not_false_eq_true, decide_true,
        Bool.and_true, if_true, Option.some.injEq, Prod.mk.injEq] at ran
      obtain ⟨same, rfl⟩ := ran
      exact inv_enter ch s d inv same.symm single goes
  | rxLoop v =>
      cases fetched : fetchGroup s.driver.world.unit.rx v.n with
      | none =>
          simp only [taskStep, rxBody, fetched, Option.some.injEq, Prod.mk.injEq] at ran
          obtain ⟨same, rfl⟩ := ran
          exact inv_leave ch s v d inv fetched same.symm single goes
      | some g =>
          simp only [taskStep, rxBody, fetched, Option.some.injEq] at ran
          split at ran
          · obtain ⟨same, rfl⟩ := Prod.mk.inj ran
            exact still ⟨by rw [← same]; rfl, by rw [← same], by rw [← same]⟩ rfl fetched id
          · rename_i len _
            have moved := offer_still s.driver.world v g
              (frameOf s.driver.world.mem s.driver.world.unit.rx g len)
            obtain ⟨loop, looks, held⟩ := offer_pc s.driver.world v g
              (frameOf s.driver.world.mem s.driver.world.unit.rx g len)
            rw [ran] at moved loop looks held
            exact still moved loop (held _ fetched) fun _ => looks
  | rxDeliver v g f r orphan =>
      obtain ⟨same, rfl⟩ := Prod.mk.inj (Option.some.inj ran)
      exact still ⟨by rw [← same]; rfl, by rw [← same]; rfl, by rw [← same]; rfl⟩ rfl inv.held id
  | rxNext v g => exact absurd rfl (inside v g)
  | _ => exact inv.held.elim

theorem inv_driver (ch : Channels) (s t : WakeSystem) (pc : TaskPc) (a : Action)
    (inv : WakeInv ch s pc) (stepped : wakeStep ch s (.driver a) = some t) :
    ∃ next, WakeInv ch t next := by
  obtain ⟨d, moved, acts, goes, rfl⟩ := driver_act ch s t a stepped
  have single := inv.single
  have stays : ∀ still : Still s.driver.world d.world, d.tasks = s.driver.tasks →
      WakeInv ch (s.driven ch d) pc := fun still tasks =>
    inv_still ch s pc pc d inv still (tasks.trans single) goes rfl inv.held id
  cases a with
  | submit r q =>
      obtain ⟨_, rfl⟩ := submit_step ch s.driver d r q moved
      exact ⟨pc, stays ⟨rfl, rfl, rfl⟩ rfl⟩
  | abortIo r =>
      obtain rfl := Option.some.inj moved
      exact ⟨pc, stays ⟨rfl, rfl, rfl⟩ rfl⟩
  | call i e =>
      obtain ⟨c, w, next, _, called, rfl⟩ := call_step ch s.driver d i e moved
      obtain ⟨apart, signal⟩ := call_apart ch e s.driver.world w c next called
      exact ⟨pc, inv_apart ch s pc pc _ inv apart single goes rfl inv.held id (.inl signal)⟩
  | task i e =>
      obtain ⟨pc', w, next, present, ran, rfl⟩ := task_step ch s.driver d i e moved
      rw [single] at present
      obtain ⟨rfl, rfl⟩ : i = 0 ∧ pc' = pc := by
        cases i with
        | zero => exact ⟨rfl, by simpa using present.symm⟩
        | succ i => simp at present
      have tasks : s.driver.tasks.set 0 next = [next] := by rw [single]; rfl
      refine ⟨next, ?_⟩
      cases pc' with
      | rxNext v g =>
          obtain ⟨rfl, rfl⟩ := Prod.mk.inj (Option.some.inj ran)
          have cleared : cleans s.driver (.task 0 e) = true := by simp [cleans, single]
          simp only [cleared, if_true]
          exact inv_next ch s v g _ inv rfl tasks goes
      | _ =>
          have cleared : cleans s.driver (.task 0 e) = false := by simp [cleans, single]
          simp only [cleared, Bool.false_eq_true, if_false]
          exact inv_task ch s _ next e w _ inv ran rfl tasks goes nofun
  | signal more =>
      obtain rfl := Option.some.inj moved
      refine ⟨pc, inv_apart ch s pc pc _ inv ⟨rfl, fun unbroken => ?_, [], by simp, fun _ => rfl⟩
        single goes rfl inv.held id (.inl fun raised => ?_)⟩
      · have quiet : more.ctrlC = false := by simpa [driverActs] using acts
        simp only [Signals.join, unbroken, quiet, Bool.or_false]
      · simp only [Signals.join, raised, Bool.true_or]
  | dma ring mem => cases acts
  | openDevice bmCookie allocated outcome =>
      have opened : s.driver.world.unit.openCount ≠ 0 := by
        simpa [driverActs, inSession] using acts
      rcases open_step ch s.driver d bmCookie allocated outcome moved with
        rfl | ⟨_, rfl⟩ | ⟨closed, _⟩ | ⟨closed, _⟩
      · exact ⟨pc, stays ⟨rfl, rfl, rfl⟩ rfl⟩
      · exact ⟨pc, stays ⟨rfl, rfl, rfl⟩ rfl⟩
      · exact absurd closed opened
      · exact absurd closed opened
  | closeDevice bmCookie =>
      obtain rfl := Option.some.inj moved
      refine ⟨pc, stays ?_ rfl⟩
      simp only [goesOn, Bool.and_eq_true, Bool.not_eq_true'] at goes
      obtain ⟨_, unstopped⟩ := goes
      simp only [close, unitTaskShutdown] at unstopped ⊢
      by_cases last : s.driver.world.unit.openCount = 1
      · by_cases running : s.driver.world.unit.task = true
        · simp [last, running] at unstopped
        · simp only [if_pos last, if_neg running]
          exact ⟨rfl, rfl, rfl⟩
      · simp only [if_neg last]
        exact ⟨rfl, rfl, rfl⟩
  | teardown i => cases acts

theorem armed_ready (ch : Channels) (e : ArmEnv) (u : UnitRx)
    (writes : (postRxBuffers ch e u).2 ≠ []) : ringsReady (postRxBuffers ch e u).1 = true := by
  by_cases refused : ringsReady u = false ∨ mapsNext e.buf u = false
  · exact absurd (postRxBuffers_refused ch e u refused).1 writes
  · simp only [not_or, Bool.not_eq_false] at refused
    obtain ⟨_, ringPtr, bufPtr, _⟩ := allocRxBufs_frame e.buf numRxBufs 0 u 0
    rw [postRxBuffers_granted ch e u refused.1 refused.2, armRings_ready]
    simpa only [ringsReady, ringPtr, bufPtr] using refused.1

theorem wake_reached (ch : Channels) (s : WakeSystem) (reached : (wakeMachine ch).Reached s) :
    ∃ pc, WakeInv ch s pc := by
  refine (wakeMachine ch).invariant (fun s => ∃ pc, WakeInv ch s pc) ?_ ?_ s reached
  · intro s armedNow
    obtain ⟨e, u, writes, same⟩ := armedNow.ring
    obtain ⟨r, fin, tasks⟩ := armedNow.handling
    refine ⟨_, .start s.receive armedNow.ring, tasks, by simp [Held], armedNow.goes, ?_,
      armedNow.unbroken, ?_⟩
    · have ready := armed_ready ch e u writes
      have rx := congrArg RxSystem.rx same
      exact (congrArg ringsReady rx).trans ready
    · rintro ⟨j, low, high, _⟩
      have none := congrArg RxSystem.written same
      simp only [WakeSystem.receive, armed] at none
      omega
  · rintro s a t ⟨pc, inv⟩ stepped
    cases a with
    | driver a => exact inv_driver ch s t pc a inv stepped
    | complete c mem => exact ⟨pc, inv_complete ch s t pc c mem inv stepped⟩
    | count j => exact ⟨pc, inv_count ch s t pc j inv stepped⟩
    | interrupt ps => exact ⟨pc, inv_interrupt ch s t pc ps inv stepped⟩

/-- When the unit task is blocked in `Wait` without the handler's signal and a completed frame is
at the cursor, then it is frame `cleaned`, and either its count is still to come or the interrupt
is pending, or the handler has just dropped the interrupt and signals next. -/
theorem no_lost_wakeup (ch : Channels) (s : WakeSystem) (reached : (wakeMachine ch).Reached s)
    (blocked : s.driver.tasks = [.waiting])
    (unsignalled : s.driver.world.signals.irq = false)
    (group : owned (s.driver.world.unit.rx.rxRing.get s.driver.world.unit.rx.rxNextClean) =
      true) :
    (s.cleaned < s.written ∧ s.driver.world.unit.rx.rxNextClean = 4 * s.cleaned % rxRingSize) ∧
    (s.handler ≠ .acked → s.cleaned ∈ s.outstanding ∨ s.iob.intgen = true) ∧
    (s.handler = .acked → ∀ ps, ∃ t, (wakeMachine ch).step s (.interrupt ps) = some t ∧
      t.driver.world.signals.irq = true) := by
  obtain ⟨pc, inv⟩ := wake_reached ch s reached
  obtain rfl : pc = .waiting := by simpa [blocked] using inv.single.symm
  have desc := descInv_reached ch s.receive inv.ring
  have outside : s.receive.loop = none := by simp only [WakeSystem.receive, blocked]; rfl
  have pending : s.cleaned < s.written :=
    groupInv_pending s.receive (enterRing s.receive.rx) desc.toGroupInv group
  refine ⟨⟨pending, ?_⟩, fun between => ?_, fun acked ps => ?_⟩
  · have cursor := desc.cursor
    have reduced := desc.reduced outside
    simp only [RxSystem.cursor, outside] at cursor
    simp only [WakeSystem.receive, uncounted] at cursor reduced
    simp only [rxRingSize]
    omega
  · by_cases out : s.cleaned ∈ s.outstanding
    · exact .inl out
    · rcases inv.awake ⟨s.cleaned, le_refl _, pending, out⟩ with raised | acked | signalled | looks
      · exact .inr raised
      · exact absurd acked between
      · rw [unsignalled] at signalled
        cases signalled
      · cases looks
  · have goes := inv.goes
    simp only [goesOn, Bool.and_eq_true] at goes
    refine ⟨_, by simp only [wakeMachine, wakeStep, acked]; rfl, ?_⟩
    simp only [WakeSystem.signal, Signals.join, goes.1.2, Bool.or_true]

theorem uncounted_same (u : UnitRx) (rx : u.statRx = 0#32) (dropped : u.statRxDropped = 0#32) :
    uncounted u = u := by
  cases u
  simp only [uncounted, UnitRx.mk.injEq] at rx dropped ⊢
  simp [rx, dropped]

def armedWake : WakeSystem where
  driver :=
    { world :=
        { coldWorld with
          unit :=
            { coldWorld.unit with
              openCount := 1
              online := true
              task := true
              ioPort := some []
              irqWaitTask := true
              rx := (armed ⟨0, 0, 0⟩ (mappedEnv 1) coldRx).rx } }
      calls := []
      tasks := [.handling 1 [.signalEvent s2eventOnline] ⟨.ok, some 0#32⟩] }
  engine := (armed ⟨0, 0, 0⟩ (mappedEnv 1) coldRx).engine
  iob := ⟨0, false⟩
  handler := .idle
  outstanding := []
  written := 0
  cleaned := 0

theorem armedWake_armed : ArmedSession ⟨0, 0, 0⟩ armedWake where
  ring := by
    refine ⟨mappedEnv 1, coldRx, by decide +kernel, ?_⟩
    have same : uncounted (armed ⟨0, 0, 0⟩ (mappedEnv 1) coldRx).rx =
        (armed ⟨0, 0, 0⟩ (mappedEnv 1) coldRx).rx :=
      uncounted_same _ (by decide +kernel) (by decide +kernel)
    simp only [WakeSystem.receive, armedWake, same]
    rfl
  handling := ⟨1, _, rfl⟩
  goes := rfl
  unbroken := rfl
  raised := by decide
  counted := rfl

/-- The unit task goes to `Wait`, and the engine completes a frame that it has not counted yet. -/
theorem no_lost_wakeup_counting :
    ∃ s, (wakeMachine ⟨0, 0, 0⟩).Reached s ∧ s.driver.tasks = [.waiting] ∧ s.handler ≠ .acked ∧
      (s.cleaned ∈ s.outstanding ∨ s.iob.intgen = true) := by
  obtain ⟨s, reached, shape⟩ := (wakeMachine ⟨0, 0, 0⟩).run_shape
    (fun s => (s.driver.tasks, s.driver.world.signals.irq, s.handler,
      owned (s.driver.world.unit.rx.rxRing.get s.driver.world.unit.rx.rxNextClean)))
    ([.waiting], false, .idle, true) armedWake
    (List.replicate 6 (.driver (.task 0 taskEnv)) ++
      [.complete ⟨xctMacrxO, 0#64, 0#64, 0#64⟩ fun _ => 0])
    (.start _ armedWake_armed) (by decide +kernel)
  simp only [Prod.mk.injEq] at shape
  obtain ⟨blocked, unsignalled, handler, group⟩ := shape
  have between : s.handler ≠ .acked := by simp [handler]
  exact ⟨s, reached, blocked, between,
    (no_lost_wakeup ⟨0, 0, 0⟩ s reached blocked unsignalled group).2.1 between⟩

end Pa6tEth

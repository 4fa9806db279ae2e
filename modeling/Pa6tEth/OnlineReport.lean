import Pa6tEth.Sessions
import Pa6tEth.Wakeup
import Mathlib.Data.List.Pairwise

/-! What the unit task tells the client and the event waiters after `PA6TEth_PostRxBuffers`. -/

namespace Pa6tEth

open Support World

/-- The registers that enable the RX interface, both channels and the MAC, with the bit for it. -/
def engineEnables (ch : Channels) : List (Reg × BitVec 32) :=
  [(.rxintRcmdsta ch.dmaIf, rxintRcmdstaEn),
   (.rxchanCcmdsta ch.rxChannelNum, rxchanCcmdstaEn),
   (.txchanTcmdsta ch.txChannelNum, txchanTcmdstaEn),
   (.macPcfg, macPcfgPe)]

/-- The bit as it was last written; `Init` leaves all of them clear. -/
def enabledBy (enable : Reg × BitVec 32) (regs : List RegWrite) : Bool :=
  regs.foldl (fun on w => if w.reg = enable.1 then w.value &&& enable.2 ≠ 0#32 else on) false

def enginesUp (ch : Channels) (regs : List RegWrite) : Bool :=
  (engineEnables ch).all fun enable => enabledBy enable regs

/-- A call of `PostRxBuffers` gets to its register writes: both rings are there, and so is memory
for the first missing buffer. -/
def arms (e : ArmEnv) (u : UnitRx) : Bool := ringsReady u && mapsNext e.buf u

/-- What the handler of a request does between taking the command up and its reply. -/
inductive HandlerEvent
  | took (r : ReqId) (c : Command) (online : Bool)
  | called (r : ReqId) (arms : Bool)
  | signalled (r : ReqId) (mask : BitVec 32)
  deriving DecidableEq, Repr

def placeEvents (w : World) (e : TaskEnv) : TaskPc → List HandlerEvent
  | .received r => [.took r (w.reqs r).command w.unit.online]
  | .handling r (.postRxBuffers :: _) _ => [.called r (arms e.arm w.unit.rx)]
  | .handling r (.signalEvent mask :: _) _ => [.signalled r mask]
  | _ => []

def handlerEvents (s : Driver) : Action → List HandlerEvent
  | .task i e => ((s.tasks[i]?).map (placeEvents s.world e)).getD []
  | _ => []

def Armed (events : List HandlerEvent) : Prop := ∃ r, .called r true ∈ events

/-- The request has just been replied to. With an engine that is not enabled it has an error, the
unit is offline and nobody was told otherwise; without an error and with the unit online all are
enabled. -/
def OnlineReported (ch : Channels) (r : ReqId) (since : List HandlerEvent) (w : World) : Prop :=
  ∃ asked done, w.answers.head? = some (r, .replied .unitTask asked done) ∧
    (enginesUp ch w.regs = false →
      done.error ≠ .ok ∧ w.unit.online = false ∧ .signalled r s2eventOnline ∉ since) ∧
    (done.error = .ok → w.unit.online = true → enginesUp ch w.regs = true)

/-- The writes that follow set the bit wherever they write its register. -/
def Enabling (enable : Reg × BitVec 32) (writes : List RegWrite) : Prop :=
  ∀ w ∈ writes, w.reg = enable.1 → w.value &&& enable.2 ≠ 0#32

theorem enabledBy_kept (enable : Reg × BitVec 32) (regs writes : List RegWrite)
    (enabling : Enabling enable writes) :
    enabledBy enable (regs ++ writes) =
      (enabledBy enable regs || writes.any fun w => w.reg = enable.1) := by
  simp only [enabledBy, List.foldl_append]
  generalize regs.foldl _ false = before
  induction writes generalizing before with
  | nil => simp
  | cons w rest ih =>
      have later := fun on => ih (fun x member => enabling x (List.mem_cons_of_mem w member)) on
      rw [List.foldl_cons, later, List.any_cons]
      by_cases here : w.reg = enable.1
      · have bit := enabling w List.mem_cons_self here
        simp [here, bit]
      · simp [here]

/-- A step that writes none of the enable bits as zero, and none of the RX interface's. -/
def EnablesKept (ch : Channels) (w v : World) : Prop :=
  ∃ new, v.regs = w.regs ++ new ∧ (∀ enable ∈ engineEnables ch, Enabling enable new) ∧
    ∀ x ∈ new, x.reg ≠ .rxintRcmdsta ch.dmaIf

theorem enables_same (ch : Channels) (w v : World) (same : v.regs = w.regs) :
    EnablesKept ch w v :=
  ⟨[], by simp [same], by simp [Enabling], by simp⟩

theorem call_enables (ch : Channels) (e : CallEnv) (w v : World) (c : Call) (next : Option Call)
    (stepped : callStep ch e w c = some (v, next)) : EnablesKept ch w v := by
  cases c with
  | beginIo r =>
      obtain ⟨rfl, rfl⟩ := Prod.mk.inj (Option.some.inj stepped)
      obtain ⟨q, openers, reports, same⟩ := beginIo_frame e w r
      exact enables_same ch _ _ (by rw [same]; rfl)
  | replying r err werr sent =>
      obtain ⟨rfl, rfl⟩ := Prod.mk.inj (Option.some.inj stepped)
      refine enables_same ch _ _ ?_
      simp only [replyIoreq]
      split <;> rfl
  | queueing r =>
      obtain ⟨w', put, same⟩ := Option.map_eq_some_iff.mp stepped
      obtain ⟨rfl, rfl⟩ := Prod.mk.inj same
      obtain ⟨port, _, rfl⟩ := Option.map_eq_some_iff.mp put
      exact enables_same ch _ _ rfl
  | submitting r f =>
      obtain ⟨rfl, rfl⟩ := Prod.mk.inj (Option.some.inj stepped)
      refine ⟨_, rfl, fun enable member => ?_, by simp⟩
      simp only [engineEnables, List.mem_cons, List.not_mem_nil, or_false] at member
      rcases member with rfl | rfl | rfl | rfl <;> simp [Enabling, txchanTcmdstaEn]
  | _ =>
      simp only [callStep] at stepped
      repeat' split at stepped
      all_goals
        obtain ⟨rfl, rfl⟩ := Prod.mk.inj (Option.some.inj stepped)
        exact enables_same ch _ _ rfl

theorem leaveRing_enables (ch : Channels) (w v : World) (l : RxLoop)
    (left : v.regs = w.regs ++ (leaveRing ch w.unit.rx l).2) : EnablesKept ch w v := by
  refine ⟨_, left, fun enable member => ?_, ?_⟩
  · simp only [engineEnables, List.mem_cons, List.not_mem_nil, or_false] at member
    simp only [leaveRing, Enabling]
    split
    · rcases member with rfl | rfl | rfl | rfl <;> simp
    · simp
  · simp only [leaveRing]
    split <;> simp

theorem rxBody_enables (ch : Channels) (w : World) (l : RxLoop) :
    EnablesKept ch w (rxBody ch w l).1 := by
  simp only [rxBody]
  split
  · exact leaveRing_enables ch w _ l rfl
  · split
    · exact enables_same ch _ _ rfl
    · exact enables_same ch _ _ (offer_still w l _ _).2.2

theorem task_enables (ch : Channels) (e : TaskEnv) (w v : World) (pc next : TaskPc)
    (stepped : taskStep ch e w pc = some (v, next))
    (unarmed : ∀ r ops fin, pc ≠ .handling r (.postRxBuffers :: ops) fin) :
    EnablesKept ch w v := by
  cases pc with
  | handling r ops fin =>
      obtain _ | ⟨op, ops⟩ := ops <;> obtain ⟨rfl, rfl⟩ := Prod.mk.inj (Option.some.inj stepped)
      · exact enables_same ch _ _ rfl
      · have other : op ≠ .postRxBuffers := fun same => unarmed r ops fin (by rw [same])
        exact enables_same ch _ _ (runOp_still ch e w op other).2.2
  | rxLoop l =>
      obtain ⟨rfl, _⟩ := Prod.mk.inj (Option.some.inj stepped)
      exact rxBody_enables ch w l
  | exitFlush =>
      obtain ⟨rfl, _⟩ := Prod.mk.inj (Option.some.inj stepped)
      exact enables_same ch _ _ (flushReadQueue_still .aborted w).2.2
  | exitFlushEvents =>
      obtain ⟨rfl, _⟩ := Prod.mk.inj (Option.some.inj stepped)
      exact enables_same ch _ _ (sweepEvents_still _ _ _ w).2.2
  | drained => cases stepped
  | _ =>
      simp only [taskStep] at stepped
      repeat' split at stepped
      all_goals first
        | (obtain ⟨rfl, _⟩ := Prod.mk.inj (Option.some.inj stepped)
           exact enables_same ch _ _ rfl)
        | cases stepped

theorem armWrites_enables (ch : Channels) (e : ArmEnv) (enable : Reg × BitVec 32)
    (member : enable ∈ engineEnables ch) :
    Enabling enable (armWrites ch e) ∧
      (armWrites ch e).any (fun w => w.reg = enable.1) = true := by
  have bus : ∀ reg command w, w ∈ pciEnable reg command → w.reg = reg := by
    intro reg command w written
    simp only [pciEnable] at written
    split at written <;> simp_all
  have mac := fun w => bus .macPciCommand e.macCommand w
  have dma := fun w => bus .dmaPciCommand e.dmaCommand w
  simp only [engineEnables, List.mem_cons, List.not_mem_nil, or_false] at member
  constructor
  · intro w written here
    simp only [armWrites, creditWrites, enableWrites, List.mem_append, List.mem_cons,
      List.not_mem_nil, or_false] at written
    rcases member with rfl | rfl | rfl | rfl <;>
      rcases written with (rfl | rfl | rfl | rfl | rfl) | (((rfl | rfl) | bus) | bus) |
        (rfl | rfl | rfl | rfl | rfl | rfl) <;>
      first
        | (cases here; done)
        | cases (mac w bus).symm.trans here
        | cases (dma w bus).symm.trans here
        | (dsimp only; decide)
  · rcases member with rfl | rfl | rfl | rfl <;> simp [armWrites, creditWrites, enableWrites]

/-- The engines are enabled by a call that arms, and by nothing else. -/
structure EnablesTold (ch : Channels) (w : World) (events : List HandlerEvent) : Prop where
  up : Armed events → ∀ enable ∈ engineEnables ch, enabledBy enable w.regs = true
  armed : enabledBy (.rxintRcmdsta ch.dmaIf, rxintRcmdstaEn) w.regs = true → Armed events

def HandlersTold (s : Driver) (events : List HandlerEvent) : Prop :=
  ∀ r ops fin, .handling r ops fin ∈ s.tasks →
    ∃ before c online since, events = before ++ .took r c online :: since ∧
      (∀ c' online', .took r c' online' ∉ since) ∧ fin = (commandOps online c).2

theorem enablesTold_kept (ch : Channels) (w v : World) (events more : List HandlerEvent)
    (kept : EnablesKept ch w v) (unarmed : ¬ Armed more) (told : EnablesTold ch w events) :
    EnablesTold ch v (events ++ more) := by
  obtain ⟨new, regs, enabling, other⟩ := kept
  constructor
  · rintro ⟨r, member⟩ enable listed
    have earlier : Armed events :=
      (List.mem_append.mp member).elim (fun old => ⟨r, old⟩) fun new => absurd ⟨r, new⟩ unarmed
    rw [regs, enabledBy_kept enable _ _ (enabling enable listed), told.up earlier enable listed,
      Bool.true_or]
  · intro enabled
    have untouched : (new.any fun x => x.reg = .rxintRcmdsta ch.dmaIf) = false := by
      simpa using other
    rw [regs, enabledBy_kept _ _ _ (enabling _ List.mem_cons_self), untouched,
      Bool.or_false] at enabled
    obtain ⟨r, member⟩ := told.armed enabled
    exact ⟨r, List.mem_append_left _ member⟩

theorem enablesTold_call (ch : Channels) (e : TaskEnv) (w : World) (r : ReqId)
    (events : List HandlerEvent) (told : EnablesTold ch w events) :
    EnablesTold ch (runOp ch e w .postRxBuffers) (events ++ [.called r (arms e.arm w.unit.rx)]) := by
  cases granted : arms e.arm w.unit.rx with
  | true =>
      have here : Armed (events ++ [.called r true]) :=
        ⟨r, List.mem_append_right _ List.mem_cons_self⟩
      obtain ⟨ready, next⟩ := Bool.and_eq_true_iff.mp granted
      refine ⟨fun _ enable listed => ?_, fun _ => here⟩
      obtain ⟨enabling, written⟩ := armWrites_enables ch e.arm enable listed
      simp only [runOp, postRxBuffers_granted ch e.arm w.unit.rx ready next]
      rw [enabledBy_kept enable _ _ enabling, written, Bool.or_true]
  | false =>
      have refused := Bool.and_eq_false_iff.mp granted
      have silent := (postRxBuffers_refused ch e.arm w.unit.rx refused).1
      refine enablesTold_kept ch w _ events _ (enables_same ch w _ ?_) ?_ told
      · simp only [runOp, silent, List.append_nil]
      · rintro ⟨r', member⟩
        simp at member

theorem handlers_apart (ch : Channels) (s : Driver) (reached : (unitMachine ch).Reached s)
    (pc pc' : TaskPc) (first : pc ∈ s.tasks) (second : pc' ∈ s.tasks) (apart : pc ≠ pc') :
    ∀ p ∈ pc.claim, ∀ p' ∈ pc'.claim, p.1 ≠ p'.1 := by
  have distinct := kept_nodup _ _ _ (kept_reached ch s reached)
  simp only [Ledger.items, Driver.ledger, ledger, Driver.places, List.map_append,
    List.map_flatMap] at distinct
  have tasks := (List.nodup_append.mp (List.nodup_append.mp distinct).2.1).1
  have pairs := (List.nodup_flatMap.mp tasks).2
  have symmetric : Std.Symm (Function.onFun List.Disjoint fun a : TaskPc => a.claim.map Prod.fst) :=
    ⟨fun _ _ given => List.disjoint_symm given⟩
  have disjoint := pairs.forall first second apart
  intro p claimed p' held same
  exact disjoint (List.mem_map_of_mem claimed) (same ▸ List.mem_map_of_mem held)

theorem handling_from (ch : Channels) (e : TaskEnv) (w v : World) (pc : TaskPc) (r : ReqId)
    (ops : List TaskOp) (fin : Finish)
    (stepped : taskStep ch e w pc = some (v, .handling r ops fin)) :
    pc = .received r ∧ fin = (commandOps w.unit.online (w.reqs r).command).2 ∨
      ∃ op, pc = .handling r (op :: ops) fin := by
  rcases handling_step ch e w v pc r ops fin stepped with ⟨rfl, _⟩ | later
  · have next := (Prod.mk.inj (Option.some.inj stepped)).2
    exact .inl ⟨rfl, (TaskPc.handling.inj next).2.2.symm⟩
  · exact .inr later

theorem placeEvents_took (w : World) (e : TaskEnv) (pc : TaskPc) (r : ReqId) (c : Command)
    (online : Bool) (took : .took r c online ∈ placeEvents w e pc) : pc = .received r := by
  cases pc with
  | received r' =>
      simp only [placeEvents, List.mem_singleton, HandlerEvent.took.injEq] at took
      rw [took.1]
  | handling r' ops fin =>
      obtain _ | ⟨op, ops⟩ := ops
      · cases took
      · cases op <;> simp [placeEvents] at took
  | _ => cases took

theorem handlersTold_task (ch : Channels) (s : Driver) (i : Nat) (e : TaskEnv) (pc next : TaskPc)
    (w : World) (events : List HandlerEvent) (reached : (unitMachine ch).Reached s)
    (present : s.tasks[i]? = some pc) (ran : taskStep ch e s.world pc = some (w, next))
    (told : HandlersTold s events) :
    HandlersTold { s with world := w, tasks := s.tasks.set i next }
      (events ++ placeEvents s.world e pc) := by
  have member := List.mem_of_getElem? present
  have goesOn : ∀ r ops fin, .handling r ops fin ∈ s.tasks →
      ∃ before c online since, events ++ placeEvents s.world e pc =
          before ++ .took r c online :: since ∧
        (∀ c' online', .took r c' online' ∉ since) ∧ fin = (commandOps online c).2 := by
    intro r ops fin handling
    obtain ⟨before, c, online, since, same, last, ends⟩ := told r ops fin handling
    refine ⟨before, c, online, since ++ placeEvents s.world e pc, by simp [same],
      fun c' online' again => ?_, ends⟩
    rcases List.mem_append.mp again with old | new
    · exact last c' online' old
    · obtain rfl := placeEvents_took s.world e pc r c' online' new
      exact handlers_apart ch s reached _ _ member handling nofun _ List.mem_cons_self _
        List.mem_cons_self rfl
  intro r ops fin handling
  rcases List.mem_or_eq_of_mem_set handling with old | rfl
  · exact goesOn r ops fin old
  · rcases handling_from ch e s.world w pc r ops fin ran with ⟨rfl, ends⟩ | ⟨op, rfl⟩
    · exact ⟨events, _, _, [], rfl, by simp, ends⟩
    · exact goesOn r _ fin member

theorem enablesTold_task (ch : Channels) (e : TaskEnv) (w v : World) (pc next : TaskPc)
    (events : List HandlerEvent) (ran : taskStep ch e w pc = some (v, next))
    (told : EnablesTold ch w events) : EnablesTold ch v (events ++ placeEvents w e pc) := by
  by_cases calls : ∃ r ops fin, pc = .handling r (.postRxBuffers :: ops) fin
  · obtain ⟨r, ops, fin, rfl⟩ := calls
    obtain ⟨rfl, rfl⟩ := Prod.mk.inj (Option.some.inj ran)
    exact enablesTold_call ch e w r events told
  · have unarmed : ∀ r ops fin, pc ≠ .handling r (.postRxBuffers :: ops) fin :=
      fun r ops fin same => calls ⟨r, ops, fin, same⟩
    refine enablesTold_kept ch w v events _ (task_enables ch e w v pc next ran unarmed) ?_ told
    rintro ⟨r, member⟩
    cases pc with
    | handling r' ops fin =>
        obtain _ | ⟨op, ops⟩ := ops
        · cases member
        · cases op with
          | postRxBuffers => exact unarmed r' ops fin rfl
          | _ => simp [placeEvents] at member
    | received r' => simp [placeEvents] at member
    | _ => cases member

/-- What a run has noted of its handlers and of the enable bits. -/
structure Told (ch : Channels) (s : Driver) (events : List HandlerEvent) : Prop where
  reached : (unitMachine ch).Reached s
  handlers : HandlersTold s events
  enables : EnablesTold ch s.world events

theorem told_same (ch : Channels) (s t : Driver) (events : List HandlerEvent)
    (told : Told ch s events) (reached : (unitMachine ch).Reached t)
    (tasks : ∀ pc ∈ t.tasks, pc ∈ s.tasks ∨ pc = .loopHead)
    (kept : EnablesKept ch s.world t.world) : Told ch t (events ++ []) := by
  refine ⟨reached, ?_, enablesTold_kept ch s.world t.world events [] kept ?_ told.enables⟩
  · intro r ops fin handling
    rw [List.append_nil]
    exact told.handlers r ops fin ((tasks _ handling).resolve_right nofun)
  · rintro ⟨r, member⟩
    cases member

theorem close_regs (w : World) (bmCookie : Addr) : (w.close bmCookie).regs = w.regs := by
  simp only [close, unitTaskShutdown]
  split_ifs <;> rfl

theorem unitTaskStart_regs (w : World) (outcome : StartOutcome) :
    (w.unitTaskStart outcome).regs = w.regs := by
  cases outcome <;> rfl

theorem told_step (ch : Channels) (s : Driver) (events : List HandlerEvent) (a : Action)
    (t : Driver) (told : Told ch s events) (stepped : (unitMachine ch).step s a = some t) :
    Told ch t (events ++ handlerEvents s a) := by
  have reached : (unitMachine ch).Reached t := .step s a t told.reached stepped
  have aside := told_same ch s t events told reached
  cases a with
  | submit r q =>
      obtain ⟨_, rfl⟩ := submit_step ch s t r q stepped
      exact aside (fun pc old => .inl old) (enables_same ch _ _ rfl)
  | call i e =>
      obtain ⟨c, w, next, _, ran, rfl⟩ := call_step ch s t i e stepped
      exact aside (fun pc old => .inl old) (call_enables ch e _ _ c next ran)
  | task i e =>
      obtain ⟨pc, w, next, present, ran, rfl⟩ := task_step ch s t i e stepped
      simp only [handlerEvents, present, Option.map_some, Option.getD_some]
      exact ⟨reached,
        handlersTold_task ch s i e pc next w events told.reached present ran told.handlers,
        enablesTold_task ch e s.world w pc next events ran told.enables⟩
  | openDevice bmCookie allocated outcome =>
      rcases open_step ch s t bmCookie allocated outcome stepped with
        rfl | ⟨_, rfl⟩ | ⟨_, _, rfl⟩ | ⟨_, _, rfl⟩
      · exact aside (fun pc old => .inl old) (enables_same ch _ _ rfl)
      · exact aside (fun pc old => .inl old) (enables_same ch _ _ rfl)
      · exact aside (fun pc old => .inl old)
          (enables_same ch _ _ (unitTaskStart_regs s.world outcome))
      · exact aside (fun pc member => (List.mem_cons.mp member).symm)
          (enables_same ch _ _ (unitTaskStart_regs s.world outcome))
  | closeDevice bmCookie =>
      obtain rfl := Option.some.inj stepped
      exact aside (fun pc old => .inl old) (enables_same ch _ _ (close_regs s.world bmCookie))
  | teardown i =>
      obtain ⟨_, rfl⟩ := teardown_step ch s t i stepped
      exact aside (fun pc old => .inl (List.mem_of_mem_eraseIdx old)) (enables_same ch _ _ rfl)
  | _ =>
      obtain rfl := Option.some.inj stepped
      exact aside (fun pc old => .inl old) (enables_same ch _ _ rfl)

theorem told_start (ch : Channels) (s : Driver) (cold : Cold s) (quiet : s.world.regs = []) :
    Told ch s [] := by
  refine ⟨.start s cold, fun r ops fin handling => ?_, ?_, fun enabled => ?_⟩
  · simp [cold.tasks] at handling
  · rintro ⟨r, member⟩
    cases member
  · simp [enabledBy, quiet] at enabled

/-- The engines are enabled exactly when a call has armed. -/
theorem told_up (ch : Channels) (s : Driver) (events : List HandlerEvent)
    (told : Told ch s events) : enginesUp ch s.world.regs = true ↔ Armed events := by
  simp only [enginesUp, List.all_eq_true]
  exact ⟨fun all => told.enables.armed (all _ List.mem_cons_self),
    fun armed enable listed => told.enables.up armed enable listed⟩

theorem last_took (r : ReqId) (events : List HandlerEvent) (before before' : List HandlerEvent)
    (c c' : Command) (online online' : Bool) (since since' : List HandlerEvent)
    (first : events = before ++ .took r c online :: since)
    (second : events = before' ++ .took r c' online' :: since')
    (last : ∀ c online, .took r c online ∉ since)
    (last' : ∀ c online, .took r c online ∉ since') :
    c = c' ∧ online = online' ∧ since = since' := by
  rw [first] at second
  rcases List.append_eq_append_iff.mp second with ⟨gap, front, back⟩ | ⟨gap, front, back⟩
  · obtain _ | ⟨head, gap⟩ := gap
    · simpa [and_assoc] using back
    · simp only [List.cons_append, List.cons.injEq] at back
      exact absurd (back.2 ▸ List.mem_append_right _ List.mem_cons_self) (last c' online')
  · obtain _ | ⟨head, gap⟩ := gap
    · obtain ⟨same, rest⟩ := List.cons.inj back
      simp only [HandlerEvent.took.injEq] at same
      exact ⟨same.2.1.symm, same.2.2.symm, rest.symm⟩
    · simp only [List.cons_append, List.cons.injEq] at back
      exact absurd (back.2 ▸ List.mem_append_right _ List.mem_cons_self) (last' c online)

theorem commandOps_reply (c : Command) (turns : c.turnsOnline = true) :
    (commandOps false c).2 = ⟨.ok, some 0#32⟩ := by
  cases c with
  | configInterface => rfl
  | online => rfl
  | _ => cases turns

/-- In every run a command that finds the unit offline and turns it online is answered truly
exactly when a call of `PostRxBuffers` has armed by then. -/
theorem online_reported_iff (ch : Channels) (s t u : Driver) (cold : Cold s)
    (quiet : s.world.regs = []) (actions : List Action)
    (ran : (unitMachine ch).run s actions = some t) (i : Nat) (e : TaskEnv) (r : ReqId)
    (fin : Finish) (ending : t.tasks[i]? = some (.handling r [] fin))
    (replied : (unitMachine ch).step t (.task i e) = some u) (c : Command)
    (before since : List HandlerEvent) (turns : c.turnsOnline = true)
    (told : (unitMachine ch).trace handlerEvents s actions =
      before ++ .took r c false :: since)
    (last : ∀ c online, .took r c online ∉ since) :
    OnlineReported ch r since u.world ↔
      Armed ((unitMachine ch).trace handlerEvents s actions) := by
  have known := (unitMachine ch).trace_invariant handlerEvents (Told ch) (told_step ch) s t []
    actions (told_start ch s cold quiet) ran
  rw [List.nil_append] at known
  obtain ⟨before', c', online', since', told', last', ends⟩ :=
    known.handlers r [] fin (List.mem_of_getElem? ending)
  obtain ⟨rfl, rfl, rfl⟩ := last_took r _ before before' c c' false online' since since' told told'
    last last'
  rw [commandOps_reply c turns] at ends
  subst ends
  obtain ⟨pc, w, next, present, moved, rfl⟩ := task_step ch t u i e replied
  obtain rfl := Option.some.inj (ending.symm.trans present)
  obtain ⟨rfl, rfl⟩ := Prod.mk.inj (Option.some.inj moved)
  have up := told_up ch t _ known
  constructor
  · rintro ⟨asked, done, answer, failed, _⟩
    by_contra unarmed
    have down : enginesUp ch t.world.regs = false := by
      simpa only [Bool.not_eq_true] using mt up.mp unarmed
    have wrote : done.error = .ok := by
      simp only [replyMsg, List.head?_cons, Option.some.injEq, Prod.mk.injEq,
        Answer.replied.injEq] at answer
      rw [← answer.2.2.2]
      rfl
    exact (failed down).1 wrote
  · intro armed
    have enabled := up.mpr armed
    exact ⟨_, _, rfl, fun down => absurd (enabled.symm.trans down) (by decide), fun _ _ => enabled⟩

/-- `S2_CONFIGINTERFACE` of the first client up to its reply, with memory for this many buffers. -/
def configUp (count : Nat) : List Action :=
  .openDevice 0x77 true .started :: submitted 1 (request .configInterface 0#32 0 0#32) ++
    List.replicate 8 (.task 0 ⟨mappedEnv count, true⟩)

def configEvents (arms : Bool) : List HandlerEvent :=
  [.called 1 arms, .signalled 1 s2eventOnline]

theorem online_reported_armed :
    ∃ t u, (unitMachine ⟨0, 0, 0⟩).run coldDriver (configUp 1) = some t ∧
      (unitMachine ⟨0, 0, 0⟩).step t (.task 0 taskEnv) = some u ∧
      OnlineReported ⟨0, 0, 0⟩ 1 (configEvents true) u.world := by
  have ran : ((unitMachine ⟨0, 0, 0⟩).run coldDriver (configUp 1)).map
      (fun t => (t.tasks, (driverStep ⟨0, 0, 0⟩ t (.task 0 taskEnv)).isSome)) =
        some ([.handling 1 [] ⟨.ok, some 0#32⟩], true) := by
    decide +kernel
  have told : (unitMachine ⟨0, 0, 0⟩).trace handlerEvents coldDriver (configUp 1) =
      [] ++ .took 1 .configInterface false :: configEvents true := by
    decide +kernel
  obtain ⟨t, ends, shape⟩ := Option.map_eq_some_iff.mp ran
  obtain ⟨tasks, replies⟩ := Prod.mk.inj shape
  obtain ⟨u, stepped⟩ := Option.isSome_iff_exists.mp replies
  refine ⟨t, u, ends, stepped, (online_reported_iff ⟨0, 0, 0⟩ coldDriver t u coldDriver_cold rfl (configUp 1)
    ends 0 taskEnv 1 _ (by rw [tasks]; rfl) stepped .configInterface [] (configEvents true) rfl told
    (by simp [configEvents])).mpr ⟨1, ?_⟩⟩
  rw [told]
  decide

/-- Without memory for a single buffer the client is told that the unit is online, and so is
whoever waits for that event. -/
theorem unarmed_reported_online :
    ∃ t u, (unitMachine ⟨0, 0, 0⟩).run coldDriver (configUp 0) = some t ∧
      (unitMachine ⟨0, 0, 0⟩).step t (.task 0 taskEnv) = some u ∧
      (unitMachine ⟨0, 0, 0⟩).trace handlerEvents coldDriver (configUp 0) =
        .took 1 .configInterface false :: configEvents false ∧
      u.world.unit.online = true ∧ enginesUp ⟨0, 0, 0⟩ u.world.regs = false ∧
      ¬ OnlineReported ⟨0, 0, 0⟩ 1 (configEvents false) u.world := by
  have ran : ((unitMachine ⟨0, 0, 0⟩).run coldDriver (configUp 0)).map
      (fun t => (driverStep ⟨0, 0, 0⟩ t (.task 0 taskEnv)).map
        fun u => (u.world.unit.online, enginesUp ⟨0, 0, 0⟩ u.world.regs)) =
        some (some (true, false)) := by
    decide +kernel
  have told : (unitMachine ⟨0, 0, 0⟩).trace handlerEvents coldDriver (configUp 0) =
      .took 1 .configInterface false :: configEvents false := by
    decide +kernel
  obtain ⟨t, ends, shape⟩ := Option.map_eq_some_iff.mp ran
  obtain ⟨u, stepped, shape⟩ := Option.map_eq_some_iff.mp shape
  obtain ⟨online, down⟩ := Prod.mk.inj shape
  refine ⟨t, u, ends, stepped, told, online, down, ?_⟩
  rintro ⟨_, _, _, failed, _⟩
  have offline := (failed down).2.1
  rw [online] at offline
  cases offline

end Pa6tEth

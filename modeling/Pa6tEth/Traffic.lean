import Pa6tEth.OnlineReport
import Pa6tEth.Outcomes
import Pa6tEth.ProcessRx

/-! What the traffic of a unit adds up to: the packets that it was asked to send, and the groups
that the engine completed. -/

namespace Pa6tEth

open Support World

def Answer.sent : Answer → Bool
  | .returned asked done => asked.command.transmits && done.error == .ok
  | .replied _ asked done => asked.command.transmits && done.error == .ok

def sentReplies (answers : List (ReqId × Answer)) : List ReqId :=
  (answers.filter fun a => a.2.sent).map Prod.fst

namespace Call

/-- The call has rung the doorbell for the packet of its request, which is not completed yet. -/
def rung : Call → List ReqId
  | replying r _ _ true => [r]
  | _ => []

/-- The request whose packet the next step of the call hands to the engine. -/
def hands : Call → List ReqId
  | submitting r _ => [r]
  | _ => []

end Call

def Driver.handed (s : Driver) : Action → List ReqId
  | .call i _ => ((s.calls[i]?).map Call.hands).getD []
  | _ => []

def doorbells (ch : Channels) (regs : List RegWrite) : Nat :=
  regs.countP fun write => write.reg == .txchanIncr ch.txChannelNum

/-- A call that is about to report success of a write has handed its packet to the engine. -/
def HandsFirst (w : World) : Call → Prop
  | .replying r err _ sent =>
      if sent then err = .ok ∧ (w.asked r).command.transmits = true
      else err = .ok → (w.asked r).command.transmits = false
  | .transmitting r => (w.asked r).command.transmits = true
  | .submitting r _ => (w.asked r).command.transmits = true
  | _ => True

theorem handsFirst_own : OfRequests HandsFirst := by
  intro w v c asked reqs hands
  cases c with
  | replying r err werr sent =>
      simpa only [HandsFirst, asked _ List.mem_cons_self] using hands
  | transmitting r => simpa only [HandsFirst, asked _ List.mem_cons_self] using hands
  | submitting r f => simpa only [HandsFirst, asked _ List.mem_cons_self] using hands
  | _ => trivial

theorem beginIo_handsFirst (e : CallEnv) (w : World) (r : ReqId) (called : w.reqs r = w.asked r) :
    HandsFirst (beginIo e w r).1 (beginIo e w r).2 := by
  cases command : (w.reqs r).command with
  | sana2Hook =>
      have asked := called ▸ command
      simp only [beginIo, command]
      split <;> simp [HandsFirst, setReq, asked, Command.transmits]
  | _ =>
      have asked := called ▸ command
      simp only [beginIo, command]
      repeat' split
      all_goals simp [HandsFirst, setReq, asked, Command.transmits]

theorem handsFirst_steps (ch : Channels) : StepsKnown ch HandsFirst := by
  intro e w v c next known promised stepped
  cases c with
  | beginIo r =>
      obtain ⟨rfl, same⟩ := Prod.mk.inj (Option.some.inj stepped)
      rw [← Option.some.inj same]
      exact beginIo_handsFirst e w r (promised _ List.mem_cons_self)
  | replying r err werr sent =>
      cases sent with
      | false => simp [callStep] at stepped
      | true =>
          simp only [callStep, if_true, Option.some.injEq, Prod.mk.injEq] at stepped
          rw [← stepped.2]
          trivial
  | queueing r =>
      obtain ⟨w', _, same⟩ := Option.map_eq_some_iff.mp stepped
      simp at same
  | transmitting r =>
      simp only [callStep] at stepped
      split at stepped
      · rename_i q err werr refused
        obtain ⟨rfl, same⟩ := Prod.mk.inj (Option.some.inj stepped)
        rw [← Option.some.inj same]
        intro ok
        have stops : goesThrough e.tx w r = false := by
          by_contra goes
          rw [txBuild_goes e.tx w r (by simpa using goes)] at refused
          cases refused
        obtain ⟨_, _, _, again, failed⟩ := txBuild_stops e.tx w r stops
        rw [refused] at again
        obtain ⟨_, rfl, _⟩ := TxOutcome.refused.inj again
        exact absurd ok failed
      · obtain ⟨rfl, same⟩ := Prod.mk.inj (Option.some.inj stepped)
        rw [← Option.some.inj same]
        exact known
  | submitting r f =>
      obtain ⟨rfl, same⟩ := Prod.mk.inj (Option.some.inj stepped)
      rw [← Option.some.inj same]
      exact ⟨rfl, known⟩
  | _ =>
      simp only [callStep] at stepped
      repeat' split at stepped
      all_goals first
        | (obtain ⟨_, same⟩ := Prod.mk.inj (Option.some.inj stepped)
           rw [← Option.some.inj same]
           trivial)
        | simp at stepped

theorem sentReplies_cons (r : ReqId) (a : Answer) (answers : List (ReqId × Answer)) :
    sentReplies ((r, a) :: answers) = (if a.sent then [r] else []) ++ sentReplies answers := by
  simp only [sentReplies, List.filter_cons]
  split <;> rfl

theorem unsent_replyMsg (w : World) (r : ReqId) (q : IOSana2Req) (via : Via)
    (other : q.error ≠ .ok ∨ (w.asked r).command.transmits = false) :
    sentReplies (w.replyMsg r q via).answers = sentReplies w.answers := by
  have unsent : (Answer.replied via (w.asked r) q).sent = false := by
    rcases other with failed | kind
    · simp [Answer.sent, failed]
    · simp [Answer.sent, kind]
  simp only [replyMsg, sentReplies_cons, unsent, Bool.false_eq_true, if_false, List.nil_append]

theorem replyIoreq_sent (w : World) (r : ReqId) (err : IoError) (werr : BitVec 32) :
    sentReplies (w.replyIoreq r err werr).answers =
      (if (w.asked r).command.transmits && err == .ok then [r] else []) ++
        sentReplies w.answers := by
  simp only [replyIoreq]
  split
  · exact sentReplies_cons r _ w.answers
  · exact sentReplies_cons r _ w.answers

theorem beginIo_unrung (e : CallEnv) (w : World) (r : ReqId) : (beginIo e w r).2.rung = [] := by
  cases command : (w.reqs r).command with
  | sana2Hook =>
      simp only [beginIo, command]
      split <;> rfl
  | _ =>
      simp only [beginIo, command]
      repeat' split
      all_goals rfl

theorem call_sends (ch : Channels) (e : CallEnv) (w v : World) (c : Call) (next : Option Call)
    (first : HandsFirst w c) (stepped : callStep ch e w c = some (v, next)) :
    (c.hands ++ (c.rung ++ sentReplies w.answers)).Perm
      ((next.map Call.rung).getD [] ++ sentReplies v.answers) := by
  cases c with
  | beginIo r =>
      obtain ⟨rfl, rfl⟩ := Prod.mk.inj (Option.some.inj stepped)
      obtain ⟨q, openers, reports, same⟩ := beginIo_frame e w r
      have fresh := beginIo_unrung e w r
      simp only [Option.map_some, Option.getD_some, fresh]
      rw [same]
      exact List.Perm.refl _
  | replying r err werr sent =>
      obtain ⟨rfl, rfl⟩ := Prod.mk.inj (Option.some.inj stepped)
      rw [replyIoreq_sent]
      cases sent with
      | false =>
          have plain : ((w.asked r).command.transmits && err == .ok) = false := by
            by_cases ok : err = .ok
            · simp [show (w.asked r).command.transmits = false from first ok]
            · simp [ok]
          rw [plain]
          exact List.Perm.refl _
      | true =>
          obtain ⟨rfl, transmits⟩ := first
          simp [transmits, Call.hands, Call.rung]
  | queueing r =>
      obtain ⟨w', put, same⟩ := Option.map_eq_some_iff.mp stepped
      obtain ⟨rfl, rfl⟩ := Prod.mk.inj same
      obtain ⟨port, _, rfl⟩ := Option.map_eq_some_iff.mp put
      exact List.Perm.refl _
  | abortReply r =>
      obtain ⟨rfl, rfl⟩ := Prod.mk.inj (Option.some.inj stepped)
      rw [unsent_replyMsg w r _ _ (.inl IoError.noConfusion)]
      exact List.Perm.refl _
  | _ =>
      simp only [callStep] at stepped
      repeat' split at stepped
      all_goals
        obtain ⟨rfl, rfl⟩ := Prod.mk.inj (Option.some.inj stepped)
        exact List.Perm.refl _

theorem doorbells_append (ch : Channels) (regs writes : List RegWrite) :
    doorbells ch (regs ++ writes) = doorbells ch regs + doorbells ch writes :=
  List.countP_append

theorem call_doorbells (ch : Channels) (e : CallEnv) (w v : World) (c : Call) (next : Option Call)
    (stepped : callStep ch e w c = some (v, next)) :
    doorbells ch v.regs = doorbells ch w.regs + c.hands.length := by
  cases c with
  | beginIo r =>
      obtain ⟨rfl, rfl⟩ := Prod.mk.inj (Option.some.inj stepped)
      obtain ⟨q, openers, reports, same⟩ := beginIo_frame e w r
      rw [same]
      rfl
  | replying r err werr sent =>
      obtain ⟨rfl, rfl⟩ := Prod.mk.inj (Option.some.inj stepped)
      simp only [replyIoreq]
      split <;> rfl
  | queueing r =>
      obtain ⟨w', put, same⟩ := Option.map_eq_some_iff.mp stepped
      obtain ⟨rfl, rfl⟩ := Prod.mk.inj same
      obtain ⟨port, _, rfl⟩ := Option.map_eq_some_iff.mp put
      rfl
  | submitting r f =>
      obtain ⟨rfl, rfl⟩ := Prod.mk.inj (Option.some.inj stepped)
      have one : doorbells ch
          [⟨.txchanTcmdsta ch.txChannelNum, 0x00000001 ||| 0x00000400⟩,
            ⟨.txchanIncr ch.txChannelNum, 1⟩] = 1 := by
        simp [doorbells]
      calc
        doorbells ch (w.regs ++ _) = doorbells ch w.regs + doorbells ch _ :=
          doorbells_append ch w.regs _
        _ = doorbells ch w.regs + 1 := congrArg _ one
  | _ =>
      simp only [callStep] at stepped
      repeat' split at stepped
      all_goals
        obtain ⟨rfl, rfl⟩ := Prod.mk.inj (Option.some.inj stepped)
        rfl

theorem sweepEvents_sent (picked : IOSana2Req → Bool) (error : IoError) (via : Via) (w : World)
    (failed : error ≠ .ok) :
    sentReplies (sweepEvents picked (flushed error) via w).answers = sentReplies w.answers :=
  sweep_frame (fun w => sentReplies w.answers) picked (flushed error) via w.unit.eventList w
    fun w r => unsent_replyMsg w r _ via (.inl failed)

theorem flushReadQueue_sent (error : IoError) (w : World) (failed : error ≠ .ok) :
    sentReplies (w.flushReadQueue error).answers = sentReplies w.answers := by
  have read : ∀ c v, sentReplies (flushRead error c v).answers = sentReplies v.answers :=
    fun c v => flushReadList_frame (fun w => sentReplies w.answers) error (v.unit.readList c) v
      fun w pr => unsent_replyMsg { w with freed := pr.node :: w.freed } pr.ioreq _ .flush
        (.inl failed)
  rw [flushReadQueue, sweepEvents_sent _ _ _ _ failed, read, read, read]

theorem forTask_quiet (c : Command) (task : c.forTask = true) : c.transmits = false := by
  cases c <;> first | rfl | cases task

theorem task_sends (ch : Channels) (e : TaskEnv) (w v : World) (pc next : TaskPc)
    (account : TaskAccount w pc) (stepped : taskStep ch e w pc = some (v, next)) :
    sentReplies v.answers = sentReplies w.answers := by
  have due := account.due
  cases pc with
  | handling r ops fin =>
      cases ops with
      | nil =>
          obtain ⟨rfl, rfl⟩ := Prod.mk.inj (Option.some.inj stepped)
          exact unsent_replyMsg w r _ .unitTask (.inr (forTask_quiet _ due.1))
      | cons op ops =>
          obtain ⟨rfl, rfl⟩ := Prod.mk.inj (Option.some.inj stepped)
          cases op with
          | flushReadQueue error =>
              apply flushReadQueue_sent
              rcases due.2.2 error List.mem_cons_self with rfl | rfl
              · exact IoError.noConfusion
              · exact IoError.noConfusion
          | signalEvent mask =>
              have silent : runOp ch e w (.signalEvent mask) = w :=
                signalEvent_silent mask w fun r queued =>
                  (account.queued _ (stored_waiting w.unit r queued)).2.2.1
              rw [silent]
          | _ => rfl
  | rxLoop l =>
      obtain ⟨rfl, rfl⟩ := Prod.mk.inj (Option.some.inj stepped)
      split
      · rfl
      · split
        · rfl
        · simp only [offerFrame]
          split <;> rfl
  | rxDeliver l g f r orphan =>
      obtain ⟨rfl, rfl⟩ := Prod.mk.inj (Option.some.inj stepped)
      have promised := account.promised _ List.mem_cons_self
      apply unsent_replyMsg
      right
      cases orphan with
      | false =>
          have read : (w.asked r).command = .cmdRead := promised.2.2.1
          rw [read]
          rfl
      | true =>
          have read : (w.asked r).command = .readOrphan := promised.2.2.1
          rw [read]
          rfl
  | exitReply r =>
      obtain ⟨rfl, rfl⟩ := Prod.mk.inj (Option.some.inj stepped)
      exact unsent_replyMsg w r _ .exitDrain (.inl IoError.noConfusion)
  | exitFlush =>
      obtain ⟨rfl, rfl⟩ := Prod.mk.inj (Option.some.inj stepped)
      exact flushReadQueue_sent .aborted w IoError.noConfusion
  | exitFlushEvents =>
      obtain ⟨rfl, rfl⟩ := Prod.mk.inj (Option.some.inj stepped)
      exact sweepEvents_sent _ .aborted .flush w IoError.noConfusion
  | drained => cases stepped
  | _ =>
      simp only [taskStep] at stepped
      repeat' split at stepped
      all_goals first
        | (obtain ⟨rfl, _⟩ := Prod.mk.inj (Option.some.inj stepped)
           rfl)
        | cases stepped

theorem arm_doorbells (ch : Channels) (e : ArmEnv) : doorbells ch (armWrites ch e) = 0 := by
  simp only [armWrites, creditWrites, enableWrites, pciEnable]
  split_ifs <;> simp [doorbells]

theorem task_doorbells (ch : Channels) (e : TaskEnv) (w v : World) (pc next : TaskPc)
    (stepped : taskStep ch e w pc = some (v, next)) : doorbells ch v.regs = doorbells ch w.regs := by
  have silent : ∀ writes : List RegWrite, doorbells ch writes = 0 →
      doorbells ch (w.regs ++ writes) = doorbells ch w.regs := by
    intro writes none
    rw [doorbells_append, none, Nat.add_zero]
  have swept : ∀ picked answer via w, (sweepEvents picked answer via w).regs = w.regs :=
    fun picked answer via w => sweep_frame (fun w => w.regs) picked answer via _ w fun _ _ => rfl
  have flushes : ∀ error w, (flushReadQueue error w).regs = w.regs := by
    intro error w
    have read : ∀ c v, (flushRead error c v).regs = v.regs := fun c v =>
      flushReadList_frame (fun w => w.regs) error (v.unit.readList c) v fun _ _ => rfl
    rw [flushReadQueue, swept, read, read, read]
  cases pc with
  | handling r ops fin =>
      cases ops with
      | nil =>
          obtain ⟨rfl, _⟩ := Prod.mk.inj (Option.some.inj stepped)
          rfl
      | cons op ops =>
          obtain ⟨rfl, _⟩ := Prod.mk.inj (Option.some.inj stepped)
          cases op with
          | setOnline online => rfl
          | postRxBuffers =>
              apply silent
              simp only [postRxBuffers]
              split
              · rfl
              · split
                · rfl
                · exact arm_doorbells ch e.arm
          | flushReadQueue error => exact congrArg _ (flushes error w)
          | signalEvent mask => exact congrArg _ (swept _ _ _ w)
  | rxLoop l =>
      obtain ⟨rfl, _⟩ := Prod.mk.inj (Option.some.inj stepped)
      split
      · apply silent
        simp only [leaveRing]
        split <;> simp [doorbells]
      · split
        · rfl
        · simp only [offerFrame]
          split <;> rfl
  | exitFlush =>
      obtain ⟨rfl, _⟩ := Prod.mk.inj (Option.some.inj stepped)
      exact congrArg _ (flushes .aborted w)
  | exitFlushEvents =>
      obtain ⟨rfl, _⟩ := Prod.mk.inj (Option.some.inj stepped)
      exact congrArg _ (swept _ _ _ w)
  | drained => cases stepped
  | _ =>
      simp only [taskStep] at stepped
      repeat' split at stepped
      all_goals first
        | (obtain ⟨rfl, _⟩ := Prod.mk.inj (Option.some.inj stepped)
           rfl)
        | cases stepped

/-- The packets handed to the engine so far, against the writes that succeeded. -/
structure PacketsCounted (ch : Channels) (start : Nat) (t : Driver) (events : List ReqId) :
    Prop where
  reached : (unitMachine ch).Reached t
  sent : events.Perm (t.calls.flatMap Call.rung ++ sentReplies t.world.answers)
  rings : doorbells ch t.world.regs = start + events.length

theorem packets_beside (ch : Channels) (start : Nat) (s t : Driver) (events : List ReqId)
    (counted : PacketsCounted ch start s events) (reached : (unitMachine ch).Reached t)
    (calls : t.calls.flatMap Call.rung = s.calls.flatMap Call.rung)
    (answers : sentReplies t.world.answers = sentReplies s.world.answers)
    (regs : doorbells ch t.world.regs = doorbells ch s.world.regs) :
    PacketsCounted ch start t (events ++ []) := by
  refine ⟨reached, ?_, ?_⟩
  · rw [List.append_nil, calls, answers]
    exact counted.sent
  · rw [List.append_nil, regs]
    exact counted.rings

theorem packets_call (ch : Channels) (start : Nat) (s t : Driver) (events : List ReqId) (i : Nat)
    (e : CallEnv) (counted : PacketsCounted ch start s events)
    (reached : (unitMachine ch).Reached t) (stepped : driverStep ch s (.call i e) = some t) :
    PacketsCounted ch start t (events ++ s.handed (.call i e)) := by
  obtain ⟨c, w, next, present, moved, same⟩ := call_step ch s t i e stepped
  have own : s.handed (.call i e) = c.hands := by
    simp only [Driver.handed, present, Option.map_some, Option.getD_some]
  have first := calls_reached ch HandsFirst handsFirst_own (fun _ _ => trivial)
    (fun _ _ => trivial) (handsFirst_steps ch) s counted.reached c (List.mem_of_getElem? present)
  have sends := call_sends ch e s.world w c next first moved
  have before := flatMap_leave Call.rung s.calls i c present
  have after : (t.calls.flatMap Call.rung).Perm
      ((next.map Call.rung).getD [] ++ (s.calls.eraseIdx i).flatMap Call.rung) := by
    rw [same]
    cases next with
    | none => exact List.Perm.refl _
    | some next => exact flatMap_replace Call.rung s.calls i c next present
  have world : t.world = w := by rw [same]
  rw [own]
  refine ⟨reached, ?_, ?_⟩
  · rw [List.perm_iff_count, world]
    intro r
    have all := counted.sent.count_eq r
    have left := before.count_eq r
    have right := after.count_eq r
    have here := sends.count_eq r
    simp only [List.count_append] at all left right here ⊢
    omega
  · rw [world, call_doorbells ch e s.world w c next moved, counted.rings, List.length_append,
      Nat.add_assoc]

theorem packets_step (ch : Channels) (start : Nat) (s : Driver) (events : List ReqId) (a : Action)
    (t : Driver) (counted : PacketsCounted ch start s events)
    (stepped : (unitMachine ch).step s a = some t) :
    PacketsCounted ch start t (events ++ s.handed a) := by
  have reached : (unitMachine ch).Reached t := .step s a t counted.reached stepped
  have aside := packets_beside ch start s t events counted reached
  cases a with
  | submit r q =>
      obtain ⟨_, rfl⟩ := submit_step ch s t r q stepped
      exact aside rfl rfl rfl
  | abortIo r =>
      obtain rfl := Option.some.inj stepped
      exact aside rfl rfl rfl
  | call i e => exact packets_call ch start s t events i e counted reached stepped
  | task i e =>
      obtain ⟨pc, w, next, present, ran, rfl⟩ := task_step ch s t i e stepped
      have accounted := accounted_reached ch s counted.reached
      have distinct := (tasks_apart ch s counted.reached i pc present).1
      have account := task_account ch s counted.reached accounted i pc present distinct
      exact aside rfl (task_sends ch e s.world w pc next account ran)
        (task_doorbells ch e s.world w pc next ran)
  | openDevice bmCookie allocated outcome =>
      obtain ⟨_, answers, _, _⟩ := started_fields s.world outcome
      have regs := unitTaskStart_regs s.world outcome
      rcases open_step ch s t bmCookie allocated outcome stepped with
        rfl | ⟨_, rfl⟩ | ⟨_, _, rfl⟩ | ⟨_, _, rfl⟩
      · exact aside rfl rfl rfl
      · exact aside rfl rfl rfl
      · exact aside rfl (congrArg sentReplies answers) (congrArg _ regs)
      · exact aside rfl (congrArg sentReplies answers) (congrArg _ regs)
  | closeDevice bmCookie =>
      obtain rfl := Option.some.inj stepped
      have answers : (s.world.close bmCookie).answers = s.world.answers := by
        simp only [close, unitTaskShutdown]
        split_ifs <;> rfl
      exact aside rfl (congrArg sentReplies answers) (congrArg _ (close_regs s.world bmCookie))
  | teardown i =>
      obtain ⟨_, rfl⟩ := teardown_step ch s t i stepped
      exact aside rfl rfl rfl
  | _ =>
      obtain rfl := Option.some.inj stepped
      exact aside rfl rfl rfl

/-- In every run, over all sessions, the packets handed to the engine are those of the writes that
were completed with success or are about to be: none is sent twice, none is sent for a write that
fails, and none that succeeded was not sent. Each rings the doorbell once, and nothing else does. -/
theorem writes_sent_once (ch : Channels) (s t : Driver) (actions : List Action) (cold : Cold s)
    (ran : (unitMachine ch).run s actions = some t) :
    ((unitMachine ch).trace Driver.handed s actions).Perm
        (t.calls.flatMap Call.rung ++ sentReplies t.world.answers) ∧
      doorbells ch t.world.regs =
        doorbells ch s.world.regs + ((unitMachine ch).trace Driver.handed s actions).length := by
  have begun : PacketsCounted ch (doorbells ch s.world.regs) s [] := by
    refine ⟨.start s cold, ?_, rfl⟩
    rw [cold.calls, cold.answers]
    exact List.Perm.refl _
  have counted := (unitMachine ch).trace_invariant Driver.handed
    (PacketsCounted ch (doorbells ch s.world.regs))
    (fun s events a t held stepped => packets_step ch _ s events a t held stepped) s t [] actions
    begun ran
  rw [List.nil_append] at counted
  exact ⟨counted.sent, counted.rings⟩

def broadcastSent : List Action :=
  sessionUp ++ submitted 2 { request .sana2Hook 0#32 0x500 0#32 with dataLength := 0#32 } ++
    Action.submit 3 { request .broadcast 0x0806#32 0x2000 0#32 with dataLength := 3#32 } ::
      List.replicate 4 (.call 0 callEnv)

theorem writes_sent_once_broadcast :
    ∃ t, (unitMachine ⟨0, 0, 0⟩).run coldDriver broadcastSent = some t ∧
      ([3] : List ReqId).Perm (t.calls.flatMap Call.rung ++ sentReplies t.world.answers) ∧
      doorbells ⟨0, 0, 0⟩ t.world.regs = 1 := by
  have shape : ((unitMachine ⟨0, 0, 0⟩).run coldDriver broadcastSent).isSome = true := by
    decide +kernel
  have packets : (unitMachine ⟨0, 0, 0⟩).trace Driver.handed coldDriver broadcastSent = [3] := by
    decide +kernel
  obtain ⟨t, ran⟩ := Option.isSome_iff_exists.mp shape
  obtain ⟨sent, rings⟩ := writes_sent_once ⟨0, 0, 0⟩ coldDriver t broadcastSent coldDriver_cold ran
  rw [packets] at sent rings
  exact ⟨t, ran, sent, rings⟩

/-- An `Open` starts a unit task only when no other one is running. -/
def startsAlone (s : Driver) : Action → Bool
  | .openDevice _ _ _ => s.world.unit.openCount ≠ 0 || s.tasks.isEmpty
  | _ => true

theorem allocRxBufs_statRx (buf : Nat → BufOutcome) (left i : Nat) (u : UnitRx) (nalloced : Nat) :
    (allocRxBufs buf left i u nalloced).1.statRx = u.statRx := by
  induction left generalizing i u nalloced with
  | zero => rfl
  | succ left ih =>
      have one : (mapRxBuf (buf i) i u).1.statRx = u.statRx := by
        simp only [mapRxBuf]
        split_ifs <;> rfl
      simp only [allocRxBufs]
      split
      · exact ih (i + 1) u nalloced
      · split
        · rename_i v mapped
          rw [mapped] at one
          exact (ih (i + 1) v (nalloced + 1)).trans one
        · rename_i v failed
          rw [failed] at one
          exact one

theorem postLoop_statRx (bound : Nat) (u : UnitRx) : (postLoop bound u).statRx = u.statRx := by
  induction bound with
  | zero => rfl
  | succ i ih =>
      simp only [postLoop]
      split <;> exact ih

theorem postRxBuffers_statRx (ch : Channels) (e : ArmEnv) (u : UnitRx) :
    (postRxBuffers ch e u).1.statRx = u.statRx := by
  have allocated := allocRxBufs_statRx e.buf numRxBufs 0 u 0
  simp only [postRxBuffers]
  split
  · rfl
  · split
    · rename_i v none
      rw [none] at allocated
      exact allocated
    · rename_i v fresh some
      rw [some] at allocated
      have armed : (armRings v).statRx = v.statRx := by
        simp only [armRings, postRings, postLoop_statRx, clearRings]
      exact armed.trans allocated

theorem offerFrame_statRx (w : World) (v : RxLoop) (g : RxGroup) (f : RxFrame) :
    (offerFrame w v g f).1.unit.rx.statRx = w.unit.rx.statRx + 1 := by
  simp only [offerFrame]
  split
  · simp only [PA6TEthUnit.setReadList_rx]
  · rfl
  · rfl

theorem rxBody_statRx (ch : Channels) (w : World) (v : RxLoop) :
    (rxBody ch w v).1.unit.rx.statRx =
      w.unit.rx.statRx + BitVec.ofNat 32 (Fifo.offersIn (taskEvents w (.rxLoop v))) := by
  simp only [rxBody, taskEvents]
  cases complete : owned (w.unit.rx.rxRing.get v.n) with
  | false =>
      rw [(fetchGroup_none w.unit.rx v.n).mpr complete]
      simp [leaveRing, Fifo.offersIn]
  | true =>
      simp only [fetchGroup_ring w.unit.rx v.n complete, if_true, groupEvent]
      generalize ringGroup w.unit.rx v.n = g
      rcases checkGroup_valid w.unit.rx g with ⟨checked, valid⟩ | ⟨⟨drop, checked⟩, invalid⟩
      · simp only [checked, if_pos valid, offerFrame_statRx]
        rfl
      · simp only [checked, if_neg invalid]
        simp [dropGroup, Fifo.offersIn]

theorem task_statRx (ch : Channels) (e : TaskEnv) (w v : World) (pc next : TaskPc)
    (stepped : taskStep ch e w pc = some (v, next)) :
    v.unit.rx.statRx = w.unit.rx.statRx + BitVec.ofNat 32 (Fifo.offersIn (taskEvents w pc)) := by
  have same : v.unit.rx.statRx = w.unit.rx.statRx → Fifo.offersIn (taskEvents w pc) = 0 →
      v.unit.rx.statRx =
        w.unit.rx.statRx + BitVec.ofNat 32 (Fifo.offersIn (taskEvents w pc)) := by
    intro kept none
    rw [kept, none]
    simp
  cases pc with
  | handling r ops fin =>
      cases ops with
      | nil =>
          obtain ⟨rfl, _⟩ := Prod.mk.inj (Option.some.inj stepped)
          exact same rfl rfl
      | cons op ops =>
          obtain ⟨rfl, _⟩ := Prod.mk.inj (Option.some.inj stepped)
          cases op with
          | setOnline online => exact same rfl rfl
          | postRxBuffers => exact same (postRxBuffers_statRx ch e.arm w.unit.rx) rfl
          | flushReadQueue error =>
              apply same _ rfl
              simp only [runOp, flushReadQueue, sweepEvents_unit, flushRead_unit,
                PA6TEthUnit.setReadList_rx]
          | signalEvent mask =>
              apply same _ rfl
              simp only [runOp, signalEvent, sweepEvents_unit]
  | rxLoop l =>
      obtain ⟨rfl, _⟩ := Prod.mk.inj (Option.some.inj stepped)
      exact rxBody_statRx ch w l
  | rxNext l g =>
      obtain ⟨rfl, _⟩ := Prod.mk.inj (Option.some.inj stepped)
      apply same _ rfl
      simp only [nextDesc]
      split <;> rfl
  | exitFlush =>
      obtain ⟨rfl, _⟩ := Prod.mk.inj (Option.some.inj stepped)
      apply same _ rfl
      simp only [flushReadQueue, sweepEvents_unit, flushRead_unit, PA6TEthUnit.setReadList_rx]
  | exitFlushEvents =>
      obtain ⟨rfl, _⟩ := Prod.mk.inj (Option.some.inj stepped)
      apply same _ rfl
      simp only [flushRemaining, sweepEvents_unit]
  | drained => cases stepped
  | _ =>
      simp only [taskStep] at stepped
      repeat' split at stepped
      all_goals first
        | (obtain ⟨rfl, _⟩ := Prod.mk.inj (Option.some.inj stepped)
           exact same rfl rfl)
        | cases stepped

theorem call_statRx (ch : Channels) (e : CallEnv) (w v : World) (c : Call) (next : Option Call)
    (stepped : callStep ch e w c = some (v, next)) : v.unit.rx = w.unit.rx := by
  cases c with
  | beginIo r =>
      obtain ⟨rfl, rfl⟩ := Prod.mk.inj (Option.some.inj stepped)
      obtain ⟨q, openers, reports, same⟩ := beginIo_frame e w r
      rw [same]
  | replying r err werr sent =>
      obtain ⟨rfl, rfl⟩ := Prod.mk.inj (Option.some.inj stepped)
      rw [(replyIoreq_frame w r err werr).1]
  | queueing r =>
      obtain ⟨w', put, same⟩ := Option.map_eq_some_iff.mp stepped
      obtain ⟨rfl, rfl⟩ := Prod.mk.inj same
      obtain ⟨port, _, rfl⟩ := Option.map_eq_some_iff.mp put
      rfl
  | addingRead pr c =>
      obtain ⟨rfl, rfl⟩ := Prod.mk.inj (Option.some.inj stepped)
      exact PA6TEthUnit.setReadList_rx _ _ _
  | abortReads r =>
      simp only [callStep] at stepped
      split at stepped
      · obtain ⟨rfl, rfl⟩ := Prod.mk.inj (Option.some.inj stepped)
        rfl
      · obtain ⟨rfl, rfl⟩ := Prod.mk.inj (Option.some.inj stepped)
        exact PA6TEthUnit.setReadList_rx _ _ _
  | _ =>
      simp only [callStep] at stepped
      repeat' split at stepped
      all_goals
        obtain ⟨rfl, rfl⟩ := Prod.mk.inj (Option.some.inj stepped)
        rfl

theorem driver_statRx (ch : Channels) (s t : Driver) (a : Action)
    (stepped : driverStep ch s a = some t) :
    t.world.unit.rx.statRx =
      s.world.unit.rx.statRx + BitVec.ofNat 32 (Fifo.offersIn (rxEvents s a)) := by
  have none : t.world.unit.rx.statRx = s.world.unit.rx.statRx → rxEvents s a = [] →
      t.world.unit.rx.statRx =
        s.world.unit.rx.statRx + BitVec.ofNat 32 (Fifo.offersIn (rxEvents s a)) := by
    intro kept quiet
    rw [kept, quiet]
    simp [Fifo.offersIn]
  cases a with
  | submit r q =>
      obtain ⟨_, rfl⟩ := submit_step ch s t r q stepped
      exact none rfl rfl
  | call i e =>
      obtain ⟨c, w, next, present, moved, rfl⟩ := call_step ch s t i e stepped
      have quiet : Fifo.offersIn (callEvents s.world c) = 0 := by cases c <;> rfl
      simp only [rxEvents, present, Option.map_some, Option.getD_some, quiet,
        call_statRx ch e s.world w c next moved]
      simp
  | task i e =>
      obtain ⟨pc, w, next, present, ran, rfl⟩ := task_step ch s t i e stepped
      simp only [rxEvents, present, Option.map_some, Option.getD_some]
      exact task_statRx ch e s.world w pc next ran
  | openDevice bmCookie allocated outcome =>
      have kept : (s.world.unitTaskStart outcome).unit.rx = s.world.unit.rx := by
        cases outcome <;> rfl
      have same := congrArg UnitRx.statRx kept
      rcases open_step ch s t bmCookie allocated outcome stepped with
        rfl | ⟨_, rfl⟩ | ⟨_, _, rfl⟩ | ⟨_, _, rfl⟩
      · exact none rfl rfl
      · exact none rfl rfl
      · exact none same rfl
      · exact none same rfl
  | closeDevice bmCookie =>
      obtain rfl := Option.some.inj stepped
      apply none _ rfl
      simp only [close, unitTaskShutdown]
      split_ifs <;> rfl
  | teardown i =>
      obtain ⟨_, rfl⟩ := teardown_step ch s t i stepped
      exact none rfl rfl
  | _ =>
      obtain rfl := Option.some.inj stepped
      exact none rfl rfl

theorem run_statRx (ch : Channels) (s t : Driver) (actions : List Action)
    (ran : (unitMachine ch).run s actions = some t) :
    t.world.unit.rx.statRx = s.world.unit.rx.statRx +
      BitVec.ofNat 32 (Fifo.offersIn ((unitMachine ch).trace rxEvents s actions)) := by
  induction actions generalizing s with
  | nil =>
      cases ran
      simp [Machine.trace, Fifo.offersIn]
  | cons a rest ih =>
      obtain ⟨u, stepped, later⟩ := (unitMachine ch).run_cons s t a rest ran
      rw [(unitMachine ch).trace_cons rxEvents s u a rest stepped, Fifo.offersIn_append]
      calc
        t.world.unit.rx.statRx = u.world.unit.rx.statRx +
            BitVec.ofNat 32 (Fifo.offersIn ((unitMachine ch).trace rxEvents u rest)) := ih u later
        _ = s.world.unit.rx.statRx + BitVec.ofNat 32 (Fifo.offersIn (rxEvents s a)) +
            BitVec.ofNat 32 (Fifo.offersIn ((unitMachine ch).trace rxEvents u rest)) := by
          rw [driver_statRx ch s u a stepped]
        _ = _ := by rw [BitVec.add_assoc, BitVec.ofNat_add]

theorem getGlobalStats_reports (ch : Channels) (s : Driver) (i : Nat) (e : CallEnv) (r : ReqId)
    (called : s.calls[i]? = some (.beginIo r))
    (command : (s.world.reqs r).command = .getGlobalStats)
    (record : (s.world.reqs r).statData ≠ 0) :
    ∃ u, driverStep ch s (.call i e) = some u ∧
      u.calls[i]? = some (.replying r .ok 0#32 false) ∧
      u.world.reports =
        ((s.world.reqs r).statData, globalStats s.world.unit) :: s.world.reports := by
  have stepped : driverStep ch s (.call i e) =
      some { s with
        world := (beginIo e s.world r).1
        calls := s.calls.set i (beginIo e s.world r).2 } := by
    simp only [driverStep, called, callStep]
    rfl
  have reported : beginIo e s.world r =
      ({ s.world.setReq r { s.world.reqs r with error := .ok, wireError := 0#32 } with
          reports := ((s.world.reqs r).statData, globalStats s.world.unit) :: s.world.reports },
        .replying r .ok 0#32 false) := by
    simp only [beginIo, command]
    exact if_neg record
  rw [reported] at stepped
  exact ⟨_, stepped, List.getElem?_set_self (List.getElem?_eq_some_iff.mp called).1, rfl⟩

/-- In every run with one unit task at a time `S2_GETGLOBALSTATS` accounts for every group that the
loop has read. Those that passed every check count as received. Each one was given to a reader or
counts as one of unknown type, and one that passed the checks and found no reader counts as
both. A call that comes next with a record to fill in writes these counters there. -/
theorem statistics_account (ch : Channels) (s t : Driver) (actions : List Action) (cold : Cold s)
    (ran : ((unitMachine ch).allow startsAlone).run s actions = some t) :
    ∃ dropped,
      (globalStats t.world.unit).packetsReceived = (globalStats s.world.unit).packetsReceived +
        BitVec.ofNat 32
          (Fifo.offersIn (((unitMachine ch).allow startsAlone).trace rxEvents s actions)) ∧
      (globalStats t.world.unit).unknownTypesReceived =
        (globalStats s.world.unit).unknownTypesReceived + BitVec.ofNat 32 dropped ∧
      t.replies.length + dropped =
        Fifo.offersIn (((unitMachine ch).allow startsAlone).trace rxEvents s actions) +
          Fifo.rejectsIn (((unitMachine ch).allow startsAlone).trace rxEvents s actions) ∧
      ∀ i e r, t.calls[i]? = some (.beginIo r) →
        (t.world.reqs r).command = .getGlobalStats → (t.world.reqs r).statData ≠ 0 →
        ∃ u, driverStep ch t (.call i e) = some u ∧
          u.calls[i]? = some (.replying r .ok 0#32 false) ∧
          u.world.reports =
            ((t.world.reqs r).statData, globalStats t.world.unit) :: t.world.reports := by
  rw [(unitMachine ch).trace_allow startsAlone rxEvents s t actions ran]
  have whole := (unitMachine ch).run_allow startsAlone s t actions ran
  obtain ⟨follows, _⟩ := follows_run ch s t actions (.start s cold) whole
  have idle : s.replies = [] := by
    simp only [Driver.replies, deliveries, cold.answers, cold.tasks]
    rfl
  have made := follows.made.length_eq
  rw [idle, List.nil_append] at made
  refine ⟨_, run_statRx ch s t actions whole, follows.drops, ?_, getGlobalStats_reports ch t⟩
  rw [made]
  exact Fifo.run_accounts _ _

/-- A frame that an orphan read takes, and one with a CRC error. -/
theorem statistics_account_mixed :
    ∃ t dropped, ((unitMachine ⟨0, 0, 0⟩).allow startsAlone).run coldDriver mixedRing = some t ∧
      (globalStats t.world.unit).packetsReceived = 1#32 ∧
      (globalStats t.world.unit).unknownTypesReceived = BitVec.ofNat 32 dropped ∧
      t.replies.length + dropped = 2 := by
  have shape : (((unitMachine ⟨0, 0, 0⟩).allow startsAlone).run coldDriver mixedRing).isSome =
      true := by decide +kernel
  have events : (Fifo.offersIn (((unitMachine ⟨0, 0, 0⟩).allow startsAlone).trace rxEvents
        coldDriver mixedRing),
      Fifo.rejectsIn (((unitMachine ⟨0, 0, 0⟩).allow startsAlone).trace rxEvents coldDriver
        mixedRing)) = (1, 1) := by decide +kernel
  obtain ⟨offers, rejects⟩ := Prod.mk.inj events
  obtain ⟨t, ran⟩ := Option.isSome_iff_exists.mp shape
  obtain ⟨dropped, received, unknown, account, _⟩ := statistics_account ⟨0, 0, 0⟩ coldDriver t
    mixedRing coldDriver_cold ran
  rw [offers] at received account
  rw [rejects] at account
  exact ⟨t, dropped, ran, received, unknown.trans (BitVec.zero_add _), account⟩

end Pa6tEth

import Pa6tEth.Cookie
import Pa6tEth.Events
import Pa6tEth.Ownership

/-! What each command can be completed with, by whichever of the functions that complete it. -/

namespace Pa6tEth

open Support World

namespace Command

/-- The unit task has a branch for the command, and `BeginIO` queues it to the port. -/
def forTask : Command → Bool
  | configInterface => true
  | online => true
  | offline => true
  | cmdFlush => true
  | _ => false

/-- `BeginIO` passes the command to `TransmitPacket`. -/
def transmits : Command → Bool
  | cmdWrite => true
  | broadcast => true
  | multicast => true
  | _ => false

/-- The values of `io_Error` and `ios2_WireError` with which a command can be completed. -/
def outcomes : Command → List (IoError × BitVec 32)
  | cmdRead =>
      [(.ok, 0#32), (.outOfService, s2werrUnitOffline), (.outOfService, s2werrGenericError),
        (.badState, s2werrGenericError), (.noResources, s2werrGenericError),
        (.noResources, s2werrBuffError), (.aborted, s2werrGenericError)]
  | readOrphan =>
      [(.ok, 0#32), (.outOfService, s2werrGenericError), (.badState, s2werrGenericError),
        (.noResources, s2werrBuffError), (.aborted, s2werrGenericError)]
  | onEvent => [(.aborted, s2werrGenericError)]
  | cmdWrite | broadcast | multicast =>
      [(.ok, 0#32), (.outOfService, s2werrUnitOffline), (.txFailure, s2werrGenericError),
        (.mtuExceeded, s2werrGenericError), (.noResources, s2werrGenericError),
        (.badArgument, s2werrGenericError), (.noResources, s2werrBuffError)]
  | configInterface | cmdFlush => [(.ok, 0#32), (.aborted, 0#32)]
  | online => [(.ok, 0#32), (.badState, s2werrUnitOnline), (.aborted, 0#32)]
  | offline => [(.ok, 0#32), (.badState, s2werrUnitOffline), (.aborted, 0#32)]
  | deviceQuery | getGlobalStats => [(.ok, 0#32), (.badArgument, s2werrNullPointer)]
  | sana2Hook => [(.ok, 0#32), (.badState, s2werrGenericError)]
  | getStationAddress | addMulticastAddress | delMulticastAddress | addMulticastAddresses
  | delMulticastAddresses | trackType | untrackType => [(.ok, 0#32)]
  | other _ => [(.noCmd, s2werrGenericError)]

end Command

/-- The record of the submission and that of the completion fit the command. -/
def Listed (asked done : IOSana2Req) : Prop :=
  done.command = asked.command ∧ (done.error, done.wireError) ∈ asked.command.outcomes

/-- The unit task replies only to commands that have a branch of their own there. -/
def Via.Serves (c : Command) : Via → Prop
  | unitTask => c.forTask = true
  | exitDrain => c.forTask = true
  | _ => True

def Answer.Listed : Answer → Prop
  | .returned asked done => Pa6tEth.Listed asked done
  | .replied via asked done => Pa6tEth.Listed asked done ∧ via.Serves asked.command

/-- The request still has its command, and no wire error. -/
structure Plain (w : World) (r : ReqId) : Prop where
  command : (w.reqs r).command = (w.asked r).command
  wireError : (w.reqs r).wireError = 0#32

theorem plain_iff (w : World) (r : ReqId) :
    Plain w r ↔ (w.reqs r).command = (w.asked r).command ∧ (w.reqs r).wireError = 0#32 :=
  ⟨fun plain => ⟨plain.command, plain.wireError⟩, fun both => ⟨both.1, both.2⟩⟩

/-- What a call is about to complete its request with, or where the request goes. -/
def Call.Due (w : World) : Call → Prop
  | replying r err werr _ =>
      (w.reqs r).command = (w.asked r).command ∧ (err, werr) ∈ (w.asked r).command.outcomes
  | queueing r => Plain w r ∧ (w.asked r).command.forTask = true
  | addingRead pr _ => Plain w pr.ioreq
  | addingEvent r => Plain w r
  | transmitting r =>
      (w.reqs r).command = (w.asked r).command ∧ (w.asked r).command.transmits = true
  | submitting r _ =>
      (w.reqs r).command = (w.asked r).command ∧ (w.asked r).command.transmits = true
  | abortReply r => Plain w r ∧ (.aborted, 0#32) ∈ (w.asked r).command.outcomes
  | _ => True

def TaskPc.Due (w : World) : TaskPc → Prop
  | received r => (w.asked r).command.forTask = true
  | handling r ops fin =>
      (w.asked r).command.forTask = true ∧
        (fin.error, fin.wireError.getD 0#32) ∈ (w.asked r).command.outcomes ∧
        ∀ error, .flushReadQueue error ∈ ops → error = .outOfService ∨ error = .aborted
  | exitReply r => (w.asked r).command.forTask = true
  | _ => True

/-- The requests in the unit's queues, and which of them are in its port. -/
structure QueuesDue (w : World) : Prop where
  plain : ∀ p ∈ stored w.unit, Plain w p.1
  port : ∀ r ∈ w.unit.ioPort.getD [], (w.asked r).command.forTask = true

/-- What the queues, the unit tasks and the completed requests have to do with the commands. -/
structure UnitAccount (s : Driver) : Prop where
  queues : QueuesDue s.world
  held : ∀ p ∈ s.tasks.flatMap TaskPc.claim, Plain s.world p.1
  tasks : ∀ pc ∈ s.tasks, pc.Due s.world
  answers : ∀ a ∈ s.world.answers, a.2.Listed

structure Accounted (s : Driver) : Prop extends UnitAccount s where
  calls : ∀ c ∈ s.calls, c.Due s.world

theorem forTask_aborted (c : Command) (task : c.forTask = true) :
    (.aborted, 0#32) ∈ c.outcomes := by
  cases c <;> first | decide | simp [Command.forTask] at task

def Call.enters : Call → Bool
  | queueing _ => true
  | addingRead _ _ => true
  | addingEvent _ => true
  | _ => false

theorem call_stored (ch : Channels) (e : CallEnv) (w v : World) (c : Call) (next : Option Call)
    (stepped : callStep ch e w c = some (v, next)) :
    ∀ p ∈ stored v.unit, p ∈ stored w.unit ∨ c.enters = true ∧ p ∈ c.claim := by
  intro p queued
  cases c with
  | beginIo r =>
      obtain ⟨rfl, rfl⟩ := Prod.mk.inj (Option.some.inj stepped)
      obtain ⟨q, openers, reports, same⟩ := beginIo_frame e w r
      rw [same] at queued
      exact .inl queued
  | replying r err werr sent =>
      obtain ⟨rfl, rfl⟩ := Prod.mk.inj (Option.some.inj stepped)
      rw [(replyIoreq_frame w r err werr).1] at queued
      exact .inl queued
  | queueing r =>
      obtain ⟨w', put, same⟩ := Option.map_eq_some_iff.mp stepped
      obtain ⟨rfl, rfl⟩ := Prod.mk.inj same
      obtain ⟨port, present, rfl⟩ := Option.map_eq_some_iff.mp put
      rcases List.mem_cons.mp ((stored_addPort w.unit port r present).mem_iff.mp queued) with
        rfl | old
      · exact .inr ⟨rfl, List.mem_cons_self⟩
      · exact .inl old
  | addingRead pr c =>
      obtain ⟨rfl, rfl⟩ := Prod.mk.inj (Option.some.inj stepped)
      rcases List.mem_cons.mp ((stored_addRead w.unit c pr).mem_iff.mp queued) with rfl | old
      · exact .inr ⟨rfl, List.mem_cons_self⟩
      · exact .inl old
  | addingEvent r =>
      obtain ⟨rfl, rfl⟩ := Prod.mk.inj (Option.some.inj stepped)
      rcases List.mem_cons.mp ((stored_addEvent w.unit r).mem_iff.mp queued) with rfl | old
      · exact .inr ⟨rfl, List.mem_cons_self⟩
      · exact .inl old
  | abortReads r =>
      simp only [callStep] at stepped
      split at stepped
      · obtain ⟨rfl, rfl⟩ := Prod.mk.inj (Option.some.inj stepped)
        exact .inl queued
      · rename_i c pr found
        obtain ⟨rfl, rfl⟩ := Prod.mk.inj (Option.some.inj stepped)
        have first := findRead_found w.unit r c pr found
        have taken := stored_takeRead w.unit c pr _ (perm_eraseP _ _ pr first)
        exact .inl (taken.mem_iff.mpr (List.mem_cons_of_mem _ queued))
  | abortEvents r =>
      simp only [callStep] at stepped
      split at stepped
      · rename_i member
        obtain ⟨rfl, rfl⟩ := Prod.mk.inj (Option.some.inj stepped)
        have taken := stored_takeEvent w.unit r _ (List.perm_cons_erase member)
        exact .inl (taken.mem_iff.mpr (List.mem_cons_of_mem _ queued))
      · obtain ⟨rfl, rfl⟩ := Prod.mk.inj (Option.some.inj stepped)
        exact .inl queued
  | abortPort r =>
      simp only [callStep] at stepped
      split at stepped
      · obtain ⟨rfl, rfl⟩ := Prod.mk.inj (Option.some.inj stepped)
        exact .inl queued
      · rename_i port present
        split at stepped
        · rename_i member
          obtain ⟨rfl, rfl⟩ := Prod.mk.inj (Option.some.inj stepped)
          have taken := stored_takePort w.unit port _ r present (List.perm_cons_erase member)
          exact .inl (taken.mem_iff.mpr (List.mem_cons_of_mem _ queued))
        · obtain ⟨rfl, rfl⟩ := Prod.mk.inj (Option.some.inj stepped)
          exact .inl queued
  | _ =>
      simp only [callStep] at stepped
      repeat' split at stepped
      all_goals
        obtain ⟨rfl, rfl⟩ := Prod.mk.inj (Option.some.inj stepped)
        exact .inl queued

theorem call_entered (ch : Channels) (e : CallEnv) (w v : World) (c : Call) (next : Option Call)
    (due : c.Due w) (stepped : callStep ch e w c = some (v, next)) (enters : c.enters = true) :
    ∀ p ∈ c.claim, Plain v p.1 := by
  intro p claimed
  cases c with
  | queueing r =>
      obtain ⟨w', put, same⟩ := Option.map_eq_some_iff.mp stepped
      obtain ⟨rfl, rfl⟩ := Prod.mk.inj same
      obtain ⟨port, present, rfl⟩ := Option.map_eq_some_iff.mp put
      obtain rfl := List.mem_singleton.mp claimed
      exact ⟨due.1.command, due.1.wireError⟩
  | addingRead pr c =>
      obtain ⟨rfl, rfl⟩ := Prod.mk.inj (Option.some.inj stepped)
      obtain rfl := List.mem_singleton.mp claimed
      exact ⟨due.command, due.wireError⟩
  | addingEvent r =>
      obtain ⟨rfl, rfl⟩ := Prod.mk.inj (Option.some.inj stepped)
      obtain rfl := List.mem_singleton.mp claimed
      exact ⟨due.command, due.wireError⟩
  | _ => cases enters

theorem call_port (ch : Channels) (e : CallEnv) (w v : World) (c : Call) (next : Option Call)
    (stepped : callStep ch e w c = some (v, next)) (r : ReqId)
    (queued : r ∈ v.unit.ioPort.getD []) : r ∈ w.unit.ioPort.getD [] ∨ c = .queueing r := by
  cases c with
  | beginIo r' =>
      obtain ⟨rfl, rfl⟩ := Prod.mk.inj (Option.some.inj stepped)
      obtain ⟨q, openers, reports, same⟩ := beginIo_frame e w r'
      rw [same] at queued
      exact .inl queued
  | replying r' err werr sent =>
      obtain ⟨rfl, rfl⟩ := Prod.mk.inj (Option.some.inj stepped)
      rw [(replyIoreq_frame w r' err werr).1] at queued
      exact .inl queued
  | queueing r' =>
      obtain ⟨w', put, same⟩ := Option.map_eq_some_iff.mp stepped
      obtain ⟨rfl, rfl⟩ := Prod.mk.inj same
      obtain ⟨port, present, rfl⟩ := Option.map_eq_some_iff.mp put
      rcases List.mem_append.mp queued with old | new
      · left
        rw [present]
        exact old
      · right
        rw [List.mem_singleton.mp new]
  | addingRead pr c =>
      obtain ⟨rfl, rfl⟩ := Prod.mk.inj (Option.some.inj stepped)
      rw [PA6TEthUnit.setReadList_ioPort] at queued
      exact .inl queued
  | abortReads r' =>
      simp only [callStep] at stepped
      split at stepped
      · obtain ⟨rfl, rfl⟩ := Prod.mk.inj (Option.some.inj stepped)
        exact .inl queued
      · obtain ⟨rfl, rfl⟩ := Prod.mk.inj (Option.some.inj stepped)
        rw [PA6TEthUnit.setReadList_ioPort] at queued
        exact .inl queued
  | abortPort r' =>
      simp only [callStep] at stepped
      split at stepped
      · obtain ⟨rfl, rfl⟩ := Prod.mk.inj (Option.some.inj stepped)
        exact .inl queued
      · rename_i port present
        split at stepped
        · obtain ⟨rfl, rfl⟩ := Prod.mk.inj (Option.some.inj stepped)
          left
          rw [present]
          exact List.mem_of_mem_erase queued
        · obtain ⟨rfl, rfl⟩ := Prod.mk.inj (Option.some.inj stepped)
          exact .inl queued
  | _ =>
      simp only [callStep] at stepped
      repeat' split at stepped
      all_goals
        obtain ⟨rfl, rfl⟩ := Prod.mk.inj (Option.some.inj stepped)
        exact .inl queued

theorem beginIo_due (e : CallEnv) (w : World) (r : ReqId) (called : w.reqs r = w.asked r) :
    (beginIo e w r).2.Due (beginIo e w r).1 := by
  cases command : (w.reqs r).command with
  | sana2Hook =>
      have asked := called ▸ command
      simp only [beginIo, command]
      split <;> simp [Call.Due, setReq, asked, Command.outcomes]
  | _ =>
      have asked := called ▸ command
      simp only [beginIo, command]
      repeat' split
      all_goals
        simp +decide [Call.Due, setReq, asked, Command.outcomes, Command.forTask,
          Command.transmits, IOSana2Req.clearQuick, plain_iff]

theorem txBuild_listed (e : TxEnv) (w : World) (r : ReqId) (c : Command)
    (transmits : c.transmits = true) :
    (txBuild e w r).request.command = (w.reqs r).command ∧
      ∀ q err werr, txBuild e w r = .refused q err werr → (err, werr) ∈ c.outcomes := by
  have listed : ∀ pair ∈ Command.cmdWrite.outcomes, pair ∈ c.outcomes := by
    cases c <;> first | exact fun _ => id | simp [Command.transmits] at transmits
  simp only [txBuild]
  repeat' split
  all_goals
    refine ⟨rfl, fun q err werr refused => ?_⟩
    first
      | (obtain ⟨_, rfl, rfl⟩ := TxOutcome.refused.inj refused
         exact listed _ (by decide))
      | cases refused

/-- What is known of the queues and of a call before its step. -/
structure CallAccount (w : World) (c : Call) : Prop where
  queues : QueuesDue w
  queued : ∀ p ∈ stored w.unit, p.2.promise (w.asked p.1, w.reqs p.1)
  called : ∀ p ∈ c.claim, p.2.promise (w.asked p.1, w.reqs p.1)
  due : c.Due w

theorem reading_aborted (w : World) (c : ReadClass) (pr : PendingRead)
    (queued : ∀ p ∈ stored w.unit, p.2.promise (w.asked p.1, w.reqs p.1))
    (member : pr ∈ w.unit.readList c) : (w.asked pr.ioreq).command = .cmdRead :=
  (queued _ (stored_read w.unit c pr member)).2.2.1

theorem waiting_commands (w : World) (r : ReqId)
    (queued : ∀ p ∈ stored w.unit, p.2.promise (w.asked p.1, w.reqs p.1))
    (member : r ∈ w.unit.eventList) :
    (w.asked r).command = .onEvent ∨ (w.asked r).command = .readOrphan :=
  (queued _ (stored_waiting w.unit r member)).2.2.2.2.imp_right And.left

theorem call_stays_due (ch : Channels) (e : CallEnv) (w v : World) (c next : Call)
    (account : CallAccount w c) (stepped : callStep ch e w c = some (v, some next)) :
    next.Due v := by
  have due := account.due
  cases c with
  | beginIo r =>
      obtain ⟨rfl, same⟩ := Prod.mk.inj (Option.some.inj stepped)
      rw [← Option.some.inj same]
      exact beginIo_due e w r (account.called _ List.mem_cons_self)
  | replying r err werr sent =>
      cases sent with
      | false => simp [callStep] at stepped
      | true =>
          simp only [callStep, if_true, Option.some.injEq, Prod.mk.injEq] at stepped
          rw [← stepped.2]
          trivial
  | queueing r =>
      obtain ⟨w', _, same⟩ := Option.map_eq_some_iff.mp stepped
      simp at same
  | transmitting r =>
      obtain ⟨kept, listed⟩ := txBuild_listed e.tx w r (w.asked r).command due.2
      simp only [callStep] at stepped
      split at stepped
      · rename_i q err werr refused
        obtain ⟨rfl, same⟩ := Prod.mk.inj (Option.some.inj stepped)
        rw [← Option.some.inj same]
        rw [refused] at kept
        refine ⟨?_, listed q err werr refused⟩
        show (Function.update w.reqs r q r).command = (w.asked r).command
        rw [Function.update_self]
        exact kept.trans due.1
      · rename_i q f built
        obtain ⟨rfl, same⟩ := Prod.mk.inj (Option.some.inj stepped)
        rw [← Option.some.inj same]
        rw [built] at kept
        refine ⟨?_, due.2⟩
        show (Function.update w.reqs r q r).command = (w.asked r).command
        rw [Function.update_self]
        exact kept.trans due.1
  | submitting r f =>
      obtain ⟨rfl, same⟩ := Prod.mk.inj (Option.some.inj stepped)
      rw [← Option.some.inj same]
      refine ⟨due.1, ?_⟩
      have transmits := due.2
      show (IoError.ok, 0#32) ∈ (w.asked r).command.outcomes
      cases command : (w.asked r).command <;>
        first | decide | simp [command, Command.transmits] at transmits
  | abortReads r =>
      simp only [callStep] at stepped
      split at stepped
      · obtain ⟨rfl, same⟩ := Prod.mk.inj (Option.some.inj stepped)
        rw [← Option.some.inj same]
        trivial
      · rename_i c pr found
        obtain ⟨rfl, same⟩ := Prod.mk.inj (Option.some.inj stepped)
        rw [← Option.some.inj same]
        have first := findRead_found w.unit r c pr found
        have member := List.mem_of_find?_eq_some first
        obtain rfl : pr.ioreq = r := by simpa using List.find?_some first
        have plain := account.queues.plain _ (stored_read w.unit c pr member)
        refine ⟨⟨plain.command, plain.wireError⟩, ?_⟩
        show (IoError.aborted, 0#32) ∈ (w.asked pr.ioreq).command.outcomes
        rw [reading_aborted w c pr account.queued member]
        decide
  | abortEvents r =>
      simp only [callStep] at stepped
      split at stepped
      · rename_i member
        obtain ⟨rfl, same⟩ := Prod.mk.inj (Option.some.inj stepped)
        rw [← Option.some.inj same]
        have plain := account.queues.plain _ (stored_waiting w.unit r member)
        refine ⟨⟨plain.command, plain.wireError⟩, ?_⟩
        show (IoError.aborted, 0#32) ∈ (w.asked r).command.outcomes
        rcases waiting_commands w r account.queued member with event | orphan
        · rw [event]
          decide
        · rw [orphan]
          decide
      · obtain ⟨rfl, same⟩ := Prod.mk.inj (Option.some.inj stepped)
        rw [← Option.some.inj same]
        trivial
  | abortPort r =>
      simp only [callStep] at stepped
      split at stepped
      · simp at stepped
      · rename_i port present
        split at stepped
        · rename_i member
          obtain ⟨rfl, same⟩ := Prod.mk.inj (Option.some.inj stepped)
          rw [← Option.some.inj same]
          have queued : r ∈ w.unit.ioPort.getD [] := by
            rw [present]
            exact member
          have plain := account.queues.plain _ (stored_message w.unit r queued)
          exact ⟨⟨plain.command, plain.wireError⟩,
            forTask_aborted _ (account.queues.port r queued)⟩
        · simp at stepped
  | _ => simp [callStep] at stepped

theorem call_listed (ch : Channels) (e : CallEnv) (w v : World) (c : Call) (next : Option Call)
    (account : CallAccount w c) (stepped : callStep ch e w c = some (v, next))
    (answers : ∀ a ∈ w.answers, a.2.Listed) : ∀ a ∈ v.answers, a.2.Listed := by
  have due := account.due
  cases c with
  | beginIo r =>
      obtain ⟨rfl, rfl⟩ := Prod.mk.inj (Option.some.inj stepped)
      obtain ⟨q, openers, reports, same⟩ := beginIo_frame e w r
      rw [same]
      exact answers
  | replying r err werr sent =>
      obtain ⟨rfl, rfl⟩ := Prod.mk.inj (Option.some.inj stepped)
      simp only [replyIoreq]
      split
      · exact List.forall_mem_cons.mpr ⟨due, answers⟩
      · exact List.forall_mem_cons.mpr ⟨⟨due, trivial⟩, answers⟩
  | queueing r =>
      obtain ⟨w', put, same⟩ := Option.map_eq_some_iff.mp stepped
      obtain ⟨rfl, rfl⟩ := Prod.mk.inj same
      obtain ⟨port, _, rfl⟩ := Option.map_eq_some_iff.mp put
      exact answers
  | abortReply r =>
      obtain ⟨rfl, rfl⟩ := Prod.mk.inj (Option.some.inj stepped)
      refine List.forall_mem_cons.mpr ⟨⟨⟨due.1.command, ?_⟩, trivial⟩, answers⟩
      have wire : ({ w.reqs r with error := .aborted } : IOSana2Req).wireError = 0#32 :=
        due.1.wireError
      rw [wire]
      exact due.2
  | _ =>
      simp only [callStep] at stepped
      repeat' split at stepped
      all_goals
        obtain ⟨rfl, rfl⟩ := Prod.mk.inj (Option.some.inj stepped)
        exact answers

def Fits (w : World) (r : ReqId) (error : IoError) (wireError : BitVec 32) : Prop :=
  (w.reqs r).command = (w.asked r).command ∧ (error, wireError) ∈ (w.asked r).command.outcomes

theorem fits_replyMsg (w : World) (r x : ReqId) (q : IOSana2Req) (via : Via) (error : IoError)
    (wireError : BitVec 32) (command : q.command = (w.reqs r).command)
    (fits : Fits w x error wireError) : Fits (w.replyMsg r q via) x error wireError := by
  refine ⟨?_, fits.2⟩
  by_cases here : x = r
  · subst here
    simp only [replyMsg, Function.update_self]
    exact command.trans fits.1
  · simp only [replyMsg, Function.update_of_ne here]
    exact fits.1

theorem listed_replyMsg (w : World) (r : ReqId) (q : IOSana2Req) (via : Via)
    (command : q.command = (w.reqs r).command) (fits : Fits w r q.error q.wireError)
    (serves : via.Serves (w.asked r).command) (answers : ∀ a ∈ w.answers, a.2.Listed) :
    ∀ a ∈ (w.replyMsg r q via).answers, a.2.Listed :=
  List.forall_mem_cons.mpr ⟨⟨⟨command.trans fits.1, fits.2⟩, serves⟩, answers⟩

theorem sweep_listed (picked : IOSana2Req → Bool) (error : IoError)
    (ids : List ReqId) (w : World)
    (fits : ∀ r ∈ ids, picked (w.reqs r) = true → Fits w r error s2werrGenericError)
    (answers : ∀ a ∈ w.answers, a.2.Listed) :
    ∀ a ∈ (sweep picked (flushed error) .flush ids w).1.answers, a.2.Listed := by
  induction ids generalizing w with
  | nil => exact answers
  | cons head rest ih =>
      have later : ∀ r ∈ rest, picked (w.reqs r) = true → Fits w r error s2werrGenericError :=
        fun r member => fits r (List.mem_cons_of_mem head member)
      simp only [sweep]
      split
      · rename_i first
        have fit := fits head List.mem_cons_self first
        apply ih
        · intro r member chosen
          apply fits_replyMsg w head r (flushed error (w.reqs head)) .flush _ _ rfl
          by_cases here : r = head
          · exact here ▸ fit
          · apply later r member
            simpa only [replyMsg, Function.update_of_ne here] using chosen
        · exact listed_replyMsg w head _ .flush rfl fit trivial answers
      · exact ih w later answers

theorem flushReadList_listed (error : IoError) (list : List PendingRead) (w : World)
    (fits : ∀ pr ∈ list, Fits w pr.ioreq error s2werrGenericError)
    (answers : ∀ a ∈ w.answers, a.2.Listed) :
    ∀ a ∈ (flushReadList error list w).answers, a.2.Listed := by
  induction list generalizing w with
  | nil => exact answers
  | cons pr rest ih =>
      have fit := fits pr List.mem_cons_self
      apply ih
      · intro other member
        apply fits_replyMsg { w with freed := pr.node :: w.freed } pr.ioreq other.ioreq
          (flushed error (w.reqs pr.ioreq)) .flush _ _ rfl
        exact fits other (List.mem_cons_of_mem pr member)
      · exact listed_replyMsg { w with freed := pr.node :: w.freed } pr.ioreq
          (flushed error (w.reqs pr.ioreq)) .flush rfl fit trivial answers

theorem fits_flushRead (error : IoError) (c : ReadClass) (w : World) (r : ReqId) (done : IoError)
    (fits : Fits w r done s2werrGenericError) :
    Fits (flushRead error c w) r done s2werrGenericError := by
  have asked := (flushRead_calm error c w).asked
  refine ⟨?_, by rw [asked]; exact fits.2⟩
  calc
    ((flushRead error c w).reqs r).command = (w.reqs r).command := flushRead_command error c w r
    _ = (w.asked r).command := fits.1
    _ = ((flushRead error c w).asked r).command := by rw [asked]

/-- What is known of the queues before a step of a unit task. -/
structure QueuesAccount (w : World) : Prop extends QueuesDue w where
  queued : ∀ p ∈ stored w.unit, p.2.promise (w.asked p.1, w.reqs p.1)

theorem fits_reading (w : World) (account : QueuesAccount w) (error : IoError)
    (flushes : error = .outOfService ∨ error = .aborted) (c : ReadClass) :
    ∀ pr ∈ w.unit.readList c, Fits w pr.ioreq error s2werrGenericError := by
  intro pr member
  have plain := account.plain _ (stored_read w.unit c pr member)
  have command := reading_aborted w c pr account.queued member
  refine ⟨plain.command, ?_⟩
  show (error, s2werrGenericError) ∈ (w.asked pr.ioreq).command.outcomes
  rw [command]
  rcases flushes with rfl | rfl <;> decide

theorem fits_waiting (w : World) (account : QueuesAccount w) (r : ReqId)
    (member : r ∈ w.unit.eventList) : Fits w r .aborted s2werrGenericError := by
  have plain := account.plain _ (stored_waiting w.unit r member)
  refine ⟨plain.command, ?_⟩
  rcases waiting_commands w r account.queued member with event | orphan
  · rw [event]
    decide
  · rw [orphan]
    decide

theorem fits_orphan (w : World) (account : QueuesAccount w) (error : IoError)
    (flushes : error = .outOfService ∨ error = .aborted) (r : ReqId)
    (member : r ∈ w.unit.eventList) (orphan : (w.reqs r).command = .readOrphan) :
    Fits w r error s2werrGenericError := by
  have plain := account.plain _ (stored_waiting w.unit r member)
  refine ⟨plain.command, ?_⟩
  rw [← plain.command, orphan]
  rcases flushes with rfl | rfl <;> decide

theorem flushReadQueue_listed (error : IoError) (w : World) (account : QueuesAccount w)
    (flushes : error = .outOfService ∨ error = .aborted)
    (answers : ∀ a ∈ w.answers, a.2.Listed) :
    ∀ a ∈ (w.flushReadQueue error).answers, a.2.Listed := by
  have reads : ∀ v : World, ∀ c, (∀ pr ∈ v.unit.readList c, Fits v pr.ioreq error s2werrGenericError) →
      (∀ a ∈ v.answers, a.2.Listed) → ∀ a ∈ (flushRead error c v).answers, a.2.Listed :=
    fun v c fits => flushReadList_listed error (v.unit.readList c) v fits
  have fits := fits_reading w account error flushes
  have first := reads w .ipv4 (fits .ipv4) answers
  have second := reads (flushRead error .ipv4 w) .arp (fun pr member => by
    apply fits_flushRead
    apply fits .arp
    rwa [flushRead_unit] at member) first
  have third := reads (flushRead error .arp (flushRead error .ipv4 w)) .other (fun pr member => by
    apply fits_flushRead
    apply fits_flushRead
    apply fits .other
    rwa [flushRead_unit, flushRead_unit] at member) second
  apply sweep_listed (fun q => decide (q.command = .readOrphan)) error _ _ ?_ third
  intro r member orphan
  have queued : r ∈ w.unit.eventList := by
    simpa only [flushRead_unit, PA6TEthUnit.setReadList_eventList] using member
  apply fits_flushRead
  apply fits_flushRead
  apply fits_flushRead
  apply fits_orphan w account error flushes r queued
  simpa only [flushRead_command, decide_eq_true_eq] using orphan

theorem flushRemaining_listed (w : World) (account : QueuesAccount w)
    (answers : ∀ a ∈ w.answers, a.2.Listed) : ∀ a ∈ w.flushRemaining.answers, a.2.Listed :=
  sweep_listed (fun _ => true) .aborted w.unit.eventList w
    (fun r member _ => fits_waiting w account r member) answers

theorem deliver_listed (orphan hookOk : Bool) (u : PA6TEthUnit) (mem : Addr → UInt8) (r : ReqId)
    (f : RxFrame) (q : IOSana2Req) (clean : q.error = .ok) :
    (deliver orphan hookOk u mem r f q).1.command = q.command ∧
      (((deliver orphan hookOk u mem r f q).1.error = .ok ∧
          (deliver orphan hookOk u mem r f q).1.wireError = 0#32) ∨
        ((deliver orphan hookOk u mem r f q).1.error = .noResources ∧
          (deliver orphan hookOk u mem r f q).1.wireError = s2werrBuffError)) := by
  cases orphan with
  | false =>
      simp only [deliver, Bool.false_eq_true, if_false, deliverRead]
      repeat' split
      all_goals simp [finishDelivery, fillRequest, copyFailed, clean]
  | true =>
      simp only [deliver, if_true, deliverOrphan]
      repeat' split
      all_goals simp [finishDelivery, fillRequest, copyFailed, clean]

theorem commandOps_due (online : Bool) (c : Command) (task : c.forTask = true) :
    ((commandOps online c).2.error, (commandOps online c).2.wireError.getD 0#32) ∈ c.outcomes ∧
      ∀ error, .flushReadQueue error ∈ (commandOps online c).1 →
        error = .outOfService ∨ error = .aborted := by
  cases c with
  | configInterface | online =>
      refine ⟨by cases online <;> decide, fun error flushes => ?_⟩
      cases online <;> simp [commandOps, goOnline] at flushes
  | offline =>
      refine ⟨by cases online <;> decide, fun error flushes => ?_⟩
      left
      simpa [commandOps] using flushes
  | cmdFlush =>
      refine ⟨by cases online <;> decide, fun error flushes => ?_⟩
      right
      simpa [commandOps] using flushes
  | _ => cases task

structure TaskAccount (w : World) (pc : TaskPc) : Prop extends QueuesAccount w where
  held : ∀ p ∈ pc.claim, Plain w p.1
  promised : ∀ p ∈ pc.claim, p.2.promise (w.asked p.1, w.reqs p.1)
  distinct : ((pc.claim ++ stored w.unit).map Prod.fst).Nodup
  due : pc.Due w

theorem task_record (ch : Channels) (e : TaskEnv) (w v : World) (pc next : TaskPc)
    (distinct : ((pc.claim ++ stored w.unit).map Prod.fst).Nodup)
    (stepped : taskStep ch e w pc = some (v, next)) :
    ∀ p ∈ next.claim ++ stored v.unit,
      v.reqs p.1 = w.reqs p.1 ∧ ∃ p' ∈ pc.claim ++ stored w.unit, p'.1 = p.1 := by
  obtain ⟨new, items, _, grown, _, _⟩ := task_handover ch e w v pc next stepped
  obtain ⟨fresh, answers, record⟩ := task_answering ch e w v pc next stepped
  obtain rfl : fresh = new := by
    have same : fresh ++ w.answers = new ++ w.answers := answers.symm.trans grown
    exact List.append_cancel_right same
  simp only [Ledger.items, ledger] at items
  intro p left
  have still : p.1 ∈ (next.claim ++ stored v.unit).map Prod.fst := List.mem_map_of_mem left
  have before : p.1 ∈ (pc.claim ++ stored w.unit).map Prod.fst :=
    items.mem_iff.mpr (List.mem_append_left _ still)
  have unanswered : Support.history fresh p.1 = [] := by
    apply List.eq_nil_iff_forall_not_mem.mpr
    intro answer listed
    have apart := (List.nodup_append.mp (items.nodup_iff.mp distinct)).2.2
    have answered := List.mem_map_of_mem (f := Prod.fst) ((history_mem fresh p.1 answer).mp listed)
    exact apart p.1 still p.1 answered rfl
  refine ⟨?_, List.mem_map.mp before⟩
  rw [record, unanswered]
  rfl

theorem task_plain (ch : Channels) (e : TaskEnv) (w v : World) (pc next : TaskPc)
    (account : TaskAccount w pc) (stepped : taskStep ch e w pc = some (v, next)) :
    ∀ p ∈ next.claim ++ stored v.unit, Plain v p.1 := by
  intro p left
  obtain ⟨reqs, p', before, same⟩ := task_record ch e w v pc next account.distinct stepped p left
  have plain : Plain w p'.1 := by
    rcases List.mem_append.mp before with claimed | queued
    · exact account.held p' claimed
    · exact account.plain p' queued
  rw [same] at plain
  constructor
  · calc
      (v.reqs p.1).command = (w.reqs p.1).command := by rw [reqs]
      _ = (w.asked p.1).command := plain.command
      _ = (v.asked p.1).command := by rw [task_asked ch e w v pc next stepped]
  · calc
      (v.reqs p.1).wireError = (w.reqs p.1).wireError := by rw [reqs]
      _ = 0#32 := plain.wireError

theorem task_port (ch : Channels) (e : TaskEnv) (w v : World) (pc next : TaskPc)
    (stepped : taskStep ch e w pc = some (v, next)) :
    v.unit.ioPort.getD [] ⊆ w.unit.ioPort.getD [] := by
  cases pc with
  | draining | exitDrain =>
      simp only [taskStep] at stepped
      split at stepped
      · cases stepped
      · obtain ⟨rfl, _⟩ := Prod.mk.inj (Option.some.inj stepped)
        exact List.Subset.refl _
      · rename_i r rest present
        obtain ⟨rfl, _⟩ := Prod.mk.inj (Option.some.inj stepped)
        rw [present]
        exact List.subset_cons_self r rest
  | handling r ops fin =>
      cases ops with
      | nil =>
          obtain ⟨rfl, _⟩ := Prod.mk.inj (Option.some.inj stepped)
          exact List.Subset.refl _
      | cons op ops =>
          obtain ⟨rfl, _⟩ := Prod.mk.inj (Option.some.inj stepped)
          cases op with
          | flushReadQueue error =>
              simp only [runOp, flushReadQueue_port]
              exact List.Subset.refl _
          | signalEvent mask =>
              simp only [runOp, signalEvent, sweepEvents_unit]
              exact List.Subset.refl _
          | _ => exact List.Subset.refl _
  | rxLoop l =>
      obtain ⟨rfl, _⟩ := Prod.mk.inj (Option.some.inj stepped)
      split
      · exact List.Subset.refl _
      · split
        · exact List.Subset.refl _
        · simp only [offerFrame]
          split
          · rw [PA6TEthUnit.setReadList_ioPort]
            exact List.Subset.refl _
          · exact List.Subset.refl _
          · exact List.Subset.refl _
  | exitFlush =>
      obtain ⟨rfl, _⟩ := Prod.mk.inj (Option.some.inj stepped)
      rw [flushReadQueue_port]
      exact List.Subset.refl _
  | exitFlushEvents =>
      obtain ⟨rfl, _⟩ := Prod.mk.inj (Option.some.inj stepped)
      simp only [flushRemaining, sweepEvents_unit]
      exact List.Subset.refl _
  | drained => cases stepped
  | _ =>
      simp only [taskStep] at stepped
      repeat' split at stepped
      all_goals first
        | (obtain ⟨rfl, _⟩ := Prod.mk.inj (Option.some.inj stepped)
           exact List.Subset.refl _)
        | cases stepped

theorem task_stays_due (ch : Channels) (e : TaskEnv) (w v : World) (pc next : TaskPc)
    (account : TaskAccount w pc) (stepped : taskStep ch e w pc = some (v, next)) :
    next.Due v := by
  have due := account.due
  have asked := task_asked ch e w v pc next stepped
  cases pc with
  | draining | exitDrain =>
      simp only [taskStep] at stepped
      split at stepped
      · cases stepped
      · obtain ⟨rfl, rfl⟩ := Prod.mk.inj (Option.some.inj stepped)
        trivial
      · rename_i r rest present
        obtain ⟨rfl, rfl⟩ := Prod.mk.inj (Option.some.inj stepped)
        apply account.port r
        rw [present]
        exact List.mem_cons_self
  | received r =>
      obtain ⟨rfl, rfl⟩ := Prod.mk.inj (Option.some.inj stepped)
      have plain := account.held _ List.mem_cons_self
      have command : (w.reqs r).command = (w.asked r).command := plain.command
      simp only [TaskPc.Due, command]
      exact ⟨due, commandOps_due w.unit.online (w.asked r).command due⟩
  | handling r ops fin =>
      cases ops with
      | nil =>
          obtain ⟨rfl, rfl⟩ := Prod.mk.inj (Option.some.inj stepped)
          trivial
      | cons op ops =>
          obtain ⟨rfl, rfl⟩ := Prod.mk.inj (Option.some.inj stepped)
          refine ⟨by rw [asked]; exact due.1, by rw [asked]; exact due.2.1, fun error flushes => ?_⟩
          exact due.2.2 error (List.mem_cons_of_mem op flushes)
  | rxLoop l =>
      obtain ⟨rfl, rfl⟩ := Prod.mk.inj (Option.some.inj stepped)
      split
      · trivial
      · split
        · trivial
        · simp only [offerFrame]
          split <;> trivial
  | drained => cases stepped
  | _ =>
      simp only [taskStep] at stepped
      repeat' split at stepped
      all_goals first
        | (obtain ⟨rfl, rfl⟩ := Prod.mk.inj (Option.some.inj stepped)
           trivial)
        | cases stepped

theorem task_listed (ch : Channels) (e : TaskEnv) (w v : World) (pc next : TaskPc)
    (account : TaskAccount w pc) (stepped : taskStep ch e w pc = some (v, next))
    (answers : ∀ a ∈ w.answers, a.2.Listed) : ∀ a ∈ v.answers, a.2.Listed := by
  have due := account.due
  cases pc with
  | handling r ops fin =>
      cases ops with
      | nil =>
          obtain ⟨rfl, rfl⟩ := Prod.mk.inj (Option.some.inj stepped)
          have plain := account.held _ List.mem_cons_self
          have wire : (w.reqs r).wireError = 0#32 := plain.wireError
          apply listed_replyMsg w r (fin.apply (w.reqs r)) .unitTask rfl _ due.1 answers
          refine ⟨plain.command, ?_⟩
          simp only [Finish.apply, wire]
          exact due.2.1
      | cons op ops =>
          obtain ⟨rfl, rfl⟩ := Prod.mk.inj (Option.some.inj stepped)
          cases op with
          | flushReadQueue error =>
              have flushes := due.2.2 error List.mem_cons_self
              exact flushReadQueue_listed error w account.toQueuesAccount flushes answers
          | signalEvent mask =>
              have silent : runOp ch e w (.signalEvent mask) = w :=
                signalEvent_silent mask w fun r queued =>
                  (account.queued _ (stored_waiting w.unit r queued)).2.2.1
              rw [silent]
              exact answers
          | _ => exact answers
  | rxLoop l =>
      obtain ⟨rfl, rfl⟩ := Prod.mk.inj (Option.some.inj stepped)
      split
      · exact answers
      · split
        · exact answers
        · simp only [offerFrame]
          split <;> exact answers
  | rxDeliver l g f r orphan =>
      obtain ⟨rfl, rfl⟩ := Prod.mk.inj (Option.some.inj stepped)
      have plain := account.held _ List.mem_cons_self
      have promised := account.promised _ List.mem_cons_self
      have clean : (w.reqs r).error = .ok := by
        cases orphan with
        | false => exact promised.2.1
        | true => exact promised.2.1
      have command : (w.asked r).command = .cmdRead ∨ (w.asked r).command = .readOrphan := by
        cases orphan with
        | false => exact .inl promised.2.2.1
        | true => exact .inr promised.2.2.1
      obtain ⟨kept, ends⟩ := deliver_listed orphan e.hookOk w.unit w.mem r f (w.reqs r) clean
      apply listed_replyMsg w r _ (.processRX _) kept _ trivial answers
      refine ⟨plain.command, ?_⟩
      rcases ends with ⟨error, wire⟩ | ⟨error, wire⟩ <;> rcases command with read | orphaned
      · rw [error, wire, read]
        decide
      · rw [error, wire, orphaned]
        decide
      · rw [error, wire, read]
        decide
      · rw [error, wire, orphaned]
        decide
  | exitReply r =>
      obtain ⟨rfl, rfl⟩ := Prod.mk.inj (Option.some.inj stepped)
      have plain := account.held _ List.mem_cons_self
      have wire : ({ w.reqs r with error := .aborted } : IOSana2Req).wireError = 0#32 :=
        plain.wireError
      apply listed_replyMsg w r { w.reqs r with error := .aborted } .exitDrain rfl _ due answers
      refine ⟨plain.command, ?_⟩
      rw [wire]
      exact forTask_aborted _ due
  | exitFlush =>
      obtain ⟨rfl, rfl⟩ := Prod.mk.inj (Option.some.inj stepped)
      exact flushReadQueue_listed .aborted w account.toQueuesAccount (.inr rfl) answers
  | exitFlushEvents =>
      obtain ⟨rfl, rfl⟩ := Prod.mk.inj (Option.some.inj stepped)
      exact flushRemaining_listed w account.toQueuesAccount answers
  | drained => cases stepped
  | _ =>
      simp only [taskStep] at stepped
      repeat' split at stepped
      all_goals first
        | (obtain ⟨rfl, _⟩ := Prod.mk.inj (Option.some.inj stepped)
           exact answers)
        | cases stepped

theorem call_due_congr (w v : World) (c : Call) (asked : ∀ p ∈ c.claim, v.asked p.1 = w.asked p.1)
    (reqs : ∀ p ∈ c.claim, v.reqs p.1 = w.reqs p.1) (due : c.Due w) : c.Due v := by
  cases c with
  | replying r err werr sent =>
      simpa [Call.Due, asked _ List.mem_cons_self, reqs _ List.mem_cons_self] using due
  | queueing r =>
      simpa [Call.Due, plain_iff, asked _ List.mem_cons_self, reqs _ List.mem_cons_self] using due
  | addingRead pr c =>
      simpa [Call.Due, plain_iff, asked _ List.mem_cons_self, reqs _ List.mem_cons_self] using due
  | addingEvent r =>
      simpa [Call.Due, plain_iff, asked _ List.mem_cons_self, reqs _ List.mem_cons_self] using due
  | transmitting r =>
      simpa [Call.Due, asked _ List.mem_cons_self, reqs _ List.mem_cons_self] using due
  | submitting r f =>
      simpa [Call.Due, asked _ List.mem_cons_self, reqs _ List.mem_cons_self] using due
  | abortReply r =>
      simpa [Call.Due, plain_iff, asked _ List.mem_cons_self, reqs _ List.mem_cons_self] using due
  | _ => trivial

theorem task_due_congr (w v : World) (pc : TaskPc)
    (asked : ∀ p ∈ pc.claim, v.asked p.1 = w.asked p.1) (due : pc.Due w) : pc.Due v := by
  cases pc with
  | received r => simpa [TaskPc.Due, asked _ List.mem_cons_self] using due
  | handling r ops fin =>
      have same := asked _ List.mem_cons_self
      refine ⟨?_, ?_, due.2.2⟩
      · rw [same]
        exact due.1
      · rw [same]
        exact due.2.1
  | exitReply r => simpa [TaskPc.Due, asked _ List.mem_cons_self] using due
  | _ => trivial

theorem plain_congr (w v : World) (r : ReqId) (asked : v.asked r = w.asked r)
    (reqs : v.reqs r = w.reqs r) (plain : Plain w r) : Plain v r := by
  constructor
  · rw [asked, reqs]
    exact plain.command
  · rw [reqs]
    exact plain.wireError

theorem tasks_apart (ch : Channels) (s : Driver) (reached : (unitMachine ch).Reached s) (i : Nat)
    (pc : TaskPc) (present : s.tasks[i]? = some pc) :
    ((pc.claim ++ stored s.world.unit).map Prod.fst).Nodup ∧
      ∀ pc' ∈ s.tasks.eraseIdx i, ∀ p ∈ pc'.claim,
        p.1 ∉ (pc.claim ++ stored s.world.unit).map Prod.fst := by
  have distinct := kept_nodup _ _ _ (kept_reached ch s reached)
  simp only [Ledger.items, Driver.ledger, ledger, Driver.places, List.map_append] at distinct
  have inner := (List.nodup_append.mp distinct).2.1
  have moved : (s.tasks.flatMap TaskPc.claim ++ stored s.world.unit).Perm
      ((pc.claim ++ stored s.world.unit) ++ (s.tasks.eraseIdx i).flatMap TaskPc.claim) := by
    calc
      (s.tasks.flatMap TaskPc.claim ++ stored s.world.unit).Perm
          ((pc.claim ++ (s.tasks.eraseIdx i).flatMap TaskPc.claim) ++ stored s.world.unit) :=
        (flatMap_leave TaskPc.claim s.tasks i pc present).append_right _
      List.Perm _ (pc.claim ++
          ((s.tasks.eraseIdx i).flatMap TaskPc.claim ++ stored s.world.unit)) :=
        List.Perm.of_eq (List.append_assoc _ _ _)
      List.Perm _ (pc.claim ++
          (stored s.world.unit ++ (s.tasks.eraseIdx i).flatMap TaskPc.claim)) :=
        List.perm_append_comm.append_left _
      List.Perm _ _ := List.Perm.of_eq (List.append_assoc _ _ _).symm
  rw [← List.map_append, (moved.map Prod.fst).nodup_iff, List.map_append] at inner
  obtain ⟨own, _, apart⟩ := List.nodup_append.mp inner
  refine ⟨own, fun pc' other p claimed here => ?_⟩
  have there := List.mem_map_of_mem (f := Prod.fst) (List.mem_flatMap.mpr ⟨pc', other, claimed⟩)
  exact apart p.1 here p.1 there rfl

/-- A step that completes nothing, takes requests out of the queues at most, and leaves those in
the queues and in the hands of the unit tasks as they were. -/
theorem account_beside (s t : Driver) (tasks : ∀ pc ∈ t.tasks, pc ∈ s.tasks ∨ pc = .loopHead)
    (queues : stored t.world.unit ⊆ stored s.world.unit)
    (port : t.world.unit.ioPort.getD [] ⊆ s.world.unit.ioPort.getD [])
    (answers : t.world.answers = s.world.answers)
    (asked : ∀ p ∈ s.tasks.flatMap TaskPc.claim ++ stored s.world.unit,
      t.world.asked p.1 = s.world.asked p.1)
    (reqs : ∀ p ∈ s.tasks.flatMap TaskPc.claim ++ stored s.world.unit,
      t.world.reqs p.1 = s.world.reqs p.1)
    (account : UnitAccount s) : UnitAccount t := by
  have claims : ∀ pc ∈ t.tasks, ∀ p ∈ pc.claim, pc ∈ s.tasks := by
    intro pc member p claimed
    rcases tasks pc member with old | rfl
    · exact old
    · cases claimed
  have placed : ∀ pc ∈ s.tasks, ∀ p ∈ pc.claim,
      p ∈ s.tasks.flatMap TaskPc.claim ++ stored s.world.unit := fun pc member p claimed =>
    List.mem_append_left _ (List.mem_flatMap.mpr ⟨pc, member, claimed⟩)
  refine ⟨⟨fun p queued => ?_, fun r queued => ?_⟩, fun p held => ?_, fun pc member => ?_, ?_⟩
  · have before := List.mem_append_right (s.tasks.flatMap TaskPc.claim) (queues queued)
    exact plain_congr s.world t.world p.1 (asked p before) (reqs p before)
      (account.queues.plain p (queues queued))
  · have before := stored_message s.world.unit r (port queued)
    have same := asked _ (List.mem_append_right (s.tasks.flatMap TaskPc.claim) before)
    rw [same]
    exact account.queues.port r (port queued)
  · obtain ⟨pc, member, claimed⟩ := List.mem_flatMap.mp held
    have old := claims pc member p claimed
    have before := placed pc old p claimed
    exact plain_congr s.world t.world p.1 (asked p before) (reqs p before)
      (account.held p (List.mem_flatMap.mpr ⟨pc, old, claimed⟩))
  · rcases tasks pc member with old | rfl
    · exact task_due_congr s.world t.world pc
        (fun p claimed => asked p (placed pc old p claimed)) (account.tasks pc old)
    · trivial
  · rw [answers]
    exact account.answers

theorem stored_less (u v : PA6TEthUnit) (reads : ∀ c, v.readList c = u.readList c)
    (events : v.eventList = u.eventList) (port : v.ioPort.getD [] ⊆ u.ioPort.getD []) :
    stored v ⊆ stored u := by
  have ipv4 := reads .ipv4
  have arp := reads .arp
  have other := reads .other
  simp only [PA6TEthUnit.readList] at ipv4 arp other
  have ports : portPlaces v.ioPort ⊆ portPlaces u.ioPort := List.map_subset _ port
  simp only [stored, ipv4, arp, other, events]
  intro p queued
  simp only [List.mem_append] at queued ⊢
  exact queued.imp_right
    (Or.imp_right (Or.imp_right (Or.imp_right fun message => ports message)))

theorem call_account (ch : Channels) (s : Driver) (reached : (unitMachine ch).Reached s)
    (accounted : Accounted s) (c : Call) (member : c ∈ s.calls) : CallAccount s.world c where
  queues := accounted.queues
  queued := fun p queued => (kept_reached ch s reached).promised p
    (List.mem_append_right _ (List.mem_append_right _ queued))
  called := fun p claimed => (kept_reached ch s reached).promised p
    (List.mem_append_left _ (List.mem_flatMap.mpr ⟨c, member, claimed⟩))
  due := accounted.calls c member

theorem task_account (ch : Channels) (s : Driver) (reached : (unitMachine ch).Reached s)
    (accounted : Accounted s) (i : Nat) (pc : TaskPc) (present : s.tasks[i]? = some pc)
    (distinct : ((pc.claim ++ stored s.world.unit).map Prod.fst).Nodup) :
    TaskAccount s.world pc where
  toQueuesDue := accounted.queues
  queued := fun p queued => (kept_reached ch s reached).promised p
    (List.mem_append_right _ (List.mem_append_right _ queued))
  held := fun p claimed => accounted.held p
    (List.mem_flatMap.mpr ⟨pc, List.mem_of_getElem? present, claimed⟩)
  promised := fun p claimed => (kept_reached ch s reached).promised p
    (List.mem_append_right _ (List.mem_append_left _
      (List.mem_flatMap.mpr ⟨pc, List.mem_of_getElem? present, claimed⟩)))
  distinct := distinct
  due := accounted.tasks pc (List.mem_of_getElem? present)

theorem account_call (ch : Channels) (s t : Driver) (i : Nat) (e : CallEnv)
    (reached : (unitMachine ch).Reached s) (accounted : Accounted s)
    (stepped : driverStep ch s (.call i e) = some t) : UnitAccount t := by
  obtain ⟨c, w, next, present, moved, rfl⟩ := call_step ch s t i e stepped
  have member := List.mem_of_getElem? present
  have account := call_account ch s reached accounted c member
  have asked := call_asked ch e s.world w c next moved
  obtain ⟨queues, _, tasks⟩ := claims_apart ch s reached
  have claimed : ∀ p ∈ c.claim, p ∈ s.calls.flatMap Call.claim := fun p here =>
    List.mem_flatMap.mpr ⟨c, member, here⟩
  have others : ∀ x, (∀ p ∈ c.claim, p.1 ≠ x) → w.reqs x = s.world.reqs x :=
    call_reqs ch e s.world w c next moved
  have entered := call_entered ch e s.world w c next account.due moved
  refine ⟨⟨fun p queued => ?_, fun r queued => ?_⟩, fun p held => ?_, fun pc running => ?_,
    call_listed ch e s.world w c next account moved accounted.answers⟩
  · rcases call_stored ch e s.world w c next moved p queued with old | ⟨enters, here⟩
    · exact plain_congr s.world w p.1 (by rw [asked])
        (others p.1 fun p' own => queues p' (claimed p' own) p old) (accounted.queues.plain p old)
    · exact entered enters p here
  · rw [asked]
    rcases call_port ch e s.world w c next moved r queued with old | rfl
    · exact accounted.queues.port r old
    · exact account.due.2
  · exact plain_congr s.world w p.1 (by rw [asked])
      (others p.1 fun p' own => (tasks p held p' (claimed p' own)).symm) (accounted.held p held)
  · exact task_due_congr s.world w pc (fun p _ => by rw [asked]) (accounted.tasks pc running)

theorem account_task (ch : Channels) (s t : Driver) (i : Nat) (e : TaskEnv)
    (reached : (unitMachine ch).Reached s) (accounted : Accounted s)
    (stepped : driverStep ch s (.task i e) = some t) : UnitAccount t := by
  obtain ⟨pc, w, next, present, moved, rfl⟩ := task_step ch s t i e stepped
  obtain ⟨distinct, apart⟩ := tasks_apart ch s reached i pc present
  have account := task_account ch s reached accounted i pc present distinct
  have asked := task_asked ch e s.world w pc next moved
  have plain := task_plain ch e s.world w pc next account moved
  obtain ⟨_, _, _, _, record, _⟩ := task_handover ch e s.world w pc next moved
  refine ⟨⟨fun p queued => plain p (List.mem_append_right _ queued), fun r queued => ?_⟩,
    fun p held => ?_, fun pc' running => ?_,
    task_listed ch e s.world w pc next account moved accounted.answers⟩
  · rw [asked]
    exact accounted.queues.port r (task_port ch e s.world w pc next moved queued)
  · obtain ⟨pc', running, claimed⟩ := List.mem_flatMap.mp held
    rcases mem_replaced s.tasks i pc next pc' present running with rfl | other
    · exact plain p (List.mem_append_left _ claimed)
    · have same := Prod.mk.inj (record p.1 (apart pc' other p claimed))
      apply plain_congr s.world w p.1 same.1 same.2
      exact accounted.held p
        (List.mem_flatMap.mpr ⟨pc', List.mem_of_mem_eraseIdx other, claimed⟩)
  · rcases mem_replaced s.tasks i pc next pc' present running with rfl | other
    · exact task_stays_due ch e s.world w pc pc' account moved
    · exact task_due_congr s.world w pc' (fun p _ => by rw [asked])
        (accounted.tasks pc' (List.mem_of_mem_eraseIdx other))

theorem account_step (ch : Channels) (s t : Driver) (a : Action)
    (reached : (unitMachine ch).Reached s) (accounted : Accounted s)
    (stepped : driverStep ch s a = some t) : UnitAccount t := by
  have keeps : ∀ pc ∈ s.tasks, pc ∈ s.tasks ∨ pc = .loopHead := fun _ => .inl
  have same : stored s.world.unit ⊆ stored s.world.unit := fun _ => id
  have whole : s.world.unit.ioPort.getD [] ⊆ s.world.unit.ioPort.getD [] := fun _ => id
  have account := accounted.toUnitAccount
  cases a with
  | submit r q =>
      obtain ⟨settled, rfl⟩ := submit_step ch s t r q stepped
      have fresh : ∀ p ∈ s.tasks.flatMap TaskPc.claim ++ stored s.world.unit, p.1 ≠ r := by
        rintro p member rfl
        have placed : p ∈ s.ledger.places := List.mem_append_right _ member
        rw [placed_pending ch s reached p.1 (List.mem_map_of_mem placed)] at settled
        cases settled
      exact account_beside s _ keeps same whole rfl
        (fun p member => Function.update_of_ne (fresh p member) _ _)
        (fun p member => Function.update_of_ne (fresh p member) _ _) account
  | abortIo r =>
      obtain rfl := Option.some.inj stepped
      exact account_beside s _ keeps same whole rfl (fun _ _ => rfl) (fun _ _ => rfl) account
  | call i e => exact account_call ch s t i e reached accounted stepped
  | task i e => exact account_task ch s t i e reached accounted stepped
  | signal more =>
      obtain rfl := Option.some.inj stepped
      exact account_beside s _ keeps same whole rfl (fun _ _ => rfl) (fun _ _ => rfl) account
  | dma ring mem =>
      obtain rfl := Option.some.inj stepped
      exact account_beside s _ keeps same whole rfl (fun _ _ => rfl) (fun _ _ => rfl) account
  | openDevice bmCookie allocated outcome =>
      obtain ⟨asked, reqs⟩ := start_records s.world outcome
      obtain ⟨_, answers, _, _⟩ := started_fields s.world outcome
      obtain ⟨reads, events, port⟩ := start_queues s.world outcome
      have less := stored_less s.world.unit _ reads events port
      rcases open_step ch s t bmCookie allocated outcome stepped with
        rfl | ⟨_, rfl⟩ | ⟨_, _, rfl⟩ | ⟨_, _, rfl⟩
      · exact account
      · exact account_beside s _ keeps same whole rfl (fun _ _ => rfl) (fun _ _ => rfl) account
      · exact account_beside s _ keeps less port answers (fun p _ => by rw [asked])
          (fun p _ => by rw [reqs]) account
      · refine account_beside s _ (fun pc member => (List.mem_cons.mp member).symm) less port
          answers (fun p _ => ?_) (fun p _ => ?_) account
        · exact congrFun asked p.1
        · exact congrFun reqs p.1
  | closeDevice bmCookie =>
      obtain rfl := Option.some.inj stepped
      obtain ⟨asked, reqs⟩ := close_records s.world bmCookie
      have unit : stored (s.world.close bmCookie).unit = stored s.world.unit ∧
          (s.world.close bmCookie).unit.ioPort = s.world.unit.ioPort ∧
          (s.world.close bmCookie).answers = s.world.answers := by
        simp only [close, unitTaskShutdown]
        split_ifs <;> exact ⟨rfl, rfl, rfl⟩
      refine account_beside s _ keeps ?_ ?_ unit.2.2 (fun p _ => by rw [asked])
        (fun p _ => by rw [reqs]) account
      · rw [unit.1]
        exact same
      · rw [unit.2.1]
        exact whole
  | teardown i =>
      obtain ⟨_, rfl⟩ := teardown_step ch s t i stepped
      have less : stored s.world.freeTask.unit ⊆ stored s.world.unit :=
        stored_less s.world.unit _ (fun c => by cases c <;> rfl) rfl (List.nil_subset _)
      exact account_beside s _ (fun pc member => .inl (List.mem_of_mem_eraseIdx member)) less
        (List.nil_subset _) rfl (fun _ _ => rfl) (fun _ _ => rfl) account

theorem accounted_step (ch : Channels) (s t : Driver) (a : Action)
    (reached : (unitMachine ch).Reached s) (accounted : Accounted s)
    (stepped : driverStep ch s a = some t) : Accounted t := by
  have calls : ∀ c ∈ t.calls, c.Due t.world := by
    apply calls_step ch (fun w c => c.Due w) call_due_congr (fun _ _ => trivial)
      (fun _ _ => trivial) s t a reached ?_ accounted.calls stepped
    intro e c member w next moved
    exact call_stays_due ch e s.world w c next (call_account ch s reached accounted c member) moved
  exact ⟨account_step ch s t a reached accounted stepped, calls⟩

theorem accounted_reached (ch : Channels) (s : Driver) (reached : (unitMachine ch).Reached s) :
    Accounted s := by
  apply (unitMachine ch).invariant_within Accounted
  · intro s cold
    have none : stored s.world.unit = [] := by
      have reads := cold.reads
      have ipv4 := reads .ipv4
      have arp := reads .arp
      have other := reads .other
      simp only [PA6TEthUnit.readList] at ipv4 arp other
      simp only [stored, ipv4, arp, other, cold.events, cold.port]
      rfl
    refine ⟨⟨⟨?_, ?_⟩, ?_, ?_, ?_⟩, ?_⟩
    · rw [none]
      exact List.forall_mem_nil _
    · rw [cold.port]
      exact List.forall_mem_nil _
    · rw [cold.tasks]
      exact List.forall_mem_nil _
    · rw [cold.tasks]
      exact List.forall_mem_nil _
    · rw [cold.answers]
      exact List.forall_mem_nil _
    · rw [cold.calls]
      exact List.forall_mem_nil _
  · exact fun s a t before accounted stepped => accounted_step ch s t a before accounted stepped
  · exact reached

/-- In every run, over all sessions, every request is completed with the command it was submitted
with, and with one of the pairs of errors of that command, by whichever of `BeginIO`, `AbortIO`, the
unit task and the flushes completes it; the unit task's own replies are to the commands that it has a
branch for. -/
theorem outcomes_by_command (ch : Channels) (s : Driver) (reached : (unitMachine ch).Reached s) :
    ∀ a ∈ s.world.answers, a.2.Listed :=
  (accounted_reached ch s reached).answers

/-- An event waiter that is aborted, after an interface was configured. -/
theorem outcomes_by_command_event :
    ∃ s a, (unitMachine ⟨0, 0, 0⟩).Reached s ∧ a ∈ s.world.answers ∧ a.1 = 2 ∧ a.2.Listed := by
  obtain ⟨s, reached, shape⟩ := (unitMachine ⟨0, 0, 0⟩).run_shape
    (fun s => s.world.answers.map Prod.fst) [2, 1] coldDriver
    (sessionUp ++ submitted 2 (request .onEvent 0#32 0 s2eventOffline) ++
      .abortIo 2 :: List.replicate 3 (.call 0 callEnv))
    (.start _ coldDriver_cold) (by decide +kernel)
  have listed := outcomes_by_command ⟨0, 0, 0⟩ s reached
  have member : 2 ∈ s.world.answers.map Prod.fst := by
    rw [shape]
    exact List.mem_cons_self
  obtain ⟨a, here, same⟩ := List.mem_map.mp member
  exact ⟨s, a, reached, here, same, listed a here⟩

end Pa6tEth

import Pa6tEth.Cookie
import Pa6tEth.TxFailure
import Pa6tEth.Support.Order

/-! The commands of one session come out of the port, and are completed, in the order in which
`BeginIO` put them there. -/

namespace Pa6tEth

open Support World

/-- A request comes into the port, or `AbortIO` takes it out again. -/
inductive PortEvent
  | put (r : ReqId)
  | cancel (r : ReqId)
  deriving DecidableEq, Repr

def putsOf (events : List PortEvent) : List ReqId :=
  events.filterMap fun
    | .put r => some r
    | .cancel _ => none

def cancelsOf (events : List PortEvent) : List ReqId :=
  events.filterMap fun
    | .put _ => none
    | .cancel r => some r

namespace Call

def portEvents (w : World) : Call → List PortEvent
  | queueing r => [.put r]
  | abortPort r => if r ∈ w.unit.ioPort.getD [] then [.cancel r] else []
  | _ => []

end Call

def Driver.portEvents (s : Driver) : Action → List PortEvent
  | .call i _ => ((s.calls[i]?).map (Call.portEvents s.world)).getD []
  | _ => []

def commandReply : ReqId × Answer → Option ReqId
  | (r, .replied .unitTask _ _) => some r
  | (r, .replied .exitDrain _ _) => some r
  | _ => none

/-- The requests that the unit task has taken from the port and replied to, oldest first. -/
def commandReplies (answers : List (ReqId × Answer)) : List ReqId :=
  (answers.filterMap commandReply).reverse

namespace Driver

/-- The request that the unit task is at, and those behind it in the port. -/
def commands (s : Driver) : List ReqId :=
  s.tasks.flatMap TaskPc.fromPort ++ s.world.unit.ioPort.getD []

end Driver

theorem replies_none (r : ReqId) (a : Answer) (answers : List (ReqId × Answer))
    (other : commandReply (r, a) = none) :
    commandReplies ((r, a) :: answers) = commandReplies answers := by
  simp only [commandReplies, List.filterMap_cons, other]

theorem replies_some (r : ReqId) (a : Answer) (answers : List (ReqId × Answer))
    (own : commandReply (r, a) = some r) :
    commandReplies ((r, a) :: answers) = commandReplies answers ++ [r] := by
  simp only [commandReplies, List.filterMap_cons, own, List.reverse_cons]

theorem call_replies (ch : Channels) (e : CallEnv) (w v : World) (c : Call) (next : Option Call)
    (stepped : callStep ch e w c = some (v, next)) :
    commandReplies v.answers = commandReplies w.answers := by
  cases c with
  | beginIo r =>
      obtain ⟨rfl, rfl⟩ := Prod.mk.inj (Option.some.inj stepped)
      obtain ⟨q, openers, reports, same⟩ := beginIo_frame e w r
      rw [same]
      rfl
  | replying r err werr sent =>
      obtain ⟨rfl, rfl⟩ := Prod.mk.inj (Option.some.inj stepped)
      simp only [replyIoreq]
      split
      · exact replies_none r _ w.answers rfl
      · exact replies_none r _ w.answers rfl
  | queueing r =>
      obtain ⟨w', put, same⟩ := Option.map_eq_some_iff.mp stepped
      obtain ⟨rfl, rfl⟩ := Prod.mk.inj same
      obtain ⟨port, _, rfl⟩ := Option.map_eq_some_iff.mp put
      rfl
  | abortReply r =>
      obtain ⟨rfl, rfl⟩ := Prod.mk.inj (Option.some.inj stepped)
      exact replies_none r _ w.answers rfl
  | _ =>
      simp only [callStep] at stepped
      repeat' split at stepped
      all_goals
        obtain ⟨rfl, rfl⟩ := Prod.mk.inj (Option.some.inj stepped)
        rfl

theorem call_passes (ch : Channels) (e : CallEnv) (w v : World) (c : Call) (next : Option Call)
    (stepped : callStep ch e w c = some (v, next)) (front out : List ReqId)
    (events : List PortEvent)
    (held : PassedOn (putsOf events) out (cancelsOf events) (front ++ w.unit.ioPort.getD [])) :
    PassedOn (putsOf (events ++ c.portEvents w)) out (cancelsOf (events ++ c.portEvents w))
      (front ++ v.unit.ioPort.getD []) := by
  have idle : c.portEvents w = [] → v.unit.ioPort = w.unit.ioPort →
      PassedOn (putsOf (events ++ c.portEvents w)) out (cancelsOf (events ++ c.portEvents w))
        (front ++ v.unit.ioPort.getD []) := by
    intro none same
    rw [none, same, List.append_nil]
    exact held
  cases c with
  | beginIo r =>
      obtain ⟨rfl, rfl⟩ := Prod.mk.inj (Option.some.inj stepped)
      obtain ⟨q, openers, reports, same⟩ := beginIo_frame e w r
      apply idle rfl
      rw [same]
  | replying r err werr sent =>
      obtain ⟨rfl, rfl⟩ := Prod.mk.inj (Option.some.inj stepped)
      apply idle rfl
      rw [(replyIoreq_frame w r err werr).1]
  | queueing r =>
      obtain ⟨w', put, same⟩ := Option.map_eq_some_iff.mp stepped
      obtain ⟨rfl, rfl⟩ := Prod.mk.inj same
      obtain ⟨port, present, rfl⟩ := Option.map_eq_some_iff.mp put
      rw [present] at held
      have grown := passedOn_put _ out _ (front ++ port) r held
      simpa only [Call.portEvents, putsOf, cancelsOf, List.filterMap_append, List.filterMap_cons,
        List.filterMap_nil, List.append_nil, Option.getD_some, List.append_assoc] using grown
  | addingRead pr c =>
      obtain ⟨rfl, rfl⟩ := Prod.mk.inj (Option.some.inj stepped)
      exact idle rfl (PA6TEthUnit.setReadList_ioPort _ _ _)
  | abortReads r =>
      simp only [callStep] at stepped
      split at stepped
      · obtain ⟨rfl, rfl⟩ := Prod.mk.inj (Option.some.inj stepped)
        exact idle rfl rfl
      · obtain ⟨rfl, rfl⟩ := Prod.mk.inj (Option.some.inj stepped)
        exact idle rfl (PA6TEthUnit.setReadList_ioPort _ _ _)
  | abortPort r =>
      simp only [callStep] at stepped
      split at stepped
      · rename_i absent
        obtain ⟨rfl, rfl⟩ := Prod.mk.inj (Option.some.inj stepped)
        exact idle (by simp [Call.portEvents, absent]) rfl
      · rename_i port present
        split at stepped
        · rename_i member
          obtain ⟨rfl, rfl⟩ := Prod.mk.inj (Option.some.inj stepped)
          obtain ⟨before, after, _, whole, rest⟩ := List.exists_erase_eq member
          have there : Call.portEvents w (.abortPort r) = [.cancel r] := by
            simp [Call.portEvents, present, member]
          have split : front ++ w.unit.ioPort.getD [] = (front ++ before) ++ r :: after := by
            rw [present, Option.getD_some, whole, List.append_assoc]
          rw [split] at held
          have fewer := passedOn_cancel _ out _ (front ++ before) after r held
          rw [there]
          simpa only [putsOf, cancelsOf, List.filterMap_append, List.filterMap_cons,
            List.filterMap_nil, List.append_nil, Option.getD_some, List.append_assoc, rest]
            using fewer
        · rename_i missing
          obtain ⟨rfl, rfl⟩ := Prod.mk.inj (Option.some.inj stepped)
          exact idle (by simp [Call.portEvents, present, missing]) rfl
  | _ =>
      simp only [callStep] at stepped
      repeat' split at stepped
      all_goals
        obtain ⟨rfl, rfl⟩ := Prod.mk.inj (Option.some.inj stepped)
        exact idle rfl rfl

theorem sweepEvents_replies (picked : IOSana2Req → Bool) (answer : IOSana2Req → IOSana2Req)
    (via : Via) (w : World) (other : ∀ r asked done, commandReply (r, .replied via asked done) = none) :
    commandReplies (sweepEvents picked answer via w).answers = commandReplies w.answers :=
  sweep_frame (fun w => commandReplies w.answers) picked answer via w.unit.eventList w
    fun w r => replies_none r _ w.answers (other r _ _)

theorem flushReadQueue_replies (error : IoError) (w : World) :
    commandReplies (w.flushReadQueue error).answers = commandReplies w.answers := by
  have read : ∀ c v, commandReplies (flushRead error c v).answers = commandReplies v.answers :=
    fun c v => flushReadList_frame (fun w => commandReplies w.answers) error (v.unit.readList c) v
      fun w pr => replies_none pr.ioreq _ w.answers rfl
  rw [flushReadQueue, sweepEvents_replies _ _ _ _ fun _ _ _ => rfl, read, read, read]

/-- What the unit task takes from the port is the oldest message, and it takes the next one only
when it has replied to this one. -/
theorem task_passes (ch : Channels) (e : TaskEnv) (w v : World) (pc next : TaskPc)
    (stepped : taskStep ch e w pc = some (v, next)) (put cancelled : List ReqId)
    (held : PassedOn put (commandReplies w.answers) cancelled
      (pc.fromPort ++ w.unit.ioPort.getD [])) :
    PassedOn put (commandReplies v.answers) cancelled
      (next.fromPort ++ v.unit.ioPort.getD []) := by
  have idle : next.fromPort = pc.fromPort → v.unit.ioPort = w.unit.ioPort →
      commandReplies v.answers = commandReplies w.answers →
      PassedOn put (commandReplies v.answers) cancelled
        (next.fromPort ++ v.unit.ioPort.getD []) := by
    intro hand port replies
    rw [hand, port, replies]
    exact held
  cases pc with
  | draining | exitDrain =>
      simp only [taskStep] at stepped
      split at stepped
      · cases stepped
      · obtain ⟨rfl, rfl⟩ := Prod.mk.inj (Option.some.inj stepped)
        exact idle rfl rfl rfl
      · rename_i r rest present
        obtain ⟨rfl, rfl⟩ := Prod.mk.inj (Option.some.inj stepped)
        rw [present] at held
        exact held
  | received r =>
      obtain ⟨rfl, rfl⟩ := Prod.mk.inj (Option.some.inj stepped)
      exact idle rfl rfl rfl
  | handling r ops fin =>
      cases ops with
      | nil =>
          obtain ⟨rfl, rfl⟩ := Prod.mk.inj (Option.some.inj stepped)
          have replied := passedOn_out put (commandReplies w.answers) cancelled _ r held
          rw [← replies_some r (.replied .unitTask (w.asked r) (fin.apply (w.reqs r))) w.answers
            rfl] at replied
          exact replied
      | cons op ops =>
          obtain ⟨rfl, rfl⟩ := Prod.mk.inj (Option.some.inj stepped)
          cases op with
          | flushReadQueue error =>
              exact idle rfl (flushReadQueue_port error w) (flushReadQueue_replies error w)
          | signalEvent mask =>
              apply idle rfl
              · simp only [runOp, signalEvent, sweepEvents_unit]
              · exact sweepEvents_replies _ _ _ w fun _ _ _ => rfl
          | _ => exact idle rfl rfl rfl
  | rxLoop l =>
      obtain ⟨rfl, rfl⟩ := Prod.mk.inj (Option.some.inj stepped)
      obtain ⟨port, answers, hand⟩ : (rxBody ch w l).1.unit.ioPort = w.unit.ioPort ∧
          (rxBody ch w l).1.answers = w.answers ∧ (rxBody ch w l).2.fromPort = [] := by
        simp only [rxBody]
        split
        · exact ⟨rfl, rfl, rfl⟩
        · split
          · exact ⟨rfl, rfl, rfl⟩
          · simp only [offerFrame]
            split
            · exact ⟨PA6TEthUnit.setReadList_ioPort _ _ _, rfl, rfl⟩
            · exact ⟨rfl, rfl, rfl⟩
            · exact ⟨rfl, rfl, rfl⟩
      exact idle hand port (congrArg commandReplies answers)
  | rxDeliver l g f r orphan =>
      obtain ⟨rfl, rfl⟩ := Prod.mk.inj (Option.some.inj stepped)
      exact idle rfl rfl (replies_none r _ w.answers rfl)
  | exitReply r =>
      obtain ⟨rfl, rfl⟩ := Prod.mk.inj (Option.some.inj stepped)
      have replied := passedOn_out put (commandReplies w.answers) cancelled _ r held
      rw [← replies_some r (.replied .exitDrain (w.asked r) { w.reqs r with error := .aborted })
        w.answers rfl] at replied
      exact replied
  | exitFlush =>
      obtain ⟨rfl, rfl⟩ := Prod.mk.inj (Option.some.inj stepped)
      exact idle rfl (flushReadQueue_port .aborted w) (flushReadQueue_replies .aborted w)
  | exitFlushEvents =>
      obtain ⟨rfl, rfl⟩ := Prod.mk.inj (Option.some.inj stepped)
      apply idle rfl
      · simp only [flushRemaining, sweepEvents_unit]
      · exact sweepEvents_replies _ _ _ w fun _ _ _ => rfl
  | drained => cases stepped
  | _ =>
      simp only [taskStep] at stepped
      repeat' split at stepped
      all_goals first
        | (obtain ⟨rfl, rfl⟩ := Prod.mk.inj (Option.some.inj stepped)
           exact idle rfl rfl rfl)
        | cases stepped

/-- The session's one unit task, and the commands that passed through its port. -/
def CommandsPassed (s : Driver) (events : List PortEvent) : Prop :=
  (∃ pc, s.tasks = [pc]) ∧
    PassedOn (putsOf events) (commandReplies s.world.answers) (cancelsOf events) s.commands

theorem passed_beside (s t : Driver) (events : List PortEvent) (tasks : t.tasks = s.tasks)
    (answers : t.world.answers = s.world.answers)
    (port : t.world.unit.ioPort = s.world.unit.ioPort) (held : CommandsPassed s events) :
    CommandsPassed t (events ++ []) := by
  simp only [CommandsPassed, Driver.commands, tasks, answers, port, List.append_nil]
  exact held

theorem passed_step (ch : Channels) (s t : Driver) (events : List PortEvent) (a : Action)
    (held : CommandsPassed s events) (stepped : (sessionMachine ch).step s a = some t) :
    CommandsPassed t (events ++ s.portEvents a) := by
  obtain ⟨inside, moved⟩ := session_step ch s t a stepped
  cases a with
  | submit r q =>
      obtain ⟨_, rfl⟩ := submit_step ch s t r q moved
      exact passed_beside s _ events rfl rfl rfl held
  | call i e =>
      obtain ⟨c, w, next, present, called, rfl⟩ := call_step ch s t i e moved
      have own : s.portEvents (.call i e) = c.portEvents s.world := by
        simp only [Driver.portEvents, present, Option.map_some, Option.getD_some]
      refine ⟨held.1, ?_⟩
      rw [own, call_replies ch e s.world w c next called]
      exact call_passes ch e s.world w c next called (s.tasks.flatMap TaskPc.fromPort) _ events
        held.2
  | task i e =>
      obtain ⟨pc, w, next, present, ran, rfl⟩ := task_step ch s t i e moved
      obtain ⟨⟨only, single⟩, passed⟩ := held
      rw [single] at present
      obtain ⟨rfl, rfl⟩ : i = 0 ∧ only = pc := by
        cases i with
        | zero => exact ⟨rfl, Option.some.inj present⟩
        | succ i => simp at present
      refine ⟨⟨next, by rw [single]; rfl⟩, ?_⟩
      have one : ∀ pc : TaskPc, [pc].flatMap TaskPc.fromPort = pc.fromPort := fun pc => by
        simp only [List.flatMap_cons, List.flatMap_nil, List.append_nil]
      simp only [Driver.commands, Driver.portEvents, single, List.set_cons_zero, one,
        List.append_nil] at passed ⊢
      exact task_passes ch e s.world w only next ran _ _ passed
  | openDevice bmCookie allocated outcome =>
      have opened : s.world.unit.openCount ≠ 0 := by simpa [inSession] using inside
      rcases open_step ch s t bmCookie allocated outcome moved with
        rfl | ⟨_, rfl⟩ | ⟨closed, _⟩ | ⟨closed, _⟩
      · exact passed_beside t t events rfl rfl rfl held
      · exact passed_beside s _ events rfl rfl rfl held
      · exact absurd closed opened
      · exact absurd closed opened
  | closeDevice bmCookie =>
      obtain rfl := Option.some.inj moved
      have same : (s.world.close bmCookie).answers = s.world.answers ∧
          (s.world.close bmCookie).unit.ioPort = s.world.unit.ioPort := by
        simp only [close, unitTaskShutdown]
        split_ifs <;> exact ⟨rfl, rfl⟩
      exact passed_beside s _ events rfl same.1 same.2 held
  | teardown i => cases inside
  | _ =>
      obtain rfl := Option.some.inj moved
      exact passed_beside s _ events rfl rfl rfl held

/-- In every run of a session the requests that `BeginIO` put into the port are replied to by the
unit task in the order in which they were put there, one after the other. Missing are only those
that `AbortIO` took out, and without such an abort the replies, the command at which the unit task
is and the messages in the port are together what was put in. -/
theorem commands_in_order (ch : Channels) (s t : Driver) (actions : List Action)
    (opened : Opened s) (ran : (sessionMachine ch).run s actions = some t) :
    PassedOn (putsOf ((sessionMachine ch).trace Driver.portEvents s actions))
        (commandReplies t.world.answers)
        (cancelsOf ((sessionMachine ch).trace Driver.portEvents s actions)) t.commands ∧
      (cancelsOf ((sessionMachine ch).trace Driver.portEvents s actions) = [] →
        putsOf ((sessionMachine ch).trace Driver.portEvents s actions) =
          commandReplies t.world.answers ++ t.commands) := by
  have begun : CommandsPassed s [] := by
    refine ⟨⟨.loopHead, opened.tasks⟩, ?_⟩
    simp only [Driver.commands, opened.tasks, opened.port, opened.answers]
    exact passedOn_empty
  have passed := ((sessionMachine ch).trace_invariant Driver.portEvents CommandsPassed
    (fun s events a t held stepped => passed_step ch s t events a held stepped) s t [] actions
    begun ran).2
  rw [List.nil_append] at passed
  refine ⟨passed, fun none => ?_⟩
  rw [none] at passed
  exact passedOn_whole _ _ _ passed

/-- Three commands are queued and the second is aborted: the unit task has replied to the first and
is at the third. -/
theorem commands_in_order_abort :
    ∃ t actions, (sessionMachine ⟨0, 0, 0⟩).run openedDriver actions = some t ∧
      putsOf ((sessionMachine ⟨0, 0, 0⟩).trace Driver.portEvents openedDriver actions) = [1, 2, 3] ∧
      PassedOn [1, 2, 3] [1] [2] t.commands := by
  let actions := submitted 1 (request .configInterface 0#32 0 0#32) ++
    submitted 2 (request .cmdFlush 0#32 0 0#32) ++ submitted 3 (request .cmdFlush 0#32 0 0#32) ++
    .abortIo 2 :: List.replicate 4 (.call 0 callEnv) ++ List.replicate 10 (.task 0 taskEnv)
  have shape : ((sessionMachine ⟨0, 0, 0⟩).run openedDriver actions).map
      (fun t => commandReplies t.world.answers) = some [1] := by decide +kernel
  have events : (sessionMachine ⟨0, 0, 0⟩).trace Driver.portEvents openedDriver actions =
      [.put 1, .put 2, .put 3, .cancel 2] := by decide +kernel
  obtain ⟨t, ran, replies⟩ := Option.map_eq_some_iff.mp shape
  have passed := (commands_in_order ⟨0, 0, 0⟩ openedDriver t actions openedDriver_opened ran).1
  rw [events, replies] at passed
  exact ⟨t, actions, ran, by rw [events]; rfl, passed⟩

end Pa6tEth

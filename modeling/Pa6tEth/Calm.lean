import Pa6tEth.Handover

/-! What the steps of calls and unit tasks leave as it is. -/

namespace Pa6tEth

open Support World

/-- Nothing is added to the read lists or the event list, the unit does not change between online
and offline, and no command is taken up. -/
structure Calm (w v : World) : Prop where
  online : v.unit.online = w.unit.online
  asked : v.asked = w.asked
  history : v.history = w.history
  reads : ∀ c, w.unit.readList c = [] → v.unit.readList c = []
  events : v.unit.eventList ⊆ w.unit.eventList

theorem calm_refl (w : World) : Calm w w :=
  ⟨rfl, rfl, rfl, fun _ => id, fun _ => id⟩

theorem calm_unit (w v : World) (online : v.unit.online = w.unit.online)
    (asked : v.asked = w.asked) (history : v.history = w.history)
    (reads : ∀ c, v.unit.readList c = w.unit.readList c)
    (events : v.unit.eventList = w.unit.eventList) : Calm w v :=
  ⟨online, asked, history, fun c empty => (reads c).trans empty, fun _ member => events ▸ member⟩

theorem calm_trans (w v x : World) (first : Calm w v) (second : Calm v x) : Calm w x where
  online := second.online.trans first.online
  asked := second.asked.trans first.asked
  history := second.history.trans first.history
  reads := fun c empty => second.reads c (first.reads c empty)
  events := fun _ member => first.events (second.events member)

theorem sweep_filter (picked : IOSana2Req → Bool) (answer : IOSana2Req → IOSana2Req) (via : Via)
    (same : ∀ q, picked (answer q) = picked q) (ids : List ReqId) (w : World) :
    (sweep picked answer via ids w).2 = ids.filter fun r => !picked (w.reqs r) := by
  induction ids generalizing w with
  | nil => rfl
  | cons head rest ih =>
      have answered : ∀ r, picked ((w.replyMsg head (answer (w.reqs head)) via).reqs r) =
          picked (w.reqs r) := by
        intro r
        by_cases here : r = head
        · subst here
          simp only [replyMsg, Function.update_self, same]
        · simp only [replyMsg, Function.update_of_ne here]
      cases first : picked (w.reqs head) with
      | true => simp only [sweep, first, if_true, ih, answered, List.filter_cons, Bool.not_true,
          Bool.false_eq_true, if_false]
      | false => simp only [sweep, first, Bool.false_eq_true, if_false, ih, List.filter_cons,
          Bool.not_false, if_true]

theorem sweep_left (picked : IOSana2Req → Bool) (answer : IOSana2Req → IOSana2Req) (via : Via)
    (same : ∀ q, picked (answer q) = picked q) (ids : List ReqId) (w : World) (r : ReqId)
    (left : r ∈ (sweep picked answer via ids w).2) : r ∈ ids ∧ picked (w.reqs r) = false := by
  rw [sweep_filter picked answer via same, List.mem_filter] at left
  exact ⟨left.1, by simpa using left.2⟩

theorem sweep_subset (picked : IOSana2Req → Bool) (answer : IOSana2Req → IOSana2Req) (via : Via)
    (ids : List ReqId) (w : World) : (sweep picked answer via ids w).2 ⊆ ids := by
  induction ids generalizing w with
  | nil => exact List.Subset.refl _
  | cons r rest ih =>
      simp only [sweep]
      split
      · exact fun r' left => List.mem_cons_of_mem _ (ih _ left)
      · exact List.cons_subset_cons r (ih w)

theorem sweepEvents_calm (picked : IOSana2Req → Bool) (answer : IOSana2Req → IOSana2Req)
    (via : Via) (w : World) : Calm w (sweepEvents picked answer via w) := by
  have unit := sweepEvents_unit picked answer via w
  refine ⟨by rw [unit], ?_, ?_, fun c empty => ?_, ?_⟩
  · exact sweep_frame (fun w => w.asked) picked answer via _ w fun _ _ => rfl
  · exact sweep_frame (fun w => w.history) picked answer via _ w fun _ _ => rfl
  · rw [unit]
    cases c <;> exact empty
  · rw [unit]
    exact sweep_subset picked answer via _ w

theorem flushRead_calm (error : IoError) (c : ReadClass) (w : World) :
    Calm w (flushRead error c w) := by
  have unit := flushRead_unit error c w
  refine ⟨by rw [unit, PA6TEthUnit.setReadList_online], ?_, ?_, fun d empty => ?_, ?_⟩
  · exact flushReadList_frame (fun w => w.asked) error _ w fun _ _ => rfl
  · exact flushReadList_frame (fun w => w.history) error _ w fun _ _ => rfl
  · rw [unit, PA6TEthUnit.readList_setReadList, empty, ite_self]
  · rw [unit, PA6TEthUnit.setReadList_eventList]
    exact List.Subset.refl _

theorem flushRead_command (error : IoError) (c : ReadClass) (w : World) (r : ReqId) :
    ((flushRead error c w).reqs r).command = (w.reqs r).command := by
  refine flushReadList_frame (fun w => (w.reqs r).command) error (w.unit.readList c) w ?_
  intro w pr
  by_cases here : r = pr.ioreq
  · subst here
    simp only [replyMsg, Function.update_self, flushed]
  · simp only [replyMsg, Function.update_of_ne here]

theorem flushReadQueue_calm (error : IoError) (w : World) : Calm w (w.flushReadQueue error) :=
  calm_trans _ _ _ (calm_trans _ _ _ (calm_trans _ _ _ (flushRead_calm error .ipv4 w)
    (flushRead_calm error .arp _)) (flushRead_calm error .other _)) (sweepEvents_calm _ _ _ _)

/-- The call is about to link a request into a read list or the event list. -/
def Call.links : Call → Bool
  | addingRead _ _ => true
  | addingEvent _ => true
  | _ => false

theorem call_calm (ch : Channels) (e : CallEnv) (w v : World) (c : Call) (next : Option Call)
    (unlinked : c.links = false) (stepped : callStep ch e w c = some (v, next)) :
    Calm w v := by
  cases c with
  | beginIo r =>
      obtain ⟨rfl, rfl⟩ := Prod.mk.inj (Option.some.inj stepped)
      obtain ⟨q, openers, reports, same⟩ := beginIo_frame e w r
      rw [same]
      exact calm_unit _ _ rfl rfl rfl (fun c => by cases c <;> rfl) rfl
  | replying r err werr sent =>
      obtain ⟨rfl, rfl⟩ := Prod.mk.inj (Option.some.inj stepped)
      simp only [replyIoreq]
      split <;> exact calm_unit _ _ rfl rfl rfl (fun _ => rfl) rfl
  | queueing r =>
      obtain ⟨w', put, same⟩ := Option.map_eq_some_iff.mp stepped
      obtain ⟨rfl, rfl⟩ := Prod.mk.inj same
      obtain ⟨port, _, rfl⟩ := Option.map_eq_some_iff.mp put
      exact calm_unit _ _ rfl rfl rfl (fun c => by cases c <;> rfl) rfl
  | addingRead pr c => cases unlinked
  | addingEvent r => cases unlinked
  | transmitting r =>
      simp only [callStep] at stepped
      split at stepped <;> obtain ⟨rfl, rfl⟩ := Prod.mk.inj (Option.some.inj stepped) <;>
        exact calm_unit _ _ rfl rfl rfl (fun _ => rfl) rfl
  | submitting r f =>
      obtain ⟨rfl, rfl⟩ := Prod.mk.inj (Option.some.inj stepped)
      exact calm_unit _ _ rfl rfl rfl (fun c => by cases c <;> rfl) rfl
  | signalling =>
      obtain ⟨rfl, rfl⟩ := Prod.mk.inj (Option.some.inj stepped)
      exact calm_unit _ _ rfl rfl rfl (fun _ => rfl) rfl
  | abortReads r =>
      simp only [callStep] at stepped
      split at stepped
      · obtain ⟨rfl, rfl⟩ := Prod.mk.inj (Option.some.inj stepped)
        exact calm_refl w
      · obtain ⟨rfl, rfl⟩ := Prod.mk.inj (Option.some.inj stepped)
        refine ⟨by simp, rfl, rfl, fun d empty => ?_, by simp⟩
        rw [PA6TEthUnit.readList_setReadList]
        split
        · rename_i here
          simp [← here, empty]
        · exact empty
  | abortEvents r =>
      simp only [callStep] at stepped
      split at stepped
      · obtain ⟨rfl, rfl⟩ := Prod.mk.inj (Option.some.inj stepped)
        exact ⟨rfl, rfl, rfl, fun c empty => by cases c <;> exact empty, List.erase_subset⟩
      · obtain ⟨rfl, rfl⟩ := Prod.mk.inj (Option.some.inj stepped)
        exact calm_refl w
  | abortPort r =>
      simp only [callStep] at stepped
      split at stepped
      · obtain ⟨rfl, rfl⟩ := Prod.mk.inj (Option.some.inj stepped)
        exact calm_refl w
      · split at stepped
        · obtain ⟨rfl, rfl⟩ := Prod.mk.inj (Option.some.inj stepped)
          exact calm_unit _ _ rfl rfl rfl (fun c => by cases c <;> rfl) rfl
        · obtain ⟨rfl, rfl⟩ := Prod.mk.inj (Option.some.inj stepped)
          exact calm_refl w
  | abortReply r =>
      obtain ⟨rfl, rfl⟩ := Prod.mk.inj (Option.some.inj stepped)
      exact calm_unit _ _ rfl rfl rfl (fun _ => rfl) rfl

def taken (w : World) : TaskPc → List Moment
  | .received r => [.command (w.reqs r).command]
  | _ => []

/-- The unit task is about to change `online`. -/
def TaskPc.turns : TaskPc → Bool
  | handling _ (.setOnline _ :: _) _ => true
  | _ => false

theorem turns_handling (pc : TaskPc) (turns : pc.turns = true) :
    ∃ r online ops fin, pc = .handling r (.setOnline online :: ops) fin := by
  cases pc with
  | handling r ops fin =>
      cases ops with
      | nil => cases turns
      | cons op ops =>
          cases op with
          | setOnline online => exact ⟨r, online, ops, fin, rfl⟩
          | _ => cases turns
  | _ => cases turns

theorem runOp_calm (ch : Channels) (e : TaskEnv) (w : World) (op : TaskOp)
    (unchanged : ∀ online, op ≠ .setOnline online) : Calm w (runOp ch e w op) := by
  cases op with
  | setOnline online => exact absurd rfl (unchanged online)
  | postRxBuffers => exact calm_unit _ _ rfl rfl rfl (fun c => by cases c <;> rfl) rfl
  | flushReadQueue error => exact flushReadQueue_calm error w
  | signalEvent mask => exact sweepEvents_calm _ _ _ w

theorem offer_calm (w : World) (v : RxLoop) (g : RxGroup) (f : RxFrame) :
    Calm w (offerFrame w v g f).1 := by
  simp only [offerFrame]
  split
  · rename_i pr rest taken
    have head := takeReader_read _ _ _ _ _ taken
    refine ⟨PA6TEthUnit.setReadList_online _ _ _, rfl, rfl, fun c empty => ?_, ?_⟩
    · rw [PA6TEthUnit.readList_setReadList]
      split
      · rename_i here
        rw [← here, empty] at head
        cases head
      · cases c <;> exact empty
    · rw [PA6TEthUnit.setReadList_eventList]
      exact fun _ member => member
  · rename_i r rest taken
    obtain ⟨_, rfl⟩ := takeReader_orphan _ _ _ _ _ taken
    exact ⟨rfl, rfl, rfl, fun c empty => by cases c <;> exact empty, List.eraseP_subset⟩
  · exact calm_unit _ _ rfl rfl rfl (fun c => by cases c <;> rfl) rfl

theorem task_calm (ch : Channels) (e : TaskEnv) (w v : World) (pc next : TaskPc)
    (unturned : pc.turns = false) (stepped : taskStep ch e w pc = some (v, next)) :
    Calm { w with history := taken w pc ++ w.history } v := by
  cases pc with
  | loopHead =>
      obtain ⟨rfl, rfl⟩ := Prod.mk.inj (Option.some.inj stepped)
      exact calm_refl w
  | waiting =>
      simp only [taskStep] at stepped
      split at stepped
      · obtain ⟨rfl, rfl⟩ := Prod.mk.inj (Option.some.inj stepped)
        exact calm_unit _ _ rfl rfl rfl (fun _ => rfl) rfl
      · cases stepped
  | woken =>
      obtain ⟨rfl, rfl⟩ := Prod.mk.inj (Option.some.inj stepped)
      exact calm_unit _ _ rfl rfl rfl (fun _ => rfl) rfl
  | draining | exitDrain =>
      simp only [taskStep] at stepped
      split at stepped
      · cases stepped
      · obtain ⟨rfl, rfl⟩ := Prod.mk.inj (Option.some.inj stepped)
        exact calm_refl w
      · obtain ⟨rfl, rfl⟩ := Prod.mk.inj (Option.some.inj stepped)
        exact calm_unit _ _ rfl rfl rfl (fun c => by cases c <;> rfl) rfl
  | received r =>
      obtain ⟨rfl, rfl⟩ := Prod.mk.inj (Option.some.inj stepped)
      exact calm_unit _ _ rfl rfl rfl (fun _ => rfl) rfl
  | handling r ops fin =>
      cases ops with
      | nil =>
          obtain ⟨rfl, rfl⟩ := Prod.mk.inj (Option.some.inj stepped)
          exact calm_unit _ _ rfl rfl rfl (fun _ => rfl) rfl
      | cons op ops =>
          obtain ⟨rfl, rfl⟩ := Prod.mk.inj (Option.some.inj stepped)
          refine runOp_calm ch e w op fun online same => ?_
          rw [same] at unturned
          cases unturned
  | rxStart =>
      obtain ⟨rfl, rfl⟩ := Prod.mk.inj (Option.some.inj stepped)
      exact calm_refl w
  | rxLoop l =>
      obtain ⟨rfl, rfl⟩ := Prod.mk.inj (Option.some.inj stepped)
      split
      · exact calm_unit _ _ rfl rfl rfl (fun c => by cases c <;> rfl) rfl
      · split
        · exact calm_unit _ _ rfl rfl rfl (fun c => by cases c <;> rfl) rfl
        · exact offer_calm w l _ _
  | rxDeliver l g f r orphan =>
      obtain ⟨rfl, rfl⟩ := Prod.mk.inj (Option.some.inj stepped)
      exact calm_unit _ _ rfl rfl rfl (fun _ => rfl) rfl
  | rxNext l g =>
      obtain ⟨rfl, rfl⟩ := Prod.mk.inj (Option.some.inj stepped)
      exact calm_unit _ _ rfl rfl rfl (fun c => by cases c <;> rfl) rfl
  | exitReply r =>
      obtain ⟨rfl, rfl⟩ := Prod.mk.inj (Option.some.inj stepped)
      exact calm_unit _ _ rfl rfl rfl (fun _ => rfl) rfl
  | exitFlush =>
      obtain ⟨rfl, rfl⟩ := Prod.mk.inj (Option.some.inj stepped)
      exact flushReadQueue_calm .aborted w
  | exitFlushEvents =>
      obtain ⟨rfl, rfl⟩ := Prod.mk.inj (Option.some.inj stepped)
      exact sweepEvents_calm _ _ _ w
  | drained => cases stepped

theorem call_online (ch : Channels) (e : CallEnv) (w v : World) (c : Call) (next : Option Call)
    (stepped : callStep ch e w c = some (v, next)) :
    v.unit.online = w.unit.online ∧ v.history = w.history := by
  cases links : c.links with
  | false =>
      have calm := call_calm ch e w v c next links stepped
      exact ⟨calm.online, calm.history⟩
  | true =>
      cases c with
      | addingRead pr c =>
          obtain ⟨rfl, rfl⟩ := Prod.mk.inj (Option.some.inj stepped)
          exact ⟨PA6TEthUnit.setReadList_online _ _ _, rfl⟩
      | addingEvent r =>
          obtain ⟨rfl, rfl⟩ := Prod.mk.inj (Option.some.inj stepped)
          exact ⟨rfl, rfl⟩
      | _ => cases links

theorem rxBody_handles (ch : Channels) (w : World) (l : RxLoop) (r : ReqId) (ops : List TaskOp)
    (fin : Finish) : (rxBody ch w l).2 ≠ .handling r ops fin := by
  simp only [rxBody]
  split
  · exact TaskPc.noConfusion
  · split
    · exact TaskPc.noConfusion
    · simp only [offerFrame]
      split <;> exact TaskPc.noConfusion

theorem handling_step (ch : Channels) (e : TaskEnv) (w v : World) (pc : TaskPc) (r : ReqId)
    (ops : List TaskOp) (fin : Finish)
    (stepped : taskStep ch e w pc = some (v, .handling r ops fin)) :
    pc = .received r ∧ ops = (commandOps w.unit.online (w.reqs r).command).1 ∨
      ∃ op, pc = .handling r (op :: ops) fin := by
  cases pc with
  | received r' =>
      simp only [taskStep, Option.some.injEq, Prod.mk.injEq, TaskPc.handling.injEq] at stepped
      obtain ⟨_, rfl, rfl, _⟩ := stepped
      exact .inl ⟨rfl, rfl⟩
  | handling r' before fin' =>
      cases before with
      | nil => simp [taskStep] at stepped
      | cons op rest =>
          simp only [taskStep, Option.some.injEq, Prod.mk.injEq, TaskPc.handling.injEq] at stepped
          obtain ⟨_, rfl, rfl, rfl⟩ := stepped
          exact .inr ⟨op, rfl⟩
  | rxLoop l =>
      have next := (Prod.mk.inj (Option.some.inj stepped)).2
      exact absurd next (rxBody_handles ch w l r ops fin)
  | _ =>
      simp only [taskStep] at stepped
      repeat' split at stepped
      all_goals cases stepped

theorem unitTaskStart_calm (w : World) (outcome : StartOutcome) :
    Calm w (w.unitTaskStart outcome) := by
  cases outcome <;> exact calm_unit _ _ rfl rfl rfl (fun c => by cases c <;> rfl) rfl

theorem close_calm (w : World) (bmCookie : Addr) : Calm w (w.close bmCookie) := by
  simp only [close, unitTaskShutdown]
  split_ifs <;> exact calm_unit _ _ rfl rfl rfl (fun c => by cases c <;> rfl) rfl

end Pa6tEth

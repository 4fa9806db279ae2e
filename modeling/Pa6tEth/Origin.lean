import Pa6tEth.Wakeup

/-! The two moments of a delivery, found again from the request: when the frame was taken for it,
and when it was replied. -/

namespace Pa6tEth

open Support World

/-- The bytes that the engine left in buffer `b`. -/
def frameBytes (w : World) (b : Nat) : Nat → UInt8 := fun k => w.mem (w.unit.rx.rxBufs b + k)

def frameType (bytes : Nat → UInt8) : BitVec 16 :=
  ((bytes 12).toBitVec.setWidth 16 <<< 8) ||| (bytes 13).toBitVec.setWidth 16

/-- The request that a frame of this type is for, and whether it is an orphan read: the first of
its read list, or else the first orphan read of the event list. -/
def matchingRead (w : World) (etherType : BitVec 16) : Option (ReqId × Bool) :=
  match w.unit.readList (readClass etherType) with
  | pr :: _ => some (pr.ioreq, false)
  | [] => (w.unit.eventList.find? fun r => (w.reqs r).command == .readOrphan).map fun r => (r, true)

/-- A pass over the ring is at this group, which passes its checks; `f` is its frame, and the frame
is for request `r`. -/
structure Offered (v : RxLoop) (g : RxGroup) (f : RxFrame) (r : ReqId) (orphan : Bool)
    (x : Driver) : Prop where
  looping : .rxLoop v ∈ x.tasks
  fetched : fetchGroup x.world.unit.rx v.n = some g
  checked : ∃ len, checkGroup x.world.unit.rx g = .ok len ∧
    f = frameOf x.world.mem x.world.unit.rx g len
  matching : matchingRead x.world f.etherType = some (r, orphan)

/-- A unit task is at the reply of this delivery, and the hook answers `hookOk`. -/
structure Delivered (v : RxLoop) (g : RxGroup) (r : ReqId) (asked done : IOSana2Req) (d : Delivery)
    (hookOk : Bool) (y : Driver) : Prop where
  delivering : .rxDeliver v g d.frame r d.orphan ∈ y.tasks
  asked : y.world.asked r = asked
  made : deliver d.orphan hookOk y.world.unit y.world.mem r d.frame (y.world.reqs r) = (done, d)

theorem takeReader_matching (w : World) (etherType : BitVec 16) :
    matchingRead w etherType = match takeReader w.reqs w.unit etherType with
      | .read pr _ => some (pr.ioreq, false)
      | .orphan r _ => some (r, true)
      | .nobody => none := by
  simp only [matchingRead, takeReader]
  cases w.unit.readList (readClass etherType) with
  | cons pr rest => rfl
  | nil =>
      simp only
      cases w.unit.eventList.find? fun r => (w.reqs r).command == .readOrphan <;> rfl

theorem offer_delivers (w : World) (v l : RxLoop) (g g' : RxGroup) (f f' : RxFrame) (r : ReqId)
    (orphan : Bool) (next : (offerFrame w v g f).2 = .rxDeliver l g' f' r orphan) :
    v = l ∧ g = g' ∧ f = f' ∧ matchingRead w f.etherType = some (r, orphan) := by
  have matching := takeReader_matching w f.etherType
  simp only [offerFrame] at next
  split at next
  · rename_i pr rest taken
    obtain ⟨rfl, rfl, rfl, rfl, rfl⟩ := TaskPc.rxDeliver.inj next
    rw [taken] at matching
    exact ⟨rfl, rfl, rfl, matching⟩
  · rename_i r' rest taken
    obtain ⟨rfl, rfl, rfl, rfl, rfl⟩ := TaskPc.rxDeliver.inj next
    rw [taken] at matching
    exact ⟨rfl, rfl, rfl, matching⟩
  · cases next

theorem body_delivers (ch : Channels) (w : World) (v l : RxLoop) (g : RxGroup) (f : RxFrame)
    (r : ReqId) (orphan : Bool) (next : (rxBody ch w v).2 = .rxDeliver l g f r orphan) :
    v = l ∧ fetchGroup w.unit.rx v.n = some g ∧
      (∃ len, checkGroup w.unit.rx g = .ok len ∧ f = frameOf w.mem w.unit.rx g len) ∧
      matchingRead w f.etherType = some (r, orphan) := by
  simp only [rxBody] at next
  split at next
  · cases next
  · rename_i g' fetched
    split at next
    · cases next
    · rename_i len valid
      obtain ⟨rfl, rfl, rfl, matching⟩ := offer_delivers w v l g' g _ f r orphan next
      exact ⟨rfl, fetched, ⟨len, valid, rfl⟩, matching⟩

theorem task_delivers (ch : Channels) (e : TaskEnv) (w x : World) (pc : TaskPc) (l : RxLoop)
    (g : RxGroup) (f : RxFrame) (r : ReqId) (orphan : Bool)
    (stepped : taskStep ch e w pc = some (x, .rxDeliver l g f r orphan)) :
    pc = .rxLoop l ∧ fetchGroup w.unit.rx l.n = some g ∧
      (∃ len, checkGroup w.unit.rx g = .ok len ∧ f = frameOf w.mem w.unit.rx g len) ∧
      matchingRead w f.etherType = some (r, orphan) := by
  cases pc with
  | rxLoop v =>
      have next : (rxBody ch w v).2 = .rxDeliver l g f r orphan :=
        congrArg Prod.snd (Option.some.inj stepped)
      obtain ⟨rfl, fetched, checked, matching⟩ := body_delivers ch w v l g f r orphan next
      exact ⟨rfl, fetched, checked, matching⟩
  | handling r ops fin =>
      cases ops <;> obtain ⟨_, next⟩ := Prod.mk.inj (Option.some.inj stepped) <;> cases next
  | loopHead | woken | rxStart =>
      obtain ⟨_, next⟩ := Prod.mk.inj (Option.some.inj stepped)
      split at next <;> cases next
  | waiting =>
      simp only [taskStep] at stepped
      split at stepped <;> cases stepped
  | draining | exitDrain =>
      simp only [taskStep] at stepped
      split at stepped <;> cases stepped
  | drained => cases stepped
  | _ =>
      obtain ⟨_, next⟩ := Prod.mk.inj (Option.some.inj stepped)
      cases next

theorem delivering_offered (ch : Channels) (s : Driver) (reached : (unitMachine ch).Reached s)
    (v : RxLoop) (g : RxGroup) (f : RxFrame) (r : ReqId) (orphan : Bool)
    (delivering : .rxDeliver v g f r orphan ∈ s.tasks) :
    (unitMachine ch).Past (Offered v g f r orphan) s := by
  let place : Driver → TaskPc → Prop := fun s pc =>
    ∀ v g f r orphan, pc = .rxDeliver v g f r orphan →
      (unitMachine ch).Past (Offered v g f r orphan) s
  have all := tasks_within ch place (by rintro s v g f r orphan ⟨⟩) ?_ ?_ s reached
  · exact all _ delivering v g f r orphan rfl
  · intro s t a pc stepped held v g f r orphan here
    exact (unitMachine ch).past_step _ s t a (held v g f r orphan here) stepped
  · rintro s t i e pc x next before _ present ran stepped v g f r orphan rfl
    obtain ⟨rfl, fetched, checked, matching⟩ := task_delivers ch e s.world x pc v g f r orphan ran
    refine (unitMachine ch).past_step _ s t (.task i e) ?_ stepped
    exact (unitMachine ch).past_here _ s before
      ⟨List.mem_of_getElem? present, fetched, checked, matching⟩

def Answer.byRX : Answer → Bool
  | .replied (.processRX _) _ _ => true
  | _ => false

def rxAnswers (w : World) : List (ReqId × Answer) := w.answers.filter fun a => a.2.byRX

theorem rxAnswers_replyMsg (w : World) (r : ReqId) (q : IOSana2Req) (via : Via)
    (other : ∀ d, via ≠ .processRX d) : rxAnswers (w.replyMsg r q via) = rxAnswers w := by
  cases via with
  | processRX d => exact absurd rfl (other d)
  | _ => rfl

theorem rxAnswers_sweepEvents (picked : IOSana2Req → Bool) (answer : IOSana2Req → IOSana2Req)
    (via : Via) (w : World) (other : ∀ d, via ≠ .processRX d) :
    rxAnswers (sweepEvents picked answer via w) = rxAnswers w :=
  sweep_frame rxAnswers picked answer via w.unit.eventList w fun w r =>
    rxAnswers_replyMsg w r _ via other

theorem rxAnswers_flushReadQueue (error : IoError) (w : World) :
    rxAnswers (w.flushReadQueue error) = rxAnswers w := by
  have read : ∀ c w, rxAnswers (flushRead error c w) = rxAnswers w := fun c w =>
    flushReadList_frame rxAnswers error (w.unit.readList c) w fun w pr =>
      rxAnswers_replyMsg { w with freed := pr.node :: w.freed } pr.ioreq _ .flush (by simp)
  calc
    rxAnswers (w.flushReadQueue error) =
        rxAnswers (flushRead error .other (flushRead error .arp (flushRead error .ipv4 w))) :=
      rxAnswers_sweepEvents _ _ _ _ (by simp)
    _ = rxAnswers (flushRead error .arp (flushRead error .ipv4 w)) := read _ _
    _ = rxAnswers (flushRead error .ipv4 w) := read _ _
    _ = rxAnswers w := read _ _

theorem call_rxAnswers (ch : Channels) (e : CallEnv) (w v : World) (c : Call) (next : Option Call)
    (stepped : callStep ch e w c = some (v, next)) : rxAnswers v = rxAnswers w := by
  cases c with
  | beginIo r =>
      obtain ⟨rfl, rfl⟩ := Prod.mk.inj (Option.some.inj stepped)
      obtain ⟨q, openers, reports, same⟩ := beginIo_frame e w r
      rw [same]
      rfl
  | replying r err werr sent =>
      obtain ⟨rfl, rfl⟩ := Prod.mk.inj (Option.some.inj stepped)
      simp only [replyIoreq]
      split
      · rfl
      · exact rxAnswers_replyMsg w r _ _ (by simp)
  | queueing r =>
      obtain ⟨w', put, same⟩ := Option.map_eq_some_iff.mp stepped
      obtain ⟨rfl, rfl⟩ := Prod.mk.inj same
      obtain ⟨port, _, rfl⟩ := Option.map_eq_some_iff.mp put
      rfl
  | abortReply r =>
      obtain ⟨rfl, rfl⟩ := Prod.mk.inj (Option.some.inj stepped)
      exact rxAnswers_replyMsg w r _ _ (by simp)
  | _ =>
      simp only [callStep] at stepped
      repeat' split at stepped
      all_goals
        obtain ⟨rfl, rfl⟩ := Prod.mk.inj (Option.some.inj stepped)
        rfl

theorem offer_answers (w : World) (v : RxLoop) (g : RxGroup) (f : RxFrame) :
    (offerFrame w v g f).1.answers = w.answers := by
  simp only [offerFrame]
  split <;> rfl

theorem body_answers (ch : Channels) (w : World) (v : RxLoop) :
    (rxBody ch w v).1.answers = w.answers := by
  simp only [rxBody]
  split
  · rfl
  · split
    · rfl
    · exact offer_answers w v _ _

theorem task_rxAnswers (ch : Channels) (e : TaskEnv) (w v : World) (pc next : TaskPc)
    (stepped : taskStep ch e w pc = some (v, next)) :
    rxAnswers v = rxAnswers w ∨
      ∃ l g f r orphan, pc = .rxDeliver l g f r orphan ∧
        rxAnswers v = (r, .replied
          (.processRX (deliver orphan e.hookOk w.unit w.mem r f (w.reqs r)).2) (w.asked r)
          (deliver orphan e.hookOk w.unit w.mem r f (w.reqs r)).1) :: rxAnswers w := by
  cases pc with
  | handling r ops fin =>
      left
      cases ops with
      | nil =>
          obtain ⟨rfl, _⟩ := Prod.mk.inj (Option.some.inj stepped)
          exact rxAnswers_replyMsg w r _ _ (by simp)
      | cons op ops =>
          obtain ⟨rfl, _⟩ := Prod.mk.inj (Option.some.inj stepped)
          cases op with
          | flushReadQueue error => exact rxAnswers_flushReadQueue error w
          | signalEvent mask => exact rxAnswers_sweepEvents _ _ _ w (by simp)
          | _ => rfl
  | rxLoop l =>
      left
      obtain ⟨rfl, _⟩ := Prod.mk.inj (Option.some.inj stepped)
      exact congrArg (List.filter fun a => a.2.byRX) (body_answers ch w l)
  | rxDeliver l g f r orphan =>
      right
      obtain ⟨rfl, _⟩ := Prod.mk.inj (Option.some.inj stepped)
      exact ⟨l, g, f, r, orphan, rfl, rfl⟩
  | exitReply r =>
      left
      obtain ⟨rfl, _⟩ := Prod.mk.inj (Option.some.inj stepped)
      exact rxAnswers_replyMsg w r _ _ (by simp)
  | exitFlush =>
      left
      obtain ⟨rfl, _⟩ := Prod.mk.inj (Option.some.inj stepped)
      exact rxAnswers_flushReadQueue .aborted w
  | exitFlushEvents =>
      left
      obtain ⟨rfl, _⟩ := Prod.mk.inj (Option.some.inj stepped)
      exact rxAnswers_sweepEvents _ _ _ w (by simp)
  | drained => cases stepped
  | _ =>
      left
      simp only [taskStep] at stepped
      repeat' split at stepped
      all_goals first
        | (obtain ⟨rfl, _⟩ := Prod.mk.inj (Option.some.inj stepped)
           rfl)
        | cases stepped

theorem step_delivered (ch : Channels) (s t : Driver) (a : Action) (r : ReqId) (d : Delivery)
    (asked done : IOSana2Req) (stepped : driverStep ch s a = some t)
    (answered : (r, .replied (.processRX d) asked done) ∈ rxAnswers t.world) :
    (r, .replied (.processRX d) asked done) ∈ rxAnswers s.world ∨
      ∃ v g hookOk, Delivered v g r asked done d hookOk s := by
  have same : t.world.answers = s.world.answers →
      (r, .replied (.processRX d) asked done) ∈ rxAnswers s.world := by
    intro answers
    rw [rxAnswers, answers] at answered
    exact answered
  cases a with
  | submit r' q =>
      obtain ⟨_, rfl⟩ := submit_step ch s t r' q stepped
      exact .inl answered
  | call i e =>
      obtain ⟨c, w, next, _, moved, rfl⟩ := call_step ch s t i e stepped
      rw [call_rxAnswers ch e s.world w c next moved] at answered
      exact .inl answered
  | task i e =>
      obtain ⟨pc, w, next, present, moved, rfl⟩ := task_step ch s t i e stepped
      rcases task_rxAnswers ch e s.world w pc next moved with quiet | ⟨v, g, f, r', orphan, rfl, made⟩
      · rw [quiet] at answered
        exact .inl answered
      · rw [made] at answered
        rcases List.mem_cons.mp answered with new | old
        · obtain ⟨shape, frame, _⟩ := deliver_shape orphan e.hookOk s.world.unit s.world.mem r' f
            (s.world.reqs r')
          obtain ⟨rfl, answer⟩ := Prod.mk.inj new
          obtain ⟨via, rfl, rfl⟩ := Answer.replied.inj answer
          obtain rfl := Via.processRX.inj via
          refine .inr ⟨v, g, e.hookOk, ?_, rfl, ?_⟩
          · rw [shape, frame]
            exact List.mem_of_getElem? present
          · rw [shape, frame]
        · exact .inl old
  | openDevice bmCookie allocated outcome =>
      left
      rcases open_step ch s t bmCookie allocated outcome stepped with
        rfl | ⟨_, rfl⟩ | ⟨_, _, rfl⟩ | ⟨_, _, rfl⟩
      · exact answered
      · exact answered
      · exact same (by cases outcome <;> rfl)
      · exact same (by cases outcome <;> rfl)
  | closeDevice bmCookie =>
      left
      obtain rfl := Option.some.inj stepped
      apply same
      simp only [close, unitTaskShutdown]
      split_ifs <;> rfl
  | teardown i =>
      obtain ⟨_, rfl⟩ := teardown_step ch s t i stepped
      exact .inl answered
  | _ =>
      obtain rfl := Option.some.inj stepped
      exact .inl answered

/-- For every answer of `ProcessRX` the run came through a state in which a unit task was at its
delivery, and before that through one in which the frame was taken for the request. -/
theorem answered_delivered (ch : Channels) (s : Driver) (reached : (unitMachine ch).Reached s)
    (r : ReqId) (d : Delivery) (asked done : IOSana2Req)
    (answered : (r, .replied (.processRX d) asked done) ∈ s.world.answers) :
    (unitMachine ch).Past (fun y => ∃ v g hookOk, Delivered v g r asked done d hookOk y ∧
      (unitMachine ch).Past (Offered v g d.frame r d.orphan) y) s := by
  have listed : (r, .replied (.processRX d) asked done) ∈ rxAnswers s.world :=
    List.mem_filter.mpr ⟨answered, rfl⟩
  clear answered
  revert listed
  refine (unitMachine ch).invariant_within
    (fun s => (r, .replied (.processRX d) asked done) ∈ rxAnswers s.world → _) ?_ ?_ s reached
  · intro s cold listed
    simp [rxAnswers, cold.answers] at listed
  · intro s a t before past stepped listed
    refine (unitMachine ch).past_step _ s t a ?_ stepped
    rcases step_delivered ch s t a r d asked done stepped listed with old | ⟨v, g, hookOk, made⟩
    · exact past old
    · exact (unitMachine ch).past_here _ s before ⟨v, g, hookOk, made,
        delivering_offered ch s before v g d.frame r d.orphan made.delivering⟩

theorem task_rxBufs (ch : Channels) (e : TaskEnv) (w v : World) (pc next : TaskPc) (b : Nat)
    (there : w.unit.rx.rxBufs b ≠ 0) (stepped : taskStep ch e w pc = some (v, next)) :
    v.unit.rx.rxBufs b = w.unit.rx.rxBufs b := by
  have still : Still w v → v.unit.rx.rxBufs b = w.unit.rx.rxBufs b := fun still =>
    congrFun (congrArg UnitRx.rxBufs still.1) b
  cases pc with
  | handling r ops fin =>
      cases ops with
      | nil =>
          obtain ⟨rfl, _⟩ := Prod.mk.inj (Option.some.inj stepped)
          rfl
      | cons op ops =>
          obtain ⟨rfl, _⟩ := Prod.mk.inj (Option.some.inj stepped)
          by_cases arms : op = .postRxBuffers
          · subst arms
            exact postRxBuffers_kept ch e.arm w.unit.rx b there
          · exact still (runOp_still ch e w op arms)
  | rxLoop l =>
      obtain ⟨rfl, _⟩ := Prod.mk.inj (Option.some.inj stepped)
      split
      · rfl
      · split
        · rfl
        · exact congrFun (congrArg UnitRx.rxBufs (offer_still w l _ _).1) b
  | rxNext l g =>
      obtain ⟨rfl, _⟩ := Prod.mk.inj (Option.some.inj stepped)
      exact congrFun (nextDesc_rxBufs w.unit.rx l g).1 b
  | exitFlush =>
      obtain ⟨rfl, _⟩ := Prod.mk.inj (Option.some.inj stepped)
      exact still (flushReadQueue_still .aborted w)
  | exitFlushEvents =>
      obtain ⟨rfl, _⟩ := Prod.mk.inj (Option.some.inj stepped)
      exact still (sweepEvents_still _ _ _ w)
  | drained => cases stepped
  | _ =>
      simp only [taskStep] at stepped
      repeat' split at stepped
      all_goals first
        | (obtain ⟨rfl, _⟩ := Prod.mk.inj (Option.some.inj stepped)
           rfl)
        | cases stepped

theorem driver_rxBufs (ch : Channels) (s t : Driver) (a : Action) (b : Nat)
    (there : s.world.unit.rx.rxBufs b ≠ 0) (stepped : driverStep ch s a = some t) :
    t.world.unit.rx.rxBufs b = s.world.unit.rx.rxBufs b := by
  have same : t.world.unit.rx = s.world.unit.rx →
      t.world.unit.rx.rxBufs b = s.world.unit.rx.rxBufs b := fun same => by rw [same]
  cases a with
  | submit r q =>
      obtain ⟨_, rfl⟩ := submit_step ch s t r q stepped
      rfl
  | call i e =>
      obtain ⟨c, w, next, _, moved, rfl⟩ := call_step ch s t i e stepped
      exact congrFun (congrArg UnitRx.rxBufs (call_apart ch e s.world w c next moved).1.rx) b
  | task i e =>
      obtain ⟨pc, w, next, _, moved, rfl⟩ := task_step ch s t i e stepped
      exact task_rxBufs ch e s.world w pc next b there moved
  | openDevice bmCookie allocated outcome =>
      rcases open_step ch s t bmCookie allocated outcome stepped with
        rfl | ⟨_, rfl⟩ | ⟨_, _, rfl⟩ | ⟨_, _, rfl⟩
      · rfl
      · rfl
      · exact same (by cases outcome <;> rfl)
      · exact same (by cases outcome <;> rfl)
  | closeDevice bmCookie =>
      obtain rfl := Option.some.inj stepped
      apply same
      simp only [close, unitTaskShutdown]
      split_ifs <;> rfl
  | teardown i =>
      obtain ⟨_, rfl⟩ := teardown_step ch s t i stepped
      rfl
  | _ =>
      obtain rfl := Option.some.inj stepped
      rfl

theorem run_rxBufs (ch : Channels) (s t : Driver) (actions : List Action) (b : Nat)
    (there : s.world.unit.rx.rxBufs b ≠ 0) (ran : (unitMachine ch).run s actions = some t) :
    t.world.unit.rx.rxBufs b = s.world.unit.rx.rxBufs b := by
  refine (unitMachine ch).run_invariant
    (fun u => u.world.unit.rx.rxBufs b = s.world.unit.rx.rxBufs b) (fun _ => True) ?_ s t actions
    (fun _ _ => trivial) rfl ran
  intro u a v same _ stepped
  calc
    v.world.unit.rx.rxBufs b = u.world.unit.rx.rxBufs b :=
      driver_rxBufs ch u v a b (same.symm ▸ there) stepped
    _ = s.world.unit.rx.rxBufs b := same

end Pa6tEth

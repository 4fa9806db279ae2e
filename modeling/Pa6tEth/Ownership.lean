import Pa6tEth.Calls
import Pa6tEth.TxFailure
import Pa6tEth.Support.History

/-! A completed request stays as it was completed until its client submits it again. -/

namespace Pa6tEth

open Support World

/-- The second world has more answers than the first. A request that is among the new ones has the
record of its newest answer, and every other request has its old record. -/
def Answering (w v : World) : Prop :=
  ∃ new, v.answers = new ++ w.answers ∧
    ∀ r, v.reqs r = ((Support.history new r).head?.map Answer.completed).getD (w.reqs r)

theorem answering_same (w v : World) (answers : v.answers = w.answers) (reqs : v.reqs = w.reqs) :
    Answering w v := by
  refine ⟨[], answers, fun r => ?_⟩
  rw [reqs]
  rfl

theorem answering_refl (w : World) : Answering w w := answering_same w w rfl rfl

theorem answering_trans (w v x : World) (first : Answering w v) (second : Answering v x) :
    Answering w x := by
  obtain ⟨one, answers, reqs⟩ := first
  obtain ⟨two, answers', reqs'⟩ := second
  refine ⟨two ++ one, by rw [answers', answers, List.append_assoc], fun r => ?_⟩
  rw [reqs', reqs, history_append, List.head?_append]
  cases (Support.history two r).head? with
  | none => rfl
  | some a => rfl

theorem answering_one (w v : World) (r : ReqId) (answer : Answer)
    (answers : v.answers = (r, answer) :: w.answers)
    (reqs : v.reqs = Function.update w.reqs r answer.completed) : Answering w v := by
  refine ⟨[(r, answer)], answers, fun x => ?_⟩
  rw [reqs]
  by_cases same : x = r
  · subst same
    have own : Support.history [(x, answer)] x = [answer] := history_tagged x [answer]
    rw [own, Function.update_self]
    rfl
  · have other : Support.history [(r, answer)] x = [] :=
      history_other x r [answer] fun back => same back.symm
    rw [other, Function.update_of_ne same]
    rfl

theorem answering_replyMsg (w : World) (r : ReqId) (q : IOSana2Req) (via : Via) :
    Answering w (w.replyMsg r q via) :=
  answering_one w _ r (.replied via (w.asked r) q) rfl rfl

theorem answering_replyIoreq (w : World) (r : ReqId) (err : IoError) (werr : BitVec 32) :
    Answering w (w.replyIoreq r err werr) := by
  simp only [replyIoreq]
  split
  · exact answering_one w _ r (.returned (w.asked r) _) rfl rfl
  · exact answering_replyMsg w r _ .beginIo

theorem answering_sweep (picked : IOSana2Req → Bool) (answer : IOSana2Req → IOSana2Req)
    (via : Via) (ids : List ReqId) (w : World) : Answering w (sweep picked answer via ids w).1 := by
  induction ids generalizing w with
  | nil => exact answering_refl w
  | cons r rest ih =>
      simp only [sweep]
      split
      · exact answering_trans w _ _ (answering_replyMsg w r _ via) (ih _)
      · exact ih w

theorem answering_sweepEvents (picked : IOSana2Req → Bool) (answer : IOSana2Req → IOSana2Req)
    (via : Via) (w : World) : Answering w (sweepEvents picked answer via w) :=
  answering_trans w _ _ (answering_sweep picked answer via w.unit.eventList w)
    (answering_same _ _ rfl rfl)

theorem answering_flushReadList (error : IoError) (list : List PendingRead) (w : World) :
    Answering w (flushReadList error list w) := by
  induction list generalizing w with
  | nil => exact answering_refl w
  | cons pr rest ih =>
      have freed : Answering w { w with freed := pr.node :: w.freed } := answering_same _ _ rfl rfl
      have replied := answering_replyMsg { w with freed := pr.node :: w.freed } pr.ioreq
        (flushed error (w.reqs pr.ioreq)) .flush
      exact answering_trans w _ _ freed (answering_trans _ _ _ replied (ih _))

theorem answering_flushRead (error : IoError) (c : ReadClass) (w : World) :
    Answering w (flushRead error c w) :=
  answering_trans w _ _ (answering_flushReadList error (w.unit.readList c) w)
    (answering_same _ _ rfl rfl)

theorem answering_flushReadQueue (error : IoError) (w : World) :
    Answering w (w.flushReadQueue error) := by
  have ipv4 := answering_flushRead error .ipv4 w
  have arp := answering_flushRead error .arp (flushRead error .ipv4 w)
  have other := answering_flushRead error .other (flushRead error .arp (flushRead error .ipv4 w))
  have orphans := answering_sweepEvents (fun q => q.command = .readOrphan) (flushed error) .flush
    (flushRead error .other (flushRead error .arp (flushRead error .ipv4 w)))
  exact answering_trans _ _ _ ipv4
    (answering_trans _ _ _ arp (answering_trans _ _ _ other orphans))

theorem call_answering (ch : Channels) (e : CallEnv) (w v : World) (c : Call) (next : Option Call)
    (stepped : callStep ch e w c = some (v, next)) : Answering w v ∨ v.answers = w.answers := by
  cases c with
  | beginIo r =>
      obtain ⟨rfl, rfl⟩ := Prod.mk.inj (Option.some.inj stepped)
      obtain ⟨q, openers, reports, same⟩ := beginIo_frame e w r
      right
      rw [same]
      rfl
  | replying r err werr sent =>
      obtain ⟨rfl, rfl⟩ := Prod.mk.inj (Option.some.inj stepped)
      exact .inl (answering_replyIoreq w r err werr)
  | queueing r =>
      obtain ⟨w', put, same⟩ := Option.map_eq_some_iff.mp stepped
      obtain ⟨rfl, rfl⟩ := Prod.mk.inj same
      obtain ⟨port, present, rfl⟩ := Option.map_eq_some_iff.mp put
      exact .inl (answering_same _ _ rfl rfl)
  | transmitting r =>
      simp only [callStep] at stepped
      right
      split at stepped <;> obtain ⟨rfl, rfl⟩ := Prod.mk.inj (Option.some.inj stepped) <;> rfl
  | abortReply r =>
      obtain ⟨rfl, rfl⟩ := Prod.mk.inj (Option.some.inj stepped)
      exact .inl (answering_replyMsg w r _ .abortIo)
  | _ =>
      simp only [callStep] at stepped
      repeat' split at stepped
      all_goals
        obtain ⟨rfl, rfl⟩ := Prod.mk.inj (Option.some.inj stepped)
        exact .inl (answering_same _ _ rfl rfl)

theorem runOp_answering (ch : Channels) (e : TaskEnv) (w : World) (op : TaskOp) :
    Answering w (runOp ch e w op) := by
  cases op with
  | setOnline online => exact answering_same _ _ rfl rfl
  | postRxBuffers => exact answering_same _ _ rfl rfl
  | flushReadQueue error => exact answering_flushReadQueue error w
  | signalEvent mask => exact answering_sweepEvents _ _ _ w

theorem rxBody_answering (ch : Channels) (w : World) (l : RxLoop) :
    Answering w (rxBody ch w l).1 := by
  simp only [rxBody]
  split
  · exact answering_same _ _ rfl rfl
  · split
    · exact answering_same _ _ rfl rfl
    · simp only [offerFrame]
      split <;> exact answering_same _ _ rfl rfl

theorem task_answering (ch : Channels) (e : TaskEnv) (w v : World) (pc next : TaskPc)
    (stepped : taskStep ch e w pc = some (v, next)) : Answering w v := by
  cases pc with
  | handling r ops fin =>
      cases ops with
      | nil =>
          obtain ⟨rfl, rfl⟩ := Prod.mk.inj (Option.some.inj stepped)
          exact answering_replyMsg w r _ .unitTask
      | cons op ops =>
          obtain ⟨rfl, rfl⟩ := Prod.mk.inj (Option.some.inj stepped)
          exact runOp_answering ch e w op
  | rxLoop l =>
      obtain ⟨rfl, rfl⟩ := Prod.mk.inj (Option.some.inj stepped)
      exact rxBody_answering ch w l
  | rxDeliver l g f r orphan =>
      obtain ⟨rfl, rfl⟩ := Prod.mk.inj (Option.some.inj stepped)
      exact answering_replyMsg w r _ _
  | exitReply r =>
      obtain ⟨rfl, rfl⟩ := Prod.mk.inj (Option.some.inj stepped)
      exact answering_replyMsg w r _ .exitDrain
  | exitFlush =>
      obtain ⟨rfl, rfl⟩ := Prod.mk.inj (Option.some.inj stepped)
      exact answering_flushReadQueue .aborted w
  | exitFlushEvents =>
      obtain ⟨rfl, rfl⟩ := Prod.mk.inj (Option.some.inj stepped)
      exact answering_sweepEvents _ _ _ w
  | drained => cases stepped
  | _ =>
      simp only [taskStep] at stepped
      repeat' split at stepped
      all_goals first
        | (obtain ⟨rfl, _⟩ := Prod.mk.inj (Option.some.inj stepped)
           exact answering_same _ _ rfl rfl)
        | cases stepped

/-- The record of every request that is not pending is that of its newest completion. -/
def StaysCompleted (s : Driver) : Prop :=
  ∀ r a, s.pending r = false → (Support.history s.world.answers r).head? = some a →
    s.world.reqs r = a.completed

theorem pending_same (s t : Driver) (r : ReqId) (new : List (ReqId × Answer))
    (submitted : t.world.submitted = s.world.submitted)
    (answers : t.world.answers = new ++ s.world.answers) (none : Support.history new r = []) :
    t.pending r = s.pending r := by
  have absent : (new.map Prod.fst).count r = 0 := by
    apply List.count_eq_zero_of_not_mem
    intro member
    obtain ⟨⟨r', a⟩, here, rfl⟩ := List.mem_map.mp member
    have listed := (history_mem new r' a).mpr here
    rw [none] at listed
    cases listed
  simp only [Driver.pending, submitted, answers, List.map_append, List.count_append, absent,
    Nat.zero_add]

theorem untouched_answering (s t : Driver) (held : StaysCompleted s)
    (submitted : t.world.submitted = s.world.submitted)
    (answering : Answering s.world t.world) : StaysCompleted t := by
  obtain ⟨new, answers, reqs⟩ := answering
  intro r a settled last
  rw [reqs]
  rw [answers, history_append, List.head?_append] at last
  cases newest : (Support.history new r).head? with
  | some b =>
      rw [newest] at last
      exact congrArg Answer.completed (Option.some.inj last)
  | none =>
      rw [newest] at last
      have same := pending_same s t r new submitted answers (List.head?_eq_none_iff.mp newest)
      exact held r a (same ▸ settled) last

/-- Whoever changes the record of a request without answering it has the request in its hands. -/
theorem untouched_handed (ch : Channels) (s t : Driver) (reached : (unitMachine ch).Reached t)
    (held : StaysCompleted s) (handed : Handed s t) (answers : t.world.answers = s.world.answers) :
    StaysCompleted t := by
  obtain ⟨new, items, asked, grown, record, _⟩ := handed
  have none : new = [] := by
    have longer : t.world.answers = new ++ s.world.answers := grown
    rw [answers] at longer
    exact List.self_eq_append_left.mp longer
  intro r a settled last
  have absent : r ∉ s.ledger.items := by
    intro member
    have here : r ∈ t.ledger.items := by
      have moved := items.mem_iff.mp member
      simpa only [none, List.map_nil, List.append_nil] using moved
    rw [placed_pending ch t reached r here] at settled
    cases settled
  have same : t.world.reqs r = s.world.reqs r := (Prod.mk.inj (record r absent)).2
  have submitted : t.world.submitted = s.world.submitted := asked
  have before := pending_same s t r [] submitted (by rw [answers]; rfl) rfl
  rw [same]
  exact held r a (before ▸ settled) (answers ▸ last)

theorem untouched_step (ch : Channels) (s t : Driver) (a : Action)
    (reached : (unitMachine ch).Reached s) (held : StaysCompleted s)
    (stepped : driverStep ch s a = some t) : StaysCompleted t := by
  have after : (unitMachine ch).Reached t := .step s a t reached stepped
  cases a with
  | submit r q =>
      obtain ⟨_, rfl⟩ := submit_step ch s t r q stepped
      intro x b settled last
      by_cases same : x = r
      · subst same
        have placed : x ∈ Ledger.items
            (Driver.ledger { s with
              world :=
                { s.world with
                  reqs := Function.update s.world.reqs x q
                  asked := Function.update s.world.asked x q
                  submitted := x :: s.world.submitted }
              calls := .beginIo x :: s.calls }) :=
          List.mem_map_of_mem (List.mem_cons_self (a := (x, Stage.called)))
        rw [placed_pending ch _ after x placed] at settled
        cases settled
      · have before : s.pending x = false := by
          have other : ¬ r = x := fun back => same back.symm
          simpa [Driver.pending, List.count_cons, other] using settled
        simp only [Function.update_of_ne same]
        exact held x b before last
  | call i e =>
      have handed := handed_call ch s t i e stepped
      obtain ⟨c, w, next, present, moved, rfl⟩ := call_step ch s t i e stepped
      rcases call_answering ch e s.world w c next moved with answering | answers
      · exact untouched_answering s _ held handed.choose_spec.2.1 answering
      · exact untouched_handed ch s _ after held handed answers
  | task i e =>
      have handed := handed_task ch s t i e stepped
      obtain ⟨pc, w, next, present, moved, rfl⟩ := task_step ch s t i e stepped
      exact untouched_answering s _ held handed.choose_spec.2.1
        (task_answering ch e s.world w pc next moved)
  | openDevice bmCookie allocated outcome =>
      obtain ⟨submitted, answers, _, reqs⟩ := started_fields s.world outcome
      rcases open_step ch s t bmCookie allocated outcome stepped with
        rfl | ⟨_, rfl⟩ | ⟨_, _, rfl⟩ | ⟨_, _, rfl⟩
      · exact held
      · exact untouched_answering s _ held rfl (answering_same _ _ rfl rfl)
      · exact untouched_answering s _ held submitted (answering_same _ _ answers reqs)
      · exact untouched_answering s _ held submitted (answering_same _ _ answers reqs)
  | closeDevice bmCookie =>
      obtain rfl := Option.some.inj stepped
      have same : (s.world.close bmCookie).submitted = s.world.submitted ∧
          (s.world.close bmCookie).answers = s.world.answers ∧
          (s.world.close bmCookie).reqs = s.world.reqs := by
        simp only [close, unitTaskShutdown]
        split_ifs <;> exact ⟨rfl, rfl, rfl⟩
      exact untouched_answering s _ held same.1 (answering_same _ _ same.2.1 same.2.2)
  | teardown i =>
      obtain ⟨_, rfl⟩ := teardown_step ch s t i stepped
      exact untouched_answering s _ held rfl (answering_same _ _ rfl rfl)
  | _ =>
      obtain rfl := Option.some.inj stepped
      exact untouched_answering s _ held rfl (answering_same _ _ rfl rfl)

/-- In every run, over all sessions, a request that is not pending is in no list, in no port and in
the hands of no call or unit task, and its record is the one that its newest completion sent,
whatever calls, unit tasks, flushes and closes came after it. -/
theorem completed_untouched (ch : Channels) (s : Driver) (reached : (unitMachine ch).Reached s)
    (r : ReqId) (settled : s.pending r = false) :
    r ∉ s.places.map Prod.fst ∧
      ∀ a, (Support.history s.world.answers r).head? = some a → s.world.reqs r = a.completed := by
  constructor
  · intro placed
    rw [placed_pending ch s reached r placed] at settled
    cases settled
  · have untouched : StaysCompleted s := by
      apply (unitMachine ch).invariant_within StaysCompleted
      · intro s cold r a _ last
        rw [cold.answers] at last
        cases last
      · intro s a t before held stepped
        exact untouched_step ch s t a before held stepped
      · exact reached
    exact fun a last => untouched r a settled last

/-- A configured interface, and then a read of the same client that is still queued. -/
theorem completed_untouched_config :
    ∃ s a, (unitMachine ⟨0, 0, 0⟩).Reached s ∧ s.pending 2 = true ∧
      (Support.history s.world.answers 1).head? = some a ∧ s.world.reqs 1 = a.completed := by
  obtain ⟨s, reached, shape⟩ := (unitMachine ⟨0, 0, 0⟩).run_shape
    (fun s => (s.pending 1, s.pending 2, (Support.history s.world.answers 1).length))
    (false, true, 1) coldDriver (sessionUp ++ submitted 2 (request .cmdRead 0x0800#32 0x500 0#32))
    (.start _ coldDriver_cold) (by decide +kernel)
  simp only [Prod.mk.injEq] at shape
  obtain ⟨settled, waiting, once⟩ := shape
  obtain ⟨_, untouched⟩ := completed_untouched ⟨0, 0, 0⟩ s reached 1 settled
  obtain ⟨a, one⟩ := List.length_eq_one_iff.mp once
  exact ⟨s, a, reached, waiting, by rw [one]; rfl, untouched a (by rw [one]; rfl)⟩

end Pa6tEth

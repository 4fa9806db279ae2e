import Pa6tEth.Conservation
import Pa6tEth.Origin

/-! What a read that `PA6TEth_ProcessRX` replies has received, and of which type. -/

namespace Pa6tEth

open Support World

/-- In every run a read that `ProcessRX` replies is right about its data exactly when the client
gave a cookie, its opener is there when the frame is delivered, and an orphan read finds a hook
installed. -/
theorem read_received_iff (ch : Channels) (s : Driver) (reached : (unitMachine ch).Reached s)
    (r : ReqId) (d : Delivery) (asked done : IOSana2Req)
    (answered : (r, .replied (.processRX d) asked done) ∈ s.world.answers) :
    (ReceivedData r asked done d ↔ Deliverable asked d) ∧
      (unitMachine ch).Past (fun y => d.openers = y.world.unit.openerList ∧
        ∃ v g, .rxDeliver v g d.frame r d.orphan ∈ y.tasks) s := by
  refine ⟨((kept_reached ch s reached).just _ answered).2.1, ?_⟩
  refine (unitMachine ch).past_mono _ _ s ?_ (answered_delivered ch s reached r d asked done answered)
  rintro y ⟨v, g, hookOk, made, _⟩
  refine ⟨?_, v, g, made.delivering⟩
  have openers := (deliver_shape d.orphan hookOk y.world.unit y.world.mem r d.frame
    (y.world.reqs r)).2.2
  rw [made.made] at openers
  exact openers

/-- The newest answer, if `ProcessRX` gave it. -/
def lastDelivery (s : Driver) : Option (ReqId × Delivery × IOSana2Req × IOSana2Req) :=
  match s.world.answers with
  | (r, .replied (.processRX d) asked done) :: _ => some (r, d, asked, done)
  | _ => none

theorem lastDelivery_answered (s : Driver) (r : ReqId) (d : Delivery) (asked done : IOSana2Req)
    (last : lastDelivery s = some (r, d, asked, done)) :
    (r, .replied (.processRX d) asked done) ∈ s.world.answers := by
  simp only [lastDelivery] at last
  split at last
  · rename_i answers
    obtain ⟨rfl, rfl, rfl, rfl⟩ : _ ∧ _ ∧ _ ∧ _ := by simpa using Option.some.inj last
    rw [answers]
    exact List.mem_cons_self
  · cases last

theorem delivery_reached {Shape : Type} (actions : List Action)
    (shape : ReqId × Delivery × IOSana2Req × IOSana2Req → Shape) (expected : Shape)
    (ran : (((unitMachine ⟨0, 0, 0⟩).run coldDriver actions).bind lastDelivery).map shape =
      some expected) :
    ∃ s r d asked done, (unitMachine ⟨0, 0, 0⟩).Reached s ∧
      (r, .replied (.processRX d) asked done) ∈ s.world.answers ∧
      shape (r, d, asked, done) = expected := by
  obtain ⟨⟨r, d, asked, done⟩, found, shaped⟩ := Option.map_eq_some_iff.mp ran
  obtain ⟨s, reaches, last⟩ := Option.bind_eq_some_iff.mp found
  exact ⟨s, r, d, asked, done,
    (unitMachine ⟨0, 0, 0⟩).run_reached _ _ _
      (.start _ coldDriver_cold) reaches,
    lastDelivery_answered s r d asked done last, shaped⟩

def readOnce (cookie : Addr) : List Action :=
  submitted 2 (request .cmdRead 0x0800#32 cookie 0#32) ++ frameArrives (0x08, 0x00) ++
    List.replicate 6 (.task 0 taskEnv)

/-- With a hook installed a read with a cookie receives its data. -/
theorem read_received_hooked :
    ∃ s r d asked done, (unitMachine ⟨0, 0, 0⟩).Reached s ∧
      (r, .replied (.processRX d) asked done) ∈ s.world.answers ∧ done.error = .ok ∧
      (ReceivedData r asked done d ↔ Deliverable asked d) ∧
      (unitMachine ⟨0, 0, 0⟩).Past (fun y => d.openers = y.world.unit.openerList ∧
        ∃ v g, .rxDeliver v g d.frame r d.orphan ∈ y.tasks) s := by
  obtain ⟨s, r, d, asked, done, reached, answered, ok⟩ := delivery_reached
    (sessionUp ++ submitted 3 (request .sana2Hook 0#32 0x600 0#32) ++ readOnce 0x500)
    (fun x => x.2.2.2.error) .ok (by decide +kernel)
  exact ⟨s, r, d, asked, done, reached, answered, ok,
    read_received_iff ⟨0, 0, 0⟩ s reached r d asked done answered⟩

/-- Without a cookie no hook is called, and the reply says that all is well. -/
theorem cookieless_read_unreceived :
    ∃ s r d asked done, (unitMachine ⟨0, 0, 0⟩).Reached s ∧
      (r, .replied (.processRX d) asked done) ∈ s.world.answers ∧
      ¬ ReceivedData r asked done d := by
  obtain ⟨s, r, d, asked, done, reached, answered, shape⟩ := delivery_reached
    (sessionUp ++ readOnce 0) (fun x => (x.2.1.hook, x.2.2.2.error)) (none, .ok)
    (by decide +kernel)
  obtain ⟨uncalled, ok⟩ := Prod.mk.inj shape
  refine ⟨s, r, d, asked, done, reached, answered, fun received => ?_⟩
  exact (uncalled_received r asked done d uncalled).mp received ok

theorem same_class_type (asked frame ty : BitVec 16) (same : readClass asked = readClass frame)
    (listed : ty = 0x0800#16 ∨ ty = 0x0806#16) : asked = ty ↔ frame = ty := by
  rcases listed with rfl | rfl
  · rw [← readClass_ipv4, ← readClass_ipv4, same]
  · rw [← readClass_arp, ← readClass_arp, same]

theorem offer_taken_by (w : World) (v : RxLoop) (g : RxGroup) (f : RxFrame) :
    (offerFrame w v g f).1.answers = w.answers ∧
    match w.unit.readList (readClass f.etherType) with
    | pr :: rest => (offerFrame w v g f).2 = .rxDeliver v g f pr.ioreq false ∧
        ∀ c, (offerFrame w v g f).1.unit.readList c =
          if c = readClass f.etherType then rest else w.unit.readList c
    | [] => (∀ c, (offerFrame w v g f).1.unit.readList c = w.unit.readList c) ∧
        match w.unit.eventList.find? fun r => (w.reqs r).command == .readOrphan with
        | some r => (offerFrame w v g f).2 = .rxDeliver v g f r true
        | none => (offerFrame w v g f).2 = .rxNext v g ∧
            (offerFrame w v g f).1.unit.rx.statRxDropped = w.unit.rx.statRxDropped + 1 := by
  refine ⟨offer_answers w v g f, ?_⟩
  cases list : w.unit.readList (readClass f.etherType) with
  | cons pr rest =>
      simp only [offerFrame, takeReader, list]
      refine ⟨trivial, fun c => ?_⟩
      rw [PA6TEthUnit.readList_setReadList]
      cases c <;> rfl
  | nil =>
      cases first : w.unit.eventList.find? fun r => (w.reqs r).command == .readOrphan with
      | some r =>
          simp only [offerFrame, takeReader, list, first]
          exact ⟨fun c => by cases c <;> rfl, trivial⟩
      | none =>
          simp only [offerFrame, takeReader, list, first]
          exact ⟨fun c => by cases c <;> rfl, trivial, rfl⟩

theorem call_reads (ch : Channels) (e : CallEnv) (w v : World) (c : Call) (next : Option Call)
    (list : ReadClass) (stepped : callStep ch e w c = some (v, next)) :
    (v.unit.readList list).Sublist (w.unit.readList list) ∨
      ∃ pr, c = .addingRead pr list ∧ v.unit.readList list = w.unit.readList list ++ [pr] := by
  cases c with
  | beginIo r =>
      left
      obtain ⟨rfl, rfl⟩ := Prod.mk.inj (Option.some.inj stepped)
      obtain ⟨q, openers, reports, same⟩ := beginIo_frame e w r
      rw [same]
      cases list <;> exact List.Sublist.refl _
  | replying r err werr sent =>
      left
      obtain ⟨rfl, rfl⟩ := Prod.mk.inj (Option.some.inj stepped)
      simp only [replyIoreq]
      split <;> exact List.Sublist.refl _
  | queueing r =>
      left
      obtain ⟨w', put, same⟩ := Option.map_eq_some_iff.mp stepped
      obtain ⟨rfl, rfl⟩ := Prod.mk.inj same
      obtain ⟨port, _, rfl⟩ := Option.map_eq_some_iff.mp put
      cases list <;> exact List.Sublist.refl _
  | addingRead pr c =>
      obtain ⟨rfl, rfl⟩ := Prod.mk.inj (Option.some.inj stepped)
      rw [PA6TEthUnit.readList_setReadList]
      split
      · rename_i here
        subst here
        exact .inr ⟨pr, rfl, rfl⟩
      · exact .inl (List.Sublist.refl _)
  | abortReads r =>
      left
      simp only [callStep] at stepped
      split at stepped <;> obtain ⟨rfl, rfl⟩ := Prod.mk.inj (Option.some.inj stepped)
      · exact List.Sublist.refl _
      · rw [PA6TEthUnit.readList_setReadList]
        split
        · rename_i here
          rw [here]
          exact List.eraseP_sublist
        · exact List.Sublist.refl _
  | _ =>
      left
      simp only [callStep] at stepped
      repeat' split at stepped
      all_goals
        obtain ⟨rfl, rfl⟩ := Prod.mk.inj (Option.some.inj stepped)
        cases list <;> exact List.Sublist.refl _

theorem flushReadQueue_sublist (error : IoError) (w : World) (list : ReadClass) :
    ((w.flushReadQueue error).unit.readList list).Sublist (w.unit.readList list) := by
  rw [flushReadQueue_reads]
  exact List.nil_sublist _

theorem offer_reads (w : World) (v : RxLoop) (g : RxGroup) (f : RxFrame) (list : ReadClass) :
    ((offerFrame w v g f).1.unit.readList list).Sublist (w.unit.readList list) := by
  obtain ⟨_, taken⟩ := offer_taken_by w v g f
  split at taken
  · rename_i pr rest head
    rw [taken.2 list]
    split
    · rename_i here
      rw [here, head]
      exact List.sublist_cons_self pr rest
    · exact List.Sublist.refl _
  · rw [taken.1 list]

theorem task_reads (ch : Channels) (e : TaskEnv) (w v : World) (pc next : TaskPc)
    (list : ReadClass) (stepped : taskStep ch e w pc = some (v, next)) :
    (v.unit.readList list).Sublist (w.unit.readList list) := by
  have sweeps : ∀ picked answer via, (sweepEvents picked answer via w).unit.readList list =
      w.unit.readList list := by
    intro picked answer via
    rw [sweepEvents_unit]
    cases list <;> rfl
  cases pc with
  | handling r ops fin =>
      cases ops with
      | nil =>
          obtain ⟨rfl, _⟩ := Prod.mk.inj (Option.some.inj stepped)
          exact List.Sublist.refl _
      | cons op ops =>
          obtain ⟨rfl, _⟩ := Prod.mk.inj (Option.some.inj stepped)
          cases op with
          | flushReadQueue error => exact flushReadQueue_sublist error w list
          | signalEvent mask =>
              simp only [runOp, signalEvent, sweeps]
              exact List.Sublist.refl _
          | _ => cases list <;> exact List.Sublist.refl _
  | rxLoop l =>
      obtain ⟨rfl, _⟩ := Prod.mk.inj (Option.some.inj stepped)
      split
      · cases list <;> exact List.Sublist.refl _
      · split
        · cases list <;> exact List.Sublist.refl _
        · exact offer_reads w l _ _ list
  | exitFlush =>
      obtain ⟨rfl, _⟩ := Prod.mk.inj (Option.some.inj stepped)
      exact flushReadQueue_sublist .aborted w list
  | exitFlushEvents =>
      obtain ⟨rfl, _⟩ := Prod.mk.inj (Option.some.inj stepped)
      simp only [flushRemaining, sweeps]
      exact List.Sublist.refl _
  | drained => cases stepped
  | _ =>
      simp only [taskStep] at stepped
      repeat' split at stepped
      all_goals first
        | (obtain ⟨rfl, _⟩ := Prod.mk.inj (Option.some.inj stepped)
           cases list <;> exact List.Sublist.refl _)
        | cases stepped

/-- What a step leaves of a read list, in its old order, and at the end what it added: a read of
that list's types, by `BeginIO`. -/
def KeepsOrder (s : Driver) (a : Action) (list : ReadClass) (after : List PendingRead) : Prop :=
  ∃ kept added, after = kept ++ added ∧ kept.Sublist (s.world.unit.readList list) ∧
    ∀ pr ∈ added, (∃ i e, a = .call i e ∧ s.calls[i]? = some (.addingRead pr list)) ∧
      readClass ((s.world.asked pr.ioreq).packetType.setWidth 16) = list

theorem keepsOrder_less (s : Driver) (a : Action) (list : ReadClass) (after : List PendingRead)
    (less : after.Sublist (s.world.unit.readList list)) : KeepsOrder s a list after :=
  ⟨after, [], (List.append_nil after).symm, less, List.forall_mem_nil _⟩

theorem driver_reads (ch : Channels) (s t : Driver) (reached : (unitMachine ch).Reached s)
    (a : Action) (list : ReadClass) (stepped : driverStep ch s a = some t) :
    KeepsOrder s a list (t.world.unit.readList list) := by
  have same : t.world.unit.readList list = s.world.unit.readList list →
      KeepsOrder s a list (t.world.unit.readList list) := fun same =>
    keepsOrder_less s a list _ (same ▸ List.Sublist.refl _)
  cases a with
  | submit r q =>
      obtain ⟨_, rfl⟩ := submit_step ch s t r q stepped
      exact same rfl
  | call i e =>
      obtain ⟨c, w, next, present, moved, rfl⟩ := call_step ch s t i e stepped
      rcases call_reads ch e s.world w c next list moved with less | ⟨pr, rfl, grown⟩
      · exact keepsOrder_less s _ list _ less
      · refine ⟨_, [pr], grown, List.Sublist.refl _, ?_⟩
        rintro pr' member
        obtain rfl := List.mem_singleton.mp member
        have held : (pr'.ioreq, Stage.reading list) ∈ s.ledger.places :=
          List.mem_append_left _
            (List.mem_flatMap.mpr ⟨_, List.mem_of_getElem? present, List.mem_singleton.mpr rfl⟩)
        exact ⟨⟨i, e, rfl, present⟩, ((kept_reached ch s reached).promised _ held).2.2.2.2.1⟩
  | task i e =>
      obtain ⟨pc, w, next, _, moved, rfl⟩ := task_step ch s t i e stepped
      exact keepsOrder_less s _ list _ (task_reads ch e s.world w pc next list moved)
  | dma ring mem =>
      obtain rfl := Option.some.inj stepped
      exact same (by cases list <;> rfl)
  | openDevice bmCookie allocated outcome =>
      rcases open_step ch s t bmCookie allocated outcome stepped with
        rfl | ⟨_, rfl⟩ | ⟨_, _, rfl⟩ | ⟨_, _, rfl⟩
      · exact same rfl
      · exact same (by cases list <;> rfl)
      · exact same (by cases outcome <;> cases list <;> rfl)
      · exact same (by cases outcome <;> cases list <;> rfl)
  | closeDevice bmCookie =>
      obtain rfl := Option.some.inj stepped
      apply same
      simp only [close, unitTaskShutdown]
      split_ifs <;> cases list <;> rfl
  | teardown i =>
      obtain ⟨_, rfl⟩ := teardown_step ch s t i stepped
      exact same (by cases list <;> rfl)
  | _ =>
      obtain rfl := Option.some.inj stepped
      exact same rfl

/-- The frame of a delivery to a `CMD_READ` was in the buffer of a group that was read from the
ring, and the request was at the head of the frame's read list then. -/
def TakenFirst (f : RxFrame) (r : ReqId) (x : Driver) : Prop :=
  ∃ v g pr rest, Offered v g f r false x ∧ f.etherType = frameType (frameBytes x.world g.actualBuf) ∧
    x.world.unit.readList (readClass f.etherType) = pr :: rest ∧ pr.ioreq = r

theorem offered_first (v : RxLoop) (g : RxGroup) (f : RxFrame) (r : ReqId) (x : Driver)
    (offered : Offered v g f r false x) : TakenFirst f r x := by
  have matching := offered.matching
  obtain ⟨len, _, frame⟩ := offered.checked
  simp only [matchingRead] at matching
  split at matching
  · rename_i pr rest head
    obtain ⟨same, _⟩ := Prod.mk.inj (Option.some.inj matching)
    exact ⟨v, g, pr, rest, offered, by rw [frame]; rfl, head, same⟩
  · obtain ⟨_, _, orphan⟩ := Option.map_eq_some_iff.mp matching
    cases (Prod.mk.inj orphan).2

/-- A `CMD_READ` gets frames of its read list only: of its own type when that is IPv4 or ARP. A
frame goes to the head of its list, and the reads of a list stay in the order in which they were
added; a frame whose list is empty is offered to the first orphan read, or else counted as
dropped. -/
theorem frames_by_class (ch : Channels) (s : Driver) (reached : (unitMachine ch).Reached s) :
    (∀ r d asked done, (r, .replied (.processRX d) asked done) ∈ s.world.answers →
      d.orphan = false →
      asked.command = .cmdRead ∧
        readClass (asked.packetType.setWidth 16) = readClass d.frame.etherType ∧
        (∀ ty, ty = 0x0800#16 ∨ ty = 0x0806#16 →
          (asked.packetType.setWidth 16 = ty ↔ d.frame.etherType = ty)) ∧
        (unitMachine ch).Past (TakenFirst d.frame r) s) ∧
    (∀ i e v g len, s.tasks[i]? = some (.rxLoop v) →
      fetchGroup s.world.unit.rx v.n = some g → checkGroup s.world.unit.rx g = .ok len →
      let f := frameOf s.world.mem s.world.unit.rx g len
      f.etherType = frameType (frameBytes s.world g.actualBuf) ∧
      ∃ t, driverStep ch s (.task i e) = some t ∧ t.world.answers = s.world.answers ∧
        match s.world.unit.readList (readClass f.etherType) with
        | pr :: rest => t.tasks[i]? = some (.rxDeliver v g f pr.ioreq false) ∧
            ∀ c, t.world.unit.readList c =
              if c = readClass f.etherType then rest else s.world.unit.readList c
        | [] => (∀ c, t.world.unit.readList c = s.world.unit.readList c) ∧
            match s.world.unit.eventList.find? fun r => (s.world.reqs r).command == .readOrphan with
            | some r => t.tasks[i]? = some (.rxDeliver v g f r true)
            | none => t.tasks[i]? = some (.rxNext v g) ∧
                t.world.unit.rx.statRxDropped = s.world.unit.rx.statRxDropped + 1) ∧
    (∀ a t c, driverStep ch s a = some t → KeepsOrder s a c (t.world.unit.readList c)) := by
  refine ⟨?_, ?_, fun a t c stepped => driver_reads ch s t reached a c stepped⟩
  · intro r d asked done answered read
    have kind := ((kept_reached ch s reached).just _ answered).2.2
    simp only [SameKind, read, Bool.false_eq_true, if_false] at kind
    refine ⟨kind.1, kind.2, fun ty listed => same_class_type _ _ ty kind.2 listed, ?_⟩
    have past := answered_delivered ch s reached r d asked done answered
    rw [read] at past
    apply (unitMachine ch).past_past _ s
    refine (unitMachine ch).past_mono _ _ s ?_ past
    rintro y ⟨v, g, _, _, taken⟩
    exact (unitMachine ch).past_mono _ _ y (offered_first v g d.frame r) taken
  · intro i e v g len here fetched valid f
    obtain ⟨answers, taken⟩ := offer_taken_by s.world v g f
    have ran : taskStep ch e s.world (.rxLoop v) = some (offerFrame s.world v g f) := by
      simp only [taskStep, rxBody, fetched, valid]
      rfl
    have place : (s.tasks.set i (offerFrame s.world v g f).2)[i]? =
        some (offerFrame s.world v g f).2 := by
      rw [List.getElem?_set_self]
      exact (List.getElem?_eq_some_iff.mp here).1
    refine ⟨rfl, _, by simp only [driverStep, here, ran]; rfl, answers, ?_⟩
    simp only [place, Option.some.injEq]
    exact taken

/-- An ARP frame for an ARP read. -/
theorem frames_by_class_arp :
    ∃ s r d asked done, (unitMachine ⟨0, 0, 0⟩).Reached s ∧
      (r, .replied (.processRX d) asked done) ∈ s.world.answers ∧ d.orphan = false ∧
      (asked.packetType.setWidth 16 = 0x0806#16 ↔ d.frame.etherType = 0x0806#16) := by
  obtain ⟨s, r, d, asked, done, reached, answered, read⟩ := delivery_reached
    (sessionUp ++ submitted 2 (request .cmdRead 0x0806#32 0x500 0#32) ++
      frameArrives (0x08, 0x06) ++ List.replicate 6 (.task 0 taskEnv))
    (fun x => x.2.1.orphan) false (by decide +kernel)
  exact ⟨s, r, d, asked, done, reached, answered, read,
    ((frames_by_class ⟨0, 0, 0⟩ s reached).1 r d asked done answered read).2.2.1 _ (.inr rfl)⟩

/-- Reads of other types share one list, so one of them gets a frame of another's type. -/
theorem read_of_other_type :
    ∃ s r d asked done, (unitMachine ⟨0, 0, 0⟩).Reached s ∧
      (r, .replied (.processRX d) asked done) ∈ s.world.answers ∧
      d.orphan = false ∧ d.frame.etherType ≠ asked.packetType.setWidth 16 := by
  obtain ⟨s, r, d, asked, done, reached, answered, shape⟩ := delivery_reached
    (sessionUp ++ submitted 2 (request .cmdRead 0x1234#32 0x500 0#32) ++
      frameArrives (0x86, 0xDD) ++ List.replicate 6 (.task 0 taskEnv))
    (fun x => (x.2.1.orphan, x.2.1.frame.etherType, x.2.2.1.packetType))
    (false, 0x86DD#16, 0x1234#32) (by decide +kernel)
  simp only [Prod.mk.injEq] at shape
  obtain ⟨read, frame, packet⟩ := shape
  refine ⟨s, r, d, asked, done, reached, answered, read, ?_⟩
  rw [frame, packet]
  decide

end Pa6tEth

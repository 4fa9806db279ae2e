import Pa6tEth.Delivery
import Pa6tEth.Events
import Pa6tEth.Support.Fifo

/-! `PA6TEth_ProcessRX` gives the frames of the ring to the queued reads as three queues with
orphan reads behind them do. -/

namespace Pa6tEth

open Support World

abbrev RxEvent := FifoEvent ReadClass ReqId RxFrame

/-- The three read lists, and the event list with a mark on its orphan reads. -/
def queues (w : World) : Fifo ReadClass ReqId where
  waiting := fun c => (w.unit.readList c).map PendingRead.ioreq
  spare := w.unit.eventList.map fun r => (r, (w.asked r).command == .readOrphan)

/-- A group whose frame is for a reader: no CRC error, a slot with a buffer, at least a header and
an FCS, and the buffer's own address. -/
def ValidGroup (u : UnitRx) (g : RxGroup) : Prop :=
  g.macrx &&& xctMacrxCrc = 0#64 ∧ g.ringSlot < rxRingSize ∧
    (g.actualBuf < numRxBufs ∧ u.rxBufs g.actualBuf ≠ 0) ∧ 18#32 ≤ llenOf g.macrx ∧
    ptrPhys g.ptrWord = u.rxBufsPhys g.actualBuf

instance (u : UnitRx) (g : RxGroup) : Decidable (ValidGroup u g) :=
  inferInstanceAs (Decidable (_ ∧ _ ∧ _ ∧ _ ∧ _))

def callEvents (w : World) : Call → List RxEvent
  | .addingRead pr _ => [.join (readClass ((w.asked pr.ioreq).packetType.setWidth 16)) pr.ioreq]
  | .addingEvent r => [.joinSpare r ((w.asked r).command == .readOrphan)]
  | .abortReads r => [.leave r]
  | .abortEvents r => [.leaveSpare r]
  | _ => []

def groupEvent (w : World) (g : RxGroup) : RxEvent :=
  let f := frameOf w.mem w.unit.rx g (llenOf g.macrx - 4#32)
  if ValidGroup w.unit.rx g then .offer (readClass f.etherType) f else .reject

/-- The words of the group at `n`, with the slot that its eval word names one up and the buffer
that the slot holds. -/
def ringGroup (u : UnitRx) (n : Nat) : RxGroup :=
  let eval := evalOf (u.rxRing.get (n + 1))
  { macrx := u.rxRing.get n
    evalWord := u.rxRing.get (n + 1)
    ptrWord := u.rxRing.get (n + 2)
    ringSlot := if 0 < eval then eval - 1 else rxRingSize
    actualBuf := if 0 < eval ∧ eval ≤ rxRingSize then u.rxSlotBuf (eval - 1) else numRxBufs }

def taskEvents (w : World) : TaskPc → List RxEvent
  | .rxLoop v =>
      if owned (w.unit.rx.rxRing.get v.n) then [groupEvent w (ringGroup w.unit.rx v.n)] else []
  | .handling _ (.flushReadQueue _ :: _) _ => [.clear]
  | .exitFlush => [.clear]
  | .exitFlushEvents => [.clearSpare]
  | _ => []

def rxEvents (s : Driver) : Action → List RxEvent
  | .call i _ => ((s.calls[i]?).map (callEvents s.world)).getD []
  | .task i _ => ((s.tasks[i]?).map (taskEvents s.world)).getD []
  | _ => []

/-- A request that `ProcessRX` has taken a frame for, from the event list or not. -/
abbrev Reply := ReqId × Bool × RxFrame

def delivered : ReqId × Answer → Option Reply
  | (r, .replied (.processRX d) _ _) => some (r, d.orphan, d.frame)
  | _ => none

def deliveries (w : World) : List Reply := (w.answers.filterMap delivered).reverse

namespace TaskPc

def inHand : TaskPc → List Reply
  | rxDeliver _ _ f r orphan => [(r, orphan, f)]
  | _ => []

/-- The place is in the loop body, with a group that the loop has not left yet. -/
def atGroup (u : UnitRx) : TaskPc → Bool
  | rxLoop v => owned (u.rxRing.get v.n)
  | rxDeliver _ _ _ _ _ => true
  | rxNext _ _ => true
  | _ => false

/-- The ways through the loop body: each ends at the head of the loop with the next group. -/
def Onward : TaskPc → TaskPc → Prop
  | rxLoop v, rxDeliver v' _ _ _ _ => v' = v
  | rxLoop v, rxNext v' _ => v' = v
  | rxDeliver v g _ _ _, rxNext v' g' => v' = v ∧ g' = g
  | rxNext v _, rxLoop v' => v'.n = v.n + 4
  | _, _ => False

end TaskPc

namespace Driver

def replies (s : Driver) : List Reply :=
  deliveries s.world ++ s.tasks.flatMap TaskPc.inHand

end Driver

theorem fetchGroup_ring (u : UnitRx) (n : Nat) (complete : owned (u.rxRing.get n) = true) :
    fetchGroup u n = some (ringGroup u n) := by
  simp only [fetchGroup, complete, if_true, ringGroup, Option.some.injEq, RxGroup.mk.injEq,
    true_and]
  by_cases positive : 0 < evalOf (u.rxRing.get (n + 1))
  · have bound : evalOf (u.rxRing.get (n + 1)) - 1 < rxRingSize ↔
        evalOf (u.rxRing.get (n + 1)) ≤ rxRingSize := by omega
    simp only [gt_iff_lt, positive, if_true, true_and, bound]
  · simp only [gt_iff_lt, positive, if_false, false_and, lt_irrefl]

theorem checkGroup_valid (u : UnitRx) (g : RxGroup) :
    checkGroup u g = .ok (llenOf g.macrx - 4#32) ∧ ValidGroup u g ∨
      (∃ drop, checkGroup u g = .error drop) ∧ ¬ ValidGroup u g := by
  have header : ethHdrLen = 14#32 := rfl
  simp only [checkGroup, ValidGroup, header]
  split
  · rename_i crc
    exact .inr ⟨⟨_, rfl⟩, fun valid => crc valid.1⟩
  · rename_i crc
    split
    · rename_i slot
      exact .inr ⟨⟨_, rfl⟩, fun valid => absurd valid.2.1 (by omega)⟩
    · rename_i slot
      split
      · rename_i buf
        exact .inr ⟨⟨_, rfl⟩, fun valid =>
          buf.elim (fun large => absurd valid.2.2.1.1 (by omega)) valid.2.2.1.2⟩
      · rename_i buf
        split
        · rename_i short
          exact .inr ⟨⟨_, rfl⟩, fun valid => absurd valid.2.2.2.1 (by bv_omega)⟩
        · rename_i long
          split
          · rename_i truncated
            exact .inr ⟨⟨_, rfl⟩, fun valid => absurd valid.2.2.2.1 (by bv_omega)⟩
          · rename_i whole
            split
            · rename_i address
              exact .inr ⟨⟨_, rfl⟩, fun valid => address valid.2.2.2.2⟩
            · rename_i address
              push Not at crc slot buf address
              exact .inl ⟨rfl, crc, by omega, ⟨by omega, buf.2⟩, by bv_omega, address⟩

/-- The queues take the events of a step as they should, and so do the counter of dropped frames
and the replies, of which some are in hand before and after. -/
structure Plays (w : World) (hand : List Reply) (events : List RxEvent) (v : World)
    (left : List Reply) : Prop where
  contents : ((queues w).run events).1 = queues v
  drops : v.unit.rx.statRxDropped =
    w.unit.rx.statRxDropped + BitVec.ofNat 32 (Fifo.droppedIn ((queues w).run events).2)
  made : deliveries v ++ left =
    deliveries w ++ hand ++ Fifo.servedIn ((queues w).run events).2

theorem deliveries_rxAnswers (w v : World) (same : rxAnswers v = rxAnswers w) :
    deliveries v = deliveries w := by
  have among : ∀ w : World, deliveries w = ((rxAnswers w).filterMap delivered).reverse := by
    intro w
    have silent : ∀ a : ReqId × Answer, a.2.byRX = false → delivered a = none := by
      rintro ⟨r, answer⟩ other
      cases answer with
      | returned asked done => rfl
      | replied via asked done => cases via <;> first | rfl | cases other
    rw [deliveries, rxAnswers, List.filterMap_filter]
    congr 1
    apply List.filterMap_congr
    intro a _
    cases byRX : a.2.byRX with
    | false => simp [silent a byRX]
    | true => simp
  rw [among, among, same]

theorem deliveries_replyMsg (w : World) (r : ReqId) (q : IOSana2Req) (via : Via)
    (other : ∀ d, via ≠ .processRX d) : deliveries (w.replyMsg r q via) = deliveries w :=
  deliveries_rxAnswers _ _ (rxAnswers_replyMsg w r q via other)

theorem queues_same (w v : World) (reads : ∀ c, v.unit.readList c = w.unit.readList c)
    (events : v.unit.eventList = w.unit.eventList) (asked : v.asked = w.asked) :
    queues v = queues w := by
  simp only [queues, reads, events, asked]

theorem plays_same (w v : World) (hand : List Reply)
    (reads : ∀ c, v.unit.readList c = w.unit.readList c)
    (events : v.unit.eventList = w.unit.eventList) (asked : v.asked = w.asked)
    (dropped : v.unit.rx.statRxDropped = w.unit.rx.statRxDropped)
    (answers : deliveries v = deliveries w) : Plays w hand [] v hand where
  contents := (queues_same w v reads events asked).symm
  drops := by simp [Fifo.run, Fifo.droppedIn, dropped]
  made := by simp [Fifo.run, Fifo.servedIn, answers]

theorem plays_moved (w v : World) (hand : List Reply) (event : RxEvent)
    (silent : ((queues w).step event).2 = []) (contents : ((queues w).step event).1 = queues v)
    (dropped : v.unit.rx.statRxDropped = w.unit.rx.statRxDropped)
    (answers : deliveries v = deliveries w) : Plays w hand [event] v hand where
  contents := by rw [Fifo.run_one, contents]
  drops := by simp [Fifo.run_one, silent, Fifo.droppedIn, dropped]
  made := by simp [Fifo.run_one, silent, Fifo.servedIn, answers]

theorem erase_ioreq (list : List PendingRead) (r : ReqId) :
    (list.eraseP fun pr => pr.ioreq == r).map PendingRead.ioreq =
      (list.map PendingRead.ioreq).erase r := by
  induction list with
  | nil => rfl
  | cons pr rest ih =>
      simp only [List.eraseP_cons, List.map_cons, List.erase_cons]
      cases pr.ioreq == r with
      | true => rfl
      | false => simp only [cond_false, List.map_cons, ih, Bool.false_eq_true, if_false]

theorem findRead_none (u : PA6TEthUnit) (r : ReqId) (missing : findRead u r = none)
    (c : ReadClass) : r ∉ (u.readList c).map PendingRead.ioreq := by
  have absent : ∀ list : List PendingRead, list.find? (fun pr => pr.ioreq == r) = none →
      r ∉ list.map PendingRead.ioreq := by
    intro list unfound queued
    obtain ⟨pr, member, same⟩ := List.mem_map.mp queued
    simpa [same] using List.find?_eq_none.mp unfound pr member
  simp only [findRead] at missing
  split at missing
  · cases missing
  · rename_i first
    split at missing
    · cases missing
    · rename_i second
      have third := Option.map_eq_none_iff.mp missing
      cases c with
      | ipv4 => exact absent _ first
      | arp => exact absent _ second
      | other => exact absent _ third

theorem readLists_apart (u : PA6TEthUnit) (distinct : ((stored u).map Prod.fst).Nodup)
    (c d : ReadClass) (apart : d ≠ c) (r : ReqId)
    (queued : r ∈ (u.readList c).map PendingRead.ioreq) :
    r ∉ (u.readList d).map PendingRead.ioreq := by
  have reads : (u.readListIpv4.map PendingRead.ioreq ++ (u.readListArp.map PendingRead.ioreq ++
      u.readListOther.map PendingRead.ioreq)).Nodup := by
    have front := distinct
    simp only [stored, readPlaces, List.map_append, List.map_map, Function.comp_def] at front
    rw [← List.append_assoc, ← List.append_assoc] at front
    rw [← List.append_assoc]
    exact (List.nodup_append.mp front).1
  obtain ⟨_, later, first⟩ := List.nodup_append.mp reads
  obtain ⟨_, _, second⟩ := List.nodup_append.mp later
  intro there
  cases c <;> cases d <;> first
    | exact apart rfl
    | exact first _ queued _ (List.mem_append_left _ there) rfl
    | exact first _ queued _ (List.mem_append_right _ there) rfl
    | exact first _ there _ (List.mem_append_left _ queued) rfl
    | exact first _ there _ (List.mem_append_right _ queued) rfl
    | exact second _ queued _ there rfl
    | exact second _ there _ queued rfl

theorem erase_found (u : PA6TEthUnit) (distinct : ((stored u).map Prod.fst).Nodup) (r : ReqId)
    (c : ReadClass) (pr : PendingRead) (found : findRead u r = some (c, pr)) (d : ReadClass) :
    ((u.setReadList ((u.readList c).eraseP fun pr => pr.ioreq == r) c).readList d).map
        PendingRead.ioreq =
      ((u.readList d).map PendingRead.ioreq).erase r := by
  have first := findRead_found u r c pr found
  have same : pr.ioreq = r := by simpa using List.find?_some first
  have queued : r ∈ (u.readList c).map PendingRead.ioreq :=
    List.mem_map.mpr ⟨pr, List.mem_of_find?_eq_some first, same⟩
  rw [PA6TEthUnit.readList_setReadList]
  split
  · rename_i here
    rw [here, erase_ioreq]
  · rename_i apart
    rw [List.erase_of_not_mem (readLists_apart u distinct c d apart r queued)]

theorem plays_call (ch : Channels) (e : CallEnv) (w v : World) (c : Call) (next : Option Call)
    (distinct : ((stored w.unit).map Prod.fst).Nodup)
    (promised : ∀ p ∈ c.claim, p.2.promise (w.asked p.1, w.reqs p.1))
    (stepped : callStep ch e w c = some (v, next)) : Plays w [] (callEvents w c) v [] := by
  cases c with
  | beginIo r =>
      obtain ⟨rfl, rfl⟩ := Prod.mk.inj (Option.some.inj stepped)
      obtain ⟨q, openers, reports, same⟩ := beginIo_frame e w r
      rw [same]
      exact plays_same w _ [] (fun c => by cases c <;> rfl) rfl rfl rfl rfl
  | replying r err werr sent =>
      obtain ⟨rfl, rfl⟩ := Prod.mk.inj (Option.some.inj stepped)
      simp only [replyIoreq]
      split
      · exact plays_same w _ [] (fun _ => rfl) rfl rfl rfl rfl
      · exact plays_same w _ [] (fun _ => rfl) rfl rfl rfl
          (deliveries_replyMsg w r _ _ (by simp))
  | queueing r =>
      obtain ⟨w', put, same⟩ := Option.map_eq_some_iff.mp stepped
      obtain ⟨rfl, rfl⟩ := Prod.mk.inj same
      obtain ⟨port, _, rfl⟩ := Option.map_eq_some_iff.mp put
      exact plays_same w _ [] (fun c => by cases c <;> rfl) rfl rfl rfl rfl
  | addingRead pr c =>
      obtain ⟨rfl, rfl⟩ := Prod.mk.inj (Option.some.inj stepped)
      have kind := (promised _ List.mem_cons_self).2.2.2.2.1
      refine plays_moved w _ [] _ rfl ?_ (by simp only [PA6TEthUnit.setReadList_rx]) rfl
      simp only [Fifo.step, queues, PA6TEthUnit.setReadList_eventList, kind, Fifo.mk.injEq, and_true]
      funext d
      rw [PA6TEthUnit.readList_setReadList, Function.update_apply]
      split
      · rw [List.map_append, List.map_cons, List.map_nil]
      · rfl
  | addingEvent r =>
      obtain ⟨rfl, rfl⟩ := Prod.mk.inj (Option.some.inj stepped)
      refine plays_moved w _ [] _ rfl ?_ rfl rfl
      simp only [Fifo.step, queues, List.map_append, List.map_cons, List.map_nil, Fifo.mk.injEq,
        and_true]
      funext d
      cases d <;> rfl
  | transmitting r =>
      simp only [callStep] at stepped
      split at stepped <;> obtain ⟨rfl, rfl⟩ := Prod.mk.inj (Option.some.inj stepped) <;>
        exact plays_same w _ [] (fun _ => rfl) rfl rfl rfl rfl
  | submitting r f =>
      obtain ⟨rfl, rfl⟩ := Prod.mk.inj (Option.some.inj stepped)
      exact plays_same w _ [] (fun c => by cases c <;> rfl) rfl rfl rfl rfl
  | signalling =>
      obtain ⟨rfl, rfl⟩ := Prod.mk.inj (Option.some.inj stepped)
      exact plays_same w _ [] (fun _ => rfl) rfl rfl rfl rfl
  | abortReads r =>
      simp only [callStep] at stepped
      split at stepped
      · rename_i missing
        obtain ⟨rfl, rfl⟩ := Prod.mk.inj (Option.some.inj stepped)
        refine plays_moved w w [] _ rfl ?_ rfl rfl
        simp only [Fifo.step, queues, Fifo.mk.injEq, and_true]
        exact funext fun c => List.erase_of_not_mem (findRead_none w.unit r missing c)
      · rename_i c pr found
        obtain ⟨rfl, rfl⟩ := Prod.mk.inj (Option.some.inj stepped)
        refine plays_moved w _ [] _ rfl ?_ (by simp only [PA6TEthUnit.setReadList_rx]) rfl
        simp only [Fifo.step, queues, PA6TEthUnit.setReadList_eventList, Fifo.mk.injEq, and_true]
        exact funext fun d => (erase_found w.unit distinct r c pr found d).symm
  | abortEvents r =>
      have erased : (queues w).spare.eraseP (fun entry => entry.1 == r) =
          (w.unit.eventList.erase r).map fun r => (r, (w.asked r).command == .readOrphan) := by
        simp only [queues, List.eraseP_map, List.erase_eq_eraseP', Function.comp_def]
      simp only [callStep] at stepped
      split at stepped
      · obtain ⟨rfl, rfl⟩ := Prod.mk.inj (Option.some.inj stepped)
        refine plays_moved w _ [] _ rfl ?_ rfl rfl
        rw [Fifo.step, erased]
        simp only [queues, Fifo.mk.injEq, and_true]
        funext d
        cases d <;> rfl
      · rename_i missing
        obtain ⟨rfl, rfl⟩ := Prod.mk.inj (Option.some.inj stepped)
        refine plays_moved w _ [] _ rfl ?_ rfl rfl
        rw [Fifo.step, erased, List.erase_of_not_mem missing]
        rfl
  | abortPort r =>
      simp only [callStep] at stepped
      split at stepped
      · obtain ⟨rfl, rfl⟩ := Prod.mk.inj (Option.some.inj stepped)
        exact plays_same w w [] (fun _ => rfl) rfl rfl rfl rfl
      · split at stepped
        · obtain ⟨rfl, rfl⟩ := Prod.mk.inj (Option.some.inj stepped)
          exact plays_same w _ [] (fun c => by cases c <;> rfl) rfl rfl rfl rfl
        · obtain ⟨rfl, rfl⟩ := Prod.mk.inj (Option.some.inj stepped)
          exact plays_same w w [] (fun _ => rfl) rfl rfl rfl rfl
  | abortReply r =>
      obtain ⟨rfl, rfl⟩ := Prod.mk.inj (Option.some.inj stepped)
      exact plays_same w _ [] (fun _ => rfl) rfl rfl rfl (deliveries_replyMsg w r _ _ (by simp))

theorem flushReadQueue_events (error : IoError) (w : World)
    (commands : ∀ r ∈ w.unit.eventList, (w.reqs r).command = (w.asked r).command) :
    (w.flushReadQueue error).unit.eventList =
      w.unit.eventList.filter fun r => !((w.asked r).command == .readOrphan) := by
  rw [flushReadQueue, sweepEvents_unit]
  simp only [flushRead_unit, PA6TEthUnit.setReadList_eventList]
  refine (sweep_filter (fun q => decide (q.command = .readOrphan)) (flushed error) .flush
    (fun _ => rfl) _ _).trans (List.filter_congr fun r queued => ?_)
  simp only [flushRead_command, commands r queued]
  rfl

theorem plays_flushReadQueue (error : IoError) (w : World)
    (commands : ∀ r ∈ w.unit.eventList, (w.reqs r).command = (w.asked r).command) :
    Plays w [] [.clear] (w.flushReadQueue error) [] := by
  refine plays_moved w _ [] _ rfl ?_ ?_ (deliveries_rxAnswers _ _ (rxAnswers_flushReadQueue error w))
  · have asked := (flushReadQueue_calm error w).asked
    simp only [Fifo.step, queues, flushReadQueue_reads, flushReadQueue_events error w commands,
      asked, List.map_nil, List.filter_map, Function.comp_def]
  · simp only [flushReadQueue, sweepEvents_unit, flushRead_unit, PA6TEthUnit.setReadList_rx]

theorem plays_flushRemaining (w : World) : Plays w [] [.clearSpare] w.flushRemaining [] := by
  have unit : w.flushRemaining.unit = { w.unit with eventList := [] } := by
    rw [flushRemaining, sweepEvents_unit, sweep_all]
  have calm : Calm w w.flushRemaining := sweepEvents_calm _ _ _ w
  refine plays_moved w _ [] _ rfl ?_ (by rw [unit])
    (deliveries_rxAnswers _ _ (rxAnswers_sweepEvents _ _ _ w (by simp)))
  simp only [Fifo.step, queues, unit, List.map_nil, Fifo.mk.injEq, and_true]
  funext c
  cases c <;> rfl

theorem offer_taken (w : World) (f : RxFrame)
    (commands : ∀ r ∈ w.unit.eventList, (w.reqs r).command = (w.asked r).command) :
    (queues w).offer (readClass f.etherType) f =
      match takeReader w.reqs w.unit f.etherType with
      | .read pr rest =>
          ({ queues w with
              waiting := Function.update (queues w).waiting (readClass f.etherType)
                (rest.map PendingRead.ioreq) }, .served pr.ioreq false f)
      | .orphan r rest =>
          ({ queues w with
              spare := rest.map fun r => (r, (w.asked r).command == .readOrphan) },
            .served r true f)
      | .nobody => (queues w, .dropped) := by
  have spares : (queues w).spare =
      w.unit.eventList.map fun r => (r, (w.reqs r).command == .readOrphan) := by
    refine List.map_congr_left fun r queued => ?_
    rw [commands r queued]
  have first : (queues w).spare.find? Prod.snd =
      (w.unit.eventList.find? fun r => (w.reqs r).command == .readOrphan).map
        fun r => (r, (w.reqs r).command == .readOrphan) := by
    rw [spares, List.find?_map]
    rfl
  have others : (queues w).spare.eraseP Prod.snd =
      (w.unit.eventList.eraseP fun r => (w.reqs r).command == .readOrphan).map
        fun r => (r, (w.asked r).command == .readOrphan) := by
    rw [spares, List.eraseP_map]
    refine List.map_congr_left fun r left => ?_
    rw [commands r (List.eraseP_subset left)]
  cases list : w.unit.readList (readClass f.etherType) with
  | cons pr rest =>
      have waiting : (queues w).waiting (readClass f.etherType) =
          pr.ioreq :: rest.map PendingRead.ioreq := by
        simp only [queues, list, List.map_cons]
      simp only [Fifo.offer, waiting, takeReader, list]
  | nil =>
      have waiting : (queues w).waiting (readClass f.etherType) = [] := by
        simp only [queues, list, List.map_nil]
      simp only [Fifo.offer, waiting, takeReader, list, first, others]
      cases w.unit.eventList.find? fun r => (w.reqs r).command == .readOrphan with
      | none => rfl
      | some r => rfl

theorem plays_offer (w : World) (v : RxLoop) (g : RxGroup) (f : RxFrame)
    (commands : ∀ r ∈ w.unit.eventList, (w.reqs r).command = (w.asked r).command) :
    Plays w [] [.offer (readClass f.etherType) f] (offerFrame w v g f).1
      (offerFrame w v g f).2.inHand := by
  have offered := offer_taken w f commands
  simp only [offerFrame]
  cases taken : takeReader w.reqs w.unit f.etherType with
  | read pr rest =>
      rw [taken] at offered
      refine ⟨?_, ?_, ?_⟩
      · rw [Fifo.run_one, Fifo.step, offered]
        simp only [queues, PA6TEthUnit.setReadList_eventList, Fifo.mk.injEq, and_true]
        funext d
        rw [PA6TEthUnit.readList_setReadList, Function.update_apply]
        split
        · rfl
        · cases d <;> rfl
      · simp [Fifo.run_one, Fifo.step, offered, Fifo.droppedIn, PA6TEthUnit.setReadList_rx]
      · simp only [Fifo.run_one, Fifo.step, offered, Fifo.servedIn, List.filterMap_cons,
          List.filterMap_nil, List.append_nil, TaskPc.inHand]
        rfl
  | orphan r rest =>
      rw [taken] at offered
      refine ⟨?_, ?_, ?_⟩
      · rw [Fifo.run_one, Fifo.step, offered]
        simp only [queues, Fifo.mk.injEq, and_true]
        funext d
        cases d <;> rfl
      · simp [Fifo.run_one, Fifo.step, offered, Fifo.droppedIn]
      · simp only [Fifo.run_one, Fifo.step, offered, Fifo.servedIn, List.filterMap_cons,
          List.filterMap_nil, List.append_nil, TaskPc.inHand]
        rfl
  | nobody =>
      rw [taken] at offered
      refine ⟨?_, ?_, ?_⟩
      · rw [Fifo.run_one, Fifo.step, offered]
        simp only [queues, Fifo.mk.injEq]
        refine ⟨funext fun d => ?_, rfl⟩
        cases d <;> rfl
      · simp [Fifo.run_one, Fifo.step, offered, Fifo.droppedIn, dropGroup]
      · simp only [Fifo.run_one, Fifo.step, offered, Fifo.servedIn, List.filterMap_cons,
          List.filterMap_nil, List.append_nil, TaskPc.inHand]
        rfl

theorem plays_reject (w : World) :
    Plays w [] [.reject] { w with unit := dropGroup w.unit } [] := by
  refine ⟨?_, ?_, ?_⟩
  · simp only [Fifo.run_one, Fifo.step, queues, Fifo.mk.injEq]
    refine ⟨funext fun d => ?_, rfl⟩
    cases d <;> rfl
  · simp [Fifo.run_one, Fifo.step, Fifo.droppedIn, dropGroup]
  · simp only [Fifo.run_one, Fifo.step, Fifo.servedIn, List.filterMap_cons, List.filterMap_nil,
      List.append_nil]
    rfl

theorem plays_rxBody (ch : Channels) (w : World) (v : RxLoop)
    (commands : ∀ r ∈ w.unit.eventList, (w.reqs r).command = (w.asked r).command) :
    Plays w [] (taskEvents w (.rxLoop v)) (rxBody ch w v).1 (rxBody ch w v).2.inHand := by
  cases complete : owned (w.unit.rx.rxRing.get v.n) with
  | false =>
      simp only [rxBody, taskEvents, complete, (fetchGroup_none w.unit.rx v.n).mpr complete]
      exact plays_same w _ [] (fun c => by cases c <;> rfl) rfl rfl rfl rfl
  | true =>
      have fetched := fetchGroup_ring w.unit.rx v.n complete
      simp only [rxBody, taskEvents, complete, if_true, fetched, groupEvent]
      generalize ringGroup w.unit.rx v.n = g
      rcases checkGroup_valid w.unit.rx g with ⟨checked, valid⟩ | ⟨⟨drop, checked⟩, invalid⟩
      · simp only [checked, if_pos valid]
        exact plays_offer w v g _ commands
      · simp only [checked, if_neg invalid]
        exact plays_reject w

theorem plays_task (ch : Channels) (e : TaskEnv) (w v : World) (pc next : TaskPc)
    (queued : ∀ r ∈ w.unit.eventList, Stage.waiting.promise (w.asked r, w.reqs r))
    (stepped : taskStep ch e w pc = some (v, next)) :
    Plays w pc.inHand (taskEvents w pc) v next.inHand := by
  have commands : ∀ r ∈ w.unit.eventList, (w.reqs r).command = (w.asked r).command :=
    fun r member => (queued r member).2.2.2.1
  cases pc with
  | loopHead =>
      obtain ⟨rfl, rfl⟩ := Prod.mk.inj (Option.some.inj stepped)
      split <;> exact plays_same w w [] (fun _ => rfl) rfl rfl rfl rfl
  | waiting =>
      simp only [taskStep] at stepped
      split at stepped
      · obtain ⟨rfl, rfl⟩ := Prod.mk.inj (Option.some.inj stepped)
        exact plays_same w _ [] (fun _ => rfl) rfl rfl rfl rfl
      · cases stepped
  | woken =>
      obtain ⟨rfl, rfl⟩ := Prod.mk.inj (Option.some.inj stepped)
      split <;> exact plays_same w _ [] (fun _ => rfl) rfl rfl rfl rfl
  | draining | exitDrain =>
      simp only [taskStep] at stepped
      split at stepped
      · cases stepped
      · obtain ⟨rfl, rfl⟩ := Prod.mk.inj (Option.some.inj stepped)
        exact plays_same w w [] (fun _ => rfl) rfl rfl rfl rfl
      · obtain ⟨rfl, rfl⟩ := Prod.mk.inj (Option.some.inj stepped)
        exact plays_same w _ [] (fun c => by cases c <;> rfl) rfl rfl rfl rfl
  | received r =>
      obtain ⟨rfl, rfl⟩ := Prod.mk.inj (Option.some.inj stepped)
      exact plays_same w _ [] (fun _ => rfl) rfl rfl rfl rfl
  | handling r ops fin =>
      cases ops with
      | nil =>
          obtain ⟨rfl, rfl⟩ := Prod.mk.inj (Option.some.inj stepped)
          exact plays_same w _ [] (fun _ => rfl) rfl rfl rfl (deliveries_replyMsg w r _ _ (by simp))
      | cons op ops =>
          obtain ⟨rfl, rfl⟩ := Prod.mk.inj (Option.some.inj stepped)
          cases op with
          | setOnline online =>
              exact plays_same w _ [] (fun c => by cases c <;> rfl) rfl rfl rfl rfl
          | postRxBuffers =>
              exact plays_same w _ [] (fun c => by cases c <;> rfl) rfl rfl
                (postRxBuffers_dropped ch e.arm w.unit.rx) rfl
          | flushReadQueue error => exact plays_flushReadQueue error w commands
          | signalEvent mask =>
              simp only [runOp]
              rw [signalEvent_silent mask w fun r member => (queued r member).2.2.1]
              exact plays_same w w [] (fun _ => rfl) rfl rfl rfl rfl
  | rxStart =>
      obtain ⟨rfl, rfl⟩ := Prod.mk.inj (Option.some.inj stepped)
      split <;> exact plays_same w w [] (fun _ => rfl) rfl rfl rfl rfl
  | rxLoop l =>
      obtain ⟨rfl, rfl⟩ := Prod.mk.inj (Option.some.inj stepped)
      exact plays_rxBody ch w l commands
  | rxDeliver l g f r orphan =>
      obtain ⟨rfl, rfl⟩ := Prod.mk.inj (Option.some.inj stepped)
      obtain ⟨route, frame⟩ := deliver_shape orphan e.hookOk w.unit w.mem r f (w.reqs r)
      refine ⟨rfl, by simp [taskEvents, Fifo.run, Fifo.droppedIn, replyMsg], ?_⟩
      simp only [deliveries, replyMsg, List.filterMap_cons, delivered, route, frame,
        List.reverse_cons, taskEvents, TaskPc.inHand, Fifo.run, Fifo.servedIn, List.filterMap_nil,
        List.append_nil]
  | rxNext l g =>
      obtain ⟨rfl, rfl⟩ := Prod.mk.inj (Option.some.inj stepped)
      refine plays_same w _ [] (fun c => by cases c <;> rfl) rfl rfl ?_ rfl
      simp only [nextDesc]
      split <;> rfl
  | exitReply r =>
      obtain ⟨rfl, rfl⟩ := Prod.mk.inj (Option.some.inj stepped)
      exact plays_same w _ [] (fun _ => rfl) rfl rfl rfl (deliveries_replyMsg w r _ _ (by simp))
  | exitFlush =>
      obtain ⟨rfl, rfl⟩ := Prod.mk.inj (Option.some.inj stepped)
      exact plays_flushReadQueue .aborted w commands
  | exitFlushEvents =>
      obtain ⟨rfl, rfl⟩ := Prod.mk.inj (Option.some.inj stepped)
      exact plays_flushRemaining w
  | drained => cases stepped

/-- From one driver to another the queues take the events as they should: those of the first
become those of the second, every drop is counted, and the replies are those of the queues. -/
structure Follows (s : Driver) (events : List RxEvent) (t : Driver) : Prop where
  contents : ((queues s.world).run events).1 = queues t.world
  drops : t.world.unit.rx.statRxDropped = s.world.unit.rx.statRxDropped +
    BitVec.ofNat 32 (Fifo.droppedIn ((queues s.world).run events).2)
  made : t.replies.Perm (s.replies ++ Fifo.servedIn ((queues s.world).run events).2)

def InOrder (s : Driver) (events : List RxEvent) (t : Driver) : Prop :=
  t.replies = s.replies ++ Fifo.servedIn ((queues s.world).run events).2

theorem follows_refl (s : Driver) : Follows s [] s where
  contents := rfl
  drops := by simp [Fifo.run, Fifo.droppedIn]
  made := by simp [Fifo.run, Fifo.servedIn]

theorem follows_trans (s t u : Driver) (first second : List RxEvent)
    (one : Follows s first t) (two : Follows t second u) : Follows s (first ++ second) u := by
  refine ⟨?_, ?_, ?_⟩
  · rw [Fifo.run_append, one.contents, two.contents]
  · rw [two.drops, one.drops, Fifo.run_append, one.contents, Fifo.droppedIn_append,
      BitVec.ofNat_add, BitVec.add_assoc]
  · rw [Fifo.run_append, one.contents, Fifo.servedIn_append, ← List.append_assoc]
    exact two.made.trans (one.made.append_right _)

theorem inOrder_trans (s t u : Driver) (first second : List RxEvent) (one : Follows s first t)
    (before : InOrder s first t) (after : InOrder t second u) :
    InOrder s (first ++ second) u := by
  rw [InOrder, Fifo.run_append, one.contents, Fifo.servedIn_append, ← List.append_assoc, ← before]
  exact after

theorem follows_same (s t : Driver) (queue : queues t.world = queues s.world)
    (dropped : t.world.unit.rx.statRxDropped = s.world.unit.rx.statRxDropped)
    (replies : t.replies = s.replies) : Follows s [] t ∧ InOrder s [] t := by
  refine ⟨⟨queue.symm, ?_, ?_⟩, ?_⟩
  · simp [Fifo.run, Fifo.droppedIn, dropped]
  · simp [Fifo.run, Fifo.servedIn, replies]
  · simp [InOrder, Fifo.run, Fifo.servedIn, replies]

theorem callEvents_silent (w : World) (c : Call) : ((queues w).run (callEvents w c)).2 = [] := by
  cases c <;> rfl

theorem follows_call (ch : Channels) (s t : Driver) (reached : (unitMachine ch).Reached s)
    (i : Nat) (e : CallEnv) (stepped : driverStep ch s (.call i e) = some t) :
    Follows s (rxEvents s (.call i e)) t ∧ InOrder s (rxEvents s (.call i e)) t := by
  obtain ⟨c, w, next, present, moved, rfl⟩ := call_step ch s t i e stepped
  have kept := kept_reached ch s reached
  have distinct := kept_nodup _ _ _ kept
  have held : ∀ p ∈ c.claim, p ∈ s.ledger.places := fun p member =>
    List.mem_append_left _ (List.mem_flatMap.mpr ⟨c, List.mem_of_getElem? present, member⟩)
  have apart : ((stored s.world.unit).map Prod.fst).Nodup := by
    simp only [Ledger.items, Driver.ledger, ledger, Driver.places, List.map_append] at distinct
    exact (List.nodup_append.mp (List.nodup_append.mp distinct).2.1).2.1
  have plays := plays_call ch e s.world w c next apart
    (fun p member => kept.promised p (held p member)) moved
  have silent := callEvents_silent s.world c
  have answered : deliveries w = deliveries s.world := by
    simpa [silent, Fifo.servedIn] using plays.made
  simp only [rxEvents, present, Option.map_some, Option.getD_some]
  refine ⟨⟨plays.contents, plays.drops, ?_⟩, ?_⟩
  · simp [silent, Fifo.servedIn, Driver.replies, answered]
  · simp [InOrder, silent, Fifo.servedIn, Driver.replies, answered]

theorem queued_promise (ch : Channels) (s : Driver) (reached : (unitMachine ch).Reached s) :
    ∀ r ∈ s.world.unit.eventList, Stage.waiting.promise (s.world.asked r, s.world.reqs r) :=
  fun r queued => waiting_promise ch s reached r queued

/-- The replies of one unit task come in the order of its frames; beside other tasks they are the
same replies. -/
theorem follows_task (ch : Channels) (s t : Driver) (reached : (unitMachine ch).Reached s)
    (i : Nat) (e : TaskEnv) (stepped : driverStep ch s (.task i e) = some t) :
    Follows s (rxEvents s (.task i e)) t ∧
      (s.tasks.length ≤ 1 → InOrder s (rxEvents s (.task i e)) t) := by
  obtain ⟨pc, w, next, present, moved, rfl⟩ := task_step ch s t i e stepped
  have plays := plays_task ch e s.world w pc next (queued_promise ch s reached) moved
  have made := plays.made
  simp only [rxEvents, present, Option.map_some, Option.getD_some]
  refine ⟨⟨plays.contents, plays.drops, ?_⟩, fun alone => ?_⟩
  · have before := flatMap_leave TaskPc.inHand s.tasks i pc present
    have after := flatMap_replace TaskPc.inHand s.tasks i pc next present
    simp only [Driver.replies]
    rw [List.perm_iff_count] at before after ⊢
    intro reply
    have here := congrArg (List.count reply) made
    have left := before reply
    have right := after reply
    simp only [List.count_append] at here left right ⊢
    omega
  · obtain ⟨single, rfl⟩ : s.tasks = [pc] ∧ i = 0 := by
      match tasks : s.tasks, i with
      | [], _ => simp [tasks] at present
      | [first], 0 => simpa [tasks] using present
      | [first], i + 1 => simp [tasks] at present
      | _ :: _ :: _, _ => simp [tasks] at alone
    simpa [InOrder, Driver.replies, single] using made

theorem follows_step (ch : Channels) (s t : Driver) (a : Action)
    (reached : (unitMachine ch).Reached s) (stepped : driverStep ch s a = some t) :
    Follows s (rxEvents s a) t ∧ (s.tasks.length ≤ 1 → InOrder s (rxEvents s a) t) := by
  have plain : Follows s [] t ∧ InOrder s [] t →
      Follows s [] t ∧ (s.tasks.length ≤ 1 → InOrder s [] t) := fun both => ⟨both.1, fun _ => both.2⟩
  cases a with
  | submit r q =>
      obtain ⟨settled, rfl⟩ := submit_step ch s t r q stepped
      refine plain (follows_same s _ ?_ rfl rfl)
      have fresh : ∀ r' ∈ s.world.unit.eventList, r' ≠ r := by
        rintro r' queued rfl
        have placed : r' ∈ s.ledger.items := List.mem_map_of_mem (waiting_place s r' queued)
        rw [placed_pending ch s reached r' placed] at settled
        cases settled
      simp only [queues, Fifo.mk.injEq, true_and]
      refine List.map_congr_left fun r' queued => ?_
      rw [Function.update_of_ne (fresh r' queued)]
  | call i e =>
      obtain ⟨follows, ordered⟩ := follows_call ch s t reached i e stepped
      exact ⟨follows, fun _ => ordered⟩
  | task i e => exact follows_task ch s t reached i e stepped
  | openDevice bmCookie allocated outcome =>
      rcases open_step ch s t bmCookie allocated outcome stepped with
        rfl | ⟨_, rfl⟩ | ⟨_, _, rfl⟩ | ⟨_, _, rfl⟩
      · exact plain (follows_same _ _ rfl rfl rfl)
      · exact plain (follows_same _ _ (queues_same _ _ (fun c => by cases c <;> rfl) rfl rfl) rfl rfl)
      · refine plain (follows_same _ _ ?_ ?_ ?_)
        · exact queues_same _ _ (fun c => by cases outcome <;> cases c <;> rfl)
            (by cases outcome <;> rfl) (by cases outcome <;> rfl)
        · cases outcome <;> rfl
        · cases outcome <;> rfl
      · refine plain (follows_same _ _ ?_ ?_ ?_)
        · exact queues_same _ _ (fun c => by cases outcome <;> cases c <;> rfl)
            (by cases outcome <;> rfl) (by cases outcome <;> rfl)
        · cases outcome <;> rfl
        · cases outcome <;> rfl
  | closeDevice bmCookie =>
      obtain rfl := Option.some.inj stepped
      refine plain (follows_same _ _ ?_ ?_ ?_)
      · refine queues_same _ _ (fun c => ?_) ?_ ?_ <;>
          simp only [close, unitTaskShutdown] <;> split_ifs <;> rfl
      · simp only [close, unitTaskShutdown]
        split_ifs <;> rfl
      · simp only [Driver.replies, close, unitTaskShutdown]
        split_ifs <;> rfl
  | teardown i =>
      obtain ⟨done, rfl⟩ := teardown_step ch s t i stepped
      refine plain (follows_same _ _
        (queues_same _ _ (fun c => by cases c <;> rfl) rfl rfl) rfl ?_)
      simp only [Driver.replies, flatMap_idle TaskPc.inHand s.tasks i .drained done rfl]
      rfl
  | _ =>
      obtain rfl := Option.some.inj stepped
      exact plain (follows_same _ _ (queues_same _ _ (fun c => by cases c <;> rfl) rfl rfl) rfl rfl)

theorem follows_run (ch : Channels) (s t : Driver) (actions : List Action)
    (reached : (unitMachine ch).Reached s) (ran : (unitMachine ch).run s actions = some t) :
    Follows s ((unitMachine ch).trace rxEvents s actions) t ∧
      ((unitMachine ch).Along (fun u _ _ => u.tasks.length ≤ 1) s actions →
        InOrder s ((unitMachine ch).trace rxEvents s actions) t) := by
  induction actions generalizing s with
  | nil =>
      cases ran
      exact ⟨follows_refl _, fun _ => by simp [Machine.trace, InOrder, Fifo.run, Fifo.servedIn]⟩
  | cons a rest ih =>
      obtain ⟨u, stepped, later⟩ := (unitMachine ch).run_cons s t a rest ran
      obtain ⟨first, ordered⟩ := follows_step ch s u a reached stepped
      obtain ⟨second, orderly⟩ := ih u (.step s a u reached stepped) later
      rw [(unitMachine ch).trace_cons rxEvents s u a rest stepped]
      refine ⟨follows_trans s u t _ _ first second, fun along => ?_⟩
      obtain ⟨alone, onward⟩ := along u stepped
      exact inOrder_trans s u t _ _ first (ordered alone) (orderly onward)

theorem rxBody_onward (ch : Channels) (w : World) (v : RxLoop)
    (complete : owned (w.unit.rx.rxRing.get v.n) = true) :
    TaskPc.Onward (.rxLoop v) (rxBody ch w v).2 := by
  simp only [rxBody, fetchGroup_ring w.unit.rx v.n complete]
  split
  · exact rfl
  · simp only [offerFrame]
    split <;> exact rfl

theorem task_onward (ch : Channels) (e : TaskEnv) (w : World) (pc : TaskPc)
    (inside : pc.atGroup w.unit.rx = true) :
    ∃ v next, taskStep ch e w pc = some (v, next) ∧ pc.Onward next := by
  cases pc with
  | rxLoop l => exact ⟨_, _, rfl, rxBody_onward ch w l inside⟩
  | rxDeliver l g f r orphan => exact ⟨_, _, rfl, rfl, rfl⟩
  | rxNext l g => exact ⟨_, _, rfl, (nextDesc_n w.unit.rx l g).1⟩
  | _ => cases inside

/-- The `S2_ONEVENT` requests of the event list, in their order. -/
def eventWaiters (w : World) : List ReqId :=
  w.unit.eventList.filter fun r => !((w.asked r).command == .readOrphan)

theorem eventWaiters_spare (w : World) :
    eventWaiters w = ((queues w).spare.filter fun entry => !entry.2).map Prod.fst := by
  simp only [eventWaiters, queues, List.filter_map, List.map_map, Function.comp_def, List.map_id']

theorem rxLoop_waiters (ch : Channels) (e : TaskEnv) (w v : World) (l : RxLoop) (next : TaskPc)
    (queued : ∀ r ∈ w.unit.eventList, Stage.waiting.promise (w.asked r, w.reqs r))
    (stepped : taskStep ch e w (.rxLoop l) = some (v, next)) : eventWaiters v = eventWaiters w := by
  have contents := (plays_task ch e w v (.rxLoop l) next queued stepped).contents
  rw [eventWaiters_spare, eventWaiters_spare, ← contents]
  simp only [taskEvents]
  cases owned (w.unit.rx.rxRing.get l.n) with
  | false => rfl
  | true =>
      simp only [if_true, Fifo.run_one, groupEvent]
      split
      · rw [Fifo.step, Fifo.offer_waiters]
      · rfl

/-- In every run `ProcessRX` answers the reads that queues of the frames' types, with the orphan
reads behind them, give the valid frames to; each frame that gets nobody and each invalid group
counts once as dropped. With one unit task the replies are in ring order, and no group stops the
loop. -/
theorem replies_are_fifo (ch : Channels) (s t : Driver) (actions : List Action)
    (reached : (unitMachine ch).Reached s) (ran : (unitMachine ch).run s actions = some t) :
    Follows s ((unitMachine ch).trace rxEvents s actions) t ∧
    ((unitMachine ch).Along (fun u _ _ => u.tasks.length ≤ 1) s actions →
      InOrder s ((unitMachine ch).trace rxEvents s actions) t) ∧
    ∀ i e pc, t.tasks[i]? = some pc → pc.atGroup t.world.unit.rx = true →
      ∃ u next, driverStep ch t (.task i e) = some u ∧ u.tasks[i]? = some next ∧
        pc.Onward next ∧ (∀ v, pc = .rxLoop v → eventWaiters u.world = eventWaiters t.world) := by
  obtain ⟨follows, ordered⟩ := follows_run ch s t actions reached ran
  refine ⟨follows, ordered, fun i e pc present inside => ?_⟩
  have later := (unitMachine ch).run_reached s t actions reached ran
  obtain ⟨w, next, stepped, onward⟩ := task_onward ch e t.world pc inside
  refine ⟨{ t with world := w, tasks := t.tasks.set i next }, next, ?_, ?_, onward, ?_⟩
  · simp only [driverStep, present, stepped]
    rfl
  · exact List.getElem?_set_self (List.getElem?_eq_some_iff.mp present).1
  · rintro v rfl
    exact rxLoop_waiters ch e t.world w v next (queued_promise ch t later) stepped

/-- A read, an orphan read behind an `S2_ONEVENT` request and two complete groups: an IPv4 frame
and one with a CRC error. -/
def mixedRing : List Action :=
  sessionUp ++ submitted 2 (request .onEvent 0#32 0 8#32) ++
    submitted 3 (request .readOrphan 0#32 0x500 0#32) ++
    [.dma (writeGroup (writeGroup (Ring.fill rxRingSize 0#64) 0
        ⟨xctMacrxO ||| 0x4000000000#64, 0x1000000#64, 0x10000#64, 0#64⟩) 4
        ⟨xctMacrxO ||| xctMacrxCrc, 0x1000000#64, 0x10000#64, 0#64⟩)
      (fun a => if a = 65548 then 0x08 else 0),
    .signal ⟨false, true, false⟩] ++ List.replicate 8 (.task 0 taskEnv)

/-- The orphan read gets the first frame, the second counts as dropped, and the request for an
event stays. -/
theorem replies_are_fifo_mixed :
    ∃ t, (unitMachine ⟨0, 0, 0⟩).run coldDriver mixedRing = some t ∧
      Follows coldDriver ((unitMachine ⟨0, 0, 0⟩).trace rxEvents coldDriver mixedRing) t ∧
      (deliveries t.world).map (fun reply => (reply.1, reply.2.1)) = [(3, true)] ∧
      t.world.unit.rx.statRxDropped = 1#32 ∧ t.world.unit.eventList = [2] := by
  obtain ⟨t, ran, shape⟩ := Option.map_eq_some_iff.mp
    (show ((unitMachine ⟨0, 0, 0⟩).run coldDriver mixedRing).map (fun t =>
        ((deliveries t.world).map (fun reply => (reply.1, reply.2.1)),
          t.world.unit.rx.statRxDropped, t.world.unit.eventList)) =
        some ([(3, true)], 1#32, [2]) by decide +kernel)
  obtain ⟨made, dropped, events⟩ : _ ∧ _ ∧ _ := by simpa using shape
  exact ⟨t, ran,
    (replies_are_fifo ⟨0, 0, 0⟩ coldDriver t mixedRing (.start _ coldDriver_cold) ran).1,
    by simpa using made, dropped, events⟩

end Pa6tEth

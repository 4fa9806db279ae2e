import Pa6tEth.Driver

/-! Every step of a call or of a unit task is a handover of requests between places. -/

namespace Pa6tEth

open Support World

/-- The request takes frames of this kind: an orphan read any, a `CMD_READ` those of its list. -/
def SameKind (asked : IOSana2Req) (d : Delivery) : Prop :=
  if d.orphan then asked.command = .readOrphan
  else asked.command = .cmdRead ∧
    readClass (asked.packetType.setWidth 16) = readClass d.frame.etherType

def Via.Fair (r : ReqId) (asked done : IOSana2Req) : Via → Prop
  | .processRX d => (ReceivedData r asked done d ↔ Deliverable asked d) ∧ SameKind asked d
  | _ => True

def Answer.Fair : ReqId × Answer → Prop
  | (_, .returned _ done) => done.quick = true
  | (r, .replied via asked done) => done.quick = false ∧ via.Fair r asked done

/-- A reply is sent without the quick bit, and a request that just returns still has it. -/
def Answer.QuickRight : Answer → Prop
  | .returned _ done => done.quick = true
  | .replied _ _ done => done.quick = false

theorem fair_quick (answer : ReqId × Answer) (fair : Answer.Fair answer) :
    answer.2.QuickRight := by
  obtain ⟨r, answer⟩ := answer
  cases answer with
  | returned asked done => exact fair
  | replied via asked done => exact fair.1

def HandedOver (w : World) (before : List (ReqId × Stage)) (w' : World)
    (after : List (ReqId × Stage)) : Prop :=
  Handover Stage.promise Answer.Fair (w.ledger before) (w'.ledger after)

theorem handedOver_refl (w : World) (places : List (ReqId × Stage)) :
    HandedOver w places w places := handover_refl _ _ _

theorem handedOver_beside (w v x : World) (before after others left : List (ReqId × Stage))
    (first : HandedOver w before v after) (second : HandedOver v others x left) :
    HandedOver w (before ++ others) x (after ++ left) :=
  handover_beside _ _ (w.ledger before) (v.ledger after) (x.ledger left) others first second

theorem handedOver_frame (w v : World) (before after front back others : List (ReqId × Stage))
    (first : front.Perm (before ++ others)) (last : back.Perm (after ++ others))
    (handed : HandedOver w before v after) : HandedOver w front v back :=
  handover_frame _ _ (w.ledger before) (v.ledger after) front back others first last handed

theorem handedOver_setReq (w : World) (r : ReqId) (q : IOSana2Req) (a b : Stage)
    (passed : a.promise (w.asked r, w.reqs r) → b.promise (w.asked r, q)) :
    HandedOver w [(r, a)] (w.setReq r q) [(r, b)] := by
  refine ⟨[], by simp [Ledger.items, ledger], rfl, rfl, ?_, ?_⟩
  · intro x absent
    have other : x ≠ r := by simpa [Ledger.items, ledger] using absent
    simp only [ledger, setReq, Function.update_of_ne other]
  · intro _ promised
    have now := passed (promised (r, a) (by simp [ledger]))
    refine ⟨?_, by simp⟩
    intro p member
    obtain rfl : p = (r, b) := by simpa [ledger] using member
    simpa only [ledger, setReq, Function.update_self] using now

theorem handedOver_restage (w : World) (r : ReqId) (a b : Stage)
    (passed : a.promise (w.asked r, w.reqs r) → b.promise (w.asked r, w.reqs r)) :
    HandedOver w [(r, a)] w [(r, b)] := by
  have moved := handedOver_setReq w r (w.reqs r) a b passed
  rwa [setReq, Function.update_eq_self] at moved

theorem handedOver_answer (w v : World) (r : ReqId) (q : IOSana2Req) (a : Stage)
    (answer : Answer) (fair : a.promise (w.asked r, w.reqs r) → Answer.Fair (r, answer))
    (rewritten : v.reqs = Function.update w.reqs r q)
    (answered : v.answers = (r, answer) :: w.answers)
    (same : v.submitted = w.submitted ∧ v.asked = w.asked) :
    HandedOver w [(r, a)] v [] := by
  refine ⟨[(r, answer)], by simp [Ledger.items, ledger], same.1, answered, ?_, ?_⟩
  · intro x absent
    have other : x ≠ r := by simpa [Ledger.items, ledger] using absent
    simp only [ledger, same.2, rewritten, Function.update_of_ne other]
  · intro _ promised
    have now := fair (promised (r, a) (by simp [ledger]))
    exact ⟨by simp [Ledger.Promised, ledger], by simpa using now⟩

theorem handedOver_replyMsg (w : World) (r : ReqId) (q : IOSana2Req) (via : Via) (a : Stage)
    (fair : a.promise (w.asked r, w.reqs r) → q.quick = false ∧ via.Fair r (w.asked r) q) :
    HandedOver w [(r, a)] (w.replyMsg r q via) [] :=
  handedOver_answer w _ r q a (.replied via (w.asked r) q) fair rfl rfl ⟨rfl, rfl⟩

theorem handedOver_replyIoreq (w : World) (r : ReqId) (err : IoError) (werr : BitVec 32)
    (a : Stage) : HandedOver w [(r, a)] (w.replyIoreq r err werr) [] := by
  simp only [replyIoreq]
  split
  · rename_i quick
    exact handedOver_answer w _ r _ a (.returned (w.asked r) _) (fun _ => quick) rfl rfl
      ⟨rfl, rfl⟩
  · rename_i clear
    exact handedOver_replyMsg w r _ .beginIo a fun _ => ⟨by simpa using clear, trivial⟩

theorem sweep_frame {View : Type} (view : World → View) (picked : IOSana2Req → Bool)
    (answer : IOSana2Req → IOSana2Req) (via : Via) (ids : List ReqId) (w : World)
    (kept : ∀ w r, view (w.replyMsg r (answer (w.reqs r)) via) = view w) :
    view (sweep picked answer via ids w).1 = view w := by
  induction ids generalizing w with
  | nil => rfl
  | cons r rest ih =>
      simp only [sweep]
      split
      · exact (ih _).trans (kept w r)
      · exact ih w

theorem sweep_unit (picked : IOSana2Req → Bool) (answer : IOSana2Req → IOSana2Req) (via : Via)
    (ids : List ReqId) (w : World) : (sweep picked answer via ids w).1.unit = w.unit :=
  sweep_frame (fun w => w.unit) picked answer via ids w fun _ _ => rfl

theorem handedOver_sweep (picked : IOSana2Req → Bool) (answer : IOSana2Req → IOSana2Req)
    (via : Via) (ids : List ReqId) (w : World) (quick : ∀ q, (answer q).quick = q.quick)
    (plain : ∀ r asked done, via.Fair r asked done) :
    HandedOver w (eventPlaces ids) (sweep picked answer via ids w).1
      (eventPlaces (sweep picked answer via ids w).2) := by
  induction ids generalizing w with
  | nil => exact handedOver_refl w []
  | cons r rest ih =>
      simp only [sweep]
      split
      · have first := handedOver_replyMsg w r (answer (w.reqs r)) via .waiting
          fun promised => ⟨(quick _).trans promised.1, plain _ _ _⟩
        exact handedOver_beside w _ _ [(r, .waiting)] [] _ _ first (ih _)
      · exact handedOver_beside w w _ [(r, .waiting)] [(r, .waiting)] _ _
          (handedOver_refl w _) (ih w)

theorem flushReadList_frame {View : Type} (view : World → View) (error : IoError)
    (list : List PendingRead) (w : World)
    (kept : ∀ (w : World) (pr : PendingRead),
      view ({ w with freed := pr.node :: w.freed }.replyMsg pr.ioreq
        (flushed error (w.reqs pr.ioreq)) .flush) = view w) :
    view (flushReadList error list w) = view w := by
  induction list generalizing w with
  | nil => rfl
  | cons pr rest ih =>
      rw [flushReadList, ih]
      exact kept w pr

theorem flushReadList_unit (error : IoError) (list : List PendingRead) (w : World) :
    (flushReadList error list w).unit = w.unit :=
  flushReadList_frame (fun w => w.unit) error list w fun _ _ => rfl

theorem handedOver_flushReadList (error : IoError) (c : ReadClass) (list : List PendingRead)
    (w : World) :
    HandedOver w (readPlaces list c) (flushReadList error list w) [] := by
  induction list generalizing w with
  | nil => exact handedOver_refl w []
  | cons pr rest ih =>
      have first := handedOver_replyMsg { w with freed := pr.node :: w.freed } pr.ioreq
        (flushed error (w.reqs pr.ioreq)) .flush (.reading c) fun promised => ⟨promised.1, trivial⟩
      exact handedOver_beside w _ _ [(pr.ioreq, .reading c)] [] _ [] first (ih _)

theorem stored_reads (u : PA6TEthUnit) (c : ReadClass) (list : List PendingRead) :
    (stored (u.setReadList list c)).Perm
      (readPlaces list c ++ stored (u.setReadList [] c)) := by
  cases c with
  | ipv4 => exact List.Perm.refl _
  | arp => exact List.perm_append_comm_assoc _ _ _
  | other =>
      exact ((List.perm_append_comm_assoc _ _ _).append_left _).trans
        (List.perm_append_comm_assoc _ _ _)

theorem stored_events (u : PA6TEthUnit) (list : List ReqId) :
    (stored { u with eventList := list }).Perm
      (eventPlaces list ++ stored { u with eventList := [] }) := by
  rw [List.perm_iff_count]
  intro p
  simp only [stored, List.count_append, eventPlaces, List.map_nil, List.count_nil]
  omega

theorem stored_port (u : PA6TEthUnit) (port : List ReqId) :
    (stored { u with ioPort := some port }).Perm
      (portPlaces (some port) ++ stored { u with ioPort := none }) := by
  rw [List.perm_iff_count]
  intro p
  simp only [stored, List.count_append, portPlaces, Option.getD_none, List.map_nil,
    List.count_nil]
  omega

theorem setReadList_same (u : PA6TEthUnit) (c : ReadClass) : u.setReadList (u.readList c) c = u := by
  cases c <;> rfl

theorem stored_addRead (u : PA6TEthUnit) (c : ReadClass) (pr : PendingRead) :
    (stored (u.setReadList (u.readList c ++ [pr]) c)).Perm
      ((pr.ioreq, .reading c) :: stored u) := by
  have before := stored_reads u c (u.readList c)
  rw [setReadList_same] at before
  have moved : (readPlaces (u.readList c ++ [pr]) c).Perm
      ([(pr.ioreq, .reading c)] ++ readPlaces (u.readList c) c) :=
    (List.perm_append_singleton pr _).map _
  exact part_moved _ _ _ _ _ _ before (stored_reads u c _) moved

theorem stored_takeRead (u : PA6TEthUnit) (c : ReadClass) (pr : PendingRead)
    (rest : List PendingRead) (taken : (u.readList c).Perm (pr :: rest)) :
    (stored u).Perm ((pr.ioreq, .reading c) :: stored (u.setReadList rest c)) := by
  have before := stored_reads u c (u.readList c)
  rw [setReadList_same] at before
  have moved : (readPlaces (u.readList c) c).Perm
      ([(pr.ioreq, .reading c)] ++ readPlaces rest c) := taken.map _
  exact part_moved _ _ _ _ _ _ (stored_reads u c rest) before moved

theorem stored_addEvent (u : PA6TEthUnit) (r : ReqId) :
    (stored { u with eventList := u.eventList ++ [r] }).Perm ((r, .waiting) :: stored u) := by
  have moved : (eventPlaces (u.eventList ++ [r])).Perm
      ([(r, .waiting)] ++ eventPlaces u.eventList) := (List.perm_append_singleton r _).map _
  exact part_moved _ _ _ _ _ _ (stored_events u u.eventList) (stored_events u _) moved

theorem stored_takeEvent (u : PA6TEthUnit) (r : ReqId) (rest : List ReqId)
    (taken : u.eventList.Perm (r :: rest)) :
    (stored u).Perm ((r, .waiting) :: stored { u with eventList := rest }) := by
  have moved : (eventPlaces u.eventList).Perm ([(r, .waiting)] ++ eventPlaces rest) := taken.map _
  exact part_moved _ _ _ _ _ _ (stored_events u rest) (stored_events u u.eventList) moved

theorem stored_addPort (u : PA6TEthUnit) (port : List ReqId) (r : ReqId)
    (present : u.ioPort = some port) :
    (stored { u with ioPort := some (port ++ [r]) }).Perm ((r, .clear) :: stored u) := by
  have same : { u with ioPort := some port } = u := by rw [← present]
  have before := stored_port u port
  rw [same] at before
  have moved : (portPlaces (some (port ++ [r]))).Perm ([(r, .clear)] ++ portPlaces (some port)) :=
    (List.perm_append_singleton r port).map _
  exact part_moved _ _ _ _ _ _ before (stored_port u _) moved

theorem stored_takePort (u : PA6TEthUnit) (port rest : List ReqId) (r : ReqId)
    (present : u.ioPort = some port) (taken : port.Perm (r :: rest)) :
    (stored u).Perm ((r, .clear) :: stored { u with ioPort := some rest }) := by
  have same : { u with ioPort := some port } = u := by rw [← present]
  have before := stored_port u port
  rw [same] at before
  have moved : (portPlaces (some port)).Perm ([(r, .clear)] ++ portPlaces (some rest)) :=
    taken.map _
  exact part_moved _ _ _ _ _ _ (stored_port u rest) before moved

theorem handedOver_trans (w v x : World) (before between after : List (ReqId × Stage))
    (first : HandedOver w before v between) (second : HandedOver v between x after) :
    HandedOver w before x after :=
  handover_trans _ _ (w.ledger before) (v.ledger between) (x.ledger after) first second

theorem flushRead_unit (error : IoError) (c : ReadClass) (w : World) :
    (flushRead error c w).unit = w.unit.setReadList [] c := by
  simp only [flushRead, flushReadList_unit]

theorem handedOver_flushRead (error : IoError) (c : ReadClass) (w : World) :
    HandedOver w (stored w.unit) (flushRead error c w) (stored (flushRead error c w).unit) := by
  have before := stored_reads w.unit c (w.unit.readList c)
  rw [setReadList_same] at before
  rw [flushRead_unit]
  exact handedOver_frame w (flushRead error c w) _ [] _ _ _ before (List.Perm.refl _)
    (handedOver_flushReadList error c (w.unit.readList c) w)

theorem sweepEvents_unit (picked : IOSana2Req → Bool) (answer : IOSana2Req → IOSana2Req)
    (via : Via) (w : World) :
    (sweepEvents picked answer via w).unit =
      { w.unit with eventList := (sweep picked answer via w.unit.eventList w).2 } := by
  simp only [sweepEvents, sweep_unit]

theorem handedOver_sweepEvents (picked : IOSana2Req → Bool) (answer : IOSana2Req → IOSana2Req)
    (via : Via) (w : World) (quick : ∀ q, (answer q).quick = q.quick)
    (plain : ∀ r asked done, via.Fair r asked done) :
    HandedOver w (stored w.unit) (sweepEvents picked answer via w)
      (stored (sweepEvents picked answer via w).unit) := by
  rw [sweepEvents_unit]
  exact handedOver_frame w (sweepEvents picked answer via w) _ _ _ _ _
    (stored_events w.unit w.unit.eventList) (stored_events w.unit _)
    (handedOver_sweep picked answer via w.unit.eventList w quick plain)

theorem handedOver_flushReadQueue (error : IoError) (w : World) :
    HandedOver w (stored w.unit) (w.flushReadQueue error)
      (stored (w.flushReadQueue error).unit) := by
  have ipv4 := handedOver_flushRead error .ipv4 w
  have arp := handedOver_flushRead error .arp (flushRead error .ipv4 w)
  have other := handedOver_flushRead error .other (flushRead error .arp (flushRead error .ipv4 w))
  have orphans := handedOver_sweepEvents (fun q => q.command = .readOrphan) (flushed error) .flush
    (flushRead error .other (flushRead error .arp (flushRead error .ipv4 w))) (fun _ => rfl)
    fun _ _ _ => trivial
  exact handedOver_trans _ _ _ _ _ _ ipv4
    (handedOver_trans _ _ _ _ _ _ arp (handedOver_trans _ _ _ _ _ _ other orphans))

theorem handedOver_flushRemaining (w : World) :
    HandedOver w (stored w.unit) w.flushRemaining (stored w.flushRemaining.unit) :=
  handedOver_sweepEvents _ _ _ w (fun _ => rfl) fun _ _ _ => trivial

theorem handedOver_signalEvent (mask : BitVec 32) (w : World) :
    HandedOver w (stored w.unit) (w.signalEvent mask) (stored (w.signalEvent mask).unit) :=
  handedOver_sweepEvents _ _ _ w (fun _ => rfl) fun _ _ _ => trivial

theorem loose_handover (w : World) (r : ReqId) (q : IOSana2Req) :
    HandedOver w [(r, .called)] (w.setReq r q) [(r, .loose)] :=
  handedOver_setReq w r q .called .loose fun _ => trivial

theorem clear_handover (w : World) (r : ReqId) (q : IOSana2Req) :
    HandedOver w [(r, .called)] (w.setReq r q.clearQuick) [(r, .clear)] :=
  handedOver_setReq w r _ .called .clear fun _ => IOSana2Req.quick_clearQuick q

theorem beginIo_handover (e : CallEnv) (w : World) (r : ReqId) :
    HandedOver w [(r, .called)] (beginIo e w r).1 (beginIo e w r).2.claim := by
  cases command : (w.reqs r).command with
  | cmdRead =>
      simp only [beginIo, command]
      split
      · exact loose_handover w r _
      · split
        · exact loose_handover w r _
        · split
          · exact loose_handover w r _
          · refine handedOver_setReq w r _ .called (.reading _) fun called => ?_
            simp only [Stage.promise] at called ⊢
            rw [← called]
            exact ⟨IOSana2Req.quick_clearQuick _, rfl, command, rfl, rfl, rfl, rfl⟩
  | readOrphan =>
      simp only [beginIo, command]
      split
      · exact loose_handover w r _
      · refine handedOver_setReq w r _ .called .waiting fun called => ?_
        simp only [Stage.promise] at called ⊢
        rw [← called]
        exact ⟨IOSana2Req.quick_clearQuick _, rfl, rfl, command.symm, .inr ⟨command, rfl, rfl⟩⟩
  | onEvent =>
      simp only [beginIo, command]
      refine handedOver_setReq w r _ .called .waiting fun called => ?_
      simp only [Stage.promise] at called ⊢
      rw [← called]
      exact ⟨IOSana2Req.quick_clearQuick _, rfl, rfl, command.symm, .inl command⟩
  | configInterface =>
      simp only [beginIo, command]
      exact clear_handover w r _
  | cmdFlush =>
      simp only [beginIo, command]
      exact clear_handover w r _
  | online =>
      simp only [beginIo, command]
      split
      · exact loose_handover w r _
      · exact clear_handover w r _
  | offline =>
      simp only [beginIo, command]
      split
      · exact loose_handover w r _
      · exact clear_handover w r _
  | _ =>
      simp only [beginIo, command]
      repeat' split
      all_goals exact loose_handover w r _

/-- Before its first section `BeginIO` changes its request only, and may install a hook or report
the counters. -/
theorem beginIo_frame (e : CallEnv) (w : World) (r : ReqId) :
    ∃ q openers reports, (beginIo e w r).1 =
      { w.setReq r q with
        unit := { w.unit with openerList := openers }
        reports := reports } := by
  cases command : (w.reqs r).command with
  | sana2Hook =>
      simp only [beginIo, command]
      split
      · exact ⟨_, w.unit.openerList, w.reports, rfl⟩
      · exact ⟨_, _, w.reports, rfl⟩
  | getGlobalStats =>
      simp only [beginIo, command]
      split
      · exact ⟨_, w.unit.openerList, w.reports, rfl⟩
      · exact ⟨_, w.unit.openerList, _, rfl⟩
  | _ =>
      simp only [beginIo, command]
      repeat' split
      all_goals exact ⟨_, w.unit.openerList, w.reports, rfl⟩

theorem perm_eraseP {Item : Type} (picked : Item → Bool) (list : List Item) (item : Item)
    (found : list.find? picked = some item) : list.Perm (item :: list.eraseP picked) := by
  induction list with
  | nil => cases found
  | cons head rest ih =>
      by_cases first : picked head = true
      · rw [List.find?_cons_of_pos first] at found
        obtain rfl := Option.some.inj found
        rw [List.eraseP_cons_of_pos first]
      · rw [List.find?_cons_of_neg first] at found
        rw [List.eraseP_cons_of_neg first]
        exact ((ih found).cons head).trans (List.Perm.swap _ _ _)

theorem findRead_found (u : PA6TEthUnit) (r : ReqId) (c : ReadClass) (pr : PendingRead)
    (found : findRead u r = some (c, pr)) :
    (u.readList c).find? (fun pr => pr.ioreq == r) = some pr := by
  simp only [findRead] at found
  split at found
  · rename_i first
    obtain ⟨rfl, rfl⟩ := Prod.mk.inj (Option.some.inj found)
    exact first
  · split at found
    · rename_i second
      obtain ⟨rfl, rfl⟩ := Prod.mk.inj (Option.some.inj found)
      exact second
    · obtain ⟨third, last, same⟩ := Option.map_eq_some_iff.mp found
      obtain ⟨rfl, rfl⟩ := Prod.mk.inj same
      exact last

def claimOf (c : Option Call) : List (ReqId × Stage) := (c.map Call.claim).getD []

theorem call_handover (ch : Channels) (e : CallEnv) (w v : World) (c : Call) (next : Option Call)
    (stepped : callStep ch e w c = some (v, next)) :
    HandedOver w (c.claim ++ stored w.unit) v (claimOf next ++ stored v.unit) := by
  cases c with
  | beginIo r =>
      obtain ⟨rfl, rfl⟩ := Prod.mk.inj (Option.some.inj stepped)
      obtain ⟨q, openers, reports, same⟩ := beginIo_frame e w r
      refine handedOver_frame w _ _ _ _ _ (stored w.unit) (List.Perm.refl _) ?_
        (beginIo_handover e w r)
      rw [same]
      exact List.Perm.refl _
  | replying r err werr sent =>
      obtain ⟨rfl, rfl⟩ := Prod.mk.inj (Option.some.inj stepped)
      have unit : (w.replyIoreq r err werr).unit = w.unit := by
        simp only [replyIoreq]
        split <;> rfl
      rw [unit]
      refine handedOver_frame w _ _ [] _ _ (stored w.unit) (List.Perm.refl _) ?_
        (handedOver_replyIoreq w r err werr .loose)
      cases sent <;> exact List.Perm.refl _
  | queueing r =>
      obtain ⟨w', put, same⟩ := Option.map_eq_some_iff.mp stepped
      obtain ⟨rfl, rfl⟩ := Prod.mk.inj same
      obtain ⟨port, present, rfl⟩ := Option.map_eq_some_iff.mp put
      exact handedOver_frame w _ [(r, .clear)] [(r, .clear)] _ _ (stored w.unit)
        (List.Perm.refl _) (stored_addPort w.unit port r present) (handedOver_refl w _)
  | addingRead pr c =>
      obtain ⟨rfl, rfl⟩ := Prod.mk.inj (Option.some.inj stepped)
      exact handedOver_frame w _ [(pr.ioreq, .reading c)] [(pr.ioreq, .reading c)] _ _
        (stored w.unit) (List.Perm.refl _) (stored_addRead w.unit c pr) (handedOver_refl w _)
  | addingEvent r =>
      obtain ⟨rfl, rfl⟩ := Prod.mk.inj (Option.some.inj stepped)
      exact handedOver_frame w _ [(r, .waiting)] [(r, .waiting)] _ _ (stored w.unit)
        (List.Perm.refl _) (stored_addEvent w.unit r) (handedOver_refl w _)
  | transmitting r =>
      have hold : ∀ q, HandedOver w [(r, .loose)] (w.setReq r q) [(r, .loose)] := fun q =>
        handedOver_setReq w r q .loose .loose fun _ => trivial
      simp only [callStep] at stepped
      split at stepped
      · obtain ⟨rfl, rfl⟩ := Prod.mk.inj (Option.some.inj stepped)
        exact handedOver_frame w _ _ _ _ _ (stored w.unit) (List.Perm.refl _)
          (List.Perm.refl _) (hold _)
      · obtain ⟨rfl, rfl⟩ := Prod.mk.inj (Option.some.inj stepped)
        exact handedOver_frame w _ _ _ _ _ (stored w.unit) (List.Perm.refl _)
          (List.Perm.refl _) (hold _)
  | submitting r f =>
      obtain ⟨rfl, rfl⟩ := Prod.mk.inj (Option.some.inj stepped)
      exact handedOver_refl w _
  | signalling =>
      obtain ⟨rfl, rfl⟩ := Prod.mk.inj (Option.some.inj stepped)
      exact handedOver_refl w _
  | abortReads r =>
      simp only [callStep] at stepped
      split at stepped
      · obtain ⟨rfl, rfl⟩ := Prod.mk.inj (Option.some.inj stepped)
        exact handedOver_refl w _
      · rename_i c pr found
        obtain ⟨rfl, rfl⟩ := Prod.mk.inj (Option.some.inj stepped)
        have first := findRead_found w.unit r c pr found
        obtain rfl : pr.ioreq = r := by simpa using List.find?_some first
        have taken := stored_takeRead w.unit c pr _ (perm_eraseP _ _ pr first)
        exact handedOver_frame w _ [(pr.ioreq, .reading c)] [(pr.ioreq, .clear)] _ _ _ taken
          (List.Perm.refl _)
          (handedOver_restage w pr.ioreq (.reading c) .clear fun promised => promised.1)
  | abortEvents r =>
      simp only [callStep] at stepped
      split at stepped
      · rename_i member
        obtain ⟨rfl, rfl⟩ := Prod.mk.inj (Option.some.inj stepped)
        have taken := stored_takeEvent w.unit r _ (List.perm_cons_erase member)
        exact handedOver_frame w _ [(r, .waiting)] [(r, .clear)] _ _ _ taken (List.Perm.refl _)
          (handedOver_restage w r .waiting .clear fun promised => promised.1)
      · obtain ⟨rfl, rfl⟩ := Prod.mk.inj (Option.some.inj stepped)
        exact handedOver_refl w _
  | abortPort r =>
      simp only [callStep] at stepped
      split at stepped
      · obtain ⟨rfl, rfl⟩ := Prod.mk.inj (Option.some.inj stepped)
        exact handedOver_refl w _
      · rename_i port present
        split at stepped
        · rename_i member
          obtain ⟨rfl, rfl⟩ := Prod.mk.inj (Option.some.inj stepped)
          have taken := stored_takePort w.unit port _ r present (List.perm_cons_erase member)
          exact handedOver_frame w _ [(r, .clear)] [(r, .clear)] _ _ _ taken (List.Perm.refl _)
            (handedOver_refl w _)
        · obtain ⟨rfl, rfl⟩ := Prod.mk.inj (Option.some.inj stepped)
          exact handedOver_refl w _
  | abortReply r =>
      obtain ⟨rfl, rfl⟩ := Prod.mk.inj (Option.some.inj stepped)
      exact handedOver_frame w _ _ [] _ _ (stored w.unit) (List.Perm.refl _) (List.Perm.refl _)
        (handedOver_replyMsg w r _ .abortIo .clear fun clear => ⟨clear, trivial⟩)

theorem fillRequest_quick (mem : Addr → UInt8) (f : RxFrame) (q : IOSana2Req) :
    (fillRequest mem f q).quick = q.quick := by
  have none := IOSana2Req.quick_cast q 0#8 (.inl rfl)
  have broad := IOSana2Req.quick_cast q sana2iofBcast (.inr (.inl rfl))
  have multi := IOSana2Req.quick_cast q sana2iofMcast (.inr (.inr rfl))
  simp only [IOSana2Req.quick, BitVec.or_zero] at none broad multi
  simp only [IOSana2Req.quick, fillRequest, castFlags]
  split_ifs
  · exact broad
  · exact multi
  · exact none

theorem deliver_quick (orphan hookOk : Bool) (u : PA6TEthUnit) (mem : Addr → UInt8) (r : ReqId)
    (f : RxFrame) (q : IOSana2Req) : (deliver orphan hookOk u mem r f q).1.quick = q.quick := by
  have filled := fillRequest_quick mem f q
  have typed := fillRequest_quick mem f { q with packetType := f.etherType.setWidth 32 }
  cases orphan with
  | false =>
      simp only [deliver, Bool.false_eq_true, if_false, deliverRead]
      repeat' split
      all_goals exact filled
  | true =>
      simp only [deliver, if_true, deliverOrphan]
      repeat' split
      all_goals exact typed

theorem stored_rx (u : PA6TEthUnit) (rx : UnitRx) (list : List PendingRead) (c : ReadClass) :
    stored ({ u with rx := rx }.setReadList list c) = stored (u.setReadList list c) := by
  cases c <;> rfl

theorem offer_handover (w : World) (v : RxLoop) (g : RxGroup) (f : RxFrame) :
    HandedOver w (stored w.unit) (offerFrame w v g f).1
      ((offerFrame w v g f).2.claim ++ stored (offerFrame w v g f).1.unit) := by
  simp only [offerFrame]
  split
  · rename_i pr rest taken
    have head := takeReader_read _ _ _ _ _ taken
    have places := stored_takeRead w.unit _ pr rest (by rw [head])
    simp only [stored_rx, TaskPc.claim, Bool.false_eq_true, if_false]
    exact handedOver_frame w _ [(pr.ioreq, _)] [(pr.ioreq, _)] _ _ _ places (List.Perm.refl _)
      (handedOver_refl w _)
  · rename_i r rest taken
    have found := takeReader_orphan _ _ _ _ _ taken
    have orphan : (w.reqs r).command = .readOrphan := by
      simpa using List.find?_some found.1
    have taken := perm_eraseP _ _ r found.1
    rw [found.2] at taken
    have places := stored_takeEvent w.unit r rest taken
    simp only [TaskPc.claim, if_true]
    refine handedOver_frame w _ [(r, .waiting)] [(r, .orphan)] _ _ _ places (List.Perm.refl _)
      (handedOver_restage w r .waiting .orphan fun promised => ?_)
    obtain ⟨quick, error, _, command, event | ⟨asked, cookie, opener⟩⟩ := promised
    · rw [← command, orphan] at event
      cases event
    · exact ⟨quick, error, asked, orphan, cookie, opener⟩
  · exact handedOver_refl w _

theorem runOp_handover (ch : Channels) (e : TaskEnv) (w : World) (op : TaskOp) :
    HandedOver w (stored w.unit) (runOp ch e w op) (stored (runOp ch e w op).unit) := by
  cases op with
  | setOnline online => exact handedOver_refl w _
  | postRxBuffers => exact handedOver_refl w _
  | flushReadQueue error => exact handedOver_flushReadQueue error w
  | signalEvent mask => exact handedOver_signalEvent mask w

theorem task_handover (ch : Channels) (e : TaskEnv) (w v : World) (pc next : TaskPc)
    (stepped : taskStep ch e w pc = some (v, next)) :
    HandedOver w (pc.claim ++ stored w.unit) v (next.claim ++ stored v.unit) := by
  cases pc with
  | loopHead =>
      obtain ⟨rfl, rfl⟩ := Prod.mk.inj (Option.some.inj stepped)
      split <;> exact handedOver_refl w _
  | waiting =>
      simp only [taskStep] at stepped
      split at stepped
      · obtain ⟨rfl, rfl⟩ := Prod.mk.inj (Option.some.inj stepped)
        exact handedOver_refl w _
      · cases stepped
  | woken =>
      obtain ⟨rfl, rfl⟩ := Prod.mk.inj (Option.some.inj stepped)
      split <;> exact handedOver_refl w _
  | draining | exitDrain =>
      simp only [taskStep] at stepped
      split at stepped
      · cases stepped
      · obtain ⟨rfl, rfl⟩ := Prod.mk.inj (Option.some.inj stepped)
        exact handedOver_refl w _
      · rename_i r rest present
        obtain ⟨rfl, rfl⟩ := Prod.mk.inj (Option.some.inj stepped)
        exact handedOver_frame w _ [(r, .clear)] [(r, .clear)] _ _ _
          (stored_takePort w.unit _ rest r present (List.Perm.refl _)) (List.Perm.refl _)
          (handedOver_refl w _)
  | received r =>
      obtain ⟨rfl, rfl⟩ := Prod.mk.inj (Option.some.inj stepped)
      exact handedOver_refl w _
  | handling r ops fin =>
      cases ops with
      | nil =>
          obtain ⟨rfl, rfl⟩ := Prod.mk.inj (Option.some.inj stepped)
          exact handedOver_frame w _ _ [] _ _ (stored w.unit) (List.Perm.refl _)
            (List.Perm.refl _) (handedOver_replyMsg w r _ .unitTask .clear fun clear => ⟨clear, trivial⟩)
      | cons op ops =>
          obtain ⟨rfl, rfl⟩ := Prod.mk.inj (Option.some.inj stepped)
          exact handedOver_frame w _ _ _ _ _ [(r, .clear)] List.perm_append_comm
            List.perm_append_comm (runOp_handover ch e w op)
  | rxStart =>
      obtain ⟨rfl, rfl⟩ := Prod.mk.inj (Option.some.inj stepped)
      split <;> exact handedOver_refl w _
  | rxLoop v' =>
      obtain ⟨rfl, rfl⟩ := Prod.mk.inj (Option.some.inj stepped)
      split
      · exact handedOver_refl w _
      · split
        · exact handedOver_refl w _
        · exact offer_handover w v' _ _
  | rxDeliver v' g f r orphan =>
      obtain ⟨rfl, rfl⟩ := Prod.mk.inj (Option.some.inj stepped)
      refine handedOver_frame w _ _ [] _ _ (stored w.unit) (List.Perm.refl _) (List.Perm.refl _)
        (handedOver_replyMsg w r _ _ _ fun promised => ?_)
      have quick := deliver_quick orphan e.hookOk w.unit w.mem r f (w.reqs r)
      obtain ⟨kind, frame⟩ := deliver_shape orphan e.hookOk w.unit w.mem r f (w.reqs r)
      cases orphan with
      | false =>
          obtain ⟨clear, ok, asked, _, types, cookie, opener⟩ := promised
          refine ⟨quick.trans clear, deliver_received _ _ _ _ r f _ _ ok cookie opener, ?_⟩
          simp only [SameKind, kind, frame, Bool.false_eq_true, if_false]
          exact ⟨asked, types⟩
      | true =>
          obtain ⟨clear, ok, asked, _, cookie, opener⟩ := promised
          refine ⟨quick.trans clear, deliver_received _ _ _ _ r f _ _ ok cookie opener, ?_⟩
          simp only [SameKind, kind, if_true]
          exact asked
  | rxNext v' g =>
      obtain ⟨rfl, rfl⟩ := Prod.mk.inj (Option.some.inj stepped)
      exact handedOver_refl w _
  | exitReply r =>
      obtain ⟨rfl, rfl⟩ := Prod.mk.inj (Option.some.inj stepped)
      exact handedOver_frame w _ _ [] _ _ (stored w.unit) (List.Perm.refl _) (List.Perm.refl _)
        (handedOver_replyMsg w r _ .exitDrain .clear fun clear => ⟨clear, trivial⟩)
  | exitFlush =>
      obtain ⟨rfl, rfl⟩ := Prod.mk.inj (Option.some.inj stepped)
      exact handedOver_flushReadQueue .aborted w
  | exitFlushEvents =>
      obtain ⟨rfl, rfl⟩ := Prod.mk.inj (Option.some.inj stepped)
      exact handedOver_flushRemaining w
  | drained => cases stepped

end Pa6tEth

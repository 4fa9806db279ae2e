import Pa6tEth.World

/-! The delivery of one frame in `PA6TEth_ProcessRX`: to a `CMD_READ`, else to an orphan read. -/

namespace Pa6tEth

/-- The flags of a request that takes a frame with this cast field. -/
def castFlags (macrx : Word) (flags : BitVec 8) : BitVec 8 :=
  let cleared := flags &&& ~~~(sana2iofBcast ||| sana2iofMcast)
  if macrx &&& xctMacrxCastM = xctMacrxCastBroad then cleared ||| sana2iofBcast
  else if macrx &&& xctMacrxCastM = xctMacrxCastMulti then cleared ||| sana2iofMcast
  else cleared

/-- The length, the addresses and the cast flags of a frame. -/
def fillRequest (mem : Addr → UInt8) (f : RxFrame) (q : IOSana2Req) : IOSana2Req :=
  { q with
    dataLength := f.payLen
    srcAddr := byteCopy q.srcAddr (fun i => mem (f.ethFrame + 6 + i)) ethAddrLen
    dstAddr := byteCopy q.dstAddr (fun i => mem (f.ethFrame + i)) ethAddrLen
    flags := castFlags f.macrx q.flags }

/-- `CallHookPkt` with the message of `S2_CopyToBuff`. -/
def copyToBuff (hookOk : Bool) (op : Opener) (r : ReqId) (cookie : Addr) (f : RxFrame) :
    HookCall where
  hook := op.s2hook
  object := r
  msg := ⟨.copyToBuff, cookie, f.payload, f.payLen⟩
  ok := hookOk

def copyFailed (q : IOSana2Req) : IOSana2Req :=
  { q with error := .noResources, wireError := s2werrBuffError }

/-- The end of both deliveries: the cookie is put back, and a wire error goes with an error. -/
def finishDelivery (cookie : Addr) (q : IOSana2Req) : IOSana2Req :=
  { q with data := cookie, wireError := if q.error = .ok then 0#32 else q.wireError }

/-- Delivery to a `CMD_READ`. Without a cookie or an opener no hook is called and no error set. -/
def deliverRead (hookOk : Bool) (u : PA6TEthUnit) (mem : Addr → UInt8) (r : ReqId)
    (f : RxFrame) (q : IOSana2Req) : IOSana2Req × Delivery :=
  let filled := fillRequest mem f q
  let cookie := q.statData
  match u.findOpener q.bufferManagement with
  | none => (finishDelivery cookie filled, ⟨false, f, u.openerList, none⟩)
  | some op =>
      if cookie = 0 then (finishDelivery cookie filled, ⟨false, f, u.openerList, none⟩)
      else if op.s2hook ≠ 0 then
        (finishDelivery cookie (if hookOk then filled else copyFailed filled),
          ⟨false, f, u.openerList, some (copyToBuff hookOk op r cookie f)⟩)
      else (finishDelivery cookie (copyFailed filled), ⟨false, f, u.openerList, none⟩)

/-- Delivery to an `S2_READORPHAN`, which has no branch for a missing hook. -/
def deliverOrphan (hookOk : Bool) (u : PA6TEthUnit) (mem : Addr → UInt8) (r : ReqId)
    (f : RxFrame) (q : IOSana2Req) : IOSana2Req × Delivery :=
  let filled := fillRequest mem f { q with packetType := f.etherType.setWidth 32 }
  let cookie := q.statData
  match u.findOpener q.bufferManagement with
  | none => (finishDelivery cookie filled, ⟨true, f, u.openerList, none⟩)
  | some op =>
      if cookie ≠ 0 ∧ op.s2hook ≠ 0 then
        (finishDelivery cookie (if hookOk then filled else copyFailed filled),
          ⟨true, f, u.openerList, some (copyToBuff hookOk op r cookie f)⟩)
      else (finishDelivery cookie filled, ⟨true, f, u.openerList, none⟩)

def deliver (orphan hookOk : Bool) (u : PA6TEthUnit) (mem : Addr → UInt8) (r : ReqId)
    (f : RxFrame) (q : IOSana2Req) : IOSana2Req × Delivery :=
  if orphan then deliverOrphan hookOk u mem r f q else deliverRead hookOk u mem r f q

/-- What the section under `Forbid` takes for a frame. -/
inductive Taken
  | read (pr : PendingRead) (rest : List PendingRead)
  | orphan (r : ReqId) (rest : List ReqId)
  | nobody
  deriving DecidableEq, Repr

/-- The head of the frame's read list, or else the first orphan read of the event list. -/
def takeReader (reqs : ReqId → IOSana2Req) (u : PA6TEthUnit) (etherType : BitVec 16) : Taken :=
  match u.readList (readClass etherType) with
  | pr :: rest => .read pr rest
  | [] =>
      match u.eventList.find? fun r => (reqs r).command == .readOrphan with
      | some r => .orphan r (u.eventList.eraseP fun r => (reqs r).command == .readOrphan)
      | none => .nobody

theorem takeReader_read (reqs : ReqId → IOSana2Req) (u : PA6TEthUnit) (etherType : BitVec 16)
    (pr : PendingRead) (rest : List PendingRead)
    (taken : takeReader reqs u etherType = .read pr rest) :
    u.readList (readClass etherType) = pr :: rest := by
  simp only [takeReader] at taken
  split at taken
  · rename_i head tail list
    obtain ⟨rfl, rfl⟩ := Taken.read.inj taken
    exact list
  · split at taken <;> cases taken

theorem takeReader_orphan (reqs : ReqId → IOSana2Req) (u : PA6TEthUnit) (etherType : BitVec 16)
    (r : ReqId) (rest : List ReqId) (taken : takeReader reqs u etherType = .orphan r rest) :
    u.eventList.find? (fun r => (reqs r).command == .readOrphan) = some r ∧
      u.eventList.eraseP (fun r => (reqs r).command == .readOrphan) = rest := by
  simp only [takeReader] at taken
  split at taken
  · cases taken
  · split at taken
    · rename_i first
      obtain ⟨rfl, rfl⟩ := Taken.orphan.inj taken
      exact ⟨first, rfl⟩
    · cases taken

/-- With `io_Error` zero the payload of the frame went to a hook of an opener with the request's
cookie, which copied it to the client's buffer. -/
def ReceivedData (r : ReqId) (asked done : IOSana2Req) (d : Delivery) : Prop :=
  done.error = .ok →
    ∃ op call, op ∈ d.openers ∧ op.bmCookie = asked.bufferManagement ∧ op.s2hook ≠ 0 ∧
      d.hook = some call ∧ call.hook = op.s2hook ∧ call.object = r ∧
      call.msg.schmMethod = .copyToBuff ∧ call.msg.schmTo = asked.data ∧
      call.msg.schmFrom = d.frame.payload ∧ call.msg.schmSize = done.dataLength ∧ call.ok = true

/-- The client gave a cookie, its opener is still there, and an orphan read finds a hook. -/
def Deliverable (asked : IOSana2Req) (d : Delivery) : Prop :=
  asked.data ≠ 0 ∧ ∃ op, findCookie d.openers asked.bufferManagement = some op ∧
    (d.orphan = true → op.s2hook ≠ 0)

/-- A hook that failed left an error, and one that was called got the payload, the client's buffer
and the length in its message. -/
theorem copied_received (hookOk : Bool) (openers : List Opener) (op : Opener) (r : ReqId)
    (orphan : Bool) (f : RxFrame) (asked filled : IOSana2Req)
    (found : findCookie openers asked.bufferManagement = some op) (hook : op.s2hook ≠ 0)
    (len : filled.dataLength = f.payLen) :
    ReceivedData r asked
      (finishDelivery asked.data (if hookOk then filled else copyFailed filled))
      ⟨orphan, f, openers, some (copyToBuff hookOk op r asked.data f)⟩ := by
  intro ok
  obtain ⟨member, cookie⟩ := findCookie_found openers _ op found
  cases hookOk with
  | false => cases ok
  | true => exact ⟨op, _, member, cookie, hook, rfl, rfl, rfl, rfl, rfl, rfl, len.symm, rfl⟩

/-- Without a hook call the reply must carry an error, or it claims data it does not have. -/
theorem uncalled_received (r : ReqId) (asked done : IOSana2Req) (d : Delivery)
    (uncalled : d.hook = none) : ReceivedData r asked done d ↔ done.error ≠ .ok := by
  constructor
  · intro received ok
    obtain ⟨_, call, _, _, _, called, _⟩ := received ok
    rw [uncalled] at called
    cases called
  · intro failed ok
    exact absurd ok failed

theorem deliver_received (orphan hookOk : Bool) (u : PA6TEthUnit) (mem : Addr → UInt8)
    (r : ReqId) (f : RxFrame) (asked q : IOSana2Req) (clean : q.error = .ok)
    (cookie : q.statData = asked.data) (opener : q.bufferManagement = asked.bufferManagement) :
    ReceivedData r asked (deliver orphan hookOk u mem r f q).1
        (deliver orphan hookOk u mem r f q).2 ↔
      Deliverable asked (deliver orphan hookOk u mem r f q).2 := by
  have error : ∀ q' : IOSana2Req, q'.error = .ok →
      (finishDelivery asked.data (fillRequest mem f q')).error = .ok := fun _ ok => ok
  cases orphan with
  | false =>
      simp only [deliver, Bool.false_eq_true, if_false, deliverRead, cookie, opener,
        PA6TEthUnit.findOpener]
      split
      · rename_i absent
        rw [uncalled_received _ _ _ _ rfl]
        simp [Deliverable, absent, error q clean]
      · rename_i op found
        split
        · rename_i null
          rw [uncalled_received _ _ _ _ rfl]
          simp only [Deliverable, null, ne_eq, not_true_eq_false, false_and, iff_false]
          exact fun failed => failed clean
        · rename_i given
          split
          · rename_i hook
            exact iff_of_true (copied_received hookOk _ op r _ f asked _ found hook rfl)
              ⟨given, op, found, by simp⟩
          · rw [uncalled_received _ _ _ _ rfl]
            exact iff_of_true (by simp [finishDelivery, copyFailed]) ⟨given, op, found, by simp⟩
  | true =>
      simp only [deliver, if_true, deliverOrphan, cookie, opener, PA6TEthUnit.findOpener]
      split
      · rename_i absent
        rw [uncalled_received _ _ _ _ rfl]
        simp only [Deliverable, absent, reduceCtorEq, false_and, exists_false, and_false, iff_false]
        exact fun failed => failed clean
      · rename_i op found
        split
        · rename_i given
          exact iff_of_true (copied_received hookOk _ op r _ f asked _ found given.2 rfl)
            ⟨given.1, op, found, fun _ => given.2⟩
        · rename_i missing
          rw [uncalled_received _ _ _ _ rfl]
          refine iff_of_false (fun failed => failed clean) ?_
          rintro ⟨given, op', found', hook⟩
          rw [found] at found'
          obtain rfl := Option.some.inj found'
          exact missing ⟨given, hook rfl⟩

theorem deliver_shape (orphan hookOk : Bool) (u : PA6TEthUnit) (mem : Addr → UInt8)
    (r : ReqId) (f : RxFrame) (q : IOSana2Req) :
    (deliver orphan hookOk u mem r f q).2.orphan = orphan ∧
      (deliver orphan hookOk u mem r f q).2.frame = f ∧
      (deliver orphan hookOk u mem r f q).2.openers = u.openerList := by
  cases orphan with
  | false =>
      simp only [deliver, Bool.false_eq_true, if_false, deliverRead]
      repeat' split
      all_goals exact ⟨rfl, rfl, rfl⟩
  | true =>
      simp only [deliver, if_true, deliverOrphan]
      repeat' split
      all_goals exact ⟨rfl, rfl, rfl⟩

end Pa6tEth

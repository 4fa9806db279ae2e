import Pa6tEth.Delivery
import Pa6tEth.Wakeup

/-! What a client finds in the reply for a completed frame, and when the buffer goes back to the
engine. -/

namespace Pa6tEth

open Support World

/-- The group at `n` is complete and holds one whole frame: no CRC error, an eval word and a slot
map that lead to the allocated buffer `b`, the address of that buffer, and a length between header
with FCS and the size of a buffer. -/
def CompletedFrame (u : UnitRx) (n b : Nat) : Prop :=
  owned (u.rxRing.get n) = true ∧ u.rxRing.get n &&& xctMacrxCrc = 0#64 ∧
    (0 < evalOf (u.rxRing.get (n + 1)) ∧ evalOf (u.rxRing.get (n + 1)) ≤ rxRingSize) ∧
    u.rxSlotBuf (evalOf (u.rxRing.get (n + 1)) - 1) = b ∧ (b < numRxBufs ∧ u.rxBufs b ≠ 0) ∧
    ptrPhys (u.rxRing.get (n + 2)) = u.rxBufsPhys b ∧
    18 ≤ (llenOf (u.rxRing.get n)).toNat ∧ (llenOf (u.rxRing.get n)).toNat ≤ rxBufSize

instance (u : UnitRx) (n b : Nat) : Decidable (CompletedFrame u n b) :=
  inferInstanceAs (Decidable (_ ∧ _ ∧ _ ∧ _ ∧ _ ∧ _ ∧ _ ∧ _))

/-- The record of a reply for a frame with this result word and these bytes, against the record
before the delivery. -/
structure ReplyContent (macrx : Word) (bytes : Nat → UInt8) (orphan : Bool)
    (before done : IOSana2Req) : Prop where
  dst : ∀ i < 6, done.dstAddr i = bytes i
  src : ∀ i < 6, done.srcAddr i = bytes (6 + i)
  length : done.dataLength.toNat + 18 = (llenOf macrx).toNat
  bcast : done.flags &&& sana2iofBcast ≠ 0#8 ↔ macrx &&& xctMacrxCastM = xctMacrxCastBroad
  mcast : done.flags &&& sana2iofMcast ≠ 0#8 ↔ macrx &&& xctMacrxCastM = xctMacrxCastMulti
  others : done.flags &&& ~~~(sana2iofBcast ||| sana2iofMcast) =
    before.flags &&& ~~~(sana2iofBcast ||| sana2iofMcast)
  orphanType : orphan = true →
    done.packetType.toNat = 256 * (bytes 12).toNat + (bytes 13).toNat

/-- The hook is called exactly for a cookie and an opener with a hook, and it is given the bytes
14 to LLEN - 5 of the buffer as they are then. -/
structure HookContent (macrx : Word) (buf : Addr) (bytes : Nat → UInt8) (w : World) (r : ReqId)
    (asked : IOSana2Req) (hook : Option HookCall) : Prop where
  called : hook.isSome = true ↔ asked.data ≠ 0 ∧
    ∃ op, w.unit.findOpener asked.bufferManagement = some op ∧ op.s2hook ≠ 0
  given : ∀ call, hook = some call →
    (∃ op, w.unit.findOpener asked.bufferManagement = some op ∧ call.hook = op.s2hook) ∧
      call.object = r ∧ call.msg.schmMethod = .copyToBuff ∧ call.msg.schmTo = asked.data ∧
      call.msg.schmFrom = buf + 14 ∧ call.msg.schmSize.toNat + 18 = (llenOf macrx).toNat ∧
      ∀ k < call.msg.schmSize.toNat, w.mem (call.msg.schmFrom + k) = bytes (14 + k)

/-- No buffer is given back to the engine: no word posted and no credit written. -/
structure Unposted (ch : Channels) (w v : World) : Prop where
  bufRing : v.unit.rx.rxBufRing = w.unit.rx.rxBufRing
  writePtr : v.unit.rx.rxBufWritePtr = w.unit.rx.rxBufWritePtr
  slotBuf : v.unit.rx.rxSlotBuf = w.unit.rx.rxSlotBuf
  regs : ∃ new, v.regs = w.regs ++ new ∧ ∀ e : RxEngine, e.writes ch new = e

/-- The engine does not write into a buffer that it was not given back. -/
def BufferKept (buf : Addr) (s : Driver) : Action → Prop
  | .dma _ mem => ∀ k < rxBufSize, mem (buf + k) = s.world.mem (buf + k)
  | _ => True

def Action.byTask : Action → Bool
  | task _ _ => true
  | _ => false

theorem frameType_toNat (bytes : Nat → UInt8) :
    (frameType bytes).toNat = 256 * (bytes 12).toNat + (bytes 13).toNat := by
  have high : (bytes 12).toNat < 2 ^ 8 := (bytes 12).toBitVec.isLt
  have low : (bytes 13).toNat < 2 ^ 8 := (bytes 13).toBitVec.isLt
  calc
    (frameType bytes).toNat =
        ((bytes 12).toNat % 2 ^ 16) <<< 8 % 2 ^ 16 ||| (bytes 13).toNat % 2 ^ 16 := by
      simp [frameType]
    _ = (bytes 12).toNat <<< 8 ||| (bytes 13).toNat := by
      have inside : (bytes 12).toNat <<< 8 < 2 ^ 16 := by
        rw [Nat.shiftLeft_eq]
        omega
      rw [Nat.mod_eq_of_lt (show (bytes 12).toNat < 2 ^ 16 by omega), Nat.mod_eq_of_lt inside,
        Nat.mod_eq_of_lt (show (bytes 13).toNat < 2 ^ 16 by omega)]
    _ = (bytes 12).toNat <<< 8 + (bytes 13).toNat :=
      (Nat.shiftLeft_add_eq_or_of_lt low _).symm
    _ = 256 * (bytes 12).toNat + (bytes 13).toNat := by
      rw [Nat.shiftLeft_eq]
      omega

theorem completed_fetched (u : UnitRx) (n b : Nat) (completed : CompletedFrame u n b) :
    ∃ g, fetchGroup u n = some g ∧ g.macrx = u.rxRing.get n ∧ g.actualBuf = b ∧
      checkGroup u g = .ok (llenOf (u.rxRing.get n) - 4#32) := by
  obtain ⟨ready, crc, ⟨positive, inside⟩, slot, ⟨small, present⟩, ptr, long, _⟩ := completed
  have below : evalOf (u.rxRing.get (n + 1)) - 1 < rxRingSize := by omega
  refine ⟨⟨u.rxRing.get n, u.rxRing.get (n + 1), u.rxRing.get (n + 2),
    evalOf (u.rxRing.get (n + 1)) - 1, b⟩, ?_, rfl, rfl, ?_⟩
  · simp only [fetchGroup, ready, if_true, if_pos positive, if_pos below, slot]
  · have header : ¬ llenOf (u.rxRing.get n) < 4#32 := by
      simp only [BitVec.lt_def, BitVec.toNat_ofNat]
      omega
    have payload : ¬ llenOf (u.rxRing.get n) - 4#32 < ethHdrLen := by
      simp only [BitVec.lt_def, BitVec.toNat_sub, ethHdrLen, BitVec.toNat_ofNat]
      omega
    simp only [checkGroup, crc, ne_eq, not_true_eq_false, if_false, if_neg (Nat.not_le.mpr below),
      if_neg (not_or.mpr ⟨Nat.not_le.mpr small, present⟩), if_neg header, if_neg payload, ptr]

theorem payLen_toNat (llen : BitVec 32) (long : 18 ≤ llen.toNat) :
    (llen - 4#32 - ethHdrLen).toNat + 18 = llen.toNat := by
  simp only [BitVec.toNat_sub, ethHdrLen, BitVec.toNat_ofNat]
  omega

theorem castFlags_bits (macrx : Word) (flags : BitVec 8) :
    (castFlags macrx flags &&& sana2iofBcast ≠ 0#8 ↔
        macrx &&& xctMacrxCastM = xctMacrxCastBroad) ∧
      (castFlags macrx flags &&& sana2iofMcast ≠ 0#8 ↔
        macrx &&& xctMacrxCastM = xctMacrxCastMulti) ∧
      castFlags macrx flags &&& ~~~(sana2iofBcast ||| sana2iofMcast) =
        flags &&& ~~~(sana2iofBcast ||| sana2iofMcast) := by
  have cleared : ∀ kept : BitVec 8,
      (flags &&& ~~~(sana2iofBcast ||| sana2iofMcast) ||| kept) &&& sana2iofBcast =
          kept &&& sana2iofBcast ∧
        (flags &&& ~~~(sana2iofBcast ||| sana2iofMcast) ||| kept) &&& sana2iofMcast =
          kept &&& sana2iofMcast ∧
        (flags &&& ~~~(sana2iofBcast ||| sana2iofMcast) ||| kept) &&&
            ~~~(sana2iofBcast ||| sana2iofMcast) =
          flags &&& ~~~(sana2iofBcast ||| sana2iofMcast) |||
            kept &&& ~~~(sana2iofBcast ||| sana2iofMcast) := by
    intro kept
    have bcast : ~~~(sana2iofBcast ||| sana2iofMcast) &&& sana2iofBcast = 0#8 := by decide
    have mcast : ~~~(sana2iofBcast ||| sana2iofMcast) &&& sana2iofMcast = 0#8 := by decide
    simp only [BitVec.and_or_distrib_right, BitVec.and_assoc, bcast, mcast, BitVec.and_self,
      BitVec.and_zero, BitVec.zero_or, and_self]
  obtain ⟨none, none', left⟩ := cleared 0#8
  rw [BitVec.or_zero] at none none' left
  simp only [castFlags]
  by_cases broad : macrx &&& xctMacrxCastM = xctMacrxCastBroad
  · obtain ⟨bcast, mcast, others⟩ := cleared sana2iofBcast
    rw [if_pos broad, bcast, mcast, others, broad]
    exact ⟨by decide, by decide, by simp [sana2iofBcast, sana2iofMcast]⟩
  · rw [if_neg broad]
    by_cases multi : macrx &&& xctMacrxCastM = xctMacrxCastMulti
    · obtain ⟨bcast, mcast, others⟩ := cleared sana2iofMcast
      rw [if_pos multi, bcast, mcast, others, multi]
      exact ⟨by decide, by decide, by simp [sana2iofBcast, sana2iofMcast]⟩
    · rw [if_neg multi, none, none']
      exact ⟨by simp [broad], by simp [multi], by simpa using left⟩

theorem deliver_filled (orphan hookOk : Bool) (u : PA6TEthUnit) (mem : Addr → UInt8) (r : ReqId)
    (f : RxFrame) (q : IOSana2Req) :
    ∃ error wireError, (deliver orphan hookOk u mem r f q).1 =
      { fillRequest mem f
          (if orphan then { q with packetType := f.etherType.setWidth 32 } else q) with
        data := q.statData
        error := error
        wireError := wireError } := by
  cases orphan with
  | false =>
      simp only [deliver, Bool.false_eq_true, if_false, deliverRead]
      repeat' split
      all_goals exact ⟨_, _, rfl⟩
  | true =>
      simp only [deliver, if_true, deliverOrphan]
      repeat' split
      all_goals exact ⟨_, _, rfl⟩

theorem deliver_hook (orphan hookOk : Bool) (u : PA6TEthUnit) (mem : Addr → UInt8) (r : ReqId)
    (f : RxFrame) (q : IOSana2Req) :
    (deliver orphan hookOk u mem r f q).2.hook =
      (u.findOpener q.bufferManagement).bind fun op =>
        if q.statData ≠ 0 ∧ op.s2hook ≠ 0 then some (copyToBuff hookOk op r q.statData f)
        else none := by
  cases orphan with
  | false =>
      simp only [deliver, Bool.false_eq_true, if_false, deliverRead]
      cases u.findOpener q.bufferManagement with
      | none => rfl
      | some op =>
          by_cases cookie : q.statData = 0
          · simp [cookie]
          · by_cases hook : op.s2hook = 0
            · simp [cookie, hook]
            · simp [cookie, hook]
  | true =>
      simp only [deliver, if_true, deliverOrphan]
      cases u.findOpener q.bufferManagement with
      | none => rfl
      | some op =>
          simp only [Option.bind_some]
          split <;> rfl

theorem deliver_content (orphan hookOk : Bool) (w : World) (r : ReqId) (f : RxFrame)
    (asked : IOSana2Req) (bytes : Nat → UInt8)
    (cookie : (w.reqs r).statData = asked.data)
    (opener : (w.reqs r).bufferManagement = asked.bufferManagement)
    (kept : ∀ k < rxBufSize, w.mem (f.ethFrame + k) = bytes k)
    (type : f.etherType = frameType bytes) (payload : f.payload = f.ethFrame + 14)
    (length : f.payLen.toNat + 18 = (llenOf f.macrx).toNat)
    (fits : (llenOf f.macrx).toNat ≤ rxBufSize) :
    ReplyContent f.macrx bytes orphan (w.reqs r)
        (deliver orphan hookOk w.unit w.mem r f (w.reqs r)).1 ∧
      HookContent f.macrx f.ethFrame bytes w r asked
        (deliver orphan hookOk w.unit w.mem r f (w.reqs r)).2.hook := by
  constructor
  · obtain ⟨error, wireError, done⟩ := deliver_filled orphan hookOk w.unit w.mem r f (w.reqs r)
    obtain ⟨bcast, mcast, others⟩ := castFlags_bits f.macrx (w.reqs r).flags
    have flags : (deliver orphan hookOk w.unit w.mem r f (w.reqs r)).1.flags =
        castFlags f.macrx (w.reqs r).flags := by
      rw [done]
      cases orphan <;> rfl
    refine ⟨?_, ?_, ?_, ?_, ?_, ?_, ?_⟩
    · intro i small
      rw [done, ← kept i (by simp only [rxBufSize]; omega)]
      exact if_pos small
    · intro i small
      rw [done, ← kept (6 + i) (by simp only [rxBufSize]; omega), ← Nat.add_assoc]
      exact if_pos small
    · rw [done]
      exact length
    · rw [flags]
      exact bcast
    · rw [flags]
      exact mcast
    · rw [flags]
      exact others
    · rintro rfl
      rw [done, ← frameType_toNat, ← type]
      exact BitVec.toNat_setWidth_of_le (by decide)
  · rw [deliver_hook, cookie, opener]
    cases found : w.unit.findOpener asked.bufferManagement with
    | none => exact ⟨by simp [found], by simp⟩
    | some op =>
        simp only [Option.bind_some]
        by_cases called : asked.data ≠ 0 ∧ op.s2hook ≠ 0
        · rw [if_pos called]
          refine ⟨?_, ?_⟩
          · exact iff_of_true rfl ⟨called.1, op, found, called.2⟩
          · intro call same
            obtain rfl := Option.some.inj same
            refine ⟨⟨op, found, rfl⟩, rfl, rfl, rfl, payload, length, fun k small => ?_⟩
            have inside : k < f.payLen.toNat := small
            calc
              w.mem (f.payload + k) = w.mem (f.ethFrame + (14 + k)) := by
                rw [payload, Nat.add_assoc]
              _ = bytes (14 + k) := kept (14 + k) (by omega)
        · rw [if_neg called]
          refine ⟨?_, by simp⟩
          refine iff_of_false (by simp) ?_
          rintro ⟨given, op', found', hook⟩
          obtain rfl := Option.some.inj (found.symm.trans found')
          exact called ⟨given, hook⟩

theorem call_mem (ch : Channels) (e : CallEnv) (w v : World) (c : Call) (next : Option Call)
    (stepped : callStep ch e w c = some (v, next)) : v.mem = w.mem := by
  cases c with
  | beginIo r =>
      obtain ⟨rfl, rfl⟩ := Prod.mk.inj (Option.some.inj stepped)
      obtain ⟨q, openers, reports, same⟩ := beginIo_frame e w r
      rw [same]
      rfl
  | replying r err werr sent =>
      obtain ⟨rfl, rfl⟩ := Prod.mk.inj (Option.some.inj stepped)
      simp only [replyIoreq]
      split <;> rfl
  | queueing r =>
      obtain ⟨w', put, same⟩ := Option.map_eq_some_iff.mp stepped
      obtain ⟨rfl, rfl⟩ := Prod.mk.inj same
      obtain ⟨port, _, rfl⟩ := Option.map_eq_some_iff.mp put
      rfl
  | _ =>
      simp only [callStep] at stepped
      repeat' split at stepped
      all_goals
        obtain ⟨rfl, rfl⟩ := Prod.mk.inj (Option.some.inj stepped)
        rfl

theorem sweepEvents_mem (picked : IOSana2Req → Bool) (answer : IOSana2Req → IOSana2Req) (via : Via)
    (w : World) : (sweepEvents picked answer via w).mem = w.mem :=
  sweep_frame (fun w => w.mem) picked answer via _ w fun _ _ => rfl

theorem flushReadQueue_mem (error : IoError) (w : World) : (w.flushReadQueue error).mem = w.mem := by
  have read : ∀ c w, (flushRead error c w).mem = w.mem := fun c w =>
    flushReadList_frame (fun w => w.mem) error _ w fun _ _ => rfl
  calc
    (w.flushReadQueue error).mem =
        (flushRead error .other (flushRead error .arp (flushRead error .ipv4 w))).mem :=
      sweepEvents_mem _ _ _ _
    _ = (flushRead error .arp (flushRead error .ipv4 w)).mem := read _ _
    _ = (flushRead error .ipv4 w).mem := read _ _
    _ = w.mem := read _ _

theorem task_mem (ch : Channels) (e : TaskEnv) (w v : World) (pc next : TaskPc)
    (stepped : taskStep ch e w pc = some (v, next)) : v.mem = w.mem := by
  cases pc with
  | handling r ops fin =>
      cases ops with
      | nil =>
          obtain ⟨rfl, rfl⟩ := Prod.mk.inj (Option.some.inj stepped)
          rfl
      | cons op ops =>
          obtain ⟨rfl, rfl⟩ := Prod.mk.inj (Option.some.inj stepped)
          cases op with
          | flushReadQueue error => exact flushReadQueue_mem error w
          | signalEvent mask => exact sweepEvents_mem _ _ _ w
          | _ => rfl
  | rxLoop l =>
      obtain ⟨rfl, rfl⟩ := Prod.mk.inj (Option.some.inj stepped)
      split
      · rfl
      · split
        · rfl
        · simp only [offerFrame]
          split <;> rfl
  | exitFlush =>
      obtain ⟨rfl, rfl⟩ := Prod.mk.inj (Option.some.inj stepped)
      exact flushReadQueue_mem .aborted w
  | exitFlushEvents =>
      obtain ⟨rfl, rfl⟩ := Prod.mk.inj (Option.some.inj stepped)
      exact sweepEvents_mem _ _ _ w
  | _ =>
      simp only [taskStep] at stepped
      repeat' split at stepped
      all_goals cases stepped
      all_goals rfl

theorem driver_mem (ch : Channels) (s t : Driver) (a : Action) (buf : Addr)
    (kept : BufferKept buf s a) (stepped : driverStep ch s a = some t) :
    ∀ k < rxBufSize, t.world.mem (buf + k) = s.world.mem (buf + k) := by
  have same : t.world.mem = s.world.mem →
      ∀ k < rxBufSize, t.world.mem (buf + k) = s.world.mem (buf + k) := by
    intro same k _
    rw [same]
  cases a with
  | dma ring mem =>
      obtain rfl := Option.some.inj stepped
      exact kept
  | submit r q =>
      obtain ⟨_, rfl⟩ := submit_step ch s t r q stepped
      exact same rfl
  | call i e =>
      obtain ⟨c, w, next, _, moved, rfl⟩ := call_step ch s t i e stepped
      exact same (call_mem ch e s.world w c next moved)
  | task i e =>
      obtain ⟨pc, w, next, _, moved, rfl⟩ := task_step ch s t i e stepped
      exact same (task_mem ch e s.world w pc next moved)
  | openDevice bmCookie allocated outcome =>
      rcases open_step ch s t bmCookie allocated outcome stepped with
        rfl | ⟨_, rfl⟩ | ⟨_, _, rfl⟩ | ⟨_, _, rfl⟩
      · exact same rfl
      · exact same rfl
      · exact same (by cases outcome <;> rfl)
      · exact same (by cases outcome <;> rfl)
  | closeDevice bmCookie =>
      obtain rfl := Option.some.inj stepped
      apply same
      simp only [close, unitTaskShutdown]
      split_ifs <;> rfl
  | teardown i =>
      obtain ⟨_, rfl⟩ := teardown_step ch s t i stepped
      exact same rfl
  | _ =>
      obtain rfl := Option.some.inj stepped
      exact same rfl

theorem run_mem (ch : Channels) (s t : Driver) (actions : List Action) (buf : Addr)
    (kept : (unitMachine ch).Along (fun u a _ => BufferKept buf u a) s actions)
    (ran : (unitMachine ch).run s actions = some t) :
    ∀ k < rxBufSize, t.world.mem (buf + k) = s.world.mem (buf + k) := by
  apply (unitMachine ch).along_invariant
    (fun u => ∀ k < rxBufSize, u.world.mem (buf + k) = s.world.mem (buf + k)) _ _ s t actions kept
    (fun _ _ => rfl) ran
  intro u a v same now stepped k small
  calc
    v.world.mem (buf + k) = u.world.mem (buf + k) := driver_mem ch u v a buf now stepped k small
    _ = s.world.mem (buf + k) := same k small

theorem unposted_uncounted (ch : Channels) (w v : World)
    (rx : uncounted v.unit.rx = uncounted w.unit.rx)
    (regs : ∃ new, v.regs = w.regs ++ new ∧ ∀ e : RxEngine, e.writes ch new = e) :
    Unposted ch w v where
  bufRing := by
    have same := congrArg UnitRx.rxBufRing rx
    exact same
  writePtr := by
    have same := congrArg UnitRx.rxBufWritePtr rx
    exact same
  slotBuf := by
    have same := congrArg UnitRx.rxSlotBuf rx
    exact same
  regs := regs

theorem unposted_refl (ch : Channels) (w v : World) (rx : uncounted v.unit.rx = uncounted w.unit.rx)
    (regs : v.regs = w.regs) : Unposted ch w v :=
  unposted_uncounted ch w v rx ⟨[], by rw [regs, List.append_nil], fun _ => rfl⟩

theorem unposted_trans (ch : Channels) (w v x : World) (first : Unposted ch w v)
    (second : Unposted ch v x) : Unposted ch w x where
  bufRing := second.bufRing.trans first.bufRing
  writePtr := second.writePtr.trans first.writePtr
  slotBuf := second.slotBuf.trans first.slotBuf
  regs := by
    obtain ⟨one, before, idle⟩ := first.regs
    obtain ⟨two, after, idle'⟩ := second.regs
    refine ⟨one ++ two, by rw [after, before, List.append_assoc], fun e => ?_⟩
    rw [engine_writes_append, idle, idle']

theorem unposted_step (ch : Channels) (s t : Driver) (a : Action) (other : a.byTask = false)
    (stepped : driverStep ch s a = some t) : Unposted ch s.world t.world := by
  cases a with
  | submit r q =>
      obtain ⟨_, rfl⟩ := submit_step ch s t r q stepped
      exact unposted_refl ch _ _ rfl rfl
  | call i e =>
      obtain ⟨c, w, next, _, moved, rfl⟩ := call_step ch s t i e stepped
      have apart := (call_apart ch e s.world w c next moved).1
      exact unposted_uncounted ch _ _ apart.rx apart.regs
  | task i e => cases other
  | dma ring mem =>
      obtain rfl := Option.some.inj stepped
      exact ⟨rfl, rfl, rfl, [], (List.append_nil _).symm, fun _ => rfl⟩
  | openDevice bmCookie allocated outcome =>
      rcases open_step ch s t bmCookie allocated outcome stepped with
        rfl | ⟨_, rfl⟩ | ⟨_, _, rfl⟩ | ⟨_, _, rfl⟩
      · exact unposted_refl ch _ _ rfl rfl
      · exact unposted_refl ch _ _ rfl rfl
      · exact unposted_refl ch _ _ (by cases outcome <;> rfl) (by cases outcome <;> rfl)
      · exact unposted_refl ch _ _ (by cases outcome <;> rfl) (by cases outcome <;> rfl)
  | closeDevice bmCookie =>
      obtain rfl := Option.some.inj stepped
      apply unposted_refl ch
      · simp only [close, unitTaskShutdown]
        split_ifs <;> rfl
      · simp only [close, unitTaskShutdown]
        split_ifs <;> rfl
  | teardown i =>
      obtain ⟨_, rfl⟩ := teardown_step ch s t i stepped
      exact unposted_refl ch _ _ rfl rfl
  | _ =>
      obtain rfl := Option.some.inj stepped
      exact unposted_refl ch _ _ rfl rfl

theorem unposted_run (ch : Channels) (s t : Driver) (actions : List Action)
    (others : ∀ a ∈ actions, a.byTask = false)
    (ran : (unitMachine ch).run s actions = some t) : Unposted ch s.world t.world := by
  apply (unitMachine ch).run_invariant (fun u => Unposted ch s.world u.world)
    (fun a => a.byTask = false)
  · intro u a v before other stepped
    exact unposted_trans ch _ _ _ before (unposted_step ch u v a other stepped)
  · exact others
  · exact unposted_refl ch _ _ rfl rfl
  · exact ran

theorem completed_taken (ch : Channels) (s : Driver) (i : Nat) (e : TaskEnv) (v : RxLoop) (b : Nat)
    (r : ReqId) (orphan : Bool) (here : s.tasks[i]? = some (.rxLoop v))
    (completed : CompletedFrame s.world.unit.rx v.n b)
    (matching : matchingRead s.world (frameType (frameBytes s.world b)) = some (r, orphan)) :
    ∃ t g f, driverStep ch s (.task i e) = some t ∧
      t.tasks[i]? = some (.rxDeliver v g f r orphan) ∧ Unposted ch s.world t.world ∧
      t.world.mem = s.world.mem ∧ f.macrx = s.world.unit.rx.rxRing.get v.n ∧
      f.ethFrame = s.world.unit.rx.rxBufs b ∧ f.etherType = frameType (frameBytes s.world b) ∧
      f.payload = f.ethFrame + 14 ∧ f.payLen.toNat + 18 = (llenOf f.macrx).toNat := by
  obtain ⟨g, fetched, macrx, buf, valid⟩ := completed_fetched s.world.unit.rx v.n b completed
  obtain ⟨_, _, _, _, _, _, long, _⟩ := completed
  generalize frame : frameOf s.world.mem s.world.unit.rx g
    (llenOf (s.world.unit.rx.rxRing.get v.n) - 4#32) = f
  have same : f.macrx = s.world.unit.rx.rxRing.get v.n := by rw [← frame, ← macrx]; rfl
  have eth : f.ethFrame = s.world.unit.rx.rxBufs b := by rw [← frame, ← buf]; rfl
  have type : f.etherType = frameType (frameBytes s.world b) := by rw [← frame, ← buf]; rfl
  have payload : f.payload = f.ethFrame + 14 := by rw [← frame]; rfl
  have length : f.payLen.toNat + 18 = (llenOf f.macrx).toNat := by
    rw [same, ← frame]
    exact payLen_toNat _ long
  have ran : taskStep ch e s.world (.rxLoop v) = some (offerFrame s.world v g f) := by
    simp only [taskStep, rxBody, fetched, valid, frame]
  have delivering : (offerFrame s.world v g f).2 = .rxDeliver v g f r orphan := by
    rw [← type, takeReader_matching] at matching
    simp only [offerFrame]
    cases taken : takeReader s.world.reqs s.world.unit f.etherType with
    | read pr rest =>
        rw [taken] at matching
        obtain ⟨rfl, rfl⟩ := Prod.mk.inj (Option.some.inj matching)
        rfl
    | orphan r' rest =>
        rw [taken] at matching
        obtain ⟨rfl, rfl⟩ := Prod.mk.inj (Option.some.inj matching)
        rfl
    | nobody =>
        rw [taken] at matching
        cases matching
  have still := offer_still s.world v g f
  refine ⟨{ s with
      world := (offerFrame s.world v g f).1
      tasks := s.tasks.set i (offerFrame s.world v g f).2 }, g, f, ?_, ?_, ?_, ?_, same, eth, type,
    payload, length⟩
  · simp only [driverStep, here, ran, Option.map_some]
  · rw [← delivering]
    exact List.getElem?_set_self (List.getElem?_eq_some_iff.mp here).1
  · exact unposted_refl ch _ _ still.1 still.2.2
  · exact task_mem ch e _ _ _ _ ran

theorem delivering_promise (ch : Channels) (s : Driver) (reached : (unitMachine ch).Reached s)
    (i : Nat) (v : RxLoop) (g : RxGroup) (f : RxFrame) (r : ReqId) (orphan : Bool)
    (delivering : s.tasks[i]? = some (.rxDeliver v g f r orphan)) :
    (s.world.reqs r).statData = (s.world.asked r).data ∧
      (s.world.reqs r).bufferManagement = (s.world.asked r).bufferManagement := by
  have held : (r, if orphan then Stage.orphan else .reading (readClass f.etherType)) ∈
      s.ledger.places := by
    apply List.mem_append_right
    apply List.mem_append_left
    exact List.mem_flatMap.mpr ⟨_, List.mem_of_getElem? delivering, List.mem_singleton.mpr rfl⟩
  have promised := (kept_reached ch s reached).promised _ held
  cases orphan with
  | false => exact promised.2.2.2.2.2
  | true => exact promised.2.2.2.2

/-- A matching request for a completed frame is replied with the bytes that the engine left in the
buffer, whatever other tasks do meanwhile, as long as the engine leaves the buffer alone. Up to
and with the reply the pass gives no buffer back. -/
theorem rx_content (ch : Channels) (s : Driver) (reached : (unitMachine ch).Reached s) (i : Nat)
    (e : TaskEnv) (v : RxLoop) (b : Nat) (r : ReqId) (orphan : Bool)
    (here : s.tasks[i]? = some (.rxLoop v)) (completed : CompletedFrame s.world.unit.rx v.n b)
    (matching : matchingRead s.world (frameType (frameBytes s.world b)) = some (r, orphan)) :
    ∃ t g f, driverStep ch s (.task i e) = some t ∧
      t.tasks[i]? = some (.rxDeliver v g f r orphan) ∧ Unposted ch s.world t.world ∧
      ∀ actions u j e', (unitMachine ch).run t actions = some u →
        (unitMachine ch).Along (fun x a _ => BufferKept (s.world.unit.rx.rxBufs b) x a) t actions →
        u.tasks[j]? = some (.rxDeliver v g f r orphan) →
        ∃ z d done, driverStep ch u (.task j e') = some z ∧
          z.world.answers =
            (r, .replied (.processRX d) (u.world.asked r) done) :: u.world.answers ∧
          ReplyContent (s.world.unit.rx.rxRing.get v.n) (frameBytes s.world b) orphan
            (u.world.reqs r) done ∧
          HookContent (s.world.unit.rx.rxRing.get v.n) (s.world.unit.rx.rxBufs b)
            (frameBytes s.world b) u.world r (u.world.asked r) d.hook ∧
          z.tasks[j]? = some (.rxNext v g) ∧ Unposted ch u.world z.world ∧
          ((∀ a ∈ actions, a.byTask = false) → Unposted ch s.world z.world) := by
  obtain ⟨t, g, f, stepped, delivering, before, mem, macrx, eth, type, payload, length⟩ :=
    completed_taken ch s i e v b r orphan here completed matching
  refine ⟨t, g, f, stepped, delivering, before, ?_⟩
  intro actions u j e' ran engine there
  have after : (unitMachine ch).Reached t :=
    Machine.Reached.step s (Action.task i e) t reached stepped
  have later := (unitMachine ch).run_reached t u actions after ran
  obtain ⟨cookie, opener⟩ := delivering_promise ch u later j v g f r orphan there
  have kept : ∀ k < rxBufSize, u.world.mem (f.ethFrame + k) = frameBytes s.world b k := by
    intro k small
    calc
      u.world.mem (f.ethFrame + k) = t.world.mem (f.ethFrame + k) :=
        run_mem ch t u actions _ (eth ▸ engine) ran k small
      _ = frameBytes s.world b k := by
        rw [mem, eth]
        rfl
  obtain ⟨_, _, _, _, _, _, _, fits⟩ := completed
  obtain ⟨reply, hook⟩ := deliver_content orphan e'.hookOk u.world r f (u.world.asked r)
    (frameBytes s.world b) cookie opener kept type payload length (by rw [macrx]; exact fits)
  rw [macrx] at reply hook
  rw [eth] at hook
  have replied : driverStep ch u (.task j e') = some
      { u with
        world := u.world.replyMsg r (deliver orphan e'.hookOk u.world.unit u.world.mem r f
            (u.world.reqs r)).1
          (.processRX (deliver orphan e'.hookOk u.world.unit u.world.mem r f (u.world.reqs r)).2)
        tasks := u.tasks.set j (.rxNext v g) } := by
    simp only [driverStep, there, taskStep, Option.map_some]
  refine ⟨_, _, _, replied, rfl, reply, hook, ?_, unposted_refl ch _ _ rfl rfl, ?_⟩
  · exact List.getElem?_set_self (List.getElem?_eq_some_iff.mp there).1
  · intro others
    apply unposted_trans ch _ _ _ before
    exact unposted_trans ch _ _ _ (unposted_run ch t u actions others ran)
      (unposted_refl ch _ _ rfl rfl)

/-- A hook, a read and an orphan read, and a broadcast frame of 64 bytes up to the head of the loop. -/
def broadcastArrives : List Action :=
  sessionUp ++ submitted 3 (request .sana2Hook 0#32 0x600 0#32) ++
    submitted 2 (request .readOrphan 0#32 0x500 0#32) ++
    [.dma (writeGroup (Ring.fill rxRingSize 0#64) 0
        ⟨xctMacrxO ||| xctMacrxCastBroad ||| 0x4000000000#64, 0x1000000#64, 0x10000#64, 0#64⟩)
        (fun a => if a < 65536 + 6 then 0xFF else 0x22), .signal ⟨false, true, false⟩] ++
    List.replicate 4 (.task 0 taskEnv)

/-- The place of a single unit task in its receive loop, and what the theorem asks of it. -/
def atBroadcast (s : Driver) : Option RxLoop :=
  match s.tasks with
  | [.rxLoop v] =>
      if CompletedFrame s.world.unit.rx v.n 0 ∧
          matchingRead s.world (frameType (frameBytes s.world 0)) = some (2, true) then some v
      else none
  | _ => none

theorem atBroadcast_place (s : Driver) (v : RxLoop) (here : atBroadcast s = some v) :
    s.tasks[0]? = some (.rxLoop v) ∧ CompletedFrame s.world.unit.rx v.n 0 ∧
      matchingRead s.world (frameType (frameBytes s.world 0)) = some (2, true) := by
  simp only [atBroadcast] at here
  split at here
  · rename_i l tasks
    split at here
    · rename_i both
      obtain rfl := Option.some.inj here
      exact ⟨by simp [tasks], both⟩
    · cases here
  · cases here

/-- The orphan read gets the frame's bytes, and nothing is given back before. -/
theorem rx_content_broadcast :
    ∃ (s u z : Driver) (v : RxLoop) (d : Delivery) (done : IOSana2Req),
      (unitMachine ⟨0, 0, 0⟩).Reached s ∧ s.tasks[0]? = some (.rxLoop v) ∧
      z.world.answers = (2, .replied (.processRX d) (u.world.asked 2) done) :: u.world.answers ∧
      ReplyContent (s.world.unit.rx.rxRing.get v.n) (frameBytes s.world 0) true (u.world.reqs 2)
        done ∧
      Unposted ⟨0, 0, 0⟩ s.world z.world := by
  obtain ⟨s, reached, shape⟩ := (unitMachine ⟨0, 0, 0⟩).run_shape
    (fun s => (atBroadcast s).isSome) true coldDriver broadcastArrives
    (.start _ coldDriver_cold) (by decide +kernel)
  obtain ⟨v, found⟩ := Option.isSome_iff_exists.mp shape
  obtain ⟨here, completed, matching⟩ := atBroadcast_place s v found
  obtain ⟨t, g, f, _, delivering, _, onward⟩ := rx_content ⟨0, 0, 0⟩ s reached 0 taskEnv v 0 2 true
    here completed matching
  obtain ⟨z, d, done, _, answered, reply, _, _, _, unposted⟩ :=
    onward [] t 0 taskEnv rfl trivial delivering
  exact ⟨s, t, z, v, d, done, reached, here, answered, reply, unposted (by simp)⟩

end Pa6tEth

import Pa6tEth.Origin

/-! The source range that `PA6TEth_ProcessRX` gives to a copy hook, against the size of a buffer. -/

namespace Pa6tEth

open Support

theorem checkGroup_len (u : UnitRx) (g : RxGroup) (len : BitVec 32)
    (valid : checkGroup u g = .ok len) :
    len.toNat + 4 = (llenOf g.macrx).toNat ∧ 14 ≤ len.toNat := by
  simp only [checkGroup] at valid
  split_ifs at valid with crc slot buf short truncated ptr
  obtain rfl := Except.ok.inj valid
  simp only [BitVec.lt_def, BitVec.toNat_sub, BitVec.toNat_ofNat, ethHdrLen] at short truncated ⊢
  omega

theorem deliver_called (orphan hookOk : Bool) (u : PA6TEthUnit) (mem : Addr → UInt8) (r : ReqId)
    (f : RxFrame) (q : IOSana2Req) (call : HookCall)
    (called : (deliver orphan hookOk u mem r f q).2.hook = some call) :
    call.msg = ⟨.copyToBuff, q.statData, f.payload, f.payLen⟩ := by
  cases orphan with
  | false =>
      simp only [deliver, Bool.false_eq_true, if_false, deliverRead] at called
      repeat' split at called
      all_goals cases called
      all_goals rfl
  | true =>
      simp only [deliver, if_true, deliverOrphan] at called
      repeat' split at called
      all_goals cases called
      all_goals rfl

/-- The message's source range starts behind the header of the buffer and ends inside it, and its
size is what is left of the group's length without header and FCS. -/
def RxLengthSafe (buf : Addr) (llen : BitVec 32) (msg : SANA2CopyHookMsg) : Prop :=
  msg.schmSize.toNat + ethHdrLen.toNat + 4 = llen.toNat ∧
    msg.schmFrom = buf + ethHdrLen.toNat ∧
    ethHdrLen.toNat + msg.schmSize.toNat ≤ rxBufSize

theorem checkGroup_buffer (u : UnitRx) (g : RxGroup) (len : BitVec 32)
    (valid : checkGroup u g = .ok len) : u.rxBufs g.actualBuf ≠ 0 := by
  simp only [checkGroup] at valid
  split_ifs at valid with crc slot buf
  exact (not_or.mp buf).2

/-- A hook call of either delivery is about the buffer of the completed slot, which is still where it
was when the group was read, and its range lies inside it exactly when the group's length is at most
that of a buffer with the FCS. -/
theorem rx_length_safe_iff (ch : Channels) (s : Driver) (reached : (unitMachine ch).Reached s)
    (i : Nat) (v : RxLoop) (g : RxGroup) (f : RxFrame) (r : ReqId) (orphan hookOk : Bool)
    (call : HookCall) (delivering : s.tasks[i]? = some (.rxDeliver v g f r orphan))
    (called : (deliver orphan hookOk s.world.unit s.world.mem r f (s.world.reqs r)).2.hook =
      some call) :
    (unitMachine ch).Past (fun x => .rxLoop v ∈ x.tasks ∧
        fetchGroup x.world.unit.rx v.n = some g ∧
        (checkGroup x.world.unit.rx g).toOption.isSome = true ∧
        x.world.unit.rx.rxBufs g.actualBuf = s.world.unit.rx.rxBufs g.actualBuf) s ∧
      s.world.unit.rx.rxBufs g.actualBuf ≠ 0 ∧
      (RxLengthSafe (s.world.unit.rx.rxBufs g.actualBuf) (llenOf g.macrx) call.msg ↔
        (llenOf g.macrx).toNat ≤ rxBufSize + 4) := by
  obtain ⟨x, actions, before, ran, offered⟩ :=
    delivering_offered ch s reached v g f r orphan (List.mem_of_getElem? delivering)
  obtain ⟨len, valid, rfl⟩ := offered.checked
  obtain ⟨total, header⟩ := checkGroup_len x.world.unit.rx g len valid
  have there := checkGroup_buffer x.world.unit.rx g len valid
  have stays := run_rxBufs ch x s actions g.actualBuf there ran
  refine ⟨⟨x, actions, before, ran, offered.looping, offered.fetched, by rw [valid]; rfl,
    stays.symm⟩, by rw [stays]; exact there, ?_⟩
  have size : (len - ethHdrLen).toNat = len.toNat - 14 := by
    simp only [BitVec.toNat_sub, ethHdrLen, BitVec.toNat_ofNat]
    omega
  have fourteen : ethHdrLen.toNat = 14 := rfl
  rw [stays, deliver_called orphan hookOk _ _ r _ _ call called]
  simp only [RxLengthSafe, frameOf, size, fourteen, rxBufSize, true_and]
  omega

/-- A hook, a read, and a frame with this value in its length field, up to its delivery. -/
def frameOfLength (llen : BitVec 64) : List Action :=
  sessionUp ++ submitted 3 (request .sana2Hook 0#32 0x600 0#32) ++
    submitted 2 (request .cmdRead 0x0800#32 0x500 0#32) ++
    [.dma (writeGroup (Ring.fill rxRingSize 0#64) 0
        ⟨xctMacrxO ||| (llen <<< xctMacrxLlenS), 0x1000000#64, 0x10000#64, 0#64⟩)
        (fun a => if a = 65548 then 0x08 else 0), .signal ⟨false, true, false⟩] ++
    List.replicate 5 (.task 0 taskEnv)

def nextCall (s : Driver) : Option (RxGroup × HookCall) :=
  match s.tasks with
  | [.rxDeliver _ g f r orphan] =>
      (deliver orphan true s.world.unit s.world.mem r f (s.world.reqs r)).2.hook.map
        fun call => (g, call)
  | _ => none

theorem nextCall_delivering (s : Driver) (g : RxGroup) (call : HookCall)
    (next : nextCall s = some (g, call)) :
    ∃ v f r orphan, s.tasks[0]? = some (.rxDeliver v g f r orphan) ∧
      (deliver orphan true s.world.unit s.world.mem r f (s.world.reqs r)).2.hook = some call := by
  simp only [nextCall] at next
  split at next
  · rename_i v g' f r orphan tasks
    obtain ⟨call', called, same⟩ := Option.map_eq_some_iff.mp next
    obtain ⟨rfl, rfl⟩ := Prod.mk.inj same
    exact ⟨v, f, r, orphan, by simp [tasks], called⟩
  · cases next

theorem nextCall_reached (actions : List Action) (llen size : BitVec 32)
    (ran : ((unitMachine ⟨0, 0, 0⟩).run coldDriver actions).map (fun s =>
      (nextCall s).map fun x => (llenOf x.1.macrx, x.2.msg.schmSize)) = some (some (llen, size))) :
    ∃ s v g f r orphan call, (unitMachine ⟨0, 0, 0⟩).Reached s ∧
      s.tasks[0]? = some (.rxDeliver v g f r orphan) ∧
      (deliver orphan true s.world.unit s.world.mem r f (s.world.reqs r)).2.hook = some call ∧
      llenOf g.macrx = llen ∧ call.msg.schmSize = size := by
  obtain ⟨s, reached, shape⟩ := (unitMachine ⟨0, 0, 0⟩).run_shape _ _ coldDriver actions
    (.start _ coldDriver_cold) ran
  obtain ⟨⟨g, call⟩, next, same⟩ := Option.map_eq_some_iff.mp shape
  obtain ⟨rfl, rfl⟩ := Prod.mk.inj same
  obtain ⟨v, f, r, orphan, delivering, called⟩ := nextCall_delivering s g call next
  exact ⟨s, v, g, f, r, orphan, call, reached, delivering, called, rfl, rfl⟩

/-- A frame of the largest Ethernet length. -/
theorem rx_length_safe_mtu :
    ∃ (s : Driver) (g : RxGroup) (call : HookCall), (unitMachine ⟨0, 0, 0⟩).Reached s ∧
      RxLengthSafe (s.world.unit.rx.rxBufs g.actualBuf) (llenOf g.macrx) call.msg := by
  obtain ⟨s, v, g, f, r, orphan, call, reached, delivering, called, llen, _⟩ :=
    nextCall_reached (frameOfLength 1518#64) 1518#32 1500#32 (by decide +kernel)
  obtain ⟨_, _, safe⟩ := rx_length_safe_iff ⟨0, 0, 0⟩ s reached 0 v g f r orphan true call
    delivering called
  exact ⟨s, g, call, reached, safe.mpr (by rw [llen]; decide)⟩

/-- The largest value of the length field passes every check, and the hook is told to copy 16365
bytes out of a buffer of 2048. -/
theorem rx_length_overruns :
    ∃ (s : Driver) (v : RxLoop) (g : RxGroup) (f : RxFrame) (r : ReqId) (orphan : Bool)
      (call : HookCall), (unitMachine ⟨0, 0, 0⟩).Reached s ∧
      s.tasks[0]? = some (.rxDeliver v g f r orphan) ∧
      (deliver orphan true s.world.unit s.world.mem r f (s.world.reqs r)).2.hook = some call ∧
      call.msg.schmSize = 16365#32 ∧
      ∀ buf, ¬ RxLengthSafe buf (llenOf g.macrx) call.msg := by
  obtain ⟨s, v, g, f, r, orphan, call, reached, delivering, called, _, size⟩ :=
    nextCall_reached (frameOfLength 16383#64) 16383#32 16365#32 (by decide +kernel)
  refine ⟨s, v, g, f, r, orphan, call, reached, delivering, called, size, fun buf safe => ?_⟩
  obtain ⟨_, _, inside⟩ := safe
  rw [size] at inside
  exact absurd inside (by decide)

end Pa6tEth

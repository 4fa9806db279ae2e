import Pa6tEth.RxContent
import Pa6tEth.TxEncoding

/-! A packet from the client that writes it on one station to the client that reads it on
another. -/

namespace Pa6tEth

open Support World

theorem ethernetFrame_length (dst src : Nat → UInt8) (packetType : BitVec 32)
    (payload : List UInt8) :
    (ethernetFrame dst src packetType payload).length = max 60 (14 + payload.length) := by
  simp only [ethernetFrame, List.length_append, List.length_map, List.length_range,
    List.length_replicate, etherTypeBytes, List.length_cons, List.length_nil, ethAddrLen]
  omega

theorem ethernetFrame_dst (dst src : Nat → UInt8) (packetType : BitVec 32) (payload : List UInt8)
    (i : Nat) (inside : i < 6) : (ethernetFrame dst src packetType payload).getD i 0 = dst i := by
  have bound : i < ((List.range ethAddrLen).map dst).length := by simpa [ethAddrLen] using inside
  rw [ethernetFrame, List.getD_append _ _ _ _ bound]
  simp [ethAddrLen, inside]

theorem ethernetFrame_src (dst src : Nat → UInt8) (packetType : BitVec 32) (payload : List UInt8)
    (i : Nat) (inside : i < 6) :
    (ethernetFrame dst src packetType payload).getD (6 + i) 0 = src i := by
  have bound : i < ((List.range ethAddrLen).map src).length := by simpa [ethAddrLen] using inside
  rw [ethernetFrame, List.getD_append_right _ _ _ _ (by simp [ethAddrLen])]
  simp only [List.length_map, List.length_range, ethAddrLen, Nat.add_sub_cancel_left] at bound ⊢
  rw [List.getD_append _ _ _ _ (by simpa using inside)]
  simp [inside]

theorem ethernetFrame_payload (dst src : Nat → UInt8) (packetType : BitVec 32)
    (payload : List UInt8) (k : Nat) :
    (ethernetFrame dst src packetType payload).getD (14 + k) 0 = payload.getD k 0 := by
  have split : ethernetFrame dst src packetType payload =
      ((List.range ethAddrLen).map dst ++ (List.range ethAddrLen).map src ++
        etherTypeBytes packetType) ++
          (payload ++ List.replicate (60 - (14 + payload.length)) 0) := by
    simp only [ethernetFrame, List.append_assoc]
  have header : ((List.range ethAddrLen).map dst ++ (List.range ethAddrLen).map src ++
      etherTypeBytes packetType).length = 14 := by
    simp [ethAddrLen, etherTypeBytes]
  rw [split, List.getD_append_right _ _ _ _ (by omega), header, Nat.add_sub_cancel_left]
  by_cases inside : k < payload.length
  · exact List.getD_append _ _ _ _ inside
  · rw [List.getD_append_right _ _ _ _ (by omega), List.getD_eq_default payload 0 (by omega)]
    simp only [List.getD_eq_getElem?_getD, List.getElem?_replicate]
    split <;> rfl

theorem ethernetFrame_type (dst src : Nat → UInt8) (packetType : BitVec 32)
    (payload : List UInt8) :
    frameType (fun k => (ethernetFrame dst src packetType payload).getD k 0) =
      packetType.setWidth 16 := by
  have bytes : ∀ i < 2, (ethernetFrame dst src packetType payload).getD (12 + i) 0 =
      (etherTypeBytes packetType).getD i 0 := by
    intro i inside
    have split : ethernetFrame dst src packetType payload =
        ((List.range ethAddrLen).map dst ++ (List.range ethAddrLen).map src) ++
          (etherTypeBytes packetType ++
            (payload ++ List.replicate (60 - (14 + payload.length)) 0)) := by
      simp only [ethernetFrame, List.append_assoc]
    have header : ((List.range ethAddrLen).map dst ++
        (List.range ethAddrLen).map src).length = 12 := by
      simp [ethAddrLen]
    rw [split, List.getD_append_right _ _ _ _ (by omega), header, Nat.add_sub_cancel_left]
    exact List.getD_append _ _ _ _ (by simpa [etherTypeBytes] using inside)
  apply BitVec.eq_of_toNat_eq
  rw [frameType_toNat, BitVec.toNat_setWidth]
  have high := bytes 0 (by decide)
  have low := bytes 1 (by decide)
  simp only [Nat.add_zero, Nat.reduceAdd] at high low
  rw [high, low]
  simp only [etherTypeBytes, List.getD_cons_zero, List.getD_cons_succ, UInt8.toNat_ofNat']
  omega

theorem built_frame (ch : Channels) (s : Driver) (reached : (unitMachine ch).Reached s)
    (r : ReqId) (sending : .transmitting r ∈ s.calls) (e : TxEnv) (q : IOSana2Req) (f : TxFrame)
    (built : txBuild e s.world r = .built q f) (payload : List UInt8)
    (copies : CopiesExactly e payload)
    (whole : payload.length = (s.world.asked r).dataLength.toNat)
    (short : payload.length ≤ 1500) :
    f.memory = ethernetFrame (destination (s.world.asked r)) s.world.macAddr
      (s.world.asked r).packetType payload := by
  obtain ⟨length, packetType, address⟩ := calls_reached ch SendsAsked sendsAsked_own
    (fun _ _ => trivial) (fun _ _ => trivial) (sendsAsked_steps ch) s reached _ sending
  have goes : goesThrough e s.world r = true := by
    by_contra stops
    obtain ⟨_, _, _, refused, _⟩ := txBuild_stops e s.world r (by simpa using stops)
    rw [refused] at built
    cases built
  rw [txBuild_goes e s.world r goes] at built
  obtain ⟨_, rfl⟩ := TxOutcome.built.inj built
  have same : (List.range ethAddrLen).map (s.world.reqs r).dstAddr =
      (List.range ethAddrLen).map (destination (s.world.asked r)) :=
    List.map_congr_left fun i inside => address i (List.mem_range.mp inside)
  calc
    (builtFrame e s.world r).memory = ethernetFrame (s.world.reqs r).dstAddr s.world.macAddr
        (s.world.reqs r).packetType payload :=
      builtFrame_memory e s.world r payload copies (by rw [length]; exact whole) short
    _ = ethernetFrame (destination (s.world.asked r)) s.world.macAddr
        (s.world.asked r).packetType payload := by
      simp only [ethernetFrame, same, packetType]

/-- The receiver's group at `n` is complete, and its buffer `b` holds this frame with an FCS behind
it. -/
structure Arrived (w : World) (n b : Nat) (frame : List UInt8) : Prop where
  ready : owned (w.unit.rx.rxRing.get n) = true
  intact : w.unit.rx.rxRing.get n &&& xctMacrxCrc = 0#64
  eval : 0 < evalOf (w.unit.rx.rxRing.get (n + 1)) ∧
    evalOf (w.unit.rx.rxRing.get (n + 1)) ≤ rxRingSize
  slot : w.unit.rx.rxSlotBuf (evalOf (w.unit.rx.rxRing.get (n + 1)) - 1) = b
  buffer : b < numRxBufs ∧ w.unit.rx.rxBufs b ≠ 0
  pointer : ptrPhys (w.unit.rx.rxRing.get (n + 2)) = w.unit.rx.rxBufsPhys b
  length : (llenOf (w.unit.rx.rxRing.get n)).toNat = frame.length + 4
  bytes : ∀ k < frame.length, frameBytes w b k = frame.getD k 0

instance (w : World) (n b : Nat) (frame : List UInt8) : Decidable (Arrived w n b frame) :=
  decidable_of_iff
    (owned (w.unit.rx.rxRing.get n) = true ∧ w.unit.rx.rxRing.get n &&& xctMacrxCrc = 0#64 ∧
      (0 < evalOf (w.unit.rx.rxRing.get (n + 1)) ∧
        evalOf (w.unit.rx.rxRing.get (n + 1)) ≤ rxRingSize) ∧
      w.unit.rx.rxSlotBuf (evalOf (w.unit.rx.rxRing.get (n + 1)) - 1) = b ∧
      (b < numRxBufs ∧ w.unit.rx.rxBufs b ≠ 0) ∧
      ptrPhys (w.unit.rx.rxRing.get (n + 2)) = w.unit.rx.rxBufsPhys b ∧
      (llenOf (w.unit.rx.rxRing.get n)).toNat = frame.length + 4 ∧
      ∀ k < frame.length, frameBytes w b k = frame.getD k 0)
    ⟨fun ⟨ready, intact, eval, slot, buffer, pointer, length, bytes⟩ =>
        ⟨ready, intact, eval, slot, buffer, pointer, length, bytes⟩,
      fun arrived => ⟨arrived.ready, arrived.intact, arrived.eval, arrived.slot, arrived.buffer,
        arrived.pointer, arrived.length, arrived.bytes⟩⟩

/-- What the reading client finds of a packet that was sent with this record, from this station and
with this payload. -/
structure Transported (sent : IOSana2Req) (station : Nat → UInt8) (payload : List UInt8)
    (orphan : Bool) (w : World) (asked done : IOSana2Req) (hook : Option HookCall) : Prop where
  src : ∀ i < 6, done.srcAddr i = station i
  dst : ∀ i < 6, done.dstAddr i = destination sent i
  length : done.dataLength.toNat = max 46 payload.length
  read : orphan = false →
    readClass (asked.packetType.setWidth 16) = readClass (sent.packetType.setWidth 16)
  readType : orphan = false → ∀ ty, ty = 0x0800#16 ∨ ty = 0x0806#16 →
    (asked.packetType.setWidth 16 = ty ↔ sent.packetType.setWidth 16 = ty)
  orphanType : orphan = true → done.packetType = (sent.packetType.setWidth 16).setWidth 32
  called : hook.isSome = true ↔ asked.data ≠ 0 ∧
    ∃ op, w.unit.findOpener asked.bufferManagement = some op ∧ op.s2hook ≠ 0
  data : ∀ call, hook = some call → call.msg.schmTo = asked.data ∧
    call.msg.schmSize = done.dataLength ∧
    ∀ k < done.dataLength.toNat, w.mem (call.msg.schmFrom + k) = payload.getD k 0

theorem arrived_completed (w : World) (n b : Nat) (frame : List UInt8) (long : 60 ≤ frame.length)
    (short : frame.length ≤ 1514) (arrived : Arrived w n b frame) :
    CompletedFrame w.unit.rx n b := by
  have length := arrived.length
  refine ⟨arrived.ready, arrived.intact, arrived.eval, arrived.slot, arrived.buffer,
    arrived.pointer, by omega, ?_⟩
  simp only [rxBufSize]
  omega

theorem arrived_type (w : World) (n b : Nat) (dst src : Nat → UInt8) (packetType : BitVec 32)
    (payload : List UInt8)
    (arrived : Arrived w n b (ethernetFrame dst src packetType payload)) :
    frameType (frameBytes w b) = packetType.setWidth 16 := by
  have long := ethernetFrame_length dst src packetType payload
  calc
    frameType (frameBytes w b) =
        frameType (fun k => (ethernetFrame dst src packetType payload).getD k 0) := by
      simp only [frameType, arrived.bytes 12 (by omega), arrived.bytes 13 (by omega)]
    _ = packetType.setWidth 16 := ethernetFrame_type dst src packetType payload

theorem delivering_kind (ch : Channels) (s : Driver) (reached : (unitMachine ch).Reached s)
    (i : Nat) (v : RxLoop) (g : RxGroup) (f : RxFrame) (r : ReqId)
    (delivering : s.tasks[i]? = some (.rxDeliver v g f r false)) :
    readClass ((s.world.asked r).packetType.setWidth 16) = readClass f.etherType := by
  have held : (r, Stage.reading (readClass f.etherType)) ∈ s.ledger.places := by
    apply List.mem_append_right
    apply List.mem_append_left
    exact List.mem_flatMap.mpr ⟨_, List.mem_of_getElem? delivering, List.mem_singleton.mpr rfl⟩
  exact ((kept_reached ch s reached).promised _ held).2.2.2.2.1

theorem reply_transported (sent : IOSana2Req) (station : Nat → UInt8) (payload : List UInt8)
    (orphan : Bool) (w : World) (r : ReqId) (buf : Addr) (macrx : Word) (bytes : Nat → UInt8)
    (asked before done : IOSana2Req) (hook : Option HookCall)
    (length : (llenOf macrx).toNat = max 60 (14 + payload.length) + 4)
    (whole : ∀ k < max 60 (14 + payload.length), bytes k =
      (ethernetFrame (destination sent) station sent.packetType payload).getD k 0)
    (type : frameType bytes = sent.packetType.setWidth 16)
    (kind : orphan = false →
      readClass (asked.packetType.setWidth 16) = readClass (frameType bytes))
    (reply : ReplyContent macrx bytes orphan before done)
    (given : HookContent macrx buf bytes w r asked hook) :
    Transported sent station payload orphan w asked done hook := by
  have size : done.dataLength.toNat = max 46 payload.length := by
    have counted := reply.length
    omega
  have sameClass : orphan = false →
      readClass (asked.packetType.setWidth 16) = readClass (sent.packetType.setWidth 16) := by
    intro read
    rw [kind read, type]
  refine ⟨?_, ?_, size, sameClass, fun read ty => same_class_type _ _ ty (sameClass read), ?_,
    given.called, ?_⟩
  · intro i inside
    calc
      done.srcAddr i = bytes (6 + i) := reply.src i inside
      _ = (ethernetFrame (destination sent) station sent.packetType payload).getD (6 + i) 0 :=
        whole (6 + i) (by omega)
      _ = station i := ethernetFrame_src _ _ _ _ i inside
  · intro i inside
    calc
      done.dstAddr i = bytes i := reply.dst i inside
      _ = (ethernetFrame (destination sent) station sent.packetType payload).getD i 0 :=
        whole i (by omega)
      _ = destination sent i := ethernetFrame_dst _ _ _ _ i inside
  · intro isOrphan
    apply BitVec.eq_of_toNat_eq
    calc
      done.packetType.toNat = 256 * (bytes 12).toNat + (bytes 13).toNat :=
        reply.orphanType isOrphan
      _ = (frameType bytes).toNat := (frameType_toNat bytes).symm
      _ = ((sent.packetType.setWidth 16).setWidth 32).toNat := by
        rw [type]
        exact (BitVec.toNat_setWidth_of_le (by decide)).symm
  · intro call called
    obtain ⟨_, _, _, target, _, counted, copied⟩ := given.given call called
    have same : call.msg.schmSize.toNat = done.dataLength.toNat := by
      have other := reply.length
      omega
    refine ⟨target, BitVec.eq_of_toNat_eq same, fun k inside => ?_⟩
    calc
      w.mem (call.msg.schmFrom + k) = bytes (14 + k) := copied k (by omega)
      _ = (ethernetFrame (destination sent) station sent.packetType payload).getD (14 + k) 0 :=
        whole (14 + k) (by omega)
      _ = payload.getD k 0 := ethernetFrame_payload _ _ _ _ k

/-- A packet of at most 1500 bytes that one station built, and that arrived whole in a receive
buffer of another, is taken for the first read of its list there, or else for the first orphan read.
That read is replied with the sender's station address and the destination, an orphan read with the
type of the packet too, and its hook is given the payload, padded with zeros to 46 bytes, whatever
other tasks do between the two steps. -/
theorem wire_round_trip (ch ch' : Channels) (s x : Driver) (reached : (unitMachine ch).Reached s)
    (r : ReqId) (sending : .transmitting r ∈ s.calls) (e : TxEnv) (q : IOSana2Req) (f : TxFrame)
    (built : txBuild e s.world r = .built q f) (payload : List UInt8)
    (copies : CopiesExactly e payload)
    (whole : payload.length = (s.world.asked r).dataLength.toNat)
    (short : payload.length ≤ 1500)
    (reached' : (unitMachine ch').Reached x) (i b : Nat) (e' : TaskEnv) (v : RxLoop) (r' : ReqId)
    (orphan : Bool) (here : x.tasks[i]? = some (.rxLoop v))
    (arrived : Arrived x.world v.n b f.memory)
    (matching : matchingRead x.world ((s.world.asked r).packetType.setWidth 16) =
      some (r', orphan)) :
    ∃ t g rf, driverStep ch' x (.task i e') = some t ∧
      t.tasks[i]? = some (.rxDeliver v g rf r' orphan) ∧
      ∀ actions u j e'', (unitMachine ch').run t actions = some u →
        (unitMachine ch').Along (fun y a _ => BufferKept (x.world.unit.rx.rxBufs b) y a) t actions →
        u.tasks[j]? = some (.rxDeliver v g rf r' orphan) →
        ∃ z d done, driverStep ch' u (.task j e'') = some z ∧
          z.world.answers =
            (r', .replied (.processRX d) (u.world.asked r') done) :: u.world.answers ∧
          Transported (s.world.asked r) s.world.macAddr payload orphan u.world
            (u.world.asked r') done d.hook := by
  have frame := built_frame ch s reached r sending e q f built payload copies whole short
  rw [frame] at arrived
  have size := ethernetFrame_length (destination (s.world.asked r)) s.world.macAddr
    (s.world.asked r).packetType payload
  have type := arrived_type x.world v.n b _ _ _ payload arrived
  have completed := arrived_completed x.world v.n b _ (by omega) (by omega) arrived
  obtain ⟨t, g, rf, stepped, delivering, _, mem, macrx, eth, etherType, behind, length⟩ :=
    completed_taken ch' x i e' v b r' orphan here completed (by rw [type]; exact matching)
  refine ⟨t, g, rf, stepped, delivering, ?_⟩
  intro actions u j e'' ran engine there
  have after : (unitMachine ch').Reached t :=
    Machine.Reached.step x (Action.task i e') t reached' stepped
  have later := (unitMachine ch').run_reached t u actions after ran
  obtain ⟨cookie, opener⟩ := delivering_promise ch' u later j v g rf r' orphan there
  have kept : ∀ k < rxBufSize, u.world.mem (rf.ethFrame + k) = frameBytes x.world b k := by
    intro k small
    calc
      u.world.mem (rf.ethFrame + k) = t.world.mem (rf.ethFrame + k) :=
        run_mem ch' t u actions _ (eth ▸ engine) ran k small
      _ = frameBytes x.world b k := by
        rw [mem, eth]
        rfl
  obtain ⟨reply, given⟩ := deliver_content orphan e''.hookOk u.world r' rf (u.world.asked r')
    (frameBytes x.world b) cookie opener kept etherType behind length
    (by rw [macrx]; exact completed.2.2.2.2.2.2.2)
  have replied : driverStep ch' u (.task j e'') = some
      { u with
        world := u.world.replyMsg r' (deliver orphan e''.hookOk u.world.unit u.world.mem r' rf
            (u.world.reqs r')).1
          (.processRX (deliver orphan e''.hookOk u.world.unit u.world.mem r' rf
            (u.world.reqs r')).2)
        tasks := u.tasks.set j (.rxNext v g) } := by
    simp only [driverStep, there, taskStep, Option.map_some]
  refine ⟨_, _, _, replied, rfl, ?_⟩
  refine reply_transported (s.world.asked r) s.world.macAddr payload orphan u.world r' rf.ethFrame
    rf.macrx (frameBytes x.world b) (u.world.asked r') (u.world.reqs r') _ _ ?_ ?_ type ?_ reply given
  · rw [macrx, arrived.length, size]
  · intro k inside
    exact arrived.bytes k (by rw [size]; exact inside)
  · rintro rfl
    rw [delivering_kind ch' u later j v g rf r' there, etherType]

def threeBytesFrame : List UInt8 :=
  List.replicate 6 0xFF ++ (List.replicate 6 0 ++ ([0x08, 0x06] ++
    ([1, 2, 3] ++ List.replicate 43 0)))

/-- A hook, a read for ARP, and that frame in the first buffer up to the head of the loop. -/
def frameArrivesWhole : List Action :=
  sessionUp ++ submitted 3 (request .sana2Hook 0#32 0x600 0#32) ++
    submitted 2 (request .cmdRead 0x0806#32 0x500 0#32) ++
    [.dma (writeGroup (Ring.fill rxRingSize 0#64) 0
        ⟨xctMacrxO ||| xctMacrxCastBroad ||| 0x4000000000#64, 0x1000000#64, 0x10000#64, 0#64⟩)
        (fun a => threeBytesFrame.getD (a - 65536) 0), .signal ⟨false, true, false⟩] ++
    List.replicate 4 (.task 0 taskEnv)

/-- The place of a single unit task in its receive loop, with that frame before it. -/
def atFrame (s : Driver) : Option RxLoop :=
  match s.tasks with
  | [.rxLoop v] =>
      if Arrived s.world v.n 0 threeBytesFrame ∧ matchingRead s.world 0x0806#16 = some (2, false)
      then some v
      else none
  | _ => none

theorem atFrame_place (s : Driver) (v : RxLoop) (here : atFrame s = some v) :
    s.tasks[0]? = some (.rxLoop v) ∧ Arrived s.world v.n 0 threeBytesFrame ∧
      matchingRead s.world 0x0806#16 = some (2, false) := by
  simp only [atFrame] at here
  split at here
  · rename_i l tasks
    split at here
    · rename_i both
      obtain rfl := Option.some.inj here
      exact ⟨by simp [tasks], both⟩
    · cases here
  · cases here

/-- The three bytes of the broadcast come to the read for ARP on the other station. -/
theorem wire_round_trip_broadcast :
    ∃ (s u : Driver) (d : Delivery) (done : IOSana2Req),
      (unitMachine ⟨0, 0, 0⟩).Reached s ∧ .transmitting 3 ∈ s.calls ∧
      Transported (s.world.asked 3) s.world.macAddr [1, 2, 3] false u.world (u.world.asked 2) done
        d.hook := by
  obtain ⟨s, reached, shape⟩ := (unitMachine ⟨0, 0, 0⟩).run_shape
    (fun s => (s.calls.flatMap Call.sending, goesThrough threeBytes s.world 3,
      (s.world.asked 3).dataLength, (s.world.asked 3).packetType,
      (builtFrame threeBytes s.world 3).memory))
    ([3], true, 3#32, 0x0806#32, threeBytesFrame)
    coldDriver broadcastBegins (.start _ coldDriver_cold) (by decide +kernel)
  obtain ⟨calls, goes, length, type, memory⟩ := by simpa only [Prod.mk.injEq] using shape
  obtain ⟨x, reached', place⟩ := (unitMachine ⟨0, 0, 0⟩).run_shape
    (fun x => (atFrame x).isSome) true coldDriver frameArrivesWhole
    (.start _ coldDriver_cold) (by decide +kernel)
  obtain ⟨v, found⟩ := Option.isSome_iff_exists.mp place
  obtain ⟨here, arrived, matching⟩ := atFrame_place x v found
  have sending := sending_transmits s.calls 3 (by rw [calls]; decide)
  obtain ⟨t, g, rf, _, delivering, onward⟩ := wire_round_trip ⟨0, 0, 0⟩ ⟨0, 0, 0⟩ s x reached 3
    sending threeBytes _ _ (txBuild_goes threeBytes s.world 3 goes) [1, 2, 3] (fun _ => rfl)
    (by rw [length]; rfl) (by decide) reached' 0 0 taskEnv v 2 false here (by rw [memory]; exact arrived)
    (by rw [type]; exact matching)
  obtain ⟨z, d, done, _, _, transported⟩ := onward [] t 0 taskEnv rfl trivial delivering
  exact ⟨s, t, d, done, reached, sending, transported⟩

end Pa6tEth

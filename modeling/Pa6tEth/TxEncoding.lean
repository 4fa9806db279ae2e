import Pa6tEth.Calls
import Pa6tEth.TxMapping

/-! The bytes of a transmitted frame and its descriptor pair, from the request as submitted. -/

namespace Pa6tEth

open Support World

def destination (asked : IOSana2Req) (i : Nat) : UInt8 :=
  if asked.command = .broadcast then 0xFF else asked.dstAddr i

def etherTypeBytes (packetType : BitVec 32) : List UInt8 :=
  [UInt8.ofNat (packetType.toNat % 65536 / 256), UInt8.ofNat (packetType.toNat % 256)]

def ethernetFrame (dst src : Nat → UInt8) (packetType : BitVec 32) (payload : List UInt8) :
    List UInt8 :=
  (List.range ethAddrLen).map dst ++ ((List.range ethAddrLen).map src ++
    (etherTypeBytes packetType ++ (payload ++ List.replicate (60 - (14 + payload.length)) 0)))

def TxFrame.memory (f : TxFrame) : List UInt8 := (List.range f.frameLen.toNat).map f.bytes

def CopiesExactly (e : TxEnv) (payload : List UInt8) : Prop :=
  ∀ i, e.copied i = payload[i]?

/-- The pair decodes to a whole frame of this length at this address, with no other bit set. -/
structure EncodesPair (desc ptr : Word) (len addr : Nat) : Prop where
  own : desc &&& xctMactxO = xctMactxO
  start : desc &&& xctMactxSt = xctMactxSt
  crcPad : desc &&& xctMactxCrcPad = xctMactxCrcPad
  llen : mactxLlenOf desc = len
  length : ptrLenOf ptr = len
  address : ptrAddrOf ptr = addr
  noOther : desc &&& ~~~mactxBits = 0#64 ∧ ptr &&& ~~~ptrBits = 0#64

def SendsAsked (w : World) : Call → Prop
  | .transmitting r =>
      (w.reqs r).dataLength = (w.asked r).dataLength ∧
        (w.reqs r).packetType = (w.asked r).packetType ∧
        ∀ i < ethAddrLen, (w.reqs r).dstAddr i = destination (w.asked r) i
  | _ => True

theorem sendsAsked_own : OfRequests SendsAsked := by
  intro w v c asked reqs sends
  cases c with
  | transmitting r =>
      simpa only [SendsAsked, asked _ List.mem_cons_self, reqs _ List.mem_cons_self] using sends
  | _ => trivial

theorem beginIo_sends (e : CallEnv) (w : World) (r : ReqId) (called : w.reqs r = w.asked r) :
    SendsAsked (beginIo e w r).1 (beginIo e w r).2 := by
  cases command : (w.reqs r).command with
  | cmdWrite =>
      simp only [beginIo, command]
      split <;> simp [SendsAsked, setReq, destination, ← called, command]
  | multicast =>
      simp only [beginIo, command]
      split <;> simp [SendsAsked, setReq, destination, ← called, command]
  | broadcast =>
      simp only [beginIo, command]
      split
      · trivial
      · simp +contextual [SendsAsked, setReq, destination, ← called, command, byteCopy]
  | _ =>
      simp only [beginIo, command]
      repeat' split
      all_goals trivial

theorem sendsAsked_steps (ch : Channels) : StepsKnown ch SendsAsked := by
  intro e w v c next sends promised stepped
  cases c with
  | beginIo r =>
      obtain ⟨rfl, same⟩ := Prod.mk.inj (Option.some.inj stepped)
      obtain rfl := Option.some.inj same
      exact beginIo_sends e w r (promised _ List.mem_cons_self)
  | replying r err werr sent =>
      have same := (Prod.mk.inj (Option.some.inj stepped)).2
      split at same
      · obtain rfl := Option.some.inj same
        trivial
      · cases same
  | queueing r =>
      obtain ⟨w', _, same⟩ := Option.map_eq_some_iff.mp stepped
      cases (Prod.mk.inj same).2
  | _ =>
      simp only [callStep] at stepped
      repeat' split at stepped
      all_goals cases (Prod.mk.inj (Option.some.inj stepped)).2 <;> trivial

theorem txHeader_bytes (mac : Nat → UInt8) (q : IOSana2Req) :
    (List.range 14).map (txHeader mac q) =
      (List.range ethAddrLen).map q.dstAddr ++ ((List.range ethAddrLen).map mac ++
        etherTypeBytes q.packetType) := by
  have high : UInt8.ofBitVec ((q.packetType >>> 8).setWidth 8) =
      UInt8.ofNat (q.packetType.toNat % 65536 / 256) := by
    apply UInt8.toNat_inj.mp
    simp only [UInt8.toNat_ofBitVec, BitVec.toNat_setWidth, BitVec.toNat_ushiftRight,
      Nat.shiftRight_eq_div_pow, UInt8.toNat_ofNat']
    omega
  have low : UInt8.ofBitVec (q.packetType.setWidth 8) =
      UInt8.ofNat (q.packetType.toNat % 256) := by
    apply UInt8.toNat_inj.mp
    simp only [UInt8.toNat_ofBitVec, BitVec.toNat_setWidth, UInt8.toNat_ofNat']
    omega
  simp [List.range_succ, txHeader, ethAddrLen, etherTypeBytes, high, low]

theorem payload_bytes (payload : List UInt8) :
    (List.range payload.length).map (fun i => payload.getD i 0) = payload := by
  apply List.ext_getElem
  · simp
  · intro i _ inside
    simp [List.getElem?_eq_getElem inside]

theorem padding_bytes (payload : List UInt8) (count : Nat) :
    (List.range count).map (fun i => payload.getD (payload.length + i) 0) =
      List.replicate count 0 := by
  simp

theorem builtFrame_memory (e : TxEnv) (w : World) (r : ReqId) (payload : List UInt8)
    (copies : CopiesExactly e payload) (whole : payload.length = (w.reqs r).dataLength.toNat)
    (short : payload.length ≤ 1500) :
    (builtFrame e w r).memory =
      ethernetFrame (w.reqs r).dstAddr w.macAddr (w.reqs r).packetType payload := by
  have header : ethHdrLen.toNat = 14 := rfl
  have length : (builtFrame e w r).frameLen.toNat =
      14 + (payload.length + (60 - (14 + payload.length))) := by
    rw [builtFrame, txFrameLen_exact _ (by omega)]
    omega
  have head : (List.range 14).map (builtFrame e w r).bytes =
      (List.range 14).map (txHeader w.macAddr (w.reqs r)) := by
    apply List.map_congr_left
    intro i inside
    simp only [builtFrame, header, if_pos (List.mem_range.mp inside)]
  have behind : (builtFrame e w r).bytes ∘ (fun i => 14 + i) = fun i => payload.getD i 0 := by
    funext i
    simp only [builtFrame, Function.comp_apply, header, if_neg (show ¬ 14 + i < 14 by omega),
      Nat.add_sub_cancel_left, copies i, clearedBlock, List.getD_eq_getElem?_getD]
  rw [TxFrame.memory, length, List.range_add, List.map_append, List.map_map, head, behind,
    txHeader_bytes, List.range_add, List.map_append, List.map_map, payload_bytes]
  simp only [Function.comp_def, padding_bytes, ethernetFrame, List.append_assoc]

/-- Every packet of at most 1500 bytes that gets to the ring is the frame that was asked for, and
its descriptor pair says so in every bit. -/
theorem tx_frame_encoding (ch : Channels) (s : Driver) (reached : (unitMachine ch).Reached s)
    (r : ReqId) (sending : .transmitting r ∈ s.calls) (e : TxEnv) (q : IOSana2Req) (f : TxFrame)
    (built : txBuild e s.world r = .built q f) (payload : List UInt8)
    (copies : CopiesExactly e payload)
    (whole : payload.length = (s.world.asked r).dataLength.toNat)
    (short : (s.world.asked r).dataLength.toNat ≤ 1500) (u : UnitTx) :
    f.memory = ethernetFrame (destination (s.world.asked r)) s.world.macAddr
        (s.world.asked r).packetType payload ∧
      f.memory.length = max 60 (14 + payload.length) ∧
      EncodesPair ((txSubmit ch u f).1.txRing.get u.txNextFill)
        ((txSubmit ch u f).1.txRing.get (u.txNextFill + 1)) f.memory.length e.phys.toNat := by
  obtain ⟨length, packetType, address⟩ := calls_reached ch SendsAsked sendsAsked_own
    (fun _ _ => trivial) (fun _ _ => trivial) (sendsAsked_steps ch) s reached _ sending
  rw [← length] at whole short
  have goes : goesThrough e s.world r = true := by
    by_contra stops
    obtain ⟨_, _, _, refused, _⟩ := txBuild_stops e s.world r (by simpa using stops)
    rw [refused] at built
    cases built
  rw [txBuild_goes e s.world r goes] at built
  obtain ⟨_, rfl⟩ := TxOutcome.built.inj built
  have count : (builtFrame e s.world r).memory.length =
      (txFrameLen (s.world.reqs r).dataLength).toNat := by
    simp only [TxFrame.memory, List.length_map, List.length_range, builtFrame]
  have size := txFrameLen_exact (s.world.reqs r).dataLength (by omega)
  have fits : (builtFrame e s.world r).frameLen.toNat ≤ 1514 := (goesThrough_facts e s.world r goes).1
  have flags := mactx_flags (builtFrame e s.world r)
  refine ⟨?_, by rw [count, size, whole, Nat.add_comm 14], ?_⟩
  · rw [builtFrame_memory e s.world r payload copies whole (by omega), packetType]
    have same : (List.range ethAddrLen).map (s.world.reqs r).dstAddr =
        (List.range ethAddrLen).map (destination (s.world.asked r)) :=
      List.map_congr_left fun i inside => address i (List.mem_range.mp inside)
    simp only [ethernetFrame, same]
  · rw [(txSubmit_pair ch u _).1, (txSubmit_pair ch u _).2, count]
    exact ⟨flags.1, flags.2.1, flags.2.2, mactx_llen _ (by omega), ptr_len _ (by omega),
      ptr_addr _ (by omega), mactx_bits _, ptr_bits _⟩

/-- An online unit, a hook for its client, and a broadcast of three bytes up to
`TransmitPacket`. -/
def broadcastBegins : List Action :=
  sessionUp ++ submitted 2 { request .sana2Hook 0#32 0x500 0#32 with dataLength := 0#32 } ++
    [.submit 3 { request .broadcast 0x0806#32 0x2000 0#32 with dataLength := 3#32 },
      .call 0 callEnv]

def threeBytes : TxEnv := { callEnv.tx with copied := fun i => [1, 2, 3][i]? }

def Call.sending : Call → List ReqId
  | transmitting r => [r]
  | _ => []

theorem sending_transmits (calls : List Call) (r : ReqId) (sends : r ∈ calls.flatMap Call.sending) :
    .transmitting r ∈ calls := by
  obtain ⟨c, member, own⟩ := List.mem_flatMap.mp sends
  cases c with
  | transmitting r' => rwa [List.mem_singleton.mp own]
  | _ => cases own

theorem tx_frame_encoding_broadcast :
    ∃ s f, (unitMachine ⟨0, 0, 0⟩).Reached s ∧ .transmitting 3 ∈ s.calls ∧
      f.memory = List.replicate 6 0xFF ++ (List.replicate 6 0 ++ ([0x08, 0x06] ++
        ([1, 2, 3] ++ List.replicate 43 0))) ∧
      EncodesPair ((txSubmit ⟨0, 0, 0⟩ s.world.unit.tx f).1.txRing.get s.world.unit.tx.txNextFill)
        ((txSubmit ⟨0, 0, 0⟩ s.world.unit.tx f).1.txRing.get (s.world.unit.tx.txNextFill + 1))
        60 0xA00 := by
  obtain ⟨s, reached, shape⟩ := (unitMachine ⟨0, 0, 0⟩).run_shape
    (fun s => (s.calls.flatMap Call.sending, goesThrough threeBytes s.world 3,
      (s.world.asked 3).dataLength, ethernetFrame (destination (s.world.asked 3))
        s.world.macAddr (s.world.asked 3).packetType [1, 2, 3]))
    ([3], true, 3#32, List.replicate 6 0xFF ++ (List.replicate 6 0 ++ ([0x08, 0x06] ++
      ([1, 2, 3] ++ List.replicate 43 0))))
    coldDriver broadcastBegins (.start _ coldDriver_cold) (by decide +kernel)
  obtain ⟨calls, goes, length, bytes⟩ := by simpa only [Prod.mk.injEq] using shape
  have sending := sending_transmits s.calls 3 (by rw [calls]; decide)
  obtain ⟨memory, size, encodes⟩ := tx_frame_encoding ⟨0, 0, 0⟩ s reached 3 sending threeBytes _ _
    (txBuild_goes threeBytes s.world 3 goes) [1, 2, 3] (fun _ => rfl) (by rw [length]; rfl)
    (by rw [length]; decide) s.world.unit.tx
  rw [size] at encodes
  exact ⟨s, _, reached, sending, memory.trans bytes, encodes⟩

end Pa6tEth

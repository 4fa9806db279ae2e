import Pa6tEth.HwCleanup
import Pa6tEth.OnlineReport
import Pa6tEth.Support.Engine

/-! The ring registers from `PA6TEth_HWInit` over the sessions of a unit to `PA6TEth_HWCleanup`:
the engines run on the rings of the driver. -/

namespace Pa6tEth

open Support

/-- `EN` is the same in the command registers of the channels, the interface and the section. -/
def cmdEn : BitVec 32 := 0x00000001

/-- `BRBH` and `BRBL` of a base register pair. -/
def baseAddress (basel baseu : BitVec 32) : Nat :=
  (baseu &&& 0x00000fff).toNat * 2 ^ 32 + (basel &&& ~~~0x3f#32).toNat

/-- `SIZ` counts eight words of 64 bits. -/
def sizeWords (baseu : BitVec 32) : Nat := ((baseu &&& 0x3fff0000) >>> 16).toNat * 8

/-- `TATTR` of a transmit channel. -/
def tattr (cfg : BitVec 32) : Nat := ((cfg &&& 0x0000003c) >>> 2).toNat

structure NamesRing (basel baseu phys : BitVec 32) (words : Nat) : Prop where
  base : baseAddress basel baseu = phys.toNat
  size : sizeWords baseu = words

def ringEngine (command basel baseu cfg : HwReg) (phys : BitVec 32) (words : Nat)
    (configured : BitVec 32 → Prop) (apart : command ∉ [basel, baseu, cfg]) :
    Engine HwReg (BitVec 32) where
  command := command
  enables := fun value => value &&& cmdEn ≠ 0#32
  settings := [basel, baseu, cfg]
  ready := fun file => NamesRing (file basel) (file baseu) phys words ∧ configured (file cfg)
  apart := apart
  fits := by
    intro file other same ready
    rw [← same basel (by simp), ← same baseu (by simp), ← same cfg (by simp)]
    exact ready

def txChannel (e : InitEnv) (dmaIf : Nat) : Engine HwReg (BitVec 32) :=
  ringEngine (.shared (.txchanTcmdsta 1)) (.txchanBasel 1) (.txchanBaseu 1) (.txchanCfg 1)
    e.txRing.phys txRingSize (fun cfg => dmaIf < 16 → tattr cfg = dmaIf) (by simp)

def rxChannel (e : InitEnv) : Engine HwReg (BitVec 32) :=
  ringEngine (.shared (.rxchanCcmdsta 1)) (.shared (.rxchanBasel 1)) (.rxchanBaseu 1)
    (.rxchanCfg 1) e.rxRing.phys rxRingSize (fun _ => True) (by simp)

/-- Its buffers come from the buffer pointer ring, which `RBP` says. -/
def rxInterface (e : InitEnv) (dmaIf : Nat) : Engine HwReg (BitVec 32) :=
  ringEngine (.shared (.rxintRcmdsta dmaIf)) (.shared (.rxintBasel dmaIf)) (.rxintBaseu dmaIf)
    (.shared (.rxintCfg dmaIf)) e.rxBufRing.phys rxBufRingSize
    (fun cfg => cfg &&& 0x80000000 ≠ 0#32) (by simp)

def rxSection (e : InitEnv) (dmaIf : Nat) : Engine HwReg (BitVec 32) where
  command := .comRxcmd
  enables := fun value => value &&& cmdEn ≠ 0#32
  settings := (rxChannel e).settings ++ (rxInterface e dmaIf).settings
  ready := fun file => (rxChannel e).ready file ∧ (rxInterface e dmaIf).ready file
  apart := by simp [rxChannel, rxInterface, ringEngine]
  fits := by
    intro file other same ready
    exact ⟨(rxChannel e).fits file other
        (fun reg inside => same reg (List.mem_append_left _ inside)) ready.1,
      (rxInterface e dmaIf).fits file other
        (fun reg inside => same reg (List.mem_append_right _ inside)) ready.2⟩

def ringEngines (e : InitEnv) (dmaIf : Nat) : List (Engine HwReg (BitVec 32)) :=
  [txChannel e dmaIf, rxChannel e, rxInterface e dmaIf]

/-- What `AVT_Alignment` asks of the rings, at their physical addresses. -/
structure RingsAligned (e : InitEnv) : Prop where
  tx : e.txRing.phys &&& 0x3f#32 = 0#32
  rx : e.rxRing.phys &&& 0x3f#32 = 0#32
  rxBuf : e.rxBufRing.phys &&& 0x3f#32 = 0#32

def hwAccess : HwEvent → Option (RegAccess HwReg (BitVec 32))
  | .read reg value => some (.read reg value)
  | .write reg value => some (.write reg value)
  | .use _ => none

def hwAccesses (events : List HwEvent) : List (RegAccess HwReg (BitVec 32)) :=
  events.filterMap hwAccess

def sessionAccesses (regs : List RegWrite) : List (RegAccess HwReg (BitVec 32)) :=
  regs.map fun w => .write (.shared w.reg) w.value

/-- `PA6TEth_HWCleanup`, on the numbers that a successful `PA6TEth_HWInit` has stored. -/
def cleanupAccesses (stop : StopState) (loaded : PA6TEthBase) (dmaIf : Nat) (rxBufs : Nat → Addr)
    (entries : Nat → Nat) : List (RegAccess HwReg (BitVec 32)) :=
  hwAccesses (hwCleanupEvents stop loaded ⟨dmaIf, 1, 1⟩ rxBufs entries)

/-- The accesses from `PA6TEth_HWInit` to `PA6TEth_HWCleanup`, with the writes of the sessions
between them. -/
def libraryAccesses (h : HwState) (e : InitEnv) (b : PA6TEthBase) (regs : List RegWrite)
    (stop : StopState) (loaded : PA6TEthBase) (dmaIf : Nat) (rxBufs : Nat → Addr)
    (entries : Nat → Nat) : List (RegAccess HwReg (BitVec 32)) :=
  hwAccesses (hwInitEvents h e b).1 ++
    (sessionAccesses regs ++ cleanupAccesses stop loaded dmaIf rxBufs entries)

theorem cleared_low (phys : BitVec 32) (aligned : phys &&& 0x3f#32 = 0#32) :
    phys &&& ~~~0x3f#32 = phys := by
  calc
    phys &&& ~~~0x3f#32 = (phys &&& ~~~0x3f#32) ||| (phys &&& 0x3f#32) := by
      rw [aligned, BitVec.or_zero]
    _ = phys := same_mask phys (phys &&& 0x3f#32) 0x3f#32 rfl

theorem basel_names (phys : BitVec 32) (words : Nat) (aligned : phys &&& 0x3f#32 = 0#32)
    (high : baseu words &&& 0x00000fff = 0#32) (size : sizeWords (baseu words) = words) :
    NamesRing (basel phys) (baseu words) phys words := by
  refine ⟨?_, size⟩
  have low : basel phys &&& ~~~0x3f#32 = phys := by
    rw [basel, cleared_low phys aligned, cleared_low phys aligned]
  rw [baseAddress, high, low]
  simp

theorem tattr_value (dmaIf : Nat) (small : dmaIf < 16) : tattr (txchanCfgValue dmaIf) = dmaIf := by
  have all : ∀ i < 16, tattr (txchanCfgValue i) = i := by decide
  exact all dmaIf small

def touched (x : Engine HwReg (BitVec 32)) (events : List HwEvent) :
    List (RegAccess HwReg (BitVec 32)) :=
  (hwAccesses events).filter x.touches

theorem touched_append (x : Engine HwReg (BitVec 32)) (front back : List HwEvent) :
    touched x (front ++ back) = touched x front ++ touched x back := by
  simp only [touched, hwAccesses, List.filterMap_append, List.filter_append]

theorem touched_none (x : Engine HwReg (BitVec 32)) (events : List HwEvent)
    (aside : ∀ event ∈ events, ∀ reg value, event = .write reg value →
      reg ≠ x.command ∧ reg ∉ x.settings) : touched x events = [] := by
  rw [touched, List.filter_eq_nil_iff]
  intro access member
  obtain ⟨event, present, same⟩ := List.mem_filterMap.mp member
  cases event with
  | read reg value =>
      cases same
      simp [Engine.touches]
  | use use => cases same
  | write reg value =>
      cases same
      obtain ⟨command, settings⟩ := aside _ present reg value rfl
      simp [Engine.touches, command, settings]

def HwReg.ofMac : HwReg → Bool
  | shared .macPcfg => true
  | macMaccfg => true
  | macAdr0 => true
  | macAdr1 => true
  | macTxp => true
  | macRmon _ => true
  | macIpcChnl => true
  | _ => false

theorem configureMac_registers (h : HwState) (reg : HwReg) (value : BitVec 32)
    (member : .write reg value ∈ configureMac h) : reg.ofMac = true := by
  simp only [configureMac, disableMac, HwState.programMacAddr, List.mem_append, List.mem_cons,
    List.mem_map, List.not_mem_nil, or_false, reduceCtorEq, false_or, HwEvent.write.injEq] at member
  rcases member with (((⟨rfl, _⟩ | ⟨rfl, _⟩ | ⟨rfl, _⟩) | ⟨_, _, rfl, _⟩) | ⟨rfl, _⟩ | ⟨rfl, _⟩) |
    ⟨rfl, _⟩
  all_goals rfl

def stopValues (poll : Nat → BitVec 32) : List (BitVec 32) :=
  cmdstaSt :: if (polls idleStatus poll stopTries 0).2 then [0#32] else []

theorem stopEngine_accesses (x : Engine HwReg (BitVec 32)) (reg : Reg) (poll : Nat → BitVec 32)
    (own : x.command = .shared reg) :
    touched x (stopEngine reg poll).1 = x.stopping (stopValues poll) := by
  have reads : ∀ values : List (BitVec 32),
      touched x (values.map (.read (.shared reg))) = [] := by
    intro values
    apply touched_none
    intro event member reg value same
    obtain ⟨_, _, rfl⟩ := List.mem_map.mp member
    cases same
  have command : ∀ value, touched x [.write (.shared reg) value] = [.write x.command value] := by
    intro value
    simp [touched, hwAccesses, hwAccess, Engine.touches, own]
  simp only [stopEngine]
  rw [List.cons_append, ← List.singleton_append, touched_append, touched_append, reads, command,
    List.nil_append, stopValues]
  split
  · rw [command]
    rfl
  · rfl

theorem cleared_off : ∀ value ∈ [0#32], decide (value &&& cmdEn ≠ 0#32) = false := by
  intro value member
  rw [List.mem_singleton.mp member]
  decide

theorem stopValues_off (poll : Nat → BitVec 32) :
    ∀ value ∈ stopValues poll, decide (value &&& cmdEn ≠ 0#32) = false := by
  intro value member
  rcases List.mem_cons.mp member with rfl | last
  · decide
  · split at last
    · exact cleared_off value last
    · cases last

theorem stopEngine_aside (x : Engine HwReg (BitVec 32)) (reg : Reg) (poll : Nat → BitVec 32)
    (command : x.command ≠ .shared reg) (settings : .shared reg ∉ x.settings) :
    touched x (stopEngine reg poll).1 = [] := by
  apply touched_none
  intro event member other value same
  obtain ⟨_, found | found⟩ := stopEngine_only reg poll event member
  · rw [found] at same
    cases same
  · rw [found] at same
    cases same
    exact ⟨command.symm, settings⟩

theorem configureRx_accesses (x : Engine HwReg (BitVec 32)) (h : HwState) (e : InitEnv)
    (dmaIf : Nat) :
    touched x (configureRx h e dmaIf) = touched x
      [.write .comRxcmd 0#32, .write (.shared (.rxchanCcmdsta 1)) 0#32,
        .write (.shared (.rxintRcmdsta dmaIf)) 0#32,
        .write (.shared (.rxchanBasel 1)) (basel e.rxRing.phys),
        .write (.rxchanBaseu 1) (baseu rxRingSize), .write (.rxchanCfg 1) ((2 <<< 7) &&& 0x00000380),
        .write (.shared (.rxintBasel dmaIf)) (basel e.rxBufRing.phys),
        .write (.rxintBaseu dmaIf) (baseu rxRingSize),
        .write (.shared (.rxintCfg dmaIf)) rxintCfgValue, .write .comRxcmd 1#32] := by
  have reads : ∀ values : List (BitVec 32), touched x (values.map (.read .comRxsta)) = [] := by
    intro values
    apply touched_none
    intro event member reg value same
    obtain ⟨_, _, rfl⟩ := List.mem_map.mp member
    cases same
  rw [configureRx, List.cons_append, ← List.singleton_append, touched_append, touched_append, reads,
    List.nil_append, ← touched_append]
  rfl

theorem hwInit_touched (x : Engine HwReg (BitVec 32)) (h : HwState) (e : InitEnv)
    (b : PA6TEthBase) (dmaIf : Nat) (listed : h.findDmaInterfaceOfMac.2 = some dmaIf)
    (made : (hwInitEvents h e b).2 = true)
    (notMac : ∀ reg, reg = x.command ∨ reg ∈ x.settings → reg.ofMac = false) :
    touched x (hwInitEvents h e b).1 =
      touched x (configureTx h e dmaIf) ++ touched x (configureRx h e dmaIf) := by
  have mac : touched x (configureMac h) = [] := by
    apply touched_none
    rintro event member reg value rfl
    have ofMac := configureMac_registers h reg value member
    constructor
    · rintro rfl
      exact absurd ofMac (by rw [notMac _ (.inl rfl)]; simp)
    · intro inside
      exact absurd ofMac (by rw [notMac reg (.inr inside)]; simp)
  have scan : touched x h.findDmaInterfaceOfMac.1 = [] := by
    apply touched_none
    intro event member reg value same
    obtain ⟨_, _, read, _⟩ := findDmaInterface_reads h event member
    rw [read] at same
    cases same
  have uses : ∀ log : ResourceLog, touched x (log.map .use) = [] := by
    intro log
    apply touched_none
    intro event member reg value same
    obtain ⟨_, _, rfl⟩ := List.mem_map.mp member
    cases same
  rw [hwInitEvents_eq] at made ⊢
  simp only [listed] at made ⊢
  split_ifs at made ⊢ with tx rx
  simp only [hwInitRings] at made ⊢
  split_ifs at made ⊢ with rings
  · simp only [checkTx, touched_append, scan, uses, mac, List.append_nil]
    rfl
  · cases made

def ringValues (low high cfg : HwReg) (phys : BitVec 32) (words : Nat) (value : BitVec 32) :
    List (HwReg × BitVec 32) :=
  [(low, basel phys), (high, baseu words), (cfg, value)]

def txValues (e : InitEnv) (dmaIf : Nat) : List (HwReg × BitVec 32) :=
  ringValues (.txchanBasel 1) (.txchanBaseu 1) (.txchanCfg 1) e.txRing.phys txRingSize
    (txchanCfgValue dmaIf)

def rxChannelValues (e : InitEnv) : List (HwReg × BitVec 32) :=
  ringValues (.shared (.rxchanBasel 1)) (.rxchanBaseu 1) (.rxchanCfg 1) e.rxRing.phys rxRingSize
    ((2 <<< 7) &&& 0x00000380)

def rxInterfaceValues (e : InitEnv) (dmaIf : Nat) : List (HwReg × BitVec 32) :=
  ringValues (.shared (.rxintBasel dmaIf)) (.rxintBaseu dmaIf) (.shared (.rxintCfg dmaIf))
    e.rxBufRing.phys rxBufRingSize rxintCfgValue

theorem ring_ready (command low high cfg : HwReg) (phys : BitVec 32) (words : Nat)
    (configured : BitVec 32 → Prop) (apart : command ∉ [low, high, cfg]) (value : BitVec 32)
    (aligned : phys &&& 0x3f#32 = 0#32) (upper : baseu words &&& 0x00000fff = 0#32)
    (size : sizeWords (baseu words) = words) (fits : configured value) (file : HwReg → BitVec 32)
    (holds : HoldsAll (ringValues low high cfg phys words value) file) :
    (ringEngine command low high cfg phys words configured apart).ready file := by
  simp only [HoldsAll, ringValues, List.forall_mem_cons, List.not_mem_nil, false_implies,
    implies_true, and_true] at holds
  obtain ⟨lowHolds, highHolds, cfgHolds⟩ := holds
  constructor
  · rw [lowHolds, highHolds]
    exact basel_names phys words aligned upper size
  · rw [cfgHolds]
    exact fits

theorem tx_ready (e : InitEnv) (dmaIf : Nat) (aligned : RingsAligned e) (file : HwReg → BitVec 32)
    (holds : HoldsAll (txValues e dmaIf) file) : (txChannel e dmaIf).ready file :=
  ring_ready _ _ _ _ _ _ _ _ _ aligned.tx (by decide) (by decide) (tattr_value dmaIf) file holds

theorem rxChannel_ready (e : InitEnv) (aligned : RingsAligned e) (file : HwReg → BitVec 32)
    (holds : HoldsAll (rxChannelValues e) file) : (rxChannel e).ready file :=
  ring_ready _ _ _ _ _ _ _ _ _ aligned.rx (by decide) (by decide) trivial file holds

theorem rxInterface_ready (e : InitEnv) (dmaIf : Nat) (aligned : RingsAligned e)
    (file : HwReg → BitVec 32) (holds : HoldsAll (rxInterfaceValues e dmaIf) file) :
    (rxInterface e dmaIf).ready file :=
  ring_ready _ _ _ _ _ _ _ _ _ aligned.rxBuf (by decide) (by decide) (by decide) file holds

theorem rxSection_ready (e : InitEnv) (dmaIf : Nat) (aligned : RingsAligned e)
    (file : HwReg → BitVec 32)
    (holds : HoldsAll (rxChannelValues e ++ rxInterfaceValues e dmaIf) file) :
    (rxSection e dmaIf).ready file :=
  ⟨rxChannel_ready e aligned file fun p member => holds p (List.mem_append_left _ member),
    rxInterface_ready e dmaIf aligned file fun p member => holds p (List.mem_append_right _ member)⟩

theorem tx_setUp (h : HwState) (e : InitEnv) (dmaIf : Nat) :
    touched (txChannel e dmaIf) (configureTx h e dmaIf) ++
        touched (txChannel e dmaIf) (configureRx h e dmaIf) =
      (txChannel e dmaIf).stopping (stopValues h.setupTx) ++ (writesOf (txValues e dmaIf) ++ []) := by
  rw [configureTx, touched_append, stopTxChannel, stopEngine_accesses _ _ _ rfl,
    configureRx_accesses, List.append_assoc]
  congr 1

theorem rx_setUp (x : Engine HwReg (BitVec 32)) (h : HwState) (e : InitEnv) (dmaIf : Nat)
    (command : x.command ≠ .shared (.txchanTcmdsta 1))
    (settings : ∀ reg ∈ [HwReg.shared (.txchanTcmdsta 1), .txchanBasel 1, .txchanBaseu 1, .txchanCfg 1],
      reg ≠ x.command ∧ reg ∉ x.settings)
    (values : List (HwReg × BitVec 32)) (tail : List (RegAccess HwReg (BitVec 32)))
    (set : touched x (configureRx h e dmaIf) = x.stopping [0#32] ++ (writesOf values ++ tail)) :
    touched x (configureTx h e dmaIf) ++ touched x (configureRx h e dmaIf) =
      x.stopping [0#32] ++ (writesOf values ++ tail) := by
  have stop := stopEngine_aside x (.txchanTcmdsta 1) h.setupTx command (settings _ (by simp)).2
  have tx : touched x (configureTx h e dmaIf) = [] := by
    rw [configureTx, touched_append, stopTxChannel, stop, List.nil_append]
    apply touched_none
    simp only [List.mem_cons, List.not_mem_nil, or_false]
    rintro event (rfl | rfl | rfl) reg value same
    all_goals
      cases same
      exact settings _ (by simp)
  rw [tx, set, List.nil_append]

/-- The write leaves the base registers alone, and the configuration of an interface as it is. -/
def RegWrite.keepsRings (w : RegWrite) : Bool :=
  match w.reg with
  | .rxintBasel _ => false
  | .rxchanBasel _ => false
  | .rxintCfg _ => w.value = rxintCfgValue
  | _ => true

def RingsKept (w v : World) : Prop :=
  ∃ new, v.regs = w.regs ++ new ∧ ∀ x ∈ new, x.keepsRings = true

theorem rings_same (w v : World) (same : v.regs = w.regs) : RingsKept w v :=
  ⟨[], by simp [same], nofun⟩

theorem armWrites_rings (ch : Channels) (e : ArmEnv) :
    ∀ x ∈ armWrites ch e, x.keepsRings = true := by
  have all : (armWrites ch e).all RegWrite.keepsRings = true := by
    simp only [armWrites, creditWrites, enableWrites, pciEnable]
    split_ifs <;> simp [RegWrite.keepsRings]
  exact List.all_eq_true.mp all

theorem call_rings (ch : Channels) (e : CallEnv) (w v : World) (c : Call) (next : Option Call)
    (stepped : callStep ch e w c = some (v, next)) : RingsKept w v := by
  cases c with
  | beginIo r =>
      obtain ⟨rfl, rfl⟩ := Prod.mk.inj (Option.some.inj stepped)
      obtain ⟨q, openers, reports, same⟩ := beginIo_frame e w r
      exact rings_same _ _ (by rw [same]; rfl)
  | replying r err werr sent =>
      obtain ⟨rfl, rfl⟩ := Prod.mk.inj (Option.some.inj stepped)
      apply rings_same
      simp only [World.replyIoreq]
      split <;> rfl
  | queueing r =>
      obtain ⟨w', put, same⟩ := Option.map_eq_some_iff.mp stepped
      obtain ⟨rfl, rfl⟩ := Prod.mk.inj same
      obtain ⟨port, _, rfl⟩ := Option.map_eq_some_iff.mp put
      exact rings_same _ _ rfl
  | submitting r f =>
      obtain ⟨rfl, rfl⟩ := Prod.mk.inj (Option.some.inj stepped)
      exact ⟨_, rfl, by simp [RegWrite.keepsRings]⟩
  | _ =>
      simp only [callStep] at stepped
      repeat' split at stepped
      all_goals
        obtain ⟨rfl, rfl⟩ := Prod.mk.inj (Option.some.inj stepped)
        exact rings_same _ _ rfl

theorem task_rings (ch : Channels) (e : TaskEnv) (w v : World) (pc next : TaskPc)
    (stepped : taskStep ch e w pc = some (v, next)) : RingsKept w v := by
  cases pc with
  | handling r ops fin =>
      obtain _ | ⟨op, ops⟩ := ops <;> obtain ⟨rfl, rfl⟩ := Prod.mk.inj (Option.some.inj stepped)
      · exact rings_same _ _ rfl
      · by_cases arm : op = .postRxBuffers
        · subst arm
          refine ⟨_, rfl, ?_⟩
          simp only [postRxBuffers]
          split
          · exact fun _ absent => absurd absent List.not_mem_nil
          · split
            · exact fun _ absent => absurd absent List.not_mem_nil
            · exact armWrites_rings ch e.arm
        · exact rings_same _ _ (runOp_still ch e w op arm).2.2
  | rxLoop l =>
      obtain ⟨rfl, _⟩ := Prod.mk.inj (Option.some.inj stepped)
      split
      · refine ⟨_, rfl, ?_⟩
        simp only [leaveRing]
        split <;> simp [RegWrite.keepsRings]
      · split
        · exact rings_same _ _ rfl
        · exact rings_same _ _ (offer_still w l _ _).2.2
  | exitFlush =>
      obtain ⟨rfl, _⟩ := Prod.mk.inj (Option.some.inj stepped)
      exact rings_same _ _ (flushReadQueue_still .aborted w).2.2
  | exitFlushEvents =>
      obtain ⟨rfl, _⟩ := Prod.mk.inj (Option.some.inj stepped)
      exact rings_same _ _ (sweepEvents_still _ _ _ w).2.2
  | drained => cases stepped
  | _ =>
      simp only [taskStep] at stepped
      repeat' split at stepped
      all_goals first
        | (obtain ⟨rfl, _⟩ := Prod.mk.inj (Option.some.inj stepped)
           exact rings_same _ _ rfl)
        | cases stepped

theorem driver_rings (ch : Channels) (s t : Driver) (a : Action)
    (stepped : driverStep ch s a = some t) : RingsKept s.world t.world := by
  cases a with
  | submit r q =>
      obtain ⟨_, rfl⟩ := submit_step ch s t r q stepped
      exact rings_same _ _ rfl
  | call i e =>
      obtain ⟨c, w, next, _, ran, rfl⟩ := call_step ch s t i e stepped
      exact call_rings ch e s.world w c next ran
  | task i e =>
      obtain ⟨pc, w, next, _, ran, rfl⟩ := task_step ch s t i e stepped
      exact task_rings ch e s.world w pc next ran
  | openDevice bmCookie allocated outcome =>
      have started := unitTaskStart_regs s.world outcome
      rcases open_step ch s t bmCookie allocated outcome stepped with
        rfl | ⟨_, rfl⟩ | ⟨_, _, rfl⟩ | ⟨_, _, rfl⟩
      · exact rings_same _ _ rfl
      · exact rings_same _ _ rfl
      · exact rings_same _ _ started
      · exact rings_same _ _ started
  | closeDevice bmCookie =>
      obtain rfl := Option.some.inj stepped
      exact rings_same _ _ (close_regs s.world bmCookie)
  | teardown i =>
      obtain ⟨_, rfl⟩ := teardown_step ch s t i stepped
      exact rings_same _ _ rfl
  | _ =>
      obtain rfl := Option.some.inj stepped
      exact rings_same _ _ rfl

theorem run_rings (ch : Channels) (s t : Driver) (actions : List Action)
    (fresh : s.world.regs = []) (ran : (unitMachine ch).run s actions = some t) :
    ∀ x ∈ t.world.regs, x.keepsRings = true := by
  apply (unitMachine ch).run_invariant (fun u => ∀ x ∈ u.world.regs, x.keepsRings = true)
    (fun _ => True) _ s t actions (fun _ _ => trivial) _ ran
  · intro u a v before _ stepped x member
    obtain ⟨new, grown, kept⟩ := driver_rings ch u v a stepped
    rw [grown] at member
    exact (List.mem_append.mp member).elim (before x) (kept x)
  · rw [fresh]
    exact nofun

/-- Its writes are to registers of `Reg` and leave the rings in place. -/
def KeepsRings (log : List (RegAccess HwReg (BitVec 32))) : Prop :=
  ∀ reg value, .write reg value ∈ log →
    ∃ own, reg = .shared own ∧ RegWrite.keepsRings ⟨own, value⟩ = true

theorem session_keeps (regs : List RegWrite) (kept : ∀ x ∈ regs, x.keepsRings = true) :
    KeepsRings (sessionAccesses regs) := by
  intro reg value member
  obtain ⟨x, present, same⟩ := List.mem_map.mp member
  cases same
  exact ⟨x.reg, rfl, kept x present⟩

theorem cleanup_keeps (stop : StopState) (loaded : PA6TEthBase) (dmaIf : Nat)
    (rxBufs : Nat → Addr) (entries : Nat → Nat) :
    KeepsRings (cleanupAccesses stop loaded dmaIf rxBufs entries) := by
  have stops : ∀ (number : Int) (reg : Reg) (poll : Nat → BitVec 32) event,
      event ∈ (if 0 ≤ number then (stopEngine reg poll).1 else []) →
      ∃ value, event = .read (.shared reg) value ∨ event = .write (.shared reg) value := by
    intro number reg poll event member
    split at member
    · exact stopEngine_only reg poll event member
    · cases member
  intro reg value member
  obtain ⟨event, present, same⟩ := List.mem_filterMap.mp member
  simp only [hwCleanupEvents, List.mem_append] at present
  rcases present with mac | dma | uses
  · split at mac
    · cases mac
    · simp only [disableMac, List.mem_cons, List.not_mem_nil, or_false] at mac
      rcases mac with rfl | rfl
      · cases same
      · cases same
        exact ⟨_, rfl, rfl⟩
  · split at dma
    · cases dma
    · simp only [stopAll, stopTxChannel, stopRxChannel, stopRxInterface, List.mem_append] at dma
      rcases dma with tx | rx | intf
      · obtain ⟨_, rfl | rfl⟩ := stops _ _ _ event tx <;> cases same
        exact ⟨_, rfl, rfl⟩
      · obtain ⟨_, rfl | rfl⟩ := stops _ _ _ event rx <;> cases same
        exact ⟨_, rfl, rfl⟩
      · obtain ⟨_, rfl | rfl⟩ := stops _ _ _ event intf <;> cases same
        exact ⟨_, rfl, rfl⟩
  · obtain ⟨_, _, rfl⟩ := List.mem_map.mp uses
    cases same

theorem keepsRings_append (front back : List (RegAccess HwReg (BitVec 32)))
    (first : KeepsRings front) (second : KeepsRings back) : KeepsRings (front ++ back) := by
  intro reg value member
  exact (List.mem_append.mp member).elim (first reg value) (second reg value)

theorem keeps_values (values : List (HwReg × BitVec 32)) (log : List (RegAccess HwReg (BitVec 32)))
    (keeps : KeepsRings log)
    (fits : ∀ p ∈ values, ∀ own value, p.1 = .shared own →
      RegWrite.keepsRings ⟨own, value⟩ = true → p.2 = value) : Engine.Keeps values log := by
  intro reg value member p setting named
  obtain ⟨own, rfl, kept⟩ := keeps reg value member
  exact fits p setting own value named kept

theorem tx_fits (e : InitEnv) (dmaIf : Nat) : ∀ p ∈ txValues e dmaIf, ∀ own value,
    p.1 = .shared own → RegWrite.keepsRings ⟨own, value⟩ = true → p.2 = value := by
  simp [txValues, ringValues]

theorem rxChannel_fits (e : InitEnv) : ∀ p ∈ rxChannelValues e, ∀ own value,
    p.1 = .shared own → RegWrite.keepsRings ⟨own, value⟩ = true → p.2 = value := by
  simp only [rxChannelValues, ringValues, List.mem_cons, List.not_mem_nil, or_false]
  rintro p (rfl | rfl | rfl) own value named kept
  · cases named
    cases kept
  · cases named
  · cases named

theorem rxInterface_fits (e : InitEnv) (dmaIf : Nat) : ∀ p ∈ rxInterfaceValues e dmaIf, ∀ own value,
    p.1 = .shared own → RegWrite.keepsRings ⟨own, value⟩ = true → p.2 = value := by
  simp only [rxInterfaceValues, ringValues, List.mem_cons, List.not_mem_nil, or_false]
  rintro p (rfl | rfl | rfl) own value named kept
  · cases named
    cases kept
  · cases named
  · cases named
    exact (of_decide_eq_true kept).symm

theorem cleanup_touched (x : Engine HwReg (BitVec 32)) (stop : StopState) (loaded : PA6TEthBase)
    (dmaIf : Nat) (rxBufs : Nat → Addr) (entries : Nat → Nat) (dma : loaded.dmaDev ≠ 0)
    (pcfg : .shared .macPcfg ≠ x.command ∧ .shared .macPcfg ∉ x.settings) :
    (cleanupAccesses stop loaded dmaIf rxBufs entries).filter x.touches =
      touched x (stopTxChannel 1 stop.tx).1 ++
        (touched x (stopRxChannel 1 stop.rx).1 ++ touched x (stopRxInterface dmaIf stop.intf).1) := by
  have mac : touched x (if loaded.macDev = 0 then [] else disableMac stop.pcfg) = [] := by
    apply touched_none
    intro event member reg value same
    split at member
    · cases member
    · simp only [disableMac, List.mem_cons, List.not_mem_nil, or_false] at member
      rcases member with rfl | rfl
      · cases same
      · cases same
        exact pcfg
  have uses : ∀ log : ResourceLog, touched x (log.map .use) = [] := by
    intro log
    apply touched_none
    intro event member reg value same
    obtain ⟨_, _, rfl⟩ := List.mem_map.mp member
    cases same
  show touched x (hwCleanupEvents stop loaded ⟨dmaIf, 1, 1⟩ rxBufs entries) = _
  rw [hwCleanupEvents, touched_append, mac, if_neg dma, touched_append, uses, List.nil_append,
    List.append_nil, stopAll, touched_append, touched_append]
  simp

theorem cleanup_off (stop : StopState) (e : InitEnv) (loaded : PA6TEthBase) (dmaIf : Nat)
    (rxBufs : Nat → Addr) (entries : Nat → Nat) (dma : loaded.dmaDev ≠ 0)
    (file : HwReg → BitVec 32) : ∀ x ∈ ringEngines e dmaIf,
      x.enables (fileAfter file (cleanupAccesses stop loaded dmaIf rxBufs entries) x.command) =
        false := by
  intro x member
  simp only [ringEngines, List.mem_cons, List.not_mem_nil, or_false] at member
  rcases member with rfl | rfl | rfl
  · apply Engine.life_off _ (stopValues stop.tx) _ _ _ (List.cons_ne_nil _ _)
      (stopValues_off stop.tx)
    rw [cleanup_touched _ _ _ _ _ _ dma (by simp [txChannel, ringEngine]), stopTxChannel,
      stopEngine_accesses _ _ _ rfl, stopRxChannel, stopEngine_aside, stopRxInterface,
      stopEngine_aside, List.append_nil, List.append_nil]
    all_goals simp [txChannel, ringEngine]
  · apply Engine.life_off _ (stopValues stop.rx) _ _ _ (List.cons_ne_nil _ _)
      (stopValues_off stop.rx)
    rw [cleanup_touched _ _ _ _ _ _ dma (by simp [rxChannel, ringEngine]), stopTxChannel,
      stopEngine_aside, stopRxChannel, stopEngine_accesses _ _ _ rfl, stopRxInterface,
      stopEngine_aside, List.append_nil, List.nil_append]
    all_goals simp [rxChannel, ringEngine]
  · apply Engine.life_off _ (stopValues stop.intf) _ _ _ (List.cons_ne_nil _ _)
      (stopValues_off stop.intf)
    rw [cleanup_touched _ _ _ _ _ _ dma (by simp [rxInterface, ringEngine]), stopTxChannel,
      stopEngine_aside, stopRxChannel, stopEngine_aside, stopRxInterface,
      stopEngine_accesses _ _ _ rfl, List.nil_append, List.nil_append]
    all_goals simp [rxInterface, ringEngine]

section Life

variable (h : HwState) (e : InitEnv) (b : PA6TEthBase) (dmaIf : Nat)
  (listed : h.findDmaInterfaceOfMac.2 = some dmaIf) (made : (hwInitEvents h e b).2 = true)
  (aligned : RingsAligned e) (file : HwReg → BitVec 32) (life : List (RegAccess HwReg (BitVec 32)))
  (keeps : KeepsRings life)

include listed made aligned keeps

theorem tx_life : (txChannel e dmaIf).Obeyed file (hwAccesses (hwInitEvents h e b).1 ++ life) ∧
    (txChannel e dmaIf).ready (fileAfter file (hwAccesses (hwInitEvents h e b).1 ++ life)) := by
  have split := hwInit_touched (txChannel e dmaIf) h e b dmaIf listed made
    (by simp [txChannel, ringEngine, HwReg.ofMac])
  rw [tx_setUp] at split
  exact Engine.obeyed_life _ _ _ [] _ _ file split (List.cons_ne_nil _ _) (stopValues_off h.setupTx)
    (fun _ => Iff.rfl) (by simp [txValues, ringValues]) (tx_ready e dmaIf aligned) nofun
    (keeps_values _ _ keeps (tx_fits e dmaIf))

theorem rxChannel_life : (rxChannel e).Obeyed file (hwAccesses (hwInitEvents h e b).1 ++ life) ∧
    (rxChannel e).ready (fileAfter file (hwAccesses (hwInitEvents h e b).1 ++ life)) := by
  have split := hwInit_touched (rxChannel e) h e b dmaIf listed made
    (by simp [rxChannel, ringEngine, HwReg.ofMac])
  rw [rx_setUp (rxChannel e) h e dmaIf (by simp [rxChannel, ringEngine])
    (by simp [rxChannel, ringEngine]) (rxChannelValues e) []] at split
  · exact Engine.obeyed_life _ [0#32] _ [] _ _ file split (by simp) cleared_off
      (fun _ => Iff.rfl) (by simp [rxChannelValues, ringValues]) (rxChannel_ready e aligned) nofun
      (keeps_values _ _ keeps (rxChannel_fits e))
  · rw [configureRx_accesses]
    simp [touched, hwAccesses, hwAccess, Engine.touches, rxChannel, ringEngine, writesOf,
      rxChannelValues, ringValues, Engine.stopping]

theorem rxInterface_life :
    (rxInterface e dmaIf).Obeyed file (hwAccesses (hwInitEvents h e b).1 ++ life) ∧
      (rxInterface e dmaIf).ready (fileAfter file (hwAccesses (hwInitEvents h e b).1 ++ life)) := by
  have split := hwInit_touched (rxInterface e dmaIf) h e b dmaIf listed made
    (by simp [rxInterface, ringEngine, HwReg.ofMac])
  rw [rx_setUp (rxInterface e dmaIf) h e dmaIf (by simp [rxInterface, ringEngine])
    (by simp [rxInterface, ringEngine]) (rxInterfaceValues e dmaIf) []] at split
  · exact Engine.obeyed_life _ [0#32] _ [] _ _ file split (by simp) cleared_off
      (fun _ => Iff.rfl) (by simp [rxInterfaceValues, ringValues])
      (rxInterface_ready e dmaIf aligned) nofun (keeps_values _ _ keeps (rxInterface_fits e dmaIf))
  · rw [configureRx_accesses]
    simp [touched, hwAccesses, hwAccess, Engine.touches, rxInterface, ringEngine, writesOf,
      rxInterfaceValues, ringValues, Engine.stopping]

theorem rxSection_life :
    (rxSection e dmaIf).Obeyed file (hwAccesses (hwInitEvents h e b).1 ++ life) ∧
      (rxSection e dmaIf).ready (fileAfter file (hwAccesses (hwInitEvents h e b).1 ++ life)) := by
  have split := hwInit_touched (rxSection e dmaIf) h e b dmaIf listed made
    (by simp [rxSection, rxChannel, rxInterface, ringEngine, HwReg.ofMac])
  rw [rx_setUp (rxSection e dmaIf) h e dmaIf (by simp [rxSection])
    (by simp [rxSection, rxChannel, rxInterface, ringEngine])
    (rxChannelValues e ++ rxInterfaceValues e dmaIf) [.write .comRxcmd 1#32]] at split
  · refine Engine.obeyed_life _ [0#32] _ _ _ _ file split (by simp) cleared_off
      (fun _ => Iff.rfl) (by simp [rxChannelValues, rxInterfaceValues, ringValues])
      (rxSection_ready e dmaIf aligned) ?_ (keeps_values _ _ keeps ?_)
    · simp [Engine.Keeps, rxChannelValues, rxInterfaceValues, ringValues]
    · intro p member
      exact (List.mem_append.mp member).elim (rxChannel_fits e p) (rxInterface_fits e dmaIf p)
  · rw [configureRx_accesses]
    simp [touched, hwAccesses, hwAccess, Engine.touches, rxSection, rxChannel, rxInterface,
      ringEngine, writesOf, rxChannelValues, rxInterfaceValues, ringValues, Engine.stopping]

end Life

/-- From a successful `PA6TEth_HWInit` on, whatever the registers held before, over every run of
the driver's sessions and through `PA6TEth_HWCleanup`: no engine of the driver is enabled before its
registers name its own ring, none of these registers changes while the engine or the receive section
is enabled, and `PA6TEth_HWCleanup` leaves no channel and no interface enabled. -/
theorem engines_run_own_rings (h : HwState) (e : InitEnv) (b loaded : PA6TEthBase) (dmaIf : Nat)
    (stop : StopState) (rxBufs : Nat → Addr) (entries : Nat → Nat) (file : HwReg → BitVec 32)
    (s t : Driver) (actions : List Action) (listed : h.findDmaInterfaceOfMac.2 = some dmaIf)
    (made : (hwInitEvents h e b).2 = true) (aligned : RingsAligned e) (fresh : s.world.regs = [])
    (ran : (unitMachine ⟨dmaIf, 1, 1⟩).run s actions = some t) :
    (∀ x ∈ rxSection e dmaIf :: ringEngines e dmaIf,
        x.Obeyed file (libraryAccesses h e b t.world.regs stop loaded dmaIf rxBufs entries) ∧
          x.ready (fileAfter file
            (libraryAccesses h e b t.world.regs stop loaded dmaIf rxBufs entries))) ∧
      (loaded.dmaDev ≠ 0 → ∀ x ∈ ringEngines e dmaIf,
        x.enables (fileAfter file
          (libraryAccesses h e b t.world.regs stop loaded dmaIf rxBufs entries) x.command) =
            false) := by
  have session := session_keeps t.world.regs (run_rings ⟨dmaIf, 1, 1⟩ s t actions fresh ran)
  have cleanup := cleanup_keeps stop loaded dmaIf rxBufs entries
  have keeps := keepsRings_append _ _ session cleanup
  constructor
  · intro x member
    simp only [ringEngines, List.mem_cons, List.not_mem_nil, or_false] at member
    rcases member with rfl | rfl | rfl | rfl
    · exact rxSection_life h e b dmaIf listed made aligned file _ keeps
    · exact tx_life h e b dmaIf listed made aligned file _ keeps
    · exact rxChannel_life h e b dmaIf listed made aligned file _ keeps
    · exact rxInterface_life h e b dmaIf listed made aligned file _ keeps
  · intro dma x member
    rw [libraryAccesses, ← List.append_assoc, fileAfter_append]
    exact cleanup_off stop e loaded dmaIf rxBufs entries dma _ x member

/-- The first configuration of a unit enables the channels, with registers that held garbage. -/
theorem engines_run_own_rings_online :
    ∃ t, (unitMachine ⟨0, 1, 1⟩).run coldDriver (configUp 1) = some t ∧
      ⟨.txchanTcmdsta 1, txchanTcmdstaValue⟩ ∈ t.world.regs ∧
      (∀ x ∈ rxSection refusedIrq 0 :: ringEngines refusedIrq 0,
        x.Obeyed (fun _ => 0xffffffff#32) (libraryAccesses quietHw refusedIrq foundBase t.world.regs
          stuckTx loadedBase 0 (fun _ => 0) (fun _ => 0)) ∧
          x.ready (fileAfter (fun _ => 0xffffffff#32) (libraryAccesses quietHw refusedIrq foundBase
            t.world.regs stuckTx loadedBase 0 (fun _ => 0) (fun _ => 0)))) := by
  have ran : ((unitMachine ⟨0, 1, 1⟩).run coldDriver (configUp 1)).map
      (fun t => decide (⟨.txchanTcmdsta 1, txchanTcmdstaValue⟩ ∈ t.world.regs)) = some true := by
    decide +kernel
  obtain ⟨t, ends, enabled⟩ := Option.map_eq_some_iff.mp ran
  exact ⟨t, ends, of_decide_eq_true enabled,
    (engines_run_own_rings quietHw refusedIrq foundBase loadedBase 0 stuckTx (fun _ => 0)
      (fun _ => 0) (fun _ => 0xffffffff#32) coldDriver t (configUp 1) (by decide) (by decide)
      ⟨by decide, by decide, by decide⟩ rfl ends).1⟩

end Pa6tEth

import Pa6tEth.HwInit
import Pa6tEth.RxEngine

/-! What `PA6TEth_HWCleanup` does to the engines: whose channels it stops, and whether they have
stopped when their memory is freed. -/

namespace Pa6tEth

open Support

def HwState.interfaceListed (h : HwState) : Bool :=
  (List.range h.tableWords).any fun i => (List.range 4).any (h.listedAt i)

/-- What the hardware's answers mean to `PA6TEth_HWInit`. -/
def HwState.answers (h : HwState) (e : InitEnv) : InitEnv :=
  { e with
    dmaIf := h.interfaceListed
    txIdle := idleStatus h.txSta
    rxIdle := idleStatus h.rxSta }

def resourceUse : HwEvent → Option (Use Resource)
  | .use x => some x
  | _ => none

def resourceUses (events : List HwEvent) : ResourceLog := events.filterMap resourceUse

/-- The register was read without its `ACT` bit. -/
def SeenIdle (past : List HwEvent) (reg : Reg) : Prop :=
  ∃ sta, .read (.shared reg) sta ∈ past ∧ idleStatus sta = true

def HwReg.isChannelCommand : HwReg → Bool
  | shared (.txchanTcmdsta _) => true
  | shared (.rxchanCcmdsta _) => true
  | _ => false

/-- A channel's command register is written only after the channel was found idle. -/
def permitsCommand (past : List HwEvent) : HwEvent → Prop
  | .write (.shared reg) _ => (HwReg.shared reg).isChannelCommand = true → SeenIdle past reg
  | _ => True

/-- `PA6TEth_HWInit`, with the cleanup that it may call, touches no channel of others. -/
def OwnChannelsOnly (h : HwState) (e : InitEnv) (b : PA6TEthBase) : Prop :=
  Permitted permitsCommand [] (hwInitEvents h e b).1

/-- The failures of its checks: no interface, or a channel that is active. -/
def hwRefuses (h : HwState) : Bool :=
  !(h.interfaceListed && idleStatus h.txSta && idleStatus h.rxSta)

theorem scanTable_listed (h : HwState) (left i : Nat) :
    (h.scanTable left i).2.isSome = true ↔
      ∃ k, i ≤ k ∧ k < i + left ∧ (List.range 4).any (h.listedAt k) = true := by
  induction left generalizing i with
  | zero =>
      simp only [HwState.scanTable, Option.isSome_none, Bool.false_eq_true, false_iff]
      rintro ⟨k, low, high, _⟩
      omega
  | succ left ih =>
      simp only [HwState.scanTable]
      split
      · rename_i j found
        simp only [Option.isSome_some, true_iff]
        refine ⟨i, Nat.le_refl i, by omega, ?_⟩
        exact List.any_eq_true.mpr ⟨j, List.mem_of_find?_eq_some found, List.find?_some found⟩
      · rename_i missing
        simp only
        rw [ih (i + 1)]
        constructor
        · rintro ⟨k, low, high, listed⟩
          exact ⟨k, by omega, by omega, listed⟩
        · rintro ⟨k, low, high, listed⟩
          have later : k ≠ i := by
            rintro rfl
            obtain ⟨j, member, here⟩ := List.any_eq_true.mp listed
            exact List.find?_eq_none.mp missing j member here
          exact ⟨k, by omega, by omega, listed⟩

theorem findDmaInterface_listed (h : HwState) :
    h.findDmaInterfaceOfMac.2.isSome = h.interfaceListed := by
  rw [Bool.eq_iff_iff]
  refine (scanTable_listed h h.tableWords 0).trans ?_
  simp [HwState.interfaceListed]

theorem scanTable_reads (h : HwState) (left i : Nat) :
    ∀ event ∈ (h.scanTable left i).1, ∃ offset, event =
      .read (.interfaceTable offset) (h.interfaceTable offset) := by
  induction left generalizing i with
  | zero => nofun
  | succ left ih =>
      simp only [HwState.scanTable]
      split
      · intro event member
        exact ⟨_, List.mem_singleton.mp member⟩
      · intro event member
        rcases List.mem_cons.mp member with rfl | later
        · exact ⟨_, rfl⟩
        · exact ih (i + 1) event later

theorem findDmaInterface_reads (h : HwState) :
    ∀ event ∈ h.findDmaInterfaceOfMac.1, ∃ reg value, event = .read reg value ∧
      ∀ shared, reg ≠ .shared shared := by
  intro event member
  rcases List.mem_cons.mp member with rfl | later
  · exact ⟨_, _, rfl, nofun⟩
  · obtain ⟨offset, rfl⟩ := scanTable_reads h _ _ event later
    exact ⟨_, _, rfl, nofun⟩

theorem stopEngine_idle (reg : Reg) (poll : Nat → BitVec 32) :
    SeenIdle (stopEngine reg poll).1 reg ↔ ∃ k < stopTries, idleStatus (poll k) = true := by
  have stops := polls_stop idleStatus poll stopTries 0
  have seen := polls_seen idleStatus poll stopTries 0
  simp only [Nat.zero_le, true_and, Nat.zero_add] at stops
  rw [← stops, seen]
  constructor
  · rintro ⟨sta, member, idle⟩
    refine ⟨sta, ?_, idle⟩
    simp only [stopEngine, List.mem_append, List.mem_cons, List.mem_map, reduceCtorEq,
      HwEvent.read.injEq, false_or, true_and, exists_eq_right] at member
    rcases member with read | last
    · exact read
    · split at last <;> simp at last
  · rintro ⟨sta, read, idle⟩
    refine ⟨sta, ?_, idle⟩
    simp only [stopEngine, List.mem_append, List.mem_cons, List.mem_map, reduceCtorEq,
      HwEvent.read.injEq, false_or, true_and, exists_eq_right]
    exact .inl read

theorem stopEngine_only (reg : Reg) (poll : Nat → BitVec 32) (event : HwEvent)
    (member : event ∈ (stopEngine reg poll).1) :
    ∃ value, event = .read (.shared reg) value ∨ event = .write (.shared reg) value := by
  simp only [stopEngine, List.mem_append, List.mem_cons, List.mem_map] at member
  rcases member with (rfl | ⟨value, _, rfl⟩) | last
  · exact ⟨_, .inr rfl⟩
  · exact ⟨_, .inl rfl⟩
  · split at last
    · exact ⟨_, .inr (List.mem_singleton.mp last)⟩
    · cases last

theorem seenIdle_append (front back : List HwEvent) (reg : Reg) :
    SeenIdle (front ++ back) reg ↔ SeenIdle front reg ∨ SeenIdle back reg := by
  simp only [SeenIdle, List.mem_append, or_and_right, exists_or]

theorem stopEngine_other (reg other : Reg) (poll : Nat → BitVec 32) (apart : other ≠ reg) :
    ¬ SeenIdle (stopEngine reg poll).1 other := by
  rintro ⟨sta, member, _⟩
  obtain ⟨value, same | same⟩ := stopEngine_only reg poll _ member
  · cases same
    exact apart rfl
  · cases same

theorem cleanupMac_idle (h : StopState) (b : PA6TEthBase) (reg : Reg) (apart : reg ≠ .macPcfg) :
    ¬ SeenIdle (if b.macDev = 0 then [] else disableMac h.pcfg) reg := by
  rintro ⟨sta, member, _⟩
  split at member
  · cases member
  · simp [disableMac, apart] at member

theorem stop_permitted (past : List HwEvent) (reg : Reg) (poll : Nat → BitVec 32)
    (channel : (HwReg.shared reg).isChannelCommand = true)
    (permitted : Permitted permitsCommand past (stopEngine reg poll).1) : SeenIdle past reg :=
  permitted.1 channel

theorem cleanup_permitted (h : StopState) (b : PA6TEthBase) (tx rx : Nat) (dmaIf : Int)
    (rxBufs : Nat → Addr) (entries : Nat → Nat) (past : List HwEvent) (dma : b.dmaDev ≠ 0)
    (permitted : Permitted permitsCommand past
      (hwCleanupEvents h b ⟨dmaIf, tx, rx⟩ rxBufs entries)) :
    SeenIdle past (.txchanTcmdsta tx) ∧ SeenIdle past (.rxchanCcmdsta rx) := by
  simp only [hwCleanupEvents, if_neg dma, stopAll, Int.natCast_nonneg, if_true, Int.toNat_natCast,
    permitted_append] at permitted
  obtain ⟨_, ⟨stopsTx, stopsRx, _⟩, _⟩ := permitted
  have beforeTx := stop_permitted _ _ _ rfl stopsTx
  have beforeRx := stop_permitted _ _ _ rfl stopsRx
  rw [seenIdle_append] at beforeTx beforeRx
  constructor
  · exact beforeTx.resolve_right (cleanupMac_idle h b _ (by simp))
  · have earlier := beforeRx.resolve_right (stopEngine_other _ _ _ (by simp))
    rw [seenIdle_append] at earlier
    exact earlier.resolve_right (cleanupMac_idle h b _ (by simp))

def commandsOwn : HwEvent → Prop
  | .write (.shared reg) _ => (HwReg.shared reg).isChannelCommand = true →
      reg = .txchanTcmdsta 1 ∨ reg = .rxchanCcmdsta 1
  | _ => True

theorem stop_own (reg : Reg) (poll : Nat → BitVec 32)
    (own : (HwReg.shared reg).isChannelCommand = true →
      reg = .txchanTcmdsta 1 ∨ reg = .rxchanCcmdsta 1) :
    ∀ event ∈ (stopEngine reg poll).1, commandsOwn event := by
  intro event member
  obtain ⟨value, rfl | rfl⟩ := stopEngine_only reg poll event member
  · trivial
  · exact own

theorem uses_own (log : ResourceLog) : ∀ event ∈ log.map HwEvent.use, commandsOwn event := by
  intro event member
  obtain ⟨x, _, rfl⟩ := List.mem_map.mp member
  trivial

theorem fail_own (h : HwState) (b : PA6TEthBase) (dmaIf : Nat) :
    ∀ event ∈ (hwInitFail h b ⟨dmaIf, 1, 1⟩).1, commandsOwn event := by
  intro event member
  simp only [hwInitFail, hwCleanupEvents, List.mem_append] at member
  rcases member with mac | dma | uses
  · split at mac
    · cases mac
    · simp only [disableMac, List.mem_cons, List.not_mem_nil, or_false] at mac
      rcases mac with rfl | rfl
      · trivial
      · exact nofun
  · split at dma
    · cases dma
    · simp only [stopAll, List.mem_append] at dma
      rcases dma with tx | rx | intf
      · exact stop_own _ _ (fun _ => .inl rfl) event tx
      · exact stop_own _ _ (fun _ => .inr rfl) event rx
      · split at intf
        · exact stop_own _ _ (by nofun) event intf
        · cases intf
  · exact uses_own _ event uses

theorem configure_own (h : HwState) (e : InitEnv) (dmaIf : Nat) :
    ∀ event ∈ configureTx h e dmaIf ++ (configureRx h e dmaIf ++ configureMac h),
      commandsOwn event := by
  intro event member
  simp only [List.mem_append] at member
  rcases member with tx | rx | mac
  · rcases List.mem_append.mp tx with stop | rest
    · exact stop_own _ _ (fun _ => .inl rfl) event stop
    · simp only [List.mem_cons, List.not_mem_nil, or_false] at rest
      rcases rest with rfl | rfl | rfl <;> trivial
  · simp only [configureRx, List.cons_append, List.mem_cons, List.mem_append, List.mem_map,
      List.not_mem_nil, or_false] at rx
    rcases rx with rfl | ⟨_, _, rfl⟩ | rfl | rfl | rfl | rfl | rfl | rfl | rfl | rfl | rfl
    · trivial
    · trivial
    · exact fun _ => .inr rfl
    · exact nofun
    · exact nofun
    · trivial
    · trivial
    · exact nofun
    · trivial
    · exact nofun
    · trivial
  · simp only [configureMac, disableMac, HwState.programMacAddr, List.mem_append, List.mem_cons,
      List.mem_map, List.not_mem_nil, or_false] at mac
    rcases mac with ((((rfl | rfl) | rfl | rfl | rfl) | ⟨_, _, rfl⟩) | rfl | rfl | rfl) | rfl
    · trivial
    · exact nofun
    all_goals trivial

theorem rings_own (h : HwState) (e : InitEnv) (b : PA6TEthBase) (dmaIf : Nat) :
    ∀ event ∈ (hwInitRings h e b dmaIf).1, commandsOwn event := by
  intro event member
  rcases List.mem_append.mp member with uses | rest
  · exact uses_own _ event uses
  · split at rest
    · exact configure_own h e dmaIf event rest
    · exact fail_own h _ dmaIf event rest

/-- The channels are the driver's once both were found idle. -/
theorem permitted_own (past log : List HwEvent) (tx : SeenIdle past (.txchanTcmdsta 1))
    (rx : SeenIdle past (.rxchanCcmdsta 1)) (own : ∀ event ∈ log, commandsOwn event) :
    Permitted permitsCommand past log := by
  apply permitted_always
  intro event member more
  have here := own event member
  cases event with
  | read reg value => trivial
  | use x => trivial
  | write reg value =>
      cases reg with
      | shared reg =>
          intro channel
          rw [seenIdle_append]
          rcases here channel with rfl | rfl
          · exact .inl tx
          · exact .inl rx
      | _ => trivial

def checkTx (h : HwState) (scan : List HwEvent) : List HwEvent :=
  scan ++ [.read .macAdr0 h.adr0, .read .macAdr1 h.adr1,
    .read (.shared (.txchanTcmdsta 1)) h.txSta]

theorem scan_idle (h : HwState) (reg : Reg) : ¬ SeenIdle h.findDmaInterfaceOfMac.1 reg := by
  rintro ⟨sta, member, _⟩
  obtain ⟨other, value, same, apart⟩ := findDmaInterface_reads h _ member
  cases same
  exact apart reg rfl

theorem checkTx_idle (h : HwState) (reg : Reg) :
    SeenIdle (checkTx h h.findDmaInterfaceOfMac.1) reg ↔
      reg = .txchanTcmdsta 1 ∧ idleStatus h.txSta = true := by
  rw [checkTx, seenIdle_append, or_iff_right (scan_idle h reg)]
  constructor
  · rintro ⟨sta, member, idle⟩
    simp only [List.mem_cons, HwEvent.read.injEq, reduceCtorEq, false_and, false_or,
      HwReg.shared.injEq, List.not_mem_nil, or_false] at member
    obtain ⟨rfl, rfl⟩ := member
    exact ⟨rfl, idle⟩
  · rintro ⟨rfl, idle⟩
    exact ⟨h.txSta, by simp, idle⟩

theorem checkRx_idle (h : HwState) :
    SeenIdle (checkTx h h.findDmaInterfaceOfMac.1 ++
        [.read (.shared (.rxchanCcmdsta 1)) h.rxSta]) (.rxchanCcmdsta 1) ↔
      idleStatus h.rxSta = true := by
  rw [seenIdle_append, checkTx_idle]
  simp [SeenIdle]

theorem hwInitEvents_eq (h : HwState) (e : InitEnv) (b : PA6TEthBase) :
    hwInitEvents h e b =
      match h.findDmaInterfaceOfMac.2 with
      | none => (h.findDmaInterfaceOfMac.1 ++ (hwInitFail h b ⟨-1, 0, 0⟩).1, false)
      | some dmaIf =>
          if idleStatus h.txSta then
            if idleStatus h.rxSta then
              (checkTx h h.findDmaInterfaceOfMac.1 ++
                [.read (.shared (.rxchanCcmdsta 1)) h.rxSta] ++ (hwInitRings h e b dmaIf).1,
                (hwInitRings h e b dmaIf).2)
            else
              (checkTx h h.findDmaInterfaceOfMac.1 ++
                [.read (.shared (.rxchanCcmdsta 1)) h.rxSta] ++
                  (hwInitFail h b ⟨dmaIf, 1, 1⟩).1, false)
          else (checkTx h h.findDmaInterfaceOfMac.1 ++ (hwInitFail h b ⟨dmaIf, 1, 1⟩).1, false) := by
  rcases scanned : h.findDmaInterfaceOfMac with ⟨scan, found⟩
  simp only [hwInitEvents, scanned]
  cases found <;> rfl

theorem scan_permitted (h : HwState) : Permitted permitsCommand [] h.findDmaInterfaceOfMac.1 := by
  apply permitted_always
  intro event member more
  obtain ⟨reg, value, rfl, _⟩ := findDmaInterface_reads h event member
  trivial

theorem refused_stops (h : HwState) (e : InitEnv) (b : PA6TEthBase) (dma : b.dmaDev ≠ 0)
    (refuses : hwRefuses h = true) : ¬ OwnChannelsOnly h e b := by
  have listed := findDmaInterface_listed h
  rw [OwnChannelsOnly, hwInitEvents_eq]
  cases found : h.findDmaInterfaceOfMac.2 with
  | none =>
      intro permitted
      have stopped := cleanup_permitted h.cleanup b 0 0 (-1) _ _ _ dma
        ((permitted_append _ _ _ _).mp permitted).2
      exact scan_idle h _ stopped.1
  | some dmaIf =>
      rw [found] at listed
      simp only [hwRefuses, ← listed, Option.isSome_some, Bool.true_and] at refuses
      cases tx : idleStatus h.txSta with
      | false =>
          simp only [Bool.false_eq_true, if_false]
          intro permitted
          have stopped := cleanup_permitted h.cleanup b 1 1 dmaIf _ _ _ dma
            ((permitted_append _ _ _ _).mp permitted).2
          have idle := ((checkTx_idle h _).mp stopped.1).2
          rw [tx] at idle
          cases idle
      | true =>
          have rx : idleStatus h.rxSta = false := by simpa [tx] using refuses
          simp only [rx, Bool.false_eq_true, if_true, if_false]
          intro permitted
          have stopped := cleanup_permitted h.cleanup b 1 1 dmaIf _ _ _ dma
            ((permitted_append _ _ _ _).mp permitted).2
          have idle := (checkRx_idle h).mp stopped.2
          rw [rx] at idle
          cases idle

theorem passed_own (h : HwState) (e : InitEnv) (b : PA6TEthBase) (passes : hwRefuses h = false) :
    OwnChannelsOnly h e b := by
  simp only [hwRefuses, Bool.not_eq_false', Bool.and_eq_true] at passes
  obtain ⟨⟨listed, tx⟩, rx⟩ := passes
  rw [← findDmaInterface_listed, Option.isSome_iff_exists] at listed
  obtain ⟨dmaIf, found⟩ := listed
  rw [OwnChannelsOnly, hwInitEvents_eq]
  simp only [found, tx, rx, if_true]
  rw [permitted_append, permitted_append, checkTx, permitted_append]
  have txSeen := (checkTx_idle h (.txchanTcmdsta 1)).mpr ⟨rfl, tx⟩
  have own := permitted_own (checkTx h h.findDmaInterfaceOfMac.1 ++
    [.read (.shared (.rxchanCcmdsta 1)) h.rxSta]) _
    ((seenIdle_append _ _ _).mpr (.inl txSeen)) ((checkRx_idle h).mpr rx) (rings_own h e b dmaIf)
  exact ⟨⟨⟨scan_permitted h, trivial, trivial, trivial, trivial⟩, trivial, trivial⟩, own⟩

/-- `PA6TEth_HWInit` leaves the channels of others alone exactly when none of its checks fails. -/
theorem own_channels_iff (h : HwState) (e : InitEnv) (b : PA6TEthBase) (dma : b.dmaDev ≠ 0) :
    OwnChannelsOnly h e b ↔ hwRefuses h = false := by
  constructor
  · intro own
    cases refuses : hwRefuses h with
    | false => rfl
    | true => exact absurd own (refused_stops h e b dma refuses)
  · exact passed_own h e b

/-- Hardware whose table lists the MAC as its first interface, with engines that stop at once. -/
def quietHw : HwState where
  dev := 0x14
  fn := 3
  capIfi := 0x80010000
  interfaceTable := fun _ => 0x000000A3
  adr0 := 0x11223344
  adr1 := 0x00005566
  txSta := 0#32
  rxSta := 0#32
  setupTx := fun _ => 0#32
  rxSection := fun _ => 0#32
  pcfg := 0#32
  maccfg := 0#32
  oldAdr1 := 0#32
  cleanup := ⟨0#32, fun _ => 0#32, fun _ => 0#32, fun _ => 0#32⟩

def foundBase : PA6TEthBase :=
  { emptyBase with macDev := 0x30, dmaDev := 0x40, iobDev := 0x50, unit := 0x80 }

theorem own_channels_quiet :
    foundBase.dmaDev ≠ 0 ∧ OwnChannelsOnly quietHw refusedIrq foundBase :=
  ⟨by decide, (own_channels_iff quietHw refusedIrq foundBase (by decide)).mpr (by decide)⟩

/-- Without an interface channel 0 is stopped; a channel 1 that is active is stopped too. -/
theorem foreign_channels_stopped :
    (hwInitEvents { quietHw with interfaceTable := fun _ => 0#32 } refusedIrq foundBase).2 = false ∧
      .write (.shared (.txchanTcmdsta 0)) cmdstaSt ∈
        (hwInitEvents { quietHw with interfaceTable := fun _ => 0#32 } refusedIrq foundBase).1 ∧
      ¬ OwnChannelsOnly { quietHw with interfaceTable := fun _ => 0#32 } refusedIrq foundBase ∧
      .write (.shared (.txchanTcmdsta 1)) cmdstaSt ∈
        (hwInitEvents { quietHw with txSta := cmdstaAct } refusedIrq foundBase).1 ∧
      ¬ OwnChannelsOnly { quietHw with txSta := cmdstaAct } refusedIrq foundBase ∧
      ¬ OwnChannelsOnly { quietHw with rxSta := cmdstaAct } refusedIrq foundBase :=
  ⟨by decide, by decide, refused_stops _ _ _ (by decide) (by decide), by decide,
    refused_stops _ _ _ (by decide) (by decide), refused_stops _ _ _ (by decide) (by decide)⟩

def SeenStopped (past : List HwEvent) (reg : Nat → Reg) (number : Int) : Prop :=
  0 ≤ number ∧ SeenIdle past (reg number.toNat)

/-- What the TX engine uses is freed after it was seen idle, and what the RX engines use after
both of them were. -/
def permitsFree (n : DmaNumbers) (tx rx : List Resource) (past : List HwEvent) : HwEvent → Prop
  | .use (.give x) =>
      (x ∈ tx → SeenStopped past .txchanTcmdsta n.txChannelNum) ∧
        (x ∈ rx → SeenStopped past .rxchanCcmdsta n.rxChannelNum ∧
          SeenStopped past .rxintRcmdsta n.dmaIf)
  | _ => True

def txMemory (b : PA6TEthBase) : List Resource :=
  mappedBlock b.rings.txRing (ringBytes txRingSize) b.rings.txRingDmaEntries

def rxMemory (b : PA6TEthBase) (rxBufs : Nat → Addr) (rxBufsDmaEntries : Nat → Nat) :
    List Resource :=
  rxBufsHeld rxBufs rxBufsDmaEntries ++
    (mappedBlock b.rings.rxBufRing (ringBytes rxBufRingSize) b.rings.rxBufRingDmaEntries ++
      mappedBlock b.rings.rxRing (ringBytes rxRingSize) b.rings.rxRingDmaEntries)

/-- `PA6TEth_HWCleanup` frees memory only after the engines that use it have stopped. -/
def FreesStopped (h : StopState) (b : PA6TEthBase) (n : DmaNumbers) (rxBufs : Nat → Addr)
    (rxBufsDmaEntries : Nat → Nat) : Prop :=
  Permitted (permitsFree n (txMemory b) (rxMemory b rxBufs rxBufsDmaEntries)) []
    (hwCleanupEvents h b n rxBufs rxBufsDmaEntries)

def Stops (b : PA6TEthBase) (number : Int) (poll : Nat → BitVec 32) : Prop :=
  b.dmaDev ≠ 0 ∧ 0 ≤ number ∧ ∃ k < stopTries, idleStatus (poll k) = true

theorem mappedBlock_nil (pointer : Addr) (size entries : Nat) :
    mappedBlock pointer size entries = [] ↔ pointer = 0 := by
  simp only [mappedBlock]
  split
  · rename_i null
    simp [null]
  · rename_i present
    simp [present]

theorem rxMemory_nil (b : PA6TEthBase) (rxBufs : Nat → Addr) (entries : Nat → Nat) :
    rxMemory b rxBufs entries = [] ↔
      (∀ i < numRxBufs, rxBufs i = 0) ∧ b.rings.rxBufRing = 0 ∧ b.rings.rxRing = 0 := by
  simp only [rxMemory, rxBufsHeld, List.append_eq_nil_iff, List.flatMap_eq_nil_iff, List.mem_range,
    mappedBlock_nil]

theorem uses_idle (log : ResourceLog) (reg : Reg) : ¬ SeenIdle (log.map .use) reg := by
  rintro ⟨sta, member, _⟩
  simp at member

theorem permitted_gives (n : DmaNumbers) (tx rx : List Resource) (past : List HwEvent)
    (held : List Resource) :
    Permitted (permitsFree n tx rx) past ((held.map .give).map .use) ↔
      ∀ x ∈ held, permitsFree n tx rx past (.use (.give x)) := by
  have same : ∀ (log : ResourceLog) x, permitsFree n tx rx (past ++ log.map .use)
      (.use (.give x)) ↔ permitsFree n tx rx past (.use (.give x)) := by
    intro log x
    simp only [permitsFree, SeenStopped, seenIdle_append, uses_idle, or_false]
  constructor
  · intro permitted x member
    obtain ⟨before, after, rfl⟩ := List.append_of_mem member
    simp only [List.map_append, List.map_cons] at permitted
    exact (same (before.map .give) x).mp (permitted_here _ _ _ _ _ permitted)
  · intro all
    induction held generalizing past with
    | nil => trivial
    | cons x rest ih =>
        have first := all x List.mem_cons_self
        refine ⟨first, ih (past ++ [.use (.give x)]) ?_ ?_⟩
        · intro log y
          simp only [permitsFree, SeenStopped, seenIdle_append, uses_idle, or_false]
        · intro y member
          exact (same [.give x] y).mpr (all y (List.mem_cons_of_mem x member))

theorem stopIf_other (number : Int) (reg other : Reg) (poll : Nat → BitVec 32)
    (apart : other ≠ reg) :
    ¬ SeenIdle (if 0 ≤ number then (stopEngine reg poll).1 else []) other := by
  split
  · exact stopEngine_other reg other poll apart
  · rintro ⟨_, member, _⟩
    cases member

theorem stopIf_idle (number : Int) (reg : Reg) (poll : Nat → BitVec 32) :
    0 ≤ number ∧ SeenIdle (if 0 ≤ number then (stopEngine reg poll).1 else []) reg ↔
      0 ≤ number ∧ ∃ k < stopTries, idleStatus (poll k) = true := by
  constructor
  · rintro ⟨asked, seen⟩
    rw [if_pos asked, stopEngine_idle] at seen
    exact ⟨asked, seen⟩
  · rintro ⟨asked, stops⟩
    rw [if_pos asked, stopEngine_idle]
    exact ⟨asked, stops⟩

theorem cleanup_seen (h : StopState) (b : PA6TEthBase) (n : DmaNumbers) :
    let past := (if b.macDev = 0 then [] else disableMac h.pcfg) ++
      (if b.dmaDev = 0 then [] else stopAll h n)
    (SeenStopped past .txchanTcmdsta n.txChannelNum ↔ Stops b n.txChannelNum h.tx) ∧
      (SeenStopped past .rxchanCcmdsta n.rxChannelNum ↔ Stops b n.rxChannelNum h.rx) ∧
      (SeenStopped past .rxintRcmdsta n.dmaIf ↔ Stops b n.dmaIf h.intf) := by
  have mac := fun reg apart => cleanupMac_idle h b reg apart
  by_cases dma : b.dmaDev = 0
  · simp [SeenStopped, mac, dma, Stops]
  · have tx := fun reg apart => stopIf_other n.txChannelNum (.txchanTcmdsta n.txChannelNum.toNat)
      reg h.tx apart
    have rx := fun reg apart => stopIf_other n.rxChannelNum (.rxchanCcmdsta n.rxChannelNum.toNat)
      reg h.rx apart
    have intf := fun reg apart => stopIf_other n.dmaIf (.rxintRcmdsta n.dmaIf.toNat) reg h.intf
      apart
    simp only [SeenStopped, if_neg dma, stopAll, stopTxChannel, stopRxChannel, stopRxInterface,
      seenIdle_append]
    simp only [Stops, ne_eq, dma, not_false_eq_true, true_and]
    refine ⟨?_, ?_, ?_⟩
    · rw [or_iff_right (mac _ (by simp)), or_iff_left, stopIf_idle]
      rintro (seen | seen)
      · exact rx _ (by simp) seen
      · exact intf _ (by simp) seen
    · rw [or_iff_right (mac _ (by simp)), or_iff_right (tx _ (by simp)),
        or_iff_left (intf _ (by simp)), stopIf_idle]
    · rw [or_iff_right (mac _ (by simp)), or_iff_right (tx _ (by simp)),
        or_iff_right (rx _ (by simp)), stopIf_idle]

theorem stopAll_reads (h : StopState) (b : PA6TEthBase) (n : DmaNumbers) (tx rx : List Resource) :
    Permitted (permitsFree n tx rx) [] ((if b.macDev = 0 then [] else disableMac h.pcfg) ++
      (if b.dmaDev = 0 then [] else stopAll h n)) := by
  have stop : ∀ reg poll, ∀ event ∈ (stopEngine reg poll).1,
      ∀ past, permitsFree n tx rx past event := by
    intro reg poll event member past
    obtain ⟨value, rfl | rfl⟩ := stopEngine_only reg poll event member <;> trivial
  apply permitted_always
  intro event member more
  rcases List.mem_append.mp member with mac | dma
  · split at mac
    · cases mac
    · simp only [disableMac, List.mem_cons, List.not_mem_nil, or_false] at mac
      rcases mac with rfl | rfl <;> trivial
  · split at dma
    · cases dma
    · simp only [stopAll, List.mem_append] at dma
      rcases dma with tx | rx | intf
      · split at tx
        · exact stop _ _ event tx _
        · cases tx
      · split at rx
        · exact stop _ _ event rx _
        · cases rx
      · split at intf
        · exact stop _ _ event intf _
        · cases intf

/-- Nothing is freed too early exactly when each engine that has memory is seen idle. -/
theorem freesStopped_memory (h : StopState) (b : PA6TEthBase) (n : DmaNumbers)
    (rxBufs : Nat → Addr) (rxBufsDmaEntries : Nat → Nat) :
    FreesStopped h b n rxBufs rxBufsDmaEntries ↔
      (b.unit ≠ 0 →
        (txMemory b ≠ [] → Stops b n.txChannelNum h.tx) ∧
        (rxMemory b rxBufs rxBufsDmaEntries ≠ [] →
          Stops b n.rxChannelNum h.rx ∧ Stops b n.dmaIf h.intf)) := by
  obtain ⟨tx, rx, intf⟩ := cleanup_seen h b n
  have reads := stopAll_reads h b n (txMemory b) (rxMemory b rxBufs rxBufsDmaEntries)
  rw [FreesStopped, hwCleanupEvents, ← List.append_assoc, permitted_append, and_iff_right reads,
    List.nil_append, hwCleanup]
  generalize (if b.macDev = 0 then [] else disableMac h.pcfg) ++
    (if b.dmaDev = 0 then [] else stopAll h n) = past at tx rx intf ⊢
  split
  · rename_i none
    simp [none, Permitted]
  · rename_i unit
    have memory : ∀ x, x ∈ rxBufsHeld rxBufs rxBufsDmaEntries ++ b.rings.held ↔
        x ∈ txMemory b ∨ x ∈ rxMemory b rxBufs rxBufsDmaEntries := by
      intro x
      have turned : ∀ p q r s : Prop, (p ∨ q ∨ r ∨ s) ↔ (s ∨ p ∨ q ∨ r) := by
        intro p q r s
        rw [← or_assoc, ← or_assoc, or_comm, or_assoc]
      simp only [txMemory, rxMemory, UnitRings.held, List.mem_append]
      exact turned _ _ _ _
    rw [permitted_gives, ← tx, ← rx, ← intf]
    simp only [ne_eq, unit, not_false_eq_true, true_implies, permitsFree, memory]
    constructor
    · intro all
      constructor
      · intro present
        obtain ⟨x, member⟩ := List.exists_mem_of_ne_nil _ present
        exact (all x (.inl member)).1 member
      · intro present
        obtain ⟨x, member⟩ := List.exists_mem_of_ne_nil _ present
        exact (all x (.inr member)).2 member
    · rintro ⟨stopsTx, stopsRx⟩ x _
      exact ⟨fun member => stopsTx (List.ne_nil_of_mem member),
        fun member => stopsRx (List.ne_nil_of_mem member)⟩

/-- `PA6TEth_HWCleanup` frees memory only after its engine stopped exactly when one of the polls
of each engine that has memory finds it idle. -/
theorem frees_stopped_iff (h : StopState) (b : PA6TEthBase) (n : DmaNumbers)
    (rxBufs : Nat → Addr) (rxBufsDmaEntries : Nat → Nat) :
    FreesStopped h b n rxBufs rxBufsDmaEntries ↔
      (b.unit ≠ 0 →
        (b.rings.txRing ≠ 0 → Stops b n.txChannelNum h.tx) ∧
        ((∃ i < numRxBufs, rxBufs i ≠ 0) ∨ b.rings.rxBufRing ≠ 0 ∨ b.rings.rxRing ≠ 0 →
          Stops b n.rxChannelNum h.rx ∧ Stops b n.dmaIf h.intf)) := by
  have tx : txMemory b ≠ [] ↔ b.rings.txRing ≠ 0 := (mappedBlock_nil _ _ _).not
  have rx : rxMemory b rxBufs rxBufsDmaEntries ≠ [] ↔
      (∃ i < numRxBufs, rxBufs i ≠ 0) ∨ b.rings.rxBufRing ≠ 0 ∨ b.rings.rxRing ≠ 0 := by
    rw [ne_eq, rxMemory_nil, not_and_or, not_and_or]
    push Not
    rfl
  rw [freesStopped_memory, tx, rx]

/-- A loaded library base, whose TX engine never stops: its ring is freed all the same. -/
def loadedBase : PA6TEthBase :=
  { foundBase with rings := ⟨0x4000, 1, 0x1000, 1, 0x8000, 1⟩ }

def stuckTx : StopState := { quietHw.cleanup with tx := fun _ => cmdstaAct }

theorem frees_running :
    .give (.block 0x4000) ∈ hwCleanup loadedBase.unit loadedBase.rings (fun _ => 0) (fun _ => 0) ∧
      ¬ FreesStopped stuckTx loadedBase ⟨0, 1, 1⟩ (fun _ => 0) (fun _ => 0) := by
  constructor
  · simp [hwCleanup, loadedBase, foundBase, UnitRings.held, mappedBlock]
  · intro freed
    obtain ⟨tx, _⟩ := (freesStopped_memory _ _ _ _ _).mp freed (by decide)
    obtain ⟨_, _, k, _, idle⟩ := tx (by decide)
    exact absurd idle (by simp [stuckTx, idleStatus, cmdstaAct])

theorem resourceUses_append (front back : List HwEvent) :
    resourceUses (front ++ back) = resourceUses front ++ resourceUses back :=
  List.filterMap_append

theorem resourceUses_uses (log : ResourceLog) : resourceUses (log.map .use) = log := by
  simp [resourceUses, List.filterMap_map, Function.comp_def, resourceUse]

theorem resourceUses_none (events : List HwEvent)
    (accesses : ∀ event ∈ events, resourceUse event = none) : resourceUses events = [] :=
  List.filterMap_eq_nil_iff.mpr accesses

theorem stop_uses (reg : Reg) (poll : Nat → BitVec 32) :
    resourceUses (stopEngine reg poll).1 = [] := by
  apply resourceUses_none
  intro event member
  obtain ⟨value, rfl | rfl⟩ := stopEngine_only reg poll event member <;> rfl

theorem cleanup_uses (h : StopState) (b : PA6TEthBase) (n : DmaNumbers) (rxBufs : Nat → Addr)
    (entries : Nat → Nat) :
    resourceUses (hwCleanupEvents h b n rxBufs entries) =
      hwCleanup b.unit b.rings rxBufs entries := by
  have mac : resourceUses (if b.macDev = 0 then [] else disableMac h.pcfg) = [] := by
    split <;> rfl
  have stop : ∀ (number : Int) reg poll,
      resourceUses (if 0 ≤ number then (stopEngine reg poll).1 else []) = [] := by
    intro number reg poll
    split
    · exact stop_uses reg poll
    · rfl
  have dma : resourceUses (if b.dmaDev = 0 then [] else stopAll h n) = [] := by
    split
    · rfl
    · simp only [stopAll, resourceUses_append, stopTxChannel, stopRxChannel, stopRxInterface, stop,
        List.append_nil]
  simp only [hwCleanupEvents, resourceUses_append, mac, dma, resourceUses_uses, List.nil_append]

theorem configure_uses (h : HwState) (e : InitEnv) (dmaIf : Nat) :
    resourceUses (configureTx h e dmaIf ++ (configureRx h e dmaIf ++ configureMac h)) = [] := by
  rw [resourceUses_append, resourceUses_append, configureTx, resourceUses_append, stopTxChannel,
    stop_uses]
  have rx : resourceUses (configureRx h e dmaIf) = [] := by
    apply resourceUses_none
    intro event member
    simp only [configureRx, List.cons_append, List.mem_cons, List.mem_append, List.mem_map,
      List.not_mem_nil, or_false] at member
    rcases member with rfl | ⟨_, _, rfl⟩ | rfl | rfl | rfl | rfl | rfl | rfl | rfl | rfl | rfl <;>
      rfl
  have mac : resourceUses (configureMac h) = [] := by
    apply resourceUses_none
    intro event member
    simp only [configureMac, disableMac, HwState.programMacAddr, List.mem_append, List.mem_cons,
      List.mem_map, List.not_mem_nil, or_false] at member
    rcases member with ((((rfl | rfl) | rfl | rfl | rfl) | ⟨_, _, rfl⟩) | rfl | rfl | rfl) | rfl <;>
      rfl
  rw [rx, mac]
  rfl

theorem hwInitEvents_init (h : HwState) (e : InitEnv) (b : PA6TEthBase) :
    (hwInitEvents h e b).2 = (hwInit (h.answers e) b).2.2 ∧
      resourceUses (hwInitEvents h e b).1 = (hwInit (h.answers e) b).2.1 := by
  have listed := findDmaInterface_listed h
  have rings : ringStages (h.answers e) = ringStages e := rfl
  have unit := ringStages_kept PA6TEthBase.unit (fun _ _ => rfl) e b
  have scan : resourceUses h.findDmaInterfaceOfMac.1 = [] := by
    apply resourceUses_none
    intro event member
    obtain ⟨_, _, rfl, _⟩ := findDmaInterface_reads h event member
    rfl
  have front : resourceUses (checkTx h h.findDmaInterfaceOfMac.1) = [] := by
    rw [checkTx, resourceUses_append, scan]
    rfl
  have last : ∀ rest, resourceUses (.read (.shared (.rxchanCcmdsta 1)) h.rxSta :: rest) =
      resourceUses rest := fun _ => rfl
  rw [hwInitEvents_eq, hwInit_eq, rings]
  cases found : h.findDmaInterfaceOfMac.2 with
  | none =>
      rw [found] at listed
      simp [HwState.answers, ← listed, hwInitFail, resourceUses_append, scan, cleanup_uses]
  | some dmaIf =>
      rw [found] at listed
      cases tx : idleStatus h.txSta with
      | false =>
          simp [HwState.answers, tx, hwInitFail, resourceUses_append, front, cleanup_uses]
      | true =>
          cases rx : idleStatus h.rxSta with
          | false =>
              simp [HwState.answers, tx, rx, hwInitFail, resourceUses_append, front, last,
                cleanup_uses]
          | true =>
              simp only [if_true, HwState.answers, ← listed, Option.isSome_some, tx, rx,
                Bool.and_self, hwInitRings, resourceUses_append, front, last, resourceUses_uses,
                List.nil_append, List.append_assoc, List.cons_append]
              split
              · rename_i made
                simp only [made, configure_uses, List.append_nil, and_self]
              · simp only [hwInitFail, cleanup_uses, unit, and_self]

/-- The register writes among the events, as far as the receive engine may see them. -/
def sharedWrite : HwEvent → Option RegWrite
  | .write (.shared reg) value => some ⟨reg, value⟩
  | _ => none

def sharedWrites (events : List HwEvent) : List RegWrite := events.filterMap sharedWrite

theorem engine_ignores (ch : Channels) (x : RxEngine) (ws : List RegWrite)
    (other : ∀ w ∈ ws, w.reg ≠ .rxchanIncr ch.rxChannelNum ∧ w.reg ≠ .rxintIncr ch.dmaIf ∧
      w.reg ≠ .rxchanBasel ch.rxChannelNum ∧ w.reg ≠ .rxintBasel ch.dmaIf) :
    x.writes ch ws = x := by
  induction ws generalizing x with
  | nil => rfl
  | cons w rest ih =>
      obtain ⟨chan, intf, desc, buf⟩ := other w List.mem_cons_self
      have first : x.write ch w = x := by
        rw [RxEngine.write, if_neg chan, if_neg intf, if_neg desc, if_neg buf]
      show (x.write ch w).writes ch rest = x
      rw [first]
      exact ih x fun later member => other later (List.mem_cons_of_mem w member)

theorem configureTx_engine (h : HwState) (e : InitEnv) (dmaIf : Nat) (x : RxEngine) :
    x.writes ⟨dmaIf, 1, 1⟩ (sharedWrites (configureTx h e dmaIf)) = x := by
  apply engine_ignores
  intro w member
  obtain ⟨event, member, same⟩ := List.mem_filterMap.mp member
  rcases List.mem_append.mp member with stop | rest
  · obtain ⟨value, rfl | rfl⟩ := stopEngine_only _ _ event stop
    · cases same
    · cases same
      simp
  · simp only [List.mem_cons, List.not_mem_nil, or_false] at rest
    rcases rest with rfl | rfl | rfl <;> cases same

theorem configure_engine (h : HwState) (e : InitEnv) (dmaIf : Nat) (x : RxEngine) :
    x.writes ⟨dmaIf, 1, 1⟩
        (sharedWrites (configureTx h e dmaIf ++ (configureRx h e dmaIf ++ configureMac h))) =
      { x with descPos := 0, bufPos := 0 } := by
  have polled : ∀ values : List (BitVec 32),
      (values.map (HwEvent.read .comRxsta)).filterMap sharedWrite = [] := by
    intro values
    rw [List.filterMap_eq_nil_iff]
    intro event member
    obtain ⟨_, _, rfl⟩ := List.mem_map.mp member
    rfl
  have rx : sharedWrites (configureRx h e dmaIf) =
      [⟨.rxchanCcmdsta 1, 0#32⟩, ⟨.rxintRcmdsta dmaIf, 0#32⟩,
        ⟨.rxchanBasel 1, basel e.rxRing.phys⟩, ⟨.rxintBasel dmaIf, basel e.rxBufRing.phys⟩,
        ⟨.rxintCfg dmaIf, rxintCfgValue⟩] := by
    simp only [sharedWrites, configureRx, List.cons_append, List.filterMap_cons,
      List.filterMap_append, polled, sharedWrite, List.nil_append, List.filterMap_nil]
  have mac : sharedWrites (configureMac h) = [⟨.macPcfg, h.pcfg &&& ~~~macPcfgPe⟩] := rfl
  have split : sharedWrites (configureTx h e dmaIf ++
      (configureRx h e dmaIf ++ configureMac h)) =
      sharedWrites (configureTx h e dmaIf) ++
        (sharedWrites (configureRx h e dmaIf) ++ sharedWrites (configureMac h)) := by
    simp only [sharedWrites, List.filterMap_append]
  rw [split, engine_writes_append, configureTx_engine, rx, mac]
  simp [RxEngine.writes, RxEngine.write]

end Pa6tEth

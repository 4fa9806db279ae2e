import Pa6tEth.PostRxBuffers
import Pa6tEth.Support.Resources

/-! What `_manager_Init` takes from the system, and what `_manager_Expunge` and
`PA6TEth_HWCleanup` give back. -/

namespace Pa6tEth

open Support

/-- What the driver gets from the system and has to give back. -/
inductive Resource
  | block (address : Addr)
  | mapping (address : Addr) (size : Nat)
  | library (base : Addr)
  | interface (iface : Addr)
  | pciDevice (device : Addr)
  | intServer (vector : BitVec 32)
  deriving DecidableEq, Repr

abbrev ResourceLog := List (Use Resource)

/-- A pointer that is not `NULL` stands for a resource. -/
def heldIf (pointer : Addr) (x : Resource) : List Resource := if pointer = 0 then [] else [x]

def takeIf (pointer : Addr) (x : Resource) : ResourceLog := (heldIf pointer x).map .take

def giveIf (pointer : Addr) (x : Resource) : ResourceLog := (heldIf pointer x).map .give

def mappedBlock (pointer : Addr) (size dmaEntries : Nat) : List Resource :=
  if pointer = 0 then []
  else (if dmaEntries = 0 then [] else [.mapping pointer size]) ++ [.block pointer]

structure UnitRings where
  txRing : Addr
  txRingDmaEntries : Nat
  rxRing : Addr
  rxRingDmaEntries : Nat
  rxBufRing : Addr
  rxBufRingDmaEntries : Nat
  deriving DecidableEq, Repr

def ringBytes (words : Nat) : Nat := words * 8

def UnitRings.held (r : UnitRings) : List Resource :=
  mappedBlock r.rxBufRing (ringBytes rxBufRingSize) r.rxBufRingDmaEntries ++
    (mappedBlock r.rxRing (ringBytes rxRingSize) r.rxRingDmaEntries ++
      mappedBlock r.txRing (ringBytes txRingSize) r.txRingDmaEntries)

structure PA6TEthBase where
  expansionBase : Addr
  iPCI : Addr
  macDev : Addr
  dmaDev : Addr
  iobDev : Addr
  utilityBase : Addr
  iUtility : Addr
  unit : Addr
  rings : UnitRings
  irqNumber : BitVec 32
  irqInstalled : Bool
  deriving DecidableEq, Repr

def emptyBase : PA6TEthBase := ⟨0, 0, 0, 0, 0, 0, 0, 0, ⟨0, 0, 0, 0, 0, 0⟩, 0#32, false⟩

/-- What the system and the hardware answer one `_manager_Init`. `dmaIf` says that the interface
of the MAC is found, `txIdle` and `rxIdle` that the channels are not active. -/
structure InitEnv where
  expansionBase : Addr
  iPCI : Addr
  macDev : Addr
  dmaDev : Addr
  iobDev : Addr
  utilityBase : Addr
  iUtility : Addr
  unit : Addr
  dmaIf : Bool
  txIdle : Bool
  rxIdle : Bool
  txRing : BufOutcome
  rxRing : BufOutcome
  rxBufRing : BufOutcome
  iMMU : Addr
  irqNumber : BitVec 32
  addIntServer : Bool

/-- A part of `Init` that ends well or goes to `fail`. -/
abbrev InitStage := PA6TEthBase → PA6TEthBase × ResourceLog × Bool

def runStages : List InitStage → InitStage
  | [], b => (b, [], true)
  | stage :: rest, b =>
      if (stage b).2.2 then
        ((runStages rest (stage b).1).1, (stage b).2.1 ++ (runStages rest (stage b).1).2.1,
          (runStages rest (stage b).1).2.2)
      else stage b

/-- A pointer from the system, `NULL` for a failure. -/
def obtain (set : PA6TEthBase → PA6TEthBase) (pointer : Addr) (x : Resource) : InitStage :=
  fun b => (set b, takeIf pointer x, pointer != 0)

/-- `get_phys`, with the number of entries it stores and the address it returns. -/
def getPhys (o : BufOutcome) (size : Nat) : ResourceLog × Nat × BitVec 32 :=
  if o.nentries = 0 then ([], 0, 0#32)
  else if o.dlist = false then
    ([.take (.mapping o.virt size), .give (.mapping o.virt size)], 0, 0#32)
  else ([.take (.mapping o.virt size)], o.nentries, o.phys)

/-- One ring of `PA6TEth_HWInit`. -/
def allocRing (o : BufOutcome) (size : Nat) (set : Addr → Nat → PA6TEthBase → PA6TEthBase) :
    InitStage := fun b =>
  if o.virt = 0 then (b, [], false)
  else
    (set o.virt (getPhys o size).2.1 b, .take (.block o.virt) :: (getPhys o size).1,
      (getPhys o size).2.2 != 0#32)

/-- The RX buffers, as `PA6TEth_HWCleanup` walks them. -/
def rxBufsHeld (rxBufs : Nat → Addr) (rxBufsDmaEntries : Nat → Nat) : List Resource :=
  (List.range numRxBufs).flatMap fun i => mappedBlock (rxBufs i) rxBufSize (rxBufsDmaEntries i)

/-- `PA6TEth_HWCleanup` beside its register writes. -/
def hwCleanup (unit : Addr) (rings : UnitRings) (rxBufs : Nat → Addr)
    (rxBufsDmaEntries : Nat → Nat) : ResourceLog :=
  if unit = 0 then []
  else (rxBufsHeld rxBufs rxBufsDmaEntries ++ rings.held).map .give

/-- `PA6TEth_FindDevices`, whose failure leaves no device. -/
def findDevices (e : InitEnv) : InitStage := fun b =>
  let found := runStages
    [obtain (fun b => { b with macDev := e.macDev }) e.macDev (.pciDevice e.macDev),
      obtain (fun b => { b with dmaDev := e.dmaDev }) e.dmaDev (.pciDevice e.dmaDev),
      obtain (fun b => { b with iobDev := e.iobDev }) e.iobDev (.pciDevice e.iobDev)] b
  if found.2.2 then found
  else
    ({ found.1 with macDev := 0, dmaDev := 0 },
      found.2.1 ++ giveIf found.1.dmaDev (.pciDevice found.1.dmaDev) ++
        giveIf found.1.macDev (.pciDevice found.1.macDev), false)

/-- `PA6TEth_HWInit`; no RX buffer is allocated yet when it cleans up. -/
def hwInit (e : InitEnv) : InitStage := fun b =>
  let armed := runStages
    [fun b => (b, [], e.dmaIf && e.txIdle && e.rxIdle),
      allocRing e.txRing (ringBytes txRingSize) fun ring entries b =>
        { b with rings := { b.rings with txRing := ring, txRingDmaEntries := entries } },
      allocRing e.rxRing (ringBytes rxRingSize) fun ring entries b =>
        { b with rings := { b.rings with rxRing := ring, rxRingDmaEntries := entries } },
      allocRing e.rxBufRing (ringBytes rxBufRingSize) fun ring entries b =>
        { b with rings := { b.rings with rxBufRing := ring, rxBufRingDmaEntries := entries } },
      fun b => (b, takeIf e.iMMU (.interface e.iMMU) ++ giveIf e.iMMU (.interface e.iMMU), true)] b
  if armed.2.2 then armed
  else
    ({ armed.1 with
        rings := { armed.1.rings with txRing := 0, rxRing := 0, rxBufRing := 0 } },
      armed.2.1 ++ hwCleanup armed.1.unit armed.1.rings (fun _ => 0) (fun _ => 0), false)

/-- `PA6TEth_InstallIRQ`. -/
def installIrq (e : InitEnv) : InitStage := fun b =>
  if e.irqNumber = 0#32 then (b, [], false)
  else if e.addIntServer = false then ({ b with irqNumber := e.irqNumber }, [], false)
  else
    ({ b with irqNumber := e.irqNumber, irqInstalled := true }, [.take (.intServer e.irqNumber)],
      true)

/-- The `fail` label of `_manager_Init`. -/
def initFailed (b : PA6TEthBase) : ResourceLog :=
  giveIf b.unit (.block b.unit) ++ giveIf b.iUtility (.interface b.iUtility) ++
    giveIf b.utilityBase (.library b.utilityBase) ++ giveIf b.iobDev (.pciDevice b.iobDev) ++
    giveIf b.dmaDev (.pciDevice b.dmaDev) ++ giveIf b.macDev (.pciDevice b.macDev) ++
    giveIf b.iPCI (.interface b.iPCI) ++ giveIf b.expansionBase (.library b.expansionBase)

/-- `_manager_Init`, with the library base that it returns or none. -/
def managerInit (e : InitEnv) : ResourceLog × Option PA6TEthBase :=
  let made := runStages
    [obtain (fun b => { b with expansionBase := e.expansionBase }) e.expansionBase
        (.library e.expansionBase),
      obtain (fun b => { b with iPCI := e.iPCI }) e.iPCI (.interface e.iPCI),
      findDevices e,
      obtain (fun b => { b with utilityBase := e.utilityBase }) e.utilityBase
        (.library e.utilityBase),
      obtain (fun b => { b with iUtility := e.iUtility }) e.iUtility (.interface e.iUtility),
      obtain (fun b => { b with unit := e.unit }) e.unit (.block e.unit),
      hwInit e, installIrq e] emptyBase
  if made.2.2 then (made.2.1, some made.1) else (made.2.1 ++ initFailed made.1, none)

/-- `_manager_Expunge`, which hands back the seglist only when nobody has the device open. -/
def managerExpunge (libOpenCnt : BitVec 16) (b : PA6TEthBase) (rxBufs : Nat → Addr)
    (rxBufsDmaEntries : Nat → Nat) : Option ResourceLog :=
  if libOpenCnt ≠ 0#16 then none
  else
    some ((if b.irqInstalled then [.give (.intServer b.irqNumber)] else []) ++
      hwCleanup b.unit b.rings rxBufs rxBufsDmaEntries ++ giveIf b.unit (.block b.unit) ++
      giveIf b.iobDev (.pciDevice b.iobDev) ++ giveIf b.dmaDev (.pciDevice b.dmaDev) ++
      giveIf b.macDev (.pciDevice b.macDev) ++ giveIf b.iUtility (.interface b.iUtility) ++
      giveIf b.utilityBase (.library b.utilityBase) ++ giveIf b.iPCI (.interface b.iPCI) ++
      giveIf b.expansionBase (.library b.expansionBase))

/-- What a library base and its RX buffers stand for. -/
def PA6TEthBase.held (b : PA6TEthBase) (rxBufs : Nat → Addr) (rxBufsDmaEntries : Nat → Nat) :
    List Resource :=
  (if b.irqInstalled then [.intServer b.irqNumber] else []) ++
    (rxBufsHeld rxBufs rxBufsDmaEntries ++ b.rings.held) ++ heldIf b.unit (.block b.unit) ++
    heldIf b.iobDev (.pciDevice b.iobDev) ++ heldIf b.dmaDev (.pciDevice b.dmaDev) ++
    heldIf b.macDev (.pciDevice b.macDev) ++ heldIf b.iUtility (.interface b.iUtility) ++
    heldIf b.utilityBase (.library b.utilityBase) ++ heldIf b.iPCI (.interface b.iPCI) ++
    heldIf b.expansionBase (.library b.expansionBase)

/-- What it stands for beside the rings and the RX buffers. -/
def PA6TEthBase.own (b : PA6TEthBase) : List Resource :=
  (if b.irqInstalled then [.intServer b.irqNumber] else []) ++ heldIf b.unit (.block b.unit) ++
    heldIf b.iobDev (.pciDevice b.iobDev) ++ heldIf b.dmaDev (.pciDevice b.dmaDev) ++
    heldIf b.macDev (.pciDevice b.macDev) ++ heldIf b.iUtility (.interface b.iUtility) ++
    heldIf b.utilityBase (.library b.utilityBase) ++ heldIf b.iPCI (.interface b.iPCI) ++
    heldIf b.expansionBase (.library b.expansionBase)

theorem rxBufsHeld_none (rxBufsDmaEntries : Nat → Nat) :
    rxBufsHeld (fun _ => 0) rxBufsDmaEntries = [] := by
  simp [rxBufsHeld, mappedBlock]

theorem runStages_ok (stage : InitStage) (rest : List InitStage) (b : PA6TEthBase)
    (ok : (runStages (stage :: rest) b).2.2 = true) :
    (stage b).2.2 = true ∧ (runStages rest (stage b).1).2.2 = true ∧
      runStages (stage :: rest) b =
        ((runStages rest (stage b).1).1, (stage b).2.1 ++ (runStages rest (stage b).1).2.1, true) := by
  simp only [runStages] at ok ⊢
  split at ok
  · rename_i first
    rw [if_pos first]
    exact ⟨first, ok, by rw [ok]⟩
  · rename_i first
    exact absurd ok first

theorem allocRing_ok (o : BufOutcome) (size : Nat) (set : Addr → Nat → PA6TEthBase → PA6TEthBase)
    (b : PA6TEthBase) (ok : (allocRing o size set b).2.2 = true) :
    (allocRing o size set b).1 = set o.virt o.nentries b ∧
      Settles [] (allocRing o size set b).2.1 (mappedBlock o.virt size o.nentries) := by
  simp only [allocRing, getPhys] at ok ⊢
  split at ok
  · cases ok
  · rename_i block
    rw [if_neg block]
    split at ok
    · cases ok
    · rename_i entries
      rw [if_neg entries]
      split at ok
      · cases ok
      · rename_i listed
        rw [if_neg listed]
        refine ⟨rfl, ?_⟩
        rw [mappedBlock, if_neg block, if_neg entries]
        exact ⟨[.mapping o.virt size, .block o.virt], rfl, List.Perm.refl _⟩

theorem obtain_ok (set : PA6TEthBase → PA6TEthBase) (pointer : Addr) (x : Resource)
    (b : PA6TEthBase) (ok : (obtain set pointer x b).2.2 = true) :
    pointer ≠ 0 ∧ (obtain set pointer x b).1 = set b ∧
      Settles [] (obtain set pointer x b).2.1 (heldIf pointer x) := by
  have present : pointer ≠ 0 := by simpa [obtain] using ok
  refine ⟨present, rfl, ?_⟩
  simp only [obtain, takeIf, heldIf, if_neg present]
  exact settles_take x

theorem findDevices_ok (e : InitEnv) (b : PA6TEthBase) (ok : (findDevices e b).2.2 = true) :
    (findDevices e b).1 = { b with macDev := e.macDev, dmaDev := e.dmaDev, iobDev := e.iobDev } ∧
      Settles [] (findDevices e b).2.1
        (heldIf e.macDev (.pciDevice e.macDev) ++ (heldIf e.dmaDev (.pciDevice e.dmaDev) ++
          heldIf e.iobDev (.pciDevice e.iobDev))) := by
  simp only [findDevices] at ok ⊢
  split at ok
  · rename_i found
    rw [if_pos found]
    obtain ⟨mac, rest, ranMac⟩ := runStages_ok _ _ _ found
    obtain ⟨dma, rest, ranDma⟩ := runStages_ok _ _ _ rest
    obtain ⟨iob, rest, ranIob⟩ := runStages_ok _ _ _ rest
    rw [ranMac, ranDma, ranIob]
    refine ⟨rfl, settles_gain _ _ _ _ (obtain_ok _ _ _ _ mac).2.2 ?_⟩
    refine settles_gain _ _ _ _ (obtain_ok _ _ _ _ dma).2.2 ?_
    have last := (obtain_ok _ _ _ _ iob).2.2
    simpa only [runStages, List.append_nil] using last
  · cases ok

/-- The rings as a successful `PA6TEth_HWInit` makes them. -/
def madeRings (e : InitEnv) : UnitRings :=
  ⟨e.txRing.virt, e.txRing.nentries, e.rxRing.virt, e.rxRing.nentries, e.rxBufRing.virt,
    e.rxBufRing.nentries⟩

theorem hwInit_ok (e : InitEnv) (b : PA6TEthBase) (ok : (hwInit e b).2.2 = true) :
    (hwInit e b).1 = { b with rings := madeRings e } ∧
      Settles [] (hwInit e b).2.1 (madeRings e).held := by
  simp only [hwInit] at ok ⊢
  split at ok
  · rename_i armed
    rw [if_pos armed]
    obtain ⟨_, rest, ranIdle⟩ := runStages_ok _ _ _ armed
    obtain ⟨tx, rest, ranTx⟩ := runStages_ok _ _ _ rest
    obtain ⟨rx, rest, ranRx⟩ := runStages_ok _ _ _ rest
    obtain ⟨buf, rest, ranBuf⟩ := runStages_ok _ _ _ rest
    obtain ⟨_, _, ranMmu⟩ := runStages_ok _ _ _ rest
    obtain ⟨txMade, txHeld⟩ := allocRing_ok _ _ _ _ tx
    obtain ⟨rxMade, rxHeld⟩ := allocRing_ok _ _ _ _ rx
    obtain ⟨bufMade, bufHeld⟩ := allocRing_ok _ _ _ _ buf
    rw [ranIdle, ranTx, ranRx, ranBuf, ranMmu]
    refine ⟨?_, ?_⟩
    · show (allocRing _ _ _ _).1 = _
      rw [bufMade, rxMade, txMade]
      rfl
    · have mmu : Settles [] (takeIf e.iMMU (.interface e.iMMU) ++
          giveIf e.iMMU (.interface e.iMMU)) [] := by
        simp only [takeIf, giveIf, heldIf]
        split
        · exact settles_refl []
        · exact settles_trans [] [_] [] _ _ (settles_take _) (settles_give _)
      have gained := settles_gain _ _ _ _ txHeld (settles_gain _ _ _ _ rxHeld
        (settles_gain _ _ _ _ bufHeld mmu))
      simp only [runStages, List.nil_append, List.append_nil] at gained ⊢
      refine settles_frame [] _ [] _ _ _ (List.Perm.refl _) ?_ gained
      rw [List.perm_iff_count]
      intro x
      simp only [UnitRings.held, madeRings, List.count_append, List.count_nil]
      omega
  · cases ok

def readyEnv : InitEnv where
  expansionBase := 0x10
  iPCI := 0x20
  macDev := 0x30
  dmaDev := 0x40
  iobDev := 0x50
  utilityBase := 0x60
  iUtility := 0x70
  unit := 0x80
  dmaIf := true
  txIdle := true
  rxIdle := true
  txRing := ⟨0x4000, 1, true, 0x4000#32⟩
  rxRing := ⟨0x1000, 1, true, 0x1000#32⟩
  rxBufRing := ⟨0x8000, 1, true, 0x8000#32⟩
  iMMU := 0x90
  irqNumber := 0x1E#32
  addIntServer := true

end Pa6tEth

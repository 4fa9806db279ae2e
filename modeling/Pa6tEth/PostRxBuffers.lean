import Pa6tEth.RxRing

/-! `PA6TEth_PostRxBuffers`: allocation of the RX buffers and arming of the receive side. -/

namespace Pa6tEth

open Support

/-- What the system answers for one RX buffer: `AllocVecTags`, `StartDMA`, the DMA list and the
physical address in its first entry. -/
structure BufOutcome where
  virt : Addr
  nentries : Nat
  dlist : Bool
  phys : BitVec 32
  deriving DecidableEq, Repr

/-- The inputs of one call: the buffer outcomes, the PCI command words and the IOB status words. -/
structure ArmEnv where
  buf : Nat → BufOutcome
  macCommand : BitVec 16
  dmaCommand : BitVec 16
  txchStat : BitVec 32
  rxchStat : BitVec 32

def BufOutcome.mapped (o : BufOutcome) : Bool :=
  o.virt ≠ 0 && o.nentries ≠ 0 && o.dlist && o.phys ≠ 0#32

/-- The body of the allocation loop for a missing buffer; `false` is the `break`. -/
def mapRxBuf (o : BufOutcome) (i : Nat) (u : UnitRx) : UnitRx × Bool :=
  if o.virt = 0 then (u, false)
  else if o.nentries = 0 then (u, false)
  else if o.dlist = false then (u, false)
  else
    let listed :=
      { u with
        rxBufsPhys := Function.update u.rxBufsPhys i o.phys
        rxBufsDmaEntries := Function.update u.rxBufsDmaEntries i o.nentries }
    if o.phys = 0#32 then (listed, false)
    else ({ listed with rxBufs := Function.update u.rxBufs i o.virt }, true)

/-- The allocation loop from index `i` for `left` more buffers, with the count of new ones. -/
def allocRxBufs (buf : Nat → BufOutcome) : Nat → Nat → UnitRx → Nat → UnitRx × Nat
  | 0, _, u, nalloced => (u, nalloced)
  | left + 1, i, u, nalloced =>
      if u.rxBufs i ≠ 0 then allocRxBufs buf left (i + 1) u nalloced
      else
        match mapRxBuf (buf i) i u with
        | (u, true) => allocRxBufs buf left (i + 1) u (nalloced + 1)
        | (u, false) => (u, nalloced)

/-- The posting loop over the first `bound` buffers. -/
def postLoop : Nat → UnitRx → UnitRx
  | 0, u => u
  | i + 1, u =>
      let u := postLoop i u
      if u.rxBufsPhys i = 0#32 then u
      else
        { u with
          rxBufRing := u.rxBufRing.set i (rxbWord (u.rxBufsPhys i))
          rxSlotBuf := Function.update u.rxSlotBuf i (i % 65536) }

def rxintCfgValue : BitVec 32 :=
  0x80000000 ||| ((2 <<< 24) &&& 0x07000000) ||| 0x00200000 ||| 0x00100000 ||| 0x00080000

def rxintRcmdstaEn : BitVec 32 := 0x00000001
def rxintRcmdstaValue : BitVec 32 :=
  rxintRcmdstaEn ||| 0xfffe0000 ||| 0x00004000 ||| 0x00002000 ||| 0x00001000 ||| 0x00000800

def rxchanCcmdstaEn : BitVec 32 := 0x00000001
def rxchanCcmdstaValue : BitVec 32 :=
  rxchanCcmdstaEn ||| 0x00020000 ||| 0x00002000 ||| 0x00001000 ||| 0x00000800

def txchanTcmdstaEn : BitVec 32 := 0x00000001
def txchanTcmdstaValue : BitVec 32 :=
  txchanTcmdstaEn ||| 0x00000800 ||| 0x00000400 ||| 0x00000200 ||| 0x00000100

def macPcfgPe : BitVec 32 := 0x80000000
def macPcfgValue : BitVec 32 :=
  0x00000080 ||| 0x01000000 ||| 0x40000000 ||| 0x08000000 ||| 0x00000002 ||| macPcfgPe

/-- Memory and bus-master enable of a PCI device, written only when a bit is missing. -/
def pciEnable (reg : Reg) (command : BitVec 16) : List RegWrite :=
  if command &&& 0x0006 ≠ 0x0006 then [⟨reg, (command ||| 0x0006).setWidth 32⟩] else []

/-- `PAS_IOB_DMA_RXCH_RESET_PCNT` of a status word's `CNTDEL` field. -/
def resetPcnt (stat : BitVec 32) : BitVec 32 := ((stat &&& 0x00000fff) &&& 0xffff) <<< 16

/-- The interface and the channel are configured and enabled, and both rings are credited. -/
def creditWrites (ch : Channels) : List RegWrite :=
  [⟨.rxintCfg ch.dmaIf, rxintCfgValue⟩,
   ⟨.rxintRcmdsta ch.dmaIf, rxintRcmdstaValue⟩,
   ⟨.rxchanCcmdsta ch.rxChannelNum, rxchanCcmdstaValue⟩,
   ⟨.rxintIncr ch.dmaIf, BitVec.ofNat 32 numRxBufs⟩,
   ⟨.rxchanIncr ch.rxChannelNum, BitVec.ofNat 32 (rxRingSize >>> 1)⟩]

def enableWrites (ch : Channels) (e : ArmEnv) : List RegWrite :=
  [⟨.comTxcmd, 0x00000001⟩,
   ⟨.txchanTcmdsta ch.txChannelNum, txchanTcmdstaValue⟩] ++
  pciEnable .macPciCommand e.macCommand ++
  pciEnable .dmaPciCommand e.dmaCommand ++
  [⟨.macPcfg, macPcfgValue⟩,
   ⟨.iobTimeoutcfg, 0x000003ff &&& 0x00ffffff⟩,
   ⟨.iobRxchCfg ch.rxChannelNum, 1 &&& 0xfff⟩,
   ⟨.iobTxchCfg ch.txChannelNum, 0 &&& 0xfff⟩,
   ⟨.iobTxchReset ch.txChannelNum, resetPcnt e.txchStat ||| 0x00000001⟩,
   ⟨.iobRxchReset ch.rxChannelNum,
    resetPcnt e.rxchStat ||| 0x00000010 ||| 0x00000008 ||| 0x00000004 ||| 0x00000002 |||
      0x00000001⟩]

def armWrites (ch : Channels) (e : ArmEnv) : List RegWrite := creditWrites ch ++ enableWrites ch e

def clearRings (u : UnitRx) : UnitRx :=
  { u with rxRing := Ring.fill rxRingSize 0#64, rxBufRing := Ring.fill rxBufRingSize 0#64 }

/-- The posting loop, and the write cursor behind it. -/
def postRings (u : UnitRx) : UnitRx := { postLoop numRxBufs u with rxBufWritePtr := numRxBufs }

/-- The part after the allocation loop: both rings cleared, the buffers posted, cursors reset. -/
def armRings (u : UnitRx) : UnitRx := { postRings (clearRings u) with rxNextClean := 0 }

/-- The call, with the register writes it makes; an early return makes none. -/
def postRxBuffers (ch : Channels) (e : ArmEnv) (u : UnitRx) : UnitRx × List RegWrite :=
  if u.rxBufRingPtr = 0 ∨ u.rxRingPtr = 0 then (u, [])
  else
    match allocRxBufs e.buf numRxBufs 0 u 0 with
    | (u, 0) => (u, [])
    | (u, _ + 1) => (armRings u, armWrites ch e)

theorem postLoop_frame (bound : Nat) (u : UnitRx) :
    (postLoop bound u).rxRing = u.rxRing ∧ (postLoop bound u).rxBufs = u.rxBufs ∧
      (postLoop bound u).rxBufsPhys = u.rxBufsPhys ∧
      (postLoop bound u).rxRingPtr = u.rxRingPtr ∧
      (postLoop bound u).rxBufRingPtr = u.rxBufRingPtr := by
  induction bound with
  | zero => exact ⟨rfl, rfl, rfl, rfl, rfl⟩
  | succ i ih =>
      simp only [postLoop]
      split
      · exact ih
      · exact ih

theorem postLoop_slotBuf (bound slot : Nat) (u : UnitRx) (small : bound ≤ numRxBufs) :
    (postLoop bound u).rxSlotBuf slot =
      if slot < bound ∧ u.rxBufsPhys slot ≠ 0#32 then slot else u.rxSlotBuf slot := by
  induction bound with
  | zero => simp [postLoop]
  | succ i ih =>
      have before := ih (by omega)
      have word : i % 65536 = i := Nat.mod_eq_of_lt (by simp only [numRxBufs] at small; omega)
      simp only [postLoop, (postLoop_frame i u).2.2.1]
      split
      · rename_i absent
        rw [before]
        by_cases last : slot = i
        · subst last; simp [absent]
        · simp [show slot < i + 1 ↔ slot < i by omega]
      · rename_i present
        by_cases last : slot = i
        · subst last; simp [present, word]
        · simp only [Function.update_apply, if_neg last, before]
          simp [show slot < i + 1 ↔ slot < i by omega]

theorem postLoop_get (bound slot : Nat) (u : UnitRx) (small : bound ≤ numRxBufs)
    (inside : slot < rxBufRingSize) :
    (postLoop bound u).rxBufRing.get slot =
      if slot < bound ∧ u.rxBufsPhys slot ≠ 0#32 then rxbWord (u.rxBufsPhys slot)
      else u.rxBufRing.get slot := by
  induction bound with
  | zero => simp [postLoop]
  | succ i ih =>
      have before := ih (by omega)
      simp only [rxBufRingSize, rxRingSize, numRxBufs] at inside small
      simp only [postLoop, (postLoop_frame i u).2.2.1]
      split
      · rename_i absent
        rw [before]
        by_cases last : slot = i
        · subst last; simp [absent]
        · simp [show slot < i + 1 ↔ slot < i by omega]
      · rename_i present
        by_cases last : slot = i
        · subst last; simp [present]
        · rw [Ring.get_set_other _ _ _ _ (by simp only [rxBufRingSize, rxRingSize]; omega), before]
          simp [show slot < i + 1 ↔ slot < i by omega]

/-- After a complete arming slot `i` posts buffer `i` where it has an address, and every other
slot is zero. -/
theorem armRings_get (u : UnitRx) (slot : Nat) (inside : slot < rxBufRingSize) :
    (armRings u).rxBufRing.get slot =
      if slot < numRxBufs ∧ u.rxBufsPhys slot ≠ 0#32 then rxbWord (u.rxBufsPhys slot)
      else 0#64 := by
  simp only [armRings, postRings, clearRings]
  rw [postLoop_get numRxBufs slot _ (le_refl _) inside]
  simp

theorem armRings_slotBuf (u : UnitRx) (slot : Nat) (posted : slot < numRxBufs)
    (address : u.rxBufsPhys slot ≠ 0#32) : (armRings u).rxSlotBuf slot = slot := by
  simp only [armRings, postRings, clearRings]
  rw [postLoop_slotBuf numRxBufs slot _ (le_refl _), if_pos ⟨posted, address⟩]

theorem armRings_rxRing (u : UnitRx) (slot : Nat) : (armRings u).rxRing.get slot = 0#64 := by
  simp only [armRings, postRings, clearRings, (postLoop_frame numRxBufs _).1, Ring.get_fill]

theorem armRings_cursors (u : UnitRx) :
    (armRings u).rxNextClean = 0 ∧ (armRings u).rxBufWritePtr = numRxBufs := ⟨rfl, rfl⟩

theorem armRings_rxBufs (u : UnitRx) :
    (armRings u).rxBufs = u.rxBufs ∧ (armRings u).rxBufsPhys = u.rxBufsPhys := by
  simp only [armRings, postRings, clearRings, (postLoop_frame numRxBufs _).2.1, (postLoop_frame numRxBufs _).2.2.1]
  trivial

theorem mapRxBuf_failed (o : BufOutcome) (i : Nat) (u : UnitRx) (failed : o.mapped = false) :
    (mapRxBuf o i u).2 = false ∧ (mapRxBuf o i u).1.rxBufs = u.rxBufs := by
  simp only [BufOutcome.mapped, Bool.and_eq_false_iff, decide_eq_false_iff_not, not_not] at failed
  simp only [mapRxBuf]
  split_ifs <;> simp_all

theorem mapRxBuf_mapped (o : BufOutcome) (i : Nat) (u : UnitRx) (done : o.mapped = true) :
    mapRxBuf o i u =
      ({ u with
          rxBufsPhys := Function.update u.rxBufsPhys i o.phys
          rxBufsDmaEntries := Function.update u.rxBufsDmaEntries i o.nentries
          rxBufs := Function.update u.rxBufs i o.virt }, true) := by
  simp only [BufOutcome.mapped, Bool.and_eq_true, decide_eq_true_eq] at done
  obtain ⟨⟨⟨virt, entries⟩, list⟩, phys⟩ := done
  simp [mapRxBuf, virt, entries, list, phys]

theorem allocRxBufs_fresh (buf : Nat → BufOutcome) (left i : Nat) (u : UnitRx) (nalloced : Nat)
    (missing : ∀ j, i ≤ j → j < i + left → u.rxBufs j = 0)
    (good : ∀ j, i ≤ j → j < i + left → (buf j).mapped = true) :
    let done := allocRxBufs buf left i u nalloced
    done.2 = nalloced + left ∧
      (∀ j, done.1.rxBufs j = if i ≤ j ∧ j < i + left then (buf j).virt else u.rxBufs j) ∧
      (∀ j, done.1.rxBufsPhys j =
        if i ≤ j ∧ j < i + left then (buf j).phys else u.rxBufsPhys j) := by
  induction left generalizing i u nalloced with
  | zero =>
      refine ⟨rfl, ?_, ?_⟩ <;> intro j <;> rw [if_neg (by omega)] <;> rfl
  | succ left ih =>
      have empty := missing i (le_refl i) (by omega)
      have mapped := mapRxBuf_mapped (buf i) i u (good i (le_refl i) (by omega))
      simp only [allocRxBufs, if_neg (show ¬ u.rxBufs i ≠ 0 by simp [empty]), mapped]
      obtain ⟨count, pointers, addresses⟩ := ih (i + 1)
        { u with
          rxBufsPhys := Function.update u.rxBufsPhys i (buf i).phys
          rxBufsDmaEntries := Function.update u.rxBufsDmaEntries i (buf i).nentries
          rxBufs := Function.update u.rxBufs i (buf i).virt } (nalloced + 1)
        (by
          intro j low high
          simp only [Function.update_apply, if_neg (show j ≠ i by omega)]
          exact missing j (by omega) (by omega))
        (fun j low high => good j (by omega) (by omega))
      refine ⟨by rw [count]; omega, ?_, ?_⟩
      · intro j
        rw [pointers j]
        by_cases first : j = i
        · subst first; simp
        · simp only [Function.update_apply, if_neg first]
          have range : (i + 1 ≤ j ∧ j < i + 1 + left) ↔ (i ≤ j ∧ j < i + (left + 1)) := by
            omega
          simp only [range]
      · intro j
        rw [addresses j]
        by_cases first : j = i
        · subst first; simp
        · simp only [Function.update_apply, if_neg first]
          have range : (i + 1 ≤ j ∧ j < i + 1 + left) ↔ (i ≤ j ∧ j < i + (left + 1)) := by
            omega
          simp only [range]

def missing (u : UnitRx) (i : Nat) : Bool := u.rxBufs i == 0

/-- The first missing buffer is there to be filled, and the system grants it. -/
def mapsNext (buf : Nat → BufOutcome) (u : UnitRx) : Bool :=
  ((List.range numRxBufs).find? (missing u)).any fun i => (buf i).mapped

def allocated (u : UnitRx) : Bool := (List.range numRxBufs).any fun i => !missing u i

def ringsReady (u : UnitRx) : Bool := u.rxBufRingPtr != 0 && u.rxRingPtr != 0

theorem mapRxBuf_ring (o : BufOutcome) (i : Nat) (u : UnitRx) :
    (mapRxBuf o i u).1.rxRing = u.rxRing ∧ (mapRxBuf o i u).1.rxRingPtr = u.rxRingPtr ∧
      (mapRxBuf o i u).1.rxBufRingPtr = u.rxBufRingPtr := by
  simp only [mapRxBuf]
  split_ifs <;> exact ⟨rfl, rfl, rfl⟩

theorem mapRxBuf_grows (o : BufOutcome) (i j : Nat) (u : UnitRx) (there : u.rxBufs j ≠ 0) :
    (mapRxBuf o i u).1.rxBufs j ≠ 0 := by
  simp only [mapRxBuf]
  split_ifs with virt entries list phys
  · exact there
  · exact there
  · exact there
  · exact there
  · simp only [Function.update_apply]
    split
    · exact virt
    · exact there

theorem allocRxBufs_kept (buf : Nat → BufOutcome) (left i : Nat) (u : UnitRx) (nalloced j : Nat)
    (there : u.rxBufs j ≠ 0) : (allocRxBufs buf left i u nalloced).1.rxBufs j = u.rxBufs j := by
  induction left generalizing i u nalloced with
  | zero => rfl
  | succ left ih =>
      simp only [allocRxBufs]
      split
      · exact ih (i + 1) u nalloced there
      · rename_i absent
        have one : (mapRxBuf (buf i) i u).1.rxBufs j = u.rxBufs j := by
          have other : j ≠ i := fun same => absent (same ▸ there)
          simp only [mapRxBuf]
          split_ifs
          all_goals first
            | rfl
            | exact Function.update_of_ne other _ _
        split
        · rename_i v mapped
          rw [mapped] at one
          exact (ih (i + 1) v (nalloced + 1) (one.symm ▸ there)).trans one
        · rename_i v failed
          rw [failed] at one
          exact one

theorem postRxBuffers_kept (ch : Channels) (e : ArmEnv) (u : UnitRx) (j : Nat)
    (there : u.rxBufs j ≠ 0) : (postRxBuffers ch e u).1.rxBufs j = u.rxBufs j := by
  have kept := allocRxBufs_kept e.buf numRxBufs 0 u 0 j there
  simp only [postRxBuffers]
  split
  · rfl
  · split
    · rename_i v none
      rw [none] at kept
      exact kept
    · rename_i v fresh some
      rw [some] at kept
      rw [(armRings_rxBufs v).1]
      exact kept

theorem allocRxBufs_frame (buf : Nat → BufOutcome) (left i : Nat) (u : UnitRx) (nalloced : Nat) :
    let done := allocRxBufs buf left i u nalloced
    done.1.rxRing = u.rxRing ∧ done.1.rxRingPtr = u.rxRingPtr ∧
      done.1.rxBufRingPtr = u.rxBufRingPtr ∧ nalloced ≤ done.2 ∧
      ∀ j, u.rxBufs j ≠ 0 → done.1.rxBufs j ≠ 0 := by
  induction left generalizing i u nalloced with
  | zero => exact ⟨rfl, rfl, rfl, le_refl _, fun _ => id⟩
  | succ left ih =>
      have ring := mapRxBuf_ring (buf i) i u
      have grows := fun j => mapRxBuf_grows (buf i) i j u
      simp only [allocRxBufs]
      split
      · exact ih (i + 1) u nalloced
      · split
        · rename_i v mapped
          rw [mapped] at ring grows
          obtain ⟨rxRing, rxPtr, bufPtr, more, kept⟩ := ih (i + 1) v (nalloced + 1)
          exact ⟨rxRing.trans ring.1, rxPtr.trans ring.2.1, bufPtr.trans ring.2.2, by omega,
            fun j there => kept j (grows j there)⟩
        · rename_i v failed
          rw [failed] at ring grows
          exact ⟨ring.1, ring.2.1, ring.2.2, le_refl _, grows⟩

theorem allocRxBufs_counts (buf : Nat → BufOutcome) (left i : Nat) (u : UnitRx) (nalloced : Nat) :
    let done := allocRxBufs buf left i u nalloced
    let next := ((List.range' i left).find? (missing u)).any fun i => (buf i).mapped
    (next = false → done.2 = nalloced ∧ done.1.rxBufs = u.rxBufs) ∧
      (next = true → nalloced < done.2 ∧ ∃ j, i ≤ j ∧ j < i + left ∧ done.1.rxBufs j ≠ 0) := by
  induction left generalizing i with
  | zero => exact ⟨fun _ => ⟨rfl, rfl⟩, nofun⟩
  | succ left ih =>
      rw [List.range'_succ, allocRxBufs]
      by_cases there : u.rxBufs i ≠ 0
      · rw [if_pos there, List.find?_cons_of_neg (by simpa [missing] using there)]
        obtain ⟨idle, granted⟩ := ih (i + 1)
        refine ⟨idle, fun next => ?_⟩
        obtain ⟨more, j, low, high, present⟩ := granted next
        exact ⟨more, j, by omega, by omega, present⟩
      · rw [if_neg there, List.find?_cons_of_pos (by simpa [missing] using there)]
        cases mapped : (buf i).mapped with
        | false =>
            obtain ⟨stops, same⟩ := mapRxBuf_failed (buf i) i u mapped
            refine ⟨fun _ => ?_, fun next => by simp [mapped] at next⟩
            rcases ends : mapRxBuf (buf i) i u with ⟨v, going⟩
            rw [ends] at stops same
            obtain rfl : going = false := stops
            exact ⟨rfl, same⟩
        | true =>
            refine ⟨fun next => by simp [mapped] at next, fun _ => ?_⟩
            rw [mapRxBuf_mapped (buf i) i u mapped]
            obtain ⟨_, _, _, more, kept⟩ := allocRxBufs_frame buf left (i + 1)
              { u with
                rxBufsPhys := Function.update u.rxBufsPhys i (buf i).phys
                rxBufsDmaEntries := Function.update u.rxBufsDmaEntries i (buf i).nentries
                rxBufs := Function.update u.rxBufs i (buf i).virt } (nalloced + 1)
            refine ⟨Nat.lt_of_succ_le more, i, le_refl i, by omega, kept i ?_⟩
            simp only [BufOutcome.mapped, Bool.and_eq_true, decide_eq_true_eq] at mapped
            simpa using mapped.1.1.1

theorem allocated_iff (u : UnitRx) : allocated u = true ↔ ∃ i < numRxBufs, u.rxBufs i ≠ 0 := by
  simp [allocated, missing]

theorem mapsNext_counts (e : ArmEnv) (u : UnitRx) :
    let done := allocRxBufs e.buf numRxBufs 0 u 0
    (mapsNext e.buf u = false → done.2 = 0 ∧ done.1.rxBufs = u.rxBufs) ∧
      (mapsNext e.buf u = true → done.2 ≠ 0 ∧ allocated done.1 = true) := by
  obtain ⟨idle, granted⟩ := allocRxBufs_counts e.buf numRxBufs 0 u 0
  rw [← List.range_eq_range'] at idle granted
  refine ⟨idle, fun next => ?_⟩
  obtain ⟨more, j, _, small, present⟩ := granted next
  exact ⟨by omega, (allocated_iff _).mpr ⟨j, by omega, present⟩⟩

/-- Some buffer is allocated when the loop ends: one that was there, or the first new one. -/
theorem allocated_after (e : ArmEnv) (u : UnitRx) :
    allocated (allocRxBufs e.buf numRxBufs 0 u 0).1 = true ↔
      allocated u = true ∨ mapsNext e.buf u = true := by
  obtain ⟨idle, granted⟩ := mapsNext_counts e u
  obtain ⟨_, _, _, _, kept⟩ := allocRxBufs_frame e.buf numRxBufs 0 u 0
  cases next : mapsNext e.buf u with
  | false => simp [allocated, missing, (idle next).2]
  | true => simp [(granted next).2]

theorem postRxBuffers_granted (ch : Channels) (e : ArmEnv) (u : UnitRx)
    (ready : ringsReady u = true) (next : mapsNext e.buf u = true) :
    postRxBuffers ch e u = (armRings (allocRxBufs e.buf numRxBufs 0 u 0).1, armWrites ch e) := by
  have counted := ((mapsNext_counts e u).2 next).1
  simp only [ringsReady, Bool.and_eq_true, bne_iff_ne, ne_eq] at ready
  simp only [postRxBuffers, ready.1, ready.2, or_self, if_false]
  split
  · rename_i done none
    exact absurd (by rw [none]) counted
  · rename_i done more some
    rw [some]

/-- Otherwise the call returns early: no register is written and no ring is touched. -/
theorem postRxBuffers_refused (ch : Channels) (e : ArmEnv) (u : UnitRx)
    (refused : ringsReady u = false ∨ mapsNext e.buf u = false) :
    (postRxBuffers ch e u).2 = [] ∧ (postRxBuffers ch e u).1.rxRing = u.rxRing ∧
      (postRxBuffers ch e u).1.rxBufs = u.rxBufs ∧
      ringsReady (postRxBuffers ch e u).1 = ringsReady u := by
  simp only [postRxBuffers]
  split
  · exact ⟨rfl, rfl, rfl, rfl⟩
  · rename_i present
    have ready : ringsReady u = true := by
      simp only [not_or] at present
      simp [ringsReady, present.1, present.2]
    obtain ⟨count, same⟩ := (mapsNext_counts e u).1 (refused.resolve_left (by simp [ready]))
    obtain ⟨rxRing, rxPtr, bufPtr, _⟩ := allocRxBufs_frame e.buf numRxBufs 0 u 0
    split
    · rename_i done none
      rw [none] at same rxRing rxPtr bufPtr
      exact ⟨rfl, rxRing, same, congrArg₂ (fun a b => a != 0 && b != 0) bufPtr rxPtr⟩
    · rename_i done more some
      rw [some] at count
      cases count

theorem allocated_congr (u v : UnitRx) (same : v.rxBufs = u.rxBufs) :
    allocated v = allocated u := by
  simp only [allocated, missing, same]

theorem nextDesc_ready (u : UnitRx) (v : RxLoop) (g : RxGroup) :
    ringsReady (nextDesc u v g).1 = ringsReady u := by
  simp only [nextDesc]
  split <;> rfl

theorem armRings_ready (u : UnitRx) : ringsReady (armRings u) = ringsReady u := by
  obtain ⟨_, _, _, ringPtr, bufPtr⟩ := postLoop_frame numRxBufs
    { u with rxRing := Ring.fill rxRingSize 0#64, rxBufRing := Ring.fill rxBufRingSize 0#64 }
  simp only [ringsReady, armRings, postRings, clearRings, ringPtr, bufPtr]

theorem allocRxBufs_dropped (buf : Nat → BufOutcome) (left i : Nat) (u : UnitRx) (nalloced : Nat) :
    (allocRxBufs buf left i u nalloced).1.statRxDropped = u.statRxDropped := by
  induction left generalizing i u nalloced with
  | zero => rfl
  | succ left ih =>
      have one : (mapRxBuf (buf i) i u).1.statRxDropped = u.statRxDropped := by
        simp only [mapRxBuf]
        split_ifs <;> rfl
      simp only [allocRxBufs]
      split
      · exact ih (i + 1) u nalloced
      · split
        · rename_i v mapped
          rw [mapped] at one
          exact (ih (i + 1) v (nalloced + 1)).trans one
        · rename_i v failed
          rw [failed] at one
          exact one

theorem postLoop_dropped (bound : Nat) (u : UnitRx) :
    (postLoop bound u).statRxDropped = u.statRxDropped := by
  induction bound with
  | zero => rfl
  | succ i ih =>
      simp only [postLoop]
      split <;> exact ih

theorem armRings_dropped (u : UnitRx) : (armRings u).statRxDropped = u.statRxDropped := by
  simp only [armRings, postRings, clearRings, postLoop_dropped]

theorem postRxBuffers_dropped (ch : Channels) (e : ArmEnv) (u : UnitRx) :
    (postRxBuffers ch e u).1.statRxDropped = u.statRxDropped := by
  have allocated := allocRxBufs_dropped e.buf numRxBufs 0 u 0
  simp only [postRxBuffers]
  split
  · rfl
  · split
    · rename_i v none
      rw [none] at allocated
      exact allocated
    · rename_i v fresh some
      rw [some] at allocated
      exact (armRings_dropped v).trans allocated

end Pa6tEth

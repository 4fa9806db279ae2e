import Pa6tEth.HwCleanup
import Pa6tEth.Support.RegisterFile

/-! The station address: read from `ADR0` and `ADR1`, validated, and written back. -/

namespace Pa6tEth

open Support

def HwReg.macOffset : HwReg → Option Nat
  | shared .macPcfg => some 0x80
  | macMaccfg => some 0x84
  | macAdr0 => some 0x8c
  | macAdr1 => some 0x90
  | macTxp => some 0x98
  | macRmon r => some (0x100 + r * 4)
  | macIpcChnl => some 0x208
  | _ => none

def adr0Offset : Nat := 0x8c
def adr1Offset : Nat := 0x90

abbrev AddressFile := Nat → BitVec 32

def addressAccess : HwEvent → Option (RegAccess Nat (BitVec 32))
  | .read reg value =>
      (reg.macOffset.filter fun offset => offset = adr0Offset ∨ offset = adr1Offset).map fun offset =>
        .read offset value
  | .write reg value =>
      (reg.macOffset.filter fun offset => offset = adr0Offset ∨ offset = adr1Offset).map fun offset =>
        .write offset value
  | .use _ => none

def addressAccesses (events : List HwEvent) : List (RegAccess Nat (BitVec 32)) :=
  events.filterMap addressAccess

/-- What `read_mac_addr` makes of these registers. -/
def readBack (file : AddressFile) (h : HwState) : Nat → BitVec 8 :=
  HwState.readMacAddr { h with adr0 := file adr0Offset, adr1 := file adr1Offset }

def Uniform (address : Nat → BitVec 8) (byte : BitVec 8) : Prop := ∀ i < ethAddrLen, address i = byte

instance (address : Nat → BitVec 8) (byte : BitVec 8) : Decidable (Uniform address byte) :=
  inferInstanceAs (Decidable (∀ i < ethAddrLen, address i = byte))

/-- The address in use is the one the registers had, or the fallback for all zeros or all ones; the
registers hold it afterwards and keep what is not part of it. -/
structure ProgramsAddress (h : HwState) (before after : AddressFile) : Prop where
  chosen : ∀ i < ethAddrLen, h.macAddr i =
    if Uniform (readBack before h) 0x00 ∨ Uniform (readBack before h) 0xFF then fallbackAddress i
    else readBack before h i
  programmed : ∀ i < ethAddrLen, readBack after h i = h.macAddr i
  upper : after adr1Offset &&& 0xffff0000#32 = before adr1Offset &&& 0xffff0000#32
  untouched : (∀ i < ethAddrLen, h.macAddr i = readBack before h i) →
    after adr0Offset = before adr0Offset ∧ after adr1Offset = before adr1Offset

def Mixed (address : Nat → BitVec 8) : Prop :=
  (∀ i < ethAddrLen, address i = 0x00 ∨ address i = 0xFF) ∧ (∃ i < ethAddrLen, address i = 0x00) ∧
    ∃ i < ethAddrLen, address i = 0xFF

theorem macAddr_choice (h : HwState) (i : Nat) :
    h.macAddr i =
      if ∀ k < ethAddrLen, h.readMacAddr k = 0x00 ∨ h.readMacAddr k = 0xFF then fallbackAddress i
      else h.readMacAddr i := by
  have scan : ((List.range ethAddrLen).any fun k => h.readMacAddr k ≠ 0x00 ∧ h.readMacAddr k ≠ 0xFF) =
      !decide (∀ k < ethAddrLen, h.readMacAddr k = 0x00 ∨ h.readMacAddr k = 0xFF) := by
    rw [Bool.eq_iff_iff]
    simp only [List.any_eq_true, List.mem_range, decide_eq_true_eq, Bool.not_eq_true',
      decide_eq_false_iff_not, not_forall, not_or]
    exact ⟨fun ⟨k, small, apart⟩ => ⟨k, small, apart⟩, fun ⟨k, small, apart⟩ => ⟨k, small, apart⟩⟩
  have branches : h.macAddr i =
      if (List.range ethAddrLen).any fun k => h.readMacAddr k ≠ 0x00 ∧ h.readMacAddr k ≠ 0xFF then
        h.readMacAddr i
      else fallbackAddress i := rfl
  rw [branches, scan]
  by_cases blank : ∀ k < ethAddrLen, h.readMacAddr k = 0x00 ∨ h.readMacAddr k = 0xFF
  · rw [if_pos blank, decide_eq_true blank]
    rfl
  · rw [if_neg blank, decide_eq_false blank]
    rfl

theorem uniform_blank (address : Nat → BitVec 8)
    (uniform : Uniform address 0x00 ∨ Uniform address 0xFF) :
    ∀ k < ethAddrLen, address k = 0x00 ∨ address k = 0xFF := by
  intro k small
  exact uniform.imp (fun zeros => zeros k small) fun ones => ones k small

theorem blank_cases (address : Nat → BitVec 8)
    (blank : ∀ k < ethAddrLen, address k = 0x00 ∨ address k = 0xFF) :
    (Uniform address 0x00 ∨ Uniform address 0xFF) ↔ ¬ Mixed address := by
  constructor
  · rintro (zeros | ones) ⟨_, ⟨i, first, zero⟩, ⟨j, second, one⟩⟩
    · rw [zeros j second] at one
      cases one
    · rw [ones i first] at zero
      cases zero
  · intro pure
    by_cases zeros : Uniform address 0x00
    · exact .inl zeros
    · right
      intro k small
      rcases blank k small with zero | one
      · have other : ¬ ∀ i < ethAddrLen, address i = 0x00 := zeros
        simp only [not_forall] at other
        obtain ⟨j, inside, apart⟩ := other
        exact absurd ⟨blank, ⟨k, small, zero⟩, ⟨j, inside, (blank j inside).resolve_left apart⟩⟩ pure
      · exact one

theorem word_bit (byte : BitVec 8) (shift k : Nat) (inside : k < 32) :
    (HwState.word byte shift).getLsbD k = (decide (shift ≤ k) && byte.getLsbD (k - shift)) := by
  simp only [HwState.word, BitVec.getLsbD_shiftLeft, BitVec.getLsbD_setWidth, inside, decide_true,
    Bool.true_and]
  by_cases above : shift ≤ k
  · simp [above, Nat.not_lt.mpr above, show k - shift < 32 by omega]
  · simp [above, Nat.not_le.mp above]

theorem word_byte (byte : BitVec 8) (shift place : Nat) (room : place + 8 ≤ 32)
    (apart : shift = place ∨ shift + 8 ≤ place ∨ place + 8 ≤ shift) :
    (HwState.word byte shift >>> place).setWidth 8 = if shift = place then byte else 0#8 := by
  apply BitVec.eq_of_getLsbD_eq
  intro k small
  rw [BitVec.getLsbD_setWidth, BitVec.getLsbD_ushiftRight, word_bit _ _ _ (by omega)]
  rcases apart with rfl | above | below
  · simp [small]
  · have outside : byte.getLsbD (place + k - shift) = false :=
      BitVec.getLsbD_of_ge _ _ (by omega)
    simp [outside, show shift ≠ place by omega]
  · simp [show ¬ shift ≤ place + k by omega, show shift ≠ place by omega]

theorem lowHalf_bit (k : Nat) (inside : k < 32) : (0x0000ffff#32).getLsbD k = decide (k < 16) := by
  rw [BitVec.getLsbD_ofNat, decide_eq_true inside, Bool.true_and]
  exact Nat.testBit_two_pow_sub_one 16 k

theorem upperHalf_byte (old : BitVec 32) (place : Nat) (low : place + 8 ≤ 16) :
    ((old &&& ~~~0x0000ffff#32) >>> place).setWidth 8 = 0#8 := by
  apply BitVec.eq_of_getLsbD_eq
  intro k small
  rw [BitVec.getLsbD_setWidth, BitVec.getLsbD_ushiftRight, BitVec.getLsbD_and, BitVec.getLsbD_not,
    lowHalf_bit _ (by omega)]
  simp [show place + k < 16 by omega]

theorem part_bit (x : BitVec 32) (shift k : Nat) (inside : k < 32) :
    (HwState.word ((x >>> shift).setWidth 8) shift).getLsbD k =
      (decide (shift ≤ k ∧ k < shift + 8) && x.getLsbD k) := by
  rw [word_bit _ _ _ inside, BitVec.getLsbD_setWidth, BitVec.getLsbD_ushiftRight]
  by_cases above : shift ≤ k
  · have same : shift + (k - shift) = k := by omega
    have within : k - shift < 8 ↔ k < shift + 8 := by omega
    simp [above, same, within]
  · simp [above]

theorem four_bytes (x : BitVec 32) :
    HwState.word ((x >>> 24).setWidth 8) 24 ||| HwState.word ((x >>> 16).setWidth 8) 16 |||
      HwState.word ((x >>> 8).setWidth 8) 8 ||| HwState.word (x.setWidth 8) 0 = x := by
  have first : x.setWidth 8 = (x >>> 0).setWidth 8 := by rw [BitVec.ushiftRight_zero]
  apply BitVec.eq_of_getLsbD_eq
  intro k small
  simp only [first, BitVec.getLsbD_or, part_bit _ _ _ small]
  cases x.getLsbD k with
  | false => simp
  | true =>
      simp only [Bool.and_true, ← Bool.decide_or, decide_eq_true_eq]
      omega

theorem two_bytes (x : BitVec 32) :
    HwState.word ((x >>> 8).setWidth 8) 8 ||| HwState.word (x.setWidth 8) 0 =
      x &&& 0x0000ffff#32 := by
  have first : x.setWidth 8 = (x >>> 0).setWidth 8 := by rw [BitVec.ushiftRight_zero]
  apply BitVec.eq_of_getLsbD_eq
  intro k small
  simp only [first, BitVec.getLsbD_or, BitVec.getLsbD_and, part_bit _ _ _ small, lowHalf_bit _ small]
  cases x.getLsbD k with
  | false => simp
  | true =>
      simp only [Bool.and_true, Bool.true_and, ← Bool.decide_or, decide_eq_decide]
      omega

theorem two_bytes_inside (high low : BitVec 8) :
    (HwState.word high 8 ||| HwState.word low 0) &&& ~~~0x0000ffff#32 = 0#32 := by
  apply BitVec.eq_of_getLsbD_eq
  intro k small
  simp only [BitVec.getLsbD_and, BitVec.getLsbD_or, BitVec.getLsbD_not, word_bit _ _ _ small,
    lowHalf_bit _ small, BitVec.getLsbD_zero]
  by_cases half : k < 16
  · simp [half, small]
  · have second : high.getLsbD (k - 8) = false := BitVec.getLsbD_of_ge _ _ (by omega)
    have first : low.getLsbD k = false := BitVec.getLsbD_of_ge _ _ (by omega)
    simp [second, first]

theorem addressAccesses_append (front back : List HwEvent) :
    addressAccesses (front ++ back) = addressAccesses front ++ addressAccesses back :=
  List.filterMap_append

theorem addressAccesses_none (events : List HwEvent)
    (other : ∀ event ∈ events, addressAccess event = none) : addressAccesses events = [] :=
  List.filterMap_eq_nil_iff.mpr other

theorem scan_address (h : HwState) : addressAccesses h.findDmaInterfaceOfMac.1 = [] := by
  apply addressAccesses_none
  intro event member
  rcases List.mem_cons.mp member with rfl | later
  · rfl
  · obtain ⟨offset, rfl⟩ := scanTable_reads h _ _ event later
    rfl

theorem configureTx_address (h : HwState) (e : InitEnv) (dmaIf : Nat) :
    addressAccesses (configureTx h e dmaIf) = [] := by
  apply addressAccesses_none
  intro event member
  rcases List.mem_append.mp member with stop | rest
  · obtain ⟨value, rfl | rfl⟩ := stopEngine_only _ _ event stop <;> rfl
  · simp only [List.mem_cons, List.not_mem_nil, or_false] at rest
    rcases rest with rfl | rfl | rfl <;> rfl

theorem configureRx_address (h : HwState) (e : InitEnv) (dmaIf : Nat) :
    addressAccesses (configureRx h e dmaIf) = [] := by
  apply addressAccesses_none
  intro event member
  simp only [configureRx, List.cons_append, List.mem_cons, List.mem_append, List.mem_map,
    List.not_mem_nil, or_false] at member
  rcases member with rfl | ⟨_, _, rfl⟩ | rfl | rfl | rfl | rfl | rfl | rfl | rfl | rfl | rfl <;>
    rfl

theorem rmon_address :
    addressAccesses ((List.range 32).map fun r => .write (.macRmon r) 0#32) = [] := by
  apply addressAccesses_none
  intro event member
  obtain ⟨r, _, rfl⟩ := List.mem_map.mp member
  have first : 0x100 + r * 4 ≠ adr0Offset := by
    rw [adr0Offset]
    omega
  have second : 0x100 + r * 4 ≠ adr1Offset := by
    rw [adr1Offset]
    omega
  simp [addressAccess, HwReg.macOffset, first, second]

theorem configureMac_address (h : HwState) :
    addressAccesses (configureMac h) = addressAccesses h.programMacAddr := by
  rw [configureMac, addressAccesses_append, addressAccesses_append, addressAccesses_append,
    rmon_address, List.append_nil]
  exact List.append_nil _

theorem hwInit_address (h : HwState) (e : InitEnv) (b : PA6TEthBase)
    (succeeds : (hwInitEvents h e b).2 = true) :
    addressAccesses (hwInitEvents h e b).1 =
      [.read adr0Offset h.adr0, .read adr1Offset h.adr1] ++ addressAccesses h.programMacAddr := by
  rw [hwInitEvents_eq] at succeeds ⊢
  cases found : h.findDmaInterfaceOfMac.2 with
  | none =>
      rw [found] at succeeds
      cases succeeds
  | some dmaIf =>
      rw [found] at succeeds
      simp only at succeeds ⊢
      split at succeeds
      · split at succeeds
        · rename_i tx rx
          rw [if_pos tx, if_pos rx, addressAccesses_append, addressAccesses_append, checkTx,
            addressAccesses_append, scan_address]
          simp only [hwInitRings] at succeeds ⊢
          have uses : addressAccesses ((runStages (ringStages e) b).2.1.map .use) = [] := by
            apply addressAccesses_none
            intro event member
            obtain ⟨x, _, rfl⟩ := List.mem_map.mp member
            rfl
          split at succeeds
          · rename_i made
            rw [if_pos made, addressAccesses_append, uses, addressAccesses_append,
              addressAccesses_append, configureTx_address, configureRx_address,
              configureMac_address]
            rfl
          · cases succeeds
        · cases succeeds
      · cases succeeds

theorem programMacAddr_file (h : HwState) (file : AddressFile) :
    fileAfter file (addressAccesses h.programMacAddr) adr0Offset =
        HwState.word (h.macAddr 2) 24 ||| HwState.word (h.macAddr 3) 16 |||
          HwState.word (h.macAddr 4) 8 ||| HwState.word (h.macAddr 5) 0 ∧
      fileAfter file (addressAccesses h.programMacAddr) adr1Offset =
        (h.oldAdr1 &&& ~~~0x0000ffff#32) |||
          (HwState.word (h.macAddr 0) 8 ||| HwState.word (h.macAddr 1) 0) :=
  ⟨rfl, rfl⟩

/-- Encoder and decoder agree on all six bytes. -/
theorem readBack_programmed (h : HwState) (file : AddressFile) (i : Nat) (inside : i < ethAddrLen) :
    readBack (fileAfter file (addressAccesses h.programMacAddr)) h i = h.macAddr i := by
  obtain ⟨adr0, adr1⟩ := programMacAddr_file h file
  have lowest : ∀ x : BitVec 32, x.setWidth 8 = (x >>> 0).setWidth 8 := by
    intro x
    rw [BitVec.ushiftRight_zero]
  match i, inside with
  | 0, _ =>
      rw [readBack, HwState.readMacAddr, adr1]
      simp only [BitVec.ushiftRight_or_distrib, BitVec.setWidth_or]
      rw [upperHalf_byte _ 8 (by decide), word_byte _ 8 8 (by decide) (by decide),
        word_byte _ 0 8 (by decide) (by decide)]
      simp
  | 1, _ =>
      rw [readBack, HwState.readMacAddr, adr1, lowest]
      simp only [BitVec.ushiftRight_or_distrib, BitVec.setWidth_or]
      rw [upperHalf_byte _ 0 (by decide), word_byte _ 8 0 (by decide) (by decide),
        word_byte _ 0 0 (by decide) (by decide)]
      simp
  | 2, _ =>
      rw [readBack, HwState.readMacAddr, adr0]
      simp [BitVec.ushiftRight_or_distrib, BitVec.setWidth_or, word_byte]
  | 3, _ =>
      rw [readBack, HwState.readMacAddr, adr0]
      simp [BitVec.ushiftRight_or_distrib, BitVec.setWidth_or, word_byte]
  | 4, _ =>
      rw [readBack, HwState.readMacAddr, adr0]
      simp [BitVec.ushiftRight_or_distrib, BitVec.setWidth_or, word_byte]
  | 5, _ =>
      rw [readBack, HwState.readMacAddr, adr0, lowest]
      · simp only [BitVec.ushiftRight_or_distrib, BitVec.setWidth_or]
        rw [word_byte _ 24 0 (by decide) (by decide), word_byte _ 16 0 (by decide) (by decide),
          word_byte _ 8 0 (by decide) (by decide), word_byte _ 0 0 (by decide) (by decide)]
        simp
      all_goals decide

theorem hwInit_programs (h : HwState) (before : AddressFile) (adr0 : before adr0Offset = h.adr0)
    (adr1 : before adr1Offset = h.adr1) (old : before adr1Offset = h.oldAdr1) :
    ProgramsAddress h before (fileAfter before (addressAccesses h.programMacAddr)) ↔
      ¬ Mixed (readBack before h) := by
  have same : readBack before h = h.readMacAddr := by
    rw [readBack, adr0, adr1]
  obtain ⟨after0, after1⟩ := programMacAddr_file h before
  constructor
  · rintro ⟨chosen, _⟩ mixed
    have blank := mixed.1
    have uneven : ¬ (Uniform (readBack before h) 0x00 ∨ Uniform (readBack before h) 0xFF) :=
      fun uniform => (blank_cases _ blank).mp uniform mixed
    have first := chosen 0 (by decide)
    rw [if_neg uneven, macAddr_choice, if_pos (same ▸ blank)] at first
    rcases blank 0 (by decide) with zero | one
    · rw [zero] at first
      exact absurd first (by decide)
    · rw [one] at first
      exact absurd first (by decide)
  · intro pure
    constructor
    · intro i _
      rw [macAddr_choice, ← same]
      by_cases blank : ∀ k < ethAddrLen, readBack before h k = 0x00 ∨ readBack before h k = 0xFF
      · rw [if_pos blank, if_pos ((blank_cases _ blank).mpr pure)]
      · rw [if_neg blank, if_neg fun uniform => blank (uniform_blank _ uniform)]
    · intro i inside
      exact readBack_programmed h before i inside
    · have mask : (0xffff0000#32 : BitVec 32) = ~~~0x0000ffff#32 := by decide
      rw [after1, mask, old]
      exact outside_mask _ _ _ (two_bytes_inside _ _)
    · intro kept
      rw [same] at kept
      rw [after0, after1, kept 0 (by decide), kept 1 (by decide), kept 2 (by decide),
        kept 3 (by decide), kept 4 (by decide), kept 5 (by decide)]
      constructor
      · rw [adr0]
        exact four_bytes h.adr0
      · rw [← old]
        apply same_mask
        rw [adr1]
        exact two_bytes h.adr1

/-- A successful `PA6TEth_HWInit` takes the right address exactly when the registers do not hold a
mixture of zero bytes and bytes of ones. -/
theorem station_address_iff (h : HwState) (e : InitEnv) (b : PA6TEthBase) (before : AddressFile)
    (succeeds : (hwInitEvents h e b).2 = true)
    (answered : Replays before (addressAccesses (hwInitEvents h e b).1)) :
    ProgramsAddress h before (fileAfter before (addressAccesses (hwInitEvents h e b).1)) ↔
      ¬ Mixed (readBack before h) := by
  rw [hwInit_address h e b succeeds] at answered ⊢
  obtain ⟨adr0, adr1, old, _⟩ := answered
  exact hwInit_programs h before adr0 adr1 old

def addressedHw (adr0 adr1 : BitVec 32) : HwState :=
  { quietHw with adr0 := adr0, adr1 := adr1, oldAdr1 := adr1 }

def addressFile (adr0 adr1 : BitVec 32) : AddressFile :=
  fun offset => if offset = adr0Offset then adr0 else adr1

theorem station_address_kept :
    (hwInitEvents (addressedHw 0x11223344 0xABCD5566) refusedIrq foundBase).2 = true ∧
      ProgramsAddress (addressedHw 0x11223344 0xABCD5566) (addressFile 0x11223344 0xABCD5566)
        (fileAfter (addressFile 0x11223344 0xABCD5566)
          (addressAccesses
            (hwInitEvents (addressedHw 0x11223344 0xABCD5566) refusedIrq foundBase).1)) := by
  have succeeds :
      (hwInitEvents (addressedHw 0x11223344 0xABCD5566) refusedIrq foundBase).2 = true := by decide
  refine ⟨succeeds, (station_address_iff _ _ _ _ succeeds ?_).mpr ?_⟩
  · rw [hwInit_address _ _ _ succeeds]
    exact ⟨rfl, rfl, rfl, trivial⟩
  · rintro ⟨blank, _⟩
    exact absurd (blank 0 (by decide)) (by decide)

/-- The address `00:FF:00:00:00:00` is replaced by the fallback. -/
theorem mixed_address_replaced :
    (hwInitEvents (addressedHw 0 0x000000FF) refusedIrq foundBase).2 = true ∧
      Replays (addressFile 0 0x000000FF)
        (addressAccesses (hwInitEvents (addressedHw 0 0x000000FF) refusedIrq foundBase).1) ∧
      (List.range 6).map (readBack (addressFile 0 0x000000FF) (addressedHw 0 0x000000FF)) =
        [0x00, 0xFF, 0x00, 0x00, 0x00, 0x00] ∧
      (List.range 6).map (addressedHw 0 0x000000FF).macAddr =
        [0x02, 0x00, 0xDE, 0xAD, 0xBE, 0xEF] ∧
      ¬ ProgramsAddress (addressedHw 0 0x000000FF) (addressFile 0 0x000000FF)
        (fileAfter (addressFile 0 0x000000FF)
          (addressAccesses (hwInitEvents (addressedHw 0 0x000000FF) refusedIrq foundBase).1)) := by
  have succeeds : (hwInitEvents (addressedHw 0 0x000000FF) refusedIrq foundBase).2 = true := by
    decide
  rw [hwInit_address _ _ _ succeeds]
  refine ⟨succeeds, ⟨rfl, rfl, rfl, trivial⟩, by decide, by decide, fun programs => ?_⟩
  refine (hwInit_programs _ _ rfl rfl rfl).mp programs ⟨by decide, ⟨0, by decide, by decide⟩,
    ⟨1, by decide, by decide⟩⟩

end Pa6tEth

import Pa6tEth.HwCleanup
import Mathlib.Data.List.Find

/-! The interface table as `find_dma_interface_of_mac` and the diagnostic tool read it. -/

namespace Pa6tEth

open Support

namespace HwState

/-- `nintf` of both walks. -/
def interfaceCount (h : HwState) : Nat := ((h.capIfi &&& 0x00ff0000) >>> 16).toNat

/-- Entry `k`, the least significant byte of a word first. -/
def tableByte (h : HwState) (k : Nat) : BitVec 8 :=
  (h.interfaceTable (h.tableOffset + 4 * (k / 4)) >>> (8 * (k % 4))).setWidth 8

/-- The inner loop of the tool, which stops at `nintf`. -/
def toolWord (h : HwState) (i : Nat) : List (Nat × BitVec 8) :=
  ((List.range 4).takeWhile fun j => i * 4 + j < h.interfaceCount).map fun j =>
    (i * 4 + j, (h.interfaceTable (h.tableOffset + 4 * i) >>> (8 * j)).setWidth 8)

def toolWalk (h : HwState) : List (Nat × BitVec 8) :=
  (List.range h.tableWords).flatMap h.toolWord

end HwState

/-- The least entry below `nintf` that names the MAC's function, or none; the tool lists the same
one first. -/
structure FindsInterface (h : HwState) (result : Option Nat) : Prop where
  least : ∀ i, result = some i ↔ i < h.interfaceCount ∧ h.tableByte i = h.devfn ∧
    ∀ k < i, h.tableByte k ≠ h.devfn
  absent : result = none ↔ ∀ i < h.interfaceCount, h.tableByte i ≠ h.devfn
  tool : result = (h.toolWalk.find? fun entry => entry.2 = h.devfn).map Prod.fst

theorem listedAt_byte (h : HwState) (i j : Nat) (inside : j < 4) :
    h.listedAt i j = decide (h.tableByte (i * 4 + j) = h.devfn) := by
  have word : (i * 4 + j) / 4 = i := by omega
  have byte : (i * 4 + j) % 4 = j := by omega
  simp only [HwState.listedAt, HwState.tableByte, word, byte]
  generalize h.interfaceTable (h.tableOffset + 4 * i) >>> (8 * j) = shifted
  have low : (shifted &&& 0xff).toNat = (shifted.setWidth 8).toNat := by
    rw [BitVec.toNat_and, BitVec.toNat_setWidth]
    exact Nat.and_two_pow_sub_one_eq_mod shifted.toNat 8
  have wide : (h.devfn.setWidth 32).toNat = h.devfn.toNat := by
    rw [BitVec.toNat_setWidth]
    exact Nat.mod_eq_of_lt (Nat.lt_of_lt_of_le h.devfn.isLt (by decide))
  simp only [← BitVec.toNat_inj, low, wide]

theorem scanWord_find (h : HwState) (i : Nat) :
    ((List.range 4).find? (h.listedAt i)).map (fun j => i * 4 + j) =
      (List.range' (i * 4) 4).find? fun k => h.tableByte k = h.devfn := by
  have entries : List.range' (i * 4) 4 = (List.range 4).map fun j => i * 4 + j := by
    rw [List.range'_eq_map_range]
  rw [entries, List.find?_map]
  apply congrArg
  apply List.find?_congr
  intro j inside
  exact listedAt_byte h i j (List.mem_range.mp inside)

theorem scanTable_find (h : HwState) (left i : Nat) :
    (h.scanTable left i).2 =
      (List.range' (i * 4) (left * 4)).find? fun k => h.tableByte k = h.devfn := by
  induction left generalizing i with
  | zero => simp [HwState.scanTable]
  | succ left ih =>
      have split : List.range' (i * 4) ((left + 1) * 4) =
          List.range' (i * 4) 4 ++ List.range' ((i + 1) * 4) (left * 4) := by
        rw [Nat.add_mul left, Nat.add_comm (left * 4), Nat.add_mul i, List.range'_append_1]
      rw [split, List.find?_append, ← scanWord_find, ← ih (i + 1), HwState.scanTable]
      cases (List.range 4).find? (h.listedAt i) with
      | none => rfl
      | some j => rfl

theorem findDmaInterface_find (h : HwState) :
    h.findDmaInterfaceOfMac.2 =
      (List.range (h.tableWords * 4)).find? fun k => h.tableByte k = h.devfn := by
  calc
    _ = (h.scanTable h.tableWords 0).2 := rfl
    _ = (List.range' (0 * 4) (h.tableWords * 4)).find? fun k => h.tableByte k = h.devfn :=
      scanTable_find h h.tableWords 0
    _ = _ := by rw [Nat.zero_mul, List.range_eq_range']

theorem takeWhile_range (bound start count : Nat) :
    (List.range count).takeWhile (fun j => start + j < bound) =
      List.range (min count (bound - start)) := by
  induction count with
  | zero => rfl
  | succ count ih =>
      rw [List.range_succ, List.takeWhile_append, ih, List.length_range, List.length_range]
      by_cases inside : start + count < bound
      · have whole : min count (bound - start) = count := by omega
        have longer : min (count + 1) (bound - start) = count + 1 := by omega
        simp [whole, longer, inside, List.range_succ]
      · have short : min (count + 1) (bound - start) = min count (bound - start) := by omega
        rw [short]
        split
        · rename_i full
          simp [inside, full]
        · rfl

theorem toolWord_entries (h : HwState) (i : Nat) :
    h.toolWord i =
      (List.range' (i * 4) (min 4 (h.interfaceCount - i * 4))).map fun k => (k, h.tableByte k) := by
  rw [HwState.toolWord, takeWhile_range, List.range'_eq_map_range, List.map_map]
  apply List.map_congr_left
  intro j inside
  have small : j < 4 := by
    have := List.mem_range.mp inside
    omega
  have word : (i * 4 + j) / 4 = i := by omega
  have byte : (i * 4 + j) % 4 = j := by omega
  simp only [Function.comp_apply, HwState.tableByte, word, byte]

theorem toolWalk_entries (h : HwState) :
    h.toolWalk = (List.range h.interfaceCount).map fun k => (k, h.tableByte k) := by
  have upTo : ∀ words, (List.range words).flatMap h.toolWord =
      (List.range (min (words * 4) h.interfaceCount)).map fun k => (k, h.tableByte k) := by
    intro words
    induction words with
    | zero => simp
    | succ words ih =>
        rw [List.range_succ, List.flatMap_append, ih, List.flatMap_singleton, toolWord_entries,
          ← List.map_append]
        apply congrArg
        rw [List.range_eq_range', List.range_eq_range']
        by_cases inside : words * 4 ≤ h.interfaceCount
        · have before : min (words * 4) h.interfaceCount = words * 4 := by omega
          have after : min ((words + 1) * 4) h.interfaceCount =
              words * 4 + min 4 (h.interfaceCount - words * 4) := by omega
          rw [before, after]
          simpa using List.range'_append_1 (s := 0) (m := words * 4)
            (n := min 4 (h.interfaceCount - words * 4))
        · have none : min 4 (h.interfaceCount - words * 4) = 0 := by omega
          have same : min ((words + 1) * 4) h.interfaceCount = min (words * 4) h.interfaceCount := by
            omega
          rw [none, same, List.range'_zero, List.append_nil]
  have whole : min (h.tableWords * 4) h.interfaceCount = h.interfaceCount := by
    simp only [HwState.tableWords, HwState.interfaceCount]
    omega
  rw [HwState.toolWalk, upTo, whole]

theorem toolWalk_find (h : HwState) :
    (h.toolWalk.find? fun entry => entry.2 = h.devfn).map Prod.fst =
      (List.range h.interfaceCount).find? fun k => h.tableByte k = h.devfn := by
  rw [toolWalk_entries, List.find?_map, Option.map_map]
  exact Option.map_id'

/-- An entry of the table matches, or none of the bytes that fill up its last word does. -/
def PaddingHarmless (h : HwState) : Prop :=
  (∃ i < h.interfaceCount, h.tableByte i = h.devfn) ∨
    ∀ k, h.interfaceCount ≤ k → k < h.tableWords * 4 → h.tableByte k ≠ h.devfn

theorem findsInterface_search (h : HwState) :
    FindsInterface h
      ((List.range h.interfaceCount).find? fun k => h.tableByte k = h.devfn) where
  least := by
    intro i
    rw [List.find?_range_eq_some]
    simp only [decide_eq_true_eq, List.mem_range, Bool.not_eq_true', decide_eq_false_iff_not]
    exact ⟨fun ⟨here, small, first⟩ => ⟨small, here, first⟩,
      fun ⟨small, here, first⟩ => ⟨here, small, first⟩⟩
  absent := by
    rw [List.find?_range_eq_none]
    simp only [Bool.not_eq_true', decide_eq_false_iff_not]
  tool := (toolWalk_find h).symm

theorem find_longer (p : Nat → Bool) (short long : Nat) (order : short ≤ long) :
    (List.range long).find? p = (List.range short).find? p ↔
      (∃ i < short, p i = true) ∨ ∀ k, short ≤ k → k < long → p k = false := by
  constructor
  · intro same
    by_cases here : ∃ i < short, p i = true
    · exact .inl here
    · right
      intro k _ high
      have none : (List.range short).find? p = none := by
        rw [List.find?_range_eq_none]
        intro i small
        simpa using fun found => here ⟨i, small, found⟩
      rw [none, List.find?_range_eq_none] at same
      simpa using same k high
  · rintro (⟨i, small, here⟩ | behind)
    · obtain ⟨first, found⟩ := Option.isSome_iff_exists.mp
        (List.find?_isSome.mpr ⟨i, List.mem_range.mpr small, here⟩)
      rw [found, List.find?_range_eq_some]
      obtain ⟨holds, inside, least⟩ := List.find?_range_eq_some.mp found
      have inside := List.mem_range.mp inside
      exact ⟨holds, List.mem_range.mpr (by omega), least⟩
    · cases found : (List.range short).find? p with
      | some first =>
          rw [List.find?_range_eq_some]
          obtain ⟨holds, inside, least⟩ := List.find?_range_eq_some.mp found
          have inside := List.mem_range.mp inside
          exact ⟨holds, List.mem_range.mpr (by omega), least⟩
      | none =>
          rw [List.find?_range_eq_none] at found ⊢
          intro k high
          by_cases low : k < short
          · exact found k low
          · simp [behind k (by omega) high]

/-- The lookup gives the table's answer exactly when the bytes that fill up its last word do not
give another one. -/
theorem interface_found_iff (h : HwState) :
    FindsInterface h h.findDmaInterfaceOfMac.2 ↔ PaddingHarmless h := by
  have right : FindsInterface h h.findDmaInterfaceOfMac.2 ↔
      h.findDmaInterfaceOfMac.2 =
        (List.range h.interfaceCount).find? fun k => h.tableByte k = h.devfn := by
    constructor
    · intro finds
      exact finds.tool.trans (toolWalk_find h)
    · intro same
      rw [same]
      exact findsInterface_search h
  have order : h.interfaceCount ≤ h.tableWords * 4 := by
    simp only [HwState.tableWords, HwState.interfaceCount]
    omega
  rw [right, findDmaInterface_find, find_longer _ _ _ order]
  simp only [PaddingHarmless, decide_eq_true_eq, decide_eq_false_iff_not]

/-- Six interfaces, and the MAC's function only in the byte behind them. -/
def sixInterfaces : HwState :=
  { quietHw with
    capIfi := 0x00060000
    interfaceTable := fun offset => if offset = 0 then 0xA1A0A9A8 else 0x00A300A2 }

theorem padding_found :
    sixInterfaces.interfaceCount = 6 ∧ sixInterfaces.findDmaInterfaceOfMac.2 = some 6 ∧
      ¬ FindsInterface sixInterfaces sixInterfaces.findDmaInterfaceOfMac.2 := by
  have found : sixInterfaces.findDmaInterfaceOfMac.2 = some 6 := by decide
  refine ⟨by decide, found, fun finds => ?_⟩
  rw [found] at finds
  have absent := finds.absent.mpr (by decide)
  cases absent

end Pa6tEth

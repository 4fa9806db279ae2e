import Pa6tEth.RxBuffers
import Pa6tEth.Support.Shelf

/-! The receive buffers under an engine that writes any eval word beside the address of one of
them. -/

namespace Pa6tEth

open Support

/-- The address that a word of `rx_buf_ring` holds, unless it is zero. -/
def wordAddr (word : Word) : Option (BitVec 32) :=
  if word = 0#64 then none else some ((word &&& xctRxbAddrM).setWidth 32)

namespace UnitRx

/-- `rx_buf_ring` as slots in which addresses lie. -/
def shelf (u : UnitRx) : Shelf (Fin rxBufRingSize) (BitVec 32) := fun slot =>
  wordAddr (u.rxBufRing slot)

def buffers (u : UnitRx) : Set (BitVec 32) :=
  {a | ∃ i < numRxBufs, u.rxBufsPhys i = a ∧ a ≠ 0#32}

def AddressesApart (u : UnitRx) : Prop :=
  ∀ i < numRxBufs, ∀ j < numRxBufs, u.rxBufsPhys i ≠ 0#32 → u.rxBufsPhys i = u.rxBufsPhys j → i = j

end UnitRx

/-- The pointer word of each completion has the address of one of the driver's buffers. -/
def namesBuffer (s : RxSystem) : RxAction → Bool
  | .complete c =>
      (List.range numRxBufs).any fun i =>
        decide (s.rx.rxBufsPhys i = ptrPhys c.ptrWord ∧ ptrPhys c.ptrWord ≠ 0#32)
  | _ => true

def evalMachine (ch : Channels) : Machine RxSystem RxAction := (descMachine ch).allow namesBuffer

namespace RxSystem

def evalNow (s : RxSystem) : Nat := evalOf (s.rx.rxRing.get (s.cursor + 1))

def addrNow (s : RxSystem) : BitVec 32 := ptrPhys (s.rx.rxRing.get (s.cursor + 2))

def postedAt (s : RxSystem) (slot : Nat) : Option (BitVec 32) :=
  wordAddr (s.rx.rxBufRing.get slot)

/-- The slot still has the named buffer and the write slot is free or the same one, or the slot is
already zero and the write slot has that very buffer. -/
def Movable (s : RxSystem) (slot : Nat) : Prop :=
  s.postedAt slot = some s.addrNow ∧
      (s.rx.rxBufWritePtr = slot ∨ s.postedAt s.rx.rxBufWritePtr = none) ∨
    s.postedAt slot = none ∧ s.postedAt s.rx.rxBufWritePtr = some s.addrNow

instance (s : RxSystem) (slot : Nat) : Decidable (s.Movable slot) :=
  inferInstanceAs (Decidable (_ ∨ _))

end RxSystem

/-- The eval word leads through `rx_slot_buf` to the buffer that the pointer word names, and that
buffer can be moved from its slot. -/
def evalRight (s : RxSystem) : RxAction → Bool
  | .iterate =>
      decide (1 ≤ s.evalNow ∧ s.evalNow ≤ rxRingSize ∧
        s.rx.rxSlotBuf (s.evalNow - 1) < numRxBufs ∧
        s.rx.rxBufsPhys (s.rx.rxSlotBuf (s.evalNow - 1)) = s.addrNow ∧
        s.Movable (s.evalNow - 1))
  | _ => true

/-- The group at the cursor is given back as the one buffer that its pointer word names. -/
structure Reposts (s t : RxSystem) : Prop where
  word : t.rx.rxBufRing.get s.rx.rxBufWritePtr = rxbWord s.addrNow
  entry : t.rx.rxSlotBuf s.rx.rxBufWritePtr < numRxBufs ∧
    t.rx.rxBufsPhys (t.rx.rxSlotBuf s.rx.rxBufWritePtr) = s.addrNow
  write : t.rx.rxBufWritePtr = (s.rx.rxBufWritePtr + 1) % rxBufRingSize
  one : t.replenish = s.replenish + 1

/-- Each completion reposts its buffer, as many are reposted as completed, and every buffer is in
one word of `rx_buf_ring`. -/
def Conserved (s : RxSystem) (a : RxAction) (t : RxSystem) : Prop :=
  (a = .iterate → Reposts s t) ∧ t.replenish = t.count ∧ t.rx.shelf.Complete t.rx.buffers

/-- The write cursor is in its ring, no word holds a foreign address, and the pointer word of each
unprocessed group names a buffer. -/
structure ShelfInv (s : RxSystem) : Prop extends DescInv s where
  complete : s.rx.shelf.Complete s.rx.buffers
  known : ∀ slot a, s.rx.shelf slot = some a → a ∈ s.rx.buffers
  counted : s.replenish = s.count
  write : s.rx.rxBufWritePtr < rxBufRingSize
  named : ∀ j, s.cleaned ≤ j → j < s.written →
    ptrPhys (s.rx.rxRing.get (4 * j + 2)) ∈ s.rx.buffers

theorem wordAddr_rxbWord (phys : BitVec 32) : wordAddr (rxbWord phys) = some phys := by
  rw [wordAddr, if_neg (rxbWord_present phys), rxbWord_addr]

theorem rxbWord_inj (first second : BitVec 32) (same : rxbWord first = rxbWord second) :
    first = second := by
  rw [← rxbWord_addr first, same, rxbWord_addr]

theorem slot_inj (first second : Nat) (small : first < rxBufRingSize)
    (other : second < rxBufRingSize)
    (same : Fin.ofNat rxBufRingSize first = Fin.ofNat rxBufRingSize second) : first = second := by
  have values := congrArg Fin.val same
  rwa [Fin.val_ofNat, Fin.val_ofNat, Nat.mod_eq_of_lt small, Nat.mod_eq_of_lt other] at values

theorem fetchGroup_words (u : UnitRx) (n : Nat) (g : RxGroup) (fetched : fetchGroup u n = some g)
    (known : g.actualBuf < numRxBufs) :
    1 ≤ evalOf (u.rxRing.get (n + 1)) ∧ evalOf (u.rxRing.get (n + 1)) ≤ rxRingSize ∧
      g.ringSlot = evalOf (u.rxRing.get (n + 1)) - 1 ∧
      g.actualBuf = u.rxSlotBuf (evalOf (u.rxRing.get (n + 1)) - 1) := by
  simp only [fetchGroup] at fetched
  split at fetched
  · obtain rfl := Option.some.inj fetched
    simp only at known ⊢
    by_cases positive : 0 < evalOf (u.rxRing.get (n + 1))
    · rw [if_pos positive] at known ⊢
      by_cases inside : evalOf (u.rxRing.get (n + 1)) - 1 < rxRingSize
      · rw [if_pos inside]
        exact ⟨positive, by omega, rfl, rfl⟩
      · rw [if_neg inside] at known
        exact absurd known (Nat.lt_irrefl _)
    · rw [if_neg positive, if_neg (Nat.lt_irrefl _)] at known
      exact absurd known (Nat.lt_irrefl _)
  · cases fetched

/-- `next_desc` with a known slot and buffer moves the buffer from the slot to the write slot. -/
theorem nextDesc_shelf (u : UnitRx) (v : RxLoop) (g : RxGroup) (known : g.actualBuf < numRxBufs)
    (inside : g.ringSlot < rxRingSize) :
    (nextDesc u v g).1.shelf =
      u.shelf.move (Fin.ofNat _ g.ringSlot) (Fin.ofNat _ u.rxBufWritePtr)
        (u.rxBufsPhys g.actualBuf) := by
  funext slot
  rw [Shelf.move_apply]
  simp only [UnitRx.shelf, (nextDesc_repost u v g known inside).1, Ring.set]
  split
  · exact wordAddr_rxbWord _
  · split
    · rfl
    · rfl

theorem nextDesc_buffers (u : UnitRx) (v : RxLoop) (g : RxGroup) :
    (nextDesc u v g).1.buffers = u.buffers := by
  simp only [UnitRx.buffers, (nextDesc_rxBufs u v g).2]

theorem shelfInv_named (s : RxSystem) (v : RxLoop) (inv : ShelfInv s)
    (ready : owned (s.rx.rxRing.get v.n) = true) : s.addrNow ∈ s.rx.buffers := by
  have pending := groupInv_pending s v inv.toGroupInv ready
  have begins := inv.cursor
  have here : s.rx.rxRing.get (s.cursor + 2) = s.rx.rxRing.get (4 * s.cleaned + 2) :=
    Ring.get_congr _ _ _ (by simp only [rxRingSize]; omega)
  rw [RxSystem.addrNow, here]
  exact inv.named s.cleaned (Nat.le_refl _) pending

/-- The eval word in terms of what the loop head finds. -/
theorem evalRight_iff (s : RxSystem) (v : RxLoop) (g : RxGroup) (inside : s.loop = some v)
    (fetched : fetchGroup s.rx v.n = some g) :
    evalRight s .iterate = true ↔
      g.actualBuf < numRxBufs ∧ g.ringSlot < rxRingSize ∧
        s.rx.rxBufsPhys g.actualBuf = s.addrNow ∧ s.Movable g.ringSlot := by
  have here : s.cursor = v.n := by simp only [RxSystem.cursor, inside]
  have eval : s.evalNow = evalOf (s.rx.rxRing.get (v.n + 1)) := by rw [RxSystem.evalNow, here]
  simp only [evalRight, decide_eq_true_eq]
  constructor
  · rintro ⟨low, high, known, address, movable⟩
    have inRange : s.evalNow - 1 < 2048 := by
      simp only [rxRingSize] at high
      omega
    obtain ⟨slot, buffer⟩ := fetchGroup_buf s.rx v.n (s.evalNow - 1) _ g fetched
      (by rw [← eval]; omega) inRange rfl
    rw [← slot] at movable
    rw [← buffer] at known address
    exact ⟨known, slot ▸ inRange, address, movable⟩
  · rintro ⟨known, _, address, movable⟩
    obtain ⟨low, high, slot, buffer⟩ := fetchGroup_words s.rx v.n g fetched known
    rw [← eval] at low high slot buffer
    rw [slot] at movable
    rw [buffer] at known address
    exact ⟨low, high, known, address, movable⟩

theorem shelf_moved (s : RxSystem) (v : RxLoop) (g : RxGroup) (inv : ShelfInv s)
    (fetched : fetchGroup s.rx v.n = some g) (known : g.actualBuf < numRxBufs)
    (inRing : g.ringSlot < rxRingSize) (address : s.rx.rxBufsPhys g.actualBuf = s.addrNow) :
    (nextDesc s.rx v g).1.shelf.Complete (nextDesc s.rx v g).1.buffers ↔
      s.Movable g.ringSlot := by
  have named := shelfInv_named s v inv (fetchGroup_owned s.rx v.n g fetched)
  have same : Fin.ofNat rxBufRingSize s.rx.rxBufWritePtr = Fin.ofNat rxBufRingSize g.ringSlot ↔
      s.rx.rxBufWritePtr = g.ringSlot :=
    ⟨slot_inj _ _ inv.write inRing, fun equal => by rw [equal]⟩
  rw [nextDesc_shelf s.rx v g known inRing, nextDesc_buffers, address,
    Shelf.move_complete_iff _ _ _ _ _ inv.complete inv.known named, same]
  rfl

theorem conserved_iterate (s : RxSystem) (v : RxLoop) (g : RxGroup) (inv : ShelfInv s)
    (inside : s.loop = some v) (fetched : fetchGroup s.rx v.n = some g) :
    Conserved s .iterate { s with
      rx := (nextDesc s.rx v g).1
      loop := some (nextDesc s.rx v g).2
      cleaned := s.cleaned + 1 } ↔ evalRight s .iterate = true := by
  have counted := inv.counted
  simp only [RxSystem.replenish, RxSystem.count, inside] at counted
  rw [evalRight_iff s v g inside fetched]
  constructor
  · rintro ⟨reposts, _, complete⟩
    have reposts := reposts rfl
    have known : g.actualBuf < numRxBufs := by
      by_contra unknown
      have one := reposts.one
      simp only [RxSystem.replenish, inside, nextDesc, if_neg unknown] at one
      omega
    obtain ⟨low, high, slot, _⟩ := fetchGroup_words s.rx v.n g fetched known
    have inRing : g.ringSlot < rxRingSize := by omega
    have address : s.rx.rxBufsPhys g.actualBuf = s.addrNow := by
      have word := reposts.word
      simp only [(nextDesc_repost s.rx v g known inRing).1, Ring.get_set_same] at word
      exact rxbWord_inj _ _ word
    exact ⟨known, inRing, address,
      (shelf_moved s v g inv fetched known inRing address).mp complete⟩
  · rintro ⟨known, inRing, address, movable⟩
    obtain ⟨ring, entries, write, one⟩ := nextDesc_repost s.rx v g known inRing
    refine ⟨fun _ => ⟨?_, ?_, write, ?_⟩, ?_, ?_⟩
    · simp only [ring, Ring.get_set_same, address]
    · have entry : g.actualBuf % 65536 = g.actualBuf := by
        simp only [numRxBufs] at known
        omega
      simp only [entries, (nextDesc_rxBufs s.rx v g).2, Function.update_self, entry]
      exact ⟨known, address⟩
    · simp only [RxSystem.replenish, one, inside]
    · simp only [RxSystem.replenish, RxSystem.count, one, (nextDesc_n s.rx v g).2, counted]
    · exact (shelf_moved s v g inv fetched known inRing address).mpr movable

theorem armed_shelf (ch : Channels) (e : ArmEnv) (u : UnitRx)
    (writes : (postRxBuffers ch e u).2 ≠ []) (slot : Fin rxBufRingSize) :
    (armed ch e u).rx.shelf slot =
      if slot.val < numRxBufs ∧ (armed ch e u).rx.rxBufsPhys slot.val ≠ 0#32 then
        some ((armed ch e u).rx.rxBufsPhys slot.val)
      else none := by
  have rings := (postRxBuffers_armed ch e u writes).1
  have word := armRings_get (allocRxBufs e.buf numRxBufs 0 u 0).1 slot.val slot.isLt
  have here : (armRings (allocRxBufs e.buf numRxBufs 0 u 0).1).rxBufRing.get slot.val =
      (armRings (allocRxBufs e.buf numRxBufs 0 u 0).1).rxBufRing slot := by
    rw [Ring.get, Fin.ofNat_val_eq_self]
  simp only [armed, rings, UnitRx.shelf, (armRings_rxBufs _).2]
  rw [← here, word]
  split
  · exact wordAddr_rxbWord _
  · rfl

theorem shelfInv_start (ch : Channels) (s : RxSystem) (begun : ArmedStart ch s)
    (apart : s.rx.AddressesApart) : ShelfInv s := by
  have desc := descInv_start ch s begun
  obtain ⟨e, u, writes, rfl⟩ := begun
  have shelf := armed_shelf ch e u writes
  have lies : ∀ slot a, (armed ch e u).rx.shelf slot = some a →
      slot.val < numRxBufs ∧ (armed ch e u).rx.rxBufsPhys slot.val = a ∧ a ≠ 0#32 := by
    intro slot a posted
    rw [shelf slot] at posted
    split at posted
    · rename_i there
      obtain rfl := Option.some.inj posted
      exact ⟨there.1, rfl, there.2⟩
    · cases posted
  refine ⟨desc, ⟨?_, ?_⟩, ?_, rfl, ?_, ?_⟩
  · rintro a ⟨i, small, rfl, present⟩
    have inside : i < rxBufRingSize := by
      simp only [numRxBufs, rxBufRingSize, rxRingSize] at small ⊢
      omega
    exact ⟨⟨i, inside⟩, by rw [shelf, if_pos ⟨small, present⟩]⟩
  · intro slot other a first second
    obtain ⟨small, address, present⟩ := lies slot a first
    obtain ⟨less, same, _⟩ := lies other a second
    exact Fin.ext (apart slot.val small other.val less (address ▸ present)
      (address.trans same.symm))
  · intro slot a posted
    obtain ⟨small, address, present⟩ := lies slot a posted
    exact ⟨slot.val, small, address, present⟩
  · simp only [armed, (postRxBuffers_armed ch e u writes).1, (armRings_cursors _).2]
    decide
  · intro j low high
    exact absurd high (Nat.not_lt_zero j)

theorem shelfInv_same (s t : RxSystem) (inv : ShelfInv s) (desc : DescInv t)
    (ring : t.rx.rxBufRing = s.rx.rxBufRing) (addresses : t.rx.rxBufsPhys = s.rx.rxBufsPhys)
    (write : t.rx.rxBufWritePtr = s.rx.rxBufWritePtr) (counted : t.replenish = t.count)
    (named : ∀ j, t.cleaned ≤ j → j < t.written →
      ptrPhys (t.rx.rxRing.get (4 * j + 2)) ∈ s.rx.buffers) : ShelfInv t := by
  have shelf : t.rx.shelf = s.rx.shelf := by
    funext slot
    simp only [UnitRx.shelf, ring]
  have buffers : t.rx.buffers = s.rx.buffers := by simp only [UnitRx.buffers, addresses]
  refine ⟨desc, ?_, ?_, counted, ?_, ?_⟩
  · rw [shelf, buffers]
    exact inv.complete
  · rw [shelf, buffers]
    exact inv.known
  · rw [write]
    exact inv.write
  · rw [buffers]
    exact named

theorem namesBuffer_complete (s : RxSystem) (c : Completion)
    (names : namesBuffer s (.complete c) = true) : ptrPhys c.ptrWord ∈ s.rx.buffers := by
  simp only [namesBuffer, List.any_eq_true, List.mem_range, decide_eq_true_eq] at names
  obtain ⟨i, small, address, present⟩ := names
  exact ⟨i, small, address, present⟩

/-- A step is kept by the invariant when its eval word is right. -/
theorem shelfInv_step (ch : Channels) (s t : RxSystem) (a : RxAction) (inv : ShelfInv s)
    (stepped : (evalMachine ch).step s a = some t) (right : evalRight s a = true) :
    ShelfInv t := by
  obtain ⟨names, moved⟩ := (descMachine ch).allow_step namesBuffer s t a stepped
  have desc := descInv_step ch s t a inv.toDescInv moved
  cases a with
  | complete c =>
      have member := namesBuffer_complete s c names
      obtain ⟨_, rfl⟩ := complete_step ch chanConforms s t c moved
      have begins : s.engine.descPos % 2048 = 4 * s.written % 2048 := by
        rw [inv.position]
        omega
      have window := desc.window
      have order := inv.order
      refine shelfInv_same s _ inv desc rfl rfl rfl inv.counted fun j low high => ?_
      simp only at low high window
      by_cases newest : j = s.written
      · rw [newest, (writeGroup_words s.rx.rxRing s.engine.descPos s.written c begins).2]
        exact member
      · rw [writeGroup_other _ _ s.written _ _ begins (by omega)]
        exact inv.named j low (by omega)
  | enter =>
      obtain ⟨_, rfl⟩ := enter_step ch chanConforms s t moved
      exact shelfInv_same s _ inv desc rfl rfl rfl rfl inv.named
  | iterate =>
      obtain ⟨v, g, inside, fetched, rfl⟩ := iterate_step ch chanConforms s t moved
      have named := shelfInv_named s v inv (fetchGroup_owned s.rx v.n g fetched)
      obtain ⟨reposts, counted, complete⟩ :=
        (conserved_iterate s v g inv inside fetched).mpr right
      obtain ⟨known, inRing, address, _⟩ := (evalRight_iff s v g inside fetched).mp right
      have begins : v.n % 2048 = 4 * s.cleaned % 2048 := by
        simpa only [RxSystem.cursor, inside] using inv.cursor
      have window := inv.window
      refine ⟨desc, complete, ?_, counted, ?_, ?_⟩
      · intro slot posted lies
        simp only [nextDesc_shelf s.rx v g known inRing, nextDesc_buffers, address] at lies ⊢
        rcases Shelf.move_from _ _ _ _ _ _ lies with ⟨_, rfl⟩ | ⟨_, _, before⟩
        · exact named
        · exact inv.known slot posted before
      · rw [(reposts rfl).write]
        exact Nat.mod_lt _ (by decide)
      · intro j low high
        simp only at low high
        rw [nextDesc_group s.rx v g s.cleaned (4 * j + 2) begins, if_neg (by omega),
          nextDesc_buffers]
        exact inv.named j (by omega) high
  | leave =>
      obtain ⟨v, _, _, rfl⟩ := leave_step ch chanConforms s t moved
      exact shelfInv_same s _ inv desc rfl rfl rfl rfl inv.named

/-- Along every run the buffers are conserved exactly as long as each eval word leads to the buffer
that its pointer word names, where that one still lies. -/
theorem buffers_conserved_iff (ch : Channels) (s : RxSystem) (begun : ArmedStart ch s)
    (apart : s.rx.AddressesApart) (actions : List RxAction) :
    (evalMachine ch).Along Conserved s actions ↔
      (evalMachine ch).Along (fun u a _ => evalRight u a = true) s actions := by
  apply (evalMachine ch).along_iff_while ShelfInv
  · intro u a t inv stepped
    have moved := ((descMachine ch).allow_step namesBuffer u t a stepped).2
    cases a with
    | iterate =>
        obtain ⟨v, g, inside, fetched, rfl⟩ := iterate_step ch chanConforms u t moved
        exact conserved_iterate u v g inv inside fetched
    | _ =>
        have after := shelfInv_step ch u t _ inv stepped rfl
        exact ⟨fun _ => rfl, fun _ => ⟨nofun, after.counted, after.complete⟩⟩
  · intro u a t inv stepped right
    exact shelfInv_step ch u t a inv stepped right
  · exact shelfInv_start ch s begun apart

/-- The eval words of an engine that completes with the slot it read are right in every run. -/
theorem conforming_right (ch : Channels) (s t : RxSystem) (a : RxAction)
    (reached : (bufMachine ch).Reached s) (stepped : (bufMachine ch).step s a = some t) :
    evalRight s a = true := by
  have inv := bufInv_reached ch s reached
  cases a with
  | iterate =>
      obtain ⟨v, g, inside, fetched, _⟩ := iterate_step ch bufConforms s t stepped
      obtain ⟨slot, buffer⟩ := bufInv_fetched s v g inv inside fetched
      have pending := groupInv_pending s v inv.toGroupInv (fetchGroup_owned s.rx v.n g fetched)
      have begins := inv.cursor
      have named : s.addrNow = s.rx.rxBufsPhys (s.cleaned % 512) := by
        rw [← inv.ptr s.cleaned (Nat.le_refl _) pending, RxSystem.addrNow]
        exact congrArg ptrPhys (Ring.get_congr _ _ _ (by simp only [rxRingSize]; omega))
      have taken : s.postedAt (s.cleaned % 2048) = some s.addrNow := by
        have word := inv.word s.cleaned (Nat.le_refl _) (by omega)
        rw [Ring.get_congr _ s.cleaned (s.cleaned % 2048)
          (by simp only [rxBufRingSize, rxRingSize]; omega)] at word
        rw [RxSystem.postedAt, word, wordAddr_rxbWord, named]
      have free : s.postedAt s.rx.rxBufWritePtr = none := by
        have write := inv.write
        have word := inv.unused s.rx.rxBufWritePtr fun j low high => by omega
        rw [RxSystem.postedAt, word]
        rfl
      rw [evalRight_iff s v g inside fetched, buffer, slot]
      exact ⟨Nat.mod_lt _ (by decide), Nat.mod_lt _ (by decide), named.symm,
        .inl ⟨taken, .inr free⟩⟩
  | _ => rfl

theorem oneBuffer_start :
    ArmedStart ⟨0, 0, 0⟩ (armed ⟨0, 0, 0⟩ (mappedEnv 1) coldRx) ∧
      (armed ⟨0, 0, 0⟩ (mappedEnv 1) coldRx).rx.AddressesApart := by
  have one : ∀ i < numRxBufs,
      (armed ⟨0, 0, 0⟩ (mappedEnv 1) coldRx).rx.rxBufsPhys i ≠ 0#32 → i = 0 := by
    decide +kernel
  refine ⟨⟨mappedEnv 1, coldRx, by decide +kernel, rfl⟩, fun i smallI j smallJ present same => ?_⟩
  rw [one i smallI present, one j smallJ (same ▸ present)]

/-- The one buffer of an arming goes round. -/
theorem buffers_conserved_round :
    (evalMachine ⟨0, 0, 0⟩).Along Conserved (armed ⟨0, 0, 0⟩ (mappedEnv 1) coldRx)
      [.complete firstCompletion, .enter, .iterate, .leave] := by
  obtain ⟨begun, apart⟩ := oneBuffer_start
  rw [buffers_conserved_iff ⟨0, 0, 0⟩ _ begun apart]
  exact (evalMachine ⟨0, 0, 0⟩).along_check evalRight _ _ (by decide +kernel)

/-- With a zero eval field the completion of a named buffer reposts nothing. -/
theorem zero_eval_loses :
    ArmedStart ⟨0, 0, 0⟩ (armed ⟨0, 0, 0⟩ (mappedEnv 1) coldRx) ∧
      (armed ⟨0, 0, 0⟩ (mappedEnv 1) coldRx).rx.AddressesApart ∧
      ¬ (evalMachine ⟨0, 0, 0⟩).Along Conserved (armed ⟨0, 0, 0⟩ (mappedEnv 1) coldRx)
        [.complete ⟨xctMacrxO, 0#64, 0x10000#64, 0#64⟩, .enter, .iterate] := by
  obtain ⟨begun, apart⟩ := oneBuffer_start
  refine ⟨begun, apart, fun along => ?_⟩
  have shape : (((evalMachine ⟨0, 0, 0⟩).run (armed ⟨0, 0, 0⟩ (mappedEnv 1) coldRx)
      [.complete ⟨xctMacrxO, 0#64, 0x10000#64, 0#64⟩, .enter]).bind fun t =>
        ((evalMachine ⟨0, 0, 0⟩).step t .iterate).map fun u => (u.replenish, u.count)) =
      some (0, 1) := by decide +kernel
  obtain ⟨t, ran, stepped⟩ := Option.bind_eq_some_iff.mp shape
  obtain ⟨u, moved, ends⟩ := Option.map_eq_some_iff.mp stepped
  obtain ⟨replenish, count⟩ := Prod.mk.inj ends
  have counted := ((evalMachine ⟨0, 0, 0⟩).along_step Conserved _ t u _ [] .iterate ran moved
    along).2.1
  rw [replenish, count] at counted
  cases counted

end Pa6tEth

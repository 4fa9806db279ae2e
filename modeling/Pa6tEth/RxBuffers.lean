import Pa6tEth.RxCredits

/-! The 512 receive buffers, circulating between the buffer ring, the engine and `next_desc`. -/

namespace Pa6tEth

open Support

/-- The engine completes a frame only with a buffer credit, with the eval word of the slot it
read and the address it read from there. -/
def bufConforms (s : RxSystem) (c : Completion) : Bool :=
  owned c.macrx && decide (1 ≤ s.engine.bufCredits) &&
    decide (evalOf c.evalWord = s.engine.bufPos + 1) &&
    decide (c.ptrWord &&& xctPtrAddrM = s.rx.rxBufRing.get s.engine.bufPos &&& xctRxbAddrM)

def FullyArmedStart (ch : Channels) (s : RxSystem) : Prop :=
  ∃ e u, u.rxBufRingPtr ≠ 0 ∧ u.rxRingPtr ≠ 0 ∧ (∀ i < numRxBufs, u.rxBufs i = 0) ∧
    (∀ i < numRxBufs, (e.buf i).mapped = true) ∧
    (∀ i < numRxBufs, ∀ j < numRxBufs, (e.buf i).phys = (e.buf j).phys → i = j) ∧
    s = armed ch e u

def bufMachine (ch : Channels) : Machine RxSystem RxAction where
  start := FullyArmedStart ch
  step := rxStep ch bufConforms

namespace RxSystem

/-- The slot posts the buffer: its word has the buffer's address, its entry the buffer's index. -/
def Posts (s : RxSystem) (slot b : Nat) : Prop :=
  s.rx.rxBufRing.get slot = rxbWord (s.rx.rxBufsPhys b) ∧ s.rx.rxSlotBuf slot = b

/-- The slot lies from the engine's next slot up to `rx_buf_write_ptr`. -/
def Ahead (s : RxSystem) (slot : Nat) : Prop :=
  slot < rxBufRingSize ∧ InWindow rxBufRingSize s.engine.bufPos s.rx.rxBufWritePtr slot

def evalSlot (s : RxSystem) (j : Nat) : Nat := evalOf (s.rx.rxRing.get (4 * j + 1)) - 1

/-- The unprocessed group `j` consumed the buffer: the driver finds it by the eval word, and the
pointer word is its address. -/
def Consumed (s : RxSystem) (j b : Nat) : Prop :=
  s.cleaned ≤ j ∧ j < s.written ∧ 0 < evalOf (s.rx.rxRing.get (4 * j + 1)) ∧
    s.evalSlot j < rxBufRingSize ∧ s.rx.rxSlotBuf (s.evalSlot j) = b ∧
    ptrPhys (s.rx.rxRing.get (4 * j + 2)) = s.rx.rxBufsPhys b

/-- The places a buffer can be in: a slot ahead of the engine, or an unprocessed group. -/
def InPlace (s : RxSystem) (b : Nat) : Nat ⊕ Nat → Prop
  | .inl slot => s.Ahead slot ∧ s.Posts slot b
  | .inr j => s.Consumed j b

/-- The slot of the oldest unprocessed group, or else the engine's next slot. -/
def oldestSlot (s : RxSystem) : Nat :=
  if s.cleaned < s.written then s.evalSlot s.cleaned else s.engine.bufPos

end RxSystem

/-- Buffer `j % 512` is posted for the `j`-th time at slot `j`; the last 512 postings count, and
those below `written` are consumed. -/
structure BufInv (s : RxSystem) : Prop extends GroupInv s where
  credit : s.engine.bufCredits + (s.written - s.cleaned) + s.replenish = 512
  counted : s.replenish = s.count
  read : s.engine.bufPos = s.written % 2048
  write : s.rx.rxBufWritePtr = (s.cleaned + 512) % 2048
  word : ∀ j, s.cleaned ≤ j → j < s.cleaned + 512 →
    s.rx.rxBufRing.get j = rxbWord (s.rx.rxBufsPhys (j % 512))
  entry : ∀ j, s.cleaned ≤ j → j < s.cleaned + 512 → s.rx.rxSlotBuf (j % 2048) = j % 512
  unused : ∀ slot, (∀ j, s.cleaned ≤ j → j < s.cleaned + 512 → slot % 2048 ≠ j % 2048) →
    s.rx.rxBufRing.get slot = 0#64
  eval : ∀ j, s.cleaned ≤ j → j < s.written →
    evalOf (s.rx.rxRing.get (4 * j + 1)) = j % 2048 + 1
  ptr : ∀ j, s.cleaned ≤ j → j < s.written →
    ptrPhys (s.rx.rxRing.get (4 * j + 2)) = s.rx.rxBufsPhys (j % 512)
  distinct : ∀ i < numRxBufs, ∀ j < numRxBufs, s.rx.rxBufsPhys i = s.rx.rxBufsPhys j → i = j

theorem writeGroup_words (ring : Ring rxRingSize Word) (pos j : Nat) (c : Completion)
    (begins : pos % 2048 = 4 * j % 2048) :
    (writeGroup ring pos c).get (4 * j + 1) = c.evalWord ∧
      (writeGroup ring pos c).get (4 * j + 2) = c.ptrWord := by
  constructor
  · rw [writeGroup_get, if_neg (by omega), if_neg (by omega), if_pos (by omega)]
  · rw [writeGroup_get, if_neg (by omega), if_pos (by omega)]

theorem fetchGroup_buf (u : UnitRx) (n slot b : Nat) (g : RxGroup)
    (fetched : fetchGroup u n = some g) (eval : evalOf (u.rxRing.get (n + 1)) = slot + 1)
    (inside : slot < 2048) (entry : u.rxSlotBuf slot = b) :
    g.ringSlot = slot ∧ g.actualBuf = b := by
  simp only [fetchGroup] at fetched
  split at fetched
  · have same := Option.some.inj fetched
    simp only [eval, Nat.zero_lt_succ, if_true, Nat.add_sub_cancel, rxRingSize, inside,
      entry] at same
    exact ⟨same ▸ rfl, same ▸ rfl⟩
  · cases fetched

theorem nextDesc_repost (u : UnitRx) (v : RxLoop) (g : RxGroup) (known : g.actualBuf < numRxBufs)
    (inside : g.ringSlot < rxRingSize) :
    (nextDesc u v g).1.rxBufRing =
        (u.rxBufRing.set g.ringSlot 0#64).set u.rxBufWritePtr
          (rxbWord (u.rxBufsPhys g.actualBuf)) ∧
      (nextDesc u v g).1.rxSlotBuf =
        Function.update u.rxSlotBuf u.rxBufWritePtr (g.actualBuf % 65536) ∧
      (nextDesc u v g).1.rxBufWritePtr = (u.rxBufWritePtr + 1) % rxBufRingSize ∧
      (nextDesc u v g).2.replenish = v.replenish + 1 := by
  simp only [nextDesc, if_pos known, if_pos inside, and_self]

theorem fullyArmed_start (ch : Channels) (s : RxSystem) (begun : FullyArmedStart ch s) :
    ArmedStart ch s := by
  obtain ⟨e, u, bufRing, ring, missing, good, _, rfl⟩ := begun
  refine ⟨e, u, ?_, rfl⟩
  rw [(postRxBuffers_fresh ch e u ⟨bufRing, ring⟩ missing good).1]
  simp [armWrites, creditWrites]

theorem armed_phys (ch : Channels) (e : ArmEnv) (u : UnitRx)
    (rings : u.rxBufRingPtr ≠ 0 ∧ u.rxRingPtr ≠ 0)
    (missing : ∀ i < numRxBufs, u.rxBufs i = 0)
    (good : ∀ i < numRxBufs, (e.buf i).mapped = true) (i : Nat) (small : i < numRxBufs) :
    (armed ch e u).rx.rxBufsPhys i = (e.buf i).phys := by
  obtain ⟨call, filled⟩ := postRxBuffers_fresh ch e u rings missing good
  simp only [armed, call, (armRings_rxBufs _).2]
  exact (filled i small).2

theorem bufInv_start (ch : Channels) (s : RxSystem) (begun : FullyArmedStart ch s) :
    BufInv s := by
  have groups := groupInv_start ch s (fullyArmed_start ch s begun)
  obtain ⟨e, u, bufRing, ring, missing, good, apart, rfl⟩ := begun
  obtain ⟨call, filled⟩ := postRxBuffers_fresh ch e u ⟨bufRing, ring⟩ missing good
  have address := armed_phys ch e u ⟨bufRing, ring⟩ missing good
  have present : ∀ i < 512, (allocRxBufs e.buf numRxBufs 0 u 0).1.rxBufsPhys i ≠ 0#32 := by
    intro i small
    have mapped := good i small
    simp only [BufOutcome.mapped, Bool.and_eq_true, decide_eq_true_eq] at mapped
    rw [(filled i small).2]
    exact mapped.2
  refine ⟨groups, ?_, ?_, ?_, ?_, ?_, ?_, ?_, ?_, ?_, ?_⟩
  · simp only [armed, call, engine_armed]
    rfl
  · rfl
  · simp only [armed, call, engine_armed]
    rfl
  · simp only [armed, call]
    rfl
  · intro j low high
    have small : j < 512 := by simpa only [armed, Nat.zero_add] using high
    simp only [armed, call, (armRings_rxBufs _).2, Nat.mod_eq_of_lt small]
    rw [armRings_get _ j (by simp only [rxBufRingSize, rxRingSize]; omega),
      if_pos ⟨small, present j small⟩]
  · intro j low high
    have small : j < 512 := by simpa only [armed, Nat.zero_add] using high
    simp only [armed, call, Nat.mod_eq_of_lt small, Nat.mod_eq_of_lt (show j < 2048 by omega)]
    exact armRings_slotBuf _ j small (present j small)
  · intro slot outside
    have far : 512 ≤ slot % 2048 := by
      by_contra near
      exact outside (slot % 2048) (Nat.zero_le _) (by simp only [armed]; omega) (by omega)
    simp only [armed, call]
    rw [Ring.get_congr _ slot (slot % 2048) (by simp [rxBufRingSize, rxRingSize]),
      armRings_get _ _ (Nat.mod_lt slot (by decide)), if_neg]
    rintro ⟨near, _⟩
    simp only [numRxBufs, rxBufRingSize, rxRingSize] at near
    omega
  · intro j low high
    exact absurd high (Nat.not_lt_zero j)
  · intro j low high
    exact absurd high (Nat.not_lt_zero j)
  · intro i smallI j smallJ same
    rw [address i smallI, address j smallJ] at same
    exact apart i smallI j smallJ same

theorem bufInv_complete (s : RxSystem) (c : Completion) (inv : BufInv s)
    (allowed : bufConforms s c = true) (e : RxEngine)
    (moved : e.descPos = (s.engine.descPos + 4) % rxRingSize ∧
      e.bufPos = (s.engine.bufPos + 1) % rxBufRingSize ∧
      e.bufCredits = s.engine.bufCredits - 1) :
    BufInv { s with
      rx := { s.rx with rxRing := writeGroup s.rx.rxRing s.engine.descPos c }
      engine := e
      written := s.written + 1 } := by
  simp only [bufConforms, Bool.and_eq_true, decide_eq_true_eq] at allowed
  obtain ⟨⟨⟨ready, credits⟩, evalWord⟩, ptrWord⟩ := allowed
  have order := inv.order
  have credit := inv.credit
  have read := inv.read
  have room : s.written - s.cleaned < 512 := by omega
  have begins : s.engine.descPos % 2048 = 4 * s.written % 2048 := by rw [inv.position]; omega
  obtain ⟨evalAt, ptrAt⟩ := writeGroup_words s.rx.rxRing s.engine.descPos s.written c begins
  have posted : s.rx.rxBufRing.get s.engine.bufPos =
      rxbWord (s.rx.rxBufsPhys (s.written % 512)) := by
    rw [← inv.word s.written order (by omega), read]
    exact Ring.get_congr _ _ _ (by simp [rxBufRingSize, rxRingSize])
  refine ⟨groupInv_complete s c inv.toGroupInv ready room e moved.1, ?_, inv.counted, ?_,
    inv.write, inv.word, inv.entry, inv.unused, ?_, ?_, inv.distinct⟩
  · simp only [RxSystem.replenish] at credit ⊢
    omega
  · simp only [moved.2.1, read, rxBufRingSize, rxRingSize]
    omega
  · intro j low high
    by_cases newest : j = s.written
    · simp only [newest, evalAt, evalWord, read]
    · simp only at low high
      rw [writeGroup_other _ _ s.written _ _ begins (by omega)]
      exact inv.eval j low (by omega)
  · intro j low high
    by_cases newest : j = s.written
    · simp only [newest, ptrAt]
      rw [ptrPhys_of_field c.ptrWord _ ptrWord, posted, rxbWord_addr]
    · simp only at low high
      rw [writeGroup_other _ _ s.written _ _ begins (by omega)]
      exact inv.ptr j low (by omega)

theorem bufInv_enter (s : RxSystem) (inv : BufInv s) (outside : s.loop = none) :
    BufInv { s with loop := some (enterRing s.rx) } := by
  have credit := inv.credit
  simp only [RxSystem.replenish, outside] at credit
  exact
    { toGroupInv := groupInv_enter s inv.toGroupInv outside
      credit := by simpa only [RxSystem.replenish, enterRing] using credit
      counted := rfl
      read := inv.read
      write := inv.write
      word := inv.word
      entry := inv.entry
      unused := inv.unused
      eval := inv.eval
      ptr := inv.ptr
      distinct := inv.distinct }

theorem bufInv_fetched (s : RxSystem) (v : RxLoop) (g : RxGroup) (inv : BufInv s)
    (inside : s.loop = some v) (fetched : fetchGroup s.rx v.n = some g) :
    g.ringSlot = s.cleaned % 2048 ∧ g.actualBuf = s.cleaned % 512 := by
  have pending := groupInv_pending s v inv.toGroupInv (fetchGroup_owned s.rx v.n g fetched)
  have begins : v.n % 2048 = 4 * s.cleaned % 2048 := by
    simpa only [RxSystem.cursor, inside] using inv.cursor
  have eval : evalOf (s.rx.rxRing.get (v.n + 1)) = s.cleaned % 2048 + 1 := by
    rw [← inv.eval s.cleaned (Nat.le_refl _) pending]
    exact congrArg evalOf (Ring.get_congr _ _ _ (by simp only [rxRingSize]; omega))
  exact fetchGroup_buf s.rx v.n _ _ g fetched eval (Nat.mod_lt _ (by omega))
    (inv.entry s.cleaned (Nat.le_refl _) (by omega))

theorem bufInv_iterate (s : RxSystem) (v : RxLoop) (g : RxGroup) (inv : BufInv s)
    (inside : s.loop = some v) (fetched : fetchGroup s.rx v.n = some g) :
    BufInv { s with
      rx := (nextDesc s.rx v g).1
      loop := some (nextDesc s.rx v g).2
      cleaned := s.cleaned + 1 } := by
  have pending := groupInv_pending s v inv.toGroupInv (fetchGroup_owned s.rx v.n g fetched)
  have begins : v.n % 2048 = 4 * s.cleaned % 2048 := by
    simpa only [RxSystem.cursor, inside] using inv.cursor
  obtain ⟨slot, buffer⟩ := bufInv_fetched s v g inv inside fetched
  have known : g.actualBuf < numRxBufs := buffer ▸ Nat.mod_lt _ (by decide)
  have inRing : g.ringSlot < rxRingSize := slot ▸ Nat.mod_lt _ (by decide)
  obtain ⟨ring, entries, write, replenish⟩ := nextDesc_repost s.rx v g known inRing
  have addresses : (nextDesc s.rx v g).1.rxBufsPhys = s.rx.rxBufsPhys :=
    (nextDesc_rxBufs s.rx v g).2
  have count := (nextDesc_n s.rx v g).2
  have credit := inv.credit
  have counted := inv.counted
  have window := inv.window
  have cursor := inv.write
  simp only [RxSystem.replenish, RxSystem.count, inside] at credit counted
  refine ⟨groupInv_iterate s v g inv.toGroupInv inside fetched,
    ?_, ?_, ?_, ?_, ?_, ?_, ?_, ?_, ?_, ?_⟩
  · simp only [RxSystem.replenish, replenish]
    omega
  · simp only [RxSystem.replenish, RxSystem.count, replenish, count, counted]
  · exact inv.read
  · simp only [write, cursor, rxBufRingSize, rxRingSize]
    omega
  · -- The slot at the write cursor takes the buffer of the group just cleared.
    intro j low high
    simp only at low high
    rw [ring, addresses, Ring.get_set, Ring.get_set]
    simp only [rxBufRingSize, rxRingSize, slot, cursor, buffer]
    by_cases last : j = s.cleaned + 512
    · rw [if_pos (by omega), show j % 512 = s.cleaned % 512 by omega]
    · rw [if_neg (by omega), if_neg (by omega)]
      exact inv.word j (by omega) (by omega)
  · intro j low high
    simp only at low high
    simp only [entries, Function.update_apply, cursor, buffer]
    by_cases last : j = s.cleaned + 512
    · rw [if_pos (by omega)]
      omega
    · rw [if_neg (by omega)]
      exact inv.entry j (by omega) (by omega)
  · intro slot' outside
    simp only at outside
    rw [ring, Ring.get_set, Ring.get_set]
    simp only [rxBufRingSize, rxRingSize, slot, cursor]
    have last := outside (s.cleaned + 512) (by omega) (by omega)
    rw [if_neg (by omega)]
    split
    · rfl
    · rename_i apart
      refine inv.unused slot' fun j low high => ?_
      by_cases first : j = s.cleaned
      · subst first
        omega
      · exact outside j (by omega) (by omega)
  · intro j low high
    simp only at low high
    rw [nextDesc_group s.rx v g s.cleaned (4 * j + 1) begins, if_neg (by omega)]
    exact inv.eval j (by omega) high
  · intro j low high
    simp only at low high
    rw [nextDesc_group s.rx v g s.cleaned (4 * j + 2) begins, if_neg (by omega), addresses]
    exact inv.ptr j (by omega) high
  · rw [addresses]
    exact inv.distinct

theorem bufInv_leave (ch : Channels) (s : RxSystem) (v : RxLoop) (inv : BufInv s)
    (inside : s.loop = some v) :
    BufInv { s with
      rx := (leaveRing ch s.rx v).1
      loop := none
      engine := s.engine.writes ch (leaveRing ch s.rx v).2 } := by
  have credit := inv.credit
  have counted := inv.counted
  simp only [RxSystem.replenish, RxSystem.count, inside] at credit counted
  rw [engine_left ch s.engine s.rx v (by omega) (by omega)]
  exact
    { toGroupInv := groupInv_leave ch s v inv.toGroupInv inside _ rfl
      credit := by simp only [RxSystem.replenish]; omega
      counted := rfl
      read := inv.read
      write := inv.write
      word := inv.word
      entry := inv.entry
      unused := inv.unused
      eval := inv.eval
      ptr := inv.ptr
      distinct := inv.distinct }

theorem bufInv_step (ch : Channels) (s t : RxSystem) (a : RxAction) (inv : BufInv s)
    (stepped : rxStep ch bufConforms s a = some t) : BufInv t := by
  cases a with
  | complete c =>
      obtain ⟨allowed, rfl⟩ := complete_step ch bufConforms s t c stepped
      exact bufInv_complete s c inv allowed _ ⟨rfl, rfl, rfl⟩
  | enter =>
      obtain ⟨outside, rfl⟩ := enter_step ch bufConforms s t stepped
      exact bufInv_enter s inv outside
  | iterate =>
      obtain ⟨v, g, inside, fetched, rfl⟩ := iterate_step ch bufConforms s t stepped
      exact bufInv_iterate s v g inv inside fetched
  | leave =>
      obtain ⟨v, inside, _, rfl⟩ := leave_step ch bufConforms s t stepped
      exact bufInv_leave ch s v inv inside

theorem bufInv_reached (ch : Channels) (s : RxSystem) (reached : (bufMachine ch).Reached s) :
    BufInv s :=
  (bufMachine ch).invariant BufInv (bufInv_start ch) (fun s a t => bufInv_step ch s t a) s reached

/-- Among the last 512 postings buffer `b` has exactly one. -/
def turn (cleaned b : Nat) : Nat := cleaned + (b + 512 - cleaned % 512) % 512

theorem turn_spec (cleaned b j : Nat) (small : b < 512) (low : cleaned ≤ j)
    (high : j < cleaned + 512) : j % 512 = b ↔ j = turn cleaned b := by
  simp only [turn]
  omega

theorem ahead_iff (s : RxSystem) (inv : BufInv s) (slot : Nat) :
    s.Ahead slot ↔ ∃ j, s.written ≤ j ∧ j < s.cleaned + 512 ∧ slot = j % 2048 := by
  have read := inv.read
  have write := inv.write
  have order := inv.order
  have credit := inv.credit
  simp only [RxSystem.Ahead, InWindow, rxBufRingSize, rxRingSize, read, write]
  constructor
  · rintro ⟨small, within⟩
    exact ⟨s.written + (slot + 2048 - s.written % 2048) % 2048, by omega, by omega, by omega⟩
  · rintro ⟨j, low, high, rfl⟩
    constructor <;> omega

theorem posts_iff (s : RxSystem) (inv : BufInv s) (j b : Nat) (low : s.cleaned ≤ j)
    (high : j < s.cleaned + 512) : s.Posts (j % 2048) b ↔ j % 512 = b := by
  have word : s.rx.rxBufRing.get (j % 2048) = rxbWord (s.rx.rxBufsPhys (j % 512)) := by
    rw [← inv.word j low high]
    exact Ring.get_congr _ _ _ (by simp [rxBufRingSize, rxRingSize])
  simp only [RxSystem.Posts, word, inv.entry j low high]
  constructor
  · rintro ⟨_, same⟩
    exact same
  · rintro rfl
    exact ⟨rfl, rfl⟩

theorem consumed_iff (s : RxSystem) (inv : BufInv s) (j b : Nat) :
    s.Consumed j b ↔ s.cleaned ≤ j ∧ j < s.written ∧ j % 512 = b := by
  have credit := inv.credit
  constructor
  · rintro ⟨low, high, _, _, entry, _⟩
    rw [RxSystem.evalSlot, inv.eval j low high, Nat.add_sub_cancel,
      inv.entry j low (by omega)] at entry
    exact ⟨low, high, entry⟩
  · rintro ⟨low, high, rfl⟩
    have slot : s.evalSlot j = j % 2048 := by
      rw [RxSystem.evalSlot, inv.eval j low high, Nat.add_sub_cancel]
    refine ⟨low, high, ?_, ?_, ?_, inv.ptr j low high⟩
    · rw [inv.eval j low high]
      omega
    · rw [slot]
      exact Nat.mod_lt j (by decide)
    · rw [slot]
      exact inv.entry j low (by omega)

/-- A buffer whose posting was consumed is in that group, any other in the slot of its posting. -/
theorem inPlace_iff (s : RxSystem) (inv : BufInv s) (b : Nat) (small : b < 512)
    (place : Nat ⊕ Nat) :
    s.InPlace b place ↔
      place = if turn s.cleaned b < s.written then .inr (turn s.cleaned b)
        else .inl (turn s.cleaned b % 2048) := by
  have credit := inv.credit
  have order := inv.order
  have bounds : s.cleaned ≤ turn s.cleaned b ∧ turn s.cleaned b < s.cleaned + 512 := by
    simp only [turn]
    omega
  cases place with
  | inl slot =>
      simp only [RxSystem.InPlace, ahead_iff s inv slot]
      constructor
      · rintro ⟨⟨j, low, high, rfl⟩, posts⟩
        have same := (turn_spec s.cleaned b j small (by omega) high).mp
          ((posts_iff s inv j b (by omega) high).mp posts)
        rw [if_neg (by omega), same]
      · intro here
        split at here
        · cases here
        · obtain rfl := Sum.inl.inj here
          exact ⟨⟨_, by omega, bounds.2, rfl⟩, (posts_iff s inv _ b bounds.1 bounds.2).mpr
            ((turn_spec s.cleaned b _ small bounds.1 bounds.2).mpr rfl)⟩
  | inr j =>
      simp only [RxSystem.InPlace, consumed_iff s inv j b]
      constructor
      · rintro ⟨low, high, turned⟩
        have same := (turn_spec s.cleaned b j small low (by omega)).mp turned
        rw [if_pos (by omega), same]
      · intro here
        split at here
        · obtain rfl := Sum.inr.inj here
          exact ⟨bounds.1, by assumption,
            (turn_spec s.cleaned b _ small bounds.1 bounds.2).mpr rfl⟩
        · cases here

theorem oldestSlot_eq (s : RxSystem) (inv : BufInv s) : s.oldestSlot = s.cleaned % 2048 := by
  have order := inv.order
  simp only [RxSystem.oldestSlot]
  split
  · rename_i pending
    rw [RxSystem.evalSlot, inv.eval s.cleaned (Nat.le_refl _) pending, Nat.add_sub_cancel]
  · rw [inv.read]
    omega

/-- In every state reached each buffer is in exactly one place, each slot ahead of the engine and
each unprocessed group has a buffer, and the slots outside the range from the oldest unprocessed
slot to the write cursor are zero. -/
theorem buffers_circulate (ch : Channels) (s : RxSystem) (reached : (bufMachine ch).Reached s) :
    (∀ b < numRxBufs, ∃! place, s.InPlace b place) ∧
    (∀ slot, s.Ahead slot → ∃ b < numRxBufs, s.Posts slot b) ∧
    (∀ j, s.cleaned ≤ j → j < s.written → ∃ b < numRxBufs, s.Consumed j b) ∧
    (∀ slot < rxBufRingSize, ¬ InWindow rxBufRingSize s.oldestSlot s.rx.rxBufWritePtr slot →
      s.rx.rxBufRing.get slot = 0#64) := by
  have inv := bufInv_reached ch s reached
  have order := inv.order
  refine ⟨?_, ?_, ?_, ?_⟩
  · intro b small
    exact ⟨_, (inPlace_iff s inv b small _).mpr rfl,
      fun place here => (inPlace_iff s inv b small place).mp here⟩
  · intro slot ahead
    obtain ⟨j, low, high, rfl⟩ := (ahead_iff s inv slot).mp ahead
    exact ⟨j % 512, Nat.mod_lt j (by decide), (posts_iff s inv j _ (by omega) high).mpr rfl⟩
  · intro j low high
    exact ⟨j % 512, Nat.mod_lt j (by decide), (consumed_iff s inv j _).mpr ⟨low, high, rfl⟩⟩
  · intro slot small outside
    have write := inv.write
    refine inv.unused slot fun j low high same => outside ?_
    simp only [InWindow, oldestSlot_eq s inv, write, rxBufRingSize, rxRingSize] at small ⊢
    omega

theorem mappedEnv_phys (i : Nat) (small : i < numRxBufs) :
    ((mappedEnv numRxBufs).buf i).phys.toNat = 65536 + 2048 * i := by
  simp only [mappedEnv, if_pos small, BitVec.toNat_ofNat, rxBufSize]
  simp only [numRxBufs] at small
  omega

theorem mappedEnv_mapped (i : Nat) (small : i < numRxBufs) :
    ((mappedEnv numRxBufs).buf i).mapped = true := by
  have present : ((mappedEnv numRxBufs).buf i).phys ≠ 0#32 := by
    intro zero
    have value := mappedEnv_phys i small
    rw [zero, BitVec.toNat_zero] at value
    omega
  simp only [BufOutcome.mapped, Bool.and_eq_true, decide_eq_true_eq]
  exact ⟨by simp [mappedEnv, small], present⟩

theorem mappedEnv_start (ch : Channels) :
    FullyArmedStart ch (armed ch (mappedEnv numRxBufs) coldRx) := by
  refine ⟨mappedEnv numRxBufs, coldRx, by decide, by decide, fun _ _ => rfl,
    mappedEnv_mapped, ?_, rfl⟩
  intro i smallI j smallJ same
  have value := congrArg BitVec.toNat same
  rw [mappedEnv_phys i smallI, mappedEnv_phys j smallJ] at value
  omega

theorem bufMachine_completes (ch : Channels) (s : RxSystem) (c : Completion)
    (reached : (bufMachine ch).Reached s) (allowed : bufConforms s c = true) :
    ∃ t, (bufMachine ch).run s [.complete c] = some t ∧ (bufMachine ch).Reached t := by
  obtain ⟨t, stepped⟩ := complete_enabled ch bufConforms s c allowed
  have ran : (bufMachine ch).run s [.complete c] = some t := by
    simp only [Machine.run, bufMachine, stepped, Option.bind_some]
  exact ⟨t, ran, (bufMachine ch).run_reached s t _ reached ran⟩

/-- What a conforming engine writes for the buffer it reads from slot 0. -/
def firstCompletion : Completion := ⟨xctMacrxO, 0x1000000#64, 0x10000#64, 0#64⟩

theorem firstCompletion_conforms (s : RxSystem) (inv : BufInv s)
    (outset : s.written = 0 ∧ s.cleaned = 0 ∧ s.replenish = 0)
    (phys : s.rx.rxBufsPhys 0 = 0x10000#32) : bufConforms s firstCompletion = true := by
  have read : s.engine.bufPos = 0 := by rw [inv.read, outset.1]
  have word : s.rx.rxBufRing.get 0 = rxbWord 0x10000#32 := by
    have posted := inv.word 0 (by omega) (by omega)
    rwa [phys] at posted
  have credits : 1 ≤ s.engine.bufCredits := by
    have credit := inv.credit
    omega
  simp only [bufConforms, read, word, decide_eq_true credits]
  decide

/-- The first completion after a full arming, read from slot 0. -/
theorem buffers_circulate_first :
    ∃ s, (bufMachine ⟨0, 0, 0⟩).run (armed ⟨0, 0, 0⟩ (mappedEnv numRxBufs) coldRx)
        [.complete firstCompletion] = some s ∧
      (∀ b < numRxBufs, ∃! place, s.InPlace b place) ∧
      (∀ slot, s.Ahead slot → ∃ b < numRxBufs, s.Posts slot b) ∧
      (∀ j, s.cleaned ≤ j → j < s.written → ∃ b < numRxBufs, s.Consumed j b) ∧
      (∀ slot < rxBufRingSize, ¬ InWindow rxBufRingSize s.oldestSlot s.rx.rxBufWritePtr slot →
        s.rx.rxBufRing.get slot = 0#64) := by
  have begun := mappedEnv_start ⟨0, 0, 0⟩
  have phys := (armed_phys ⟨0, 0, 0⟩ (mappedEnv numRxBufs) coldRx (by decide) (fun _ _ => rfl)
    mappedEnv_mapped 0 (by decide)).trans (show _ = 0x10000#32 by decide)
  have conforms := firstCompletion_conforms _ (bufInv_start ⟨0, 0, 0⟩ _ begun)
    ⟨rfl, rfl, rfl⟩ phys
  obtain ⟨t, ran, reached⟩ := bufMachine_completes ⟨0, 0, 0⟩ _ firstCompletion
    (.start _ begun) conforms
  exact ⟨t, ran, buffers_circulate ⟨0, 0, 0⟩ t reached⟩

end Pa6tEth

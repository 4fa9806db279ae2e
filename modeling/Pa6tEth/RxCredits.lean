import Pa6tEth.RxEngine

/-! The descriptor ring: four-slot groups, two channel credits a group, one unmasked cursor. -/

namespace Pa6tEth

open Support

/-- The engine completes a frame into a group with the O bit, and only with two credits. -/
def chanConforms (s : RxSystem) (c : Completion) : Bool :=
  owned c.macrx && decide (2 ≤ s.engine.chanCredits)

def descMachine (ch : Channels) : Machine RxSystem RxAction where
  start := ArmedStart ch
  step := rxStep ch chanConforms

def RxSystem.Unprocessed (s : RxSystem) (slot : Nat) : Prop :=
  ∃ j, s.cleaned ≤ j ∧ j < s.written ∧ slot / 4 % 512 = j % 512

/-- Groups `cleaned` up to `written` are complete and not cleared; group `j` starts at slot
`4 * j` of the ring. -/
structure GroupInv (s : RxSystem) : Prop where
  order : s.cleaned ≤ s.written
  window : s.written - s.cleaned ≤ 512
  position : s.engine.descPos = 4 * s.written % 2048
  cursor : s.cursor % 2048 = 4 * s.cleaned % 2048
  reduced : s.loop = none → s.rx.rxNextClean < 2048
  ready : ∀ j, s.cleaned ≤ j → j < s.written → owned (s.rx.rxRing.get (4 * j)) = true
  clear : ∀ slot, ¬ s.Unprocessed slot → s.rx.rxRing.get slot = 0#64

structure DescInv (s : RxSystem) : Prop extends GroupInv s where
  credit : s.engine.chanCredits + 2 * (s.written - s.cleaned) + 2 * s.count = 1024
  fewer : s.replenish ≤ s.count

theorem group_of_slot (slot pos j k : Nat) (within : k < 4) (begins : pos % 2048 = 4 * j % 2048)
    (same : slot % 2048 = (pos + k) % 2048) : slot / 4 % 512 = j % 512 := by
  omega

theorem slot_of_group (slot pos j : Nat) (begins : pos % 2048 = 4 * j % 2048)
    (same : slot / 4 % 512 = j % 512) :
    slot % 2048 = (pos + 3) % 2048 ∨ slot % 2048 = (pos + 2) % 2048 ∨
      slot % 2048 = (pos + 1) % 2048 ∨ slot % 2048 = pos % 2048 := by
  omega

theorem writeGroup_get (ring : Ring rxRingSize Word) (pos : Nat) (c : Completion) (slot : Nat) :
    (writeGroup ring pos c).get slot =
      if slot % 2048 = (pos + 3) % 2048 then c.pad
      else if slot % 2048 = (pos + 2) % 2048 then c.ptrWord
      else if slot % 2048 = (pos + 1) % 2048 then c.evalWord
      else if slot % 2048 = pos % 2048 then c.macrx
      else ring.get slot := by
  simp only [writeGroup, Ring.get_set]

theorem writeGroup_other (ring : Ring rxRingSize Word) (pos j : Nat) (c : Completion) (slot : Nat)
    (begins : pos % 2048 = 4 * j % 2048) (apart : slot / 4 % 512 ≠ j % 512) :
    (writeGroup ring pos c).get slot = ring.get slot := by
  rw [writeGroup_get]
  split_ifs with third second first head
  · exact absurd (group_of_slot slot pos j 3 (by omega) begins third) apart
  · exact absurd (group_of_slot slot pos j 2 (by omega) begins second) apart
  · exact absurd (group_of_slot slot pos j 1 (by omega) begins first) apart
  · exact absurd (group_of_slot slot pos j 0 (by omega) begins (by simpa using head)) apart
  · rfl

theorem writeGroup_head (ring : Ring rxRingSize Word) (pos j : Nat) (c : Completion)
    (begins : pos % 2048 = 4 * j % 2048) : (writeGroup ring pos c).get (4 * j) = c.macrx := by
  rw [writeGroup_get, if_neg (by omega), if_neg (by omega), if_neg (by omega), if_pos begins.symm]

theorem nextDesc_group (u : UnitRx) (v : RxLoop) (g : RxGroup) (j slot : Nat)
    (begins : v.n % 2048 = 4 * j % 2048) :
    (nextDesc u v g).1.rxRing.get slot =
      if slot / 4 % 512 = j % 512 then 0#64 else u.rxRing.get slot := by
  rw [nextDesc_get]
  by_cases same : slot / 4 % 512 = j % 512
  · rw [if_pos same, if_pos (slot_of_group slot v.n j begins same)]
  · rw [if_neg same, if_neg]
    rintro (third | second | first | head)
    · exact same (group_of_slot slot v.n j 3 (by omega) begins third)
    · exact same (group_of_slot slot v.n j 2 (by omega) begins second)
    · exact same (group_of_slot slot v.n j 1 (by omega) begins first)
    · exact same (group_of_slot slot v.n j 0 (by omega) begins (by simpa using head))

theorem groupInv_start (ch : Channels) (s : RxSystem) (begun : ArmedStart ch s) : GroupInv s := by
  obtain ⟨env, u, writes, rfl⟩ := begun
  obtain ⟨rings, complete, _⟩ := postRxBuffers_armed ch env u writes
  simp only [armed, rings, complete, engine_armed]
  constructor
  · exact Nat.le_refl 0
  · exact Nat.zero_le 512
  · rfl
  · simp [RxSystem.cursor, (armRings_cursors _).1]
  · intro _
    simp [(armRings_cursors _).1]
  · intro j low high
    exact absurd high (Nat.not_lt_zero j)
  · intro slot _
    exact armRings_rxRing _ slot

theorem groupInv_complete (s : RxSystem) (c : Completion) (inv : GroupInv s)
    (ready : owned c.macrx = true) (room : s.written - s.cleaned < 512) (e : RxEngine)
    (position : e.descPos = (s.engine.descPos + 4) % rxRingSize) :
    GroupInv { s with
      rx := { s.rx with rxRing := writeGroup s.rx.rxRing s.engine.descPos c }
      engine := e
      written := s.written + 1 } := by
  have order := inv.order
  have begins : s.engine.descPos % 2048 = 4 * s.written % 2048 := by rw [inv.position]; omega
  constructor
  · exact Nat.le_succ_of_le order
  · simp only
    omega
  · have before := inv.position
    simp only [position, rxRingSize]
    omega
  · exact inv.cursor
  · exact inv.reduced
  · intro j low high
    by_cases newest : j = s.written
    · rw [newest, writeGroup_head _ _ _ _ begins]
      exact ready
    · simp only at low high
      rw [writeGroup_other _ _ s.written _ _ begins (by omega)]
      exact inv.ready j low (by omega)
  · intro slot outside
    have apart : slot / 4 % 512 ≠ s.written % 512 := fun same =>
      outside ⟨s.written, order, Nat.lt_succ_self _, same⟩
    rw [writeGroup_other _ _ s.written _ _ begins apart]
    refine inv.clear slot ?_
    rintro ⟨j, low, high, same⟩
    exact outside ⟨j, low, Nat.lt_succ_of_lt high, same⟩

theorem groupInv_enter (s : RxSystem) (inv : GroupInv s) (outside : s.loop = none) :
    GroupInv { s with loop := some (enterRing s.rx) } := by
  have cursor := inv.cursor
  simp only [RxSystem.cursor, outside] at cursor
  exact ⟨inv.order, inv.window, inv.position,
    by simpa only [RxSystem.cursor, enterRing] using cursor, (fun closed => by cases closed),
    inv.ready, inv.clear⟩

theorem groupInv_pending (s : RxSystem) (v : RxLoop) (inv : GroupInv s)
    (ready : owned (s.rx.rxRing.get v.n) = true) : s.cleaned < s.written := by
  by_contra finished
  have idle : s.rx.rxRing.get v.n = 0#64 := by
    apply inv.clear
    rintro ⟨j, low, high, _⟩
    omega
  rw [idle, owned_zero] at ready
  cases ready

theorem groupInv_iterate (s : RxSystem) (v : RxLoop) (g : RxGroup) (inv : GroupInv s)
    (inside : s.loop = some v) (fetched : fetchGroup s.rx v.n = some g) :
    GroupInv { s with
      rx := (nextDesc s.rx v g).1
      loop := some (nextDesc s.rx v g).2
      cleaned := s.cleaned + 1 } := by
  have pending := groupInv_pending s v inv (fetchGroup_owned s.rx v.n g fetched)
  have begins : v.n % 2048 = 4 * s.cleaned % 2048 := by
    simpa only [RxSystem.cursor, inside] using inv.cursor
  have window := inv.window
  obtain ⟨cursor, _⟩ := nextDesc_n s.rx v g
  constructor
  · exact pending
  · simp only
    omega
  · exact inv.position
  · simp only [RxSystem.cursor, cursor]
    omega
  · intro closed
    cases closed
  · intro j low high
    simp only at low high
    rw [nextDesc_group s.rx v g s.cleaned (4 * j) begins, if_neg (by omega)]
    exact inv.ready j (by omega) high
  · intro slot outside
    rw [nextDesc_group s.rx v g s.cleaned slot begins]
    split
    · rfl
    · rename_i apart
      refine inv.clear slot ?_
      rintro ⟨j, low, high, same⟩
      have later : j ≠ s.cleaned := fun first => apart (first ▸ same)
      exact outside ⟨j, Nat.lt_of_le_of_ne low (Ne.symm later), high, same⟩

theorem groupInv_leave (ch : Channels) (s : RxSystem) (v : RxLoop) (inv : GroupInv s)
    (inside : s.loop = some v) (e : RxEngine) (position : e.descPos = s.engine.descPos) :
    GroupInv { s with
      rx := (leaveRing ch s.rx v).1
      loop := none
      engine := e } := by
  have cursor := inv.cursor
  simp only [RxSystem.cursor, inside] at cursor
  constructor
  · exact inv.order
  · exact inv.window
  · rw [← inv.position]
    exact position
  · simp only [RxSystem.cursor, leaveRing, rxRingSize]
    split <;> omega
  · intro _
    simp only [leaveRing, rxRingSize]
    split <;> omega
  · exact inv.ready
  · exact inv.clear

theorem descInv_start (ch : Channels) (s : RxSystem) (begun : ArmedStart ch s) : DescInv s := by
  refine ⟨groupInv_start ch s begun, ?_, ?_⟩
  · obtain ⟨env, u, writes, rfl⟩ := begun
    simp only [armed, (postRxBuffers_armed ch env u writes).2.1, engine_armed]
    rfl
  · obtain ⟨env, u, _, rfl⟩ := begun
    exact Nat.le_refl 0

/-- Two credits leave at least one whole group of the ring to the engine. -/
theorem descInv_room (s : RxSystem) (inv : DescInv s) (credits : 2 ≤ s.engine.chanCredits) :
    s.written - s.cleaned < 512 := by
  have credit := inv.credit
  omega

theorem descInv_step (ch : Channels) (s t : RxSystem) (a : RxAction) (inv : DescInv s)
    (stepped : rxStep ch chanConforms s a = some t) : DescInv t := by
  have groups := inv.toGroupInv
  have order := inv.order
  have credit := inv.credit
  have fewer := inv.fewer
  cases a with
  | complete c =>
      obtain ⟨allowed, rfl⟩ := complete_step ch chanConforms s t c stepped
      simp only [chanConforms, Bool.and_eq_true, decide_eq_true_eq] at allowed
      have room := descInv_room s inv allowed.2
      refine ⟨groupInv_complete s c groups allowed.1 room _ rfl, ?_, fewer⟩
      simp only [RxSystem.count] at credit ⊢
      omega
  | enter =>
      obtain ⟨outside, rfl⟩ := enter_step ch chanConforms s t stepped
      simp only [RxSystem.count, outside] at credit
      exact ⟨groupInv_enter s groups outside, credit, Nat.le_refl 0⟩
  | iterate =>
      obtain ⟨v, g, inside, fetched, rfl⟩ := iterate_step ch chanConforms s t stepped
      have pending := groupInv_pending s v groups (fetchGroup_owned s.rx v.n g fetched)
      simp only [RxSystem.count, RxSystem.replenish, inside] at credit fewer
      refine ⟨groupInv_iterate s v g groups inside fetched, ?_, ?_⟩
      · simp only [RxSystem.count, (nextDesc_n s.rx v g).2]
        omega
      · simp only [RxSystem.replenish, RxSystem.count, nextDesc]
        split <;> simp only <;> omega
  | leave =>
      obtain ⟨v, inside, _, rfl⟩ := leave_step ch chanConforms s t stepped
      simp only [RxSystem.count, RxSystem.replenish, inside] at credit fewer
      rw [engine_left ch s.engine s.rx v (by omega) fewer]
      refine ⟨groupInv_leave ch s v groups inside _ rfl, ?_, Nat.le_refl 0⟩
      simp only [RxSystem.count]
      omega

theorem descInv_reached (ch : Channels) (s : RxSystem) (reached : (descMachine ch).Reached s) :
    DescInv s :=
  (descMachine ch).invariant DescInv (descInv_start ch) (fun s a t => descInv_step ch s t a) s
    reached

/-- In every state reached: an engine with two credits finds its next group cleared; outside
`ProcessRX` the cursor is a group start, behind the engine by the unprocessed groups; all other
slots are zero; and credits and unprocessed groups add up to half the ring. -/
theorem desc_ring_credits (ch : Channels) (s : RxSystem)
    (reached : (descMachine ch).Reached s) :
    (2 ≤ s.engine.chanCredits →
      ∀ k < 4, ¬ s.Unprocessed (s.engine.descPos + k) ∧
        s.rx.rxRing.get (s.engine.descPos + k) = 0#64) ∧
    (∀ slot, ¬ s.Unprocessed slot → s.rx.rxRing.get slot = 0#64) ∧
    (s.loop = none →
      s.rx.rxNextClean % 4 = 0 ∧ s.rx.rxNextClean < rxRingSize ∧
      (s.rx.rxNextClean + 4 * s.unprocessed) % rxRingSize = s.engine.descPos ∧
      s.engine.chanCredits + 2 * s.unprocessed = rxRingSize / 2) := by
  have inv := descInv_reached ch s reached
  refine ⟨?_, inv.clear, ?_⟩
  · intro credits k within
    have room := descInv_room s inv credits
    have free : ¬ s.Unprocessed (s.engine.descPos + k) := by
      rintro ⟨j, low, high, same⟩
      have position := inv.position
      omega
    exact ⟨free, inv.clear _ free⟩
  · intro outside
    have reduced := inv.reduced outside
    have cursor := inv.cursor
    have credit := inv.credit
    have position := inv.position
    have order := inv.order
    simp only [RxSystem.cursor, RxSystem.count, outside] at cursor credit
    simp only [rxRingSize, RxSystem.unprocessed]
    refine ⟨?_, ?_, ?_, ?_⟩ <;> omega

/-- One completion into a ring armed with a single buffer, a pass over it, and another one. -/
theorem desc_ring_credits_batch :
    ∃ s, (descMachine ⟨0, 0, 0⟩).run (armed ⟨0, 0, 0⟩ (mappedEnv 1) coldRx)
        [.complete ⟨xctMacrxO, 0#64, 0#64, 0#64⟩, .enter, .iterate, .leave,
          .complete ⟨xctMacrxO, 0#64, 0#64, 0#64⟩] = some s ∧
      s.loop = none ∧ s.unprocessed = 1 ∧
      s.rx.rxNextClean % 4 = 0 ∧ s.rx.rxNextClean < rxRingSize ∧
      (s.rx.rxNextClean + 4 * s.unprocessed) % rxRingSize = s.engine.descPos ∧
      s.engine.chanCredits + 2 * s.unprocessed = rxRingSize / 2 := by
  have writes : (postRxBuffers ⟨0, 0, 0⟩ (mappedEnv 1) coldRx).2 ≠ [] := by decide +kernel
  have ran : ((descMachine ⟨0, 0, 0⟩).run (armed ⟨0, 0, 0⟩ (mappedEnv 1) coldRx)
      [.complete ⟨xctMacrxO, 0#64, 0#64, 0#64⟩, .enter, .iterate, .leave,
        .complete ⟨xctMacrxO, 0#64, 0#64, 0#64⟩]).map
      (fun s => (s.loop, s.unprocessed)) = some (none, 1) := by
    decide +kernel
  obtain ⟨s, ends, shape⟩ := Option.map_eq_some_iff.mp ran
  obtain ⟨outside, one⟩ := Prod.mk.inj shape
  have reached := (descMachine ⟨0, 0, 0⟩).run_reached _ _ _
    (.start _ ⟨mappedEnv 1, coldRx, writes, rfl⟩) ends
  exact ⟨s, ends, outside, one, (desc_ring_credits ⟨0, 0, 0⟩ s reached).2.2 outside⟩

end Pa6tEth

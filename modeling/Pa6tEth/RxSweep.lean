import Pa6tEth.Wakeup
import Pa6tEth.Support.Loop

/-! One whole call of `PA6TEth_ProcessRX`, with the indices it uses, on a ring that the device
leaves alone. -/

namespace Pa6tEth

open Support World

/-- One index into an array of `PA6TEthUnit`. -/
inductive Access
  | rxRing (index : Nat)
  | rxBufRing (index : Nat)
  | rxSlotBuf (index : Nat)
  | rxBufs (index : Nat)
  | rxBufsPhys (index : Nat)
  deriving DecidableEq, Repr

namespace Access

def rxDesc (n : Nat) : Access := .rxRing (n % rxRingSize)

def rxBuff (n : Nat) : Access := .rxBufRing (n % rxBufRingSize)

def InRange : Access → Prop
  | rxRing index => index < rxRingSize
  | rxBufRing index => index < rxBufRingSize
  | rxSlotBuf index => index < rxRingSize
  | rxBufs index => index < numRxBufs
  | rxBufsPhys index => index < numRxBufs

end Access

structure RxCall where
  world : World
  loop : RxLoop
  accesses : List Access

/-- The indices of the loop head; without the O bit the loop breaks after the first. -/
def headAccesses (u : UnitRx) (n : Nat) : List Access :=
  match fetchGroup u n with
  | none => [.rxDesc n]
  | some g =>
      [.rxDesc n, .rxDesc (n + 1), .rxDesc (n + 2)] ++
        if g.ringSlot < rxRingSize then [.rxSlotBuf g.ringSlot] else []

def checkAccesses (u : UnitRx) (g : RxGroup) : List Access :=
  if g.macrx &&& xctMacrxCrc ≠ 0#64 then []
  else if rxRingSize ≤ g.ringSlot then []
  else if numRxBufs ≤ g.actualBuf then []
  else if u.rxBufs g.actualBuf = 0 then [.rxBufs g.actualBuf]
  else if llenOf g.macrx < 4#32 then [.rxBufs g.actualBuf]
  else if llenOf g.macrx - 4#32 < ethHdrLen then [.rxBufs g.actualBuf]
  else [.rxBufs g.actualBuf, .rxBufs g.actualBuf, .rxBufsPhys g.actualBuf]

def nextAccesses (u : UnitRx) (v : RxLoop) (g : RxGroup) : List Access :=
  [.rxDesc v.n, .rxDesc (v.n + 1), .rxDesc (v.n + 2), .rxDesc (v.n + 3)] ++
    (if g.ringSlot < rxRingSize then [.rxBuff g.ringSlot] else []) ++
    if g.actualBuf < numRxBufs then
      [.rxBuff u.rxBufWritePtr, .rxBufsPhys g.actualBuf, .rxSlotBuf u.rxBufWritePtr]
    else []

def SameAt (u v : UnitRx) : Access → Prop
  | .rxRing index => u.rxRing.get index = v.rxRing.get index
  | .rxBufRing index => u.rxBufRing.get index = v.rxBufRing.get index
  | .rxSlotBuf index => u.rxSlotBuf index = v.rxSlotBuf index
  | .rxBufs index => u.rxBufs index = v.rxBufs index
  | .rxBufsPhys index => u.rxBufsPhys index = v.rxBufsPhys index

theorem sameAt_desc (u v : UnitRx) (n : Nat) (same : SameAt u v (.rxDesc n)) :
    u.rxRing.get n = v.rxRing.get n := by
  have reduced : n % rxRingSize % rxRingSize = n % rxRingSize := Nat.mod_mod n rxRingSize
  calc
    u.rxRing.get n = u.rxRing.get (n % rxRingSize) := Ring.get_congr _ _ _ reduced.symm
    _ = v.rxRing.get (n % rxRingSize) := same
    _ = v.rxRing.get n := Ring.get_congr _ _ _ reduced

/-- The loop head depends on nothing but what it lists. -/
theorem fetchGroup_reads (u v : UnitRx) (n : Nat)
    (same : ∀ a ∈ headAccesses u n, SameAt u v a) : fetchGroup u n = fetchGroup v n := by
  cases owns : owned (u.rxRing.get n) with
  | false =>
      have idle := (fetchGroup_none u n).mpr owns
      simp only [headAccesses, idle] at same
      have word := sameAt_desc u v n (same _ List.mem_cons_self)
      rw [idle, (fetchGroup_none v n).mpr (word ▸ owns)]
  | true =>
      obtain ⟨g, fetched⟩ : ∃ g, fetchGroup u n = some g := by
        simp only [fetchGroup, owns, if_true, Option.some.injEq, exists_eq']
      simp only [headAccesses, fetched, List.mem_append] at same
      have word := sameAt_desc u v n (same _ (.inl (by simp)))
      have second := sameAt_desc u v (n + 1) (same _ (.inl (by simp)))
      have third := sameAt_desc u v (n + 2) (same _ (.inl (by simp)))
      have entry : g.ringSlot < rxRingSize → u.rxSlotBuf g.ringSlot = v.rxSlotBuf g.ringSlot :=
        fun inside => same (.rxSlotBuf g.ringSlot) (.inr (by simp [inside]))
      have slot : g.ringSlot = if evalOf (u.rxRing.get (n + 1)) > 0 then
          evalOf (u.rxRing.get (n + 1)) - 1 else rxRingSize := by
        simp only [fetchGroup, owns, if_true, Option.some.injEq] at fetched
        rw [← fetched]
      simp only [fetchGroup, owns, ← word, ← second, ← third, if_true, Option.some.injEq,
        RxGroup.mk.injEq, true_and]
      rw [← slot]
      split
      · rename_i inside
        exact entry inside
      · rfl

theorem checkGroup_reads (u v : UnitRx) (g : RxGroup)
    (same : ∀ a ∈ checkAccesses u g, SameAt u v a) : checkGroup u g = checkGroup v g := by
  simp only [checkAccesses] at same
  by_cases crc : g.macrx &&& xctMacrxCrc ≠ 0#64
  · simp only [checkGroup, if_pos crc]
  by_cases slot : rxRingSize ≤ g.ringSlot
  · simp only [checkGroup, if_neg crc, if_pos slot]
  by_cases buffer : numRxBufs ≤ g.actualBuf
  · simp only [checkGroup, if_neg crc, if_neg slot, buffer, true_or, if_true]
  simp only [if_neg crc, if_neg slot, if_neg buffer] at same
  have pointer : u.rxBufs g.actualBuf = v.rxBufs g.actualBuf := by
    apply same (.rxBufs g.actualBuf)
    split_ifs <;> exact List.mem_cons_self
  simp only [checkGroup, if_neg crc, if_neg slot, ← pointer]
  by_cases missing : u.rxBufs g.actualBuf = 0
  · simp only [missing, or_true, if_true]
  by_cases short : llenOf g.macrx < 4#32
  · simp only [short, if_true]
  by_cases truncated : llenOf g.macrx - 4#32 < ethHdrLen
  · simp only [truncated, if_true]
  simp only [if_neg missing, if_neg short, if_neg truncated] at same
  have address : u.rxBufsPhys g.actualBuf = v.rxBufsPhys g.actualBuf :=
    same (.rxBufsPhys g.actualBuf) (by simp)
  rw [address]

theorem nextDesc_writes (u : UnitRx) (v : RxLoop) (g : RxGroup) (a : Access) (inside : a.InRange)
    (apart : a ∉ nextAccesses u v g) : SameAt (nextDesc u v g).1 u a := by
  simp only [nextAccesses, List.mem_append, not_or] at apart
  obtain ⟨⟨words, slot⟩, posted⟩ := apart
  cases a with
  | rxRing index =>
      have small : index % rxRingSize = index := Nat.mod_eq_of_lt inside
      simp only [List.mem_cons, List.not_mem_nil, or_false, Access.rxDesc, Access.rxRing.injEq,
        not_or] at words
      obtain ⟨first, second, third, fourth⟩ := words
      rw [← small] at first second third fourth
      simp only [SameAt, nextDesc_rxRing]
      rw [Ring.get_set_other _ _ _ _ fourth, Ring.get_set_other _ _ _ _ third,
        Ring.get_set_other _ _ _ _ second, Ring.get_set_other _ _ _ _ first]
  | rxBufRing index =>
      have small : index % rxBufRingSize = index := Nat.mod_eq_of_lt inside
      have cleared : ((if g.ringSlot < rxRingSize then u.rxBufRing.set g.ringSlot 0#64
          else u.rxBufRing).get index) = u.rxBufRing.get index := by
        split
        · rename_i known
          simp only [if_pos known, List.mem_singleton, Access.rxBuff, Access.rxBufRing.injEq] at slot
          rw [← small] at slot
          exact Ring.get_set_other _ _ _ _ slot
        · rfl
      simp only [SameAt, nextDesc]
      split
      · rename_i known
        simp only [if_pos known, List.mem_cons, List.not_mem_nil, or_false, not_or, Access.rxBuff,
          Access.rxBufRing.injEq] at posted
        rw [← small] at posted
        exact (Ring.get_set_other _ _ _ _ posted.1).trans cleared
      · exact cleared
  | rxSlotBuf index =>
      simp only [SameAt, nextDesc]
      split
      · rename_i known
        simp only [if_pos known, List.mem_cons, List.not_mem_nil, or_false, not_or,
          Access.rxSlotBuf.injEq] at posted
        exact Function.update_of_ne posted.2.2 _ _
      · rfl
  | rxBufs index => simp only [SameAt, nextDesc_rxBufs]
  | rxBufsPhys index => simp only [SameAt, nextDesc_rxBufs]

/-- The delivery after the section under `Forbid`, when the frame found a reader. -/
def afterForbid (hookOk : Bool) : World × TaskPc → World
  | (w, .rxDeliver _ _ f r orphan) =>
      let done := deliver orphan hookOk w.unit w.mem r f (w.reqs r)
      w.replyMsg r done.1 (.processRX done.2)
  | (w, _) => w

/-- One turn of the loop; `hook` answers the `CopyToBuff` call of each turn. -/
def rxTurn (ch : Channels) (hook : Nat → Bool) (s : RxCall) : RxCall ⊕ RxCall :=
  let u := s.world.unit.rx
  let body := rxBody ch s.world s.loop
  match fetchGroup u s.loop.n with
  | none => .inr ⟨body.1, s.loop, s.accesses ++ headAccesses u s.loop.n⟩
  | some g =>
      let w := afterForbid (hook s.loop.count) body
      .inl ⟨{ w with unit := { w.unit with rx := (nextDesc w.unit.rx s.loop g).1 } },
        (nextDesc w.unit.rx s.loop g).2,
        s.accesses ++ headAccesses u s.loop.n ++ checkAccesses u g ++
          nextAccesses w.unit.rx s.loop g⟩

/-- `PA6TEth_ProcessRX`, which returns at once without its rings. -/
def processRX (ch : Channels) (hook : Nat → Bool) (fuel : Nat) (w : World) : Option RxCall :=
  if w.unit.rx.rxRingPtr = 0 ∨ w.unit.rx.rxBufRingPtr = 0 then some ⟨w, ⟨0, 0, 0⟩, []⟩
  else forever (rxTurn ch hook) fuel ⟨w, enterRing w.unit.rx, []⟩

/-- The bounds of the cursors and of the entries of `rx_slot_buf`. -/
structure RxBounds (u : UnitRx) : Prop where
  aligned : u.rxNextClean % 4 = 0
  inside : u.rxNextClean < rxRingSize
  entries : ∀ slot < rxRingSize, u.rxSlotBuf slot < numRxBufs
  writePtr : u.rxBufWritePtr < rxBufRingSize

/-- The slot is in one of the first `count` groups from `rx_next_clean` on. -/
def Visited (u : UnitRx) (count slot : Nat) : Prop :=
  ∃ k < 4 * count, slot % rxRingSize = (u.rxNextClean + k) % rxRingSize

/-- What a call that found the world `w` leaves. -/
structure Swept (ch : Channels) (w : World) (done : RxCall) : Prop where
  few : done.loop.count ≤ 512
  cursor : done.loop.n = w.unit.rx.rxNextClean + 4 * done.loop.count
  used : ∀ a ∈ done.accesses, a.InRange
  bounds : RxBounds done.world.unit.rx
  idle : owned (done.world.unit.rx.rxRing.get done.world.unit.rx.rxNextClean) = false
  cleared : ∀ slot, Visited w.unit.rx done.loop.count slot →
    done.world.unit.rx.rxRing.get slot = 0#64
  others : ∀ slot, ¬ Visited w.unit.rx done.loop.count slot →
    done.world.unit.rx.rxRing.get slot = w.unit.rx.rxRing.get slot
  regs : done.world.regs = w.regs ++
    if done.loop.count = 0 then []
    else
      [⟨.iobPkthdrcnt, 0#32⟩,
       ⟨.rxchanIncr ch.rxChannelNum, BitVec.ofNat 32 (2 * done.loop.count)⟩,
       ⟨.rxintIncr ch.dmaIf, BitVec.ofNat 32 done.loop.replenish⟩]
  credits : ∃ new, done.world.regs = w.regs ++ new ∧ ∀ e : RxEngine, e.writes ch new =
    { e with
      chanCredits := e.chanCredits + 2 * done.loop.count
      bufCredits := e.bufCredits + done.loop.replenish }

def taskMachine (ch : Channels) : Machine (World × TaskPc) TaskEnv where
  start := fun _ => True
  step := fun s e => taskStep ch e s.1 s.2

theorem turn_goes (ch : Channels) (hook : Nat → Bool) (s next : RxCall)
    (goes : rxTurn ch hook s = .inl next) :
    ∃ g w, fetchGroup s.world.unit.rx s.loop.n = some g ∧
      w = afterForbid (hook s.loop.count) (rxBody ch s.world s.loop) ∧
      next = ⟨{ w with unit := { w.unit with rx := (nextDesc w.unit.rx s.loop g).1 } },
        (nextDesc w.unit.rx s.loop g).2,
        s.accesses ++ headAccesses s.world.unit.rx s.loop.n ++
          checkAccesses s.world.unit.rx g ++ nextAccesses w.unit.rx s.loop g⟩ := by
  simp only [rxTurn] at goes
  split at goes
  · cases goes
  · rename_i g fetched
    exact ⟨g, _, fetched, rfl, (Sum.inl.inj goes).symm⟩

theorem turn_leaves (ch : Channels) (hook : Nat → Bool) (s done : RxCall)
    (leaves : rxTurn ch hook s = .inr done) :
    fetchGroup s.world.unit.rx s.loop.n = none ∧
      done = ⟨(rxBody ch s.world s.loop).1, s.loop,
        s.accesses ++ headAccesses s.world.unit.rx s.loop.n⟩ := by
  simp only [rxTurn] at leaves
  split at leaves
  · rename_i idle
    exact ⟨idle, (Sum.inr.inj leaves).symm⟩
  · cases leaves

theorem rxBody_group (ch : Channels) (w : World) (v : RxLoop) (g : RxGroup)
    (fetched : fetchGroup w.unit.rx v.n = some g) :
    (∃ x f r orphan, rxBody ch w v = (x, .rxDeliver v g f r orphan) ∧ Still w x) ∨
      ∃ x, rxBody ch w v = (x, .rxNext v g) ∧ Still w x := by
  simp only [rxBody, fetched]
  split
  · exact .inr ⟨_, rfl, rfl, rfl, rfl⟩
  · rename_i frameLen _
    have still := offer_still w v g (frameOf w.mem w.unit.rx g frameLen)
    revert still
    simp only [offerFrame]
    split <;> intro still
    · exact .inl ⟨_, _, _, _, rfl, still⟩
    · exact .inl ⟨_, _, _, _, rfl, still⟩
    · exact .inr ⟨_, rfl, still⟩

theorem rxBody_idle (ch : Channels) (w : World) (v : RxLoop)
    (idle : fetchGroup w.unit.rx v.n = none) :
    rxBody ch w v =
      ({ w with
        unit := { w.unit with rx := (leaveRing ch w.unit.rx v).1 }
        regs := w.regs ++ (leaveRing ch w.unit.rx v).2 }, .loopHead) := by
  simp only [rxBody, idle]

theorem afterForbid_still (hookOk : Bool) (ch : Channels) (w : World) (v : RxLoop) (g : RxGroup)
    (fetched : fetchGroup w.unit.rx v.n = some g) :
    Still w (afterForbid hookOk (rxBody ch w v)) := by
  rcases rxBody_group ch w v g fetched with ⟨x, f, r, orphan, body, still⟩ | ⟨x, body, still⟩
  · rw [body]
    exact still
  · rw [body]
    exact still

theorem turn_steps (ch : Channels) (hook : Nat → Bool) (arm : ArmEnv) (s next : RxCall)
    (goes : rxTurn ch hook s = .inl next) :
    ∃ answers, (taskMachine ch).run (s.world, .rxLoop s.loop) answers =
      some (next.world, .rxLoop next.loop) := by
  obtain ⟨g, w, fetched, rfl, rfl⟩ := turn_goes ch hook s next goes
  rcases rxBody_group ch s.world s.loop g fetched with
    ⟨x, f, r, orphan, body, _⟩ | ⟨x, body, _⟩
  · refine ⟨List.replicate 3 ⟨arm, hook s.loop.count⟩, ?_⟩
    simp only [Machine.run, taskMachine, taskStep, body, afterForbid, List.replicate,
      Option.bind_some]
  · refine ⟨List.replicate 2 ⟨arm, hook s.loop.count⟩, ?_⟩
    simp only [Machine.run, taskMachine, taskStep, body, afterForbid, List.replicate,
      Option.bind_some]

theorem processRX_task (ch : Channels) (hook : Nat → Bool) (arm : ArmEnv) (fuel : Nat) (w : World)
    (done : RxCall) (online : w.unit.online = true)
    (finished : processRX ch hook fuel w = some done) :
    ∃ answers, (taskMachine ch).run (w, .rxStart) answers = some (done.world, .loopHead) := by
  simp only [processRX] at finished
  split at finished
  · rename_i missing
    obtain rfl := Option.some.inj finished
    refine ⟨[⟨arm, false⟩], ?_⟩
    rcases missing with missing | missing <;>
      simp [Machine.run, taskMachine, taskStep, missing]
  · rename_i present
    push Not at present
    obtain ⟨answers, runs⟩ := forever_run (taskMachine ch) (rxTurn ch hook)
      (fun s => (s.world, .rxLoop s.loop)) (fun s => (s.world, .loopHead))
      (turn_steps ch hook arm)
      (fun s last leaves => by
        obtain ⟨idle, rfl⟩ := turn_leaves ch hook s last leaves
        refine ⟨[⟨arm, false⟩], ?_⟩
        simp only [Machine.run, taskMachine, taskStep, rxBody_idle ch s.world s.loop idle,
          Option.bind_some])
      fuel _ done finished
    refine ⟨⟨arm, false⟩ :: answers, ?_⟩
    rw [Machine.run]
    have begins : (taskMachine ch).step (w, .rxStart) ⟨arm, false⟩ =
        some (w, .rxLoop (enterRing w.unit.rx)) := by
      simp [taskMachine, taskStep, online, present.1, present.2]
    rw [begins, Option.bind_some, runs]

theorem headAccesses_used (u : UnitRx) (n : Nat) : ∀ a ∈ headAccesses u n, a.InRange := by
  have desc : ∀ k, (Access.rxDesc k).InRange := fun k => Nat.mod_lt k (by decide)
  intro a member
  simp only [headAccesses] at member
  split at member
  · rw [List.mem_singleton.mp member]
    exact desc n
  · rename_i g _
    rcases List.mem_append.mp member with word | entry
    · simp only [List.mem_cons, List.not_mem_nil, or_false] at word
      rcases word with rfl | rfl | rfl <;> exact desc _
    · split at entry
      · rename_i slot
        rw [List.mem_singleton.mp entry]
        exact slot
      · cases entry

theorem checkAccesses_used (u : UnitRx) (g : RxGroup) : ∀ a ∈ checkAccesses u g, a.InRange := by
  intro a member
  simp only [checkAccesses] at member
  split at member
  · cases member
  · split at member
    · cases member
    · split at member
      · cases member
      · rename_i buffer
        have known : g.actualBuf < numRxBufs := Nat.lt_of_not_le buffer
        have names : a = .rxBufs g.actualBuf ∨ a = .rxBufsPhys g.actualBuf := by
          split_ifs at member <;> simp only [List.mem_cons, List.not_mem_nil, or_false] at member <;>
            tauto
        rcases names with rfl | rfl <;> exact known

theorem nextAccesses_used (u : UnitRx) (v : RxLoop) (g : RxGroup)
    (writePtr : u.rxBufWritePtr < rxBufRingSize) : ∀ a ∈ nextAccesses u v g, a.InRange := by
  have desc : ∀ k, (Access.rxDesc k).InRange := fun k => Nat.mod_lt k (by decide)
  have buff : ∀ k, (Access.rxBuff k).InRange := fun k => Nat.mod_lt k (by decide)
  intro a member
  simp only [nextAccesses, List.mem_append] at member
  rcases member with (word | slot) | posted
  · simp only [List.mem_cons, List.not_mem_nil, or_false] at word
    rcases word with rfl | rfl | rfl | rfl <;> exact desc _
  · split at slot
    · rw [List.mem_singleton.mp slot]
      exact buff _
    · cases slot
  · split at posted
    · rename_i known
      simp only [List.mem_cons, List.not_mem_nil, or_false] at posted
      rcases posted with rfl | rfl | rfl
      · exact buff _
      · exact known
      · exact writePtr
    · cases posted

/-- At the loop head, `w` being the world that the call found. -/
structure Sweeping (w : World) (s : RxCall) : Prop where
  cursor : s.loop.n = w.unit.rx.rxNextClean + 4 * s.loop.count
  few : s.loop.count ≤ 512
  fewer : s.loop.replenish ≤ s.loop.count
  used : ∀ a ∈ s.accesses, a.InRange
  entries : ∀ slot < rxRingSize, s.world.unit.rx.rxSlotBuf slot < numRxBufs
  writePtr : s.world.unit.rx.rxBufWritePtr < rxBufRingSize
  cleared : ∀ slot, Visited w.unit.rx s.loop.count slot → s.world.unit.rx.rxRing.get slot = 0#64
  others : ∀ slot, ¬ Visited w.unit.rx s.loop.count slot →
    s.world.unit.rx.rxRing.get slot = w.unit.rx.rxRing.get slot
  regs : s.world.regs = w.regs

theorem uncounted_fields (u v : UnitRx) (same : uncounted v = uncounted u) :
    v.rxRing = u.rxRing ∧ v.rxSlotBuf = u.rxSlotBuf ∧ v.rxBufWritePtr = u.rxBufWritePtr := by
  have ring : (uncounted v).rxRing = (uncounted u).rxRing := by rw [same]
  have slots : (uncounted v).rxSlotBuf = (uncounted u).rxSlotBuf := by rw [same]
  have write : (uncounted v).rxBufWritePtr = (uncounted u).rxBufWritePtr := by rw [same]
  exact ⟨ring, slots, write⟩

theorem nextDesc_bounds (u : UnitRx) (v : RxLoop) (g : RxGroup)
    (entries : ∀ slot < rxRingSize, u.rxSlotBuf slot < numRxBufs)
    (writePtr : u.rxBufWritePtr < rxBufRingSize) :
    (∀ slot < rxRingSize, (nextDesc u v g).1.rxSlotBuf slot < numRxBufs) ∧
      (nextDesc u v g).1.rxBufWritePtr < rxBufRingSize ∧
      (nextDesc u v g).2.replenish ≤ v.replenish + 1 := by
  simp only [nextDesc]
  split
  · rename_i known
    refine ⟨fun slot inside => ?_, Nat.mod_lt _ (by decide), Nat.le_refl _⟩
    simp only [Function.update_apply]
    split
    · exact Nat.lt_of_le_of_lt (Nat.mod_le _ _) known
    · exact entries slot inside
  · exact ⟨entries, writePtr, Nat.le_succ _⟩

theorem visited_next (u : UnitRx) (n count slot : Nat) (cursor : n = u.rxNextClean + 4 * count) :
    Visited u (count + 1) slot ↔ Visited u count slot ∨
      (slot % 2048 = (n + 3) % 2048 ∨ slot % 2048 = (n + 2) % 2048 ∨
        slot % 2048 = (n + 1) % 2048 ∨ slot % 2048 = n % 2048) := by
  simp only [Visited, rxRingSize]
  constructor
  · rintro ⟨k, small, same⟩
    by_cases earlier : k < 4 * count
    · exact .inl ⟨k, earlier, same⟩
    · exact .inr (by omega)
  · rintro (⟨k, small, same⟩ | third | second | first | head)
    · exact ⟨k, by omega, same⟩
    · exact ⟨4 * count + 3, by omega, by omega⟩
    · exact ⟨4 * count + 2, by omega, by omega⟩
    · exact ⟨4 * count + 1, by omega, by omega⟩
    · exact ⟨4 * count, by omega, by omega⟩

/-- After 512 groups the cursor is back at the first, which is cleared. -/
theorem sweeping_room (w : World) (s : RxCall) (inv : Sweeping w s)
    (ready : owned (s.world.unit.rx.rxRing.get s.loop.n) = true) : s.loop.count < 512 := by
  by_contra full
  have few := inv.few
  have cursor := inv.cursor
  have first : Visited w.unit.rx s.loop.count s.loop.n := by
    refine ⟨0, by omega, ?_⟩
    simp only [rxRingSize]
    omega
  rw [inv.cleared s.loop.n first, owned_zero] at ready
  cases ready

theorem sweeping_turn (ch : Channels) (hook : Nat → Bool) (w : World) (s next : RxCall)
    (inv : Sweeping w s) (goes : rxTurn ch hook s = .inl next) :
    Sweeping w next ∧ 512 - next.loop.count < 512 - s.loop.count := by
  obtain ⟨g, x, fetched, body, rfl⟩ := turn_goes ch hook s next goes
  have still := afterForbid_still (hook s.loop.count) ch s.world s.loop g fetched
  rw [← body] at still
  obtain ⟨rx, _, regs⟩ := still
  obtain ⟨ring, slots, write⟩ := uncounted_fields _ _ rx
  have room := sweeping_room w s inv (fetchGroup_owned s.world.unit.rx s.loop.n g fetched)
  have writePtr : x.unit.rx.rxBufWritePtr < rxBufRingSize := by
    rw [write]
    exact inv.writePtr
  obtain ⟨entries, bounded, one⟩ := nextDesc_bounds x.unit.rx s.loop g
    (by rw [slots]; exact inv.entries) writePtr
  obtain ⟨cursor, count⟩ := nextDesc_n x.unit.rx s.loop g
  have before := inv.cursor
  have fewer := inv.fewer
  refine ⟨⟨?_, ?_, ?_, ?_, entries, bounded, ?_, ?_, ?_⟩, ?_⟩
  · simp only [cursor, count, before]
    omega
  · simp only [count]
    omega
  · simp only [count]
    omega
  · intro a member
    simp only [List.mem_append] at member
    rcases member with ((earlier | head) | check) | after
    · exact inv.used a earlier
    · exact headAccesses_used _ _ a head
    · exact checkAccesses_used _ _ a check
    · exact nextAccesses_used _ _ _ writePtr a after
  · intro slot visited
    simp only [count] at visited
    rw [nextDesc_get, ring]
    rcases (visited_next w.unit.rx s.loop.n s.loop.count slot before).mp visited with
      earlier | here
    · rw [inv.cleared slot earlier, ite_self]
    · rw [if_pos here]
  · intro slot untouched
    simp only [count, visited_next w.unit.rx s.loop.n s.loop.count slot before, not_or] at untouched
    rw [nextDesc_get, if_neg (by tauto), ring]
    exact inv.others slot untouched.1
  · exact regs.trans inv.regs
  · simp only [count]
    omega

theorem sweeping_leave (ch : Channels) (hook : Nat → Bool) (w : World) (s done : RxCall)
    (bounds : RxBounds w.unit.rx) (inv : Sweeping w s) (leaves : rxTurn ch hook s = .inr done) :
    Swept ch w done := by
  obtain ⟨idle, rfl⟩ := turn_leaves ch hook s done leaves
  rw [rxBody_idle ch s.world s.loop idle]
  have few := inv.few
  have cursor := inv.cursor
  have aligned := bounds.aligned
  have inside := bounds.inside
  have reduced : (leaveRing ch s.world.unit.rx s.loop).1.rxNextClean = s.loop.n % 2048 := by
    simp only [leaveRing, rxRingSize]
    split <;> omega
  constructor
  · exact few
  · exact cursor
  · intro a member
    rcases List.mem_append.mp member with earlier | head
    · exact inv.used a earlier
    · exact headAccesses_used _ _ a head
  · refine ⟨?_, ?_, inv.entries, inv.writePtr⟩
    · simp only [reduced]
      omega
    · simp only [reduced, rxRingSize]
      omega
  · simp only [reduced]
    rw [Ring.get_congr _ (s.loop.n % 2048) s.loop.n (by simp [rxRingSize])]
    exact (fetchGroup_none s.world.unit.rx s.loop.n).mp idle
  · exact inv.cleared
  · exact inv.others
  · simp only [leaveRing, inv.regs, Nat.mul_comm 2]
    congr 1
    by_cases none : s.loop.count = 0
    · rw [if_neg (by omega), if_pos none]
    · rw [if_pos (by omega), if_neg none]
  · refine ⟨(leaveRing ch s.world.unit.rx s.loop).2, by rw [inv.regs], fun e => ?_⟩
    rw [engine_left ch e s.world.unit.rx s.loop (by omega) inv.fewer, Nat.mul_comm 2]

/-- Whatever the ring holds, the call leaves its loop after at most 512 groups, uses no index out
of range and leaves the ring swept and the cursors in their bounds. -/
theorem processRX_sweeps (ch : Channels) (hook : Nat → Bool) (w : World)
    (rings : w.unit.rx.rxRingPtr ≠ 0 ∧ w.unit.rx.rxBufRingPtr ≠ 0)
    (bounds : RxBounds w.unit.rx) :
    ∃ done, (∀ fuel > 512, processRX ch hook fuel w = some done) ∧ Swept ch w done := by
  have outset : Sweeping w ⟨w, enterRing w.unit.rx, []⟩ := by
    refine ⟨rfl, Nat.zero_le 512, Nat.le_refl 0, ?_, bounds.entries, bounds.writePtr, ?_,
      fun _ _ => rfl, rfl⟩
    · intro a member
      cases member
    · rintro slot ⟨k, small, _⟩
      exact absurd small (by simp [enterRing])
  obtain ⟨done, finishes, swept⟩ := forever_rule (rxTurn ch hook) (Sweeping w)
    (fun s => 512 - s.loop.count) (Swept ch w)
    (fun s next inv goes => sweeping_turn ch hook w s next inv goes)
    (fun s done inv leaves => sweeping_leave ch hook w s done bounds inv leaves) _ outset
  refine ⟨done, fun fuel enough => ?_, swept⟩
  rw [processRX, if_neg (by tauto)]
  exact finishes fuel (by simp only; omega)

/-- The last group of the ring and the first are complete: a CRC error, and a frame for nobody. -/
def wrapWorld : World :=
  { coldWorld with
    unit :=
      { coldWorld.unit with
        rx :=
          { coldRx with
            rxRing := writeGroup (writeGroup (Ring.fill rxRingSize 0#64) 2044
              ⟨xctMacrxO ||| xctMacrxCrc, 0x1000000#64, 0x10000#64, 0#64⟩) 0
              ⟨xctMacrxO ||| 0x4000000000#64, 0x1000000#64, 0#64, 0#64⟩
            rxNextClean := 2044 } } }

/-- The call goes round the end of the ring. -/
theorem processRX_sweeps_wrap :
    ∃ done, (∀ fuel > 512, processRX ⟨0, 0, 0⟩ (fun _ => true) fuel wrapWorld = some done) ∧
      Swept ⟨0, 0, 0⟩ wrapWorld done ∧ done.loop.count = 2 ∧
      done.world.unit.rx.rxNextClean = 4 := by
  have bounds : RxBounds wrapWorld.unit.rx := by
    refine ⟨by decide, by decide, fun slot _ => ?_, by decide⟩
    exact show 0 < numRxBufs by decide
  obtain ⟨done, finishes, swept⟩ :=
    processRX_sweeps ⟨0, 0, 0⟩ (fun _ => true) wrapWorld ⟨by decide, by decide⟩ bounds
  have shape : (processRX ⟨0, 0, 0⟩ (fun _ => true) 513 wrapWorld).map (fun done =>
      (done.loop.count, done.world.unit.rx.rxNextClean)) = some (2, 4) := by decide +kernel
  rw [finishes 513 (by omega)] at shape
  obtain ⟨count, cursor⟩ := Prod.mk.inj (Option.some.inj shape)
  exact ⟨done, finishes, swept, count, cursor⟩

end Pa6tEth

import Pa6tEth.PostRxBuffers
import Pa6tEth.Support.Machine

/-! The receive engine beside the ring walk of `PA6TEth_ProcessRX`, one completion or one
iteration a step. -/

namespace Pa6tEth

open Support

/-- The engine's own positions in both rings, and the credits it holds. -/
structure RxEngine where
  descPos : Nat
  bufPos : Nat
  chanCredits : Nat
  bufCredits : Nat
  deriving DecidableEq, Repr

namespace RxEngine

/-- The positions move only with completions and with a write of a ring's base address. -/
def write (ch : Channels) (e : RxEngine) (w : RegWrite) : RxEngine :=
  if w.reg = .rxchanIncr ch.rxChannelNum then
    { e with chanCredits := e.chanCredits + w.value.toNat }
  else if w.reg = .rxintIncr ch.dmaIf then
    { e with bufCredits := e.bufCredits + w.value.toNat }
  else if w.reg = .rxchanBasel ch.rxChannelNum then { e with descPos := 0 }
  else if w.reg = .rxintBasel ch.dmaIf then { e with bufPos := 0 }
  else e

def writes (ch : Channels) (e : RxEngine) (ws : List RegWrite) : RxEngine :=
  ws.foldl (write ch) e

/-- The engine as `PA6TEth_HWInit` leaves it: both bases written, nothing credited. -/
def reset : RxEngine := ⟨0, 0, 0, 0⟩

end RxEngine

/-- The four words of one completion. -/
structure Completion where
  macrx : Word
  evalWord : Word
  ptrWord : Word
  pad : Word
  deriving DecidableEq, Repr

def writeGroup (ring : Ring rxRingSize Word) (pos : Nat) (c : Completion) :
    Ring rxRingSize Word :=
  (((ring.set pos c.macrx).set (pos + 1) c.evalWord).set (pos + 2) c.ptrWord).set (pos + 3) c.pad

/-- `written` and `cleaned` count the groups completed by the engine and cleared by the driver. -/
structure RxSystem where
  rx : UnitRx
  loop : Option RxLoop
  engine : RxEngine
  written : Nat
  cleaned : Nat

namespace RxSystem

def cursor (s : RxSystem) : Nat :=
  match s.loop with
  | none => s.rx.rxNextClean
  | some v => v.n

def count (s : RxSystem) : Nat :=
  match s.loop with
  | none => 0
  | some v => v.count

def replenish (s : RxSystem) : Nat :=
  match s.loop with
  | none => 0
  | some v => v.replenish

def unprocessed (s : RxSystem) : Nat := s.written - s.cleaned

end RxSystem

inductive RxAction
  | complete (c : Completion)
  | enter
  | iterate
  | leave
  deriving DecidableEq, Repr

/-- One step; `conforms` is what the engine is trusted to check before it completes a frame. -/
def rxStep (ch : Channels) (conforms : RxSystem → Completion → Bool) (s : RxSystem) :
    RxAction → Option RxSystem
  | .complete c =>
      if conforms s c then
        some { s with
          rx := { s.rx with rxRing := writeGroup s.rx.rxRing s.engine.descPos c }
          engine :=
            { descPos := (s.engine.descPos + 4) % rxRingSize
              bufPos := (s.engine.bufPos + 1) % rxBufRingSize
              chanCredits := s.engine.chanCredits - 2
              bufCredits := s.engine.bufCredits - 1 }
          written := s.written + 1 }
      else none
  | .enter =>
      match s.loop with
      | none => some { s with loop := some (enterRing s.rx) }
      | some _ => none
  | .iterate =>
      match s.loop with
      | none => none
      | some v =>
          (fetchGroup s.rx v.n).map fun g =>
            { s with
              rx := (nextDesc s.rx v g).1
              loop := some (nextDesc s.rx v g).2
              cleaned := s.cleaned + 1 }
  | .leave =>
      match s.loop with
      | none => none
      | some v =>
          match fetchGroup s.rx v.n with
          | some _ => none
          | none =>
              some { s with
                rx := (leaveRing ch s.rx v).1
                loop := none
                engine := s.engine.writes ch (leaveRing ch s.rx v).2 }

/-- A reset engine right after one call of `PA6TEth_PostRxBuffers`. -/
def armed (ch : Channels) (e : ArmEnv) (u : UnitRx) : RxSystem where
  rx := (postRxBuffers ch e u).1
  loop := none
  engine := RxEngine.reset.writes ch (postRxBuffers ch e u).2
  written := 0
  cleaned := 0

/-- One complete arming: the call got as far as its register writes. -/
def ArmedStart (ch : Channels) (s : RxSystem) : Prop :=
  ∃ e u, (postRxBuffers ch e u).2 ≠ [] ∧ s = armed ch e u

theorem complete_step (ch : Channels) (conforms : RxSystem → Completion → Bool)
    (s t : RxSystem) (c : Completion) (stepped : rxStep ch conforms s (.complete c) = some t) :
    conforms s c = true ∧
      t = { s with
        rx := { s.rx with rxRing := writeGroup s.rx.rxRing s.engine.descPos c }
        engine :=
          { descPos := (s.engine.descPos + 4) % rxRingSize
            bufPos := (s.engine.bufPos + 1) % rxBufRingSize
            chanCredits := s.engine.chanCredits - 2
            bufCredits := s.engine.bufCredits - 1 }
        written := s.written + 1 } := by
  simp only [rxStep] at stepped
  split at stepped
  · rename_i allowed
    exact ⟨allowed, (Option.some.inj stepped).symm⟩
  · cases stepped

theorem complete_enabled (ch : Channels) (conforms : RxSystem → Completion → Bool)
    (s : RxSystem) (c : Completion) (allowed : conforms s c = true) :
    ∃ t, rxStep ch conforms s (.complete c) = some t := ⟨_, if_pos allowed⟩

theorem enter_step (ch : Channels) (conforms : RxSystem → Completion → Bool) (s t : RxSystem)
    (stepped : rxStep ch conforms s .enter = some t) :
    s.loop = none ∧ t = { s with loop := some (enterRing s.rx) } := by
  simp only [rxStep] at stepped
  split at stepped
  · rename_i outside
    exact ⟨outside, (Option.some.inj stepped).symm⟩
  · cases stepped

theorem iterate_step (ch : Channels) (conforms : RxSystem → Completion → Bool) (s t : RxSystem)
    (stepped : rxStep ch conforms s .iterate = some t) :
    ∃ v g, s.loop = some v ∧ fetchGroup s.rx v.n = some g ∧
      t = { s with
        rx := (nextDesc s.rx v g).1
        loop := some (nextDesc s.rx v g).2
        cleaned := s.cleaned + 1 } := by
  simp only [rxStep] at stepped
  split at stepped
  · cases stepped
  · rename_i v inside
    obtain ⟨g, fetched, same⟩ := Option.map_eq_some_iff.mp stepped
    exact ⟨v, g, inside, fetched, same.symm⟩

theorem leave_step (ch : Channels) (conforms : RxSystem → Completion → Bool) (s t : RxSystem)
    (stepped : rxStep ch conforms s .leave = some t) :
    ∃ v, s.loop = some v ∧ fetchGroup s.rx v.n = none ∧
      t = { s with
        rx := (leaveRing ch s.rx v).1
        loop := none
        engine := s.engine.writes ch (leaveRing ch s.rx v).2 } := by
  simp only [rxStep] at stepped
  split at stepped
  · cases stepped
  · rename_i v inside
    split at stepped
    · cases stepped
    · rename_i idle
      exact ⟨v, inside, idle, (Option.some.inj stepped).symm⟩

theorem engine_writes_append (ch : Channels) (e : RxEngine) (front back : List RegWrite) :
    e.writes ch (front ++ back) = (e.writes ch front).writes ch back := by
  simp only [RxEngine.writes, List.foldl_append]

theorem engine_pciEnable (ch : Channels) (e : RxEngine) (reg : Reg) (command : BitVec 16)
    (pci : reg = .macPciCommand ∨ reg = .dmaPciCommand) :
    e.writes ch (pciEnable reg command) = e := by
  simp only [pciEnable]
  split
  · rcases pci with rfl | rfl <;> simp [RxEngine.writes, RxEngine.write]
  · rfl

theorem engine_credits (ch : Channels) (e : RxEngine) :
    e.writes ch (creditWrites ch) =
      { e with
        chanCredits := e.chanCredits + 1024
        bufCredits := e.bufCredits + 512 } := by
  simp [creditWrites, RxEngine.writes, RxEngine.write]
  decide

theorem engine_enables (ch : Channels) (env : ArmEnv) (e : RxEngine) :
    e.writes ch (enableWrites ch env) = e := by
  simp only [enableWrites, engine_writes_append]
  rw [engine_pciEnable ch _ _ _ (Or.inl rfl), engine_pciEnable ch _ _ _ (Or.inr rfl)]
  simp [RxEngine.writes, RxEngine.write]

theorem engine_armed (ch : Channels) (env : ArmEnv) (e : RxEngine) :
    e.writes ch (armWrites ch env) =
      { e with
        chanCredits := e.chanCredits + 1024
        bufCredits := e.bufCredits + 512 } := by
  rw [armWrites, engine_writes_append, engine_enables, engine_credits]

theorem engine_left (ch : Channels) (e : RxEngine) (u : UnitRx) (v : RxLoop)
    (small : v.count * 2 < 2 ^ 32) (fewer : v.replenish ≤ v.count) :
    e.writes ch (leaveRing ch u v).2 =
      { e with
        chanCredits := e.chanCredits + v.count * 2
        bufCredits := e.bufCredits + v.replenish } := by
  have replenish : v.replenish < 2 ^ 32 := by omega
  simp only [leaveRing]
  split
  · simp only [RxEngine.writes, RxEngine.write, List.foldl_cons, List.foldl_nil, reduceCtorEq,
      if_false, if_true, BitVec.toNat_ofNat, Nat.mod_eq_of_lt small, Nat.mod_eq_of_lt replenish]
  · rename_i idle
    have none : v.count = 0 := by omega
    have nothing : v.replenish = 0 := by omega
    simp [RxEngine.writes, none, nothing]

/-- A call that makes register writes is a complete arming. -/
theorem postRxBuffers_armed (ch : Channels) (e : ArmEnv) (u : UnitRx)
    (writes : (postRxBuffers ch e u).2 ≠ []) :
    (postRxBuffers ch e u).1 = armRings (allocRxBufs e.buf numRxBufs 0 u 0).1 ∧
      (postRxBuffers ch e u).2 = armWrites ch e ∧
      (allocRxBufs e.buf numRxBufs 0 u 0).2 ≠ 0 := by
  simp only [postRxBuffers] at writes ⊢
  split at writes
  · exact absurd rfl writes
  · rename_i present
    rw [if_neg present]
    revert writes
    rcases allocRxBufs e.buf numRxBufs 0 u 0 with ⟨done, fresh⟩
    cases fresh with
    | zero => intro writes; exact absurd rfl writes
    | succ fresh => intro _; exact ⟨rfl, rfl, Nat.succ_ne_zero fresh⟩

theorem postRxBuffers_fresh (ch : Channels) (e : ArmEnv) (u : UnitRx)
    (rings : u.rxBufRingPtr ≠ 0 ∧ u.rxRingPtr ≠ 0)
    (missing : ∀ i < numRxBufs, u.rxBufs i = 0)
    (good : ∀ i < numRxBufs, (e.buf i).mapped = true) :
    postRxBuffers ch e u = (armRings (allocRxBufs e.buf numRxBufs 0 u 0).1, armWrites ch e) ∧
      ∀ i < numRxBufs, (allocRxBufs e.buf numRxBufs 0 u 0).1.rxBufs i = (e.buf i).virt ∧
        (allocRxBufs e.buf numRxBufs 0 u 0).1.rxBufsPhys i = (e.buf i).phys := by
  obtain ⟨count, pointers, addresses⟩ := allocRxBufs_fresh e.buf numRxBufs 0 u 0
    (fun j _ high => missing j (by omega)) (fun j _ high => good j (by omega))
  constructor
  · simp only [postRxBuffers, rings.1, rings.2, or_self, if_false]
    revert count
    rcases allocRxBufs e.buf numRxBufs 0 u 0 with ⟨done, fresh⟩
    cases fresh with
    | zero => intro count; simp at count
    | succ fresh => intro _; rfl
  · intro i small
    rw [pointers i, addresses i, if_pos (by omega), if_pos (by omega)]
    exact ⟨rfl, rfl⟩

/-- A unit whose rings are allocated and whose buffers are not. -/
def coldRx : UnitRx where
  rxRingPtr := 0x1000
  rxRing := Ring.fill rxRingSize 0#64
  rxNextClean := 0
  rxBufRingPtr := 0x8000
  rxBufRing := Ring.fill rxBufRingSize 0#64
  rxBufWritePtr := 0
  rxSlotBuf := fun _ => 0
  rxBufs := fun _ => 0
  rxBufsPhys := fun _ => 0#32
  rxBufsDmaEntries := fun _ => 0
  statRx := 0#32
  statRxDropped := 0#32

/-- The first `count` buffers are allocated and mapped one to one, and memory runs out there. -/
def mappedEnv (count : Nat) : ArmEnv where
  buf := fun i =>
    if i < count then
      ⟨65536 + rxBufSize * i, 1, true, BitVec.ofNat 32 (65536 + rxBufSize * i)⟩
    else ⟨0, 0, false, 0#32⟩
  macCommand := 0#16
  dmaCommand := 0#16
  txchStat := 0#32
  rxchStat := 0#32

end Pa6tEth

import Pa6tEth.RxCredits
import Pa6tEth.UnitTask

/-! Going online again: what `PostRxBuffers` does on the second and later transitions, with an engine
that completes frames between its parts. -/

namespace Pa6tEth

open Support

/-- How far a call of `PostRxBuffers` has come: before it, behind the allocation loop, behind the
clearing of both rings, and behind the credits. `start` is the engine as it was when the rings were
cleared. -/
inductive ArmStage
  | outside
  | allocated
  | cleared (start : RxEngine)
  | posted (start : RxEngine)
  deriving DecidableEq, Repr

/-- The receive side under the commands of the unit task. `made` are the register writes of the last
call of `PostRxBuffers`, `calls` the answers of the system to the allocation loops so far, and `late`
marks the slots of the descriptor ring that the engine wrote while the unit was offline. -/
structure OnlineSystem where
  rx : RxSystem
  online : Bool
  ops : List TaskOp
  stage : ArmStage
  made : List RegWrite
  calls : List ArmEnv
  late : Ring rxRingSize Bool

inductive OnlineAction
  | command (c : Command)
  | op (e : ArmEnv)
  | receive (a : RxAction)

def markGroup (late : Ring rxRingSize Bool) (pos : Nat) (mark : Bool) : Ring rxRingSize Bool :=
  (((late.set pos mark).set (pos + 1) mark).set (pos + 2) mark).set (pos + 3) mark

/-- The next part of a call of `PostRxBuffers`, with the actions behind it. Clearing the rings
clears every group that was completed. -/
def armStep (ch : Channels) (e : ArmEnv) (s : OnlineSystem) (rest : List TaskOp) : OnlineSystem :=
  match s.stage with
  | .outside =>
      if s.rx.rx.rxBufRingPtr = 0 ∨ s.rx.rx.rxRingPtr = 0 then { s with ops := rest, made := [] }
      else
        match allocRxBufs e.buf numRxBufs 0 s.rx.rx 0 with
        | (u, 0) =>
            { s with rx := { s.rx with rx := u }, ops := rest, made := [], calls := s.calls ++ [e] }
        | (u, _ + 1) =>
            { s with
              rx := { s.rx with rx := u }
              stage := .allocated
              made := []
              calls := s.calls ++ [e] }
  | .allocated =>
      { s with
        rx := { s.rx with rx := clearRings s.rx.rx, cleaned := s.rx.written }
        stage := .cleared s.rx.engine }
  | .cleared start =>
      { s with
        rx :=
          { s.rx with
            rx := postRings s.rx.rx
            engine := s.rx.engine.writes ch (creditWrites ch) }
        stage := .posted start
        made := creditWrites ch }
  | .posted _ =>
      { s with
        rx :=
          { s.rx with
            rx := { s.rx.rx with rxNextClean := 0 }
            engine := s.rx.engine.writes ch (enableWrites ch e) }
        ops := rest
        stage := .outside
        made := s.made ++ enableWrites ch e }

/-- What a handler's action means to the receive side. -/
def onlineOp (ch : Channels) (e : ArmEnv) (s : OnlineSystem) (op : TaskOp) (rest : List TaskOp) :
    OnlineSystem :=
  match op with
  | .setOnline online => { s with online := online, ops := rest }
  | .postRxBuffers => armStep ch e s rest
  | _ => { s with ops := rest }

/-- `ProcessRX` is entered after the commands, and only while the unit is online. -/
def mayReceive (s : OnlineSystem) : RxAction → Bool
  | .enter => s.online && s.ops.isEmpty && ringsReady s.rx.rx
  | _ => true

def lateAfter (s : OnlineSystem) : RxAction → Ring rxRingSize Bool
  | .complete _ => markGroup s.late s.rx.engine.descPos (!s.online)
  | _ => s.late

/-- Commands are taken up outside of `ProcessRX`; the engine completes frames at any time. -/
def onlineStep (ch : Channels) (s : OnlineSystem) : OnlineAction → Option OnlineSystem
  | .command c =>
      if s.ops.isEmpty && s.rx.loop.isNone then some { s with ops := (commandOps s.online c).1 }
      else none
  | .op e =>
      match s.ops with
      | [] => none
      | op :: rest => some (onlineOp ch e s op rest)
  | .receive a =>
      if mayReceive s a then
        (rxStep ch chanConforms s.rx a).map fun rx => { s with rx := rx, late := lateAfter s a }
      else none

/-- The unit as `HWInit` leaves it: empty rings, no buffers, an engine without credits. -/
structure ColdReceive (s : OnlineSystem) : Prop where
  offline : s.online = false
  idle : s.ops = []
  stage : s.stage = .outside
  calls : s.calls = []
  outside : s.rx.loop = none
  engine : s.rx.engine = RxEngine.reset
  written : s.rx.written = 0
  ring : ∀ slot, s.rx.rx.rxRing.get slot = 0#64
  buffers : allocated s.rx.rx = false
  unmapped : ∀ i < numRxBufs, s.rx.rx.rxBufsPhys i = 0#32

def onlineMachine (ch : Channels) : Machine OnlineSystem OnlineAction where
  start := ColdReceive
  step := onlineStep ch

/-- A complete arming: all register writes made, only groups that were completed since in the ring,
the buffers posted, and the driver's cursors behind the engine by those groups. -/
structure Rearmed (ch : Channels) (e : ArmEnv) (t : OnlineSystem) : Prop where
  made : t.made = armWrites ch e
  cleared : ∀ slot, ¬ t.rx.Unprocessed slot → t.rx.rx.rxRing.get slot = 0#64
  posted : ∀ i < numRxBufs, t.rx.rx.rxBufsPhys i ≠ 0#32 →
    t.rx.rx.rxBufRing.get i = rxbWord (t.rx.rx.rxBufsPhys i) ∧ t.rx.rx.rxSlotBuf i = i
  clean : (t.rx.rx.rxNextClean + 4 * t.rx.unprocessed) % rxRingSize = t.rx.engine.descPos
  posts : (t.rx.rx.rxBufWritePtr + t.rx.unprocessed) % rxBufRingSize =
    (t.rx.engine.bufPos + numRxBufs) % rxBufRingSize

/-- A call of `PostRxBuffers` that ends with a buffer has armed completely. -/
def ArmsRight (ch : Channels) (s : OnlineSystem) (a : OnlineAction) (t : OnlineSystem) : Prop :=
  ∀ e rest, a = .op e → s.ops = .postRxBuffers :: rest → t.ops = rest →
    ringsReady t.rx.rx = true → allocated t.rx.rx = true → Rearmed ch e t

/-- Where a buffer is there from before, one is granted now; and the engine stood at the first slot
of both rings when they were cleared. -/
def canArm (s : OnlineSystem) : OnlineAction → Bool
  | .op e =>
      match s.ops, s.stage with
      | .postRxBuffers :: _, .outside =>
          !(ringsReady s.rx.rx && allocated s.rx.rx) || mapsNext e.buf s.rx.rx
      | .postRxBuffers :: _, .posted start => start.descPos == 0 && start.bufPos == 0
      | _, _ => true
  | _ => true

theorem armStep_refused (ch : Channels) (e : ArmEnv) (s : OnlineSystem) (rest : List TaskOp)
    (begins : s.stage = .outside)
    (refused : ringsReady s.rx.rx = false ∨ mapsNext e.buf s.rx.rx = false) :
    ∃ calls, armStep ch e s rest =
      { s with
        rx := { s.rx with rx := (postRxBuffers ch e s.rx.rx).1 }
        ops := rest
        stage := .outside
        made := []
        calls := calls } := by
  by_cases absent : s.rx.rx.rxBufRingPtr = 0 ∨ s.rx.rx.rxRingPtr = 0
  · simp only [armStep, begins, postRxBuffers, if_pos absent]
    exact ⟨s.calls, rfl⟩
  · have ready : ringsReady s.rx.rx = true := by
      simp only [not_or] at absent
      simp [ringsReady, absent.1, absent.2]
    have none := ((mapsNext_counts e s.rx.rx).1 (refused.resolve_left (by simp [ready]))).1
    simp only [armStep, begins, postRxBuffers, if_neg absent]
    cases loop : allocRxBufs e.buf numRxBufs 0 s.rx.rx 0 with
    | mk u fresh =>
        rw [loop] at none
        cases none
        exact ⟨s.calls ++ [e], rfl⟩

theorem armStep_granted (ch : Channels) (e : ArmEnv) (s : OnlineSystem) (rest : List TaskOp)
    (begins : s.stage = .outside) (ready : ringsReady s.rx.rx = true)
    (next : mapsNext e.buf s.rx.rx = true) :
    armStep ch e s rest =
      { s with
        rx := { s.rx with rx := (allocRxBufs e.buf numRxBufs 0 s.rx.rx 0).1 }
        stage := .allocated
        made := []
        calls := s.calls ++ [e] } := by
  have counted := ((mapsNext_counts e s.rx.rx).2 next).1
  simp only [ringsReady, Bool.and_eq_true, bne_iff_ne, ne_eq] at ready
  simp only [armStep, begins, ready.1, ready.2, or_self, if_false]
  split
  · rename_i done none
    exact absurd (by rw [none]) counted
  · rename_i done more some
    rw [some]

/-- Without a completion in between the parts are the whole call. -/
theorem armSteps_whole (ch : Channels) (e : ArmEnv) (s : OnlineSystem) (rest : List TaskOp)
    (calling : s.ops = .postRxBuffers :: rest) (begins : s.stage = .outside) :
    ∃ n t, (onlineMachine ch).run s (List.replicate n (.op e)) = some t ∧
      t.ops = rest ∧ t.stage = .outside ∧ t.rx.rx = (postRxBuffers ch e s.rx.rx).1 ∧
      t.made = (postRxBuffers ch e s.rx.rx).2 ∧
      t.rx.engine = s.rx.engine.writes ch (postRxBuffers ch e s.rx.rx).2 := by
  by_cases granted : ringsReady s.rx.rx = true ∧ mapsNext e.buf s.rx.rx = true
  · have whole := postRxBuffers_granted ch e s.rx.rx granted.1 granted.2
    have first := armStep_granted ch e s rest begins granted.1 granted.2
    refine ⟨4,
      { s with
        rx :=
          { s.rx with
            rx := armRings (allocRxBufs e.buf numRxBufs 0 s.rx.rx 0).1
            engine := (s.rx.engine.writes ch (creditWrites ch)).writes ch (enableWrites ch e)
            cleaned := s.rx.written }
        ops := rest
        stage := .outside
        made := creditWrites ch ++ enableWrites ch e
        calls := s.calls ++ [e] }, ?_, ?_⟩
    · simp only [List.replicate, Machine.run, onlineMachine, onlineStep, calling, onlineOp, first,
        Option.bind_some]
      simp only [armStep, Option.bind_some, armRings]
    · simp only [whole, armWrites, engine_writes_append, and_self]
  · have refused : ringsReady s.rx.rx = false ∨ mapsNext e.buf s.rx.rx = false := by
      simpa only [not_and_or, Bool.not_eq_true] using granted
    obtain ⟨calls, ends⟩ := armStep_refused ch e s rest begins refused
    have silent := (postRxBuffers_refused ch e s.rx.rx refused).1
    refine ⟨1, armStep ch e s rest, ?_, ?_⟩
    · simp only [List.replicate, Machine.run, onlineMachine, onlineStep, calling, onlineOp,
        Option.bind_some]
    · simp only [ends, silent, RxEngine.writes, List.foldl_nil, and_self]

theorem op_step (ch : Channels) (s t : OnlineSystem) (e : ArmEnv)
    (stepped : onlineStep ch s (.op e) = some t) :
    ∃ op rest, s.ops = op :: rest ∧ t = onlineOp ch e s op rest := by
  simp only [onlineStep] at stepped
  split at stepped
  · cases stepped
  · rename_i op rest ops
    exact ⟨op, rest, ops, (Option.some.inj stepped).symm⟩

theorem command_step (ch : Channels) (s t : OnlineSystem) (c : Command)
    (stepped : onlineStep ch s (.command c) = some t) :
    s.ops = [] ∧ s.rx.loop = none ∧ t = { s with ops := (commandOps s.online c).1 } := by
  simp only [onlineStep] at stepped
  split at stepped
  · rename_i outside
    simp only [Bool.and_eq_true, List.isEmpty_iff, Option.isNone_iff_eq_none] at outside
    exact ⟨outside.1, outside.2, (Option.some.inj stepped).symm⟩
  · cases stepped

theorem receive_step (ch : Channels) (s t : OnlineSystem) (a : RxAction)
    (stepped : onlineStep ch s (.receive a) = some t) :
    mayReceive s a = true ∧ ∃ rx, rxStep ch chanConforms s.rx a = some rx ∧
      t = { s with rx := rx, late := lateAfter s a } := by
  simp only [onlineStep] at stepped
  split at stepped
  · rename_i allowed
    obtain ⟨rx, moved, same⟩ := Option.map_eq_some_iff.mp stepped
    exact ⟨allowed, rx, moved, same.symm⟩
  · cases stepped

/-- The engine stands as many groups and buffers behind the first slots as it has completed. -/
def AtCount (e : RxEngine) (count : Nat) : Prop :=
  e.descPos = 4 * count % rxRingSize ∧ e.bufPos = count % rxBufRingSize

/-- The descriptor ring holds nothing but what was completed since it was cleared. -/
structure SinceClear (start : RxEngine) (s : RxSystem) : Prop where
  begun : AtCount start s.cleaned
  order : s.cleaned ≤ s.written
  clear : ∀ slot, ¬ s.Unprocessed slot → s.rx.rxRing.get slot = 0#64

/-- Every buffer with an address is in the slot of its number. -/
structure BufsPosted (u : UnitRx) : Prop where
  words : ∀ i < numRxBufs, u.rxBufsPhys i ≠ 0#32 →
    u.rxBufRing.get i = rxbWord (u.rxBufsPhys i) ∧ u.rxSlotBuf i = i
  cursor : u.rxBufWritePtr = numRxBufs

/-- What the parts of a call behind it have done. -/
def StageDone (ch : Channels) (s : OnlineSystem) : ArmStage → Prop
  | .outside => True
  | .allocated => True
  | .cleared start =>
      SinceClear start s.rx ∧ ∀ slot, s.rx.rx.rxBufRing.get slot = 0#64
  | .posted start => SinceClear start s.rx ∧ BufsPosted s.rx.rx ∧ s.made = creditWrites ch

structure CallInv (ch : Channels) (s : OnlineSystem) : Prop where
  engine : AtCount s.rx.engine s.rx.written
  ending : ∃ now c, s.ops <:+ (commandOps now c).1
  inside : s.rx.loop ≠ none → s.online = true ∧ s.ops = []
  calling : s.stage ≠ .outside → (∃ rest, s.ops = .postRxBuffers :: rest) ∧
    ringsReady s.rx.rx = true ∧ allocated s.rx.rx = true
  online : ∀ rest, s.ops = .postRxBuffers :: rest → s.online = true
  done : StageDone ch s s.stage

theorem commandOps_calls (now : Bool) (c : Command) :
    (∀ rest, (commandOps now c).1 ≠ .postRxBuffers :: rest) ∧
      ∀ op rest, op :: .postRxBuffers :: rest <:+ (commandOps now c).1 → op = .setOnline true := by
  have up : (∀ rest, goOnline now ≠ .postRxBuffers :: rest) ∧
      ∀ op rest, op :: .postRxBuffers :: rest <:+ goOnline now → op = .setOnline true := by
    cases now with
    | true => exact ⟨fun rest => by simp [goOnline], fun op rest ending => by
        cases List.eq_nil_of_suffix_nil ending⟩
    | false =>
        refine ⟨fun rest => by simp [goOnline], fun op rest ending => ?_⟩
        simp only [goOnline, Bool.false_eq_true, if_false, List.suffix_cons_iff, List.suffix_nil,
          List.cons.injEq] at ending
        rcases ending with ⟨first, _⟩ | ⟨_, later, _⟩ | ⟨_, later⟩ | none
        · exact first
        · cases later
        · cases later
        · cases none
  cases c with
  | configInterface => exact up
  | online => exact up
  | offline =>
      refine ⟨fun rest => by simp [commandOps], fun op rest ending => ?_⟩
      have member := ending.subset (List.mem_cons_of_mem op List.mem_cons_self)
      simp [commandOps] at member
  | cmdFlush =>
      refine ⟨fun rest => by simp [commandOps], fun op rest ending => ?_⟩
      have member := ending.subset (List.mem_cons_of_mem op List.mem_cons_self)
      simp [commandOps] at member
  | _ => exact ⟨fun rest => by simp [commandOps], fun op rest ending => by
      cases ending.subset List.mem_cons_self⟩

theorem clearRings_facts (u : UnitRx) :
    (∀ slot, (clearRings u).rxRing.get slot = 0#64) ∧
      (∀ slot, (clearRings u).rxBufRing.get slot = 0#64) ∧
      ringsReady (clearRings u) = ringsReady u ∧ allocated (clearRings u) = allocated u :=
  ⟨fun _ => Ring.get_fill _ _, fun _ => Ring.get_fill _ _, rfl, rfl⟩

theorem postRings_facts (u : UnitRx) :
    (postRings u).rxRing = u.rxRing ∧ ringsReady (postRings u) = ringsReady u ∧
      allocated (postRings u) = allocated u := by
  obtain ⟨ring, bufs, _, ringPtr, bufPtr⟩ := postLoop_frame numRxBufs u
  refine ⟨?_, ?_, ?_⟩
  · simp only [postRings, ring]
  · simp only [ringsReady, postRings, ringPtr, bufPtr]
  · simp only [allocated, missing, postRings, bufs]

theorem postRings_posted (u : UnitRx) : BufsPosted (postRings u) := by
  refine ⟨fun i small present => ?_, by simp only [postRings]⟩
  have address : u.rxBufsPhys i ≠ 0#32 := by
    simpa only [postRings, (postLoop_frame numRxBufs u).2.2.1] using present
  have inside : i < rxBufRingSize := by
    simp only [numRxBufs] at small
    simp only [rxBufRingSize, rxRingSize]
    omega
  simp only [postRings, (postLoop_frame numRxBufs u).2.2.1]
  rw [postLoop_get numRxBufs i u (le_refl _) inside,
    postLoop_slotBuf numRxBufs i u (le_refl _), if_pos ⟨small, address⟩, if_pos ⟨small, address⟩]
  exact ⟨rfl, rfl⟩

theorem sinceClear_complete (start : RxEngine) (s : RxSystem) (c : Completion) (e : RxEngine)
    (engine : AtCount s.engine s.written) (since : SinceClear start s) :
    SinceClear start
      { s with
        rx := { s.rx with rxRing := writeGroup s.rx.rxRing s.engine.descPos c }
        engine := e
        written := s.written + 1 } := by
  have begins : s.engine.descPos % 2048 = 4 * s.written % 2048 := by
    rw [engine.1]
    simp only [rxRingSize]
    omega
  refine ⟨since.begun, Nat.le_succ_of_le since.order, fun slot outside => ?_⟩
  have apart : slot / 4 % 512 ≠ s.written % 512 := fun same =>
    outside ⟨s.written, since.order, Nat.lt_succ_self _, same⟩
  rw [writeGroup_other _ _ s.written _ _ begins apart]
  apply since.clear slot
  rintro ⟨j, low, high, same⟩
  exact outside ⟨j, low, Nat.lt_succ_of_lt high, same⟩

theorem callInv_begin (ch : Channels) (s : OnlineSystem) (e : ArmEnv) (rest : List TaskOp)
    (inv : CallInv ch s) (ops : s.ops = .postRxBuffers :: rest) (begins : s.stage = .outside) :
    CallInv ch (armStep ch e s rest) := by
  obtain ⟨now, c, ending⟩ := inv.ending
  have shorter : rest <:+ (commandOps now c).1 :=
    (List.suffix_cons .postRxBuffers rest).trans (ops ▸ ending)
  have outside : s.rx.loop = none := by
    by_contra inside
    rw [(inv.inside inside).2] at ops
    cases ops
  have goes := inv.online rest ops
  by_cases granted : ringsReady s.rx.rx = true ∧ mapsNext e.buf s.rx.rx = true
  · obtain ⟨_, ringPtr, bufPtr, _⟩ := allocRxBufs_frame e.buf numRxBufs 0 s.rx.rx 0
    rw [armStep_granted ch e s rest begins granted.1 granted.2]
    refine ⟨inv.engine, inv.ending, fun inside => absurd outside inside, fun _ => ?_, inv.online,
      trivial⟩
    refine ⟨⟨rest, ops⟩, ?_, (allocated_after e s.rx.rx).mpr (.inr granted.2)⟩
    simpa only [ringsReady, ringPtr, bufPtr] using granted.1
  · have refused : ringsReady s.rx.rx = false ∨ mapsNext e.buf s.rx.rx = false := by
      simpa only [not_and_or, Bool.not_eq_true] using granted
    obtain ⟨calls, ends⟩ := armStep_refused ch e s rest begins refused
    rw [ends]
    exact ⟨inv.engine, ⟨now, c, shorter⟩, fun inside => absurd outside inside,
      fun later => absurd rfl later, fun _ _ => goes, trivial⟩

theorem callInv_goesOn (ch : Channels) (s : OnlineSystem) (e : ArmEnv) (rest : List TaskOp)
    (inv : CallInv ch s) (ops : s.ops = .postRxBuffers :: rest) (begun : s.stage ≠ .outside) :
    CallInv ch (armStep ch e s rest) := by
  obtain ⟨_, ready, had⟩ := inv.calling begun
  obtain ⟨now, c, ending⟩ := inv.ending
  have done := inv.done
  have goes := inv.online rest ops
  have outside : s.rx.loop = none := by
    by_contra inside
    rw [(inv.inside inside).2] at ops
    cases ops
  cases stage : s.stage with
  | outside => exact absurd stage begun
  | allocated =>
      obtain ⟨ring, bufRing, readyToo, hadToo⟩ := clearRings_facts s.rx.rx
      simp only [armStep, stage]
      refine ⟨inv.engine, inv.ending, fun inside => absurd outside inside,
        fun _ => ⟨⟨rest, ops⟩, readyToo.trans ready, hadToo.trans had⟩, inv.online, ?_⟩
      exact ⟨⟨inv.engine, Nat.le_refl _, fun slot _ => ring slot⟩, bufRing⟩
  | cleared start =>
      rw [stage] at done
      obtain ⟨since, _⟩ := done
      obtain ⟨ring, readyToo, hadToo⟩ := postRings_facts s.rx.rx
      simp only [armStep, stage]
      refine ⟨?_, inv.ending, fun inside => absurd outside inside,
        fun _ => ⟨⟨rest, ops⟩, readyToo.trans ready, hadToo.trans had⟩, inv.online, ?_⟩
      · rw [engine_credits]
        exact inv.engine
      · refine ⟨⟨since.begun, since.order, fun slot free => ?_⟩, postRings_posted s.rx.rx, rfl⟩
        rw [ring]
        apply since.clear slot
        rintro ⟨j, low, high, same⟩
        exact free ⟨j, low, high, same⟩
  | posted start =>
      have shorter : rest <:+ (commandOps now c).1 :=
        (List.suffix_cons .postRxBuffers rest).trans (ops ▸ ending)
      simp only [armStep, stage]
      refine ⟨?_, ⟨now, c, shorter⟩, fun inside => absurd outside inside,
        fun later => absurd rfl later, fun _ _ => goes, trivial⟩
      rw [engine_enables]
      exact inv.engine

theorem callInv_op (ch : Channels) (s t : OnlineSystem) (e : ArmEnv) (inv : CallInv ch s)
    (stepped : onlineStep ch s (.op e) = some t) : CallInv ch t := by
  obtain ⟨op, rest, ops, rfl⟩ := op_step ch s t e stepped
  by_cases calls : op = .postRxBuffers
  · subst calls
    by_cases begins : s.stage = .outside
    · exact callInv_begin ch s e rest inv ops begins
    · exact callInv_goesOn ch s e rest inv ops begins
  · obtain ⟨now, c, ending⟩ := inv.ending
    rw [ops] at ending
    have shorter : rest <:+ (commandOps now c).1 := (List.suffix_cons op rest).trans ending
    have before : s.stage = .outside := by
      by_contra begun
      obtain ⟨⟨rest', calling⟩, _⟩ := inv.calling begun
      exact calls (List.cons.inj (ops.symm.trans calling)).1
    have outside : s.rx.loop = none := by
      by_contra inside
      rw [(inv.inside inside).2] at ops
      cases ops
    have first : ∀ rest', rest = .postRxBuffers :: rest' → op = .setOnline true := fun rest' same =>
      (commandOps_calls now c).2 op rest' (same ▸ ending)
    cases op with
    | setOnline online =>
        refine ⟨inv.engine, ⟨now, c, shorter⟩, fun inside => absurd outside inside,
          fun begun => absurd before begun, fun rest' same => ?_, ?_⟩
        · exact TaskOp.setOnline.inj (first rest' same)
        · simp only [onlineOp, before]
          trivial
    | postRxBuffers => exact absurd rfl calls
    | _ =>
        refine ⟨inv.engine, ⟨now, c, shorter⟩, fun inside => absurd outside inside,
          fun begun => absurd before begun, fun rest' same => ?_, ?_⟩
        · cases first rest' same
        · simp only [onlineOp, before]
          trivial

theorem leave_positions (ch : Channels) (e : RxEngine) (u : UnitRx) (v : RxLoop) :
    (e.writes ch (leaveRing ch u v).2).descPos = e.descPos ∧
      (e.writes ch (leaveRing ch u v).2).bufPos = e.bufPos := by
  simp only [leaveRing]
  split <;> simp [RxEngine.writes, RxEngine.write]

theorem callInv_receive (ch : Channels) (s t : OnlineSystem) (a : RxAction) (inv : CallInv ch s)
    (stepped : onlineStep ch s (.receive a) = some t) : CallInv ch t := by
  obtain ⟨may, rx, moved, rfl⟩ := receive_step ch s t a stepped
  have idle : s.ops = [] → s.stage = .outside := by
    intro none
    by_contra begun
    obtain ⟨⟨rest, calling⟩, _⟩ := inv.calling begun
    rw [none] at calling
    cases calling
  cases a with
  | complete c =>
      obtain ⟨_, rfl⟩ := complete_step ch chanConforms s.rx rx c moved
      obtain ⟨desc, buf⟩ := inv.engine
      refine ⟨⟨?_, ?_⟩, inv.ending, inv.inside, inv.calling, inv.online, ?_⟩
      · simp only [desc, rxRingSize]
        omega
      · simp only [buf, rxBufRingSize, rxRingSize]
        omega
      · have done := inv.done
        simp only
        cases stage : s.stage with
        | outside => trivial
        | allocated => trivial
        | cleared start =>
            rw [stage] at done
            exact ⟨sinceClear_complete start s.rx c _ inv.engine done.1, done.2⟩
        | posted start =>
            rw [stage] at done
            obtain ⟨since, posted, made⟩ := done
            exact ⟨sinceClear_complete start s.rx c _ inv.engine since,
              ⟨posted.words, posted.cursor⟩, made⟩
  | enter =>
      obtain ⟨_, rfl⟩ := enter_step ch chanConforms s.rx rx moved
      simp only [mayReceive, Bool.and_eq_true, List.isEmpty_iff] at may
      have before := idle may.1.2
      refine ⟨inv.engine, inv.ending, fun _ => may.1, fun begun => absurd before begun, inv.online, ?_⟩
      simp only [before]
      trivial
  | iterate =>
      obtain ⟨v, g, inside, _, rfl⟩ := iterate_step ch chanConforms s.rx rx moved
      have now := inv.inside (by simp [inside])
      have before := idle now.2
      refine ⟨inv.engine, inv.ending, fun _ => now, fun begun => absurd before begun, inv.online, ?_⟩
      simp only [before]
      trivial
  | leave =>
      obtain ⟨v, inside, _, rfl⟩ := leave_step ch chanConforms s.rx rx moved
      have before := idle (inv.inside (by simp [inside])).2
      obtain ⟨desc, buf⟩ := leave_positions ch s.rx.engine s.rx.rx v
      refine ⟨⟨desc.trans inv.engine.1, buf.trans inv.engine.2⟩, inv.ending,
        fun inside => absurd rfl inside, fun begun => absurd before begun, inv.online, ?_⟩
      simp only [before]
      trivial

theorem callInv_reached (ch : Channels) (s : OnlineSystem) (reached : (onlineMachine ch).Reached s) :
    CallInv ch s := by
  refine (onlineMachine ch).invariant (CallInv ch) ?_ ?_ s reached
  · intro s cold
    refine ⟨?_, ⟨true, .cmdFlush, ?_⟩, fun inside => absurd cold.outside inside,
      fun begun => absurd cold.stage begun, fun rest calling => ?_, ?_⟩
    · rw [cold.engine, cold.written]
      exact ⟨rfl, rfl⟩
    · rw [cold.idle]
      exact List.nil_suffix
    · rw [cold.idle] at calling
      cases calling
    · rw [cold.stage]
      trivial
  · intro s a t inv stepped
    cases a with
    | command c =>
        obtain ⟨idle, outside, rfl⟩ := command_step ch s t c stepped
        have before : s.stage = .outside := by
          by_contra begun
          obtain ⟨⟨rest, calling⟩, _⟩ := inv.calling begun
          rw [idle] at calling
          cases calling
        refine ⟨inv.engine, ⟨s.online, c, List.suffix_refl _⟩, fun inside => absurd outside inside,
          fun begun => absurd before begun, fun rest calling => ?_, ?_⟩
        · exact absurd calling ((commandOps_calls s.online c).1 rest)
        · simp only [before]
          trivial
    | op e => exact callInv_op ch s t e inv stepped
    | receive a => exact callInv_receive ch s t a inv stepped

theorem rearmed_refused (ch : Channels) (e : ArmEnv) (s : OnlineSystem) (rest : List TaskOp)
    (begins : s.stage = .outside)
    (refused : ringsReady s.rx.rx = false ∨ mapsNext e.buf s.rx.rx = false) :
    ¬ Rearmed ch e (armStep ch e s rest) ∧
      ringsReady (armStep ch e s rest).rx.rx = ringsReady s.rx.rx ∧
      allocated (armStep ch e s rest).rx.rx = allocated s.rx.rx := by
  obtain ⟨calls, ends⟩ := armStep_refused ch e s rest begins refused
  obtain ⟨_, _, bufs, ready⟩ := postRxBuffers_refused ch e s.rx.rx refused
  rw [ends]
  refine ⟨fun right => ?_, ready, allocated_congr _ _ bufs⟩
  have made := right.made
  simp [armWrites, creditWrites] at made

/-- The last part of a call ends a complete arming exactly when the engine was at the first slots
when the rings were cleared. -/
theorem rearmed_posted (ch : Channels) (e : ArmEnv) (s : OnlineSystem) (rest : List TaskOp)
    (start : RxEngine) (inv : CallInv ch s) (stage : s.stage = .posted start) :
    Rearmed ch e (armStep ch e s rest) ↔ start.descPos = 0 ∧ start.bufPos = 0 := by
  have done := inv.done
  rw [stage] at done
  obtain ⟨since, posted, made⟩ := done
  obtain ⟨desc, buf⟩ := inv.engine
  obtain ⟨desc', buf'⟩ := since.begun
  have order := since.order
  have cursor := posted.cursor
  simp only [rxRingSize, rxBufRingSize, numRxBufs] at desc buf desc' buf' cursor
  constructor
  · intro right
    have clean := right.clean
    have posts := right.posts
    simp only [armStep, stage, engine_enables, RxSystem.unprocessed, rxRingSize, rxBufRingSize,
      numRxBufs] at clean posts
    omega
  · rintro ⟨atDesc, atBuf⟩
    simp only [armStep, stage]
    constructor
    · rw [made]
      rfl
    · intro slot free
      apply since.clear slot
      rintro ⟨j, low, high, same⟩
      exact free ⟨j, low, high, same⟩
    · exact posted.words
    · simp only [engine_enables, RxSystem.unprocessed, rxRingSize]
      omega
    · simp only [engine_enables, RxSystem.unprocessed, rxBufRingSize, rxRingSize, numRxBufs]
      omega

theorem arms_other (ch : Channels) (s t : OnlineSystem) (a : OnlineAction)
    (other : ∀ e rest, a = .op e → s.ops ≠ .postRxBuffers :: rest) :
    ArmsRight ch s a t ∧ canArm s a = true := by
  refine ⟨fun e rest here ops => absurd ops (other e rest here), ?_⟩
  cases a with
  | op e =>
      simp only [canArm]
      split
      · rename_i rest ops _
        exact absurd ops (other e rest rfl)
      · rename_i rest start ops _
        exact absurd ops (other e rest rfl)
      · rfl
  | _ => rfl

/-- What a part of a call that is its last one has to arm. -/
theorem armsRight_call (ch : Channels) (e : ArmEnv) (s t : OnlineSystem) (rest : List TaskOp)
    (ops : s.ops = .postRxBuffers :: rest) :
    ArmsRight ch s (.op e) t ↔
      (t.ops = rest → ringsReady t.rx.rx = true → allocated t.rx.rx = true → Rearmed ch e t) := by
  constructor
  · intro arms
    exact arms e rest rfl ops
  · intro arms e' rest' same ops'
    obtain rfl := OnlineAction.op.inj same
    obtain rfl := (List.cons.inj (ops.symm.trans ops')).2
    exact arms

/-- A refused call arms nothing, so it is right only without rings or without a buffer. -/
theorem arms_refused (ch : Channels) (e : ArmEnv) (s : OnlineSystem) (rest : List TaskOp)
    (ops : s.ops = .postRxBuffers :: rest) (stage : s.stage = .outside)
    (refused : ringsReady s.rx.rx = false ∨ mapsNext e.buf s.rx.rx = false) :
    ArmsRight ch s (.op e) (armStep ch e s rest) ↔
      ¬ (ringsReady s.rx.rx = true ∧ allocated s.rx.rx = true) := by
  obtain ⟨wrong, ready, had⟩ := rearmed_refused ch e s rest stage refused
  have done : (armStep ch e s rest).ops = rest := by
    obtain ⟨calls, ended⟩ := armStep_refused ch e s rest stage refused
    rw [ended]
  rw [armsRight_call ch e s _ rest ops, ready, had]
  constructor
  · rintro arms ⟨present, has⟩
    exact wrong (arms done present has)
  · intro none _ present has
    exact absurd ⟨present, has⟩ none

theorem arms_iff (ch : Channels) (s : OnlineSystem) (a : OnlineAction) (t : OnlineSystem)
    (reached : (onlineMachine ch).Reached s) (stepped : (onlineMachine ch).step s a = some t) :
    ArmsRight ch s a t ↔ canArm s a = true := by
  by_cases calls : ∃ e rest, a = .op e ∧ s.ops = .postRxBuffers :: rest
  · obtain ⟨e, rest, rfl, ops⟩ := calls
    obtain ⟨op, rest', ops', rfl⟩ := op_step ch s t e stepped
    obtain ⟨rfl, rfl⟩ := List.cons.inj (ops.symm.trans ops')
    have inv := callInv_reached ch s reached
    -- The call ends here exactly with a refused allocation and with its last part.
    simp only [onlineOp]
    cases stage : s.stage with
    | outside =>
        by_cases granted : ringsReady s.rx.rx = true ∧ mapsNext e.buf s.rx.rx = true
        · rw [armsRight_call ch e s _ rest ops, armStep_granted ch e s rest stage granted.1 granted.2]
          simp only [canArm, ops, stage, granted.2, Bool.or_true, iff_true]
          intro ends
          simp at ends
        · have refused : ringsReady s.rx.rx = false ∨ mapsNext e.buf s.rx.rx = false := by
            simpa only [not_and_or, Bool.not_eq_true] using granted
          rw [arms_refused ch e s rest ops stage refused]
          simp only [canArm, ops, stage]
          cases present : ringsReady s.rx.rx with
          | false => simp
          | true => simp [refused.resolve_left (by simp [present])]
    | posted start =>
        obtain ⟨_, ready, had⟩ := inv.calling (by simp [stage])
        have right := rearmed_posted ch e s rest start inv stage
        rw [armsRight_call ch e s _ rest ops, right]
        simp only [canArm, ops, stage, Bool.and_eq_true, beq_iff_eq]
        constructor
        · intro arms
          apply arms
          · simp only [armStep, stage]
          · simp only [armStep, stage]
            exact ready
          · simp only [armStep, stage]
            exact had
        · intro first _ _ _
          exact first
    | allocated =>
        rw [armsRight_call ch e s _ rest ops]
        simp only [canArm, ops, stage, iff_true]
        intro ends
        simp [armStep, stage, ops] at ends
    | cleared start =>
        rw [armsRight_call ch e s _ rest ops]
        simp only [canArm, ops, stage, iff_true]
        intro ends
        simp [armStep, stage, ops] at ends
  · have other := arms_other ch s t a fun e rest here ops => calls ⟨e, rest, here, ops⟩
    exact ⟨fun _ => other.2, fun _ => other.1⟩

structure Untouched (s : RxSystem) : Prop where
  credits : s.engine.chanCredits = 0
  count : s.count = 0
  ring : ∀ slot, s.rx.rxRing.get slot = 0#64
  buffers : allocated s.rx = false

/-- No slot holds a completion that was written while the unit was offline. -/
def NoLate (s : OnlineSystem) : Prop :=
  ∀ slot, owned (s.rx.rx.rxRing.get slot) = true → s.late.get slot = false

def ToClear (s : OnlineSystem) : Prop :=
  .postRxBuffers ∈ s.ops ∧ (s.stage = .outside ∨ s.stage = .allocated)

structure LateInv (s : OnlineSystem) : Prop where
  bought : Untouched s.rx ∨ ringsReady s.rx.rx = true ∧ allocated s.rx.rx = true
  fresh : s.online = true → ToClear s ∨ NoLate s

theorem noLate_clear (s : OnlineSystem) (clear : ∀ slot, s.rx.rx.rxRing.get slot = 0#64) :
    NoLate s := by
  intro slot ready
  rw [clear slot] at ready
  exact absurd ready (by decide)

theorem commandOps_posts (now : Bool) (c : Command) (ops : List TaskOp)
    (ending : .setOnline true :: ops <:+ (commandOps now c).1) : .postRxBuffers ∈ ops := by
  have up : .setOnline true :: ops <:+ goOnline now → .postRxBuffers ∈ ops := by
    intro ending
    cases now with
    | true => cases List.eq_nil_of_suffix_nil ending
    | false =>
        simp only [goOnline, Bool.false_eq_true, if_false, List.suffix_cons_iff, List.suffix_nil,
          List.cons.injEq] at ending
        rcases ending with ⟨_, rfl⟩ | ⟨first, _⟩ | ⟨first, _⟩ | none
        · exact List.mem_cons_self
        · cases first
        · cases first
        · cases none
  cases c with
  | configInterface => exact up ending
  | online => exact up ending
  | offline =>
      have member := ending.subset List.mem_cons_self
      simp [commandOps] at member
  | cmdFlush =>
      have member := ending.subset List.mem_cons_self
      simp [commandOps] at member
  | _ => cases ending.subset List.mem_cons_self

theorem lateInv_call (ch : Channels) (s : OnlineSystem) (e : ArmEnv) (rest : List TaskOp)
    (inv : LateInv s) (call : CallInv ch s) (ops : s.ops = .postRxBuffers :: rest)
    (can : canArm s (.op e) = true) : LateInv (armStep ch e s rest) := by
  have online := call.online rest ops
  have bought := fun begun => (call.calling begun).2
  cases stage : s.stage with
  | outside =>
      by_cases granted : ringsReady s.rx.rx = true ∧ mapsNext e.buf s.rx.rx = true
      · have after := (callInv_begin ch s e rest call ops stage).calling
        rw [armStep_granted ch e s rest stage granted.1 granted.2] at after ⊢
        refine ⟨.inr (after (by simp)).2, fun _ => .inl ⟨?_, .inr rfl⟩⟩
        simp only [ops]
        exact List.mem_cons_self
      · have refused : ringsReady s.rx.rx = false ∨ mapsNext e.buf s.rx.rx = false := by
          simpa only [not_and_or, Bool.not_eq_true] using granted
        have new : Untouched s.rx := by
          refine inv.bought.resolve_right fun had => ?_
          obtain ⟨ready, had⟩ := had
          rw [ready, eq_self, true_and] at granted
          simp [canArm, ops, stage, ready, had, granted] at can
        obtain ⟨calls, ends⟩ := armStep_refused ch e s rest stage refused
        obtain ⟨_, ring, bufs, _⟩ := postRxBuffers_refused ch e s.rx.rx refused
        have clear : ∀ slot, (postRxBuffers ch e s.rx.rx).1.rxRing.get slot = 0#64 := by
          intro slot
          rw [ring]
          exact new.ring slot
        rw [ends]
        refine ⟨.inl ⟨new.credits, new.count, clear, ?_⟩, fun _ => .inr (noLate_clear _ clear)⟩
        exact (allocated_congr _ _ bufs).trans new.buffers
  | allocated =>
      obtain ⟨ring, _, ready, had⟩ := clearRings_facts s.rx.rx
      obtain ⟨readyBefore, hadBefore⟩ := bought (by simp [stage])
      simp only [armStep, stage]
      exact ⟨.inr ⟨ready.trans readyBefore, had.trans hadBefore⟩,
        fun _ => .inr (noLate_clear _ ring)⟩
  | cleared start =>
      obtain ⟨ring, ready, had⟩ := postRings_facts s.rx.rx
      obtain ⟨readyBefore, hadBefore⟩ := bought (by simp [stage])
      have none := (inv.fresh online).resolve_left fun later => by
        rcases later.2 with before | before <;> rw [stage] at before <;> cases before
      simp only [armStep, stage]
      refine ⟨.inr ⟨ready.trans readyBefore, had.trans hadBefore⟩, fun _ => .inr fun slot owns => ?_⟩
      rw [ring] at owns
      exact none slot owns
  | posted start =>
      have none := (inv.fresh online).resolve_left fun later => by
        rcases later.2 with before | before <;> rw [stage] at before <;> cases before
      simp only [armStep, stage]
      exact ⟨.inr (bought (by simp [stage])), fun _ => .inr none⟩

theorem lateInv_op (ch : Channels) (s t : OnlineSystem) (e : ArmEnv) (inv : LateInv s)
    (call : CallInv ch s) (can : canArm s (.op e) = true)
    (stepped : onlineStep ch s (.op e) = some t) : LateInv t := by
  obtain ⟨op, rest, ops, rfl⟩ := op_step ch s t e stepped
  by_cases calls : op = .postRxBuffers
  · subst calls
    exact lateInv_call ch s e rest inv call ops can
  · have before : s.stage = .outside := by
      by_contra begun
      obtain ⟨⟨rest', calling⟩, _⟩ := call.calling begun
      exact calls (List.cons.inj (ops.symm.trans calling)).1
    have later : ToClear s → .postRxBuffers ∈ rest := by
      rintro ⟨listed, _⟩
      rw [ops] at listed
      exact (List.mem_cons.mp listed).resolve_left fun same => calls same.symm
    obtain ⟨now, c, ending⟩ := call.ending
    rw [ops] at ending
    cases op with
    | setOnline online =>
        refine ⟨inv.bought, fun now' => .inl ?_⟩
        obtain rfl : online = true := now'
        exact ⟨commandOps_posts now c rest ending, .inl before⟩
    | postRxBuffers => exact absurd rfl calls
    | _ =>
        refine ⟨inv.bought, fun online => (inv.fresh online).imp_left fun listed => ?_⟩
        exact ⟨later listed, .inl before⟩

theorem markGroup_get (late : Ring rxRingSize Bool) (pos slot : Nat) (mark : Bool) :
    (markGroup late pos mark).get slot =
      if slot % 2048 = (pos + 3) % 2048 ∨ slot % 2048 = (pos + 2) % 2048 ∨
          slot % 2048 = (pos + 1) % 2048 ∨ slot % 2048 = pos % 2048 then mark
      else late.get slot := by
  simp only [markGroup, Ring.get_set]
  split_ifs <;> simp_all

theorem noLate_complete (s : OnlineSystem) (c : Completion) (online : s.online = true)
    (none : NoLate s) (engine : RxEngine) (written : Nat) :
    NoLate { s with
      rx :=
        { s.rx with
          rx := { s.rx.rx with rxRing := writeGroup s.rx.rx.rxRing s.rx.engine.descPos c }
          engine := engine
          written := written }
      late := markGroup s.late s.rx.engine.descPos (!s.online) } := by
  intro slot ready
  simp only [markGroup_get, online]
  split
  · rfl
  · rename_i apart
    simp only [not_or] at apart
    simp only [writeGroup_get, if_neg apart.1, if_neg apart.2.1, if_neg apart.2.2.1,
      if_neg apart.2.2.2] at ready
    exact none slot ready

theorem noLate_iterate (s : OnlineSystem) (v : RxLoop) (g : RxGroup) (none : NoLate s)
    (loop : Option RxLoop) (cleaned : Nat) :
    NoLate { s with
      rx := { s.rx with rx := (nextDesc s.rx.rx v g).1, loop := loop, cleaned := cleaned } } := by
  intro slot ready
  simp only [nextDesc_get] at ready
  split at ready
  · rw [owned_zero] at ready
    cases ready
  · exact none slot ready

theorem bought_receive (ch : Channels) (s t : RxSystem) (a : RxAction)
    (bought : Untouched s ∨ ringsReady s.rx = true ∧ allocated s.rx = true)
    (moved : rxStep ch chanConforms s a = some t) :
    Untouched t ∨ ringsReady t.rx = true ∧ allocated t.rx = true := by
  cases a with
  | complete c =>
      obtain ⟨conforms, rfl⟩ := complete_step ch chanConforms s t c moved
      refine .inr (bought.resolve_left fun new => ?_)
      simp [chanConforms, new.credits] at conforms
  | enter =>
      obtain ⟨_, rfl⟩ := enter_step ch chanConforms s t moved
      exact bought.imp_left fun new => ⟨new.credits, rfl, new.ring, new.buffers⟩
  | iterate =>
      obtain ⟨v, g, _, fetched, rfl⟩ := iterate_step ch chanConforms s t moved
      obtain ⟨ready, had⟩ := bought.resolve_left fun new => by
        have owns := fetchGroup_owned s.rx v.n g fetched
        rw [new.ring, owned_zero] at owns
        cases owns
      exact .inr ⟨(nextDesc_ready _ v g).trans ready,
        (allocated_congr _ _ (nextDesc_rxBufs _ v g).1).trans had⟩
  | leave =>
      obtain ⟨v, inside, _, rfl⟩ := leave_step ch chanConforms s t moved
      refine bought.imp_left fun new => ⟨?_, rfl, new.ring, new.buffers⟩
      have idle : v.count = 0 := by simpa only [RxSystem.count, inside] using new.count
      simpa [leaveRing, idle, RxEngine.writes] using new.credits

theorem lateInv_receive (ch : Channels) (s t : OnlineSystem) (a : RxAction) (inv : LateInv s)
    (stepped : onlineStep ch s (.receive a) = some t) : LateInv t := by
  obtain ⟨_, rx, moved, rfl⟩ := receive_step ch s t a stepped
  have bought := bought_receive ch s.rx rx a inv.bought moved
  cases a with
  | complete c =>
      obtain ⟨_, rfl⟩ := complete_step ch chanConforms s.rx rx c moved
      exact ⟨bought, fun online =>
        (inv.fresh online).imp_right fun none => noLate_complete s c online none _ _⟩
  | enter =>
      obtain ⟨_, rfl⟩ := enter_step ch chanConforms s.rx rx moved
      exact ⟨bought, inv.fresh⟩
  | iterate =>
      obtain ⟨v, g, _, _, rfl⟩ := iterate_step ch chanConforms s.rx rx moved
      exact ⟨bought, fun online =>
        (inv.fresh online).imp_right fun none => noLate_iterate s v g none _ _⟩
  | leave =>
      obtain ⟨v, _, _, rfl⟩ := leave_step ch chanConforms s.rx rx moved
      exact ⟨bought, inv.fresh⟩

theorem lateInv_reached (ch : Channels) (s : OnlineSystem)
    (reached : ((onlineMachine ch).allow canArm).Reached s) : LateInv s := by
  refine ((onlineMachine ch).allow canArm).invariant_within LateInv ?_ ?_ s reached
  · intro s cold
    refine ⟨.inl ?_, fun _ => .inr (noLate_clear s cold.ring)⟩
    exact ⟨by rw [cold.engine]; rfl, by simp [RxSystem.count, cold.outside], cold.ring, cold.buffers⟩
  · intro s a t before inv moved
    obtain ⟨can, stepped⟩ := (onlineMachine ch).allow_step canArm s t a moved
    have call := callInv_reached ch s ((onlineMachine ch).reached_allow canArm s before)
    cases a with
    | command c =>
        obtain ⟨idle, _, rfl⟩ := command_step ch s t c stepped
        refine ⟨inv.bought, fun online => .inr ?_⟩
        refine (inv.fresh online).resolve_left fun later => ?_
        rw [ToClear, idle] at later
        cases later.1
    | op e => exact lateInv_op ch s t e inv call can stepped
    | receive a => exact lateInv_receive ch s t a inv stepped

/-- Along every run the calls of `PostRxBuffers` arm completely exactly as long as each is granted
a new buffer and clears the rings while the engine is at the first slot of both, and in such runs
`ProcessRX` comes upon no frame that was completed while the unit was offline. -/
theorem rearm_iff (ch : Channels) (s : OnlineSystem) (reached : (onlineMachine ch).Reached s) :
    (∀ actions, (onlineMachine ch).Along (ArmsRight ch) s actions ↔
      (onlineMachine ch).Along (fun s a _ => canArm s a = true) s actions) ∧
    (((onlineMachine ch).allow canArm).Reached s → ∀ v g, s.rx.loop = some v →
      fetchGroup s.rx.rx v.n = some g → s.late.get v.n = false) := by
  constructor
  · exact (onlineMachine ch).along_iff (ArmsRight ch) _
      (fun s a t reached stepped => arms_iff ch s a t reached stepped) s reached
  · intro allowed v g inside fetched
    obtain ⟨online, idle⟩ := (callInv_reached ch s reached).inside (by simp [inside])
    have fresh := (lateInv_reached ch s allowed).fresh online
    refine (fresh.resolve_left fun later => ?_) v.n (fetchGroup_owned s.rx.rx v.n g fetched)
    rw [ToClear, idle] at later
    cases later.1

def coldOnline : OnlineSystem :=
  { rx := ⟨coldRx, none, RxEngine.reset, 0, 0⟩
    online := false
    ops := []
    stage := .outside
    made := []
    calls := []
    late := Ring.fill rxRingSize false }

theorem coldOnline_cold : ColdReceive coldOnline where
  offline := rfl
  idle := rfl
  stage := rfl
  calls := rfl
  outside := rfl
  engine := rfl
  written := rfl
  ring := fun _ => rfl
  buffers := by decide +kernel
  unmapped := fun _ _ => rfl

/-- A command and its first `steps` parts, while memory holds out for `count` buffers. -/
def handled (c : Command) (count steps : Nat) : List OnlineAction :=
  .command c :: List.replicate steps (.op (mappedEnv count))

def frameDone : OnlineAction :=
  .receive (.complete
    ⟨xctMacrxO ||| 0x4000000000#64, 0x1000000#64, 0x10000#64, 0#64⟩)

/-- One session with one buffer, and a frame after it. -/
def frameAfterSession : List OnlineAction :=
  handled .online 1 6 ++ handled .offline 1 3 ++ [frameDone]

/-- The first transition, with memory for one buffer. -/
theorem rearm_iff_first :
    ∃ s, (onlineMachine ⟨0, 0, 0⟩).Reached s ∧ s.stage = .posted RxEngine.reset ∧
      (onlineMachine ⟨0, 0, 0⟩).Along (ArmsRight ⟨0, 0, 0⟩) s [.op (mappedEnv 1)] := by
  obtain ⟨s, reached, shape⟩ := (onlineMachine ⟨0, 0, 0⟩).run_shape
    (fun s => (s.stage, canArm s (.op (mappedEnv 1)))) (.posted RxEngine.reset, true) coldOnline
    (handled .online 1 4) (.start _ coldOnline_cold) (by decide +kernel)
  obtain ⟨stage, can⟩ := Prod.mk.inj shape
  exact ⟨s, reached, stage, ((rearm_iff ⟨0, 0, 0⟩ s reached).1 [.op (mappedEnv 1)]).mpr
    fun _ _ => ⟨can, trivial⟩⟩

/-- On the second transition memory holds no further buffer and nothing is armed, or it holds one
and the cursors go back to a slot where the engine is not; and in the first case `ProcessRX` finds
a valid frame from the time when the unit was offline. -/
theorem rearm_fails :
    (∃ s t, (onlineMachine ⟨0, 0, 0⟩).Reached s ∧ s.stage = .outside ∧
      (onlineMachine ⟨0, 0, 0⟩).step s (.op (mappedEnv 1)) = some t ∧
      ¬ ArmsRight ⟨0, 0, 0⟩ s (.op (mappedEnv 1)) t) ∧
    (∃ s t, (onlineMachine ⟨0, 0, 0⟩).Reached s ∧ s.stage ≠ .outside ∧
      (onlineMachine ⟨0, 0, 0⟩).step s (.op (mappedEnv 2)) = some t ∧
      ¬ ArmsRight ⟨0, 0, 0⟩ s (.op (mappedEnv 2)) t) ∧
    ∃ s v g len, (onlineMachine ⟨0, 0, 0⟩).Reached s ∧ s.online = true ∧ s.rx.loop = some v ∧
      fetchGroup s.rx.rx v.n = some g ∧ checkGroup s.rx.rx g = .ok len ∧
      s.late.get v.n = true := by
  have fails : ∀ count steps outside, (((onlineMachine ⟨0, 0, 0⟩).run coldOnline
      (frameAfterSession ++ handled .online count steps)).map fun s =>
        (decide (s.stage = .outside), canArm s (.op (mappedEnv count)),
          (onlineStep ⟨0, 0, 0⟩ s (.op (mappedEnv count))).isSome)) = some (outside, false, true) →
      ∃ s t, (onlineMachine ⟨0, 0, 0⟩).Reached s ∧ decide (s.stage = .outside) = outside ∧
        (onlineMachine ⟨0, 0, 0⟩).step s (.op (mappedEnv count)) = some t ∧
        ¬ ArmsRight ⟨0, 0, 0⟩ s (.op (mappedEnv count)) t := by
    intro count steps outside ran
    obtain ⟨s, reached, shape⟩ := (onlineMachine ⟨0, 0, 0⟩).run_shape _ _ coldOnline _
      (.start _ coldOnline_cold) ran
    simp only [Prod.mk.injEq] at shape
    obtain ⟨stage, can, stepped⟩ := shape
    obtain ⟨t, stepped⟩ := Option.isSome_iff_exists.mp stepped
    refine ⟨s, t, reached, stage, stepped, fun arms => ?_⟩
    rw [(arms_iff ⟨0, 0, 0⟩ s (.op (mappedEnv count)) t reached stepped).mp arms] at can
    cases can
  obtain ⟨s, t, first⟩ := fails 1 1 true (by decide +kernel)
  obtain ⟨x, y, second⟩ := fails 2 4 false (by decide +kernel)
  refine ⟨⟨s, t, by simpa using first⟩, ⟨x, y, by simpa using second⟩, ?_⟩
  have ran : (((onlineMachine ⟨0, 0, 0⟩).run coldOnline
      (frameAfterSession ++ handled .online 1 3 ++ [.receive .enter])).map fun s =>
          (s.online, s.rx.loop, (fetchGroup s.rx.rx 0).map fun g =>
            (checkGroup s.rx.rx g).toOption, s.late.get 0)) =
      some (true, some ⟨0, 0, 0⟩, some (some 60#32), true) := by
    decide +kernel
  obtain ⟨s, reached, shape⟩ := (onlineMachine ⟨0, 0, 0⟩).run_shape _ _ coldOnline _
    (.start _ coldOnline_cold) ran
  simp only [Prod.mk.injEq, Option.map_eq_some_iff] at shape
  obtain ⟨online, inside, ⟨g, fetched, valid⟩, late⟩ := shape
  cases checked : checkGroup s.rx.rx g with
  | error drop =>
      rw [checked] at valid
      cases valid
  | ok len => exact ⟨s, ⟨0, 0, 0⟩, g, len, reached, online, inside, fetched, checked, late⟩

end Pa6tEth

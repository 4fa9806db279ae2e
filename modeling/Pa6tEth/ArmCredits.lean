import Pa6tEth.RxBuffers
import Pa6tEth.Rearm

/-! What `PA6TEth_PostRxBuffers` credits to the engine: the slots up to its write cursor, whether
or not a buffer is there. -/

namespace Pa6tEth

open Support

/-- The slot is one of those that the engine may consume: as many as it has buffer credits for, from
its own position on. -/
def Credited (s : RxSystem) (slot : Nat) : Prop :=
  ∃ k < s.engine.bufCredits, slot = (s.engine.bufPos + k) % rxBufRingSize

/-- The buffer is one that a call got from the system, allocated and mapped. -/
def Granted (calls : List ArmEnv) (u : UnitRx) (i : Nat) : Prop :=
  ∃ e ∈ calls, (e.buf i).mapped = true ∧ u.rxBufs i = (e.buf i).virt ∧
    u.rxBufsPhys i = (e.buf i).phys

/-- Each credited slot posts a buffer of the calls so far by its address, and none is zero; the write
cursor is behind the last one. -/
structure CreditsReal (calls : List ArmEnv) (s : RxSystem) : Prop where
  slots : ∀ slot, Credited s slot → s.rx.rxBufRing.get slot ≠ 0#64 ∧
    ∃ i < numRxBufs, Granted calls s.rx i ∧ s.rx.rxBufsPhys i ≠ 0#32 ∧
      s.rx.rxBufRing.get slot = rxbWord (s.rx.rxBufsPhys i)
  cursor : s.rx.rxBufWritePtr % rxBufRingSize =
    (s.engine.bufPos + s.engine.bufCredits) % rxBufRingSize

/-- A buffer is there with its address from one of the calls, or neither is there. -/
def BufsGranted (u : UnitRx) (calls : List ArmEnv) : Prop :=
  ∀ i < numRxBufs, u.rxBufs i = 0 ∧ u.rxBufsPhys i = 0#32 ∨ Granted calls u i

/-- The buffer is as it was, or it was missing and is new, or still missing without an address. -/
def BufAfter (o : BufOutcome) (u v : UnitRx) (i : Nat) : Prop :=
  v.rxBufs i = u.rxBufs i ∧ v.rxBufsPhys i = u.rxBufsPhys i ∨
    u.rxBufs i = 0 ∧ (v.rxBufs i = 0 ∧ v.rxBufsPhys i = 0#32 ∨
      o.mapped = true ∧ v.rxBufs i = o.virt ∧ v.rxBufsPhys i = o.phys)

theorem mapRxBuf_other (o : BufOutcome) (i j : Nat) (u : UnitRx) (apart : j ≠ i) :
    (mapRxBuf o i u).1.rxBufs j = u.rxBufs j ∧ (mapRxBuf o i u).1.rxBufsPhys j = u.rxBufsPhys j := by
  simp only [mapRxBuf]
  split_ifs <;> simp [apart]

theorem mapRxBuf_after (o : BufOutcome) (i : Nat) (u : UnitRx) (missing : u.rxBufs i = 0) :
    BufAfter o u (mapRxBuf o i u).1 i := by
  cases mapped : o.mapped with
  | true =>
      rw [mapRxBuf_mapped o i u mapped]
      exact .inr ⟨missing, .inr ⟨mapped, by simp, by simp⟩⟩
  | false =>
      have pointers := (mapRxBuf_failed o i u mapped).2
      have address : (mapRxBuf o i u).1.rxBufsPhys i = u.rxBufsPhys i ∨
          (mapRxBuf o i u).1.rxBufsPhys i = 0#32 := by
        simp only [BufOutcome.mapped, Bool.and_eq_false_iff, decide_eq_false_iff_not,
          not_not] at mapped
        simp only [mapRxBuf]
        split_ifs with virt entries list phys
        · exact .inl rfl
        · exact .inl rfl
        · exact .inl rfl
        · exact .inr (by simpa using phys)
        · simp_all
      rcases address with same | none
      · exact .inl ⟨congrFun pointers i, same⟩
      · exact .inr ⟨missing, .inl ⟨(congrFun pointers i).trans missing, none⟩⟩

theorem allocRxBufs_below (buf : Nat → BufOutcome) (left i j : Nat) (u : UnitRx) (nalloced : Nat)
    (below : j < i) :
    (allocRxBufs buf left i u nalloced).1.rxBufs j = u.rxBufs j ∧
      (allocRxBufs buf left i u nalloced).1.rxBufsPhys j = u.rxBufsPhys j := by
  induction left generalizing i u nalloced with
  | zero => exact ⟨rfl, rfl⟩
  | succ left ih =>
      have other := mapRxBuf_other (buf i) i j u (by omega)
      simp only [allocRxBufs]
      split
      · exact ih (i + 1) u nalloced (by omega)
      · split
        · rename_i v mapped
          rw [mapped] at other
          obtain ⟨pointer, address⟩ := ih (i + 1) v (nalloced + 1) (by omega)
          exact ⟨pointer.trans other.1, address.trans other.2⟩
        · rename_i v failed
          rw [failed] at other
          exact other

theorem allocRxBufs_after (buf : Nat → BufOutcome) (left i j : Nat) (u : UnitRx) (nalloced : Nat) :
    BufAfter (buf j) u (allocRxBufs buf left i u nalloced).1 j := by
  induction left generalizing i u nalloced with
  | zero => exact .inl ⟨rfl, rfl⟩
  | succ left ih =>
      have other := fun apart => mapRxBuf_other (buf i) i j u apart
      have here := mapRxBuf_after (buf i) i u
      simp only [allocRxBufs]
      split
      · exact ih (i + 1) u nalloced
      · rename_i missing
        have missing : u.rxBufs i = 0 := by simpa using missing
        split
        · rename_i v mapped
          rw [mapped] at other here
          by_cases first : j = i
          · subst first
            obtain ⟨pointer, address⟩ :=
              allocRxBufs_below buf left (j + 1) j v (nalloced + 1) (by omega)
            simpa only [BufAfter, pointer, address] using here missing
          · obtain ⟨pointer, address⟩ := other first
            have later := ih (i + 1) v (nalloced + 1)
            simp only at pointer address
            rwa [BufAfter, pointer, address] at later
        · rename_i v failed
          rw [failed] at other here
          by_cases first : j = i
          · subst first
            exact here missing
          · exact .inl (other first)

theorem allocRxBufs_full (buf : Nat → BufOutcome) (left i : Nat) (u : UnitRx) (nalloced : Nat)
    (good : ∀ j, i ≤ j → j < i + left → u.rxBufs j ≠ 0 ∨ (buf j).mapped = true) :
    ∀ j, i ≤ j → j < i + left → (allocRxBufs buf left i u nalloced).1.rxBufs j ≠ 0 := by
  induction left generalizing i u nalloced with
  | zero =>
      intro j low high
      omega
  | succ left ih =>
      intro j low high
      have first := good i (Nat.le_refl i) (by omega)
      simp only [allocRxBufs]
      split
      · rename_i there
        by_cases here : j = i
        · subst here
          rw [(allocRxBufs_below buf left (j + 1) j u nalloced (by omega)).1]
          exact there
        · exact ih (i + 1) u nalloced (fun k low high => good k (by omega) (by omega)) j
            (by omega) (by omega)
      · rename_i missing
        have mapped := first.resolve_left missing
        have virt : (buf i).virt ≠ 0 := by
          simp only [BufOutcome.mapped, Bool.and_eq_true, decide_eq_true_eq] at mapped
          exact mapped.1.1.1
        have grows := fun k there => mapRxBuf_grows (buf i) i k u there
        rw [mapRxBuf_mapped (buf i) i u mapped] at grows ⊢
        simp only at grows ⊢
        by_cases here : j = i
        · subst here
          rw [(allocRxBufs_below buf left (j + 1) j _ (nalloced + 1) (by omega)).1]
          simpa using virt
        · refine ih (i + 1) _ (nalloced + 1) (fun k low high => ?_) j (by omega) (by omega)
          exact (good k (by omega) (by omega)).imp_left (grows k)

theorem allocRxBufs_granted (e : ArmEnv) (u : UnitRx) (calls : List ArmEnv)
    (granted : BufsGranted u calls) :
    BufsGranted (allocRxBufs e.buf numRxBufs 0 u 0).1 (calls ++ [e]) := by
  intro i small
  rcases allocRxBufs_after e.buf numRxBufs 0 i u 0 with ⟨pointer, address⟩ | ⟨_, none | some⟩
  · rw [pointer, address]
    refine (granted i small).imp_right ?_
    rintro ⟨earlier, member, mapped, virt, phys⟩
    exact ⟨earlier, List.mem_append_left _ member, mapped, pointer.trans virt, address.trans phys⟩
  · exact .inl none
  · exact .inr ⟨e, List.mem_append_right _ (List.mem_singleton_self e), some⟩

theorem allocRxBufs_all (e : ArmEnv) (u : UnitRx) :
    (∀ i < numRxBufs, (allocRxBufs e.buf numRxBufs 0 u 0).1.rxBufs i ≠ 0) ↔
      ∀ i < numRxBufs, u.rxBufs i ≠ 0 ∨ (e.buf i).mapped = true := by
  constructor
  · intro all i small
    have present := all i small
    rcases allocRxBufs_after e.buf numRxBufs 0 i u 0 with ⟨pointer, _⟩ | ⟨_, none | some⟩
    · exact .inl (pointer ▸ present)
    · exact absurd none.1 present
    · exact .inr some.1
  · intro good i small
    exact allocRxBufs_full e.buf numRxBufs 0 u 0 (fun j _ high => good j (by omega)) i
      (Nat.zero_le i) (by omega)

theorem bufsGranted_congr (u v : UnitRx) (calls : List ArmEnv)
    (same : v.rxBufs = u.rxBufs ∧ v.rxBufsPhys = u.rxBufsPhys) (granted : BufsGranted u calls) :
    BufsGranted v calls := by
  simpa only [BufsGranted, Granted, same.1, same.2] using granted

theorem postRings_rxBufs (u : UnitRx) :
    (postRings u).rxBufs = u.rxBufs ∧ (postRings u).rxBufsPhys = u.rxBufsPhys := by
  simp only [postRings, (postLoop_frame numRxBufs u).2.1, (postLoop_frame numRxBufs u).2.2.1]
  trivial

theorem armStep_bufs (ch : Channels) (e : ArmEnv) (s : OnlineSystem) (rest : List TaskOp)
    (begun : s.stage ≠ .outside) :
    ((armStep ch e s rest).rx.rx.rxBufs = s.rx.rx.rxBufs ∧
      (armStep ch e s rest).rx.rx.rxBufsPhys = s.rx.rx.rxBufsPhys) ∧
      (armStep ch e s rest).calls = s.calls := by
  cases stage : s.stage with
  | outside => exact absurd stage begun
  | allocated =>
      simp only [armStep, stage]
      exact ⟨⟨rfl, rfl⟩, trivial⟩
  | cleared start =>
      simp only [armStep, stage, postRings_rxBufs, and_self]
  | posted start => simp only [armStep, stage, and_self]

theorem armStep_begins (ch : Channels) (e : ArmEnv) (s : OnlineSystem) (rest : List TaskOp)
    (begins : s.stage = .outside) :
    ((armStep ch e s rest).rx.rx = s.rx.rx ∧ (armStep ch e s rest).calls = s.calls ∧
        (armStep ch e s rest).stage = .outside) ∨
      ((armStep ch e s rest).rx.rx = (allocRxBufs e.buf numRxBufs 0 s.rx.rx 0).1 ∧
        (armStep ch e s rest).calls = s.calls ++ [e]) := by
  simp only [armStep, begins]
  split
  · exact .inl ⟨rfl, rfl, rfl⟩
  · right
    split
    · rename_i u none
      exact ⟨by rw [none], rfl⟩
    · rename_i u more some
      exact ⟨by rw [some], rfl⟩

theorem bufsGranted_op (ch : Channels) (s t : OnlineSystem) (e : ArmEnv)
    (granted : BufsGranted s.rx.rx s.calls) (stepped : onlineStep ch s (.op e) = some t) :
    BufsGranted t.rx.rx t.calls := by
  obtain ⟨op, rest, ops, rfl⟩ := op_step ch s t e stepped
  cases op with
  | postRxBuffers =>
      simp only [onlineOp]
      by_cases begins : s.stage = .outside
      · rcases armStep_begins ch e s rest begins with ⟨rx, calls, _⟩ | ⟨rx, calls⟩
        · rw [rx, calls]
          exact granted
        · rw [rx, calls]
          exact allocRxBufs_granted e s.rx.rx s.calls granted
      · obtain ⟨same, calls⟩ := armStep_bufs ch e s rest begins
        rw [calls]
        exact bufsGranted_congr _ _ _ same granted
  | _ => exact granted

theorem receive_bufs (ch : Channels) (s t : OnlineSystem) (a : RxAction)
    (stepped : onlineStep ch s (.receive a) = some t) :
    (t.rx.rx.rxBufs = s.rx.rx.rxBufs ∧ t.rx.rx.rxBufsPhys = s.rx.rx.rxBufsPhys) ∧
      t.calls = s.calls := by
  obtain ⟨_, rx, moved, rfl⟩ := receive_step ch s t a stepped
  cases a with
  | complete c =>
      obtain ⟨_, rfl⟩ := complete_step ch chanConforms s.rx rx c moved
      exact ⟨⟨rfl, rfl⟩, rfl⟩
  | enter =>
      obtain ⟨_, rfl⟩ := enter_step ch chanConforms s.rx rx moved
      exact ⟨⟨rfl, rfl⟩, rfl⟩
  | iterate =>
      obtain ⟨v, g, _, _, rfl⟩ := iterate_step ch chanConforms s.rx rx moved
      exact ⟨nextDesc_rxBufs s.rx.rx v g, rfl⟩
  | leave =>
      obtain ⟨v, _, _, rfl⟩ := leave_step ch chanConforms s.rx rx moved
      exact ⟨⟨rfl, rfl⟩, rfl⟩

theorem bufsGranted_reached (ch : Channels) (s : OnlineSystem)
    (reached : (onlineMachine ch).Reached s) : BufsGranted s.rx.rx s.calls := by
  refine (onlineMachine ch).invariant (fun s => BufsGranted s.rx.rx s.calls) ?_ ?_ s reached
  · intro s cold i small
    refine .inl ⟨?_, cold.unmapped i small⟩
    by_contra present
    have allocated := (allocated_iff s.rx.rx).mpr ⟨i, small, present⟩
    rw [cold.buffers] at allocated
    cases allocated
  · intro s a t granted stepped
    cases a with
    | command c =>
        obtain ⟨_, _, rfl⟩ := command_step ch s t c stepped
        exact granted
    | op e => exact bufsGranted_op ch s t e granted stepped
    | receive a =>
        obtain ⟨same, calls⟩ := receive_bufs ch s t a stepped
        rw [calls]
        exact bufsGranted_congr _ _ _ same granted

theorem bufs_kept (ch : Channels) (s t : OnlineSystem) (a : OnlineAction)
    (calls : t.calls = s.calls) (stepped : (onlineMachine ch).step s a = some t) :
    t.rx.rx.rxBufs = s.rx.rx.rxBufs := by
  cases a with
  | command c =>
      obtain ⟨_, _, rfl⟩ := command_step ch s t c stepped
      rfl
  | op e =>
      obtain ⟨op, rest, ops, rfl⟩ := op_step ch s t e stepped
      cases op with
      | postRxBuffers =>
          simp only [onlineOp] at calls ⊢
          by_cases begins : s.stage = .outside
          · rcases armStep_begins ch e s rest begins with ⟨rx, _⟩ | ⟨_, more⟩
            · rw [rx]
            · rw [more] at calls
              simp at calls
          · exact (armStep_bufs ch e s rest begins).1.1
      | _ => rfl
  | receive a => exact (receive_bufs ch s t a stepped).1.1

theorem calls_grow (ch : Channels) (s t : OnlineSystem) (a : OnlineAction)
    (stepped : (onlineMachine ch).step s a = some t) : s.calls <+: t.calls := by
  cases a with
  | command c =>
      obtain ⟨_, _, rfl⟩ := command_step ch s t c stepped
      exact List.prefix_refl _
  | op e =>
      obtain ⟨op, rest, ops, rfl⟩ := op_step ch s t e stepped
      cases op with
      | postRxBuffers =>
          simp only [onlineOp]
          by_cases begins : s.stage = .outside
          · rcases armStep_begins ch e s rest begins with ⟨_, same, _⟩ | ⟨_, more⟩
            · rw [same]
            · rw [more]
              exact List.prefix_append _ _
          · rw [(armStep_bufs ch e s rest begins).2]
      | _ => exact List.prefix_refl _
  | receive a => rw [(receive_bufs ch s t a stepped).2]

theorem outside_kept (ch : Channels) (s t : OnlineSystem) (a : OnlineAction)
    (outside : s.stage = .outside) (calls : t.calls = s.calls)
    (stepped : (onlineMachine ch).step s a = some t) : t.stage = .outside := by
  cases a with
  | command c =>
      obtain ⟨_, _, rfl⟩ := command_step ch s t c stepped
      exact outside
  | op e =>
      obtain ⟨op, rest, ops, rfl⟩ := op_step ch s t e stepped
      cases op with
      | postRxBuffers =>
          simp only [onlineOp] at calls ⊢
          rcases armStep_begins ch e s rest outside with same | ⟨_, more⟩
          · exact same.2.2
          · rw [more] at calls
            simp at calls
      | _ => exact outside
  | receive a =>
      obtain ⟨_, rx, _, rfl⟩ := receive_step ch s t a stepped
      exact outside

/-- Along a run that begins no further call the buffers stay, and no call goes on that was over. -/
theorem run_kept (ch : Channels) (s t : OnlineSystem) (actions : List OnlineAction)
    (ran : (onlineMachine ch).run s actions = some t) :
    s.calls <+: t.calls ∧
      (t.calls = s.calls → t.rx.rx.rxBufs = s.rx.rx.rxBufs ∧
        (s.stage = .outside → t.stage = .outside)) := by
  induction actions generalizing s with
  | nil =>
      cases ran
      exact ⟨List.prefix_refl _, fun _ => ⟨rfl, id⟩⟩
  | cons a rest ih =>
      obtain ⟨u, stepped, later⟩ := (onlineMachine ch).run_cons s t a rest ran
      have first := calls_grow ch s u a stepped
      obtain ⟨second, kept⟩ := ih u later
      refine ⟨first.trans second, fun same => ?_⟩
      have between : u.calls = s.calls := by
        apply first.eq_of_length_le _ |>.symm
        calc
          u.calls.length ≤ t.calls.length := second.length_le
          _ = s.calls.length := by rw [same]
      obtain ⟨bufs, ended⟩ := kept (same.trans between.symm)
      constructor
      · calc
          t.rx.rx.rxBufs = u.rx.rx.rxBufs := bufs
          _ = s.rx.rx.rxBufs := bufs_kept ch s u a between stepped
      · exact fun outside => ended (outside_kept ch s u a outside between stepped)

theorem postRings_get (u : UnitRx) (empty : ∀ slot, u.rxBufRing.get slot = 0#64) (slot : Nat)
    (inside : slot < rxBufRingSize) :
    (postRings u).rxBufRing.get slot =
      if slot < numRxBufs ∧ u.rxBufsPhys slot ≠ 0#32 then rxbWord (u.rxBufsPhys slot)
      else 0#64 := by
  simp only [postRings]
  rw [postLoop_get numRxBufs slot u (le_refl _) inside, empty slot]

/-- As many credits as there are posted slots, and no more, begin at the first of them: the engine
stands there without credits, and every slot is posted. -/
theorem credits_fill (pos credits : Nat) (posted : Nat → Prop) (small : pos < rxBufRingSize)
    (few : ∀ slot, posted slot → slot < numRxBufs) :
    (∀ k < credits + numRxBufs, posted ((pos + k) % rxBufRingSize)) ↔
      (∀ i < numRxBufs, posted i) ∧ pos = 0 ∧ credits = 0 := by
  simp only [rxBufRingSize, rxRingSize, numRxBufs] at small few ⊢
  constructor
  · intro all
    have low : pos = 0 := by
      by_contra high
      by_cases inside : pos < 512
      · have last := few _ (all (512 - pos) (by omega))
        omega
      · have first := few _ (all 0 (by omega))
        omega
    subst low
    refine ⟨fun i less => ?_, rfl, ?_⟩
    · have here := all i (by omega)
      rwa [Nat.zero_add, Nat.mod_eq_of_lt (by omega)] at here
    · by_contra some
      have beyond := few _ (all 512 (by omega))
      omega
  · rintro ⟨all, rfl, rfl⟩ k less
    rw [Nat.zero_add, Nat.mod_eq_of_lt (by omega)]
    exact all k (by omega)

theorem posting_real (ch : Channels) (e : ArmEnv) (s : OnlineSystem) (rest : List TaskOp)
    (start : RxEngine) (reached : (onlineMachine ch).Reached s) (stage : s.stage = .cleared start) :
    CreditsReal (armStep ch e s rest).calls (armStep ch e s rest).rx ↔
      (∀ i < numRxBufs, s.rx.rx.rxBufs i ≠ 0) ∧ s.rx.engine.bufPos = 0 ∧
        s.rx.engine.bufCredits = 0 := by
  have inv := callInv_reached ch s reached
  have granted := bufsGranted_reached ch s reached
  have done := inv.done
  rw [stage] at done
  obtain ⟨_, empty⟩ := done
  have small : s.rx.engine.bufPos < rxBufRingSize := by
    rw [inv.engine.2]
    exact Nat.mod_lt _ (by decide)
  have addressed : ∀ i < numRxBufs, s.rx.rx.rxBufs i ≠ 0 ↔ s.rx.rx.rxBufsPhys i ≠ 0#32 := by
    intro i less
    rcases granted i less with ⟨pointer, address⟩ | ⟨call, _, mapped, virt, phys⟩
    · simp only [pointer, address, ne_eq, not_true_eq_false]
    · simp only [BufOutcome.mapped, Bool.and_eq_true, decide_eq_true_eq] at mapped
      rw [virt, phys]
      exact iff_of_true mapped.1.1.1 mapped.2
  let posted : Nat → Prop := fun slot => slot < numRxBufs ∧ s.rx.rx.rxBufs slot ≠ 0
  have fill := credits_fill s.rx.engine.bufPos s.rx.engine.bufCredits posted small
    fun _ here => here.1
  have all : (∀ i < numRxBufs, posted i) ↔ ∀ i < numRxBufs, s.rx.rx.rxBufs i ≠ 0 :=
    ⟨fun all i less => (all i less).2, fun all i less => ⟨less, all i less⟩⟩
  rw [← all, ← fill]
  have bufs := postRings_rxBufs s.rx.rx
  have within : ∀ k, (s.rx.engine.bufPos + k) % rxBufRingSize < rxBufRingSize :=
    fun k => Nat.mod_lt _ (by decide)
  simp only [armStep, stage, engine_credits]
  constructor
  · intro real k less
    have here := (real.slots _ ⟨k, less, rfl⟩).1
    rw [postRings_get s.rx.rx empty _ (within k)] at here
    have there : (s.rx.engine.bufPos + k) % rxBufRingSize < numRxBufs ∧
        s.rx.rx.rxBufsPhys ((s.rx.engine.bufPos + k) % rxBufRingSize) ≠ 0#32 := by
      by_contra none
      rw [if_neg none] at here
      exact here rfl
    exact ⟨there.1, (addressed _ there.1).mpr there.2⟩
  · intro real
    obtain ⟨_, atFirst, none⟩ := fill.mp real
    constructor
    · rintro slot ⟨k, less, rfl⟩
      obtain ⟨low, there⟩ := real k less
      have address := (addressed _ low).mp there
      have word := postRings_get s.rx.rx empty _ (within k)
      rw [if_pos ⟨low, address⟩] at word
      have got := (granted _ low).resolve_left fun none => there none.1
      refine ⟨by rw [word]; exact rxbWord_present _, _, low, ?_, ?_, ?_⟩
      · simpa only [Granted, bufs.1, bufs.2] using got
      · simpa only [bufs.2] using address
      · simpa only [bufs.2] using word
    · simp only [atFirst, none, postRings, numRxBufs, Nat.zero_add]

theorem op_uncredited (ch : Channels) (s t : OnlineSystem) (e : ArmEnv)
    (other : ∀ start, s.stage ≠ .cleared start) (stepped : onlineStep ch s (.op e) = some t) :
    t.rx.engine = s.rx.engine := by
  obtain ⟨op, rest, ops, rfl⟩ := op_step ch s t e stepped
  cases op with
  | postRxBuffers =>
      simp only [onlineOp]
      cases stage : s.stage with
      | outside =>
          simp only [armStep, stage]
          split
          · rfl
          · split <;> rfl
      | allocated => simp only [armStep, stage]
      | cleared start => exact absurd stage (other start)
      | posted start => simp only [armStep, stage, engine_enables]
  | _ => rfl

/-- In every run a call of `PostRxBuffers` credits buffers in one of its parts only, and the slots
that the engine may consume from then on are those of real buffers exactly when every buffer was
there before the call or is granted in it, and the engine stands at the first slot and has no credits
left when they are written. A call that ends with its allocation loop credits nothing. -/
theorem real_credits_iff (ch : Channels) (s t : OnlineSystem) (e : ArmEnv) (rest : List TaskOp)
    (reached : (onlineMachine ch).Reached s) (calling : s.ops = .postRxBuffers :: rest)
    (begins : s.stage = .outside) (stepped : (onlineMachine ch).step s (.op e) = some t) :
    t.rx.engine = s.rx.engine ∧
    ∀ actions u v e', (onlineMachine ch).run t actions = some u → u.calls = t.calls →
      (onlineMachine ch).step u (.op e') = some v →
      ((∀ start, u.stage ≠ .cleared start) → v.rx.engine = u.rx.engine) ∧
      ∀ start, u.stage = .cleared start →
        (CreditsReal v.calls v.rx ↔
          (∀ i < numRxBufs, s.rx.rx.rxBufs i ≠ 0 ∨ (e.buf i).mapped = true) ∧
            u.rx.engine.bufPos = 0 ∧ u.rx.engine.bufCredits = 0) := by
  have first : t = armStep ch e s rest := by
    obtain ⟨op, rest', ops, rfl⟩ := op_step ch s t e stepped
    obtain ⟨rfl, rfl⟩ := List.cons.inj (calling.symm.trans ops)
    rfl
  refine ⟨op_uncredited ch s t e (by simp [begins]) stepped, ?_⟩
  intro actions u v e' ran calls moved
  refine ⟨fun other => op_uncredited ch u v e' other moved, fun start stage => ?_⟩
  have after : (onlineMachine ch).Reached t := .step s (.op e) t reached stepped
  have reachedU := (onlineMachine ch).run_reached t u actions after ran
  have goesOn := (run_kept ch t u actions ran).2 calls
  -- A call whose loop ended it would still be over.
  have begun : t.rx.rx = (allocRxBufs e.buf numRxBufs 0 s.rx.rx 0).1 := by
    rw [first]
    rcases armStep_begins ch e s rest begins with ended | ⟨loop, _⟩
    · have still := goesOn.2 (first ▸ ended.2.2)
      rw [stage] at still
      cases still
    · exact loop
  have bufs : (∀ i < numRxBufs, u.rx.rx.rxBufs i ≠ 0) ↔
      ∀ i < numRxBufs, s.rx.rx.rxBufs i ≠ 0 ∨ (e.buf i).mapped = true := by
    rw [← allocRxBufs_all e s.rx.rx, ← begun, goesOn.1]
  obtain ⟨_, call, _⟩ := (callInv_reached ch u reachedU).calling (by simp [stage])
  obtain ⟨op, rest', ops, rfl⟩ := op_step ch u v e' moved
  obtain ⟨_, calling'⟩ := ((callInv_reached ch u reachedU).calling (by simp [stage])).1
  obtain ⟨rfl, rfl⟩ := List.cons.inj (ops.symm.trans calling')
  rw [← bufs]
  exact posting_real ch e' u _ start reachedU stage

theorem step_call (ch : Channels) (s : OnlineSystem) (e : ArmEnv) (rest : List TaskOp)
    (calling : s.ops = .postRxBuffers :: rest) :
    (onlineMachine ch).step s (.op e) = some (armStep ch e s rest) := by
  simp only [onlineMachine, onlineStep, calling, onlineOp]

theorem call_credits (ch : Channels) (s : OnlineSystem) (e : ArmEnv) (rest : List TaskOp)
    (calling : s.ops = .postRxBuffers :: rest) (begins : s.stage = .outside)
    (ready : ringsReady s.rx.rx = true) (next : mapsNext e.buf s.rx.rx = true) :
    ∃ t u v, (onlineMachine ch).step s (.op e) = some t ∧
      (onlineMachine ch).run t [.op e] = some u ∧ (onlineMachine ch).step u (.op e) = some v ∧
      u.calls = t.calls ∧ u.stage = .cleared s.rx.engine ∧ u.rx.engine = s.rx.engine ∧
      v.rx.engine.bufCredits = s.rx.engine.bufCredits + numRxBufs := by
  have shape := armStep_granted ch e s rest begins ready next
  have second := step_call ch (armStep ch e s rest) e rest (by rw [shape]; exact calling)
  have third := step_call ch (armStep ch e (armStep ch e s rest) rest) e rest
    (by rw [shape]; exact calling)
  refine ⟨_, _, _, step_call ch s e rest calling, ?_, third, ?_⟩
  · simp only [Machine.run, second, Option.bind_some]
  · rw [shape]
    simp only [armStep, engine_credits, and_self]

/-- The first transition, with memory for all buffers. -/
theorem real_credits_full :
    ∃ s, (onlineMachine ⟨0, 0, 0⟩).Reached s ∧ s.rx.engine.bufCredits = numRxBufs ∧
      CreditsReal s.calls s.rx := by
  let s : OnlineSystem :=
    { coldOnline with online := true, ops := .postRxBuffers :: (goOnline false).drop 2 }
  have reached : (onlineMachine ⟨0, 0, 0⟩).Reached s :=
    (onlineMachine ⟨0, 0, 0⟩).run_reached coldOnline s [.command .online, .op (mappedEnv 0)]
      (.start _ coldOnline_cold) rfl
  obtain ⟨t, u, v, first, second, third, calls, stage, engine, credits⟩ :=
    call_credits ⟨0, 0, 0⟩ s (mappedEnv numRxBufs) _ rfl rfl (by decide) (by decide +kernel)
  obtain ⟨_, call⟩ := real_credits_iff ⟨0, 0, 0⟩ s t _ _ reached rfl rfl first
  have real := (call [.op (mappedEnv numRxBufs)] u v _ second calls third).2 _ stage
  have atU := (onlineMachine ⟨0, 0, 0⟩).run_reached t u _ (.step s _ t reached first) second
  refine ⟨v, .step u _ v atU third, credits, real.mpr ⟨fun i small => ?_, ?_, ?_⟩⟩
  · exact .inr (mappedEnv_mapped i small)
  · rw [engine]
    rfl
  · rw [engine]
    rfl

/-- With memory for one buffer the engine may consume slots that are zero. -/
theorem zero_slots_credited :
    ∃ s, (onlineMachine ⟨0, 0, 0⟩).Reached s ∧ Credited s.rx 1 ∧
      s.rx.rx.rxBufRing.get 1 = 0#64 ∧ ¬ CreditsReal s.calls s.rx := by
  have ran : (((onlineMachine ⟨0, 0, 0⟩).run coldOnline (handled .online 1 4)).map fun s =>
      (s.rx.engine.bufPos, s.rx.engine.bufCredits, s.rx.rx.rxBufRing.get 1)) =
        some (0, 512, 0#64) := by
    decide +kernel
  obtain ⟨s, reached, shape⟩ := (onlineMachine ⟨0, 0, 0⟩).run_shape _ _ coldOnline _
    (.start _ coldOnline_cold) ran
  simp only [Prod.mk.injEq] at shape
  obtain ⟨pos, credits, word⟩ := shape
  have credited : Credited s.rx 1 := by
    refine ⟨1, by rw [credits]; decide, ?_⟩
    rw [pos]
    decide
  exact ⟨s, reached, credited, word, fun real => (real.slots 1 credited).1 word⟩

end Pa6tEth

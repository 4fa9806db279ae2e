import Pa6tEth.Resources
import Pa6tEth.TxEncoding

/-! A packet that `PA6TEth_TransmitPacket` does not send: what it undoes, and its one completion. -/

namespace Pa6tEth

open Support World

/-- Everything that one call of `TransmitPacket` does, in its order. -/
inductive PacketEvent
  | sys (call : SysCall)
  | obtainSemaphore
  | ring (event : TxEvent)
  | releaseSemaphore
  | reply (err : IoError) (werr : BitVec 32)
  deriving DecidableEq, Repr

/-- `PA6TEth_TransmitPacket` up to its reply; `poll` is what the engine lets it read. -/
def transmitPacket (ch : Channels) (e : TxEnv) (w : World) (r : ReqId) (poll : Nat → Word) :
    List PacketEvent × World :=
  match txBuild e w r with
  | .refused q err werr =>
      ((txCalls e w r).map .sys ++ [.reply err werr], (w.setReq r q).replyIoreq r err werr)
  | .built q f =>
      ((txCalls e w r).map .sys ++ [.obtainSemaphore] ++
          (cleanupEvents w.unit.tx poll ++ postEvents ch w.unit.tx.txNextFill f).map .ring ++
          [.releaseSemaphore, .reply .ok 0#32],
        { w.setReq r q with
          unit := { w.unit with tx := (txSubmit ch w.unit.tx f).1 }
          freed := (txSubmit ch w.unit.tx f).2.1 ++ w.freed
          regs := w.regs ++ (txSubmit ch w.unit.tx f).2.2 }.replyIoreq r .ok 0#32)

namespace Answer

def completed : Answer → IOSana2Req
  | returned _ done => done
  | replied _ _ done => done

end Answer

/-- What was handed out before the exit was given back once, and `tx_lock` was left alone. -/
structure LeavesNoTrace (events : List PacketEvent) : Prop where
  freed : ∀ size block, .sys (.allocVec size block) ∈ events → block ≠ 0 →
    events.count (.sys (.freeVec block)) = 1
  unmapped : ∀ block size nentries, .sys (.startDma block size nentries) ∈ events →
    nentries ≠ 0 → events.count (.sys (.endDma block size)) = 1
  unlocked : .obtainSemaphore ∉ events ∧ .releaseSemaphore ∉ events
  silent : ∀ event, .ring event ∉ events

/-- The request is still in the hands of the call that is about to reply, or it was completed once
more and with this error. -/
def CompletedOnce (r : ReqId) (err : IoError) (werr : BitVec 32) (s u : Driver) : Prop :=
  .replying r err werr false ∈ u.calls ∧ u.completions r = s.completions r ∨
    u.completions r = s.completions r + 1 ∧
      ∃ a, u.world.answers.find? (fun p => p.1 == r) = some (r, a) ∧ a.completed.error = err

theorem transmitPacket_refused (ch : Channels) (e : CallEnv) (w v : World) (r : ReqId)
    (poll : Nat → Word) (err : IoError) (werr : BitVec 32)
    (stepped : callStep ch e w (.transmitting r) = some (v, some (.replying r err werr false))) :
    (transmitPacket ch e.tx w r poll).1 = (txCalls e.tx w r).map .sys ++ [.reply err werr] ∧
      callStep ch e v (.replying r err werr false) =
        some ((transmitPacket ch e.tx w r poll).2, none) := by
  simp only [callStep] at stepped
  cases outcome : txBuild e.tx w r with
  | refused q err' werr' =>
      simp only [outcome, Option.some.injEq, Prod.mk.injEq, Call.replying.injEq] at stepped
      obtain ⟨rfl, _, rfl, rfl, _⟩ := stepped
      simp only [transmitPacket, outcome, callStep, Bool.false_eq_true, if_false, true_and]
  | built q f =>
      simp only [outcome, Option.some.injEq, Prod.mk.injEq, reduceCtorEq, and_false] at stepped

theorem transmitPacket_submitted (ch : Channels) (e : CallEnv) (w v x : World) (r : ReqId)
    (poll : Nat → Word) (f : TxFrame) (next : Call)
    (builds : callStep ch e w (.transmitting r) = some (v, some (.submitting r f)))
    (submits : callStep ch e v (.submitting r f) = some (x, some next)) :
    callStep ch e x next = some ((transmitPacket ch e.tx w r poll).2, some .signalling) := by
  simp only [callStep] at builds
  cases outcome : txBuild e.tx w r with
  | refused q err werr =>
      simp only [outcome, Option.some.injEq, Prod.mk.injEq, reduceCtorEq, and_false] at builds
  | built q f' =>
      simp only [outcome, Option.some.injEq, Prod.mk.injEq, Call.submitting.injEq] at builds
      obtain ⟨rfl, _, rfl⟩ := builds
      simp only [callStep, Option.some.injEq, Prod.mk.injEq] at submits
      obtain ⟨rfl, rfl⟩ := submits
      simp only [transmitPacket, outcome, callStep, if_true]
      rfl

/-- The calls of a packet that is not sent, one form for each group of exits. -/
inductive StoppedCalls (e : TxEnv) (len : Nat) : List SysCall → Prop
  | unallocated : StoppedCalls e len []
  | noBlock : StoppedCalls e len [.allocVec len 0]
  | noHook : StoppedCalls e len [.allocVec len e.buf, .freeVec e.buf]
  | notCopied (call : HookCall) :
      StoppedCalls e len [.allocVec len e.buf, .callHook call, .freeVec e.buf]
  | notMapped (call : HookCall) : StoppedCalls e len
      [.allocVec len e.buf, .callHook call, .startDma e.buf len 0, .freeVec e.buf]
  | notListed (call : HookCall) : StoppedCalls e len
      [.allocVec len e.buf, .callHook call, .startDma e.buf len e.nentries, .endDma e.buf len,
        .freeVec e.buf]

theorem txCalls_stops (e : TxEnv) (w : World) (r : ReqId) (stops : goesThrough e w r = false) :
    StoppedCalls e (txFrameLen (w.reqs r).dataLength).toNat (txCalls e w r) := by
  have way := txWay e w r
  generalize txBuild e w r = outcome, txCalls e w r = calls at way ⊢
  cases way with
  | unsized => exact .unallocated
  | noBlock => exact .noBlock
  | noHook => exact .noHook
  | notCopied ready op => exact .notCopied _
  | notMapped ready op => exact .notMapped _
  | notListed ready op => exact .notListed _
  | built ready op found cookie hook copied mapped listed =>
      rw [built_goes e w r ready op found cookie hook copied mapped listed] at stops
      cases stops

theorem stopped_leaves (e : TxEnv) (len : Nat) (calls : List SysCall) (err : IoError)
    (werr : BitVec 32) (stopped : StoppedCalls e len calls) :
    LeavesNoTrace (calls.map .sys ++ [.reply err werr]) := by
  cases stopped <;> constructor <;> simp +contextual

theorem refused_leaves (ch : Channels) (e : TxEnv) (w : World) (r : ReqId) (poll : Nat → Word)
    (stops : goesThrough e w r = false) : LeavesNoTrace (transmitPacket ch e w r poll).1 := by
  obtain ⟨q, err, werr, refused, _⟩ := txBuild_stops e w r stops
  simp only [transmitPacket, refused]
  exact stopped_leaves e _ _ err werr (txCalls_stops e w r stops)

theorem answers_grow (ch : Channels) (s t : Driver) (a : Action) (r : ReqId)
    (other : ∀ q, a ≠ .submit r q) (stepped : driverStep ch s a = some t) :
    t.world.submitted.count r = s.world.submitted.count r ∧
      ∃ new, t.world.answers = new ++ s.world.answers := by
  have handed : Handed s t → t.world.submitted.count r = s.world.submitted.count r ∧
      ∃ new, t.world.answers = new ++ s.world.answers := by
    rintro ⟨new, _, asked, answers, _⟩
    exact ⟨congrArg (List.count r) asked, new, answers⟩
  have lost : Loss s.ledger t.ledger → t.world.submitted.count r = s.world.submitted.count r ∧
      ∃ new, t.world.answers = new ++ s.world.answers := by
    rintro ⟨asked, answers, _⟩
    exact ⟨congrArg (List.count r) asked, [], answers⟩
  cases a with
  | submit r' q =>
      obtain ⟨_, rfl⟩ := submit_step ch s t r' q stepped
      have apart : r' ≠ r := fun same => other q (by rw [same])
      exact ⟨List.count_cons_of_ne apart, [], rfl⟩
  | call i e => exact handed (handed_call ch s t i e stepped)
  | task i e => exact handed (handed_task ch s t i e stepped)
  | closeDevice bmCookie =>
      obtain rfl := Option.some.inj stepped
      exact handed (handed_close s bmCookie)
  | teardown i => exact lost (lost_teardown ch s t i stepped)
  | openDevice bmCookie allocated outcome =>
      rcases open_step ch s t bmCookie allocated outcome stepped with
        rfl | ⟨_, rfl⟩ | ⟨_, _, rfl⟩ | ⟨_, _, rfl⟩
      · exact ⟨rfl, [], rfl⟩
      · exact ⟨rfl, [], rfl⟩
      · exact lost (lost_open s _ outcome bmCookie (.inl rfl))
      · exact lost (lost_open s _ outcome bmCookie (.inr rfl))
  | _ =>
      obtain rfl := Option.some.inj stepped
      exact ⟨rfl, [], rfl⟩

theorem holder_stays (ch : Channels) (s t : Driver) (a : Action) (c : Call) (held : c ∈ s.calls)
    (stepped : driverStep ch s a = some t) :
    c ∈ t.calls ∨ ∃ i e, a = .call i e ∧ s.calls[i]? = some c := by
  cases a with
  | submit r q =>
      obtain ⟨_, rfl⟩ := submit_step ch s t r q stepped
      exact .inl (List.mem_cons_of_mem _ held)
  | abortIo r =>
      obtain rfl := Option.some.inj stepped
      exact .inl (List.mem_cons_of_mem _ held)
  | call i e =>
      obtain ⟨c', w, next, present, _, rfl⟩ := call_step ch s t i e stepped
      obtain ⟨j, small, here⟩ := List.getElem_of_mem held
      have here : s.calls[j]? = some c := List.getElem?_eq_some_iff.mpr ⟨small, here⟩
      by_cases same : j = i
      · exact .inr ⟨i, e, rfl, same ▸ here⟩
      · left
        cases next with
        | none => exact List.mem_eraseIdx_iff_getElem?.mpr ⟨j, same, here⟩
        | some next =>
            refine List.mem_iff_getElem?.mpr ⟨j, ?_⟩
            rw [List.getElem?_set_ne (Ne.symm same)]
            exact here
  | task i e =>
      obtain ⟨pc, w, next, _, _, rfl⟩ := task_step ch s t i e stepped
      exact .inl held
  | openDevice bmCookie allocated outcome =>
      rcases open_step ch s t bmCookie allocated outcome stepped with
        rfl | ⟨_, rfl⟩ | ⟨_, _, rfl⟩ | ⟨_, _, rfl⟩ <;> exact .inl held
  | teardown i =>
      obtain ⟨_, rfl⟩ := teardown_step ch s t i stepped
      exact .inl held
  | _ =>
      obtain rfl := Option.some.inj stepped
      exact .inl held

theorem held_due (ch : Channels) (s : Driver) (reached : (unitMachine ch).Reached s) (c : Call)
    (r : ReqId) (stage : Stage) (held : c ∈ s.calls) (claims : (r, stage) ∈ c.claim) :
    s.world.submitted.count r = s.completions r + 1 := by
  have kept := kept_reached ch s reached
  have due := kept.due r
  have single := kept.single r
  have member : (r, stage) ∈ s.ledger.places :=
    List.mem_append_left _ (List.mem_flatMap.mpr ⟨c, held, claims⟩)
  have placed : 0 < s.ledger.placed r := List.count_pos_iff.mpr (List.mem_map_of_mem member)
  simp only [Ledger.askedFor, Ledger.answered, Driver.ledger, ledger] at due single placed
  simp only [Driver.completions]
  omega

theorem replyIoreq_answer (w : World) (r : ReqId) (err : IoError) (werr : BitVec 32) :
    ∃ a : Answer, (w.replyIoreq r err werr).answers = (r, a) :: w.answers ∧
      a.completed.error = err := by
  simp only [replyIoreq]
  split
  · exact ⟨_, rfl, rfl⟩
  · exact ⟨_, rfl, rfl⟩

theorem replying_step (ch : Channels) (u : Driver) (i : Nat) (e : CallEnv) (r : ReqId)
    (err : IoError) (werr : BitVec 32)
    (here : u.calls[i]? = some (.replying r err werr false)) :
    (unitMachine ch).step u (.call i e) =
      some { u with world := u.world.replyIoreq r err werr, calls := u.calls.eraseIdx i } := by
  simp only [unitMachine, driverStep, here, callStep, Bool.false_eq_true, if_false, Option.map_some]

/-- What stays true of the request after the exit, as long as it is not submitted again. -/
structure Awaiting (ch : Channels) (r : ReqId) (err : IoError) (werr : BitVec 32) (s u : Driver) :
    Prop where
  reached : (unitMachine ch).Reached u
  asked : u.world.submitted.count r = s.completions r + 1
  once : CompletedOnce r err werr s u

theorem awaiting_step (ch : Channels) (r : ReqId) (err : IoError) (werr : BitVec 32)
    (s u v : Driver) (a : Action) (awaiting : Awaiting ch r err werr s u)
    (other : ∀ q, a ≠ .submit r q) (stepped : (unitMachine ch).step u a = some v) :
    Awaiting ch r err werr s v := by
  have reached : (unitMachine ch).Reached v := .step u a v awaiting.reached stepped
  obtain ⟨submitted, new, answers⟩ := answers_grow ch u v a r other stepped
  have asked : v.world.submitted.count r = s.completions r + 1 := submitted.trans awaiting.asked
  refine ⟨reached, asked, ?_⟩
  rcases awaiting.once with ⟨held, same⟩ | ⟨more, answer⟩
  · rcases holder_stays ch u v a _ held stepped with stays | ⟨i, e, rfl, here⟩
    · have due := held_due ch v reached _ r _ stays List.mem_cons_self
      exact .inl ⟨stays, by omega⟩
    · rw [replying_step ch u i e r err werr here] at stepped
      obtain rfl := Option.some.inj stepped
      obtain ⟨a, first, failed⟩ := replyIoreq_answer u.world r err werr
      refine .inr ⟨?_, a, ?_, failed⟩
      · simp only [Driver.completions, first, List.map_cons, List.count_cons_self]
        exact congrArg (· + 1) same
      · rw [first]
        exact List.find?_cons_of_pos (beq_self_eq_true r)
  · have due := (kept_reached ch v reached).due r
    simp only [Ledger.askedFor, Ledger.answered, Driver.ledger, ledger] at due
    have total : v.completions r = (new.map Prod.fst).count r + u.completions r := by
      simp only [Driver.completions, answers, List.map_append, List.count_append]
    simp only [Driver.completions] at total more asked
    have none : (new.map Prod.fst).count r = 0 := by omega
    obtain ⟨a, found, failed⟩ := answer
    refine .inr ⟨by simp only [Driver.completions]; omega, a, ?_, failed⟩
    have fresh : new.find? (fun p => p.1 == r) = .none := by
      rw [List.find?_eq_none]
      intro p member same
      have counted := List.count_eq_zero.mp none
      exact counted (List.mem_map.mpr ⟨p, member, by simpa using same⟩)
    rw [answers, List.find?_append, fresh, Option.none_or, found]

theorem replyIoreq_frame (w : World) (r : ReqId) (err : IoError) (werr : BitVec 32) :
    (w.replyIoreq r err werr).unit = w.unit ∧ (w.replyIoreq r err werr).regs = w.regs := by
  simp only [replyIoreq]
  split <;> exact ⟨rfl, rfl⟩

/-- A packet that `TransmitPacket` does not send leaves no trace: what it took it gave back once,
the lock, the ring and the registers are untouched, and the request is completed once, with an
error. -/
theorem failed_transmit_traceless (ch : Channels) (s t : Driver)
    (reached : (unitMachine ch).Reached s) (i : Nat) (e : CallEnv) (r : ReqId)
    (calling : s.calls[i]? = some (.transmitting r)) (fails : goesThrough e.tx s.world r = false)
    (stepped : (unitMachine ch).step s (.call i e) = some t) :
    (∀ poll, LeavesNoTrace (transmitPacket ch e.tx s.world r poll).1) ∧
    t.world.unit = s.world.unit ∧ t.world.regs = s.world.regs ∧ t.completions r = s.completions r ∧
    ∃ err werr, err ≠ .ok ∧ t.calls[i]? = some (.replying r err werr false) ∧
      (∀ e', ∃ u, (unitMachine ch).step t (.call i e') = some u ∧
        u.completions r = s.completions r + 1 ∧ u.world.unit = s.world.unit ∧
        u.world.regs = s.world.regs) ∧
      ∀ actions u, (∀ q, .submit r q ∉ actions) → (unitMachine ch).run t actions = some u →
        CompletedOnce r err werr s u := by
  have reached' : (unitMachine ch).Reached t := .step s _ t reached stepped
  obtain ⟨q, err, werr, refused, failed⟩ := txBuild_stops e.tx s.world r fails
  obtain ⟨c, w, next, present, moved, rfl⟩ := call_step ch s t i e stepped
  obtain rfl := Option.some.inj (calling.symm.trans present)
  simp only [callStep, refused, Option.some.injEq, Prod.mk.injEq] at moved
  obtain ⟨rfl, rfl⟩ := moved
  have small : i < s.calls.length := (List.getElem?_eq_some_iff.mp calling).1
  have here : (s.calls.set i (.replying r err werr false))[i]? =
      some (.replying r err werr false) := List.getElem?_set_self small
  have held := List.mem_of_getElem? here
  refine ⟨fun poll => refused_leaves ch e.tx s.world r poll fails, rfl, rfl, rfl, err, werr, failed,
    here, fun e' => ?_, fun actions u quiet ran => ?_⟩
  · obtain ⟨a, first, _⟩ := replyIoreq_answer (s.world.setReq r q) r err werr
    obtain ⟨unit, regs⟩ := replyIoreq_frame (s.world.setReq r q) r err werr
    refine ⟨_, replying_step ch _ i e' r err werr here, ?_, unit, regs⟩
    simp only [Driver.completions, first, List.map_cons, List.count_cons_self]
    rfl
  · have awaiting := (unitMachine ch).run_invariant (Awaiting ch r err werr s)
      (fun a => ∀ q, a ≠ .submit r q) (fun u a v => awaiting_step ch r err werr s u v a) _ u actions
      (fun a member q same => quiet q (same ▸ member))
      ⟨reached', held_due ch _ reached' _ r _ held List.mem_cons_self, .inl ⟨held, rfl⟩⟩ ran
    exact awaiting.once

def unlisted : CallEnv := { callEnv with tx := { callEnv.tx with dlist := false } }

theorem failed_transmit_unlisted :
    ∃ s t, (unitMachine ⟨0, 0, 0⟩).Reached s ∧
      (unitMachine ⟨0, 0, 0⟩).step s (.call 0 unlisted) = some t ∧
      .sys (.startDma 0xA00 60 1) ∈
        (transmitPacket ⟨0, 0, 0⟩ unlisted.tx s.world 3 fun _ => 0#64).1 ∧
      LeavesNoTrace (transmitPacket ⟨0, 0, 0⟩ unlisted.tx s.world 3 fun _ => 0#64).1 ∧
      t.world.unit = s.world.unit ∧ t.world.regs = s.world.regs := by
  obtain ⟨s, reached, shape⟩ := (unitMachine ⟨0, 0, 0⟩).run_shape
    (fun s => (s.calls.map Call.sending, goesThrough unlisted.tx s.world 3,
      (txCalls unlisted.tx s.world 3).contains (.startDma 0xA00 60 1),
      (driverStep ⟨0, 0, 0⟩ s (.call 0 unlisted)).isSome))
    ([[3]], false, true, true) coldDriver broadcastBegins (.start _ coldDriver_cold)
    (by decide +kernel)
  obtain ⟨calls, stops, mapped, steps⟩ := by simpa only [Prod.mk.injEq] using shape
  obtain ⟨c, single, own⟩ := List.map_eq_singleton_iff.mp calls
  have calling : s.calls[0]? = some (.transmitting 3) := by
    rw [single]
    cases c with
    | transmitting r =>
        obtain rfl := List.singleton_inj.mp own
        rfl
    | _ => cases own
  obtain ⟨t, stepped⟩ := Option.isSome_iff_exists.mp steps
  obtain ⟨leaves, unit, regs, _⟩ := failed_transmit_traceless ⟨0, 0, 0⟩ s t reached 0 unlisted 3
    calling stops stepped
  refine ⟨s, t, reached, stepped, ?_, leaves _, unit, regs⟩
  obtain ⟨q, err, werr, refused, _⟩ := txBuild_stops unlisted.tx s.world 3 stops
  simp only [transmitPacket, refused]
  exact List.mem_append_left _ (List.mem_map_of_mem (List.contains_iff_mem.mp mapped))

end Pa6tEth

import Pa6tEth.Transmit
import Pa6tEth.Support.History

/-! The transmit ring with its writers, the engine and what the driver does to each buffer. -/

namespace Pa6tEth

open Support

/-- One thing the driver does with a buffer or its descriptor pair. `post` stores a descriptor,
`clear` stores zero; a read of `TCMDSTA` for the debug output is left out. -/
inductive TxEvent
  | sys (call : SysCall)
  | post (slot : Nat) (word : Word)
  | reg (write : RegWrite)
  | read (slot : Nat) (word : Word)
  | reschedule
  | clear (slot : Nat)
  deriving DecidableEq, Repr

def cleanupTries : Nat := 50000

/-- The reads of the polling loop; `poll k` is the word that read number `k` finds. -/
def pollLoop (poll : Nat → Word) : Nat → Nat → List Word
  | 0, _ => []
  | left + 1, k => poll k :: if owned (poll k) then pollLoop poll left (k + 1) else []

/-- The words that `tx_cleanup_pending` reads before it releases, one more after the loop and one
after `Reschedule` if that one still has the O bit. -/
def waitEvents (slot : Nat) (poll : Nat → Word) : List TxEvent :=
  let seen := pollLoop poll cleanupTries 0
  seen.map (.read slot) ++
    .read slot (poll seen.length) ::
      if owned (poll seen.length) then [.reschedule, .read slot (poll (seen.length + 1))] else []

/-- What follows the wait, whatever it saw. -/
def releaseEvents (slot : Nat) (buf : Addr) (len : BitVec 32) : List TxEvent :=
  [.clear slot, .clear (slot + 1), .sys (.endDma buf len.toNat), .sys (.freeVec buf)]

/-- `tx_cleanup_pending`. -/
def cleanupEvents (u : UnitTx) (poll : Nat → Word) : List TxEvent :=
  if u.txBufPending = 0 then []
  else waitEvents u.txFillPending poll ++
    releaseEvents u.txFillPending u.txBufPending u.txBufPendingLen

def txDesc (f : TxFrame) : Word × Word :=
  (xctMactxO ||| xctMactxSt ||| xctMactxCrcPad ||| xctMactxLlen f.frameLen,
    xctPtrLen f.frameLen ||| xctPtrAddr f.phys)

/-- The doorbell: `DB` is cleared, then one descriptor pair is added. -/
def doorbell (ch : Channels) : List RegWrite :=
  [⟨.txchanTcmdsta ch.txChannelNum, 0x00000001 ||| 0x00000400⟩,
    ⟨.txchanIncr ch.txChannelNum, 1⟩]

def postEvents (ch : Channels) (fill : Nat) (f : TxFrame) : List TxEvent :=
  [.post fill (txDesc f).1, .post (fill + 1) (txDesc f).2] ++ (doorbell ch).map .reg

/-- The transmit side with `tx_lock` free. A packet is named by the number of calls of
`TransmitPacket` begun before it; `writers` have built theirs and wait for the lock. -/
structure TxSystem where
  tx : UnitTx
  begun : Nat
  writers : List (Nat × TxFrame)
  submitted : List (Nat × TxFrame)
  log : List (Nat × TxEvent)

/-- `build` is the part of a call before the lock, in any state of the rest of the driver;
`submit` is the section under the lock, and `poll` what the engine lets it read there. -/
inductive TxAction
  | build (e : TxEnv) (w : World) (r : ReqId)
  | submit (i : Nat) (poll : Nat → Word)
  | engine (desc ptr : Word)

/-- The world in which a writer runs: its transmit side is the common one. -/
def TxSystem.around (s : TxSystem) (w : World) : World :=
  { w with unit := { w.unit with tx := s.tx } }

/-- The call that submitted the pending buffer. -/
def TxSystem.pendingName (s : TxSystem) : Nat := (s.submitted.getLast?.map Prod.fst).getD 0

def TxOutcome.frames : TxOutcome → List TxFrame
  | refused _ _ _ => []
  | built _ f => [f]

def txStep (ch : Channels) (s : TxSystem) : TxAction → Option TxSystem
  | .build e w r =>
      some { s with
        begun := s.begun + 1
        writers := s.writers ++ (txBuild e (s.around w) r).frames.map fun f => (s.begun, f)
        log := s.log ++ tagged s.begun ((txCalls e (s.around w) r).map .sys) }
  | .submit i poll =>
      match s.writers[i]? with
      | none => none
      | some (name, f) =>
          some { s with
            tx := (txSubmit ch s.tx f).1
            writers := s.writers.eraseIdx i
            submitted := s.submitted ++ [(name, f)]
            log := s.log ++ tagged s.pendingName (cleanupEvents s.tx poll) ++
              tagged name (postEvents ch s.tx.txNextFill f) }
  | .engine desc ptr =>
      if s.tx.txBufPending = 0 then none
      else
        some { s with
          tx :=
            { s.tx with
              txRing := (s.tx.txRing.set s.tx.txFillPending desc).set (s.tx.txFillPending + 1) ptr } }

/-- The transmit side as `Init` leaves it. -/
structure TxCold (s : TxSystem) : Prop where
  ring : ∀ slot, s.tx.txRing.get slot = 0#64
  fill : s.tx.txNextFill = 0
  pending : s.tx.txBufPending = 0
  writers : s.writers = []
  submitted : s.submitted = []
  log : s.log = []

def txMachine (ch : Channels) : Machine TxSystem TxAction where
  start := TxCold
  step := txStep ch

/-- The calls that a built packet took: its block, the hook and the mapping. -/
def builtCalls (f : TxFrame) (call : HookCall) (nentries : Nat) : List SysCall :=
  [.allocVec f.frameLen.toNat f.buf, .callHook call, .startDma f.buf f.frameLen.toNat nentries]

theorem txBuild_built (e : TxEnv) (w : World) (r : ReqId) (q : IOSana2Req) (f : TxFrame)
    (built : txBuild e w r = .built q f) :
    f.buf ≠ 0 ∧ ∃ call nentries, nentries ≠ 0 ∧ txCalls e w r = builtCalls f call nentries := by
  have way := txWay e w r
  rw [built] at way
  generalize txCalls e w r = calls at way ⊢
  cases way with
  | built ready op found cookie hook copied mapped listed =>
      exact ⟨ready.block, _, e.nentries, mapped, rfl⟩

theorem txSubmit_state (ch : Channels) (u : UnitTx) (f : TxFrame) :
    (txSubmit ch u f).1.txNextFill = (u.txNextFill + 2) % txRingSize ∧
      (txSubmit ch u f).1.txBufPending = f.buf ∧
      (txSubmit ch u f).1.txBufPendingLen = f.frameLen ∧
      (txSubmit ch u f).1.txFillPending = u.txNextFill := by
  simp only [txSubmit, txCleanupPending]
  split <;> simp only [and_self]

theorem txSubmit_other (ch : Channels) (u : UnitTx) (f : TxFrame) (slot : Nat)
    (apart : slot % 256 ≠ u.txNextFill % 256 ∧ slot % 256 ≠ (u.txNextFill + 1) % 256)
    (zero : u.txRing.get slot = 0#64 ∨ u.txBufPending ≠ 0 ∧
      (slot % 256 = u.txFillPending % 256 ∨ slot % 256 = (u.txFillPending + 1) % 256)) :
    (txSubmit ch u f).1.txRing.get slot = 0#64 := by
  simp only [txSubmit, txCleanupPending]
  split
  · rename_i idle
    have clear : u.txRing.get slot = 0#64 := zero.resolve_right fun busy => busy.1 idle
    simp only [Ring.get_set, if_neg apart.1, if_neg apart.2, clear]
  · simp only [Ring.get_set, if_neg apart.1, if_neg apart.2]
    split_ifs with second first
    · rfl
    · rfl
    · exact zero.resolve_right fun busy => (busy.2.elim first second)

theorem submit_step_tx (ch : Channels) (s t : TxSystem) (i : Nat) (poll : Nat → Word)
    (stepped : txStep ch s (.submit i poll) = some t) :
    ∃ name f, s.writers[i]? = some (name, f) ∧
      t = { s with
        tx := (txSubmit ch s.tx f).1
        writers := s.writers.eraseIdx i
        submitted := s.submitted ++ [(name, f)]
        log := s.log ++ tagged s.pendingName (cleanupEvents s.tx poll) ++
          tagged name (postEvents ch s.tx.txNextFill f) } := by
  simp only [txStep] at stepped
  split at stepped
  · cases stepped
  · rename_i name f present
    exact ⟨name, f, present, (Option.some.inj stepped).symm⟩

theorem engine_step_tx (ch : Channels) (s t : TxSystem) (desc ptr : Word)
    (stepped : txStep ch s (.engine desc ptr) = some t) :
    s.tx.txBufPending ≠ 0 ∧
      t = { s with
        tx :=
          { s.tx with
            txRing :=
              (s.tx.txRing.set s.tx.txFillPending desc).set (s.tx.txFillPending + 1) ptr } } := by
  simp only [txStep] at stepped
  split at stepped
  · cases stepped
  · rename_i busy
    exact ⟨busy, (Option.some.inj stepped).symm⟩

end Pa6tEth

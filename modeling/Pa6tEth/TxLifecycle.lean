import Pa6tEth.TxEngine
import Mathlib.Data.List.Perm.Basic

/-! Every transmit buffer is posted once and released once, by the next submission. -/

namespace Pa6tEth

open Support

/-- The history of submission number `k`; `finished` once a later one has cleaned up after it. -/
def Life (ch : Channels) (k : Nat) (f : TxFrame) (finished : Bool) (events : List TxEvent) : Prop :=
  ∃ call nentries poll,
    events = (builtCalls f call nentries).map .sys ++ postEvents ch (2 * k % txRingSize) f ++
      if finished then
        waitEvents (2 * k % txRingSize) poll ++
          releaseEvents (2 * k % txRingSize) f.buf f.frameLen
      else []

structure TxInv (ch : Channels) (s : TxSystem) : Prop where
  fill : s.tx.txNextFill = 2 * s.submitted.length % txRingSize
  idle : s.submitted = [] → s.tx.txBufPending = 0
  pending : ∀ name f, s.submitted.getLast? = some (name, f) →
    s.tx.txBufPending = f.buf ∧ f.buf ≠ 0 ∧ s.tx.txBufPendingLen = f.frameLen ∧
      s.tx.txFillPending = 2 * (s.submitted.length - 1) % txRingSize
  ring : ∀ slot, (s.submitted ≠ [] → slot % 256 ≠ s.tx.txFillPending % 256 ∧
      slot % 256 ≠ (s.tx.txFillPending + 1) % 256) → s.tx.txRing.get slot = 0#64
  names : ((s.submitted ++ s.writers).map Prod.fst).Nodup
  begun : ∀ p ∈ s.submitted ++ s.writers, p.1 < s.begun
  unbegun : ∀ name, s.begun ≤ name → history s.log name = []
  writing : ∀ name f, (name, f) ∈ s.writers → f.buf ≠ 0 ∧
    ∃ call nentries, history s.log name = (builtCalls f call nentries).map .sys
  lives : ∀ k name f, s.submitted[k]? = some (name, f) →
    Life ch k f (decide (k + 1 < s.submitted.length)) (history s.log name)

theorem history_more (log : List (Nat × TxEvent)) (label name : Nat) (events : List TxEvent)
    (apart : label ≠ name) : history (log ++ tagged label events) name = history log name := by
  rw [history_append, history_other name label events apart, List.append_nil]

theorem txInv_build (ch : Channels) (s t : TxSystem) (e : TxEnv) (w : World) (r : ReqId)
    (inv : TxInv ch s) (stepped : txStep ch s (.build e w r) = some t) : TxInv ch t := by
  obtain rfl := Option.some.inj stepped
  have other : ∀ name, name < s.begun →
      history (s.log ++ tagged s.begun ((txCalls e (s.around w) r).map .sys)) name =
        history s.log name :=
    fun name low => history_more s.log s.begun name _ (by omega)
  have frame : ∀ p ∈ (txBuild e (s.around w) r).frames.map (fun f => (s.begun, f)),
      ∃ q f, p = (s.begun, f) ∧ txBuild e (s.around w) r = .built q f := by
    intro p member
    obtain ⟨f, one, rfl⟩ := List.mem_map.mp member
    cases built : txBuild e (s.around w) r with
    | refused q err werr => simp [built, TxOutcome.frames] at one
    | built q f' =>
        simp only [built, TxOutcome.frames, List.mem_singleton] at one
        exact ⟨q, f', by rw [one], rfl⟩
  refine ⟨inv.fill, inv.idle, inv.pending, inv.ring, ?_, ?_, ?_, ?_, ?_⟩
  · rw [← List.append_assoc, List.map_append, List.nodup_append]
    refine ⟨inv.names, ?_, ?_⟩
    · cases txBuild e (s.around w) r <;> simp [TxOutcome.frames]
    · intro old first new second
      obtain ⟨p, before, rfl⟩ := List.mem_map.mp first
      obtain ⟨p', now, rfl⟩ := List.mem_map.mp second
      obtain ⟨_, f, rfl, _⟩ := frame p' now
      exact Nat.ne_of_lt (inv.begun p before)
  · intro p member
    rw [← List.append_assoc] at member
    rcases List.mem_append.mp member with old | new
    · exact Nat.lt_succ_of_lt (inv.begun p old)
    · obtain ⟨_, f, rfl, _⟩ := frame p new
      exact Nat.lt_succ_self _
  · intro name late
    rw [history_more s.log s.begun name _ (by simp only at late; omega)]
    exact inv.unbegun name (by simp only at late; omega)
  · intro name f member
    rcases List.mem_append.mp member with old | new
    · rw [other name (inv.begun _ (List.mem_append_right _ old))]
      exact inv.writing name f old
    · obtain ⟨q, f', same, built⟩ := frame _ new
      obtain ⟨rfl, rfl⟩ := Prod.mk.inj same
      obtain ⟨block, call, nentries, _, calls⟩ := txBuild_built e (s.around w) r q f built
      refine ⟨block, call, nentries, ?_⟩
      rw [history_append, inv.unbegun _ (Nat.le_refl _), history_tagged, List.nil_append, calls]
  · intro k name f present
    rw [other name (inv.begun _ (List.mem_append_left _ (List.mem_of_getElem? present)))]
    exact inv.lives k name f present

theorem txInv_engine (ch : Channels) (s t : TxSystem) (desc ptr : Word) (inv : TxInv ch s)
    (stepped : txStep ch s (.engine desc ptr) = some t) : TxInv ch t := by
  obtain ⟨busy, rfl⟩ := engine_step_tx ch s t desc ptr stepped
  refine { inv with ring := fun slot apart => ?_ }
  have sent : s.submitted ≠ [] := fun none => busy (inv.idle none)
  have outside := apart sent
  simp only [Ring.get_set, if_neg outside.1, if_neg outside.2]
  exact inv.ring slot fun _ => outside

theorem names_apart (ch : Channels) (s : TxSystem) (inv : TxInv ch s) (j k : Nat)
    (p q : Nat × TxFrame) (first : s.submitted[j]? = some p) (second : s.submitted[k]? = some q)
    (apart : j ≠ k) : p.1 ≠ q.1 := by
  intro same
  have nodup : (s.submitted.map Prod.fst).Nodup := by
    have names := inv.names
    rw [List.map_append] at names
    exact names.of_append_left
  refine apart ((List.getElem?_inj ?_ nodup).mp ?_)
  · rw [List.length_map]
    exact (List.getElem?_eq_some_iff.mp first).1
  · rw [List.getElem?_map, List.getElem?_map, first, second]
    exact congrArg some same

theorem writer_apart (ch : Channels) (s : TxSystem) (inv : TxInv ch s) (p q : Nat × TxFrame)
    (sent : p ∈ s.submitted) (waiting : q ∈ s.writers) : p.1 ≠ q.1 := by
  have names := inv.names
  rw [List.map_append, List.nodup_append] at names
  exact names.2.2 p.1 (List.mem_map_of_mem sent) q.1 (List.mem_map_of_mem waiting)

theorem pending_cleanup (ch : Channels) (s : TxSystem) (inv : TxInv ch s) (poll : Nat → Word) :
    (s.submitted = [] ∧ cleanupEvents s.tx poll = []) ∨
    ∃ g, s.submitted[s.submitted.length - 1]? = some (s.pendingName, g) ∧
      0 < s.submitted.length ∧
      cleanupEvents s.tx poll = waitEvents (2 * (s.submitted.length - 1) % txRingSize) poll ++
        releaseEvents (2 * (s.submitted.length - 1) % txRingSize) g.buf g.frameLen := by
  cases last : s.submitted.getLast? with
  | none =>
      have none := List.getLast?_eq_none_iff.mp last
      exact .inl ⟨none, by rw [cleanupEvents, if_pos (inv.idle none)]⟩
  | some p =>
      obtain ⟨name, g⟩ := p
      obtain ⟨buf, present, len, fill⟩ := inv.pending name g last
      refine .inr ⟨g, ?_, ?_, ?_⟩
      · rw [← List.getLast?_eq_getElem?, last, TxSystem.pendingName, last]
        rfl
      · refine List.length_pos_of_ne_nil fun none => ?_
        rw [none] at last
        cases last
      · rw [cleanupEvents, if_neg (by rw [buf]; exact present), fill, buf, len]

theorem pending_sent (ch : Channels) (s : TxSystem) (inv : TxInv ch s) (sent : s.submitted ≠ []) :
    ∃ g, (s.pendingName, g) ∈ s.submitted := by
  rcases pending_cleanup ch s inv (fun _ => 0) with ⟨none, _⟩ | ⟨g, present, _, _⟩
  · exact absurd none sent
  · exact ⟨g, List.mem_of_getElem? present⟩

def submitLog (ch : Channels) (s : TxSystem) (name : Nat) (f : TxFrame) (poll : Nat → Word) :
    List (Nat × TxEvent) :=
  s.log ++ tagged s.pendingName (cleanupEvents s.tx poll) ++
    tagged name (postEvents ch s.tx.txNextFill f)

theorem cleanup_others (ch : Channels) (s : TxSystem) (inv : TxInv ch s) (poll : Nat → Word)
    (other : Nat) (apart : s.submitted ≠ [] → other ≠ s.pendingName) :
    history (s.log ++ tagged s.pendingName (cleanupEvents s.tx poll)) other = history s.log other := by
  rcases pending_cleanup ch s inv poll with ⟨_, quiet⟩ | ⟨g, present, _, _⟩
  · rw [quiet]
    simp [tagged]
  · apply history_more
    intro same
    refine apart ?_ same.symm
    intro none
    simp [none] at present

theorem submit_others (ch : Channels) (s : TxSystem) (inv : TxInv ch s) (name : Nat) (f : TxFrame)
    (poll : Nat → Word) (other : Nat) (notPending : s.submitted ≠ [] → other ≠ s.pendingName)
    (notNew : other ≠ name) :
    history (submitLog ch s name f poll) other = history s.log other := by
  calc
    history (submitLog ch s name f poll) other =
        history (s.log ++ tagged s.pendingName (cleanupEvents s.tx poll)) other :=
      history_more _ name other _ (Ne.symm notNew)
    _ = history s.log other := cleanup_others ch s inv poll other notPending

theorem submit_ring (ch : Channels) (s : TxSystem) (inv : TxInv ch s) (f : TxFrame) (slot : Nat)
    (outside : slot % 256 ≠ (txSubmit ch s.tx f).1.txFillPending % 256 ∧
      slot % 256 ≠ ((txSubmit ch s.tx f).1.txFillPending + 1) % 256) :
    (txSubmit ch s.tx f).1.txRing.get slot = 0#64 := by
  rw [(txSubmit_state ch s.tx f).2.2.2] at outside
  refine txSubmit_other ch s.tx f slot outside ?_
  by_cases within : s.submitted ≠ [] ∧ ¬ (slot % 256 ≠ s.tx.txFillPending % 256 ∧
      slot % 256 ≠ (s.tx.txFillPending + 1) % 256)
  · obtain ⟨sent, inside⟩ := within
    refine .inr ⟨?_, by omega⟩
    obtain ⟨same, present, _⟩ := inv.pending _ _ (List.getLast?_eq_some_getLast sent)
    rw [same]
    exact present
  · refine .inl (inv.ring slot fun sent => ?_)
    by_contra inside
    exact within ⟨sent, inside⟩

theorem submit_lives (ch : Channels) (s : TxSystem) (inv : TxInv ch s) (name : Nat) (f : TxFrame)
    (poll : Nat → Word) (member : (name, f) ∈ s.writers) (k other : Nat) (f' : TxFrame)
    (present : (s.submitted ++ [(name, f)])[k]? = some (other, f')) :
    Life ch k f' (decide (k + 1 < s.submitted.length + 1))
      (history (submitLog ch s name f poll) other) := by
  have cleaned := pending_cleanup ch s inv poll
  rcases Nat.lt_trichotomy k s.submitted.length with low | rfl | high
  · rw [List.getElem?_append_left low] at present
    have notNew : other ≠ name :=
      writer_apart ch s inv (other, f') (name, f) (List.mem_of_getElem? present) member
    by_cases lastOne : k + 1 < s.submitted.length
    · have life := inv.lives k other f' present
      rw [submit_others ch s inv name f poll other ?_ notNew]
      · simpa [lastOne, show k + 1 < s.submitted.length + 1 by omega] using life
      · intro sent
        rcases cleaned with ⟨none, _⟩ | ⟨g, pending, _, _⟩
        · exact absurd none sent
        · exact names_apart ch s inv k (s.submitted.length - 1) _ _ present pending (by omega)
    · obtain rfl : k = s.submitted.length - 1 := by omega
      obtain ⟨call', nentries', _, life⟩ := inv.lives _ other f' present
      rcases cleaned with ⟨none, _⟩ | ⟨g, pending, positive, events⟩
      · simp [none] at low
      · obtain ⟨rfl, rfl⟩ := Prod.mk.inj (Option.some.inj (present.symm.trans pending))
        refine ⟨call', nentries', poll, ?_⟩
        rw [submitLog, history_more _ name _ _ (Ne.symm notNew), history_append, history_tagged, life,
          events]
        simp only [lastOne, decide_false, Bool.false_eq_true, if_false, List.append_nil]
        rw [if_pos (by simp only [decide_eq_true_eq]; omega)]
  · simp only [List.getElem?_concat_length, Option.some.injEq, Prod.mk.injEq] at present
    obtain ⟨rfl, rfl⟩ := present
    obtain ⟨-, call, nentries, built⟩ := inv.writing name f member
    refine ⟨call, nentries, poll, ?_⟩
    have before := cleanup_others ch s inv poll name fun sent same => by
      obtain ⟨g, pending⟩ := pending_sent ch s inv sent
      exact writer_apart ch s inv _ _ pending member same.symm
    rw [submitLog, history_append, before, history_tagged, built, inv.fill]
    simp
  · rw [List.getElem?_eq_none (by simp; omega)] at present
    cases present

theorem txInv_submit (ch : Channels) (s t : TxSystem) (i : Nat) (poll : Nat → Word)
    (inv : TxInv ch s) (stepped : txStep ch s (.submit i poll) = some t) : TxInv ch t := by
  obtain ⟨name, f, waiting, rfl⟩ := submit_step_tx ch s t i poll stepped
  obtain ⟨fill, buf, len, fillPending⟩ := txSubmit_state ch s.tx f
  have member := List.mem_of_getElem? waiting
  obtain ⟨block, -⟩ := inv.writing name f member
  have moved : (s.submitted ++ [(name, f)] ++ s.writers.eraseIdx i).Perm
      (s.submitted ++ s.writers) := by
    obtain ⟨bound, at_i⟩ := List.getElem?_eq_some_iff.mp waiting
    rw [List.append_assoc, ← at_i]
    exact (List.getElem_cons_eraseIdx_perm bound).append_left _
  have names := ((moved.map Prod.fst).nodup_iff).mpr inv.names
  constructor
  case fill =>
    simp only [fill, inv.fill, List.length_append, List.length_singleton, txRingSize]
    omega
  case idle =>
    intro none
    simp at none
  case pending =>
    intro name' f' last
    simp only [List.getLast?_concat, Option.some.injEq, Prod.mk.injEq] at last
    obtain ⟨rfl, rfl⟩ := last
    refine ⟨buf, block, len, ?_⟩
    simp only [fillPending, inv.fill, List.length_append, List.length_singleton,
      Nat.add_sub_cancel]
  case ring =>
    intro slot apart
    exact submit_ring ch s inv f slot (apart (by simp))
  case names => exact names
  case begun =>
    intro p present
    exact inv.begun p (moved.mem_iff.mp present)
  case unbegun =>
    intro other late
    have newBegun := inv.begun (name, f) (List.mem_append_right _ member)
    simp only at newBegun late
    have same := submit_others ch s inv name f poll other (fun sent same => by
      obtain ⟨g, present⟩ := pending_sent ch s inv sent
      have low := inv.begun _ (List.mem_append_left _ present)
      simp only at low
      omega) (by omega)
    exact same.trans (inv.unbegun other late)
  case writing =>
    intro other f' present
    have old : (other, f') ∈ s.writers := List.mem_of_mem_eraseIdx present
    have same := submit_others ch s inv name f poll other (fun sent same => by
      obtain ⟨g, pending⟩ := pending_sent ch s inv sent
      exact writer_apart ch s inv _ _ pending old same.symm) (fun same => by
      rw [List.map_append, List.nodup_append] at names
      refine names.2.2 name ?_ other (List.mem_map_of_mem present) same.symm
      simp)
    obtain ⟨present, call, nentries, built⟩ := inv.writing other f' old
    exact ⟨present, call, nentries, same.trans built⟩
  case lives =>
    intro k other f' present
    simp only [List.length_append, List.length_singleton]
    exact submit_lives ch s inv name f poll member k other f' present

theorem txInv_reached (ch : Channels) (s : TxSystem) (reached : (txMachine ch).Reached s) :
    TxInv ch s := by
  refine (txMachine ch).invariant (TxInv ch) ?_ ?_ s reached
  · intro s cold
    refine ⟨by rw [cold.fill, cold.submitted]; rfl, fun _ => cold.pending, ?_,
      fun slot _ => cold.ring slot, ?_, ?_, ?_, ?_, ?_⟩
    · intro name f last
      simp [cold.submitted] at last
    · simp [cold.submitted, cold.writers]
    · intro p member
      simp [cold.submitted, cold.writers] at member
    · intro name _
      simp [cold.log, history]
    · intro name f member
      simp [cold.writers] at member
    · intro k name f present
      simp [cold.submitted] at present
  · intro s a t inv stepped
    cases a with
    | build e w r => exact txInv_build ch s t e w r inv stepped
    | submit i poll => exact txInv_submit ch s t i poll inv stepped
    | engine desc ptr => exact txInv_engine ch s t desc ptr inv stepped

namespace TxEvent

def posted : TxEvent → Option Nat
  | post slot _ => some slot
  | _ => none

def written : TxEvent → Option RegWrite
  | reg write => some write
  | _ => none

def allocated : TxEvent → Option (Addr × Nat)
  | sys (.allocVec size block) => some (block, size)
  | _ => none

def ended : TxEvent → Option (Addr × Nat)
  | sys (.endDma block size) => some (block, size)
  | _ => none

def freed : TxEvent → Option Addr
  | sys (.freeVec block) => some block
  | _ => none

def stored : TxEvent → Option (Nat × Word)
  | post slot word => some (slot, word)
  | clear slot => some (slot, 0#64)
  | _ => none

def seen : TxEvent → Option Word
  | read _ word => some word
  | _ => none

/-- The buffer is unmapped or freed, or its descriptor pair is overwritten. -/
def releases : TxEvent → Bool
  | sys (.endDma _ _) => true
  | sys (.freeVec _) => true
  | clear _ => true
  | _ => false

end TxEvent

structure SentOnce (ch : Channels) (k : Nat) (f : TxFrame) (finished : Bool)
    (events : List TxEvent) : Prop where
  slots : events.filterMap TxEvent.posted = [2 * k % txRingSize, (2 * k + 1) % txRingSize]
  doorbell : events.filterMap TxEvent.written = doorbell ch
  allocated : events.filterMap TxEvent.allocated = [(f.buf, f.frameLen.toNat)]
  ended : events.filterMap TxEvent.ended = if finished then [(f.buf, f.frameLen.toNat)] else []
  freed : events.filterMap TxEvent.freed = if finished then [f.buf] else []

theorem wait_silent {Value : Type} (note : TxEvent → Option Value) (slot : Nat)
    (poll : Nat → Word) (reads : ∀ word, note (.read slot word) = none)
    (reschedules : note .reschedule = none) : (waitEvents slot poll).filterMap note = [] := by
  have silent : ∀ words : List Word, (words.map (TxEvent.read slot)).filterMap note = [] := by
    intro words
    induction words with
    | nil => rfl
    | cons word rest ih => rw [List.map_cons, List.filterMap_cons_none (reads word), ih]
  rw [waitEvents, List.filterMap_append, silent, List.filterMap_cons_none (reads _)]
  split
  · rw [List.nil_append, List.filterMap_cons_none reschedules,
      List.filterMap_cons_none (reads _), List.filterMap_nil]
  · rfl

def storeAll (ring : Ring txRingSize Word) (events : List TxEvent) : Ring txRingSize Word :=
  (events.filterMap TxEvent.stored).foldl (fun ring entry => ring.set entry.1 entry.2) ring

theorem cleanupEvents_logged (u : UnitTx) (poll : Nat → Word) :
    storeAll u.txRing (cleanupEvents u poll) = (txCleanupPending u).1.txRing ∧
      (cleanupEvents u poll).filterMap TxEvent.freed = (txCleanupPending u).2 ∧
      (cleanupEvents u poll).filterMap TxEvent.written = [] := by
  simp only [storeAll, cleanupEvents, txCleanupPending]
  split
  · exact ⟨rfl, rfl, rfl⟩
  · simp only [List.filterMap_append, wait_silent TxEvent.stored _ _ (fun _ => rfl) rfl,
      wait_silent TxEvent.freed _ _ (fun _ => rfl) rfl,
      wait_silent TxEvent.written _ _ (fun _ => rfl) rfl, List.nil_append]
    exact ⟨rfl, rfl, rfl⟩

/-- The events of a submission are its stores into the ring, the block that it frees and the
registers that it writes. -/
theorem txSubmit_logged (ch : Channels) (u : UnitTx) (f : TxFrame) (poll : Nat → Word) :
    storeAll u.txRing (cleanupEvents u poll ++ postEvents ch u.txNextFill f) =
        (txSubmit ch u f).1.txRing ∧
      (cleanupEvents u poll ++ postEvents ch u.txNextFill f).filterMap TxEvent.freed =
        (txSubmit ch u f).2.1 ∧
      (cleanupEvents u poll ++ postEvents ch u.txNextFill f).filterMap TxEvent.written =
        (txSubmit ch u f).2.2 := by
  obtain ⟨ring, freed, written⟩ := cleanupEvents_logged u poll
  have fill : (txCleanupPending u).1.txNextFill = u.txNextFill := by
    simp only [txCleanupPending]
    split <;> rfl
  simp only [storeAll] at ring
  rw [storeAll, List.filterMap_append, List.foldl_append, ring, List.filterMap_append, freed,
    List.filterMap_append, written]
  simp only [txSubmit, fill]
  exact ⟨rfl, List.append_nil _, rfl⟩

theorem life_notes {Value : Type} (ch : Channels) (k : Nat) (f : TxFrame) (finished : Bool)
    (events : List TxEvent) (life : Life ch k f finished events) (note : TxEvent → Option Value)
    (reads : ∀ slot word, note (.read slot word) = none) (reschedules : note .reschedule = none) :
    ∃ call nentries,
      events.filterMap note =
        ((builtCalls f call nentries).map TxEvent.sys ++
          postEvents ch (2 * k % txRingSize) f).filterMap note ++
        if finished then (releaseEvents (2 * k % txRingSize) f.buf f.frameLen).filterMap note
        else [] := by
  obtain ⟨call, nentries, poll, rfl⟩ := life
  refine ⟨call, nentries, ?_⟩
  rw [List.filterMap_append]
  cases finished with
  | false => rfl
  | true =>
      have waits := wait_silent note (2 * k % txRingSize) poll (reads _) reschedules
      simp only [if_true, List.filterMap_append, waits, List.nil_append]

theorem life_sent (ch : Channels) (k : Nat) (f : TxFrame) (finished : Bool) (events : List TxEvent)
    (life : Life ch k f finished events) : SentOnce ch k f finished events := by
  have second : 2 * k % txRingSize + 1 = (2 * k + 1) % txRingSize := by
    simp only [txRingSize]
    omega
  constructor
  · obtain ⟨call, nentries, notes⟩ := life_notes ch k f finished events life TxEvent.posted
      (fun _ _ => rfl) rfl
    rw [notes, ← second]
    cases finished <;> rfl
  · obtain ⟨call, nentries, notes⟩ := life_notes ch k f finished events life TxEvent.written
      (fun _ _ => rfl) rfl
    rw [notes]
    cases finished <;> rfl
  · obtain ⟨call, nentries, notes⟩ := life_notes ch k f finished events life TxEvent.allocated
      (fun _ _ => rfl) rfl
    rw [notes]
    cases finished <;> rfl
  · obtain ⟨call, nentries, notes⟩ := life_notes ch k f finished events life TxEvent.ended
      (fun _ _ => rfl) rfl
    rw [notes]
    cases finished <;> rfl
  · obtain ⟨call, nentries, notes⟩ := life_notes ch k f finished events life TxEvent.freed
      (fun _ _ => rfl) rfl
    rw [notes]
    cases finished <;> rfl

/-- With `tx_lock` free: the fill index, the pending buffer, the empty slots, and for every
submission its slots, its doorbell and what was given back of it. -/
theorem tx_lifecycle (ch : Channels) (s : TxSystem) (reached : (txMachine ch).Reached s) :
    (s.tx.txNextFill % 2 = 0 ∧ s.tx.txNextFill < txRingSize) ∧
    (s.tx.txBufPending = 0 ↔ s.submitted = []) ∧
    (∀ name f, s.submitted.getLast? = some (name, f) →
      s.tx.txBufPending = f.buf ∧ s.tx.txBufPendingLen = f.frameLen ∧
        s.tx.txFillPending = (s.tx.txNextFill + txRingSize - 2) % txRingSize) ∧
    (∀ slot, slot < txRingSize →
      (s.submitted ≠ [] → slot ≠ s.tx.txFillPending ∧ slot ≠ s.tx.txFillPending + 1) →
        s.tx.txRing.get slot = 0#64) ∧
    (s.submitted.map Prod.fst).Nodup ∧
    (∀ k name f, s.submitted[k]? = some (name, f) →
      SentOnce ch k f (decide (k + 1 < s.submitted.length)) (history s.log name)) := by
  have inv := txInv_reached ch s reached
  have fill := inv.fill
  simp only [txRingSize] at fill ⊢
  have some_length : s.submitted ≠ [] → 0 < s.submitted.length := List.length_pos_of_ne_nil
  refine ⟨by omega, ⟨fun none => ?_, inv.idle⟩, ?_, ?_, ?_, ?_⟩
  · by_contra sent
    obtain ⟨same, present, _⟩ := inv.pending _ _ (List.getLast?_eq_some_getLast sent)
    exact present (same ▸ none)
  · intro name f last
    obtain ⟨buf, _, len, pending⟩ := inv.pending name f last
    have positive := some_length fun none => by simp [none] at last
    refine ⟨buf, len, ?_⟩
    rw [pending, fill]
    simp only [txRingSize]
    omega
  · intro slot small apart
    refine inv.ring slot fun sent => ?_
    obtain ⟨_, _, _, pending⟩ := inv.pending _ _ (List.getLast?_eq_some_getLast sent)
    have outside := apart sent
    simp only [txRingSize] at pending
    omega
  · have names := inv.names
    rw [List.map_append] at names
    exact names.of_append_left
  · intro k name f present
    exact life_sent ch k f _ _ (inv.lives k name f present)

def coldTx : TxSystem := ⟨coldWorld.unit.tx, 0, [], [], []⟩

theorem coldTx_cold : TxCold coldTx := ⟨fun _ => rfl, rfl, rfl, rfl, rfl, rfl⟩

def sends (poll : Nat → Word) : List TxAction :=
  [.build callEnv.tx (lengthWorld 100#32) 1, .submit 0 poll]

theorem tx_lifecycle_second :
    ∃ s, (txMachine ⟨0, 0, 0⟩).Reached s ∧ s.submitted.map Prod.fst = [0, 1] ∧
      s.tx.txNextFill % 2 = 0 ∧ s.tx.txNextFill < txRingSize ∧
      ∃ f, SentOnce ⟨0, 0, 0⟩ 0 f true (history s.log 0) := by
  obtain ⟨s, reached, sent⟩ := (txMachine ⟨0, 0, 0⟩).run_shape
    (fun s => s.submitted.map Prod.fst) [0, 1] coldTx
    (sends (fun _ => 0#64) ++ sends (fun _ => 0#64)) (.start _ coldTx_cold) (by decide +kernel)
  obtain ⟨even, _, _, _, _, lives⟩ := tx_lifecycle ⟨0, 0, 0⟩ s reached
  refine ⟨s, reached, sent, even.1, even.2, ?_⟩
  have two : s.submitted.length = 2 := by
    rw [← List.length_map Prod.fst, sent]
    rfl
  have name := congrArg (fun names : List Nat => names[0]?) sent
  simp only [List.getElem?_map, List.getElem?_cons_zero, Option.map_eq_some_iff] at name
  obtain ⟨⟨_, f⟩, first, rfl⟩ := name
  have life := lives 0 _ f first
  rw [two] at life
  exact ⟨f, life⟩

theorem pollLoop_ends (poll : Nat → Word) (left k : Nat) :
    (∃ word ∈ pollLoop poll left k, owned word = false) ∨
      ((pollLoop poll left k).length = left ∧ ∀ word ∈ pollLoop poll left k, owned word = true) := by
  induction left generalizing k with
  | zero => exact .inr ⟨rfl, by simp [pollLoop]⟩
  | succ left ih =>
      by_cases busy : owned (poll k) = true
      · simp only [pollLoop, if_pos busy]
        rcases ih (k + 1) with ⟨word, member, clear⟩ | ⟨full, all⟩
        · exact .inl ⟨word, List.mem_cons_of_mem _ member, clear⟩
        · refine .inr ⟨by rw [List.length_cons, full], fun word member => ?_⟩
          rcases List.mem_cons.mp member with rfl | later
          · exact busy
          · exact all word later
      · simp only [pollLoop, if_neg busy]
        exact .inl ⟨poll k, by simp, by simpa using busy⟩

/-- A read of the descriptor at `slot` found the O bit clear. -/
def SawClear (slot : Nat) (events : List TxEvent) : Prop :=
  ∃ word, .read slot word ∈ events ∧ owned word = false

/-- All polls of the descriptor at `slot`, the look after them, a `Reschedule` and one more look, in
this order; each read found the O bit set. -/
def GaveUp (slot : Nat) (events : List TxEvent) : Prop :=
  ∃ (polls : List Word) (look again : Word),
    events = polls.map (.read slot) ++ [.read slot look, .reschedule, .read slot again] ∧
      polls.length = cleanupTries ∧ (∀ word ∈ polls, owned word = true) ∧
      owned look = true ∧ owned again = true

theorem waitEvents_outcome (slot : Nat) (poll : Nat → Word) :
    SawClear slot (waitEvents slot poll) ∨ GaveUp slot (waitEvents slot poll) := by
  rcases pollLoop_ends poll cleanupTries 0 with ⟨word, member, clear⟩ | ⟨full, all⟩
  · exact .inl ⟨word, List.mem_append_left _ (List.mem_map_of_mem member), clear⟩
  · by_cases look : owned (poll cleanupTries) = true
    · have events : waitEvents slot poll = (pollLoop poll cleanupTries 0).map (.read slot) ++
          [.read slot (poll cleanupTries), .reschedule, .read slot (poll (cleanupTries + 1))] := by
        simp only [waitEvents, full, if_pos look]
      by_cases again : owned (poll (cleanupTries + 1)) = true
      · exact .inr ⟨_, _, _, events, full, all, look, again⟩
      · refine .inl ⟨poll (cleanupTries + 1), ?_, by simpa using again⟩
        simp [events]
    · refine .inl ⟨poll cleanupTries, ?_, by simpa using look⟩
      simp [waitEvents, full]

/-- What comes before a release in the history of its packet: its descriptors, then the wait. -/
theorem life_before (ch : Channels) (k : Nat) (f : TxFrame) (finished : Bool)
    (before after : List (Nat × TxEvent)) (name : Nat) (event : TxEvent)
    (life : Life ch k f finished (history (before ++ (name, event) :: after) name))
    (releases : event.releases = true) :
    ∃ early poll, early ++ waitEvents (2 * k % txRingSize) poll <+: history before name ∧
      .post (2 * k % txRingSize) (txDesc f).1 ∈ early := by
  obtain ⟨call, nentries, poll, whole⟩ := life
  have early : event ∉ (builtCalls f call nentries).map TxEvent.sys ++
      postEvents ch (2 * k % txRingSize) f := by
    intro member
    simp only [builtCalls, postEvents, doorbell, List.map_cons, List.map_nil, List.cons_append,
      List.nil_append, List.mem_cons, List.not_mem_nil, or_false] at member
    rcases member with rfl | rfl | rfl | rfl | rfl | rfl | rfl <;> cases releases
  cases finished with
  | false =>
      have late := (history_mem (before ++ (name, event) :: after) name event).mpr (by simp)
      rw [whole] at late
      simp only [Bool.false_eq_true, if_false, List.append_nil] at late
      exact absurd late early
  | true =>
      have waits : event ∉ waitEvents (2 * k % txRingSize) poll := by
        intro member
        simp only [waitEvents, List.mem_append, List.mem_map, List.mem_cons] at member
        rcases member with ⟨word, _, rfl⟩ | rfl | last
        · cases releases
        · cases releases
        · split at last
          · simp only [List.mem_cons, List.not_mem_nil, or_false] at last
            rcases last with rfl | rfl <;> cases releases
          · cases last
      rw [if_pos rfl, ← List.append_assoc] at whole
      obtain ⟨between, first⟩ := history_before before after name event _ _ whole (by
        rw [List.mem_append]
        exact fun member => member.elim early waits)
      refine ⟨_, poll, ⟨between, first.symm⟩, List.mem_append_right _ ?_⟩
      exact List.mem_cons_self

/-- A transmit buffer is unmapped and freed, and its descriptor pair overwritten, only after its
descriptor was posted and, from then on, its O bit was read as clear, or all polls, a `Reschedule`
and a last read found it set. -/
theorem tx_release_waits (ch : Channels) (s : TxSystem) (reached : (txMachine ch).Reached s)
    (before after : List (Nat × TxEvent)) (k name : Nat) (f : TxFrame) (event : TxEvent)
    (sent : s.submitted[k]? = some (name, f)) (split : s.log = before ++ (name, event) :: after)
    (releases : event.releases = true) :
    ∃ early wait, early ++ wait <+: history before name ∧
      .post (2 * k % txRingSize) (txDesc f).1 ∈ early ∧
      (SawClear (2 * k % txRingSize) wait ∨ GaveUp (2 * k % txRingSize) wait) := by
  have life := (txInv_reached ch s reached).lives k name f sent
  rw [split] at life
  obtain ⟨early, poll, first, posted⟩ := life_before ch k f _ before after name event life releases
  exact ⟨early, _, first, posted, waitEvents_outcome _ poll⟩

/-- With an engine that is done the second packet finds the O bit clear. -/
theorem tx_release_waits_idle :
    ∃ (s : TxSystem) (before after : List (Nat × TxEvent)) (f : TxFrame),
      (txMachine ⟨0, 0, 0⟩).Reached s ∧
      s.log = before ++ (0, .sys (.freeVec 0xA00)) :: after ∧
      ∃ early wait, early ++ wait <+: history before 0 ∧
        .post (2 * 0 % txRingSize) (txDesc f).1 ∈ early ∧
        (SawClear (2 * 0 % txRingSize) wait ∨ GaveUp (2 * 0 % txRingSize) wait) := by
  obtain ⟨s, reached, shape⟩ := (txMachine ⟨0, 0, 0⟩).run_shape
    (fun s => (s.submitted.map Prod.fst, s.log.contains (0, .sys (.freeVec 0xA00))))
    ([0, 1], true) coldTx (sends (fun _ => 0#64) ++ sends (fun _ => 0#64))
    (.start _ coldTx_cold) (by decide +kernel)
  obtain ⟨sent, freed⟩ := Prod.mk.inj shape
  obtain ⟨before, after, split⟩ := List.append_of_mem (List.contains_iff_mem.mp freed)
  have first : s.submitted[0]?.map Prod.fst = some 0 := by
    rw [← List.getElem?_map, sent]
    rfl
  obtain ⟨⟨_, f⟩, present, rfl⟩ := Option.map_eq_some_iff.mp first
  exact ⟨s, before, after, f, reached, split,
    tx_release_waits ⟨0, 0, 0⟩ s reached before after 0 _ f _ present split rfl⟩

theorem waitEvents_stuck (slot : Nat) (stuck : Word) (slot' : Nat) (word : Word)
    (read : .read slot' word ∈ waitEvents slot fun _ => stuck) : word = stuck := by
  have polls : ∀ left k, ∀ word ∈ pollLoop (fun _ => stuck) left k, word = stuck := by
    intro left
    induction left with
    | zero => simp [pollLoop]
    | succ left ih =>
        intro k word member
        simp only [pollLoop, List.mem_cons] at member
        rcases member with same | later
        · exact same
        · split at later
          · exact ih (k + 1) word later
          · cases later
  simp only [waitEvents, List.mem_append, List.mem_map, List.mem_cons, TxEvent.read.injEq] at read
  rcases read with ⟨polled, member, _, rfl⟩ | ⟨_, same⟩ | last
  · exact polls _ _ polled member
  · exact same
  · split at last
    · simp only [List.mem_cons, reduceCtorEq, TxEvent.read.injEq, List.not_mem_nil, or_false,
        false_or] at last
      exact last.2
    · cases last

/-- A stalled engine still owns the first buffer when the second packet frees it. -/
theorem tx_releases_owned :
    ∃ (s : TxSystem) (before after : List (Nat × TxEvent)) (k name : Nat) (f : TxFrame),
      (txMachine ⟨0, 0, 0⟩).Reached s ∧ s.submitted[k]? = some (name, f) ∧
      s.log = before ++ (name, .sys (.freeVec f.buf)) :: after ∧
      ¬ SawClear (2 * k % txRingSize) (history before name) := by
  obtain ⟨s, reached, shape⟩ := (txMachine ⟨0, 0, 0⟩).run_shape
    (fun s => (s.submitted.map Prod.fst, s.writers.map Prod.fst,
      (history s.log 0).filterMap TxEvent.seen)) ([0], [1], []) coldTx
    (sends (fun _ => 0#64) ++ [.build callEnv.tx (lengthWorld 100#32) 1])
    (.start _ coldTx_cold) (by decide +kernel)
  simp only [Prod.mk.injEq] at shape
  obtain ⟨sent, waiting, unread⟩ := shape
  obtain ⟨t, stepped⟩ : ∃ t, (txMachine ⟨0, 0, 0⟩).step s (.submit 0 fun _ => xctMactxO) =
      some t := by
    cases writers : s.writers with
    | nil => simp [writers] at waiting
    | cons writer rest => exact ⟨_, by simp only [txMachine, txStep, writers]; rfl⟩
  have inv := txInv_reached ⟨0, 0, 0⟩ s reached
  obtain ⟨name, f, _, rfl⟩ := submit_step_tx ⟨0, 0, 0⟩ s t 0 _ stepped
  rcases pending_cleanup ⟨0, 0, 0⟩ s inv fun _ => xctMactxO with ⟨none, _⟩ | ⟨g, last, _, events⟩
  · simp [none] at sent
  · have member := List.mem_of_getElem? last
    have first : s.pendingName = 0 := by
      have among := List.mem_map_of_mem (f := Prod.fst) member
      simpa [sent] using among
    let slot := 2 * (s.submitted.length - 1) % txRingSize
    let held := (waitEvents slot fun _ => xctMactxO) ++
      [.clear slot, .clear (slot + 1), .sys (.endDma g.buf g.frameLen.toNat)]
    refine ⟨_, s.log ++ tagged s.pendingName held,
      tagged name (postEvents ⟨0, 0, 0⟩ s.tx.txNextFill f), s.submitted.length - 1,
      s.pendingName, g, .step _ _ _ reached stepped, ?_, ?_, ?_⟩
    · rw [List.getElem?_append_left (List.getElem?_eq_some_iff.mp last).1]
      exact last
    · simp [held, slot, events, releaseEvents, tagged]
    · rintro ⟨word, read, clear⟩
      rw [history_append, history_tagged, first] at read
      rcases List.mem_append.mp read with early | late
      · have seen : word ∈ (history s.log 0).filterMap TxEvent.seen :=
          List.mem_filterMap.mpr ⟨_, early, rfl⟩
        rw [unread] at seen
        cases seen
      · rcases List.mem_append.mp late with wait | release
        · rw [waitEvents_stuck slot xctMactxO _ word wait] at clear
          exact absurd clear (by decide)
        · simp at release

end Pa6tEth

import Pa6tEth.Handshake

/-! At most one unit task at a time. -/

namespace Pa6tEth

open Support

theorem lone_body (s : Lifecycle) (own : OwnFields s) (b : UnitTaskBody) (id : TaskId)
    (found : s.bodies.find? (fun b => b.id = id) = some b) : s.bodies = [b] ∧ b.id = id := by
  have here := List.find?_some found
  have member := List.mem_of_find?_eq_some found
  have one := own.one
  obtain ⟨c, single⟩ : ∃ c, s.bodies = [c] := by
    refine List.length_eq_one_iff.mp (Nat.le_antisymm one ?_)
    exact List.length_pos_of_mem member
  rw [single] at member
  obtain rfl := List.mem_singleton.mp member
  exact ⟨single, by simpa using here⟩

theorem body_frame (ok : Bool) (s u : Lifecycle) (b : UnitTaskBody) (next : Option UnitTaskBody)
    (stepped : bodyStep ok s b = some (u, next)) :
    u.openCount = s.openCount ∧ u.libOpenCnt = s.libOpenCnt ∧ u.taskShutdown = s.taskShutdown ∧
      u.calls = s.calls ∧ u.created = s.created ∧ u.removed = s.removed ∧
      u.unitFreed = s.unitFreed ∧ u.requests = s.requests ∧ u.asked = s.asked ∧
      u.bodies = s.bodies ∧ (u.reported = s.reported ∨ u.reported = b.id :: s.reported) := by
  simp only [bodyStep] at stepped
  repeat' split at stepped
  all_goals cases stepped
  all_goals simp [Lifecycle.clear, Lifecycle.report]

structure Onward (s u : Lifecycle) (b c : UnitTaskBody) : Prop where
  id : c.id = b.id
  startup : c.pc.startup = true → b.pc.startup = true ∧ u.reported = s.reported
  named : c.pc.holdsTask = true → b.pc.holdsTask = true ∨ b.pc.unnamed = true
  unnamed : c.pc.unnamed = true → b.pc.unnamed = true
  ctrlC : c.signals.ctrlC = true → b.signals.ctrlC = true
  leaves : c.pc.startup = false → c.pc.inLoop = false →
    b.pc.startup = false ∧ b.pc.inLoop = false ∨ s.taskShutdown = true ∨ b.signals.ctrlC = true
  waits : c.pc = .waiting → s.taskShutdown = false

theorem body_onward (ok : Bool) (s u : Lifecycle) (b c : UnitTaskBody)
    (stepped : bodyStep ok s b = some (u, some c)) : Onward s u b c := by
  cases place : b.pc
  all_goals
    simp only [bodyStep, place, UnitTaskBody.goto] at stepped
    repeat' split at stepped
  all_goals cases stepped
  all_goals
    constructor
    all_goals simp_all [BodyPc.startup, BodyPc.holdsTask, BodyPc.unnamed, BodyPc.inLoop, Signals.none, Lifecycle.clear]

theorem ownFields_some (s : Lifecycle) (b : UnitTaskBody)
    (port : s.ioPort = if b.pc.holdsPort then some b.id else none)
    (task : s.task = if b.pc.holdsTask then some b.id else none)
    (irq : s.irqWaitTask = if b.pc.holdsIrq then some b.id else none)
    (cleared : ∀ c ∈ s.cleared, c.owner = none ∨ c.owner = some c.task) :
    OwnFields { s with bodies := [b] } := by
  refine ⟨Nat.le_refl 1, ?_, ?_, ?_, nofun, cleared⟩
  all_goals
    intro id pc running
    obtain ⟨rfl, rfl⟩ : id = b.id ∧ pc = b.pc := by simpa using running
    assumption

theorem ownFields_none (s : Lifecycle) (port : s.ioPort = none) (task : s.task = none)
    (irq : s.irqWaitTask = none)
    (cleared : ∀ c ∈ s.cleared, c.owner = none ∨ c.owner = some c.task) :
    OwnFields { s with bodies := [] } :=
  ⟨Nat.zero_le 1, nofun, nofun, nofun, fun _ => ⟨port, task, irq⟩, cleared⟩

theorem ownFields_body (ok : Bool) (s u : Lifecycle) (b : UnitTaskBody) (next : Option UnitTaskBody)
    (single : s.bodies = [b]) (own : OwnFields s)
    (stepped : bodyStep ok s b = some (u, next)) : OwnFields { u with bodies := next.toList } := by
  have running : (b.id, b.pc) ∈ bodyPlaces s.bodies := by simp [single]
  have port := own.port b.id b.pc running
  have task := own.task b.id b.pc running
  have irq := own.irq b.id b.pc running
  have cleared := own.cleared
  have clears : ∀ owner, owner = none ∨ owner = some b.id →
      ∀ c ∈ ⟨b.id, owner⟩ :: s.cleared, c.owner = none ∨ c.owner = some c.task :=
    fun owner own => List.forall_mem_cons.mpr ⟨own, cleared⟩
  cases place : b.pc
  all_goals
    simp only [bodyStep, place, UnitTaskBody.goto] at stepped
    simp only [place, BodyPc.holdsPort, BodyPc.holdsTask, BodyPc.holdsIrq, if_true, Bool.false_eq_true,
      if_false] at port task irq
  case allocPort =>
    split at stepped
    all_goals cases stepped
    · exact ownFields_some _ _ rfl task irq cleared
    · exact ownFields_some _ _ rfl task irq (clears _ (.inl port))
  case setTask =>
    cases stepped
    exact ownFields_some _ _ port rfl irq cleared
  case allocSignal =>
    split at stepped
    all_goals cases stepped
    · exact ownFields_some _ _ port task rfl cleared
    · exact ownFields_some _ _ port task irq cleared
  case unwindPort =>
    cases stepped
    exact ownFields_some _ _ rfl task irq (clears _ (.inr port))
  case unwindTask =>
    cases stepped
    exact ownFields_some _ _ port rfl irq (clears _ (.inr task))
  case reportFailure =>
    cases stepped
    exact ownFields_none _ port task irq cleared
  case exitIrq =>
    cases stepped
    exact ownFields_some _ _ port task rfl (clears _ (.inr irq))
  case exitPort =>
    cases stepped
    exact ownFields_some _ _ rfl task irq (clears _ (.inr port))
  case exitTask =>
    cases stepped
    exact ownFields_none _ port rfl irq (clears _ (.inr task))
  all_goals
    repeat' split at stepped
  all_goals cases stepped
  all_goals exact ownFields_some _ _ port task irq cleared

theorem counted_body (ok : Bool) (s u : Lifecycle) (b : UnitTaskBody) (next : Option UnitTaskBody)
    (counted : OpensCounted s) (stepped : bodyStep ok s b = some (u, next)) :
    OpensCounted { u with bodies := next.toList } := by
  obtain ⟨opened, lib, -, calls, -, removed, freed, requests, -⟩ := body_frame ok s u b next stepped
  constructor
  · simpa only [lib, requests, calls] using counted.lib
  · simpa only [opened, requests, calls] using counted.opened
  · simpa only [lib, removed] using counted.removed
  · simpa only [lib, calls] using counted.removing
  · simpa only [calls, removed] using counted.freeing
  · simpa only [freed, removed] using counted.freed

theorem startup_body (ok : Bool) (s u : Lifecycle) (b : UnitTaskBody) (next : Option UnitTaskBody)
    (single : s.bodies = [b]) (startup : Startup s)
    (stepped : bodyStep ok s b = some (u, next)) : Startup { u with bodies := next.toList } := by
  obtain ⟨-, -, -, calls, created, -, -, -, -, -, reported⟩ := body_frame ok s u b next stepped
  have running : (b.id, b.pc) ∈ bodyPlaces s.bodies := by simp [single]
  have fresh := startup.fresh b.id b.pc running
  constructor
  · simpa only [calls] using startup.single
  · intro c member early
    rw [calls] at member
    have none := startup.empty c member early
    rw [single] at none
    cases none
  · intro id place there starts
    cases next with
    | none => cases there
    | some c =>
        obtain ⟨rfl, rfl⟩ : id = c.id ∧ place = c.pc := by simpa using there
        have onward := body_onward ok s u b c stepped
        obtain ⟨before, silent⟩ := onward.startup starts
        rw [onward.id, calls, silent]
        exact startup.parent b.id b.pc running before
  · intro id place there
    cases next with
    | none => cases there
    | some c =>
        obtain ⟨rfl, rfl⟩ : id = c.id ∧ place = c.pc := by simpa using there
        rw [(body_onward ok s u b c stepped).id, created]
        exact fresh
  · intro id told
    rw [created]
    rcases reported with same | more
    · exact startup.known id (same ▸ told)
    · rw [more] at told
      rcases List.mem_cons.mp told with rfl | earlier
      · exact fresh
      · exact startup.known id earlier

theorem guarded_body (ok : Bool) (s u : Lifecycle) (b : UnitTaskBody) (next : Option UnitTaskBody)
    (single : s.bodies = [b]) (guarded : Guarded s)
    (stepped : bodyStep ok s b = some (u, next)) : Guarded { u with bodies := next.toList } := by
  obtain ⟨opened, -, flag, calls, -⟩ := body_frame ok s u b next stepped
  have running : (b.id, b.pc) ∈ bodyPlaces s.bodies := by simp [single]
  have onward : ∀ id place, (id, place) ∈ bodyPlaces next.toList →
      ∃ c, Onward s u b c ∧ id = c.id ∧ place = c.pc := by
    intro id place there
    cases next with
    | none => cases there
    | some c => exact ⟨c, body_onward ok s u b c stepped, by simpa using there⟩
  constructor
  · intro id place there
    obtain ⟨c, onward, rfl, rfl⟩ := onward id place there
    rw [onward.id]
    simpa only [Lifecycle.Wanted, opened, calls] using guarded.wanted b.id b.pc running
  · intro id place there raised held
    obtain ⟨c, onward, rfl, rfl⟩ := onward id place there
    rw [flag] at raised
    rw [calls]
    rcases onward.named held with before | unnamed
    · exact guarded.shown b.id b.pc running raised before
    · rw [guarded.lowered b.id b.pc running unnamed] at raised
      cases raised
  · simpa only [calls, flag] using guarded.created
  · intro id place there unnamed
    obtain ⟨c, onward, rfl, rfl⟩ := onward id place there
    rw [flag]
    exact guarded.lowered b.id b.pc running (onward.unnamed unnamed)
  · rintro waits
    rw [calls]
    refine guarded.unasked ?_
    rcases waits with early | ⟨id, place, there, unnamed⟩
    · exact .inl (calls ▸ early)
    · obtain ⟨c, onward, rfl, rfl⟩ := onward id place there
      exact .inr ⟨b.id, b.pc, running, onward.unnamed unnamed⟩
  · simpa only [calls, flag] using guarded.raised

theorem asked_body (ok : Bool) (s u : Lifecycle) (b : UnitTaskBody) (next : Option UnitTaskBody)
    (single : s.bodies = [b]) (asked : Asked s)
    (stepped : bodyStep ok s b = some (u, next)) : Asked { u with bodies := next.toList } := by
  obtain ⟨-, -, flag, -, created, -, -, -, told, -⟩ := body_frame ok s u b next stepped
  have running : (b.id, b.pc) ∈ bodyPlaces s.bodies := by simp [single]
  have member : b ∈ s.bodies := by simp [single]
  cases next with
  | none => exact ⟨nofun, nofun, nofun, by simpa only [told, created] using asked.known⟩
  | some c =>
      have onward := body_onward ok s u b c stepped
      constructor
      · intro id place there late out
        obtain ⟨rfl, rfl⟩ : id = c.id ∧ place = c.pc := by simpa using there
        rw [flag]
        rcases onward.leaves late out with ⟨before, outside⟩ | raised | signalled
        · exact asked.leaving b.id b.pc running before outside
        · exact raised
        · exact asked.flagged b member (.inl signalled)
      · intro d there sees
        obtain rfl := List.mem_singleton.mp there
        rw [flag]
        rw [told, onward.id] at sees
        exact asked.flagged b member (sees.imp onward.ctrlC fun told => told)
      · intro d there asks waits
        obtain rfl := List.mem_singleton.mp there
        rw [told, onward.id] at asks
        have low := onward.waits waits
        rw [asked.flagged b member (.inr asks)] at low
        cases low
      · simpa only [told, created] using asked.known

structure SingleTask (s : Lifecycle) : Prop where
  counted : OpensCounted s
  own : OwnFields s
  startup : Startup s
  guarded : Guarded s
  asked : Asked s

theorem begin_call (s : Lifecycle) (pc : ManagerPc) (lib : BitVec 16) (requests : Nat)
    (inv : SingleTask s) (starts : pc.startsTask = false) (early : pc.beforeTask = false)
    (shuts : pc.shutsDown = false)
    (counted : OpensCounted { s with libOpenCnt := lib, requests := requests, calls := pc :: s.calls }) :
    SingleTask { s with libOpenCnt := lib, requests := requests, calls := pc :: s.calls } := by
  have quiet : pc.asks = false := by
    by_contra asking
    rw [(asks_shuts pc (by simpa using asking)).1] at shuts
    cases shuts
  obtain ⟨single, empty, parent, fresh, known⟩ := inv.startup
  obtain ⟨wanted, shown, created, lowered, unasked, raised⟩ := inv.guarded
  refine ⟨counted, ?_, ?_, ?_, ?_⟩
  · exact ⟨inv.own.one, inv.own.port, inv.own.task, inv.own.irq, inv.own.idle, inv.own.cleared⟩
  · constructor
    · simpa [List.countP_cons, starts] using single
    · exact List.forall_mem_cons.mpr ⟨fun before => by simp [early] at before, empty⟩
    · exact fun id place running begins =>
        (parent id place running begins).imp (List.mem_cons_of_mem pc) fun silent => silent
    · exact fresh
    · exact known
  · constructor
    · exact fun id place running => (wanted id place running).imp_right
        (Or.imp (List.mem_cons_of_mem pc) (Or.imp (List.mem_cons_of_mem pc) fun shutting =>
          shutting.imp fun c => And.imp_left (List.mem_cons_of_mem pc)))
    · exact fun id place running flag held =>
        (shown id place running flag held).imp fun c => And.imp_left (List.mem_cons_of_mem pc)
    · intro member
      rcases List.mem_cons.mp member with rfl | old
      · cases early
      · exact created old
    · exact lowered
    · intro waits
      refine List.forall_mem_cons.mpr ⟨shuts_unseen pc shuts, unasked ?_⟩
      rcases waits with ⟨c, member, before⟩ | unnamed
      · rcases List.mem_cons.mp member with rfl | old
        · simp [early] at before
        · exact .inl ⟨c, old, before⟩
      · exact .inr unnamed
    · exact List.forall_mem_cons.mpr ⟨fun asking => by simp [quiet] at asking, raised⟩
  · exact ⟨inv.asked.leaving, inv.asked.flagged, inv.asked.awake, inv.asked.known⟩

theorem call_others (ok : Bool) (s : Lifecycle) (calls : List ManagerPc) (pc : ManagerPc) :
    managerCallStep ok { s with calls := calls } pc =
      (managerCallStep ok s pc).map fun done => ({ done.1 with calls := calls }, done.2) := by
  cases pc
  all_goals
    simp only [managerCallStep]
    repeat' split
  all_goals rfl

theorem single_call (s t : Lifecycle) (i : Nat) (ok : Bool) (inv : SingleTask s)
    (allowed : orderly s (.call i ok) = true) (stepped : lifecycleStep s (.call i ok) = some t) :
    SingleTask t := by
  obtain ⟨pc, u, next, present, moved, rfl⟩ := lifecycle_call s t i ok stepped
  have perm := call_perm s.calls i pc present
  have other : managerCallStep ok { s with calls := pc :: s.calls.eraseIdx i } pc =
      some ({ u with calls := pc :: s.calls.eraseIdx i }, next) := by
    rw [call_others, moved]
    rfl
  simp only [orderly, present] at allowed
  have enters : pc = .opening → ok = true → s.openCount = 0 →
      ∀ c ∈ s.calls.eraseIdx i, c.startsTask = false ∧ c.shutsDown = false := by
    rintro rfl rfl closed c member
    have all := allowed
    simp only [closed, Bool.not_true, Bool.false_or, ne_eq, not_true_eq_false, decide_false,
      List.all_eq_true] at all
    simpa using all c (List.mem_of_mem_eraseIdx member)
  have ends : ∀ patience, pc = .polling patience → s.task = none ∨ patience ≠ 0 := by
    rintro patience rfl
    simpa using allowed
  have counted := counted_perm s _ perm inv.counted
  have own : OwnFields { s with calls := pc :: s.calls.eraseIdx i } :=
    ⟨inv.own.one, inv.own.port, inv.own.task, inv.own.irq, inv.own.idle, inv.own.cleared⟩
  have startup := startup_perm s _ perm inv.startup
  have guarded := guarded_perm s _ perm inv.guarded
  have asked : Asked { s with calls := pc :: s.calls.eraseIdx i } :=
    ⟨inv.asked.leaving, inv.asked.flagged, inv.asked.awake, inv.asked.known⟩
  have counts := counted_call ok _ _ pc next _ rfl counted other
  have fields := ownFields_call ok _ _ pc next (s.calls.eraseIdx i) List.mem_cons_self own startup
    other
  have starts := startup_call ok _ _ pc next _ rfl startup guarded enters other
  have guards := guarded_call ok _ _ pc next _ rfl own startup asked guarded enters ends other
  have asks := asked_call ok _ _ pc next (s.calls.eraseIdx i) List.mem_cons_self own startup guarded
    asked other
  exact ⟨counts, fields, starts, guards, asks⟩

theorem task_lifecycle (s t : Lifecycle) (id : TaskId) (ok : Bool) (own : OwnFields s)
    (stepped : lifecycleStep s (.task id ok) = some t) :
    ∃ b u next, s.bodies = [b] ∧ b.id = id ∧ bodyStep ok s b = some (u, next) ∧
      t = { u with bodies := next.toList } := by
  obtain ⟨b, u, next, found, moved, rfl⟩ := lifecycle_task s t id ok stepped
  obtain ⟨single, rfl⟩ := lone_body s own b id found
  obtain ⟨-, -, -, -, -, -, -, -, -, bodies, -⟩ := body_frame ok s u b next moved
  refine ⟨b, u, next, single, rfl, moved, ?_⟩
  simp [Lifecycle.putBody, bodies, single]

theorem single_signal (s : Lifecycle) (id : TaskId) (port irq : Bool) (inv : SingleTask s) :
    SingleTask (s.signalBody id ⟨port, irq, false⟩) := by
  have places := signalBody_places s id ⟨port, irq, false⟩
  have bodies : ∀ b ∈ (s.signalBody id ⟨port, irq, false⟩).bodies, ∃ a ∈ s.bodies,
      b.id = a.id ∧ b.pc = a.pc ∧ b.signals.ctrlC = a.signals.ctrlC := by
    intro b member
    obtain ⟨a, before, rfl⟩ := List.mem_map.mp member
    refine ⟨a, before, ?_⟩
    split <;> simp [Signals.join]
  obtain ⟨counted, own, startup, guarded, asked⟩ := inv
  refine ⟨⟨counted.lib, counted.opened, counted.removed, counted.removing, counted.freeing,
    counted.freed⟩, ?_, ?_, ?_, ?_⟩
  · have length : (s.signalBody id ⟨port, irq, false⟩).bodies.length = s.bodies.length := by
      rw [← bodyPlaces_length, places, bodyPlaces_length]
    exact ⟨length ▸ own.one, places ▸ own.port, places ▸ own.task, places ▸ own.irq,
      places ▸ own.idle, own.cleared⟩
  · exact ⟨startup.single, places ▸ startup.empty, places ▸ startup.parent, places ▸ startup.fresh,
      startup.known⟩
  · refine ⟨places ▸ guarded.wanted, places ▸ guarded.shown, guarded.created,
      places ▸ guarded.lowered, fun waits => guarded.unasked ?_, guarded.raised⟩
    rcases waits with early | ⟨other, place, running, unnamed⟩
    · exact .inl early
    · exact .inr ⟨other, place, places ▸ running, unnamed⟩
  · refine ⟨places ▸ asked.leaving, ?_, ?_, asked.known⟩
    · intro b member sees
      obtain ⟨a, before, name, -, signal⟩ := bodies b member
      rw [name, signal] at sees
      exact asked.flagged a before sees
    · intro b member told waits
      obtain ⟨a, before, name, place, signal⟩ := bodies b member
      rw [name] at told
      rw [place] at waits
      rw [signal]
      exact asked.awake a before told waits

theorem single_step (s t : Lifecycle) (a : LifecycleAction) (inv : SingleTask s)
    (allowed : orderly s a = true) (stepped : lifecycleStep s a = some t) : SingleTask t := by
  cases a with
  | openDevice =>
      simp only [lifecycleStep] at stepped
      split at stepped
      · cases stepped
      · rename_i standing
        obtain rfl := Option.some.inj stepped
        simp only [orderly, Bool.and_eq_true, decide_eq_true_eq, List.all_eq_true] at allowed
        obtain ⟨wraps, apart⟩ := allowed
        refine begin_call s .opening (s.libOpenCnt + 1) s.requests inv rfl rfl rfl
          ⟨?_, by simpa [List.countP_cons, ManagerPc.closes] using inv.counted.opened, ?_, ?_, ?_,
            inv.counted.freed⟩
        · have lib := inv.counted.lib
          have small := s.libOpenCnt.isLt
          have below : s.libOpenCnt.toNat ≠ 65535 := fun same =>
            wraps (BitVec.eq_of_toNat_eq same)
          have one : (1 : BitVec 16).toNat = 1 := rfl
          simp only [BitVec.toNat_add, one, List.countP_cons, ManagerPc.libCounted, if_true]
          omega
        · exact fun gone => absurd gone (by simpa using standing)
        · intro member
          exact absurd rfl (apart .expungeRemove (by simpa using member))
        · exact fun member => inv.counted.freeing (by simpa using member)
  | closeDevice =>
      simp only [lifecycleStep] at stepped
      split at stepped
      · cases stepped
      · rename_i standing
        obtain rfl := Option.some.inj stepped
        simp only [not_or] at standing
        have lib := inv.counted.lib
        have opened := inv.counted.opened
        refine begin_call s .closeTest s.libOpenCnt (s.requests - 1) inv rfl rfl rfl
          ⟨?_, ?_, inv.counted.removed, ?_, ?_, inv.counted.freed⟩
        · simp only [List.countP_cons, ManagerPc.libCounted, if_true]
          omega
        · simp only [List.countP_cons, ManagerPc.closes, if_true]
          omega
        · exact fun member => inv.counted.removing (by simpa using member)
        · exact fun member => inv.counted.freeing (by simpa using member)
  | expunge =>
      simp only [lifecycleStep] at stepped
      split at stepped
      · cases stepped
      · obtain rfl := Option.some.inj stepped
        refine begin_call s .expungeTest s.libOpenCnt s.requests inv rfl rfl rfl
          ⟨?_, ?_, inv.counted.removed, ?_, ?_, inv.counted.freed⟩
        · simpa [List.countP_cons, ManagerPc.libCounted] using inv.counted.lib
        · simpa [List.countP_cons, ManagerPc.closes] using inv.counted.opened
        · exact fun member => inv.counted.removing (by simpa using member)
        · exact fun member => inv.counted.freeing (by simpa using member)
  | call i ok => exact single_call s t i ok inv allowed stepped
  | task id ok =>
      obtain ⟨counted, own, startup, guarded, asked⟩ := inv
      obtain ⟨b, u, next, single, -, moved, rfl⟩ := task_lifecycle s t id ok own stepped
      exact ⟨counted_body ok s u b next counted moved, ownFields_body ok s u b next single own moved,
        startup_body ok s u b next single startup moved,
        guarded_body ok s u b next single guarded moved, asked_body ok s u b next single asked moved⟩
  | signal id port irq =>
      obtain rfl := Option.some.inj stepped
      exact single_signal s id port irq inv

theorem single_reached (s : Lifecycle) (reached : (lifecycleMachine.allow orderly).Reached s) :
    SingleTask s := by
  refine (lifecycleMachine.allow orderly).invariant SingleTask ?_ ?_ s reached
  · rintro s rfl
    refine ⟨⟨rfl, rfl, nofun, nofun, nofun, nofun⟩, ?_, ?_, ?_, ?_⟩
    · exact ⟨Nat.zero_le 1, nofun, nofun, nofun, fun _ => ⟨rfl, rfl, rfl⟩, nofun⟩
    · exact ⟨Nat.zero_le 1, nofun, nofun, nofun, nofun⟩
    · exact ⟨nofun, nofun, nofun, nofun, fun _ => nofun, nofun⟩
    · exact ⟨nofun, nofun, nofun, nofun⟩
  · intro s a t inv moved
    obtain ⟨allowed, stepped⟩ := lifecycleMachine.allow_step orderly s t a moved
    exact single_step s t a inv allowed stepped

theorem removed_empty (s : Lifecycle) (inv : SingleTask s) (removed : s.removed = true) :
    s.bodies = [] := by
  have lib := inv.counted.lib
  have opened := inv.counted.opened
  rw [inv.counted.removed removed] at lib
  have none : s.requests = 0 ∧ s.calls.countP ManagerPc.libCounted = 0 := by
    simp only [BitVec.toNat_zero] at lib
    omega
  have uncounted := List.countP_eq_zero.mp none.2
  have idle : ∀ c ∈ s.calls, c.startsTask = false ∧ c.shutsDown = false := by
    intro c member
    have weightless := uncounted c member
    cases c <;> simp_all [ManagerPc.libCounted, ManagerPc.startsTask, ManagerPc.shutsDown]
  have closed : s.openCount = 0 := by
    rw [opened, none.1, Nat.zero_add, List.countP_eq_zero]
    intro c member closing
    apply uncounted c member
    cases c <;> first | rfl | cases closing
  exact List.map_eq_nil_iff.mp (unwanted_empty s inv.guarded closed idle)

/-- How many steps of its own an asked task is away from the end of its loop. -/
def leaveRank : BodyPc → Nat
  | .waiting => 4
  | .woken => 3
  | .allocSignal => 3
  | .working => 2
  | .reportReady => 2
  | .loopHead => 1
  | _ => 0

theorem leaveRank_body (ok : Bool) (s u : Lifecycle) (b c : UnitTaskBody)
    (named : b.pc.unnamed = false) (raised : s.taskShutdown = true)
    (stepped : bodyStep ok s b = some (u, some c)) :
    leaveRank c.pc ≤ leaveRank b.pc - if ok then 1 else 0 := by
  cases place : b.pc
  all_goals
    simp only [bodyStep, place, UnitTaskBody.goto] at stepped
    repeat' split at stepped
  all_goals cases stepped
  all_goals simp_all [leaveRank, BodyPc.unnamed]
  all_goals
    split
    all_goals omega

/-- The body with this number is at most so many steps of its own from the end of its loop. -/
def Lifecycle.LeavesIn (s : Lifecycle) (id : TaskId) (n : Nat) : Prop :=
  id ∈ s.asked ∧ ∀ pc, (id, pc) ∈ bodyPlaces s.bodies → leaveRank pc ≤ n

theorem manager_asked (ok : Bool) (s u : Lifecycle) (pc : ManagerPc) (next : Option ManagerPc)
    (id : TaskId) (told : id ∈ s.asked) (stepped : managerCallStep ok s pc = some (u, next)) :
    id ∈ u.asked := by
  cases pc
  all_goals
    simp only [managerCallStep] at stepped
    repeat' split at stepped
  all_goals cases stepped
  all_goals first | exact told | exact List.mem_cons_of_mem _ told

theorem leavesIn_step (s t : Lifecycle) (a : LifecycleAction) (id : TaskId) (n : Nat)
    (inv : SingleTask s) (stepped : lifecycleStep s a = some t) (leaves : s.LeavesIn id n) :
    t.LeavesIn id (n - if a = .task id true then 1 else 0) := by
  obtain ⟨told, near⟩ := leaves
  cases a with
  | task other ok =>
      obtain ⟨b, u, next, single, rfl, moved, rfl⟩ := task_lifecycle s t other ok inv.own stepped
      obtain ⟨-, -, -, -, -, -, -, -, asked, -⟩ := body_frame ok s u b next moved
      refine ⟨asked ▸ told, fun pc there => ?_⟩
      cases next with
      | none => cases there
      | some c =>
          obtain ⟨rfl, rfl⟩ : id = c.id ∧ pc = c.pc := by simpa using there
          have same := (body_onward ok s u b c moved).id
          have running : (b.id, b.pc) ∈ bodyPlaces s.bodies := by simp [single]
          have raised := inv.asked.flagged b (by simp [single]) (.inr (same ▸ told))
          have named : b.pc.unnamed = false := by
            by_contra unnamed
            rw [inv.guarded.lowered b.id b.pc running (by simpa using unnamed)] at raised
            cases raised
          have closer := leaveRank_body ok s u b c named raised moved
          have before := near b.pc (same ▸ running)
          simp only [LifecycleAction.task.injEq, same, true_and]
          omega
  | call i ok =>
      obtain ⟨pc, u, next, present, moved, rfl⟩ := lifecycle_call s t i ok stepped
      refine ⟨manager_asked ok s u pc next id told moved, fun place there => ?_⟩
      obtain ⟨who, -⟩ := call_places ok s u pc next moved
      rcases who with ⟨places, -⟩ | ⟨-, places, -, -⟩
      · rw [places] at there
        exact near place there
      · rw [places] at there
        rcases List.mem_cons.mp there with new | old
        · have known := inv.asked.known id told
          rw [(Prod.mk.inj new).1] at known
          exact absurd known (Nat.lt_irrefl _)
        · exact near place old
  | signal other port irq =>
      obtain rfl := Option.some.inj stepped
      refine ⟨told, fun place there => ?_⟩
      rw [signalBody_places] at there
      exact near place there
  | _ =>
      simp only [lifecycleStep] at stepped
      split at stepped
      · cases stepped
      · obtain rfl := Option.some.inj stepped
        exact ⟨told, near⟩

theorem leavesIn_run (actions : List LifecycleAction) (id : TaskId) (n : Nat) (s t : Lifecycle)
    (reached : (lifecycleMachine.allow orderly).Reached s) (leaves : s.LeavesIn id n)
    (ran : (lifecycleMachine.allow orderly).run s actions = some t) :
    t.LeavesIn id (n - actions.count (.task id true)) := by
  induction actions generalizing s n with
  | nil =>
      cases ran
      exact leaves
  | cons a rest ih =>
      obtain ⟨u, moved, later⟩ := (lifecycleMachine.allow orderly).run_cons s t a rest ran
      have stepped := (lifecycleMachine.allow_step orderly s u a moved).2
      have next := leavesIn_step s u a id n (single_reached s reached) stepped leaves
      have last := ih _ u (.step s a u reached moved) next later
      rw [List.count_cons, Nat.add_comm, ← Nat.sub_sub]
      simpa only [beq_iff_eq] using last

theorem asked_runs (s : Lifecycle) (inv : SingleTask s) (b : UnitTaskBody) (member : b ∈ s.bodies)
    (told : b.id ∈ s.asked) (ok : Bool) : ∃ t, lifecycleStep s (.task b.id ok) = some t := by
  obtain ⟨c, single⟩ : ∃ c, s.bodies = [c] :=
    List.length_eq_one_iff.mp (Nat.le_antisymm inv.own.one (List.length_pos_of_mem member))
  rw [single] at member
  obtain rfl := List.mem_singleton.mp member
  have awake := inv.asked.awake b (by simp [single]) told
  have runs : ∃ done, bodyStep ok s b = some done := by
    cases place : b.pc
    case waiting =>
      have pending : b.signals.pending = true := by simp [Signals.pending, awake place]
      simp [bodyStep, place, pending]
    all_goals
      simp only [bodyStep, place]
      repeat' split
    all_goals exact ⟨_, rfl⟩
  obtain ⟨done, moved⟩ := runs
  exact ⟨done.1.putBody b.id done.2, by simp [lifecycleStep, single, moved]⟩

/-- When no `Open` starts a unit task while another call starts or stops one or has still to look at
the count that it took down, none begins under an `_manager_Expunge` that goes on, and the polling
of `UnitTask_Shutdown` ends only with `unit->task` cleared, at most one unit task runs, it clears no
field but its own, an asked one runs on and is out of its loop after four finished steps of its
own, and the unit is freed only without one. -/
theorem one_unit_task (s : Lifecycle) (reached : (lifecycleMachine.allow orderly).Reached s) :
    s.bodies.length ≤ 1 ∧
    (∀ c ∈ s.cleared, c.owner = none ∨ c.owner = some c.task) ∧
    (s.unitFreed = true → s.bodies = []) ∧
    (∀ b ∈ s.bodies, b.id ∈ s.asked →
      (∀ ok, ∃ t, lifecycleMachine.step s (.task b.id ok) = some t) ∧
      ∀ actions t, (lifecycleMachine.allow orderly).run s actions = some t →
        4 ≤ actions.count (.task b.id true) →
          ∀ c ∈ t.bodies, c.id = b.id → c.pc.inLoop = false) := by
  have inv := single_reached s reached
  refine ⟨inv.own.one, inv.own.cleared, fun freed =>
    removed_empty s inv (inv.counted.freed freed), fun b member told => ⟨fun ok =>
      asked_runs s inv b member told ok, fun actions t ran enough c there same => ?_⟩⟩
  have ranks : ∀ pc, leaveRank pc ≤ 4 := fun pc => by cases pc <;> decide
  have leaves := leavesIn_run actions b.id 4 s t reached ⟨told, fun pc _ => ranks pc⟩ ran
  have out := leaves.2 c.pc (same ▸ List.mem_map_of_mem (f := fun b => (b.id, b.pc)) there)
  have zero : leaveRank c.pc = 0 := by omega
  cases place : c.pc <;> first | rfl | (rw [place] at zero; cases zero)

/-- The polling without an exit of the unit task, to its end. -/
theorem polling_exhausted (patience : Nat) (s : Lifecycle) (calls : s.calls = [.polling patience])
    (held : s.task ≠ none) :
    lifecycleMachine.run s (List.replicate (patience + 1) (.call 0 true)) =
      some { s with calls := [.libUncount] } := by
  induction patience generalizing s with
  | zero => simp [Machine.run, lifecycleMachine, lifecycleStep, managerCallStep, calls]
  | succ n ih =>
      have step : lifecycleMachine.step s (.call 0 true) = some { s with calls := [.polling n] } := by
        simp [lifecycleMachine, lifecycleStep, managerCallStep, calls, held]
      rw [List.replicate_succ, Machine.run, step, Option.bind_some]
      exact ih { s with calls := [.polling n] } rfl held

/-- One session up to a pass through the loop that takes long, and its `Close` up to the polling. -/
def slowSession : List LifecycleAction :=
  .openDevice :: List.replicate 3 (.call 0 true) ++ List.replicate 4 (.task 0 true) ++
    List.replicate 2 (.call 0 true) ++
    [.task 0 true, .signal 0 false true, .task 0 true, .task 0 true, .closeDevice] ++
    List.replicate 6 (.call 0 true)

def slowTask : Lifecycle where
  openCount := 0
  libOpenCnt := 1#16
  delExp := false
  taskShutdown := true
  task := some 0
  ioPort := some 0
  irqWaitTask := some 0
  bodies := [⟨0, .working, ⟨false, false, true⟩⟩]
  calls := [.polling shutdownPatience]
  created := 1
  reported := [0]
  removed := false
  unitFreed := false
  requests := 0
  asked := [0]
  cleared := []

/-- The task that its `Close` waits for is the only one, and it runs on. -/
theorem one_unit_task_slow :
    (lifecycleMachine.allow orderly).Reached slowTask ∧ slowTask.bodies.length ≤ 1 ∧
      ∃ t, lifecycleMachine.step slowTask (.task 0 true) = some t := by
  have reached : (lifecycleMachine.allow orderly).Reached slowTask :=
    (lifecycleMachine.allow orderly).run_reached noSession slowTask slowSession (.start _ rfl)
      (by decide +kernel)
  have one := one_unit_task slowTask reached
  exact ⟨reached, one.1, (one.2.2.2 _ List.mem_cons_self List.mem_cons_self).1 true⟩

theorem gave_up : lifecycleMachine.Reached { slowTask with calls := [.libUncount] } := by
  have reached := lifecycleMachine.run_reached noSession slowTask slowSession (.start _ rfl)
    (by decide +kernel)
  exact lifecycleMachine.run_reached slowTask _ _ reached
    (polling_exhausted shutdownPatience slowTask rfl nofun)

/-- The next `Open`, up to the loop of its unit task. -/
def nextSession : List LifecycleAction :=
  [.call 0 true, .call 0 true, .openDevice] ++ List.replicate 3 (.call 0 true) ++
    List.replicate 4 (.task 1 true)

/-- A unit task outlasts the polling of its `Close`. The next `Open` then starts a second one and
lowers the flag, and the first waits again with its `CTRL_C` consumed; or the first goes on to
clear the second one's fields; or `Expunge` frees the unit under it. -/
theorem unit_tasks_overlap :
    (∃ s, lifecycleMachine.Reached s ∧ s.asked = [0] ∧
      s.bodies = [⟨1, .loopHead, .none⟩, ⟨0, .waiting, .none⟩] ∧ s.taskShutdown = false) ∧
    (∃ s, lifecycleMachine.Reached s ∧ s.bodies = [⟨1, .loopHead, .none⟩] ∧
      s.task = none ∧ s.ioPort = none ∧ s.irqWaitTask = none ∧
      s.cleared = [⟨0, some 1⟩, ⟨0, some 1⟩, ⟨0, some 1⟩]) ∧
    ∃ s, lifecycleMachine.Reached s ∧ s.unitFreed = true ∧ s.bodies.length = 1 := by
  refine ⟨?_, ?_, ?_⟩
  · obtain ⟨s, reached, shape⟩ := lifecycleMachine.run_shape
      (fun s => (s.asked, s.bodies, s.taskShutdown))
      ([0], [⟨1, .loopHead, .none⟩, ⟨0, .waiting, .none⟩], false) _
      (nextSession ++ List.replicate 6 (.task 0 true)) gave_up (by decide +kernel)
    simp only [Prod.mk.injEq] at shape
    exact ⟨s, reached, shape⟩
  · obtain ⟨s, reached, shape⟩ := lifecycleMachine.run_shape
      (fun s => (s.bodies, s.task, s.ioPort, s.irqWaitTask, s.cleared))
      ([⟨1, .loopHead, .none⟩], none, none, none, [⟨0, some 1⟩, ⟨0, some 1⟩, ⟨0, some 1⟩]) _
      (List.replicate 2 (.task 0 true) ++ nextSession ++ List.replicate 4 (.task 0 true)) gave_up
      (by decide +kernel)
    simp only [Prod.mk.injEq] at shape
    exact ⟨s, reached, shape⟩
  · obtain ⟨s, reached, shape⟩ := lifecycleMachine.run_shape
      (fun s => (s.unitFreed, s.bodies.length)) (true, 1) _
      ([.call 0 true, .call 0 true, .expunge] ++ List.replicate 3 (.call 0 true)) gave_up
      (by decide +kernel)
    simp only [Prod.mk.injEq] at shape
    exact ⟨s, reached, shape⟩

end Pa6tEth

import Pa6tEth.Nodes

/-! The programs on the nodes, step by step beside the driver. -/

namespace Pa6tEth

open Support World

/-- What one step of the driver does to nodes and requests. -/
inductive NodeOp
  | rest
  | submit (r : ReqId) (q : IOSana2Req)
  | write (r : ReqId) (q : IOSana2Req)
  | newWrapper (pr : PendingRead) (q : IOSana2Req)
  | addRead (pr : PendingRead) (c : ReadClass)
  | addEvent (r : ReqId)
  | putMsg (r : ReqId)
  | getMsg
  | abortReads (r : ReqId)
  | abortEvents (r : ReqId)
  | abortPort (r : ReqId)
  | reply (r : ReqId) (q : IOSana2Req)
  | takeReader (c : ReadClass)
  | flushReadQueue (error : IoError)
  | flushRemaining
  | signalEvent (mask : BitVec 32)

def NodeOp.allocates : NodeOp → List Addr
  | .newWrapper pr _ => [pr.node]
  | _ => []

/-- The heap after the step, with the request that the step has taken out of a list. -/
def runNodeOp (lists : ListName → Header Addr) (ioPort : Addr) (fuel : Nat) (m : ExecHeap) :
    NodeOp → Option (ExecHeap × Option ReqId)
  | .rest => some (m, none)
  | .submit r q => some ((m.renew r).write r q, none)
  | .write r q => some (m.write r q, none)
  | .newWrapper pr q => some ((m.newWrapper pr).write pr.ioreq q, none)
  | .addRead pr c => some (m.addTail lists (.reads c) pr.node, none)
  | .addEvent r => some (m.addTail lists .events (r + mnNodeOffset), none)
  | .putMsg r => some (m.addTail lists (.port ioPort) r, none)
  | .getMsg => m.getMsg lists ioPort
  | .abortReads r =>
      (m.abortReads lists r fuel).map fun done => (done.1, done.2.map fun _ => r)
  | .abortEvents r =>
      (m.abortNode lists r .events fuel).map fun done => (done.1, done.2.map fun _ => r)
  | .abortPort r =>
      (m.abortNode lists r (.port ioPort) fuel).map fun done => (done.1, done.2.map fun _ => r)
  | .reply r q => some ((m.write r q).replyMsg lists r, none)
  | .takeReader c => m.takeReader lists c fuel
  | .flushReadQueue error =>
      (ExecHeap.flushReadQueue lists error fuel m).map fun m => (m, none)
  | .flushRemaining =>
      (ExecHeap.walk lists (ExecHeap.flushEventTurn lists (fun _ => true) .aborted) .events fuel m).map
        fun m => (m, none)
  | .signalEvent mask => (m.signalEvent lists mask fuel).map fun m => (m, none)

namespace Call

def making : Call → List PendingRead
  | addingRead pr _ => [pr]
  | _ => []

def nodeOp (e : CallEnv) (w : World) : Call → NodeOp
  | .beginIo r =>
      match (Pa6tEth.beginIo e w r).2 with
      | addingRead pr _ => .newWrapper pr ((Pa6tEth.beginIo e w r).1.reqs r)
      | _ => .write r ((Pa6tEth.beginIo e w r).1.reqs r)
  | replying r err werr _ =>
      let q := { w.reqs r with error := err, wireError := werr }
      if q.quick then .write r q else .reply r q
  | queueing r => .putMsg r
  | addingRead pr c => .addRead pr c
  | addingEvent r => .addEvent r
  | transmitting r =>
      match txBuild e.tx w r with
      | .refused q _ _ => .write r q
      | .built q _ => .write r q
  | submitting _ _ => .rest
  | signalling => .rest
  | abortReads r => .abortReads r
  | abortEvents r => .abortEvents r
  | abortPort r => if w.unit.ioPort.isSome then .abortPort r else .rest
  | abortReply r => .reply r { w.reqs r with error := .aborted }

/-- The request that `AbortIO` has found. -/
def took : Call → Option ReqId
  | abortReply r => some r
  | _ => none

end Call

namespace TaskPc

def nodeOp (e : TaskEnv) (w : World) : TaskPc → NodeOp
  | draining => .getMsg
  | handling r [] fin => .reply r (fin.apply (w.reqs r))
  | handling _ (.flushReadQueue error :: _) _ => .flushReadQueue error
  | handling _ (.signalEvent mask :: _) _ => .signalEvent mask
  | rxLoop v =>
      match fetchGroup w.unit.rx v.n with
      | none => .rest
      | some g =>
          match checkGroup w.unit.rx g with
          | .error _ => .rest
          | .ok frameLen => .takeReader (readClass (frameOf w.mem w.unit.rx g frameLen).etherType)
  | rxDeliver _ _ f r orphan =>
      .reply r (deliver orphan e.hookOk w.unit w.mem r f (w.reqs r)).1
  | exitDrain => .getMsg
  | exitReply r => .reply r { w.reqs r with error := .aborted }
  | exitFlush => .flushReadQueue .aborted
  | exitFlushEvents => .flushRemaining
  | _ => .rest

def took : TaskPc → Option ReqId
  | received r => some r
  | rxDeliver _ _ _ r _ => some r
  | exitReply r => some r
  | _ => none

end TaskPc

namespace Driver

def hands (s : Driver) : List ReqId :=
  (s.calls.flatMap Call.claim ++ s.tasks.flatMap TaskPc.claim).map Prod.fst

def making (s : Driver) : List PendingRead := s.calls.flatMap Call.making

def nodeOp (s : Driver) : Action → NodeOp
  | .submit r q => .submit r q
  | .call i e => ((s.calls[i]?).map fun c => c.nodeOp e s.world).getD .rest
  | .task i e => ((s.tasks[i]?).map fun pc => pc.nodeOp e s.world).getD .rest
  | _ => .rest

/-- The request that the step takes out of a list, as the driver's own step has it. -/
def took (ch : Channels) (s : Driver) : Action → Option ReqId
  | .call i e =>
      (s.calls[i]?).bind fun c => (callStep ch e s.world c).bind fun done => done.2.bind Call.took
  | .task i e => (s.tasks[i]?).bind fun pc => (taskStep ch e s.world pc).bind fun done => done.2.took
  | _ => none

end Driver

/-- The nodes, and the wrappers that the driver has of the allocator. -/
structure NodeState where
  heap : ExecHeap
  owned : List Addr

/-- What the driver has after an operation, by the `FreeVec`s that it made. -/
def NodeState.after (n : NodeState) (op : NodeOp) (m : ExecHeap) : NodeState where
  heap := m
  owned := op.allocates ++ n.owned.filter fun b => b ∉ m.frees.drop n.heap.frees.length

def nodeStep (ch : Channels) (lists : ListName → Header Addr) (ioPort : Addr) (fuel : Nat)
    (s : Driver) (a : Action) (n : NodeState) : Option NodeState :=
  (runNodeOp lists ioPort fuel n.heap (s.nodeOp a)).bind fun done =>
    if done.2 = s.took ch a then some (n.after (s.nodeOp a) done.1) else none

/-- A step of the driver, or a client that takes the first message of its reply port. -/
inductive PostAction
  | act (a : Action)
  | getMsg (p : Addr)

structure PostedDriver where
  driver : Driver
  mail : Mail

def Mail.take (mail : Mail) (answers : List (ReqId × Answer)) (p : Addr) : Mail :=
  if mail.inbox answers p = [] then mail
  else { mail with got := Function.update mail.got p (mail.got p + 1) }

def postStep (ch : Channels) (x : PostedDriver) : PostAction → Option PostedDriver
  | .act a => ((sessionMachine ch).step x.driver a).map fun d => { x with driver := d }
  | .getMsg p => some { x with mail := x.mail.take x.driver.world.answers p }

def postMachine (ch : Channels) : Machine PostedDriver PostAction where
  start := fun x => Opened x.driver
  step := postStep ch

def nodeAct (ch : Channels) (lists : ListName → Header Addr) (fuel : Nat) (x : PostedDriver)
    (a : PostAction) (n : NodeState) : Option NodeState :=
  match a with
  | .act a => nodeStep ch lists x.mail.ioPort fuel x.driver a n
  | .getMsg p => (n.heap.getMsg lists p).map fun done => { n with heap := done.1 }

def nodeRun (ch : Channels) (lists : ListName → Header Addr) (fuel : Nat) :
    PostedDriver → NodeState → List PostAction → Option NodeState
  | _, n, [] => some n
  | x, n, a :: rest =>
      (nodeAct ch lists fuel x a n).bind fun n' =>
        (postStep ch x a).bind fun y => nodeRun ch lists fuel y n' rest

/-- Nobody has this block: it is at no header, no wrapper, no request in the driver's custody and no
message in a reply port. -/
structure Unused (lists : ListName → Header Addr) (x : PostedDriver) (n : Addr) : Prop where
  header : ∀ q, n ≠ (lists q).head ∧ n ≠ (lists q).tail
  making : ∀ pr ∈ x.driver.making, pr.node ≠ n
  reads : ∀ c, ∀ pr ∈ x.driver.world.unit.readList c, pr.node ≠ n
  places : n ∉ x.driver.ledger.items
  inbox : ∀ p, n ∉ x.mail.inbox x.driver.world.answers p

/-- `AllocVecTags` gives a block that nobody has, and a client submits a request that is not in a
reply port. -/
def Sane (lists : ListName → Header Addr) (x : PostedDriver) : PostAction → Prop
  | .act (.submit r _) => Unused lists x r
  | .act (.call i e) => ∀ r, x.driver.calls[i]? = some (.beginIo r) → e.wrapper ≠ 0 →
      Unused lists x e.wrapper
  | .act _ => True
  | .getMsg p => p ≠ x.mail.ioPort

/-- The nodes are those of the driver's lists, and the driver has no other wrapper. -/
structure Implements (lists : ListName → Header Addr) (x : PostedDriver) (n : NodeState) : Prop where
  agree : Agree lists x.mail n.heap x.driver.world (fun r => r ∈ x.driver.hands) x.driver.making
  owned : n.owned.Perm
    (x.driver.making.map PendingRead.node ++ readNodes (nodesOf x.mail x.driver.world))

/-- The step runs, leaves nodes that agree with the world after it, and frees what then nobody has. -/
structure NodeDone (lists : ListName → Header Addr) (mail : Mail) (m : ExecHeap) (w : World)
    (making : List PendingRead) (op : NodeOp) (took : Option ReqId) (m' : ExecHeap) (v : World)
    (held' : ReqId → Prop) (making' : List PendingRead) : Prop where
  runs : ∃ bound, ∀ fuel, bound < fuel → runNodeOp lists mail.ioPort fuel m op = some (m', took)
  agree : Agree lists mail m' v held' making'
  blocks : ∃ gone, m'.frees.drop m.frees.length = gone ∧ (gone = [] ∨ op.allocates = []) ∧
    (op.allocates ++ (making.map PendingRead.node ++ readNodes (nodesOf mail w))).Perm
      (gone ++ (making'.map PendingRead.node ++ readNodes (nodesOf mail v)))

section

variable {lists : ListName → Header Addr} {mail : Mail} {m : ExecHeap} {w : World}

theorem readNodes_nodesOf (w : World) :
    readNodes (nodesOf mail w) = (w.unit.readList .ipv4).map PendingRead.node ++
      ((w.unit.readList .arp).map PendingRead.node ++
        (w.unit.readList .other).map PendingRead.node) := rfl

theorem readNodes_same (w v : World) (reads : ∀ c, v.unit.readList c = w.unit.readList c) :
    readNodes (nodesOf mail v) = readNodes (nodesOf mail w) := by
  simp only [readNodes_nodesOf, reads]

theorem readNodes_more (w v : World) (c : ReadClass) (pr : PendingRead)
    (more : (w.unit.readList c).Perm (pr :: v.unit.readList c))
    (others : ∀ c', c' ≠ c → v.unit.readList c' = w.unit.readList c') :
    (readNodes (nodesOf mail w)).Perm (pr.node :: readNodes (nodesOf mail v)) := by
  rw [List.perm_iff_count]
  intro x
  have moved := (more.map PendingRead.node).count_eq x
  rw [List.map_cons, List.count_cons] at moved
  cases c with
  | ipv4 =>
      simp only [readNodes_nodesOf, others .arp (by decide), others .other (by decide),
        List.count_append, List.count_cons]
      omega
  | arp =>
      simp only [readNodes_nodesOf, others .ipv4 (by decide), others .other (by decide),
        List.count_append, List.count_cons]
      omega
  | other =>
      simp only [readNodes_nodesOf, others .ipv4 (by decide), others .arp (by decide),
        List.count_append, List.count_cons]
      omega

variable {making making' : List PendingRead} {op : NodeOp} {took : Option ReqId} {m' : ExecHeap}
  {v : World} {held' : ReqId → Prop}

theorem done_quiet
    (runs : ∃ bound, ∀ fuel, bound < fuel → runNodeOp lists mail.ioPort fuel m op = some (m', took))
    (agree : Agree lists mail m' v held' making) (frees : m'.frees.length ≤ m.frees.length)
    (allocates : op.allocates = []) (reads : ∀ c, v.unit.readList c = w.unit.readList c) :
    NodeDone lists mail m w making op took m' v held' making where
  runs := runs
  agree := agree
  blocks := by
    refine ⟨[], List.drop_eq_nil_of_le frees, .inl rfl, ?_⟩
    rw [allocates, readNodes_same w v reads]

theorem done_freeing (gone : List Addr)
    (runs : ∃ bound, ∀ fuel, bound < fuel → runNodeOp lists mail.ioPort fuel m op = some (m', took))
    (agree : Agree lists mail m' v held' making) (frees : m'.frees = m.frees ++ gone)
    (allocates : op.allocates = [])
    (reads : (readNodes (nodesOf mail w)).Perm (gone ++ readNodes (nodesOf mail v))) :
    NodeDone lists mail m w making op took m' v held' making where
  runs := runs
  agree := agree
  blocks := by
    refine ⟨gone, by rw [frees, List.drop_left], .inr allocates, ?_⟩
    rw [allocates, List.nil_append]
    exact (reads.append_left _).trans (List.perm_append_comm_assoc _ _ _)

theorem done_held (held : ReqId → Prop)
    (done : NodeDone lists mail m w making op took m' v held making')
    (fewer : ∀ r, held' r → held r) : NodeDone lists mail m w making op took m' v held' making' :=
  { done with agree := agree_fewer done.agree held' [] making' fewer (List.Perm.refl _) }

def Hands (ids : List ReqId) (others : ReqId → Prop) (r : ReqId) : Prop := r ∈ ids ∨ others r

theorem hands_left (r : ReqId) (others : ReqId → Prop) (apart : ¬ others r) (x : ReqId)
    (theirs : Hands [] others x) : Hands [r] others x ∧ x ≠ r := by
  rcases theirs with mine | theirs
  · cases mine
  · exact ⟨.inr theirs, fun same => apart (same ▸ theirs)⟩

theorem hands_taken (r : ReqId) (others : ReqId → Prop) (x : ReqId)
    (there : Hands [r] others x) : x = r ∨ Hands [] others x := by
  rcases there with mine | theirs
  · exact .inl (List.mem_singleton.mp mine)
  · exact .inr (.inr theirs)

theorem frees_renew (m : ExecHeap) (n : Addr) : (m.renew n).frees.length ≤ m.frees.length := by
  simp only [ExecHeap.frees, List.length_reverse, ExecHeap.renew]
  exact (List.filter_sublist.filterMap ExecHeap.freeOf).length_le

theorem frees_write (m : ExecHeap) (r : ReqId) (q : IOSana2Req) : (m.write r q).frees = m.frees :=
  (ExecHeap.touch_log m [r]).2

theorem beginIo_made (e : CallEnv) (w : World) (r : ReqId) :
    (beginIo e w r).2.claim.map Prod.fst = [r] ∧ (beginIo e w r).2.took = none ∧
      ((∃ c, e.wrapper ≠ 0 ∧ (beginIo e w r).2 = .addingRead ⟨e.wrapper, r⟩ c) ∨
        (beginIo e w r).2.making = []) := by
  cases command : (w.reqs r).command with
  | cmdRead =>
      simp only [beginIo, command]
      split
      · exact ⟨rfl, rfl, .inr rfl⟩
      · split
        · exact ⟨rfl, rfl, .inr rfl⟩
        · split
          · exact ⟨rfl, rfl, .inr rfl⟩
          · rename_i given
            exact ⟨rfl, rfl, .inl ⟨_, given, rfl⟩⟩
  | _ =>
      simp only [beginIo, command]
      repeat' split
      all_goals exact ⟨rfl, rfl, .inr rfl⟩

theorem nodeOp_write (e : CallEnv) (w : World) (r : ReqId)
    (unmade : (beginIo e w r).2.making = []) :
    (Call.beginIo r).nodeOp e w = .write r ((beginIo e w r).1.reqs r) := by
  simp only [Call.nodeOp]
  split
  · rename_i pr c made
    rw [made] at unmade
    cases unmade
  · rfl

theorem posted_returned (answers : List (ReqId × Answer)) (r : ReqId) (asked done : IOSana2Req)
    (p : Addr) :
    mail.posted ((r, .returned asked done) :: answers) p = mail.posted answers p := by
  simp [Mail.posted, Mail.sentTo, List.filterMap_append]

theorem write_done (others : ReqId → Prop) (r : ReqId) (q : IOSana2Req)
    (agree : Agree lists mail m w (Hands [r] others) making)
    (reads : ∀ c, v.unit.readList c = w.unit.readList c)
    (events : v.unit.eventList = w.unit.eventList) (port : v.unit.ioPort = w.unit.ioPort)
    (reqs : v.reqs = Function.update w.reqs r q)
    (posted : ∀ p, mail.posted v.answers p = mail.posted w.answers p) :
    NodeDone lists mail m w making (.write r q) none (m.write r q) v (Hands [r] others) making := by
  have written := agree_write agree r q (.inl List.mem_cons_self)
  refine done_quiet ⟨0, fun _ _ => rfl⟩ ?_ (by rw [frees_write]) rfl reads
  exact agree_world written v reads events port reqs posted

theorem reply_done (others : ReqId → Prop) (r : ReqId) (q : IOSana2Req) (via : Via)
    (agree : Agree lists mail m w (Hands [r] others) making) (apart : ¬ others r) :
    NodeDone lists mail m w making (.reply r q) none ((m.write r q).replyMsg lists r)
      (w.replyMsg r q via) (Hands [] others) making := by
  have replied := agree_reply agree r q via (.inl List.mem_cons_self)
  refine done_held _ (done_quiet ⟨0, fun _ _ => rfl⟩ replied ?_ rfl fun _ => rfl)
    (hands_left r others apart)
  rw [frees_reply]

theorem rest_done (held : ReqId → Prop) (agree : Agree lists mail m w held making)
    (reads : ∀ c, v.unit.readList c = w.unit.readList c)
    (events : v.unit.eventList = w.unit.eventList) (port : v.unit.ioPort = w.unit.ioPort)
    (reqs : v.reqs = w.reqs) (answers : v.answers = w.answers) :
    NodeDone lists mail m w making .rest none m v held making := by
  refine done_quiet ⟨0, fun _ _ => rfl⟩ ?_ (Nat.le_refl _) rfl reads
  exact agree_world agree v reads events port reqs fun p => by rw [answers]

theorem beginIo_done (e : CallEnv) (r : ReqId) (others : ReqId → Prop) (rest : List PendingRead)
    (agree : Agree lists mail m w (Hands [r] others) rest)
    (given : e.wrapper ≠ 0 → ¬ Linked lists (nodesOf mail w) e.wrapper ∧
      (∀ v ∈ readNodes (nodesOf mail w), m.ioreq v ≠ e.wrapper) ∧
      (∀ pr ∈ rest, pr.node ≠ e.wrapper) ∧ ¬ Hands [r] others e.wrapper) :
    ∃ m', NodeDone lists mail m w rest ((Call.beginIo r).nodeOp e w) (beginIo e w r).2.took m'
      (beginIo e w r).1 (Hands ((beginIo e w r).2.claim.map Prod.fst) others)
      ((beginIo e w r).2.making ++ rest) := by
  obtain ⟨claim, took, made⟩ := beginIo_made e w r
  obtain ⟨q, openers, reports, same⟩ := beginIo_frame e w r
  have request : (beginIo e w r).1.reqs r = q := by
    rw [same]
    exact Function.update_self r q w.reqs
  rw [claim, took]
  rcases made with ⟨c, allocated, made⟩ | unmade
  · obtain ⟨out, unwrapped, unused, unheld⟩ := given allocated
    have op : (Call.beginIo r).nodeOp e w = .newWrapper ⟨e.wrapper, r⟩ q := by
      simp only [Call.nodeOp, made, request]
    rw [op, made, same]
    have wrapped := agree_newWrapper agree ⟨e.wrapper, r⟩ out unwrapped unused unheld
    have written := agree_write wrapped r q (.inl List.mem_cons_self)
    refine ⟨_, ⟨⟨0, fun _ _ => rfl⟩, ?_, ?_⟩⟩
    · exact agree_world written _ (fun c => by cases c <;> rfl) rfl rfl rfl fun _ => rfl
    · refine ⟨[], List.drop_eq_nil_of_le ?_, .inl rfl, List.Perm.refl _⟩
      rw [frees_write]
      exact frees_renew m e.wrapper
  · rw [nodeOp_write e w r unmade, request, unmade, same]
    exact ⟨_, write_done others r q agree (fun c => by cases c <;> rfl) rfl rfl rfl fun _ => rfl⟩

theorem queueing_done (r : ReqId) (others : ReqId → Prop)
    (agree : Agree lists mail m w (Hands [r] others) making) (apart : ¬ others r)
    (put : w.putMsg r = some v) :
    NodeDone lists mail m w making (.putMsg r) none (m.addTail lists (.port mail.ioPort) r) v
      (Hands [] others) making := by
  obtain ⟨port, present, rfl⟩ := Option.map_eq_some_iff.mp put
  have queue : nodesOf mail w (.port mail.ioPort) = port := by simp [nodesOf, present]
  have added := agree_addTail agree
    { w with
      unit := { w.unit with ioPort := some (port ++ [r]) }
      signals := { w.signals with port := true } }
    (.port mail.ioPort) r (fun _ => ListName.noConfusion) (.inl List.mem_cons_self)
    (by rw [queue]; exact nodesOf_port mail w (port ++ [r])) (fun c => by cases c <;> rfl) rfl rfl
  refine done_held _ (done_quiet ⟨0, fun _ _ => rfl⟩ added ?_ rfl fun c => by cases c <;> rfl)
    (hands_left r others apart)
  exact (congrArg List.length (ExecHeap.touch_log m _).2).le

theorem addingEvent_done (r : ReqId) (others : ReqId → Prop)
    (agree : Agree lists mail m w (Hands [r] others) making) (apart : ¬ others r) :
    NodeDone lists mail m w making (.addEvent r) none
      (m.addTail lists .events (r + mnNodeOffset))
      { w with unit := { w.unit with eventList := w.unit.eventList ++ [r] } }
      (Hands [] others) making := by
  have added := agree_addTail agree
    { w with unit := { w.unit with eventList := w.unit.eventList ++ [r] } }
    .events r (fun _ => ListName.noConfusion) (.inl List.mem_cons_self)
    (nodesOf_events mail w (w.unit.eventList ++ [r])) (fun c => by cases c <;> rfl) rfl rfl
  refine done_held _ (done_quiet ⟨0, fun _ _ => rfl⟩ added ?_ rfl fun c => by cases c <;> rfl)
    (hands_left r others apart)
  exact (congrArg List.length (ExecHeap.touch_log m _).2).le

theorem addingRead_done (pr : PendingRead) (c : ReadClass) (others : ReqId → Prop)
    (rest : List PendingRead)
    (agree : Agree lists mail m w (Hands [pr.ioreq] others) (pr :: rest))
    (apart : ¬ others pr.ioreq) :
    NodeDone lists mail m w (pr :: rest) (.addRead pr c) none
      (m.addTail lists (.reads c) pr.node)
      { w with unit := w.unit.setReadList (w.unit.readList c ++ [pr]) c }
      (Hands [] others) rest := by
  have own : (w.unit.setReadList (w.unit.readList c ++ [pr]) c).readList c =
      w.unit.readList c ++ [pr] := by cases c <;> rfl
  have beside : ∀ c', c' ≠ c →
      (w.unit.setReadList (w.unit.readList c ++ [pr]) c).readList c' = w.unit.readList c' := by
    intro c' other
    cases c <;> cases c' <;> first | rfl | exact absurd rfl other
  have added := agree_addRead agree
    { w with unit := w.unit.setReadList (w.unit.readList c ++ [pr]) c } c pr rest
    (List.Perm.refl _) (.inl List.mem_cons_self)
    (by rw [nodesOf_reads, List.map_append]; rfl) own beside (by cases c <;> rfl) rfl
  refine ⟨⟨0, fun _ _ => rfl⟩,
    agree_fewer added _ [] rest (hands_left pr.ioreq others apart) (List.Perm.refl _), ?_⟩
  refine ⟨[], List.drop_eq_nil_of_le (congrArg List.length (ExecHeap.touch_log m _).2).le,
    .inl rfl, ?_⟩
  have more : (readNodes (nodesOf mail
      { w with unit := w.unit.setReadList (w.unit.readList c ++ [pr]) c })).Perm
        (pr.node :: readNodes (nodesOf mail w)) :=
    readNodes_more _ w c pr (by rw [own]; exact List.perm_append_singleton pr _)
      fun c' other => (beside c' other).symm
  simp only [NodeOp.allocates, List.nil_append, List.map_cons, List.cons_append]
  exact List.perm_middle.symm.trans (more.symm.append_left _)

theorem abortReads_done (ch : Channels) (e : CallEnv) (r : ReqId) (next : Option Call)
    (others : ReqId → Prop) (agree : Agree lists mail m w (Hands [] others) making)
    (stepped : callStep ch e w (.abortReads r) = some (v, next)) :
    ∃ m', NodeDone lists mail m w making (.abortReads r) (next.bind Call.took) m' v
      (Hands ((claimOf next).map Prod.fst) others) ((next.map Call.making).getD [] ++ making) := by
  obtain ⟨m', found, runs, outcome⟩ := abortReads_agrees agree r
  have ran : ∃ bound, ∀ fuel, bound < fuel →
      runNodeOp lists mail.ioPort fuel m (.abortReads r) = some (m', found.map fun _ => r) :=
    ⟨longest (nodesOf mail w), fun fuel enough => by simp only [runNodeOp, runs fuel enough, Option.map_some]⟩
  simp only [callStep] at stepped
  split at stepped
  · rename_i absent
    obtain ⟨rfl, rfl⟩ := Prod.mk.inj (Option.some.inj stepped)
    simp only [absent] at outcome
    obtain ⟨rfl, frees, agreed⟩ := outcome
    exact ⟨m', done_quiet ran agreed (by rw [frees]) rfl fun _ => rfl⟩
  · rename_i c pr present
    obtain ⟨rfl, rfl⟩ := Prod.mk.inj (Option.some.inj stepped)
    simp only [present] at outcome
    obtain ⟨rfl, frees, agreed⟩ := outcome
    have first := findRead_found w.unit r c pr present
    have own : (w.unit.setReadList ((w.unit.readList c).eraseP fun pr => pr.ioreq == r) c).readList
        c = (w.unit.readList c).eraseP fun pr => pr.ioreq == r := by cases c <;> rfl
    have freed := agree_world agreed { w with
      unit := w.unit.setReadList ((w.unit.readList c).eraseP fun pr => pr.ioreq == r) c
      freed := pr.node :: w.freed } (fun _ => rfl) rfl rfl rfl fun _ => rfl
    refine ⟨m', done_held _ (done_freeing [pr.node] ran freed frees rfl ?_) (hands_taken r others)⟩
    refine readNodes_more w _ c pr ?_ fun c' other => ?_
    · rw [own]
      exact perm_eraseP _ _ pr first
    · cases c <;> cases c' <;> first | rfl | exact absurd rfl other

theorem abortEvents_done (ch : Channels) (e : CallEnv) (r : ReqId) (next : Option Call)
    (others : ReqId → Prop) (agree : Agree lists mail m w (Hands [] others) making)
    (stepped : callStep ch e w (.abortEvents r) = some (v, next)) :
    ∃ m', NodeDone lists mail m w making (.abortEvents r) (next.bind Call.took) m' v
      (Hands ((claimOf next).map Prod.fst) others) ((next.map Call.making).getD [] ++ making) := by
  obtain ⟨m', found, runs, frees, outcome⟩ := abortEvents_agrees agree r
  have ran : ∃ bound, ∀ fuel, bound < fuel →
      runNodeOp lists mail.ioPort fuel m (.abortEvents r) = some (m', found.map fun _ => r) :=
    ⟨w.unit.eventList.length, fun fuel enough => by simp only [runNodeOp, runs fuel enough, Option.map_some]⟩
  simp only [callStep] at stepped
  split at stepped
  · rename_i member
    obtain ⟨rfl, rfl⟩ := Prod.mk.inj (Option.some.inj stepped)
    rw [if_pos member] at outcome
    obtain ⟨rfl, agreed⟩ := outcome
    exact ⟨m', done_held _ (done_quiet ran agreed (by rw [frees]) rfl fun c => by cases c <;> rfl)
      (hands_taken r others)⟩
  · rename_i absent
    obtain ⟨rfl, rfl⟩ := Prod.mk.inj (Option.some.inj stepped)
    rw [if_neg absent] at outcome
    obtain ⟨rfl, agreed⟩ := outcome
    exact ⟨m', done_quiet ran agreed (by rw [frees]) rfl fun _ => rfl⟩

theorem abortPort_done (ch : Channels) (e : CallEnv) (r : ReqId) (next : Option Call)
    (others : ReqId → Prop) (agree : Agree lists mail m w (Hands [] others) making)
    (stepped : callStep ch e w (.abortPort r) = some (v, next)) :
    ∃ m', NodeDone lists mail m w making ((Call.abortPort r).nodeOp e w) (next.bind Call.took) m' v
      (Hands ((claimOf next).map Prod.fst) others) ((next.map Call.making).getD [] ++ making) := by
  simp only [callStep] at stepped
  split at stepped
  · rename_i closed
    obtain ⟨rfl, rfl⟩ := Prod.mk.inj (Option.some.inj stepped)
    simp only [Call.nodeOp, closed]
    exact ⟨m, rest_done _ agree (fun _ => rfl) rfl rfl rfl rfl⟩
  · rename_i port here
    obtain ⟨m', found, runs, frees, outcome⟩ := abortPort_agrees agree r port here
    have ran : ∃ bound, ∀ fuel, bound < fuel →
        runNodeOp lists mail.ioPort fuel m (.abortPort r) = some (m', found.map fun _ => r) :=
      ⟨port.length, fun fuel enough => by simp only [runNodeOp, runs fuel enough, Option.map_some]⟩
    simp only [Call.nodeOp, here, Option.isSome_some, if_true]
    split at stepped
    · rename_i member
      obtain ⟨rfl, rfl⟩ := Prod.mk.inj (Option.some.inj stepped)
      rw [if_pos member] at outcome
      obtain ⟨rfl, agreed⟩ := outcome
      exact ⟨m', done_held _ (done_quiet ran agreed (by rw [frees]) rfl
        fun c => by cases c <;> rfl) (hands_taken r others)⟩
    · rename_i absent
      obtain ⟨rfl, rfl⟩ := Prod.mk.inj (Option.some.inj stepped)
      rw [if_neg absent] at outcome
      obtain ⟨rfl, agreed⟩ := outcome
      exact ⟨m', done_quiet ran agreed (by rw [frees]) rfl fun _ => rfl⟩

theorem replying_done (r : ReqId) (err : IoError) (werr : BitVec 32) (sent : Bool) (e : CallEnv)
    (others : ReqId → Prop) (agree : Agree lists mail m w (Hands [r] others) making)
    (apart : ¬ others r) :
    ∃ m', NodeDone lists mail m w making ((Call.replying r err werr sent).nodeOp e w) none m'
      (w.replyIoreq r err werr) (Hands [] others) making := by
  simp only [Call.nodeOp, replyIoreq]
  split
  · have written := write_done (v := { w with
      reqs := Function.update w.reqs r { w.reqs r with error := err, wireError := werr }
      answers := (r, .returned (w.asked r) { w.reqs r with error := err, wireError := werr }) ::
        w.answers }) others r { w.reqs r with error := err, wireError := werr } agree
      (fun _ => rfl) rfl rfl rfl fun p => posted_returned w.answers r _ _ p
    exact ⟨_, done_held _ written fun x there => (hands_left r others apart x there).1⟩
  · exact ⟨_, reply_done others r _ .beginIo agree apart⟩

theorem call_nodes (ch : Channels) (e : CallEnv) (c : Call) (next : Option Call)
    (others : ReqId → Prop) (rest : List PendingRead)
    (agree : Agree lists mail m w (Hands (c.claim.map Prod.fst) others) (c.making ++ rest))
    (apart : ∀ r ∈ c.claim.map Prod.fst, ¬ others r)
    (given : ∀ r, c = .beginIo r → e.wrapper ≠ 0 → ¬ Linked lists (nodesOf mail w) e.wrapper ∧
      (∀ v ∈ readNodes (nodesOf mail w), m.ioreq v ≠ e.wrapper) ∧
      (∀ pr ∈ rest, pr.node ≠ e.wrapper) ∧ ¬ Hands [r] others e.wrapper)
    (stepped : callStep ch e w c = some (v, next)) :
    ∃ m', NodeDone lists mail m w (c.making ++ rest) (c.nodeOp e w) (next.bind Call.took) m' v
      (Hands ((claimOf next).map Prod.fst) others) ((next.map Call.making).getD [] ++ rest) := by
  cases c with
  | beginIo r =>
      obtain ⟨rfl, rfl⟩ := Prod.mk.inj (Option.some.inj stepped)
      exact beginIo_done e r others rest agree (given r rfl)
  | replying r err werr sent =>
      obtain ⟨rfl, rfl⟩ := Prod.mk.inj (Option.some.inj stepped)
      cases sent <;> exact replying_done r err werr _ e others agree (apart r List.mem_cons_self)
  | queueing r =>
      obtain ⟨w', put, same⟩ := Option.map_eq_some_iff.mp stepped
      obtain ⟨rfl, rfl⟩ := Prod.mk.inj same
      exact ⟨_, queueing_done r others agree (apart r List.mem_cons_self) put⟩
  | addingRead pr c =>
      obtain ⟨rfl, rfl⟩ := Prod.mk.inj (Option.some.inj stepped)
      exact ⟨_, addingRead_done pr c others rest agree (apart pr.ioreq List.mem_cons_self)⟩
  | addingEvent r =>
      obtain ⟨rfl, rfl⟩ := Prod.mk.inj (Option.some.inj stepped)
      exact ⟨_, addingEvent_done r others agree (apart r List.mem_cons_self)⟩
  | transmitting r =>
      simp only [callStep] at stepped
      split at stepped
      · rename_i q err werr built
        obtain ⟨rfl, rfl⟩ := Prod.mk.inj (Option.some.inj stepped)
        simp only [Call.nodeOp, built]
        exact ⟨_, write_done others r q agree (fun _ => rfl) rfl rfl rfl fun _ => rfl⟩
      · rename_i q f built
        obtain ⟨rfl, rfl⟩ := Prod.mk.inj (Option.some.inj stepped)
        simp only [Call.nodeOp, built]
        exact ⟨_, write_done others r q agree (fun _ => rfl) rfl rfl rfl fun _ => rfl⟩
  | submitting r f =>
      obtain ⟨rfl, rfl⟩ := Prod.mk.inj (Option.some.inj stepped)
      exact ⟨m, rest_done _ agree (fun c => by cases c <;> rfl) rfl rfl rfl rfl⟩
  | signalling =>
      obtain ⟨rfl, rfl⟩ := Prod.mk.inj (Option.some.inj stepped)
      exact ⟨m, rest_done _ agree (fun _ => rfl) rfl rfl rfl rfl⟩
  | abortReads r => exact abortReads_done ch e r next others agree stepped
  | abortEvents r => exact abortEvents_done ch e r next others agree stepped
  | abortPort r => exact abortPort_done ch e r next others agree stepped
  | abortReply r =>
      obtain ⟨rfl, rfl⟩ := Prod.mk.inj (Option.some.inj stepped)
      exact ⟨_, reply_done others r _ .abortIo agree (apart r List.mem_cons_self)⟩

theorem getMsg_done (r : ReqId) (rest : List ReqId) (others : ReqId → Prop)
    (agree : Agree lists mail m w (Hands [] others) making) (here : w.unit.ioPort = some (r :: rest)) :
    ∃ m', NodeDone lists mail m w making .getMsg (some r) m'
      { w with unit := { w.unit with ioPort := some rest } } (Hands [r] others) making := by
  obtain ⟨s, agreed, frees, taken⟩ := getMsg_agrees agree mail.ioPort
  have queue : nodesOf mail w (.port mail.ioPort) = r :: rest := by simp [nodesOf, here]
  rw [queue] at taken
  have dropped := agree_dropMsg agreed r [] rest here
  refine ⟨_, done_held _ (done_quiet ⟨0, fun _ _ => taken⟩ dropped ?_ rfl
    fun c => by cases c <;> rfl) (hands_taken r others)⟩
  rw [frees_remove, frees]

theorem emptyPort_done (held : ReqId → Prop) (agree : Agree lists mail m w held making)
    (here : w.unit.ioPort = some []) :
    ∃ m', NodeDone lists mail m w making .getMsg none m' w held making := by
  obtain ⟨s, agreed, frees, taken⟩ := getMsg_agrees agree mail.ioPort
  have queue : nodesOf mail w (.port mail.ioPort) = [] := by simp [nodesOf, here]
  rw [queue] at taken
  exact ⟨s, done_quiet ⟨0, fun _ _ => taken⟩ agreed (by rw [frees]) rfl fun _ => rfl⟩

theorem flushQueue_done (held : ReqId → Prop) (error : IoError)
    (agree : Agree lists mail m w held making) :
    ∃ m', NodeDone lists mail m w making (.flushReadQueue error) none m' (w.flushReadQueue error)
      held making := by
  obtain ⟨m', runs, frees, agreed⟩ := flushReadQueue_agrees agree error
  have ran : ∃ bound, ∀ fuel, bound < fuel →
      runNodeOp lists mail.ioPort fuel m (.flushReadQueue error) = some (m', none) :=
    ⟨longest (nodesOf mail w), fun fuel enough => by
      simp only [runNodeOp, runs fuel enough, Option.map_some]⟩
  refine ⟨m', done_freeing (readNodes (nodesOf mail w)) ran agreed frees rfl ?_⟩
  simp only [readNodes_nodesOf (w.flushReadQueue error), flushReadQueue_reads, List.map_nil,
    List.append_nil]
  exact List.Perm.refl _

theorem events_done (held : ReqId → Prop) (picked : IOSana2Req → Bool)
    (answer : IOSana2Req → IOSana2Req) (via : Via) (op : NodeOp)
    (program : ∀ fuel, runNodeOp lists mail.ioPort fuel m op =
      (ExecHeap.walk lists (ExecHeap.eventTurn lists picked answer) .events fuel m).map
        fun m => (m, none))
    (allocates : op.allocates = []) (agree : Agree lists mail m w held making) :
    ∃ m', NodeDone lists mail m w making op none m' (w.sweepEvents picked answer via) held
      making := by
  obtain ⟨m', runs, frees, agreed⟩ := eventWalk_agrees agree picked answer via
  refine ⟨m', done_quiet ⟨w.unit.eventList.length, fun fuel enough => ?_⟩ agreed (by rw [frees])
    allocates fun c => ?_⟩
  · rw [program, runs fuel enough]
    rfl
  · rw [sweepEvents_unit]
    cases c <;> rfl

theorem offer_done (ch : Channels) (e : TaskEnv) (v : RxLoop) (g : RxGroup) (frameLen : BitVec 32)
    (others : ReqId → Prop) (agree : Agree lists mail m w (Hands [] others) making)
    (fetched : fetchGroup w.unit.rx v.n = some g) (good : checkGroup w.unit.rx g = .ok frameLen) :
    ∃ m', NodeDone lists mail m w making ((TaskPc.rxLoop v).nodeOp e w)
      (rxBody ch w v).2.took m' (rxBody ch w v).1
      (Hands ((rxBody ch w v).2.claim.map Prod.fst) others) making := by
  have op : (TaskPc.rxLoop v).nodeOp e w =
      .takeReader (readClass (frameOf w.mem w.unit.rx g frameLen).etherType) := by
    simp only [TaskPc.nodeOp, fetched, good]
  have body : rxBody ch w v = offerFrame w v g (frameOf w.mem w.unit.rx g frameLen) := by
    simp only [rxBody, fetched, good]
  rw [op, body]
  generalize frameOf w.mem w.unit.rx g frameLen = f
  obtain ⟨m', found, runs, outcome⟩ := takeReader_agrees agree f.etherType
  have ran : ∃ bound, ∀ fuel, bound < fuel →
      runNodeOp lists mail.ioPort fuel m (.takeReader (readClass f.etherType)) = some (m', found) :=
    ⟨longest (nodesOf mail w), runs⟩
  simp only [offerFrame]
  split
  · rename_i pr rest taken
    simp only [taken] at outcome
    obtain ⟨rfl, frees, agreed⟩ := outcome
    have head := takeReader_read _ _ _ _ _ taken
    refine ⟨m', done_held _ (done_freeing [pr.node] ran (agree_world agreed _ ?_ ?_ ?_ rfl
      fun _ => rfl) frees rfl ?_) (hands_taken pr.ioreq others)⟩
    · cases readClass f.etherType <;> exact fun c => by cases c <;> rfl
    · cases readClass f.etherType <;> rfl
    · cases readClass f.etherType <;> rfl
    · refine readNodes_more w _ (readClass f.etherType) pr ?_ fun c other => ?_
      · rw [head]
        cases readClass f.etherType <;> exact List.Perm.refl _
      · revert other
        cases readClass f.etherType <;> cases c <;> intro other <;>
          first | rfl | exact absurd rfl other
  · rename_i r rest taken
    simp only [taken] at outcome
    obtain ⟨rfl, frees, agreed⟩ := outcome
    refine ⟨m', done_held _ (done_quiet ran (agree_world agreed _ ?_ rfl rfl rfl fun _ => rfl)
      (by rw [frees]) rfl ?_) (hands_taken r others)⟩
    · exact fun c => by cases c <;> rfl
    · exact fun c => by cases c <;> rfl
  · rename_i taken
    simp only [taken] at outcome
    obtain ⟨rfl, frees, agreed⟩ := outcome
    refine ⟨m', done_quiet ran (agree_world agreed _ ?_ rfl rfl rfl fun _ => rfl) (by rw [frees])
      rfl ?_⟩
    · exact fun c => by cases c <;> rfl
    · exact fun c => by cases c <;> rfl

theorem rxLoop_done (ch : Channels) (e : TaskEnv) (v : RxLoop) (others : ReqId → Prop)
    (agree : Agree lists mail m w (Hands [] others) making) :
    ∃ m', NodeDone lists mail m w making ((TaskPc.rxLoop v).nodeOp e w)
      (rxBody ch w v).2.took m' (rxBody ch w v).1
      (Hands ((rxBody ch w v).2.claim.map Prod.fst) others) making := by
  cases fetched : fetchGroup w.unit.rx v.n with
  | none =>
      simp only [TaskPc.nodeOp, rxBody, fetched]
      exact ⟨m, rest_done _ agree (fun c => by cases c <;> rfl) rfl rfl rfl rfl⟩
  | some g =>
      cases checked : checkGroup w.unit.rx g with
      | error bad =>
          simp only [TaskPc.nodeOp, rxBody, fetched, checked]
          exact ⟨m, rest_done _ agree (fun c => by cases c <;> rfl) rfl rfl rfl rfl⟩
      | ok frameLen => exact offer_done ch e v g frameLen others agree fetched checked

theorem op_done (ch : Channels) (e : TaskEnv) (r : ReqId) (op : TaskOp) (ops : List TaskOp)
    (fin : Finish) (held : ReqId → Prop) (agree : Agree lists mail m w held making) :
    ∃ m', NodeDone lists mail m w making ((TaskPc.handling r (op :: ops) fin).nodeOp e w) none m'
      (runOp ch e w op) held making := by
  cases op with
  | setOnline online =>
      exact ⟨m, rest_done held agree (fun c => by cases c <;> rfl) rfl rfl rfl rfl⟩
  | postRxBuffers =>
      exact ⟨m, rest_done held agree (fun c => by cases c <;> rfl) rfl rfl rfl rfl⟩
  | flushReadQueue error => exact flushQueue_done held error agree
  | signalEvent mask =>
      exact events_done held (fun q => q.wireError &&& mask ≠ 0#32)
        (fun q => { q with error := .ok, wireError := mask &&& q.wireError }) (.event mask)
        (.signalEvent mask) (fun _ => rfl) rfl agree

theorem task_nodes (ch : Channels) (e : TaskEnv) (pc next : TaskPc) (others : ReqId → Prop)
    (agree : Agree lists mail m w (Hands (pc.claim.map Prod.fst) others) making)
    (apart : ∀ r ∈ pc.claim.map Prod.fst, ¬ others r)
    (stepped : taskStep ch e w pc = some (v, next)) :
    ∃ m', NodeDone lists mail m w making (pc.nodeOp e w) next.took m' v
      (Hands (next.claim.map Prod.fst) others) making := by
  cases pc with
  | loopHead =>
      obtain ⟨rfl, rfl⟩ := Prod.mk.inj (Option.some.inj stepped)
      by_cases ends : w.unit.taskShutdown = true
      · rw [if_pos ends]
        exact ⟨m, rest_done _ agree (fun _ => rfl) rfl rfl rfl rfl⟩
      · rw [if_neg ends]
        exact ⟨m, rest_done _ agree (fun _ => rfl) rfl rfl rfl rfl⟩
  | waiting =>
      simp only [taskStep] at stepped
      split at stepped
      · obtain ⟨rfl, rfl⟩ := Prod.mk.inj (Option.some.inj stepped)
        exact ⟨m, rest_done _ agree (fun _ => rfl) rfl rfl rfl rfl⟩
      · cases stepped
  | woken =>
      obtain ⟨rfl, rfl⟩ := Prod.mk.inj (Option.some.inj stepped)
      by_cases ends : w.signals.ctrlC = true
      · rw [if_pos ends]
        exact ⟨m, rest_done _ agree (fun _ => rfl) rfl rfl rfl rfl⟩
      · rw [if_neg ends]
        exact ⟨m, rest_done _ agree (fun _ => rfl) rfl rfl rfl rfl⟩
  | draining =>
      simp only [taskStep] at stepped
      split at stepped
      · cases stepped
      · rename_i empty
        obtain ⟨rfl, rfl⟩ := Prod.mk.inj (Option.some.inj stepped)
        exact emptyPort_done _ agree empty
      · rename_i r rest here
        obtain ⟨rfl, rfl⟩ := Prod.mk.inj (Option.some.inj stepped)
        exact getMsg_done r rest others agree here
  | received r =>
      obtain ⟨rfl, rfl⟩ := Prod.mk.inj (Option.some.inj stepped)
      exact ⟨m, rest_done _ agree (fun _ => rfl) rfl rfl rfl rfl⟩
  | handling r ops fin =>
      cases ops with
      | nil =>
          obtain ⟨rfl, rfl⟩ := Prod.mk.inj (Option.some.inj stepped)
          exact ⟨_, reply_done others r _ .unitTask agree (apart r List.mem_cons_self)⟩
      | cons op ops =>
          obtain ⟨rfl, rfl⟩ := Prod.mk.inj (Option.some.inj stepped)
          exact op_done ch e r op ops fin _ agree
  | rxStart =>
      obtain ⟨rfl, rfl⟩ := Prod.mk.inj (Option.some.inj stepped)
      split
      · exact ⟨m, rest_done _ agree (fun _ => rfl) rfl rfl rfl rfl⟩
      · exact ⟨m, rest_done _ agree (fun _ => rfl) rfl rfl rfl rfl⟩
  | rxLoop v =>
      obtain ⟨rfl, rfl⟩ := Prod.mk.inj (Option.some.inj stepped)
      exact rxLoop_done ch e v others agree
  | rxDeliver v g f r orphan =>
      obtain ⟨rfl, rfl⟩ := Prod.mk.inj (Option.some.inj stepped)
      exact ⟨_, reply_done others r _ _ agree (apart r List.mem_cons_self)⟩
  | rxNext v g =>
      obtain ⟨rfl, rfl⟩ := Prod.mk.inj (Option.some.inj stepped)
      exact ⟨m, rest_done _ agree (fun c => by cases c <;> rfl) rfl rfl rfl rfl⟩
  | exitDrain =>
      simp only [taskStep] at stepped
      split at stepped
      · cases stepped
      · rename_i empty
        obtain ⟨rfl, rfl⟩ := Prod.mk.inj (Option.some.inj stepped)
        exact emptyPort_done _ agree empty
      · rename_i r rest here
        obtain ⟨rfl, rfl⟩ := Prod.mk.inj (Option.some.inj stepped)
        exact getMsg_done r rest others agree here
  | exitReply r =>
      obtain ⟨rfl, rfl⟩ := Prod.mk.inj (Option.some.inj stepped)
      exact ⟨_, reply_done others r _ .exitDrain agree (apart r List.mem_cons_self)⟩
  | exitFlush =>
      obtain ⟨rfl, rfl⟩ := Prod.mk.inj (Option.some.inj stepped)
      exact flushQueue_done _ .aborted agree
  | exitFlushEvents =>
      obtain ⟨rfl, rfl⟩ := Prod.mk.inj (Option.some.inj stepped)
      exact events_done _ (fun _ => true) (flushed .aborted) .flush .flushRemaining
        (fun _ => rfl) rfl agree
  | drained => cases stepped

theorem done_perm (held : ReqId → Prop) (before after : List PendingRead)
    (done : NodeDone lists mail m w before op took m' v held after)
    (first : making.Perm before) (last : after.Perm making') (fewer : ∀ r, held' r → held r) :
    NodeDone lists mail m w making op took m' v held' making' where
  runs := done.runs
  agree := agree_fewer done.agree held' [] making' fewer last
  blocks := by
    obtain ⟨gone, frees, either, moved⟩ := done.blocks
    refine ⟨gone, frees, either, ?_⟩
    have source := ((first.map PendingRead.node).append_right
      (readNodes (nodesOf mail w))).append_left op.allocates
    have target := ((last.map PendingRead.node).append_right
      (readNodes (nodesOf mail v))).append_left gone
    exact source.trans (moved.trans target)

def callOthers (s : Driver) (i : Nat) (r : ReqId) : Prop :=
  r ∈ ((s.calls.eraseIdx i).flatMap Call.claim ++ s.tasks.flatMap TaskPc.claim).map Prod.fst

def taskOthers (s : Driver) (i : Nat) (r : ReqId) : Prop :=
  r ∈ (s.calls.flatMap Call.claim ++ (s.tasks.eraseIdx i).flatMap TaskPc.claim).map Prod.fst

theorem mem_hands_call (s : Driver) (i : Nat) (c : Call) (present : s.calls[i]? = some c)
    (r : ReqId) : r ∈ s.hands ↔ Hands (c.claim.map Prod.fst) (callOthers s i) r := by
  have leave := (((flatMap_leave Call.claim s.calls i c present).append_right
    (s.tasks.flatMap TaskPc.claim)).map Prod.fst).mem_iff (a := r)
  rw [Driver.hands, leave]
  simp only [Hands, callOthers, List.map_append, List.mem_append, or_assoc]

theorem mem_hands_task (s : Driver) (i : Nat) (pc : TaskPc) (present : s.tasks[i]? = some pc)
    (r : ReqId) : r ∈ s.hands ↔ Hands (pc.claim.map Prod.fst) (taskOthers s i) r := by
  have leave := (((flatMap_leave TaskPc.claim s.tasks i pc present).append_left
    (s.calls.flatMap Call.claim)).map Prod.fst).mem_iff (a := r)
  rw [Driver.hands, leave]
  simp only [Hands, taskOthers, List.map_append, List.mem_append]
  tauto

theorem hands_nodup (ch : Channels) (s : Driver) (reached : (sessionMachine ch).Reached s) :
    s.hands.Nodup := by
  have distinct := kept_nodup _ _ _ (session_reached ch s reached).1
  simp only [Ledger.items, Driver.ledger, ledger, Driver.places, ← List.append_assoc,
    List.map_append] at distinct
  rw [Driver.hands, List.map_append]
  exact (List.nodup_append.mp distinct).1

theorem hands_placed (s : Driver) (r : ReqId) (member : r ∈ s.hands) : r ∈ s.ledger.items := by
  simp only [Ledger.items, Driver.ledger, ledger, Driver.places, ← List.append_assoc]
  rw [List.map_append]
  exact List.mem_append_left _ member

end

theorem reads_placed (s : Driver) (c : ReadClass) (pr : PendingRead)
    (member : pr ∈ s.world.unit.readList c) : pr.ioreq ∈ s.ledger.items := by
  have place : (pr.ioreq, Stage.reading c) ∈ stored s.world.unit := by
    have mapped : (pr.ioreq, Stage.reading c) ∈ readPlaces (s.world.unit.readList c) c :=
      List.mem_map_of_mem member
    cases c <;> simp only [stored, List.mem_append, PA6TEthUnit.readList] at mapped ⊢ <;> tauto
  exact List.mem_map_of_mem (List.mem_append_right _ (List.mem_append_right _ place))

theorem queues_placed (s : Driver) (r : ReqId)
    (member : r ∈ s.world.unit.eventList ∨ r ∈ s.world.unit.ioPort.getD []) :
    r ∈ s.ledger.items := by
  have place : ∃ stage, (r, stage) ∈ stored s.world.unit := by
    rcases member with event | message
    · refine ⟨.waiting, ?_⟩
      have mapped : (r, Stage.waiting) ∈ eventPlaces s.world.unit.eventList :=
        List.mem_map_of_mem event
      simp only [stored, List.mem_append]
      tauto
    · refine ⟨.clear, ?_⟩
      have mapped : (r, Stage.clear) ∈ portPlaces s.world.unit.ioPort := List.mem_map_of_mem message
      simp only [stored, List.mem_append]
      tauto
  obtain ⟨stage, place⟩ := place
  exact List.mem_map_of_mem (List.mem_append_right _ (List.mem_append_right _ place))

section

variable {lists : ListName → Header Addr} {x : PostedDriver} {n : Addr}

theorem unused_out (unused : Unused lists x n) :
    ¬ Linked lists (nodesOf x.mail x.driver.world) n := by
  rintro ⟨q, member⟩
  simp only [Header.full, List.mem_cons, List.mem_append, List.not_mem_nil, or_false] at member
  rcases member with head | inside | tail
  · exact (unused.header q).1 head
  · cases q with
    | reads c =>
        obtain ⟨pr, here, same⟩ := List.mem_map.mp inside
        exact unused.reads c pr here same
    | events => exact unused.places (queues_placed x.driver n (.inl inside))
    | port p =>
        simp only [nodesOf] at inside
        split at inside
        · exact unused.places (queues_placed x.driver n (.inr inside))
        · exact unused.inbox p inside
  · exact (unused.header q).2 tail

theorem unused_unwrapped {m : ExecHeap} {held : ReqId → Prop} {making : List PendingRead}
    (agree : Agree lists x.mail m x.driver.world held making) (unused : Unused lists x n) :
    ∀ v ∈ readNodes (nodesOf x.mail x.driver.world), m.ioreq v ≠ n := by
  intro v member
  obtain ⟨c, inside⟩ := (readNodes_mem _ v).mp member
  obtain ⟨pr, here, rfl⟩ := List.mem_map.mp inside
  rw [agree.wrappers c pr here]
  intro same
  exact unused.places (same ▸ reads_placed x.driver c pr here)

theorem callAct_done (ch : Channels) (t : Driver) (i : Nat) (e : CallEnv) {m : ExecHeap}
    (reached : (sessionMachine ch).Reached x.driver)
    (agree : Agree lists x.mail m x.driver.world (fun r => r ∈ x.driver.hands) x.driver.making)
    (sane : Sane lists x (.act (.call i e))) (stepped : driverStep ch x.driver (.call i e) = some t) :
    ∃ m', NodeDone lists x.mail m x.driver.world x.driver.making (x.driver.nodeOp (.call i e))
      (x.driver.took ch (.call i e)) m' t.world (fun r => r ∈ t.hands) t.making := by
  obtain ⟨c, w, next, present, ran, rfl⟩ := call_step ch x.driver t i e stepped
  have mine := mem_hands_call x.driver i c present
  have leave := flatMap_leave Call.making x.driver.calls i c present
  have distinct := hands_nodup ch x.driver reached
  have apart : ∀ r ∈ c.claim.map Prod.fst, ¬ callOthers x.driver i r := by
    rw [Driver.hands, (((flatMap_leave Call.claim x.driver.calls i c present).append_right
      (x.driver.tasks.flatMap TaskPc.claim)).map Prod.fst).nodup_iff, List.append_assoc,
      List.map_append] at distinct
    intro r own other
    exact (List.nodup_append.mp distinct).2.2 r own r other rfl
  have before := agree_fewer agree (Hands (c.claim.map Prod.fst) (callOthers x.driver i)) []
    (c.making ++ (x.driver.calls.eraseIdx i).flatMap Call.making) (fun r => (mine r).mpr) leave
  have given : ∀ r, c = .beginIo r → e.wrapper ≠ 0 →
      ¬ Linked lists (nodesOf x.mail x.driver.world) e.wrapper ∧
      (∀ v ∈ readNodes (nodesOf x.mail x.driver.world), m.ioreq v ≠ e.wrapper) ∧
      (∀ pr ∈ (x.driver.calls.eraseIdx i).flatMap Call.making, pr.node ≠ e.wrapper) ∧
      ¬ Hands [r] (callOthers x.driver i) e.wrapper := by
    rintro r rfl allocated
    have unused := sane r present allocated
    refine ⟨unused_out unused, unused_unwrapped agree unused, ?_, ?_⟩
    · intro pr other
      exact unused.making pr (leave.mem_iff.mpr (List.mem_append_right _ other))
    · intro there
      exact unused.places (hands_placed x.driver _ ((mine _).mpr there))
  obtain ⟨m', done⟩ := call_nodes ch e c next (callOthers x.driver i)
    ((x.driver.calls.eraseIdx i).flatMap Call.making) before apart given ran
  have op : x.driver.nodeOp (.call i e) = c.nodeOp e x.driver.world := by
    simp only [Driver.nodeOp, present, Option.map_some, Option.getD_some]
  have took : x.driver.took ch (.call i e) = next.bind Call.took := by
    simp only [Driver.took, present, ran, Option.bind_some]
  rw [op, took]
  refine ⟨m', done_perm _ _ _ done leave ?_ ?_⟩
  · cases next with
    | none => exact List.Perm.refl _
    | some next => exact (flatMap_replace Call.making x.driver.calls i c next present).symm
  · intro r there
    cases next with
    | none => exact .inr there
    | some next =>
        have replaced := (((flatMap_replace Call.claim x.driver.calls i c next present).append_right
          (x.driver.tasks.flatMap TaskPc.claim)).map Prod.fst).mem_iff.mp there
        rw [List.append_assoc, List.map_append] at replaced
        exact List.mem_append.mp replaced

theorem taskAct_done (ch : Channels) (t : Driver) (i : Nat) (e : TaskEnv) {m : ExecHeap}
    (reached : (sessionMachine ch).Reached x.driver)
    (agree : Agree lists x.mail m x.driver.world (fun r => r ∈ x.driver.hands) x.driver.making)
    (stepped : driverStep ch x.driver (.task i e) = some t) :
    ∃ m', NodeDone lists x.mail m x.driver.world x.driver.making (x.driver.nodeOp (.task i e))
      (x.driver.took ch (.task i e)) m' t.world (fun r => r ∈ t.hands) t.making := by
  obtain ⟨pc, w, next, present, ran, rfl⟩ := task_step ch x.driver t i e stepped
  have mine := mem_hands_task x.driver i pc present
  have distinct := hands_nodup ch x.driver reached
  have apart : ∀ r ∈ pc.claim.map Prod.fst, ¬ taskOthers x.driver i r := by
    have leave := ((flatMap_leave TaskPc.claim x.driver.tasks i pc present).append_left
      (x.driver.calls.flatMap Call.claim)).trans (List.perm_append_comm_assoc _ _ _)
    rw [Driver.hands, (leave.map Prod.fst).nodup_iff, List.map_append] at distinct
    intro r own other
    exact (List.nodup_append.mp distinct).2.2 r own r other rfl
  have before := agree_fewer agree (Hands (pc.claim.map Prod.fst) (taskOthers x.driver i)) []
    x.driver.making (fun r => (mine r).mpr) (List.Perm.refl _)
  obtain ⟨m', done⟩ := task_nodes ch e pc next (taskOthers x.driver i) before apart ran
  have op : x.driver.nodeOp (.task i e) = pc.nodeOp e x.driver.world := by
    simp only [Driver.nodeOp, present, Option.map_some, Option.getD_some]
  have took : x.driver.took ch (.task i e) = next.took := by
    simp only [Driver.took, present, ran, Option.bind_some]
  rw [op, took]
  refine ⟨m', done_held _ done fun r there => ?_⟩
  have replaced := (((flatMap_replace TaskPc.claim x.driver.tasks i pc next present).append_left
    (x.driver.calls.flatMap Call.claim)).trans (List.perm_append_comm_assoc _ _ _)).map Prod.fst
  have placed := replaced.mem_iff.mp there
  rw [List.map_append] at placed
  exact List.mem_append.mp placed

theorem submitAct_done (t : Driver) (r : ReqId) (q : IOSana2Req) (ch : Channels) {m : ExecHeap}
    (agree : Agree lists x.mail m x.driver.world (fun r => r ∈ x.driver.hands) x.driver.making)
    (sane : Unused lists x r) (stepped : driverStep ch x.driver (.submit r q) = some t) :
    ∃ m', NodeDone lists x.mail m x.driver.world x.driver.making (x.driver.nodeOp (.submit r q))
      (x.driver.took ch (.submit r q)) m' t.world (fun r => r ∈ t.hands) t.making := by
  obtain ⟨_, rfl⟩ := submit_step ch x.driver t r q stepped
  have submitted := agree_submit agree
    { x.driver.world with
      reqs := Function.update x.driver.world.reqs r q
      asked := Function.update x.driver.world.asked r q
      submitted := r :: x.driver.world.submitted } r q (unused_out sane)
    (unused_unwrapped agree sane) sane.making rfl (fun _ => rfl) rfl rfl
  refine ⟨_, done_held _ (done_quiet ⟨0, fun _ _ => rfl⟩ submitted ?_ rfl fun _ => rfl) ?_⟩
  · rw [frees_write]
    exact frees_renew m r
  · exact fun x there => List.mem_cons.mp there

theorem idleAct_done (t : Driver) (a : Action) (ch : Channels) {m : ExecHeap}
    (agree : Agree lists x.mail m x.driver.world (fun r => r ∈ x.driver.hands) x.driver.making)
    (idle : x.driver.nodeOp a = .rest ∧ x.driver.took ch a = none)
    (hands : t.hands = x.driver.hands) (making : t.making = x.driver.making)
    (reads : ∀ c, t.world.unit.readList c = x.driver.world.unit.readList c)
    (events : t.world.unit.eventList = x.driver.world.unit.eventList)
    (port : t.world.unit.ioPort = x.driver.world.unit.ioPort)
    (reqs : t.world.reqs = x.driver.world.reqs)
    (answers : t.world.answers = x.driver.world.answers) :
    ∃ m', NodeDone lists x.mail m x.driver.world x.driver.making (x.driver.nodeOp a)
      (x.driver.took ch a) m' t.world (fun r => r ∈ t.hands) t.making := by
  rw [idle.1, idle.2, hands, making]
  exact ⟨m, rest_done _ agree reads events port reqs answers⟩

/-- Every step of a session, on the nodes. -/
theorem act_done (ch : Channels) (t : Driver) (a : Action) {m : ExecHeap}
    (reached : (sessionMachine ch).Reached x.driver)
    (agree : Agree lists x.mail m x.driver.world (fun r => r ∈ x.driver.hands) x.driver.making)
    (sane : Sane lists x (.act a)) (stepped : (sessionMachine ch).step x.driver a = some t) :
    ∃ m', NodeDone lists x.mail m x.driver.world x.driver.making (x.driver.nodeOp a)
      (x.driver.took ch a) m' t.world (fun r => r ∈ t.hands) t.making := by
  obtain ⟨inside, moved⟩ := session_step ch x.driver t a stepped
  cases a with
  | submit r q => exact submitAct_done t r q ch agree sane moved
  | abortIo r =>
      obtain rfl := Option.some.inj moved
      exact idleAct_done _ _ ch agree ⟨rfl, rfl⟩ rfl rfl (fun _ => rfl) rfl rfl rfl rfl
  | call i e => exact callAct_done ch t i e reached agree sane moved
  | task i e => exact taskAct_done ch t i e reached agree moved
  | signal more =>
      obtain rfl := Option.some.inj moved
      exact idleAct_done _ _ ch agree ⟨rfl, rfl⟩ rfl rfl (fun _ => rfl) rfl rfl rfl rfl
  | dma ring mem =>
      obtain rfl := Option.some.inj moved
      exact idleAct_done _ _ ch agree ⟨rfl, rfl⟩ rfl rfl (fun c => by cases c <;> rfl) rfl rfl rfl rfl
  | openDevice bmCookie allocated outcome =>
      have opened : x.driver.world.unit.openCount ≠ 0 := by simpa [inSession] using inside
      rcases open_step ch x.driver t bmCookie allocated outcome moved with
        rfl | ⟨_, rfl⟩ | ⟨closed, _, _⟩ | ⟨closed, _, _⟩
      · exact idleAct_done _ _ ch agree ⟨rfl, rfl⟩ rfl rfl (fun _ => rfl) rfl rfl rfl rfl
      · exact idleAct_done _ _ ch agree ⟨rfl, rfl⟩ rfl rfl (fun c => by cases c <;> rfl) rfl rfl rfl
          rfl
      · exact absurd closed opened
      · exact absurd closed opened
  | closeDevice bmCookie =>
      obtain rfl := Option.some.inj moved
      have same : ∃ unit : PA6TEthUnit, ∃ signals,
          x.driver.world.close bmCookie = { x.driver.world with unit := unit, signals := signals } ∧
          (∀ c, unit.readList c = x.driver.world.unit.readList c) ∧
          unit.eventList = x.driver.world.unit.eventList ∧
          unit.ioPort = x.driver.world.unit.ioPort := by
        simp only [World.close, World.unitTaskShutdown]
        split_ifs
        all_goals exact ⟨_, _, rfl, fun c => by cases c <;> rfl, rfl, rfl⟩
      obtain ⟨unit, signals, closed, reads, events, port⟩ := same
      refine idleAct_done _ _ ch agree ⟨rfl, rfl⟩ rfl rfl ?_ ?_ ?_ ?_ ?_
      all_goals simp only [closed]
      · exact reads
      · exact events
      · exact port
  | teardown i => cases inside

theorem blocks_nodup {m : ExecHeap} {w : World} {held : ReqId → Prop} {making : List PendingRead}
    {mail : Mail} (agree : Agree lists mail m w held making) :
    (making.map PendingRead.node ++ readNodes (nodesOf mail w)).Nodup := by
  rw [List.nodup_append]
  refine ⟨agree.built, (flushedReads_nodup agree.formed).1, fun a made b linked same => ?_⟩
  obtain ⟨pr, member, rfl⟩ := List.mem_map.mp made
  obtain ⟨c, inside⟩ := (readNodes_mem _ b).mp linked
  apply (agree.fresh pr member).1.out
  rw [same]
  exact ⟨.reads c, List.mem_cons_of_mem _ (List.mem_append_left _ inside)⟩

theorem owned_kept (owned before after gone new : List Addr) (had : owned.Perm before)
    (moved : (new ++ before).Perm (gone ++ after)) (either : gone = [] ∨ new = [])
    (distinct : before.Nodup) : (new ++ owned.filter fun b => b ∉ gone).Perm after := by
  rcases either with rfl | rfl
  · have all : (owned.filter fun b => b ∉ ([] : List Addr)) = owned := by simp
    rw [all]
    exact (had.append_left new).trans moved
  · have apart := (List.nodup_append.mp (moved.nodup_iff.mp distinct)).2.2
    have freed : (gone.filter fun b => b ∉ gone) = [] := by simp
    have kept : (after.filter fun b => b ∉ gone) = after := by
      simp only [List.filter_eq_self, decide_eq_true_eq]
      exact fun b member there => apart b there b member rfl
    have rest := (had.trans moved).filter fun b => decide (b ∉ gone)
    rw [List.filter_append, freed, kept] at rest
    exact rest

/-- A step of the driver and the same step on the nodes. -/
theorem nodeStep_implements (ch : Channels) (t : Driver) (a : Action) (n : NodeState)
    (reached : (sessionMachine ch).Reached x.driver) (implements : Implements lists x n)
    (sane : Sane lists x (.act a)) (stepped : (sessionMachine ch).step x.driver a = some t) :
    ∃ bound n', (∀ fuel, bound < fuel →
        nodeStep ch lists x.mail.ioPort fuel x.driver a n = some n') ∧
      Implements lists { x with driver := t } n' := by
  obtain ⟨m', done⟩ := act_done ch t a reached implements.agree sane stepped
  obtain ⟨bound, runs⟩ := done.runs
  obtain ⟨gone, frees, either, moved⟩ := done.blocks
  refine ⟨bound, n.after (x.driver.nodeOp a) m', fun fuel enough => ?_, ⟨done.agree, ?_⟩⟩
  · simp only [nodeStep, runs fuel enough, Option.bind_some, if_true]
  · simp only [NodeState.after, frees]
    exact owned_kept n.owned _ _ gone _ implements.owned moved either (blocks_nodup implements.agree)

theorem getMsg_implements (p : Addr) (n : NodeState) (implements : Implements lists x n)
    (other : p ≠ x.mail.ioPort) :
    ∃ n', (n.heap.getMsg lists p).map (fun done => { n with heap := done.1 }) = some n' ∧
      Implements lists { x with mail := x.mail.take x.driver.world.answers p } n' := by
  obtain ⟨s, agreed, frees, taken⟩ := getMsg_agrees implements.agree p
  have queue : nodesOf x.mail x.driver.world (.port p) = x.mail.inbox x.driver.world.answers p :=
    if_neg other
  rw [taken, queue]
  cases messages : x.mail.inbox x.driver.world.answers p with
  | nil =>
      refine ⟨⟨s, n.owned⟩, rfl, ?_⟩
      rw [Mail.take, if_pos messages]
      exact ⟨agreed, implements.owned⟩
  | cons r rest =>
      refine ⟨⟨s.remove r, n.owned⟩, rfl, ?_⟩
      rw [Mail.take, if_neg (by rw [messages]; exact List.cons_ne_nil r rest)]
      have later : (x.mail.posted x.driver.world.answers p).drop (x.mail.got p + 1) = rest := by
        rw [← List.drop_drop]
        exact congrArg (List.drop 1) messages
      have counted : ∀ p', Function.update x.mail.got p (x.mail.got p + 1) p' ≤
          (x.mail.posted x.driver.world.answers p').length := by
        intro p'
        by_cases same : p' = p
        · subst same
          have nonempty : 0 < (x.mail.inbox x.driver.world.answers p').length := by
            rw [messages]
            exact Nat.succ_pos _
          simp only [Mail.inbox, List.length_drop] at nonempty
          rw [Function.update_self]
          omega
        · rw [Function.update_of_ne same]
          exact agreed.counted p'
      have nodes : nodesOf
          { x.mail with got := Function.update x.mail.got p (x.mail.got p + 1) } x.driver.world =
            Function.update (nodesOf x.mail x.driver.world) (.port p) rest := by
        funext q
        cases q with
        | reads c => rfl
        | events => rfl
        | port p' =>
            by_cases same : p' = p
            · subst same
              rw [Function.update_self]
              simp only [nodesOf, if_neg other, Mail.inbox, Function.update_self]
              exact later
            · rw [Function.update_of_ne (by simpa using same)]
              simp only [nodesOf, Mail.inbox, Function.update_of_ne same]
              rfl
      have got := agree_take agreed
        { x.mail with got := Function.update x.mail.got p (x.mail.got p + 1) } x.driver.world
        (.port p) r [] rest (fun _ => ListName.noConfusion) (queue.trans messages) nodes
        (fun _ => rfl) rfl ⟨rfl, rfl⟩ counted
      exact ⟨agree_fewer got _ [] _ (fun r there => .inr there) (List.Perm.refl _),
        implements.owned⟩

theorem nodeAct_implements (ch : Channels) (y : PostedDriver) (a : PostAction) (n : NodeState)
    (reached : (sessionMachine ch).Reached x.driver) (implements : Implements lists x n)
    (sane : Sane lists x a) (stepped : (postMachine ch).step x a = some y) :
    ∃ bound n', (∀ fuel, bound < fuel → nodeAct ch lists fuel x a n = some n') ∧
      Implements lists y n' ∧ (sessionMachine ch).Reached y.driver := by
  cases a with
  | act a =>
      obtain ⟨t, moved, rfl⟩ := Option.map_eq_some_iff.mp stepped
      obtain ⟨bound, n', runs, done⟩ := nodeStep_implements ch t a n reached implements sane moved
      exact ⟨bound, n', runs, done, .step x.driver a t reached moved⟩
  | getMsg p =>
      obtain rfl := Option.some.inj stepped
      obtain ⟨n', runs, done⟩ := getMsg_implements p n implements sane
      exact ⟨0, n', fun _ _ => runs, done, reached⟩

theorem nodeRun_implements (ch : Channels) (y : PostedDriver) (n : NodeState)
    (actions : List PostAction) (reached : (sessionMachine ch).Reached x.driver)
    (implements : Implements lists x n)
    (sane : (postMachine ch).Along (fun s a _ => Sane lists s a) x actions)
    (ran : (postMachine ch).run x actions = some y) :
    ∃ bound n', (∀ fuel, bound < fuel → nodeRun ch lists fuel x n actions = some n') ∧
      Implements lists y n' := by
  induction actions generalizing x n with
  | nil =>
      cases ran
      exact ⟨0, n, fun _ _ => rfl, implements⟩
  | cons a rest ih =>
      obtain ⟨z, stepped, later⟩ := (postMachine ch).run_cons x y a rest ran
      obtain ⟨allowed, after⟩ := sane z stepped
      obtain ⟨bound, n₁, runs, here, reaches⟩ :=
        nodeAct_implements ch z a n reached implements allowed stepped
      obtain ⟨bound', n₂, runs', done⟩ := ih n₁ reaches here after later
      refine ⟨max bound bound', n₂, fun fuel enough => ?_, done⟩
      have first := runs fuel (lt_of_le_of_lt (le_max_left bound bound') enough)
      have second := runs' fuel (lt_of_le_of_lt (le_max_right bound bound') enough)
      have moved : postStep ch x a = some z := stepped
      simp only [nodeRun, first, moved, Option.bind_some]
      exact second

theorem opened_implements (m : ExecHeap) (opened : Opened x.driver)
    (formed : Formed lists m (nodesOf x.mail x.driver.world)) (reqs : m.reqs = x.driver.world.reqs)
    (ports : m.replyPort = x.mail.replyPort)
    (foreign : ∀ r, x.mail.replyPort r ≠ some x.mail.ioPort)
    (counted : ∀ p, x.mail.got p ≤ (x.mail.before p).length) (safe : NoUseAfterFree m.log) :
    Implements lists x ⟨m, []⟩ := by
  have hands : x.driver.hands = [] := by
    simp [Driver.hands, opened.calls, opened.tasks, TaskPc.claim]
  have making : x.driver.making = [] := by simp [Driver.making, opened.calls]
  have empty : readNodes (nodesOf x.mail x.driver.world) = [] := by
    simp [readNodes_nodesOf, opened.reads]
  constructor
  · rw [making]
    exact {
      formed := formed
      wrappers := by simp [opened.reads]
      reqs := reqs
      ports := ports
      foreign := foreign
      counted := by simpa [Mail.posted, opened.answers] using counted
      loose := by simp [hands]
      fresh := by simp
      built := List.nodup_nil
      safe := safe }
  · rw [making, empty]
    exact List.Perm.refl _

/-- In every run of one session the programs on the nodes end, take what the driver takes out of its
lists, and leave the nodes of its lists; they touch and free no freed block, and the wrappers that
the allocator has given and not got back are those in the read lists and those not linked in yet. -/
theorem lists_refined (ch : Channels) (x y : PostedDriver) (n : NodeState)
    (actions : List PostAction) (opened : Opened x.driver) (implements : Implements lists x n)
    (sane : (postMachine ch).Along (fun s a _ => Sane lists s a) x actions)
    (ran : (postMachine ch).run x actions = some y) :
    ∃ bound n', (∀ fuel, bound < fuel → nodeRun ch lists fuel x n actions = some n') ∧
      Implements lists y n' ∧ NoUseAfterFree n'.heap.log ∧ n'.owned.Nodup ∧
      n'.owned.Perm (y.driver.making.map PendingRead.node ++
        ((y.driver.world.unit.readList .ipv4).map PendingRead.node ++
          ((y.driver.world.unit.readList .arp).map PendingRead.node ++
            (y.driver.world.unit.readList .other).map PendingRead.node))) := by
  obtain ⟨bound, n', runs, done⟩ :=
    nodeRun_implements ch y n actions (.start x.driver opened) implements sane ran
  exact ⟨bound, n', runs, done, done.agree.safe,
    done.owned.nodup_iff.mpr (blocks_nodup done.agree), done.owned⟩

end

def onlineDriver : PostedDriver where
  driver := { openedDriver with
    world := { openedDriver.world with unit := { openedDriver.world.unit with online := true } } }
  mail := ⟨3, fun _ => some 5, fun _ => [], fun _ => 0⟩

def onlineHeap : ExecHeap :=
  ⟨emptyLinks, fun _ => 0, onlineDriver.driver.world.reqs, fun _ => some 5, []⟩

theorem onlineDriver_opened : Opened onlineDriver.driver :=
  { openedDriver_opened with reads := fun c => by cases c <;> rfl }

theorem onlineHeap_implements : Implements exampleLists onlineDriver ⟨onlineHeap, []⟩ := by
  have empty : nodesOf onlineDriver.mail onlineDriver.driver.world = fun _ => [] := by
    funext q
    cases q with
    | reads c => cases c <;> rfl
    | events => rfl
    | port p =>
        simp only [nodesOf]
        split <;> rfl
  refine opened_implements onlineHeap onlineDriver_opened ?_ rfl rfl ?_ ?_ trivial
  · rw [empty]
    exact {
      arranged := emptyLinks_arranged
      live := fun _ _ => List.not_mem_nil
      unlinked := by simp [readNodes]
      once := List.nodup_nil }
  · intro r same
    cases Option.some.inj same
  · intro p
    exact Nat.le_refl 0

def pooled : CallEnv := { callEnv with wrapper := 0x902 }

def abortedRead : List PostAction :=
  [.act (.submit 6 (request .cmdRead 0x800#32 0xB0 0#32)), .act (.call 0 pooled),
    .act (.call 0 pooled), .act (.abortIo 6), .act (.call 0 pooled), .act (.call 0 pooled),
    .getMsg 5]

/-- What makes a block unused beside the example's headers, for clients with empty ports at first. -/
def unusedBlock (x : PostedDriver) (n : Nat) : Bool :=
  n % 4 == 2 && n ∉ x.driver.making.map PendingRead.node &&
    n ∉ readNodes (nodesOf x.mail x.driver.world) && n ∉ x.driver.ledger.items &&
      n ∉ x.driver.world.answers.map Prod.fst

theorem unusedBlock_unused (n : Nat) (before : x.mail.before = fun _ => [])
    (block : unusedBlock x n = true) : Unused exampleLists x n := by
  simp only [unusedBlock, Bool.and_eq_true, beq_iff_eq, decide_eq_true_eq] at block
  obtain ⟨⟨⟨⟨beside, making⟩, reads⟩, places⟩, answers⟩ := block
  constructor
  · intro q
    constructor
    · intro same
      have zero : n = 4 * listIndex q := same
      omega
    · intro same
      have one : n = 4 * listIndex q + 1 := same
      omega
  · intro pr member same
    exact making (List.mem_map.mpr ⟨pr, member, same⟩)
  · intro c pr member same
    exact reads ((readNodes_mem _ n).mpr ⟨c, List.mem_map.mpr ⟨pr, member, same⟩⟩)
  · exact places
  · intro p member
    have posted := List.mem_of_mem_drop member
    simp only [Mail.posted, before, List.nil_append, List.mem_filterMap, List.mem_reverse] at posted
    obtain ⟨⟨r, answer⟩, answered, sent⟩ := posted
    apply answers
    cases answer with
    | returned asked done => cases sent
    | replied via asked done =>
        simp only [Mail.sentTo] at sent
        split at sent
        · obtain rfl := Option.some.inj sent
          exact List.mem_map_of_mem answered
        · cases sent

def saneCheck (x : PostedDriver) : PostAction → Bool
  | .act (.submit r _) => unusedBlock x r
  | .act (.call _ e) => e.wrapper == 0 || unusedBlock x e.wrapper || x.driver.calls.all fun c =>
      match c with
      | .beginIo _ => false
      | _ => true
  | .act _ => true
  | .getMsg p => p != x.mail.ioPort

theorem saneCheck_sane (x : PostedDriver) (a : PostAction) (before : x.mail.before = fun _ => [])
    (checked : saneCheck x a = true) : Sane exampleLists x a := by
  cases a with
  | act a =>
      cases a with
      | submit r q => exact unusedBlock_unused r before checked
      | call i e =>
          intro r present allocated
          simp only [saneCheck, Bool.or_eq_true, beq_iff_eq, List.all_eq_true] at checked
          rcases checked with (zero | unused) | others
          · exact absurd zero allocated
          · exact unusedBlock_unused e.wrapper before unused
          · cases others _ (List.mem_of_getElem? present)
      | _ => trivial
  | getMsg p => simpa [saneCheck, Sane] using checked

/-- The wrapper goes back to the allocator, and the client finds its request in its port. -/
theorem lists_refined_aborted :
    ∃ y bound n', (postMachine ⟨0, 0, 0⟩).run onlineDriver abortedRead = some y ∧
      (∀ fuel, bound < fuel →
        nodeRun ⟨0, 0, 0⟩ exampleLists fuel onlineDriver ⟨onlineHeap, []⟩ abortedRead = some n') ∧
      y.mail.got 5 = 1 ∧ n'.owned = [] := by
  obtain ⟨y, ran, shape⟩ := Option.map_eq_some_iff.mp
    (show ((postMachine ⟨0, 0, 0⟩).run onlineDriver abortedRead).map
        (fun y => (y.mail.got 5, y.driver.making.map PendingRead.node,
          readNodes (nodesOf y.mail y.driver.world))) = some (1, [], []) by decide +kernel)
  obtain ⟨bound, n', runs, implements, _⟩ := lists_refined ⟨0, 0, 0⟩ onlineDriver y
    ⟨onlineHeap, []⟩ abortedRead onlineDriver_opened onlineHeap_implements
    ((postMachine ⟨0, 0, 0⟩).along_check_while (fun x => x.mail.before = fun _ => []) saneCheck _
      (fun s a _ held checked => saneCheck_sane s a held checked) (by
        intro s a t held stepped
        cases a with
        | act a =>
            obtain ⟨d, _, rfl⟩ := Option.map_eq_some_iff.mp stepped
            exact held
        | getMsg p =>
            obtain rfl := Option.some.inj stepped
            simp only [Mail.take]
            split <;> exact held) onlineDriver abortedRead rfl (by decide +kernel)) ran
  obtain ⟨got, wrappers⟩ := Prod.mk.inj shape
  obtain ⟨making, reads⟩ := Prod.mk.inj wrappers
  refine ⟨y, bound, n', ran, runs, got, ?_⟩
  have left := implements.owned
  rw [making, reads] at left
  exact left.eq_nil

end Pa6tEth

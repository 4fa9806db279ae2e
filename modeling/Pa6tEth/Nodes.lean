import Pa6tEth.Flush
import Mathlib.Data.List.Find

/-! The nodes of the lists under the driver's other programs: what `BeginIO` links in, what
`AbortIO`, `ProcessRX` and the command loop take out, and what `signal_event` answers. -/

namespace Pa6tEth

open Support World

namespace ExecHeap

/-- An access to the block at this address, or its `FreeVec`. -/
def names (n : Addr) : MemEvent → Bool
  | .touch x => x == n
  | .free x => x == n
  | .reply _ _ => false

def renew (m : ExecHeap) (n : Addr) : ExecHeap :=
  { m with log := m.log.filter fun event => !names n event }

/-- `AllocVecTags` of a `PendingRead`, and `pr->ioreq = ioreq`. -/
def newWrapper (m : ExecHeap) (pr : PendingRead) : ExecHeap :=
  { (m.renew pr.node).touch [pr.node] with
    ioreq := Function.update m.ioreq pr.node pr.ioreq }

def write (m : ExecHeap) (r : ReqId) (q : IOSana2Req) : ExecHeap :=
  { m.touch [r] with reqs := Function.update m.reqs r q }

/-- One turn of a loop that looks for a node. `AbortIO` reads the successor after the comparison and
`ProcessRX` before it, and no links change in between. -/
def searchTurn (hit : ExecHeap → Addr → Bool) (found : ExecHeap → Addr → ExecHeap) :
    ExecHeap × Addr → (ExecHeap × Addr) ⊕ (ExecHeap × Option Addr)
  | (m, n) =>
      let m := m.touch [n]
      match m.links.succ n with
      | none => .inr (m, none)
      | some next =>
          let m := m.touch [n]
          if hit m n then .inr (found m n, some n) else .inl (m, next)

section

variable (lists : ListName → Header Addr)

def addTail (m : ExecHeap) (q : ListName) (n : Addr) : ExecHeap :=
  let tail := (lists q).tail
  { m.touch (n :: tail :: (m.links.pred tail).toList) with
    links := m.links.addTail (lists q) n }

def getMsg (m : ExecHeap) (p : Addr) : Option (ExecHeap × Option Addr) :=
  (m.links.succ (lists (.port p)).head).map fun n =>
    let m := m.touch [n, (lists (.port p)).head]
    match m.links.succ n with
    | none => (m, none)
    | some _ => (m.remove n, some n)

def search (hit : ExecHeap → Addr → Bool) (found : ExecHeap → Addr → ExecHeap) (q : ListName)
    (fuel : Nat) (m : ExecHeap) : Option (ExecHeap × Option Addr) :=
  (m.links.succ (lists q).head).bind fun n =>
    forever (searchTurn hit found) fuel (m.touch [(lists q).head], n)

/-- The loop of `AbortIO` over one read list. -/
def abortRead (r : ReqId) (c : ReadClass) (fuel : Nat) (m : ExecHeap) :
    Option (ExecHeap × Option Addr) :=
  search lists (fun m n => m.ioreq n == r) (fun m n => (m.remove n).freeVec n) (.reads c) fuel m

/-- The first section of `AbortIO`. -/
def abortReads (r : ReqId) (fuel : Nat) (m : ExecHeap) : Option (ExecHeap × Option Addr) :=
  (abortRead lists r .ipv4 fuel m).bind fun done =>
    if done.2.isSome then some done
    else
      (abortRead lists r .arp fuel done.1).bind fun done =>
        if done.2.isSome then some done else abortRead lists r .other fuel done.1

/-- The loops of `AbortIO` over the event list and over the messages of the port. -/
def abortNode (r : ReqId) (q : ListName) (fuel : Nat) (m : ExecHeap) :
    Option (ExecHeap × Option Addr) :=
  search lists (fun _ n => n == r + mnNodeOffset) remove q fuel m

/-- The section of `ProcessRX`, with the request that it takes. -/
def takeReader (c : ReadClass) (fuel : Nat) (m : ExecHeap) : Option (ExecHeap × Option ReqId) :=
  (m.links.succ (lists (.reads c)).head).bind fun rhead =>
    let m := m.touch [rhead, (lists (.reads c)).head]
    match m.links.succ rhead with
    | some _ =>
        let m := m.touch [rhead]
        some ((m.remove rhead).freeVec rhead, some (m.ioreq rhead))
    | none =>
        (search lists (fun m n => (m.reqs (n - mnNodeOffset)).command == .readOrphan) remove .events
          fuel m).map fun done => (done.1, done.2.map fun n => n - mnNodeOffset)

def eventTurn (picked : IOSana2Req → Bool) (answer : IOSana2Req → IOSana2Req) :
    ExecHeap × Addr → (ExecHeap × Addr) ⊕ ExecHeap
  | (m, n) =>
      let m := m.touch [n]
      match m.links.succ n with
      | none => .inr m
      | some next =>
          let m := m.touch [n]
          let ev := n - mnNodeOffset
          if picked (m.reqs ev) then
            .inl (((m.remove n).write ev (answer (m.reqs ev))).replyMsg lists ev, next)
          else .inl (m, next)

/-- `signal_event`. -/
def signalEvent (mask : BitVec 32) (fuel : Nat) (m : ExecHeap) : Option ExecHeap :=
  walk lists (eventTurn lists (fun q => q.wireError &&& mask ≠ 0#32)
    fun q => { q with error := .ok, wireError := mask &&& q.wireError }) .events fuel m

theorem flushEventTurn_eq (picked : IOSana2Req → Bool) (error : IoError) :
    flushEventTurn lists picked error = eventTurn lists picked (flushed error) := rfl

end

end ExecHeap

/-- The unit task's port and the reply ports of the clients: the messages that were there at first,
and how many of each port's messages its client has taken. -/
structure Mail where
  ioPort : Addr
  replyPort : ReqId → Option Addr
  before : Addr → List ReqId
  got : Addr → Nat

namespace Mail

def sentTo (mail : Mail) (p : Addr) : ReqId × Answer → Option ReqId
  | (r, .replied _ _ _) => if mail.replyPort r = some p then some r else none
  | (_, .returned _ _) => none

def posted (mail : Mail) (answers : List (ReqId × Answer)) (p : Addr) : List ReqId :=
  mail.before p ++ answers.reverse.filterMap (mail.sentTo p)

def inbox (mail : Mail) (answers : List (ReqId × Answer)) (p : Addr) : List ReqId :=
  (mail.posted answers p).drop (mail.got p)

end Mail

def nodesOf (mail : Mail) (w : World) : ListName → List Addr
  | .reads c => (w.unit.readList c).map PendingRead.node
  | .events => w.unit.eventList
  | .port p => if p = mail.ioPort then w.unit.ioPort.getD [] else mail.inbox w.answers p

/-- A block that is not freed, stands in no list and waits in no wrapper. -/
structure Loose (lists : ListName → Header Addr) (m : ExecHeap) (nodes : ListName → List Addr)
    (n : Addr) : Prop where
  out : ¬ Linked lists nodes n
  live : .free n ∉ m.log
  unwrapped : ∀ w ∈ readNodes nodes, m.ioreq w ≠ n

/-- The heap has the lists of the world. `held` are the requests in the hands of calls and tasks,
and `making` the wrappers that are not linked in yet. -/
structure Agree (lists : ListName → Header Addr) (mail : Mail) (m : ExecHeap) (w : World)
    (held : ReqId → Prop) (making : List PendingRead) : Prop where
  formed : Formed lists m (nodesOf mail w)
  wrappers : ∀ c, ∀ pr ∈ w.unit.readList c, m.ioreq pr.node = pr.ioreq
  reqs : m.reqs = w.reqs
  ports : m.replyPort = mail.replyPort
  foreign : ∀ r, mail.replyPort r ≠ some mail.ioPort
  counted : ∀ p, mail.got p ≤ (mail.posted w.answers p).length
  loose : ∀ r, held r → Loose lists m (nodesOf mail w) r
  fresh : ∀ pr ∈ making, Loose lists m (nodesOf mail w) pr.node ∧ m.ioreq pr.node = pr.ioreq ∧
    ¬ held pr.node
  built : (making.map PendingRead.node).Nodup
  safe : NoUseAfterFree m.log

theorem nodesOf_reads (mail : Mail) (w : World) (c : ReadClass) (list : List PendingRead) :
    nodesOf mail { w with unit := w.unit.setReadList list c } =
      Function.update (nodesOf mail w) (.reads c) (list.map PendingRead.node) := by
  funext q
  cases q with
  | reads c' => cases c <;> cases c' <;> simp [nodesOf, PA6TEthUnit.setReadList, PA6TEthUnit.readList]
  | events => cases c <;> rfl
  | port p => cases c <;> rfl

theorem nodesOf_events (mail : Mail) (w : World) (list : List ReqId) :
    nodesOf mail { w with unit := { w.unit with eventList := list } } =
      Function.update (nodesOf mail w) .events list := by
  funext q
  cases q with
  | reads c => cases c <;> rfl
  | events => simp [nodesOf]
  | port p => rfl

theorem nodesOf_port (mail : Mail) (w : World) (list : List ReqId) :
    nodesOf mail { w with unit := { w.unit with ioPort := some list } } =
      Function.update (nodesOf mail w) (.port mail.ioPort) list := by
  funext q
  cases q with
  | reads c => cases c <;> rfl
  | events => rfl
  | port p =>
      by_cases here : p = mail.ioPort
      · subst here
        simp [nodesOf]
      · simp [nodesOf, here]

theorem nodesOf_congr (mail : Mail) (w v : World)
    (reads : ∀ c, v.unit.readList c = w.unit.readList c)
    (events : v.unit.eventList = w.unit.eventList) (port : v.unit.ioPort = w.unit.ioPort)
    (posted : ∀ p, mail.posted v.answers p = mail.posted w.answers p) :
    nodesOf mail v = nodesOf mail w := by
  funext q
  cases q with
  | reads c => simp only [nodesOf, reads]
  | events => exact events
  | port p => simp only [nodesOf, port, Mail.inbox, posted]

theorem posted_replied (mail : Mail) (answers : List (ReqId × Answer)) (r : ReqId) (via : Via)
    (asked done : IOSana2Req) (p : Addr) :
    mail.posted ((r, .replied via asked done) :: answers) p =
      mail.posted answers p ++ if mail.replyPort r = some p then [r] else [] := by
  simp only [Mail.posted, List.reverse_cons, List.filterMap_append, List.append_assoc]
  congr 2
  by_cases here : mail.replyPort r = some p
  · simp [Mail.sentTo, here]
  · simp [Mail.sentTo, here]

theorem nodesOf_replyMsg (mail : Mail) (w : World) (r : ReqId) (q : IOSana2Req) (via : Via)
    (foreign : mail.replyPort r ≠ some mail.ioPort)
    (counted : ∀ p, mail.got p ≤ (mail.posted w.answers p).length) :
    nodesOf mail (w.replyMsg r q via) = sendTo (mail.replyPort r) r (nodesOf mail w) := by
  have grown : ∀ p, mail.inbox (w.replyMsg r q via).answers p =
      mail.inbox w.answers p ++ if mail.replyPort r = some p then [r] else [] := by
    intro p
    simp only [Mail.inbox, replyMsg, posted_replied, List.drop_append_of_le_length (counted p)]
  funext name
  cases port : mail.replyPort r with
  | none =>
      cases name with
      | port p =>
          simp only [nodesOf, sendTo, grown, port, reduceCtorEq, if_false, List.append_nil]
          rfl
      | _ => rfl
  | some p =>
      have other : p ≠ mail.ioPort := fun same => foreign (port.trans (congrArg some same))
      cases name with
      | port p' =>
          by_cases here : p' = p
          · subst here
            simp only [nodesOf, sendTo, Function.update_self, grown, port, if_pos, if_neg other]
          · have apart : p ≠ p' := fun same => here same.symm
            simp only [sendTo, Function.update_of_ne (fun same => here (ListName.port.inj same)),
              nodesOf, grown, port, Option.some.injEq, apart, if_false, List.append_nil]
            rfl
      | reads c => simp [sendTo, nodesOf, replyMsg]
      | events => simp [sendTo, nodesOf, replyMsg]

section

variable {lists : ListName → Header Addr} {m m' : ExecHeap} {nodes nodes' : ListName → List Addr}

theorem loose_step (n : Addr) (loose : Loose lists m nodes n)
    (linked : Linked lists nodes' n → Linked lists nodes n)
    (frees : .free n ∈ m'.log → .free n ∈ m.log)
    (wrapped : ∀ w ∈ readNodes nodes', m'.ioreq w = n → ∃ v ∈ readNodes nodes, m.ioreq v = n) :
    Loose lists m' nodes' n where
  out := fun still => loose.out (linked still)
  live := fun freed => loose.live (frees freed)
  unwrapped := by
    intro w member same
    obtain ⟨v, old, named⟩ := wrapped w member same
    exact loose.unwrapped v old named

theorem readNodes_beside (q : ListName) (list : List Addr) (own : ∀ c, q ≠ .reads c) :
    readNodes (Function.update nodes q list) = readNodes nodes := by
  cases q with
  | reads c => exact absurd rfl (own c)
  | _ => simp [readNodes]

theorem linked_add (q : ListName) (n x : Addr)
    (linked : Linked lists (Function.update nodes q (nodes q ++ [n])) x) :
    Linked lists nodes x ∨ x = n := by
  obtain ⟨q', member⟩ := linked
  by_cases here : q' = q
  · subst here
    simp only [Function.update_self, Header.full, List.mem_cons, List.mem_append, List.not_mem_nil,
      or_false] at member
    rcases member with same | (old | new) | same
    · exact .inl ⟨q', by simp [Header.full, same]⟩
    · exact .inl ⟨q', by simp [Header.full, old]⟩
    · exact .inr new
    · exact .inl ⟨q', by simp [Header.full, same]⟩
  · rw [Function.update_of_ne here] at member
    exact .inl ⟨q', member⟩

theorem readNodes_add (c : ReadClass) (n : Addr) :
    (readNodes (Function.update nodes (.reads c) (nodes (.reads c) ++ [n]))).Perm
      (n :: readNodes nodes) := by
  rw [List.perm_iff_count]
  intro x
  cases c <;> simp [readNodes, List.count_cons, List.count_append] <;> omega

theorem tailEnd_linked (formed : Formed lists m nodes) (q : ListName) :
    ∀ x ∈ (lists q).tail :: (m.links.pred (lists q).tail).toList, Linked lists nodes x := by
  obtain ⟨last, here, before⟩ := chain_last _ _ _ _ (formed.arranged.chain q)
  intro x member
  rw [before] at member
  simp only [Option.toList_some, List.mem_cons, List.not_mem_nil, or_false] at member
  refine ⟨q, ?_⟩
  simp only [Header.full, List.mem_cons, List.mem_append, List.not_mem_nil, or_false] at here ⊢
  rcases member with rfl | rfl <;> tauto

theorem safe_addTail (formed : Formed lists m nodes) (q : ListName) (n : Addr)
    (live : .free n ∉ m.log) (safe : NoUseAfterFree m.log) :
    NoUseAfterFree (m.addTail lists q n).log := by
  apply ExecHeap.safe_touch m _ _ safe
  intro x member
  rcases List.mem_cons.mp member with rfl | ending
  · exact live
  · exact formed.live x (tailEnd_linked formed q x ending)

theorem formed_addTail (formed : Formed lists m nodes) (q : ListName) (n : Addr)
    (own : ∀ c, q ≠ .reads c) (loose : Loose lists m nodes n) :
    Formed lists (m.addTail lists q n) (Function.update nodes q (nodes q ++ [n])) where
  arranged := arranged_addTail lists m.links nodes q n formed.arranged loose.out
  live := by
    intro x linked
    rw [ExecHeap.addTail, ExecHeap.free_mem_touch]
    rcases linked_add q n x linked with old | rfl
    · exact formed.live x old
    · exact loose.live
  unlinked := by
    intro w member
    rw [readNodes_beside q _ own] at member
    obtain ⟨apart, live⟩ := formed.unlinked w member
    refine ⟨fun linked => ?_, ?_⟩
    · rcases linked_add q n _ linked with old | same
      · exact apart old
      · exact loose.unwrapped w member same
    · rw [ExecHeap.addTail, ExecHeap.free_mem_touch]
      exact live
  once := by
    rw [readNodes_beside q _ own]
    exact formed.once

theorem formed_addRead (formed : Formed lists m nodes) (c : ReadClass) (n : Addr)
    (loose : Loose lists m nodes n) (request : Loose lists m nodes (m.ioreq n))
    (apart : m.ioreq n ≠ n) :
    Formed lists (m.addTail lists (.reads c) n)
      (Function.update nodes (.reads c) (nodes (.reads c) ++ [n])) where
  arranged := arranged_addTail lists m.links nodes _ n formed.arranged loose.out
  live := by
    intro x linked
    rw [ExecHeap.addTail, ExecHeap.free_mem_touch]
    rcases linked_add _ n x linked with old | rfl
    · exact formed.live x old
    · exact loose.live
  unlinked := by
    intro w member
    rw [ExecHeap.addTail, ExecHeap.free_mem_touch]
    have out : ¬ Linked lists nodes (m.ioreq w) ∧ .free (m.ioreq w) ∉ m.log ∧ m.ioreq w ≠ n := by
      rcases List.mem_cons.mp ((readNodes_add c n).mem_iff.mp member) with rfl | old
      · exact ⟨request.out, request.live, apart⟩
      · obtain ⟨out, live⟩ := formed.unlinked w old
        exact ⟨out, live, loose.unwrapped w old⟩
    refine ⟨fun linked => ?_, out.2.1⟩
    rcases linked_add _ n _ linked with old | same
    · exact out.1 old
    · exact out.2.2 same
  once := by
    have added : (readNodes (Function.update nodes (.reads c) (nodes (.reads c) ++ [n]))).Perm
        (n :: readNodes nodes) := readNodes_add c n
    have moved := added.map m.ioreq
    refine moved.nodup_iff.mpr (List.nodup_cons.mpr ⟨?_, formed.once⟩)
    intro member
    obtain ⟨w, old, same⟩ := List.mem_map.mp member
    exact request.unwrapped w old same

theorem safe_sublist {log log' : List MemEvent} (sub : List.Sublist log' log)
    (safe : NoUseAfterFree log) : NoUseAfterFree log' := by
  induction sub with
  | slnil => exact safe
  | cons event _ ih =>
      apply ih
      cases event with
      | touch n => exact safe.2
      | free n => exact safe.2
      | reply r done => exact safe
  | cons_cons event sub ih =>
      cases event with
      | touch n => exact ⟨fun freed => safe.1 (sub.subset freed), ih safe.2⟩
      | free n => exact ⟨fun freed => safe.1 (sub.subset freed), ih safe.2⟩
      | reply r done => exact ih safe

theorem renewed (m : ExecHeap) (n : Addr) : .free n ∉ (m.renew n).log := by
  intro freed
  have named := (List.mem_filter.mp freed).2
  simp [ExecHeap.names] at named

end

section

variable {lists : ListName → Header Addr} {mail : Mail} {m : ExecHeap} {w : World}
  {held : ReqId → Prop} {making : List PendingRead}

theorem agree_fewer (agree : Agree lists mail m w held making) (held' : ReqId → Prop)
    (dropped making' : List PendingRead) (fewer : ∀ r, held' r → held r)
    (split : making.Perm (dropped ++ making')) : Agree lists mail m w held' making' :=
  { agree with
    loose := fun r still => agree.loose r (fewer r still)
    fresh := fun pr member =>
      have old := agree.fresh pr (split.mem_iff.mpr (List.mem_append_right dropped member))
      ⟨old.1, old.2.1, fun still => old.2.2 (fewer _ still)⟩
    built := by
      have both := (split.map PendingRead.node).nodup_iff.mp agree.built
      rw [List.map_append] at both
      exact (List.nodup_append.mp both).2.1 }

theorem agree_world (agree : Agree lists mail m w held making) (v : World)
    (reads : ∀ c, v.unit.readList c = w.unit.readList c)
    (events : v.unit.eventList = w.unit.eventList) (port : v.unit.ioPort = w.unit.ioPort)
    (reqs : v.reqs = w.reqs) (posted : ∀ p, mail.posted v.answers p = mail.posted w.answers p) :
    Agree lists mail m v held making := by
  have same := nodesOf_congr mail w v reads events port posted
  exact
    { agree with
      formed := same ▸ agree.formed
      wrappers := fun c pr member => agree.wrappers c pr (reads c ▸ member)
      reqs := agree.reqs.trans reqs.symm
      counted := fun p => posted p ▸ agree.counted p
      loose := fun r mine => same ▸ agree.loose r mine
      fresh := fun pr member => same ▸ agree.fresh pr member }

theorem agree_touch (agree : Agree lists mail m w held making) (touched : List Addr)
    (live : ∀ n ∈ touched, .free n ∉ m.log) : Agree lists mail (m.touch touched) w held making := by
  have kept : ∀ n, Loose lists m (nodesOf mail w) n →
      Loose lists (m.touch touched) (nodesOf mail w) n := fun n loose =>
    loose_step n loose id (ExecHeap.free_mem_touch m touched n).mp fun v member same =>
      ⟨v, member, same⟩
  exact
    { agree with
      formed := formed_touch agree.formed touched
      loose := fun r mine => kept r (agree.loose r mine)
      fresh := fun pr member =>
        have old := agree.fresh pr member
        ⟨kept _ old.1, old.2⟩
      safe := ExecHeap.safe_touch m touched live agree.safe }

theorem agree_write (agree : Agree lists mail m w held making) (r : ReqId) (q : IOSana2Req)
    (mine : held r) : Agree lists mail (m.write r q) (w.setReq r q) held making := by
  have touched := agree_touch agree [r] (by simpa using (agree.loose r mine).live)
  exact
    { touched with
      formed := formed_frame (m.write r q) touched.formed rfl rfl fun _ => id
      reqs := by
        simp only [ExecHeap.write, setReq, agree.reqs]
      loose := fun x mine => loose_step x (touched.loose x mine) id id fun v member same =>
        ⟨v, member, same⟩
      fresh := fun pr member =>
        have old := touched.fresh pr member
        ⟨loose_step _ old.1 id id fun v member same => ⟨v, member, same⟩, old.2⟩ }

theorem agree_take (agree : Agree lists mail m w held making) (mail' : Mail) (v : World)
    (q : ListName) (n : Addr) (front back : List Addr) (own : ∀ c, q ≠ .reads c)
    (placed : nodesOf mail w q = front ++ n :: back)
    (nodes : nodesOf mail' v = Function.update (nodesOf mail w) q (front ++ back))
    (reads : ∀ c, v.unit.readList c = w.unit.readList c) (reqs : v.reqs = w.reqs)
    (ports : mail'.ioPort = mail.ioPort ∧ mail'.replyPort = mail.replyPort)
    (counted : ∀ p, mail'.got p ≤ (mail'.posted v.answers p).length) :
    Agree lists mail' (m.remove n) v (fun r => r = n ∨ held r) making := by
  have there : n ∈ nodesOf mail w q := by simp [placed]
  have linked : Linked lists (nodesOf mail w) n := linked_mem q n there
  have left : ∀ x, Linked lists (nodesOf mail' v) x → Linked lists (nodesOf mail w) x ∧ x ≠ n := by
    intro x still
    rw [nodes] at still
    exact linked_removed lists m.links _ q n x front back agree.formed.arranged placed still
  have frees : ∀ x, .free x ∈ (m.remove n).log → .free x ∈ m.log := fun x =>
    (ExecHeap.free_mem_touch m _ x).mp
  have same : readNodes (nodesOf mail' v) = readNodes (nodesOf mail w) := by
    rw [nodes, readNodes_beside q _ own]
  have kept : ∀ x, Loose lists m (nodesOf mail w) x →
      Loose lists (m.remove n) (nodesOf mail' v) x := fun x loose =>
    loose_step x loose (fun still => (left x still).1) (frees x) fun v member named =>
      ⟨v, same ▸ member, named⟩
  have taken : Loose lists (m.remove n) (nodesOf mail' v) n := by
    refine ⟨fun still => (left n still).2 rfl, fun freed => ?_, fun v member named => ?_⟩
    · exact agree.formed.live n linked (frees n freed)
    · rw [same] at member
      exact (agree.formed.unlinked v member).1 (named.symm ▸ linked)
  exact
    { formed := nodes ▸ formed_remove agree.formed q n front back placed
      wrappers := fun c pr member => agree.wrappers c pr (reads c ▸ member)
      reqs := agree.reqs.trans reqs.symm
      ports := agree.ports.trans ports.2.symm
      foreign := fun r => ports.1 ▸ ports.2 ▸ agree.foreign r
      counted := counted
      loose := by
        rintro r (rfl | mine)
        · exact taken
        · exact kept r (agree.loose r mine)
      fresh := by
        intro pr member
        obtain ⟨loose, named, other⟩ := agree.fresh pr member
        refine ⟨kept _ loose, named, ?_⟩
        rintro (here | mine)
        · exact loose.out (here ▸ linked)
        · exact other mine
      built := agree.built
      safe := safe_remove agree.formed q n front back placed agree.safe }

theorem agree_takeRead (agree : Agree lists mail m w held making) (v : World) (c : ReadClass)
    (pr : PendingRead) (front back : List PendingRead)
    (placed : w.unit.readList c = front ++ pr :: back)
    (nodes : nodesOf mail v =
      Function.update (nodesOf mail w) (.reads c) ((front ++ back).map PendingRead.node))
    (own : v.unit.readList c = front ++ back)
    (others : ∀ c', c' ≠ c → v.unit.readList c' = w.unit.readList c') (reqs : v.reqs = w.reqs)
    (answers : v.answers = w.answers) :
    Agree lists mail ((m.remove pr.node).freeVec pr.node) v
      (fun r => r = pr.ioreq ∨ held r) making := by
  have wrapper : m.ioreq pr.node = pr.ioreq := agree.wrappers c pr (by simp [placed])
  have list : nodesOf mail w (.reads c) =
      front.map PendingRead.node ++ pr.node :: back.map PendingRead.node := by
    simp [nodesOf, placed]
  rw [List.map_append] at nodes
  have there : pr.node ∈ nodesOf mail w (.reads c) := by simp [list]
  have linked : Linked lists (nodesOf mail w) pr.node := linked_mem _ _ there
  have listed : pr.node ∈ readNodes (nodesOf mail w) := (readNodes_mem _ _).mpr ⟨c, there⟩
  obtain ⟨out, live⟩ := agree.formed.unlinked pr.node listed
  rw [wrapper] at out live
  have removed := formed_remove agree.formed (.reads c) pr.node _ _ list
  rw [← nodes] at removed
  have left : ∀ x, Linked lists (nodesOf mail v) x →
      Linked lists (nodesOf mail w) x ∧ x ≠ pr.node := by
    intro x still
    rw [nodes] at still
    exact linked_removed lists m.links _ _ _ x _ _ agree.formed.arranged list still
  have fewer : ∀ x ∈ readNodes (nodesOf mail v), x ∈ readNodes (nodesOf mail w) := by
    intro x member
    rw [nodes] at member
    apply (readNodes_shorter (nodesOf mail w) (.reads c) _ _).subset member
    rw [list]
    exact List.Sublist.append_left (List.sublist_cons_self _ _) _
  have gone : ∀ x ∈ readNodes (nodesOf mail v), x ≠ pr.node := by
    intro x member
    obtain ⟨c', here⟩ := (readNodes_mem _ x).mp member
    exact (left x (linked_mem _ x here)).2
  have freed := formed_free removed pr.node (fun still => (left _ still).2 rfl) (by
    intro x member named
    exact (agree.formed.unlinked x (fewer x member)).1 (named.symm ▸ linked))
  have frees : ∀ x, x ≠ pr.node → .free x ∈ ((m.remove pr.node).freeVec pr.node).log →
      .free x ∈ m.log := by
    intro x other member
    rcases List.mem_cons.mp member with same | old
    · exact absurd (MemEvent.free.inj same) other
    · exact (ExecHeap.free_mem_touch m _ x).mp old
  have kept : ∀ x, x ≠ pr.node → Loose lists m (nodesOf mail w) x →
      Loose lists ((m.remove pr.node).freeVec pr.node) (nodesOf mail v) x :=
    fun x other loose =>
      loose_step x loose (fun still => (left x still).1) (frees x other) fun y member named =>
        ⟨y, fewer y member, named⟩
  have apart : pr.ioreq ≠ pr.node := fun same => out (same ▸ linked)
  have taken : Loose lists ((m.remove pr.node).freeVec pr.node) (nodesOf mail v) pr.ioreq := by
    refine ⟨fun still => out (left _ still).1, fun freed => live (frees _ apart freed), ?_⟩
    intro x member named
    have one : x = pr.node := List.inj_on_of_nodup_map agree.formed.once (fewer x member) listed
      (named.trans wrapper.symm)
    exact gone x member one
  exact
    { formed := freed
      wrappers := by
        intro c' pr' member
        apply agree.wrappers c' pr'
        by_cases here : c' = c
        · subst here
          rw [own] at member
          rw [placed]
          exact (List.Sublist.append_left (List.sublist_cons_self _ _) _).subset member
        · rw [others c' here] at member
          exact member
      reqs := agree.reqs.trans reqs.symm
      ports := agree.ports
      foreign := agree.foreign
      counted := fun p => answers ▸ agree.counted p
      loose := by
        rintro r (rfl | mine)
        · exact taken
        · exact kept r (fun same => (agree.loose r mine).out (same ▸ linked)) (agree.loose r mine)
      fresh := by
        intro pr' member
        obtain ⟨loose, named, other⟩ := agree.fresh pr' member
        refine ⟨kept _ (fun same => loose.out (same ▸ linked)) loose, named, ?_⟩
        rintro (here | mine)
        · exact loose.unwrapped _ listed (wrapper.trans here.symm)
        · exact other mine
      built := agree.built
      safe := by
        have safe := safe_remove agree.formed _ _ _ _ list agree.safe
        refine ⟨fun freed => ?_, safe⟩
        exact agree.formed.live _ linked ((ExecHeap.free_mem_touch m _ _).mp freed) }

theorem loose_addTail (q : ListName) (n x : Addr) (nodes : ListName → List Addr)
    (loose : Loose lists m nodes x) (other : x ≠ n)
    (wrapped : ∀ v ∈ readNodes (Function.update nodes q (nodes q ++ [n])), m.ioreq v = x →
      ∃ u ∈ readNodes nodes, m.ioreq u = x) :
    Loose lists (m.addTail lists q n) (Function.update nodes q (nodes q ++ [n])) x := by
  have linked : Linked lists (Function.update nodes q (nodes q ++ [n])) x → Linked lists nodes x :=
    fun still => (linked_add q n x still).resolve_right other
  exact loose_step x loose linked (fun freed => (ExecHeap.free_mem_touch m _ x).mp freed) wrapped

theorem agree_addTail (agree : Agree lists mail m w held making) (v : World) (q : ListName)
    (n : Addr) (own : ∀ c, q ≠ .reads c) (mine : held n)
    (nodes : nodesOf mail v = Function.update (nodesOf mail w) q (nodesOf mail w q ++ [n]))
    (reads : ∀ c, v.unit.readList c = w.unit.readList c) (reqs : v.reqs = w.reqs)
    (answers : v.answers = w.answers) :
    Agree lists mail (m.addTail lists q n) v (fun r => held r ∧ r ≠ n) making := by
  have loose := agree.loose n mine
  have kept : ∀ x, x ≠ n → Loose lists m (nodesOf mail w) x →
      Loose lists (m.addTail lists q n) (nodesOf mail v) x := by
    intro x other loose
    rw [nodes]
    apply loose_addTail q n x _ loose other
    intro u member named
    rw [readNodes_beside q _ own] at member
    exact ⟨u, member, named⟩
  exact
    { formed := nodes ▸ formed_addTail agree.formed q n own loose
      wrappers := fun c pr member => agree.wrappers c pr (reads c ▸ member)
      reqs := agree.reqs.trans reqs.symm
      ports := agree.ports
      foreign := agree.foreign
      counted := fun p => answers ▸ agree.counted p
      loose := fun r mine => kept r mine.2 (agree.loose r mine.1)
      fresh := by
        intro pr member
        obtain ⟨loose, named, other⟩ := agree.fresh pr member
        have apart : pr.node ≠ n := fun same => other (same ▸ mine)
        exact ⟨kept _ apart loose, named, fun still => other still.1⟩
      built := agree.built
      safe := safe_addTail agree.formed q n loose.live agree.safe }

theorem agree_addRead (agree : Agree lists mail m w held making) (v : World) (c : ReadClass)
    (pr : PendingRead) (rest : List PendingRead) (built : making.Perm (pr :: rest))
    (mine : held pr.ioreq)
    (nodes : nodesOf mail v =
      Function.update (nodesOf mail w) (.reads c) (nodesOf mail w (.reads c) ++ [pr.node]))
    (own : v.unit.readList c = w.unit.readList c ++ [pr])
    (others : ∀ c', c' ≠ c → v.unit.readList c' = w.unit.readList c') (reqs : v.reqs = w.reqs)
    (answers : v.answers = w.answers) :
    Agree lists mail (m.addTail lists (.reads c) pr.node) v (fun r => held r ∧ r ≠ pr.ioreq)
      rest := by
  obtain ⟨loose, wrapper, unheld⟩ := agree.fresh pr (built.mem_iff.mpr List.mem_cons_self)
  have request := agree.loose pr.ioreq mine
  have apart : pr.ioreq ≠ pr.node := fun same => unheld (same ▸ mine)
  have kept : ∀ x, x ≠ pr.node → x ≠ pr.ioreq → Loose lists m (nodesOf mail w) x →
      Loose lists (m.addTail lists (.reads c) pr.node) (nodesOf mail v) x := by
    intro x other free loose
    rw [nodes]
    apply loose_addTail (.reads c) pr.node x _ loose other
    intro u member named
    rcases List.mem_cons.mp ((readNodes_add c pr.node).mem_iff.mp member) with rfl | old
    · exact absurd (named.symm.trans wrapper) free
    · exact ⟨u, old, named⟩
  have once := (built.map PendingRead.node).nodup_iff.mp agree.built
  obtain ⟨single, once⟩ := List.nodup_cons.mp once
  exact
    { formed := by
        rw [nodes]
        exact formed_addRead agree.formed c pr.node loose (wrapper.symm ▸ request)
          (wrapper.symm ▸ apart)
      wrappers := by
        intro c' pr' member
        by_cases here : c' = c
        · subst here
          rw [own] at member
          rcases List.mem_append.mp member with old | new
          · exact agree.wrappers c' pr' old
          · rw [List.mem_singleton.mp new]
            exact wrapper
        · rw [others c' here] at member
          exact agree.wrappers c' pr' member
      reqs := agree.reqs.trans reqs.symm
      ports := agree.ports
      foreign := agree.foreign
      counted := fun p => answers ▸ agree.counted p
      loose := by
        rintro r ⟨still, other⟩
        refine kept r ?_ other (agree.loose r still)
        rintro rfl
        exact unheld still
      fresh := by
        intro pr' member
        obtain ⟨loose', named, other⟩ := agree.fresh pr' (built.mem_iff.mpr
          (List.mem_cons_of_mem pr member))
        refine ⟨kept _ ?_ ?_ loose', named, fun still => other still.1⟩
        · intro same
          exact single (same ▸ List.mem_map_of_mem member)
        · rintro same
          exact other (same ▸ mine)
      built := once
      safe := safe_addTail agree.formed _ _ loose.live agree.safe }

theorem agree_reply (agree : Agree lists mail m w held making) (r : ReqId) (q : IOSana2Req)
    (via : Via) (mine : held r) :
    Agree lists mail ((m.write r q).replyMsg lists r) (w.replyMsg r q via)
      (fun x => held x ∧ x ≠ r) making := by
  have written := agree_write agree r q mine
  obtain ⟨out, live, unwrapped⟩ := written.loose r mine
  have nodes := nodesOf_replyMsg mail w r q via (agree.foreign r) agree.counted
  have before : nodesOf mail (w.setReq r q) = nodesOf mail w := rfl
  obtain ⟨⟨ioreq, ports, reqs⟩, frees, _⟩ := @replyMsg_frame lists (m.write r q) r
  have port : (m.write r q).replyPort r = mail.replyPort r := congrFun agree.ports r
  have kept : ∀ x, x ≠ r → Loose lists (m.write r q) (nodesOf mail w) x →
      Loose lists ((m.write r q).replyMsg lists r) (nodesOf mail (w.replyMsg r q via)) x := by
    intro x other loose
    rw [nodes]
    apply loose_step x loose _ (frees x).mp
    · intro u member named
      rw [readNodes_sendTo] at member
      rw [ioreq] at named
      exact ⟨u, member, named⟩
    · intro still
      exact (linked_sendTo lists _ r x _ still).resolve_right other
  exact
    { formed := by
        have formed := formed_reply written.formed r out live unwrapped
        rw [port, before, ← nodes] at formed
        exact formed
      wrappers := by
        intro c pr member
        rw [ioreq]
        exact written.wrappers c pr member
      reqs := by
        rw [reqs]
        exact written.reqs
      ports := by
        rw [ports]
        exact agree.ports
      foreign := agree.foreign
      counted := by
        intro p
        have grown := posted_replied mail w.answers r via (w.asked r) q p
        simp only [replyMsg, grown, List.length_append]
        exact Nat.le_add_right_of_le (agree.counted p)
      loose := fun x still => kept x still.2 (written.loose x still.1)
      fresh := by
        intro pr member
        obtain ⟨loose, named, other⟩ := written.fresh pr member
        refine ⟨kept _ (fun same => other (same ▸ mine)) loose, ?_, fun still => other still.1⟩
        rw [ioreq]
        exact named
      built := agree.built
      safe := safe_reply written.formed r live written.safe }

theorem agree_newWrapper (agree : Agree lists mail m w held making) (pr : PendingRead)
    (out : ¬ Linked lists (nodesOf mail w) pr.node)
    (unwrapped : ∀ v ∈ readNodes (nodesOf mail w), m.ioreq v ≠ pr.node)
    (unused : ∀ pr' ∈ making, pr'.node ≠ pr.node) (unheld : ¬ held pr.node) :
    Agree lists mail (m.newWrapper pr) w held (pr :: making) := by
  have frees : ∀ x, .free x ∈ (m.newWrapper pr).log → .free x ∈ m.log := by
    intro x freed
    exact List.mem_of_mem_filter ((ExecHeap.free_mem_touch (m.renew pr.node) [pr.node] x).mp freed)
  have named : ∀ v, Linked lists (nodesOf mail w) v → (m.newWrapper pr).ioreq v = m.ioreq v := by
    intro v linked
    apply Function.update_of_ne
    rintro rfl
    exact out linked
  have listed : ∀ v ∈ readNodes (nodesOf mail w), Linked lists (nodesOf mail w) v := by
    intro v member
    obtain ⟨c, here⟩ := (readNodes_mem _ v).mp member
    exact linked_mem _ v here
  have kept : ∀ x, Loose lists m (nodesOf mail w) x →
      Loose lists (m.newWrapper pr) (nodesOf mail w) x := fun x loose =>
    loose_step x loose id (frees x) fun v member same =>
      ⟨v, member, (named v (listed v member)).symm.trans same⟩
  have made : Loose lists (m.newWrapper pr) (nodesOf mail w) pr.node := by
    refine ⟨out, fun freed => ?_, fun v member same => ?_⟩
    · exact renewed m pr.node ((ExecHeap.free_mem_touch (m.renew pr.node) [pr.node] _).mp freed)
    · exact unwrapped v member ((named v (listed v member)).symm.trans same)
  exact
    { formed :=
        { arranged := agree.formed.arranged
          live := fun n linked freed => agree.formed.live n linked (frees n freed)
          unlinked := by
            intro v member
            rw [named v (listed v member)]
            obtain ⟨apart, live⟩ := agree.formed.unlinked v member
            exact ⟨apart, fun freed => live (frees _ freed)⟩
          once := by
            rw [List.map_congr_left fun v member => named v (listed v member)]
            exact agree.formed.once }
      wrappers := by
        intro c pr' member
        rw [named _ (listed _ ((readNodes_mem _ _).mpr ⟨c, List.mem_map_of_mem member⟩))]
        exact agree.wrappers c pr' member
      reqs := agree.reqs
      ports := agree.ports
      foreign := agree.foreign
      counted := agree.counted
      loose := fun r mine => kept r (agree.loose r mine)
      fresh := by
        intro pr' member
        rcases List.mem_cons.mp member with rfl | old
        · exact ⟨made, Function.update_self _ _ _, unheld⟩
        · obtain ⟨loose, wrapper, other⟩ := agree.fresh pr' old
          refine ⟨kept _ loose, ?_, other⟩
          exact (Function.update_of_ne (unused pr' old) _ _).trans wrapper
      built := by
        apply List.nodup_cons.mpr
        refine ⟨fun member => ?_, agree.built⟩
        obtain ⟨pr', old, same⟩ := List.mem_map.mp member
        exact unused pr' old same
      safe := by
        apply ExecHeap.safe_touch
        · intro n member
          rw [List.mem_singleton.mp member]
          exact renewed m pr.node
        · exact safe_sublist List.filter_sublist agree.safe }

theorem agree_submit (agree : Agree lists mail m w held making) (v : World) (r : ReqId)
    (q : IOSana2Req) (out : ¬ Linked lists (nodesOf mail w) r)
    (unwrapped : ∀ u ∈ readNodes (nodesOf mail w), m.ioreq u ≠ r)
    (unused : ∀ pr ∈ making, pr.node ≠ r) (nodes : nodesOf mail v = nodesOf mail w)
    (reads : ∀ c, v.unit.readList c = w.unit.readList c)
    (reqs : v.reqs = Function.update w.reqs r q) (answers : v.answers = w.answers) :
    Agree lists mail ((m.renew r).write r q) v (fun x => x = r ∨ held x) making := by
  have frees : ∀ x, .free x ∈ ((m.renew r).write r q).log → .free x ∈ m.log := by
    intro x freed
    exact List.mem_of_mem_filter ((ExecHeap.free_mem_touch (m.renew r) [r] x).mp freed)
  have kept : ∀ x, Loose lists m (nodesOf mail w) x →
      Loose lists ((m.renew r).write r q) (nodesOf mail v) x := fun x loose =>
    loose_step x loose (fun still => nodes ▸ still) (frees x) fun u member same =>
      ⟨u, nodes ▸ member, same⟩
  exact
    { formed := by
        rw [nodes]
        exact formed_frame ((m.renew r).write r q) agree.formed rfl rfl frees
      wrappers := fun c pr member => agree.wrappers c pr (reads c ▸ member)
      reqs := by
        rw [reqs, ← agree.reqs]
        rfl
      ports := agree.ports
      foreign := agree.foreign
      counted := fun p => answers ▸ agree.counted p
      loose := by
        rintro x (rfl | mine)
        · refine ⟨fun still => out (nodes ▸ still), fun freed => ?_, fun u member same => ?_⟩
          · exact renewed m x ((ExecHeap.free_mem_touch (m.renew x) [x] _).mp freed)
          · exact unwrapped u (nodes ▸ member) same
        · exact kept x (agree.loose x mine)
      fresh := by
        intro pr member
        obtain ⟨loose, named, other⟩ := agree.fresh pr member
        refine ⟨kept _ loose, named, ?_⟩
        rintro (same | mine)
        · exact unused pr member same
        · exact other mine
      built := agree.built
      safe := by
        apply ExecHeap.safe_touch
        · intro n member
          rw [List.mem_singleton.mp member]
          exact renewed m r
        · exact safe_sublist List.filter_sublist agree.safe }

theorem agree_look (agree : Agree lists mail m w held making) (n : Addr)
    (linked : Linked lists (nodesOf mail w) n) : Agree lists mail (m.touch [n]) w held making :=
  agree_touch agree [n] (by simpa using agree.formed.live n linked)

theorem linked_head (q : ListName) (nodes : ListName → List Addr) :
    Linked lists nodes (lists q).head := ⟨q, List.mem_cons_self⟩

theorem linked_tail (q : ListName) (nodes : ListName → List Addr) :
    Linked lists nodes (lists q).tail := ⟨q, by simp [Header.full]⟩

theorem agree_next (agree : Agree lists mail m w held making) (q : ListName) (n : Addr)
    (front back : List Addr) (placed : nodesOf mail w q = front ++ n :: back) :
    m.links.succ n = some (firstOr back (lists q).tail) := by
  have chain := agree.formed.arranged.chain q
  rw [placed] at chain
  exact chain_first _ _ _ _ ((chain_append _ _ _ _ front back).mp chain).2

/-- A loop that looks for a node deals with the first one that it is looking for, and leaves a list
without one as it is. -/
theorem search_agrees (agree : Agree lists mail m w held making) (q : ListName)
    (hit : ExecHeap → Addr → Bool) (found : ExecHeap → Addr → ExecHeap) (picked : Addr → Bool)
    (same : ∀ s : ExecHeap, s.ioreq = m.ioreq → s.reqs = w.reqs → ∀ n, hit s n = picked n) :
    ∃ m', Agree lists mail m' w held making ∧ m'.frees = m.frees ∧ m'.ioreq = m.ioreq ∧
      ∀ fuel, (nodesOf mail w q).length < fuel →
        ExecHeap.search lists hit found q fuel m =
          some (match (nodesOf mail w q).find? picked with
            | some n => (found m' n, some n)
            | none => (m', none)) := by
  have first := chain_first _ _ _ _ (agree.formed.arranged.chain q)
  have looks : ∀ (s : ExecHeap) (n : Addr), Agree lists mail s w held making →
      s.frees = m.frees ∧ s.ioreq = m.ioreq → Linked lists (nodesOf mail w) n →
      Agree lists mail (s.touch [n]) w held making ∧
        (s.touch [n]).frees = m.frees ∧ (s.touch [n]).ioreq = m.ioreq := by
    intro s n agree kept linked
    exact ⟨agree_look agree n linked, (ExecHeap.touch_log s [n]).2.trans kept.1, kept.2⟩
  obtain ⟨done, finishes, m', agree', frees, ioreq, right⟩ := search_rule
    (fun s : ExecHeap => s.links) (lists q).head (lists q).tail (ExecHeap.searchTurn hit found) picked
    (fun s visited rest => visited ++ rest = nodesOf mail w q ∧
      (∀ x ∈ visited, picked x = false) ∧ Agree lists mail s w held making ∧
      s.frees = m.frees ∧ s.ioreq = m.ioreq)
    (fun done => ∃ m', Agree lists mail m' w held making ∧ m'.frees = m.frees ∧
      m'.ioreq = m.ioreq ∧ done = match (nodesOf mail w q).find? picked with
        | some n => (found m' n, some n)
        | none => (m', none))
    (by
      rintro s visited rest ⟨all, _, agree, _⟩
      exact ⟨visited, all ▸ agree.formed.arranged.chain q⟩)
    (by
      rintro s visited n rest ⟨all, before, agree, kept⟩ choice next
      have linked : Linked lists (nodesOf mail w) n := linked_mem q n (by simp [← all])
      obtain ⟨one, kept'⟩ := looks s n agree kept linked
      obtain ⟨two, kept''⟩ := looks _ n one kept' linked
      refine ⟨(s.touch [n]).touch [n], ?_, by simpa using all, ?_, two, kept''⟩
      · have succ : (s.touch [n]).links.succ n = some (firstOr rest (lists q).tail) := next
        simp only [ExecHeap.searchTurn, succ, same _ kept''.2 two.reqs, choice, Bool.false_eq_true,
          if_false]
      · intro x member
        rcases List.mem_append.mp member with old | new
        · exact before x old
        · exact (List.mem_singleton.mp new).symm ▸ choice)
    (by
      rintro s visited n rest ⟨all, before, agree, kept⟩ choice next
      have linked : Linked lists (nodesOf mail w) n := linked_mem q n (by simp [← all])
      obtain ⟨one, kept'⟩ := looks s n agree kept linked
      obtain ⟨two, kept''⟩ := looks _ n one kept' linked
      have place : (nodesOf mail w q).find? picked = some n := by
        apply List.find?_eq_some_iff_append.mpr
        exact ⟨choice, visited, rest, all.symm, fun x member => by simp [before x member]⟩
      refine ⟨_, ?_, (s.touch [n]).touch [n], two, kept''.1, kept''.2, rfl⟩
      have succ : (s.touch [n]).links.succ n = some (firstOr rest (lists q).tail) := next
      simp only [ExecHeap.searchTurn, succ, same _ kept''.2 two.reqs, choice, if_true, place])
    (by
      rintro s visited ⟨all, before, agree, kept⟩
      rw [List.append_nil] at all
      subst all
      obtain ⟨one, kept'⟩ := looks s (lists q).tail agree kept (linked_tail q _)
      have missing : (nodesOf mail w q).find? picked = none :=
        List.find?_eq_none.mpr fun x member => by simp [before x member]
      refine ⟨_, ?_, s.touch [(lists q).tail], one, kept'.1, kept'.2, rfl⟩
      have stop : (s.touch [(lists q).tail]).links.succ (lists q).tail = none :=
        agree.formed.arranged.stop q
      simp only [ExecHeap.searchTurn, stop, missing])
    (m.touch [(lists q).head]) [] (nodesOf mail w q)
    ⟨rfl, by simp, looks m _ agree ⟨rfl, rfl⟩ (linked_head q _)⟩
  refine ⟨m', agree', frees, ioreq, fun fuel enough => ?_⟩
  rw [ExecHeap.search, first, Option.bind_some, ← right]
  exact finishes fuel enough

theorem agree_dropRead (agree : Agree lists mail m w held making) (c : ReadClass) (pr : PendingRead)
    (front back : List PendingRead) (placed : w.unit.readList c = front ++ pr :: back) :
    Agree lists mail ((m.remove pr.node).freeVec pr.node)
      { w with unit := w.unit.setReadList (front ++ back) c }
      (fun r => r = pr.ioreq ∨ held r) making := by
  apply agree_takeRead agree _ c pr front back placed (nodesOf_reads mail w c _)
  · exact (PA6TEthUnit.readList_setReadList _ _ c c).trans (if_pos rfl)
  · intro c' other
    exact (PA6TEthUnit.readList_setReadList _ _ c c').trans (if_neg other)
  · rfl
  · rfl

theorem frees_remove (m : ExecHeap) (n : Addr) : (m.remove n).frees = m.frees :=
  (ExecHeap.touch_log m _).2

theorem frees_freeVec (m : ExecHeap) (n : Addr) : (m.freeVec n).frees = m.frees ++ [n] := by
  simp [ExecHeap.frees, ExecHeap.freeVec, ExecHeap.freeOf]

theorem frees_reply (m : ExecHeap) (r : ReqId) (q : IOSana2Req) :
    ((m.write r q).replyMsg lists r).frees = m.frees :=
  (@replyMsg_frame lists (m.write r q) r).2.2.2.trans (ExecHeap.touch_log m [r]).2

theorem abortRead_agrees (agree : Agree lists mail m w held making) (r : ReqId) (c : ReadClass) :
    ∃ m' found, (∀ fuel, longest (nodesOf mail w) < fuel →
        ExecHeap.abortRead lists r c fuel m = some (m', found)) ∧
      match (w.unit.readList c).find? (fun pr => pr.ioreq == r) with
      | some pr => found = some pr.node ∧ m'.frees = m.frees ++ [pr.node] ∧
          Agree lists mail m'
            { w with
              unit := w.unit.setReadList ((w.unit.readList c).eraseP fun pr => pr.ioreq == r) c }
            (fun x => x = r ∨ held x) making
      | none => found = none ∧ m'.frees = m.frees ∧ Agree lists mail m' w held making := by
  obtain ⟨m', agree', frees, ioreq, ends⟩ := search_agrees agree (.reads c)
    (fun m n => m.ioreq n == r) (fun m n => (m.remove n).freeVec n) (fun n => m.ioreq n == r)
    fun s same _ n => by rw [same]
  have bound : ∀ fuel, longest (nodesOf mail w) < fuel → (nodesOf mail w (.reads c)).length < fuel := by
    intro fuel enough
    simp only [longest, Nat.max_lt] at enough
    cases c
    · exact enough.1.1
    · exact enough.1.2
    · exact enough.2.1
  have nodes : (nodesOf mail w (.reads c)).find? (fun n => m.ioreq n == r) =
      ((w.unit.readList c).find? fun pr => pr.ioreq == r).map PendingRead.node := by
    rw [nodesOf, List.find?_map]
    congr 1
    apply List.find?_congr
    intro pr member
    simp only [Function.comp_apply, agree.wrappers c pr member]
  rw [nodes] at ends
  refine ⟨_, _, fun fuel enough => ends fuel (bound fuel enough), ?_⟩
  cases found : (w.unit.readList c).find? fun pr => pr.ioreq == r with
  | none => exact ⟨rfl, frees, agree'⟩
  | some pr =>
      obtain ⟨own, front, back, queue, before⟩ := List.find?_eq_some_iff_append.mp found
      have own : pr.ioreq = r := by simpa using own
      have erased : (w.unit.readList c).eraseP (fun pr => pr.ioreq == r) = front ++ back := by
        rw [queue, List.eraseP_append_right _ fun x member => by simpa using before x member]
        simp [own]
      refine ⟨rfl, ?_, ?_⟩
      · exact (frees_freeVec _ _).trans (congrArg (· ++ [pr.node]) ((frees_remove m' _).trans frees))
      · rw [erased, ← own]
        exact agree_dropRead agree' c pr front back queue

theorem abortReads_agrees (agree : Agree lists mail m w held making) (r : ReqId) :
    ∃ m' found, (∀ fuel, longest (nodesOf mail w) < fuel →
        ExecHeap.abortReads lists r fuel m = some (m', found)) ∧
      match findRead w.unit r with
      | some (c, pr) => found = some pr.node ∧ m'.frees = m.frees ++ [pr.node] ∧
          Agree lists mail m'
            { w with
              unit := w.unit.setReadList ((w.unit.readList c).eraseP fun pr => pr.ioreq == r) c }
            (fun x => x = r ∨ held x) making
      | none => found = none ∧ m'.frees = m.frees ∧ Agree lists mail m' w held making := by
  obtain ⟨m₁, found₁, ends₁, one⟩ := abortRead_agrees agree r .ipv4
  cases ipv4 : w.unit.readListIpv4.find? fun pr => pr.ioreq == r with
  | some pr =>
      simp only [PA6TEthUnit.readList, ipv4] at one
      refine ⟨m₁, found₁, fun fuel enough => ?_, ?_⟩
      · rw [ExecHeap.abortReads, ends₁ fuel enough, Option.bind_some, one.1]
        rfl
      · simp only [findRead, ipv4]
        exact one
  | none =>
      simp only [PA6TEthUnit.readList, ipv4] at one
      obtain ⟨rfl, frees₁, agree₁⟩ := one
      obtain ⟨m₂, found₂, ends₂, two⟩ := abortRead_agrees agree₁ r .arp
      cases arp : w.unit.readListArp.find? fun pr => pr.ioreq == r with
      | some pr =>
          simp only [PA6TEthUnit.readList, arp] at two
          refine ⟨m₂, found₂, fun fuel enough => ?_, ?_⟩
          · rw [ExecHeap.abortReads, ends₁ fuel enough, Option.bind_some]
            simp only [Option.isSome_none, Bool.false_eq_true, if_false, ends₂ fuel enough,
              Option.bind_some, two.1, Option.isSome_some, if_true]
          · simp only [findRead, ipv4, arp]
            exact ⟨two.1, frees₁ ▸ two.2.1, two.2.2⟩
      | none =>
          simp only [PA6TEthUnit.readList, arp] at two
          obtain ⟨rfl, frees₂, agree₂⟩ := two
          obtain ⟨m₃, found₃, ends₃, three⟩ := abortRead_agrees agree₂ r .other
          refine ⟨m₃, found₃, fun fuel enough => ?_, ?_⟩
          · rw [ExecHeap.abortReads, ends₁ fuel enough, Option.bind_some]
            simp only [Option.isSome_none, Bool.false_eq_true, if_false, ends₂ fuel enough,
              Option.bind_some, ends₃ fuel enough]
          · rw [frees₂, frees₁] at three
            cases other : w.unit.readListOther.find? fun pr => pr.ioreq == r with
            | some pr =>
                simp only [PA6TEthUnit.readList, other] at three
                simp only [findRead, ipv4, arp, other, Option.map_some]
                exact three
            | none =>
                simp only [PA6TEthUnit.readList, other] at three
                simp only [findRead, ipv4, arp, other, Option.map_none]
                exact three

theorem agree_dropEvent (agree : Agree lists mail m w held making) (r : ReqId)
    (front back : List ReqId) (placed : w.unit.eventList = front ++ r :: back) :
    Agree lists mail (m.remove r) { w with unit := { w.unit with eventList := front ++ back } }
      (fun x => x = r ∨ held x) making :=
  agree_take agree mail _ .events r front back (fun _ => ListName.noConfusion) placed
    (nodesOf_events mail w (front ++ back)) (fun c => by cases c <;> rfl) rfl ⟨rfl, rfl⟩ agree.counted

theorem agree_dropMsg (agree : Agree lists mail m w held making) (r : ReqId)
    (front back : List ReqId) (placed : w.unit.ioPort = some (front ++ r :: back)) :
    Agree lists mail (m.remove r) { w with unit := { w.unit with ioPort := some (front ++ back) } }
      (fun x => x = r ∨ held x) making := by
  have queue : nodesOf mail w (.port mail.ioPort) = front ++ r :: back := by simp [nodesOf, placed]
  exact agree_take agree mail _ (.port mail.ioPort) r front back (fun _ => ListName.noConfusion) queue
    (nodesOf_port mail w (front ++ back)) (fun c => by cases c <;> rfl) rfl ⟨rfl, rfl⟩ agree.counted

theorem abortNode_agrees (agree : Agree lists mail m w held making) (r : ReqId) (q : ListName)
    (list : List ReqId) (queue : nodesOf mail w q = list) :
    ∃ m' found, (∀ fuel, list.length < fuel →
        ExecHeap.abortNode lists r q fuel m = some (m', found)) ∧ m'.frees = m.frees ∧
      if r ∈ list then
        found = some r ∧ ∃ s, m' = s.remove r ∧ Agree lists mail s w held making
      else found = none ∧ Agree lists mail m' w held making := by
  obtain ⟨s, agree', frees, _, ends⟩ := search_agrees agree q (fun _ n => n == r + mnNodeOffset)
    ExecHeap.remove (fun n => n == r) fun _ _ _ _ => rfl
  rw [queue] at ends
  by_cases member : r ∈ list
  · have found : list.find? (fun n => n == r) = some r := by
      obtain ⟨front, back, before, placed, _⟩ := List.exists_erase_eq member
      apply List.find?_eq_some_iff_append.mpr
      refine ⟨beq_self_eq_true r, front, back, placed, fun x inside => ?_⟩
      have other : x ≠ r := fun same => before (same ▸ inside)
      simpa using other
    rw [found] at ends
    exact ⟨s.remove r, some r, ends, (frees_remove s r).trans frees, by
      rw [if_pos member]
      exact ⟨rfl, s, rfl, agree'⟩⟩
  · have missing : list.find? (fun n => n == r) = none := by
      apply List.find?_eq_none.mpr
      intro x inside
      have other : x ≠ r := fun same => member (same ▸ inside)
      simpa using other
    rw [missing] at ends
    exact ⟨s, none, ends, frees, by
      rw [if_neg member]
      exact ⟨rfl, agree'⟩⟩

theorem abortEvents_agrees (agree : Agree lists mail m w held making) (r : ReqId) :
    ∃ m' found, (∀ fuel, w.unit.eventList.length < fuel →
        ExecHeap.abortNode lists r .events fuel m = some (m', found)) ∧ m'.frees = m.frees ∧
      if r ∈ w.unit.eventList then
        found = some r ∧ Agree lists mail m'
          { w with unit := { w.unit with eventList := w.unit.eventList.erase r } }
          (fun x => x = r ∨ held x) making
      else found = none ∧ Agree lists mail m' w held making := by
  obtain ⟨m', found, ends, frees, done⟩ := abortNode_agrees agree r .events
    w.unit.eventList rfl
  refine ⟨m', found, ends, frees, ?_⟩
  by_cases member : r ∈ w.unit.eventList
  · rw [if_pos member] at done ⊢
    obtain ⟨named, s, rfl, agree'⟩ := done
    obtain ⟨front, back, _, placed, erased⟩ := List.exists_erase_eq member
    rw [erased]
    exact ⟨named, agree_dropEvent agree' r front back placed⟩
  · rw [if_neg member] at done ⊢
    exact done

theorem abortPort_agrees (agree : Agree lists mail m w held making) (r : ReqId)
    (port : List ReqId) (here : w.unit.ioPort = some port) :
    ∃ m' found, (∀ fuel, port.length < fuel →
        ExecHeap.abortNode lists r (.port mail.ioPort) fuel m = some (m', found)) ∧
      m'.frees = m.frees ∧
      if r ∈ port then
        found = some r ∧ Agree lists mail m'
          { w with unit := { w.unit with ioPort := some (port.erase r) } }
          (fun x => x = r ∨ held x) making
      else found = none ∧ Agree lists mail m' w held making := by
  have queue : nodesOf mail w (.port mail.ioPort) = port := by simp [nodesOf, here]
  obtain ⟨m', found, ends, frees, done⟩ := abortNode_agrees agree r (.port mail.ioPort) port queue
  refine ⟨m', found, ends, frees, ?_⟩
  by_cases member : r ∈ port
  · rw [if_pos member] at done ⊢
    obtain ⟨named, s, rfl, agree'⟩ := done
    obtain ⟨front, back, _, placed, erased⟩ := List.exists_erase_eq member
    rw [erased]
    exact ⟨named, agree_dropMsg agree' r front back (here.trans (congrArg some placed))⟩
  · rw [if_neg member] at done ⊢
    exact done

theorem agree_first (agree : Agree lists mail m w held making) (q : ListName) :
    m.links.succ (lists q).head = some (firstOr (nodesOf mail w q) (lists q).tail) ∧
      Agree lists mail
        (m.touch [firstOr (nodesOf mail w q) (lists q).tail, (lists q).head]) w held making := by
  refine ⟨chain_first _ _ _ _ (agree.formed.arranged.chain q), agree_touch agree _ ?_⟩
  intro n member
  have there := firstOr_mem (nodesOf mail w q) (lists q).tail
  apply agree.formed.live
  refine ⟨q, ?_⟩
  simp only [List.mem_cons, List.not_mem_nil, or_false] at member
  rcases member with rfl | rfl
  · exact List.mem_cons_of_mem _ there
  · exact List.mem_cons_self

theorem getMsg_agrees (agree : Agree lists mail m w held making) (p : Addr) :
    ∃ s, Agree lists mail s w held making ∧ s.frees = m.frees ∧
      m.getMsg lists p = some (match nodesOf mail w (.port p) with
        | [] => (s, none)
        | n :: _ => (s.remove n, some n)) := by
  obtain ⟨first, looked⟩ := agree_first agree (.port p)
  refine ⟨_, looked, (ExecHeap.touch_log m _).2, ?_⟩
  rw [ExecHeap.getMsg, first, Option.map_some]
  cases queue : nodesOf mail w (.port p) with
  | nil =>
      rw [queue] at looked
      have stop : m.links.succ (lists (.port p)).tail = none := agree.formed.arranged.stop _
      simp only [firstOr, List.head?_nil, Option.getD_none]
      rw [show (m.touch [(lists (.port p)).tail, (lists (.port p)).head]).links.succ
        (lists (.port p)).tail = none from stop]
  | cons n rest =>
      have next := agree_next agree (.port p) n [] rest queue
      simp only [firstOr, List.head?_cons, Option.getD_some]
      rw [show (m.touch [n, (lists (.port p)).head]).links.succ n =
        some (firstOr rest (lists (.port p)).tail) from next]

theorem takeReader_agrees (agree : Agree lists mail m w held making) (etherType : BitVec 16) :
    ∃ m' found, (∀ fuel, longest (nodesOf mail w) < fuel →
        ExecHeap.takeReader lists (readClass etherType) fuel m = some (m', found)) ∧
      match takeReader w.reqs w.unit etherType with
      | .read pr rest => found = some pr.ioreq ∧ m'.frees = m.frees ++ [pr.node] ∧
          Agree lists mail m' { w with unit := w.unit.setReadList rest (readClass etherType) }
            (fun x => x = pr.ioreq ∨ held x) making
      | .orphan r rest => found = some r ∧ m'.frees = m.frees ∧
          Agree lists mail m' { w with unit := { w.unit with eventList := rest } }
            (fun x => x = r ∨ held x) making
      | .nobody => found = none ∧ m'.frees = m.frees ∧ Agree lists mail m' w held making := by
  obtain ⟨first, looked⟩ := agree_first agree (.reads (readClass etherType))
  cases queue : w.unit.readList (readClass etherType) with
  | cons pr rest =>
      have nodes : nodesOf mail w (.reads (readClass etherType)) =
          pr.node :: rest.map PendingRead.node := by simp [nodesOf, queue]
      have next := agree_next agree _ pr.node [] _ nodes
      rw [nodes] at first looked
      have again := agree_look looked pr.node
        (linked_mem (.reads (readClass etherType)) pr.node (by simp [nodes]))
      have dropped := agree_dropRead again (readClass etherType) pr [] rest queue
      have named : m.ioreq pr.node = pr.ioreq :=
        agree.wrappers (readClass etherType) pr (by simp [queue])
      have found : ∀ fuel, ExecHeap.takeReader lists (readClass etherType) fuel m =
          some (((((m.touch [pr.node, (lists (.reads (readClass etherType))).head]).touch
            [pr.node]).remove pr.node).freeVec pr.node), some pr.ioreq) := by
        intro fuel
        rw [ExecHeap.takeReader, first, Option.bind_some]
        simp only [firstOr, List.head?_cons, Option.getD_some]
        rw [show (m.touch [pr.node, (lists (.reads (readClass etherType))).head]).links.succ
          pr.node = some _ from next]
        simp only [ExecHeap.touch, named]
      refine ⟨_, _, fun fuel _ => found fuel, ?_⟩
      · simp only [takeReader, queue]
        refine ⟨trivial, ?_, dropped⟩
        rw [frees_freeVec, frees_remove, (ExecHeap.touch_log _ _).2, (ExecHeap.touch_log _ _).2]
  | nil =>
      have nodes : nodesOf mail w (.reads (readClass etherType)) = [] := by simp [nodesOf, queue]
      rw [nodes] at first looked
      obtain ⟨s, agree', frees, _, ends⟩ := search_agrees looked .events
        (fun m n => (m.reqs (n - mnNodeOffset)).command == .readOrphan) ExecHeap.remove
        (fun n => (w.reqs n).command == .readOrphan) fun s _ same n => by rw [same]; rfl
      have stop : m.links.succ (lists (.reads (readClass etherType))).tail = none :=
        agree.formed.arranged.stop _
      have found : ∀ fuel, longest (nodesOf mail w) < fuel →
          ExecHeap.takeReader lists (readClass etherType) fuel m =
            some ((w.unit.eventList.find? fun n => (w.reqs n).command == .readOrphan).elim (s, none)
              fun n => (s.remove n, some n)) := by
        intro fuel enough
        simp only [longest, Nat.max_lt] at enough
        rw [ExecHeap.takeReader, first, Option.bind_some]
        simp only [firstOr, List.head?_nil, Option.getD_none]
        rw [show (m.touch [(lists (.reads (readClass etherType))).tail,
          (lists (.reads (readClass etherType))).head]).links.succ
          (lists (.reads (readClass etherType))).tail = none from stop]
        have searched := ends fuel enough.2.2
        simp only [firstOr, List.head?_nil, Option.getD_none] at searched
        simp only [searched, Option.map_some, nodesOf]
        cases w.unit.eventList.find? fun n => (w.reqs n).command == .readOrphan <;> rfl
      have frees : s.frees = m.frees := frees.trans (ExecHeap.touch_log m _).2
      refine ⟨_, _, found, ?_⟩
      simp only [takeReader, queue]
      cases orphan : w.unit.eventList.find? fun n => (w.reqs n).command == .readOrphan with
      | none => exact ⟨rfl, frees, agree'⟩
      | some r =>
          obtain ⟨own, front, back, placed, before⟩ := List.find?_eq_some_iff_append.mp orphan
          have erased : w.unit.eventList.eraseP (fun r => (w.reqs r).command == .readOrphan) =
              front ++ back := by
            rw [placed, List.eraseP_append_right _ fun x member => by simpa using before x member]
            simp [own]
          simp only [erased]
          exact ⟨trivial, (frees_remove s r).trans frees,
            agree_dropEvent agree' r front back placed⟩

end

theorem sweep_snoc (picked : IOSana2Req → Bool) (answer : IOSana2Req → IOSana2Req) (via : Via)
    (visited : List ReqId) (n : ReqId) (w : World) :
    sweep picked answer via (visited ++ [n]) w =
      if picked ((sweep picked answer via visited w).1.reqs n) then
        ((sweep picked answer via visited w).1.replyMsg n
          (answer ((sweep picked answer via visited w).1.reqs n)) via,
          (sweep picked answer via visited w).2)
      else ((sweep picked answer via visited w).1, (sweep picked answer via visited w).2 ++ [n]) := by
  induction visited generalizing w with
  | nil =>
      cases choice : picked (w.reqs n) <;> simp [sweep, choice]
  | cons r rest ih =>
      simp only [List.cons_append, sweep]
      split
      · exact ih _
      · rw [ih]
        split <;> rfl

theorem flushReadList_snoc (error : IoError) (visited : List PendingRead) (pr : PendingRead)
    (w : World) :
    World.flushReadList error (visited ++ [pr]) w =
      { World.flushReadList error visited w with
        freed := pr.node :: (World.flushReadList error visited w).freed }.replyMsg pr.ioreq
          (flushed error ((World.flushReadList error visited w).reqs pr.ioreq)) .flush := by
  induction visited generalizing w with
  | nil => rfl
  | cons first rest ih => exact ih _

section

variable {lists : ListName → Header Addr} {mail : Mail} {m : ExecHeap} {w : World}
  {held : ReqId → Prop} {making : List PendingRead}

def sweptWorld (picked : IOSana2Req → Bool) (answer : IOSana2Req → IOSana2Req) (via : Via)
    (w : World) (visited rest : List ReqId) : World :=
  { (sweep picked answer via visited w).1 with
    unit := { w.unit with eventList := (sweep picked answer via visited w).2 ++ rest } }

theorem eventTurn_agrees (picked : IOSana2Req → Bool) (answer : IOSana2Req → IOSana2Req)
    (via : Via) (n : ReqId) (visited rest : List ReqId)
    (agree : Agree lists mail m (sweptWorld picked answer via w visited (n :: rest)) held making) :
    ∃ m', ExecHeap.eventTurn lists picked answer (m, n) =
        .inl (m', firstOr rest (lists .events).tail) ∧ m'.frees = m.frees ∧
      Agree lists mail m' (sweptWorld picked answer via w (visited ++ [n]) rest) held making := by
  generalize kept : (sweep picked answer via visited w).2 = front at *
  have queue : (sweptWorld picked answer via w visited (n :: rest)).unit.eventList =
      front ++ n :: rest := congrArg (· ++ n :: rest) kept
  have linked : Linked lists (nodesOf mail (sweptWorld picked answer via w visited (n :: rest))) n :=
    linked_mem .events n (by simp [nodesOf, queue])
  have next := agree_next agree .events n front rest queue
  have one := agree_look agree n linked
  have two := agree_look one n linked
  have reqs : m.reqs n = (sweep picked answer via visited w).1.reqs n :=
    congrFun agree.reqs n
  have succ : (m.touch [n]).links.succ n = some (firstOr rest (lists .events).tail) := next
  have quiet : ((m.touch [n]).touch [n]).frees = m.frees :=
    (ExecHeap.touch_log _ [n]).2.trans (ExecHeap.touch_log m [n]).2
  cases choice : picked (m.reqs n) with
  | false =>
      have choice' := reqs ▸ choice
      refine ⟨(m.touch [n]).touch [n], ?_, quiet, ?_⟩
      · have same : picked (((m.touch [n]).touch [n]).reqs (n - mnNodeOffset)) = false := choice
        simp only [ExecHeap.eventTurn, succ, same, Bool.false_eq_true, if_false]
      · have world : sweptWorld picked answer via w (visited ++ [n]) rest =
            sweptWorld picked answer via w visited (n :: rest) := by
          simp only [sweptWorld, sweep_snoc, choice', Bool.false_eq_true, if_false,
            List.append_assoc, List.cons_append, List.nil_append]
        rw [world]
        exact two
  | true =>
      have choice' := reqs ▸ choice
      have dropped := agree_dropEvent two n front rest queue
      have replied := agree_reply dropped n (answer (m.reqs n)) via (.inl rfl)
      refine ⟨((((m.touch [n]).touch [n]).remove n).write n (answer (m.reqs n))).replyMsg lists n,
        ?_, ?_, ?_⟩
      · have same : picked (((m.touch [n]).touch [n]).reqs (n - mnNodeOffset)) = true := choice
        simp only [ExecHeap.eventTurn, succ, same, if_true]
        rfl
      · exact (frees_reply _ n _).trans ((frees_remove _ n).trans quiet)
      · have others : ∀ r, held r → (r = n ∨ held r) ∧ r ≠ n := by
          intro r mine
          refine ⟨.inr mine, ?_⟩
          rintro rfl
          exact (agree.loose r mine).out linked
        have world : sweptWorld picked answer via w (visited ++ [n]) rest =
            World.replyMsg { sweptWorld picked answer via w visited (n :: rest) with
              unit := { w.unit with eventList := front ++ rest } } n (answer (m.reqs n)) via := by
          simp only [sweptWorld, sweep_snoc, choice', if_true, kept, reqs]
          rfl
        rw [world]
        exact agree_fewer replied held [] making others (List.Perm.refl _)

theorem eventWalk_agrees (agree : Agree lists mail m w held making) (picked : IOSana2Req → Bool)
    (answer : IOSana2Req → IOSana2Req) (via : Via) :
    ∃ m', (∀ fuel, w.unit.eventList.length < fuel →
        ExecHeap.walk lists (ExecHeap.eventTurn lists picked answer) .events fuel m = some m') ∧
      m'.frees = m.frees ∧
      Agree lists mail m' (w.sweepEvents picked answer via) held making := by
  have first := chain_first _ _ _ _ (agree.formed.arranged.chain .events)
  have begun : sweptWorld picked answer via w [] w.unit.eventList = w := rfl
  obtain ⟨m', finishes, frees, right⟩ := walk_rule (fun s : ExecHeap => s.links) (lists .events).head
    (lists .events).tail (ExecHeap.eventTurn lists picked answer)
    (fun s visited rest => visited ++ rest = w.unit.eventList ∧ s.frees = m.frees ∧
      Agree lists mail s (sweptWorld picked answer via w visited rest) held making)
    (fun s => s.frees = m.frees ∧
      Agree lists mail s (w.sweepEvents picked answer via) held making)
    (by
      rintro s visited rest ⟨_, _, agree⟩
      exact ⟨_, agree.formed.arranged.chain .events⟩)
    (by
      rintro s visited n rest ⟨all, frees, agree⟩ _
      obtain ⟨t, goes, quiet, later⟩ := eventTurn_agrees picked answer via n visited rest agree
      exact ⟨t, goes, by simpa using all, quiet.trans frees, later⟩)
    (by
      rintro s visited ⟨all, frees, agree⟩
      rw [List.append_nil] at all
      have one := agree_look agree (lists .events).tail (linked_tail .events _)
      refine ⟨s.touch [(lists .events).tail], ?_, (ExecHeap.touch_log s _).2.trans frees, ?_⟩
      · have stop : (s.touch [(lists .events).tail]).links.succ (lists .events).tail = none :=
          agree.formed.arranged.stop .events
        simp only [ExecHeap.eventTurn, stop]
      · have world : sweptWorld picked answer via w visited [] = w.sweepEvents picked answer via := by
          simp only [sweptWorld, sweepEvents, all, List.append_nil, sweep_unit]
        exact world ▸ one)
    (m.touch [(lists .events).head]) [] w.unit.eventList
    ⟨rfl, (ExecHeap.touch_log m _).2, begun ▸ agree_look agree _ (linked_head .events _)⟩
  refine ⟨m', fun fuel enough => ?_, frees, right⟩
  rw [ExecHeap.walk, first, Option.bind_some]
  exact finishes fuel enough

def flushingWorld (error : IoError) (c : ReadClass) (w : World) (visited rest : List PendingRead) :
    World :=
  { World.flushReadList error visited w with unit := w.unit.setReadList rest c }

theorem flushReadTurn_agrees (error : IoError) (c : ReadClass) (pr : PendingRead)
    (visited rest : List PendingRead)
    (agree : Agree lists mail m (flushingWorld error c w visited (pr :: rest)) held making) :
    ∃ m', ExecHeap.flushReadTurn lists error (m, pr.node) =
        .inl (m', firstOr (rest.map PendingRead.node) (lists (.reads c)).tail) ∧
      m'.frees = m.frees ++ [pr.node] ∧
      Agree lists mail m' (flushingWorld error c w (visited ++ [pr]) rest) held making := by
  have queue : (flushingWorld error c w visited (pr :: rest)).unit.readList c = pr :: rest :=
    (PA6TEthUnit.readList_setReadList _ _ c c).trans (if_pos rfl)
  have nodes : nodesOf mail (flushingWorld error c w visited (pr :: rest)) (.reads c) =
      pr.node :: rest.map PendingRead.node := by simp only [nodesOf, queue, List.map_cons]
  have linked : Linked lists (nodesOf mail (flushingWorld error c w visited (pr :: rest)))
      pr.node := linked_mem (.reads c) pr.node (by simp [nodes])
  have named : m.ioreq pr.node = pr.ioreq := agree.wrappers c pr (by simp [queue])
  have next := agree_next agree (.reads c) pr.node [] _ nodes
  have two := agree_look (agree_look agree pr.node linked) pr.node linked
  have dropped := agree_dropRead two c pr [] rest queue
  have reqs : m.reqs pr.ioreq = (World.flushReadList error visited w).reqs pr.ioreq :=
    congrFun agree.reqs pr.ioreq
  have replied := agree_reply dropped pr.ioreq (flushed error (m.reqs pr.ioreq)) .flush (.inl rfl)
  have listed : pr.node ∈ readNodes (nodesOf mail (flushingWorld error c w visited (pr :: rest))) :=
    (readNodes_mem _ _).mpr ⟨c, by simp [nodes]⟩
  refine ⟨_, ?_, ?_, agree_world (agree_fewer replied held [] making ?_ (List.Perm.refl _)) _ ?_ ?_ ?_
    ?_ fun p => ?_⟩
  · have succ : (m.touch [pr.node]).links.succ pr.node =
        some (firstOr (rest.map PendingRead.node) (lists (.reads c)).tail) := next
    simp only [ExecHeap.flushReadTurn, succ]
    rw [show ((m.touch [pr.node]).touch [pr.node]).ioreq pr.node = pr.ioreq from named]
    rfl
  · rw [frees_reply, frees_freeVec, frees_remove, (ExecHeap.touch_log _ _).2,
      (ExecHeap.touch_log _ _).2]
  · intro r mine
    refine ⟨.inr mine, ?_⟩
    rintro rfl
    exact (agree.loose _ mine).unwrapped _ listed named
  · intro c'
    simp only [flushingWorld, World.replyMsg, PA6TEthUnit.readList_setReadList, List.nil_append]
    split <;> rfl
  · simp only [flushingWorld, World.replyMsg, PA6TEthUnit.setReadList_eventList]
  · simp only [flushingWorld, World.replyMsg, PA6TEthUnit.setReadList_ioPort]
  · simp only [flushingWorld, flushReadList_snoc, World.replyMsg, reqs]
  · simp only [flushingWorld, flushReadList_snoc, World.replyMsg, reqs]

theorem flushRead_agrees (agree : Agree lists mail m w held making) (error : IoError)
    (c : ReadClass) :
    ∃ m', (∀ fuel, (w.unit.readList c).length < fuel →
        ExecHeap.flushReadList lists error c fuel m = some m') ∧
      m'.frees = m.frees ++ (w.unit.readList c).map PendingRead.node ∧
      Agree lists mail m' (flushRead error c w) held making := by
  have first := chain_first _ _ _ _ (agree.formed.arranged.chain (.reads c))
  have begun : flushingWorld error c w [] (w.unit.readList c) = w := by
    simp only [flushingWorld, World.flushReadList, setReadList_same]
  have list : ∀ visited rest,
      nodesOf mail (flushingWorld error c w visited rest) (.reads c) = rest.map PendingRead.node := by
    intro visited rest
    simp only [nodesOf, flushingWorld, PA6TEthUnit.readList_setReadList, if_pos]
  obtain ⟨m', finishes, frees, right⟩ := walk_rule (fun s : ExecHeap => s.links)
    (lists (.reads c)).head (lists (.reads c)).tail (ExecHeap.flushReadTurn lists error)
    (fun s before nodes => ∃ visited rest, visited ++ rest = w.unit.readList c ∧
      before = visited.map PendingRead.node ∧ nodes = rest.map PendingRead.node ∧
      s.frees = m.frees ++ visited.map PendingRead.node ∧
      Agree lists mail s (flushingWorld error c w visited rest) held making)
    (fun s => s.frees = m.frees ++ (w.unit.readList c).map PendingRead.node ∧
      Agree lists mail s (flushRead error c w) held making)
    (by
      rintro s before nodes ⟨visited, rest, _, _, rfl, _, agree⟩
      refine ⟨[], ?_⟩
      rw [List.nil_append, ← list visited rest]
      exact agree.formed.arranged.chain (.reads c))
    (by
      rintro s before n nodes ⟨visited, rest, all, rfl, split, frees, agree⟩ _
      cases rest with
      | nil => cases split
      | cons pr rest =>
          obtain ⟨rfl, rfl⟩ := List.cons.inj split
          obtain ⟨t, goes, freed, later⟩ := flushReadTurn_agrees error c pr visited rest agree
          refine ⟨t, goes, visited ++ [pr], rest, by simpa using all, by simp, rfl, ?_, later⟩
          rw [freed, frees, List.map_append, List.append_assoc]
          rfl)
    (by
      rintro s before ⟨visited, rest, all, _, split, frees, agree⟩
      obtain rfl : rest = [] := by simpa using split.symm
      rw [List.append_nil] at all
      subst all
      have one := agree_look agree (lists (.reads c)).tail (linked_tail (.reads c) _)
      refine ⟨s.touch [(lists (.reads c)).tail], ?_, (ExecHeap.touch_log s _).2.trans frees, ?_⟩
      · have stop : (s.touch [(lists (.reads c)).tail]).links.succ (lists (.reads c)).tail = none :=
          agree.formed.arranged.stop (.reads c)
        simp only [ExecHeap.flushReadTurn, stop]
      · have world : flushingWorld error c w (w.unit.readList c) [] = flushRead error c w := by
          simp only [flushingWorld, flushRead, flushReadList_unit]
        exact world ▸ one)
    (m.touch [(lists (.reads c)).head]) [] ((w.unit.readList c).map PendingRead.node)
    ⟨[], w.unit.readList c, rfl, rfl, rfl, by simp [(ExecHeap.touch_log m _).2], by
      rw [begun]
      exact agree_look agree _ (linked_head (.reads c) _)⟩
  refine ⟨m', fun fuel enough => ?_, frees, right⟩
  rw [ExecHeap.flushReadList, ExecHeap.walk, first, Option.bind_some]
  exact finishes fuel (by simpa using enough)

theorem flushReadQueue_agrees (agree : Agree lists mail m w held making) (error : IoError) :
    ∃ m', (∀ fuel, longest (nodesOf mail w) < fuel →
        ExecHeap.flushReadQueue lists error fuel m = some m') ∧
      m'.frees = m.frees ++ readNodes (nodesOf mail w) ∧
      Agree lists mail m' (w.flushReadQueue error) held making := by
  obtain ⟨m₁, ends₁, frees₁, agree₁⟩ := flushRead_agrees agree error .ipv4
  obtain ⟨m₂, ends₂, frees₂, agree₂⟩ := flushRead_agrees agree₁ error .arp
  obtain ⟨m₃, ends₃, frees₃, agree₃⟩ := flushRead_agrees agree₂ error .other
  obtain ⟨m₄, ends₄, frees₄, agree₄⟩ := eventWalk_agrees agree₃
    (fun q => q.command = .readOrphan) (flushed error) .flush
  -- No walk changes the lists of the later ones.
  have arp : (flushRead error .ipv4 w).unit.readList .arp = w.unit.readList .arp := by
    simp [flushRead_unit]
  have other : (flushRead error .arp (flushRead error .ipv4 w)).unit.readList .other =
      w.unit.readList .other := by simp [flushRead_unit]
  have events : (flushRead error .other (flushRead error .arp
      (flushRead error .ipv4 w))).unit.eventList = w.unit.eventList := by simp [flushRead_unit]
  rw [arp] at ends₂ frees₂
  rw [other] at ends₃ frees₃
  rw [events] at ends₄
  refine ⟨m₄, fun fuel enough => ?_, ?_, agree₄⟩
  · simp only [longest, Nat.max_lt, nodesOf, List.length_map] at enough
    obtain ⟨⟨first, second⟩, third, fourth⟩ := enough
    rw [ExecHeap.flushReadQueue, ends₁ fuel first, Option.bind_some, ends₂ fuel second,
      Option.bind_some, ends₃ fuel third, Option.bind_some]
    exact ends₄ fuel fourth
  · rw [frees₄, frees₃, frees₂, frees₁]
    simp only [readNodes, nodesOf, List.append_assoc]

end

end Pa6tEth

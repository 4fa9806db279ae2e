import Pa6tEth.Conservation
import Pa6tEth.Support.ExecList

/-! `PA6TEth_FlushReadQueue` and `PA6TEth_FlushAllPending` on the links of the lists' nodes. -/

namespace Pa6tEth

open Support World

/-- The lists that the flush functions change: the unit's, and those of the clients' reply ports. -/
inductive ListName
  | reads (c : ReadClass)
  | events
  | port (p : Addr)
  deriving DecidableEq, Repr

/-- An access to a node, a `FreeVec` of a wrapper, and a `ReplyMsg` with the record it sends. -/
inductive MemEvent
  | touch (n : Addr)
  | free (n : Addr)
  | reply (r : ReqId) (done : IOSana2Req)

/-- The fields of the nodes and of the requests. A request's own node is its first member, so the
two have one address. `log` holds what was done to the memory, the newest first. -/
structure ExecHeap where
  links : Links Addr
  ioreq : Addr → ReqId
  reqs : ReqId → IOSana2Req
  replyPort : ReqId → Option Addr
  log : List MemEvent

/-- `offsetof(struct IORequest, io_Message.mn_Node)`. -/
def mnNodeOffset : Nat := 0

namespace ExecHeap

def touch (m : ExecHeap) (nodes : List Addr) : ExecHeap :=
  { m with log := nodes.map .touch ++ m.log }

/-- `Remove` reads the node's links and writes those of its neighbours. -/
def remove (m : ExecHeap) (n : Addr) : ExecHeap :=
  { m.touch (n :: ((m.links.pred n).toList ++ (m.links.succ n).toList)) with
    links := m.links.remove n }

def freeVec (m : ExecHeap) (n : Addr) : ExecHeap := { m with log := .free n :: m.log }

/-- `io_Error` and `ios2_WireError` of a flushed request. -/
def finish (m : ExecHeap) (r : ReqId) (error : IoError) : ExecHeap :=
  { m.touch [r] with reqs := Function.update m.reqs r (flushed error (m.reqs r)) }

section

variable (lists : ListName → Header Addr)

/-- `ReplyMsg` adds the message to the list of its reply port, if it has one. -/
def replyMsg (m : ExecHeap) (r : ReqId) : ExecHeap :=
  match m.replyPort r with
  | none => { m.touch [r] with log := .reply r (m.reqs r) :: (m.touch [r]).log }
  | some p =>
      let tail := (lists (.port p)).tail
      let touched := m.touch (r :: tail :: (m.links.pred tail).toList)
      { touched with
        links := m.links.addTail (lists (.port p)) r
        log := .reply r (m.reqs r) :: touched.log }

/-- One turn of the loop of `flush_read_list`, which frees the wrapper before the reply. -/
def flushReadTurn (error : IoError) : ExecHeap × Addr → (ExecHeap × Addr) ⊕ ExecHeap
  | (m, n) =>
      let m := m.touch [n]
      match m.links.succ n with
      | none => .inr m
      | some next =>
          let m := m.touch [n]
          let req := m.ioreq n
          .inl ((((m.remove n).freeVec n).finish req error).replyMsg lists req, next)

def flushEventTurn (picked : IOSana2Req → Bool) (error : IoError) :
    ExecHeap × Addr → (ExecHeap × Addr) ⊕ ExecHeap
  | (m, n) =>
      let m := m.touch [n]
      match m.links.succ n with
      | none => .inr m
      | some next =>
          let m := m.touch [n]
          let ev := n - mnNodeOffset
          if picked (m.reqs ev) then .inl (((m.remove n).finish ev error).replyMsg lists ev, next)
          else .inl (m, next)

/-- A loop from the first node of a list, for a bounded number of turns. -/
def walk (turn : ExecHeap × Addr → (ExecHeap × Addr) ⊕ ExecHeap) (q : ListName) (fuel : Nat)
    (m : ExecHeap) : Option ExecHeap :=
  (m.links.succ (lists q).head).bind fun n => forever turn fuel (m.touch [(lists q).head], n)

/-- `flush_read_list`. -/
def flushReadList (error : IoError) (c : ReadClass) (fuel : Nat) (m : ExecHeap) :
    Option ExecHeap :=
  walk lists (flushReadTurn lists error) (.reads c) fuel m

/-- `PA6TEth_FlushReadQueue`. -/
def flushReadQueue (error : IoError) (fuel : Nat) (m : ExecHeap) : Option ExecHeap :=
  (flushReadList lists error .ipv4 fuel m).bind fun m =>
  (flushReadList lists error .arp fuel m).bind fun m =>
  (flushReadList lists error .other fuel m).bind fun m =>
  walk lists (flushEventTurn lists (fun q => q.command = .readOrphan) error) .events fuel m

/-- `PA6TEth_FlushAllPending`; `others` is what other tasks do between its two `Forbid` sections. -/
def flushAllPending (others : ExecHeap → ExecHeap) (fuel : Nat) (m : ExecHeap) : Option ExecHeap :=
  (flushReadQueue lists .aborted fuel m).bind fun m =>
  walk lists (flushEventTurn lists (fun _ => true) .aborted) .events fuel (others m)

end

def replyOf : MemEvent → Option (ReqId × IOSana2Req)
  | .reply r done => some (r, done)
  | _ => none

def freeOf : MemEvent → Option Addr
  | .free n => some n
  | _ => none

def replies (m : ExecHeap) : List (ReqId × IOSana2Req) := (m.log.filterMap replyOf).reverse

def frees (m : ExecHeap) : List Addr := (m.log.filterMap freeOf).reverse

end ExecHeap

def NoUseAfterFree : List MemEvent → Prop
  | [] => True
  | .touch n :: before => .free n ∉ before ∧ NoUseAfterFree before
  | .free n :: before => .free n ∉ before ∧ NoUseAfterFree before
  | .reply _ _ :: before => NoUseAfterFree before

/-- The wrappers in the read lists, in the order in which the lists are flushed. -/
def readNodes (nodes : ListName → List Addr) : List Addr :=
  nodes (.reads .ipv4) ++ (nodes (.reads .arp) ++ nodes (.reads .other))

/-- The lists are well formed and hold these nodes. Each wrapper has a request of its own, which is
in no list itself, and nothing that is in a list or waits in a wrapper was freed. -/
structure Formed (lists : ListName → Header Addr) (m : ExecHeap) (nodes : ListName → List Addr) :
    Prop where
  arranged : Arranged lists m.links nodes
  live : ∀ n, Linked lists nodes n → .free n ∉ m.log
  unlinked : ∀ n ∈ readNodes nodes, ¬ Linked lists nodes (m.ioreq n) ∧ .free (m.ioreq n) ∉ m.log
  once : ((readNodes nodes).map m.ioreq).Nodup

/-- What a flush did from one heap to another: the wrappers it freed and the requests it replied,
each in order, with their records. -/
structure Flushes (error : IoError) (wrappers : List Addr) (ids : List ReqId) (m m' : ExecHeap) :
    Prop where
  ioreq : m'.ioreq = m.ioreq
  replyPort : m'.replyPort = m.replyPort
  reqs : ∀ r, m'.reqs r = if r ∈ ids then flushed error (m.reqs r) else m.reqs r
  replies : m'.replies = m.replies ++ ids.map fun r => (r, flushed error (m.reqs r))
  frees : m'.frees = m.frees ++ wrappers
  safe : NoUseAfterFree m.log → NoUseAfterFree m'.log

/-- The lists after one more message in its reply port, and after several. -/
def sendTo (port : Option Addr) (r : ReqId) (nodes : ListName → List Addr) :
    ListName → List Addr :=
  match port with
  | none => nodes
  | some p => Function.update nodes (.port p) (nodes (.port p) ++ [r])

def sendAll (replyPort : ReqId → Option Addr) (ids : List ReqId) (nodes : ListName → List Addr) :
    ListName → List Addr
  | .port p => nodes (.port p) ++ ids.filter fun r => replyPort r = some p
  | q => nodes q

theorem sendAll_nil (replyPort : ReqId → Option Addr) (nodes : ListName → List Addr) :
    sendAll replyPort [] nodes = nodes := by
  funext q
  cases q <;> simp [sendAll]

theorem sendAll_snoc (replyPort : ReqId → Option Addr) (ids : List ReqId) (r : ReqId)
    (nodes : ListName → List Addr) :
    sendAll replyPort (ids ++ [r]) nodes = sendTo (replyPort r) r (sendAll replyPort ids nodes) := by
  funext q
  cases port : replyPort r with
  | none => cases q <;> simp [sendAll, sendTo, port]
  | some p =>
      cases q with
      | port p' =>
          by_cases here : p' = p
          · subst here
            simp [sendAll, sendTo, port]
          · have other : ¬ p = p' := fun same => here same.symm
            simp [sendAll, sendTo, port, here, other]
      | _ => simp [sendAll, sendTo]

theorem update_sendAll (replyPort : ReqId → Option Addr) (ids : List ReqId)
    (nodes : ListName → List Addr) (q : ListName) (own : ∀ p, q ≠ .port p) (list : List Addr) :
    Function.update (sendAll replyPort ids nodes) q list =
      sendAll replyPort ids (Function.update nodes q list) := by
  funext q'
  by_cases here : q' = q
  · subst here
    cases q' with
    | port p => exact absurd rfl (own p)
    | _ => simp [sendAll]
  · cases q' <;> simp [sendAll, Function.update_of_ne here]

theorem sendAll_own (replyPort : ReqId → Option Addr) (ids : List ReqId)
    (nodes : ListName → List Addr) (q : ListName) (own : ∀ p, q ≠ .port p) :
    sendAll replyPort ids nodes q = nodes q := by
  cases q with
  | port p => exact absurd rfl (own p)
  | _ => rfl

theorem readNodes_sendTo (port : Option Addr) (r : ReqId) (nodes : ListName → List Addr) :
    readNodes (sendTo port r nodes) = readNodes nodes := by
  cases port <;> simp [readNodes, sendTo]

theorem readNodes_shorter (nodes : ListName → List Addr) (q : ListName) (list : List Addr)
    (shorter : List.Sublist list (nodes q)) :
    List.Sublist (readNodes (Function.update nodes q list)) (readNodes nodes) := by
  cases q with
  | reads c =>
      cases c with
      | ipv4 =>
          simp only [readNodes, Function.update_self, ne_eq, ListName.reads.injEq, reduceCtorEq,
            not_false_eq_true, Function.update_of_ne]
          exact List.Sublist.append_right shorter _
      | arp =>
          simp only [readNodes, Function.update_self, ne_eq, ListName.reads.injEq, reduceCtorEq,
            not_false_eq_true, Function.update_of_ne]
          exact List.Sublist.append_left (List.Sublist.append_right shorter _) _
      | other =>
          simp only [readNodes, Function.update_self, ne_eq, ListName.reads.injEq, reduceCtorEq,
            not_false_eq_true, Function.update_of_ne]
          exact List.Sublist.append_left (List.Sublist.append_left shorter _) _
  | _ =>
      simp only [readNodes, ne_eq, reduceCtorEq, not_false_eq_true, Function.update_of_ne]
      exact List.Sublist.refl _

section

variable (lists : ListName → Header Addr)

theorem linked_sendTo (port : Option Addr) (r n : Addr) (nodes : ListName → List Addr)
    (linked : Linked lists (sendTo port r nodes) n) : Linked lists nodes n ∨ n = r := by
  cases port with
  | none => exact .inl linked
  | some p =>
      obtain ⟨q, member⟩ := linked
      by_cases here : q = .port p
      · subst here
        simp only [sendTo, Function.update_self, Header.full, List.mem_cons, List.mem_append,
          List.not_mem_nil, or_false] at member
        rcases member with same | (old | new) | same
        · exact .inl ⟨.port p, by simp [Header.full, same]⟩
        · exact .inl ⟨.port p, by simp [Header.full, old]⟩
        · exact .inr new
        · exact .inl ⟨.port p, by simp [Header.full, same]⟩
      · rw [sendTo, Function.update_of_ne here] at member
        exact .inl ⟨q, member⟩

theorem linked_removed (l : Links Addr) (nodes : ListName → List Addr) (q : ListName)
    (n x : Addr) (front back : List Addr) (arranged : Arranged lists l nodes)
    (placed : nodes q = front ++ n :: back)
    (linked : Linked lists (Function.update nodes q (front ++ back)) x) :
    Linked lists nodes x ∧ x ≠ n := by
  have inside : n ∈ (lists q).full (nodes q) := by simp [Header.full, placed]
  obtain ⟨q', member⟩ := linked
  by_cases here : q' = q
  · subst here
    rw [Function.update_self] at member
    have distinct := arranged.distinct q'
    rw [placed, Header.full] at distinct
    obtain ⟨outside, rest⟩ := List.nodup_cons.mp distinct
    have moved : (n :: (front ++ back ++ [(lists q').tail])).Nodup := by
      have perm : (front ++ n :: back ++ [(lists q').tail]).Perm
          (n :: (front ++ back ++ [(lists q').tail])) := by
        rw [List.append_assoc, List.append_assoc]
        exact List.perm_middle
      exact perm.nodup_iff.mp rest
    simp only [Header.full, List.mem_cons] at member
    refine ⟨⟨q', ?_⟩, ?_⟩
    · simp only [Header.full, placed, List.mem_cons, List.mem_append] at member ⊢
      tauto
    · rintro rfl
      rcases member with same | member
      · apply outside
        rw [← same]
        simp
      · exact (List.nodup_cons.mp moved).1 member
  · rw [Function.update_of_ne here] at member
    refine ⟨⟨q', member⟩, ?_⟩
    rintro rfl
    exact arranged.apart q' q here member inside

namespace ExecHeap

@[simp] theorem free_mem_touch (m : ExecHeap) (nodes : List Addr) (n : Addr) :
    .free n ∈ (m.touch nodes).log ↔ .free n ∈ m.log := by
  simp [touch]

theorem safe_touch (m : ExecHeap) (nodes : List Addr) (live : ∀ n ∈ nodes, .free n ∉ m.log)
    (safe : NoUseAfterFree m.log) : NoUseAfterFree (m.touch nodes).log := by
  induction nodes with
  | nil => exact safe
  | cons n rest ih =>
      constructor
      · exact (free_mem_touch m rest n).not.mpr (live n List.mem_cons_self)
      · exact ih fun x member => live x (List.mem_cons_of_mem n member)

theorem touch_log (m : ExecHeap) (nodes : List Addr) :
    (m.touch nodes).replies = m.replies ∧ (m.touch nodes).frees = m.frees := by
  induction nodes with
  | nil => exact ⟨rfl, rfl⟩
  | cons n rest ih => exact ih

theorem replied_log (m m' : ExecHeap) (touched : List Addr) (r : ReqId) (done : IOSana2Req)
    (log : m'.log = .reply r done :: (m.touch touched).log) :
    m'.replies = m.replies ++ [(r, done)] ∧ m'.frees = m.frees := by
  obtain ⟨replied, freed⟩ := touch_log m touched
  constructor
  · calc
      m'.replies = ((r, done) :: (m.touch touched).log.filterMap replyOf).reverse := by
        rw [replies, log]
        rfl
      _ = (m.touch touched).replies ++ [(r, done)] := List.reverse_cons
      _ = m.replies ++ [(r, done)] := by rw [replied]
  · calc
      m'.frees = (m.touch touched).frees := by
        rw [frees, log]
        rfl
      _ = m.frees := freed

end ExecHeap

variable {lists} {m : ExecHeap} {nodes : ListName → List Addr}

theorem formed_frame (m' : ExecHeap) (formed : Formed lists m nodes) (links : m'.links = m.links)
    (ioreq : m'.ioreq = m.ioreq) (frees : ∀ n, .free n ∈ m'.log → .free n ∈ m.log) :
    Formed lists m' nodes where
  arranged := links ▸ formed.arranged
  live := fun n linked freed => formed.live n linked (frees n freed)
  unlinked := by
    intro n member
    rw [ioreq]
    obtain ⟨out, alive⟩ := formed.unlinked n member
    exact ⟨out, fun freed => alive (frees _ freed)⟩
  once := ioreq ▸ formed.once

theorem formed_touch (formed : Formed lists m nodes) (touched : List Addr) :
    Formed lists (m.touch touched) nodes :=
  formed_frame _ formed rfl rfl fun n => (ExecHeap.free_mem_touch m touched n).mp

theorem formed_remove (formed : Formed lists m nodes) (q : ListName) (n : Addr)
    (front back : List Addr) (placed : nodes q = front ++ n :: back) :
    Formed lists (m.remove n) (Function.update nodes q (front ++ back)) where
  arranged := arranged_remove lists m.links nodes q n front back formed.arranged placed
  live := by
    intro x linked
    rw [ExecHeap.remove, ExecHeap.free_mem_touch]
    exact formed.live x (linked_removed lists m.links nodes q n x front back formed.arranged placed
      linked).1
  unlinked := by
    intro w member
    have old := (readNodes_shorter nodes q (front ++ back) (by
      rw [placed]
      exact List.Sublist.append_left (List.sublist_cons_self n back) front)).subset member
    obtain ⟨out, alive⟩ := formed.unlinked w old
    refine ⟨fun linked => out ?_, ?_⟩
    · exact (linked_removed lists m.links nodes q n _ front back formed.arranged placed linked).1
    · rw [ExecHeap.remove, ExecHeap.free_mem_touch]
      exact alive
  once := by
    have shorter := readNodes_shorter nodes q (front ++ back) (by
      rw [placed]
      exact List.Sublist.append_left (List.sublist_cons_self n back) front)
    exact (shorter.map m.ioreq).nodup formed.once

theorem formed_free (formed : Formed lists m nodes) (n : Addr) (out : ¬ Linked lists nodes n)
    (others : ∀ w ∈ readNodes nodes, m.ioreq w ≠ n) : Formed lists (m.freeVec n) nodes where
  arranged := formed.arranged
  live := by
    intro x linked freed
    rcases List.mem_cons.mp freed with same | old
    · exact out (MemEvent.free.inj same ▸ linked)
    · exact formed.live x linked old
  unlinked := by
    intro w member
    obtain ⟨apart, alive⟩ := formed.unlinked w member
    refine ⟨apart, fun freed => ?_⟩
    rcases List.mem_cons.mp freed with same | old
    · exact others w member (MemEvent.free.inj same)
    · exact alive old
  once := formed.once

theorem formed_finish (formed : Formed lists m nodes) (r : ReqId) (error : IoError) :
    Formed lists (m.finish r error) nodes :=
  formed_frame _ formed rfl rfl fun n => (ExecHeap.free_mem_touch m [r] n).mp

theorem replyMsg_frame (m : ExecHeap) (r : ReqId) :
    ((m.replyMsg lists r).ioreq = m.ioreq ∧ (m.replyMsg lists r).replyPort = m.replyPort ∧
      (m.replyMsg lists r).reqs = m.reqs) ∧
    (∀ n, .free n ∈ (m.replyMsg lists r).log ↔ .free n ∈ m.log) ∧
    (m.replyMsg lists r).replies = m.replies ++ [(r, m.reqs r)] ∧
    (m.replyMsg lists r).frees = m.frees := by
  simp only [ExecHeap.replyMsg]
  split
  · refine ⟨⟨rfl, rfl, rfl⟩, fun n => ?_, ExecHeap.replied_log m _ [r] r (m.reqs r) rfl⟩
    simp only [List.mem_cons, reduceCtorEq, false_or, ExecHeap.free_mem_touch]
  · rename_i p port
    refine ⟨⟨rfl, rfl, rfl⟩, fun n => ?_, ExecHeap.replied_log m _ _ r (m.reqs r) rfl⟩
    simp only [List.mem_cons, reduceCtorEq, false_or, ExecHeap.free_mem_touch]

theorem formed_reply (formed : Formed lists m nodes) (r : ReqId) (out : ¬ Linked lists nodes r)
    (alive : .free r ∉ m.log) (others : ∀ w ∈ readNodes nodes, m.ioreq w ≠ r) :
    Formed lists (m.replyMsg lists r) (sendTo (m.replyPort r) r nodes) where
  arranged := by
    simp only [ExecHeap.replyMsg, sendTo]
    split
    · exact formed.arranged
    · exact arranged_addTail lists m.links nodes _ r formed.arranged out
  live := by
    intro n linked
    rw [(replyMsg_frame m r).2.1]
    rcases linked_sendTo lists _ r n nodes linked with old | rfl
    · exact formed.live n old
    · exact alive
  unlinked := by
    intro w member
    rw [readNodes_sendTo] at member
    rw [(replyMsg_frame m r).2.1, (replyMsg_frame m r).1.1]
    obtain ⟨apart, alive'⟩ := formed.unlinked w member
    refine ⟨fun linked => ?_, alive'⟩
    rcases linked_sendTo lists _ r _ nodes linked with old | same
    · exact apart old
    · exact others w member same
  once := by
    rw [readNodes_sendTo, (replyMsg_frame m r).1.1]
    exact formed.once

theorem neighbours_linked (formed : Formed lists m nodes) (q : ListName) (n : Addr)
    (front back : List Addr) (placed : nodes q = front ++ n :: back) :
    ∀ x ∈ n :: ((m.links.pred n).toList ++ (m.links.succ n).toList), Linked lists nodes x := by
  have chain := formed.arranged.chain q
  rw [placed] at chain
  obtain ⟨ahead, behind⟩ := (chain_append _ _ _ _ front back).mp chain
  obtain ⟨p, here, before⟩ := chain_last _ _ _ _ ahead
  have after := chain_first _ _ _ _ behind
  have there := firstOr_mem back (lists q).tail
  intro x member
  rw [before, after] at member
  simp only [Option.toList_some, List.cons_append, List.nil_append, List.mem_cons, List.not_mem_nil,
    or_false] at member
  refine ⟨q, ?_⟩
  simp only [Header.full, placed, List.mem_cons, List.mem_append, List.not_mem_nil, or_false]
    at here there ⊢
  rcases member with rfl | rfl | rfl <;> tauto

theorem portEnd_linked (formed : Formed lists m nodes) (p : Addr) :
    ∀ x ∈ (lists (.port p)).tail :: (m.links.pred (lists (.port p)).tail).toList,
      Linked lists nodes x := by
  obtain ⟨last, here, before⟩ := chain_last _ _ _ _ (formed.arranged.chain (.port p))
  intro x member
  rw [before] at member
  simp only [Option.toList_some, List.mem_cons, List.not_mem_nil, or_false] at member
  refine ⟨.port p, ?_⟩
  simp only [Header.full, List.mem_cons, List.mem_append, List.not_mem_nil, or_false] at here ⊢
  rcases member with rfl | rfl <;> tauto

theorem safe_remove (formed : Formed lists m nodes) (q : ListName) (n : Addr)
    (front back : List Addr) (placed : nodes q = front ++ n :: back)
    (safe : NoUseAfterFree m.log) : NoUseAfterFree (m.remove n).log :=
  ExecHeap.safe_touch m _
    (fun x member => formed.live x (neighbours_linked formed q n front back placed x member)) safe

theorem safe_reply (formed : Formed lists m nodes) (r : ReqId) (alive : .free r ∉ m.log)
    (safe : NoUseAfterFree m.log) : NoUseAfterFree (m.replyMsg lists r).log := by
  simp only [ExecHeap.replyMsg]
  split
  · exact ⟨alive, safe⟩
  · apply ExecHeap.safe_touch m _ _ safe
    intro x member
    rcases List.mem_cons.mp member with rfl | ending
    · exact alive
    · exact formed.live x (portEnd_linked formed _ x ending)

theorem flushed_twice (error : IoError) (q : IOSana2Req) :
    flushed error (flushed error q) = flushed error q := rfl

theorem flushes_trans (error : IoError) (first second : List Addr) (ids more : List ReqId)
    (m m' m'' : ExecHeap) (one : Flushes error first ids m m')
    (two : Flushes error second more m' m'') :
    Flushes error (first ++ second) (ids ++ more) m m'' where
  ioreq := two.ioreq.trans one.ioreq
  replyPort := two.replyPort.trans one.replyPort
  reqs := by
    intro r
    rw [two.reqs, one.reqs]
    by_cases early : r ∈ ids
    · simp [early, flushed_twice]
    · simp [early]
  replies := by
    have same : (more.map fun r => (r, flushed error (m'.reqs r))) =
        more.map fun r => (r, flushed error (m.reqs r)) := by
      refine List.map_congr_left fun r _ => ?_
      rw [one.reqs]
      split
      · rw [flushed_twice]
      · rfl
    rw [two.replies, one.replies, same, List.map_append, List.append_assoc]
  frees := by rw [two.frees, one.frees, List.append_assoc]
  safe := fun safe => two.safe (one.safe safe)

theorem flushes_touch (error : IoError) (touched : List Addr)
    (live : ∀ n ∈ touched, .free n ∉ m.log) : Flushes error [] [] m (m.touch touched) where
  ioreq := rfl
  replyPort := rfl
  reqs := by simp [ExecHeap.touch]
  replies := by simp [(ExecHeap.touch_log m touched).1]
  frees := by simp [(ExecHeap.touch_log m touched).2]
  safe := ExecHeap.safe_touch m touched live

theorem flushes_reply (error : IoError) (formed : Formed lists m nodes) (r : ReqId)
    (alive : .free r ∉ m.log) :
    Flushes error [] [r] m ((m.finish r error).replyMsg lists r) where
  ioreq := (replyMsg_frame (m.finish r error) r).1.1
  replyPort := (replyMsg_frame (m.finish r error) r).1.2.1
  reqs := by
    intro x
    rw [(replyMsg_frame (m.finish r error) r).1.2.2]
    by_cases here : x = r
    · subst here
      simp [ExecHeap.finish]
    · simp [ExecHeap.finish, here]
  replies := by
    have finished : (m.finish r error).reqs r = flushed error (m.reqs r) := Function.update_self _ _ _
    rw [(replyMsg_frame (m.finish r error) r).2.2.1, finished]
    rfl
  frees := by
    rw [(replyMsg_frame (m.finish r error) r).2.2.2, List.append_nil]
    rfl
  safe := by
    intro safe
    apply safe_reply (formed_finish formed r error)
    · exact (ExecHeap.free_mem_touch m [r] r).not.mpr alive
    · exact ExecHeap.safe_touch m [r] (by simpa using alive) safe

theorem flushes_remove (error : IoError) (formed : Formed lists m nodes) (q : ListName) (n : Addr)
    (front back : List Addr) (placed : nodes q = front ++ n :: back) :
    Flushes error [] [] m (m.remove n) := by
  have touched := flushes_touch error (n :: ((m.links.pred n).toList ++ (m.links.succ n).toList))
    fun x member => formed.live x (neighbours_linked formed q n front back placed x member)
  exact ⟨touched.ioreq, touched.replyPort, touched.reqs, touched.replies, touched.frees, touched.safe⟩

theorem flushes_free (error : IoError) (n : Addr) (alive : .free n ∉ m.log) :
    Flushes error [n] [] m (m.freeVec n) where
  ioreq := rfl
  replyPort := rfl
  reqs := fun r => by simp [ExecHeap.freeVec]
  replies := by
    rw [List.map_nil, List.append_nil]
    rfl
  frees := by simp [ExecHeap.frees, ExecHeap.freeVec, ExecHeap.freeOf]
  safe := fun safe => ⟨alive, safe⟩

theorem readNodes_mem (nodes : ListName → List Addr) (n : Addr) :
    n ∈ readNodes nodes ↔ ∃ c, n ∈ nodes (.reads c) := by
  simp only [readNodes, List.mem_append]
  constructor
  · rintro (first | second | third)
    · exact ⟨.ipv4, first⟩
    · exact ⟨.arp, second⟩
    · exact ⟨.other, third⟩
  · rintro ⟨c, member⟩
    cases c <;> simp [member]

theorem linked_mem (q : ListName) (n : Addr) (member : n ∈ nodes q) : Linked lists nodes n :=
  ⟨q, List.mem_cons_of_mem _ (List.mem_append_left _ member)⟩

theorem turn_next (formed : Formed lists m nodes) (q : ListName) (n : Addr) (kept rest : List Addr)
    (placed : nodes q = kept ++ n :: rest) (error : IoError) :
    m.links.succ n = some (firstOr rest (lists q).tail) ∧
      Formed lists ((m.touch [n]).touch [n]) nodes ∧
      Flushes error [] [] m ((m.touch [n]).touch [n]) := by
  have chain := formed.arranged.chain q
  rw [placed] at chain
  have alive := formed.live n (linked_mem q n (by simp [placed]))
  refine ⟨chain_first _ _ _ _ ((chain_append _ _ _ _ kept rest).mp chain).2, ?_, ?_⟩
  · exact formed_touch (formed_touch formed [n]) [n]
  · have first := flushes_touch error [n] (by simpa using alive)
    have second := flushes_touch (m := m.touch [n]) error [n] (by simpa using alive)
    exact flushes_trans error [] [] [] [] _ _ _ first second

theorem flushRead_turn (error : IoError) (c : ReadClass) (n : Addr) (rest : List Addr)
    (formed : Formed lists m nodes) (placed : nodes (.reads c) = n :: rest) :
    ∃ m', ExecHeap.flushReadTurn lists error (m, n) =
        .inl (m', firstOr rest (lists (.reads c)).tail) ∧
      Formed lists m' (sendTo (m.replyPort (m.ioreq n)) (m.ioreq n)
        (Function.update nodes (.reads c) rest)) ∧
      Flushes error [n] [m.ioreq n] m m' := by
  obtain ⟨next, formed', looked⟩ := turn_next formed (.reads c) n [] rest placed error
  have queued : n ∈ nodes (.reads c) := by simp [placed]
  have wrapper : n ∈ readNodes nodes := (readNodes_mem nodes n).mpr ⟨c, queued⟩
  obtain ⟨out, alive⟩ := formed.unlinked n wrapper
  have linked : Linked lists nodes n := linked_mem _ n queued
  -- The removal takes the wrapper out of all lists, and leaves fewer wrappers.
  have removed := formed_remove formed' (.reads c) n [] rest placed
  have left : ∀ x, Linked lists (Function.update nodes (.reads c) rest) x →
      Linked lists nodes x ∧ x ≠ n := fun x =>
    linked_removed lists m.links nodes (.reads c) n x [] rest formed.arranged placed
  have fewer : ∀ w ∈ readNodes (Function.update nodes (.reads c) rest), w ∈ readNodes nodes := by
    apply List.Sublist.subset
    apply readNodes_shorter
    rw [placed]
    exact List.sublist_cons_self n rest
  have freed := formed_free removed n (fun still => (left n still).2 rfl) (by
    intro w member same
    have same : m.ioreq w = n := same
    exact (formed.unlinked w (fewer w member)).1 (same ▸ linked))
  have apart : m.ioreq n ≠ n := fun same => out (same.symm ▸ linked)
  have alive' : .free (m.ioreq n) ∉ ((((m.touch [n]).touch [n]).remove n).freeVec n).log := by
    simp only [ExecHeap.freeVec, ExecHeap.remove, List.mem_cons, MemEvent.free.injEq,
      ExecHeap.free_mem_touch, not_or]
    exact ⟨apart, alive⟩
  refine ⟨_, ?_, formed_reply (formed_finish freed (m.ioreq n) error) (m.ioreq n) ?_ ?_ ?_, ?_⟩
  · have succ : (m.touch [n]).links.succ n = some (firstOr rest (lists (.reads c)).tail) := next
    simp only [ExecHeap.flushReadTurn, succ]
    rfl
  · exact fun still => out (left _ still).1
  · exact (ExecHeap.free_mem_touch _ _ _).not.mpr alive'
  · intro w member same
    have one : w = n := List.inj_on_of_nodup_map formed.once (fewer w member) wrapper same
    obtain ⟨c', here⟩ := (readNodes_mem _ w).mp member
    exact (left w (linked_mem _ w here)).2 one
  · have one := flushes_remove error formed' (.reads c) n [] rest placed
    have two := flushes_free (m := ((m.touch [n]).touch [n]).remove n) error n (by
      simpa [ExecHeap.remove] using formed.live n linked)
    have three := flushes_reply error freed (m.ioreq n) alive'
    have both := flushes_trans error [n] [] [] [m.ioreq n] _ _ _ two three
    have all := flushes_trans error [] [n] [] [m.ioreq n] _ _ _ one both
    exact flushes_trans error [] [n] [] [m.ioreq n] _ _ _ looked all

theorem flushEvent_turn (picked : IOSana2Req → Bool) (error : IoError) (n : Addr)
    (kept rest : List Addr) (formed : Formed lists m nodes)
    (placed : nodes .events = kept ++ n :: rest) :
    ∃ m', ExecHeap.flushEventTurn lists picked error (m, n) =
        .inl (m', firstOr rest (lists .events).tail) ∧
      if picked (m.reqs n) then
        Formed lists m' (sendTo (m.replyPort n) n (Function.update nodes .events (kept ++ rest))) ∧
          Flushes error [] [n] m m'
      else Formed lists m' nodes ∧ Flushes error [] [] m m' := by
  obtain ⟨next, formed', looked⟩ := turn_next formed .events n kept rest placed error
  have queued : n ∈ nodes .events := by simp [placed]
  have linked : Linked lists nodes n := linked_mem _ n queued
  have alive := formed.live n linked
  have succ : (m.touch [n]).links.succ n = some (firstOr rest (lists .events).tail) := next
  cases choice : picked (m.reqs n) with
  | false =>
      refine ⟨(m.touch [n]).touch [n], ?_, formed', looked⟩
      have same : picked (((m.touch [n]).touch [n]).reqs (n - mnNodeOffset)) = false := choice
      simp only [ExecHeap.flushEventTurn, succ, same, Bool.false_eq_true, if_false]
  | true =>
      have removed := formed_remove formed' .events n kept rest placed
      have left : ∀ x, Linked lists (Function.update nodes .events (kept ++ rest)) x →
          Linked lists nodes x ∧ x ≠ n := fun x =>
        linked_removed lists m.links nodes .events n x kept rest formed.arranged placed
      have alive' : .free n ∉ (((m.touch [n]).touch [n]).remove n).log := by
        simpa [ExecHeap.remove] using alive
      refine ⟨((((m.touch [n]).touch [n]).remove n).finish n error).replyMsg lists n, ?_, ?_, ?_⟩
      · have same : picked (((m.touch [n]).touch [n]).reqs (n - mnNodeOffset)) = true := choice
        simp only [ExecHeap.flushEventTurn, succ, same, if_true]
        rfl
      · apply formed_reply (formed_finish removed n error) n
        · exact fun still => (left n still).2 rfl
        · exact (ExecHeap.free_mem_touch _ _ _).not.mpr alive'
        · intro w member same
          have same : m.ioreq w = n := same
          have old : w ∈ readNodes nodes := by
            obtain ⟨c, here⟩ := (readNodes_mem _ w).mp member
            rw [Function.update_of_ne (by simp)] at here
            exact (readNodes_mem nodes w).mpr ⟨c, here⟩
          exact (formed.unlinked w old).1 (same ▸ linked)
      · have one := flushes_remove error formed' .events n kept rest placed
        have two := flushes_reply error removed n alive'
        have both := flushes_trans error [] [] [] [n] _ _ _ one two
        exact flushes_trans error [] [] [] [n] _ _ _ looked both

/-- A loop over a list of the unit's, given what each of its turns keeps. -/
theorem walk_done (turn : ExecHeap × Addr → (ExecHeap × Addr) ⊕ ExecHeap) (q : ListName)
    (error : IoError) (formed : Formed lists m nodes)
    (after : List Addr → List Addr → ListName → List Addr)
    (wrappers : List Addr → List Addr) (ids : List Addr → List ReqId)
    (start : after [] (nodes q) = nodes ∧ wrappers [] = [] ∧ ids [] = [])
    (holds : ∀ visited rest, ∃ kept, after visited rest q = kept ++ rest)
    (turns : ∀ s visited n rest, Formed lists s (after visited (n :: rest)) →
      Flushes error (wrappers visited) (ids visited) m s →
      ∃ t, turn (s, n) = .inl (t, firstOr rest (lists q).tail) ∧
        Formed lists t (after (visited ++ [n]) rest) ∧
        Flushes error (wrappers (visited ++ [n])) (ids (visited ++ [n])) m t)
    (ends : ∀ s n, s.links.succ n = none → turn (s, n) = .inr (s.touch [n])) :
    ∃ m', (∀ fuel, (nodes q).length < fuel → ExecHeap.walk lists turn q fuel m = some m') ∧
      Formed lists m' (after (nodes q) []) ∧
      Flushes error (wrappers (nodes q)) (ids (nodes q)) m m' := by
  have first := chain_first _ _ _ _ (formed.arranged.chain q)
  have head : Linked lists nodes (lists q).head := ⟨q, List.mem_cons_self⟩
  have begins : Formed lists (m.touch [(lists q).head]) (after [] (nodes q)) := by
    rw [start.1]
    exact formed_touch formed _
  have none : Flushes error (wrappers []) (ids []) m (m.touch [(lists q).head]) := by
    rw [start.2.1, start.2.2]
    exact flushes_touch error _ (by simpa using formed.live _ head)
  obtain ⟨m', finishes, right⟩ := walk_rule (fun s : ExecHeap => s.links) (lists q).head
    (lists q).tail turn
    (fun s visited rest => visited ++ rest = nodes q ∧ Formed lists s (after visited rest) ∧
      Flushes error (wrappers visited) (ids visited) m s)
    (fun s => Formed lists s (after (nodes q) []) ∧
      Flushes error (wrappers (nodes q)) (ids (nodes q)) m s)
    (fun s visited rest held => by
      obtain ⟨kept, same⟩ := holds visited rest
      exact ⟨kept, same ▸ held.2.1.arranged.chain q⟩)
    (fun s visited n rest held _ => by
      obtain ⟨all, formed', flushes⟩ := held
      obtain ⟨t, goes, formed'', flushes'⟩ := turns s visited n rest formed' flushes
      exact ⟨t, goes, by simpa using all, formed'', flushes'⟩)
    (fun s visited held => by
      obtain ⟨all, formed', flushes⟩ := held
      rw [List.append_nil] at all
      rw [← all]
      have tail : Linked lists (after visited []) (lists q).tail := ⟨q, by simp [Header.full]⟩
      have touched := flushes_touch (m := s) error [(lists q).tail] (by
        simpa using formed'.live _ tail)
      have both := flushes_trans error _ [] _ [] _ _ _ flushes touched
      rw [List.append_nil, List.append_nil] at both
      exact ⟨_, ends s _ (formed'.arranged.stop q), formed_touch formed' _, both⟩)
    (m.touch [(lists q).head]) [] (nodes q) ⟨rfl, begins, none⟩
  refine ⟨m', fun fuel enough => ?_, right⟩
  rw [ExecHeap.walk, first, Option.bind_some]
  exact finishes fuel enough

theorem flushReadList_done (error : IoError) (c : ReadClass) (formed : Formed lists m nodes) :
    ∃ m', (∀ fuel, (nodes (.reads c)).length < fuel →
        ExecHeap.flushReadList lists error c fuel m = some m') ∧
      Formed lists m' (sendAll m.replyPort ((nodes (.reads c)).map m.ioreq)
        (Function.update nodes (.reads c) [])) ∧
      Flushes error (nodes (.reads c)) ((nodes (.reads c)).map m.ioreq) m m' := by
  have own : ∀ p, ListName.reads c ≠ .port p := fun p => ListName.noConfusion
  have list : ∀ visited rest : List Addr,
      sendAll m.replyPort (visited.map m.ioreq) (Function.update nodes (.reads c) rest) (.reads c) =
        rest := by
    intro visited rest
    rw [sendAll_own _ _ _ _ own, Function.update_self]
  apply walk_done (ExecHeap.flushReadTurn lists error) (.reads c) error formed
    (fun visited rest => sendAll m.replyPort (visited.map m.ioreq)
      (Function.update nodes (.reads c) rest)) id (fun visited => visited.map m.ioreq)
  · exact ⟨by rw [List.map_nil, sendAll_nil, Function.update_eq_self], rfl, rfl⟩
  · exact fun visited rest => ⟨[], list visited rest⟩
  · intro s visited n rest formed' flushes
    obtain ⟨t, goes, formed'', flushes'⟩ :=
      flushRead_turn error c n rest formed' (list visited (n :: rest))
    refine ⟨t, goes, ?_, ?_⟩
    · rw [flushes.ioreq, flushes.replyPort, update_sendAll _ _ _ _ own, Function.update_idem,
        ← sendAll_snoc] at formed''
      rw [List.map_append]
      exact formed''
    · rw [flushes.ioreq] at flushes'
      rw [List.map_append]
      exact flushes_trans error _ _ _ _ _ _ _ flushes flushes'
  · intro s n stop
    have stop : (s.touch [n]).links.succ n = none := stop
    simp only [ExecHeap.flushReadTurn, stop]

theorem flushEvents_done (picked : IOSana2Req → Bool) (error : IoError)
    (same : ∀ q, picked (flushed error q) = picked q) (formed : Formed lists m nodes) :
    ∃ m', (∀ fuel, (nodes .events).length < fuel →
        ExecHeap.walk lists (ExecHeap.flushEventTurn lists picked error) .events fuel m =
          some m') ∧
      Formed lists m' (sendAll m.replyPort ((nodes .events).filter fun r => picked (m.reqs r))
        (Function.update nodes .events ((nodes .events).filter fun r => !picked (m.reqs r)))) ∧
      Flushes error [] ((nodes .events).filter fun r => picked (m.reqs r)) m m' := by
  have own : ∀ p, ListName.events ≠ .port p := fun p => ListName.noConfusion
  have list : ∀ visited rest : List Addr,
      sendAll m.replyPort (visited.filter fun r => picked (m.reqs r)) (Function.update nodes .events
        ((visited.filter fun r => !picked (m.reqs r)) ++ rest)) .events =
        (visited.filter fun r => !picked (m.reqs r)) ++ rest := by
    intro visited rest
    rw [sendAll_own _ _ _ _ own, Function.update_self]
  have done := walk_done (ExecHeap.flushEventTurn lists picked error) .events error formed
    (fun visited rest => sendAll m.replyPort (visited.filter fun r => picked (m.reqs r))
      (Function.update nodes .events ((visited.filter fun r => !picked (m.reqs r)) ++ rest)))
    (fun _ => []) (fun visited => visited.filter fun r => picked (m.reqs r))
    ⟨by simp [sendAll_nil], rfl, rfl⟩ (fun visited rest => ⟨_, list visited rest⟩) ?_ ?_
  · simpa only [List.append_nil] using done
  · intro s visited n rest formed' flushes
    obtain ⟨t, goes, choice⟩ := flushEvent_turn picked error n _ rest formed' (list visited (n :: rest))
    -- A request that was replied is picked as before.
    have now : picked (s.reqs n) = picked (m.reqs n) := by
      rw [flushes.reqs]
      split
      · exact same _
      · rfl
    refine ⟨t, goes, ?_⟩
    rw [now] at choice
    cases taken : picked (m.reqs n) with
    | false =>
        rw [taken, if_neg Bool.false_ne_true] at choice
        simp only [List.filter_append, List.filter_cons, taken, List.filter_nil, Bool.not_false,
          Bool.false_eq_true, if_false, if_true, List.append_nil, List.append_assoc,
          List.cons_append, List.nil_append]
        have both := flushes_trans error [] [] _ [] _ _ _ flushes choice.2
        exact ⟨choice.1, by simpa only [List.append_nil] using both⟩
    | true =>
        rw [taken, if_pos rfl] at choice
        obtain ⟨formed'', flushes'⟩ := choice
        rw [flushes.replyPort, update_sendAll _ _ _ _ own, Function.update_idem, ← sendAll_snoc]
          at formed''
        simp only [List.filter_append, List.filter_cons, taken, List.filter_nil, Bool.not_true,
          Bool.false_eq_true, if_false, if_true, List.append_nil]
        exact ⟨formed'', flushes_trans error [] [] _ _ _ _ _ flushes flushes'⟩
  · intro s n stop
    have stop : (s.touch [n]).links.succ n = none := stop
    simp only [ExecHeap.flushEventTurn, stop]

/-- The orphan reads of the event list, and all that `PA6TEth_FlushReadQueue` replies. -/
def orphanReads (m : ExecHeap) (nodes : ListName → List Addr) : List ReqId :=
  (nodes .events).filter fun r => (m.reqs r).command = .readOrphan

def flushedReads (m : ExecHeap) (nodes : ListName → List Addr) : List ReqId :=
  (readNodes nodes).map m.ioreq ++ orphanReads m nodes

def flushedLists (m : ExecHeap) (nodes : ListName → List Addr) : ListName → List Addr
  | .reads _ => []
  | .events => (nodes .events).filter fun r => !decide ((m.reqs r).command = .readOrphan)
  | .port p => nodes (.port p) ++ (flushedReads m nodes).filter fun r => m.replyPort r = some p

def longest (nodes : ListName → List Addr) : Nat :=
  max (max (nodes (.reads .ipv4)).length (nodes (.reads .arp)).length)
    (max (nodes (.reads .other)).length (nodes .events).length)

theorem flushReadQueue_done (error : IoError) (formed : Formed lists m nodes) :
    ∃ m', (∀ fuel, longest nodes < fuel → ExecHeap.flushReadQueue lists error fuel m = some m') ∧
      Formed lists m' (flushedLists m nodes) ∧
      Flushes error (readNodes nodes) (flushedReads m nodes) m m' := by
  obtain ⟨m₁, ends₁, formed₁, flushes₁⟩ := flushReadList_done error .ipv4 formed
  obtain ⟨m₂, ends₂, formed₂, flushes₂⟩ := flushReadList_done error .arp formed₁
  obtain ⟨m₃, ends₃, formed₃, flushes₃⟩ := flushReadList_done error .other formed₂
  obtain ⟨m₄, ends₄, formed₄, flushes₄⟩ := flushEvents_done (fun q => q.command = .readOrphan) error
    (fun _ => rfl) formed₃
  have reads := flushes_trans error _ _ _ _ _ _ _ flushes₁
    (flushes_trans error _ _ _ _ _ _ _ flushes₂ flushes₃)
  -- The walk over the event list finds the commands as they were.
  have command : ∀ r, (m₃.reqs r).command = (m.reqs r).command := by
    intro r
    rw [reads.reqs]
    split <;> rfl
  have ports₂ : m₂.ioreq = m.ioreq ∧ m₂.replyPort = m.replyPort :=
    ⟨flushes₂.ioreq.trans flushes₁.ioreq, flushes₂.replyPort.trans flushes₁.replyPort⟩
  have events : (nodes .events).filter (fun r => (m₃.reqs r).command = .readOrphan) =
      orphanReads m nodes := by
    simp only [command, orphanReads]
  have ids : (nodes (.reads .ipv4)).map m.ioreq ++ ((nodes (.reads .arp)).map m₁.ioreq ++
      (nodes (.reads .other)).map m₂.ioreq) = (readNodes nodes).map m.ioreq := by
    rw [flushes₁.ioreq, ports₂.1, readNodes, List.map_append, List.map_append]
  refine ⟨m₄, fun fuel enough => ?_, ?_, ?_⟩
  · simp only [longest, Nat.max_lt] at enough
    obtain ⟨⟨first, second⟩, third, fourth⟩ := enough
    rw [ExecHeap.flushReadQueue, ends₁ fuel first, Option.bind_some, ends₂ fuel second,
      Option.bind_some, ends₃ fuel third, Option.bind_some]
    exact ends₄ fuel fourth
  · convert formed₄ using 1
    funext q
    cases q with
    | reads c => cases c <;> rfl
    | events =>
        simp only [flushedLists, sendAll, Function.update_self, command]
        rfl
    | port p =>
        simp only [flushedLists, sendAll, flushedReads, ← ids, ← events, List.filter_append,
          reads.replyPort, flushes₁.replyPort, ports₂.2]
        simp only [sendAll, ne_eq, reduceCtorEq, ListName.reads.injEq, not_false_eq_true,
          Function.update_of_ne, List.append_assoc]
  · have all := flushes_trans error _ _ _ _ _ _ _ reads flushes₄
    convert all using 1
    · simp [readNodes, sendAll]
    · rw [flushedReads, ← events, ← ids]
      rfl

end

/-- A flush from one world to another, in the terms of `Flushes`. -/
structure FlushedWorld (error : IoError) (wrappers : List Addr) (ids : List ReqId) (w w' : World) :
    Prop where
  asked : w'.asked = w.asked
  reqs : ∀ r, w'.reqs r = if r ∈ ids then flushed error (w.reqs r) else w.reqs r
  answers : w'.answers = (ids.map fun r =>
    (r, Answer.replied .flush (w.asked r) (flushed error (w.reqs r)))).reverse ++ w.answers
  freed : w'.freed = wrappers.reverse ++ w.freed

theorem flushedWorld_refl (error : IoError) (w : World) : FlushedWorld error [] [] w w :=
  ⟨rfl, fun _ => by simp, rfl, rfl⟩

theorem flushedWorld_trans (error : IoError) (first second : List Addr) (ids more : List ReqId)
    (w v x : World) (one : FlushedWorld error first ids w v)
    (two : FlushedWorld error second more v x) :
    FlushedWorld error (first ++ second) (ids ++ more) w x where
  asked := two.asked.trans one.asked
  reqs := by
    intro r
    rw [two.reqs, one.reqs]
    by_cases early : r ∈ ids
    · simp [early, flushed_twice]
    · simp [early]
  answers := by
    have same : (more.map fun r => (r, Answer.replied .flush (v.asked r) (flushed error (v.reqs r)))) =
        more.map fun r => (r, Answer.replied .flush (w.asked r) (flushed error (w.reqs r))) := by
      refine List.map_congr_left fun r _ => ?_
      rw [one.asked, one.reqs]
      split
      · rw [flushed_twice]
      · rfl
    rw [two.answers, one.answers, same, List.map_append, List.reverse_append, List.append_assoc]
  freed := by rw [two.freed, one.freed, List.reverse_append, List.append_assoc]

theorem flushedWorld_reply (error : IoError) (w : World) (r : ReqId) :
    FlushedWorld error [] [r] w (w.replyMsg r (flushed error (w.reqs r)) .flush) where
  asked := rfl
  reqs := by
    intro x
    by_cases here : x = r
    · subst here
      simp [replyMsg]
    · simp [replyMsg, here]
  answers := rfl
  freed := rfl

theorem flushRead_world (error : IoError) (c : ReadClass) (w : World) :
    FlushedWorld error ((w.unit.readList c).map PendingRead.node)
      ((w.unit.readList c).map PendingRead.ioreq) w (flushRead error c w) := by
  have walk : ∀ (list : List PendingRead) (w : World), FlushedWorld error
      (list.map PendingRead.node) (list.map PendingRead.ioreq) w
      (World.flushReadList error list w) := by
    intro list
    induction list with
    | nil => exact flushedWorld_refl error
    | cons pr rest ih =>
        intro w
        have freed : FlushedWorld error [pr.node] [] w { w with freed := pr.node :: w.freed } :=
          ⟨rfl, fun _ => by simp, rfl, rfl⟩
        have replied := flushedWorld_reply error { w with freed := pr.node :: w.freed } pr.ioreq
        have first := flushedWorld_trans error [pr.node] [] [] [pr.ioreq] _ _ _ freed replied
        exact flushedWorld_trans error [pr.node] _ [pr.ioreq] _ _ _ _ first (ih _)
  have done := walk (w.unit.readList c) w
  exact ⟨done.asked, done.reqs, done.answers, done.freed⟩

theorem sweepEvents_world (picked : IOSana2Req → Bool) (error : IoError) (w : World)
    (same : ∀ q, picked (flushed error q) = picked q) :
    FlushedWorld error [] (w.unit.eventList.filter fun r => picked (w.reqs r)) w
      (sweepEvents picked (flushed error) .flush w) := by
  have walk : ∀ (list : List ReqId) (w : World), FlushedWorld error []
      (list.filter fun r => picked (w.reqs r)) w
      (sweep picked (flushed error) .flush list w).1 := by
    intro list
    induction list with
    | nil => exact flushedWorld_refl error
    | cons r rest ih =>
        intro w
        cases choice : picked (w.reqs r) with
        | false =>
            simp only [sweep, choice, List.filter_cons, Bool.false_eq_true, if_false]
            exact ih w
        | true =>
            have replied := flushedWorld_reply error w r
            have now : ∀ x, picked ((w.replyMsg r (flushed error (w.reqs r)) .flush).reqs x) =
                picked (w.reqs x) := by
              intro x
              rw [replied.reqs]
              split
              · exact same _
              · rfl
            have later := ih (w.replyMsg r (flushed error (w.reqs r)) .flush)
            simp only [now] at later
            simp only [sweep, choice, List.filter_cons, if_true]
            exact flushedWorld_trans error [] [] [r] _ _ _ _ replied later
  have done := walk w.unit.eventList w
  exact ⟨done.asked, done.reqs, done.answers, done.freed⟩

structure Shows (m : ExecHeap) (nodes : ListName → List Addr) (w : World) : Prop where
  reads : ∀ c, nodes (.reads c) = (w.unit.readList c).map PendingRead.node
  wrappers : ∀ c, ∀ pr ∈ w.unit.readList c, m.ioreq pr.node = pr.ioreq
  events : nodes .events = w.unit.eventList
  reqs : m.reqs = w.reqs

/-- The loops on the nodes make the same replies, in the same order, as the step of the unit task,
and leave the same lists. -/
theorem flush_shows (lists : ListName → Header Addr) (m : ExecHeap) (nodes : ListName → List Addr)
    (error : IoError) (w : World) (formed : Formed lists m nodes) (shows : Shows m nodes w) :
    ∃ m', (∀ fuel, longest nodes < fuel → ExecHeap.flushReadQueue lists error fuel m = some m') ∧
      Shows m' (flushedLists m nodes) (w.flushReadQueue error) ∧
      FlushedWorld error (readNodes nodes) (flushedReads m nodes) w (w.flushReadQueue error) := by
  obtain ⟨m', ends, _, flushes⟩ := flushReadQueue_done error formed
  have one := flushRead_world error .ipv4 w
  have two := flushRead_world error .arp (flushRead error .ipv4 w)
  have three := flushRead_world error .other (flushRead error .arp (flushRead error .ipv4 w))
  have four := sweepEvents_world (fun q => q.command = .readOrphan) error
    (flushRead error .other (flushRead error .arp (flushRead error .ipv4 w))) fun _ => rfl
  -- No walk changes the lists of the later ones.
  have wrapper : ∀ c, (w.unit.readList c).map PendingRead.ioreq = (nodes (.reads c)).map m.ioreq := by
    intro c
    rw [shows.reads, List.map_map]
    exact List.map_congr_left fun pr member => (shows.wrappers c pr member).symm
  have arp : (flushRead error .ipv4 w).unit.readList .arp = w.unit.readList .arp := by
    simp [flushRead_unit]
  have other : (flushRead error .arp (flushRead error .ipv4 w)).unit.readList .other =
      w.unit.readList .other := by
    simp [flushRead_unit]
  have orphans : (flushRead error .other (flushRead error .arp
      (flushRead error .ipv4 w))).unit.eventList.filter (fun r => ((flushRead error .other
        (flushRead error .arp (flushRead error .ipv4 w))).reqs r).command = .readOrphan) =
      orphanReads m nodes := by
    simp only [flushRead_unit, PA6TEthUnit.setReadList_eventList, flushRead_command, orphanReads,
      shows.events, shows.reqs]
  rw [← shows.reads, wrapper] at one
  rw [arp, ← shows.reads, wrapper] at two
  rw [other, ← shows.reads, wrapper] at three
  rw [orphans] at four
  have reads := flushedWorld_trans error _ _ _ _ _ _ _ one
    (flushedWorld_trans error _ _ _ _ _ _ _ two three)
  have all := flushedWorld_trans error _ _ _ _ _ _ _ reads four
  have done : FlushedWorld error (readNodes nodes) (flushedReads m nodes) w
      (w.flushReadQueue error) := by
    rw [List.append_nil] at all
    rw [flushedReads, readNodes, List.map_append, List.map_append]
    exact all
  refine ⟨m', ends, ⟨fun c => ?_, fun c pr member => ?_, ?_, ?_⟩, done⟩
  · rw [flushReadQueue_reads]
    rfl
  · rw [flushReadQueue_reads] at member
    cases member
  · rw [World.flushReadQueue, sweepEvents_unit]
    simp only [flushRead_unit, PA6TEthUnit.setReadList_eventList]
    rw [sweep_filter (fun q => decide (q.command = .readOrphan)) (flushed error) .flush fun _ => rfl]
    simp only [flushRead_command, flushedLists, shows.events, shows.reqs]
  · funext r
    rw [flushes.reqs, done.reqs, shows.reqs]

section

variable {lists : ListName → Header Addr} {m : ExecHeap} {nodes : ListName → List Addr}

theorem nodes_nodup (formed : Formed lists m nodes) (q : ListName) : (nodes q).Nodup := by
  have distinct := (List.nodup_cons.mp (formed.arranged.distinct q)).2
  exact (List.nodup_append.mp distinct).1

theorem flushedReads_nodup (formed : Formed lists m nodes) :
    (readNodes nodes).Nodup ∧ (flushedReads m nodes).Nodup := by
  refine ⟨formed.once.of_map, ?_⟩
  rw [flushedReads, List.nodup_append]
  refine ⟨formed.once, (nodes_nodup formed .events).filter _, ?_⟩
  rintro r waiting r' orphan rfl
  obtain ⟨w, wrapper, rfl⟩ := List.mem_map.mp waiting
  apply (formed.unlinked w wrapper).1
  exact linked_mem .events _ (List.mem_of_mem_filter orphan)

end

/-- For lists of any contents `PA6TEth_FlushReadQueue` ends with the read lists empty and with the
other entries of the event list in their order. It replies each removed request once, in the order
of the lists, frees each wrapper once and touches none that is freed. `PA6TEth_FlushAllPending`
does this too, and then replies all that is in the event list when its second section begins. -/
theorem flush_complete (lists : ListName → Header Addr) (m : ExecHeap)
    (nodes : ListName → List Addr) (formed : Formed lists m nodes) (safe : NoUseAfterFree m.log) :
    (∀ error, ∃ m' left,
      (∀ fuel, longest nodes < fuel → ExecHeap.flushReadQueue lists error fuel m = some m') ∧
      Formed lists m' left ∧ (∀ c, left (.reads c) = []) ∧
      left .events = ((nodes .events).filter fun r => !decide ((m.reqs r).command = .readOrphan)) ∧
      m'.replies = m.replies ++ (flushedReads m nodes).map
        (fun r => (r, { m.reqs r with error := error, wireError := s2werrGenericError })) ∧
      (flushedReads m nodes).Nodup ∧ m'.frees = m.frees ++ readNodes nodes ∧
      (readNodes nodes).Nodup ∧ NoUseAfterFree m'.log) ∧
    ∃ m₁, (∀ fuel, longest nodes < fuel →
        ExecHeap.flushReadQueue lists .aborted fuel m = some m₁) ∧
      Formed lists m₁ (flushedLists m nodes) ∧ NoUseAfterFree m₁.log ∧
      ∀ others now, Formed lists (others m₁) now → NoUseAfterFree (others m₁).log →
        ∃ m₂ left,
          (∀ fuel, longest nodes < fuel → (now .events).length < fuel →
            ExecHeap.flushAllPending lists others fuel m = some m₂) ∧
          Formed lists m₂ left ∧ left .events = [] ∧ (∀ c, left (.reads c) = now (.reads c)) ∧
          m₂.replies = (others m₁).replies ++ (now .events).map
            (fun r => (r, { (others m₁).reqs r with
              error := .aborted, wireError := s2werrGenericError })) ∧
          (now .events).Nodup ∧ m₂.frees = (others m₁).frees ∧ NoUseAfterFree m₂.log := by
  obtain ⟨wrappers, once⟩ := flushedReads_nodup formed
  constructor
  · intro error
    obtain ⟨m', ends, formed', flushes⟩ := flushReadQueue_done error formed
    exact ⟨m', _, ends, formed', fun c => rfl, rfl, flushes.replies, once, flushes.frees, wrappers,
      flushes.safe safe⟩
  · obtain ⟨m₁, ends₁, formed₁, flushes₁⟩ := flushReadQueue_done .aborted formed
    refine ⟨m₁, ends₁, formed₁, flushes₁.safe safe, ?_⟩
    intro others now formed' safe'
    obtain ⟨m₂, ends₂, formed₂, flushes₂⟩ := flushEvents_done (fun _ => true) .aborted
      (fun _ => rfl) formed'
    simp only [Bool.not_true, List.filter_false, List.filter_true] at formed₂ flushes₂
    refine ⟨m₂, _, ?_, formed₂, ?_, ?_, flushes₂.replies, nodes_nodup formed' .events, ?_,
      flushes₂.safe safe'⟩
    · intro fuel enough more
      rw [ExecHeap.flushAllPending, ends₁ fuel enough, Option.bind_some]
      exact ends₂ fuel more
    · rw [sendAll_own _ _ _ _ fun p => ListName.noConfusion, Function.update_self]
    · intro c
      rw [sendAll_own _ _ _ _ fun p => ListName.noConfusion, Function.update_of_ne (by simp)]
    · rw [flushes₂.frees, List.append_nil]

/-- A number for each list, for headers that lie apart from each other. -/
def listIndex : ListName → Nat
  | .reads .ipv4 => 0
  | .reads .arp => 1
  | .reads .other => 2
  | .events => 3
  | .port p => Nat.add p 4

theorem listIndex_injective : Function.Injective listIndex := by
  intro q q' same
  cases q with
  | reads c =>
      cases q' with
      | reads c' => cases c <;> cases c' <;> simp [listIndex] at same ⊢
      | events => cases c <;> simp [listIndex] at same
      | port p => cases c <;> simp [listIndex] at same
  | events =>
      cases q' with
      | reads c => cases c <;> simp [listIndex] at same
      | events => rfl
      | port p => simp [listIndex] at same
  | port p =>
      cases q' with
      | reads c => cases c <;> simp [listIndex] at same
      | events => simp [listIndex] at same
      | port p' => exact congrArg ListName.port (Nat.add_right_cancel same)

def exampleLists (q : ListName) : Header Addr := ⟨4 * listIndex q, 4 * listIndex q + 1⟩

theorem exampleLists_full (q : ListName) (nodes : List Addr) (n : Nat)
    (member : n ∈ (exampleLists q).full nodes) : n ∈ nodes ∨ n / 4 = listIndex q ∧ n % 4 < 2 := by
  simp only [Header.full, exampleLists, List.mem_cons, List.mem_append, List.not_mem_nil, or_false]
    at member
  rcases member with rfl | inside | rfl
  · right
    omega
  · exact .inl inside
  · right
    omega

def emptyLinks : Links Addr where
  succ := fun n : Nat => if n % 4 = 0 then some (n + 1) else none
  pred := fun n : Nat => if n % 4 = 1 then some (n - 1) else none

theorem emptyLinks_arranged : Arranged exampleLists emptyLinks fun _ => [] where
  chain := by
    intro q
    constructor
    · exact if_pos (Nat.mul_mod_right 4 _)
    · exact if_pos (Nat.mul_add_mod 4 _ 1)
  stop := by
    intro q
    have odd : (4 * listIndex q + 1) % 4 ≠ 0 := by omega
    exact if_neg odd
  distinct := by simp [Header.full, exampleLists]
  apart := by
    intro q q' different n here there
    apply different
    apply listIndex_injective
    rcases exampleLists_full q [] n here with inside | first
    · cases inside
    · rcases exampleLists_full q' [] n there with inside | second
      · cases inside
      · exact first.1.symm.trans second.1

theorem arranged_node (l : Links Addr) (nodes : ListName → List Addr) (q : ListName) (n : Nat)
    (arranged : Arranged exampleLists l nodes) (beside : n % 4 = 2) (fresh : ∀ q', n ∉ nodes q') :
    Arranged exampleLists (l.addTail (exampleLists q) n)
      (Function.update nodes q (nodes q ++ [n])) := by
  apply arranged_addTail exampleLists l nodes q n arranged
  rintro ⟨q', member⟩
  rcases exampleLists_full q' _ n member with inside | header
  · exact fresh q' inside
  · omega

/-- An IPv4 read, and an entry for an event before an orphan read; all clients use one port. -/
def exampleHeap : ExecHeap where
  links := ((emptyLinks.addTail (exampleLists (.reads .ipv4)) 2).addTail (exampleLists .events)
    10).addTail (exampleLists .events) 14
  ioreq := fun _ => 6
  reqs := fun r =>
    ⟨if r = 6 then .cmdRead else if r = 10 then .onEvent else .readOrphan, 0#8, .ok, 0#32, 0#32,
      fun _ => 0, fun _ => 0, 0#32, 0, 0, 0⟩
  replyPort := fun _ => some 0
  log := []

def exampleNodes : ListName → List Addr
  | .reads .ipv4 => [2]
  | .events => [10, 14]
  | _ => []

theorem exampleHeap_formed : Formed exampleLists exampleHeap exampleNodes where
  arranged := by
    have one := arranged_node emptyLinks (fun _ => []) (.reads .ipv4) 2 emptyLinks_arranged rfl
      (fun _ => List.not_mem_nil)
    have two := arranged_node _ _ .events 10 one rfl (by
      intro q'
      by_cases here : q' = .reads .ipv4
      · simp [here]
      · simp [here])
    have three := arranged_node _ _ .events 14 two rfl (by
      intro q'
      by_cases here : q' = .events
      · simp [here]
      · by_cases read : q' = .reads .ipv4
        · simp [read]
        · simp [here, read])
    have same : exampleNodes = Function.update (Function.update (Function.update (fun _ => [])
        (.reads .ipv4) [2]) .events [10]) .events [10, 14] := by
      funext q
      cases q with
      | reads c => cases c <;> rfl
      | _ => rfl
    rw [same]
    exact three
  live := fun _ _ freed => by cases freed
  unlinked := by
    intro n _
    refine ⟨?_, fun freed => by cases freed⟩
    rintro ⟨q, member⟩
    rcases exampleLists_full q _ 6 member with inside | header
    · cases q with
      | reads c => cases c <;> simp [exampleNodes] at inside
      | _ => simp [exampleNodes] at inside
    · exact absurd header.2 (by decide)
  once := by decide

/-- The first section replies the read and the orphan read, and the second the entry for the
event. -/
theorem flush_complete_mixed :
    ∃ m₁ m₂ : ExecHeap,
      (∀ fuel, 2 < fuel →
        ExecHeap.flushReadQueue exampleLists .aborted fuel exampleHeap = some m₁) ∧
      m₁.replies.map Prod.fst = [6, 14] ∧ m₁.frees = [2] ∧ NoUseAfterFree m₁.log ∧
      (∀ fuel, 2 < fuel → ExecHeap.flushAllPending exampleLists id fuel exampleHeap = some m₂) ∧
      m₂.replies.map Prod.fst = [6, 14, 10] := by
  obtain ⟨queue, m₁, ends, formed, safe, onward⟩ := flush_complete exampleLists exampleHeap exampleNodes
    exampleHeap_formed trivial
  obtain ⟨m', _, ends', _, _, _, replies, _, frees, _, _⟩ := queue .aborted
  obtain rfl : m' = m₁ := Option.some.inj ((ends' 3 (by decide)).symm.trans (ends 3 (by decide)))
  obtain ⟨m₂, _, all, _, _, _, replies', _⟩ := onward id _ formed safe
  have first : m'.replies.map Prod.fst = [6, 14] := by
    rw [replies]
    decide
  refine ⟨m', m₂, ends, first, frees, safe, ?_, ?_⟩
  · intro fuel enough
    exact all fuel enough (Nat.lt_trans (by decide) enough)
  · rw [replies', List.map_append, id_eq, first]
    rfl

end Pa6tEth

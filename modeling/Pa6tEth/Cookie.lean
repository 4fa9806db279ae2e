import Pa6tEth.Calls
import Pa6tEth.Delivery
import Pa6tEth.Offline
import Pa6tEth.Transmit

/-! The client's buffer cookie: `BeginIO` moves it from `ios2_Data` to `ios2_StatData`, and the
places that complete a request put it back, or do not. -/

namespace Pa6tEth

open Support World

/-- The commands whose `ios2_Data` is a buffer cookie. -/
def Command.hasCookie : Command → Bool
  | .cmdRead => true
  | .readOrphan => true
  | .cmdWrite => true
  | .broadcast => true
  | .multicast => true
  | _ => false

/-- A request with a cookie was completed with the `ios2_Data` of its submission. -/
def Answer.KeepsCookie : Answer → Prop
  | .returned asked done => asked.command.hasCookie = true → done.data = asked.data
  | .replied _ asked done => asked.command.hasCookie = true → done.data = asked.data

/-- `ios2_Data` of a request is the client's now. -/
def CookieBack (w : World) (r : ReqId) : Prop :=
  (w.asked r).command.hasCookie = true → (w.reqs r).data = (w.asked r).data

namespace Call

def completing : Call → List ReqId
  | replying r _ _ _ => [r]
  | abortReply r => [r]
  | _ => []

end Call

/-- Every completed request has its cookie, and so has every request that a call is about to
complete. -/
structure CookiesKept (s : Driver) : Prop where
  answers : ∀ a ∈ s.world.answers, a.2.KeepsCookie
  due : ∀ c ∈ s.calls, ∀ r ∈ c.completing, CookieBack s.world r

/-- `TransmitPacket` returns before it has looked up the cookie. -/
def earlyExit (e : TxEnv) (w : World) (r : ReqId) : Bool :=
  w.unit.tx.txRingPtr == 0 || decide (txFrameLen (w.reqs r).dataLength > ethMaxFrame) || e.buf == 0

/-- Every orphan read of the event list has its own address as its cookie. -/
def orphansOwn (w : World) : Bool :=
  w.unit.eventList.all fun r => (w.asked r).command != .readOrphan || (w.asked r).data == r

def readsOwn (w : World) (c : ReadClass) : Bool :=
  (w.unit.readList c).all fun pr => (w.asked pr.ioreq).data == pr.ioreq

def readersOwn (w : World) : Bool :=
  readsOwn w .ipv4 && readsOwn w .arp && readsOwn w .other && orphansOwn w

def callSafe (e : CallEnv) (w : World) : Call → Bool
  | .transmitting r => !earlyExit e.tx w r || (w.asked r).data == r
  | .abortReads r => (findRead w.unit r).isNone || (w.asked r).data == r
  | .abortEvents r =>
      !(decide (r ∈ w.unit.eventList) && (w.asked r).command == .readOrphan) ||
        (w.asked r).data == r
  | _ => true

def taskSafe (w : World) : TaskPc → Bool
  | .handling _ (.flushReadQueue _ :: _) _ => readersOwn w
  | .exitFlush => readersOwn w
  | .exitFlushEvents => orphansOwn w
  | _ => true

/-- The step unlinks no queued read, and `TransmitPacket` does not take an early exit. -/
def cookieSafe (s : Driver) : Action → Bool
  | .call i e => ((s.calls[i]?).map (callSafe e s.world)).getD true
  | .task i _ => ((s.tasks[i]?).map (taskSafe s.world)).getD true
  | _ => true

/-- The requests in the lists have their own addresses in `ios2_Data`; those in the port have no
cookie. -/
structure QueueCookies (w : World) : Prop where
  reads : ∀ c, ∀ pr ∈ w.unit.readList c, (w.reqs pr.ioreq).data = pr.ioreq
  orphans : ∀ r ∈ w.unit.eventList, (w.asked r).command = .readOrphan → (w.reqs r).data = r
  port : ∀ r ∈ w.unit.ioPort.getD [], (w.asked r).command.hasCookie = false

namespace Call

def Saved (w : World) : Call → Prop
  | queueing r => (w.asked r).command.hasCookie = false
  | addingRead pr _ => (w.reqs pr.ioreq).data = pr.ioreq
  | addingEvent r => (w.asked r).command = .readOrphan → (w.reqs r).data = r
  | transmitting r => (w.asked r).command.hasCookie = true ∧ (w.reqs r).data = r ∧
      (w.reqs r).statData = (w.asked r).data
  | submitting r _ => (w.reqs r).data = (w.asked r).data
  | _ => True

end Call

namespace TaskPc

def fromPort : TaskPc → List ReqId
  | received r => [r]
  | handling r _ _ => [r]
  | exitReply r => [r]
  | _ => []

end TaskPc

structure Cookies (s : Driver) : Prop where
  queues : QueueCookies s.world
  calls : ∀ c ∈ s.calls, c.Saved s.world
  tasks : ∀ pc ∈ s.tasks, ∀ r ∈ pc.fromPort, (s.world.asked r).command.hasCookie = false

theorem saved_congr (w v : World) (c : Call) (asked : ∀ p ∈ c.claim, v.asked p.1 = w.asked p.1)
    (reqs : ∀ p ∈ c.claim, v.reqs p.1 = w.reqs p.1) (saved : c.Saved w) : c.Saved v := by
  cases c with
  | queueing r => simpa [Call.Saved, asked _ List.mem_cons_self] using saved
  | addingRead pr c => simpa [Call.Saved, reqs _ List.mem_cons_self] using saved
  | addingEvent r =>
      simpa [Call.Saved, asked _ List.mem_cons_self, reqs _ List.mem_cons_self] using saved
  | transmitting r =>
      simpa [Call.Saved, asked _ List.mem_cons_self, reqs _ List.mem_cons_self] using saved
  | submitting r f =>
      simpa [Call.Saved, asked _ List.mem_cons_self, reqs _ List.mem_cons_self] using saved
  | _ => trivial

theorem completing_claimed (c : Call) (r : ReqId) (completes : r ∈ c.completing) :
    ∃ p ∈ c.claim, p.1 = r := by
  cases c with
  | replying r' err werr sent => exact ⟨_, List.mem_cons_self, (List.mem_singleton.mp completes).symm⟩
  | abortReply r' => exact ⟨_, List.mem_cons_self, (List.mem_singleton.mp completes).symm⟩
  | _ => cases completes

theorem back_congr (w v : World) (r : ReqId) (asked : v.asked r = w.asked r)
    (reqs : v.reqs r = w.reqs r) : CookieBack v r ↔ CookieBack w r := by
  simp only [CookieBack, asked, reqs]

theorem stored_read (u : PA6TEthUnit) (c : ReadClass) (pr : PendingRead)
    (queued : pr ∈ u.readList c) : (pr.ioreq, Stage.reading c) ∈ stored u := by
  simp only [stored, List.mem_append, readPlaces, List.mem_map]
  cases c with
  | ipv4 => exact .inl ⟨pr, queued, rfl⟩
  | arp => exact .inr (.inl ⟨pr, queued, rfl⟩)
  | other => exact .inr (.inr (.inl ⟨pr, queued, rfl⟩))

theorem stored_waiting (u : PA6TEthUnit) (r : ReqId) (queued : r ∈ u.eventList) :
    (r, Stage.waiting) ∈ stored u := by
  simp only [stored, List.mem_append, eventPlaces, List.mem_map]
  exact .inr (.inr (.inr (.inl ⟨r, queued, rfl⟩)))

theorem stored_message (u : PA6TEthUnit) (r : ReqId) (queued : r ∈ u.ioPort.getD []) :
    (r, Stage.clear) ∈ stored u := by
  simp only [stored, List.mem_append, portPlaces, List.mem_map]
  exact .inr (.inr (.inr (.inr ⟨r, queued, rfl⟩)))

theorem queueCookies_left (w v : World) (asked : ∀ p ∈ stored v.unit, v.asked p.1 = w.asked p.1)
    (reads : ∀ c, v.unit.readList c ⊆ w.unit.readList c)
    (events : v.unit.eventList ⊆ w.unit.eventList)
    (port : v.unit.ioPort.getD [] ⊆ w.unit.ioPort.getD [])
    (reqs : ∀ p ∈ stored v.unit, v.reqs p.1 = w.reqs p.1) (held : QueueCookies w) :
    QueueCookies v := by
  refine ⟨fun c pr queued => ?_, fun r queued orphan => ?_, fun r queued => ?_⟩
  · rw [reqs _ (stored_read v.unit c pr queued)]
    exact held.reads c pr (reads c queued)
  · rw [reqs _ (stored_waiting v.unit r queued)]
    rw [asked _ (stored_waiting v.unit r queued)] at orphan
    exact held.orphans r (events queued) orphan
  · rw [asked _ (stored_message v.unit r queued)]
    exact held.port r (port queued)

theorem queueCookies_same (w v : World) (asked : v.asked = w.asked)
    (reads : ∀ c, v.unit.readList c = w.unit.readList c)
    (events : v.unit.eventList = w.unit.eventList) (port : v.unit.ioPort = w.unit.ioPort)
    (reqs : ∀ p ∈ stored w.unit, v.reqs p.1 = w.reqs p.1) (held : QueueCookies w) :
    QueueCookies v := by
  have same : stored v.unit = stored w.unit := by
    have ipv4 := reads .ipv4
    have arp := reads .arp
    have other := reads .other
    simp only [PA6TEthUnit.readList] at ipv4 arp other
    simp only [stored, ipv4, arp, other, events, port]
  refine queueCookies_left w v (fun p _ => by rw [asked]) (fun c => ?_) ?_ ?_ (same ▸ reqs) held
  · rw [reads]
    exact List.Subset.refl _
  · rw [events]
    exact List.Subset.refl _
  · rw [port]
    exact List.Subset.refl _

theorem beginIo_cookie (e : CallEnv) (w : World) (r : ReqId) (called : w.reqs r = w.asked r) :
    (beginIo e w r).2.Saved (beginIo e w r).1 ∧
      ∀ r' ∈ (beginIo e w r).2.completing, CookieBack (beginIo e w r).1 r' := by
  cases command : (w.reqs r).command with
  | sana2Hook =>
      simp only [beginIo, command]
      split <;> simp [Call.Saved, Call.completing, CookieBack, setReq, called]
  | _ =>
      have asked := called ▸ command
      simp only [beginIo, command]
      repeat' split
      all_goals simp [Call.Saved, Call.completing, CookieBack, setReq, called, asked,
        Command.hasCookie, IOSana2Req.clearQuick]

theorem earlyExit_iff (e : TxEnv) (w : World) (r : ReqId) :
    earlyExit e w r = true ↔ ¬ TxReady e w r := by
  simp only [earlyExit, Bool.or_eq_true, beq_iff_eq, decide_eq_true_eq]
  constructor
  · rintro ((ring | long) | block) ready
    · exact ready.ring ring
    · exact BitVec.not_lt.mpr ready.fits long
    · exact ready.block block
  · intro early
    by_contra late
    rw [not_or, not_or] at late
    exact early ⟨late.1.1, BitVec.not_lt.mp late.1.2, late.2⟩

theorem txBuild_early (e : TxEnv) (w : World) (r : ReqId) (early : earlyExit e w r = true) :
    ∃ err werr, txBuild e w r = .refused (w.reqs r) err werr := by
  rcases txBuild_request e w r with ⟨_, err, refused⟩ | ⟨ready, _⟩
  · exact ⟨err, _, refused⟩
  · exact absurd ready ((earlyExit_iff e w r).mp early)

theorem txBuild_late (e : TxEnv) (w : World) (r : ReqId) (late : earlyExit e w r = false) :
    (txBuild e w r).request.data = (w.reqs r).statData := by
  rcases txBuild_request e w r with ⟨early, _⟩ | ⟨_, back⟩
  · rw [(earlyExit_iff e w r).mpr early] at late
    cases late
  · rw [back]
    rfl

structure QueuesKnown (w : World) : Prop where
  cookies : QueueCookies w
  queued : ∀ p ∈ stored w.unit, p.2.promise (w.asked p.1, w.reqs p.1)

theorem known_reading (w : World) (known : QueuesKnown w) (c : ReadClass) (pr : PendingRead)
    (queued : pr ∈ w.unit.readList c) : (w.asked pr.ioreq).command.hasCookie = true := by
  have kind := (known.queued _ (stored_read w.unit c pr queued)).2.2.1
  rw [kind]
  rfl

theorem known_waiting (w : World) (known : QueuesKnown w) (r : ReqId)
    (queued : r ∈ w.unit.eventList) : Stage.waiting.promise (w.asked r, w.reqs r) :=
  known.queued _ (stored_waiting w.unit r queued)

theorem waiting_cookie (w : World) (known : QueuesKnown w) (r : ReqId)
    (queued : r ∈ w.unit.eventList) :
    (w.asked r).command.hasCookie = true ↔ (w.asked r).command = .readOrphan := by
  rcases (known_waiting w known r queued).2.2.2.2 with event | ⟨orphan, _⟩
  · rw [event]
    simp [Command.hasCookie]
  · rw [orphan]
    simp [Command.hasCookie]

structure CallKnown (w : World) (c : Call) : Prop extends QueuesKnown w where
  apart : ∀ p ∈ c.claim, ∀ p' ∈ stored w.unit, p.1 ≠ p'.1
  promised : ∀ p ∈ c.claim, p.2.promise (w.asked p.1, w.reqs p.1)
  saved : c.Saved w

theorem call_queues (ch : Channels) (e : CallEnv) (w v : World) (c : Call) (next : Option Call)
    (known : CallKnown w c) (stepped : callStep ch e w c = some (v, next)) : QueueCookies v := by
  have held := known.cookies
  have asked := call_asked ch e w v c next stepped
  have reqs : ∀ p ∈ stored w.unit, v.reqs p.1 = w.reqs p.1 := fun p queued =>
    call_reqs ch e w v c next stepped p.1 fun p' claimed => known.apart p' claimed p queued
  cases c with
  | beginIo r =>
      obtain ⟨rfl, rfl⟩ := Prod.mk.inj (Option.some.inj stepped)
      obtain ⟨q, openers, reports, same⟩ := beginIo_frame e w r
      rw [same] at asked reqs ⊢
      exact queueCookies_same w _ asked (fun c => by cases c <;> rfl) rfl rfl reqs held
  | replying r err werr sent =>
      obtain ⟨rfl, rfl⟩ := Prod.mk.inj (Option.some.inj stepped)
      have unit : (w.replyIoreq r err werr).unit = w.unit := by
        simp only [replyIoreq]
        split <;> rfl
      exact queueCookies_same w _ asked (fun c => by rw [unit]) (by rw [unit]) (by rw [unit]) reqs
        held
  | queueing r =>
      obtain ⟨w', put, same⟩ := Option.map_eq_some_iff.mp stepped
      obtain ⟨rfl, rfl⟩ := Prod.mk.inj same
      obtain ⟨port, present, rfl⟩ := Option.map_eq_some_iff.mp put
      refine ⟨fun c => ?_, held.orphans, fun r' queued => ?_⟩
      · have reads := held.reads c
        cases c <;> exact reads
      · rcases List.mem_append.mp queued with old | new
        · exact held.port r' (by simpa [present] using old)
        · rw [List.mem_singleton.mp new]
          exact known.saved
  | addingRead pr c =>
      obtain ⟨rfl, rfl⟩ := Prod.mk.inj (Option.some.inj stepped)
      refine ⟨fun d pr' queued => ?_, ?_, ?_⟩
      · rw [PA6TEthUnit.readList_setReadList] at queued
        split at queued
        · rcases List.mem_append.mp queued with old | new
          · exact held.reads c pr' old
          · rw [List.mem_singleton.mp new]
            exact known.saved
        · exact held.reads d pr' queued
      · rw [PA6TEthUnit.setReadList_eventList]
        exact held.orphans
      · rw [PA6TEthUnit.setReadList_ioPort]
        exact held.port
  | addingEvent r =>
      obtain ⟨rfl, rfl⟩ := Prod.mk.inj (Option.some.inj stepped)
      refine ⟨fun c => ?_, fun r' queued orphan => ?_, held.port⟩
      · have reads := held.reads c
        cases c <;> exact reads
      · rcases List.mem_append.mp queued with old | new
        · exact held.orphans r' old orphan
        · rw [List.mem_singleton.mp new] at orphan ⊢
          exact known.saved orphan
  | transmitting r =>
      simp only [callStep] at stepped
      split at stepped <;> obtain ⟨rfl, rfl⟩ := Prod.mk.inj (Option.some.inj stepped) <;>
        exact queueCookies_same w _ asked (fun _ => rfl) rfl rfl reqs held
  | submitting r f =>
      obtain ⟨rfl, rfl⟩ := Prod.mk.inj (Option.some.inj stepped)
      exact queueCookies_same w _ asked (fun c => by cases c <;> rfl) rfl rfl reqs held
  | signalling =>
      obtain ⟨rfl, rfl⟩ := Prod.mk.inj (Option.some.inj stepped)
      exact queueCookies_same w _ asked (fun _ => rfl) rfl rfl reqs held
  | abortReads r =>
      simp only [callStep] at stepped
      split at stepped
      · obtain ⟨rfl, rfl⟩ := Prod.mk.inj (Option.some.inj stepped)
        exact held
      · rename_i c pr found
        obtain ⟨rfl, rfl⟩ := Prod.mk.inj (Option.some.inj stepped)
        refine queueCookies_left w _ (fun _ _ => rfl) (fun d => ?_) ?_ ?_ (fun _ _ => rfl) held
        · rw [PA6TEthUnit.readList_setReadList]
          split
          · rename_i same
            rw [same]
            exact List.eraseP_subset
          · exact List.Subset.refl _
        · rw [PA6TEthUnit.setReadList_eventList]
          exact List.Subset.refl _
        · rw [PA6TEthUnit.setReadList_ioPort]
          exact List.Subset.refl _
  | abortEvents r =>
      simp only [callStep] at stepped
      split at stepped
      · obtain ⟨rfl, rfl⟩ := Prod.mk.inj (Option.some.inj stepped)
        exact queueCookies_left w _ (fun _ _ => rfl) (fun c => by cases c <;> exact List.Subset.refl _)
          List.erase_subset (List.Subset.refl _) (fun _ _ => rfl) held
      · obtain ⟨rfl, rfl⟩ := Prod.mk.inj (Option.some.inj stepped)
        exact held
  | abortPort r =>
      simp only [callStep] at stepped
      split at stepped
      · obtain ⟨rfl, rfl⟩ := Prod.mk.inj (Option.some.inj stepped)
        exact held
      · rename_i port present
        split at stepped
        · obtain ⟨rfl, rfl⟩ := Prod.mk.inj (Option.some.inj stepped)
          refine queueCookies_left w _ (fun _ _ => rfl) (fun c => by cases c <;> exact List.Subset.refl _)
            (List.Subset.refl _) ?_ (fun _ _ => rfl) held
          rw [present]
          exact List.erase_subset
        · obtain ⟨rfl, rfl⟩ := Prod.mk.inj (Option.some.inj stepped)
          exact held
  | abortReply r =>
      obtain ⟨rfl, rfl⟩ := Prod.mk.inj (Option.some.inj stepped)
      exact queueCookies_same w _ asked (fun _ => rfl) rfl rfl reqs held

theorem call_saved (ch : Channels) (e : CallEnv) (w v : World) (c : Call) (next : Option Call)
    (known : CallKnown w c) (stepped : callStep ch e w c = some (v, next)) :
    ∀ c' ∈ next, c'.Saved v := by
  cases c with
  | beginIo r =>
      obtain ⟨rfl, rfl⟩ := Prod.mk.inj (Option.some.inj stepped)
      have called : w.reqs r = w.asked r := known.promised _ List.mem_cons_self
      rintro c' ⟨rfl⟩
      exact (beginIo_cookie e w r called).1
  | replying r err werr sent =>
      obtain ⟨rfl, rfl⟩ := Prod.mk.inj (Option.some.inj stepped)
      split
      · rintro c' ⟨rfl⟩
        trivial
      · rintro c' ⟨⟩
  | queueing r =>
      obtain ⟨w', _, same⟩ := Option.map_eq_some_iff.mp stepped
      obtain ⟨rfl, rfl⟩ := Prod.mk.inj same
      rintro c' ⟨⟩
  | transmitting r =>
      obtain ⟨kind, own, cookie⟩ := known.saved
      simp only [callStep] at stepped
      split at stepped
      · obtain ⟨rfl, rfl⟩ := Prod.mk.inj (Option.some.inj stepped)
        rintro c' ⟨rfl⟩
        trivial
      · rename_i q f built
        obtain ⟨rfl, rfl⟩ := Prod.mk.inj (Option.some.inj stepped)
        rintro c' ⟨rfl⟩
        have late : earlyExit e.tx w r = false := by
          by_contra early
          obtain ⟨_, _, refused⟩ := txBuild_early e.tx w r (by simpa using early)
          rw [refused] at built
          cases built
        have back := txBuild_late e.tx w r late
        rw [built] at back
        simp only [Call.Saved, setReq, Function.update_self]
        exact back.trans cookie
  | _ =>
      simp only [callStep] at stepped
      repeat' split at stepped
      all_goals
        obtain ⟨rfl, rfl⟩ := Prod.mk.inj (Option.some.inj stepped)
        rintro c' ⟨⟩
        try trivial

theorem unlinked_kept (v : World) (c : Call) (r : ReqId) (safe : Bool)
    (completes : c.completing = [r]) (kind : (v.asked r).command.hasCookie = true)
    (own : (v.reqs r).data = r) (answers : ∀ a ∈ v.answers, a.2.KeepsCookie)
    (agrees : safe = true ↔ (v.asked r).data = r) :
    ((∀ a ∈ v.answers, a.2.KeepsCookie) ∧
        ∀ c' ∈ some c, ∀ r ∈ c'.completing, CookieBack v r) ↔ safe = true := by
  rw [agrees]
  constructor
  · rintro ⟨_, back⟩
    have here := back c rfl r (by rw [completes]; exact List.mem_cons_self) kind
    exact here.symm.trans own
  · intro self
    refine ⟨answers, ?_⟩
    rintro c' ⟨rfl⟩ r' completed
    rw [completes] at completed
    rw [List.mem_singleton.mp completed]
    exact fun _ => own.trans self.symm

theorem call_kept (ch : Channels) (e : CallEnv) (w v : World) (c : Call) (next : Option Call)
    (known : CallKnown w c) (stepped : callStep ch e w c = some (v, next))
    (answers : ∀ a ∈ w.answers, a.2.KeepsCookie)
    (due : ∀ r ∈ c.completing, CookieBack w r) :
    ((∀ a ∈ v.answers, a.2.KeepsCookie) ∧ ∀ c' ∈ next, ∀ r ∈ c'.completing, CookieBack v r) ↔
      callSafe e w c = true := by
  have idle : callSafe e w c = true → v.answers = w.answers →
      (∀ c' ∈ next, ∀ r ∈ c'.completing, CookieBack v r) →
      (((∀ a ∈ v.answers, a.2.KeepsCookie) ∧ ∀ c' ∈ next, ∀ r ∈ c'.completing, CookieBack v r) ↔
        callSafe e w c = true) := by
    intro safe same back
    exact iff_of_true ⟨same ▸ answers, back⟩ safe
  cases c with
  | beginIo r =>
      obtain ⟨rfl, rfl⟩ := Prod.mk.inj (Option.some.inj stepped)
      have called : w.reqs r = w.asked r := known.promised _ List.mem_cons_self
      obtain ⟨q, openers, reports, same⟩ := beginIo_frame e w r
      refine idle rfl (by rw [same]; rfl) ?_
      rintro c' ⟨rfl⟩
      exact (beginIo_cookie e w r called).2
  | replying r err werr sent =>
      obtain ⟨rfl, rfl⟩ := Prod.mk.inj (Option.some.inj stepped)
      have back := due r List.mem_cons_self
      refine iff_of_true ⟨?_, ?_⟩ rfl
      · intro a member
        simp only [replyIoreq] at member
        split at member
        · rcases List.mem_cons.mp member with rfl | old
          · exact back
          · exact answers a old
        · rcases List.mem_cons.mp member with rfl | old
          · exact back
          · exact answers a old
      · split
        · rintro c' ⟨rfl⟩ r' completes
          cases completes
        · rintro c' ⟨⟩
  | queueing r =>
      obtain ⟨w', put, same⟩ := Option.map_eq_some_iff.mp stepped
      obtain ⟨rfl, rfl⟩ := Prod.mk.inj same
      obtain ⟨port, _, rfl⟩ := Option.map_eq_some_iff.mp put
      exact idle rfl rfl (by rintro c' ⟨⟩)
  | transmitting r =>
      obtain ⟨kind, own, cookie⟩ := known.saved
      simp only [callStep] at stepped
      cases early : earlyExit e.tx w r with
      | true =>
          obtain ⟨err, werr, refused⟩ := txBuild_early e.tx w r early
          rw [refused] at stepped
          obtain ⟨rfl, rfl⟩ := Prod.mk.inj (Option.some.inj stepped)
          have safe : callSafe e w (.transmitting r) = true ↔ (w.asked r).data = r := by
            simp [callSafe, early]
          have unchanged : ((w.setReq r (w.reqs r)).reqs r).data = r := by
            simpa only [setReq, Function.update_self] using own
          exact unlinked_kept _ _ r _ rfl kind unchanged answers safe
      | false =>
          have back := txBuild_late e.tx w r early
          split at stepped
          · rename_i q err werr refused
            obtain ⟨rfl, rfl⟩ := Prod.mk.inj (Option.some.inj stepped)
            rw [refused] at back
            refine idle (by simp [callSafe, early]) rfl ?_
            rintro c' ⟨rfl⟩ r' completes
            rw [List.mem_singleton.mp completes]
            intro _
            simp only [setReq, Function.update_self]
            exact back.trans cookie
          · obtain ⟨rfl, rfl⟩ := Prod.mk.inj (Option.some.inj stepped)
            refine idle (by simp [callSafe, early]) rfl ?_
            rintro c' ⟨rfl⟩ r' completes
            cases completes
  | submitting r f =>
      obtain ⟨rfl, rfl⟩ := Prod.mk.inj (Option.some.inj stepped)
      refine idle rfl rfl ?_
      rintro c' ⟨rfl⟩ r' completes
      rw [List.mem_singleton.mp completes]
      exact fun _ => known.saved
  | abortReads r =>
      simp only [callStep] at stepped
      split at stepped
      · rename_i missing
        obtain ⟨rfl, rfl⟩ := Prod.mk.inj (Option.some.inj stepped)
        refine idle (by simp [callSafe, missing]) rfl ?_
        rintro c' ⟨rfl⟩ r' completes
        cases completes
      · rename_i c pr found
        obtain ⟨rfl, rfl⟩ := Prod.mk.inj (Option.some.inj stepped)
        have first := findRead_found w.unit r c pr found
        have member := List.mem_of_find?_eq_some first
        have same : pr.ioreq = r := by simpa using List.find?_some first
        have own : (w.reqs r).data = r := same ▸ known.cookies.reads c pr member
        have kind : (w.asked r).command.hasCookie = true :=
          same ▸ known_reading w known.toQueuesKnown c pr member
        have safe : callSafe e w (.abortReads r) = true ↔ (w.asked r).data = r := by
          simp [callSafe, found]
        exact unlinked_kept _ _ r _ rfl kind own answers safe
  | abortEvents r =>
      simp only [callStep] at stepped
      split at stepped
      · rename_i queued
        obtain ⟨rfl, rfl⟩ := Prod.mk.inj (Option.some.inj stepped)
        have kind := waiting_cookie w known.toQueuesKnown r queued
        by_cases orphan : (w.asked r).command = .readOrphan
        · have own := known.cookies.orphans r queued orphan
          have safe : callSafe e w (.abortEvents r) = true ↔ (w.asked r).data = r := by
            simp [callSafe, queued, orphan]
          exact unlinked_kept _ _ r _ rfl (kind.mpr orphan) own answers safe
        · refine idle (by simp [callSafe, orphan]) rfl ?_
          rintro c' ⟨rfl⟩ r' completes cookie
          rw [List.mem_singleton.mp completes] at cookie
          exact absurd (kind.mp cookie) orphan
      · rename_i missing
        obtain ⟨rfl, rfl⟩ := Prod.mk.inj (Option.some.inj stepped)
        refine idle (by simp [callSafe, missing]) rfl ?_
        rintro c' ⟨rfl⟩ r' completes
        cases completes
  | abortPort r =>
      simp only [callStep] at stepped
      split at stepped
      · obtain ⟨rfl, rfl⟩ := Prod.mk.inj (Option.some.inj stepped)
        exact idle rfl rfl (by rintro c' ⟨⟩)
      · rename_i port present
        split at stepped
        · rename_i queued
          obtain ⟨rfl, rfl⟩ := Prod.mk.inj (Option.some.inj stepped)
          refine idle rfl rfl ?_
          rintro c' ⟨rfl⟩ r' completes cookie
          rw [List.mem_singleton.mp completes] at cookie
          have plain := known.cookies.port r (by rw [present]; exact queued)
          exact absurd (cookie.symm.trans plain) (by simp)
        · obtain ⟨rfl, rfl⟩ := Prod.mk.inj (Option.some.inj stepped)
          exact idle rfl rfl (by rintro c' ⟨⟩)
  | abortReply r =>
      obtain ⟨rfl, rfl⟩ := Prod.mk.inj (Option.some.inj stepped)
      have back := due r List.mem_cons_self
      refine iff_of_true ⟨?_, by rintro c' ⟨⟩⟩ rfl
      intro a member
      rcases List.mem_cons.mp member with rfl | old
      · exact back
      · exact answers a old
  | _ =>
      obtain ⟨rfl, rfl⟩ := Prod.mk.inj (Option.some.inj stepped)
      exact idle rfl rfl (by rintro c' ⟨⟩)

theorem sweep_kept (picked : IOSana2Req → Bool) (answer : IOSana2Req → IOSana2Req) (via : Via)
    (stable : ∀ q, picked (answer q) = picked q) (data : ∀ q, (answer q).data = q.data)
    (ids : List ReqId) (w : World) :
    (∀ a ∈ (sweep picked answer via ids w).1.answers, a.2.KeepsCookie) ↔
      (∀ a ∈ w.answers, a.2.KeepsCookie) ∧
        ∀ r ∈ ids, picked (w.reqs r) = true → CookieBack w r := by
  induction ids generalizing w with
  | nil => simp [sweep]
  | cons head rest ih =>
      cases first : picked (w.reqs head) with
      | false =>
          simp only [sweep, first, Bool.false_eq_true, if_false, ih, List.forall_mem_cons,
            false_implies, true_and]
      | true =>
          have answered : ∀ r, picked ((w.replyMsg head (answer (w.reqs head)) via).reqs r) =
                picked (w.reqs r) ∧
              (CookieBack (w.replyMsg head (answer (w.reqs head)) via) r ↔ CookieBack w r) := by
            intro r
            by_cases here : r = head
            · subst here
              simp [replyMsg, CookieBack, stable, data]
            · simp [replyMsg, CookieBack, here]
          have new : (Answer.replied via (w.asked head) (answer (w.reqs head))).KeepsCookie ↔
              CookieBack w head := by
            simp [Answer.KeepsCookie, CookieBack, data]
          simp only [sweep, first, if_true, ih, answered]
          simp only [replyMsg, List.forall_mem_cons, first, true_implies, new]
          constructor
          · rintro ⟨⟨here, old⟩, later⟩
            exact ⟨old, here, later⟩
          · rintro ⟨old, here, later⟩
            exact ⟨⟨here, old⟩, later⟩

theorem flushReadList_kept (error : IoError) (list : List PendingRead) (w : World) :
    (∀ a ∈ (flushReadList error list w).answers, a.2.KeepsCookie) ↔
      (∀ a ∈ w.answers, a.2.KeepsCookie) ∧ ∀ pr ∈ list, CookieBack w pr.ioreq := by
  induction list generalizing w with
  | nil => simp [flushReadList]
  | cons pr rest ih =>
      let done := { w with freed := pr.node :: w.freed }.replyMsg pr.ioreq
        (flushed error (w.reqs pr.ioreq)) .flush
      have answered : ∀ r, CookieBack done r ↔ CookieBack w r := by
        intro r
        by_cases here : r = pr.ioreq
        · subst here
          simp [done, replyMsg, CookieBack, flushed]
        · simp [done, replyMsg, CookieBack, here]
      have new : (Answer.replied .flush (w.asked pr.ioreq)
          (flushed error (w.reqs pr.ioreq))).KeepsCookie ↔ CookieBack w pr.ioreq := Iff.rfl
      rw [flushReadList, ih done]
      simp only [answered]
      simp only [done, replyMsg, List.forall_mem_cons, new]
      constructor
      · rintro ⟨⟨here, old⟩, later⟩
        exact ⟨old, here, later⟩
      · rintro ⟨old, here, later⟩
        exact ⟨⟨here, old⟩, later⟩

theorem flushRead_back (error : IoError) (c : ReadClass) (w : World) (r : ReqId) :
    CookieBack (flushRead error c w) r ↔ CookieBack w r := by
  have asked := (flushRead_calm error c w).asked
  have data : ((flushRead error c w).reqs r).data = (w.reqs r).data := by
    refine flushReadList_frame (fun w => (w.reqs r).data) error (w.unit.readList c) w ?_
    intro w pr
    by_cases here : r = pr.ioreq
    · subst here
      simp only [replyMsg, Function.update_self, flushed]
    · simp only [replyMsg, Function.update_of_ne here]
  simp only [CookieBack, asked, data]

theorem flushReadQueue_kept (error : IoError) (w : World) :
    (∀ a ∈ (w.flushReadQueue error).answers, a.2.KeepsCookie) ↔
      (∀ a ∈ w.answers, a.2.KeepsCookie) ∧
        (∀ c, ∀ pr ∈ w.unit.readList c, CookieBack w pr.ioreq) ∧
        ∀ r ∈ w.unit.eventList, (w.reqs r).command = .readOrphan → CookieBack w r := by
  have one : ∀ c v, (∀ a ∈ (flushRead error c v).answers, a.2.KeepsCookie) ↔
      (∀ a ∈ v.answers, a.2.KeepsCookie) ∧ ∀ pr ∈ v.unit.readList c, CookieBack v pr.ioreq :=
    fun c v => flushReadList_kept error (v.unit.readList c) v
  have events := sweep_kept (fun q => decide (q.command = .readOrphan)) (flushed error) .flush
    (fun _ => rfl) (fun _ => rfl) w.unit.eventList
    (flushRead error .other (flushRead error .arp (flushRead error .ipv4 w)))
  have lists : (flushRead error .other (flushRead error .arp (flushRead error .ipv4 w))).unit =
      ((w.unit.setReadList [] .ipv4).setReadList [] .arp).setReadList [] .other := by
    simp only [flushRead_unit]
  rw [flushReadQueue, sweepEvents, lists]
  simp only [PA6TEthUnit.setReadList_eventList]
  rw [events]
  simp only [one, flushRead_back, flushRead_unit, flushRead_command, decide_eq_true_eq,
    PA6TEthUnit.readList_setReadList, reduceCtorEq, if_false]
  constructor
  · rintro ⟨⟨⟨⟨old, ipv4⟩, arp⟩, other⟩, orphans⟩
    exact ⟨old, fun c => by cases c <;> assumption, orphans⟩
  · rintro ⟨old, reads, orphans⟩
    exact ⟨⟨⟨⟨old, reads .ipv4⟩, reads .arp⟩, reads .other⟩, orphans⟩

structure TaskKnown (w : World) (pc : TaskPc) : Prop extends QueuesKnown w where
  apart : ∀ p ∈ pc.claim, ∀ p' ∈ stored w.unit, p.1 ≠ p'.1
  promised : ∀ p ∈ pc.claim, p.2.promise (w.asked p.1, w.reqs p.1)
  plain : ∀ r ∈ pc.fromPort, (w.asked r).command.hasCookie = false

theorem rxBody_queues (ch : Channels) (w : World) (l : RxLoop) (held : QueueCookies w) :
    QueueCookies (rxBody ch w l).1 ∧ (rxBody ch w l).1.answers = w.answers ∧
      (rxBody ch w l).2.fromPort = [] := by
  simp only [rxBody]
  split
  · refine ⟨queueCookies_same w _ rfl (fun c => ?_) rfl rfl (fun _ _ => rfl) held, rfl, rfl⟩
    cases c <;> rfl
  · split
    · refine ⟨queueCookies_same w _ rfl (fun c => ?_) rfl rfl (fun _ _ => rfl) held, rfl, rfl⟩
      cases c <;> rfl
    · simp only [offerFrame]
      split
      · rename_i pr rest taken
        have head := takeReader_read _ _ _ _ _ taken
        refine ⟨queueCookies_left w _ (fun _ _ => rfl) (fun d => ?_) ?_ ?_ (fun _ _ => rfl) held, rfl, rfl⟩
        · rw [PA6TEthUnit.readList_setReadList]
          split
          · rename_i here
            rw [here, head]
            exact List.subset_cons_self _ _
          · cases d <;> exact List.Subset.refl _
        · rw [PA6TEthUnit.setReadList_eventList]
          exact List.Subset.refl _
        · rw [PA6TEthUnit.setReadList_ioPort]
          exact List.Subset.refl _
      · rename_i r rest taken
        refine ⟨queueCookies_left w _ (fun _ _ => rfl) (fun c => by cases c <;> exact List.Subset.refl _) ?_
          (List.Subset.refl _) (fun _ _ => rfl) held, rfl, rfl⟩
        obtain ⟨_, rfl⟩ := takeReader_orphan _ _ _ _ _ taken
        exact List.eraseP_subset
      · refine ⟨queueCookies_same w _ rfl (fun c => ?_) rfl rfl (fun _ _ => rfl) held, rfl, rfl⟩
        cases c <;> rfl

theorem flushReadQueue_cookies (error : IoError) (w : World) (known : QueuesKnown w) :
    QueueCookies (w.flushReadQueue error) := by
  have commands : ∀ r ∈ w.unit.eventList, (w.reqs r).command = (w.asked r).command :=
    fun r queued => (known_waiting w known r queued).2.2.2.1
  obtain ⟨empty, others⟩ := flushReadQueue_noReader error w commands
  refine ⟨fun c pr queued => ?_, fun r queued orphan => absurd orphan (others r queued),
    fun r queued => ?_⟩
  · rw [empty] at queued
    cases queued
  · rw [(flushReadQueue_calm error w).asked]
    rw [flushReadQueue_port] at queued
    exact known.cookies.port r queued

theorem flushRemaining_cookies (w : World) (held : QueueCookies w) :
    QueueCookies w.flushRemaining := by
  have unit : w.flushRemaining.unit = { w.unit with eventList := [] } := by
    rw [flushRemaining, sweepEvents_unit, sweep_all]
  have asked : w.flushRemaining.asked = w.asked := (sweepEvents_calm _ _ _ w).asked
  have data : ∀ r, (w.flushRemaining.reqs r).data = (w.reqs r).data := by
    intro r
    refine sweep_frame (fun w => (w.reqs r).data) _ _ _ w.unit.eventList w fun w r' => ?_
    by_cases here : r = r'
    · subst here
      simp only [replyMsg, Function.update_self, flushed]
    · simp only [replyMsg, Function.update_of_ne here]
  refine ⟨fun c pr queued => ?_, fun r queued => ?_, fun r queued => ?_⟩
  · rw [data]
    rw [unit] at queued
    exact held.reads c pr (by cases c <;> exact queued)
  · rw [unit] at queued
    cases queued
  · rw [asked]
    rw [unit] at queued
    exact held.port r queued

theorem task_queues (ch : Channels) (e : TaskEnv) (w v : World) (pc next : TaskPc)
    (known : TaskKnown w pc) (stepped : taskStep ch e w pc = some (v, next)) :
    QueueCookies v ∧ ∀ r ∈ next.fromPort, (v.asked r).command.hasCookie = false := by
  have held := known.cookies
  have answered : ∀ r s q via, (r, s) ∈ pc.claim → QueueCookies (w.replyMsg r q via) := by
    intro r s q via claimed
    exact queueCookies_same w _ rfl (fun _ => rfl) rfl rfl (fun p queued =>
      Function.update_of_ne (known.apart _ claimed p queued).symm _ _) held
  cases pc with
  | loopHead =>
      obtain ⟨rfl, rfl⟩ := Prod.mk.inj (Option.some.inj stepped)
      refine ⟨held, ?_⟩
      split <;> exact fun r member => by cases member
  | waiting =>
      simp only [taskStep] at stepped
      split at stepped
      · obtain ⟨rfl, rfl⟩ := Prod.mk.inj (Option.some.inj stepped)
        exact ⟨queueCookies_same w _ rfl (fun _ => rfl) rfl rfl (fun _ _ => rfl) held,
          fun r member => by cases member⟩
      · cases stepped
  | woken =>
      obtain ⟨rfl, rfl⟩ := Prod.mk.inj (Option.some.inj stepped)
      refine ⟨queueCookies_same w _ rfl (fun _ => rfl) rfl rfl (fun _ _ => rfl) held, ?_⟩
      split <;> exact fun r member => by cases member
  | draining | exitDrain =>
      simp only [taskStep] at stepped
      split at stepped
      · cases stepped
      · obtain ⟨rfl, rfl⟩ := Prod.mk.inj (Option.some.inj stepped)
        exact ⟨held, fun r member => by cases member⟩
      · rename_i r rest port
        obtain ⟨rfl, rfl⟩ := Prod.mk.inj (Option.some.inj stepped)
        refine ⟨queueCookies_left w _ (fun _ _ => rfl) (fun c => by cases c <;> exact List.Subset.refl _)
          (List.Subset.refl _) ?_ (fun _ _ => rfl) held, ?_⟩
        · rw [port]
          exact List.subset_cons_self _ _
        · intro r' member
          rw [List.mem_singleton.mp member]
          exact held.port r (by rw [port]; exact List.mem_cons_self)
  | received r =>
      obtain ⟨rfl, rfl⟩ := Prod.mk.inj (Option.some.inj stepped)
      exact ⟨queueCookies_same w _ rfl (fun _ => rfl) rfl rfl (fun _ _ => rfl) held, known.plain⟩
  | handling r ops fin =>
      cases ops with
      | nil =>
          obtain ⟨rfl, rfl⟩ := Prod.mk.inj (Option.some.inj stepped)
          exact ⟨answered r _ _ _ List.mem_cons_self, fun r member => by cases member⟩
      | cons op ops =>
          have asked := task_asked ch e w v _ next stepped
          obtain ⟨rfl, rfl⟩ := Prod.mk.inj (Option.some.inj stepped)
          refine ⟨?_, fun r' member => asked ▸ known.plain r' member⟩
          cases op with
          | setOnline online =>
              exact queueCookies_same w _ rfl (fun c => by cases c <;> rfl) rfl rfl (fun _ _ => rfl)
                held
          | postRxBuffers =>
              exact queueCookies_same w _ rfl (fun c => by cases c <;> rfl) rfl rfl (fun _ _ => rfl)
                held
          | flushReadQueue error => exact flushReadQueue_cookies error w known.toQueuesKnown
          | signalEvent mask =>
              simp only [runOp]
              rw [signalEvent_silent mask w fun r member =>
                (known_waiting w known.toQueuesKnown r member).2.2.1]
              exact held
  | rxStart =>
      obtain ⟨rfl, rfl⟩ := Prod.mk.inj (Option.some.inj stepped)
      refine ⟨held, ?_⟩
      split <;> exact fun r member => by cases member
  | rxLoop l =>
      have ran : rxBody ch w l = (v, next) := Option.some.inj stepped
      obtain ⟨queues, _, none⟩ := rxBody_queues ch w l held
      rw [ran] at queues none
      exact ⟨queues, fun r member => by rw [none] at member; cases member⟩
  | rxDeliver l g f r orphan =>
      obtain ⟨rfl, rfl⟩ := Prod.mk.inj (Option.some.inj stepped)
      exact ⟨answered r _ _ _ List.mem_cons_self, fun r member => by cases member⟩
  | rxNext l g =>
      obtain ⟨rfl, rfl⟩ := Prod.mk.inj (Option.some.inj stepped)
      exact ⟨queueCookies_same w _ rfl (fun c => by cases c <;> rfl) rfl rfl (fun _ _ => rfl) held,
        fun r member => by cases member⟩
  | exitReply r =>
      obtain ⟨rfl, rfl⟩ := Prod.mk.inj (Option.some.inj stepped)
      exact ⟨answered r _ _ _ List.mem_cons_self, fun r member => by cases member⟩
  | exitFlush =>
      obtain ⟨rfl, rfl⟩ := Prod.mk.inj (Option.some.inj stepped)
      exact ⟨flushReadQueue_cookies .aborted w known.toQueuesKnown, fun r member => by cases member⟩
  | exitFlushEvents =>
      obtain ⟨rfl, rfl⟩ := Prod.mk.inj (Option.some.inj stepped)
      exact ⟨flushRemaining_cookies w held, fun r member => by cases member⟩
  | drained => cases stepped

/-- What makes a flush safe: the requests it completes have their own addresses as cookies. -/
theorem readsOwn_iff (w : World) (known : QueuesKnown w) (c : ReadClass) :
    (∀ pr ∈ w.unit.readList c, CookieBack w pr.ioreq) ↔ readsOwn w c = true := by
  simp only [readsOwn, List.all_eq_true, beq_iff_eq]
  refine forall₂_congr fun pr queued => ?_
  have own := known.cookies.reads c pr queued
  simp only [CookieBack, known_reading w known c pr queued, own, true_implies, eq_comm]

theorem orphansOwn_iff (w : World) (known : QueuesKnown w) :
    (∀ r ∈ w.unit.eventList, (w.reqs r).command = .readOrphan → CookieBack w r) ↔
      orphansOwn w = true := by
  simp only [orphansOwn, List.all_eq_true, Bool.or_eq_true, bne_iff_ne, beq_iff_eq]
  refine forall₂_congr fun r queued => ?_
  have kind := waiting_cookie w known r queued
  rw [(known_waiting w known r queued).2.2.2.1]
  by_cases orphan : (w.asked r).command = .readOrphan
  · have own := known.cookies.orphans r queued orphan
    have cookie : Command.readOrphan.hasCookie = true := rfl
    simp only [CookieBack, cookie, own, orphan, true_implies, ne_eq, not_true_eq_false, false_or]
    exact eq_comm
  · simp [orphan]

theorem readersOwn_iff (w : World) (known : QueuesKnown w) :
    ((∀ c, ∀ pr ∈ w.unit.readList c, CookieBack w pr.ioreq) ∧
      ∀ r ∈ w.unit.eventList, (w.reqs r).command = .readOrphan → CookieBack w r) ↔
      readersOwn w = true := by
  rw [orphansOwn_iff w known]
  simp only [readersOwn, readsOwn_iff w known, Bool.and_eq_true]
  constructor
  · rintro ⟨reads, orphans⟩
    exact ⟨⟨⟨reads .ipv4, reads .arp⟩, reads .other⟩, orphans⟩
  · rintro ⟨⟨⟨ipv4, arp⟩, other⟩, orphans⟩
    exact ⟨fun c => by cases c <;> assumption, orphans⟩

theorem deliver_cookie (orphan hookOk : Bool) (u : PA6TEthUnit) (mem : Addr → UInt8) (r : ReqId)
    (f : RxFrame) (q : IOSana2Req) : (deliver orphan hookOk u mem r f q).1.data = q.statData := by
  cases orphan with
  | false =>
      simp only [deliver, Bool.false_eq_true, if_false, deliverRead]
      repeat' split
      all_goals rfl
  | true =>
      simp only [deliver, if_true, deliverOrphan]
      repeat' split
      all_goals rfl

theorem task_kept (ch : Channels) (e : TaskEnv) (w v : World) (pc next : TaskPc)
    (known : TaskKnown w pc) (stepped : taskStep ch e w pc = some (v, next))
    (answers : ∀ a ∈ w.answers, a.2.KeepsCookie) :
    (∀ a ∈ v.answers, a.2.KeepsCookie) ↔ taskSafe w pc = true := by
  have idle : taskSafe w pc = true → v.answers = w.answers →
      ((∀ a ∈ v.answers, a.2.KeepsCookie) ↔ taskSafe w pc = true) :=
    fun safe same => iff_of_true (same ▸ answers) safe
  have replied : ∀ r q via, (Answer.replied via (w.asked r) q).KeepsCookie →
      taskSafe w pc = true → v = w.replyMsg r q via →
      ((∀ a ∈ v.answers, a.2.KeepsCookie) ↔ taskSafe w pc = true) := by
    rintro r q via keeps safe rfl
    exact iff_of_true (List.forall_mem_cons.mpr ⟨keeps, answers⟩) safe
  cases pc with
  | handling r ops fin =>
      cases ops with
      | nil =>
          obtain ⟨rfl, rfl⟩ := Prod.mk.inj (Option.some.inj stepped)
          refine replied r _ _ (fun cookie => ?_) rfl rfl
          rw [known.plain r List.mem_cons_self] at cookie
          cases cookie
      | cons op ops =>
          obtain ⟨rfl, rfl⟩ := Prod.mk.inj (Option.some.inj stepped)
          cases op with
          | setOnline online => exact idle rfl rfl
          | postRxBuffers => exact idle rfl rfl
          | flushReadQueue error =>
              rw [show taskSafe w (.handling r (.flushReadQueue error :: ops) fin) = readersOwn w
                from rfl, ← readersOwn_iff w known.toQueuesKnown]
              exact (flushReadQueue_kept error w).trans (and_iff_right answers)
          | signalEvent mask =>
              refine idle rfl ?_
              simp only [runOp]
              rw [signalEvent_silent mask w fun r member =>
                (known_waiting w known.toQueuesKnown r member).2.2.1]
  | rxLoop l =>
      have ran : rxBody ch w l = (v, next) := Option.some.inj stepped
      have same := (rxBody_queues ch w l known.cookies).2.1
      rw [ran] at same
      exact idle rfl same
  | rxDeliver l g f r orphan =>
      obtain ⟨rfl, rfl⟩ := Prod.mk.inj (Option.some.inj stepped)
      refine replied r _ _ (fun _ => ?_) rfl rfl
      rw [deliver_cookie]
      have promise := known.promised _ List.mem_cons_self
      cases orphan with
      | false => exact promise.2.2.2.2.2.1
      | true => exact promise.2.2.2.2.1
  | exitReply r =>
      obtain ⟨rfl, rfl⟩ := Prod.mk.inj (Option.some.inj stepped)
      refine replied r _ _ (fun cookie => ?_) rfl rfl
      rw [known.plain r List.mem_cons_self] at cookie
      cases cookie
  | exitFlush =>
      obtain ⟨rfl, rfl⟩ := Prod.mk.inj (Option.some.inj stepped)
      rw [show taskSafe w .exitFlush = readersOwn w from rfl,
        ← readersOwn_iff w known.toQueuesKnown]
      exact (flushReadQueue_kept .aborted w).trans (and_iff_right answers)
  | exitFlushEvents =>
      obtain ⟨rfl, rfl⟩ := Prod.mk.inj (Option.some.inj stepped)
      have events := sweep_kept (fun _ => true) (flushed .aborted) .flush (fun _ => rfl)
        (fun _ => rfl) w.unit.eventList w
      rw [show taskSafe w .exitFlushEvents = orphansOwn w from rfl,
        ← orphansOwn_iff w known.toQueuesKnown]
      refine (events.trans (and_iff_right answers)).trans (forall₂_congr fun r queued => ?_)
      have kind := waiting_cookie w known.toQueuesKnown r queued
      rw [(known_waiting w known.toQueuesKnown r queued).2.2.2.1, ← kind]
      exact ⟨fun back _ => back rfl, fun back _ cookie => back cookie cookie⟩
  | drained => cases stepped
  | _ =>
      simp only [taskStep] at stepped
      repeat' split at stepped
      all_goals first
        | (obtain ⟨rfl, rfl⟩ := Prod.mk.inj (Option.some.inj stepped)
           exact idle rfl rfl)
        | cases stepped

theorem driver_known (ch : Channels) (s : Driver) (reached : (unitMachine ch).Reached s)
    (cookies : Cookies s) : QueuesKnown s.world where
  cookies := cookies.queues
  queued := fun p queued => (kept_reached ch s reached).promised p
    (List.mem_append_right _ (List.mem_append_right _ queued))

theorem call_known (ch : Channels) (s : Driver) (reached : (unitMachine ch).Reached s)
    (cookies : Cookies s) (c : Call) (member : c ∈ s.calls) : CallKnown s.world c where
  toQueuesKnown := driver_known ch s reached cookies
  apart := fun p claimed => (claims_apart ch s reached).1 p (List.mem_flatMap.mpr ⟨c, member, claimed⟩)
  promised := fun p claimed => (kept_reached ch s reached).promised p
    (List.mem_append_left _ (List.mem_flatMap.mpr ⟨c, member, claimed⟩))
  saved := cookies.calls c member

theorem task_known (ch : Channels) (s : Driver) (reached : (unitMachine ch).Reached s)
    (cookies : Cookies s) (pc : TaskPc) (member : pc ∈ s.tasks) : TaskKnown s.world pc where
  toQueuesKnown := driver_known ch s reached cookies
  apart := fun p claimed =>
    (claims_apart ch s reached).2.1 p (List.mem_flatMap.mpr ⟨pc, member, claimed⟩)
  promised := fun p claimed => (kept_reached ch s reached).promised p
    (List.mem_append_right _ (List.mem_append_left _ (List.mem_flatMap.mpr ⟨pc, member, claimed⟩)))
  plain := cookies.tasks pc member

theorem port_claimed (pc : TaskPc) (r : ReqId) (held : r ∈ pc.fromPort) :
    ∃ p ∈ pc.claim, p.1 = r := by
  cases pc with
  | received r' => exact ⟨_, List.mem_cons_self, (List.mem_singleton.mp held).symm⟩
  | handling r' ops fin => exact ⟨_, List.mem_cons_self, (List.mem_singleton.mp held).symm⟩
  | exitReply r' => exact ⟨_, List.mem_cons_self, (List.mem_singleton.mp held).symm⟩
  | _ => cases held

def Settled (t : Driver) : Prop :=
  QueueCookies t.world ∧
    ∀ pc ∈ t.tasks, ∀ r ∈ pc.fromPort, (t.world.asked r).command.hasCookie = false

theorem settled_beside (s t : Driver) (tasks : ∀ pc ∈ t.tasks, pc ∈ s.tasks ∨ pc = .loopHead)
    (asked : t.world.asked = s.world.asked) (reqs : t.world.reqs = s.world.reqs)
    (reads : ∀ c, t.world.unit.readList c = s.world.unit.readList c)
    (events : t.world.unit.eventList = s.world.unit.eventList)
    (port : t.world.unit.ioPort.getD [] ⊆ s.world.unit.ioPort.getD [])
    (cookies : Cookies s) : Settled t := by
  constructor
  · refine queueCookies_left s.world t.world (fun p _ => by rw [asked]) (fun c => ?_) ?_ port
      (fun p _ => by rw [reqs]) cookies.queues
    · rw [reads]
      exact List.Subset.refl _
    · rw [events]
      exact List.Subset.refl _
  · intro pc member r held
    rw [asked]
    rcases tasks pc member with old | rfl
    · exact cookies.tasks pc old r held
    · cases held

theorem start_queues (w : World) (outcome : StartOutcome) :
    (∀ c, (w.unitTaskStart outcome).unit.readList c = w.unit.readList c) ∧
      (w.unitTaskStart outcome).unit.eventList = w.unit.eventList ∧
      (w.unitTaskStart outcome).unit.ioPort.getD [] ⊆ w.unit.ioPort.getD [] := by
  cases outcome <;> exact ⟨fun c => by cases c <;> rfl, rfl, by simp [unitTaskStart]⟩

theorem settled_step (ch : Channels) (s t : Driver) (a : Action)
    (reached : (unitMachine ch).Reached s) (cookies : Cookies s)
    (stepped : driverStep ch s a = some t) : Settled t := by
  have keeps : ∀ pc ∈ s.tasks, pc ∈ s.tasks ∨ pc = .loopHead := fun _ => .inl
  cases a with
  | submit r q =>
      obtain ⟨settled, rfl⟩ := submit_step ch s t r q stepped
      have fresh : ∀ p ∈ s.ledger.places, p.1 ≠ r := by
        rintro p member rfl
        rw [placed_pending ch s reached p.1 (List.mem_map_of_mem member)] at settled
        cases settled
      have queued : ∀ p ∈ stored s.world.unit, p.1 ≠ r := fun p member =>
        fresh p (List.mem_append_right _ (List.mem_append_right _ member))
      constructor
      · exact queueCookies_left s.world _ (fun p member => Function.update_of_ne (queued p member) _ _)
          (fun _ => List.Subset.refl _) (List.Subset.refl _) (List.Subset.refl _)
          (fun p member => Function.update_of_ne (queued p member) _ _) cookies.queues
      · intro pc member r' held
        obtain ⟨p, claimed, rfl⟩ := port_claimed pc r' held
        have apart := fresh p (List.mem_append_right _
          (List.mem_append_left _ (List.mem_flatMap.mpr ⟨pc, member, claimed⟩)))
        simp only [Function.update_of_ne apart]
        exact cookies.tasks pc member p.1 held
  | abortIo r =>
      obtain rfl := Option.some.inj stepped
      exact ⟨cookies.queues, cookies.tasks⟩
  | call i e =>
      obtain ⟨c, w, next, present, moved, rfl⟩ := call_step ch s t i e stepped
      have known := call_known ch s reached cookies c (List.mem_of_getElem? present)
      refine ⟨call_queues ch e s.world w c next known moved, fun pc running r held => ?_⟩
      rw [call_asked ch e s.world w c next moved]
      exact cookies.tasks pc running r held
  | task i e =>
      obtain ⟨pc, w, next, present, moved, rfl⟩ := task_step ch s t i e stepped
      have known := task_known ch s reached cookies pc (List.mem_of_getElem? present)
      obtain ⟨queues, plain⟩ := task_queues ch e s.world w pc next known moved
      refine ⟨queues, fun pc' left r held => ?_⟩
      rcases List.mem_or_eq_of_mem_set left with old | rfl
      · rw [task_asked ch e s.world w pc next moved]
        exact cookies.tasks pc' old r held
      · exact plain r held
  | signal more =>
      obtain rfl := Option.some.inj stepped
      exact settled_beside s _ keeps rfl rfl (fun _ => rfl) rfl (List.Subset.refl _) cookies
  | dma ring mem =>
      obtain rfl := Option.some.inj stepped
      exact settled_beside s _ keeps rfl rfl (fun c => by cases c <;> rfl) rfl
        (List.Subset.refl _) cookies
  | openDevice bmCookie allocated outcome =>
      obtain ⟨asked, reqs⟩ := start_records s.world outcome
      obtain ⟨reads, events, port⟩ := start_queues s.world outcome
      rcases open_step ch s t bmCookie allocated outcome stepped with
        rfl | ⟨_, rfl⟩ | ⟨_, _, rfl⟩ | ⟨_, _, rfl⟩
      · exact ⟨cookies.queues, cookies.tasks⟩
      · exact settled_beside s _ keeps rfl rfl (fun c => by cases c <;> rfl) rfl
          (List.Subset.refl _) cookies
      · exact settled_beside s _ keeps asked reqs reads events port cookies
      · refine settled_beside s _ (fun pc member => ?_) asked reqs
          (fun c => by rw [← reads c]; cases c <;> rfl) events port cookies
        exact (List.mem_cons.mp member).symm
  | closeDevice bmCookie =>
      obtain rfl := Option.some.inj stepped
      refine settled_beside s _ keeps ?_ ?_ (fun c => ?_) ?_ ?_ cookies <;>
        simp only [close, unitTaskShutdown] <;> split_ifs <;>
        first | rfl | exact List.Subset.refl _
  | teardown i =>
      obtain ⟨_, rfl⟩ := teardown_step ch s t i stepped
      exact settled_beside s _ (fun pc member => .inl (List.mem_of_mem_eraseIdx member)) rfl rfl
        (fun c => by cases c <;> rfl) rfl (List.nil_subset _) cookies

theorem cookies_step (ch : Channels) (s t : Driver) (a : Action)
    (reached : (unitMachine ch).Reached s) (cookies : Cookies s)
    (stepped : driverStep ch s a = some t) : Cookies t := by
  obtain ⟨queues, tasks⟩ := settled_step ch s t a reached cookies stepped
  have calls : ∀ c ∈ t.calls, c.Saved t.world := by
    apply calls_step ch (fun w c => c.Saved w) saved_congr (fun _ _ => trivial)
      (fun _ _ => trivial) s t a reached ?_ cookies.calls stepped
    intro e c member w next moved
    have known := call_known ch s reached cookies c member
    exact call_saved ch e s.world w c (some next) known moved next rfl
  exact ⟨queues, calls, tasks⟩

theorem cookies_reached (ch : Channels) (s : Driver) (reached : (unitMachine ch).Reached s) :
    Cookies s := by
  refine (unitMachine ch).invariant_within Cookies ?_
    (fun s a t before cookies stepped => cookies_step ch s t a before cookies stepped) s reached
  intro s cold
  refine ⟨⟨?_, ?_, ?_⟩, ?_, ?_⟩
  · intro c pr queued
    rw [cold.reads] at queued
    cases queued
  · intro r queued
    rw [cold.events] at queued
    cases queued
  · intro r queued
    rw [cold.port] at queued
    cases queued
  · intro c member
    rw [cold.calls] at member
    cases member
  · intro pc member
    rw [cold.tasks] at member
    cases member

theorem kept_beside (s t : Driver) (answers : t.world.answers = s.world.answers)
    (calls : ∀ c ∈ t.calls, c ∈ s.calls ∨ c.completing = [])
    (asked : ∀ c ∈ s.calls, ∀ p ∈ c.claim, t.world.asked p.1 = s.world.asked p.1)
    (reqs : ∀ c ∈ s.calls, ∀ p ∈ c.claim, t.world.reqs p.1 = s.world.reqs p.1)
    (kept : CookiesKept s) : CookiesKept t := by
  refine ⟨answers ▸ kept.answers, fun c member r completes => ?_⟩
  rcases calls c member with old | none
  · obtain ⟨p, claimed, rfl⟩ := completing_claimed c r completes
    rw [back_congr s.world t.world p.1 (asked c old p claimed) (reqs c old p claimed)]
    exact kept.due c old p.1 completes
  · rw [none] at completes
    cases completes

/-- Where every cookie is kept, a step keeps them exactly when it is safe. -/
theorem kept_step (ch : Channels) (s t : Driver) (a : Action)
    (reached : (unitMachine ch).Reached s) (kept : CookiesKept s)
    (stepped : driverStep ch s a = some t) : CookiesKept t ↔ cookieSafe s a = true := by
  have cookies := cookies_reached ch s reached
  have plain : cookieSafe s a = true → CookiesKept t →
      (CookiesKept t ↔ cookieSafe s a = true) := fun safe held => iff_of_true held safe
  have same : ∀ c ∈ s.calls, c ∈ s.calls ∨ c.completing = [] := fun _ => .inl
  cases a with
  | submit r q =>
      obtain ⟨settled, rfl⟩ := submit_step ch s t r q stepped
      have fresh : ∀ c ∈ s.calls, ∀ p ∈ c.claim, p.1 ≠ r := by
        rintro c member p claimed rfl
        have placed : p ∈ s.ledger.places :=
          List.mem_append_left _ (List.mem_flatMap.mpr ⟨c, member, claimed⟩)
        rw [placed_pending ch s reached p.1 (List.mem_map_of_mem placed)] at settled
        cases settled
      refine plain rfl (kept_beside s _ rfl (fun c member => ?_)
        (fun c member p claimed => Function.update_of_ne (fresh c member p claimed) _ _)
        (fun c member p claimed => Function.update_of_ne (fresh c member p claimed) _ _) kept)
      rcases List.mem_cons.mp member with rfl | old
      · exact .inr rfl
      · exact .inl old
  | abortIo r =>
      obtain rfl := Option.some.inj stepped
      refine plain rfl (kept_beside s _ rfl (fun c member => ?_) (fun _ _ _ _ => rfl)
        (fun _ _ _ _ => rfl) kept)
      rcases List.mem_cons.mp member with rfl | old
      · exact .inr rfl
      · exact .inl old
  | call i e =>
      obtain ⟨c, w, next, present, moved, rfl⟩ := call_step ch s t i e stepped
      have member := List.mem_of_getElem? present
      have asked := call_asked ch e s.world w c next moved
      have own := call_kept ch e s.world w c next (call_known ch s reached cookies c member) moved
        kept.answers (kept.due c member)
      have others : ∀ c' ∈ s.calls.eraseIdx i, ∀ r ∈ c'.completing, CookieBack w r := by
        intro c' other r completes
        obtain ⟨p, claimed, rfl⟩ := completing_claimed c' r completes
        have reqs := other_reqs ch s reached i e c c' w next present moved other p claimed
        rw [back_congr s.world w p.1 (by rw [asked]) reqs]
        exact kept.due c' (List.mem_of_mem_eraseIdx other) p.1 completes
      simp only [cookieSafe, present, Option.map_some, Option.getD_some, ← own]
      constructor
      · intro held
        refine ⟨held.answers, ?_⟩
        rintro c' ⟨rfl⟩
        exact held.due c' (List.mem_set (List.getElem?_eq_some_iff.mp present).1 c')
      · rintro ⟨answers, due⟩
        refine ⟨answers, fun c' left => ?_⟩
        cases next with
        | none => exact others c' left
        | some next =>
            rcases mem_replaced s.calls i c next c' present left with rfl | other
            · exact due c' rfl
            · exact others c' other
  | task i e =>
      obtain ⟨pc, w, next, present, moved, rfl⟩ := task_step ch s t i e stepped
      have member := List.mem_of_getElem? present
      have asked := task_asked ch e s.world w pc next moved
      have own := task_kept ch e s.world w pc next (task_known ch s reached cookies pc member) moved
        kept.answers
      simp only [cookieSafe, present, Option.map_some, Option.getD_some, ← own]
      refine ⟨fun held => held.answers, fun answers => ⟨answers, fun c calling r completes => ?_⟩⟩
      obtain ⟨p, claimed, rfl⟩ := completing_claimed c r completes
      have reqs := task_reqs ch s reached e pc next w member moved c calling p claimed
      rw [back_congr s.world w p.1 (by rw [asked]) reqs]
      exact kept.due c calling p.1 completes
  | openDevice bmCookie allocated outcome =>
      obtain ⟨asked, reqs⟩ := start_records s.world outcome
      have answers := (started_fields s.world outcome).2.1
      refine plain rfl ?_
      rcases open_step ch s t bmCookie allocated outcome stepped with
        rfl | ⟨_, rfl⟩ | ⟨_, _, rfl⟩ | ⟨_, _, rfl⟩
      · exact kept
      · exact kept_beside s _ rfl same (fun _ _ _ _ => rfl) (fun _ _ _ _ => rfl) kept
      · exact kept_beside s _ answers same (fun _ _ p _ => by rw [asked])
          (fun _ _ p _ => by rw [reqs]) kept
      · exact kept_beside s _ answers same (fun _ _ p _ => congrFun asked p.1)
          (fun _ _ p _ => congrFun reqs p.1) kept
  | closeDevice bmCookie =>
      obtain rfl := Option.some.inj stepped
      refine plain rfl (kept_beside s _ ?_ same (fun _ _ _ _ => ?_) (fun _ _ _ _ => ?_) kept) <;>
        simp only [close, unitTaskShutdown] <;> split_ifs <;> rfl
  | teardown i =>
      obtain ⟨_, rfl⟩ := teardown_step ch s t i stepped
      exact plain rfl (kept_beside s _ rfl same (fun _ _ _ _ => rfl) (fun _ _ _ _ => rfl) kept)
  | _ =>
      obtain rfl := Option.some.inj stepped
      exact plain rfl (kept_beside s _ rfl same (fun _ _ _ _ => rfl) (fun _ _ _ _ => rfl) kept)

theorem cookies_along (ch : Channels) (s : Driver) (actions : List Action)
    (reached : (unitMachine ch).Reached s) (kept : CookiesKept s) :
    (unitMachine ch).Along (fun _ _ t => CookiesKept t) s actions ↔
      (unitMachine ch).Along (fun u a _ => cookieSafe u a = true) s actions := by
  apply (unitMachine ch).along_iff_while fun u => (unitMachine ch).Reached u ∧ CookiesKept u
  · intro u a t held stepped
    exact kept_step ch u t a held.1 held.2 stepped
  · intro u a t held stepped safe
    exact ⟨.step u a t held.1 stepped, (kept_step ch u t a held.1 held.2 stepped).mpr safe⟩
  · exact ⟨reached, kept⟩

/-- A run returns every cookie with its request exactly when no step of it unlinks a queued read
by `AbortIO`, a flush or the exit, and no transmit takes an early exit. -/
theorem cookies_survive_iff (ch : Channels) (s : Driver) (cold : Cold s) (actions : List Action) :
    (unitMachine ch).Along (fun _ _ t => CookiesKept t) s actions ↔
      (unitMachine ch).Along (fun u a _ => cookieSafe u a = true) s actions := by
  refine cookies_along ch s actions (.start s cold) ⟨fun a member => ?_, fun c member => ?_⟩
  · rw [cold.answers] at member
    cases member
  · rw [cold.calls] at member
    cases member

/-- A read that gets its frame gets its cookie back. -/
theorem cookies_survive_read :
    (unitMachine ⟨0, 0, 0⟩).Along (fun _ _ t => CookiesKept t) coldDriver
      (sessionUp ++ readOnce 0x500) := by
  rw [cookies_survive_iff ⟨0, 0, 0⟩ coldDriver coldDriver_cold]
  exact (unitMachine ⟨0, 0, 0⟩).along_check cookieSafe coldDriver _ (by decide +kernel)

/-- The newest answer, with the command and both values of `ios2_Data`. -/
def lastCookie (s : Driver) : Option (Command × Addr × Addr) :=
  match s.world.answers with
  | (_, .replied _ asked done) :: _ => some (asked.command, asked.data, done.data)
  | _ => none

/-- `AbortIO` of a queued read completes it with its own address in place of the cookie. -/
theorem aborted_read_cookie :
    ∃ s, (unitMachine ⟨0, 0, 0⟩).Reached s ∧
      ∃ a ∈ s.world.answers, ¬ a.2.KeepsCookie := by
  obtain ⟨s, reached, last⟩ := (unitMachine ⟨0, 0, 0⟩).run_shape lastCookie
    (some (.cmdRead, 0x500, 2)) coldDriver
    (sessionUp ++ submitted 2 (request .cmdRead 0x0800#32 0x500 0#32) ++
      [.abortIo 2, .call 0 callEnv, .call 0 callEnv])
    (.start _ coldDriver_cold) (by decide +kernel)
  refine ⟨s, reached, ?_⟩
  simp only [lastCookie] at last
  split at last
  · rename_i r via asked done rest answers
    obtain ⟨command, given, back⟩ : _ ∧ _ ∧ _ := by simpa using last
    refine ⟨_, by rw [answers]; exact List.mem_cons_self, fun keeps => ?_⟩
    have same := keeps (by rw [command]; rfl)
    rw [given, back] at same
    exact absurd same (by decide)
  · cases last

end Pa6tEth

import Pa6tEth.Conservation

/-! What holds of every call in progress: facts about a request that only its holder changes. -/

namespace Pa6tEth

open Support World

theorem call_asked (ch : Channels) (e : CallEnv) (w v : World) (c : Call) (next : Option Call)
    (stepped : callStep ch e w c = some (v, next)) : v.asked = w.asked := by
  cases links : c.links with
  | false => exact (call_calm ch e w v c next links stepped).asked
  | true =>
      cases c with
      | addingRead pr c =>
          obtain ⟨rfl, rfl⟩ := Prod.mk.inj (Option.some.inj stepped)
          rfl
      | addingEvent r =>
          obtain ⟨rfl, rfl⟩ := Prod.mk.inj (Option.some.inj stepped)
          rfl
      | _ => cases links

theorem call_reqs (ch : Channels) (e : CallEnv) (w v : World) (c : Call) (next : Option Call)
    (stepped : callStep ch e w c = some (v, next)) (x : ReqId) (other : ∀ p ∈ c.claim, p.1 ≠ x) :
    v.reqs x = w.reqs x := by
  cases c with
  | beginIo r =>
      obtain ⟨rfl, rfl⟩ := Prod.mk.inj (Option.some.inj stepped)
      obtain ⟨q, openers, reports, same⟩ := beginIo_frame e w r
      rw [same]
      exact Function.update_of_ne (other _ List.mem_cons_self).symm _ _
  | replying r err werr sent =>
      obtain ⟨rfl, rfl⟩ := Prod.mk.inj (Option.some.inj stepped)
      simp only [replyIoreq]
      split <;> exact Function.update_of_ne (other _ List.mem_cons_self).symm _ _
  | queueing r =>
      obtain ⟨w', put, same⟩ := Option.map_eq_some_iff.mp stepped
      obtain ⟨rfl, rfl⟩ := Prod.mk.inj same
      obtain ⟨port, _, rfl⟩ := Option.map_eq_some_iff.mp put
      rfl
  | transmitting r =>
      simp only [callStep] at stepped
      split at stepped <;> obtain ⟨rfl, rfl⟩ := Prod.mk.inj (Option.some.inj stepped) <;>
        exact Function.update_of_ne (other _ List.mem_cons_self).symm _ _
  | abortReply r =>
      obtain ⟨rfl, rfl⟩ := Prod.mk.inj (Option.some.inj stepped)
      exact Function.update_of_ne (other _ List.mem_cons_self).symm _ _
  | _ =>
      simp only [callStep] at stepped
      repeat' split at stepped
      all_goals
        obtain ⟨rfl, rfl⟩ := Prod.mk.inj (Option.some.inj stepped)
        rfl

theorem task_asked (ch : Channels) (e : TaskEnv) (w v : World) (pc next : TaskPc)
    (stepped : taskStep ch e w pc = some (v, next)) : v.asked = w.asked := by
  cases turns : pc.turns with
  | false => exact (task_calm ch e w v pc next turns stepped).asked
  | true =>
      obtain ⟨r, online, ops, fin, rfl⟩ := turns_handling pc turns
      obtain ⟨rfl, rfl⟩ := Prod.mk.inj (Option.some.inj stepped)
      rfl

theorem claims_apart (ch : Channels) (s : Driver) (reached : (unitMachine ch).Reached s) :
    (∀ p ∈ s.calls.flatMap Call.claim, ∀ p' ∈ stored s.world.unit, p.1 ≠ p'.1) ∧
    (∀ p ∈ s.tasks.flatMap TaskPc.claim, ∀ p' ∈ stored s.world.unit, p.1 ≠ p'.1) ∧
    ∀ p ∈ s.tasks.flatMap TaskPc.claim, ∀ p' ∈ s.calls.flatMap Call.claim, p.1 ≠ p'.1 := by
  have distinct := kept_nodup _ _ _ (kept_reached ch s reached)
  simp only [Ledger.items, Driver.ledger, ledger, Driver.places, List.map_append] at distinct
  obtain ⟨_, rest, first⟩ := List.nodup_append.mp distinct
  obtain ⟨_, _, second⟩ := List.nodup_append.mp rest
  refine ⟨fun p claimed p' queued => ?_, fun p claimed p' queued => ?_, fun p claimed p' other => ?_⟩
  · exact first _ (List.mem_map_of_mem claimed) _
      (List.mem_append_right _ (List.mem_map_of_mem queued))
  · exact second _ (List.mem_map_of_mem claimed) _ (List.mem_map_of_mem queued)
  · exact (first _ (List.mem_map_of_mem other) _
      (List.mem_append_left _ (List.mem_map_of_mem claimed))).symm

theorem calls_apart (ch : Channels) (s : Driver) (reached : (unitMachine ch).Reached s) (i : Nat)
    (c c' : Call) (present : s.calls[i]? = some c) (other : c' ∈ s.calls.eraseIdx i) :
    ∀ p ∈ c.claim, ∀ p' ∈ c'.claim, p.1 ≠ p'.1 := by
  have distinct := kept_nodup _ _ _ (kept_reached ch s reached)
  simp only [Ledger.items, Driver.ledger, ledger, Driver.places, List.map_append] at distinct
  have calls := (List.nodup_append.mp distinct).1
  rw [((flatMap_leave Call.claim s.calls i c present).map Prod.fst).nodup_iff,
    List.map_append] at calls
  intro p claimed p' held
  exact (List.nodup_append.mp calls).2.2 _ (List.mem_map_of_mem claimed) _
    (List.mem_map_of_mem (List.mem_flatMap.mpr ⟨c', other, held⟩))

theorem other_reqs (ch : Channels) (s : Driver) (reached : (unitMachine ch).Reached s) (i : Nat)
    (e : CallEnv) (c c' : Call) (w : World) (next : Option Call) (present : s.calls[i]? = some c)
    (moved : callStep ch e s.world c = some (w, next)) (other : c' ∈ s.calls.eraseIdx i) :
    ∀ p ∈ c'.claim, w.reqs p.1 = s.world.reqs p.1 := fun p claimed =>
  call_reqs ch e s.world w c next moved p.1 fun p' own =>
    calls_apart ch s reached i c c' present other p' own p claimed

theorem task_reqs (ch : Channels) (s : Driver) (reached : (unitMachine ch).Reached s)
    (e : TaskEnv) (pc next : TaskPc) (w : World) (member : pc ∈ s.tasks)
    (moved : taskStep ch e s.world pc = some (w, next)) (c : Call) (calling : c ∈ s.calls) :
    ∀ p ∈ c.claim, w.reqs p.1 = s.world.reqs p.1 := by
  obtain ⟨_, _, _, _, record, _⟩ := task_handover ch e s.world w pc next moved
  obtain ⟨queues, _, tasks⟩ := claims_apart ch s reached
  intro p claimed
  have held : p ∈ s.calls.flatMap Call.claim := List.mem_flatMap.mpr ⟨c, calling, claimed⟩
  refine (Prod.mk.inj (record p.1 fun placed => ?_)).2
  simp only [Ledger.items, ledger, List.mem_map, List.mem_append] at placed
  obtain ⟨p', here | queued, same⟩ := placed
  · exact tasks p' (List.mem_flatMap.mpr ⟨pc, member, here⟩) p held same
  · exact queues p held p' queued same.symm

section

variable (ch : Channels) (known : World → Call → Prop)

def OfRequests : Prop :=
  ∀ w v c, (∀ p ∈ c.claim, v.asked p.1 = w.asked p.1) →
    (∀ p ∈ c.claim, v.reqs p.1 = w.reqs p.1) → known w c → known v c

def StepsKnown : Prop :=
  ∀ e w v c next, known w c → (∀ p ∈ c.claim, p.2.promise (w.asked p.1, w.reqs p.1)) →
    callStep ch e w c = some (v, some next) → known v next

theorem calls_beside (own : OfRequests known) (s t : Driver) (calls : t.calls = s.calls)
    (asked : t.world.asked = s.world.asked) (reqs : t.world.reqs = s.world.reqs)
    (held : ∀ c ∈ s.calls, known s.world c) : ∀ c ∈ t.calls, known t.world c := by
  intro c member
  rw [calls] at member
  exact own s.world t.world c (fun p _ => by rw [asked]) (fun p _ => by rw [reqs]) (held c member)

theorem start_records (w : World) (outcome : StartOutcome) :
    (w.unitTaskStart outcome).asked = w.asked ∧ (w.unitTaskStart outcome).reqs = w.reqs := by
  cases outcome <;> exact ⟨rfl, rfl⟩

theorem close_records (w : World) (bmCookie : Addr) :
    (w.close bmCookie).asked = w.asked ∧ (w.close bmCookie).reqs = w.reqs := by
  simp only [close, unitTaskShutdown]
  split_ifs <;> exact ⟨rfl, rfl⟩

theorem calls_step (own : OfRequests known) (begins : ∀ w r, known w (.beginIo r))
    (aborts : ∀ w r, known w (.abortReads r)) (s t : Driver) (a : Action)
    (reached : (unitMachine ch).Reached s)
    (steps : ∀ e, ∀ c ∈ s.calls, ∀ w next, callStep ch e s.world c = some (w, some next) →
      known w next)
    (held : ∀ c ∈ s.calls, known s.world c) (stepped : driverStep ch s a = some t) :
    ∀ c ∈ t.calls, known t.world c := by
  have beside := calls_beside known own s t
  cases a with
  | submit r q =>
      obtain ⟨settled, rfl⟩ := submit_step ch s t r q stepped
      intro c member
      rcases List.mem_cons.mp member with rfl | old
      · exact begins _ r
      · have apart : ∀ p ∈ c.claim, p.1 ≠ r := by
          rintro p claimed rfl
          have placed : p ∈ s.ledger.places :=
            List.mem_append_left _ (List.mem_flatMap.mpr ⟨c, old, claimed⟩)
          rw [placed_pending ch s reached p.1 (List.mem_map_of_mem placed)] at settled
          cases settled
        exact own s.world _ c (fun p claimed => Function.update_of_ne (apart p claimed) _ _)
          (fun p claimed => Function.update_of_ne (apart p claimed) _ _) (held c old)
  | abortIo r =>
      obtain rfl := Option.some.inj stepped
      intro c member
      rcases List.mem_cons.mp member with rfl | old
      · exact aborts _ r
      · exact held c old
  | call i e =>
      obtain ⟨c, w, next, present, moved, rfl⟩ := call_step ch s t i e stepped
      have asked := call_asked ch e s.world w c next moved
      have others : ∀ c' ∈ s.calls.eraseIdx i, known w c' := fun c' other =>
        own s.world w c' (fun p _ => by rw [asked])
          (other_reqs ch s reached i e c c' w next present moved other)
          (held c' (List.mem_of_mem_eraseIdx other))
      intro c' left
      cases next with
      | none => exact others c' left
      | some next =>
          rcases mem_replaced s.calls i c next c' present left with rfl | other
          · exact steps e c (List.mem_of_getElem? present) w c' moved
          · exact others c' other
  | task i e =>
      obtain ⟨pc, w, next, present, moved, rfl⟩ := task_step ch s t i e stepped
      have asked := task_asked ch e s.world w pc next moved
      intro c calling
      exact own s.world w c (fun p _ => by rw [asked])
        (task_reqs ch s reached e pc next w (List.mem_of_getElem? present) moved c calling)
        (held c calling)
  | openDevice bmCookie allocated outcome =>
      obtain ⟨asked, reqs⟩ := start_records s.world outcome
      rcases open_step ch s t bmCookie allocated outcome stepped with
        rfl | ⟨_, rfl⟩ | ⟨_, _, rfl⟩ | ⟨_, _, rfl⟩
      · exact held
      · exact beside rfl rfl rfl held
      · exact beside rfl asked reqs held
      · exact beside rfl asked reqs held
  | closeDevice bmCookie =>
      obtain rfl := Option.some.inj stepped
      obtain ⟨asked, reqs⟩ := close_records s.world bmCookie
      exact beside rfl asked reqs held
  | teardown i =>
      obtain ⟨_, rfl⟩ := teardown_step ch s t i stepped
      exact beside rfl rfl rfl held
  | _ =>
      obtain rfl := Option.some.inj stepped
      exact beside rfl rfl rfl held

/-- A fact that is true of new calls and that their steps keep is true of every call. -/
theorem calls_reached (own : OfRequests known) (begins : ∀ w r, known w (.beginIo r))
    (aborts : ∀ w r, known w (.abortReads r)) (steps : StepsKnown ch known) (s : Driver)
    (reached : (unitMachine ch).Reached s) : ∀ c ∈ s.calls, known s.world c := by
  apply (unitMachine ch).invariant_within fun s => ∀ c ∈ s.calls, known s.world c
  · intro s cold c member
    simp [cold.calls] at member
  · intro s a t before held stepped
    refine calls_step ch known own begins aborts s t a before ?_ held stepped
    intro e c member w next moved
    have promised : ∀ p ∈ c.claim, p.2.promise (s.world.asked p.1, s.world.reqs p.1) :=
      fun p claimed => (kept_reached ch s before).promised p
        (List.mem_append_left _ (List.mem_flatMap.mpr ⟨c, member, claimed⟩))
    exact steps e s.world w c next (held c member) promised moved
  · exact reached

end

end Pa6tEth

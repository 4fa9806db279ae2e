import Pa6tEth.Init

/-! What a failed `_manager_Init` leaves behind. -/

namespace Pa6tEth

open Support

/-- Everything up to and with `PA6TEth_HWInit` is granted. -/
def hardwareReady (e : InitEnv) : Bool :=
  e.expansionBase != 0 && e.iPCI != 0 && (e.macDev != 0 && e.dmaDev != 0 && e.iobDev != 0) &&
    e.utilityBase != 0 && e.iUtility != 0 && e.unit != 0 && (e.dmaIf && e.txIdle && e.rxIdle) &&
    e.txRing.mapped && e.rxRing.mapped && e.rxBufRing.mapped

def irqReady (e : InitEnv) : Bool := e.irqNumber != 0#32 && e.addIntServer

/-- What a library base stands for while `Init` runs. -/
def PA6TEthBase.soFar (b : PA6TEthBase) : List Resource := b.rings.held ++ b.own

/-- A part of `Init` takes and gives what its changes of the library base stand for. -/
def Balanced (stage : InitStage) (b : PA6TEthBase) : Prop :=
  Settles b.soFar (stage b).2.1 (stage b).1.soFar

/-- The stages up to and with `PA6TEth_HWInit`. -/
def bringUp (e : InitEnv) : List InitStage :=
  [obtain (fun b => { b with expansionBase := e.expansionBase }) e.expansionBase
      (.library e.expansionBase),
    obtain (fun b => { b with iPCI := e.iPCI }) e.iPCI (.interface e.iPCI),
    findDevices e,
    obtain (fun b => { b with utilityBase := e.utilityBase }) e.utilityBase
      (.library e.utilityBase),
    obtain (fun b => { b with iUtility := e.iUtility }) e.iUtility (.interface e.iUtility),
    obtain (fun b => { b with unit := e.unit }) e.unit (.block e.unit),
    hwInit e]

theorem runStages_append (front back : List InitStage) (b : PA6TEthBase) :
    runStages (front ++ back) b =
      if (runStages front b).2.2 then
        ((runStages back (runStages front b).1).1,
          (runStages front b).2.1 ++ (runStages back (runStages front b).1).2.1,
          (runStages back (runStages front b).1).2.2)
      else runStages front b := by
  induction front generalizing b with
  | nil => simp [runStages]
  | cons stage rest ih =>
      simp only [List.cons_append, runStages, ih]
      split
      · split <;> simp only [List.append_assoc]
      · rfl

theorem runStages_cons (stage : InitStage) (rest : List InitStage) (b : PA6TEthBase) :
    (runStages (stage :: rest) b).2.2 = ((stage b).2.2 && (runStages rest (stage b).1).2.2) := by
  simp only [runStages]
  split
  · rename_i ok
    simp only [ok, Bool.true_and]
  · rename_i failed
    simp only [failed, Bool.false_and]

theorem balanced_nil (b : PA6TEthBase) : Balanced (runStages []) b := settles_refl _

theorem balanced_cons (stage : InitStage) (rest : List InitStage) (b : PA6TEthBase)
    (first : Balanced stage b)
    (later : (stage b).2.2 = true → Balanced (runStages rest) (stage b).1) :
    Balanced (runStages (stage :: rest)) b := by
  simp only [Balanced, runStages] at first later ⊢
  split
  · rename_i ok
    exact settles_trans _ _ _ _ _ first (later ok)
  · exact first

theorem runStages_kept {View : Type} (view : PA6TEthBase → View) (stages : List InitStage)
    (kept : ∀ stage ∈ stages, ∀ b, view (stage b).1 = view b) (b : PA6TEthBase) :
    view (runStages stages b).1 = view b := by
  induction stages generalizing b with
  | nil => rfl
  | cons stage rest ih =>
      have first := kept stage List.mem_cons_self b
      simp only [runStages]
      split
      · exact (ih (fun later member => kept later (List.mem_cons_of_mem _ member)) _).trans first
      · exact first

theorem settles_takeIf (pointer : Addr) (x : Resource) :
    Settles [] (takeIf pointer x) (heldIf pointer x) := by
  simp only [takeIf, heldIf]
  split
  · exact settles_refl []
  · exact settles_take x

theorem obtain_balanced (set : PA6TEthBase → PA6TEthBase) (pointer : Addr) (x : Resource)
    (b : PA6TEthBase) (more : (set b).soFar.Perm (heldIf pointer x ++ b.soFar)) :
    Balanced (obtain set pointer x) b :=
  settles_between _ _ _ _ _ (List.Perm.refl _) more
    (settles_taken _ b.soFar _ (settles_takeIf pointer x))

theorem fails_cons (left : PA6TEthBase → Prop) (stage : InitStage) (rest : List InitStage)
    (b : PA6TEthBase) (first : (stage b).2.2 = false → left (stage b).1)
    (later : (stage b).2.2 = true → (runStages rest (stage b).1).2.2 = false →
      left (runStages rest (stage b).1).1)
    (failed : (runStages (stage :: rest) b).2.2 = false) :
    left (runStages (stage :: rest) b).1 := by
  simp only [runStages] at failed ⊢
  split at failed
  · rename_i ok
    rw [if_pos ok]
    exact later ok failed
  · rename_i not
    rw [if_neg not]
    exact first failed

theorem findDevices_balanced (e : InitEnv) (b : PA6TEthBase)
    (fresh : b.macDev = 0 ∧ b.dmaDev = 0 ∧ b.iobDev = 0) : Balanced (findDevices e) b := by
  obtain ⟨mac, dma, iob⟩ := fresh
  have found : Balanced (runStages
      [obtain (fun b => { b with macDev := e.macDev }) e.macDev (.pciDevice e.macDev),
        obtain (fun b => { b with dmaDev := e.dmaDev }) e.dmaDev (.pciDevice e.dmaDev),
        obtain (fun b => { b with iobDev := e.iobDev }) e.iobDev (.pciDevice e.iobDev)]) b := by
    apply balanced_cons
    · apply obtain_balanced
      rw [List.perm_iff_count]
      intro x
      simp only [PA6TEthBase.soFar, PA6TEthBase.own, List.count_append, mac, heldIf, if_true,
        List.count_nil]
      omega
    · intro _
      apply balanced_cons
      · apply obtain_balanced
        rw [List.perm_iff_count]
        intro x
        simp only [obtain, PA6TEthBase.soFar, PA6TEthBase.own, List.count_append, dma, heldIf,
          if_true, List.count_nil]
        omega
      · intro _
        apply balanced_cons
        · apply obtain_balanced
          rw [List.perm_iff_count]
          intro x
          simp only [obtain, PA6TEthBase.soFar, PA6TEthBase.own, List.count_append, iob, heldIf,
            if_true, List.count_nil]
          omega
        · exact fun _ => balanced_nil _
  simp only [Balanced, findDevices] at found ⊢
  split
  · exact found
  · rw [List.append_assoc]
    refine settles_trans _ _ _ _ _ found ?_
    generalize (runStages _ b).1 = done
    refine settles_between _ _ _ _ _ ?_ (List.Perm.refl _)
      (settles_given _ _ _ (settles_both _ _ _ _
        (settles_gives (heldIf done.dmaDev (.pciDevice done.dmaDev)))
        (settles_gives (heldIf done.macDev (.pciDevice done.macDev)))))
    rw [List.perm_iff_count]
    intro x
    simp only [PA6TEthBase.soFar, PA6TEthBase.own, List.count_append, heldIf, if_true,
      List.count_nil]
    omega

theorem findDevices_end (e : InitEnv) (b : PA6TEthBase) :
    (findDevices e b).2.2 = (e.macDev != 0 && e.dmaDev != 0 && e.iobDev != 0) := by
  have ends : ∀ found : PA6TEthBase × ResourceLog × Bool, ∀ lost : PA6TEthBase × ResourceLog,
      (if found.2.2 then found else (lost.1, lost.2, false)).2.2 = found.2.2 := by
    intro found lost
    split
    · rfl
    · rename_i missing
      exact (by simpa using missing : found.2.2 = false).symm
  have found := ends (runStages
    [obtain (fun b => { b with macDev := e.macDev }) e.macDev (.pciDevice e.macDev),
      obtain (fun b => { b with dmaDev := e.dmaDev }) e.dmaDev (.pciDevice e.dmaDev),
      obtain (fun b => { b with iobDev := e.iobDev }) e.iobDev (.pciDevice e.iobDev)] b)
  refine (found (_, _)).trans ?_
  rw [runStages_cons, runStages_cons, runStages_cons, Bool.and_assoc]
  simp only [obtain, runStages, Bool.and_true]

theorem findDevices_kept {View : Type} (view : PA6TEthBase → View)
    (kept : ∀ b mac dma iob, view { b with macDev := mac, dmaDev := dma, iobDev := iob } = view b)
    (e : InitEnv) (b : PA6TEthBase) : view (findDevices e b).1 = view b := by
  have found : view (runStages
      [obtain (fun b => { b with macDev := e.macDev }) e.macDev (.pciDevice e.macDev),
        obtain (fun b => { b with dmaDev := e.dmaDev }) e.dmaDev (.pciDevice e.dmaDev),
        obtain (fun b => { b with iobDev := e.iobDev }) e.iobDev (.pciDevice e.iobDev)]
      b).1 = view b := by
    apply runStages_kept view
    intro stage member b
    simp only [List.mem_cons, List.not_mem_nil, or_false] at member
    rcases member with rfl | rfl | rfl
    · exact kept b e.macDev b.dmaDev b.iobDev
    · exact kept b b.macDev e.dmaDev b.iobDev
    · exact kept b b.macDev b.dmaDev e.iobDev
  simp only [findDevices]
  split
  · exact found
  · exact (kept _ 0 0 _).trans found

theorem allocRing_balanced (o : BufOutcome) (size : Nat)
    (set : Addr → Nat → PA6TEthBase → PA6TEthBase) (b : PA6TEthBase)
    (more : ∀ entries, (set o.virt entries b).soFar.Perm
      (mappedBlock o.virt size entries ++ b.soFar)) : Balanced (allocRing o size set) b := by
  let block := Resource.block o.virt
  let mapping := Resource.mapping o.virt size
  have taken := settles_take block
  have unmapped := settles_trans _ _ _ _ _ (settles_take mapping) (settles_give mapping)
  have mapped : Settles [] [.take block, .take mapping] [mapping, block] :=
    ⟨[mapping, block], rfl, List.Perm.refl _⟩
  simp only [Balanced, allocRing, getPhys]
  split
  · exact settles_refl _
  · rename_i present
    refine settles_between _ _ _ _ _ (List.Perm.refl _) (more _) (settles_taken _ b.soFar _ ?_)
    simp only [mappedBlock, if_neg present]
    split
    · exact taken
    · rename_i entries
      split
      · exact settles_trans _ _ _ _ _ taken (settles_taken [] [block] _ unmapped)
      · exact mapped

theorem allocRing_end (o : BufOutcome) (size : Nat)
    (set : Addr → Nat → PA6TEthBase → PA6TEthBase) (b : PA6TEthBase) :
    (allocRing o size set b).2.2 = o.mapped := by
  simp only [allocRing, getPhys, BufOutcome.mapped]
  split
  · rename_i null
    simp [null]
  · rename_i present
    split
    · rename_i unlisted
      simp [unlisted]
    · rename_i entries
      split
      · rename_i listed
        simp [listed]
      · rename_i listed
        by_cases phys : o.phys = 0#32 <;> simp [present, entries, listed, phys]

/-- The rings of `PA6TEth_HWInit`, behind its checks of the hardware. -/
def ringStages (e : InitEnv) : List InitStage :=
  [allocRing e.txRing (ringBytes txRingSize) fun ring entries b =>
      { b with rings := { b.rings with txRing := ring, txRingDmaEntries := entries } },
    allocRing e.rxRing (ringBytes rxRingSize) fun ring entries b =>
      { b with rings := { b.rings with rxRing := ring, rxRingDmaEntries := entries } },
    allocRing e.rxBufRing (ringBytes rxBufRingSize) fun ring entries b =>
      { b with rings := { b.rings with rxBufRing := ring, rxBufRingDmaEntries := entries } },
    fun b => (b, takeIf e.iMMU (.interface e.iMMU) ++ giveIf e.iMMU (.interface e.iMMU), true)]

theorem ringStages_balanced (e : InitEnv) (b : PA6TEthBase)
    (fresh : b.rings.txRing = 0 ∧ b.rings.rxRing = 0 ∧ b.rings.rxBufRing = 0) :
    Balanced (runStages (ringStages e)) b := by
  obtain ⟨tx, rx, buf⟩ := fresh
  have ring : ∀ (o : BufOutcome) (size : Nat) (set : Addr → Nat → PA6TEthBase → PA6TEthBase) b,
      (allocRing o size set b).2.2 = true → (allocRing o size set b).1 = set o.virt o.nentries b :=
    fun o size set b ok => (allocRing_ok o size set b ok).1
  apply balanced_cons
  · apply allocRing_balanced
    intro entries
    rw [List.perm_iff_count]
    intro x
    simp only [PA6TEthBase.soFar, PA6TEthBase.own, UnitRings.held, List.count_append, tx,
      mappedBlock, if_true, List.count_nil]
    omega
  · intro ok
    rw [ring _ _ _ _ ok]
    apply balanced_cons
    · apply allocRing_balanced
      intro entries
      rw [List.perm_iff_count]
      intro x
      simp only [PA6TEthBase.soFar, PA6TEthBase.own, UnitRings.held, List.count_append, rx,
        mappedBlock, if_true, List.count_nil]
      omega
    · intro ok
      rw [ring _ _ _ _ ok]
      apply balanced_cons
      · apply allocRing_balanced
        intro entries
        rw [List.perm_iff_count]
        intro x
        simp only [PA6TEthBase.soFar, PA6TEthBase.own, UnitRings.held, List.count_append, buf,
          mappedBlock, if_true, List.count_nil]
        omega
      · intro _
        apply balanced_cons
        · refine settles_taken [] _ _ ?_
          exact settles_trans _ _ _ _ _ (settles_takeIf _ _) (settles_gives _)
        · exact fun _ => balanced_nil _

theorem ringStages_end (e : InitEnv) (b : PA6TEthBase) :
    (runStages (ringStages e) b).2.2 =
      (e.txRing.mapped && e.rxRing.mapped && e.rxBufRing.mapped) := by
  rw [ringStages, runStages_cons, runStages_cons, runStages_cons, runStages_cons,
    allocRing_end, allocRing_end, allocRing_end, Bool.and_assoc]
  simp only [runStages, Bool.and_true]

theorem ringStages_kept {View : Type} (view : PA6TEthBase → View)
    (kept : ∀ b rings, view { b with rings := rings } = view b) (e : InitEnv) (b : PA6TEthBase) :
    view (runStages (ringStages e) b).1 = view b := by
  have ring : ∀ (o : BufOutcome) (size : Nat) (set : Addr → Nat → PA6TEthBase → PA6TEthBase),
      (∀ virt entries b, view (set virt entries b) = view b) →
        ∀ b, view (allocRing o size set b).1 = view b := by
    intro o size set same b
    simp only [allocRing]
    split
    · rfl
    · exact same _ _ _
  apply runStages_kept view
  intro stage member b
  simp only [ringStages, List.mem_cons, List.not_mem_nil, or_false] at member
  rcases member with rfl | rfl | rfl | rfl
  · apply ring
    exact fun _ _ _ => kept _ _
  · apply ring
    exact fun _ _ _ => kept _ _
  · apply ring
    exact fun _ _ _ => kept _ _
  · rfl

theorem hwInit_eq (e : InitEnv) (b : PA6TEthBase) :
    hwInit e b =
      if e.dmaIf && e.txIdle && e.rxIdle then
        if (runStages (ringStages e) b).2.2 then runStages (ringStages e) b
        else
          ({ (runStages (ringStages e) b).1 with
              rings :=
                { (runStages (ringStages e) b).1.rings with
                  txRing := 0, rxRing := 0, rxBufRing := 0 } },
            (runStages (ringStages e) b).2.1 ++
              hwCleanup b.unit (runStages (ringStages e) b).1.rings (fun _ => 0) (fun _ => 0),
            false)
      else
        ({ b with rings := { b.rings with txRing := 0, rxRing := 0, rxBufRing := 0 } },
          hwCleanup b.unit b.rings (fun _ => 0) (fun _ => 0), false) := by
  have unit := ringStages_kept PA6TEthBase.unit (fun _ _ => rfl) e b
  have shape : hwInit e b =
      (fun armed : PA6TEthBase × ResourceLog × Bool =>
        if armed.2.2 then armed
        else
          ({ armed.1 with
              rings := { armed.1.rings with txRing := 0, rxRing := 0, rxBufRing := 0 } },
            armed.2.1 ++ hwCleanup armed.1.unit armed.1.rings (fun _ => 0) (fun _ => 0), false))
        (runStages ((fun b => (b, [], e.dmaIf && e.txIdle && e.rxIdle)) :: ringStages e) b) := rfl
  rw [shape]
  cases idle : e.dmaIf && e.txIdle && e.rxIdle with
  | false => simp [runStages]
  | true => simp [runStages, unit]

def Ringless (b : PA6TEthBase) : Prop :=
  b.rings.txRing = 0 ∧ b.rings.rxRing = 0 ∧ b.rings.rxBufRing = 0

theorem ringless_held (b : PA6TEthBase) (none : Ringless b) : b.rings.held = [] := by
  obtain ⟨tx, rx, buf⟩ := none
  simp only [UnitRings.held, mappedBlock, tx, rx, buf, if_true, List.append_nil]

theorem hwInit_balanced (e : InitEnv) (b : PA6TEthBase) (unit : b.unit ≠ 0)
    (fresh : Ringless b) : Balanced (hwInit e) b := by
  have rings := ringStages_balanced e b fresh
  have cleaned : ∀ done : PA6TEthBase, Settles done.soFar
      (hwCleanup b.unit done.rings (fun _ => 0) (fun _ => 0))
      ({ done with rings := { done.rings with txRing := 0, rxRing := 0, rxBufRing := 0 } } :
        PA6TEthBase).soFar := by
    intro done
    simp only [hwCleanup, if_neg unit, rxBufsHeld_none, List.nil_append]
    have given := settles_given done.rings.held done.own _ (settles_gives done.rings.held)
    refine settles_between _ _ _ _ _ (List.Perm.refl _) (List.Perm.of_eq ?_) given
    rw [PA6TEthBase.soFar, ringless_held _ ⟨rfl, rfl, rfl⟩]
    rfl
  simp only [Balanced, hwInit_eq] at rings ⊢
  split
  · split
    · exact rings
    · exact settles_trans _ _ _ _ _ rings (cleaned _)
  · exact cleaned b

theorem hwInit_end (e : InitEnv) (b : PA6TEthBase) :
    (hwInit e b).2.2 = (e.dmaIf && e.txIdle && e.rxIdle && e.txRing.mapped && e.rxRing.mapped &&
      e.rxBufRing.mapped) := by
  rw [hwInit_eq]
  cases idle : e.dmaIf && e.txIdle && e.rxIdle with
  | false => rfl
  | true =>
      have ends := ringStages_end e b
      rw [if_pos rfl, Bool.true_and, ← ends]
      split
      · rfl
      · rename_i failed
        exact (by simpa using failed : (runStages (ringStages e) b).2.2 = false).symm

theorem hwInit_irq (e : InitEnv) (b : PA6TEthBase) :
    (hwInit e b).1.irqInstalled = b.irqInstalled := by
  have rings := ringStages_kept PA6TEthBase.irqInstalled (fun _ _ => rfl) e b
  rw [hwInit_eq]
  split
  · split <;> exact rings
  · rfl

theorem hwInit_failed (e : InitEnv) (b : PA6TEthBase) (failed : (hwInit e b).2.2 = false) :
    Ringless (hwInit e b).1 := by
  rw [hwInit_eq] at failed ⊢
  split at failed
  · split at failed
    · rename_i idle ok
      rw [ok] at failed
      cases failed
    · rename_i idle lost
      rw [if_pos idle, if_neg lost]
      exact ⟨rfl, rfl, rfl⟩
  · rename_i busy
    rw [if_neg busy]
    exact ⟨rfl, rfl, rfl⟩

theorem bringUp_end (e : InitEnv) :
    (runStages (bringUp e) emptyBase).2.2 = hardwareReady e := by
  have last : ∀ b, (runStages [] b).2.2 = true := fun _ => rfl
  rw [bringUp, runStages_cons, runStages_cons, runStages_cons, runStages_cons, runStages_cons,
    runStages_cons, runStages_cons, last]
  simp only [findDevices_end, hwInit_end, obtain, Bool.and_true, hardwareReady, Bool.and_assoc]

theorem bringUp_balanced (e : InitEnv) : Balanced (runStages (bringUp e)) emptyBase := by
  have more : ∀ (set : PA6TEthBase → PA6TEthBase) (pointer : Addr) (x : Resource) b,
      (∀ y, (set b).soFar.count y = (heldIf pointer x).count y + b.soFar.count y) →
        Balanced (obtain set pointer x) b := by
    intro set pointer x b counts
    apply obtain_balanced
    rw [List.perm_iff_count]
    intro y
    rw [counts y, List.count_append]
  apply balanced_cons
  · apply more
    intro y
    simp only [emptyBase, PA6TEthBase.soFar, PA6TEthBase.own, List.count_append, heldIf, if_true,
      List.count_nil]
    omega
  intro _
  apply balanced_cons
  · apply more
    intro y
    simp only [obtain, emptyBase, PA6TEthBase.soFar, PA6TEthBase.own, List.count_append, heldIf,
      if_true, List.count_nil]
    omega
  intro _
  apply balanced_cons
  · exact findDevices_balanced e _ ⟨rfl, rfl, rfl⟩
  intro devices
  rw [(findDevices_ok e _ devices).1]
  apply balanced_cons
  · apply more
    intro y
    simp only [obtain, emptyBase, PA6TEthBase.soFar, PA6TEthBase.own, List.count_append, heldIf,
      if_true, List.count_nil]
    omega
  intro _
  apply balanced_cons
  · apply more
    intro y
    simp only [obtain, emptyBase, PA6TEthBase.soFar, PA6TEthBase.own, List.count_append, heldIf,
      if_true, List.count_nil]
    omega
  intro _
  apply balanced_cons
  · apply more
    intro y
    simp only [obtain, emptyBase, PA6TEthBase.soFar, PA6TEthBase.own, List.count_append, heldIf,
      if_true, List.count_nil]
    omega
  intro unit
  apply balanced_cons
  · exact hwInit_balanced e _ (by simpa [obtain] using unit) ⟨rfl, rfl, rfl⟩
  · exact fun _ => balanced_nil _

theorem bringUp_rings (e : InitEnv) :
    if hardwareReady e then (runStages (bringUp e) emptyBase).1.rings = madeRings e
    else Ringless (runStages (bringUp e) emptyBase).1 := by
  have ends := bringUp_end e
  have kept : ∀ b, Ringless b → ∀ stage : InitStage, (stage b).1.rings = b.rings →
      Ringless (stage b).1 := by
    intro b none stage same
    simpa only [Ringless, same] using none
  split
  · rename_i ready
    have last : bringUp e = (bringUp e).dropLast ++ [hwInit e] := rfl
    rw [ready, last, runStages_append] at ends
    rw [last, runStages_append]
    split at ends
    · rename_i before
      obtain ⟨rings, _, ran⟩ := runStages_ok _ _ _ ends
      rw [if_pos before, ran, runStages, (hwInit_ok e _ rings).1]
    · contradiction
  · rename_i lost
    rw [Bool.eq_false_of_not_eq_true lost] at ends
    revert ends
    apply fails_cons Ringless
    · exact fun _ => ⟨rfl, rfl, rfl⟩
    intro _
    apply fails_cons Ringless
    · exact fun _ => ⟨rfl, rfl, rfl⟩
    intro _
    apply fails_cons Ringless
    · exact fun _ => kept _ ⟨rfl, rfl, rfl⟩ _ (findDevices_kept _ (fun _ _ _ _ => rfl) e _)
    intro devices
    rw [(findDevices_ok e _ devices).1]
    apply fails_cons Ringless
    · exact fun _ => ⟨rfl, rfl, rfl⟩
    intro _
    apply fails_cons Ringless
    · exact fun _ => ⟨rfl, rfl, rfl⟩
    intro _
    apply fails_cons Ringless
    · exact fun _ => ⟨rfl, rfl, rfl⟩
    intro _
    apply fails_cons Ringless
    · exact hwInit_failed e _
    · intro _ ended
      cases ended

theorem bringUp_irq (e : InitEnv) :
    (runStages (bringUp e) emptyBase).1.irqInstalled = false := by
  apply runStages_kept PA6TEthBase.irqInstalled
  intro stage member b
  simp only [bringUp, List.mem_cons, List.not_mem_nil, or_false] at member
  rcases member with rfl | rfl | rfl | rfl | rfl | rfl | rfl
  · rfl
  · rfl
  · exact findDevices_kept PA6TEthBase.irqInstalled (fun _ _ _ _ => rfl) e b
  · rfl
  · rfl
  · rfl
  · exact hwInit_irq e b

def initFails (e : InitEnv) : Bool := !(hardwareReady e && irqReady e)

/-- A failed `_manager_Init` returns `NULL`, and what it took it has given back, each once. -/
def LeavesNothing (e : InitEnv) : Prop :=
  initFails e = true → (managerInit e).2 = none ∧ settle [] (managerInit e).1 = some []

theorem installIrq_end (e : InitEnv) (b : PA6TEthBase) : (installIrq e b).2.2 = irqReady e := by
  simp only [installIrq, irqReady]
  split
  · rename_i unmapped
    simp [unmapped]
  · rename_i vector
    split
    · rename_i refused
      simp [refused]
    · rename_i added
      simp [vector, added]

theorem installIrq_lost (e : InitEnv) (b : PA6TEthBase) (lost : (installIrq e b).2.2 = false) :
    (installIrq e b).2.1 = [] ∧ ∃ number, (installIrq e b).1 = { b with irqNumber := number } := by
  simp only [installIrq] at lost ⊢
  split
  · exact ⟨rfl, b.irqNumber, rfl⟩
  · rename_i vector
    rw [if_neg vector] at lost
    split
    · exact ⟨rfl, e.irqNumber, rfl⟩
    · rename_i added
      rw [if_neg added] at lost
      cases lost

theorem initFailed_settles (b : PA6TEthBase) (none : b.irqInstalled = false) :
    Settles b.soFar (initFailed b) b.rings.held := by
  have gives := settles_given _ b.rings.held _ (settles_gives
    (heldIf b.unit (.block b.unit) ++ heldIf b.iUtility (.interface b.iUtility) ++
      heldIf b.utilityBase (.library b.utilityBase) ++ heldIf b.iobDev (.pciDevice b.iobDev) ++
      heldIf b.dmaDev (.pciDevice b.dmaDev) ++ heldIf b.macDev (.pciDevice b.macDev) ++
      heldIf b.iPCI (.interface b.iPCI) ++
      heldIf b.expansionBase (.library b.expansionBase)))
  simp only [List.map_append] at gives
  refine settles_between _ _ _ _ _ ?_ (List.Perm.refl _) gives
  rw [List.perm_iff_count]
  intro x
  simp only [PA6TEthBase.soFar, PA6TEthBase.own, none, Bool.false_eq_true, if_false,
    List.count_append, List.count_nil]
  omega

/-- What is left is the rings that the library base has at the `fail` label. -/
theorem init_leaves (e : InitEnv) (fails : initFails e = true) :
    (managerInit e).2 = none ∧ Settles [] (managerInit e).1
      (if hardwareReady e then (madeRings e).held else []) := by
  have ends := bringUp_end e
  have rings := bringUp_rings e
  have irq := bringUp_irq e
  have empty : emptyBase.soFar = [] := rfl
  have left : Settles emptyBase.soFar _ _ :=
    settles_trans _ _ _ _ _ (bringUp_balanced e) (initFailed_settles _ irq)
  rw [empty] at left
  have shape : managerInit e =
      (fun made : PA6TEthBase × ResourceLog × Bool =>
        if made.2.2 then (made.2.1, some made.1) else (made.2.1 ++ initFailed made.1, none))
        (runStages (bringUp e ++ [installIrq e]) emptyBase) := rfl
  rw [shape, runStages_append]
  generalize runStages (bringUp e) emptyBase = done at ends rings irq left ⊢
  cases ready : hardwareReady e with
  | false =>
      rw [ready] at ends rings
      simp only [ends, Bool.false_eq_true, if_false]
      refine ⟨trivial, ?_⟩
      rwa [ringless_held done.1 rings] at left
  | true =>
      rw [ready] at ends rings
      simp only [if_true] at rings
      have lost : (installIrq e done.1).2.2 = false := by
        rw [installIrq_end]
        simpa [initFails, ready] using fails
      obtain ⟨none, number, same⟩ := installIrq_lost e done.1 lost
      simp only [ends, if_true, runStages, lost, Bool.false_eq_true, if_false, none, same,
        List.append_nil]
      refine ⟨trivial, ?_⟩
      rwa [rings] at left

/-- A failed `Init` leaves nothing exactly when it is not the interrupt alone that fails. -/
theorem init_failure_iff (e : InitEnv) :
    LeavesNothing e ↔ (hardwareReady e = true → irqReady e = true) := by
  constructor
  · intro clean ready
    by_contra refused
    have fails : initFails e = true := by
      simpa [initFails, ready] using refused
    have leaves := (init_leaves e fails).2
    rw [ready, if_pos rfl] at leaves
    have gone := (settles_nothing _ _ _ leaves).mp (clean fails).2
    have ring : e.txRing.virt ≠ 0 := by
      simp only [hardwareReady, BufOutcome.mapped, Bool.and_eq_true, decide_eq_true_eq] at ready
      exact ready.1.1.2.1.1.1
    simp [UnitRings.held, mappedBlock, madeRings, ring] at gone
  · intro ready fails
    have lost : hardwareReady e = false := by
      cases reached : hardwareReady e with
      | false => rfl
      | true => simp [initFails, reached, ready reached] at fails
    obtain ⟨null, leaves⟩ := init_leaves e fails
    rw [lost] at leaves
    exact ⟨null, (settles_nothing _ _ _ leaves).mpr rfl⟩

def refusedIrq : InitEnv := { readyEnv with addIntServer := false }

/-- The three rings stay allocated and mapped, and nothing points to them any more. -/
theorem init_failure_leaks :
    initFails refusedIrq = true ∧ (managerInit refusedIrq).2 = none ∧
      settle [] (managerInit refusedIrq).1 =
        some [.mapping 0x8000 16384, .block 0x8000, .mapping 0x1000 16384, .block 0x1000,
          .mapping 0x4000 2048, .block 0x4000] ∧
      ¬ LeavesNothing refusedIrq := by
  refine ⟨by decide, by decide, by decide, fun clean => ?_⟩
  exact absurd (clean (by decide)).2 (by decide)

end Pa6tEth

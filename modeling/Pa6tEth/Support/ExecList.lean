import Pa6tEth.Support.Loop
import Mathlib.Logic.Function.Basic
import Mathlib.Data.List.Nodup

/-! Doubly linked lists whose nodes hold their own links, between two pseudo-nodes of a header. -/

namespace Support

/-- The first pseudo-node has no predecessor, the second no successor. -/
structure Header (Node : Type) where
  head : Node
  tail : Node

/-- The link fields of all nodes; `none` is a null pointer. -/
structure Links (Node : Type) where
  succ : Node → Option Node
  pred : Node → Option Node

variable {Node : Type}

def Header.full (h : Header Node) (nodes : List Node) : List Node :=
  h.head :: (nodes ++ [h.tail])

/-- From one node to another through the nodes of the list, by the links of both directions. -/
def Chain (l : Links Node) : Node → List Node → Node → Prop
  | a, [], b => l.succ a = some b ∧ l.pred b = some a
  | a, n :: rest, b => l.succ a = some n ∧ l.pred n = some a ∧ Chain l n rest b

theorem chain_append (l : Links Node) (a n b : Node) (front back : List Node) :
    Chain l a (front ++ n :: back) b ↔ Chain l a front n ∧ Chain l n back b := by
  induction front generalizing a with
  | nil => simp only [List.nil_append, Chain, and_assoc]
  | cons x rest ih => simp only [List.cons_append, Chain, ih, and_assoc]

theorem chain_congr (l l' : Links Node) (a b : Node) (nodes : List Node) (chain : Chain l a nodes b)
    (succ : ∀ x ∈ a :: nodes, l'.succ x = l.succ x)
    (pred : ∀ x ∈ nodes ++ [b], l'.pred x = l.pred x) : Chain l' a nodes b := by
  induction nodes generalizing a with
  | nil =>
      constructor
      · rw [succ a List.mem_cons_self]
        exact chain.1
      · rw [pred b List.mem_cons_self]
        exact chain.2
  | cons n rest ih =>
      obtain ⟨first, second, later⟩ := chain
      refine ⟨?_, ?_, ?_⟩
      · rw [succ a List.mem_cons_self]
        exact first
      · rw [pred n List.mem_cons_self]
        exact second
      · apply ih n later
        · exact fun x member => succ x (List.mem_cons_of_mem a member)
        · exact fun x member => pred x (List.mem_cons_of_mem n member)

theorem chain_last (l : Links Node) (a b : Node) (nodes : List Node) (chain : Chain l a nodes b) :
    ∃ p ∈ a :: nodes, l.pred b = some p := by
  induction nodes generalizing a with
  | nil => exact ⟨a, List.mem_cons_self, chain.2⟩
  | cons n rest ih =>
      obtain ⟨p, member, last⟩ := ih n chain.2.2
      exact ⟨p, List.mem_cons_of_mem a member, last⟩

/-- The node at which a chain goes on: the first of its nodes, or its end. -/
def firstOr (nodes : List Node) (b : Node) : Node := (nodes.head?).getD b

theorem chain_first (l : Links Node) (a b : Node) (nodes : List Node) (chain : Chain l a nodes b) :
    l.succ a = some (firstOr nodes b) := by
  cases nodes with
  | nil => exact chain.1
  | cons n rest => exact chain.1

theorem firstOr_mem (nodes : List Node) (b : Node) : firstOr nodes b ∈ nodes ++ [b] := by
  cases nodes with
  | nil => exact List.mem_cons_self
  | cons n rest => exact List.mem_cons_self

section

variable [DecidableEq Node]

namespace Links

/-- The neighbours of the node are linked to each other; its own links stay as they are. -/
def remove (l : Links Node) (n : Node) : Links Node where
  succ :=
    match l.pred n with
    | some p => Function.update l.succ p (l.succ n)
    | none => l.succ
  pred :=
    match l.succ n with
    | some s => Function.update l.pred s (l.pred n)
    | none => l.pred

def addTail (l : Links Node) (h : Header Node) (n : Node) : Links Node where
  succ :=
    match l.pred h.tail with
    | some p => Function.update (Function.update l.succ n (some h.tail)) p (some n)
    | none => Function.update l.succ n (some h.tail)
  pred := Function.update (Function.update l.pred n (l.pred h.tail)) h.tail (some n)

end Links

theorem remove_links (l : Links Node) (n p s : Node) (before : l.pred n = some p)
    (after : l.succ n = some s) :
    (l.remove n).succ = Function.update l.succ p (some s) ∧
      (l.remove n).pred = Function.update l.pred s (some p) := by
  simp only [Links.remove, before, after, and_self]

theorem addTail_links (l : Links Node) (h : Header Node) (n p : Node)
    (last : l.pred h.tail = some p) :
    (l.addTail h n).succ = Function.update (Function.update l.succ n (some h.tail)) p (some n) ∧
      (l.addTail h n).pred = Function.update (Function.update l.pred n (some p)) h.tail (some n) := by
  simp only [Links.addTail, last, and_self]

theorem remove_chain (l : Links Node) (a n b : Node) (front back : List Node)
    (chain : Chain l a (front ++ n :: back) b)
    (distinct : (a :: (front ++ n :: back ++ [b])).Nodup) :
    Chain (l.remove n) a (front ++ back) b := by
  induction front generalizing a with
  | nil =>
      obtain ⟨_, before, later⟩ := chain
      have after := chain_first l n b back later
      obtain ⟨succ, pred⟩ := remove_links l n a _ before after
      obtain ⟨fresh, distinct⟩ := List.nodup_cons.mp distinct
      obtain ⟨_, distinct⟩ := List.nodup_cons.mp distinct
      cases back with
      | nil =>
          constructor
          · rw [succ, Function.update_self]
            rfl
          · rw [pred]
            exact Function.update_self _ _ _
      | cons m rest =>
          refine ⟨?_, ?_, ?_⟩
          · rw [succ, Function.update_self]
            rfl
          · rw [pred]
            exact Function.update_self _ _ _
          · apply chain_congr l _ m b rest later.2.2
            · intro x member
              rw [succ, Function.update_of_ne]
              rintro rfl
              simp only [List.nil_append, List.cons_append, List.mem_cons, List.mem_append] at fresh member
              tauto
            · intro x member
              rw [pred, Function.update_of_ne]
              rintro rfl
              exact (List.nodup_cons.mp distinct).1 member
  | cons x rest ih =>
      obtain ⟨first, second, later⟩ := chain
      obtain ⟨fresh, distinct⟩ := List.nodup_cons.mp distinct
      obtain ⟨ahead, behind⟩ := (chain_append l x n b rest back).mp later
      obtain ⟨p, here, before⟩ := chain_last l x n rest ahead
      have after := chain_first l n b back behind
      have there := firstOr_mem back b
      obtain ⟨succ, pred⟩ := remove_links l n p _ before after
      refine ⟨?_, ?_, ih x later distinct⟩
      · rw [succ, Function.update_of_ne]
        · exact first
        · rintro rfl
          apply fresh
          simp only [List.cons_append, List.mem_cons, List.mem_append] at here ⊢
          tauto
      · rw [pred, Function.update_of_ne]
        · exact second
        · intro same
          apply (List.nodup_cons.mp distinct).1
          have inside : firstOr back b ∈ rest ++ (n :: (back ++ [b])) :=
            List.mem_append_right _ (List.mem_cons_of_mem n there)
          rw [same]
          simpa only [List.append_eq, List.append_assoc, List.cons_append] using inside

theorem addTail_chain (l : Links Node) (h : Header Node) (a n : Node) (nodes : List Node)
    (chain : Chain l a nodes h.tail) (distinct : (a :: (nodes ++ [h.tail])).Nodup)
    (fresh : n ∉ a :: (nodes ++ [h.tail])) : Chain (l.addTail h n) a (nodes ++ [n]) h.tail := by
  obtain ⟨p, member, last⟩ := chain_last l a h.tail nodes chain
  obtain ⟨succ, pred⟩ := addTail_links l h n p last
  have apart : n ≠ h.tail := by
    rintro rfl
    simp at fresh
  rw [chain_append]
  constructor
  · induction nodes generalizing a with
    | nil =>
        obtain rfl : p = a := by simpa using member
        constructor
        · rw [succ, Function.update_self]
        · rw [pred, Function.update_of_ne apart, Function.update_self]
    | cons x rest ih =>
        obtain ⟨first, second, later⟩ := chain
        obtain ⟨outside, distinct⟩ := List.nodup_cons.mp distinct
        obtain ⟨q, inside, same⟩ := chain_last l x h.tail rest later
        obtain rfl : p = q := Option.some.inj (last.symm.trans same)
        refine ⟨?_, ?_, ?_⟩
        · rw [succ, Function.update_of_ne, Function.update_of_ne]
          · exact first
          · rintro rfl
            exact fresh List.mem_cons_self
          · rintro rfl
            exact outside (List.mem_append_left _ inside)
        · rw [pred, Function.update_of_ne, Function.update_of_ne]
          · exact second
          · rintro rfl
            exact fresh (List.mem_cons_of_mem _ List.mem_cons_self)
          · rintro rfl
            exact (List.nodup_cons.mp distinct).1 (by simp)
        · exact ih x later distinct (fun member => fresh (List.mem_cons_of_mem _ member)) inside
  · constructor
    · rw [succ, Function.update_of_ne, Function.update_self]
      rintro rfl
      apply fresh
      rcases List.mem_cons.mp member with rfl | inside
      · exact List.mem_cons_self
      · exact List.mem_cons_of_mem a (List.mem_append_left _ inside)
    · rw [pred, Function.update_self]

end

section

variable {Queue : Type}

/-- Each header has its list of nodes, and no node is in two places. -/
structure Arranged (header : Queue → Header Node) (l : Links Node) (nodes : Queue → List Node) :
    Prop where
  chain : ∀ q, Chain l (header q).head (nodes q) (header q).tail
  stop : ∀ q, l.succ (header q).tail = none
  distinct : ∀ q, ((header q).full (nodes q)).Nodup
  apart : ∀ q q', q ≠ q' → List.Disjoint ((header q).full (nodes q)) ((header q').full (nodes q'))

/-- The node is linked into one of the lists, or is one of their pseudo-nodes. -/
def Linked (header : Queue → Header Node) (nodes : Queue → List Node) (n : Node) : Prop :=
  ∃ q, n ∈ (header q).full (nodes q)

variable [DecidableEq Queue]

theorem arranged_update (header : Queue → Header Node) (l l' : Links Node)
    (nodes : Queue → List Node) (q : Queue) (changed : List Node) (arranged : Arranged header l nodes)
    (chain : Chain l' (header q).head changed (header q).tail)
    (stop : l'.succ (header q).tail = none) (distinct : ((header q).full changed).Nodup)
    (others : ∀ q', q' ≠ q → ∀ x ∈ (header q').full (nodes q'),
      l'.succ x = l.succ x ∧ l'.pred x = l.pred x ∧ x ∉ (header q).full changed) :
    Arranged header l' (Function.update nodes q changed) where
  chain := by
    intro q'
    by_cases here : q' = q
    · subst here
      rw [Function.update_self]
      exact chain
    · rw [Function.update_of_ne here]
      apply chain_congr l l' _ _ _ (arranged.chain q')
      · intro x member
        refine (others q' here x ?_).1
        exact (List.mem_cons.mp member).elim (fun same => same ▸ List.mem_cons_self)
          fun inside => List.mem_cons_of_mem _ (List.mem_append_left _ inside)
      · intro x member
        exact (others q' here x (List.mem_cons_of_mem _ member)).2.1
  stop := by
    intro q'
    by_cases here : q' = q
    · subst here
      exact stop
    · rw [(others q' here _ (List.mem_cons_of_mem _ (by simp))).1]
      exact arranged.stop q'
  distinct := by
    intro q'
    by_cases here : q' = q
    · subst here
      rw [Function.update_self]
      exact distinct
    · rw [Function.update_of_ne here]
      exact arranged.distinct q'
  apart := by
    intro q' q'' different
    by_cases here : q' = q
    · subst here
      rw [Function.update_self, Function.update_of_ne different.symm]
      intro x inside outside
      exact (others q'' different.symm x outside).2.2 inside
    · rw [Function.update_of_ne here]
      by_cases there : q'' = q
      · subst there
        rw [Function.update_self]
        intro x inside outside
        exact (others q' here x inside).2.2 outside
      · rw [Function.update_of_ne there]
        exact arranged.apart q' q'' different

variable [DecidableEq Node]

theorem arranged_remove (header : Queue → Header Node) (l : Links Node) (nodes : Queue → List Node)
    (q : Queue) (n : Node) (front back : List Node) (arranged : Arranged header l nodes)
    (placed : nodes q = front ++ n :: back) :
    Arranged header (l.remove n) (Function.update nodes q (front ++ back)) := by
  have chain := arranged.chain q
  have distinct := arranged.distinct q
  have apart := arranged.apart q
  rw [placed] at chain distinct apart
  obtain ⟨ahead, behind⟩ := (chain_append l _ n _ front back).mp chain
  obtain ⟨p, here, before⟩ := chain_last l _ n front ahead
  have after := chain_first l n _ back behind
  have there := firstOr_mem back (header q).tail
  obtain ⟨succ, pred⟩ := remove_links l n p _ before after
  have inside : p ∈ (header q).full (front ++ n :: back) := by
    rcases List.mem_cons.mp here with rfl | member
    · exact List.mem_cons_self
    · exact List.mem_cons_of_mem _ (List.mem_append_left _ (List.mem_append_left _ member))
  have outside : firstOr back (header q).tail ∈ (header q).full (front ++ n :: back) := by
    rw [Header.full, List.append_assoc, List.cons_append]
    exact List.mem_cons_of_mem _ (List.mem_append_right _ (List.mem_cons_of_mem n there))
  have shorter : (header q).full (front ++ back) ⊆ (header q).full (front ++ n :: back) := by
    intro x member
    simp only [Header.full, List.mem_cons, List.mem_append] at member ⊢
    tauto
  apply arranged_update header l _ nodes q _ arranged
  · exact remove_chain l _ n _ front back chain distinct
  · rw [succ, Function.update_of_ne]
    · exact arranged.stop q
    · rintro same
      obtain ⟨fresh, rest⟩ := List.nodup_cons.mp distinct
      obtain ⟨_, _, different⟩ := List.nodup_append.mp rest
      rcases List.mem_cons.mp here with rfl | member
      · exact fresh (same ▸ by simp)
      · exact different p (List.mem_append_left _ member) _ List.mem_cons_self same.symm
  · have sub : List.Sublist ((header q).full (front ++ back))
        ((header q).full (front ++ n :: back)) := by
      simp only [Header.full]
      apply List.Sublist.cons_cons
      apply List.Sublist.append_right
      exact List.Sublist.append_left (List.sublist_cons_self n back) front
    exact sub.nodup distinct
  · intro q' other x member
    have absent := apart q' other.symm
    refine ⟨?_, ?_, fun kept => absent (shorter kept) member⟩
    · rw [succ, Function.update_of_ne]
      rintro rfl
      exact absent inside member
    · rw [pred, Function.update_of_ne]
      rintro rfl
      exact absent outside member

theorem arranged_addTail (header : Queue → Header Node) (l : Links Node) (nodes : Queue → List Node)
    (q : Queue) (n : Node) (arranged : Arranged header l nodes)
    (fresh : ¬ Linked header nodes n) :
    Arranged header (l.addTail (header q) n) (Function.update nodes q (nodes q ++ [n])) := by
  have apart := arranged.apart q
  have distinct := arranged.distinct q
  have unlinked : ∀ q', n ∉ (header q').full (nodes q') := fun q' member => fresh ⟨q', member⟩
  obtain ⟨p, here, last⟩ := chain_last l _ _ _ (arranged.chain q)
  obtain ⟨succ, pred⟩ := addTail_links l (header q) n p last
  have inside : p ∈ (header q).full (nodes q) := by
    rcases List.mem_cons.mp here with rfl | member
    · exact List.mem_cons_self
    · exact List.mem_cons_of_mem _ (List.mem_append_left _ member)
  have ending : (header q).tail ∈ (header q).full (nodes q) := by simp [Header.full]
  have chained := addTail_chain l (header q) _ n _ (arranged.chain q) distinct (unlinked q)
  apply arranged_update header l _ nodes q _ arranged
  · exact chained
  · rw [succ, Function.update_of_ne, Function.update_of_ne]
    · exact arranged.stop q
    · exact fun same => unlinked q (same ▸ ending)
    · rintro same
      obtain ⟨outside, rest⟩ := List.nodup_cons.mp distinct
      obtain ⟨_, _, different⟩ := List.nodup_append.mp rest
      rcases List.mem_cons.mp here with rfl | member
      · exact outside (same ▸ by simp)
      · exact different p member _ List.mem_cons_self same.symm
  · have longer : ((header q).full (nodes q ++ [n])).Perm (n :: (header q).full (nodes q)) := by
      have moved : ((header q).head :: (nodes q ++ n :: [(header q).tail])).Perm
          ((header q).head :: n :: (nodes q ++ [(header q).tail])) :=
        List.Perm.cons _ List.perm_middle
      simp only [Header.full, List.append_assoc]
      exact moved.trans (List.Perm.swap _ _ _)
    exact longer.nodup_iff.mpr (List.nodup_cons.mpr ⟨unlinked q, distinct⟩)
  · intro q' other x member
    have absent := apart q' other.symm
    have different : x ≠ n := fun same => unlinked q' (same ▸ member)
    refine ⟨?_, ?_, ?_⟩
    · rw [succ, Function.update_of_ne, Function.update_of_ne different]
      rintro rfl
      exact absent inside member
    · rw [pred, Function.update_of_ne, Function.update_of_ne different]
      rintro rfl
      exact absent ending member
    · intro kept
      simp only [Header.full, List.mem_cons, List.mem_append, List.not_mem_nil, or_false] at kept
      rcases kept with rfl | (old | same) | rfl
      · exact absent List.mem_cons_self member
      · exact absent (List.mem_cons_of_mem _ (List.mem_append_left _ old)) member
      · exact different same
      · exact absent ending member

end

section

variable {State Result : Type}

/-- A walk that reads the successor of a node before it deals with the node visits every node of
the list once, whether the nodes stay in the list or not. -/
theorem walk_rule (links : State → Links Node) (a b : Node)
    (body : State × Node → (State × Node) ⊕ Result) (inv : State → List Node → List Node → Prop)
    (post : Result → Prop)
    (linked : ∀ s visited rest, inv s visited rest →
      ∃ kept, Chain (links s) a (kept ++ rest) b)
    (turn : ∀ s visited n rest, inv s visited (n :: rest) →
      (links s).succ n = some (firstOr rest b) →
      ∃ t, body (s, n) = .inl (t, firstOr rest b) ∧ inv t (visited ++ [n]) rest)
    (ends : ∀ s visited, inv s visited [] → ∃ done, body (s, b) = .inr done ∧ post done)
    (s : State) (visited rest : List Node) (held : inv s visited rest) :
    ∃ done, (∀ fuel, rest.length < fuel → forever body fuel (s, firstOr rest b) = some done) ∧
      post done := by
  induction rest generalizing s visited with
  | nil =>
      obtain ⟨done, leaves, right⟩ := ends s visited held
      refine ⟨done, fun fuel enough => ?_, right⟩
      obtain ⟨fuel, rfl⟩ : ∃ less, fuel = less + 1 := ⟨fuel - 1, by omega⟩
      exact forever_leaves body fuel _ done leaves
  | cons n rest ih =>
      obtain ⟨kept, chain⟩ := linked s visited (n :: rest) held
      have next := chain_first _ n b rest ((chain_append _ a n b kept rest).mp chain).2
      obtain ⟨t, goes, later⟩ := turn s visited n rest held next
      obtain ⟨done, finishes, right⟩ := ih t (visited ++ [n]) later
      refine ⟨done, fun fuel enough => ?_, right⟩
      obtain ⟨fuel, rfl⟩ : ∃ less, fuel = less + 1 := ⟨fuel - 1, by omega⟩
      have goes' : body (s, firstOr (n :: rest) b) = .inl (t, firstOr rest b) := goes
      rw [forever_goes body fuel _ _ goes']
      exact finishes fuel (by simpa using enough)

/-- A walk that leaves at the first node it picks. It visits the nodes before that one, or every
node of the list when it picks none. -/
theorem search_rule (links : State → Links Node) (a b : Node)
    (body : State × Node → (State × Node) ⊕ Result) (picked : Node → Bool)
    (inv : State → List Node → List Node → Prop) (post : Result → Prop)
    (linked : ∀ s visited rest, inv s visited rest →
      ∃ kept, Chain (links s) a (kept ++ rest) b)
    (turn : ∀ s visited n rest, inv s visited (n :: rest) → picked n = false →
      (links s).succ n = some (firstOr rest b) →
      ∃ t, body (s, n) = .inl (t, firstOr rest b) ∧ inv t (visited ++ [n]) rest)
    (found : ∀ s visited n rest, inv s visited (n :: rest) → picked n = true →
      (links s).succ n = some (firstOr rest b) → ∃ done, body (s, n) = .inr done ∧ post done)
    (ends : ∀ s visited, inv s visited [] → ∃ done, body (s, b) = .inr done ∧ post done)
    (s : State) (visited rest : List Node) (held : inv s visited rest) :
    ∃ done, (∀ fuel, rest.length < fuel → forever body fuel (s, firstOr rest b) = some done) ∧
      post done := by
  have leaves : ∀ (s : State) (n : Node) (rest : List Node),
      (∃ done, body (s, n) = .inr done ∧ post done) →
      ∃ done, (∀ fuel, rest.length < fuel → forever body fuel (s, n) = some done) ∧ post done := by
    rintro s n rest ⟨done, leaves, right⟩
    refine ⟨done, fun fuel enough => ?_, right⟩
    obtain ⟨fuel, rfl⟩ : ∃ less, fuel = less + 1 := ⟨fuel - 1, by omega⟩
    exact forever_leaves body fuel _ done leaves
  induction rest generalizing s visited with
  | nil => exact leaves s b [] (ends s visited held)
  | cons n rest ih =>
      obtain ⟨kept, chain⟩ := linked s visited (n :: rest) held
      have next := chain_first _ n b rest ((chain_append _ a n b kept rest).mp chain).2
      cases choice : picked n with
      | true => exact leaves s n (n :: rest) (found s visited n rest held choice next)
      | false =>
          obtain ⟨t, goes, later⟩ := turn s visited n rest held choice next
          obtain ⟨done, finishes, right⟩ := ih t (visited ++ [n]) later
          refine ⟨done, fun fuel enough => ?_, right⟩
          obtain ⟨fuel, rfl⟩ : ∃ less, fuel = less + 1 := ⟨fuel - 1, by omega⟩
          have goes' : body (s, firstOr (n :: rest) b) = .inl (t, firstOr rest b) := goes
          rw [forever_goes body fuel _ _ goes']
          exact finishes fuel (by simpa using enough)

end

end Support

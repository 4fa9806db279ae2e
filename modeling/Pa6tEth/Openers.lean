import Pa6tEth.Driver
import Mathlib.Data.List.Nodup

/-! The records of `opener_list` and the clients they were made for. -/

namespace Pa6tEth

open Support

/-- A record of `opener_list`, named by the block that its `Open` allocated. -/
structure Record where
  node : Addr
  op : Opener
  deriving DecidableEq, Repr

/-- An opener, with the record of its own `Open` and the hook it last installed. -/
structure Client where
  name : Nat
  bmCookie : Addr
  node : Addr
  hook : Addr
  deriving DecidableEq, Repr

/-- `records` is the driver's; `clients` are the openers that have not closed. -/
structure OpenerSystem where
  records : List Record
  clients : List Client
  deriving DecidableEq, Repr

/-- What clients do, each through its own request. -/
inductive OpenerAction
  | openDevice (name : Nat) (bmCookie node : Addr)
  | installHook (name : Nat) (hook : Addr)
  | closeDevice (name : Nat)

/-- The record that `PA6TEth_FindOpener` returns. -/
def findRecord (bmCookie : Addr) (records : List Record) : Option Record :=
  records.find? fun entry => entry.op.bmCookie == bmCookie

/-- `S2_SANA2HOOK` on the record that `PA6TEth_FindOpener` returns. -/
def armRecord (bmCookie hook : Addr) : List Record → List Record
  | [] => []
  | entry :: rest =>
      if entry.op.bmCookie = bmCookie then
        { entry with op := { entry.op with s2hook := hook } } :: rest
      else entry :: armRecord bmCookie hook rest

/-- The loop of `_manager_Close`, which removes and frees one record. -/
def closeRecord (bmCookie : Addr) (records : List Record) : List Record :=
  records.eraseP fun entry => entry.op.bmCookie == bmCookie

/-- One step; `AllocVecTags` hands out no block that is in use. -/
def openerStep (s : OpenerSystem) : OpenerAction → Option OpenerSystem
  | .openDevice name bmCookie node =>
      if name ∈ s.clients.map Client.name ∨ node ∈ s.records.map Record.node then none
      else
        some
          { records := s.records ++ [⟨node, ⟨bmCookie, 0⟩⟩]
            clients := s.clients ++ [⟨name, bmCookie, node, 0⟩] }
  | .installHook name hook =>
      (s.clients.find? fun c => c.name == name).map fun c =>
        match findRecord c.bmCookie s.records with
        | none => s
        | some _ =>
            { records := armRecord c.bmCookie hook s.records
              clients := s.clients.map fun d => if d.name = name then { d with hook := hook } else d }
  | .closeDevice name =>
      (s.clients.find? fun c => c.name == name).map fun c =>
        { records := closeRecord c.bmCookie s.records
          clients := s.clients.filter fun d => d.name != name }

def noOpeners : OpenerSystem := ⟨[], []⟩

def openerMachine : Machine OpenerSystem OpenerAction where
  start := fun s => s = noOpeners
  step := openerStep

def OpenerSystem.openerList (s : OpenerSystem) : List Opener := s.records.map Record.op

theorem findRecord_op (bmCookie : Addr) (records : List Record) :
    (findRecord bmCookie records).map Record.op = findCookie (records.map Record.op) bmCookie := by
  simp only [findRecord, findCookie, List.find?_map]
  rfl

theorem armRecord_op (bmCookie hook : Addr) (records : List Record) :
    (armRecord bmCookie hook records).map Record.op =
      PA6TEthUnit.setHook bmCookie hook (records.map Record.op) := by
  induction records with
  | nil => rfl
  | cons entry rest ih =>
      by_cases here : entry.op.bmCookie = bmCookie
      · simp only [armRecord, PA6TEthUnit.setHook, if_pos here, List.map_cons]
      · simp only [armRecord, PA6TEthUnit.setHook, if_neg here, List.map_cons, ih]

theorem closeRecord_op (bmCookie : Addr) (records : List Record) :
    (closeRecord bmCookie records).map Record.op =
      (records.map Record.op).eraseP fun op => op.bmCookie == bmCookie := by
  simp only [closeRecord, List.eraseP_map]
  rfl

/-- A step of a unit with these openers: an `Open`, the start of an `S2_SANA2HOOK` request of the
client, or its `Close`. -/
def unitOpeners (w : World) : OpenerAction → Option Client → List Opener
  | .openDevice _ bmCookie _, _ => (w.addOpener bmCookie).unit.openerList
  | .installHook _ hook, some c =>
      match w.unit.findOpener c.bmCookie with
      | none => w.unit.openerList
      | some _ => PA6TEthUnit.setHook c.bmCookie hook w.unit.openerList
  | .closeDevice _, some c => (w.close c.bmCookie).unit.openerList
  | _, none => w.unit.openerList

/-- The client that an action is of, if it is already open. -/
def OpenerSystem.client (s : OpenerSystem) : OpenerAction → Option Client
  | .openDevice _ _ _ => none
  | .installHook name _ => s.clients.find? fun c => c.name == name
  | .closeDevice name => s.clients.find? fun c => c.name == name

theorem openerStep_unit (s t : OpenerSystem) (a : OpenerAction) (w : World)
    (same : w.unit.openerList = s.openerList) (stepped : openerStep s a = some t) :
    t.openerList = unitOpeners w a (s.client a) := by
  cases a with
  | openDevice name bmCookie node =>
      simp only [openerStep] at stepped
      split at stepped
      · cases stepped
      · obtain rfl := Option.some.inj stepped
        simp [OpenerSystem.openerList, unitOpeners, World.addOpener, same]
  | installHook name hook =>
      obtain ⟨c, found, rfl⟩ := Option.map_eq_some_iff.mp stepped
      have lookup := findRecord_op c.bmCookie s.records
      simp only [OpenerSystem.client, found, unitOpeners, PA6TEthUnit.findOpener, same,
        OpenerSystem.openerList, ← lookup]
      cases findRecord c.bmCookie s.records with
      | none => rfl
      | some entry => exact armRecord_op c.bmCookie hook s.records
  | closeDevice name =>
      obtain ⟨c, found, rfl⟩ := Option.map_eq_some_iff.mp stepped
      have removed : (w.close c.bmCookie).unit.openerList =
          w.unit.openerList.eraseP fun op => op.bmCookie == c.bmCookie := by
        simp only [World.close, World.unitTaskShutdown]
        repeat' split
        all_goals rfl
      simp only [OpenerSystem.client, found, unitOpeners, removed, same]
      exact closeRecord_op c.bmCookie s.records

/-- Every opener's cookie leads to the hook it last installed, and to the record of its own `Open`
when it closes. -/
def OwnHooks (s : OpenerSystem) : Prop :=
  ∀ c ∈ s.clients,
    (findCookie s.openerList c.bmCookie).map Opener.s2hook = some c.hook ∧
    c.node ∈ s.records.map Record.node ∧
    closeRecord c.bmCookie s.records = s.records.filter fun entry => entry.node != c.node

/-- An `Open` brings a cookie that no open client has. -/
def newCookie (s : OpenerSystem) : OpenerAction → Bool
  | .openDevice _ bmCookie _ => !(s.clients.map Client.bmCookie).contains bmCookie
  | _ => true

def Client.record (c : Client) : Record := ⟨c.node, ⟨c.bmCookie, c.hook⟩⟩

/-- Every record is the one of its client, and no two clients share a cookie. -/
structure Paired (s : OpenerSystem) : Prop where
  records : s.records = s.clients.map Client.record
  names : (s.clients.map Client.name).Nodup
  nodes : (s.clients.map Client.node).Nodup
  cookies : (s.clients.map Client.bmCookie).Nodup

theorem eraseP_unique {Entry : Type} (key : Entry → Addr) (k : Addr) (entries : List Entry)
    (unique : (entries.map key).Nodup) :
    entries.eraseP (fun entry => key entry == k) = entries.filter fun entry => key entry != k := by
  induction entries with
  | nil => rfl
  | cons entry rest ih =>
      rw [List.map_cons, List.nodup_cons] at unique
      by_cases here : key entry = k
      · have others : ∀ later ∈ rest, (key later != k) = true := by
          intro later member
          have apart : key later ≠ k := by
            intro same
            apply unique.1
            rw [here, ← same]
            exact List.mem_map_of_mem member
          simpa using apart
        rw [List.eraseP_cons_of_pos (by simpa using here), List.filter_cons_of_neg (by simpa using here),
          List.filter_eq_self.mpr others]
      · rw [List.eraseP_cons_of_neg (by simpa using here), List.filter_cons_of_pos (by simpa using here),
          ih unique.2]

theorem paired_records (s : OpenerSystem) (paired : Paired s) :
    (s.records.map fun entry => entry.op.bmCookie) = s.clients.map Client.bmCookie ∧
      s.records.map Record.node = s.clients.map Client.node := by
  rw [paired.records, List.map_map, List.map_map]
  exact ⟨rfl, rfl⟩

theorem paired_same (s : OpenerSystem) (paired : Paired s) (c d : Client) (first : c ∈ s.clients)
    (second : d ∈ s.clients) :
    (c.bmCookie = d.bmCookie ↔ c = d) ∧ (c.name = d.name ↔ c = d) ∧ (c.node = d.node ↔ c = d) :=
  ⟨⟨fun same => List.inj_on_of_nodup_map paired.cookies first second same, fun same => by rw [same]⟩,
    ⟨fun same => List.inj_on_of_nodup_map paired.names first second same, fun same => by rw [same]⟩,
    ⟨fun same => List.inj_on_of_nodup_map paired.nodes first second same, fun same => by rw [same]⟩⟩

theorem paired_find (s : OpenerSystem) (paired : Paired s) (c : Client) (member : c ∈ s.clients) :
    findRecord c.bmCookie s.records = some c.record := by
  have present : (findRecord c.bmCookie s.records).isSome := by
    rw [findRecord, List.find?_isSome, paired.records]
    exact ⟨c.record, List.mem_map_of_mem member, by simp [Client.record]⟩
  obtain ⟨entry, found⟩ := Option.isSome_iff_exists.mp present
  have cookie := List.find?_some found
  have among := List.mem_of_find?_eq_some found
  rw [paired.records] at among
  obtain ⟨d, other, rfl⟩ := List.mem_map.mp among
  obtain rfl := (paired_same s paired d c other member).1.mp (by simpa [Client.record] using cookie)
  exact found

theorem paired_close (s : OpenerSystem) (paired : Paired s) (c : Client)
    (member : c ∈ s.clients) :
    closeRecord c.bmCookie s.records = s.records.filter fun entry => entry.node != c.node := by
  have unique : (s.records.map fun entry => entry.op.bmCookie).Nodup := by
    rw [(paired_records s paired).1]
    exact paired.cookies
  rw [closeRecord, eraseP_unique (fun entry : Record => entry.op.bmCookie) c.bmCookie _ unique]
  apply List.filter_congr
  intro entry among
  rw [paired.records] at among
  obtain ⟨d, other, rfl⟩ := List.mem_map.mp among
  obtain ⟨cookie, _, node⟩ := paired_same s paired d c other member
  have agree : d.bmCookie = c.bmCookie ↔ d.node = c.node := cookie.trans node.symm
  show (d.bmCookie != c.bmCookie) = (d.node != c.node)
  rw [Bool.eq_iff_iff, bne_iff_ne, bne_iff_ne]
  exact not_congr agree

theorem paired_own (s : OpenerSystem) (paired : Paired s) : OwnHooks s := by
  intro c member
  refine ⟨?_, ?_, paired_close s paired c member⟩
  · rw [OpenerSystem.openerList, ← findRecord_op, paired_find s paired c member]
    rfl
  · rw [(paired_records s paired).2]
    exact List.mem_map_of_mem member

theorem armRecord_client (hook : Addr) (c : Client) (clients : List Client)
    (member : c ∈ clients) (cookies : (clients.map Client.bmCookie).Nodup)
    (names : (clients.map Client.name).Nodup) :
    armRecord c.bmCookie hook (clients.map Client.record) =
      (clients.map fun d => if d.name = c.name then { d with hook := hook } else d).map
        Client.record := by
  induction clients with
  | nil => cases member
  | cons d rest ih =>
      rw [List.map_cons, List.nodup_cons] at cookies names
      by_cases here : d = c
      · subst here
        have others : (rest.map fun e => if e.name = d.name then { e with hook := hook } else e) =
            rest := by
          refine (List.map_congr_left fun e later => ?_).trans (List.map_id rest)
          refine if_neg fun same => ?_
          apply names.1
          rw [← same]
          exact List.mem_map_of_mem later
        simp only [List.map_cons, armRecord, Client.record, if_true, others]
      · have later := (List.mem_cons.mp member).resolve_left (Ne.symm here)
        have apart : d.bmCookie ≠ c.bmCookie := by
          intro same
          exact cookies.1 (same ▸ List.mem_map_of_mem later)
        have renamed : d.name ≠ c.name := by
          intro same
          exact names.1 (same ▸ List.mem_map_of_mem later)
        simp only [List.map_cons, armRecord, Client.record, if_neg apart, if_neg renamed]
        rw [← ih later cookies.2 names.2]

theorem paired_open (s t : OpenerSystem) (name : Nat) (bmCookie node : Addr) (paired : Paired s)
    (fresh : newCookie s (.openDevice name bmCookie node) = true)
    (stepped : openerStep s (.openDevice name bmCookie node) = some t) : Paired t := by
  simp only [openerStep] at stepped
  split at stepped
  · cases stepped
  · rename_i unused
    rw [not_or, (paired_records s paired).2] at unused
    obtain rfl := Option.some.inj stepped
    have cookie : bmCookie ∉ s.clients.map Client.bmCookie := by
      simpa [newCookie] using fresh
    have longer : ∀ (keys : List Nat) (key : Nat), keys.Nodup → key ∉ keys →
        (keys ++ [key]).Nodup := by
      intro keys key unique new
      rw [← List.concat_eq_append]
      exact unique.concat new
    constructor
    · rw [List.map_append, paired.records]
      rfl
    · rw [List.map_append]
      exact longer _ name paired.names unused.1
    · rw [List.map_append]
      exact longer _ node paired.nodes unused.2
    · rw [List.map_append]
      exact longer _ bmCookie paired.cookies cookie

theorem paired_step (s t : OpenerSystem) (a : OpenerAction) (paired : Paired s)
    (fresh : newCookie s a = true) (stepped : openerStep s a = some t) : Paired t := by
  cases a with
  | openDevice name bmCookie node => exact paired_open s t name bmCookie node paired fresh stepped
  | installHook name hook =>
      obtain ⟨c, found, rfl⟩ := Option.map_eq_some_iff.mp stepped
      have member := List.mem_of_find?_eq_some found
      obtain rfl : c.name = name := by simpa using List.find?_some found
      have keys : ∀ key : Client → Addr, (∀ d : Client, key { d with hook := hook } = key d) →
          (s.clients.map fun d => if d.name = c.name then { d with hook := hook } else d).map key =
            s.clients.map key := by
        intro key kept
        rw [List.map_map]
        apply List.map_congr_left
        intro d _
        simp only [Function.comp_apply]
        split
        · exact kept d
        · rfl
      simp only [paired_find s paired c member]
      constructor
      · simp only [paired.records]
        exact armRecord_client hook c s.clients member paired.cookies paired.names
      · simp only [keys Client.name fun _ => rfl]
        exact paired.names
      · simp only [keys Client.node fun _ => rfl]
        exact paired.nodes
      · simp only [keys Client.bmCookie fun _ => rfl]
        exact paired.cookies
  | closeDevice name =>
      obtain ⟨c, found, rfl⟩ := Option.map_eq_some_iff.mp stepped
      have member := List.mem_of_find?_eq_some found
      obtain rfl : c.name = name := by simpa using List.find?_some found
      constructor
      · change closeRecord c.bmCookie s.records = _
        rw [paired_close s paired c member, paired.records, List.filter_map]
        congr 1
        apply List.filter_congr
        intro d other
        obtain ⟨_, named, noded⟩ := paired_same s paired d c other member
        have agree : d.node = c.node ↔ d.name = c.name := noded.trans named.symm
        show (d.node != c.node) = (d.name != c.name)
        rw [Bool.eq_iff_iff, bne_iff_ne, bne_iff_ne]
        exact not_congr agree
      · exact paired.names.sublist (List.filter_sublist.map _)
      · exact paired.nodes.sublist (List.filter_sublist.map _)
      · exact paired.cookies.sublist (List.filter_sublist.map _)

/-- Two open clients with one cookie do not both keep their own record. -/
theorem shared_not_own (s t : OpenerSystem) (a : OpenerAction) (paired : Paired s)
    (shared : newCookie s a = false) (stepped : openerStep s a = some t) : ¬ OwnHooks t := by
  cases a with
  | openDevice name bmCookie node =>
      simp only [openerStep] at stepped
      split at stepped
      · cases stepped
      · rename_i unused
        rw [not_or] at unused
        obtain rfl := Option.some.inj stepped
        have cookie : bmCookie ∈ s.clients.map Client.bmCookie := by
          simpa [newCookie] using shared
        obtain ⟨c, member, rfl⟩ := List.mem_map.mp cookie
        intro own
        obtain ⟨_, _, first⟩ := own c (List.mem_append_left _ member)
        obtain ⟨_, _, second⟩ := own ⟨name, c.bmCookie, node, 0⟩ (by simp)
        -- The same removal would have to spare the new record and to take it.
        have spared : (⟨node, ⟨c.bmCookie, 0⟩⟩ : Record) ∈
            List.filter (fun entry : Record => entry.node != c.node)
              (s.records ++ [⟨node, ⟨c.bmCookie, 0⟩⟩]) := by
          refine List.mem_filter.mpr ⟨by simp, ?_⟩
          have apart : node ≠ c.node := by
            intro same
            apply unused.2
            rw [(paired_records s paired).2, same]
            exact List.mem_map_of_mem member
          simpa using apart
        rw [← first, second] at spared
        simp at spared
  | installHook name hook => cases shared
  | closeDevice name => cases shared

theorem own_hooks_along (s : OpenerSystem) (paired : Paired s) (actions : List OpenerAction) :
    openerMachine.Along (fun _ _ t => OwnHooks t) s actions ↔
      openerMachine.Along (fun s a _ => newCookie s a = true) s actions := by
  apply openerMachine.along_iff_while Paired
  · intro s a t paired stepped
    constructor
    · intro own
      by_contra shared
      exact shared_not_own s t a paired (by simpa using shared) stepped own
    · intro fresh
      exact paired_own t (paired_step s t a paired fresh stepped)
  · intro s a t paired stepped fresh
    exact paired_step s t a paired fresh stepped
  · exact paired

theorem noOpeners_paired : Paired noOpeners :=
  ⟨rfl, List.nodup_nil, List.nodup_nil, List.nodup_nil⟩

/-- Along every run every opener keeps its own hook and its own record exactly as long as each
`Open` brings a cookie that no open client has. -/
theorem own_hooks_iff (actions : List OpenerAction) :
    openerMachine.Along (fun _ _ t => OwnHooks t) noOpeners actions ↔
      openerMachine.Along (fun s a _ => newCookie s a = true) noOpeners actions :=
  own_hooks_along noOpeners noOpeners_paired actions

/-- Two clients open with a null cookie and the second installs a hook: it is the first one's
hook that changes, and the second one's `Close` would remove the first one's record. -/
theorem shared_cookie_hook :
    ¬ openerMachine.Along (fun _ _ t => OwnHooks t) noOpeners
      [.openDevice 1 0 0x100, .openDevice 2 0 0x200, .installHook 2 0x600] ∧
    (openerMachine.run noOpeners
      [.openDevice 1 0 0x100, .openDevice 2 0 0x200, .installHook 2 0x600]).map (fun s =>
        (s.records, closeRecord 0 s.records)) =
      some ([⟨0x100, ⟨0, 0x600⟩⟩, ⟨0x200, ⟨0, 0⟩⟩], [⟨0x200, ⟨0, 0⟩⟩]) := by
  refine ⟨fun own => ?_, by decide +kernel⟩
  have fresh := (own_hooks_along noOpeners noOpeners_paired _).mp own
  obtain ⟨_, later⟩ := fresh ⟨[⟨0x100, ⟨0, 0⟩⟩], [⟨1, 0, 0x100, 0⟩]⟩ (by decide)
  obtain ⟨again, _⟩ := later ⟨[⟨0x100, ⟨0, 0⟩⟩, ⟨0x200, ⟨0, 0⟩⟩],
    [⟨1, 0, 0x100, 0⟩, ⟨2, 0, 0x200, 0⟩]⟩ (by decide)
  exact absurd again (by decide)

end Pa6tEth

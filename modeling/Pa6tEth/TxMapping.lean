import Pa6tEth.TxDescriptor
import Pa6tEth.Support.Scatter

/-! The scatter list of a transmit buffer beside the one address that the descriptor has. -/

namespace Pa6tEth

open Support

/-- One entry of the list that `GetDMAList` fills in. -/
structure DmaEntry where
  physicalAddress : BitVec 32
  blockLength : BitVec 32
  deriving DecidableEq, Repr

def DmaEntry.segment (d : DmaEntry) : Segment := ⟨d.physicalAddress.toNat, d.blockLength.toNat⟩

/-- What `GetDMAList` promises for a block of this length: as many entries as `StartDMA` said, none
empty, together the whole block in its order. `TransmitPacket` takes the first one's address. -/
structure MappedList (e : TxEnv) (len : Nat) (entries : List DmaEntry) : Prop where
  count : entries.length = e.nentries
  nonempty : ∀ d ∈ entries, 0 < d.blockLength.toNat
  whole : entries ≠ [] → ((entries.map DmaEntry.segment).map Segment.length).sum = len
  first : ∀ d ∈ entries.head?, d.physicalAddress = e.phys

/-- No check of `TransmitPacket` fails, and neither does a call before its lock. -/
def goesThrough (e : TxEnv) (w : World) (r : ReqId) : Bool :=
  w.unit.tx.txRingPtr != 0 && decide (txFrameLen (w.reqs r).dataLength ≤ ethMaxFrame) &&
    e.buf != 0 &&
    ((w.unit.findOpener (w.reqs r).bufferManagement).any fun op =>
      (w.reqs r).statData != 0 && op.s2hook != 0) &&
    e.hookOk && e.nentries != 0 && e.dlist

def Describes (entries : List DmaEntry) (addr len : Nat) : Prop :=
  ∀ i < len, Segment.byteAt (entries.map DmaEntry.segment) i = some (addr + i)

/-- A packet that is submitted has a `PTR` word that names its bytes, all of them and in order;
one that no such word describes is refused. -/
structure DescriptorCovers (ch : Channels) (e : TxEnv) (w : World) (r : ReqId)
    (entries : List DmaEntry) : Prop where
  covers : ∀ q f u, txBuild e w r = .built q f →
    ptrLenOf ((txSubmit ch u f).1.txRing.get (u.txNextFill + 1)) = f.frameLen.toNat ∧
      Describes entries (ptrAddrOf ((txSubmit ch u f).1.txRing.get (u.txNextFill + 1)))
        f.frameLen.toNat
  refuses : (∀ addr, ¬ Describes entries addr (txFrameLen (w.reqs r).dataLength).toNat) →
    ∃ q err werr, txBuild e w r = .refused q err werr ∧ err ≠ .ok

theorem txBuild_goes (e : TxEnv) (w : World) (r : ReqId) (goes : goesThrough e w r = true) :
    txBuild e w r = .built (restoredRequest (w.reqs r)) (builtFrame e w r) := by
  simp only [goesThrough, Bool.and_eq_true, bne_iff_ne, ne_eq, decide_eq_true_eq] at goes
  obtain ⟨⟨⟨⟨⟨⟨ring, fits⟩, block⟩, opener⟩, copied⟩, mapped⟩, listed⟩ := goes
  cases found : w.unit.findOpener (w.reqs r).bufferManagement with
  | none => simp [found] at opener
  | some op =>
      simp only [found, Option.any_some, Bool.and_eq_true, bne_iff_ne, ne_eq] at opener
      simp only [txBuild, if_neg ring, if_neg (BitVec.not_lt.mpr fits), if_neg block, found,
        opener.1, opener.2, or_self, if_false, copied, Bool.true_eq_false, if_neg mapped, listed]
      rfl

theorem built_goes (e : TxEnv) (w : World) (r : ReqId) (ready : TxReady e w r) (op : Opener)
    (found : w.unit.findOpener (w.reqs r).bufferManagement = some op)
    (cookie : (w.reqs r).statData ≠ 0) (hook : op.s2hook ≠ 0) (copied : e.hookOk = true)
    (mapped : e.nentries ≠ 0) (listed : e.dlist = true) : goesThrough e w r = true := by
  simp [goesThrough, found, ready.ring, ready.fits, ready.block, cookie, hook, copied, mapped,
    listed]

theorem txBuild_stops (e : TxEnv) (w : World) (r : ReqId) (stops : goesThrough e w r = false) :
    ∃ q err werr, txBuild e w r = .refused q err werr ∧ err ≠ .ok := by
  have way := txWay e w r
  generalize txBuild e w r = outcome, txCalls e w r = calls at way ⊢
  cases way with
  | unsized err failed => exact ⟨_, err, _, rfl, failed⟩
  | built ready op found cookie hook copied mapped listed =>
      rw [built_goes e w r ready op found cookie hook copied mapped listed] at stops
      cases stops
  | _ => exact ⟨_, _, _, rfl, by decide⟩

theorem txFrameLen_bound (payLen : BitVec 32) (fits : txFrameLen payLen ≤ ethMaxFrame) :
    (txFrameLen payLen).toNat ≤ 1514 := BitVec.le_def.mp fits

theorem goesThrough_facts (e : TxEnv) (w : World) (r : ReqId) (goes : goesThrough e w r = true) :
    (txFrameLen (w.reqs r).dataLength).toNat ≤ 1514 ∧ e.nentries ≠ 0 := by
  simp only [goesThrough, Bool.and_eq_true, bne_iff_ne, ne_eq, decide_eq_true_eq] at goes
  exact ⟨txFrameLen_bound _ goes.1.1.1.1.1.2, goes.1.2⟩

theorem describes_iff (e : TxEnv) (entries : List DmaEntry) (len : Nat)
    (listed : MappedList e len entries) (mapped : e.nentries ≠ 0) :
    Describes entries e.phys.toNat len ↔
      Segment.seamless e.phys.toNat len (entries.map DmaEntry.segment) = true := by
  have present : entries ≠ [] := by
    rintro rfl
    exact mapped listed.count.symm
  apply Segment.byteAt_iff
  · intro s member
    obtain ⟨d, entry, rfl⟩ := List.mem_map.mp member
    exact listed.nonempty d entry
  · exact Nat.le_of_eq (listed.whole present).symm

theorem posted_ptr (ch : Channels) (u : UnitTx) (f : TxFrame) (fits : f.frameLen.toNat ≤ 1514) :
    ptrLenOf ((txSubmit ch u f).1.txRing.get (u.txNextFill + 1)) = f.frameLen.toNat ∧
      ptrAddrOf ((txSubmit ch u f).1.txRing.get (u.txNextFill + 1)) = f.phys.toNat := by
  rw [(txSubmit_pair ch u f).2]
  exact ⟨ptr_len f (by omega), ptr_addr f (by omega)⟩

/-- The descriptor covers the frame exactly when the entries of every packet that goes through
follow each other without a gap. -/
theorem descriptor_covers_iff (ch : Channels) (e : TxEnv) (w : World) (r : ReqId)
    (entries : List DmaEntry)
    (listed : MappedList e (txFrameLen (w.reqs r).dataLength).toNat entries) :
    DescriptorCovers ch e w r entries ↔
      (goesThrough e w r = true →
        Segment.seamless e.phys.toNat (txFrameLen (w.reqs r).dataLength).toNat
          (entries.map DmaEntry.segment) = true) := by
  constructor
  · intro held goes
    obtain ⟨fits, mapped⟩ := goesThrough_facts e w r goes
    rw [← describes_iff e entries _ listed mapped]
    have covers := (held.covers _ _ w.unit.tx (txBuild_goes e w r goes)).2
    rwa [(posted_ptr ch w.unit.tx (builtFrame e w r) fits).2] at covers
  · intro joined
    cases goes : goesThrough e w r with
    | false =>
        obtain ⟨q, err, werr, refused, failed⟩ := txBuild_stops e w r goes
        refine ⟨fun q' f u built => ?_, fun _ => ⟨q, err, werr, refused, failed⟩⟩
        rw [refused] at built
        cases built
    | true =>
        obtain ⟨fits, mapped⟩ := goesThrough_facts e w r goes
        have describes := (describes_iff e entries _ listed mapped).mpr (joined goes)
        refine ⟨fun q f u built => ?_, fun undescribed => absurd describes (undescribed _)⟩
        rw [txBuild_goes e w r goes] at built
        obtain ⟨_, rfl⟩ := TxOutcome.built.inj built
        obtain ⟨length, address⟩ := posted_ptr ch u (builtFrame e w r) fits
        exact ⟨length, address ▸ describes⟩

def twoEntries : TxEnv := { callEnv.tx with nentries := 2 }

theorem descriptor_covers_adjacent :
    DescriptorCovers ⟨0, 0, 0⟩ twoEntries (lengthWorld 0#32) 1
      [⟨0xA00#32, 32#32⟩, ⟨0xA20#32, 28#32⟩] :=
  (descriptor_covers_iff ⟨0, 0, 0⟩ twoEntries (lengthWorld 0#32) 1 _
    ⟨rfl, by decide, fun _ => by decide, by decide⟩).mpr fun _ => by decide

/-- With the second half elsewhere the packet is submitted all the same, and byte 32 of what the
descriptor names is not the frame's. -/
theorem split_buffer_submitted :
    MappedList twoEntries 60 [⟨0xA00#32, 32#32⟩, ⟨0x5000#32, 28#32⟩] ∧
      txBuild twoEntries (lengthWorld 0#32) 1 =
        .built (restoredRequest ((lengthWorld 0#32).reqs 1))
          (builtFrame twoEntries (lengthWorld 0#32) 1) ∧
      ¬ DescriptorCovers ⟨0, 0, 0⟩ twoEntries (lengthWorld 0#32) 1
        [⟨0xA00#32, 32#32⟩, ⟨0x5000#32, 28#32⟩] := by
  have built := txBuild_goes twoEntries (lengthWorld 0#32) 1 (by decide)
  refine ⟨⟨rfl, by decide, fun _ => by decide, by decide⟩, built, fun held => ?_⟩
  have covers := (held.covers _ _ (lengthWorld 0#32).unit.tx built).2 32 (by decide)
  rw [(posted_ptr ⟨0, 0, 0⟩ _ (builtFrame twoEntries (lengthWorld 0#32) 1) (by decide)).2] at covers
  exact absurd covers (by decide)

end Pa6tEth

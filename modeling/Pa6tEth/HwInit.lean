import Pa6tEth.InitFailure
import Pa6tEth.Support.Trace

/-! The registers that `PA6TEth_HWInit` and `PA6TEth_HWCleanup` read and write. -/

namespace Pa6tEth

open Support

/-- The registers of `Reg`, and those that only these two functions use. -/
inductive HwReg
  | shared (reg : Reg)
  | capIfi
  | interfaceTable (offset : Nat)
  | txchanBasel (chan : Nat)
  | txchanBaseu (chan : Nat)
  | txchanCfg (chan : Nat)
  | rxchanBaseu (chan : Nat)
  | rxchanCfg (chan : Nat)
  | rxintBaseu (intf : Nat)
  | comRxcmd
  | comRxsta
  | macMaccfg
  | macAdr0
  | macAdr1
  | macTxp
  | macRmon (r : Nat)
  | macIpcChnl
  deriving DecidableEq, Repr

inductive HwEvent
  | read (reg : HwReg) (value : BitVec 32)
  | write (reg : HwReg) (value : BitVec 32)
  | use (x : Use Resource)
  deriving DecidableEq, Repr

-- `ST` and `ACT` are the same in the command registers of the channels and of the interface.
def cmdstaSt : BitVec 32 := 0x00000002
def cmdstaAct : BitVec 32 := 0x00010000

def idleStatus (sta : BitVec 32) : Bool := sta &&& cmdstaAct = 0#32

def basel (phys : BitVec 32) : BitVec 32 := phys &&& ~~~0x3f#32

/-- The high part, with the size of a ring of so many words. -/
def baseu (words : Nat) : BitVec 32 := (BitVec.ofNat 32 (words >>> 3) <<< 16) &&& 0x3fff0000

def txchanCfgValue (dmaIf : Nat) : BitVec 32 :=
  0x00000000 ||| ((BitVec.ofNat 32 dmaIf <<< 2) &&& 0x0000003c) ||| 0x00004000 |||
    ((4 <<< 6) &&& 0x000003c0)

def macTxpValue : BitVec 32 :=
  0x00800000 ||| ((3 <<< 20) &&& 0x00300000) ||| ((3 <<< 16) &&& 0x00030000) |||
    ((0xf <<< 12) &&& 0x0000f000) ||| ((8 <<< 8) &&& 0x00000f00) ||| ((12 <<< 0) &&& 0x000000ff)

def stopTries : Nat := 50000

/-- The loop of the three stop functions, with the value that they return. -/
def stopEngine (reg : Reg) (poll : Nat → BitVec 32) : List HwEvent × Bool :=
  let seen := polls idleStatus poll stopTries 0
  (.write (.shared reg) cmdstaSt :: seen.1.map (.read (.shared reg)) ++
    if seen.2 then [.write (.shared reg) 0#32] else [], seen.2)

def stopTxChannel (chno : Nat) (poll : Nat → BitVec 32) : List HwEvent × Bool :=
  stopEngine (.txchanTcmdsta chno) poll

def stopRxChannel (chno : Nat) (poll : Nat → BitVec 32) : List HwEvent × Bool :=
  stopEngine (.rxchanCcmdsta chno) poll

def stopRxInterface (intf : Nat) (poll : Nat → BitVec 32) : List HwEvent × Bool :=
  stopEngine (.rxintRcmdsta intf) poll

/-- What the hardware answers it: the port configuration, and the status that each read of the
three polling loops finds. -/
structure StopState where
  pcfg : BitVec 32
  tx : Nat → BitVec 32
  rx : Nat → BitVec 32
  intf : Nat → BitVec 32

/-- The numbers in the library base, which is zero when it is made. -/
structure DmaNumbers where
  dmaIf : Int
  txChannelNum : Int
  rxChannelNum : Int
  deriving DecidableEq, Repr

def disableMac (pcfg : BitVec 32) : List HwEvent :=
  [.read (.shared .macPcfg) pcfg, .write (.shared .macPcfg) (pcfg &&& ~~~macPcfgPe)]

/-- The three stop functions, whose results are not looked at. -/
def stopAll (h : StopState) (n : DmaNumbers) : List HwEvent :=
  (if 0 ≤ n.txChannelNum then (stopTxChannel n.txChannelNum.toNat h.tx).1 else []) ++
    ((if 0 ≤ n.rxChannelNum then (stopRxChannel n.rxChannelNum.toNat h.rx).1 else []) ++
      if 0 ≤ n.dmaIf then (stopRxInterface n.dmaIf.toNat h.intf).1 else [])

def hwCleanupEvents (h : StopState) (b : PA6TEthBase) (n : DmaNumbers) (rxBufs : Nat → Addr)
    (rxBufsDmaEntries : Nat → Nat) : List HwEvent :=
  (if b.macDev = 0 then [] else disableMac h.pcfg) ++
    ((if b.dmaDev = 0 then [] else stopAll h n) ++
      (hwCleanup b.unit b.rings rxBufs rxBufsDmaEntries).map .use)

/-- What the hardware answers it: the MAC's function, the capability word and the interface table,
the address registers, the status of both channels, the polls of its two loops, and its cleanup. -/
structure HwState where
  dev : BitVec 8
  fn : BitVec 8
  capIfi : BitVec 32
  interfaceTable : Nat → BitVec 32
  adr0 : BitVec 32
  adr1 : BitVec 32
  txSta : BitVec 32
  rxSta : BitVec 32
  setupTx : Nat → BitVec 32
  rxSection : Nat → BitVec 32
  pcfg : BitVec 32
  maccfg : BitVec 32
  oldAdr1 : BitVec 32
  cleanup : StopState

/-- The locally administered address of section 2 of `PA6TEth_HWInit`. -/
def fallbackAddress : Nat → BitVec 8
  | 0 => 0x02
  | 1 => 0x00
  | 2 => 0xDE
  | 3 => 0xAD
  | 4 => 0xBE
  | _ => 0xEF

namespace HwState

def devfn (h : HwState) : BitVec 8 := (h.dev <<< 3) ||| h.fn

/-- The number of table words, four interfaces a word. -/
def tableWords (h : HwState) : Nat :=
  (((h.capIfi &&& 0x00ff0000) >>> 16).toNat + 3) / 4

def tableOffset (h : HwState) : Nat := ((h.capIfi &&& 0xff000000) >>> 24).toNat

/-- Byte `j` of table word `i` names the MAC's function. -/
def listedAt (h : HwState) (i j : Nat) : Bool :=
  (h.interfaceTable (h.tableOffset + 4 * i) >>> (8 * j)) &&& 0xff = h.devfn.setWidth 32

def scanTable (h : HwState) : Nat → Nat → List HwEvent × Option Nat
  | 0, _ => ([], none)
  | left + 1, i =>
      let offset := h.tableOffset + 4 * i
      match (List.range 4).find? (h.listedAt i) with
      | some j => ([.read (.interfaceTable offset) (h.interfaceTable offset)], some (i * 4 + j))
      | none =>
          (.read (.interfaceTable offset) (h.interfaceTable offset) ::
            (h.scanTable left (i + 1)).1, (h.scanTable left (i + 1)).2)

/-- `find_dma_interface_of_mac`, where none stands for `-1`. -/
def findDmaInterfaceOfMac (h : HwState) : List HwEvent × Option Nat :=
  (.read .capIfi h.capIfi :: (h.scanTable h.tableWords 0).1, (h.scanTable h.tableWords 0).2)

/-- `read_mac_addr`. -/
def readMacAddr (h : HwState) : Nat → BitVec 8
  | 0 => (h.adr1 >>> 8).setWidth 8
  | 1 => h.adr1.setWidth 8
  | 2 => (h.adr0 >>> 24).setWidth 8
  | 3 => (h.adr0 >>> 16).setWidth 8
  | 4 => (h.adr0 >>> 8).setWidth 8
  | _ => h.adr0.setWidth 8

/-- The address, or the fallback when no byte of it is other than `0x00` and `0xFF`. -/
def macAddr (h : HwState) (i : Nat) : BitVec 8 :=
  if (List.range ethAddrLen).any fun i => h.readMacAddr i ≠ 0x00 ∧ h.readMacAddr i ≠ 0xFF then
    h.readMacAddr i
  else fallbackAddress i

def word (byte : BitVec 8) (shift : Nat) : BitVec 32 := byte.setWidth 32 <<< shift

/-- `program_mac_addr`. -/
def programMacAddr (h : HwState) : List HwEvent :=
  [.read .macAdr1 h.oldAdr1,
    .write .macAdr0 (word (h.macAddr 2) 24 ||| word (h.macAddr 3) 16 ||| word (h.macAddr 4) 8 |||
      word (h.macAddr 5) 0),
    .write .macAdr1 ((h.oldAdr1 &&& ~~~0x0000ffff#32) ||| (word (h.macAddr 0) 8 |||
      word (h.macAddr 1) 0))]

end HwState

/-- Section 6 of `PA6TEth_HWInit`. -/
def configureTx (h : HwState) (e : InitEnv) (dmaIf : Nat) : List HwEvent :=
  (stopTxChannel 1 h.setupTx).1 ++
    [.write (.txchanBasel 1) (basel e.txRing.phys), .write (.txchanBaseu 1) (baseu txRingSize),
      .write (.txchanCfg 1) (txchanCfgValue dmaIf)]

/-- Section 7; its loop over `RXSTA` ends in the same state either way. -/
def configureRx (h : HwState) (e : InitEnv) (dmaIf : Nat) : List HwEvent :=
  .write .comRxcmd 0#32 ::
    (polls (fun sta => sta &&& 0x00000001 = 0#32) h.rxSection 100000 0).1.map (.read .comRxsta) ++
    [.write (.shared (.rxchanCcmdsta 1)) 0#32, .write (.shared (.rxintRcmdsta dmaIf)) 0#32,
      .write (.shared (.rxchanBasel 1)) (basel e.rxRing.phys),
      .write (.rxchanBaseu 1) (baseu rxRingSize),
      .write (.rxchanCfg 1) ((2 <<< 7) &&& 0x00000380),
      .write (.shared (.rxintBasel dmaIf)) (basel e.rxBufRing.phys),
      .write (.rxintBaseu dmaIf) (baseu rxRingSize),
      .write (.shared (.rxintCfg dmaIf)) rxintCfgValue, .write .comRxcmd 1#32]

def configureMac (h : HwState) : List HwEvent :=
  disableMac h.pcfg ++
    [.read .macMaccfg h.maccfg,
      .write .macMaccfg ((h.maccfg &&& ~~~0x00ffff00#32) |||
        (((ethMaxFrame + ethHdrLen + 4#32) <<< 8) &&& 0x00ffff00)),
      .write .macTxp macTxpValue] ++
    (List.range 32).map (fun r => .write (.macRmon r) 0#32) ++ h.programMacAddr ++
    [.write .macIpcChnl (((1 <<< 16) &&& 0x003f0000) ||| ((1 <<< 0) &&& 0x0000003f))]

/-- Where a failed `PA6TEth_HWInit` goes; no RX buffer is allocated yet. -/
def hwInitFail (h : HwState) (b : PA6TEthBase) (n : DmaNumbers) : List HwEvent × Bool :=
  (hwCleanupEvents h.cleanup b n (fun _ => 0) (fun _ => 0), false)

/-- Once both channels are taken: the rings, and the configuration if they are made. -/
def hwInitRings (h : HwState) (e : InitEnv) (b : PA6TEthBase) (dmaIf : Nat) :
    List HwEvent × Bool :=
  let made := runStages (ringStages e) b
  let done :=
    if made.2.2 then
      (configureTx h e dmaIf ++ (configureRx h e dmaIf ++ configureMac h), true)
    else hwInitFail h made.1 ⟨dmaIf, 1, 1⟩
  (made.2.1.map .use ++ done.1, done.2)

/-- `PA6TEth_HWInit` with its result. -/
def hwInitEvents (h : HwState) (e : InitEnv) (b : PA6TEthBase) : List HwEvent × Bool :=
  match h.findDmaInterfaceOfMac with
  | (scan, none) => (scan ++ (hwInitFail h b ⟨-1, 0, 0⟩).1, false)
  | (scan, some dmaIf) =>
      let checkTx :=
        scan ++ [.read .macAdr0 h.adr0, .read .macAdr1 h.adr1,
          .read (.shared (.txchanTcmdsta 1)) h.txSta]
      let checkRx := checkTx ++ [.read (.shared (.rxchanCcmdsta 1)) h.rxSta]
      if idleStatus h.txSta then
        if idleStatus h.rxSta then
          (checkRx ++ (hwInitRings h e b dmaIf).1, (hwInitRings h e b dmaIf).2)
        else (checkRx ++ (hwInitFail h b ⟨dmaIf, 1, 1⟩).1, false)
      else (checkTx ++ (hwInitFail h b ⟨dmaIf, 1, 1⟩).1, false)

end Pa6tEth

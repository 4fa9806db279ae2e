import Mathlib.Data.List.Basic

/-! SANA-II requests: commands, error codes, flags and the copy-hook message. -/

namespace Pa6tEth

/-- An `APTR`; zero is `NULL`. A request is named by its address. -/
abbrev Addr := Nat
abbrev ReqId := Addr

inductive Command
  | cmdRead
  | cmdWrite
  | cmdFlush
  | deviceQuery
  | getStationAddress
  | configInterface
  | online
  | offline
  | readOrphan
  | broadcast
  | multicast
  | onEvent
  | getGlobalStats
  | addMulticastAddress
  | delMulticastAddress
  | addMulticastAddresses
  | delMulticastAddresses
  | trackType
  | untrackType
  | sana2Hook
  | other (code : BitVec 16)
  deriving DecidableEq, Repr

/-- The values that the driver stores in `io_Error`; only `ok` is zero. -/
inductive IoError
  | ok
  | aborted
  | noCmd
  | noResources
  | badArgument
  | badState
  | mtuExceeded
  | outOfService
  | txFailure
  deriving DecidableEq, Repr

structure Sana2DeviceStats where
  packetsReceived : BitVec 32
  packetsSent : BitVec 32
  badData : BitVec 32
  overruns : BitVec 32
  unknownTypesReceived : BitVec 32
  reconfigurations : BitVec 32
  deriving DecidableEq, Repr

def s2werrGenericError : BitVec 32 := 0#32
def s2werrUnitOnline : BitVec 32 := 2#32
def s2werrUnitOffline : BitVec 32 := 3#32
def s2werrBuffError : BitVec 32 := 6#32
def s2werrNullPointer : BitVec 32 := 16#32

def s2eventOnline : BitVec 32 := 8#32
def s2eventOffline : BitVec 32 := 16#32

def iofQuick : BitVec 8 := 0x01#8
def sana2iofMcast : BitVec 8 := 0x20#8
def sana2iofBcast : BitVec 8 := 0x40#8

/-- `ios2_WireError` holds a wire error or an event mask, so it stays a number. -/
structure IOSana2Req where
  command : Command
  flags : BitVec 8
  error : IoError
  wireError : BitVec 32
  packetType : BitVec 32
  srcAddr : Nat → UInt8
  dstAddr : Nat → UInt8
  dataLength : BitVec 32
  data : Addr
  statData : Addr
  bufferManagement : Addr

namespace IOSana2Req

/-- `io_Flags & IOF_QUICK`. -/
def quick (q : IOSana2Req) : Bool := q.flags &&& iofQuick ≠ 0#8

/-- `io_Flags &= ~IOF_QUICK`. -/
def clearQuick (q : IOSana2Req) : IOSana2Req := { q with flags := q.flags &&& ~~~iofQuick }

@[simp] theorem quick_clearQuick (q : IOSana2Req) : q.clearQuick.quick = false := by
  have mask : ~~~iofQuick &&& iofQuick = 0#8 := by decide
  simp [quick, clearQuick, BitVec.and_assoc, mask]

theorem quick_cast (q : IOSana2Req) (kept : BitVec 8)
    (cast : kept = 0#8 ∨ kept = sana2iofBcast ∨ kept = sana2iofMcast) :
    ({ q with flags := q.flags &&& ~~~(sana2iofBcast ||| sana2iofMcast) ||| kept } :
      IOSana2Req).quick = q.quick := by
  have kept_quick : kept &&& iofQuick = 0#8 := by
    rcases cast with rfl | rfl | rfl <;> decide
  have mask : ~~~(sana2iofBcast ||| sana2iofMcast) &&& iofQuick = iofQuick := by decide
  simp only [quick, BitVec.and_or_distrib_right, kept_quick, BitVec.or_zero, BitVec.and_assoc, mask]

end IOSana2Req

/-- `byte_copy` of the first `len` bytes. -/
def byteCopy (dst src : Nat → UInt8) (len : Nat) : Nat → UInt8 :=
  fun i => if i < len then src i else dst i

inductive CopyMethod
  | copyToBuff
  | copyFromBuff
  deriving DecidableEq, Repr

structure SANA2CopyHookMsg where
  schmMethod : CopyMethod
  schmTo : Addr
  schmFrom : Addr
  schmSize : BitVec 32
  deriving DecidableEq, Repr

/-- One `CallHookPkt` on a copy hook, with the `BOOL` the hook returned. -/
structure HookCall where
  hook : Addr
  object : ReqId
  msg : SANA2CopyHookMsg
  ok : Bool
  deriving DecidableEq, Repr

end Pa6tEth

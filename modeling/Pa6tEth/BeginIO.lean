import Pa6tEth.Tx

/-! `_manager_BeginIO` and `_manager_AbortIO`, cut at their sections under `Forbid` and their
port operations. -/

namespace Pa6tEth

/-- The place in its code at which a client's call is. -/
inductive Call
  | beginIo (r : ReqId)
  | replying (r : ReqId) (err : IoError) (werr : BitVec 32) (sent : Bool)
  | queueing (r : ReqId)
  | addingRead (pr : PendingRead) (c : ReadClass)
  | addingEvent (r : ReqId)
  | transmitting (r : ReqId)
  | submitting (r : ReqId) (f : TxFrame)
  | signalling
  | abortReads (r : ReqId)
  | abortEvents (r : ReqId)
  | abortPort (r : ReqId)
  | abortReply (r : ReqId)

/-- What the system answers a client's call: the address of a new `PendingRead`, and the
transmit side. -/
structure CallEnv where
  wrapper : Addr
  tx : TxEnv

namespace Call

def claim : Call → List (ReqId × Stage)
  | beginIo r => [(r, .called)]
  | replying r _ _ _ => [(r, .loose)]
  | queueing r => [(r, .clear)]
  | addingRead pr c => [(pr.ioreq, .reading c)]
  | addingEvent r => [(r, .waiting)]
  | transmitting r => [(r, .loose)]
  | submitting r _ => [(r, .loose)]
  | signalling => []
  | abortReads _ => []
  | abortEvents _ => []
  | abortPort _ => []
  | abortReply r => [(r, .clear)]

def begun : Call → Bool
  | abortReads _ => false
  | abortEvents _ => false
  | abortPort _ => false
  | abortReply _ => false
  | _ => true

end Call

/-- What `S2_GETGLOBALSTATS` writes to `ios2_StatData`. -/
def globalStats (u : PA6TEthUnit) : Sana2DeviceStats where
  packetsReceived := u.rx.statRx
  packetsSent := u.tx.statTx
  badData := 0#32
  overruns := 0#32
  unknownTypesReceived := u.rx.statRxDropped
  reconfigurations := 0#32

/-- The part of `BeginIO` up to its first section or port operation. -/
def beginIo (e : CallEnv) (w : World) (r : ReqId) : World × Call :=
  let q := { w.reqs r with error := .ok, wireError := 0#32 }
  let replying (err : IoError) (werr : BitVec 32) := (w.setReq r q, Call.replying r err werr false)
  let queueToTask := (w.setReq r q.clearQuick, Call.queueing r)
  let kept := { q with statData := q.data, data := r }
  let write (q : IOSana2Req) :=
    if w.unit.online = false then replying .outOfService s2werrUnitOffline
    else (w.setReq r { q with statData := q.data, data := r }, Call.transmitting r)
  match q.command with
  | .deviceQuery =>
      if q.statData = 0 then replying .badArgument s2werrNullPointer else replying .ok 0#32
  | .getStationAddress =>
      (w.setReq r
        { q with
          srcAddr := byteCopy q.srcAddr w.macAddr ethAddrLen
          dstAddr := byteCopy q.dstAddr w.macAddr ethAddrLen },
        .replying r .ok 0#32 false)
  | .configInterface => queueToTask
  | .online => if w.unit.online then replying .badState s2werrUnitOnline else queueToTask
  | .offline =>
      if w.unit.online = false then replying .badState s2werrUnitOffline else queueToTask
  | .cmdRead =>
      if w.unit.online = false then replying .outOfService s2werrUnitOffline
      else
        match w.unit.findOpener q.bufferManagement with
        | none => replying .badState s2werrGenericError
        | some _ =>
            if e.wrapper = 0 then replying .noResources s2werrGenericError
            else
              (w.setReq r kept.clearQuick,
                .addingRead ⟨e.wrapper, r⟩ (readClass (q.packetType.setWidth 16)))
  | .readOrphan =>
      match w.unit.findOpener q.bufferManagement with
      | none => replying .badState s2werrGenericError
      | some _ => (w.setReq r kept.clearQuick, .addingEvent r)
  | .cmdWrite => write q
  | .broadcast => write { q with dstAddr := byteCopy q.dstAddr (fun _ => 0xFF) ethAddrLen }
  | .multicast => write q
  | .cmdFlush => queueToTask
  | .onEvent => (w.setReq r q.clearQuick, .addingEvent r)
  | .getGlobalStats =>
      if q.statData = 0 then replying .badArgument s2werrNullPointer
      else
        ({ w.setReq r q with reports := (q.statData, globalStats w.unit) :: w.reports },
          .replying r .ok 0#32 false)
  | .addMulticastAddress => replying .ok 0#32
  | .delMulticastAddresses => replying .ok 0#32
  | .delMulticastAddress => replying .ok 0#32
  | .addMulticastAddresses => replying .ok 0#32
  | .trackType => replying .ok 0#32
  | .untrackType => replying .ok 0#32
  | .sana2Hook =>
      match w.unit.findOpener q.bufferManagement with
      | none => replying .badState s2werrGenericError
      | some _ =>
          ({ w.setReq r q with
              unit :=
                { w.unit with
                  openerList :=
                    PA6TEthUnit.setHook q.bufferManagement q.data w.unit.openerList } },
            .replying r .ok 0#32 false)
  | .other _ => replying .noCmd s2werrGenericError

/-- The first wrapper of the request in the three read lists, in their order. -/
def findRead (u : PA6TEthUnit) (r : ReqId) : Option (ReadClass × PendingRead) :=
  match u.readListIpv4.find? (fun pr => pr.ioreq == r) with
  | some pr => some (.ipv4, pr)
  | none =>
      match u.readListArp.find? (fun pr => pr.ioreq == r) with
      | some pr => some (.arp, pr)
      | none => (u.readListOther.find? (fun pr => pr.ioreq == r)).map fun pr => (.other, pr)

/-- One step of a client's call, with the call that is left. -/
def callStep (ch : Channels) (e : CallEnv) (w : World) : Call → Option (World × Option Call)
  | .beginIo r => some ((beginIo e w r).1, some (beginIo e w r).2)
  | .replying r err werr sent =>
      some (w.replyIoreq r err werr, if sent then some .signalling else none)
  | .queueing r => (w.putMsg r).map fun w => (w, none)
  | .addingRead pr c =>
      some ({ w with unit := w.unit.setReadList (w.unit.readList c ++ [pr]) c }, none)
  | .addingEvent r =>
      some ({ w with unit := { w.unit with eventList := w.unit.eventList ++ [r] } }, none)
  | .transmitting r =>
      match txBuild e.tx w r with
      | .refused q err werr => some (w.setReq r q, some (.replying r err werr false))
      | .built q f => some (w.setReq r q, some (.submitting r f))
  | .submitting r f =>
      let (tx, freed, writes) := txSubmit ch w.unit.tx f
      some ({ w with
        unit := { w.unit with tx := tx }
        freed := freed ++ w.freed
        regs := w.regs ++ writes }, some (.replying r .ok 0#32 true))
  | .signalling =>
      some ({ w with
        signals :=
          if w.unit.online && w.unit.irqWaitTask then { w.signals with irq := true }
          else w.signals }, none)
  | .abortReads r =>
      match findRead w.unit r with
      | none => some (w, some (.abortEvents r))
      | some (c, pr) =>
          some ({ w with
            unit := w.unit.setReadList ((w.unit.readList c).eraseP fun pr => pr.ioreq == r) c
            freed := pr.node :: w.freed }, some (.abortReply r))
  | .abortEvents r =>
      if r ∈ w.unit.eventList then
        some ({ w with unit := { w.unit with eventList := w.unit.eventList.erase r } },
          some (.abortReply r))
      else some (w, some (.abortPort r))
  | .abortPort r =>
      match w.unit.ioPort with
      | none => some (w, none)
      | some port =>
          if r ∈ port then
            some ({ w with unit := { w.unit with ioPort := some (port.erase r) } },
              some (.abortReply r))
          else some (w, none)
  | .abortReply r => some (w.replyMsg r { w.reqs r with error := .aborted } .abortIo, none)

end Pa6tEth

import Pa6tEth.Resources
import Pa6tEth.Sessions

/-! The driver from `_manager_Init` to `_manager_Expunge`, with everything it takes and gives
back. -/

namespace Pa6tEth

open Support

/-- `nodes` are the blocks of the openers, in the order of the opener list; `log` is all that was
taken and given back so far. -/
structure Resident where
  base : PA6TEthBase
  libOpenCnt : BitVec 16
  driver : Driver
  nodes : List Addr
  log : ResourceLog

def Resident.baseNow (s : Resident) : PA6TEthBase :=
  { s.base with rings := s.base.rings.within s.driver.world.unit }

/-- `_manager_Expunge` of the driver as it is. -/
def Resident.expunge (s : Resident) : Option ResourceLog :=
  managerExpunge s.libOpenCnt s.baseNow s.driver.world.unit.rx.rxBufs
    s.driver.world.unit.rx.rxBufsDmaEntries

def nodeBlocks (nodes : List Addr) : List Resource := nodes.map .block

/-- What an `Expunge` does not give back. -/
def Resident.left (s : Resident) : List Resource :=
  txHeld s.driver.world.unit.tx ++ (readHeld s.driver.world.unit ++
    (nodeBlocks s.nodes ++ s.driver.calls.flatMap Call.holds))

def Resident.held (s : Resident) : List Resource :=
  s.baseNow.held s.driver.world.unit.rx.rxBufs s.driver.world.unit.rx.rxBufsDmaEntries ++ s.left

end Pa6tEth

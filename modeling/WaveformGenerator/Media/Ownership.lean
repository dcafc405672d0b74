import WaveformGenerator.Lib.UInt

/-!
# The card between the host and the board (`rt1170/platform/waveform_msc.c`)

One task runs the SCSI callbacks and the MEDIA requests, another initialises the card. Each goes on
between the critical sections of the other.
-/

namespace WaveformGenerator.Media

def mscLun : UInt8 := 0

def mscBlockSize : UInt32 := 512

/-- `CFG_TUD_MSC_EP_BUFSIZE`: a chunk at most. -/
def mscTransferBytes : UInt32 := 16384

def scsiSynchronizeCache10 : UInt8 := 0x35

def scsiPreventFieldMask : UInt8 := 0x03

def usbRequestTypeClassInterfaceOut : UInt8 := 0x21

def mscRequestBotReset : UInt8 := 0xFF

def usbInterfaceMsc : UInt8 := 2

def unknownStatus : UInt32 := 0xFFFFFFFF

/-- `kSD_Inserted`. -/
def sdInserted : UInt32 := 1

inductive MediaState
  | uninitialized
  | initializing
  | mediaHost
  | mediaLocal
  | fault
  deriving DecidableEq, Repr

inductive MediaError
  | none
  | noCard
  | hostInit
  | cardInit
  | geometry
  | diskInit
  | taskStart
  deriving DecidableEq, Repr

inductive WfgStatus
  | ok
  | mediaRefused
  | mediaFault
  deriving DecidableEq, Repr

inductive HostRequestResult
  | ready
  | initializing
  | failed
  deriving DecidableEq, Repr

inductive LocalRequestResult
  | granted
  | hostWriting
  | hostLocked
  | failed
  deriving DecidableEq, Repr

/-- A sense key with its additional sense code and qualifier. -/
structure Sense where
  key : UInt8
  code : UInt8
  qualifier : UInt8
  deriving DecidableEq, Repr

def Sense.mediumNotPresent : Sense := ⟨0x02, 0x3A, 0x00⟩

def Sense.invalidCommand : Sense := ⟨0x05, 0x20, 0x00⟩

def Sense.writeProtected : Sense := ⟨0x07, 0x27, 0x00⟩

/-! ## `s_media` -/

structure MediaRuntime where
  state : MediaState := .uninitialized
  error : MediaError := .none
  cardReady : Bool := false
  mscReady : Bool := false
  blockCount : UInt32 := 0
  blockSize : UInt32 := 0
  initAttempts : UInt32 := 0
  hostInitStatus : UInt32 := 0
  hostDetectStatus : UInt32 := 0
  cardInitStatus : UInt32 := 0
  diskInitStatus : UInt32 := 0
  testReadyCalls : UInt32 := 0
  notReadyResponses : UInt32 := 0
  readCalls : UInt32 := 0
  readBlocks : UInt32 := 0
  writeCalls : UInt32 := 0
  writeBlocks : UInt32 := 0
  readErrors : UInt32 := 0
  writeErrors : UInt32 := 0
  invalidRequests : UInt32 := 0
  ejectRequests : UInt32 := 0
  syncCacheCalls : UInt32 := 0
  ownershipHandoffs : UInt32 := 0
  hostEjected : Bool := false
  hostPreventsRemoval : Bool := false
  hostWriting : Bool := false
  maxBlocksPerCall : UInt32 := 0
  deriving DecidableEq, Repr

namespace MediaRuntime

def prepareInitializationAttempt (r : MediaRuntime) : MediaRuntime :=
  { r with
    state := .initializing
    error := .none
    cardReady := false
    mscReady := false
    blockCount := 0
    blockSize := 0
    initAttempts := r.initAttempts + 1
    hostInitStatus := unknownStatus
    hostDetectStatus := unknownStatus
    cardInitStatus := unknownStatus
    diskInitStatus := unknownStatus }

def latchInitializationFault (r : MediaRuntime) (error : MediaError) : MediaRuntime :=
  { r with error, state := .fault, cardReady := false, mscReady := false }

/-- `WFG_MediaMscReady`. -/
def isMscReady (r : MediaRuntime) : Bool :=
  r.state = .mediaHost && r.cardReady && r.mscReady && !r.hostEjected

def recordInvalidRequest (r : MediaRuntime) (writeRequest : Bool) : MediaRuntime :=
  if writeRequest then
    { r with invalidRequests := r.invalidRequests + 1, writeErrors := r.writeErrors + 1 }
  else { r with invalidRequests := r.invalidRequests + 1, readErrors := r.readErrors + 1 }

/-- One chunk's request: its blocks, or nothing. -/
def validateIo (r : MediaRuntime) (lun : UInt8) (lba offset : UInt32) (hasBuffer : Bool)
    (bytes : UInt32) : Option UInt32 :=
  if lun ≠ mscLun ∨ !hasBuffer ∨ r.blockSize ≠ mscBlockSize ∨ offset ≠ 0 ∨ bytes = 0 ∨
      bytes > mscTransferBytes ∨ bytes % r.blockSize ≠ 0 then none
  else
    let blocks := bytes / r.blockSize
    if lba ≥ r.blockCount ∨ blocks > r.blockCount - lba then none else some blocks

/-- `none` when the board keeps the card. -/
def setHost (r : MediaRuntime) : Option MediaRuntime :=
  if (r.state = .mediaHost ∨ r.state = .mediaLocal) ∧ r.cardReady then
    some { r with
      ownershipHandoffs := if r.state ≠ .mediaHost then r.ownershipHandoffs + 1
        else r.ownershipHandoffs
      mscReady := true
      hostEjected := false
      state := .mediaHost }
  else none

def takeFromHost (r : MediaRuntime) : LocalRequestResult × MediaRuntime :=
  if r.hostWriting then (.hostWriting, r)
  else if r.hostPreventsRemoval then (.hostLocked, r)
  else (.granted,
    { r with
      mscReady := false
      state := .mediaLocal
      ownershipHandoffs := r.ownershipHandoffs + 1 })

def requestLocal (r : MediaRuntime) : LocalRequestResult × MediaRuntime :=
  if r.state = .mediaLocal then (.granted, r)
  else if r.state = .mediaHost ∧ r.cardReady then r.takeFromHost
  else (.failed, r)

def endHostSession (r : MediaRuntime) : MediaRuntime :=
  { r with hostPreventsRemoval := false, hostWriting := false }

def controlTransferDone (r : MediaRuntime) (requestType request interfaceNumber : UInt8) :
    MediaRuntime :=
  if requestType = usbRequestTypeClassInterfaceOut ∧ request = mscRequestBotReset ∧
      interfaceNumber = usbInterfaceMsc then { r with hostWriting := false }
  else r

def testUnitReady (r : MediaRuntime) (lun : UInt8) : Bool × MediaRuntime :=
  let ready := lun = mscLun ∧ r.isMscReady
  (ready, { r with
    testReadyCalls := r.testReadyCalls + 1
    notReadyResponses := if ready then r.notReadyResponses else r.notReadyResponses + 1 })

def startStop (r : MediaRuntime) (lun _powerCondition : UInt8) (start loadEject : Bool) :
    Bool × MediaRuntime :=
  if lun ≠ mscLun then (false, r)
  else if loadEject ∧ !start then
    (true, { r with ejectRequests := r.ejectRequests + 1, hostEjected := true })
  else (true, r)

def preventAllowMediumRemoval (r : MediaRuntime) (lun prohibitRemoval _control : UInt8) :
    Bool × MediaRuntime :=
  if lun ≠ mscLun then (false, r)
  else (true, { r with
    hostPreventsRemoval := prohibitRemoval &&& scsiPreventFieldMask ≠ 0 })

/-- `tud_msc_scsi_cb`: the reply, or the sense of a refusal. -/
def scsi (r : MediaRuntime) (lun : UInt8) (command : Option UInt8) :
    Except (Option Sense) Unit × MediaRuntime :=
  if lun = mscLun ∧ command = some scsiSynchronizeCache10 then
    (if r.isMscReady then .ok () else .error none,
      { r with syncCacheCalls := r.syncCacheCalls + 1 })
  else (.error (some .invalidCommand), { r with invalidRequests := r.invalidRequests + 1 })

def recordTransfer (r : MediaRuntime) (blocks : UInt32) : MediaRuntime :=
  { r with maxBlocksPerCall := max r.maxBlocksPerCall blocks }

/-- After the SD read of a chunk. -/
def readDone (r : MediaRuntime) (blocks : UInt32) (success : Bool) : MediaRuntime :=
  let r := { r with readCalls := r.readCalls + 1 }.recordTransfer blocks
  if success then { r with readBlocks := r.readBlocks + blocks }
  else { r with readErrors := r.readErrors + 1 }

/-- After the SD write of a chunk. -/
def writeDone (r : MediaRuntime) (blocks : UInt32) (success : Bool) : MediaRuntime :=
  let r := { r with writeCalls := r.writeCalls + 1 }.recordTransfer blocks
  if success then { r with writeBlocks := r.writeBlocks + blocks, hostWriting := true }
  else { r with writeErrors := r.writeErrors + 1, hostWriting := false }

end MediaRuntime

/-! ## The two tasks -/

/-- `g_sd` and what has been done with it. -/
structure SdCard where
  hostInitialized : Bool := false
  cardInitStarted : Bool := false
  blockCount : UInt32 := 0
  blockSize : UInt32 := 0
  deriving DecidableEq, Repr

/-- Where `WFG_MediaInitialize` goes on. -/
inductive InitStage
  | waiting
  | hostInit
  | hostDetect
  | cardInit
  | geometry
  | diskInit
  | publish
  deriving DecidableEq, Repr

/-- What the SD driver answers next. -/
structure SdOutcome where
  status : UInt32 := 0
  detected : Option UInt32 := none
  blockCount : UInt32 := 0
  blockSize : UInt32 := 0
  deriving DecidableEq, Repr

/-- Where the USB task goes on within a call. -/
inductive UsbTask
  | idle
  | reading (lba blocks bytes : UInt32)
  | writing (lba blocks bytes : UInt32)
  | attempting (forHost : Bool)
  | ensuring (forHost : Bool)
  | preparing (forHost : Bool)
  | notifying (forHost : Bool)
  | readmitting
  deriving DecidableEq, Repr

structure MediaTasks where
  media : MediaRuntime := {}
  sd : SdCard := {}
  /-- `none`: `s_media_init_task_handle` is `NULL`. -/
  initTask : Option InitStage := none
  notified : Bool := false
  usb : UsbTask := .idle
  deriving DecidableEq, Repr

inductive Call
  | startInitialization
  | requestHost (playerAllows : Bool)
  | requestLocal
  | endHostSession
  | controlTransferDone (requestType request interfaceNumber : UInt8)
  | testUnitReady (lun : UInt8)
  | startStop (lun powerCondition : UInt8) (start loadEject : Bool)
  | preventAllowMediumRemoval (lun prohibitRemoval control : UInt8)
  | scsi (lun : UInt8) (command : Option UInt8)
  | read10 (lun : UInt8) (lba offset : UInt32) (hasBuffer : Bool) (bytes : UInt32)
  | write10 (lun : UInt8) (lba offset : UInt32) (hasBuffer : Bool) (bytes : UInt32)
  | write10Complete (lun : UInt8)
  deriving DecidableEq, Repr

inductive Event
  | call (call : Call)
  /-- The USB task goes on with its call; the init task could be created, the SD transfer passed. -/
  | usbTask (created success : Bool)
  | initTask (outcome : SdOutcome)
  deriving DecidableEq, Repr

inductive Answer
  | started (status : WfgStatus)
  | host (result : HostRequestResult)
  /-- The player keeps the card. -/
  | hostBusy
  | board (result : LocalRequestResult)
  | done
  | removal (accepted : Bool)
  | stopped (accepted : Bool)
  | unitReady (ready : Bool) (sense : Option Sense)
  | command (result : Except (Option Sense) Unit)
  | read (bytes : UInt32)
  | readFailed (sense : Option Sense)
  | wrote (bytes : UInt32)
  | writeFailed (sense : Option Sense)

/-- One SD command of the MSC side. -/
structure CardAccess where
  write : Bool
  lba : UInt32
  blocks : UInt32
  deriving DecidableEq, Repr

structure Stepped where
  media : MediaTasks
  access : Option CardAccess := none
  answer : Option Answer := none

namespace MediaTasks

/-- `WFG_MediaFailInitialization`. -/
def failInitialization (m : MediaTasks) (error : MediaError) : MediaTasks :=
  { m with
    media := m.media.latchInitializationFault error
    sd := {}
    initTask := some .waiting }

/-- The next critical section of `WFG_MediaInitialize`, with what the SD driver answered before. -/
def initializeCard (m : MediaTasks) (outcome : SdOutcome) : MediaTasks :=
  match m.initTask with
  | none => m
  | some .waiting =>
    if m.notified then
      let m := { m with notified := false }
      match m.media.state with
      | .mediaHost => m
      | .uninitialized =>
        { m with media := m.media.prepareInitializationAttempt, initTask := some .hostInit }
      | .initializing => { m with initTask := some .hostInit }
      | _ => m
    else m
  | some .hostInit =>
    let m := { m with sd := {}, media := { m.media with hostInitStatus := outcome.status } }
    if outcome.status ≠ 0 then m.failInitialization .hostInit
    else { m with sd := { m.sd with hostInitialized := true }, initTask := some .hostDetect }
  | some .hostDetect =>
    match outcome.detected with
    | none => m.failInitialization .hostInit
    | some detected =>
      let m := { m with media := { m.media with hostDetectStatus := detected } }
      if detected ≠ sdInserted then m.failInitialization .noCard
      else { m with initTask := some .cardInit }
  | some .cardInit =>
    let m := { m with
      media := { m.media with cardInitStatus := outcome.status }
      sd := { m.sd with
        cardInitStarted := true
        blockCount := outcome.blockCount
        blockSize := outcome.blockSize } }
    if outcome.status ≠ 0 then m.failInitialization .cardInit
    else { m with initTask := some .geometry }
  | some .geometry =>
    if m.sd.blockCount = 0 ∨ m.sd.blockSize ≠ mscBlockSize then m.failInitialization .geometry
    else { m with initTask := some .diskInit }
  | some .diskInit =>
    let m := { m with media := { m.media with diskInitStatus := outcome.status } }
    if outcome.status ≠ 0 then m.failInitialization .diskInit
    else { m with initTask := some .publish }
  | some .publish =>
    { m with
      media := { m.media with
        error := .none
        blockCount := m.sd.blockCount
        blockSize := m.sd.blockSize
        cardReady := true
        mscReady := true
        state := .mediaHost }
      initTask := some .waiting }

/-- An attempt is accepted: a MEDIA HOST goes on to clear the eject. -/
def attemptAccepted (m : MediaTasks) (forHost : Bool) : Stepped :=
  if forHost then ⟨{ m with usb := .readmitting }, none, none⟩
  else ⟨{ m with usb := .idle }, none, some (.started .ok)⟩

/-- What a MEDIA HOST or the start at boot makes of an attempt that failed. -/
def attemptFailed (forHost : Bool) (status : WfgStatus) : Answer :=
  if forHost then .host .failed else .started status

/-- A call begins, up to the end of its first critical section. -/
def begin (readOnly : Bool) (m : MediaTasks) : Call → Stepped
  | .startInitialization => ⟨{ m with usb := .attempting false }, none, none⟩
  | .requestHost playerAllows =>
    if playerAllows then
      match m.media.setHost with
      | some media => ⟨{ m with media }, none, some (.host .ready)⟩
      | none => ⟨{ m with usb := .attempting true }, none, none⟩
    else ⟨m, none, some .hostBusy⟩
  | .requestLocal =>
    let (result, media) := m.media.requestLocal
    ⟨{ m with media }, none, some (.board result)⟩
  | .endHostSession => ⟨{ m with media := m.media.endHostSession }, none, some .done⟩
  | .controlTransferDone requestType request interfaceNumber =>
    ⟨{ m with media := m.media.controlTransferDone requestType request interfaceNumber }, none,
      some .done⟩
  | .testUnitReady lun =>
    let (ready, media) := m.media.testUnitReady lun
    ⟨{ m with media }, none,
      some (.unitReady ready (if ready then none else some .mediumNotPresent))⟩
  | .startStop lun powerCondition start loadEject =>
    let (accepted, media) := m.media.startStop lun powerCondition start loadEject
    ⟨{ m with media }, none, some (.stopped accepted)⟩
  | .preventAllowMediumRemoval lun prohibitRemoval control =>
    let (accepted, media) := m.media.preventAllowMediumRemoval lun prohibitRemoval control
    ⟨{ m with media }, none, some (.removal accepted)⟩
  | .scsi lun command =>
    let (result, media) := m.media.scsi lun command
    ⟨{ m with media }, none, some (.command result)⟩
  | .read10 lun lba offset hasBuffer bytes =>
    if m.media.isMscReady then
      match m.media.validateIo lun lba offset hasBuffer bytes with
      | some blocks => ⟨{ m with usb := .reading lba blocks bytes }, none, none⟩
      | none => ⟨{ m with media := m.media.recordInvalidRequest false }, none,
          some (.readFailed (some .mediumNotPresent))⟩
    else ⟨m, none, some (.readFailed (some .mediumNotPresent))⟩
  | .write10 lun lba offset hasBuffer bytes =>
    if readOnly then
      ⟨{ m with media := { m.media with
          writeCalls := m.media.writeCalls + 1, writeErrors := m.media.writeErrors + 1 } }, none,
        some (.writeFailed (some .writeProtected))⟩
    else if m.media.isMscReady then
      match m.media.validateIo lun lba offset hasBuffer bytes with
      | some blocks => ⟨{ m with usb := .writing lba blocks bytes }, none, none⟩
      | none =>
        ⟨{ m with media := { m.media.recordInvalidRequest true with hostWriting := false } }, none,
          some (.writeFailed (some .mediumNotPresent))⟩
    else ⟨{ m with media := { m.media with hostWriting := false } }, none,
        some (.writeFailed (some .mediumNotPresent))⟩
  | .write10Complete _ =>
    ⟨{ m with media := { m.media with hostWriting := false } }, none, some .done⟩

/-- The next critical section of the call that the USB task is in. -/
def resume (m : MediaTasks) (created success : Bool) : Stepped :=
  match m.usb with
  | .idle => ⟨m, none, none⟩
  | .reading lba blocks bytes =>
    ⟨{ m with media := m.media.readDone blocks success, usb := .idle }, some ⟨false, lba, blocks⟩,
      some (if success then .read bytes else .readFailed none)⟩
  | .writing lba blocks bytes =>
    ⟨{ m with media := m.media.writeDone blocks success, usb := .idle }, some ⟨true, lba, blocks⟩,
      some (if success then .wrote bytes else .writeFailed none)⟩
  | .attempting forHost =>
    if m.media.state = .mediaHost ∨ m.media.state = .mediaLocal ∨ m.media.state = .initializing then
      m.attemptAccepted forHost
    else ⟨{ m with usb := .ensuring forHost }, none, none⟩
  | .ensuring forHost =>
    match m.initTask with
    | some _ => ⟨{ m with usb := .preparing forHost }, none, none⟩
    | none =>
      if created then ⟨{ m with initTask := some .waiting, usb := .preparing forHost }, none, none⟩
      else
        ⟨{ m with media := m.media.latchInitializationFault .taskStart, usb := .idle }, none,
          some (attemptFailed forHost .mediaFault)⟩
  | .preparing forHost =>
    if m.media.state = .uninitialized ∨ (forHost ∧ m.media.state = .fault) then
      ⟨{ m with
          media := m.media.prepareInitializationAttempt
          usb := .notifying forHost }, none, none⟩
    else ⟨{ m with usb := .idle }, none, some (attemptFailed forHost .mediaRefused)⟩
  | .notifying forHost => { m with notified := true }.attemptAccepted forHost
  | .readmitting =>
    ⟨{ m with media := { m.media with hostEjected := false }, usb := .idle }, none,
      some (.host .initializing)⟩

/-- A call waits until the USB task is through with the one before. -/
def step (readOnly : Bool) (m : MediaTasks) : Event → Stepped
  | .call call => if m.usb = .idle then m.begin readOnly call else ⟨m, none, none⟩
  | .usbTask created success => m.resume created success
  | .initTask outcome => ⟨m.initializeCard outcome, none, none⟩

def run (readOnly : Bool) (events : List Event) : MediaTasks :=
  events.foldl (fun m event => (m.step readOnly event).media) {}

end MediaTasks

end WaveformGenerator.Media

import WaveformGenerator.Lib.Held
import WaveformGenerator.Media.Ownership

/-!
# One owner of the card

An attempt to initialise the card is under way exactly while the state says so, and a card that has an
owner is ready. So no SCSI command reaches it except through its host's hands.
-/

namespace WaveformGenerator.Media

inductive Owner
  | host
  | board
  deriving DecidableEq, Repr

def MediaState.owner : MediaState → Option Owner
  | .mediaHost => some .host
  | .mediaLocal => some .board
  | _ => none

/-- What decides who may use the card. -/
structure Ownership where
  owner : Option Owner
  cardReady : Bool
  mscReady : Bool
  hostEjected : Bool
  hostPreventsRemoval : Bool
  hostWriting : Bool
  deriving DecidableEq, Repr

def MediaRuntime.ownership (r : MediaRuntime) : Ownership where
  owner := r.state.owner
  cardReady := r.cardReady
  mscReady := r.mscReady
  hostEjected := r.hostEjected
  hostPreventsRemoval := r.hostPreventsRemoval
  hostWriting := r.hostWriting

def InitStage.isAttempt : InitStage → Bool
  | .waiting => false
  | _ => true

def UsbTask.isNotifying : UsbTask → Bool
  | .notifying _ => true
  | _ => false

def UsbTask.isPreparing : UsbTask → Bool
  | .preparing _ => true
  | _ => false

def UsbTask.isTransfer : UsbTask → Bool
  | .reading .. | .writing .. => true
  | _ => false

namespace MediaTasks

/-- The attempts to initialise the card that are about to start or under way. -/
def attempts (m : MediaTasks) : Nat :=
  m.usb.isNotifying.toNat + m.notified.toNat + (m.initTask.any InitStage.isAttempt).toNat

/-- A chunk that the card may see. -/
def Fits (m : MediaTasks) (lba blocks : UInt32) : Prop :=
  0 < blocks.toNat ∧ lba.toNat + blocks.toNat ≤ m.sd.blockCount.toNat

structure Inv (m : MediaTasks) : Prop where
  attempts : m.attempts = if m.media.state = .initializing then 1 else 0
  task : m.media.state = .initializing ∨ m.media.state.owner ≠ none ∨ m.usb.isPreparing = true →
    m.initTask ≠ none
  ready : m.media.state.owner ≠ none → m.media.cardReady = true ∧
    m.media.blockCount = m.sd.blockCount ∧ m.media.blockSize = mscBlockSize ∧
    m.sd.blockSize = mscBlockSize ∧ m.sd.blockCount ≠ 0
  unready : m.media.state.owner = none → m.media.cardReady = false ∧ m.media.mscReady = false
  host : m.media.state = .mediaHost → m.media.mscReady = true
  board : m.media.state = .mediaLocal → m.media.mscReady = false ∧ m.media.hostWriting = false
  geometry : m.initTask = some .diskInit ∨ m.initTask = some .publish →
    m.sd.blockCount ≠ 0 ∧ m.sd.blockSize = mscBlockSize
  reading : ∀ {lba blocks bytes}, m.usb = .reading lba blocks bytes →
    m.media.state = .mediaHost ∧ m.Fits lba blocks
  writing : ∀ {lba blocks bytes}, m.usb = .writing lba blocks bytes →
    m.media.state = .mediaHost ∧ m.Fits lba blocks

variable {m : MediaTasks}

theorem Inv.initial : Inv {} where
  attempts := rfl
  task h := by simp [MediaState.owner, UsbTask.isPreparing] at h
  ready h := absurd rfl h
  unready _ := ⟨rfl, rfl⟩
  host := nofun
  board := nofun
  geometry := nofun
  reading := nofun
  writing := nofun

/-! ## The initialisation -/

/-- While an attempt is under way nobody has the card and the USB task moves none of its blocks. -/
theorem Inv.attempting (v : m.Inv) {stage : InitStage} (hstage : m.initTask = some stage)
    (hattempt : stage.isAttempt = true) :
    m.media.state = .initializing ∧ m.notified = false ∧ m.usb.isNotifying = false := by
  have hattempts := v.attempts
  rw [MediaTasks.attempts, hstage, Option.any_some, hattempt] at hattempts
  split at hattempts
  case isTrue hstate =>
    refine ⟨hstate, ?_, ?_⟩
    · cases hnotified : m.notified
      · rfl
      · simp [hnotified] at hattempts
    · cases hnotifying : m.usb.isNotifying
      · rfl
      · simp [hnotifying] at hattempts
  case isFalse => simp at hattempts

theorem Inv.notified (v : m.Inv) (hnotified : m.notified = true) :
    m.media.state = .initializing ∧ m.usb.isNotifying = false := by
  have hattempts := v.attempts
  rw [MediaTasks.attempts, hnotified] at hattempts
  split at hattempts
  case isTrue hstate =>
    refine ⟨hstate, ?_⟩
    cases hnotifying : m.usb.isNotifying
    · rfl
    · simp [hnotifying] at hattempts
      omega
  case isFalse => simp at hattempts

/-- Nobody has the card, and none of its blocks move. -/
theorem Inv.unowned (howner : m.media.state.owner = none)
    (hready : m.media.cardReady = false ∧ m.media.mscReady = false)
    (hattempts : m.attempts = if m.media.state = .initializing then 1 else 0)
    (htask : m.media.state = .initializing ∨ m.usb.isPreparing = true → m.initTask ≠ none)
    (hgeometry : m.initTask = some .diskInit ∨ m.initTask = some .publish →
      m.sd.blockCount ≠ 0 ∧ m.sd.blockSize = mscBlockSize)
    (husb : m.usb.isTransfer = false) : m.Inv where
  attempts := hattempts
  task h := htask (h.imp_right fun h => h.resolve_left (not_not.mpr howner))
  ready h := absurd howner h
  unready _ := hready
  host h := by simp [h, MediaState.owner] at howner
  board h := by simp [h, MediaState.owner] at howner
  geometry := hgeometry
  reading h := by simp [h, UsbTask.isTransfer] at husb
  writing h := by simp [h, UsbTask.isTransfer] at husb

theorem Inv.isTransfer (v : m.Inv) (hstate : m.media.state ≠ .mediaHost) :
    m.usb.isTransfer = false := by
  cases husb : m.usb with
  | reading lba blocks bytes => exact absurd (v.reading husb).1 hstate
  | writing lba blocks bytes => exact absurd (v.writing husb).1 hstate
  | _ => rfl

/-- An attempt under way, at another of its stages. -/
theorem Inv.goOn (v : m.Inv) {stage stage' : InitStage} (hstage : m.initTask = some stage)
    (hattempt : stage.isAttempt = true) {r : MediaRuntime} {sd : SdCard}
    (hstate : r.state = m.media.state)
    (hready : r.cardReady = m.media.cardReady ∧ r.mscReady = m.media.mscReady)
    (hattempt' : stage'.isAttempt = true)
    (hgeometry : stage' = .diskInit ∨ stage' = .publish →
      sd.blockCount ≠ 0 ∧ sd.blockSize = mscBlockSize) :
    ({ m with media := r, sd, initTask := some stage' } : MediaTasks).Inv := by
  obtain ⟨hinitializing, hnotified, hnotifying⟩ := v.attempting hstage hattempt
  have howner : m.media.state.owner = none := by rw [hinitializing]; rfl
  refine .unowned (hstate ▸ howner) ?_ ?_ (fun _ => nofun) ?_
    (v.isTransfer (by rw [hinitializing]; nofun))
  · exact hready.1 ▸ hready.2 ▸ v.unready howner
  · simp [MediaTasks.attempts, hnotifying, hnotified, hattempt', hstate, hinitializing]
  · simpa using hgeometry

theorem Inv.failInitialization (v : m.Inv) {stage : InitStage} (hstage : m.initTask = some stage)
    (hattempt : stage.isAttempt = true) {m' : MediaTasks} (husb : m'.usb = m.usb)
    (hsame : m'.notified = m.notified) (error : MediaError) :
    (m'.failInitialization error).Inv := by
  obtain ⟨hinitializing, hnotified, hnotifying⟩ := v.attempting hstage hattempt
  have htransfer := v.isTransfer (by rw [hinitializing]; nofun)
  refine .unowned rfl ⟨rfl, rfl⟩ ?_ (fun _ => nofun) nofun (husb ▸ htransfer)
  simp [MediaTasks.attempts, MediaTasks.failInitialization, husb, hsame, hnotifying, hnotified,
    InitStage.isAttempt, MediaRuntime.latchInitializationFault]

theorem Inv.publish (v : m.Inv) (hstage : m.initTask = some .publish) :
    (m.initializeCard {}).Inv := by
  obtain ⟨hinitializing, hnotified, hnotifying⟩ := v.attempting hstage rfl
  obtain ⟨hcount, hsize⟩ := v.geometry (.inr hstage)
  have husb := v.isTransfer (by rw [hinitializing]; nofun)
  simp only [initializeCard, hstage]
  exact {
    attempts := by simp [MediaTasks.attempts, hnotifying, hnotified, InitStage.isAttempt]
    task := fun _ => nofun
    ready := fun _ => ⟨rfl, rfl, hsize, hsize, hcount⟩
    unready := nofun
    host := fun _ => rfl
    board := nofun
    geometry := nofun
    reading := fun h => by simp [show m.usb = _ from h, UsbTask.isTransfer] at husb
    writing := fun h => by simp [show m.usb = _ from h, UsbTask.isTransfer] at husb }

theorem Inv.initializeCard (v : m.Inv) (outcome : SdOutcome) : (m.initializeCard outcome).Inv := by
  cases hstage : m.initTask with
  | none => simp only [MediaTasks.initializeCard, hstage]; exact v
  | some stage =>
    cases stage with
    | waiting =>
      unfold MediaTasks.initializeCard
      rw [hstage]
      dsimp only
      split
      case isFalse => exact v
      case isTrue hnotified =>
        obtain ⟨hinitializing, hnotifying⟩ := v.notified hnotified
        rw [hinitializing]
        have howner : m.media.state.owner = none := by rw [hinitializing]; rfl
        refine .unowned howner (v.unready howner) ?_ (fun _ => nofun) nofun
          (v.isTransfer (by rw [hinitializing]; nofun))
        simp [MediaTasks.attempts, hnotifying, InitStage.isAttempt, hinitializing]
    | publish =>
      have hpublish := v.publish hstage
      simp only [MediaTasks.initializeCard, hstage] at hpublish ⊢
      exact hpublish
    | hostInit =>
      simp only [MediaTasks.initializeCard, hstage]
      split
      · exact v.failInitialization hstage rfl (by rfl) (by rfl) _
      · exact v.goOn hstage rfl rfl ⟨rfl, rfl⟩ rfl nofun
    | hostDetect =>
      simp only [MediaTasks.initializeCard, hstage]
      split
      · exact v.failInitialization hstage rfl (by rfl) (by rfl) _
      · split
        · exact v.failInitialization hstage rfl (by rfl) (by rfl) _
        · exact v.goOn hstage rfl rfl ⟨rfl, rfl⟩ rfl nofun
    | cardInit =>
      simp only [MediaTasks.initializeCard, hstage]
      split
      · exact v.failInitialization hstage rfl (by rfl) (by rfl) _
      · exact v.goOn hstage rfl rfl ⟨rfl, rfl⟩ rfl nofun
    | geometry =>
      simp only [MediaTasks.initializeCard, hstage]
      split
      case isTrue => exact v.failInitialization hstage rfl (by rfl) (by rfl) _
      case isFalse hgeometry =>
        exact v.goOn hstage rfl rfl ⟨rfl, rfl⟩ rfl fun _ =>
          ⟨fun h => hgeometry (.inl h), not_not.mp fun h => hgeometry (.inr h)⟩
    | diskInit =>
      simp only [MediaTasks.initializeCard, hstage]
      split
      · exact v.failInitialization hstage rfl (by rfl) (by rfl) _
      · exact v.goOn hstage rfl rfl ⟨rfl, rfl⟩ rfl fun _ => v.geometry (.inl hstage)

/-! ## The USB task -/

/-- The card is the same and belongs to the same one. -/
structure SameCard (r r' : MediaRuntime) : Prop where
  state : r'.state = r.state
  cardReady : r'.cardReady = r.cardReady
  mscReady : r'.mscReady = r.mscReady
  blockCount : r'.blockCount = r.blockCount
  blockSize : r'.blockSize = r.blockSize
  writing : r.state = .mediaLocal → r'.hostWriting = true → r.hostWriting = true

theorem SameCard.refl (r : MediaRuntime) : SameCard r r := ⟨rfl, rfl, rfl, rfl, rfl, fun _ => id⟩

theorem Inv.sameCard (v : m.Inv) {r : MediaRuntime} (hsame : SameCard m.media r) {usb : UsbTask}
    (hnotifying : usb.isNotifying = m.usb.isNotifying)
    (hpreparing : usb.isPreparing = true → m.initTask ≠ none)
    (hreading : ∀ {lba blocks bytes}, usb = .reading lba blocks bytes →
      m.media.state = .mediaHost ∧ m.Fits lba blocks)
    (hwriting : ∀ {lba blocks bytes}, usb = .writing lba blocks bytes →
      m.media.state = .mediaHost ∧ m.Fits lba blocks) :
    ({ m with media := r, usb } : MediaTasks).Inv where
  attempts := by
    show _ = if r.state = .initializing then 1 else 0
    rw [hsame.state, ← v.attempts]
    simp only [MediaTasks.attempts, hnotifying]
  task h := by
    rcases h with h | h | h
    · exact v.task (.inl (hsame.state ▸ h))
    · exact v.task (.inr (.inl (hsame.state ▸ h)))
    · exact hpreparing h
  ready h := by
    have hready := v.ready (hsame.state ▸ h)
    exact ⟨hsame.cardReady.trans hready.1, hsame.blockCount.trans hready.2.1,
      hsame.blockSize.trans hready.2.2.1, hready.2.2.2⟩
  unready h := by
    have hunready := v.unready (hsame.state ▸ h)
    exact ⟨hsame.cardReady.trans hunready.1, hsame.mscReady.trans hunready.2⟩
  host h := hsame.mscReady.trans (v.host (hsame.state ▸ h))
  board h := by
    have hlocal : m.media.state = .mediaLocal := hsame.state ▸ h
    refine ⟨hsame.mscReady.trans (v.board hlocal).1, ?_⟩
    rw [← Bool.not_eq_true]
    exact fun hstill => Bool.false_ne_true ((v.board hlocal).2.symm.trans
      (hsame.writing hlocal hstill))
  geometry := v.geometry
  reading h := ⟨hsame.state.trans (hreading h).1, (hreading h).2⟩
  writing h := ⟨hsame.state.trans (hwriting h).1, (hwriting h).2⟩

/-- Nothing of the card moves, and the USB task is at no transfer. -/
theorem Inv.idle (v : m.Inv) {r : MediaRuntime} (hsame : SameCard m.media r) {usb : UsbTask}
    (hnotifying : usb.isNotifying = m.usb.isNotifying)
    (hpreparing : usb.isPreparing = true → m.initTask ≠ none) (htransfer : usb.isTransfer = false) :
    ({ m with media := r, usb } : MediaTasks).Inv :=
  v.sameCard hsame hnotifying hpreparing (fun h => by simp [h, UsbTask.isTransfer] at htransfer)
    (fun h => by simp [h, UsbTask.isTransfer] at htransfer)

/-- A call that ends in its first critical section. -/
theorem Inv.atOnce (v : m.Inv) (hidle : m.usb = .idle) {r : MediaRuntime}
    (hsame : SameCard m.media r) : ({ m with media := r } : MediaTasks).Inv :=
  v.idle hsame rfl (by rw [hidle]; nofun) (hidle ▸ rfl)

theorem sameCard_startStop (r : MediaRuntime) (lun powerCondition : UInt8)
    (start loadEject : Bool) : SameCard r (r.startStop lun powerCondition start loadEject).2 := by
  unfold MediaRuntime.startStop
  split
  · exact .refl r
  · split
    · exact ⟨rfl, rfl, rfl, rfl, rfl, fun _ => id⟩
    · exact .refl r

theorem sameCard_preventAllow (r : MediaRuntime) (lun prohibitRemoval control : UInt8) :
    SameCard r (r.preventAllowMediumRemoval lun prohibitRemoval control).2 := by
  unfold MediaRuntime.preventAllowMediumRemoval
  split
  · exact .refl r
  · exact ⟨rfl, rfl, rfl, rfl, rfl, fun _ => id⟩

theorem sameCard_scsi (r : MediaRuntime) (lun : UInt8) (command : Option UInt8) :
    SameCard r (r.scsi lun command).2 := by
  unfold MediaRuntime.scsi
  split <;> exact ⟨rfl, rfl, rfl, rfl, rfl, fun _ => id⟩

theorem sameCard_controlTransferDone (r : MediaRuntime)
    (requestType request interfaceNumber : UInt8) :
    SameCard r (r.controlTransferDone requestType request interfaceNumber) := by
  unfold MediaRuntime.controlTransferDone
  split
  · exact ⟨rfl, rfl, rfl, rfl, rfl, nofun⟩
  · exact .refl r

theorem sameCard_recordInvalidRequest (r : MediaRuntime) (writeRequest : Bool) :
    SameCard r (r.recordInvalidRequest writeRequest) := by
  unfold MediaRuntime.recordInvalidRequest
  split <;> exact ⟨rfl, rfl, rfl, rfl, rfl, fun _ => id⟩

/-- A command that holds nothing of the volume any more. -/
theorem SameCard.notWriting {r r' : MediaRuntime} (h : SameCard r r') :
    SameCard r { r' with hostWriting := false } :=
  ⟨h.state, h.cardReady, h.mscReady, h.blockCount, h.blockSize, nofun⟩

/-- A chunk that is let through lies in the card. -/
theorem Inv.fits (v : m.Inv) {lun : UInt8} {lba offset bytes blocks : UInt32} {hasBuffer : Bool}
    (hready : m.media.isMscReady = true)
    (hblocks : m.media.validateIo lun lba offset hasBuffer bytes = some blocks) :
    m.media.state = .mediaHost ∧ m.Fits lba blocks := by
  have hstate : m.media.state = .mediaHost := by
    simp only [MediaRuntime.isMscReady, Bool.and_eq_true, decide_eq_true_eq] at hready
    exact hready.1.1.1
  obtain ⟨-, hcount, hsize, -, -⟩ := v.ready (by rw [hstate]; nofun)
  refine ⟨hstate, ?_⟩
  unfold MediaRuntime.validateIo at hblocks
  split at hblocks
  case isTrue => exact nomatch hblocks
  case isFalse hvalid =>
    dsimp only at hblocks
    split at hblocks
    case isTrue => exact nomatch hblocks
    case isFalse hinside =>
      simp only [not_or, ne_eq, not_not] at hvalid hinside
      obtain ⟨-, -, -, -, hbytes, -, hwhole⟩ := hvalid
      obtain ⟨hlba, hroom⟩ := hinside
      cases hblocks
      rw [ge_iff_le, UInt32.le_iff_toNat_le, not_le, hcount] at hlba
      rw [hsize] at hroom hwhole ⊢
      rw [gt_iff_lt, UInt32.lt_iff_toNat_lt, not_lt, hcount,
        UInt32.toNat_sub_of_le _ _ (UInt32.le_iff_toNat_le.mpr (Nat.le_of_lt hlba)),
        UInt32.toNat_div] at hroom
      have hwhole' : bytes.toNat % 512 = 0 := by
        rw [← UInt32.toNat_inj, UInt32.toNat_mod] at hwhole
        exact hwhole
      have hpositive := toNat_pos32 hbytes
      have hfive : mscBlockSize.toNat = 512 := rfl
      rw [hfive] at hroom
      refine ⟨?_, ?_⟩
      · rw [UInt32.toNat_div, hfive]
        omega
      · rw [UInt32.toNat_div, hfive]
        omega

theorem Inv.requestLocal (v : m.Inv) (hidle : m.usb = .idle) :
    ({ m with media := m.media.requestLocal.2 } : MediaTasks).Inv := by
  unfold MediaRuntime.requestLocal
  split
  case isTrue => exact v
  case isFalse =>
    split
    case isFalse => exact v
    case isTrue hhost =>
      unfold MediaRuntime.takeFromHost
      split
      case isTrue => exact v
      case isFalse hwriting =>
        split
        case isTrue => exact v
        case isFalse =>
          have howner : m.media.state.owner ≠ none := by rw [hhost.1]; nofun
          have hattempts := v.attempts
          rw [hhost.1] at hattempts
          exact {
            attempts := hattempts
            task := fun _ => v.task (.inr (.inl howner))
            ready := fun _ => v.ready howner
            unready := nofun
            host := nofun
            board := fun _ => ⟨rfl, Bool.not_eq_true _ ▸ hwriting⟩
            geometry := v.geometry
            reading := fun h => by rw [show m.usb = _ from h] at hidle; exact nomatch hidle
            writing := fun h => by rw [show m.usb = _ from h] at hidle; exact nomatch hidle }

theorem Inv.setHost (v : m.Inv) (hidle : m.usb = .idle) {r : MediaRuntime}
    (hset : m.media.setHost = some r) : ({ m with media := r } : MediaTasks).Inv := by
  unfold MediaRuntime.setHost at hset
  split at hset
  case isFalse => exact nomatch hset
  case isTrue hready =>
    cases hset
    have howner : m.media.state.owner ≠ none := by
      rcases hready.1 with h | h <;> rw [h] <;> nofun
    have hattempts := v.attempts
    rw [if_neg (by rcases hready.1 with h | h <;> rw [h] <;> nofun)] at hattempts
    exact {
      attempts := hattempts
      task := fun _ => v.task (.inr (.inl howner))
      ready := fun _ => v.ready howner
      unready := nofun
      host := fun _ => rfl
      board := nofun
      geometry := v.geometry
      reading := fun h => by rw [show m.usb = _ from h] at hidle; exact nomatch hidle
      writing := fun h => by rw [show m.usb = _ from h] at hidle; exact nomatch hidle }

theorem Inv.begin (v : m.Inv) (readOnly : Bool) (hidle : m.usb = .idle) (call : Call) :
    (m.begin readOnly call).media.Inv := by
  cases call with
  | startInitialization => exact v.idle (.refl _) (by rw [hidle]; rfl) nofun rfl
  | requestHost playerAllows =>
    simp only [MediaTasks.begin]
    split
    · split
      case h_1 r hset => exact v.setHost hidle hset
      case h_2 => exact v.idle (.refl _) (by rw [hidle]; rfl) nofun rfl
    · exact v
  | requestLocal => exact v.requestLocal hidle
  | endHostSession => exact v.atOnce hidle ⟨rfl, rfl, rfl, rfl, rfl, nofun⟩
  | controlTransferDone requestType request interfaceNumber =>
    exact v.atOnce hidle (sameCard_controlTransferDone ..)
  | testUnitReady lun => exact v.atOnce hidle ⟨rfl, rfl, rfl, rfl, rfl, fun _ => id⟩
  | startStop lun powerCondition start loadEject =>
    exact v.atOnce hidle (sameCard_startStop m.media lun powerCondition start loadEject)
  | preventAllowMediumRemoval lun prohibitRemoval control =>
    exact v.atOnce hidle (sameCard_preventAllow m.media lun prohibitRemoval control)
  | scsi lun command => exact v.atOnce hidle (sameCard_scsi ..)
  | read10 lun lba offset hasBuffer bytes =>
    simp only [MediaTasks.begin]
    split
    case isTrue hready =>
      split
      case h_1 blocks hblocks =>
        refine v.sameCard (.refl _) (by rw [hidle]; rfl) nofun (fun h => ?_) nofun
        cases h
        exact v.fits hready hblocks
      case h_2 => exact v.atOnce hidle (sameCard_recordInvalidRequest ..)
    case isFalse => exact v
  | write10 lun lba offset hasBuffer bytes =>
    simp only [MediaTasks.begin]
    split
    case isTrue => exact v.atOnce hidle ⟨rfl, rfl, rfl, rfl, rfl, fun _ => id⟩
    case isFalse =>
      split
      case isTrue hready =>
        split
        case h_1 blocks hblocks =>
          refine v.sameCard (.refl _) (by rw [hidle]; rfl) nofun nofun (fun h => ?_)
          cases h
          exact v.fits hready hblocks
        case h_2 => exact v.atOnce hidle (sameCard_recordInvalidRequest ..).notWriting
      case isFalse => exact v.atOnce hidle (SameCard.refl _).notWriting
  | write10Complete lun => exact v.atOnce hidle (SameCard.refl _).notWriting

theorem Inv.resume (v : m.Inv) (created success : Bool) : (m.resume created success).media.Inv := by
  unfold MediaTasks.resume
  split
  case h_1 => exact v
  case h_2 lba blocks bytes husb =>
    refine v.idle ?_ (by rw [husb]; rfl) nofun rfl
    unfold MediaRuntime.readDone
    dsimp only
    split <;> exact ⟨rfl, rfl, rfl, rfl, rfl, fun _ => id⟩
  case h_3 lba blocks bytes husb =>
    have hhost := (v.writing husb).1
    refine v.idle ?_ (by rw [husb]; rfl) nofun rfl
    unfold MediaRuntime.writeDone
    dsimp only
    split <;> exact ⟨rfl, rfl, rfl, rfl, rfl, fun h => by rw [hhost] at h; exact nomatch h⟩
  case h_4 forHost husb =>
    split
    · unfold attemptAccepted
      split
      · exact v.idle (.refl _) (by rw [husb]; rfl) nofun rfl
      · exact v.idle (.refl _) (by rw [husb]; rfl) nofun rfl
    · exact v.idle (.refl _) (by rw [husb]; rfl) nofun rfl
  case h_5 forHost husb =>
    split
    case h_1 stage hstage =>
      exact v.idle (.refl _) (by rw [husb]; rfl) (fun _ => by rw [hstage]; nofun) rfl
    case h_2 hnone =>
      have howner : m.media.state.owner = none :=
        Decidable.byContradiction fun h => v.task (.inr (.inl h)) hnone
      have hstate : m.media.state ≠ .initializing := fun h => v.task (.inl h) hnone
      have hattempts := v.attempts
      rw [if_neg hstate, MediaTasks.attempts, husb, hnone] at hattempts
      split
      · refine .unowned howner (v.unready howner) ?_ (fun _ => nofun) nofun rfl
        rw [if_neg hstate]
        exact hattempts
      · refine .unowned rfl ⟨rfl, rfl⟩ ?_ (by rintro (h | h) <;> exact nomatch h)
          (fun h => by simp [hnone] at h) rfl
        rw [MediaTasks.attempts, hnone]
        exact hattempts
  case h_6 forHost husb =>
    have htask : m.initTask ≠ none := v.task (.inr (.inr (by rw [husb]; rfl)))
    split
    case isTrue hstate =>
      have hother : m.media.state ≠ .initializing := by
        rcases hstate with h | ⟨-, h⟩ <;> rw [h] <;> nofun
      have hattempts := v.attempts
      rw [if_neg hother, MediaTasks.attempts, husb, Nat.add_assoc] at hattempts
      refine .unowned rfl ⟨rfl, rfl⟩ ?_ (fun _ => htask) v.geometry rfl
      have hquiet := (Nat.add_eq_zero_iff.mp hattempts).2
      exact (Nat.add_assoc ..).trans (congrArg (1 + ·) hquiet)
    case isFalse => exact v.idle (.refl _) (by rw [husb]; rfl) nofun rfl
  case h_7 forHost husb =>
    have hattempts := v.attempts
    rw [MediaTasks.attempts, husb] at hattempts
    split at hattempts
    case isFalse => simp [UsbTask.isNotifying] at hattempts
    case isTrue hstate =>
      have howner : m.media.state.owner = none := by rw [hstate]; rfl
      have htask : m.initTask ≠ none := v.task (.inl hstate)
      have hquiet : (m.initTask.any InitStage.isAttempt).toNat = 0 := by
        simp only [UsbTask.isNotifying, Bool.toNat_true] at hattempts
        omega
      have hnotified (usb : UsbTask) (hnotifying : usb.isNotifying = false)
          (htransfer : usb.isTransfer = false) :
          ({ m with notified := true, usb } : MediaTasks).Inv := by
        refine .unowned howner (v.unready howner) ?_ (fun _ => htask) v.geometry htransfer
        rw [MediaTasks.attempts, hnotifying, hquiet, if_pos hstate]
        rfl
      unfold attemptAccepted
      split
      · exact hnotified _ rfl rfl
      · exact hnotified _ rfl rfl
  case h_8 husb =>
    refine v.idle ?_ (by rw [husb]; rfl) (fun h => ?_) rfl
    · exact ⟨rfl, rfl, rfl, rfl, rfl, fun _ => id⟩
    · exact nomatch h

theorem Inv.step (v : m.Inv) (readOnly : Bool) (event : Event) :
    (m.step readOnly event).media.Inv := by
  cases event with
  | call call =>
    simp only [MediaTasks.step]
    split
    case isTrue hidle => exact v.begin readOnly hidle call
    case isFalse => exact v
  | usbTask created success => exact v.resume created success
  | initTask outcome => exact v.initializeCard outcome

theorem Inv.run (readOnly : Bool) (events : List Event) : (run readOnly events).Inv :=
  Held.invariant (fun _ event v => v.step readOnly event) Inv.initial events

/-! ## What reaches the card -/

theorem access_begin (readOnly : Bool) (m : MediaTasks) (call : Call) :
    (m.begin readOnly call).access = none := by
  cases call with
  | requestHost playerAllows =>
    simp only [begin]
    split
    · split <;> rfl
    · rfl
  | read10 lun lba offset hasBuffer bytes =>
    simp only [begin]
    split
    · split <;> rfl
    · rfl
  | write10 lun lba offset hasBuffer bytes =>
    simp only [begin]
    split
    · rfl
    · split
      · split <;> rfl
      · rfl
  | _ => rfl

theorem access_attemptAccepted (m : MediaTasks) (forHost : Bool) :
    (m.attemptAccepted forHost).access = none := by
  unfold attemptAccepted
  split <;> rfl

/-- Only the host's chunks reach the card, and each lies in it. -/
theorem Inv.access (v : m.Inv) {readOnly : Bool} {event : Event} {access : CardAccess}
    (h : (m.step readOnly event).access = some access) :
    m.media.state = .mediaHost ∧ m.Fits access.lba access.blocks := by
  cases event with
  | call call =>
    simp only [MediaTasks.step] at h
    split at h
    · rw [access_begin] at h
      exact nomatch h
    · exact nomatch h
  | initTask outcome => exact nomatch h
  | usbTask created success =>
    simp only [MediaTasks.step, MediaTasks.resume] at h
    split at h
    case h_2 husb =>
      cases h
      exact v.reading husb
    case h_3 husb =>
      cases h
      exact v.writing husb
    case h_4 =>
      split at h
      · rw [access_attemptAccepted] at h
        exact nomatch h
      · exact nomatch h
    case h_5 =>
      split at h
      · exact nomatch h
      · split at h <;> exact nomatch h
    case h_6 => split at h <;> exact nomatch h
    case h_7 =>
      rw [access_attemptAccepted] at h
      exact nomatch h
    all_goals exact nomatch h

end MediaTasks

end WaveformGenerator.Media

import WaveformGenerator.Media.Exclusion

/-!
# What the host holds of its volume

A chunk of a WRITE command that is on the card holds the volume until the command ends, and so does a
host that prevents removal until it allows it. The board takes the card from a host that holds
nothing, and a refusal leaves the card where it is.
-/

namespace WaveformGenerator.Media

namespace MediaTasks

variable {m : MediaTasks}

/-! ## The host's hold -/

/-- A WRITE command ends: its status is sent, a chunk of it fails, or its host gives it up. -/
def EndsWrite (readOnly : Bool) (m : MediaTasks) (event : Event) : Prop :=
  (m.usb = .idle ∧ ((∃ lun, event = .call (.write10Complete lun)) ∨ event = .call .endHostSession ∨
    event = .call (.controlTransferDone usbRequestTypeClassInterfaceOut mscRequestBotReset
      usbInterfaceMsc))) ∨
  ∃ sense, (m.step readOnly event).answer = some (.writeFailed sense)

/-- The host lets the medium be removed, or its session ends. -/
def AllowsRemoval (m : MediaTasks) (event : Event) : Prop :=
  m.usb = .idle ∧ (event = .call .endHostSession ∨
    ∃ prohibitRemoval control, prohibitRemoval &&& scsiPreventFieldMask = 0 ∧
      event = .call (.preventAllowMediumRemoval mscLun prohibitRemoval control))

theorem holds_initializeCard (m : MediaTasks) (outcome : SdOutcome) :
    (m.initializeCard outcome).media.hostWriting = m.media.hostWriting ∧
      (m.initializeCard outcome).media.hostPreventsRemoval = m.media.hostPreventsRemoval := by
  simp only [initializeCard, failInitialization]
  repeat' split
  all_goals exact ⟨rfl, rfl⟩

theorem holds_recordInvalidRequest (r : MediaRuntime) (writeRequest : Bool) :
    (r.recordInvalidRequest writeRequest).hostWriting = r.hostWriting ∧
      (r.recordInvalidRequest writeRequest).hostPreventsRemoval = r.hostPreventsRemoval := by
  unfold MediaRuntime.recordInvalidRequest
  split <;> exact ⟨rfl, rfl⟩

theorem holds_setHost {r r' : MediaRuntime} (h : r.setHost = some r') :
    r'.hostWriting = r.hostWriting ∧ r'.hostPreventsRemoval = r.hostPreventsRemoval := by
  unfold MediaRuntime.setHost at h
  split at h
  · cases h
    exact ⟨rfl, rfl⟩
  · cases h

theorem holds_requestLocal (r : MediaRuntime) :
    r.requestLocal.2.hostWriting = r.hostWriting ∧
      r.requestLocal.2.hostPreventsRemoval = r.hostPreventsRemoval := by
  unfold MediaRuntime.requestLocal MediaRuntime.takeFromHost
  repeat' split
  all_goals exact ⟨rfl, rfl⟩

theorem holds_startStop (r : MediaRuntime) (lun powerCondition : UInt8) (start loadEject : Bool) :
    (r.startStop lun powerCondition start loadEject).2.hostWriting = r.hostWriting ∧
      (r.startStop lun powerCondition start loadEject).2.hostPreventsRemoval =
        r.hostPreventsRemoval := by
  unfold MediaRuntime.startStop
  repeat' split
  all_goals exact ⟨rfl, rfl⟩

theorem holds_scsi (r : MediaRuntime) (lun : UInt8) (command : Option UInt8) :
    (r.scsi lun command).2.hostWriting = r.hostWriting ∧
      (r.scsi lun command).2.hostPreventsRemoval = r.hostPreventsRemoval := by
  unfold MediaRuntime.scsi
  split <;> exact ⟨rfl, rfl⟩

theorem holds_attemptAccepted (m : MediaTasks) (forHost : Bool) :
    (m.attemptAccepted forHost).media.media = m.media := by
  unfold attemptAccepted
  split <;> rfl

/-- What of the hold a step of the USB task within a call leaves, except that of a chunk written. -/
theorem holds_resume (m : MediaTasks) (created success : Bool) :
    ((m.resume created success).media.media.hostWriting = m.media.hostWriting ∨
      ∃ lba blocks bytes, m.usb = .writing lba blocks bytes ∧
        (m.resume created success).media.media.hostWriting = success) ∧
      (m.resume created success).media.media.hostPreventsRemoval = m.media.hostPreventsRemoval := by
  unfold resume
  split
  case h_2 =>
    unfold MediaRuntime.readDone
    dsimp only
    split <;> exact ⟨.inl rfl, rfl⟩
  case h_3 lba blocks bytes husb =>
    unfold MediaRuntime.writeDone
    cases success <;> exact ⟨.inr ⟨lba, blocks, bytes, husb, rfl⟩, rfl⟩
  case h_4 =>
    split
    · exact ⟨.inl (congrArg _ (holds_attemptAccepted ..)), congrArg _ (holds_attemptAccepted ..)⟩
    · exact ⟨.inl rfl, rfl⟩
  case h_5 =>
    split
    · exact ⟨.inl rfl, rfl⟩
    · split <;> exact ⟨.inl rfl, rfl⟩
  case h_6 => split <;> exact ⟨.inl rfl, rfl⟩
  case h_7 =>
    exact ⟨.inl (congrArg _ (holds_attemptAccepted ..)), congrArg _ (holds_attemptAccepted ..)⟩
  all_goals exact ⟨.inl rfl, rfl⟩

/-- A WRITE command holds the volume to its end. -/
theorem hostWriting_step {readOnly : Bool} {event : Event} (h : m.media.hostWriting = true)
    (hends : ¬EndsWrite readOnly m event) :
    (m.step readOnly event).media.media.hostWriting = true := by
  obtain ⟨hcalls, hfailed⟩ := not_or.mp hends
  cases event with
  | initTask outcome => exact (holds_initializeCard m outcome).1.trans h
  | usbTask created success =>
    rcases (holds_resume m created success).1 with hsame | ⟨lba, blocks, bytes, husb, hwritten⟩
    · exact hsame.trans h
    · refine hwritten.trans ?_
      cases success with
      | true => rfl
      | false => exact absurd ⟨none, by simp [MediaTasks.step, resume, husb]⟩ hfailed
  | call call =>
    simp only [MediaTasks.step] at hfailed ⊢
    split
    case isFalse => exact h
    case isTrue hidle =>
      rw [if_pos hidle] at hfailed
      cases call with
      | startInitialization => exact h
      | requestHost playerAllows =>
        simp only [begin]
        split
        · split
          case h_1 r hset => exact (holds_setHost hset).1.trans h
          case h_2 => exact h
        · exact h
      | requestLocal => exact (holds_requestLocal m.media).1.trans h
      | endHostSession => exact absurd ⟨hidle, .inr (.inl rfl)⟩ hcalls
      | controlTransferDone requestType request interfaceNumber =>
        simp only [begin, MediaRuntime.controlTransferDone]
        split
        case isTrue hreset =>
          obtain ⟨rfl, rfl, rfl⟩ := hreset
          exact absurd ⟨hidle, .inr (.inr rfl)⟩ hcalls
        case isFalse => exact h
      | testUnitReady lun => exact h
      | startStop lun powerCondition start loadEject =>
        exact (holds_startStop m.media lun powerCondition start loadEject).1.trans h
      | preventAllowMediumRemoval lun prohibitRemoval control =>
        simp only [begin, MediaRuntime.preventAllowMediumRemoval]
        split <;> exact h
      | scsi lun command => exact (holds_scsi m.media lun command).1.trans h
      | read10 lun lba offset hasBuffer bytes =>
        simp only [begin]
        split
        · split
          · exact h
          · exact (holds_recordInvalidRequest m.media false).1.trans h
        · exact h
      | write10 lun lba offset hasBuffer bytes =>
        simp only [begin] at hfailed ⊢
        split
        · exact h
        · rename_i hwritable
          rw [if_neg hwritable] at hfailed
          split
          · rename_i hready
            rw [if_pos hready] at hfailed
            split
            · exact h
            · rename_i hnone
              rw [hnone] at hfailed
              exact absurd ⟨_, rfl⟩ hfailed
          · rename_i hready
            rw [if_neg hready] at hfailed
            exact absurd ⟨_, rfl⟩ hfailed
      | write10Complete lun => exact absurd ⟨hidle, .inl ⟨lun, rfl⟩⟩ hcalls

/-- A host that prevents removal does so until it allows it. -/
theorem hostPreventsRemoval_step {readOnly : Bool} {event : Event}
    (h : m.media.hostPreventsRemoval = true) (hallows : ¬AllowsRemoval m event) :
    (m.step readOnly event).media.media.hostPreventsRemoval = true := by
  cases event with
  | initTask outcome => exact (holds_initializeCard m outcome).2.trans h
  | usbTask created success => exact (holds_resume m created success).2.trans h
  | call call =>
    simp only [MediaTasks.step]
    split
    case isFalse => exact h
    case isTrue hidle =>
      cases call with
      | startInitialization => exact h
      | requestHost playerAllows =>
        simp only [begin]
        split
        · split
          case h_1 r hset => exact (holds_setHost hset).2.trans h
          case h_2 => exact h
        · exact h
      | requestLocal => exact (holds_requestLocal m.media).2.trans h
      | endHostSession => exact absurd ⟨hidle, .inl rfl⟩ hallows
      | controlTransferDone requestType request interfaceNumber =>
        simp only [begin, MediaRuntime.controlTransferDone]
        split <;> exact h
      | testUnitReady lun => exact h
      | startStop lun powerCondition start loadEject =>
        exact (holds_startStop m.media lun powerCondition start loadEject).2.trans h
      | preventAllowMediumRemoval lun prohibitRemoval control =>
        simp only [begin, MediaRuntime.preventAllowMediumRemoval]
        split
        case isTrue => exact h
        case isFalse hlun =>
          refine decide_eq_true fun hzero => hallows ⟨hidle, .inr ⟨prohibitRemoval, control, hzero, ?_⟩⟩
          rw [not_not.mp hlun]
      | scsi lun command => exact (holds_scsi m.media lun command).2.trans h
      | read10 lun lba offset hasBuffer bytes =>
        simp only [begin]
        split
        · split
          · exact h
          · exact (holds_recordInvalidRequest m.media false).2.trans h
        · exact h
      | write10 lun lba offset hasBuffer bytes =>
        simp only [begin]
        split
        · exact h
        · split
          · split
            · exact h
            · exact (holds_recordInvalidRequest m.media true).2.trans h
          · exact h
      | write10Complete lun => exact h

theorem run_cons (readOnly : Bool) (before : List Event) (event : Event) (after : List Event) :
    run readOnly (before ++ event :: after) =
      after.foldl (fun m event => (m.step readOnly event).media)
        ((run readOnly before).step readOnly event).media := by
  rw [run, List.foldl_append, List.foldl_cons, run]

/-- Of a hold that `event` begins and no other step than a release ends, and that is gone. -/
theorem released {readOnly : Bool} {P : MediaTasks → Prop} {R : MediaTasks → Event → Prop}
    (hstep : ∀ m event, P m → ¬R m event → P (m.step readOnly event).media) {before : List Event}
    {event : Event} {after : List Event} (hbegin : P ((run readOnly before).step readOnly event).media)
    (hend : ¬P (run readOnly (before ++ event :: after))) :
    ∃ between release rest, after = between ++ release :: rest ∧
      R (run readOnly (before ++ event :: between)) release := by
  rw [run_cons] at hend
  obtain ⟨between, release, rest, rfl, hrelease⟩ := Held.released hstep hbegin hend
  exact ⟨between, release, rest, rfl, by rwa [run_cons]⟩

theorem hostWriting_of_wrote {readOnly : Bool} {event : Event} {bytes : UInt32}
    (h : (m.step readOnly event).answer = some (.wrote bytes)) :
    (m.step readOnly event).media.media.hostWriting = true := by
  cases event with
  | initTask outcome => cases h
  | call call =>
    simp only [MediaTasks.step] at h
    split at h
    case isFalse => cases h
    case isTrue =>
      cases call <;> simp only [begin] at h <;> (repeat' split at h) <;> cases h
  | usbTask created success =>
    simp only [MediaTasks.step, resume, attemptAccepted, attemptFailed] at h ⊢
    split at h
    case h_3 =>
      cases success with
      | true => rfl
      | false => cases h
    all_goals (repeat' split at h) <;> cases h

/-! ## Requests -/

/-- The board takes the card when nothing of the host's holds it. -/
theorem granted_requestLocal {readOnly : Bool}
    (h : (m.step readOnly (.call .requestLocal)).answer = some (.board .granted)) :
    (m.media.state = .mediaLocal ∧ (m.step readOnly (.call .requestLocal)).media = m) ∨
      m.media.state = .mediaHost ∧ m.media.hostWriting = false ∧
        m.media.hostPreventsRemoval = false := by
  simp only [MediaTasks.step] at h ⊢
  split at h
  case isFalse => cases h
  case isTrue hidle =>
    rw [if_pos hidle]
    simp only [begin, MediaRuntime.requestLocal, MediaRuntime.takeFromHost] at h ⊢
    split at h
    case isTrue hlocal => exact .inl ⟨hlocal, by rw [if_pos hlocal]⟩
    case isFalse =>
      split at h
      case isFalse => cases h
      case isTrue hhost =>
        split at h
        case isTrue => cases h
        case isFalse hwriting =>
          split at h
          case isTrue => cases h
          case isFalse hprevents =>
            exact .inr ⟨hhost.1, Bool.not_eq_true _ ▸ hwriting, Bool.not_eq_true _ ▸ hprevents⟩

/-- Any other call leaves the card where it is or with the host. -/
theorem state_begin (readOnly : Bool) (m : MediaTasks) {call : Call}
    (hcall : call ≠ .requestLocal) :
    (m.begin readOnly call).media.media.state = m.media.state ∨
      (m.begin readOnly call).media.media.state = .mediaHost := by
  cases call with
  | requestLocal => exact absurd rfl hcall
  | requestHost playerAllows =>
    simp only [begin]
    split
    · split
      case h_1 r hset =>
        unfold MediaRuntime.setHost at hset
        split at hset
        · cases hset
          exact .inr rfl
        · cases hset
      case h_2 => exact .inl rfl
    · exact .inl rfl
  | controlTransferDone requestType request interfaceNumber =>
    exact .inl (sameCard_controlTransferDone ..).state
  | startStop lun powerCondition start loadEject =>
    exact .inl (sameCard_startStop m.media lun powerCondition start loadEject).state
  | preventAllowMediumRemoval lun prohibitRemoval control =>
    exact .inl (sameCard_preventAllow m.media lun prohibitRemoval control).state
  | scsi lun command => exact .inl (sameCard_scsi m.media lun command).state
  | read10 lun lba offset hasBuffer bytes =>
    simp only [begin]
    split
    · split
      · exact .inl rfl
      · exact .inl (sameCard_recordInvalidRequest m.media false).state
    · exact .inl rfl
  | write10 lun lba offset hasBuffer bytes =>
    simp only [begin]
    split
    · exact .inl rfl
    · split
      · split
        · exact .inl rfl
        · exact .inl (sameCard_recordInvalidRequest m.media true).state
      · exact .inl rfl
  | _ => exact .inl rfl

/-- The card comes to the board through MEDIA LOCAL alone. -/
theorem requestLocal_of_mediaLocal {readOnly : Bool} {event : Event}
    (hbefore : m.media.state ≠ .mediaLocal)
    (hafter : (m.step readOnly event).media.media.state = .mediaLocal) :
    event = .call .requestLocal := by
  cases event with
  | initTask outcome =>
    simp only [MediaTasks.step, initializeCard, failInitialization] at hafter
    repeat' split at hafter
    all_goals first | exact absurd hafter hbefore | cases hafter
  | usbTask created success =>
    simp only [MediaTasks.step, resume, attemptAccepted, MediaRuntime.readDone,
      MediaRuntime.writeDone] at hafter
    repeat' split at hafter
    all_goals first | exact absurd hafter hbefore | cases hafter
  | call call =>
    by_contra hother
    simp only [MediaTasks.step] at hafter
    split at hafter
    case isFalse => exact hbefore hafter
    case isTrue =>
      rcases m.state_begin readOnly fun h => hother (congrArg Event.call h) with hsame | hhost
      · exact hbefore (hsame.symm.trans hafter)
      · rw [hhost] at hafter
        cases hafter

end MediaTasks

/-- The answers that refuse what was asked, but for a chunk of a WRITE command. -/
def Answer.isRefusal : Answer → Bool
  | .started status => status ≠ .ok
  | .host result => result = .failed
  | .hostBusy => true
  | .board result => result ≠ .granted
  | .removal accepted | .stopped accepted => !accepted
  | .unitReady ready _ => !ready
  | .command (.error _) | .readFailed _ => true
  | _ => false

/-- A MEDIA HOST, or the start at boot, has been neither accepted nor refused. -/
def UsbTask.isUndecided : UsbTask → Bool
  | .attempting _ | .ensuring _ | .preparing _ => true
  | _ => false

namespace MediaTasks

variable {m : MediaTasks}

theorem requestLocal_of_refused {r : MediaRuntime} (h : r.requestLocal.1 ≠ .granted) :
    r.requestLocal.2 = r := by
  unfold MediaRuntime.requestLocal MediaRuntime.takeFromHost at h ⊢
  split
  · rfl
  · split
    · rename_i hlocal hhost
      rw [if_neg hlocal, if_pos hhost] at h
      split
      · rfl
      · rename_i hwriting
        rw [if_neg hwriting] at h
        split
        · rfl
        · rename_i hprevents
          rw [if_neg hprevents] at h
          exact absurd rfl h
    · rfl

theorem ownership_startStop {r : MediaRuntime} (lun powerCondition : UInt8) (start loadEject : Bool)
    (h : (r.startStop lun powerCondition start loadEject).1 = false) :
    (r.startStop lun powerCondition start loadEject).2 = r := by
  unfold MediaRuntime.startStop at h ⊢
  split
  · rfl
  · rename_i hlun
    rw [if_neg hlun] at h
    split at h <;> cases h

theorem ownership_preventAllow {r : MediaRuntime} (lun prohibitRemoval control : UInt8)
    (h : (r.preventAllowMediumRemoval lun prohibitRemoval control).1 = false) :
    (r.preventAllowMediumRemoval lun prohibitRemoval control).2 = r := by
  unfold MediaRuntime.preventAllowMediumRemoval at h ⊢
  split
  · rfl
  · rename_i hlun
    rw [if_neg hlun] at h
    cases h

theorem ownership_scsi (r : MediaRuntime) (lun : UInt8) (command : Option UInt8) :
    (r.scsi lun command).2.ownership = r.ownership := by
  unfold MediaRuntime.scsi
  split <;> rfl

theorem ownership_recordInvalidRequest (r : MediaRuntime) (writeRequest : Bool) :
    (r.recordInvalidRequest writeRequest).ownership = r.ownership := by
  unfold MediaRuntime.recordInvalidRequest
  split <;> rfl

theorem ownership_readDone (r : MediaRuntime) (blocks : UInt32) (success : Bool) :
    (r.readDone blocks success).ownership = r.ownership := by
  unfold MediaRuntime.readDone
  cases success <;> rfl

/-- A call that is refused at once moves nothing. -/
theorem ownership_begin (readOnly : Bool) (m : MediaTasks) (call : Call) {answer : Answer}
    (hanswer : (m.begin readOnly call).answer = some answer) (hrefusal : answer.isRefusal = true) :
    (m.begin readOnly call).media.media.ownership = m.media.ownership := by
  cases call with
  | startInitialization => cases hanswer
  | requestHost playerAllows =>
    simp only [begin] at hanswer ⊢
    split at hanswer
    · split at hanswer
      · cases hanswer
        exact absurd hrefusal Bool.false_ne_true
      · cases hanswer
    · rename_i hrefused
      rw [if_neg hrefused]
  | requestLocal =>
    cases hanswer
    exact congrArg _ (requestLocal_of_refused (of_decide_eq_true hrefusal))
  | startStop lun powerCondition start loadEject =>
    cases hanswer
    exact congrArg _ (ownership_startStop lun powerCondition start loadEject
      ((Bool.not_eq_true' _).mp hrefusal))
  | preventAllowMediumRemoval lun prohibitRemoval control =>
    cases hanswer
    exact congrArg _ (ownership_preventAllow lun prohibitRemoval control
      ((Bool.not_eq_true' _).mp hrefusal))
  | scsi lun command => exact ownership_scsi m.media lun command
  | testUnitReady lun => rfl
  | read10 lun lba offset hasBuffer bytes =>
    simp only [begin]
    split
    · split
      · rfl
      · exact ownership_recordInvalidRequest ..
    · rfl
  | write10 lun lba offset hasBuffer bytes =>
    simp only [begin] at hanswer
    repeat' split at hanswer
    all_goals cases hanswer
    all_goals exact absurd hrefusal Bool.false_ne_true
  | endHostSession | controlTransferDone | write10Complete =>
    cases hanswer
    exact absurd hrefusal Bool.false_ne_true

theorem answer_attemptAccepted {forHost : Bool} {answer : Answer}
    (hanswer : (m.attemptAccepted forHost).answer = some answer) : answer.isRefusal = false := by
  unfold attemptAccepted at hanswer
  split at hanswer
  · cases hanswer
  · cases hanswer
    rfl

/-- What is refused moves nothing. -/
theorem Inv.refused (v : m.Inv) {readOnly : Bool} {event : Event} {answer : Answer}
    (hanswer : (m.step readOnly event).answer = some answer) (hrefusal : answer.isRefusal = true) :
    (m.step readOnly event).media.media.ownership = m.media.ownership := by
  cases event with
  | initTask outcome => cases hanswer
  | call call =>
    simp only [MediaTasks.step] at hanswer ⊢
    split at hanswer
    case isTrue hidle =>
      rw [if_pos hidle]
      exact ownership_begin readOnly m call hanswer hrefusal
    case isFalse => cases hanswer
  | usbTask created success =>
    cases husb : m.usb with
    | idle =>
      simp only [MediaTasks.step, MediaTasks.resume, husb] at hanswer
      cases hanswer
    | reading lba blocks bytes =>
      simp only [MediaTasks.step, MediaTasks.resume, husb]
      exact ownership_readDone ..
    | writing lba blocks bytes =>
      simp only [MediaTasks.step, MediaTasks.resume, husb] at hanswer
      cases hanswer
      cases success <;> exact absurd hrefusal Bool.false_ne_true
    | attempting forHost =>
      simp only [MediaTasks.step, MediaTasks.resume, husb] at hanswer
      split at hanswer
      · rw [answer_attemptAccepted hanswer] at hrefusal
        exact absurd hrefusal Bool.false_ne_true
      · cases hanswer
    | ensuring forHost =>
      cases hnone : m.initTask with
      | some stage =>
        simp only [MediaTasks.step, MediaTasks.resume, husb, hnone] at hanswer
        cases hanswer
      | none =>
        have howner : m.media.state.owner = none :=
          Decidable.byContradiction fun h => v.task (.inr (.inl h)) hnone
        obtain ⟨hcard, hmsc⟩ := v.unready howner
        simp only [MediaTasks.step, MediaTasks.resume, husb, hnone] at hanswer ⊢
        split
        · rfl
        · simp only [MediaRuntime.ownership, MediaRuntime.latchInitializationFault, hcard, hmsc, howner]
          rfl
    | preparing forHost =>
      simp only [MediaTasks.step, MediaTasks.resume, husb] at hanswer ⊢
      split at hanswer
      · cases hanswer
      · rename_i hnot
        rw [if_neg hnot]
    | notifying forHost =>
      simp only [MediaTasks.step, MediaTasks.resume, husb] at hanswer
      rw [answer_attemptAccepted hanswer] at hrefusal
      exact absurd hrefusal Bool.false_ne_true
    | readmitting =>
      simp only [MediaTasks.step, MediaTasks.resume, husb] at hanswer
      cases hanswer
      exact absurd hrefusal Bool.false_ne_true

theorem usb_attemptAccepted (m : MediaTasks) (forHost : Bool) :
    (m.attemptAccepted forHost).media.usb.isUndecided = false := by
  unfold attemptAccepted
  split <;> rfl

/-- What has not been decided on yet has moved nothing. -/
theorem undecided {readOnly : Bool} {event : Event} (husb : ∀ outcome, event ≠ .initTask outcome)
    (hundecided : (m.step readOnly event).media.usb.isUndecided = true) :
    (m.step readOnly event).media.media.ownership = m.media.ownership := by
  cases event with
  | initTask outcome => exact absurd rfl (husb outcome)
  | usbTask created success =>
    cases husb : m.usb with
    | idle => simp only [MediaTasks.step, resume, husb]
    | reading lba blocks bytes =>
      simp only [MediaTasks.step, resume, husb] at hundecided
      cases hundecided
    | writing lba blocks bytes =>
      simp only [MediaTasks.step, resume, husb] at hundecided
      cases hundecided
    | attempting forHost =>
      simp only [MediaTasks.step, resume, husb] at hundecided ⊢
      split
      · exact congrArg _ (holds_attemptAccepted ..)
      · rfl
    | ensuring forHost =>
      simp only [MediaTasks.step, resume, husb] at hundecided ⊢
      split
      · rfl
      · split
        · rfl
        · rename_i hnone hnot
          rw [hnone] at hundecided
          simp only [if_neg hnot] at hundecided
          cases hundecided
    | preparing forHost =>
      simp only [MediaTasks.step, resume, husb] at hundecided ⊢
      split
      · rename_i hprepared
        rw [if_pos hprepared] at hundecided
        cases hundecided
      · rfl
    | notifying forHost =>
      simp only [MediaTasks.step, resume, husb] at hundecided
      rw [usb_attemptAccepted] at hundecided
      cases hundecided
    | readmitting =>
      simp only [MediaTasks.step, resume, husb] at hundecided
      cases hundecided
  | call call =>
    simp only [MediaTasks.step] at hundecided ⊢
    split
    case isFalse => rfl
    case isTrue hidle =>
      rw [if_pos hidle] at hundecided
      have hnot : m.usb.isUndecided ≠ true := by rw [hidle]; exact Bool.false_ne_true
      cases call with
      | startInitialization => rfl
      | requestHost playerAllows =>
        simp only [begin] at hundecided ⊢
        split at hundecided
        case isFalse => exact absurd hundecided hnot
        case isTrue hallows =>
          rw [if_pos hallows]
          split at hundecided
          case h_1 => exact absurd hundecided hnot
          case h_2 => rfl
      | read10 lun lba offset hasBuffer bytes =>
        simp only [begin] at hundecided
        repeat' split at hundecided
        all_goals first | exact absurd hundecided hnot | cases hundecided
      | write10 lun lba offset hasBuffer bytes =>
        simp only [begin] at hundecided
        repeat' split at hundecided
        all_goals first | exact absurd hundecided hnot | cases hundecided
      | _ => exact absurd hundecided hnot

/-- A chunk of a WRITE command that is refused or fails ends the command, and nothing else. -/
theorem writeFailed {readOnly : Bool} {event : Event} {sense : Option Sense}
    (hanswer : (m.step readOnly event).answer = some (.writeFailed sense)) :
    (m.step readOnly event).media.media.ownership = m.media.ownership ∨
      (m.step readOnly event).media.media.ownership =
        { m.media.ownership with hostWriting := false } := by
  cases event with
  | initTask outcome => cases hanswer
  | usbTask created success =>
    simp only [MediaTasks.step, resume, attemptAccepted, attemptFailed] at hanswer ⊢
    split at hanswer
    case h_3 =>
      cases success with
      | true => cases hanswer
      | false => exact .inr rfl
    all_goals (repeat' split at hanswer) <;> cases hanswer
  | call call =>
    simp only [MediaTasks.step] at hanswer ⊢
    split at hanswer
    case isFalse => cases hanswer
    case isTrue hidle =>
      rw [if_pos hidle]
      cases call with
      | write10 lun lba offset hasBuffer bytes =>
        simp only [begin]
        split
        · exact .inl rfl
        · split
          · split
            · exact .inl rfl
            · exact .inr rfl
          · exact .inr rfl
      | _ =>
        simp only [begin] at hanswer
        repeat' split at hanswer
        all_goals cases hanswer

/-- **Card ownership.** The card sees the host's chunks alone and each inside it; who owns it owns a
ready card of 512-byte blocks; the board takes it from the host neither between a chunk of a WRITE
command and that command's end nor before a host that prevents removal allows it, and when the board
has it already MEDIA LOCAL changes nothing; what is refused leaves the ownership as it was. -/
theorem card_ownership (readOnly : Bool) (events : List Event) :
    let m := run readOnly events
    (∀ event access, (m.step readOnly event).access = some access →
      m.media.state = .mediaHost ∧ m.Fits access.lba access.blocks) ∧
    (m.media.state.owner ≠ none → m.media.cardReady = true ∧ m.media.blockSize = mscBlockSize ∧
      m.sd.blockSize = mscBlockSize) ∧
    (∀ event, m.media.state ≠ .mediaLocal →
      (m.step readOnly event).media.media.state = .mediaLocal → event = .call .requestLocal) ∧
    ((m.step readOnly (.call .requestLocal)).answer = some (.board .granted) →
      (m.media.state = .mediaLocal ∧ (m.step readOnly (.call .requestLocal)).media = m) ∨
      m.media.state = .mediaHost ∧
      (∀ before event after bytes, events = before ++ event :: after →
        ((run readOnly before).step readOnly event).answer = some (.wrote bytes) →
        ∃ between ending rest, after = between ++ ending :: rest ∧
          EndsWrite readOnly (run readOnly (before ++ event :: between)) ending) ∧
      (∀ before after prohibitRemoval control,
        events = before ++
          .call (.preventAllowMediumRemoval mscLun prohibitRemoval control) :: after →
        (run readOnly before).usb = .idle → prohibitRemoval &&& scsiPreventFieldMask ≠ 0 →
        ∃ between allowing rest, after = between ++ allowing :: rest ∧
          AllowsRemoval (run readOnly (before ++
            .call (.preventAllowMediumRemoval mscLun prohibitRemoval control) :: between))
            allowing)) ∧
    (∀ event answer, (m.step readOnly event).answer = some answer → answer.isRefusal = true →
      (m.step readOnly event).media.media.ownership = m.media.ownership) ∧
    (∀ event, (∀ outcome, event ≠ .initTask outcome) →
      (m.step readOnly event).media.usb.isUndecided = true →
      (m.step readOnly event).media.media.ownership = m.media.ownership) ∧
    (∀ event sense, (m.step readOnly event).answer = some (.writeFailed sense) →
      (m.step readOnly event).media.media.ownership = m.media.ownership ∨
      (m.step readOnly event).media.media.ownership =
        { m.media.ownership with hostWriting := false }) := by
  intro m
  have v : m.Inv := Inv.run readOnly events
  refine ⟨fun _ _ => v.access, fun howner => ?_, fun _ => requestLocal_of_mediaLocal,
    fun hgranted => ?_, fun _ _ => v.refused, fun _ => undecided, fun _ _ => writeFailed⟩
  · obtain ⟨hready, -, hsize, hcard, -⟩ := v.ready howner
    exact ⟨hready, hsize, hcard⟩
  · rcases granted_requestLocal hgranted with hlocal | ⟨hhost, hwriting, hprevents⟩
    · exact .inl hlocal
    · refine .inr ⟨hhost, fun before event after bytes hevents hwrote => ?_,
        fun before after prohibitRemoval control hevents hidle hprevent => ?_⟩
      · subst hevents
        exact released (P := fun m => m.media.hostWriting = true)
          (fun _ _ => hostWriting_step) (hostWriting_of_wrote hwrote)
          (Bool.not_eq_true _ ▸ hwriting)
      · subst hevents
        refine released (P := fun m => m.media.hostPreventsRemoval = true)
          (fun _ _ => hostPreventsRemoval_step) ?_ (Bool.not_eq_true _ ▸ hprevents)
        simp [MediaTasks.step, hidle, begin, MediaRuntime.preventAllowMediumRemoval, hprevent]

/-- A card of 100 blocks is initialised, the board takes it, and the host then prevents removal. -/
def preventedLate : List Event :=
  .call .startInitialization :: .replicate 4 (.usbTask true true) ++
    .replicate 7 (.initTask ⟨0, some sdInserted, 100, mscBlockSize⟩) ++
    [.call .requestLocal, .call (.preventAllowMediumRemoval mscLun 1 0)]

/-- The board that has the card is granted it also while the host prevents removal. -/
theorem granted_while_prevented :
    ¬∀ events, ((run false events).step false (.call .requestLocal)).answer =
      some (.board .granted) → (run false events).media.hostPreventsRemoval = false := by
  intro h
  exact Bool.noConfusion (h preventedLate rfl)

end MediaTasks

end WaveformGenerator.Media

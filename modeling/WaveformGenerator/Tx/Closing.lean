import WaveformGenerator.Tx.Artifact

/-!
# What the owner does to the card between its writes

The names of an artifact and what of the directory stays intact under its creations and renames;
then the calls that change no file (closing, unmounting, mounting, looking), and how a failure
leaves the card.
-/

namespace WaveformGenerator.Tx

/-! ## Names -/

/-- The name of `stem` in the owner's directory. -/
def artifactPath (stem extension : List Char) : Path :=
  "2:/WG/".toList ++ (stem ++ '.' :: extension)

def wavOf (stem : List Char) : Path := artifactPath stem "WAV".toList

def manifestOf (stem : List Char) : Path := artifactPath stem "JSON".toList

theorem append_dot_inj {a b c d : List Char} (hb : '.' ∉ b) (hd : '.' ∉ d)
    (h : a ++ '.' :: b = c ++ '.' :: d) : a = c ∧ b = d := by
  induction a generalizing c with
  | nil =>
    cases c with
    | nil => exact ⟨rfl, (List.cons.inj h).2⟩
    | cons x c =>
      have htail : b = c ++ '.' :: d := (List.cons.inj h).2
      exact absurd (htail ▸ List.mem_append_right c List.mem_cons_self) hb
  | cons x a ih =>
    cases c with
    | nil =>
      have htail : a ++ '.' :: b = d := (List.cons.inj h).2
      exact absurd (htail ▸ List.mem_append_right a List.mem_cons_self) hd
    | cons y c =>
      obtain ⟨hhead, htail⟩ := List.cons.inj h
      obtain ⟨rfl, rfl⟩ := ih htail
      exact ⟨by rw [hhead], rfl⟩

theorem artifactPath_inj {stem stem' extension extension' : List Char} (h : '.' ∉ extension)
    (h' : '.' ∉ extension') (heq : artifactPath stem extension = artifactPath stem' extension') :
    stem = stem' ∧ extension = extension' :=
  append_dot_inj h h' (List.append_cancel_left heq)

/-- Names of two extensions are different. -/
theorem artifactPath_ne {extension extension' : List Char} (h : '.' ∉ extension)
    (h' : '.' ∉ extension') (hne : extension ≠ extension') (stem stem' : List Char) :
    artifactPath stem extension ≠ artifactPath stem' extension' :=
  fun heq => hne (artifactPath_inj h h' heq).2

theorem withExtension_append (path : Path) {old : List Char} (hold : '.' ∉ old)
    (new : List Char) : withExtension (path ++ '.' :: old) new = path ++ '.' :: new := by
  have hdrop : ((path ++ '.' :: old).reverse.dropWhile (· ≠ '.')) = '.' :: path.reverse := by
    rw [List.reverse_append, List.reverse_cons, List.append_assoc,
      List.dropWhile_append_of_pos]
    · rfl
    · intro ch hch
      rw [List.mem_reverse] at hch
      exact decide_eq_true fun heq => hold (heq ▸ hch)
  rw [withExtension, hdrop, List.tail_cons, List.reverse_reverse]

theorem makePathWith_wav (stem extension : List Char) :
    makePathWith (stem ++ '.' :: "WAV".toList) extension = artifactPath stem extension := by
  have hwav : '.' ∉ "WAV".toList := by decide
  generalize "WAV".toList = wav at hwav
  have hname : makePath (stem ++ '.' :: wav) = makePath stem ++ '.' :: wav :=
    (List.append_assoc ..).symm
  rw [makePathWith, hname, withExtension_append _ hwav]
  exact List.append_assoc ..

/-! ## What stays intact -/

/-- Every file of `old` is there as it was, and a manifest is there without its WAV only where it
was so before. -/
structure Intact (old files : Files) : Prop where
  contains : files.Contains old
  paired : ∀ stem, files (manifestOf stem) ≠ none →
    files (wavOf stem) ≠ none ∨ old (manifestOf stem) ≠ none ∧ old (wavOf stem) = none

theorem Intact.refl (files : Files) : Intact files files where
  contains := .refl files
  paired stem hmanifest := by
    by_cases hwav : files (wavOf stem) = none
    · exact .inr ⟨hmanifest, hwav⟩
    · exact .inl hwav

section
variable {old files : Files} {stem : List Char}

theorem manifestOf_ne_wavOf (stem stem' : List Char) : manifestOf stem ≠ wavOf stem' := by
  unfold manifestOf wavOf
  exact artifactPath_ne (by decide) (by decide) (by decide) stem stem'

/-- A file put where there was none, under a name that is no manifest's. -/
theorem Intact.put {path : Path} (h : Intact old files) (hnew : old path = none)
    (hpath : ∀ stem, path ≠ manifestOf stem) (bytes : List UInt8) :
    Intact old (files.put path bytes) where
  contains := h.contains.put hnew bytes
  paired stem hmanifest := by
    rw [Files.put_of_ne (hpath stem).symm] at hmanifest
    refine (h.paired stem hmanifest).imp_left fun hwav => ?_
    by_cases heq : wavOf stem = path
    · rw [heq, Files.put_self]
      exact Option.some_ne_none _
    · rwa [Files.put_of_ne heq]

theorem Intact.moveWav {source : Path} (h : Intact old files) (hold : old source = none)
    (hsource : files source ≠ none) (htarget : files (wavOf stem) = none)
    (hwav : ∀ stem, source ≠ wavOf stem) (hmanifest : ∀ stem, source ≠ manifestOf stem) :
    Intact old (files.move source (wavOf stem)) where
  contains := h.contains.move hold htarget
  paired other hthere := by
    rw [Files.move_of_ne (hmanifest other).symm (manifestOf_ne_wavOf other stem)] at hthere
    refine (h.paired other hthere).imp_left fun hother => ?_
    by_cases heq : wavOf other = wavOf stem
    · rwa [heq, Files.move_target]
    · rwa [Files.move_of_ne (hwav other).symm heq]

theorem Intact.moveManifest {source : Path} (h : Intact old files) (hold : old source = none)
    (htarget : files (manifestOf stem) = none) (hpair : files (wavOf stem) ≠ none)
    (hwav : ∀ stem, source ≠ wavOf stem) (hmanifest : ∀ stem, source ≠ manifestOf stem) :
    Intact old (files.move source (manifestOf stem)) where
  contains := h.contains.move hold htarget
  paired other hthere := by
    rw [Files.move_of_ne (hwav other).symm (manifestOf_ne_wavOf stem other).symm]
    by_cases heq : manifestOf other = manifestOf stem
    · obtain ⟨rfl, -⟩ := artifactPath_inj (by decide) (by decide) heq
      exact .inl hpair
    · rw [Files.move_of_ne (hmanifest other).symm heq] at hthere
      exact h.paired other hthere

/-- The WAV goes back where its manifest is not there, or was there without it before. -/
theorem Intact.moveBack {target : Path} (h : Intact old files) (hold : old (wavOf stem) = none)
    (htarget : files target = none) (hwav : ∀ stem, target ≠ wavOf stem)
    (hmanifest : ∀ stem, target ≠ manifestOf stem)
    (horphan : files (manifestOf stem) ≠ none →
      old (manifestOf stem) ≠ none ∧ old (wavOf stem) = none) :
    Intact old (files.move (wavOf stem) target) where
  contains := h.contains.move hold htarget
  paired other hthere := by
    rw [Files.move_of_ne (manifestOf_ne_wavOf other stem) (hmanifest other).symm] at hthere
    by_cases heq : wavOf other = wavOf stem
    · obtain ⟨rfl, -⟩ := artifactPath_inj (by decide) (by decide) heq
      exact .inr (horphan hthere)
    · rw [Files.move_of_ne heq (hwav other).symm]
      exact h.paired other hthere

end

/-! ## Calls that change no file -/

namespace Owner

variable {ε : Type} {build : Build ε} {owner after final : Owner ε}

/-- Only the handles, the mount, the cleanup's flag and the card's log have changed, and no handle
was opened. -/
structure Quiet (owner after : Owner ε) : Prop where
  same : after =
    { owner with
      card := after.card, mounted := after.mounted, isOpen := after.isOpen
      cleanupPending := after.cleanupPending }
  files : after.card.files = owner.card.files
  always : ∀ P since, owner.card.Always P since → after.card.Always P since
  closing : ∀ handle, after.isOpen handle = true → owner.isOpen handle = true

theorem Quiet.refl (owner : Owner ε) : owner.Quiet owner :=
  ⟨rfl, rfl, fun _ _ h => h, fun _ h => h⟩

theorem Quiet.trans (h : owner.Quiet after) (h' : after.Quiet final) : owner.Quiet final where
  same := by
    rw [h'.same, h.same]
  files := h'.files.trans h.files
  always P since halways := h'.always P since (h.always P since halways)
  closing handle hopen := h.closing handle (h'.closing handle hopen)

theorem quiet_call (owner : Owner ε) (call : CardCall) : owner.Quiet (owner.call call).2 :=
  ⟨rfl, rfl, fun _ _ h => h.call call, fun _ h => h⟩

theorem Quiet.setClosed (h : owner.Quiet after) (handle : Handle) :
    owner.Quiet (after.setOpen handle false) where
  same := by rw [h.same]; rfl
  files := h.files
  always := h.always
  closing other hopen := by
    by_cases heq : other = handle
    · subst heq
      simp [setOpen] at hopen
    · simp only [setOpen, Function.update_of_ne heq] at hopen
      exact h.closing other hopen

theorem quiet_close (owner : Owner ε) (handle : Handle) :
    owner.Quiet (owner.close handle).2 := by
  unfold close
  dsimp only
  split
  · split
    · exact (quiet_call owner _).setClosed handle
    · exact quiet_call owner _
  · exact .refl owner

/-- The card is released, or its cleanup is held. -/
def Settled (owner : Owner ε) : Prop :=
  (owner.cleanupPending = false ∧ owner.mounted = false ∧ ∀ handle, owner.isOpen handle = false) ∨
    owner.cleanupPending = true

/-- The cleanup's three closes. -/
def closeAll (owner : Owner ε) : Owner ε :=
  (((owner.close .payload).2.close .output).2.close .manifest).2

theorem quiet_closeAll (owner : Owner ε) : owner.Quiet owner.closeAll :=
  ((quiet_close owner _).trans (quiet_close _ _)).trans (quiet_close _ _)

theorem closeFiles_eq (owner : Owner ε) :
    owner.closeFiles =
      if owner.closeAll.isOpen .payload || owner.closeAll.isOpen .output ||
          owner.closeAll.isOpen .manifest then
        (Refusal.artifactFinalizeError, { owner.closeAll with cleanupPending := true })
      else if owner.closeAll.mounted then
        if (owner.closeAll.call .unmount).1 ≠ .ok then
          (Refusal.artifactFinalizeError,
            { (owner.closeAll.call .unmount).2 with cleanupPending := true })
        else
          (.success,
            { (owner.closeAll.call .unmount).2 with mounted := false, cleanupPending := false })
      else
        (.success, { owner.closeAll with cleanupPending := false }) := rfl

theorem Quiet.setCleanup (h : owner.Quiet after) (pending : Bool) :
    owner.Quiet { after with cleanupPending := pending } :=
  ⟨by rw [h.same], h.files, h.always, h.closing⟩

theorem Quiet.setMounted (h : owner.Quiet after) (mounted : Bool) :
    owner.Quiet { after with mounted } :=
  ⟨by rw [h.same], h.files, h.always, h.closing⟩

theorem quiet_closeFiles (owner : Owner ε) : owner.Quiet owner.closeFiles.2 := by
  have hall := quiet_closeAll owner
  have hcall := hall.trans (quiet_call owner.closeAll .unmount)
  rw [closeFiles_eq]
  split
  · exact hall.setCleanup true
  · split
    · split
      · exact hcall.setCleanup true
      · exact (hcall.setMounted false).setCleanup false
    · exact hall.setCleanup false

/-- A cleanup succeeds exactly if the card is released. -/
theorem released_closeFiles (h : owner.closeFiles.1.isOk = true) :
    owner.closeFiles.2.cleanupPending = false ∧ owner.closeFiles.2.mounted = false ∧
      ∀ handle, owner.closeFiles.2.isOpen handle = false := by
  rw [closeFiles_eq] at h ⊢
  split at h
  · cases h
  case isFalse hclosed =>
    have hall : ∀ handle, owner.closeAll.isOpen handle = false := by
      simp only [Bool.or_eq_true, not_or, Bool.not_eq_true] at hclosed
      rintro (_ | _ | _)
      · exact hclosed.1.1
      · exact hclosed.1.2
      · exact hclosed.2
    rw [if_neg hclosed]
    split at h
    case isTrue hmounted =>
      rw [if_pos hmounted]
      split at h
      · cases h
      case isFalse hunmounted =>
        rw [if_neg hunmounted]
        exact ⟨rfl, rfl, hall⟩
    case isFalse hmounted =>
      rw [if_neg hmounted]
      exact ⟨rfl, Bool.not_eq_true _ ▸ hmounted, hall⟩

theorem held_closeFiles (h : owner.closeFiles.1.isOk = false) :
    owner.closeFiles.2.cleanupPending = true ∧
      owner.closeFiles.1 = Refusal.artifactFinalizeError := by
  rw [closeFiles_eq] at h ⊢
  repeat' split
  all_goals simp_all

theorem settled_closeFiles (owner : Owner ε) : owner.closeFiles.2.Settled := by
  cases h : owner.closeFiles.1.isOk with
  | true => exact .inl (released_closeFiles h)
  | false => exact .inr (held_closeFiles h).1

/-! ## Mounting and looking -/

/-- A mount changes no file. It fails as it found the owner, or with the card settled. -/
theorem mount_spec (around : Surroundings) (owner : Owner ε) :
    owner.Quiet (owner.mount around).2 ∧
      ((owner.mount around).1.isOk = true → owner.cleanupPending = false ∧
        (owner.mount around).2.cleanupPending = false ∧ (owner.mount around).2.mounted = true ∧
          (owner.mount around).2.isOpen = owner.isOpen) ∧
      ((owner.mount around).1.isOk = false →
        (owner.mount around).2 = owner ∨ (owner.mount around).2.Settled) := by
  unfold mount
  dsimp only
  split
  · exact ⟨.refl owner, fun h => (by cases h), fun _ => .inl rfl⟩
  case isFalse hpending =>
    rw [Bool.not_eq_true] at hpending
    split
    · exact ⟨.refl owner, fun h => (by cases h), fun _ => .inl rfl⟩
    split
    case isTrue hmounted =>
      exact ⟨.refl owner, fun _ => ⟨hpending, hpending, hmounted, rfl⟩, fun _ => .inl rfl⟩
    · have hmount : owner.Quiet (call { owner with mounted := true } .mount).2 :=
        ((Quiet.refl owner).setMounted true).trans (quiet_call _ _)
      have hmkdir := hmount.trans (quiet_call _ (.mkdir "2:/WG".toList))
      have hfailed : ∀ mounted : Owner ε, owner.Quiet mounted →
          owner.Quiet mounted.mountFailed.2 ∧ mounted.mountFailed.2.Settled ∧
            mounted.mountFailed.1.isOk = false := by
        intro mounted hquiet
        refine ⟨hquiet.trans (quiet_closeFiles mounted), settled_closeFiles mounted, ?_⟩
        unfold mountFailed
        dsimp only
        split
        · rfl
        case isFalse hcleanup => exact Bool.not_eq_true _ ▸ hcleanup
      split
      · obtain ⟨hquiet, hsettled, hstatus⟩ := hfailed _ hmount
        exact ⟨hquiet, fun h => absurd h (by rw [hstatus]; exact Bool.false_ne_true),
          fun _ => .inr hsettled⟩
      split
      · obtain ⟨hquiet, hsettled, hstatus⟩ := hfailed _ hmkdir
        exact ⟨hquiet, fun h => absurd h (by rw [hstatus]; exact Bool.false_ne_true),
          fun _ => .inr hsettled⟩
      · exact ⟨hmkdir, fun _ => ⟨hpending, hpending, rfl, rfl⟩, fun h => (by cases h)⟩

theorem quiet_checkAllAbsent (owner : Owner ε) (paths : List Path) :
    owner.Quiet (owner.checkAllAbsent paths).2 ∧
      (owner.checkAllAbsent paths).2.isOpen = owner.isOpen ∧
      (owner.checkAllAbsent paths).2.cleanupPending = owner.cleanupPending := by
  induction paths generalizing owner with
  | nil => exact ⟨.refl owner, rfl, rfl⟩
  | cons path paths ih =>
    have hcall := quiet_call owner (.stat path)
    have habsent : (owner.checkAbsent path).2 = (owner.call (.stat path)).2 := by
      unfold checkAbsent
      dsimp only
      split <;> rfl
    unfold checkAllAbsent
    dsimp only
    rw [habsent]
    split
    · exact ⟨hcall, rfl, rfl⟩
    · obtain ⟨hquiet, hopen, hpending⟩ := ih (owner.call (.stat path)).2
      exact ⟨hcall.trans hquiet, hopen, hpending⟩

/-! ## Failing -/

/-- Stopping the writer changes neither the card nor what the owner has open or selected. -/
theorem stopWriter_same (owner : Owner ε) :
    owner.stopWriter build =
      { owner with
        writer := (owner.stopWriter build).writer, encoder := (owner.stopWriter build).encoder } := by
  unfold stopWriter
  split <;> rfl

/-- A failure is settled, in state `failed`, with its code unless the cleanup fails too. -/
theorem fail_spec (build : Build ε) (owner : Owner ε) (error : String) :
    (owner.fail build error).2.Settled ∧ (owner.fail build error).2.snapshot.state = .failed ∧
      (owner.fail build error).2.snapshot.error =
        (if (owner.fail build error).1.isOk then error
          else Refusal.artifactFinalizeError.message) := by
  refine ⟨settled_closeFiles (owner.stopWriter build), rfl, ?_⟩
  unfold fail
  dsimp only
  split
  · rfl
  case isFalse hfailed => rw [(held_closeFiles (Bool.not_eq_true _ ▸ hfailed)).2]

end Owner

end WaveformGenerator.Tx

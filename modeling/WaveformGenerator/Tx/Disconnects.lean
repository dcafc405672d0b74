import WaveformGenerator.Tx.Link
import WaveformGenerator.Tx.Publication

/-!
# Disconnects

What becomes of an upload whose link drops, and of a request whose link does not; then the mailbox
over whole runs.
-/

namespace WaveformGenerator.Tx

/-- How many of a pass's steps it takes to serve a request that is there. -/
def Place.untilServed : Place → Nat
  | .serving _ => 1
  | .sawRequest => 2
  | .looking => 3
  | .ready | .cleared => 4
  | _ => 5

/-- A step of the player task in its pass. -/
def TxAction.isPass : TxAction → Bool
  | .player _ => true
  | _ => false

namespace Owner

variable {ε : Type} {build : Build ε} {owner : Owner ε} {code : String}

/-- An upload's code when its link drops. -/
def dropCode (build : Build ε) (owner : Owner ε) : String :=
  if (owner.dropUpload build).cleanupPending then Refusal.artifactFinalizeError.message
  else "UPLOAD_DISCONNECTED"

theorem failedWith_dropUpload (h : owner.snapshot.state = .receiving) :
    (owner.dropUpload build).FailedWith (owner.dropCode build) := by
  unfold dropCode dropUpload
  rw [if_pos h]
  exact failedWith_fail_code build owner _

theorem FailedWith.closeFiles (h : owner.FailedWith code) : owner.closeFiles.2.FailedWith code := by
  have hsnapshot : owner.closeFiles.2.snapshot = owner.snapshot := by
    rw [(quiet_closeFiles owner).same]
  exact ⟨hsnapshot ▸ h.state, hsnapshot ▸ h.error, settled_closeFiles owner⟩

theorem FailedWith.dropUpload (h : owner.FailedWith code) :
    (owner.dropUpload build).FailedWith code := by
  unfold Owner.dropUpload
  rw [if_neg (by rw [h.state]; decide)]
  split
  · exact h.closeFiles
  · exact h

theorem FailedWith.abort (h : owner.FailedWith code) : (owner.abort build).FailedWith code := by
  unfold Owner.abort
  rw [if_neg (by rw [h.state]; decide)]
  split
  · exact h.closeFiles
  · exact h

theorem state_dropUpload : (owner.dropUpload build).snapshot.state ≠ .receiving := by
  by_cases h : owner.snapshot.state = .receiving
  · rw [(failedWith_dropUpload h).state]
    decide
  · unfold dropUpload
    rw [if_neg h]
    split
    · rwa [(quiet_closeFiles owner).same]
    · exact h

theorem state_abort : (owner.abort build).snapshot.state ≠ .receiving := by
  unfold abort
  split
  · rw [(failedWith_fail_code build owner "ABORTED").state]
    decide
  case isFalse hstate =>
    rw [Bool.or_eq_true, not_or] at hstate
    have hreceiving : owner.snapshot.state ≠ .receiving := by simpa using hstate.1
    split
    · rwa [(quiet_closeFiles owner).same]
    · exact hreceiving

theorem state_continueGeneration (h : owner.snapshot.state = .generating) :
    (owner.continueGeneration build).snapshot.state ≠ .receiving := by
  cases hwriter : owner.writer with
  | none =>
    unfold continueGeneration
    rw [hwriter, h]
    decide
  | some generator =>
    cases hencoder : owner.encoder with
    | none =>
      unfold continueGeneration
      rw [hwriter, hencoder, h]
      decide
    | some encoder =>
      have hgoes : GoesOn (owner.continueGeneration build) _ :=
        goesOn_continueGeneration h hwriter hencoder
      unfold GoesOn at hgoes
      split at hgoes
      · rw [hgoes.state]
        decide
      · rcases hgoes with hcomplete | hfailed
        · rw [hcomplete]
          decide
        · rw [hfailed.state]
          decide
      · rw [hgoes]
        decide

end Owner

namespace TxSystem

variable {ε : Type} {build : Build ε} {s : TxSystem ε} {found : Owner ε}

/-! ## The upload -/

/-- Since a pass cleared the flags for a drop, with the owner as it was found: the upload is still
to be dropped, or it has been and nothing has been served since. -/
def Dropping (build : Build ε) (found : Owner ε) (s : TxSystem ε) : Prop :=
  s.place = .cleared ∧ s.owner = found ∨
    s.owner.snapshot.state ≠ .receiving ∧
      (found.snapshot.state = .receiving → s.owner.FailedWith (found.dropCode build))

theorem dropping_step (h : Dropping build found s) (action : TxAction)
    (hserved : ∀ request reply, .served request reply ∉ (s.step build action).2) :
    Dropping build found (s.step build action).1 := by
  have husb : action.isUsb = true → Dropping build found (s.step build action).1 := by
    intro husb
    obtain ⟨howner, hplace⟩ : (s.step build action).1.owner = s.owner ∧
      (s.step build action).1.place = s.place := pass_step husb
    unfold Dropping
    rw [howner, hplace]
    exact h
  cases action with
  | activate | receive | submit | take | linkState | submitLine | takeLine | disconnect =>
    exact husb rfl
  | abort =>
    show Dropping build found (if s.place = .ready then _ else s)
    split
    case isTrue hready =>
      rcases h with ⟨hcleared, -⟩ | ⟨-, hfailed⟩
      · rw [hready] at hcleared
        cases hcleared
      · exact .inr ⟨Owner.state_abort, fun hfound => (hfailed hfound).abort⟩
    · exact h
  | player around =>
    change ∀ request reply, .served request reply ∉ (s.servicePass build around).2 at hserved
    show Dropping build found (s.servicePass build around).1
    unfold servicePass at hserved ⊢
    split
    case h_3 =>
      rcases h with ⟨-, howner⟩ | ⟨-, hfailed⟩
      · refine .inr ⟨Owner.state_dropUpload, fun hfound => ?_⟩
        subst howner
        exact Owner.failedWith_dropUpload hfound
      · exact .inr ⟨Owner.state_dropUpload, fun hfound => (hfailed hfound).dropUpload⟩
    case h_6 request hserving =>
      rw [hserving] at hserved
      exact absurd (List.mem_singleton.mpr rfl) (hserved request _)
    case h_8 hfinishing =>
      rcases h with ⟨hcleared, -⟩ | ⟨hstate, hfailed⟩
      · rw [hfinishing] at hcleared
        cases hcleared
      · dsimp only
        split
        case isTrue hgenerating =>
          refine .inr ⟨Owner.state_continueGeneration hgenerating, fun hfound => ?_⟩
          rw [(hfailed hfound).state] at hgenerating
          cases hgenerating
        · exact .inr ⟨hstate, hfailed⟩
    all_goals
      rcases h with ⟨hcleared, -⟩ | hdropped
      · simp_all
      · exact .inr hdropped

theorem dropping_run (h : Dropping build found s) (actions : List TxAction)
    (hserved : ∀ request reply, .served request reply ∉ (s.run build actions).2) :
    Dropping build found (s.run build actions).1 := by
  induction actions generalizing s with
  | nil => exact h
  | cons action actions ih =>
    rw [run_cons] at hserved ⊢
    simp only [List.mem_append, not_or] at hserved
    exact ih (dropping_step h action fun request reply => (hserved request reply).1)
      fun request reply => (hserved request reply).2

/-! ## The reply -/

theorem events_cases (build : Build ε) (s : TxSystem ε) (action : TxAction) :
    (s.step build action).2 = [] ∨ ∃ event, (s.step build action).2 = [event] := by
  have hlength : (s.step build action).2.length ≤ 1 := (events_step action).1
  cases hevents : (s.step build action).2 with
  | nil => exact .inl rfl
  | cons event rest =>
    rw [hevents, List.length_cons] at hlength
    exact .inr ⟨event, congrArg _ (List.length_eq_zero_iff.mp (by omega))⟩

/-- A pass goes on towards a request that awaits it. -/
theorem untilServed_step {request : Request} (htied : s.Tied (.asked request))
    {action : TxAction} (hnil : (s.step build action).2 = []) :
    (s.step build action).1.place.untilServed + (if action.isPass then 1 else 0) ≤
      s.place.untilServed := by
  have husb : action.isUsb = true →
      (s.step build action).1.place.untilServed ≤ s.place.untilServed := by
    intro husb
    rw [(pass_step husb).2]
  cases action with
  | activate | receive | submit | take | linkState | submitLine | takeLine | disconnect =>
    exact husb rfl
  | abort =>
    show (if s.place = .ready then _ else s : TxSystem ε).place.untilServed ≤ _
    split <;> exact Nat.le_refl _
  | player around =>
    change (s.servicePass build around).2 = [] at hnil
    show (s.servicePass build around).1.place.untilServed + 1 ≤ _
    unfold servicePass at hnil ⊢
    split
    case h_1 hready =>
      rw [hready, htied.1]
      exact Nat.le_refl 4
    case h_2 hsaw =>
      rw [hsaw] at hnil
      cases hnil
    case h_3 hcleared =>
      rw [hcleared]
      exact Nat.le_refl 4
    case h_4 hlooking =>
      rcases htied.2.2.2 with ⟨hpending, -⟩ | ⟨-, hserving⟩
      · rw [hlooking, hpending]
        exact Nat.le_refl 3
      · rw [hlooking] at hserving
        cases hserving
    case h_5 hsaw =>
      rw [hsaw]
      exact Nat.le_refl _
    case h_6 request hserving =>
      rw [hserving] at hnil
      cases hnil
    case h_7 served hreplying =>
      rcases htied.2.2.2 with ⟨-, -, hidle | hsaw⟩ | ⟨-, hserving⟩
      · rw [hreplying] at hidle
        cases hidle
      · rw [hreplying] at hsaw
        cases hsaw
      · rw [hreplying] at hserving
        cases hserving
    case h_8 hfinishing =>
      rw [hfinishing]
      exact Nat.le_refl 5

/-- While its link does not drop, a request waits for a pass to come to it, or is served. -/
theorem asked_step (husable : s.Usable) {request : Request} (htied : s.Tied (.asked request))
    {action : TxAction} (hdrop : .dropped ∉ (s.step build action).2) :
    (s.step build action).2 = [] ∧ (s.step build action).1.Tied (.asked request) ∨
      ∃ reply, (s.step build action).2 = [.served request reply] ∧
        (s.step build action).1.Tied (.answered reply) := by
  have hstep : Follows (.asked request) (s.step build action) := follows_step husable htied action
  obtain ⟨after, hafter, -, htied'⟩ := hstep
  rcases events_cases build s action with hnil | ⟨event, hone⟩
  · rw [hnil] at hafter
    cases hafter
    exact .inl ⟨hnil, htied'⟩
  · rw [hone] at hafter hdrop ⊢
    rcases Link.follow_asked hafter with hempty | ⟨rest, hdropped⟩ | ⟨reply, rest, hserved, hrest⟩
    · cases hempty
    · rw [hdropped] at hdrop
      exact absurd List.mem_cons_self hdrop
    · cases hserved
      cases hrest
      exact .inr ⟨reply, rfl, htied'⟩

/-- A reply stays until it is taken, and a pass puts it in its slot. -/
theorem answered_step (husable : s.Usable) {reply : Reply} (htied : s.Tied (.answered reply))
    {action : TxAction} (hdrop : .dropped ∉ (s.step build action).2) :
    (s.step build action).2 = [] ∧ (s.step build action).1.Tied (.answered reply) ∧
        (s.place.isIdle = true ∨ action.isPass = true →
          (s.step build action).1.place.isIdle = true) ∨
      (s.step build action).2 = [.took reply] := by
  have hstep : Follows (.answered reply) (s.step build action) := follows_step husable htied action
  obtain ⟨after, hafter, -, htied'⟩ := hstep
  rcases events_cases build s action with hnil | ⟨event, hone⟩
  · rw [hnil] at hafter
    cases hafter
    refine .inl ⟨hnil, htied', ?_⟩
    have husb : action.isUsb = true → (s.step build action).1.place = s.place :=
      fun husb => (pass_step husb).2
    cases action with
    | activate | receive | submit | take | linkState | submitLine | takeLine | disconnect =>
      rw [husb rfl]
      exact fun hidle => hidle.resolve_right Bool.false_ne_true
    | abort =>
      refine fun hidle => ?_
      show (if s.place = .ready then _ else s : TxSystem ε).place.isIdle = true
      split <;> exact hidle.resolve_right Bool.false_ne_true
    | player around =>
      refine fun _ => ?_
      rcases htied.2.2.2 with ⟨served, hreplying, -⟩ | ⟨-, -, hidle⟩
      · show (s.servicePass build around).1.place.isIdle = true
        unfold servicePass
        rw [hreplying]
        rfl
      · have hdisconnected := htied.1
        have hpending := htied.2.2.1
        show (s.servicePass build around).1.place.isIdle = true
        unfold servicePass
        split <;> simp_all [Place.isIdle]
  · rw [hone] at hafter hdrop ⊢
    rcases Link.follow_answered hafter with hempty | ⟨rest, hdropped⟩ | ⟨rest, htook⟩
    · cases hempty
    · rw [hdropped] at hdrop
      exact absurd List.mem_cons_self hdrop
    · cases htook
      exact .inr rfl

/-- Whichever way the request came, its reply is there to be taken. -/
theorem took_of_ready (husable : s.Usable) {reply : Reply} (htied : s.Tied (.answered reply))
    (hidle : s.place.isIdle = true) :
    ∃ later, (s.run build [.take, .takeLine]).2 = .took reply :: later := by
  have htake : s.takeTxReply = (some reply, { s with responsePending := false }) := by
    rcases htied.2.2.2 with ⟨served, hreplying, -⟩ | ⟨hpending, hslot, -⟩
    · rw [hreplying] at hidle
      cases hidle
    · rw [takeTxReply, hpending, hslot]
      rfl
  cases hsubmitted : s.usb.requestSubmitted with
  | true =>
    obtain ⟨hpending, hactive⟩ := husable.submitted hsubmitted
    have hfirst : s.takeSubmitted.2 = [.took reply] := by
      unfold takeSubmitted
      rw [hactive, hpending, hsubmitted, htake]
      rfl
    rw [run_cons]
    exact ⟨_, congrArg (· ++ _) hfirst⟩
  | false =>
    have hwaiting : s.replyWaiting = true := by
      have hasking := htied.2.1
      rwa [asking, hsubmitted, Bool.false_or] at hasking
    have hactive : s.usb.active = false := by
      by_contra hnot
      rw [husable.one (by simpa using hnot)] at hwaiting
      cases hwaiting
    have hfirst : s.takeSubmitted = (s, []) := by
      unfold takeSubmitted
      rw [hactive]
      rfl
    have hsecond : s.takeLine.2 = [.took reply] := by
      unfold takeLine
      rw [hactive, hwaiting, htake]
      rfl
    rw [run_cons]
    show ∃ later, s.takeSubmitted.2 ++ (s.takeSubmitted.1.run build [.takeLine]).2 = _
    rw [hfirst]
    exact ⟨[], congrArg (· ++ []) hsecond⟩

theorem took_of_pass (husable : s.Usable) {reply : Reply} (htied : s.Tied (.answered reply))
    (during : List TxAction) (hdrop : .dropped ∉ (s.run build during).2)
    (hpass : s.place.isIdle = true ∨ 0 < during.countP TxAction.isPass) :
    ∃ later, (s.run build (during ++ [.take, .takeLine])).2 = .took reply :: later := by
  induction during generalizing s with
  | nil => exact took_of_ready husable htied (hpass.resolve_right (Nat.lt_irrefl 0))
  | cons action during ih =>
    rw [run_cons] at hdrop
    simp only [List.mem_append, not_or] at hdrop
    rw [List.cons_append, run_cons]
    obtain ⟨-, -, husable', -⟩ : Follows (.answered reply) (s.step build action) :=
      follows_step husable htied action
    rcases answered_step husable htied hdrop.1 with ⟨hnil, htied', hidle⟩ | htook
    · rw [hnil, List.nil_append]
      refine ih husable' htied' hdrop.2 ?_
      rw [List.countP_cons] at hpass
      by_cases hplayer : action.isPass = true
      · exact .inl (hidle (.inr hplayer))
      · rw [if_neg hplayer, Nat.add_zero] at hpass
        exact hpass.imp_left fun h => hidle (.inl h)
    · rw [htook]
      exact ⟨_, rfl⟩

/-- A request on a link that does not drop is served and answered, given passes enough. -/
theorem served_of_passes (husable : s.Usable) {request : Request}
    (htied : s.Tied (.asked request)) (during : List TxAction)
    (hdrop : .dropped ∉ (s.run build during).2)
    (hpasses : s.place.untilServed < during.countP TxAction.isPass) :
    ∃ reply later, (s.run build (during ++ [.take, .takeLine])).2 =
      .served request reply :: .took reply :: later := by
  induction during generalizing s with
  | nil => exact absurd hpasses (Nat.not_lt_zero _)
  | cons action during ih =>
    rw [run_cons] at hdrop
    simp only [List.mem_append, not_or] at hdrop
    rw [List.cons_append, run_cons]
    obtain ⟨-, -, husable', -⟩ : Follows (.asked request) (s.step build action) :=
      follows_step husable htied action
    rw [List.countP_cons] at hpasses
    rcases asked_step husable htied hdrop.1 with ⟨hnil, htied'⟩ | ⟨reply, hserved, htied'⟩
    · have huntil := untilServed_step htied hnil
      rw [hnil, List.nil_append]
      exact ih husable' htied' hdrop.2 (by omega)
    · have hpositive : 0 < s.place.untilServed := by
        cases s.place <;> exact Nat.succ_pos _
      have hlater : 0 < during.countP TxAction.isPass := by
        split at hpasses <;> omega
      obtain ⟨later, htook⟩ := took_of_pass husable' htied' during hdrop.2 (.inr hlater)
      rw [hserved, htook]
      exact ⟨reply, later, rfl⟩

/-! ## Runs -/

theorem untilServed_le (place : Place) : place.untilServed ≤ 5 := by
  cases place <;> simp [Place.untilServed]

/-- An event of a run is that of one of its steps. -/
theorem exists_step_of_run {actions : List TxAction} {earlier later : List TxEvent}
    {event : TxEvent} (h : (s.run build actions).2 = earlier ++ event :: later) :
    ∃ before action after, actions = before ++ action :: after ∧
      event ∈ ((s.run build before).1.step build action).2 ∧
      (((s.run build before).1.step build action).1.run build after).2 = later := by
  induction actions generalizing s earlier with
  | nil =>
    have hnil : [] = earlier ++ event :: later := h
    cases earlier <;> cases hnil
  | cons action actions ih =>
    rw [run_cons] at h
    rcases events_cases build s action with hnil | ⟨first, hone⟩
    · rw [hnil, List.nil_append] at h
      obtain ⟨before, found, after, rfl, hevent, hlater⟩ := ih h
      exact ⟨action :: before, found, after, rfl, hevent, hlater⟩
    · rw [hone, List.singleton_append] at h
      cases earlier with
      | nil =>
        cases h
        exact ⟨[], action, actions, rfl, hone ▸ List.mem_cons_self, rfl⟩
      | cons head earlier =>
        obtain ⟨-, h⟩ := List.cons.inj h
        obtain ⟨before, found, after, rfl, hevent, hlater⟩ := ih h
        exact ⟨action :: before, found, after, rfl, hevent, hlater⟩

theorem place_of_cleared {action : TxAction} (h : .cleared ∈ (s.step build action).2) :
    (s.step build action).1.place = .cleared := by
  cases action with
  | player around =>
    change .cleared ∈ (s.servicePass build around).2 at h
    show (s.servicePass build around).1.place = .cleared
    unfold servicePass at h ⊢
    split
    case h_2 => rfl
    all_goals simp_all
  | submit =>
    change .cleared ∈ s.submitPending.2 at h
    unfold submitPending tell at h
    dsimp only at h
    split at h
    · split at h <;> simp at h
    · cases h
  | submitLine request =>
    change .cleared ∈ (s.submitLine request).2 at h
    unfold submitLine tell at h
    dsimp only at h
    split at h
    · cases h
    · split at h <;> simp at h
  | take =>
    change .cleared ∈ s.takeSubmitted.2 at h
    unfold takeSubmitted at h
    repeat' split at h
    all_goals simp at h
  | takeLine =>
    change .cleared ∈ s.takeLine.2 at h
    unfold takeLine at h
    repeat' split at h
    all_goals simp at h
  | linkState established =>
    change .cleared ∈ (s.linkState established).2 at h
    unfold linkState at h
    dsimp only at h
    split at h
    · split at h <;> simp at h
    · cases h
  | disconnect =>
    change .cleared ∈ s.portClosed.2 at h
    unfold portClosed at h
    split at h <;> simp at h
  | activate | receive | abort => cases h

theorem Dropping.not_receiving (h : Dropping build found s) (hplace : s.place ≠ .cleared) :
    s.owner.snapshot.state ≠ .receiving ∧
      (found.snapshot.state = .receiving → s.owner.FailedWith (found.dropCode build)) :=
  h.resolve_left fun hcleared => hplace hcleared.1

theorem follows_initial (build : Build ε) (owner : Owner ε) (actions : List TxAction) :
    Follows .free (({ owner } : TxSystem ε).run build actions) := by
  have husable : ({ owner } : TxSystem ε).Usable :=
    ⟨fun h => (by cases h), fun h => (by cases h)⟩
  have htied : ({ owner } : TxSystem ε).Tied .free := ⟨rfl, rfl, rfl, rfl, rfl⟩
  exact follows_run husable htied actions

/-- The mailbox over any run, whatever the owner's card answers. After the clearing of a drop no
submission finds the mailbox disconnected, and no request finds an upload that was open; a request
accepted is answered, where its link does not drop and the passes go on. -/
theorem run_orderly (build : Build ε) (owner : Owner ε) (actions : List TxAction) :
    let final := ({ owner } : TxSystem ε).run build actions
    Orderly final.2 ∧
      (∀ earlier later, final.2 = earlier ++ .cleared :: later → .dropped ∉ later →
        final.1.disconnected = false) ∧
      (∀ earlier later, final.2 = earlier ++ .cleared :: later →
        (∀ request reply, .served request reply ∉ later) → final.1.place ≠ .cleared →
          final.1.owner.snapshot.state ≠ .receiving) ∧
      ∀ before during, actions = before ++ during →
        let found := ({ owner } : TxSystem ε).run build before
        (found.1.place = .cleared → found.1.owner.snapshot.state = .receiving →
          (∀ request reply, .served request reply ∉ (found.1.run build during).2) →
            final.1.place ≠ .cleared →
              final.1.owner.FailedWith (found.1.owner.dropCode build)) ∧
          ∀ earlier request, found.2 = earlier ++ [.accepted request] →
            .dropped ∉ (found.1.run build during).2 → 6 ≤ during.countP TxAction.isPass →
              ∃ reply later, (found.1.run build (during ++ [.take, .takeLine])).2 =
                .served request reply :: .took reply :: later := by
  intro final
  obtain ⟨last, hfollow, -, htied⟩ := follows_initial build owner actions
  refine ⟨Link.orderly_of_follow hfollow, ?_, ?_, ?_⟩
  · intro earlier later hevents hdrop
    obtain ⟨before, after, -, hcleared, hlater⟩ := Link.split_follow (hevents ▸ hfollow)
    refine htied.connected (Link.ne_dropped_of_follow ?_ hdrop hlater)
    cases before <;> cases hcleared
    exact Link.noConfusion
  · intro earlier later hevents hserved hplace
    obtain ⟨before, action, after, rfl, hevent, rfl⟩ := exists_step_of_run hevents
    have hcleared := place_of_cleared hevent
    have hdropping := dropping_run (.inl ⟨hcleared, rfl⟩) after hserved
    have hfinal : final.1 =
        (((({ owner } : TxSystem ε).run build before).1.step build action).1.run build after).1 := by
      show (TxSystem.run build _ _).1 = _
      rw [run_append, run_cons]
    rw [hfinal] at hplace ⊢
    exact (hdropping.not_receiving hplace).1
  · rintro before during rfl
    intro found
    have hfinal : final.1 = (found.1.run build during).1 := by
      show (TxSystem.run build _ _).1 = _
      rw [run_append]
    refine ⟨fun hcleared hreceiving hserved hplace => ?_, fun earlier request hevents hdrop hpasses => ?_⟩
    · rw [hfinal] at hplace ⊢
      exact ((dropping_run (.inl ⟨hcleared, rfl⟩) during hserved).not_receiving hplace).2 hreceiving
    · obtain ⟨link, hfollow, husable, htied⟩ := follows_initial build owner before
      obtain ⟨link', after, -, haccepted, hlater⟩ := Link.split_follow (hevents ▸ hfollow)
      cases link' <;> cases haccepted
      cases hlater
      exact served_of_passes husable htied during hdrop
        (Nat.lt_of_le_of_lt (untilServed_le _) hpasses)

/-- A build of one encoder, of a frame and the silence behind it. -/
def oneEncoder : Build Nat where
  findEncoder _ := some { id := "", version := "", construct := some 1 }
  source := Source.Job.byteAdapters.source
  sha256Hex _ := ""
  buildId := ""

/-- An empty card that takes an upload of one byte and the start of a generation. -/
def emptyCard : TxSystem Nat where
  owner :=
    { card :=
        { files := fun _ => none
          answers := fun call =>
            ⟨if 4 ≤ call && call < 8 then .noFile else .ok,
              if call < 4 then 1 else if call < 13 then 44 else 6144⟩ }
      payload := { answers := fun _ => ⟨.ok, 1⟩ } }

/-- An upload, and a SEND that a pass has in hand. -/
def uploadAndSend : List TxAction :=
  [.activate, .receive { kind := .data, data := [1] }, .submit] ++ List.replicate 6 (.player {}) ++
    [.take, .receive { kind := .send }, .submit] ++ List.replicate 3 (.player {})

/-- The link drops and its SEND is served; then the next link's first request. -/
def dropAndAsk : List TxAction :=
  [.disconnect] ++ List.replicate 5 (.player {}) ++
    [.activate, .receive { kind := .info }, .submit] ++ List.replicate 4 (.player {})

/-- The upload is open when its link drops, and the next link's first request finds it generated
from. -/
theorem dropped_upload_generates :
    let before := emptyCard.run oneEncoder uploadAndSend
    let after := before.1.run oneEncoder dropAndAsk
    before.1.owner.snapshot.state = .receiving ∧ before.1.owner.isOpen .payload = true ∧
      after.2 = [.dropped,
        .served { kind := .send } { ok := true, payloadBytes := 1, generating := true },
        .cleared, .accepted { kind := .info },
        .served { kind := .info }
          { ok := true, payloadBytes := 1, frames := 2048, generating := true }] ∧
      after.1.owner.snapshot.state = .generating := by
  decide +kernel

end TxSystem

end WaveformGenerator.Tx

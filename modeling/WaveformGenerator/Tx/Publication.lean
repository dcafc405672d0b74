import WaveformGenerator.Tx.Generation
import WaveformGenerator.Tx.Mailbox

/-!
# Publication over whole runs

Whatever the card answers, and however requests, drops and passes follow one another: complete
means both files in place, no manifest comes without its WAV, nothing that was there is lost, and a
failure leaves the card released or its cleanup held.
-/

namespace WaveformGenerator.Tx

open Source (WavGenerator)

/-- The files of the handles that are open, in the order the cleanup takes them. -/
def Owner.openFiles {ε : Type} (owner : Owner ε) : List Path :=
  ([Handle.payload, .output, .manifest].filter owner.isOpen).map owner.pathOf

namespace Owner

variable {ε : Type} {build : Build ε} {asked : Start ε → Prop} {owner : Owner ε} {old : Files}
  {since : Nat}

/-! ## Failures -/

/-- A request that gets past its checks to what can fail, or aborts a transaction. -/
def Begun (around : Surroundings) (owner : Owner ε) (request : Request) : Prop :=
  match request.kind with
  | .reset => owner.snapshot.state = .receiving ∨ owner.snapshot.state = .generating
  | .data => owner.cleanupPending = false ∧ around.playerBusy = false ∧
      (owner.snapshot.state = .idle ∨ owner.snapshot.state = .receiving) ∧
      0 < request.data.length ∧ request.data.length ≤ maximumPayload ∧
      request.data.length ≤ maximumUploadBytes - owner.snapshot.payloadBytes ∧
      (owner.mount around).1.isOk = true
  | .send => owner.cleanupPending = false ∧ around.playerBusy = false ∧
      owner.snapshot.state = .receiving
  | .generateFile => owner.cleanupPending = false ∧ around.playerBusy = false ∧
      owner.snapshot.state ≠ .receiving ∧ owner.snapshot.state ≠ .generating ∧
      validFilename request.name "WAV".toList = true ∧
      validFilename request.inputName "BIN".toList = true ∧ owner.closeFiles.1.isOk = true
  | _ => False

/-- How a transaction fails: with its code, the card released or its cleanup held. -/
structure FailedWith (owner : Owner ε) (code : String) : Prop where
  state : owner.snapshot.state = .failed
  error : owner.snapshot.error = code
  settled : owner.Settled

/-- How a request is refused: the snapshot stays, and the card too or settled. -/
structure RefusedFrom (owner after : Owner ε) : Prop where
  snapshot : after.snapshot = owner.snapshot
  card : after.isOpen = owner.isOpen ∧ after.mounted = owner.mounted ∧
    after.cleanupPending = owner.cleanupPending ∨ after.Settled

theorem RefusedFrom.refl (owner : Owner ε) : RefusedFrom owner owner :=
  ⟨rfl, .inl ⟨rfl, rfl, rfl⟩⟩

theorem refused_closeFiles (owner : Owner ε) : RefusedFrom owner owner.closeFiles.2 where
  snapshot := by rw [(quiet_closeFiles owner).same]
  card := .inr (settled_closeFiles owner)

theorem failedWith_fail (build : Build ε) (owner : Owner ε) (error : String) :
    (owner.fail build error).2.FailedWith
      (if (owner.fail build error).1.isOk then error
        else Refusal.artifactFinalizeError.message) :=
  let ⟨hsettled, hstate, herror⟩ := fail_spec build owner error
  ⟨hstate, herror, hsettled⟩

/-- The code is the failure's own, unless the cleanup is held. -/
theorem failedWith_fail_code (build : Build ε) (owner : Owner ε) (error : String) :
    (owner.fail build error).2.FailedWith
      (if (owner.fail build error).2.cleanupPending then Refusal.artifactFinalizeError.message
        else error) := by
  have hfail := failedWith_fail build owner error
  cases hok : (owner.fail build error).1.isOk with
  | true =>
    have hreleased : (owner.fail build error).2.cleanupPending = false :=
      (released_closeFiles hok).1
    rw [hok] at hfail
    rw [hreleased]
    exact hfail
  | false =>
    have hheld : (owner.fail build error).2.cleanupPending = true := (held_closeFiles hok).1
    rw [hok] at hfail
    rw [hheld]
    exact hfail

/-- A failed transaction replies with the code its snapshot keeps. -/
theorem failedWith_failedTransaction {failure : Status}
    (h : (owner.failedTransaction build failure).1.isOk = false) :
    (owner.failedTransaction build failure).2.FailedWith
      (owner.failedTransaction build failure).1.message := by
  have hfail := failedWith_fail build owner failure.message
  unfold failedTransaction at h ⊢
  dsimp only at h ⊢
  split
  · split
    case isTrue hcleanup =>
      rw [Bool.not_eq_true'] at hcleanup
      have hheld : (owner.fail build failure.message).1 = Refusal.artifactFinalizeError :=
        (held_closeFiles hcleanup).2
      rw [hcleanup] at hfail
      rw [hheld]
      exact hfail
    case isFalse hcleanup =>
      rw [Bool.not_eq_true, Bool.not_eq_false'] at hcleanup
      rw [hcleanup] at hfail
      exact hfail
  case isFalse hok =>
    rw [if_neg hok] at h
    rw [h] at hok
    exact absurd rfl hok

theorem failed_appendPayload {request : Request}
    (h : (owner.appendPayload build request).1.isOk = false) :
    (owner.appendPayload build request).2.FailedWith
      (owner.appendPayload build request).1.message := by
  unfold appendPayload at h ⊢
  dsimp only at h ⊢
  split
  case isTrue hopened =>
    rw [if_pos hopened] at h
    exact failedWith_failedTransaction h
  case isFalse hopened =>
    rw [if_neg hopened] at h
    split
    case isTrue hwritten =>
      rw [if_pos hwritten] at h
      exact failedWith_failedTransaction h
    case isFalse hwritten =>
      rw [if_neg hwritten] at h
      cases h

/-- A failed request: with its code if it had begun, and otherwise only refused. -/
def Fails (owner : Owner ε) (begun : Prop) (outcome : Status × Owner ε) : Prop :=
  outcome.1.isOk = false →
    (begun → outcome.2.FailedWith outcome.1.message) ∧ (¬begun → RefusedFrom owner outcome.2)

theorem fails_refused {begun : Prop} {after : Owner ε} {status : Status} (hnot : ¬begun)
    (h : RefusedFrom owner after) : Fails owner begun (status, after) :=
  fun _ => ⟨fun hbegun => absurd hbegun hnot, fun _ => h⟩

theorem fails_begun {begun : Prop} {outcome : Status × Owner ε} (hbegun : begun)
    (h : outcome.1.isOk = false → outcome.2.FailedWith outcome.1.message) :
    Fails owner begun outcome :=
  fun hstatus => ⟨fun _ => h hstatus, fun hnot => absurd hbegun hnot⟩

theorem fails_serveReset {request : Request} (hkind : request.kind = .reset)
    (around : Surroundings) :
    Fails owner (Begun around owner request) (owner.serveReset build) := by
  have hbegun : Begun around owner request ↔
      (owner.snapshot.state = .receiving || owner.snapshot.state = .generating) = true := by
    simp [Begun, hkind]
  rw [hbegun]
  unfold serveReset
  dsimp only
  split
  case isTrue hstate =>
    refine fails_begun hstate fun hstatus => ?_
    have hfail := failedWith_fail build owner "ABORTED"
    split
    case isTrue hcleanup =>
      rw [Bool.not_eq_true'] at hcleanup
      have hheld : (owner.fail build "ABORTED").1 = Refusal.artifactFinalizeError :=
        (held_closeFiles hcleanup).2
      rw [hcleanup] at hfail
      rw [hheld]
      exact hfail
    case isFalse hcleanup =>
      rw [if_neg hcleanup] at hstatus
      cases hstatus
  case isFalse hstate =>
    split
    · exact fails_refused hstate (refused_closeFiles owner)
    · exact fun hstatus => nomatch hstatus

theorem fails_serveSelect {request : Request} (hkind : request.kind = .select)
    (around : Surroundings) :
    Fails owner (Begun around owner request) (owner.serveSelect request) := by
  have hbegun : ¬Begun around owner request := by simp [Begun, hkind]
  unfold serveSelect
  dsimp only
  split
  · exact fails_refused hbegun (.refl owner)
  split
  · exact fails_refused hbegun (.refl owner)
  split
  · exact fails_refused hbegun (refused_closeFiles owner)
  · exact fun hstatus => nomatch hstatus

theorem refused_mount {around : Surroundings} (h : (owner.mount around).1.isOk = false) :
    RefusedFrom owner (owner.mount around).2 := by
  obtain ⟨hquiet, -, hfailed⟩ := mount_spec around owner
  refine ⟨by rw [hquiet.same], (hfailed h).imp_left fun hsame => ?_⟩
  rw [hsame]
  exact ⟨rfl, rfl, rfl⟩

theorem fails_serveData {request : Request} {around : Surroundings} (hkind : request.kind = .data)
    (hclean : owner.cleanupPending = false) (hidle : around.playerBusy = false) :
    Fails owner (Begun around owner request) (owner.serveData build around request) := by
  unfold serveData
  dsimp only
  split
  case isTrue hstate =>
    refine fails_refused (fun hbegun => ?_) (.refl owner)
    simp only [Begun, hkind] at hbegun
    simp only [Bool.and_eq_true, decide_eq_true_eq] at hstate
    exact hbegun.2.2.1.elim hstate.1 hstate.2
  case isFalse hstate =>
    split
    case isTrue hsize =>
      refine fails_refused (fun hbegun => ?_) (.refl owner)
      simp only [Begun, hkind] at hbegun
      simp only [Bool.or_eq_true, decide_eq_true_eq] at hsize
      omega
    case isFalse hsize =>
      split
      case isTrue hmount =>
        rw [Bool.not_eq_true'] at hmount
        refine fails_refused (fun hbegun => ?_) (refused_mount hmount)
        simp only [Begun, hkind, hmount] at hbegun
        exact absurd hbegun.2.2.2.2.2.2 Bool.false_ne_true
      case isFalse hmount =>
        rw [Bool.not_eq_true, Bool.not_eq_false'] at hmount
        refine fails_begun ?_ failed_appendPayload
        simp only [Bool.and_eq_true, decide_eq_true_eq, not_and, Decidable.not_not, ne_eq] at hstate
        simp only [Bool.or_eq_true, decide_eq_true_eq, not_or] at hsize
        simp only [Begun, hkind]
        refine ⟨hclean, hidle, ?_, by omega, by omega, by omega, hmount⟩
        by_cases h : owner.snapshot.state = .idle
        · exact .inl h
        · exact .inr (hstate h)

theorem fails_serveSend {request : Request} {around : Surroundings} (hkind : request.kind = .send)
    (hclean : owner.cleanupPending = false) (hidle : around.playerBusy = false) :
    Fails owner (Begun around owner request) (owner.serveSend build around) := by
  unfold serveSend
  dsimp only
  split
  case isTrue hstate =>
    refine fails_refused (fun hbegun => ?_) (.refl owner)
    simp only [Begun, hkind] at hbegun
    exact hstate hbegun.2.2
  case isFalse hstate =>
    rw [ne_eq, Decidable.not_not] at hstate
    refine fails_begun ?_ failedWith_failedTransaction
    simp only [Begun, hkind]
    exact ⟨hclean, hidle, hstate⟩

theorem fails_serveGenerate {request : Request} {around : Surroundings}
    (hkind : request.kind = .generateFile) (hclean : owner.cleanupPending = false)
    (hidle : around.playerBusy = false) (hgenerating : owner.snapshot.state ≠ .generating) :
    Fails owner (Begun around owner request) (owner.serveGenerate build around request) := by
  unfold serveGenerate
  dsimp only
  split
  case isTrue hstate =>
    refine fails_refused (fun hbegun => ?_) (.refl owner)
    simp only [Begun, hkind] at hbegun
    exact hbegun.2.2.1 hstate
  case isFalse hstate =>
    split
    case isTrue hnames =>
      refine fails_refused (fun hbegun => ?_) (.refl owner)
      simp only [Begun, hkind] at hbegun
      obtain ⟨-, -, -, -, hname, hinput, -⟩ := hbegun
      rw [hname, hinput] at hnames
      cases hnames
    case isFalse hnames =>
      simp only [Bool.or_eq_true, Bool.not_eq_true', not_or, Bool.not_eq_false] at hnames
      split
      case isTrue hcleanup =>
        rw [Bool.not_eq_true'] at hcleanup
        refine fails_refused (fun hbegun => ?_) (refused_closeFiles owner)
        simp only [Begun, hkind, hcleanup] at hbegun
        exact absurd hbegun.2.2.2.2.2.2 Bool.false_ne_true
      case isFalse hcleanup =>
        rw [Bool.not_eq_true, Bool.not_eq_false'] at hcleanup
        refine fails_begun ?_ failedWith_failedTransaction
        simp only [Begun, hkind]
        exact ⟨hclean, hidle, hstate, hgenerating, hnames.1, hnames.2, hcleanup⟩

/-- A request that fails past its checks fails its transaction with the code it replies; any other
error reply leaves the snapshot, and the card as it was or settled. -/
theorem fails_serveRequest (around : Surroundings) (owner : Owner ε) (request : Request) :
    Fails owner (Begun around owner request) (owner.serveRequest build around request) := by
  unfold serveRequest
  split
  · exact fun hstatus => nomatch hstatus
  · exact fun hstatus => nomatch hstatus
  case h_3 hkind => exact fails_serveReset hkind around
  case h_4 hinfo hquery hreset =>
    have hbusy : ∀ status, (owner.cleanupPending = true ∨ around.playerBusy = true ∨
        owner.snapshot.state = .generating) →
          Fails owner (Begun around owner request) (status, owner) := by
      intro status hbusy
      refine fails_refused (fun hbegun => ?_) (.refl owner)
      cases hkind : request.kind <;> simp_all [Begun]
    split
    case isTrue hpending => exact hbusy _ (.inl hpending)
    case isFalse hpending =>
      rw [Bool.not_eq_true] at hpending
      split
      case isTrue hplaying =>
        simp only [Bool.or_eq_true, decide_eq_true_eq] at hplaying
        exact hbusy _ (.inr hplaying)
      case isFalse hplaying =>
        simp only [Bool.or_eq_true, decide_eq_true_eq, not_or, Bool.not_eq_true] at hplaying
        obtain ⟨hidle, hgenerating⟩ := hplaying
        split
        case h_1 hkind =>
          have hbegun : ¬Begun around owner request := by simp [Begun, hkind]
          unfold serveMode
          split
          · exact fails_refused hbegun (.refl owner)
          · exact fun hstatus => nomatch hstatus
        case h_2 hkind => exact fails_serveSelect hkind around
        case h_3 hkind => exact fails_serveData hkind hpending hidle
        case h_4 hkind => exact fails_serveSend hkind hpending hidle
        case h_5 hkind => exact fails_serveGenerate hkind hpending hidle hgenerating
        case h_6 h₁ h₂ h₃ h₄ h₅ =>
          refine fails_refused (fun hbegun => ?_) (.refl owner)
          cases hkind : request.kind <;> simp_all [Begun]

/-- A publication completes, or is left to fail with the one code there is for it. -/
theorem publishArtifact_cases (build : Build ε) (owner : Owner ε) :
    (owner.publishArtifact build).1.isOk = true ∧
        (owner.publishArtifact build).2.snapshot.state = .complete ∨
      (owner.publishArtifact build).1 = Refusal.artifactFinalizeError := by
  unfold publishArtifact
  dsimp only
  split
  · exact .inr rfl
  split
  · exact .inr rfl
  split
  · exact .inr rfl
  split
  · exact .inr rfl
  · have hsnapshot : ∀ owner : Owner ε, owner.closeFiles.2.snapshot = owner.snapshot :=
      fun owner => by rw [(quiet_closeFiles owner).same]
    split
    · refine .inl ⟨rfl, ?_⟩
      dsimp only
      rw [hsnapshot]
    · refine .inl ⟨rfl, ?_⟩
      rw [hsnapshot]

/-- How the writer's block went, and how the owner goes on from it. -/
def GoesOn (after : Owner ε) (writer : WavGenerator) : Prop :=
  match writer.state with
  | .failed => after.FailedWith
      (if after.cleanupPending then Refusal.artifactFinalizeError.message
        else writer.status.message)
  | .complete => after.snapshot.state = .complete ∨
      after.FailedWith Refusal.artifactFinalizeError.message
  | _ => after.snapshot.state = .generating

/-- A block that fails, or a publication, fails the transaction. -/
theorem goesOn_continueGeneration {generator : WavGenerator} {encoder : ε}
    (hstate : owner.snapshot.state = .generating) (hwriter : owner.writer = some generator)
    (hencoder : owner.encoder = some encoder) :
    GoesOn (owner.continueGeneration build)
      ((owner.job generator encoder).step (adapters build)).generator := by
  unfold continueGeneration
  rw [hwriter, hencoder]
  dsimp only
  generalize (owner.job generator encoder).step (adapters build) = job
  generalize hafter : ({ owner.withJob job with snapshot := _ } : Owner ε) = after
  have hsame : after.snapshot.state = .generating := by
    rw [← hafter]
    exact hstate
  unfold GoesOn
  split
  case h_1 hfailed =>
    rw [if_pos hfailed]
    exact failedWith_fail_code build after _
  case h_2 hcomplete =>
    rw [if_neg (by rw [hcomplete]; decide), if_pos hcomplete]
    rcases publishArtifact_cases build after with ⟨hok, hpublished⟩ | hfailed
    · rw [if_neg (by simp [hok])]
      exact .inl hpublished
    · have hrefusal : ¬Refusal.artifactFinalizeError.isOk = true := by decide
      have hfail := failedWith_fail build (after.publishArtifact build).2
        Refusal.artifactFinalizeError.message
      rw [ite_self] at hfail
      rw [hfailed, if_pos (by simpa using hrefusal)]
      exact .inr hfail
  case h_3 hfailed hcomplete =>
    rw [if_neg hfailed, if_neg hcomplete]
    exact hsame

/-! ## Held cleanup -/

/-- A cleanup as the card sees it: the open files are closed, one call each, and where that leaves
none open and the card is mounted it is unmounted. What stays open is what a close failed on. -/
structure CleanedUp (owner after : Owner ε) : Prop where
  calls : ∃ closes unmounts, after.card.log = owner.card.log ++ closes ++ unmounts ∧
    closes.map CardEntry.call = owner.openFiles.map .close ∧
    (closes.filter fun entry => !entry.ok).map CardEntry.call = after.openFiles.map .close ∧
    unmounts.map CardEntry.call =
      if after.openFiles = [] ∧ owner.mounted = true then [.unmount] else []

/-- What one close logs, and what it leaves open. -/
theorem close_calls (owner : Owner ε) (handle : Handle) :
    ∃ entries card isOpen, (owner.close handle).2 = { owner with card, isOpen } ∧
      card.log = owner.card.log ++ entries ∧
      entries.map CardEntry.call =
        (if owner.isOpen handle then [.close (owner.pathOf handle)] else []) ∧
      (entries.filter fun entry => !entry.ok).map CardEntry.call =
        (if isOpen handle then [.close (owner.pathOf handle)] else []) ∧
      ∀ other, other ≠ handle → isOpen other = owner.isOpen other := by
  unfold close
  dsimp only
  split
  case isTrue hopen =>
    split
    case isTrue hok =>
      change owner.card.answer.result = .ok at hok
      refine ⟨[_], _, _, rfl, rfl, rfl, ?_, fun other hne => Function.update_of_ne hne ..⟩
      simp [hok, call]
    case isFalse hfailed =>
      change ¬owner.card.answer.result = .ok at hfailed
      refine ⟨[_], _, _, rfl, rfl, rfl, ?_, fun _ _ => rfl⟩
      simp [hfailed, hopen]
  case isFalse hclosed =>
    refine ⟨[], _, _, rfl, (List.append_nil _).symm, rfl, ?_, fun _ _ => rfl⟩
    rw [if_neg hclosed]
    rfl

theorem openFiles_eq (owner : Owner ε) :
    owner.openFiles.map CardCall.close =
      (if owner.isOpen .payload then [.close (owner.pathOf .payload)] else []) ++
        (if owner.isOpen .output then [.close (owner.pathOf .output)] else []) ++
        (if owner.isOpen .manifest then [.close (owner.pathOf .manifest)] else []) := by
  unfold openFiles
  cases hp : owner.isOpen .payload <;> cases ho : owner.isOpen .output <;>
    cases hm : owner.isOpen .manifest <;> simp [List.filter, hp, ho, hm]

theorem openFiles_eq_nil : owner.openFiles = [] ↔
    (owner.isOpen .payload || owner.isOpen .output || owner.isOpen .manifest) = false := by
  unfold openFiles
  cases hp : owner.isOpen .payload <;> cases ho : owner.isOpen .output <;>
    cases hm : owner.isOpen .manifest <;> simp [List.filter, hp, ho, hm]

theorem closeAll_calls (owner : Owner ε) :
    ∃ closes card isOpen, owner.closeAll = { owner with card, isOpen } ∧
      card.log = owner.card.log ++ closes ∧
      closes.map CardEntry.call = owner.openFiles.map .close ∧
      (closes.filter fun entry => !entry.ok).map CardEntry.call =
        owner.closeAll.openFiles.map .close := by
  obtain ⟨first, card₁, isOpen₁, hsame₁, hlog₁, hcalls₁, hleft₁, hothers₁⟩ :=
    close_calls owner .payload
  obtain ⟨second, card₂, isOpen₂, hsame₂, hlog₂, hcalls₂, hleft₂, hothers₂⟩ :=
    close_calls { owner with card := card₁, isOpen := isOpen₁ } .output
  obtain ⟨third, card₃, isOpen₃, hsame₃, hlog₃, hcalls₃, hleft₃, hothers₃⟩ :=
    close_calls { owner with card := card₂, isOpen := isOpen₂ } .manifest
  have hall : owner.closeAll = { owner with card := card₃, isOpen := isOpen₃ } := by
    rw [closeAll, hsame₁, hsame₂, hsame₃]
  refine ⟨first ++ (second ++ third), card₃, isOpen₃, hall, ?_, ?_, ?_⟩
  · rw [hlog₃]
    show card₂.log ++ third = _
    rw [hlog₂]
    show card₁.log ++ second ++ third = _
    rw [hlog₁]
    simp only [List.append_assoc]
  · have houtput : isOpen₁ .output = owner.isOpen .output := hothers₁ _ (by decide)
    have hmanifest : isOpen₂ .manifest = owner.isOpen .manifest :=
      (hothers₂ _ (by decide)).trans (hothers₁ _ (by decide))
    change second.map _ =
      if isOpen₁ .output then [CardCall.close owner.temporaryPath] else [] at hcalls₂
    change third.map _ =
      if isOpen₂ .manifest then [CardCall.close owner.manifestTemporaryPath] else [] at hcalls₃
    rw [houtput] at hcalls₂
    rw [hmanifest] at hcalls₃
    rw [List.map_append, List.map_append, hcalls₁, hcalls₂, hcalls₃, openFiles_eq,
      List.append_assoc]
    rfl
  · have hpayload : isOpen₃ .payload = isOpen₁ .payload :=
      (hothers₃ _ (by decide)).trans (hothers₂ _ (by decide))
    have houtput : isOpen₃ .output = isOpen₂ .output := hothers₃ _ (by decide)
    rw [← hpayload] at hleft₁
    change _ = if isOpen₂ .output then [CardCall.close owner.temporaryPath] else [] at hleft₂
    rw [← houtput] at hleft₂
    rw [List.filter_append, List.filter_append, List.map_append, List.map_append, hleft₁, hleft₂,
      hleft₃, hall, openFiles_eq, List.append_assoc]
    rfl

/-- Every cleanup closes exactly what is still open. -/
theorem cleanedUp_closeFiles (owner : Owner ε) : CleanedUp owner owner.closeFiles.2 := by
  obtain ⟨closes, card, isOpen, hsame, hlog, hcalls, hleft⟩ := closeAll_calls owner
  have hlog' : owner.closeAll.card.log = owner.card.log ++ closes := by rw [hsame]; exact hlog
  have hmounted : owner.closeAll.mounted = owner.mounted := by rw [hsame]
  rw [closeFiles_eq]
  split
  case isTrue hopen =>
    refine ⟨closes, [], hlog'.trans (List.append_nil _).symm, hcalls, hleft, ?_⟩
    rw [if_neg]
    · rfl
    · rintro ⟨hnone, -⟩
      rw [openFiles_eq_nil] at hnone
      change (owner.closeAll.isOpen .payload || owner.closeAll.isOpen .output ||
        owner.closeAll.isOpen .manifest) = false at hnone
      rw [hnone] at hopen
      cases hopen
  case isFalse hclosed =>
    rw [Bool.not_eq_true] at hclosed
    split
    case isTrue hmount =>
      have hunmount : owner.closeAll.openFiles = [] ∧ owner.mounted = true :=
        ⟨openFiles_eq_nil.mpr hclosed, hmounted ▸ hmount⟩
      obtain ⟨entry, hentry, hcall⟩ : ∃ entry : CardEntry, entry.call = .unmount ∧
          (owner.closeAll.call .unmount).2.card.log = owner.card.log ++ closes ++ [entry] :=
        ⟨_, rfl, by rw [← hlog']; rfl⟩
      have hcalled : [entry].map CardEntry.call = [.unmount] := by rw [List.map_singleton, hentry]
      split
      · exact ⟨closes, [entry], hcall, hcalls, hleft, hcalled.trans (if_pos hunmount).symm⟩
      · exact ⟨closes, [entry], hcall, hcalls, hleft, hcalled.trans (if_pos hunmount).symm⟩
    case isFalse hmount =>
      refine ⟨closes, [], hlog'.trans (List.append_nil _).symm, hcalls, hleft, ?_⟩
      rw [if_neg fun h => hmount (hmounted ▸ h.2)]
      rfl

/-- While cleanup is held, a request other than the three is only refused. -/
theorem serveRequest_of_held (h : owner.cleanupPending = true) (around : Surroundings)
    {request : Request} (hreset : request.kind ≠ .reset) (hinfo : request.kind ≠ .info)
    (hquery : request.kind ≠ .query) :
    owner.serveRequest build around request = (Refusal.busy, owner) := by
  unfold serveRequest
  split
  case h_1 hkind => exact absurd hkind hinfo
  case h_2 hkind => exact absurd hkind hquery
  case h_3 hkind => exact absurd hkind hreset
  · rw [if_pos h]

/-- Nothing is in hand while a cleanup is held. -/
theorem Inv.state_of_held (h : owner.Inv build asked old since) (hheld : owner.cleanupPending = true) :
    owner.snapshot.state ≠ .receiving ∧ owner.snapshot.state ≠ .generating := by
  constructor
  · intro hstate
    rw [(h.receiving hstate).clean] at hheld
    cases hheld
  · intro hstate
    rw [(h.generating hstate).clean] at hheld
    cases hheld

theorem dropUpload_of_held (h : owner.Inv build asked old since) (hheld : owner.cleanupPending = true) :
    owner.dropUpload build = owner.closeFiles.2 := by
  unfold dropUpload
  rw [if_neg (h.state_of_held hheld).1, if_pos hheld]

theorem abort_of_held (h : owner.Inv build asked old since) (hheld : owner.cleanupPending = true) :
    owner.abort build = owner.closeFiles.2 := by
  obtain ⟨hreceiving, hgenerating⟩ := h.state_of_held hheld
  unfold abort
  rw [if_neg (by simp [hreceiving, hgenerating]), if_pos hheld]

theorem cleanedUp_serveReset (h : owner.Inv build asked old since)
    (hheld : owner.cleanupPending = true) : CleanedUp owner (owner.serveReset build).2 := by
  obtain ⟨hreceiving, hgenerating⟩ := h.state_of_held hheld
  have hcleanup := cleanedUp_closeFiles owner
  unfold serveReset
  rw [if_neg (by simp [hreceiving, hgenerating])]
  dsimp only
  split
  · exact hcleanup
  case isFalse hok =>
    rw [Bool.not_eq_true, Bool.not_eq_false'] at hok
    obtain ⟨-, -, hclosed⟩ := released_closeFiles hok
    have hnone : ∀ after : Owner ε, after.isOpen = owner.closeFiles.2.isOpen →
        after.openFiles = [] := by
      intro after hsame
      rw [openFiles_eq_nil, hsame, hclosed, hclosed, hclosed]
      rfl
    have hnone' : (owner.closeFiles.2.selectDefaults.selectOutput "GEN.WAV".toList).openFiles =
        [] := hnone _ rfl
    obtain ⟨closes, unmounts, hlog, hcalls, hleft, hunmount⟩ := hcleanup
    rw [hnone _ rfl] at hleft hunmount
    exact ⟨closes, unmounts, hlog, hcalls, by rw [hnone']; exact hleft,
      by rw [hnone']; exact hunmount⟩

end Owner

/-! ## Runs -/

namespace TxSystem

variable {ε : Type} {build : Build ε} {asked : Start ε → Prop} {s : TxSystem ε} {old : Files}
  {since : Nat}

/-- The card as the program finds it, and what its calls and the payload's reads will answer. -/
def initial (files : Files) (answers reads : Nat → Answer) : TxSystem ε where
  owner := { card := { files, answers }, payload := { answers := reads } }

/-- A request of the run asked for the start when it was served. -/
def AskedIn (build : Build ε) (s : TxSystem ε) (actions : List TxAction) (start : Start ε) : Prop :=
  ∃ before around after request, actions = before ++ .player around :: after ∧
    (s.run build before).1.place = .serving request ∧
    (s.run build before).1.owner.Asks build request start

/-- What holds of the owner at any point of a run: what is published and what is kept, how
everything in hand can fail, and what a held cleanup allows. -/
structure Publishes (build : Build ε) (asked : Start ε → Prop) (files : Files)
    (owner : Owner ε) : Prop where
  complete : owner.snapshot.state = .complete →
    ∃ start job, asked start ∧ owner.Published build start job
  intact : owner.card.Always (Intact files) 0
  settled : owner.snapshot.state ≠ .receiving → owner.snapshot.state ≠ .generating →
    owner.Settled
  request : ∀ around request,
    owner.Fails (owner.Begun around request) (owner.serveRequest build around request)
  block : owner.snapshot.state = .generating → ∃ generator encoder,
    owner.writer = some generator ∧ owner.encoder = some encoder ∧
      Owner.GoesOn (owner.continueGeneration build)
        ((owner.job generator encoder).step (Owner.adapters build)).generator
  upload : owner.snapshot.state = .receiving → (owner.dropUpload build).FailedWith
    (if (owner.dropUpload build).cleanupPending then Refusal.artifactFinalizeError.message
      else "UPLOAD_DISCONNECTED")
  stopped : owner.snapshot.state = .receiving ∨ owner.snapshot.state = .generating →
    (owner.abort build).FailedWith
      (if (owner.abort build).cleanupPending then Refusal.artifactFinalizeError.message
        else "ABORTED")
  refused : owner.cleanupPending = true → ∀ around request, request.kind ≠ .reset →
    request.kind ≠ .info → request.kind ≠ .query →
      owner.serveRequest build around request = (Refusal.busy, owner)
  cleanup : owner.cleanupPending = true →
    owner.CleanedUp (owner.serveReset build).2 ∧ owner.CleanedUp (owner.dropUpload build) ∧
      owner.CleanedUp (owner.abort build)

theorem inv_initial (build : Build ε) (files : Files) (answers reads : Nat → Answer) :
    ((initial files answers reads).owner : Owner ε).Inv build (fun _ => False) files 0 := by
  refine ⟨⟨⟨⟨"GEN".toList, rfl, rfl, rfl, rfl, rfl⟩, "GEN".toList, rfl⟩, .refl files, ?_⟩, ?_, ?_, ?_, ?_⟩
  · intro entry hentry
    cases hentry
  · exact fun _ _ => .inl ⟨rfl, rfl, fun _ => rfl⟩
  all_goals
    intro hstate
    cases hstate

/-- A step of either task keeps the owner's invariant, with what a request it serves asks for. -/
theorem inv_step (h : s.owner.Inv build asked old since) (action : TxAction)
    (hasked : ∀ start, s.AskedIn build [action] start → asked start) :
    (s.step build action).1.owner.Inv build asked old since := by
  cases action with
  | player around =>
    show (s.servicePass build around).1.owner.Inv build asked old since
    unfold servicePass
    split
    case h_3 => exact Owner.inv_dropUpload h
    case h_6 request hplace =>
      exact Owner.inv_serveRequest h around request fun start hasks =>
        hasked start ⟨[], around, [], request, rfl, hplace, hasks⟩
    case h_8 =>
      dsimp only
      split
      case isTrue hgenerating => exact Owner.inv_continueGeneration h hgenerating
      · exact h
    all_goals exact h
  | abort =>
    unfold step
    dsimp only
    split
    · exact Owner.inv_abort h
    · exact h
  | activate | receive | submit | take | linkState | submitLine | takeLine | disconnect =>
    rw [(pass_step rfl).1]
    exact h

theorem askedIn_cons {action : TxAction} {actions : List TxAction} {start : Start ε}
    (h : (s.step build action).1.AskedIn build actions start) :
    s.AskedIn build (action :: actions) start := by
  obtain ⟨before, around, after, request, rfl, hplace, hasks⟩ := h
  refine ⟨action :: before, around, after, request, rfl, ?_, ?_⟩
  · rw [run_cons]
    exact hplace
  · rw [run_cons]
    exact hasks

theorem askedIn_head {action : TxAction} (actions : List TxAction) {start : Start ε}
    (h : s.AskedIn build [action] start) : s.AskedIn build (action :: actions) start := by
  obtain ⟨before, around, after, request, heq, hserving⟩ := h
  cases before with
  | nil =>
    rw [List.nil_append, List.cons.injEq] at heq
    exact ⟨[], around, actions, request, by rw [heq.1]; rfl, hserving⟩
  | cons first before =>
    have hrest := (List.cons.inj heq).2
    cases before <;> cases hrest

theorem inv_run (h : s.owner.Inv build asked old since) (actions : List TxAction) :
    (s.run build actions).1.owner.Inv build
      (fun start => asked start ∨ s.AskedIn build actions start) old since := by
  induction actions generalizing s asked with
  | nil => exact h.mono fun _ => .inl
  | cons action actions ih =>
    rw [run_cons]
    have hstep := inv_step (h.mono fun start => Or.inl (b := s.AskedIn build [action] start)) action
      fun start => .inr
    refine (ih hstep).mono fun start => ?_
    rintro ((hbefore | hhead) | hlater)
    · exact .inl hbefore
    · exact .inr (askedIn_head actions hhead)
    · exact .inr (askedIn_cons hlater)

theorem publishes_of_inv {owner : Owner ε} {files : Files} (h : owner.Inv build asked files 0) :
    Publishes build asked files owner where
  complete := h.complete
  intact := h.base.always
  settled := h.settled
  request around request := Owner.fails_serveRequest around owner request
  block hstate :=
    let ⟨generator, encoder, hwriter, hencoder, _⟩ := (h.generating hstate).writer
    ⟨generator, encoder, hwriter, hencoder,
      Owner.goesOn_continueGeneration hstate hwriter hencoder⟩
  upload hstate := by
    unfold Owner.dropUpload
    rw [if_pos hstate]
    exact Owner.failedWith_fail_code build owner _
  stopped hstate := by
    unfold Owner.abort
    rw [if_pos (by simpa using hstate)]
    exact Owner.failedWith_fail_code build owner _
  refused hheld around _ hreset hinfo hquery :=
    Owner.serveRequest_of_held hheld around hreset hinfo hquery
  cleanup hheld := by
    have hclosed := Owner.cleanedUp_closeFiles owner
    refine ⟨Owner.cleanedUp_serveReset h hheld, ?_, ?_⟩
    · rw [Owner.dropUpload_of_held h hheld]
      exact hclosed
    · rw [Owner.abort_of_held h hheld]
      exact hclosed

/-- Publication over any run, whatever the card answers: besides what holds at its end, every file
that was there between two transactions is there from then on as it was. -/
theorem run_publishes (build : Build ε) (files : Files) (answers reads : Nat → Answer)
    (actions : List TxAction) :
    Publishes build ((initial files answers reads).AskedIn build actions) files
        ((initial files answers reads).run build actions).1.owner ∧
      ∀ before after, actions = before ++ after →
        let earlier := ((initial files answers reads).run build before).1.owner
        earlier.snapshot.state ≠ .receiving → earlier.snapshot.state ≠ .generating →
          ((initial files answers reads).run build actions).1.owner.card.Always
            (·.Contains earlier.card.files) earlier.card.log.length := by
  have hrun := inv_run (inv_initial build files answers reads) actions
  refine ⟨publishes_of_inv (hrun.mono fun _ hasked => hasked.resolve_left not_false), ?_⟩
  rintro before after rfl
  intro earlier hreceiving hgenerating
  have hmid := (inv_run (inv_initial build files answers reads) before).rebase hreceiving hgenerating
  have hlater := inv_run hmid after
  rw [run_append]
  exact ⟨hlater.base.always.now.contains, fun entry hentry =>
    (hlater.base.always.past entry hentry).contains⟩

/-- A build without encoders. -/
def noEncoders : Build Unit where
  findEncoder _ := none
  source :=
    { configure := fun _ _ _ => .ret (.success, ())
      totalFrames := fun _ => 0
      readFloat := fun _ _ => .ret ([], ())
      status := fun _ => .success
      stop := id }
  sha256Hex _ := ""
  buildId := ""

/-- An upload's first byte comes, and is served. -/
def firstByte : List TxAction :=
  [.activate, .receive { kind := .data, data := [1] }, .submit] ++ List.replicate 5 (.player {})

/-- Where every call on the card fails, the upload's first byte fails at the mount, and nothing
has begun. Where the card fails from the write on, the cleanup's code stands for the upload's. -/
theorem mount_failure_stays_idle :
    let unmountable := (initial (fun _ => none) (fun _ => ⟨.error, 0⟩) fun _ => ⟨.ok, 0⟩).run
      noEncoders firstByte
    let unwritable := (initial (fun _ => none) (fun call => ⟨if call < 3 then .ok else .error, 0⟩)
      fun _ => ⟨.ok, 0⟩).run noEncoders firstByte
    unmountable.2 = [.accepted { kind := .data, data := [1] },
        .served { kind := .data, data := [1] } { ok := false, error := "ARTIFACT_FINALIZE_ERROR" }] ∧
      unmountable.1.owner.snapshot.state ≠ .failed ∧
      unwritable.1.owner.card.log.map CardEntry.ok = [true, true, true, false, false] ∧
      unwritable.1.owner.snapshot.state = .failed ∧
      unwritable.1.owner.snapshot.error ≠ Refusal.payloadWriteError.message := by
  decide +kernel

end TxSystem

end WaveformGenerator.Tx

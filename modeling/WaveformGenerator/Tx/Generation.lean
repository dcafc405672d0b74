import WaveformGenerator.Source.Generated
import WaveformGenerator.Tx.Closing

/-!
# The owner's invariant

What holds of the owner between two passes, by the state its snapshot shows: released or its
cleanup held, taking an upload, generating, or complete with both files in place. Each request and
each pass keeps it, whatever the card answers.
-/

namespace WaveformGenerator.Tx

open Artifact (uint32Max)
open Source (Adapters WavGenerator Job)

/-- What an output holds: nothing until it is open. -/
def Output.held (output : Output) : List UInt8 :=
  if output.isOpen then (output.card.files output.path).getD [] else []

theorem Output.keeps_write : (Source.ByteSink.mk Output.write).Keeps Output.held := by
  constructor
  intro output bytes hok
  change (output.write bytes).1.isOk = true at hok
  show (output.write bytes).2.held = output.held ++ bytes
  have happend : ∀ output : Output, output.isOpen = true → (output.append bytes).1.isOk = true →
      (output.append bytes).2.held = (output.card.files output.path).getD [] ++ bytes := by
    intro output hopen hok
    unfold append at hok ⊢
    dsimp only at hok ⊢
    have hwritten : (output.card.write output.path bytes).1 = true := by
      by_contra hfailed
      rw [if_neg hfailed] at hok
      exact absurd hok (by decide)
    simp only [held, hopen, if_true, Card.files_write hwritten, Files.put_self, Option.getD_some]
  unfold write at hok ⊢
  dsimp only at hok ⊢
  split
  case isTrue hclosed =>
    rw [if_pos hclosed] at hok
    split at hok
    · exact absurd (show outputNotCreated.isOk = true from hok) (by decide)
    case isFalse hcreated =>
      rw [if_neg hcreated]
      rw [Bool.not_eq_true, Bool.not_eq_false'] at hcreated
      refine (happend _ rfl hok).trans ?_
      simp only [(Card.files_create hcreated).2, Files.put_self, Option.getD_some]
      rw [held, if_neg (by simpa using hclosed)]
  case isFalse hopen =>
    rw [if_neg hopen] at hok
    rw [Bool.not_eq_true, Bool.not_eq_false'] at hopen
    rw [happend output hopen hok, held, if_pos hopen]

/-- An output on `path` whose writes have left the files of `old` intact. -/
structure Output.Kept (old : Files) (since : Nat) (path : Path) (output : Output) : Prop where
  named : output.path = path
  always : output.card.Always (Intact old) since
  fresh : output.isOpen = true → old path = none

theorem Output.Kept.write {old : Files} {since : Nat} {path : Path} {output : Output}
    (h : output.Kept old since path) (hpath : ∀ stem, path ≠ manifestOf stem)
    (bytes : List UInt8) : (output.write bytes).2.Kept old since path := by
  have happend : ∀ output : Output, output.Kept old since path → output.isOpen = true →
      (output.append bytes).2.Kept old since path := by
    intro output h hopen
    refine ⟨h.named, h.always.write fun bytes => ?_, h.fresh⟩
    rw [h.named]
    exact h.always.now.put (h.fresh hopen) hpath bytes
  have hcreate : (output.card.create output.path).2.Always (Intact old) since := by
    refine h.always.create fun hnone => ?_
    rw [h.named] at hnone ⊢
    exact h.always.now.put (h.always.now.contains.none_of_none hnone) hpath []
  unfold Output.write
  dsimp only
  split
  case isTrue hclosed =>
    rw [Bool.not_eq_true'] at hclosed
    split
    · exact ⟨h.named, hcreate, fun hopen => absurd hopen (by
        rw [hclosed]
        exact Bool.false_ne_true)⟩
    case isFalse hcreated =>
      rw [Bool.not_eq_true, Bool.not_eq_false'] at hcreated
      refine happend _ ⟨h.named, hcreate, fun _ => ?_⟩ rfl
      rw [← h.named]
      exact h.always.now.contains.none_of_none (Card.files_create hcreated).1
  case isFalse hopen =>
    rw [Bool.not_eq_true, Bool.not_eq_false'] at hopen
    exact happend output h hopen

/-- A write leaves every other file as it is. -/
theorem Output.files_write {output : Output} {path : Path} (h : path ≠ output.path)
    (bytes : List UInt8) :
    (output.write bytes).2.path = output.path ∧
      (output.write bytes).2.card.files path = output.card.files path := by
  have happend (output : Output) (h : path ≠ output.path) :
      (output.append bytes).2.path = output.path ∧
        (output.append bytes).2.card.files path = output.card.files path :=
    ⟨rfl, Files.put_of_ne h⟩
  have hcreate : (output.card.create output.path).2.files path = output.card.files path := by
    cases hcreated : (output.card.create output.path).1 with
    | true => rw [(Card.files_create hcreated).2, Files.put_of_ne h]
    | false => rw [Card.files_create_of_not hcreated]
  unfold Output.write
  dsimp only
  split
  · split
    · exact ⟨rfl, hcreate⟩
    · exact ⟨rfl, (happend { output with card := _, isOpen := true } h).2.trans hcreate⟩
  · exact happend output h

/-! ## What a generation is made from -/

/-- What a generation starts from: the encoder found, the profile, the WAV's name, and the payload
with the path it is read from. -/
structure Start (ε : Type) where
  descriptor : EncoderDescriptor ε
  profile : String
  filename : Path
  inputPath : Path
  payload : List UInt8

/-- The owner's selections, of which a generation starts. -/
structure Owner.Selects {ε : Type} (build : Build ε) (owner : Owner ε) (start : Start ε) : Prop where
  descriptor : build.findEncoder owner.selectedEncoder = some start.descriptor
  profile : start.profile =
    if owner.selectedProfile = "" then owner.defaultProfile else owner.selectedProfile
  filename : owner.snapshot.filename = start.filename
  input : owner.inputPath = start.inputPath

/-- A request asks for the start: SEND by the selections there are, GENERATE by its own. -/
def Owner.Asks {ε : Type} (build : Build ε) (owner : Owner ε) (request : Request)
    (start : Start ε) : Prop :=
  match request.kind with
  | .send => owner.Selects build start
  | .generateFile =>
    Selects build
      { owner with
        snapshot := { owner.snapshot with filename := request.name }
        inputPath := makePath request.inputName
        selectedRate := request.rate
        selectedInterleave := request.interleave
        selectedEncoder := request.encoder
        selectedProfile := request.profile } start
  | _ => False

/-- The job that the writer has begun with a new encoder, the profile and the payload, and taken
some steps further. -/
def Start.Makes {ε : Type} (build : Build ε) (start : Start ε) (job : Job ε PayloadFile Output) :
    Prop :=
  ∃ first : Job ε PayloadFile Output, start.descriptor.construct = some first.source ∧
    first.payload.bytes = start.payload ∧ first.payload.position = 0 ∧
    first.sink.isOpen = false ∧ ∃ count,
      job = (first.begin (Owner.adapters build) start.profile start.payload.length).2.steps
        (Owner.adapters build) (List.replicate count Source.maximumStepFrames)

/-- What was read of `payload`: all of what was taken, unless a read has failed. -/
structure ReadSoFar (payload : List UInt8) (file : PayloadFile) (declared read : Nat)
    (digest : List UInt8) : Prop where
  bytes : file.bytes = payload
  declared : declared = payload.length
  within : file.position ≤ payload.length
  le : read ≤ file.position
  digest : read = file.position → digest = payload.take read

theorem taken_read {payload : List UInt8} (job : Job ε PayloadFile Output)
    (capacity : Nat) (h : job.Accounted (ReadSoFar payload)) :
    (job.read (Owner.adapters build) capacity).2.Accounted (ReadSoFar payload) := by
  obtain ⟨hbytes, hdeclared, hwithin, hle, hdigest⟩ := h
  obtain ⟨chunk, hchunk⟩ : ∃ chunk, chunk = ((job.payload.bytes.drop job.payload.position).take
    capacity).take (job.payload.answers job.payload.reads).actual := ⟨_, rfl⟩
  have hlength : job.payload.position + chunk.length ≤ payload.length := by
    rw [hchunk, List.length_take, List.length_take, List.length_drop, hbytes]
    omega
  have hprefix : payload.take (job.payload.position + chunk.length) =
      payload.take job.payload.position ++ chunk := by
    have htake := List.take_prefix (job.payload.answers job.payload.reads).actual
      ((job.payload.bytes.drop job.payload.position).take capacity)
    have hstart := htake.trans (List.take_prefix ..)
    rw [← hchunk, hbytes] at hstart
    rw [List.take_add, ← List.prefix_iff_eq_take.mp hstart]
  unfold Job.Accounted Job.read Owner.adapters PayloadFile.read
  dsimp only
  rw [← hchunk]
  by_cases hok : (job.payload.answers job.payload.reads).result = .ok
  · simp only [hok, if_true]
    split
    · refine ⟨hbytes, hdeclared, hlength, by dsimp only; omega, fun heq => hdigest ?_⟩
      dsimp only at heq
      omega
    · refine ⟨hbytes, hdeclared, hlength, by dsimp only; omega, fun heq => ?_⟩
      have hall : job.generator.payloadRead = job.payload.position := by
        dsimp only at heq
        omega
      rw [hdigest hall, hall, hprefix]
  · simp only [hok, if_false, List.length_nil, List.append_nil, Nat.add_zero]
    have hsame : ReadSoFar payload { job.payload with
        reads := job.payload.reads + 1, position := job.payload.position + chunk.length }
        job.generator.payloadBytes job.generator.payloadRead job.generator.payloadDigest := by
      refine ⟨hbytes, hdeclared, hlength, by dsimp only; omega, fun heq => hdigest ?_⟩
      dsimp only at heq
      omega
    split
    · exact hsame
    · exact hsame

section
variable {ε : Type} {build : Build ε} {start : Start ε} {job : Job ε PayloadFile Output}

theorem Start.Makes.step (h : start.Makes build job) :
    start.Makes build (job.step (Owner.adapters build)) := by
  obtain ⟨first, hencoder, hbytes, hposition, hclosed, count, rfl⟩ := h
  refine ⟨first, hencoder, hbytes, hposition, hclosed, count + 1, ?_⟩
  unfold Job.steps
  rw [List.replicate_succ', List.foldl_append]
  rfl

/-- What the writer has read when it has read all there is, is the payload. -/
theorem Start.Makes.payloadDigest (h : start.Makes build job)
    (hread : job.generator.payloadRead = job.generator.payloadBytes) :
    job.generator.payloadDigest = start.payload := by
  obtain ⟨first, -, hbytes, hposition, -, count, rfl⟩ := h
  have hbegun : (first.begin (Owner.adapters build) start.profile
      start.payload.length).2.Accounted (ReadSoFar start.payload) :=
    Job.accounted_begin taken_read
      ⟨hbytes, rfl, by rw [hposition]; exact Nat.zero_le _, Nat.zero_le _, fun _ => rfl⟩ _ _ _
  obtain ⟨-, hdeclared, hwithin, hle, hdigest⟩ :=
    Job.accounted_steps taken_read hbegun (List.replicate count Source.maximumStepFrames)
  rw [hdigest (by omega), hread, hdeclared, List.take_length]

end

namespace Owner

variable {ε : Type} {build : Build ε} {asked : Start ε → Prop} {owner after : Owner ε} {old : Files}
  {since : Nat} {start : Start ε}

/-! ## The invariant -/

/-- The owner's names are those of one stem, its input's those of one. -/
structure Named (owner : Owner ε) : Prop where
  artifact : ∃ stem, owner.snapshot.filename = stem ++ '.' :: "WAV".toList ∧
    owner.outputPath = wavOf stem ∧ owner.temporaryPath = artifactPath stem "TMP".toList ∧
    owner.manifestPath = manifestOf stem ∧
    owner.manifestTemporaryPath = artifactPath stem "JMP".toList
  input : ∃ stem, owner.inputPath = artifactPath stem "BIN".toList

/-- What holds at every call: the names, and the files of `old` intact since. -/
structure Base (old : Files) (since : Nat) (owner : Owner ε) : Prop where
  named : owner.Named
  always : owner.card.Always (Intact old) since

structure Receiving (old : Files) (owner : Owner ε) : Prop where
  clean : owner.cleanupPending = false
  mounted : owner.mounted = true
  payload : owner.isOpen .payload = true
  output : owner.isOpen .output = false
  manifest : owner.isOpen .manifest = false
  fresh : old owner.inputPath = none

/-- The owner runs what was started. -/
structure Runs (owner : Owner ε) (start : Start ε) : Prop where
  descriptor : owner.descriptor = some start.descriptor
  profile : owner.selectedProfile = start.profile
  filename : owner.snapshot.filename = start.filename
  input : owner.inputPath = start.inputPath
  payload : owner.card.files start.inputPath = some start.payload
  bytes : owner.snapshot.payloadBytes = start.payload.length

structure Generating (build : Build ε) (asked : Start ε → Prop) (old : Files)
    (owner : Owner ε) : Prop where
  clean : owner.cleanupPending = false
  output : owner.isOpen .output = true
  manifest : owner.isOpen .manifest = false
  fresh : old owner.temporaryPath = none
  writer : ∃ generator encoder, owner.writer = some generator ∧ owner.encoder = some encoder ∧
    generator.state = .running ∧
    (owner.job generator encoder).Sound Output.held owner.snapshot.totalFrames ∧
    ∃ start, asked start ∧ owner.Runs start ∧ start.Makes build (owner.job generator encoder)

/-- The WAV under its final name is what the writer has made from the start, behind the header of its
length; the manifest under its own name says from what, with the digests of both. -/
structure Published (build : Build ε) (start : Start ε) (job : Job ε PayloadFile Output)
    (owner : Owner ε) : Prop where
  made : start.Makes build job
  finished : job.generator.state = .complete
  filename : owner.snapshot.filename = start.filename
  bytes : owner.snapshot.payloadBytes = start.payload.length
  payload : job.generator.payloadDigest = start.payload
  input : owner.card.files start.inputPath = some start.payload
  wav : owner.card.files (makePath start.filename) = some
    (Source.header 3 (.ofNat (owner.snapshot.totalFrames * 3)) ++ job.generator.pcmDigest)
  length : job.generator.pcmDigest.length = 3 * owner.snapshot.totalFrames
  fits : 36 + 3 * owner.snapshot.totalFrames ≤ uint32Max
  digest : job.generator.wavDigest =
    Source.header 3 (.ofNat (owner.snapshot.totalFrames * 3)) ++ job.generator.pcmDigest
  sha256 : owner.snapshot.wavSha256 = build.sha256Hex job.generator.wavDigest
  manifest : owner.card.files (makePathWith start.filename "JSON".toList) =
    some (textBytes (manifestText start.descriptor.id start.descriptor.version build.buildId
      start.profile owner.snapshot.totalFrames (String.ofList (start.inputPath.drop 6))
      start.payload.length (String.ofList start.filename)
      ⟨build.sha256Hex start.payload, build.sha256Hex job.generator.wavDigest,
        build.sha256Hex job.generator.pcmDigest⟩))

structure Inv (build : Build ε) (asked : Start ε → Prop) (old : Files) (since : Nat)
    (owner : Owner ε) : Prop where
  base : owner.Base old since
  settled : owner.snapshot.state ≠ .receiving → owner.snapshot.state ≠ .generating →
    owner.Settled
  receiving : owner.snapshot.state = .receiving → owner.Receiving old
  generating : owner.snapshot.state = .generating → owner.Generating build asked old
  complete : owner.snapshot.state = .complete →
    ∃ start job, asked start ∧ owner.Published build start job

/-! ## What closing and failing keep -/

theorem Base.quiet (h : owner.Base old since) (hquiet : owner.Quiet after) :
    after.Base old since where
  named := by
    rw [hquiet.same]
    exact ⟨h.named.artifact, h.named.input⟩
  always := hquiet.always _ _ h.always

/-- Of an owner that has published only its files and its snapshot matter. -/
theorem Published.of_same {job : Job ε PayloadFile Output} (h : owner.Published build start job)
    (hfiles : after.card.files = owner.card.files)
    (hsnapshot : after.snapshot = { owner.snapshot with error := after.snapshot.error }) :
    after.Published build start job := by
  obtain ⟨hmade, hfinished, hname, hbytes, hpayload, hinput, hwav, hlength, hfits, hdigest, hsha,
    hmanifest⟩ := h
  refine ⟨hmade, hfinished, ?_, ?_, hpayload, ?_, ?_, ?_, ?_, ?_, ?_, ?_⟩
  · rw [hsnapshot, hname]
  · rw [hsnapshot, hbytes]
  · rw [hfiles, hinput]
  · rw [hfiles, hsnapshot, hwav]
  · rw [hsnapshot, hlength]
  · rw [hsnapshot]
    exact hfits
  · rw [hsnapshot, hdigest]
  · rw [hsnapshot, hsha]
  · rw [hfiles, hsnapshot, hmanifest]

theorem Published.quiet {job : Job ε PayloadFile Output} (h : owner.Published build start job)
    (hquiet : owner.Quiet after) : after.Published build start job :=
  h.of_same hquiet.files (by rw [hquiet.same])

theorem Generating.inv (h : owner.Generating build asked old) (hbase : owner.Base old since)
    (hstate : owner.snapshot.state = .generating) : owner.Inv build asked old since where
  base := hbase
  settled _ hnot := absurd hstate hnot
  receiving hother := by cases hstate.symm.trans hother
  generating _ := h
  complete hother := by cases hstate.symm.trans hother

/-- More may be asked. -/
theorem Inv.mono {more : Start ε → Prop} (h : owner.Inv build asked old since)
    (hmore : ∀ start, asked start → more start) : owner.Inv build more old since where
  base := h.base
  settled := h.settled
  receiving := h.receiving
  generating hstate :=
    let hgenerating := h.generating hstate
    let ⟨generator, encoder, hwriter, hencoder, hrunning, hsound, start, hasked, hmade⟩ :=
      hgenerating.writer
    ⟨hgenerating.clean, hgenerating.output, hgenerating.manifest, hgenerating.fresh, generator,
      encoder, hwriter, hencoder, hrunning, hsound, start, hmore start hasked, hmade⟩
  complete hstate :=
    let ⟨start, job, hasked, hpublished⟩ := h.complete hstate
    ⟨start, job, hmore start hasked, hpublished⟩

theorem Base.stopWriter (h : owner.Base old since) : (owner.stopWriter build).Base old since := by
  rw [stopWriter_same]
  exact ⟨⟨h.named.artifact, h.named.input⟩, h.always⟩

theorem inv_fail (h : owner.Base old since) (error : String) :
    (owner.fail build error).2.Inv build asked old since := by
  obtain ⟨hsettled, hstate, -⟩ := fail_spec build owner error
  have hbase : (owner.stopWriter build).closeFiles.2.Base old since :=
    h.stopWriter.quiet (quiet_closeFiles _)
  refine ⟨⟨⟨hbase.named.artifact, hbase.named.input⟩, hbase.always⟩, fun _ _ => hsettled, ?_, ?_, ?_⟩
  all_goals
    intro hother
    rw [hstate] at hother
    cases hother

theorem inv_failedTransaction (h : owner.Base old since) {failure : Status}
    (hok : failure.isOk = true → owner.Inv build asked old since) :
    (owner.failedTransaction build failure).2.Inv build asked old since := by
  unfold failedTransaction
  dsimp only
  split
  · split
    · exact inv_fail h _
    · exact inv_fail h _
  case isFalse hstatus =>
    exact hok (by simpa using hstatus)

theorem Inv.closeFiles (h : owner.Inv build asked old since)
    (hreceiving : owner.snapshot.state ≠ .receiving)
    (hgenerating : owner.snapshot.state ≠ .generating) :
    owner.closeFiles.2.Inv build asked old since := by
  have hquiet := quiet_closeFiles owner
  have hsnapshot : owner.closeFiles.2.snapshot = owner.snapshot := by rw [hquiet.same]
  refine ⟨h.base.quiet hquiet, fun _ _ => settled_closeFiles owner, ?_, ?_, ?_⟩
  · rw [hsnapshot]
    exact fun hstate => absurd hstate hreceiving
  · rw [hsnapshot]
    exact fun hstate => absurd hstate hgenerating
  · rw [hsnapshot]
    intro hstate
    obtain ⟨start, job, hasked, hpublished⟩ := h.complete hstate
    exact ⟨start, job, hasked, hpublished.quiet hquiet⟩

/-! ## Selecting -/

theorem named_selectOutput (owner : Owner ε) {name : Path}
    (hname : validFilename name "WAV".toList = true) :
    (owner.selectOutput name).Named := by
  obtain ⟨stem, rfl⟩ := eq_append_of_validFilename hname
  refine ⟨⟨stem, rfl, ?_, ?_, ?_, ?_⟩, stem, ?_⟩
  · rfl
  · exact makePathWith_wav stem _
  · exact makePathWith_wav stem _
  · exact makePathWith_wav stem _
  · exact makePathWith_wav stem _

/-- A released owner may take any valid name. -/
theorem inv_selectOutput (owner : Owner ε)
    (halways : owner.card.Always (Intact old) since)
    (hreleased : owner.Settled) {name : Path} (hname : validFilename name "WAV".toList = true) :
    (owner.selectOutput name).Inv build asked old since := by
  refine ⟨⟨named_selectOutput owner hname, halways⟩, fun _ _ => hreleased, ?_, ?_, ?_⟩
  all_goals
    intro hstate
    cases hstate

theorem inv_serveReset (h : owner.Inv build asked old since) :
    (owner.serveReset build).2.Inv build asked old since := by
  unfold serveReset
  have hcleanup : (if owner.snapshot.state = .receiving || owner.snapshot.state = .generating then
      owner.fail build "ABORTED" else owner.closeFiles).2.Inv build asked old since := by
    split
    · exact inv_fail h.base _
    case isFalse hstate =>
      simp only [Bool.or_eq_true, decide_eq_true_eq, not_or] at hstate
      exact h.closeFiles hstate.1 hstate.2
  have hsettled : (if owner.snapshot.state = .receiving || owner.snapshot.state = .generating then
      owner.fail build "ABORTED" else owner.closeFiles).2.Settled := by
    split
    · exact (fail_spec build owner _).1
    · exact settled_closeFiles owner
  generalize (if owner.snapshot.state = .receiving || owner.snapshot.state = .generating then
      owner.fail build "ABORTED" else owner.closeFiles) = cleanup at hcleanup hsettled ⊢
  dsimp only
  split
  · exact hcleanup
  · exact inv_selectOutput cleanup.2.selectDefaults hcleanup.base.always hsettled (by decide)

/-- An owner of which only selections differ. -/
theorem Inv.select (h : owner.Inv build asked old since)
    (hgenerating : owner.snapshot.state ≠ .generating) (rate : UInt16) (interleave : UInt8)
    (encoder profile : String) :
    Inv build asked old since
      { owner with
        selectedRate := rate, selectedInterleave := interleave, selectedEncoder := encoder
        selectedProfile := profile } where
  base := ⟨⟨h.base.named.artifact, h.base.named.input⟩, h.base.always⟩
  settled := h.settled
  receiving hstate :=
    let hreceiving := h.receiving hstate
    ⟨hreceiving.clean, hreceiving.mounted, hreceiving.payload, hreceiving.output,
      hreceiving.manifest, hreceiving.fresh⟩
  generating hstate := absurd hstate hgenerating
  complete hstate :=
    let ⟨start, job, hasked, hpublished⟩ := h.complete hstate
    ⟨start, job, hasked, hpublished.of_same rfl rfl⟩

theorem inv_serveMode (h : owner.Inv build asked old since)
    (hgenerating : owner.snapshot.state ≠ .generating) (request : Request) :
    (owner.serveMode request).2.Inv build asked old since := by
  unfold serveMode
  split
  · exact h
  · exact h.select hgenerating ..

theorem inv_serveSelect (h : owner.Inv build asked old since)
    (hgenerating : owner.snapshot.state ≠ .generating) (request : Request) :
    (owner.serveSelect request).2.Inv build asked old since := by
  unfold serveSelect
  split
  · exact h
  case isFalse hreceiving =>
    split
    · exact h
    case isFalse hname =>
      rw [Bool.not_eq_true, Bool.not_eq_false'] at hname
      dsimp only
      split
      · exact h.closeFiles hreceiving hgenerating
      · exact (inv_selectOutput _ (h.closeFiles hreceiving hgenerating).base.always
          (settled_closeFiles owner) hname).select (fun hstate => nomatch hstate)
            owner.closeFiles.2.selectedRate owner.closeFiles.2.selectedInterleave "" ""

/-! ## Taking an upload -/

theorem input_ne_manifestOf (h : owner.Named) (stem : List Char) :
    owner.inputPath ≠ manifestOf stem := by
  obtain ⟨input, hinput⟩ := h.input
  rw [hinput]
  exact artifactPath_ne (by decide) (by decide) (by decide) input stem

/-- The upload's file is open, and is none of the old ones. -/
theorem openUpload_spec (h : owner.Base old since) (hclosed : ∀ handle, handle ≠ .payload →
    owner.isOpen handle = false) (hfresh : owner.isOpen .payload = true → old owner.inputPath = none) :
    ∃ card isOpen, owner.openUpload.2 = { owner with card, isOpen } ∧
      card.Always (Intact old) since ∧
      (owner.openUpload.1 = true → isOpen .payload = true ∧ old owner.inputPath = none ∧
        ∀ handle, handle ≠ .payload → isOpen handle = false) := by
  unfold openUpload
  dsimp only
  split
  · have halways : (owner.card.create owner.inputPath).2.Always (Intact old) since :=
      h.always.create fun hnone => h.always.now.put (h.always.now.contains.none_of_none hnone)
        (input_ne_manifestOf h.named) []
    split
    case isTrue hcreated =>
      refine ⟨_, _, rfl, halways, fun _ => ⟨Function.update_self .., ?_, ?_⟩⟩
      · exact h.always.now.contains.none_of_none (Card.files_create hcreated).1
      · intro handle hne
        show Function.update owner.isOpen .payload true handle = false
        rw [Function.update_of_ne hne]
        exact hclosed handle hne
    · exact ⟨_, _, rfl, halways, fun hopened => by cases hopened⟩
  case isFalse hopen =>
    rw [Bool.not_eq_true, Bool.not_eq_false'] at hopen
    exact ⟨_, _, rfl, h.always, fun _ => ⟨hopen, hfresh hopen, hclosed⟩⟩

theorem inv_appendPayload (h : owner.Base old since) (hclean : owner.cleanupPending = false)
    (hmounted : owner.mounted = true)
    (hclosed : ∀ handle, handle ≠ .payload → owner.isOpen handle = false)
    (hfresh : owner.isOpen .payload = true → old owner.inputPath = none) (request : Request) :
    (owner.appendPayload build request).2.Inv build asked old since := by
  obtain ⟨card, isOpen, hsame, halways, hopened⟩ := openUpload_spec h hclosed hfresh
  unfold appendPayload
  generalize owner.openUpload = opened at *
  obtain ⟨ok, after⟩ := opened
  replace hsame : after = { owner with card, isOpen } := hsame
  subst hsame
  dsimp only
  split
  · refine inv_failedTransaction ?_ fun hok => absurd hok ?_
    · exact ⟨⟨h.named.artifact, h.named.input⟩, halways⟩
    · decide
  case isFalse hok =>
    rw [Bool.not_eq_true, Bool.not_eq_false'] at hok
    obtain ⟨hpayload, hnew, hothers⟩ := hopened hok
    have hwrite : (card.write owner.inputPath request.data).2.Always (Intact old) since :=
      halways.write fun bytes => halways.now.put hnew (input_ne_manifestOf h.named) bytes
    split
    · refine inv_failedTransaction ?_ fun hok => absurd hok ?_
      · exact ⟨⟨h.named.artifact, h.named.input⟩, hwrite⟩
      · decide
    · refine ⟨⟨⟨h.named.artifact, h.named.input⟩, hwrite⟩, fun hstate => absurd rfl hstate, fun _ => ?_, ?_, ?_⟩
      · exact ⟨hclean, hmounted, hpayload, hothers _ (by decide), hothers _ (by decide), hnew⟩
      · intro hstate
        cases hstate
      · intro hstate
        cases hstate

theorem mount_of_mounted {around : Surroundings} (hmounted : owner.mounted = true)
    (hclean : owner.cleanupPending = false) : (owner.mount around).2 = owner := by
  unfold mount
  rw [if_neg (by simp [hclean]), if_pos hmounted]
  split <;> rfl

theorem inv_serveData (h : owner.Inv build asked old since) (around : Surroundings) (request : Request) :
    (owner.serveData build around request).2.Inv build asked old since := by
  unfold serveData
  split
  · exact h
  case isFalse hstate =>
    simp only [Bool.and_eq_true, decide_eq_true_eq, not_and, Decidable.not_not] at hstate
    split
    · exact h
    dsimp only
    obtain ⟨hquiet, hok, hfailed⟩ := mount_spec around owner
    have hsnapshot : (owner.mount around).2.snapshot = owner.snapshot := by rw [hquiet.same]
    have hinput : (owner.mount around).2.inputPath = owner.inputPath := by rw [hquiet.same]
    have hbase := h.base.quiet hquiet
    by_cases hreceiving : owner.snapshot.state = .receiving
    · have hr := h.receiving hreceiving
      rw [mount_of_mounted hr.mounted hr.clean]
      split
      · exact h
      · refine inv_appendPayload h.base hr.clean hr.mounted ?_ (fun _ => hr.fresh) request
        rintro (_ | _ | _) hne
        · exact absurd rfl hne
        · exact hr.output
        · exact hr.manifest
    · have hidle : owner.snapshot.state = .idle := by
        by_contra hnot
        exact hreceiving (hstate hnot)
      have hsettled := h.settled hreceiving (by rw [hidle]; decide)
      split
      case isTrue hrefused =>
        rw [Bool.not_eq_true'] at hrefused
        rcases hfailed hrefused with hsame | hsettled'
        · rw [hsame]
          exact h
        · refine ⟨hbase, fun _ _ => hsettled', ?_, ?_, ?_⟩
          all_goals
            intro hother
            rw [hsnapshot, hidle] at hother
            cases hother
      case isFalse hmounted =>
        rw [Bool.not_eq_true, Bool.not_eq_false'] at hmounted
        obtain ⟨hbefore, hclean, hm, hopen⟩ := hok hmounted
        have hclosed : ∀ handle, (owner.mount around).2.isOpen handle = false := by
          rw [hopen]
          rcases hsettled with hreleased | hheld
          · exact hreleased.2.2
          · rw [hbefore] at hheld
            cases hheld
        exact inv_appendPayload hbase hclean hm (fun handle _ => hclosed handle)
          (fun hpayload => absurd hpayload (by rw [hclosed]; exact Bool.false_ne_true)) request

/-! ## Starting a generation -/

theorem temporary_ne (h : owner.Named) (stem : List Char) :
    owner.temporaryPath ≠ manifestOf stem ∧ owner.temporaryPath ≠ wavOf stem := by
  obtain ⟨name, -, -, htemporary, -⟩ := h.artifact
  rw [htemporary]
  exact ⟨artifactPath_ne (by decide) (by decide) (by decide) name stem,
    artifactPath_ne (by decide) (by decide) (by decide) name stem⟩

/-- The writer's sink keeps what the card keeps. -/
theorem kept_begin (h : owner.Base old since) (hclosed : owner.isOpen .output = false)
    (generator : WavGenerator) (encoder : ε) (profile : String) (bytes : Nat) :
    ((owner.job generator encoder).begin (adapters build) profile bytes).2.sink.Kept old since
      owner.temporaryPath :=
  Job.sink_begin
    (fun _ data hkept => hkept.write (fun stem => (temporary_ne h.named stem).1) data)
    ⟨rfl, h.always, fun hopen => absurd hopen (by
      show ¬owner.isOpen .output = true
      rw [hclosed]
      exact Bool.false_ne_true)⟩ profile bytes 48000 .pcm24

/-- Begun, it runs: the silence alone is frames to write. -/
theorem sound_begin (hclosed : owner.isOpen .output = false) (generator : WavGenerator)
    (encoder : ε) (profile : String) (bytes : Nat)
    (hok : ((owner.job generator encoder).begin (adapters build) profile bytes).1.isOk = true) :
    let begun := ((owner.job generator encoder).begin (adapters build) profile bytes).2
    begun.Sound Output.held begun.generator.totalFrames ∧ begun.generator.state = .running := by
  have hempty : Output.held (owner.job generator encoder).sink = [] := by
    rw [Output.held, job, hclosed]
    rfl
  obtain ⟨hsound, hstate⟩ := Job.sound_begin (a := adapters build) Output.keeps_write hempty profile
    bytes 48000 hok
  refine ⟨?_, hstate (by decide)⟩
  rw [hsound.total]
  exact hsound

/-- What the writer left is what it goes on from. -/
theorem job_withJob {job : Job ε PayloadFile Output}
    (hpath : job.sink.path = owner.temporaryPath) :
    (owner.withJob job).job job.generator job.source = job := by
  obtain ⟨generator, source, payload, card, path, isOpen⟩ := job
  subst hpath
  simp only [Owner.job, withJob, setOpen, Function.update_self]

theorem manifest_withJob (owner : Owner ε) (job : Job ε PayloadFile Output) :
    (owner.withJob job).isOpen .manifest = owner.isOpen .manifest :=
  Function.update_of_ne (show Handle.manifest ≠ .output by decide) job.sink.isOpen owner.isOpen

theorem isOpen_of_written {pcm : List UInt8} {job : Job ε PayloadFile Output} (h : job.Written Output.held pcm) :
    job.sink.isOpen = true := by
  have hsink := h.sink
  by_contra hclosed
  rw [Output.held, if_neg hclosed] at hsink
  have hlength := congrArg List.length hsink
  rw [List.length_append, Source.length_header, List.length_nil] at hlength
  omega

/-- The payload is under none of the names of the WAV and its manifest. -/
theorem input_ne (h : owner.Named) :
    owner.inputPath ≠ owner.temporaryPath ∧ owner.inputPath ≠ owner.outputPath ∧
      owner.inputPath ≠ owner.manifestTemporaryPath ∧ owner.inputPath ≠ owner.manifestPath := by
  obtain ⟨name, -, houtput, htemporary, hmanifest, hmanifestTemporary⟩ := h.artifact
  obtain ⟨input, hinput⟩ := h.input
  rw [houtput, htemporary, hmanifest, hmanifestTemporary, hinput]
  refine ⟨?_, ?_, ?_, ?_⟩
  all_goals exact artifactPath_ne (by decide) (by decide) (by decide) input name

/-- A sink that writes to the temporary WAV has left the other file as it was. -/
def LeavesAt (owner : Owner ε) (path : Path) (sink : Output) : Prop :=
  sink.path = owner.temporaryPath ∧ sink.card.files path = owner.card.files path

theorem leavesAt_write {path : Path} (hne : path ≠ owner.temporaryPath) (sink : Output)
    (data : List UInt8) (h : owner.LeavesAt path sink) :
    owner.LeavesAt path (sink.write data).2 := by
  obtain ⟨hpath, hfile⟩ := h
  have hother : path ≠ sink.path := hpath ▸ hne
  obtain ⟨hsame, hleft⟩ := Output.files_write hother data
  exact ⟨hsame.trans hpath, hleft.trans hfile⟩

theorem beginWriter_spec (h : owner.Base old since) (hclean : owner.cleanupPending = false)
    (houtput : owner.isOpen .output = false) (hmanifest : owner.isOpen .manifest = false)
    (descriptor : EncoderDescriptor ε) (hdescriptor : owner.descriptor = some descriptor)
    (hfound : build.findEncoder owner.selectedEncoder = some descriptor)
    (hfile : owner.card.files owner.inputPath = some owner.payload.bytes)
    (hposition : owner.payload.position = 0)
    (hasked : ∀ start, owner.Selects build start → asked start) :
    (owner.beginWriter build descriptor owner.payload.bytes.length).2.Base old since ∧
      ((owner.beginWriter build descriptor owner.payload.bytes.length).1.isOk = true →
        (owner.beginWriter build descriptor owner.payload.bytes.length).2.snapshot.state =
            .generating ∧
          (owner.beginWriter build descriptor owner.payload.bytes.length).2.Generating build asked
            old) := by
  unfold beginWriter
  rw [stopWriter_same]
  generalize (owner.stopWriter build).writer = writer
  dsimp only
  split
  · exact ⟨⟨⟨h.named.artifact, h.named.input⟩, h.always⟩, fun hok => (by cases hok)⟩
  case h_2 encoder hencoder =>
    generalize hprofile : (if owner.selectedProfile = "" then _ else _ : String) = profile
    generalize hbegun : Job.begin (adapters build) (job _ _ encoder) profile _ = begun
    have hkept : begun.2.sink.Kept old since owner.temporaryPath := by
      rw [← hbegun]
      exact kept_begin h houtput (writer.getD {}) encoder profile _
    have hleft : owner.LeavesAt owner.inputPath begun.2.sink := by
      have hstart : owner.LeavesAt owner.inputPath (owner.job (writer.getD {}) encoder).sink :=
        ⟨rfl, rfl⟩
      rw [← hbegun]
      exact Job.sink_begin (leavesAt_write (input_ne h.named).1) hstart profile _ 48000 .pcm24
    have hsound : begun.1.isOk = true →
        begun.2.Sound Output.held begun.2.generator.totalFrames ∧
          begun.2.generator.state = .running := by
      rw [← hbegun]
      exact sound_begin houtput (writer.getD {}) encoder profile _
    obtain ⟨start, hstart⟩ : ∃ start : Start ε, start = ⟨descriptor, profile,
      owner.snapshot.filename, owner.inputPath, owner.payload.bytes⟩ := ⟨_, rfl⟩
    have hmakes : start.Makes build begun.2 := by
      refine ⟨owner.job (writer.getD {}) encoder, ?_, ?_, hposition, houtput, 0, ?_⟩
      · rw [hstart]
        exact hencoder
      · rw [hstart]
        rfl
      · rw [hstart, ← hbegun]
        rfl
    have hselects : owner.Selects build start := by
      rw [hstart]
      exact ⟨hfound, hprofile.symm, rfl, rfl⟩
    obtain ⟨status, begun⟩ := begun
    dsimp only at hkept hleft hsound hmakes ⊢
    split
    case isTrue hfailed =>
      refine ⟨⟨⟨h.named.artifact, h.named.input⟩, hkept.always⟩, fun hok => ?_⟩
      rw [hok] at hfailed
      cases hfailed
    case isFalse hstatus =>
      rw [Bool.not_eq_true, Bool.not_eq_false'] at hstatus
      obtain ⟨hsound, hrunning⟩ := hsound hstatus
      obtain ⟨pcm, hwritten⟩ := hsound.running hrunning
      have hopen := isOpen_of_written hwritten
      refine ⟨⟨⟨h.named.artifact, h.named.input⟩, hkept.always⟩, fun _ => ⟨rfl, ?_⟩⟩
      have hjob := job_withJob hkept.named
      refine ⟨hclean, hopen, hmanifest, hkept.fresh hopen, _, _, rfl, rfl, hrunning,
        hjob.symm ▸ hsound, start, hasked start hselects, ?_, hjob.symm ▸ hmakes⟩
      rw [hstart]
      exact ⟨hdescriptor, rfl, rfl, rfl, hleft.2.trans hfile, rfl⟩

/-- Closing one handle leaves the others. -/
theorem close_spec (owner : Owner ε) (handle : Handle) :
    ∃ card isOpen, (owner.close handle).2 = { owner with card, isOpen } ∧
      card.files = owner.card.files ∧
      (∀ P since, owner.card.Always P since → card.Always P since) ∧
      ∀ other, other ≠ handle → isOpen other = owner.isOpen other := by
  unfold close
  dsimp only
  split
  · split
    · exact ⟨_, _, rfl, rfl, fun _ _ h => h.call _, fun other hne => Function.update_of_ne hne ..⟩
    · exact ⟨_, _, rfl, rfl, fun _ _ h => h.call _, fun _ _ => rfl⟩
  · exact ⟨_, _, rfl, rfl, fun _ _ h => h, fun _ _ => rfl⟩

/-- The payload opened is the file there is, to be read from its start. -/
theorem openPayload_spec (h : owner.Base old since) :
    ∃ card payload isOpen, owner.openPayload.2 = { owner with card, payload, isOpen } ∧
      card.Always (Intact old) since ∧ isOpen .output = owner.isOpen .output ∧
      isOpen .manifest = owner.isOpen .manifest ∧
      (∀ status, owner.openPayload.1 = .error status → status.isOk = false) ∧
      ∀ bytes, owner.openPayload.1 = .ok bytes → bytes = payload.bytes.length ∧
        payload.position = 0 ∧ card.files owner.inputPath = some payload.bytes := by
  have hfinish : ∃ card isOpen, owner.finishUpload.2 = { owner with card, isOpen } ∧
      card.Always (Intact old) since ∧ isOpen .output = owner.isOpen .output ∧
      isOpen .manifest = owner.isOpen .manifest := by
    unfold finishUpload
    dsimp only
    split
    · obtain ⟨card, isOpen, hsame, -, halways, hothers⟩ :=
        close_spec (owner.call (.sync owner.inputPath)).2 .payload
      exact ⟨card, isOpen, hsame, halways _ _ (h.always.call _), hothers _ (by decide),
        hothers _ (by decide)⟩
    · exact ⟨_, _, rfl, h.always, rfl, rfl⟩
  unfold openPayload
  generalize owner.finishUpload = finished at hfinish ⊢
  obtain ⟨ok, after⟩ := finished
  obtain ⟨card, isOpen, rfl, halways, houtput, hmanifest⟩ := hfinish
  dsimp only
  split
  · exact ⟨_, _, _, rfl, halways, houtput, hmanifest, fun _ h => (by cases h; rfl),
      fun _ h => (by cases h)⟩
  · split
    · exact ⟨_, _, _, rfl, halways.openRead _, houtput, hmanifest, fun _ h => (by cases h; rfl),
        fun _ h => (by cases h)⟩
    case h_2 bytes hopened =>
      have houtput' : Function.update isOpen .payload true .output = owner.isOpen .output :=
        (Function.update_of_ne (by decide) ..).trans houtput
      have hmanifest' : Function.update isOpen .payload true .manifest = owner.isOpen .manifest :=
        (Function.update_of_ne (by decide) ..).trans hmanifest
      split
      · exact ⟨_, _, _, rfl, halways.openRead _, houtput', hmanifest',
          fun _ h => (by cases h; rfl), fun _ h => (by cases h)⟩
      · refine ⟨_, _, _, rfl, halways.openRead _, houtput', hmanifest', fun _ h => (by cases h),
          fun _ h => (by cases h; exact ⟨rfl, rfl, Card.files_of_openRead hopened⟩)⟩

/-- Calls that change no file leave the selections. -/
theorem selected_quiet {descriptor : EncoderDescriptor ε} (hquiet : owner.Quiet after)
    (h : owner.descriptor = some descriptor ∧
      build.findEncoder owner.selectedEncoder = some descriptor ∧
      ∀ start, owner.Selects build start → asked start) :
    after.descriptor = some descriptor ∧
      build.findEncoder after.selectedEncoder = some descriptor ∧
      ∀ start, after.Selects build start → asked start := by
  obtain ⟨hdescriptor, hfound, hasked⟩ := h
  rw [hquiet.same]
  exact ⟨hdescriptor, hfound, fun start hselects => hasked start
    ⟨hselects.descriptor, hselects.profile, hselects.filename, hselects.input⟩⟩

/-- A start that succeeds generates; one that fails is left to be failed. -/
theorem startGeneration_spec (build : Build ε) (h : owner.Base old since)
    (houtput : owner.isOpen .output = false) (hmanifest : owner.isOpen .manifest = false)
    (around : Surroundings) (hasked : ∀ start, owner.Selects build start → asked start) :
    (owner.startGeneration build around).2.Base old since ∧
      ((owner.startGeneration build around).1.isOk = true →
        (owner.startGeneration build around).2.snapshot.state = .generating ∧
          (owner.startGeneration build around).2.Generating build asked old) := by
  unfold startGeneration
  dsimp only
  split
  · exact ⟨⟨⟨h.named.artifact, h.named.input⟩, h.always⟩, fun hok => (by cases hok)⟩
  case h_2 descriptor hdescriptor =>
    rw [hdescriptor]
    generalize hfound : ({ owner with descriptor := some descriptor } : Owner ε) = found
    have hbase : found.Base old since := by
      rw [← hfound]
      exact ⟨⟨h.named.artifact, h.named.input⟩, h.always⟩
    have hopen : found.isOpen = owner.isOpen := by rw [← hfound]
    have hselected : found.descriptor = some descriptor ∧
        build.findEncoder found.selectedEncoder = some descriptor ∧
        ∀ start, found.Selects build start → asked start := by
      rw [← hfound]
      exact ⟨rfl, hdescriptor, fun start hselects => hasked start
        ⟨hselects.descriptor, hselects.profile, hselects.filename, hselects.input⟩⟩
    obtain ⟨hquiet, hmounted, -⟩ := mount_spec around found
    have hmount := hbase.quiet hquiet
    have hselected := selected_quiet hquiet hselected
    split
    case isTrue hrefused =>
      refine ⟨hmount, fun hok => ?_⟩
      rw [hok] at hrefused
      cases hrefused
    case isFalse hok =>
      rw [Bool.not_eq_true, Bool.not_eq_false'] at hok
      obtain ⟨-, hclean, -, hmountOpen⟩ := hmounted hok
      generalize (found.mount around).2 = mounted at *
      obtain ⟨hquiet', hcheckOpen, hcheckPending⟩ := quiet_checkAllAbsent mounted
        [mounted.outputPath, mounted.manifestPath, mounted.temporaryPath,
          mounted.manifestTemporaryPath]
      change mounted.Quiet mounted.checkOutputsAbsent.2 at hquiet'
      change mounted.checkOutputsAbsent.2.isOpen = _ at hcheckOpen
      change mounted.checkOutputsAbsent.2.cleanupPending = _ at hcheckPending
      have hchecked := hmount.quiet hquiet'
      have hselected := selected_quiet hquiet' hselected
      split
      case isTrue hrefused =>
        refine ⟨hchecked, fun hok => ?_⟩
        rw [hok] at hrefused
        cases hrefused
      · generalize mounted.checkOutputsAbsent.2 = checked at *
        obtain ⟨card, payload, isOpen, hsame, halways, hout, hman, herror, hpayload⟩ :=
          openPayload_spec hchecked
        generalize checked.openPayload = opened at hsame herror hpayload ⊢
        obtain ⟨result, after⟩ := opened
        replace hsame : after = _ := hsame
        subst hsame
        have hbase' : Base old since { checked with card, payload, isOpen } :=
          ⟨⟨hchecked.named.artifact, hchecked.named.input⟩, halways⟩
        cases result with
        | error status =>
          refine ⟨hbase', fun hok => ?_⟩
          rw [herror status rfl] at hok
          cases hok
        | ok bytes =>
          obtain ⟨rfl, hposition, hfile⟩ := hpayload bytes rfl
          obtain ⟨hdescriptor', hfound', hasked'⟩ := hselected
          refine beginWriter_spec hbase' (hcheckPending.trans hclean) ?_ ?_ descriptor hdescriptor'
            hfound' hfile hposition fun start hselects => hasked' start
              ⟨hselects.descriptor, hselects.profile, hselects.filename, hselects.input⟩
          · rw [← houtput, ← hopen, ← hmountOpen, ← hcheckOpen]
            exact hout
          · rw [← hmanifest, ← hopen, ← hmountOpen, ← hcheckOpen]
            exact hman

theorem inv_started (h : owner.Base old since) (houtput : owner.isOpen .output = false)
    (hmanifest : owner.isOpen .manifest = false) (around : Surroundings)
    (hasked : ∀ start, owner.Selects build start → asked start) :
    ((owner.startGeneration build around).2.failedTransaction build
      (owner.startGeneration build around).1).2.Inv build asked old since := by
  obtain ⟨hbase, hok⟩ := startGeneration_spec build h houtput hmanifest around hasked
  refine inv_failedTransaction hbase fun hstarted => ?_
  obtain ⟨hstate, hgenerating⟩ := hok hstarted
  exact hgenerating.inv hbase hstate

theorem inv_serveSend (h : owner.Inv build asked old since) (around : Surroundings)
    (hasked : ∀ start, owner.Selects build start → asked start) :
    (owner.serveSend build around).2.Inv build asked old since := by
  unfold serveSend
  split
  · exact h
  case isFalse hstate =>
    rw [ne_eq, Decidable.not_not] at hstate
    have hreceiving := h.receiving hstate
    exact inv_started h.base hreceiving.output hreceiving.manifest around hasked

theorem inv_serveGenerate (h : owner.Inv build asked old since)
    (hgenerating : owner.snapshot.state ≠ .generating) (around : Surroundings)
    (request : Request) (hkind : request.kind = .generateFile)
    (hasked : ∀ start, owner.Asks build request start → asked start) :
    (owner.serveGenerate build around request).2.Inv build asked old since := by
  unfold serveGenerate
  split
  · exact h
  case isFalse hreceiving =>
    split
    · exact h
    case isFalse hnames =>
      simp only [Bool.or_eq_true, Bool.not_eq_true', not_or, Bool.not_eq_false] at hnames
      obtain ⟨hname, hinput⟩ := hnames
      dsimp only
      split
      · exact h.closeFiles hreceiving hgenerating
      case isFalse hcleanup =>
        rw [Bool.not_eq_true, Bool.not_eq_false'] at hcleanup
        obtain ⟨-, -, hclosed⟩ := released_closeFiles hcleanup
        have halways := (h.base.quiet (quiet_closeFiles owner)).always
        obtain ⟨stem, hstem⟩ := eq_append_of_validFilename hinput
        refine inv_started ?_ ?_ ?_ around fun start hselects => hasked start ?_
        · refine ⟨⟨(named_selectOutput owner.closeFiles.2 hname).artifact, stem, ?_⟩, halways⟩
          show makePath request.inputName = _
          rw [hstem]
          rfl
        · exact hclosed .output
        · exact hclosed .manifest
        · unfold Asks
          rw [hkind]
          exact ⟨hselects.descriptor, hselects.profile, hselects.filename, hselects.input⟩

/-- Every request keeps the invariant, whatever the card answers. -/
theorem inv_serveRequest (h : owner.Inv build asked old since) (around : Surroundings)
    (request : Request) (hasked : ∀ start, owner.Asks build request start → asked start) :
    (owner.serveRequest build around request).2.Inv build asked old since := by
  unfold serveRequest
  split
  · exact h
  · exact h
  · exact inv_serveReset h
  · split
    · exact h
    split
    · exact h
    case isFalse hbusy =>
      simp only [Bool.or_eq_true, decide_eq_true_eq, not_or] at hbusy
      obtain ⟨-, hgenerating⟩ := hbusy
      split
      · exact inv_serveMode h hgenerating request
      · exact inv_serveSelect h hgenerating request
      · exact inv_serveData h around request
      case h_4 hkind =>
        refine inv_serveSend h around fun start hselects => hasked start ?_
        unfold Asks
        rw [hkind]
        exact hselects
      case h_5 hkind => exact inv_serveGenerate h hgenerating around request hkind hasked
      · exact h

/-! ## Publishing -/

theorem manifestTemporary_ne (h : owner.Named) (stem : List Char) :
    owner.manifestTemporaryPath ≠ manifestOf stem ∧ owner.manifestTemporaryPath ≠ wavOf stem := by
  obtain ⟨name, -, -, -, -, htemporary⟩ := h.artifact
  rw [htemporary]
  exact ⟨artifactPath_ne (by decide) (by decide) (by decide) name stem,
    artifactPath_ne (by decide) (by decide) (by decide) name stem⟩

theorem temporaries_ne (h : owner.Named) :
    owner.temporaryPath ≠ owner.manifestTemporaryPath := by
  obtain ⟨stem, -, -, htemporary, -, hmanifest⟩ := h.artifact
  rw [htemporary, hmanifest]
  exact artifactPath_ne (by decide) (by decide) (by decide) stem stem

theorem writeManifest_spec (h : owner.Base old since) (bytes : List UInt8) :
    ∃ card isOpen, (owner.writeManifest bytes).2 = { owner with card, isOpen } ∧
      card.Always (Intact old) since ∧
      (∀ path, path ≠ owner.manifestTemporaryPath → card.files path = owner.card.files path) ∧
      ((owner.writeManifest bytes).1 = true →
        card.files owner.manifestTemporaryPath = some bytes ∧
          old owner.manifestTemporaryPath = none) := by
  have hne := fun stem => (manifestTemporary_ne h.named stem).1
  unfold writeManifest
  dsimp only
  have hcreate : (owner.card.create owner.manifestTemporaryPath).2.Always (Intact old) since :=
    h.always.create fun hnone =>
      h.always.now.put (h.always.now.contains.none_of_none hnone) hne []
  split
  case isTrue hfailed =>
    rw [Bool.not_eq_true'] at hfailed
    refine ⟨_, _, rfl, hcreate, fun path _ => ?_, fun hok => (by cases hok)⟩
    rw [Card.files_create_of_not hfailed]
  case isFalse hcreated =>
    rw [Bool.not_eq_true, Bool.not_eq_false'] at hcreated
    obtain ⟨hfree, hfiles⟩ := Card.files_create hcreated
    have hnew := h.always.now.contains.none_of_none hfree
    generalize (owner.card.create owner.manifestTemporaryPath).2 = created at hcreate hfiles ⊢
    dsimp only [setOpen]
    have hwrite : (created.write owner.manifestTemporaryPath bytes).2.Always (Intact old) since :=
      hcreate.write fun data => hcreate.now.put hnew hne data
    have hothers : ∀ path, path ≠ owner.manifestTemporaryPath →
        (created.write owner.manifestTemporaryPath bytes).2.files path = owner.card.files path := by
      intro path hpath
      show created.files.put _ _ path = _
      rw [Files.put_of_ne hpath, hfiles, Files.put_of_ne hpath]
    obtain ⟨card, isOpen, hsame, hcloseFiles, hcloseAlways, -⟩ := close_spec
      (call
        { owner with
          card := (created.write owner.manifestTemporaryPath bytes).2
          isOpen := Function.update owner.isOpen .manifest true }
        (.sync owner.manifestTemporaryPath)).2 .manifest
    refine ⟨card, isOpen, hsame, hcloseAlways _ _ (hwrite.call _), fun path hpath => ?_, fun hok => ?_⟩
    · rw [hcloseFiles]
      exact hothers path hpath
    · rw [Bool.and_eq_true, Bool.and_eq_true] at hok
      refine ⟨?_, hnew⟩
      rw [hcloseFiles]
      show (created.write owner.manifestTemporaryPath bytes).2.files _ = _
      rw [Card.files_write hok.1.1, Files.put_self, hfiles, Files.put_self, Option.getD_some,
        List.nil_append]

theorem renameBoth_spec (h : owner.Base old since) (htemporary : old owner.temporaryPath = none)
    (hmanifest : old owner.manifestTemporaryPath = none) :
    ∃ card, owner.renameBoth.2 = { owner with card } ∧ card.Always (Intact old) since ∧
      (owner.renameBoth.1 = true →
        card.files owner.outputPath = owner.card.files owner.temporaryPath ∧
          card.files owner.manifestPath = owner.card.files owner.manifestTemporaryPath ∧
          card.files owner.inputPath = owner.card.files owner.inputPath) := by
  have hte := fun stem => temporary_ne h.named stem
  have hmt := fun stem => manifestTemporary_ne h.named stem
  obtain ⟨htemporaryInput, houtputInput, hmarkInput, hfinalInput⟩ := input_ne h.named
  obtain ⟨stem, -, houtput, -, hfinal, -⟩ := h.named.artifact
  have hfirst : (owner.card.rename owner.temporaryPath owner.outputPath).2.Always (Intact old)
      since := by
    refine h.always.rename fun bytes hsource htarget => ?_
    rw [houtput] at htarget ⊢
    exact h.always.now.moveWav htemporary (by rw [hsource]; exact Option.some_ne_none _) htarget
      (fun stem => (hte stem).2) (fun stem => (hte stem).1)
  unfold renameBoth
  dsimp only
  split
  · exact ⟨_, rfl, hfirst, fun hok => (by cases hok)⟩
  case isFalse hrenamed =>
    rw [Bool.not_eq_true, Bool.not_eq_false'] at hrenamed
    obtain ⟨⟨wav, hwav⟩, hfree, hfiles⟩ := Card.files_rename hrenamed
    generalize (owner.card.rename owner.temporaryPath owner.outputPath).2 = first at hfirst hfiles ⊢
    have hthere : first.files (wavOf stem) = some wav := by
      rw [hfiles, houtput, Files.move_target, hwav]
    have hsecond : (first.rename owner.manifestTemporaryPath owner.manifestPath).2.Always
        (Intact old) since := by
      refine hfirst.rename fun bytes _ htarget => ?_
      rw [hfinal] at htarget ⊢
      exact hfirst.now.moveManifest hmanifest htarget (by rw [hthere]; exact Option.some_ne_none _)
        (fun stem => (hmt stem).2) (fun stem => (hmt stem).1)
    split
    case isTrue hfailed =>
      rw [Bool.not_eq_true'] at hfailed
      have hback := Card.files_rename_of_not hfailed
      generalize (first.rename owner.manifestTemporaryPath owner.manifestPath).2 = second
        at hsecond hback ⊢
      refine ⟨_, rfl, hsecond.rename fun bytes _ htarget => ?_, fun hok => (by cases hok)⟩
      rw [houtput] at hfree ⊢
      -- Where the manifest's name was taken all along, the WAV's was free: it was so before.
      refine hsecond.now.moveBack (h.always.now.contains.none_of_none hfree) htarget
        (fun stem => (hte stem).2) (fun stem => (hte stem).1) fun htaken => ?_
      rw [hback, hfiles, Files.move_of_ne (hte stem).1.symm
        (houtput ▸ manifestOf_ne_wavOf stem stem)] at htaken
      exact (h.always.now.paired stem htaken).resolve_left fun hnot => hnot hfree
    case isFalse hrenamed' =>
      rw [Bool.not_eq_true, Bool.not_eq_false'] at hrenamed'
      obtain ⟨-, -, hfiles'⟩ := Card.files_rename hrenamed'
      refine ⟨_, rfl, hsecond, fun _ => ?_⟩
      rw [hfiles', Files.move_target, hfinal, houtput,
        Files.move_of_ne (hmt stem).2.symm (manifestOf_ne_wavOf stem stem).symm, hthere, hwav]
      refine ⟨rfl, ?_, ?_⟩
      · rw [hfiles, Files.move_of_ne (temporaries_ne h.named).symm]
        rw [houtput]
        exact (hmt stem).2
      · rw [hfinal] at hfinalInput
        rw [houtput] at houtputInput
        rw [Files.move_of_ne hmarkInput hfinalInput, hfiles, houtput,
          Files.move_of_ne htemporaryInput houtputInput]

theorem quiet_closeOutput (owner : Owner ε) : owner.Quiet owner.closeOutput.2 := by
  have hsync := quiet_call owner (.sync owner.temporaryPath)
  unfold closeOutput
  dsimp only
  split
  · exact hsync
  · exact (hsync.trans (quiet_close _ .output)).trans (quiet_close _ .payload)

/-- The whole WAV lies under its temporary name, and its digests are those of `generator`. -/
structure Whole (generator : WavGenerator) (owner : Owner ε) : Prop where
  temporary : owner.card.files owner.temporaryPath = some
    (Source.header 3 (.ofNat (owner.snapshot.totalFrames * 3)) ++ generator.pcmDigest)
  length : generator.pcmDigest.length = 3 * owner.snapshot.totalFrames
  fits : 36 + 3 * owner.snapshot.totalFrames ≤ uint32Max
  digest : generator.wavDigest =
    Source.header 3 (.ofNat (owner.snapshot.totalFrames * 3)) ++ generator.pcmDigest

theorem Whole.quiet {generator : WavGenerator} (h : owner.Whole generator)
    (hquiet : owner.Quiet after) : after.Whole generator := by
  have hfiles := hquiet.files
  rw [hquiet.same]
  exact ⟨by rw [hfiles]; exact h.temporary, h.length, h.fits, h.digest⟩

/-- The temporary WAV is what the writer has written, and what its digest has taken. -/
theorem whole_of_written {generator : WavGenerator} {encoder : ε} {pcm : List UInt8}
    (h : (owner.job generator encoder).Written Output.held pcm)
    (htotal : generator.totalFrames = owner.snapshot.totalFrames)
    (hall : generator.framesWritten = generator.totalFrames) : owner.Whole generator := by
  have hpcm : generator.pcmDigest = pcm := h.pcm
  have hlength : pcm.length = 3 * generator.framesWritten := h.length
  have hfits : 36 + 3 * generator.totalFrames ≤ uint32Max := h.fits
  have hsink : (owner.job generator encoder).sink.held =
      Source.header 3 (.ofNat (generator.totalFrames * 3)) ++ pcm := h.sink
  have hdigest : generator.wavDigest = (owner.job generator encoder).sink.held := h.digest
  rw [hall] at hlength
  rw [htotal] at hlength hfits hsink
  subst hpcm
  refine ⟨?_, hlength, hfits, hdigest.trans hsink⟩
  rw [Output.held, if_pos (isOpen_of_written h)] at hsink
  change (owner.card.files owner.temporaryPath).getD [] = _ at hsink
  cases hfile : owner.card.files owner.temporaryPath with
  | none =>
    rw [hfile] at hsink
    have hlength := congrArg List.length hsink
    rw [List.length_append, Source.length_header, Option.getD_none, List.length_nil] at hlength
    omega
  | some wav =>
    rw [hfile] at hsink
    exact congrArg some hsink

theorem Named.paths (h : owner.Named) :
    owner.outputPath = makePath owner.snapshot.filename ∧
      owner.manifestPath = makePathWith owner.snapshot.filename "JSON".toList := by
  obtain ⟨stem, hname, houtput, -, hmanifest, -⟩ := h.artifact
  rw [houtput, hmanifest, hname]
  exact ⟨rfl, (makePathWith_wav stem _).symm⟩

theorem Runs.quiet (h : owner.Runs start) (hquiet : owner.Quiet after) : after.Runs start := by
  have hfiles := hquiet.files
  rw [hquiet.same]
  exact ⟨h.descriptor, h.profile, h.filename, h.input, by rw [hfiles, h.payload], h.bytes⟩

/-- What the manifest says of what runs. -/
theorem metadata_of_runs (h : owner.Runs start) (hashes : Source.ArtifactHashes) :
    owner.metadata build hashes = textBytes (manifestText start.descriptor.id
      start.descriptor.version build.buildId start.profile owner.snapshot.totalFrames
      (String.ofList (start.inputPath.drop 6)) start.payload.length (String.ofList start.filename)
      hashes) := by
  rw [metadata, h.descriptor, h.profile, h.input, h.bytes, h.filename]
  rfl

theorem hashes_closeOutput (build : Build ε) {generator : WavGenerator} {encoder : ε}
    (hwriter : owner.writer = some generator) (hencoder : owner.encoder = some encoder)
    (hstate : generator.state = .complete) :
    owner.closeOutput.2.hashes build =
      ⟨build.sha256Hex generator.payloadDigest, build.sha256Hex generator.wavDigest,
        build.sha256Hex generator.pcmDigest⟩ := by
  rw [(quiet_closeOutput owner).same]
  simp only [hashes, hwriter, hencoder, Job.hashes, job, hstate, if_true]

/-- What is published stays so when the files are closed, with or without success. -/
theorem Published.inv_closeFiles {made : Job ε PayloadFile Output}
    (h : owner.Published build start made) (hbase : owner.Base old since)
    (hstate : owner.snapshot.state = .complete) (hasked : asked start) (error : String) :
    Inv build asked old since
      { owner.closeFiles.2 with
        snapshot := { owner.closeFiles.2.snapshot with error } } := by
  have hquiet := quiet_closeFiles owner
  have hdone := h.quiet hquiet
  have hnamed := hbase.quiet hquiet
  have hcomplete : owner.closeFiles.2.snapshot.state = .complete := by rw [hquiet.same, hstate]
  refine ⟨⟨⟨hnamed.named.artifact, hnamed.named.input⟩, hnamed.always⟩,
    fun _ _ => settled_closeFiles owner, fun hother => ?_, fun hother => ?_,
    fun _ => ⟨start, made, hasked, hdone.of_same rfl rfl⟩⟩
  · cases hcomplete.symm.trans hother
  · cases hcomplete.symm.trans hother

/-- A finished WAV is published, or the names are as they were and the owner is left to fail. -/
theorem publishArtifact_spec (build : Build ε) (h : owner.Base old since)
    (hfresh : old owner.temporaryPath = none) {generator : WavGenerator} {encoder : ε}
    {pcm : List UInt8} (hwriter : owner.writer = some generator)
    (hencoder : owner.encoder = some encoder) (hstate : generator.state = .complete)
    (htotal : generator.totalFrames = owner.snapshot.totalFrames)
    (hall : generator.framesWritten = generator.totalFrames)
    (hread : generator.payloadRead = generator.payloadBytes)
    (hwritten : (owner.job generator encoder).Written Output.held pcm) (hasked : asked start)
    (hruns : owner.Runs start) (hmakes : start.Makes build (owner.job generator encoder)) :
    (owner.publishArtifact build).2.Base old since ∧
      ((owner.publishArtifact build).1.isOk = true →
        (owner.publishArtifact build).2.Inv build asked old since) := by
  have hwhole := whole_of_written hwritten htotal hall
  have hpayload : generator.payloadDigest = start.payload := hmakes.payloadDigest hread
  obtain ⟨made, hmade⟩ : ∃ made, owner.job generator encoder = made := ⟨_, rfl⟩
  obtain rfl : made.generator = generator := by rw [← hmade]; rfl
  rw [hmade] at hmakes
  have hclose := quiet_closeOutput owner
  have hhashes := hashes_closeOutput build hwriter hencoder hstate
  unfold publishArtifact
  dsimp only
  rw [hhashes]
  have hbase := h.quiet hclose
  have hruns := hruns.quiet hclose
  have hwhole := hwhole.quiet hclose
  have hfresh' : old owner.closeOutput.2.temporaryPath = none := by
    rw [hclose.same]
    exact hfresh
  generalize owner.closeOutput = closed at *
  obtain ⟨ok, after⟩ := closed
  dsimp only at hbase hruns hwhole hfresh' ⊢
  have hrefusal : ¬Refusal.artifactFinalizeError.isOk = true := by decide
  clear hfresh hclose hhashes hwritten htotal h hmade
  split
  · exact ⟨hbase, fun hok => absurd hok hrefusal⟩
  split
  · exact ⟨hbase, fun hok => absurd hok hrefusal⟩
  rw [metadata_of_runs hruns]
  generalize htext : textBytes _ = text
  obtain ⟨card, isOpen, hsame, halways, hothers, hwrote⟩ := writeManifest_spec hbase text
  generalize after.writeManifest text = written at hsame hwrote ⊢
  obtain ⟨ok, manifest⟩ := written
  replace hsame : manifest = { after with card, isOpen } := hsame
  subst hsame
  dsimp only at hwrote ⊢
  have hbase' : Base old since { after with card, isOpen } :=
    ⟨⟨hbase.named.artifact, hbase.named.input⟩, halways⟩
  split
  · exact ⟨hbase', fun hok => absurd hok hrefusal⟩
  case isFalse hok =>
    rw [Bool.not_eq_true, Bool.not_eq_false'] at hok
    obtain ⟨hmanifest, hnew⟩ := hwrote hok
    obtain ⟨card', hsame, halways', hrenamed⟩ := renameBoth_spec hbase' hfresh' hnew
    generalize renameBoth { after with card, isOpen } = renamed at hsame hrenamed ⊢
    obtain ⟨ok', final⟩ := renamed
    replace hsame : final = { after with card := card', isOpen } := hsame
    subst hsame
    dsimp only at hrenamed ⊢
    split
    · exact ⟨⟨⟨hbase.named.artifact, hbase.named.input⟩, halways'⟩,
        fun hok => absurd hok hrefusal⟩
    case isFalse hok' =>
      rw [Bool.not_eq_true, Bool.not_eq_false'] at hok'
      obtain ⟨hwav, hmark, hinput⟩ := hrenamed hok'
      obtain ⟨houtputPath, hmanifestPath⟩ := hbase.named.paths
      rw [hmanifest] at hmark
      rw [hothers _ (temporaries_ne hbase.named), hwhole.temporary] at hwav
      rw [hothers _ (input_ne hbase.named).2.2.1] at hinput
      change card'.files after.outputPath = _ at hwav
      change card'.files after.manifestPath = _ at hmark
      change card'.files after.inputPath = after.card.files after.inputPath at hinput
      rw [hruns.input, hruns.payload] at hinput
      rw [houtputPath, hruns.filename] at hwav
      rw [hmanifestPath, hruns.filename] at hmark
      generalize hcomplete : ({ after with card := card', isOpen, snapshot := _ } : Owner ε) =
        complete
      have hpublished : complete.Published build start made := by
        rw [← hcomplete]
        refine ⟨hmakes, hstate, hruns.filename, hruns.bytes, hpayload, hinput, hwav, hwhole.length,
          hwhole.fits, hwhole.digest, rfl, ?_⟩
        rw [hpayload] at htext
        rw [hmark, ← htext]
      have hbase : complete.Base old since := by
        rw [← hcomplete]
        exact ⟨⟨hbase.named.artifact, hbase.named.input⟩, halways'⟩
      have hstate : complete.snapshot.state = .complete := by rw [← hcomplete]
      have hinv := hpublished.inv_closeFiles hbase hstate hasked
      split
      · exact ⟨(hinv _).base, fun _ => hinv _⟩
      · exact ⟨(hinv _).base, fun _ => hinv complete.closeFiles.2.snapshot.error⟩

/-! ## Going on -/

/-- The sink after a step keeps what the card keeps. -/
theorem kept_step (build : Build ε) (h : owner.Base old since) (hfresh : old owner.temporaryPath = none)
    (generator : WavGenerator) (encoder : ε) :
    ((owner.job generator encoder).step (adapters build)).sink.Kept old since
      owner.temporaryPath :=
  Job.sink_step
    (fun _ data hkept => hkept.write (fun stem => (temporary_ne h.named stem).1) data)
    ⟨rfl, h.always, fun _ => hfresh⟩ Source.maximumStepFrames

/-- A generation goes on, fails, or is published. -/
theorem inv_continueGeneration (h : owner.Inv build asked old since)
    (hstate : owner.snapshot.state = .generating) :
    (owner.continueGeneration build).Inv build asked old since := by
  have hgenerating := h.generating hstate
  obtain ⟨generator, encoder, hwriter, hencoder, hrunning, hsound, start, hasked, hruns, hmakes⟩ :=
    hgenerating.writer
  have hleft : owner.LeavesAt owner.inputPath (owner.job generator encoder).sink := ⟨rfl, rfl⟩
  have hleft := Job.sink_step (leavesAt_write (input_ne h.base.named).1) hleft
    (a := adapters build) Source.maximumStepFrames
  have hmakes := hmakes.step
  have hkept := kept_step build h.base hgenerating.fresh generator encoder
  have hstep := hsound.step (a := adapters build) Output.keeps_write Source.maximumStepFrames
  unfold continueGeneration
  rw [hwriter, hencoder]
  dsimp only
  generalize (owner.job generator encoder).step (adapters build) = job at hkept hstep hleft hmakes ⊢
  have hjob := job_withJob hkept.named
  generalize hafter : ({ owner.withJob job with snapshot := _ } : Owner ε) = after
  have hbase : after.Base old since := by
    rw [← hafter]
    exact ⟨⟨h.base.named.artifact, h.base.named.input⟩, hkept.always⟩
  have hafterJob : after.job job.generator job.source = job := by
    rw [← hafter]
    exact hjob
  have hruns : after.Runs start := by
    rw [← hafter]
    refine ⟨hruns.descriptor, hruns.profile, hruns.filename, hruns.input, ?_, hruns.bytes⟩
    have hfile := hleft.2
    rw [hruns.input, hruns.payload] at hfile
    exact hfile
  have htotal : job.generator.totalFrames = after.snapshot.totalFrames := by
    rw [← hafter]
    exact hstep.total
  have hfresh : old after.temporaryPath = none := by
    rw [← hafter]
    exact hgenerating.fresh
  have hwriter' : after.writer = some job.generator ∧ after.encoder = some job.source := by
    rw [← hafter]
    exact ⟨rfl, rfl⟩
  split
  · exact inv_fail hbase _
  split
  case isTrue hcomplete =>
    obtain ⟨pcm, hwritten, hall⟩ := hstep.complete hcomplete
    rw [← hafterJob] at hwritten hmakes
    obtain ⟨hpublish, hok⟩ := publishArtifact_spec build hbase hfresh hwriter'.1
      hwriter'.2 hcomplete htotal (hall.trans hstep.total.symm) (hstep.consumed hcomplete) hwritten
      hasked hruns hmakes
    split
    · exact inv_fail hpublish _
    case isFalse hpublished =>
      rw [Bool.not_eq_true, Bool.not_eq_false'] at hpublished
      exact hok hpublished
  case isFalse hfailed hcomplete =>
    have hstill : job.generator.state = .running := by
      cases hs : job.generator.state with
      | idle => exact absurd hs hstep.begun
      | running => rfl
      | complete => exact absurd hs hcomplete
      | failed => exact absurd hs hfailed
    obtain ⟨pcm, hwritten⟩ := hstep.running hstill
    have hafterState : after.snapshot.state = .generating := by
      rw [← hafter]
      exact hstate
    have hopen : after.isOpen .output = true := by
      rw [← hafterJob] at hwritten
      exact isOpen_of_written hwritten
    have hother : after.cleanupPending = false ∧ after.isOpen .manifest = false := by
      rw [← hafter]
      exact ⟨hgenerating.clean, (manifest_withJob owner job).trans hgenerating.manifest⟩
    have hafterSound : (after.job job.generator job.source).Sound Output.held
        after.snapshot.totalFrames := by
      rw [hafterJob, ← htotal, hstep.total]
      exact hstep
    rw [← hafterJob] at hmakes
    exact Generating.inv ⟨hother.1, hopen, hother.2, hfresh, _, _, hwriter'.1, hwriter'.2, hstill,
      hafterSound, start, hasked, hruns, hmakes⟩ hbase hafterState

theorem inv_dropUpload (h : owner.Inv build asked old since) :
    (owner.dropUpload build).Inv build asked old since := by
  unfold dropUpload
  split
  · exact inv_fail h.base _
  case isFalse hreceiving =>
    split
    case isTrue hpending =>
      refine h.closeFiles hreceiving fun hgenerating => ?_
      rw [(h.generating hgenerating).clean] at hpending
      cases hpending
    · exact h

theorem inv_abort (h : owner.Inv build asked old since) : (owner.abort build).Inv build asked old since := by
  unfold abort
  split
  · exact inv_fail h.base _
  case isFalse hstate =>
    simp only [Bool.or_eq_true, decide_eq_true_eq, not_or] at hstate
    split
    · exact h.closeFiles hstate.1 hstate.2
    · exact h

/-- Between transactions, what is there now is what is to stay intact from here. -/
theorem Inv.rebase (h : owner.Inv build asked old since) (hreceiving : owner.snapshot.state ≠ .receiving)
    (hgenerating : owner.snapshot.state ≠ .generating) :
    owner.Inv build asked owner.card.files owner.card.log.length where
  base := ⟨h.base.named, .refl _, fun entry hentry => by rw [List.drop_length] at hentry; cases hentry⟩
  settled := h.settled
  receiving hstate := absurd hstate hreceiving
  generating hstate := absurd hstate hgenerating
  complete := h.complete

end Owner

end WaveformGenerator.Tx

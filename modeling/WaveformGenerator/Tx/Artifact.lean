import WaveformGenerator.Lib.Bytes
import WaveformGenerator.Source.WavGenerator
import WaveformGenerator.Tx.Protocol

/-!
# The artifact owner (`rt1170/tx_artifact.cpp`)

One task takes uploads, runs the generator and publishes what it made: the WAV under its final
name, then its manifest, which is the mark that both are whole. Any call on the card may fail.
-/

namespace WaveformGenerator.Tx

open Source (Adapters ByteSource ByteSink Encoder Job WavGenerator JobState ArtifactHashes)

/-- `TxArtifactSnapshot::state`: 0 idle, 1 receiving payload, 2 creating WAV, 3 complete,
4 failed or aborted. -/
inductive TxState
  | idle
  | receiving
  | generating
  | complete
  | failed
  deriving DecidableEq, Repr

structure TxArtifactSnapshot where
  state : TxState := .idle
  payloadBytes : Nat := 0
  framesWritten : Nat := 0
  totalFrames : Nat := 0
  rate : UInt16 := 600
  interleave : UInt8 := 1
  filename : Path := "GEN.WAV".toList
  wavSha256 : String := ""
  error : String := "none"
  deriving DecidableEq, Repr

/-- The owner's three file handles. -/
inductive Handle
  | payload
  | output
  | manifest
  deriving DecidableEq, Repr

/-- The payload being read, and what its reads return. -/
structure PayloadFile where
  bytes : List UInt8 := []
  position : Nat := 0
  reads : Nat := 0
  answers : Nat → Answer

/-- The temporary WAV, created by its first write. -/
structure Output where
  card : Card
  path : Path
  isOpen : Bool

structure EncoderDescriptor (ε : Type) where
  id : String
  version : String
  construct : Option ε

/-- What the owner is built with: the registered encoders and their code, SHA-256, the build. -/
structure Build (ε : Type) where
  findEncoder : String → Option (EncoderDescriptor ε)
  source : Encoder ε
  sha256Hex : List UInt8 → String
  buildId : String

/-- What a pass finds around it: `player_live_snapshot().busy`, `WFG_MediaIsLocal()`. -/
structure Surroundings where
  playerBusy : Bool := false
  mediaIsLocal : Bool := true
  deriving DecidableEq, Repr

/-- The owner's state. The handles are open on the payload, the temporary WAV and the temporary
manifest; these names change only while none is open. -/
structure Owner (ε : Type) where
  card : Card
  payload : PayloadFile
  mounted : Bool := false
  isOpen : Handle → Bool := fun _ => false
  cleanupPending : Bool := false
  snapshot : TxArtifactSnapshot := {}
  selectedRate : UInt16 := 600
  selectedInterleave : UInt8 := 1
  selectedEncoder : String := ""
  selectedProfile : String := ""
  descriptor : Option (EncoderDescriptor ε) := none
  encoder : Option ε := none
  writer : Option WavGenerator := none
  inputPath : Path := "2:/WG/GEN.BIN".toList
  outputPath : Path := "2:/WG/GEN.WAV".toList
  temporaryPath : Path := "2:/WG/GEN.TMP".toList
  manifestPath : Path := "2:/WG/GEN.JSON".toList
  manifestTemporaryPath : Path := "2:/WG/GEN.JMP".toList

/-! ## The generator's payload and sink -/

/-- `FileBytes::read`: nothing for a read that fails. -/
def PayloadFile.read (file : PayloadFile) (capacity : Nat) : List UInt8 × PayloadFile :=
  let answer := file.answers file.reads
  let bytes := ((file.bytes.drop file.position).take capacity).take answer.actual
  let file := { file with reads := file.reads + 1, position := file.position + bytes.length }
  (if answer.result = .ok then bytes else [], file)

def outputNotCreated : Status :=
  { code := .ioError, message := "the temporary WAV could not be created" }

def outputNotWritten : Status :=
  { code := .ioError, message := "the card took less than the whole write" }

def Output.append (output : Output) (bytes : List UInt8) : Status × Output :=
  let (written, card) := output.card.write output.path bytes
  (if written then .success else outputNotWritten, { output with card })

/-- `FileSink::write`. -/
def Output.write (output : Output) (bytes : List UInt8) : Status × Output :=
  if !output.isOpen then
    let (created, card) := output.card.create output.path
    let output := { output with card }
    if !created then
      (outputNotCreated, output)
    else
      Output.append { output with isOpen := true } bytes
  else
    output.append bytes

/-! ## Names -/

/-- The path with what follows its last dot, the dot too, replaced. -/
def withExtension (path : Path) (extension : List Char) : Path :=
  (path.reverse.dropWhile (· ≠ '.')).tail.reverse ++ '.' :: extension

def makePath (filename : Path) : Path := "2:/WG/".toList ++ filename

def makePathWith (filename : Path) (extension : List Char) : Path :=
  withExtension (makePath filename) extension

/-! ## The manifest -/

/-- The text of the manifest. -/
def manifestText (encoder generator buildId profile : String) (frames : Nat) (payload : String)
    (payloadBytes : Nat) (wav : String) (hashes : ArtifactHashes) : String :=
  "\x7b\n\"schema\":\"waveform-artifact/1\",\"encoder\":\"" ++ encoder ++ "\",\"generator\":\"" ++
    generator ++ "\",\"build_id\":\"" ++ buildId ++ "\",\"profile\":\"" ++ profile ++
    "\",\"sample_rate_hz\":48000,\"channels\":1,\"bits_per_sample\":24,\"frames\":" ++
    toString frames ++ ",\"trailing_silence_frames\":48000,\"payload\":\x7b\"path\":\"" ++ payload ++
    "\",\"bytes\":" ++ toString payloadBytes ++ ",\"sha256\":\"" ++ hashes.payload ++
    "\"\x7d,\"wav\":\x7b\"path\":\"" ++ wav ++ "\",\"sha256\":\"" ++ hashes.wav ++
    "\",\"pcm_sha256\":\"" ++ hashes.pcm ++ "\"\x7d,\"complete\":true\x7d\n"

def metadataCapacity : Nat := 1536

namespace Owner

variable {ε : Type}

/-! ## Cleanup -/

/-- The file a handle is on. -/
def pathOf (owner : Owner ε) : Handle → Path
  | .payload => owner.inputPath
  | .output => owner.temporaryPath
  | .manifest => owner.manifestTemporaryPath

def setOpen (owner : Owner ε) (handle : Handle) (isOpen : Bool) : Owner ε :=
  { owner with isOpen := Function.update owner.isOpen handle isOpen }

/-- A call on the card that leaves its files as they are. -/
def call (owner : Owner ε) (call : CardCall) : FResult × Owner ε :=
  let (result, card) := owner.card.call call
  (result, { owner with card })

/-- `f_close` of an open handle, which stays open when the close fails: whether it is closed. -/
def close (owner : Owner ε) (handle : Handle) : Bool × Owner ε :=
  if owner.isOpen handle then
    let (result, owner) := owner.call (.close (owner.pathOf handle))
    if result = .ok then (true, owner.setOpen handle false) else (false, owner)
  else
    (true, owner)

def closeFiles (owner : Owner ε) : Status × Owner ε :=
  let (_, owner) := owner.close .payload
  let (_, owner) := owner.close .output
  let (_, owner) := owner.close .manifest
  if owner.isOpen .payload || owner.isOpen .output || owner.isOpen .manifest then
    (Refusal.artifactFinalizeError, { owner with cleanupPending := true })
  else if owner.mounted then
    let (result, owner) := owner.call .unmount
    if result ≠ .ok then
      (Refusal.artifactFinalizeError, { owner with cleanupPending := true })
    else
      (.success, { owner with mounted := false, cleanupPending := false })
  else
    (.success, { owner with cleanupPending := false })

/-- The writer's adapters. -/
def adapters (build : Build ε) : Adapters ε PayloadFile Output where
  source := build.source
  payload := { read := PayloadFile.read }
  sink := { write := Output.write }

/-- The writer with what it borrows. -/
def job (owner : Owner ε) (generator : WavGenerator) (encoder : ε) :
    Job ε PayloadFile Output where
  generator
  source := encoder
  payload := owner.payload
  sink := { card := owner.card, path := owner.temporaryPath, isOpen := owner.isOpen .output }

/-- The owner with what the writer left of it. -/
def withJob (owner : Owner ε) (job : Job ε PayloadFile Output) : Owner ε :=
  { owner.setOpen .output job.sink.isOpen with
    card := job.sink.card
    payload := job.payload
    encoder := some job.source
    writer := some job.generator }

/-- `writer->stop()`, where there is a writer. Without an encoder none is bound. -/
def stopWriter (build : Build ε) (owner : Owner ε) : Owner ε :=
  match owner.writer, owner.encoder with
  | none, _ => owner
  | some generator, none =>
    { owner with
      writer := some { generator with bound := false, state := .idle, status := .success } }
  | some generator, some encoder =>
    let job := (owner.job generator encoder).stop (adapters build)
    { owner with writer := some job.generator, encoder := some job.source }

/-- `fail`: the outcome of the cleanup. -/
def fail (build : Build ε) (owner : Owner ε) (error : String) : Status × Owner ε :=
  let owner := owner.stopWriter build
  let (cleanup, owner) := owner.closeFiles
  (cleanup,
    { owner with
      snapshot :=
        { owner.snapshot with
          state := .failed, error := if cleanup.isOk then error else cleanup.message } })

/-! ## Mounting and the names of an artifact -/

/-- What `mount` answers for a card that does not come up. -/
def mountFailed (owner : Owner ε) : Status × Owner ε :=
  let (cleanup, owner) := owner.closeFiles
  (if cleanup.isOk then Refusal.mediaFailed else cleanup, owner)

def mount (around : Surroundings) (owner : Owner ε) : Status × Owner ε :=
  if owner.cleanupPending then
    (Refusal.busy, owner)
  else if !around.mediaIsLocal then
    (Refusal.mediaNotLocal, owner)
  else if owner.mounted then
    (.success, owner)
  else
    -- The card is owned before the call, so that a mount that fails is unregistered too.
    let owner := { owner with mounted := true }
    let (result, owner) := owner.call .mount
    if result ≠ .ok then
      owner.mountFailed
    else
      let (directory, owner) := owner.call (.mkdir "2:/WG".toList)
      if directory ≠ .ok && directory ≠ .exist then
        owner.mountFailed
      else
        (.success, owner)

def selectOutput (owner : Owner ε) (name : Path) : Owner ε :=
  { owner with
    snapshot := { filename := name }
    outputPath := makePath name
    inputPath := makePathWith name "BIN".toList
    temporaryPath := makePathWith name "TMP".toList
    manifestPath := makePathWith name "JSON".toList
    manifestTemporaryPath := makePathWith name "JMP".toList }

def checkAbsent (owner : Owner ε) (path : Path) : Status × Owner ε :=
  let (found, owner) := owner.call (.stat path)
  if found = .noFile then
    (.success, owner)
  else
    (if found = .ok then Refusal.outputExists else Refusal.outputUnchecked, owner)

/-- `check_absent` of each path, up to the first that is not free. -/
def checkAllAbsent (owner : Owner ε) : List Path → Status × Owner ε
  | [] => (.success, owner)
  | path :: paths =>
    let (free, owner) := owner.checkAbsent path
    if !free.isOk then (free, owner) else owner.checkAllAbsent paths

def checkOutputsAbsent (owner : Owner ε) : Status × Owner ε :=
  owner.checkAllAbsent
    [owner.outputPath, owner.manifestPath, owner.temporaryPath, owner.manifestTemporaryPath]

/-! ## Generation -/

/-- An upload still open is synced and closed before it is read: whether both went well. -/
def finishUpload (owner : Owner ε) : Bool × Owner ε :=
  if owner.isOpen .payload then
    let (synced, owner) := owner.call (.sync owner.inputPath)
    let (closed, owner) := owner.close .payload
    (synced = .ok && closed, owner)
  else
    (true, owner)

/-- `open_payload`: the payload's size. -/
def openPayload (owner : Owner ε) : Result Nat × Owner ε :=
  let (finished, owner) := owner.finishUpload
  if !finished then
    (.error Refusal.payloadWriteError, owner)
  else
    let (opened, card) := owner.card.openRead owner.inputPath
    let owner := { owner with card }
    match opened with
    | none => (.error Refusal.badPayloadFile, owner)
    | some bytes =>
      let payload := { owner.payload with bytes, position := 0 }
      let owner := { owner.setOpen .payload true with payload }
      if bytes.length > maximumUploadBytes then
        (.error Refusal.payloadTooLarge, owner)
      else
        (.ok bytes.length, owner)

/-- The profile an empty one stands for. -/
def defaultProfile (owner : Owner ε) : String :=
  toString owner.selectedRate.toNat ++ ":" ++
    (if owner.selectedInterleave = 0 then "short"
      else if owner.selectedInterleave = 1 then "long" else "zero")

/-- The end of `start_generation`: a new encoder, and the writer begun. -/
def beginWriter (build : Build ε) (owner : Owner ε) (descriptor : EncoderDescriptor ε)
    (bytes : Nat) : Status × Owner ε :=
  let owner := owner.stopWriter build
  let owner := { owner with encoder := descriptor.construct }
  match descriptor.construct with
  | none => (Refusal.encoderWorkspaceError, owner)
  | some encoder =>
    let profile :=
      if owner.selectedProfile = "" then owner.defaultProfile else owner.selectedProfile
    let owner := { owner with selectedProfile := profile }
    let (status, job) :=
      (owner.job (owner.writer.getD {}) encoder).begin (adapters build) profile bytes
    let owner := owner.withJob job
    if !status.isOk then
      (status, owner)
    else
      (.success,
        { owner with
          snapshot :=
            { owner.snapshot with
              state := .generating, payloadBytes := bytes, framesWritten := 0
              totalFrames := job.generator.totalFrames, error := "none" } })

def startGeneration (build : Build ε) (around : Surroundings) (owner : Owner ε) :
    Status × Owner ε :=
  let found := build.findEncoder owner.selectedEncoder
  let owner := { owner with descriptor := found }
  match found with
  | none => (Refusal.unknownEncoder, owner)
  | some descriptor =>
    let (media, owner) := owner.mount around
    if !media.isOk then
      (media, owner)
    else
      let (free, owner) := owner.checkOutputsAbsent
      if !free.isOk then
        (free, owner)
      else
        match owner.openPayload with
        | (.error status, owner) => (status, owner)
        | (.ok bytes, owner) => owner.beginWriter build descriptor bytes

/-! ## Publication -/

/-- What the manifest of the finished artifact says. -/
def metadata (build : Build ε) (owner : Owner ε) (hashes : ArtifactHashes) : List UInt8 :=
  textBytes (manifestText ((owner.descriptor.map EncoderDescriptor.id).getD "")
    ((owner.descriptor.map EncoderDescriptor.version).getD "") build.buildId owner.selectedProfile
    owner.snapshot.totalFrames (String.ofList (owner.inputPath.drop 6)) owner.snapshot.payloadBytes
    (String.ofList owner.snapshot.filename) hashes)

/-- The finished WAV is synced, and it and the payload are closed: whether all went well. -/
def closeOutput (owner : Owner ε) : Bool × Owner ε :=
  let (synced, owner) := owner.call (.sync owner.temporaryPath)
  if synced ≠ .ok then
    (false, owner)
  else
    let (outputClosed, owner) := owner.close .output
    let (payloadClosed, owner) := owner.close .payload
    (outputClosed && payloadClosed, owner)

/-- The manifest under its temporary name: whether it is there, whole and closed. -/
def writeManifest (owner : Owner ε) (bytes : List UInt8) : Bool × Owner ε :=
  let (created, card) := owner.card.create owner.manifestTemporaryPath
  let owner := { owner with card }
  if !created then
    (false, owner)
  else
    let owner := owner.setOpen .manifest true
    let (wrote, card) := owner.card.write owner.manifestTemporaryPath bytes
    let owner := { owner with card }
    let (synced, owner) := owner.call (.sync owner.manifestTemporaryPath)
    let (closed, owner) := owner.close .manifest
    (wrote && synced = .ok && closed, owner)

/-- Both temporary names give way to the final ones, the manifest's last: whether they did. -/
def renameBoth (owner : Owner ε) : Bool × Owner ε :=
  let (renamed, card) := owner.card.rename owner.temporaryPath owner.outputPath
  let owner := { owner with card }
  if !renamed then
    (false, owner)
  else
    let (renamed, card) := owner.card.rename owner.manifestTemporaryPath owner.manifestPath
    let owner := { owner with card }
    if !renamed then
      let (_, card) := owner.card.rename owner.outputPath owner.temporaryPath
      (false, { owner with card })
    else
      (true, owner)

/-- The writer's hashes. -/
def hashes (build : Build ε) (owner : Owner ε) : ArtifactHashes :=
  match owner.writer, owner.encoder with
  | some generator, some encoder => (owner.job generator encoder).hashes build.sha256Hex
  | _, _ => {}

def publishArtifact (build : Build ε) (owner : Owner ε) : Status × Owner ε :=
  let (closed, owner) := owner.closeOutput
  if !closed then
    (Refusal.artifactFinalizeError, owner)
  else
    let hashes := owner.hashes build
    let metadata := owner.metadata build hashes
    if metadata.length = 0 || metadata.length ≥ metadataCapacity then
      (Refusal.artifactFinalizeError, owner)
    else
      let (written, owner) := owner.writeManifest metadata
      if !written then
        (Refusal.artifactFinalizeError, owner)
      else
        let (renamed, owner) := owner.renameBoth
        if !renamed then
          (Refusal.artifactFinalizeError, owner)
        else
          let owner :=
            { owner with
              snapshot := { owner.snapshot with wavSha256 := hashes.wav, state := .complete } }
          let (cleanup, owner) := owner.closeFiles
          if !cleanup.isOk then
            (.success,
              { owner with snapshot := { owner.snapshot with error := cleanup.message } })
          else
            (.success, owner)

/-! ## Requests -/

def failedTransaction (build : Build ε) (owner : Owner ε) (failure : Status) :
    Status × Owner ε :=
  if !failure.isOk then
    let (cleanup, owner) := owner.fail build failure.message
    if !cleanup.isOk then (cleanup, owner) else (failure, owner)
  else
    (failure, owner)

/-- The selections RESET leaves. -/
def selectDefaults (owner : Owner ε) : Owner ε :=
  { owner with
    selectedRate := 600, selectedInterleave := 1, selectedEncoder := "", selectedProfile := "" }

def serveReset (build : Build ε) (owner : Owner ε) : Status × Owner ε :=
  let (cleanup, owner) :=
    if owner.snapshot.state = .receiving || owner.snapshot.state = .generating then
      owner.fail build "ABORTED"
    else
      owner.closeFiles
  if !cleanup.isOk then
    (cleanup, owner)
  else
    (.success, owner.selectDefaults.selectOutput "GEN.WAV".toList)

def serveMode (owner : Owner ε) (request : Request) : Status × Owner ε :=
  if (modeToken request.rate request.interleave).isNone then
    (Refusal.badMode, owner)
  else
    (.success,
      { owner with
        selectedRate := request.rate, selectedInterleave := request.interleave
        selectedEncoder := "", selectedProfile := "" })

def serveSelect (owner : Owner ε) (request : Request) : Status × Owner ε :=
  if owner.snapshot.state = .receiving then
    (Refusal.uploadInProgress, owner)
  else if !validFilename request.name "WAV".toList then
    (Refusal.badFilename, owner)
  else
    let (cleanup, owner) := owner.closeFiles
    if !cleanup.isOk then
      (cleanup, owner)
    else
      let owner := owner.selectOutput request.name
      (.success, { owner with selectedEncoder := "", selectedProfile := "" })

/-- The upload's file, created by its first bytes: whether it is open. -/
def openUpload (owner : Owner ε) : Bool × Owner ε :=
  if !owner.isOpen .payload then
    let (created, card) := owner.card.create owner.inputPath
    let owner := { owner with card }
    if created then (true, owner.setOpen .payload true) else (false, owner)
  else
    (true, owner)

def appendPayload (build : Build ε) (owner : Owner ε) (request : Request) : Status × Owner ε :=
  let (opened, owner) := owner.openUpload
  if !opened then
    owner.failedTransaction build Refusal.payloadExistsOrIoError
  else
    let (written, card) := owner.card.write owner.inputPath request.data
    let owner := { owner with card }
    if !written then
      owner.failedTransaction build Refusal.payloadWriteError
    else
      let payloadBytes := owner.snapshot.payloadBytes + request.data.length
      (.success,
        { owner with snapshot := { owner.snapshot with payloadBytes, state := .receiving } })

def serveData (build : Build ε) (around : Surroundings) (owner : Owner ε) (request : Request) :
    Status × Owner ε :=
  if owner.snapshot.state ≠ .idle && owner.snapshot.state ≠ .receiving then
    (Refusal.selectNewFile, owner)
  else if request.data.length = 0 || request.data.length > maximumPayload ||
      request.data.length > maximumUploadBytes - owner.snapshot.payloadBytes then
    (Refusal.payloadTooLarge, owner)
  else
    let (media, owner) := owner.mount around
    if !media.isOk then (media, owner) else owner.appendPayload build request

def serveSend (build : Build ε) (around : Surroundings) (owner : Owner ε) : Status × Owner ε :=
  if owner.snapshot.state ≠ .receiving then
    (Refusal.noUploadedPayload, owner)
  else
    let (started, owner) := owner.startGeneration build around
    owner.failedTransaction build started

def serveGenerate (build : Build ε) (around : Surroundings) (owner : Owner ε)
    (request : Request) : Status × Owner ε :=
  if owner.snapshot.state = .receiving then
    (Refusal.uploadInProgress, owner)
  else if !validFilename request.name "WAV".toList ||
      !validFilename request.inputName "BIN".toList then
    (Refusal.badFilename, owner)
  else
    let (cleanup, owner) := owner.closeFiles
    if !cleanup.isOk then
      (cleanup, owner)
    else
      let owner := owner.selectOutput request.name
      let owner :=
        { owner with
          inputPath := makePath request.inputName
          selectedRate := request.rate
          selectedInterleave := request.interleave
          selectedEncoder := request.encoder
          selectedProfile := request.profile }
      let (started, owner) := owner.startGeneration build around
      owner.failedTransaction build started

def serveRequest (build : Build ε) (around : Surroundings) (owner : Owner ε)
    (request : Request) : Status × Owner ε :=
  match request.kind with
  | .info | .query => (.success, owner)
  | .reset => owner.serveReset build
  | kind =>
    if owner.cleanupPending then
      (Refusal.busy, owner)
    else if around.playerBusy || owner.snapshot.state = .generating then
      (Refusal.busy, owner)
    else
      match kind with
      | .mode => owner.serveMode request
      | .select => owner.serveSelect request
      | .data => owner.serveData build around request
      | .send => owner.serveSend build around
      | .generateFile => owner.serveGenerate build around request
      | _ => (Refusal.badRequest, owner)

/-! ## The passes -/

/-- `continue_generation`; where there is no writer there is no generation. -/
def continueGeneration (build : Build ε) (owner : Owner ε) : Owner ε :=
  match owner.writer, owner.encoder with
  | some generator, some encoder =>
    let job := (owner.job generator encoder).step (adapters build)
    let owner := owner.withJob job
    let owner :=
      { owner with
        snapshot := { owner.snapshot with framesWritten := job.generator.framesWritten } }
    if job.generator.state = .failed then
      (owner.fail build job.generator.status.message).2
    else if job.generator.state = .complete then
      let (published, owner) := owner.publishArtifact build
      if !published.isOk then (owner.fail build published.message).2 else owner
    else
      owner
  | _, _ => owner

/-- What a pass does first for a link that dropped. -/
def dropUpload (build : Build ε) (owner : Owner ε) : Owner ε :=
  if owner.snapshot.state = .receiving then
    (owner.fail build "UPLOAD_DISCONNECTED").2
  else if owner.cleanupPending then
    owner.closeFiles.2
  else
    owner

/-- `abort_tx_artifact`. -/
def abort (build : Build ε) (owner : Owner ε) : Owner ε :=
  if owner.snapshot.state = .receiving || owner.snapshot.state = .generating then
    (owner.fail build "ABORTED").2
  else if owner.cleanupPending then
    owner.closeFiles.2
  else
    owner

/-- The reply to a request served. -/
def replyOf (owner : Owner ε) (served : Status) : Reply where
  ok := served.isOk
  error := if served.isOk then "none" else served.message
  payloadBytes := owner.snapshot.payloadBytes
  frames := owner.snapshot.framesWritten
  generating := owner.snapshot.state = .generating
  complete := owner.snapshot.state = .complete

end Owner

end WaveformGenerator.Tx

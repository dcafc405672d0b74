import WaveformGenerator.Host.CompareExact

/-!
# The pieces of a battery's capture (`host/make_playlist.py`)

`splitCapture` places every USB item of a battery in its capture: the first sound is the first
item's, and the others lie as far behind it as their stream indexes do. The files it writes for each
piece are left out.
-/

namespace WaveformGenerator.Host

def maxMarginFrames : Nat := 2 * sampleRateHz

/-- An item's prediction. -/
structure Expect where
  item : Nat
  label : Option String := none
  file : String
  route : String := "usb"
  deriving DecidableEq, Repr

/-- The members of a result block that `split` relies on. -/
structure Block where
  file : String
  route : String := "usb"
  label : Option String := none
  /-- `uac_play_sent_frames` -/
  sentFrames : Nat
  /-- `uac_play_first_frame_index` -/
  firstFrameIndex : Nat
  deriving DecidableEq, Repr

/-- The stream counters of a `USB?`. -/
structure UsbSnapshot where
  streamOpens : Int
  shortPackets : Int
  stackAsserts : Int
  deriving DecidableEq, Repr

/-- The loop of `predicted_onset` over the chunks of the predicted stream, `done` frames on. -/
def onsetFrom (done : Nat) : List (List UInt8) → Option Nat
  | [] => none
  | data :: later =>
    let sound := (data.takeWhile (· = 0)).length
    if sound < data.length then some (done + sound / pcm24Bytes)
    else onsetFrom (done + data.length / pcm24Bytes) later

/-- The first frame of an item's predicted stream that is not 0; none unpredicted. -/
def predictedOnset (stream : Option (List (List UInt8))) : Option Nat := stream.bind (onsetFrom 0)

/-- What the manifest says of an item that sent frames. -/
inductive Piece
  | missing (item : Nat) (why : String)
  | cut (item : Nat) (start frames pre post : Int) (onsetOk : Option Bool) (silentAround ok : Bool)
  deriving DecidableEq, Repr

structure Manifest where
  anchorItem : Nat
  /-- The stream index of capture frame 0. -/
  origin : Int
  stream : UsbSnapshot
  pieces : List Piece
  others : List (Nat × String)
  deriving DecidableEq, Repr

abbrev Sent := Expect × Block

/-- The USB items that sent frames. -/
def soundingOf (items : List Expect) (blocks : Nat → Option Block) : List Sent :=
  items.filterMap fun expect =>
    match blocks expect.item with
    | none => none
    | some block =>
      if expect.route = "usb" ∧ block.sentFrames > 0 then some (expect, block) else none

/-- The names of a block against those of the expectations. -/
def checkNames (blocks : Nat → Option Block) : List Expect → Except CompareError Unit
  | [] => .ok ()
  | expect :: items =>
    match blocks expect.item with
    | none => checkNames blocks items
    | some block =>
      if (block.file, block.route, block.label) ≠ (expect.file, expect.route, expect.label) then
        .error (.value (s!"the block of item {expect.item} names {block.file}, " ++
          s!"the expectations {expect.file}: not one playlist"))
      else
        checkNames blocks items

/-- The loop that places the spans; `previous` is the end of the one before. -/
def spansFrom (origin : Int) : Option Int → List Sent → Except CompareError (List (Int × Int))
  | _, [] => .ok []
  | previous, (expect, block) :: later => do
    let start : Int := block.firstFrameIndex - origin
    let stop := start + block.sentFrames
    if previous.any (start < ·) then
      throw (.value (s!"item {expect.item} begins before the item before it ends: " ++
        "the blocks are not one stream's"))
    let spans ← spansFrom origin (some stop) later
    return (start, stop) :: spans

/-- What a piece takes of the space beside its item: half of it where it is shared with a neighbour,
all of it to the capture's edge. -/
def marginOf (space : Int) (shared : Bool) : Int :=
  min (if shared then space / 2 else space) maxMarginFrames

/-- The loop that cuts the pieces. -/
def piecesFrom (capture : List UInt8) (layout : WavLayout)
    (streamOf : Expect → Option (List (List UInt8))) :
    Option Int → List (Sent × (Int × Int)) → List Piece
  | _, [] => []
  | previous, ((expect, _), (start, stop)) :: later =>
    let piece : Piece :=
      if start < 0 ∨ stop > layout.frames then
        .missing expect.item "the capture does not hold the whole item"
      else
        let spaceBefore := start - previous.getD 0
        let next : Option Int := later.head?.map fun (next : Sent × (Int × Int)) => next.2.1
        let spaceAfter := next.getD (layout.frames : Int) - stop
        let pre := marginOf spaceBefore previous.isSome
        let post := marginOf spaceAfter next.isSome
        let onset := predictedOnset (streamOf expect)
        let heard := firstSound capture layout start.toNat stop.toNat
        let silent := (firstSound capture layout (start - pre).toNat start.toNat).isNone &&
          (firstSound capture layout stop.toNat (stop + post).toNat).isNone
        let onsetOk := onset.map fun onset => decide (heard = some (start.toNat + onset))
        .cut expect.item start (stop - start) pre post onsetOk silent
          (silent && onsetOk ≠ some false)
    piece :: piecesFrom capture layout streamOf (some stop) later

/-- Why an item has no piece. -/
def otherEntries (blocks : Nat → Option Block) (sounding : List Sent) (items : List Expect) :
    List (Nat × String) :=
  (items.filter fun expect => sounding.all (·.1.item ≠ expect.item)).map fun expect =>
    (expect.item,
      match blocks expect.item with
      | none => "no block"
      | some _ =>
        if expect.route ≠ "usb" then "a codec item: not in the USB capture" else "it sent no frame")

/-- The pieces of items placed by the first of them, which is heard at capture frame `heard`. -/
def splitAt (capture : List UInt8) (layout : WavLayout)
    (streamOf : Expect → Option (List (List UInt8))) (stream : UsbSnapshot) (anchor : Sent)
    (sounding : List Sent) (others : List (Nat × String)) (onset heard : Nat) :
    Except CompareError Manifest := do
  let origin : Int := anchor.2.firstFrameIndex + onset - heard
  let spans ← spansFrom origin none sounding
  return {
    anchorItem := anchor.1.item, origin, stream
    pieces := piecesFrom capture layout streamOf none (sounding.zip spans), others }

/-- One piece of the capture per USB item that sent frames. `streamOf` gives the chunks of an item's
predicted stream. -/
def splitCapture (capture : WavFile) (items : List Expect) (blocks : Nat → Option Block)
    (after : UsbSnapshot) (before : Option UsbSnapshot)
    (streamOf : Expect → Option (List (List UInt8))) : Except CompareError Manifest := do
  checkNames blocks items
  if before.any (·.streamOpens ≠ after.streamOpens) then
    throw (.value ("the capture stream opened again during the battery: its frame indices " ++
      "restarted, so its items cannot be placed in one capture"))
  let stream : UsbSnapshot :=
    { after with
      shortPackets := after.shortPackets - (before.map (·.shortPackets)).getD 0
      stackAsserts := after.stackAsserts - (before.map (·.stackAsserts)).getD 0 }
  let layout ← (wavLayout capture).mapError .wav
  if layout.sampleRate ≠ sampleRateHz then
    throw (.value (s!"{capture.path} is at {layout.sampleRate} Hz: " ++
      "the stream's indices count 48 kHz frames"))
  match soundingOf items blocks with
  | [] => throw (.value "no USB item sent a frame")
  | anchor :: later =>
    match predictedOnset (streamOf anchor.1) with
    | none =>
      throw (.value (s!"item {anchor.1.item} ({anchor.1.file}), the first that sent frames, has " ++
        "no predicted stream to place the capture by: check with --render, or begin the " ++
        "battery with a clean card"))
    | some onset =>
      match firstSound capture.bytes layout 0 layout.frames with
      | none => throw (.value s!"{capture.path} is silent")
      | some 0 =>
        throw (.value s!"{capture.path} begins with sound: start the recorder before PLAYLIST")
      | some heard =>
        splitAt capture.bytes layout streamOf stream anchor (anchor :: later)
          (otherEntries blocks (anchor :: later) items) onset heard

/-! ## Spans -/

/-- Where a block's first frame lies in the capture by its own index, and the end of its frames. -/
def spanOf (origin : Int) (sent : Sent) : Int × Int :=
  (sent.2.firstFrameIndex - origin, sent.2.firstFrameIndex - origin + sent.2.sentFrames)

theorem spansFrom_eq {origin : Int} {sounding : List Sent} {previous : Option Int}
    (hfirst : ∀ stop ∈ previous, ∀ sent ∈ sounding, stop ≤ (spanOf origin sent).1)
    (hordered : sounding.Pairwise fun earlier later =>
      (spanOf origin earlier).2 ≤ (spanOf origin later).1) :
    spansFrom origin previous sounding = .ok (sounding.map (spanOf origin)) := by
  induction sounding generalizing previous with
  | nil => rfl
  | cons sent later ih =>
    obtain ⟨hlater, hrest⟩ := List.pairwise_cons.mp hordered
    have hstart : previous.any ((sent.2.firstFrameIndex : Int) - origin < ·) = false := by
      rw [Option.any_eq_false]
      intro stop hstop
      exact decide_eq_false (Int.not_lt.mpr (hfirst stop hstop sent List.mem_cons_self))
    have hnext := @ih (some (spanOf origin sent).2)
      (fun stop hstop other hmem => by cases hstop; exact hlater other hmem) hrest
    unfold spansFrom
    dsimp only
    rw [hstart]
    change (do let spans ← spansFrom origin (some (spanOf origin sent).2) later
               return spanOf origin sent :: spans) = _
    rw [hnext]
    rfl

theorem of_spansFrom {origin : Int} {sounding : List Sent} {previous : Option Int}
    {spans : List (Int × Int)} (h : spansFrom origin previous sounding = .ok spans) :
    (∀ stop ∈ previous, ∀ sent ∈ sounding, stop ≤ (spanOf origin sent).1) ∧
      sounding.Pairwise fun earlier later =>
        (spanOf origin earlier).2 ≤ (spanOf origin later).1 := by
  induction sounding generalizing previous spans with
  | nil => exact ⟨fun _ _ _ hmem => absurd hmem List.not_mem_nil, .nil⟩
  | cons sent later ih =>
    unfold spansFrom at h
    dsimp only at h
    cases hany : previous.any ((sent.2.firstFrameIndex : Int) - origin < ·) with
    | true =>
      rw [hany] at h
      cases h
    | false =>
      rw [hany] at h
      change (do let spans ← spansFrom origin (some (spanOf origin sent).2) later
                 return spanOf origin sent :: spans) = _ at h
      cases hrest : spansFrom origin (some (spanOf origin sent).2) later with
      | error error =>
        rw [hrest] at h
        cases h
      | ok spans =>
        obtain ⟨hlater, hordered⟩ := ih hrest
        have hafter : ∀ other ∈ later, (spanOf origin sent).2 ≤ (spanOf origin other).1 :=
          hlater _ rfl
        refine ⟨fun stop hstop other hmem => ?_, List.pairwise_cons.mpr ⟨hafter, hordered⟩⟩
        have hstart := (Option.any_eq_false ..).mp hany stop hstop
        have hle : stop ≤ (spanOf origin sent).1 := Int.not_lt.mp (of_decide_eq_false hstart)
        obtain rfl | hmem := List.mem_cons.mp hmem
        · exact hle
        · have hother := hafter other hmem
          have hlength : (spanOf origin sent).2 = (spanOf origin sent).1 + sent.2.sentFrames := rfl
          omega

/-! ## Pieces -/

theorem marginOf_le {space : Int} (h : 0 ≤ space) (shared : Bool) :
    0 ≤ marginOf space shared ∧ marginOf space shared ≤ space := by
  unfold marginOf maxMarginFrames sampleRateHz
  cases shared
  · rw [if_neg Bool.false_ne_true]
    omega
  · rw [if_pos rfl]
    omega

/-- A piece of an item at frame `start` of the capture: it lies inside the capture, holds the whole
item and no frame of another of `sounding`. -/
structure Holds (layout : WavLayout) (span : Sent → Int × Int) (sounding : List Sent) (sent : Sent)
    (pre post : Int) : Prop where
  pre_nonneg : 0 ≤ pre
  post_nonneg : 0 ≤ post
  inside : 0 ≤ (span sent).1 - pre ∧ (span sent).2 + post ≤ layout.frames
  alone : ∀ other ∈ sounding, other ≠ sent →
    (span other).2 ≤ (span sent).1 - pre ∨ (span sent).2 + post ≤ (span other).1

/-- Spans in order within the capture are cut into pieces that hold one item each. -/
theorem holds_of_piecesFrom {capture : List UInt8} {layout : WavLayout}
    {streamOf : Expect → Option (List (List UInt8))} {span : Sent → Int × Int}
    (hlength : ∀ sent, (span sent).1 ≤ (span sent).2) {done sounding : List Sent}
    (hordered : (done ++ sounding).Pairwise fun earlier later =>
      (span earlier).2 ≤ (span later).1)
    (hinside : ∀ sent ∈ done ++ sounding, 0 ≤ (span sent).1 ∧ (span sent).2 ≤ layout.frames)
    {previous : Option Int} (hnone : previous = none → done = [])
    (hsome : ∀ stop ∈ previous, 0 ≤ stop ∧ (∀ sent ∈ done, (span sent).2 ≤ stop) ∧
      ∀ sent ∈ sounding, stop ≤ (span sent).1) :
    List.Forall₂ (fun sent piece => ∃ pre post onsetOk silent ok,
        piece = .cut sent.1.item (span sent).1 ((span sent).2 - (span sent).1) pre post onsetOk
          silent ok ∧ Holds layout span (done ++ sounding) sent pre post)
      sounding
      (piecesFrom capture layout streamOf previous (sounding.zip (sounding.map span))) := by
  induction sounding generalizing done previous with
  | nil => exact .nil
  | cons sent later ih =>
    obtain ⟨hstart, hstop⟩ := hinside sent (List.mem_append_right _ List.mem_cons_self)
    obtain ⟨hdone, hrest, hcross⟩ := List.pairwise_append.mp hordered
    obtain ⟨hlater, -⟩ := List.pairwise_cons.mp hrest
    rw [List.map_cons, List.zip_cons_cons]
    unfold piecesFrom
    rw [if_neg (by omega)]
    have hsplit : done ++ sent :: later = (done ++ [sent]) ++ later := by
      rw [List.append_assoc]
      rfl
    rw [hsplit] at hordered hinside ⊢
    refine .cons ⟨_, _, _, _, _, rfl, ?_⟩ (ih hordered hinside nofun ?_)
    · -- The space before reaches to the end of the item before, or to frame 0.
      have hspace : 0 ≤ (span sent).1 - previous.getD 0 ∧ 0 ≤ previous.getD 0 ∧
          ∀ other ∈ done, (span other).2 ≤ previous.getD 0 := by
        cases previous with
        | none =>
          rw [hnone rfl]
          exact ⟨by rwa [Option.getD_none, Int.sub_zero], Int.le_refl 0, nofun⟩
        | some stop =>
          obtain ⟨hzero, hall, hfirst⟩ := hsome stop rfl
          exact ⟨Int.sub_nonneg_of_le (hfirst sent List.mem_cons_self), hzero, hall⟩
      -- The space behind reaches to the start of the item behind, or to the capture's end.
      have hbehind : ∀ next : Option Int,
          next = (later.zip (later.map span)).head?.map
            (fun (next : Sent × (Int × Int)) => next.2.1) →
          0 ≤ next.getD (layout.frames : Int) - (span sent).2 ∧
            next.getD (layout.frames : Int) ≤ layout.frames ∧
            ∀ other ∈ later, next.getD (layout.frames : Int) ≤ (span other).1 := by
        rintro next rfl
        cases later with
        | nil => exact ⟨by dsimp; omega, Int.le_refl _, nofun⟩
        | cons first later =>
          have hfirst := hlater first List.mem_cons_self
          have hfits := (hinside first (List.mem_append_right _ List.mem_cons_self)).2
          have hspan := hlength first
          show 0 ≤ (span first).1 - (span sent).2 ∧ (span first).1 ≤ layout.frames ∧ _
          refine ⟨by omega, by omega, fun other hmem => ?_⟩
          obtain rfl | hmem := List.mem_cons.mp hmem
          · exact Int.le_refl _
          · have hother := (List.pairwise_cons.mp (List.pairwise_cons.mp hrest).2).1 other hmem
            show (span first).1 ≤ (span other).1
            omega
      obtain ⟨hnonneg, hzero, hearlier⟩ := hspace
      obtain ⟨hnonneg', hfits, hfollow⟩ := hbehind _ rfl
      obtain ⟨hpre, hpreSpace⟩ := marginOf_le hnonneg previous.isSome
      obtain ⟨hpost, hpostSpace⟩ := marginOf_le hnonneg' ((later.zip (later.map span)).head?.map
        (fun (next : Sent × (Int × Int)) => next.2.1)).isSome
      refine ⟨hpre, hpost, ⟨by omega, by omega⟩, fun other hmem hother => ?_⟩
      rw [← hsplit] at hmem
      obtain hmem | hmem := List.mem_append.mp hmem
      · have := hearlier other hmem
        exact .inl (by omega)
      · obtain rfl | hmem := List.mem_cons.mp hmem
        · exact absurd rfl hother
        · have := hfollow other hmem
          exact .inr (by omega)
    · intro stop hstop'
      cases hstop'
      have hspan := hlength sent
      refine ⟨by omega, fun other hmem => ?_, hlater⟩
      obtain hmem | hmem := List.mem_append.mp hmem
      · have hbefore := hcross other hmem sent List.mem_cons_self
        omega
      · rw [List.mem_singleton.mp hmem]

/-! ## A battery on one stream -/

/-- A battery of USB items sent on one stream: `index` is the stream index of an item's first frame,
`base` that of capture frame 0. The capture holds the whole stream part, and its first sound is the
first item's first frame that is predicted not to be 0. -/
structure Battery (capture : WavFile) (items : List Expect) (blocks : Nat → Option Block)
    (after : UsbSnapshot) (before : Option UsbSnapshot)
    (streamOf : Expect → Option (List (List UInt8))) (layout : WavLayout) (anchor : Sent)
    (later : List Sent) (index : Sent → Nat) (base onset : Nat) : Prop where
  names : checkNames blocks items = .ok ()
  opened : before.any (·.streamOpens ≠ after.streamOpens) = false
  parsed : wavLayout capture = .ok layout
  rate : layout.sampleRate = sampleRateHz
  sounding : soundingOf items blocks = anchor :: later
  indexes : ∀ sent ∈ anchor :: later, sent.2.firstFrameIndex = index sent % 2 ^ 32
  ordered : (anchor :: later).Pairwise fun earlier later =>
    index earlier + earlier.2.sentFrames ≤ index later
  span : ∀ sent ∈ anchor :: later, index sent + sent.2.sentFrames < index anchor + 2 ^ 32
  begins : base ≤ index anchor
  ends : ∀ sent ∈ anchor :: later, index sent + sent.2.sentFrames ≤ base + layout.frames
  predicted : predictedOnset (streamOf anchor.1) = some onset
  heard : firstSound capture.bytes layout 0 layout.frames = some (index anchor - base + onset)

/-- The capture frames that hold an item's frames. -/
def placeOf (index : Sent → Nat) (base : Nat) (sent : Sent) : Int × Int :=
  ((index sent : Int) - base, (index sent : Int) - base + sent.2.sentFrames)

/-- Every item that sent frames has a piece: its span is the frames that hold the item, and the
piece holds the whole item and no frame of another. -/
def PlacesAll (capture : WavFile) (items : List Expect) (blocks : Nat → Option Block)
    (after : UsbSnapshot) (before : Option UsbSnapshot)
    (streamOf : Expect → Option (List (List UInt8))) (layout : WavLayout) (sounding : List Sent)
    (index : Sent → Nat) (base : Nat) : Prop :=
  ∃ manifest, splitCapture capture items blocks after before streamOf = .ok manifest ∧
    List.Forall₂ (fun sent piece => ∃ pre post onsetOk silent ok,
        piece = .cut sent.1.item (placeOf index base sent).1 sent.2.sentFrames pre post onsetOk
          silent ok ∧ Holds layout (placeOf index base) sounding sent pre post)
      sounding manifest.pieces

section
variable {capture : WavFile} {items : List Expect} {blocks : Nat → Option Block}
  {after : UsbSnapshot} {before : Option UsbSnapshot}
  {streamOf : Expect → Option (List (List UInt8))} {layout : WavLayout} {anchor : Sent}
  {later : List Sent} {index : Sent → Nat} {base onset : Nat}

/-- The stream counters over the battery. -/
def countersOf (after : UsbSnapshot) (before : Option UsbSnapshot) : UsbSnapshot :=
  { after with
    shortPackets := after.shortPackets - (before.map (·.shortPackets)).getD 0
    stackAsserts := after.stackAsserts - (before.map (·.stackAsserts)).getD 0 }

theorem Battery.splitCapture_eq
    (h : Battery capture items blocks after before streamOf layout anchor later index base onset) :
    splitCapture capture items blocks after before streamOf =
      if index anchor - base + onset = 0 then
        .error (.value s!"{capture.path} begins with sound: start the recorder before PLAYLIST")
      else
        splitAt capture.bytes layout streamOf (countersOf after before) anchor (anchor :: later)
          (otherEntries blocks (anchor :: later) items) onset (index anchor - base + onset) := by
  have hrate : ¬ layout.sampleRate ≠ sampleRateHz := not_not.mpr h.rate
  unfold splitCapture
  rw [h.names, h.opened, h.parsed, h.sounding]
  dsimp only [bind, Except.bind, Except.mapError]
  rw [if_neg Bool.false_ne_true, if_neg hrate, h.predicted]
  dsimp only
  rw [h.heard]
  cases hheard : index anchor - base + onset with
  | zero => rfl
  | succ heard => rfl

/-- The origin `splitCapture` takes. -/
def originOf (anchor : Sent) (index : Sent → Nat) (base onset : Nat) : Int :=
  anchor.2.firstFrameIndex + onset - (index anchor - base + onset : Nat)

theorem Battery.index_le
    (h : Battery capture items blocks after before streamOf layout anchor later index base onset)
    {sent : Sent} (hmem : sent ∈ later) : index anchor + anchor.2.sentFrames ≤ index sent :=
  (List.pairwise_cons.mp h.ordered).1 sent hmem

/-- Blocks of which none wraps behind the anchor's are placed where their frames are. -/
theorem Battery.spanOf_eq
    (h : Battery capture items blocks after before streamOf layout anchor later index base onset)
    (hwrap : ∀ sent ∈ later, index sent / 2 ^ 32 = index anchor / 2 ^ 32) {sent : Sent}
    (hmem : sent ∈ anchor :: later) :
    spanOf (originOf anchor index base onset) sent = placeOf index base sent := by
  have hanchor := h.indexes anchor List.mem_cons_self
  have hsent := h.indexes sent hmem
  have hbase := h.begins
  have hquotient : index sent / 2 ^ 32 = index anchor / 2 ^ 32 := by
    obtain rfl | hmem := List.mem_cons.mp hmem
    · rfl
    · exact hwrap sent hmem
  have hstart : (sent.2.firstFrameIndex : Int) - originOf anchor index base onset =
      (index sent : Int) - base := by
    unfold originOf
    omega
  unfold spanOf placeOf
  rw [hstart]

/-- Every item of a battery gets its own frames exactly if no index wraps behind the anchor's and
the capture does not begin with sound. -/
theorem placesAll_iff
    (h : Battery capture items blocks after before streamOf layout anchor later index base onset) :
    PlacesAll capture items blocks after before streamOf layout (anchor :: later) index base ↔
      (∀ sent ∈ later, index sent / 2 ^ 32 = index anchor / 2 ^ 32) ∧
        0 < index anchor - base + onset := by
  unfold PlacesAll
  rw [h.splitCapture_eq]
  constructor
  · rintro ⟨manifest, hmanifest, -⟩
    split at hmanifest
    · cases hmanifest
    case isFalse hheard =>
    refine ⟨fun sent hmem => ?_, Nat.pos_of_ne_zero hheard⟩
    unfold splitAt at hmanifest
    dsimp only at hmanifest
    cases hspans : spansFrom
        (anchor.2.firstFrameIndex + onset - (index anchor - base + onset : Nat)) none
        (anchor :: later) with
    | error error =>
      rw [hspans] at hmanifest
      cases hmanifest
    | ok spans =>
      obtain ⟨-, hordered⟩ := of_spansFrom hspans
      have hafter := (List.pairwise_cons.mp hordered).1 sent hmem
      have hanchor := h.indexes anchor List.mem_cons_self
      have hsent := h.indexes sent (List.mem_cons_of_mem _ hmem)
      have hspan := h.span sent (List.mem_cons_of_mem _ hmem)
      have hindex := h.index_le hmem
      unfold spanOf at hafter
      dsimp only at hafter
      omega
  · rintro ⟨hwrap, hheard⟩
    have hplace : ∀ sent ∈ anchor :: later,
        spanOf (originOf anchor index base onset) sent = placeOf index base sent :=
      fun sent hmem => h.spanOf_eq hwrap hmem
    have hordered : (anchor :: later).Pairwise fun earlier later =>
        (placeOf index base earlier).2 ≤ (placeOf index base later).1 := by
      refine h.ordered.imp fun {earlier later} hle => ?_
      unfold placeOf
      dsimp only
      omega
    have hspans : spansFrom (originOf anchor index base onset) none (anchor :: later) =
        .ok ((anchor :: later).map (placeOf index base)) := by
      rw [spansFrom_eq (fun stop hstop => by cases hstop), List.map_congr_left hplace]
      exact hordered.imp_of_mem fun {a b} ha hb hle => by rwa [hplace a ha, hplace b hb]
    have hpieces := @holds_of_piecesFrom capture.bytes layout streamOf (placeOf index base)
      (fun sent => by unfold placeOf; dsimp only; omega) [] (anchor :: later) hordered
      (fun sent hmem => ?_) none (fun _ => rfl)
      (fun stop hstop => by cases hstop)
    · rw [if_neg (Nat.ne_of_gt hheard)]
      unfold originOf at hspans
      unfold splitAt
      dsimp only
      rw [hspans]
      refine ⟨_, rfl, hpieces.imp fun sent piece hpiece => ?_⟩
      obtain ⟨pre, post, onsetOk, silent, ok, rfl, hholds⟩ := hpiece
      refine ⟨pre, post, onsetOk, silent, ok, ?_, hholds⟩
      congr 1
      unfold placeOf
      dsimp only
      omega
    · have hends := h.ends sent hmem
      have hbegins := h.begins
      have hindex : index anchor ≤ index sent := by
        obtain rfl | hmem := List.mem_cons.mp hmem
        · exact Nat.le_refl _
        · exact Nat.le_trans (Nat.le_add_right _ _) (h.index_le hmem)
      unfold placeOf
      dsimp only
      omega

end

/-! ## Two items of two frames -/

def twoItems : List Expect := [{ item := 1, file := "A.WAV" }, { item := 2, file := "B.WAV" }]

/-- The blocks of the items, the second three frames behind the first. -/
def twoBlocks (first : Nat) : Nat → Option Block
  | 1 => some { file := "A.WAV", sentFrames := 2, firstFrameIndex := first % 2 ^ 32 }
  | 2 => some { file := "B.WAV", sentFrames := 2, firstFrameIndex := (first + 3) % 2 ^ 32 }
  | _ => none

def twoIndexes (first : Nat) (sent : Sent) : Nat := if sent.1.item = 1 then first else first + 3

/-- A silent frame, the first item's, a silent one, the second item's and a silent one. -/
def twoCapture : WavFile :=
  captureOf [0, 0, 0, 0, 0, 1, 0, 0, 0, 2, 0, 0, 0, 0, 0, 0, 0, 3, 0, 0, 0, 4, 0, 0, 0, 0, 0, 0]

def twoLayout : WavLayout :=
  ⟨le16 1 ++ le16 1 ++ le32 48000 ++ le32 192000 ++ le16 4 ++ le16 32, 44, 7, 4, 48000⟩

def twoStreams (expect : Expect) : Option (List (List UInt8)) :=
  some (if expect.item = 1 then [[1, 0, 0, 2, 0, 0]] else [[3, 0, 0, 4, 0, 0]])

def oneOpen : UsbSnapshot := ⟨1, 0, 0⟩

def firstSent (first : Nat) : Sent :=
  ({ item := 1, file := "A.WAV" },
    { file := "A.WAV", sentFrames := 2, firstFrameIndex := first % 2 ^ 32 })

def secondSent (first : Nat) : Sent :=
  ({ item := 2, file := "B.WAV" },
    { file := "B.WAV", sentFrames := 2, firstFrameIndex := (first + 3) % 2 ^ 32 })

theorem battery_two (base : Nat) :
    Battery twoCapture twoItems (twoBlocks (base + 1)) oneOpen none twoStreams twoLayout
      (firstSent (base + 1)) [secondSent (base + 1)] (twoIndexes (base + 1)) base 0 where
  names := rfl
  opened := rfl
  parsed := by decide +kernel
  rate := rfl
  sounding := rfl
  indexes := by
    rintro sent hmem
    obtain rfl | hmem := List.mem_cons.mp hmem
    · rfl
    · rw [List.mem_singleton.mp hmem]
      rfl
  ordered := by
    refine List.pairwise_cons.mpr ⟨fun sent hmem => ?_, List.pairwise_singleton _ _⟩
    rw [List.mem_singleton.mp hmem]
    show base + 1 + 2 ≤ base + 1 + 3
    omega
  span := by
    rintro sent hmem
    show twoIndexes (base + 1) sent + sent.2.sentFrames < base + 1 + 2 ^ 32
    obtain rfl | hmem := List.mem_cons.mp hmem
    · show base + 1 + 2 < _
      omega
    · rw [List.mem_singleton.mp hmem]
      show base + 1 + 3 + 2 < _
      omega
  begins := Nat.le_succ base
  ends := by
    rintro sent hmem
    obtain rfl | hmem := List.mem_cons.mp hmem
    · show base + 1 + 2 ≤ base + 7
      omega
    · rw [List.mem_singleton.mp hmem]
      show base + 1 + 3 + 2 ≤ base + 7
      omega
  predicted := rfl
  heard := by
    have hbase : twoIndexes (base + 1) (firstSent (base + 1)) - base + 0 = 1 := by
      show base + 1 - base + 0 = 1
      omega
    rw [hbase]
    decide +kernel

/-- A battery at index 10 of the stream is cut. -/
theorem placesAll_iff_ten :
    PlacesAll twoCapture twoItems (twoBlocks 10) oneOpen none twoStreams twoLayout
      [firstSent 10, secondSent 10] (twoIndexes 10) 9 :=
  (placesAll_iff (battery_two 9)).mpr ⟨by decide, by decide⟩

/-- A battery whose second item lies behind the wrap of the index is refused. -/
theorem not_placesAll_wrapped :
    Battery twoCapture twoItems (twoBlocks 4294967295) oneOpen none twoStreams twoLayout
        (firstSent 4294967295) [secondSent 4294967295] (twoIndexes 4294967295) 4294967294 0 ∧
      splitCapture twoCapture twoItems (twoBlocks 4294967295) oneOpen none twoStreams =
        .error (.value ("item 2 begins before the item before it ends: " ++
          "the blocks are not one stream's")) ∧
      ¬ PlacesAll twoCapture twoItems (twoBlocks 4294967295) oneOpen none twoStreams twoLayout
        [firstSent 4294967295, secondSent 4294967295] (twoIndexes 4294967295) 4294967294 := by
  have hrefused : splitCapture twoCapture twoItems (twoBlocks 4294967295) oneOpen none twoStreams =
      .error (.value ("item 2 begins before the item before it ends: " ++
        "the blocks are not one stream's")) := by
    rw [(battery_two 4294967294).splitCapture_eq]
    decide +kernel
  refine ⟨battery_two 4294967294, hrefused, ?_⟩
  rintro ⟨manifest, hmanifest, -⟩
  rw [hrefused] at hmanifest
  cases hmanifest

end WaveformGenerator.Host

import WaveformGenerator.Host.CutGlobal

/-!
# Where the seams of a looped item land (`host/make_playlist.py`)

`seamPositions` walks the segments of a cut stream with the seams still to be placed. The stream
itself is a list of output frames and zeros, and an entry that takes effect is paired with what
`apply` noted of it.
-/

namespace WaveformGenerator.Host

/-! ## The walk over the segments -/

/-- `range(period, frames, period)`. -/
def seamFrames (period frames : Nat) : List Nat :=
  (List.range ((frames - 1) / period)).map fun pass => (pass + 1) * period

/-- The variables of the loop: the seams not placed yet, and of those placed the position and the
place. -/
structure SeamWalk where
  placed : List (Option Nat × Nat) := []
  pending : List Nat
  position : Nat := 0
  deriving DecidableEq, Repr

/-- The body of the loop. -/
def SeamWalk.segment (walk : SeamWalk) (segment : Segment) : SeamWalk :=
  match segment.cardFrame with
  | none => { walk with position := walk.position + segment.frames }
  | some cardFrame =>
    -- A DROP removed it: its place is where the stream resumes.
    let removed := walk.pending.takeWhile (· < cardFrame)
    let pending := walk.pending.dropWhile (· < cardFrame)
    let sent := pending.takeWhile (· < cardFrame + segment.frames)
    { placed := walk.placed ++ removed.map (fun _ => (none, walk.position)) ++
        sent.map fun seam =>
          (some (walk.position + seam - cardFrame), walk.position + seam - cardFrame)
      pending := pending.dropWhile (· < cardFrame + segment.frames)
      position := walk.position + segment.frames }

/-- Each seam's position and place; those the loop leaves are behind the stream. -/
def seamPlaces (stream : CutStream) (period frames : Nat) : List (Option Nat × Nat) :=
  let walk := stream.segments.foldl SeamWalk.segment { pending := seamFrames period frames }
  walk.placed ++ walk.pending.map fun _ => (none, stream.frames)

def seamPositions (stream : CutStream) (period frames : Nat) (sent : Option Nat := none) :
    List (Option Nat) :=
  let seams := seamPlaces stream period frames
  match sent with
  | none => seams.map (·.1)
  | some sent =>
    let whole := sent = stream.frames
    (seams.filter fun seam =>
      if seam.1.isSome then seam.2 < sent else seam.2 < sent || whole).map (·.1)

/-! ## A stream frame by frame -/

def Segment.content (segment : Segment) : List (Option Nat) :=
  match segment.cardFrame with
  | none => List.replicate segment.frames none
  | some cardFrame => (List.range segment.frames).map fun frame => some (cardFrame + frame)

/-- The output frame sent at each place of the stream, or none for a zero. -/
def CutStream.content (stream : CutStream) : List (Option Nat) :=
  stream.segments.flatMap Segment.content

/-- The place of an output frame in the stream. -/
def CutStream.positionOf (stream : CutStream) (frame : Nat) : Option Nat :=
  stream.content.findIdx? (· = some frame)

/-- The entries that take effect, each with what `apply` noted of it. -/
def CutStream.cuts (stream : CutStream) (entries : List CutEntry) (fileFrames : Nat) :
    List (CutEntry × AppliedCut) :=
  (entries.filter (·.offset < fileFrames)).zip stream.applied

/-- A DROP that takes an output frame. -/
def takes (cut : CutEntry × AppliedCut) (frame : Nat) : Bool :=
  cut.1.kind = .drop && cut.1.offset ≤ frame && frame < cut.1.offset + cut.2.frames

/-- Whether `tally` counts a cut within the first `sent` frames. -/
def CutStream.counts (stream : CutStream) (sent : Nat) (cut : AppliedCut) : Bool :=
  sent > cut.position || (sent = stream.frames && cut.position = stream.frames)

/-- A seam within the first `sent` frames: its frame was sent, or its DROP took effect. -/
def CutStream.reaches (stream : CutStream) (entries : List CutEntry) (fileFrames sent seam : Nat) :
    Bool :=
  match stream.positionOf seam with
  | some position => position < sent
  | none => (stream.cuts entries fileFrames).any fun cut =>
      takes cut seam && stream.counts sent cut.2

theorem Tally.cut_count (stream : CutStream) (tally : Tally) (cut : AppliedCut) :
    (tally.cut stream cut).cutCount =
        tally.cutCount + (if stream.counts tally.sentFrames cut then 1 else 0) ∧
      (tally.cut stream cut).sentFrames = tally.sentFrames := by
  have hcounts : (tally.sentFrames > cut.position ∨
      (tally.sentFrames = stream.frames ∧ cut.position = stream.frames)) ↔
        stream.counts tally.sentFrames cut = true := by
    unfold CutStream.counts
    rw [Bool.or_eq_true, Bool.and_eq_true, decide_eq_true_eq, decide_eq_true_eq, decide_eq_true_eq]
  unfold Tally.cut
  dsimp only
  split
  case isTrue hnot =>
    rw [if_neg (mt hcounts.mpr hnot)]
    exact ⟨rfl, rfl⟩
  case isFalse hcounted =>
    rw [if_pos (hcounts.mp (not_not.mp hcounted))]
    split <;> exact ⟨rfl, rfl⟩

/-- The cuts `counts` is true of are those `tally` counts. -/
theorem cutCount_of_tally {stream : CutStream} {sent : Nat} (hsent : sent ≤ stream.frames) :
    ∃ result, tally stream (some sent) = .ok result ∧
      result.cutCount = stream.applied.countP (stream.counts sent) := by
  have hfold : ∀ (cuts : List AppliedCut) (start : Tally), start.sentFrames = sent →
      (cuts.foldl (Tally.cut stream) start).cutCount =
        start.cutCount + cuts.countP (stream.counts sent) := by
    intro cuts
    induction cuts with
    | nil => exact fun _ _ => rfl
    | cons cut later ih =>
      intro start hstart
      obtain ⟨hcount, hsent⟩ := start.cut_count stream cut
      rw [List.foldl_cons, ih _ (hsent.trans hstart), hcount, hstart, List.countP_cons]
      omega
  unfold tally
  dsimp only [Option.getD_some]
  rw [if_neg (Nat.not_lt.mpr hsent)]
  exact ⟨_, rfl, (hfold stream.applied _ rfl).trans (Nat.zero_add _)⟩

/-- What the positions of a looped item's seams should be, without `sent` and with it. -/
structure SeamsExact (entries : List CutEntry) (stream : CutStream) (period fileFrames sent : Nat) :
    Prop where
  all : seamPositions stream period fileFrames =
    (seamFrames period fileFrames).map stream.positionOf
  dropped : ∀ seam ∈ seamFrames period fileFrames, stream.positionOf seam = none ↔
    ∃ cut ∈ stream.cuts entries fileFrames, takes cut seam
  within : seamPositions stream period fileFrames (some sent) =
    ((seamFrames period fileFrames).filter (stream.reaches entries fileFrames sent)).map
      stream.positionOf

/-! ## The walk places each seam where the stream has its frame -/

/-- A stream's output frames come in order. -/
def Increasing (content : List (Option Nat)) : Prop :=
  content.Pairwise fun earlier later => ∀ x ∈ earlier, ∀ y ∈ later, x < y

/-- Where a seam is in the stream from place `base` on, and the first place of it or behind it. -/
def landing (content : List (Option Nat)) (base seam : Nat) : Option Nat × Nat :=
  ((content.findIdx? (· = some seam)).map (base + ·),
    base + content.findIdx fun sent => sent.any (seam ≤ ·))

theorem landing_append_of_lt {before : List (Option Nat)} {seam : Nat}
    (h : ∀ sent ∈ before, ∀ frame ∈ sent, frame < seam) (content : List (Option Nat)) (base : Nat) :
    landing (before ++ content) base seam = landing content (base + before.length) seam := by
  have hnot : before.findIdx? (· = some seam) = none := by
    rw [List.findIdx?_eq_none_iff]
    intro sent hmem
    refine decide_eq_false fun heq => ?_
    exact Nat.lt_irrefl seam (h sent hmem seam heq)
  have hplace : before.findIdx (fun sent => sent.any (seam ≤ ·)) = before.length := by
    rw [List.findIdx_eq_length]
    intro sent hmem
    rw [Option.any_eq_false]
    intro frame hframe
    exact decide_eq_false (Nat.not_le.mpr (h sent hmem frame hframe))
  unfold landing
  rw [List.findIdx?_append, hnot, List.findIdx_append, hplace, if_neg (Nat.lt_irrefl _),
    Option.none_or, Option.map_map]
  refine Prod.ext (congrArg (Option.map · _) ?_) ?_
  · funext place
    show base + (place + before.length) = base + before.length + place
    omega
  · show base + (_ + before.length) = base + before.length + _
    omega

/-- A seam a DROP removed is none of the frames behind, and its place is where they begin. -/
theorem landing_of_gt {card seam : Nat} {content : List (Option Nat)}
    (hfirst : content.head? = some (some card)) (h : Increasing content) (hseam : seam < card)
    (base : Nat) : landing content base seam = (none, base) := by
  cases content with
  | nil => cases hfirst
  | cons sent later =>
    rw [List.head?_cons, Option.some.injEq] at hfirst
    subst hfirst
    obtain ⟨hlater, -⟩ := List.pairwise_cons.mp h
    have hnot : (some card :: later).findIdx? (· = some seam) = none := by
      rw [List.findIdx?_eq_none_iff]
      intro sent hmem
      refine decide_eq_false fun heq => ?_
      obtain hsame | hmem := List.mem_cons.mp hmem
      · rw [heq, Option.some.injEq] at hsame
        omega
      · have := hlater sent hmem card rfl seam heq
        omega
    unfold landing
    rw [hnot, List.findIdx_cons, Option.any_some, decide_eq_true (Nat.le_of_lt hseam)]
    rfl

theorem content_card (card frames : Nat) :
    (Segment.mk (some card) frames).content =
      (List.range frames).map fun frame => some (card + frame) := rfl

/-- A seam within a run of output frames lands on its frame. -/
theorem landing_of_mem {card frames seam : Nat} (hcard : card ≤ seam) (hseam : seam < card + frames)
    (content : List (Option Nat)) (base : Nat) :
    landing ((Segment.mk (some card) frames).content ++ content) base seam =
      (some (base + seam - card), base + seam - card) := by
  rw [content_card]
  obtain ⟨before, rfl⟩ : ∃ before, frames = (seam - card) + (before + 1) :=
    ⟨frames - (seam - card) - 1, by omega⟩
  rw [List.range_add, List.map_append, List.append_assoc, landing_append_of_lt]
  · rw [List.length_map, List.length_range, List.range_succ_eq_map, List.map_cons, List.map_cons,
      List.cons_append]
    have hhere : card + (seam - card + 0) = seam := by omega
    unfold landing
    rw [hhere, List.findIdx?_cons, decide_eq_true rfl, List.findIdx_cons, Option.any_some,
      decide_eq_true (Nat.le_refl seam)]
    refine Prod.ext ?_ ?_
    · show some (base + (seam - card) + 0) = some (base + seam - card)
      congr 1
      omega
    · show base + (seam - card) + 0 = base + seam - card
      omega
  · intro sent hmem frame hframe
    obtain ⟨index, hindex, rfl⟩ := List.mem_map.mp hmem
    rw [List.mem_range] at hindex
    cases hframe
    omega

theorem lt_of_mem_takeWhile {limit seam : Nat} {seams : List Nat}
    (h : seam ∈ seams.takeWhile (· < limit)) : seam < limit := by
  induction seams with
  | nil => cases h
  | cons first later ih =>
    rw [List.takeWhile_cons] at h
    split at h
    case isTrue hlimit =>
      obtain rfl | hmem := List.mem_cons.mp h
      · exact of_decide_eq_true hlimit
      · exact ih hmem
    · cases h

theorem le_of_mem_dropWhile {limit seam : Nat} {seams : List Nat} (hsorted : seams.Pairwise (· < ·))
    (h : seam ∈ seams.dropWhile (· < limit)) : limit ≤ seam := by
  induction seams with
  | nil => cases h
  | cons first later ih =>
    obtain ⟨hfirst, hlater⟩ := List.pairwise_cons.mp hsorted
    rw [List.dropWhile_cons] at h
    split at h
    · exact ih hlater h
    case isFalse hlimit =>
      rw [decide_eq_true_eq] at hlimit
      obtain rfl | hmem := List.mem_cons.mp h
      · exact Nat.not_lt.mp hlimit
      · have := hfirst seam hmem
        omega

theorem landings_of_segments {segments : List Segment}
    (hpositive : ∀ segment ∈ segments, segment.cardFrame ≠ none → 0 < segment.frames)
    (h : Increasing (segments.flatMap Segment.content)) (walk : SeamWalk)
    (hsorted : walk.pending.Pairwise (· < ·)) :
    (segments.foldl SeamWalk.segment walk).placed ++
        (segments.foldl SeamWalk.segment walk).pending.map (fun _ =>
          (none, walk.position + (segments.flatMap Segment.content).length)) =
      walk.placed ++
        walk.pending.map (landing (segments.flatMap Segment.content) walk.position) := by
  induction segments generalizing walk with
  | nil => rfl
  | cons segment later ih =>
    obtain ⟨cardFrame, frames⟩ := segment
    have hlength : (Segment.mk cardFrame frames).content.length = frames := by
      cases cardFrame with
      | none => exact List.length_replicate
      | some card => rw [content_card, List.length_map, List.length_range]
    rw [List.flatMap_cons] at h
    obtain ⟨-, hlater, -⟩ := List.pairwise_append.mp h
    have hrest := fun walk =>
      ih (fun segment hmem => hpositive segment (List.mem_cons_of_mem _ hmem)) hlater walk
    rw [List.foldl_cons, List.flatMap_cons, List.length_append, hlength, ← Nat.add_assoc]
    cases cardFrame with
    | none =>
      refine (hrest { walk with position := walk.position + frames } hsorted).trans ?_
      congr 1
      refine List.map_congr_left fun seam _ => ?_
      rw [landing_append_of_lt, hlength]
      intro sent hmem frame hframe
      rw [List.eq_of_mem_replicate hmem] at hframe
      cases hframe
    | some card =>
      have hframes : 0 < frames := hpositive _ List.mem_cons_self nofun
      have hsplit := List.takeWhile_append_dropWhile (p := (· < card)) (l := walk.pending)
      have hlate : ∀ seam ∈ walk.pending.dropWhile (· < card), card ≤ seam :=
        fun seam => le_of_mem_dropWhile hsorted
      have hsorted' := hsorted.sublist (List.dropWhile_sublist (· < card))
      generalize hremoved : walk.pending.takeWhile (· < card) = removed at *
      generalize hpending : walk.pending.dropWhile (· < card) = pending at *
      have hsplit' := List.takeWhile_append_dropWhile (p := (· < card + frames)) (l := pending)
      have hbehind : ∀ seam ∈ pending.dropWhile (· < card + frames), card + frames ≤ seam :=
        fun seam => le_of_mem_dropWhile hsorted'
      have hstep : walk.segment ⟨some card, frames⟩ =
          { placed := walk.placed ++ removed.map (fun _ => (none, walk.position)) ++
              (pending.takeWhile (· < card + frames)).map fun seam =>
                (some (walk.position + seam - card), walk.position + seam - card)
            pending := pending.dropWhile (· < card + frames)
            position := walk.position + frames } := by
        rw [← hremoved, ← hpending]
        rfl
      rw [hstep]
      refine (hrest _ (hsorted'.sublist (List.dropWhile_sublist _))).trans ?_
      have hparts : ∀ place : Nat → Option Nat × Nat, pending.map place =
          (pending.takeWhile (· < card + frames)).map place ++
            (pending.dropWhile (· < card + frames)).map place := by
        intro place
        rw [← List.map_append, hsplit']
      dsimp only
      rw [← hsplit, List.map_append, hparts, List.append_assoc, List.append_assoc]
      congr 2
      · refine List.map_congr_left fun seam hmem => ?_
        have hhead : ((Segment.mk (some card) frames).content ++
            later.flatMap Segment.content).head? = some (some card) := by
          obtain ⟨frames, rfl⟩ := Nat.exists_eq_succ_of_ne_zero (Nat.ne_of_gt hframes)
          rw [content_card, List.range_succ_eq_map]
          rfl
        exact (landing_of_gt hhead h (lt_of_mem_takeWhile (hremoved ▸ hmem)) _).symm
      congr 1
      · refine List.map_congr_left fun seam hmem => ?_
        have hmem' := (List.takeWhile_sublist _).subset hmem
        exact (landing_of_mem (hlate seam hmem') (lt_of_mem_takeWhile hmem) _ _).symm
      · refine List.map_congr_left fun seam hmem => ?_
        rw [landing_append_of_lt, hlength]
        intro sent hsent frame hframe
        rw [content_card] at hsent
        obtain ⟨index, hindex, rfl⟩ := List.mem_map.mp hsent
        rw [List.mem_range] at hindex
        cases hframe
        have := hbehind seam hmem
        omega

/-! ## The stream of a schedule -/

/-- What the walk of `apply` has placed once it stands at output frame `at_`: the frames before it
in order, but for those a DROP took, each DROP between what comes before it and what is behind. -/
structure Placed (fileFrames : Nat) (taken : List CutEntry) (walk : Walk) : Prop where
  le : walk.at_ ≤ fileFrames
  length : (walk.segments.flatMap Segment.content).length = walk.sent
  applied : walk.applied.length = taken.length
  below : ∀ frame, some frame ∈ walk.segments.flatMap Segment.content → frame < walk.at_
  positive : ∀ segment ∈ walk.segments, segment.cardFrame ≠ none → 0 < segment.frames
  increasing : Increasing (walk.segments.flatMap Segment.content)
  covered : ∀ frame, frame < walk.at_ →
    some frame ∈ walk.segments.flatMap Segment.content ∨
      ∃ cut ∈ taken.zip walk.applied, takes cut frame = true
  drop : ∀ cut ∈ taken.zip walk.applied, cut.1.kind = .drop →
    cut.1.offset + cut.2.frames ≤ walk.at_ ∧ cut.2.position ≤ walk.sent ∧
      (∀ frame, some frame ∈ (walk.segments.flatMap Segment.content).take cut.2.position →
        frame < cut.1.offset) ∧
      ∀ frame, some frame ∈ (walk.segments.flatMap Segment.content).drop cut.2.position →
        cut.1.offset + cut.2.frames ≤ frame

theorem placed_start (fileFrames : Nat) : Placed fileFrames [] {} where
  le := Nat.zero_le _
  length := rfl
  applied := rfl
  below := nofun
  positive := nofun
  increasing := .nil
  covered := nofun
  drop := nofun

section
variable {fileFrames : Nat} {taken : List CutEntry} {walk : Walk}

/-- Frames put behind the stream, from `at_` on or zeros. -/
theorem Placed.append (h : Placed fileFrames taken walk) {segment : Segment} {stop : Nat}
    (hat : walk.at_ ≤ stop) (hto : stop ≤ fileFrames)
    (hpositive : segment.cardFrame ≠ none → 0 < segment.frames)
    (hlength : segment.content.length = segment.frames)
    (hincreasing : Increasing segment.content)
    (hframes : ∀ frame, some frame ∈ segment.content ↔ walk.at_ ≤ frame ∧ frame < stop) :
    Placed fileFrames taken
      { walk with
        segments := walk.segments ++ [segment]
        at_ := stop
        sent := walk.sent + segment.frames } := by
  have hcontent : (walk.segments ++ [segment]).flatMap Segment.content =
      walk.segments.flatMap Segment.content ++ segment.content := by
    rw [List.flatMap_append, List.flatMap_singleton]
  refine ⟨hto, ?_, h.applied, ?_, ?_, ?_, ?_, ?_⟩
  · dsimp only
    rw [hcontent, List.length_append, h.length, hlength]
  · intro frame hmem
    dsimp only at hmem ⊢
    rw [hcontent, List.mem_append] at hmem
    obtain hmem | hmem := hmem
    · exact Nat.lt_of_lt_of_le (h.below frame hmem) hat
    · exact ((hframes frame).mp hmem).2
  · intro other hmem
    obtain hmem | hmem := List.mem_append.mp hmem
    · exact h.positive other hmem
    · rw [List.mem_singleton.mp hmem]
      exact hpositive
  · dsimp only
    rw [hcontent]
    refine List.pairwise_append.mpr ⟨h.increasing, hincreasing, ?_⟩
    rintro earlier hearlier later hlater x hx y hy
    cases hx
    cases hy
    exact Nat.lt_of_lt_of_le (h.below x hearlier) ((hframes y).mp hlater).1
  · intro frame hframe
    dsimp only at hframe ⊢
    rw [hcontent, List.mem_append]
    by_cases hbefore : frame < walk.at_
    · exact (h.covered frame hbefore).imp_left .inl
    · exact .inl (.inr ((hframes frame).mpr ⟨Nat.not_lt.mp hbefore, hframe⟩))
  · intro cut hmem hkind
    obtain ⟨hend, hposition, hbefore, hafter⟩ := h.drop cut hmem hkind
    dsimp only
    rw [hcontent, List.take_append_of_le_length (h.length ▸ hposition),
      List.drop_append_of_le_length (h.length ▸ hposition)]
    refine ⟨Nat.le_trans hend hat, by omega, hbefore, ?_⟩
    intro frame hframe
    obtain hframe | hframe := List.mem_append.mp hframe
    · exact hafter frame hframe
    · exact Nat.le_trans hend ((hframes frame).mp hframe).1

/-- Output frames up to `stop`. -/
theorem Placed.advance (h : Placed fileFrames taken walk) {stop : Nat} (hat : walk.at_ ≤ stop)
    (hto : stop ≤ fileFrames) : Placed fileFrames taken { walk.advance stop with at_ := stop } := by
  unfold Walk.advance
  split
  case isTrue hmore =>
    refine h.append hat hto (fun _ => Nat.sub_pos_of_lt hmore) ?_ ?_ ?_
    · rw [content_card, List.length_map, List.length_range]
    · rw [content_card]
      refine List.pairwise_map.mpr (List.pairwise_lt_range.imp ?_)
      intro x y hxy a ha b hb
      cases ha
      cases hb
      omega
    · intro frame
      rw [content_card, List.mem_map]
      constructor
      · rintro ⟨index, hindex, heq⟩
        rw [List.mem_range] at hindex
        cases heq
        omega
      · rintro ⟨hle, hlt⟩
        exact ⟨frame - walk.at_, List.mem_range.mpr (by omega), congrArg some (by omega)⟩
  case isFalse hnone =>
    have hsame : walk.at_ = stop := by omega
    subst hsame
    exact h

/-- The zeros of a ZERO. -/
theorem Placed.zeros (h : Placed fileFrames taken walk) {entry : CutEntry}
    (hkind : entry.kind = .zero) :
    Placed fileFrames (taken ++ [entry])
      { walk with
        applied := walk.applied ++ [⟨walk.sent, entry.length, .zero⟩]
        segments := walk.segments ++ [⟨none, entry.length⟩]
        sent := walk.sent + entry.length } := by
  have hnone : ∀ frame, some frame ∉ (Segment.mk none entry.length).content := fun frame hmem => by
    cases List.eq_of_mem_replicate hmem
  have hafter : Placed fileFrames taken
      { walk with
        segments := walk.segments ++ [⟨none, entry.length⟩]
        at_ := walk.at_
        sent := walk.sent + entry.length } := by
    refine h.append (Nat.le_refl _) h.le (absurd rfl) List.length_replicate ?_ ?_
    · refine List.pairwise_replicate.mpr (.inr ?_)
      exact nofun
    · intro frame
      exact iff_of_false (hnone frame) (by omega)
  have hzip : (taken ++ [entry]).zip (walk.applied ++ [⟨walk.sent, entry.length, .zero⟩]) =
      taken.zip walk.applied ++ [(entry, ⟨walk.sent, entry.length, .zero⟩)] :=
    List.zip_append h.applied.symm
  refine ⟨hafter.le, hafter.length, ?_, hafter.below, hafter.positive, hafter.increasing, ?_, ?_⟩
  · dsimp only
    rw [List.length_append, List.length_append, h.applied]
    rfl
  · intro frame hframe
    dsimp only
    rw [hzip]
    refine (hafter.covered frame hframe).imp_right ?_
    rintro ⟨cut, hmem, htakes⟩
    exact ⟨cut, List.mem_append_left _ hmem, htakes⟩
  · intro cut hmem hdrop
    dsimp only at hmem
    rw [hzip] at hmem
    obtain hmem | hmem := List.mem_append.mp hmem
    · exact hafter.drop cut hmem hdrop
    · rw [List.mem_singleton.mp hmem, hkind] at hdrop
      cases hdrop

/-- The frames a DROP takes. -/
theorem Placed.skip (h : Placed fileFrames taken walk) {entry : CutEntry}
    (hkind : entry.kind = .drop) (hat : walk.at_ = entry.offset) :
    Placed fileFrames (taken ++ [entry])
      { walk with
        applied := walk.applied ++
          [⟨walk.sent, min entry.length (fileFrames - walk.at_), .drop⟩]
        at_ := walk.at_ + min entry.length (fileFrames - walk.at_) } := by
  generalize hskipped : min entry.length (fileFrames - walk.at_) = skipped
  have hle := h.le
  have hzip : (taken ++ [entry]).zip (walk.applied ++ [⟨walk.sent, skipped, .drop⟩]) =
      taken.zip walk.applied ++ [(entry, ⟨walk.sent, skipped, .drop⟩)] :=
    List.zip_append h.applied.symm
  refine ⟨by dsimp only; omega, h.length, ?_, ?_, h.positive, h.increasing, ?_, ?_⟩
  · dsimp only
    rw [List.length_append, List.length_append, h.applied]
    rfl
  · intro frame hmem
    exact Nat.lt_of_lt_of_le (h.below frame hmem) (Nat.le_add_right _ _)
  · intro frame hframe
    dsimp only at hframe ⊢
    rw [hzip]
    by_cases hbefore : frame < walk.at_
    · refine (h.covered frame hbefore).imp_right ?_
      rintro ⟨cut, hmem, htakes⟩
      exact ⟨cut, List.mem_append_left _ hmem, htakes⟩
    · refine .inr ⟨_, List.mem_append_right _ List.mem_cons_self, ?_⟩
      unfold takes
      rw [hkind, ← hat, Bool.and_eq_true, Bool.and_eq_true]
      exact ⟨⟨rfl, decide_eq_true (by omega)⟩, decide_eq_true hframe⟩
  · intro cut hmem hdrop
    dsimp only at hmem ⊢
    rw [hzip] at hmem
    obtain hmem | hmem := List.mem_append.mp hmem
    · obtain ⟨hend, hposition, hbefore, hafter⟩ := h.drop cut hmem hdrop
      exact ⟨Nat.le_trans hend (Nat.le_add_right _ _), hposition, hbefore, hafter⟩
    · rw [List.mem_singleton.mp hmem]
      dsimp only
      rw [← hat, ← h.length, List.take_length, List.drop_length]
      exact ⟨Nat.le_refl _, Nat.le_refl _, h.below, nofun⟩

/-- One entry: past the output's end it is rejected, else its DROP or ZERO is placed. -/
theorem Placed.entry (h : Placed fileFrames taken walk) {entry : CutEntry}
    (hat : entry.offset < fileFrames → walk.at_ ≤ entry.offset) :
    Placed fileFrames (taken ++ [entry].filter (·.offset < fileFrames))
        (walk.entry fileFrames entry) ∧
      (walk.entry fileFrames entry).at_ ≤
        max walk.at_ (entry.offset + if entry.kind = .drop then entry.length else 0) := by
  unfold Walk.entry
  split
  case isTrue hpast =>
    rw [List.filter_cons_of_neg (by rw [decide_eq_true_eq]; omega), List.filter_nil,
      List.append_nil]
    exact ⟨⟨h.le, h.length, h.applied, h.below, h.positive, h.increasing, h.covered, h.drop⟩,
      Nat.le_max_left _ _⟩
  case isFalse hpast =>
    rw [ge_iff_le, Nat.not_le] at hpast
    have hthere := h.advance (hat hpast) (Nat.le_of_lt hpast)
    rw [List.filter_cons_of_pos (by rwa [decide_eq_true_eq]), List.filter_nil]
    dsimp only
    split
    case isTrue hzero =>
      refine ⟨hthere.zeros hzero, ?_⟩
      show entry.offset ≤ _
      omega
    case isFalse hzero =>
      have hdrop : entry.kind = .drop := by
        cases hkind : entry.kind with
        | drop => rfl
        | zero => exact absurd hkind hzero
      refine ⟨hthere.skip hdrop rfl, ?_⟩
      rw [if_pos hdrop]
      show entry.offset + min entry.length (fileFrames - entry.offset) ≤ _
      omega

theorem Placed.entries (h : Placed fileFrames taken walk) {entries : List CutEntry}
    (hordered : entries.Pairwise Before)
    (hat : ∀ entry ∈ entries, entry.offset < fileFrames → walk.at_ ≤ entry.offset) :
    Placed fileFrames (taken ++ entries.filter (·.offset < fileFrames))
      (entries.foldl (Walk.entry fileFrames) walk) := by
  induction entries generalizing taken walk with
  | nil =>
    rw [List.filter_nil, List.append_nil]
    exact h
  | cons entry later ih =>
    obtain ⟨hbefore, hlater⟩ := List.pairwise_cons.mp hordered
    obtain ⟨hnext, hle⟩ := h.entry (hat entry List.mem_cons_self)
    have hsplit : (entry :: later).filter (·.offset < fileFrames) =
        [entry].filter (·.offset < fileFrames) ++ later.filter (·.offset < fileFrames) := by
      rw [← List.filter_append]
      rfl
    rw [hsplit, ← List.append_assoc]
    refine ih hnext hlater fun other hmem hother => Nat.le_trans hle ?_
    have hprior := hat other (List.mem_cons_of_mem _ hmem) hother
    have hsorted := (hbefore other hmem).sorted
    have hcovered := (hbefore other hmem).covered
    split
    case isTrue hdrop =>
      have := hcovered hdrop
      omega
    · omega

end

/-- A schedule `validate` takes is returned as it is. -/
theorem eq_of_validate {entries checked : List CutEntry} (h : validate entries = .ok checked) :
    checked = entries := by
  unfold validate at h
  split at h
  · cases h
  cases hlengths : checkLengths entries with
  | error error =>
    rw [hlengths] at h
    cases h
  | ok =>
    cases hneighbours : checkNeighbours entries with
    | error error =>
      rw [hlengths, hneighbours] at h
      cases h
    | ok =>
      rw [hlengths, hneighbours] at h
      change (if dropBalance entries > maxDropBalance then _ else _) = _ at h
      split at h
      · cases h
      · cases h
        rfl

/-- The stream of a valid schedule. -/
theorem placed_of_apply {entries : List CutEntry} {fileFrames : Nat} {stream : CutStream}
    (happly : apply entries fileFrames = .ok stream) :
    ∃ walk, Placed fileFrames (entries.filter (·.offset < fileFrames)) walk ∧
      walk.at_ = fileFrames ∧ stream.segments = walk.segments ∧ stream.applied = walk.applied ∧
      stream.frames = walk.sent := by
  unfold apply at happly
  cases hvalid : validate entries with
  | error error =>
    rw [hvalid] at happly
    cases happly
  | ok checked =>
    rw [hvalid] at happly
    obtain rfl := eq_of_validate hvalid
    obtain ⟨-, hlengths, hneighbours, -⟩ := (validate_iff checked).mp hvalid
    have hcounts : ∀ entry ∈ checked, 0 < entry.length := fun entry hmem =>
      ((checkLengths_iff checked).mp hlengths entry hmem).1
    have hwalk := (placed_start fileFrames).entries ((checkNeighbours_iff hcounts).mp hneighbours)
      fun _ _ _ => Nat.zero_le _
    rw [List.nil_append] at hwalk
    cases happly
    refine ⟨_, hwalk.advance hwalk.le (Nat.le_refl _), rfl, ?_⟩
    unfold Walk.close
    split
    · exact ⟨rfl, rfl, rfl⟩
    case isFalse hend =>
      unfold Walk.advance
      rw [if_neg (by omega)]
      exact ⟨rfl, rfl, rfl⟩

/-! ## The seams -/

theorem seamFrames_sorted {period : Nat} (hperiod : 0 < period) (frames : Nat) :
    (seamFrames period frames).Pairwise (· < ·) :=
  List.pairwise_map.mpr (List.pairwise_lt_range.imp fun h =>
    Nat.mul_lt_mul_of_pos_right (Nat.succ_lt_succ h) hperiod)

/-- The seams are the multiples of the period behind frame 0 and before the end. -/
theorem mem_seamFrames {period : Nat} (hperiod : 0 < period) {frames seam : Nat} :
    seam ∈ seamFrames period frames ↔ ∃ pass, 0 < pass ∧ seam = pass * period ∧ seam < frames := by
  unfold seamFrames
  rw [List.mem_map]
  constructor
  · rintro ⟨pass, hpass, rfl⟩
    rw [List.mem_range, Nat.lt_iff_add_one_le, Nat.le_div_iff_mul_le hperiod] at hpass
    have hpositive : 0 < (pass + 1) * period := Nat.mul_pos (Nat.succ_pos pass) hperiod
    exact ⟨pass + 1, Nat.succ_pos pass, rfl, by omega⟩
  · rintro ⟨pass, hpass, rfl, hlt⟩
    obtain ⟨pass, rfl⟩ := Nat.exists_eq_succ_of_ne_zero (Nat.ne_of_gt hpass)
    refine ⟨pass, ?_, rfl⟩
    rw [List.mem_range, Nat.lt_iff_add_one_le, Nat.le_div_iff_mul_le hperiod]
    exact Nat.le_sub_one_of_lt hlt

section
variable {content : List (Option Nat)} {seam : Nat}

theorem mem_of_findIdx? {position : Nat}
    (h : content.findIdx? (· = some seam) = some position) :
    position < content.length ∧ content[position]? = some (some seam) := by
  rw [List.findIdx?_eq_some_iff_getElem] at h
  obtain ⟨hlength, hframe, -⟩ := h
  exact ⟨hlength, List.getElem?_eq_some_iff.mpr ⟨hlength, of_decide_eq_true hframe⟩⟩

/-- The first place of a frame that is sent, or of one behind it, is its own. -/
theorem findIdx_of_position (h : Increasing content) {position : Nat}
    (hposition : content.findIdx? (· = some seam) = some position) :
    content.findIdx (fun sent => sent.any (seam ≤ ·)) = position := by
  obtain ⟨hlength, hframe⟩ := mem_of_findIdx? hposition
  obtain ⟨hlength', hframe⟩ := List.getElem?_eq_some_iff.mp hframe
  rw [List.findIdx_eq hlength, hframe]
  refine ⟨decide_eq_true (Nat.le_refl seam), fun earlier hearlier => ?_⟩
  rw [Option.any_eq_false]
  intro frame hsent
  refine decide_eq_false (Nat.not_le.mpr ?_)
  exact List.pairwise_iff_getElem.mp h earlier position (Nat.lt_trans hearlier hlength) hlength
    hearlier frame hsent seam hframe

theorem findIdx_lt_iff {α : Type} {p : α → Bool} {list : List α} {sent : Nat}
    (hsent : sent ≤ list.length) : list.findIdx p < sent ↔ ∃ x ∈ list.take sent, p x = true := by
  have htake : (list.take sent).length = sent := by rw [List.length_take, Nat.min_eq_left hsent]
  rw [← List.findIdx_lt_length, htake]
  conv_lhs => rw [← List.take_append_drop sent list, List.findIdx_append, htake]
  split
  · exact Iff.rfl
  · omega

end

/-- The prefix does not end within zeros that directly follow a DROP which took a seam: unless it
is the whole stream, an output frame is sent behind each such DROP it counts. -/
def Resumes (entries : List CutEntry) (stream : CutStream) (period fileFrames sent : Nat) : Prop :=
  ∀ cut ∈ stream.cuts entries fileFrames, ∀ seam ∈ seamFrames period fileFrames,
    takes cut seam = true → cut.2.position < sent → sent < stream.frames →
      ∃ frame, some frame ∈ (stream.content.take sent).drop cut.2.position

section
variable {entries : List CutEntry} {stream : CutStream} {period fileFrames sent : Nat}

/-- What the proofs use of the stream of a valid schedule. -/
structure Cuts (entries : List CutEntry) (stream : CutStream) (fileFrames : Nat) : Prop where
  length : stream.content.length = stream.frames
  positive : ∀ segment ∈ stream.segments, segment.cardFrame ≠ none → 0 < segment.frames
  increasing : Increasing stream.content
  covered : ∀ frame < fileFrames, some frame ∈ stream.content ∨
    ∃ cut ∈ stream.cuts entries fileFrames, takes cut frame = true
  drop : ∀ cut ∈ stream.cuts entries fileFrames, ∀ seam, takes cut seam = true →
    cut.2.position ≤ stream.frames ∧
      (∀ frame, some frame ∈ stream.content.take cut.2.position → frame < seam) ∧
      ∀ frame, some frame ∈ stream.content.drop cut.2.position → seam < frame

theorem cuts_of_apply (happly : apply entries fileFrames = .ok stream) :
    Cuts entries stream fileFrames := by
  obtain ⟨walk, hplaced, hend, hsegments, happlied, hframes⟩ := placed_of_apply happly
  have hcontent : stream.content = walk.segments.flatMap Segment.content := by
    unfold CutStream.content
    rw [hsegments]
  have hcuts : stream.cuts entries fileFrames =
      (entries.filter (·.offset < fileFrames)).zip walk.applied := by
    unfold CutStream.cuts
    rw [happlied]
  refine ⟨?_, ?_, ?_, ?_, ?_⟩
  · rw [hcontent, hframes, hplaced.length]
  · rw [hsegments]
    exact hplaced.positive
  · rw [hcontent]
    exact hplaced.increasing
  · rw [hcontent, hcuts]
    exact fun frame hframe => hplaced.covered frame (hend ▸ hframe)
  · rw [hcontent, hcuts, hframes]
    intro cut hmem seam htakes
    simp only [takes, Bool.and_eq_true, decide_eq_true_eq] at htakes
    obtain ⟨⟨hkind, hfirst⟩, hlast⟩ := htakes
    obtain ⟨-, hposition, hbefore, hafter⟩ := hplaced.drop cut hmem hkind
    refine ⟨hposition, fun frame hframe => ?_, fun frame hframe => ?_⟩
    · exact Nat.lt_of_lt_of_le (hbefore frame hframe) hfirst
    · exact Nat.lt_of_lt_of_le hlast (hafter frame hframe)

/-- A frame is missing from the stream exactly if a DROP takes it. -/
theorem Cuts.dropped_iff (h : Cuts entries stream fileFrames) {seam : Nat}
    (hseam : seam < fileFrames) : stream.positionOf seam = none ↔
      ∃ cut ∈ stream.cuts entries fileFrames, takes cut seam = true := by
  have hnone : stream.positionOf seam = none ↔ some seam ∉ stream.content := by
    unfold CutStream.positionOf
    rw [List.findIdx?_eq_none_iff]
    constructor
    · exact fun hall hmem => Bool.noConfusion ((hall _ hmem).symm.trans (decide_eq_true rfl))
    · intro hnot sent hmem
      exact decide_eq_false fun heq => hnot (heq ▸ hmem)
  rw [hnone]
  constructor
  · exact fun hnot => (h.covered seam hseam).resolve_left hnot
  · rintro ⟨cut, hmem, htakes⟩ hsent
    obtain ⟨-, hbefore, hafter⟩ := h.drop cut hmem seam htakes
    rw [← List.take_append_drop cut.2.position stream.content, List.mem_append] at hsent
    obtain hsent | hsent := hsent
    · exact Nat.lt_irrefl seam (hbefore seam hsent)
    · exact Nat.lt_irrefl seam (hafter seam hsent)

/-- A dropped seam's place is within a prefix exactly if an output frame behind its DROP is. -/
theorem Cuts.place_lt_iff (h : Cuts entries stream fileFrames) (hsent : sent ≤ stream.frames)
    {cut : CutEntry × AppliedCut} (hmem : cut ∈ stream.cuts entries fileFrames) {seam : Nat}
    (htakes : takes cut seam = true) :
    stream.content.findIdx (fun place => place.any (seam ≤ ·)) < sent ↔
      cut.2.position < sent ∧
        ∃ frame, some frame ∈ (stream.content.take sent).drop cut.2.position := by
  obtain ⟨-, hbefore, hafter⟩ := h.drop cut hmem seam htakes
  rw [findIdx_lt_iff (h.length ▸ hsent)]
  constructor
  · rintro ⟨place, hplace, hany⟩
    rw [Option.any_eq_true] at hany
    obtain ⟨frame, hframe, hle⟩ := hany
    rw [decide_eq_true_eq] at hle
    obtain rfl : place = some frame := hframe
    have hbehind : some frame ∉ stream.content.take cut.2.position := fun hmem =>
      Nat.lt_irrefl seam (Nat.lt_of_le_of_lt hle (hbefore frame hmem))
    have hposition : cut.2.position < sent := by
      by_contra hlate
      refine hbehind ?_
      exact (List.take_subset_take_left _ (Nat.not_lt.mp hlate)) hplace
    refine ⟨hposition, frame, ?_⟩
    rw [← List.take_append_drop cut.2.position (stream.content.take sent), List.mem_append,
      List.take_take, Nat.min_eq_left (Nat.le_of_lt hposition)] at hplace
    exact hplace.resolve_left hbehind
  · rintro ⟨hposition, frame, hframe⟩
    refine ⟨some frame, List.mem_of_mem_drop hframe, ?_⟩
    rw [Option.any_some, decide_eq_true_eq]
    rw [List.drop_take] at hframe
    exact Nat.le_of_lt (hafter frame (List.mem_of_mem_take hframe))

theorem Cuts.seamPlaces_eq (h : Cuts entries stream fileFrames) (hperiod : 0 < period)
    (frames : Nat) :
    seamPlaces stream period frames =
      (seamFrames period frames).map (landing stream.content 0) := by
  have hwalk := landings_of_segments h.positive h.increasing { pending := seamFrames period frames }
    (seamFrames_sorted hperiod frames)
  unfold seamPlaces
  dsimp only at hwalk ⊢
  rw [← h.length]
  rw [Nat.zero_add, List.nil_append] at hwalk
  exact hwalk

theorem landing_fst (stream : CutStream) (seam : Nat) :
    (landing stream.content 0 seam).1 = stream.positionOf seam := by
  unfold landing CutStream.positionOf
  dsimp only
  cases stream.content.findIdx? (· = some seam) with
  | none => rfl
  | some position => exact congrArg some (Nat.zero_add position)

/-- Whether the code keeps a seam among those within the first `sent` frames. -/
def keeps (stream : CutStream) (sent seam : Nat) : Bool :=
  match stream.positionOf seam with
  | some position => position < sent
  | none =>
    stream.content.findIdx (fun place => place.any (seam ≤ ·)) < sent || sent = stream.frames

theorem Cuts.seamPositions_eq (h : Cuts entries stream fileFrames) (hperiod : 0 < period)
    (frames sent : Nat) :
    seamPositions stream period frames = (seamFrames period frames).map stream.positionOf ∧
      seamPositions stream period frames (some sent) =
        ((seamFrames period frames).filter (keeps stream sent)).map stream.positionOf := by
  unfold seamPositions
  rw [h.seamPlaces_eq hperiod]
  dsimp only
  rw [List.map_map, List.filter_map, List.map_map]
  have hfst : ((·.1) ∘ landing stream.content 0) = stream.positionOf :=
    funext fun seam => landing_fst stream seam
  rw [hfst]
  refine ⟨rfl, congrArg _ (List.filter_congr fun seam _ => ?_)⟩
  dsimp only [Function.comp]
  rw [landing_fst]
  unfold keeps
  cases hposition : stream.positionOf seam with
  | none =>
    rw [if_neg (by exact nofun)]
    unfold landing
    rw [Nat.zero_add]
  | some position =>
    rw [if_pos (by rfl)]
    unfold landing
    rw [Nat.zero_add, findIdx_of_position h.increasing hposition]

theorem counts_iff (stream : CutStream) (sent : Nat) (cut : AppliedCut) :
    stream.counts sent cut = true ↔
      cut.position < sent ∨ sent = stream.frames ∧ cut.position = stream.frames := by
  unfold CutStream.counts
  rw [Bool.or_eq_true, Bool.and_eq_true, decide_eq_true_eq, decide_eq_true_eq, decide_eq_true_eq]

theorem reaches_iff {seam : Nat} (hposition : stream.positionOf seam = none) :
    stream.reaches entries fileFrames sent seam = true ↔
      ∃ cut ∈ stream.cuts entries fileFrames, takes cut seam = true ∧
        stream.counts sent cut.2 = true := by
  unfold CutStream.reaches
  rw [hposition]
  dsimp only
  rw [List.any_eq_true]
  simp only [Bool.and_eq_true]

theorem keeps_iff {seam : Nat} (hposition : stream.positionOf seam = none) :
    keeps stream sent seam = true ↔
      stream.content.findIdx (fun place => place.any (seam ≤ ·)) < sent ∨
        sent = stream.frames := by
  unfold keeps
  rw [hposition]
  dsimp only
  rw [Bool.or_eq_true, decide_eq_true_eq, decide_eq_true_eq]

/-- The seams the code keeps are among those that should be listed. -/
theorem Cuts.reaches_of_keeps (h : Cuts entries stream fileFrames) (hsent : sent ≤ stream.frames)
    {seam : Nat} (hseam : seam < fileFrames) (hkeeps : keeps stream sent seam = true) :
    stream.reaches entries fileFrames sent seam = true := by
  cases hposition : stream.positionOf seam with
  | some position =>
    unfold keeps at hkeeps
    unfold CutStream.reaches
    rw [hposition] at hkeeps ⊢
    exact hkeeps
  | none =>
    obtain ⟨cut, hmem, htakes⟩ := (h.dropped_iff hseam).mp hposition
    rw [reaches_iff hposition]
    refine ⟨cut, hmem, htakes, (counts_iff ..).mpr ?_⟩
    obtain hplace | hwhole := (keeps_iff hposition).mp hkeeps
    · exact .inl ((h.place_lt_iff hsent hmem htakes).mp hplace).1
    · have hle := (h.drop cut hmem seam htakes).1
      omega

theorem of_length_filter_eq {α : Type} {p q : α → Bool} {list : List α}
    (himp : ∀ x ∈ list, p x = true → q x = true)
    (hlength : (list.filter p).length = (list.filter q).length) {x : α} (hx : x ∈ list)
    (hq : q x = true) : p x = true := by
  have hboth : (list.filter q).filter p = list.filter p := by
    rw [List.filter_filter]
    refine List.filter_congr fun y hy => ?_
    cases hp : p y with
    | true => rw [himp y hy hp]; rfl
    | false => rfl
  rw [← hboth, List.length_filter_eq_length_iff] at hlength
  exact hlength x (List.mem_filter.mpr ⟨hx, hq⟩)

/-- What a prefix lists of a schedule's seams is right exactly if it does not end within the zeros
behind a DROP that took one. The cuts counted are those `tally` counts. -/
theorem seamsExact_iff (happly : apply entries fileFrames = .ok stream) (hperiod : 0 < period)
    (hsent : sent ≤ stream.frames) :
    (SeamsExact entries stream period fileFrames sent ↔
      Resumes entries stream period fileFrames sent) ∧
    ∃ result, tally stream (some sent) = .ok result ∧
      result.cutCount = stream.applied.countP (stream.counts sent) := by
  refine ⟨?_, cutCount_of_tally hsent⟩
  have h := cuts_of_apply happly
  obtain ⟨hall, hwithin⟩ := h.seamPositions_eq hperiod fileFrames sent
  have hbefore : ∀ seam ∈ seamFrames period fileFrames, seam < fileFrames := by
    intro seam hseam
    obtain ⟨-, -, -, hlt⟩ := (mem_seamFrames hperiod).mp hseam
    exact hlt
  constructor
  · intro hexact cut hmem seam hseam htakes hposition hpart
    have hkeeps : keeps stream sent seam = true := by
      refine of_length_filter_eq
        (fun seam hseam => h.reaches_of_keeps hsent (hbefore seam hseam)) ?_ hseam ?_
      · have hlists := congrArg List.length (hwithin.symm.trans hexact.within)
        rwa [List.length_map, List.length_map] at hlists
      · rw [reaches_iff ((h.dropped_iff (hbefore seam hseam)).mpr ⟨cut, hmem, htakes⟩)]
        exact ⟨cut, hmem, htakes, (counts_iff ..).mpr (.inl hposition)⟩
    rw [keeps_iff ((h.dropped_iff (hbefore seam hseam)).mpr ⟨cut, hmem, htakes⟩)] at hkeeps
    obtain hplace | hwhole := hkeeps
    · exact ((h.place_lt_iff hsent hmem htakes).mp hplace).2
    · omega
  · intro hresumes
    refine ⟨hall, fun seam hseam => h.dropped_iff (hbefore seam hseam), ?_⟩
    rw [hwithin]
    refine congrArg _ (List.filter_congr fun seam hseam => Bool.eq_iff_iff.mpr
      ⟨h.reaches_of_keeps hsent (hbefore seam hseam), fun hreaches => ?_⟩)
    cases hposition : stream.positionOf seam with
    | some position =>
      unfold CutStream.reaches at hreaches
      unfold keeps
      rw [hposition] at hreaches ⊢
      exact hreaches
    | none =>
      obtain ⟨cut, hmem, htakes, hcounts⟩ := (reaches_iff hposition).mp hreaches
      rw [keeps_iff hposition]
      rw [counts_iff] at hcounts
      by_cases hwhole : sent = stream.frames
      · exact .inr hwhole
      · have hcut : cut.2.position < sent := by omega
        exact .inl ((h.place_lt_iff hsent hmem htakes).mpr
          ⟨hcut, hresumes cut hmem seam hseam htakes hcut (by omega)⟩)

end

/-- A DROP that takes the seam at 5, and a ZERO next to it. -/
def erased : List CutEntry := [⟨4, 2, .drop⟩, ⟨6, 3, .zero⟩]

def erasedStream : CutStream :=
  ⟨[⟨some 0, 4⟩, ⟨none, 3⟩, ⟨some 6, 4⟩], [⟨4, 2, .drop⟩, ⟨4, 3, .zero⟩], 0, 11⟩

/-- In eight frames a frame behind the zeros is sent, and the seam is listed. -/
theorem seamsExact_iff_erased : SeamsExact erased erasedStream 5 10 8 := by
  have happly : apply erased 10 = .ok erasedStream := by decide
  refine (seamsExact_iff happly (by decide) (by decide)).1.mpr ?_
  have hbehind : ∀ cut ∈ erasedStream.cuts erased 10,
      some 6 ∈ (erasedStream.content.take 8).drop cut.2.position := by decide
  exact fun cut hmem _ _ _ _ _ => ⟨6, hbehind cut hmem⟩

/-- In five frames, one of them a zero behind the DROP, `tally` counts the DROP and the seam is not
listed. -/
theorem not_seamsExact_erased :
    apply erased 10 = .ok erasedStream ∧ 5 ≤ erasedStream.frames ∧
      (tally erasedStream (some 5)).map (·.cutDropFrames) = .ok 2 ∧
      seamPositions erasedStream 5 10 (some 5) = [] ∧
      ¬ SeamsExact erased erasedStream 5 10 5 := by
  refine ⟨by decide, by decide, by decide, by decide, fun h => ?_⟩
  exact absurd h.within (by decide)

end WaveformGenerator.Host

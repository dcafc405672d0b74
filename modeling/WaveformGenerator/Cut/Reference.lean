import WaveformGenerator.Cut.Schedule

/-!
# The reference walk of a cut play

What a schedule asks of an engine output, frame by frame: before output frame `i` come the zeros
of the ZERO entry with offset `i`, and frame `i` itself is sent unless a DROP entry covers it.
Nothing here knows of blocks, step limits or counters. `walk` labels every frame with what
becomes of it, so that the same walk says what is sent and which cuts took effect.
-/

namespace WaveformGenerator.Cut

/-- What becomes of a frame: an output frame sent, a zero of a ZERO entry sent, or an output frame
a DROP entry discards. -/
inductive Mark (α : Type)
  | frame (sample : α)
  | zero (entry : CutEntry)
  | drop (entry : CutEntry)
  deriving DecidableEq

namespace Mark

variable {α : Type}

/-- The frame a mark puts into the play's stream. -/
def emit (silence : α) : Mark α → Option α
  | frame sample => some sample
  | zero _ => some silence
  | drop _ => none

def isSent : Mark α → Bool
  | drop _ => false
  | _ => true

def isZero : Mark α → Bool
  | zero _ => true
  | _ => false

def isDrop : Mark α → Bool
  | drop _ => true
  | _ => false

section
variable (sample : α) (entry : CutEntry)

@[simp] theorem isSent_frame : (frame sample).isSent = true := rfl
@[simp] theorem isSent_zero : (zero entry : Mark α).isSent = true := rfl
@[simp] theorem isSent_drop : (drop entry : Mark α).isSent = false := rfl
@[simp] theorem isZero_frame : (frame sample).isZero = false := rfl
@[simp] theorem isZero_zero : (zero entry : Mark α).isZero = true := rfl
@[simp] theorem isZero_drop : (drop entry : Mark α).isZero = false := rfl
@[simp] theorem isDrop_frame : (frame sample).isDrop = false := rfl
@[simp] theorem isDrop_zero : (zero entry : Mark α).isDrop = false := rfl
@[simp] theorem isDrop_drop : (drop entry : Mark α).isDrop = true := rfl

end

@[simp] theorem isSent_comp_frame : (isSent ∘ frame : α → Bool) = fun _ => true := rfl
@[simp] theorem isZero_comp_frame : (isZero ∘ frame : α → Bool) = fun _ => false := rfl
@[simp] theorem isDrop_comp_frame : (isDrop ∘ frame : α → Bool) = fun _ => false := rfl

end Mark

namespace CutEntry

def insertsAt (entry : CutEntry) (i : Nat) : Bool :=
  entry.kind == .zero && entry.offset.toNat == i

def covers (entry : CutEntry) (i : Nat) : Bool :=
  entry.kind == .drop && entry.offset.toNat ≤ i && i < entry.offset.toNat + entry.length.toNat

end CutEntry

variable {α : Type}

/-- The zeros sent before output frame `i`. -/
def zerosBefore (entries : List CutEntry) (i : Nat) : List (Mark α) :=
  match entries.find? (·.insertsAt i) with
  | some entry => List.replicate entry.length.toNat (.zero entry)
  | none => []

/-- What becomes of output frame `i` itself. -/
def frameMark (entries : List CutEntry) (i : Nat) (sample : α) : Mark α :=
  match entries.find? (·.covers i) with
  | some entry => .drop entry
  | none => .frame sample

/-- The walk over the output frames from frame `i` on. -/
def walk (entries : List CutEntry) : Nat → List α → List (Mark α)
  | _, [] => []
  | i, sample :: rest =>
    zerosBefore entries i ++ frameMark entries i sample :: walk entries (i + 1) rest

/-- The stream from output frame `i` on. -/
def streamFrom (silence : α) (entries : List CutEntry) (i : Nat) (output : List α) : List α :=
  (walk entries i output).filterMap (Mark.emit silence)

/-- The stream a play sends for an engine output under a schedule. -/
def cutStream (silence : α) (entries : List CutEntry) (output : List α) : List α :=
  streamFrom silence entries 0 output

example : cutStream 0 [⟨1, 2, .zero⟩, ⟨3, 3, .drop⟩, ⟨10, 1, .zero⟩]
    [10, 11, 12, 13, 14, 15, 16, 17, 18, 19] = [10, 0, 0, 11, 12, 16, 17, 18, 19] := by decide

/-! ## How the walk goes on past an entry -/

namespace CutEntry

theorem insertsAt_iff {entry : CutEntry} {i : Nat} :
    entry.insertsAt i = true ↔ entry.kind = .zero ∧ entry.offset.toNat = i := by
  simp [insertsAt]

theorem covers_iff {entry : CutEntry} {i : Nat} :
    entry.covers i = true ↔ entry.kind = .drop ∧ entry.offset.toNat ≤ i ∧ i < entry.past := by
  simp only [covers, past, Bool.and_eq_true, beq_iff_eq, decide_eq_true_eq]
  constructor
  · rintro ⟨⟨hk, ho⟩, hl⟩
    exact ⟨hk, ho, by simpa [hk] using hl⟩
  · rintro ⟨hk, ho, hl⟩
    exact ⟨⟨hk, ho⟩, by simpa [hk] using hl⟩

end CutEntry

open CutEntry

theorem zerosBefore_of_forall {entries : List CutEntry} {i : Nat}
    (h : ∀ entry ∈ entries, entry.insertsAt i = false) :
    zerosBefore (α := α) entries i = [] := by
  have : entries.find? (·.insertsAt i) = none := by
    simpa [List.find?_eq_none] using h
  simp [zerosBefore, this]

theorem frameMark_of_forall {entries : List CutEntry} {i : Nat} {sample : α}
    (h : ∀ entry ∈ entries, entry.covers i = false) :
    frameMark entries i sample = .frame sample := by
  have : entries.find? (·.covers i) = none := by
    simpa [List.find?_eq_none] using h
  simp [frameMark, this]

/-- An entry that lies behind `i` plays no part from `i` on. -/
theorem walk_cons_of_behind {entry : CutEntry} {entries : List CutEntry} {i : Nat}
    (h : ∀ j, i ≤ j → entry.insertsAt j = false ∧ entry.covers j = false) (output : List α) :
    walk (entry :: entries) i output = walk entries i output := by
  induction output generalizing i with
  | nil => rfl
  | cons sample rest ih =>
    obtain ⟨hi, hc⟩ := h i (Nat.le_refl i)
    simp only [walk, zerosBefore, frameMark, List.find?_cons, hi, hc]
    rw [ih fun j hj => h j (by omega)]

/-- Frames before every entry are sent as they are. -/
theorem walk_append_of_clear {entries : List CutEntry} {i : Nat} (frames rest : List α)
    (h : ∀ entry ∈ entries, i + frames.length ≤ entry.offset.toNat) :
    walk entries i (frames ++ rest) =
      frames.map .frame ++ walk entries (i + frames.length) rest := by
  induction frames generalizing i with
  | nil => rfl
  | cons sample frames ih =>
    have hz : ∀ entry ∈ entries, entry.insertsAt i = false := fun entry he => by
      have := h entry he
      simp only [List.length_cons] at this
      simp only [insertsAt, Bool.and_eq_false_iff, beq_eq_false_iff_ne]
      exact .inr (by omega)
    have hc : ∀ entry ∈ entries, entry.covers i = false := fun entry he => by
      have := h entry he
      simp only [List.length_cons] at this
      by_contra hn
      have := (covers_iff.mp (by simpa using hn)).2.1
      omega
    simp only [List.cons_append, walk, zerosBefore_of_forall hz, frameMark_of_forall hc,
      List.nil_append, List.map_cons, List.length_cons]
    rw [ih fun entry he => by have := h entry he; simp at this; omega]
    congr 3
    omega

/-- A ZERO with offset `i` sends its zeros; the rest of the walk is that of the later entries. -/
theorem walk_zero {entry : CutEntry} {entries : List CutEntry} {i : Nat}
    (hk : entry.kind = .zero) (ho : entry.offset.toNat = i)
    (hp : ∀ later ∈ entries, Precedes entry later) {output : List α} (hne : output ≠ []) :
    walk (entry :: entries) i output =
      List.replicate entry.length.toNat (.zero entry) ++ walk entries i output := by
  cases output with
  | nil => contradiction
  | cons sample rest =>
    have hlater : zerosBefore (α := α) entries i = [] :=
      zerosBefore_of_forall fun later hl => by
        by_contra hn
        obtain ⟨hkl, hol⟩ := insertsAt_iff.mp (by simpa using hn)
        have := (hp later hl).zeros_apart hk hkl
        omega
    have hbehind : ∀ j, i + 1 ≤ j → entry.insertsAt j = false ∧ entry.covers j = false :=
      fun j hj => by
        simp only [insertsAt, covers, hk]
        simp
        omega
    have hi : entry.insertsAt i = true := insertsAt_iff.mpr ⟨hk, ho⟩
    have hc : entry.covers i = false := by simp [covers, hk]
    simp only [walk, hlater, List.nil_append]
    rw [walk_cons_of_behind hbehind]
    simp [zerosBefore, frameMark, hi, hc]

/-- The frames a DROP covers are discarded. -/
theorem walk_drop {entry : CutEntry} {entries : List CutEntry} {i : Nat} (frames rest : List α)
    (hk : entry.kind = .drop) (ho : entry.offset.toNat ≤ i)
    (hl : i + frames.length ≤ entry.past)
    (hp : ∀ later ∈ entries, Precedes entry later) :
    walk (entry :: entries) i (frames ++ rest) =
      List.replicate frames.length (.drop entry) ++
        walk (entry :: entries) (i + frames.length) rest := by
  induction frames generalizing i with
  | nil => rfl
  | cons sample frames ih =>
    simp only [List.length_cons] at hl
    have hz : ∀ later ∈ entry :: entries, later.insertsAt i = false := by
      intro later hm
      by_contra hn
      obtain ⟨hkl, hol⟩ := insertsAt_iff.mp (by simpa using hn)
      rcases List.mem_cons.mp hm with rfl | hm
      · simp [hk] at hkl
      · have := (hp later hm).past_le
        omega
    have hc : entry.covers i = true := covers_iff.mpr ⟨hk, ho, by omega⟩
    simp only [List.cons_append, walk, zerosBefore_of_forall hz, List.nil_append, frameMark,
      List.find?_cons, hc, List.length_cons, List.replicate_succ]
    rw [ih (by omega) (by omega)]
    congr 3
    omega

/-- Once a DROP's range is behind, the walk is that of the later entries. -/
theorem walk_of_past {entry : CutEntry} {entries : List CutEntry} {i : Nat}
    (hk : entry.kind = .drop) (h : entry.past ≤ i) (output : List α) :
    walk (entry :: entries) i output = walk entries i output :=
  walk_cons_of_behind (fun j hj => by
    refine ⟨by simp [insertsAt, hk], ?_⟩
    by_contra hn
    have := (covers_iff.mp (by simpa using hn)).2.2
    omega) output

/-! ## The same for the stream -/

section
variable (silence : α) {entry : CutEntry} {entries : List CutEntry} {i : Nat}

@[simp] theorem streamFrom_nil : streamFrom silence entries i [] = [] := rfl

theorem streamFrom_append_of_clear (frames rest : List α)
    (h : ∀ entry ∈ entries, i + frames.length ≤ entry.offset.toNat) :
    streamFrom silence entries i (frames ++ rest) =
      frames ++ streamFrom silence entries (i + frames.length) rest := by
  have hf : (frames.map Mark.frame).filterMap (Mark.emit silence) = frames := by
    induction frames with
    | nil => rfl
    | cons sample frames ih => simp [Mark.emit, List.filterMap_map, Function.comp_def]
  simp only [streamFrom, walk_append_of_clear frames rest h, List.filterMap_append, hf]

theorem streamFrom_zero (hk : entry.kind = .zero) (ho : entry.offset.toNat = i)
    (hp : ∀ later ∈ entries, Precedes entry later) {output : List α} (hne : output ≠ []) :
    streamFrom silence (entry :: entries) i output =
      List.replicate entry.length.toNat silence ++ streamFrom silence entries i output := by
  simp only [streamFrom, walk_zero hk ho hp hne, List.filterMap_append]
  rw [List.filterMap_replicate_of_some (by rfl : Mark.emit silence (.zero entry) = some silence)]

theorem streamFrom_drop (frames rest : List α)
    (hk : entry.kind = .drop) (ho : entry.offset.toNat ≤ i)
    (hl : i + frames.length ≤ entry.past)
    (hp : ∀ later ∈ entries, Precedes entry later) :
    streamFrom silence (entry :: entries) i (frames ++ rest) =
      streamFrom silence (entry :: entries) (i + frames.length) rest := by
  simp only [streamFrom, walk_drop frames rest hk ho hl hp, List.filterMap_append]
  rw [List.filterMap_replicate_of_none (by rfl : Mark.emit silence (.drop entry) = none),
    List.nil_append]

theorem streamFrom_of_past (hk : entry.kind = .drop) (h : entry.past ≤ i) (output : List α) :
    streamFrom silence (entry :: entries) i output = streamFrom silence entries i output := by
  simp only [streamFrom, walk_of_past hk h]

end

end WaveformGenerator.Cut

import WaveformGenerator.LiveProtocol.Parser

/-!
# The names of a request

Whatever the parser copies into a name array of its request leaves the array's last character NUL.
-/

namespace WaveformGenerator.LiveProtocol

open PlaylistFile (isNameStem)
open SignalLab (Det)
open Text

/-- An array of its size that nothing was copied past, and that ends in a NUL. -/
structure Terminated (size : Nat) (array : Buffer) : Prop where
  size_eq : array.size = size
  inside : array.overrun = false
  last : array.bytes.getLast? = some 0

theorem terminated_zeros {size : Nat} (h : 0 < size) : Terminated size (.zeros size) where
  size_eq := Buffer.size_zeros size
  inside := rfl
  last := by rw [Buffer.zeros, List.getLast?_replicate, if_neg (Nat.ne_of_gt h)]

/-- A text shorter than the array leaves its last character. -/
theorem Terminated.fill {size : Nat} {array : Buffer} (h : Terminated size array) {text : List Char}
    (htext : text.length < size) : Terminated size (fill array text) := by
  have hlength : (text.map fun c => UInt8.ofNat c.toNat).length = text.length := List.length_map _
  have hsize := h.size_eq
  rw [LiveProtocol.fill, Buffer.copy_of_le (by rw [hlength]; omega)]
  rw [Buffer.size] at hsize
  refine ⟨?_, h.inside, ?_⟩
  · simp only [Buffer.size, List.length_append, List.length_take, List.length_drop, hlength]
    omega
  · dsimp only
    have hdrop : array.bytes.drop (0 + text.length) ≠ [] := fun hnil => by
      have := List.drop_eq_nil_iff.mp hnil
      omega
    rw [hlength, List.getLast?_append_of_ne_nil _ hdrop, List.getLast?_drop, h.last,
      if_neg (by omega)]

/-! ## Lengths of names -/

theorem length_splitFirst {mark : Char} {text before after : List Char}
    (h : splitFirst mark text = (before, some after)) :
    text.length = before.length + 1 + after.length := by
  have hspec := (splitFirst_spec mark text).2
  rw [h] at hspec
  rw [show text = before ++ mark :: after from hspec, List.length_append, List.length_cons]
  omega

theorem length_of_filename {text extension : List Char} (h : filename text extension = true) :
    text.length ≤ 9 + extension.length := by
  rw [filename] at h
  split at h
  · cases h
  · rename_i stem rest hsplit
    split at h
    · cases h
    · rename_i hgood
      simp only [not_or, not_not, Nat.not_lt] at hgood
      obtain ⟨-, hstem, rfl⟩ := hgood
      rw [length_splitFirst hsplit]
      omega

theorem length_of_isNameStem {stem : List Char} (h : isNameStem stem = true) : stem.length ≤ 8 := by
  simp only [isNameStem, Bool.and_eq_true, decide_eq_true_iff] at h
  exact h.1.2

theorem length_of_isPlaylistName {text : List Char} (h : isPlaylistName text = true) :
    text.length < 13 := by
  rw [isPlaylistName] at h
  split at h
  · rename_i stem hsplit
    have hspec := (splitFirst_spec '.' text).2
    rw [hsplit] at hspec
    have hstem := length_of_isNameStem h
    rw [show text = stem from hspec]
    omega
  · rename_i stem extension hsplit
    simp only [Bool.and_eq_true, decide_eq_true_iff] at h
    have hstem := length_of_isNameStem h.1.1.1
    rw [length_splitFirst hsplit]
    omega

/-! ## The arrays of a request -/

variable {R : Type} [Det R]

/-- The arrays with their sizes. -/
def Request.names (r : Request R) : List (Nat × Buffer) :=
  [(13, r.name), (33, r.runId), (13, r.inputName), (16, r.encoder), (32, r.profile),
    (13, r.preparation.source), (13, r.preparation.scenario), (13, r.preparation.output)]

def Request.Named (r : Request R) : Prop := ∀ field ∈ r.names, Terminated field.1 field.2

theorem Request.named_iff {r : Request R} : r.Named ↔
    Terminated 13 r.name ∧ Terminated 33 r.runId ∧ Terminated 13 r.inputName ∧
      Terminated 16 r.encoder ∧ Terminated 32 r.profile ∧ Terminated 13 r.preparation.source ∧
      Terminated 13 r.preparation.scenario ∧ Terminated 13 r.preparation.output := by
  simp [Request.Named, Request.names]

theorem Request.named_blank (seq : UInt32) : ({ seq } : Request R).Named := by
  rw [Request.named_iff]
  exact ⟨terminated_zeros (by decide), terminated_zeros (by decide), terminated_zeros (by decide),
    terminated_zeros (by decide), terminated_zeros (by decide), terminated_zeros (by decide),
    terminated_zeros (by decide), terminated_zeros (by decide)⟩

/-- What a request keeps while its line is parsed: the sequence that it was begun with, and its
arrays' ends. -/
def Request.Kept (seq : UInt32) (r : Request R) : Prop := r.seq = seq ∧ r.Named

theorem Request.kept_iff {seq : UInt32} {r : Request R} : r.Kept seq ↔
    r.seq = seq ∧ Terminated 13 r.name ∧ Terminated 33 r.runId ∧ Terminated 13 r.inputName ∧
      Terminated 16 r.encoder ∧ Terminated 32 r.profile ∧ Terminated 13 r.preparation.source ∧
      Terminated 13 r.preparation.scenario ∧ Terminated 13 r.preparation.output := by
  rw [Request.Kept, Request.named_iff]

variable {seq : UInt32}

/-- A call that is given a request keeps that of it. -/
def Keeps (seq : UInt32) (result : Result (Request R)) : Prop := ∀ r, result = .ok r → r.Kept seq

theorem keeps_ok {r : Request R} (h : r.Kept seq) : Keeps seq (.ok r) := by
  rintro _ ⟨⟩
  exact h

theorem keeps_error (status : Status) : Keeps seq (.error status : Result (Request R)) :=
  fun _ hok => by cases hok

variable {request : Request R} (h : request.Kept seq)
include h

theorem kept_parseCut (text : List Char) : (parseCut text request).2.Kept seq := by
  rw [parseCut]
  split
  · exact h
  · exact h

theorem kept_parseFilesOffset (text : List Char) : (parseFilesOffset text request).2.Kept seq := by
  rw [parseFilesOffset]
  split
  · exact h
  · exact h

theorem kept_storePrepareRequest (output source scenario policy : List Char)
    (seed : Option (List Char)) :
    (storePrepareRequest output source scenario policy seed request).2.Kept seq := by
  rw [storePrepareRequest]
  split
  · exact h
  rename_i hnames
  simp only [not_or, Bool.not_eq_true', Bool.not_eq_false] at hnames
  obtain ⟨-, houtput, hsource, hscenario⟩ := hnames
  have hshort {name extension : List Char} (hextension : extension.length = 3)
      (hname : filename name extension = true) : name.length < 13 := by
    have := length_of_filename hname
    omega
  split
  · exact h
  · rw [Request.kept_iff] at h ⊢
    obtain ⟨hseq, h1, h2, h3, h4, h5, h6, h7, h8⟩ := h
    exact ⟨hseq, h1, h2, h3, h4, h5, h6.fill (hshort rfl hsource), h7.fill (hshort rfl hscenario),
      h8.fill (hshort rfl houtput)⟩

theorem kept_parsePrepare (text : List Char) : (parsePrepare text request).2.Kept seq := by
  rw [parsePrepare]
  split
  · exact h
  split
  · exact h
  split
  · exact h
  dsimp only
  split
  · exact kept_storePrepareRequest h _ _ _ _ _
  · exact kept_storePrepareRequest h _ _ _ _ _

theorem kept_storePreparePlay (output source scenario policy rate margin : List Char)
    (seed : Option (List Char)) :
    (storePreparePlay output source scenario policy rate margin seed request).2.Kept seq := by
  rw [storePreparePlay]
  split
  · exact h
  split
  · exact h
  split
  · exact h
  dsimp only
  have hstored := kept_storePrepareRequest h output source scenario policy seed
  split
  · exact hstored
  · exact hstored

theorem kept_parsePreparePlay (text : List Char) : (parsePreparePlay text request).2.Kept seq := by
  rw [parsePreparePlay]
  split
  · exact h
  split
  · exact h
  split
  · exact h
  split
  · exact h
  split
  · exact h
  · exact kept_storePreparePlay h _ _ _ _ _ _ _

/-- A name copied into the request's. -/
theorem kept_name {name : List Char} (hname : name.length < 13) (policy : Playlist.Policy)
    (kind : Kind) :
    ({ request with policy, name := fill request.name name, kind } : Request R).Kept seq := by
  rw [Request.kept_iff] at h ⊢
  obtain ⟨hseq, h1, hrest⟩ := h
  exact ⟨hseq, h1.fill hname, hrest⟩

theorem kept_parsePlaylistStart (text : List Char) :
    (parsePlaylistStart text request).2.Kept seq := by
  rw [parsePlaylistStart]
  dsimp only
  split
  · exact h
  rename_i hname
  rw [Bool.not_eq_true', Bool.not_eq_false] at hname
  have hlength := length_of_isPlaylistName hname
  split
  · exact kept_name h hlength request.policy .playlistStart
  split
  · exact h
  · exact kept_name h hlength .continueOnError .playlistStart

theorem kept_parsePlaylistCommand (text : List Char) :
    (parsePlaylistCommand text request).2.Kept seq := by
  rw [parsePlaylistCommand]
  split
  · split
    · exact h
    · exact h
  split
  · exact h
  · exact kept_parsePlaylistStart h _

theorem kept_parseDelegated {text : List Char} {verdict : Status × Request R}
    (hverdict : parseDelegated text request = some verdict) : verdict.2.Kept seq := by
  rw [parseDelegated] at hverdict
  split at hverdict
  · cases hverdict
    exact kept_parseCut h text
  split at hverdict
  · cases hverdict
    exact kept_parsePlaylistCommand h text
  split at hverdict
  · cases hverdict
    exact kept_parseFilesOffset h _
  split at hverdict
  · cases hverdict
    exact kept_parsePrepare h text
  split at hverdict
  · cases hverdict
    exact kept_parsePreparePlay h text
  · cases hverdict

omit h in
theorem keeps_judged {verdict : Status × Request R} (hverdict : verdict.2.Kept seq) :
    Keeps seq (judged verdict) := by
  rw [judged]
  split
  · exact keeps_error _
  · exact keeps_ok hverdict

theorem keeps_parsePlay (id : List Char) : Keeps seq (parsePlay id request) := by
  rw [parsePlay]
  split
  · exact keeps_error _
  rename_i hlength
  split
  · exact keeps_error _
  refine keeps_ok ?_
  rw [Request.kept_iff] at h ⊢
  obtain ⟨hseq, h1, h2, hrest⟩ := h
  exact ⟨hseq, h1, h2.fill (by omega), hrest⟩

theorem keeps_parseLoad (name : List Char) : Keeps seq (parseLoad name request) := by
  rw [parseLoad]
  split
  · exact keeps_error _
  rename_i hname
  rw [Bool.not_eq_true', Bool.not_eq_false] at hname
  have hlength := length_of_filename hname
  exact keeps_ok (kept_name h (Nat.lt_succ_of_le hlength) request.policy .load)

theorem keeps_parseSeed (text : List Char) : Keeps seq (parseSeed text request) := by
  rw [parseSeed]
  split
  · exact keeps_error _
  · exact keeps_ok h

theorem keeps_parseReference (text : List Char) :
    Keeps seq (parseReference text request) := by
  rw [parseReference]
  split
  · exact keeps_error _
  · exact keeps_ok h

theorem keeps_parseGenerate (text : List Char) : Keeps seq (parseGenerate text request) := by
  rw [parseGenerate]
  split
  · exact keeps_error _
  split
  · exact keeps_error _
  split
  · exact keeps_error _
  split
  · exact keeps_error _
  split
  · exact keeps_error _
  split
  · exact keeps_error _
  rename_i hnames
  simp only [not_or, Bool.not_eq_true', Bool.not_eq_false] at hnames
  have hinput := length_of_filename hnames.1
  have hname := length_of_filename hnames.2
  refine keeps_ok ?_
  rw [Request.kept_iff] at h ⊢
  obtain ⟨hseq, h1, h2, h3, hrest⟩ := h
  exact ⟨hseq, h1.fill (Nat.lt_succ_of_le hname), h2, h3.fill (Nat.lt_succ_of_le hinput), hrest⟩

theorem keeps_parseUnscheduled {text : List Char} {verdict : Result (Request R)}
    (hverdict : parseUnscheduled text request = some verdict) : Keeps seq verdict := by
  rw [parseUnscheduled] at hverdict
  split at hverdict
  · cases hverdict
    exact keeps_ok h
  split at hverdict
  · rename_i hdelegated
    cases hverdict
    exact keeps_judged (kept_parseDelegated h hdelegated)
  split at hverdict
  · cases hverdict
    exact keeps_parsePlay h _
  split at hverdict
  · cases hverdict
    exact keeps_parseLoad h _
  split at hverdict
  · cases hverdict
    exact keeps_parseSeed h _
  split at hverdict
  · cases hverdict
    exact keeps_parseGenerate h _
  split at hverdict
  · cases hverdict
    exact keeps_parseReference h _
  · cases hverdict

namespace Words

theorem keeps_parseEncode (words : Words) : Keeps seq (words.parseEncode request) := by
  rw [parseEncode]
  split
  · exact keeps_error _
  rename_i hfields
  simp only [not_or, Bool.not_eq_true', Bool.not_eq_false, Nat.not_le] at hfields
  obtain ⟨-, hencoder, -, hprofile, hinput, hname⟩ := hfields
  split
  · exact keeps_error _
  split
  · exact keeps_error _
  refine keeps_ok ?_
  rw [Request.kept_iff] at h ⊢
  obtain ⟨hseq, h1, h2, h3, h4, h5, hrest⟩ := h
  rw [h4.size_eq] at hencoder
  rw [h5.size_eq] at hprofile
  have hinput := length_of_filename hinput
  have hname := length_of_filename hname
  refine ⟨hseq, h1.fill (Nat.lt_succ_of_le hname), h2, h3.fill (Nat.lt_succ_of_le hinput), ?_,
    h5.fill hprofile, hrest⟩
  rw [h4.size_eq]
  exact (terminated_zeros (by decide)).fill hencoder

theorem keeps_parseSlotSwitch (words : Words) :
    Keeps seq (words.parseSlotSwitch request) := by
  rw [parseSlotSwitch]
  split
  · exact keeps_error _
  · exact keeps_ok h

theorem keeps_parseSetting (words : Words) (value : R) :
    Keeps seq (words.parseSetting value request) := by
  rw [parseSetting]
  split
  · exact keeps_error _
  · exact keeps_ok h

theorem keeps_parseSlotSetting (words : Words) (value : R) :
    Keeps seq (words.parseSlotSetting value request) := by
  rw [parseSlotSetting]
  split
  · exact keeps_error _
  split
  · exact keeps_ok h
  split
  · exact keeps_ok h
  · exact keeps_error _

theorem keeps_parseFade (words : Words) : Keeps seq (words.parseFade request) := by
  rw [parseFade]
  split
  · exact keeps_ok h
  · exact keeps_error _

theorem kept_parseSweepTarget (words : Words) {target : Request R × Nat}
    (htarget : words.parseSweepTarget request = .ok target) : target.1.Kept seq := by
  rw [parseSweepTarget] at htarget
  split at htarget
  · dsimp only at htarget
    generalize (if words.length = 8 then cwSlot (words.word 2) else .ok request.oscillator) = slot
      at htarget
    generalize (if words.length = 8 then 3 else 2) = place at htarget
    split at htarget
    · cases htarget
    split at htarget
    · cases htarget
      exact h
    split at htarget
    · cases htarget
      exact h
    · cases htarget
  split at htarget
  · split at htarget
    · cases htarget
    · cases htarget
      exact h
  · cases htarget

theorem keeps_parseSweep (words : Words) : Keeps seq (words.parseSweep request) := by
  rw [parseSweep]
  split
  · exact keeps_error _
  rename_i htarget
  have hkept := kept_parseSweepTarget h words htarget
  split
  · split
    · exact keeps_error _
    · exact keeps_ok hkept
  · exact keeps_error _

theorem keeps_parseLonger (words : Words) : Keeps seq (words.parseLonger request) := by
  rw [parseLonger]
  split
  · exact keeps_parseSlotSetting h words _
  split
  · exact keeps_parseFade h words
  split
  · exact keeps_parseSweep h words
  · exact keeps_error _

theorem keeps_parse (words : Words) : Keeps seq (words.parse request) := by
  rw [parse]
  split
  · exact keeps_parseEncode h words
  split
  · exact keeps_ok h
  split
  · exact keeps_parseSlotSwitch h words
  split
  · exact keeps_parseSetting h words _
  · exact keeps_parseLonger h words

end Words

theorem keeps_parseCommand (text : List Char) : Keeps seq (parseCommand text request) := by
  rw [parseCommand]
  split
  · rename_i hunscheduled
    split at hunscheduled
    · cases hunscheduled
    · exact keeps_parseUnscheduled h hunscheduled
  split
  · exact keeps_error _
  · exact Words.keeps_parse h _

theorem keeps_parseScheduled (text : List Char) :
    Keeps seq (parseScheduled text request) := by
  rw [parseScheduled]
  split
  · split
    · exact keeps_error _
    split
    · exact keeps_error _
    · refine keeps_parseCommand ?_ _
      exact h
  · exact keeps_parseCommand h text

end WaveformGenerator.LiveProtocol

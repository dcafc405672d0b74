import WaveformGenerator.Lib.Held
import WaveformGenerator.Playlist.ResultFifo
import WaveformGenerator.Playlist.Sequencer

/-!
# The sequencer keeps its books

Every item that begins leaves one block, in the order of the file; the ring keeps each block until it
is acknowledged; and how a run ends says what its items came to.
-/

namespace WaveformGenerator.Playlist

open Player UsbAudio

/-! ## What the ring keeps -/

namespace ResultRing

theorem neZero_resultCapacity : NeZero resultCapacity := inferInstance

/-- The blocks kept, oldest first. -/
def contents (ring : ResultRing) : List ResultBlock :=
  @Ring.segment _ _ neZero_resultCapacity ring.blocks ring.first ring.count.toNat

variable {ring : ResultRing}

theorem push_of_not_full (hroom : ring.count.toNat ≤ resultCapacity) (hfull : ring.full = false)
    (block : ResultBlock) :
    (ring.push block).1 = .success ∧
      (ring.push block).2.contents = ring.contents ++ [{ block with seq := ring.nextSeq }] ∧
      (ring.push block).2.count.toNat ≤ resultCapacity := by
  have hless : ring.count.toNat < resultCapacity :=
    Nat.lt_of_le_of_ne hroom (by simpa [full] using hfull)
  have hsmall : ring.count.toNat + 1 < 2 ^ 32 := Nat.lt_of_le_of_lt hless (by decide)
  have hcount : (ring.count + 1).toNat = ring.count.toNat + 1 := toNat_add32 hsmall
  rw [push, if_neg (by simp [hfull])]
  refine ⟨rfl, ?_, ?_⟩
  · show Ring.segment _ ring.first (ring.count + 1).toNat = _
    rw [hcount, Ring.segment_store _ _ hless]
    rfl
  · show (ring.count + 1).toNat ≤ _
    rw [hcount]
    exact hless

/-- What an acknowledgement frees is the oldest, and it keeps the others. -/
theorem contents_acknowledge (hroom : ring.count.toNat ≤ resultCapacity) (through : UInt32) :
    (ring.acknowledge through).2.count.toNat ≤ ring.count.toNat ∧
      ring.contents = ring.copyOldest
        (ring.count.toNat - (ring.acknowledge through).2.count.toNat) ++
          (ring.acknowledge through).2.contents := by
  have hcopy (n : Nat) (hn : n ≤ ring.count.toNat) : ring.copyOldest n = ring.contents.take n := by
    rw [copyOldest, Nat.min_eq_left hn, contents, Ring.take_segment _ _ hn]
    rfl
  unfold acknowledge
  split
  · rw [Nat.sub_self, hcopy 0 (Nat.zero_le _)]
    exact ⟨Nat.le_refl _, rfl⟩
  · obtain ⟨kept, first, hkept, hfree, hsegment⟩ := free_spec through ring 0
    have hsuffix : kept <:+ ring.contents := hkept ▸ List.dropWhile_suffix _
    have hlength : kept.length ≤ ring.count.toNat := by
      have := hsuffix.length_le
      rwa [contents, Ring.length_segment] at this
    have hcount : (UInt32.ofNat kept.length).toNat = kept.length :=
      toNat_ofNat32 (by unfold resultCapacity at hroom; omega)
    rw [hfree]
    dsimp only
    rw [hcount]
    refine ⟨hlength, ?_⟩
    have hcontents : contents { ring with first, count := .ofNat kept.length } = kept := by
      show Ring.segment ring.blocks first (UInt32.ofNat kept.length).toNat = kept
      rw [hcount, hsegment]
    rw [hcontents, hcopy _ (Nat.sub_le ..)]
    obtain ⟨front, hfront⟩ := hsuffix
    have hboth := congrArg List.length hfront
    rw [List.length_append, contents, Ring.length_segment] at hboth
    rw [← hfront, ← hboth, Nat.add_sub_cancel, List.take_left]

end ResultRing

/-! ## The books -/

/-- What has been noted: of the runs before, of the current or last run, and freed since boot. -/
structure History where
  earlier : List ResultBlock := []
  freed : List ResultBlock := []
  pushed : List ResultBlock := []
  began : List Nat := []
  refused : List ResultBlock := []
  stopped : Bool := false
  cleanupStayed : Bool := false

namespace History

def note (h : History) : Note → History
  | .accepted _ => { h with
      earlier := h.earlier ++ h.pushed
      pushed := []
      began := []
      stopped := false
      cleanupStayed := false }
  | .stop => { h with stopped := true }
  | .freed blocks => { h with freed := h.freed ++ blocks }
  | .began index => { h with began := h.began ++ [index] }
  | .pushed block => { h with pushed := h.pushed ++ [block] }
  | .refused block => { h with refused := h.refused ++ [block] }
  | .ended _ cleanupPending => { h with cleanupStayed := cleanupPending }

def noteAll (h : History) (notes : List Note) : History := notes.foldl note h

end History

/-- The sequencer from boot with what has been noted of it. -/
def sequence (turns : List Turn) : Sequencer × History :=
  turns.foldl (fun (s, h) turn => ((s.step turn).1, h.noteAll (s.step turn).2)) ({}, {})

/-- The books agree with the ring and the progress. -/
structure Balanced (s : Sequencer) (h : History) : Prop where
  room : s.results.count.toNat ≤ resultCapacity
  kept : h.earlier ++ h.pushed = h.freed ++ s.results.contents
  completed : s.progress.completed = .ofNat h.pushed.length
  failed : s.progress.failed = .ofNat (h.pushed.countP (·.outcome = .error))
  stopped : s.stopRequested = true → h.stopped = true
  refused : h.refused = []

/-- `n` items have begun and `k` have ended, none so that the run ends. -/
structure Stands (s : Sequencer) (h : History) (n k : Nat) : Prop where
  began : h.began = List.range n
  pushed : h.pushed.map (fun block => (block.run, block.item)) =
    (List.range k).map fun index => (s.progress.run, .ofNat index)
  goOn : ∀ block ∈ h.pushed, endAfter block.outcome s.progress.policy false = none

/-- Between items, with nothing that ends the run. -/
structure Between (s : Sequencer) (h : History) (index : Nat) : Prop where
  stands : Stands s h index index
  quiet : s.stopRequested = false
  clean : s.cleanupPending = false

/-- How a run has ended. -/
structure Ended (s : Sequencer) (h : History) : Prop where
  blocks : ∃ n ≤ s.table.items.length, h.began = List.range n ∧
    h.pushed.map (fun block => (block.run, block.item)) =
      (List.range n).map fun index => (s.progress.run, .ofNat index)
  active : s.progress.state ≠ .running ∧ s.progress.state ≠ .gap ∧
    s.progress.state ≠ .pausedRingFull
  done : s.progress.state = .done → h.began = List.range s.table.items.length ∧
    ∀ block ∈ h.pushed, endAfter block.outcome s.progress.policy false = none
  aborted : s.progress.state = .aborted → h.stopped = true ∨
    ∃ block ∈ h.pushed, block.outcome = .aborted
  error : s.progress.state = .error →
    (s.progress.policy = .stop ∧ ∃ block ∈ h.pushed, block.outcome = .error) ∨
      h.cleanupStayed = true

/-- Where the run stands, by what the sequencer is at. -/
def Phase.Stands (s : Sequencer) (h : History) : Phase → Prop
  | .idle => Ended s h
  | .room index _ => Between s h index ∧ index ≤ s.table.items.length
  | .planning index _ | .gap index _ _ | .starting index _ =>
    Between s h index ∧ index < s.table.items.length ∧ s.results.full = false
  | .playing index block _ | .recording index block _ =>
    Playlist.Stands s h (index + 1) index ∧ index < s.table.items.length ∧
      s.results.full = false ∧ block.run = s.progress.run ∧ block.item = .ofNat index
  | .lastGap _ _ => Between s h s.table.items.length

structure Books (s : Sequencer) (h : History) : Prop where
  balanced : Balanced s h
  owner : s.ownsPlayer = true ↔ s.phase ≠ .idle
  stands : s.phase.Stands s h

variable {s : Sequencer} {h : History}

/-! ## Commands -/

/-- What a command does while the player belongs to a playlist. -/
structure Serves (s s' : Sequencer) (h h' : History) : Prop where
  balanced : Balanced s' h'
  phase : s'.phase = s.phase
  table : s'.table = s.table
  progress : s'.progress = s.progress
  owns : s'.ownsPlayer = s.ownsPlayer
  began : h'.began = h.began
  pushed : h'.pushed = h.pushed
  cleanup : s.cleanupPending = false → s'.cleanupPending = false
  full : s.results.full = false → s'.results.full = false

theorem ResultRing.not_full_of_le {ring ring' : ResultRing}
    (hle : ring'.count.toNat ≤ ring.count.toNat) (hroom : ring.count.toNat ≤ resultCapacity)
    (hfull : ring.full = false) : ring'.full = false := by
  simp only [ResultRing.full, beq_eq_false_iff_ne] at hfull ⊢
  omega

theorem Balanced.serve (b : Balanced s h) (howns : s.ownsPlayer = true) (served : Option Command) :
    Serves s (s.serve served).1 h (h.noteAll (s.serve served).2) := by
  have hsame : Serves s s h h := ⟨b, rfl, rfl, rfl, rfl, rfl, rfl, id, id⟩
  unfold Sequencer.serve
  split
  case h_1 => exact hsame
  case h_2 => exact hsame
  case h_3 cleaned =>
    split
    · exact { hsame with
        balanced := { b with stopped := fun _ => rfl }
        cleanup := fun hclean => by simp_all }
    · exact { hsame with balanced := { b with stopped := fun _ => rfl } }
  case h_4 through =>
    split
    · exact hsame
    · obtain ⟨hle, hcontents⟩ := ResultRing.contents_acknowledge b.room through
      exact { hsame with
        balanced := { b with
          room := Nat.le_trans hle b.room
          kept := by
            show h.earlier ++ h.pushed = (h.freed ++ _) ++ _
            rw [b.kept, hcontents, List.append_assoc] }
        full := ResultRing.not_full_of_le hle b.room }
  case h_5 name table policy =>
    rw [if_pos (.inr howns)]
    exact hsame

theorem Serves.between {s' : Sequencer} {h' : History} (v : Serves s s' h h') {index : Nat}
    (b : Between s h index) (hquiet : s'.stopRequested = false) : Between s' h' index where
  stands := by
    refine ⟨v.began.trans b.stands.began, ?_, ?_⟩
    · rw [v.pushed, v.progress]
      exact b.stands.pushed
    · rw [v.pushed, v.progress]
      exact b.stands.goOn
  quiet := hquiet
  clean := v.cleanup b.clean

/-! ## Ends -/

theorem History.noteAll_append (h : History) (notes notes' : List Note) :
    h.noteAll (notes ++ notes') = (h.noteAll notes).noteAll notes' := List.foldl_append

/-- The sequencer ends between items, or right behind one. -/
theorem Books.ending (b : Balanced s h) {state : State} {n : Nat} (hn : n ≤ s.table.items.length)
    (hbegan : h.began = List.range n)
    (hpushed : h.pushed.map (fun block => (block.run, block.item)) =
      (List.range n).map fun index => (s.progress.run, .ofNat index))
    (hstate : state = .done ∧ n = s.table.items.length ∧
        (∀ block ∈ h.pushed, endAfter block.outcome s.progress.policy false = none) ∨
      state = .aborted ∧ (h.stopped = true ∨ ∃ block ∈ h.pushed, block.outcome = .aborted) ∨
      state = .error ∧ ((s.progress.policy = .stop ∧ ∃ block ∈ h.pushed, block.outcome = .error) ∨
        s.cleanupPending = true)) :
    Books (s.endPlaylist state) (h.note (.ended state s.cleanupPending)) where
  balanced := { b with stopped := nofun }
  owner := ⟨nofun, fun h => absurd rfl h⟩
  stands := by
    refine ⟨⟨n, hn, hbegan, hpushed⟩, ?_, fun hdone => ?_, fun haborted => ?_, fun herror => ?_⟩
    · rcases hstate with ⟨rfl, -⟩ | ⟨rfl, -⟩ | ⟨rfl, -⟩ <;> exact ⟨nofun, nofun, nofun⟩
    · rcases hstate with ⟨rfl, rfl, hgoOn⟩ | ⟨rfl, -⟩ | ⟨rfl, -⟩
      · exact ⟨hbegan, hgoOn⟩
      · exact nomatch hdone
      · exact nomatch hdone
    · rcases hstate with ⟨rfl, -⟩ | ⟨rfl, hwhy⟩ | ⟨rfl, -⟩
      · exact nomatch haborted
      · exact hwhy
      · exact nomatch haborted
    · rcases hstate with ⟨rfl, -⟩ | ⟨rfl, -⟩ | ⟨rfl, hwhy⟩
      · exact nomatch herror
      · exact nomatch herror
      · exact hwhy

/-- STOP while the sequencer waits. -/
theorem Serves.stopped {s' : Sequencer} {h' : History} (v : Serves s s' h h') {index : Nat}
    (b : Between s h index) (hindex : index ≤ s.table.items.length)
    (hstop : s'.stopRequested = true) :
    Books (s'.endPlaylist .aborted) (h'.note (.ended .aborted s'.cleanupPending)) := by
  refine Books.ending v.balanced (v.table ▸ hindex) (v.began.trans b.stands.began) ?_
    (.inr (.inl ⟨rfl, .inl (v.balanced.stopped hstop)⟩))
  rw [v.pushed, v.progress]
  exact b.stands.pushed

/-! ## Turns -/

theorem goOn_iff {outcome : Outcome} {policy : Policy} {stopRequested : Bool} :
    endAfter outcome policy stopRequested = none ↔
      stopRequested = false ∧ endAfter outcome policy false = none := by
  cases stopRequested <;> simp [endAfter]

/-- What an item's outcome ends the run in. -/
theorem endAfter_eq_some {outcome : Outcome} {policy : Policy} {stopRequested : Bool} {state : State}
    (hend : endAfter outcome policy stopRequested = some state) :
    state = .aborted ∧ (stopRequested = true ∨ outcome = .aborted) ∨
      state = .error ∧ policy = .stop ∧ outcome = .error := by
  unfold endAfter at hend
  split at hend
  case isTrue hwhy =>
    cases hend
    exact .inl ⟨rfl, hwhy⟩
  case isFalse =>
    split at hend
    case isTrue hwhy =>
      cases hend
      exact .inr ⟨rfl, hwhy.2, hwhy.1⟩
    case isFalse => exact nomatch hend

theorem Between.setProgress {index : Nat} (b : Between s h index) (state : State) (i : Nat) :
    Between (s.setProgress state i) h index := ⟨⟨b.stands.1, b.stands.2, b.stands.3⟩, b.2, b.3⟩

theorem Balanced.setProgress (b : Balanced s h) (state : State) (i : Nat) :
    Balanced (s.setProgress state i) h := { b with }

/-- An item that has ended leaves its block, and the run goes on or ends. -/
theorem Books.afterItem (b : Balanced s h) (howns : s.ownsPlayer = true) {index : Nat} {item : Item}
    {block : ResultBlock} (hstands : Playlist.Stands s h (index + 1) index)
    (hindex : index < s.table.items.length) (hfull : s.results.full = false)
    (hrun : block.run = s.progress.run) (hitem : block.item = .ofNat index) (streamOpens : UInt32)
    (now : TickCount) :
    Books (s.afterItem index item block streamOpens now).1
      (h.noteAll (s.afterItem index item block streamOpens now).2) := by
  obtain ⟨hstatus, hcontents, hroom⟩ := ResultRing.push_of_not_full b.room hfull block
  generalize hpush : s.results.push block = pushed at hstatus hcontents hroom
  obtain ⟨status, results⟩ := pushed
  dsimp only at hstatus hcontents hroom
  subst hstatus
  have hrecord : s.recordResult block = (.success, { s with
      results
      progress := { s.progress with
        completed := s.progress.completed + 1
        failed := s.progress.failed + if block.outcome = .error then 1 else 0 } }) := by
    unfold Sequencer.recordResult
    rw [hpush]
    rfl
  generalize hstored : ({ block with seq := s.results.nextSeq } : ResultBlock) = stored at hcontents
  have hstoredRun : (stored.run, stored.item) = (s.progress.run, .ofNat index) := by
    rw [← hstored, ← hrun, ← hitem]
  have houtcome : stored.outcome = block.outcome := by rw [← hstored]
  set s' : Sequencer := { s with
      results
      progress := { s.progress with
        completed := s.progress.completed + 1
        failed := s.progress.failed + if block.outcome = .error then 1 else 0 } } with hs'
  have b' : Balanced s' { h with pushed := h.pushed ++ [stored] } := {
    room := hroom
    kept := by
      show h.earlier ++ (h.pushed ++ [stored]) = h.freed ++ results.contents
      rw [hcontents, ← List.append_assoc, b.kept, List.append_assoc]
    completed := by
      show s.progress.completed + 1 = _
      rw [b.completed, List.length_append, List.length_singleton, UInt32.ofNat_add]
      rfl
    failed := by
      show s.progress.failed + _ = _
      rw [b.failed, List.countP_append, UInt32.ofNat_add, List.countP_singleton, houtcome]
      congr 1
      split <;> simp_all
    stopped := b.stopped
    refused := b.refused }
  have hpushed : (h.pushed ++ [stored]).map (fun block => (block.run, block.item)) =
      (List.range (index + 1)).map fun index => (s'.progress.run, .ofNat index) := by
    rw [List.map_append, hstands.pushed, List.range_succ, List.map_append, List.map_singleton,
      hstoredRun]
    rfl
  unfold Sequencer.afterItem
  rw [hrecord, hstored]
  dsimp only
  rw [if_neg (by simp)]
  split
  case isTrue hcleanup =>
    exact Books.ending b' hindex hstands.began hpushed (.inr (.inr ⟨rfl, .inr hcleanup⟩))
  case isFalse hclean =>
    split
    case h_1 state hend =>
      refine Books.ending b' hindex hstands.began hpushed (.inr ?_)
      rcases endAfter_eq_some hend with ⟨rfl, hstop | haborted⟩ | ⟨rfl, hpolicy, herror⟩
      · exact .inl ⟨rfl, .inl (b.stopped hstop)⟩
      · exact .inl ⟨rfl, .inr ⟨stored, List.mem_append_right _ List.mem_cons_self,
          houtcome.trans haborted⟩⟩
      · exact .inr ⟨rfl, .inl ⟨hpolicy, stored, List.mem_append_right _ List.mem_cons_self,
          houtcome.trans herror⟩⟩
    case h_2 hnone =>
      obtain ⟨hquiet, hgoesOn⟩ := goOn_iff.mp hnone
      have hbetween : Between s' { h with pushed := h.pushed ++ [stored] } (index + 1) := {
        stands := {
          began := hstands.began
          pushed := hpushed
          goOn := by
            rw [List.forall_mem_append, List.forall_mem_singleton]
            refine ⟨hstands.goOn, ?_⟩
            rw [houtcome]
            exact hgoesOn }
        quiet := hquiet
        clean := Bool.not_eq_true _ ▸ hclean }
      split
      case isTrue hmore =>
        exact {
          balanced := { b' with }
          owner := ⟨fun _ => nofun, fun _ => howns⟩
          stands := ⟨⟨⟨hbetween.1.1, hbetween.1.2, hbetween.1.3⟩, hbetween.2, hbetween.3⟩,
            Nat.le_of_lt hmore⟩ }
      case isFalse hlast =>
        have hlast' : ¬index + 1 < s.table.items.length := hlast
        have hall : index + 1 = s.table.items.length := by omega
        rw [hall] at hbetween
        exact {
          balanced := { b' with }
          owner := ⟨fun _ => nofun, fun _ => howns⟩
          stands := ⟨⟨hbetween.1.1, hbetween.1.2, hbetween.1.3⟩, hbetween.2, hbetween.3⟩ }

theorem Stands.of_eq {s s' : Sequencer} {h h' : History} {n k : Nat}
    (stands : Playlist.Stands s h n k) (hprogress : s'.progress.run = s.progress.run)
    (hpolicy : s'.progress.policy = s.progress.policy) (hbegan : h'.began = h.began)
    (hpushed : h'.pushed = h.pushed) : Playlist.Stands s' h' n k where
  began := hbegan.trans stands.began
  pushed := by rw [hpushed, hprogress]; exact stands.pushed
  goOn := by rw [hpushed, hpolicy]; exact stands.goOn

/-- A turn of a wait for the end of a gap. -/
theorem Books.wait (b : Balanced s h) (howns : s.ownsPlayer = true) {index : Nat}
    (between : Between s h index) (hindex : index ≤ s.table.items.length)
    (served : Option Command) :
    ((s.serve served).1.stopRequested = true →
      Books ((s.serve served).1.ending (s.serve served).2 .aborted).1
        (h.noteAll ((s.serve served).1.ending (s.serve served).2 .aborted).2)) ∧
    ((s.serve served).1.stopRequested = false →
      Between (s.serve served).1 (h.noteAll (s.serve served).2) index) := by
  have v := b.serve howns served
  refine ⟨fun hstop => ?_, v.between between⟩
  unfold Sequencer.ending
  rw [History.noteAll_append]
  exact v.stopped between hindex hstop

/-- Between runs only a PLAYLIST does anything. -/
theorem Books.idle (books : Books s h) (hphase : s.phase = .idle) (served : Option Command) :
    Books (s.serve served).1 (h.noteAll (s.serve served).2) := by
  obtain ⟨b, howner, hstands⟩ := books
  have hended : Ended s h := by rw [hphase] at hstands; exact hstands
  have hnot : s.ownsPlayer ≠ true := fun howns => howner.mp howns hphase
  have hstays (s' : Sequencer) (h' : History) (hphase' : s'.phase = s.phase)
      (howns' : s'.ownsPlayer = s.ownsPlayer) (b' : Balanced s' h') (hended' : Ended s' h') :
      Books s' h' := by
    refine ⟨b', by rw [hphase', howns']; exact howner, ?_⟩
    rw [hphase', hphase]
    exact hended'
  unfold Sequencer.serve
  split
  case h_1 => exact ⟨b, howner, hstands⟩
  case h_2 => exact ⟨b, howner, hstands⟩
  case h_3 cleaned =>
    have hended' (s' : Sequencer) (htable : s'.table = s.table)
        (hprogress : s'.progress = s.progress) : Ended s' (h.note .stop) := by
      obtain ⟨hblocks, hactive, hdone, haborted, herror⟩ := hended
      exact ⟨by rw [htable, hprogress]; exact hblocks, by rw [hprogress]; exact hactive,
        by rw [htable, hprogress]; exact hdone, fun _ => .inl rfl, by rw [hprogress]; exact herror⟩
    split
    · exact hstays _ _ rfl rfl { b with stopped := fun _ => rfl } (hended' _ rfl rfl)
    · exact hstays _ _ rfl rfl { b with stopped := fun _ => rfl } (hended' _ rfl rfl)
  case h_4 through =>
    split
    · exact ⟨b, howner, hstands⟩
    · obtain ⟨hle, hcontents⟩ := ResultRing.contents_acknowledge b.room through
      refine hstays _ _ rfl rfl { b with
        room := Nat.le_trans hle b.room
        kept := ?_ } ⟨hended.1, hended.2, hended.3, hended.4, hended.5⟩
      show h.earlier ++ h.pushed = (h.freed ++ _) ++ _
      rw [b.kept, hcontents, List.append_assoc]
  case h_5 name table policy =>
    split
    · exact ⟨b, howner, hstands⟩
    · rename_i hready
      exact {
        balanced := {
          room := b.room
          kept := (List.append_nil _).trans b.kept
          completed := rfl
          failed := rfl
          stopped := nofun
          refused := b.refused }
        owner := ⟨fun _ => nofun, fun _ => rfl⟩
        stands := ⟨⟨⟨rfl, rfl, fun _ hblock => absurd hblock List.not_mem_nil⟩, rfl,
          Bool.not_eq_true _ ▸ fun h => hready (.inl h)⟩, Nat.zero_le _⟩ }

/-- How item `index` is planned after its gap. -/
theorem Books.planStart (b : Balanced s h) (howns : s.ownsPlayer = true) {index : Nat}
    (between : Between s h index) (hindex : index < s.table.items.length)
    (hfull : s.results.full = false) (item : Item) (gap : Option GapWait) (reading : Reading) :
    Books (s.planStart index item gap reading) h := by
  unfold Sequencer.planStart
  split
  · exact ⟨{ b with }, ⟨fun _ => nofun, fun _ => howns⟩,
      ⟨between.stands.of_eq rfl rfl rfl rfl, between.quiet, between.clean⟩, hindex, hfull⟩
  · split
    · exact ⟨{ b with }, ⟨fun _ => nofun, fun _ => howns⟩,
        ⟨between.stands.of_eq rfl rfl rfl rfl, between.quiet, between.clean⟩, hindex, hfull⟩
    · exact ⟨{ b with }, ⟨fun _ => nofun, fun _ => howns⟩,
        ⟨between.stands.of_eq rfl rfl rfl rfl, between.quiet, between.clean⟩, hindex, hfull⟩

/-- **One turn.** The books stay right. -/
theorem Books.step (books : Books s h) (turn : Turn) :
    Books (s.step turn).1 (h.noteAll (s.step turn).2) := by
  obtain ⟨b, howner, hstands⟩ := books
  unfold Sequencer.step
  cases hphase : s.phase with
  | idle =>
    exact Books.idle ⟨b, howner, hstands⟩ hphase turn.served
  | room index gap =>
    rw [hphase] at howner hstands
    obtain ⟨between, hindex⟩ := hstands
    have howns := howner.mpr nofun
    dsimp only
    split
    case h_1 hnone =>
      have hall : index = s.table.items.length :=
        Nat.le_antisymm hindex (List.getElem?_eq_none_iff.mp hnone)
      subst hall
      exact Books.ending b (Nat.le_refl _) between.stands.began between.stands.pushed
        (.inl ⟨rfl, rfl, between.stands.goOn⟩)
    case h_2 item hitem =>
      split
      case isTrue hfull =>
        obtain ⟨hstopped, hgoes⟩ := Books.wait (b.setProgress .pausedRingFull index) howns
          (between.setProgress .pausedRingFull index) hindex turn.served
        have v := (b.setProgress .pausedRingFull index).serve howns turn.served
        generalize (s.setProgress .pausedRingFull index).serve turn.served = served at *
        obtain ⟨s', notes⟩ := served
        dsimp only at *
        split
        case isTrue hstop => exact hstopped hstop
        case isFalse hquiet =>
          have hphase' : s'.phase = .room index gap := v.phase.trans hphase
          refine ⟨v.balanced, ?_, ?_⟩
          · rw [v.owns, hphase']
            exact ⟨fun _ => nofun, fun _ => howns⟩
          · rw [hphase']
            refine ⟨hgoes (Bool.not_eq_true _ ▸ hquiet), ?_⟩
            rw [v.table]
            exact hindex
      case isFalse hroom =>
        have hless : index < s.table.items.length := List.getElem?_eq_some_iff.mp hitem |>.1
        exact ⟨{ b with }, ⟨fun _ => nofun, fun _ => howns⟩,
          ⟨between.stands.of_eq rfl rfl rfl rfl, between.quiet, between.clean⟩, hless,
          Bool.not_eq_true _ ▸ hroom⟩
  | planning index gap =>
    rw [hphase] at howner hstands
    obtain ⟨between, hindex, hroom⟩ := hstands
    dsimp only
    split
    case h_1 hnone => exact absurd hindex (Nat.not_lt.mpr (List.getElem?_eq_none_iff.mp hnone))
    case h_2 item _ => exact Books.planStart b (howner.mpr nofun) between hindex hroom ..
  | gap index gap progress =>
    rw [hphase] at howner hstands
    obtain ⟨between, hindex, hroom⟩ := hstands
    have howns := howner.mpr nofun
    obtain ⟨hstopped, hgoes⟩ := Books.wait b howns between (Nat.le_of_lt hindex) turn.served
    have v := b.serve howns turn.served
    generalize s.serve turn.served = served at *
    obtain ⟨s', notes⟩ := served
    dsimp only at *
    split
    case isTrue hstop => exact hstopped hstop
    case isFalse hquiet =>
      have hless : index < s'.table.items.length := v.table ▸ hindex
      have howns' := v.owns.trans howns
      have hbetween := hgoes (Bool.not_eq_true _ ▸ hquiet)
      have hstands' := hbetween.stands
      split
      · exact ⟨{ v.balanced with }, ⟨fun _ => nofun, fun _ => howns'⟩,
          ⟨hstands'.of_eq rfl rfl rfl rfl, hbetween.quiet, hbetween.clean⟩, hless, v.full hroom⟩
      · exact ⟨{ v.balanced with }, ⟨fun _ => nofun, fun _ => howns'⟩,
          ⟨hstands'.of_eq rfl rfl rfl rfl, hbetween.quiet, hbetween.clean⟩, hless, v.full hroom⟩
  | starting index plan =>
    rw [hphase] at howner hstands
    obtain ⟨between, hindex, hroom⟩ := hstands
    have howns := howner.mpr nofun
    have hbegan : (h.note (.began index)).began = List.range (index + 1) := by
      show h.began ++ [index] = _
      rw [between.stands.began, List.range_succ]
    dsimp only
    split
    case h_1 hnone => exact absurd hindex (Nat.not_lt.mpr (List.getElem?_eq_none_iff.mp hnone))
    case h_2 item _ =>
      split
      · exact ⟨{ b with }, ⟨fun _ => nofun, fun _ => howns⟩,
          ⟨hbegan, between.stands.pushed, between.stands.goOn⟩, hindex, hroom, rfl, rfl⟩
      · exact ⟨{ b with }, ⟨fun _ => nofun, fun _ => howns⟩,
          ⟨hbegan, between.stands.pushed, between.stands.goOn⟩, hindex, hroom, rfl, rfl⟩
  | playing index block streamOpens =>
    rw [hphase] at howner hstands
    obtain ⟨stands, hindex, hroom, hrun, hitem⟩ := hstands
    have howns := howner.mpr nofun
    have b' : Balanced { s with
        cleanupPending := turn.cleanupPending
        phase := .playing index block streamOpens } h := { b with }
    dsimp only
    split
    case h_1 =>
      have v := b'.serve howns turn.served
      generalize Sequencer.serve { s with
        cleanupPending := turn.cleanupPending
        phase := .playing index block streamOpens } turn.served = served at *
      obtain ⟨s', notes⟩ := served
      have hphase' : s'.phase = .playing index block streamOpens := v.phase
      refine ⟨v.balanced, ?_, ?_⟩
      · rw [v.owns, hphase']
        exact ⟨fun _ => nofun, fun _ => howns⟩
      · rw [hphase']
        refine ⟨stands.of_eq ?_ ?_ v.began v.pushed, ?_, v.full hroom, ?_, hitem⟩
        · exact congrArg (·.run) v.progress
        · exact congrArg (·.policy) v.progress
        · rw [v.table]
          exact hindex
        · exact hrun.trans (congrArg (·.run) v.progress).symm
    case h_2 ended _ =>
      exact ⟨{ b with }, ⟨fun _ => nofun, fun _ => howns⟩, stands.of_eq rfl rfl rfl rfl, hindex,
        hroom, hrun, hitem⟩
  | recording index block streamOpens =>
    rw [hphase] at howner hstands
    obtain ⟨stands, hindex, hroom, hrun, hitem⟩ := hstands
    dsimp only
    split
    case h_1 hnone => exact absurd hindex (Nat.not_lt.mpr (List.getElem?_eq_none_iff.mp hnone))
    case h_2 item _ =>
      exact Books.afterItem b (howner.mpr nofun) stands hindex hroom hrun hitem ..
  | lastGap gap progress =>
    rw [hphase] at howner hstands
    have howns := howner.mpr nofun
    have between : Between s h s.table.items.length := hstands
    obtain ⟨hstopped, hgoes⟩ := Books.wait b howns between (Nat.le_refl _) turn.served
    have v := b.serve howns turn.served
    generalize s.serve turn.served = served at *
    obtain ⟨s', notes⟩ := served
    dsimp only at *
    split
    case isTrue hstop => exact hstopped hstop
    case isFalse hquiet =>
      have hbetween := hgoes (Bool.not_eq_true _ ▸ hquiet)
      rw [← v.table] at hbetween
      split
      · unfold Sequencer.ending
        rw [History.noteAll_append]
        exact Books.ending v.balanced (Nat.le_refl _) hbetween.stands.began
          hbetween.stands.pushed (.inl ⟨rfl, rfl, hbetween.stands.goOn⟩)
      · exact ⟨{ v.balanced with }, ⟨fun _ => nofun, fun _ => v.owns.trans howns⟩,
          hbetween.stands.of_eq rfl rfl rfl rfl, hbetween.quiet, hbetween.clean⟩

/-! ## Runs -/

theorem Books.initial : Books {} {} where
  balanced := ⟨Nat.zero_le _, rfl, rfl, rfl, nofun, rfl⟩
  owner := ⟨nofun, fun h => absurd rfl h⟩
  stands := ⟨⟨0, Nat.zero_le _, rfl, rfl⟩, ⟨nofun, nofun, nofun⟩, nofun, nofun, nofun⟩

theorem Books.sequence (turns : List Turn) : Books (sequence turns).1 (sequence turns).2 :=
  Held.invariant (fun _ turn books => Books.step books turn)
    (P := fun state : Sequencer × History => Books state.1 state.2) Books.initial turns

/-- The item that has begun and whose block is not pushed yet. -/
def Phase.inHand : Phase → List Nat
  | .playing index _ _ | .recording index _ _ => [index]
  | _ => []

/-- The blocks pushed are those of the items that have begun, but for the one in hand. -/
theorem Books.blocks (books : Books s h) :
    h.began <+: List.range s.table.items.length ∧
      h.pushed.map (fun block => (block.run, block.item)) ++
          s.phase.inHand.map (fun index => (s.progress.run, .ofNat index)) =
        h.began.map fun index => (s.progress.run, .ofNat index) := by
  have hinitial {n : Nat} (hn : n ≤ s.table.items.length) :
      List.range n <+: List.range s.table.items.length := by
    rw [← Nat.add_sub_cancel' hn, List.range_add]
    exact List.prefix_append ..
  have hstands := books.stands
  cases hphase : s.phase with
  | idle =>
    rw [hphase] at hstands
    obtain ⟨n, hn, hbegan, hpushed⟩ := hstands.blocks
    rw [hbegan]
    exact ⟨hinitial hn, (List.append_nil _).trans hpushed⟩
  | playing index block streamOpens | recording index block streamOpens =>
    rw [hphase] at hstands
    rw [hstands.1.began, hstands.1.pushed, List.range_succ, List.map_append]
    exact ⟨List.range_succ ▸ hinitial hstands.2.1, rfl⟩
  | room index gap =>
    rw [hphase] at hstands
    rw [hstands.1.stands.began]
    exact ⟨hinitial hstands.2, (List.append_nil _).trans hstands.1.stands.pushed⟩
  | lastGap gap progress =>
    rw [hphase] at hstands
    have between : Between s h s.table.items.length := hstands
    rw [between.stands.began]
    exact ⟨List.prefix_rfl, (List.append_nil _).trans between.stands.pushed⟩
  | planning index gap | gap index gap progress | starting index plan =>
    rw [hphase] at hstands
    rw [hstands.1.stands.began]
    exact ⟨hinitial (Nat.le_of_lt hstands.2.1),
      (List.append_nil _).trans hstands.1.stands.pushed⟩

theorem Books.length_pushed (books : Books s h) : h.pushed.length ≤ maxItems := by
  obtain ⟨hbegan, hblocks⟩ := books.blocks
  have hlength := congrArg List.length hblocks
  rw [List.length_append, List.length_map, List.length_map, List.length_map] at hlength
  have hmost := hbegan.length_le
  rw [List.length_range] at hmost
  have htable := s.table.size_le
  omega

/-- While the ring is full the next item waits, and nothing else changes but for the commands. -/
theorem Books.waitsForRoom (books : Books s h) {index : Nat} {gap : Option GapWait}
    (hphase : s.phase = .room index gap) (hindex : index < s.table.items.length) (turn : Turn) :
    (s.results.full = false → s.step turn = ({ s with phase := .planning index gap }, [])) ∧
    (s.results.full = true → (∀ cleaned, turn.served ≠ some (.stop cleaned)) →
      (s.step turn).1.phase = .room index gap ∧
      (h.noteAll (s.step turn).2).began = h.began ∧
      (h.noteAll (s.step turn).2).pushed = h.pushed) := by
  have hstands := books.stands
  rw [hphase] at hstands
  have howns := books.owner.mpr (by rw [hphase]; nofun)
  have hitem : s.table.items[index]? = some s.table.items[index] := List.getElem?_eq_getElem hindex
  unfold Sequencer.step
  rw [hphase]
  dsimp only
  rw [hitem]
  dsimp only
  refine ⟨fun hroom => by rw [hroom]; rfl, fun hfull hserved => ?_⟩
  rw [if_pos hfull]
  have v := (books.balanced.setProgress .pausedRingFull index).serve howns turn.served
  have hquiet : ((s.setProgress .pausedRingFull index).serve turn.served).1.stopRequested =
      false := by
    unfold Sequencer.serve
    split
    case h_3 cleaned heq => exact absurd heq (hserved cleaned)
    case h_5 => rw [if_pos (.inr howns)]; exact hstands.1.quiet
    case h_4 => split <;> exact hstands.1.quiet
    all_goals exact hstands.1.quiet
  generalize (s.setProgress .pausedRingFull index).serve turn.served = served at *
  obtain ⟨s', notes⟩ := served
  dsimp only at hquiet ⊢
  rw [if_neg (by simp [hquiet])]
  exact ⟨v.phase.trans hphase, v.began, v.pushed⟩

/-- **The sequencer's books**, whatever the items come to and whenever STOP and acknowledgements
come. -/
theorem playlist_books (turns : List Turn) :
    let s := (sequence turns).1
    let h := (sequence turns).2
    -- one block for each item that began, in the order of the file
    (h.began <+: List.range s.table.items.length ∧
      h.pushed.map (fun block => (block.run, block.item)) ++
          s.phase.inHand.map (fun index => (s.progress.run, .ofNat index)) =
        h.began.map fun index => (s.progress.run, .ofNat index)) ∧
    -- none refused, overwritten or lost
    (h.refused = [] ∧ h.earlier ++ h.pushed = h.freed ++ s.results.contents) ∧
    (s.progress.completed.toNat = h.pushed.length ∧
      s.progress.failed.toNat = h.pushed.countP (·.outcome = .error)) ∧
    (s.phase = .idle →
      (s.progress.state ≠ .running ∧ s.progress.state ≠ .gap ∧
        s.progress.state ≠ .pausedRingFull) ∧
      (s.progress.state = .done → h.began = List.range s.table.items.length ∧
        ∀ block ∈ h.pushed, endAfter block.outcome s.progress.policy false = none) ∧
      (s.progress.state = .aborted → h.stopped = true ∨
        ∃ block ∈ h.pushed, block.outcome = .aborted) ∧
      (s.progress.state = .error →
        (s.progress.policy = .stop ∧ ∃ block ∈ h.pushed, block.outcome = .error) ∨
          h.cleanupStayed = true)) ∧
    (∀ index gap, s.phase = .room index gap → index < s.table.items.length → ∀ turn,
      (s.results.full = false → s.step turn = ({ s with phase := .planning index gap }, [])) ∧
      (s.results.full = true → (∀ cleaned, turn.served ≠ some (.stop cleaned)) →
        (s.step turn).1.phase = .room index gap ∧
        (h.noteAll (s.step turn).2).began = h.began ∧
        (h.noteAll (s.step turn).2).pushed = h.pushed)) ∧
    (s.ownsPlayer = true ↔ s.phase ≠ .idle) := by
  intro s h
  have books : Books s h := Books.sequence turns
  have hfew := books.length_pushed
  have hsmall : maxItems < 2 ^ 32 := by decide
  refine ⟨books.blocks, ⟨books.balanced.refused, books.balanced.kept⟩, ⟨?_, ?_⟩, fun hidle => ?_,
    fun index gap hphase hindex turn => books.waitsForRoom hphase hindex turn, books.owner⟩
  · rw [books.balanced.completed, toNat_ofNat32 (by omega)]
  · have hle : h.pushed.countP (·.outcome = .error) ≤ h.pushed.length := List.countP_le_length
    rw [books.balanced.failed, toNat_ofNat32 (by omega)]
  · have hended := books.stands
    rw [hidle] at hended
    exact ⟨hended.active, hended.done, hended.aborted, hended.error⟩

end WaveformGenerator.Playlist

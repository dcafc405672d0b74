import WaveformGenerator.Host.CutSpelling
import WaveformGenerator.Host.Prediction
import WaveformGenerator.Host.SpellingAgreement

/-!
# Host and board read CUT entries alike

The host splits the text at every comma and colon, the board at the first of what is left. They
accept the same entries, and refuse a schedule by the same rule.
-/

namespace WaveformGenerator.Host

open Text
open CutEntry (ofBoard)

/-! ## Spellings -/

theorem splitOn_eq {α : Type*} [DecidableEq α] (mark : α) (text : List α) :
    text.splitOn mark =
      (splitFirst mark text).1 :: ((splitFirst mark text).2.map (·.splitOn mark)).getD [] := by
  obtain ⟨hfirst, hsecond⟩ := splitFirst_spec mark text
  generalize splitFirst mark text = parts at hfirst hsecond
  obtain ⟨first, second⟩ := parts
  cases second with
  | none =>
    have htext : text = first := hsecond
    rw [htext, List.splitOn_eq_singleton hfirst]
    rfl
  | some rest =>
    have htext : text = first ++ mark :: rest := hsecond
    rw [htext, List.splitOn_append_cons_self_of_not_mem hfirst]
    rfl

theorem parseKind_agrees (name : List Char) :
    Cut.parseKind name = match kindOf name with
      | some kind => .ok kind
      | none => .error Cut.badSyntax := by
  unfold Cut.parseKind kindOf
  by_cases hdrop : name = "drop".toList
  · rw [if_pos hdrop, if_pos hdrop]
  · rw [if_neg hdrop, if_neg hdrop]
    by_cases hzero : name = "zero".toList
    · rw [if_pos hzero, if_pos hzero]
    · rw [if_neg hzero, if_neg hzero]

theorem kindOf_colon {name : List Char} (h : ':' ∈ name) : kindOf name = none := by
  unfold kindOf
  rw [if_neg, if_neg]
  · rintro rfl
    exact absurd h (by decide)
  · rintro rfl
    exact absurd h (by decide)

/-- A number of an entry: read alike, or refused by both. -/
theorem parseUInt32_cases (text : List Char) :
    (∃ value, Cut.parseUInt32 text = .ok value ∧ parseUInt32 text = .ok value.toNat) ∨
      ∃ status error, Cut.parseUInt32 text = .error status ∧ parseUInt32 text = .error error := by
  have hagree := parseUInt32_agrees text
  unfold parseUInt32
  cases hboard : Cut.parseUInt32 text with
  | ok value =>
    rw [hboard] at hagree
    obtain ⟨hcanonical, hbound, hvalue⟩ := hagree
    refine .inl ⟨value, rfl, ?_⟩
    rw [if_neg, hvalue]
    rintro (hnone | hlarge)
    · rw [← canonical_iff_fullmatch, Option.isSome_iff_ne_none] at hcanonical
      exact hcanonical (Option.isNone_iff_eq_none.mp hnone)
    · omega
  | error status =>
    rw [hboard] at hagree
    exact .inr ⟨status, _, rfl, if_pos hagree⟩

theorem parseEntry_agrees (text : List Char) :
    match Cut.parseEntry text with
    | .ok entry => parseEntry text = .ok (ofBoard entry)
    | .error _ => ∃ error, parseEntry text = .error error := by
  unfold Cut.parseEntry parseEntry
  rw [splitOn_eq ':' text]
  generalize splitFirst ':' text = parts
  obtain ⟨first, _ | rest⟩ := parts
  · exact ⟨_, rfl⟩
  dsimp only [Option.map_some, Option.getD_some]
  rw [splitOn_eq ':' rest]
  generalize splitFirst ':' rest = parts
  obtain ⟨second, _ | third⟩ := parts
  · exact ⟨_, rfl⟩
  dsimp only [Option.map_some, Option.getD_some]
  rw [parseKind_agrees]
  by_cases hcolon : ':' ∈ third
  · -- a fourth part: no kind for the board, too many parts for the host
    obtain ⟨before, after, rfl, hbefore⟩ := List.eq_append_cons_of_mem hcolon
    rw [kindOf_colon hcolon, List.splitOn_append_cons_self_of_not_mem hbefore,
      splitOn_eq ':' after]
    obtain ⟨offset, hoffset, -⟩ | ⟨status, error, hoffset, -⟩ := parseUInt32_cases first <;>
    · rw [hoffset]
      obtain ⟨length, hlength, -⟩ | ⟨status, error, hlength, -⟩ := parseUInt32_cases second <;>
      · rw [hlength]
        exact ⟨_, rfl⟩
  · rw [List.splitOn_eq_singleton hcolon]
    dsimp only
    obtain ⟨offset, hoffset, hoffset'⟩ | ⟨status, error, hoffset, hoffset'⟩ :=
      parseUInt32_cases first <;>
    · obtain ⟨length, hlength, hlength'⟩ | ⟨status, error, hlength, hlength'⟩ :=
        parseUInt32_cases second <;>
      · rw [hoffset, hlength]
        cases kindOf third with
        | none => exact ⟨_, rfl⟩
        | some kind =>
          dsimp only
          rw [hoffset', hlength']
          first
            | rfl
            | exact ⟨_, rfl⟩

/-- The board's loop reads what `mapM` reads, as long as it has room. -/
theorem parseEntriesFrom_agrees (list : Cut.CutList) (rest : List Char) (passes : Nat)
    (hpasses : list.entries.length + passes = 17) :
    match Cut.parseEntriesFrom list rest passes with
    | .ok parsed => ∃ entries, (rest.splitOn ',').mapM parseEntry = .ok entries ∧
        parsed.entries.map ofBoard = list.entries.map ofBoard ++ entries
    | .error _ => ∀ entries, (rest.splitOn ',').mapM parseEntry = .ok entries →
        maxEntries < list.entries.length + entries.length := by
  induction passes generalizing list rest with
  | zero =>
    have := list.bounded
    rw [Cut.maxEntries] at this
    omega
  | succ passes ih =>
    rw [Cut.parseEntriesFrom, splitOn_eq ',' rest, List.mapM_cons]
    have hentry := parseEntry_agrees (splitFirst ',' rest).1
    cases hboard : Cut.parseEntry (splitFirst ',' rest).1 with
    | error status =>
      rw [hboard] at hentry
      obtain ⟨error, herror⟩ := hentry
      rw [herror]
      rintro _ ⟨⟩
    | ok entry =>
      rw [hboard] at hentry
      dsimp only at hentry ⊢
      rw [hentry, Cut.CutList.push]
      by_cases hroom : list.entries.length < Cut.maxEntries
      · rw [dif_pos hroom]
        dsimp only
        cases (splitFirst ',' rest).2 with
        | none => exact ⟨[ofBoard entry], rfl, List.map_append⟩
        | some rest =>
          have hnext := ih ⟨list.entries ++ [entry], by
            rw [List.length_append, List.length_singleton]; exact hroom⟩ rest (by
            rw [List.length_append, List.length_singleton]; omega)
          dsimp only [Option.map_some, Option.getD_some] at hnext ⊢
          cases hloop : Cut.parseEntriesFrom ⟨list.entries ++ [entry], by
              rw [List.length_append, List.length_singleton]; exact hroom⟩ rest passes with
          | ok parsed =>
            rw [hloop] at hnext
            obtain ⟨entries, hentries, hparsed⟩ := hnext
            rw [hentries]
            refine ⟨ofBoard entry :: entries, rfl, ?_⟩
            rw [hparsed, List.map_append, List.append_assoc]
            rfl
          | error status =>
            rw [hloop] at hnext
            dsimp only at hnext ⊢
            intro entries hentries
            cases hlater : (rest.splitOn ',').mapM parseEntry with
            | error error =>
              rw [hlater] at hentries
              cases hentries
            | ok later =>
              rw [hlater] at hentries
              have hmany := hnext later hlater
              cases hentries
              rw [List.length_append, List.length_singleton] at hmany
              rw [List.length_cons]
              omega
      · rw [dif_neg hroom]
        dsimp only
        intro entries hentries
        rw [Cut.maxEntries] at hroom
        cases hlater : ((Option.map (·.splitOn ',') (splitFirst ',' rest).2).getD []).mapM
            parseEntry with
        | error error =>
          rw [hlater] at hentries
          cases hentries
        | ok later =>
          rw [hlater] at hentries
          cases hentries
          rw [maxEntries, List.length_cons]
          omega

theorem parseEntries_agrees (text : List Char) :
    match Cut.parseEntries text with
    | .ok list => parseEntries text = .ok (list.entries.map ofBoard)
    | .error _ => ∃ error, parseEntries text = .error error := by
  have hloop := parseEntriesFrom_agrees ⟨[], Nat.zero_le _⟩ text 17 rfl
  unfold parseEntries
  cases htext : text.isEmpty with
  | true =>
    rw [List.isEmpty_iff.mp htext]
    exact ⟨_, rfl⟩
  | false =>
    rw [if_neg Bool.false_ne_true]
    show match Cut.parseEntriesFrom ⟨[], _⟩ text 17 with
      | .ok list => _
      | .error _ => _
    cases hboard : Cut.parseEntriesFrom ⟨[], Nat.zero_le _⟩ text 17 with
    | ok list =>
      rw [hboard] at hloop
      obtain ⟨entries, hentries, hlist⟩ := hloop
      dsimp only
      rw [hentries, hlist]
      have hbound : entries.length = list.entries.length := by
        rw [← List.length_map (f := ofBoard), hlist]
        rfl
      have hfew : ¬maxEntries < entries.length := by
        rw [hbound]
        exact Nat.not_lt.mpr list.bounded
      simp only [bind, Except.bind, if_neg hfew]
      rfl
    | error status =>
      rw [hboard] at hloop
      dsimp only at hloop ⊢
      cases hentries : (text.splitOn ',').mapM parseEntry with
      | error error => exact ⟨error, rfl⟩
      | ok entries =>
        have hmany : maxEntries < entries.length := by
          have := hloop entries hentries
          rw [List.length_nil, Nat.zero_add] at this
          exact this
        simp only [bind, Except.bind, if_pos hmany]
        exact ⟨_, rfl⟩

/-! ## Rules -/

open Cut.CutEntry (coveredEnd_toNat)

variable {entries : List Cut.CutEntry}

theorem checkLengths_agrees (entries : List Cut.CutEntry) :
    if entries.any (fun entry => entry.length < Cut.minLength || entry.length > Cut.maxLength) then
      ∃ message, checkLengths (entries.map ofBoard) = .error ⟨"CUT_RANGE", message⟩
    else checkLengths (entries.map ofBoard) = .ok () := by
  induction entries with
  | nil => exact rfl
  | cons entry rest ih =>
    rw [List.any_cons, List.map_cons, checkLengths]
    have hleast : Cut.minLength.toNat = 1 := rfl
    have hmost : Cut.maxLength.toNat = 4800 := rfl
    have hrange : (entry.length < Cut.minLength || entry.length > Cut.maxLength) = true ↔
        ¬(minLength ≤ (ofBoard entry).length ∧ (ofBoard entry).length ≤ maxLength) := by
      rw [Bool.or_eq_true, decide_eq_true_eq, decide_eq_true_eq, gt_iff_lt,
        UInt32.lt_iff_toNat_lt, UInt32.lt_iff_toNat_lt, hleast, hmost]
      show _ ↔ ¬(1 ≤ entry.length.toNat ∧ entry.length.toNat ≤ 4800)
      omega
    by_cases hbad : (entry.length < Cut.minLength || entry.length > Cut.maxLength) = true
    · rw [hbad, Bool.true_or, if_pos rfl, if_pos (hrange.mp hbad)]
      exact ⟨_, rfl⟩
    · rw [if_neg (mt hrange.mpr hbad), eq_false_of_ne_true hbad, Bool.false_or]
      exact ih

theorem checkOrder_agrees (earlier later : Cut.CutEntry) :
    Cut.checkOrder earlier later =
      if (ofBoard later).offset < (ofBoard earlier).offset then Cut.entriesUnsorted
      else if (ofBoard later).offset < (ofBoard earlier).coveredEnd ∨
          ((ofBoard earlier).kind = .zero ∧ (ofBoard later).kind = .zero ∧
            (ofBoard later).offset = (ofBoard earlier).offset) then Cut.entriesOverlap
      else .success := by
  unfold Cut.checkOrder
  simp only [CutEntry.coveredEnd_ofBoard, UInt32.lt_iff_toNat_lt, UInt64.lt_iff_toNat_lt,
    coveredEnd_toNat, UInt32.toNat_toUInt64, ← UInt32.toNat_inj]
  rfl

theorem checkNeighbours_agrees (entries : List Cut.CutEntry) :
    if (Cut.checkNeighbours entries).isOk then
      checkNeighbours (entries.map ofBoard) = .ok ()
    else ∃ message, checkNeighbours (entries.map ofBoard) =
      .error ⟨(Cut.checkNeighbours entries).message, message⟩ := by
  induction entries with
  | nil => exact rfl
  | cons earlier rest ih =>
    cases rest with
    | nil => exact rfl
    | cons later rest =>
      rw [List.map_cons, List.map_cons, checkNeighbours, Cut.checkNeighbours, checkOrder_agrees]
      by_cases hsorted : (ofBoard later).offset < (ofBoard earlier).offset
      · simp only [if_pos hsorted]
        exact ⟨_, rfl⟩
      · simp only [if_neg hsorted]
        by_cases hclear : (ofBoard later).offset < (ofBoard earlier).coveredEnd ∨
            ((ofBoard earlier).kind = .zero ∧ (ofBoard later).kind = .zero ∧
              (ofBoard later).offset = (ofBoard earlier).offset)
        · simp only [if_pos hclear]
          exact ⟨_, rfl⟩
        · simp only [if_neg hclear]
          exact ih

theorem le_dropBalanceFrom (balance highest previousEnd : Nat) (entries : List CutEntry) :
    highest ≤ dropBalanceFrom balance highest previousEnd entries := by
  induction entries generalizing balance highest previousEnd with
  | nil => exact Nat.le_refl _
  | cons entry rest ih =>
    rw [dropBalanceFrom]
    split
    · exact ih ..
    · exact Nat.le_trans (Nat.le_max_left ..) (ih ..)

/-- The only refusal of the board's loop is a balance that the host finds too high as well. -/
theorem dropBalanceFrom_refused {balance previousEnd : UInt64} {highest : Nat}
    (hlen : ∀ entry ∈ entries, entry.length.toNat ≤ 4800) (hb : balance.toNat ≤ maxDropBalance)
    (h : ¬(Cut.dropBalanceFrom balance previousEnd entries).isOk = true) :
    Cut.dropBalanceFrom balance previousEnd entries = Cut.dropRunTooLong ∧
      maxDropBalance <
        dropBalanceFrom balance.toNat highest previousEnd.toNat (entries.map ofBoard) := by
  induction entries generalizing balance previousEnd highest with
  | nil => exact absurd rfl h
  | cons entry rest ih =>
    have hrest : ∀ e ∈ rest, e.length.toNat ≤ 4800 := fun e he =>
      hlen e (List.mem_cons_of_mem _ he)
    have hentry := hlen entry List.mem_cons_self
    rw [Cut.dropBalanceFrom] at h ⊢
    rw [List.map_cons, dropBalanceFrom]
    by_cases hk : entry.kind ≠ .drop
    · rw [if_pos hk] at h ⊢
      rw [if_pos (show (ofBoard entry).kind ≠ .drop from hk)]
      exact ih hrest hb h
    · rw [if_neg hk] at h ⊢
      rw [if_neg (show ¬(ofBoard entry).kind ≠ .drop from hk)]
      dsimp only at h ⊢
      have hnext := @balance_toNat balance previousEnd entry hentry hb
      generalize balance -
          min balance (entry.offset.toUInt64 - min previousEnd entry.offset.toUInt64) +
            entry.length.toUInt64 = next at h hnext ⊢
      have hlimit : Cut.maxDropBalanceFrames.toUInt64.toNat = maxDropBalance := rfl
      have hhost : balance.toNat - ((ofBoard entry).offset - previousEnd.toNat) +
          (ofBoard entry).length = next.toNat := hnext.symm
      rw [hhost]
      by_cases hlong : next > Cut.maxDropBalanceFrames.toUInt64
      · rw [if_pos hlong]
        have hover := UInt64.lt_iff_toNat_lt.mp hlong
        rw [hlimit] at hover
        refine ⟨rfl, Nat.lt_of_lt_of_le hover ?_⟩
        exact Nat.le_trans (Nat.le_max_right ..) (le_dropBalanceFrom ..)
      · rw [if_neg hlong] at h ⊢
        have hnextle := UInt64.le_iff_toNat_le.mp (UInt64.not_lt.mp hlong)
        rw [hlimit] at hnextle
        rw [CutEntry.coveredEnd_ofBoard, ← coveredEnd_toNat]
        exact ih hrest hnextle h

/-- Host and board judge a list by the same rule. -/
theorem validate_agrees (list : Cut.CutList) :
    match Cut.validate list with
    | .ok schedule => validate (list.entries.map ofBoard) = .ok (schedule.entries.map ofBoard)
    | .error status => ∃ message,
        validate (list.entries.map ofBoard) = .error ⟨status.message, message⟩ := by
  unfold Cut.validate
  split
  · rename_i schedule hvalid
    split at hvalid
    · rename_i hok
      cases hvalid
      exact validate_ofBoard ⟨list, hok⟩
    · cases hvalid
  · rename_i status hrefused
    split at hrefused
    · cases hrefused
    · rename_i hbad
      cases hrefused
      have hcount : ¬(list.entries.map ofBoard).length > maxEntries := by
        rw [List.length_map]
        exact Nat.not_lt.mpr list.bounded
      have hlengths := checkLengths_agrees list.entries
      have hneighbours := checkNeighbours_agrees list.entries
      unfold Cut.checkEntries at hbad ⊢
      by_cases hrange : (list.entries.any fun entry =>
          entry.length < Cut.minLength || entry.length > Cut.maxLength) = true
      · rw [if_pos hrange] at hlengths ⊢
        obtain ⟨message, hmessage⟩ := hlengths
        refine ⟨message, ?_⟩
        simp only [validate, if_neg hcount, hmessage]
        rfl
      · rw [if_neg hrange] at hlengths hbad ⊢
        dsimp only at hbad ⊢
        by_cases hordered : (Cut.checkNeighbours list.entries).isOk = true
        · have hlen : ∀ entry ∈ list.entries, entry.length.toNat ≤ 4800 := by
            intro entry hentry
            rw [Bool.not_eq_true, List.any_eq_false] at hrange
            have := hrange entry hentry
            rw [Bool.or_eq_true, not_or, decide_eq_true_eq, decide_eq_true_eq, gt_iff_lt,
              UInt32.not_lt, UInt32.not_lt, UInt32.le_iff_toNat_le,
              UInt32.le_iff_toNat_le] at this
            exact this.2
          rw [hordered] at hbad hneighbours ⊢
          rw [if_pos rfl] at hneighbours
          obtain ⟨hstatus, hbalance⟩ := @dropBalanceFrom_refused list.entries 0 0 0 hlen
            (Nat.zero_le _) hbad
          have hdrop : dropBalance (list.entries.map ofBoard) > maxDropBalance := hbalance
          have hcheck : Cut.checkDropBalance list.entries = Cut.dropRunTooLong := hstatus
          rw [Bool.not_true, if_neg Bool.false_ne_true, hcheck]
          simp only [validate, if_neg hcount, hlengths, hneighbours, if_pos hdrop]
          exact ⟨_, rfl⟩
        · rw [if_neg hordered] at hneighbours
          obtain ⟨message, hmessage⟩ := hneighbours
          rw [eq_false_of_ne_true hordered]
          refine ⟨message, ?_⟩
          simp only [validate, if_neg hcount, hlengths, hmessage]
          rfl

end WaveformGenerator.Host

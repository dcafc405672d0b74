import WaveformGenerator.Host.CutAgreement
import Mathlib.Data.List.Infix

/-!
# What a valid CUT schedule is

`validate` compares neighbours and keeps one balance in a single pass. `Global` says what that
means for all pairs of entries and for every run of DROPs.
-/

namespace WaveformGenerator.Host

open Cut (CutKind)
open CutEntry (ofBoard)

/-! ## The rules, of all pairs and all windows -/

/-- The frames some DROPs skip. -/
def skippedBy (drops : List CutEntry) : Nat := (drops.map (·.length)).sum

/-- The output frames kept from `past` on, between consecutive DROPs. -/
def keptFrom (past : Nat) : List CutEntry → Nat
  | [] => 0
  | drop :: rest => (drop.offset - past) + keptFrom (drop.offset + drop.length) rest

/-- The output frames kept between the consecutive DROPs of a window. -/
def keptBetween : List CutEntry → Nat
  | [] => 0
  | drop :: rest => keptFrom (drop.offset + drop.length) rest

def dropsOf (entries : List CutEntry) : List CutEntry := entries.filter (·.kind = .drop)

structure Global (entries : List CutEntry) : Prop where
  lengths : ∀ entry ∈ entries, 1 ≤ entry.length ∧ entry.length ≤ 4800
  sorted : entries.Pairwise fun earlier later => earlier.offset ≤ later.offset
  covered : entries.Pairwise fun earlier later =>
    earlier.kind = .drop → earlier.offset + earlier.length ≤ later.offset
  zerosApart : entries.Pairwise fun earlier later =>
    earlier.kind = .zero → later.kind = .zero → earlier.offset ≠ later.offset
  windows : ∀ window, window <:+: dropsOf entries →
    skippedBy window ≤ 14400 + keptBetween window

/-! ## The balance and the windows -/

/-- The balance keeps a limit when every window that starts where the loop stands, and every
window behind it, skips at most the limit more than it keeps. -/
theorem dropBalanceFrom_le_iff {balance highest past limit : Nat} {drops : List CutEntry}
    (hdrops : ∀ drop ∈ drops, drop.kind = .drop) (hbalance : balance ≤ limit) :
    dropBalanceFrom balance highest past drops ≤ limit ↔
      highest ≤ limit ∧
        (∀ window, window <+: drops → balance + skippedBy window ≤ limit + keptFrom past window) ∧
        ∀ window, window <:+: drops → skippedBy window ≤ limit + keptBetween window := by
  induction drops generalizing balance highest past with
  | nil =>
    simp only [dropBalanceFrom, List.prefix_nil, List.infix_nil, forall_eq]
    exact ⟨fun h => ⟨h, by show balance + 0 ≤ limit + 0; omega, Nat.zero_le _⟩, fun h => h.1⟩
  | cons drop rest ih =>
    have hkind : ¬drop.kind ≠ .drop := not_not.mpr (hdrops drop List.mem_cons_self)
    have hpast : drop.coveredEnd = drop.offset + drop.length := by
      rw [CutEntry.coveredEnd, if_pos (not_not.mp hkind)]
    have hfirst : ∀ window, skippedBy (drop :: window) = drop.length + skippedBy window := by
      intro window
      rw [skippedBy, List.map_cons, List.sum_cons]
      rfl
    rw [dropBalanceFrom, if_neg hkind, hpast]
    dsimp only
    generalize hnext : balance - (drop.offset - past) + drop.length = next
    by_cases hlimit : next ≤ limit
    · rw [ih (fun d hd => hdrops d (List.mem_cons_of_mem _ hd)) hlimit]
      constructor
      · rintro ⟨hhighest, hprefix, hinfix⟩
        refine ⟨by omega, fun window hwindow => ?_, fun window hwindow => ?_⟩
        · obtain rfl | ⟨behind, rfl, hbehind⟩ := List.prefix_cons_iff.mp hwindow
          · show balance + 0 ≤ limit + 0
            omega
          · have := hprefix behind hbehind
            rw [hfirst, keptFrom]
            omega
        · obtain hfront | hbehind := List.infix_cons_iff.mp hwindow
          · obtain rfl | ⟨behind, rfl, hbehind⟩ := List.prefix_cons_iff.mp hfront
            · exact Nat.zero_le _
            · have := hprefix behind hbehind
              rw [hfirst, keptBetween]
              omega
          · exact hinfix window hbehind
      · rintro ⟨hhighest, hprefix, hinfix⟩
        refine ⟨by omega, fun window hwindow => ?_, fun window hwindow =>
          hinfix window (List.infix_cons_iff.mpr (.inr hwindow))⟩
        have hcons : drop :: window <+: drop :: rest :=
          List.prefix_cons_iff.mpr (.inr ⟨window, rfl, hwindow⟩)
        have h₁ := hprefix _ hcons
        have h₂ := hinfix _ hcons.isInfix
        rw [hfirst, keptFrom] at h₁
        rw [hfirst, keptBetween] at h₂
        omega
    · -- the balance is over at once: for the window of this DROP alone, or with what was before
      have hpast : limit < dropBalanceFrom next (max highest next) (drop.offset + drop.length) rest :=
        Nat.lt_of_lt_of_le (by omega) (le_dropBalanceFrom ..)
      constructor
      · intro h
        omega
      · rintro ⟨-, hprefix, hinfix⟩
        have hcons : [drop] <+: drop :: rest :=
          List.prefix_cons_iff.mpr (.inr ⟨[], rfl, List.nil_prefix⟩)
        have h₁ := hprefix _ hcons
        have h₂ := hinfix _ hcons.isInfix
        rw [hfirst, keptFrom] at h₁
        rw [hfirst, keptBetween] at h₂
        simp only [keptFrom, skippedBy, List.map_nil, List.sum_nil] at h₁ h₂
        omega

theorem dropBalanceFrom_filter (balance highest past : Nat) (entries : List CutEntry) :
    dropBalanceFrom balance highest past entries =
      dropBalanceFrom balance highest past (dropsOf entries) := by
  induction entries generalizing balance highest past with
  | nil => rfl
  | cons entry rest ih =>
    rw [dropBalanceFrom]
    by_cases hkind : entry.kind = .drop
    · have hkept : dropsOf (entry :: rest) = entry :: dropsOf rest :=
        List.filter_cons_of_pos (decide_eq_true hkind)
      rw [if_neg (not_not.mpr hkind), hkept, dropBalanceFrom, if_neg (not_not.mpr hkind)]
      exact ih ..
    · have hleft : dropsOf (entry :: rest) = dropsOf rest :=
        List.filter_cons_of_neg (by rw [decide_eq_true_eq]; exact hkind)
      rw [if_pos hkind, hleft]
      exact ih ..

theorem dropBalance_le_iff (entries : List CutEntry) :
    dropBalance entries ≤ maxDropBalance ↔
      ∀ window, window <:+: dropsOf entries → skippedBy window ≤ 14400 + keptBetween window := by
  have hdrops : ∀ drop ∈ dropsOf entries, drop.kind = .drop := fun drop hdrop =>
    of_decide_eq_true (List.mem_filter.mp hdrop).2
  rw [dropBalance, dropBalanceFrom_filter, dropBalanceFrom_le_iff hdrops (Nat.zero_le _)]
  constructor
  · exact fun h => h.2.2
  · intro h
    refine ⟨Nat.zero_le _, fun window hwindow => ?_, h⟩
    have hbound := h window hwindow.isInfix
    cases window with
    | nil => exact Nat.zero_le _
    | cons drop rest =>
      rw [keptBetween] at hbound
      rw [keptFrom]
      show 0 + _ ≤ 14400 + _
      omega

/-! ## Neighbours and pairs -/

/-- `later` may come behind `earlier`, next to it or not. -/
structure Before (earlier later : CutEntry) : Prop where
  counts : 0 < later.length
  sorted : earlier.offset ≤ later.offset
  covered : earlier.kind = .drop → earlier.offset + earlier.length ≤ later.offset
  zerosApart : earlier.kind = .zero → later.kind = .zero → earlier.offset ≠ later.offset

theorem Before.trans {a b c : CutEntry} (hab : Before a b) (hbc : Before b c) : Before a c := by
  refine ⟨hbc.counts, Nat.le_trans hab.sorted hbc.sorted,
    fun ha => Nat.le_trans (hab.covered ha) hbc.sorted, fun ha hc heq => ?_⟩
  have h₁ := hab.sorted
  have h₂ := hbc.sorted
  cases hb : b.kind with
  | zero => exact hab.zerosApart ha hb (by omega)
  | drop =>
    have := hbc.covered hb
    have := hab.counts
    omega

instance : Trans Before Before Before := ⟨Before.trans⟩

/-- What `validate` asks of two neighbours. -/
theorem before_iff {earlier later : CutEntry} (hcounts : 0 < later.length) :
    Before earlier later ↔ ¬later.offset < earlier.offset ∧
      ¬(later.offset < earlier.coveredEnd ∨
        (earlier.kind = .zero ∧ later.kind = .zero ∧ later.offset = earlier.offset)) := by
  unfold CutEntry.coveredEnd
  constructor
  · rintro ⟨-, hsorted, hcovered, hzeros⟩
    refine ⟨by omega, ?_⟩
    rintro (hlt | ⟨ha, hb, heq⟩)
    · split at hlt <;> rename_i hkind
      · have := hcovered hkind
        omega
      · omega
    · exact hzeros ha hb heq.symm
  · rintro ⟨hsorted, hclear⟩
    rw [not_or] at hclear
    refine ⟨hcounts, by omega, fun hdrop => ?_, fun ha hb heq => hclear.2 ⟨ha, hb, heq.symm⟩⟩
    have := hclear.1
    rw [if_pos hdrop] at this
    omega

theorem checkNeighbours_iff {entries : List CutEntry}
    (hcounts : ∀ entry ∈ entries, 0 < entry.length) :
    checkNeighbours entries = .ok () ↔ entries.Pairwise Before := by
  rw [← List.isChain_iff_pairwise]
  induction entries with
  | nil => exact ⟨fun _ => .nil, fun _ => rfl⟩
  | cons earlier rest ih =>
    cases rest with
    | nil => exact ⟨fun _ => .singleton _, fun _ => rfl⟩
    | cons later rest =>
      have hlater := hcounts later (List.mem_cons_of_mem _ List.mem_cons_self)
      rw [checkNeighbours, List.isChain_cons_cons, before_iff hlater,
        ← ih fun entry hentry => hcounts entry (List.mem_cons_of_mem _ hentry)]
      by_cases hsorted : later.offset < earlier.offset
      · rw [if_pos hsorted]
        exact ⟨fun h => (by cases h), fun h => absurd hsorted h.1.1⟩
      · rw [if_neg hsorted]
        by_cases hoverlap : later.offset < earlier.coveredEnd ∨
            (earlier.kind = .zero ∧ later.kind = .zero ∧ later.offset = earlier.offset)
        · rw [if_pos hoverlap]
          exact ⟨fun h => (by cases h), fun h => absurd hoverlap h.1.2⟩
        · rw [if_neg hoverlap]
          exact ⟨fun h => ⟨⟨hsorted, hoverlap⟩, h⟩, fun h => h.2⟩

theorem checkLengths_iff (entries : List CutEntry) :
    checkLengths entries = .ok () ↔
      ∀ entry ∈ entries, 1 ≤ entry.length ∧ entry.length ≤ 4800 := by
  induction entries with
  | nil => exact ⟨fun _ entry h => absurd h List.not_mem_nil, fun _ => rfl⟩
  | cons entry rest ih =>
    rw [checkLengths, List.forall_mem_cons, ← ih]
    by_cases hrange : minLength ≤ entry.length ∧ entry.length ≤ maxLength
    · rw [if_neg (not_not.mpr hrange)]
      exact ⟨fun h => ⟨hrange, h⟩, fun h => h.2⟩
    · rw [if_pos hrange]
      exact ⟨fun h => (by cases h), fun h => absurd h.1 hrange⟩

/-! ## The verdict -/

theorem validate_iff (entries : List CutEntry) :
    validate entries = .ok entries ↔
      entries.length ≤ 16 ∧ checkLengths entries = .ok () ∧ checkNeighbours entries = .ok () ∧
        dropBalance entries ≤ maxDropBalance := by
  by_cases hcount : entries.length > maxEntries
  · simp only [validate, if_pos hcount]
    exact ⟨fun h => (by cases h), fun h => absurd hcount (Nat.not_lt.mpr h.1)⟩
  · have hfew : entries.length ≤ 16 := Nat.not_lt.mp hcount
    cases hlengths : checkLengths entries with
    | error error =>
      simp only [validate, if_neg hcount, hlengths]
      exact ⟨fun h => (by cases h), fun h => (by cases h.2.1)⟩
    | ok =>
      cases hneighbours : checkNeighbours entries with
      | error error =>
        simp only [validate, if_neg hcount, hlengths, hneighbours]
        exact ⟨fun h => (by cases h), fun h => (by cases h.2.2.1)⟩
      | ok =>
        by_cases hdrop : dropBalance entries > maxDropBalance
        · simp only [validate, if_neg hcount, hlengths, hneighbours, if_pos hdrop]
          exact ⟨fun h => (by cases h), fun h => absurd hdrop (Nat.not_lt.mpr h.2.2.2)⟩
        · simp only [validate, if_neg hcount, hlengths, hneighbours, if_neg hdrop]
          exact ⟨fun _ => ⟨hfew, trivial, trivial, Nat.not_lt.mp hdrop⟩, fun _ => rfl⟩

/-- The rules of the single pass are the global ones. -/
theorem validate_iff_global (entries : List CutEntry) (hcount : entries.length ≤ 16) :
    validate entries = .ok entries ↔ Global entries := by
  rw [validate_iff, checkLengths_iff, dropBalance_le_iff]
  constructor
  · rintro ⟨-, hlengths, hneighbours, hwindows⟩
    have hpairs := (checkNeighbours_iff fun entry h => (hlengths entry h).1).mp hneighbours
    exact ⟨hlengths, hpairs.imp fun h => h.sorted, hpairs.imp fun h => h.covered,
      hpairs.imp fun h => h.zerosApart, hwindows⟩
  · intro h
    refine ⟨hcount, h.lengths, ?_, h.windows⟩
    rw [checkNeighbours_iff fun entry hentry => (h.lengths entry hentry).1]
    have hcounts : entries.Pairwise fun _ later => 0 < later.length :=
      List.pairwise_of_forall_mem_list fun _ _ later hlater => (h.lengths later hlater).1
    exact (((hcounts.and h.sorted).and h.covered).and h.zerosApart).imp
      fun h => ⟨h.1.1.1, h.1.1.2, h.1.2, h.2⟩

/-- The board takes exactly the lists that keep the global rules; the host takes the same, and
refuses the others with the same code. -/
theorem validate_global (list : Cut.CutList) :
    ((∃ schedule, Cut.validate list = .ok schedule) ↔ Global (list.entries.map ofBoard)) ∧
      match Cut.validate list with
      | .ok schedule => schedule.entries = list.entries ∧
          validate (list.entries.map ofBoard) = .ok (list.entries.map ofBoard)
      | .error status => ∃ message,
          validate (list.entries.map ofBoard) = .error ⟨status.message, message⟩ := by
  have hagree := validate_agrees list
  have hcount : (list.entries.map ofBoard).length ≤ 16 := by
    rw [List.length_map]
    exact list.bounded
  have hglobal := validate_iff_global _ hcount
  cases hboard : Cut.validate list with
  | ok schedule =>
    rw [hboard] at hagree
    have hentries : schedule.entries = list.entries := by
      unfold Cut.validate at hboard
      split at hboard
      · cases hboard
        rfl
      · cases hboard
    dsimp only at hagree ⊢
    rw [hentries] at hagree
    exact ⟨⟨fun _ => hglobal.mp hagree, fun _ => ⟨schedule, rfl⟩⟩, hentries, hagree⟩
  | error status =>
    rw [hboard] at hagree
    refine ⟨⟨fun h => ?_, fun h => ?_⟩, hagree⟩
    · obtain ⟨_, h⟩ := h
      cases h
    obtain ⟨message, hmessage⟩ := hagree
    rw [hglobal.mpr h] at hmessage
    cases hmessage

end WaveformGenerator.Host

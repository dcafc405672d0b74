import Mathlib.Data.List.Basic
import Mathlib.Logic.Function.Basic

/-!
# Files on a card

A directory of files and the calls on it. Any call may fail, and what it then reports is the
card's own: `answers` has the result of the call made after `n` others. A file is created and
renamed only to a name that is free, and a call that fails leaves the directory as it was. The log
keeps the files as each call left them.
-/

namespace WaveformGenerator

abbrev Path := List Char

/-- The classes of result the callers tell apart. -/
inductive FResult
  | ok
  | noFile
  | exist
  | error
  deriving DecidableEq, Repr

structure Answer where
  result : FResult
  actual : Nat := 0
  deriving DecidableEq, Repr

abbrev Files := Path → Option (List UInt8)

inductive CardCall
  | mount
  | unmount
  | mkdir (path : Path)
  | stat (path : Path)
  | create (path : Path)
  | openRead (path : Path)
  | write (path : Path) (bytes : List UInt8)
  | sync (path : Path)
  | close (path : Path)
  | rename (source target : Path)
  deriving DecidableEq, Repr

/-- A call that was made, whether it succeeded, and the files as it left them. -/
structure CardEntry where
  call : CardCall
  ok : Bool
  files : Files

structure Card where
  files : Files
  log : List CardEntry := []
  answers : Nat → Answer

namespace Files

def put (files : Files) (path : Path) (bytes : List UInt8) : Files :=
  Function.update files path (some bytes)

def move (files : Files) (source target : Path) : Files :=
  Function.update (Function.update files source none) target (files source)

/-- Every file of `old` is there with the same bytes. -/
def Contains (files old : Files) : Prop :=
  ∀ path bytes, old path = some bytes → files path = some bytes

section
variable {files old : Files} {path source target : Path}

@[simp] theorem put_self (files : Files) (path : Path) (bytes : List UInt8) :
    files.put path bytes path = some bytes := Function.update_self ..

theorem put_of_ne {bytes : List UInt8} {other : Path} (h : other ≠ path) :
    files.put path bytes other = files other := Function.update_of_ne h ..

@[simp] theorem move_target (files : Files) (source target : Path) :
    files.move source target target = files source := Function.update_self ..

theorem move_of_ne {other : Path} (hsource : other ≠ source) (htarget : other ≠ target) :
    files.move source target other = files other := by
  unfold move
  rw [Function.update_of_ne htarget, Function.update_of_ne hsource]

theorem Contains.refl (files : Files) : files.Contains files := fun _ _ h => h

/-- What did not exist is free: putting a file there loses nothing. -/
theorem Contains.put (h : files.Contains old) (hnew : old path = none) (bytes : List UInt8) :
    (files.put path bytes).Contains old := by
  intro other contents hold
  have hne : other ≠ path := by
    rintro rfl
    rw [hnew] at hold
    cases hold
  rw [put_of_ne hne]
  exact h other contents hold

theorem Contains.move (h : files.Contains old) (hsource : old source = none)
    (htarget : files target = none) : (files.move source target).Contains old := by
  intro other contents hold
  have hfiles := h other contents hold
  have hne : other ≠ source := by
    rintro rfl
    rw [hsource] at hold
    cases hold
  have hne' : other ≠ target := by
    rintro rfl
    rw [htarget] at hfiles
    cases hfiles
  rw [move_of_ne hne hne']
  exact hfiles

theorem Contains.none_of_none (h : files.Contains old) (hnone : files path = none) :
    old path = none := by
  cases hold : old path with
  | none => rfl
  | some bytes =>
    have := h path bytes hold
    rw [hnone] at this
    cases this

end

end Files

namespace Card

def answer (card : Card) : Answer := card.answers card.log.length

def record (card : Card) (call : CardCall) (ok : Bool) (files : Files) : Card :=
  { card with files, log := card.log ++ [{ call, ok, files }] }

/-- A call that leaves the files as they are. -/
def call (card : Card) (call : CardCall) : FResult × Card :=
  (card.answer.result, card.record call (card.answer.result = .ok) card.files)

/-- `f_open` with `FA_CREATE_NEW`. -/
def create (card : Card) (path : Path) : Bool × Card :=
  let ok := card.answer.result = .ok && (card.files path).isNone
  (ok, card.record (.create path) ok (if ok then card.files.put path [] else card.files))

/-- `f_open` of a file to be read: its bytes. -/
def openRead (card : Card) (path : Path) : Option (List UInt8) × Card :=
  let bytes := if card.answer.result = .ok then card.files path else none
  (bytes, card.record (.openRead path) bytes.isSome card.files)

/-- `f_write` at the end of an open file: whether all the bytes were taken. -/
def write (card : Card) (path : Path) (bytes : List UInt8) : Bool × Card :=
  let ok := card.answer.result = .ok && card.answer.actual = bytes.length
  (ok, card.record (.write path bytes) ok
    (card.files.put path ((card.files path).getD [] ++ bytes.take card.answer.actual)))

def rename (card : Card) (source target : Path) : Bool × Card :=
  let ok := card.answer.result = .ok && (card.files source).isSome && (card.files target).isNone
  (ok, card.record (.rename source target) ok
    (if ok then card.files.move source target else card.files))

/-- What holds of the files now and held of them after every call but the first `since`. -/
structure Always (P : Files → Prop) (since : Nat) (card : Card) : Prop where
  now : P card.files
  past : ∀ entry ∈ card.log.drop since, P entry.files

section
variable {P : Files → Prop} {since : Nat} {card : Card} {path source target : Path} {bytes : List UInt8}

@[simp] theorem files_record (card : Card) (call : CardCall) (ok : Bool) (files : Files) :
    (card.record call ok files).files = files := rfl

@[simp] theorem files_call (card : Card) (call : CardCall) :
    (card.call call).2.files = card.files := rfl

@[simp] theorem files_openRead (card : Card) (path : Path) :
    (card.openRead path).2.files = card.files := rfl

theorem files_of_openRead (h : (card.openRead path).1 = some bytes) :
    (card.openRead path).2.files path = some bytes := by
  change (if card.answer.result = .ok then card.files path else none) = some bytes at h
  split at h
  · exact h
  · cases h

theorem files_write (h : (card.write path bytes).1 = true) :
    (card.write path bytes).2.files = card.files.put path ((card.files path).getD [] ++ bytes) := by
  simp only [write, Bool.and_eq_true, decide_eq_true_eq] at h
  simp [write, h.2]

theorem files_create (h : (card.create path).1 = true) :
    card.files path = none ∧ (card.create path).2.files = card.files.put path [] := by
  have hok : (card.answer.result = .ok && (card.files path).isNone) = true := h
  refine ⟨?_, ?_⟩
  · rw [Bool.and_eq_true, Option.isNone_iff_eq_none] at hok
    exact hok.2
  · simp only [create, hok, if_true, files_record]

theorem files_create_of_not (h : (card.create path).1 = false) :
    (card.create path).2.files = card.files := by
  have hok : (card.answer.result = .ok && (card.files path).isNone) = false := h
  simp [create, hok]

theorem files_rename (h : (card.rename source target).1 = true) :
    (∃ bytes, card.files source = some bytes) ∧ card.files target = none ∧
      (card.rename source target).2.files = card.files.move source target := by
  have hok : (card.answer.result = .ok && (card.files source).isSome &&
    (card.files target).isNone) = true := h
  refine ⟨?_, ?_, ?_⟩
  · rw [Bool.and_eq_true, Bool.and_eq_true, Option.isSome_iff_exists] at hok
    exact hok.1.2
  · rw [Bool.and_eq_true, Option.isNone_iff_eq_none] at hok
    exact hok.2
  · simp only [rename, hok, if_true, files_record]

theorem files_rename_of_not (h : (card.rename source target).1 = false) :
    (card.rename source target).2.files = card.files := by
  have hok : (card.answer.result = .ok && (card.files source).isSome &&
    (card.files target).isNone) = false := h
  simp [rename, hok]

theorem Always.record (h : card.Always P since) (call : CardCall) (ok : Bool) {files : Files}
    (hfiles : P files) : (card.record call ok files).Always P since where
  now := hfiles
  past entry hentry := by
    have hentry' := hentry
    simp only [Card.record, List.drop_append, List.mem_append] at hentry'
    rcases hentry' with hold | hnew
    · exact h.past entry hold
    · rw [List.mem_singleton.mp (List.mem_of_mem_drop hnew)]
      exact hfiles

theorem Always.call (h : card.Always P since) (call : CardCall) : (card.call call).2.Always P since :=
  h.record _ _ h.now

theorem Always.openRead (h : card.Always P since) (path : Path) : (card.openRead path).2.Always P since :=
  h.record _ _ h.now

theorem Always.create (h : card.Always P since)
    (hnew : card.files path = none → P (card.files.put path [])) :
    (card.create path).2.Always P since := by
  refine h.record _ _ ?_
  split
  case isTrue hok =>
    rw [Bool.and_eq_true, Option.isNone_iff_eq_none] at hok
    exact hnew hok.2
  · exact h.now

theorem Always.write (h : card.Always P since) (hput : ∀ bytes, P (card.files.put path bytes)) :
    (card.write path bytes).2.Always P since :=
  h.record _ _ (hput _)

theorem Always.rename (h : card.Always P since)
    (hmove : ∀ bytes, card.files source = some bytes → card.files target = none →
      P (card.files.move source target)) :
    (card.rename source target).2.Always P since := by
  refine h.record _ _ ?_
  split
  case isTrue hok =>
    rw [Bool.and_eq_true, Bool.and_eq_true, Option.isSome_iff_exists,
      Option.isNone_iff_eq_none] at hok
    obtain ⟨⟨-, bytes, hsource⟩, htarget⟩ := hok
    exact hmove bytes hsource htarget
  · exact h.now

end

end Card

end WaveformGenerator

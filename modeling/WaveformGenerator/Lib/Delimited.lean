import Mathlib.Data.List.Basic

/-!
# Delimited streams

A stream carries packets, each closed by a delimiter. `closed` are the packets a stream closes when
some of the first one has come already, and `opened` is what it leaves open: together they say what
a receiver knows, however its input was cut.
-/

namespace WaveformGenerator.Delimited

variable {α : Type u} [DecidableEq α] (delimiter : α)

/-- The packets that a stream closes, behind the open `packet`. -/
def closed (packet : List α) : List α → List (List α)
  | [] => []
  | x :: stream =>
    if x = delimiter then packet :: closed [] stream else closed (packet ++ [x]) stream

/-- The packet that a stream leaves open, behind the open `packet`. -/
def opened (packet : List α) : List α → List α
  | [] => packet
  | x :: stream => if x = delimiter then opened [] stream else opened (packet ++ [x]) stream

variable {delimiter}

@[simp] theorem closed_nil (packet : List α) : closed delimiter packet [] = [] := rfl

@[simp] theorem opened_nil (packet : List α) : opened delimiter packet [] = packet := rfl

@[simp] theorem closed_delimiter (packet stream : List α) :
    closed delimiter packet (delimiter :: stream) = packet :: closed delimiter [] stream :=
  if_pos rfl

@[simp] theorem opened_delimiter (packet stream : List α) :
    opened delimiter packet (delimiter :: stream) = opened delimiter [] stream :=
  if_pos rfl

theorem closed_append (packet a b : List α) :
    closed delimiter packet (a ++ b) =
      closed delimiter packet a ++ closed delimiter (opened delimiter packet a) b := by
  induction a generalizing packet with
  | nil => rfl
  | cons x a ih =>
    simp only [List.cons_append, closed, opened]
    split <;> simp [ih]

theorem opened_append (packet a b : List α) :
    opened delimiter packet (a ++ b) = opened delimiter (opened delimiter packet a) b := by
  induction a generalizing packet with
  | nil => rfl
  | cons x a ih =>
    simp only [List.cons_append, opened]
    split <;> exact ih _

/-- Without a delimiter nothing is closed. -/
theorem closed_of_not_mem {body : List α} (h : delimiter ∉ body) (packet : List α) :
    closed delimiter packet body = [] := by
  induction body generalizing packet with
  | nil => rfl
  | cons x body ih =>
    rw [List.mem_cons, not_or] at h
    rw [closed, if_neg (Ne.symm h.1), ih h.2]

theorem opened_of_not_mem {body : List α} (h : delimiter ∉ body) (packet : List α) :
    opened delimiter packet body = packet ++ body := by
  induction body generalizing packet with
  | nil => simp
  | cons x body ih =>
    rw [List.mem_cons, not_or] at h
    rw [opened, if_neg (Ne.symm h.1), ih h.2, List.append_assoc, List.singleton_append]

/-- After a delimiter nothing is open. -/
theorem opened_append_delimiter (packet a : List α) :
    opened delimiter packet (a ++ [delimiter]) = [] := by
  rw [opened_append, opened_delimiter, opened_nil]

/-- A stream of delimited bodies closes just these. -/
theorem closed_flatMap {bodies : List (List α)} (h : ∀ body ∈ bodies, delimiter ∉ body) :
    closed delimiter [] (bodies.flatMap (· ++ [delimiter])) = bodies := by
  induction bodies with
  | nil => rfl
  | cons body bodies ih =>
    rw [List.forall_mem_cons] at h
    rw [List.flatMap_cons, List.append_assoc, closed_append, closed_of_not_mem h.1,
      opened_of_not_mem h.1, List.nil_append, List.nil_append, List.singleton_append,
      closed_delimiter, ih h.2]

theorem opened_flatMap (bodies : List (List α)) :
    opened delimiter [] (bodies.flatMap (· ++ [delimiter])) = [] := by
  induction bodies with
  | nil => rfl
  | cons body bodies ih => rw [List.flatMap_cons, opened_append, opened_append_delimiter, ih]

/-- A delimited body behind a stream that leaves nothing open is one more packet. -/
theorem closed_append_body {packet stream body : List α} (h : opened delimiter packet stream = [])
    (hbody : delimiter ∉ body) :
    closed delimiter packet (stream ++ (body ++ [delimiter])) =
      closed delimiter packet stream ++ [body] := by
  rw [closed_append, h, closed_append, closed_of_not_mem hbody, opened_of_not_mem hbody,
    List.nil_append, closed_delimiter, closed_nil, List.nil_append]

theorem closed_append_flatMap {packet stream : List α} (h : opened delimiter packet stream = [])
    {bodies : List (List α)} (hbodies : ∀ body ∈ bodies, delimiter ∉ body) :
    closed delimiter packet (stream ++ bodies.flatMap (· ++ [delimiter])) =
      closed delimiter packet stream ++ bodies := by
  rw [closed_append, h, closed_flatMap hbodies]

theorem opened_append_flatMap {packet stream : List α} (h : opened delimiter packet stream = [])
    (bodies : List (List α)) :
    opened delimiter packet (stream ++ bodies.flatMap (· ++ [delimiter])) = [] := by
  rw [opened_append, h, opened_flatMap]

/-- A stream that leaves nothing open ends so behind any packet. -/
theorem opened_eq_nil_of_ne_nil {packet stream : List α} (hne : packet ≠ [])
    (h : opened delimiter packet stream = []) (other : List α) :
    opened delimiter other stream = [] := by
  induction stream generalizing packet other with
  | nil => exact absurd h hne
  | cons x stream ih =>
    rw [opened] at h ⊢
    split
    case isTrue hx => rwa [if_pos hx] at h
    case isFalse hx =>
      rw [if_neg hx] at h
      exact ih (by simp) h _

/-- The rest of a stream that leaves nothing open leaves nothing open by itself. -/
theorem opened_nil_of_append {packet a b : List α} (h : opened delimiter packet (a ++ b) = []) :
    opened delimiter [] b = [] := by
  rw [opened_append] at h
  by_cases hopen : opened delimiter packet a = []
  · rwa [hopen] at h
  · exact opened_eq_nil_of_ne_nil hopen h []

/-- A stream that closes nothing and leaves nothing open is empty. -/
theorem eq_nil_of_closed_opened {packet stream : List α} (hclosed : closed delimiter packet stream = [])
    (hopened : opened delimiter packet stream = []) : packet = [] ∧ stream = [] := by
  induction stream generalizing packet with
  | nil => exact ⟨hopened, rfl⟩
  | cons x stream ih =>
    rw [closed] at hclosed
    split at hclosed
    case isTrue => exact nomatch hclosed
    case isFalse hx =>
      rw [opened, if_neg hx] at hopened
      simpa using (ih hclosed hopened).1

/-- The first packet closed is what was open, and more. -/
theorem exists_of_closed_eq_cons {packet stream first : List α} {rest : List (List α)}
    (h : closed delimiter packet stream = first :: rest) : ∃ more, first = packet ++ more := by
  induction stream generalizing packet with
  | nil => exact nomatch h
  | cons x stream ih =>
    rw [closed] at h
    split at h
    case isTrue => exact ⟨[], by rw [← (List.cons.inj h).1, List.append_nil]⟩
    case isFalse =>
      obtain ⟨more, rfl⟩ := ih h
      exact ⟨x :: more, by rw [List.append_assoc, List.singleton_append]⟩

/-- What is open before a delimiter is closed by it. -/
theorem opened_mem_closed (packet a b : List α) :
    opened delimiter packet a ∈ closed delimiter packet (a ++ delimiter :: b) := by
  rw [closed_append, closed_delimiter]
  exact List.mem_append_right _ List.mem_cons_self

/-- As many packets are closed as there are delimiters. -/
theorem length_closed (packet stream : List α) :
    (closed delimiter packet stream).length = stream.count delimiter := by
  induction stream generalizing packet with
  | nil => rfl
  | cons x stream ih =>
    rw [closed]
    split
    · rename_i hx
      rw [hx, List.count_cons_self, List.length_cons, ih]
    · rename_i hx
      rw [List.count_cons_of_ne hx, ih]

end WaveformGenerator.Delimited

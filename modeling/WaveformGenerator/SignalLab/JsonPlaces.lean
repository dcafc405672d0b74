import Mathlib.Data.List.Basic
import Mathlib.Data.List.Perm.Basic
import WaveformGenerator.SignalLab.JsonTable

/-!
# Places in document order

The values of a document in the order in which it spells them, each with its place among them: a
container before its members, and before each member all that the members in front of it hold. Every
place but the first is a member's, and one member's only.
-/

namespace WaveformGenerator.SignalLab.Json

variable {R : Type}

/-- A member of a container: its key, its place, and its value. -/
structure Member (R : Type) where
  key : Text
  place : Nat
  value : Tree R

/-- Members from the place `base` on. -/
def Members.located (base : Nat) : Members R → List (Member R)
  | .nil => []
  | .cons key value rest => ⟨key, base, value⟩ :: rest.located (base + value.size)

/-- The places of the members of a value that is at `index`. -/
def Tree.places (index : Nat) : Tree R → List Nat
  | .scalar _ => []
  | .container _ members => (members.located (index + 1)).map Member.place

/-- The value at a place of a document. -/
inductive Tree.At (root : Tree R) : Nat → Tree R → Prop
  | root : root.At 0 root
  | member {index : Nat} {object : Bool} {members : Members R} {member : Member R} :
      root.At index (.container object members) → member ∈ members.located (index + 1) →
      root.At member.place member.value

mutual

/-- The values in document order. -/
def Tree.values : Tree R → List (Tree R)
  | .scalar value => [.scalar value]
  | .container object members => .container object members :: members.values

def Members.values : Members R → List (Tree R)
  | .nil => []
  | .cons _ value rest => value.values ++ rest.values

end

mutual

@[simp] theorem Tree.length_values : ∀ value : Tree R, value.values.length = value.size
  | .scalar _ => rfl
  | .container _ members => by
    rw [Tree.values, List.length_cons, members.length_values, Tree.size]

@[simp] theorem Members.length_values : ∀ members : Members R, members.values.length = members.size
  | .nil => rfl
  | .cons _ value rest => by
    rw [Members.values, List.length_append, value.length_values, rest.length_values, Members.size]

end

theorem Tree.values_head (value : Tree R) : ∃ rest, value.values = value :: rest := by
  cases value <;> exact ⟨_, rfl⟩

/-! ## The members of a container -/

section
variable {member : Member R}

theorem Members.le_place : ∀ (members : Members R) {base : Nat}, member ∈ members.located base →
    base ≤ member.place
  | .nil, _, h => absurd h List.not_mem_nil
  | .cons key value rest, base, h => by
    rw [located] at h
    obtain rfl | h := List.mem_cons.mp h
    · exact Nat.le_refl _
    · exact Nat.le_trans (Nat.le_add_right _ _) (rest.le_place h)

theorem Members.located_values : ∀ (members : Members R) {base : Nat},
    member ∈ members.located base → ∃ before behind,
      members.values = before ++ (member.value.values ++ behind) ∧
      base + before.length = member.place
  | .nil, _, h => absurd h List.not_mem_nil
  | .cons key value rest, base, h => by
    rw [located] at h
    obtain rfl | h := List.mem_cons.mp h
    · exact ⟨[], rest.values, rfl, rfl⟩
    · obtain ⟨before, behind, hvalues, hplace⟩ := rest.located_values h
      refine ⟨value.values ++ before, behind, ?_, ?_⟩
      · rw [Members.values, hvalues, List.append_assoc]
      · rw [List.length_append, value.length_values, ← Nat.add_assoc, hplace]

variable [Det R]

/-- The nodes of a member's value among those of all members. -/
theorem Members.located_layout (object : Bool) : ∀ (members : Members R) {base : Nat},
    member ∈ members.located base → ∃ before next behind,
      members.layout object base = before ++
        (member.value.layout member.place (memberKey object member.key) next ++ behind) ∧
      base + before.length = member.place
  | .nil, _, h => absurd h List.not_mem_nil
  | .cons key value rest, base, h => by
    rw [located] at h
    obtain rfl | h := List.mem_cons.mp h
    · exact ⟨[], _, _, rfl, rfl⟩
    · obtain ⟨before, next, behind, hlayout, hplace⟩ := rest.located_layout object h
      refine ⟨value.layout base (memberKey object key) (rest.first (base + value.size)) ++ before,
        next, behind, ?_, ?_⟩
      · rw [Members.layout, hlayout, List.append_assoc]
      · rw [List.length_append, value.length_layout, ← Nat.add_assoc, hplace]

end

/-! ## The values of a document -/

section
variable {root : Tree R} {index : Nat} {value : Tree R}

theorem Tree.At.values (h : root.At index value) :
    ∃ before behind, root.values = before ++ (value.values ++ behind) ∧ before.length = index := by
  induction h with
  | root => exact ⟨[], [], (List.append_nil _).symm, rfl⟩
  | @member index object container member _ hmember ih =>
    obtain ⟨before, behind, hroot, hindex⟩ := ih
    obtain ⟨front, back, hmembers, hplace⟩ := container.located_values hmember
    refine ⟨before ++ .container object container :: front, back ++ behind, ?_, ?_⟩
    · rw [hroot, Tree.values, hmembers]
      simp
    · rw [List.length_append, List.length_cons, hindex, ← hplace]
      omega

theorem Tree.At.getElem?_values (h : root.At index value) : root.values[index]? = some value := by
  obtain ⟨before, behind, hroot, rfl⟩ := h.values
  obtain ⟨rest, hrest⟩ := value.values_head
  rw [hroot, hrest]
  simp

mutual

theorem at_of_values : ∀ {value : Tree R} {base : Nat}, root.At base value →
    ∀ {offset : Nat} {found : Tree R}, value.values[offset]? = some found →
      root.At (base + offset) found
  | .scalar value, base, hbase, offset, found, h => by
    rw [Tree.values] at h
    obtain rfl : offset = 0 := by
      have := (List.getElem?_eq_some_iff.mp h).1
      rw [List.length_singleton] at this
      omega
    cases h
    exact hbase
  | .container object members, base, hbase, offset, found, h => by
    rw [Tree.values] at h
    cases offset with
    | zero =>
      cases h
      exact hbase
    | succ offset =>
      rw [Nat.add_comm offset, ← Nat.add_assoc]
      exact at_of_memberValues (fun member hmember => .member hbase hmember) h

theorem at_of_memberValues : ∀ {members : Members R} {base : Nat},
    (∀ member ∈ members.located base, root.At member.place member.value) →
    ∀ {offset : Nat} {found : Tree R}, members.values[offset]? = some found →
      root.At (base + offset) found
  | .nil, _, _, _, _, h => by
    rw [Members.values] at h
    cases h
  | .cons key value rest, base, hmembers, offset, found, h => by
    rw [Members.values, List.getElem?_append] at h
    split at h
    · exact at_of_values (hmembers ⟨key, base, value⟩ List.mem_cons_self) h
    · rename_i hoffset
      rw [value.length_values] at h hoffset
      have hrest := at_of_memberValues (fun member hmember =>
        hmembers member (List.mem_cons_of_mem _ hmember)) h
      rwa [Nat.add_assoc, Nat.add_sub_cancel' (Nat.le_of_not_lt hoffset)] at hrest

end

/-- Each place of a document is that of exactly one value. -/
theorem Tree.at_iff : root.At index value ↔ root.values[index]? = some value := by
  refine ⟨At.getElem?_values, fun h => ?_⟩
  have hat := at_of_values At.root h
  rwa [Nat.zero_add] at hat

end

/-! ## Each place is a member's -/

/-- The places of the members of each value of a list that lies from `base` on. -/
def chainsFrom (base : Nat) (values : List (Tree R)) : List (List Nat) :=
  values.mapIdx fun offset value => value.places (base + offset)

theorem chainsFrom_append (base : Nat) (left right : List (Tree R)) :
    chainsFrom base (left ++ right) =
      chainsFrom base left ++ chainsFrom (base + left.length) right := by
  simp only [chainsFrom, List.mapIdx_append, Nat.add_assoc, Nat.add_comm left.length]

theorem chainsFrom_cons (base : Nat) (value : Tree R) (values : List (Tree R)) :
    chainsFrom base (value :: values) = value.places base :: chainsFrom (base + 1) values := by
  simp only [chainsFrom, List.mapIdx_cons, Nat.add_zero, Nat.add_assoc, Nat.add_comm 1]

mutual

theorem Tree.chains_perm : ∀ (value : Tree R) (base : Nat),
    (chainsFrom base value.values).flatten.Perm (List.range' (base + 1) (value.size - 1))
  | .scalar value, base => by
    rw [Tree.values, chainsFrom_cons]
    rfl
  | .container object members, base => by
    rw [Tree.values, chainsFrom_cons, List.flatten_cons, Tree.size, Nat.add_sub_cancel]
    exact members.chains_perm (base + 1)

theorem Members.chains_perm : ∀ (members : Members R) (base : Nat),
    ((members.located base).map Member.place ++ (chainsFrom base members.values).flatten).Perm
      (List.range' base members.size)
  | .nil, _ => List.Perm.refl _
  | .cons key value rest, base => by
    have hvalue := value.chains_perm base
    have hrest := rest.chains_perm (base + value.size)
    rw [Members.located, Members.values, Members.size, List.map_cons, chainsFrom_append,
      List.flatten_append, value.length_values]
    have hsize : value.size = (value.size - 1) + 1 := (Nat.sub_add_cancel value.size_pos).symm
    have hrange : List.range' base (value.size + rest.size) =
        base :: (List.range' (base + 1) (value.size - 1) ++
          List.range' (base + value.size) rest.size) := by
      rw [← List.cons_append, ← List.range'_succ, ← hsize, List.range'_append_1]
    rw [hrange, List.cons_append]
    exact .cons base ((List.perm_append_comm_assoc _ _ _).trans (hvalue.append hrest))

end

end WaveformGenerator.SignalLab.Json

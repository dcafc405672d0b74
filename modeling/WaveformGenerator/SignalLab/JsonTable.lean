import Mathlib.Data.List.Basic
import Mathlib.Data.List.GetD
import WaveformGenerator.SignalLab.JsonGrammar

/-!
# The node table

A value takes a node for itself and one for each value within it, in the order in which the document
spells them. `layout` is the table of a value by itself: it says of each node what it holds and which
nodes it links to. `take` is what reading a value does to the reader, step by step, and `take_nodes`
that the table then ends with the value's layout and is otherwise as it was but for the links of the
container the value is a member of.
-/

namespace WaveformGenerator.SignalLab.Json

/-! ## Modified lists -/

section
variable {α : Type*} {left right : List α} {i : Nat} {f : α → α}

theorem modify_append_left (h : i < left.length) :
    (left ++ right).modify i f = left.modify i f ++ right := by
  apply List.ext_getElem?
  intro j
  simp only [List.getElem?_modify, List.getElem?_append, List.length_modify]
  split <;> split <;> simp_all

theorem modify_append_cons (h : left.length = i) (a : α) :
    (left ++ a :: right).modify i f = left ++ f a :: right := by
  subst h
  induction left with
  | nil => rfl
  | cons b left ih => simpa using ih

end

variable {R : Type} [Det R]

theorem getD_type_modify {f : Value R → Value R} (h : ∀ node, (f node).type = node.type)
    (nodes : List (Value R)) (i j : Nat) :
    ((nodes.modify i f).getD j default).type = (nodes.getD j default).type := by
  simp only [List.getD_eq_getElem?_getD, List.getElem?_modify]
  split
  · cases nodes[j]? with
    | none => rfl
    | some node => exact h node
  · rw [Option.map_eq_map, Option.map_id']

/-! ## Layouts -/

def containerType (object : Bool) : ValueType := if object then .object else .array

/-- The first node of some members that lie from `base` on. -/
def Members.first (base : Nat) : Members R → Option Nat
  | .nil => none
  | .cons .. => some base

def Members.count : Members R → Nat
  | .nil => 0
  | .cons _ _ rest => rest.count + 1

/-- The key a member of an object or an array has in its node. -/
def memberKey (object : Bool) (key : Text) : Text := if object then key else []

/-- The node of a value at `base`, with its key and its next sibling. -/
def Tree.node (base : Nat) (key : Text) (next : Option Nat) : Tree R → Value R
  | .scalar value =>
    { value.put default with key, keyLength := .ofNat key.length, nextSibling := next }
  | .container object members =>
    { (default : Value R) with
      type := containerType object
      key
      keyLength := .ofNat key.length
      firstChild := members.first (base + 1)
      nextSibling := next
      childCount := members.count }

mutual

/-- The nodes of a value from `base` on. -/
def Tree.layout (base : Nat) (key : Text) (next : Option Nat) : Tree R → List (Value R)
  | .scalar value => [Tree.node base key next (.scalar value)]
  | .container object members =>
    Tree.node base key next (.container object members) :: members.layout object (base + 1)

def Members.layout (object : Bool) (base : Nat) : Members R → List (Value R)
  | .nil => []
  | .cons key value rest =>
    value.layout base (memberKey object key) (rest.first (base + value.size)) ++
      rest.layout object (base + value.size)

end

mutual

@[simp] theorem Tree.length_layout (value : Tree R) (base : Nat) (key : Text) (next : Option Nat) :
    (value.layout base key next).length = value.size :=
  match value with
  | .scalar _ => rfl
  | .container object members => by
    rw [Tree.layout, List.length_cons, members.length_layout object (base + 1), Tree.size]

@[simp] theorem Members.length_layout (members : Members R) (object : Bool) (base : Nat) :
    (members.layout object base).length = members.size :=
  match members with
  | .nil => rfl
  | .cons key value rest => by
    rw [Members.layout, List.length_append, value.length_layout, rest.length_layout,
      Members.size]

end

/-- Of a value's nodes only its own knows the sibling behind the value. -/
theorem Tree.layout_next (value : Tree R) (base : Nat) (key : Text) (before next : Option Nat) :
    ∃ node nodes, value.layout base key before = node :: nodes ∧
      value.layout base key next = { node with nextSibling := next } :: nodes := by
  cases value with
  | scalar value => exact ⟨_, _, rfl, rfl⟩
  | container object members => exact ⟨_, _, rfl, rfl⟩

/-! ## What reading a value does to the reader -/

namespace Reader

/-- A node for the next value, linked into the innermost container. -/
def place (reader : Reader R) : Reader R :=
  addMember { reader with nodes := reader.nodes ++ [default] } reader.nodes.length

def openNode (reader : Reader R) (object : Bool) : Reader R :=
  { reader.place with
    nodes := reader.place.nodes.modify reader.nodes.length fun node =>
      { node with type := containerType object }
    opens := { node := reader.nodes.length, lastChild := none } :: reader.place.opens }

def close (reader : Reader R) : Reader R := { reader with opens := reader.opens.tail }

def withKey (reader : Reader R) (object : Bool) (key : Text) : Reader R :=
  if object then { reader with key } else reader

mutual

def take (reader : Reader R) : Tree R → Reader R
  | .scalar value =>
    { reader.place with
      nodes := reader.place.nodes.modify reader.nodes.length fun node => value.put node }
  | .container object members => ((reader.openNode object).takeMembers object members).close

def takeMembers (reader : Reader R) (object : Bool) : Members R → Reader R
  | .nil => reader
  | .cons key value rest => ((reader.withKey object key).take value).takeMembers object rest

end

/-! ### The nodes before -/

/-- The innermost container and its last member have nodes in the table. -/
def Valid (reader : Reader R) : Prop :=
  ∀ innermost ∈ reader.opens.head?, innermost.node < reader.nodes.length ∧
    ∀ last ∈ innermost.lastChild, last < reader.nodes.length

/-- The table with the next node linked into the innermost container. -/
def linkedNodes (reader : Reader R) : List (Value R) :=
  match reader.opens with
  | [] => reader.nodes
  | innermost :: _ =>
    appendChild reader.nodes innermost.node innermost.lastChild reader.nodes.length

/-- The key of the next node. -/
def nextKey (reader : Reader R) : Text :=
  match reader.opens with
  | [] => []
  | innermost :: _ => memberKey (isObject reader.nodes innermost) reader.key

omit [Det R] in
@[simp] theorem length_appendChild (nodes : List (Value R)) (parent : Nat) (last : Option Nat)
    (child : Nat) : (appendChild nodes parent last child).length = nodes.length := by
  cases last <;> simp [appendChild]

omit [Det R] in
theorem appendChild_append {nodes behind : List (Value R)} {parent : Nat} {last : Option Nat}
    (hparent : parent < nodes.length) (hlast : ∀ index ∈ last, index < nodes.length) (child : Nat) :
    appendChild (nodes ++ behind) parent last child =
      appendChild nodes parent last child ++ behind := by
  cases last with
  | none =>
    dsimp only [appendChild]
    rw [modify_append_left hparent, modify_append_left (by rwa [List.length_modify])]
  | some index =>
    dsimp only [appendChild]
    rw [modify_append_left (hlast index rfl), modify_append_left (by rwa [List.length_modify])]

theorem appendChild_type (nodes : List (Value R)) (parent : Nat) (last : Option Nat)
    (child index : Nat) :
    ((appendChild nodes parent last child).getD index default).type =
      (nodes.getD index default).type := by
  cases last with
  | none =>
    exact (getD_type_modify (by intro; rfl) ..).trans (getD_type_modify (by intro; rfl) ..)
  | some last =>
    exact (getD_type_modify (by intro; rfl) ..).trans (getD_type_modify (by intro; rfl) ..)

omit [Det R] in
@[simp] theorem length_linkedNodes (reader : Reader R) :
    reader.linkedNodes.length = reader.nodes.length := by
  rw [linkedNodes]
  split
  · rfl
  · exact length_appendChild ..

theorem linkedNodes_type (reader : Reader R) (index : Nat) :
    (reader.linkedNodes.getD index default).type = (reader.nodes.getD index default).type := by
  rw [linkedNodes]
  split
  · rfl
  · exact appendChild_type ..

theorem isObject_append {nodes : List (Value R)} {container : Open}
    (h : container.node < nodes.length) (behind : List (Value R)) :
    isObject (nodes ++ behind) container = isObject nodes container := by
  rw [isObject, List.getD_append _ _ _ _ h, isObject]

theorem place_nodes {reader : Reader R} (h : reader.Valid) :
    reader.place.nodes = reader.linkedNodes ++
      [{ (default : Value R) with
        key := reader.nextKey, keyLength := .ofNat reader.nextKey.length }] := by
  rw [place, addMember.eq_def, linkedNodes, nextKey]
  dsimp only
  cases hopens : reader.opens with
  | nil => rfl
  | cons innermost outer =>
    obtain ⟨hnode, hlast⟩ := h innermost (by rw [hopens]; rfl)
    dsimp only
    rw [isObject_append hnode]
    cases isObject reader.nodes innermost with
    | true =>
      rw [if_pos rfl, modify_append_cons rfl, appendChild_append hnode hlast]
      rfl
    | false =>
      rw [if_neg Bool.false_ne_true, appendChild_append hnode hlast]
      rfl

theorem place_opens (reader : Reader R) : reader.place.opens =
    reader.opens.modifyHead fun innermost =>
      { innermost with lastChild := some reader.nodes.length } := by
  rw [place, addMember.eq_def]
  dsimp only
  cases reader.opens <;> rfl

omit [Det R] in
@[simp] theorem withKey_nodes (reader : Reader R) (object : Bool) (key : Text) :
    (reader.withKey object key).nodes = reader.nodes := by
  cases object <;> rfl

omit [Det R] in
@[simp] theorem withKey_opens (reader : Reader R) (object : Bool) (key : Text) :
    (reader.withKey object key).opens = reader.opens := by
  cases object <;> rfl

mutual

theorem take_opens (reader : Reader R) (value : Tree R) :
    (reader.take value).opens = reader.place.opens :=
  match value with
  | .scalar _ => by rw [take]
  | .container object members => by
    rw [take, close]
    exact takeMembers_opens (reader.openNode object) object members

theorem takeMembers_opens (reader : Reader R) (object : Bool) (members : Members R) :
    (reader.takeMembers object members).opens.tail = reader.opens.tail :=
  match members with
  | .nil => by rw [takeMembers]
  | .cons key value rest => by
    rw [takeMembers, takeMembers_opens _ object rest, take_opens _ value, place_opens,
      withKey_opens]
    cases reader.opens <;> rfl

end

/-! ### The nodes of a value -/

/-- The table with members from `base` on linked into a container. -/
def linkMembers (nodes : List (Value R)) (container : Open) (base : Nat) :
    Members R → List (Value R)
  | .nil => nodes
  | .cons _ _ rest =>
    (appendChild nodes container.node container.lastChild base).modify container.node fun node =>
      { node with childCount := node.childCount + rest.count }

theorem linkMembers_opened {before : List (Value R)} {base : Nat} (hbase : before.length = base)
    (object : Bool) (key : Text) (members : Members R) :
    linkMembers (before ++ [{ (default : Value R) with
        key, keyLength := .ofNat key.length, type := containerType object }])
      { node := base, lastChild := none } (base + 1) members =
      before ++ [(Tree.container object members).node base key none] := by
  cases members with
  | nil => rfl
  | cons _ _ rest =>
    rw [linkMembers]
    dsimp only [appendChild]
    have hcount : (default : Value R).childCount + 1 + rest.count = rest.count + 1 :=
      (congrArg (· + rest.count) (Nat.zero_add 1)).trans (Nat.add_comm ..)
    rw [modify_append_cons hbase, modify_append_cons hbase, modify_append_cons hbase]
    dsimp only
    rw [hcount]
    rfl

/-- Linking the members behind a value gives its node its sibling and the container their number. -/
theorem linkMembers_append {before : List (Value R)} {container : Open} {base : Nat}
    (hbase : before.length = base) (hnode : container.node < base) (value : Tree R) (key : Text)
    (rest : Members R) :
    linkMembers (before ++ value.layout base key none) { container with lastChild := some base }
      (base + value.size) rest =
      (before.modify container.node fun node =>
        { node with childCount := node.childCount + rest.count }) ++
        value.layout base key (rest.first (base + value.size)) := by
  subst hbase
  cases rest with
  | nil =>
    have hid : (fun node : Value R => { node with childCount := node.childCount + 0 }) = id := rfl
    rw [linkMembers, Members.count, hid, List.modify_id]
    rfl
  | cons _ _ rest =>
    obtain ⟨node, nodes, hbefore, hafter⟩ :=
      value.layout_next before.length key none (some (before.length + value.size))
    rw [linkMembers, Members.first, hbefore, hafter]
    dsimp only [appendChild]
    rw [modify_append_cons rfl, modify_append_left hnode,
      modify_append_left (by rwa [List.length_modify]), List.modify_modify_eq]
    congr 2
    funext node
    simp [Members.count, Nat.add_assoc, Nat.add_comm]

theorem isObject_containerType (object : Bool) : (containerType object == .object) = object := by
  cases object <;> rfl

theorem openNode_nodes {reader : Reader R} (h : reader.Valid) (object : Bool) :
    (reader.openNode object).nodes = reader.linkedNodes ++
      [{ (default : Value R) with
        key := reader.nextKey, keyLength := .ofNat reader.nextKey.length,
        type := containerType object }] := by
  rw [openNode]
  dsimp only
  rw [place_nodes h, modify_append_cons (length_linkedNodes reader)]

theorem length_openNode {reader : Reader R} (h : reader.Valid) (object : Bool) :
    (reader.openNode object).nodes.length = reader.nodes.length + 1 := by
  rw [openNode_nodes h, List.length_append, length_linkedNodes, List.length_singleton]

theorem length_openNode_opens (reader : Reader R) (object : Bool) :
    (reader.openNode object).opens.length = reader.opens.length + 1 := by
  rw [openNode]
  dsimp only
  rw [List.length_cons, place_opens, List.length_modifyHead]

theorem openNode_valid {reader : Reader R} (h : reader.Valid) (object : Bool) :
    (reader.openNode object).Valid := by
  rintro _ ⟨⟩
  rw [openNode_nodes h]
  exact ⟨by simp, by simp⟩

theorem openNode_isObject {reader : Reader R} (h : reader.Valid) (object : Bool) :
    isObject (reader.openNode object).nodes { node := reader.nodes.length, lastChild := none } =
      object := by
  rw [isObject, openNode_nodes h, List.getD_append_right _ _ _ _ (by simp)]
  simp [isObject_containerType]

omit [Det R] in
theorem withKey_valid {reader : Reader R} (h : reader.Valid) (object : Bool) (key : Text) :
    (reader.withKey object key).Valid := by
  rwa [Valid, withKey_opens, withKey_nodes]

omit [Det R] in
theorem withKey_linkedNodes (reader : Reader R) (object : Bool) (key : Text) :
    (reader.withKey object key).linkedNodes = reader.linkedNodes := by
  rw [linkedNodes, withKey_opens, withKey_nodes, linkedNodes]

theorem withKey_nextKey {reader : Reader R} {innermost : Open} {outer : List Open}
    (hopens : reader.opens = innermost :: outer) (key : Text) :
    (reader.withKey (isObject reader.nodes innermost) key).nextKey =
      memberKey (isObject reader.nodes innermost) key := by
  rw [nextKey, withKey_opens, hopens]
  dsimp only
  rw [withKey_nodes]
  cases isObject reader.nodes innermost <;> rfl

/-! Between the members of a container its node stays a container of its kind. -/

section
variable {reader taken : Reader R} {behind : List (Value R)}

theorem isObject_taken (innermost : Open) (hnodes : taken.nodes = reader.linkedNodes ++ behind)
    (hnode : innermost.node < reader.nodes.length) :
    isObject taken.nodes innermost = isObject reader.nodes innermost := by
  rw [hnodes, isObject_append (by rwa [length_linkedNodes]), isObject, linkedNodes_type, isObject]

theorem valid_taken (h : reader.Valid) (hnodes : taken.nodes = reader.linkedNodes ++ behind)
    (hbehind : 0 < behind.length) (hopens : taken.opens = reader.place.opens) : taken.Valid := by
  have hlength : reader.nodes.length < taken.nodes.length := by
    rw [hnodes, List.length_append, length_linkedNodes]
    omega
  intro innermost hinnermost
  rw [hopens, place_opens] at hinnermost
  cases houter : reader.opens with
  | nil => simp [houter] at hinnermost
  | cons container outer =>
    obtain rfl : { container with lastChild := some reader.nodes.length } = innermost := by
      simpa [houter] using hinnermost
    have hnode := (h container (by rw [houter]; rfl)).1
    refine ⟨Nat.lt_trans hnode hlength, ?_⟩
    rintro _ ⟨⟩
    exact hlength

end

mutual

theorem take_nodes {reader : Reader R} (h : reader.Valid) (value : Tree R) :
    (reader.take value).nodes =
      reader.linkedNodes ++ value.layout reader.nodes.length reader.nextKey none :=
  match value with
  | .scalar value => by
    rw [take]
    dsimp only
    rw [place_nodes h, modify_append_cons (length_linkedNodes reader), Tree.layout]
    cases value <;> rfl
  | .container object members => by
    have hmembers := takeMembers_nodes (openNode_valid h object) rfl members
    rw [openNode_isObject h] at hmembers
    rw [take, close]
    dsimp only
    rw [hmembers, openNode_nodes h, List.length_append, length_linkedNodes, List.length_singleton,
      linkMembers_opened (length_linkedNodes reader), List.append_assoc]
    rfl

theorem takeMembers_nodes {reader : Reader R} (h : reader.Valid) {innermost : Open}
    {outer : List Open} (hopens : reader.opens = innermost :: outer) (members : Members R) :
    (reader.takeMembers (isObject reader.nodes innermost) members).nodes =
      linkMembers reader.nodes innermost reader.nodes.length members ++
        members.layout (isObject reader.nodes innermost) reader.nodes.length :=
  match members with
  | .nil => by rw [takeMembers, linkMembers, Members.layout, List.append_nil]
  | .cons key value rest => by
    have hnode := (h innermost (by rw [hopens]; rfl)).1
    have hnodes := take_nodes
      (withKey_valid h (isObject reader.nodes innermost) key) value
    have htaken := take_opens (reader.withKey (isObject reader.nodes innermost) key) value
    rw [takeMembers]
    rw [withKey_linkedNodes, withKey_nextKey hopens, withKey_nodes] at hnodes
    rw [place_opens, withKey_opens, withKey_nodes] at htaken
    generalize (reader.withKey (isObject reader.nodes innermost) key).take value = taken at *
    have hobject := isObject_taken innermost hnodes hnode
    have hvalid := valid_taken h hnodes (by rw [value.length_layout]; exact value.size_pos)
      (by rw [htaken, place_opens])
    rw [hopens] at htaken
    have hrest := takeMembers_nodes hvalid htaken rest
    have hlength : taken.nodes.length = reader.nodes.length + value.size := by
      rw [hnodes, List.length_append, length_linkedNodes, value.length_layout]
    have hsame : isObject taken.nodes { innermost with lastChild := some reader.nodes.length } =
        isObject reader.nodes innermost := hobject
    rw [hsame, hlength] at hrest
    rw [hrest, hnodes, linkMembers_append (length_linkedNodes reader) hnode, linkMembers,
      Members.layout, List.append_assoc, linkedNodes, hopens]

end

theorem take_length {reader : Reader R} (h : reader.Valid) (value : Tree R) :
    (reader.take value).nodes.length = reader.nodes.length + value.size := by
  rw [take_nodes h, List.length_append, length_linkedNodes, value.length_layout]

theorem take_valid {reader : Reader R} (h : reader.Valid) (value : Tree R) :
    (reader.take value).Valid :=
  valid_taken h (take_nodes h value) (by rw [value.length_layout]; exact value.size_pos)
    (take_opens reader value)

theorem take_depth (reader : Reader R) (value : Tree R) :
    (reader.take value).opens.length = reader.opens.length := by
  rw [take_opens, place_opens, List.length_modifyHead]

/-- The innermost container is an object, or an array. -/
structure Inside (reader : Reader R) (object : Bool) : Prop where
  valid : reader.Valid
  container : ∃ innermost outer,
    reader.opens = innermost :: outer ∧ isObject reader.nodes innermost = object

theorem openNode_inside {reader : Reader R} (h : reader.Valid) (object : Bool) :
    (reader.openNode object).Inside object :=
  ⟨openNode_valid h object, _, _, rfl, openNode_isObject h object⟩

theorem Inside.take {reader : Reader R} {object : Bool} (h : reader.Inside object) (key : Text) (value : Tree R) :
    ((reader.withKey object key).take value).Inside object := by
  obtain ⟨innermost, outer, hopens, hobject⟩ := h.container
  have hvalid := withKey_valid h.valid object key
  refine ⟨take_valid hvalid value, { innermost with lastChild := some reader.nodes.length }, outer,
    ?_, ?_⟩
  · rw [take_opens, place_opens, withKey_opens, withKey_nodes, hopens]
    rfl
  · have hnode := (h.valid innermost (by rw [hopens]; rfl)).1
    have hsame := isObject_taken innermost (take_nodes hvalid value) (by rwa [withKey_nodes])
    rw [withKey_nodes, hobject] at hsame
    exact hsame

end Reader

end WaveformGenerator.SignalLab.Json

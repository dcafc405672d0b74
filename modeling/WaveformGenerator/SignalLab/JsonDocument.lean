import Mathlib.Algebra.Group.Nat.Defs
import WaveformGenerator.SignalLab.JsonPlaces
import WaveformGenerator.SignalLab.JsonReading

/-!
# What the document shows

The accessors of a document against the value its text spells: the links of the table are the tree of
that value, and `find`, `at` and `child` go along them. A node keeps the lengths of its key and of its
characters in 32 bits, so they are those of the text when the text is shorter than 2^32 bytes.
-/

namespace WaveformGenerator.SignalLab.Json

/-! ## Lengths -/

/-- As long as a length that 32 bits hold. -/
def lengthLimit : Nat := 2 ^ 32

theorem toNat_ofNat_length {text : Text} (h : text.length < lengthLimit) :
    (UInt32.ofNat text.length).toNat = text.length :=
  UInt32.toNat_ofNat_of_lt' h

/-- A C string is the bytes of a view when it spells them, none of them NUL. -/
theorem sameBytes_iff {literal view : Text} (hliteral : 0 ∉ literal)
    (hview : view.length < lengthLimit) :
    sameBytes literal view (.ofNat view.length) = true ↔ literal = view := by
  have hget (index : Nat) : literal.getD index 0 = 0 ↔ literal.length ≤ index := by
    constructor
    · intro h
      by_contra hindex
      rw [List.getD_eq_getElem _ _ (Nat.lt_of_not_le hindex)] at h
      exact hliteral (h ▸ List.getElem_mem _)
    · exact fun h => List.getD_eq_default _ _ h
  simp only [sameBytes, toNat_ofNat_length hview, Bool.and_eq_true, List.all_eq_true,
    List.mem_range, bne_iff_ne, ne_eq, beq_iff_eq, hget, Nat.not_le]
  constructor
  · rintro ⟨hsame, hend⟩
    have hlength : literal.length = view.length := by
      refine Nat.le_antisymm hend (Nat.le_of_not_lt fun hshort => ?_)
      exact absurd (hsame literal.length hshort).1 (Nat.lt_irrefl _)
    refine List.ext_getElem hlength fun index hleft hright => ?_
    have h := (hsame index hright).2
    rwa [List.getD_eq_getElem _ _ hleft, List.getD_eq_getElem _ _ hright] at h
  · rintro rfl
    exact ⟨fun index h => ⟨h, rfl⟩, Nat.le_refl _⟩

example : sameBytes [116, 114] [116, 114, 117] 2 = true ∧
    sameBytes [116, 114, 117] [116, 114] 2 = false := by decide +kernel

variable {R : Type}

mutual

/-- Every key and every string is shorter than `limit`. -/
def Tree.Short (limit : Nat) : Tree R → Prop
  | .scalar (.string characters) => characters.length < limit
  | .scalar _ => True
  | .container _ members => members.Short limit

def Members.Short (limit : Nat) : Members R → Prop
  | .nil => True
  | .cons key value rest => key.length < limit ∧ value.Short limit ∧ rest.Short limit

end

theorem Members.Short.member {limit : Nat} {member : Member R} :
    ∀ {members : Members R} {base : Nat}, members.Short limit → member ∈ members.located base →
      member.key.length < limit ∧ member.value.Short limit
  | .nil, _, _, h => absurd h List.not_mem_nil
  | .cons key value rest, base, ⟨hkey, hvalue, hrest⟩, h => by
    rw [located] at h
    obtain rfl | h := List.mem_cons.mp h
    · exact ⟨hkey, hvalue⟩
    · exact hrest.member h

theorem Tree.Short.value {limit index : Nat} {root value : Tree R} (h : root.Short limit)
    (hat : root.At index value) : value.Short limit := by
  induction hat with
  | root => exact h
  | member _ hmember ih => exact (Members.Short.member ih hmember).2

section
variable [Det R]

mutual

/-- What a text spells has no key and no string as long as the text. -/
theorem Spells.short {limit : Nat} {text : Text} {value : Tree R} (h : Spells text value)
    (htext : text.length < limit) : value.Short limit :=
  match h with
  | .scalar hscalar => by
    cases hscalar with
    | string hcharacters =>
      rw [List.length_cons, List.length_append] at htext
      rw [Tree.Short]
      omega
    | null => trivial
    | boolean => trivial
    | number => trivial
  | .empty _ _ => trivial
  | .container hkey _ hbody htail => by
    simp only [List.length_cons, List.length_append] at htext
    have hlength := hkey.length_le
    exact ⟨by omega, hbody.short (by omega), htail.short (by omega)⟩

theorem SpellsTail.short {limit : Nat} {object : Bool} {text : Text} {members : Members R}
    (h : SpellsTail object text members) (htext : text.length < limit) : members.Short limit :=
  match h with
  | .close _ _ => trivial
  | .member _ hkey _ hbody htail => by
    simp only [List.length_cons, List.length_append] at htext
    have hlength := hkey.length_le
    exact ⟨by omega, hbody.short (by omega), htail.short (by omega)⟩

end

/-! ## Nodes -/

@[simp] theorem Tree.node_key (value : Tree R) (base : Nat) (key : Text) (next : Option Nat) :
    (value.node base key next).key = key := by
  cases value <;> rfl

@[simp] theorem Tree.node_keyLength (value : Tree R) (base : Nat) (key : Text) (next : Option Nat) :
    (value.node base key next).keyLength = .ofNat key.length := by
  cases value <;> rfl

@[simp] theorem Tree.node_nextSibling (value : Tree R) (base : Nat) (key : Text)
    (next : Option Nat) : (value.node base key next).nextSibling = next := by
  cases value <;> rfl

theorem Tree.layout_head (value : Tree R) (base : Nat) (key : Text) (next : Option Nat) :
    ∃ within, value.layout base key next = value.node base key next :: within := by
  cases value <;> exact ⟨_, rfl⟩

theorem Document.node_of_nodes {document : Document R} {before behind : List (Value R)}
    {node : Value R} (h : document.nodes = before ++ node :: behind) :
    document.node before.length = node := by
  rw [Document.node, h, List.getD_eq_getElem?_getD]
  simp

/-! ## Members -/

/-- The nodes of the members from `base` on are where their places say. -/
structure Document.Lays (document : Document R) (object : Bool) (base : Nat) (members : Members R) :
    Prop where
  nodes : ∃ before behind, document.nodes = before ++ (members.layout object base ++ behind) ∧
    before.length = base

/-- The chain of siblings from a link on. -/
inductive Document.Chain (document : Document R) : Option Nat → List Nat → Prop
  | nil : Chain document none []
  | cons {index : Nat} {rest : List Nat} : index < document.nodes.length →
      Chain document (document.node index).nextSibling rest →
      Chain document (some index) (index :: rest)

namespace Document.Lays

variable {document : Document R} {object : Bool} {base : Nat}

section
variable {key : Text} {value : Tree R} {rest : Members R}
  (h : document.Lays object base (.cons key value rest))

include h

theorem node_eq : document.node base =
    value.node base (memberKey object key) (rest.first (base + value.size)) := by
  obtain ⟨before, behind, hnodes, rfl⟩ := h.nodes
  obtain ⟨within, hwithin⟩ := value.layout_head before.length (memberKey object key)
    (rest.first (before.length + value.size))
  rw [Members.layout, hwithin] at hnodes
  exact node_of_nodes (by simpa using hnodes)

theorem lt_length : base < document.nodes.length := by
  obtain ⟨before, behind, hnodes, rfl⟩ := h.nodes
  have := value.size_pos
  rw [hnodes, List.length_append, List.length_append, Members.length_layout, Members.size]
  omega

theorem tail : document.Lays object (base + value.size) rest := by
  obtain ⟨before, behind, hnodes, rfl⟩ := h.nodes
  rw [Members.layout] at hnodes
  refine ⟨before ++ value.layout before.length (memberKey object key)
    (rest.first (before.length + value.size)), behind, hnodes.trans ?_, ?_⟩
  · rw [List.append_assoc, List.append_assoc]
  · rw [List.length_append, value.length_layout]

end

theorem chain : ∀ {members : Members R} {base : Nat}, document.Lays object base members →
    document.Chain (members.first base) ((members.located base).map Member.place)
  | .nil, _, _ => .nil
  | .cons _ _ _, _, h => by
    refine .cons h.lt_length ?_
    rw [h.node_eq, Tree.node_nextSibling]
    exact h.tail.chain

theorem atFrom_eq : ∀ {members : Members R} {base : Nat}, document.Lays object base members →
    ∀ {links : Nat}, members.count ≤ links → ∀ wanted,
      document.atFrom links wanted (members.first base) =
        some (((members.located base)[wanted]?).map Member.place)
  | .nil, _, _, links, _, wanted => by
    cases links <;> rfl
  | .cons _ _ _, _, h, links + 1, hlinks, wanted => by
    rw [Members.first, atFrom, h.node_eq, Tree.node_nextSibling, Members.located]
    cases wanted with
    | zero => rfl
    | succ wanted => exact h.tail.atFrom_eq (Nat.le_of_succ_le_succ hlinks) wanted

theorem findFrom_eq {name : Text} (hname : 0 ∉ name) : ∀ {members : Members R} {base : Nat},
    document.Lays true base members → members.Short lengthLimit →
    ∀ {links : Nat}, members.count ≤ links →
      document.findFrom name links (members.first base) =
        some (((members.located base).find? (·.key == name)).map Member.place)
  | .nil, _, _, _, links, _ => by
    cases links <;> rfl
  | .cons key _ _, _, h, ⟨hkey, _, hrest⟩, links + 1, hlinks => by
    have hmember : memberKey true key = key := rfl
    rw [Members.first, findFrom, h.node_eq, Tree.node_nextSibling, Tree.node_key,
      Tree.node_keyLength, hmember, Members.located]
    by_cases hsame : key = name
    · rw [if_pos ((sameBytes_iff hname hkey).mpr hsame.symm), List.find?_cons_of_pos (by simpa using hsame)]
      rfl
    · rw [if_neg fun h => hsame ((sameBytes_iff hname hkey).mp h).symm,
        List.find?_cons_of_neg (by simpa using hsame)]
      exact h.tail.findFrom_eq hname hrest (Nat.le_of_succ_le_succ hlinks)

theorem node_member : ∀ {members : Members R} {base : Nat}, document.Lays object base members →
    ∀ member ∈ members.located base, ∃ next, document.node member.place =
      member.value.node member.place (memberKey object member.key) next
  | .nil, _, _, _, hmember => absurd hmember List.not_mem_nil
  | .cons _ _ _, _, h, member, hmember => by
    rw [Members.located] at hmember
    obtain rfl | hmember := List.mem_cons.mp hmember
    · exact ⟨_, h.node_eq⟩
    · exact h.tail.node_member member hmember

end Document.Lays

/-! ## What a document shows -/

def Scalar.HeldBy (node : Value R) : Scalar R → Prop
  | .null => node.type = .null
  | .boolean value => node.type = .boolean ∧ node.boolean = value
  | .number value => node.type = .number ∧ node.number = value
  | .string characters =>
    node.type = .string ∧ node.text = characters ∧ node.textLength.toNat = characters.length

/-- A container's node counts and links exactly its members, whose nodes have their keys, and the
accessors find them. -/
structure Document.ShowsMembers (document : Document R) (node : Value R) (object : Bool)
    (members : List (Member R)) : Prop where
  type : node.type = containerType object
  childCount : node.childCount = members.length
  chain : document.Chain node.firstChild (members.map Member.place)
  keys : object = true → ∀ member ∈ members, (document.node member.place).key = member.key ∧
    (document.node member.place).keyLength.toNat = member.key.length
  atIndex : ∀ wanted, document.atIndex node wanted =
    some (if object then none else (members[wanted]?).map Member.place)
  find : ∀ name, 0 ∉ name → document.find node (some name) =
    some (if object then (members.find? (·.key == name)).map Member.place else none)

/-- The node at `index` is what the document has of a value. -/
def Document.Shows (document : Document R) (index : Nat) : Tree R → Prop
  | .scalar value => document.child index = some index ∧ value.HeldBy (document.node index) ∧
      (document.node index).firstChild = none ∧ (document.node index).childCount = 0
  | .container object members => document.child index = some index ∧
      document.ShowsMembers (document.node index) object (members.located (index + 1))

/-- The links of a document are a tree in document order, which holds each value of `root` once. -/
structure Document.Represents (document : Document R) (root : Tree R) : Prop where
  root_eq : document.root = some 0
  nodeCount : document.nodeCount = root.size
  unique : ∀ index < document.nodeCount, ∃! value, root.At index value
  shows : ∀ index value, root.At index value → document.Shows index value
  linked : ∃ chains : List (List Nat), chains.length = document.nodeCount ∧
    (∀ index chain, chains[index]? = some chain →
      document.Chain (document.node index).firstChild chain ∧ ∀ member ∈ chain, index < member) ∧
    chains.flatten.Perm (List.range' 1 (document.nodeCount - 1))

omit [Det R] in
theorem Members.length_located : ∀ (members : Members R) (base : Nat),
    (members.located base).length = members.count := by
  intro members base
  cases members with
  | nil => rfl
  | cons _ _ rest => rw [located, List.length_cons, rest.length_located, count]

omit [Det R] in
theorem Members.count_le_size (members : Members R) : members.count ≤ members.size := by
  cases members with
  | nil => exact Nat.le_refl _
  | cons _ value rest =>
    have := value.size_pos
    have := rest.count_le_size
    rw [count, size]
    omega

/-- Where a value lies in the layout of its document. -/
theorem Tree.At.layout {root : Tree R} {index : Nat} {value : Tree R} (h : root.At index value) :
    ∃ before key next behind, root.layout 0 [] none =
      before ++ (value.layout index key next ++ behind) ∧ before.length = index := by
  induction h with
  | root => exact ⟨[], [], none, [], (List.append_nil _).symm, rfl⟩
  | @member index object members member _ hmember ih =>
    obtain ⟨before, key, next, behind, hroot, hindex⟩ := ih
    obtain ⟨front, link, back, hmembers, hplace⟩ := members.located_layout object hmember
    refine ⟨before ++ Tree.node index key next (.container object members) :: front,
      memberKey object member.key, link, back ++ behind, ?_, ?_⟩
    · rw [hroot, Tree.layout, hmembers]
      simp
    · rw [List.length_append, List.length_cons, hindex, ← hplace]
      omega

section
variable {document : Document R} {root : Tree R} {index : Nat}
  (hnodes : document.nodes = root.layout 0 [] none)

include hnodes

theorem Tree.At.node {value : Tree R} (h : root.At index value) :
    ∃ key next, document.node index = value.node index key next := by
  obtain ⟨before, key, next, behind, hroot, rfl⟩ := h.layout
  obtain ⟨within, hwithin⟩ := value.layout_head before.length key next
  rw [hwithin, List.cons_append, ← hnodes] at hroot
  exact ⟨key, next, Document.node_of_nodes hroot⟩

theorem Tree.At.lays {object : Bool} {members : Members R}
    (h : root.At index (.container object members)) : document.Lays object (index + 1) members := by
  obtain ⟨before, key, next, behind, hroot, hindex⟩ := h.layout
  refine ⟨before ++ [Tree.node index key next (.container object members)], behind, ?_, ?_⟩
  · rw [hnodes, hroot, Tree.layout]
    simp
  · rw [List.length_append, hindex, List.length_singleton]

theorem Tree.At.lt_length {value : Tree R} (h : root.At index value) :
    index < document.nodes.length := by
  obtain ⟨before, key, next, behind, hroot, rfl⟩ := h.layout
  have := value.size_pos
  rw [hnodes, hroot, List.length_append, List.length_append, value.length_layout]
  omega

theorem Tree.At.child {value : Tree R} (h : root.At index value) :
    document.child index = some index :=
  if_pos (h.lt_length hnodes)

theorem showsMembers {object : Bool} {members : Members R}
    (h : root.At index (.container object members)) (hshort : members.Short lengthLimit)
    (hcapacity : document.nodes.length ≤ documentCapacity) :
    document.ShowsMembers (document.node index) object (members.located (index + 1)) := by
  have hlays := h.lays hnodes
  obtain ⟨key, next, hnode⟩ := h.node hnodes
  have hcount : members.count ≤ documentCapacity := by
    obtain ⟨before, behind, hlayout, _⟩ := hlays.nodes
    have hsize := members.count_le_size
    rw [hlayout, List.length_append, List.length_append, members.length_layout] at hcapacity
    omega
  rw [hnode]
  refine ⟨rfl, (members.length_located _).symm, hlays.chain, ?_, fun wanted => ?_,
    fun name hname => ?_⟩
  · rintro rfl member hmember
    obtain ⟨next, hplace⟩ := hlays.node_member member hmember
    rw [hplace, Tree.node_key, Tree.node_keyLength]
    exact ⟨rfl, toNat_ofNat_length (hshort.member hmember).1⟩
  · cases object with
    | true => rfl
    | false => exact hlays.atFrom_eq hcount wanted
  · cases object with
    | true => exact hlays.findFrom_eq hname hshort hcount
    | false => rfl

/-- A table that is a document's layout is what the document says. -/
theorem represents (hroot : document.error = none) (hshort : root.Short lengthLimit)
    (hcapacity : root.size ≤ documentCapacity) : document.Represents root := by
  have hlength : document.nodes.length = root.size := by
    rw [hnodes, root.length_layout]
  refine ⟨?_, hlength, fun index hindex => ?_, fun index value hvalue => ?_,
    chainsFrom 0 root.values, ?_, fun index chain hchain => ?_, ?_⟩
  · have hpos := root.size_pos
    rw [Document.root, hroot, hlength, if_neg (by simp; omega)]
  · have hvalues : index < root.values.length := by
      rw [root.length_values, ← hlength]
      exact hindex
    refine ⟨root.values[index], Tree.at_iff.mpr (List.getElem?_eq_getElem hvalues), fun value h => ?_⟩
    have := Tree.at_iff.mp h
    rw [List.getElem?_eq_getElem hvalues] at this
    exact (Option.some.inj this).symm
  · cases value with
    | scalar value =>
      obtain ⟨key, next, hnode⟩ := hvalue.node hnodes
      have hshort := hshort.value hvalue
      refine ⟨hvalue.child hnodes, ?_, ?_⟩
      · rw [hnode]
        cases value with
        | null => rfl
        | boolean value => exact ⟨rfl, rfl⟩
        | number value => exact ⟨rfl, rfl⟩
        | string characters => exact ⟨rfl, rfl, toNat_ofNat_length hshort⟩
      · rw [hnode]
        cases value <;> exact ⟨rfl, rfl⟩
    | container object members =>
      exact ⟨hvalue.child hnodes, showsMembers hnodes hvalue (hshort.value hvalue)
        (by rwa [hlength])⟩
  · rw [chainsFrom, List.length_mapIdx, root.length_values]
    exact hlength.symm
  · rw [chainsFrom, List.getElem?_mapIdx, Option.map_eq_some_iff] at hchain
    obtain ⟨value, hvalue, rfl⟩ := hchain
    have hat := Tree.at_iff.mpr hvalue
    rw [Nat.zero_add]
    obtain ⟨key, next, hnode⟩ := hat.node hnodes
    cases value with
    | scalar value =>
      rw [hnode]
      refine ⟨?_, fun member hmember => absurd hmember List.not_mem_nil⟩
      cases value <;> exact .nil
    | container object members =>
      rw [hnode]
      refine ⟨(hat.lays hnodes).chain, fun place hplace => ?_⟩
      obtain ⟨member, hmember, rfl⟩ := List.mem_map.mp hplace
      exact members.le_place hmember
  · have hperm := root.chains_perm 0
    rwa [Document.nodeCount, hlength]

end

end

end WaveformGenerator.SignalLab.Json

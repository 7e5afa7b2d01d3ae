import Std.Data.ExtTreeMap.Lemmas
import Bitty.Library.Checks
import Bitty.Library.Framing
import Bitty.Library.Text

/-! The retained tree of the UI and its revisions. -/

namespace Bitty.Ui

open Checks Std

def MAX_UI_TREE_NODES : Nat := 1024

def MAX_UI_TREE_DEPTH : Nat := 16

def MAX_UI_CHILDREN : Nat := 128

def MAX_UI_TEXT_LEN : Nat := 4096

abbrev UiNodeId := UInt64

inductive UiTreeError
  | tooManyNodes (found cap : Nat)
  | tooDeep (found cap : Nat)
  | tooManyChildren (found cap : Nat)
  | textTooLong (len cap : Nat)
  | duplicateId (id : UiNodeId)
  | childrenOnLeaf (id : UiNodeId)
  deriving DecidableEq

inductive UiNodeKind
  | box
  | text (text : Text)
  | image
  | scrollView
  | virtualList
  | textInput (value placeholder : Text)
  | canvas
  | terminal
  | overlay
  deriving DecidableEq

def UiNodeKind.isContainer : UiNodeKind → Bool
  | box | scrollView | overlay => true
  | text _ | image | virtualList | textInput _ _ | canvas | terminal => false

def UiNodeKind.signature : UiNodeKind → Nat × List Text
  | box => (0, [])
  | text s => (1, [s])
  | image => (2, [])
  | scrollView => (3, [])
  | virtualList => (4, [])
  | textInput value placeholder => (5, [value, placeholder])
  | canvas => (6, [])
  | terminal => (7, [])
  | overlay => (8, [])

inductive UiNode
  | new (id : UiNodeId) (kind : UiNodeKind) (children : List UiNode)

namespace UiNode

def id : UiNode → UiNodeId
  | new id _ _ => id

def kind : UiNode → UiNodeKind
  | new _ kind _ => kind

def children : UiNode → List UiNode
  | new _ _ children => children

def childIds (node : UiNode) : List UiNodeId := node.children.map id

mutual

def nodes : UiNode → List UiNode
  | new id kind children => new id kind children :: nodesOf children

def nodesOf : List UiNode → List UiNode
  | [] => []
  | child :: rest => nodesOf rest ++ child.nodes

end

theorem nodes_eq (node : UiNode) : node.nodes = node :: nodesOf node.children := by
  cases node
  rw [nodes]
  rfl

@[simp] theorem length_nodesOf (children : List UiNode) :
    (nodesOf children).length = (children.map fun child => child.nodes.length).sum := by
  induction children with
  | nil => rfl
  | cons child rest ih => rw [nodesOf, List.length_append, List.map_cons, List.sum_cons, ih, Nat.add_comm]

theorem mem_nodesOf {node : UiNode} {children : List UiNode} :
    node ∈ nodesOf children ↔ ∃ child ∈ children, node ∈ child.nodes := by
  induction children with
  | nil => simp [nodesOf]
  | cons child rest ih => simp [nodesOf, ih, or_comm]

theorem mem_nodes {node root : UiNode} : node ∈ root.nodes ↔ node = root ∨ ∃ child ∈ root.children, node ∈ child.nodes := by
  rw [nodes_eq, List.mem_cons, mem_nodesOf]

theorem self_mem_nodes (root : UiNode) : root ∈ root.nodes := mem_nodes.mpr (.inl rfl)

def saturatingSucc (n : Nat) : Nat := min (n + 1) (2 ^ 64 - 1)

def walk : List (UiNode × Nat) → List (UiNode × Nat)
  | [] => []
  | (node, depth) :: stack =>
    (node, depth) :: walk ((node.children.map fun child => (child, saturatingSucc depth)).reverse ++ stack)
termination_by stack => (stack.map fun entry => entry.1.nodes.length).sum
decreasing_by
  rw [List.map_append, List.sum_append, List.map_reverse, List.sum_reverse, List.map_map, List.map_cons, List.sum_cons,
    nodes_eq node, List.length_cons, length_nodesOf]
  have same : ((fun entry : UiNode × Nat => entry.1.nodes.length) ∘ fun child => (child, saturatingSucc depth)) =
      fun child => child.nodes.length := rfl
  rw [same]
  omega

def stacked (nodes : List UiNode) (depth : Nat) : List (UiNode × Nat) := (nodes.map fun node => (node, depth)).reverse

def countNodes (node : UiNode) : Nat := (walk (stacked node.children 2)).foldl (fun count _ => saturatingSucc count) 1

def depth (node : UiNode) : Nat := (walk (stacked node.children 2)).foldl (fun depth entry => max depth entry.2) 1

def stream (node : UiNode) : List UInt8 :=
  Framing.leBytes 8 node.kind.signature.1 ++
    (node.kind.signature.2.flatMap fun payload => payload.flatMap String.utf8EncodeChar ++ [0xff]) ++
      node.childIds.flatMap fun id => Framing.leBytes 8 id.toNat

def mix (hash : UInt64) (byte : UInt8) : UInt64 := (hash ^^^ byte.toUInt64) * 0x100000001b3

def fingerprint (node : UiNode) : UInt64 := node.stream.foldl mix 0xcbf29ce484222325

end UiNode

abbrev NodeMap := ExtTreeMap UiNodeId UiNode compare

def enter : List UiNode → NodeMap → Except UiTreeError Unit × NodeMap
  | [], map => (.ok (), map)
  | node :: rest, map =>
    if node.id ∈ map then (.error (.duplicateId node.id), map.insert node.id node)
    else enter rest (map.insert node.id node)

def checkTextLen (text : Text) : Except UiTreeError Unit :=
  refuseIf (MAX_UI_TEXT_LEN < text.length) (.textTooLong text.length MAX_UI_TEXT_LEN)

namespace UiNode

def visited (node : UiNode) : List UiNode := (walk [(node, 1)]).map Prod.fst

def flatten (node : UiNode) (map : NodeMap) : Except UiTreeError Unit × NodeMap := enter node.visited map

def validateNode (node : UiNode) : Except UiTreeError Unit := do
  refuseIf (MAX_UI_CHILDREN < node.children.length) (.tooManyChildren node.children.length MAX_UI_CHILDREN)
  refuseIf (node.kind.isContainer = false ∧ node.children ≠ []) (.childrenOnLeaf node.id)
  match node.kind with
  | .text text => checkTextLen text
  | .textInput value placeholder =>
    checkTextLen value
    checkTextLen placeholder
  | _ => .ok ()

def validate (node : UiNode) : Except UiTreeError Unit := do
  refuseIf (MAX_UI_TREE_NODES < node.countNodes) (.tooManyNodes node.countNodes MAX_UI_TREE_NODES)
  refuseIf (MAX_UI_TREE_DEPTH < node.depth) (.tooDeep node.depth MAX_UI_TREE_DEPTH)
  each validateNode node.visited

def admission (root : UiNode) : Except UiTreeError Unit := do
  root.validate
  (root.flatten ∅).1

end UiNode

inductive UiChangeKind
  | added
  | removed
  | updated
  deriving DecidableEq

def UiChangeKind.code : UiChangeKind → Nat
  | added => 0
  | removed => 1
  | updated => 2

structure UiChange where
  id : UiNodeId
  kind : UiChangeKind

def UiChange.sortsBefore (a b : UiChange) : Bool := a.id < b.id || (a.id == b.id && a.kind.code ≤ b.kind.code)

def fate (newMap : NodeMap) (id : UiNodeId) (oldNode : UiNode) : Option UiChange :=
  match newMap[id]? with
  | none => some ⟨id, .removed⟩
  | some newNode => if oldNode.fingerprint ≠ newNode.fingerprint then some ⟨id, .updated⟩ else none

def diffTrees (old new : UiNode) : List UiChange :=
  let oldMap := (old.flatten ∅).2
  let newMap := (new.flatten ∅).2
  let changes := oldMap.toList.filterMap fun entry => fate newMap entry.1 entry.2
  let added := (newMap.keys.filter fun id => id ∉ oldMap).map fun id => UiChange.mk id .added
  (changes ++ added).mergeSort UiChange.sortsBefore

structure ApplyReport where
  revision : UInt64
  changed : Bool
  changes : List UiChange

structure UiTree where
  root : UiNode
  revision : UInt64
  admitted : root.admission = .ok ()

namespace UiTree

def new (root : UiNode) : Except UiTreeError UiTree :=
  match admitted : root.admission with
  | .error e => .error e
  | .ok () => .ok ⟨root, 0, admitted⟩

def applyRevision (tree : UiTree) (root : UiNode) : Except UiTreeError ApplyReport × UiTree :=
  match admitted : root.admission with
  | .error e => (.error e, tree)
  | .ok () =>
    let changes := diffTrees tree.root root
    if changes = [] then (.ok ⟨tree.revision, false, changes⟩, tree)
    else (.ok ⟨tree.revision + 1, true, changes⟩, ⟨root, tree.revision + 1, admitted⟩)

end UiTree

/-! What a fingerprint covers. -/

namespace UiNodeKind

theorem signature_injective {a b : UiNodeKind} (same : a.signature = b.signature) : a = b := by
  cases a <;> cases b <;> simp [signature] at same ⊢ <;> exact same

theorem arity_eq {a b : UiNodeKind} (same : a.signature.1 = b.signature.1) :
    a.signature.2.length = b.signature.2.length := by
  cases a <;> cases b <;> simp [signature] at same ⊢

theorem discriminant_lt (kind : UiNodeKind) : kind.signature.1 < 256 ^ 8 := by
  cases kind <;> simp [signature]

end UiNodeKind

theorem payloads_append_inj {as bs : List Text} {x y : List UInt8} (lengths : as.length = bs.length)
    (same : (as.flatMap fun payload => payload.flatMap String.utf8EncodeChar ++ [0xff]) ++ x =
      (bs.flatMap fun payload => payload.flatMap String.utf8EncodeChar ++ [0xff]) ++ y) : as = bs ∧ x = y := by
  have apart (text : Text) : (0xff : UInt8) ∉ text.flatMap String.utf8EncodeChar := fun member =>
    absurd (Text.toNat_lt_of_mem_encode member) (by decide)
  induction as generalizing bs with
  | nil =>
    cases bs with
    | nil => exact ⟨rfl, same⟩
    | cons b rest => exact absurd lengths.symm (Nat.succ_ne_zero _)
  | cons a others ih =>
    cases bs with
    | nil => exact absurd lengths (Nat.succ_ne_zero _)
    | cons b rest =>
      simp only [List.flatMap_cons, List.append_assoc, List.cons_append] at same
      obtain ⟨front, later⟩ := Framing.marked_append_inj (apart a) (apart b) same
      obtain ⟨payloads, tails⟩ := ih (Nat.succ_inj.mp lengths) later
      exact ⟨by rw [Text.encode_injective front, payloads], tails⟩

theorem delimited_id : Framing.Delimited fun id : UiNodeId => Framing.leBytes 8 id.toNat where
  nonempty id empty := absurd (congrArg List.length empty) (by rw [Framing.length_leBytes]; decide)
  stops a b x y same := by
    obtain ⟨ids, rest⟩ := List.append_inj same (by rw [Framing.length_leBytes, Framing.length_leBytes])
    have small (id : UiNodeId) : id.toNat < 256 ^ 8 := id.toNat_lt
    exact ⟨UInt64.toNat_inj.mp ((Framing.leBytes_inj (small a) (small b)).mp ids), rest⟩

namespace UiNode

def content (node : UiNode) : UiNodeKind × List UiNodeId := (node.kind, node.childIds)

variable {a b : UiNode}

theorem stream_injective (same : a.stream = b.stream) : a.content = b.content := by
  rw [stream, stream, List.append_assoc, List.append_assoc] at same
  obtain ⟨discriminants, rest⟩ := List.append_inj same (by rw [Framing.length_leBytes, Framing.length_leBytes])
  have first : a.kind.signature.1 = b.kind.signature.1 :=
    (Framing.leBytes_inj a.kind.discriminant_lt b.kind.discriminant_lt).mp discriminants
  obtain ⟨payloads, ids⟩ := payloads_append_inj (UiNodeKind.arity_eq first) rest
  have kinds : a.kind = b.kind := UiNodeKind.signature_injective (Prod.ext first payloads)
  rw [content, content, kinds, delimited_id.flatMap_injective ids]

theorem stream_of_content (same : a.content = b.content) : a.stream = b.stream := by
  rw [stream, stream, show a.kind = b.kind from congrArg Prod.fst same,
    show a.childIds = b.childIds from congrArg Prod.snd same]

/-! What the stack visits. -/

theorem map_fst_walk (stack : List (UiNode × Nat)) : (walk stack).map Prod.fst = stack.flatMap fun entry => entry.1.nodes := by
  have turned (depth : Nat) (children : List UiNode) :
      ((children.map fun child => (child, saturatingSucc depth)).reverse.flatMap fun entry => entry.1.nodes) =
        nodesOf children := by
    induction children with
    | nil => rfl
    | cons child rest ih =>
      rw [List.map_cons, List.reverse_cons, List.flatMap_append, ih, nodesOf, List.flatMap_singleton]
  induction stack using walk.induct with
  | case1 => rw [walk]; rfl
  | case2 node depth stack ih =>
    rw [walk, List.map_cons, ih, List.flatMap_append, turned, List.flatMap_cons, nodes_eq]
    rfl

theorem visited_eq (node : UiNode) : node.visited = node.nodes := by
  rw [visited, map_fst_walk, List.flatMap_singleton]

/-- The nodes of an admitted tree are found by their ids. -/
theorem enter_spec {nodes : List UiNode} {map : NodeMap} (entered : (enter nodes map).1 = .ok ()) :
    (nodes.map id).Nodup ∧ (∀ node ∈ nodes, node.id ∉ map) ∧ ∀ i node, (enter nodes map).2[i]? = some node ↔
      (node ∈ nodes ∧ node.id = i) ∨ map[i]? = some node := by
  induction nodes generalizing map with
  | nil =>
    refine ⟨List.nodup_nil, List.forall_mem_nil _, fun i node => ?_⟩
    rw [enter, or_iff_right fun here => List.not_mem_nil here.1]
  | cons node rest ih =>
    rw [enter] at entered ⊢
    split_ifs at entered ⊢ with again
    obtain ⟨once, fresh, found⟩ := ih entered
    have others : ∀ other ∈ rest, node.id ≠ other.id ∧ other.id ∉ map := by
      intro other member
      have absent := fresh other member
      rw [ExtTreeMap.mem_insert, not_or, LawfulEqCmp.compare_eq_iff_eq] at absent
      exact absent
    refine ⟨?_, ?_, fun i other => ?_⟩
    · rw [List.map_cons, List.nodup_cons]
      refine ⟨fun member => ?_, once⟩
      obtain ⟨other, inside, same⟩ := List.mem_map.mp member
      exact (others other inside).1 same.symm
    · exact List.forall_mem_cons.mpr ⟨again, fun other member => (others other member).2⟩
    · rw [found, ExtTreeMap.getElem?_insert]
      split_ifs with same
      · rw [LawfulEqCmp.compare_eq_iff_eq] at same
        subst same
        have absent : map[node.id]? ≠ some other := fun here => again (ExtTreeMap.mem_iff_isSome_getElem?.mpr (by rw [here]; rfl))
        constructor
        · rintro (⟨member, ids⟩ | here)
          · exact absurd ids.symm (others other member).1
          · cases here
            exact .inl ⟨List.mem_cons_self, rfl⟩
        · rintro (⟨member, ids⟩ | here)
          · rcases List.mem_cons.mp member with rfl | member
            · exact .inr rfl
            · exact absurd ids.symm (others other member).1
          · exact absurd here absent
      · rw [LawfulEqCmp.compare_eq_iff_eq] at same
        rw [List.mem_cons]
        constructor
        · rintro (⟨member, ids⟩ | here)
          · exact .inl ⟨.inr member, ids⟩
          · exact .inr here
        · rintro (⟨rfl | member, ids⟩ | here)
          · exact absurd ids same
          · exact .inl ⟨member, ids⟩
          · exact .inr here

variable {root : UiNode}

theorem admission_spec (admitted : root.admission = .ok ()) :
    (root.nodes.map id).Nodup ∧ ∀ i node, (root.flatten ∅).2[i]? = some node ↔ node ∈ root.nodes ∧ node.id = i := by
  rw [admission, seq_ok] at admitted
  obtain ⟨once, -, found⟩ := enter_spec admitted.2
  rw [visited_eq] at once
  refine ⟨once, fun i node => ?_⟩
  rw [flatten, found, visited_eq, ExtTreeMap.getElem?_empty, or_iff_left (Option.some_ne_none node).symm]

/-! Trees that agree at each id. -/

theorem length_child_lt {child : UiNode} (member : child ∈ root.children) :
    child.nodes.length < root.nodes.length := by
  obtain ⟨before, after, split⟩ := List.append_of_mem member
  rw [nodes_eq root, List.length_cons, length_nodesOf, split, List.map_append, List.sum_append, List.map_cons,
    List.sum_cons]
  omega

theorem below_induction {P : UiNode → Prop} (step : ∀ node : UiNode, (∀ child ∈ node.children, P child) → P node)
    (node : UiNode) : P node := by
  induction size : node.nodes.length using Nat.strong_induction_on generalizing node with
  | h n ih =>
    subst size
    exact step node fun child member => ih _ (length_child_lt member) child rfl

variable {node : UiNode}

theorem length_nodes_le (inside : node ∈ root.nodes) : node.nodes.length ≤ root.nodes.length := by
  induction root using below_induction with
  | step root ih =>
    rcases mem_nodes.mp inside with rfl | ⟨child, member, below⟩
    · exact Nat.le_refl _
    · exact (ih child member below).trans (length_child_lt member).le

theorem eq_of_length_nodes (inside : node ∈ root.nodes)
    (same : root.nodes.length ≤ node.nodes.length) : node = root := by
  rcases mem_nodes.mp inside with whole | ⟨child, member, below⟩
  · exact whole
  · have first := length_nodes_le below
    have second := length_child_lt member
    omega

theorem mem_nodes_trans {child : UiNode} (member : child ∈ node.children) (inside : node ∈ root.nodes) :
    child ∈ root.nodes := by
  induction root using below_induction with
  | step root ih =>
    rcases mem_nodes.mp inside with rfl | ⟨next, above, below⟩
    · exact mem_nodes.mpr (.inr ⟨child, member, self_mem_nodes child⟩)
    · exact mem_nodes.mpr (.inr ⟨next, above, ih next above below⟩)

variable {old new : UiNode}

def Agree (old new : UiNode) : Prop := ∀ a ∈ old.nodes, ∀ b ∈ new.nodes, a.id = b.id → a.content = b.content

theorem eq_of_agree (agree : Agree old new) (inside : a ∈ old.nodes) (inside' : b ∈ new.nodes)
    (same : a.id = b.id) : a = b := by
  induction a using below_induction generalizing b with
  | step a ih =>
    have contents := agree a inside b inside' same
    have kinds : a.kind = b.kind := congrArg Prod.fst contents
    have ids : a.children.map id = b.children.map id := congrArg Prod.snd contents
    have children : a.children = b.children := by
      have lengths : a.children.length = b.children.length := by
        rw [← List.length_map (f := id), ids, List.length_map]
      refine List.ext_getElem lengths fun i low high => ?_
      have one : a.children[i].id = b.children[i].id := by
        have ith := congrArg (·[i]?) ids
        rwa [List.getElem?_map, List.getElem?_map, List.getElem?_eq_getElem low, List.getElem?_eq_getElem high,
          Option.map_some, Option.map_some, Option.some.injEq] at ith
      exact ih _ (List.getElem_mem low) (mem_nodes_trans (List.getElem_mem low) inside)
        (mem_nodes_trans (List.getElem_mem high) inside') one
    cases a
    cases b
    simp only [UiNode.new.injEq]
    exact ⟨same, kinds, children⟩

theorem eq_of_same_content (agree : Agree old new) (here : ∃ b ∈ new.nodes, b.id = old.id)
    (there : ∃ a ∈ old.nodes, a.id = new.id) : old = new := by
  obtain ⟨b, inside, same⟩ := here
  obtain ⟨a, inside', same'⟩ := there
  have below : old ∈ new.nodes := by rwa [eq_of_agree agree (self_mem_nodes old) inside same.symm]
  have above : new ∈ old.nodes := by rwa [← eq_of_agree agree inside' (self_mem_nodes new) same']
  exact eq_of_length_nodes below (length_nodes_le above)

/-! The report of a revision. -/

def ids (root : UiNode) : List UiNodeId := root.nodes.map id

variable {i : UiNodeId}

theorem mem_ids : i ∈ root.ids ↔ ∃ node ∈ root.nodes, node.id = i := List.mem_map

def Collisionless (old new : UiNode) : Prop :=
  ∀ a ∈ old.nodes, ∀ b ∈ new.nodes, a.fingerprint = b.fingerprint → a.stream = b.stream

instance (old new : UiNode) : Decidable (Collisionless old new) :=
  inferInstanceAs (Decidable (∀ a ∈ old.nodes, ∀ b ∈ new.nodes, a.fingerprint = b.fingerprint → a.stream = b.stream))

theorem fingerprint_ne_iff (apart : Collisionless old new) (inside : a ∈ old.nodes)
    (inside' : b ∈ new.nodes) : a.fingerprint ≠ b.fingerprint ↔ a.content ≠ b.content := by
  refine not_congr ⟨fun same => stream_injective (apart a inside b inside' same), fun same => ?_⟩
  rw [fingerprint, fingerprint, stream_of_content same]

theorem mem_table (admitted : root.admission = .ok ()) : i ∈ (root.flatten ∅).2 ↔ i ∈ root.ids := by
  rw [ExtTreeMap.mem_iff_isSome_getElem?, Option.isSome_iff_exists, mem_ids]
  exact exists_congr fun node => (admission_spec admitted).2 i node

theorem eq_of_id (admitted : root.admission = .ok ()) (inside : a ∈ root.nodes)
    (inside' : b ∈ root.nodes) (same : a.id = b.id) : a = b :=
  List.inj_on_of_nodup_map (admission_spec admitted).1 inside inside' same

def Reported (old new : UiNode) (change : UiChange) : Prop :=
  match change.kind with
  | .added => change.id ∉ old.ids ∧ change.id ∈ new.ids
  | .removed => change.id ∈ old.ids ∧ change.id ∉ new.ids
  | .updated => ∃ a ∈ old.nodes, ∃ b ∈ new.nodes, a.id = change.id ∧ b.id = change.id ∧ a.content ≠ b.content

variable {change : UiChange}

theorem mem_fates (old_admitted : old.admission = .ok ()) (new_admitted : new.admission = .ok ())
    (apart : Collisionless old new) :
    change ∈ ((old.flatten ∅).2.toList.filterMap fun entry => fate (new.flatten ∅).2 entry.1 entry.2) ↔
      change.kind ≠ .added ∧ Reported old new change := by
  have oldTable := (admission_spec old_admitted).2
  have newTable := (admission_spec new_admitted).2
  rw [List.mem_filterMap]
  constructor
  · rintro ⟨⟨i, a⟩, listed, done⟩
    obtain ⟨inside, rfl⟩ := (oldTable i a).mp (ExtTreeMap.mem_toList_iff_getElem?_eq_some.mp listed)
    dsimp only [fate] at done
    cases found : (new.flatten ∅).2[a.id]? with
    | none =>
      rw [found] at done
      cases done
      refine ⟨nofun, mem_ids.mpr ⟨a, inside, rfl⟩, fun member => ?_⟩
      rw [← mem_table new_admitted, ExtTreeMap.mem_iff_isSome_getElem?, found] at member
      cases member
    | some b =>
      rw [found] at done
      dsimp only at done
      split_ifs at done with other
      cases done
      obtain ⟨inside', same⟩ := (newTable a.id b).mp found
      exact ⟨nofun, a, inside, b, inside', rfl, same, (fingerprint_ne_iff apart inside inside').mp other⟩
  · rintro ⟨kind, reported⟩
    obtain ⟨i, kind'⟩ := change
    cases kind' with
    | added => exact absurd rfl kind
    | removed =>
      obtain ⟨here, gone⟩ := reported
      obtain ⟨a, inside, rfl⟩ := mem_ids.mp here
      refine ⟨(a.id, a), ExtTreeMap.mem_toList_iff_getElem?_eq_some.mpr ((oldTable _ a).mpr ⟨inside, rfl⟩), ?_⟩
      have absent : (new.flatten ∅).2[a.id]? = none := by
        refine ExtTreeMap.getElem?_eq_none fun member => gone ?_
        exact (mem_table new_admitted).mp member
      dsimp only [fate]
      rw [absent]
    | updated =>
      obtain ⟨a, inside, b, inside', same, same', other⟩ := reported
      refine ⟨(i, a), ExtTreeMap.mem_toList_iff_getElem?_eq_some.mpr ((oldTable i a).mpr ⟨inside, same⟩), ?_⟩
      dsimp only [fate]
      rw [(newTable i b).mpr ⟨inside', same'⟩]
      exact if_pos ((fingerprint_ne_iff apart inside inside').mpr other)

theorem mem_additions (old_admitted : old.admission = .ok ()) (new_admitted : new.admission = .ok ())
    :
    change ∈ (((new.flatten ∅).2.keys.filter fun i => i ∉ (old.flatten ∅).2).map fun i => UiChange.mk i .added) ↔
      change.kind = .added ∧ Reported old new change := by
  obtain ⟨i, kind⟩ := change
  simp only [List.mem_map, List.mem_filter, ExtTreeMap.mem_keys, decide_eq_true_eq, mem_table old_admitted,
    mem_table new_admitted, UiChange.mk.injEq]
  constructor
  · rintro ⟨j, ⟨here, fresh⟩, rfl, rfl⟩
    exact ⟨rfl, fresh, here⟩
  · rintro ⟨rfl, fresh, here⟩
    exact ⟨i, ⟨here, fresh⟩, rfl, rfl⟩

theorem mem_diffTrees (old_admitted : old.admission = .ok ()) (new_admitted : new.admission = .ok ())
    (apart : Collisionless old new) : change ∈ diffTrees old new ↔ Reported old new change := by
  rw [diffTrees, List.mem_mergeSort, List.mem_append, mem_fates old_admitted new_admitted apart,
    mem_additions old_admitted new_admitted]
  constructor
  · rintro (⟨-, reported⟩ | ⟨-, reported⟩)
    · exact reported
    · exact reported
  · intro reported
    by_cases kind : change.kind = .added
    · exact .inr ⟨kind, reported⟩
    · exact .inl ⟨kind, reported⟩

theorem fate_id {map : NodeMap} (done : fate map i node = some change) : change.id = i := by
  unfold fate at done
  split at done
  · cases done
    rfl
  · split_ifs at done
    cases done
    rfl

theorem diffTrees_once (old new : UiNode) : ((diffTrees old new).map UiChange.id).Nodup := by
  have perm := (List.mergeSort_perm ((((old.flatten ∅).2.toList.filterMap fun entry =>
    fate (new.flatten ∅).2 entry.1 entry.2)) ++ (((new.flatten ∅).2.keys.filter fun i => i ∉ (old.flatten ∅).2).map
      fun i => UiChange.mk i .added)) UiChange.sortsBefore).map UiChange.id
  refine perm.nodup_iff.mpr ?_
  rw [List.map_append, List.nodup_append']
  refine ⟨?_, ?_, ?_⟩
  · rw [List.Nodup, List.pairwise_map, List.pairwise_filterMap]
    refine ExtTreeMap.distinct_keys_toList.imp fun apart a first b second same => apart ?_
    rw [LawfulEqCmp.compare_eq_iff_eq, ← fate_id first, ← fate_id second, same]
  · rw [List.map_map]
    exact (ExtTreeMap.nodup_keys.filter _).map fun i j same => same
  · intro i here there
    obtain ⟨change, listed, rfl⟩ := List.mem_map.mp here
    obtain ⟨⟨j, a⟩, entry, done⟩ := List.mem_filterMap.mp listed
    rw [List.map_map, List.mem_map] at there
    obtain ⟨k, fresh, same⟩ := there
    have absent := of_decide_eq_true (List.mem_filter.mp fresh).2
    have value : k = j := same.trans (fate_id done)
    rw [value] at absent
    exact absent (ExtTreeMap.mem_iff_isSome_getElem?.mpr (by rw [ExtTreeMap.mem_toList_iff_getElem?_eq_some.mp entry]; rfl))

def contentAt (root : UiNode) (i : UiNodeId) : Option (UiNodeKind × List UiNodeId) :=
  (root.nodes.find? fun node => node.id = i).map content

def patch (new : UiNode) (table : UiNodeId → Option (UiNodeKind × List UiNodeId)) (change : UiChange) :
    UiNodeId → Option (UiNodeKind × List UiNodeId) :=
  Function.update table change.id (match change.kind with
    | .removed => none
    | _ => new.contentAt change.id)

def patched (old new : UiNode) (changes : List UiChange) : UiNodeId → Option (UiNodeKind × List UiNodeId) :=
  changes.foldl new.patch old.contentAt

theorem contentAt_eq_some (once : root.ids.Nodup) {c : UiNodeKind × List UiNodeId} :
    root.contentAt i = some c ↔ ∃ node ∈ root.nodes, node.id = i ∧ node.content = c := by
  rw [contentAt, Option.map_eq_some_iff]
  constructor
  · rintro ⟨node, found, same⟩
    exact ⟨node, List.mem_of_find?_eq_some found, by simpa using List.find?_some found, same⟩
  · rintro ⟨node, inside, rfl, same⟩
    cases found : root.nodes.find? fun other => other.id = node.id with
    | none => exact absurd rfl (of_decide_eq_false (Bool.eq_false_of_not_eq_true (List.find?_eq_none.mp found node inside)))
    | some other =>
      have ids : other.id = node.id := by simpa using List.find?_some found
      have whole := List.inj_on_of_nodup_map once (List.mem_of_find?_eq_some found) inside ids
      exact ⟨node, congrArg some whole, same⟩

theorem contentAt_eq_none : root.contentAt i = none ↔ i ∉ root.ids := by
  rw [contentAt, Option.map_eq_none_iff, List.find?_eq_none, mem_ids]
  simp

theorem foldl_patch {changes : List UiChange} (honest : ∀ change ∈ changes, change.kind = .removed → change.id ∉ new.ids)
    (table : UiNodeId → Option (UiNodeKind × List UiNodeId)) (i : UiNodeId) :
    changes.foldl new.patch table i = if i ∈ changes.map UiChange.id then new.contentAt i else table i := by
  induction changes generalizing table with
  | nil => rfl
  | cons change rest ih =>
    have placed : new.patch table change = Function.update table change.id (new.contentAt change.id) := by
      rw [patch]
      split
      · rename_i removed
        rw [contentAt_eq_none.mpr (honest change List.mem_cons_self removed)]
      · rfl
    rw [List.foldl_cons, ih fun other member => honest other (List.mem_cons_of_mem _ member), placed, List.map_cons]
    by_cases listed : i ∈ rest.map UiChange.id
    · rw [if_pos listed, if_pos (List.mem_cons_of_mem _ listed)]
    · rw [if_neg listed]
      by_cases here : i = change.id
      · rw [here, Function.update_self, if_pos List.mem_cons_self]
      · rw [Function.update_of_ne here, if_neg (List.not_mem_cons_of_ne_of_not_mem here listed)]

/-- What a report says: each id once, the ids that it should, and enough to rebuild the new tree from the old one. -/
structure Exact (old new : UiNode) (changes : List UiChange) : Prop where
  once : (changes.map UiChange.id).Nodup
  reported : ∀ change, change ∈ changes ↔ Reported old new change
  rebuilt : ∀ root : UiNode, root.ids.Nodup → ((∀ i, root.contentAt i = patched old new changes i) ↔ root = new)

theorem mem_ids_iff_of_not_reported (silent : ∀ change, ¬Reported old new change) (i : UiNodeId) :
    i ∈ old.ids ↔ i ∈ new.ids := by
  constructor
  · intro here
    by_contra gone
    exact silent ⟨i, .removed⟩ ⟨here, gone⟩
  · intro here
    by_contra fresh
    exact silent ⟨i, .added⟩ ⟨fresh, here⟩

theorem not_reported_iff (old_admitted : old.admission = .ok ()) :
    (∀ change, ¬Reported old new change) ↔ new = old := by
  constructor
  · intro silent
    have same := mem_ids_iff_of_not_reported silent
    refine (eq_of_same_content (fun a inside b inside' ids => ?_) ?_ ?_).symm
    · by_contra other
      exact silent ⟨a.id, .updated⟩ ⟨a, inside, b, inside', rfl, ids.symm, other⟩
    · exact mem_ids.mp ((same old.id).mp (mem_ids.mpr ⟨old, self_mem_nodes old, rfl⟩))
    · exact mem_ids.mp ((same new.id).mpr (mem_ids.mpr ⟨new, self_mem_nodes new, rfl⟩))
  · rintro rfl ⟨i, kind⟩ reported
    cases kind with
    | added => exact reported.1 reported.2
    | removed => exact reported.2 reported.1
    | updated =>
      obtain ⟨a, inside, b, inside', same, same', other⟩ := reported
      exact other (congrArg content (eq_of_id old_admitted inside inside' (same.trans same'.symm)))

theorem patched_eq (old_admitted : old.admission = .ok ()) (new_admitted : new.admission = .ok ())
    {changes : List UiChange} (reported : ∀ change, change ∈ changes ↔ Reported old new change) (i : UiNodeId) :
    patched old new changes i = new.contentAt i := by
  have honest : ∀ change ∈ changes, change.kind = .removed → change.id ∉ new.ids := by
    rintro ⟨j, kind⟩ member rfl
    exact ((reported _).mp member).2
  rw [patched, foldl_patch honest]
  split_ifs with listed
  · rfl
  · have quiet (kind : UiChangeKind) : ¬Reported old new ⟨i, kind⟩ := fun due =>
      listed (List.mem_map.mpr ⟨_, (reported _).mpr due, rfl⟩)
    cases here : new.contentAt i with
    | none =>
      have gone := contentAt_eq_none.mp here
      exact contentAt_eq_none.mpr fun before => quiet .removed ⟨before, gone⟩
    | some c =>
      obtain ⟨b, inside, rfl, rfl⟩ := (contentAt_eq_some (admission_spec new_admitted).1).mp here
      have before : b.id ∈ old.ids := by
        by_contra fresh
        exact quiet .added ⟨fresh, mem_ids.mpr ⟨b, inside, rfl⟩⟩
      obtain ⟨a, inside', same⟩ := mem_ids.mp before
      refine (contentAt_eq_some (admission_spec old_admitted).1).mpr ⟨a, inside', same, ?_⟩
      by_contra other
      exact quiet .updated ⟨a, inside', b, inside, same, rfl, other⟩

theorem eq_of_contentAt (once : root.ids.Nodup) (once' : new.ids.Nodup)
    (same : ∀ i, root.contentAt i = new.contentAt i) : root = new := by
  have there {a b : UiNode} (first : a.ids.Nodup) (second : b.ids.Nodup) (same : ∀ i, a.contentAt i = b.contentAt i)
      {node : UiNode} (inside : node ∈ a.nodes) : ∃ other ∈ b.nodes, other.id = node.id ∧ other.content = node.content := by
    refine (contentAt_eq_some second).mp ?_
    rw [← same]
    exact (contentAt_eq_some first).mpr ⟨node, inside, rfl, rfl⟩
  refine eq_of_same_content (fun a inside b inside' ids => ?_) ?_ ?_
  · obtain ⟨other, member, ids', contents⟩ := there once once' same inside
    rw [← contents, List.inj_on_of_nodup_map once' member inside' (ids'.trans ids)]
  · obtain ⟨other, member, ids, -⟩ := there once once' same (self_mem_nodes root)
    exact ⟨other, member, ids⟩
  · obtain ⟨other, member, ids, -⟩ := there once' once (fun i => (same i).symm) (self_mem_nodes new)
    exact ⟨other, member, ids⟩

theorem exact_diffTrees (old_admitted : old.admission = .ok ()) (new_admitted : new.admission = .ok ())
    (apart : Collisionless old new) : Exact old new (diffTrees old new) where
  once := diffTrees_once old new
  reported _ := mem_diffTrees old_admitted new_admitted apart
  rebuilt root once := by
    simp only [patched_eq old_admitted new_admitted fun _ => mem_diffTrees old_admitted new_admitted apart]
    constructor
    · exact eq_of_contentAt once (admission_spec new_admitted).1
    · rintro rfl i
      rfl

theorem diffTrees_eq_nil_iff (old_admitted : old.admission = .ok ()) (new_admitted : new.admission = .ok ())
    (apart : Collisionless old new) : diffTrees old new = [] ↔ new = old := by
  rw [List.eq_nil_iff_forall_not_mem, ← not_reported_iff old_admitted]
  exact forall_congr' fun change => not_congr (mem_diffTrees old_admitted new_admitted apart)

end UiNode

namespace UiTree

open UiNode

/-- A refused tree changes nothing; an admitted one is retained, with an exact report, and is unchanged only if it is the
tree that was retained before. -/
theorem applyRevision_exact (tree : UiTree) (root : UiNode) (apart : Collisionless tree.root root) :
    (∀ e, root.admission = .error e → tree.applyRevision root = (.error e, tree)) ∧
      (root.admission = .ok () → ∃ report after, tree.applyRevision root = (.ok report, after) ∧
        (report.changed = false ↔ root = tree.root) ∧ (report.changed = false → after = tree ∧ report.changes = []) ∧
        (report.changed = true → after.revision = tree.revision + 1) ∧ after.root = root ∧
        report.revision = after.revision ∧ Exact tree.root root report.changes) := by
  constructor
  · intro e refused
    unfold applyRevision
    split
    · rename_i e' refused'
      rw [refused] at refused'
      cases refused'
      rfl
    · rename_i admitted
      rw [refused] at admitted
      cases admitted
  · intro admitted
    have exact := exact_diffTrees tree.admitted admitted apart
    have same := diffTrees_eq_nil_iff tree.admitted admitted apart
    unfold applyRevision
    split
    · rename_i e refused
      rw [admitted] at refused
      cases refused
    · dsimp only
      split_ifs with empty
      · exact ⟨_, _, rfl, iff_of_true rfl (same.mp empty), fun _ => ⟨rfl, empty⟩, nofun, (same.mp empty).symm, rfl, exact⟩
      · exact ⟨_, _, rfl, iff_of_false nofun fun whole => empty (same.mpr whole), nofun, fun _ => rfl, rfl, rfl, exact⟩

def labelTree : UiTree where
  root := .new 1 .box [.new 2 (.text ['a']) []]
  revision := 0
  admitted := by decide +kernel

def relabelled : UiNode := .new 1 .box [.new 2 (.text ['b']) [], .new 3 .image []]

theorem applyRevision_exact_relabelled : Collisionless labelTree.root relabelled ∧ relabelled.admission = .ok () ∧
    ∃ report after, labelTree.applyRevision relabelled = (.ok report, after) ∧
      (report.changed = false ↔ relabelled = labelTree.root) ∧ after.root = relabelled ∧
      Exact labelTree.root relabelled report.changes := by
  have apart : Collisionless labelTree.root relabelled := by decide +kernel
  have admitted : relabelled.admission = .ok () := by decide +kernel
  obtain ⟨report, after, applied, changed, -, -, retained, -, exact⟩ :=
    (applyRevision_exact labelTree relabelled apart).2 admitted
  exact ⟨apart, admitted, report, after, applied, changed, retained, exact⟩

end UiTree

end Bitty.Ui

import PrismTree.Proofs.Count.Capacity
import PrismTree.Proofs.Failure.Load
import PrismTree.Proofs.Load.Constants
import PrismTree.Proofs.Node.Children
import PrismTree.Proofs.Wire.Progress

/-!
# What a load can cost

The buffer bounds all that a load makes of it. Each node of a tree has bytes of its own, and so has
each descriptor of a constant; on the way down to a node that is nested too deeply the head of each
of its ancestors stands in front of it; and a list is never sized for more items than the rest of
the buffer has room for.
-/
namespace PrismTree

/-- A tree has its root and the nodes of the trees below it. -/
theorem Node.count_children (node : Node) :
    node.count = 1 + (node.children.map Node.count).sum := by
  have counts : Node.count = fun child => child.preorder.length := funext Node.count_eq
  rw [node.count_eq, counts, Node.preorder_eq, List.length_cons, List.length_flatMap, Nat.add_comm]

section

variable {rules : Rules} {size : Node → Nat}

theorem Node.sum_le_of_mem_formsAll {nodes : List Node}
    (each : ∀ node ∈ nodes, ∀ bytes ∈ node.forms rules, size node ≤ bytes.length) :
    ∀ bytes ∈ Node.formsAll rules nodes, (nodes.map size).sum ≤ bytes.length := by
  induction nodes with
  | nil => exact fun _ _ => Nat.zero_le _
  | cons node rest ih =>
    have first := each node List.mem_cons_self
    have others := ih fun other member => each other (List.mem_cons_of_mem _ member)
    rw [Node.formsAll, List.map_cons, List.sum_cons]
    exact add_le_length_of_mem_mul first others

/-- The children in a field have bytes of their own. -/
theorem Value.sum_le_of_mem_forms {kind : FieldKind} {value : Value kind}
    (each : ∀ child ∈ value.children, ∀ bytes ∈ child.forms rules, size child ≤ bytes.length) :
    ∀ bytes ∈ value.forms rules, (value.children.map size).sum ≤ bytes.length := by
  cases value with
  | node child =>
    rw [Value.children, List.map_singleton, List.sum_singleton]
    exact each child List.mem_cons_self
  | optNode optional =>
    cases optional with
    | none => exact fun _ _ => Nat.zero_le _
    | some child =>
      have alone : ([child].map size).sum = size child := List.sum_singleton
      show ∀ bytes ∈ child.forms rules, ([child].map size).sum ≤ bytes.length
      rw [alone]
      exact each child List.mem_cons_self
  | nodes children =>
    have any : ∀ bytes ∈ Wire.count rules.varint children.length, 0 ≤ bytes.length :=
      fun _ _ => Nat.zero_le _
    have all := add_le_length_of_mem_mul any (Node.sum_le_of_mem_formsAll each)
    rwa [Nat.zero_add] at all
  | datum content => exact fun _ _ => Nat.zero_le _

theorem Fields.sum_le_of_mem_forms : {layout : List Field} → {fields : Fields layout} →
    (∀ child ∈ fields.children, ∀ bytes ∈ child.forms rules, size child ≤ bytes.length) →
    ∀ bytes ∈ fields.forms rules, (fields.children.map size).sum ≤ bytes.length
  | _, .nil, _ => fun _ _ => Nat.zero_le _
  | _, .cons value rest, each => by
    rw [Fields.children, List.map_append, List.sum_append]
    exact add_le_length_of_mem_mul
      (Value.sum_le_of_mem_forms fun child member => each child (List.mem_append_left _ member))
      (Fields.sum_le_of_mem_forms fun child member => each child (List.mem_append_right _ member))

/-- Every node of a tree takes at least as many bytes as the smallest node. -/
theorem Node.count_le_of_mem_forms (numbers : ∀ n, ∀ bytes ∈ rules.varint n, 1 ≤ bytes.length)
    (node : Node) : ∀ bytes ∈ node.forms rules, Node.minSize * node.count ≤ bytes.length := by
  induction node using Node.children_induction with
  | step node ih =>
    intro bytes form
    obtain ⟨declared?, rest, parts, rfl, -⟩ := Node.mem_forms_iff.1 form
    have below := Node.add_le_length_of_mem_parts numbers (Fields.sum_le_of_mem_forms ih) parts
    have sums : (node.children.map fun child => Node.minSize * child.count).sum =
        Node.minSize * (node.children.map Node.count).sum :=
      List.sum_map_mul_left _ _ _
    have total : Node.minSize * node.count =
        Node.minSize + (node.children.map fun child => Node.minSize * child.count).sum := by
      rw [Node.count_children, sums, Nat.mul_add, Nat.mul_one]
    rw [total, List.length_cons]
    have five : Node.minSize = 4 + 1 := rfl
    have same : node.children = node.fields.children := rfl
    rw [same]
    omega

end

theorem Node.count_unmark (node : Node) : node.unmark.count = node.count := by
  rw [Node.count_eq, Node.count_eq, node.preorder_unmark, List.length_map]

/-- A tree that is read has room for all of its nodes in the bytes that were read. -/
theorem TreeDecoder.add_count_le_of_readNode {depth : Nat} {input : TreeInput}
    {state reached : TreeState} {node : Node}
    (run : readNode depth input state = .ok node reached) :
    state.position + Node.minSize * node.count ≤ reached.position := by
  obtain ⟨bytes, form, -, follows⟩ := exists_form_of_readNode run
  have stop := TreeState.position_of_follows follows
  have long := Node.count_le_of_mem_forms (fun _ _ => Varint.length_pos_of_mem_forms) node bytes
    (mem_provided_mul.1 form).2
  omega

/-- The least number of bytes of a part of a node. -/
def NodePart.minSize : NodePart → Nat
  | .id => 1
  | .location => 2
  | .defLength => 4
  | .flags => 1
  | .field _ => 0

section

variable {input : TreeInput} {kind : Kind} {field : Field} {start offset next : Nat}

theorem NodePart.minSize_le_of_mem_forms {part : NodePart} {bytes : List UInt8}
    (form : bytes ∈ part.forms input.rules) : part.minSize ≤ bytes.length := by
  cases part with
  | id =>
    obtain ⟨n, form⟩ := Language.mem_iSup.1 form
    exact Varint.length_pos_of_mem_forms form
  | location =>
    obtain ⟨span, form⟩ := Language.mem_iSup.1 form
    exact Wire.two_le_length_of_location span bytes form
  | defLength =>
    obtain ⟨declared, rfl⟩ := Language.mem_iSup.1 form
    exact Nat.le_of_eq (Bytes.length_ofNat 4 declared.toNat).symm
  | flags =>
    obtain ⟨flags, form⟩ := Language.mem_iSup.1 form
    exact Varint.length_pos_of_mem_forms form
  | field part => exact Nat.zero_le _

theorem NodePart.sum_le_of_mem_prod (parts : List NodePart) :
    ∀ bytes ∈ (parts.map (NodePart.forms input.rules)).prod,
      (parts.map NodePart.minSize).sum ≤ bytes.length := by
  induction parts with
  | nil => exact fun _ _ => Nat.zero_le _
  | cons part rest ih =>
    rw [List.map_cons, List.prod_cons, List.map_cons, List.sum_cons]
    exact add_le_length_of_mem_mul (fun _ => NodePart.minSize_le_of_mem_forms) ih

/-- All of the head of a node stands in front of each of its fields. -/
theorem Kind.four_le_sum_of_parts {before after : List NodePart}
    (split : kind.parts = before ++ .field field :: after) :
    4 ≤ (before.map NodePart.minSize).sum := by
  let head : List NodePart :=
    [.id, .location] ++ (if kind = .defNode then [.defLength] else []) ++ [.flags]
  have parts : kind.parts = head ++ kind.layout.map .field := by
    simp [head, Kind.parts]
  have fieldless : .field field ∉ head := by
    by_cases definition : kind = .defNode <;> simp [head, definition]
  have four : 4 ≤ (head.map NodePart.minSize).sum := by
    by_cases definition : kind = .defNode <;> simp [head, definition, NodePart.minSize]
  rw [parts] at split
  obtain ⟨fields, rfl, -⟩ | ⟨rest, whole, behind⟩ := List.append_eq_append_iff.1 split
  · rw [List.map_append, List.sum_append]
    omega
  · cases rest with
    | nil =>
      rw [List.append_nil] at whole
      exact whole ▸ four
    | cons part rest =>
      -- the field would be a part of the head
      obtain rfl : .field field = part := (List.cons.inj behind).1
      refine absurd ?_ fieldless
      rw [whole]
      exact List.mem_append_right _ List.mem_cons_self

theorem Kind.ComesTo.add_minSize_le
    (comes : kind.ComesTo input.rules input.serialized (.field field) start offset) :
    start + Node.minSize ≤ offset := by
  obtain ⟨before, after, split, bytes, form, -, rfl⟩ := comes
  have long := add_le_length_of_mem_mul Wire.one_le_length_of_byte
    (NodePart.sum_le_of_mem_prod before) bytes form
  have head := Kind.four_le_sum_of_parts split
  rw [Node.minSize]
  omega

theorem FieldKind.HasChildAt.le {fieldKind : FieldKind}
    (child : fieldKind.HasChildAt input.rules input.serialized offset next)
    (inside : offset ≤ input.serialized.size) :
    offset ≤ next ∧ next ≤ input.serialized.size := by
  cases child with
  | node => exact ⟨Nat.le_refl _, inside⟩
  | optNode present => exact ⟨Nat.le_refl _, inside⟩
  | nodes counted earlier fewer stand =>
    have first := counted.le
    have last := stand.le
    omega

/-- On the way down each level takes as many bytes as the smallest node. -/
theorem Descends.add_mul_le {levels inner : Nat}
    (descends : Descends input.rules input.serialized levels start inner)
    (inside : start ≤ input.serialized.size) :
    start + Node.minSize * levels ≤ inner ∧ inner ≤ input.serialized.size := by
  induction descends with
  | here => exact ⟨Nat.le_refl _, inside⟩
  | child comes child rest ih =>
    have head := comes.add_minSize_le
    have further := child.le comes.offset_le
    have below := ih further.2
    rw [Nat.mul_add, Nat.mul_one]
    omega

end

section

variable {serialized source : ByteArray} {options : LoadOptions} {result : ParseResult}
  {error : LoadError} {limit : Nat}

/-- A stage that finds the nesting too deep is the tree, and the heads of as many nodes as the limit
allows stand in it. -/
theorem Section.FailsAs.nesting {input : TreeInput} {stage : Section} {start : Nat}
    (fails : stage.FailsAs input start error) (inside : start ≤ input.serialized.size)
    (cause : error.cause = .nestingTooDeep limit) :
    limit = input.options.maxDepth ∧ start + Node.minSize * limit ≤ input.serialized.size := by
  have whole : error.cause.IsOfNode := by
    rw [cause]
    trivial
  cases fails with
  | front listed fails => exact absurd whole fails.met.not_isOfNode
  | @node _ levels inner _ shallow descends fails =>
    generalize left : input.options.maxDepth - levels = depth at fails
    cases fails with
    | tooDeep =>
      obtain rfl : input.options.maxDepth = limit := LoadError.Cause.nestingTooDeep.inj cause
      have all : levels = input.options.maxDepth := by omega
      obtain ⟨le, inside'⟩ := descends.add_mul_le inside
      rw [all] at le
      exact ⟨rfl, by omega⟩
    | _ => cases cause
  | datum shallow descends declared fails =>
    exact absurd whole (fails.isPlainFrom declared).cause.not_isOfNode
  | lines read fails => exact whole.elim

/-- The nesting is found too deep only behind the preamble, with room for as many nodes as the limit
allows. -/
theorem nesting_of_load (failed : load serialized source options = .error error)
    (cause : error.cause = .nestingTooDeep limit) :
    limit = options.maxDepth ∧ ∃ preamble stop,
      Decoder.readPreamble.runFrom serialized 0 = .ok preamble stop ∧
      stop + Node.minSize * limit ≤ serialized.size := by
  obtain ⟨stage, start, inner, first, rfl⟩ | ⟨preamble, start, root, reached, -, -, -, rfl⟩ :=
    load_eq_error failed
  · have whole : inner.cause.IsOfNode := by
      have same : inner.cause = .nestingTooDeep limit := cause
      rw [same]
      trivial
    obtain ⟨rfl, -⟩ := first.failsAs.contexts_of_isOfNode whole
    cases first with
    | @front before after _ _ _ _ order earlier fails =>
      have listed : Section.nodeTree ∈ Section.front := by
        rw [order]
        exact List.mem_append_right before List.mem_cons_self
      exact absurd listed (by decide)
    | @tree preamble _ _ _ comes fails =>
      obtain ⟨equal, room⟩ := (comes.failsAs fails).nesting comes.le_size cause
      exact ⟨equal, preamble, start, comes.readPreamble, room⟩
  · cases cause

/-- All nodes of the tree of a load have their bytes between the preamble and the pool. -/
theorem count_of_load {root : Node} (loaded : load serialized source options = .ok result)
    (tree : result.root = some root) :
    ∃ preamble stop, Decoder.readPreamble.runFrom serialized 0 = .ok preamble stop ∧
      stop + Node.minSize * root.count ≤ preamble.pool.offset.toNat := by
  obtain ⟨preamble, stop, run, -, outcome⟩ := load_eq_ok_iff.1 loaded
  obtain ⟨-, rfl⟩ | ⟨-, root', pool', found, rfl⟩ := outcome_eq_ok_iff.1 outcome
  · cases tree
  · obtain rfl : root' = root := Option.some.inj tree
    obtain ⟨original, reached, read, ends, -, finished⟩ := treeOutcome_eq_ok_iff.1 found
    have room := TreeDecoder.add_count_le_of_readNode read
    have same : original.count = root'.count := by
      rw [← original.count_unmark, ← Node.unmark_of_finished finished, root'.count_unmark]
    rw [ends, same] at room
    exact ⟨preamble, stop, run, room⟩

/-- All constants of a load have their descriptors in the buffer. -/
theorem size_constants_of_load (loaded : load serialized source options = .ok result) :
    ConstantPool.descriptorSize * result.constants.size ≤ serialized.size := by
  obtain ⟨preamble, position, run, -, state, state', stop, fresh, follows, same⟩ :=
    follows_of_load loaded
  obtain ⟨preamble', position', run', room, -⟩ := load_eq_ok_iff.1 loaded
  rw [run, EStateM.Result.ok.injEq] at run'
  obtain ⟨rfl, rfl⟩ := run'
  have size := (TreeState.kept?_of_follows fresh follows).1
  have table : result.constants.size = preamble.pool.count.toNat := by
    rw [same]
    exact size
  rw [table, Nat.mul_comm]
  omega

end

/-- The buffer bounds a load, whatever the limit on the nesting is: the nodes and constants that are
read, the depth that can be reached, and the capacity of every list. -/
theorem bounds_of_load (serialized source : ByteArray) (options : LoadOptions) :
    (∀ depth state node reached,
      TreeDecoder.readNode depth ⟨serialized, source, options⟩ state = .ok node reached →
        state.position + Node.minSize ≤ reached.position ∧
          reached.position ≤ serialized.size) ∧
    (∀ otherwise nesting state,
      TreeDecoder.readNodeOnward otherwise nesting ⟨serialized, source, options⟩ state =
        TreeDecoder.readNode (options.maxDepth - nesting) ⟨serialized, source, options⟩ state) ∧
    (∀ result root, load serialized source options = .ok result → result.root = some root →
      ∃ preamble stop, Decoder.readPreamble.runFrom serialized 0 = .ok preamble stop ∧
        stop + Node.minSize * root.count ≤ preamble.pool.offset.toNat) ∧
    (∀ result, load serialized source options = .ok result →
      ConstantPool.descriptorSize * result.constants.size ≤ serialized.size) ∧
    (∀ otherwise : CountCheck, (CountCheck.roomOr otherwise).load serialized source options =
      load serialized source options) ∧
    (∀ encoding header pool, ConstantPool.ofHeader encoding serialized.size header = .ok pool →
      ConstantPool.descriptorSize * pool.size ≤ serialized.size - header.offset.toNat) ∧
    (∀ error limit, load serialized source options = .error error →
      error.cause = .nestingTooDeep limit → limit = options.maxDepth ∧ ∃ preamble stop,
        Decoder.readPreamble.runFrom serialized 0 = .ok preamble stop ∧
        stop + Node.minSize * limit ≤ serialized.size) ∧
    (∀ preamble stop error, Decoder.readPreamble.runFrom serialized 0 = .ok preamble stop →
      (serialized.size - stop) / Node.minSize < options.maxDepth →
      load serialized source options = .error error →
      ∀ limit, error.cause ≠ .nestingTooDeep limit) := by
  have pool : ∀ encoding header pool,
      ConstantPool.ofHeader encoding serialized.size header = .ok pool →
      ConstantPool.descriptorSize * pool.size ≤ serialized.size - header.offset.toNat := by
    intro encoding header pool placed
    obtain ⟨rfl, room⟩ := ConstantPool.ofHeader_eq_ok_iff.1 placed
    rw [ConstantPool.size_fresh, Nat.mul_comm]
    omega
  have unmet : ∀ preamble stop error,
      Decoder.readPreamble.runFrom serialized 0 = .ok preamble stop →
      (serialized.size - stop) / Node.minSize < options.maxDepth →
      load serialized source options = .error error →
      ∀ limit, error.cause ≠ .nestingTooDeep limit := by
    intro preamble stop error run high failed limit cause
    obtain ⟨rfl, preamble', stop', run', room⟩ := nesting_of_load failed cause
    rw [run, EStateM.Result.ok.injEq] at run'
    obtain ⟨rfl, rfl⟩ := run'
    rw [Node.minSize] at high room
    omega
  exact ⟨fun _ _ _ _ run => TreeDecoder.add_minSize_le_of_readNode run,
    fun otherwise nesting state => TreeDecoder.readNodeOnward_eq otherwise nesting _ state,
    fun _ _ loaded tree => count_of_load loaded tree,
    fun _ loaded => size_constants_of_load loaded,
    fun otherwise => CountCheck.load_roomOr otherwise serialized source options, pool,
    fun _ _ failed cause => nesting_of_load failed cause, unmet⟩

end PrismTree

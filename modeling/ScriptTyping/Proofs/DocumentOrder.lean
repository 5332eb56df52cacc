import Mathlib.Data.List.Chain
import Mathlib.Data.List.Nodup
import ScriptTyping.Proofs.Nodes

/-!
# Outlines in document order

An outline is written by one recursion over the shape of a tree. What it should hold is said here
without such a recursion: a node is found at the end of a way down from the roots, and these ways
have an order of their own.

* **`Address`**, **`Tree.node?`**: the way down to a node, and the node at its end.
  **`Tree.contains_iff_exists_node?`**: the nodes of a tree are those that some way leads to.
* **`Address.Precedes`**: document order. **`Address.Above`**: one way is the beginning of another.
* **`Lists`**: some addresses name the nodes, each once and in document order, and some rows show
  the nodes at these addresses. `Lists.root` and `Lists.cons` are the two steps, downwards and
  sideways; **`Tree.exists_lists`** follows for every tree.
* **`Outline.Unfolds`**: rows that go down by one level at a time.
-/

namespace ScriptTyping

/-! ## Addresses -/

/-- The way down to a node: the number of a root, and then level by level the number of a child. -/
abbrev Address := List Nat

/-- The node that a way down from the given node leads to. -/
def Node.below? : Node → Address → Option Node
  | node, [] => some node
  | node, i :: rest => node.children[i]?.bind fun child => child.below? rest

/-- The node that a way down leads to when it starts at one of the given nodes. -/
def nodeAt? (nodes : List Node) : Address → Option Node
  | [] => none
  | i :: rest => nodes[i]?.bind fun node => node.below? rest

def Tree.node? (tree : Tree) (address : Address) : Option Node := nodeAt? tree.roots address

/-- Document order. A node precedes the nodes below it; of two nodes that stand below different
children of one node, or below different roots, the one below the earlier precedes. -/
def Address.Precedes (address other : Address) : Prop := List.Lex (· < ·) address other

/-- The way to `other` goes on where the way to `address` ends. -/
def Address.Above (address other : Address) : Prop := address <+: other ∧ address ≠ other

instance (address other : Address) : Decidable (address.Above other) :=
  inferInstanceAs (Decidable (_ ∧ _))

/-- A way down in two parts leads through the node at the end of the first. -/
theorem Node.below?_append (node : Node) (address rest : Address) :
    node.below? (address ++ rest) = (node.below? address).bind fun top => top.below? rest := by
  induction address generalizing node with
  | nil => rfl
  | cons i address ih =>
    show (node.children[i]?.bind fun child => child.below? (address ++ rest)) = _
    simp only [ih]
    exact (Option.bind_assoc _ _ _).symm

theorem Tree.node?_append (tree : Tree) {address : Address} (rest : Address) (h : address ≠ []) :
    tree.node? (address ++ rest) = (tree.node? address).bind fun top => top.below? rest := by
  cases address with
  | nil => exact absurd rfl h
  | cons i address =>
    show (tree.roots[i]?.bind fun root => root.below? (address ++ rest)) = _
    simp only [Node.below?_append]
    exact (Option.bind_assoc _ _ _).symm

/-- Whatever stands below a node that a tree contains is contained in the tree. -/
theorem Tree.Contains.of_below? {tree : Tree} {node other : Node} {address : Address}
    (h : tree.Contains node) (hother : node.below? address = some other) : tree.Contains other := by
  induction address generalizing node with
  | nil =>
    have hself : node = other := Option.some.inj hother
    exact hself ▸ h
  | cons i rest ih =>
    obtain ⟨child, hchild, hrest⟩ := Option.bind_eq_some_iff.mp hother
    exact ih (.child h (List.mem_of_getElem? hchild)) hrest

/-- The nodes of a tree are those that some way down leads to. -/
theorem Tree.contains_iff_exists_node? {tree : Tree} {node : Node} :
    tree.Contains node ↔ ∃ address, tree.node? address = some node := by
  constructor
  · intro h
    induction h with
    | @root node hroot =>
      obtain ⟨i, hi⟩ := List.getElem?_of_mem hroot
      refine ⟨[i], ?_⟩
      show (tree.roots[i]?.bind fun root => root.below? []) = some node
      rw [hi]
      rfl
    | @child parent node _ hchild ih =>
      obtain ⟨address, haddress⟩ := ih
      obtain ⟨i, hi⟩ := List.getElem?_of_mem hchild
      have hne : address ≠ [] := by
        rintro rfl
        cases haddress
      refine ⟨address ++ [i], ?_⟩
      rw [Tree.node?_append tree [i] hne, haddress]
      show (parent.children[i]?.bind fun child => child.below? []) = some node
      rw [hi]
      rfl
  · rintro ⟨address, haddress⟩
    cases address with
    | nil => cases haddress
    | cons i rest =>
      obtain ⟨root, hroot, hrest⟩ := Option.bind_eq_some_iff.mp haddress
      exact (Tree.Contains.root (List.mem_of_getElem? hroot)).of_below? hrest

/-! ## Document order -/

/-- Document order is a strict order. -/
theorem Address.Precedes.asymm {address other : Address} (h : address.Precedes other) :
    ¬ other.Precedes address :=
  List.lex_asymm (fun hlt hgt => Nat.lt_asymm hlt hgt) h

theorem Address.Precedes.ne {address other : Address} (h : address.Precedes other) :
    address ≠ other := by
  rintro rfl
  exact h.asymm h

/-- The way to the same place below the next root. -/
def Address.next : Address → Address
  | [] => []
  | i :: rest => (i + 1) :: rest

theorem Address.Precedes.next {address other : Address} (h : address.Precedes other) :
    address.next.Precedes other.next := by
  cases h with
  | nil => exact .nil
  | rel hlt => exact .rel (Nat.succ_lt_succ hlt)
  | cons hrest => exact .cons hrest

/-- The addresses below the later roots are those of the nodes without the first root, moved by
one. -/
theorem Address.mem_map_next_iff {addresses : List Address} (h : [] ∉ addresses)
    {address : Address} :
    address ∈ addresses.map Address.next
      ↔ ∃ i rest, address = (i + 1) :: rest ∧ i :: rest ∈ addresses := by
  rw [List.mem_map]
  constructor
  · rintro ⟨other, hother, rfl⟩
    cases other with
    | nil => exact absurd hother h
    | cons i rest => exact ⟨i, rest, rfl, hother⟩
  · rintro ⟨i, rest, rfl, hmem⟩
    exact ⟨i :: rest, hmem, rfl⟩

/-! ## Listings

`find` tells which node an address leads to. It is `Node.below?` for the nodes below one node,
`nodeAt?` for those below several. -/

/-- The addresses name the nodes that can be found, each once and in document order, and the rows
show the nodes at these addresses; `base` is the depth that belongs to the empty address. -/
structure Lists (find : Address → Option Node) (base : Nat) (addresses : List Address)
    (rows : List Outline.Row) : Prop where
  ordered : addresses.Pairwise Address.Precedes
  mem_iff : ∀ address, address ∈ addresses ↔ ∃ node, find address = some node
  shown : addresses.map (fun address => (find address).map (Node.row (base + address.length)))
    = rows.map some

namespace Lists

theorem nil (base : Nat) : Lists (nodeAt? []) base [] [] where
  ordered := .nil
  mem_iff address := by
    cases address <;> simp [nodeAt?]
  shown := rfl

/-- No way below some nodes is empty: it begins with the number of one of them. -/
theorem nil_notMem {nodes : List Node} {base : Nat} {addresses : List Address}
    {rows : List Outline.Row} (h : Lists (nodeAt? nodes) base addresses rows) : [] ∉ addresses := by
  intro hmem
  obtain ⟨node, hnode⟩ := (h.mem_iff []).mp hmem
  cases hnode

/-- **Downwards.** A node stands in front of what is listed below it. -/
theorem root {node : Node} {base : Nat} {addresses : List Address} {rows : List Outline.Row}
    (h : Lists (nodeAt? node.children) base addresses rows) :
    Lists node.below? base ([] :: addresses) (node.row base :: rows) where
  ordered := by
    refine List.pairwise_cons.mpr ⟨fun address haddress => ?_, h.ordered⟩
    cases address with
    | nil => exact absurd haddress h.nil_notMem
    | cons i rest => exact .nil
  mem_iff address := by
    cases address with
    | nil => exact ⟨fun _ => ⟨node, rfl⟩, fun _ => List.mem_cons_self⟩
    | cons i rest =>
      rw [List.mem_cons, or_iff_right (List.cons_ne_nil i rest), h.mem_iff (i :: rest)]
      rfl
  shown := by
    rw [List.map_cons, List.map_cons, ← h.shown]
    refine congrArg _ (List.map_congr_left fun address haddress => ?_)
    cases address with
    | nil => exact absurd haddress h.nil_notMem
    | cons i rest => rfl

/-- **Sideways.** What is listed below one node stands in front of what is listed below the nodes
after it. -/
theorem cons {node : Node} {rest : List Node} {base : Nat} {addresses addresses' : List Address}
    {rows rows' : List Outline.Row} (h : Lists node.below? (base + 1) addresses rows)
    (h' : Lists (nodeAt? rest) base addresses' rows') :
    Lists (nodeAt? (node :: rest)) base
      (addresses.map (0 :: ·) ++ addresses'.map Address.next) (rows ++ rows') where
  ordered := by
    refine List.pairwise_append.mpr ⟨?_, ?_, ?_⟩
    · exact List.Pairwise.map _ (fun _ _ hrest => .cons hrest) h.ordered
    · exact List.Pairwise.map _ (fun _ _ hnext => hnext.next) h'.ordered
    · intro address haddress other hother
      obtain ⟨first, -, rfl⟩ := List.mem_map.mp haddress
      obtain ⟨i, second, rfl, -⟩ := (Address.mem_map_next_iff h'.nil_notMem).mp hother
      exact .rel (Nat.succ_pos i)
  mem_iff address := by
    rw [List.mem_append, List.mem_map, Address.mem_map_next_iff h'.nil_notMem]
    -- the first number of an address tells whether it leads below `node` or below a later one
    match address with
    | [] => simp [nodeAt?]
    | 0 :: first => simpa [nodeAt?] using h.mem_iff first
    | (i + 1) :: second => simpa [nodeAt?] using h'.mem_iff (i :: second)
  shown := by
    rw [List.map_append, List.map_append, List.map_map, List.map_map, ← h.shown, ← h'.shown]
    congr 1
    · refine List.map_congr_left fun address _ => ?_
      have hdepth : base + (address.length + 1) = base + 1 + address.length := by omega
      show (node.below? address).map (Node.row (base + (address.length + 1))) = _
      rw [hdepth]
    · refine List.map_congr_left fun address _ => ?_
      cases address <;> rfl

end Lists

/-- What is listed below several nodes, once it is known for each of them. -/
theorem exists_lists_nodes {base : Nat} (nodes : List Node)
    (h : ∀ node ∈ nodes, ∃ addresses,
      Lists node.below? (base + 1) addresses (node.rows (base + 1))) :
    ∃ addresses, Lists (nodeAt? nodes) base addresses (nodes.flatMap (Node.rows (base + 1))) := by
  induction nodes with
  | nil => exact ⟨[], Lists.nil base⟩
  | cons node rest ih =>
    obtain ⟨hnode, hrest⟩ := List.forall_mem_cons.mp h
    obtain ⟨addresses, haddresses⟩ := hnode
    obtain ⟨addresses', haddresses'⟩ := ih hrest
    rw [List.flatMap_cons]
    exact ⟨_, haddresses.cons haddresses'⟩

/-- The rows of a node list what can be found below it, in document order. -/
theorem Node.exists_lists (node : Node) :
    ∀ depth, ∃ addresses, Lists node.below? depth addresses (node.rows depth) := by
  induction node using Node.childInduction with
  | step node ih =>
    intro depth
    obtain ⟨addresses, haddresses⟩ :=
      exists_lists_nodes node.children fun child hchild => ih child hchild (depth + 1)
    rw [Node.rows_eq]
    exact ⟨_, haddresses.root⟩

/-- The outline of a tree lists what can be found in it, in document order. -/
theorem Tree.exists_lists (tree : Tree) :
    ∃ addresses, Lists tree.node? 0 addresses tree.outline.rows := by
  rw [Tree.rows_outline_eq_flatMap_roots]
  exact exists_lists_nodes tree.roots fun root _ => root.exists_lists 1

/-- The row of a node stands among the rows that are shown at some addresses, if its own is one of
them. -/
theorem row_mem_of_shown {find : Address → Option Node} {base : Nat} {addresses : List Address}
    {rows : List Outline.Row}
    (h : addresses.map (fun address => (find address).map (Node.row (base + address.length)))
      = rows.map some)
    {address : Address} {node : Node} (haddress : address ∈ addresses)
    (hnode : find address = some node) : node.row (base + address.length) ∈ rows := by
  have hmem : some (node.row (base + address.length)) ∈ rows.map some := by
    rw [← h]
    refine List.mem_map.mpr ⟨address, haddress, ?_⟩
    rw [hnode]
    rfl
  obtain ⟨row, hrow, hsame⟩ := List.mem_map.mp hmem
  rw [← Option.some.inj hsame]
  exact hrow

/-- An outline has a row for every node, at the depth that the way down to it has. -/
theorem Tree.row_mem_outline {tree : Tree} {address : Address} {node : Node}
    (h : tree.node? address = some node) : node.row address.length ∈ tree.outline.rows := by
  obtain ⟨addresses, hlists⟩ := tree.exists_lists
  have hrow := row_mem_of_shown hlists.shown ((hlists.mem_iff address).mpr ⟨node, h⟩) h
  rwa [Nat.zero_add] at hrow

/-! ## Depths -/

/-- Every beginning of a way down, but for the empty one, leads to a node as well. -/
theorem Tree.exists_node?_of_beginning {tree : Tree} {address other : Address} {node : Node}
    (h : address <+: other) (hne : address ≠ []) (hother : tree.node? other = some node) :
    ∃ top, tree.node? address = some top := by
  obtain ⟨rest, rfl⟩ := h
  rw [Tree.node?_append tree rest hne] at hother
  obtain ⟨top, htop, -⟩ := Option.bind_eq_some_iff.mp hother
  exact ⟨top, htop⟩

theorem Tree.ne_nil_of_node? {tree : Tree} {address : Address} {node : Node}
    (h : tree.node? address = some node) : address ≠ [] := by
  rintro rfl
  cases h

/-- The beginnings of an address, less the empty one and the address itself. -/
def Address.beginnings (address : Address) : List Address :=
  (List.range (address.length - 1)).map fun k => address.take (k + 1)

/-- The proper beginnings of an address are the addresses above it. -/
theorem Address.mem_beginnings_iff {address top : Address} :
    top ∈ address.beginnings ↔ top ≠ [] ∧ top.Above address := by
  unfold Address.beginnings
  rw [List.mem_map]
  constructor
  · rintro ⟨k, hk, rfl⟩
    rw [List.mem_range] at hk
    have hlength : (address.take (k + 1)).length = k + 1 := by
      rw [List.length_take]
      omega
    refine ⟨List.ne_nil_of_length_pos (by omega), List.take_prefix _ _, fun hsame => ?_⟩
    rw [hsame] at hlength
    omega
  · rintro ⟨hne, hbegins, hproper⟩
    have hpos : 0 < top.length := List.length_pos_iff.mpr hne
    have hlt : top.length < address.length :=
      Nat.lt_of_le_of_ne hbegins.length_le fun hlength => hproper (hbegins.eq_of_length hlength)
    refine ⟨top.length - 1, List.mem_range.mpr (by omega), ?_⟩
    rw [Nat.sub_add_cancel hpos]
    exact (List.prefix_iff_eq_take.mp hbegins).symm

theorem Address.nodup_beginnings (address : Address) : address.beginnings.Nodup := by
  refine List.Nodup.map_on (fun k hk l hl hsame => ?_) List.nodup_range
  have hlength := congrArg List.length hsame
  rw [List.length_take, List.length_take] at hlength
  rw [List.mem_range] at hk hl
  omega

/-- An address has one number for the node itself, and one for each node above it. -/
theorem Tree.length_eq_of_lists {tree : Tree} {base : Nat} {addresses : List Address}
    {rows : List Outline.Row} (h : Lists tree.node? base addresses rows) {address : Address}
    (haddress : address ∈ addresses) :
    address.length = 1 + (addresses.filter (·.Above address)).length := by
  obtain ⟨node, hnode⟩ := (h.mem_iff address).mp haddress
  have hpos : 0 < address.length := List.length_pos_iff.mpr (Tree.ne_nil_of_node? hnode)
  have hnodup : addresses.Nodup := h.ordered.imp fun hprecedes => hprecedes.ne
  have hperm : (addresses.filter (·.Above address)).Perm address.beginnings := by
    refine (List.perm_ext_iff_of_nodup (hnodup.filter _) address.nodup_beginnings).mpr fun top => ?_
    rw [List.mem_filter, decide_eq_true_iff, Address.mem_beginnings_iff]
    refine and_congr_left fun habove => ?_
    rw [h.mem_iff]
    constructor
    · rintro ⟨other, hother⟩
      exact Tree.ne_nil_of_node? hother
    · intro hne
      exact Tree.exists_node?_of_beginning habove.1 hne hnode
  rw [hperm.length_eq, Address.beginnings, List.length_map, List.length_range]
  omega

/-- Rows that begin at the given depth, stay at or below it, and go down by one level at a time. -/
structure Outline.Unfolds (depth : Nat) (rows : List Outline.Row) : Prop where
  head : ∀ row ∈ rows.head?, row.depth = depth
  bound : ∀ row ∈ rows, depth ≤ row.depth
  chain : rows.IsChain fun row next => next.depth ≤ row.depth + 1

namespace Outline.Unfolds

theorem nil (depth : Nat) : Unfolds depth [] :=
  ⟨nofun, List.forall_mem_nil _, .nil⟩

/-- Both parts begin at the same depth, so the second begins no deeper than the first ends. -/
theorem append {depth : Nat} {rows rows' : List Row} (h : Unfolds depth rows)
    (h' : Unfolds depth rows') : Unfolds depth (rows ++ rows') where
  head := by
    cases rows with
    | nil => exact h'.head
    | cons row rest => exact h.head
  bound := List.forall_mem_append.mpr ⟨h.bound, h'.bound⟩
  chain := by
    refine List.isChain_append.mpr ⟨h.chain, h'.chain, fun last hlast first hfirst => ?_⟩
    have hfirstdepth := h'.head first hfirst
    have hlastdepth := h.bound last (List.mem_of_getLast? hlast)
    omega

/-- A row followed by rows one level deeper goes down by one level at a time. -/
theorem root {depth : Nat} {row : Row} {rows : List Row} (hrow : row.depth = depth)
    (h : Unfolds (depth + 1) rows) : Unfolds depth (row :: rows) where
  head := by
    rintro _ ⟨⟩
    exact hrow
  bound := by
    refine List.forall_mem_cons.mpr ⟨Nat.le_of_eq hrow.symm, fun next hnext => ?_⟩
    have hdeeper := h.bound next hnext
    omega
  chain := by
    refine List.isChain_cons.mpr ⟨fun next hnext => ?_, h.chain⟩
    have hdeeper := h.head next hnext
    omega

/-- Rows for one node after the other keep going down by one level at a time. -/
theorem flatMap {depth : Nat} {nodes : List Node} {rowsOf : Node → List Row}
    (h : ∀ node ∈ nodes, Unfolds depth (rowsOf node)) : Unfolds depth (nodes.flatMap rowsOf) := by
  induction nodes with
  | nil => exact nil depth
  | cons node rest ih =>
    obtain ⟨hnode, hrest⟩ := List.forall_mem_cons.mp h
    rw [List.flatMap_cons]
    exact hnode.append (ih hrest)

end Outline.Unfolds

theorem Node.unfolds_rows (node : Node) : ∀ depth, Outline.Unfolds depth (node.rows depth) := by
  induction node using Node.childInduction with
  | step node ih =>
    intro depth
    rw [Node.rows_eq]
    exact .root rfl (.flatMap fun child hchild => ih child hchild (depth + 1))

/-- An outline goes down by one level at a time. -/
theorem Tree.unfolds_outline (tree : Tree) : Outline.Unfolds 1 tree.outline.rows := by
  rw [Tree.rows_outline_eq_flatMap_roots]
  exact .flatMap fun root _ => root.unfolds_rows 1

/-! ## The first node without a type -/

/-- An outline is resolved if and only if every node of the tree has a type. -/
theorem Tree.ensureResolved_iff {tree : Tree} :
    tree.outline.ensureResolved = .ok ()
      ↔ ∀ node, tree.Contains node → ∃ ty, node.ty? = some ty := by
  rw [Outline.ensureResolved_eq_ok_iff]
  constructor
  · intro hrows node hnode
    obtain ⟨address, haddress⟩ := Tree.contains_iff_exists_node?.mp hnode
    have hty : node.ty? ≠ none := hrows _ (Tree.row_mem_outline haddress)
    exact Option.ne_none_iff_exists'.mp hty
  · intro hnodes row hrow
    obtain ⟨node, hnode, hshown⟩ := Tree.exists_contains_of_mem_rows hrow
    obtain ⟨ty, hty⟩ := hnodes node hnode
    rw [hshown]
    show node.ty? ≠ none
    rw [hty]
    exact nofun

/-- In a list in document order, what precedes an element stands in front of it. -/
theorem mem_of_precedes {before after : List Address} {address earlier : Address}
    (h : (before ++ address :: after).Pairwise Address.Precedes)
    (hmem : earlier ∈ before ++ address :: after) (hearlier : earlier.Precedes address) :
    earlier ∈ before := by
  obtain ⟨-, htail, -⟩ := List.pairwise_append.mp h
  obtain ⟨hafter, -⟩ := List.pairwise_cons.mp htail
  rcases List.mem_append.mp hmem with hmem | hmem
  · exact hmem
  · rcases List.mem_cons.mp hmem with rfl | hmem
    · exact absurd rfl hearlier.ne
    · exact absurd hearlier (hafter earlier hmem).asymm

/-- A fault is about the first node without a type. -/
theorem Tree.first_unresolved {tree : Tree} {fault : Fault}
    (h : tree.outline.ensureResolved = .error fault) :
    ∃ address node, tree.node? address = some node ∧ node.ty? = none
      ∧ (∀ earlier other, Address.Precedes earlier address → tree.node? earlier = some other →
        ∃ ty, other.ty? = some ty)
      ∧ fault = .internal ("'" ++ node.text ++ "' was left without a type") node.span := by
  obtain ⟨addresses, hlists⟩ := tree.exists_lists
  unfold Outline.ensureResolved at h
  split at h
  case h_1 => cases h
  case h_2 row others hunresolved =>
    -- cut the rows at the first one without a type, and the addresses at the same place
    obtain ⟨rowsBefore, rowsAfter, hrows, htyped, huntyped, -⟩ :=
      List.filter_eq_cons_iff.mp hunresolved
    have hshown := hlists.shown
    rw [hrows, List.map_append] at hshown
    obtain ⟨before, tail, rfl, hbefore, htail⟩ := List.map_eq_append_iff.mp hshown
    obtain ⟨address, after, rfl, haddress, -⟩ := List.map_eq_cons_iff.mp htail
    obtain ⟨node, hnode, rfl⟩ := Option.map_eq_some_iff.mp haddress
    refine ⟨address, node, hnode, Option.isNone_iff_eq_none.mp huntyped, ?_, ?_⟩
    · intro earlier other hearlier hother
      have hmem : earlier ∈ before :=
        mem_of_precedes hlists.ordered ((hlists.mem_iff earlier).mpr ⟨other, hother⟩) hearlier
      have hty := htyped _ (row_mem_of_shown hbefore hmem hother)
      exact Option.ne_none_iff_exists'.mp (mt Option.isNone_iff_eq_none.mpr hty)
    · cases h
      rfl

/-! ## Document order -/

/-- **An outline lists the nodes in document order, and a tree is resolved exactly if no node lacks
a type.** The nodes of a tree are those at the end of some way down from its roots. There is a list
of these ways, each once and in document order, such that the rows of the outline show the nodes at
their ends one by one: text, span and type of the node, and a depth that is one more than the number
of listed nodes above it. So all depths are at least one, the first is one, and from row to row the
depth grows by at most one. The outline is resolved exactly if every node of the tree has a type,
and otherwise the fault quotes the text and carries the span of the first node without one. -/
theorem Tree.outline_in_document_order (tree : Tree) :
    (∀ node, tree.Contains node ↔ ∃ address, tree.node? address = some node)
      ∧ (∃ addresses : List Address, addresses.Pairwise Address.Precedes
        ∧ (∀ address, address ∈ addresses ↔ ∃ node, tree.node? address = some node)
        ∧ addresses.map (fun address => (tree.node? address).map
            (Node.row (1 + (addresses.filter (·.Above address)).length)))
          = tree.outline.rows.map some)
      ∧ (∀ row ∈ tree.outline.rows, 1 ≤ row.depth)
      ∧ (∀ row ∈ tree.outline.rows.head?, row.depth = 1)
      ∧ tree.outline.rows.IsChain (fun row next => next.depth ≤ row.depth + 1)
      ∧ (tree.outline.ensureResolved = .ok ()
        ↔ ∀ node, tree.Contains node → ∃ ty, node.ty? = some ty)
      ∧ ∀ fault, tree.outline.ensureResolved = .error fault →
        ∃ address node, tree.node? address = some node ∧ node.ty? = none
          ∧ (∀ earlier other, Address.Precedes earlier address → tree.node? earlier = some other →
            ∃ ty, other.ty? = some ty)
          ∧ fault = .internal ("'" ++ node.text ++ "' was left without a type") node.span := by
  obtain ⟨addresses, h⟩ := tree.exists_lists
  have hunfolds := tree.unfolds_outline
  refine ⟨fun _ => Tree.contains_iff_exists_node?, ⟨addresses, h.ordered, h.mem_iff, ?_⟩,
    hunfolds.bound, hunfolds.head, hunfolds.chain, Tree.ensureResolved_iff,
    fun _ => Tree.first_unresolved⟩
  rw [← h.shown]
  refine List.map_congr_left fun address haddress => ?_
  rw [← Tree.length_eq_of_lists h haddress, Nat.zero_add]

/-- The declaration `var x : Int = 1`, with a type on the declaration and none on its
initialiser. -/
def partlyTypedDecl : Decl where
  info := { ty := some .int }
  name := "x"
  typeToken := "Int"
  init := some (.int { span := ⟨14, 15⟩ } 1)

/-- The declaration, and then `if x { print x; }` with a type on the condition only. -/
def partlyTypedScript : Tree :=
  .script
    { decls := [partlyTypedDecl]
      stmts := [.ifThen {} (.var { ty := some .int } "x") [.print {} (.ofName "x")]] }

/-- The fault is about the initialiser: the declaration above it has a type, and what else has none
comes later. -/
theorem Tree.outline_in_document_order_partlyTyped :
    partlyTypedScript.outline.ensureResolved
        = .error (.internal "'1' was left without a type" ⟨14, 15⟩)
      ∧ partlyTypedScript.node? [0, 0] = some (.expr (.int { span := ⟨14, 15⟩ } 1))
      ∧ ∃ address node, partlyTypedScript.node? address = some node ∧ node.ty? = none
        ∧ (∀ earlier other, Address.Precedes earlier address →
          partlyTypedScript.node? earlier = some other → ∃ ty, other.ty? = some ty)
        ∧ node.span = ⟨14, 15⟩ := by
  have hfault : partlyTypedScript.outline.ensureResolved
      = .error (.internal "'1' was left without a type" ⟨14, 15⟩) := by decide
  obtain ⟨-, -, -, -, -, -, hfirst⟩ := Tree.outline_in_document_order partlyTypedScript
  obtain ⟨address, node, hnode, huntyped, hearlier, heq⟩ := hfirst _ hfault
  refine ⟨hfault, rfl, address, node, hnode, huntyped, hearlier, ?_⟩
  exact (Fault.internal.inj heq).2.symm

end ScriptTyping

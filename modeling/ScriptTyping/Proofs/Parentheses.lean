import ScriptTyping.Proofs.Renaming

/-!
# Parentheses are transparent

Parentheses group, and do nothing else: an expression in parentheses has the type of what they
enclose, and an error passes through them without a report of its own. So a tree can be checked with
its parentheses or without them, and only the texts in the log tell the difference.

* **`Expr.strip`**, **`Stmt.strip`**, **`Decl.strip`**, **`Script.strip`**, **`Tree.strip`**: the
  tree without its parentheses. All other nodes stay, with their spans and annotations.
* **`Node.postorder_strip`**: the nodes of a stripped tree are the nodes of the tree that are no
  parentheses.
* **`Expr.strips_check`**, **`Stmt.strips_check`**, **`Decl.strips_check`**,
  **`Tree.strips_check`**: checking and stripping commute, up to the texts in the log.
* **`Tree.ty?_parens_check`**: the type of parentheses.
-/

namespace ScriptTyping

/-! ## Trees without parentheses -/

def Expr.strip : Expr → Expr
  | .int info value => .int info value
  | .bool info value => .bool info value
  | .str info lexeme => .str info lexeme
  | .var info name => .var info name
  | .unary info op operand => .unary info op operand.strip
  | .binary info op left right => .binary info op left.strip right.strip
  | .parens _ inner => inner.strip

mutual

def Stmt.strip : Stmt → Stmt
  | .assign info name value valid => .assign info name value.strip valid
  | .print info operand => .print info operand.strip
  | .loop info condition body => .loop info condition.strip (Block.strip body)
  | .ifThen info condition thenBlock => .ifThen info condition.strip (Block.strip thenBlock)
  | .ifElse info condition thenBlock elseBlock =>
    .ifElse info condition.strip (Block.strip thenBlock) (Block.strip elseBlock)

def Block.strip : List Stmt → List Stmt
  | [] => []
  | stmt :: rest => stmt.strip :: Block.strip rest

end

def Decl.strip (decl : Decl) : Decl :=
  { decl with init := decl.init.map Expr.strip }

def Script.strip (script : Script) : Script where
  decls := script.decls.map Decl.strip
  stmts := Block.strip script.stmts

def Tree.strip : Tree → Tree
  | .expr e => .expr e.strip
  | .stmt s => .stmt s.strip
  | .decl d => .decl d.strip
  | .block b => .block (Block.strip b)
  | .script s => .script s.strip

def Expr.isParens : Expr → Bool
  | .parens .. => true
  | _ => false

def Node.isParens : Node → Bool
  | .expr e => e.isParens
  | _ => false

def Node.strip : Node → Node
  | .expr e => .expr e.strip
  | .stmt s => .stmt s.strip
  | .decl d => .decl d.strip

/-! ### The nodes of a stripped tree -/

theorem Block.strip_eq_map (block : List Stmt) : Block.strip block = block.map Stmt.strip := by
  induction block with
  | nil => rfl
  | cons stmt rest ih => rw [Block.strip, ih, List.map_cons]

/-- Stripping a node that is no parenthesis strips the nodes below it. -/
theorem Node.children_strip {node : Node} (h : node.isParens = false) :
    node.strip.children = node.children.map Node.strip := by
  cases node with
  | expr e =>
    cases e with
    | parens => cases h
    | int | bool | str | var | unary | binary => rfl
  | stmt s =>
    cases s <;>
      simp [Node.strip, Stmt.strip, Node.children, Block.strip_eq_map, Function.comp_def]
  | decl d => cases hinit : d.init <;> simp [Node.strip, Decl.strip, Node.children, hinit]

/-- Stripping takes the parentheses out of a post-order and keeps the other nodes in their
places. -/
theorem Node.postorder_strip (node : Node) :
    node.strip.postorder = (node.postorder.filter (!·.isParens)).map Node.strip := by
  induction node using Node.childInduction with
  | step node ih =>
    have hchildren : node.children.flatMap (fun child => child.strip.postorder)
        = ((node.children.flatMap Node.postorder).filter (!·.isParens)).map Node.strip := by
      rw [List.filter_flatMap, List.map_flatMap]
      exact List.flatMap_congr ih
    rw [Node.postorder_eq node, List.filter_append, List.map_append, ← hchildren]
    cases hparens : node.isParens with
    | true =>
      -- the node is replaced by its only child
      obtain ⟨info, inner, rfl⟩ : ∃ info inner, node = .expr (.parens info inner) := by
        cases node with
        | expr e =>
          cases e with
          | parens info inner => exact ⟨info, inner, rfl⟩
          | int | bool | str | var | unary | binary => cases hparens
        | stmt | decl => cases hparens
      simp [Node.children, Node.strip, Expr.strip, hparens]
    | false =>
      rw [Node.postorder_eq, Node.children_strip hparens, List.flatMap_map,
        List.filter_singleton, hparens]
      rfl

theorem Tree.roots_strip (tree : Tree) :
    tree.strip.roots = tree.roots.map Node.strip := by
  cases tree <;>
    simp [Tree.strip, Tree.roots, Node.strip, Script.strip, Block.strip_eq_map, Function.comp_def]

/-- The nodes of the stripped tree are the stripped nodes of the tree, less the parentheses. -/
theorem Tree.postorder_strip (tree : Tree) :
    tree.strip.postorder = (tree.postorder.filter (!·.isParens)).map Node.strip := by
  rw [Tree.postorder_eq_flatMap_roots, Tree.postorder_eq_flatMap_roots, Tree.roots_strip,
    List.flatMap_map, List.filter_flatMap, List.map_flatMap]
  exact List.flatMap_congr fun node _ => node.postorder_strip

/-! ## Annotations of a stripped tree

A pair of parentheses is the only node that stripping replaces, so it is the only one whose
annotations get lost. -/

theorem Expr.strip_withTy {expr : Expr} (h : expr.isParens = false) (ty : Ty) :
    (expr.withTy ty).strip = expr.strip.withTy ty := by
  cases expr with
  | parens => cases h
  | int | bool | str | var | unary | binary => rfl

theorem Expr.span_strip {expr : Expr} (h : expr.isParens = false) :
    expr.strip.span = expr.span := by
  cases expr with
  | parens => cases h
  | int | bool | str | var | unary | binary => rfl

theorem Stmt.strip_withTy (stmt : Stmt) (ty : Ty) :
    (stmt.withTy ty).strip = stmt.strip.withTy ty := by
  cases stmt <;> rfl

theorem Stmt.span_strip (stmt : Stmt) : stmt.strip.span = stmt.span := by
  cases stmt <;> rfl

/-- What is read off a node besides its text and the nodes below it. -/
def Node.marking (node : Node) : Option Ty × Option Bool × Span :=
  (node.ty?, node.valid?, node.span)

/-- Stripping changes nothing of what is written on a node that is no parenthesis. -/
theorem Node.marking_strip {node : Node} (h : node.isParens = false) :
    node.strip.marking = node.marking := by
  cases node with
  | expr e =>
    cases e with
    | parens => cases h
    | int | bool | str | var | unary | binary => rfl
  | stmt s => cases s <;> rfl
  | decl d => rfl

/-- The stripped tree has the markings of the tree, less those of its parentheses. -/
theorem Tree.map_marking_strip (tree : Tree) :
    tree.strip.postorder.map Node.marking
      = (tree.postorder.filter (!·.isParens)).map Node.marking := by
  rw [Tree.postorder_strip, List.map_map]
  refine List.map_congr_left fun node hnode => ?_
  have hopen : node.isParens = false := by simpa using (List.mem_filter.mp hnode).2
  exact Node.marking_strip hopen

mutual

theorem Stmt.validFlags_strip : ∀ stmt : Stmt, stmt.strip.validFlags = stmt.validFlags
  | .assign .. | .print .. => rfl
  | .loop _ _ body => Block.validFlags_strip body
  | .ifThen _ _ thenBlock => Block.validFlags_strip thenBlock
  | .ifElse _ _ thenBlock elseBlock =>
    congrArg₂ (· ++ ·) (Block.validFlags_strip thenBlock) (Block.validFlags_strip elseBlock)

theorem Block.validFlags_strip :
    ∀ block : List Stmt, Block.validFlags (Block.strip block) = Block.validFlags block
  | [] => rfl
  | stmt :: rest => congrArg₂ (· ++ ·) stmt.validFlags_strip (Block.validFlags_strip rest)

end

/-- Parentheses have no part in which assignments are valid. -/
theorem Tree.validFlags_strip (tree : Tree) : tree.strip.validFlags = tree.validFlags := by
  cases tree with
  | expr e => rfl
  | stmt s => exact s.validFlags_strip
  | decl d => rfl
  | block b => exact Block.validFlags_strip b
  | script s =>
    show (s.decls.map Decl.strip).map Decl.valid ++ Block.validFlags (Block.strip s.stmts) = _
    rw [List.map_map, Block.validFlags_strip]
    rfl

/-! ## Checks of stripped trees -/

/-! ### Expressions -/

/-- `checked.StripsTo stripped`: the second check differs from the first in the parentheses of the
tree and in the texts of the log. -/
structure Expr.Checked.StripsTo (checked stripped : Expr.Checked) : Prop where
  expr : stripped.expr = checked.expr.strip
  ty : stripped.ty = checked.ty
  sites : stripped.entries.map Entry.site = checked.entries.map Entry.site

/-- A node other than parentheses is closed with the same verdict on both sides. -/
theorem Expr.strips_close (expr : Expr) (h : expr.isParens = false) (verdict : Verdict)
    {earlier earlier' : List Entry} (hearlier : earlier'.map Entry.site = earlier.map Entry.site) :
    (expr.close verdict earlier).StripsTo (expr.strip.close verdict earlier') where
  expr := (Expr.strip_withTy h verdict.ty).symm
  ty := rfl
  sites := by
    rw [Expr.close, Expr.close, Expr.span_strip h]
    exact map_append_eq_map_append hearlier (Verdict.sites_eq_of_kind_eq rfl _ _ _)

/-- Stripping commutes with checking an expression. Parentheses are typed as the expression inside
and log nothing, so that their case is the induction hypothesis. -/
theorem Expr.strips_check (table : SymbolTable) (expr : Expr) :
    (expr.check table).StripsTo (expr.strip.check table) := by
  induction expr with
  | int info value => exact Expr.strips_close (.int info value) rfl _ rfl
  | bool info value => exact Expr.strips_close (.bool info value) rfl _ rfl
  | str info lexeme => exact Expr.strips_close (.str info lexeme) rfl _ rfl
  | var info name => exact Expr.strips_close (.var info name) rfl _ rfl
  | unary info op operand ih =>
    rw [Expr.strip, Expr.check, Expr.check, ih.expr, ih.ty]
    exact Expr.strips_close (.unary info op _) rfl _ ih.sites
  | binary info op left right ihl ihr =>
    rw [Expr.strip, Expr.check, Expr.check, ihl.expr, ihl.ty, ihr.expr, ihr.ty]
    exact Expr.strips_close (.binary info op _ _) rfl _
      (map_append_eq_map_append ihl.sites ihr.sites)
  | parens info inner ih =>
    -- the parentheses add no entry and pass the type on
    obtain ⟨hexpr, hty, hsites⟩ := ih
    refine ⟨hexpr, hty, ?_⟩
    show _ = (((inner.check table).entries ++ []).map Entry.site)
    rw [List.append_nil]
    exact hsites

/-! ### Statements and blocks -/

/-- As for expressions; the table left behind is the same. -/
structure Outcome.StripsTo {α : Type} (strip : α → α) (outcome stripped : Outcome α) : Prop where
  node : stripped.node = strip outcome.node
  table : stripped.table = outcome.table
  sites : stripped.entries.map Entry.site = outcome.entries.map Entry.site

/-- The messages of the two verdicts may quote the parentheses or leave them out. -/
theorem Stmt.strips_close (stmt : Stmt) {verdict verdict' : Verdict}
    (hkind : verdict'.kind = verdict.kind) (table : SymbolTable) {earlier earlier' : List Entry}
    (hearlier : earlier'.map Entry.site = earlier.map Entry.site) :
    (stmt.close verdict table earlier).StripsTo Stmt.strip
      (stmt.strip.close verdict' table earlier') where
  node := by
    rw [Stmt.close, Stmt.close, Verdict.ty_eq_of_kind_eq hkind, Stmt.strip_withTy]
  table := rfl
  sites := by
    rw [Stmt.close, Stmt.close, Stmt.span_strip]
    exact map_append_eq_map_append hearlier (Verdict.sites_eq_of_kind_eq hkind _ _ _)

mutual

/-- Stripping commutes with checking a statement. A condition in parentheses is judged by the same
type, and only the text in its message changes. -/
theorem Stmt.strips_check (table : SymbolTable) : ∀ stmt : Stmt,
    (stmt.check table).StripsTo Stmt.strip (stmt.strip.check table)
  | .assign info name value valid => by
    obtain ⟨hexpr, hty, hsites⟩ := value.strips_check table
    -- the verdict turns on the type of the value, so the same names are poisoned
    rw [Stmt.strip, Stmt.check, Stmt.check, hexpr, hty]
    exact Stmt.strips_close (.assign info name _ _) rfl _ hsites
  | .print info operand => by
    obtain ⟨hexpr, hty, hsites⟩ := operand.strips_check table
    rw [Stmt.strip, Stmt.check, Stmt.check, hexpr, hty]
    exact Stmt.strips_close (.print info _) (Verdict.kind_ofPrint _ _ _) _ hsites
  | .loop info condition body => by
    obtain ⟨hexpr, hty, hsites⟩ := condition.strips_check table
    obtain ⟨hbody, htable, hsites'⟩ := Block.strips_check table body
    rw [Stmt.strip, Stmt.check, Stmt.check, hexpr, hty, hbody, htable]
    exact Stmt.strips_close (.loop info _ _) (Verdict.kind_ofCondition _ _ _) _
      (map_append_eq_map_append hsites hsites')
  | .ifThen info condition thenBlock => by
    obtain ⟨hexpr, hty, hsites⟩ := condition.strips_check table
    obtain ⟨hthen, htable, hsites'⟩ := Block.strips_check table thenBlock
    rw [Stmt.strip, Stmt.check, Stmt.check, hexpr, hty, hthen, htable]
    exact Stmt.strips_close (.ifThen info _ _) (Verdict.kind_ofCondition _ _ _) _
      (map_append_eq_map_append hsites hsites')
  | .ifElse info condition thenBlock elseBlock => by
    obtain ⟨hexpr, hty, hsites⟩ := condition.strips_check table
    obtain ⟨hthen, hmiddle, hsites'⟩ := Block.strips_check table thenBlock
    obtain ⟨helse, htable, hsites''⟩ :=
      Block.strips_check (Block.check table thenBlock).table elseBlock
    rw [Stmt.strip, Stmt.check, Stmt.check, hexpr, hty, hthen, hmiddle, helse, htable]
    exact Stmt.strips_close (.ifElse info _ _ _) (Verdict.kind_ofCondition _ _ _) _
      (map_append_eq_map_append (map_append_eq_map_append hsites hsites') hsites'')

/-- Stripping commutes with checking a block. -/
theorem Block.strips_check (table : SymbolTable) : ∀ block : List Stmt,
    (Block.check table block).StripsTo Block.strip (Block.check table (Block.strip block))
  | [] => ⟨rfl, rfl, rfl⟩
  | stmt :: rest => by
    obtain ⟨hstmt, hmiddle, hsites⟩ := stmt.strips_check table
    obtain ⟨hrest, htable, hsites'⟩ := Block.strips_check (stmt.check table).table rest
    rw [Block.strip, Block.check, Block.check, hstmt, hmiddle, hrest, htable]
    exact ⟨rfl, rfl, map_append_eq_map_append hsites hsites'⟩

end

/-! ### Declarations, scripts and trees -/

theorem Decl.strips_check (table : SymbolTable) (decl : Decl) :
    (decl.check table).StripsTo Decl.strip (decl.strip.check table) := by
  obtain ⟨info, name, typeToken, init, valid⟩ := decl
  cases init with
  | none => exact ⟨rfl, rfl, rfl⟩
  | some init =>
    obtain ⟨hexpr, hty, hsites⟩ := init.strips_check table
    simp only [Decl.strip, Decl.check, Option.map_some, hexpr, hty, Option.getD_some]
    exact ⟨rfl, rfl, map_append_eq_map_append hsites (Verdict.sites_eq_of_kind_eq rfl _ _ _)⟩

theorem Decl.strips_checkAll (table : SymbolTable) (decls : List Decl) :
    (Decl.checkAll table decls).StripsTo (List.map Decl.strip)
      (Decl.checkAll table (decls.map Decl.strip)) := by
  induction decls generalizing table with
  | nil => exact ⟨rfl, rfl, rfl⟩
  | cons decl rest ih =>
    obtain ⟨hdecl, hmiddle, hsites⟩ := decl.strips_check table
    obtain ⟨hrest, htable, hsites'⟩ := ih (decl.check table).table
    rw [List.map_cons, Decl.checkAll, Decl.checkAll, hdecl, hmiddle, hrest, htable]
    exact ⟨rfl, rfl, map_append_eq_map_append hsites hsites'⟩

theorem Script.strips_check (table : SymbolTable) (script : Script) :
    (script.check table).StripsTo Script.strip (script.strip.check table) := by
  obtain ⟨hdecls, hmiddle, hsites⟩ := Decl.strips_checkAll table script.decls
  obtain ⟨hstmts, htable, hsites'⟩ :=
    Block.strips_check (Decl.checkAll table script.decls).table script.stmts
  rw [Script.strip, Script.check, Script.check, hdecls, hmiddle, hstmts, htable]
  exact ⟨rfl, rfl, map_append_eq_map_append hsites hsites'⟩

/-- Stripping commutes with checking a tree. -/
theorem Tree.strips_check (table : SymbolTable) (tree : Tree) :
    (tree.check table).StripsTo Tree.strip (tree.strip.check table) := by
  cases tree with
  | expr e =>
    have h := e.strips_check table
    exact ⟨congrArg Tree.expr h.expr, rfl, h.sites⟩
  | stmt s =>
    have h := s.strips_check table
    exact ⟨congrArg Tree.stmt h.node, h.table, h.sites⟩
  | decl d =>
    have h := d.strips_check table
    exact ⟨congrArg Tree.decl h.node, h.table, h.sites⟩
  | block b =>
    have h := Block.strips_check table b
    exact ⟨congrArg Tree.block h.node, h.table, h.sites⟩
  | script s =>
    have h := s.strips_check table
    exact ⟨congrArg Tree.script h.node, h.table, h.sites⟩

/-! ## The type of parentheses -/

/-- Parentheses in a checked tree have the type of what they enclose. -/
theorem Tree.ty?_parens_check {table : SymbolTable} {tree : Tree} {info : NodeInfo} {inner : Expr}
    (h : (tree.check table).node.Contains (.expr (.parens info inner))) : info.ty = inner.ty? := by
  have hmem := Tree.mem_postorder_iff.mpr h
  rw [← map_node_steps table (tree.check table).node.postorder] at hmem
  obtain ⟨step, hstep, hnode⟩ := List.mem_map.mp hmem
  -- the parentheses were closed with the type that the inner expression had got before
  have hclosed : step.node.ty? = some (step.node.verdict step.table).ty :=
    ((tree.replays_check table).annotated step hstep).ty?
  rw [hnode] at hclosed
  obtain ⟨ty, hinner⟩ : ∃ ty, inner.ty? = some ty :=
    tree.resolved_check table (.expr inner) (.child h (List.mem_singleton.mpr rfl))
  have hrecorded : inner.recordedTy = ty := by rw [Expr.recordedTy, hinner, Option.getD_some]
  calc
    info.ty = some inner.recordedTy := hclosed
    _ = inner.ty? := by rw [hrecorded, hinner]

/-! ## Transparency -/

/-- **Parentheses are transparent.** Check a tree against any table, and check the tree without its
parentheses against the same table. Both checks leave the same table behind. The second one ends
with the first annotated tree, stripped: node by node, what is no pair of parentheses has the same
type, the same flag and the same span. The logs have entries of the same categories at the same
places. In the first tree, parentheses have the type of what they enclose. Runs of a script with and
without its parentheses agree in the same way. -/
theorem parens_transparent :
    (∀ (table : SymbolTable) (tree : Tree),
      (tree.strip.check table).table = (tree.check table).table
        ∧ (tree.strip.check table).node = (tree.check table).node.strip
        ∧ ((tree.strip.check table).node.postorder.map fun node =>
            (node.ty?, node.valid?, node.span))
          = (((tree.check table).node.postorder.filter fun node => !node.isParens).map fun node =>
            (node.ty?, node.valid?, node.span))
        ∧ (tree.strip.check table).node.validFlags = (tree.check table).node.validFlags
        ∧ ((tree.strip.check table).entries.map fun entry => (entry.category, entry.span))
          = ((tree.check table).entries.map fun entry => (entry.category, entry.span))
        ∧ ∀ (info : NodeInfo) (inner : Expr),
          (tree.check table).node.Contains (.expr (.parens info inner)) → info.ty = inner.ty?)
    ∧ ∀ (options : RunOptions) (script : Script),
      (script.strip.run options).script = (script.run options).script.strip
        ∧ ∃ session session' : Session,
          (script.run options).result = .ok session
            ∧ (script.strip.run options).result = .ok session'
            ∧ session'.table = session.table
            ∧ (session'.log.entries.map fun entry => (entry.category, entry.span))
              = (session.log.entries.map fun entry => (entry.category, entry.span)) := by
  refine ⟨fun table tree => ?_, fun options script => ?_⟩
  · obtain ⟨hnode, htable, hsites⟩ := tree.strips_check table
    refine ⟨htable, hnode, ?_, ?_, hsites, fun info inner h => Tree.ty?_parens_check h⟩
    · rw [hnode]
      exact (tree.check table).node.map_marking_strip
    · rw [hnode, Tree.validFlags_strip]
  · obtain ⟨hnode, htable, hsites⟩ := script.strips_check .empty
    rw [Script.run_script, Script.run_script]
    exact ⟨hnode, script.outcome, script.strip.outcome, script.run_result options,
      script.strip.run_result options, htable, hsites⟩

/-- The statement `print ((x))`. -/
def enclosedPrint : Stmt := .print {} (.parens {} (.parens {} (.ofName "x")))

/-- A poisoned variable in two pairs of parentheses: the error reaches the statement through both of
them, and the log has the one entry that it has without them. -/
theorem parens_transparent_poisoned :
    ((Tree.stmt enclosedPrint).check (.ofList [("x", .error)])).node.Contains
        (.expr (.parens { ty := some .error } (.var { ty := some .error } "x")))
      ∧ (((Tree.stmt (.print {} (.ofName "x"))).check (.ofList [("x", .error)])).entries.map
          fun entry => (entry.category, entry.span))
        = (((Tree.stmt enclosedPrint).check (.ofList [("x", .error)])).entries.map
          fun entry => (entry.category, entry.span))
      ∧ (NodeInfo.mk {} (some .error)).ty = (Expr.var { ty := some .error } "x").ty? := by
  have hcontains : ((Tree.stmt enclosedPrint).check (.ofList [("x", .error)])).node.Contains
      (.expr (.parens { ty := some .error } (.var { ty := some .error } "x"))) :=
    Tree.mem_postorder_iff.mp (by decide)
  obtain ⟨-, -, -, -, hsites, hparens⟩ :=
    parens_transparent.1 (.ofList [("x", .error)]) (.stmt enclosedPrint)
  exact ⟨hcontains, hsites, hparens _ _ hcontains⟩

end ScriptTyping

import ScriptTyping.Proofs.Erasure
import ScriptTyping.Run

/-!
# Every node is resolved

A run ends in a fault if its outline shows a node without a type. Checking and outlining are two
walks that know nothing of each other, so the fault is out of reach only if checking annotates every
node that the outline lists, whatever annotations the script came with.

* **`Tree.resolved_check`**: after a check every node that the tree contains has a type.
* **`Tree.unresolved_eq_nil`**: no row of the outline of such a tree lacks a type.
* **`Script.run_eq`**: a run of a script therefore ends with the table and the log of its check.
-/

namespace ScriptTyping

def Node.Resolved (node : Node) : Prop :=
  ∃ ty, node.ty? = some ty

/-! ## Checking annotates every node

Each case below is one kind of node: its parts are resolved by induction, and the check of the node
ends by writing a type on it. -/

/-- Every node of a checked expression is a checked expression itself, and has the type it was found
to have. -/
theorem Expr.resolved_check (table : SymbolTable) (expr : Expr) :
    ∀ node ∈ (expr.check table).expr.postorder, node.Resolved := by
  intro node hnode
  obtain ⟨part, rfl⟩ := expr.exists_check_of_mem_postorder table node hnode
  exact ⟨_, part.ty?_check table⟩

theorem Stmt.resolved_root (table : SymbolTable) (stmt : Stmt) :
    (Node.stmt (stmt.check table).node).Resolved := by
  cases stmt <;> exact ⟨_, rfl⟩

mutual

/-- Statements at every depth, in loops and in both blocks of a conditional. -/
theorem Stmt.resolved_check (table : SymbolTable) (stmt : Stmt) :
    ∀ node ∈ (stmt.check table).node.postorder, node.Resolved := by
  rw [Stmt.postorder_check, List.forall_mem_append, List.forall_mem_singleton]
  refine ⟨?_, stmt.resolved_root table⟩
  cases stmt with
  | assign info name value valid => exact value.resolved_check table
  | print info operand => exact operand.resolved_check table
  | loop info condition body =>
    exact List.forall_mem_append.mpr
      ⟨condition.resolved_check table, Block.resolved_check table body⟩
  | ifThen info condition thenBlock =>
    exact List.forall_mem_append.mpr
      ⟨condition.resolved_check table, Block.resolved_check table thenBlock⟩
  | ifElse info condition thenBlock elseBlock =>
    have hthen := Block.resolved_check table thenBlock
    have helse := Block.resolved_check (Block.check table thenBlock).table elseBlock
    exact List.forall_mem_append.mpr
      ⟨List.forall_mem_append.mpr ⟨condition.resolved_check table, hthen⟩, helse⟩

theorem Block.resolved_check (table : SymbolTable) :
    ∀ block : List Stmt, ∀ node ∈ Block.postorder (Block.check table block).node, node.Resolved
  | [] => List.forall_mem_nil _
  | stmt :: rest => List.forall_mem_append.mpr
      ⟨stmt.resolved_check table, Block.resolved_check (stmt.check table).table rest⟩

end

/-- A declaration and all nodes of its initialiser. -/
theorem Decl.resolved_check (table : SymbolTable) (decl : Decl) :
    ∀ node ∈ (decl.check table).node.postorder, node.Resolved := by
  rw [Decl.postorder_check, List.forall_mem_append, List.forall_mem_singleton]
  refine ⟨?_, ⟨_, rfl⟩⟩
  cases hinit : decl.init with
  | none => simp [Decl.checkedParts, hinit]
  | some init => simpa [Decl.checkedParts, hinit] using init.resolved_check table

theorem Decl.resolved_checkAll (table : SymbolTable) (decls : List Decl) :
    ∀ node ∈ (Decl.checkAll table decls).node.flatMap Decl.postorder, node.Resolved := by
  induction decls generalizing table with
  | nil => exact List.forall_mem_nil _
  | cons decl rest ih =>
    rw [Decl.checkAll, List.flatMap_cons, List.forall_mem_append]
    exact ⟨decl.resolved_check table, ih (decl.check table).table⟩

/-- **After a check every node of the tree has a type.** -/
theorem Tree.resolved_check (table : SymbolTable) (tree : Tree) :
    ∀ node, (tree.check table).node.Contains node → node.Resolved := by
  intro node hnode
  rw [← Tree.mem_postorder_iff] at hnode
  cases tree with
  | expr e => exact e.resolved_check table node hnode
  | stmt s => exact s.resolved_check table node hnode
  | decl d => exact d.resolved_check table node hnode
  | block b => exact Block.resolved_check table b node hnode
  | script s =>
    rcases List.mem_append.mp hnode with hdecl | hstmt
    · exact Decl.resolved_checkAll table s.decls node hdecl
    · exact Block.resolved_check _ s.stmts node hstmt

/-! ## The outline of a resolved tree -/

/-- An outline shows nodes of its tree only, so it has no row without a type if the tree has no node
without one. -/
theorem Tree.unresolved_eq_nil {tree : Tree} (h : ∀ node, tree.Contains node → node.Resolved) :
    tree.outline.unresolved = [] := by
  rw [Outline.unresolved, List.filter_eq_nil_iff]
  intro row hrow
  obtain ⟨node, hnode, hshown⟩ := Tree.exists_contains_of_mem_rows hrow
  obtain ⟨ty, hty⟩ := h node hnode
  rw [hshown]
  simp [Node.row, hty]

theorem Tree.ensureResolved_check (table : SymbolTable) (tree : Tree) :
    (tree.check table).node.outline.ensureResolved = .ok () := by
  unfold Outline.ensureResolved
  rw [Tree.unresolved_eq_nil (tree.resolved_check table)]

/-! ## Runs -/

/-- The table and the log that checking a script on its own ends with. -/
def Script.outcome (script : Script) : Session where
  table := (script.check .empty).table
  log := ⟨(script.check .empty).entries⟩

/-- The fault of a run is out of reach: what is left is the check and the progress text. -/
theorem Script.run_eq (options : RunOptions) (script : Script) :
    ∃ progress, script.run options =
      { script := (script.check .empty).node, progress, result := .ok script.outcome } := by
  have hresolved := Tree.ensureResolved_check .empty (.script script)
  -- the progress text depends on the options, the rest of the run does not
  unfold Script.run
  simp only [Session.absorb]
  rw [show (Tree.script (script.check .empty).node).outline.ensureResolved = .ok () from hresolved]
  exact ⟨_, rfl⟩

/-- The script of a run is the checked one, whatever the options are. -/
theorem Script.run_script (options : RunOptions) (script : Script) :
    (script.run options).script = (script.check .empty).node := by
  obtain ⟨progress, hrun⟩ := script.run_eq options
  rw [hrun]

/-- A run succeeds with the table and the log of its check. -/
theorem Script.run_result (options : RunOptions) (script : Script) :
    (script.run options).result = .ok script.outcome := by
  obtain ⟨progress, hrun⟩ := script.run_eq options
  rw [hrun]

/-- A run gives back the script that it was given, up to annotations. -/
theorem Script.erase_run (options : RunOptions) (script : Script) :
    (script.run options).script.erase = script.erase := by
  rw [script.run_script options, Script.erase_check]

/-- **A run never fails and leaves no node without a type.** This holds of every script, whatever
types, flags and spans it came with, and under all options. The nodes are those of the given script:
nothing but their annotations has changed. -/
theorem Script.run_resolves_all (options : RunOptions) (script : Script) :
    (script.run options).script.erase = script.erase
      ∧ (∃ session, (script.run options).result = .ok session)
      ∧ (∀ node, (Tree.script (script.run options).script).Contains node →
        ∃ ty, node.ty? = some ty)
      ∧ (Tree.script (script.run options).script).outline.unresolved = [] := by
  have hall := Tree.resolved_check .empty (.script script)
  refine ⟨script.erase_run options, ⟨_, script.run_result options⟩, ?_⟩
  rw [script.run_script options]
  exact ⟨hall, Tree.unresolved_eq_nil hall⟩

/-- The script `var b : Bool = 1; if b { while b { } } else { print y; }`, which comes with a type
on the loop and with none anywhere else. -/
def untypedScript : Script where
  decls := [{ name := "b", typeToken := "Bool", init := some (.ofInt 1) }]
  stmts :=
    [.ifElse {} (.ofName "b") [.loop { ty := some .string } (.ofName "b") []]
      [.print {} (.ofName "y")]]

/-- Its eight nodes get a type each, the wrong ones too, and the type that was there is replaced. -/
theorem Script.run_resolves_all_untyped :
    (untypedScript.run {}).script.erase = untypedScript.erase
      ∧ (∃ session, (untypedScript.run {}).result = .ok session)
      ∧ (Tree.script (untypedScript.run {}).script).outline.unresolved = []
      ∧ (Tree.script untypedScript).outline.unresolved.length = 7
      ∧ (Tree.script (untypedScript.run {}).script).outline.rows.map (·.ty)
        = [some .error, some .int, some .error, some .error, some .error, some .error,
          some .error, some .error] := by
  obtain ⟨herase, hok, -, hresolved⟩ := Script.run_resolves_all {} untypedScript
  refine ⟨herase, hok, hresolved, by decide, ?_⟩
  rw [untypedScript.run_script {}]
  decide

end ScriptTyping

import ScriptTyping.Proofs.Erasure
import ScriptTyping.Proofs.Resolution

/-!
# Annotations that a script comes with

A script may come with types and flags on its nodes, left there by an earlier run or by whoever
built it. A check writes every annotation anew and reads none, so these have no influence on it.

* **`Expr.check_erase`**, **`Stmt.check_erase`**, **`Decl.check_erase`**, **`Script.check_erase`**:
  checking a tree is checking its syntax.
* **`Script.run_ignores_annotations`**: scripts of the same syntax have the same run. The script
  that a run ends with is one of them, so a second run changes nothing.
-/

namespace ScriptTyping

/-! ## A check reads syntax only

The annotations of a node are overwritten when it is closed, so once its parts are checked alike
nothing is left to tell a tree from its syntax. -/

/-- Checking an expression is checking its syntax. -/
theorem Expr.check_erase (table : SymbolTable) (expr : Expr) :
    expr.erase.check table = expr.check table := by
  induction expr with
  | int | bool | str | var => rfl
  | unary info op operand ih =>
    rw [Expr.erase, Expr.check, Expr.check, ih]
    rfl
  | binary info op left right ihl ihr =>
    rw [Expr.erase, Expr.check, Expr.check, ihl, ihr]
    rfl
  | parens info inner ih =>
    rw [Expr.erase, Expr.check, Expr.check, ih]
    rfl

mutual

/-- The flag of an assignment is written before it could be read. -/
theorem Stmt.check_erase (table : SymbolTable) :
    ∀ stmt : Stmt, stmt.erase.check table = stmt.check table
  | .assign info name value valid => by
    rw [Stmt.erase, Stmt.check, Stmt.check, Expr.check_erase]
    rfl
  | .print info operand => by
    rw [Stmt.erase, Stmt.check, Stmt.check, Expr.check_erase]
    rfl
  | .loop info condition body => by
    rw [Stmt.erase, Stmt.check, Stmt.check, Expr.check_erase, Block.check_erase table body]
    rfl
  | .ifThen info condition thenBlock => by
    rw [Stmt.erase, Stmt.check, Stmt.check, Expr.check_erase, Block.check_erase table thenBlock]
    rfl
  | .ifElse info condition thenBlock elseBlock => by
    rw [Stmt.erase, Stmt.check, Stmt.check, Expr.check_erase, Block.check_erase table thenBlock,
      Block.check_erase _ elseBlock]
    rfl

theorem Block.check_erase (table : SymbolTable) :
    ∀ block : List Stmt, Block.check table (Block.erase block) = Block.check table block
  | [] => rfl
  | stmt :: rest => by
    rw [Block.erase, Block.check, Block.check, Stmt.check_erase table stmt,
      Block.check_erase _ rest]

end

theorem Decl.check_erase (table : SymbolTable) (decl : Decl) :
    decl.erase.check table = decl.check table := by
  have hinit : decl.erase.init.map (Expr.check table) = decl.init.map (Expr.check table) := by
    rw [Decl.erase, Option.map_map]
    exact congrArg (decl.init.map ·) (funext fun init => Expr.check_erase table init)
  rw [Decl.check, hinit]
  rfl

/-- Declarations come to the same table with or without annotations. -/
theorem Decl.checkAll_erase (table : SymbolTable) (decls : List Decl) :
    Decl.checkAll table (decls.map Decl.erase) = Decl.checkAll table decls := by
  induction decls generalizing table with
  | nil => rfl
  | cons decl rest ih =>
    rw [List.map_cons, Decl.checkAll, Decl.checkAll, Decl.check_erase, ih]

/-- **Checking a script is checking its syntax.** -/
theorem Script.check_erase (table : SymbolTable) (script : Script) :
    script.erase.check table = script.check table := by
  rw [Script.erase, Script.check, Script.check, Decl.checkAll_erase, Block.check_erase]

/-- Scripts that differ in annotations only are checked alike. -/
theorem Script.check_eq_of_erase_eq {script other : Script} (table : SymbolTable)
    (h : other.erase = script.erase) : other.check table = script.check table := by
  rw [← other.check_erase table, h, script.check_erase table]

/-- Whatever is read off the syntax of a node is the same for corresponding nodes of two scripts of
the same syntax. -/
theorem Script.map_postorder_eq_of_erase_eq {α : Type} {script other : Script} (view : Node → α)
    (hview : ∀ node : Node, view node.erase = view node) (h : other.erase = script.erase) :
    other.postorder.map view = script.postorder.map view := by
  have hsame := Tree.map_postorder_erase view hview (.script other)
  rw [Tree.erase, h] at hsame
  exact hsame.symm.trans (Tree.map_postorder_erase view hview (.script script))

/-! ## Runs -/

/-- **A run reads syntax and writes annotations.** The script it ends with is the given one up to
annotations, node by node with the same text and the same span. Every script that differs from the
given one in annotations only has the same checked script, the same table and the same log, whatever
its options; in particular the checked script itself has. -/
theorem Script.run_ignores_annotations (options : RunOptions) (script : Script) :
    (script.run options).script.erase = script.erase
      ∧ ((script.run options).script.postorder.map fun node => (node.text, node.span))
        = (script.postorder.map fun node => (node.text, node.span))
      ∧ ∃ session : Session,
        (∀ (other : Script) (options' : RunOptions), other.erase = script.erase →
          (other.run options').script = (script.run options).script
            ∧ (other.run options').result = .ok session)
        ∧ ∀ options' : RunOptions,
          ((script.run options).script.run options').script = (script.run options).script
            ∧ ((script.run options).script.run options').result = .ok session := by
  have herase : (script.run options).script.erase = script.erase := script.erase_run options
  -- table, log and tree of a run are those of its check
  have hsame : ∀ (other : Script) (options' : RunOptions), other.erase = script.erase →
      (other.run options').script = (script.run options).script
        ∧ (other.run options').result = .ok script.outcome := by
    intro other options' hother
    have hcheck := Script.check_eq_of_erase_eq .empty hother
    rw [other.run_script, other.run_result, script.run_script, Script.outcome, Script.outcome,
      hcheck]
    exact ⟨rfl, rfl⟩
  refine ⟨herase, ?_, script.outcome, hsame, fun options' => hsame _ options' herase⟩
  refine Script.map_postorder_eq_of_erase_eq _ (fun node => ?_) herase
  rw [Node.text_erase, Node.span_erase]

/-- A script that comes with wrong types and flags is checked like one that comes with none. -/
theorem Script.run_ignores_annotations_preset :
    (Script.mk [⟨{ ty := some .error }, "x", "Int", none, true⟩]
        [.assign {} "x" (.bool { ty := some .int } true) true]).erase
        = (Script.mk [⟨{}, "x", "Int", none, false⟩] [.assign {} "x" (.ofBool true) false]).erase
      ∧ ((Script.mk [⟨{ ty := some .error }, "x", "Int", none, true⟩]
          [.assign {} "x" (.bool { ty := some .int } true) true]).run {}).script
        = ((Script.mk [⟨{}, "x", "Int", none, false⟩]
          [.assign {} "x" (.ofBool true) false]).run {}).script := by
  obtain ⟨-, -, session, hsame, -⟩ := Script.run_ignores_annotations {}
    (Script.mk [⟨{}, "x", "Int", none, false⟩] [.assign {} "x" (.ofBool true) false])
  exact ⟨rfl, (hsame _ {} rfl).1⟩

end ScriptTyping

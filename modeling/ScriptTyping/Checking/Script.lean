import ScriptTyping.Checking.Stmt
import ScriptTyping.Tree

/-!
# Checking declarations and scripts

A declaration always defines its name, with `Ty.error` if it breaks a rule. A script is checked
by checking its declarations and then its statements.
-/

namespace ScriptTyping

def Decl.check (table : SymbolTable) (decl : Decl) : Outcome Decl :=
  let init := decl.init.map (Expr.check table)
  let verdict := Verdict.ofDecl decl.name decl.typeToken (init.map Expr.Checked.ty)
  let node := { decl with init := init.map Expr.Checked.expr, valid := verdict.isValid }
  { node := node.withTy verdict.ty
    table := table.define decl.name verdict.ty
    entries := (init.map Expr.Checked.entries).getD [] ++ verdict.entries node.text node.span }

def Decl.checkAll (table : SymbolTable) : List Decl → Outcome (List Decl)
  | [] => { node := [], table, entries := [] }
  | decl :: rest =>
    let decl := decl.check table
    let rest := Decl.checkAll decl.table rest
    { node := decl.node :: rest.node
      table := rest.table
      entries := decl.entries ++ rest.entries }

def Script.check (table : SymbolTable) (script : Script) : Outcome Script :=
  let decls := Decl.checkAll table script.decls
  let stmts := Block.check decls.table script.stmts
  { node := { decls := decls.node, stmts := stmts.node }
    table := stmts.table
    entries := decls.entries ++ stmts.entries }

def Tree.check (table : SymbolTable) : Tree → Outcome Tree
  | .expr e =>
    let checked := e.check table
    { node := .expr checked.expr, table, entries := checked.entries }
  | .stmt s => (s.check table).map .stmt
  | .decl d => (d.check table).map .decl
  | .block b => (Block.check table b).map .block
  | .script s => (s.check table).map .script

/-- The declared names come to stand behind those of the table, each at its first declaration. -/
theorem Decl.names_check (table : SymbolTable) (decl : Decl) :
    (decl.check table).table.names =
      if table.contains decl.name then table.names else table.names ++ [decl.name] :=
  table.names_define decl.name _

end ScriptTyping

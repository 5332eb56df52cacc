import ScriptTyping.Tree.Script

/-!
# Trees

Any piece of a script that can be analysed, listed or compared on its own.
-/

namespace ScriptTyping

inductive Tree where
  | expr (expr : Expr)
  | stmt (stmt : Stmt)
  | decl (decl : Decl)
  | block (block : Block)
  | script (script : Script)
  deriving DecidableEq, Repr

namespace Tree

/-- The type recorded on the root. Blocks and scripts have none of their own. -/
def ty? : Tree → Option Ty
  | .expr e => e.ty?
  | .stmt s => s.ty?
  | .decl d => d.ty?
  | .block _ => none
  | .script _ => none

/-- The flags of the declarations and assignments of a tree, in source order. -/
def validFlags : Tree → List Bool
  | .expr _ => []
  | .stmt s => s.validFlags
  | .decl d => [d.valid]
  | .block b => Block.validFlags b
  | .script s => s.validFlags

end Tree

end ScriptTyping

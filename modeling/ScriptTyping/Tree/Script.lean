import ScriptTyping.Tree.Stmt

/-!
# Declarations and scripts

A script declares its variables first and then runs its statements.
-/

namespace ScriptTyping

/-- A declaration of a variable. The type is a token as written, which need not name a type. The
flag says whether the declaration was found to be in order. -/
structure Decl where
  info : NodeInfo := {}
  name : String
  typeToken : String
  init : Option Expr := none
  valid : Bool := false
  deriving DecidableEq, Repr

/-- A script is what it declares and what it runs. Its outer parts, which are the section of the
declarations, the body and the main part, hold nothing else but a span each. These spans are left
out together with those of the script and its blocks: a check hands them through without reading
them, and no text, outline or report shows them. -/
structure Script where
  decls : List Decl := []
  stmts : Block := []
  deriving DecidableEq, Repr

namespace Decl

def span (decl : Decl) : Span := decl.info.span

def ty? (decl : Decl) : Option Ty := decl.info.ty

def withTy (ty : Ty) (decl : Decl) : Decl :=
  { decl with info := { decl.info with ty := some ty } }

def text (decl : Decl) : String :=
  "var " ++ decl.name ++ " : " ++ decl.typeToken ++
    match decl.init with
    | none => ""
    | some init => " = " ++ init.text

end Decl

/-- The flags of the declarations, then those of the assignments, in source order. -/
def Script.validFlags (script : Script) : List Bool :=
  script.decls.map (·.valid) ++ Block.validFlags script.stmts

end ScriptTyping

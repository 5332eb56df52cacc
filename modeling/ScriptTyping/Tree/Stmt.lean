import ScriptTyping.Tree.Expr

/-!
# Statements and blocks

A block is a list of statements, and some statements hold blocks. Every definition over them is
therefore a pair, one function on `Stmt` and one on `Block`, by recursion on the tree.

The main fact is that equality of statements is decidable: `Stmt.same` compares shape, names,
literals, spans, types and flags, and answers `true` on equal statements only.
-/

namespace ScriptTyping

/-- A statement. The flag of an assignment says whether it was found to fit its variable.
A conditional without an alternative differs from one whose alternative is empty. -/
inductive Stmt where
  | assign (info : NodeInfo) (name : String) (value : Expr) (valid : Bool)
  | print (info : NodeInfo) (operand : Expr)
  | loop (info : NodeInfo) (condition : Expr) (body : List Stmt)
  | ifThen (info : NodeInfo) (condition : Expr) (thenBlock : List Stmt)
  | ifElse (info : NodeInfo) (condition : Expr) (thenBlock elseBlock : List Stmt)
  deriving Repr

/-- A block is its statements and nothing else. Braces have a place in a source too, but a span for
it is left out here: no rule, text, outline or report reads one, and a block is no node of a tree
and has no type. -/
abbrev Block := List Stmt

namespace Stmt

/-! ## Annotations -/

def info : Stmt → NodeInfo
  | assign info _ _ _ => info
  | print info _ => info
  | loop info _ _ => info
  | ifThen info _ _ => info
  | ifElse info _ _ _ => info

/-- The same statement with other annotations; its parts keep theirs. -/
def withInfo (info : NodeInfo) : Stmt → Stmt
  | assign _ name value valid => assign info name value valid
  | print _ operand => print info operand
  | loop _ condition body => loop info condition body
  | ifThen _ condition thenBlock => ifThen info condition thenBlock
  | ifElse _ condition thenBlock elseBlock => ifElse info condition thenBlock elseBlock

def span (stmt : Stmt) : Span := stmt.info.span

def ty? (stmt : Stmt) : Option Ty := stmt.info.ty

def withTy (ty : Ty) (stmt : Stmt) : Stmt :=
  stmt.withInfo { stmt.info with ty := some ty }

end Stmt

/-! ## Text -/

mutual

/-- The statement on one line. -/
def Stmt.text : Stmt → String
  | .assign _ name value _ => name ++ " = " ++ value.text
  | .print _ operand => "print " ++ operand.text
  | .loop _ condition body =>
    "while " ++ condition.text ++ " \x7b " ++ Block.innerText body ++ "\x7d"
  | .ifThen _ condition thenBlock =>
    "if " ++ condition.text ++ " \x7b " ++ Block.innerText thenBlock ++ "\x7d"
  | .ifElse _ condition thenBlock elseBlock =>
    "if " ++ condition.text ++ " \x7b " ++ Block.innerText thenBlock ++ "\x7d else \x7b "
      ++ Block.innerText elseBlock ++ "\x7d"

/-- The statements of a block, each closed by a semicolon, without the braces around them. -/
def Block.innerText : List Stmt → String
  | [] => ""
  | stmt :: rest => stmt.text ++ "; " ++ Block.innerText rest

end

/-- The block on one line, in braces. -/
def Block.text (block : Block) : String :=
  "\x7b " ++ Block.innerText block ++ "\x7d"

/-! ## Flags of assignments -/

mutual

/-- The flags of the assignments in a statement, in source order. -/
def Stmt.validFlags : Stmt → List Bool
  | .assign _ _ _ valid => [valid]
  | .print _ _ => []
  | .loop _ _ body => Block.validFlags body
  | .ifThen _ _ thenBlock => Block.validFlags thenBlock
  | .ifElse _ _ thenBlock elseBlock => Block.validFlags thenBlock ++ Block.validFlags elseBlock

def Block.validFlags : List Stmt → List Bool
  | [] => []
  | stmt :: rest => stmt.validFlags ++ Block.validFlags rest

end

/-! ## Annotations and text -/

namespace Stmt

@[simp] theorem info_withInfo (info : NodeInfo) (stmt : Stmt) :
    (stmt.withInfo info).info = info := by
  cases stmt <;> rfl

@[simp] theorem text_withInfo (info : NodeInfo) (stmt : Stmt) :
    (stmt.withInfo info).text = stmt.text := by
  cases stmt <;> simp [withInfo, text]

@[simp] theorem span_withTy (ty : Ty) (stmt : Stmt) : (stmt.withTy ty).span = stmt.span := by
  simp [span, withTy]

@[simp] theorem ty?_withTy (ty : Ty) (stmt : Stmt) : (stmt.withTy ty).ty? = some ty := by
  simp [ty?, withTy]

@[simp] theorem text_withTy (ty : Ty) (stmt : Stmt) : (stmt.withTy ty).text = stmt.text := by
  simp [withTy]

end Stmt

/-! ## Equality -/

mutual

/-- Equality of statements as a Boolean. -/
def Stmt.same : Stmt → Stmt → Bool
  | .assign info name value valid, .assign info' name' value' valid' =>
    info == info' && name == name' && value == value' && valid == valid'
  | .print info operand, .print info' operand' => info == info' && operand == operand'
  | .loop info condition body, .loop info' condition' body' =>
    info == info' && condition == condition' && Block.same body body'
  | .ifThen info condition thenBlock, .ifThen info' condition' thenBlock' =>
    info == info' && condition == condition' && Block.same thenBlock thenBlock'
  | .ifElse info condition thenBlock elseBlock, .ifElse info' condition' thenBlock' elseBlock' =>
    info == info' && condition == condition' && Block.same thenBlock thenBlock'
      && Block.same elseBlock elseBlock'
  | _, _ => false

/-- Equality of blocks as a Boolean. -/
def Block.same : List Stmt → List Stmt → Bool
  | [], [] => true
  | stmt :: rest, stmt' :: rest' => stmt.same stmt' && Block.same rest rest'
  | _, _ => false

end

mutual

/-- The comparison of statements decides their equality. -/
theorem Stmt.same_iff : ∀ (a b : Stmt), a.same b = true ↔ a = b
  | .assign .., b => by
    cases b <;> simp [Stmt.same, and_assoc]
  | .print .., b => by
    cases b <;> simp [Stmt.same]
  | .loop _ _ body, b => by
    cases b <;> simp [Stmt.same, Block.same_iff body, and_assoc]
  | .ifThen _ _ thenBlock, b => by
    cases b <;> simp [Stmt.same, Block.same_iff thenBlock, and_assoc]
  | .ifElse _ _ thenBlock elseBlock, b => by
    cases b <;> simp [Stmt.same, Block.same_iff thenBlock, Block.same_iff elseBlock, and_assoc]

theorem Block.same_iff : ∀ (a b : List Stmt), Block.same a b = true ↔ a = b
  | [], b => by
    cases b <;> simp [Block.same]
  | stmt :: rest, b => by
    cases b <;> simp [Block.same, Stmt.same_iff stmt, Block.same_iff rest]

end

instance : DecidableEq Stmt := fun a b => decidable_of_iff _ (Stmt.same_iff a b)

end ScriptTyping

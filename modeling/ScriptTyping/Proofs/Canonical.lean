import ScriptTyping.Tree

/-!
# Canonical trees

Trees are built without a parser, and so they can hold what no source text says: a name with a blank
in it, a sum under a product without parentheses. Canonical trees are those that a source text can
say, with every operator where its precedence puts it. This module also says what of a tree a text
can show at all.

* **`IsIdentifier`**, **`IsQuoted`**: the words and the string literals of a source text.
* **`Expr.Canonical`**, **`Stmt.Canonical`**, **`Block.Canonical`**, **`Decl.Canonical`**: all of
  them can be decided.
* **`Expr.bare`**, **`Stmt.bare`**, **`Block.bare`**, **`Decl.bare`**: the tree without spans, types
  and flags. It has the same text.
-/

namespace ScriptTyping

/-! ## Words -/

/-- Whether a word can begin with the character: a letter of the basic alphabet or an underscore. -/
def isWordStart (c : Char) : Bool := c.isAlpha || c == '_'

/-- Whether a word can go on with the character. -/
def isWordChar (c : Char) : Bool := c.isAlphanum || c == '_'

/-- The words that are no names. -/
def keywords : List String := ["true", "false", "var", "if", "else", "while", "print"]

def IsIdentifier (name : String) : Prop :=
  name.toList.head?.any isWordStart = true ∧ name.toList.all isWordChar = true ∧ name ∉ keywords

instance (name : String) : Decidable (IsIdentifier name) :=
  inferInstanceAs (Decidable (_ ∧ _ ∧ _))

/-- A string literal stands between two quotes and has none inside. -/
def IsQuoted (lexeme : String) : Prop :=
  ∃ body : List Char, lexeme.toList = '\x22' :: (body ++ ['\x22']) ∧ '\x22' ∉ body

instance (lexeme : String) : Decidable (IsQuoted lexeme) :=
  -- what stands between the first and the last character is the only candidate
  decidable_of_iff
    (lexeme.toList = '\x22' :: (lexeme.toList.tail.dropLast ++ ['\x22'])
      ∧ '\x22' ∉ lexeme.toList.tail.dropLast)
    ⟨fun h => ⟨_, h⟩, fun h => by
      obtain ⟨body, hlexeme, hbody⟩ := h
      simpa [hlexeme] using hbody⟩

/-! ## Precedence -/

/-- The looser a family binds, the further up in a tree its operators stand. -/
def BinaryOp.Family.looseness : BinaryOp.Family → Nat
  | multiplicative => 0
  | additive => 1
  | comparison => 2

def BinaryOp.looseness (op : BinaryOp) : Nat := op.family.looseness

/-- The operator at the root of an expression, if it is a binary one. -/
def Expr.rootOp? : Expr → Option BinaryOp
  | .binary _ op _ _ => some op
  | _ => none

/-! ## Canonical trees -/

/-- Operators of the same family group to the left, so that the right operand of an operator binds
tighter than the operator, and the left one no looser. The operand of a unary operator has no binary
operator at its root. -/
def Expr.Canonical : Expr → Prop
  | .int _ value => 0 ≤ value
  | .bool _ _ => True
  | .str _ lexeme => IsQuoted lexeme
  | .var _ name => IsIdentifier name
  | .unary _ _ operand => operand.Canonical ∧ operand.rootOp? = none
  | .binary _ op left right =>
    left.Canonical ∧ right.Canonical
      ∧ (∀ inner ∈ left.rootOp?, inner.looseness ≤ op.looseness)
      ∧ ∀ inner ∈ right.rootOp?, inner.looseness < op.looseness
  | .parens _ inner => inner.Canonical

mutual

def Stmt.Canonical : Stmt → Prop
  | .assign _ name value _ => IsIdentifier name ∧ value.Canonical
  | .print _ operand => operand.Canonical
  | .loop _ condition body => condition.Canonical ∧ Block.Canonical body
  | .ifThen _ condition thenBlock => condition.Canonical ∧ Block.Canonical thenBlock
  | .ifElse _ condition thenBlock elseBlock =>
    condition.Canonical ∧ Block.Canonical thenBlock ∧ Block.Canonical elseBlock

def Block.Canonical : List Stmt → Prop
  | [] => True
  | stmt :: rest => stmt.Canonical ∧ Block.Canonical rest

end

def Decl.Canonical (decl : Decl) : Prop :=
  IsIdentifier decl.name ∧ IsIdentifier decl.typeToken ∧ ∀ init ∈ decl.init, init.Canonical

instance Expr.decidableCanonical : (expr : Expr) → Decidable expr.Canonical
  | .int _ value => inferInstanceAs (Decidable (0 ≤ value))
  | .bool _ _ => inferInstanceAs (Decidable True)
  | .str _ lexeme => inferInstanceAs (Decidable (IsQuoted lexeme))
  | .var _ name => inferInstanceAs (Decidable (IsIdentifier name))
  | .unary _ _ operand =>
    have := operand.decidableCanonical
    inferInstanceAs (Decidable (_ ∧ _))
  | .binary _ _ left right =>
    have := left.decidableCanonical
    have := right.decidableCanonical
    inferInstanceAs (Decidable (_ ∧ _ ∧ _ ∧ _))
  | .parens _ inner => inner.decidableCanonical

mutual

instance Stmt.decidableCanonical : (stmt : Stmt) → Decidable stmt.Canonical
  | .assign _ name value _ => inferInstanceAs (Decidable (IsIdentifier name ∧ value.Canonical))
  | .print _ operand => inferInstanceAs (Decidable operand.Canonical)
  | .loop _ condition body =>
    have := Block.decidableCanonical body
    inferInstanceAs (Decidable (condition.Canonical ∧ _))
  | .ifThen _ condition thenBlock =>
    have := Block.decidableCanonical thenBlock
    inferInstanceAs (Decidable (condition.Canonical ∧ _))
  | .ifElse _ condition thenBlock elseBlock =>
    have := Block.decidableCanonical thenBlock
    have := Block.decidableCanonical elseBlock
    inferInstanceAs (Decidable (condition.Canonical ∧ _ ∧ _))

instance Block.decidableCanonical : (block : List Stmt) → Decidable (Block.Canonical block)
  | [] => inferInstanceAs (Decidable True)
  | stmt :: rest =>
    have := stmt.decidableCanonical
    have := Block.decidableCanonical rest
    inferInstanceAs (Decidable (_ ∧ _))

end

instance (decl : Decl) : Decidable decl.Canonical :=
  inferInstanceAs (Decidable (_ ∧ _ ∧ ∀ init ∈ decl.init, init.Canonical))

/-! ## Bare trees -/

def Expr.bare : Expr → Expr
  | .int _ value => .int {} value
  | .bool _ value => .bool {} value
  | .str _ lexeme => .str {} lexeme
  | .var _ name => .var {} name
  | .unary _ op operand => .unary {} op operand.bare
  | .binary _ op left right => .binary {} op left.bare right.bare
  | .parens _ inner => .parens {} inner.bare

mutual

def Stmt.bare : Stmt → Stmt
  | .assign _ name value _ => .assign {} name value.bare false
  | .print _ operand => .print {} operand.bare
  | .loop _ condition body => .loop {} condition.bare (Block.bare body)
  | .ifThen _ condition thenBlock => .ifThen {} condition.bare (Block.bare thenBlock)
  | .ifElse _ condition thenBlock elseBlock =>
    .ifElse {} condition.bare (Block.bare thenBlock) (Block.bare elseBlock)

def Block.bare : List Stmt → List Stmt
  | [] => []
  | stmt :: rest => stmt.bare :: Block.bare rest

end

def Decl.bare (decl : Decl) : Decl :=
  { name := decl.name, typeToken := decl.typeToken, init := decl.init.map Expr.bare }

/-- The text of an expression shows neither types nor spans. -/
theorem Expr.text_bare (expr : Expr) : expr.bare.text = expr.text := by
  induction expr <;> simp_all [Expr.bare, Expr.text]

mutual

/-- The text of a statement shows neither types nor spans nor whether an assignment is valid. -/
theorem Stmt.text_bare : ∀ stmt : Stmt, stmt.bare.text = stmt.text
  | .assign .. => by simp [Stmt.bare, Stmt.text, Expr.text_bare]
  | .print .. => by simp [Stmt.bare, Stmt.text, Expr.text_bare]
  | .loop _ _ body => by simp [Stmt.bare, Stmt.text, Expr.text_bare, Block.innerText_bare body]
  | .ifThen _ _ thenBlock => by
    simp [Stmt.bare, Stmt.text, Expr.text_bare, Block.innerText_bare thenBlock]
  | .ifElse _ _ thenBlock elseBlock => by
    simp [Stmt.bare, Stmt.text, Expr.text_bare, Block.innerText_bare thenBlock,
      Block.innerText_bare elseBlock]

theorem Block.innerText_bare :
    ∀ block : List Stmt, Block.innerText (Block.bare block) = Block.innerText block
  | [] => rfl
  | stmt :: rest => by
    rw [Block.bare, Block.innerText, Block.innerText, Stmt.text_bare stmt,
      Block.innerText_bare rest]

end

theorem Block.text_bare (block : List Stmt) : Block.text (Block.bare block) = Block.text block := by
  rw [Block.text, Block.text, Block.innerText_bare]

theorem Decl.text_bare (decl : Decl) : decl.bare.text = decl.text := by
  cases hinit : decl.init <;> simp [Decl.text, Decl.bare, hinit, Expr.text_bare]

end ScriptTyping

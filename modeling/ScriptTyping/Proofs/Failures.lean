import ScriptTyping.Proofs.Resolution

/-!
# The log as a list of failing nodes

Checking writes the log while it walks, from types that it has not yet recorded. This module reads
the same log off the finished tree: it is the post-order list of the nodes of type `Ty.error`, less
those that stay silent.

* A **`Visit`** is a node together with the names that are declared when it is met. A node fails if
  it has type `Ty.error` and is neither a pair of parentheses nor a declared variable.
* **`Verdict.marks_entries`**: one verdict adds one entry if its node fails, and none otherwise.
  This is the only place where verdicts and failures meet.
* **`Expr.marks_check`**, **`Stmt.marks_check`**, **`Decl.marks_check`**, **`Tree.marks_check`**:
  the entries of a checked tree are the marks of its failing nodes.
-/

namespace ScriptTyping

/-- An entry without its message. -/
abbrev Mark := Category × String × Span

def Entry.mark (entry : Entry) : Mark := (entry.category, entry.text, entry.span)

/-- A node as it is met, and the names that are declared at that moment. -/
structure Visit where
  declared : String → Bool
  node : Node

namespace Visit

/-- Parentheses never report what they enclose, and a declared variable is not to blame for its
type. -/
def isSilent : Visit → Bool
  | ⟨_, .expr (.parens ..)⟩ => true
  | ⟨declared, .expr (.var _ name)⟩ => declared name
  | _ => false

def fails (visit : Visit) : Bool :=
  visit.node.ty? == some .error && !visit.isSilent

/-- The category in which a failing node is reported, for the kinds of node that can fail. -/
def category? : Visit → Option Category
  | ⟨_, .expr (.unary ..)⟩ => some .invalidNegation
  | ⟨_, .expr (.binary ..)⟩ => some .invalidBinaryOp
  | ⟨_, .expr (.var ..)⟩ => some .undefinedName
  | ⟨_, .expr (.int ..)⟩ | ⟨_, .expr (.bool ..)⟩ | ⟨_, .expr (.str ..)⟩
  | ⟨_, .expr (.parens ..)⟩ => none
  | ⟨_, .stmt (.loop ..)⟩ | ⟨_, .stmt (.ifThen ..)⟩ | ⟨_, .stmt (.ifElse ..)⟩ =>
    some .conditionNotBool
  | ⟨_, .stmt (.print ..)⟩ => some .unprintableExpression
  | ⟨declared, .stmt (.assign _ name _ _)⟩ =>
    some (if declared name then .assignToWrongType else .undefinedName)
  | ⟨_, .decl d⟩ =>
    some (if d.typeToken ∈ ["Int", "Bool", "String"] then .assignToWrongType else .undefinedName)

/-- What is reported for a failing node: its category, its own text and its own span. -/
def mark? (visit : Visit) : Option Mark :=
  visit.category?.map fun category => (category, visit.node.text, visit.node.span)

end Visit

/-- The reports that the failing nodes among the visited ones call for, in their order. -/
def failures (visits : List Visit) : List (Option Mark) :=
  (visits.filter Visit.fails).map Visit.mark?

/-! ## The nodes of a tree as they are met -/

/-- Every declaration is met with the names of the declarations before it. -/
def Decl.visits (declared : String → Bool) : List Decl → List Visit
  | [] => []
  | decl :: rest =>
    decl.postorder.map (Visit.mk declared) ++
      Decl.visits (fun name => declared name || name == decl.name) rest

/-- Statements are met with all names declared. -/
def Script.visits (declared : String → Bool) (script : Script) : List Visit :=
  Decl.visits declared script.decls ++
    (Block.postorder script.stmts).map
      (Visit.mk fun name => declared name || script.decls.any (name == ·.name))

/-- The nodes of a tree in post-order, when the given names are declared at first. -/
def Tree.visits (declared : String → Bool) : Tree → List Visit
  | .expr e => e.postorder.map (Visit.mk declared)
  | .stmt s => s.postorder.map (Visit.mk declared)
  | .decl d => d.postorder.map (Visit.mk declared)
  | .block b => (Block.postorder b).map (Visit.mk declared)
  | .script s => s.visits declared

/-- Each declaration is met once, whatever is declared by then. -/
theorem Decl.map_node_visits (declared : String → Bool) (decls : List Decl) :
    (Decl.visits declared decls).map Visit.node = decls.flatMap Decl.postorder := by
  induction decls generalizing declared with
  | nil => rfl
  | cons decl rest ih => simp [Decl.visits, ih, Function.comp_def]

/-- Visits only add the declared names to the post-order. -/
theorem Tree.map_node_visits (declared : String → Bool) (tree : Tree) :
    (tree.visits declared).map Visit.node = tree.postorder := by
  cases tree <;>
    simp [Tree.visits, Tree.postorder, Script.visits, Script.postorder, Decl.map_node_visits,
      Function.comp_def]

/-! ## Failures of a list of visits -/

@[simp] theorem failures_nil : failures [] = [] := rfl

@[simp] theorem failures_append (first second : List Visit) :
    failures (first ++ second) = failures first ++ failures second := by
  simp [failures]

theorem failures_singleton (visit : Visit) :
    failures [visit] = if visit.fails then [visit.mark?] else [] := by
  cases h : visit.fails <;> simp [failures, h]

/-- Only a node of type `Ty.error` can call for a report. -/
theorem failures_eq_nil {visits : List Visit} (h : ∀ visit ∈ visits, visit.node.ty? ≠ some .error) :
    failures visits = [] := by
  have hnone : visits.filter Visit.fails = [] := by
    rw [List.filter_eq_nil_iff]
    intro visit hvisit
    simp [Visit.fails, h visit hvisit]
  rw [failures, hnone, List.map_nil]

/-- The marks of some entries, each of them there. -/
def marks (entries : List Entry) : List (Option Mark) :=
  entries.map fun entry => some entry.mark

@[simp] theorem marks_nil : marks [] = [] := rfl

@[simp] theorem marks_append (first second : List Entry) :
    marks (first ++ second) = marks first ++ marks second := by
  simp [marks]

@[simp] theorem Visit.isSilent_withTy (declared : String → Bool) (ty : Ty) (node : Node) :
    Visit.isSilent ⟨declared, node.withTy ty⟩ = Visit.isSilent ⟨declared, node⟩ := by
  cases node with
  | expr e => cases e <;> rfl
  | stmt s => rfl
  | decl d => rfl

@[simp] theorem Visit.category?_withTy (declared : String → Bool) (ty : Ty) (node : Node) :
    Visit.category? ⟨declared, node.withTy ty⟩ = Visit.category? ⟨declared, node⟩ := by
  cases node with
  | expr e => cases e <;> rfl
  | stmt s => cases s <;> rfl
  | decl d => rfl

/-- Whether a node is silent is a matter of syntax and of the declared names. -/
theorem Visit.isSilent_erase (declared : String → Bool) (node : Node) :
    Visit.isSilent ⟨declared, node.erase⟩ = Visit.isSilent ⟨declared, node⟩ := by
  cases node with
  | expr e => cases e <;> rfl
  | stmt s => rfl
  | decl d => rfl

theorem Visit.category?_erase (declared : String → Bool) (node : Node) :
    Visit.category? ⟨declared, node.erase⟩ = Visit.category? ⟨declared, node⟩ := by
  cases node with
  | expr e => cases e <;> rfl
  | stmt s => cases s <;> rfl
  | decl d => rfl

/-- **One verdict, one report.** If the rule for a node lets `Ty.error` pass only where the node is
silent, and all its violations are of the category of the node, then what the verdict adds to the
log is what the annotated node calls for. -/
theorem Verdict.marks_entries {declared : String → Bool} {node : Node} {verdict : Verdict}
    (hok : verdict = .ok .error → Visit.isSilent ⟨declared, node⟩ = true)
    (herror : ∀ violation, verdict = .error violation →
      Visit.isSilent ⟨declared, node⟩ = false
        ∧ Visit.category? ⟨declared, node⟩ = some violation.category) :
    marks (verdict.entries node.text node.span)
      = failures [⟨declared, node.withTy verdict.ty⟩] := by
  rw [failures_singleton]
  cases verdict with
  | ok ty =>
    -- a granted type fails only if it is `Ty.error`, and then the node is silent
    have hfails : Visit.fails ⟨declared, node.withTy ty⟩ = false := by
      by_cases hty : ty = .error
      · simp [Visit.fails, hok (by rw [hty])]
      · simp [Visit.fails, hty]
    simp [hfails]
  | error violation =>
    obtain ⟨hsilent, hcategory⟩ := herror violation rfl
    have hfails : Visit.fails ⟨declared, node.withTy .error⟩ = true := by
      simp [Visit.fails, hsilent]
    simp [hfails, marks, Visit.mark?, hcategory, Entry.mark, Violation.entry]

/-- A checked node adds its own report behind those of its children, as a post-order has it. -/
theorem marks_close {declared : String → Bool} {earlier : List Entry} (node : Node)
    (verdict : Verdict)
    (hearlier : marks earlier =
      failures ((node.children.flatMap Node.postorder).map (Visit.mk declared)))
    (hok : verdict = .ok .error → Visit.isSilent ⟨declared, node⟩ = true)
    (herror : ∀ violation, verdict = .error violation →
      Visit.isSilent ⟨declared, node⟩ = false
        ∧ Visit.category? ⟨declared, node⟩ = some violation.category) :
    marks (earlier ++ verdict.entries node.text node.span) =
      failures ((node.withTy verdict.ty).postorder.map (Visit.mk declared)) := by
  rw [Node.postorder_eq, Node.children_withTy, List.map_append, List.map_singleton,
    failures_append, marks_append, hearlier, Verdict.marks_entries hok herror]

/-! ## Expressions -/

/-- **Expressions.** Each case gives the two obligations of `marks_close`: only silent nodes get
`Ty.error` without a report, and a report has the category of its node. -/
theorem Expr.marks_check (table : SymbolTable) (expr : Expr) :
    marks (expr.check table).entries =
      failures ((expr.check table).expr.postorder.map (Visit.mk table.contains)) := by
  induction expr with
  | int info value =>
    exact marks_close (.expr (.int info value)) (.ok .int) rfl (by simp) (by simp)
  | bool info value =>
    exact marks_close (.expr (.bool info value)) (.ok .bool) rfl (by simp) (by simp)
  | str info lexeme =>
    exact marks_close (.expr (.str info lexeme)) (.ok .string) rfl (by simp) (by simp)
  | var info name =>
    refine marks_close (.expr (.var info name)) _ rfl (fun hok => ?_) (fun v hv => ?_)
    · -- a poisoned variable is found, so it is declared
      have hfound := Verdict.ofVariable_eq_ok_iff.mp hok
      simp [Visit.isSilent, SymbolTable.contains, hfound]
    · obtain ⟨hfound, hcategory⟩ := Verdict.category_of_ofVariable hv
      simp [Visit.isSilent, SymbolTable.contains, hfound, Visit.category?, hcategory]
  | unary info op operand ih =>
    refine marks_close (.expr (.unary info op (operand.check table).expr)) _ ?_
      (fun hok => ?_) (fun v hv => ⟨rfl, ?_⟩)
    · simpa [Node.children, Node.postorder] using ih
    · exact absurd rfl (UnaryOp.resultTy?_ne_error (Verdict.ofUnary_eq_ok_iff.mp hok))
    · rw [Verdict.category_of_ofUnary hv]
      rfl
  | binary info op left right ihl ihr =>
    refine marks_close (.expr (.binary info op (left.check table).expr (right.check table).expr)) _
      ?_ (fun hok => ?_) (fun v hv => ⟨rfl, ?_⟩)
    · simp [Node.children, Node.postorder, ihl, ihr]
    · exact absurd rfl (BinaryOp.resultTy?_ne_error (Verdict.ofBinary_eq_ok_iff.mp hok))
    · rw [Verdict.category_of_ofBinary hv]
      rfl
  | parens info inner ih =>
    refine marks_close (.expr (.parens info (inner.check table).expr))
      (.ok (inner.check table).ty) ?_ (fun _ => rfl) (by simp)
    simpa [Node.children, Node.postorder] using ih

/-! ## Statements and blocks

Statements poison names but neither declare nor forget one, so every statement is met with the same
declared names. -/

/-- A statement neither declares a name nor forgets one. -/
@[simp] theorem Stmt.contains_check (table : SymbolTable) (stmt : Stmt) :
    (stmt.check table).table.contains = table.contains := by
  funext name
  rw [Bool.eq_iff_iff, SymbolTable.contains_iff, SymbolTable.contains_iff, Stmt.names_check]

@[simp] theorem Block.contains_check (table : SymbolTable) (block : List Stmt) :
    (Block.check table block).table.contains = table.contains := by
  funext name
  rw [Bool.eq_iff_iff, SymbolTable.contains_iff, SymbolTable.contains_iff, Block.names_check]

/-- The two obligations of `marks_close` for a rule that decides on a condition. -/
theorem Stmt.marks_close_condition {declared : String → Bool} {earlier : List Entry}
    {text : String} {ty : Ty} {table : SymbolTable} (stmt : Stmt)
    (hcategory : Visit.category? ⟨declared, .stmt stmt⟩ = some .conditionNotBool)
    (hearlier : marks earlier =
      failures (((Node.stmt stmt).children.flatMap Node.postorder).map (Visit.mk declared))) :
    marks (stmt.close (.ofCondition text ty) table earlier).entries =
      failures ((stmt.close (.ofCondition text ty) table earlier).node.postorder.map
        (Visit.mk declared)) := by
  refine marks_close (.stmt stmt) _ hearlier (fun hok => ?_) (fun v hv => ⟨rfl, ?_⟩)
  · simp [Verdict.ofCondition_eq_ok_iff] at hok
  · rw [Verdict.category_of_ofCondition hv, hcategory]

mutual

/-- **Statements.** The entries of a statement are the marks of its failing nodes. -/
theorem Stmt.marks_check (table : SymbolTable) : ∀ stmt : Stmt,
    marks (stmt.check table).entries =
      failures ((stmt.check table).node.postorder.map (Visit.mk table.contains))
  | .assign info name value valid => by
    -- the flag is written on the node before the type is, so it is part of the node to close
    let verdict := Verdict.ofAssign name (table.lookup name) (value.check table).ty
    refine marks_close (.stmt (.assign info name (value.check table).expr verdict.isValid)) verdict
      ?_ (fun hok => ?_) (fun v hv => ⟨rfl, ?_⟩)
    · simpa [Node.children, Node.postorder] using Expr.marks_check table value
    · exact absurd rfl (Verdict.ofAssign_eq_ok_iff.mp hok).2.2
    · rw [Verdict.category_of_ofAssign hv]
      rfl
  | .print info operand => by
    refine marks_close (.stmt (.print info (operand.check table).expr)) _
      ?_ (fun hok => ?_) (fun v hv => ⟨rfl, ?_⟩)
    · simpa [Node.children, Node.postorder] using Expr.marks_check table operand
    · exact absurd rfl (Verdict.ofPrint_eq_ok_iff.mp hok).2
    · rw [Verdict.category_of_ofPrint hv]
      rfl
  | .loop info condition body => by
    refine Stmt.marks_close_condition (.loop info _ _) rfl ?_
    simp [Node.children, Node.postorder, Expr.marks_check table condition,
      Block.marks_check table body, Block.postorder_eq_flatMap, List.flatMap_map]
  | .ifThen info condition thenBlock => by
    refine Stmt.marks_close_condition (.ifThen info _ _) rfl ?_
    simp [Node.children, Node.postorder, Expr.marks_check table condition,
      Block.marks_check table thenBlock, Block.postorder_eq_flatMap, List.flatMap_map]
  | .ifElse info condition thenBlock elseBlock => by
    refine Stmt.marks_close_condition (.ifElse info _ _ _) rfl ?_
    simp [Node.children, Node.postorder, Expr.marks_check table condition,
      Block.marks_check table thenBlock, Block.marks_check _ elseBlock,
      Block.postorder_eq_flatMap, List.flatMap_map]

/-- Blocks put the entries of their statements one behind the other, as a post-order does. -/
theorem Block.marks_check (table : SymbolTable) : ∀ block : List Stmt,
    marks (Block.check table block).entries =
      failures ((Block.postorder (Block.check table block).node).map (Visit.mk table.contains))
  | [] => rfl
  | stmt :: rest => by
    have hstmt := Stmt.marks_check table stmt
    have hrest := Block.marks_check (stmt.check table).table rest
    -- `rest` is checked against another table, which declares the same names
    rw [Stmt.contains_check] at hrest
    rw [Block.check, marks_append, hstmt, hrest, Block.postorder, List.map_append,
      failures_append]

end

/-! ## Declarations and scripts -/

/-- **Declarations.** An unknown type token and an initialiser of another type are told apart by the
token alone. -/
theorem Decl.marks_check (table : SymbolTable) (decl : Decl) :
    marks (decl.check table).entries =
      failures ((decl.check table).node.postorder.map (Visit.mk table.contains)) := by
  refine marks_close (.decl _) _ ?_ (fun hok => ?_) (fun v hv => ⟨rfl, ?_⟩)
  · cases hinit : decl.init with
    | none => simp [Node.children]
    | some init => simpa [Node.children, Node.postorder, hinit] using Expr.marks_check table init
  · have htoken := (Verdict.ofDecl_eq_ok_iff.mp hok).1
    exact absurd rfl (Ty.ofToken?_eq_some_iff.mp htoken).1
  · -- the category turns on whether the token names a type
    simp only [Verdict.category_of_ofDecl hv, Ty.ofToken?_isSome_iff]
    rfl

/-- A declaration adds its name to the declared ones, whether it is in order or not. -/
theorem Decl.contains_check (table : SymbolTable) (decl : Decl) :
    (decl.check table).table.contains = fun name => table.contains name || name == decl.name := by
  funext name
  simp only [Decl.check, SymbolTable.contains, SymbolTable.lookup_define]
  by_cases hname : name = decl.name <;> simp [hname]

theorem Decl.any_name_checkAll (table : SymbolTable) (decls : List Decl) (name : String) :
    (Decl.checkAll table decls).node.any (name == ·.name) = decls.any (name == ·.name) := by
  induction decls generalizing table with
  | nil => rfl
  | cons decl rest ih =>
    have hname : (decl.check table).node.name = decl.name := rfl
    rw [Decl.checkAll, List.any_cons, List.any_cons, ih, hname]

/-- After the declarations a name is declared if it was before or if one of them declares it. -/
theorem Decl.contains_checkAll (table : SymbolTable) (decls : List Decl) :
    (Decl.checkAll table decls).table.contains = fun name =>
      table.contains name || (Decl.checkAll table decls).node.any (name == ·.name) := by
  induction decls generalizing table with
  | nil => simp [Decl.checkAll]
  | cons decl rest ih =>
    have hname : (decl.check table).node.name = decl.name := rfl
    rw [Decl.checkAll]
    simp only [ih, Decl.contains_check, List.any_cons, hname, Bool.or_assoc]

/-- Each declaration is met with the names of the earlier ones declared. -/
theorem Decl.marks_checkAll (table : SymbolTable) (decls : List Decl) :
    marks (Decl.checkAll table decls).entries =
      failures (Decl.visits table.contains (Decl.checkAll table decls).node) := by
  induction decls generalizing table with
  | nil => rfl
  | cons decl rest ih =>
    have hname : (decl.check table).node.name = decl.name := rfl
    rw [Decl.checkAll, marks_append, Decl.marks_check, ih, Decl.contains_check, Decl.visits,
      failures_append, hname]

/-- **Scripts.** The statements are met with the names of all declarations declared. -/
theorem Script.marks_check (table : SymbolTable) (script : Script) :
    marks (script.check table).entries =
      failures ((script.check table).node.visits table.contains) := by
  rw [Script.check, marks_append, Decl.marks_checkAll, Block.marks_check, Decl.contains_checkAll,
    Script.visits, failures_append]

/-- The entries of a checked tree are the marks of its failing nodes, in post-order. -/
theorem Tree.marks_check (table : SymbolTable) (tree : Tree) :
    marks (tree.check table).entries
      = failures ((tree.check table).node.visits table.contains) := by
  cases tree with
  | expr e => exact Expr.marks_check table e
  | stmt s => exact Stmt.marks_check table s
  | decl d => exact Decl.marks_check table d
  | block b => exact Block.marks_check table b
  | script s => exact Script.marks_check table s

/-- A tree without a node of type `Ty.error` leaves no entry. -/
theorem Tree.entries_eq_nil_of_no_error {table : SymbolTable} (tree : Tree)
    (h : ∀ node, (tree.check table).node.Contains node → node.ty? ≠ some .error) :
    (tree.check table).entries = [] := by
  have hnone : failures ((tree.check table).node.visits table.contains) = [] := by
    refine failures_eq_nil fun visit hvisit => h visit.node ?_
    rw [← Tree.mem_postorder_iff, ← Tree.map_node_visits table.contains]
    exact List.mem_map_of_mem hvisit
  rw [← Tree.marks_check] at hnone
  simpa [marks] using hnone

/-- **The log is the post-order list of failing nodes.** Analysing a tree annotates every node of it
and changes nothing else. Whatever the log held before, entries are appended that depend on the tree
and the table alone. Their categories, texts and spans are those of the failing nodes of the
annotated tree, one entry a node, in post-order. -/
theorem log_analyze_eq_failures (table : SymbolTable) (tree : Tree) :
    ∃ found : List Entry, ∀ log : Log,
      (Session.analyze ⟨table, log⟩ tree).1.erase = tree.erase
        ∧ (∀ node, (Session.analyze ⟨table, log⟩ tree).1.Contains node → ∃ ty, node.ty? = some ty)
        ∧ (Session.analyze ⟨table, log⟩ tree).2.log.entries = log.entries ++ found
        ∧ marks found =
          failures ((Session.analyze ⟨table, log⟩ tree).1.visits table.contains) := by
  refine ⟨(tree.check table).entries, fun log => ⟨?_, ?_, ?_, ?_⟩⟩
  · exact Tree.erase_check table tree
  · exact Tree.resolved_check table tree
  · exact Session.log_analyze ⟨table, log⟩ tree
  · exact Tree.marks_check table tree

/-- The block `x = -true; print (y);`. -/
def cascadingBlock : Tree :=
  .block
    [.assign { span := ⟨0, 9⟩ } "x" (.unary { span := ⟨4, 9⟩ } .neg (.ofBool true)) false,
      .print { span := ⟨11, 20⟩ } (.parens {} (.var { span := ⟨18, 19⟩ } "y"))]

/-- With an integer `x` the block calls for four entries behind those of any log: the operator fails
and then the assignment, the unknown name fails and then the statement, and the parentheses between
these two are passed over. -/
theorem log_analyze_eq_failures_cascading :
    ∃ found : List Entry, marks found =
        [some (.invalidNegation, "-true", ⟨4, 9⟩), some (.assignToWrongType, "x = -true", ⟨0, 9⟩),
          some (.undefinedName, "y", ⟨18, 19⟩),
          some (.unprintableExpression, "print (y)", ⟨11, 20⟩)]
      ∧ ∀ log : Log,
        (Session.analyze ⟨.ofList [("x", .int)], log⟩ cascadingBlock).2.log.entries
          = log.entries ++ found := by
  obtain ⟨found, h⟩ := log_analyze_eq_failures (.ofList [("x", .int)]) cascadingBlock
  obtain ⟨-, -, -, hmarks⟩ := h {}
  refine ⟨found, ?_, fun log => ?_⟩
  · rw [hmarks]
    decide
  · obtain ⟨-, -, hlog, -⟩ := h log
    exact hlog

end ScriptTyping

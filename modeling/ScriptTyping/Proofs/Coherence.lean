import Mathlib.Data.List.Basic
import ScriptTyping.Proofs.Flattening
import ScriptTyping.Proofs.Judgement
import ScriptTyping.Proofs.Replay
import ScriptTyping.Proofs.Resolution

/-!
# Annotations fit together

The annotations of a tree are written one by one, while the table changes, and nothing is looked at
again. Yet in the end they fit: every node has the type that its rule gives for the types recorded
on the nodes below it, and the reports quote these types.

* **`Node.Coherent`**: the annotations of a node fit those of the nodes directly below it.
* **`Step.coherent`**, **`Tree.coherent_check`**: closing a node leaves it coherent, hence all nodes
  of a checked tree are.
* **`Encounter`**, **`Tree.encounters`**: the assignments of a tree, each with the table it is
  checked against.
* **`Encounter.Linked`**, **`Tree.linked_encounters`**: each table is the one that the assignment
  before it left behind.
* **`Node.typeReport?`**: what is to be reported about an operator or a condition, read off the
  types recorded below it.
* **`Step.filter_entries`**, **`Tree.filter_entries_check`**: closing a node reports just this, and
  so does a whole check.
-/

namespace ScriptTyping

/-! ## Coherent nodes -/

/-- The condition of the statements that have one. -/
def Stmt.condition? : Stmt → Option Expr
  | .loop _ condition _ => some condition
  | .ifThen _ condition _ => some condition
  | .ifElse _ condition _ _ => some condition
  | .assign .. | .print .. => none

/-- The annotations of a node fit those of the nodes directly below it. -/
inductive Node.Coherent : Node → Prop where
  | int {info : NodeInfo} {value : Int} (hty : info.ty = some .int) :
      Node.Coherent (.expr (.int info value))
  | bool {info : NodeInfo} {value : Bool} (hty : info.ty = some .bool) :
      Node.Coherent (.expr (.bool info value))
  | str {info : NodeInfo} {lexeme : String} (hty : info.ty = some .string) :
      Node.Coherent (.expr (.str info lexeme))
  | var {info : NodeInfo} {name : String} {ty : Ty} (hty : info.ty = some ty) :
      Node.Coherent (.expr (.var info name))
  | unary {info : NodeInfo} {op : UnaryOp} {operand : Expr} {t : Ty}
      (hoperand : operand.ty? = some t) (hty : info.ty = some ((op.resultTy? t).getD .error)) :
      Node.Coherent (.expr (.unary info op operand))
  | binary {info : NodeInfo} {op : BinaryOp} {left right : Expr} {t u : Ty}
      (hleft : left.ty? = some t) (hright : right.ty? = some u)
      (hty : info.ty = some ((op.resultTy? t u).getD .error)) :
      Node.Coherent (.expr (.binary info op left right))
  | parens {info : NodeInfo} {inner : Expr} {t : Ty} (hinner : inner.ty? = some t)
      (hty : info.ty = some t) : Node.Coherent (.expr (.parens info inner))
  | print {info : NodeInfo} {operand : Expr} {t : Ty} (hoperand : operand.ty? = some t)
      (hty : info.ty = some t) : Node.Coherent (.stmt (.print info operand))
  | guarded {s : Stmt} {condition : Expr} {t : Ty} (hguard : s.condition? = some condition)
      (hcondition : condition.ty? = some t)
      (hty : s.ty? = some (if t = .bool then .bool else .error)) : Node.Coherent (.stmt s)
  | assign {info : NodeInfo} {name : String} {value : Expr} {valid : Bool} {t ty : Ty}
      (hvalue : value.ty? = some t) (hty : info.ty = some ty) (hvalid : valid = true ↔ ty ≠ .error)
      (hsame : valid = true → ty = t) : Node.Coherent (.stmt (.assign info name value valid))
  | decl {d : Decl} {ty : Ty} (hty : d.ty? = some ty) (hvalid : d.valid = true ↔ ty ≠ .error)
      (htoken : d.valid = true → TypeToken d.typeToken ty)
      (hinit : ∀ init ∈ d.init, ∃ t, init.ty? = some t ∧ (d.valid = true → ty = t)) :
      Node.Coherent (.decl d)

theorem Expr.recordedTy_eq {expr : Expr} {ty : Ty} (h : expr.ty? = some ty) :
    expr.recordedTy = ty := by
  rw [Expr.recordedTy, h, Option.getD_some]

/-- All statements with a condition are under one rule. -/
theorem Node.verdict_of_condition? {s : Stmt} {condition : Expr}
    (h : s.condition? = some condition) (table : SymbolTable) :
    (Node.stmt s).verdict table = .ofCondition condition.text condition.recordedTy := by
  cases s <;> cases h <;> rfl

/-- A rule that never gives the type `Ty.error` accepts a node exactly if it gives another type. -/
theorem Verdict.isValid_iff_ty_ne_error {verdict : Verdict} (h : verdict ≠ .ok .error) :
    verdict.isValid = true ↔ verdict.ty ≠ .error := by
  cases verdict with
  | ok ty => simpa using h
  | error violation => simp

namespace Step

/-- An assignment that is annotated by its verdict is coherent with its value. -/
theorem coherent_assign {table : SymbolTable} {info : NodeInfo} {name : String} {value : Expr}
    {valid : Bool} {t : Ty} (h : Annotated ⟨table, .stmt (.assign info name value valid)⟩)
    (hvalue : value.ty? = some t) : Node.Coherent (.stmt (.assign info name value valid)) := by
  have hverdict : verdict ⟨table, .stmt (.assign info name value valid)⟩
      = .ofAssign name (table.lookup name) t := by
    rw [← Expr.recordedTy_eq hvalue]
    rfl
  have hty : info.ty = some _ := h.ty?
  have hvalid : valid = _ := h.valid? valid rfl
  rw [hverdict] at hty hvalid
  refine .assign hvalue hty ?_ fun htrue => ?_
  · rw [hvalid]
    refine Verdict.isValid_iff_ty_ne_error fun hok => ?_
    exact (Verdict.ofAssign_eq_ok_iff.mp hok).2.2 rfl
  · obtain ⟨ty, hok⟩ := Verdict.isValid_iff.mp (hvalid.symm.trans htrue)
    rw [hok]
    exact (Verdict.ofAssign_eq_ok_iff.mp hok).2.1.symm

/-- A statement with a condition that is annotated by its verdict is coherent with the condition. -/
theorem coherent_guarded {table : SymbolTable} {s : Stmt} {condition : Expr} {t : Ty}
    (h : Annotated ⟨table, .stmt s⟩) (hguard : s.condition? = some condition)
    (hcondition : condition.ty? = some t) : Node.Coherent (.stmt s) := by
  have hty : s.ty? = some ((Node.stmt s).verdict table).ty := h.ty?
  rw [Node.verdict_of_condition? hguard, Expr.recordedTy_eq hcondition, Verdict.ty_ofCondition]
    at hty
  exact .guarded hguard hcondition hty

/-- A declaration that is annotated by its verdict is coherent with its initialiser. -/
theorem coherent_decl {table : SymbolTable} {d : Decl} (h : Annotated ⟨table, .decl d⟩)
    (hinit : ∀ init ∈ d.init, ∃ t, init.ty? = some t) : Node.Coherent (.decl d) := by
  have hty : d.ty? = some _ := h.ty?
  have hvalid : d.valid = _ := h.valid? d.valid rfl
  have hverdict : verdict ⟨table, .decl d⟩
      = .ofDecl d.name d.typeToken (d.init.map Expr.recordedTy) := rfl
  rw [hverdict] at hty hvalid
  -- what an accepted declaration says about its token and its initialiser
  have haccepted : d.valid = true → ∃ ty,
      Verdict.ofDecl d.name d.typeToken (d.init.map Expr.recordedTy) = .ok ty
        ∧ TypeToken d.typeToken ty ∧ ∀ init ∈ d.init, init.recordedTy = ty := by
    intro htrue
    obtain ⟨ty, hok⟩ := Verdict.isValid_iff.mp (hvalid.symm.trans htrue)
    obtain ⟨htoken, hsame⟩ := Verdict.ofDecl_eq_ok_iff.mp hok
    exact ⟨ty, hok, typeToken_iff.mpr htoken, fun init hmem =>
      hsame init.recordedTy (Option.mem_map_of_mem _ hmem)⟩
  refine .decl hty ?_ (fun htrue => ?_) fun init hmem => ?_
  · rw [hvalid]
    refine Verdict.isValid_iff_ty_ne_error fun hok => ?_
    have htoken := (Verdict.ofDecl_eq_ok_iff.mp hok).1
    exact (Ty.ofToken?_eq_some_iff.mp htoken).1 rfl
  · obtain ⟨ty, hok, htoken, -⟩ := haccepted htrue
    rw [hok]
    exact htoken
  · obtain ⟨t, ht⟩ := hinit init hmem
    refine ⟨t, ht, fun htrue => ?_⟩
    obtain ⟨ty, hok, -, hsame⟩ := haccepted htrue
    rw [hok, ← Expr.recordedTy_eq ht, hsame init hmem]
    rfl

/-- **One step.** A node that is closed above annotated nodes is coherent. -/
theorem coherent {step : Step} (h : step.Annotated)
    (hparts : ∀ child ∈ step.node.children, child.Resolved) : step.node.Coherent := by
  obtain ⟨table, node⟩ := step
  have hty : node.ty? = some (node.verdict table).ty := h.ty?
  have hpart : ∀ e : Expr, .expr e ∈ node.children → ∃ t, e.ty? = some t ∧ e.recordedTy = t := by
    intro e he
    obtain ⟨t, ht⟩ := hparts (.expr e) he
    exact ⟨t, ht, Expr.recordedTy_eq ht⟩
  cases node with
  | expr e =>
    cases e with
    | int => exact .int hty
    | bool => exact .bool hty
    | str => exact .str hty
    | var => exact .var hty
    | unary info op operand =>
      obtain ⟨t, ht, hrecorded⟩ := hpart operand (by simp [Node.children])
      rw [Node.verdict, hrecorded, Verdict.ty_ofUnary] at hty
      exact .unary ht hty
    | binary info op left right =>
      obtain ⟨t, ht, hrecorded⟩ := hpart left (by simp [Node.children])
      obtain ⟨u, hu, hrecorded'⟩ := hpart right (by simp [Node.children])
      rw [Node.verdict, hrecorded, hrecorded', Verdict.ty_ofBinary] at hty
      exact .binary ht hu hty
    | parens info inner =>
      obtain ⟨t, ht, hrecorded⟩ := hpart inner (by simp [Node.children])
      rw [Node.verdict, hrecorded] at hty
      exact .parens ht hty
  | stmt s =>
    cases s with
    | assign info name value valid =>
      obtain ⟨t, ht, -⟩ := hpart value (by simp [Node.children])
      exact coherent_assign h ht
    | print info operand =>
      obtain ⟨t, ht, hrecorded⟩ := hpart operand (by simp [Node.children])
      rw [Node.verdict, hrecorded, Verdict.ty_ofPrint] at hty
      exact .print ht hty
    | loop info condition body =>
      obtain ⟨t, ht, -⟩ := hpart condition (by simp [Node.children])
      exact coherent_guarded h rfl ht
    | ifThen info condition thenBlock =>
      obtain ⟨t, ht, -⟩ := hpart condition (by simp [Node.children])
      exact coherent_guarded h rfl ht
    | ifElse info condition thenBlock elseBlock =>
      obtain ⟨t, ht, -⟩ := hpart condition (by simp [Node.children])
      exact coherent_guarded h rfl ht
  | decl d =>
    refine coherent_decl h fun init hinit => hparts (.expr init) ?_
    exact List.mem_map_of_mem (Option.mem_toList.mpr hinit)

end Step

/-- **A whole check.** -/
theorem Tree.coherent_check (table : SymbolTable) (tree : Tree) {node : Node}
    (h : (tree.check table).node.Contains node) : node.Coherent := by
  have hmem := Tree.mem_postorder_iff.mpr h
  rw [← map_node_steps table (tree.check table).node.postorder] at hmem
  obtain ⟨step, hstep, rfl⟩ := List.mem_map.mp hmem
  refine Step.coherent ((tree.replays_check table).annotated step hstep) fun child hchild => ?_
  exact tree.resolved_check table child (.child h hchild)

/-! ## Assignments and the tables around them -/

/-- An assignment, and the table that it is checked against. -/
structure Encounter where
  before : SymbolTable
  stmt : Stmt

/-- What checking the assignment gives: the annotated assignment, and the table right after it. -/
def Encounter.outcome (encounter : Encounter) : Outcome Stmt :=
  encounter.stmt.check encounter.before

mutual

/-- The assignments of a statement as its check comes to them. -/
def Stmt.encounters (table : SymbolTable) : Stmt → List Encounter
  | .assign info name value valid => [⟨table, .assign info name value valid⟩]
  | .print _ _ => []
  | .loop _ _ body => Block.encounters table body
  | .ifThen _ _ thenBlock => Block.encounters table thenBlock
  | .ifElse _ _ thenBlock elseBlock =>
    Block.encounters table thenBlock
      ++ Block.encounters (Block.check table thenBlock).table elseBlock

def Block.encounters (table : SymbolTable) : List Stmt → List Encounter
  | [] => []
  | stmt :: rest => stmt.encounters table ++ Block.encounters (stmt.check table).table rest

end

/-- The table once the declarations of a tree are checked. -/
def Tree.tableAfterDecls (table : SymbolTable) : Tree → SymbolTable
  | .expr _ | .stmt _ | .block _ => table
  | .decl d => (d.check table).table
  | .script s => (Decl.checkAll table s.decls).table

def Tree.encounters (table : SymbolTable) : Tree → List Encounter
  | .expr _ | .decl _ => []
  | .stmt s => s.encounters table
  | .block b => Block.encounters table b
  | .script s => Block.encounters (Decl.checkAll table s.decls).table s.stmts

/-- The encounters lead from the first table to the last: each starts where the one before ends. -/
inductive Encounter.Linked : SymbolTable → List Encounter → SymbolTable → Prop where
  | nil {table : SymbolTable} : Linked table [] table
  | cons {encounter : Encounter} {rest : List Encounter} {last : SymbolTable}
      (hrest : Linked encounter.outcome.table rest last) :
      Linked encounter.before (encounter :: rest) last

/-- Linked encounters that meet at a table are linked. -/
theorem Encounter.Linked.append {first middle last : SymbolTable} {earlier later : List Encounter}
    (hearlier : Linked first earlier middle) (hlater : Linked middle later last) :
    Linked first (earlier ++ later) last := by
  induction hearlier with
  | nil => exact hlater
  | cons _ ih => exact .cons (ih hlater)

mutual

/-- The encounters of a statement lead to the table that its check leaves. -/
theorem Stmt.linked_encounters (table : SymbolTable) : ∀ stmt : Stmt,
    Encounter.Linked table (stmt.encounters table) (stmt.check table).table
  | .assign info name value valid =>
    @Encounter.Linked.cons ⟨table, .assign info name value valid⟩ [] _ .nil
  | .print .. => .nil
  | .loop _ _ body => Block.linked_encounters table body
  | .ifThen _ _ thenBlock => Block.linked_encounters table thenBlock
  | .ifElse _ _ thenBlock elseBlock =>
    (Block.linked_encounters table thenBlock).append
      (Block.linked_encounters (Block.check table thenBlock).table elseBlock)

theorem Block.linked_encounters (table : SymbolTable) : ∀ block : List Stmt,
    Encounter.Linked table (Block.encounters table block) (Block.check table block).table
  | [] => .nil
  | stmt :: rest =>
    (stmt.linked_encounters table).append (Block.linked_encounters (stmt.check table).table rest)

end

/-- Behind the declarations, the encounters of a tree lead to the table that its check leaves. -/
theorem Tree.linked_encounters (table : SymbolTable) (tree : Tree) :
    Encounter.Linked (tree.tableAfterDecls table) (tree.encounters table)
      (tree.check table).table := by
  cases tree with
  | expr | decl => exact .nil
  | stmt s => exact s.linked_encounters table
  | block b => exact Block.linked_encounters table b
  | script s => exact Block.linked_encounters _ s.stmts

/-- The assignments of a tree, at whatever depth, in source order. -/
def Tree.assignments : Tree → List Stmt
  | .expr _ | .decl _ => []
  | .stmt s => s.assignments
  | .block b => Block.assignments b
  | .script s => Block.assignments s.stmts

mutual

/-- The assignments of the annotated statement are what the encounters come to. -/
theorem Stmt.assignments_check (table : SymbolTable) : ∀ stmt : Stmt,
    (stmt.check table).node.assignments
      = (stmt.encounters table).map fun encounter => encounter.outcome.node
  | .assign .. => rfl
  | .print .. => rfl
  | .loop _ _ body => Block.assignments_check table body
  | .ifThen _ _ thenBlock => Block.assignments_check table thenBlock
  | .ifElse _ _ thenBlock elseBlock => by
    have hthen := Block.assignments_check table thenBlock
    have helse := Block.assignments_check (Block.check table thenBlock).table elseBlock
    rw [Stmt.encounters, List.map_append, ← hthen, ← helse]
    rfl

theorem Block.assignments_check (table : SymbolTable) : ∀ block : List Stmt,
    Block.assignments (Block.check table block).node
      = (Block.encounters table block).map fun encounter => encounter.outcome.node
  | [] => rfl
  | stmt :: rest => by
    rw [Block.encounters, List.map_append, ← stmt.assignments_check table,
      ← Block.assignments_check (stmt.check table).table rest]
    rfl

end

/-- The assignments of a checked tree are those of the tree, each checked against its own table. -/
theorem Tree.assignments_check (table : SymbolTable) (tree : Tree) :
    (tree.check table).node.assignments
      = (tree.encounters table).map fun encounter => encounter.outcome.node := by
  cases tree with
  | expr | decl => rfl
  | stmt s => exact s.assignments_check table
  | block b => exact Block.assignments_check table b
  | script s => exact Block.assignments_check _ s.stmts

/-- A valid assignment has the type of its value, and its variable has this type before and
after. -/
theorem Encounter.lookup_of_valid {encounter : Encounter} {info : NodeInfo} {name : String}
    {value : Expr} (h : encounter.outcome.node = .assign info name value true) :
    ∃ ty, info.ty = some ty ∧ value.ty? = some ty
      ∧ encounter.before.lookup name = some ty ∧ encounter.outcome.table.lookup name = some ty := by
  obtain ⟨before, stmt⟩ := encounter
  cases stmt with
  | assign info' name' value' valid' =>
    obtain ⟨rfl, rfl, rfl, hvalid⟩ := Stmt.assign.inj h
    obtain ⟨ty, hok⟩ := Verdict.isValid_iff.mp hvalid
    obtain ⟨hfound, hvalue, -⟩ := Verdict.ofAssign_eq_ok_iff.mp hok
    refine ⟨ty, ?_, ?_, hfound, ?_⟩
    · show some (Verdict.ofAssign name' (before.lookup name') (value'.check before).ty).ty = some ty
      rw [hok]
      rfl
    · rw [Expr.ty?_check, hvalue]
    · show (if (Verdict.ofAssign name' (before.lookup name') (value'.check before).ty).isValid
        then before else before.poison name').lookup name' = some ty
      rw [hvalid, if_pos rfl]
      exact hfound
  | print | loop | ifThen | ifElse => cases h

/-! ## Reports that quote types -/

/-- The categories whose messages quote types of the nodes below. -/
def Category.quotesTypes : Category → Bool
  | .invalidNegation | .invalidBinaryOp | .conditionNotBool => true
  | _ => false

/-- What the types recorded below an operator or a condition would have its report say. -/
def Node.quotation? : Node → Option (Category × String)
  | .expr (.unary _ op operand) =>
    some (.invalidNegation, "cannot apply " ++ op.symbol ++ " to " ++ operand.recordedTy.name)
  | .expr (.binary _ op left right) =>
    some (.invalidBinaryOp, "cannot apply " ++ op.symbol ++ " to " ++ left.recordedTy.name
      ++ " and " ++ right.recordedTy.name)
  | .stmt s => s.condition?.map fun condition =>
    (.conditionNotBool, "expression " ++ condition.text ++ " is " ++ condition.recordedTy.name
      ++ ", not Bool")
  | _ => none

/-- The report on an operator or a condition, if it is typed `Ty.error`. -/
def Node.typeReport? (node : Node) : Option Entry :=
  if node.ty? = some .error then
    node.quotation?.map fun quotation =>
      { text := node.text, span := node.span, category := quotation.1, message := quotation.2 }
  else none

namespace Step

/-- A node whose violations are of other categories has nothing to quote. -/
theorem filter_entries_of_silent {step : Step} (hquotation : step.node.quotation? = none)
    (herror : ∀ violation, step.verdict = .error violation →
      violation.category.quotesTypes = false) :
    step.entries.filter (·.category.quotesTypes) = step.node.typeReport?.toList := by
  have hreport : step.node.typeReport? = none := by
    rw [Node.typeReport?, hquotation, Option.map_none, ite_self]
  rw [hreport, List.filter_eq_nil_iff.mpr]
  · rfl
  · intro entry hentry
    unfold Step.entries at hentry
    cases hverdict : step.verdict with
    | ok ty => simp [hverdict] at hentry
    | error violation =>
      rw [hverdict, Verdict.entries_error, List.mem_singleton] at hentry
      rw [hentry, Bool.not_eq_true]
      exact herror violation hverdict

/-- A node with something to quote is reported with its quotation, if its rule denies it a type. -/
theorem filter_entries_of_quotation {step : Step} {category : Category} {message : String}
    (h : step.Annotated) (hquotation : step.node.quotation? = some (category, message))
    (hquotes : category.quotesTypes = true) (hok : step.verdict ≠ .ok .error)
    (herror : ∀ violation, step.verdict = .error violation →
      violation.category = category ∧ violation.message = message) :
    step.entries.filter (·.category.quotesTypes) = step.node.typeReport?.toList := by
  rw [Node.typeReport?, h.ty?, hquotation, Step.entries]
  cases hverdict : step.verdict with
  | ok ty =>
    have hty : ty ≠ .error := fun heq => hok (heq ▸ hverdict)
    rw [Verdict.ty_ok, if_neg (fun heq => hty (Option.some.inj heq))]
    rfl
  | error violation =>
    obtain ⟨rfl, rfl⟩ := herror violation hverdict
    rw [Verdict.ty_error, if_pos rfl, Verdict.entries_error]
    exact List.filter_cons_of_pos hquotes

/-- On a condition that is no `Ty.bool` the log says what its recorded type would have it say, and
nothing on any other. -/
theorem filter_entries_condition {table : SymbolTable} {s : Stmt} {condition : Expr}
    (h : Annotated ⟨table, .stmt s⟩) (hguard : s.condition? = some condition) :
    (entries ⟨table, .stmt s⟩).filter (·.category.quotesTypes)
      = (Node.stmt s).typeReport?.toList := by
  have hverdict : verdict ⟨table, .stmt s⟩
      = .ofCondition condition.text condition.recordedTy := Node.verdict_of_condition? hguard table
  have hquotation : (Node.stmt s).quotation? = some (.conditionNotBool, "expression "
      ++ condition.text ++ " is " ++ condition.recordedTy.name ++ ", not Bool") := by
    rw [Node.quotation?, hguard]
    rfl
  refine filter_entries_of_quotation h hquotation rfl (fun hok => ?_) fun violation hviolation => ?_
  · rw [hverdict] at hok
    exact nomatch (Verdict.ofCondition_eq_ok_iff.mp hok).2
  · rw [hverdict] at hviolation
    rw [Verdict.violation_of_ofCondition hviolation]
    exact ⟨rfl, rfl⟩

/-- **One step.** Of what closing a node reports, the part that quotes types is what the types
recorded below the node call for. -/
theorem filter_entries {step : Step} (h : step.Annotated) :
    step.entries.filter (·.category.quotesTypes) = step.node.typeReport?.toList := by
  obtain ⟨table, node⟩ := step
  cases node with
  | expr e =>
    cases e with
    | int | bool | str | parens => exact filter_entries_of_silent rfl nofun
    | var info name =>
      refine filter_entries_of_silent rfl fun violation hviolation => ?_
      rw [(Verdict.category_of_ofVariable hviolation).2]
      rfl
    | unary info op operand =>
      refine filter_entries_of_quotation h rfl rfl (fun hok => ?_) fun violation hviolation => ?_
      · exact UnaryOp.resultTy?_ne_error (Verdict.ofUnary_eq_ok_iff.mp hok) rfl
      · rw [Verdict.violation_of_ofUnary hviolation]
        exact ⟨rfl, rfl⟩
    | binary info op left right =>
      refine filter_entries_of_quotation h rfl rfl (fun hok => ?_) fun violation hviolation => ?_
      · exact BinaryOp.resultTy?_ne_error (Verdict.ofBinary_eq_ok_iff.mp hok) rfl
      · rw [Verdict.violation_of_ofBinary hviolation]
        exact ⟨rfl, rfl⟩
  | stmt s =>
    cases s with
    | assign info name value valid =>
      refine filter_entries_of_silent rfl fun violation hviolation => ?_
      rw [Verdict.category_of_ofAssign hviolation]
      split <;> rfl
    | print info operand =>
      refine filter_entries_of_silent rfl fun violation hviolation => ?_
      rw [Verdict.category_of_ofPrint hviolation]
      rfl
    | loop | ifThen | ifElse => exact filter_entries_condition h rfl
  | decl d =>
    refine filter_entries_of_silent rfl fun violation hviolation => ?_
    rw [Verdict.category_of_ofDecl hviolation]
    split <;> rfl

end Step

/-- **A whole check.** -/
theorem Tree.filter_entries_check (table : SymbolTable) (tree : Tree) :
    (tree.check table).entries.filter (·.category.quotesTypes)
      = (tree.check table).node.postorder.filterMap Node.typeReport? := by
  have hrun := tree.replays_check table
  have hsteps : ∀ step ∈ steps table (tree.check table).node.postorder,
      step.entries.filter (·.category.quotesTypes) = step.node.typeReport?.toList :=
    fun step hstep => Step.filter_entries (hrun.annotated step hstep)
  calc
    (tree.check table).entries.filter (·.category.quotesTypes)
      = (steps table (tree.check table).node.postorder).flatMap
          (fun step => step.entries.filter (·.category.quotesTypes)) := by
        rw [← hrun.entries_eq, List.filter_flatMap]
    _ = (steps table (tree.check table).node.postorder).flatMap
          (fun step => step.node.typeReport?.toList) := List.flatMap_congr hsteps
    _ = ((steps table (tree.check table).node.postorder).map Step.node).filterMap
          Node.typeReport? := by
        rw [List.filterMap_eq_flatMap_toList, List.flatMap_map]
    _ = (tree.check table).node.postorder.filterMap Node.typeReport? := by
        rw [map_node_steps]

/-! ## Coherence -/

/-- **Annotations fit together and are quoted as they stand.** A checked tree is the given one up to
annotations, and every node of it is coherent. Its assignments are those of the tree, each checked
against the table that the one before left behind; a valid one has the type of its value, and its
variable is found with this type right before and right after it. The reports on operators and
conditions, in the order of the log, are those that the types recorded in the checked tree call
for. -/
theorem Tree.check_coherent (table : SymbolTable) (tree : Tree) :
    (tree.check table).node.erase = tree.erase
      ∧ (∀ node, (tree.check table).node.Contains node → node.Coherent)
      ∧ ((tree.check table).node.assignments
        = (tree.encounters table).map fun encounter => encounter.outcome.node)
      ∧ Encounter.Linked (tree.tableAfterDecls table) (tree.encounters table)
        (tree.check table).table
      ∧ (∀ encounter ∈ tree.encounters table, ∀ (info : NodeInfo) (name : String) (value : Expr),
        encounter.outcome.node = .assign info name value true →
          ∃ ty, info.ty = some ty ∧ value.ty? = some ty
            ∧ encounter.before.lookup name = some ty
            ∧ encounter.outcome.table.lookup name = some ty)
      ∧ ((tree.check table).entries.filter (·.category.quotesTypes)
        = (tree.check table).node.postorder.filterMap Node.typeReport?) := by
  refine ⟨tree.erase_check table, fun node hnode => tree.coherent_check table hnode,
    tree.assignments_check table, tree.linked_encounters table, ?_,
    tree.filter_entries_check table⟩
  exact fun encounter _ info name value hvalid => Encounter.lookup_of_valid hvalid

/-- The statement `if x { x = 1 }`. -/
def guardedAssignment : Stmt :=
  .ifThen {} (.ofName "x") [.assign {} "x" (.ofInt 1) false]

/-- With an integer `x` the assignment is valid and keeps the type of `x`, and the report on the
condition quotes that type. -/
theorem Tree.check_coherent_guarded :
    (Tree.stmt guardedAssignment).encounters (.ofList [("x", .int)])
        = [⟨.ofList [("x", .int)], .assign {} "x" (.ofInt 1) false⟩]
      ∧ (Stmt.check (.ofList [("x", .int)]) (.assign {} "x" (.ofInt 1) false)).node
        = .assign { ty := some .int } "x" (.int { ty := some .int } 1) true
      ∧ (Stmt.check (.ofList [("x", .int)]) (.assign {} "x" (.ofInt 1) false)).table.lookup "x"
        = some .int
      ∧ (((Tree.stmt guardedAssignment).check (.ofList [("x", .int)])).entries.filter
          (·.category.quotesTypes)).map Entry.message = ["expression x is Int, not Bool"] := by
  obtain ⟨-, -, -, -, hvalid, hreports⟩ :=
    Tree.check_coherent (.ofList [("x", .int)]) (.stmt guardedAssignment)
  have hencounters : (Tree.stmt guardedAssignment).encounters (.ofList [("x", .int)])
      = [⟨.ofList [("x", .int)], .assign {} "x" (.ofInt 1) false⟩] := rfl
  have hnode : (Stmt.check (.ofList [("x", .int)]) (.assign {} "x" (.ofInt 1) false)).node
      = .assign { ty := some .int } "x" (.int { ty := some .int } 1) true := by decide
  rw [hencounters] at hvalid
  obtain ⟨ty, hty, -, -, hafter⟩ := hvalid _ (List.mem_singleton.mpr rfl) _ _ _ hnode
  refine ⟨hencounters, hnode, hafter.trans hty.symm, ?_⟩
  rw [hreports]
  decide

end ScriptTyping

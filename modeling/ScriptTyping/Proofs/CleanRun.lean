import Mathlib.Tactic.TFAE
import ScriptTyping.Proofs.Failures
import ScriptTyping.Proofs.Judgement
import ScriptTyping.Proofs.Resolution

/-!
# Clean runs

A run that leaves the log empty is a proof that the script is well typed, and every well typed
script has such a run. The run threads one table through all statements and may poison names on its
way, while the judgement has a single environment. The two meet because a statement that adds
nothing to the log leaves the table as it found it.

* **`Expr.noError_check_iff`**: an error anywhere in an expression is an error at its root.
* **`Stmt.table_eq_of_silent`**: a statement without an entry leaves the table alone.
* **`Stmt.wellTyped_iff_silent`**, **`Decl.declares_iff_silent`**: no entry means well typed.
* **`Script.run_clean_tfae`**: an empty log, the judgement and the absence of `Ty.error` from the
  checked script are the same thing.
-/

namespace ScriptTyping

/-! ## Nodes without an error -/

def NoError (nodes : List Node) : Prop :=
  ∀ node ∈ nodes, node.ty? ≠ some .error

@[simp] theorem noError_nil : NoError [] := List.forall_mem_nil _

@[simp] theorem noError_append {first second : List Node} :
    NoError (first ++ second) ↔ NoError first ∧ NoError second :=
  List.forall_mem_append

theorem noError_singleton {node : Node} : NoError [node] ↔ node.ty? ≠ some .error :=
  List.forall_mem_singleton

/-! ## Expressions -/

theorem Expr.noError_root_iff (table : SymbolTable) (expr : Expr) :
    NoError [.expr (expr.check table).expr] ↔ (expr.check table).ty ≠ .error := by
  rw [noError_singleton, Node.ty?, Expr.ty?_check, ne_eq, Option.some.injEq]

/-- An error anywhere in a checked expression spreads to its root. -/
theorem Expr.noError_check_iff (table : SymbolTable) (expr : Expr) :
    NoError (expr.check table).expr.postorder ↔ (expr.check table).ty ≠ .error := by
  rw [Expr.postorder_check, noError_append, Expr.noError_root_iff]
  refine and_iff_right_of_imp fun hty => ?_
  -- what is left: if the root has a type, then so have its operands
  induction expr with
  | int | bool | str | var => exact noError_nil
  | unary info op operand ih =>
    have hoperand : (operand.check table).ty ≠ .error := fun herror => hty (by
      rw [Expr.check, Expr.close, herror, Verdict.ty_ofUnary_error])
    rw [Expr.checkedParts, Expr.postorder_check, noError_append, Expr.noError_root_iff]
    exact ⟨ih hoperand, hoperand⟩
  | binary info op left right ihl ihr =>
    have hleft : (left.check table).ty ≠ .error := fun herror => hty (by
      rw [Expr.check, Expr.close, herror, Verdict.ty_ofBinary_error_left])
    have hright : (right.check table).ty ≠ .error := fun herror => hty (by
      rw [Expr.check, Expr.close, herror, Verdict.ty_ofBinary_error_right])
    rw [Expr.checkedParts, Expr.postorder_check, Expr.postorder_check]
    simp only [noError_append, Expr.noError_root_iff]
    exact ⟨⟨ihl hleft, hleft⟩, ihr hright, hright⟩
  | parens info inner ih =>
    rw [Expr.checkedParts, Expr.postorder_check, noError_append, Expr.noError_root_iff]
    exact ⟨ih hty, hty⟩

/-- Where an expression has a type, no part of it has `Ty.error`. -/
theorem HasType.noError {table : SymbolTable} {expr : Expr} {ty : Ty}
    (h : HasType table.env expr ty) : NoError (expr.check table).expr.postorder := by
  obtain ⟨rfl, hty⟩ := (Expr.hasType_iff table expr ty).mp h
  exact (Expr.noError_check_iff table expr).mpr hty

/-- Where an expression has a type, nothing is reported about it or a part of it. -/
theorem HasType.entries_eq_nil {table : SymbolTable} {expr : Expr} {ty : Ty}
    (h : HasType table.env expr ty) : (expr.check table).entries = [] :=
  Tree.entries_eq_nil_of_no_error (.expr expr) fun node hnode =>
    h.noError node (Tree.mem_postorder_iff.mpr hnode)

/-! ## What a silent statement says

A statement is silent when its parts are and its rule accepts them. A variable that is poisoned
earlier types its own node as `Ty.error` without an entry, but no rule for statements accepts that
type, so the parts of a silent statement are well typed and not only silent. -/

/-- Nothing is reported about an assignment exactly if its name and its value have one type. -/
theorem Stmt.silent_assign_iff {table : SymbolTable} {info : NodeInfo} {name : String}
    {value : Expr} {valid : Bool} :
    ((Stmt.assign info name value valid).check table).entries = [] ↔
      ∃ ty, table.env name = some ty ∧ HasType table.env value ty := by
  simp only [Stmt.check, Stmt.close, List.append_eq_nil_iff, Verdict.entries_eq_nil_iff,
    Verdict.isValid_iff, Verdict.ofAssign_eq_ok_iff]
  refine ⟨fun h => ?_, fun h => ?_⟩
  · obtain ⟨-, ty, hname, hvalue, hty⟩ := h
    exact ⟨ty, SymbolTable.env_eq_some_iff.mpr ⟨hname, hty⟩,
      (Expr.hasType_iff table value ty).mpr ⟨hvalue, hty⟩⟩
  · obtain ⟨ty, hname, hvalue⟩ := h
    obtain ⟨hfound, hty⟩ := SymbolTable.env_eq_some_iff.mp hname
    exact ⟨hvalue.entries_eq_nil, ty, hfound, ((Expr.hasType_iff table value ty).mp hvalue).1, hty⟩

/-- Nothing is reported about a print statement exactly if its operand has a type, whichever. -/
theorem Stmt.silent_print_iff {table : SymbolTable} {info : NodeInfo} {operand : Expr} :
    ((Stmt.print info operand).check table).entries = [] ↔ ∃ ty, HasType table.env operand ty := by
  simp only [Stmt.check, Stmt.close, List.append_eq_nil_iff, Verdict.entries_eq_nil_iff,
    Verdict.isValid_iff, Verdict.ofPrint_eq_ok_iff]
  refine ⟨fun h => ?_, fun h => ?_⟩
  · obtain ⟨-, ty, hoperand⟩ := h
    exact ⟨ty, (Expr.hasType_iff table operand ty).mpr hoperand⟩
  · obtain ⟨ty, hoperand⟩ := h
    exact ⟨hoperand.entries_eq_nil, ty, (Expr.hasType_iff table operand ty).mp hoperand⟩

/-- The part that all statements with a condition share; `inner` is what their blocks add. -/
theorem Stmt.silent_condition_iff {table after : SymbolTable} {condition : Expr}
    {inner : List Entry} {text : String} {stmt : Stmt} :
    (stmt.close (.ofCondition text (condition.check table).ty) after
        ((condition.check table).entries ++ inner)).entries = [] ↔
      HasType table.env condition .bool ∧ inner = [] := by
  simp only [Stmt.close, List.append_eq_nil_iff, Verdict.entries_eq_nil_iff, Verdict.isValid_iff,
    Verdict.ofCondition_eq_ok_iff, exists_and_left, exists_eq, and_true]
  refine ⟨fun h => ?_, fun h => ?_⟩
  · obtain ⟨⟨-, hinner⟩, hcondition⟩ := h
    exact ⟨(Expr.hasType_iff table condition .bool).mpr ⟨hcondition, nofun⟩, hinner⟩
  · obtain ⟨hcondition, hinner⟩ := h
    exact ⟨⟨hcondition.entries_eq_nil, hinner⟩,
      ((Expr.hasType_iff table condition .bool).mp hcondition).1⟩

/-- Nothing is reported about a loop exactly if its condition is boolean and its body is fine. -/
theorem Stmt.silent_loop_iff {table : SymbolTable} {info : NodeInfo} {condition : Expr}
    {body : List Stmt} :
    ((Stmt.loop info condition body).check table).entries = [] ↔
      HasType table.env condition .bool ∧ (Block.check table body).entries = [] := by
  rw [Stmt.check, Stmt.silent_condition_iff]

theorem Stmt.silent_ifThen_iff {table : SymbolTable} {info : NodeInfo} {condition : Expr}
    {thenBlock : List Stmt} :
    ((Stmt.ifThen info condition thenBlock).check table).entries = [] ↔
      HasType table.env condition .bool ∧ (Block.check table thenBlock).entries = [] := by
  rw [Stmt.check, Stmt.silent_condition_iff]

/-- With an alternative, which is checked against the table that the first block left behind. -/
theorem Stmt.silent_ifElse_iff {table : SymbolTable} {info : NodeInfo} {condition : Expr}
    {thenBlock elseBlock : List Stmt} :
    ((Stmt.ifElse info condition thenBlock elseBlock).check table).entries = [] ↔
      HasType table.env condition .bool ∧ (Block.check table thenBlock).entries = []
        ∧ (Block.check (Block.check table thenBlock).table elseBlock).entries = [] := by
  rw [Stmt.check, List.append_assoc, Stmt.silent_condition_iff, List.append_eq_nil_iff]

/-! ## A silent statement leaves the table alone -/

mutual

/-- **The invariant of a silent run.** A name is poisoned only by an assignment that is reported, so
a statement without reports leaves the table as it was. -/
theorem Stmt.table_eq_of_silent {table : SymbolTable} (stmt : Stmt)
    (h : (stmt.check table).entries = []) : (stmt.check table).table = table := by
  cases stmt with
  | assign info name value valid =>
    -- a name is poisoned only together with an entry
    simp only [Stmt.check, Stmt.close, List.append_eq_nil_iff, Verdict.entries_eq_nil_iff] at h ⊢
    rw [if_pos h.2]
  | print info operand => rfl
  | loop info condition body =>
    exact Block.table_eq_of_silent body (Stmt.silent_loop_iff.mp h).2
  | ifThen info condition thenBlock =>
    exact Block.table_eq_of_silent thenBlock (Stmt.silent_ifThen_iff.mp h).2
  | ifElse info condition thenBlock elseBlock =>
    obtain ⟨-, hthen, helse⟩ := Stmt.silent_ifElse_iff.mp h
    -- the table between the two blocks is the one at the start
    have hmiddle := Block.table_eq_of_silent thenBlock hthen
    rw [hmiddle] at helse
    show (Block.check (Block.check table thenBlock).table elseBlock).table = table
    rw [hmiddle]
    exact Block.table_eq_of_silent elseBlock helse

/-- So all statements of a silent block are checked against the same table. -/
theorem Block.table_eq_of_silent {table : SymbolTable} (block : List Stmt)
    (h : (Block.check table block).entries = []) : (Block.check table block).table = table := by
  cases block with
  | nil => rfl
  | cons stmt rest =>
    obtain ⟨hstmt, hrest⟩ := List.append_eq_nil_iff.mp h
    have hmiddle := Stmt.table_eq_of_silent stmt hstmt
    rw [hmiddle] at hrest
    show (Block.check (stmt.check table).table rest).table = table
    rw [hmiddle]
    exact Block.table_eq_of_silent rest hrest

end

/-- In a silent block every statement is met with the table that the block was met with. -/
theorem Block.silent_cons_iff {table : SymbolTable} {stmt : Stmt} {rest : List Stmt} :
    (Block.check table (stmt :: rest)).entries = [] ↔
      (stmt.check table).entries = [] ∧ (Block.check table rest).entries = [] := by
  rw [Block.check, List.append_eq_nil_iff, and_congr_right_iff]
  intro hstmt
  rw [Stmt.table_eq_of_silent stmt hstmt]

/-! ## Silent statements are the well typed ones -/

mutual

/-- **Statements: the judgement and the check agree.** By induction on the statement, where the
invariant above lets both blocks of a conditional be judged in one environment. -/
theorem Stmt.wellTyped_iff_silent (table : SymbolTable) (stmt : Stmt) :
    stmt.WellTyped table.env ↔ (stmt.check table).entries = [] := by
  cases stmt with
  | assign info name value valid =>
    rw [Stmt.silent_assign_iff]
    refine ⟨fun h => ?_, fun ⟨ty, hname, hvalue⟩ => .assign hname hvalue⟩
    cases h with
    | assign hname hvalue => exact ⟨_, hname, hvalue⟩
  | print info operand =>
    rw [Stmt.silent_print_iff]
    refine ⟨fun h => ?_, fun ⟨ty, hoperand⟩ => .print hoperand⟩
    cases h with
    | print hoperand => exact ⟨_, hoperand⟩
  | loop info condition body =>
    rw [Stmt.silent_loop_iff, ← Block.wellTyped_iff_silent table body]
    refine ⟨fun h => ?_, fun ⟨hcondition, hbody⟩ => .loop hcondition hbody⟩
    cases h with
    | loop hcondition hbody => exact ⟨hcondition, hbody⟩
  | ifThen info condition thenBlock =>
    rw [Stmt.silent_ifThen_iff, ← Block.wellTyped_iff_silent table thenBlock]
    refine ⟨fun h => ?_, fun ⟨hcondition, hthen⟩ => .ifThen hcondition hthen⟩
    cases h with
    | ifThen hcondition hthen => exact ⟨hcondition, hthen⟩
  | ifElse info condition thenBlock elseBlock =>
    have hthen_iff := Block.wellTyped_iff_silent table thenBlock
    have helse_iff := Block.wellTyped_iff_silent table elseBlock
    rw [Stmt.silent_ifElse_iff]
    -- the alternative is checked against the table that the first block leaves behind
    refine ⟨fun h => ?_, fun ⟨hcondition, hthen, helse⟩ => ?_⟩
    · cases h with
      | ifElse hcondition hthen helse =>
        have hsilent := hthen_iff.mp hthen
        rw [Block.table_eq_of_silent thenBlock hsilent]
        exact ⟨hcondition, hsilent, helse_iff.mp helse⟩
    · rw [Block.table_eq_of_silent thenBlock hthen] at helse
      exact .ifElse hcondition (hthen_iff.mpr hthen) (helse_iff.mpr helse)

/-- Blocks are judged statement by statement, although they are checked with a table that moves. -/
theorem Block.wellTyped_iff_silent (table : SymbolTable) (block : List Stmt) :
    (∀ stmt ∈ block, stmt.WellTyped table.env) ↔ (Block.check table block).entries = [] := by
  cases block with
  | nil => exact iff_of_true (List.forall_mem_nil _) rfl
  | cons stmt rest =>
    rw [List.forall_mem_cons, Block.silent_cons_iff, Stmt.wellTyped_iff_silent table stmt,
      Block.wellTyped_iff_silent table rest]

end

/-! ## Silent statements have no error -/

/-- Nothing excuses a node that is neither a variable nor a pair of parentheses: if it is not
reported, its type is not `Ty.error`. -/
theorem ty?_ne_error_of_failures_eq_nil {declared : String → Bool} {node : Node}
    (hvocal : Visit.isSilent ⟨declared, node⟩ = false)
    (h : failures (node.postorder.map (Visit.mk declared)) = []) : node.ty? ≠ some .error := by
  intro herror
  rw [failures, List.map_eq_nil_iff, List.filter_eq_nil_iff] at h
  refine h ⟨declared, node⟩ (List.mem_map_of_mem node.self_mem_postorder) ?_
  simp [Visit.fails, herror, hvocal]

mutual

/-- A statement without reports has no node of type `Ty.error`: what could have it silently is a
poisoned variable or parentheses, and these make the node around them fail. -/
theorem Stmt.noError_of_silent {table : SymbolTable} (stmt : Stmt)
    (h : (stmt.check table).entries = []) : NoError (stmt.check table).node.postorder := by
  have hmarks := Stmt.marks_check table stmt
  rw [h, marks_nil] at hmarks
  have hroot : NoError [.stmt (stmt.check table).node] :=
    noError_singleton.mpr (ty?_ne_error_of_failures_eq_nil rfl hmarks.symm)
  rw [Stmt.postorder_check, noError_append]
  refine ⟨?_, hroot⟩
  -- expressions may hide an error from the log, so their types come from the judgement
  cases stmt with
  | assign info name value valid =>
    obtain ⟨ty, -, hvalue⟩ := Stmt.silent_assign_iff.mp h
    exact hvalue.noError
  | print info operand =>
    obtain ⟨ty, hoperand⟩ := Stmt.silent_print_iff.mp h
    exact hoperand.noError
  | loop info condition body =>
    obtain ⟨hcondition, hbody⟩ := Stmt.silent_loop_iff.mp h
    exact noError_append.mpr ⟨hcondition.noError, Block.noError_of_silent body hbody⟩
  | ifThen info condition thenBlock =>
    obtain ⟨hcondition, hthen⟩ := Stmt.silent_ifThen_iff.mp h
    exact noError_append.mpr ⟨hcondition.noError, Block.noError_of_silent thenBlock hthen⟩
  | ifElse info condition thenBlock elseBlock =>
    obtain ⟨hcondition, hthen, helse⟩ := Stmt.silent_ifElse_iff.mp h
    exact noError_append.mpr
      ⟨noError_append.mpr ⟨hcondition.noError, Block.noError_of_silent thenBlock hthen⟩,
        Block.noError_of_silent elseBlock helse⟩

theorem Block.noError_of_silent {table : SymbolTable} (block : List Stmt)
    (h : (Block.check table block).entries = []) :
    NoError (Block.postorder (Block.check table block).node) := by
  cases block with
  | nil => exact noError_nil
  | cons stmt rest =>
    obtain ⟨hstmt, hrest⟩ := List.append_eq_nil_iff.mp h
    exact noError_append.mpr ⟨stmt.noError_of_silent hstmt, Block.noError_of_silent rest hrest⟩

end

/-! ## Declarations -/

/-- Nothing is reported about a declaration exactly if its token names a type and its initialiser,
if it has one, has this type. -/
theorem Decl.silent_iff {table : SymbolTable} {decl : Decl} :
    (decl.check table).entries = [] ↔
      ∃ ty, TypeToken decl.typeToken ty ∧ ∀ init ∈ decl.init, HasType table.env init ty := by
  simp only [Decl.check, List.append_eq_nil_iff, Verdict.entries_eq_nil_iff, Verdict.isValid_iff,
    Verdict.ofDecl_eq_ok_iff, typeToken_iff]
  cases hinit : decl.init with
  | none => simp
  | some init =>
    simp only [Option.map_some, Option.getD_some, Option.mem_def, Option.some.injEq, forall_eq']
    refine ⟨fun h => ?_, fun h => ?_⟩
    · obtain ⟨-, ty, htoken, hty⟩ := h
      have hne := (Ty.ofToken?_eq_some_iff.mp htoken).1
      exact ⟨ty, htoken, (Expr.hasType_iff table init ty).mpr ⟨hty, hne⟩⟩
    · obtain ⟨ty, htoken, hvalue⟩ := h
      exact ⟨hvalue.entries_eq_nil, ty, htoken, ((Expr.hasType_iff table init ty).mp hvalue).1⟩

/-- A declaration in order binds its name to the type of its token. -/
theorem Decl.env_check {table : SymbolTable} {decl : Decl} {ty : Ty}
    (htoken : TypeToken decl.typeToken ty) (hinit : ∀ init ∈ decl.init, HasType table.env init ty) :
    (decl.check table).table.env = table.env.bind decl.name ty := by
  have htoken' := typeToken_iff.mp htoken
  have hverdict : Verdict.ofDecl decl.name decl.typeToken
      ((decl.init.map (Expr.check table)).map Expr.Checked.ty) = .ok ty := by
    rw [Verdict.ofDecl_eq_ok_iff]
    refine ⟨htoken', fun actual hactual => ?_⟩
    obtain ⟨checked, hchecked, rfl⟩ := Option.map_eq_some_iff.mp hactual
    obtain ⟨init, hmem, rfl⟩ := Option.map_eq_some_iff.mp hchecked
    exact ((Expr.hasType_iff table init ty).mp (hinit init hmem)).1
  rw [Decl.check, hverdict]
  exact table.env_define decl.name (Ty.ofToken?_eq_some_iff.mp htoken').1

/-- **Declarations: the judgement and the check agree,** also in the environment that they end
with. -/
theorem Decl.declares_iff_silent (table : SymbolTable) (decls : List Decl) (env : Env) :
    Decl.Declares table.env decls env ↔
      (Decl.checkAll table decls).entries = [] ∧ (Decl.checkAll table decls).table.env = env := by
  induction decls generalizing table with
  | nil =>
    refine ⟨fun h => ?_, fun h => ?_⟩
    · cases h
      exact ⟨rfl, rfl⟩
    · obtain ⟨-, rfl⟩ := h
      exact .nil
  | cons decl rest ih =>
    rw [Decl.checkAll, List.append_eq_nil_iff, and_assoc, ← ih, Decl.silent_iff]
    refine ⟨fun h => ?_, fun h => ?_⟩
    · cases h with
      | cons htoken hinit hrest =>
        rw [Decl.env_check htoken hinit]
        exact ⟨⟨_, htoken, hinit⟩, hrest⟩
    · obtain ⟨⟨ty, htoken, hinit⟩, hrest⟩ := h
      rw [Decl.env_check htoken hinit] at hrest
      exact .cons htoken hinit hrest

theorem Decl.noError_of_silent {table : SymbolTable} {decl : Decl}
    (h : (decl.check table).entries = []) : NoError (decl.check table).node.postorder := by
  have hmarks := Decl.marks_check table decl
  rw [h, marks_nil] at hmarks
  rw [Decl.postorder_check, noError_append]
  refine ⟨?_, noError_singleton.mpr (ty?_ne_error_of_failures_eq_nil rfl hmarks.symm)⟩
  obtain ⟨ty, -, hinit⟩ := Decl.silent_iff.mp h
  unfold Decl.checkedParts
  cases hdecl : decl.init with
  | none => exact noError_nil
  | some init => exact (hinit init hdecl).noError

theorem Decl.noError_checkAll {table : SymbolTable} {decls : List Decl}
    (h : (Decl.checkAll table decls).entries = []) :
    NoError ((Decl.checkAll table decls).node.flatMap Decl.postorder) := by
  induction decls generalizing table with
  | nil => exact noError_nil
  | cons decl rest ih =>
    obtain ⟨hdecl, hrest⟩ := List.append_eq_nil_iff.mp h
    rw [Decl.checkAll, List.flatMap_cons, noError_append]
    exact ⟨Decl.noError_of_silent hdecl, ih hrest⟩

/-! ## Scripts -/

/-- **Scripts: the judgement and the check agree.** -/
theorem Script.wellTyped_iff_silent (script : Script) :
    script.WellTyped ↔ (script.check .empty).entries = [] := by
  rw [Script.check, List.append_eq_nil_iff, Script.WellTyped, ← SymbolTable.env_empty]
  simp only [Decl.declares_iff_silent]
  rw [← Block.wellTyped_iff_silent]
  refine ⟨fun h => ?_, fun h => ?_⟩
  · obtain ⟨env, ⟨hdecls, rfl⟩, hstmts⟩ := h
    exact ⟨hdecls, hstmts⟩
  · obtain ⟨hdecls, hstmts⟩ := h
    exact ⟨_, ⟨hdecls, rfl⟩, hstmts⟩

/-- A script without reports has no node of type `Ty.error`. -/
theorem Script.noError_of_silent {table : SymbolTable} {script : Script}
    (h : (script.check table).entries = []) : NoError (script.check table).node.postorder := by
  obtain ⟨hdecls, hstmts⟩ := List.append_eq_nil_iff.mp h
  exact noError_append.mpr
    ⟨Decl.noError_checkAll hdecls, Block.noError_of_silent script.stmts hstmts⟩

/-- **Clean runs are the runs of well typed scripts.** For every script the following are the same:
its run ends with an empty log; it is well typed; no node of the checked script has the type
`Ty.error`. -/
theorem Script.run_clean_tfae (options : RunOptions) (script : Script) :
    List.TFAE
      [∃ session, (script.run options).result = .ok session ∧ session.log.entries = [],
        script.WellTyped,
        ∀ node, (Tree.script (script.run options).script).Contains node →
          node.ty? ≠ some .error] := by
  rw [script.run_result options, script.run_script options]
  tfae_have 1 ↔ 2 := by
    rw [script.wellTyped_iff_silent]
    refine ⟨fun h => ?_, fun h => ⟨_, rfl, h⟩⟩
    obtain ⟨session, hresult, hlog⟩ := h
    cases hresult
    exact hlog
  tfae_have 1 → 3 := by
    intro h node hnode
    obtain ⟨session, hresult, hlog⟩ := h
    cases hresult
    exact Script.noError_of_silent hlog node (Tree.mem_postorder_iff.mpr hnode)
  tfae_have 3 → 1 := by
    -- every entry of the log belongs to a node of type `Ty.error`
    intro hnodes
    exact ⟨_, rfl, Tree.entries_eq_nil_of_no_error (.script script) hnodes⟩
  tfae_finish

end ScriptTyping

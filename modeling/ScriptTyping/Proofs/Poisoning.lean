import ScriptTyping.Proofs.Replay
import ScriptTyping.Proofs.Resolution

/-!
# Poisoned names stay poisoned

Along the statements of a block a name is read and assigned many times, in branches, in loops and in
the values of assignments to itself. Whatever the nesting, what happens to it has one shape: it is
usable up to the first assignment that goes wrong, and of no use from there on.

* **`Step.Keeps`**, **`Step.Breaks`**, **`Step.Unusable`**: the three ways in which a step can treat
  the name it concerns, each with the annotation it leaves and what it reports.
* **`Step.Moves`**, **`Step.moves`**: what one step does to what the table finds for the name.
* **`History`**, **`Replays.history`**: what the steps of a whole run do to it, by induction over
  the run.
* **`Block.check_poisons_for_good`**: every block gives every name such a history.
-/

namespace ScriptTyping

/-- Whether the node reads the name or assigns it. -/
def Node.concerns (name : String) : Node → Bool
  | .expr (.var _ other) => other == name
  | .stmt (.assign _ other _ _) => other == name
  | _ => false

namespace Step

/-! ## How a step treats a name -/

/-- The step adds one entry for each of the violations, with the text and span of its own node. -/
def Reports (step : Step) (violations : List Violation) : Prop :=
  step.entries = violations.map fun violation => violation.entry step.node.text step.node.span

/-- The name is read with the type `ty`, or takes a value of this type. -/
inductive Keeps (name : String) (ty : Ty) (step : Step) : Prop where
  | reference {info : NodeInfo} (hnode : step.node = .expr (.var info name))
      (hty : info.ty = some ty) (hreports : step.Reports [])
  | assignment {info : NodeInfo} {value : Expr}
      (hnode : step.node = .stmt (.assign info name value true)) (hvalue : value.ty? = some ty)
      (hreports : step.Reports [])

/-- The name, of type `ty`, is assigned a value of another type. -/
inductive Breaks (name : String) (ty : Ty) (step : Step) : Prop where
  | assignment {info : NodeInfo} {value : Expr} {actual : Ty}
      (hnode : step.node = .stmt (.assign info name value false))
      (hvalue : value.ty? = some actual) (hother : actual ≠ ty)
      (hreports : step.Reports [.assignMismatch name ty actual])

/-- The name is of no use. Read, it has the type `Ty.error`; an assignment to it is refused whatever
the value is. -/
inductive Unusable (name : String) (onRead : List Violation) (onAssign : Violation) (step : Step) :
    Prop where
  | reference {info : NodeInfo} (hnode : step.node = .expr (.var info name))
      (hty : info.ty = some .error) (hreports : step.Reports onRead)
  | assignment {info : NodeInfo} {value : Expr}
      (hnode : step.node = .stmt (.assign info name value false))
      (hreports : step.Reports [onAssign])

/-- The name is declared, but an earlier violation took its type away. -/
def Poisoned (name : String) : Step → Prop :=
  Unusable name [] (.assignPoisoned name)

/-- No declaration introduced the name. -/
def Undeclared (name : String) : Step → Prop :=
  Unusable name [.undeclared name] (.assignUndeclared name)

/-- A node that is accepted adds nothing to the log. -/
theorem reports_of_ok {step : Step} {ty : Ty} (h : step.verdict = .ok ty) : step.Reports [] := by
  rw [Reports, entries, h]
  rfl

/-- A node that is refused adds one entry, with its own text and span. -/
theorem reports_of_error {step : Step} {violation : Violation}
    (h : step.verdict = .error violation) : step.Reports [violation] := by
  rw [Reports, entries, h]
  rfl

/-! ## One step -/

/-- `step.Moves name found found'`: the step concerns the name, which is found as `found` before and
as `found'` after it. -/
inductive Moves (name : String) (step : Step) : Option Ty → Option Ty → Prop where
  | undeclared (hstep : step.Undeclared name) : Moves name step none none
  | poisoned (hstep : step.Poisoned name) : Moves name step (some .error) (some .error)
  | keeps {ty : Ty} (hty : ty ≠ .error) (hstep : step.Keeps name ty) :
      Moves name step (some ty) (some ty)
  | breaks {ty : Ty} (hty : ty ≠ .error) (hstep : step.Breaks name ty) :
      Moves name step (some ty) (some .error)

/-- Reading a name leaves it as it is, and gives it the type that the table finds. -/
theorem moves_reference {table : SymbolTable} {info : NodeInfo} {name : String}
    (h : Annotated ⟨table, .expr (.var info name)⟩) :
    Moves name ⟨table, .expr (.var info name)⟩ (table.lookup name) (table.lookup name) := by
  have hty : info.ty = some (Verdict.ofVariable name (table.lookup name)).ty := h.ty?
  have hverdict : verdict ⟨table, .expr (.var info name)⟩
      = Verdict.ofVariable name (table.lookup name) := rfl
  cases hfound : table.lookup name with
  | none =>
    rw [hfound] at hty hverdict
    exact .undeclared (.reference rfl hty (reports_of_error hverdict))
  | some ty =>
    rw [hfound] at hty hverdict
    by_cases herror : ty = .error
    · subst herror
      exact .poisoned (.reference rfl hty (reports_of_ok hverdict))
    · exact .keeps herror (.reference rfl hty (reports_of_ok hverdict))

/-- An assignment that is refused poisons its name, if there is such a name. -/
theorem lookup_after_assignment (table : SymbolTable) (info : NodeInfo) (name : String)
    (value : Expr) (valid : Bool) :
    (table.after (.stmt (.assign info name value valid))).lookup name =
      if (verdict ⟨table, .stmt (.assign info name value valid)⟩).isValid then table.lookup name
      else (table.lookup name).map fun _ => .error := by
  show (if (verdict ⟨table, .stmt (.assign info name value valid)⟩).isValid then table
    else table.poison name).lookup name = _
  split
  · rfl
  · rw [SymbolTable.lookup_poison, if_pos rfl]

/-- The value of an assignment has its type before the assignment has a verdict, so a poisoning that
the assignment causes is not seen by its own value. -/
theorem moves_assignment {table : SymbolTable} {info : NodeInfo} {name : String} {value : Expr}
    {valid : Bool} {actual : Ty} (h : Annotated ⟨table, .stmt (.assign info name value valid)⟩)
    (hvalue : value.ty? = some actual) :
    Moves name ⟨table, .stmt (.assign info name value valid)⟩ (table.lookup name)
      ((table.after (.stmt (.assign info name value valid))).lookup name) := by
  have hvalid : valid = (verdict ⟨table, .stmt (.assign info name value valid)⟩).isValid :=
    h.valid? valid rfl
  have hverdict : verdict ⟨table, .stmt (.assign info name value valid)⟩
      = Verdict.ofAssign name (table.lookup name) actual := by
    show Verdict.ofAssign name (table.lookup name) value.recordedTy = _
    rw [Expr.recordedTy, hvalue, Option.getD_some]
  rw [lookup_after_assignment]
  -- in each of the four cases the verdict decides the flag, the table and the report
  rcases Verdict.ofAssign_cases name (table.lookup name) actual with
    ⟨hfound, hcase⟩ | ⟨hfound, hcase⟩ | ⟨ty, hty, hfound, hsame, hcase⟩
      | ⟨ty, hty, hfound, hother, hcase⟩
  all_goals
    rw [hcase] at hverdict
    rw [hverdict] at hvalid ⊢
    subst hvalid
    rw [hfound]
  · exact .undeclared (.assignment rfl (reports_of_error hverdict))
  · exact .poisoned (.assignment rfl (reports_of_error hverdict))
  · exact .keeps hty (.assignment rfl (hsame ▸ hvalue) (reports_of_ok hverdict))
  · exact .breaks hty (.assignment rfl hvalue hother (reports_of_error hverdict))

/-- **One step.** A step that concerns a name treats it as the table found it, and moves it from
usable to poisoned or not at all. -/
theorem moves {step : Step} {name : String} (h : step.Annotated)
    (hparts : ∀ child ∈ step.node.children, child.Resolved)
    (hname : step.node.concerns name = true) :
    step.Moves name (step.table.lookup name) ((step.table.after step.node).lookup name) := by
  obtain ⟨table, node⟩ := step
  cases node with
  | expr e =>
    cases e with
    | var info other =>
      obtain rfl : other = name := by simpa [Node.concerns] using hname
      exact moves_reference h
    | int | bool | str | unary | binary | parens => cases hname
  | stmt s =>
    cases s with
    | assign info other value valid =>
      obtain rfl : other = name := by simpa [Node.concerns] using hname
      obtain ⟨actual, hvalue⟩ := hparts (.expr value) (by simp [Node.children])
      exact moves_assignment h hvalue
    | print | loop | ifThen | ifElse => cases hname
  | decl d => cases hname

end Step

/-- Closing any other node of a block leaves the name alone. -/
theorem SymbolTable.lookup_after_of_not_concerns {table : SymbolTable} {node : Node} {name : String}
    (hname : ¬ node.concerns name = true) (hdecl : ∀ d, node ≠ .decl d) :
    (table.after node).lookup name = table.lookup name := by
  cases node with
  | expr e => rw [SymbolTable.after_expr]
  | stmt s =>
    cases s with
    | assign info other value valid =>
      have hother : name ≠ other := by
        rintro rfl
        exact hname (beq_self_eq_true name)
      show (if _ then table else table.poison other).lookup name = table.lookup name
      split
      · rfl
      · rw [SymbolTable.lookup_poison, if_neg hother]
    | print | loop | ifThen | ifElse => rfl
  | decl d => exact absurd rfl (hdecl d)

/-! ## A whole run -/

/-- `History name found steps found'`: a name that is found as `found` goes through the steps, all
of which concern it, and is found as `found'` in the end. A name without a type never gets one; a
usable name is kept throughout, or up to one step that breaks it. -/
inductive History (name : String) : Option Ty → List Step → Option Ty → Prop where
  | undeclared {steps : List Step} (hsteps : ∀ step ∈ steps, step.Undeclared name) :
      History name none steps none
  | poisoned {steps : List Step} (hsteps : ∀ step ∈ steps, step.Poisoned name) :
      History name (some .error) steps (some .error)
  | kept {ty : Ty} {steps : List Step} (hty : ty ≠ .error)
      (hsteps : ∀ step ∈ steps, step.Keeps name ty) :
      History name (some ty) steps (some ty)
  | broken {ty : Ty} {before after : List Step} {wrong : Step} (hty : ty ≠ .error)
      (hbefore : ∀ step ∈ before, step.Keeps name ty) (hwrong : wrong.Breaks name ty)
      (hafter : ∀ step ∈ after, step.Poisoned name) :
      History name (some ty) (before ++ wrong :: after) (some .error)

namespace History

theorem nil (name : String) (found : Option Ty) : History name found [] found := by
  cases found with
  | none => exact .undeclared (List.forall_mem_nil _)
  | some ty =>
    by_cases herror : ty = .error
    · subst herror
      exact .poisoned (List.forall_mem_nil _)
    · exact .kept herror (List.forall_mem_nil _)

/-- One more step in front. A name that this step breaks is poisoned for all the others. -/
theorem cons {name : String} {step : Step} {rest : List Step} {found middle found' : Option Ty}
    (hstep : step.Moves name found middle) (hrest : History name middle rest found') :
    History name found (step :: rest) found' := by
  cases hstep with
  | undeclared hstep =>
    cases hrest with
    | undeclared hsteps => exact .undeclared (List.forall_mem_cons.mpr ⟨hstep, hsteps⟩)
  | poisoned hstep =>
    cases hrest with
    | poisoned hsteps => exact .poisoned (List.forall_mem_cons.mpr ⟨hstep, hsteps⟩)
    | kept hty => exact absurd rfl hty
    | broken hty => exact absurd rfl hty
  | keeps hty hstep =>
    cases hrest with
    | poisoned => exact absurd rfl hty
    | kept _ hsteps => exact .kept hty (List.forall_mem_cons.mpr ⟨hstep, hsteps⟩)
    | broken _ hbefore hwrong hafter =>
      rw [← List.cons_append]
      exact .broken hty (List.forall_mem_cons.mpr ⟨hstep, hbefore⟩) hwrong hafter
  | breaks hty hstep =>
    -- what follows starts from a poisoned name
    cases hrest with
    | poisoned hsteps => exact .broken hty (List.forall_mem_nil _) hstep hsteps
    | kept herror => exact absurd rfl herror
    | broken herror => exact absurd rfl herror

end History

/-- **A whole run.** Nodes that do not concern the name are passed over, and the others add up to a
history of it. -/
theorem Replays.history {table table' : SymbolTable} {nodes : List Node} {entries : List Entry}
    (h : Replays table nodes table' entries) (name : String)
    (hparts : ∀ node ∈ nodes, ∀ child ∈ node.children, child.Resolved)
    (hdecl : ∀ node ∈ nodes, ∀ d, node ≠ .decl d) :
    History name (table.lookup name) ((steps table nodes).filter (·.node.concerns name))
      (table'.lookup name) := by
  obtain ⟨hannotated, rfl, -⟩ := h
  induction nodes generalizing table with
  | nil => exact .nil name _
  | cons node rest ih =>
    obtain ⟨hnode, hrest⟩ := List.forall_mem_cons.mp hannotated
    obtain ⟨hpart, hparts⟩ := List.forall_mem_cons.mp hparts
    obtain ⟨hnot, hdecl⟩ := List.forall_mem_cons.mp hdecl
    have hhistory := ih hparts hdecl hrest
    rw [steps, List.foldl_cons, List.filter_cons]
    split
    case isTrue hname => exact .cons (Step.moves hnode hpart hname) hhistory
    case isFalse hname =>
      rwa [SymbolTable.lookup_after_of_not_concerns hname hnot] at hhistory

/-! ## Blocks -/

theorem Node.ne_decl_of_mem_children {node child : Node} (h : child ∈ node.children) (d : Decl) :
    child ≠ .decl d := by
  rintro rfl
  cases node with
  | expr e => cases e <;> simp [Node.children] at h
  | stmt s => cases s <;> simp [Node.children] at h
  | decl d' => simp [Node.children] at h

theorem Block.ne_decl_of_mem_postorder {block : List Stmt} {node : Node}
    (h : node ∈ Block.postorder block) (d : Decl) : node ≠ .decl d := by
  have hcontains : (Tree.block block).Contains node := Tree.mem_postorder_iff.mp h
  cases hcontains with
  | root hroot =>
    obtain ⟨s, -, rfl⟩ := List.mem_map.mp hroot
    exact nofun
  | child _ hchild => exact Node.ne_decl_of_mem_children hchild d

/-- When a node is closed, the nodes below it have their types. -/
theorem Block.resolved_children {table : SymbolTable} {block : List Stmt} {node child : Node}
    (h : node ∈ Block.postorder (Block.check table block).node) (hchild : child ∈ node.children) :
    child.Resolved := by
  have hcontains : (Tree.block (Block.check table block).node).Contains node :=
    Tree.mem_postorder_iff.mp h
  exact Tree.resolved_check table (.block block) child (.child hcontains hchild)

/-- The steps of the check of a block: its annotated nodes in the order in which they are closed. -/
def Block.trace (table : SymbolTable) (block : List Stmt) : List Step :=
  steps table (Block.postorder (Block.check table block).node)

/-- **Blocks.** What the steps of a block do to a name is a history of it. -/
theorem Block.history_trace (table : SymbolTable) (block : List Stmt) (name : String) :
    History name (table.lookup name) ((Block.trace table block).filter (·.node.concerns name))
      ((Block.check table block).table.lookup name) := by
  refine (Block.replays_check table block).history name ?_ ?_
  · exact fun node hnode child hchild => Block.resolved_children hnode hchild
  · exact fun node hnode => Block.ne_decl_of_mem_postorder hnode

/-- **Poisoning is sticky along every run of statements.** The check of a block annotates it and
changes nothing else of it. Its steps go through the nodes of the checked block in post-order, and
together add what the block adds to the log. Those that read or assign a given name make up a
history of it, from what the table finds for the name at the start to what is found in the end. -/
theorem Block.check_poisons_for_good (table : SymbolTable) (block : List Stmt) (name : String) :
    Block.erase (Block.check table block).node = Block.erase block
      ∧ (Block.trace table block).map Step.node = Block.postorder (Block.check table block).node
      ∧ (Block.trace table block).flatMap Step.entries = (Block.check table block).entries
      ∧ History name (table.lookup name) ((Block.trace table block).filter (·.node.concerns name))
        ((Block.check table block).table.lookup name) :=
  ⟨Block.erase_check table block, map_node_steps _ _, (Block.replays_check table block).entries_eq,
    Block.history_trace table block name⟩

/-- The block `x = 2; x = true; print x; x = 1;`. -/
def misassigningBlock : List Stmt :=
  [.assign {} "x" (.ofInt 2) false, .assign {} "x" (.ofBool true) false, .print {} (.ofName "x"),
    .assign {} "x" (.ofInt 1) false]

/-- An integer `x` is lost at the second assignment. What is read and assigned after it is in vain,
although the last value would have fitted. -/
theorem Block.check_poisons_for_good_misassigning :
    Block.erase (Block.check (.ofList [("x", .int)]) misassigningBlock).node
        = Block.erase misassigningBlock
      ∧ History "x" (some .int)
        ((Block.trace (.ofList [("x", .int)]) misassigningBlock).filter (·.node.concerns "x"))
        (some .error)
      ∧ ((Block.trace (.ofList [("x", .int)]) misassigningBlock).filter (·.node.concerns "x")).map
          (fun step => step.entries.map Entry.message)
        = [[], ["'x' has type Int but was assigned Bool"], [],
          ["'x' was previously mis-assigned and cannot be assigned again"]] := by
  obtain ⟨herase, -, -, hhistory⟩ :=
    Block.check_poisons_for_good (.ofList [("x", .int)]) misassigningBlock "x"
  have hend : (Block.check (.ofList [("x", .int)]) misassigningBlock).table.lookup "x"
      = some .error := by decide
  rw [hend] at hhistory
  exact ⟨herase, hhistory, by decide⟩

end ScriptTyping

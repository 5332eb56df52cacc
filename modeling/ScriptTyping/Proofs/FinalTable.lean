import ScriptTyping.Proofs.Failures
import ScriptTyping.Proofs.Poisoning

/-!
# The table a run ends with

The table changes all along a run, but the one it ends with can be read off the checked script. Its
names are the declared ones; the last declaration of a name decides its type, unless an assignment
took it away.

* **`Decl.names_checkAll`**, **`Decl.lookup_checkAll`**: the table after the declarations.
* **`Block.Misassigns`**, **`Block.lookup_check`**: what the statements do to it.
* **`Script.run_table`**: the two put together.
-/

namespace ScriptTyping

/-! ## After the declarations -/

/-- Names that the table lacks are added in the order of their first declaration. -/
theorem Decl.names_checkAll (table : SymbolTable) (decls : List Decl) :
    (Decl.checkAll table decls).table.names =
      table.names ++ ((decls.map Decl.name).filter (!table.contains ·)).eraseDups := by
  induction decls generalizing table with
  | nil => simp [Decl.checkAll]
  | cons decl rest ih =>
    show (Decl.checkAll (decl.check table).table rest).table.names = _
    rw [ih, Decl.names_check, Decl.contains_check, List.map_cons]
    cases hdeclared : table.contains decl.name with
    | true =>
      -- the first declaration of the name came earlier
      have hfilter : ((rest.map Decl.name).filter fun name =>
            !(table.contains name || name == decl.name))
          = (rest.map Decl.name).filter (!table.contains ·) := by
        refine List.filter_congr fun name _ => ?_
        by_cases hname : name = decl.name
        · simp [hname, hdeclared]
        · simp [hname]
      rw [if_pos rfl, hfilter, List.filter_cons_of_neg (by simp [hdeclared])]
    | false =>
      have hfilter : ((rest.map Decl.name).filter fun name =>
            !(table.contains name || name == decl.name))
          = ((rest.map Decl.name).filter (!table.contains ·)).filter (!· == decl.name) := by
        rw [List.filter_filter]
        refine List.filter_congr fun name _ => ?_
        rw [Bool.not_or, Bool.and_comm]
      rw [if_neg Bool.false_ne_true, hfilter, List.filter_cons_of_pos (by simp [hdeclared]),
        List.eraseDups_cons, List.append_assoc, List.singleton_append]

/-- The last of the declarations of a name. -/
def Decl.last? (name : String) (decls : List Decl) : Option Decl :=
  (decls.filter (·.name == name)).getLast?

/-- A later declaration of the name goes before an earlier one. -/
theorem Decl.last?_cons (name : String) (decl : Decl) (rest : List Decl) :
    Decl.last? name (decl :: rest) =
      if decl.name = name then some ((Decl.last? name rest).getD decl)
      else Decl.last? name rest := by
  unfold Decl.last?
  by_cases hname : decl.name = name
  · rw [if_pos hname, List.filter_cons_of_pos (by simpa using hname), List.getLast?_cons]
  · rw [if_neg hname, List.filter_cons_of_neg (by simpa using hname)]

/-- The last declaration of a name decides what is found for it. -/
theorem Decl.lookup_checkAll (table : SymbolTable) (decls : List Decl) (name : String) :
    (Decl.checkAll table decls).table.lookup name =
      (Decl.last? name (Decl.checkAll table decls).node).elim (table.lookup name) Decl.ty? := by
  induction decls generalizing table with
  | nil => rfl
  | cons decl rest ih =>
    have hnode : (Decl.checkAll table (decl :: rest)).node =
        (decl.check table).node :: (Decl.checkAll (decl.check table).table rest).node := rfl
    have hname : (decl.check table).node.name = decl.name := rfl
    have hlookup : (decl.check table).table.lookup name =
        if name = decl.name then (decl.check table).node.ty? else table.lookup name :=
      table.lookup_define decl.name name _
    rw [hnode, Decl.last?_cons, hname]
    show (Decl.checkAll (decl.check table).table rest).table.lookup name = _
    rw [ih, hlookup]
    by_cases hsame : decl.name = name
    · rw [if_pos hsame.symm, if_pos hsame]
      cases Decl.last? name (Decl.checkAll (decl.check table).table rest).node <;> rfl
    · rw [if_neg (Ne.symm hsame), if_neg hsame]

/-- The last declaration of a name has a type, as all checked nodes have. -/
theorem Decl.resolved_of_last? {table : SymbolTable} {decls : List Decl} {name : String}
    {decl : Decl} (h : Decl.last? name (Decl.checkAll table decls).node = some decl) :
    ∃ ty, decl.ty? = some ty := by
  have hmem : decl ∈ (Decl.checkAll table decls).node :=
    (List.mem_filter.mp (List.mem_of_getLast? h)).1
  exact Decl.resolved_checkAll table decls (.decl decl)
    (List.mem_flatMap.mpr ⟨decl, hmem, Node.self_mem_postorder (.decl decl)⟩)

/-! ## After the statements -/

/-- Whether the node is an assignment to the name that is marked as not valid. -/
def Node.misassigns (name : String) : Node → Bool
  | .stmt (.assign _ other _ valid) => other == name && !valid
  | _ => false

/-- The block holds, at whatever depth, an assignment to the name that is marked as not valid. -/
def Block.Misassigns (name : String) (block : List Stmt) : Prop :=
  ∃ info value, (Tree.block block).Contains (.stmt (.assign info name value false))

theorem Node.misassigns_iff {name : String} {node : Node} :
    node.misassigns name = true ↔ ∃ info value, node = .stmt (.assign info name value false) := by
  refine ⟨fun h => ?_, ?_⟩
  · unfold Node.misassigns at h
    split at h
    case h_1 info other value valid =>
      obtain ⟨rfl, rfl⟩ : other = name ∧ valid = false := by simpa using h
      exact ⟨info, value, rfl⟩
    case h_2 => cases h
  · rintro ⟨info, value, rfl⟩
    simp [Node.misassigns]

/-- Looking for a wrong assignment to a name is looking through the post-order. -/
theorem Block.misassigns_iff {name : String} {block : List Stmt} :
    Block.Misassigns name block ↔ ∃ node ∈ Block.postorder block, node.misassigns name = true := by
  simp only [Block.Misassigns, Node.misassigns_iff, ← Tree.mem_postorder_iff, Tree.postorder]
  constructor
  · rintro ⟨info, value, hnode⟩
    exact ⟨_, hnode, info, value, rfl⟩
  · rintro ⟨node, hnode, info, value, rfl⟩
    exact ⟨info, value, hnode⟩

instance (name : String) (block : List Stmt) : Decidable (Block.Misassigns name block) :=
  decidable_of_iff ((Block.postorder block).any (Node.misassigns name) = true)
    (List.any_eq_true.trans Block.misassigns_iff.symm)

theorem Node.concerns_of_misassigns {name : String} {node : Node}
    (h : node.misassigns name = true) : node.concerns name = true := by
  obtain ⟨info, value, rfl⟩ := Node.misassigns_iff.mp h
  exact beq_self_eq_true name

/-- As long as a name is kept, no assignment to it is marked as wrong. -/
theorem Step.Keeps.not_misassigns {name : String} {ty : Ty} {step : Step}
    (h : step.Keeps name ty) : step.node.misassigns name = false := by
  cases h with
  | reference hnode =>
    rw [hnode]
    rfl
  | assignment hnode => rw [hnode, Node.misassigns, Bool.not_true, Bool.and_false]

theorem Step.Breaks.misassigns {name : String} {ty : Ty} {step : Step}
    (h : step.Breaks name ty) : step.node.misassigns name = true := by
  cases h with
  | assignment hnode => exact Node.misassigns_iff.mpr ⟨_, _, hnode⟩

/-- A name loses its type exactly if one of the steps misassigns it. -/
theorem History.found_eq {name : String} {found found' : Option Ty} {steps : List Step}
    (h : History name found steps found') :
    found' = if steps.any (·.node.misassigns name) then found.map fun _ => .error else found := by
  cases h with
  | undeclared => rw [Option.map_none, ite_self]
  | poisoned => rw [Option.map_some, ite_self]
  | kept _ hsteps =>
    have hnone : steps.any (·.node.misassigns name) = false :=
      List.any_eq_false.mpr fun step hstep => by simp [(hsteps step hstep).not_misassigns]
    rw [hnone, if_neg Bool.false_ne_true]
  | broken _ _ hwrong _ =>
    rw [List.any_append, List.any_cons, hwrong.misassigns, Bool.true_or, Bool.or_true, if_pos rfl,
      Option.map_some]

/-- The steps that misassign a name are the marked assignments of the checked block. -/
theorem Block.any_misassigns_trace (table : SymbolTable) (block : List Stmt) (name : String) :
    ((Block.trace table block).filter (·.node.concerns name)).any (·.node.misassigns name) = true ↔
      Block.Misassigns name (Block.check table block).node := by
  rw [Block.misassigns_iff, ← map_node_steps table (Block.postorder (Block.check table block).node),
    List.any_eq_true]
  refine ⟨?_, ?_⟩
  · rintro ⟨step, hstep, hmisassigns⟩
    exact ⟨step.node, List.mem_map_of_mem (List.mem_filter.mp hstep).1, hmisassigns⟩
  · rintro ⟨node, hnode, hmisassigns⟩
    obtain ⟨step, hstep, rfl⟩ := List.mem_map.mp hnode
    exact ⟨step, List.mem_filter.mpr ⟨hstep, Node.concerns_of_misassigns hmisassigns⟩, hmisassigns⟩

/-- What a block does to a name can be read off the flags it leaves. -/
theorem Block.lookup_check (table : SymbolTable) (block : List Stmt) (name : String) :
    (Block.check table block).table.lookup name =
      if Block.Misassigns name (Block.check table block).node
      then (table.lookup name).map fun _ => .error else table.lookup name := by
  rw [(Block.history_trace table block name).found_eq]
  simp only [Block.any_misassigns_trace]

/-! ## Runs -/

/-- **The table a run ends with.** It lists the declared names, each once, in the order of their
first declaration. A declared name has the type recorded on its last declaration, or `Ty.error` if
some assignment to it is marked as not valid. Types and marks are those on the nodes of the given
script, of which a run changes nothing else. -/
theorem Script.run_table (options : RunOptions) (script : Script) :
    (script.run options).script.erase = script.erase
      ∧ ∃ session, (script.run options).result = .ok session
      ∧ session.table.names = (script.decls.map Decl.name).eraseDups
      ∧ ∀ name, session.table.lookup name =
        (Decl.last? name (script.run options).script.decls).bind fun decl =>
          if Block.Misassigns name (script.run options).script.stmts then some .error
          else decl.ty? := by
  refine ⟨script.erase_run options, script.outcome, script.run_result options, ?_,
    fun name => ?_⟩
  · show (Block.check (Decl.checkAll .empty script.decls).table script.stmts).table.names = _
    rw [Block.names_check, Decl.names_checkAll]
    have hfresh : (script.decls.map Decl.name).filter (!SymbolTable.empty.contains ·)
        = script.decls.map Decl.name := List.filter_eq_self.mpr fun name _ => rfl
    rw [hfresh]
    rfl
  · rw [script.run_script options]
    show (Block.check (Decl.checkAll .empty script.decls).table script.stmts).table.lookup name
      = (Decl.last? name (Decl.checkAll .empty script.decls).node).bind fun decl =>
        if Block.Misassigns name
          (Block.check (Decl.checkAll .empty script.decls).table script.stmts).node
        then some .error else decl.ty?
    rw [Block.lookup_check, Decl.lookup_checkAll]
    cases hlast : Decl.last? name (Decl.checkAll .empty script.decls).node with
    | none => exact ite_self _
    | some decl =>
      obtain ⟨ty, hty⟩ := Decl.resolved_of_last? hlast
      rw [Option.elim_some, Option.bind_some, hty, Option.map_some]

/-- The script `var x : Int; var y : Bool = true; var x : String; var z : Int; var z : Bool;
while y { x = 1; }`. -/
def redeclaringScript : Script where
  decls :=
    [{ name := "x", typeToken := "Int" },
      { name := "y", typeToken := "Bool", init := some (.ofBool true) },
      { name := "x", typeToken := "String" }, { name := "z", typeToken := "Int" },
      { name := "z", typeToken := "Bool" }]
  stmts := [.loop {} (.ofName "y") [.assign {} "x" (.ofInt 1) false]]

/-- The assignment would fit the first declaration of `x`, but it is the last one that counts. -/
theorem Script.run_table_redeclaring :
    ∃ session, (redeclaringScript.run {}).result = .ok session
      ∧ session.table.names = ["x", "y", "z"]
      ∧ session.table.lookup "x" = some .error ∧ session.table.lookup "y" = some .bool
      ∧ session.table.lookup "z" = some .bool ∧ session.table.lookup "w" = none := by
  obtain ⟨-, session, hresult, hnames, hlookup⟩ := Script.run_table {} redeclaringScript
  have hnames' : (redeclaringScript.decls.map Decl.name).eraseDups = ["x", "y", "z"] := by decide
  rw [redeclaringScript.run_script {}] at hlookup
  refine ⟨session, hresult, hnames.trans hnames', ?_, ?_, ?_, ?_⟩
  all_goals
    rw [hlookup]
    decide

end ScriptTyping

import ScriptTyping.Proofs.CleanRun
import ScriptTyping.Proofs.Degradation
import ScriptTyping.Proofs.FinalTable

/-!
# Edits that can only help

Two edits never make a script worse: leaving out a statement, and declaring one more name before all
others. From the edit on the two runs go their own ways, with different tables. But the table of the
edited script is the better one, and so the rest is a case of checking against a degraded table.

* **`Stmt.worsens_table`**: a statement can only degrade the table, so the statements behind it are
  better off without it.
* **`SymbolTable.worsens_empty`**: every table is better than the empty one, so a script is better
  off behind a declaration that is in order.
* **`Node.KeepsTy`**: a node before and after an edit.
* **`Script.run_edits_help`**: after either edit nothing new is reported, and no type is lost.
-/

namespace ScriptTyping

/-- The script without the statement at the given place of its outermost block. -/
def Script.withoutStmt (index : Nat) (script : Script) : Script :=
  { script with stmts := script.stmts.eraseIdx index }

/-- The script with one more declaration, in front of its own. -/
def Script.withDecl (decl : Decl) (script : Script) : Script :=
  { script with decls := decl :: script.decls }

/-- The script without its first declaration. -/
def Script.withoutFirstDecl (script : Script) : Script :=
  { script with decls := script.decls.tail }

/-! ## Nodes before and after an edit -/

/-- `node.KeepsTy node'`: the same node before and after an edit. If it had a type other than
`Ty.error`, it still has it. -/
structure Node.KeepsTy (node node' : Node) : Prop where
  erase_eq : node'.erase = node.erase
  ty? : node.ty? ≠ some .error → node'.ty? = node.ty?

/-- Seen from the worse node, the better one keeps every type but `Ty.error`. -/
theorem Node.Worsens.keepsTy {better worse : Node} (h : better.Worsens worse) :
    worse.KeepsTy better where
  erase_eq := h.erase_eq.symm
  ty? hty := (h.ty?.resolve_right hty).symm

theorem forall₂_keepsTy {better worse : List Node} (h : List.Forall₂ Node.Worsens better worse) :
    List.Forall₂ Node.KeepsTy worse better :=
  h.flip.imp fun _ _ hnode => hnode.keepsTy

theorem forall₂_worsens_refl (nodes : List Node) : List.Forall₂ Node.Worsens nodes nodes :=
  List.forall₂_same.mpr fun _ _ => ⟨rfl, Or.inl rfl, id⟩

/-! ## Tables that an edit improves -/

/-- A statement can only make a table worse: it poisons names and defines none. -/
theorem Stmt.worsens_table (table : SymbolTable) (stmt : Stmt) :
    table.Worsens (stmt.check table).table := by
  intro name
  show Found.Worsens _ ((Block.check table [stmt]).table.lookup name)
  rw [Block.lookup_check]
  split
  · cases table.lookup name with
    | none => exact .same _
    | some ty => exact .poisoned ty
  · exact .same _

/-- Nothing is worse than the table that knows no name. -/
theorem SymbolTable.worsens_empty (table : SymbolTable) : table.Worsens .empty :=
  fun _ => .undeclared _

/-! ## Leaving out a statement -/

/-- Up to the statement that is left out both blocks are checked alike; behind it the shorter block
has the better table. -/
theorem Block.worsens_eraseIdx (table : SymbolTable) (block : List Stmt) (index : Nat) :
    List.Forall₂ Node.Worsens (Block.postorder (Block.check table (block.eraseIdx index)).node)
        (Block.postorder ((Block.check table block).node.eraseIdx index))
      ∧ ((Block.check table (block.eraseIdx index)).entries.map Entry.mark).Sublist
        ((Block.check table block).entries.map Entry.mark) := by
  induction block generalizing table index with
  | nil => exact ⟨.nil, .slnil⟩
  | cons stmt rest ih =>
    have hentries : (Block.check table (stmt :: rest)).entries =
        (stmt.check table).entries ++ (Block.check (stmt.check table).table rest).entries := rfl
    rw [hentries, List.map_append]
    cases index with
    | zero =>
      have hworse := stmt.worsens_table table
      have hnames : ∀ name, table.contains name = (stmt.check table).table.contains name :=
        fun name => by rw [Stmt.contains_check]
      refine ⟨(Block.worsens_check hworse rest).1, ?_⟩
      exact (Tree.sublist_marks hworse hnames (.block rest)).trans (List.sublist_append_right _ _)
    | succ index =>
      obtain ⟨hnodes, hmarks⟩ := ih (stmt.check table).table index
      refine ⟨List.rel_append (forall₂_worsens_refl _) hnodes, ?_⟩
      show (((stmt.check table).entries ++
        (Block.check (stmt.check table).table (rest.eraseIdx index)).entries).map
          Entry.mark).Sublist _
      rw [List.map_append]
      exact (List.Sublist.refl _).append hmarks

/-- Taking a statement out leaves the rest of the script with a better table, and so with better
nodes and fewer reports. -/
theorem Script.worsens_withoutStmt (table : SymbolTable) (script : Script) (index : Nat) :
    List.Forall₂ Node.Worsens ((script.withoutStmt index).check table).node.postorder
        ((script.check table).node.withoutStmt index).postorder
      ∧ (((script.withoutStmt index).check table).entries.map Entry.mark).Sublist
        ((script.check table).entries.map Entry.mark) := by
  obtain ⟨hnodes, hmarks⟩ :=
    Block.worsens_eraseIdx (Decl.checkAll table script.decls).table script.stmts index
  refine ⟨List.rel_append (forall₂_worsens_refl _) hnodes, ?_⟩
  show (((Decl.checkAll table script.decls).entries ++ _).map Entry.mark).Sublist
    (((Decl.checkAll table script.decls).entries ++ _).map Entry.mark)
  rw [List.map_append, List.map_append]
  exact (List.Sublist.refl _).append hmarks

/-! ## Declaring one more name -/

/-- A declaration without an initialiser whose token names a type is in order. -/
theorem Decl.entries_check_of_token {decl : Decl} (table : SymbolTable) (hinit : decl.init = none)
    (htoken : decl.typeToken ∈ ["Int", "Bool", "String"]) : (decl.check table).entries = [] := by
  rw [Decl.silent_iff]
  obtain ⟨ty, hty⟩ := Option.isSome_iff_exists.mp (Ty.ofToken?_isSome_iff.mpr htoken)
  refine ⟨ty, typeToken_iff.mpr hty, ?_⟩
  rw [hinit]
  exact nofun

theorem Script.entries_check_withDecl (table : SymbolTable) (script : Script) (decl : Decl) :
    ((script.withDecl decl).check table).entries =
      (decl.check table).entries ++ (script.check (decl.check table).table).entries :=
  List.append_assoc _ _ _

/-- Behind the new declaration, the script is checked against the table that the declaration
leaves. -/
theorem Script.withoutFirstDecl_check_withDecl (table : SymbolTable) (script : Script)
    (decl : Decl) :
    ((script.withDecl decl).check table).node.withoutFirstDecl =
      (script.check (decl.check table).table).node := rfl

/-! ## Runs -/

/-- `run'.ReportsNoMore view run`: both runs end with a log, and what `run'` reports, as `view`
shows it, is among what `run` reports, in the same order. -/
def Run.ReportsNoMore {α : Type} (view : Entry → α) (run' run : Run) : Prop :=
  ∃ session session' : Session, run.result = .ok session ∧ run'.result = .ok session'
    ∧ (session'.log.entries.map view).Sublist (session.log.entries.map view)

/-- What holds of the entries of two checks holds of the logs of the two runs. -/
theorem Script.run_reportsNoMore {α : Type} {view : Entry → α} (options : RunOptions)
    {script script' : Script}
    (h : ((script'.check .empty).entries.map view).Sublist
      ((script.check .empty).entries.map view)) :
    (script'.run options).ReportsNoMore view (script.run options) :=
  ⟨script.outcome, script'.outcome, script.run_result options, script'.run_result options, h⟩

/-- **Two edits that can only help.** Leave out any statement of the outermost block, or declare any
name, with a token that names a type and without an initialiser, before everything else. Then what
is reported was reported before, in the same order: with the same category, text and span in the
first case, with the same text and span in the second. And every node that both scripts have keeps
the type it had, if this was not `Ty.error`. -/
theorem Script.run_edits_help (options : RunOptions) (script : Script) :
    (∀ index : Nat,
      ((script.withoutStmt index).run options).ReportsNoMore Entry.mark (script.run options)
        ∧ List.Forall₂ Node.KeepsTy ((script.run options).script.withoutStmt index).postorder
          ((script.withoutStmt index).run options).script.postorder)
    ∧ ∀ decl : Decl, decl.init = none → decl.typeToken ∈ ["Int", "Bool", "String"] →
      ((script.withDecl decl).run options).ReportsNoMore (fun entry => (entry.text, entry.span))
          (script.run options)
        ∧ List.Forall₂ Node.KeepsTy (script.run options).script.postorder
          ((script.withDecl decl).run options).script.withoutFirstDecl.postorder := by
  refine ⟨fun index => ?_, fun decl hinit htoken => ?_⟩
  · obtain ⟨hnodes, hmarks⟩ := script.worsens_withoutStmt .empty index
    refine ⟨Script.run_reportsNoMore options hmarks, ?_⟩
    rw [Script.run_script, Script.run_script]
    exact forall₂_keepsTy hnodes
  · -- behind the new declaration the script is checked against a table better than the empty one
    have hbetter := SymbolTable.worsens_empty (decl.check .empty).table
    refine ⟨Script.run_reportsNoMore options ?_, ?_⟩
    · rw [Script.entries_check_withDecl, Decl.entries_check_of_token .empty hinit htoken]
      exact Tree.sublist_places hbetter (.script script)
    · rw [Script.run_script, Script.run_script, Script.withoutFirstDecl_check_withDecl]
      exact forall₂_keepsTy (Tree.worsens_check hbetter (.script script)).1

/-- An assignment to an undeclared name, and a use of another one. With the first name declared,
nothing is reported that was not reported before. -/
theorem Script.run_edits_help_undeclared :
    (Decl.mk {} "y" "Int" none false).init = none
      ∧ (Decl.mk {} "y" "Int" none false).typeToken ∈ ["Int", "Bool", "String"]
      ∧ (((Script.mk [] [.assign {} "y" (.ofInt 1) false, .print {} (.ofName "z")]).withDecl
          (Decl.mk {} "y" "Int" none false)).run {}).ReportsNoMore
        (fun entry => (entry.text, entry.span))
        ((Script.mk [] [.assign {} "y" (.ofInt 1) false, .print {} (.ofName "z")]).run {}) := by
  have htoken : (Decl.mk {} "y" "Int" none false).typeToken ∈ ["Int", "Bool", "String"] := by decide
  exact ⟨rfl, htoken, ((Script.run_edits_help {} _).2 _ rfl htoken).1⟩

end ScriptTyping

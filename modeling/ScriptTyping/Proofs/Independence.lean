import ScriptTyping.Proofs.Locality
import ScriptTyping.Session

/-!
# Independent neighbours

Two trees are independent if neither writes a name that occurs in the other. By locality each of
them is then checked as if the other were not there, and what one does to the table is out of reach
of the other. So the order in which they are checked decides nothing but the order of the entries.

* **`Tree.Spares`**: a tree writes no name of another tree.
* **`Tree.agreeOn_check_after`**: behind a tree that spares it, a tree is checked as it would be
  alone.
* **`Tree.lookup_check_swap`**: the tables that two independent trees leave behind, in one order and
  in the other, find the same for every name.
* **`Session.analyze_swaps`**: neighbouring statements of a block, and neighbouring declarations.
-/

namespace ScriptTyping

/-- `first.Spares second`: no name that `first` assigns or declares occurs in `second`. -/
def Tree.Spares (first second : Tree) : Prop :=
  ∀ name ∈ first.writtenNames, name ∉ second.names

instance (first second : Tree) : Decidable (first.Spares second) :=
  inferInstanceAs (Decidable (∀ name ∈ first.writtenNames, _))

/-! ## Trees behind one another -/

section

variable {first second : Tree}

/-- What is spared by a tree is checked after it as it would be before it. -/
theorem Tree.agreeOn_check_after (h : first.Spares second) (table : SymbolTable) :
    (second.check (first.check table).table).AgreeOn second.names (second.check table) := by
  refine second.agreeOn_check (fun name hname => ?_) (List.Subset.refl _)
  exact first.lookup_check_of_not_written table fun hwritten => h name hwritten hname

/-- The types of the names that a tree writes do not depend on whether a tree that spares it came
before. -/
theorem Tree.lookup_check_after (h : first.Spares second) (table : SymbolTable) {name : String}
    (hname : name ∈ second.writtenNames) :
    (second.check (first.check table).table).table.lookup name
      = (first.check (second.check table).table).table.lookup name := by
  have hoccurs : name ∈ second.names := second.writtenNames_subset_names hname
  calc (second.check (first.check table).table).table.lookup name
      = (second.check table).table.lookup name :=
        (Tree.agreeOn_check_after h table).table name hoccurs
    _ = (first.check (second.check table).table).table.lookup name :=
        (first.lookup_check_of_not_written _ fun hfirst => h name hfirst hoccurs).symm

/-- Each name is written by one of the trees at most, and then the other one leaves it alone. -/
theorem Tree.lookup_check_swap (h : first.Spares second) (h' : second.Spares first)
    (table : SymbolTable) (name : String) :
    (second.check (first.check table).table).table.lookup name
      = (first.check (second.check table).table).table.lookup name := by
  by_cases hsecond : name ∈ second.writtenNames
  · exact Tree.lookup_check_after h table hsecond
  by_cases hfirst : name ∈ first.writtenNames
  · exact (Tree.lookup_check_after h' table hfirst).symm
  · rw [second.lookup_check_of_not_written _ hsecond, first.lookup_check_of_not_written _ hfirst,
      first.lookup_check_of_not_written _ hfirst, second.lookup_check_of_not_written _ hsecond]

end

/-! ## Statements -/

/-- The second of two statements, checked behind the first, which spares it. -/
theorem Stmt.check_after {first second : Stmt} (h : (Tree.stmt first).Spares (.stmt second))
    (table : SymbolTable) :
    (second.check (first.check table).table).node = (second.check table).node
      ∧ (second.check (first.check table).table).entries = (second.check table).entries := by
  have hagree := Tree.agreeOn_check_after h table
  exact ⟨Tree.stmt.inj hagree.node, hagree.entries⟩

/-- A statement keeps the names of the table and their order, so lookups determine what is left. -/
theorem Stmt.table_check_swap {first second : Stmt} (h : (Tree.stmt first).Spares (.stmt second))
    (h' : (Tree.stmt second).Spares (.stmt first)) (table : SymbolTable) :
    (second.check (first.check table).table).table
      = (first.check (second.check table).table).table := by
  refine SymbolTable.lookup_ext ?_ (Tree.lookup_check_swap h h' table)
  simp only [Stmt.names_check]

/-- Two statements of which the first spares the second are checked as if each came first. -/
theorem Block.check_pair {first second : Stmt} (h : (Tree.stmt first).Spares (.stmt second))
    (table : SymbolTable) :
    Block.check table [first, second] =
      { node := [(first.check table).node, (second.check table).node]
        table := (second.check (first.check table).table).table
        entries := (first.check table).entries ++ (second.check table).entries } := by
  obtain ⟨hnode, hentries⟩ := Stmt.check_after h table
  simp only [Block.check, hnode, hentries, List.append_nil]

/-! ## Declarations -/

theorem Expr.writtenIn_postorder (expr : Expr) : writtenIn expr.postorder = [] := by
  induction expr with
  | int | bool | str | var => rfl
  | unary info op operand ih =>
    show writtenIn (operand.postorder ++ [_]) = []
    rw [writtenIn_append, ih]
    rfl
  | binary info op left right ihl ihr =>
    show writtenIn (left.postorder ++ right.postorder ++ [_]) = []
    rw [writtenIn_append, writtenIn_append, ihl, ihr]
    rfl
  | parens info inner ih =>
    show writtenIn (inner.postorder ++ [_]) = []
    rw [writtenIn_append, ih]
    rfl

theorem Decl.writtenNames_eq (decl : Decl) : (Tree.decl decl).writtenNames = [decl.name] := by
  cases hinit : decl.init <;>
    simp [Tree.writtenNames, Tree.postorder, Decl.postorder, hinit, Expr.writtenIn_postorder] <;>
    rfl

theorem Decl.names_eq (decl : Decl) :
    (Tree.decl decl).names =
      (decl.init.elim [] fun init => (Tree.expr init).names) ++ [decl.name] := by
  cases hinit : decl.init <;>
    simp [Tree.names, Tree.postorder, Decl.postorder, hinit] <;>
    rfl

/-- A declaration spares another one of another name whose initialiser does not mention it. -/
theorem Decl.spares {first second : Decl} (hname : first.name ≠ second.name)
    (hinit : ∀ init ∈ second.init, first.name ∉ (Tree.expr init).names) :
    (Tree.decl first).Spares (.decl second) := by
  intro name hwritten hoccurs
  rw [Decl.writtenNames_eq, List.mem_singleton] at hwritten
  subst hwritten
  rw [Decl.names_eq, List.mem_append, List.mem_singleton] at hoccurs
  rcases hoccurs with hparts | hself
  · cases hcase : second.init with
    | none =>
      rw [hcase] at hparts
      cases hparts
    | some init =>
      rw [hcase] at hparts
      exact hinit init hcase hparts
  · exact hname hself

theorem Decl.check_after {first second : Decl} (h : (Tree.decl first).Spares (.decl second))
    (table : SymbolTable) :
    (second.check (first.check table).table).node = (second.check table).node
      ∧ (second.check (first.check table).table).entries = (second.check table).entries := by
  have hagree := Tree.agreeOn_check_after h table
  exact ⟨Tree.decl.inj hagree.node, hagree.entries⟩

/-- Two declarations of which the first spares the second are analysed as if each came first. -/
theorem Session.analyzeAll_pair {first second : Decl}
    (h : (Tree.decl first).Spares (.decl second)) (session : Session) :
    session.analyzeAll [.decl first, .decl second] =
      ([.decl (first.check session.table).node, .decl (second.check session.table).node],
        { table := (second.check (first.check session.table).table).table
          log := session.log.append
            ((first.check session.table).entries ++ (second.check session.table).entries) }) := by
  obtain ⟨hnode, hentries⟩ := Decl.check_after h session.table
  show ([Tree.decl (first.check session.table).node,
      Tree.decl (second.check (first.check session.table).table).node], _) = _
  rw [hnode, ← hentries, ← Log.append_append]
  rfl

/-! ## Sessions -/

/-- **Independent neighbours commute.** Two statements neither of which assigns a name that occurs
in the other can change places in a block: each of them is annotated alike, the session ends with
the same table, and the entries of the two change places. The same holds of two declarations of
different names whose initialisers do not mention the name of the other, but that their names come
to stand in the table in another order. -/
theorem Session.analyze_swaps (session : Session) :
    (∀ first second : Stmt, (Tree.stmt first).Spares (.stmt second) →
        (Tree.stmt second).Spares (.stmt first) →
      ∃ (first' second' : Stmt) (table : SymbolTable) (entries entries' : List Entry),
        session.analyze (.block [first, second])
            = (.block [first', second'], ⟨table, session.log.append (entries ++ entries')⟩)
          ∧ session.analyze (.block [second, first])
            = (.block [second', first'], ⟨table, session.log.append (entries' ++ entries)⟩))
    ∧ ∀ first second : Decl, first.name ≠ second.name →
        (∀ init ∈ first.init, second.name ∉ (Tree.expr init).names) →
        (∀ init ∈ second.init, first.name ∉ (Tree.expr init).names) →
      ∃ (first' second' : Decl) (table table' : SymbolTable) (entries entries' : List Entry),
        session.analyzeAll [.decl first, .decl second]
            = ([.decl first', .decl second'], ⟨table, session.log.append (entries ++ entries')⟩)
          ∧ session.analyzeAll [.decl second, .decl first]
            = ([.decl second', .decl first'], ⟨table', session.log.append (entries' ++ entries)⟩)
          ∧ ∀ name, table.lookup name = table'.lookup name := by
  refine ⟨fun first second h h' => ?_, fun first second hname hfirst hsecond => ?_⟩
  · refine ⟨(first.check session.table).node, (second.check session.table).node,
      (second.check (first.check session.table).table).table, (first.check session.table).entries,
      (second.check session.table).entries, ?_, ?_⟩
    · rw [Session.analyze, Tree.check, Block.check_pair h]
      rfl
    · rw [Session.analyze, Tree.check, Block.check_pair h', ← Stmt.table_check_swap h h']
      rfl
  · have h : (Tree.decl first).Spares (.decl second) := Decl.spares hname hsecond
    have h' : (Tree.decl second).Spares (.decl first) := Decl.spares hname.symm hfirst
    exact ⟨_, _, _, _, _, _, Session.analyzeAll_pair h session, Session.analyzeAll_pair h' session,
      Tree.lookup_check_swap h h' session.table⟩

/-- A branch that misassigns `x` and a misassignment of `z` end with the same table in both orders;
and so do, for every name, two declarations of which the first is not in order. -/
theorem Session.analyze_swaps_misassigned :
    (Tree.stmt (.ifThen {} (.ofName "y") [.assign {} "x" (.ofName "y") false])).Spares
        (.stmt (.assign {} "z" (.ofInt 1) false))
      ∧ (Tree.stmt (.assign {} "z" (.ofInt 1) false)).Spares
        (.stmt (.ifThen {} (.ofName "y") [.assign {} "x" (.ofName "y") false]))
      ∧ (Session.analyze { table := .ofList [("x", .int), ("y", .bool), ("z", .bool)] }
          (.block [.ifThen {} (.ofName "y") [.assign {} "x" (.ofName "y") false],
            .assign {} "z" (.ofInt 1) false])).2.table
        = (Session.analyze { table := .ofList [("x", .int), ("y", .bool), ("z", .bool)] }
          (.block [.assign {} "z" (.ofInt 1) false,
            .ifThen {} (.ofName "y") [.assign {} "x" (.ofName "y") false]])).2.table
      ∧ ∀ name,
        (Session.analyzeAll {} [.decl ⟨{}, "x", "Int", some (.ofBool true), false⟩,
          .decl ⟨{}, "y", "Bool", none, false⟩]).2.table.lookup name
        = (Session.analyzeAll {} [.decl ⟨{}, "y", "Bool", none, false⟩,
          .decl ⟨{}, "x", "Int", some (.ofBool true), false⟩]).2.table.lookup name := by
  have h : (Tree.stmt (.ifThen {} (.ofName "y") [.assign {} "x" (.ofName "y") false])).Spares
      (.stmt (.assign {} "z" (.ofInt 1) false)) := by decide
  have h' : (Tree.stmt (.assign {} "z" (.ofInt 1) false)).Spares
      (.stmt (.ifThen {} (.ofName "y") [.assign {} "x" (.ofName "y") false])) := by decide
  refine ⟨h, h', ?_, fun name => ?_⟩
  · obtain ⟨_, _, _, _, _, hforth, hback⟩ := (Session.analyze_swaps _).1 _ _ h h'
    rw [hforth, hback]
  · obtain ⟨_, _, _, _, _, _, hforth, hback, hlookup⟩ :=
      (Session.analyze_swaps {}).2 ⟨{}, "x", "Int", some (.ofBool true), false⟩
        ⟨{}, "y", "Bool", none, false⟩ (by decide) (by decide) (by decide)
    rw [hforth, hback]
    exact hlookup name

end ScriptTyping

import ScriptTyping.Proofs.Locality
import ScriptTyping.Proofs.Poisoning

/-!
# What a session never loses

Pieces of a script can be checked one by one against a table and a log that they share, with names
defined and entries recorded in between. Whatever is done to a session, in whatever order, its log
and the names of its table only grow at the end, and the type of a name changes in few ways.

* **`Turn`**: the ways in which the type of a name can change. **`SymbolTable.Evolves`**: the names
  stay in their places, and their types change in these ways.
* **`SymbolTable.evolves_after`**, **`Replays.evolves`**, **`Tree.evolves_check`**: what closing one
  node does to a table, hence what a run over nodes does, hence what a check does.
* **`Action`**, **`Session.perform`**, **`Session.performAll`**: what can be done to a session, and
  runs of it.
* **`Session.evolves_perform`**, **`Session.evolves_performAll`**: what one action does, hence what
  a run does.
* **`Session.performAll_separate`**: checking trees in one pass is checking them one by one.
-/

namespace ScriptTyping

/-! ## How the type of a name changes -/

/-- `Turn assigned defined name ty ty'`: the name turns from the type `ty` to the type `ty'`, where
the names in `assigned` are assigned and those in `defined` are given a type. An assignment can only
take a usable type away. -/
inductive Turn (assigned defined : List String) (name : String) : Ty → Ty → Prop where
  | kept (ty : Ty) : Turn assigned defined name ty ty
  | poisoned {ty : Ty} (hty : ty ≠ .error) (hassigned : name ∈ assigned) :
      Turn assigned defined name ty .error
  | defined {ty ty' : Ty} (hdefined : name ∈ defined) : Turn assigned defined name ty ty'

/-- The names of a table keep their places, new ones come behind them, and types turn as described
by `Turn`. -/
structure SymbolTable.Evolves (assigned defined : List String) (table table' : SymbolTable) :
    Prop where
  names : table.names <+: table'.names
  lookup : ∀ name ty, table.lookup name = some ty →
    ∃ ty', table'.lookup name = some ty' ∧ Turn assigned defined name ty ty'

/-- Turns compose. What an assignment has turned to `Ty.error`, another one leaves so. -/
theorem Turn.trans {assigned assigned' defined defined' : List String} {name : String}
    {ty ty' ty'' : Ty} (h : Turn assigned defined name ty ty')
    (h' : Turn assigned' defined' name ty' ty'') :
    Turn (assigned ++ assigned') (defined ++ defined') name ty ty'' := by
  cases h' with
  | defined hdefined => exact .defined (List.mem_append_right _ hdefined)
  | kept =>
    cases h with
    | kept => exact .kept ty
    | poisoned hty hassigned => exact .poisoned hty (List.mem_append_left _ hassigned)
    | defined hdefined => exact .defined (List.mem_append_left _ hdefined)
  | poisoned hty' hassigned' =>
    cases h with
    | kept => exact .poisoned hty' (List.mem_append_right _ hassigned')
    -- a name that has lost its type has none to lose
    | poisoned => exact absurd rfl hty'
    | defined hdefined => exact .defined (List.mem_append_left _ hdefined)

/-- Where no name is given a type, types are kept or taken away. -/
theorem Turn.kept_or_poisoned {assigned : List String} {name : String} {ty ty' : Ty}
    (h : Turn assigned [] name ty ty') : ty' = ty ∨ ty ≠ .error ∧ ty' = .error := by
  cases h with
  | kept => exact Or.inl rfl
  | poisoned hty => exact Or.inr ⟨hty, rfl⟩
  | defined hdefined => cases hdefined

namespace SymbolTable.Evolves

/-- Names can be assigned without a change. -/
theorem refl (assigned : List String) (table : SymbolTable) : table.Evolves assigned [] table :=
  ⟨List.prefix_refl _, fun _ ty hty => ⟨ty, hty, .kept ty⟩⟩

theorem trans {assigned assigned' defined defined' : List String}
    {table middle table' : SymbolTable} (h : table.Evolves assigned defined middle)
    (h' : middle.Evolves assigned' defined' table') :
    table.Evolves (assigned ++ assigned') (defined ++ defined') table' where
  names := h.names.trans h'.names
  lookup := by
    intro name ty hty
    obtain ⟨ty', hty', hturn⟩ := h.lookup name ty hty
    obtain ⟨ty'', hty'', hturn'⟩ := h'.lookup name ty' hty'
    exact ⟨ty'', hty'', hturn.trans hturn'⟩

/-- A definition appends a new name, and may give a known one any type. -/
theorem define (table : SymbolTable) (name : String) (ty : Ty) :
    table.Evolves [] [name] (table.define name ty) where
  names := by
    rw [names_define]
    split
    · exact List.prefix_refl _
    · exact List.prefix_append _ _
  lookup := by
    intro other current hcurrent
    rw [lookup_define]
    by_cases hsame : other = name
    · rw [if_pos hsame]
      exact ⟨ty, rfl, .defined (List.mem_singleton.mpr hsame)⟩
    · rw [if_neg hsame]
      exact ⟨current, hcurrent, .kept current⟩

/-- A poisoned name keeps its place and turns to `Ty.error`. -/
theorem poison (table : SymbolTable) (name : String) :
    table.Evolves [name] [] (table.poison name) where
  names := (table.names_poison name).symm ▸ List.prefix_refl table.names
  lookup := by
    intro other current hcurrent
    rw [lookup_poison]
    by_cases hsame : other = name
    · rw [if_pos hsame, hcurrent]
      refine ⟨.error, rfl, ?_⟩
      by_cases herror : current = .error
      · rw [herror]
        exact .kept .error
      · exact .poisoned herror (List.mem_singleton.mpr hsame)
    · rw [if_neg hsame]
      exact ⟨current, hcurrent, .kept current⟩

end SymbolTable.Evolves

/-! ## Checks -/

/-- The name that a node assigns itself. -/
def Node.assignedName? : Node → Option String
  | .stmt (.assign _ name _ _) => some name
  | _ => none

/-- The name that a node declares itself. -/
def Node.declaredName? : Node → Option String
  | .decl d => some d.name
  | _ => none

/-- The names that a tree assigns, at whatever depth. -/
def Tree.assignedNames (tree : Tree) : List String :=
  tree.postorder.filterMap Node.assignedName?

/-- The names that a tree declares. -/
def Tree.declaredNames (tree : Tree) : List String :=
  tree.postorder.filterMap Node.declaredName?

/-- **One node.** -/
theorem SymbolTable.evolves_after (table : SymbolTable) (node : Node) :
    table.Evolves node.assignedName?.toList node.declaredName?.toList (table.after node) := by
  cases node with
  | expr e =>
    rw [SymbolTable.after_expr]
    exact .refl [] table
  | stmt s =>
    cases s with
    | assign info name value valid =>
      show table.Evolves [name] [] (if _ then table else table.poison name)
      split
      · exact .refl [name] table
      · exact .poison table name
    | print | loop | ifThen | ifElse => exact .refl [] table
  | decl d => exact .define table d.name _

/-- **A run over nodes.** -/
theorem Replays.evolves {table table' : SymbolTable} {nodes : List Node} {entries : List Entry}
    (h : Replays table nodes table' entries) :
    table.Evolves (nodes.filterMap Node.assignedName?) (nodes.filterMap Node.declaredName?)
      table' := by
  rw [← h.foldl_eq]
  clear h
  induction nodes generalizing table with
  | nil => exact .refl [] table
  | cons node rest ih =>
    simp only [List.filterMap_eq_flatMap_toList, List.flatMap_cons] at ih ⊢
    exact (table.evolves_after node).trans ih

theorem Node.assignedName?_erase (node : Node) :
    node.erase.assignedName? = node.assignedName? := by
  cases node with
  | expr e => rfl
  | stmt s => cases s <;> rfl
  | decl d => rfl

theorem Node.declaredName?_erase (node : Node) :
    node.erase.declaredName? = node.declaredName? := by
  cases node <;> rfl

/-- A check changes the table by the assignments and the declarations of the tree, as they stand in
the given tree. -/
theorem Tree.evolves_check (table : SymbolTable) (tree : Tree) :
    table.Evolves tree.assignedNames tree.declaredNames (tree.check table).table := by
  have h := (tree.replays_check table).evolves
  rwa [Tree.filterMap_postorder_check _ Node.assignedName?_erase,
    Tree.filterMap_postorder_check _ Node.declaredName?_erase] at h

/-! ### Statements declare nothing -/

theorem Tree.declaredNames_block (block : List Stmt) : (Tree.block block).declaredNames = [] := by
  rw [Tree.declaredNames, List.filterMap_eq_nil_iff]
  intro node hnode
  cases node with
  | expr | stmt => rfl
  | decl d => exact absurd rfl (Block.ne_decl_of_mem_postorder hnode d)

theorem Tree.declaredNames_stmt (stmt : Stmt) : (Tree.stmt stmt).declaredNames = [] := by
  have hblock := Tree.declaredNames_block [stmt]
  rwa [Tree.declaredNames, Tree.postorder, Block.postorder, Block.postorder, List.append_nil]
    at hblock

/-! ## Actions -/

/-- What can be done to a session. -/
inductive Action where
  | define (name : String) (ty : Ty)
  | record (entry : Entry)
  | analyze (tree : Tree)
  | analyzeBlock (block : Block)
  /-- One pass over several trees. -/
  | analyzeAll (trees : List Tree)

/-- What a session answers: the type that a definition replaces, or an annotated tree. -/
inductive Reply where
  | replaced (old : Option Ty)
  | annotated (tree : Tree)
  deriving DecidableEq

namespace Action

/-- The names that are assigned in the course of an action. -/
def assignedNames : Action → List String
  | define _ _ => []
  | record _ => []
  | analyze tree => tree.assignedNames
  | analyzeBlock block => (Tree.block block).assignedNames
  | analyzeAll trees => trees.flatMap Tree.assignedNames

/-- The names that are given a type in the course of an action, by a definition or a declaration. -/
def definedNames : Action → List String
  | define name _ => [name]
  | record _ => []
  | analyze tree => tree.declaredNames
  | analyzeBlock block => (Tree.block block).declaredNames
  | analyzeAll trees => trees.flatMap Tree.declaredNames

/-- Whether the action checks a statement or a block. -/
def isStatement : Action → Bool
  | analyze (.stmt _) | analyze (.block _) | analyzeBlock _ => true
  | _ => false

/-- The same action with a pass of its own for each tree. -/
def separate : Action → List Action
  | analyzeAll trees => trees.map analyze
  | action => [action]

end Action

namespace Session

def perform (session : Session) : Action → List Reply × Session
  | .define name ty =>
    let (old, session) := session.define name ty
    ([.replaced old], session)
  | .record entry => ([], session.record entry)
  | .analyze tree =>
    let (tree, session) := session.analyze tree
    ([.annotated tree], session)
  | .analyzeBlock block =>
    let (block, session) := session.analyzeBlock block
    ([.annotated (.block block)], session)
  | .analyzeAll trees =>
    let (trees, session) := session.analyzeAll trees
    (trees.map .annotated, session)

/-- Performs the actions one after the other and collects what is answered. -/
def performAll (session : Session) : List Action → List Reply × Session
  | [] => ([], session)
  | action :: rest =>
    let (replies, session) := session.perform action
    let (replies', session) := session.performAll rest
    (replies ++ replies', session)

/-- The session that a run of actions ends with. -/
def after (session : Session) (actions : List Action) : Session :=
  (session.performAll actions).2

theorem performAll_append (session : Session) (first second : List Action) :
    session.performAll (first ++ second) =
      ((session.performAll first).1 ++ ((session.performAll first).2.performAll second).1,
        ((session.performAll first).2.performAll second).2) := by
  induction first generalizing session with
  | nil => rfl
  | cons action rest ih => simp [performAll, ih]

/-! ### One pass or many -/

/-- One pass over several trees does what a pass for each of them does. -/
theorem performAll_map_analyze (session : Session) (trees : List Tree) :
    session.performAll (trees.map .analyze) =
      ((session.analyzeAll trees).1.map .annotated, (session.analyzeAll trees).2) := by
  induction trees generalizing session with
  | nil => rfl
  | cons tree rest ih => simp [performAll, perform, analyzeAll, ih]

/-- It makes no difference in how many passes the trees are checked. -/
theorem performAll_separate (session : Session) (actions : List Action) :
    session.performAll (actions.flatMap Action.separate) = session.performAll actions := by
  induction actions generalizing session with
  | nil => rfl
  | cons action rest ih =>
    -- one action, and the same action with a pass for each tree
    have hsingle : session.performAll action.separate = session.perform action := by
      cases action with
      | define | record | analyze | analyzeBlock => simp [Action.separate, performAll]
      | analyzeAll trees => exact session.performAll_map_analyze trees
    rw [List.flatMap_cons, performAll_append, hsingle, ih, performAll]

/-! ### What an action does to a session -/

/-- The log and the table only grow at the end, and types turn as described by `Turn`. -/
structure Evolves (assigned defined : List String) (session session' : Session) : Prop where
  log : session.log.entries <+: session'.log.entries
  table : session.table.Evolves assigned defined session'.table

theorem Evolves.refl (session : Session) : session.Evolves [] [] session :=
  ⟨List.prefix_refl _, .refl [] session.table⟩

theorem Evolves.trans {assigned assigned' defined defined' : List String}
    {session middle session' : Session} (h : session.Evolves assigned defined middle)
    (h' : middle.Evolves assigned' defined' session') :
    session.Evolves (assigned ++ assigned') (defined ++ defined') session' :=
  ⟨h.log.trans h'.log, h.table.trans h'.table⟩

/-- The step for one tree: the log grows by the entries of the check, and the table changes with the
tree. -/
theorem evolves_analyze (session : Session) (tree : Tree) :
    session.Evolves tree.assignedNames tree.declaredNames (session.analyze tree).2 :=
  ⟨List.prefix_append _ _, tree.evolves_check session.table⟩

/-- The step for several trees, by induction from the step for one. -/
theorem evolves_analyzeAll (session : Session) (trees : List Tree) :
    session.Evolves (trees.flatMap Tree.assignedNames) (trees.flatMap Tree.declaredNames)
      (session.analyzeAll trees).2 := by
  induction trees generalizing session with
  | nil => exact .refl session
  | cons tree rest ih =>
    rw [List.flatMap_cons, List.flatMap_cons]
    exact (session.evolves_analyze tree).trans (ih (session.analyze tree).2)

/-- **One action.** -/
theorem evolves_perform (session : Session) (action : Action) :
    session.Evolves action.assignedNames action.definedNames (session.perform action).2 := by
  cases action with
  | define name ty => exact ⟨List.prefix_refl _, .define session.table name ty⟩
  | record entry => exact ⟨List.prefix_append _ _, .refl [] session.table⟩
  | analyze tree => exact session.evolves_analyze tree
  | analyzeBlock block => exact session.evolves_analyze (.block block)
  | analyzeAll trees => exact session.evolves_analyzeAll trees

/-- **A run of actions.** -/
theorem evolves_performAll (session : Session) (actions : List Action) :
    session.Evolves (actions.flatMap Action.assignedNames) (actions.flatMap Action.definedNames)
      (session.after actions) := by
  induction actions generalizing session with
  | nil => exact .refl session
  | cons action rest ih =>
    rw [List.flatMap_cons, List.flatMap_cons]
    exact (session.evolves_perform action).trans (ih (session.perform action).2)

theorem after_append (session : Session) (first second : List Action) :
    session.after (first ++ second) = (session.after first).after second := by
  rw [after, performAll_append]
  rfl

theorem after_singleton (session : Session) (action : Action) :
    session.after [action] = (session.perform action).2 := rfl

/-! ## Runs -/

/-- A statement or a block leaves a name its type or takes it away. -/
theorem lookup_perform_of_isStatement {session : Session} {action : Action}
    (haction : action.isStatement = true) {name : String} {ty : Ty}
    (hty : session.table.lookup name = some ty) :
    (session.perform action).2.table.lookup name = some ty
      ∨ ty ≠ .error ∧ (session.perform action).2.table.lookup name = some .error := by
  have hdefined : action.definedNames = [] := by
    unfold Action.isStatement at haction
    split at haction
    · exact Tree.declaredNames_stmt _
    · exact Tree.declaredNames_block _
    · exact Tree.declaredNames_block _
    · cases haction
  obtain ⟨ty', hty', hturn⟩ := (session.evolves_perform action).table.lookup name ty hty
  rw [hdefined] at hturn
  rw [hty', Option.some.injEq, Option.some.injEq]
  exact hturn.kept_or_poisoned

/-- **A session never loses anything.** Take any run of a session, and the next action. The log and
the names of the table before it are prefixes of those after it. An expression leaves the table
alone; a statement or a block leaves a name its type or takes a usable type away; in general, the
type of a name that is in the table is kept, is taken away by an assignment, or is replaced by a
definition or a declaration of this name. So, however a run goes on, a name of the table stays where
it is. It makes no difference to any answer or to the session whether trees are checked in one pass
or with a pass for each of them. -/
theorem performAll_only_grows (session : Session) :
    (∀ (before : List Action) (action : Action),
      (session.after before).log.entries <+: (session.after (before ++ [action])).log.entries
        ∧ (session.after before).table.names <+: (session.after (before ++ [action])).table.names
        ∧ (∀ e : Expr, action = .analyze (.expr e) →
          (session.after (before ++ [action])).table = (session.after before).table)
        ∧ (action.isStatement = true → ∀ name ty,
          (session.after before).table.lookup name = some ty →
            (session.after (before ++ [action])).table.lookup name = some ty
              ∨ ty ≠ .error
                ∧ (session.after (before ++ [action])).table.lookup name = some .error)
        ∧ ∀ name ty, (session.after before).table.lookup name = some ty →
          ∃ ty', (session.after (before ++ [action])).table.lookup name = some ty'
            ∧ Turn action.assignedNames action.definedNames name ty ty')
    ∧ (∀ (before later : List Action) (index : Nat) (name : String),
      (session.after before).table.names[index]? = some name →
        (session.after (before ++ later)).table.names[index]? = some name)
    ∧ ∀ actions : List Action,
      session.performAll (actions.flatMap Action.separate) = session.performAll actions := by
  refine ⟨fun before action => ?_, fun before later index name hname => ?_,
    session.performAll_separate⟩
  · rw [after_append, after_singleton]
    have hevolves := (session.after before).evolves_perform action
    refine ⟨hevolves.log, hevolves.table.names, ?_, ?_, hevolves.table.lookup⟩
    · rintro e rfl
      rfl
    · exact fun haction name ty hty => lookup_perform_of_isStatement haction hty
  · rw [after_append]
    have hnames := ((session.after before).evolves_performAll later).table.names
    obtain ⟨hindex, hsame⟩ := List.getElem?_eq_some_iff.mp hname
    rw [List.prefix_iff_getElem?.mp hnames index hindex, hsame]

/-- A name is defined, loses its type in a block, and gets a new one from a declaration. -/
theorem performAll_only_grows_redeclared :
    (({} : Session).after [.define "x" .int]).table.lookup "x" = some .int
      ∧ (({} : Session).after
        [.define "x" .int, .analyzeBlock [.assign {} "x" (.ofBool true) false]]).table.lookup "x"
        = some .error
      ∧ (({} : Session).after
        ([.define "x" .int, .analyzeBlock [.assign {} "x" (.ofBool true) false]]
          ++ [.define "y" .int, .analyze (.decl ⟨{}, "x", "Bool", none, false⟩)])).table.names[0]?
        = some "x" := by
  obtain ⟨hstep, hplace, -⟩ := performAll_only_grows {}
  have hfirst : (({} : Session).after [.define "x" .int]).table.lookup "x" = some .int := by decide
  refine ⟨hfirst, ?_, hplace _ _ 0 "x" (by decide)⟩
  obtain ⟨-, -, -, hstatement, -⟩ :=
    hstep [.define "x" .int] (.analyzeBlock [.assign {} "x" (.ofBool true) false])
  rcases hstatement rfl "x" .int hfirst with hkept | hpoisoned
  · exact absurd hkept (by decide)
  · exact hpoisoned.2

end Session

end ScriptTyping

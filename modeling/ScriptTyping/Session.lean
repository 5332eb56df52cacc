import ScriptTyping.Checking.Script

/-!
# Sessions

A symbol table and a log that several pieces of a script share. Each operation gives the session
that follows it; the log only grows:

* `log_analyze`: what a tree adds to the log stands behind what was there, and depends on the table
  alone.
-/

namespace ScriptTyping

structure Session where
  table : SymbolTable := .empty
  log : Log := {}
  deriving DecidableEq, Inhabited

namespace Session

/-- Takes over the table of a checked piece and appends what was found in it to the log. -/
def absorb {α : Type} (session : Session) (outcome : Outcome α) : α × Session :=
  (outcome.node, { table := outcome.table, log := session.log.append outcome.entries })

def analyze (session : Session) (tree : Tree) : Tree × Session :=
  session.absorb (tree.check session.table)

def analyzeBlock (session : Session) (block : Block) : Block × Session :=
  session.absorb (Block.check session.table block)

/-- Checks trees one after the other. -/
def analyzeAll (session : Session) : List Tree → List Tree × Session
  | [] => ([], session)
  | tree :: rest =>
    let (tree, session) := session.analyze tree
    let (rest, session) := session.analyzeAll rest
    (tree :: rest, session)

/-- Gives a name a type, and tells which type it had. -/
def define (session : Session) (name : String) (ty : Ty) : Option Ty × Session :=
  (session.table.lookup name, { session with table := session.table.define name ty })

/-- Continues with another table and the same log. -/
def withTable (session : Session) (table : SymbolTable) : Session :=
  { session with table }

/-- Appends an entry to the log. -/
def record (session : Session) (entry : Entry) : Session :=
  { session with log := session.log.add entry }

theorem log_analyze (session : Session) (tree : Tree) :
    (session.analyze tree).2.log.entries =
      session.log.entries ++ (tree.check session.table).entries := rfl

end Session

end ScriptTyping

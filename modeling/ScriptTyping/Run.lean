import ScriptTyping.Outline
import ScriptTyping.Session

/-!
# Runs over a whole script

A run checks a script from an empty table and an empty log, and then makes sure that no node was
left without a type. It can also report its progress and list the types it found.
-/

namespace ScriptTyping

/-- What a run writes besides its result. -/
structure RunOptions where
  /-- Announce the start, and count variables and violations at the end. -/
  verbose : Bool := false
  /-- List every node with its type. -/
  dumpTypes : Bool := false
  deriving DecidableEq, Repr

/-- A finished run: the checked script, the progress text, and the table and log it ended with. -/
structure Run where
  script : Script
  progress : String
  result : Except Fault Session

namespace Run

def announcement : String := "Inferring types...\n"

/-- An outline between its two title lines. -/
def listing (outline : Outline) : String :=
  "=== Inferred Types ===\n" ++ outline.text ++ "=== End Inferred Types ===\n\n"

def summary (session : Session) : String :=
  "Analyzed " ++ toString session.table.size ++ " variable(s), " ++ toString session.log.size ++
    " error(s)\n"

end Run

/-- Checks a script on its own. The closing summary is written only if every node has a type. -/
def Script.run (options : RunOptions) (script : Script) : Run :=
  let (script, session) := ({} : Session).absorb (script.check .empty)
  let outline := (Tree.script script).outline
  let opening := (if options.verbose then Run.announcement else "") ++
    (if options.dumpTypes then Run.listing outline else "")
  match outline.ensureResolved with
  | .error fault => { script, progress := opening, result := .error fault }
  | .ok () =>
    { script
      progress := opening ++ (if options.verbose then Run.summary session else "")
      result := .ok session }

end ScriptTyping

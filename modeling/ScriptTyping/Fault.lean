import ScriptTyping.Span

/-!
# Faults

Failures of the analysis itself, as opposed to violations found in a script: a node that was left
without a type, or a source that cannot be quoted.
-/

namespace ScriptTyping

/-- Why a place in the registered sources cannot be quoted. -/
inductive SourceError where
  | fileMissing
  | indexTooLarge (given max : Nat)
  | lineTooLarge (given max : Nat)
  | columnTooLarge (given max : Nat)
  | invalidCharBoundary (given : Nat)
  deriving DecidableEq, Repr

inductive Fault where
  | internal (detail : String) (span : Span)
  | render (cause : SourceError)
  deriving DecidableEq, Repr

def SourceError.message : SourceError → String
  | fileMissing => "file missing"
  | indexTooLarge given max =>
    "invalid index " ++ toString given ++ ", maximum index is " ++ toString max
  | lineTooLarge given max =>
    "invalid line " ++ toString given ++ ", maximum line is " ++ toString max
  | columnTooLarge given max =>
    "invalid column " ++ toString given ++ ", maximum column " ++ toString max
  | invalidCharBoundary _ => "index is not a code point boundary"

def Fault.message : Fault → String
  | internal detail span => "Internal error at " ++ span.describe ++ ": " ++ detail
  | render cause => "Render error: " ++ cause.message

end ScriptTyping

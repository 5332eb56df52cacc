import ScriptTyping.Span

/-!
# The log of violations

Analysis never stops at the first violation of a rule. It writes each one down, in the order in
which they are met, together with the text and the span of the offending node.
-/

namespace ScriptTyping

/-- The kinds of rule that a script can break. -/
inductive Category where
  | assignToWrongType
  | conditionNotBool
  | unprintableExpression
  | invalidNegation
  | invalidBinaryOp
  | undefinedName
  deriving DecidableEq, Repr

namespace Category

/-- Every category, in the order in which counts are listed. -/
def all : List Category :=
  [assignToWrongType, conditionNotBool, unprintableExpression, invalidNegation, invalidBinaryOp,
    undefinedName]

def name : Category → String
  | assignToWrongType => "ASSIGN_TO_WRONG_TYPE"
  | conditionNotBool => "CONDITION_NOT_BOOL"
  | unprintableExpression => "UNPRINTABLE_EXPRESSION"
  | invalidNegation => "INVALID_NEGATION"
  | invalidBinaryOp => "INVALID_BINARY_OP"
  | undefinedName => "UNDEFINED_NAME"

def ofName? (name : String) : Option Category :=
  all.find? (·.name == name)

theorem ofName?_name (category : Category) : ofName? category.name = some category := by
  cases category <;> decide

end Category

/-- One recorded violation, with the text and the span of the node at which it was found. -/
structure Entry where
  text : String
  span : Span
  category : Category
  message : String
  deriving DecidableEq, Repr

/-- The entry on one line, newline included. -/
def Entry.line (entry : Entry) : String :=
  entry.category.name ++ ": " ++ entry.text ++ ": " ++ entry.message ++ "\n"

/-- Recorded violations, oldest first. -/
structure Log where
  entries : List Entry := []
  deriving DecidableEq, Repr, Inhabited

namespace Log

def append (log : Log) (entries : List Entry) : Log := ⟨log.entries ++ entries⟩

def add (log : Log) (entry : Entry) : Log := log.append [entry]

def size (log : Log) : Nat := log.entries.length

def isEmpty (log : Log) : Bool := log.entries.isEmpty

/-- How many entries are of the given category. -/
def count (log : Log) (category : Category) : Nat :=
  log.entries.countP (·.category == category)

/-- Whether exactly `n` entries are of the given category and for a node of the given text. -/
def includesExactly (log : Log) (category : Category) (n : Nat) (text : String) : Bool :=
  log.entries.countP (fun entry => entry.category == category && entry.text == text) == n

/-- The log as text, one entry after the other. -/
def text (log : Log) : String :=
  String.join (log.entries.map Entry.line)

@[simp] theorem entries_append (log : Log) (entries : List Entry) :
    (log.append entries).entries = log.entries ++ entries := rfl

theorem append_append (log : Log) (first second : List Entry) :
    (log.append first).append second = log.append (first ++ second) := by
  simp [append]

end Log

end ScriptTyping

import ScriptTyping.Fault
import ScriptTyping.Log

/-!
# Diagnostics

Violations and faults as they are shown to the author of a script.

Showing a diagnostic is left to an `Emitter`, which keeps the sources and writes the texts. Of it
only `Emitter.Lawful` is asked. What is fixed here is which diagnostic stands for an entry or a
fault, and what becomes of a log: `Emitter.renderLog` fails if some entry cannot be shown, and
`Emitter.reportLog` goes on to the next.
-/

namespace ScriptTyping

/-- A region of a source with a text that explains it. The source is given by its number. -/
structure Label where
  file : Nat
  span : Span
  text : String
  deriving DecidableEq, Repr

/-- An error message, with a code for its kind and a region of a source if it has them. -/
structure Diagnostic where
  code : Option String := none
  message : String
  label : Option Label := none
  deriving DecidableEq, Repr

def Entry.diagnostic (file : Nat) (entry : Entry) : Diagnostic where
  code := some entry.category.name
  message := entry.message
  label := some { file, span := entry.span, text := entry.text }

def Fault.diagnostic (file : Nat) : Fault → Diagnostic
  | internal detail span =>
    { message := "Internal compiler error", label := some { file, span, text := detail } }
  | render cause => { message := (Fault.render cause).message }

structure SourceFile where
  name : String
  text : String
  deriving DecidableEq, Repr

/-- What became of a diagnostic: the text that was written, and whether this is all of it. -/
structure Emission where
  written : String
  outcome : Except SourceError Unit

/-- Keeps sources under numbers, and shows diagnostics that quote from them. -/
structure Emitter (Store : Type) where
  /-- No source is registered. -/
  empty : Store
  /-- Registers a source, and gives the number under which it is known. -/
  add : Store → SourceFile → Nat × Store
  /-- The source that is known under a number. -/
  find? : Store → Nat → Option SourceFile
  /-- Writes a diagnostic. -/
  emit : Store → Diagnostic → Emission

namespace Emitter

variable {Store : Type}

/-- What is asked of an emitter. -/
structure Lawful (emitter : Emitter Store) : Prop where
  /-- At first no number is taken. -/
  find?_empty : ∀ file, emitter.find? emitter.empty file = none
  /-- A source gets a number that was not taken. -/
  find?_fresh : ∀ store source, emitter.find? store (emitter.add store source).1 = none
  /-- A source is known under its number, and what else was known stays known. -/
  find?_add : ∀ store source file, emitter.find? (emitter.add store source).2 file
    = if file = (emitter.add store source).1 then some source else emitter.find? store file
  /-- A diagnostic with a label whose source is not there fails, and nothing is written. -/
  emit_missing : ∀ store diagnostic label, diagnostic.label = some label →
    emitter.find? store label.file = none →
      emitter.emit store diagnostic = ⟨"", .error .fileMissing⟩
  /-- A diagnostic with a label whose source is there is written, wherever in the source, or beyond
  it, the label stands. -/
  emit_found : ∀ store diagnostic label source, diagnostic.label = some label →
    emitter.find? store label.file = some source → (emitter.emit store diagnostic).outcome = .ok ()
  /-- What is written depends on the source that the label is about, and on no other. -/
  emit_local : ∀ store store' diagnostic label source, diagnostic.label = some label →
    emitter.find? store label.file = some source → emitter.find? store' label.file = some source →
    (emitter.emit store diagnostic).written = (emitter.emit store' diagnostic).written

variable (emitter : Emitter Store)

/-- Registers sources from left to right. -/
def addAll (store : Store) : List SourceFile → List Nat × Store
  | [] => ([], store)
  | source :: rest =>
    let (file, store) := emitter.add store source
    let (files, store) := addAll store rest
    (file :: files, store)

/-- The texts of entries one after the other, up to the first that cannot be shown. What was written
before it is lost. -/
def renderEntries (store : Store) (file : Nat) : List Entry → Except SourceError String
  | [] => .ok ""
  | entry :: rest => do
    let emission := emitter.emit store (entry.diagnostic file)
    emission.outcome
    let others ← renderEntries store file rest
    return emission.written ++ others

def renderLog (store : Store) (file : Nat) (log : Log) : Except Fault String :=
  match emitter.renderEntries store file log.entries with
  | .ok text => .ok text
  | .error cause => .error (.render cause)

/-- All that is written for the entries of a log, whether they can be shown or not. -/
def reportLog (store : Store) (file : Nat) (log : Log) : String :=
  String.join (log.entries.map fun entry => (emitter.emit store (entry.diagnostic file)).written)

def reportFault (store : Store) (file : Nat) (fault : Fault) : String :=
  (emitter.emit store (fault.diagnostic file)).written

end Emitter

end ScriptTyping

import ScriptTyping.Diagnostic.Emitter
import ScriptTyping.Diagnostic.Snippet

/-!
# Plain diagnostics

The emitter that the program uses: it keeps its sources in a list, and writes a heading and a
snippet, without colours.

* `Emitter.lawful_plain`: it is an emitter as the rest of the program expects it.
-/

namespace ScriptTyping

def Diagnostic.heading (diagnostic : Diagnostic) : String :=
  "error" ++
    (match diagnostic.code with
    | some code => "[" ++ code ++ "]"
    | none => "") ++
    ": " ++ diagnostic.message ++ "\n"

/-- Registered sources. Each is known by the number of sources registered before it. -/
structure Sources where
  files : List SourceFile := []
  deriving DecidableEq, Repr

namespace Sources

def add (sources : Sources) (source : SourceFile) : Nat × Sources :=
  (sources.files.length, { files := sources.files ++ [source] })

/-- A diagnostic without a region needs no source. -/
def emit (sources : Sources) (diagnostic : Diagnostic) : Emission :=
  match diagnostic.label with
  | none => { written := diagnostic.heading ++ "\n", outcome := .ok () }
  | some label =>
    match sources.files[label.file]? with
    | none => { written := "", outcome := .error .fileMissing }
    | some source =>
      { written := diagnostic.heading ++
          (Snippet.ofSpan source.text label.span label.text).text source.name
        outcome := .ok () }

theorem emit_of_missing {sources : Sources} {diagnostic : Diagnostic} {label : Label}
    (hlabel : diagnostic.label = some label) (hfile : sources.files[label.file]? = none) :
    sources.emit diagnostic = ⟨"", .error .fileMissing⟩ := by
  unfold emit
  rw [hlabel]
  simp only [hfile]

/-- With its source a diagnostic is written whole, and the other sources have no part in it. -/
theorem emit_of_found {sources : Sources} {diagnostic : Diagnostic} {label : Label}
    {source : SourceFile} (hlabel : diagnostic.label = some label)
    (hfile : sources.files[label.file]? = some source) :
    sources.emit diagnostic = ⟨diagnostic.heading ++
      (Snippet.ofSpan source.text label.span label.text).text source.name, .ok ()⟩ := by
  unfold emit
  rw [hlabel]
  simp only [hfile]

end Sources

/-- Sources in a list, diagnostics as plain text. -/
def Emitter.plain : Emitter Sources where
  empty := {}
  add := Sources.add
  find? sources file := sources.files[file]?
  emit := Sources.emit

/-- The plain text form is lawful: a file is found under the number that it was added with, and
without its file no text is written. -/
theorem Emitter.lawful_plain : Emitter.plain.Lawful where
  find?_empty _ := rfl
  find?_fresh sources _ := List.getElem?_eq_none (Nat.le_refl sources.files.length)
  find?_add sources source file := by
    show (sources.files ++ [source])[file]?
      = if file = sources.files.length then some source else sources.files[file]?
    split
    · next hfile => rw [hfile, List.getElem?_concat_length]
    · next hfile =>
      rcases Nat.lt_or_gt_of_ne hfile with hlt | hgt
      · exact List.getElem?_append_left hlt
      · rw [List.getElem?_eq_none (Nat.le_of_lt hgt), List.getElem?_eq_none]
        rw [List.length_append]
        exact hgt
  emit_missing _ _ _ hlabel hfile := Sources.emit_of_missing hlabel hfile
  emit_found sources diagnostic label source hlabel hfile := by
    show (sources.emit diagnostic).outcome = .ok ()
    rw [Sources.emit_of_found hlabel hfile]
  emit_local sources sources' diagnostic label source hlabel hfile hfile' := by
    show (sources.emit diagnostic).written = (sources'.emit diagnostic).written
    rw [Sources.emit_of_found hlabel hfile, Sources.emit_of_found hlabel hfile']

namespace Sources

/-! ## The plain emitter at work -/

def addAll (sources : Sources) (files : List SourceFile) : List Nat × Sources :=
  Emitter.plain.addAll sources files

def renderLog (sources : Sources) (file : Nat) (log : Log) : Except Fault String :=
  Emitter.plain.renderLog sources file log

def reportLog (sources : Sources) (file : Nat) (log : Log) : String :=
  Emitter.plain.reportLog sources file log

def reportFault (sources : Sources) (file : Nat) (fault : Fault) : String :=
  Emitter.plain.reportFault sources file fault

end Sources

end ScriptTyping

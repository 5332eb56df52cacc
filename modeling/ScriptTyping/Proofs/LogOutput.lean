import ScriptTyping.Diagnostic
import ScriptTyping.Violation

/-!
# The two outputs of a log

A log is shown in two ways. Rendering gives a text, or gives up at the first entry that cannot be
shown; reporting writes entry by entry and passes over what cannot be shown. A lawful emitter shows
an entry exactly if its source was registered, which is the same for all entries of a log. So either
both ways show the whole log, or none of them shows anything.

* **`Emitter.shown`**: what is written for one entry. **`Emitter.Lawful.shown_congr`**: the source
  of the entry alone decides it.
* **`Emitter.Lawful.renderLog_of_found`**, **`Emitter.Lawful.renderLog_of_missing`**,
  **`Emitter.Lawful.reportLog_of_missing`**: what the two ways do when the source is there and when
  it is not. All else about them follows.
* **`Emitter.Lawful.find?_addAll_iff`**, **`Emitter.Lawful.find?_addAll_of_some`**,
  **`Emitter.Lawful.find?_addAll_of_mem_zip`**: what registering leaves behind.
* **`Emitter.log_outputs_agree`**: all of it for any lawful emitter. Its witness is the plain
  emitter.
-/

namespace ScriptTyping

namespace Emitter

variable {Store : Type} {emitter : Emitter Store} {store : Store} {file : Nat}

/-- What is written for an entry about the given file. -/
def shown (emitter : Emitter Store) (store : Store) (file : Nat) (entry : Entry) : String :=
  (emitter.emit store (entry.diagnostic file)).written

theorem reportLog_eq_join_shown (log : Log) :
    emitter.reportLog store file log = String.join (log.entries.map (emitter.shown store file)) :=
  rfl

namespace Lawful

/-! ## Showing a log -/

/-- A file that is not there fails for every entry, and nothing is written for it. -/
theorem emit_entry_of_missing (h : emitter.Lawful) (hfile : emitter.find? store file = none)
    (entry : Entry) : emitter.emit store (entry.diagnostic file) = ⟨"", .error .fileMissing⟩ :=
  h.emit_missing store (entry.diagnostic file) _ rfl hfile

/-- A file that is there does for every entry, whatever the span of the entry is. -/
theorem emit_entry_of_found (h : emitter.Lawful) {source : SourceFile}
    (hfile : emitter.find? store file = some source) (entry : Entry) :
    (emitter.emit store (entry.diagnostic file)).outcome = .ok () :=
  h.emit_found store (entry.diagnostic file) _ source rfl hfile

/-- Two stores that know the same source under a number show the entries about it alike. -/
theorem shown_congr (h : emitter.Lawful) {store' : Store} {source : SourceFile}
    (hfile : emitter.find? store file = some source)
    (hfile' : emitter.find? store' file = some source) :
    emitter.shown store file = emitter.shown store' file :=
  funext fun entry =>
    h.emit_local store store' (entry.diagnostic file) _ source rfl hfile hfile'

theorem renderEntries_of_found (h : emitter.Lawful) {source : SourceFile}
    (hfile : emitter.find? store file = some source) (entries : List Entry) :
    emitter.renderEntries store file entries
      = .ok (String.join (entries.map (emitter.shown store file))) := by
  induction entries with
  | nil => rfl
  | cons entry rest ih =>
    show (do
      (emitter.emit store (entry.diagnostic file)).outcome
      let others ← emitter.renderEntries store file rest
      return emitter.shown store file entry ++ others) = _
    rw [h.emit_entry_of_found hfile, ih, List.map_cons, String.join_cons]
    rfl

/-- With its source a log is rendered whole. -/
theorem renderLog_of_found (h : emitter.Lawful) {source : SourceFile}
    (hfile : emitter.find? store file = some source) (log : Log) :
    emitter.renderLog store file log
      = .ok (String.join (log.entries.map (emitter.shown store file))) := by
  unfold renderLog
  rw [h.renderEntries_of_found hfile]

theorem renderLog_single (h : emitter.Lawful) {source : SourceFile}
    (hfile : emitter.find? store file = some source) (entry : Entry) :
    emitter.renderLog store file ⟨[entry]⟩ = .ok (emitter.shown store file entry) := by
  rw [h.renderLog_of_found hfile]
  show Except.ok (String.join [emitter.shown store file entry]) = Except.ok _
  rw [String.join_cons, String.join_nil, String.append_empty]

/-- Without its source a log fails at its first entry, and there is no other outcome for a log with
entries. -/
theorem renderLog_of_missing (h : emitter.Lawful) (hfile : emitter.find? store file = none)
    (log : Log) : emitter.renderLog store file log
      = if log.isEmpty then .ok "" else .error (.render .fileMissing) := by
  obtain ⟨entries⟩ := log
  cases entries with
  | nil => rfl
  | cons entry rest =>
    unfold renderLog renderEntries
    rw [h.emit_entry_of_missing hfile]
    rfl

/-- Without its source every entry of a log fails, every failure is passed over, and none leaves
anything behind. -/
theorem reportLog_of_missing (h : emitter.Lawful) (hfile : emitter.find? store file = none)
    (log : Log) : emitter.reportLog store file log = "" := by
  have hsilent : ∀ entry : Entry, emitter.shown store file entry = "" := by
    intro entry
    unfold shown
    rw [h.emit_entry_of_missing hfile]
  rw [reportLog_eq_join_shown]
  induction log.entries with
  | nil => rfl
  | cons entry rest ih => rw [List.map_cons, String.join_cons, ih, hsilent, String.empty_append]

/-- Nothing but the source that a number stands for decides how a log is shown. -/
theorem outputs_congr (h : emitter.Lawful) {store' : Store} {source : SourceFile}
    (hfile : emitter.find? store file = some source)
    (hfile' : emitter.find? store' file = some source) (log : Log) :
    emitter.renderLog store file log = emitter.renderLog store' file log
      ∧ emitter.reportLog store file log = emitter.reportLog store' file log := by
  have hshown := h.shown_congr hfile hfile'
  rw [h.renderLog_of_found hfile, h.renderLog_of_found hfile', reportLog_eq_join_shown,
    reportLog_eq_join_shown, hshown]
  exact ⟨rfl, rfl⟩

/-- A log that was added to is rendered piece by piece, and the first piece that fails decides. -/
theorem renderLog_append (h : emitter.Lawful) (store : Store) (file : Nat) (first second : Log) :
    emitter.renderLog store file (first.append second.entries) = do
      let front ← emitter.renderLog store file first
      let back ← emitter.renderLog store file second
      return front ++ back := by
  cases hfile : emitter.find? store file with
  | none =>
    obtain ⟨entries⟩ := first
    rw [h.renderLog_of_missing hfile, h.renderLog_of_missing hfile, h.renderLog_of_missing hfile]
    cases entries with
    | nil =>
      show (if second.isEmpty then _ else _) = _
      cases second.isEmpty <;> rfl
    | cons entry rest => rfl
  | some source =>
    rw [h.renderLog_of_found hfile, h.renderLog_of_found hfile, h.renderLog_of_found hfile,
      Log.entries_append, List.map_append, String.join_append]
    rfl

/-- A log is rendered exactly if it is empty or its source is there. -/
theorem exists_renderLog_iff (h : emitter.Lawful) (store : Store) (file : Nat) (log : Log) :
    (∃ text, emitter.renderLog store file log = .ok text)
      ↔ log.entries = [] ∨ ∃ source, emitter.find? store file = some source := by
  cases hfile : emitter.find? store file with
  | none =>
    have hempty : log.isEmpty = true ↔ log.entries = [] := List.isEmpty_iff
    rw [h.renderLog_of_missing hfile]
    constructor
    · rintro ⟨text, htext⟩
      split at htext
      · exact Or.inl (hempty.mp ‹_›)
      · cases htext
    · rintro (hentries | ⟨source, hsource⟩)
      · exact ⟨"", if_pos (hempty.mpr hentries)⟩
      · cases hsource
  | some source =>
    rw [h.renderLog_of_found hfile]
    exact ⟨fun _ => Or.inr ⟨source, rfl⟩, fun _ => ⟨_, rfl⟩⟩

/-- A log that is rendered is reported with the same text, and this is made of the texts of its
entries. -/
theorem outputs_of_ok (h : emitter.Lawful) {log : Log} {text : String}
    (htext : emitter.renderLog store file log = .ok text) :
    emitter.reportLog store file log = text
      ∧ ∃ texts, log.entries.map (fun entry => emitter.renderLog store file ⟨[entry]⟩)
          = texts.map Except.ok
        ∧ text = String.join texts := by
  cases hfile : emitter.find? store file with
  | none =>
    -- only the empty log is rendered without its source
    rw [h.renderLog_of_missing hfile] at htext
    split at htext
    · next hempty =>
      cases htext
      refine ⟨h.reportLog_of_missing hfile log, [], ?_, rfl⟩
      rw [List.isEmpty_iff.mp hempty]
      rfl
    · cases htext
  | some source =>
    rw [h.renderLog_of_found hfile] at htext
    cases htext
    refine ⟨reportLog_eq_join_shown log, log.entries.map (emitter.shown store file), ?_, rfl⟩
    rw [List.map_map]
    exact List.map_congr_left fun entry _ => h.renderLog_single hfile entry

/-- The only way to fail is a missing file, and then nothing is reported either. -/
theorem outputs_of_error (h : emitter.Lawful) {log : Log} {fault : Fault}
    (hfault : emitter.renderLog store file log = .error fault) :
    fault = .render .fileMissing ∧ emitter.reportLog store file log = "" := by
  cases hfile : emitter.find? store file with
  | none =>
    rw [h.renderLog_of_missing hfile] at hfault
    split at hfault
    · cases hfault
    · cases hfault
      exact ⟨rfl, h.reportLog_of_missing hfile log⟩
  | some source =>
    rw [h.renderLog_of_found hfile] at hfault
    cases hfault

/-! ## Registering sources -/

/-- **One step.** A number that is taken keeps its source when another one is registered. -/
theorem find?_add_of_some (h : emitter.Lawful) {source : SourceFile}
    (hfile : emitter.find? store file = some source) (other : SourceFile) :
    emitter.find? (emitter.add store other).2 file = some source := by
  have hne : file ≠ (emitter.add store other).1 := by
    intro hsame
    rw [hsame, h.find?_fresh] at hfile
    cases hfile
  rw [h.find?_add, if_neg hne, hfile]

/-- **All steps.** -/
theorem find?_addAll_of_some (h : emitter.Lawful) {source : SourceFile} (more : List SourceFile)
    (hfile : emitter.find? store file = some source) :
    emitter.find? (emitter.addAll store more).2 file = some source := by
  induction more generalizing store with
  | nil => exact hfile
  | cons other rest ih => exact ih (h.find?_add_of_some hfile other)

/-- The numbers that are taken in the end are those that were taken before and those given out. -/
theorem find?_addAll_iff (h : emitter.Lawful) (files : List SourceFile) :
    (∃ source, emitter.find? (emitter.addAll store files).2 file = some source)
      ↔ file ∈ (emitter.addAll store files).1
        ∨ ∃ source, emitter.find? store file = some source := by
  induction files generalizing store with
  | nil => exact (or_iff_right List.not_mem_nil).symm
  | cons other rest ih =>
    show (∃ source, emitter.find? (emitter.addAll (emitter.add store other).2 rest).2 file
        = some source)
      ↔ file ∈ (emitter.add store other).1 :: (emitter.addAll (emitter.add store other).2 rest).1
        ∨ _
    rw [ih, List.mem_cons, h.find?_add]
    by_cases hsame : file = (emitter.add store other).1
    · rw [if_pos hsame]
      exact ⟨fun _ => Or.inl (Or.inl hsame), fun _ => Or.inr ⟨other, rfl⟩⟩
    · rw [if_neg hsame, or_iff_right hsame]

/-- Each source is known under the number that was given out for it. -/
theorem find?_addAll_of_mem_zip (h : emitter.Lawful) {source : SourceFile}
    {files : List SourceFile} (hmem : (file, source) ∈ (emitter.addAll store files).1.zip files) :
    emitter.find? (emitter.addAll store files).2 file = some source := by
  induction files generalizing store with
  | nil => cases hmem
  | cons other rest ih =>
    have hcases : (file, source) = ((emitter.add store other).1, other)
        ∨ (file, source) ∈ (emitter.addAll (emitter.add store other).2 rest).1.zip rest :=
      List.mem_cons.mp hmem
    rcases hcases with hsame | hrest
    · obtain ⟨rfl, rfl⟩ := Prod.mk.inj hsame
      refine h.find?_addAll_of_some rest ?_
      rw [h.find?_add, if_pos rfl]
    · exact ih hrest

end Lawful

/-! ## Agreement -/

/-- **The two outputs of a log agree, and fail together.** Let an emitter be lawful and let files be
registered with it. For every number and every log: rendering succeeds exactly if the log is empty
or the number was given out for one of the files. Then the text is made of the texts of the single
entries, in their order, and it is what reporting writes; the text of an entry is what the emitter
writes for its category, message, span and text wherever it knows the same file under this number. A
log in two pieces gives the texts of the pieces one after the other. If rendering fails, the fault
is that the file is missing, and reporting writes nothing. Files that are registered later change
nothing of this for the numbers that were given out before. -/
theorem log_outputs_agree {Store : Type} {emitter : Emitter Store} (hlawful : emitter.Lawful)
    (files : List SourceFile) (ids : List Nat) (store : Store)
    (hregistered : emitter.addAll emitter.empty files = (ids, store)) (file : Nat) :
    (∀ log, (∃ text, emitter.renderLog store file log = .ok text) ↔ log.entries = [] ∨ file ∈ ids)
      ∧ (∀ log text, emitter.renderLog store file log = .ok text →
        emitter.reportLog store file log = text
          ∧ ∃ texts, log.entries.map (fun entry => emitter.renderLog store file ⟨[entry]⟩)
              = texts.map Except.ok
            ∧ text = String.join texts)
      ∧ (∀ source, (file, source) ∈ ids.zip files → ∀ store' : Store,
        emitter.find? store' file = some source → ∀ entry : Entry,
          emitter.renderLog store file ⟨[entry]⟩ = .ok (emitter.emit store'
            { code := some entry.category.name
              message := entry.message
              label := some { file, span := entry.span, text := entry.text } }).written)
      ∧ (∀ first second : Log, emitter.renderLog store file (first.append second.entries) = do
        let front ← emitter.renderLog store file first
        let back ← emitter.renderLog store file second
        return front ++ back)
      ∧ (∀ log fault, emitter.renderLog store file log = .error fault →
        fault = .render .fileMissing ∧ emitter.reportLog store file log = "")
      ∧ (file ∈ ids → ∀ (more : List SourceFile) (log : Log),
        emitter.renderLog (emitter.addAll store more).2 file log
            = emitter.renderLog store file log
          ∧ emitter.reportLog (emitter.addAll store more).2 file log
            = emitter.reportLog store file log) := by
  have hids : (emitter.addAll emitter.empty files).1 = ids := congrArg Prod.fst hregistered
  have hstore : (emitter.addAll emitter.empty files).2 = store := congrArg Prod.snd hregistered
  -- the empty store knows nothing, so the numbers given out are all that are taken
  have hfound : (∃ source, emitter.find? store file = some source) ↔ file ∈ ids := by
    rw [← hstore, hlawful.find?_addAll_iff, hids, hlawful.find?_empty]
    exact or_iff_left nofun
  refine ⟨fun log => ?_, fun _ _ => hlawful.outputs_of_ok,
    fun source hmem store' hfile' entry => ?_, hlawful.renderLog_append store file,
    fun _ _ => hlawful.outputs_of_error, fun hfile more log => ?_⟩
  · rw [hlawful.exists_renderLog_iff, hfound]
  · have hfile : emitter.find? store file = some source := by
      rw [← hstore]
      rw [← hids] at hmem
      exact hlawful.find?_addAll_of_mem_zip hmem
    rw [hlawful.renderLog_single hfile, hlawful.shown_congr hfile hfile']
    rfl
  · obtain ⟨source, hsource⟩ := hfound.mpr hfile
    exact hlawful.outputs_congr (hlawful.find?_addAll_of_some more hsource) hsource log

/-- A mark under the operator `-true`, and a reversed span that starts behind the end of every
source. -/
def strayLog : Log where
  entries :=
    [Violation.entry (.unaryOperand .neg .bool) "-true" ⟨6, 11⟩,
      Violation.entry (.undeclared "x") "x" ⟨90, 3⟩]

/-- Both entries as the plain emitter quotes them from the second of two files. -/
def strayText : String :=
  "error[INVALID_NEGATION]: cannot apply - to Bool\n  ┌─ b:1:7\n  │\n1 │ print -true\n" ++
    "  │       ^^^^^ -true\n\n" ++
    "error[UNDEFINED_NAME]: 'x' has not been declared\n  ┌─ b:2:1\n  │  \n1 │ │ print -true\n" ++
    "  │ ╰───^ x\n2 │   \n  │ ╭^\n\n"

/-- The plain emitter shows both entries for the second of two files, also after a third is
registered. For a number that was not given out nothing is shown. -/
theorem log_outputs_agree_stray :
    plain.addAll plain.empty [⟨"a", "x\ny\n"⟩, ⟨"b", "print -true\n"⟩]
        = ([0, 1], ⟨[⟨"a", "x\ny\n"⟩, ⟨"b", "print -true\n"⟩]⟩)
      ∧ plain.renderLog ⟨[⟨"a", "x\ny\n"⟩, ⟨"b", "print -true\n"⟩]⟩ 1 strayLog = .ok strayText
      ∧ plain.reportLog ⟨[⟨"a", "x\ny\n"⟩, ⟨"b", "print -true\n"⟩, ⟨"c", "z"⟩]⟩ 1 strayLog
        = strayText
      ∧ plain.renderLog ⟨[⟨"a", "x\ny\n"⟩, ⟨"b", "print -true\n"⟩]⟩ 2 strayLog
        = .error (.render .fileMissing)
      ∧ plain.reportLog ⟨[⟨"a", "x\ny\n"⟩, ⟨"b", "print -true\n"⟩]⟩ 2 strayLog = "" := by
  have hregistered : plain.addAll plain.empty [⟨"a", "x\ny\n"⟩, ⟨"b", "print -true\n"⟩]
      = ([0, 1], ⟨[⟨"a", "x\ny\n"⟩, ⟨"b", "print -true\n"⟩]⟩) := rfl
  obtain ⟨hok, hsame, -, -, -, hlater⟩ := log_outputs_agree lawful_plain _ _ _ hregistered 1
  obtain ⟨-, -, -, -, hmissing, -⟩ := log_outputs_agree lawful_plain _ _ _ hregistered 2
  have hreport : plain.reportLog ⟨[⟨"a", "x\ny\n"⟩, ⟨"b", "print -true\n"⟩]⟩ 1 strayLog
      = strayText := by decide +kernel
  obtain ⟨text, htext⟩ := (hok strayLog).mpr (Or.inr (by decide))
  have hstray : text = strayText := (hsame _ _ htext).1.symm.trans hreport
  have hfault : plain.renderLog ⟨[⟨"a", "x\ny\n"⟩, ⟨"b", "print -true\n"⟩]⟩ 2 strayLog
      = .error (.render .fileMissing) := rfl
  refine ⟨hregistered, hstray ▸ htext, ?_, hfault, (hmissing _ _ hfault).2⟩
  exact (hlater (by decide) [⟨"c", "z"⟩] strayLog).2.trans hreport

end Emitter

end ScriptTyping

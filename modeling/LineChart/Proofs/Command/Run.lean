import LineChart.Command.Run
import LineChart.Proofs.Command.FileTree
import LineChart.Proofs.Command.System
import LineChart.Proofs.Settings

namespace LineChart.Command

variable {job : Job} {s : Surroundings} {refusals : Refusals} {p p' : Progress}

/-! ## What a job needs, and what it leaves behind -/

/-- The path of the input leads to an entry, and the system lets it be found. -/
structure Job.HasInput (job : Job) (s : Surroundings) (refusals : Refusals) (entry : Entry) :
    Prop where
  path : job.input ≠ "-"
  right : refusals (.find job.input) = none
  found : s.tree.find job.input = .ok entry

/-- The bytes of a job's input can be read. -/
inductive Job.Holds (job : Job) (s : Surroundings) (refusals : Refusals) (content : ByteArray) :
    Prop
  | stdin (path : job.input = "-") (right : refusals .readStdin = none)
      (bytes : s.stdin = content)
  | file (entry : job.HasInput s refusals (.file content))
      (right : refusals (.read job.input) = none)

/-- The input of a job reads as a text. -/
def Job.Reads (job : Job) (s : Surroundings) (refusals : Refusals) (text : String) : Prop :=
  job.Holds s refusals text.toUTF8

/-- The output of a job can be written. -/
inductive Job.CanWrite (job : Job) (s : Surroundings) (refusals : Refusals) : Prop
  | stdout (path : job.output = "-") (right : refusals .writeStdout = none)
  | file (l : Location) (path : job.output ≠ "-") (right : refusals (.write job.output) = none)
      (place : s.tree.place job.output = .ok l)

/-- A document stands on the standard output, or in the output file, and nowhere else. -/
inductive Job.Delivers (job : Job) (s : Surroundings) (document : String) :
    String → FileTree → Prop
  | stdout (path : job.output = "-") : Job.Delivers job s document document s.tree
  | file (l : Location) (tree : FileTree) (path : job.output ≠ "-")
      (place : s.tree.place job.output = .ok l)
      (found : tree.find job.output = .ok (.file document.toUTF8))
      (entries : ∀ l', tree.entry? l' =
        if l' = l then some (.file document.toUTF8) else s.tree.entry? l') :
      Job.Delivers job s document "" tree

/-- The failure that a job meets first: there is no input, or there is one that does not read as a
text, or there is a text and the output cannot be written. -/
inductive Job.Fails (job : Job) (s : Surroundings) (refusals : Refusals) : Failure → Prop
  | notFound (path : job.input ≠ "-") (missing : ∀ entry, ¬job.HasInput s refusals entry) :
      Job.Fails job s refusals (.inputNotFound job.input)
  | stdinRefused (cause : SystemFault) (path : job.input = "-")
      (refused : refusals .readStdin = some cause) :
      Job.Fails job s refusals (.unreadable job.input cause)
  | inputRefused (entry : Entry) (cause : SystemFault) (input : job.HasInput s refusals entry)
      (refused : refusals (.read job.input) = some cause) :
      Job.Fails job s refusals (.unreadable job.input cause)
  | inputIsFolder (input : job.HasInput s refusals .folder)
      (right : refusals (.read job.input) = none) :
      Job.Fails job s refusals (.unreadable job.input .isFolder)
  | inputNotText (content : ByteArray) (holds : job.Holds s refusals content)
      (bytes : ∀ text : String, content ≠ text.toUTF8) :
      Job.Fails job s refusals (.unreadable job.input .notText)
  | stdoutRefused (text : String) (cause : SystemFault) (reads : job.Reads s refusals text)
      (path : job.output = "-") (refused : refusals .writeStdout = some cause) :
      Job.Fails job s refusals (.unwritable job.output cause)
  | outputRefused (text : String) (cause : SystemFault) (reads : job.Reads s refusals text)
      (path : job.output ≠ "-") (refused : refusals (.write job.output) = some cause) :
      Job.Fails job s refusals (.unwritable job.output cause)
  | noPlace (text : String) (cause : SystemFault) (reads : job.Reads s refusals text)
      (path : job.output ≠ "-") (right : refusals (.write job.output) = none)
      (place : s.tree.place job.output = .error cause) :
      Job.Fails job s refusals (.unwritable job.output cause)

/-! ## Reading -/

theorem readsStdin_iff : job.readsStdin = true ↔ job.input = "-" := beq_iff_eq

theorem writesStdout_iff : job.writesStdout = true ↔ job.output = "-" := beq_iff_eq

theorem decode_eq_ok_iff {content : ByteArray} {text : String} :
    job.decode content = .ok text ↔ content = text.toUTF8 := by
  unfold Job.decode String.fromUTF8?
  constructor
  · intro h
    by_cases hvalid : content.IsValidUTF8
    · rw [dif_pos hvalid] at h
      exact congrArg String.toByteArray (Except.ok.inj h)
    · rw [dif_neg hvalid] at h
      contradiction
  · intro h
    subst h
    rw [dif_pos (show text.toUTF8.IsValidUTF8 from text.isValidUTF8)]
    rfl

theorem decode_of_not_text {content : ByteArray} (h : ∀ text : String, content ≠ text.toUTF8) :
    job.decode content = .error (.unreadable job.input .notText) := by
  cases hdecode : job.decode content with
  | ok text => exact absurd (decode_eq_ok_iff.mp hdecode) (h text)
  | error failure =>
    unfold Job.decode at hdecode
    split at hdecode
    · contradiction
    · exact hdecode.symm

theorem read_of_bytes_error {failure : Failure}
    (h : (job.bytes (s.services refusals)).run.run p = (.error failure, p')) :
    (job.read (s.services refusals)).run.run p = (.error failure, p') :=
  run_bind_error h _

theorem read_of_bytes_ok {content : ByteArray}
    (h : (job.bytes (s.services refusals)).run.run p = (.ok content, p')) :
    (job.read (s.services refusals)).run.run p = (job.decode content, p') :=
  run_bind_ok h _

theorem bytes_of_stdin (path : job.input = "-") :
    job.bytes (s.services refusals) =
      (s.services refusals).readStdin.adapt (.unreadable job.input) :=
  if_pos (readsStdin_iff.mpr path)

theorem bytes_of_path (path : job.input ≠ "-") :
    job.bytes (s.services refusals) = (do
      ((s.services refusals).find job.input).adapt fun _ => .inputNotFound job.input
      ((s.services refusals).read job.input).adapt (.unreadable job.input)) :=
  if_neg fun h => path (readsStdin_iff.mp h)

/-- An input that is there is read, or it is told why not. -/
theorem Job.HasInput.bytes_eq {entry : Entry} {events : List Event}
    {result : Except SystemFault ByteArray} (h : job.HasInput s refusals entry)
    (hread : ((s.services refusals).read job.input).run.run (s.untouched events) =
      (result, s.untouched events)) :
    (job.bytes (s.services refusals)).run.run (s.untouched events) =
      (result.mapError (.unreadable job.input), s.untouched events) := by
  have hfind : ((s.services refusals).find job.input).run.run (s.untouched events) =
      (.ok (), s.untouched events) := by
    refine meet_of_ok h.right ?_
    rw [Surroundings.untouched, h.found]
    rfl
  rw [bytes_of_path h.path, run_bind_ok (run_adapt _ hfind)]
  exact run_adapt _ hread

theorem find_missing (path : job.input ≠ "-") (missing : ∀ entry, ¬job.HasInput s refusals entry)
    (events : List Event) :
    ∃ cause, ((s.services refusals).find job.input).run.run (s.untouched events) =
      (.error cause, s.untouched events) := by
  cases hright : refusals (.find job.input) with
  | some cause => exact ⟨cause, meet_of_refused hright⟩
  | none =>
    cases hfound : s.tree.find job.input with
    | ok entry => exact absurd ⟨path, hright, hfound⟩ (missing entry)
    | error cause =>
      refine ⟨cause, meet_of_error hright ?_⟩
      rw [Surroundings.untouched, hfound]
      rfl

theorem read_file {entry : Entry} (h : job.HasInput s refusals entry)
    (right : refusals (.read job.input) = none) (events : List Event) :
    ((s.services refusals).read job.input).run.run (s.untouched events) =
      (entry.content, s.untouched events) := by
  have hfound : (s.untouched events).tree.find job.input = .ok entry := h.found
  cases entry with
  | folder =>
    refine meet_of_error right ?_
    rw [hfound]
    rfl
  | file content =>
    refine meet_of_ok right ?_
    rw [hfound]
    rfl

theorem Job.Holds.bytes_eq {content : ByteArray} (h : job.Holds s refusals content)
    (events : List Event) :
    (job.bytes (s.services refusals)).run.run (s.untouched events) =
      (.ok content, s.untouched events) := by
  cases h with
  | stdin path right bytes =>
    subst bytes
    rw [bytes_of_stdin path, services_readStdin]
    exact run_adapt _ (meet_of_ok right rfl)
  | file input right => exact input.bytes_eq (read_file input right events)

theorem Job.Reads.read_eq {text : String} (h : job.Reads s refusals text) (events : List Event) :
    (job.read (s.services refusals)).run.run (s.untouched events) =
      (.ok text, s.untouched events) := by
  rw [read_of_bytes_ok (h.bytes_eq events), decode_eq_ok_iff.mpr rfl]

theorem Job.Reads.unique {text text' : String} (h : job.Reads s refusals text)
    (h' : job.Reads s refusals text') : text = text' :=
  Except.ok.inj (Prod.mk.inj ((h.read_eq []).symm.trans (h'.read_eq []))).1

theorem holds_or_fails (job : Job) (s : Surroundings) (refusals : Refusals) :
    (∃ content, job.Holds s refusals content) ∨ ∃ failure, job.Fails s refusals failure := by
  by_cases hpath : job.input = "-"
  · cases hright : refusals .readStdin with
    | none => exact .inl ⟨s.stdin, .stdin hpath hright rfl⟩
    | some cause => exact .inr ⟨_, .stdinRefused cause hpath hright⟩
  · by_cases hentry : ∃ entry, job.HasInput s refusals entry
    · obtain ⟨entry, hentry⟩ := hentry
      cases hright : refusals (.read job.input) with
      | some cause => exact .inr ⟨_, .inputRefused entry cause hentry hright⟩
      | none =>
        cases entry with
        | folder => exact .inr ⟨_, .inputIsFolder hentry hright⟩
        | file content => exact .inl ⟨content, .file hentry hright⟩
    · exact .inr ⟨_, .notFound hpath (not_exists.mp hentry)⟩

/-- There is a text to read, or there is something that keeps it from being read. -/
theorem reads_or_fails (job : Job) (s : Surroundings) (refusals : Refusals) :
    (∃ text, job.Reads s refusals text) ∨ ∃ failure, job.Fails s refusals failure := by
  obtain ⟨content, hcontent⟩ | hfails := holds_or_fails job s refusals
  · by_cases htext : ∃ text : String, content = text.toUTF8
    · obtain ⟨text, rfl⟩ := htext
      exact .inl ⟨text, hcontent⟩
    · exact .inr ⟨_, .inputNotText content hcontent (not_exists.mp htext)⟩
  · exact .inr hfails

/-! ## Writing -/

theorem write_of_stdout (path : job.output = "-") (document : String) :
    job.write (s.services refusals) document =
      ((s.services refusals).writeStdout document).adapt (.unwritable job.output) := by
  rw [Job.write, if_pos (writesStdout_iff.mpr path)]

theorem write_of_path (path : job.output ≠ "-") (document : String) :
    job.write (s.services refusals) document =
      ((s.services refusals).write job.output document).adapt (.unwritable job.output) := by
  rw [Job.write, if_neg fun h => path (writesStdout_iff.mp h)]

theorem Job.CanWrite.write_eq (h : job.CanWrite s refusals) (events : List Event)
    (document : String) :
    ∃ stdout tree, (job.write (s.services refusals) document).run.run (s.untouched events) =
      (.ok (), ⟨stdout, tree, events⟩) ∧ job.Delivers s document stdout tree := by
  cases h with
  | stdout path right =>
    refine ⟨document, s.tree, ?_, .stdout path⟩
    rw [write_of_stdout path, services_writeStdout]
    refine run_adapt _ (meet_of_ok right ?_)
    rw [Surroundings.untouched, String.empty_append]
  | file l path right place =>
    obtain ⟨tree, htree⟩ : ∃ tree, s.tree.write job.output document.toUTF8 = .ok tree := by
      rw [FileTree.write, place]
      exact ⟨_, rfl⟩
    obtain ⟨l', hplace, hentries⟩ := FileTree.entry?_write htree
    refine ⟨"", tree, ?_, .file l' tree path hplace (FileTree.find_write htree) hentries⟩
    rw [write_of_path path]
    refine run_adapt _ (meet_of_ok right ?_)
    rw [Surroundings.untouched, htree]
    rfl

/-- There is a text to convert and a place for what comes of it, or something keeps the job from its
end. -/
theorem convertible_or_fails (job : Job) (s : Surroundings) (refusals : Refusals) :
    (∃ text, job.Reads s refusals text ∧ job.CanWrite s refusals) ∨
      ∃ failure, job.Fails s refusals failure := by
  obtain ⟨text, hreads⟩ | hfails := reads_or_fails job s refusals
  · by_cases hpath : job.output = "-"
    · cases hright : refusals .writeStdout with
      | none => exact .inl ⟨text, hreads, .stdout hpath hright⟩
      | some cause => exact .inr ⟨_, .stdoutRefused text cause hreads hpath hright⟩
    · cases hright : refusals (.write job.output) with
      | some cause => exact .inr ⟨_, .outputRefused text cause hreads hpath hright⟩
      | none =>
        cases hplace : s.tree.place job.output with
        | ok l => exact .inl ⟨text, hreads, .file l hpath hright hplace⟩
        | error cause => exact .inr ⟨_, .noPlace text cause hreads hpath hright hplace⟩
  · exact .inr hfails

/-! ## The course of a job -/

/-- What a text converts to in a run. -/
def Surroundings.document (s : Surroundings) (text : String) : String :=
  convert text { Settings.standard with modified := some s.stamp }

/-- What a job tells before its output is written. -/
def Job.opening (job : Job) (text : String) : List Event :=
  let chart := Chart.ofText text
  .reading job.input :: (readingEvents text chart ++ drawingEvents chart .standard)

theorem attempt_of_read_error {failure : Failure}
    (h : (job.read (s.services refusals)).run.run p = (.error failure, p')) :
    (job.attempt (s.services refusals)).run.run p = (.error failure, p') :=
  run_bind_error h _

/-- A text that has been read is converted, and what comes of it is written. -/
theorem attempt_of_read {text : String}
    (hread : (job.read (s.services refusals)).run.run p = (.ok text, p')) :
    (job.attempt (s.services refusals)).run.run p =
      (do
        job.write (s.services refusals) (s.document text)
        (s.services refusals).tell
          (job.closing (s.document text) (← (s.services refusals).microseconds))).run.run
      { p' with events := p'.events ++ job.opening text } := by
  -- the settings are never at fault
  have hsettings : ((Settings.ofChoices [.modified s.stamp]).mapError Failure.unsound :
      Except Failure (Settings Float)) =
      .ok { Settings.standard with modified := some s.stamp } := by
    rw [Settings.ofChoices_modified]
    rfl
  have hevents : p'.events ++ job.opening text = p'.events ++ [.reading job.input] ++
      readingEvents text (Chart.ofText text) ++ drawingEvents (Chart.ofText text) .standard := by
    rw [List.append_assoc, List.append_assoc]
    rfl
  rw [Job.attempt, run_bind_ok hread, hevents, run_tell_bind]
  simp only [run_tell_bind, run_stamp_bind, hsettings]
  rfl

section Write

variable {p'' : Progress} {text : String}

theorem attempt_of_write_error {failure : Failure}
    (hread : (job.read (s.services refusals)).run.run p = (.ok text, p'))
    (hwrite : (job.write (s.services refusals) (s.document text)).run.run
      { p' with events := p'.events ++ job.opening text } = (.error failure, p'')) :
    (job.attempt (s.services refusals)).run.run p = (.error failure, p'') := by
  rw [attempt_of_read hread]
  exact run_bind_error hwrite _

theorem attempt_of_write_ok
    (hread : (job.read (s.services refusals)).run.run p = (.ok text, p'))
    (hwrite : (job.write (s.services refusals) (s.document text)).run.run
      { p' with events := p'.events ++ job.opening text } = (.ok (), p'')) :
    (job.attempt (s.services refusals)).run.run p =
      (.ok (),
        { p'' with events := p''.events ++ job.closing (s.document text) s.microseconds }) := by
  rw [attempt_of_read hread]
  exact run_bind_ok hwrite _

end Write

theorem course_of_canWrite {text : String} (hread : job.Reads s refusals text)
    (hcan : job.CanWrite s refusals) :
    ∃ stdout tree events, job.course s refusals = (.ok (), ⟨stdout, tree, events⟩) ∧
      job.Delivers s (s.document text) stdout tree := by
  obtain ⟨stdout, tree, hwrite, hdelivers⟩ :=
    hcan.write_eq (job.opening text) (s.document text)
  exact ⟨stdout, tree, _, attempt_of_write_ok (hread.read_eq []) hwrite, hdelivers⟩

theorem Job.Reads.course_eq_error {text : String} {failure : Failure}
    (h : job.Reads s refusals text)
    (hwrite : ∀ events document,
      (job.write (s.services refusals) document).run.run (s.untouched events) =
        (.error failure, s.untouched events)) :
    ∃ events, job.course s refusals = (.error failure, s.untouched events) :=
  ⟨job.opening text, attempt_of_write_error (h.read_eq []) (hwrite _ _)⟩

theorem course_of_fails {failure : Failure} (h : job.Fails s refusals failure) :
    ∃ events, job.course s refusals = (.error failure, s.untouched events) := by
  cases h with
  | notFound path missing =>
    obtain ⟨cause, hfind⟩ := find_missing path missing []
    refine ⟨[], attempt_of_read_error (read_of_bytes_error ?_)⟩
    rw [bytes_of_path path]
    exact run_bind_error (run_adapt _ hfind) _
  | stdinRefused cause path refused =>
    refine ⟨[], attempt_of_read_error (read_of_bytes_error ?_)⟩
    rw [bytes_of_stdin path, services_readStdin]
    exact run_adapt _ (meet_of_refused refused)
  | inputRefused entry cause input refused =>
    exact ⟨_, attempt_of_read_error (read_of_bytes_error
      (input.bytes_eq (meet_of_refused refused)))⟩
  | inputIsFolder input right =>
    exact ⟨_, attempt_of_read_error (read_of_bytes_error
      (input.bytes_eq (read_file input right [])))⟩
  | inputNotText content holds bytes =>
    refine ⟨[], attempt_of_read_error ?_⟩
    rw [read_of_bytes_ok (holds.bytes_eq []), decode_of_not_text bytes]
  | stdoutRefused text cause reads path refused =>
    refine reads.course_eq_error fun events document => ?_
    rw [write_of_stdout path, services_writeStdout]
    exact run_adapt _ (meet_of_refused refused)
  | outputRefused text cause reads path refused =>
    refine reads.course_eq_error fun events document => ?_
    rw [write_of_path path]
    exact run_adapt _ (meet_of_refused refused)
  | noPlace text cause reads path right place =>
    refine reads.course_eq_error fun events document => ?_
    rw [write_of_path path]
    refine run_adapt _ (meet_of_error right ?_)
    rw [Surroundings.untouched, FileTree.write, place]
    rfl

/-- There is only one failure that a job meets first. -/
theorem Job.Fails.unique {failure failure' : Failure} (h : job.Fails s refusals failure)
    (h' : job.Fails s refusals failure') : failure = failure' := by
  obtain ⟨events, hcourse⟩ := course_of_fails h
  obtain ⟨events', hcourse'⟩ := course_of_fails h'
  exact Except.error.inj (Prod.mk.inj (hcourse.symm.trans hcourse')).1

/-- A job that fails has no text to read or no place for its output. -/
theorem Job.Fails.not_both {failure : Failure} (h : job.Fails s refusals failure) :
    ¬((∃ text, job.Reads s refusals text) ∧ job.CanWrite s refusals) := by
  rintro ⟨⟨text, hreads⟩, hcan⟩
  obtain ⟨events, hfails⟩ := course_of_fails h
  obtain ⟨stdout, tree, events', hdelivers, -⟩ := course_of_canWrite hreads hcan
  exact absurd (Prod.mk.inj (hfails.symm.trans hdelivers)).1 nofun

/-! ## A whole run -/

theorem run_of_course {result : Except Failure Unit} (h : job.course s refusals = (result, p)) :
    job.run s refusals =
      ⟨(Ending.ofResult result).exitCode, p.stdout ++ (Ending.ofResult result).stdout, p.tree,
        (job.verbosity s.setting).lines p.events ++ (Ending.ofResult result).stderr⟩ := by
  simp only [Job.run, h]

theorem run_of_error {failure : Failure} {events : List Event}
    (h : job.course s refusals = (.error failure, s.untouched events)) :
    job.run s refusals =
      ⟨1, "", s.tree, (job.verbosity s.setting).lines events ++ [failure.line]⟩ :=
  run_of_course h

theorem run_of_ok (h : job.course s refusals = (.ok (), p)) :
    job.run s refusals = ⟨0, p.stdout, p.tree, (job.verbosity s.setting).lines p.events⟩ := by
  rw [run_of_course h, Ending.ofResult, String.append_empty, List.append_nil]

/-- Whether a message tells of a failure. -/
def isFailureLine (line : String) : Bool := "Error:".toList.isPrefixOf line.toList

theorem isFailureLine_failure (failure : Failure) : isFailureLine failure.line = true := by
  rw [isFailureLine, Failure.line, String.toList_append]
  rfl

theorem isFailureLine_event (e : Event) : isFailureLine e.line = false := by
  rw [isFailureLine, Event.line, String.toList_append, String.toList_append, String.toList_append]
  -- every event begins with the name of its level
  cases e.level <;> rfl

theorem filter_lines (v : Verbosity) (events : List Event) :
    (v.lines events).filter isFailureLine = [] := by
  rw [List.filter_eq_nil_iff]
  intro line hline
  obtain ⟨e, -, rfl⟩ := List.mem_map.mp hline
  rw [isFailureLine_event]
  exact Bool.false_ne_true

/-- A message stands last in a text, on lines of its own. -/
def EndsWithMessage (text message : String) : Prop :=
  ∃ before, text = before ++ message ++ "\n" ∧ (before = "" ∨ ∃ front, before = front ++ "\n")

theorem endsWithMessage_stderrText {outcome : Outcome} {message : String}
    (h : outcome.stderr.getLast? = some message) : EndsWithMessage outcome.stderrText message := by
  obtain ⟨messages, hmessages⟩ := List.getLast?_eq_some_iff.mp h
  refine ⟨String.join (messages.map (· ++ "\n")), ?_, ?_⟩
  · rw [Outcome.stderrText, hmessages, List.map_append, String.join_append, String.append_assoc]
    rfl
  · obtain rfl | ⟨front, last, rfl⟩ := List.eq_nil_or_concat messages
    · exact .inl rfl
    · refine .inr ⟨String.join (front.map (· ++ "\n")) ++ last, ?_⟩
      rw [List.concat_eq_append, List.map_append, String.join_append, String.append_assoc]
      rfl

/-- A run either delivers what its input converts to, or leaves everything as it was and tells in its
last message, and in no other, of the failure that it met first. With that message the standard error
stream ends. -/
theorem run_all_or_nothing {arguments : List String} {job : Job}
    (h : Invocation.ofArguments arguments = .convert job) (s : Surroundings)
    (refusals : Refusals) :
    let outcome := run arguments s refusals
    (outcome.exitCode = 0 ∨ outcome.exitCode = 1) ∧
    (outcome.exitCode = 0 ↔ (∃ text, job.Reads s refusals text) ∧ job.CanWrite s refusals) ∧
    (outcome.exitCode = 0 → ∃ text, job.Reads s refusals text ∧ job.Delivers s
      (convert text { Settings.standard with modified := some s.stamp })
      outcome.stdout outcome.tree) ∧
    (outcome.exitCode = 1 → outcome.stdout = "" ∧ outcome.tree = s.tree ∧
      ∃ failure, (∀ failure', job.Fails s refusals failure' ↔ failure' = failure) ∧
        outcome.stderr.filter isFailureLine = [failure.line] ∧
        outcome.stderr.getLast? = some failure.line ∧
        EndsWithMessage outcome.stderrText failure.line) := by
  intro outcome
  have houtcome : outcome = job.run s refusals := by simp only [outcome, run, h, Invocation.job]
  obtain ⟨text, hreads, hcan⟩ | ⟨failure, hfails⟩ := convertible_or_fails job s refusals
  · obtain ⟨stdout, tree, events, hcourse, hdelivers⟩ := course_of_canWrite hreads hcan
    rw [houtcome, run_of_ok hcourse]
    exact ⟨.inl rfl, iff_of_true rfl ⟨⟨text, hreads⟩, hcan⟩, fun _ => ⟨text, hreads, hdelivers⟩,
      fun h => absurd h Nat.zero_ne_one⟩
  · obtain ⟨events, hcourse⟩ := course_of_fails hfails
    have hlast : (job.run s refusals).stderr.getLast? = some failure.line := by
      rw [run_of_error hcourse]
      exact List.getLast?_concat
    have hends := endsWithMessage_stderrText hlast
    rw [run_of_error hcourse] at hlast hends
    rw [houtcome, run_of_error hcourse]
    refine ⟨.inr rfl, iff_of_false Nat.one_ne_zero hfails.not_both,
      fun h => absurd h Nat.one_ne_zero, fun _ => ⟨rfl, rfl, failure,
        fun failure' => ⟨fun h => h.unique hfails, fun h => h ▸ hfails⟩, ?_, hlast, hends⟩⟩
    rw [List.filter_append, filter_lines, List.filter_singleton, isFailureLine_failure]
    rfl

/-- A chart text is converted in place, although its file goes by two paths. -/
theorem run_in_place :
    let s : Surroundings :=
      ⟨⟨[["d"]], [(["a"], "title T".toUTF8), (["b"], .empty)]⟩, .empty, none, "now", 0⟩
    let outcome := run ["a", "d/../a", "--debug"] s
    Invocation.ofArguments ["a", "d/../a", "--debug"] = .convert ⟨"a", "d/../a", true⟩ ∧
      outcome.exitCode = 0 ∧ outcome.stdout = "" ∧
      outcome.tree.entry? ["a"] = some (.file
        (convert "title T" { Settings.standard with modified := some "now" }).toUTF8) ∧
      outcome.tree.entry? ["b"] = some (.file .empty) := by
  intro s outcome
  let job : Job := ⟨"a", "d/../a", true⟩
  have hjob : Invocation.ofArguments ["a", "d/../a", "--debug"] = .convert job := by decide
  have hfound : s.tree.find "a" = .ok (.file "title T".toUTF8) := rfl
  have hreads : job.Reads s (fun _ => none) "title T" := .file ⟨by decide, rfl, hfound⟩ rfl
  have hplace : s.tree.place "d/../a" = .ok ["a"] := rfl
  obtain ⟨-, hzero, hdelivers, -⟩ := run_all_or_nothing hjob s fun _ => none
  have hexit : outcome.exitCode = 0 :=
    hzero.mpr ⟨⟨_, hreads⟩, .file ["a"] (by decide) rfl hplace⟩
  obtain ⟨text, htext, hdelivers⟩ := hdelivers hexit
  obtain rfl := htext.unique hreads
  refine ⟨hjob, hexit, ?_⟩
  change job.Delivers s _ outcome.stdout outcome.tree at hdelivers
  generalize outcome.stdout = stdout, outcome.tree = tree at hdelivers
  cases hdelivers with
  | stdout path => exact absurd path (by decide)
  | file l tree path place found entries =>
    obtain rfl := Except.ok.inj (hplace.symm.trans place)
    exact ⟨rfl, by rw [entries, if_pos rfl], by rw [entries, if_neg (by decide)]; rfl⟩

end LineChart.Command

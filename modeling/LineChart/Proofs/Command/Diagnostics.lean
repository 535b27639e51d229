import LineChart.Proofs.Command.Run
import LineChart.Proofs.Text.Span

namespace LineChart.Command

/-! ## More and less verbose -/

/-- Nothing at all comes before the level of errors. -/
def Verbosity.rank : Verbosity → Nat
  | off => 0
  | upTo level => level.rank

theorem Verbosity.shows_iff (v : Verbosity) (level : Level) :
    v.shows level = true ↔ level.rank ≤ v.rank := by
  cases v with
  | off => cases level <;> simp [shows, rank, Level.rank]
  | upTo most => simp [shows, rank]

/-- More verbosity only adds lines. -/
theorem lines_sublist {v v' : Verbosity} (h : v.rank ≤ v'.rank) (events : List Event) :
    (v.lines events).Sublist (v'.lines events) := by
  apply List.Sublist.map
  apply List.monotone_filter_right
  intro e he
  rw [Verbosity.shows_iff] at he ⊢
  exact he.trans h

/-! ## Lines without the time that a run took -/

/-- The end of a conversion is told with the time that it took, which stands last. -/
def maskElapsed (line : String) : String :=
  if "DEBUG conversion finished".toList.isPrefixOf line.toList then
    String.ofList (Text.trimWhile Char.isDigit line.toList)
  else line

def Event.untimed : Event → Event
  | finished bytes _ => finished bytes 0
  | e => e

theorem Event.level_untimed (e : Event) : e.untimed.level = e.level := by
  cases e <;> rfl

theorem toList_finished (bytes microseconds : Nat) :
    (Event.finished bytes microseconds).line.toList =
      ("DEBUG conversion finished bytes=".toList ++ Nat.toDigits 10 bytes ++
        " elapsed_us=".toList) ++ Nat.toDigits 10 microseconds := by
  have hline : (Event.finished bytes microseconds).line =
      "DEBUG" ++ " " ++ String.ofList (Text.disarm "conversion finished".toList) ++
        String.join [" bytes=" ++ bytes.repr, " elapsed_us=" ++ microseconds.repr] := rfl
  have hdisarm : Text.disarm "conversion finished".toList = "conversion finished".toList := rfl
  have hfront : "DEBUG conversion finished bytes=".toList =
      "DEBUG".toList ++ " ".toList ++ "conversion finished".toList ++ " bytes=".toList := rfl
  rw [hline, hdisarm, hfront]
  simp only [String.toList_append, String.toList_ofList, String.join, List.foldl,
    Nat.toList_repr, List.append_assoc]
  rfl

theorem maskElapsed_untimed (e : Event) : maskElapsed e.untimed.line = maskElapsed e.line := by
  cases e with
  | finished bytes microseconds =>
    have hmask : ∀ n : Nat, maskElapsed (Event.finished bytes n).line =
        String.ofList (Text.trimWhile Char.isDigit ("DEBUG conversion finished bytes=".toList ++
          Nat.toDigits 10 bytes ++ " elapsed_us=".toList)) := by
      intro n
      have hdigits : ∀ c ∈ Nat.toDigits 10 n, c.isDigit := fun c hc =>
        Nat.isDigit_of_mem_toDigits (by decide) (by decide) hc
      -- the digits of the time are trimmed off, whichever they are
      rw [maskElapsed, if_pos, toList_finished, Text.trimWhile_append_right hdigits]
      rw [toList_finished]
      rfl
    exact (hmask 0).trans (hmask microseconds).symm
  | _ => rfl

theorem mask_lines (v : Verbosity) (events : List Event) :
    (v.lines events).map maskElapsed = (v.lines (events.map Event.untimed)).map maskElapsed := by
  induction events with
  | nil => rfl
  | cons e events ih =>
    simp only [Verbosity.lines, List.map_cons, List.filter_cons, Event.level_untimed] at ih ⊢
    split
    · simp only [List.map_cons, maskElapsed_untimed, ih]
    · exact ih

/-! ## Two runs of one job -/

section Compare

variable (input output : String) (debug debug' : Bool) {s s' : Surroundings} (refusals : Refusals)

/-- What a run sees besides the wish for diagnostics and the clock. -/
structure Surroundings.Agree (s s' : Surroundings) : Prop where
  tree : s.tree = s'.tree
  stdin : s.stdin = s'.stdin
  stamp : s.stamp = s'.stamp

theorem read_congr (h : s.Agree s') :
    Job.read ⟨input, output, debug⟩ (s.services refusals) =
      Job.read ⟨input, output, debug'⟩ (s'.services refusals) := by
  unfold Job.read Job.bytes
  rw [services_readStdin, services_readStdin, h.stdin]
  rfl

theorem write_congr (s s' : Surroundings) (document : String) :
    Job.write ⟨input, output, debug⟩ (s.services refusals) document =
      Job.write ⟨input, output, debug'⟩ (s'.services refusals) document := rfl

theorem untimed_closing (document : String) (microseconds microseconds' : Nat) :
    (Job.closing ⟨input, output, debug⟩ document microseconds).map Event.untimed =
      (Job.closing ⟨input, output, debug'⟩ document microseconds').map Event.untimed := rfl

/-- Runs that have come to the same, but for the clock. -/
structure Progress.Alike (p p' : Progress) : Prop where
  stdout : p.stdout = p'.stdout
  tree : p.tree = p'.tree
  events : p.events.map Event.untimed = p'.events.map Event.untimed

theorem Progress.Alike.refl (p : Progress) : p.Alike p := ⟨rfl, rfl, rfl⟩

/-- A job takes the same course whatever is told of it. -/
theorem course_congr (h : s.Agree s') :
    ∃ result p₁ p₂, Job.course ⟨input, output, debug⟩ s refusals = (result, p₁) ∧
      Job.course ⟨input, output, debug'⟩ s' refusals = (result, p₂) ∧ p₁.Alike p₂ := by
  have hstart : s.untouched [] = s'.untouched [] := by
    rw [Surroundings.untouched, h.tree]
    rfl
  cases hread : (Job.read ⟨input, output, debug⟩ (s.services refusals)).run.run
      (s.untouched []) with
  | mk result p =>
    have hread' := hread
    rw [read_congr input output debug debug' refusals h, hstart] at hread'
    cases result with
    | error failure =>
      exact ⟨_, p, p, attempt_of_read_error hread, attempt_of_read_error hread', .refl p⟩
    | ok text =>
      have hdocument : s.document text = s'.document text := by
        rw [Surroundings.document, h.stamp]
        rfl
      cases hwrite : (Job.write ⟨input, output, debug⟩ (s.services refusals)
          (s.document text)).run.run
          { p with events := p.events ++ Job.opening ⟨input, output, debug⟩ text } with
      | mk result p' =>
        have hwrite' := hwrite
        rw [write_congr input output debug debug' refusals s s', hdocument] at hwrite'
        cases result with
        | error failure =>
          exact ⟨_, p', p', attempt_of_write_error hread hwrite,
            attempt_of_write_error hread' hwrite', .refl p'⟩
        | ok written =>
          refine ⟨_, _, _, attempt_of_write_ok hread hwrite, attempt_of_write_ok hread' hwrite',
            rfl, rfl, ?_⟩
          rw [List.map_append, List.map_append, hdocument,
            untimed_closing input output debug debug' _ s.microseconds s'.microseconds]

end Compare

/-- Two runs of one job that differ in the wish for diagnostics and in the clock come to the same end
and leave the same behind. The less verbose of them prints no line that the other does not, the time
taken apart, and each tells of a failure at its end. -/
theorem run_diagnostics_apart {arguments arguments' : List String} {input output : String}
    {debug debug' : Bool}
    (h : Invocation.ofArguments arguments = .convert ⟨input, output, debug⟩)
    (h' : Invocation.ofArguments arguments' = .convert ⟨input, output, debug'⟩)
    {s s' : Surroundings} (hs : s.Agree s') (refusals : Refusals) :
    let outcome := run arguments s refusals
    let outcome' := run arguments' s' refusals
    outcome.exitCode = outcome'.exitCode ∧ outcome.stdout = outcome'.stdout ∧
    outcome.tree = outcome'.tree ∧
    ((Job.verbosity ⟨input, output, debug⟩ s.setting).rank ≤
        (Job.verbosity ⟨input, output, debug'⟩ s'.setting).rank →
      (outcome.stderr.map maskElapsed).Sublist (outcome'.stderr.map maskElapsed)) ∧
    (outcome.exitCode ≠ 0 → ∃ failure : Failure,
      outcome.stderr.getLast? = some failure.line ∧
      outcome'.stderr.getLast? = some failure.line ∧
      EndsWithMessage outcome.stderrText failure.line ∧
      EndsWithMessage outcome'.stderrText failure.line) := by
  intro outcome outcome'
  have houtcome : outcome = Job.run ⟨input, output, debug⟩ s refusals := by
    simp only [outcome, run, h, Invocation.job]
  have houtcome' : outcome' = Job.run ⟨input, output, debug'⟩ s' refusals := by
    simp only [outcome', run, h', Invocation.job]
  obtain ⟨result, p, p', hcourse, hcourse', halike⟩ :=
    course_congr input output debug debug' refusals hs
  have hrun := houtcome.trans (run_of_course hcourse)
  have hrun' := houtcome'.trans (run_of_course hcourse')
  -- what is told is the same but for the clock, and is filtered by level only
  have hlines : ∀ v v' : Verbosity, v.rank ≤ v'.rank →
      ((v.lines p.events).map maskElapsed).Sublist ((v'.lines p'.events).map maskElapsed) := by
    intro v v' hv
    rw [mask_lines v, mask_lines v', halike.events]
    exact (lines_sublist hv _).map maskElapsed
  refine ⟨?_, ?_, ?_, fun hv => ?_, fun hcode => ?_⟩
  · rw [hrun, hrun']
  · rw [hrun, hrun', halike.stdout]
  · rw [hrun, hrun', halike.tree]
  · rw [hrun, hrun', List.map_append, List.map_append]
    exact (hlines _ _ hv).append (.refl _)
  · cases result with
    | ok written => exact absurd (congrArg Outcome.exitCode hrun) hcode
    | error failure =>
      have hlast : outcome.stderr.getLast? = some failure.line := by
        rw [hrun]
        exact List.getLast?_concat
      have hlast' : outcome'.stderr.getLast? = some failure.line := by
        rw [hrun']
        exact List.getLast?_concat
      exact ⟨failure, hlast, hlast', endsWithMessage_stderrText hlast,
        endsWithMessage_stderrText hlast'⟩

/-- A conversion at the usual level and one at the finest, in which an ignored line is told too and the
clock has gone on. -/
theorem run_diagnostics_apart_trace :
    let s : Surroundings :=
      ⟨⟨[], [(["a"], "title T\nnote".toUTF8)]⟩, .empty, none, "now", 5⟩
    let s' : Surroundings := { s with setting := some (.upTo .trace), microseconds := 70 }
    let outcome := run ["a", "b"] s
    let outcome' := run ["--debug", "a", "b"] s'
    Invocation.ofArguments ["a", "b"] = .convert ⟨"a", "b", false⟩ ∧
      Invocation.ofArguments ["--debug", "a", "b"] = .convert ⟨"a", "b", true⟩ ∧ s.Agree s' ∧
      outcome.exitCode = outcome'.exitCode ∧ outcome.stdout = outcome'.stdout ∧
      outcome.tree = outcome'.tree ∧
      (outcome.stderr.map maskElapsed).Sublist (outcome'.stderr.map maskElapsed) := by
  intro s s' outcome outcome'
  have hquiet : Invocation.ofArguments ["a", "b"] = .convert ⟨"a", "b", false⟩ := by decide
  have hloud : Invocation.ofArguments ["--debug", "a", "b"] = .convert ⟨"a", "b", true⟩ := by
    decide
  have hs : s.Agree s' := ⟨rfl, rfl, rfl⟩
  obtain ⟨hcode, hstdout, htree, hlines, -⟩ := run_diagnostics_apart hquiet hloud hs fun _ => none
  exact ⟨hquiet, hloud, hs, hcode, hstdout, htree, hlines (by decide)⟩

end LineChart.Command

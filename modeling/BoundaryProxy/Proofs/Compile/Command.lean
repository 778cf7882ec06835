import BoundaryProxy.Compile.Command
import BoundaryProxy.Proofs.Text.Blank
import BoundaryProxy.Proofs.Text.Fragment
import BoundaryProxy.Proofs.Text.Utf8

/-!
# `Proofs.Compile.Command` — an external compiler succeeds as a whole or not at all

What became of an external program is known by three things: whether it ran (`Command.Ran`, `Command.FailsToStart`),
what it is blamed for (`Command.Blames`), and the image it left. They are asked for in this order, so there is always a
verdict (`Command.Verdict`, `exists_verdict`), and it says both the result and the report (`Verdict.comes`). What it
printed may be any bytes; they are read as lines of text (`printedLines_iff`).

* **`compile_command`**: there is an artifact exactly if the program ran, has nothing to be blamed for and left an
  image; what it is blamed for is exactly what the compilation fails with, and all that is reported.
-/

namespace BoundaryProxy.Compile

open Host Text

/-! ## What a program printed -/

/-- The lines of an output, without the blanks at their ends. -/
def printedLines (output : List UInt8) : List String :=
  ((ofUtf8Lossy output).splitOn '\n').map fun line => String.ofList (trim line)

/-- What was printed is read as text, whatever bytes it is, and each line is what stands in it between blanks. -/
theorem printedLines_iff {output : List UInt8} {lines : List String} : printedLines output = lines ↔
    ∃ text, Reads output text ∧ List.Forall₂ (fun line shown => Trims line shown.toList) (text.splitOn '\n') lines := by
  have htrims (line : List Char) (shown : String) : String.ofList (trim line) = shown ↔ Trims line shown.toList := by
    rw [← trim_eq_iff, ← String.toList_inj, String.toList_ofList]
  simp only [reads_iff, exists_eq_left', ← htrims]
  rw [printedLines, ← List.forall₂_eq_eq_eq, List.forall₂_map_left_iff]

/-- A line reports an error: it says so behind a position, or begins with it. -/
def ReportsError (line : String) : Prop :=
  (∃ before after, line = before ++ ": error " ++ after) ∨ ∃ after, line = "error" ++ after

theorem isErrorLine_iff {line : String} : Command.isErrorLine line = true ↔ ReportsError line := by
  unfold Command.isErrorLine ReportsError
  rw [Bool.or_eq_true, hasFragment_iff, beginsWith_iff]

instance : DecidablePred ReportsError :=
  fun _ => decidable_of_iff _ isErrorLine_iff

/-- The lines in which a program reports errors, those of standard output first. -/
def errorLines (run : ProgramRun) : List String :=
  (printedLines run.stdout ++ printedLines run.stderr).filter ReportsError

/-- The lines in which a program printed anything, those of standard output first. -/
def shownLines (run : ProgramRun) : List String :=
  (printedLines run.stdout ++ printedLines run.stderr).filter (· ≠ "")

theorem trimmedLines_eq (output : List UInt8) :
    trimmedLines (ofUtf8Lossy output) = (printedLines output).filter (· ≠ "") := by
  unfold trimmedLines printedLines
  induction (ofUtf8Lossy output).splitOn '\n' with
  | nil => rfl
  | cons line lines ih =>
    rw [List.map_cons, List.map_cons]
    by_cases hempty : trim line = []
    · rw [List.filterMap_cons_none (by simp [hempty]), List.filter_cons_of_neg (by simp [hempty]), ih]
    · rw [List.filterMap_cons_some (b := String.ofList (trim line)) (by simp [hempty]),
        List.filter_cons_of_pos (by simpa using hempty), ih]

theorem outputLines_eq (run : ProgramRun) : Command.outputLines run.stdout run.stderr = shownLines run := by
  unfold Command.outputLines shownLines
  rw [trimmedLines_eq, trimmedLines_eq, List.filter_append]

/-- A line that reports an error is not empty, so no such line is lost with the empty ones. -/
theorem filter_shownLines (run : ProgramRun) : (shownLines run).filter Command.isErrorLine = errorLines run := by
  have hempty : ¬ ReportsError "" := by decide
  unfold shownLines errorLines
  rw [List.filter_filter]
  refine List.filter_congr fun line _ => ?_
  rw [Bool.eq_iff_iff, Bool.and_eq_true, decide_eq_true_iff, decide_eq_true_iff, isErrorLine_iff]
  refine ⟨fun h => h.1, fun h => ⟨h, ?_⟩⟩
  rintro rfl
  exact hempty h

/-- A program that printed nothing has no line to show, and reports no error. -/
theorem lines_of_silent {run : ProgramRun} (hout : run.stdout = []) (herr : run.stderr = []) :
    errorLines run = [] ∧ shownLines run = [] := by
  have hlines : printedLines [] = [""] := by cbv
  unfold errorLines shownLines
  rw [hout, herr, hlines]
  decide

/-! ## What a program did -/

/-- What a backend is asked to build for a class. -/
abbrev Request.ofUnit (unit : ProxyUnit) (references : List String) : Request :=
  ⟨unit, Source.render unit, references⟩

namespace Command

/-- The path at which the image of a class is expected. -/
def imagePath (scratch : Place) (unit : ProxyUnit) : String :=
  scratchFile scratch unit.className "dll"

/-- The disk with the source in the scratch directory, or what kept it from being written. -/
def prepared (scratch : Place) (unit : ProxyUnit) (disk : Disk) : Except IoFault Disk :=
  (disk.withDirectory scratch).write scratch (scratchFile scratch unit.className "cs") (toUtf8 (Source.render unit))

/-- What came of starting the program on the source. -/
def started (c : Command) (launch : Launcher) (scratch : Place) (unit : ProxyUnit) (references : List String)
    (ready : Disk) : Except IoFault ProgramRun :=
  launch ready scratch c.program
    (c.arguments (scratchFile scratch unit.className "cs") (imagePath scratch unit) references)

/-- What is reported with a result: a note of an artifact, an error for each line that a compilation fails with, and
    nothing of other failures. -/
def reports (unit : ProxyUnit) : Except Failure Artifact → List Diagnostic
  | .ok _ => [⟨.note, none, s!"Service {unit.className} compiled successfully"⟩]
  | .error (.compilation lines) => lines.map fun line => ⟨.error, some .compilerOutput, line⟩
  | .error _ => []

section

variable (c : Command) (launch : Launcher) (scratch : Place) (unit : ProxyUnit) (references : List String) (disk : Disk)

/-- The program was started on the source of a class, and ran. -/
def Ran (run : ProgramRun) : Prop :=
  ∃ ready, prepared scratch unit disk = .ok ready ∧ c.started launch scratch unit references ready = .ok run

/-- The program was to be started on the source of a class, and could not. -/
def FailsToStart (fault : IoFault) : Prop :=
  ∃ ready, prepared scratch unit disk = .ok ready ∧ c.started launch scratch unit references ready = .error fault

/-- Compiling a class with the program gives this result, and reports what belongs to it. -/
def Comes (result : Except Failure Artifact) : Prop :=
  let compilation := compile (c.backend launch scratch) unit references disk
  compilation.result = result ∧ compilation.notices.map Notice.diagnostic = reports unit result

end

/-- What a program that ran is blamed for: the lines in which it reports errors; if there are none and it failed, all
    lines in which it printed anything; and if there are none of those, how it ended. -/
inductive Blames (c : Command) (run : ProgramRun) : List String → Prop
  | reported : errorLines run ≠ [] → Blames c run (errorLines run)
  | shown : errorLines run = [] → run.status ≠ .exited 0 → shownLines run ≠ [] → Blames c run (shownLines run)
  | ended : errorLines run = [] → run.status ≠ .exited 0 → shownLines run = [] →
      Blames c run [s!"{c.program} exited with {run.status.text}"]

variable {c : Command} {launch : Launcher} {scratch : Place} {unit : ProxyUnit} {references : List String}
  {disk : Disk} {run : ProgramRun} {fault : IoFault} {lines : List String}

theorem Blames.ne_nil (h : c.Blames run lines) : lines ≠ [] := by
  cases h with
  | reported h => exact h
  | shown _ _ h => exact h
  | ended => exact List.cons_ne_nil _ _

/-- A program is blamed if it reports errors or fails. -/
theorem exists_blames_iff : (∃ lines, c.Blames run lines) ↔ errorLines run ≠ [] ∨ run.status ≠ .exited 0 := by
  constructor
  · rintro ⟨lines, h | ⟨-, hfails, -⟩ | ⟨-, hfails, -⟩⟩
    · exact .inl h
    · exact .inr hfails
    · exact .inr hfails
  · intro h
    by_cases hreported : errorLines run = []
    · have hfails : run.status ≠ .exited 0 := h.resolve_left (not_not_intro hreported)
      by_cases hshown : shownLines run = []
      · exact ⟨_, .ended hreported hfails hshown⟩
      · exact ⟨_, .shown hreported hfails hshown⟩
    · exact ⟨_, .reported hreported⟩

theorem isSuccess_iff : run.status.isSuccess = true ↔ run.status = .exited 0 :=
  beq_iff_eq

/-- What a program is blamed for is what its errors are taken to be. -/
theorem Blames.errors_eq (h : c.Blames run lines) :
    c.errors run.status (outputLines run.stdout run.stderr) = lines := by
  unfold errors
  rw [outputLines_eq, filter_shownLines]
  cases h with
  | reported h => simp [h]
  | shown h hfails hshown => simp [h, isSuccess_iff, hfails, hshown]
  | ended h hfails hshown => simp [h, isSuccess_iff, hfails, hshown]

theorem errors_eq_nil (hstatus : run.status = .exited 0) (h : errorLines run = []) :
    c.errors run.status (outputLines run.stdout run.stderr) = [] := by
  unfold errors
  rw [outputLines_eq, filter_shownLines, h, isSuccess_iff.mpr hstatus]
  rfl

/-! ## What it comes to -/

/-- The outcome of running the program. -/
theorem run_of_noSource (h : prepared scratch unit disk = .error fault) :
    (c.run launch scratch (.ofUnit unit references) disk).1 = .noSource fault := by
  unfold prepared at h
  simp only [Command.run, h]

theorem FailsToStart.run_eq (h : c.FailsToStart launch scratch unit references disk fault) :
    (c.run launch scratch (.ofUnit unit references) disk).1 = .notStarted fault := by
  obtain ⟨ready, hready, hstarted⟩ := h
  unfold prepared at hready
  unfold started imagePath at hstarted
  simp only [Command.run, hready, hstarted]

theorem Ran.run_eq (h : c.Ran launch scratch unit references disk run) :
    (c.run launch scratch (.ofUnit unit references) disk).1 =
      .finished run.status run.stdout run.stderr (run.disk.read scratch (imagePath scratch unit)) := by
  obtain ⟨ready, hready, hstarted⟩ := h
  unfold prepared at hready
  unfold started imagePath at hstarted
  simp only [Command.run, hready, hstarted, imagePath]

/-- An outcome that is judged to be a failure is one. -/
theorem comes_of_judge_error {failure : Failure} (hsilent : reports unit (.error failure) = [])
    (h : c.judge (imagePath scratch unit) (c.run launch scratch (.ofUnit unit references) disk).1 = .error failure) :
    c.Comes launch scratch unit references disk (.error failure) := by
  unfold imagePath at h
  unfold Comes compile Command.backend
  simp only [h, hsilent]
  exact ⟨trivial, rfl⟩

theorem comes_of_noSource (h : prepared scratch unit disk = .error fault) :
    c.Comes launch scratch unit references disk (.error (.io fault)) :=
  comes_of_judge_error rfl (by rw [run_of_noSource h]; rfl)

theorem FailsToStart.comes (h : c.FailsToStart launch scratch unit references disk fault) :
    c.Comes launch scratch unit references disk
      (.error (.backend c.program s!"failed to start: {fault.text}")) :=
  comes_of_judge_error rfl (by rw [h.run_eq]; rfl)

/-- A program that left no image and cannot be blamed for it did not do its work. -/
theorem Ran.comes_of_no_image (h : c.Ran launch scratch unit references disk run) (hstatus : run.status = .exited 0)
    (hlines : errorLines run = []) (himage : run.disk.read scratch (imagePath scratch unit) = .error fault) :
    c.Comes launch scratch unit references disk
      (.error (.backend c.program s!"no image at {imagePath scratch unit}: {fault.text}")) :=
  comes_of_judge_error rfl (by simp only [h.run_eq, judge, errors_eq_nil hstatus hlines, himage]; rfl)

theorem Ran.comes_of_image {bytes : List UInt8} (h : c.Ran launch scratch unit references disk run)
    (hstatus : run.status = .exited 0) (hlines : errorLines run = [])
    (himage : run.disk.read scratch (imagePath scratch unit) = .ok bytes) :
    c.Comes launch scratch unit references disk
      (.ok ⟨unit.className, Source.render unit, references, some bytes⟩) := by
  have hjudge : c.judge (imagePath scratch unit) (c.run launch scratch (.ofUnit unit references) disk).1 =
      .ok ⟨[], some bytes⟩ := by
    simp only [h.run_eq, judge, errors_eq_nil hstatus hlines, himage]
    rfl
  unfold imagePath at hjudge
  unfold Comes compile Command.backend
  simp only [hjudge]
  exact ⟨rfl, rfl⟩

/-- A program that is blamed makes the compilation fail with what it is blamed for. -/
theorem Ran.comes_of_blames (h : c.Ran launch scratch unit references disk run) (hblames : c.Blames run lines) :
    c.Comes launch scratch unit references disk (.error (.compilation lines)) := by
  have hlines := List.isEmpty_eq_false_iff.mpr hblames.ne_nil
  have hjudge : c.judge (imagePath scratch unit) (c.run launch scratch (.ofUnit unit references) disk).1 =
      .ok ⟨lines, none⟩ := by
    simp only [h.run_eq, judge, hblames.errors_eq, hlines]
    rfl
  unfold imagePath at hjudge
  unfold Comes compile Command.backend
  simp only [hjudge, hlines]
  exact ⟨rfl, by simp [Function.comp_def, Notice.diagnostic, reports]⟩

/-- What compiling a class with a program can come to, and when. -/
inductive Verdict (c : Command) (launch : Launcher) (scratch : Place) (unit : ProxyUnit) (references : List String)
    (disk : Disk) : Except Failure Artifact → Prop
  | noSource {fault : IoFault} : prepared scratch unit disk = .error fault →
      Verdict c launch scratch unit references disk (.error (.io fault))
  | failsToStart {fault : IoFault} : c.FailsToStart launch scratch unit references disk fault →
      Verdict c launch scratch unit references disk (.error (.backend c.program s!"failed to start: {fault.text}"))
  | blamed {run : ProgramRun} {lines : List String} : c.Ran launch scratch unit references disk run →
      c.Blames run lines →
      Verdict c launch scratch unit references disk (.error (.compilation lines))
  | noImage {run : ProgramRun} {fault : IoFault} : c.Ran launch scratch unit references disk run →
      run.status = .exited 0 → errorLines run = [] →
      run.disk.read scratch (imagePath scratch unit) = .error fault →
      Verdict c launch scratch unit references disk
        (.error (.backend c.program s!"no image at {imagePath scratch unit}: {fault.text}"))
  | compiled {run : ProgramRun} {bytes : List UInt8} : c.Ran launch scratch unit references disk run →
      run.status = .exited 0 → errorLines run = [] →
      run.disk.read scratch (imagePath scratch unit) = .ok bytes →
      Verdict c launch scratch unit references disk
        (.ok ⟨unit.className, Source.render unit, references, some bytes⟩)

variable {result : Except Failure Artifact}

/-- A verdict is what the compilation comes to, -/
theorem Verdict.comes (h : c.Verdict launch scratch unit references disk result) :
    c.Comes launch scratch unit references disk result := by
  cases h with
  | noSource h => exact comes_of_noSource h
  | failsToStart h => exact h.comes
  | blamed h hblames => exact h.comes_of_blames hblames
  | noImage h hstatus hlines himage => exact h.comes_of_no_image hstatus hlines himage
  | compiled h hstatus hlines himage => exact h.comes_of_image hstatus hlines himage

/-- and there always is one. -/
theorem exists_verdict (c : Command) (launch : Launcher) (scratch : Place) (unit : ProxyUnit)
    (references : List String) (disk : Disk) : ∃ result, c.Verdict launch scratch unit references disk result := by
  cases hready : prepared scratch unit disk with
  | error fault => exact ⟨_, .noSource hready⟩
  | ok ready =>
    cases hstarted : c.started launch scratch unit references ready with
    | error fault => exact ⟨_, .failsToStart ⟨ready, hready, hstarted⟩⟩
    | ok run =>
      have hran : c.Ran launch scratch unit references disk run := ⟨ready, hready, hstarted⟩
      by_cases hblames : ∃ lines, c.Blames run lines
      · obtain ⟨lines, hblames⟩ := hblames
        exact ⟨_, .blamed hran hblames⟩
      · -- a program that is not blamed reports no errors and succeeds
        have hblameless := mt exists_blames_iff.mpr hblames
        rw [not_or, not_not, not_not] at hblameless
        cases himage : run.disk.read scratch (imagePath scratch unit) with
        | error fault => exact ⟨_, .noImage hran hblameless.2 hblameless.1 himage⟩
        | ok bytes => exact ⟨_, .compiled hran hblameless.2 hblameless.1 himage⟩

/-- **Compiling with a program is all or nothing.** There is an artifact, with the image, the source and the references
    as they are, exactly if the program was started, ended well, reported no error in any line and left a readable
    image. The compilation fails exactly if the program ran and either reported an error or ended badly, and then with
    what the program is blamed for, which is never nothing. The backend fails exactly if the program could not be
    started, or ended well without an error and left no image; that there is no source to start it on is a failure of
    its own. What is reported is one note, one error for each line, or nothing. -/
theorem compile_command (c : Command) (launch : Launcher) (scratch : Place) (unit : ProxyUnit)
    (references : List String) (disk : Disk) :
    let compilation := compile (c.backend launch scratch) unit references disk
    let Ran := c.Ran launch scratch unit references disk
    (∀ artifact, compilation.result = .ok artifact ↔
      ∃ run bytes, Ran run ∧ run.status = .exited 0 ∧ errorLines run = [] ∧
        run.disk.read scratch (imagePath scratch unit) = .ok bytes ∧
        artifact = ⟨unit.className, Source.render unit, references, some bytes⟩) ∧
    ((∃ lines, compilation.result = .error (.compilation lines)) ↔
      ∃ run, Ran run ∧ (errorLines run ≠ [] ∨ run.status ≠ .exited 0)) ∧
    (∀ lines, compilation.result = .error (.compilation lines) → lines ≠ [] ∧ ∃ run, Ran run ∧ c.Blames run lines) ∧
    ((∃ name reason, compilation.result = .error (.backend name reason)) ↔
      (∃ fault, c.FailsToStart launch scratch unit references disk fault) ∨
      ∃ run fault, Ran run ∧ run.status = .exited 0 ∧ errorLines run = [] ∧
        run.disk.read scratch (imagePath scratch unit) = .error fault) ∧
    (∀ fault, compilation.result = .error (.io fault) ↔ prepared scratch unit disk = .error fault) ∧
    compilation.notices.map Notice.diagnostic =
      match compilation.result with
      | .ok _ => [⟨.note, none, s!"Service {unit.className} compiled successfully"⟩]
      | .error (.compilation lines) => lines.map fun line => ⟨.error, some .compilerOutput, line⟩
      | .error _ => [] := by
  intro compilation Ran
  obtain ⟨result, hverdict⟩ := exists_verdict c launch scratch unit references disk
  obtain ⟨hresult, hreported⟩ : compilation.result = result ∧ _ := hverdict.comes
  have hcomes {other : Except Failure Artifact} (h : c.Verdict launch scratch unit references disk other) :
      result = other := hresult.symm.trans h.comes.1
  rw [hresult]
  -- the verdict on a result of a kind says how it came to be, and what a verdict needs is enough for its result
  refine ⟨fun artifact => ⟨?_, ?_⟩, ⟨?_, ?_⟩, ?_, ⟨?_, ?_⟩, fun fault => ⟨?_, ?_⟩, ?_⟩
  · rintro rfl
    cases hverdict with
    | compiled hran hstatus hlines himage => exact ⟨_, _, hran, hstatus, hlines, himage, rfl⟩
  · rintro ⟨run, bytes, hran, hstatus, hlines, himage, rfl⟩
    exact hcomes (.compiled hran hstatus hlines himage)
  · rintro ⟨lines, rfl⟩
    cases hverdict with
    | blamed hran hblames => exact ⟨_, hran, exists_blames_iff.mp ⟨lines, hblames⟩⟩
  · rintro ⟨run, hran, h⟩
    obtain ⟨lines, hblames⟩ := exists_blames_iff.mpr h
    exact ⟨lines, hcomes (.blamed hran hblames)⟩
  · rintro lines rfl
    cases hverdict with
    | blamed hran hblames => exact ⟨hblames.ne_nil, _, hran, hblames⟩
  · rintro ⟨name, reason, rfl⟩
    cases hverdict with
    | failsToStart h => exact .inl ⟨_, h⟩
    | noImage hran hstatus hlines himage => exact .inr ⟨_, _, hran, hstatus, hlines, himage⟩
  · rintro (⟨fault, h⟩ | ⟨run, fault, hran, hstatus, hlines, himage⟩)
    · exact ⟨_, _, hcomes (.failsToStart h)⟩
    · exact ⟨_, _, hcomes (.noImage hran hstatus hlines himage)⟩
  · rintro rfl
    cases hverdict with
    | noSource h => exact h
  · exact fun h => hcomes (.noSource h)
  · exact hreported

end Command

end BoundaryProxy.Compile

/-
  The program reports faithfully.

  A page that cannot be read as text ends the program, and nothing is put out for it.  Every other
  page is expanded: then the output is the expansion that the library gives, and every problem is
  told on the error output twice.  The logger is told of it first, and writes what it writes; when
  the expansion is done there is one line of the program for each problem (`IsLines`).  The names in
  these lines come from the page, so anything can be in them; that they are quoted keeps each one on
  its line (`Diagnostic.isShown_message`).  A tree is printed without a question to the source.

  Main statement, `run_faithful`.
-/
import Transclusion.Proofs.CommandLine.Confinement
import Transclusion.Proofs.Text.Quoting

namespace Transclusion

/-! ## Lines -/

/-- **A problem in words is one line**, and shows all of the name in it. -/
theorem Diagnostic.isShown_message (problem : Diagnostic) : Text.IsShown problem.message := by
  cases problem with
  | tooDeep name limit =>
    have hname : Text.IsShown ("template " ++ Text.quote name) :=
      .append (by decide) (Text.isShown_quote name)
    have hlimit : Text.IsShown ("template " ++ Text.quote name ++ " nested too deep (limit ") :=
      hname.append (by decide)
    exact (hlimit.append (Text.isShown_numeral limit)).append (by decide)
  | nestingTooDeep limit =>
    have hlimit : Text.IsShown ("markup nested too deep (limit " ++ Text.numeral limit) :=
      .append (by decide) (Text.isShown_numeral limit)
    exact hlimit.append (by decide)
  | missingTemplate name => exact .append (by decide) (Text.isShown_quote name)

namespace CommandLine

/-- The text is made of these lines: each has a line break behind it, and no control character, a
    line break or any other, in it. -/
structure IsLines (text : String) (lines : List String) : Prop where
  text_eq : text = String.join (lines.map (· ++ "\n"))
  shown : ∀ line ∈ lines, Text.IsShown line

namespace IsLines

variable {text line : String} {lines later others : List String}

theorem cons_iff : IsLines text (line :: later) ↔
    Text.IsShown line ∧ ∃ rest, text = line ++ ("\n" ++ rest) ∧ IsLines rest later := by
  constructor
  · intro h
    obtain ⟨hline, hlater⟩ := List.forall_mem_cons.1 h.shown
    refine ⟨hline, _, ?_, ⟨rfl, hlater⟩⟩
    rw [h.text_eq, List.map_cons, String.join_cons, String.append_assoc]
  · rintro ⟨hline, rest, rfl, hrest⟩
    refine ⟨?_, List.forall_mem_cons.2 ⟨hline, hrest.shown⟩⟩
    rw [hrest.text_eq, List.map_cons, String.join_cons, String.append_assoc]

theorem nil : IsLines "" [] := ⟨rfl, List.forall_mem_nil _⟩

theorem append {other : String} (h : IsLines text lines) (hother : IsLines other others) :
    IsLines (text ++ other) (lines ++ others) := by
  refine ⟨?_, List.forall_mem_append.2 ⟨h.shown, hother.shown⟩⟩
  rw [h.text_eq, hother.text_eq, List.map_append, String.join_append]

/-- Texts in a row, each of lines, are made of all these lines. -/
theorem join_mapIdx {α : Type} {texts : Nat → α → String} {linesOf : Nat → α → List String}
    (h : ∀ before item, IsLines (texts before item) (linesOf before item)) (items : List α) :
    IsLines (String.join (items.mapIdx texts)) (items.mapIdx linesOf).flatten := by
  induction items generalizing texts linesOf with
  | nil => exact nil
  | cons item later ih =>
    rw [List.mapIdx_cons, String.join_cons, List.mapIdx_cons, List.flatten_cons]
    exact (h 0 item).append (ih fun before => h (before + 1))

theorem not_cons_empty : ¬IsLines "" (line :: later) := by
  intro h
  obtain ⟨-, rest, htext, -⟩ := cons_iff.1 h
  have hempty := congrArg (fun text => '\n' ∈ text.toList) htext
  simp at hempty

/-- **The lines can be told from the text**: each ends at the first line break. -/
theorem unique (h : IsLines text lines) (hother : IsLines text others) : lines = others := by
  induction lines generalizing text others with
  | nil =>
    obtain rfl : text = "" := h.text_eq
    cases others with
    | nil => rfl
    | cons other later => exact absurd hother not_cons_empty
  | cons line later ih =>
    cases others with
    | nil =>
      obtain rfl : text = "" := hother.text_eq
      exact absurd h not_cons_empty
    | cons other others =>
      obtain ⟨hline, rest, rfl, hrest⟩ := cons_iff.1 h
      obtain ⟨hline', rest', htext, hrest'⟩ := cons_iff.1 hother
      have hbreak : ∀ line, Text.IsShown line → '\n' ∉ line.toList :=
        fun line hshown hmem => hshown '\n' hmem (by decide)
      have hchars : line.toList ++ '\n' :: rest.toList = other.toList ++ '\n' :: rest'.toList := by
        simpa using congrArg String.toList htext
      obtain ⟨hfirst, hlater⟩ := Text.cut_inj (hbreak _ hline) (hbreak _ hline') hchars
      rw [String.toList_inj] at hfirst hlater
      subst hfirst hlater
      rw [ih hrest hrest']

theorem iff_eq (h : IsLines text lines) : IsLines text others ↔ others = lines :=
  ⟨fun hother => hother.unique h, fun heq => heq ▸ h⟩

end IsLines

/-- The line that the program writes of a problem. -/
def problemLine (problem : Diagnostic) : String := "wikiexpand: " ++ problem.message

/-! ## Pages that can be read -/

theorem decode_eq_ok_iff {contents : ByteArray} {text : String} :
    decode contents = .ok text ↔ contents = text.toUTF8 := by
  rw [decode]
  constructor
  · intro h
    split at h
    · next decoded hdecoded =>
      obtain rfl := Except.ok.inj h
      rw [String.fromUTF8?] at hdecoded
      split at hdecoded
      · rw [← Option.some.inj hdecoded]
        rfl
      · cases hdecoded
    · cases h
  · rintro rfl
    have hdecoded : String.fromUTF8? text.toUTF8 = some text := dif_pos text.isValidUTF8
    rw [hdecoded]

namespace Options

/-- The contents of the page: those of its file, or what stands on standard input. -/
def contents (options : Options) (read : Reader) (stdin : ByteArray) :
    Except ReadError ByteArray :=
  match options.file with
  | some path => read path
  | none => .ok stdin

/-- What the library is asked to expand: the page under its name, with the pages of the directory,
    up to a depth of 40 unless another is given, and up to a nesting of 500. -/
def draft (options : Options) (read : Reader) (text : String) : Draft where
  text := text
  page := options.page.getD ""
  source := some (directorySource read (options.templates.getD "."))
  limits := ⟨options.maxDepth.getD 40, 500⟩

variable {options : Options} {read : Reader} {stdin : ByteArray} {text : String}

/-- A page has a text exactly if its contents are that text as UTF-8. -/
theorem pageText_eq_ok_iff :
    options.pageText read stdin = .ok text ↔ options.contents read stdin = .ok text.toUTF8 := by
  rw [pageText, contents]
  cases options.file with
  | none =>
    rw [Except.ok.injEq]
    exact decode_eq_ok_iff
  | some path =>
    simp only [readText]
    cases read path with
    | error error =>
      constructor
      · intro h
        cases h
      · intro h
        cases h
    | ok contents =>
      rw [Except.ok.injEq]
      exact decode_eq_ok_iff

theorem build_draft :
    (options.draft read text).build = .ok (.ofPage text (options.setting read)) := by
  have hlimits : options.limits = ⟨options.maxDepth.getD 40, 500⟩ := by
    rw [limits]
    cases options.maxDepth with
    | none => rfl
    | some maxDepth => rfl
  rw [setting, hlimits]
  rfl

variable {wording : Wording}

/-- A page that cannot be read ends the program. -/
theorem run_of_unreadable (h : ∀ text : String, options.contents read stdin ≠ .ok text.toUTF8) :
    (options.run read stdin wording).exitCode = 1 ∧
      (options.run read stdin wording).stdout = "" := by
  rw [run]
  cases hpage : options.pageText read stdin with
  | ok text => exact absurd (pageText_eq_ok_iff.1 hpage) (h text)
  | error error => exact ⟨rfl, rfl⟩

/-- Every other page is presented. -/
theorem run_of_readable (h : options.contents read stdin = .ok text.toUTF8) :
    options.run read stdin wording = options.present read text wording := by
  rw [run, pageText_eq_ok_iff.2 h]

theorem present_tree (htree : options.showTree = true) :
    options.present read text wording =
      ⟨0, (Node.parse text).render, "", options.file.toList⟩ := by
  rw [present, if_pos htree]
  rfl

/-- An expansion is put out as it is.  Of its problems there is what the logger writes, and then a
    line for each. -/
theorem present_expansion (htree : options.showTree = false) {expander : Expander}
    (hbuild : (options.draft read text).build = .ok expander) :
    let problems := expander.expand.2.diagnostics.toList
    let outcome := options.present read text wording
    outcome.exitCode = 0 ∧ outcome.stdout = expander.expand.1 ∧
      ∃ report, IsLines report (problems.map problemLine) ∧
        outcome.stderr = String.join (problems.mapIdx wording.told) ++ report := by
  intro problems outcome
  obtain rfl : Expander.ofPage text (options.setting read) = expander :=
    Except.ok.inj (build_draft.symm.trans hbuild)
  have houtcome : ∃ reads, outcome = ⟨0, (Expander.ofPage text (options.setting read)).expand.1,
      String.join (problems.mapIdx wording.told ++
        problems.map fun problem => "wikiexpand: " ++ problem.message ++ "\n"), reads⟩ := by
    simp only [outcome]
    rw [present, if_neg (by rw [htree]; decide)]
    exact ⟨_, rfl⟩
  obtain ⟨reads, houtcome⟩ := houtcome
  rw [houtcome]
  refine ⟨rfl, rfl, String.join ((problems.map problemLine).map (· ++ "\n")), ⟨rfl, ?_⟩, ?_⟩
  · intro line hline
    obtain ⟨problem, -, rfl⟩ := List.mem_map.1 hline
    exact .append (by decide) problem.isShown_message
  · rw [String.join_append, List.map_map]
    rfl

end Options

/-! ## Command lines -/

/-- **The program reports faithfully**, on every command line that asks for an expansion.

    A page that cannot be read ends the program with exit code 1 and no output.  On every other page
    it ends with exit code 0, whatever problems there are.  It puts out the expansion of the library
    then.  The error output is what the logger writes of the problems, in order, and behind it a
    report of one line for each problem, in order.  So where the logger writes lines, be it none,
    the lines of the error output are those, and then one for each problem.  For a tree the program
    puts out the outline and nothing else, and reads no file but that of the page. -/
theorem run_faithful {words : List String} {options : Options}
    (hwords : parse words = .ok (.expand options)) (read : Reader) (stdin : ByteArray)
    (wording : Wording) :
    let outcome := run read stdin words wording
    ((∀ text : String, options.contents read stdin ≠ .ok text.toUTF8) →
      outcome.exitCode = 1 ∧ outcome.stdout = "") ∧
    ∀ text : String, options.contents read stdin = .ok text.toUTF8 →
      outcome.exitCode = 0 ∧
      (options.showTree = false → ∃ expander, (options.draft read text).build = .ok expander ∧
        let problems := expander.expand.2.diagnostics.toList
        outcome.stdout = expander.expand.1 ∧
        (∃ report,
          outcome.stderr = String.join (problems.mapIdx wording.told) ++ report ∧
          ∀ lines, IsLines report lines ↔ lines = problems.map problemLine) ∧
        ∀ logged : Nat → Diagnostic → List String,
          (∀ before problem, IsLines (wording.told before problem) (logged before problem)) →
          ∀ lines, IsLines outcome.stderr lines ↔
            lines = (problems.mapIdx logged).flatten ++ problems.map problemLine) ∧
      (options.showTree = true →
        outcome.stdout = (Node.parse text).render ∧ outcome.stderr = "" ∧
        outcome.reads = options.file.toList ∧
        ∀ other : Reader, options.contents other stdin = .ok text.toUTF8 →
          run other stdin words wording = outcome) := by
  intro outcome
  have hrun : ∀ reader : Reader,
      run reader stdin words wording = options.run reader stdin wording := by
    intro reader
    rw [run, hwords]
  refine ⟨fun hnone => ?_, fun text htext => ?_⟩
  · rw [show outcome = _ from hrun read]
    exact Options.run_of_unreadable hnone
  · have houtcome : outcome = options.present read text wording :=
      (hrun read).trans (Options.run_of_readable htext)
    rw [houtcome]
    cases htree : options.showTree with
    | false =>
      obtain ⟨hexit, hstdout, report, hreport, hstderr⟩ :=
        Options.present_expansion htree Options.build_draft
      refine ⟨hexit, fun _ => ⟨_, Options.build_draft, hstdout, ⟨report, hstderr, fun lines => ?_⟩,
        fun logged hlogged lines => ?_⟩, fun h => absurd h Bool.false_ne_true⟩
      · exact hreport.iff_eq
      · rw [hstderr]
        exact ((IsLines.join_mapIdx hlogged _).append hreport).iff_eq
    | true =>
      rw [Options.present_tree htree]
      refine ⟨rfl, fun h => absurd h.symm Bool.false_ne_true,
        fun _ => ⟨rfl, rfl, rfl, fun other hother => ?_⟩⟩
      rw [hrun other, Options.run_of_readable hother, Options.present_tree htree]

/-- The line of a logger that is turned on. -/
def loggedLine (time : Nat → String) (before : Nat) (problem : Diagnostic) : String :=
  "[" ++ time before ++ " WARN  wikiexpand::processor] " ++ problem.message

/-- A logger that is turned on writes one line of each problem. -/
theorem isLines_told_logging {time : Nat → String} (htime : ∀ before, Text.IsShown (time before))
    (before : Nat) (problem : Diagnostic) :
    IsLines ((Wording.logging time).told before problem) [loggedLine time before problem] := by
  refine ⟨rfl, List.forall_mem_singleton.2 ?_⟩
  have hlevel : Text.IsShown ("[" ++ time before ++ " WARN  wikiexpand::processor] ") :=
    .append (.append (by decide) (htime before)) (by decide)
  exact hlevel.append problem.isShown_message

/-- A page that calls a page which calls itself, and a page with a line break in its name. -/
def brokenNameFiles : Table String :=
  [("page.txt", "\x7b\x7ba\x7d\x7d\x7b\x7bb\nc\x7d\x7d"), ("pages/a.wiki", "A\x7b\x7ba\x7d\x7d")]

/-- Two problems are two lines of the logger and two of the program, though one of the names has a
    line break; with the logger turned off they are the two of the program.  The tree needs no page
    of the directory, and a page that is no text is an error. -/
theorem run_faithful_brokenName :
    let words := ["-t", "pages", "--max-depth", "1", "page.txt"]
    let wording := Wording.logging fun _ => "2026-01-01T00:00:00Z"
    let outcome := run (.ofTexts brokenNameFiles) .empty words wording
    let options : Options :=
      { file := some "page.txt", templates := some "pages", maxDepth := some 1 }
    parse words = .ok (.expand options) ∧
    outcome.exitCode = 0 ∧ outcome.stdout = "A" ∧
    (∀ lines, IsLines outcome.stderr lines ↔
      lines = [
        "[2026-01-01T00:00:00Z WARN  wikiexpand::processor] " ++
          "template \"a\" nested too deep (limit 1)",
        "[2026-01-01T00:00:00Z WARN  wikiexpand::processor] no template \"b\\nc\"",
        "wikiexpand: template \"a\" nested too deep (limit 1)",
        "wikiexpand: no template \"b\\nc\""]) ∧
    (∀ lines, IsLines (run (.ofTexts brokenNameFiles) .empty words .silent).stderr lines ↔
      lines = ["wikiexpand: template \"a\" nested too deep (limit 1)",
        "wikiexpand: no template \"b\\nc\""]) ∧
    (run (.ofTexts brokenNameFiles) .empty ("--show-tree" :: words) wording).reads = ["page.txt"] ∧
    (run (fun _ => .ok ⟨#[0xff]⟩) .empty words wording).exitCode = 1 := by
  intro words wording outcome options
  have hwords : parse words = .ok (.expand options) := by decide +kernel
  have htree : parse ("--show-tree" :: words) =
      .ok (.expand { options with showTree := true }) := by decide +kernel
  have hread : options.contents (.ofTexts brokenNameFiles) .empty =
      .ok ("\x7b\x7ba\x7d\x7d\x7b\x7bb\nc\x7d\x7d" : String).toUTF8 := rfl
  obtain ⟨hexit, hexpansion, -⟩ :=
    (run_faithful hwords (.ofTexts brokenNameFiles) .empty wording).2 _ hread
  obtain ⟨expander, hbuild, hstdout, -, hlines⟩ := hexpansion rfl
  obtain rfl := Except.ok.inj hbuild
  obtain ⟨-, hsilent, -⟩ :=
    (run_faithful hwords (.ofTexts brokenNameFiles) .empty .silent).2 _ hread
  obtain ⟨expander, hbuild, -, -, hsilentLines⟩ := hsilent rfl
  obtain rfl := Except.ok.inj hbuild
  obtain ⟨-, -, hreads⟩ := (run_faithful htree (.ofTexts brokenNameFiles) .empty wording).2 _ hread
  have hlogged := hlines _ (isLines_told_logging fun _ => by decide)
  refine ⟨hwords, hexit, hstdout.trans (by decide +kernel), fun lines => ?_, fun lines => ?_,
    (hreads rfl).2.2.1, ((run_faithful hwords _ .empty wording).1 fun text htext => ?_).1⟩
  · rw [hlogged lines]
    exact iff_of_eq (congrArg (lines = ·) (by decide +kernel))
  · rw [hsilentLines (fun _ _ => []) (fun _ _ => IsLines.nil) lines]
    exact iff_of_eq (congrArg (lines = ·) (by decide +kernel))
  · have hdecoded : decode ⟨#[0xff]⟩ = .error .notUtf8 := by rfl
    rw [decode_eq_ok_iff.2 (Except.ok.inj htext)] at hdecoded
    cases hdecoded

/-- **A problem is not one line** when the logger is turned on: here is one problem, and two lines
    tell of it. -/
theorem not_line_per_problem :
    let words := ["page.txt"]
    let read := Reader.ofTexts [("page.txt", "\x7b\x7bnosuch\x7d\x7d")]
    let options : Options := { file := some "page.txt" }
    let outcome := run read .empty words (.logging fun _ => "2026-01-01T00:00:00Z")
    parse words = .ok (.expand options) ∧
    options.contents read .empty = .ok ("\x7b\x7bnosuch\x7d\x7d" : String).toUTF8 ∧
    ∃ expander, (options.draft read "\x7b\x7bnosuch\x7d\x7d").build = .ok expander ∧
      expander.expand.2.diagnostics = #[.missingTemplate "nosuch"] ∧
      outcome.stderr =
        "[2026-01-01T00:00:00Z WARN  wikiexpand::processor] no template \"nosuch\"\n" ++
          "wikiexpand: no template \"nosuch\"\n" ∧
      ¬∃ lines, IsLines outcome.stderr lines ∧
        lines.length = expander.expand.2.diagnostics.size := by
  intro words read options outcome
  have hproblems :
      (Expander.ofPage "\x7b\x7bnosuch\x7d\x7d" (options.setting read)).expand.2.diagnostics =
        #[.missingTemplate "nosuch"] := by decide +kernel
  have hlines : IsLines outcome.stderr
      ["[2026-01-01T00:00:00Z WARN  wikiexpand::processor] no template \"nosuch\"",
        "wikiexpand: no template \"nosuch\""] :=
    ⟨by decide +kernel, by decide +kernel⟩
  refine ⟨by decide +kernel, rfl, _, Options.build_draft, hproblems, by decide +kernel, ?_⟩
  rintro ⟨lines, hother, hlength⟩
  rw [hother.unique hlines, hproblems] at hlength
  exact absurd hlength (by decide)

end CommandLine

end Transclusion

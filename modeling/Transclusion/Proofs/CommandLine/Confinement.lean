/-
  The program reads nothing but what its command line names.

  The names of pages come from the text that is expanded, so they are anybody's.  They are trimmed
  and tested where the path of a page is made (`pageFile?`), and there is no other way from a name
  to a path.  So whatever was done to a name before that, the path is that of a file in the
  directory of the pages (`exists_isPlain_of_pageFile?`).

  That an outcome tells its reads is no more than a list in it.  The list is all that matters: the
  outcome is the same with every reader that agrees on it (`Options.run_congr`), since an expansion
  depends on its source only through what it asks, and on every question that it asks the two
  readers agree.

  Main statement, `run_confined`.
-/
import Transclusion.CommandLine.Program
import Transclusion.Proofs.Expansion.Lookups
import Transclusion.Proofs.Text.Blanks

namespace Transclusion

namespace CommandLine

/-! ## The files of a command line -/

/-- A name that stays in its directory: it is not empty, has no blank at its ends and no slash of
    either kind in it, and does not begin with a dot. -/
structure IsPlain (name : String) : Prop where
  ne_empty : name ≠ ""
  first : ∀ c, name.toList.head? = some c → Text.isBlank c = false ∧ c ≠ '.'
  last : ∀ c, name.toList.getLast? = some c → Text.isBlank c = false
  slash : '/' ∉ name.toList
  backslash : '\\' ∉ name.toList

/-- The files that options open to the program: the file of the page, and pages in the directory. -/
def Options.Opens (options : Options) (path : String) : Prop :=
  options.file = some path ∨
    ∃ name, IsPlain name ∧ path = pathIn options.directory (name ++ ".wiki")

/-- The files that a command line opens to the program: none, unless it asks for an expansion. -/
def Opens (words : List String) (path : String) : Prop :=
  ∃ options, parse words = .ok (.expand options) ∧ options.Opens path

/-- Different files in a directory have different paths. -/
theorem pathIn_injective (directory : String) : Function.Injective (pathIn directory) := by
  intro file other h
  simp only [pathIn] at h
  split at h
  · exact (String.append_right_inj _).1 h
  · exact (String.append_right_inj _).1 h

/-- **Whatever the name**, its page is a file in the directory. -/
theorem exists_isPlain_of_pageFile? {directory name path : String}
    (h : pageFile? directory name = some path) :
    ∃ plain, IsPlain plain ∧ path = pathIn directory (plain ++ ".wiki") := by
  simp only [pageFile?] at h
  split at h
  · next hpage =>
    simp only [isPageName, Bool.and_eq_true, Bool.not_eq_true', bne_iff_ne,
      List.isEmpty_eq_false_iff, List.contains_eq_mem, decide_eq_false_iff_not] at hpage
    obtain ⟨⟨⟨hne, hslash⟩, hbackslash⟩, hdot⟩ := hpage
    refine ⟨String.ofList (Text.trimChars name.toList), ?_, (Option.some.inj h).symm⟩
    constructor
    · intro hempty
      apply hne
      rw [← String.toList_ofList (l := Text.trimChars name.toList), hempty]
      rfl
    · intro c hc
      rw [String.toList_ofList] at hc
      refine ⟨Text.isBlank_head?_trimChars hc, ?_⟩
      rintro rfl
      exact hdot hc
    · intro c hc
      rw [String.toList_ofList] at hc
      exact Text.isBlank_getLast?_trimChars hc
    · rwa [String.toList_ofList]
    · rwa [String.toList_ofList]
  · exact absurd h nofun

namespace Options

variable {options : Options}

/-- A question to the source is answered from a page in the directory. -/
theorem opens_of_lookupFile? {lookup : Lookup} {path : String}
    (h : options.lookupFile? lookup = some path) : options.Opens path := by
  cases lookup with
  | template name => exact .inr (exists_isPlain_of_pageFile? h)
  | article title => exact .inr (exists_isPlain_of_pageFile? h)

/-- **A run reads only files that its options open.** -/
theorem opens_of_mem_reads {read : Reader} {stdin : ByteArray} {wording : Wording} {path : String}
    (h : path ∈ (options.run read stdin wording).reads) : options.Opens path := by
  simp only [run] at h
  split at h
  · next text _ =>
    simp only [present] at h
    split at h
    · exact .inl (Option.mem_toList.1 h)
    · rcases List.mem_append.1 h with hfile | hpage
      · exact .inl (Option.mem_toList.1 hfile)
      · obtain ⟨lookup, -, hlookup⟩ := List.mem_filterMap.1 hpage
        exact opens_of_lookupFile? hlookup
  · exact .inl (Option.mem_toList.1 h)

/-! ## What a run depends on -/

/-- The file of the page is among the reads of every run. -/
theorem mem_reads_of_file {read : Reader} {stdin : ByteArray} {wording : Wording} {path : String}
    (h : options.file = some path) : path ∈ (options.run read stdin wording).reads := by
  have hfile : path ∈ options.file.toList := Option.mem_toList.2 h
  simp only [run, present]
  split
  · split
    · exact hfile
    · exact List.mem_append_left _ hfile
  · exact hfile

/-- The answer to a question depends on no file but the one that it is answered from. -/
theorem answer_congr {read other : Reader} {lookup : Lookup}
    (h : ∀ path, options.lookupFile? lookup = some path → other path = read path) :
    (directorySource other options.directory).answer lookup =
      (directorySource read options.directory).answer lookup := by
  have hpage : ∀ name, (∀ path, pageFile? options.directory name = some path →
      other path = read path) →
      page? other options.directory name = page? read options.directory name := by
    intro name hname
    rw [page?, page?]
    cases hfile : pageFile? options.directory name with
    | none => rfl
    | some path =>
      simp only [readText, hname path hfile]
  cases lookup with
  | template name => exact hpage name h
  | article title => exact hpage title h

/-- A page that was read expands alike with a reader that agrees on the pages that it asks for. -/
theorem present_congr {read other : Reader} {text : String} {wording : Wording}
    (h : ∀ path ∈ (options.present read text wording).reads, other path = read path) :
    options.present other text wording = options.present read text wording := by
  simp only [present] at h ⊢
  cases htree : options.showTree with
  | true => rfl
  | false =>
    simp only [htree, Bool.false_eq_true, if_false] at h ⊢
    have hasked : (Expander.ofPage text (options.setting read)).cache.AskedForKept :=
      Cache.askedForKept_empty
    have hsame : Expander.SameResult (Expander.ofPage text (options.setting other)).expand
        (Expander.ofPage text (options.setting read)).expand := by
      apply Expander.sameResult_withSource hasked
      -- a question was asked, so the file that it is answered from is among the reads
      intro lookup hlookup
      apply answer_congr
      intro path hpath
      apply h
      apply List.mem_append_right
      exact List.mem_filterMap.2 ⟨lookup, Array.mem_toList_iff.2 hlookup, hpath⟩
    rw [hsame.text, hsame.diagnostics, hsame.cache]

/-- **A run depends on nothing but its reads.** -/
theorem run_congr {read other : Reader} {stdin : ByteArray} {wording : Wording}
    (h : ∀ path ∈ (options.run read stdin wording).reads, other path = read path) :
    options.run other stdin wording = options.run read stdin wording := by
  have hpage : options.pageText other stdin = options.pageText read stdin := by
    rw [pageText, pageText]
    cases hfile : options.file with
    | none => rfl
    | some path => simp only [readText, h path (mem_reads_of_file hfile)]
  -- both runs have the same page now, so what is left to compare is what they make of it
  simp only [run, hpage] at h ⊢
  cases htext : options.pageText read stdin with
  | error error => rfl
  | ok text =>
    simp only [htext] at h ⊢
    exact present_congr h

end Options

/-! ## Command lines -/

/-- **The program reads nothing but what its command line names**: the file of the page, if it names
    one, and pages in the directory, under names that stay in it.  The reads that an outcome tells
    are all that it depends on.  So it is the same, in its exit code and all that is written, be it
    by the program or by its logger, with every reader that agrees on the files that the command
    line opens. -/
theorem run_confined (words : List String) (stdin : ByteArray) (read : Reader)
    (wording : Wording) :
    let outcome := run read stdin words wording
    (∀ path ∈ outcome.reads, Opens words path) ∧
    (∀ other : Reader, (∀ path ∈ outcome.reads, other path = read path) →
      run other stdin words wording = outcome) ∧
    ∀ other : Reader, (∀ path, Opens words path → other path = read path) →
      run other stdin words wording = outcome := by
  intro outcome
  have hreads : ∀ path ∈ outcome.reads, Opens words path := by
    intro path hpath
    simp only [outcome, run] at hpath
    split at hpath
    · exact absurd hpath List.not_mem_nil
    · exact absurd hpath List.not_mem_nil
    · next options hparse => exact ⟨options, hparse, Options.opens_of_mem_reads hpath⟩
  have hcongr : ∀ other : Reader, (∀ path ∈ outcome.reads, other path = read path) →
      run other stdin words wording = outcome := by
    intro other hother
    simp only [outcome, run] at hother ⊢
    cases hparse : parse words with
    | error error => rfl
    | ok request =>
      cases request with
      | help => rfl
      | expand options =>
        simp only [hparse] at hother
        exact Options.run_congr hother
  refine ⟨hreads, hcongr, ?_⟩
  intro other hother
  exact hcongr other fun path hpath => hother path (hreads path hpath)

/-- Files that hold texts, by their paths. -/
def Reader.ofTexts (files : Table String) : Reader := fun path =>
  match files.get? path with
  | some text => .ok text.toUTF8
  | none => .error .noSuchFile

/-- A logger that is turned on: a warning is a line with its time, its level and its origin. -/
def Wording.logging (time : Nat → String) : Wording where
  help _ := ""
  refusal _ _ := ""
  warning before problem :=
    "[" ++ time before ++ " WARN  wikiexpand::processor] " ++ problem ++ "\n"

/-- A page, a page that it calls, and two files that it calls for in vain: a hidden one, and one
    above the directory of the pages. -/
def sampleFiles (elsewhere : String) : Table String :=
  [("page.txt", "\x7b\x7ba\x7d\x7d\x7b\x7b../c\x7d\x7d\x7b\x7b.b\x7d\x7d"),
    ("pages/a.wiki", "A"), ("pages/.b.wiki", elsewhere), ("c.wiki", elsewhere)]

/-- The files that were called for in vain can hold anything. -/
theorem run_confined_sample :
    let words := ["-t", "pages", "page.txt"]
    let wording := Wording.logging fun _ => "2026-01-01T00:00:00Z"
    let outcome := run (.ofTexts (sampleFiles "B")) .empty words wording
    outcome = ⟨0, "A",
        "[2026-01-01T00:00:00Z WARN  wikiexpand::processor] no template \"../c\"\n" ++
          "[2026-01-01T00:00:00Z WARN  wikiexpand::processor] no template \".b\"\n" ++
          "wikiexpand: no template \"../c\"\nwikiexpand: no template \".b\"\n",
        ["page.txt", "pages/a.wiki"]⟩ ∧
      (∀ path, Opens words path → path ≠ "pages/.b.wiki" ∧ path ≠ "c.wiki") ∧
      run (.ofTexts (sampleFiles "C")) .empty words wording = outcome := by
  intro words wording outcome
  have hopens : ∀ path, Opens words path → path ≠ "pages/.b.wiki" ∧ path ≠ "c.wiki" := by
    rintro path ⟨options, hparse, hpath⟩
    have hoptions : options = { file := some "page.txt", templates := some "pages" } := by
      have hwords : parse words = .ok (.expand
          { file := some "page.txt", templates := some "pages" }) := rfl
      rw [hwords] at hparse
      injection hparse with hrequest
      injection hrequest with hoptions
      exact hoptions.symm
    subst hoptions
    rcases hpath with hfile | ⟨name, hplain, rfl⟩
    · obtain rfl := Option.some.inj hfile
      decide
    · constructor
      · intro hsame
        have hname : name ++ ".wiki" = ".b" ++ ".wiki" := pathIn_injective "pages" hsame
        rw [String.append_left_inj] at hname
        subst hname
        exact (hplain.first '.' rfl).2 rfl
      · intro hsame
        have hfirst : ("pages" ++ "/" ++ (name ++ ".wiki")).toList.head? = some 'c' :=
          congrArg (fun path => path.toList.head?) hsame
        rw [String.append_assoc, String.toList_append] at hfirst
        exact absurd hfirst (by simp)
  refine ⟨by decide +kernel, hopens, ?_⟩
  apply (run_confined words .empty (.ofTexts (sampleFiles "B")) wording).2.2
  intro path hpath
  obtain ⟨hhidden, habove⟩ := hopens path hpath
  simp only [Reader.ofTexts, sampleFiles, Table.get?_cons, if_neg hhidden, if_neg habove]

end CommandLine

end Transclusion

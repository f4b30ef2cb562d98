/-
  Expanders: a page together with what it takes to expand it, again and again.

  A draft collects the page and its setting, of which only the source is required.  The expander
  made from it holds the page's tree; each expansion starts from an empty scope and no diagnostics,
  and goes on with the bodies that earlier ones have read.
-/
import Transclusion.Flatten

namespace Transclusion

/-- A page ready to be expanded. -/
structure Expander where
  /-- The page. -/
  tree : Node
  setting : Setting
  /-- The bodies that were read so far. -/
  cache : Cache
  /-- The problems of the last expansion, in order. -/
  diagnostics : Array Diagnostic

namespace Expander

/-- The expander of a page that nothing was expanded of yet. -/
def ofPage (text : String) (setting : Setting) : Expander :=
  ⟨Node.parse text, setting, .empty, #[]⟩

/-- The text of the page with everything in it expanded, and the expander afterwards. -/
def expand (expander : Expander) : String × Expander :=
  let (text, run) := flatten expander.setting expander.setting.limits.maxNesting expander.tree
    .empty 0 ⟨expander.cache, #[]⟩
  (text, { expander with cache := run.cache, diagnostics := run.diagnostics })

end Expander

/-- What an expander is made from. -/
structure Draft where
  text : String
  page : String := ""
  source : Option Source := none
  magic : MagicRegistry := .empty
  limits : Limits := {}

/-- The expander of a draft, if the draft has a source. -/
def Draft.build (draft : Draft) : Except BuildError Expander :=
  match draft.source with
  | none => .error .missingSource
  | some source => .ok (.ofPage draft.text ⟨draft.page, source, draft.magic, draft.limits⟩)

/-- The text of a page without a name, expanded with the default limits and no magic names. -/
def expandText (text : String) (source : Source) : String :=
  (Expander.ofPage text ⟨"", source, .empty, {}⟩).expand.1

end Transclusion

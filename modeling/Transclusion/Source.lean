/-
  Where the bodies of calls come from.

  A source answers two kinds of question, for a template and for an article, and an answer is a
  text or that there is no such page.  Asking changes nothing, so a source is a pair of functions.
  `Lookup` is a question as a value: what was asked can be kept and compared.
-/
import Transclusion.Table

namespace Transclusion

/-- A question to a source. -/
inductive Lookup where
  /-- The body of a template. -/
  | template (name : String)
  /-- The text of an article, taken in as if it were a template. -/
  | article (title : String)
deriving DecidableEq

/-- The question that a call by `name` asks: a name with a colon in front means the article named
    behind the colon. -/
def Lookup.ofName (name : String) : Lookup :=
  match name.toList with
  | ':' :: title => .article (String.ofList title)
  | _ => .template name

/-- Templates and articles by name. -/
structure Source where
  template : String → Option String
  article : String → Option String

/-- The answer of a source to a question. -/
def Source.answer (source : Source) : Lookup → Option String
  | .template name => source.template name
  | .article title => source.article title

/-- A source that looks templates and articles up in two tables. -/
def Source.ofTables (templates articles : Table String) : Source :=
  ⟨fun name => templates.get? name, fun title => articles.get? title⟩

/-- Pages held in memory, templates and articles under the same names. -/
structure PageTable where
  pages : Table String

namespace PageTable

/-- No pages. -/
def empty : PageTable := ⟨[]⟩

/-- The table with a page, in place of the one that had its name. -/
def insert (table : PageTable) (name text : String) : PageTable := ⟨table.pages.assign name text⟩

/-- A page table as a source: it answers both kinds of question alike. -/
def toSource (table : PageTable) : Source := Source.ofTables table.pages table.pages

end PageTable

end Transclusion

import DiagnosticRelay.Url.Segments

/-!
# Documentation links

Every rule identifier has a page of its own below one address. The identifier is
the last segment of that page's URL.

## Main definitions

* `Diagnostic.pages`: the address of all pages.
* `Diagnostic.link`: the page of an identifier.
-/

namespace DiagnosticRelay.Diagnostic

/-- The segment under which the pages stand. -/
def pagesSegment : List Char := "error-identifiers".toList

/-- The address of all pages. -/
def pages : Url where
  scheme := "https".toList
  authority := some { host := some (.domain "phpstan.org".toList) }
  path := .segments [pagesSegment, []]

/-- The documentation page of a rule identifier. -/
def link (identifier : String) : Url :=
  { pages with
    path := .segments
      (Url.pushSegment (Url.popIfEmpty [pagesSegment, []]) identifier.toList) }

end DiagnosticRelay.Diagnostic

import DiagnosticRelay.Url.Reading

/-!
# The segments of a URL

A path can be taken as a list of segments, and one more put behind them. A new segment may
have any characters: the separators in it are encoded, as are `?`, `#` and `%`. As
everywhere in URLs, tabs and line ends do not count and dot segments are resolved.

## Main definitions

* `Url.popIfEmpty`: a path without the slash at its end.
* `Url.pushSegment`: a path with one more segment.
-/

namespace DiagnosticRelay.Url

/-- The segments without an empty one at the end; the only one stays. -/
def popIfEmpty (segments : List (List Char)) : List (List Char) :=
  if segments.getLast? = some [] ∧ segments ≠ [[]] then segments.dropLast else segments

/-- The segments of a special URL with one more behind them. Dots that are literal add
nothing. What is left of a text counts as a dot segment where it is one. -/
def pushSegment (segments : List (List Char)) (text : List Char) : List (List Char) :=
  if text = ['.'] ∨ text = ['.', '.'] then segments
  else
    let before := if segments = [[]] then [] else segments
    let segment := encodeChars segmentSet (text.filter (!isDropped ·))
    if isDoubleDot segment then shorten before ++ [[]]
    else if isDot segment then before ++ [[]]
    else before ++ [segment]

end DiagnosticRelay.Url

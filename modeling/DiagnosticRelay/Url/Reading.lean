import DiagnosticRelay.Url.Basic

/-!
# Reading URLs

Controls and spaces around the text and tabs and line ends inside it do not
count. The scheme decides how the rest is read.

## Main definitions

* `Url.parse`: the URL of a text.
* `Url.resolve`: the segments of a path, dot segments resolved.
-/

namespace DiagnosticRelay.Url

/-- Whether a character is dropped at the ends of a text. -/
def isOuter (c : Char) : Bool := c.toNat ≤ 0x20

/-- Whether a character is dropped everywhere. -/
def isDropped (c : Char) : Bool := c == '\t' || c == '\n' || c == '\r'

/-- The characters that count. -/
def clean (text : List Char) : List Char :=
  ((text.dropWhile isOuter).reverse.dropWhile isOuter).reverse.filter (!isDropped ·)

/-- Whether a character may stand in a scheme. -/
def isSchemeChar (c : Char) : Bool := c.isAlphanum || c == '+' || c == '-' || c == '.'

/-- The scheme in lower case, and what follows its colon. -/
def splitScheme? (text : List Char) : Option (List Char × List Char) :=
  let name := text.takeWhile isSchemeChar
  match name, text.dropWhile isSchemeChar with
  | first :: _, ':' :: rest =>
    if first.isAlpha then some (name.map Char.toLower, rest) else none
  | _, _ => none

/-- Whether a character separates segments. -/
def isSeparator (scheme : Scheme) (c : Char) : Bool :=
  c == '/' || (c == '\\' && scheme.isSpecial)

/-- Whether a character ends the path. -/
def endsPath (c : Char) : Bool := c == '?' || c == '#'

/-- Whether a character ends the authority. -/
def endsAuthority (scheme : Scheme) (c : Char) : Bool := isSeparator scheme c || endsPath c

/-- A segment that stays where it is. -/
def isDot (segment : List Char) : Bool :=
  ["."  , "%2e"].contains (String.ofList (segment.map Char.toLower))

/-- A segment that goes up. -/
def isDoubleDot (segment : List Char) : Bool :=
  ["..", "%2e.", ".%2e", "%2e%2e"].contains (String.ofList (segment.map Char.toLower))

/-- A letter with `:` or `|` behind it. -/
def isDrive : List Char → Bool
  | [letter, mark] => letter.isAlpha && (mark == ':' || mark == '|')
  | _ => false

/-- The segments without the last one, which stays if it is a drive. -/
def shorten (segments : List (List Char)) : List (List Char) :=
  match segments.getLast? with
  | some last => if isDrive last then segments else segments.dropLast
  | none => []

/-- A drive as it is written, with `:`. -/
def normalizeDrive : List Char → List Char
  | letter :: _ => [letter, ':']
  | [] => []

/-- The next segments of a path from those before. -/
def extend (scheme : Scheme) (before : List (List Char)) (segment : List Char) (last : Bool) :
    List (List Char) :=
  if isDoubleDot segment then shorten before ++ (if last then [[]] else [])
  else if isDot segment then before ++ (if last then [[]] else [])
  else if scheme = .file && before.isEmpty && isDrive segment then [normalizeDrive segment]
  else before ++ [encodeChars pathSet segment]

/-- The segments of a path after those before, dot segments resolved. -/
def resolve (scheme : Scheme) (before : List (List Char)) : List (List Char) → List (List Char)
  | [] => before
  | [last] => extend scheme before last true
  | segment :: rest => resolve scheme (extend scheme before segment false) rest

/-- The raw segments of a path between separators. -/
def rawSegments (scheme : Scheme) : List Char → List (List Char)
  | [] => [[]]
  | c :: rest =>
    if isSeparator scheme c then [] :: rawSegments scheme rest
    else match rawSegments scheme rest with
      | [] => [[c]]
      | segment :: segments => (c :: segment) :: segments

/-- Segments without the empty ones in front, but not none at all. -/
def dropEmptyFront (segments : List (List Char)) : List (List Char) :=
  match segments.dropWhile List.isEmpty with
  | [] => [[]]
  | rest => rest

/-- A path that follows a separator. -/
def segmentsOf (scheme : Scheme) (path : List Char) : List (List Char) :=
  let segments := resolve scheme [] (rawSegments scheme path)
  if scheme = .file then dropEmptyFront segments else segments

/-- A path after an authority; its first separator is optional. -/
def routeAfterAuthority (scheme : Scheme) (path : List Char) : Route :=
  match scheme, path with
  | .plain, [] => .segments []
  | _, c :: rest => if isSeparator scheme c then .segments (segmentsOf scheme rest)
      else .segments (segmentsOf scheme (c :: rest))
  | _, [] => .segments (segmentsOf scheme [])

/-- The query and the fragment of what follows a path. -/
def finish (scheme : Scheme) (u : Url) (tail : List Char) : Url :=
  let fragment := match tail.dropWhile (· != '#') with
    | _ :: text => some (encodeChars fragmentSet text)
    | [] => none
  let query := match tail.takeWhile (· != '#') with
    | _ :: text => some (encodeChars (if scheme.isSpecial then specialQuerySet else querySet) text)
    | [] => none
  { u with query, fragment }

/-- The text up to the path's end, and the rest. -/
def splitTail (text : List Char) : List Char × List Char :=
  (text.takeWhile (!endsPath ·), text.dropWhile (!endsPath ·))

/-- The text before the last `@` of an authority, and after it. -/
def splitUser (authority : List Char) : Option (List Char) × List Char :=
  if authority.contains '@' then
    let after := (authority.reverse.takeWhile (· != '@')).reverse
    (some (authority.take (authority.length - after.length - 1)), after)
  else (none, authority)

/-- The host of an authority without its user, and what follows it. Colons in
brackets belong to the host. -/
def splitHost : Bool → List Char → List Char × List Char
  | _, [] => ([], [])
  | inside, c :: rest =>
    if c = ':' ∧ !inside then ([], c :: rest)
    else
      let split := splitHost (if c = '[' then true else if c = ']' then false else inside) rest
      (c :: split.1, split.2)

/-- A port number; the default port is left out. -/
def portOf (scheme : Scheme) (digits : List Char) : Except Fault (Option Nat) :=
  if !digits.all Char.isDigit then .error .malformedPort
  else if digits.isEmpty then .ok none
  else
    let port := digits.foldl (fun n d => n * 10 + (d.toNat - 48)) 0
    if 65535 < port then .error .malformedPort
    else .ok (if scheme = .web port then none else some port)

/-- The user name and the password before an `@`. -/
def userOf (text : List Char) : List Char × Option (List Char) :=
  let password := match text.dropWhile (· != ':') with
    | _ :: c :: rest => some (encodeChars userinfoSet (c :: rest))
    | _ => none
  (encodeChars userinfoSet (text.takeWhile (· != ':')), password)

/-- The host of a text, which only a scheme without rules may leave empty. -/
def hostOf (scheme : Scheme) (text : List Char) : Except Fault (Option Host) :=
  if text.isEmpty then if scheme.isSpecial then .error .emptyHost else .ok none
  else if scheme.isSpecial then (Host.parse text).map some
  else (Host.parsePlain text).map some

/-- The authority of a URL that is not a file. -/
def authorityOf (scheme : Scheme) (text : List Char) : Except Fault Authority := do
  let (user?, rest) := splitUser text
  if user? = some [] ∧ rest.isEmpty then throw .emptyHost
  let (user, password) := (user?.map userOf).getD ([], none)
  let (hostText, portText) := splitHost false rest
  let host ← hostOf scheme hostText
  if host.isNone ∧ (!portText.isEmpty ∨ !user.isEmpty ∨ password.isSome) then throw .emptyHost
  let port ← portOf scheme (portText.drop 1)
  return { user, password, host, port }

/-- A URL after the slashes that introduce its authority. -/
def afterSlashes (name : List Char) (text : List Char) : Except Fault Url := do
  let scheme := Scheme.ofName name
  let authority ← authorityOf scheme (text.takeWhile (!endsAuthority scheme ·))
  let (path, tail) := splitTail (text.dropWhile (!endsAuthority scheme ·))
  return finish scheme
    { scheme := name, authority := some authority, path := routeAfterAuthority scheme path } tail

/-- The host of a file: a local one is left out. -/
def fileHostOf (text : List Char) : Except Fault (Option Host) :=
  if text.isEmpty then .ok none
  else do
    let host ← Host.parse text
    return if host = .domain "localhost".toList then none else some host

/-- Whether a path starts with a drive. -/
def startsWithDrive : List (List Char) → Bool
  | first :: _ => isDrive first
  | [] => false

/-- A file from its host and its path. A host before a drive is left out. -/
def fileAt (host : Option Host) (segments : List (List Char)) (tail : List Char) : Url :=
  let host := if startsWithDrive segments then none else host
  finish .file
    { scheme := "file".toList, authority := some { host }, path := .segments segments } tail

/-- The URL of a file after the scheme. -/
def fileOf (text : List Char) : Except Fault Url :=
  let isSlash := isSeparator .file
  match text with
  | a :: b :: rest =>
    if isSlash a && isSlash b then
      let hostText := rest.takeWhile (!endsAuthority .file ·)
      if isDrive hostText then
        let (path, tail) := splitTail rest
        .ok (fileAt none (segmentsOf .file path) tail)
      else do
        let host ← fileHostOf hostText
        let (path, tail) := splitTail (rest.dropWhile (!endsAuthority .file ·))
        return fileAt host (segmentsOf .file (if host.isSome then path.drop 1 else path)) tail
    else
      let (path, tail) := splitTail (if isSlash a then b :: rest else text)
      .ok (fileAt none (segmentsOf .file path) tail)
  | _ =>
    let (path, tail) := splitTail (text.dropWhile isSlash)
    .ok (fileAt none (segmentsOf .file path) tail)

/-- A URL without rules of its own after the scheme. -/
def plainOf (name : List Char) (text : List Char) : Except Fault Url :=
  match text with
  | '/' :: '/' :: rest => afterSlashes name rest
  | '/' :: rest =>
    let (path, tail) := splitTail rest
    .ok (finish .plain
      { scheme := name, authority := none, path := .segments (segmentsOf .plain path) } tail)
  | rest =>
    let (path, tail) := splitTail rest
    .ok (finish .plain
      { scheme := name, authority := none, path := .undivided (encodeChars controls path) } tail)

/-- The URL of a text. -/
def parse (text : String) : Except Fault Url :=
  match splitScheme? (clean text.toList) with
  | none => .error .missingScheme
  | some (name, rest) =>
    match Scheme.ofName name with
    | .file => fileOf rest
    | .web _ => afterSlashes name (rest.dropWhile fun c => c == '/' || c == '\\')
    | .plain => plainOf name rest

end DiagnosticRelay.Url

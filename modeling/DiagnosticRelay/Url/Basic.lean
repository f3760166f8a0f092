import DiagnosticRelay.Url.Host

/-!
# URLs

A URL is held in the form it is written in: scheme in lower case, dot segments
resolved, every part percent-encoded.

## Main definitions

* `Url`: scheme, authority, path, query and fragment.
* `Url.render`: the text of a URL.
* `Url.Scheme`: the schemes with rules of their own.
-/

namespace DiagnosticRelay

namespace Url

/-- The schemes by the rules their URLs follow. -/
inductive Scheme where
  /-- The scheme `file`, whose host is optional. -/
  | file
  /-- A scheme whose URLs have a host, and its default port. -/
  | web (defaultPort : Nat)
  /-- Any other scheme. -/
  | plain
  deriving DecidableEq, Repr

/-- The rules of a scheme name. -/
def Scheme.ofName (name : List Char) : Scheme :=
  match String.ofList name with
  | "file" => .file
  | "http" | "ws" => .web 80
  | "https" | "wss" => .web 443
  | "ftp" => .web 21
  | _ => .plain

/-- Whether `\` separates segments as `/` does. -/
def Scheme.isSpecial : Scheme → Bool
  | .plain => false
  | _ => true

/-- What stands between `//` and the path. -/
structure Authority where
  user : List Char := []
  password : Option (List Char) := none
  host : Option Host := none
  port : Option Nat := none
  deriving DecidableEq, Repr

/-- The path of a URL. -/
inductive Route where
  /-- Text that is not divided into segments. -/
  | undivided (text : List Char)
  /-- Segments, a `/` before each. -/
  | segments (list : List (List Char))
  deriving DecidableEq, Repr

end Url

/-- A URL. -/
structure Url where
  scheme : List Char
  authority : Option Url.Authority
  path : Url.Route
  query : Option (List Char) := none
  fragment : Option (List Char) := none
  deriving DecidableEq, Repr

namespace Url

/-- The text of a name and password before a host. -/
def Authority.renderUser (a : Authority) : List Char :=
  match a.user, a.password with
  | [], none => []
  | user, none => user ++ ['@']
  | user, some password => user ++ ':' :: password ++ ['@']

/-- The text of an authority. -/
def Authority.render (a : Authority) : List Char :=
  '/' :: '/' :: a.renderUser ++ (a.host.map Host.render).getD []
    ++ (a.port.map fun p => ':' :: Nat.toDigits 10 p).getD []

/-- The text of a path. -/
def Route.render : Route → List Char
  | .undivided text => text
  | .segments list => list.flatMap fun segment => '/' :: segment

/-- Whether a path could be taken for an authority. -/
def Route.looksLikeAuthority : Route → Bool
  | .segments ([] :: _ :: _) => true
  | _ => false

/-- The characters of a URL. -/
def renderChars (u : Url) : List Char :=
  u.scheme ++ ':' :: (u.authority.map Authority.render).getD
      (if u.path.looksLikeAuthority then ['/', '.'] else [])
    ++ u.path.render
    ++ (u.query.map ('?' :: ·)).getD []
    ++ (u.fragment.map ('#' :: ·)).getD []

/-- The text of a URL. -/
def render (u : Url) : String := String.ofList u.renderChars

/-- The host of a URL. -/
def host? (u : Url) : Option Host := u.authority.bind (·.host)

end Url

end DiagnosticRelay

import DiagnosticRelay.Text.Utf8

/-!
# File paths

A path is an octet string. Its components are what it means: repeated
separators, `.` inside and a separator at the end add nothing, while `..` and a
leading `.` of a relative path are kept. Paths are equal, ordered and taken
apart by their components.

## Main definitions

* `Path`: the text of a path.
* `Path.components`: what it means.
* `Path.normalize`: the shortest text with the same components.
* `Path.compare`: the order of paths, component by component.
* `Path.join`, `Path.stripPrefix?`, `Path.extension?`.
-/

namespace DiagnosticRelay

/-- The text of a path. -/
structure Path where
  octets : Octets
  deriving DecidableEq, Repr

namespace Path

/-- The separator `/`. -/
def separator : UInt8 := 0x2F

/-- The character `.`. -/
def dot : UInt8 := 0x2E

/-- A component of a path. -/
inductive Component where
  /-- The leading separator of an absolute path. -/
  | root
  /-- The leading `.` of a relative path. -/
  | here
  /-- A `..`. -/
  | parent
  /-- A name. -/
  | name (octets : Octets)
  deriving DecidableEq, Repr

/-- The path with a given text. -/
def ofString (text : String) : Path := ⟨Octets.ofString text⟩

/-- The text of a path, with `U+FFFD` for what is not text. -/
def display (p : Path) : String := p.octets.toStringLossy

/-- The parts between separators. -/
def split : Octets → List Octets
  | [] => [[]]
  | b :: rest =>
    if b = separator then [] :: split rest
    else match split rest with
      | [] => [[b]]
      | part :: parts => (b :: part) :: parts

/-- Parts with separators between them. -/
def unsplit (parts : List Octets) : Octets := List.intercalate [separator] parts

/-- Whether a part adds no component: it is empty or `.`. -/
def isSilent (part : Octets) : Bool := part == [] || part == [dot]

/-- The component of a part behind the start of a path. -/
def Component.ofPart? (part : Octets) : Option Component :=
  if isSilent part then none
  else if part = [dot, dot] then some .parent
  else some (.name part)

/-- The text of a component behind the start of a path. -/
def Component.text : Component → Octets
  | .root => []
  | .here => [dot]
  | .parent => [dot, dot]
  | .name octets => octets

/-- Whether a path starts with a separator. -/
def isAbsolute (p : Path) : Bool := p.octets.head? == some separator

/-- Whether a path starts with a `.` part. -/
def startsHere (p : Path) : Bool := (split p.octets).head? == some [dot]

/-- The component at the start of a path that comes from no name. -/
def lead (p : Path) : List Component :=
  if p.isAbsolute then [.root] else if p.startsHere then [.here] else []

/-- The components of a path. -/
def components (p : Path) : List Component :=
  p.lead ++ (split p.octets).filterMap Component.ofPart?

/-- The text of components, the shortest one there is. -/
def ofComponents : List Component → Path
  | .root :: rest => ⟨separator :: unsplit (rest.map Component.text)⟩
  | components => ⟨unsplit (components.map Component.text)⟩

/-- The shortest text with the same components. -/
def normalize (p : Path) : Path := ofComponents p.components

/-- Whether two paths mean the same. -/
def Same (p q : Path) : Prop := p.components = q.components

instance (p q : Path) : Decidable (Same p q) := inferInstanceAs (Decidable (_ = _))

/-- The order of the kinds of components. -/
def Component.rank : Component → Nat
  | .root => 0
  | .here => 1
  | .parent => 2
  | .name _ => 3

/-- The order of components: by kind, names by their octets. -/
def Component.compare : Component → Component → Ordering
  | .name a, .name b => List.compareLex Ord.compare a b
  | a, b => Ord.compare a.rank b.rank

/-- The order of paths, component by component. -/
def compare (p q : Path) : Ordering :=
  List.compareLex Component.compare p.components q.components

/-- A path taken relative to another one; an absolute path stays as it is. -/
def join (base p : Path) : Path :=
  if p.isAbsolute then p
  else if base.octets = [] ∨ base.octets.getLast? = some separator then ⟨base.octets ++ p.octets⟩
  else ⟨base.octets ++ separator :: p.octets⟩

/-- Parts without the silent ones at the end. -/
def dropSilentEnd (parts : List Octets) : List Octets :=
  (parts.reverse.dropWhile isSilent).reverse

/-- Parts without the first `n` components and the silent parts before each. -/
def dropComponents : Nat → List Octets → List Octets
  | _, [] => []
  | n, part :: parts =>
    if isSilent part then dropComponents n parts
    else match n with
      | 0 => part :: parts
      | n + 1 => dropComponents n parts

/-- The parts behind the start of a path. -/
def body (p : Path) : List Octets :=
  if p.isAbsolute ∨ p.startsHere then (split p.octets).tail else split p.octets

/-- A path without silent parts at its end. -/
def trimEnd (p : Path) : Path :=
  let parts := dropSilentEnd p.body
  if p.isAbsolute then ⟨separator :: unsplit parts⟩
  else if p.startsHere then ⟨unsplit ([dot] :: parts)⟩
  else ⟨unsplit parts⟩

/-- The rest of a path below another one, as it is written, without silent
parts at its ends. -/
def stripPrefix? (p base : Path) : Option Path :=
  if base.components.isPrefixOf p.components then
    if base.components = [] then some p.trimEnd
    else
      let names := base.components.length - p.lead.length
      some ⟨unsplit (dropSilentEnd (dropComponents names p.body))⟩
  else none

/-- A path as seen from a directory: the rest below it, or the path itself. -/
def relativeTo (p base : Path) : Path := (p.stripPrefix? base).getD p

/-- The name at the end of a path. -/
def fileName? (p : Path) : Option Octets :=
  match p.components.getLast? with
  | some (.name octets) => some octets
  | _ => none

/-- What follows the last dot of a name, unless nothing precedes it. -/
def extensionOf? (name : Octets) : Option Octets :=
  let tail := name.reverse.takeWhile (· != dot)
  if tail.length + 1 < name.length then some tail.reverse else none

/-- The extension of the name at the end of a path. -/
def extension? (p : Path) : Option Octets := p.fileName?.bind extensionOf?

end Path

end DiagnosticRelay

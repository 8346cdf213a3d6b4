import Stencil.Json.Basic
import Stencil.Table.Basic

/-!
# Canonical JSON values

Reading a document forgets the order in which an object lists its members, and of several members
of one name it keeps the last. Both are done at every level of nesting.

* `Stencil.Json.canonical`: the value that a listed value stands for.
-/

namespace Stencil

namespace Json

mutual

/-- Lists the members of every object within a value in key order, the last one of each name. -/
def canonical : Json → Json
  | .null => .null
  | .bool value => .bool value
  | .number value => .number value
  | .string value => .string value
  | .array items => .array (canonicalItems items)
  | .object members => .object (Table.ofList (canonicalMembers members)).entries

/-- Applies `canonical` to each item of a list. -/
def canonicalItems : List Json → List Json
  | [] => []
  | item :: rest => item.canonical :: canonicalItems rest

/-- Applies `canonical` to each value of a list of members. -/
def canonicalMembers : List (String × Json) → List (String × Json)
  | [] => []
  | (key, value) :: rest => (key, value.canonical) :: canonicalMembers rest

end

end Json

end Stencil

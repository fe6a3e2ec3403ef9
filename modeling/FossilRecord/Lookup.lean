import FossilRecord.Json.Basic

/-!
# Answers about one project

A question about a project has an answer, or there is no such project, or the project has no fossil
yet.
-/

namespace FossilRecord

/-- The answer to a question about one project. -/
inductive Lookup (α : Type) where
  | found (value : α)
  /-- No project has the requested name. -/
  | projectNotFound (name : String)
  /-- The project of this name has no fossil. -/
  | noFossil (name : String)
deriving DecidableEq, Repr

namespace Lookup

variable {α β : Type}

/-- Whether there is an answer. -/
def isFound : Lookup α → Bool
  | .found _ => true
  | _ => false

/-- The answer, if there is one. -/
def value? : Lookup α → Option α
  | .found value => some value
  | _ => none

/-- Applies a function to the answer. -/
def map (f : α → β) : Lookup α → Lookup β
  | .found value => .found (f value)
  | .projectNotFound name => .projectNotFound name
  | .noFossil name => .noFossil name

/-- Says what is missing. -/
def missing? : Lookup α → Option String
  | .found _ => none
  | .projectNotFound name => some s!"project '{name}' not found"
  | .noFossil name => some s!"no fossil found for '{name}'"

/-- An answer as an object with its name in the field `outcome`. -/
def toJson (encode : α → Json) : Lookup α → Json
  | .found value => .object [("outcome", .text "found"), ("value", encode value)]
  | .projectNotFound name =>
      .object [("outcome", .text "project_not_found"), ("value", .text name)]
  | .noFossil name => .object [("outcome", .text "no_fossil"), ("value", .text name)]

end Lookup

end FossilRecord

import FossilRecord.Project

/-!
# Commands

What the command line can ask for, what it answers, and how it complains.
-/

namespace FossilRecord

/-- What the command line can ask for. -/
inductive Command where
  | serve
  | register (name path stack : String)
  | status (name : String) (status : ProjectStatus)
  | ingest (project input : String) (promptUsed : Option String)
  | scan (root : String) (extensions : List String)
  | lookup (project symbol : String) (exact : Bool)
  | analysis (project : Option String)
  | refineContext
  | insights (input : String) (project model : Option String)
  | prompt (input : String) (project : Option String) (createdBy : String) (notes : Option String)
deriving DecidableEq, Repr

namespace Command

/-- A command, and the file that the settings are read from. -/
structure Invocation where
  config : String
  command : Command
deriving DecidableEq, Repr

/-- What a run leaves: its exit code and what it writes to the two outputs. -/
structure Report where
  code : Nat
  output : String
  errors : String
deriving DecidableEq, Repr

/-- Why a command failed: what went wrong, and what lies behind it, outermost first. -/
structure Complaint where
  message : String
  causes : List String
deriving DecidableEq, Repr

namespace Complaint

/-- A complaint that nothing lies behind. -/
def plain (message : String) : Complaint := ⟨message, []⟩

/-- A text with a margin before each of its lines but the first. -/
def indentedAfterFirst (margin text : String) : String :=
  String.ofList (text.toList.flatMap fun c => if c == '\n' then '\n' :: margin.toList else [c])

/-- The causes after each other, numbered from `index` on. -/
def numbered : (index : Nat) → List String → String
  | _, [] => ""
  | index, cause :: rest =>
      let number := toString index
      let margin := String.ofList (List.replicate (5 - number.length) ' ')
      "\n" ++ margin ++ number ++ ": " ++ indentedAfterFirst "       " cause ++
        numbered (index + 1) rest

/-- The causes; they are numbered if there is more than one. -/
def renderCauses : List String → String
  | [] => ""
  | [cause] => "\n\nCaused by:\n    " ++ indentedAfterFirst "    " cause
  | causes => "\n\nCaused by:" ++ numbered 0 causes

/-- A complaint as it is shown. -/
def render (c : Complaint) : String :=
  "Error: " ++ c.message ++ renderCauses c.causes ++ "\n"

end Complaint

namespace Report

/-- The report of a command that did what it was asked to. -/
def done (output : String) : Report := ⟨0, output, ""⟩

/-- The report of a command that failed. -/
def failed (c : Complaint) : Report := ⟨1, "", c.render⟩

/-- The report of arguments that make no command. -/
def misused (errors : String) : Report := ⟨2, "", errors⟩

end Report

end Command

end FossilRecord

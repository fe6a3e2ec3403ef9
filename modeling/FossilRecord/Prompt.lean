import FossilRecord.Json.Decode

/-!
# Prompts

The instruction texts that are given to whoever writes the fossils.  The latest prompt of a project
is in force for it, else the latest global one.
-/

namespace FossilRecord

/-- An instruction text; without a project it is the global one. -/
structure CustodianPrompt where
  promptId : Uuid
  projectId : Option Uuid
  prompt : String
  createdBy : String
  notes : Option String
  createdAt : Instant
deriving DecidableEq, Repr

namespace CustodianPrompt

/-- What a fossil records when no prompt is known. -/
def unknown : String := "unknown"

/-- A prompt as an object. -/
def toJson (p : CustodianPrompt) : Json :=
  .object [("prompt_id", .text (toString p.promptId)),
    ("project_id", .optText (p.projectId.map toString)), ("prompt", .text p.prompt),
    ("created_by", .text p.createdBy), ("notes", .optText p.notes),
    ("created_at", .text p.createdAt.toZulu)]

/-- The fields of the record. -/
def layout : Json.Layout where
  name := "CustodianPrompt"
  fields :=
    [("prompt_id", Json.check Json.decodeUuid),
      ("project_id", Json.check (Json.decodeOption Json.decodeUuid)),
      ("prompt", Json.check Json.decodeText), ("created_by", Json.check Json.decodeText),
      ("notes", Json.check (Json.decodeOption Json.decodeText)),
      ("created_at", Json.check Json.decodeInstant)]

/-- Reads a prompt. -/
def decode : Json.Decoder CustodianPrompt := fun j => do
  let found ← layout.read j
  let promptId ← layout.required found "prompt_id" Json.decodeUuid
  let projectId ← layout.optional found "project_id" (Json.decodeOption Json.decodeUuid)
  let prompt ← layout.required found "prompt" Json.decodeText
  let createdBy ← layout.required found "created_by" Json.decodeText
  let notes ← layout.optional found "notes" (Json.decodeOption Json.decodeText)
  let createdAt ← layout.required found "created_at" Json.decodeInstant
  layout.finish j
  .ok ⟨promptId, projectId, prompt, createdBy, notes, createdAt⟩

end CustodianPrompt

/-- What is given to record a prompt. -/
structure NewPrompt where
  projectId : Option Uuid
  prompt : String
  createdBy : String
  notes : Option String
deriving DecidableEq, Repr

end FossilRecord

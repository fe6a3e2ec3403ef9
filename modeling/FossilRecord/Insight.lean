import FossilRecord.Payload

/-!
# Insights

Findings that an analysis of the corpus has brought, and texts that were to be fossils but could not
be read.
-/

namespace FossilRecord

/-- A finding; without a project it is about all of them. -/
structure Insight where
  insightId : Uuid
  projectId : Option Uuid
  fossilId : Option Uuid
  insightType : String
  content : String
  modelUsed : Option String
  projectsInvolved : List String
  createdAt : Instant
deriving DecidableEq, Repr

/-- What is given to record an insight. -/
structure NewInsight where
  projectId : Option Uuid
  fossilId : Option Uuid
  insightType : String
  content : String
  modelUsed : Option String
  projectsInvolved : List String
deriving DecidableEq, Repr

namespace Insight

/-- The type of an insight whose text has no structure. -/
def pattern : String := "pattern"

/-- The type of an insight that keeps a text which was to be a fossil. -/
def rawFossil : String := "raw_fossil"

/-- An insight as an object. -/
def toJson (i : Insight) : Json :=
  .object [("insight_id", .text (toString i.insightId)),
    ("project_id", .optText (i.projectId.map toString)),
    ("fossil_id", .optText (i.fossilId.map toString)), ("insight_type", .text i.insightType),
    ("content", .text i.content), ("model_used", .optText i.modelUsed),
    ("projects_involved", .texts i.projectsInvolved), ("created_at", .text i.createdAt.toZulu)]

/-- The fields of the record. -/
def layout : Json.Layout where
  name := "Insight"
  fields :=
    [("insight_id", Json.check Json.decodeUuid),
      ("project_id", Json.check (Json.decodeOption Json.decodeUuid)),
      ("fossil_id", Json.check (Json.decodeOption Json.decodeUuid)),
      ("insight_type", Json.check Json.decodeText), ("content", Json.check Json.decodeText),
      ("model_used", Json.check (Json.decodeOption Json.decodeText)),
      ("projects_involved", Json.check (Json.decodeList Json.decodeText)),
      ("created_at", Json.check Json.decodeInstant)]

/-- Reads an insight. -/
def decode : Json.Decoder Insight := fun j => do
  let found ← layout.read j
  let insightId ← layout.required found "insight_id" Json.decodeUuid
  let projectId ← layout.optional found "project_id" (Json.decodeOption Json.decodeUuid)
  let fossilId ← layout.optional found "fossil_id" (Json.decodeOption Json.decodeUuid)
  let insightType ← layout.required found "insight_type" Json.decodeText
  let content ← layout.required found "content" Json.decodeText
  let modelUsed ← layout.optional found "model_used" (Json.decodeOption Json.decodeText)
  let projectsInvolved ←
    layout.required found "projects_involved" (Json.decodeList Json.decodeText)
  let createdAt ← layout.required found "created_at" Json.decodeInstant
  layout.finish j
  .ok ⟨insightId, projectId, fossilId, insightType, content, modelUsed, projectsInvolved, createdAt⟩

end Insight

namespace NewInsight

/-- The insight that one item of an analysis gives; what is no object gives none. -/
def ofItem (projectId : Option Uuid) (model : Option String) (item : Json) : Option NewInsight :=
  match item with
  | .object fields =>
      some
        { projectId := projectId
          fossilId := none
          insightType := ((Json.lookup "type" fields).bind Json.text?).getD Insight.pattern
          content :=
            match Json.lookup "content" fields with
            | some (.text s) => s
            | _ => item.compact
          modelUsed := model
          projectsInvolved :=
            match (Json.lookup "projects" fields).bind Json.items? with
            | some items => items.filterMap Json.text?
            | none => [] }
  | _ => none

/-- The insights that the text of an analysis gives: one for each object of a list, else one that
holds the whole text. -/
def ofAnalysis (raw : String) (projectId : Option Uuid) (project model : Option String) :
    List NewInsight :=
  let text := Fence.strip raw
  match Json.parse text with
  | .ok (.list items) => items.filterMap (ofItem projectId model)
  | _ =>
      [{ projectId := projectId
         fossilId := none
         insightType := Insight.pattern
         content := text
         modelUsed := model
         projectsInvolved := project.toList }]

end NewInsight

end FossilRecord

import FossilRecord.Store.Basic

/-!
# Prompts and insights in the store

Both are only ever added to, and read newest first.
-/

namespace FossilRecord.Store

/-- Whether an identifier, if there is one, is that of a stored project. -/
def refersToProject (s : Store) : Option Uuid → Bool
  | none => true
  | some id => s.projects.any (·.projectId = Cell.uuid id)

/-- Whether an identifier, if there is one, is that of a stored fossil. -/
def refersToFossil (s : Store) : Option Uuid → Bool
  | none => true
  | some id => s.fossils.any (·.fossilId = Cell.uuid id)

/-- An identifier as it is stored, if there is one. -/
def optUuid : Option Uuid → Cell
  | none => .null
  | some id => Cell.uuid id

/-! ## Prompts -/

/-- The row of a prompt. -/
def promptRow (p : CustodianPrompt) : PromptRow where
  promptId := Cell.uuid p.promptId
  projectId := optUuid p.projectId
  prompt := .text p.prompt
  createdBy := .text p.createdBy
  notes := .optText p.notes
  createdAt := Cell.instant p.createdAt

/-- Records a prompt. -/
def recordPrompt (s : Store) (fresh : Fresh) (input : NewPrompt) : Change CustodianPrompt :=
  let prompt : CustodianPrompt :=
    ⟨fresh.id 0, input.projectId, input.prompt, input.createdBy, input.notes, fresh.now⟩
  if s.prompts.any (·.promptId = Cell.uuid prompt.promptId) then
    (.error (.table (.duplicateKey "custodian_prompts.prompt_id")), s)
  else if s.refersToProject input.projectId then
    (.ok prompt, { s with prompts := s.prompts ++ [promptRow prompt] })
  else (.error (.table .missingReference), s)

/-- The newest prompt among those with an identifier of a project, or without one. -/
def newestPrompt? (s : Store) (projectId : Cell) : Option PromptRow :=
  (newestFirst PromptRow.createdAt (s.prompts.filter (·.projectId = projectId))).head?

/-- The prompt in force for a project, which is its newest or else the newest global one, or for
none in particular. -/
def latestPrompt (s : Store) (projectId : Option Uuid) :
    Except Failure (Option CustodianPrompt) :=
  let own := projectId.bind fun id => s.newestPrompt? (Cell.uuid id)
  match own.orElse fun _ => s.newestPrompt? .null with
  | some row => row.decode.map some
  | none => .ok none

/-! ## Insights -/

/-- The row of an insight. -/
def insightRow (i : Insight) : InsightRow where
  insightId := Cell.uuid i.insightId
  projectId := optUuid i.projectId
  fossilId := optUuid i.fossilId
  insightType := .text i.insightType
  content := .text i.content
  modelUsed := .optText i.modelUsed
  projectsInvolved := .text (Json.compact (.texts i.projectsInvolved))
  createdAt := Cell.instant i.createdAt

/-- Records an insight. -/
def recordInsight (s : Store) (fresh : Fresh) (input : NewInsight) : Change Insight :=
  let insight : Insight :=
    ⟨fresh.id 0, input.projectId, input.fossilId, input.insightType, input.content,
      input.modelUsed, input.projectsInvolved, fresh.now⟩
  if s.insights.any (·.insightId = Cell.uuid insight.insightId) then
    (.error (.table (.duplicateKey "insights.insight_id")), s)
  else if s.refersToProject input.projectId && s.refersToFossil input.fossilId then
    (.ok insight, { s with insights := s.insights ++ [insightRow insight] })
  else (.error (.table .missingReference), s)

/-- Records insights one after the other, up to the first that fails. -/
def recordInsights (s : Store) (fresh : Fresh) : List NewInsight → Change (List Insight)
  | [] => (.ok [], s)
  | input :: rest =>
      match s.recordInsight fresh input with
      | (.error failure, s) => (.error failure, s)
      | (.ok insight, s) =>
          match recordInsights s (fresh.after 1) rest with
          | (.error failure, s) => (.error failure, s)
          | (.ok insights, s) => (.ok (insight :: insights), s)

/-- Which insights are wanted: those of a project beside the global ones, of a type, and how
many. -/
structure InsightQuery where
  projectId : Option Uuid
  insightType : Option String
  limit : Option Nat

/-- Whether an insight is wanted. -/
def InsightQuery.wants (q : InsightQuery) (r : InsightRow) : Bool :=
  (r.projectId = .null ||
    match q.projectId with
    | some id => r.projectId = Cell.uuid id
    | none => false) &&
  match q.insightType with
  | some type => r.insightType = .text type
  | none => true

/-- The insights that are wanted, the newest first. -/
def listInsights (s : Store) (q : InsightQuery) : Except Failure (List Insight) := do
  let rows := newestFirst InsightRow.createdAt (s.insights.filter q.wants)
  let rows :=
    match q.limit with
    | some limit => limited limit rows
    | none => rows
  let typed ← rows.mapM InsightRow.typed
  typed.mapM TypedInsight.decode

/-- Keeps a text that is no payload as an insight of its project, if there is the project. -/
def keepRawFossil (s : Store) (fresh : Fresh) (name raw : String) : Change (Option Insight) :=
  match s.findProject name .strict with
  | .error failure => (.error failure, s)
  | .ok none => (.ok none, s)
  | .ok (some project) =>
      match s.recordInsight fresh
          { projectId := some project.projectId
            fossilId := none
            insightType := Insight.rawFossil
            content := raw
            modelUsed := none
            projectsInvolved := [project.name] } with
      | (.error failure, s) => (.error failure, s)
      | (.ok insight, s) => (.ok (some insight), s)

end FossilRecord.Store

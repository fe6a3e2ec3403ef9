import FossilRecord.Http.Target
import FossilRecord.Http.Tool

/-!
# Answering requests

A request is refused before it reaches a tool when there is no such place, when the place takes no
such method, or when its path, query or body cannot be read.  Everything else is logged and answered
by a tool.
-/

namespace FossilRecord.Http

/-- A request. -/
structure Request where
  method : String
  target : String
  body : List UInt8

/-- What a response carries. -/
inductive Body where
  | empty
  | json (value : Json)
  | text (text : String)

/-- A response; the type is that of the body that a request other than `HEAD` would get. -/
structure Response where
  status : Nat
  contentType? : Option String
  body : Body

namespace Response

/-- A response with nothing but a status. -/
def bare (status : Nat) : Response := ⟨status, none, .empty⟩

/-- A response with a JSON value. -/
def json (status : Nat) (value : Json) : Response := ⟨status, some "application/json", .json value⟩

/-- A response with a text. -/
def text (status : Nat) (text : String) : Response :=
  ⟨status, some "text/plain; charset=utf-8", .text text⟩

/-- The response without its body. -/
def withoutBody (r : Response) : Response := { r with body := .empty }

/-- A response that tells why. -/
def ofRefusal : Refusal → Response
  | .notFound message => json 404 (.object [("error", .text message)])
  | .badRequest message => json 400 (.object [("error", .text message)])
  | .unprocessable message => json 422 (.object [("error", .text message)])
  | .failed failure => json 500 (.object [("error", .text failure.message)])

/-- A response with the result of a tool. -/
def ofOutcome (status : Nat) : Outcome Json → Response
  | .ok value => json status value
  | .error refusal => ofRefusal refusal

end Response

/-- The places where tools are asked; a name in a path is as it was written. -/
inductive Route where
  | projects
  | fossil (name : String)
  | history (name : String)
  | changes (name : String)
  | fossils (name : String)
  | lookup (name : String)
  | context (name : String)
  | related (name : String)
  | insights
  | analysis
deriving DecidableEq, Repr

namespace Route

/-- The place that a path names. -/
def ofPath? : List String → Option Route
  | ["", "projects"] => some .projects
  | ["", "projects", name, "fossil"] => some (.fossil name)
  | ["", "projects", name, "history"] => some (.history name)
  | ["", "projects", name, "changes"] => some (.changes name)
  | ["", "projects", name, "fossils"] => some (.fossils name)
  | ["", "projects", name, "symbols", "lookup"] => some (.lookup name)
  | ["", "projects", name, "symbols", "context"] => some (.context name)
  | ["", "projects", name, "related"] => some (.related name)
  | ["", "insights"] => some .insights
  | ["", "analysis"] => some .analysis
  | _ => none

/-- The project that a path names, as it was written. -/
def name? : Route → Option String
  | .fossil name => some name
  | .history name => some name
  | .changes name => some name
  | .fossils name => some name
  | .lookup name => some name
  | .context name => some name
  | .related name => some name
  | _ => none

/-- Whether a place takes a method. -/
def takes (method : String) : Route → Bool
  | .fossils _ => method = "POST"
  | _ => method = "GET" || method = "HEAD"

/-- The names that a query may give. -/
def shape : Route → QueryShape
  | .fossil _ => ⟨[], [], ["include_file_tree", "include_symbols"]⟩
  | .fossils _ => ⟨[], ["prompt_used"], []⟩
  | .lookup _ => ⟨["symbol"], [], ["exact"]⟩
  | .context _ => ⟨["symbol"], [], ["exact"]⟩
  | .related _ => ⟨["symbol"], [], ["exact"]⟩
  | .insights => ⟨[], ["project", "insight_type"], []⟩
  | .analysis => ⟨[], ["project"], []⟩
  | _ => ⟨[], [], []⟩

end Route

/-- The greatest number of octets of a body. -/
def bodyLimit : Nat := 2097152

/-- Reads a body as a text, or answers. -/
def readBody (body : List UInt8) : Except Response String :=
  if bodyLimit < body.length then
    .error (.text 413 "Failed to buffer the request body: length limit exceeded")
  else
    match Text.strict body with
    | .ok text => .ok text
    | .error fault =>
        .error (.text 400 ("Request body didn't contain valid UTF-8: " ++ fault.message))

/-- What a tool is asked, when the request could be read. -/
structure Question where
  route : Route
  /-- The project in the path, decoded. -/
  name : String
  query : List (String × String)
  /-- The body, where one is read. -/
  text : String

/-- Reads a request, or answers it. -/
def Question.ofRequest (r : Request) : Except Response Question := do
  let target := Target.ofString r.target
  match Route.ofPath? target.path with
  | none => .error (.bare 404)
  | some route =>
      if !route.takes r.method then .error (.bare 405)
      else
        match decodePart (route.name?.getD "") with
        | none => .error (.text 400 "Invalid URL: Invalid UTF-8 in `name`")
        | some name =>
            match route.shape.check target.query with
            | .error flaw =>
                .error (.text 400 ("Failed to deserialize query string: " ++ flaw.message))
            | .ok () =>
                match route with
                | .fossils _ => do
                    let text ← readBody r.body
                    .ok ⟨route, name, target.query, text⟩
                | _ => .ok ⟨route, name, target.query, ""⟩

namespace Question

/-- The text that a query gives for a name. -/
def value (q : Question) (name : String) : String :=
  (value? q.query name).getD ""

/-- The entry that logs a question. -/
def logEntry (q : Question) : NewQueryLogEntry :=
  let flag (name : String) : String × Json := (name, .bool (isSet q.query name))
  let symbol : String × Json := ("symbol", .text (q.value "symbol"))
  match q.route with
  | .projects => ⟨"list_projects", none, none⟩
  | .fossil _ =>
      ⟨"get_project_fossil", some q.name,
        some (.ofFields [flag "include_file_tree", flag "include_symbols"])⟩
  | .history _ => ⟨"get_fossil_history", some q.name, none⟩
  | .changes _ => ⟨"get_recent_changes", some q.name, none⟩
  | .fossils _ =>
      ⟨"store_fossil", some q.name, some (.ofFields [("bytes", .nat q.text.utf8ByteSize)])⟩
  | .lookup _ => ⟨"lookup_symbol", some q.name, some (.ofFields [symbol, flag "exact"])⟩
  | .context _ => ⟨"get_symbol_context", some q.name, some (.ofFields [symbol])⟩
  | .related _ => ⟨"find_related_files", some q.name, some (.ofFields [symbol])⟩
  | .insights =>
      ⟨"get_detective_insights", value? q.query "project",
        some (.ofFields [("insight_type", .optText (value? q.query "insight_type"))])⟩
  | .analysis => ⟨"get_analysis_context", value? q.query "project", none⟩

/-- Answers a question from a store without changing it, where a tool only reads. -/
def read (q : Question) (s : Store) (around : Surroundings) : Response :=
  match q.route with
  | .projects => .ofOutcome 200 (listProjects s)
  | .fossil _ =>
      .ofOutcome 200
        (latestFossil s q.name (isSet q.query "include_file_tree")
          (isSet q.query "include_symbols"))
  | .history _ => .ofOutcome 200 (fossilHistory s q.name)
  | .changes _ => .ofOutcome 200 (recentChanges s q.name)
  | .fossils _ => .bare 405
  | .lookup _ =>
      .ofOutcome 200 (lookupSymbol s around q.name (q.value "symbol") (isSet q.query "exact"))
  | .context _ => .ofOutcome 200 (symbolContext s q.name (q.value "symbol"))
  | .related _ => .ofOutcome 200 (relatedFiles s q.name (q.value "symbol"))
  | .insights =>
      .ofOutcome 200 (Http.insights s (value? q.query "project") (value? q.query "insight_type"))
  | .analysis =>
      match corpus s (value? q.query "project") with
      | .ok text => .text 200 text
      | .error refusal => .ofRefusal refusal

/-- Answers a question and logs it: first, except that a corpus is logged once it is there. -/
def answer (q : Question) (s : Store) (fresh : Fresh) (around : Surroundings) :
    Response × Store :=
  match q.route with
  | .fossils _ =>
      let s := s.logQuietly fresh q.logEntry
      let (outcome, s) := storeFossil s (fresh.after 1) q.name q.text (value? q.query "prompt_used")
      (.ofOutcome 201 outcome, s)
  | .analysis =>
      let response := q.read s around
      (response, if response.status = 200 then s.logQuietly fresh q.logEntry else s)
  | _ =>
      let s := s.logQuietly fresh q.logEntry
      (q.read s around, s)

end Question

/-- Answers a request. -/
def respond (s : Store) (fresh : Fresh) (around : Surroundings) (r : Request) : Response × Store :=
  match Question.ofRequest r with
  | .error response => (response, s)
  | .ok question =>
      let (response, s) := question.answer s fresh around
      (if r.method = "HEAD" then response.withoutBody else response, s)

end FossilRecord.Http

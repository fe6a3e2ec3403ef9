import FossilRecord.Store.Basic

/-!
# Fossils and symbols in the store

Reading what was ingested: the fossils of a project, the symbols of a fossil, and the symbols of a
project by their names.
-/

namespace FossilRecord

/-- How the names of symbols are matched: by a part of the name in any case, or exactly. -/
inductive NameMatch where
  | contains (part : String)
  | exact (name : String)
deriving DecidableEq, Repr

/-- Whether only the latest fossil is searched, or all of them. -/
inductive SymbolScope where
  | latest
  | allFossils
deriving DecidableEq, Repr

namespace Store

/-- The fossil of a project with the highest version. -/
def latestFossil (s : Store) (name : String) : Except Failure (Lookup Fossil) :=
  s.withProject name fun project =>
    match s.fossilsOf (Cell.uuid project.projectId) with
    | [] => .ok (.noFossil project.name)
    | row :: _ => row.decode.map .found

/-- Every fossil of a project, in ascending order of the versions. -/
def fossilHistory (s : Store) (name : String) : Except Failure (Lookup (List Fossil)) :=
  s.withProject name fun project => do
    let rows :=
      orderBy (fun f => [FossilRow.version f])
        (s.fossils.filter fun f => f.projectId = Cell.uuid project.projectId)
    let typed ← rows.mapM FossilRow.typed
    if typed.isEmpty then .ok (.noFossil project.name)
    else
      let fossils ← typed.mapM TypedFossil.decode
      .ok (.found fossils)

/-- The symbols that satisfy a test, each with the row of its fossil. -/
def joined (s : Store) (wanted : SymbolRow → Bool) : List JoinedSymbol :=
  (s.symbols.filter wanted).flatMap fun r =>
    (s.fossils.filter fun f => f.fossilId = r.fossilId).map fun f => ⟨r, f⟩

/-- The place of a symbol: by file, then by line, then as in the payload. -/
def inFileOrder (r : JoinedSymbol) : List Cell :=
  [r.symbol.filePath, r.symbol.lineNumber, r.symbol.seq]

/-- The symbols of a fossil, if there is the fossil. -/
def symbolsForFossil (s : Store) (fossilId : Uuid) : Except Failure (Option (List Symbol)) :=
  if s.fossils.any (·.fossilId = Cell.uuid fossilId) then do
    let rows := orderBy inFileOrder (s.joined (·.fossilId = Cell.uuid fossilId))
    let typed ← rows.mapM JoinedSymbol.typed
    let symbols ← typed.mapM TypedSymbol.decode
    .ok (some symbols)
  else .ok none

/-- The highest version of a project. -/
def highestVersion (s : Store) (projectId : Cell) : Cell :=
  match s.fossilsOf projectId with
  | [] => .null
  | f :: _ => f.version

/-- The rows of the symbols that a search looks at, in its order: of the latest fossil by file, or
of all fossils with the newest first. -/
def searchRows (s : Store) (projectId : Cell) (wanted : SymbolRow → Bool) :
    SymbolScope → List JoinedSymbol
  | .latest =>
      orderBy inFileOrder
        ((s.joined fun r => r.projectId = projectId && wanted r).filter fun r =>
          r.fossil.version = s.highestVersion projectId)
  | .allFossils =>
      let rows := orderBy inFileOrder (s.joined fun r => r.projectId = projectId && wanted r)
      rows.mergeSort fun a b => b.fossil.version.le a.fossil.version

/-- The symbols of a project whose names match. -/
def findSymbols (s : Store) (name : String) (wanted : NameMatch) (scope : SymbolScope) :
    Except Failure (Lookup (List Symbol)) :=
  s.withProject name fun project => do
    let id := Cell.uuid project.projectId
    if (s.fossilsOf id).isEmpty then .ok (.noFossil project.name)
    else
      match wanted with
      | .exact symbol => do
          let typed ← (s.searchRows id (·.name = .text symbol) scope).mapM JoinedSymbol.typed
          let symbols ← typed.mapM TypedSymbol.decode
          .ok (.found symbols)
      | .contains part => do
          let typed ← (s.searchRows id (fun _ => true) scope).mapM JoinedSymbol.typed
          let matching :=
            typed.filter fun t => Text.contains (Text.lower t.name) (Text.lower part)
          let symbols ← matching.mapM TypedSymbol.decode
          .ok (.found symbols)

/-- The symbols of the latest fossil whose names contain a part in any case. -/
def searchSymbols (s : Store) (name part : String) : Except Failure (Lookup (List Symbol)) :=
  s.findSymbols name (.contains part) .latest

/-- How often each value occurs, in the order in which they occur first. -/
def tally {α : Type} [DecidableEq α] (values : List α) : List (α × Nat) :=
  values.eraseDups.map fun v => (v, values.count v)

/-- The tally of values, the most frequent one first and those of equal number in ascending order of
the stored values that each of them gives. -/
def orderedTally {α : Type} [DecidableEq α] (cells : α → List Cell) (values : List α) :
    List (α × Nat) :=
  (orderBy (fun (u : α × Nat) => cells u.1) (tally values)).mergeSort fun a b => decide (b.2 ≤ a.2)

/-- The number of symbols of each type in a fossil, the most frequent type first and types of equal
number by name. -/
def symbolTypeCounts (s : Store) (fossilId : Uuid) : Except Failure (List (SymbolType × Nat)) :=
  let types := (s.symbols.filter (·.fossilId = Cell.uuid fossilId)).map SymbolRow.kind
  (orderedTally (fun type => [type]) types).mapM fun (type, count) => do
    let label ← type.asText 0 "type"
    .ok (SymbolType.ofLabel label, count)

end Store

end FossilRecord

import FossilRecord.Fossil
import FossilRecord.Proofs.Json.Record

/-!
# The lists of a fossil read back

Dependencies and files are kept as the text of a list of objects, and read back from it.
-/

namespace FossilRecord

namespace Dependency

theorem read_toJson (d : Dependency) (rest : List Char) :
    read (d.toJson.compactChars ++ rest) = .ok (d, rest) := by
  have hname : ∀ rest, Json.EndsNumber rest →
      shape.first.2 (Json.compactChars (.text d.name) ++ rest) = .ok (d.name, rest) :=
    fun rest _ => Json.readScalar_text "a string" d.name rest
  have hread : shape.read (d.toJson.compactChars ++ rest) =
      .ok ((d.name, d.version, d.purpose), rest) :=
    Json.Triple.read_fields ⟨by decide, by decide, by decide⟩ hname
      (fun rest _ => Json.readOption_optText "a string" d.version rest)
      (fun rest _ => Json.readOption_optText "a string" d.purpose rest) rest
  rw [read, hread]
  rfl

/-- Dependencies are read back from the text that a row keeps of them. -/
theorem parse_list (dependencies : List Dependency) :
    Json.parseWith (Json.readList read) (Json.compact (.list (dependencies.map toJson))) =
      .ok dependencies :=
  Json.parseWith_readList fun d _ rest _ => read_toJson d rest

end Dependency

namespace FileTreeEntry

/-- Whether a number of lines fits 64 bits. -/
def IsCounted (e : FileTreeEntry) : Prop :=
  ∀ n ∈ e.lineCount, n < 2 ^ 64

theorem read_toJson {e : FileTreeEntry} (he : e.IsCounted) (rest : List Char) :
    read (e.toJson.compactChars ++ rest) = .ok (e, rest) := by
  have hpath : ∀ rest, Json.EndsNumber rest →
      shape.first.2 (Json.compactChars (.text e.path) ++ rest) = .ok (e.path, rest) :=
    fun rest _ => Json.readScalar_text "a string" e.path rest
  have hread : shape.read (e.toJson.compactChars ++ rest) =
      .ok ((e.path, e.description, e.lineCount), rest) :=
    Json.Triple.read_fields ⟨by decide, by decide, by decide⟩ hpath
      (fun rest _ => Json.readOption_optText "a string" e.description rest)
      (fun rest hrest => Json.readOption_optNat "u64" he hrest) rest
  rw [read, hread]
  rfl

/-- Files are read back from the text that a row keeps of them. -/
theorem parse_list {entries : List FileTreeEntry} (hentries : ∀ e ∈ entries, e.IsCounted) :
    Json.parseWith (Json.readList read) (Json.compact (.list (entries.map toJson))) = .ok entries :=
  Json.parseWith_readList fun e he rest _ => read_toJson (hentries e he) rest

end FileTreeEntry

end FossilRecord

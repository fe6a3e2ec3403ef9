import FossilRecord.Fossil
import FossilRecord.Insight
import FossilRecord.Project
import FossilRecord.Prompt
import FossilRecord.Proofs.Fossil
import FossilRecord.Proofs.Serial.Basic
import FossilRecord.Proofs.Symbol
import FossilRecord.QueryLog
import FossilRecord.Source.Outline

/-!
# The forms of the records

For each type: what is known of a value that was decoded, that it is decoded from the fields that it
is encoded as in any order, and that its form is stable.
-/

namespace FossilRecord

open Json

/-! ## Kinds and statuses -/

namespace SymbolType

theorem isNamed_of_decode {j : Json} {k : SymbolType} (h : decode j = .ok k) : k.IsNamed := by
  cases j with
  | text s =>
      cases h
      exact isNamed_ofLabel s
  | null | bool | number | list | object => cases h

theorem decode_toJson {k : SymbolType} (hk : k.IsNamed) : decode k.toJson = .ok k :=
  congrArg Except.ok hk

theorem isStable : IsStable decode toJson :=
  isStable_of_text label (fun _ => rfl) fun h => decode_toJson (isNamed_of_decode h)

end SymbolType

namespace ProjectStatus

@[simp] theorem decode_toJson (s : ProjectStatus) : decode s.toJson = .ok s := by
  cases s <;> rfl

theorem isStable : IsStable decode toJson :=
  isStable_of_text label (fun _ => rfl) fun _ => decode_toJson _

end ProjectStatus

/-! ## Relationships -/

namespace Relationships

theorem decode_perm (r : Relationships) {fields : List (String × Json)}
    (h : fields.Perm r.toJson.entries) : decode (.object fields) = .ok r := by
  have hapart : NamesApart r.toJson.entries := by simp [NamesApart, toJson, entries, fields?]
  have htakes : layout.Takes r.toJson.entries := by
    simp [Layout.Takes, layout, keys, toJson, entries, fields?, check_eq_ok]
  have hread := Layout.read_perm h hapart htakes
  have hlookup := lookup_perm h hapart
  simp [decode, hread, hlookup, Layout.withDefault, Layout.finish, toJson, entries, fields?, lookup,
    bind, Except.bind]

theorem isStable : IsStable decode toJson :=
  isStable_of_record (fun _ => rfl) (fun _ => by simp [NamesApart, toJson, entries, fields?])
    (fun _ h => decode_perm _ h) (fun _ _ => by simp [toJson, entries, fields?])
    (fun _ _ _ => by simp [toJson, entries, fields?, depthLimit, writable_texts])

end Relationships

/-! ## Dependencies and files -/

namespace Dependency

theorem namesApart (d : Dependency) : NamesApart d.toJson.entries := by
  simp [NamesApart, toJson, entries, fields?]

theorem decode_perm (d : Dependency) {fields : List (String × Json)}
    (h : fields.Perm d.toJson.entries) : decode (.object fields) = .ok d := by
  have htakes : layout.Takes d.toJson.entries := by
    simp [Layout.Takes, layout, toJson, entries, fields?, check_eq_ok]
  have hread := Layout.read_perm h d.namesApart htakes
  have hlookup := lookup_perm h d.namesApart
  simp [decode, hread, hlookup, Layout.required, Layout.optional, Layout.finish, toJson, entries,
    fields?, lookup, bind, Except.bind]

theorem decode_sorted (d : Dependency) : decode d.toJson.sorted = .ok d := by
  have hsorted : d.toJson.sorted = .object (sortFields d.toJson.entries) := by
    simp [toJson, Json.sorted, sortedFields, ofFields, entries, fields?]
  rw [hsorted]
  exact d.decode_perm (sortFields_perm d.namesApart)

theorem isStable : IsStable decode toJson :=
  isStable_of_record (fun _ => rfl) namesApart (fun _ h => decode_perm _ h)
    (fun _ _ => by simp [toJson, entries, fields?])
    (fun _ _ _ => by simp [toJson, entries, fields?, writable_text, writable_optText])

end Dependency

namespace FileTreeEntry

theorem namesApart (e : FileTreeEntry) : NamesApart e.toJson.entries := by
  simp [NamesApart, toJson, entries, fields?]

/-- The number of lines that was read fits 64 bits if the value fits. -/
theorem isCounted_of_decode {depth : Nat} {v : Json} {e : FileTreeEntry} (hfits : Fits depth v)
    (h : decode v = .ok e) : e.IsCounted := by
  rw [decode] at h
  obtain ⟨found, hread, h⟩ := bind_eq_ok h
  obtain ⟨path, -, h⟩ := bind_eq_ok h
  obtain ⟨description, -, h⟩ := bind_eq_ok h
  obtain ⟨lineCount, hcount, h⟩ := bind_eq_ok h
  obtain ⟨-, -, h⟩ := bind_eq_ok h
  cases h
  intro n hn
  cases hn
  obtain ⟨j, hj, hn⟩ := Layout.part_of_optional hread hcount
  exact lt_of_natAs (hj.fits hfits) (of_decodeOption hn)

theorem decode_perm (e : FileTreeEntry) {fields : List (String × Json)}
    (h : fields.Perm e.toJson.entries) : decode (.object fields) = .ok e := by
  have htakes : layout.Takes e.toJson.entries := by
    simp [Layout.Takes, layout, toJson, entries, fields?, check_eq_ok]
  have hread := Layout.read_perm h e.namesApart htakes
  have hlookup := lookup_perm h e.namesApart
  simp [decode, hread, hlookup, Layout.required, Layout.optional, Layout.finish, toJson, entries,
    fields?, lookup, bind, Except.bind]

theorem decode_sorted (e : FileTreeEntry) : decode e.toJson.sorted = .ok e := by
  have hsorted : e.toJson.sorted = .object (sortFields e.toJson.entries) := by
    simp [toJson, Json.sorted, sortedFields, ofFields, entries, fields?]
  rw [hsorted]
  exact e.decode_perm (sortFields_perm e.namesApart)

theorem forall_writable {e : FileTreeEntry} (he : e.IsCounted) (depth : Nat) :
    ∀ f ∈ e.toJson.entries, Writable depth f.2 := by
  simp [toJson, entries, fields?, writable_text, writable_optText, writable_optNat depth he]

theorem isStable : IsStable decode toJson :=
  isStable_of_record (fun _ => rfl) namesApart (fun _ h => decode_perm _ h)
    (fun _ _ => by simp [toJson, entries, fields?])
    (fun hfits _ h => forall_writable (isCounted_of_decode hfits h) _)

end FileTreeEntry

/-! ## Symbols -/

/-- What is known of a free value that was read from a part of another one. -/
def IsTaken (v : Json) (j : Option Json) : Prop :=
  ∀ k ∈ j, PartOf k v ∧ k ≠ .null

section

variable {v : Json} {j : Option Json}

theorem isTaken_of_optional {l : Layout} {found : Found} {name : String}
    (hread : l.read v = .ok found) (h : l.optional found name decodeAny = .ok j) :
    IsTaken v j := by
  intro k hk
  cases hk
  obtain ⟨w, hw, hk⟩ := Layout.part_of_optional hread h
  obtain ⟨rfl, hnull⟩ := of_decodeAny hk
  exact ⟨hw, hnull⟩

theorem IsTaken.decodeAny (h : IsTaken v j) : decodeAny (j.getD .null) = .ok j :=
  decodeAny_getD fun k hk => (h k hk).2

theorem IsTaken.sorted (h : IsTaken v j) {depth : Nat} (hv : Fits depth v) :
    (j.getD .null).sorted = j.getD .null := by
  cases j with
  | none => simp [Json.sorted]
  | some k => exact sorted_of_fits ((h k rfl).1.fits hv)

theorem IsTaken.writable (h : IsTaken v j) {depth : Nat} (hv : Fits depth v)
    (hwhole : v.isWhole = true) : Writable (depth - 1) (j.getD .null) := by
  cases j with
  | none => exact .fits (.null _) rfl
  | some k => exact .fits ((h k rfl).1.fits hv) ((h k rfl).1.isWhole hwhole)

end

namespace Symbol

/-- What is known of a symbol that was read from a value. -/
structure IsRead (v : Json) (s : Symbol) : Prop where
  version : minInt64 ≤ s.version ∧ s.version ≤ maxInt64
  lineNumber : ∀ n ∈ s.lineNumber, minInt64 ≤ n ∧ n ≤ maxInt64
  kind : s.kind.IsNamed
  relationships : IsTaken v s.relationships

theorem isRead_of_decode {v : Json} {s : Symbol} (h : decode v = .ok s) : s.IsRead v := by
  rw [decode] at h
  obtain ⟨found, hread, h⟩ := bind_eq_ok h
  obtain ⟨symbolId, -, h⟩ := bind_eq_ok h
  obtain ⟨fossilId, -, h⟩ := bind_eq_ok h
  obtain ⟨projectId, -, h⟩ := bind_eq_ok h
  obtain ⟨version, hversion, h⟩ := bind_eq_ok h
  obtain ⟨filePath, -, h⟩ := bind_eq_ok h
  obtain ⟨lineNumber, hline, h⟩ := bind_eq_ok h
  obtain ⟨kind, hkind, h⟩ := bind_eq_ok h
  obtain ⟨name, -, h⟩ := bind_eq_ok h
  obtain ⟨signature, -, h⟩ := bind_eq_ok h
  obtain ⟨description, -, h⟩ := bind_eq_ok h
  obtain ⟨relationships, hrelationships, h⟩ := bind_eq_ok h
  obtain ⟨-, -, h⟩ := bind_eq_ok h
  cases h
  obtain ⟨_, -, hversion⟩ := Layout.part_of_required hread hversion
  obtain ⟨_, -, hkind⟩ := Layout.part_of_required hread hkind
  refine ⟨range_of_decodeInt hversion, ?_, SymbolType.isNamed_of_decode hkind,
    isTaken_of_optional hread hrelationships⟩
  intro n hn
  cases hn
  obtain ⟨_, -, hn⟩ := Layout.part_of_optional hread hline
  exact range_of_decodeInt (of_decodeOption hn)

theorem namesApart (s : Symbol) : NamesApart s.toJson.entries := by
  simp [NamesApart, toJson, entries, fields?]

theorem decode_perm {v : Json} {s : Symbol} (hs : s.IsRead v) {fields : List (String × Json)}
    (h : fields.Perm s.toJson.entries) : decode (.object fields) = .ok s := by
  have hversion := decodeInt_int hs.version
  have hline := decodeOption_optInt hs.lineNumber
  have hkind := SymbolType.decode_toJson hs.kind
  have hrelationships := hs.relationships.decodeAny
  have htakes : layout.Takes s.toJson.entries := by
    simp [Layout.Takes, layout, toJson, entries, fields?, check_eq_ok, hversion, hline, hkind,
      hrelationships]
  have hread := Layout.read_perm h s.namesApart htakes
  have hlookup := lookup_perm h s.namesApart
  simp [decode, hread, hlookup, Layout.required, Layout.optional, Layout.finish, toJson, entries,
    fields?, lookup, bind, Except.bind, hversion, hline, hkind, hrelationships]

theorem isStable : IsStable decode toJson :=
  isStable_of_record (fun _ => rfl) namesApart (fun hs h => decode_perm (isRead_of_decode hs) h)
    (fun hfits h => by
      have hrelationships := (isRead_of_decode h).relationships.sorted hfits
      simp [toJson, entries, fields?, SymbolType.toJson, hrelationships])
    (fun {v s} hfits hwhole h => by
      have hs := isRead_of_decode h
      have hline : ∀ n ∈ s.lineNumber, FitsInt n := fun n hn => fitsInt_of_range (hs.lineNumber n hn)
      simp [toJson, entries, fields?, SymbolType.toJson, writable_text, writable_optText,
        writable_int _ (fitsInt_of_range hs.version), writable_optInt _ hline,
        hs.relationships.writable hfits hwhole])

end Symbol

/-! ## Fossils -/

namespace Fossil

/-- What is known of a fossil that was read from a value. -/
structure IsRead (v : Json) (f : Fossil) : Prop where
  version : minInt64 ≤ f.version ∧ f.version ≤ maxInt64
  createdAt : f.createdAt.InRange
  fileTree : ∀ depth, Fits depth v → ∀ e ∈ f.fileTree, e.IsCounted

theorem isRead_of_decode {v : Json} {f : Fossil} (h : decode v = .ok f) : f.IsRead v := by
  rw [decode] at h
  obtain ⟨found, hread, h⟩ := bind_eq_ok h
  obtain ⟨fossilId, -, h⟩ := bind_eq_ok h
  obtain ⟨projectId, -, h⟩ := bind_eq_ok h
  obtain ⟨version, hversion, h⟩ := bind_eq_ok h
  obtain ⟨createdAt, hcreated, h⟩ := bind_eq_ok h
  obtain ⟨summary, -, h⟩ := bind_eq_ok h
  obtain ⟨architecture, -, h⟩ := bind_eq_ok h
  obtain ⟨recentChanges, -, h⟩ := bind_eq_ok h
  obtain ⟨knownIssues, -, h⟩ := bind_eq_ok h
  obtain ⟨dependencies, -, h⟩ := bind_eq_ok h
  obtain ⟨fileTree, htree, h⟩ := bind_eq_ok h
  obtain ⟨promptUsed, -, h⟩ := bind_eq_ok h
  obtain ⟨-, -, h⟩ := bind_eq_ok h
  cases h
  obtain ⟨_, -, hversion⟩ := Layout.part_of_required hread hversion
  obtain ⟨_, -, hcreated⟩ := Layout.part_of_required hread hcreated
  obtain ⟨w, hw, htree⟩ := Layout.part_of_required hread htree
  refine ⟨range_of_decodeInt hversion, inRange_of_decodeInstant hcreated, ?_⟩
  intro depth hfits e he
  obtain ⟨j, hj, he⟩ := part_of_decodeList htree he
  exact FileTreeEntry.isCounted_of_decode (hj.fits (hw.fits hfits)) he

/-- The fields of a fossil, given the values of its two lists. -/
def fieldsWith (f : Fossil) (dependencies fileTree : Json) : List (String × Json) :=
  [("fossil_id", .text (toString f.fossilId)), ("project_id", .text (toString f.projectId)),
    ("version", .int f.version), ("created_at", .text f.createdAt.toZulu),
    ("summary", .text f.summary), ("architecture", .text f.architecture),
    ("recent_changes", .text f.recentChanges), ("known_issues", .text f.knownIssues),
    ("dependencies", dependencies), ("file_tree", fileTree), ("prompt_used", .text f.promptUsed)]

theorem namesApart (f : Fossil) (dependencies fileTree : Json) :
    NamesApart (f.fieldsWith dependencies fileTree) := by
  simp [NamesApart, fieldsWith]

theorem decode_perm {v : Json} {f : Fossil} (hf : f.IsRead v) {dependencies fileTree : Json}
    (hdependencies : decodeList Dependency.decode dependencies = .ok f.dependencies)
    (htree : decodeList FileTreeEntry.decode fileTree = .ok f.fileTree)
    {fields : List (String × Json)} (h : fields.Perm (f.fieldsWith dependencies fileTree)) :
    decode (.object fields) = .ok f := by
  have hversion := decodeInt_int hf.version
  have hcreated := decodeInstant_toZulu hf.createdAt
  have htakes : layout.Takes (f.fieldsWith dependencies fileTree) := by
    simp [Layout.Takes, layout, fieldsWith, check_eq_ok, hversion, hcreated, hdependencies, htree]
  have hread := Layout.read_perm h (f.namesApart _ _) htakes
  have hlookup := lookup_perm h (f.namesApart _ _)
  simp [decode, hread, hlookup, Layout.required, Layout.finish, fieldsWith, lookup, bind,
    Except.bind, hversion, hcreated, hdependencies, htree]

/-- The sorted form of a fossil has the sorted forms of what it lists. -/
theorem sorted_toJson (f : Fossil) :
    f.toJson.sorted = .object (sortFields (f.fieldsWith
      (.list (f.dependencies.map fun d => d.toJson.sorted))
      (.list (f.fileTree.map fun e => e.toJson.sorted)))) := by
  simp [toJson, Json.sorted, sortedFields, sortedItems_eq_map, fieldsWith, ofFields,
    Function.comp_def]

theorem writable_toJson (depth : Nat) {f : Fossil}
    (hversion : minInt64 ≤ f.version ∧ f.version ≤ maxInt64)
    (htree : ∀ e ∈ f.fileTree, e.IsCounted) : Writable (depth + 5) f.toJson := by
  have hdependencies : Writable (depth + 4) (.list (f.dependencies.map Dependency.toJson)) := by
    refine .list fun j hj => ?_
    obtain ⟨d, -, rfl⟩ := List.mem_map.mp hj
    refine .object d.namesApart ?_
    simp [writable_text, writable_optText]
  have hfiles : Writable (depth + 4) (.list (f.fileTree.map FileTreeEntry.toJson)) := by
    refine .list fun j hj => ?_
    obtain ⟨e, he, rfl⟩ := List.mem_map.mp hj
    exact .object e.namesApart (FileTreeEntry.forall_writable (htree e he) _)
  refine .object (f.namesApart _ _) ?_
  simp [writable_text, writable_int _ (fitsInt_of_range hversion), hdependencies, hfiles]

theorem isStable : IsStable decode toJson where
  again h :=
    decode_perm (isRead_of_decode h) (decodeList_map fun d _ => d.decode_perm (List.Perm.refl _))
      (decodeList_map fun e _ => e.decode_perm (List.Perm.refl _)) (List.Perm.refl _)
  sorted hfits h := by
    rw [sorted_toJson]
    exact decode_perm (isRead_of_decode h) (decodeList_map fun d _ => d.decode_sorted)
      (decodeList_map fun e _ => e.decode_sorted) (sortFields_perm (namesApart _ _ _))
  text hfits _ h :=
    parse_compact_sorted (writable_toJson (depthLimit - 5) (isRead_of_decode h).version
      ((isRead_of_decode h).fileTree _ hfits))

end Fossil

/-! ## Projects -/

namespace Project

theorem namesApart (p : Project) : NamesApart p.toJson.entries := by
  simp [NamesApart, toJson, toFields, entries, fields?]

theorem inRange_of_decode {v : Json} {p : Project} (h : decode v = .ok p) :
    ∀ t ∈ p.lastIndexed, t.InRange := by
  rw [decode] at h
  obtain ⟨found, hread, h⟩ := bind_eq_ok h
  obtain ⟨projectId, -, h⟩ := bind_eq_ok h
  obtain ⟨name, -, h⟩ := bind_eq_ok h
  obtain ⟨path, -, h⟩ := bind_eq_ok h
  obtain ⟨stack, -, h⟩ := bind_eq_ok h
  obtain ⟨status, -, h⟩ := bind_eq_ok h
  obtain ⟨lastIndexed, hindexed, h⟩ := bind_eq_ok h
  obtain ⟨-, -, h⟩ := bind_eq_ok h
  cases h
  intro t ht
  cases ht
  obtain ⟨_, -, ht⟩ := Layout.part_of_optional hread hindexed
  exact inRange_of_decodeInstant (of_decodeOption ht)

theorem decode_perm {p : Project} (hp : ∀ t ∈ p.lastIndexed, t.InRange)
    {fields : List (String × Json)} (h : fields.Perm p.toJson.entries) :
    decode (.object fields) = .ok p := by
  have hindexed := decodeOption_instant hp
  have htakes : layout.Takes p.toJson.entries := by
    simp [Layout.Takes, layout, toJson, toFields, entries, fields?, check_eq_ok, hindexed]
  have hread := Layout.read_perm h p.namesApart htakes
  have hlookup := lookup_perm h p.namesApart
  simp [decode, hread, hlookup, Layout.required, Layout.optional, Layout.finish, toJson, toFields,
    entries, fields?, lookup, bind, Except.bind, hindexed]

theorem isStable : IsStable decode toJson :=
  isStable_of_record (fun _ => rfl) namesApart (fun hp h => decode_perm (inRange_of_decode hp) h)
    (fun _ _ => by simp [toJson, toFields, entries, fields?, ProjectStatus.toJson])
    (fun _ _ _ => by
      simp [toJson, toFields, entries, fields?, ProjectStatus.toJson, writable_text,
        writable_optText])

end Project

/-! ## Insights, log entries and prompts -/

namespace Insight

theorem namesApart (i : Insight) : NamesApart i.toJson.entries := by
  simp [NamesApart, toJson, entries, fields?]

theorem inRange_of_decode {v : Json} {i : Insight} (h : decode v = .ok i) :
    i.createdAt.InRange := by
  rw [decode] at h
  obtain ⟨found, hread, h⟩ := bind_eq_ok h
  obtain ⟨insightId, -, h⟩ := bind_eq_ok h
  obtain ⟨projectId, -, h⟩ := bind_eq_ok h
  obtain ⟨fossilId, -, h⟩ := bind_eq_ok h
  obtain ⟨insightType, -, h⟩ := bind_eq_ok h
  obtain ⟨content, -, h⟩ := bind_eq_ok h
  obtain ⟨modelUsed, -, h⟩ := bind_eq_ok h
  obtain ⟨projectsInvolved, -, h⟩ := bind_eq_ok h
  obtain ⟨createdAt, hcreated, h⟩ := bind_eq_ok h
  obtain ⟨-, -, h⟩ := bind_eq_ok h
  cases h
  obtain ⟨_, -, hcreated⟩ := Layout.part_of_required hread hcreated
  exact inRange_of_decodeInstant hcreated

theorem decode_perm {i : Insight} (hi : i.createdAt.InRange) {fields : List (String × Json)}
    (h : fields.Perm i.toJson.entries) : decode (.object fields) = .ok i := by
  have hcreated := decodeInstant_toZulu hi
  have htakes : layout.Takes i.toJson.entries := by
    simp [Layout.Takes, layout, toJson, entries, fields?, check_eq_ok, hcreated]
  have hread := Layout.read_perm h i.namesApart htakes
  have hlookup := lookup_perm h i.namesApart
  simp [decode, hread, hlookup, Layout.required, Layout.optional, Layout.finish, toJson, entries,
    fields?, lookup, bind, Except.bind, hcreated]

theorem isStable : IsStable decode toJson :=
  isStable_of_record (fun _ => rfl) namesApart (fun hi h => decode_perm (inRange_of_decode hi) h)
    (fun _ _ => by simp [toJson, entries, fields?])
    (fun _ _ _ => by
      simp [toJson, entries, fields?, depthLimit, writable_text, writable_optText, writable_texts])

end Insight

namespace QueryLogEntry

theorem namesApart (e : QueryLogEntry) : NamesApart e.toJson.entries := by
  simp [NamesApart, toJson, entries, fields?]

/-- What is known of an entry that was read from a value. -/
structure IsRead (v : Json) (e : QueryLogEntry) : Prop where
  queryParams : IsTaken v e.queryParams
  timestamp : e.timestamp.InRange

theorem isRead_of_decode {v : Json} {e : QueryLogEntry} (h : decode v = .ok e) : e.IsRead v := by
  rw [decode] at h
  obtain ⟨found, hread, h⟩ := bind_eq_ok h
  obtain ⟨entryId, -, h⟩ := bind_eq_ok h
  obtain ⟨toolName, -, h⟩ := bind_eq_ok h
  obtain ⟨projectName, -, h⟩ := bind_eq_ok h
  obtain ⟨queryParams, hparams, h⟩ := bind_eq_ok h
  obtain ⟨timestamp, htimestamp, h⟩ := bind_eq_ok h
  obtain ⟨-, -, h⟩ := bind_eq_ok h
  cases h
  obtain ⟨_, -, htimestamp⟩ := Layout.part_of_required hread htimestamp
  exact ⟨isTaken_of_optional hread hparams, inRange_of_decodeInstant htimestamp⟩

theorem decode_perm {v : Json} {e : QueryLogEntry} (he : e.IsRead v)
    {fields : List (String × Json)} (h : fields.Perm e.toJson.entries) :
    decode (.object fields) = .ok e := by
  have hparams := he.queryParams.decodeAny
  have htimestamp := decodeInstant_toZulu he.timestamp
  have htakes : layout.Takes e.toJson.entries := by
    simp [Layout.Takes, layout, toJson, entries, fields?, check_eq_ok, hparams, htimestamp]
  have hread := Layout.read_perm h e.namesApart htakes
  have hlookup := lookup_perm h e.namesApart
  simp [decode, hread, hlookup, Layout.required, Layout.optional, Layout.finish, toJson, entries,
    fields?, lookup, bind, Except.bind, hparams, htimestamp]

theorem isStable : IsStable decode toJson :=
  isStable_of_record (fun _ => rfl) namesApart (fun he h => decode_perm (isRead_of_decode he) h)
    (fun hfits h => by
      have hparams := (isRead_of_decode h).queryParams.sorted hfits
      simp [toJson, entries, fields?, hparams])
    (fun hfits hwhole h => by
      have hparams := (isRead_of_decode h).queryParams.writable hfits hwhole
      simp [toJson, entries, fields?, writable_text, writable_optText, hparams])

end QueryLogEntry

namespace CustodianPrompt

theorem namesApart (p : CustodianPrompt) : NamesApart p.toJson.entries := by
  simp [NamesApart, toJson, entries, fields?]

theorem inRange_of_decode {v : Json} {p : CustodianPrompt} (h : decode v = .ok p) :
    p.createdAt.InRange := by
  rw [decode] at h
  obtain ⟨found, hread, h⟩ := bind_eq_ok h
  obtain ⟨promptId, -, h⟩ := bind_eq_ok h
  obtain ⟨projectId, -, h⟩ := bind_eq_ok h
  obtain ⟨prompt, -, h⟩ := bind_eq_ok h
  obtain ⟨createdBy, -, h⟩ := bind_eq_ok h
  obtain ⟨notes, -, h⟩ := bind_eq_ok h
  obtain ⟨createdAt, hcreated, h⟩ := bind_eq_ok h
  obtain ⟨-, -, h⟩ := bind_eq_ok h
  cases h
  obtain ⟨_, -, hcreated⟩ := Layout.part_of_required hread hcreated
  exact inRange_of_decodeInstant hcreated

theorem decode_perm {p : CustodianPrompt} (hp : p.createdAt.InRange)
    {fields : List (String × Json)} (h : fields.Perm p.toJson.entries) :
    decode (.object fields) = .ok p := by
  have hcreated := decodeInstant_toZulu hp
  have htakes : layout.Takes p.toJson.entries := by
    simp [Layout.Takes, layout, toJson, entries, fields?, check_eq_ok, hcreated]
  have hread := Layout.read_perm h p.namesApart htakes
  have hlookup := lookup_perm h p.namesApart
  simp [decode, hread, hlookup, Layout.required, Layout.optional, Layout.finish, toJson, entries,
    fields?, lookup, bind, Except.bind, hcreated]

theorem isStable : IsStable decode toJson :=
  isStable_of_record (fun _ => rfl) namesApart (fun hp h => decode_perm (inRange_of_decode hp) h)
    (fun _ _ => by simp [toJson, entries, fields?])
    (fun _ _ _ => by simp [toJson, entries, fields?, writable_text, writable_optText])

end CustodianPrompt

/-! ## Symbols of source files -/

namespace Source.LiveSymbol

theorem namesApart (s : LiveSymbol) : NamesApart s.toJson.entries := by
  simp [NamesApart, toJson, entries, fields?]

/-- What is known of a symbol that was read from a value. -/
structure IsRead (v : Json) (s : LiveSymbol) : Prop where
  line : ∀ depth, Fits depth v → s.line < 2 ^ 64
  kind : s.kind.IsNamed

theorem isRead_of_decode {v : Json} {s : LiveSymbol} (h : decode v = .ok s) : s.IsRead v := by
  rw [decode] at h
  obtain ⟨found, hread, h⟩ := bind_eq_ok h
  obtain ⟨file, -, h⟩ := bind_eq_ok h
  obtain ⟨line, hline, h⟩ := bind_eq_ok h
  obtain ⟨kind, hkind, h⟩ := bind_eq_ok h
  obtain ⟨name, -, h⟩ := bind_eq_ok h
  obtain ⟨signature, -, h⟩ := bind_eq_ok h
  obtain ⟨-, -, h⟩ := bind_eq_ok h
  cases h
  obtain ⟨w, hw, hline⟩ := Layout.part_of_required hread hline
  obtain ⟨_, -, hkind⟩ := Layout.part_of_required hread hkind
  exact ⟨fun _ hfits => lt_of_natAs (hw.fits hfits) hline, SymbolType.isNamed_of_decode hkind⟩

theorem decode_perm {s : LiveSymbol} (hs : s.kind.IsNamed) {fields : List (String × Json)}
    (h : fields.Perm s.toJson.entries) : decode (.object fields) = .ok s := by
  have hkind := SymbolType.decode_toJson hs
  have htakes : layout.Takes s.toJson.entries := by
    simp [Layout.Takes, layout, toJson, entries, fields?, check_eq_ok, hkind]
  have hread := Layout.read_perm h s.namesApart htakes
  have hlookup := lookup_perm h s.namesApart
  simp [decode, hread, hlookup, Layout.required, Layout.optional, Layout.finish, toJson, entries,
    fields?, lookup, bind, Except.bind, hkind]

theorem isStable : IsStable decode toJson :=
  isStable_of_record (fun _ => rfl) namesApart
    (fun hs h => decode_perm (isRead_of_decode hs).kind h)
    (fun _ _ => by simp [toJson, entries, fields?, SymbolType.toJson])
    (fun hfits _ h => by
      have hline := (isRead_of_decode h).line _ hfits
      simp [toJson, entries, fields?, SymbolType.toJson, writable_text, writable_optText,
        writable_nat _ hline])

end Source.LiveSymbol

/-! ## All of them -/

/-- The forms of all records are stable: whatever spelling a value was decoded from, the form that
it is encoded as is decoded to it again, as it is written, with its fields sorted, and from its
text. -/
theorem serialForms_stable :
    IsStable SymbolType.decode SymbolType.toJson ∧
      IsStable ProjectStatus.decode ProjectStatus.toJson ∧
      IsStable Relationships.decode Relationships.toJson ∧
      IsStable Dependency.decode Dependency.toJson ∧
      IsStable FileTreeEntry.decode FileTreeEntry.toJson ∧
      IsStable Symbol.decode Symbol.toJson ∧ IsStable Fossil.decode Fossil.toJson ∧
      IsStable Project.decode Project.toJson ∧ IsStable Insight.decode Insight.toJson ∧
      IsStable QueryLogEntry.decode QueryLogEntry.toJson ∧
      IsStable CustodianPrompt.decode CustodianPrompt.toJson ∧
      IsStable Source.LiveSymbol.decode Source.LiveSymbol.toJson :=
  ⟨SymbolType.isStable, ProjectStatus.isStable, Relationships.isStable, Dependency.isStable,
    FileTreeEntry.isStable, Symbol.isStable, Fossil.isStable, Project.isStable, Insight.isStable,
    QueryLogEntry.isStable, CustodianPrompt.isStable, Source.LiveSymbol.isStable⟩

end FossilRecord

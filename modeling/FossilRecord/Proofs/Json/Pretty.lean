import FossilRecord.Proofs.Json.RoundTrip

/-!
# Indented values read back

The indented form differs from the compact one in spaces: a new line and an indentation before every
item and every field, and before the bracket that ends them, and one space behind every colon.  The
value that is read from it is therefore the same.
-/

namespace FossilRecord.Json

theorem isSpace_newLine (level : Nat) : ∀ c ∈ newLine level, isSpace c = true := by
  intro c hc
  rcases List.mem_cons.mp hc with rfl | hc
  · rfl
  · rw [(List.mem_replicate.mp hc).2]
    rfl

theorem prettyItems_eq_joined (level : Nat) (items : List Json) :
    prettyItems level items = joined (items.map fun j => newLine level ++ prettyChars level j) := by
  induction items with
  | nil => rfl
  | cons j rest ih =>
      cases rest with
      | nil => rfl
      | cons k rest =>
          have hstep : prettyItems level (j :: k :: rest) =
              newLine level ++ prettyChars level j ++ ',' :: prettyItems level (k :: rest) := rfl
          rw [hstep, ih]
          rfl

/-- A value behind a colon. -/
def behindColon (level : Nat) (j : Json) : List Char :=
  ' ' :: prettyChars level j

theorem prettyFields_eq_joined (level : Nat) (fields : List (String × Json)) :
    prettyFields level fields =
      joined (fields.map fun f => newLine level ++ renderField (behindColon level) f) := by
  induction fields with
  | nil => rfl
  | cons f rest ih =>
      cases rest with
      | nil => simp [prettyFields, joined, renderField, behindColon]
      | cons g rest =>
          have hstep : prettyFields level (f :: g :: rest) =
              newLine level ++ renderText f.1 ++ ':' :: behindColon level f.2 ++
                ',' :: prettyFields level (g :: rest) := rfl
          rw [hstep, ih]
          simp [joined, renderField]

/-- A space before a value does not count. -/
theorem readValue_space (depth : Nat) (cs : List Char) :
    readValue depth (' ' :: cs) = readValue depth cs := by
  have hskip : skipSpaces (' ' :: cs) = skipSpaces cs := rfl
  rw [readValue.eq_def, readValue.eq_def]
  simp only [hskip]

/-- Every value is written with a first character that starts a value. -/
theorem startsValue_prettyChars (level : Nat) (j : Json) : StartsValue (prettyChars level j) := by
  cases j with
  | null => exact startsValue_compactChars .null
  | bool b => exact startsValue_compactChars (.bool b)
  | number n => exact startsValue_compactChars (.number n)
  | text s => exact startsValue_compactChars (.text s)
  | list items => cases items <;> exact startsValue_cons (by decide) _
  | object fields => cases fields <;> exact startsValue_cons (by decide) _

/-- A list is read back from its indented form if each of its items is. -/
theorem readValue_prettyList {depth level : Nat} {items : List Json} {value : Json → Json}
    (hitems : ∀ j ∈ items, ∀ rest, EndsNumber rest →
      readValue (depth + 1) (prettyChars (level + 1) j ++ rest) = .ok (value j, rest))
    (rest : List Char) :
    readValue (depth + 2) (prettyChars level (.list items) ++ rest) =
      .ok (.list (items.map value), rest) := by
  cases items with
  | nil =>
      have hempty : ∀ j ∈ ([] : List Json), ∀ more, EndsNumber more →
          readValue (depth + 1) (compactChars j ++ more) = .ok (value j, more) := by simp
      exact readValue_list hempty rest
  | cons j items =>
      have hwritten : prettyChars level (.list (j :: items)) ++ rest =
          '[' :: (joined ((j :: items).map fun k =>
            newLine (level + 1) ++ prettyChars (level + 1) k) ++
              (newLine level ++ ']' :: rest)) := by
        rw [← prettyItems_eq_joined]
        simp [prettyChars]
      rw [hwritten, readValue_joined_items (isSpace_newLine _) (isSpace_newLine _) hitems
        fun k _ => startsValue_prettyChars _ k]

/-- An object is read back from its indented form if each of its fields is. -/
theorem readValue_prettyObject {depth level : Nat} {fields : List (String × Json)}
    {value : Json → Json}
    (hfields : ∀ f ∈ fields, ∀ rest, EndsNumber rest →
      readValue (depth + 1) (prettyChars (level + 1) f.2 ++ rest) = .ok (value f.2, rest))
    (rest : List Char) :
    readValue (depth + 2) (prettyChars level (.object fields) ++ rest) =
      .ok (ofFields (fields.map fun f => (f.1, value f.2)), rest) := by
  cases fields with
  | nil =>
      have hempty : ∀ f ∈ ([] : List (String × Json)), ∀ more, EndsNumber more →
          readValue (depth + 1) (compactChars f.2 ++ more) = .ok (value f.2, more) := by simp
      exact readValue_object hempty rest
  | cons f fields =>
      have hwritten : prettyChars level (.object (f :: fields)) ++ rest =
          '\x7b' :: (joined ((f :: fields).map fun g =>
            newLine (level + 1) ++ renderField (behindColon (level + 1)) g) ++
              (newLine level ++ '\x7d' :: rest)) := by
        rw [← prettyFields_eq_joined]
        simp [prettyChars]
      have hbehind : ∀ g ∈ f :: fields, ∀ more, EndsNumber more →
          readValue (depth + 1) (behindColon (level + 1) g.2 ++ more) = .ok (value g.2, more) := by
        intro g hg more hmore
        rw [behindColon, List.cons_append, readValue_space]
        exact hfields g hg more hmore
      rw [hwritten, readValue_joined_fields (isSpace_newLine _) (isSpace_newLine _) hbehind]

/-- A value that fits is read back from its indented form, up to where its text ends. -/
theorem readValue_prettyChars {depth : Nat} {j : Json} (h : Fits depth j) (level : Nat)
    (rest : List Char) (hrest : EndsNumber rest) :
    readValue depth (prettyChars level j ++ rest) = .ok (j.readBack, rest) := by
  induction h generalizing level rest with
  -- what is neither a list nor an object is written alike in both forms
  | null depth => exact readValue_compactChars (.null depth) rest hrest
  | bool depth b => exact readValue_compactChars (.bool depth b) rest hrest
  | whole depth hn => exact readValue_compactChars (.whole depth hn) rest hrest
  | real depth hx => exact readValue_compactChars (.real depth hx) rest hrest
  | text depth s => exact readValue_compactChars (.text depth s) rest hrest
  | list _ ih =>
      rw [readValue_prettyList fun j hj => ih j hj (level + 1), readBack, readBackItems_eq_map]
  | object hsorted _ ih =>
      rw [readValue_prettyObject fun f hf => ih f hf (level + 1), readBack, readBackFields_eq_map,
        ofFields, sortFields_of_ascending (ascending_readBack hsorted)]

/-- A value that fits is read back from its indented form. -/
theorem parse_pretty {j : Json} (h : Fits depthLimit j) : parse j.pretty = .ok j.readBack :=
  parse_of_readValue (readValue_prettyChars h 0 [] endsNumber_nil)

end FossilRecord.Json

import FossilRecord.Proofs.Json.Real
import FossilRecord.Proofs.Json.Text
import Mathlib.Data.String.Basic

/-!
# Written values read back

A value of a kind that readers give (`Fits`) is written without spaces to a text from which the same
value is read, except that numbers with a fraction may come back as other such numbers
(`readBack`).  Nothing behind the value is touched.
-/

namespace FossilRecord.Json

open Decimal (Binary64)

/-! ## Lists and objects in general -/

/-- Texts with commas between them. -/
def joined : List (List Char) → List Char
  | [] => []
  | [cs] => cs
  | cs :: rest => cs ++ ',' :: joined rest

/-- A text that starts a value: with no space and no closing bracket. -/
def StartsValue (cs : List Char) : Prop :=
  ∃ c rest, cs = c :: rest ∧ isSpace c = false ∧ c ≠ ']'

theorem skipSpaces_cons {c : Char} (hc : isSpace c = false) (rest : List Char) :
    skipSpaces (c :: rest) = c :: rest := by
  rw [skipSpaces, List.dropWhile_cons_of_neg (by simp [hc])]

theorem skipSpaces_append {ws : List Char} (hws : ∀ c ∈ ws, isSpace c = true) (rest : List Char) :
    skipSpaces (ws ++ rest) = skipSpaces rest :=
  List.dropWhile_append_of_pos hws

theorem endsNumber_comma (rest : List Char) : EndsNumber (',' :: rest) :=
  endsNumber_cons rfl (by decide) rest

theorem endsNumber_bracket (rest : List Char) : EndsNumber (']' :: rest) :=
  endsNumber_cons rfl (by decide) rest

theorem endsNumber_brace (rest : List Char) : EndsNumber ('\x7d' :: rest) :=
  endsNumber_cons rfl (by decide) rest

/-- What follows a value inside a list or an object. -/
theorem endsNumber_append {ws : List Char} (hws : ∀ c ∈ ws, isSpace c = true) {rest : List Char}
    (hrest : EndsNumber rest) : EndsNumber (ws ++ rest) := by
  cases ws with
  | nil => exact hrest
  | cons c ws =>
      have hc := hws c (by simp)
      simp only [isSpace, Bool.or_eq_true, beq_iff_eq] at hc
      rcases hc with ((rfl | rfl) | rfl) | rfl <;> exact endsNumber_cons rfl (by decide) _

section Spaced

/-! Before every item there may be the same spaces, and other ones before the closing bracket: none
in the compact form, a new line and an indentation in the indented form. -/

variable {lead trail : List Char}

theorem nextItem_first (hlead : ∀ c ∈ lead, isSpace c = true) {cs : List Char}
    (hcs : StartsValue cs) (rest : List Char) :
    nextItem true (lead ++ cs ++ rest) = .ok (true, cs ++ rest) := by
  obtain ⟨c, more, rfl, hspace, hbracket⟩ := hcs
  rw [List.append_assoc, List.cons_append, nextItem, skipSpaces_append hlead,
    skipSpaces_cons hspace]
  split
  · rename_i heq
    cases heq
  · rename_i heq
    cases heq
    exact absurd rfl hbracket
  · rename_i heq
    cases heq
    rfl

theorem nextItem_comma (hlead : ∀ c ∈ lead, isSpace c = true) {cs : List Char}
    (hcs : StartsValue cs) (rest : List Char) :
    nextItem false (',' :: (lead ++ cs ++ rest)) = .ok (true, cs ++ rest) := by
  obtain ⟨c, more, rfl, hspace, hbracket⟩ := hcs
  have hcomma : skipSpaces (',' :: (lead ++ (c :: more) ++ rest)) =
      ',' :: (lead ++ (c :: more) ++ rest) := skipSpaces_cons rfl _
  have hvalue : skipSpaces (lead ++ (c :: more) ++ rest) = c :: (more ++ rest) := by
    rw [List.append_assoc, skipSpaces_append hlead, List.cons_append, skipSpaces_cons hspace]
  rw [nextItem, hcomma]
  split
  · rename_i heq
    cases heq
  · rename_i heq
    cases heq
  · rename_i heq
    cases heq
    simp only [Bool.false_eq_true, if_false, beq_self_eq_true, if_true, hvalue]
    split
    · rename_i hnil
      cases hnil
    · rename_i hcons
      cases hcons
      exact absurd rfl hbracket
    · rfl

theorem nextItem_end (htrail : ∀ c ∈ trail, isSpace c = true) (first : Bool) (rest : List Char) :
    nextItem first (trail ++ ']' :: rest) = .ok (false, rest) := by
  rw [nextItem, skipSpaces_append htrail]
  rfl

theorem nextField_first (hlead : ∀ c ∈ lead, isSpace c = true) (name : String)
    (rest : List Char) :
    nextField true (lead ++ (renderText name ++ rest)) =
      .ok (true, name.toList.flatMap escapedChar ++ '"' :: rest) := by
  rw [renderText, nextField, skipSpaces_append hlead, List.append_assoc]
  rfl

theorem nextField_comma (hlead : ∀ c ∈ lead, isSpace c = true) (name : String)
    (rest : List Char) :
    nextField false (',' :: (lead ++ (renderText name ++ rest))) =
      .ok (true, name.toList.flatMap escapedChar ++ '"' :: rest) := by
  have hcomma : skipSpaces (',' :: (lead ++ (renderText name ++ rest))) =
      ',' :: (lead ++ (renderText name ++ rest)) := skipSpaces_cons rfl _
  have hname : skipSpaces (lead ++ (renderText name ++ rest)) =
      '"' :: (name.toList.flatMap escapedChar ++ '"' :: rest) := by
    rw [skipSpaces_append hlead, renderText, List.append_assoc]
    rfl
  rw [nextField, hcomma]
  simp [hname]

theorem nextField_end (htrail : ∀ c ∈ trail, isSpace c = true) (first : Bool)
    (rest : List Char) : nextField first (trail ++ '\x7d' :: rest) = .ok (false, rest) := by
  rw [nextField, skipSpaces_append htrail]
  rfl

end Spaced

theorem joined_cons (cs : List Char) (rest : List (List Char)) :
    joined (cs :: rest) = cs ++ rest.flatMap fun ds => ',' :: ds := by
  induction rest generalizing cs with
  | nil => simp [joined]
  | cons ds rest ih =>
      rw [joined, ih, List.flatMap_cons, List.cons_append]
      simp

section Items

variable {α β : Type} {item : Reader α} {render : β → List Char} {value : β → α}
variable {lead trail : List Char}

/-- The items after the first one. -/
theorem readItems_more (hlead : ∀ c ∈ lead, isSpace c = true)
    (htrail : ∀ c ∈ trail, isSpace c = true) {items : List β}
    (hitem : ∀ b ∈ items, ∀ rest, EndsNumber rest →
      item (render b ++ rest) = .ok (value b, rest))
    (hstart : ∀ b ∈ items, StartsValue (render b)) {fuel : Nat} (hfuel : items.length < fuel)
    (rest : List Char) :
    readItems item fuel false
        (items.flatMap (fun b => ',' :: (lead ++ render b)) ++ (trail ++ ']' :: rest)) =
      .ok (items.map value, rest) := by
  induction items generalizing fuel with
  | nil =>
      obtain ⟨n, rfl⟩ := Nat.exists_eq_succ_of_ne_zero (Nat.ne_of_gt hfuel)
      rw [List.flatMap_nil, List.nil_append, readItems, nextItem_end htrail]
      rfl
  | cons b items ih =>
      rw [List.length_cons] at hfuel
      obtain ⟨n, rfl⟩ := Nat.exists_eq_succ_of_ne_zero (Nat.ne_of_gt (Nat.zero_lt_of_lt hfuel))
      have hrest : EndsNumber
          (items.flatMap (fun b => ',' :: (lead ++ render b)) ++ (trail ++ ']' :: rest)) := by
        cases items with
        | nil => exact endsNumber_append htrail (endsNumber_bracket rest)
        | cons d items => exact endsNumber_comma _
      rw [List.flatMap_cons, List.append_assoc, List.cons_append, readItems,
        nextItem_comma hlead (hstart b (by simp))]
      simp only [bind, Except.bind, if_true]
      rw [hitem b (by simp) _ hrest]
      simp only
      rw [ih (fun d hd => hitem d (by simp [hd])) (fun d hd => hstart d (by simp [hd]))
        (by omega)]
      rfl

/-- A list is read back if each of its items is. -/
theorem readItems_joined (hlead : ∀ c ∈ lead, isSpace c = true)
    (htrail : ∀ c ∈ trail, isSpace c = true) {items : List β}
    (hitem : ∀ b ∈ items, ∀ rest, EndsNumber rest →
      item (render b ++ rest) = .ok (value b, rest))
    (hstart : ∀ b ∈ items, StartsValue (render b)) {fuel : Nat} (hfuel : items.length < fuel)
    (rest : List Char) :
    readItems item fuel true
        (joined (items.map fun b => lead ++ render b) ++ (trail ++ ']' :: rest)) =
      .ok (items.map value, rest) := by
  obtain ⟨n, rfl⟩ := Nat.exists_eq_succ_of_ne_zero (Nat.ne_of_gt (Nat.zero_lt_of_lt hfuel))
  cases items with
  | nil =>
      rw [List.map_nil, joined, List.nil_append, readItems, nextItem_end htrail]
      rfl
  | cons b items =>
      rw [List.length_cons] at hfuel
      have hrest : EndsNumber
          (items.flatMap (fun b => ',' :: (lead ++ render b)) ++ (trail ++ ']' :: rest)) := by
        cases items with
        | nil => exact endsNumber_append htrail (endsNumber_bracket rest)
        | cons d items => exact endsNumber_comma _
      rw [List.map_cons, joined_cons, List.flatMap_map, List.append_assoc, readItems,
        nextItem_first hlead (hstart b (by simp))]
      simp only [bind, Except.bind, if_true]
      rw [hitem b (by simp) _ hrest]
      simp only
      rw [readItems_more hlead htrail (fun d hd => hitem d (by simp [hd]))
        (fun d hd => hstart d (by simp [hd])) (by omega)]
      rfl

end Items

/-! ## Fields -/

/-- A field as it is written. -/
def renderField {β : Type} (render : β → List Char) (f : String × β) : List Char :=
  renderText f.1 ++ ':' :: render f.2

theorem skipColon_cons (rest : List Char) : skipColon (':' :: rest) = .ok rest := rfl

section Fields

variable {α β : Type} {item : String → Reader α} {render : β → List Char} {value : β → α}
variable {lead trail : List Char}

/-- The fields after the first one. -/
theorem readFields_more (hlead : ∀ c ∈ lead, isSpace c = true)
    (htrail : ∀ c ∈ trail, isSpace c = true) {fields : List (String × β)}
    (hitem : ∀ f ∈ fields, ∀ rest, EndsNumber rest →
      item f.1 (render f.2 ++ rest) = .ok (value f.2, rest))
    {fuel : Nat} (hfuel : fields.length < fuel) (rest : List Char) :
    readFields item fuel false
        (fields.flatMap (fun f => ',' :: (lead ++ renderField render f)) ++
          (trail ++ '\x7d' :: rest)) =
      .ok (fields.map fun f => (f.1, value f.2), rest) := by
  induction fields generalizing fuel with
  | nil =>
      obtain ⟨n, rfl⟩ := Nat.exists_eq_succ_of_ne_zero (Nat.ne_of_gt hfuel)
      rw [List.flatMap_nil, List.nil_append, readFields, nextField_end htrail]
      rfl
  | cons f fields ih =>
      rw [List.length_cons] at hfuel
      obtain ⟨n, rfl⟩ := Nat.exists_eq_succ_of_ne_zero (Nat.ne_of_gt (Nat.zero_lt_of_lt hfuel))
      have hrest : EndsNumber
          (fields.flatMap (fun f => ',' :: (lead ++ renderField render f)) ++
            (trail ++ '\x7d' :: rest)) := by
        cases fields with
        | nil => exact endsNumber_append htrail (endsNumber_brace rest)
        | cons g fields => exact endsNumber_comma _
      rw [List.flatMap_cons, renderField]
      simp only [List.cons_append, List.append_assoc]
      rw [readFields, nextField_comma hlead]
      simp only [bind, Except.bind, if_true]
      rw [readText_render]
      simp only [skipColon_cons]
      rw [hitem f (by simp) _ hrest]
      simp only
      rw [ih (fun g hg => hitem g (by simp [hg])) (by omega)]
      rfl

/-- An object is read back if each of its fields is. -/
theorem readFields_joined (hlead : ∀ c ∈ lead, isSpace c = true)
    (htrail : ∀ c ∈ trail, isSpace c = true) {fields : List (String × β)}
    (hitem : ∀ f ∈ fields, ∀ rest, EndsNumber rest →
      item f.1 (render f.2 ++ rest) = .ok (value f.2, rest))
    {fuel : Nat} (hfuel : fields.length < fuel) (rest : List Char) :
    readFields item fuel true
        (joined (fields.map fun f => lead ++ renderField render f) ++ (trail ++ '\x7d' :: rest)) =
      .ok (fields.map fun f => (f.1, value f.2), rest) := by
  obtain ⟨n, rfl⟩ := Nat.exists_eq_succ_of_ne_zero (Nat.ne_of_gt (Nat.zero_lt_of_lt hfuel))
  cases fields with
  | nil =>
      rw [List.map_nil, joined, List.nil_append, readFields, nextField_end htrail]
      rfl
  | cons f fields =>
      rw [List.length_cons] at hfuel
      have hrest : EndsNumber
          (fields.flatMap (fun f => ',' :: (lead ++ renderField render f)) ++
            (trail ++ '\x7d' :: rest)) := by
        cases fields with
        | nil => exact endsNumber_append htrail (endsNumber_brace rest)
        | cons g fields => exact endsNumber_comma _
      rw [List.map_cons, joined_cons, List.flatMap_map, renderField]
      simp only [List.cons_append, List.append_assoc]
      rw [readFields, nextField_first hlead]
      simp only [bind, Except.bind, if_true]
      rw [readText_render]
      simp only [skipColon_cons]
      rw [hitem f (by simp) _ hrest]
      simp only
      rw [readFields_more hlead htrail (fun g hg => hitem g (by simp [hg])) (by omega)]
      rfl

end Fields

/-! ## Fields in order -/

/-- The names of fields ascend, each once. -/
def Ascending (fields : List (String × Json)) : Prop :=
  (fields.map Prod.fst).Pairwise (· < ·)

theorem setField_snoc {name : String} (value : Json) {fields : List (String × Json)}
    (h : ∀ f ∈ fields, f.1 < name) : setField name value fields = fields ++ [(name, value)] := by
  induction fields with
  | nil => rfl
  | cons f fields ih =>
      have hf := h f (by simp)
      rw [setField, if_neg (ne_of_gt hf), if_neg (lt_asymm hf), ih fun g hg => h g (by simp [hg])]
      rfl

/-- Fields in ascending order stay as they are. -/
theorem sortFields_of_ascending {fields : List (String × Json)} (h : Ascending fields) :
    sortFields fields = fields := by
  have hfold : ∀ acc rest : List (String × Json), Ascending (acc ++ rest) →
      rest.foldl (fun acc f => setField f.1 f.2 acc) acc = acc ++ rest := by
    intro acc rest
    induction rest generalizing acc with
    | nil => simp
    | cons f rest ih =>
        intro hsorted
        -- each field goes behind those before it
        have hbelow : ∀ g ∈ acc, g.1 < f.1 := by
          intro g hg
          rw [Ascending, List.map_append, List.pairwise_append] at hsorted
          exact hsorted.2.2 g.1 (List.mem_map_of_mem hg) f.1 (by simp)
        rw [List.foldl_cons, setField_snoc f.2 hbelow, ih]
        · simp
        · simpa using hsorted
  exact hfold [] fields h

/-! ## Values -/

/-- The values that a reader can give at a depth: whole numbers of 64 bits, finite other numbers,
and objects whose fields are in order. -/
inductive Fits : Nat → Json → Prop
  | null (depth : Nat) : Fits depth .null
  | bool (depth : Nat) (b : Bool) : Fits depth (.bool b)
  | whole (depth : Nat) {n : Int} (hn : FitsInt n) : Fits depth (.number (.whole n))
  | real (depth : Nat) {x : Binary64} (hx : x.IsFinite) : Fits depth (.number (.real x))
  | text (depth : Nat) (s : String) : Fits depth (.text s)
  | list {depth : Nat} {items : List Json} (hitems : ∀ j ∈ items, Fits (depth + 1) j) :
      Fits (depth + 2) (.list items)
  | object {depth : Nat} {fields : List (String × Json)} (hsorted : Ascending fields)
      (hfields : ∀ f ∈ fields, Fits (depth + 1) f.2) : Fits (depth + 2) (.object fields)

/-- What fits at a depth fits at every greater one. -/
theorem Fits.mono {depth more : Nat} {j : Json} (h : Fits depth j) (hle : depth ≤ more) :
    Fits more j := by
  induction h generalizing more with
  | null => exact .null more
  | bool _ b => exact .bool more b
  | whole _ hn => exact .whole more hn
  | real _ hx => exact .real more hx
  | text _ s => exact .text more s
  | list _ ih =>
      obtain ⟨k, rfl⟩ : ∃ k, more = k + 2 := ⟨more - 2, by omega⟩
      exact .list fun j hj => ih j hj (by omega)
  | object hsorted _ ih =>
      obtain ⟨k, rfl⟩ : ∃ k, more = k + 2 := ⟨more - 2, by omega⟩
      exact .object hsorted fun f hf => ih f hf (by omega)

/-- The number that is read where a number is written. -/
def Number.readBack : Number → Number
  | .whole n => .whole n
  | .real x =>
      match readValue 0 (renderReal x) with
      | .ok (.number n, _) => n
      | _ => .real x

mutual

/-- The value that is read where a value is written. -/
def readBack : Json → Json
  | .number n => .number n.readBack
  | .list items => .list (readBackItems items)
  | .object fields => .object (readBackFields fields)
  | j => j

/-- The items that are read where items are written. -/
def readBackItems : List Json → List Json
  | [] => []
  | j :: rest => readBack j :: readBackItems rest

/-- The fields that are read where fields are written. -/
def readBackFields : List (String × Json) → List (String × Json)
  | [] => []
  | (n, j) :: rest => (n, readBack j) :: readBackFields rest

end

theorem readBackItems_eq_map (items : List Json) : readBackItems items = items.map readBack := by
  induction items with
  | nil => rfl
  | cons j rest ih => rw [readBackItems, ih, List.map_cons]

theorem readBackFields_eq_map (fields : List (String × Json)) :
    readBackFields fields = fields.map fun f => (f.1, readBack f.2) := by
  induction fields with
  | nil => rfl
  | cons f rest ih => rw [readBackFields, ih, List.map_cons]

theorem compactItems_eq_joined (items : List Json) :
    compactItems items = joined (items.map compactChars) := by
  induction items with
  | nil => rfl
  | cons j rest ih =>
      cases rest with
      | nil => rfl
      | cons k rest =>
          have hstep : compactItems (j :: k :: rest) =
              compactChars j ++ ',' :: compactItems (k :: rest) := rfl
          rw [hstep, ih]
          rfl

theorem compactFields_eq_joined (fields : List (String × Json)) :
    compactFields fields = joined (fields.map (renderField compactChars)) := by
  induction fields with
  | nil => rfl
  | cons f rest ih =>
      cases rest with
      | nil => rfl
      | cons g rest =>
          have hstep : compactFields (f :: g :: rest) =
              renderField compactChars f ++ ',' :: compactFields (g :: rest) := rfl
          rw [hstep, ih]
          rfl

/-- The commas between texts alone are as many as the texts but one. -/
theorem length_le_joined (texts : List (List Char)) : texts.length ≤ (joined texts).length + 1 := by
  cases texts with
  | nil => simp
  | cons cs rest =>
      have hcommas : rest.length ≤ (rest.flatMap fun ds => ',' :: ds).length := by
        induction rest with
        | nil => simp
        | cons ds rest ih =>
            rw [List.flatMap_cons, List.length_append, List.length_cons, List.length_cons]
            omega
      rw [joined_cons, List.length_append, List.length_cons]
      omega

theorem startsValue_cons {c : Char} (hc : isSpace c = false ∧ c ≠ ']') (rest : List Char) :
    StartsValue (c :: rest) := ⟨c, rest, rfl, hc⟩

theorem startsValue_digit {c : Char} (hc : (digit? c).isSome) (rest : List Char) :
    StartsValue (c :: rest) :=
  startsValue_cons ⟨isSpace_of_digit? hc, digit_ne hc⟩ rest

theorem startsValue_toDigits (n : Nat) : StartsValue (Nat.toDigits 10 n) := by
  obtain ⟨c, ds, hdigits, hc, -, -⟩ := toDigits_eq_digit_cons n
  rw [hdigits]
  exact startsValue_digit (by simp [hc]) ds

/-- Every value is written with a first character that starts a value. -/
theorem startsValue_compactChars (j : Json) : StartsValue (compactChars j) := by
  cases j with
  | null => exact startsValue_cons (by decide) _
  | bool b => cases b <;> exact startsValue_cons (by decide) _
  | number n =>
      cases n with
      | whole n =>
          rw [compactChars, renderScalar, renderNumber, renderInt]
          · split
            · exact startsValue_cons (by decide) _
            · exact startsValue_toDigits _
          · simp
          · simp
      | real x =>
          rw [compactChars, renderScalar, renderNumber, renderReal]
          · obtain ⟨c, cs, hdigits, hc⟩ := renderDigits_eq_cons x.shortest
            rw [hdigits]
            cases x.isNegative with
            | true => exact startsValue_cons (by decide) _
            | false => exact startsValue_digit hc cs
          · simp
          · simp
  | text s => exact startsValue_cons (by decide) _
  | list items => exact startsValue_cons (by decide) _
  | object fields => exact startsValue_cons (by decide) _

theorem readValue_bracket (depth : Nat) (rest : List Char) :
    readValue (depth + 2) ('[' :: rest) =
      (readItems (readValue (depth + 1)) (rest.length + 1) true rest).map fun p =>
        (Json.list p.1, p.2) := by
  rw [readValue.eq_def]
  simp [skipSpaces, isSpace, digit?]
  cases readItems (readValue (depth + 1)) (rest.length + 1) true rest <;> rfl

theorem readValue_brace (depth : Nat) (rest : List Char) :
    readValue (depth + 2) ('\x7b' :: rest) =
      (readFields (fun _ => readValue (depth + 1)) (rest.length + 1) true rest).map fun p =>
        (ofFields p.1, p.2) := by
  rw [readValue.eq_def]
  simp [skipSpaces, isSpace, digit?]
  cases readFields (fun _ => readValue (depth + 1)) (rest.length + 1) true rest <;> rfl

theorem readValue_quote (depth : Nat) (rest : List Char) :
    readValue depth ('"' :: rest) = (readText rest).map fun p => (Json.text p.1, p.2) := by
  rw [readValue.eq_def]
  simp [skipSpaces, isSpace, digit?]
  cases readText rest <;> rfl

theorem readValue_renderText (depth : Nat) (s : String) (rest : List Char) :
    readValue depth (renderText s ++ rest) = .ok (.text s, rest) := by
  have hwritten : renderText s ++ rest = '"' :: (s.toList.flatMap escapedChar ++ '"' :: rest) := by
    simp [renderText]
  rw [hwritten, readValue_quote, readText_render]
  rfl

/-- The fields that are read are in order again. -/
theorem ascending_readBack {fields : List (String × Json)} (h : Ascending fields) :
    Ascending (fields.map fun f => (f.1, readBack f.2)) := by
  rw [Ascending, List.map_map]
  exact h

/-- No space at all. -/
theorem forall_mem_nil_isSpace : ∀ c ∈ ([] : List Char), isSpace c = true := by simp

section Brackets

variable {depth : Nat} {render : Json → List Char} {value : Json → Json} {lead trail : List Char}

/-- A list is read back if each of its items is, with whatever spaces between them. -/
theorem readValue_joined_items (hlead : ∀ c ∈ lead, isSpace c = true)
    (htrail : ∀ c ∈ trail, isSpace c = true) {items : List Json}
    (hitems : ∀ j ∈ items, ∀ rest, EndsNumber rest →
      readValue (depth + 1) (render j ++ rest) = .ok (value j, rest))
    (hstart : ∀ j ∈ items, StartsValue (render j)) (rest : List Char) :
    readValue (depth + 2)
        ('[' :: (joined (items.map fun j => lead ++ render j) ++ (trail ++ ']' :: rest))) =
      .ok (.list (items.map value), rest) := by
  -- every item but the first has a comma before it, so the text is long enough
  have hfuel : items.length <
      (joined (items.map fun j => lead ++ render j) ++ (trail ++ ']' :: rest)).length + 1 := by
    have hlength := length_le_joined (items.map fun j => lead ++ render j)
    rw [List.length_map] at hlength
    rw [List.length_append, List.length_append, List.length_cons]
    omega
  rw [readValue_bracket, readItems_joined hlead htrail hitems hstart hfuel]
  rfl

/-- An object is read back if each of its fields is, with whatever spaces between them. -/
theorem readValue_joined_fields (hlead : ∀ c ∈ lead, isSpace c = true)
    (htrail : ∀ c ∈ trail, isSpace c = true) {fields : List (String × Json)}
    (hfields : ∀ f ∈ fields, ∀ rest, EndsNumber rest →
      readValue (depth + 1) (render f.2 ++ rest) = .ok (value f.2, rest)) (rest : List Char) :
    readValue (depth + 2)
        ('\x7b' :: (joined (fields.map fun f => lead ++ renderField render f) ++
          (trail ++ '\x7d' :: rest))) =
      .ok (ofFields (fields.map fun f => (f.1, value f.2)), rest) := by
  have hfuel : fields.length <
      (joined (fields.map fun f => lead ++ renderField render f) ++
        (trail ++ '\x7d' :: rest)).length + 1 := by
    have hlength := length_le_joined (fields.map fun f => lead ++ renderField render f)
    rw [List.length_map] at hlength
    rw [List.length_append, List.length_append, List.length_cons]
    omega
  rw [readValue_brace, readFields_joined hlead htrail hfields hfuel]
  rfl

end Brackets

/-- A list is read back from its compact form if each of its items is. -/
theorem readValue_list {depth : Nat} {items : List Json} {value : Json → Json}
    (hitems : ∀ j ∈ items, ∀ rest, EndsNumber rest →
      readValue (depth + 1) (compactChars j ++ rest) = .ok (value j, rest)) (rest : List Char) :
    readValue (depth + 2) (compactChars (.list items) ++ rest) =
      .ok (.list (items.map value), rest) := by
  have hwritten : compactChars (.list items) ++ rest =
      '[' :: (joined (items.map fun j => [] ++ compactChars j) ++ ([] ++ ']' :: rest)) := by
    simp [compactChars, compactItems_eq_joined]
  rw [hwritten, readValue_joined_items forall_mem_nil_isSpace forall_mem_nil_isSpace hitems
    fun j _ => startsValue_compactChars j]

/-- An object is read back from its compact form if each of its fields is. -/
theorem readValue_object {depth : Nat} {fields : List (String × Json)} {value : Json → Json}
    (hfields : ∀ f ∈ fields, ∀ rest, EndsNumber rest →
      readValue (depth + 1) (compactChars f.2 ++ rest) = .ok (value f.2, rest))
    (rest : List Char) :
    readValue (depth + 2) (compactChars (.object fields) ++ rest) =
      .ok (ofFields (fields.map fun f => (f.1, value f.2)), rest) := by
  have hwritten : compactChars (.object fields) ++ rest =
      '\x7b' :: (joined (fields.map fun f => [] ++ renderField compactChars f) ++
        ([] ++ '\x7d' :: rest)) := by
    simp [compactChars, compactFields_eq_joined]
  rw [hwritten, readValue_joined_fields forall_mem_nil_isSpace forall_mem_nil_isSpace hfields]

/-- A value that fits is read back, up to where its text ends. -/
theorem readValue_compactChars {depth : Nat} {j : Json} (h : Fits depth j) (rest : List Char)
    (hrest : EndsNumber rest) :
    readValue depth (compactChars j ++ rest) = .ok (j.readBack, rest) := by
  induction h generalizing rest with
  | null depth =>
      rw [readValue.eq_def]
      rfl
  | bool depth b =>
      rw [readValue.eq_def]
      cases b <;> rfl
  | whole depth hn => exact readValue_renderInt depth hn hrest
  | @real depth x hx =>
      -- the number that comes back is the same at every depth and before every rest
      obtain ⟨y, hy⟩ := readValue_renderReal hx
      have hread := hy 0 [] endsNumber_nil
      rw [List.append_nil] at hread
      have hback : readBack (.number (.real x)) = .number (.real y) := by
        rw [readBack, Number.readBack, hread]
      rw [hback]
      exact hy depth rest hrest
  | text depth s => exact readValue_renderText depth s rest
  | list _ ih => rw [readValue_list ih, readBack, readBackItems_eq_map]
  | object hsorted _ ih =>
      rw [readValue_object ih, readBack, readBackFields_eq_map, ofFields,
        sortFields_of_ascending (ascending_readBack hsorted)]

/-- A text is read as the value that it holds. -/
theorem parse_of_readValue {cs : List Char} {j : Json}
    (hread : readValue depthLimit (cs ++ []) = .ok (j, [])) : parse (String.ofList cs) = .ok j := by
  rw [List.append_nil] at hread
  rw [parse, parseChars, readWhole, String.toList_ofList, hread]
  rfl

/-- A value that fits is read back from its text. -/
theorem parse_compact {j : Json} (h : Fits depthLimit j) : parse j.compact = .ok j.readBack :=
  parse_of_readValue (readValue_compactChars h [] endsNumber_nil)

/-! ## Values that are read back unchanged -/

/-- Minus zero is read as a floating-point number, and comes back as it is. -/
theorem readBack_minus_zero :
    Number.readBack (.real (Binary64.zero true)) = .real (Binary64.zero true) := by
  decide +kernel

mutual

/-- Whether all numbers of a value are whole numbers of 64 bits, minus zero among them. -/
def isWhole : Json → Bool
  | .number (.real x) => x = Binary64.zero true
  | .list items => areWhole items
  | .object fields => fieldsAreWhole fields
  | _ => true

/-- Whether all numbers of some values are whole. -/
def areWhole : List Json → Bool
  | [] => true
  | j :: rest => isWhole j && areWhole rest

/-- Whether all numbers of the values of some fields are whole. -/
def fieldsAreWhole : List (String × Json) → Bool
  | [] => true
  | (_, j) :: rest => isWhole j && fieldsAreWhole rest

end

mutual

/-- Only a number with a fraction can come back as another value. -/
theorem readBack_of_isWhole : ∀ j : Json, j.isWhole = true → j.readBack = j
  | .null, _ => rfl
  | .bool _, _ => rfl
  | .number (.whole _), _ => rfl
  | .number (.real x), h => by
      rw [isWhole, decide_eq_true_eq] at h
      rw [h, readBack, readBack_minus_zero]
  | .text _, _ => rfl
  | .list items, h => by
      rw [isWhole] at h
      rw [readBack, readBackItems_of_areWhole items h]
  | .object fields, h => by
      rw [isWhole] at h
      rw [readBack, readBackFields_of_areWhole fields h]

theorem readBackItems_of_areWhole :
    ∀ items : List Json, areWhole items = true → readBackItems items = items
  | [], _ => rfl
  | j :: rest, h => by
      rw [areWhole, Bool.and_eq_true] at h
      rw [readBackItems, readBack_of_isWhole j h.1, readBackItems_of_areWhole rest h.2]

theorem readBackFields_of_areWhole :
    ∀ fields : List (String × Json), fieldsAreWhole fields = true → readBackFields fields = fields
  | [], _ => rfl
  | (n, j) :: rest, h => by
      rw [fieldsAreWhole, Bool.and_eq_true] at h
      rw [readBackFields, readBack_of_isWhole j h.1, readBackFields_of_areWhole rest h.2]

end

end FossilRecord.Json

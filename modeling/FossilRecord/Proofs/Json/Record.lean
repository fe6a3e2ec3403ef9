import FossilRecord.Json.Decode
import FossilRecord.Proofs.Json.RoundTrip

/-!
# Records read back from a text

The readers that go straight from a text to a record, given the text that was written for one: the
scalars, what may be null, the records of three fields, and lists of any of them.
-/

namespace FossilRecord.Json

/-! ## Scalars and options -/

/-- A scalar that is neither list nor object is decoded from the value that is read. -/
theorem readScalar_of_readValue {α : Type} {expected : String} {d : Decoder α} {c : Char}
    (hspace : isSpace c = false) (hlist : c ≠ '[') (hobject : c ≠ '\x7b') {cs rest : List Char}
    {j : Json} (hread : readValue depthLimit (c :: cs) = .ok (j, rest)) {x : α} (hx : d j = .ok x) :
    readScalar expected d (c :: cs) = .ok (x, rest) := by
  rw [readScalar, skipSpaces_cons hspace]
  split
  · rename_i heq
    cases heq
    exact absurd rfl hlist
  · rename_i heq
    cases heq
    exact absurd rfl hobject
  · rw [hread]
    simp only [bind, Except.bind, hx]

theorem readScalar_text (expected : String) (s : String) (rest : List Char) :
    readScalar expected decodeText (compactChars (.text s) ++ rest) = .ok (s, rest) :=
  readScalar_of_readValue (by decide) (by decide) (by decide)
    (readValue_renderText depthLimit s rest) rfl

theorem readScalar_nat (expected : String) {n : Nat} (hn : n < 2 ^ 64) {rest : List Char}
    (hrest : EndsNumber rest) :
    readScalar expected (natAs expected) (Nat.toDigits 10 n ++ rest) = .ok (n, rest) := by
  have hread := readValue_renderInt depthLimit (show FitsInt n from ⟨by omega, by omega⟩) hrest
  have hwritten : renderInt n = Nat.toDigits 10 n := by rw [renderInt, if_neg (by omega)]; rfl
  obtain ⟨c, ds, hdigits, hc, -, -⟩ := toDigits_eq_digit_cons n
  have hsome : (digit? c).isSome := by simp [hc]
  rw [hwritten, hdigits] at hread
  rw [hdigits]
  exact readScalar_of_readValue (isSpace_of_digit? hsome) (digit_ne hsome) (digit_ne hsome) hread
    (by simp [natAs])

/-- What does not start like null is read as present. -/
theorem readOption_some {α : Type} {r : Reader α} {c : Char} (hspace : isSpace c = false)
    (hnull : c ≠ 'n') {cs rest : List Char} {x : α} (hread : r (c :: cs) = .ok (x, rest)) :
    readOption r (c :: cs) = .ok (some x, rest) := by
  rw [readOption, skipSpaces_cons hspace]
  split
  · rename_i heq
    cases heq
    exact absurd rfl hnull
  · rw [hread]
    rfl

theorem readOption_optText (expected : String) (text : Option String) (rest : List Char) :
    readOption (readScalar expected decodeText) (compactChars (.optText text) ++ rest) =
      .ok (text, rest) := by
  cases text with
  | none => rfl
  | some s =>
      exact readOption_some (by decide) (by decide) (readScalar_text expected s rest)

theorem readOption_optNat (expected : String) {n : Option Nat} (hn : ∀ k ∈ n, k < 2 ^ 64)
    {rest : List Char} (hrest : EndsNumber rest) :
    readOption (readScalar expected (natAs expected)) (compactChars (.optNat n) ++ rest) =
      .ok (n, rest) := by
  cases n with
  | none => rfl
  | some k =>
      have hread := readScalar_nat expected (hn k rfl) hrest
      have hwritten : compactChars (.optNat (some k)) = Nat.toDigits 10 k := by
        have hint : renderInt k = Nat.toDigits 10 k := by rw [renderInt, if_neg (by omega)]; rfl
        exact hint
      obtain ⟨c, ds, hdigits, hc, -, -⟩ := toDigits_eq_digit_cons k
      have hsome : (digit? c).isSome := by simp [hc]
      rw [hdigits] at hread
      rw [hwritten, hdigits]
      exact readOption_some (isSpace_of_digit? hsome) (digit_ne hsome) hread

/-! ## Records of three fields -/

section Triple

variable {α β γ : Type} {t : Triple α β γ}

/-- The text behind the opening quote of a field's name. -/
def nameAhead (name : String) (body : List Char) : List Char :=
  name.toList.flatMap escapedChar ++ '"' :: ':' :: body

theorem nextField_front (name : String) (rest : List Char) :
    nextField true (renderText name ++ rest) =
      .ok (true, name.toList.flatMap escapedChar ++ '"' :: rest) :=
  nextField_first forall_mem_nil_isSpace name rest

theorem nextField_behind (name : String) (rest : List Char) :
    nextField false (',' :: renderText name ++ rest) =
      .ok (true, name.toList.flatMap escapedChar ++ '"' :: rest) :=
  nextField_comma forall_mem_nil_isSpace name rest

theorem Triple.readFields_first {n : Nat} {first : Bool} {seen : Triple.Seen α β γ}
    {cs body rest : List Char} (hnext : nextField first cs = .ok (true, nameAhead t.first.1 body))
    (hseen : seen.first = none) {x : α} (hread : t.first.2 body = .ok (x, rest)) :
    t.readFields (n + 1) first seen cs =
      t.readFields n false { seen with first := some x } rest := by
  rw [Triple.readFields, hnext]
  simp [bind, Except.bind, nameAhead, readText_render, skipColon_cons, hseen, hread]

theorem Triple.readFields_second {n : Nat} {first : Bool} {seen : Triple.Seen α β γ}
    {cs body rest : List Char} (hnext : nextField first cs = .ok (true, nameAhead t.second.1 body))
    (hname : t.second.1 ≠ t.first.1) (hseen : seen.second = none) {x : Option β}
    (hread : t.second.2 body = .ok (x, rest)) :
    t.readFields (n + 1) first seen cs =
      t.readFields n false { seen with second := some x } rest := by
  rw [Triple.readFields, hnext]
  simp [bind, Except.bind, nameAhead, readText_render, skipColon_cons, hname, hseen, hread]

theorem Triple.readFields_third {n : Nat} {first : Bool} {seen : Triple.Seen α β γ}
    {cs body rest : List Char} (hnext : nextField first cs = .ok (true, nameAhead t.third.1 body))
    (hname : t.third.1 ≠ t.first.1 ∧ t.third.1 ≠ t.second.1) (hseen : seen.third = none)
    {x : Option γ} (hread : t.third.2 body = .ok (x, rest)) :
    t.readFields (n + 1) first seen cs =
      t.readFields n false { seen with third := some x } rest := by
  rw [Triple.readFields, hnext]
  simp [bind, Except.bind, nameAhead, readText_render, skipColon_cons, hname, hseen, hread]

theorem Triple.readFields_end (n : Nat) (first : Bool) (seen : Triple.Seen α β γ)
    (rest : List Char) : t.readFields (n + 1) first seen ('\x7d' :: rest) = .ok (seen, rest) := rfl

/-- A record whose three fields are written in their order is read back. -/
theorem Triple.read_fields (hnames : t.second.1 ≠ t.first.1 ∧ t.third.1 ≠ t.first.1 ∧
      t.third.1 ≠ t.second.1)
    {ja jb jc : Json} {a : α} {b : Option β} {c : Option γ}
    (ha : ∀ rest, EndsNumber rest → t.first.2 (compactChars ja ++ rest) = .ok (a, rest))
    (hb : ∀ rest, EndsNumber rest → t.second.2 (compactChars jb ++ rest) = .ok (b, rest))
    (hc : ∀ rest, EndsNumber rest → t.third.2 (compactChars jc ++ rest) = .ok (c, rest))
    (rest : List Char) :
    t.read (compactChars (.object [(t.first.1, ja), (t.second.1, jb), (t.third.1, jc)]) ++ rest) =
      .ok ((a, b, c), rest) := by
  have hwritten : compactChars (.object [(t.first.1, ja), (t.second.1, jb), (t.third.1, jc)]) ++
      rest = '\x7b' :: (renderText t.first.1 ++ ':' :: (compactChars ja ++
        (',' :: renderText t.second.1 ++ ':' :: (compactChars jb ++
          (',' :: renderText t.third.1 ++ ':' :: (compactChars jc ++ '\x7d' :: rest)))))) := by
    simp [compactChars, compactFields]
  generalize hbody : renderText t.first.1 ++ ':' :: (compactChars ja ++
    (',' :: renderText t.second.1 ++ ':' :: (compactChars jb ++
      (',' :: renderText t.third.1 ++ ':' :: (compactChars jc ++ '\x7d' :: rest))))) = body
    at hwritten
  -- three fields and the brace behind them take four steps
  obtain ⟨k, hk⟩ : ∃ k, body.length + 1 = k + 4 := by
    refine ⟨_, (Nat.sub_add_cancel ?_).symm⟩
    rw [← hbody]
    simp only [List.length_append, List.length_cons]
    omega
  rw [Triple.read, hwritten, skipSpaces_cons rfl]
  simp only [hk]
  rw [← hbody,
    Triple.readFields_first (nextField_front _ _) rfl
      (ha (',' :: renderText t.second.1 ++ _) (endsNumber_comma _)),
    Triple.readFields_second (nextField_behind _ _) hnames.1 rfl
      (hb (',' :: renderText t.third.1 ++ _) (endsNumber_comma _)),
    Triple.readFields_third (nextField_behind _ _) hnames.2 rfl (hc _ (endsNumber_brace rest)),
    Triple.readFields_end]
  rfl

end Triple

/-! ## Lists -/

/-- A list is read back if each of its items is. -/
theorem parseWith_readList {α : Type} {r : Reader α} {write : α → Json} {items : List α}
    (hread : ∀ x ∈ items, ∀ rest, EndsNumber rest →
      r (compactChars (write x) ++ rest) = .ok (x, rest)) :
    parseWith (readList r) (compact (.list (items.map write))) = .ok items := by
  have hwritten : compactChars (.list (items.map write)) =
      '[' :: (joined (items.map fun x => [] ++ compactChars (write x)) ++ ([] ++ [']'])) := by
    simp [compactChars, compactItems_eq_joined, Function.comp_def]
  have hfuel : items.length <
      (joined (items.map fun x => [] ++ compactChars (write x)) ++ ([] ++ [']'])).length + 1 := by
    have hlength := length_le_joined (items.map fun x => [] ++ compactChars (write x))
    rw [List.length_map] at hlength
    rw [List.length_append, List.nil_append, List.length_singleton]
    omega
  have hitems := readItems_joined forall_mem_nil_isSpace forall_mem_nil_isSpace hread
    (fun x _ => startsValue_compactChars (write x)) hfuel []
  rw [parseWith, readWhole, compact, String.toList_ofList, hwritten, readList,
    skipSpaces_cons rfl]
  simp only [hitems, List.map_id']
  rfl

end FossilRecord.Json

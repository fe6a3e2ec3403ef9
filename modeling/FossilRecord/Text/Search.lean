/-!
# Finding one text in another
-/

namespace FossilRecord.Text

/-- Whether `part` occurs in a text as consecutive characters. -/
def occursIn (part : List Char) : List Char → Bool
  | [] => part.isEmpty
  | c :: rest => part.isPrefixOf (c :: rest) || occursIn part rest

/-- Whether `part` occurs in `s` as consecutive characters. -/
def contains (s part : String) : Bool :=
  occursIn part.toList s.toList

theorem occursIn_iff (part cs : List Char) :
    occursIn part cs = true ↔ ∃ before after, cs = before ++ part ++ after := by
  induction cs with
  | nil =>
      constructor
      · intro h
        exact ⟨[], [], by simpa [occursIn] using h⟩
      · rintro ⟨before, after, h⟩
        have : part = [] := by
          simp at h
          exact h.2.1
        simp [occursIn, this]
  | cons c rest ih =>
      simp only [occursIn, Bool.or_eq_true, ih, List.isPrefixOf_iff_prefix]
      constructor
      · rintro (⟨after, h⟩ | ⟨before, after, h⟩)
        · exact ⟨[], after, by simpa using h.symm⟩
        · exact ⟨c :: before, after, by simp [h]⟩
      · rintro ⟨before, after, h⟩
        cases before with
        | nil => exact Or.inl ⟨after, by simpa using h.symm⟩
        | cons b before =>
            refine Or.inr ⟨before, after, ?_⟩
            simp at h
            simpa using h.2

/-- The pieces of a text between the occurrences of one character; `piece` is the piece being read,
backwards. -/
def splitFrom (at_ : Char) (piece : List Char) : List Char → List (List Char)
  | [] => [piece.reverse]
  | c :: rest =>
      if c == at_ then piece.reverse :: splitFrom at_ [] rest else splitFrom at_ (c :: piece) rest

/-- The pieces of a text between the occurrences of one character. -/
def splitAt (at_ : Char) (cs : List Char) : List (List Char) :=
  splitFrom at_ [] cs

/-- At most the first `budget` characters of a text. -/
def truncate (s : String) (budget : Nat) : String :=
  String.ofList (s.toList.take budget)

end FossilRecord.Text

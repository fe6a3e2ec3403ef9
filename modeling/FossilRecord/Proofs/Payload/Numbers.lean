import FossilRecord.Proofs.Json.Whole
import FossilRecord.Proofs.Payload.Edges
import Mathlib.Data.Nat.Cast.Field

/-!
# Numbers of lines

The number of a line fits 64 bits with a sign, and a count of lines 64 bits without one.  A number
that is given for either is kept exactly if it fits, and is dropped otherwise (`KeepsExactly`), with
two exceptions: a JSON number beyond what 64 bits with a sign hold is brought into that range, and a
count written as a text is dropped already there.  `parse_numbers` says that these are the only ones.
-/

namespace FossilRecord

/-! ## Values -/

namespace Decimal.Binary64

variable {x : Binary64}

/-- The value of a number. -/
def value (x : Binary64) : ℚ :=
  if x.isNegative then -x.magnitude else x.magnitude

/-- A number without a fraction is the whole number that is left of it. -/
theorem value_of_isWhole (h : x.isWhole = true) : x.value = x.truncated := by
  have hdvd : x.ratio.2 ∣ x.ratio.1 := Nat.dvd_of_mod_eq_zero (eq_of_beq h)
  have hpos : (x.ratio.2 : ℚ) ≠ 0 := by exact_mod_cast (ratio_den_pos x).ne'
  have hmagnitude : x.magnitude = ((x.ratio.1 / x.ratio.2 : ℕ) : ℚ) := by
    rw [← ratio_eq_magnitude, Nat.cast_div hdvd hpos]
  unfold value truncated
  rw [hmagnitude]
  split <;> push_cast <;> rfl

theorem isWhole_of_magnitude {m : Int} (h : x.magnitude = m) : x.isWhole = true := by
  have hpos : (x.ratio.2 : ℚ) ≠ 0 := by exact_mod_cast (ratio_den_pos x).ne'
  rw [← ratio_eq_magnitude, div_eq_iff hpos] at h
  have hmul : (x.ratio.1 : ℤ) = m * x.ratio.2 := by exact_mod_cast h
  have hdvd : x.ratio.2 ∣ x.ratio.1 := Int.natCast_dvd_natCast.mp ⟨m, by rw [hmul, mul_comm]⟩
  exact beq_iff_eq.mpr (Nat.mod_eq_zero_of_dvd hdvd)

theorem isWhole_of_value {m : Int} (h : x.value = m) : x.isWhole = true := by
  unfold value at h
  split at h
  · apply isWhole_of_magnitude (m := -m)
    rw [← neg_neg x.magnitude, h, Int.cast_neg]
  · exact isWhole_of_magnitude h

end Decimal.Binary64

/-- The value of a number. -/
def Json.Number.value : Json.Number → ℚ
  | .whole n => n
  | .real x => x.value

namespace Payload

/-! ## What is given and what is kept -/

/-- Whether characters write a whole number in decimal digits, with a sign or without one. -/
inductive IsDecimal : List Char → Int → Prop
  | plain {digits : List Char} (hne : digits ≠ []) (hdigits : Json.AllDigits digits) :
      IsDecimal digits (Nat.ofDigitChars 10 digits 0)
  | plus {digits : List Char} (hne : digits ≠ []) (hdigits : Json.AllDigits digits) :
      IsDecimal ('+' :: digits) (Nat.ofDigitChars 10 digits 0)
  | minus {digits : List Char} (hne : digits ≠ []) (hdigits : Json.AllDigits digits) :
      IsDecimal ('-' :: digits) (-Nat.ofDigitChars 10 digits 0)

/-- What is given for a number, and its value: a JSON number, or a text that writes a whole number,
blanks around it aside. -/
inductive Given : Json → ℚ → Prop
  | number (n : Json.Number) : Given (.number n) n.value
  | text {s : String} {m : Int} (h : IsDecimal (Text.trimChars s.toList) m) : Given (.text s) m

/-- Whether a whole number within bounds is kept exactly, and everything else is dropped. -/
structure KeepsExactly (low high : Int) (value : ℚ) (field : Option Int) : Prop where
  kept : ∀ m : Int, value = m → low ≤ m → m ≤ high → field = some m
  dropped : (∀ m : Int, value = m → m < low ∨ high < m) → field = none

/-- The greatest number that 64 bits without a sign hold. -/
def maxUnsigned : Int := 18446744073709551615

/-! ## What is read -/

section

variable {found : Json} {value : ℚ}

/-- What is kept of a JSON number: it is brought into range, if it is a whole one. -/
theorem optInt_number (n : Json.Number) :
    (∃ m : Int, n.value = m ∧ optInt (some (.number n)) = some (clampInt64 m)) ∨
      (∀ m : Int, n.value ≠ m) ∧ optInt (some (.number n)) = none := by
  cases n with
  | whole m => exact .inl ⟨m, rfl, rfl⟩
  | real x =>
      by_cases hwhole : x.isWhole = true
      · exact .inl ⟨x.truncated, Decimal.Binary64.value_of_isWhole hwhole, if_pos hwhole⟩
      · exact .inr ⟨fun m hm => hwhole (Decimal.Binary64.isWhole_of_value hm), if_neg hwhole⟩

theorem ofDigitChars_cons_digit {c : Char} {d : Nat} (hc : Json.digit? c = some d)
    (ds : List Char) (n : Nat) :
    Nat.ofDigitChars 10 (c :: ds) n = Nat.ofDigitChars 10 ds (n * 10 + d) := by
  rw [Json.digit?_of_isDigit (Json.isDigit_of_digit? hc), Option.some.injEq] at hc
  rw [Json.ofDigitChars_cons_eq, hc]

/-- Digits that are taken one after the other make the number that they write. -/
theorem foldl_digits {take : Option Nat → Char → Option Nat}
    (htake : ∀ n c d, Json.digit? c = some d → take (some n) c = some (n * 10 + d))
    {digits : List Char} (hdigits : Json.AllDigits digits) (n : Nat) :
    digits.foldl take (some n) = some (Nat.ofDigitChars 10 digits n) := by
  induction digits generalizing n with
  | nil => rfl
  | cons c ds ih =>
      obtain ⟨hc, hds⟩ := List.forall_mem_cons.mp hdigits
      have hdigit := Json.digit?_of_isDigit hc
      rw [List.foldl_cons, htake n c _ hdigit, ih hds, ofDigitChars_cons_digit hdigit]

theorem digitsValue?_eq {digits : List Char} (hne : digits ≠ []) (hdigits : Json.AllDigits digits) :
    digitsValue? digits = some (Nat.ofDigitChars 10 digits 0) := by
  rw [digitsValue?, if_neg (by simpa using hne)]
  exact foldl_digits (fun n c d hc => by simp only [hc]) hdigits 0

/-- A whole number that is written in decimal is kept if it is in range. -/
theorem intOfChars?_decimal {cs : List Char} {m : Int} (h : IsDecimal cs m) :
    intOfChars? cs = if Json.minInt64 ≤ m ∧ m ≤ Json.maxInt64 then some m else none := by
  cases h with
  | plain hne hdigits =>
      rw [intOfChars?.eq_def]
      -- a digit is no sign
      split
      · exact absurd (hdigits '-' (by simp)) (by decide)
      · exact absurd (hdigits '+' (by simp)) (by decide)
      · rw [digitsValue?_eq hne hdigits]
        rfl
  | plus hne hdigits | minus hne hdigits =>
      simp only [intOfChars?, digitsValue?_eq hne hdigits]
      rfl

/-- What is kept of a number that is given as a text: it is dropped out of range. -/
theorem optInt_text {s : String} (h : Given (.text s) value) :
    ∃ m : Int, value = m ∧ optInt (some (.text s)) =
      if Json.minInt64 ≤ m ∧ m ≤ Json.maxInt64 then some m else none := by
  cases h with
  | text h => exact ⟨_, rfl, intOfChars?_decimal h⟩

/-! ## Where a number is kept exactly -/

theorem keepsExactly_cast_iff {low high m : Int} {field : Option Int} :
    KeepsExactly low high m field ↔ field = if low ≤ m ∧ m ≤ high then some m else none := by
  constructor
  · intro h
    split
    · rename_i hfits
      exact h.kept m rfl hfits.1 hfits.2
    · rename_i hfits
      refine h.dropped fun k hk => ?_
      rw [← Int.cast_injective hk]
      omega
  · rintro rfl
    refine ⟨fun k hk hlow hhigh => ?_, fun hout => if_neg ?_⟩
    · rw [← Int.cast_injective hk] at hlow hhigh ⊢
      exact if_pos ⟨hlow, hhigh⟩
    · have hm := hout m rfl
      omega

/-- What is no whole number is to be dropped. -/
theorem keepsExactly_none {low high : Int} (h : ∀ m : Int, value ≠ m) :
    KeepsExactly low high value none :=
  ⟨fun m hm => absurd hm (h m), fun _ => rfl⟩

theorem forall_cast_iff {m : Int} {good : Int → Prop} :
    (∀ k : Int, (m : ℚ) = k → good k) ↔ good m := by
  simp only [Int.cast_inj, forall_eq']

theorem clampInt64_eq_iff {m : Int} :
    clampInt64 m = m ↔ Json.minInt64 ≤ m ∧ m ≤ Json.maxInt64 := by
  have hbounds : Json.minInt64 ≤ Json.maxInt64 := by decide
  unfold clampInt64
  split_ifs <;> omega

/-- A line is kept or dropped as it should be, unless it is a JSON number out of range. -/
theorem keepsExactly_line (h : Given found value) :
    KeepsExactly Json.minInt64 Json.maxInt64 value (optInt (some found)) ↔
      ∀ n, found = .number n → ∀ m : Int, value = m → Json.minInt64 ≤ m ∧ m ≤ Json.maxInt64 := by
  cases found with
  | number n =>
      cases h
      rcases optInt_number n with ⟨m, hm, hread⟩ | ⟨hnone, hread⟩
      · simp only [Json.number.injEq, forall_eq', hm, hread, keepsExactly_cast_iff, forall_cast_iff]
        split_ifs with hrange
        · exact iff_of_true (congrArg some (clampInt64_eq_iff.mpr hrange)) hrange
        · exact iff_of_false (by simp) hrange
      · rw [hread]
        exact iff_of_true (keepsExactly_none hnone) fun _ _ m hm => absurd hm (hnone m)
  | text s =>
      obtain ⟨m, rfl, hread⟩ := optInt_text h
      exact iff_of_true (keepsExactly_cast_iff.mpr hread) nofun
  | null | bool | list | object => cases h

/-- The count of lines that is kept of a whole number. -/
def countOf (read : Option Int) : Option Nat :=
  read.bind fun n => if 0 ≤ n then some n.toNat else none

theorem countOf_cast (read : Option Int) :
    (countOf read).map (fun n => (n : Int)) = read.filter (0 ≤ ·) := by
  cases read with
  | none => rfl
  | some n =>
      by_cases hn : 0 ≤ n
      · simp [countOf, hn, Option.filter_some]
      · simp [countOf, hn, Option.filter_some]

/-- A count is kept or dropped as it should be, unless it is beyond what 64 bits with a sign hold; a
text so far beyond that it is to be dropped is dropped. -/
theorem keepsExactly_count (h : Given found value) :
    KeepsExactly 0 maxUnsigned value ((countOf (optInt (some found))).map fun n => (n : Int)) ↔
      ∀ m : Int, value = m →
        m ≤ Json.maxInt64 ∨ (∃ s, found = .text s) ∧ maxUnsigned < m := by
  have hmin : Json.minInt64 = -9223372036854775808 := rfl
  have hmax : Json.maxInt64 = 9223372036854775807 := rfl
  have hmaxu : maxUnsigned = 18446744073709551615 := rfl
  rw [countOf_cast]
  cases found with
  | number n =>
      cases h
      rcases optInt_number n with ⟨m, hm, hread⟩ | ⟨hnone, hread⟩
      · simp only [hm, hread, keepsExactly_cast_iff, forall_cast_iff, clampInt64, Option.filter_some,
          decide_eq_true_eq, reduceCtorEq, exists_false, false_and, or_false]
        split_ifs <;> simp only [Option.some.injEq, true_iff, false_iff] <;> omega
      · rw [hread]
        exact iff_of_true (keepsExactly_none hnone) fun m hm => absurd hm (hnone m)
  | text s =>
      obtain ⟨m, rfl, hread⟩ := optInt_text h
      simp only [hread, keepsExactly_cast_iff, forall_cast_iff, Json.text.injEq, exists_eq', true_and]
      by_cases hrange : Json.minInt64 ≤ m ∧ m ≤ Json.maxInt64
      · simp only [if_pos hrange, Option.filter_some, decide_eq_true_eq]
        split_ifs <;> simp only [true_iff, false_iff] <;> omega
      · simp only [if_neg hrange, Option.filter_none]
        split_ifs <;> simp only [true_iff, false_iff] <;> omega
  | null | bool | list | object => cases h

end

/-! ## Numbers in a payload -/

/-- Whether the line of a symbol is kept exactly or dropped, with one exception: a JSON number out
of range. -/
def KeepsLine (entry : Json) (p : PayloadSymbol) : Prop :=
  ∃ fields, entry = .object fields ∧ ∀ found value,
    either fields "line_number" "line" = some found → Given found value →
      (KeepsExactly Json.minInt64 Json.maxInt64 value p.lineNumber ↔
        ∀ n, found = .number n → ∀ m : Int, value = m → Json.minInt64 ≤ m ∧ m ≤ Json.maxInt64)

/-- Whether the count of lines of a file is kept exactly or dropped, with one exception: a number
beyond what 64 bits with a sign hold, other than a text that is to be dropped. -/
def KeepsCount (entry : Json) (e : FileTreeEntry) : Prop :=
  ∀ fields, entry = .object fields → ∀ found value,
    either fields "line_count" "lines" = some found → Given found value →
      (KeepsExactly 0 maxUnsigned value (e.lineCount.map fun n => (n : Int)) ↔
        ∀ m : Int, value = m → m ≤ Json.maxInt64 ∨ (∃ s, found = .text s) ∧ maxUnsigned < m)

theorem lineNumber_of_symbol {index : Nat} {fields : List (String × Json)} {p : PayloadSymbol}
    (h : symbol index (.object fields) = .ok (some p)) :
    p.lineNumber = optInt (either fields "line_number" "line") := by
  rw [symbol] at h
  split at h
  · cases h
  · obtain ⟨relationships, -, h⟩ := bind_eq_ok h
    cases h
    rfl

theorem lineCount_of_fileEntry {fields : List (String × Json)} {e : FileTreeEntry}
    (h : fileEntry (.object fields) = .ok e) :
    e.lineCount = countOf (optInt (either fields "line_count" "lines")) := by
  cases h
  rfl

theorem keepsLine_of_symbol {index : Nat} {entry : Json} {p : PayloadSymbol}
    (h : symbol index entry = .ok (some p)) : KeepsLine entry p := by
  cases entry with
  | object fields =>
      refine ⟨fields, rfl, fun found value hfound hgiven => ?_⟩
      rw [lineNumber_of_symbol h, hfound]
      exact keepsExactly_line hgiven
  | null | bool | number | text | list => cases h

theorem keepsCount_of_fileEntry {entry : Json} {e : FileTreeEntry} (h : fileEntry entry = .ok e) :
    KeepsCount entry e := by
  rintro fields rfl found value hfound hgiven
  rw [lineCount_of_fileEntry h, hfound]
  exact keepsExactly_count hgiven

/-- The numbers of lines in a payload are kept exactly or dropped, as they fit or not, except where a
JSON number is brought into the range of 64 bits with a sign, and where a count is dropped that is
written as a text and would fit without a sign.  What is read as a whole number is the number that is
written, and every one that fits 64 bits is read so. -/
theorem parse_numbers (raw : String) (q : Payload) (hparse : parse raw = .ok q) :
    (∃ root, Json.parse (Fence.strip raw) = .ok (.object root) ∧
      List.Forall₂ KeepsLine (namedEntries root) q.symbols ∧
      List.Forall₂ KeepsCount (entriesOf root "file_tree") q.fileTree) ∧
    ∀ depth cs rest m, Json.readValue depth cs = .ok (.int m, rest) ↔
      Json.FitsInt m ∧ Json.EndsNumber rest ∧ Json.skipSpaces cs = Json.renderInt m ++ rest := by
  refine ⟨?_, fun depth cs rest m => Json.readValue_whole_iff⟩
  obtain ⟨root, hroot, hread⟩ := readFrom_of_parse hparse
  obtain ⟨symbolItems, hsymbolItems, hsymbols⟩ := hread.symbols
  obtain ⟨fileItems, hfileItems, hfileTree⟩ := hread.fileTree
  refine ⟨root, hroot, ?_, ?_⟩
  · rw [namedEntries, entriesOf_eq hsymbolItems]
    exact forall₂_symbolEntries (fun _ _ _ _ => keepsLine_of_symbol) hsymbols
  · rw [entriesOf_eq hfileItems]
    exact forall₂_of_mapM_mem hfileTree fun _ _ _ => keepsCount_of_fileEntry

/-! ## Lines out of range -/

/-- The object with one symbol, and a line of it. -/
def withLine (line : Json) : Json :=
  .object [("symbols", .list [.object [("line", line), ("name", .text "f")]])]

/-- A payload that writes one symbol with a line gives that symbol. -/
theorem parse_withLine (raw : String) (line : Json) (hfits : Json.Fits 125 line)
    (hwritten : Fence.strip raw = (withLine line).compact) :
    parse raw = .ok ⟨"", "", "", "", [], [],
      [⟨"", optInt (some line.readBack), .function, "f", none, none, none⟩]⟩ := by
  have hsorted : List.Pairwise (· < ·) ["line", "name"] := by decide +kernel
  have hentry : Json.Fits 126 (.object [("line", line), ("name", .text "f")]) :=
    .object hsorted
      (List.forall_mem_cons.mpr ⟨hfits, by simpa using .text _ "f"⟩)
  have hroot : Json.Fits Json.depthLimit (withLine line) :=
    .object (by simp [Json.Ascending]) (by simpa using .list (by simpa using hentry))
  rw [parse, hwritten, Json.parse_compact hroot]
  rfl

/-- A line is given as a text with a sign and blanks. -/
theorem parse_numbers_text :
    let raw := "\x7b\"symbols\":[\x7b\"line\":\" +07\",\"name\":\"f\"\x7d]\x7d"
    let q : Payload := ⟨"", "", "", "", [], [], [⟨"", some 7, .function, "f", none, none, none⟩]⟩
    parse raw = .ok q ∧ ∃ root, Json.parse (Fence.strip raw) = .ok (.object root) ∧
      List.Forall₂ KeepsLine (namedEntries root) q.symbols ∧
      List.Forall₂ KeepsCount (entriesOf root "file_tree") q.fileTree := by
  intro raw q
  have hparse : parse raw = .ok q :=
    parse_withLine raw (.text " +07") (.text _ _) (by decide +kernel)
  exact ⟨hparse, (parse_numbers raw q hparse).1⟩

/-- A line beyond what 64 bits with a sign hold becomes the greatest number that they do hold, and is
not dropped. -/
theorem line_out_of_range :
    parse "\x7b\"symbols\":[\x7b\"line\":9223372036854775808,\"name\":\"f\"\x7d]\x7d" =
      .ok ⟨"", "", "", "", [], [],
        [⟨"", some 9223372036854775807, .function, "f", none, none, none⟩]⟩ ∧
    ¬KeepsExactly Json.minInt64 Json.maxInt64 9223372036854775808 (some 9223372036854775807) := by
  refine ⟨parse_withLine _ (.int 9223372036854775808) (.whole _ (by decide))
    (by decide +kernel), fun h => ?_⟩
  have hdropped := h.dropped fun m hm => .inr ?_
  · cases hdropped
  · have hm : m = 9223372036854775808 := by exact_mod_cast hm.symm
    rw [hm]
    decide

end Payload

end FossilRecord

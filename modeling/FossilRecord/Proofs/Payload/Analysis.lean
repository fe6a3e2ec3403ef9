import FossilRecord.Proofs.Json.Fields
import FossilRecord.Proofs.Payload.Fence

/-!
# What is kept of an analysis

An analysis gives one insight for each object of its list.  If there is no list in it, one insight
keeps its text, and the lines of a fence are all that may be missing from that (`Fence.Keeps`).

Whatever stands behind an opening mark is dropped with its line, though, also where the line is none
that opens a fence: because there are marks in it again, or several words.  `ofAnalysis_kept` says
that nothing else is lost, and that something is lost in each such case.
-/

namespace FossilRecord

/-! ## Characters that are no blanks -/

namespace Text

/-- How many characters of a text are no blanks. -/
def inked (cs : List Char) : Nat :=
  cs.countP fun c => !isBlank c

@[simp] theorem inked_append (front back : List Char) :
    inked (front ++ back) = inked front + inked back :=
  List.countP_append

theorem inked_eq_zero {cs : List Char} : inked cs = 0 ↔ ∀ c ∈ cs, isBlank c = true := by
  simp [inked, List.countP_eq_zero]

theorem inked_dropBlanks (cs : List Char) : inked (dropBlanks cs) = inked cs := by
  have hfront : inked (cs.takeWhile isBlank) = 0 :=
    inked_eq_zero.mpr fun c hc => List.mem_takeWhile_imp hc
  conv_rhs => rw [← List.takeWhile_append_dropWhile (p := isBlank) (l := cs)]
  rw [inked_append, hfront, Nat.zero_add, dropBlanks]

theorem inked_dropBlanksEnd (cs : List Char) : inked (dropBlanksEnd cs) = inked cs := by
  have hreverse := inked_dropBlanks cs.reverse
  rwa [inked, inked, List.countP_reverse, ← List.countP_reverse] at hreverse

/-- Trimming takes blanks only. -/
theorem inked_trimChars (cs : List Char) : inked (trimChars cs) = inked cs := by
  rw [trimChars, inked_dropBlanksEnd, inked_dropBlanks]

/-- Of blanks nothing is left. -/
theorem trimChars_eq_nil {cs : List Char} (h : inked cs = 0) : trimChars cs = [] := by
  have hblanks := trimChars_append_blanks (inked_eq_zero.mp h) (List.forall_mem_nil _) []
  rwa [List.append_nil, List.append_nil] at hblanks

end Text

namespace Fence

/-! ## Lines of a fence -/

/-- Whether a line opens a fence: there is a mark, and behind it one word at most, without marks. -/
def OpensFence (line : List Char) : Prop :=
  '\n' ∉ line ∧ ∃ info, line = mark ++ info ∧
    ∀ c ∈ Text.trimChars info, Text.isBlank c = false ∧ c ≠ '`'

/-- The first line of a text. -/
def firstLine (text : List Char) : List Char :=
  text.takeWhile (· ≠ '\n')

/-- Whether a text is kept up to the blanks around it and the lines of a fence, a first one that
opens it and a last one that is a mark. -/
def Keeps (raw content : List Char) : Prop :=
  ∃ opening inner closing, Text.trimChars raw = opening ++ inner ++ closing ∧
    (opening = [] ∨ ∃ line, OpensFence line ∧
      (opening = line ++ ['\n'] ∨ opening = line ∧ inner = [] ∧ closing = [])) ∧
    (closing = [] ∨ closing = mark ∧ (inner = [] ∨ inner.getLast? = some '\n')) ∧
    content = Text.trimChars inner

section

variable {raw line body inner : List Char}

/-- A text is its first line, with the end of that line and more lines behind it or without. -/
theorem firstLine_cases (text : List Char) :
    '\n' ∉ firstLine text ∧
      (text = firstLine text ∨ ∃ body, text = firstLine text ++ '\n' :: body) := by
  have hsplit : firstLine text ++ text.dropWhile (· ≠ '\n') = text :=
    List.takeWhile_append_dropWhile
  refine ⟨fun hmem => ?_, ?_⟩
  · simpa using List.mem_takeWhile_imp hmem
  · cases hrest : text.dropWhile (· ≠ '\n') with
    | nil =>
        rw [hrest, List.append_nil] at hsplit
        exact .inl hsplit.symm
    | cons c body =>
        have hhead := List.head?_dropWhile_not (fun c => decide (c ≠ '\n')) text
        rw [hrest] at hhead hsplit
        obtain rfl : c = '\n' := by simpa using hhead
        exact .inr ⟨body, hsplit.symm⟩

theorem firstLine_append (hline : '\n' ∉ line) (body : List Char) :
    firstLine (line ++ '\n' :: body) = line := by
  rw [firstLine, List.takeWhile_append_of_pos (ne_newline_of_notMem hline),
    List.takeWhile_cons_of_neg (by simp), List.append_nil]

theorem firstLine_of_notMem (hline : '\n' ∉ line) : firstLine line = line :=
  List.takeWhile_eq_self_iff.mpr (ne_newline_of_notMem hline)

/-- The first line of a text that starts with a mark starts with it. -/
theorem exists_info {text : List Char} (h : mark <+: text) :
    ∃ info, firstLine text = mark ++ info := by
  obtain ⟨rest, rfl⟩ := h
  have hmark : '\n' ∉ mark := by decide
  exact ⟨firstLine rest, List.takeWhile_append_of_pos (ne_newline_of_notMem hmark)⟩

theorem eq_append_of_beforeMark? (h : beforeMark? body = some inner) :
    body = inner ++ mark ∧ (inner = [] ∨ inner.getLast? = some '\n') := by
  unfold beforeMark? at h
  split at h
  · rename_i hsuffix
    simp only at h
    split at h
    · rename_i halone
      cases h
      obtain ⟨front, rfl⟩ := List.isSuffixOf_iff_suffix.mp hsuffix
      have hfront : (front ++ mark).take ((front ++ mark).length - 3) = front :=
        List.take_left' (by simp [mark])
      rw [hfront] at halone ⊢
      exact ⟨rfl, by simpa using halone⟩
    · cases h
  · cases h

/-- Of a mark and words on its line nothing is left. -/
theorem stripChars_of_line {info : List Char} (htext : Text.trimChars raw = mark ++ info)
    (hinfo : '\n' ∉ info) : stripChars raw = [] := by
  have hbody : [] = Text.dropBlanksEnd (afterLine ((Text.trimChars raw).drop 3)) := by
    rw [htext, List.drop_left' (by rfl), afterLine_of_notMem hinfo]
    rfl
  rw [stripChars_of_opens (by rw [htext]; rfl) hbody]
  rfl

/-- Behind a line that starts with a mark there is left what stands before a closing mark. -/
theorem stripChars_of_lines {info body : List Char}
    (htext : Text.trimChars raw = mark ++ (info ++ '\n' :: body)) (hinfo : '\n' ∉ info) :
    stripChars raw = Text.trimChars ((beforeMark? body).getD body) := by
  -- the text is trimmed, so what stands behind the line is so at its end
  have htrimmed : Text.dropBlanksEnd body = body := by
    apply Text.dropBlanksEnd_eq_self
    intro c hc
    have hlast : c ∈ (Text.trimChars raw).getLast? := by
      rw [htext]
      cases body with
      | nil => cases hc
      | cons d body => simpa using hc
    exact Text.isBlank_getLast_dropBlanksEnd hlast
  apply stripChars_of_opens
  · rw [htext]
    rfl
  · rw [htext, List.drop_left' (by rfl), afterLine_append hinfo, htrimmed]

/-- What is left of a text that starts with a mark has no more characters than what stands behind
its first line. -/
theorem inked_stripChars_le (hopens : mark <+: Text.trimChars raw) :
    Text.inked (firstLine (Text.trimChars raw)) + Text.inked (stripChars raw) ≤
      Text.inked (Text.trimChars raw) := by
  obtain ⟨info, hinfo⟩ := exists_info hopens
  obtain ⟨hline, htext | ⟨body, htext⟩⟩ := firstLine_cases (Text.trimChars raw)
  all_goals
    have hwords : '\n' ∉ info := by
      rw [hinfo, List.mem_append, not_or] at hline
      exact hline.2
  · rw [stripChars_of_line (htext.trans hinfo) hwords, ← htext]
    exact le_refl _
  · have hpart : ((beforeMark? body).getD body).Sublist body := by
      cases hmark : beforeMark? body with
      | none => exact List.Sublist.refl body
      | some inner => exact (isInfix_of_beforeMark? hmark).sublist
    rw [stripChars_of_lines (htext.trans (by rw [hinfo, List.append_assoc])) hwords,
      Text.inked_trimChars]
    calc Text.inked (firstLine (Text.trimChars raw)) + Text.inked ((beforeMark? body).getD body)
        ≤ Text.inked (firstLine (Text.trimChars raw)) + Text.inked ('\n' :: body) :=
          Nat.add_le_add_left (hpart.cons '\n').countP_le _
      _ = Text.inked (Text.trimChars raw) := by
          rw [← Text.inked_append, ← htext]

/-- If a text that starts with a mark is kept, then its first line opens a fence. -/
theorem opensFence_of_keeps (hopens : mark <+: Text.trimChars raw)
    (hkeeps : Keeps raw (stripChars raw)) : OpensFence (firstLine (Text.trimChars raw)) := by
  obtain ⟨opening, inner, closing, htext, hopening, hclosing, hcontent⟩ := hkeeps
  rcases hopening with rfl | ⟨line, hline, rfl | ⟨rfl, rfl, rfl⟩⟩
  · -- nothing is missing at the front, so there is nothing to miss in the first line but its mark
    obtain ⟨hnewline, -⟩ := firstLine_cases (Text.trimChars raw)
    obtain ⟨info, hinfo⟩ := exists_info hopens
    refine ⟨hnewline, info, hinfo, ?_⟩
    have hle := inked_stripChars_le hopens
    have hclosed : Text.inked closing ≤ 3 := by
      rcases hclosing with rfl | ⟨rfl, -⟩ <;> decide
    have hmark : Text.inked mark = 3 := by decide
    rw [hinfo, hcontent, Text.inked_trimChars, htext] at hle
    simp only [Text.inked_append, hmark, List.nil_append] at hle
    have hblank : Text.trimChars info = [] := Text.trimChars_eq_nil (by omega)
    rw [hblank]
    exact List.forall_mem_nil _
  · rw [htext, List.append_assoc, List.append_assoc, List.singleton_append,
      firstLine_append hline.1]
    exact hline
  · rw [htext, List.append_nil, List.append_nil, firstLine_of_notMem hline.1]
    exact hline

/-- If the first line of a text opens a fence, then the text is kept. -/
theorem keeps_of_opensFence (hline : OpensFence (firstLine (Text.trimChars raw))) :
    Keeps raw (stripChars raw) := by
  obtain ⟨hnewline, info, hinfo, -⟩ := id hline
  have hwords : '\n' ∉ info := by
    rw [hinfo, List.mem_append, not_or] at hnewline
    exact hnewline.2
  obtain ⟨-, htext | ⟨body, htext⟩⟩ := firstLine_cases (Text.trimChars raw)
  · refine ⟨_, [], [], ?_, .inr ⟨_, hline, .inr ⟨rfl, rfl, rfl⟩⟩, .inl rfl, ?_⟩
    · rwa [List.append_nil, List.append_nil]
    · exact stripChars_of_line (htext.trans hinfo) hwords
  · have hleft := stripChars_of_lines
      (htext.trans (by rw [hinfo, List.append_assoc])) hwords
    cases hmark : beforeMark? body with
    | none =>
        refine ⟨_, body, [], ?_, .inr ⟨_, hline, .inl rfl⟩, .inl rfl, ?_⟩
        · rwa [List.append_nil, List.append_assoc]
        · rw [hleft, hmark, Option.getD_none]
    | some inner =>
        obtain ⟨rfl, halone⟩ := eq_append_of_beforeMark? hmark
        refine ⟨_, inner, mark, ?_, .inr ⟨_, hline, .inl rfl⟩, .inr ⟨rfl, halone⟩, ?_⟩
        · rwa [List.append_assoc, List.append_assoc]
        · rw [hleft, hmark, Option.getD_some]

end

/-- A text is kept exactly if its first line opens a fence wherever it starts with a mark. -/
theorem keeps_stripChars_iff (raw : List Char) : Keeps raw (stripChars raw) ↔
    (mark <+: Text.trimChars raw → OpensFence (firstLine (Text.trimChars raw))) := by
  refine ⟨fun hkeeps hopens => opensFence_of_keeps hopens hkeeps, fun hline => ?_⟩
  by_cases hopens : mark <+: Text.trimChars raw
  · exact keeps_of_opensFence (hline hopens)
  · have hplain : stripChars raw = Text.trimChars raw :=
      if_neg fun hprefix => hopens (List.isPrefixOf_iff_prefix.mp hprefix)
    refine ⟨[], Text.trimChars raw, [], ?_, .inl rfl, .inl rfl, ?_⟩
    · rw [List.append_nil, List.nil_append]
    · rw [hplain, Text.trimChars_idem]

end Fence

/-! ## Insights -/

namespace NewInsight

/-- Whether an insight holds the content of an item of an analysis: the text that is its content, or
else all of the item. -/
def HoldsItem (item : Json) (i : NewInsight) : Prop :=
  ∃ fields, item = .object fields ∧
    match Json.lookup "content" fields with
    | some (.text s) => i.content = s
    | _ => item.isWhole = true → Json.parse i.content = .ok item

/-- Whether an item of an analysis is an object. -/
def isObject : Json → Bool
  | .object _ => true
  | _ => false

section

variable {projectId : Option Uuid} {model : Option String}

/-- An object gives an insight that holds its content. -/
theorem holdsItem {fields : List (String × Json)}
    (hfits : Json.Fits Json.depthLimit (.object fields)) :
    ∃ i, ofItem projectId model (.object fields) = some i ∧ HoldsItem (.object fields) i := by
  refine ⟨_, rfl, fields, rfl, ?_⟩
  have hparse : (Json.object fields).isWhole = true →
      Json.parse (Json.object fields).compact = .ok (.object fields) := by
    intro hwhole
    have hparse := Json.parse_compact hfits
    rwa [Json.readBack_of_isWhole _ hwhole] at hparse
  cases Json.lookup "content" fields with
  | none => exact hparse
  | some j =>
      cases j with
      | text s => rfl
      | null | bool | number | list | object => exact hparse

/-- The items of an analysis give insights one for one, what is no object apart. -/
theorem holdsItems {items : List Json} (hfits : ∀ j ∈ items, Json.Fits Json.depthLimit j) :
    List.Forall₂ HoldsItem (items.filter isObject) (items.filterMap (ofItem projectId model)) := by
  induction items with
  | nil => exact .nil
  | cons j items ih =>
      obtain ⟨hj, hrest⟩ := List.forall_mem_cons.mp hfits
      cases j with
      | object fields =>
          obtain ⟨i, hi, hholds⟩ := holdsItem hj
          rw [List.filter_cons_of_pos rfl, List.filterMap_cons_some hi]
          exact .cons hholds (ih hrest)
      | null | bool | number | text | list =>
          rw [List.filter_cons_of_neg (by simp [isObject]), List.filterMap_cons_none rfl]
          exact ih hrest

end

/-- The list of an analysis gives one insight for each object in it, which holds the content of that
object.  Any other text gives one insight; it keeps the text up to the lines of a fence, except where
a mark starts a line that opens none, and there the words of that line are lost. -/
theorem ofAnalysis_kept (raw : String) (projectId : Option Uuid) (project model : Option String) :
    (∀ items, Json.parse (Fence.strip raw) = .ok (.list items) →
      List.Forall₂ HoldsItem (items.filter isObject) (ofAnalysis raw projectId project model)) ∧
    ((∀ items, Json.parse (Fence.strip raw) ≠ .ok (.list items)) →
      ∃ i, ofAnalysis raw projectId project model = [i] ∧ i.insightType = Insight.pattern ∧
        (Fence.Keeps raw.toList i.content.toList ↔
          (Fence.mark <+: Text.trimChars raw.toList →
            Fence.OpensFence (Fence.firstLine (Text.trimChars raw.toList))))) := by
  refine ⟨fun items hparse => ?_, fun hnone => ?_⟩
  · have hinsights : ofAnalysis raw projectId project model =
        items.filterMap (ofItem projectId model) := by
      simp only [ofAnalysis, hparse]
    rw [hinsights]
    exact holdsItems fun j hj => (Json.fits_of_parse hparse).item hj
  · have hinsights : ofAnalysis raw projectId project model =
        [⟨projectId, none, Insight.pattern, Fence.strip raw, model, project.toList⟩] := by
      unfold ofAnalysis
      dsimp only
      split
      · rename_i items hparse
        exact absurd hparse (hnone items)
      · rfl
    refine ⟨_, hinsights, rfl, ?_⟩
    simp only [Fence.strip, String.toList_ofList]
    exact Fence.keeps_stripChars_iff raw.toList

/-- An analysis with one object among other items, and one that is no list. -/
theorem ofAnalysis_kept_examples :
    List.Forall₂ HoldsItem [.object [("n", .int 1)]]
      (ofAnalysis "```json\n[7,\x7b\"n\":1\x7d]\n```" none none none) ∧
    ∃ i, ofAnalysis "```\n- no list\n```" none none none = [i] ∧
      i.insightType = Insight.pattern ∧ Fence.Keeps "```\n- no list\n```".toList i.content.toList := by
  have hfits : Json.Fits Json.depthLimit (.list [.int 7, .object [("n", .int 1)]]) :=
    .list (List.forall_mem_cons.mpr ⟨.whole _ (by decide), by
      simpa using .object (by simp [Json.Ascending]) (by simpa using .whole _ (by decide))⟩)
  have hwritten : Fence.strip "```json\n[7,\x7b\"n\":1\x7d]\n```" =
      Json.compact (.list [.int 7, .object [("n", .int 1)]]) := by
    decide +kernel
  have hlist : Json.parse (Fence.strip "```json\n[7,\x7b\"n\":1\x7d]\n```") =
      .ok (.list [.int 7, .object [("n", .int 1)]]) := by
    rw [hwritten, Json.parse_compact hfits]
    rfl
  have hnone : ∀ items, Json.parse (Fence.strip "```\n- no list\n```") ≠ .ok (.list items) := by
    intro items hparse
    have hrefused : (Json.parse (Fence.strip "```\n- no list\n```")).toOption.isNone := by
      decide +kernel
    rw [hparse] at hrefused
    cases hrefused
  obtain ⟨i, hinsight, htype, hkept⟩ :=
    (ofAnalysis_kept "```\n- no list\n```" none none none).2 hnone
  have hline : Fence.OpensFence (Fence.firstLine (Text.trimChars "```\n- no list\n```".toList)) :=
    ⟨by decide +kernel, [], by decide +kernel, List.forall_mem_nil _⟩
  exact ⟨(ofAnalysis_kept "```json\n[7,\x7b\"n\":1\x7d]\n```" none none none).1 _ hlist, i,
    hinsight, htype, hkept.mpr fun _ => hline⟩

/-- A mark at both ends of one line makes the words between them disappear. -/
theorem ofAnalysis_drops_words :
    ofAnalysis "```coupling grows```" none none none =
      [⟨none, none, Insight.pattern, "", none, []⟩] ∧
    ¬Fence.Keeps "```coupling grows```".toList "".toList := by
  refine ⟨by decide +kernel, fun hkeeps => ?_⟩
  have hopens : Fence.mark <+: Text.trimChars "```coupling grows```".toList := by decide
  obtain ⟨-, info, hinfo, hword⟩ := Fence.opensFence_of_keeps hopens hkeeps
  have hline : Fence.firstLine (Text.trimChars "```coupling grows```".toList) =
      Fence.mark ++ "coupling grows```".toList := by decide
  obtain rfl := List.append_cancel_left (hline.symm.trans hinfo)
  exact (hword '`' (by decide)).2 rfl

end NewInsight

end FossilRecord

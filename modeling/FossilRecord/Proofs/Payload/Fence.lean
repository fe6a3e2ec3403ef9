import FossilRecord.Insight
import FossilRecord.Proofs.Text.Blank
import FossilRecord.Store.Ingest

/-!
# Fences around a text

What stands between the lines of a fence is read as if the fence were not there.  This holds for
any words on the opening line, for any blanks around the fence, and for a body with marks, blank
lines or carriage returns in it.  A fence need not be closed, unless the body ends in a mark itself,
which is then taken for the closing one.

Reading starts from what is left when the fence is gone, for payloads, for analyses and for texts
that are ingested.  `strip_around` gathers what follows.
-/

namespace FossilRecord.Fence

/-! ## Characters -/

section

variable {info body lines : List Char}

theorem trimChars_mark (rest : List Char) :
    Text.trimChars (mark ++ rest) = mark ++ Text.dropBlanksEnd rest := by
  have htick : Text.isBlank '`' = false := by decide
  rw [Text.trimChars]
  simp only [mark, List.cons_append, List.nil_append, Text.dropBlanks_cons htick,
    Text.dropBlanksEnd_cons htick]

/-- A text that ends in a mark does not end in a blank. -/
theorem dropBlanksEnd_append_mark (front : List Char) :
    Text.dropBlanksEnd (front ++ mark) = front ++ mark := by
  apply Text.dropBlanksEnd_eq_self
  intro c hc
  have hback : (front ++ mark).getLast? = some '`' := by simp [mark]
  rw [hback, Option.mem_some_iff] at hc
  rw [← hc]
  decide

theorem ne_newline_of_notMem (hinfo : '\n' ∉ info) : ∀ c ∈ info, decide (c ≠ '\n') = true := by
  intro c hc
  exact decide_eq_true fun heq => hinfo (heq ▸ hc)

theorem afterLine_append (hinfo : '\n' ∉ info) (rest : List Char) :
    afterLine (info ++ '\n' :: rest) = rest := by
  rw [afterLine, List.dropWhile_append_of_pos (ne_newline_of_notMem hinfo),
    List.dropWhile_cons_of_neg (by simp)]
  rfl

/-- A text of one line has nothing behind that line. -/
theorem afterLine_of_notMem (hinfo : '\n' ∉ info) : afterLine info = [] := by
  rw [afterLine, List.dropWhile_eq_nil_iff.mpr (ne_newline_of_notMem hinfo)]
  rfl

/-- A text that opens a fence is what is behind its first line, up to a mark that closes it. -/
theorem stripChars_of_opens {raw : List Char}
    (hopens : mark.isPrefixOf (Text.trimChars raw) = true) {body : List Char}
    (hbody : body = Text.dropBlanksEnd (afterLine ((Text.trimChars raw).drop 3))) :
    stripChars raw = Text.trimChars ((beforeMark? body).getD body) := by
  rw [stripChars, if_pos hopens, hbody]
  simp only
  cases beforeMark? (Text.dropBlanksEnd (afterLine ((Text.trimChars raw).drop 3))) with
  | none => rfl
  | some inner => rfl

theorem stripChars_mark (rest : List Char) {body : List Char}
    (hbody : body = Text.dropBlanksEnd (afterLine (Text.dropBlanksEnd rest))) :
    stripChars (mark ++ rest) = Text.trimChars ((beforeMark? body).getD body) := by
  apply stripChars_of_opens
  · rw [trimChars_mark]
    exact List.isPrefixOf_iff_prefix.mpr (List.prefix_append _ _)
  · have hbehind : (mark ++ Text.dropBlanksEnd rest).drop 3 = Text.dropBlanksEnd rest :=
      List.drop_left' rfl
    rw [trimChars_mark, hbehind, hbody]

/-- A mark behind whole lines, or behind nothing, closes a fence. -/
theorem beforeMark?_append (hlines : lines = [] ∨ lines.getLast? = some '\n') :
    beforeMark? (lines ++ mark) = some lines := by
  have hcloses : mark.isSuffixOf (lines ++ mark) = true :=
    List.isSuffixOf_iff_suffix.mpr (List.suffix_append _ _)
  have hinner : (lines ++ mark).take ((lines ++ mark).length - 3) = lines :=
    List.take_left' (by simp [mark])
  have halone : (lines.isEmpty || lines.getLast? = some '\n') = true := by
    rcases hlines with rfl | hlast
    · rfl
    · simp [hlast]
  rw [beforeMark?, if_pos hcloses, hinner]
  simp only [halone, if_true]

theorem stripChars_closed (hinfo : '\n' ∉ info)
    (hlines : lines = [] ∨ lines.getLast? = some '\n') :
    stripChars (mark ++ (info ++ '\n' :: (lines ++ mark))) = Text.trimChars lines := by
  have hend : Text.dropBlanksEnd (info ++ '\n' :: (lines ++ mark)) =
      info ++ '\n' :: (lines ++ mark) := by
    have hmark := dropBlanksEnd_append_mark (info ++ '\n' :: lines)
    rwa [List.append_assoc, List.cons_append] at hmark
  have hbody : lines ++ mark =
      Text.dropBlanksEnd (afterLine (Text.dropBlanksEnd (info ++ '\n' :: (lines ++ mark)))) := by
    rw [hend, afterLine_append hinfo, dropBlanksEnd_append_mark]
  rw [stripChars_mark _ hbody, beforeMark?_append hlines, Option.getD_some]

theorem stripChars_unclosed (hinfo : '\n' ∉ info) (hbody : ¬mark <:+ Text.dropBlanksEnd body) :
    stripChars (mark ++ (info ++ '\n' :: body)) = Text.trimChars body := by
  have hopen : beforeMark? (Text.dropBlanksEnd body) = none := by
    rw [beforeMark?, if_neg fun h => hbody (List.isSuffixOf_iff_suffix.mp h)]
  rw [stripChars_mark _ rfl]
  by_cases hblank : Text.dropBlanksEnd body = []
  · -- the body goes with the end of the line, so that only the opening line is left
    have hall : ∀ c ∈ '\n' :: body, Text.isBlank c = true := by
      rw [List.forall_mem_cons]
      exact ⟨by decide, List.rdropWhile_eq_nil_iff.mp hblank⟩
    have hline : '\n' ∉ Text.dropBlanksEnd info := by
      intro hmem
      exact hinfo ((List.rdropWhile_prefix Text.isBlank info).subset hmem)
    rw [Text.dropBlanksEnd_append_blanks hall, afterLine_of_notMem hline,
      ← Text.trimChars_dropBlanksEnd body, hblank]
    rfl
  · have hend : Text.dropBlanksEnd (info ++ '\n' :: body) =
        info ++ '\n' :: Text.dropBlanksEnd body := by
      have hback := Text.dropBlanksEnd_append hblank (info ++ ['\n'])
      rwa [List.append_assoc, List.append_assoc] at hback
    rw [hend, afterLine_append hinfo, Text.dropBlanksEnd_idem]
    rw [hopen, Option.getD_none, Text.trimChars_dropBlanksEnd]

/-- Blanks around a text do not matter to whether it is fenced. -/
theorem stripChars_append_blanks {before after : List Char}
    (hbefore : ∀ c ∈ before, Text.isBlank c = true) (hafter : ∀ c ∈ after, Text.isBlank c = true)
    (cs : List Char) : stripChars (before ++ cs ++ after) = stripChars cs := by
  rw [stripChars, stripChars, Text.trimChars_append_blanks hbefore hafter]

theorem isInfix_of_beforeMark? {inner : List Char} (h : beforeMark? body = some inner) :
    inner <:+: body := by
  unfold beforeMark? at h
  split at h
  · simp only at h
    split at h
    · cases h
      exact (List.take_prefix _ _).isInfix
    · cases h
  · cases h

theorem afterLine_isInfix (cs : List Char) : afterLine cs <:+: cs :=
  ((List.drop_suffix _ _).trans (List.dropWhile_suffix _)).isInfix

/-- Whatever the text is, a part of it is trimmed. -/
theorem stripChars_cases (raw : List Char) :
    ∃ part, part <:+: raw ∧ stripChars raw = Text.trimChars part := by
  let body := Text.dropBlanksEnd (afterLine ((Text.trimChars raw).drop 3))
  have hbody : body <:+: raw :=
    (List.rdropWhile_prefix Text.isBlank _).isInfix.trans
      ((afterLine_isInfix _).trans
        ((List.drop_suffix 3 _).isInfix.trans (Text.trimChars_isInfix raw)))
  by_cases hopens : mark.isPrefixOf (Text.trimChars raw) = true
  · rw [stripChars_of_opens hopens rfl]
    cases hmark : beforeMark? body with
    | some inner => exact ⟨inner, (isInfix_of_beforeMark? hmark).trans hbody, rfl⟩
    | none => exact ⟨body, hbody, rfl⟩
  · refine ⟨raw, List.infix_refl raw, ?_⟩
    rw [stripChars, if_neg hopens]

end

/-! ## Texts -/

/-- Whether a text, with the blanks at its ends left aside, starts with the mark of a fence. -/
def Opens (raw : String) : Prop :=
  "```".toList <+: (Text.trim raw).toList

/-- The texts that are a body with a fence around it. -/
inductive Around (body : String) : String → Prop where
  /-- An opening line, the body, and a closing line. -/
  | closed (before info after : String) (hbefore : Text.isBlankText before = true)
      (hinfo : '\n' ∉ info.toList) (hafter : Text.isBlankText after = true) :
      Around body (before ++ "```" ++ info ++ "\n" ++ body ++ "\n```" ++ after)
  /-- An opening line, a body that is empty or ends its last line itself, and a closing line. -/
  | closedBehind (before info after : String) (hbefore : Text.isBlankText before = true)
      (hinfo : '\n' ∉ info.toList) (hafter : Text.isBlankText after = true)
      (hlines : body = "" ∨ body.toList.getLast? = some '\n') :
      Around body (before ++ "```" ++ info ++ "\n" ++ body ++ "```" ++ after)
  /-- An opening line and a body that does not end in a mark. -/
  | unclosed (before info after : String) (hbefore : Text.isBlankText before = true)
      (hinfo : '\n' ∉ info.toList) (hafter : Text.isBlankText after = true)
      (hbody : ¬"```".toList <:+ (Text.trimEnd body).toList) :
      Around body (before ++ "```" ++ info ++ "\n" ++ body ++ after)

theorem toList_mark : "```".toList = mark := by
  simp [mark]

theorem strip_of_around {body raw : String} (h : Around body raw) : strip raw = Text.trim body := by
  have hblank : ∀ {s : String}, Text.isBlankText s = true → ∀ c ∈ s.toList, Text.isBlank c = true :=
    fun h => List.all_eq_true.mp h
  rw [strip, Text.trim]
  congr 1
  cases h with
  | closed before info after hbefore hinfo hafter =>
      have hlines : body.toList ++ ['\n'] = [] ∨ (body.toList ++ ['\n']).getLast? = some '\n' :=
        .inr List.getLast?_concat
      have hlineEnd : ∀ c ∈ ['\n'], Text.isBlank c = true :=
        List.forall_mem_singleton.mpr (by decide)
      have hclosed := stripChars_closed hinfo hlines
      rw [← stripChars_append_blanks (hblank hbefore) (hblank hafter)] at hclosed
      have htrim := Text.trimChars_append_blanks (List.forall_mem_nil _) hlineEnd body.toList
      rw [List.nil_append] at htrim
      rw [← htrim, ← hclosed]
      simp [mark]
  | closedBehind before info after hbefore hinfo hafter hlines =>
      have hends : body.toList = [] ∨ body.toList.getLast? = some '\n' := by simpa using hlines
      have hclosed := stripChars_closed hinfo hends
      rw [← stripChars_append_blanks (hblank hbefore) (hblank hafter)] at hclosed
      rw [← hclosed]
      simp [mark]
  | unclosed before info after hbefore hinfo hafter hbody =>
      have hopen : ¬mark <:+ Text.dropBlanksEnd body.toList := by
        rwa [toList_mark, Text.trimEnd, String.toList_ofList] at hbody
      have hunclosed := stripChars_unclosed hinfo hopen
      rw [← stripChars_append_blanks (hblank hbefore) (hblank hafter)] at hunclosed
      rw [← hunclosed]
      simp [mark]

theorem strip_of_not_opens {raw : String} (h : ¬Opens raw) : strip raw = Text.trim raw := by
  have hplain : mark.isPrefixOf (Text.trimChars raw.toList) = false := by
    rw [Bool.eq_false_iff]
    intro hprefix
    apply h
    rw [Opens, toList_mark, Text.trim, String.toList_ofList]
    exact List.isPrefixOf_iff_prefix.mp hprefix
  rw [strip, stripChars, Text.trim]
  simp only [hplain, Bool.false_eq_true, if_false]

/-- What is left is a part of the text that neither starts nor ends with a blank. -/
theorem strip_trimmed (raw : String) :
    (strip raw).toList <:+: raw.toList ∧
      (∀ c ∈ (strip raw).toList.head?, Text.isBlank c = false) ∧
      ∀ c ∈ (strip raw).toList.getLast?, Text.isBlank c = false := by
  obtain ⟨part, hpart, hstrip⟩ := stripChars_cases raw.toList
  rw [strip, String.toList_ofList, hstrip]
  exact ⟨(Text.trimChars_isInfix part).trans hpart, fun c => Text.isBlank_head_trimChars,
    fun c => Text.isBlank_getLast_dropBlanksEnd⟩

/-- A fence around a body leaves the body, trimmed, and a text that opens no fence is only trimmed.
So a body that opens no fence itself is the same payload and the same analysis with a fence around
it, and is ingested alike.  Whatever the text, what is left is a part of it without blanks at its
ends. -/
theorem strip_around (raw : String) :
    (∀ body, Around body raw → strip raw = Text.trim body ∧
      (¬Opens body →
        Payload.parse raw = Payload.parse body ∧
        (∀ projectId project model, NewInsight.ofAnalysis raw projectId project model =
          NewInsight.ofAnalysis body projectId project model) ∧
        ∀ (s : Store) (fresh : Fresh) (name : String) (promptUsed : Option String),
          s.ingest fresh name raw promptUsed = s.ingest fresh name body promptUsed)) ∧
    (¬Opens raw → strip raw = Text.trim raw) ∧
    (strip raw).toList <:+: raw.toList ∧
    (∀ c ∈ (strip raw).toList.head?, Text.isBlank c = false) ∧
    ∀ c ∈ (strip raw).toList.getLast?, Text.isBlank c = false := by
  refine ⟨fun body haround => ⟨strip_of_around haround, fun hbody => ?_⟩, strip_of_not_opens,
    strip_trimmed raw⟩
  have hsame : strip raw = strip body := by
    rw [strip_of_around haround, strip_of_not_opens hbody]
  have hparse : Payload.parse raw = Payload.parse body := by
    rw [Payload.parse, Payload.parse, hsame]
  refine ⟨hparse, fun projectId project model => ?_, fun s fresh name promptUsed => ?_⟩
  · rw [NewInsight.ofAnalysis, NewInsight.ofAnalysis, hsame]
  · rw [Store.ingest, Store.ingest, hparse]

/-- Blanks before the fence, carriage returns at its lines, and a mark within the body. -/
theorem strip_around_carriage_returns :
    strip " ```json\r\n\x7b\"summary\":\"```\"\x7d\r\n```\n" = "\x7b\"summary\":\"```\"\x7d" ∧
      ∀ (s : Store) (fresh : Fresh) (name : String) (promptUsed : Option String),
        s.ingest fresh name " ```json\r\n\x7b\"summary\":\"```\"\x7d\r\n```\n" promptUsed =
          s.ingest fresh name "\x7b\"summary\":\"```\"\x7d\r" promptUsed := by
  have hshape : Around "\x7b\"summary\":\"```\"\x7d\r"
      " ```json\r\n\x7b\"summary\":\"```\"\x7d\r\n```\n" :=
    .closed " " "json\r" "\n" (by decide) (by decide) (by decide)
  have hbare : ¬Opens "\x7b\"summary\":\"```\"\x7d\r" := by
    rw [Opens]
    decide +kernel
  obtain ⟨hstrip, hsame⟩ :=
    (strip_around " ```json\r\n\x7b\"summary\":\"```\"\x7d\r\n```\n").1 _ hshape
  obtain ⟨-, -, hingest⟩ := hsame hbare
  refine ⟨hstrip.trans ?_, hingest⟩
  decide +kernel

end FossilRecord.Fence

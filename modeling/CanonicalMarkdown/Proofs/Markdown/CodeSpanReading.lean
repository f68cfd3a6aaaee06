import CanonicalMarkdown.Proofs.ConversionSafety
import CanonicalMarkdown.Proofs.Markdown.FenceReading

namespace CanonicalMarkdown.Markdown

section Reader

/-- A run of backticks of the length, with no backtick next to it. -/
def HasRun (length : Nat) (text : List Char) : Prop :=
  ∃ before after, text = before ++ (List.replicate length '`' ++ after) ∧
    before.getLast? ≠ some '`' ∧ after.head? ≠ some '`'

/-- What stands before the first run of backticks of the length, and what behind it, in a text with
    `pending` backticks in front. -/
def splitAtRun (length pending : Nat) : List Char → Option (List Char × List Char)
  | [] => if pending = length then some ([], []) else none
  | c :: rest =>
    if c = '`' then splitAtRun length (pending + 1) rest
    else if pending = length then some ([], c :: rest)
    else (splitAtRun length 0 rest).map fun found =>
      (List.replicate pending '`' ++ c :: found.1, found.2)

/-- Without a space at each end, if both stand there and the content is not all spaces. -/
def stripSpaces (content : List Char) : List Char :=
  if content.head? = some ' ' ∧ content.getLast? = some ' ' ∧ content.all (· = ' ') = false then
    content.tail.dropLast
  else content

/-- The length of the opening run, the content up to the next run of that length, and what stands
    behind the code span. -/
def readCodeSpan? (text : List Char) : Option (Nat × List Char × List Char) :=
  let length := Fence.run '`' text
  if length = 0 then none
  else (splitAtRun length 0 (text.drop length)).map fun found =>
    (length, stripSpaces found.1, found.2)

end Reader

section Runs

variable {length pending : Nat} {text : List Char}

theorem HasRun.behind {c : Char} (other : c ≠ '`') {front : List Char} (has : HasRun length text) :
    HasRun length (front ++ c :: text) := by
  obtain ⟨before, after, rfl, starts, stops⟩ := has
  refine ⟨front ++ c :: before, after, by simp, ?_, stops⟩
  rw [List.getLast?_append, List.getLast?_cons]
  cases last : before.getLast? with
  | none => simpa using other
  | some final =>
    rw [last] at starts
    simpa using starts

theorem hasRun_iff : HasRun length text ↔ ∃ index < text.length + 1,
    (text.drop index).take length = List.replicate length '`' ∧
      (text.take index).getLast? ≠ some '`' ∧ (text.drop (index + length)).head? ≠ some '`' := by
  constructor
  · rintro ⟨before, after, rfl, starts, stops⟩
    refine ⟨before.length, by rw [List.length_append]; omega, ?_, by simpa using starts, ?_⟩
    · rw [List.drop_left, List.take_left' (by simp)]
    · rwa [← List.drop_drop, List.drop_left, List.drop_left' (by simp)]
  · rintro ⟨index, _, run, starts, stops⟩
    refine ⟨text.take index, text.drop (index + length), ?_, starts, stops⟩
    rw [← run, ← List.drop_drop, List.take_append_drop, List.take_append_drop]

instance : Decidable (HasRun length text) := decidable_of_iff _ hasRun_iff.symm

theorem HasRun.inside (positive : 0 < length) (has : HasRun length (' ' :: (text ++ [' ']))) :
    HasRun length text := by
  obtain ⟨before, after, split, starts, stops⟩ := has
  obtain ⟨shorter, rfl⟩ : ∃ shorter, length = shorter + 1 := ⟨length - 1, by omega⟩
  cases before with
  | nil => cases split
  | cons first before =>
    obtain ⟨rfl, inner⟩ := List.cons.inj split
    change text ++ [' '] = before ++ (List.replicate (shorter + 1) '`' ++ after) at inner
    rcases List.eq_nil_or_concat after with rfl | ⟨after, last, rfl⟩
    · rw [List.append_nil, List.replicate_succ', ← List.append_assoc] at inner
      cases (List.append_inj' inner rfl).2
    · rw [List.concat_eq_append, ← List.append_assoc, ← List.append_assoc] at inner
      obtain ⟨inner, _⟩ := List.append_inj' inner rfl
      refine ⟨before, after, by rw [inner, List.append_assoc], ?_, ?_⟩
      · intro last
        rw [List.getLast?_cons, last] at starts
        exact starts rfl
      · intro first
        rw [List.concat_eq_append, List.head?_append, first] at stops
        exact stops rfl

theorem splitAtRun_replicate {following : List Char} (stops : following.head? ≠ some '`')
    (more : Nat) (whole : pending + more = length) :
    splitAtRun length pending (List.replicate more '`' ++ following) = some ([], following) := by
  induction more generalizing pending with
  | zero =>
    cases following with
    | nil => simp [splitAtRun, show pending = length by omega]
    | cons c rest =>
      have other : c ≠ '`' := by simpa using stops
      simp [splitAtRun, other, show pending = length by omega]
  | succ more ih =>
    rw [List.replicate_succ, List.cons_append, splitAtRun, if_pos rfl]
    exact ih (by omega)

theorem splitAtRun_append {following : List Char} (stops : following.head? ≠ some '`')
    (free : ¬HasRun length (List.replicate pending '`' ++ text))
    (ends : (List.replicate pending '`' ++ text).getLast? ≠ some '`') :
    splitAtRun length pending (text ++ (List.replicate length '`' ++ following)) =
      some (List.replicate pending '`' ++ text, following) := by
  induction text generalizing pending with
  | nil =>
    obtain rfl : pending = 0 := by
      cases pending with
      | zero => rfl
      | succ pending => simp [List.replicate_succ'] at ends
    exact splitAtRun_replicate stops length (by omega)
  | cons c rest ih =>
    rw [List.cons_append, splitAtRun]
    by_cases backtick : c = '`'
    · subst backtick
      have longer : List.replicate pending '`' ++ '`' :: rest =
          List.replicate (pending + 1) '`' ++ rest := by
        simp [List.replicate_succ']
      rw [longer] at free ends ⊢
      rw [if_pos rfl]
      exact ih free ends
    · have short : pending ≠ length := by
        rintro rfl
        exact free ⟨[], c :: rest, rfl, by simp, by simpa using backtick⟩
      have restFree : ¬HasRun length (List.replicate 0 '`' ++ rest) := fun has =>
        free (has.behind backtick)
      have restEnds : (List.replicate 0 '`' ++ rest).getLast? ≠ some '`' := by
        intro last
        rw [List.replicate_zero, List.nil_append] at last
        rw [List.getLast?_append, List.getLast?_cons, last] at ends
        exact ends rfl
      rw [if_neg backtick, if_neg short, ih restFree restEnds]
      rfl

end Runs

section Writer

variable {code : List Char}

/-- The spaces at its ends are the reader's to strip, and the writer takes it for a text of spaces. -/
def LosesSpaces (code : List Char) : Prop :=
  code.head? = some ' ' ∧ code.getLast? = some ' ' ∧ code.all Unicode.isWhiteSpace = true ∧
    code.all (· = ' ') = false
deriving Decidable

theorem needsSpaces_iff : needsSpaces code = true ↔
    (code.head? = some '`' ∨ code.getLast? = some '`') ∨
      ((1 < code.length ∧ code.head? = some ' ') ∧ code.getLast? = some ' ') ∧
        code.all Unicode.isWhiteSpace = false := by
  simp only [needsSpaces, Bool.or_eq_true, Bool.and_eq_true, decide_eq_true_eq, Bool.not_eq_true']

theorem not_all_spaces_of_needsSpaces (needs : needsSpaces code = true) :
    code.all (· = ' ') = false := by
  refine Bool.eq_false_iff.mpr fun spaces => ?_
  have space : ∀ c ∈ code, c = ' ' := by simpa using spaces
  rcases needsSpaces_iff.mp needs with (first | last) | ⟨_, visible⟩
  · exact absurd (space _ (List.mem_of_head? first)) (by decide)
  · exact absurd (space _ (List.mem_of_getLast? last)) (by decide)
  · refine Bool.eq_false_iff.mp visible (List.all_eq_true.mpr fun c member => ?_)
    rw [space c member]
    exact Unicode.isWhiteSpace_space

theorem length_of_not_all_spaces (first : code.head? = some ' ')
    (other : code.all (· = ' ') = false) : 1 < code.length := by
  match code with
  | [] => cases first
  | [c] =>
    obtain rfl := Option.some.inj first
    cases other
  | _ :: _ :: _ => simp

theorem stripSpaces_spacedCode_iff : stripSpaces (spacedCode code) = code ↔ ¬LosesSpaces code := by
  unfold spacedCode
  cases needs : needsSpaces code with
  | true =>
    have kept : ¬LosesSpaces code := by
      rintro ⟨first, last, blank, _⟩
      rcases needsSpaces_iff.mp needs with (other | other) | ⟨_, visible⟩
      · rw [first] at other
        cases other
      · rw [last] at other
        cases other
      · rw [blank] at visible
        cases visible
    have other := not_all_spaces_of_needsSpaces needs
    have whole : (' ' :: (code ++ [' '])).all (· = ' ') = false := by simp [other]
    have last : (' ' :: (code ++ [' '])).getLast? = some ' ' := by
      rw [List.getLast?_cons, List.getLast?_concat]
      rfl
    rw [if_pos rfl, stripSpaces, if_pos ⟨rfl, last, whole⟩, List.tail_cons, List.dropLast_concat]
    exact ⟨fun _ => kept, fun _ => rfl⟩
  | false =>
    rw [if_neg (by simp), stripSpaces]
    split
    · rename_i strips
      obtain ⟨first, last, other⟩ := strips
      have long := length_of_not_all_spaces first other
      have blank : code.all Unicode.isWhiteSpace = true := by
        refine Bool.not_eq_false _ ▸ fun visible => ?_
        have needed := needsSpaces_iff.mpr (.inr ⟨⟨⟨long, first⟩, last⟩, visible⟩)
        rw [needs] at needed
        cases needed
      refine ⟨fun same => ?_, fun kept => absurd ⟨first, last, blank, other⟩ kept⟩
      have shorter := congrArg List.length same
      rw [List.length_dropLast, List.length_tail] at shorter
      omega
    · rename_i keeps
      exact ⟨fun _ loses => keeps ⟨loses.1, loses.2.1, loses.2.2.2⟩, fun _ => rfl⟩

theorem spacedCode_parts_delimiters (filled : code ≠ []) :
    spacedCode code ≠ [] ∧ (spacedCode code).head? ≠ some '`' ∧
      (spacedCode code).getLast? ≠ some '`' := by
  unfold spacedCode
  cases needs : needsSpaces code with
  | true =>
    rw [if_pos rfl, List.getLast?_cons, List.getLast?_concat]
    exact ⟨by simp, by simp, by simp⟩
  | false =>
    rw [if_neg (by simp)]
    have bare := mt needsSpaces_iff.mpr (Bool.eq_false_iff.mp needs)
    exact ⟨filled, fun first => bare (.inl (.inl first)), fun last => bare (.inl (.inr last))⟩

theorem not_hasRun_spacedCode {length : Nat} (positive : 0 < length) (free : ¬HasRun length code) :
    ¬HasRun length (spacedCode code) := by
  unfold spacedCode
  split
  · exact fun has => free (has.inside positive)
  · exact free

/-- What is written for a code span whose text crossed a line. -/
def codeSpanText (length : Nat) (code : String) : String :=
  String.join [Text.repeated length '`', String.ofList (spacedCode code.toList),
    Text.repeated length '`']

theorem toList_codeSpanText (length : Nat) (code : String) :
    (codeSpanText length code).toList = List.replicate length '`' ++
      (spacedCode code.toList ++ List.replicate length '`') := by
  simp [codeSpanText, Text.repeated]

theorem answer_codeSpan (view : View) (length : Nat) (code : String) {child : Node}
    (span : view.node.payload = .codeSpan length) (children : view.node.children = [child])
    (content : child.payload = .string code) (start : Page) :
    ∃ page, start.answer (rule view .enter start) = (page, .ok .skipChildren) ∧
      page.text = start.text ++ codeSpanText length code := by
  have strokes : (enter view).strokes = [Text.repeated length '`',
      String.ofList (spacedCode code.toList), Text.repeated length '`'].map .text := by
    simp [enter, span, children, codeSpanChild, content, Reply.skip]
  refine ⟨_, ?_, start.text_writeAll _⟩
  rw [rule, Rule.ofReplies, Page.answer, strokes, start.applyAll_texts]
  simp [enter, span, Reply.skip]

end Writer

section Span

variable {code : List Char} {length : Nat}

theorem run_delimiter {content : List Char} (filled : content ≠ [])
    (first : content.head? ≠ some '`') (length : Nat) (behind : List Char) :
    Fence.run '`' (List.replicate length '`' ++ (content ++ behind)) = length := by
  refine Fence.run_replicate_append ?_ length
  obtain ⟨c, rest, rfl⟩ := List.exists_cons_of_ne_nil filled
  exact first

theorem readCodeSpan?_spacedCode (positive : 0 < length) (free : ¬HasRun length code)
    (filled : code ≠ []) {following : List Char} (stops : following.head? ≠ some '`') :
    readCodeSpan? (List.replicate length '`' ++
        (spacedCode code ++ (List.replicate length '`' ++ following))) =
      some (length, stripSpaces (spacedCode code), following) := by
  obtain ⟨some, first, last⟩ := spacedCode_parts_delimiters filled
  have found := @splitAtRun_append length 0 (spacedCode code) following stops
    (not_hasRun_spacedCode positive free) last
  rw [readCodeSpan?, run_delimiter some first, if_neg (by omega), List.drop_left' (by simp), found]
  rfl

theorem length_of_readCodeSpan? {text following : List Char}
    (reads : readCodeSpan? text = some (length, code, following)) : Fence.run '`' text = length := by
  rw [readCodeSpan?] at reads
  split at reads
  · cases reads
  · obtain ⟨_, _, same⟩ := Option.map_eq_some_iff.mp reads
    exact congrArg Prod.fst same

theorem lt_run_delimiters (positive : 0 < length) (following : List Char) :
    length < Fence.run '`' (List.replicate length '`' ++ (spacedCode [] ++
      (List.replicate length '`' ++ following))) := by
  rw [show spacedCode [] = [] from rfl, List.nil_append, Fence.run_replicate, Fence.run_replicate]
  omega

end Span

/-- A code span rebuilt from its text stands between its delimiters unless the text is empty, and it
    reads back, whatever follows, unless moreover the text is all white space, not all spaces, with a
    space at both ends. -/
theorem codeSpan_reads_back_iff (code : String) (length : Nat) (positive : 0 < length)
    (free : ¬HasRun length code.toList) :
    let written := (codeSpanText length code).toList
    (∀ (view : View) (child : Node) (start : Page), view.node.payload = .codeSpan length →
      view.node.children = [child] → child.payload = .string code →
      ∃ page, start.answer (rule view .enter start) = (page, .ok .skipChildren) ∧
        page.text = start.text ++ codeSpanText length code) ∧
    (Fence.run '`' written = length ∧ Fence.run '`' written.reverse = length ↔ code ≠ "") ∧
    ∀ following : List Char, following.head? ≠ some '`' →
      (readCodeSpan? (written ++ following) = some (length, code.toList, following) ↔
        code ≠ "" ∧ ¬LosesSpaces code.toList) := by
  intro written
  have shape (following : List Char) : written ++ following = List.replicate length '`' ++
      (spacedCode code.toList ++ (List.replicate length '`' ++ following)) := by
    simp only [written, toList_codeSpanText, List.append_assoc]
  have whole := shape []
  rw [List.append_nil, List.append_nil] at whole
  refine ⟨fun view child start span children content =>
    answer_codeSpan view length code span children content start, ?_⟩
  by_cases empty : code = ""
  · have merged (following : List Char) : Fence.run '`' (written ++ following) ≠ length := by
      rw [shape, empty]
      exact Nat.ne_of_gt (lt_run_delimiters positive following)
    have alone := merged []
    rw [List.append_nil] at alone
    exact ⟨⟨fun runs => absurd runs.1 alone, fun filled => absurd empty filled⟩,
      fun following _ => ⟨fun reads => absurd (length_of_readCodeSpan? reads) (merged following),
        fun kept => absurd empty kept.1⟩⟩
  · have filled : code.toList ≠ [] := by simpa using empty
    obtain ⟨some, first, last⟩ := spacedCode_parts_delimiters filled
    have opening : Fence.run '`' written = length := by
      rw [whole]
      exact run_delimiter some first length _
    have closing : Fence.run '`' written.reverse = length := by
      rw [whole, List.reverse_append, List.reverse_append, List.append_assoc,
        List.reverse_replicate]
      refine run_delimiter (by simpa using some) ?_ length _
      rwa [List.head?_reverse]
    refine ⟨⟨fun _ => empty, fun _ => ⟨opening, closing⟩⟩, fun following stops => ?_⟩
    rw [shape, readCodeSpan?_spacedCode positive free filled stops, and_iff_right empty,
      ← stripSpaces_spacedCode_iff]
    simp

theorem codeSpan_reads_back_backticks :
    ¬HasRun 2 " `a ``` \t`".toList ∧
    codeSpanText 2 " `a ``` \t`" = "``  `a ``` \t` ``" ∧
    readCodeSpan? "``  `a ``` \t` ``. `b`".toList =
      some (2, " `a ``` \t`".toList, ". `b`".toList) := by
  have free : ¬HasRun 2 " `a ``` \t`".toList := by decide
  have written : codeSpanText 2 " `a ``` \t`" = "``  `a ``` \t` ``" := by decide
  obtain ⟨_, _, reads_iff⟩ := codeSpan_reads_back_iff " `a ``` \t`" 2 (by decide) free
  have reads := (reads_iff ". `b`".toList (by decide)).mpr ⟨by decide, by decide⟩
  rw [written] at reads
  exact ⟨free, written, reads⟩

def blankCode : List Event :=
  [⟨.start .paragraph, ⟨0, 8⟩⟩, ⟨.code " \u00a0 ", ⟨0, 8⟩⟩, ⟨.close, ⟨0, 8⟩⟩]

/-- What is written for it loses the spaces when it is read. -/
theorem spaces_lost_blankCode :
    LosesSpaces " \u00a0 ".toList ∧ ¬HasRun 1 " \u00a0 ".toList ∧
    (∃ conversion, Conversion.ofOptions .markdown {} = .ok conversion ∧
      conversion.convert (.ofString "`  \u00a0 \n`") blankCode = .ok "` \u00a0 `") ∧
    readCodeSpan? "` \u00a0 `".toList = some (1, "\u00a0".toList, []) ∧
    readCodeSpan? "`  \u00a0  `".toList = some (1, " \u00a0 ".toList, []) :=
  ⟨by decide, by decide, ⟨_, Conversion.ofOptions_markdown {}, rfl⟩,
    by decide, by decide⟩

end CanonicalMarkdown.Markdown

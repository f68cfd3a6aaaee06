import CanonicalMarkdown.Proofs.Html.Reading

namespace CanonicalMarkdown.Html

def withoutNewlines (text : List Char) : List Char := text.filter (· ≠ '\n')

/-- A page that consists of printed tags and escaped texts, the texts taken without their newlines. -/
inductive Prints : String → List Tag → List Char → Prop
  | nil : Prints "" [] []
  | text (text : String) {rest : String} {tags : List Tag} {shown : List Char} :
      Prints rest tags shown →
      Prints (escape text ++ rest) tags (withoutNewlines text.toList ++ shown)
  | tag {tag : Tag} {rest : String} {tags : List Tag} {shown : List Char} :
      tag.isReadable = true → Prints rest tags shown →
      Prints (tag.print ++ rest) (tag :: tags) shown

namespace Prints

variable {page other : String} {tags more : List Tag} {shown after : List Char}

theorem append (first : Prints page tags shown) (second : Prints other more after) :
    Prints (page ++ other) (tags ++ more) (shown ++ after) := by
  induction first with
  | nil => rwa [String.empty_append]
  | text text _ ih =>
    rw [String.append_assoc, List.append_assoc]
    exact .text text ih
  | tag readable _ ih =>
    rw [String.append_assoc]
    exact .tag readable ih

theorem ofTag {tag : Tag} (readable : tag.isReadable = true) : Prints tag.print [tag] [] := by
  have printed := Prints.tag readable .nil
  rwa [String.append_empty] at printed

theorem ofText (text : String) : Prints (escape text) [] (withoutNewlines text.toList) := by
  have printed := Prints.text text .nil
  rwa [String.append_empty, List.append_nil] at printed

theorem newline : Prints "\n" [] [] := ofText "\n"

theorem endLine (prints : Prints page tags shown) : Prints (page ++ "\n") tags shown := by
  have ended := prints.append newline
  rwa [List.append_nil, List.append_nil] at ended

theorem opening (name : String) (named : isName name = true) :
    Prints (Tag.opening name []).print [.opening name []] [] :=
  ofTag (Bool.and_eq_true_iff.mpr ⟨named, rfl⟩)

theorem closing (name : String) (named : isName name = true) :
    Prints (Tag.closing name).print [.closing name] [] := ofTag named

theorem cut (prints : Prints page tags shown) : ∃ piece behind text,
    cut false page.toList = some (piece, behind) ∧
    (behind.filterMap Token.tag?).mapM Tag.read? = some tags ∧
    piece ++ behind.flatMap Token.outside = text.flatMap escapeChar ∧
    withoutNewlines text = shown := by
  induction prints with
  | nil => exact ⟨[], [], [], rfl, rfl, rfl, rfl⟩
  | text text _ ih =>
    obtain ⟨piece, behind, chars, cut, read, whole, rfl⟩ := ih
    refine ⟨(escape text).toList ++ piece, behind, text.toList ++ chars, ?_, read, ?_, ?_⟩
    · rw [String.toList_append, cut_plain (isPlain_escape text), cut]
      rfl
    · rw [List.append_assoc, whole, toList_escape, List.flatMap_append]
    · exact List.filter_append ..
  | @tag tag rest _ _ readable _ ih =>
    obtain ⟨piece, behind, chars, cut, read, whole, rfl⟩ := ih
    have text : (tag.print ++ rest).toList = '<' :: (tag.inside.toList ++ '>' :: rest.toList) := by
      simp [Tag.print]
    refine ⟨[], .tag tag.inside.toList :: .text piece :: behind, chars, ?_, ?_, ?_, rfl⟩
    · rw [text, cut_tag (Tag.isPlain_inside readable), cut]
      rfl
    · have tags : (Token.tag tag.inside.toList :: .text piece :: behind).filterMap Token.tag? =
          tag.inside.toList :: behind.filterMap Token.tag? := rfl
      rw [tags, List.mapM_cons, Tag.read?_inside readable, read]
      rfl
    · simpa [Token.outside] using whole

theorem read? (prints : Prints page tags shown) : ∃ reading, Html.read? page = some reading ∧
    reading.tags = tags ∧ withoutNewlines reading.text = shown := by
  obtain ⟨piece, behind, text, cut, read, whole, rfl⟩ := prints.cut
  exact ⟨⟨tags, text⟩, by simp [Html.read?, cut, read, whole, unescape_flatMap], rfl, rfl⟩

end Prints

inductive Writes : List Stroke → List Tag → List Char → Prop
  | nil : Writes [] [] []
  | text {text : String} {rest : List Stroke} {tags more : List Tag} {shown after : List Char} :
      Prints text tags shown → Writes rest more after →
      Writes (.text text :: rest) (tags ++ more) (shown ++ after)

namespace Writes

variable {text : String} {strokes others : List Stroke} {tags more : List Tag}
  {shown after : List Char}

theorem one (prints : Prints text tags shown) : Writes [.text text] tags shown := by
  have written := Writes.text prints .nil
  rwa [List.append_nil, List.append_nil] at written

theorem applyAll (writes : Writes strokes tags shown) (page : Page) :
    ∃ next text, page.applyAll strokes = (next, none) ∧ next.padding = page.padding ∧
      next.text = page.text ++ text ∧ Prints text tags shown := by
  induction writes generalizing page with
  | nil => exact ⟨page, "", rfl, rfl, by rw [String.append_empty], .nil⟩
  | @text first _ _ _ _ _ prints _ ih =>
    obtain ⟨next, text, applied, padding, grown, more⟩ := ih (page.write first)
    refine ⟨next, first ++ text, applied, ?_, ?_, prints.append more⟩
    · rw [padding]
      unfold Page.write
      split <;> rfl
    · rw [grown, Page.text_write, String.append_assoc]

end Writes

end CanonicalMarkdown.Html

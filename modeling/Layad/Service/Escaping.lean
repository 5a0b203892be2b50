import Layad.Service.Plist

/-!
# `service.sh`: escaping

`xml_escape` replaces five characters one after another.  The ampersand is replaced first, and
no entity holds a character that is replaced later, so every character is replaced once
(`xmlEscape_eq`): the value can be read back, and what stands in an element neither ends it
nor passes for one of the comments a plist is recognised by (`xmlEscape_lossless`).
-/

namespace Layad.Service

open Escape Occurrence

/-- The characters that are replaced, in the order of the `sed` command, with their entities. -/
def entities : List (Char × List Char) :=
  [('&', "&amp;".toList), ('<', "&lt;".toList), ('>', "&gt;".toList), ('"', "&quot;".toList),
    ('\'', "&apos;".toList)]

/-- The five substitutions are one pass over the text. -/
theorem xmlEscape_eq (text : List Char) : xmlEscape text = text.flatMap (encode entities) := by
  have hpairwise : entities.Pairwise fun entry later => later.1 ∉ entry.2 := by decide
  exact replaceAll_eq hpairwise text

/-- The entities can be told apart, and begin with what is escaped. -/
theorem readable_entities : Readable '&' entities where
  head := by decide
  tail := by decide
  own := by decide
  apart := by decide

/-- Nothing is escaped by a line break. -/
theorem getLast?_xmlEscape {text : List Char} (h : text.getLast? ≠ some '\n') :
    (xmlEscape text).getLast? ≠ some '\n' := by
  rw [xmlEscape_eq]
  rcases List.eq_nil_or_concat text with rfl | ⟨init, c, rfl⟩
  · exact h
  · rw [List.concat_eq_append] at h ⊢
    rw [List.flatMap_append, List.flatMap_singleton, List.getLast?_append]
    -- an entity ends in a semicolon
    have hentity : ∀ entity ∈ entities, entity.2.getLast? = some ';' := by decide
    rcases readable_entities.encode_cases c with hmem | ⟨-, hself⟩
    · rw [hentity _ hmem]
      exact fun hlast => absurd (Option.some.inj hlast) (by decide)
    · rw [hself]
      simpa using h

/-- The output of the command is the escaped value. -/
theorem commandOutput_xmlEscape {text : List Char} (h : text.getLast? ≠ some '\n') :
    commandOutput (xmlEscape text) = xmlEscape text := by
  rw [commandOutput, List.rdropWhile_eq_self_iff]
  intro hne hlast
  refine getLast?_xmlEscape h ?_
  rw [List.getLast?_eq_some_getLast hne, eq_of_beq hlast]

/-- A string element holds the whole value, escaped. -/
theorem toList_stringElement (indent : String) {value : String}
    (h : value.toList.getLast? ≠ some '\n') :
    (stringElement indent value).toList =
      indent.toList ++ "<string>".toList ++ xmlEscape value.toList ++ "</string>\n".toList := by
  rw [stringElement, String.toList_append, String.toList_append, String.toList_append,
    String.toList_ofList (l := commandOutput _), commandOutput_xmlEscape h]

/-- The element of a value holds no beginning of a comment. -/
theorem clear_comment {indent value : String} (hindent : '<' ∉ indent.toList)
    (h : value.toList.getLast? ≠ some '\n') :
    Clear "<!--".toList (stringElement indent value).toList = true := by
  have hvalue : Clear "<!--".toList (xmlEscape value.toList) = true :=
    clear_of_not_mem rfl (not_mem_xmlEscape value.toList)
  rw [toList_stringElement indent h]
  exact clear_append (clear_append (clear_append (clear_of_not_mem rfl hindent) (by decide)) hvalue)
    (by decide)

/-- The owner comment begins as a comment does. -/
theorem comment_prefix_ownerComment (home : String) :
    "<!--".toList <+: (ownerComment home).toList := by
  have hmarker : "<!--".toList <+: HOME_MARKER.toList := by decide
  rw [toList_ownerComment, List.append_assoc]
  exact hmarker.trans (List.prefix_append _ _)

/-- **Escaping is lossless and safe**, for every value that does not end in a line break: none
    of the four other characters is left, an entity begins at every ampersand, and reading the
    entities back once gives the value, so that different values make different elements.  The
    value does not end its element, and no element holds the marker or an owner comment: a
    rendered plist is recognised by the script's own lines, whatever its values. -/
theorem xmlEscape_lossless {value : String} (h : value.toList.getLast? ≠ some '\n') :
    (∀ c ∈ ['<', '>', '"', '\''], c ∉ xmlEscape value.toList) ∧
    (∀ rest, '&' :: rest <:+ xmlEscape value.toList →
      ∃ entity ∈ entities, entity.2 <+: '&' :: rest) ∧
    expand entities (xmlEscape value.toList) = value.toList ∧
    (∀ indent other, other.toList.getLast? ≠ some '\n' →
      stringElement indent other = stringElement indent value → other = value) ∧
    (∀ indent, '<' ∉ indent.toList →
      (stringElement indent value).toList =
        indent.toList ++ "<string>".toList ++ xmlEscape value.toList ++ "</string>\n".toList ∧
      ¬ "</string>".toList <:+: xmlEscape value.toList ∧
      ¬ MARKER.toList <:+: (stringElement indent value).toList ∧
      ∀ home, ¬ (ownerComment home).toList <:+: (stringElement indent value).toList) ∧
    ∀ s home, owned home (renderPlist s) = true ↔ digest home = digest s.layadHomeDir := by
  -- the round trip, from which two values with one element are the same
  have hread : expand entities (xmlEscape value.toList) = value.toList := by
    rw [xmlEscape_eq, expand_flatMap readable_entities]
  refine ⟨fun c hc => ?_, fun rest hrest => ?_, hread, fun indent other hother heq => ?_,
    fun indent hindent => ⟨toList_stringElement indent h, fun hend => ?_, ?_, fun home => ?_⟩,
    fun s home => owned_renderPlist_iff⟩
  · rw [xmlEscape_eq]
    simp only [List.mem_cons, List.not_mem_nil, or_false] at hc
    rcases hc with rfl | rfl | rfl | rfl
    all_goals exact not_mem_flatMap (by decide) (by decide) _
  · rw [xmlEscape_eq] at hrest
    exact lead_suffix readable_entities hrest
  · have hlists := congrArg String.toList heq
    rw [toList_stringElement indent h, toList_stringElement indent hother] at hlists
    have hescaped := List.append_cancel_left (List.append_cancel_right hlists)
    apply String.toList_injective
    rw [← hread, ← hescaped, xmlEscape_eq, expand_flatMap readable_entities]
  · exact not_mem_xmlEscape value.toList (hend.subset (by decide))
  · exact not_infix_of_clear (by decide)
      (clear_of_beginning (p := "<!--".toList) (by decide) (clear_comment hindent h))
  · refine not_infix_of_clear ?_
      (clear_of_beginning (comment_prefix_ownerComment home) (clear_comment hindent h))
    intro hnil
    have hprefix := comment_prefix_ownerComment home
    rw [hnil, List.prefix_nil] at hprefix
    exact absurd hprefix (by decide)

/-- The result at a value that looks like an entity, and ends in a quotation mark. -/
theorem xmlEscape_lossless_entity :
    xmlEscape "&lt; \"".toList = "&amp;lt; &quot;".toList ∧
      expand entities "&amp;lt; &quot;".toList = "&lt; \"".toList := by
  have hlast : "&lt; \"".toList.getLast? ≠ some '\n' := by decide
  exact ⟨by decide, (xmlEscape_lossless hlast).2.2.1⟩

end Layad.Service

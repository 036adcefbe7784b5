import Mathlib.Data.List.Basic
import TypeProjection.Proofs.Text.Joining
import TypeProjection.Source.DottedName

/-!
# Writing and reading names

A name is written as its segments with dots between them, behind the alias if it is global.
Reading strips one alias, splits at the dots and drops what is empty.  So a name is read back
from its text unless a dot or an empty segment is lost in it, or unless its text starts with
an alias that it does not have.
-/

namespace TypeProjection.Source.DottedName

def outermost (name : DottedName) : String :=
  name.segments.headD ""

/-- Nothing of the name is lost when it is written. -/
structure Legible (name : DottedName) : Prop where
  dots : ∀ segment ∈ name.segments, '.' ∉ segment.toList
  /-- Only a single segment may be empty. -/
  empty : "" ∈ name.segments → name.segments = [""]
  /-- The alias at the start of the text is that of a global name. -/
  start : name.isGlobal ∨ ¬ globalAlias.toList <+: name.outermost.toList

/-- The first piece between dots that is not empty. -/
def firstPiece? (text : String) : Option (List Char) :=
  (text.toList.splitOn '.').find? fun piece => !piece.isEmpty

/-! ## Writing -/

def dotted (segments : List String) : List Char :=
  ['.'].intercalate (segments.map String.toList)

theorem toList_text (name : DottedName) :
    name.text.toList =
      (if name.isGlobal then globalAlias.toList else []) ++ dotted name.segments := by
  rw [text, String.toList_append, String.toList_intercalate, dotted]
  cases name.isGlobal <;> rfl

theorem segments_eq_cons (name : DottedName) :
    ∃ rest, name.segments = name.outermost :: rest := by
  rw [outermost, segments]
  cases name.enclosing with
  | nil => exact ⟨[], rfl⟩
  | cons outer enclosing => exact ⟨enclosing ++ [name.leaf], rfl⟩

theorem segments_ne_nil (name : DottedName) : name.segments ≠ [] := by
  obtain ⟨rest, hsegments⟩ := name.segments_eq_cons
  rw [hsegments]
  exact List.cons_ne_nil _ _

theorem prefix_dotted_iff {start : List Char} (hstart : '.' ∉ start) (name : DottedName) :
    start <+: dotted name.segments ↔ start <+: name.outermost.toList := by
  obtain ⟨rest, hsegments⟩ := name.segments_eq_cons
  rw [hsegments, dotted, List.map_cons]
  exact Text.prefix_intercalate_iff hstart

theorem dot_not_mem_globalAlias : '.' ∉ globalAlias.toList := by
  decide

/-! ## Reading -/

theorem ofSegments_segments (name : DottedName) :
    ofSegments name.isGlobal name.segments = name := by
  simp [ofSegments, segments]

theorem segments_ofSegments (isGlobal : Bool) {segments : List String}
    (hsegments : segments ≠ []) : (ofSegments isGlobal segments).segments = segments := by
  rw [ofSegments, DottedName.segments, List.getLastD_eq_getLast?,
    List.getLast?_eq_some_getLast hsegments]
  exact List.dropLast_concat_getLast hsegments

theorem parse_of_alias {text : String} {rest : List Char}
    (htext : text.toList = globalAlias.toList ++ rest) :
    parse text = ofSegments true (pieces rest) := by
  rw [parse, List.isPrefixOf?_eq_some_iff_append_eq.mpr htext.symm]

theorem parse_of_no_alias {text : String} (htext : ¬ globalAlias.toList <+: text.toList) :
    parse text = ofSegments false (pieces text.toList) := by
  have hnone : globalAlias.toList.isPrefixOf? text.toList = none := by
    rw [Option.eq_none_iff_forall_ne_some]
    intro rest hrest
    exact htext ⟨rest, List.isPrefixOf?_eq_some_iff_append_eq.mp hrest⟩
  rw [parse, hnone]

theorem of_mem_pieces {letters : List Char} {piece : String} (hpiece : piece ∈ pieces letters) :
    '.' ∉ piece.toList ∧ piece ≠ "" := by
  obtain ⟨part, hpart, rfl⟩ := List.mem_map.mp hpiece
  obtain ⟨hsplit, hempty⟩ := List.mem_filter.mp hpart
  rw [String.toList_ofList]
  refine ⟨Text.not_mem_of_mem_splitOn hsplit, ?_⟩
  intro hnone
  rw [← String.toList_inj, String.toList_ofList] at hnone
  simp [hnone] at hempty

/-- Segments without dots are read back, except for empty ones. -/
theorem pieces_dotted {segments : List String} (hdots : ∀ segment ∈ segments, '.' ∉ segment.toList)
    (hsegments : segments ≠ []) :
    pieces (dotted segments) = segments.filter fun segment => !segment.toList.isEmpty := by
  have hparts : ∀ part ∈ segments.map String.toList, '.' ∉ part := by
    intro part hpart
    obtain ⟨segment, hsegment, rfl⟩ := List.mem_map.mp hpart
    exact hdots segment hsegment
  rw [pieces, dotted, List.splitOn_intercalate '.' hparts (by simpa using hsegments),
    List.filter_map, List.map_map]
  simp [Function.comp_def]

/-- The segments that are read: the pieces, or one empty segment where there are none. -/
theorem segments_ofPieces (isGlobal : Bool) (letters : List Char) :
    pieces letters = [] ∧ (ofSegments isGlobal (pieces letters)).segments = [""] ∨
      pieces letters ≠ [] ∧
        (ofSegments isGlobal (pieces letters)).segments = pieces letters := by
  by_cases hpieces : pieces letters = []
  · rw [hpieces]
    exact .inl ⟨rfl, rfl⟩
  · exact .inr ⟨hpieces, segments_ofSegments isGlobal hpieces⟩

/-- What is read is legible, as far as its segments go. -/
theorem legible_ofPieces {isGlobal : Bool} {letters : List Char}
    (hstart : isGlobal ∨
      ¬ globalAlias.toList <+: (ofSegments isGlobal (pieces letters)).outermost.toList) :
    (ofSegments isGlobal (pieces letters)).Legible where
  dots segment hsegment := by
    rcases segments_ofPieces isGlobal letters with ⟨-, hsegments⟩ | ⟨-, hsegments⟩
    · rw [hsegments, List.mem_singleton] at hsegment
      rw [hsegment]
      exact List.not_mem_nil
    · rw [hsegments] at hsegment
      exact (of_mem_pieces hsegment).1
  empty hempty := by
    rcases segments_ofPieces isGlobal letters with ⟨-, hsegments⟩ | ⟨-, hsegments⟩
    · exact hsegments
    · rw [hsegments] at hempty
      exact absurd rfl (of_mem_pieces hempty).2
  start := hstart

/-- Reading the text of the segments gives them back. -/
theorem ofPieces_dotted {name : DottedName} (hlegible : name.Legible) :
    ofSegments name.isGlobal (pieces (dotted name.segments)) = name := by
  rw [pieces_dotted hlegible.dots name.segments_ne_nil]
  by_cases hempty : "" ∈ name.segments
  · have hsegments := hlegible.empty hempty
    have hname := name.ofSegments_segments
    rw [hsegments] at hname ⊢
    exact hname
  · have hkept : name.segments.filter (fun segment => !segment.toList.isEmpty) =
        name.segments := by
      rw [List.filter_eq_self]
      intro segment hsegment
      rw [Bool.not_eq_true', List.isEmpty_eq_false_iff]
      intro hnil
      rw [String.toList_eq_nil_iff] at hnil
      exact hempty (hnil ▸ hsegment)
    rw [hkept, ofSegments_segments]

/-- Legible names are read back from their texts. -/
theorem parse_text {name : DottedName} (hlegible : name.Legible) : parse name.text = name := by
  have htext := name.toList_text
  cases hglobal : name.isGlobal with
  | true =>
      rw [hglobal, if_pos rfl] at htext
      rw [parse_of_alias htext, ← hglobal]
      exact ofPieces_dotted hlegible
  | false =>
      rw [hglobal, if_neg Bool.false_ne_true, List.nil_append] at htext
      have halias : ¬ globalAlias.toList <+: name.text.toList := by
        rw [htext, prefix_dotted_iff dot_not_mem_globalAlias]
        exact hlegible.start.resolve_left (by simp [hglobal])
      rw [parse_of_no_alias halias, htext, ← hglobal]
      exact ofPieces_dotted hlegible

/-- What starts with the alias is read as a global name, and nothing else is. -/
theorem parse_cases (text : String) :
    (globalAlias.toList <+: text.toList ∧
      ∃ letters, parse text = ofSegments true (pieces letters)) ∨
    (¬ globalAlias.toList <+: text.toList ∧
      parse text = ofSegments false (pieces text.toList)) := by
  by_cases halias : globalAlias.toList <+: text.toList
  · obtain ⟨letters, htext⟩ := id halias
    exact .inl ⟨halias, letters, parse_of_alias htext.symm⟩
  · exact .inr ⟨halias, parse_of_no_alias halias⟩

/-- Only legible names are read back. -/
theorem legible_of_parse_text {name : DottedName} (hparse : parse name.text = name) :
    name.Legible := by
  rcases parse_cases name.text with ⟨-, letters, hname⟩ | ⟨halias, hname⟩
  · rw [hparse] at hname
    rw [hname]
    exact legible_ofPieces (.inl rfl)
  · rw [hparse] at hname
    have hglobal : name.isGlobal = false := by rw [hname]; rfl
    rw [toList_text, hglobal, if_neg Bool.false_ne_true, List.nil_append,
      prefix_dotted_iff dot_not_mem_globalAlias] at halias
    rw [hname] at halias ⊢
    exact legible_ofPieces (.inr halias)

/-- Without an alias, the outermost segment that is read is the first piece. -/
theorem prefix_outermost_iff {start : List Char} (hstart : start ≠ []) (text : String) :
    start <+: (ofSegments false (pieces text.toList)).outermost.toList ↔
      ∃ piece, firstPiece? text = some piece ∧ start <+: piece := by
  have hfirst : (pieces text.toList).head? = (firstPiece? text).map String.ofList := by
    rw [pieces, List.head?_map, List.head?_filter, firstPiece?]
  rcases segments_ofPieces false text.toList with ⟨hpieces, hsegments⟩ | ⟨-, hsegments⟩
  · rw [hpieces, List.head?_nil, eq_comm, Option.map_eq_none_iff] at hfirst
    rw [outermost, hsegments, hfirst]
    simp [hstart]
  · rw [outermost, hsegments, List.headD_eq_head?_getD, hfirst]
    cases firstPiece? text with
    | none => simp [hstart]
    | some piece => simp

theorem legible_parse_iff (text : String) :
    (parse text).Legible ↔
      ¬ (¬ globalAlias.toList <+: text.toList ∧
        ∃ piece, firstPiece? text = some piece ∧ globalAlias.toList <+: piece) := by
  have hnonempty : globalAlias.toList ≠ [] := by decide
  rcases parse_cases text with ⟨halias, letters, hparse⟩ | ⟨halias, hparse⟩
  · rw [hparse]
    exact iff_of_true (legible_ofPieces (.inl rfl)) fun hlost => hlost.1 halias
  · rw [hparse, ← prefix_outermost_iff hnonempty]
    constructor
    · intro hlegible hlost
      exact (hlegible.start.resolve_left Bool.false_ne_true) hlost.2
    · intro hkept
      exact legible_ofPieces (.inr fun hstart => hkept ⟨halias, hstart⟩)

/-- How the texts of names are read. -/
structure ReadsBack : Prop where
  /-- Exactly the legible names are read back from their texts. -/
  names : ∀ name : DottedName, parse name.text = name ↔ name.Legible
  /-- Legible names with the same text are the same. -/
  unique : ∀ left right : DottedName, left.Legible → right.Legible →
    left.text = right.text → left = right
  /-- Reading, writing and reading again changes nothing, except where an alias comes to
  stand at the start of the text. -/
  texts : ∀ text : String, parse (parse text).text = parse text ↔
    ¬ (¬ globalAlias.toList <+: text.toList ∧
      ∃ piece, firstPiece? text = some piece ∧ globalAlias.toList <+: piece)

/-- Reading inverts writing on all legible names, and writing inverts reading as far as the
texts allow it. -/
theorem names_readBack : ReadsBack where
  names name := ⟨legible_of_parse_text, parse_text⟩
  unique left right hleft hright htext := by
    calc
      left = parse left.text := (parse_text hleft).symm
      _ = parse right.text := by rw [htext]
      _ = right := parse_text hright
  texts text := by
    rw [← legible_parse_iff]
    exact ⟨legible_of_parse_text, parse_text⟩

/-- A dropped piece in front of an alias: the second reading takes the alias away. -/
theorem names_readBack_hidden_alias :
    parse (parse ".global::A").text ≠ parse ".global::A" := by
  intro hsame
  have hkept := (names_readBack.texts ".global::A").mp hsame
  exact hkept ⟨by decide, "global::A".toList, by decide, by decide⟩

end TypeProjection.Source.DottedName

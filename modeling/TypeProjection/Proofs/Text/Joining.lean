/-!
# Joined texts

Texts that are joined by a separator can be taken apart again, as long as the separator does
not occur in them.  The same holds for a text with suffixes behind it, each of which is a star
or a list of items in brackets: the text and its suffixes are told apart by what they start
and end with.
-/

namespace TypeProjection.Text

/-! ## Pieces -/

section Pieces

variable {α : Type} [BEq α] [LawfulBEq α]

/-- What stands between separators contains none. -/
theorem not_mem_of_mem_splitOn {separator : α} {letters piece : List α}
    (hpiece : piece ∈ letters.splitOn separator) : separator ∉ piece := by
  induction letters generalizing piece with
  | nil =>
      rw [List.splitOn_nil, List.mem_singleton] at hpiece
      rw [hpiece]
      exact List.not_mem_nil
  | cons letter letters ih =>
      rw [List.splitOn_eq_splitOnP, List.splitOnP_cons_eq_if_modifyHead,
        ← List.splitOn_eq_splitOnP] at hpiece
      by_cases hletter : letter == separator
      · rw [if_pos hletter] at hpiece
        rcases List.mem_cons.mp hpiece with rfl | hrest
        · exact List.not_mem_nil
        · exact ih hrest
      · rw [if_neg hletter] at hpiece
        obtain ⟨first, others, hsplit⟩ :=
          List.exists_cons_of_ne_nil (List.splitOn_ne_nil separator letters)
        rw [hsplit, List.modifyHead_cons] at hpiece
        rcases List.mem_cons.mp hpiece with rfl | hrest
        · have hfirst := ih (hsplit ▸ List.mem_cons_self)
          have hne : separator ≠ letter := fun hsame => hletter (beq_iff_eq.mpr hsame.symm)
          exact List.not_mem_cons_of_ne_of_not_mem hne hfirst
        · exact ih (hsplit ▸ List.mem_cons_of_mem _ hrest)

omit [BEq α] [LawfulBEq α] in
/-- What contains no separator and starts a joined text starts its first part. -/
theorem prefix_intercalate_iff {separator : α} {start part : List α} {parts : List (List α)}
    (hstart : separator ∉ start) :
    start <+: [separator].intercalate (part :: parts) ↔ start <+: part := by
  cases parts with
  | nil => rw [List.intercalate_singleton]
  | cons next parts =>
      rw [List.intercalate_cons_cons, List.append_assoc]
      constructor
      · intro hjoined
        rcases List.prefix_or_prefix_of_prefix hjoined (List.prefix_append part _) with
          hpart | ⟨rest, rfl⟩
        · exact hpart
        -- The text would go on behind the first part, with a separator.
        rw [List.prefix_append_right_inj] at hjoined
        cases rest with
        | nil => exact (List.append_nil part).symm ▸ List.prefix_rfl
        | cons letter rest =>
            obtain ⟨rfl, -⟩ := List.cons_prefix_cons.mp hjoined
            exact absurd (List.mem_append_right _ List.mem_cons_self) hstart
      · intro hpart
        exact hpart.trans (List.prefix_append part _)

end Pieces

/-! ## Cuts -/

section Cuts

variable {α : Type}

/-- Nothing is left, or what is left starts with a letter that ends a word. -/
def Cut (ends : α → Bool) (rest : List α) : Prop :=
  ∀ letter ∈ rest.head?, ends letter

/-- Words without an ending letter are told apart from what follows them. -/
theorem append_cut_inj {ends : α → Bool} {left right leftRest rightRest : List α}
    (hleft : ∀ letter ∈ left, ¬ ends letter) (hright : ∀ letter ∈ right, ¬ ends letter)
    (hleftRest : Cut ends leftRest) (hrightRest : Cut ends rightRest)
    (hsame : left ++ leftRest = right ++ rightRest) : left = right ∧ leftRest = rightRest := by
  have htake {word rest : List α} (hword : ∀ letter ∈ word, ¬ ends letter)
      (hrest : Cut ends rest) : (word ++ rest).takeWhile (fun letter => !ends letter) = word := by
    rw [List.takeWhile_append_of_pos (by simpa using hword)]
    cases rest with
    | nil => rw [List.takeWhile_nil, List.append_nil]
    | cons letter rest =>
        have hends : ends letter := hrest letter (by simp)
        rw [List.takeWhile_cons_of_neg (by simp [hends]), List.append_nil]
  have hword : left = right := by
    rw [← htake hleft hleftRest, hsame, htake hright hrightRest]
  rw [hword] at hsame
  exact ⟨hword, List.append_cancel_left hsame⟩

/-- Words with a separator in front of each are told apart if none contains its first
letter. -/
theorem flatMap_separated_inj [DecidableEq α] {first : α} {separator : List α}
    {left right : List (List α)} (hleft : ∀ word ∈ left, first ∉ word)
    (hright : ∀ word ∈ right, first ∉ word)
    (hsame : left.flatMap (fun word => first :: separator ++ word) =
      right.flatMap (fun word => first :: separator ++ word)) : left = right := by
  have hcut (words : List (List α)) :
      Cut (· == first) (words.flatMap fun word => first :: separator ++ word) := by
    intro letter hletter
    cases words with
    | nil => simp at hletter
    | cons word words =>
        obtain rfl : first = letter := by simpa using hletter
        exact beq_self_eq_true first
  have hfree {word : List α} (hword : first ∉ word) : ∀ letter ∈ word, ¬ (letter == first) := by
    intro letter hletter hfirst
    exact hword (beq_iff_eq.mp hfirst ▸ hletter)
  induction left generalizing right with
  | nil =>
      cases right with
      | nil => rfl
      | cons word right => simp at hsame
  | cons word left ih =>
      cases right with
      | nil => simp at hsame
      | cons other right =>
          rw [List.flatMap_cons, List.flatMap_cons, List.append_assoc, List.append_assoc] at hsame
          obtain ⟨hword, hleftRest⟩ := List.forall_mem_cons.mp hleft
          obtain ⟨hother, hrightRest⟩ := List.forall_mem_cons.mp hright
          obtain ⟨rfl, hrest⟩ := append_cut_inj (hfree hword) (hfree hother)
            (hcut left) (hcut right) (List.append_cancel_left hsame)
          rw [ih hleftRest hrightRest hrest]

theorem intercalate_cons_eq (separator word : List α) (words : List (List α)) :
    separator.intercalate (word :: words) =
      word ++ words.flatMap (fun word => separator ++ word) := by
  induction words generalizing word with
  | nil => simp
  | cons next words ih =>
      rw [List.intercalate_cons_cons, ih, List.flatMap_cons]
      simp only [List.append_assoc]

/-- Words that are joined by a separator are told apart if none is empty and none contains
the first letter of the separator. -/
theorem intercalate_inj [DecidableEq α] {first : α} {separator : List α}
    {left right : List (List α)} (hleft : ∀ word ∈ left, word ≠ [] ∧ first ∉ word)
    (hright : ∀ word ∈ right, word ≠ [] ∧ first ∉ word)
    (hsame : (first :: separator).intercalate left = (first :: separator).intercalate right) :
    left = right := by
  cases left with
  | nil =>
      cases right with
      | nil => rfl
      | cons other right =>
          rw [List.intercalate_nil, intercalate_cons_eq, eq_comm, List.append_eq_nil_iff] at hsame
          exact absurd hsame.1 (hright other List.mem_cons_self).1
  | cons word left =>
      cases right with
      | nil =>
          rw [List.intercalate_nil, intercalate_cons_eq, List.append_eq_nil_iff] at hsame
          exact absurd hsame.1 (hleft word List.mem_cons_self).1
      | cons other right =>
          -- One more separator in front makes both sides words with separators.
          have hfront := congrArg (first :: separator ++ ·) hsame
          simp only [intercalate_cons_eq, ← List.append_assoc, ← List.flatMap_cons] at hfront
          apply flatMap_separated_inj (fun word hword => (hleft word hword).2)
            (fun word hword => (hright word hword).2)
          exact hfront

end Cuts

/-! ## Suffixes -/

/-- What is outermost comes last. -/
theorem join_map_reverse_cons {α : Type} (text : α → String) (outer : α) (inner : List α) :
    String.join ((outer :: inner).reverse.map text) =
      String.join (inner.reverse.map text) ++ text outer := by
  rw [List.reverse_cons, List.map_append, List.map_singleton, String.join_append,
    String.join_cons, String.join_nil, String.append_empty]

/-- What may stand behind a text: a star, or items in brackets. -/
inductive Suffix where
  | star
  | brackets (items : List String)
  deriving DecidableEq, Repr

namespace Suffix

def text : Suffix → String
  | star => "*"
  | brackets items => "[" ++ ", ".intercalate items ++ "]"

/-- The items can be told apart inside the brackets. -/
def Plain : Suffix → Prop
  | star => True
  | brackets items =>
      ∀ item ∈ items, item ≠ "" ∧ ',' ∉ item.toList ∧ ']' ∉ item.toList

/-- The letters with which a suffix starts. -/
def starts (letter : Char) : Bool :=
  letter == '*' || letter == '['

/-- Decimal numbers are plain items. -/
theorem plain_toString (number : Nat) :
    toString number ≠ "" ∧ ',' ∉ (toString number).toList ∧ ']' ∉ (toString number).toList := by
  have hdigit {letter : Char} (hletter : letter ∈ (toString number).toList) : letter.isDigit := by
    rw [Nat.toString_eq_repr, Nat.toList_repr] at hletter
    exact Nat.isDigit_of_mem_toDigits (by decide) (by decide) hletter
  refine ⟨?_, fun hcomma => ?_, fun hclose => ?_⟩
  · rw [Nat.toString_eq_repr]
    exact Nat.repr_ne_empty
  · exact absurd (hdigit hcomma) (by decide)
  · exact absurd (hdigit hclose) (by decide)

theorem toList_text_brackets (items : List String) :
    (brackets items).text.toList =
      '[' :: [',', ' '].intercalate (items.map String.toList) ++ [']'] := by
  rw [text, String.toList_append, String.toList_append, String.toList_intercalate]
  rfl

/-- Plain items do not close the brackets around them. -/
theorem Plain.not_mem_items {items : List String} (hplain : (brackets items).Plain) :
    ∀ letter ∈ [',', ' '].intercalate (items.map String.toList), ¬ (letter == ']') := by
  have hseparator : ∀ letter ∈ [',', ' '], ¬ (letter == ']') := by simp
  intro letter hletter
  cases items with
  | nil => exact absurd hletter List.not_mem_nil
  | cons item items =>
      obtain ⟨hitem, hitems⟩ := List.forall_mem_cons.mp hplain
      rw [List.map_cons, intercalate_cons_eq, List.mem_append, List.mem_flatMap] at hletter
      rcases hletter with hfirst | ⟨word, hword, hrest⟩
      · exact fun hclose => hitem.2.2 (beq_iff_eq.mp hclose ▸ hfirst)
      · obtain ⟨other, hother, rfl⟩ := List.mem_map.mp hword
        rcases List.mem_append.mp hrest with hbetween | hinside
        · exact hseparator letter hbetween
        · exact fun hclose => (hitems other hother).2.2 (beq_iff_eq.mp hclose ▸ hinside)

theorem items_inj {left right : List String} (hleft : (brackets left).Plain)
    (hright : (brackets right).Plain)
    (hsame : [',', ' '].intercalate (left.map String.toList) =
      [',', ' '].intercalate (right.map String.toList)) : left = right := by
  have hwords {items : List String} (hplain : (brackets items).Plain) :
      ∀ word ∈ items.map String.toList, word ≠ [] ∧ ',' ∉ word := by
    intro word hword
    obtain ⟨item, hitem, rfl⟩ := List.mem_map.mp hword
    obtain ⟨hempty, hcomma, -⟩ := hplain item hitem
    exact ⟨fun hnil => hempty (String.toList_eq_nil_iff.mp hnil), hcomma⟩
  have htexts := intercalate_inj (hwords hleft) (hwords hright) hsame
  exact (List.map_inj_right fun _ _ => String.toList_inj.mp).mp htexts

/-- Suffixes in a row are told apart. -/
theorem flatMap_text_inj {left right : List Suffix} (hleft : ∀ suffix ∈ left, suffix.Plain)
    (hright : ∀ suffix ∈ right, suffix.Plain)
    (hsame : left.flatMap (·.text.toList) = right.flatMap (·.text.toList)) : left = right := by
  induction left generalizing right with
  | nil =>
      cases right with
      | nil => rfl
      | cons other right => cases other <;> simp [text] at hsame
  | cons suffix left ih =>
      cases right with
      | nil => cases suffix <;> simp [text] at hsame
      | cons other right =>
          obtain ⟨hsuffix, hleftRest⟩ := List.forall_mem_cons.mp hleft
          obtain ⟨hother, hrightRest⟩ := List.forall_mem_cons.mp hright
          rw [List.flatMap_cons, List.flatMap_cons] at hsame
          cases suffix with
          | star =>
              cases other with
              | star => rw [ih hleftRest hrightRest (List.append_cancel_left hsame)]
              | brackets items => simp [text] at hsame
          | brackets items =>
              cases other with
              | star => simp [text] at hsame
              | brackets otherItems =>
                  simp only [toList_text_brackets, List.append_assoc, List.cons_append,
                    List.nil_append] at hsame
                  obtain ⟨hitems, hrest⟩ := append_cut_inj hsuffix.not_mem_items
                    hother.not_mem_items (by simp [Cut]) (by simp [Cut])
                    (List.cons.inj hsame).2
                  rw [items_inj hsuffix hother hitems,
                    ih hleftRest hrightRest (List.cons.inj hrest).2]

/-- A text and the suffixes behind it are told apart, unless the text itself has a letter
with which suffixes start. -/
theorem append_join_inj {left right : String} {leftSuffixes rightSuffixes : List Suffix}
    (hleft : ∀ letter ∈ left.toList, ¬ starts letter)
    (hright : ∀ letter ∈ right.toList, ¬ starts letter)
    (hleftPlain : ∀ suffix ∈ leftSuffixes, suffix.Plain)
    (hrightPlain : ∀ suffix ∈ rightSuffixes, suffix.Plain)
    (hsame : left ++ String.join (leftSuffixes.map text) =
      right ++ String.join (rightSuffixes.map text)) :
    left = right ∧ leftSuffixes = rightSuffixes := by
  have hcut (suffixes : List Suffix) : Cut starts (suffixes.flatMap (·.text.toList)) := by
    intro letter hletter
    cases suffixes with
    | nil => simp at hletter
    | cons suffix suffixes =>
        cases suffix with
        | star =>
            obtain rfl : '*' = letter := by simpa [text] using hletter
            rfl
        | brackets items =>
            obtain rfl : '[' = letter := by simpa [text] using hletter
            rfl
  rw [← String.toList_inj] at hsame
  simp only [String.toList_append, String.toList_join, List.flatMap_map] at hsame
  obtain ⟨htext, hsuffixes⟩ :=
    append_cut_inj hleft hright (hcut leftSuffixes) (hcut rightSuffixes) hsame
  exact ⟨String.toList_inj.mp htext, flatMap_text_inj hleftPlain hrightPlain hsuffixes⟩

end Suffix

end TypeProjection.Text

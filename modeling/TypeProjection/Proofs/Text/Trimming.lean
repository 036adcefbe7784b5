import Mathlib.Data.List.TakeWhile
import TypeProjection.Text.Blank

/-!
# Words between bars

Trimming takes the blank letters around a word away and nothing of the word.  So words that are
joined by a bar with blanks around it are found again between the bars.
-/

namespace TypeProjection.Text

variable {lead word tail text : List Char}

def Blank (text : List Char) : Prop :=
  ∀ letter ∈ text, isBlank letter

/-- There are letters, and none of them is blank or a bar. -/
structure Word (word : List Char) : Prop where
  nonempty : word ≠ []
  visible : ∀ letter ∈ word, ¬ isBlank letter
  unbarred : '|' ∉ word

instance : DecidablePred Word := fun word =>
  decidable_of_iff (word ≠ [] ∧ word.all fun letter => !isBlank letter && letter != '|') <| by
    simp only [List.all_eq_true, Bool.and_eq_true, Bool.not_eq_true', bne_iff_ne]
    constructor
    · rintro ⟨hnonempty, hletters⟩
      refine ⟨hnonempty, fun letter hletter => ?_, fun hbar => (hletters '|' hbar).2 rfl⟩
      exact Bool.not_eq_true _ |>.mpr (hletters letter hletter).1
    · rintro ⟨hnonempty, hvisible, hunbarred⟩
      refine ⟨hnonempty, fun letter hletter => ⟨?_, ?_⟩⟩
      · exact Bool.not_eq_true _ |>.mp (hvisible letter hletter)
      · rintro rfl
        exact hunbarred hletter

/-- The trimmed pieces between the bars of a text. -/
def pieces (text : List Char) : List (List Char) :=
  (text.splitOn '|').map trim

theorem blank_space : Blank [' '] := by
  intro letter hletter
  rw [List.mem_singleton.mp hletter]
  decide

/-- No printed letter of ASCII is blank. -/
theorem not_isBlank_of_lt {letter : Char} (hspace : 0x20 < letter.toNat)
    (hascii : letter.toNat < 0x80) : ¬ isBlank letter := by
  simp only [isBlank, blankRanges, List.any_cons, List.any_nil, Bool.or_false, Bool.or_eq_true,
    Bool.and_eq_true, decide_eq_true_iff]
  omega

/-- There is no bar among blank letters. -/
theorem Blank.unbarred (hblank : Blank text) : '|' ∉ text := by
  intro hbar
  exact absurd (hblank '|' hbar) (by decide)

theorem Blank.reverse (hblank : Blank text) : Blank text.reverse :=
  fun letter hletter => hblank letter (List.mem_reverse.mp hletter)

theorem Word.reverse (hword : Word word) : Word word.reverse where
  nonempty hempty := hword.nonempty (List.reverse_eq_nil_iff.mp hempty)
  visible letter hletter := hword.visible letter (List.mem_reverse.mp hletter)
  unbarred hbar := hword.unbarred (List.mem_reverse.mp hbar)

/-! ## Trimming -/

/-- What comes before a word is dropped, and the word is not. -/
theorem dropWhile_lead (hlead : Blank lead) (hword : Word word) (rest : List Char) :
    (lead ++ (word ++ rest)).dropWhile isBlank = word ++ rest := by
  rw [List.dropWhile_append_of_pos hlead]
  cases word with
  | nil => exact absurd rfl hword.nonempty
  | cons letter word =>
      rw [List.cons_append, List.dropWhile_cons_of_neg (hword.visible letter List.mem_cons_self)]

/-- A word is what is left of it with blank letters on both sides. -/
theorem trim_surround (hlead : Blank lead) (hword : Word word) (htail : Blank tail) :
    trim (lead ++ (word ++ tail)) = word := by
  have hback := dropWhile_lead htail.reverse hword.reverse []
  rw [List.append_nil] at hback
  rw [trim, dropWhile_lead hlead hword, List.reverse_append, hback, List.reverse_reverse]

/-- Nothing is left of blank letters only. -/
theorem trim_eq_nil_iff : trim text = [] ↔ Blank text := by
  rw [trim, List.reverse_eq_nil_iff, List.dropWhile_eq_nil_iff]
  constructor
  · intro hrest letter hletter
    rw [← List.takeWhile_append_dropWhile (p := isBlank) (l := text), List.mem_append] at hletter
    rcases hletter with hlead | hback
    · exact List.mem_takeWhile_imp hlead
    · exact hrest letter (List.mem_reverse.mpr hback)
  · intro hblank letter hletter
    exact hblank letter ((List.dropWhile_sublist isBlank).mem (List.mem_reverse.mp hletter))

/-! ## Joined words -/

theorem pieces_of_unbarred (hunbarred : '|' ∉ text) : pieces text = [trim text] := by
  rw [pieces, List.splitOn_eq_singleton hunbarred, List.map_singleton]

theorem pieces_of_blank (hblank : Blank text) : pieces text = [[]] := by
  rw [pieces_of_unbarred hblank.unbarred, trim_eq_nil_iff.mpr hblank]

/-- What stands before the first bar is the first piece. -/
theorem pieces_append_bar {rest : List Char} (hunbarred : '|' ∉ text) :
    pieces (text ++ '|' :: rest) = trim text :: pieces rest := by
  rw [pieces, List.splitOn_append_cons_self_of_not_mem hunbarred, List.map_cons, pieces]

/-- Joined words are found again, also behind further blank letters. -/
theorem pieces_intercalate {words : List (List Char)} (hlead : Blank lead) (hword : Word word)
    (hwords : ∀ word ∈ words, Word word) :
    pieces (lead ++ [' ', '|', ' '].intercalate (word :: words)) = word :: words := by
  induction words generalizing lead word with
  | nil =>
      have htrim := trim_surround hlead hword (List.forall_mem_nil _)
      rw [List.append_nil] at htrim
      have hunbarred : '|' ∉ lead ++ word := List.not_mem_append hlead.unbarred hword.unbarred
      rw [List.intercalate_singleton, pieces_of_unbarred hunbarred, htrim]
  | cons next words ih =>
      obtain ⟨hnext, hlater⟩ := List.forall_mem_cons.mp hwords
      have hbar : lead ++ [' ', '|', ' '].intercalate (word :: next :: words) =
          (lead ++ (word ++ [' '])) ++
            '|' :: ([' '] ++ [' ', '|', ' '].intercalate (next :: words)) := by
        rw [List.intercalate_cons_cons]
        simp
      have hunbarred : '|' ∉ lead ++ (word ++ [' ']) :=
        List.not_mem_append hlead.unbarred
          (List.not_mem_append hword.unbarred blank_space.unbarred)
      rw [hbar, pieces_append_bar hunbarred, trim_surround hlead hword blank_space,
        ih blank_space hnext hlater]

end TypeProjection.Text

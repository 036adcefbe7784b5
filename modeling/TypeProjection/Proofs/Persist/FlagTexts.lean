import TypeProjection.Persist.Forms
import TypeProjection.Proofs.Text.Hexadecimal
import TypeProjection.Proofs.Text.Trimming

/-!
# Texts of flag sets

What a text of flags is read as is said part by part: each part is the name of a flag or a
number, and the bits that are read are those of all parts together.  The text that is written
for a word has such parts, for the bits with a name and for the other ones, so that every word
is read back from its text.
-/

namespace TypeProjection

namespace FlagVocabulary

open TypeProjection.Text TypeProjection.Persist

variable {width : Nat} {vocabulary : FlagVocabulary width} {bits word : BitVec width}
variable {text : String} {part : List Char} {position : Nat}

/-- The words that parts stand for: a name for its flag, and `0x` with digits for a number that
fits the word. -/
inductive Part (vocabulary : FlagVocabulary width) : List Char → BitVec width → Prop where
  | name {name : String} {word : BitVec width} :
      (name, word) ∈ vocabulary.flags → Part vocabulary name.toList word
  | number {digits : List Char} {word : BitVec width} :
      readHex? digits = some word.toNat → Part vocabulary ('0' :: 'x' :: digits) word

/-- Each part stands for a word, and the bits are those of all the words. -/
structure Union (vocabulary : FlagVocabulary width) (parts : List (List Char))
    (bits : BitVec width) : Prop where
  readable : ∀ part ∈ parts, ∃ word, Part vocabulary part word
  united : ∀ position, bits.getLsbD position ↔
    ∃ part ∈ parts, ∃ word, Part vocabulary part word ∧ word.getLsbD position

/-- What a text says: nothing if it is blank, and otherwise what its parts say together. -/
def Spells (vocabulary : FlagVocabulary width) (text : String) (bits : BitVec width) : Prop :=
  (Blank text.toList ∧ bits = 0) ∨
    (¬ Blank text.toList ∧ Union vocabulary (pieces text.toList) bits)

/-- Each flag is one bit, and has a name of its own that is neither taken apart when it is read
nor taken for a number. -/
structure Regular (vocabulary : FlagVocabulary width) : Prop where
  single : ∀ flag ∈ vocabulary.flags, ∃ position < width, flag.2 = BitVec.twoPow width position
  distinct : (vocabulary.flags.map Prod.fst).Nodup
  word : ∀ flag ∈ vocabulary.flags, Word flag.1.toList
  unprefixed : ∀ flag ∈ vocabulary.flags, ¬ ['0', 'x'] <+: flag.1.toList

/-! ## Bits -/

theorem getLsbD_foldl_or (words : List (BitVec width)) (bits : BitVec width) (position : Nat) :
    (words.foldl (· ||| ·) bits).getLsbD position ↔
      bits.getLsbD position ∨ ∃ word ∈ words, word.getLsbD position := by
  induction words generalizing bits with
  | nil => simp
  | cons word words ih =>
      rw [List.foldl_cons, ih, BitVec.getLsbD_or, Bool.or_eq_true, or_assoc]
      simp only [List.mem_cons, exists_eq_or_imp]

theorem getLsbD_all :
    vocabulary.all.getLsbD position ↔ ∃ flag ∈ vocabulary.flags, flag.2.getLsbD position := by
  rw [all, ← List.foldl_map (f := Prod.snd) (g := (· ||| ·)), getLsbD_foldl_or]
  constructor
  · rintro (hzero | ⟨_, hword, hbit⟩)
    · exact absurd hzero (by simp)
    · obtain ⟨flag, hflag, rfl⟩ := List.mem_map.mp hword
      exact ⟨flag, hflag, hbit⟩
  · rintro ⟨flag, hflag, hbit⟩
    exact .inr ⟨flag.2, List.mem_map_of_mem hflag, hbit⟩

/-! ## Parts -/

/-- With names that differ, each entry is found by its name. -/
theorem lookup_iff_mem {entries : List (String × BitVec width)} {name : String}
    (hdistinct : (entries.map Prod.fst).Nodup) :
    entries.lookup name = some word ↔ (name, word) ∈ entries := by
  rw [List.lookup_eq_some_iff]
  constructor
  · rintro ⟨before, after, rfl, -⟩
    exact List.mem_append_right before List.mem_cons_self
  · intro hmember
    obtain ⟨before, after, rfl⟩ := List.append_of_mem hmember
    refine ⟨before, after, rfl, ?_⟩
    intro entry hentry
    rw [List.map_append, List.map_cons, List.nodup_append] at hdistinct
    have hother := hdistinct.2.2 entry.1 (List.mem_map_of_mem hentry) name List.mem_cons_self
    exact bne_iff_ne.mpr hother.symm

/-- A number is read if it fits the word. -/
theorem readPart?_number (vocabulary : FlagVocabulary width) (digits : List Char)
    (word : BitVec width) :
    vocabulary.readPart? ('0' :: 'x' :: digits) = some word ↔
      readHex? digits = some word.toNat := by
  rw [readPart?]
  cases hdigits : readHex? digits with
  | none => simp
  | some number =>
      rw [Option.bind_eq_bind, Option.bind_some, Option.some_inj]
      constructor
      · intro hread
        obtain ⟨hfits, hword⟩ := Option.ite_none_right_eq_some.mp hread
        rw [← Option.some.inj hword, hfits]
      · rintro rfl
        rw [BitVec.ofNat_toNat, BitVec.setWidth_eq, if_pos rfl]

/-- What does not start like a number is looked up as a name. -/
theorem readPart?_name (vocabulary : FlagVocabulary width) (hname : ¬ ['0', 'x'] <+: part) :
    vocabulary.readPart? part = vocabulary.flags.lookup (String.ofList part) := by
  rw [readPart?.eq_def]
  split
  · exact absurd (List.prefix_append ['0', 'x'] _) hname
  · rfl

theorem readPart?_eq_some_iff (hregular : vocabulary.Regular) :
    vocabulary.readPart? part = some word ↔ Part vocabulary part word := by
  constructor
  · intro hread
    by_cases hnumber : ['0', 'x'] <+: part
    · obtain ⟨digits, rfl⟩ := hnumber
      exact .number ((readPart?_number vocabulary digits word).mp hread)
    · rw [readPart?_name vocabulary hnumber, lookup_iff_mem hregular.distinct] at hread
      have hpart := Part.name hread
      rwa [String.toList_ofList] at hpart
  · intro hpart
    cases hpart with
    | name hflag =>
        rwa [readPart?_name vocabulary (hregular.unprefixed _ hflag), String.ofList_toList,
          lookup_iff_mem hregular.distinct]
    | number hdigits => exact (readPart?_number vocabulary _ word).mpr hdigits

/-- A part stands for one word only. -/
theorem Part.unique (hregular : vocabulary.Regular) {other : BitVec width}
    (hpart : Part vocabulary part word) (hother : Part vocabulary part other) : word = other := by
  rw [← readPart?_eq_some_iff hregular] at hpart hother
  exact Option.some.inj (hpart.symm.trans hother)

/-! ## Reading -/

/-- A list is read if all its elements are, and then to all that they are read to. -/
theorem mapM_eq_some_iff {α β : Type} {read? : α → Option β} {elements : List α}
    {results : List β} :
    elements.mapM read? = some results ↔
      (∀ element ∈ elements, ∃ result, read? element = some result) ∧
        elements.filterMap read? = results := by
  induction elements generalizing results with
  | nil => simp [eq_comm]
  | cons element elements ih =>
      rw [List.mapM_cons, List.forall_mem_cons, List.filterMap_cons]
      cases read? element with
      | none => simp
      | some first =>
          rw [Option.bind_eq_bind, Option.bind_some, Option.bind_eq_bind, Option.bind_eq_some_iff]
          constructor
          · rintro ⟨others, hothers, hresults⟩
            obtain ⟨hall, rfl⟩ := ih.mp hothers
            obtain rfl := Option.some.inj hresults
            exact ⟨⟨⟨first, rfl⟩, hall⟩, rfl⟩
          · rintro ⟨⟨-, hall⟩, rfl⟩
            exact ⟨_, ih.mpr ⟨hall, rfl⟩, rfl⟩

/-- The bits of what is read, part by part. -/
theorem getLsbD_foldl_read (hregular : vocabulary.Regular) (parts : List (List Char))
    (position : Nat) :
    ((parts.filterMap vocabulary.readPart?).foldl (· ||| ·) 0).getLsbD position ↔
      ∃ part ∈ parts, ∃ word, Part vocabulary part word ∧ word.getLsbD position := by
  rw [getLsbD_foldl_or]
  simp only [List.mem_filterMap, readPart?_eq_some_iff hregular]
  constructor
  · rintro (hzero | ⟨word, ⟨part, hmember, hpart⟩, hbit⟩)
    · exact absurd hzero (by simp)
    · exact ⟨part, hmember, word, hpart, hbit⟩
  · rintro ⟨part, hmember, word, hpart, hbit⟩
    exact .inr ⟨word, ⟨part, hmember, hpart⟩, hbit⟩

/-- Parts are read to the union of what they stand for. -/
theorem mapM_readPart?_iff (hregular : vocabulary.Regular) {parts : List (List Char)} :
    (∃ words, parts.mapM vocabulary.readPart? = some words ∧ words.foldl (· ||| ·) 0 = bits) ↔
      Union vocabulary parts bits := by
  constructor
  · rintro ⟨words, hwords, rfl⟩
    obtain ⟨hall, rfl⟩ := mapM_eq_some_iff.mp hwords
    refine ⟨?_, getLsbD_foldl_read hregular parts⟩
    intro part hpart
    obtain ⟨word, hword⟩ := hall part hpart
    exact ⟨word, (readPart?_eq_some_iff hregular).mp hword⟩
  · rintro ⟨hreadable, hunited⟩
    refine ⟨_, mapM_eq_some_iff.mpr ⟨?_, rfl⟩, ?_⟩
    · intro part hpart
      obtain ⟨word, hword⟩ := hreadable part hpart
      exact ⟨word, (readPart?_eq_some_iff hregular).mpr hword⟩
    · apply BitVec.eq_of_getLsbD_eq
      intro position _
      rw [Bool.eq_iff_iff, getLsbD_foldl_read hregular, hunited]

/-- A text is read as what it says. -/
theorem read?_eq_some_iff (hregular : vocabulary.Regular) :
    vocabulary.read? text = some bits ↔ Spells vocabulary text bits := by
  rw [read?, Spells]
  by_cases hblank : Blank text.toList
  · rw [if_pos (List.isEmpty_iff.mpr (trim_eq_nil_iff.mpr hblank))]
    constructor
    · intro hzero
      exact .inl ⟨hblank, (Option.some.inj hzero).symm⟩
    · rintro (⟨-, rfl⟩ | ⟨hvisible, -⟩)
      · rfl
      · exact absurd hblank hvisible
  · have htrim : ¬ (trim text.toList).isEmpty := fun hempty =>
      hblank (trim_eq_nil_iff.mp (List.isEmpty_iff.mp hempty))
    rw [if_neg htrim, ← mapM_readPart?_iff hregular, pieces, List.mapM_map, Option.bind_eq_bind,
      Option.bind_eq_some_iff]
    simp [hblank, Function.comp_def]

/-- What parts say together does not depend on how they are listed. -/
theorem Union.of_mem_iff {parts others : List (List Char)}
    (hparts : ∀ part, part ∈ parts ↔ part ∈ others) (hunion : Union vocabulary parts bits) :
    Union vocabulary others bits where
  readable part hpart := hunion.readable part ((hparts part).mpr hpart)
  united position := by simp only [hunion.united, hparts]

/-- Texts with the same parts are read alike. -/
theorem read?_eq_of_pieces (hregular : vocabulary.Regular) {other : String}
    (htext : ¬ Blank text.toList) (hother : ¬ Blank other.toList)
    (hpieces : ∀ part, part ∈ pieces text.toList ↔ part ∈ pieces other.toList) :
    vocabulary.read? text = vocabulary.read? other := by
  apply Option.ext
  intro bits
  rw [read?_eq_some_iff hregular, read?_eq_some_iff hregular, Spells, Spells]
  simp only [htext, hother, false_and, not_false_iff, true_and, false_or]
  exact ⟨Union.of_mem_iff hpieces, Union.of_mem_iff fun part => (hpieces part).symm⟩

/-! ## Writing -/

/-- The written parts, each with the word it stands for. -/
def written (vocabulary : FlagVocabulary width) (bits : BitVec width) :
    List (String × BitVec width) :=
  vocabulary.flags.filter (fun flag => bits &&& flag.2 == flag.2) ++
    if vocabulary.unnamed bits = 0 then []
    else [("0x" ++ lowerHex (vocabulary.unnamed bits).toNat, vocabulary.unnamed bits)]

theorem parts_eq (vocabulary : FlagVocabulary width) (bits : BitVec width) :
    vocabulary.parts bits = (vocabulary.written bits).map Prod.fst := by
  rw [parts, written, List.map_append, names]
  split <;> rfl

theorem mem_written_iff {entry : String × BitVec width} :
    entry ∈ vocabulary.written bits ↔
      (entry ∈ vocabulary.flags ∧ bits &&& entry.2 == entry.2) ∨
        (vocabulary.unnamed bits ≠ 0 ∧
          entry = ("0x" ++ lowerHex (vocabulary.unnamed bits).toNat, vocabulary.unnamed bits)) := by
  rw [written, List.mem_append, List.mem_filter]
  split <;> simp_all

theorem part_of_mem_written {entry : String × BitVec width}
    (hentry : entry ∈ vocabulary.written bits) : Part vocabulary entry.1.toList entry.2 := by
  rcases mem_written_iff.mp hentry with ⟨hflag, -⟩ | ⟨-, rfl⟩
  · exact .name hflag
  · rw [String.toList_append]
    exact .number (readHex?_lowerHex _)

/-- The written parts stand for the bits that are set. -/
theorem getLsbD_iff_written (hregular : vocabulary.Regular) :
    bits.getLsbD position ↔ ∃ entry ∈ vocabulary.written bits, entry.2.getLsbD position := by
  constructor
  · intro hset
    by_cases hnamed : vocabulary.all.getLsbD position
    · obtain ⟨flag, hflag, hbit⟩ := getLsbD_all.mp hnamed
      obtain ⟨place, hplace, hword⟩ := hregular.single flag hflag
      obtain rfl : place = position := by
        rw [hword, BitVec.getLsbD_twoPow] at hbit
        simpa [hplace] using hbit
      refine ⟨flag, mem_written_iff.mpr (.inl ⟨hflag, ?_⟩), hbit⟩
      rwa [hword, and_twoPow_beq hplace]
    · have hunnamed : (vocabulary.unnamed bits).getLsbD position := by
        rw [unnamed, BitVec.getLsbD_and, BitVec.getLsbD_not, hset, Bool.not_eq_true _ |>.mp hnamed,
          decide_eq_true (BitVec.lt_of_getLsbD hset)]
        rfl
      refine ⟨_, mem_written_iff.mpr (.inr ⟨?_, rfl⟩), hunnamed⟩
      intro hzero
      simp [hzero] at hunnamed
  · rintro ⟨entry, hentry, hbit⟩
    rcases mem_written_iff.mp hentry with ⟨-, hsame⟩ | ⟨-, rfl⟩
    · rw [← eq_of_beq hsame, BitVec.getLsbD_and, Bool.and_eq_true] at hbit
      exact hbit.1
    · rw [unnamed, BitVec.getLsbD_and, Bool.and_eq_true] at hbit
      exact hbit.1

/-- The written parts say the bits of the word. -/
theorem union_parts (hregular : vocabulary.Regular) (bits : BitVec width) :
    Union vocabulary ((vocabulary.parts bits).map String.toList) bits := by
  have hmember {part : List Char} :
      part ∈ (vocabulary.parts bits).map String.toList ↔
        ∃ entry ∈ vocabulary.written bits, entry.1.toList = part := by
    rw [parts_eq, List.map_map, List.mem_map]
    rfl
  refine ⟨?_, ?_⟩
  · intro part hpart
    obtain ⟨entry, hentry, rfl⟩ := hmember.mp hpart
    exact ⟨entry.2, part_of_mem_written hentry⟩
  · intro position
    rw [getLsbD_iff_written hregular]
    constructor
    · rintro ⟨entry, hentry, hbit⟩
      exact ⟨_, hmember.mpr ⟨entry, hentry, rfl⟩, entry.2, part_of_mem_written hentry, hbit⟩
    · rintro ⟨part, hpart, word, hword, hbit⟩
      obtain ⟨entry, hentry, rfl⟩ := hmember.mp hpart
      obtain rfl := hword.unique hregular (part_of_mem_written hentry)
      exact ⟨entry, hentry, hbit⟩

/-- A written number is a word. -/
theorem word_number (number : Nat) : Word ("0x" ++ lowerHex number).toList := by
  have hmark : Word "0x".toList := by decide
  have hdigit {letter : Char} (hletter : letter ∈ (lowerHex number).toList) :
      '0' ≤ letter ∧ letter ≤ 'f' :=
    range_of_hexDigit? (isSome_hexDigit?_lowerHex number letter hletter)
  rw [String.toList_append]
  refine ⟨List.append_ne_nil_of_left_ne_nil hmark.nonempty _, ?_, ?_⟩
  · rw [List.forall_mem_append]
    refine ⟨hmark.visible, fun letter hletter => ?_⟩
    obtain ⟨hlow, hhigh⟩ := hdigit hletter
    exact not_isBlank_of_lt (Nat.lt_of_lt_of_le (by decide) hlow)
      (Nat.lt_of_le_of_lt hhigh (by decide))
  · refine List.not_mem_append hmark.unbarred fun hbar => ?_
    exact absurd (hdigit hbar).2 (by decide)

theorem word_of_mem_parts (hregular : vocabulary.Regular) {name : String}
    (hname : name ∈ vocabulary.parts bits) : Word name.toList := by
  rw [parts_eq] at hname
  obtain ⟨entry, hentry, rfl⟩ := List.mem_map.mp hname
  rcases mem_written_iff.mp hentry with ⟨hflag, -⟩ | ⟨-, rfl⟩
  · exact hregular.word entry hflag
  · exact word_number _

/-- The empty word has the empty text. -/
theorem write_zero (hregular : vocabulary.Regular) : vocabulary.write 0 = "" := by
  have hnone : vocabulary.written 0 = [] := by
    rw [List.eq_nil_iff_forall_not_mem]
    intro entry hentry
    rcases mem_written_iff.mp hentry with ⟨hflag, hset⟩ | ⟨hunnamed, -⟩
    · obtain ⟨position, hposition, hword⟩ := hregular.single entry hflag
      rw [hword, and_twoPow_beq hposition] at hset
      simp at hset
    · exact hunnamed BitVec.zero_and
  rw [write, parts_eq, hnone]
  rfl

/-- The text of a word that is not zero is taken apart into the written parts. -/
theorem pieces_write (hregular : vocabulary.Regular) (hbits : bits ≠ 0) :
    pieces (vocabulary.write bits).toList = (vocabulary.parts bits).map String.toList := by
  have hunion := union_parts hregular bits
  have hwords : ∀ word ∈ (vocabulary.parts bits).map String.toList, Word word := by
    intro word hword
    obtain ⟨name, hname, rfl⟩ := List.mem_map.mp hword
    exact word_of_mem_parts hregular hname
  rw [write, String.toList_intercalate]
  generalize (vocabulary.parts bits).map String.toList = words at hunion hwords
  cases words with
  | nil =>
      have hzero : bits = 0 := by
        apply BitVec.eq_of_getLsbD_eq
        intro position _
        rw [Bool.eq_iff_iff, hunion.united]
        simp
      exact absurd hzero hbits
  | cons word words =>
      obtain ⟨hword, hlater⟩ := List.forall_mem_cons.mp hwords
      exact pieces_intercalate (List.forall_mem_nil _) hword hlater

/-- The text of a word says its bits. -/
theorem spells_write (hregular : vocabulary.Regular) (bits : BitVec width) :
    Spells vocabulary (vocabulary.write bits) bits := by
  by_cases hbits : bits = 0
  · rw [hbits, write_zero hregular]
    exact .inl ⟨List.forall_mem_nil _, rfl⟩
  · have hpieces := pieces_write hregular hbits
    refine .inr ⟨?_, hpieces ▸ union_parts hregular bits⟩
    intro hblank
    rw [pieces_of_blank hblank] at hpieces
    obtain ⟨name, hname, hempty⟩ := List.mem_map.mp (hpieces ▸ List.mem_singleton_self [])
    exact (word_of_mem_parts hregular hname).nonempty hempty

theorem read?_write (hregular : vocabulary.Regular) (bits : BitVec width) :
    vocabulary.read? (vocabulary.write bits) = some bits :=
  (read?_eq_some_iff hregular).mpr (spells_write hregular bits)

/-! ## Flag sets -/

/-- How the flag sets of a vocabulary are kept as texts. -/
structure Persists {α : Type} [Persistent α] (vocabulary : FlagVocabulary width)
    (ofBits : BitVec width → α) : Prop where
  /-- A flag set is stored as the text of its bits. -/
  stored : ∀ bits, Persistent.store (ofBits bits) = .text (vocabulary.write bits)
  /-- The empty flag set has the empty text. -/
  empty : Persistent.store (ofBits 0) = .text ""
  /-- The text of a flag set that is not empty has the names of its flags as parts, and then the
  number of all other bits. -/
  written : ∀ bits, bits ≠ 0 →
    pieces (vocabulary.write bits).toList = (vocabulary.parts bits).map String.toList
  /-- Every flag set is restored with the same bits. -/
  restored : ∀ bits, Persistent.load? (Persistent.store (ofBits bits)) = some (ofBits bits)
  /-- What is loaded is a text, with the bits that the text says. -/
  loaded : ∀ value flagSet, Persistent.load? value = some flagSet ↔
    ∃ text bits, value = .text text ∧ flagSet = ofBits bits ∧ Spells vocabulary text bits
  /-- What is loaded is the same when it is stored and loaded again. -/
  again : ∀ value (flagSet : α), Persistent.load? value = some flagSet →
    Persistent.load? (Persistent.store flagSet) = some flagSet
  /-- Neither the order of parts nor a repetition makes a difference. -/
  reordered : ∀ text other : String, ¬ Blank text.toList → ¬ Blank other.toList →
    (∀ part, part ∈ pieces text.toList ↔ part ∈ pieces other.toList) →
      Persistent.load? (α := α) (.text text) = Persistent.load? (.text other)
  /-- Flag sets with the same text have the same bits. -/
  distinct : ∀ left right, Persistent.store (ofBits left) = Persistent.store (ofBits right) →
    left = right

/-- Values are stored and loaded by the text of their bits. -/
structure KeptAsText {α : Type} [Persistent α] (vocabulary : FlagVocabulary width)
    (ofBits : BitVec width → α) : Prop where
  store : ∀ bits, Persistent.store (ofBits bits) = .text (vocabulary.write bits)
  load : ∀ value, Persistent.load? value = (value.text?.bind vocabulary.read?).map ofBits

section Values

variable {α : Type} [Persistent α] {ofBits : BitVec width → α}

theorem KeptAsText.load?_text (hkept : KeptAsText vocabulary ofBits) (text : String) :
    Persistent.load? (.text text) = (vocabulary.read? text).map ofBits :=
  hkept.load (.text text)

theorem KeptAsText.load?_store (hkept : KeptAsText vocabulary ofBits)
    (hregular : vocabulary.Regular) (bits : BitVec width) :
    Persistent.load? (Persistent.store (ofBits bits)) = some (ofBits bits) := by
  rw [hkept.store, hkept.load?_text, read?_write hregular, Option.map_some]

theorem KeptAsText.load?_eq_some_iff (hkept : KeptAsText vocabulary ofBits)
    (hregular : vocabulary.Regular) {value : Value} {flagSet : α} :
    Persistent.load? value = some flagSet ↔
      ∃ text bits, value = .text text ∧ flagSet = ofBits bits ∧ Spells vocabulary text bits := by
  constructor
  · intro hvalue
    rw [hkept.load, Option.map_eq_some_iff] at hvalue
    obtain ⟨bits, hbits, rfl⟩ := hvalue
    obtain ⟨text, htext, hread⟩ := Option.bind_eq_some_iff.mp hbits
    refine ⟨text, bits, ?_, rfl, (read?_eq_some_iff hregular).mp hread⟩
    cases value <;> cases htext
    rfl
  · rintro ⟨text, bits, rfl, rfl, hspelled⟩
    rw [hkept.load?_text, (read?_eq_some_iff hregular).mpr hspelled, Option.map_some]

/-- Flag sets that are kept as texts are not changed by it. -/
theorem KeptAsText.persists (hkept : KeptAsText vocabulary ofBits)
    (hregular : vocabulary.Regular) : Persists vocabulary ofBits where
  stored := hkept.store
  empty := by
    rw [hkept.store, write_zero hregular]
  written bits := pieces_write hregular
  restored := hkept.load?_store hregular
  loaded value flagSet := hkept.load?_eq_some_iff hregular
  again value flagSet hvalue := by
    obtain ⟨_, bits, -, rfl, -⟩ := (hkept.load?_eq_some_iff hregular).mp hvalue
    exact hkept.load?_store hregular bits
  reordered text other htext hother hpieces := by
    rw [hkept.load?_text, hkept.load?_text, read?_eq_of_pieces hregular htext hother hpieces]
  distinct left right hsame := by
    rw [hkept.store, hkept.store, Value.text.injEq] at hsame
    have hread := read?_write hregular left
    rw [hsame, read?_write hregular] at hread
    exact (Option.some.inj hread).symm

end Values

end FlagVocabulary

/-! ## Attributes and policies -/

namespace Metadata.TypeAttributes

theorem vocabulary_regular : vocabulary.Regular where
  single := by decide
  distinct := by decide
  word := by decide
  unprefixed := by decide

theorem keptAsText : FlagVocabulary.KeptAsText vocabulary mk where
  store bits := rfl
  load value := by
    rw [Option.map_eq_bind, Option.bind_assoc]
    rfl

end Metadata.TypeAttributes

namespace Policy

theorem vocabulary_regular : vocabulary.Regular where
  single := by decide
  distinct := by decide
  word := by decide
  unprefixed := by decide

theorem keptAsText : FlagVocabulary.KeptAsText vocabulary mk where
  store bits := rfl
  load value := by
    rw [Option.map_eq_bind, Option.bind_assoc]
    rfl

end Policy

namespace Persist

open TypeProjection.Metadata

/-- Attributes of type definitions and projection policies are kept as texts without a loss. -/
theorem flagSets_persist :
    FlagVocabulary.Persists TypeAttributes.vocabulary TypeAttributes.mk ∧
      FlagVocabulary.Persists Policy.vocabulary Policy.mk :=
  ⟨TypeAttributes.keptAsText.persists TypeAttributes.vocabulary_regular,
    Policy.keptAsText.persists Policy.vocabulary_regular⟩

end Persist

end TypeProjection

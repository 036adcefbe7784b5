import TypeProjection.Text.Blank
import TypeProjection.Text.Numeral

/-!
# Named flags

A vocabulary gives names to single bits of a word.  A word is written as the
names of its set flags, in the order of the vocabulary, followed by all
remaining bits as one hexadecimal number; the parts are joined by ` | ` and
the empty word has the empty text.  Reading takes parts in any order, names
or numbers, and keeps bits that have no name.
-/

namespace TypeProjection

/-- Names for the bits of a word, in the order in which they are written. -/
structure FlagVocabulary (width : Nat) where
  /-- The name of the flag set as a whole. -/
  title : String
  /-- Each flag with the word in which only its bit is set. -/
  flags : List (String × BitVec width)

namespace FlagVocabulary

variable {width : Nat} (vocabulary : FlagVocabulary width)

def all : BitVec width :=
  vocabulary.flags.foldl (fun bits flag => bits ||| flag.2) 0

def names (bits : BitVec width) : List String :=
  (vocabulary.flags.filter fun flag => bits &&& flag.2 == flag.2).map (·.1)

/-- A flag of one bit is set in a word if the bit is. -/
theorem and_twoPow_beq {position : Nat} (hposition : position < width) (bits : BitVec width) :
    (bits &&& BitVec.twoPow width position == BitVec.twoPow width position) =
      bits.getLsbD position := by
  have hset : BitVec.twoPow width position ≠ 0 := by
    intro hzero
    have hbit := congrArg (fun bits => bits.getLsbD position) hzero
    simp [hposition] at hbit
  rw [BitVec.and_twoPow]
  cases bits.getLsbD position with
  | true => simp
  | false => simpa using hset.symm

def unnamed (bits : BitVec width) : BitVec width :=
  bits &&& ~~~vocabulary.all

/-- The parts of the written form, before they are joined. -/
def parts (bits : BitVec width) : List String :=
  vocabulary.names bits ++
    if vocabulary.unnamed bits = 0 then []
    else ["0x" ++ Text.lowerHex (vocabulary.unnamed bits).toNat]

/-- The persisted text of a word. -/
def write (bits : BitVec width) : String :=
  " | ".intercalate (vocabulary.parts bits)

/-- The text of a word for people: the title around the parts, and `0x0` for
the empty word. -/
def describe (bits : BitVec width) : String :=
  vocabulary.title ++ "(" ++ (if bits = 0 then "0x0" else vocabulary.write bits) ++ ")"

/-- Reads one part: a hexadecimal number that fits the word, or the exact name
of a flag. -/
def readPart? (part : List Char) : Option (BitVec width) :=
  match part with
  | '0' :: 'x' :: digits => do
      let number ← Text.readHex? digits
      let bits := BitVec.ofNat width number
      if bits.toNat = number then some bits else none
  | _ => vocabulary.flags.lookup (String.ofList part)

/-- Reads a persisted text.  A blank text is the empty word; otherwise each
part between bars is trimmed and read, and the word is the union. -/
def read? (text : String) : Option (BitVec width) :=
  if (Text.trim text.toList).isEmpty then some 0
  else do
    let words ← (text.toList.splitOn '|').mapM fun part =>
      vocabulary.readPart? (Text.trim part)
    return words.foldl (· ||| ·) 0

end FlagVocabulary

end TypeProjection

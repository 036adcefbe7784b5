import TypeProjection.Signature.Compressed

/-!
# Reading with bookmarks

A cursor is a value, so a place can be kept and returned to.  This module
drives a cursor together with a stack of kept places.
-/

namespace TypeProjection.Signature

/-- A cursor and the places kept so far, the latest first. -/
structure Bookmarks where
  cursor : Cursor
  kept : List Cursor
  deriving DecidableEq, Repr

namespace Bookmarks

inductive Step where
  | byte
  | peek
  | unsigned
  | signed
  | keep
  | goBack
  | complain (reason : Malformation)
  deriving DecidableEq, Repr

inductive Answer where
  | byte (value : UInt8)
  | unsigned (value : UInt32)
  | signed (value : Int32)
  | kept (count : Nat)
  | nothingKept
  deriving DecidableEq, Repr

def start (blob : List UInt8) : Bookmarks :=
  ⟨.start blob, []⟩

def perform {α : Type} (bookmarks : Bookmarks) (read : Read α) (answer : α → Answer) :
    Except SignatureError Answer × Bookmarks :=
  let (result, cursor) := read.run bookmarks.cursor
  (result.map answer, { bookmarks with cursor })

/-- Takes one step.  Going back without a kept place changes nothing. -/
def step (bookmarks : Bookmarks) : Step → Except SignatureError Answer × Bookmarks
  | .byte => bookmarks.perform Read.byte .byte
  | .peek => bookmarks.perform Read.peek .byte
  | .unsigned => bookmarks.perform Read.unsigned .unsigned
  | .signed => bookmarks.perform Read.signed .signed
  | .keep =>
      let kept := bookmarks.cursor :: bookmarks.kept
      (.ok (.kept kept.length), { bookmarks with kept })
  | .goBack =>
      match bookmarks.kept with
      | [] => (.ok .nothingKept, bookmarks)
      | cursor :: kept => (.ok (.kept kept.length), ⟨cursor, kept⟩)
  | .complain reason => (.error (bookmarks.cursor.malformed reason), bookmarks)

def steps (bookmarks : Bookmarks) : List Step → List (Except SignatureError Answer × Bookmarks)
  | [] => []
  | next :: rest =>
      let outcome := bookmarks.step next
      outcome :: steps outcome.2 rest

end Bookmarks

end TypeProjection.Signature

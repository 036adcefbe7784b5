import TypeProjection.Proofs.Signature.Displacement
import TypeProjection.Signature.Bookmark

/-!
# A reader keeps to its blob

A reader stands somewhere in its blob, and so does every place that is kept of it.  Nothing
that is done with the reader changes this: a read passes bytes that were left, also if it fails
halfway through a number, and going back to a kept place undoes no more than the reads since.
What is read depends on nothing but the bytes that are left, so from a kept place the same is
read again.

The steps of a reader give a kept place up when they go back to it.  Here a reader may also
turn to any kept place and leave it where it is, so that copies of a reader can be put back in
any order and as often as one likes.
-/

namespace TypeProjection.Signature

open Decode

/-! ## Places of a blob -/

/-- The cursor stands in the blob: the bytes that are left are behind those that were passed. -/
def Cursor.LiesIn (blob : List UInt8) (cursor : Cursor) : Prop :=
  ∃ passed, (start blob).Passes passed cursor

namespace Cursor

variable {blob bytes : List UInt8} {cursor after : Cursor}

theorem liesIn_start (blob : List UInt8) : (start blob).LiesIn blob :=
  ⟨[], .refl (start blob)⟩

theorem LiesIn.passes (hcursor : cursor.LiesIn blob) (hpasses : cursor.Passes bytes after) :
    after.LiesIn blob := by
  obtain ⟨passed, hpassed⟩ := hcursor
  exact ⟨passed ++ bytes, hpassed.trans hpasses⟩

theorem LiesIn.offset_le (hcursor : cursor.LiesIn blob) : cursor.offset ≤ blob.length := by
  obtain ⟨passed, hpassed⟩ := hcursor
  exact hpassed.within.1

/-- What is left is what the blob has behind the offset. -/
theorem LiesIn.rest_eq (hcursor : cursor.LiesIn blob) :
    cursor.rest = blob.drop cursor.offset := by
  obtain ⟨passed, hpassed⟩ := hcursor
  exact congrArg Cursor.rest hpassed.within.2

theorem LiesIn.offset_add_remaining (hcursor : cursor.LiesIn blob) :
    cursor.offset + cursor.remaining = blob.length := by
  rw [remaining, hcursor.rest_eq, List.length_drop, Nat.add_sub_cancel' hcursor.offset_le]

theorem isAtEnd_iff (cursor : Cursor) : cursor.isAtEnd ↔ cursor.remaining = 0 := by
  rw [isAtEnd, remaining, List.isEmpty_iff, List.length_eq_zero_iff]

end Cursor

namespace Bookmarks

variable {blob : List UInt8} {bookmarks near far : Bookmarks} {next : Step} {distance : Nat}

/-! ## Steps of the reader itself -/

/-- The step concerns the cursor alone and not the places kept. -/
def Step.isOwn : Step → Bool
  | .keep => false
  | .goBack => false
  | _ => true

/-- What steps answer, and where each leaves the cursor. -/
def outcomes (bookmarks : Bookmarks) (script : List Step) :
    List (Except SignatureError Answer × Cursor) :=
  (bookmarks.steps script).map fun (answer, after) => (answer, after.cursor)

/-- The same outcome a distance further on: the offset of an error is greater by the distance,
and so is that of the cursor. -/
def aheadBy (distance : Nat) (outcome : Except SignatureError Answer × Cursor) :
    Except SignatureError Answer × Cursor :=
  (outcome.1.mapError (.ahead distance), outcome.2.ahead distance)

/-- A read that is the same further on has the same outcome there, whatever places are kept. -/
theorem perform_ahead {α : Type} {read : Read α} (answer : α → Answer)
    (hread : Displaced distance (liftM read : Decode Unit α) (liftM read))
    (hcursor : far.cursor = near.cursor.ahead distance) :
    ((far.perform read answer).1, (far.perform read answer).2.cursor) =
      aheadBy distance ((near.perform read answer).1, (near.perform read answer).2.cursor) := by
  have hrun := hread.run near.cursor
  have hresult : (read.run (near.cursor.ahead distance)).1 =
      (read.run near.cursor).1.mapError (.ahead distance) := congrArg Run.result hrun
  have hplace : (read.run (near.cursor.ahead distance)).2 =
      (read.run near.cursor).2.ahead distance := congrArg Run.cursor hrun
  rw [perform, perform, hcursor]
  simp only [aheadBy, hresult, hplace]
  rcases (read.run near.cursor).1 with error | value
  · rfl
  · rfl

theorem step_ahead (hown : next.isOwn) (hcursor : far.cursor = near.cursor.ahead distance) :
    ((far.step next).1, (far.step next).2.cursor) =
      aheadBy distance ((near.step next).1, (near.step next).2.cursor) := by
  cases next with
  | byte => exact perform_ahead .byte displaced_byte hcursor
  | peek => exact perform_ahead .byte displaced_peek hcursor
  | unsigned => exact perform_ahead .unsigned displaced_unsigned hcursor
  | signed => exact perform_ahead .signed displaced_signed hcursor
  | keep => cases hown
  | goBack => cases hown
  | complain reason =>
      rw [step, step, hcursor]
      rfl

/-- Steps of the reader itself have the same outcomes wherever the same bytes are left. -/
theorem outcomes_ahead {script : List Step} (hown : ∀ next ∈ script, next.isOwn)
    (hcursor : far.cursor = near.cursor.ahead distance) :
    far.outcomes script = (near.outcomes script).map (aheadBy distance) := by
  induction script generalizing near far with
  | nil => rfl
  | cons next script ih =>
      obtain ⟨hnext, hrest⟩ := List.forall_mem_cons.mp hown
      have hstep := step_ahead hnext hcursor
      have hafter := ih hrest (congrArg Prod.snd hstep)
      exact List.cons_eq_cons.mpr ⟨hstep, hafter⟩

/-- What the reader itself does depends on the bytes that are left: it does the same as a new
reader of these bytes, as far ahead as it stands. -/
theorem outcomes_eq {script : List Step} (hown : ∀ next ∈ script, next.isOwn)
    (bookmarks : Bookmarks) :
    bookmarks.outcomes script =
      ((start bookmarks.cursor.rest).outcomes script).map (aheadBy bookmarks.cursor.offset) :=
  outcomes_ahead hown rfl

/-- A step of the reader itself passes bytes that were left. -/
theorem passes_step (hown : next.isOwn) (bookmarks : Bookmarks) :
    ∃ bytes, bookmarks.cursor.Passes bytes (bookmarks.step next).2.cursor := by
  have hforward {α : Type} (read : Read α) (answer : α → Answer)
      (hread : Displaced 0 (liftM read : Decode Unit α) (liftM read)) :
      ∃ bytes, bookmarks.cursor.Passes bytes (bookmarks.perform read answer).2.cursor :=
    hread.forward bookmarks.cursor
  cases next with
  | byte => exact hforward Read.byte .byte displaced_byte
  | peek => exact hforward Read.peek .byte displaced_peek
  | unsigned => exact hforward Read.unsigned .unsigned displaced_unsigned
  | signed => exact hforward Read.signed .signed displaced_signed
  | keep => cases hown
  | goBack => cases hown
  | complain reason => exact ⟨[], .refl _⟩

/-- A look at the next byte leaves all as it is, also where there is none. -/
theorem step_peek (bookmarks : Bookmarks) : (bookmarks.step .peek).2 = bookmarks := by
  obtain ⟨⟨offset, _ | ⟨byte, rest⟩⟩, kept⟩ := bookmarks
  · rfl
  · rfl

theorem kept_step (hown : next.isOwn) (bookmarks : Bookmarks) :
    (bookmarks.step next).2.kept = bookmarks.kept := by
  cases next with
  | keep => cases hown
  | goBack => cases hown
  | _ => rfl

/-! ## Moves -/

/-- What is done with a reader: a step, or the return to a kept place, which stays kept. -/
inductive Move where
  | step (next : Step)
  | turnTo (index : Nat)
  deriving DecidableEq, Repr

/-- The state after a move.  Turning to a place that is not there changes nothing. -/
def move (bookmarks : Bookmarks) : Move → Bookmarks
  | .step next => (bookmarks.step next).2
  | .turnTo index => { bookmarks with cursor := bookmarks.kept.getD index bookmarks.cursor }

def after (bookmarks : Bookmarks) (moves : List Move) : Bookmarks :=
  moves.foldl move bookmarks

/-- The places where the reader and its copies stand. -/
def places (bookmarks : Bookmarks) : List Cursor :=
  bookmarks.cursor :: bookmarks.kept

/-- A move leaves every place within the blob. -/
theorem liesIn_move (hplaces : ∀ place ∈ bookmarks.places, place.LiesIn blob) (next : Move) :
    ∀ place ∈ (bookmarks.move next).places, place.LiesIn blob := by
  obtain ⟨hcursor, hkept⟩ := List.forall_mem_cons.mp hplaces
  rcases next with next | index
  · by_cases hown : next.isOwn
    · obtain ⟨bytes, hpasses⟩ := passes_step hown bookmarks
      have hsame : (bookmarks.move (.step next)).kept = bookmarks.kept := kept_step hown bookmarks
      refine List.forall_mem_cons.mpr ⟨hcursor.passes hpasses, ?_⟩
      rw [hsame]
      exact hkept
    · cases next with
      | keep => exact List.forall_mem_cons.mpr ⟨hcursor, hplaces⟩
      | goBack =>
          obtain ⟨cursor, _ | ⟨place, kept⟩⟩ := bookmarks
          · exact hplaces
          · exact hkept
      | _ => exact absurd rfl hown
  · refine List.forall_mem_cons.mpr ⟨?_, hkept⟩
    rw [move, List.getD_eq_getElem?_getD]
    cases hplace : bookmarks.kept[index]? with
    | none => exact hcursor
    | some place => exact hkept place (List.mem_of_getElem? hplace)

/-- Moves leave every place within the blob. -/
theorem liesIn_after (hplaces : ∀ place ∈ bookmarks.places, place.LiesIn blob)
    (moves : List Move) : ∀ place ∈ (bookmarks.after moves).places, place.LiesIn blob := by
  induction moves generalizing bookmarks with
  | nil => exact hplaces
  | cons next moves ih => exact ih (liesIn_move hplaces next)

/-- The steps that are taken one after another are moves. -/
theorem after_of_mem_steps {script : List Step}
    {outcome : Except SignatureError Answer × Bookmarks}
    (houtcome : outcome ∈ bookmarks.steps script) :
    ∃ moves, outcome.2 = bookmarks.after moves := by
  induction script generalizing bookmarks with
  | nil => cases houtcome
  | cons next script ih =>
      rcases List.mem_cons.mp houtcome with rfl | hlater
      · exact ⟨[.step next], rfl⟩
      · obtain ⟨moves, hmoves⟩ := ih hlater
        exact ⟨.step next :: moves, hmoves⟩

/-! ## Copies -/

/-- How many places lie above a kept one after a move, which must not give that one up. -/
def Move.above? : Move → Nat → Option Nat
  | .step .keep, above => some (above + 1)
  | .step .goBack, 0 => none
  | .step .goBack, above + 1 => some above
  | _, above => some above

/-- How many places lie above the last kept one after some moves, unless they give it up. -/
def above? (moves : List Move) : Option Nat :=
  moves.foldlM (fun above next => next.above? above) 0

variable {place : Cursor} {upper lower : List Cursor} {above : Nat}

/-- A kept place stays what it is until it is given up. -/
theorem kept_move {next : Move} (hkept : bookmarks.kept = upper ++ place :: lower)
    (habove : next.above? upper.length = some above) :
    ∃ others, (bookmarks.move next).kept = others ++ place :: lower ∧ others.length = above := by
  rcases next with next | index
  · by_cases hown : next.isOwn
    · have hsame : (bookmarks.move (.step next)).kept = bookmarks.kept := kept_step hown bookmarks
      refine ⟨upper, hsame.trans hkept, ?_⟩
      cases next with
      | keep => cases hown
      | goBack => cases hown
      | _ => exact Option.some.inj habove
    · cases next with
      | keep =>
          refine ⟨bookmarks.cursor :: upper, ?_, Option.some.inj habove⟩
          exact congrArg (bookmarks.cursor :: ·) hkept
      | goBack =>
          obtain ⟨cursor, kept⟩ := bookmarks
          obtain rfl : kept = upper ++ place :: lower := hkept
          cases upper with
          | nil => cases habove
          | cons last upper => exact ⟨upper, rfl, Option.some.inj habove⟩
      | _ => exact absurd rfl hown
  · exact ⟨upper, hkept, Option.some.inj habove⟩

theorem kept_after {moves : List Move} (hkept : bookmarks.kept = upper ++ place :: lower)
    (habove : moves.foldlM (fun above next => next.above? above) upper.length = some above) :
    ∃ others, (bookmarks.after moves).kept = others ++ place :: lower ∧
      others.length = above := by
  induction moves generalizing bookmarks upper with
  | nil => exact ⟨upper, hkept, Option.some.inj habove⟩
  | cons next moves ih =>
      rw [List.foldlM_cons] at habove
      obtain ⟨middle, hmiddle, hrest⟩ := Option.bind_eq_some_iff.mp habove
      obtain ⟨others, hothers, rfl⟩ := kept_move hkept hmiddle
      exact ih hothers hrest

/-- A copy that was taken of the reader and not given up is still there. -/
theorem kept_of_above? (bookmarks : Bookmarks) {moves : List Move}
    (habove : above? moves = some above) :
    ∃ others, ((bookmarks.step .keep).2.after moves).kept =
        others ++ bookmarks.cursor :: bookmarks.kept ∧ others.length = above := by
  have hkept : (bookmarks.step .keep).2.kept = [] ++ bookmarks.cursor :: bookmarks.kept := rfl
  exact kept_after hkept habove

theorem step_goBack (hkept : bookmarks.kept = place :: lower) :
    (bookmarks.step .goBack).2 = ⟨place, lower⟩ := by
  rw [step, hkept]

/-- A copy that is put back, wherever the reader has gone since, repeats the same reads. -/
theorem outcomes_turnTo (bookmarks : Bookmarks) {moves : List Move}
    (habove : above? moves = some above) {script : List Step}
    (hown : ∀ next ∈ script, next.isOwn) :
    (((bookmarks.step .keep).2.after moves).move (.turnTo above)).outcomes script =
      bookmarks.outcomes script := by
  obtain ⟨others, hkept, hlength⟩ := kept_of_above? bookmarks habove
  have hcursor : (((bookmarks.step .keep).2.after moves).move (.turnTo above)).cursor =
      bookmarks.cursor := by
    rw [move, hkept, ← hlength]
    simp
  rw [outcomes_eq hown, outcomes_eq hown bookmarks, hcursor]

/-- Going back to a copy undoes all that was done since it was taken. -/
theorem goBack_after (bookmarks : Bookmarks) {moves : List Move}
    (habove : above? moves = some 0) :
    (((bookmarks.step .keep).2.after moves).step .goBack).2 = bookmarks := by
  obtain ⟨others, hkept, hlength⟩ := kept_of_above? bookmarks habove
  obtain rfl := List.eq_nil_of_length_eq_zero hlength
  exact step_goBack hkept

/-! ## Keeping to the blob -/

/-- How a reader keeps to its blob. -/
structure KeepsTo (blob : List UInt8) (bookmarks : Bookmarks) : Prop where
  /-- The reader and its copies stand within the blob: the offset is not beyond the end, and it
  makes up the length together with the number of bytes that are left, which are those behind
  the offset. -/
  within : ∀ place ∈ bookmarks.places, place.offset ≤ blob.length ∧
    place.offset + place.remaining = blob.length ∧ place.rest = blob.drop place.offset
  /-- The end is reached where no bytes are left. -/
  atEnd : ∀ place ∈ bookmarks.places, place.isAtEnd ↔ place.remaining = 0
  /-- Neither a look at the next byte nor a complaint about the place moves the reader. -/
  still : (bookmarks.step .peek).2 = bookmarks ∧ ∀ reason,
    bookmarks.step (.complain reason) =
      (.error (.malformed bookmarks.cursor.offset reason), bookmarks)
  /-- A read moves the reader forward, if at all, and not beyond the end, whether it fails or
  not.  It moves over bytes that were left. -/
  forward : ∀ next : Step, next.isOwn →
    bookmarks.cursor.offset ≤ (bookmarks.step next).2.cursor.offset ∧
      (bookmarks.step next).2.cursor.offset ≤ blob.length ∧
      ∃ bytes, bookmarks.cursor.Passes bytes (bookmarks.step next).2.cursor
  /-- What is read, and how far, depends only on the bytes that are left: it is what a new
  reader of these bytes reads, but for the offset at which they start. -/
  unread : ∀ script : List Step, (∀ next ∈ script, next.isOwn) →
    bookmarks.outcomes script =
      ((start bookmarks.cursor.rest).outcomes script).map (aheadBy bookmarks.cursor.offset)
  /-- A copy that was taken of the reader and not given up repeats the same reads when it is put
  back, wherever the reader has gone since. -/
  restored : ∀ (detour : List Move) (above : Nat), above? detour = some above →
    ∀ script : List Step, (∀ next ∈ script, next.isOwn) →
      (((bookmarks.step .keep).2.after detour).move (.turnTo above)).outcomes script =
        bookmarks.outcomes script
  /-- If no other copy is kept above it, going back undoes all that was done since. -/
  undone : ∀ detour : List Move, above? detour = some 0 →
    (((bookmarks.step .keep).2.after detour).step .goBack).2 = bookmarks

/-- A reader whose places all lie in the blob keeps to it. -/
theorem keepsTo (hplaces : ∀ place ∈ bookmarks.places, place.LiesIn blob) :
    KeepsTo blob bookmarks where
  within place hplace := by
    have hlies := hplaces place hplace
    exact ⟨hlies.offset_le, hlies.offset_add_remaining, hlies.rest_eq⟩
  atEnd place _ := place.isAtEnd_iff
  still := ⟨bookmarks.step_peek, fun reason => rfl⟩
  forward next hown := by
    obtain ⟨bytes, hpasses⟩ := passes_step hown bookmarks
    have hafter := (hplaces _ List.mem_cons_self).passes hpasses
    exact ⟨hpasses.offset_le, hafter.offset_le, bytes, hpasses⟩
  unread script hown := outcomes_eq hown bookmarks
  restored detour above habove script hown := outcomes_turnTo bookmarks habove hown
  undone detour habove := goBack_after bookmarks habove

/-- Whatever is done with a reader of a blob, it keeps to the blob: after moves of any kind, and
so after each of the steps that are taken one after another. -/
theorem reader_keepsTo (blob : List UInt8) :
    (∀ moves, KeepsTo blob ((start blob).after moves)) ∧
      ∀ script, ∀ outcome ∈ (start blob).steps script, KeepsTo blob outcome.2 := by
  have hstart : ∀ place ∈ (start blob).places, place.LiesIn blob :=
    List.forall_mem_singleton.mpr (Cursor.liesIn_start blob)
  have hmoves (moves : List Move) : KeepsTo blob ((start blob).after moves) :=
    keepsTo (liesIn_after hstart moves)
  refine ⟨hmoves, ?_⟩
  intro script outcome houtcome
  obtain ⟨moves, hafter⟩ := after_of_mem_steps houtcome
  rw [hafter]
  exact hmoves moves

/-- A number is read, and the next one fails halfway through; a copy from before reads both
again. -/
theorem reader_keepsTo_reread :
    let reader := start [0x80, 0x03, 0xC0, 0x01]
    let away := (reader.step .keep).2.after [.step .unsigned, .step .signed]
    away.cursor = ⟨4, []⟩ ∧
    (away.move (.turnTo 0)).outcomes [.unsigned, .signed] =
      [(.ok (.unsigned 3), ⟨2, [0xC0, 0x01]⟩),
        (.error (.malformed 4 .unexpectedEnd), ⟨4, []⟩)] ∧
    (away.step .goBack).2 = reader := by
  intro reader away
  have hkeeps : KeepsTo _ reader := (reader_keepsTo [0x80, 0x03, 0xC0, 0x01]).1 []
  have hagain := hkeeps.restored [.step .unsigned, .step .signed] 0 rfl
    [.unsigned, .signed] (by decide)
  exact ⟨rfl, hagain.trans rfl, hkeeps.undone [.step .unsigned, .step .signed] rfl⟩

end Bookmarks

end TypeProjection.Signature

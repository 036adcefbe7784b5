import TypeProjection.Proofs.Signature.Exactness
import TypeProjection.Signature.Step

/-!
# Simulation between builders

A builder decides what becomes of a production, and nothing else of the decoder
depends on it.  The runs of any builder are therefore images of the runs of the
builder of trees, up to the first production that it declines.  There the run
stops, right behind the bytes of that production.
-/

namespace TypeProjection.Signature

variable {τ σ ρ α β γ δ : Type}

/-! ## Images -/

theorem Production.map_map (first : τ → σ) (second : σ → ρ) (production : Production τ) :
    (production.map first).map second = production.map (second ∘ first) := by
  rcases production with production | production
  · cases production <;> rfl
  · cases production <;>
      simp [Production.map, OptionalProduction.map, MethodSignature.map]

def Call.map (f : τ → σ) (call : Call τ) : Call σ :=
  ⟨call.start, call.production.map f⟩

theorem Call.map_map_calls (first : τ → σ) (second : σ → ρ) (calls : List (Call τ)) :
    (calls.map (Call.map first)).map (Call.map second) =
      calls.map (Call.map (second ∘ first)) := by
  rw [List.map_map]
  apply List.map_congr_left
  intro call _
  exact congrArg (Call.mk call.start) (Production.map_map first second call.production)

def Answer.map (f : τ → σ) : Answer τ → Answer σ
  | .type value => .type (f value)
  | .method signature => .method (signature.map f)
  | .finished => .finished

theorem Answer.map_map (first : τ → σ) (second : σ → ρ) (answer : Answer τ) :
    (answer.map first).map second = answer.map (second ∘ first) := by
  cases answer <;> simp [Answer.map, MethodSignature.map]

/-- The account of the same computation with other types: the cursor stays. -/
def Run.map (f : τ → σ) (g : α → β) (run : Run τ α) : Run σ β :=
  ⟨run.result.map g, run.cursor, run.calls.map (Call.map f)⟩

theorem Run.result_eq_error_of_map {f : τ → σ} {g : α → β} {run : Run τ α}
    {error : SignatureError} (hresult : (run.map f g).result = .error error) :
    run.result = .error error := by
  obtain ⟨failure | value, cursor, calls⟩ := run
  · exact congrArg Except.error (Except.error.inj hresult)
  · cases hresult

/-! ## Conditions on builders -/

namespace Builder

def Accepts (builder : Builder τ) (production : Production τ) : Prop :=
  ∃ value, builder.build production = .ok value

theorem accepts_map_iff {builder : Builder ρ} (first : τ → σ) (second : σ → ρ)
    (production : Production τ) :
    builder.Accepts ((production.map first).map second) ↔
      builder.Accepts (production.map (second ∘ first)) := by
  rw [Production.map_map]

/-- The builder declines a production only as the construct that it is. -/
def Honest (builder : Builder τ) : Prop :=
  ∀ production construct, builder.optional production = .error construct →
    construct = production.construct

/-- The second builder answers images of the values of the first builder with the
image of its answer, except that it may decline any optional production as the
construct that it is. -/
structure Simulates (source : Builder τ) (target : Builder σ) (image : τ → σ) : Prop where
  core : ∀ production, target.core (production.map image) = image (source.core production)
  optional : ∀ production value, source.optional production = .ok value →
    target.optional (production.map image) = .ok (image value) ∨
      target.optional (production.map image) = .error production.construct

/-- What the builder makes of a tree.  A production that it declines counts as
some type, no matter which. -/
def interpret (builder : Builder τ) : TypeTree → τ :=
  TypeTree.fold fun production =>
    match builder.build production with
    | .ok value => value
    | .error _ => builder.core (.primitive .void)

/-- On the images of trees, the builder answers with the image of the tree, or
declines an optional production as the construct that it is. -/
def Interprets (builder : Builder τ) (image : TypeTree → τ) : Prop :=
  ∀ production : Production TypeTree,
    builder.build (production.map image) = .ok (image (.node production)) ∨
      ∃ part, production = .optional part ∧
        builder.build (production.map image) = .error part.construct

theorem interpret_node {builder : Builder τ} {production : Production TypeTree} {value : τ}
    (hbuild : builder.build (production.map builder.interpret) = .ok value) :
    builder.interpret (.node production) = value := by
  rw [interpret] at hbuild ⊢
  rw [TypeTree.fold_node, hbuild]

/-- An honest builder interprets trees by what it makes of them. -/
theorem Honest.interprets {builder : Builder τ} (hhonest : builder.Honest) :
    builder.Interprets builder.interpret := by
  intro production
  cases hbuild : builder.build (production.map builder.interpret) with
  | ok value =>
      left
      rw [interpret_node hbuild]
  | error construct =>
      right
      rcases production with production | production
      · cases hbuild
      · refine ⟨production, rfl, ?_⟩
        rw [hhonest _ _ hbuild, OptionalProduction.construct_map]

theorem honest_of_accepts {builder : Builder τ}
    (haccepts : ∀ production, builder.Accepts production) : builder.Honest := by
  intro production construct hdeclined
  obtain ⟨value, hbuild⟩ := haccepts (.optional production)
  cases hdeclined.symm.trans hbuild

/-- A simulating builder interprets trees by the images of what the simulated
builder makes of them. -/
theorem Simulates.interprets {source : Builder τ} {target : Builder σ} {image : τ → σ}
    (hsimulates : source.Simulates target image)
    (haccepts : ∀ production, source.Accepts production) :
    target.Interprets (image ∘ source.interpret) := by
  intro production
  rw [← Production.map_map]
  obtain ⟨value, hbuild⟩ := haccepts (production.map source.interpret)
  rw [Function.comp_apply, interpret_node hbuild]
  rcases production with production | production
  · left
    rw [← Except.ok.inj hbuild]
    exact congrArg Except.ok (hsimulates.core _)
  · rcases hsimulates.optional _ value hbuild with hanswer | hdeclined
    · exact .inl hanswer
    · refine .inr ⟨production, rfl, ?_⟩
      rw [OptionalProduction.construct_map] at hdeclined
      exact hdeclined

theorem accepts_tree (production : Production TypeTree) : tree.Accepts production :=
  ⟨_, build_tree production⟩

/-- The builder that computes the values of trees. -/
def folding (f : Production τ → τ) : Builder τ where
  core production := f (.core production)
  optional production := .ok (f (.optional production))

theorem simulates_folding (f : Production τ → τ) :
    tree.Simulates (folding f) (TypeTree.fold f) where
  core production := (TypeTree.fold_node f (.core production)).symm
  optional production value hvalue := by
    obtain rfl := Except.ok.inj hvalue
    left
    rw [TypeTree.fold_node]
    rfl

/-- Declining further constructs leaves a simulation one. -/
theorem Simulates.declining {source : Builder τ} {target : Builder σ} {image : τ → σ}
    (hsimulates : source.Simulates target image) (declined : Construct → Bool) :
    source.Simulates (target.declining declined) image where
  core := hsimulates.core
  optional production value hvalue := by
    simp only [Builder.declining, OptionalProduction.construct_map]
    by_cases hdeclined : declined production.construct
    · right
      rw [if_pos hdeclined]
    · rw [if_neg hdeclined]
      exact hsimulates.optional production value hvalue

end Builder

/-! ## Where productions stand -/

/-- The production of a call stands between its start and the given place.  The
name of a modifier is no type of its own: it stands right behind the byte that
announces it. -/
inductive Spans (origin : Cursor) : Call TypeTree → Cursor → Prop
  | type {production : Production TypeTree} {skipped bytes : List UInt8}
      {place stop : Cursor} :
      origin.Passes skipped place → place.Passes bytes stop →
      Encodes (.node production) bytes →
        Spans origin ⟨place.offset, production⟩ stop
  | modifier {production : Production TypeTree} {skipped bytes : List UInt8} {mark : UInt8}
      {place stop : Cursor} :
      origin.Passes (skipped ++ [mark]) place → place.Passes bytes stop →
      mark = ElementType.requiredModifier.code ∨ mark = ElementType.optionalModifier.code →
      HandleForm .classType production bytes →
        Spans origin ⟨place.offset, production⟩ stop

theorem Spans.widen {origin cursor stop : Cursor} {call : Call TypeTree}
    {bytes : List UInt8} (hspans : Spans cursor call stop)
    (hpasses : origin.Passes bytes cursor) : Spans origin call stop := by
  cases hspans with
  | type hskipped hbytes hencodes => exact .type (hpasses.trans hskipped) hbytes hencodes
  | modifier hskipped hbytes hmark hform =>
      have hskipped := hpasses.trans hskipped
      rw [← List.append_assoc] at hskipped
      exact .modifier hskipped hbytes hmark hform

theorem encodes_named {form : NamedForm} {production : Production TypeTree}
    {bytes : List UInt8} (hform : HandleForm form production bytes) :
    Encodes (.node production) (form.element.code :: bytes) := by
  cases form with
  | classType => exact .of (.composite (.classType hform))
  | valueType => exact .of (.composite (.valueType hform))

/-- A named type stands from the byte of its form on. -/
theorem Spans.named {origin place middle stop : Cursor} (form : NamedForm)
    {production : Production TypeTree} {skipped bytes : List UInt8}
    (hskipped : origin.Passes skipped place) (hlead : place.Passes [form.element.code] middle)
    (hbytes : middle.Passes bytes stop) (hform : HandleForm form production bytes) :
    Spans origin ⟨place.offset, production⟩ stop :=
  .type hskipped (hlead.trans hbytes) (encodes_named hform)

/-! ## Runs that track one another -/

/-- A run of a builder against a run of the builder of trees.  Either all that
the trees are built from is accepted, and the run is the image of the other one;
or it stops at the first production that is declined. -/
inductive Tracks (builder : Builder σ) (image : TypeTree → σ) (origin : Cursor)
    (f : α → β) : Run TypeTree α → Run σ β → Prop
  | agrees {run : Run TypeTree α} :
      (∀ call ∈ run.calls, builder.Accepts (call.production.map image)) →
        Tracks builder image origin f run (run.map image f)
  | declines {run : Run TypeTree α} {before after : List (Call TypeTree)} {start : Nat}
      {production : OptionalProduction TypeTree} {stop : Cursor} :
      run.calls = before ++ ⟨start, .optional production⟩ :: after →
      (∀ call ∈ before, builder.Accepts (call.production.map image)) →
      ¬ builder.Accepts (.optional (production.map image)) →
      Spans origin ⟨start, .optional production⟩ stop →
        Tracks builder image origin f run
          ⟨.error (.unsupported start production.construct), stop,
            List.map (Call.map image) (before ++ [⟨start, .optional production⟩])⟩

namespace Tracks

variable {builder : Builder σ} {image : TypeTree → σ} {origin cursor : Cursor}

theorem widen {f : α → β} {run : Run TypeTree α} {other : Run σ β} {bytes : List UInt8}
    (htracks : Tracks builder image cursor f run other)
    (hpasses : origin.Passes bytes cursor) : Tracks builder image origin f run other := by
  cases htracks with
  | agrees hcalls => exact .agrees hcalls
  | declines hcalls hbefore hdeclined hspans =>
      exact .declines hcalls hbefore hdeclined (hspans.widen hpasses)

theorem pure (f : α → β) (value : α) :
    Tracks builder image origin f ((pure value : Decode TypeTree α).run cursor)
      ((pure (f value) : Decode σ β).run cursor) :=
  .agrees (List.forall_mem_nil _)

theorem lift (read : Read α) :
    Tracks builder image origin id ((liftM read : Decode TypeTree α).run cursor)
      ((liftM read : Decode σ α).run cursor) := by
  have hsame : (liftM read : Decode σ α).run cursor =
      ((liftM read : Decode TypeTree α).run cursor).map image id := by
    change _ = Run.mk _ _ _
    rw [Except.map_id]
    rfl
  rw [hsame]
  exact .agrees (List.forall_mem_nil _)

theorem fail (f : α → β) (error : SignatureError) :
    Tracks builder image origin f
      ((liftM (Read.fail error : Read α) : Decode TypeTree α).run cursor)
      ((liftM (Read.fail error : Read β) : Decode σ β).run cursor) :=
  .agrees (List.forall_mem_nil _)

/-- Runs that track one another go on doing so until the second one stops. -/
theorem bind {f : α → β} {g : γ → δ} {first : Decode TypeTree α} {other : Decode σ β}
    {next : α → Decode TypeTree γ} {otherNext : β → Decode σ δ}
    (hfirst : Tracks builder image origin f (first.run cursor) (other.run cursor))
    (hnext : ∀ value middle, first.Yields cursor value middle →
      Tracks builder image origin g ((next value).run middle)
        ((otherNext (f value)).run middle)) :
    Tracks builder image origin g ((first >>= next).run cursor)
      ((other >>= otherNext).run cursor) := by
  unfold Decode.Yields at hnext
  rw [Decode.run_bind, Decode.run_bind]
  generalize first.run cursor = run at hfirst hnext
  generalize other.run cursor = otherRun at hfirst
  obtain ⟨result, middle, calls⟩ := run
  cases hfirst with
  | agrees hcalls =>
      -- Nothing is declined so far, so what follows decides.
      cases result with
      | error error => exact .agrees hcalls
      | ok value =>
          have hnext := hnext value middle ⟨rfl, rfl⟩
          simp only [Run.map, Except.map]
          generalize (next value).run middle = run at hnext
          generalize (otherNext (f value)).run middle = otherRun at hnext
          cases hnext with
          | agrees hmore =>
              rw [Run.map, ← List.map_append]
              exact .agrees (List.forall_mem_append.mpr ⟨hcalls, hmore⟩)
          | @declines before after start production stop hmore hbefore hdeclined hspans =>
              have hsplit : calls ++ run.calls =
                  (calls ++ before) ++ ⟨start, .optional production⟩ :: after := by
                rw [hmore, List.append_assoc]
              rw [← List.map_append, ← List.append_assoc]
              exact .declines hsplit (List.forall_mem_append.mpr ⟨hcalls, hbefore⟩)
                hdeclined hspans
  | @declines before after start production stop hcalls hbefore hdeclined hspans =>
      -- The other run has stopped; further calls of this one only extend the list.
      cases result with
      | error error => exact .declines hcalls hbefore hdeclined hspans
      | ok value =>
          have hsplit : calls ++ ((next value).run middle).calls =
              before ++ ⟨start, .optional production⟩ ::
                (after ++ ((next value).run middle).calls) := by
            rw [show calls = _ from hcalls, List.append_assoc, List.cons_append]
          exact .declines hsplit hbefore hdeclined hspans

/-- What follows may be tracked from where it starts. -/
theorem andThen {f : α → β} {g : γ → δ} {first : Decode TypeTree α} {other : Decode σ β}
    {next : α → Decode TypeTree γ} {otherNext : β → Decode σ δ}
    {language : α → List UInt8 → Prop} (hrecognizes : first.Recognizes language)
    (hfirst : Tracks builder image cursor f (first.run cursor) (other.run cursor))
    (hnext : ∀ value middle, Tracks builder image middle g ((next value).run middle)
      ((otherNext (f value)).run middle)) :
    Tracks builder image cursor g ((first >>= next).run cursor)
      ((other >>= otherNext).run cursor) := by
  apply hfirst.bind
  intro value middle hvalue
  obtain ⟨bytes, -, hpasses⟩ := (hrecognizes _ _ _).mp hvalue
  exact (hnext value middle).widen hpasses

theorem call (hinterprets : builder.Interprets image) {start : Nat}
    {production : Production TypeTree} (hspans : Spans origin ⟨start, production⟩ cursor) :
    Tracks builder image origin image
      ((Decode.call Builder.tree start production).run cursor)
      ((Decode.call builder start (production.map image)).run cursor) := by
  rw [Decode.run_call_ok (Builder.build_tree production)]
  rcases hinterprets production with haccepted | ⟨part, rfl, hdeclined⟩
  · rw [Decode.run_call_ok haccepted]
    exact .agrees (List.forall_mem_singleton.mpr ⟨_, haccepted⟩)
  · rw [Decode.run_call_error hdeclined]
    have hrejected : ¬ builder.Accepts (.optional (part.map image)) := by
      rintro ⟨value, haccepted⟩
      cases haccepted.symm.trans hdeclined
    have hsplit : [Call.mk start (.optional part)] = [] ++ ⟨start, .optional part⟩ :: [] := rfl
    exact .declines hsplit (List.forall_mem_nil _) hrejected hspans

theorem times {f : α → β} {item : Decode TypeTree α} {other : Decode σ β}
    {language : α → List UInt8 → Prop} (hitem : item.Recognizes language)
    (htracks : ∀ cursor, Tracks builder image cursor f (item.run cursor) (other.run cursor))
    (count : Nat) (cursor : Cursor) :
    Tracks builder image cursor (List.map f) ((Signature.times count item).run cursor)
      ((Signature.times count other).run cursor) := by
  induction count generalizing cursor with
  | zero => exact pure (List.map f) []
  | succ count ih =>
      apply (htracks cursor).andThen hitem
      intro head middle
      apply (ih middle).bind
      intro tail after htail
      exact pure (List.map f) (head :: tail)

end Tracks

namespace Decode

/-! ## The decoder -/

theorem named?_map (image : τ → σ) (coded : UInt32) (form : NamedForm) :
    (named? coded form : Option (Production σ)) =
      (named? coded form : Option (Production τ)).map (Production.map image) := by
  rw [named?_eq, named?_eq]
  split
  · rfl
  split
  · rfl
  split
  · rfl
  split <;> rfl

section

variable {builder : Builder σ} {image : TypeTree → σ} {origin cursor : Cursor}

theorem tracks_named (hinterprets : builder.Interprets image) {form : NamedForm} {start : Nat}
    (hspans : ∀ production bytes stop, HandleForm form production bytes →
      cursor.Passes bytes stop → Spans origin ⟨start, production⟩ stop) :
    Tracks builder image origin image ((named Builder.tree form start).run cursor)
      ((named builder form start).run cursor) := by
  apply (Tracks.lift Read.unsigned).bind
  intro coded stop hcoded
  obtain ⟨bytes, hform, hpasses⟩ := (recognizes_unsigned _ _ _).mp hcoded
  rw [id, named?_map image]
  cases hnamed : (named? coded form : Option (Production TypeTree)) with
  | none => exact Tracks.fail image _
  | some production =>
      have hhandle : HandleForm form production bytes :=
        ⟨_, named?_eq_some_iff.mp hnamed, hform⟩
      exact Tracks.call hinterprets (hspans production bytes stop hhandle hpasses)

variable {inner : Decode TypeTree TypeTree} {other : Decode σ σ}
variable {item : TypeTree → List UInt8 → Prop}

theorem tracks_parameter
    (htracks : ∀ cursor,
      Tracks builder image cursor image (inner.run cursor) (other.run cursor))
    (cursor : Cursor) :
    Tracks builder image cursor image ((parameter inner).run cursor)
      ((parameter other).run cursor) := by
  apply (Tracks.lift Read.peek).bind
  intro next middle hpeek
  rw [(yields_peek_iff.mp hpeek).1, id]
  by_cases hsentinel : next = ElementType.sentinel.code
  · rw [if_pos hsentinel, if_pos hsentinel]
    exact Tracks.fail image _
  · rw [if_neg hsentinel, if_neg hsentinel]
    exact htracks cursor

/-- The part of a method signature that follows its number of generic parameters. -/
theorem tracks_methodTypes (hinner : inner.Recognizes item) (hitem : StartsTypes item)
    (htracks : ∀ cursor,
      Tracks builder image cursor image (inner.run cursor) (other.run cursor))
    (header : Header) (genericArity : UInt32) (cursor : Cursor) :
    Tracks builder image cursor (MethodSignature.map image)
      ((methodTypes inner header genericArity).run cursor)
      ((methodTypes other header genericArity).run cursor) := by
  have hparameter := Tracks.times (recognizes_parameter hinner hitem)
    (tracks_parameter htracks)
  apply (Tracks.lift Read.unsigned).andThen recognizes_unsigned
  intro count afterCount
  apply (htracks afterCount).andThen hinner
  intro returnType afterReturn
  apply (hparameter count.toNat afterReturn).bind
  intro parameters afterListed hlisted
  exact Tracks.pure (MethodSignature.map image) ⟨header, genericArity, returnType, parameters⟩

theorem tracks_method (hinner : inner.Recognizes item) (hitem : StartsTypes item)
    (htracks : ∀ cursor,
      Tracks builder image cursor image (inner.run cursor) (other.run cursor))
    (cursor : Cursor) :
    Tracks builder image cursor (MethodSignature.map image) ((method inner).run cursor)
      ((method other).run cursor) := by
  have htypes := tracks_methodTypes hinner hitem htracks
  rw [method_eq, method_eq]
  apply (Tracks.lift (Read.header .method)).andThen (recognizes_header .method)
  intro header afterHeader
  rw [id]
  by_cases hgeneric : header.isGeneric
  · rw [if_pos hgeneric, if_pos hgeneric]
    apply (Tracks.lift Read.unsigned).andThen recognizes_unsigned
    intro genericArity afterArity
    exact htypes header genericArity afterArity
  · rw [if_neg hgeneric, if_neg hgeneric]
    exact htypes header 0 afterHeader

/-- A production over a single part is tracked where that part is. -/
theorem tracks_called (hinterprets : builder.Interprets image) {part : Decode TypeTree α}
    {otherPart : Decode σ β} {f : α → β} {start : Nat} {wrap : α → Production TypeTree}
    {otherWrap : β → Production σ}
    (hpart : Tracks builder image origin f (part.run cursor) (otherPart.run cursor))
    (hwrap : ∀ value, (wrap value).map image = otherWrap (f value))
    (hspans : ∀ production stop,
      (part >>= fun value => call Builder.tree start (wrap value)).Yields cursor
        (.node production) stop → Spans origin ⟨start, production⟩ stop) :
    Tracks builder image origin image
      ((part >>= fun value => call Builder.tree start (wrap value)).run cursor)
      ((otherPart >>= fun value => call builder start (otherWrap value)).run cursor) := by
  apply hpart.bind
  intro value stop hvalue
  rw [← hwrap]
  apply Tracks.call hinterprets
  apply hspans
  exact hvalue.bind (by simp)

/-- The remainder of a modified type, from the place of its lead byte. -/
theorem tracks_modified (hinterprets : builder.Interprets image)
    (htracks : ∀ cursor,
      Tracks builder image cursor image (inner.run cursor) (other.run cursor))
    {element : ElementType} {isRequired : Bool}
    (helement : element = .requiredModifier ∨ element = .optionalModifier)
    (hlead : origin.Passes [element.code] cursor)
    (hspans : ∀ tree stop, (modified Builder.tree inner origin.offset isRequired).Yields
      cursor (.node tree) stop → Spans origin ⟨origin.offset, tree⟩ stop) :
    Tracks builder image origin image
      ((modified Builder.tree inner origin.offset isRequired).run cursor)
      ((modified builder other origin.offset isRequired).run cursor) := by
  have hmark : element.code = ElementType.requiredModifier.code ∨
      element.code = ElementType.optionalModifier.code := by
    rcases helement with rfl | rfl
    · exact .inl rfl
    · exact .inr rfl
  -- The modifier starts at its coded index, not at a byte for its form.
  have hnamed : Tracks builder image origin image
      ((named Builder.tree .classType cursor.offset).run cursor)
      ((named builder .classType cursor.offset).run cursor) := by
    apply tracks_named hinterprets
    intro production bytes stop hform hpasses
    rw [← List.nil_append [element.code]] at hlead
    exact .modifier hlead hpasses hmark hform
  apply hnamed.bind
  intro modifier afterName hmodifier
  obtain ⟨name, -, hpassesName⟩ := (recognizes_named _ _ _ _ _).mp hmodifier
  apply ((htracks afterName).widen (hlead.trans hpassesName)).bind
  intro unmodified stop hunmodified
  apply Tracks.call hinterprets
  apply hspans
  exact hmodifier.bind (hunmodified.bind (by simp))

theorem tracks_genericInstance (hinterprets : builder.Interprets image)
    (hinner : inner.Recognizes item)
    (htracks : ∀ cursor,
      Tracks builder image cursor image (inner.run cursor) (other.run cursor))
    {lead : List UInt8} (hlead : origin.Passes lead cursor)
    (hspans : ∀ tree stop,
      (composite Builder.tree inner origin.offset .genericInstance).Yields
        cursor (.node tree) stop → Spans origin ⟨origin.offset, tree⟩ stop) :
    Tracks builder image origin image
      ((composite Builder.tree inner origin.offset .genericInstance).run cursor)
      ((composite builder other origin.offset .genericInstance).run cursor) := by
  apply (Tracks.lift namedForm).bind
  intro form afterForm hform
  obtain ⟨_, rfl, hpassesForm⟩ := (recognizes_namedForm _ _ _).mp hform
  have hnamed : Tracks builder image origin image
      ((named Builder.tree form cursor.offset).run afterForm)
      ((named builder form cursor.offset).run afterForm) := by
    apply tracks_named hinterprets
    intro production bytes stop hname hpasses
    exact Spans.named form hlead hpassesForm hpasses hname
  apply hnamed.bind
  intro generic afterName hgeneric
  obtain ⟨name, -, hpassesName⟩ := (recognizes_named _ _ _ _ _).mp hgeneric
  apply (Tracks.lift Read.unsigned).bind
  intro count afterCount hcount
  obtain ⟨countBytes, -, hpassesCount⟩ := (recognizes_unsigned _ _ _).mp hcount
  have hpasses := ((hlead.trans hpassesForm).trans hpassesName).trans hpassesCount
  have hlisted := (Tracks.times hinner htracks count.toNat afterCount).widen hpasses
  apply tracks_called hinterprets hlisted (fun _ => rfl)
  intro production stop hyields
  apply hspans
  exact hform.bind (hgeneric.bind (hcount.bind hyields))

/-- What follows an element type, from the place of that element type. -/
theorem tracks_composite (hinterprets : builder.Interprets image)
    (hinner : inner.Recognizes item) (hitem : StartsTypes item)
    (htracks : ∀ cursor,
      Tracks builder image cursor image (inner.run cursor) (other.run cursor))
    {element : ElementType} (hlead : origin.Passes [element.code] cursor)
    (hspans : ∀ tree stop,
      (composite Builder.tree inner origin.offset element).Yields
        cursor (.node tree) stop → Spans origin ⟨origin.offset, tree⟩ stop) :
    Tracks builder image origin image
      ((composite Builder.tree inner origin.offset element).run cursor)
      ((composite builder other origin.offset element).run cursor) := by
  have helement := (htracks cursor).widen hlead
  have hindex : Tracks builder image origin id
      ((liftM Read.unsigned : Decode TypeTree UInt32).run cursor)
      ((liftM Read.unsigned : Decode σ UInt32).run cursor) := Tracks.lift Read.unsigned
  cases element with
  | pointer => exact tracks_called hinterprets helement (fun _ => rfl) hspans
  | vector => exact tracks_called hinterprets helement (fun _ => rfl) hspans
  | byReference => exact tracks_called hinterprets helement (fun _ => rfl) hspans
  | pinned => exact tracks_called hinterprets helement (fun _ => rfl) hspans
  | typeVariable => exact tracks_called hinterprets hindex (fun _ => rfl) hspans
  | methodVariable => exact tracks_called hinterprets hindex (fun _ => rfl) hspans
  | array =>
      apply helement.bind
      intro element middle helement
      have hdimensions : Tracks builder image origin id
          ((liftM Read.dimensions : Decode TypeTree Dimensions).run middle)
          ((liftM Read.dimensions : Decode σ Dimensions).run middle) :=
        Tracks.lift Read.dimensions
      apply tracks_called hinterprets hdimensions (fun _ => rfl)
      intro production stop hyields
      exact hspans production stop (helement.bind hyields)
  | classType =>
      apply tracks_named hinterprets
      intro production bytes stop hform hpasses
      exact Spans.named .classType (.refl origin) hlead hpasses hform
  | valueType =>
      apply tracks_named hinterprets
      intro production bytes stop hform hpasses
      exact Spans.named .valueType (.refl origin) hlead hpasses hform
  | genericInstance =>
      exact tracks_genericInstance hinterprets hinner htracks hlead hspans
  | functionPointer =>
      have hmethod := (tracks_method hinner hitem htracks cursor).widen hlead
      exact tracks_called hinterprets hmethod (fun _ => rfl) hspans
  | requiredModifier =>
      exact tracks_modified hinterprets htracks (.inl rfl) hlead hspans
  | optionalModifier =>
      exact tracks_modified hinterprets htracks (.inr rfl) hlead hspans
  | typedReference => exact Tracks.fail image _
  | sentinel => exact Tracks.fail image _

end

variable {builder : Builder σ} {image : TypeTree → σ}

theorem tracks_typeWithin (hinterprets : builder.Interprets image) (levels : Nat)
    (cursor : Cursor) :
    Tracks builder image cursor image ((typeWithin Builder.tree levels).run cursor)
      ((typeWithin builder levels).run cursor) := by
  induction levels generalizing cursor with
  | zero => exact Tracks.fail image _
  | succ levels ih =>
      have hinner := recognizes_typeWithin levels
      apply (Tracks.lift Read.byte).bind
      intro lead middle hread
      have hlead := yields_byte_iff.mp hread
      rw [id]
      cases hprimitive : Primitive.ofCode? lead with
      | some code =>
          obtain rfl := Primitive.ofCode?_eq_some_iff.mp hprimitive
          have hencodes : Encodes (.node (.core (.primitive code))) [code.code] :=
            .of (.primitive code)
          exact Tracks.call hinterprets (.type (.refl cursor) hlead hencodes)
      | none =>
          simp only
          cases hcode : ElementType.ofCode? lead with
          | none => exact Tracks.fail image _
          | some element =>
              obtain rfl := ElementType.ofCode?_eq_some_iff.mp hcode
              -- A declined composite spans the bytes that the trees recognize.
              apply tracks_composite hinterprets hinner startsTypes_encodes ih hlead
              intro tree stop hyields
              obtain ⟨bytes, hform, hpasses⟩ :=
                (recognizes_composite hinner startsTypes_encodes _ _ _ _ _).mp hyields
              have hencodes := Encodes.of (.composite (compositeForm_and_iff.mp hform).1)
              exact .type (.refl cursor) (hlead.trans hpasses) hencodes

/-- The whole of a signature is tracked as its body is. -/
theorem tracks_whole {f : α → β} {body : Decode TypeTree α} {other : Decode σ β}
    (htracks : ∀ cursor, Tracks builder image cursor f (body.run cursor) (other.run cursor))
    (cursor : Cursor) :
    Tracks builder image cursor f
      ((do
        let value ← body
        Read.finish
        return value : Decode TypeTree α).run cursor)
      ((do
        let value ← other
        Read.finish
        return value : Decode σ β).run cursor) := by
  apply (htracks cursor).bind
  intro value middle hvalue
  apply (Tracks.lift Read.finish).bind
  intro _ after hfinish
  exact Tracks.pure f value

/-- The runs of any builder track those of the builder of trees. -/
theorem tracks_entry (hinterprets : builder.Interprets image) (signature : Entry)
    (cursor : Cursor) :
    Tracks builder image cursor (Answer.map image) ((entry Builder.tree signature).run cursor)
      ((entry builder signature).run cursor) := by
  have htype := tracks_typeWithin hinterprets maxNesting
  cases signature with
  | type =>
      apply (tracks_whole htype cursor).bind
      intro value after hvalue
      exact Tracks.pure (Answer.map image) (.type value)
  | field =>
      have hheader := recognizes_header (τ := TypeTree) .field
      have hfield (cursor : Cursor) : Tracks builder image cursor image
          ((wholeField Builder.tree).run cursor) ((wholeField builder).run cursor) := by
        apply (Tracks.lift (Read.header .field)).andThen hheader
        intro header middle
        exact tracks_whole htype middle
      apply (hfield cursor).bind
      intro value after hvalue
      exact Tracks.pure (Answer.map image) (.type value)
  | method =>
      have hmethod := tracks_method (recognizes_typeWithin maxNesting) startsTypes_encodes htype
      apply (tracks_whole hmethod cursor).bind
      intro value after hvalue
      exact Tracks.pure (Answer.map image) (.method value)

end Decode

theorem Run.map_map (first : τ → σ) (second : σ → ρ) (run : Run τ (Answer τ)) :
    (run.map first (Answer.map first)).map second (Answer.map second) =
      run.map (second ∘ first) (Answer.map (second ∘ first)) := by
  obtain ⟨result, cursor, calls⟩ := run
  simp only [Run.map, Call.map_map_calls]
  cases result with
  | error error => rfl
  | ok answer => simp only [Except.map, Answer.map_map]

/-- The runs of a builder that accepts everything are images of the runs of the
builder of trees. -/
theorem entry_eq_map {source : Builder τ} (haccepts : ∀ production, source.Accepts production)
    (signature : Entry) (cursor : Cursor) :
    (Decode.entry source signature).run cursor =
      ((Decode.entry Builder.tree signature).run cursor).map source.interpret
        (Answer.map source.interpret) := by
  have hinterprets := (Builder.honest_of_accepts haccepts).interprets
  have htracks := Decode.tracks_entry hinterprets signature cursor
  generalize (Decode.entry source signature).run cursor = other at htracks
  cases htracks with
  | agrees => rfl
  | declines _ _ hdeclined _ => exact absurd (haccepts _) hdeclined

/-- A builder that simulates one that accepts everything receives the images of the
same calls and answers with the image of the same result, unless it declines some
production.  Then it receives the images of the calls up to the first one that it
declines, which is the result, at the start of that production; and the run stops
right behind the bytes of the production, whatever follows them. -/
theorem entry_simulates {source : Builder τ} {target : Builder σ} {image : τ → σ}
    (haccepts : ∀ production, source.Accepts production)
    (hsimulates : source.Simulates target image) (signature : Entry) (cursor : Cursor) :
    let run := (Decode.entry source signature).run cursor
    let other := (Decode.entry target signature).run cursor
    ((∀ call ∈ run.calls, target.Accepts (call.production.map image)) →
      other = run.map image (Answer.map image)) ∧
    ((∃ call ∈ run.calls, ¬ target.Accepts (call.production.map image)) →
      ∃ before start production after,
        run.calls = before ++ ⟨start, .optional production⟩ :: after ∧
        (∀ call ∈ before, target.Accepts (call.production.map image)) ∧
        ¬ target.Accepts (.optional (production.map image)) ∧
        other.calls = (before ++ [⟨start, .optional production⟩]).map (Call.map image) ∧
        other.result = .error (.unsupported start production.construct) ∧
        ∃ tree : OptionalProduction TypeTree, tree.map source.interpret = production ∧
          Spans cursor ⟨start, .optional tree⟩ other.cursor) := by
  intro run other
  have hrun : run = _ := entry_eq_map haccepts signature cursor
  have hinterprets := hsimulates.interprets haccepts
  have htracks := Decode.tracks_entry hinterprets signature cursor
  clear_value run
  subst hrun
  generalize (Decode.entry Builder.tree signature).run cursor = tree at htracks
  change Tracks _ _ _ _ _ other at htracks
  clear_value other
  cases htracks with
  | agrees hcalls =>
      have haccepted : ∀ call ∈ tree.calls.map (Call.map source.interpret),
          target.Accepts (call.production.map image) := by
        rw [List.forall_mem_map]
        intro call hcall
        exact (Builder.accepts_map_iff _ _ _).mpr (hcalls call hcall)
      refine ⟨fun _ => (Run.map_map _ _ tree).symm, ?_⟩
      rintro ⟨call, hcall, hdeclined⟩
      exact absurd (haccepted call hcall) hdeclined
  | @declines before after start production stop hcalls hbefore hdeclined hspans =>
      have hsplit : tree.calls.map (Call.map source.interpret) =
          before.map (Call.map source.interpret) ++
            ⟨start, .optional (production.map source.interpret)⟩ ::
              after.map (Call.map source.interpret) := by
        rw [hcalls, List.map_append]
        rfl
      have hrejected : ¬ target.Accepts
          (.optional ((production.map source.interpret).map image)) := fun haccepted =>
        hdeclined ((Builder.accepts_map_iff source.interpret image (.optional production)).mp
          haccepted)
      constructor
      · intro haccepted
        have hmember : Call.mk start (.optional (production.map source.interpret)) ∈
            tree.calls.map (Call.map source.interpret) := by
          rw [hsplit]
          exact List.mem_append_right _ List.mem_cons_self
        exact absurd (haccepted _ hmember) hrejected
      · intro _
        refine ⟨_, start, _, _, hsplit, ?_, hrejected, ?_, ?_, production, rfl, hspans⟩
        · rw [List.forall_mem_map]
          intro call hcall
          exact (Builder.accepts_map_iff _ _ _).mpr (hbefore call hcall)
        · rw [← Call.map_map_calls, List.map_append]
          rfl
        · rw [OptionalProduction.construct_map]

/-- A pointer to a vector, for a builder that measures the nesting and declines
vectors.  The trailing byte is never met. -/
theorem entry_simulates_folding_vector :
    let nesting (production : Production Nat) := 1 + production.inner.foldr max 0
    ((Decode.entry ((Builder.folding nesting).declining (· == .vector)) .type).run
      (.start [0x0F, 0x1D, 0x08, 0xFF])).result = .error (.unsupported 1 .vector) := by
  intro nesting
  have hsimulates := (Builder.simulates_folding nesting).declining (· == .vector)
  obtain ⟨-, hdeclined⟩ := entry_simulates Builder.accepts_tree hsimulates .type
    (.start [0x0F, 0x1D, 0x08, 0xFF])
  have hcalls : ((Decode.entry Builder.tree .type).run
      (.start [0x0F, 0x1D, 0x08, 0xFF])).calls =
        [⟨2, .core (.primitive .int32)⟩,
          ⟨1, .optional (.vector (.node (.core (.primitive .int32))))⟩,
          ⟨0, .core (.pointer (.node (.optional
            (.vector (.node (.core (.primitive .int32)))))))⟩] := rfl
  rw [hcalls] at hdeclined
  obtain ⟨before, start, production, after, hsplit, -, -, -, hresult, -⟩ := hdeclined
    ⟨_, List.mem_cons_of_mem _ List.mem_cons_self, by rintro ⟨value, ⟨⟩⟩⟩
  rw [hresult]
  rcases before with _ | ⟨first, _ | ⟨second, rest⟩⟩
  · cases hsplit
  · cases hsplit
    rfl
  · simp [List.cons_eq_append_iff] at hsplit

end TypeProjection.Signature

import TypeProjection.Metadata.Registry
import TypeProjection.Projection.Naming

/-!
# Qualified names of nested types

The types that enclose a type form a chain of links, which may end, break off at a
handle without a row, or lead back into itself.  A type has a qualified name exactly
if its chain ends; otherwise the first link at fault is named.  Either way no row is
looked up twice, so the rows of a registry bound the climb.
-/

namespace TypeProjection

open TypeProjection.Metadata TypeProjection.Source

namespace Enclosure

variable {kind : Kind} (link? : TypedHandle kind → Option (Link kind))

/-! ## Chains of links -/

/-- The handle that a number of links leads to. -/
def ancestor? : Nat → TypedHandle kind → Option (TypedHandle kind)
  | 0, handle => some handle
  | steps + 1, handle => ((link? handle).bind Link.outer?).bind (ancestor? steps)

/-- The handle is one of `passed` or is reached in fewer steps. -/
def Met (passed : List (TypedHandle kind)) (handle : TypedHandle kind) (steps : Nat)
    (ancestor : TypedHandle kind) : Prop :=
  ancestor ∈ passed ∨ ∃ earlier < steps, ancestor? link? earlier handle = some ancestor

/-- The handle that is reached in so many steps names no row or was met before. -/
def Faults (passed : List (TypedHandle kind)) (handle : TypedHandle kind) (steps : Nat)
    (ancestor : TypedHandle kind) : Prop :=
  ancestor? link? steps handle = some ancestor ∧
    (link? ancestor = none ∨ Met link? passed handle steps ancestor)

/-- The segments of the name are the names of the rows along the chain, the name of
the outermost row first. -/
structure Spells (handle : TypedHandle kind) (name : DottedName) : Prop where
  isGlobal : name.isGlobal = false
  segments : ∀ steps, name.segments.reverse[steps]? =
    ((ancestor? link? steps handle).bind link?).map Link.name

/-- What a climb comes to: the name that the whole chain spells, or the first handle
at fault. -/
inductive Settles (passed : List (TypedHandle kind)) (handle : TypedHandle kind) :
    Except (TypedHandle kind) DottedName → Prop
  | named {name : DottedName} :
      Spells link? handle name → (∃ steps, ancestor? link? steps handle = none) →
      (∀ steps ancestor, ¬ Faults link? passed handle steps ancestor) →
        Settles passed handle (.ok name)
  | stopped {steps : Nat} {ancestor : TypedHandle kind} :
      Faults link? passed handle steps ancestor →
      (∀ earlier < steps, ∀ other, ¬ Faults link? passed handle earlier other) →
        Settles passed handle (.error ancestor)

variable {link?} {passed : List (TypedHandle kind)} {handle outer ancestor : TypedHandle kind}
variable {name : String} {steps : Nat}

theorem ancestor?_succ (hlink : link? handle = some ⟨name, some outer⟩) (steps : Nat) :
    ancestor? link? (steps + 1) handle = ancestor? link? steps outer := by
  rw [ancestor?, hlink]
  rfl

theorem ancestor?_succ_eq_none (hlink : (link? handle).bind Link.outer? = none)
    (steps : Nat) : ancestor? link? (steps + 1) handle = none := by
  rw [ancestor?, hlink]
  rfl

/-- What links pass on holds of every handle of a chain. -/
theorem ancestor?_induction {property : TypedHandle kind → Prop}
    (hlinks : ∀ known link next, property known → link? known = some link →
      link.outer? = some next → property next)
    (hhandle : property handle) (hreached : ancestor? link? steps handle = some ancestor) :
    property ancestor := by
  induction steps generalizing handle with
  | zero =>
      obtain rfl := Option.some.inj hreached
      exact hhandle
  | succ steps ih =>
      obtain ⟨next, hnext, hreached⟩ := Option.bind_eq_some_iff.mp hreached
      obtain ⟨link, hlink, houter⟩ := Option.bind_eq_some_iff.mp hnext
      exact ih (hlinks handle link next hhandle hlink houter) hreached

@[simp]
theorem met_zero_iff : Met link? passed handle 0 ancestor ↔ ancestor ∈ passed := by
  simp [Met]

theorem met_succ_iff (hlink : link? handle = some ⟨name, some outer⟩) :
    Met link? passed handle (steps + 1) ancestor ↔
      Met link? (handle :: passed) outer steps ancestor := by
  constructor
  · intro hmet
    rcases hmet with hpassed | ⟨earlier, hearlier, hreached⟩
    · exact .inl (List.mem_cons_of_mem _ hpassed)
    cases earlier with
    | zero =>
        obtain rfl := Option.some.inj hreached
        exact .inl List.mem_cons_self
    | succ earlier =>
        rw [ancestor?_succ hlink] at hreached
        exact .inr ⟨earlier, Nat.lt_of_succ_lt_succ hearlier, hreached⟩
  · intro hmet
    rcases hmet with hpassed | ⟨earlier, hearlier, hreached⟩
    · rcases List.mem_cons.mp hpassed with rfl | hpassed
      · exact .inr ⟨0, Nat.succ_pos steps, rfl⟩
      · exact .inl hpassed
    · rw [← ancestor?_succ hlink] at hreached
      exact .inr ⟨earlier + 1, Nat.succ_lt_succ hearlier, hreached⟩

theorem not_faults_zero {link : Link kind} (hfresh : handle ∉ passed)
    (hlink : link? handle = some link) : ¬ Faults link? passed handle 0 ancestor := by
  intro hfaults
  obtain ⟨hreached, hfault⟩ := hfaults
  obtain rfl := Option.some.inj hreached
  rw [hlink, met_zero_iff] at hfault
  exact hfresh (hfault.resolve_left (Option.some_ne_none link))

theorem faults_succ_iff (hlink : link? handle = some ⟨name, some outer⟩) :
    Faults link? passed handle (steps + 1) ancestor ↔
      Faults link? (handle :: passed) outer steps ancestor := by
  rw [Faults, Faults]
  rw [ancestor?_succ hlink, met_succ_iff hlink]

/-- Without a further link, only the first handle can be at fault. -/
theorem not_faults_succ (hlink : (link? handle).bind Link.outer? = none) :
    ¬ Faults link? passed handle (steps + 1) ancestor := by
  intro hfaults
  have hreached := hfaults.1
  rw [ancestor?_succ_eq_none hlink] at hreached
  cases hreached

/-! ## Climbs -/

section

variable {distinct : passed.Nodup}

theorem climb_repeated (hpassed : handle ∈ passed) :
    climb link? passed distinct handle = .repeated handle := by
  rw [climb, dif_pos hpassed]

theorem climb_unresolved (hfresh : handle ∉ passed) (hlink : link? handle = none) :
    climb link? passed distinct handle = .unresolved handle := by
  rw [climb, dif_neg hfresh, hlink]

theorem climb_outermost (hfresh : handle ∉ passed) (hlink : link? handle = some ⟨name, none⟩) :
    climb link? passed distinct handle = .outermost handle name := by
  rw [climb, dif_neg hfresh, hlink]

theorem climb_inside (hfresh : handle ∉ passed)
    (hlink : link? handle = some ⟨name, some outer⟩) :
    climb link? passed distinct handle =
      .inside handle name
        (climb link? (handle :: passed) (List.nodup_cons.mpr ⟨hfresh, distinct⟩) outer) := by
  rw [climb, dif_neg hfresh, hlink]

end

/-! ## Names -/

theorem spells_simple (hlink : link? handle = some ⟨name, none⟩) :
    Spells link? handle (.simple name) where
  isGlobal := rfl
  segments steps := by
    cases steps with
    | zero =>
        change some name = (link? handle).map Link.name
        rw [hlink]
        rfl
    | succ steps =>
        rw [ancestor?_succ_eq_none (by rw [hlink]; rfl)]
        rfl

theorem Spells.member {enclosing : DottedName}
    (hlink : link? handle = some ⟨name, some outer⟩)
    (hspells : Spells link? outer enclosing) :
    Spells link? handle (enclosing.member name) where
  isGlobal := hspells.isGlobal
  segments steps := by
    have hsegments : (enclosing.member name).segments.reverse =
        name :: enclosing.segments.reverse := List.reverse_concat
    rw [hsegments]
    cases steps with
    | zero =>
        change some name = (link? handle).map Link.name
        rw [hlink]
        rfl
    | succ steps =>
        rw [ancestor?_succ hlink]
        exact hspells.segments steps

/-- One more link in front keeps what the rest of the climb comes to. -/
theorem Settles.inside {result : Except (TypedHandle kind) DottedName}
    (hfresh : handle ∉ passed) (hlink : link? handle = some ⟨name, some outer⟩)
    (hsettles : Settles link? (handle :: passed) outer result) :
    Settles link? passed handle (result.map fun enclosing => enclosing.member name) := by
  have hzero (other : TypedHandle kind) : ¬ Faults link? passed handle 0 other :=
    not_faults_zero hfresh hlink
  cases hsettles with
  | named hspells hends hsound =>
      apply Settles.named (hspells.member hlink)
      · obtain ⟨steps, hnone⟩ := hends
        exact ⟨steps + 1, (ancestor?_succ hlink steps).trans hnone⟩
      · intro steps ancestor hfaults
        cases steps with
        | zero => exact hzero ancestor hfaults
        | succ steps => exact hsound steps ancestor ((faults_succ_iff hlink).mp hfaults)
  | stopped hfaults hfirst =>
      apply Settles.stopped ((faults_succ_iff hlink).mpr hfaults)
      intro earlier hearlier other hother
      cases earlier with
      | zero => exact hzero other hother
      | succ earlier =>
          exact hfirst earlier (Nat.lt_of_succ_lt_succ hearlier) other
            ((faults_succ_iff hlink).mp hother)

theorem settles_first (hfaults : Faults link? passed handle 0 ancestor) :
    Settles link? passed handle (.error ancestor) := by
  apply Settles.stopped hfaults
  intro earlier hearlier
  exact absurd hearlier (Nat.not_lt_zero earlier)

/-- A climb spells the chain or stops at the first handle at fault. -/
theorem climb_settles (link? : TypedHandle kind → Option (Link kind))
    (passed : List (TypedHandle kind)) (distinct : passed.Nodup)
    (handle : TypedHandle kind) :
    Settles link? passed handle (climb link? passed distinct handle).name? := by
  fun_induction climb link? passed distinct handle with
  | case1 passed distinct handle hpassed => exact settles_first ⟨rfl, .inr (.inl hpassed)⟩
  | case2 passed distinct handle hfresh hlink => exact settles_first ⟨rfl, .inl hlink⟩
  | case3 passed distinct handle hfresh name hlink =>
      have houter : (link? handle).bind Link.outer? = none := by
        rw [hlink]
        rfl
      apply Settles.named (spells_simple hlink) ⟨1, ancestor?_succ_eq_none houter 0⟩
      intro steps ancestor
      cases steps with
      | zero => exact not_faults_zero hfresh hlink
      | succ steps => exact not_faults_succ houter
  | case4 passed distinct handle hfresh name outer hlink ih =>
      exact ih.inside hfresh hlink

/-! ## Look-ups -/

/-- No handle that is reached in up to so many steps was met before. -/
def Unmet (link? : TypedHandle kind → Option (Link kind)) (passed : List (TypedHandle kind))
    (handle : TypedHandle kind) (steps : Nat) : Prop :=
  ∀ earlier ≤ steps, ∀ other, ancestor? link? earlier handle = some other →
    ¬ Met link? passed handle earlier other

theorem unmet_zero_iff : Unmet link? passed handle 0 ↔ handle ∉ passed := by
  constructor
  · intro hunmet hpassed
    exact hunmet 0 (Nat.le_refl 0) handle rfl (.inl hpassed)
  · intro hfresh earlier hearlier other hother hmet
    obtain rfl := Nat.le_zero.mp hearlier
    obtain rfl := Option.some.inj hother
    exact hfresh (met_zero_iff.mp hmet)

theorem unmet_succ_iff (hfresh : handle ∉ passed)
    (hlink : link? handle = some ⟨name, some outer⟩) :
    Unmet link? passed handle (steps + 1) ↔ Unmet link? (handle :: passed) outer steps := by
  constructor
  · intro hunmet earlier hearlier other hother hmet
    rw [← ancestor?_succ hlink] at hother
    exact hunmet (earlier + 1) (Nat.succ_le_succ hearlier) other hother
      ((met_succ_iff hlink).mpr hmet)
  · intro hunmet earlier hearlier other hother hmet
    cases earlier with
    | zero => exact unmet_zero_iff.mpr hfresh 0 (Nat.le_refl 0) other hother hmet
    | succ earlier =>
        rw [ancestor?_succ hlink] at hother
        exact hunmet earlier (Nat.le_of_succ_le_succ hearlier) other hother
          ((met_succ_iff hlink).mp hmet)

/-- A climb that starts at a new handle looks it up first. -/
theorem head_lookup_iff {rest : List (TypedHandle kind)} (hfresh : handle ∉ passed) :
    (handle :: rest)[0]? = some ancestor ↔
      ancestor? link? 0 handle = some ancestor ∧ Unmet link? passed handle 0 := by
  rw [unmet_zero_iff]
  exact (and_iff_left hfresh).symm

theorem no_further_lookup_iff (hlink : (link? handle).bind Link.outer? = none) :
    [handle][steps + 1]? = some ancestor ↔
      ancestor? link? (steps + 1) handle = some ancestor ∧
        Unmet link? passed handle (steps + 1) := by
  rw [ancestor?_succ_eq_none hlink]
  simp

/-- The rows that a climb looks up are those along the chain, up to the first handle
that was met before. -/
theorem climb_lookups (link? : TypedHandle kind → Option (Link kind))
    (passed : List (TypedHandle kind)) (distinct : passed.Nodup)
    (handle : TypedHandle kind) (steps : Nat) (ancestor : TypedHandle kind) :
    (climb link? passed distinct handle).lookups[steps]? = some ancestor ↔
      ancestor? link? steps handle = some ancestor ∧ Unmet link? passed handle steps := by
  fun_induction climb link? passed distinct handle generalizing steps with
  | case1 passed distinct handle hpassed =>
      constructor
      · intro hnone
        cases hnone
      · intro hreached
        exact absurd (.inl hpassed) (hreached.2 0 (Nat.zero_le steps) handle rfl)
  | case2 passed distinct handle hfresh hlink =>
      cases steps with
      | zero => exact head_lookup_iff hfresh
      | succ steps =>
          apply no_further_lookup_iff
          rw [hlink]
          rfl
  | case3 passed distinct handle hfresh name hlink =>
      cases steps with
      | zero => exact head_lookup_iff hfresh
      | succ steps =>
          apply no_further_lookup_iff
          rw [hlink]
          rfl
  | case4 passed distinct handle hfresh name outer hlink ih =>
      cases steps with
      | zero => exact head_lookup_iff hfresh
      | succ steps =>
          rw [ancestor?_succ hlink, unmet_succ_iff hfresh hlink]
          exact ih steps

theorem of_lookups (link? : TypedHandle kind → Option (Link kind))
    (handle : TypedHandle kind) (steps : Nat) (ancestor : TypedHandle kind) :
    (of link? handle).lookups[steps]? = some ancestor ↔
      ancestor? link? steps handle = some ancestor ∧ Unmet link? [] handle steps :=
  climb_lookups link? [] List.nodup_nil handle steps ancestor

/-- No row is looked up twice. -/
theorem nodup_lookups (link? : TypedHandle kind → Option (Link kind))
    (handle : TypedHandle kind) : (of link? handle).lookups.Nodup := by
  rw [List.nodup_iff_pairwise_ne, List.pairwise_iff_getElem]
  intro earlier later hearlier hlater hlt hsame
  have hfirst := (of_lookups link? handle earlier _).mp (List.getElem?_eq_getElem hearlier)
  have hsecond := (of_lookups link? handle later _).mp (List.getElem?_eq_getElem hlater)
  rw [hsame] at hfirst
  exact hsecond.2 later (Nat.le_refl later) _ hsecond.1 (.inr ⟨earlier, hlt, hfirst.1⟩)

/-- The last link of a chain leads on from the handle before it. -/
theorem ancestor?_last (link? : TypedHandle kind → Option (Link kind)) (steps : Nat)
    (handle : TypedHandle kind) :
    ancestor? link? (steps + 1) handle =
      (ancestor? link? steps handle).bind fun last => (link? last).bind Link.outer? := by
  induction steps generalizing handle with
  | zero => exact Option.bind_fun_some ((link? handle).bind Link.outer?)
  | succ steps ih =>
      calc
        ancestor? link? (steps + 2) handle =
            ((link? handle).bind Link.outer?).bind (ancestor? link? (steps + 1)) := rfl
        _ = ((link? handle).bind Link.outer?).bind fun outer =>
              (ancestor? link? steps outer).bind fun last =>
                (link? last).bind Link.outer? := by rw [funext ih]
        _ = (ancestor? link? (steps + 1) handle).bind fun last =>
              (link? last).bind Link.outer? := (Option.bind_assoc _ _ _).symm

/-- All handles that are looked up but the last one name rows. -/
theorem link_of_mem_dropLast {known : TypedHandle kind}
    (hknown : known ∈ (of link? handle).lookups.dropLast) : ∃ link, link? known = some link := by
  obtain ⟨steps, hsteps, rfl⟩ := List.mem_iff_getElem.mp hknown
  rw [List.length_dropLast] at hsteps
  have hnext : steps + 1 < (of link? handle).lookups.length := by omega
  have hhere := List.getElem?_eq_getElem (Nat.lt_of_succ_lt hnext)
  have hreached := ((of_lookups _ _ _ _).mp hhere).1
  have hfurther := ((of_lookups _ _ _ _).mp (List.getElem?_eq_getElem hnext)).1
  rw [ancestor?_last, hreached, Option.bind_some] at hfurther
  obtain ⟨link, hlink, -⟩ := Option.bind_eq_some_iff.mp hfurther
  rw [List.getElem_dropLast]
  exact ⟨link, hlink⟩

/-- Where rows are numbered up to a count, a climb looks up at most one handle more. -/
theorem length_lookups_le {count : Nat}
    (hcount : ∀ known link, link? known = some link →
      1 ≤ known.row.toNat ∧ known.row.toNat ≤ count) :
    (of link? handle).lookups.length ≤ count + 1 := by
  have hdistinct : ((of link? handle).lookups.dropLast.map fun known =>
      known.row.toNat).Nodup := by
    have hnodup := (nodup_lookups link? handle).sublist (List.dropLast_sublist _)
    refine List.Pairwise.map _ (fun left right hdifferent hsame => hdifferent ?_) hnodup
    cases left
    cases right
    exact congrArg TypedHandle.mk (UInt32.toNat_inj.mp hsame)
  have hrows : ((of link? handle).lookups.dropLast.map fun known => known.row.toNat) ⊆
      List.range' 1 count := by
    intro row hrow
    obtain ⟨known, hknown, rfl⟩ := List.mem_map.mp hrow
    obtain ⟨link, hlink⟩ := link_of_mem_dropLast hknown
    have hrange := hcount known link hlink
    rw [List.mem_range'_1]
    omega
  have hlength := hdistinct.length_le_of_subset hrows
  rw [List.length_map, List.length_dropLast, List.length_range'] at hlength
  omega

end Enclosure

/-! ## Qualification -/

namespace Metadata

theorem TypedHandle.index?_eq_some {kind : Kind} {handle : TypedHandle kind}
    {position : Nat} (hposition : handle.index? = some position) :
    handle.row.toNat = position + 1 := by
  rw [index?] at hposition
  by_cases hnil : handle.row = 0
  · rw [if_pos hnil] at hposition
    cases hposition
  · rw [if_neg hnil] at hposition
    have hrow : handle.row.toNat ≠ 0 := fun hzero => hnil (UInt32.toNat_inj.mp hzero)
    have hsame := Option.some.inj hposition
    omega

theorem Registry.row_of_link? {registry : Registry} {kind : Kind}
    {handle : TypedHandle kind} {link : Link kind}
    (hlink : registry.image.link? kind handle = some link) :
    1 ≤ handle.row.toNat ∧ handle.row.toNat ≤ registry.rowCount kind := by
  have hrow {position count : Nat} (hposition : handle.index? = some position)
      (hbound : position < count) : 1 ≤ handle.row.toNat ∧ handle.row.toNat ≤ count := by
    have hnumber := TypedHandle.index?_eq_some hposition
    omega
  cases kind with
  | typeDefinition =>
      obtain ⟨row, hfound, -⟩ := Option.map_eq_some_iff.mp hlink
      obtain ⟨position, hposition, hdefinition⟩ := Option.bind_eq_some_iff.mp hfound
      exact hrow hposition (Array.getElem?_eq_some_iff.mp hdefinition).1
  | typeReference =>
      obtain ⟨row, hfound, -⟩ := Option.map_eq_some_iff.mp hlink
      obtain ⟨position, hposition, hreference⟩ := Option.bind_eq_some_iff.mp hfound
      exact hrow hposition (Array.getElem?_eq_some_iff.mp hreference).1
  | _ => cases hlink

end Metadata

namespace Enclosure

variable {kind : Kind} (link? : TypedHandle kind → Option (Link kind))

/-- What qualifying a type gives, by the chain of the types that enclose it. -/
structure Qualifies (handle : TypedHandle kind)
    (result : Except ProjectionError DottedName) : Prop where
  /-- It succeeds exactly if every handle of the chain names a row and the chain ends
  without repeating a handle. -/
  succeeds : (∃ name, result = .ok name) ↔
    (∀ steps ancestor, ancestor? link? steps handle = some ancestor →
      (∃ link, link? ancestor = some link) ∧
        ∀ earlier < steps, ancestor? link? earlier handle ≠ some ancestor) ∧
    ∃ steps, ancestor? link? steps handle = none
  /-- The name is spelled by the chain. -/
  spelled : ∀ name, result = .ok name → Spells link? handle name
  /-- Otherwise the first handle at fault is named. -/
  stopped : (¬ ∃ name, result = .ok name) →
    ∃ steps ancestor, Faults link? [] handle steps ancestor ∧
      (∀ earlier < steps, ∀ other, ¬ Faults link? [] handle earlier other) ∧
      result = .error (.dangling ⟨kind, ancestor.row⟩)

variable {link?} {handle : TypedHandle kind}

theorem not_faults_iff {steps : Nat} {ancestor : TypedHandle kind}
    (hreached : ancestor? link? steps handle = some ancestor) :
    ¬ Faults link? [] handle steps ancestor ↔
      (∃ link, link? ancestor = some link) ∧
        ∀ earlier < steps, ancestor? link? earlier handle ≠ some ancestor := by
  simp [Faults, Met, hreached, Option.ne_none_iff_exists']

theorem qualifies_of_settles {result : Except (TypedHandle kind) DottedName}
    (hsettles : Settles link? [] handle result)
    (hrows : ∀ steps ancestor, ancestor? link? steps handle = some ancestor →
      ancestor.row ≤ maxRow) :
    Qualifies link? handle (result.mapError fun link => .dangling link.toHandle) := by
  cases hsettles with
  | @named name hspells hends hsound =>
      refine ⟨⟨fun _ => ⟨?_, hends⟩, fun _ => ⟨name, rfl⟩⟩, ?_, ?_⟩
      · intro steps ancestor hreached
        exact (not_faults_iff hreached).mp (hsound steps ancestor)
      · intro other hother
        cases hother
        exact hspells
      · intro hfails
        exact absurd ⟨name, rfl⟩ hfails
  | @stopped steps ancestor hfaults hfirst =>
      have hhandle : ancestor.toHandle = ⟨kind, ancestor.row⟩ :=
        Handle.ofRow_eq kind (hrows steps ancestor hfaults.1)
      refine ⟨⟨?_, ?_⟩, ?_, ?_⟩
      · intro hname
        obtain ⟨name, hname⟩ := hname
        cases hname
      · intro hchain
        have hsound := hchain.1 steps ancestor hfaults.1
        exact absurd hfaults ((not_faults_iff hfaults.1).mpr hsound)
      · intro name hname
        cases hname
      · intro _
        refine ⟨steps, ancestor, hfaults, hfirst, ?_⟩
        rw [← hhandle]
        rfl

end Enclosure

namespace Metadata.Image

open Enclosure

theorem qualifiedName_eq (image : Image) {kind : Kind}
    (hkind : kind = .typeDefinition ∨ kind = .typeReference) (handle : TypedHandle kind) :
    image.qualifiedName ⟨kind, handle.row⟩ =
      (Enclosure.of (image.link? kind) handle).name?.mapError
        fun link => .dangling link.toHandle := by
  rcases hkind with rfl | rfl
  · rfl
  · rfl

theorem qualifiedName_of_unrecognized (image : Image) (handle : Handle)
    (hkind : ¬ (handle.kind = .typeDefinition ∨ handle.kind = .typeReference)) :
    image.qualifiedName handle = .error (.unrecognizedKind handle.kind) := by
  obtain ⟨kind, row⟩ := handle
  cases kind with
  | typeDefinition => exact absurd (.inl rfl) hkind
  | typeReference => exact absurd (.inr rfl) hkind
  | _ => rfl

/-- Qualifying a type climbs its chain on every image.  The climb looks up the handles
of the chain one after another, up to the first that was met before; over a registry it
looks up at most one handle more than there are rows of that kind. -/
theorem qualifiedName_qualifies (image : Image) {kind : Kind}
    (hkind : kind = .typeDefinition ∨ kind = .typeReference) (handle : TypedHandle kind)
    (hrows : ∀ steps ancestor, ancestor? (image.link? kind) steps handle = some ancestor →
      ancestor.row ≤ maxRow) :
    Qualifies (image.link? kind) handle (image.qualifiedName ⟨kind, handle.row⟩) ∧
      (∀ steps ancestor,
        (Enclosure.of (image.link? kind) handle).lookups[steps]? = some ancestor ↔
          ancestor? (image.link? kind) steps handle = some ancestor ∧
            Unmet (image.link? kind) [] handle steps) ∧
      ∀ registry : Registry, image = registry.image →
        (Enclosure.of (image.link? kind) handle).lookups.length ≤
          registry.rowCount kind + 1 := by
  have hsettles := climb_settles (image.link? kind) [] List.nodup_nil handle
  have hqualifies := qualifies_of_settles hsettles hrows
  refine ⟨?_, of_lookups (image.link? kind) handle, ?_⟩
  · rcases hkind with rfl | rfl
    · exact hqualifies
    · exact hqualifies
  · intro registry hregistry
    apply length_lookups_le
    intro known link hlink
    rw [hregistry] at hlink
    exact registry.row_of_link? hlink

/-- Two definitions that declare one another: the climb from the second comes back to it
and stops there. -/
theorem qualifiedName_qualifies_cycle :
    let registry := ((Registry.empty.addNested ⟨2⟩ "A" ⟨0⟩).2.addNested ⟨1⟩ "B" ⟨0⟩).2
    registry.image.qualifiedName ⟨.typeDefinition, 2⟩ =
      .error (.dangling ⟨.typeDefinition, 2⟩) := by
  intro registry
  have hfirst : registry.image.link? .typeDefinition ⟨1⟩ = some ⟨"A", some ⟨2⟩⟩ := rfl
  have hsecond : registry.image.link? .typeDefinition ⟨2⟩ = some ⟨"B", some ⟨1⟩⟩ := rfl
  have hlinks : ∀ known link next, known = ⟨1⟩ ∨ known = ⟨2⟩ →
      registry.image.link? .typeDefinition known = some link → link.outer? = some next →
        next = ⟨1⟩ ∨ next = ⟨2⟩ := by
    intro known link next hknown hlink hnext
    rcases hknown with rfl | rfl
    · cases hfirst.symm.trans hlink
      exact .inr (Option.some.inj hnext).symm
    · cases hsecond.symm.trans hlink
      exact .inl (Option.some.inj hnext).symm
  have hrows : ∀ steps ancestor,
      ancestor? (registry.image.link? .typeDefinition) steps ⟨2⟩ = some ancestor →
        ancestor.row ≤ maxRow := by
    intro steps ancestor hreached
    rcases ancestor?_induction hlinks (.inr rfl) hreached with rfl | rfl
    · decide
    · decide
  obtain ⟨hqualifies, -⟩ := qualifiedName_qualifies registry.image (.inl rfl) ⟨2⟩ hrows
  have hback : ancestor? (registry.image.link? .typeDefinition) 2 ⟨2⟩ = some ⟨2⟩ := rfl
  have hfails : ¬ ∃ name, registry.image.qualifiedName ⟨.typeDefinition, 2⟩ = .ok name := by
    intro hname
    have hchain := (hqualifies.succeeds.mp hname).1
    exact (hchain 2 ⟨2⟩ hback).2 0 (by decide) rfl
  obtain ⟨steps, ancestor, hfaults, hearliest, herror⟩ := hqualifies.stopped hfails
  -- The handle that is reached first comes back in two steps, and not before.
  have hsteps : steps ≤ 2 := by
    apply Nat.le_of_not_lt
    intro hlarge
    have hreturns : Met (registry.image.link? .typeDefinition) [] ⟨2⟩ 2 ⟨2⟩ :=
      .inr ⟨0, by decide, rfl⟩
    exact hearliest 2 hlarge ⟨2⟩ ⟨hback, .inr hreturns⟩
  refine herror.trans ?_
  match steps, hsteps, hfaults with
  | 0, _, hfaults =>
      obtain rfl := Option.some.inj hfaults.1
      rfl
  | 1, _, hfaults =>
      obtain rfl := Option.some.inj hfaults.1
      rcases hfaults.2 with hnone | ⟨⟨⟩⟩ | ⟨earlier, hearlier, hreached⟩
      · cases hfirst.symm.trans hnone
      · obtain rfl := Nat.lt_one_iff.mp hearlier
        cases hreached
  | 2, _, hfaults =>
      obtain rfl := Option.some.inj hfaults.1
      rfl

end Metadata.Image

end TypeProjection

import TypeProjection.Proofs.Metadata.Growth
import TypeProjection.Proofs.Projection.Orthogonality

/-!
# Registries that are built in order

Where every enclosing type is added before the types inside it, links lead to smaller
row numbers.  Climbing them never comes back and never misses a row, so every handle that
was returned has a qualified name, spelled by the names along its chain, and whatever is
built from these handles can be rendered.
-/

namespace TypeProjection

open TypeProjection.Metadata TypeProjection.Source

namespace Metadata.Registry

namespace Addition

def name : Addition → String
  | definition _ name _ => name
  | nested _ name _ => name
  | reference _ _ name => name
  | external _ name => name

/-- The handle of the type that encloses the row: the definition that declares it, or its
scope if that is a reference. -/
def outer? : Addition → Option Handle
  | definition _ _ _ => none
  | nested declaring _ _ => some ⟨.typeDefinition, declaring.row⟩
  | reference scope _ _ => if scope.kind = .typeReference then some scope else none
  | external _ _ => none

end Addition

/-- Whatever encloses an added row was returned by an earlier addition. -/
def InOrder (history : List (Addition × Handle)) : Prop :=
  ∀ earlier addition handle later, history = earlier ++ (addition, handle) :: later →
    ∀ outer, addition.outer? = some outer → ∃ known ∈ earlier, known.2 = outer

/-- The names of the additions that a handle was returned for and is enclosed by, the
outermost one first. -/
inductive Path (history : List (Addition × Handle)) : Handle → List String → Prop
  | outermost {addition : Addition} {handle : Handle} :
      (addition, handle) ∈ history → addition.outer? = none →
        Path history handle [addition.name]
  | inside {addition : Addition} {handle outer : Handle} {path : List String} :
      (addition, handle) ∈ history → addition.outer? = some outer →
        Path history outer path → Path history handle (path ++ [addition.name])

variable {registry : Registry} {addition : Addition} {additions : List Addition}
  {history : List (Addition × Handle)} {handle outer : Handle} {path : List String}

/-! ## Links -/

/-- What encloses a row is of the same kind. -/
theorem outer_kind (houter : addition.outer? = some outer) : outer.kind = addition.kind := by
  cases addition with
  | nested declaring name attributes =>
      obtain rfl := Option.some.inj houter
      rfl
  | reference scope namespaceName name =>
      obtain ⟨hscope, hsame⟩ := Option.ite_none_right_eq_some.mp houter
      obtain rfl := Option.some.inj hsame
      exact hscope
  | _ => cases houter

/-- A returned handle has the link that its addition asks for. -/
theorem link?_of_mem_history (hfits : (registry.addAll additions).Fits)
    (hadded : (addition, handle) ∈ registry.history additions) :
    (registry.addAll additions).image.link? handle.kind ⟨handle.row⟩ =
      some ⟨addition.name, addition.outer?.map fun outer => ⟨outer.row⟩⟩ := by
  obtain ⟨hkind, -⟩ := row_of_mem_history hfits hadded
  obtain ⟨kind, row⟩ := handle
  obtain rfl : kind = addition.kind := hkind
  cases addition with
  | definition namespaceName name attributes =>
      have hrow := definition?_of_mem_history hfits hadded rfl
      exact congrArg (Option.map _) hrow
  | nested declaring name attributes =>
      have hrow := definition?_of_mem_history hfits hadded rfl
      exact congrArg (Option.map _) hrow
  | reference scope namespaceName name =>
      have hrow := reference?_of_mem_history hfits hadded rfl
      have henclosing : (if scope.kind = .typeReference then
            some (⟨scope.row⟩ : ReferenceHandle) else none) =
          (Addition.reference scope namespaceName name).outer?.map fun outer => ⟨outer.row⟩ := by
        rw [Addition.outer?]
        by_cases hscope : scope.kind = .typeReference
        · simp [hscope]
        · simp [hscope]
      exact (congrArg (Option.map _) hrow).trans
        (congrArg (fun outer? => some (Link.mk name outer?)) henclosing)
  | external namespaceName name =>
      have hrow := reference?_of_mem_history hfits hadded rfl
      exact congrArg (Option.map _) hrow

/-- In a registry that is built in order, what encloses a row was returned too and has a
smaller row number. -/
theorem InOrder.descends (hordered : InOrder (registry.history additions))
    (hfits : (registry.addAll additions).Fits)
    (hadded : (addition, handle) ∈ registry.history additions)
    (houter : addition.outer? = some outer) :
    (∃ known, (known, outer) ∈ registry.history additions) ∧
      outer.kind = handle.kind ∧ outer.row < handle.row := by
  obtain ⟨earlier, later, hhistory⟩ := List.append_of_mem hadded
  obtain ⟨known, hknown, hreturned⟩ := hordered earlier addition handle later hhistory outer houter
  have hkind : outer.kind = handle.kind :=
    (outer_kind houter).trans (row_of_mem_history hfits hadded).1.symm
  have hascending := history_ascending hfits
  rw [hhistory] at hascending ⊢
  have hbefore := (List.pairwise_append.mp hascending).2.2 known hknown _ List.mem_cons_self
  rw [hreturned] at hbefore
  refine ⟨⟨known.1, ?_⟩, hkind, hbefore hkind⟩
  rw [← hreturned]
  exact List.mem_append_left _ hknown

/-- Every handle that was returned has a path. -/
theorem InOrder.exists_path (hordered : InOrder (registry.history additions))
    (hfits : (registry.addAll additions).Fits)
    (hadded : (addition, handle) ∈ registry.history additions) :
    ∃ path, Path (registry.history additions) handle path := by
  induction hrow : handle.row.toNat using Nat.strongRecOn generalizing addition handle with
  | ind row ih =>
      cases houter : addition.outer? with
      | none => exact ⟨_, .outermost hadded houter⟩
      | some outer =>
          obtain ⟨⟨known, hknown⟩, -, hless⟩ := hordered.descends hfits hadded houter
          rw [UInt32.lt_iff_toNat_lt, hrow] at hless
          obtain ⟨path, hpath⟩ := ih outer.row.toNat hless hknown rfl
          exact ⟨path ++ [addition.name], .inside hadded houter hpath⟩

/-! ## Names -/

open Enclosure

/-- A climb from a returned handle spells its path.  All handles that were passed have
larger row numbers, so none of them is met again. -/
theorem InOrder.climb_path (hordered : InOrder (registry.history additions))
    (hfits : (registry.addAll additions).Fits)
    (hpath : Path (registry.history additions) handle path)
    {passed : List (TypedHandle handle.kind)} {distinct : passed.Nodup}
    (hpassed : ∀ known ∈ passed, handle.row < known.row) :
    ∃ name, (climb ((registry.addAll additions).image.link? handle.kind) passed distinct
        ⟨handle.row⟩).name? = .ok name ∧
      name.isGlobal = false ∧ name.segments = path := by
  induction hpath with
  | @outermost addition handle hadded houter =>
      have hlink := link?_of_mem_history hfits hadded
      rw [houter] at hlink
      have hfresh : ⟨handle.row⟩ ∉ passed := fun hmember =>
        UInt32.lt_irrefl _ (hpassed _ hmember)
      rw [climb_outermost hfresh hlink]
      exact ⟨.simple addition.name, rfl, rfl, rfl⟩
  | @inside addition handle outer path hadded houter hrest ih =>
      have hlink := link?_of_mem_history hfits hadded
      rw [houter] at hlink
      have hfresh : ⟨handle.row⟩ ∉ passed := fun hmember =>
        UInt32.lt_irrefl _ (hpassed _ hmember)
      obtain ⟨-, hkind, hless⟩ := hordered.descends hfits hadded houter
      obtain ⟨kind, row⟩ := handle
      obtain ⟨outerKind, outerRow⟩ := outer
      obtain rfl : outerKind = kind := hkind
      have hinner : ∀ known ∈ (⟨row⟩ : TypedHandle outerKind) :: passed, outerRow < known.row := by
        intro known hknown
        rcases List.mem_cons.mp hknown with rfl | hknown
        · exact hless
        · exact UInt32.lt_trans hless (hpassed known hknown)
      obtain ⟨name, hname, hglobal, rfl⟩ :=
        @ih (⟨row⟩ :: passed) (List.nodup_cons.mpr ⟨hfresh, distinct⟩) hinner
      rw [climb_inside hfresh hlink]
      exact ⟨name.member addition.name, congrArg (Except.map _) hname, hglobal, rfl⟩

/-- The qualified name of a returned handle is its path. -/
theorem InOrder.qualifiedName_path (hordered : InOrder (registry.history additions))
    (hfits : (registry.addAll additions).Fits)
    (hadded : (addition, handle) ∈ registry.history additions)
    (hpath : Path (registry.history additions) handle path) :
    ∃ name, (registry.addAll additions).image.qualifiedName handle = .ok name ∧
      name.isGlobal = false ∧ name.segments = path := by
  have hrecognized : handle.kind = .typeDefinition ∨ handle.kind = .typeReference := by
    rw [(row_of_mem_history hfits hadded).1]
    exact addition.kind_cases
  obtain ⟨name, hname, hspelled⟩ := hordered.climb_path hfits hpath (List.forall_mem_nil _)
  have hqualified := Image.qualifiedName_eq (registry.addAll additions).image hrecognized
    ⟨handle.row⟩
  rw [Enclosure.of, hname] at hqualified
  exact ⟨name, hqualified, hspelled⟩

end Metadata.Registry

open Metadata.Registry

/-- A returned handle is resolved in every setting over the registry. -/
theorem Metadata.Registry.InOrder.resolves {registry : Registry} {additions : List Addition}
    (hordered : InOrder (registry.history additions))
    (hfits : (registry.addAll additions).Fits) {entry : Addition × Handle}
    (hadded : entry ∈ registry.history additions) {setting : RenderSetting}
    (himage : setting.image = (registry.addAll additions).image) :
    setting.Resolves entry.2 := by
  obtain ⟨path, hpath⟩ := hordered.exists_path hfits hadded
  obtain ⟨name, hname, -⟩ := hordered.qualifiedName_path hfits hadded hpath
  rw [← himage] at hname
  constructor
  · exact ⟨name.leaf, (Image.qualifiedName_leaf hname).1⟩
  · exact fun _ => ⟨name, hname⟩

/-- A registry that is built in order, with row numbers that fit into tokens, always
renders.  Every descriptor of a primitive type or of a returned handle is rendered in
every setting over the registry.  The qualified name of a returned handle consists of the
names that were passed for the types that enclose it, the outermost one first, and of
its own. -/
theorem Metadata.Registry.render_of_inOrder {additions : List Addition}
    (hfits : (Registry.empty.addAll additions).Fits)
    (hordered : InOrder (Registry.empty.history additions)) :
    let history := Registry.empty.history additions
    let image := (Registry.empty.addAll additions).image
    (∀ (setting : RenderSetting) (descriptor : Descriptor), setting.image = image →
      ((∃ code, descriptor.leaf = .primitive code) ∨
        ∃ entry ∈ history, descriptor.leaf = .named entry.2) →
          ∃ type, (descriptor.render setting).result = .ok type) ∧
    ∀ entry ∈ history, (∃ path, Path history entry.2 path) ∧
      ∀ path, Path history entry.2 path →
        ∃ name, image.qualifiedName entry.2 = .ok name ∧ name.segments = path ∧
          name.text = ".".intercalate path := by
  intro history image
  constructor
  · intro setting descriptor himage hleaf
    apply Descriptor.render_ok_iff.mpr
    intro handle hnamed
    rw [hnamed] at hleaf
    rcases hleaf with ⟨code, hprimitive⟩ | ⟨entry, hadded, hreturned⟩
    · cases hprimitive
    · obtain rfl := Descriptor.named.inj hreturned
      exact hordered.resolves hfits hadded himage
  · intro entry hadded
    refine ⟨hordered.exists_path hfits hadded, ?_⟩
    intro path hpath
    obtain ⟨name, hname, hglobal, hsegments⟩ :=
      hordered.qualifiedName_path hfits hadded hpath
    refine ⟨name, hname, hsegments, ?_⟩
    rw [DottedName.text, hglobal, hsegments]
    exact String.empty_append

/-- A definition in two others, and a reference that is added in between. -/
theorem Metadata.Registry.render_of_inOrder_nested :
    let additions : List Addition := [.definition "Audio" "Outer" ⟨0⟩,
      .nested ⟨1⟩ "Middle" ⟨0⟩, .external "Audio" "Other", .nested ⟨2⟩ "Inner" ⟨0⟩]
    let image := (Registry.empty.addAll additions).image
    (∃ type, ((Descriptor.named ⟨.typeReference, 1⟩).render
      ⟨image, .builtin, .marshaled, ⟨0x08⟩⟩).result = .ok type) ∧
    ∃ name, image.qualifiedName ⟨.typeDefinition, 3⟩ = .ok name ∧
      name.text = "Outer.Middle.Inner" := by
  intro additions image
  have hhistory : Registry.empty.history additions =
      [(.definition "Audio" "Outer" ⟨0⟩, ⟨.typeDefinition, 1⟩),
        (.nested ⟨1⟩ "Middle" ⟨0⟩, ⟨.typeDefinition, 2⟩),
        (.external "Audio" "Other", ⟨.typeReference, 1⟩),
        (.nested ⟨2⟩ "Inner" ⟨0⟩, ⟨.typeDefinition, 3⟩)] := by
    rfl
  have hordered : InOrder (Registry.empty.history additions) := by
    rw [hhistory]
    intro earlier addition handle later hsplit outer houter
    match earlier with
    | [] =>
        cases hsplit
        cases houter
    | [_] =>
        cases hsplit
        obtain rfl := Option.some.inj houter
        exact ⟨_, List.mem_cons_self, rfl⟩
    | [_, _] =>
        cases hsplit
        cases houter
    | [_, _, _] =>
        cases hsplit
        obtain rfl := Option.some.inj houter
        exact ⟨_, List.mem_cons_of_mem _ List.mem_cons_self, rfl⟩
    | _ :: _ :: _ :: _ :: _ => simp at hsplit
  have hfits : (Registry.empty.addAll additions).Fits := ⟨by decide, by decide⟩
  have houter : Path (Registry.empty.history additions) ⟨.typeDefinition, 1⟩ ["Outer"] :=
    @Path.outermost _ (.definition "Audio" "Outer" ⟨0⟩) _ (by simp [hhistory]) rfl
  have hmiddle : Path (Registry.empty.history additions) ⟨.typeDefinition, 2⟩
      ["Outer", "Middle"] :=
    @Path.inside _ (.nested ⟨1⟩ "Middle" ⟨0⟩) _ _ _ (by simp [hhistory]) rfl houter
  have hinner : Path (Registry.empty.history additions) ⟨.typeDefinition, 3⟩
      ["Outer", "Middle", "Inner"] :=
    @Path.inside _ (.nested ⟨2⟩ "Inner" ⟨0⟩) _ _ _ (by simp [hhistory]) rfl hmiddle
  obtain ⟨hrenders, hnames⟩ := render_of_inOrder hfits hordered
  constructor
  · apply hrenders _ _ rfl
    exact .inr ⟨(.external "Audio" "Other", ⟨.typeReference, 1⟩), by simp [hhistory], rfl⟩
  · have hlast : (.nested ⟨2⟩ "Inner" ⟨0⟩, ⟨.typeDefinition, 3⟩) ∈
        Registry.empty.history additions := by
      simp [hhistory]
    obtain ⟨name, hname, -, htext⟩ := (hnames _ hlast).2 _ hinner
    exact ⟨name, hname, htext⟩

end TypeProjection

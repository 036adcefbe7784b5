import TypeProjection.Proofs.Metadata.Growth

/-!
# Registries refine their histories

A registry is known by the additions that were made and the handles that were returned for
them.  The rows of each kind form a list that is only appended to, numbered from one, and
the index answers with the first definition at top level that was added under a namespace
and a name.  Whatever a registry is asked is read off its history in these terms.
-/

namespace TypeProjection.Metadata.Registry

/-- The namespace and the name under which the row can be found, if it is a definition at
top level. -/
def Addition.key? : Addition → Option (String × String)
  | definition namespaceName name _ => some (namespaceName, name)
  | nested _ _ _ => none
  | reference _ _ _ => none
  | external _ _ => none

/-- The handles that were returned for rows of a kind, in the order of their additions. -/
def returned (history : List (Addition × Handle)) (kind : Kind) : List Handle :=
  (history.filter fun entry => entry.1.kind = kind).map Prod.snd

variable {registry : Registry} {addition : Addition} {additions : List Addition}

/-! ## Numbers -/

theorem returned_cons (entry : Addition × Handle) (history : List (Addition × Handle))
    (kind : Kind) :
    returned (entry :: history) kind =
      if entry.1.kind = kind then entry.2 :: returned history kind
      else returned history kind := by
  by_cases hkind : entry.1.kind = kind
  · rw [if_pos hkind, returned, List.filter_cons_of_pos (by simpa using hkind)]
    rfl
  · rw [if_neg hkind, returned, List.filter_cons_of_neg (by simpa using hkind)]
    rfl

/-- A history has the additions in their order. -/
theorem history_additions (registry : Registry) (additions : List Addition) :
    (registry.history additions).map Prod.fst = additions := by
  induction additions generalizing registry with
  | nil => rfl
  | cons first additions ih => exact congrArg (first :: ·) (ih (registry.add first).2)

theorem rowCount_addAll (registry : Registry) (additions : List Addition) (kind : Kind) :
    (registry.addAll additions).rowCount kind =
      registry.rowCount kind + additions.countP fun addition => addition.kind = kind := by
  induction additions generalizing registry with
  | nil => rfl
  | cons first additions ih =>
      calc
        (registry.addAll (first :: additions)).rowCount kind =
            (registry.add first).2.rowCount kind +
              additions.countP fun addition => addition.kind = kind :=
          ih (registry.add first).2
        _ = registry.rowCount kind +
              (first :: additions).countP fun addition => addition.kind = kind := by
          rw [rowCount_add, List.countP_cons, Nat.add_assoc, Nat.add_comm (ite _ _ _)]
          simp only [decide_eq_true_eq]

/-- The handles of a kind go on from the rows that were there before, one by one.  Additions
of the other kind leave no gap. -/
theorem returned_history (hfits : (registry.addAll additions).Fits) (kind : Kind) :
    returned (registry.history additions) kind =
      (List.range' (registry.rowCount kind + 1)
        (additions.countP fun addition => addition.kind = kind)).map
          fun row => ⟨kind, UInt32.ofNat row⟩ := by
  induction additions generalizing registry with
  | nil => rfl
  | cons first additions ih =>
      have hfirst : (registry.add first).2.Fits :=
        ((registry.add first).2.addAll_extends additions).fits hfits
      have hlaterFits : ((registry.add first).2.addAll additions).Fits := hfits
      rw [history, returned_cons, ih hlaterFits, rowCount_add, List.countP_cons]
      by_cases hkind : first.kind = kind
      · simp only [hkind, if_true, decide_true]
        rw [List.range'_succ, List.map_cons, add_handle hfirst, hkind]
      · simp only [hkind, if_false, decide_false, Nat.add_zero, Bool.false_eq_true]

/-- The handles of a registry that was built from nothing are those with the numbers of its
rows. -/
theorem returned_empty_history (hfits : (empty.addAll additions).Fits) (kind : Kind) :
    returned (empty.history additions) kind =
      (List.range' 1 ((empty.addAll additions).rowCount kind)).map
        fun row => ⟨kind, UInt32.ofNat row⟩ := by
  have hempty : empty.rowCount kind = 0 := by
    cases kind <;> rfl
  rw [returned_history hfits, rowCount_addAll, hempty, Nat.zero_add, Nat.zero_add]

theorem mem_returned_iff (hfits : (empty.addAll additions).Fits) (handle : Handle) :
    handle ∈ returned (empty.history additions) handle.kind ↔
      (empty.addAll additions).HasRow handle := by
  rw [returned_empty_history hfits, List.mem_map]
  constructor
  · rintro ⟨row, hrow, hhandle⟩
    rw [List.mem_range'_1] at hrow
    have hcount := hfits.rowCount_lt handle.kind
    have hnumber : handle.row.toNat = row := by
      rw [← congrArg Handle.row hhandle]
      exact toNat_ofNat_row (by omega)
    rw [HasRow, hnumber]
    omega
  · intro hrow
    refine ⟨handle.row.toNat, ?_, ?_⟩
    · rw [List.mem_range'_1]
      exact ⟨hrow.1, by have := hrow.2; omega⟩
    · rw [UInt32.ofNat_toNat]

/-! ## The index -/

/-- A handle that is returned has the row of the handle that is indexed. -/
theorem lastHandle_toHandle_row {kind : Kind} (count : Nat) :
    (lastHandle count : TypedHandle kind).toHandle.row =
      (lastHandle count : TypedHandle kind).row := by
  change (UInt32.ofNatClamp count &&& maxRow) &&& maxRow = UInt32.ofNatClamp count &&& maxRow
  rw [UInt32.and_assoc, UInt32.and_self]

/-- An addition is found under its key if nothing was found there before. -/
theorem find?_add (registry : Registry) (addition : Addition) (namespaceName name : String) :
    (registry.add addition).2.find? namespaceName name =
      (registry.find? namespaceName name).or
        (if addition.key? = some (namespaceName, name) then
          some ⟨(registry.add addition).1.row⟩
        else none) := by
  cases addition with
  | definition addedNamespace addedName attributes =>
      change (registry.index.insertIfNew (addedNamespace, addedName) _)[(namespaceName, name)]? = _
      rw [Std.HashMap.getElem?_insertIfNew]
      simp only [Addition.key?, Option.some.injEq, beq_iff_eq]
      by_cases hkey : (addedNamespace, addedName) = (namespaceName, name)
      · rw [hkey, if_pos rfl, find?]
        cases hfound : registry.index[(namespaceName, name)]? with
        | none =>
            have hnew : (namespaceName, name) ∉ registry.index := by
              rw [Std.HashMap.mem_iff_isSome_getElem?, hfound]
              exact Bool.false_ne_true
            rw [if_pos ⟨rfl, hnew⟩]
            exact congrArg (fun row => some (TypedHandle.mk row))
              (lastHandle_toHandle_row _).symm
        | some handle =>
            have hold : (namespaceName, name) ∈ registry.index := by
              rw [Std.HashMap.mem_iff_isSome_getElem?, hfound]
              rfl
            rw [if_neg fun hnew => hnew.2 hold]
            rfl
      · rw [if_neg hkey, if_neg fun hnew => hkey hnew.1, Option.or_none]
        rfl
  | _ => simp [add, addNested, addReference, addExternal, append, find?, Addition.key?]

/-- The first addition with a key is found, behind what was found before. -/
theorem find?_addAll (registry : Registry) (additions : List Addition)
    (namespaceName name : String) :
    (registry.addAll additions).find? namespaceName name =
      (registry.find? namespaceName name).or
        (((registry.history additions).find? fun entry =>
          entry.1.key? = some (namespaceName, name)).map fun entry => ⟨entry.2.row⟩) := by
  induction additions generalizing registry with
  | nil => exact Option.or_none.symm
  | cons first additions ih =>
      calc
        (registry.addAll (first :: additions)).find? namespaceName name =
            ((registry.add first).2.find? namespaceName name).or
              ((((registry.add first).2.history additions).find? fun entry =>
                entry.1.key? = some (namespaceName, name)).map fun entry => ⟨entry.2.row⟩) :=
          ih (registry.add first).2
        _ = _ := by
          rw [find?_add, Option.or_assoc, history, List.find?_cons]
          by_cases hkey : first.key? = some (namespaceName, name)
          · simp [hkey]
          · simp [hkey]

/-- What can be found under a key is a definition at top level with these names. -/
theorem definitionRow?_of_key? {namespaceName name : String}
    (hkey : addition.key? = some (namespaceName, name)) :
    ∃ attributes, addition.definitionRow? = some ⟨name, namespaceName, attributes, none⟩ := by
  cases addition with
  | definition addedNamespace addedName attributes =>
      cases hkey
      exact ⟨attributes, rfl⟩
  | _ => cases hkey

/-! ## Histories -/

/-- Marking attributes as nested sets one bit and keeps all others. -/
theorem getLsbD_union_nestedPublic (attributes : TypeAttributes) (bit : Nat) :
    (attributes.union .nestedPublic).bits.getLsbD bit =
      (decide (bit = 1) || attributes.bits.getLsbD bit) := by
  have hmark : TypeAttributes.nestedPublic.bits = BitVec.twoPow 32 1 := rfl
  rw [TypeAttributes.union, hmark, BitVec.getLsbD_or, BitVec.getLsbD_twoPow, Bool.or_comm]
  simp [eq_comm]

/-- What a registry answers, by the history of its additions. -/
structure Refines (registry : Registry) (history : List (Addition × Handle)) : Prop where
  /-- The handles of a kind are numbered from one, whatever is added of the other kind. -/
  numbered : ∀ kind position handle, (returned history kind)[position]? = some handle →
    handle.kind = kind ∧ handle.row.toNat = position + 1
  /-- There are as many rows of a kind as handles of it were returned. -/
  counted : ∀ kind, registry.rowCount kind = (returned history kind).length
  /-- A handle that was returned for a definition names it. -/
  definition : ∀ addition handle row, (addition, handle) ∈ history →
    addition.definitionRow? = some row → registry.definition? ⟨handle.row⟩ = some row
  /-- A handle that was returned for a reference names it. -/
  reference : ∀ addition handle row, (addition, handle) ∈ history →
    addition.referenceRow? = some row → registry.reference? ⟨handle.row⟩ = some row
  /-- A nested definition has no namespace.  Its attributes are marked as nested, and have
  all other bits as they were passed. -/
  nested : ∀ declaring name attributes handle,
    (.nested declaring name attributes, handle) ∈ history →
      ∃ row, registry.definition? ⟨handle.row⟩ = some row ∧ row.name = name ∧
        row.namespaceName = "" ∧ row.declaring? = some declaring ∧
        ∀ bit, row.attributes.bits.getLsbD bit =
          (decide (bit = 1) || attributes.bits.getLsbD bit)
  /-- A handle that was not returned names no definition. -/
  noDefinition : ∀ handle : DefinitionHandle,
    ⟨.typeDefinition, handle.row⟩ ∉ returned history .typeDefinition →
      registry.definition? handle = none
  /-- A handle that was not returned names no reference. -/
  noReference : ∀ handle : ReferenceHandle,
    ⟨.typeReference, handle.row⟩ ∉ returned history .typeReference →
      registry.reference? handle = none
  /-- The nil handles are never returned. -/
  notNil : ∀ kind, ∀ handle ∈ returned history kind, handle.isNil = false
  /-- The definitions are listed in the order of their additions. -/
  listed : registry.definitionHandles.map TypedHandle.toHandle =
    returned history .typeDefinition
  /-- The earliest definition at top level with the namespace and the name is found. -/
  found : ∀ namespaceName name, registry.find? namespaceName name =
    (history.find? fun entry => entry.1.key? = some (namespaceName, name)).map
      fun entry => ⟨entry.2.row⟩
  /-- What is found has exactly these names and is not nested. -/
  foundRow : ∀ namespaceName name handle, registry.find? namespaceName name = some handle →
    ∃ row, registry.definition? handle = some row ∧ row.namespaceName = namespaceName ∧
      row.name = name ∧ row.declaring? = none

/-- The handle at a position has the number of that position, counted from one. -/
theorem numbered_empty (hfits : (empty.addAll additions).Fits) {kind : Kind} {position : Nat}
    {handle : Handle}
    (hreturned : (returned (empty.history additions) kind)[position]? = some handle) :
    handle.kind = kind ∧ handle.row.toNat = position + 1 := by
  rw [returned_empty_history hfits, List.getElem?_map] at hreturned
  by_cases hposition : position < (empty.addAll additions).rowCount kind
  · rw [List.getElem?_range' hposition] at hreturned
    have hcount := hfits.rowCount_lt kind
    cases hreturned
    exact ⟨rfl, by rw [toNat_ofNat_row (by omega)]; omega⟩
  · rw [List.getElem?_eq_none (by simpa using hposition)] at hreturned
    cases hreturned

/-- No handle that was returned is nil. -/
theorem isNil_of_mem_returned (hfits : (empty.addAll additions).Fits) {kind : Kind}
    {handle : Handle} (hreturned : handle ∈ returned (empty.history additions) kind) :
    handle.isNil = false := by
  obtain ⟨position, hposition⟩ := List.mem_iff_getElem?.mp hreturned
  have hrow := (numbered_empty hfits hposition).2
  have hnil : handle.row ≠ 0 := by
    intro hzero
    rw [hzero] at hrow
    exact absurd hrow.symm (Nat.succ_ne_zero position)
  exact beq_eq_false_iff_ne.mpr hnil

/-- The definitions are listed as they were added. -/
theorem definitionHandles_empty (hfits : (empty.addAll additions).Fits) :
    (empty.addAll additions).definitionHandles.map TypedHandle.toHandle =
      returned (empty.history additions) .typeDefinition := by
  rw [returned_empty_history hfits, List.range'_eq_map_range, definitionHandles,
    List.map_map, List.map_map]
  apply List.map_congr_left
  intro position hposition
  have hrow : position + 1 < 2 ^ 24 :=
    Nat.lt_of_le_of_lt (List.mem_range.mp hposition) hfits.definitions
  calc
    (lastHandle (position + 1) : DefinitionHandle).toHandle =
        ⟨.typeDefinition, UInt32.ofNat (position + 1)⟩ := lastHandle_toHandle hrow
    _ = ⟨.typeDefinition, UInt32.ofNat (1 + position)⟩ := by rw [Nat.add_comm]

/-- Nothing can be found before the first addition. -/
theorem find?_empty_addAll (additions : List Addition) (namespaceName name : String) :
    (empty.addAll additions).find? namespaceName name =
      ((empty.history additions).find? fun entry =>
        entry.1.key? = some (namespaceName, name)).map fun entry => ⟨entry.2.row⟩ := by
  have hempty : empty.find? namespaceName name = none := Std.HashMap.getElem?_empty
  rw [find?_addAll, hempty, Option.none_or]

/-- A registry that is built from nothing, with row numbers that fit into tokens, answers as
the history of its additions says, after every addition. -/
theorem addAll_refines (hfits : (empty.addAll additions).Fits) :
    (empty.history additions).map Prod.fst = additions ∧
      (empty.addAll additions).Refines (empty.history additions) := by
  refine ⟨history_additions empty additions, ?_⟩
  exact {
    numbered := fun kind position handle hreturned => numbered_empty hfits hreturned
    counted := by
      intro kind
      rw [returned_empty_history hfits, List.length_map, List.length_range']
    definition := fun addition handle row hadded hrow =>
      definition?_of_mem_history hfits hadded hrow
    reference := fun addition handle row hadded hrow =>
      reference?_of_mem_history hfits hadded hrow
    nested := fun declaring name attributes handle hadded =>
      ⟨_, definition?_of_mem_history hfits hadded rfl, rfl, rfl, rfl,
        getLsbD_union_nestedPublic attributes⟩
    noDefinition := by
      intro handle hnew
      rw [mem_returned_iff hfits ⟨.typeDefinition, handle.row⟩] at hnew
      exact lookup_eq_none_iff.mpr hnew
    noReference := by
      intro handle hnew
      rw [mem_returned_iff hfits ⟨.typeReference, handle.row⟩] at hnew
      exact lookup_eq_none_iff.mpr hnew
    notNil := fun kind handle hreturned => isNil_of_mem_returned hfits hreturned
    listed := definitionHandles_empty hfits
    found := find?_empty_addAll additions
    foundRow := by
      intro namespaceName name handle hfound
      rw [find?_empty_addAll] at hfound
      obtain ⟨⟨addition, returned⟩, hentry, rfl⟩ := Option.map_eq_some_iff.mp hfound
      have hkey := List.find?_some hentry
      obtain ⟨attributes, hrow⟩ := definitionRow?_of_key? (of_decide_eq_true hkey)
      exact ⟨_, definition?_of_mem_history hfits (List.mem_of_find?_eq_some hentry) hrow,
        rfl, rfl, rfl⟩ }

/-- Two definitions share their names, and a third one has the same names with the dot in
another place.  The first one is found, and the nested one only by its handle, although it
was added before the definition that declares it. -/
theorem addAll_refines_repeated :
    let registry := empty.addAll [.nested ⟨4⟩ "Clip" ⟨1⟩, .external "Audio" "Clip",
      .definition "Audio" "Clip" ⟨0⟩, .definition "Audio" "Clip" ⟨1⟩,
      .definition "" "Audio.Clip" ⟨0⟩]
    registry.Fits ∧ registry.find? "Audio" "Clip" = some ⟨2⟩ ∧
      registry.find? "" "Audio.Clip" = some ⟨4⟩ ∧ registry.find? "" "Clip" = none ∧
      registry.definition? ⟨1⟩ = some ⟨"Clip", "", ⟨3⟩, some ⟨4⟩⟩ ∧
      registry.definition? .nil = none := by
  intro registry
  have hfits : registry.Fits := ⟨by decide, by decide⟩
  have hrefines := (addAll_refines hfits).2
  refine ⟨hfits, ?_, ?_, ?_, ?_, ?_⟩
  · exact hrefines.found "Audio" "Clip"
  · exact hrefines.found "" "Audio.Clip"
  · exact hrefines.found "" "Clip"
  · exact hrefines.definition (.nested ⟨4⟩ "Clip" ⟨1⟩) ⟨.typeDefinition, 1⟩ _ (.head _) rfl
  · apply hrefines.noDefinition
    decide

end TypeProjection.Metadata.Registry

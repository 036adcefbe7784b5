import TypeProjection.Projection.Rendering

/-!
# The last entry counts

A map of substitutes is made of a list of entries, in which names may be repeated.  It answers
a name with the last entry of that name, and what it answers says all about it.  So neither the
order of entries with different names nor an entry that is replaced later makes a difference,
not to the map and not to what is rendered with it.
-/

namespace TypeProjection.Substitutes

open TypeProjection.Source

variable {entries others : List (String × TypeExpr)} {name : String} {substitute : TypeExpr}

/-- The substitute is in the last entry with a name.  Names are the same if they have the same
letters. -/
def Last (entries : List (String × TypeExpr)) (name : String) (substitute : TypeExpr) : Prop :=
  ∃ before entry after, entries = before ++ (entry, substitute) :: after ∧
    entry.toList = name.toList ∧ ∀ later ∈ after, later.1.toList ≠ name.toList

/-- The substitute in the last entry with a name. -/
def last? (name : String) : List (String × TypeExpr) → Option TypeExpr
  | [] => none
  | (entry, substitute) :: rest =>
      (last? name rest).or (if entry = name then some substitute else none)

/-! ## The last entry -/

theorem last?_append (name : String) (before after : List (String × TypeExpr)) :
    last? name (before ++ after) = (last? name after).or (last? name before) := by
  induction before with
  | nil => exact Option.or_none.symm
  | cons entry before ih => rw [List.cons_append, last?, last?, ih, Option.or_assoc]

theorem last?_eq_none_iff : last? name entries = none ↔ name ∉ entries.map Prod.fst := by
  induction entries with
  | nil => simp [last?]
  | cons entry entries ih =>
      rw [last?, Option.or_eq_none_iff, ih, List.map_cons, List.mem_cons, not_or, and_comm]
      simp [eq_comm]

theorem last?_eq_some_iff : last? name entries = some substitute ↔ Last entries name substitute := by
  induction entries with
  | nil => simp [last?, Last]
  | cons entry entries ih =>
      rw [last?, Option.or_eq_some_iff, ih, last?_eq_none_iff]
      constructor
      · rintro (⟨before, same, after, rfl, hsame, hafter⟩ | ⟨hnone, hfirst⟩)
        · exact ⟨entry :: before, same, after, rfl, hsame, hafter⟩
        · obtain ⟨rfl, hsubstitute⟩ := Option.ite_none_right_eq_some.mp hfirst
          obtain rfl := Option.some.inj hsubstitute
          refine ⟨[], entry.1, entries, rfl, rfl, ?_⟩
          intro later hlater hsame
          exact hnone (String.toList_inj.mp hsame ▸ List.mem_map_of_mem hlater)
      · rintro ⟨before, same, after, hsplit, hsame, hafter⟩
        obtain rfl := String.toList_inj.mp hsame
        cases before with
        | nil =>
            obtain ⟨rfl, rfl⟩ := List.cons.inj hsplit
            refine .inr ⟨?_, if_pos rfl⟩
            intro hlater
            obtain ⟨later, hmember, hname⟩ := List.mem_map.mp hlater
            exact hafter later hmember (congrArg String.toList hname)
        | cons first before =>
            obtain ⟨-, rfl⟩ := List.cons.inj hsplit
            exact .inl ⟨before, same, after, rfl, rfl, hafter⟩

/-! ## Answers -/

/-- Maps with the same answers are the same. -/
theorem ext_get? {left right : Substitutes} (hanswers : ∀ name, left.get? name = right.get? name) :
    left = right :=
  congrArg Substitutes.mk (Std.ExtTreeMap.ext_getElem? hanswers)

theorem get?_insert (substitutes : Substitutes) (entry name : String) (substitute : TypeExpr) :
    (substitutes.insert entry substitute).get? name =
      if entry = name then some substitute else substitutes.get? name := by
  rw [get?, insert, Std.ExtTreeMap.getElem?_insert]
  simp only [Std.LawfulEqOrd.compare_eq_iff_eq]
  rfl

/-- Entries that are added answer before the map to which they are added, the last one first. -/
theorem get?_foldl_insert (substitutes : Substitutes) (entries : List (String × TypeExpr))
    (name : String) :
    (entries.foldl (fun substitutes (name, substitute) => substitutes.insert name substitute)
        substitutes).get? name =
      (last? name entries).or (substitutes.get? name) := by
  induction entries generalizing substitutes with
  | nil => rfl
  | cons entry entries ih =>
      rw [List.foldl_cons, ih, get?_insert, last?, Option.or_assoc]
      by_cases hname : entry.1 = name
      · rw [if_pos hname, if_pos hname, Option.some_or]
      · rw [if_neg hname, if_neg hname, Option.none_or]

theorem get?_ofList (entries : List (String × TypeExpr)) (name : String) :
    (ofList entries).get? name = last? name entries := by
  have hempty : empty.get? name = none := Std.ExtTreeMap.getElem?_empty
  rw [ofList, get?_foldl_insert, hempty, Option.or_none]

theorem contains_iff (substitutes : Substitutes) (name : String) :
    substitutes.contains name ↔ ∃ substitute, substitutes.get? name = some substitute := by
  rw [contains_eq_isSome, Option.isSome_iff_exists]

theorem mem_names_iff (substitutes : Substitutes) (name : String) :
    name ∈ substitutes.names ↔ substitutes.contains name := by
  rw [names, Std.ExtTreeMap.mem_keys, Std.ExtTreeMap.mem_iff_contains]
  rfl

theorem contains_ofList_iff :
    (ofList entries).contains name ↔ name ∈ entries.map Prod.fst := by
  rw [contains_eq_isSome, get?_ofList, Option.isSome_iff_ne_none, ne_eq, last?_eq_none_iff,
    Decidable.not_not]

/-! ## Entries that make no difference -/

/-- Entries with different names all count. -/
theorem last_iff_mem (hdistinct : (entries.map Prod.fst).Nodup) :
    Last entries name substitute ↔ (name, substitute) ∈ entries := by
  constructor
  · rintro ⟨before, entry, after, rfl, hentry, -⟩
    obtain rfl := String.toList_inj.mp hentry
    simp
  · intro hentry
    obtain ⟨before, after, rfl⟩ := List.append_of_mem hentry
    refine ⟨before, name, after, rfl, rfl, ?_⟩
    intro later hlater hsame
    rw [List.map_append, List.map_cons, List.nodup_append, List.nodup_cons] at hdistinct
    have hlaterName : later.1 ∈ after.map Prod.fst := List.mem_map_of_mem hlater
    exact hdistinct.2.1.1 (String.toList_inj.mp hsame ▸ hlaterName)

/-- Entries with different names may come in any order. -/
theorem ofList_perm (hdistinct : (entries.map Prod.fst).Nodup) (hperm : entries.Perm others) :
    ofList entries = ofList others := by
  have hothers : (others.map Prod.fst).Nodup := (hperm.map Prod.fst).nodup_iff.mp hdistinct
  apply ext_get?
  intro name
  apply Option.ext
  intro substitute
  rw [get?_ofList, get?_ofList, last?_eq_some_iff, last?_eq_some_iff, last_iff_mem hdistinct,
    last_iff_mem hothers, hperm.mem_iff]

/-- An entry may be dropped if a later one has the same name. -/
theorem ofList_drop (before : List (String × TypeExpr)) {rest : List (String × TypeExpr)}
    (hreplaced : name ∈ rest.map Prod.fst) :
    ofList (before ++ (name, substitute) :: rest) = ofList (before ++ rest) := by
  apply ext_get?
  intro other
  rw [get?_ofList, get?_ofList, last?_append, last?_append, last?]
  by_cases hother : name = other
  · -- The later entry answers on both sides.
    obtain ⟨later, hlater⟩ := Option.ne_none_iff_exists'.mp
      fun hnone => last?_eq_none_iff.mp hnone (hother ▸ hreplaced)
    rw [hlater, Option.some_or]
  · rw [if_neg hother, Option.or_none]

/-! ## Maps of entries -/

/-- Nothing tells two maps apart, neither alone nor in a rendering. -/
structure Interchangeable (left right : Substitutes) : Prop where
  equal : left = right
  builtin : ∀ (setting : RenderSetting) (descriptor : Descriptor),
    descriptor.render { setting with builtin := left } =
      descriptor.render { setting with builtin := right }
  marshaled : ∀ (setting : RenderSetting) (descriptor : Descriptor),
    descriptor.render { setting with marshaled := left } =
      descriptor.render { setting with marshaled := right }

theorem interchangeable_of_get? {left right : Substitutes}
    (hanswers : ∀ name, left.get? name = right.get? name) : Interchangeable left right := by
  obtain rfl := ext_get? hanswers
  exact ⟨rfl, fun _ _ => rfl, fun _ _ => rfl⟩

structure LastWins : Prop where
  /-- A name is answered with the last entry that has the same letters. -/
  found : ∀ entries name substitute,
    (ofList entries).get? name = some substitute ↔ Last entries name substitute
  /-- A name without an entry is not answered. -/
  missing : ∀ entries name,
    (ofList entries).get? name = none ↔ ∀ entry ∈ entries, entry.1.toList ≠ name.toList
  /-- The names with an answer are those that a map has. -/
  contains : ∀ (substitutes : Substitutes) name,
    substitutes.contains name ↔ ∃ substitute, substitutes.get? name = some substitute
  /-- Each name of an entry is listed once, and no other one. -/
  names : ∀ entries, (ofList entries).names.Nodup ∧
    ∀ name, name ∈ (ofList entries).names ↔ name ∈ entries.map Prod.fst
  /-- The size is the number of these names. -/
  size : ∀ entries, (ofList entries).size = (ofList entries).names.length
  /-- A map is empty if its size is zero. -/
  isEmpty : ∀ substitutes : Substitutes, substitutes.isEmpty ↔ substitutes.size = 0
  /-- Maps are the same if they answer every name alike. -/
  same : ∀ left right : Substitutes, left = right ↔ ∀ name, left.get? name = right.get? name
  /-- Then they render everything alike. -/
  alike : ∀ left right : Substitutes, (∀ name, left.get? name = right.get? name) →
    Interchangeable left right
  /-- Entries with different names may be reordered. -/
  reordered : ∀ entries others : List (String × TypeExpr), (entries.map Prod.fst).Nodup →
    entries.Perm others → Interchangeable (ofList entries) (ofList others)
  /-- An entry that a later one with the same name replaces may be dropped. -/
  replaced : ∀ before name substitute (rest : List (String × TypeExpr)),
    name ∈ rest.map Prod.fst →
      Interchangeable (ofList (before ++ (name, substitute) :: rest)) (ofList (before ++ rest))

/-- Maps of substitutes answer with the last entry of a name, and are known by their answers. -/
theorem tables_lastWins : LastWins where
  found entries name substitute := by
    rw [get?_ofList, last?_eq_some_iff]
  missing entries name := by
    rw [get?_ofList, last?_eq_none_iff, List.mem_map]
    simp only [ne_eq, String.toList_inj, not_exists, not_and]
  contains := contains_iff
  names entries := by
    refine ⟨?_, ?_⟩
    · exact Std.ExtTreeMap.nodup_keys
    · intro name
      rw [mem_names_iff, contains_ofList_iff]
  size entries := Std.ExtTreeMap.length_keys.symm
  isEmpty substitutes := by
    rw [Substitutes.isEmpty, Std.ExtTreeMap.isEmpty_eq_size_beq_zero, beq_iff_eq]
    rfl
  same left right := ⟨fun hsame name => hsame ▸ rfl, ext_get?⟩
  alike left right := interchangeable_of_get?
  reordered entries others hdistinct hperm := by
    apply interchangeable_of_get?
    intro name
    rw [ofList_perm hdistinct hperm]
  replaced before name substitute rest hreplaced := by
    apply interchangeable_of_get?
    intro other
    rw [ofList_drop before hreplaced]

end TypeProjection.Substitutes

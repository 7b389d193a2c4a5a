import QueryTree.Proofs.Options.Rearranged

/-!
# Clauses that are deleted

A clause that is left out because of its shape may as well be deleted: the description without such
clauses is like the original, and nothing is left out of it.

* `OptionsPruned`: what is left of options.
* `Json.alike_pruned`: the pruned description is like the original.
* `Json.omitted_pruned`: nothing is left out of it.
-/

namespace QueryTree

variable {kind : OptionKind} {slot : Slot} {fields : List (String × Json)}

/-- What is found among the fields that are kept and changed. -/
theorem lookup_filter_map (keep : String → Bool) (f : String → Json → Json) (key : String)
    (fields : List (String × Json)) :
    ((fields.filter fun x => keep x.1).map fun x => (x.1, f x.1 x.2)).lookup key
      = if keep key then (fields.lookup key).map (f key) else none := by
  induction fields with
  | nil => simp
  | cons x fields ih =>
      obtain ⟨name, json⟩ := x
      by_cases hkey : key = name
      · subst hkey
        rw [List.lookup_cons_self]
        cases hkeep : keep key with
        | true =>
            rw [List.filter_cons_of_pos (by exact hkeep), List.map_cons, List.lookup_cons_self]
            rfl
        | false =>
            rw [List.filter_cons_of_neg (by simp [hkeep]), ih, hkeep]
            rfl
      · rw [lookup_cons_of_ne hkey]
        cases hkeep : keep name with
        | true =>
            rw [List.filter_cons_of_pos (by exact hkeep), List.map_cons, lookup_cons_of_ne hkey, ih]
        | false => rw [List.filter_cons_of_neg (by simp [hkeep]), ih]

/-- A clause that is left out is one of the known options. -/
theorem OptionKind.mem_keys_of_omission? {key : String} (h : (kind.omission? fields key).isSome) :
    key ∈ kind.keys := by
  unfold OptionKind.omission? OptionKind.clause? at h
  by_contra hunknown
  cases hclause : Clause.ofKey? key with
  | none => simp [hclause] at h
  | some clause => simp [hclause, hunknown] at h

/-- No clause of settings is left out. -/
theorem OptionKind.clause?_settings (key : String) : OptionKind.settings.clause? key = none := by
  unfold OptionKind.clause? Clause.ofKey?
  split <;> rfl

namespace Slot

theorem keeps_of_kind? (hkind : slot.kind? (fields.map Prod.fst) = some kind) (key : String) :
    slot.keeps fields key = (kind.omission? fields key).isNone := by
  rw [keeps, hkind]

theorem keeps_of_none (hkind : slot.kind? (fields.map Prod.fst) = none) (key : String) :
    slot.keeps fields key = true := by
  rw [keeps, hkind]

theorem keeps_of_isSettings (hslot : slot.isSettings = true) (key : String) :
    slot.keeps fields key = true := by
  rw [keeps_of_kind? (kind?_of_isSettings hslot _),
    OptionKind.omission?_of_clause (OptionKind.clause?_settings key)]
  rfl

end Slot

namespace Json

/-- An object that keeps all its fields. -/
theorem pruned_of_keeps (h : ∀ key, slot.keeps fields key = true) :
    (obj fields).pruned slot
      = .obj (fields.map fun x => (x.1, x.2.pruned (slot.field (fields.map Prod.fst) x.1))) := by
  rw [pruned_obj, List.filter_eq_self.2 fun x _ => h x.1]

end Json

/-- The second options are what is left of the first: the clauses that are left out are deleted, and
the other options are pruned themselves. -/
def OptionsPruned (kind : OptionKind) (fields fields' : List (String × Json)) : Prop :=
  ∀ key, fields'.lookup key
    = if (kind.omission? fields key).isNone then
        (fields.lookup key).map (Json.pruned (kind.slot key))
      else none

/-- What is left of an object that stands for options. -/
theorem optionsPruned (hkind : slot.kind? (fields.map Prod.fst) = some kind)
    (hslot : slot.isSettings = false) :
    OptionsPruned kind fields ((fields.filter fun x => slot.keeps fields x.1).map fun x =>
      (x.1, x.2.pruned (slot.field (fields.map Prod.fst) x.1))) := by
  intro key
  rw [lookup_filter_map (slot.keeps fields)
    (fun key json => json.pruned (slot.field (fields.map Prod.fst) key)),
    Slot.keeps_of_kind? hkind, Slot.field_of_kind? hkind hslot]

namespace OptionsPruned

variable {fields' : List (String × Json)} {key : String}

theorem lookup_of_some (h : OptionsPruned kind fields fields') {omission : Omission}
    (homission : kind.omission? fields key = some omission) : fields'.lookup key = none := by
  rw [h key, homission]
  rfl

theorem lookup_of_none (h : OptionsPruned kind fields fields')
    (homission : kind.omission? fields key = none) :
    fields'.lookup key = (fields.lookup key).map (Json.pruned (kind.slot key)) := by
  rw [h key, homission]
  rfl

/-- What is left is like the original if this holds for the parts. -/
theorem alike (h : OptionsPruned kind fields fields')
    (hfields : ∀ x ∈ fields, ∀ slot, x.2.Alike true slot (x.2.pruned slot)) :
    OptionsAlike true kind fields fields' where
  both {key json json'} hleft hright := by
    cases homission : kind.omission? fields key with
    | none =>
        rw [h.lookup_of_none homission, hleft] at hright
        cases hright
        exact hfields _ (mem_of_lookup hleft) _
    | some omission => cases (h.lookup_of_some homission).symm.trans hright
  left {key json} hleft hright := by
    cases homission : kind.omission? fields key with
    | none =>
        rw [h.lookup_of_none homission, hleft] at hright
        cases hright
    | some omission =>
        have hsome : (kind.omission? fields key).isSome := by rw [homission]; rfl
        rw [← homission]
        exact ⟨OptionKind.mem_keys_of_omission? hsome, .inr ⟨rfl, hsome⟩⟩
  right {key json'} hleft hright := by
    cases homission : kind.omission? fields key with
    | none =>
        rw [h.lookup_of_none homission, hleft] at hright
        cases hright
    | some omission => cases (h.lookup_of_some homission).symm.trans hright

end OptionsPruned

namespace Json

/-- **The pruned description is like the original.** -/
theorem alike_pruned (slot : Slot) (json : Json) : json.Alike true slot (json.pruned slot) := by
  refine of_parts (C := fun json => ∀ slot, json.Alike true slot (json.pruned slot))
    (fun json hparts slot => ?_) json slot
  cases json with
  | arr items =>
      rw [pruned_arr]
      exact .of_items (List.forall₂_map_right_iff.2
        (List.forall₂_same.2 fun item hitem => hparts item hitem _))
  | obj fields =>
      have hfields : ∀ x ∈ fields, ∀ slot, x.2.Alike true slot (x.2.pruned slot) :=
        fun x hx => hparts x.2 (List.mem_map_of_mem hx)
      cases hkind : slot.kind? (fields.map Prod.fst) with
      | none =>
          rw [pruned_of_keeps (Slot.keeps_of_none hkind)]
          exact .of_fields hkind (List.forall₂_map_right_iff.2
            (List.forall₂_same.2 fun x hx => ⟨rfl, hfields x hx _⟩))
      | some kind =>
          cases hslot : slot.isSettings with
          | true =>
              have hsame : (obj fields).pruned slot = .obj fields := by
                rw [pruned_of_keeps (Slot.keeps_of_isSettings hslot)]
                conv_rhs => rw [← List.map_id fields]
                refine congrArg obj (List.map_congr_left fun x hx => ?_)
                rw [Slot.field_of_isSettings hslot, (hfields x hx .plain).eq_of_plain]
                rfl
              rw [hsame]
              exact .refl _ _ _
          | false =>
              rw [pruned_obj]
              exact .of_options hkind hslot ((optionsPruned hkind hslot).alike hfields)
  | _ => exact .scalar rfl

end Json

namespace OptionsPruned

variable {fields' : List (String × Json)}

/-- No clause is left out of what is left. -/
theorem omission?_eq_none (h : OptionsPruned kind fields fields') (key : String) :
    kind.omission? fields' key = none := by
  have halike : OptionsAlike true kind fields fields' :=
    h.alike fun x _ slot => x.2.alike_pruned slot
  cases homission : kind.omission? fields key with
  | some omission =>
      unfold OptionKind.omission?
      rw [h.lookup_of_some homission]
      cases kind.clause? key <;> rfl
  | none =>
      have hlookup := h.lookup_of_none homission
      unfold OptionKind.omission? at homission ⊢
      rw [hlookup, halike.isCross_eq]
      cases hfound : fields.lookup key with
      | none => cases kind.clause? key <;> rfl
      | some json =>
          rw [hfound] at homission
          have hfits (clause : Clause) :
              clause.fits (json.pruned (kind.slot key)) = clause.fits json :=
            (json.alike_pruned (kind.slot key)).fits_eq clause
          simpa only [Option.map_some, Option.bind_some, hfits] using homission

theorem omittedAt_eq_nil (h : OptionsPruned kind fields fields')
    (hfields : ∀ x ∈ fields, ∀ slot, (x.2.pruned slot).omitted slot = []) (key : String) :
    kind.omittedAt fields' key = [] := by
  rw [OptionKind.omittedAt, h.omission?_eq_none, h key]
  split
  · cases hfound : fields.lookup key with
    | none => rfl
    | some json => exact hfields _ (mem_of_lookup hfound) _
  · rfl

end OptionsPruned

/-- **Nothing is left out of a pruned description.** -/
theorem Json.omitted_pruned (slot : Slot) (json : Json) :
    (json.pruned slot).omitted slot = [] := by
  refine of_parts (C := fun json => ∀ slot, (json.pruned slot).omitted slot = [])
    (fun json hparts slot => ?_) json slot
  cases json with
  | arr items =>
      rw [pruned_arr, omitted_arr, List.flatMap_map, List.flatMap_eq_nil_iff]
      exact fun item hitem => hparts item hitem _
  | obj fields =>
      have hfields : ∀ x ∈ fields, ∀ slot, (x.2.pruned slot).omitted slot = [] :=
        fun x hx => hparts x.2 (List.mem_map_of_mem hx)
      cases hkind : slot.kind? (fields.map Prod.fst) with
      | none =>
          have hkeys : (fields.map fun x =>
              (x.1, x.2.pruned (slot.field (fields.map Prod.fst) x.1))).map Prod.fst
                = fields.map Prod.fst := by
            rw [List.map_map]
            rfl
          rw [pruned_of_keeps (Slot.keeps_of_none hkind), omitted_fields (by rwa [hkeys]), hkeys,
            List.flatMap_map, List.flatMap_eq_nil_iff]
          exact fun x hx => hfields x hx _
      | some kind =>
          rw [pruned_obj]
          cases hslot : slot.isSettings with
          | true =>
              rw [omitted_options (Slot.kind?_of_isSettings hslot _)]
              rfl
          | false =>
              have hpruned := optionsPruned hkind hslot
              have halike := hpruned.alike fun x _ slot => x.2.alike_pruned slot
              rw [omitted_options (halike.kind?_eq hkind), List.flatMap_eq_nil_iff]
              exact fun key _ => hpruned.omittedAt_eq_nil hfields key
  | _ => rfl

end QueryTree

import QueryTree.Proofs.Options.Agree
import QueryTree.Proofs.Options.Slot

/-!
# Descriptions that are alike

Two descriptions are alike if the one comes from the other by moving options, by giving options
that are absent as null, and, where this is allowed, by deleting clauses that are left out anyway.
How options stand in their object is forgotten: only what is found under each key counts.

* `Json.Alike`: values that are alike, by what they are read as.
* `OptionsAlike`, `FieldsAlike`: the fields of option objects and of other objects that are alike.
* `Json.Alike.of_options`, `Json.Alike.options_inv`: how alike values come about, and what they
  consist of.
* `Json.Alike.fits_eq`, `Json.Alike.decode_eq`: they fit the same clauses and are the same settings.
-/

namespace QueryTree

open Cipher (Settings)
open Reading (Agree Quiet)

/-- Whether a value has no parts. -/
def Json.isScalar : Json → Bool
  | .arr _ | .obj _ => false
  | _ => true

/-- Values that are alike; the second may lack clauses that are left out if `drops` is set. -/
inductive Json.Alike (drops : Bool) : Slot → Json → Json → Prop
  | scalar {slot : Slot} {json : Json} (h : json.isScalar = true) : Alike drops slot json json
  | arr {slot : Slot} {items items' : List Json} (hlength : items.length = items'.length)
      (h : ∀ json json', (json, json') ∈ items.zip items' → Alike drops slot.item json json') :
      Alike drops slot (.arr items) (.arr items')
  | fields {slot : Slot} {fields fields' : List (String × Json)}
      (hkind : slot.kind? (fields.map Prod.fst) = none)
      (hkeys : fields.map Prod.fst = fields'.map Prod.fst)
      (h : ∀ x x', (x, x') ∈ fields.zip fields' →
        Alike drops (slot.field (fields.map Prod.fst) x.1) x.2 x'.2) :
      Alike drops slot (.obj fields) (.obj fields')
  /-- Options of the same key are alike. What only one side has is null, or left out. -/
  | options {slot : Slot} {kind : OptionKind} {fields fields' : List (String × Json)}
      (hkind : slot.kind? (fields.map Prod.fst) = some kind) (hslot : slot.isSettings = false)
      (hboth : ∀ key json json', fields.lookup key = some json → fields'.lookup key = some json' →
        Alike drops (kind.slot key) json json')
      (hleft : ∀ key json, fields.lookup key = some json → fields'.lookup key = none →
        key ∈ kind.keys ∧ (json = .null ∧ kind.countsNull key = false
          ∨ drops = true ∧ (kind.omission? fields key).isSome))
      (hright : ∀ key json', fields.lookup key = none → fields'.lookup key = some json' →
        key ∈ kind.keys ∧ json' = .null ∧ kind.countsNull key = false) :
      Alike drops slot (.obj fields) (.obj fields')
  /-- Settings are decoded to the same. -/
  | settings {slot : Slot} {fields fields' : List (String × Json)}
      (hslot : slot.isSettings = true)
      (h : ∀ settings, Settings.decode (.obj fields) = .ok settings
        ↔ Settings.decode (.obj fields') = .ok settings) :
      Alike drops slot (.obj fields) (.obj fields')

/-- The fields of option objects that are alike. -/
structure OptionsAlike (drops : Bool) (kind : OptionKind) (fields fields' : List (String × Json)) :
    Prop where
  both {key : String} {json json' : Json} : fields.lookup key = some json →
    fields'.lookup key = some json' → json.Alike drops (kind.slot key) json'
  left {key : String} {json : Json} : fields.lookup key = some json → fields'.lookup key = none →
    key ∈ kind.keys ∧ (json = .null ∧ kind.countsNull key = false
      ∨ drops = true ∧ (kind.omission? fields key).isSome)
  right {key : String} {json' : Json} : fields.lookup key = none →
    fields'.lookup key = some json' → key ∈ kind.keys ∧ json' = .null ∧ kind.countsNull key = false

theorem mem_of_lookup {α : Type} {fields : List (String × α)} {key : String} {x : α}
    (h : fields.lookup key = some x) : (key, x) ∈ fields := by
  obtain ⟨before, after, heq, -⟩ := List.lookup_eq_some_iff.1 h
  rw [heq]
  simp

theorem lookup_eq_none_iff_contains {fields : List (String × Json)} {key : String} :
    fields.lookup key = none ↔ (fields.map Prod.fst).contains key = false := by
  rw [List.lookup_eq_none_iff, ← Bool.not_eq_true, List.contains_iff_mem, List.mem_map]
  constructor
  · rintro habsent ⟨x, hx, rfl⟩
    simpa using habsent x hx
  · intro habsent x hx
    exact bne_iff_ne.2 fun heq => habsent ⟨x, hx, heq.symm⟩

/-- A key that is not known does not turn up on the other side. -/
theorem OptionsAlike.contains_eq_false {drops : Bool} {kind : OptionKind}
    {fields fields' : List (String × Json)} (h : OptionsAlike drops kind fields fields')
    {key : String} (hkey : key ∉ kind.keys) (hleft : (fields.map Prod.fst).contains key = false) :
    (fields'.map Prod.fst).contains key = false := by
  rw [← lookup_eq_none_iff_contains] at hleft ⊢
  cases hright : fields'.lookup key with
  | none => rfl
  | some json' => exact absurd (h.right hleft hright).1 hkey

/-- The fields of objects that are alike one by one. -/
abbrev FieldsAlike (drops : Bool) (slot : Slot) (fields fields' : List (String × Json)) : Prop :=
  List.Forall₂ (fun x x' => x.1 = x'.1
    ∧ x.2.Alike drops (slot.field (fields.map Prod.fst) x.1) x'.2) fields fields'

/-- Fields that are alike one by one have the same keys. -/
theorem FieldsAlike.keys_eq {drops : Bool} {slot : Slot} {fields fields' : List (String × Json)}
    (h : FieldsAlike drops slot fields fields') : fields'.map Prod.fst = fields.map Prod.fst := by
  have hfirst : List.Forall₂ (fun x x' : String × Json => x'.1 = x.1) fields fields' :=
    h.imp fun _ _ hx => hx.1.symm
  rw [← List.forall₂_eq_eq_eq, List.forall₂_map_left_iff, List.forall₂_map_right_iff]
  exact hfirst.flip

/-- Lists of fields with the same keys, one by one. -/
theorem forall₂_of_keys {fields fields' : List (String × Json)}
    (hkeys : fields.map Prod.fst = fields'.map Prod.fst) {R : String × Json → Json → Prop}
    (h : ∀ {x x'}, (x, x') ∈ fields.zip fields' → R x x'.2) :
    List.Forall₂ (fun x x' => x.1 = x'.1 ∧ R x x'.2) fields fields' := by
  rw [← List.forall₂_eq_eq_eq, List.forall₂_map_left_iff, List.forall₂_map_right_iff,
    List.forall₂_iff_zip] at hkeys
  exact List.forall₂_iff_zip.2 ⟨hkeys.1, fun hmem => ⟨hkeys.2 hmem, h hmem⟩⟩

namespace Json.Alike

variable {drops : Bool} {slot : Slot} {kind : OptionKind} {json json' : Json}

/-! ### How alike values come about -/

theorem of_items {items items' : List Json}
    (h : List.Forall₂ (fun a b => a.Alike drops slot.item b) items items') :
    (Json.arr items).Alike drops slot (.arr items') := by
  obtain ⟨hlength, hitems⟩ := List.forall₂_iff_zip.1 h
  exact .arr hlength fun _ _ hmem => hitems hmem

theorem of_fields {fields fields' : List (String × Json)}
    (hkind : slot.kind? (fields.map Prod.fst) = none) (h : FieldsAlike drops slot fields fields') :
    (Json.obj fields).Alike drops slot (.obj fields') :=
  .fields hkind h.keys_eq.symm fun _ _ hmem => ((List.forall₂_iff_zip.1 h).2 hmem).2

theorem of_options {fields fields' : List (String × Json)}
    (hkind : slot.kind? (fields.map Prod.fst) = some kind) (hslot : slot.isSettings = false)
    (h : OptionsAlike drops kind fields fields') :
    (Json.obj fields).Alike drops slot (.obj fields') :=
  .options hkind hslot (fun _ _ _ => h.both) (fun _ _ => h.left) fun _ _ => h.right

/-! ### What alike values consist of -/

theorem eq_of_isScalar (h : json.Alike drops slot json') (hscalar : json.isScalar = true) :
    json' = json := by
  cases h with
  | scalar _ => rfl
  | _ => cases hscalar

theorem eq_of_isScalar_right (h : json.Alike drops slot json') (hscalar : json'.isScalar = true) :
    json' = json := by
  cases h with
  | scalar _ => rfl
  | _ => cases hscalar

theorem arr_inv {items : List Json} (h : (Json.arr items).Alike drops slot json') :
    ∃ items', json' = .arr items'
      ∧ List.Forall₂ (fun a b => a.Alike drops slot.item b) items items' := by
  cases h with
  | scalar hscalar => cases hscalar
  | arr hlength hitems =>
      exact ⟨_, rfl, List.forall₂_iff_zip.2 ⟨hlength, fun hmem => hitems _ _ hmem⟩⟩

theorem fields_inv {fields : List (String × Json)} (h : (Json.obj fields).Alike drops slot json')
    (hkind : slot.kind? (fields.map Prod.fst) = none) :
    ∃ fields', json' = .obj fields' ∧ FieldsAlike drops slot fields fields' := by
  cases h with
  | scalar hscalar => cases hscalar
  | fields _ hkeys hfields =>
      exact ⟨_, rfl, forall₂_of_keys hkeys fun hmem => hfields _ _ hmem⟩
  | options hsome => cases hkind.symm.trans hsome
  | settings hslot => cases hkind.symm.trans (Slot.kind?_of_isSettings hslot _)

theorem options_inv {fields : List (String × Json)} (h : (Json.obj fields).Alike drops slot json')
    (hkind : slot.kind? (fields.map Prod.fst) = some kind) (hslot : slot.isSettings = false) :
    ∃ fields', json' = .obj fields' ∧ OptionsAlike drops kind fields fields' := by
  cases h with
  | scalar hscalar => cases hscalar
  | fields hnone => cases hkind.symm.trans hnone
  | options hsome _ hboth hleft hright =>
      cases hkind.symm.trans hsome
      exact ⟨_, rfl, hboth _ _ _, hleft _ _, hright _ _⟩
  | settings htrue => cases hslot.symm.trans htrue

theorem settings_inv {fields : List (String × Json)} (h : (Json.obj fields).Alike drops slot json')
    (hslot : slot.isSettings = true) :
    ∃ fields', json' = .obj fields' ∧ ∀ settings, Settings.decode (.obj fields) = .ok settings
      ↔ Settings.decode (.obj fields') = .ok settings := by
  cases h with
  | scalar hscalar => cases hscalar
  | fields hnone => cases hnone.symm.trans (Slot.kind?_of_isSettings hslot _)
  | options _ hfalse => cases hslot.symm.trans hfalse
  | settings _ hdecode => exact ⟨_, rfl, hdecode⟩

/-- Objects that are not options are alike by what their fields are read as. -/
theorem congr_fields {slot' : Slot} {fields : List (String × Json)}
    (h : (Json.obj fields).Alike drops slot json')
    (hkind : slot.kind? (fields.map Prod.fst) = none)
    (hkind' : slot'.kind? (fields.map Prod.fst) = none)
    (hfield : ∀ key, slot.field (fields.map Prod.fst) key
      = slot'.field (fields.map Prod.fst) key) : (Json.obj fields).Alike drops slot' json' := by
  obtain ⟨fields', rfl, hfields⟩ := h.fields_inv hkind
  refine of_fields hkind' (hfields.imp fun x x' hx => ⟨hx.1, ?_⟩)
  rw [← hfield]
  exact hx.2

/-! ### What alike values share -/

/-- Values in which nothing is read as options are the same. -/
theorem eq_of_plain (h : json.Alike drops .plain json') : json' = json := by
  generalize hslot : Slot.plain = slot at h
  induction h with
  | scalar _ => rfl
  | arr hlength _ ih =>
      subst hslot
      refine congrArg Json.arr (List.forall₂_eq_eq_eq ▸ List.Forall₂.flip ?_)
      exact List.forall₂_iff_zip.2 ⟨hlength, fun hmem => (ih _ _ hmem rfl)⟩
  | fields hkind hkeys _ ih =>
      subst hslot
      have heach := forall₂_of_keys (R := fun x json' => json' = x.2) hkeys
        fun hmem => ih _ _ hmem rfl
      refine congrArg Json.obj (List.forall₂_eq_eq_eq ▸ List.Forall₂.flip (heach.imp ?_))
      rintro x x' ⟨hkey, hvalue⟩
      exact Prod.ext hkey.symm hvalue
  | options hkind =>
      subst hslot
      cases hkind
  | settings htrue =>
      subst hslot
      cases htrue

/-- Lists in whose items nothing is read as options are the same. -/
theorem eq_of_plain_items {items : List Json} (h : (Json.arr items).Alike drops slot json')
    (hitem : slot.item = .plain) : json' = .arr items := by
  obtain ⟨items', rfl, hitems⟩ := h.arr_inv
  rw [hitem] at hitems
  have heq : List.Forall₂ (· = ·) items items' :=
    hitems.imp fun _ _ hplain => hplain.eq_of_plain.symm
  rw [List.forall₂_eq_eq_eq] at heq
  rw [heq]

/-- Alike values fit the same clauses. -/
theorem fits_eq (h : json.Alike drops slot json') (clause : Clause) :
    clause.fits json' = clause.fits json := by
  cases h with
  | scalar _ => rfl
  | _ => cases clause <;> rfl

/-- Settings that are alike are decoded to the same. -/
theorem decode_eq (h : json.Alike drops slot json') (hslot : slot.isSettings = true)
    (settings : Settings) :
    Settings.decode json = .ok settings ↔ Settings.decode json' = .ok settings := by
  cases json with
  | arr items =>
      have hitem : slot.item = .plain := by
        cases slot with
        | settings | switch => rfl
        | _ => cases hslot
      rw [h.eq_of_plain_items hitem]
  | obj fields =>
      obtain ⟨fields', rfl, hdecode⟩ := h.settings_inv hslot
      exact hdecode settings
  | _ => rw [h.eq_of_isScalar rfl]

end Json.Alike

end QueryTree

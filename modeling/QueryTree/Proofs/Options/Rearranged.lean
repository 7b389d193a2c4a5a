import QueryTree.Proofs.Options.Record

/-!
# Options in another order

The keys of an option object may be given in any order, and an option that is absent may as well be
null.

* `Json.Rearranged`: one such change, anywhere in a description.
* `Settings.decodesAlike_perm`, `Settings.decode_insert`: settings are decoded to the same.
* `Json.Rearranged.alike`: the two descriptions are alike.
* `Json.Alike.omitted_eq`: the same clauses are left out of both.
-/

namespace QueryTree

open Cipher (Settings)

/-- One change to a value that is read in a given way: the keys of an option object in it are put
into another order, or a known key that is absent is added with null as its value, unless null
counts there. -/
inductive Json.Rearranged : Slot → Json → Json → Prop
  | permute {slot : Slot} {kind : OptionKind} {fields fields' : List (String × Json)}
      (hkind : slot.kind? (fields.map Prod.fst) = some kind)
      (hdistinct : (fields.map Prod.fst).Nodup) (hperm : fields.Perm fields') :
      Rearranged slot (.obj fields) (.obj fields')
  | insert {slot : Slot} {kind : OptionKind} {key : String} {before after : List (String × Json)}
      (hkind : slot.kind? ((before ++ after).map Prod.fst) = some kind) (hknown : key ∈ kind.keys)
      (habsent : key ∉ (before ++ after).map Prod.fst) (hnull : kind.countsNull key = false) :
      Rearranged slot (.obj (before ++ after)) (.obj (before ++ (key, .null) :: after))
  | item {slot : Slot} {json json' : Json} {before after : List Json}
      (h : Rearranged slot.item json json') :
      Rearranged slot (.arr (before ++ json :: after)) (.arr (before ++ json' :: after))
  | field {slot : Slot} {key : String} {json json' : Json} {before after : List (String × Json)}
      (h : Rearranged (slot.field ((before ++ (key, json) :: after).map Prod.fst) key) json json') :
      Rearranged slot (.obj (before ++ (key, json) :: after))
        (.obj (before ++ (key, json') :: after))

/-! ## Settings -/

namespace Cipher

/-- One field of settings with its value. -/
inductive Setting where
  | mode (value : Option Mode)
  | secret (value : Option String)
  | vector (value : Option String)
  | digest (value : Option Nat)

/-- The key of a field. -/
def Setting.key : Setting → String
  | .mode _ => "mode"
  | .secret _ => "secret"
  | .vector _ => "iv"
  | .digest _ => "sha"

/-- The field of a key, from its JSON value. -/
def Setting.decode (key : String) (json : Json) : Except DecodeError Setting :=
  match key with
  | "mode" => (decodeOptional (decodeNamed Mode) json).map .mode
  | "secret" => (decodeOptional decodeText json).map .secret
  | "iv" => (decodeOptional decodeText json).map .vector
  | "sha" => (decodeOptional decodeNat16 json).map .digest
  | other => .error (.unknownField other Settings.fieldNames)

theorem Setting.key_of_decode {key : String} {json : Json} {setting : Setting}
    (h : Setting.decode key json = .ok setting) : setting.key = key := by
  unfold Setting.decode at h
  split at h
  · cases hvalue : decodeOptional (decodeNamed Mode) json <;> rw [hvalue] at h <;> cases h
    rfl
  · cases hvalue : decodeOptional decodeText json <;> rw [hvalue] at h <;> cases h
    rfl
  · cases hvalue : decodeOptional decodeText json <;> rw [hvalue] at h <;> cases h
    rfl
  · cases hvalue : decodeOptional decodeNat16 json <;> rw [hvalue] at h <;> cases h
    rfl
  · cases h

namespace Settings

/-- Settings with one field set anew. -/
def put (s : Settings) : Setting → Settings
  | .mode mode => { s with mode }
  | .secret secret => { s with secret }
  | .vector vector => { s with vector }
  | .digest digest => { s with digest }

theorem put_comm (s : Settings) {a b : Setting} (hne : a.key ≠ b.key) :
    (s.put a).put b = (s.put b).put a := by
  revert hne
  cases a <;> cases b <;> simp [put, Setting.key]

theorem decodeField_eq (s : Settings) (key : String) (json : Json) :
    s.decodeField key json = (Setting.decode key json).map s.put := by
  unfold Setting.decode
  split
  · change (decodeOptional (decodeNamed Mode) json).bind _ = _
    cases decodeOptional (decodeNamed Mode) json <;> rfl
  · change (decodeOptional decodeText json).bind _ = _
    cases decodeOptional decodeText json <;> rfl
  · change (decodeOptional decodeText json).bind _ = _
    cases decodeOptional decodeText json <;> rfl
  · change (decodeOptional decodeNat16 json).bind _ = _
    cases decodeOptional decodeNat16 json <;> rfl
  · unfold decodeField
    split
    · contradiction
    · contradiction
    · contradiction
    · contradiction
    · rfl

/-- Fields that set the same, whatever they are added to. -/
def DecodesAlike (fields fields' : List (String × Json)) : Prop :=
  ∀ s t : Settings, s.decodeFields fields = .ok t ↔ s.decodeFields fields' = .ok t

theorem decodeFields_cons (s : Settings) (field : String × Json) (fields : List (String × Json)) :
    s.decodeFields (field :: fields)
      = (Setting.decode field.1 field.2).bind fun setting =>
        (s.put setting).decodeFields fields := by
  change (s.decodeField field.1 field.2).bind _ = _
  rw [decodeField_eq]
  cases Setting.decode field.1 field.2 <;> rfl

theorem DecodesAlike.cons {fields fields' : List (String × Json)} (h : DecodesAlike fields fields')
    (field : String × Json) : DecodesAlike (field :: fields) (field :: fields') := by
  intro s t
  rw [decodeFields_cons, decodeFields_cons]
  cases Setting.decode field.1 field.2 with
  | error e => exact Iff.rfl
  | ok setting => exact h (s.put setting) t

/-- Neighbours with different keys may be exchanged. -/
theorem decodesAlike_swap {x y : String × Json} (hne : x.1 ≠ y.1) (fields : List (String × Json)) :
    DecodesAlike (x :: y :: fields) (y :: x :: fields) := by
  intro s t
  simp only [decodeFields_cons]
  cases hx : Setting.decode x.1 x.2 with
  | error e =>
      cases Setting.decode y.1 y.2 with
      | error e' => exact ⟨nofun, nofun⟩
      | ok b => exact ⟨nofun, nofun⟩
  | ok a =>
      cases hy : Setting.decode y.1 y.2 with
      | error e => exact ⟨nofun, nofun⟩
      | ok b =>
          have hkeys : a.key ≠ b.key := by
            rwa [Setting.key_of_decode hx, Setting.key_of_decode hy]
          simp only [Except.bind, put_comm s hkeys]

/-- Fields with distinct keys may be given in any order. -/
theorem decodesAlike_perm {fields fields' : List (String × Json)} (hperm : fields.Perm fields')
    (hdistinct : (fields.map Prod.fst).Nodup) : DecodesAlike fields fields' := by
  induction hperm with
  | nil => exact fun _ _ => Iff.rfl
  | cons x _ ih => exact (ih (List.nodup_cons.1 hdistinct).2).cons x
  | swap x y fields =>
      refine decodesAlike_swap ?_ fields
      simp only [List.map_cons, List.nodup_cons, List.mem_cons, not_or] at hdistinct
      exact hdistinct.1.1
  | trans hperm _ ih ih' =>
      have hdistinct' := (hperm.map Prod.fst).nodup_iff.1 hdistinct
      exact fun s t => (ih hdistinct s t).trans (ih' hdistinct' s t)

/-- A field that is absent may as well be null. -/
theorem decode_insert {key : String} {before after : List (String × Json)}
    (hknown : key ∈ fieldNames) (habsent : key ∉ before.map Prod.fst) (settings : Settings) :
    decode (.obj (before ++ after)) = .ok settings
      ↔ decode (.obj (before ++ (key, .null) :: after)) = .ok settings := by
  -- The field is moved to the front, where nothing is set yet.
  have hfront : DecodesAlike ((key, .null) :: (before ++ after))
      (before ++ (key, .null) :: after) := by
    induction before with
    | nil => exact fun _ _ => Iff.rfl
    | cons x before ih =>
        obtain ⟨hne, habsent⟩ := not_or.1 fun h => habsent (List.mem_cons.2 h)
        have hswap := decodesAlike_swap (x := (key, .null)) (y := x) hne (before ++ after)
        exact fun s t => (hswap s t).trans ((ih habsent).cons x s t)
  refine Iff.trans ?_ (hfront unset settings)
  rw [decodeFields_cons]
  simp only [fieldNames, List.mem_cons, List.not_mem_nil, or_false] at hknown
  rcases hknown with rfl | rfl | rfl | rfl <;> exact Iff.rfl

end Settings

end Cipher

/-! ## Alike descriptions -/

theorem lookup_cons_of_ne {α : Type} {fields : List (String × α)} {key key' : String}
    (h : key ≠ key') (x : α) : ((key', x) :: fields).lookup key = fields.lookup key := by
  rw [List.lookup_cons, beq_false_of_ne h]

theorem lookup_eq_of_perm {α : Type} {fields fields' : List (String × α)}
    (hperm : fields.Perm fields') (hdistinct : (fields.map Prod.fst).Nodup) (key : String) :
    fields'.lookup key = fields.lookup key := by
  induction hperm with
  | nil => rfl
  | cons x _ ih => rw [List.lookup_cons, List.lookup_cons, ih (List.nodup_cons.1 hdistinct).2]
  | swap x y fields =>
      obtain ⟨first, u⟩ := x
      obtain ⟨second, v⟩ := y
      simp only [List.map_cons, List.nodup_cons, List.mem_cons, not_or] at hdistinct
      by_cases hfirst : key = first
      · subst hfirst
        rw [lookup_cons_of_ne (Ne.symm hdistinct.1.1), List.lookup_cons_self,
          List.lookup_cons_self]
      · rw [lookup_cons_of_ne hfirst, List.lookup_cons, List.lookup_cons, lookup_cons_of_ne hfirst]
  | trans hperm _ ih ih' =>
      have hdistinct' := (hperm.map Prod.fst).nodup_iff.1 hdistinct
      exact (ih' hdistinct').trans (ih hdistinct)

namespace Json

variable {drops : Bool} {slot : Slot} {json json' : Json}

/-- Every value is like itself. -/
theorem Alike.refl (drops : Bool) (slot : Slot) (json : Json) : json.Alike drops slot json := by
  refine of_parts (C := fun json => ∀ slot, json.Alike drops slot json)
    (fun json hparts slot => ?_) json slot
  cases json with
  | arr items => exact .of_items (List.forall₂_same.2 fun item hitem => hparts item hitem _)
  | obj fields =>
      have hfields : ∀ x ∈ fields, ∀ slot, x.2.Alike drops slot x.2 :=
        fun x hx => hparts x.2 (List.mem_map_of_mem hx)
      cases hkind : slot.kind? (fields.map Prod.fst) with
      | none => exact .of_fields hkind (List.forall₂_same.2 fun x hx => ⟨rfl, hfields x hx _⟩)
      | some kind =>
          cases hslot : slot.isSettings with
          | true => exact .settings hslot fun _ => Iff.rfl
          | false =>
              refine .of_options hkind hslot ⟨fun hleft hright => ?_, fun hleft hright => ?_,
                fun hleft hright => ?_⟩
              · cases hleft.symm.trans hright
                exact hfields _ (mem_of_lookup hleft) _
              · cases hleft.symm.trans hright
              · cases hleft.symm.trans hright
  | _ => exact .scalar rfl

/-- Nothing is rearranged in a value in which nothing is read as options. -/
theorem Rearranged.ne_plain (h : json.Rearranged slot json') : slot ≠ .plain := by
  induction h with
  | permute hkind =>
      rintro rfl
      cases hkind
  | insert hkind =>
      rintro rfl
      cases hkind
  | item _ ih =>
      rintro rfl
      exact ih rfl
  | field _ ih =>
      rintro rfl
      exact ih rfl

/-- Options under the same keys are alike if they are the same but for one. -/
theorem optionsAlike_of_lookup {kind : OptionKind} {fields fields' : List (String × Json)}
    (h : ∀ key, fields'.lookup key = fields.lookup key
      ∨ ∃ json json', fields.lookup key = some json ∧ fields'.lookup key = some json'
        ∧ json.Alike drops (kind.slot key) json') : OptionsAlike drops kind fields fields' := by
  refine ⟨fun {key json json'} hleft hright => ?_, fun {key json} hleft hright => ?_,
    fun {key json'} hleft hright => ?_⟩
  all_goals
    rcases h key with heq | ⟨value, value', hvalue, hvalue', halike⟩
  · rw [heq, hleft] at hright
    cases hright
    exact .refl _ _ _
  · cases hleft.symm.trans hvalue
    cases hright.symm.trans hvalue'
    exact halike
  · cases hleft.symm.trans (heq.symm.trans hright)
  · cases hright.symm.trans hvalue'
  · cases hright.symm.trans (heq.trans hleft)
  · cases hleft.symm.trans hvalue

/-- A key that is added with null leaves the other options as they are. -/
theorem optionsAlike_insert {kind : OptionKind} {key : String} {before after : List (String × Json)}
    (hknown : key ∈ kind.keys) (hnull : kind.countsNull key = false)
    (habsent : (before ++ after).lookup key = none) :
    OptionsAlike drops kind (before ++ after) (before ++ (key, null) :: after) := by
  have hother : ∀ key', key' ≠ key →
      (before ++ (key, null) :: after).lookup key' = (before ++ after).lookup key' := by
    intro key' hne
    rw [List.lookup_append, List.lookup_append, lookup_cons_of_ne hne]
  have hadded : (before ++ (key, null) :: after).lookup key = some .null := by
    rw [List.lookup_append, Option.or_eq_none_iff] at habsent
    rw [List.lookup_append, habsent.1, List.lookup_cons_self]
    rfl
  refine ⟨fun {key' json json'} hleft hright => ?_, fun {key' json} hleft hright => ?_,
    fun {key' json'} hleft hright => ?_⟩
  all_goals by_cases hkey : key' = key
  · subst hkey
    cases habsent.symm.trans hleft
  · cases hleft.symm.trans ((hother key' hkey).symm.trans hright)
    exact .refl _ _ _
  · subst hkey
    cases habsent.symm.trans hleft
  · cases hleft.symm.trans ((hother key' hkey).symm.trans hright)
  · subst hkey
    cases hadded.symm.trans hright
    exact ⟨hknown, rfl, hnull⟩
  · cases hleft.symm.trans ((hother key' hkey).symm.trans hright)

/-- **A rearranged description is like the original.** -/
theorem Rearranged.alike (h : json.Rearranged slot json') : json.Alike drops slot json' := by
  induction h with
  | @permute slot kind fields fields' hkind hdistinct hperm =>
      cases hslot : slot.isSettings with
      | true =>
          exact .settings hslot fun settings =>
            Settings.decodesAlike_perm hperm hdistinct Settings.unset settings
      | false =>
          exact .of_options hkind hslot
            (optionsAlike_of_lookup fun key => .inl (lookup_eq_of_perm hperm hdistinct key))
  | @insert slot kind key before after hkind hknown habsent hnull =>
      rw [List.map_append, List.mem_append, not_or] at habsent
      cases hslot : slot.isSettings with
      | true =>
          obtain rfl : kind = .settings :=
            Option.some.inj (hkind.symm.trans (Slot.kind?_of_isSettings hslot _))
          exact .settings hslot (Settings.decode_insert hknown habsent.1)
      | false =>
          have hnone : (before ++ after).lookup key = none := by
            rw [lookup_eq_none_iff_contains]
            simpa using habsent
          exact .of_options hkind hslot (optionsAlike_insert hknown hnull hnone)
  | @item slot json json' before after _ ih =>
      refine .of_items (List.rel_append (List.forall₂_same.2 fun _ _ => .refl _ _ _) ?_)
      exact .cons ih (List.forall₂_same.2 fun _ _ => .refl _ _ _)
  | @field slot key json json' before after hjson ih =>
      cases hkind : slot.kind? ((before ++ (key, json) :: after).map Prod.fst) with
      | none =>
          refine .of_fields hkind (List.rel_append
            (List.forall₂_same.2 fun _ _ => ⟨rfl, .refl _ _ _⟩) ?_)
          exact .cons ⟨rfl, ih⟩ (List.forall₂_same.2 fun _ _ => ⟨rfl, .refl _ _ _⟩)
      | some kind =>
          cases hslot : slot.isSettings with
          | true =>
              exact absurd (Slot.field_of_isSettings hslot _ _) hjson.ne_plain
          | false =>
              rw [Slot.field_of_kind? hkind hslot] at ih
              refine .of_options hkind hslot (optionsAlike_of_lookup fun key' => ?_)
              rw [List.lookup_append, List.lookup_append]
              cases before.lookup key' with
              | some value => exact .inl rfl
              | none =>
                  by_cases hkey : key' = key
                  · subst hkey
                    exact .inr ⟨json, json', List.lookup_cons_self, List.lookup_cons_self, ih⟩
                  · rw [lookup_cons_of_ne hkey, lookup_cons_of_ne hkey]
                    exact .inl rfl

end Json

/-! ## Clauses that are left out -/

theorem flatMap_eq_of_forall₂ {α β : Type} {items items' : List α} {f g : α → List β}
    (h : List.Forall₂ (fun a a' => g a' = f a) items items') :
    items'.flatMap g = items.flatMap f := by
  induction h with
  | nil => rfl
  | cons hhead _ ih => rw [List.flatMap_cons, List.flatMap_cons, hhead, ih]

section Omitted

variable {kind : OptionKind} {fields fields' : List (String × Json)}

/-- The same option is left out of both sides, or something of it is. -/
theorem OptionsAlike.omittedAt_eq (h : OptionsAlike false kind fields fields') (key : String)
    (hparts : ∀ json json', fields.lookup key = some json → fields'.lookup key = some json' →
      json'.omitted (kind.slot key) = json.omitted (kind.slot key)) :
    kind.omittedAt fields' key = kind.omittedAt fields key := by
  have hfound := h.found? sizeOf_lt_of_lookup key
  generalize (Json.obj fields).given? key = found, (Json.obj fields').given? key = found' at hfound
  cases hfound with
  | absent hleft hright => rw [hleft, hright]
  | both hleft hright _ hjson =>
      have homission : kind.omission? fields' key = kind.omission? fields key := by
        simp only [OptionKind.omission?, hleft, hright, Option.bind_some, h.isCross_eq,
          hjson.alike.fits_eq]
      simp only [OptionKind.omittedAt, homission, hleft, hright, Option.map_some,
        Option.getD_some, hparts _ _ hleft hright]
  | dropped hdrops => cases hdrops

/-- The parts of both sides are read in the same order. -/
theorem OptionsAlike.order_eq {drops : Bool} (h : OptionsAlike drops kind fields fields') :
    kind.order fields' = kind.order fields := by
  have htable : ((Json.obj fields').given? "table").isSome
      = ((Json.obj fields).given? "table").isSome := by
    have hfound := h.found? sizeOf_lt_of_lookup "table"
    generalize (Json.obj fields).given? "table" = found,
      (Json.obj fields').given? "table" = found' at hfound
    cases hfound with
    | absent => rfl
    | both => rfl
    | dropped _ _ homission => cases homission
  unfold OptionKind.order
  rw [htable]

/-- The other side stands for the same options. -/
theorem OptionsAlike.kind?_eq {drops : Bool} {slot : Slot}
    (h : OptionsAlike drops kind fields fields')
    (hkind : slot.kind? (fields.map Prod.fst) = some kind) :
    slot.kind? (fields'.map Prod.fst) = some kind := by
  cases slot with
  | subquery =>
      change (if (fields.map Prod.fst).contains "refer" then none
        else some (OptionKind.wrapper .refer)) = _ at hkind
      split at hkind
      · cases hkind
      · next hrefer =>
          cases hkind
          have hrefer' : (fields'.map Prod.fst).contains "refer" = false :=
            h.contains_eq_false (by decide) (by simpa using hrefer)
          exact if_neg (by rw [hrefer']; nofun)
  | _ => exact hkind

end Omitted

/-- **The same clauses are left out of alike descriptions, in the same order**, if none of them is
deleted. -/
theorem Json.Alike.omitted_eq {slot : Slot} {json json' : Json} (h : json.Alike false slot json') :
    json'.omitted slot = json.omitted slot := by
  induction h with
  | scalar => rfl
  | arr hlength _ ih =>
      rw [omitted_arr, omitted_arr]
      exact flatMap_eq_of_forall₂ (List.forall₂_iff_zip.2 ⟨hlength, fun hmem => ih _ _ hmem⟩)
  | @fields slot fields fields' hkind hkeys _ ih =>
      have hparts := forall₂_of_keys
        (R := fun x json' => json'.omitted (slot.field (fields.map Prod.fst) x.1)
          = x.2.omitted (slot.field (fields.map Prod.fst) x.1)) hkeys fun hmem => ih _ _ hmem
      rw [omitted_fields hkind, omitted_fields (hkeys ▸ hkind), ← hkeys]
      refine flatMap_eq_of_forall₂ (hparts.imp ?_)
      rintro x x' ⟨hkey, hvalue⟩
      rw [← hkey]
      exact hvalue
  | options hkind hslot hboth hleft hright ih =>
      have hoptions : OptionsAlike false _ _ _ := ⟨hboth _ _ _, hleft _ _, hright _ _⟩
      rw [omitted_options hkind, omitted_options (hoptions.kind?_eq hkind), hoptions.order_eq]
      exact List.flatMap_congr fun key _ => hoptions.omittedAt_eq key (ih key)
  | settings hslot =>
      rw [omitted_options (Slot.kind?_of_isSettings hslot _),
        omitted_options (Slot.kind?_of_isSettings hslot _)]
      rfl

end QueryTree

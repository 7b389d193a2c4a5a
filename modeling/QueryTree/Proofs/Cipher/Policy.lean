import QueryTree.Proofs.Cipher.Form

/-!
# Policies for settings

Four ways to change the settings in a description, each with what it does to the tree.

* `Policy.keep`: nothing is changed.
* `Policy.mask`: the contents of secrets and of initial vectors are blotted out.
* `Policy.inactive`: columns are neither decrypted nor encrypted.
* `Policy.bare`: besides, all other settings are dropped.
-/

namespace QueryTree

open Cipher (Settings)
open Reading (Becomes Related)

/-! ## Nothing changed -/

/-- Settings as they are. -/
def Policy.keep : Policy := ⟨id, id, id⟩

/-- Trees as they are. -/
def Recasting.keep : Recasting := ⟨some id, some id⟩

theorem Recasting.aroundOf_keep (settings : Option Settings) :
    Recasting.keep.aroundOf settings = settings := by
  cases settings <;> rfl

theorem Recasting.columnsOf_keep (columns : List (String × Settings)) :
    Recasting.keep.columnsOf columns = columns :=
  List.filterMap_some

theorem Policy.realizes_keep : Policy.keep.Realizes .keep where
  settings json := by
    change decodeOptional Settings.decode json = _
    cases decodeOptional Settings.decode json with
    | error e => rfl
    | ok settings => rw [Except.map, Recasting.aroundOf_keep]
  decrypt json := by
    change Settings.decodeSwitch json = _
    cases Settings.decodeSwitch json with
    | error e => rfl
    | ok settings => cases settings <;> rfl
  encrypt path json := .refl (fun columns => (Recasting.columnsOf_keep columns).symm) _

/-- Keeping all settings keeps the description. -/
theorem Json.recast_keep (json : Json) (form : Form) : json.recast .keep form = json := by
  suffices hinside : json.Inside fun json => ∀ form, json.recast .keep form = json by
    obtain ⟨hjson, -⟩ := hinside
    exact hjson form
  refine json.inside_of_step fun json hparts form => ?_
  have hpart : ∀ part ∈ json.parts, ∀ form, part.recast .keep form = part := by
    intro part hpart
    obtain ⟨hpart, -⟩ := hparts part hpart
    exact hpart
  cases hform : form.isCompound with
  | false => cases form <;> cases json <;> first | rfl | cases hform
  | true =>
      cases json with
      | arr items =>
          rw [Json.recast_arr hform]
          refine congrArg Json.arr (Eq.trans ?_ (List.map_id items))
          exact List.map_congr_left fun x hx => hpart x hx _
      | obj fields =>
          rw [Json.recast_obj hform]
          refine congrArg Json.obj (Eq.trans ?_ (List.map_id fields))
          refine List.map_congr_left fun x hx => ?_
          rw [hpart x.2 (List.mem_map_of_mem hx)]
          rfl
      | _ =>
          rw [Json.recast_scalar hform]
          all_goals nofun

/-! ## Secrets and vectors blotted out -/

namespace Cipher.Settings

/-- Settings without the contents of the secret and of the vector. -/
def masked (settings : Settings) : Settings :=
  { settings with
    secret := settings.secret.map fun _ => ""
    vector := settings.vector.map fun _ => "" }

end Cipher.Settings

/-- The fields whose contents are blotted out. -/
def maskedFields : List String :=
  ["secret", "iv"]

/-- A field of settings, its text blotted out if it is a secret or a vector. -/
def maskField (key : String) : Json → Json
  | .str s => .str (if maskedFields.contains key then "" else s)
  | json => json

/-- Fields in a given order, as they stand in a list. -/
def maskItems : List String → List Json → List Json
  | key :: keys, json :: items => maskField key json :: maskItems keys items
  | _, items => items

/-- Settings, as an object or as a list, without the contents of the secret and of the vector. -/
def maskSettings : Json → Json
  | .obj fields => .obj (fields.map fun x => (x.1, maskField x.1 x.2))
  | .arr items => .arr (maskItems Settings.fieldNames items)
  | json => json

/-- Settings of columns without the contents of secrets and vectors. -/
def maskColumns : Json → Json
  | .obj fields => .obj (fields.map fun x => (x.1, maskSettings x.2))
  | json => json

/-- The contents of secrets and vectors are blotted out. -/
def Policy.mask : Policy := ⟨maskSettings, maskSettings, maskColumns⟩

/-- The same in trees. -/
def Recasting.mask : Recasting := ⟨some Settings.masked, some Settings.masked⟩

/-- A text that may be absent, blotted out. -/
theorem decodeOptional_maskField {key : String} (hkey : key ∈ maskedFields) (json : Json) :
    decodeOptional decodeText (maskField key json)
      = (decodeOptional decodeText json).map (Option.map fun _ => "") := by
  cases json with
  | str s => simp [maskField, hkey, decodeOptional, decodeText, Except.map]
  | _ => rfl

theorem maskField_of_not_mem {key : String} (hkey : key ∉ maskedFields) (json : Json) :
    maskField key json = json := by
  cases json with
  | str s => simp [maskField, hkey]
  | _ => rfl

/-- Setting a field that is blotted out. -/
theorem decodeField_masked (settings : Settings) (key : String) (json : Json) :
    settings.masked.decodeField key (maskField key json)
      = (settings.decodeField key json).map Settings.masked := by
  unfold Settings.decodeField
  split
  · rw [maskField_of_not_mem (by decide)]
    cases decodeOptional (decodeNamed Cipher.Mode) json <;> rfl
  · rw [decodeOptional_maskField (by decide)]
    cases decodeOptional decodeText json <;> rfl
  · rw [decodeOptional_maskField (by decide)]
    cases decodeOptional decodeText json <;> rfl
  · rw [maskField_of_not_mem (by decide)]
    cases decodeOptional decodeNat16 json <;> rfl
  · rfl

theorem decodeFields_masked (settings : Settings) (fields : List (String × Json)) :
    settings.masked.decodeFields (fields.map fun x => (x.1, maskField x.1 x.2))
      = (settings.decodeFields fields).map Settings.masked := by
  induction fields generalizing settings with
  | nil => rfl
  | cons field fields ih =>
      obtain ⟨key, json⟩ := field
      rw [List.map_cons, Settings.decodeFields, Settings.decodeFields, decodeField_masked]
      cases settings.decodeField key json with
      | error e => rfl
      | ok settings => exact ih settings

theorem zip_maskItems (keys : List String) (items : List Json) :
    keys.zip (maskItems keys items) = (keys.zip items).map fun x => (x.1, maskField x.1 x.2) := by
  induction keys generalizing items with
  | nil => rfl
  | cons key keys ih =>
      cases items with
      | nil => rfl
      | cons json items => rw [maskItems, List.zip_cons_cons, ih, List.zip_cons_cons, List.map_cons]

theorem length_maskItems (keys : List String) (items : List Json) :
    (maskItems keys items).length = items.length := by
  induction keys generalizing items with
  | nil => rfl
  | cons key keys ih =>
      cases items with
      | nil => rfl
      | cons json items => rw [maskItems, List.length_cons, ih, List.length_cons]

/-- **Settings that are blotted out are read as the settings, blotted out.** -/
theorem decode_maskSettings (json : Json) :
    Settings.decode (maskSettings json) = (Settings.decode json).map Settings.masked := by
  cases json with
  | obj fields => exact decodeFields_masked .unset fields
  | arr items =>
      have hfields := decodeFields_masked .unset (Settings.fieldNames.zip items)
      rw [maskSettings, Settings.decode, Settings.decode, zip_maskItems, length_maskItems]
      change (Settings.unset.masked.decodeFields _ >>= _) = _
      rw [hfields]
      cases Settings.unset.decodeFields (Settings.fieldNames.zip items) with
      | error e => rfl
      | ok settings =>
          change (if items.length < 4 then _ else _)
            = Except.map _ (if items.length < 4 then _ else _)
          split
          · rfl
          · split <;> rfl
  | _ => rfl

theorem map_some_masked {x y : Except DecodeError Settings} (h : y = x.map Settings.masked)
    {f : Option Settings → Option Settings}
    (hf : ∀ settings, f (some settings) = some settings.masked) :
    y.map some = (x.map some).map f := by
  subst h
  cases x with
  | error e => rfl
  | ok settings => simp [Except.map, hf]

theorem becomes_readColumn_mask (path : String) (field : String × Json) :
    Becomes (fun x => (x.1, x.2.masked)) (readColumn path field)
      (readColumn path (field.1, maskSettings field.2)) := by
  refine .bindTo (Record.Recast.becomes_decoded _ (decode_maskSettings field.2)) fun settings => ?_
  exact .pure rfl

theorem Policy.realizes_mask : Policy.mask.Realizes .mask where
  settings json := by
    have hdecode := decode_maskSettings json
    cases json with
    | null => rfl
    | arr items | obj fields => exact map_some_masked hdecode fun _ => rfl
    | _ => rfl
  decrypt json := by
    have hdecode := decode_maskSettings json
    cases json with
    | null => rfl
    | bool b => cases b <;> rfl
    | arr items | obj fields => exact map_some_masked hdecode fun _ => rfl
    | _ => rfl
  encrypt path json := by
    cases json with
    | null => exact .pure rfl
    | obj fields =>
        change Becomes _ (fields.mapM (readColumn path)) ((fields.map _).mapM (readColumn path))
        rw [List.mapM_map]
        refine (Related.mapM fields fun x _ => becomes_readColumn_mask path x).congr ?_
        exact fun columns => (congrFun List.filterMap_eq_map' columns).symm
    | _ => exact .invalid _ _

/-! ## Settings dropped -/

/-- Null in the place of settings, unless they are ill-formed. -/
def dropSettings (json : Json) : Json :=
  match decodeOptional Settings.decode json with
  | .ok _ => .null
  | .error _ => json

/-- Null in the place of what switches decryption on. -/
def dropDecrypt (json : Json) : Json :=
  match Settings.decodeSwitch json with
  | .ok (some _) => .null
  | _ => json

/-- Null in the place of the settings of columns, unless there are none or some are
ill-formed. -/
def dropEncrypt : Json → Json
  | .obj (field :: fields) =>
    if (field :: fields).all fun x => (Settings.decode x.2).isOk then .null
    else .obj (field :: fields)
  | json => json

/-- Columns are neither decrypted nor encrypted. -/
def Policy.inactive : Policy := ⟨id, dropDecrypt, dropEncrypt⟩

/-- The same in trees. -/
def Recasting.inactive : Recasting := ⟨some id, none⟩

/-- All settings are dropped. -/
def Policy.bare : Policy := ⟨dropSettings, dropDecrypt, dropEncrypt⟩

/-- The same in trees. -/
def Recasting.bare : Recasting := ⟨none, none⟩

theorem decode_dropSettings (json : Json) :
    decodeOptional Settings.decode (dropSettings json)
      = (decodeOptional Settings.decode json).map fun _ => none := by
  unfold dropSettings
  cases h : decodeOptional Settings.decode json with
  | ok settings => rfl
  | error e => exact h

theorem decodeSwitch_dropDecrypt (json : Json) :
    Settings.decodeSwitch (dropDecrypt json) = (Settings.decodeSwitch json).map fun _ => none := by
  unfold dropDecrypt
  cases h : Settings.decodeSwitch json with
  | error e => exact h
  | ok settings =>
      cases settings with
      | some settings => rfl
      | none => exact h

/-- The settings of columns are all read, or the first that is ill-formed is refused. -/
theorem readColumns_cases (path : String) (fields : List (String × Json)) :
    ((fields.all fun x => (Settings.decode x.2).isOk) = true
        ∧ ∃ columns, fields.mapM (readColumn path) = pure columns)
      ∨ ((fields.all fun x => (Settings.decode x.2).isOk) = false
        ∧ ∃ e, fields.mapM (readColumn path) = throw e) := by
  induction fields with
  | nil => exact .inl ⟨rfl, [], rfl⟩
  | cons field fields ih =>
      obtain ⟨column, json⟩ := field
      rw [List.mapM_cons, List.all_cons, readColumn]
      cases Settings.decode json with
      | error e => exact .inr ⟨rfl, .invalid (path ++ "." ++ column) (.decode e), rfl⟩
      | ok settings =>
          rcases ih with ⟨hall, columns, hread⟩ | ⟨hall, e, hread⟩
          · refine .inl ⟨hall, (column, settings) :: columns, ?_⟩
            rw [hread]
            rfl
          · refine .inr ⟨hall, e, ?_⟩
            rw [hread]
            rfl

theorem becomes_readColumns_drop (path : String) (json : Json) :
    Becomes (fun _ => []) (readColumns path json) (readColumns path (dropEncrypt json)) := by
  cases json with
  | null => exact .pure rfl
  | obj fields =>
      cases fields with
      | nil => exact .pure rfl
      | cons field fields =>
          rw [dropEncrypt]
          rcases readColumns_cases path (field :: fields) with
            ⟨hall, columns, hread⟩ | ⟨hall, e, hread⟩
          · rw [if_pos hall, readColumns, readColumns, hread]
            exact .pure rfl
          · rw [if_neg (by rw [hall]; nofun), readColumns, hread]
            exact .throw e
  | _ => exact .invalid _ _

/-- No column has settings left. -/
theorem columnsOf_eq_nil {p : Recasting} (hp : p.column = none)
    (columns : List (String × Settings)) : p.columnsOf columns = [] := by
  simp [Recasting.columnsOf, Recasting.columnOf, hp]

theorem bind_columnOf_eq_none {p : Recasting} (hp : p.column = none)
    (settings : Option Settings) : settings.bind p.columnOf = none := by
  cases settings <;> simp [Recasting.columnOf, hp]

theorem Policy.realizes_inactive : Policy.inactive.Realizes .inactive where
  settings := Policy.realizes_keep.settings
  decrypt json := by
    simp only [bind_columnOf_eq_none (p := .inactive) rfl]
    exact decodeSwitch_dropDecrypt json
  encrypt path json :=
    (becomes_readColumns_drop path json).congr fun columns => (columnsOf_eq_nil rfl columns).symm

theorem Policy.realizes_bare : Policy.bare.Realizes .bare where
  settings := decode_dropSettings
  decrypt json := by
    simp only [bind_columnOf_eq_none (p := .bare) rfl]
    exact decodeSwitch_dropDecrypt json
  encrypt path json :=
    (becomes_readColumns_drop path json).congr fun columns => (columnsOf_eq_nil rfl columns).symm

end QueryTree

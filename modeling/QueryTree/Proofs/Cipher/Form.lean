import QueryTree.Proofs.Cipher.Recast
import QueryTree.Proofs.Reading.Parts
import QueryTree.Proofs.Reading.Record
import QueryTree.Proofs.Reading.Related

/-!
# Settings in descriptions

Where encryption settings stand in the JSON description of a statement, and the description with
other settings in their place. A key such as `encryption` means settings only among options: it may
as well be a column of a condition or a field of an object to build.

* `Form`: what a value is read as; `Form.field` and `Form.item` give the forms of its parts.
* `Policy`: what is put in the place of settings, and `Json.recast` the description with it.
* `Policy.Realizes`: a policy changes JSON as a recasting changes trees.
* `Record.Recast`: the options of a description and those of the recast one.
-/

namespace QueryTree

open Cipher (Settings)
open Reading (Becomes Related)

/-! ## Forms -/

/-- What a value in a description is read as, as far as settings may stand in it. -/
inductive Form where
  /-- Nothing in it is read as settings. -/
  | verbatim
  /-- The settings of a statement, a query or a wrapper. -/
  | settings
  /-- Whether a column is decrypted. -/
  | decrypt
  /-- The settings of the columns that are encrypted. -/
  | encrypt
  /-- An expression or a condition, or a list of these. -/
  | expr
  /-- An object whose fields are all read alike, or a list of these. -/
  | fields (of : Form)
  /-- The options of a wrapper, or else of a statement, a query, a join or a branch. -/
  | options (kind : Option WrapperKind)
  /-- A query to test for rows. -/
  | subquery
  /-- The parts of a JSON value to build. -/
  | body
deriving DecidableEq, Repr

namespace Form

/-- The form of what is under a key of a condition. -/
def ofEntry (key : String) : Form :=
  match Signature.ofKey? key with
  | some (.wrapper kind) => .options (some kind)
  | some (.combinator .between) => .fields .expr
  | some (.combinator _) => .expr
  | none =>
    match ofName? Comparator key with
    | some .hasRows | some .hasNoRows => .subquery
    | _ => .expr

/-- The form of an option. Options of the same name have the same form but for three. -/
def ofOption (kind : Option WrapperKind) (key : String) : Form :=
  match key with
  | "encryption" => .settings
  | "decrypt" => .decrypt
  | "encrypt" => .encrypt
  | "value" => if kind = some .json ∨ kind = some .array then .body else .expr
  | "add" | "sub" => if kind = some .date then .verbatim else .expr
  | "check" => if kind = some .cases then .options none else .expr
  | "compare" | "trueValue" | "falseValue" | "when" | "then" | "else" | "ifNull" => .expr
  | "power" | "divideBy" | "mod" | "multiplyBy" => .expr
  | "select" | "where" | "groupBy" | "having" => .expr
  | "join" => .options none
  | "using" | "data" | "upsert" | "substr" | "replace" => .fields .expr
  | "padding" => .fields (.fields .expr)
  | _ => .verbatim

/-- The form of an object with given keys. -/
def ofKeys (keys : List String) : Form → Form
  | .subquery => if keys.contains "refer" then .expr else .options (some .refer)
  | .body =>
    match keys with
    | [key] => if (Signature.ofKey? key).isSome then .expr else .fields .expr
    | _ => .fields .expr
  | form => form

/-- The form of a field of an object. -/
def field (form : Form) (key : String) : Form :=
  match form with
  | .expr => ofEntry key
  | .fields of => of
  | .options kind => ofOption kind key
  | _ => .verbatim

/-- The form of an item of an array. -/
def item : Form → Form
  | .body => .expr
  | form => form

/-- Whether a value of a form is changed in its parts only. -/
def isCompound : Form → Bool
  | .expr | .fields _ | .options _ | .subquery | .body => true
  | .verbatim | .settings | .decrypt | .encrypt => false

end Form

/-- What is put in the place of settings, by their form. -/
structure Policy where
  settings : Json → Json
  decrypt : Json → Json
  encrypt : Json → Json

mutual

/-- A description with other settings. -/
def Json.recast (P : Policy) : Form → Json → Json
  | .verbatim, json => json
  | .settings, json => P.settings json
  | .decrypt, json => P.decrypt json
  | .encrypt, json => P.encrypt json
  | form, .arr items => .arr (recastJsonItems P form.item items)
  | form, .obj fields => .obj (recastJsonFields P (form.ofKeys (fields.map Prod.fst)) fields)
  | _, .null => .null
  | _, .bool b => .bool b
  | _, .num n => .num n
  | _, .str s => .str s

/-- The items of an array with other settings. -/
def recastJsonItems (P : Policy) (form : Form) : List Json → List Json
  | [] => []
  | json :: rest => json.recast P form :: recastJsonItems P form rest

/-- The fields of an object with other settings. -/
def recastJsonFields (P : Policy) (form : Form) : List (String × Json) → List (String × Json)
  | [] => []
  | (key, json) :: rest => (key, json.recast P (form.field key)) :: recastJsonFields P form rest

end

section Lists

variable {P : Policy} {form : Form}

theorem recastJsonItems_eq_map (items : List Json) :
    recastJsonItems P form items = items.map (Json.recast P form) := by
  induction items with
  | nil => rfl
  | cons json items ih => rw [recastJsonItems, ih, List.map_cons]

theorem recastJsonFields_eq_map (fields : List (String × Json)) :
    recastJsonFields P form fields
      = fields.map fun x => (x.1, x.2.recast P (form.field x.1)) := by
  induction fields with
  | nil => rfl
  | cons field fields ih => rw [recastJsonFields, ih, List.map_cons]

theorem Json.recast_verbatim (json : Json) : json.recast P .verbatim = json := by
  cases json <;> rfl

theorem Json.recast_settings (json : Json) : json.recast P .settings = P.settings json := by
  cases json <;> rfl

theorem Json.recast_decrypt (json : Json) : json.recast P .decrypt = P.decrypt json := by
  cases json <;> rfl

theorem Json.recast_encrypt (json : Json) : json.recast P .encrypt = P.encrypt json := by
  cases json <;> rfl

theorem Json.recast_arr (hform : form.isCompound) (items : List Json) :
    (Json.arr items).recast P form = .arr (items.map (Json.recast P form.item)) := by
  rw [← recastJsonItems_eq_map]
  cases form <;> first | rfl | cases hform

theorem Json.recast_obj (hform : form.isCompound) (fields : List (String × Json)) :
    (Json.obj fields).recast P form = .obj (fields.map fun x =>
      (x.1, x.2.recast P ((form.ofKeys (fields.map Prod.fst)).field x.1))) := by
  rw [← recastJsonFields_eq_map]
  cases form <;> first | rfl | cases hform

theorem Json.recast_scalar (hform : form.isCompound) {json : Json}
    (harr : ∀ items, json ≠ .arr items) (hobj : ∀ fields, json ≠ .obj fields) :
    json.recast P form = json := by
  cases json with
  | arr items => exact absurd rfl (harr items)
  | obj fields => exact absurd rfl (hobj fields)
  | _ => cases form <;> first | rfl | cases hform

end Lists

/-! ## Readings of recast values -/

/-- A value reads recast as its tree is recast. -/
structure Json.Follows (P : Policy) (p : Recasting) (json : Json) : Prop where
  expr : Becomes (Expr.recast p) (Node.ofJson json).expr (Node.ofJson (json.recast P .expr)).expr
  item : Becomes (Expr.recast p) (Node.ofJson json).item (Node.ofJson (json.recast P .expr)).item
  condition (owner : String) : Becomes (recastEntries p) ((Node.ofJson json).condition owner)
    ((Node.ofJson (json.recast P .expr)).condition owner)
  join : Becomes (Join.recast p) (Node.ofJson json).join
    (Node.ofJson (json.recast P (.options none))).join

/-- Settings of a column that is decrypted: a boolean, or settings of its own. -/
def Cipher.Settings.decodeSwitch : Json → Except DecodeError (Option Settings)
  | .bool true => .ok (some .unset)
  | .bool false | .null => .ok none
  | other => (Settings.decode other).map some

/-- A column that is encrypted, with its settings. -/
def readColumn (path : String) (field : String × Json) : Reading (String × Settings) := do
  return (field.1, ← Reading.decoded (path ++ "." ++ field.1) (Settings.decode field.2))

/-- The columns that are encrypted; null means none. -/
def readColumns (path : String) : Json → Reading (List (String × Settings))
  | .null => pure []
  | .obj fields => fields.mapM (readColumn path)
  | _ => Reading.invalid path (.expected .object)

/-- Columns with other settings, or without those whose settings are dropped. -/
def Recasting.columnsOf (p : Recasting) (columns : List (String × Settings)) :
    List (String × Settings) :=
  columns.filterMap fun (column, settings) => (p.columnOf settings).map (column, ·)

/-- A policy changes JSON as a recasting changes what is read from it. -/
structure Policy.Realizes (P : Policy) (p : Recasting) : Prop where
  settings (json : Json) : decodeOptional Settings.decode (P.settings json)
    = (decodeOptional Settings.decode json).map p.aroundOf
  decrypt (json : Json) : Settings.decodeSwitch (P.decrypt json)
    = (Settings.decodeSwitch json).map (·.bind p.columnOf)
  encrypt (path : String) (json : Json) :
    Becomes p.columnsOf (readColumns path json) (readColumns path (P.encrypt json))

/-! ## Options -/

/-- A node of a value and the node of the recast value. -/
def Node.Recast (P : Policy) (p : Recasting) (form : Form) (node node' : Node) : Prop :=
  ∃ json : Json, json.Inside (Json.Follows P p) ∧ node = Node.ofJson json
    ∧ node' = Node.ofJson (json.recast P form)

/-- The options of a description and those of the recast one. -/
structure Record.Recast (P : Policy) (p : Recasting) (form : Form) (record record' : Record) :
    Prop where
  owner_eq : record'.owner = record.owner
  given (key : String) : Option.Rel (Node.Recast P p (form.field key)) (record.given? key)
    (record'.given? key)

theorem Node.Recast.of {P : Policy} {p : Recasting} {json : Json}
    (hjson : json.Inside (Json.Follows P p)) (form : Form) :
    Node.Recast P p form (Node.ofJson json) (Node.ofJson (json.recast P form)) :=
  ⟨json, hjson, rfl, rfl⟩

namespace Record.Recast

variable {P : Policy} {p : Recasting} {form : Form} {record record' : Record}

theorem path_eq (h : record.Recast P p form record') (key : String) :
    record'.path key = record.path key := by
  rw [Record.path, Record.path, h.owner_eq]

/-! ### Options without settings in them -/

theorem given?_eq (h : record.Recast P p form record') (key : String)
    (hform : form.field key = .verbatim) :
    record'.given? key = record.given? key := by
  have hgiven := h.given key
  rw [hform] at hgiven
  generalize record.given? key = node, record'.given? key = node' at hgiven
  cases hgiven with
  | none => rfl
  | some hnode =>
      obtain ⟨json, -, rfl, rfl⟩ := hnode
      rw [Json.recast_verbatim]

theorem get?_eq (h : record.Recast P p form record') (key : String)
    (hform : form.field key = .verbatim) :
    record'.get? key = record.get? key := by
  rw [Record.get?, Record.get?, h.given?_eq key hform]

theorem json?_eq (h : record.Recast P p form record') (key : String)
    (hform : form.field key = .verbatim) :
    record'.json? key = record.json? key := by
  rw [Record.json?, Record.json?, h.get?_eq key hform]

theorem string?_eq (h : record.Recast P p form record') (key : String)
    (hform : form.field key = .verbatim) :
    record'.string? key = record.string? key := by
  simp only [Record.string?, Record.optional, h.get?_eq key hform, h.path_eq]

theorem string_eq (h : record.Recast P p form record') (key : String)
    (hform : form.field key = .verbatim) :
    record'.string key = record.string key := by
  simp only [Record.string, h.string?_eq key hform, h.owner_eq]

theorem strings_eq (h : record.Recast P p form record') (key : String)
    (hform : form.field key = .verbatim) :
    record'.strings key = record.strings key := by
  simp only [Record.strings, h.json?_eq key hform, h.path_eq]

theorem flag_eq (h : record.Recast P p form record') (key : String)
    (hform : form.field key = .verbatim) :
    record'.flag key = record.flag key := by
  simp only [Record.flag, h.json?_eq key hform, h.path_eq]

theorem count?_eq (h : record.Recast P p form record') (key : String)
    (hform : form.field key = .verbatim) :
    record'.count? key = record.count? key := by
  simp only [Record.count?, h.json?_eq key hform, h.path_eq]

theorem named?_eq {α : Type} [Named α] (h : record.Recast P p form record') (key : String)
    (hform : form.field key = .verbatim) : record'.named? α key = record.named? α key := by
  simp only [Record.named?, Record.optional, h.get?_eq key hform, h.path_eq]

/-! ### Options with settings in them -/

theorem get? (h : record.Recast P p form record') (key : String)
    (hform : (form.field key).isCompound) :
    Option.Rel (Node.Recast P p (form.field key)) (record.get? key) (record'.get? key) := by
  have hgiven := h.given key
  unfold Record.get?
  generalize record.given? key = node, record'.given? key = node' at hgiven
  cases hgiven with
  | none => exact .none
  | some hnode =>
      obtain ⟨json, hjson, rfl, rfl⟩ := hnode
      have hrecast := Node.Recast.of hjson (form.field key)
      simp only [Node.json_ofJson]
      cases json with
      | null =>
          rw [Json.recast_scalar hform]
          · exact .none
          all_goals nofun
      | arr items =>
          rw [Json.recast_arr hform] at hrecast ⊢
          exact .some hrecast
      | obj fields =>
          rw [Json.recast_obj hform] at hrecast ⊢
          exact .some hrecast
      | _ =>
          rw [Json.recast_scalar hform] at hrecast ⊢
          · exact .some hrecast
          all_goals nofun

/-- What is done depending on whether an option is given and not null. -/
theorem whenGiven {α β : Type} {S : α → β → Prop} (h : record.Recast P p form record')
    (key : String) (hform : (form.field key).isCompound) {k : Node → Reading α}
    {l : Node → Reading β} {x : Reading α} {y : Reading β} (hxy : Related S x y)
    (hk : ∀ node node', Node.Recast P p (form.field key) node node' →
      Related S (k node) (l node')) :
    Related S
      (match record.get? key with
        | some node => k node
        | none => x)
      (match record'.get? key with
        | some node => l node
        | none => y) := by
  have hget := h.get? key hform
  generalize record.get? key = node, record'.get? key = node' at hget
  cases hget with
  | none => exact hxy
  | some hnode => exact hk _ _ hnode

theorem require (h : record.Recast P p form record') (key : String)
    (hform : (form.field key).isCompound) :
    Related (Node.Recast P p (form.field key)) (record.require key) (record'.require key) := by
  unfold Record.require
  rw [h.owner_eq]
  exact h.whenGiven key hform (.throw _) fun _ _ hnode => .pure hnode

theorem requireGiven (h : record.Recast P p form record') (key : String) :
    Related (Node.Recast P p (form.field key)) (record.requireGiven key)
      (record'.requireGiven key) := by
  have hgiven := h.given key
  unfold Record.requireGiven
  generalize record.given? key = node, record'.given? key = node' at hgiven
  cases hgiven with
  | none =>
      rw [h.owner_eq]
      exact .throw _
  | some hnode => exact .pure hnode

/-- An option that may be absent, read from a node. -/
theorem optional {α β : Type} (h : record.Recast P p form record') (key : String)
    (hform : (form.field key).isCompound) {read : Node → Reading α} {read' : Node → Reading β}
    {f : α → β} (hread : ∀ node node', Node.Recast P p (form.field key) node node' →
      Becomes f (read node) (read' node')) :
    Becomes (Option.map f) (record.optional key read) (record'.optional key read') := by
  unfold Record.optional
  exact h.whenGiven key hform (.pure rfl) fun _ _ hnode => (hread _ _ hnode).mapTo fun _ => rfl

theorem expr? (h : record.Recast P p form record') (key : String)
    (hform : form.field key = .expr) :
    Becomes (recastExpr? p) (record.expr? key) (record'.expr? key) := by
  rw [show recastExpr? p = Option.map (Expr.recast p) from funext recastExpr?_eq_map]
  refine h.optional key (by rw [hform]; rfl) ?_
  rw [hform]
  rintro _ _ ⟨json, ⟨hjson, -⟩, rfl, rfl⟩
  exact hjson.expr

theorem condition? (h : record.Recast P p form record') (key : String)
    (hform : form.field key = .expr) :
    Becomes (recastFilter p) (record.condition? key) (record'.condition? key) := by
  rw [show recastFilter p = Option.map (recastEntries p) from funext recastFilter_eq_map,
    Record.condition?, Record.condition?, h.path_eq]
  refine h.optional key (by rw [hform]; rfl) ?_
  rw [hform]
  rintro _ _ ⟨json, ⟨hjson, -⟩, rfl, rfl⟩
  exact hjson.condition _

/-! ### Settings -/

/-- A decoded value that is changed. -/
theorem becomes_decoded {α β : Type} {f : α → β} (path : String) {x : Except DecodeError α}
    {y : Except DecodeError β} (h : y = x.map f) :
    Becomes f (Reading.decoded path x) (Reading.decoded path y) := by
  subst h
  cases x with
  | ok a => exact .pure rfl
  | error e => exact .invalid _ _

theorem settings?_eq (record : Record) (key : String) :
    record.settings? key = (record.given? key).elim (pure none) fun node =>
      Reading.decoded (record.path key) (decodeOptional Settings.decode node.json) := by
  unfold Record.settings? Record.optional Record.get?
  cases record.given? key with
  | none => rfl
  | some node =>
      obtain ⟨json, items, fields, expr, item, condition, join⟩ := node
      cases json with
      | null => rfl
      | _ =>
          simp only [decodeOptional, Option.elim_some]
          generalize Settings.decode _ = result
          cases result <;> rfl

theorem settings? (hP : P.Realizes p) (h : record.Recast P p form record') (key : String)
    (hform : form.field key = .settings) :
    Becomes p.aroundOf (record.settings? key) (record'.settings? key) := by
  have hgiven := h.given key
  rw [settings?_eq, settings?_eq, h.path_eq]
  rw [hform] at hgiven
  generalize record.given? key = node, record'.given? key = node' at hgiven
  cases hgiven with
  | none =>
      refine .pure ?_
      simp [Recasting.aroundOf]
  | some hnode =>
      obtain ⟨json, -, rfl, rfl⟩ := hnode
      refine becomes_decoded _ ?_
      simp only [Node.json_ofJson]
      rw [Json.recast_settings, hP.settings]

end Record.Recast

/-! ### Objects as options -/

section Objects

variable {P : Policy} {p : Recasting} {form : Form}

/-- The fields of an object and those of the recast one. -/
theorem Record.recast_ofFields (owner : String) (known : List String)
    {fields : List (String × Json)} (hfields : ∀ x ∈ fields, x.2.Inside (Json.Follows P p)) :
    Related (Record.Recast P p form)
      (Record.ofFields owner known (fields.map fun x => (x.1, Node.ofJson x.2)))
      (Record.ofFields owner known
        (fields.map fun x => (x.1, Node.ofJson (x.2.recast P (form.field x.1))))) := by
  unfold Record.ofFields
  simp only [List.find?_map, Function.comp_def]
  cases fields.find? _ with
  | some field => exact .throw _
  | none =>
      refine .pure ⟨rfl, fun key => ?_⟩
      simp only [Record.given?]
      induction fields with
      | nil => exact .none
      | cons field fields ih =>
          obtain ⟨name, json⟩ := field
          have hjson := hfields (name, json) List.mem_cons_self
          rw [List.map_cons, List.map_cons, List.lookup_cons, List.lookup_cons]
          by_cases hkey : key = name
          · subst hkey
            simp only [beq_self_eq_true]
            exact .some (Node.Recast.of hjson (form.field key))
          · have hne : (key == name) = false := by simpa using hkey
            simp only [hne]
            exact ih fun x hx => hfields x (List.mem_cons_of_mem _ hx)

/-- A node as an option object, in a form that does not depend on the keys. -/
theorem Node.Recast.record (owner : String) (known : List String) {node node' : Node}
    (h : Node.Recast P p form node node') (hform : form.isCompound)
    (hkeys : ∀ keys, form.ofKeys keys = form) :
    Related (Record.Recast P p form) (Record.ofNode owner known node)
      (Record.ofNode owner known node') := by
  obtain ⟨json, ⟨-, hparts⟩, rfl, rfl⟩ := h
  cases json with
  | obj fields =>
      rw [Json.recast_obj hform, hkeys]
      change Related _ (Record.ofFields owner known (Json.foldFields Node.algebra fields))
        (Record.ofFields owner known (Json.foldFields Node.algebra _))
      rw [foldFields_algebra, foldFields_algebra, List.map_map]
      exact Record.recast_ofFields owner known fun x hx => hparts _ (List.mem_map_of_mem hx)
  | arr items =>
      rw [Json.recast_arr hform]
      exact .invalid _ _
  | _ =>
      rw [Json.recast_scalar hform]
      · exact .invalid _ _
      all_goals nofun

/-- The items of an array, read one by one. -/
theorem becomes_items {α β : Type} {read : Node → Reading α} {read' : Node → Reading β}
    {f : α → β} {items : List Json}
    (hitems : ∀ json ∈ items, json.Inside (Json.Follows P p))
    (hread : ∀ node node', Node.Recast P p form node node' → Becomes f (read node) (read' node')) :
    Becomes (List.map f) ((Json.foldItems Node.algebra items).mapM read)
      ((Json.foldItems Node.algebra (recastJsonItems P form items)).mapM read') := by
  rw [foldItems_algebra, foldItems_algebra, recastJsonItems_eq_map, List.mapM_map, List.mapM_map,
    List.mapM_map]
  exact .mapM items fun json hjson => hread _ _ (.of (hitems json hjson) form)

/-- The fields of an object, read one by one. -/
theorem becomes_fields {α β : Type} (form : Form) {read : String × Node → Reading α}
    {read' : String × Node → Reading β} {f : α → β} {fields : List (String × Json)}
    (hfields : ∀ x ∈ fields, x.2.Inside (Json.Follows P p))
    (hread : ∀ key node node', Node.Recast P p (form.field key) node node' →
      Becomes f (read (key, node)) (read' (key, node'))) :
    Becomes (List.map f) ((Json.foldFields Node.algebra fields).mapM read)
      ((Json.foldFields Node.algebra (recastJsonFields P form fields)).mapM read') := by
  rw [foldFields_algebra, foldFields_algebra, recastJsonFields_eq_map, List.mapM_map,
    List.mapM_map, List.mapM_map]
  exact .mapM fields fun x hx => hread _ _ _ (.of (hfields x hx) _)

end Objects

end QueryTree

import QueryTree.Proofs.Reading.Parts
import QueryTree.Proofs.Reading.Record
import QueryTree.Proofs.Statement.Basic

/-!
# Options in descriptions

Where option objects stand in the JSON description of a statement, which keys they know and which
of their clauses may be left out. Only the place of an object tells whether its keys are options:
the same object may as well be a condition, a row or an object to build.

* `OptionKind`: the kinds of option objects, with their keys, the order in which the parts are
  read, and the optional clauses.
* `Slot`: what a value is read as; `Slot.field` and `Slot.item` say what its parts are read as.
* `Json.omitted`: the clauses of a value that are left out because of their shape, in the order in
  which they are met.
* `Json.pruned`: the value without these clauses.
-/

namespace QueryTree

open Cipher (Settings)

/-! ## Kinds of option objects -/

/-- The kinds of option objects. -/
inductive OptionKind where
  | select
  | write
  | delete
  | join
  | wrapper (kind : WrapperKind)
  /-- A branch of a case distinction. -/
  | branch
  | between
  | substr
  | padding
  /-- The padding of one side. -/
  | pad
  | replace
  /-- Encryption settings. -/
  | settings
deriving DecidableEq, Repr

/-- What a value in a description is read as. -/
inductive Slot where
  /-- Nothing in it is read as options. -/
  | plain
  | settings
  /-- Whether a column is decrypted: a boolean, or settings. -/
  | switch
  /-- The settings of the columns that are encrypted. -/
  | columns
  /-- An expression, a select item or a condition, or a list of these. -/
  | expr
  /-- A list of expressions. -/
  | exprs
  /-- A query to test for rows. -/
  | subquery
  /-- The parts of a JSON value to build. -/
  | body
  /-- An object of expressions. -/
  | row
  /-- An object of expressions or a list of these. -/
  | rows
  | options (kind : OptionKind)
  /-- A list of option objects. -/
  | optionsList (kind : OptionKind)
deriving DecidableEq, Repr

/-- The optional clauses that are left out if they have the wrong shape. -/
inductive Clause where
  | select
  | groupBy
  | orderBy
  /-- How the rows of a join are matched. -/
  | matching
deriving DecidableEq, Repr

namespace Clause

/-- The clause of a key. -/
def ofKey? (key : String) : Option Clause :=
  match key with
  | "select" => some .select
  | "groupBy" => some .groupBy
  | "orderBy" => some .orderBy
  | "using" => some .matching
  | _ => none

/-- The shape that is asked for. -/
def expected : Clause → String
  | .select => "a list"
  | .groupBy => "a list of columns"
  | .orderBy => "an object of column: asc|desc"
  | .matching => "a list or an object"

/-- Whether a value has the shape that is asked for; null counts as absent. -/
def fits : Clause → Json → Bool
  | _, .null => true
  | .select, .arr _ => true
  | .groupBy, .arr _ | .groupBy, .str _ => true
  | .orderBy, .obj _ => true
  | .matching, .arr _ | .matching, .obj _ => true
  | _, _ => false

end Clause

/-- Whether the options of a join are those of a cross join. -/
def isCross (fields : List (String × Json)) : Bool :=
  match (fields.lookup "type").map (decodeNamed JoinKind) with
  | some (.ok .cross) => true
  | _ => false

/-- The parts of a query in the order in which they are read. -/
def queryOrder : List String :=
  ["select", "join", "groupBy", "orderBy", "where", "having"]

/-- The parts of a wrapper on one value in the order in which they are read. -/
def preparedOrder : List String :=
  ["value", "compare"]

/-- The parts of the steps that change a text in the order in which they are read. -/
def stringOrder : List String :=
  ["substr", "padding", "replace"]

/-- The parts of the steps that change a number in the order in which they are read. -/
def numberOrder : List String :=
  ["power", "divideBy", "mod", "multiplyBy", "add", "sub"]

namespace OptionKind

/-- The owner of clauses in messages. -/
def owner : OptionKind → String
  | .select => "select"
  | .join => "join"
  | .wrapper kind => kind.key
  | _ => ""

/-- The keys that are known. -/
def keys : OptionKind → List String
  | .select => queryKeys ++ ["encryption"]
  | .write =>
    ["table", "alias", "data", "where", "junction", "upsert", "indexes", "encrypt", "encryption"]
  | .delete => ["table", "alias", "where", "junction", "encryption"]
  | .join => queryKeys ++ ["type", "using"]
  | .wrapper .string => preparedKeys ++ stringKeys
  | .wrapper .number => preparedKeys ++ numberKeys
  | .wrapper .date => preparedKeys ++ dateKeys
  | .wrapper .concat => ["value", "pattern", "cast", "encryption", "compare", "as"] ++ stringKeys
  | .wrapper .choice => ["check", "trueValue", "falseValue", "compare", "as"]
  | .wrapper .cases => ["check", "else", "compare", "as"]
  | .wrapper .json | .wrapper .array =>
    queryKeys.filter (· != "select")
      ++ ["value", "aggregate", "extract", "contains", "compare", "as"]
  | .wrapper .refer => queryKeys ++ ["encryption", "as"]
  | .wrapper (.aggregate _) =>
    ["value", "distinct", "ifNull", "cast", "encryption", "compare", "as"]
  | .branch => ["when", "then"]
  | .between => ["gt", "lt"]
  | .substr => ["start", "length"]
  | .padding => ["left", "right"]
  | .pad => ["length", "pattern"]
  | .replace => ["target", "replaceWith"]
  | .settings => Settings.fieldNames

/-- What an option is read as. Options of the same name are read alike but for five. -/
def slot (kind : OptionKind) (key : String) : Slot :=
  match key with
  | "encryption" => .settings
  | "decrypt" => .switch
  | "encrypt" => .columns
  | "select" | "groupBy" => .exprs
  | "join" => .optionsList .join
  | "using" | "upsert" => .row
  | "data" => .rows
  | "where" | "having" | "compare" => .expr
  | "value" =>
    if kind = .wrapper .json ∨ kind = .wrapper .array then .body
    else if kind = .wrapper .concat then .exprs
    else .expr
  | "check" => if kind = .wrapper .cases then .optionsList .branch else .expr
  | "trueValue" | "falseValue" | "when" | "then" | "else" | "ifNull" | "gt" | "lt" => .expr
  | "power" | "divideBy" | "mod" | "multiplyBy" => .expr
  | "add" | "sub" => if kind = .wrapper .date then .plain else .expr
  | "substr" => .options .substr
  | "padding" => .options .padding
  | "left" | "right" => .options .pad
  | "replace" => .options .replace
  | "start" | "length" | "target" | "replaceWith" => .expr
  | "pattern" => if kind = .pad then .expr else .plain
  | _ => .plain

/-- Whether null counts as a value of an option and not as its absence. -/
def countsNull (kind : OptionKind) (key : String) : Bool :=
  match key with
  | "value" =>
    kind = .wrapper .string || kind = .wrapper .number || kind = .wrapper .date
  | "replaceWith" | "trueValue" | "falseValue" | "then" | "else" | "ifNull" | "contains" => true
  | _ => false

/-- The keys whose values have parts, in the order in which they are read. The query of a JSON
value is read only if a table is named. -/
def order (kind : OptionKind) (fields : List (String × Json)) : List String :=
  match kind with
  | .select | .wrapper .refer => queryOrder
  | .write => ["data", "upsert", "where"]
  | .delete => ["where"]
  | .join => queryOrder ++ ["using"]
  | .wrapper .string => preparedOrder ++ stringOrder
  | .wrapper .number => numberOrder ++ preparedOrder
  | .wrapper .date => preparedOrder
  | .wrapper .concat => "value" :: (stringOrder ++ ["compare"])
  | .wrapper .choice => ["check", "trueValue", "falseValue", "compare"]
  | .wrapper .cases => ["check", "else", "compare"]
  | .wrapper .json | .wrapper .array =>
    (if ((Json.obj fields).given? "table").isSome then queryOrder else []) ++ ["value", "compare"]
  | .wrapper (.aggregate _) => ["value", "ifNull", "compare"]
  | .branch | .between | .substr | .padding | .pad | .replace => kind.keys
  | .settings => []

/-- The optional clause of a key. -/
def clause? (kind : OptionKind) (key : String) : Option Clause :=
  (Clause.ofKey? key).filter fun _ => kind.keys.contains key

/-- The message for a clause that is left out. A join that is not a cross join cannot do without
its matching, so this is not left out. -/
def omission? (kind : OptionKind) (fields : List (String × Json)) (key : String) :
    Option Omission :=
  (kind.clause? key).bind fun clause =>
    (fields.lookup key).bind fun json =>
      if clause.fits json || (clause == .matching && !isCross fields) then none
      else some ⟨kind.owner, key, clause.expected⟩

end OptionKind

/-! ## Slots -/

namespace Slot

/-- What is under a key of a condition. -/
def ofEntry (key : String) : Slot :=
  match Signature.ofKey? key with
  | some (.wrapper kind) => .options (.wrapper kind)
  | some (.combinator .between) => .options .between
  | some (.combinator _) => .exprs
  | none =>
    match ofName? Comparator key with
    | some .hasRows | some .hasNoRows => .subquery
    | _ => .expr

/-- The options that an object with given keys stands for, if it stands for options. -/
def kind? (keys : List String) : Slot → Option OptionKind
  | .options kind => some kind
  | .settings | .switch => some .settings
  | .subquery => if keys.contains "refer" then none else some (.wrapper .refer)
  | _ => none

/-- Whether the options are decoded as settings. -/
def isSettings : Slot → Bool
  | .settings | .switch => true
  | _ => false

theorem kind?_of_isSettings {slot : Slot} (h : slot.isSettings = true) (keys : List String) :
    slot.kind? keys = some .settings := by
  cases slot with
  | settings | switch => rfl
  | _ => cases h

/-- Whether an object with given keys is what its only key, a reserved one, stands for. -/
def isSigned : List String → Bool
  | [key] => (Signature.ofKey? key).isSome
  | _ => false

/-- What a field of an object with given keys is read as. -/
def field (keys : List String) (slot : Slot) (key : String) : Slot :=
  match slot with
  | .expr => ofEntry key
  | .subquery => if keys.contains "refer" then ofEntry key else (OptionKind.wrapper .refer).slot key
  | .body => if isSigned keys then ofEntry key else .expr
  | .row | .rows => .expr
  | .columns => .settings
  | .options kind => kind.slot key
  | _ => .plain

theorem field_of_isSettings {slot : Slot} (h : slot.isSettings = true) (keys : List String)
    (key : String) : slot.field keys key = .plain := by
  cases slot with
  | settings | switch => rfl
  | _ => cases h

theorem field_of_kind? {keys : List String} {slot : Slot} {kind : OptionKind}
    (hkind : slot.kind? keys = some kind) (hslot : slot.isSettings = false) (key : String) :
    slot.field keys key = kind.slot key := by
  cases slot with
  | options _ =>
      cases hkind
      rfl
  | subquery =>
      change (if keys.contains "refer" then ofEntry key else _) = _
      change (if keys.contains "refer" then none else some (OptionKind.wrapper .refer)) = _ at hkind
      split at hkind
      · cases hkind
      · next hrefer =>
          cases hkind
          exact if_neg hrefer
  | settings | switch => cases hslot
  | _ => cases hkind

/-- Whether a key of an object is kept: it is not a clause that is left out. -/
def keeps (fields : List (String × Json)) (slot : Slot) (key : String) : Bool :=
  match slot.kind? (fields.map Prod.fst) with
  | some kind => (kind.omission? fields key).isNone
  | none => true

/-- What an item of an array is read as. -/
def item : Slot → Slot
  | .expr | .exprs | .body => .expr
  | .rows => .row
  | .optionsList kind => .options kind
  | _ => .plain

end Slot

/-- What the description of a statement is read as. -/
def StatementKind.slot : StatementKind → Slot
  | .select => .options .select
  | .write => .options .write
  | .delete => .options .delete

/-! ## Clauses that are left out -/

namespace Json

/-- The clauses that are left out of a value, by what it is read as. -/
def omissionAlgebra : Algebra (Slot → List Omission) where
  scalar _ _ := []
  arr _ items slot := items.flatMap fun omitted => omitted slot.item
  obj fields parts slot :=
    match slot.kind? (fields.map Prod.fst) with
    | some kind => (kind.order fields).flatMap fun key =>
        (kind.omission? fields key).toList
          ++ ((parts.lookup key).map fun omitted => omitted (kind.slot key)).getD []
    | none => parts.flatMap fun (key, omitted) => omitted (slot.field (fields.map Prod.fst) key)

/-- The clauses of a value that are left out because of their shape, in the order in which they are
met. -/
def omitted (slot : Slot) (json : Json) : List Omission :=
  json.fold omissionAlgebra slot

/-- The value without these clauses, by what it is read as. -/
def pruningAlgebra : Algebra (Slot → Json) where
  scalar json _ := json
  arr _ items slot := .arr (items.map fun pruned => pruned slot.item)
  obj fields parts slot :=
    .obj ((parts.filter fun part => slot.keeps fields part.1).map fun part =>
      (part.1, part.2 (slot.field (fields.map Prod.fst) part.1)))

/-- The value without the clauses that have the wrong shape, at every depth. -/
def pruned (slot : Slot) (json : Json) : Json :=
  json.fold pruningAlgebra slot

end Json

/-- The clauses that are left out at an option: the option itself, or clauses inside it. -/
def OptionKind.omittedAt (kind : OptionKind) (fields : List (String × Json)) (key : String) :
    List Omission :=
  (kind.omission? fields key).toList
    ++ ((fields.lookup key).map (Json.omitted (kind.slot key))).getD []

namespace Json

variable {slot : Slot} {kind : OptionKind} {json : Json} {fields : List (String × Json)}

/-! ### Omissions -/

theorem omitted_arr (items : List Json) :
    (arr items).omitted slot = items.flatMap (omitted slot.item) := by
  change (foldItems omissionAlgebra items).flatMap _ = _
  rw [foldItems_eq_map, List.flatMap_map]
  rfl

theorem omitted_options (hkind : slot.kind? (fields.map Prod.fst) = some kind) :
    (obj fields).omitted slot = (kind.order fields).flatMap (kind.omittedAt fields) := by
  change omissionAlgebra.obj fields (foldFields omissionAlgebra fields) slot = _
  simp only [omissionAlgebra, hkind, lookup_foldFields, Option.map_map]
  rfl

theorem omitted_fields (hkind : slot.kind? (fields.map Prod.fst) = none) :
    (obj fields).omitted slot
      = fields.flatMap fun x => x.2.omitted (slot.field (fields.map Prod.fst) x.1) := by
  change omissionAlgebra.obj fields (foldFields omissionAlgebra fields) slot = _
  simp only [omissionAlgebra, hkind, foldFields_eq_map, List.flatMap_map]
  rfl

/-- What is left out of an object that is not options depends on what its fields are read as. -/
theorem omitted_congr (slot' : Slot) (hkind : slot.kind? (fields.map Prod.fst) = none)
    (hkind' : slot'.kind? (fields.map Prod.fst) = none)
    (hfield : ∀ key, slot.field (fields.map Prod.fst) key
      = slot'.field (fields.map Prod.fst) key) :
    (obj fields).omitted slot = (obj fields).omitted slot' := by
  rw [omitted_fields hkind, omitted_fields hkind']
  simp only [hfield]

/-- Nothing is left out where nothing is read as options. -/
theorem omitted_plain (json : Json) : json.omitted .plain = [] := by
  refine of_parts (C := fun json => json.omitted .plain = []) (fun json hparts => ?_) json
  cases json with
  | arr items =>
      rw [omitted_arr, List.flatMap_eq_nil_iff]
      exact hparts
  | obj fields =>
      rw [omitted_fields rfl, List.flatMap_eq_nil_iff]
      exact fun x hx => hparts x.2 (List.mem_map_of_mem hx)
  | _ => rfl

theorem omitted_plain_items {items : List Json} (hitem : slot.item = .plain) :
    (arr items).omitted slot = [] := by
  rw [omitted_arr, hitem, List.flatMap_eq_nil_iff]
  exact fun part _ => omitted_plain part

/-- Nothing is left out of an object where a list is asked for. -/
theorem omitted_exprs (hlist : ∀ items, json ≠ arr items) : json.omitted .exprs = [] := by
  cases json with
  | arr items => exact absurd rfl (hlist items)
  | obj fields =>
      rw [omitted_fields rfl, List.flatMap_eq_nil_iff]
      exact fun x _ => omitted_plain x.2
  | _ => rfl

/-! ### Pruned values -/

theorem pruned_arr (items : List Json) :
    (arr items).pruned slot = .arr (items.map (pruned slot.item)) := by
  change arr ((foldItems pruningAlgebra items).map _) = _
  rw [foldItems_eq_map, List.map_map]
  rfl

theorem pruned_obj (fields : List (String × Json)) :
    (obj fields).pruned slot
      = .obj ((fields.filter fun x => slot.keeps fields x.1).map fun x =>
          (x.1, x.2.pruned (slot.field (fields.map Prod.fst) x.1))) := by
  change pruningAlgebra.obj fields (foldFields pruningAlgebra fields) slot = _
  simp only [pruningAlgebra, foldFields_eq_map, List.filter_map, List.map_map]
  rfl

end Json

end QueryTree

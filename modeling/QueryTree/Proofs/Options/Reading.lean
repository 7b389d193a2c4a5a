import QueryTree.Proofs.Options.Record

/-!
# Readings of alike descriptions

Alike descriptions are read alike: both fail, or both give the same tree. What is left out of each
is what its options say.

* `ReadAlike`: the readings of all alike values up to a size, which later sizes build on.
* `agree_readQuery`, `agree_readWrapper`, `agree_readEntry`: queries, wrappers and entries.
* `readAlike`: expressions, select items, conditions and joins.
* `agree_readSelectStatement`, `agree_readWrite`, `agree_readDelete`: statements.
-/

namespace QueryTree

open Cipher (Settings)
open Reading (Agree Fails Gives Quiet)

/-- Alike values below a bound are read alike. -/
structure ReadAlike (drops : Bool) (n : Nat) : Prop where
  expr {json json' : Json} : json.AlikeBelow drops n .expr json' →
    Agree (json.omitted .expr) (json'.omitted .expr) (Node.ofJson json).expr
      (Node.ofJson json').expr
  item {json json' : Json} : json.AlikeBelow drops n .expr json' →
    Agree (json.omitted .expr) (json'.omitted .expr) (Node.ofJson json).item
      (Node.ofJson json').item
  condition (owner : String) {json json' : Json} : json.AlikeBelow drops n .expr json' →
    Agree (json.omitted .expr) (json'.omitted .expr) ((Node.ofJson json).condition owner)
      ((Node.ofJson json').condition owner)
  join {json json' : Json} : json.AlikeBelow drops n (.options .join) json' →
    Agree (json.omitted (.options .join)) (json'.omitted (.options .join)) (Node.ofJson json).join
      (Node.ofJson json').join

variable {α : Type} {drops : Bool} {n : Nat} {kind : OptionKind} {slot : Slot} {json json' : Json}
  {fields fields' : List (String × Json)} {record record' : Record}

/-! ## Items and fields -/

theorem agree_items {items items' : List Json}
    (h : (Json.arr items).AlikeBelow drops (n + 1) slot (.arr items')) {read : Node → Reading α}
    (hread : ∀ json json', json.AlikeBelow drops n slot.item json' →
      Agree (json.omitted slot.item) (json'.omitted slot.item) (read (Node.ofJson json))
        (read (Node.ofJson json'))) :
    Agree ((Json.arr items).omitted slot) ((Json.arr items').omitted slot)
      ((Node.ofJson (.arr items)).items.mapM read)
      ((Node.ofJson (.arr items')).items.mapM read) := by
  obtain ⟨hsmall, halike⟩ := h
  obtain ⟨_, ⟨⟩, hitems⟩ := halike.arr_inv
  change Agree _ _ ((Json.foldItems Node.algebra items).mapM read)
    ((Json.foldItems Node.algebra items').mapM read)
  rw [Json.omitted_arr, Json.omitted_arr, foldItems_algebra, foldItems_algebra, List.mapM_map,
    List.mapM_map]
  refine Agree.mapM (R := fun a b => a.AlikeBelow drops n slot.item b) ?_ hread
  obtain ⟨hlength, hzip⟩ := List.forall₂_iff_zip.1 hitems
  refine List.forall₂_iff_zip.2 ⟨hlength, fun {item item'} hmem => ⟨?_, hzip hmem⟩⟩
  have hlt : sizeOf item < sizeOf (Json.arr items) :=
    Json.sizeOf_lt_of_mem_parts (List.of_mem_zip hmem).1
  omega

theorem agree_fields (h : (Json.obj fields).AlikeBelow drops (n + 1) slot (.obj fields'))
    (hkind : slot.kind? (fields.map Prod.fst) = none) {read : String × Node → Reading α}
    (hread : ∀ key json json',
      json.AlikeBelow drops n (slot.field (fields.map Prod.fst) key) json' →
        Agree (json.omitted (slot.field (fields.map Prod.fst) key))
          (json'.omitted (slot.field (fields.map Prod.fst) key)) (read (key, Node.ofJson json))
          (read (key, Node.ofJson json'))) :
    Agree ((Json.obj fields).omitted slot) ((Json.obj fields').omitted slot)
      ((Node.ofJson (.obj fields)).fields.mapM read)
      ((Node.ofJson (.obj fields')).fields.mapM read) := by
  obtain ⟨hsmall, halike⟩ := h
  obtain ⟨_, ⟨⟩, hfields⟩ := halike.fields_inv hkind
  have hkeys : fields'.map Prod.fst = fields.map Prod.fst := hfields.keys_eq
  change Agree _ _ ((Json.foldFields Node.algebra fields).mapM read)
    ((Json.foldFields Node.algebra fields').mapM read)
  rw [Json.omitted_fields hkind, Json.omitted_fields (hkeys ▸ hkind), foldFields_algebra,
    foldFields_algebra, List.mapM_map, List.mapM_map, hkeys]
  refine Agree.mapM (R := fun x x' => x.1 = x'.1
    ∧ x.2.AlikeBelow drops n (slot.field (fields.map Prod.fst) x.1) x'.2) ?_ ?_
  · obtain ⟨hlength, hzip⟩ := List.forall₂_iff_zip.1 hfields
    refine List.forall₂_iff_zip.2 ⟨hlength, fun {x x'} hmem => ⟨(hzip hmem).1, ?_, (hzip hmem).2⟩⟩
    have hlt : sizeOf x.2 < sizeOf (Json.obj fields) :=
      Json.sizeOf_lt_of_mem_parts (List.mem_map_of_mem (List.of_mem_zip hmem).1)
    omega
  · rintro ⟨key, json⟩ ⟨_, json'⟩ ⟨rfl, hvalue⟩
    exact hread key json json' hvalue

/-- The items of a list that has to have one. -/
theorem agree_readNonEmpty {read : Node → Reading α} (field : String) (shape : Shape)
    (h : json.AlikeBelow drops n slot json') (hkind : ∀ keys, slot.kind? keys = none)
    (hread : ∀ json json', json.AlikeBelow drops n slot.item json' →
      Agree (json.omitted slot.item) (json'.omitted slot.item) (read (Node.ofJson json))
        (read (Node.ofJson json'))) :
    Agree (json.omitted slot) (json'.omitted slot)
      (readNonEmpty read field shape (Node.ofJson json))
      (readNonEmpty read field shape (Node.ofJson json')) := by
  cases json with
  | arr items =>
      obtain ⟨items', rfl, hitems⟩ := h.alike.arr_inv
      cases hitems with
      | nil => exact .invalid _ _ _ _
      | cons => exact agree_items h.succ hread
  | obj fields =>
      obtain ⟨fields', rfl, -⟩ := h.alike.fields_inv (hkind _)
      exact .invalid _ _ _ _
  | _ =>
      rw [h.alike.eq_of_isScalar rfl]
      exact .invalid _ _ _ _

/-! ## Queries and joins -/

section Parts

variable (ih : ReadAlike drops n) (h : Record.Alike drops n kind fields fields' record record')

include ih h

theorem agree_expr? (key : String) (hslot : kind.slot key = .expr)
    (hclause : kind.clause? key = none) :
    Agree (kind.omittedAt fields key) (kind.omittedAt fields' key) (record.expr? key)
      (record'.expr? key) := by
  refine h.optional key hclause fun json json' hjson => ?_
  rw [hslot] at hjson ⊢
  exact ih.expr hjson

theorem agree_condition? (key : String) (hslot : kind.slot key = .expr)
    (hclause : kind.clause? key = none) :
    Agree (kind.omittedAt fields key) (kind.omittedAt fields' key) (record.condition? key)
      (record'.condition? key) := by
  unfold Record.condition?
  rw [h.path_eq]
  refine h.optional key hclause fun json json' hjson => ?_
  rw [hslot] at hjson ⊢
  exact ih.condition _ hjson

theorem agree_readSelect (howner : record.owner = kind.owner) :
    Agree (kind.omittedAt fields "select") (kind.omittedAt fields' "select") (readSelect record)
      (readSelect record') := by
  unfold readSelect
  rw [h.owner_eq]
  refine h.whenClause "select" .select rfl howner nofun ?_ ?_ ?_
  · intro json hfits
    exact Json.omitted_exprs fun items heq => by cases heq; cases hfits
  · intro json json' hnull hfits hjson
    cases json with
    | arr items =>
        obtain ⟨items', rfl, -⟩ := hjson.alike.arr_inv
        exact agree_items hjson.succ fun _ _ => ih.item
    | null => exact absurd rfl hnull
    | _ => cases hfits
  · intro json hfits
    cases json with
    | null | arr => cases hfits
    | _ => exact ⟨rfl, rfl⟩

theorem agree_readJoins :
    Agree (kind.omittedAt fields "join") (kind.omittedAt fields' "join") (readJoins record)
      (readJoins record') := by
  unfold readJoins
  rw [h.path_eq]
  refine h.whenLast "join" rfl (.pure []) fun json json' hjson => ?_
  cases json with
  | arr items =>
      obtain ⟨items', rfl, -⟩ := hjson.alike.arr_inv
      exact agree_items hjson.succ fun _ _ => ih.join
  | obj fields =>
      obtain ⟨fields', rfl, -⟩ := hjson.alike.fields_inv rfl
      exact .invalid _ _ _ _
  | _ =>
      rw [hjson.alike.eq_of_isScalar rfl]
      exact .invalid _ _ _ _

theorem agree_readGroupBy (howner : record.owner = kind.owner) :
    Agree (kind.omittedAt fields "groupBy") (kind.omittedAt fields' "groupBy") (readGroupBy record)
      (readGroupBy record') := by
  unfold readGroupBy
  rw [h.owner_eq]
  refine h.whenClause "groupBy" .groupBy rfl howner nofun ?_ ?_ ?_
  · intro json hfits
    exact Json.omitted_exprs fun items heq => by cases heq; cases hfits
  · intro json json' hnull hfits hjson
    cases json with
    | arr items =>
        obtain ⟨items', rfl, -⟩ := hjson.alike.arr_inv
        exact agree_items hjson.succ fun _ _ => ih.expr
    | str column =>
        rw [hjson.alike.eq_of_isScalar rfl]
        exact .pure _
    | null => exact absurd rfl hnull
    | _ => cases hfits
  · intro json hfits
    cases json with
    | null | arr | str => cases hfits
    | _ => exact ⟨rfl, rfl⟩

omit ih h in
/-- The order of the rows, by the value that is given for it. -/
theorem readOrderBy_eq_match (record : Record) : readOrderBy record
    = match record.get? "orderBy" with
      | some node =>
        match node.json with
        | .obj fields =>
          fields.mapM fun (column, order) => do
            let field := record.path "orderBy" ++ "." ++ column
            return (column, ← Reading.decoded field (decodeNamed SortOrder order))
        | _ => Reading.leaveOut record.owner "orderBy" "an object of column: asc|desc" []
      | none => pure [] := by
  unfold readOrderBy Record.json?
  cases record.get? "orderBy" with
  | none => rfl
  | some node =>
      obtain ⟨json, items, fields, expr, item, condition, join⟩ := node
      cases json <;> rfl

omit ih in
theorem agree_readOrderBy (howner : record.owner = kind.owner) :
    Agree (kind.omittedAt fields "orderBy") (kind.omittedAt fields' "orderBy") (readOrderBy record)
      (readOrderBy record') := by
  rw [readOrderBy_eq_match, readOrderBy_eq_match, h.owner_eq, h.path_eq]
  refine h.whenClause "orderBy" .orderBy rfl howner nofun (fun json _ => json.omitted_plain) ?_ ?_
  · intro json json' hnull hfits hjson
    have hplain : json.Alike drops .plain json' := hjson.alike
    rw [hplain.eq_of_plain]
    change Agree (json.omitted .plain) (json.omitted .plain) _ _
    rw [Json.omitted_plain]
    cases json with
    | obj fields => exact Quiet.mapM _ fun _ => (Quiet.decoded _ _).bind fun _ => .pure _
    | null => exact absurd rfl hnull
    | _ => cases hfits
  · intro json hfits
    cases json with
    | null | obj => cases hfits
    | _ => exact ⟨rfl, rfl⟩

omit ih in
theorem agree_readJunction : Agree [] [] (readJunction record) (readJunction record') :=
  (h.named? "junction" rfl rfl Junction).bind fun _ => .pure _

/-- A query leaves out what stands at its parts, in their order. -/
theorem agree_readQuery (howner : record.owner = kind.owner) :
    Agree (queryOrder.flatMap (kind.omittedAt fields)) (queryOrder.flatMap (kind.omittedAt fields'))
      (readQuery record) (readQuery record') := by
  unfold readQuery
  refine (h.string "table" rfl rfl).bind fun table => ?_
  refine (agree_readSelect ih h howner).bind fun select => ?_
  refine (agree_readJoins ih h).bind fun joins => ?_
  refine (agree_readGroupBy ih h howner).bind fun groupBy => ?_
  refine (agree_readOrderBy h howner).bind fun orderBy => ?_
  refine (h.string? "alias" rfl rfl).bind fun alias? => ?_
  refine (agree_condition? ih h "where" rfl rfl).bind fun filter => ?_
  refine (agree_readJunction h).bind fun junction => ?_
  refine (agree_condition? ih h "having" rfl rfl).bind fun having => ?_
  refine (h.count? "limit" rfl rfl).bind fun limit => ?_
  refine (h.count? "offset" rfl rfl).bind fun offset => ?_
  refine (h.settings? "encryption" rfl rfl).bind fun encryption => ?_
  exact .pure _

end Parts

theorem agree_readPair (ih : ReadAlike drops n) (position key : String)
    (h : json.AlikeBelow drops n .expr json') :
    Agree (json.omitted .expr) (json'.omitted .expr) (readPair position (key, Node.ofJson json))
      (readPair position (key, Node.ofJson json')) :=
  (Quiet.checkColumn key position).bind fun _ => (ih.expr h).ending fun _ => .pure _

/-- The matching of a join, unless it has the wrong shape and the join needs it. -/
theorem agree_readMatching (ih : ReadAlike drops n)
    (h : Record.Alike drops n .join fields fields' record record') (howner : record.owner = "join")
    (hcross : ∀ json, fields.lookup "using" = some json → Clause.matching.fits json = false →
      isCross fields = true) :
    Agree (OptionKind.join.omittedAt fields "using") (OptionKind.join.omittedAt fields' "using")
      (readMatching record) (readMatching record') := by
  unfold readMatching
  have hmatching : ∀ json, fields.lookup "using" = some json → Clause.matching.fits json = false →
      Clause.matching = .matching → isCross fields = true :=
    fun json hleft hfits _ => hcross json hleft hfits
  refine h.whenClause "using" .matching rfl howner hmatching ?_ ?_ ?_
  · intro json hfits
    cases json with
    | arr | obj => cases hfits
    | _ => rfl
  · intro json json' hnull hfits hjson
    cases json with
    | arr columns =>
        have hplain := hjson.alike.eq_of_plain_items rfl
        rw [hplain]
        change Agree ((Json.arr columns).omitted .row) ((Json.arr columns).omitted .row) _ _
        rw [Json.omitted_plain_items rfl]
        exact Agree.map (Quiet.mapM columns Quiet.readSharedColumn) Matching.shared
    | obj pairs =>
        obtain ⟨pairs', rfl, -⟩ := hjson.alike.fields_inv rfl
        exact (agree_fields hjson.succ rfl fun key _ _ => agree_readPair ih "join.using" key).map
          Matching.pairs
    | null => exact absurd rfl hnull
    | _ => cases hfits
  · intro json hfits
    rw [howner]
    cases json with
    | null | arr | obj => cases hfits
    | _ => exact ⟨rfl, rfl⟩

/-- What kind a join has whose options are not those of a cross join. -/
theorem named?_type (hof : record.Of (.obj fields)) (hcross : isCross fields = false) :
    Fails (record.named? JoinKind "type") ∨ ∃ kind : Option JoinKind,
      Gives [] kind (record.named? JoinKind "type") ∧ kind.getD default ≠ .cross := by
  unfold Record.named? Record.optional
  rw [hof.get?_eq]
  cases hgiven : (Json.obj fields).given? "type" with
  | none => exact .inr ⟨none, .pure none, nofun⟩
  | some json =>
      have hlookup := (Json.given?_eq_some.1 hgiven).1
      unfold isCross at hcross
      rw [hlookup] at hcross
      simp only [Option.map_some, Node.json_ofJson] at hcross ⊢
      cases hdecode : decodeNamed JoinKind json with
      | error e => exact .inl fun _ => ⟨_, rfl⟩
      | ok kind =>
          rw [hdecode] at hcross
          refine .inr ⟨some kind, .pure (some kind), ?_⟩
          rintro rfl
          cases hcross

/-- A join that needs a matching of another shape is refused. -/
theorem fails_readJoinOf (hof : record.Of (.obj fields)) (hleft : fields.lookup "using" = some json)
    (hfits : Clause.matching.fits json = false) (hcross : isCross fields = false) :
    Fails (readJoinOf record) := by
  have hmatching : readMatching record
      = Reading.leaveOut "join" "using" "a list or an object" .unmatched := by
    have hgiven : (Json.obj fields).given? "using" = some json :=
      Json.given?_eq_some.2 ⟨hleft, by rintro rfl; cases hfits⟩
    unfold readMatching
    rw [hof.get?_eq, hgiven]
    cases json with
    | null | arr | obj => cases hfits
    | _ => rfl
  refine .after _ fun query => ?_
  rcases named?_type hof hcross with hfails | ⟨kind, hkind, hne⟩
  · exact hfails.bind _
  · refine hkind.bind_fails ?_
    rw [hmatching]
    refine (Gives.leaveOut _ _ _ _).bind_fails ?_
    unfold checkJoin
    rw [if_pos (by simpa [Matching.isUnmatched] using hne)]
    exact .throw _

theorem agree_readJoinOf (ih : ReadAlike drops n)
    (h : Record.Alike drops n .join fields fields' record record')
    (howner : record.owner = "join") :
    Agree ((OptionKind.join.order fields).flatMap (OptionKind.join.omittedAt fields))
      ((OptionKind.join.order fields').flatMap (OptionKind.join.omittedAt fields'))
      (readJoinOf record) (readJoinOf record') := by
  by_cases hcross : ∀ json, fields.lookup "using" = some json →
      Clause.matching.fits json = false → isCross fields = true
  · refine .append queryOrder ["using"] ?_
    refine (agree_readQuery ih h howner).bind fun query => ?_
    refine (h.named? "type" rfl rfl JoinKind).bind fun kind => ?_
    refine (agree_readMatching ih h howner hcross).bind fun matching => ?_
    unfold checkJoin
    split
    · exact .throw _ _
    · split
      · exact .throw _ _
      · exact .pure _
  · push Not at hcross
    obtain ⟨json, hleft, hfits, hcross⟩ := hcross
    rw [ne_eq, Bool.not_eq_true] at hcross
    have hfails := fails_readJoinOf h.left hleft hfits hcross
    -- The matching is not deleted, since no clause is left out in its place.
    cases hright : fields'.lookup "using" with
    | none =>
        rcases (h.options.left hleft hright).2 with ⟨rfl, -⟩ | ⟨-, homission⟩
        · cases hfits
        · have hclause : OptionKind.join.clause? "using" = some .matching := rfl
          simp [OptionKind.omission?, hclause, hleft, hcross] at homission
    | some json' =>
        have hfits' : Clause.matching.fits json' = false :=
          ((h.options.both hleft hright).fits_eq .matching).trans hfits
        have hcross' : isCross fields' = false := h.options.isCross_eq.trans hcross
        exact .fails hfails (fails_readJoinOf h.right hright hfits' hcross')

theorem agree_readJoin (ih : ReadAlike drops n)
    (h : (Json.obj fields).AlikeBelow drops (n + 1) (.options .join) (.obj fields')) :
    Agree ((Json.obj fields).omitted (.options .join)) ((Json.obj fields').omitted (.options .join))
      (readJoin (Json.foldFields Node.algebra fields))
      (readJoin (Json.foldFields Node.algebra fields')) := by
  obtain ⟨hsmall, halike⟩ := h
  obtain ⟨_, ⟨⟩, hoptions⟩ := halike.options_inv rfl rfl
  rw [Json.omitted_options rfl, Json.omitted_options rfl, readJoin_eq, readJoin_eq]
  refine hoptions.ofFields (n := n) ?_ "join" fun record record' howner h => ?_
  · intro key json hlookup
    have hlt := sizeOf_lt_of_lookup hlookup
    omega
  · exact agree_readJoinOf ih h howner

/-! ## Operands and steps -/

theorem readDecrypt_eq_match (record : Record) : readDecrypt record
    = match record.get? "decrypt" with
      | some node =>
        match node.json with
        | .bool true => pure (some .unset)
        | .bool false => pure none
        | other => some <$> Reading.decoded (record.path "decrypt") (Settings.decode other)
      | none => pure none := by
  unfold readDecrypt Record.json?
  cases record.get? "decrypt" with
  | none => rfl
  | some node =>
      obtain ⟨json, items, fields, expr, item, condition, join⟩ := node
      cases json with
      | bool b => cases b <;> rfl
      | _ => rfl

/-- Whether a column is decrypted. -/
theorem agree_readDecrypt (h : Record.Alike drops n kind fields fields' record record') :
    Agree [] [] (readDecrypt record) (readDecrypt record') := by
  rw [readDecrypt_eq_match, readDecrypt_eq_match, h.path_eq]
  refine h.whenGiven "decrypt" (fun _ _ => .pure none) ?_ ?_
  · intro json json' _ _ _ hjson
    have hdecode := hjson.alike.decode_eq rfl
    cases json with
    | arr items =>
        obtain ⟨items', rfl, -⟩ := hjson.alike.arr_inv
        exact (Record.Alike.agree_decoded _ hdecode).map some
    | obj fields =>
        obtain ⟨fields', rfl, -⟩ := hjson.alike.settings_inv rfl
        exact (Record.Alike.agree_decoded _ hdecode).map some
    | bool b =>
        rw [hjson.alike.eq_of_isScalar rfl]
        cases b <;> exact .pure _
    | _ =>
        rw [hjson.alike.eq_of_isScalar rfl]
        exact (Quiet.decoded _ _).map some
  · intro json _ homission
    cases homission

/-- The value of a wrapper comes first, then its comparison. -/
theorem agree_readPrepared (ih : ReadAlike drops n)
    (h : Record.Alike drops n kind fields fields' record record')
    (hvalue : kind.slot "value" = .expr) (hnull : kind.countsNull "value" = true) :
    Agree (preparedOrder.flatMap (kind.omittedAt fields))
      (preparedOrder.flatMap (kind.omittedAt fields')) (readPrepared record)
      (readPrepared record') := by
  unfold readPrepared
  refine (agree_readDecrypt h).bind fun decrypt => ?_
  refine h.requireGiven "value" rfl hnull fun json json' hjson => ?_
  rw [hvalue] at hjson ⊢
  refine (ih.expr hjson).bind fun value => ?_
  refine (h.settings? "encryption" rfl rfl).bind fun encryption => ?_
  refine (h.named? "cast" rfl rfl CastType).bind fun cast => ?_
  refine (agree_condition? ih h "compare" rfl rfl).bind fun compare => ?_
  refine (h.string? "as" rfl rfl).bind fun alias? => ?_
  exact .pure _

section Steps

variable (ih : ReadAlike drops n) (h : Record.Alike drops n kind fields fields' record record')

include h

theorem agree_readTrim : Agree [] [] (readTrim record) (readTrim record') := by
  rw [show readTrim record' = readTrim record by
    simp only [readTrim, h.json?_eq "trim" rfl rfl, h.path_eq]]
  exact Quiet.readTrim record

theorem agree_readRounding : Agree [] [] (readRounding record) (readRounding record') := by
  rw [show readRounding record' = readRounding record by
    simp only [readRounding, h.json?_eq "decimal" rfl rfl]]
  exact Quiet.readRounding record

theorem agree_readInterval (key : String) (hslot : kind.slot key = .plain)
    (hclause : kind.clause? key = none) :
    Agree [] [] (readInterval record key) (readInterval record' key) := by
  rw [show readInterval record' key = readInterval record key by
    simp only [readInterval, h.json?_eq key hslot hclause, h.path_eq]]
  exact Quiet.readInterval record key

include ih

theorem agree_readSubstr :
    Agree (kind.omittedAt fields "substr") (kind.omittedAt fields' "substr") (readSubstr record)
      (readSubstr record') := by
  unfold readSubstr
  rw [h.path_eq]
  refine h.whenOptions "substr" .substr rfl rfl _ fun fields fields' options options' h => ?_
  refine h.require "start" rfl fun json json' hstart => ?_
  refine (ih.expr hstart).bind fun start => ?_
  refine (agree_expr? ih h "length" rfl rfl).bind fun length => ?_
  exact .pure _

theorem agree_readPad (side : String) (hslot : kind.slot side = .options .pad)
    (hclause : kind.clause? side = none) :
    Agree (kind.omittedAt fields side) (kind.omittedAt fields' side) (readPad record side)
      (readPad record' side) := by
  unfold readPad
  rw [h.path_eq]
  refine h.whenOptions side .pad hslot hclause _ fun fields fields' options options' h => ?_
  refine h.require "length" rfl fun json json' hlength => ?_
  refine (ih.expr hlength).bind fun length => ?_
  refine (agree_expr? ih h "pattern" rfl rfl).bind fun pattern => ?_
  exact .pure _

theorem agree_readPadding :
    Agree (kind.omittedAt fields "padding") (kind.omittedAt fields' "padding") (readPadding record)
      (readPadding record') := by
  unfold readPadding
  rw [h.path_eq]
  refine h.whenOptions "padding" .padding rfl rfl _ fun fields fields' padding padding' h => ?_
  refine (agree_readPad ih h "left" rfl rfl).bind fun left => ?_
  refine (agree_readPad ih h "right" rfl rfl).bind fun right => ?_
  exact .pure _

theorem agree_readReplace :
    Agree (kind.omittedAt fields "replace") (kind.omittedAt fields' "replace") (readReplace record)
      (readReplace record') := by
  unfold readReplace
  rw [h.path_eq]
  refine h.whenOptions "replace" .replace rfl rfl _ fun fields fields' options options' h => ?_
  refine h.require "target" rfl fun json json' htarget => ?_
  refine (ih.expr htarget).bind fun target => ?_
  refine h.requireGiven "replaceWith" rfl rfl fun json json' hreplacement => ?_
  refine (ih.expr hreplacement).bind fun replacement => ?_
  exact .pure _

theorem agree_readStringSteps :
    Agree (stringOrder.flatMap (kind.omittedAt fields))
      (stringOrder.flatMap (kind.omittedAt fields')) (readStringSteps record)
      (readStringSteps record') := by
  unfold readStringSteps
  refine (agree_readTrim h).bind fun trim => ?_
  refine (agree_readSubstr ih h).bind fun substr => ?_
  refine (agree_readPadding ih h).bind fun padding => ?_
  refine (agree_readReplace ih h).bind fun replace => ?_
  refine (h.named? "textCase" rfl rfl TextCase).bind fun textCase => ?_
  refine (h.flag "reverse" rfl rfl).bind fun reverse => ?_
  refine (h.named? "encoding" rfl rfl Charset).bind fun encoding => ?_
  exact .pure _

theorem agree_readNumberSteps (hdate : kind ≠ .wrapper .date) :
    Agree (numberOrder.flatMap (kind.omittedAt fields))
      (numberOrder.flatMap (kind.omittedAt fields')) (readNumberSteps record)
      (readNumberSteps record') := by
  unfold readNumberSteps
  refine (agree_expr? ih h "power" rfl rfl).bind fun power => ?_
  refine (agree_expr? ih h "divideBy" rfl rfl).bind fun divide => ?_
  refine (agree_expr? ih h "mod" rfl rfl).bind fun modulo => ?_
  refine (agree_expr? ih h "multiplyBy" rfl rfl).bind fun multiply => ?_
  refine (agree_expr? ih h "add" (if_neg hdate) rfl).bind fun add => ?_
  refine (agree_expr? ih h "sub" (if_neg hdate) rfl).bind fun subtract => ?_
  refine (agree_readRounding h).bind fun rounding => ?_
  exact .pure _

theorem agree_finish (core : Core) :
    Agree (["compare"].flatMap (kind.omittedAt fields))
      (["compare"].flatMap (kind.omittedAt fields')) (finish record core)
      (finish record' core) := by
  unfold finish
  refine (agree_condition? ih h "compare" rfl rfl).bind fun compare => ?_
  refine (h.string? "as" rfl rfl).bind fun alias? => ?_
  exact .pure _

/-- An expression that may be absent, null being one. -/
theorem agree_givenExpr? (key : String) (hslot : kind.slot key = .expr)
    (hclause : kind.clause? key = none) (hnull : kind.countsNull key = true) :
    Agree (kind.omittedAt fields key) (kind.omittedAt fields' key) (record.givenExpr? key)
      (record'.givenExpr? key) := by
  unfold Record.givenExpr?
  rw [← List.append_nil (kind.omittedAt fields key), ← List.append_nil (kind.omittedAt fields' key)]
  refine h.whenCounted key hclause hnull (.pure none) fun json json' hjson => ?_
  rw [List.append_nil, List.append_nil]
  rw [hslot] at hjson ⊢
  exact (ih.expr hjson).map some

end Steps

theorem agree_readDateChange
    (h : Record.Alike drops n (.wrapper .date) fields fields' record record') :
    Agree [] [] (readDateChange record) (readDateChange record') := by
  unfold readDateChange
  refine (h.string? "fromPattern" rfl rfl).bind fun fromPattern => ?_
  refine (agree_readInterval h "add" rfl rfl).bind fun add => ?_
  refine (agree_readInterval h "sub" rfl rfl).bind fun sub => ?_
  refine (h.string? "format" rfl rfl).bind fun format => ?_
  exact .pure _

/-! ## Wrappers -/

theorem isNone_signed?_eq (fields : List (String × Json)) :
    (signed? (Json.foldFields Node.algebra fields)).isNone
      = !Slot.isSigned (fields.map Prod.fst) := by
  match fields with
  | [] => rfl
  | [(key, json)] =>
      simp only [Json.foldFields, signed?, List.map_cons, List.map_nil, Slot.isSigned]
      cases Signature.ofKey? key <;> rfl
  | _ :: _ :: _ => rfl

theorem readJsonBody_eq (fields : List (String × Json)) :
    readJsonBody (Node.ofJson (.obj fields))
      = if Slot.isSigned (fields.map Prod.fst) then
          JsonBody.single <$> (Node.ofJson (.obj fields)).expr
        else JsonBody.object <$> (Node.ofJson (.obj fields)).fields.mapM readField := by
  change (if (signed? (Json.foldFields Node.algebra fields)).isNone then _ else _) = _
  rw [isNone_signed?_eq]
  cases Slot.isSigned (fields.map Prod.fst) <;> rfl

section Wrappers

variable (ih : ReadAlike drops n)

include ih

theorem agree_readString (h : json.AlikeBelow drops n (.options (.wrapper .string)) json') :
    Agree (json.omitted (.options (.wrapper .string))) (json'.omitted (.options (.wrapper .string)))
      (readString (Node.ofJson json)) (readString (Node.ofJson json')) := by
  refine h.record "str" fun fields fields' record record' _ h => ?_
  refine .append preparedOrder stringOrder ?_
  refine (agree_readPrepared ih h rfl rfl).bind fun prepared => ?_
  refine (agree_readStringSteps ih h).ending fun steps => ?_
  exact .pure _

theorem agree_readNumber (h : json.AlikeBelow drops n (.options (.wrapper .number)) json') :
    Agree (json.omitted (.options (.wrapper .number))) (json'.omitted (.options (.wrapper .number)))
      (readNumber (Node.ofJson json)) (readNumber (Node.ofJson json')) := by
  refine h.record "num" fun fields fields' record record' _ h => ?_
  refine .append numberOrder preparedOrder ?_
  refine (agree_readNumberSteps ih h nofun).bind fun steps => ?_
  refine (agree_readPrepared ih h rfl rfl).ending fun prepared => ?_
  exact .pure _

theorem agree_readDate (h : json.AlikeBelow drops n (.options (.wrapper .date)) json') :
    Agree (json.omitted (.options (.wrapper .date))) (json'.omitted (.options (.wrapper .date)))
      (readDate (Node.ofJson json)) (readDate (Node.ofJson json')) := by
  refine h.record "date" fun fields fields' record record' _ h => ?_
  refine (agree_readPrepared ih h rfl rfl).ending fun prepared => ?_
  refine (agree_readDateChange h).bind fun change => ?_
  exact .pure _

theorem agree_readConcat (h : json.AlikeBelow drops n (.options (.wrapper .concat)) json') :
    Agree (json.omitted (.options (.wrapper .concat))) (json'.omitted (.options (.wrapper .concat)))
      (readConcat (Node.ofJson json)) (readConcat (Node.ofJson json')) := by
  rw [readConcat_eq, readConcat_eq]
  refine h.record "concat" fun fields fields' record record' _ h => ?_
  refine h.require "value" rfl fun json json' hlist => ?_
  refine (agree_readNonEmpty _ _ hlist (fun _ => rfl) fun _ _ => ih.expr).bind fun values => ?_
  refine .append stringOrder ["compare"] ?_
  refine (h.string? "pattern" rfl rfl).bind fun separator => ?_
  refine (h.named? "cast" rfl rfl CastType).bind fun cast => ?_
  refine (h.settings? "encryption" rfl rfl).bind fun encryption => ?_
  refine (agree_readStringSteps ih h).bind fun steps => ?_
  exact agree_finish ih h _

theorem agree_readChoice (h : json.AlikeBelow drops n (.options (.wrapper .choice)) json') :
    Agree (json.omitted (.options (.wrapper .choice))) (json'.omitted (.options (.wrapper .choice)))
      (readChoice (Node.ofJson json)) (readChoice (Node.ofJson json')) := by
  refine h.record "if" fun fields fields' record record' _ h => ?_
  refine h.require "check" rfl fun json json' hcheck => ?_
  refine (ih.condition "if.check" hcheck).bind fun check => ?_
  refine h.requireGiven "trueValue" rfl rfl fun json json' hyes => ?_
  refine (ih.expr hyes).bind fun yes => ?_
  refine h.requireGiven "falseValue" rfl rfl fun json json' hno => ?_
  refine (ih.expr hno).bind fun no => ?_
  exact agree_finish ih h _

theorem agree_readBranch (h : json.AlikeBelow drops n (.options .branch) json') :
    Agree (json.omitted (.options .branch)) (json'.omitted (.options .branch))
      (readBranch (Node.ofJson json)) (readBranch (Node.ofJson json')) := by
  refine h.record "case.check" fun fields fields' record record' _ h => ?_
  refine h.require "when" rfl fun json json' hcheck => ?_
  refine (ih.condition "case.check.when" hcheck).bind fun check => ?_
  refine h.requireGiven "then" rfl rfl fun json json' hresult => ?_
  refine (ih.expr hresult).bind fun result => ?_
  exact .pure _

theorem agree_readCases (h : json.AlikeBelow drops n (.options (.wrapper .cases)) json') :
    Agree (json.omitted (.options (.wrapper .cases))) (json'.omitted (.options (.wrapper .cases)))
      (readCases (Node.ofJson json)) (readCases (Node.ofJson json')) := by
  rw [readCases_eq, readCases_eq]
  refine h.record "case" fun fields fields' record record' _ h => ?_
  refine h.require "check" rfl fun json json' hlist => ?_
  refine (agree_readNonEmpty _ _ hlist (fun _ => rfl) fun _ _ => agree_readBranch ih).bind
    fun branches => ?_
  refine (agree_givenExpr? ih h "else" rfl rfl rfl).bind fun otherwise => ?_
  exact agree_finish ih h _

theorem agree_readRefer (h : json.AlikeBelow drops n (.options (.wrapper .refer)) json') :
    Agree (json.omitted (.options (.wrapper .refer))) (json'.omitted (.options (.wrapper .refer)))
      (readRefer (Node.ofJson json)) (readRefer (Node.ofJson json')) := by
  refine h.record "refer" fun fields fields' record record' howner h => ?_
  refine (agree_readQuery ih h howner).ending fun query => ?_
  refine (h.string? "as" rfl rfl).bind fun alias? => ?_
  exact .pure _

theorem agree_readAggregateOf (kind : AggregateKind)
    (h : json.AlikeBelow drops n (.options (.wrapper (.aggregate kind))) json') :
    Agree (json.omitted (.options (.wrapper (.aggregate kind))))
      (json'.omitted (.options (.wrapper (.aggregate kind))))
      (readAggregateOf kind (Node.ofJson json)) (readAggregateOf kind (Node.ofJson json')) := by
  rw [readAggregateOf_eq, readAggregateOf_eq]
  refine h.record kind.key fun fields fields' record record' _ h => ?_
  refine h.require "value" rfl fun json json' hvalue => ?_
  refine (ih.expr hvalue).bind fun value => ?_
  refine (h.flag "distinct" rfl rfl).bind fun distinct => ?_
  refine (agree_givenExpr? ih h "ifNull" rfl rfl rfl).bind fun ifNull => ?_
  refine (h.named? "cast" rfl rfl CastType).bind fun cast => ?_
  refine (h.settings? "encryption" rfl rfl).bind fun encryption => ?_
  exact agree_finish ih h _

/-- An object that is read as an expression where something else may stand. -/
theorem agree_asExpr (h : (Json.obj fields).AlikeBelow drops n slot (.obj fields'))
    (hkind : slot.kind? (fields.map Prod.fst) = none)
    (hfield : ∀ key, slot.field (fields.map Prod.fst) key = Slot.ofEntry key) :
    Agree ((Json.obj fields).omitted slot) ((Json.obj fields').omitted slot)
      (Node.ofJson (.obj fields)).expr (Node.ofJson (.obj fields')).expr := by
  obtain ⟨hsmall, halike⟩ := h
  obtain ⟨_, ⟨⟩, hfields⟩ := halike.fields_inv hkind
  have hkind' := hkind
  have hfield' := hfield
  rw [← hfields.keys_eq] at hkind' hfield'
  rw [Json.omitted_congr .expr hkind rfl hfield,
    Json.omitted_congr .expr hkind' rfl hfield']
  exact ih.expr ⟨hsmall, halike.congr_fields hkind rfl hfield⟩

theorem agree_readField (key : String) (h : json.AlikeBelow drops n .expr json') :
    Agree (json.omitted .expr) (json'.omitted .expr) (readField (key, Node.ofJson json))
      (readField (key, Node.ofJson json')) :=
  (ih.expr h).ending fun _ => .pure _

/-- An object to build is told from an expression by its keys. -/
theorem agree_readJsonBody (h : json.AlikeBelow drops n .body json') :
    Agree (json.omitted .body) (json'.omitted .body) (readJsonBody (Node.ofJson json))
      (readJsonBody (Node.ofJson json')) := by
  cases json with
  | obj fields =>
      obtain ⟨fields', rfl, hfields⟩ := h.alike.fields_inv rfl
      rw [readJsonBody_eq, readJsonBody_eq, hfields.keys_eq]
      cases hsigned : Slot.isSigned (fields.map Prod.fst) with
      | true =>
          rw [if_pos rfl, if_pos rfl]
          exact (agree_asExpr ih h rfl fun key => if_pos hsigned).map JsonBody.single
      | false =>
          have hfield : ∀ key, Slot.body.field (fields.map Prod.fst) key = .expr :=
            fun key => if_neg (by rw [hsigned]; nofun)
          rw [if_neg nofun, if_neg nofun]
          refine (agree_fields h.succ rfl fun key json json' hjson => ?_).map JsonBody.object
          rw [hfield] at hjson ⊢
          exact agree_readField ih key hjson
  | arr items =>
      obtain ⟨items', rfl, -⟩ := h.alike.arr_inv
      exact (agree_items h.succ fun _ _ => ih.expr).map JsonBody.array
  | _ =>
      rw [h.alike.eq_of_isScalar rfl]
      exact Agree.map (.pure _) JsonBody.single

/-- The query of a JSON value is read if a table is named. -/
theorem agree_readSource (h : Record.Alike drops n kind fields fields' record record')
    (howner : record.owner = kind.owner) :
    Agree ((if ((Json.obj fields).given? "table").isSome then queryOrder else []).flatMap
        (kind.omittedAt fields))
      ((if ((Json.obj fields').given? "table").isSome then queryOrder else []).flatMap
        (kind.omittedAt fields')) (readSource record) (readSource record') := by
  have htable : ((Json.obj fields').given? "table").map Node.ofJson
      = ((Json.obj fields).given? "table").map Node.ofJson := by
    rw [← h.left.get?_eq, ← h.right.get?_eq, h.get?_eq "table" rfl rfl]
  have hsome := congrArg Option.isSome htable
  rw [Option.isSome_map, Option.isSome_map] at hsome
  unfold readSource
  rw [hsome, h.left.get?_eq, h.right.get?_eq, htable]
  cases (Json.obj fields).given? "table" with
  | none => exact .pure none
  | some json => exact (agree_readQuery ih h howner).map some

/-- The wrapper of a JSON object or array. -/
abbrev jsonKind (isArray : Bool) : OptionKind :=
  .wrapper (if isArray then .array else .json)

theorem agree_readJson (isArray : Bool)
    (h : json.AlikeBelow drops n (.options (jsonKind isArray)) json') :
    Agree (json.omitted (.options (jsonKind isArray)))
      (json'.omitted (.options (jsonKind isArray))) (readJson isArray (Node.ofJson json))
      (readJson isArray (Node.ofJson json')) := by
  rw [readJson_eq, readJson_eq]
  have hkeys : queryKeys.filter (· != "select")
      ++ ["value", "aggregate", "extract", "contains", "compare", "as"]
        = (jsonKind isArray).keys := by
    cases isArray <;> rfl
  rw [hkeys]
  refine h.record _ fun fields fields' record record' howner h => ?_
  have hvalue : (jsonKind isArray).slot "value" = .body := by cases isArray <;> rfl
  have horder (fields : List (String × Json)) : (jsonKind isArray).order fields
      = (if ((Json.obj fields).given? "table").isSome then queryOrder else [])
        ++ ["value", "compare"] := by
    cases isArray <;> rfl
  rw [horder, horder, List.flatMap_append, List.flatMap_append]
  refine (agree_readSource ih h (howner.trans (by cases isArray <;> rfl))).bind fun source => ?_
  refine h.require "value" rfl fun json json' hbody => ?_
  rw [hvalue] at hbody ⊢
  refine (agree_readJsonBody ih hbody).bind fun body => ?_
  refine (h.string? "extract" rfl rfl).bind fun extract => ?_
  have haggregate : readAggregate record' isArray = readAggregate record isArray := by
    simp only [readAggregate, h.json?_eq "aggregate" rfl rfl]
  rw [haggregate, h.given?_eq "contains" rfl rfl rfl]
  exact agree_finish ih h _

theorem agree_readWrapper (kind : WrapperKind)
    (h : json.AlikeBelow drops n (.options (.wrapper kind)) json') :
    Agree (json.omitted (.options (.wrapper kind))) (json'.omitted (.options (.wrapper kind)))
      (readWrapper kind (Node.ofJson json)) (readWrapper kind (Node.ofJson json')) := by
  cases kind with
  | string => exact agree_readString ih h
  | number => exact agree_readNumber ih h
  | date => exact agree_readDate ih h
  | concat => exact agree_readConcat ih h
  | choice => exact agree_readChoice ih h
  | cases => exact agree_readCases ih h
  | json => exact agree_readJson ih false h
  | array => exact agree_readJson ih true h
  | refer => exact agree_readRefer ih h
  | aggregate kind => exact agree_readAggregateOf ih kind h

end Wrappers

/-! ## Conditions -/

theorem readSubquery_eq (fields : List (String × Json)) :
    readSubquery (Node.ofJson (.obj fields))
      = if (fields.map Prod.fst).contains "refer" then (Node.ofJson (.obj fields)).expr
        else Expr.wrapper <$> readWrapper .refer (Node.ofJson (.obj fields)) := by
  change (if (Json.foldFields Node.algebra fields).any _ then _ else _) = _
  rw [any_foldFields]

section Conditions

variable (ih : ReadAlike drops n)

include ih

theorem agree_readConditions (owner : String) (h : json.AlikeBelow drops n .exprs json') :
    Agree (json.omitted .exprs) (json'.omitted .exprs) (readConditions owner (Node.ofJson json))
      (readConditions owner (Node.ofJson json')) := by
  cases json with
  | arr items =>
      obtain ⟨items', rfl, -⟩ := h.alike.arr_inv
      exact agree_items h.succ fun _ _ => ih.condition owner
  | obj fields =>
      obtain ⟨fields', rfl, -⟩ := h.alike.fields_inv rfl
      exact .invalid _ _ _ _
  | _ =>
      rw [h.alike.eq_of_isScalar rfl]
      exact .invalid _ _ _ _

theorem agree_readBetween (h : json.AlikeBelow drops n (.options .between) json') :
    Agree (json.omitted (.options .between)) (json'.omitted (.options .between))
      (readCombined .between (Node.ofJson json)) (readCombined .between (Node.ofJson json')) := by
  refine h.record "between" fun fields fields' record record' _ h => ?_
  refine h.require "gt" rfl fun json json' hlow => ?_
  refine (ih.expr hlow).bind fun low => ?_
  refine h.require "lt" rfl fun json json' hhigh => ?_
  refine (ih.expr hhigh).bind fun high => ?_
  exact .pure _

/-- A query to test for rows is read as an expression if it refers to one, and else as its
options. -/
theorem agree_readSubquery (h : json.AlikeBelow drops n .subquery json') :
    Agree (json.omitted .subquery) (json'.omitted .subquery) (readSubquery (Node.ofJson json))
      (readSubquery (Node.ofJson json')) := by
  cases json with
  | obj fields =>
      cases hrefer : (fields.map Prod.fst).contains "refer" with
      | true =>
          have hkind : Slot.subquery.kind? (fields.map Prod.fst) = none := if_pos hrefer
          obtain ⟨fields', rfl, hfields⟩ := h.alike.fields_inv hkind
          rw [readSubquery_eq, readSubquery_eq, hfields.keys_eq, hrefer, if_pos rfl, if_pos rfl]
          exact agree_asExpr ih h hkind fun key => if_pos hrefer
      | false =>
          have hkind : Slot.subquery.kind? (fields.map Prod.fst) = some (.wrapper .refer) :=
            if_neg (by rw [hrefer]; nofun)
          obtain ⟨fields', rfl, hoptions⟩ := h.alike.options_inv hkind rfl
          have hrefer' : (fields'.map Prod.fst).contains "refer" = false :=
            hoptions.contains_eq_false (by decide) hrefer
          have hkind' : Slot.subquery.kind? (fields'.map Prod.fst) = some (.wrapper .refer) :=
            if_neg (by rw [hrefer']; nofun)
          rw [readSubquery_eq, readSubquery_eq, hrefer, hrefer', if_neg nofun, if_neg nofun,
            Json.omitted_options hkind, Json.omitted_options hkind']
          have hquery : (Json.obj fields).AlikeBelow drops n (.options (.wrapper .refer))
              (.obj fields') := ⟨h.small, .of_options rfl rfl hoptions⟩
          have hwrapper := agree_readWrapper ih .refer hquery
          rw [Json.omitted_options rfl, Json.omitted_options rfl] at hwrapper
          exact hwrapper.map Expr.wrapper
  | arr items =>
      obtain ⟨items', rfl, -⟩ := h.alike.arr_inv
      exact .fails (fun _ => ⟨_, rfl⟩) fun _ => ⟨_, rfl⟩
  | _ =>
      rw [h.alike.eq_of_isScalar rfl]
      exact .fails (fun _ => ⟨_, rfl⟩) fun _ => ⟨_, rfl⟩

omit ih in
/-- An operand is an expression, except for that of a test for rows. -/
theorem Slot.ofEntry_of_comparator {key : String} {comparator : Comparator}
    (hkey : Signature.ofKey? key = none) (hname : ofName? Comparator key = some comparator) :
    Slot.ofEntry key = match comparator with
      | .hasRows | .hasNoRows => .subquery
      | _ => .expr := by
  unfold Slot.ofEntry
  rw [hkey]
  simp only [hname]
  cases comparator <;> rfl

theorem agree_readOperand (key : String) (comparator : Comparator)
    (hkey : Signature.ofKey? key = none) (hname : ofName? Comparator key = some comparator)
    (h : json.AlikeBelow drops n (.ofEntry key) json') :
    Agree (json.omitted (.ofEntry key)) (json'.omitted (.ofEntry key))
      (readOperand comparator (Node.ofJson json)) (readOperand comparator (Node.ofJson json')) := by
  rw [Slot.ofEntry_of_comparator hkey hname] at h ⊢
  cases comparator with
  | hasRows | hasNoRows => exact agree_readSubquery ih h
  | _ => exact ih.expr h

/-- An entry of a condition, by what its key stands for. -/
theorem agree_readEntry (owner key : String) (h : json.AlikeBelow drops n (.ofEntry key) json') :
    Agree (json.omitted (.ofEntry key)) (json'.omitted (.ofEntry key))
      (readEntry owner (key, Node.ofJson json)) (readEntry owner (key, Node.ofJson json')) := by
  unfold readEntry
  cases hkey : Signature.ofKey? key with
  | some signature =>
      cases signature with
      | wrapper kind =>
          have hslot : Slot.ofEntry key = .options (.wrapper kind) := by rw [Slot.ofEntry, hkey]
          rw [hslot] at h ⊢
          exact (agree_readWrapper ih kind h).map Entry.wrapper
      | combinator c =>
          cases c with
          | between =>
              have hslot : Slot.ofEntry key = .options .between := by rw [Slot.ofEntry, hkey]
              rw [hslot] at h ⊢
              exact agree_readBetween ih h
          | all =>
              have hslot : Slot.ofEntry key = .exprs := by rw [Slot.ofEntry, hkey]
              rw [hslot] at h ⊢
              exact (agree_readConditions ih "and" h).map Entry.all
          | any =>
              have hslot : Slot.ofEntry key = .exprs := by rw [Slot.ofEntry, hkey]
              rw [hslot] at h ⊢
              exact (agree_readConditions ih "or" h).map Entry.any
  | none =>
      cases hname : ofName? Comparator key with
      | some comparator =>
          exact (agree_readOperand ih key comparator hkey hname h).map (Entry.compare comparator)
      | none =>
          have hslot : Slot.ofEntry key = .expr := by
            unfold Slot.ofEntry
            rw [hkey]
            simp only [hname]
          rw [hslot] at h ⊢
          exact (Quiet.checkColumn key owner).bind fun _ => (ih.expr h).map (Entry.column key)

end Conditions

/-! ## Objects -/

section Objects

variable (ih : ReadAlike drops n)

include ih

/-- The wrapper that an object consists of, if it is one. -/
theorem agree_readOnlyWrapper (h : (Json.obj fields).AlikeBelow drops (n + 1) .expr (.obj fields'))
    {f : Wrapper → α} {x y : Reading α}
    (hxy : Agree ((Json.obj fields).omitted .expr) ((Json.obj fields').omitted .expr) x y) :
    Agree ((Json.obj fields).omitted .expr) ((Json.obj fields').omitted .expr)
      (match readOnlyWrapper? (Json.foldFields Node.algebra fields) with
        | some wrapper => f <$> wrapper
        | none => x)
      (match readOnlyWrapper? (Json.foldFields Node.algebra fields') with
        | some wrapper => f <$> wrapper
        | none => y) := by
  obtain ⟨hsmall, halike⟩ := h
  obtain ⟨_, ⟨⟩, hfields⟩ := halike.fields_inv rfl
  match fields, fields', hfields with
  | [], [], .nil => exact hxy
  | [(key, json)], [(_, json')], .cons ⟨rfl, hjson⟩ .nil =>
      cases hkey : Signature.ofKey? key with
      | none =>
          simp only [Json.foldFields, readOnlyWrapper?, signed?, hkey]
          exact hxy
      | some signature =>
          cases signature with
          | combinator c =>
              simp only [Json.foldFields, readOnlyWrapper?, signed?, hkey]
              exact hxy
          | wrapper kind =>
              have hslot : Slot.ofEntry key = .options (.wrapper kind) := by rw [Slot.ofEntry, hkey]
              have homitted (json : Json) : (Json.obj [(key, json)]).omitted .expr
                  = json.omitted (.options (.wrapper kind)) := by
                rw [Json.omitted_fields rfl, ← hslot]
                exact List.append_nil _
              have hlt : sizeOf json < sizeOf (Json.obj [(key, json)]) :=
                Json.sizeOf_lt_of_mem_parts List.mem_cons_self
              have hbelow : json.AlikeBelow drops n (.options (.wrapper kind)) json' :=
                ⟨by omega, hslot ▸ hjson⟩
              simp only [Json.foldFields, readOnlyWrapper?, signed?, hkey, Option.map_some]
              rw [homitted, homitted]
              exact (agree_readWrapper ih kind hbelow).map f
  | _ :: _ :: _, _ :: _ :: _, _ => exact hxy

theorem agree_readEntries (owner : String)
    (h : (Json.obj fields).AlikeBelow drops (n + 1) .expr (.obj fields')) :
    Agree ((Json.obj fields).omitted .expr) ((Json.obj fields').omitted .expr)
      ((Json.foldFields Node.algebra fields).mapM (readEntry owner))
      ((Json.foldFields Node.algebra fields').mapM (readEntry owner)) :=
  agree_fields h rfl fun key _ _ => agree_readEntry ih owner key

theorem agree_readObject (h : (Json.obj fields).AlikeBelow drops (n + 1) .expr (.obj fields')) :
    Agree ((Json.obj fields).omitted .expr) ((Json.obj fields').omitted .expr)
      (readObject (Json.foldFields Node.algebra fields))
      (readObject (Json.foldFields Node.algebra fields')) :=
  agree_readOnlyWrapper ih h ((agree_readEntries ih "where" h).map Expr.condition)

theorem agree_readObjectItem (h : (Json.obj fields).AlikeBelow drops (n + 1) .expr (.obj fields')) :
    Agree ((Json.obj fields).omitted .expr) ((Json.obj fields').omitted .expr)
      (readObjectItem (Json.foldFields Node.algebra fields))
      (readObjectItem (Json.foldFields Node.algebra fields')) :=
  agree_readOnlyWrapper ih h (.throw _ _)

/-- Values are read alike if the smaller ones are. -/
theorem ReadAlike.succ : ReadAlike drops (n + 1) where
  expr {json json'} h := by
    cases json with
    | arr items =>
        obtain ⟨items', rfl, -⟩ := h.alike.arr_inv
        exact (agree_items h fun _ _ => ih.expr).map Expr.list
    | obj fields =>
        obtain ⟨fields', rfl, -⟩ := h.alike.fields_inv rfl
        exact agree_readObject ih h
    | _ =>
        rw [h.alike.eq_of_isScalar rfl]
        exact .pure _
  item {json json'} h := by
    cases json with
    | arr items =>
        obtain ⟨items', rfl, -⟩ := h.alike.arr_inv
        exact .invalid _ _ _ _
    | obj fields =>
        obtain ⟨fields', rfl, -⟩ := h.alike.fields_inv rfl
        exact agree_readObjectItem ih h
    | _ =>
        rw [h.alike.eq_of_isScalar rfl]
        exact .pure _
  condition owner {json json'} h := by
    cases json with
    | arr items =>
        obtain ⟨items', rfl, -⟩ := h.alike.arr_inv
        exact .invalid _ _ _ _
    | obj fields =>
        obtain ⟨fields', rfl, -⟩ := h.alike.fields_inv rfl
        exact agree_readEntries ih owner h
    | _ =>
        rw [h.alike.eq_of_isScalar rfl]
        exact .invalid _ _ _ _
  join {json json'} h := by
    cases json with
    | arr items =>
        obtain ⟨items', rfl, -⟩ := h.alike.arr_inv
        exact .invalid _ _ _ _
    | obj fields =>
        obtain ⟨fields', rfl, -⟩ := h.alike.options_inv rfl rfl
        exact agree_readJoin ih h
    | _ =>
        rw [h.alike.eq_of_isScalar rfl]
        exact .invalid _ _ _ _

end Objects

/-- **Alike values are read alike.** -/
theorem readAlike (drops : Bool) (n : Nat) : ReadAlike drops n := by
  induction n with
  | zero =>
      have hnone {slot : Slot} {json json' : Json} : ¬json.AlikeBelow drops 0 slot json' :=
        fun h => Nat.not_lt_zero _ h.small
      exact ⟨fun h => absurd h hnone, fun h => absurd h hnone, fun _ _ _ h => absurd h hnone,
        fun h => absurd h hnone⟩
  | succ n ih => exact ih.succ

/-! ## Statements -/

theorem agree_readSelectStatement (h : json.Alike drops (.options .select) json') :
    Agree (json.omitted (.options .select)) (json'.omitted (.options .select))
      (readSelectStatement json) (readSelectStatement json') := by
  have hbelow : json.AlikeBelow drops (sizeOf json + 1) (.options .select) json' :=
    ⟨Nat.lt_succ_self _, h⟩
  refine hbelow.record "select" fun fields fields' record record' howner h => ?_
  exact agree_readQuery (readAlike _ _) h howner

theorem agree_readRow (ih : ReadAlike drops n) (owner : String)
    (hkind : ∀ keys, slot.kind? keys = none) (hfield : ∀ keys key, slot.field keys key = .expr)
    (h : json.AlikeBelow drops n slot json') :
    Agree (json.omitted slot) (json'.omitted slot) (readRow owner (Node.ofJson json))
      (readRow owner (Node.ofJson json')) := by
  cases json with
  | obj fields =>
      obtain ⟨fields', rfl, -⟩ := h.alike.fields_inv (hkind _)
      refine agree_fields h.succ (hkind _) fun key json json' hjson => ?_
      rw [hfield] at hjson ⊢
      exact agree_readPair ih owner key hjson
  | arr items =>
      obtain ⟨items', rfl, -⟩ := h.alike.arr_inv
      exact .invalid _ _ _ _
  | _ =>
      rw [h.alike.eq_of_isScalar rfl]
      exact .invalid _ _ _ _

theorem agree_readRows (ih : ReadAlike drops n) (h : json.AlikeBelow drops n .rows json') :
    Agree (json.omitted .rows) (json'.omitted .rows) (readRows (Node.ofJson json))
      (readRows (Node.ofJson json')) := by
  cases json with
  | obj fields =>
      obtain ⟨fields', rfl, -⟩ := h.alike.fields_inv rfl
      refine Agree.ending ?_ fun row => .pure [row]
      exact agree_readRow ih "save.data" (fun _ => rfl) (fun _ _ => rfl) h
  | arr items =>
      obtain ⟨items', rfl, hitems⟩ := h.alike.arr_inv
      cases hitems with
      | nil => exact .invalid _ _ _ _
      | cons =>
          exact agree_items h.succ fun _ _ =>
            agree_readRow ih "save.data" (fun _ => rfl) (fun _ _ => rfl)
  | _ =>
      rw [h.alike.eq_of_isScalar rfl]
      exact .invalid _ _ _ _

theorem readEncrypt_eq_match (record : Record) : readEncrypt record
    = match record.get? "encrypt" with
      | some node =>
        match node.json with
        | .obj fields =>
          fields.mapM fun (column, json) => do
            let field := record.path "encrypt" ++ "." ++ column
            return (column, ← Reading.decoded field (Settings.decode json))
        | _ => Reading.invalid (record.path "encrypt") (.expected .object)
      | none => pure [] := by
  unfold readEncrypt Record.json?
  cases record.get? "encrypt" with
  | none => rfl
  | some node =>
      obtain ⟨json, items, fields, expr, item, condition, join⟩ := node
      cases json <;> rfl

/-- The settings of the columns to encrypt. -/
theorem agree_readEncrypt (h : Record.Alike drops n kind fields fields' record record') :
    Agree [] [] (readEncrypt record) (readEncrypt record') := by
  rw [readEncrypt_eq_match, readEncrypt_eq_match, h.path_eq]
  refine h.whenGiven "encrypt" (fun _ _ => .pure []) ?_ ?_
  · intro json json' _ _ _ hjson
    cases json with
    | obj columns =>
        obtain ⟨columns', rfl, hcolumns⟩ := hjson.alike.fields_inv rfl
        refine Agree.each hcolumns ?_
        rintro ⟨column, json⟩ ⟨_, json'⟩ ⟨rfl, hsettings⟩
        exact (Record.Alike.agree_decoded _ (hsettings.decode_eq rfl)).bind fun _ => .pure _
    | arr items =>
        obtain ⟨items', rfl, -⟩ := hjson.alike.arr_inv
        exact .invalid _ _ _ _
    | _ =>
        rw [hjson.alike.eq_of_isScalar rfl]
        exact .invalid _ _ _ _
  · intro json _ homission
    cases homission

theorem agree_readWrite (h : json.Alike drops (.options .write) json') :
    Agree (json.omitted (.options .write)) (json'.omitted (.options .write)) (readWrite json)
      (readWrite json') := by
  have ih := readAlike drops (sizeOf json + 1)
  have hbelow : json.AlikeBelow drops (sizeOf json + 1) (.options .write) json' :=
    ⟨Nat.lt_succ_self _, h⟩
  refine hbelow.record "save" fun fields fields' record record' howner h => ?_
  refine h.require "data" rfl fun json json' hrows => ?_
  refine (agree_readRows ih hrows).bind fun rows => ?_
  have hupsert := h.optional "upsert" rfl fun json json' =>
    agree_readRow ih "save.upsert" (fun _ => rfl) (fun _ _ => rfl)
  refine hupsert.bind fun upsert => ?_
  refine (agree_readEncrypt h).bind fun encrypt => ?_
  refine (h.string "table" rfl rfl).bind fun table => ?_
  refine (h.string? "alias" rfl rfl).bind fun alias? => ?_
  refine (agree_condition? ih h "where" rfl rfl).bind fun filter => ?_
  refine (agree_readJunction h).bind fun junction => ?_
  refine (h.strings "indexes" rfl rfl).bind fun indexes => ?_
  refine (h.settings? "encryption" rfl rfl).bind fun encryption => ?_
  exact .pure _

theorem agree_readDelete (h : json.Alike drops (.options .delete) json') :
    Agree (json.omitted (.options .delete)) (json'.omitted (.options .delete)) (readDelete json)
      (readDelete json') := by
  have ih := readAlike drops (sizeOf json + 1)
  have hbelow : json.AlikeBelow drops (sizeOf json + 1) (.options .delete) json' :=
    ⟨Nat.lt_succ_self _, h⟩
  refine hbelow.record "delete" fun fields fields' record record' howner h => ?_
  refine (h.string "table" rfl rfl).bind fun table => ?_
  refine (h.string? "alias" rfl rfl).bind fun alias? => ?_
  refine (agree_condition? ih h "where" rfl rfl).bind fun filter => ?_
  refine (agree_readJunction h).bind fun junction => ?_
  refine (h.settings? "encryption" rfl rfl).bind fun encryption => ?_
  exact .pure _

end QueryTree

import QueryTree.Proofs.Cipher.Form

/-!
# Readings of recast descriptions

A description with other settings reads as the tree with other settings does: the same errors, the
same clauses left out, and a tree in which nothing but the settings is changed.

* `Json.follows`: expressions, select items, conditions and joins.
* `becomes_readSelectStatement`, `becomes_readWrite`, `becomes_readDelete`: statements.
-/

namespace QueryTree

open Cipher (Settings)
open Reading (Becomes Related)

variable {P : Policy} {p : Recasting} {kind : Option WrapperKind} {record record' : Record}
  {node node' : Node}

/-! ## Queries and joins -/

theorem becomes_expr (h : Node.Recast P p .expr node node') :
    Becomes (Expr.recast p) node.expr node'.expr := by
  obtain ⟨json, ⟨hjson, -⟩, rfl, rfl⟩ := h
  exact hjson.expr

theorem becomes_item (h : Node.Recast P p .expr node node') :
    Becomes (Expr.recast p) node.item node'.item := by
  obtain ⟨json, ⟨hjson, -⟩, rfl, rfl⟩ := h
  exact hjson.item

theorem becomes_condition (h : Node.Recast P p .expr node node') (owner : String) :
    Becomes (recastEntries p) (node.condition owner) (node'.condition owner) := by
  obtain ⟨json, ⟨hjson, -⟩, rfl, rfl⟩ := h
  exact hjson.condition owner

theorem becomes_join (h : Node.Recast P p (.options none) node node') :
    Becomes (Join.recast p) node.join node'.join := by
  obtain ⟨json, ⟨hjson, -⟩, rfl, rfl⟩ := h
  exact hjson.join

theorem becomes_readSelect (h : record.Recast P p (.options kind) record') :
    Becomes (recastExprs p) (readSelect record) (readSelect record') := by
  unfold readSelect
  rw [h.owner_eq]
  refine h.whenGiven "select" rfl (.pure rfl) fun node node' hnode => ?_
  obtain ⟨json, ⟨-, hparts⟩, rfl, rfl⟩ := hnode
  cases json with
  | arr items =>
      exact (becomes_items hparts fun _ _ => becomes_item).congr
        fun es => (recastExprs_eq_map es).symm
  | _ => exact .leaveOut _ _ _ rfl

theorem becomes_readJoins (h : record.Recast P p (.options kind) record') :
    Becomes (recastJoins p) (readJoins record) (readJoins record') := by
  unfold readJoins
  rw [h.path_eq]
  refine h.whenGiven "join" rfl (.pure rfl) fun node node' hnode => ?_
  obtain ⟨json, ⟨-, hparts⟩, rfl, rfl⟩ := hnode
  cases json with
  | arr items =>
      exact (becomes_items hparts fun _ _ => becomes_join).congr
        fun joins => (recastJoins_eq_map joins).symm
  | _ => exact .invalid _ _

theorem becomes_readGroupBy (h : record.Recast P p (.options kind) record') :
    Becomes (recastExprs p) (readGroupBy record) (readGroupBy record') := by
  unfold readGroupBy
  rw [h.owner_eq]
  refine h.whenGiven "groupBy" rfl (.pure rfl) fun node node' hnode => ?_
  obtain ⟨json, ⟨-, hparts⟩, rfl, rfl⟩ := hnode
  cases json with
  | arr items =>
      exact (becomes_items hparts fun _ _ => becomes_expr).congr
        fun es => (recastExprs_eq_map es).symm
  | str column => exact .pure rfl
  | _ => exact .leaveOut _ _ _ rfl

theorem readOrderBy_eq (h : record.Recast P p (.options kind) record') :
    readOrderBy record' = readOrderBy record := by
  simp only [readOrderBy, h.json?_eq "orderBy" rfl, h.path_eq, h.owner_eq]

theorem readJunction_eq (h : record.Recast P p (.options kind) record') :
    readJunction record' = readJunction record := by
  simp only [readJunction, h.named?_eq "junction" rfl]

theorem becomes_readQuery (hP : P.Realizes p) (h : record.Recast P p (.options kind) record') :
    Becomes (Query.recast p) (readQuery record) (readQuery record') := by
  unfold readQuery
  refine .bindEq (h.string_eq "table" rfl) fun table => ?_
  refine .bindTo (becomes_readSelect h) fun select => ?_
  refine .bindTo (becomes_readJoins h) fun joins => ?_
  refine .bindTo (becomes_readGroupBy h) fun groupBy => ?_
  refine .bindEq (readOrderBy_eq h) fun orderBy => ?_
  refine .bindEq (h.string?_eq "alias" rfl) fun alias? => ?_
  refine .bindTo (h.condition? "where" rfl) fun filter => ?_
  refine .bindEq (readJunction_eq h) fun junction => ?_
  refine .bindTo (h.condition? "having" rfl) fun having => ?_
  refine .bindEq (h.count?_eq "limit" rfl) fun limit => ?_
  refine .bindEq (h.count?_eq "offset" rfl) fun offset => ?_
  refine .bindTo (h.settings? hP "encryption" rfl) fun encryption => ?_
  exact .pure rfl

theorem becomes_readPair (position key : String) (h : Node.Recast P p .expr node node') :
    Becomes (fun pair => (pair.1, pair.2.recast p)) (readPair position (key, node))
      (readPair position (key, node')) := by
  refine .bindEq rfl fun _ => ?_
  refine .bindTo (becomes_expr h) fun e => ?_
  exact .pure rfl

theorem readSharedColumn_recast (of : Form) (json : Json) :
    readSharedColumn (json.recast P (.fields of)) = readSharedColumn json := by
  cases json <;> rfl

theorem becomes_readMatching (h : record.Recast P p (.options kind) record') :
    Becomes (Matching.recast p) (readMatching record) (readMatching record') := by
  unfold readMatching
  refine h.whenGiven "using" rfl (.pure rfl) fun node node' hnode => ?_
  obtain ⟨json, ⟨-, hparts⟩, rfl, rfl⟩ := hnode
  cases json with
  | arr columns =>
      change Becomes _ (Matching.shared <$> columns.mapM readSharedColumn)
        (Matching.shared <$> (recastJsonItems P (.fields .expr) columns).mapM readSharedColumn)
      rw [recastJsonItems_eq_map, List.mapM_map]
      simp only [Function.comp_def, readSharedColumn_recast]
      refine (Related.refl Eq.refl _).map ?_
      rintro shared _ rfl
      rfl
  | obj fields =>
      have hfields : ∀ x ∈ fields, x.2.Inside (Json.Follows P p) :=
        fun x hx => hparts _ (List.mem_map_of_mem hx)
      have hpairs := becomes_fields (.fields .expr) hfields
        fun key _ _ => becomes_readPair "join.using" key
      exact hpairs.mapTo fun pairs => by rw [Matching.recast, recastPairs_eq_map]
  | _ => exact .leaveOut _ _ _ rfl

theorem Matching.isUnmatched_recast (matching : Matching) :
    (matching.recast p).isUnmatched = matching.isUnmatched := by
  cases matching <;> rfl

theorem becomes_readJoin (hP : P.Realizes p) {fields : List (String × Json)}
    (hfields : ∀ x ∈ fields, x.2.Inside (Json.Follows P p)) :
    Becomes (Join.recast p) (readJoin (Json.foldFields Node.algebra fields))
      (readJoin (Json.foldFields Node.algebra (recastJsonFields P (.options none) fields))) := by
  rw [foldFields_algebra, foldFields_algebra, recastJsonFields_eq_map, List.map_map]
  unfold readJoin
  refine (Record.recast_ofFields "join" _ hfields).bind fun record record' h => ?_
  refine .bindTo (becomes_readQuery hP h) fun query => ?_
  refine .bindEq (h.named?_eq "type" rfl) fun kind => ?_
  refine .bindTo (becomes_readMatching h) fun matching => ?_
  simp only [Matching.isUnmatched_recast, Query.isDerived_recast, Query.alias?_recast,
    Query.table_recast]
  split
  · exact .throw _
  · split
    · exact .throw _
    · exact .pure rfl

/-! ## Operands and steps -/

theorem readDecrypt_eq (record : Record) :
    readDecrypt record = (record.given? "decrypt").elim (pure none) fun node =>
      Reading.decoded (record.path "decrypt") (Settings.decodeSwitch node.json) := by
  unfold readDecrypt Record.json? Record.get?
  cases record.given? "decrypt" with
  | none => rfl
  | some node =>
      obtain ⟨json, items, fields, expr, item, condition, join⟩ := node
      cases json with
      | null => rfl
      | bool b => cases b <;> rfl
      | _ =>
          simp only [Settings.decodeSwitch, Option.elim_some, Option.map_some]
          generalize Settings.decode _ = result
          cases result <;> rfl

theorem becomes_readDecrypt (hP : P.Realizes p) (h : record.Recast P p (.options kind) record') :
    Becomes (·.bind p.columnOf) (readDecrypt record) (readDecrypt record') := by
  have hgiven := h.given "decrypt"
  rw [readDecrypt_eq, readDecrypt_eq, h.path_eq]
  generalize record.given? "decrypt" = node, record'.given? "decrypt" = node' at hgiven
  cases hgiven with
  | none => exact .pure rfl
  | some hnode =>
      obtain ⟨json, -, rfl, rfl⟩ := hnode
      refine Record.Recast.becomes_decoded _ ?_
      change Settings.decodeSwitch (Node.ofJson (json.recast P .decrypt)).json = _
      rw [Node.json_ofJson, Node.json_ofJson, Json.recast_decrypt, hP.decrypt]

/-- The value of a wrapper and its finishing steps with other settings. -/
def Prepared.recast (p : Recasting) (prepared : Prepared) : Prepared :=
  ⟨prepared.value.recast p, prepared.prepare.recast p, recastFilter p prepared.compare,
    prepared.alias?⟩

theorem becomes_readPrepared (hP : P.Realizes p) (h : record.Recast P p (.options kind) record')
    (hvalue : Form.ofOption kind "value" = .expr) :
    Becomes (Prepared.recast p) (readPrepared record) (readPrepared record') := by
  have hrequired := h.requireGiven "value"
  rw [show (Form.options kind).field "value" = .expr from hvalue] at hrequired
  unfold readPrepared
  refine .bindTo (becomes_readDecrypt hP h) fun decrypt => ?_
  refine hrequired.bind fun node node' hnode => ?_
  refine .bindTo (becomes_expr hnode) fun value => ?_
  refine .bindTo (h.settings? hP "encryption" rfl) fun encryption => ?_
  refine .bindEq (h.named?_eq "cast" rfl) fun cast => ?_
  refine .bindTo (h.condition? "compare" rfl) fun compare => ?_
  refine .bindEq (h.string?_eq "as" rfl) fun alias? => ?_
  exact .pure rfl

theorem becomes_readTrim (h : record.Recast P p (.options kind) record') :
    Becomes (recastStringSteps p) (readTrim record) (readTrim record') := by
  unfold readTrim
  rw [h.json?_eq "trim" rfl, h.path_eq]
  split
  · exact .pure rfl
  · split
    · exact .pure rfl
    · exact .invalid _ _
  · exact .pure rfl
  · exact .pure rfl
  · exact .invalid _ _

theorem becomes_readSubstr (h : record.Recast P p (.options kind) record') :
    Becomes (recastStringSteps p) (readSubstr record) (readSubstr record') := by
  unfold readSubstr
  rw [h.path_eq]
  refine h.whenGiven "substr" rfl (.pure rfl) fun node node' hnode => ?_
  refine (hnode.record _ _ rfl fun _ => rfl).bind fun options options' ho => ?_
  refine (ho.require "start" rfl).bind fun node node' hstart => ?_
  refine .bindTo (becomes_expr hstart) fun start => ?_
  refine .bindTo (ho.expr? "length" rfl) fun length => ?_
  exact .pure rfl

theorem becomes_readPad (h : record.Recast P p (.fields (.fields .expr)) record') (side : String) :
    Becomes (recastPad p) (readPad record side) (readPad record' side) := by
  unfold readPad
  rw [h.path_eq]
  refine h.whenGiven side rfl (.pure rfl) fun node node' hnode => ?_
  refine (hnode.record _ _ rfl fun _ => rfl).bind fun options options' ho => ?_
  refine (ho.require "length" rfl).bind fun node node' hlength => ?_
  refine .bindTo (becomes_expr hlength) fun length => ?_
  refine .bindTo (ho.expr? "pattern" rfl) fun pattern => ?_
  exact .pure rfl

theorem becomes_readPadding (h : record.Recast P p (.options kind) record') :
    Becomes (recastStringSteps p) (readPadding record) (readPadding record') := by
  unfold readPadding
  rw [h.path_eq]
  refine h.whenGiven "padding" rfl (.pure rfl) fun node node' hnode => ?_
  refine (hnode.record _ _ rfl fun _ => rfl).bind fun padding padding' hpadding => ?_
  refine .bindTo (becomes_readPad hpadding "left") fun left => ?_
  refine .bindTo (becomes_readPad hpadding "right") fun right => ?_
  exact .pure rfl

theorem becomes_readReplace (h : record.Recast P p (.options kind) record') :
    Becomes (recastStringSteps p) (readReplace record) (readReplace record') := by
  unfold readReplace
  rw [h.path_eq]
  refine h.whenGiven "replace" rfl (.pure rfl) fun node node' hnode => ?_
  refine (hnode.record _ _ rfl fun _ => rfl).bind fun options options' ho => ?_
  refine (ho.require "target" rfl).bind fun node node' htarget => ?_
  refine .bindTo (becomes_expr htarget) fun target => ?_
  refine (ho.requireGiven "replaceWith").bind fun node node' hreplacement => ?_
  refine .bindTo (becomes_expr hreplacement) fun replacement => ?_
  exact .pure rfl

theorem becomes_readStringSteps (h : record.Recast P p (.options kind) record') :
    Becomes (recastStringSteps p) (readStringSteps record) (readStringSteps record') := by
  unfold readStringSteps
  refine .bindTo (becomes_readTrim h) fun trim => ?_
  refine .bindTo (becomes_readSubstr h) fun substr => ?_
  refine .bindTo (becomes_readPadding h) fun padding => ?_
  refine .bindTo (becomes_readReplace h) fun replace => ?_
  refine .bindEq (h.named?_eq "textCase" rfl) fun textCase => ?_
  refine .bindEq (h.flag_eq "reverse" rfl) fun reverse => ?_
  refine .bindEq (h.named?_eq "encoding" rfl) fun encoding => ?_
  refine .pure ?_
  simp only [recastStringSteps_eq_map, List.map_append]
  cases textCase <;> cases reverse <;> cases encoding <;> rfl

theorem readRounding_eq (h : record.Recast P p (.options kind) record') :
    readRounding record' = readRounding record := by
  simp only [readRounding, h.json?_eq "decimal" rfl]

theorem becomes_readNumberSteps (h : record.Recast P p (.options kind) record')
    (hdate : kind ≠ some .date) :
    Becomes (recastNumberSteps p) (readNumberSteps record) (readNumberSteps record') := by
  unfold readNumberSteps
  refine .bindTo (h.expr? "power" rfl) fun power => ?_
  refine .bindTo (h.expr? "divideBy" rfl) fun divide => ?_
  refine .bindTo (h.expr? "mod" rfl) fun modulo => ?_
  refine .bindTo (h.expr? "multiplyBy" rfl) fun multiply => ?_
  refine .bindTo (h.expr? "add" (if_neg hdate)) fun add => ?_
  refine .bindTo (h.expr? "sub" (if_neg hdate)) fun subtract => ?_
  refine .bindEq (readRounding_eq h) fun rounding => ?_
  refine .pure ?_
  have hstep : ∀ (operation : Arithmetic) (operand : Option Expr),
      (recastExpr? p operand).toList.map (NumberStep.arithmetic operation)
        = (operand.toList.map (NumberStep.arithmetic operation)).map (NumberStep.recast p) := by
    intro operation operand
    cases operand <;> rfl
  have hpower : (recastExpr? p power).toList.map NumberStep.power
      = (power.toList.map NumberStep.power).map (NumberStep.recast p) := by
    cases power <;> rfl
  have hrounding : (rounding.toList.map NumberStep.rounding).map (NumberStep.recast p)
      = rounding.toList.map NumberStep.rounding := by
    cases rounding <;> rfl
  simp only [recastNumberSteps_eq_map, List.map_append, hstep, hpower, hrounding]

theorem readInterval_eq (h : record.Recast P p (.options kind) record') (key : String)
    (hform : Form.ofOption kind key = .verbatim) :
    readInterval record' key = readInterval record key := by
  simp only [readInterval, h.json?_eq key hform, h.path_eq]

theorem readDateChange_eq (h : record.Recast P p (.options (some .date)) record') :
    readDateChange record' = readDateChange record := by
  simp only [readDateChange, h.string?_eq "fromPattern" rfl, readInterval_eq h "add" rfl,
    readInterval_eq h "sub" rfl, h.string?_eq "format" rfl]

/-! ## Wrappers -/

theorem becomes_finish (h : record.Recast P p (.options kind) record') (core : Core) :
    Becomes (Wrapper.recast p) (finish record core) (finish record' (core.recast p)) := by
  unfold finish
  refine .bindTo (h.condition? "compare" rfl) fun compare => ?_
  refine .bindEq (h.string?_eq "as" rfl) fun alias? => ?_
  exact .pure rfl

theorem becomes_readString (hP : P.Realizes p)
    (h : Node.Recast P p (.options (some .string)) node node') :
    Becomes (Wrapper.recast p) (readString node) (readString node') := by
  unfold readString
  refine (h.record _ _ rfl fun _ => rfl).bind fun record record' h => ?_
  refine .bindTo (becomes_readPrepared hP h rfl) fun prepared => ?_
  refine .bindTo (becomes_readStringSteps h) fun steps => ?_
  exact .pure rfl

theorem becomes_readNumber (hP : P.Realizes p)
    (h : Node.Recast P p (.options (some .number)) node node') :
    Becomes (Wrapper.recast p) (readNumber node) (readNumber node') := by
  unfold readNumber
  refine (h.record _ _ rfl fun _ => rfl).bind fun record record' h => ?_
  refine .bindTo (becomes_readNumberSteps h nofun) fun steps => ?_
  refine .bindTo (becomes_readPrepared hP h rfl) fun prepared => ?_
  exact .pure rfl

theorem becomes_readDate (hP : P.Realizes p)
    (h : Node.Recast P p (.options (some .date)) node node') :
    Becomes (Wrapper.recast p) (readDate node) (readDate node') := by
  unfold readDate
  refine (h.record _ _ rfl fun _ => rfl).bind fun record record' h => ?_
  refine .bindTo (becomes_readPrepared hP h rfl) fun prepared => ?_
  refine .bindEq (readDateChange_eq h) fun change => ?_
  exact .pure rfl

/-- What is read after a list that must not be empty. -/
theorem becomes_nonEmpty {α β γ δ : Type} {S : γ → δ → Prop} {form : Form}
    (h : Node.Recast P p form node node') (hform : form.isCompound) {read : Node → Reading α}
    {read' : Node → Reading β} {f : α → β}
    (hread : ∀ node node', Node.Recast P p form.item node node' →
      Becomes f (read node) (read' node'))
    (field : String) (fault : Fault) {k : List α → Reading γ} {l : List β → Reading δ}
    (hk : ∀ values, Related S (k values) (l (values.map f))) :
    Related S
      (match node.json with
        | .arr (_ :: _) => node.items.mapM read >>= k
        | _ => Reading.invalid field fault >>= k)
      (match node'.json with
        | .arr (_ :: _) => node'.items.mapM read' >>= l
        | _ => Reading.invalid field fault >>= l) := by
  have hinvalid : Related S (Reading.invalid field fault >>= k)
      (Reading.invalid field fault >>= l) := .throw _
  obtain ⟨json, ⟨-, hparts⟩, rfl, rfl⟩ := h
  cases json with
  | arr items =>
      cases items with
      | nil =>
          rw [Json.recast_arr hform]
          exact hinvalid
      | cons item items =>
          rw [Json.recast_arr hform, ← recastJsonItems_eq_map]
          exact .bindTo (becomes_items hparts hread) hk
  | obj fields =>
      rw [Json.recast_obj hform]
      exact hinvalid
  | _ =>
      rw [Json.recast_scalar hform]
      · exact hinvalid
      all_goals nofun

/-- What is read after an expression that may be absent, null being one. -/
theorem becomes_given {γ δ : Type} {S : γ → δ → Prop}
    (h : record.Recast P p (.options kind) record') (key : String)
    (hform : Form.ofOption kind key = .expr) {k : Option Expr → Reading γ}
    {l : Option Expr → Reading δ} (hk : ∀ e, Related S (k e) (l (recastExpr? p e))) :
    Related S
      (match record.given? key with
        | some node => (some <$> node.expr) >>= k
        | none => pure none >>= k)
      (match record'.given? key with
        | some node => (some <$> node.expr) >>= l
        | none => pure none >>= l) := by
  have hgiven := h.given key
  rw [show (Form.options kind).field key = .expr from hform] at hgiven
  generalize record.given? key = node, record'.given? key = node' at hgiven
  cases hgiven with
  | none => exact hk none
  | @some node node' hnode =>
      have hexpr : Becomes (recastExpr? p) (some <$> node.expr) (some <$> node'.expr) :=
        (becomes_expr hnode).mapTo fun _ => rfl
      exact hexpr.bindTo hk

theorem becomes_readConcat (hP : P.Realizes p)
    (h : Node.Recast P p (.options (some .concat)) node node') :
    Becomes (Wrapper.recast p) (readConcat node) (readConcat node') := by
  unfold readConcat
  refine (h.record _ _ rfl fun _ => rfl).bind fun record record' h => ?_
  refine (h.require "value" rfl).bind fun list list' hlist => ?_
  refine becomes_nonEmpty hlist rfl (fun _ _ => becomes_expr) _ _ fun values => ?_
  rw [← recastExprs_eq_map]
  refine .bindEq (h.string?_eq "pattern" rfl) fun separator => ?_
  refine .bindEq (h.named?_eq "cast" rfl) fun cast => ?_
  refine .bindTo (h.settings? hP "encryption" rfl) fun encryption => ?_
  refine .bindTo (becomes_readStringSteps h) fun steps => ?_
  exact becomes_finish h (.concat values separator cast encryption steps)

theorem becomes_readChoice (h : Node.Recast P p (.options (some .choice)) node node') :
    Becomes (Wrapper.recast p) (readChoice node) (readChoice node') := by
  unfold readChoice
  refine (h.record _ _ rfl fun _ => rfl).bind fun record record' h => ?_
  refine (h.require "check" rfl).bind fun node node' hcheck => ?_
  refine .bindTo (becomes_condition hcheck "if.check") fun check => ?_
  refine (h.requireGiven "trueValue").bind fun node node' hyes => ?_
  refine .bindTo (becomes_expr hyes) fun yes => ?_
  refine (h.requireGiven "falseValue").bind fun node node' hno => ?_
  refine .bindTo (becomes_expr hno) fun no => ?_
  exact becomes_finish h (.choice check yes no)

theorem becomes_readBranch (h : Node.Recast P p (.options none) node node') :
    Becomes (fun branch => (recastEntries p branch.1, branch.2.recast p)) (readBranch node)
      (readBranch node') := by
  unfold readBranch
  refine (h.record _ _ rfl fun _ => rfl).bind fun record record' h => ?_
  refine (h.require "when" rfl).bind fun node node' hcheck => ?_
  refine .bindTo (becomes_condition hcheck "case.check.when") fun check => ?_
  refine (h.requireGiven "then").bind fun node node' hresult => ?_
  refine .bindTo (becomes_expr hresult) fun result => ?_
  exact .pure rfl

theorem becomes_readCases (h : Node.Recast P p (.options (some .cases)) node node') :
    Becomes (Wrapper.recast p) (readCases node) (readCases node') := by
  unfold readCases
  refine (h.record _ _ rfl fun _ => rfl).bind fun record record' h => ?_
  refine (h.require "check" rfl).bind fun list list' hlist => ?_
  refine becomes_nonEmpty hlist rfl (fun _ _ => becomes_readBranch) _ _ fun branches => ?_
  rw [← recastBranches_eq_map]
  refine becomes_given h "else" rfl fun otherwise => ?_
  exact becomes_finish h (.cases branches otherwise)

theorem becomes_readRefer (hP : P.Realizes p)
    (h : Node.Recast P p (.options (some .refer)) node node') :
    Becomes (Wrapper.recast p) (readRefer node) (readRefer node') := by
  unfold readRefer
  refine (h.record _ _ rfl fun _ => rfl).bind fun record record' h => ?_
  refine .bindTo (becomes_readQuery hP h) fun query => ?_
  refine .bindEq (h.string?_eq "as" rfl) fun alias? => ?_
  exact .pure rfl

theorem becomes_readAggregateOf (hP : P.Realizes p) (kind : AggregateKind)
    (h : Node.Recast P p (.options (some (.aggregate kind))) node node') :
    Becomes (Wrapper.recast p) (readAggregateOf kind node) (readAggregateOf kind node') := by
  unfold readAggregateOf
  refine (h.record _ _ rfl fun _ => rfl).bind fun record record' h => ?_
  refine (h.require "value" rfl).bind fun node node' hvalue => ?_
  refine .bindTo (becomes_expr hvalue) fun value => ?_
  refine .bindEq (h.flag_eq "distinct" rfl) fun distinct => ?_
  refine becomes_given h "ifNull" rfl fun ifNull => ?_
  refine .bindEq (h.named?_eq "cast" rfl) fun cast => ?_
  refine .bindTo (h.settings? hP "encryption" rfl) fun encryption => ?_
  exact becomes_finish h (.aggregate kind value distinct ifNull cast encryption)

theorem Form.ofKeys_body (keys : List String) :
    ofKeys keys .body = .fields .expr ∨ ofKeys keys .body = .expr := by
  match keys with
  | [] => exact .inl rfl
  | [key] =>
      simp only [ofKeys]
      split
      · exact .inr rfl
      · exact .inl rfl
  | _ :: _ :: _ => exact .inl rfl

theorem isNone_signed? (fields : List (String × Json)) :
    (signed? (Json.foldFields Node.algebra fields)).isNone = true
      ↔ Form.ofKeys (fields.map Prod.fst) .body = .fields .expr := by
  match fields with
  | [] => exact ⟨fun _ => rfl, fun _ => rfl⟩
  | [(key, json)] =>
      simp only [Json.foldFields, signed?, List.map_cons, List.map_nil, Form.ofKeys]
      cases Signature.ofKey? key <;> simp
  | _ :: _ :: _ => exact ⟨fun _ => rfl, fun _ => rfl⟩

/-- An object to build is told from an expression by its keys. -/
theorem readJsonBody_obj (fields : List (String × Json)) :
    readJsonBody (Node.ofJson (.obj fields))
      = if Form.ofKeys (fields.map Prod.fst) .body = .fields .expr then
          JsonBody.object <$> (Json.foldFields Node.algebra fields).mapM readField
        else JsonBody.single <$> (Node.ofJson (.obj fields)).expr := by
  change (if (signed? (Json.foldFields Node.algebra fields)).isNone then _ else _) = _
  simp only [isNone_signed?]
  rfl

theorem map_fst_recastJsonFields (form : Form) (fields : List (String × Json)) :
    (recastJsonFields P form fields).map Prod.fst = fields.map Prod.fst := by
  rw [recastJsonFields_eq_map, List.map_map]
  rfl

theorem becomes_readField (key : String) (h : Node.Recast P p .expr node node') :
    Becomes (fun pair => (pair.1, pair.2.recast p)) (readField (key, node))
      (readField (key, node')) := by
  refine .bindTo (becomes_expr h) fun e => ?_
  exact .pure rfl

theorem becomes_readJsonBody (h : Node.Recast P p .body node node') :
    Becomes (JsonBody.recast p) (readJsonBody node) (readJsonBody node') := by
  obtain ⟨json, ⟨hjson, hparts⟩, rfl, rfl⟩ := h
  cases json with
  | obj fields =>
      have hfields : ∀ x ∈ fields, x.2.Inside (Json.Follows P p) :=
        fun x hx => hparts _ (List.mem_map_of_mem hx)
      change Becomes _ _ (readJsonBody (Node.ofJson (.obj (recastJsonFields P _ fields))))
      rw [readJsonBody_obj, readJsonBody_obj, map_fst_recastJsonFields]
      rcases Form.ofKeys_body (fields.map Prod.fst) with hform | hform
      · rw [hform, if_pos rfl, if_pos rfl]
        exact (becomes_fields (.fields .expr) hfields fun key _ _ => becomes_readField key).mapTo
          fun pairs => by rw [JsonBody.recast, recastPairs_eq_map]
      · rw [hform, if_neg nofun, if_neg nofun]
        exact hjson.expr.mapTo fun _ => rfl
  | arr items =>
      exact (becomes_items hparts fun _ _ => becomes_expr).mapTo fun es => by
        rw [JsonBody.recast, recastExprs_eq_map]
  | _ => exact hjson.expr.mapTo fun _ => rfl

theorem readAggregate_eq (h : record.Recast P p (.options kind) record') (isArray : Bool) :
    readAggregate record' isArray = readAggregate record isArray := by
  simp only [readAggregate, h.json?_eq "aggregate" rfl]

/-- What is read after the query of a JSON value, which is there if a table is named. -/
theorem becomes_source {γ δ : Type} {S : γ → δ → Prop} (hP : P.Realizes p)
    (h : record.Recast P p (.options kind) record') {k : Option Query → Reading γ}
    {l : Option Query → Reading δ}
    (hk : ∀ source, Related S (k source) (l (source.map (Query.recast p)))) :
    Related S
      (match record.get? "table" with
        | some _ => (some <$> readQuery record) >>= k
        | none => pure none >>= k)
      (match record'.get? "table" with
        | some _ => (some <$> readQuery record') >>= l
        | none => pure none >>= l) := by
  rw [h.get?_eq "table" rfl]
  cases record.get? "table" with
  | none => exact hk none
  | some node =>
      have hquery : Becomes (Option.map (Query.recast p)) (some <$> readQuery record)
          (some <$> readQuery record') :=
        (becomes_readQuery hP h).mapTo fun _ => rfl
      exact hquery.bindTo hk

theorem becomes_readJson (hP : P.Realizes p) (isArray : Bool)
    (h : Node.Recast P p (.options (some (if isArray then .array else .json))) node node') :
    Becomes (Wrapper.recast p) (readJson isArray node) (readJson isArray node') := by
  have hform : Form.ofOption (some (if isArray then .array else .json)) "value" = .body := by
    cases isArray <;> rfl
  unfold readJson
  refine (h.record _ _ rfl fun _ => rfl).bind fun record record' h => ?_
  have hrequired := h.require "value" (by rw [Form.field, hform]; rfl)
  rw [Form.field, hform] at hrequired
  refine becomes_source hP h fun source => ?_
  refine hrequired.bind fun node node' hvalue => ?_
  refine .bindTo (becomes_readJsonBody hvalue) fun body => ?_
  refine .bindEq (h.string?_eq "extract" rfl) fun extract => ?_
  rw [readAggregate_eq h, h.given?_eq "contains" rfl]
  have hfinish := becomes_finish h (.json
    { isArray, aggregate := readAggregate record isArray, extract,
      contains := (record.given? "contains").map Node.json } body source)
  cases source <;> exact hfinish

theorem becomes_readWrapper (hP : P.Realizes p) (kind : WrapperKind)
    (h : Node.Recast P p (.options (some kind)) node node') :
    Becomes (Wrapper.recast p) (readWrapper kind node) (readWrapper kind node') := by
  cases kind with
  | string => exact becomes_readString hP h
  | number => exact becomes_readNumber hP h
  | date => exact becomes_readDate hP h
  | concat => exact becomes_readConcat hP h
  | choice => exact becomes_readChoice h
  | cases => exact becomes_readCases h
  | json => exact becomes_readJson hP false h
  | array => exact becomes_readJson hP true h
  | refer => exact becomes_readRefer hP h
  | aggregate kind => exact becomes_readAggregateOf hP kind h

/-! ## Conditions -/

theorem becomes_readConditions (owner : String) (h : Node.Recast P p .expr node node') :
    Becomes (recastGroups p) (readConditions owner node) (readConditions owner node') := by
  obtain ⟨json, ⟨-, hparts⟩, rfl, rfl⟩ := h
  cases json with
  | arr items =>
      exact (becomes_items hparts fun _ _ h => becomes_condition h owner).congr
        fun conditions => (recastGroups_eq_map conditions).symm
  | _ => exact .invalid _ _

theorem becomes_readBetween (h : Node.Recast P p (.fields .expr) node node') :
    Becomes (Entry.recast p) (readCombined .between node) (readCombined .between node') := by
  refine (h.record _ _ rfl fun _ => rfl).bind fun record record' h => ?_
  refine (h.require "gt" rfl).bind fun node node' hlow => ?_
  refine .bindTo (becomes_expr hlow) fun low => ?_
  refine (h.require "lt" rfl).bind fun node node' hhigh => ?_
  refine .bindTo (becomes_expr hhigh) fun high => ?_
  exact .pure rfl

/-- A query to test for rows reads as an expression if it refers to one, and else as its
options. -/
theorem becomes_readSubquery (hP : P.Realizes p) (h : Node.Recast P p .subquery node node') :
    Becomes (Expr.recast p) (readSubquery node) (readSubquery node') := by
  obtain ⟨json, hinside, rfl, rfl⟩ := h
  cases json with
  | obj fields =>
      have hform : Form.ofKeys (fields.map Prod.fst) .subquery
          = if (fields.map Prod.fst).contains "refer" then .expr else .options (some .refer) := rfl
      change Becomes _ (if (Json.foldFields Node.algebra fields).any _ then _ else _)
        (if (Json.foldFields Node.algebra (recastJsonFields P _ fields)).any _ then _ else _)
      rw [any_foldFields, any_foldFields, map_fst_recastJsonFields]
      cases hrefer : (fields.map Prod.fst).contains "refer" with
      | true =>
          obtain ⟨hjson, -⟩ := hinside
          have hexpr := hjson.expr
          rw [hrefer, if_pos rfl] at hform
          rw [if_pos rfl, if_pos rfl, Json.recast_obj rfl, hform]
          rwa [Json.recast_obj rfl] at hexpr
      | false =>
          have hrefers := becomes_readWrapper hP .refer (.of hinside (.options (some .refer)))
          rw [hrefer, if_neg nofun] at hform
          rw [if_neg nofun, if_neg nofun, Json.recast_obj rfl, hform]
          rw [Json.recast_obj rfl] at hrefers
          exact hrefers.mapTo fun _ => rfl
  | _ => exact fun _ => .error _

theorem becomes_readOperand (hP : P.Realizes p) (key : String) (comparator : Comparator)
    (hkey : Signature.ofKey? key = none) (hname : ofName? Comparator key = some comparator)
    (h : Node.Recast P p (.ofEntry key) node node') :
    Becomes (Expr.recast p) (readOperand comparator node) (readOperand comparator node') := by
  rw [Form.ofEntry, hkey] at h
  simp only [hname] at h
  cases comparator with
  | hasRows | hasNoRows => exact becomes_readSubquery hP h
  | _ => exact becomes_expr h

/-- An entry of a condition, by what its key stands for. -/
theorem becomes_readEntry (hP : P.Realizes p) (owner key : String)
    (h : Node.Recast P p (.ofEntry key) node node') :
    Becomes (Entry.recast p) (readEntry owner (key, node)) (readEntry owner (key, node')) := by
  unfold readEntry
  cases hkey : Signature.ofKey? key with
  | some signature =>
      simp only [Form.ofEntry, hkey] at h
      cases signature with
      | wrapper kind => exact (becomes_readWrapper hP kind h).mapTo fun _ => rfl
      | combinator c =>
          cases c with
          | between => exact becomes_readBetween h
          | all => exact (becomes_readConditions "and" h).mapTo fun _ => rfl
          | any => exact (becomes_readConditions "or" h).mapTo fun _ => rfl
  | none =>
      cases hname : ofName? Comparator key with
      | some comparator =>
          exact (becomes_readOperand hP key comparator hkey hname h).mapTo fun _ => rfl
      | none =>
          simp only [Form.ofEntry, hkey, hname] at h
          refine .bindEq rfl fun _ => ?_
          exact (becomes_expr h).mapTo fun _ => rfl

theorem becomes_readEntries (hP : P.Realizes p) (owner : String) {fields : List (String × Json)}
    (hfields : ∀ x ∈ fields, x.2.Inside (Json.Follows P p)) :
    Becomes (recastEntries p) ((Json.foldFields Node.algebra fields).mapM (readEntry owner))
      ((Json.foldFields Node.algebra (recastJsonFields P .expr fields)).mapM (readEntry owner)) :=
  (becomes_fields .expr hfields fun key _ _ => becomes_readEntry hP owner key).congr
    fun entries => (recastEntries_eq_map entries).symm

/-- The wrapper that an object consists of, if it is one. -/
theorem becomes_readOnlyWrapper (hP : P.Realizes p) {fields : List (String × Json)}
    (hfields : ∀ x ∈ fields, x.2.Inside (Json.Follows P p)) :
    Option.Rel (Becomes (Wrapper.recast p))
      (readOnlyWrapper? (Json.foldFields Node.algebra fields))
      (readOnlyWrapper? (Json.foldFields Node.algebra (recastJsonFields P .expr fields))) := by
  match fields with
  | [] => exact .none
  | [(key, json)] =>
      have hjson := hfields (key, json) List.mem_cons_self
      simp only [recastJsonFields, Json.foldFields, readOnlyWrapper?, signed?, Form.field]
      cases hkey : Signature.ofKey? key with
      | none => exact .none
      | some signature =>
          cases signature with
          | combinator c => exact .none
          | wrapper kind =>
              simp only [Form.ofEntry, hkey]
              exact .some (becomes_readWrapper hP kind (.of hjson _))
  | _ :: _ :: _ => exact .none

theorem becomes_readObject (hP : P.Realizes p) {fields : List (String × Json)}
    (hfields : ∀ x ∈ fields, x.2.Inside (Json.Follows P p)) :
    Becomes (Expr.recast p) (readObject (Json.foldFields Node.algebra fields))
      (readObject (Json.foldFields Node.algebra (recastJsonFields P .expr fields))) := by
  have hentries := becomes_readEntries hP "where" hfields
  have hwrapper := becomes_readOnlyWrapper hP hfields
  unfold readObject
  generalize readOnlyWrapper? (Json.foldFields Node.algebra fields) = wrapper,
    readOnlyWrapper? (Json.foldFields Node.algebra (recastJsonFields P .expr fields)) = wrapper'
    at hwrapper
  cases hwrapper with
  | none => exact hentries.mapTo fun _ => rfl
  | some h => exact h.mapTo fun _ => rfl

theorem becomes_readObjectItem (hP : P.Realizes p) {fields : List (String × Json)}
    (hfields : ∀ x ∈ fields, x.2.Inside (Json.Follows P p)) :
    Becomes (Expr.recast p) (readObjectItem (Json.foldFields Node.algebra fields))
      (readObjectItem (Json.foldFields Node.algebra (recastJsonFields P .expr fields))) := by
  have hhead : (Json.foldFields Node.algebra (recastJsonFields P .expr fields)).head?.map (·.1)
      = (Json.foldFields Node.algebra fields).head?.map (·.1) := by
    cases fields <;> rfl
  have hwrapper := becomes_readOnlyWrapper hP hfields
  unfold readObjectItem
  rw [hhead]
  generalize readOnlyWrapper? (Json.foldFields Node.algebra fields) = wrapper,
    readOnlyWrapper? (Json.foldFields Node.algebra (recastJsonFields P .expr fields)) = wrapper'
    at hwrapper
  cases hwrapper with
  | none => exact .throw _
  | some h => exact h.mapTo fun _ => rfl

/-- A value reads recast as its tree is recast if the values inside it do. -/
theorem Json.follows_of_parts (hP : P.Realizes p) (json : Json)
    (hparts : ∀ part ∈ json.parts, part.Inside (Json.Follows P p)) : json.Follows P p := by
  cases json with
  | arr items =>
      have hitems := becomes_items hparts fun _ _ => becomes_expr
      exact ⟨hitems.mapTo fun es => by rw [Expr.recast, recastExprs_eq_map],
        .invalid _ _, fun _ => .invalid _ _, .invalid _ _⟩
  | obj fields =>
      have hfields : ∀ x ∈ fields, x.2.Inside (Json.Follows P p) :=
        fun x hx => hparts _ (List.mem_map_of_mem hx)
      exact ⟨becomes_readObject hP hfields, becomes_readObjectItem hP hfields,
        fun owner => becomes_readEntries hP owner hfields, becomes_readJoin hP hfields⟩
  | _ => exact ⟨.pure rfl, .pure rfl, fun _ => .invalid _ _, .invalid _ _⟩

/-- **All values of a description read recast as their trees are recast.** -/
theorem Json.follows (hP : P.Realizes p) (json : Json) : json.Inside (Json.Follows P p) :=
  json.inside_of_step (Json.follows_of_parts hP)

/-! ## Statements -/

theorem becomes_readSelectStatement (hP : P.Realizes p) (json : Json) :
    Becomes (Query.recast p) (readSelectStatement json)
      (readSelectStatement (json.recast P (.options none))) := by
  have hnode := Node.Recast.of (json.follows hP) (.options none)
  refine (hnode.record _ _ rfl fun _ => rfl).bind fun record record' h => ?_
  exact becomes_readQuery hP h

theorem becomes_readRow (owner : String) (h : Node.Recast P p (.fields .expr) node node') :
    Becomes (recastPairs p) (readRow owner node) (readRow owner node') := by
  obtain ⟨json, ⟨-, hparts⟩, rfl, rfl⟩ := h
  cases json with
  | obj fields =>
      have hfields : ∀ x ∈ fields, x.2.Inside (Json.Follows P p) :=
        fun x hx => hparts _ (List.mem_map_of_mem hx)
      exact (becomes_fields (.fields .expr) hfields fun key _ _ => becomes_readPair owner key).congr
        fun pairs => (recastPairs_eq_map pairs).symm
  | _ => exact .invalid _ _

theorem becomes_readRows (h : Node.Recast P p (.fields .expr) node node') :
    Becomes (List.map (recastPairs p)) (readRows node) (readRows node') := by
  have hrow := becomes_readRow "save.data" h
  obtain ⟨json, ⟨-, hparts⟩, rfl, rfl⟩ := h
  cases json with
  | arr items =>
      cases items with
      | nil => exact .invalid _ _
      | cons item items => exact becomes_items hparts fun _ _ => becomes_readRow "save.data"
  | obj fields => exact .bindTo hrow fun row => .pure rfl
  | _ => exact .invalid _ _

theorem readEncrypt_eq (record : Record) :
    readEncrypt record = (record.given? "encrypt").elim (pure []) fun node =>
      readColumns (record.path "encrypt") node.json := by
  unfold readEncrypt Record.json? Record.get?
  cases record.given? "encrypt" with
  | none => rfl
  | some node =>
      obtain ⟨json, items, fields, expr, item, condition, join⟩ := node
      cases json <;> rfl

theorem becomes_readEncrypt (hP : P.Realizes p) (h : record.Recast P p (.options kind) record') :
    Becomes p.columnsOf (readEncrypt record) (readEncrypt record') := by
  have hgiven := h.given "encrypt"
  rw [readEncrypt_eq, readEncrypt_eq, h.path_eq]
  generalize record.given? "encrypt" = node, record'.given? "encrypt" = node' at hgiven
  cases hgiven with
  | none => exact .pure rfl
  | some hnode =>
      obtain ⟨json, -, rfl, rfl⟩ := hnode
      have hcolumns := hP.encrypt (record.path "encrypt") json
      rw [← Json.recast_encrypt] at hcolumns
      simp only [Option.elim_some, Node.json_ofJson]
      exact hcolumns

theorem becomes_readWrite (hP : P.Realizes p) (json : Json) :
    Becomes (Write.recast p) (readWrite json) (readWrite (json.recast P (.options none))) := by
  have hnode := Node.Recast.of (json.follows hP) (.options none)
  refine (hnode.record _ _ rfl fun _ => rfl).bind fun record record' h => ?_
  have hupsert := h.optional "upsert" rfl fun _ _ => becomes_readRow "save.upsert"
  refine (h.require "data" rfl).bind fun node node' hdata => ?_
  refine .bindTo (becomes_readRows hdata) fun rows => ?_
  refine .bindTo hupsert fun upsert => ?_
  refine .bindTo (becomes_readEncrypt hP h) fun encrypt => ?_
  refine .bindEq (h.string_eq "table" rfl) fun table => ?_
  refine .bindEq (h.string?_eq "alias" rfl) fun alias? => ?_
  refine .bindTo (h.condition? "where" rfl) fun filter => ?_
  refine .bindEq (readJunction_eq h) fun junction => ?_
  refine .bindEq (h.strings_eq "indexes" rfl) fun indexes => ?_
  refine .bindTo (h.settings? hP "encryption" rfl) fun encryption => ?_
  refine .pure ?_
  cases upsert <;> rfl

theorem becomes_readDelete (hP : P.Realizes p) (json : Json) :
    Becomes (Delete.recast p) (readDelete json) (readDelete (json.recast P (.options none))) := by
  have hnode := Node.Recast.of (json.follows hP) (.options none)
  refine (hnode.record _ _ rfl fun _ => rfl).bind fun record record' h => ?_
  refine .bindEq (h.string_eq "table" rfl) fun table => ?_
  refine .bindEq (h.string?_eq "alias" rfl) fun alias? => ?_
  refine .bindTo (h.condition? "where" rfl) fun filter => ?_
  refine .bindEq (readJunction_eq h) fun junction => ?_
  refine .bindTo (h.settings? hP "encryption" rfl) fun encryption => ?_
  exact .pure rfl

end QueryTree

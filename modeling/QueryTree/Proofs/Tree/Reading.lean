import QueryTree.Proofs.Interval.Grammar
import QueryTree.Proofs.Reading.Parts
import QueryTree.Proofs.Reading.Record
import QueryTree.Proofs.Reading.Sequence
import QueryTree.Proofs.Tree.Site

/-!
# Trees that are read are well formed

* `Reading.Delivers`: whatever a reading gives has a property, and where it gives nothing the
  statement is to blame; it has a rule for each way to put readings together.
* `Record.fair_named?`, `fair_readInterval` and their companions: options that nothing is asked of.
* `Node.Reliable`: all readings of a node, and of the nodes inside it, give well-formed trees.
* `sound_readWrapper`, `sound_readQuery` and their companions: one for each reader.
* `Node.reliable_ofJson`: every node is reliable.
* `sound_readSelectStatement`, `sound_readWrite`, `sound_readDelete`: statements.
-/

namespace QueryTree

variable {α β : Type} {P : α → Prop} {Q : β → Prop}

/-! ## What a reading delivers -/

namespace Reading

/-- Whatever a reading gives has a property. -/
def Ensures (P : α → Prop) (x : Reading α) : Prop :=
  ∀ s a s', x s = .ok (a, s') → P a

namespace Ensures

theorem pure {a : α} (h : P a) : Ensures P (Pure.pure a) := by
  intro s b s' hread
  cases pure_ok.1 hread
  exact h

theorem invalid (field : String) (fault : Fault) : Ensures P (Reading.invalid field fault) :=
  fun _ _ _ hread => absurd hread throw_ne_ok

theorem bind {x : Reading α} (hx : Ensures P x) {f : α → Reading β}
    (hf : ∀ a, P a → Ensures Q (f a)) : Ensures Q (x >>= f) := by
  intro s b s' hread
  obtain ⟨a, s₁, ha, hb⟩ := bind_ok.1 hread
  exact hf a (hx s a s₁ ha) s₁ b s' hb

/-- Nothing is asked of what is read first. -/
theorem skip {x : Reading α} {f : α → Reading β} (hf : ∀ a, Ensures Q (f a)) :
    Ensures Q (x >>= f) :=
  bind (P := fun _ => True) (fun _ _ _ _ => trivial) fun a _ => hf a

end Ensures

/-- The end of a reading: a value with a property, or an error that the statement is to blame
for. -/
inductive Settled (P : α → Prop) : Except CompileError (α × List Omission) → Prop
  | ok {a : α} (s : List Omission) : P a → Settled P (.ok (a, s))
  | error {e : CompileError} : e.isInternal = false → Settled P (.error e)

theorem Settled.imp {r : Except CompileError (α × List Omission)} {R : α → Prop}
    (h : Settled P r) (hR : ∀ a s, r = .ok (a, s) → P a → R a) : Settled R r := by
  cases h with
  | ok s ha => exact .ok s (hR _ s rfl ha)
  | error he => exact .error he

/-- Whatever a reading gives has a property, and where it gives nothing the statement is to
blame. -/
def Delivers (P : α → Prop) (x : Reading α) : Prop :=
  ∀ s, Settled P (x s)

/-- Where a reading gives nothing, the statement is to blame. -/
abbrev Fair (x : Reading α) : Prop :=
  Delivers (fun _ => True) x

namespace Delivers

theorem ensures {x : Reading α} (h : Delivers P x) : Ensures P x := by
  intro s a s' hread
  have hs := h s
  rw [hread] at hs
  cases hs with
  | ok _ ha => exact ha

theorem isInternal_eq_false {x : Reading α} (h : Delivers P x) {s : List Omission}
    {e : CompileError} (hread : x s = .error e) : e.isInternal = false := by
  have hs := h s
  rw [hread] at hs
  cases hs with
  | error he => exact he

theorem pure {a : α} (h : P a) : Delivers P (Pure.pure a) :=
  fun s => .ok s h

theorem throw {e : CompileError} (h : e.isInternal = false) :
    Delivers P (MonadExcept.throw e) :=
  fun _ => .error h

theorem invalid {field : String} {fault : Fault}
    (h : (CompileError.invalid field fault).isInternal = false) :
    Delivers P (Reading.invalid field fault) :=
  throw h

theorem leaveOut (owner key expected : String) {a : α} (h : P a) :
    Delivers P (Reading.leaveOut owner key expected a) :=
  fun _ => .ok _ h

theorem bind {x : Reading α} (hx : Delivers P x) {f : α → Reading β}
    (hf : ∀ a, P a → Delivers Q (f a)) : Delivers Q (x >>= f) := by
  intro s
  change Settled Q (x s >>= fun r => f r.1 r.2)
  have hs := hx s
  generalize x s = r at hs
  cases hs with
  | ok s ha => exact hf _ ha s
  | error he => exact .error he

/-- Nothing is asked of what is read first. -/
theorem skip {x : Reading α} (hx : Fair x) {f : α → Reading β} (hf : ∀ a, Delivers Q (f a)) :
    Delivers Q (x >>= f) :=
  hx.bind fun a _ => hf a

/-- Past an error that is raised under a condition, the condition fails. -/
theorem guarded {c : Prop} [Decidable c] {e : CompileError} {f : α → Reading β} {x : Reading β}
    (he : e.isInternal = false) (hx : ¬c → Delivers Q x) :
    Delivers Q (if c then MonadExcept.throw e >>= f else x) := by
  split
  · exact bind (P := fun _ => False) (throw he) nofun
  · next hc => exact hx hc

theorem map {x : Reading α} (hx : Delivers P x) {g : α → β} (hg : ∀ a, P a → Q (g a)) :
    Delivers Q (g <$> x) := by
  rw [← bind_pure_comp]
  exact hx.bind fun a ha => pure (hg a ha)

/-- What is given has another property too. -/
theorem and {x : Reading α} {R : α → Prop} (hx : Delivers P x) (hR : Ensures R x) :
    Delivers (fun a => P a ∧ R a) x :=
  fun s => (hx s).imp fun a s' hread ha => ⟨ha, hR s a s' hread⟩

theorem mono {x : Reading α} {R : α → Prop} (hx : Delivers P x) (h : ∀ a, P a → R a) :
    Delivers R x :=
  fun s => (hx s).imp fun a _ _ => h a

/-- Each value of a list, and as many as there are to read. -/
theorem mapM {xs : List α} {f : α → Reading β} (hf : ∀ x ∈ xs, Delivers Q (f x)) :
    Delivers (fun ys => ys.length = xs.length ∧ ∀ y ∈ ys, Q y) (xs.mapM f) := by
  induction xs with
  | nil => exact pure ⟨rfl, nofun⟩
  | cons x xs ih =>
      rw [List.mapM_cons]
      refine (hf x List.mem_cons_self).bind fun y hy => ?_
      refine (ih fun z hz => hf z (List.mem_cons_of_mem x hz)).bind fun ys hys => ?_
      refine pure ⟨by rw [List.length_cons, List.length_cons, hys.1], ?_⟩
      simpa using ⟨hy, hys.2⟩

/-- Each value of a list. -/
theorem each {xs : List α} {f : α → Reading β} {R : List β → Prop}
    (hf : ∀ x ∈ xs, Delivers Q (f x)) (hR : ∀ ys, (∀ y ∈ ys, Q y) → R ys) :
    Delivers R (xs.mapM f) :=
  (mapM hf).mono fun ys hys => hR ys hys.2

end Delivers

end Reading

open Reading (Delivers Ensures Fair)

/-! ## Options -/

section Options

theorem Reading.fair_decoded (field : String) (result : Except DecodeError α) :
    Fair (Reading.decoded field result) := by
  cases result with
  | ok a => exact .pure trivial
  | error e => exact .invalid rfl

namespace Record

variable (record : Record) (key : String)

theorem fair_optional {read : Node → Reading α} (h : ∀ node, Fair (read node)) :
    Fair (record.optional key read) := by
  unfold Record.optional
  split
  · exact (h _).map fun _ _ => trivial
  · exact .pure trivial

theorem fair_string? : Fair (record.string? key) := by
  refine record.fair_optional key fun node => ?_
  split
  · exact .pure trivial
  · exact .invalid rfl

theorem fair_string : Fair (record.string key) := by
  unfold Record.string
  refine .skip (record.fair_string? key) fun given => ?_
  cases given with
  | some s => exact .pure trivial
  | none => exact .throw rfl

theorem fair_strings : Fair (record.strings key) := by
  unfold Record.strings
  split
  · refine .each (Q := fun _ => True) (fun json _ => ?_) fun _ _ => trivial
    split
    · exact .pure trivial
    · exact .invalid rfl
  · exact .pure trivial
  · exact .invalid rfl
  · exact .pure trivial

theorem fair_flag : Fair (record.flag key) := by
  unfold Record.flag
  split
  · exact .pure trivial
  · exact .invalid rfl
  · exact .pure trivial

theorem fair_count? : Fair (record.count? key) := by
  unfold Record.count?
  split
  · split
    · exact .pure trivial
    · exact .invalid rfl
  · split
    · split
      · exact .pure trivial
      · exact .invalid rfl
    · exact .invalid rfl
  · exact .invalid rfl
  · exact .pure trivial

theorem fair_named? (α : Type) [Named α] : Fair (record.named? α key) :=
  record.fair_optional key fun _ => Reading.fair_decoded _ _

theorem fair_settings? : Fair (record.settings? key) :=
  record.fair_optional key fun _ => Reading.fair_decoded _ _

end Record

variable (record : Record)

theorem fair_readOrderBy : Fair (readOrderBy record) := by
  unfold readOrderBy
  split
  · refine .each (Q := fun _ => True) (fun field _ => ?_) fun _ _ => trivial
    exact .skip (Reading.fair_decoded _ _) fun _ => .pure trivial
  · exact .leaveOut _ _ _ trivial
  · exact .pure trivial

theorem fair_readJunction : Fair (readJunction record) :=
  .skip (record.fair_named? _ _) fun _ => .pure trivial

theorem fair_readDecrypt : Fair (readDecrypt record) := by
  unfold readDecrypt
  split
  · exact .pure trivial
  · exact .pure trivial
  · exact .pure trivial
  · exact (Reading.fair_decoded _ _).map fun _ _ => trivial

theorem fair_readRounding : Fair (readRounding record) := by
  unfold readRounding
  split
  · split
    · exact .pure trivial
    · exact .invalid rfl
  · split
    · exact .pure trivial
    · exact .invalid rfl
  · exact .invalid rfl
  · exact .pure trivial

/-- A text that is no interval is refused as such, never for a letter that has no unit. -/
theorem Interval.isInternal_of_ofJson {field : String} {json : Json} {e : CompileError}
    (h : ofJson field json = .error e) : e.isInternal = false := by
  unfold ofJson at h
  split at h
  · split at h
    · cases h
    · cases h
      rfl
  · next text =>
      split at h
      · cases h
      · obtain ⟨steps, -, -, heq⟩ | ⟨-, heq⟩ := steps_eq_or field text
        · rw [heq] at h
          cases h
        · rw [heq] at h
          cases h
          rfl
  · cases h
    rfl

/-- **No unit of an interval is unknown once the text is an interval**, so that the statement is to
blame. -/
theorem fair_readInterval (key : String) : Fair (readInterval record key) := by
  unfold readInterval
  split
  · split
    · exact .pure trivial
    · next e he => exact .throw (Interval.isInternal_of_ofJson he)
  · exact .pure trivial

/-- Patterns are texts here; what they stand for is looked up later. -/
theorem fair_readDateChange : Fair (readDateChange record) := by
  unfold readDateChange
  refine .skip (record.fair_string? _) fun fromPattern => ?_
  refine .skip (fair_readInterval record _) fun add => ?_
  refine .skip (fair_readInterval record _) fun sub => ?_
  exact .skip (record.fair_string? _) fun format => .pure trivial

theorem fair_readEncrypt : Fair (readEncrypt record) := by
  unfold readEncrypt
  split
  · refine .each (Q := fun _ => True) (fun field _ => ?_) fun _ _ => trivial
    exact .skip (Reading.fair_decoded _ _) fun _ => .pure trivial
  · exact .invalid rfl
  · exact .pure trivial

end Options

/-! ## Nodes and records -/

/-- All readings of a node, and of the nodes inside it, give well-formed trees. -/
inductive Node.Reliable : Node → Prop
  | intro {node : Node}
    (items : ∀ item ∈ node.items, Reliable item)
    (fields : ∀ field ∈ node.fields, Reliable field.2)
    (length : ∀ json, node.json = .arr json → node.items.length = json.length)
    (expr : Delivers (fun e => Sound e.sites) node.expr)
    (item : Delivers (fun e => Sound e.sites) node.item)
    (condition : ∀ owner, Delivers (fun c => Sound (entrySites c)) (node.condition owner))
    (join : Delivers (fun j => Sound j.sites) node.join) : Reliable node

namespace Node.Reliable

variable {node : Node}

theorem items (h : node.Reliable) : ∀ item ∈ node.items, item.Reliable := by
  cases h
  assumption

theorem fields (h : node.Reliable) : ∀ field ∈ node.fields, field.2.Reliable := by
  cases h
  assumption

theorem length (h : node.Reliable) {json : List Json} (hjson : node.json = .arr json) :
    node.items.length = json.length := by
  cases h with
  | intro _ _ length => exact length json hjson

theorem expr (h : node.Reliable) : Delivers (fun e => Sound e.sites) node.expr := by
  cases h
  assumption

theorem item (h : node.Reliable) : Delivers (fun e => Sound e.sites) node.item := by
  cases h
  assumption

theorem condition (h : node.Reliable) (owner : String) :
    Delivers (fun c => Sound (entrySites c)) (node.condition owner) := by
  cases h with
  | intro _ _ _ _ _ condition => exact condition owner

theorem join (h : node.Reliable) : Delivers (fun j => Sound j.sites) node.join := by
  cases h
  assumption

end Node.Reliable

/-- The nodes of the fields of a record are reliable. -/
def Record.Reliable (record : Record) : Prop :=
  ∀ field ∈ record.fields, field.2.Reliable

section Record

variable {record : Record} {node : Node} {key : String}

theorem reliable_ofFields {owner : String} {known : List String} {fields : List (String × Node)}
    (h : ∀ field ∈ fields, field.2.Reliable) :
    Delivers Record.Reliable (Record.ofFields owner known fields) := by
  unfold Record.ofFields
  split
  · exact .throw rfl
  · exact .pure h

theorem reliable_ofNode {owner : String} {known : List String} (h : node.Reliable) :
    Delivers Record.Reliable (Record.ofNode owner known node) := by
  unfold Record.ofNode
  split
  · exact reliable_ofFields h.fields
  · exact .invalid rfl

namespace Record.Reliable

/-- What a record holds under a key can be relied on. -/
theorem of_given? (h : record.Reliable) (hkey : record.given? key = some node) : node.Reliable := by
  obtain ⟨before, after, hfields, -⟩ := List.lookup_eq_some_iff.1 hkey
  refine h (key, node) ?_
  rw [hfields]
  simp

theorem of_get? (h : record.Reliable) (hkey : record.get? key = some node) : node.Reliable := by
  unfold Record.get? at hkey
  split at hkey
  · next given hgiven =>
      split at hkey
      · cases hkey
      · cases hkey
        exact h.of_given? hgiven
  · cases hkey

theorem require (h : record.Reliable) (key : String) :
    Delivers Node.Reliable (record.require key) := by
  unfold Record.require
  split
  · next node hnode => exact .pure (h.of_get? hnode)
  · exact .throw rfl

theorem requireGiven (h : record.Reliable) (key : String) :
    Delivers Node.Reliable (record.requireGiven key) := by
  unfold Record.requireGiven
  split
  · next node hnode => exact .pure (h.of_given? hnode)
  · exact .throw rfl

theorem expr? (h : record.Reliable) (key : String) :
    Delivers (fun e => Sound (exprSites? e)) (record.expr? key) := by
  unfold Record.expr? Record.optional
  split
  · next node hnode => exact (h.of_get? hnode).expr.map fun e he => he
  · exact .pure sound_nil

theorem givenExpr? (h : record.Reliable) (key : String) :
    Delivers (fun e => Sound (exprSites? e)) (record.givenExpr? key) := by
  unfold Record.givenExpr?
  split
  · next node hnode => exact (h.of_given? hnode).expr.map fun e he => he
  · exact .pure sound_nil

theorem condition? (h : record.Reliable) (key : String) :
    Delivers (fun c => Sound (filterSites c)) (record.condition? key) := by
  unfold Record.condition? Record.optional
  split
  · next node hnode => exact ((h.of_get? hnode).condition _).map fun c hc => hc
  · exact .pure sound_nil

end Record.Reliable

/-! ## Queries and joins -/

/-- A name that is checked is a path. -/
theorem delivers_checkColumn (key position : String) :
    Delivers (fun _ => IsPath key) (checkColumn key position) := by
  unfold checkColumn
  split
  · next h => exact .pure (isPath_of_isColumn h)
  · exact .throw rfl

theorem sound_readSelect (h : record.Reliable) :
    Delivers (fun es => Sound (exprSites es)) (readSelect record) := by
  unfold readSelect
  split
  · next node hnode =>
      split
      · exact .each (fun item hitem => ((h.of_get? hnode).items item hitem).item)
          fun es => sound_exprSites.2
      · exact .leaveOut _ _ _ sound_nil
  · exact .pure sound_nil

/-- Joins are read one by one, in their order. -/
theorem sound_readJoins (h : record.Reliable) :
    Delivers (fun joins => Sound (joinSites joins)) (readJoins record) := by
  unfold readJoins
  split
  · next node hnode =>
      split
      · exact .each (fun item hitem => ((h.of_get? hnode).items item hitem).join)
          fun joins => sound_joinSites.2
      · exact .invalid rfl
  · exact .pure sound_nil

theorem sound_readGroupBy (h : record.Reliable) :
    Delivers (fun es => Sound (exprSites es)) (readGroupBy record) := by
  unfold readGroupBy
  split
  · next node hnode =>
      split
      · exact .each (fun item hitem => ((h.of_get? hnode).items item hitem).expr)
          fun es => sound_exprSites.2
      · exact .pure (by simp [exprSites, Expr.sites])
      · exact .leaveOut _ _ _ sound_nil
  · exact .pure sound_nil

/-- **A query that is read is well formed at every depth.** -/
theorem sound_readQuery (h : record.Reliable) :
    Delivers (fun query => Sound query.sites) (readQuery record) := by
  unfold readQuery
  refine .skip (record.fair_string _) fun table => ?_
  refine (sound_readSelect h).bind fun select hselect => ?_
  refine (sound_readJoins h).bind fun joins hjoins => ?_
  refine (sound_readGroupBy h).bind fun groupBy hgroupBy => ?_
  refine .skip (fair_readOrderBy record) fun orderBy => ?_
  refine .skip (record.fair_string? _) fun alias? => ?_
  refine (h.condition? "where").bind fun filter hfilter => ?_
  refine .skip (fair_readJunction record) fun junction => ?_
  refine (h.condition? "having").bind fun having hhaving => ?_
  refine .skip (record.fair_count? _) fun limit => ?_
  refine .skip (record.fair_count? _) fun offset => ?_
  refine .skip (record.fair_settings? _) fun encryption => ?_
  exact .pure (by simp [Query.sites, hselect, hjoins, hgroupBy, hfilter, hhaving])

theorem sound_readPair (position : String) {field : String × Node} (h : field.2.Reliable) :
    Delivers (fun pair => IsPath pair.1 ∧ Sound pair.2.sites) (readPair position field) := by
  unfold readPair
  refine (delivers_checkColumn field.1 position).bind fun _ hkey => ?_
  exact h.expr.bind fun e he => .pure ⟨hkey, he⟩

/-- The columns of pairs are checked, and what they are paired with is read. -/
theorem sound_readPairs (position : String) (h : node.Reliable) :
    Delivers (fun pairs => Sound (pairSites pairs)) (node.fields.mapM (readPair position)) :=
  .each (fun field hfield => sound_readPair position (h.fields field hfield))
    fun _ => sound_pairSites.2

theorem delivers_readSharedColumn (json : Json) :
    Delivers (fun name => IsPath name) (readSharedColumn json) := by
  unfold readSharedColumn
  split
  · exact (delivers_checkColumn _ _).bind fun _ hname => .pure hname
  · exact .invalid rfl

/-- The columns by which rows are matched are checked. -/
theorem sound_readMatching (h : record.Reliable) :
    Delivers (fun matching => Sound matching.sites) (readMatching record) := by
  unfold readMatching
  split
  · next node hnode =>
      split
      · refine Delivers.map (.each (fun json _ => delivers_readSharedColumn json) fun _ h => h)
          fun columns hcolumns => ?_
        rw [Matching.sites]
        intro site hsite
        obtain ⟨column, hcolumn, rfl⟩ := List.mem_map.1 hsite
        exact hcolumns column hcolumn
      · exact (sound_readPairs "join.using" (h.of_get? hnode)).map fun pairs hpairs => hpairs
      · exact .leaveOut _ _ _ sound_nil
  · exact .pure sound_nil

/-- **A join that is read is matched, and a query in it has an alias.** -/
theorem sound_readJoin {fields : List (String × Node)} (h : ∀ field ∈ fields, field.2.Reliable) :
    Delivers (fun join => Sound join.sites) (readJoin fields) := by
  unfold readJoin
  refine (reliable_ofFields h).bind fun record hrecord => ?_
  refine (sound_readQuery hrecord).bind fun query hquery => ?_
  refine .skip (record.fair_named? _ _) fun kind => ?_
  refine (sound_readMatching hrecord).bind fun matching hmatching => ?_
  refine .guarded rfl fun hmatched => ?_
  refine .guarded rfl fun hnamed => ?_
  refine .pure ?_
  have hwf : Join.WellFormed ⟨kind.getD default, matching, query⟩ := by
    constructor
    · intro hkind
      simpa [hkind] using hmatched
    · simpa [Option.isSome_iff_ne_none] using hnamed
  simpa [Join.sites, Site.WellFormed, hquery, hmatching] using hwf

/-! ## Steps -/

theorem sound_readSubstr (h : record.Reliable) :
    Delivers (fun steps => Sound (stringSites steps)) (readSubstr record) := by
  unfold readSubstr
  split
  · next node hnode =>
      refine (reliable_ofNode (h.of_get? hnode)).bind fun options hoptions => ?_
      refine (hoptions.require "start").bind fun first hfirst => ?_
      refine hfirst.expr.bind fun start hstart => ?_
      refine (hoptions.expr? "length").bind fun length hlength => ?_
      exact .pure (by simp [stringSites, StringStep.sites, hstart, hlength])
  · exact .pure sound_nil

theorem sound_readPad {padding : Record} (h : padding.Reliable) (side : String) :
    Delivers (fun pad => Sound (padSites pad)) (readPad padding side) := by
  unfold readPad
  split
  · next node hnode =>
      refine (reliable_ofNode (h.of_get? hnode)).bind fun options hoptions => ?_
      refine (hoptions.require "length").bind fun size hsize => ?_
      refine hsize.expr.bind fun length hlength => ?_
      refine (hoptions.expr? "pattern").bind fun pattern hpattern => ?_
      exact .pure (by simp [padSites, hlength, hpattern])
  · exact .pure sound_nil

theorem sound_readPadding (h : record.Reliable) :
    Delivers (fun steps => Sound (stringSites steps)) (readPadding record) := by
  unfold readPadding
  split
  · next node hnode =>
      refine (reliable_ofNode (h.of_get? hnode)).bind fun padding hpadding => ?_
      refine (sound_readPad hpadding "left").bind fun left hleft => ?_
      refine (sound_readPad hpadding "right").bind fun right hright => ?_
      exact .pure (by simp [stringSites, StringStep.sites, hleft, hright])
  · exact .pure sound_nil

theorem sound_readReplace (h : record.Reliable) :
    Delivers (fun steps => Sound (stringSites steps)) (readReplace record) := by
  unfold readReplace
  split
  · next node hnode =>
      refine (reliable_ofNode (h.of_get? hnode)).bind fun options hoptions => ?_
      refine (hoptions.require "target").bind fun old hold => ?_
      refine hold.expr.bind fun target htarget => ?_
      refine (hoptions.requireGiven "replaceWith").bind fun new hnew => ?_
      refine hnew.expr.bind fun replacement hreplacement => ?_
      exact .pure (by simp [stringSites, StringStep.sites, htarget, hreplacement])
  · exact .pure sound_nil

theorem sound_readTrim (record : Record) :
    Delivers (fun steps => Sound (stringSites steps)) (readTrim record) := by
  have htrim (side : Side) : Sound (stringSites [.trim side]) := by
    simp [stringSites, StringStep.sites]
  unfold readTrim
  split
  · exact .pure (htrim _)
  · split
    · exact .pure (htrim _)
    · exact .invalid rfl
  · exact .pure sound_nil
  · exact .pure sound_nil
  · exact .invalid rfl

/-- The steps of a text, each with its own parts. -/
theorem sound_readStringSteps (h : record.Reliable) :
    Delivers (fun steps => Sound (stringSites steps)) (readStringSteps record) := by
  unfold readStringSteps
  refine (sound_readTrim record).bind fun trim htrim => ?_
  refine (sound_readSubstr h).bind fun substr hsubstr => ?_
  refine (sound_readPadding h).bind fun padding hpadding => ?_
  refine (sound_readReplace h).bind fun replace hreplace => ?_
  refine .skip (record.fair_named? _ _) fun textCase => ?_
  refine .skip (record.fair_flag _) fun reverse => ?_
  refine .skip (record.fair_named? _ _) fun encoding => ?_
  refine .pure ?_
  have hcase : Sound (stringSites (textCase.toList.map .textCase)) := by
    cases textCase <;> simp [stringSites, StringStep.sites]
  have hreverse : Sound (stringSites (if reverse then [.reverse] else [])) := by
    cases reverse <;> simp [stringSites, StringStep.sites]
  have hencoding : Sound (stringSites (encoding.toList.map .encoding)) := by
    cases encoding <;> simp [stringSites, StringStep.sites]
  simp only [stringSites_append, sound_append]
  exact ⟨⟨⟨⟨⟨⟨htrim, hsubstr⟩, hpadding⟩, hcase⟩, hreverse⟩, hreplace⟩, hencoding⟩

theorem sound_readNumberSteps (h : record.Reliable) :
    Delivers (fun steps => Sound (numberSites steps)) (readNumberSteps record) := by
  unfold readNumberSteps
  refine (h.expr? "power").bind fun power hpower => ?_
  refine (h.expr? "divideBy").bind fun divide hdivide => ?_
  refine (h.expr? "mod").bind fun modulo hmodulo => ?_
  refine (h.expr? "multiplyBy").bind fun multiply hmultiply => ?_
  refine (h.expr? "add").bind fun add hadd => ?_
  refine (h.expr? "sub").bind fun subtract hsubtract => ?_
  refine .skip (fair_readRounding record) fun rounding => ?_
  refine .pure ?_
  have hpowers : Sound (numberSites (power.toList.map .power)) := by
    cases power with
    | none => exact sound_nil
    | some e => simpa [exprSites?, numberSites, NumberStep.sites] using hpower
  have hstep (operation : Arithmetic) {operand : Option Expr}
      (hoperand : Sound (exprSites? operand)) :
      Sound (numberSites (operand.toList.map (.arithmetic operation))) := by
    cases operand with
    | none => exact sound_nil
    | some e => simpa [exprSites?, numberSites, NumberStep.sites] using hoperand
  have hrounding : Sound (numberSites (rounding.toList.map .rounding)) := by
    cases rounding <;> simp [numberSites, NumberStep.sites]
  simp only [numberSites_append, sound_append]
  exact ⟨⟨⟨⟨⟨⟨hpowers, hstep _ hdivide⟩, hstep _ hmodulo⟩, hstep _ hmultiply⟩, hstep _ hadd⟩,
    hstep _ hsubtract⟩, hrounding⟩

/-! ## Wrappers -/

/-- The parts of a prepared value. -/
theorem sound_readPrepared (h : record.Reliable) :
    Delivers (fun prepared => Sound prepared.value.sites ∧ Sound (filterSites prepared.compare))
      (readPrepared record) := by
  unfold readPrepared
  refine .skip (fair_readDecrypt record) fun decrypt => ?_
  refine (h.requireGiven "value").bind fun node hnode => ?_
  refine hnode.expr.bind fun value hvalue => ?_
  refine .skip (record.fair_settings? _) fun encryption => ?_
  refine .skip (record.fair_named? _ _) fun cast => ?_
  refine (h.condition? "compare").bind fun compare hcompare => ?_
  refine .skip (record.fair_string? _) fun alias? => ?_
  exact .pure ⟨hvalue, hcompare⟩

/-- A wrapper is sound if its shape and its parts are. -/
theorem sound_wrapper {core : Core} {compare : Option Condition} {alias? : Option String}
    (hcore : core.WellFormed) (hsites : Sound core.sites) (hcompare : Sound (filterSites compare)) :
    Sound (Wrapper.sites ⟨core, compare, alias?⟩) := by
  rw [Wrapper.sites, sound_cons, sound_append]
  exact ⟨hcore, hsites, hcompare⟩

/-- The comparisons of a wrapper are read after its core. -/
theorem sound_finish (h : record.Reliable) {core : Core} (hcore : core.WellFormed)
    (hsites : Sound core.sites) : Delivers (fun w => Sound w.sites) (finish record core) := by
  unfold finish
  refine (h.condition? "compare").bind fun compare hcompare => ?_
  refine .skip (record.fair_string? _) fun alias? => ?_
  exact .pure (sound_wrapper hcore hsites hcompare)

/-- Wrappers other than combinators and those with lists are well formed as such. -/
theorem Core.wellFormed_of_kind {core : Core} (hconcat : core.kind ≠ .wrapper .concat)
    (hcases : core.kind ≠ .wrapper .cases) (hvalue : ∀ c, core.kind ≠ .combinator c) :
    core.WellFormed := by
  refine ⟨?_, ?_, hvalue⟩
  · rintro values separator cast encryption steps rfl
    exact absurd rfl hconcat
  · rintro branches otherwise rfl
    exact absurd rfl hcases

theorem Core.wellFormed_concat {values : List Expr} (h : values ≠ []) (separator : Option String)
    (cast : Option CastType) (encryption : Option Cipher.Settings) (steps : List StringStep) :
    (Core.concat values separator cast encryption steps).WellFormed := by
  refine ⟨?_, ?_, nofun⟩
  · rintro _ _ _ _ _ ⟨⟩
    exact h
  · rintro _ _ ⟨⟩

theorem Core.wellFormed_cases {branches : List (Condition × Expr)} (h : branches ≠ [])
    (otherwise : Option Expr) : (Core.cases branches otherwise).WellFormed := by
  refine ⟨?_, ?_, nofun⟩
  · rintro _ _ _ _ _ ⟨⟩
  · rintro _ _ ⟨⟩
    exact h

theorem sound_readString (h : node.Reliable) :
    Delivers (fun w => Sound w.sites) (readString node) := by
  unfold readString
  refine (reliable_ofNode h).bind fun record hrecord => ?_
  refine (sound_readPrepared hrecord).bind fun prepared hprepared => ?_
  refine (sound_readStringSteps hrecord).bind fun steps hsteps => ?_
  refine .pure (sound_wrapper (Core.wellFormed_of_kind nofun nofun nofun) ?_ hprepared.2)
  simpa [Core.sites] using ⟨hprepared.1, hsteps⟩

theorem sound_readNumber (h : node.Reliable) :
    Delivers (fun w => Sound w.sites) (readNumber node) := by
  unfold readNumber
  refine (reliable_ofNode h).bind fun record hrecord => ?_
  refine (sound_readNumberSteps hrecord).bind fun steps hsteps => ?_
  refine (sound_readPrepared hrecord).bind fun prepared hprepared => ?_
  refine .pure (sound_wrapper (Core.wellFormed_of_kind nofun nofun nofun) ?_ hprepared.2)
  simpa [Core.sites] using ⟨hprepared.1, hsteps⟩

theorem sound_readDate (h : node.Reliable) :
    Delivers (fun w => Sound w.sites) (readDate node) := by
  unfold readDate
  refine (reliable_ofNode h).bind fun record hrecord => ?_
  refine (sound_readPrepared hrecord).bind fun prepared hprepared => ?_
  refine .skip (fair_readDateChange record) fun change => ?_
  refine .pure (sound_wrapper (Core.wellFormed_of_kind nofun nofun nofun) ?_ hprepared.2)
  simpa [Core.sites] using hprepared.1

/-- A list that has to have an item has one. -/
theorem delivers_readNonEmpty {list : Node} (h : list.Reliable) {read : Node → Reading α}
    (hread : ∀ item, item.Reliable → Delivers P (read item)) (field : String) (shape : Shape) :
    Delivers (fun values => values ≠ [] ∧ ∀ value ∈ values, P value)
      (readNonEmpty read field shape list) := by
  unfold readNonEmpty
  split
  · next first rest hjson =>
      refine (Delivers.mapM fun item hitem => hread item (h.items item hitem)).mono ?_
      rintro values ⟨hlength, hall⟩
      refine ⟨?_, hall⟩
      rintro rfl
      simp [h.length hjson] at hlength
  · exact .invalid rfl

/-- There is a text to put together. -/
theorem sound_readConcat (h : node.Reliable) :
    Delivers (fun w => Sound w.sites) (readConcat node) := by
  rw [readConcat_eq]
  refine (reliable_ofNode h).bind fun record hrecord => ?_
  refine (hrecord.require "value").bind fun list hlist => ?_
  refine (delivers_readNonEmpty hlist (fun _ h => h.expr) _ _).bind fun values hvalues => ?_
  refine .skip (record.fair_string? _) fun separator => ?_
  refine .skip (record.fair_named? _ _) fun cast => ?_
  refine .skip (record.fair_settings? _) fun encryption => ?_
  refine (sound_readStringSteps hrecord).bind fun steps hsteps => ?_
  refine sound_finish hrecord (Core.wellFormed_concat hvalues.1 ..) ?_
  simpa [Core.sites, sound_exprSites] using ⟨hvalues.2, hsteps⟩

theorem sound_readChoice (h : node.Reliable) :
    Delivers (fun w => Sound w.sites) (readChoice node) := by
  unfold readChoice
  refine (reliable_ofNode h).bind fun record hrecord => ?_
  refine (hrecord.require "check").bind fun test htest => ?_
  refine (htest.condition _).bind fun check hcheck => ?_
  refine (hrecord.requireGiven "trueValue").bind fun one hone => ?_
  refine hone.expr.bind fun yes hyes => ?_
  refine (hrecord.requireGiven "falseValue").bind fun other hother => ?_
  refine hother.expr.bind fun no hno => ?_
  refine sound_finish hrecord (Core.wellFormed_of_kind nofun nofun nofun) ?_
  simpa [Core.sites] using ⟨hcheck, hyes, hno⟩

theorem sound_readBranch (h : node.Reliable) :
    Delivers (fun branch => Sound (entrySites branch.1) ∧ Sound branch.2.sites)
      (readBranch node) := by
  unfold readBranch
  refine (reliable_ofNode h).bind fun record hrecord => ?_
  refine (hrecord.require "when").bind fun test htest => ?_
  refine (htest.condition _).bind fun check hcheck => ?_
  refine (hrecord.requireGiven "then").bind fun outcome houtcome => ?_
  refine houtcome.expr.bind fun result hresult => ?_
  exact .pure ⟨hcheck, hresult⟩

/-- There is a branch. -/
theorem sound_readCases (h : node.Reliable) :
    Delivers (fun w => Sound w.sites) (readCases node) := by
  rw [readCases_eq]
  refine (reliable_ofNode h).bind fun record hrecord => ?_
  refine (hrecord.require "check").bind fun list hlist => ?_
  refine (delivers_readNonEmpty hlist (fun _ => sound_readBranch) _ _).bind
    fun branches hbranches => ?_
  refine (hrecord.givenExpr? "else").bind fun otherwise hotherwise => ?_
  refine sound_finish hrecord (Core.wellFormed_cases hbranches.1 _) ?_
  rw [Core.sites, sound_append]
  exact ⟨sound_branchSites.2 hbranches.2, hotherwise⟩

theorem sound_readField {field : String × Node} (h : field.2.Reliable) :
    Delivers (fun pair => Sound pair.2.sites) (readField field) := by
  unfold readField
  exact h.expr.bind fun e he => .pure he

theorem sound_readJsonBody (h : node.Reliable) :
    Delivers (fun body => Sound body.sites) (readJsonBody node) := by
  have hsingle : Delivers (fun body => Sound body.sites) (JsonBody.single <$> node.expr) :=
    h.expr.map fun e he => he
  unfold readJsonBody
  split
  · split
    · refine Delivers.map (.each (fun field hfield => sound_readField (h.fields field hfield))
        fun _ => sound_fieldSites.2) fun fields hfields => hfields
    · exact hsingle
  · refine Delivers.map (.each (fun item hitem => (h.items item hitem).expr)
      fun _ => sound_exprSites.2) fun items hitems => hitems
  · exact hsingle

theorem sound_readSource (h : record.Reliable) :
    Delivers (fun source => ∀ query ∈ source, Sound query.sites) (readSource record) := by
  unfold readSource
  split
  · exact (sound_readQuery h).map fun query hquery => by simpa using hquery
  · exact .pure nofun

theorem sound_readJson (isArray : Bool) (h : node.Reliable) :
    Delivers (fun w => Sound w.sites) (readJson isArray node) := by
  rw [readJson_eq]
  refine (reliable_ofNode h).bind fun record hrecord => ?_
  refine (sound_readSource hrecord).bind fun source hsource => ?_
  refine (hrecord.require "value").bind fun value hvalue => ?_
  refine (sound_readJsonBody hvalue).bind fun body hbody => ?_
  refine .skip (record.fair_string? _) fun extract => ?_
  refine sound_finish hrecord (Core.wellFormed_of_kind ?_ ?_ ?_) ?_
  · cases isArray <;> nofun
  · cases isArray <;> nofun
  · cases isArray <;> nofun
  · cases source with
    | none => exact hbody
    | some query =>
        rw [Core.sites, sound_append]
        exact ⟨hsource query rfl, hbody⟩

/-- A query used as a value is read as such. -/
theorem sound_readRefer (h : node.Reliable) :
    Delivers (fun w => Sound w.sites ∧ (Expr.wrapper w).isQueryOrCondition = true)
      (readRefer node) := by
  unfold readRefer
  refine (reliable_ofNode h).bind fun record hrecord => ?_
  refine (sound_readQuery hrecord).bind fun query hquery => ?_
  refine .skip (record.fair_string? _) fun alias? => ?_
  refine .pure ⟨sound_wrapper (Core.wellFormed_of_kind nofun nofun nofun) ?_ sound_nil, rfl⟩
  simpa [Core.sites] using hquery

theorem sound_readAggregateOf (kind : AggregateKind) (h : node.Reliable) :
    Delivers (fun w => Sound w.sites) (readAggregateOf kind node) := by
  rw [readAggregateOf_eq]
  refine (reliable_ofNode h).bind fun record hrecord => ?_
  refine (hrecord.require "value").bind fun argument hargument => ?_
  refine hargument.expr.bind fun value hvalue => ?_
  refine .skip (record.fair_flag _) fun distinct => ?_
  refine (hrecord.givenExpr? "ifNull").bind fun ifNull hifNull => ?_
  refine .skip (record.fair_named? _ _) fun cast => ?_
  refine .skip (record.fair_settings? _) fun encryption => ?_
  refine sound_finish hrecord (Core.wellFormed_of_kind nofun nofun nofun) ?_
  simpa [Core.sites] using ⟨hvalue, hifNull⟩

/-- **No wrapper that is read is a combinator.** -/
theorem sound_readWrapper (kind : WrapperKind) (h : node.Reliable) :
    Delivers (fun w => Sound w.sites) (readWrapper kind node) := by
  cases kind with
  | string => exact sound_readString h
  | number => exact sound_readNumber h
  | date => exact sound_readDate h
  | concat => exact sound_readConcat h
  | choice => exact sound_readChoice h
  | cases => exact sound_readCases h
  | json => exact sound_readJson false h
  | array => exact sound_readJson true h
  | refer => exact (sound_readRefer h).mono fun _ hw => hw.1
  | aggregate kind => exact sound_readAggregateOf kind h

/-! ## Conditions -/

theorem sound_readConditions (owner : String) (h : node.Reliable) :
    Delivers (fun conditions => Sound (groupSites conditions)) (readConditions owner node) := by
  unfold readConditions
  split
  · exact .each (fun item hitem => (h.items item hitem).condition owner)
      fun _ => sound_groupSites.2
  · exact .invalid rfl

/-- A combinator is an entry of a condition. -/
theorem sound_readCombined (c : Combinator) (h : node.Reliable) :
    Delivers (fun entry => Sound entry.sites) (readCombined c node) := by
  cases c with
  | between =>
      unfold readCombined
      refine (reliable_ofNode h).bind fun record hrecord => ?_
      refine (hrecord.require "gt").bind fun lower hlower => ?_
      refine hlower.expr.bind fun low hlow => ?_
      refine (hrecord.require "lt").bind fun upper hupper => ?_
      refine hupper.expr.bind fun high hhigh => ?_
      exact .pure (by simp [Entry.sites, hlow, hhigh])
  | all => exact (sound_readConditions "and" h).map fun _ hc => hc
  | any => exact (sound_readConditions "or" h).map fun _ hc => hc

theorem sound_readSigned (signature : Signature) (h : node.Reliable) :
    Delivers (fun entry => Sound entry.sites) (readSigned signature node) := by
  cases signature with
  | wrapper kind => exact (sound_readWrapper kind h).map fun _ hw => hw
  | combinator c => exact sound_readCombined c h

/-! ## Objects -/

/-- An object whose only key names a wrapper is that wrapper. -/
theorem sound_readOnlyWrapper? {fields : List (String × Node)}
    (h : ∀ field ∈ fields, field.2.Reliable) {read : Reading Wrapper}
    (hread : readOnlyWrapper? fields = some read) : Delivers (fun w => Sound w.sites) read := by
  unfold readOnlyWrapper? at hread
  split at hread
  · next kind node hsigned =>
      cases hread
      unfold signed? at hsigned
      split at hsigned
      · obtain ⟨signature, -, hpair⟩ := Option.map_eq_some_iff.1 hsigned
        cases hpair
        exact sound_readWrapper kind (h _ List.mem_cons_self)
      · cases hsigned
  · cases hread

/-- An object with a key for a query used as a value is read as that, or as a condition. -/
theorem readObject_refer {fields : List (String × Node)}
    (h : ∀ field ∈ fields, field.2.Reliable)
    (hrefer : (fields.any fun (key, _) => key == "refer") = true) :
    Ensures (fun e => e.isQueryOrCondition = true) (readObject fields) := by
  unfold readObject
  split
  · next read hread =>
      unfold readOnlyWrapper? at hread
      split at hread
      · next kind node hsigned =>
          cases hread
          unfold signed? at hsigned
          split at hsigned
          · next key _ =>
              obtain rfl : key = "refer" := by simpa using hrefer
              cases hsigned
              exact ((sound_readRefer (h _ List.mem_cons_self)).map fun w hw => hw.2).ensures
          · cases hsigned
      · cases hread
  · rintro s e s' hread
    obtain ⟨entries, s₁, -, heq⟩ := Reading.map_ok.1 hread
    cases heq
    rfl

/-- What is tested for rows is a query or a condition. -/
theorem sound_readSubquery {json : Json} (h : (Node.ofJson json).Reliable) :
    Delivers (fun e => Sound e.sites ∧ e.isQueryOrCondition = true)
      (readSubquery (Node.ofJson json)) := by
  unfold readSubquery
  split
  · next hrefer =>
      cases json with
      | obj fields =>
          exact h.expr.and (readObject_refer h.fields hrefer)
      | _ => cases hrefer
  · exact (sound_readRefer h).map fun w hw => hw

/-- **Only a query or a condition is read where rows are tested for.** -/
theorem sound_readOperand (comparator : Comparator) {json : Json}
    (h : (Node.ofJson json).Reliable) :
    Delivers (fun e => Sound (.comparison comparator e :: e.sites))
      (readOperand comparator (Node.ofJson json)) := by
  unfold readOperand
  split
  · exact (sound_readSubquery h).mono fun _ he => sound_cons.2 ⟨fun _ => he.2, he.1⟩
  · exact (sound_readSubquery h).mono fun _ he => sound_cons.2 ⟨fun _ => he.2, he.1⟩
  · next hrows hnoRows =>
      refine h.expr.mono fun _ he => sound_cons.2 ⟨?_, he⟩
      intro htests
      cases comparator <;> simp_all [Comparator.testsRows]

/-- A key is a comparator, a combinator, a wrapper or else a column. -/
theorem sound_readEntry (owner key : String) {json : Json} (h : (Node.ofJson json).Reliable) :
    Delivers (fun entry => Sound entry.sites) (readEntry owner (key, Node.ofJson json)) := by
  unfold readEntry
  split
  · exact sound_readSigned _ h
  · split
    · exact (sound_readOperand _ h).map fun e he => he
    · refine (delivers_checkColumn key owner).bind fun _ hkey => ?_
      exact h.expr.map fun e he => sound_cons.2 ⟨hkey, he⟩

end Record

/-! ## Every node is reliable -/

theorem Node.reliable_scalar {json : Json} (hjson : ∀ items, json ≠ .arr items) :
    (Node.scalar json).Reliable := by
  have hscalar : Sound (scalarExpr json).sites := by
    cases json <;> simp [scalarExpr, Expr.sites]
  refine .intro ?_ ?_ (fun items h => absurd h (hjson items)) (.pure hscalar) (.pure hscalar)
    (fun _ => .invalid rfl) (.invalid rfl)
  all_goals rintro _ ⟨⟩

theorem Node.reliable_arr {items : List Json} (h : ∀ item ∈ items, (Node.ofJson item).Reliable) :
    (Node.ofJson (.arr items)).Reliable := by
  have hitems : ∀ node ∈ Json.foldItems algebra items, node.Reliable := by
    rw [foldItems_algebra]
    simpa using h
  refine .intro hitems nofun ?_ ?_ (.invalid rfl) (fun _ => .invalid rfl) (.invalid rfl)
  · rintro _ ⟨⟩
    change (Json.foldItems algebra items).length = items.length
    rw [foldItems_algebra, List.length_map]
  · exact Delivers.map (.each (fun node hnode => (hitems node hnode).expr)
      fun _ => sound_exprSites.2) fun _ he => he

/-- What holds of the fields of an object holds of the object. -/
theorem Node.reliable_obj {fields : List (String × Json)}
    (h : ∀ field ∈ fields, (Node.ofJson field.2).Reliable) :
    (Node.ofJson (.obj fields)).Reliable := by
  have hmap : (Node.ofJson (.obj fields)).fields = fields.map fun x => (x.1, Node.ofJson x.2) :=
    foldFields_algebra fields
  have hfields : ∀ field ∈ (Node.ofJson (.obj fields)).fields, field.2.Reliable := by
    rw [hmap]
    intro field hfield
    obtain ⟨x, hx, rfl⟩ := List.mem_map.1 hfield
    exact h x hx
  have hentries (owner : String) : Delivers (fun entries => Sound (entrySites entries))
      ((Node.ofJson (.obj fields)).fields.mapM (readEntry owner)) := by
    rw [hmap]
    refine .each ?_ fun _ => sound_entrySites.2
    intro field hfield
    obtain ⟨x, hx, rfl⟩ := List.mem_map.1 hfield
    exact sound_readEntry owner x.1 (h x hx)
  refine .intro nofun hfields nofun ?_ ?_ hentries (sound_readJoin hfields)
  · change Delivers _ (readObject (Node.ofJson (.obj fields)).fields)
    unfold readObject
    split
    · next read hread => exact (sound_readOnlyWrapper? hfields hread).map fun _ hw => hw
    · exact (hentries "where").map fun _ hc => hc
  · change Delivers _ (readObjectItem (Node.ofJson (.obj fields)).fields)
    unfold readObjectItem
    split
    · next read hread => exact (sound_readOnlyWrapper? hfields hread).map fun _ hw => hw
    · exact .throw rfl

/-- **Every node is reliable**: from the leaves up, each value is read as a well-formed tree if the
values that it is made of are. -/
theorem Node.reliable_ofJson (json : Json) : (Node.ofJson json).Reliable := by
  refine Json.of_parts (C := fun json => (Node.ofJson json).Reliable)
    (fun json hparts => ?_) json
  cases json with
  | arr items => exact reliable_arr hparts
  | obj fields => exact reliable_obj fun field hfield => hparts _ (List.mem_map_of_mem hfield)
  | _ => exact reliable_scalar nofun

/-! ## Statements -/

theorem sound_readSelectStatement (json : Json) :
    Delivers (fun query => Sound query.sites) (readSelectStatement json) :=
  (reliable_ofNode (Node.reliable_ofJson json)).bind fun _ => sound_readQuery

theorem sound_readRow (owner : String) {node : Node} (h : node.Reliable) :
    Delivers (fun row => Sound (pairSites row)) (readRow owner node) := by
  unfold readRow
  split
  · exact sound_readPairs owner h
  · exact .invalid rfl

/-- There is a row, and each row is well formed. -/
theorem sound_readRows {node : Node} (h : node.Reliable) :
    Delivers (fun rows => rows ≠ [] ∧ ∀ row ∈ rows, Sound (pairSites row)) (readRows node) := by
  unfold readRows
  split
  · exact .invalid rfl
  · next items hne hjson =>
      refine (Delivers.mapM fun item hitem =>
        sound_readRow "save.data" (h.items item hitem)).mono ?_
      rintro rows ⟨hlength, hall⟩
      refine ⟨?_, hall⟩
      rintro rfl
      rw [h.length hjson, List.length_nil, eq_comm, List.length_eq_zero_iff] at hlength
      exact hne hlength
  · refine (sound_readRow "save.data" h).bind fun row hrow => ?_
    exact .pure ⟨by simp, by simpa using hrow⟩
  · exact .invalid rfl

/-- **A statement that writes rows has a row, and is well formed at every depth.** -/
theorem sound_readWrite (json : Json) :
    Delivers (fun write => write.rows ≠ [] ∧ Sound write.sites) (readWrite json) := by
  unfold readWrite
  refine (reliable_ofNode (Node.reliable_ofJson json)).bind fun record hrecord => ?_
  refine (hrecord.require "data").bind fun data hdata => ?_
  refine (sound_readRows hdata).bind fun rows hrows => ?_
  have hupsert : Delivers (fun upsert => Sound (pairSites (upsert.getD [])))
      (record.optional "upsert" (readRow "save.upsert")) := by
    unfold Record.optional
    split
    · next node hnode => exact (sound_readRow _ (hrecord.of_get? hnode)).map fun _ hrow => hrow
    · exact .pure sound_nil
  refine hupsert.bind fun upsert hupsert => ?_
  refine .skip (fair_readEncrypt record) fun encrypt => ?_
  refine .skip (record.fair_string _) fun table => ?_
  refine .skip (record.fair_string? _) fun alias? => ?_
  refine (hrecord.condition? "where").bind fun filter hfilter => ?_
  refine .skip (fair_readJunction record) fun junction => ?_
  refine .skip (record.fair_strings _) fun indexes => ?_
  refine .skip (record.fair_settings? _) fun encryption => ?_
  refine .pure ⟨hrows.1, ?_⟩
  rw [Write.sites, sound_append, sound_append]
  refine ⟨⟨?_, hupsert⟩, hfilter⟩
  intro site hsite
  obtain ⟨row, hrow, hsite⟩ := List.mem_flatMap.1 hsite
  exact hrows.2 row hrow site hsite

theorem sound_readDelete (json : Json) :
    Delivers (fun delete => Sound (filterSites delete.filter)) (readDelete json) := by
  unfold readDelete
  refine (reliable_ofNode (Node.reliable_ofJson json)).bind fun record hrecord => ?_
  refine .skip (record.fair_string _) fun table => ?_
  refine .skip (record.fair_string? _) fun alias? => ?_
  refine (hrecord.condition? "where").bind fun filter hfilter => ?_
  refine .skip (fair_readJunction record) fun junction => ?_
  refine .skip (record.fair_settings? _) fun encryption => ?_
  exact .pure hfilter

end QueryTree

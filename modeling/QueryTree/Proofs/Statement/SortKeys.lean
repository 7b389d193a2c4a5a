import QueryTree.Proofs.Binding.Written
import QueryTree.Proofs.Statement.Composition

/-!
# Aliases as sort keys

A select item may have an alias, and the keys to group and to sort by may refer to it. The alias is
written as a single name and the reference as a path, which are the same text exactly if there is no
dot in the alias.

* `QueryText`, `Query.WrittenAs`: the text of a query in its parts, each written by its own part of
  the query; `Query.exists_text` says that every query is written so.
* `Lexeme.text_path_eq_iff`: a path and a single name that are the same text.
* `Segment.occur_all`: each segment stands in the text of the whole.
* `Config.sort_keys_of_statement`: how the keys of all queries of a statement refer to aliases.
-/

namespace QueryTree

open Fragment (word spaced commas Writes)

/-! ## Names and paths -/

/-- **A path and a single name are the same text exactly if there is no dot in them.** -/
theorem Lexeme.text_path_eq_iff (dialect : Dialect) (n : String) :
    Lexeme.text dialect (.name (Text.pathParts n)) = Lexeme.text dialect (.name [n]) ↔
      '.' ∉ n.toList := by
  rw [← Text.pathParts_eq_singleton_iff]
  exact quoteParts_inj dialect.quote_ne_dot (Text.pathParts_ne_nil n) (by simp)

/-! ## The text of a query -/

/-- The text of a query in its parts. -/
structure QueryText where
  items : List (List Lexeme)
  table : List Lexeme
  joins : List Lexeme
  filter : List Lexeme
  groups : List (List Lexeme)
  having : List Lexeme
  sorted : List (List Lexeme)
  limit : List Lexeme

/-- A list behind the words of its clause, left out if it is empty. -/
def byClause (keyword : String) (parts : List (List Lexeme)) : List Lexeme :=
  if parts.isEmpty then []
  else [.space, .word keyword, .space, .word "BY", .space] ++ [.comma, .space].intercalate parts

/-- The parts of a text, one after the other. -/
def QueryText.lexemes (text : QueryText) : List Lexeme :=
  [.word "SELECT", .space] ++ [.comma, .space].intercalate text.items
    ++ [.space, .word "FROM", .space] ++ text.table ++ text.joins ++ text.filter
    ++ byClause "GROUP" text.groups ++ text.having ++ byClause "ORDER" text.sorted ++ text.limit

/-- Each part of the text is written by its own part of the query, and each entry of a list by the
item or key in its place. -/
structure Query.WrittenAs (dialect : Dialect) (outer : Scope) (q : Query) (text : QueryText) :
    Prop where
  items : List.Forall₂ (Writes dialect)
    (if q.select.isEmpty then [word "*"] else itemFragments (q.scope outer) q.select) text.items
  table : Writes dialect (tableFragment q.table q.alias?) text.table
  joins : Writes dialect
    (joinsFragment (q.alias?.getD q.table) (q.scope outer) q.joins) text.joins
  filter : Writes dialect (conditionClause "WHERE" q.junction
    (filterFragments q.junction (q.scope outer) q.filter)) text.filter
  groups : List.Forall₂ (Writes dialect)
    (keyFragments (q.scope outer) (outputAliases q.select) q.groupBy) text.groups
  having : Writes dialect (conditionClause "HAVING" q.junction
    (filterFragments q.junction (q.scope outer) q.having)) text.having
  sorted : List.Forall₂ (Writes dialect)
    (orderFragments (q.scope outer) (outputAliases q.select) q.orderBy) text.sorted
  limit : Writes dialect (limitFragment (q.scope outer).dialect q.limit q.offset) text.limit

variable {dialect : Dialect}

namespace Fragment.Writes

theorem path (hdialect : dialect.bindsNames = false) {p : String} {ts : List Lexeme}
    (h : Writes dialect (.path p) ts) : ts = [.name (Text.pathParts p)] := by
  obtain ⟨b, b', h⟩ := h
  simp [run, single, Bindings.identifier, hdialect] at h
  exact h.1.symm

theorem outputName (hdialect : dialect.bindsNames = false) {name : String} {ts : List Lexeme}
    (h : Writes dialect (.outputName name) ts) : ts = [.name [name]] := by
  obtain ⟨b, b', h⟩ := h
  simp [run, single, Bindings.outputName, hdialect] at h
  exact h.1.symm

/-- Words and fragments with spaces between them are written one after the other. -/
theorem spaced_cons {f g : Fragment} {fs : List Fragment} {ts : List Lexeme}
    (h : Writes dialect (spaced (f :: g :: fs)) ts) :
    ∃ us vs, Writes dialect f us ∧ Writes dialect (spaced (g :: fs)) vs
      ∧ ts = us ++ .space :: vs := by
  obtain ⟨_, vs, hleft, hvs, rfl⟩ := append h
  obtain ⟨us, _, hf, hspace, rfl⟩ := append hleft
  obtain rfl := tokens hspace
  exact ⟨us, vs, hf, hvs, by simp⟩

theorem commas {fs : List Fragment} {ts : List Lexeme} (h : Writes dialect (commas fs) ts) :
    ∃ tss, List.Forall₂ (Writes dialect) fs tss ∧ ts = [.comma, .space].intercalate tss :=
  join h

/-- A list clause is written as its words and what its parts write. -/
theorem listClause {keyword : String} {fs : List Fragment} {ts : List Lexeme}
    (h : Writes dialect (listClause [keyword, "BY"] fs) ts) :
    ∃ tss, List.Forall₂ (Writes dialect) fs tss ∧ ts = byClause keyword tss := by
  cases fs with
  | nil =>
      obtain ⟨b, b', h⟩ := h
      cases h
      exact ⟨[], .nil, rfl⟩
  | cons f fs =>
      obtain ⟨_, _, hspace, hclause, rfl⟩ := append h
      obtain ⟨_, _, hwords, hcommas, rfl⟩ := spaced_cons hclause
      obtain ⟨_, _, hkeyword, hby, rfl⟩ := spaced_cons hwords
      obtain ⟨tss, htss, rfl⟩ := commas hcommas
      rw [token hspace, token hkeyword, token hby]
      refine ⟨tss, htss, ?_⟩
      cases htss with
      | cons hf hfs => simp [byClause]

/-- The alias of an item stands behind it, as a single name. -/
theorem aliased (hdialect : dialect.bindsNames = false) {f : Fragment} {name : String}
    {ts : List Lexeme} (h : Writes dialect (aliased (some name) f) ts) :
    ∃ body, ts = body ++ [.space, .word "AS", .space, .name [name]] := by
  obtain ⟨body, _, -, hrest, rfl⟩ := spaced_cons h
  obtain ⟨_, _, hword, hname, rfl⟩ := spaced_cons hrest
  rw [token hword, outputName hdialect hname]
  exact ⟨body, rfl⟩

end Fragment.Writes

/-- **Every query is written part by part.** -/
theorem Query.exists_text {outer : Scope} {q : Query} {ts : List Lexeme}
    (h : Writes dialect (q.fragment outer none) ts) :
    ∃ text : QueryText, ts = text.lexemes ∧ q.WrittenAs dialect outer text := by
  -- a star is a list of one item
  have hcommas : (if q.select.isEmpty then word "*"
      else commas (itemFragments (q.scope outer) q.select))
        = commas (if q.select.isEmpty then [word "*"]
          else itemFragments (q.scope outer) q.select) := by
    split <;> rfl
  rw [Query.fragment_eq, Option.elim_none, hcommas] at h
  -- the clauses are taken off from the last to the first
  obtain ⟨_, limit, h₁, hlimit, rfl⟩ := h.append
  obtain ⟨_, _, h₂, horder, rfl⟩ := h₁.append
  obtain ⟨_, having, h₃, hhaving, rfl⟩ := h₂.append
  obtain ⟨_, _, h₄, hgroup, rfl⟩ := h₃.append
  obtain ⟨_, filter, h₅, hfilter, rfl⟩ := h₄.append
  obtain ⟨_, joins, h₆, hjoins, rfl⟩ := h₅.append
  obtain ⟨_, _, hselect, h₇, rfl⟩ := h₆.spaced_cons
  obtain ⟨_, _, hlist, h₈, rfl⟩ := h₇.spaced_cons
  obtain ⟨_, table, hfrom, htable, rfl⟩ := h₈.spaced_cons
  obtain ⟨items, hitems, rfl⟩ := hlist.commas
  obtain ⟨groups, hgroups, rfl⟩ := hgroup.listClause
  obtain ⟨sorted, hsorted, rfl⟩ := horder.listClause
  rw [hselect.token, hfrom.token]
  exact ⟨⟨items, table, joins, filter, groups, having, sorted, limit⟩, by simp [QueryText.lexemes],
    ⟨hitems, htable, hjoins, hfilter, hgroups, hhaving, hsorted, hlimit⟩⟩

/-! ## Items and keys by their places -/

theorem exists_getElem?_of_forall₂ {α β : Type} {R : α → β → Prop} {as : List α} {bs : List β}
    (h : List.Forall₂ R as bs) {i : Nat} {a : α} (ha : as[i]? = some a) :
    ∃ b, bs[i]? = some b ∧ R a b := by
  induction h generalizing i with
  | nil => cases ha
  | cons hab _ ih =>
      cases i with
      | zero =>
          cases ha
          exact ⟨_, rfl, hab⟩
      | succ i => exact ih ha

theorem itemFragments_getElem? {scope : Scope} {items : List Expr} {i : Nat} {w : Wrapper}
    (h : items[i]? = some (.wrapper w)) :
    (itemFragments scope items)[i]? = some (aliased w.alias? (w.fragment scope)) := by
  induction items generalizing i with
  | nil => cases h
  | cons e items ih =>
      cases i with
      | zero =>
          cases h
          rfl
      | succ i => cases e <;> exact ih h

theorem keyFragments_getElem? {scope : Scope} {outputs : List String} {keys : List Expr} {j : Nat}
    {token : String} (h : keys[j]? = some (.text token)) :
    (keyFragments scope outputs keys)[j]? = some (sortKey scope outputs token) := by
  induction keys generalizing j with
  | nil => cases h
  | cons e keys ih =>
      cases j with
      | zero =>
          cases h
          rfl
      | succ j => cases e <;> exact ih h

theorem mem_outputAliases {items : List Expr} {i : Nat} {w : Wrapper} {name : String}
    (h : items[i]? = some (.wrapper w)) (hname : w.alias? = some name) :
    name ∈ outputAliases items :=
  List.mem_filterMap.2 ⟨_, List.mem_of_getElem? h, hname⟩

theorem sortKey_of_mem {scope : Scope} {outputs : List String} {token : String}
    (h : token ∈ outputs) : sortKey scope outputs token = .path token :=
  if_pos (List.contains_iff_mem.2 h)

namespace Query.WrittenAs

variable {outer : Scope} {q : Query} {text : QueryText} {i j : Nat} {w : Wrapper} {name : String}

/-- The alias of an item is written as a single name. -/
theorem item (h : q.WrittenAs dialect outer text) (hdialect : dialect.bindsNames = false)
    (hw : q.select[i]? = some (.wrapper w)) (hname : w.alias? = some name) :
    ∃ body, text.items[i]? = some (body ++ [.space, .word "AS", .space, .name [name]]) := by
  have hitems := h.items
  have hne : q.select.isEmpty = false := by
    cases hselect : q.select with
    | nil => simp [hselect] at hw
    | cons e es => rfl
  rw [hne] at hitems
  obtain ⟨ts, hts, hwrites⟩ := exists_getElem?_of_forall₂ hitems (itemFragments_getElem? hw)
  rw [hname] at hwrites
  obtain ⟨body, rfl⟩ := hwrites.aliased hdialect
  exact ⟨body, hts⟩

/-- A key to group by that is the alias of an item is written as a path. -/
theorem group (h : q.WrittenAs dialect outer text) (hdialect : dialect.bindsNames = false)
    (hname : name ∈ outputAliases q.select) (hkey : q.groupBy[j]? = some (.text name)) :
    text.groups[j]? = some [.name (Text.pathParts name)] := by
  obtain ⟨ts, hts, hwrites⟩ := exists_getElem?_of_forall₂ h.groups (keyFragments_getElem? hkey)
  rw [sortKey_of_mem hname] at hwrites
  rw [hts, hwrites.path hdialect]

/-- A key to sort by that is the alias of an item is written as a path. -/
theorem order (h : q.WrittenAs dialect outer text) (hdialect : dialect.bindsNames = false)
    (hname : name ∈ outputAliases q.select) {order : SortOrder}
    (hkey : q.orderBy[j]? = some (name, order)) :
    text.sorted[j]? = some [.name (Text.pathParts name), .space, .word order.keyword] := by
  have hkeys : (orderFragments (q.scope outer) (outputAliases q.select) q.orderBy)[j]?
      = some (spaced [.path name, order.keyword]) := by
    simp [orderFragments, hkey, sortKey_of_mem hname]
  obtain ⟨ts, hts, hwrites⟩ := exists_getElem?_of_forall₂ h.sorted hkeys
  obtain ⟨us, vs, hpath, hword, rfl⟩ := hwrites.spaced_cons
  rw [hts, hpath.path hdialect, Writes.token hword]
  rfl

end Query.WrittenAs

/-! ## Queries in a statement -/

/-- Each of the segments stands somewhere in the text. -/
def Occur (dialect : Dialect) (ss : List Segment) (marks : List Mark) : Prop :=
  ∀ s ∈ ss, ∃ before ts after, marks.map Mark.lexeme = before ++ ts ++ after
    ∧ Writes dialect s.body ts

theorem gathers_occur : Gathers (Occur dialect) where
  nil _ := by simp [Occur]
  append {ss ss' marks marks'} h h' := by
    refine List.forall_mem_append.2 ⟨fun s hs => ?_, fun s hs => ?_⟩
    · obtain ⟨before, ts, after, hmarks, hwrites⟩ := h s hs
      exact ⟨before, ts, after ++ marks'.map Mark.lexeme, by simp [hmarks], hwrites⟩
    · obtain ⟨before, ts, after, hmarks, hwrites⟩ := h' s hs
      exact ⟨marks.map Mark.lexeme ++ before, ts, after, by simp [hmarks], hwrites⟩

/-- **All segments of a segment stand in its text.** -/
theorem Segment.occur_all {s : Segment} {n : Nat} {mode mode' : Option Cipher.Mode}
    {marks : List Mark} {stored : List Call}
    (h : Traces dialect s.body n mode marks stored mode') : Occur dialect s.all marks := by
  have hown : ∀ t x : Segment, some t = some x → ∀ ts,
      (∀ f : Fragment, f.Holds (fragments t.children) → f.Yields dialect (Occur dialect ts)) →
      t.body.Yields dialect (Occur dialect (ts ++ [x])) := by
    rintro t _ ⟨⟩ ts hchildren n mode mode' marks stored htraces
    refine List.forall_mem_append.2
      ⟨hchildren _ t.holds_body htraces, List.forall_mem_singleton.2 ?_⟩
    exact ⟨[], marks.map Mark.lexeme, [], by simp, _, _, htraces.run []⟩
  simpa using s.yields_all gathers_occur hown h

namespace Config

/-- **How sort keys refer to aliases.** In every query of a compiled statement that has select items
of its own, at any depth, the alias of an item is written as a single name. A key to group or to
sort by that is this alias is written in its own place as one path, and that is the same text
exactly if there is no dot in the alias. -/
theorem sort_keys_of_statement {config : Config}
    (hdialect : config.dialect = .postgresql ∨ config.dialect = .sqlite) {kind : StatementKind}
    {json : Json} {c : Compiled} (h : config.statement kind json = .ok c) :
    ∃ (root : Segment) (ts : List Lexeme), config.segment kind json = .ok root
      ∧ c.sql = render config.dialect ts
      ∧ ∀ (outer : Scope) (q : Query), .query outer none q ∈ root.all →
        ∃ (before after : List Lexeme) (text : QueryText), ts = before ++ text.lexemes ++ after
          ∧ q.WrittenAs config.dialect outer text
          ∧ ∀ (i : Nat) (w : Wrapper) (n : String),
            q.select[i]? = some (.wrapper w) → w.alias? = some n →
            ∃ body, text.items[i]? = some (body ++ [.space, .word "AS", .space, .name [n]])
              ∧ (∀ j : Nat, q.groupBy[j]? = some (.text n) →
                ∃ key : Lexeme, text.groups[j]? = some [key]
                  ∧ (key.text config.dialect = Lexeme.text config.dialect (.name [n])
                    ↔ '.' ∉ n.toList))
              ∧ ∀ (j : Nat) (order : SortOrder), q.orderBy[j]? = some (n, order) →
                ∃ key : Lexeme, text.sorted[j]? = some [key, .space, .word order.keyword]
                  ∧ (key.text config.dialect = Lexeme.text config.dialect (.name [n])
                    ↔ '.' ∉ n.toList) := by
  have hnames : config.dialect.bindsNames = false := by
    obtain h | h := hdialect <;> rw [h] <;> rfl
  obtain ⟨f, marks, stored, htraced, -, -⟩ := exists_traced h
  obtain ⟨root, hroot, rfl⟩ := exists_segment htraced.fragment_eq
  obtain ⟨mode, htraces⟩ := htraced.traces
  refine ⟨root, marks.map Mark.lexeme, hroot, htraced.sql_eq, fun outer q hq => ?_⟩
  obtain ⟨before, ts, after, hmarks, hwrites⟩ := Segment.occur_all htraces _ hq
  obtain ⟨text, rfl, htext⟩ := Query.exists_text hwrites
  refine ⟨before, after, text, hmarks, htext, fun i w n hw hn => ?_⟩
  obtain ⟨body, hbody⟩ := htext.item hnames hw hn
  have houtput := mem_outputAliases hw hn
  exact ⟨body, hbody,
    fun j hkey => ⟨_, htext.group hnames houtput hkey, Lexeme.text_path_eq_iff _ _⟩,
    fun j order hkey => ⟨_, htext.order hnames houtput hkey, Lexeme.text_path_eq_iff _ _⟩⟩

/-- What was spent for each status, sorted by an alias with a dot and by one without. -/
def spending : Json :=
  .obj [("table", .str "orders"),
    ("select", .arr [.str "status",
      .obj [("sum", .obj [("value", .str "total"), ("as", .str "spent.total")])],
      .obj [("count", .obj [("value", .str "*"), ("as", .str "n")])]]),
    ("groupBy", .arr [.str "status"]),
    ("orderBy", .obj [("spent.total", .str "desc"), ("n", .str "asc")])]

theorem sort_keys_of_statement_spending :
    ∃ c before after text, ({ dialect := .postgresql } : Config).statement .select spending = .ok c
      ∧ c.sql = "SELECT \"status\", SUM(\"total\") AS \"spent.total\", COUNT(*) AS \"n\" FROM "
        ++ "\"orders\" GROUP BY \"status\" ORDER BY \"spent\".\"total\" DESC, \"n\" ASC"
      ∧ c.sql = render .postgresql (before ++ QueryText.lexemes text ++ after)
      ∧ (∃ body key,
        text.items[1]? = some (body ++ [.space, .word "AS", .space, .name ["spent.total"]])
          ∧ text.sorted[0]? = some [key, .space, .word "DESC"]
          ∧ key.text .postgresql ≠ Lexeme.text .postgresql (.name ["spent.total"]))
      ∧ ∃ body key, text.items[2]? = some (body ++ [.space, .word "AS", .space, .name ["n"]])
          ∧ text.sorted[1]? = some [key, .space, .word "ASC"]
          ∧ key.text .postgresql = Lexeme.text .postgresql (.name ["n"]) := by
  obtain ⟨c, hc, hsql⟩ : ∃ c,
      ({ dialect := .postgresql } : Config).statement .select spending = .ok c ∧ c.sql
        = "SELECT \"status\", SUM(\"total\") AS \"spent.total\", COUNT(*) AS \"n\" FROM "
          ++ "\"orders\" GROUP BY \"status\" ORDER BY \"spent\".\"total\" DESC, \"n\" ASC" :=
    ⟨_, rfl, rfl⟩
  obtain ⟨root, ts, hroot, hts, hqueries⟩ := sort_keys_of_statement (.inl rfl) hc
  cases hroot
  obtain ⟨before, after, text, rfl, -, haliases⟩ :=
    hqueries _ _ (by rw [Segment.all_eq]; exact List.mem_append_right _ (List.mem_singleton_self _))
  obtain ⟨spent, hspent, -, hdotted⟩ := haliases 1 _ _ rfl rfl
  obtain ⟨count, hcount, -, hplain⟩ := haliases 2 _ _ rfl rfl
  obtain ⟨key, hkey, hiff⟩ := hdotted 0 _ rfl
  obtain ⟨key', hkey', hiff'⟩ := hplain 1 _ rfl
  exact ⟨c, before, after, text, hc, hsql, hts,
    ⟨spent, key, hspent, hkey, fun h => hiff.1 h (by decide)⟩,
    ⟨count, key', hcount, hkey', hiff'.2 (by decide)⟩⟩

end Config

end QueryTree

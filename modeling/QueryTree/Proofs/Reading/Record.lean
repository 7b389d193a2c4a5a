import QueryTree.Tree.Reading.Statement

/-!
# Successful readings

What a reading that succeeds has met on its way, and how the fields of a record come from the
fields of a JSON object.

* `Reading.bind_ok`, `Reading.map_ok`, `Reading.length_of_mapM`: readings made of readings.
* `Json.given?`: a field that is given and not null.
* `Record.Of`: a record of the fields of a JSON value; `Record.of_ofNode` says when there is one.
* `Record.Of.condition_ok`: where the condition of a record comes from.
* `ReadsAs`, `FilterOf`: an object read as a condition, and the filter of a statement;
  `filterOf_readDelete` and `filterOf_readWrite` say that statements have it.
-/

namespace QueryTree

variable {α β : Type} {s s' : List Omission}

/-! ## Readings made of readings -/

namespace Reading

theorem bind_ok {x : Reading α} {f : α → Reading β} {r : β × List Omission} :
    (x >>= f) s = .ok r ↔ ∃ a s₁, x s = .ok (a, s₁) ∧ f a s₁ = .ok r := by
  change (x s >>= fun p => f p.1 p.2) = .ok r ↔ _
  cases x s with
  | error e => simp [bind, Except.bind]
  | ok p =>
      obtain ⟨a, s₁⟩ := p
      simp [bind, Except.bind, and_assoc]

theorem pure_ok {a : α} {r : α × List Omission} :
    (pure a : Reading α) s = .ok r ↔ r = (a, s) := by
  change Except.ok (a, s) = .ok r ↔ _
  simp [eq_comm]

theorem map_ok {x : Reading α} {g : α → β} {r : β × List Omission} :
    (g <$> x) s = .ok r ↔ ∃ a s₁, x s = .ok (a, s₁) ∧ r = (g a, s₁) := by
  change (x s >>= fun p => pure (g p.1, p.2)) = .ok r ↔ _
  cases x s with
  | error e => simp [bind, Except.bind]
  | ok p =>
      obtain ⟨a, s₁⟩ := p
      simp [bind, Except.bind, pure, Except.pure, and_assoc, @eq_comm _ r]

theorem throw_ne_ok {e : CompileError} {r : α × List Omission} :
    (throw e : Reading α) s ≠ .ok r := by
  intro h
  cases h

/-- As many values are read as there are to read. -/
theorem length_of_mapM {f : α → Reading β} {xs : List α} {ys : List β}
    (h : xs.mapM f s = .ok (ys, s')) : ys.length = xs.length := by
  induction xs generalizing s ys with
  | nil =>
      rw [List.mapM_nil, pure_ok] at h
      cases h
      rfl
  | cons x xs ih =>
      rw [List.mapM_cons] at h
      obtain ⟨y, s₁, -, h⟩ := bind_ok.1 h
      obtain ⟨zs, s₂, hrest, h⟩ := bind_ok.1 h
      rw [pure_ok] at h
      cases h
      rw [List.length_cons, List.length_cons, ih hrest]

end Reading

/-! ## Fields of objects -/

/-- A field of an object that is given and not null. -/
def Json.given? (key : String) (json : Json) : Option Json :=
  match json.get? key with
  | some .null | none => none
  | some value => some value

theorem lookup_foldFields (alg : Json.Algebra α) (key : String)
    (fields : List (String × Json)) :
    (Json.foldFields alg fields).lookup key = (fields.lookup key).map (Json.fold alg) := by
  induction fields with
  | nil => rfl
  | cons field fields ih =>
      obtain ⟨name, value⟩ := field
      rw [Json.foldFields, List.lookup_cons, List.lookup_cons, ih]
      split <;> rfl

theorem length_foldFields (alg : Json.Algebra α) (fields : List (String × Json)) :
    (Json.foldFields alg fields).length = fields.length := by
  induction fields with
  | nil => rfl
  | cons field fields ih => rw [Json.foldFields, List.length_cons, List.length_cons, ih]

namespace Record

/-- The fields of a record are those of a JSON object. -/
def Of (json : Json) (record : Record) : Prop :=
  ∃ fields, json = .obj fields ∧ record.fields = (Node.ofJson json).fields

theorem ofFields_ok {owner : String} {known : List String} {fields : List (String × Node)}
    {record : Record} (h : ofFields owner known fields s = .ok (record, s')) :
    record.fields = fields := by
  unfold ofFields at h
  generalize List.find? _ fields = unknown at h
  cases unknown with
  | none =>
      cases Reading.pure_ok.1 h
      rfl
  | some field => exact absurd h Reading.throw_ne_ok

theorem of_ofNode {owner : String} {known : List String} {json : Json} {record : Record}
    (h : ofNode owner known (Node.ofJson json) s = .ok (record, s')) : record.Of json := by
  cases json with
  | obj fields => exact ⟨fields, rfl, ofFields_ok h⟩
  | _ => exact absurd h Reading.throw_ne_ok

theorem Of.given?_eq {json : Json} {record : Record} (h : record.Of json) (key : String) :
    record.given? key = (json.get? key).map Node.ofJson := by
  obtain ⟨fields, rfl, hfields⟩ := h
  rw [given?, hfields]
  exact lookup_foldFields Node.algebra key fields

theorem Of.get?_eq {json : Json} {record : Record} (h : record.Of json) (key : String) :
    record.get? key = (json.given? key).map Node.ofJson := by
  rw [get?, h.given?_eq, Json.given?]
  cases json.get? key with
  | none => rfl
  | some value => cases value <;> rfl

/-- A condition is read from an object, entry by entry; it is absent exactly if the field is. -/
theorem Of.condition_ok {json : Json} {record : Record} (h : record.Of json) {key : String}
    {filter : Option Condition} (hread : record.condition? key s = .ok (filter, s')) :
    (json.given? key = none ∧ filter = none)
      ∨ ∃ fields entries, json.given? key = some (.obj fields) ∧ filter = some entries
        ∧ (Node.ofJson (.obj fields)).condition (record.path key) s = .ok (entries, s') := by
  unfold condition? optional at hread
  rw [h.get?_eq] at hread
  cases hgiven : json.given? key with
  | none =>
      rw [hgiven] at hread
      cases Reading.pure_ok.1 hread
      exact .inl ⟨rfl, rfl⟩
  | some value =>
      rw [hgiven] at hread
      obtain ⟨entries, s₁, hentries, hr⟩ := Reading.map_ok.1 hread
      cases hr
      cases value with
      | obj fields => exact .inr ⟨fields, entries, rfl, rfl, hentries⟩
      | _ => exact absurd hentries Reading.throw_ne_ok

end Record

/-! ## Filters of statements -/

/-- The fields of an object are read as a condition. -/
def ReadsAs (fields : List (String × Json)) (entries : Condition) : Prop :=
  ∃ owner s s', (Node.ofJson (.obj fields)).condition owner s = .ok (entries, s')

/-- A condition has as many entries as its object has fields. -/
theorem ReadsAs.length_eq {fields : List (String × Json)} {entries : Condition}
    (h : ReadsAs fields entries) : entries.length = fields.length := by
  obtain ⟨owner, s, s', h⟩ := h
  rw [Reading.length_of_mapM h]
  exact length_foldFields Node.algebra fields

theorem ReadsAs.eq_nil_iff {fields : List (String × Json)} {entries : Condition}
    (h : ReadsAs fields entries) : entries = [] ↔ fields = [] := by
  rw [← List.length_eq_zero_iff, h.length_eq, List.length_eq_zero_iff]

/-- There is a filter exactly if one is given, and it is an object. -/
def FilterOf (json : Json) (filter : Option Condition) : Prop :=
  (json.given? "where" = none ∧ filter = none)
    ∨ ∃ fields entries, json.given? "where" = some (.obj fields) ∧ filter = some entries
      ∧ ReadsAs fields entries

theorem Record.Of.filterOf {json : Json} {record : Record} (h : record.Of json)
    {filter : Option Condition} (hread : record.condition? "where" s = .ok (filter, s')) :
    FilterOf json filter := by
  obtain habsent | ⟨fields, entries, hgiven, hfilter, hentries⟩ := h.condition_ok hread
  · exact .inl habsent
  · exact .inr ⟨fields, entries, hgiven, hfilter, _, _, _, hentries⟩

theorem filterOf_readDelete {json : Json} {delete : Delete}
    (h : readDelete json s = .ok (delete, s')) : FilterOf json delete.filter := by
  obtain ⟨record, s₁, hrecord, h⟩ := Reading.bind_ok.1 h
  obtain ⟨table, s₂, -, h⟩ := Reading.bind_ok.1 h
  obtain ⟨alias?, s₃, -, h⟩ := Reading.bind_ok.1 h
  obtain ⟨filter, s₄, hfilter, h⟩ := Reading.bind_ok.1 h
  obtain ⟨junction, s₅, -, h⟩ := Reading.bind_ok.1 h
  obtain ⟨encryption, s₆, -, h⟩ := Reading.bind_ok.1 h
  cases Reading.pure_ok.1 h
  exact (Record.of_ofNode hrecord).filterOf hfilter

theorem filterOf_readWrite {json : Json} {write : Write}
    (h : readWrite json s = .ok (write, s')) : FilterOf json write.filter := by
  obtain ⟨record, s₁, hrecord, h⟩ := Reading.bind_ok.1 h
  obtain ⟨data, s₂, -, h⟩ := Reading.bind_ok.1 h
  obtain ⟨rows, s₃, -, h⟩ := Reading.bind_ok.1 h
  obtain ⟨upsert, s₄, -, h⟩ := Reading.bind_ok.1 h
  obtain ⟨encrypt, s₅, -, h⟩ := Reading.bind_ok.1 h
  obtain ⟨table, s₆, -, h⟩ := Reading.bind_ok.1 h
  obtain ⟨alias?, s₇, -, h⟩ := Reading.bind_ok.1 h
  obtain ⟨filter, s₈, hfilter, h⟩ := Reading.bind_ok.1 h
  obtain ⟨junction, s₉, -, h⟩ := Reading.bind_ok.1 h
  obtain ⟨indexes, s₁₀, -, h⟩ := Reading.bind_ok.1 h
  obtain ⟨encryption, s₁₁, -, h⟩ := Reading.bind_ok.1 h
  cases Reading.pure_ok.1 h
  exact (Record.of_ofNode hrecord).filterOf hfilter

end QueryTree

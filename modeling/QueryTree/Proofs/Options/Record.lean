import QueryTree.Proofs.Options.Alike
import QueryTree.Proofs.Reading.Sequence

/-!
# Options that are read from alike objects

How the options of two alike objects are read. The clauses that are left out on the way are those
at the options that are read, so that a reader leaves out what stands at its options, in the order
in which it reads them.

* `Json.AlikeBelow`: alike values of bounded size, for inductions.
* `Record.Alike`: the records of alike option objects.
* `Record.Alike.whenGiven`: what is done depending on whether an option is given.
* `Record.Alike.optional`, `Record.Alike.require`, `Record.Alike.requireGiven`: options that are
  read as parts.
* `Record.Alike.get?_eq`: plain options are the same.
-/

namespace QueryTree

open Cipher (Settings)
open Reading (Agree Fails Gives Quiet)

/-- Alike values, of which the first is small. -/
structure Json.AlikeBelow (drops : Bool) (n : Nat) (slot : Slot) (json json' : Json) : Prop where
  small : sizeOf json < n
  alike : json.Alike drops slot json'

theorem Json.AlikeBelow.succ {drops : Bool} {n : Nat} {slot : Slot} {json json' : Json}
    (h : json.AlikeBelow drops n slot json') : json.AlikeBelow drops (n + 1) slot json' :=
  ⟨Nat.lt_succ_of_lt h.small, h.alike⟩

/-- The records of alike option objects. -/
structure Record.Alike (drops : Bool) (n : Nat) (kind : OptionKind)
    (fields fields' : List (String × Json)) (record record' : Record) : Prop where
  owner_eq : record'.owner = record.owner
  left : record.Of (.obj fields)
  right : record'.Of (.obj fields')
  options : OptionsAlike drops kind fields fields'
  known {key : String} : key ∉ kind.keys → fields.lookup key = none
  small {key : String} {json : Json} : fields.lookup key = some json → sizeOf json < n

/-! ## Options of option objects -/

section Options

variable {drops : Bool} {n : Nat} {kind : OptionKind} {fields fields' : List (String × Json)}
  {key : String}

theorem OptionKind.omission?_of_clause (hclause : kind.clause? key = none) :
    kind.omission? fields key = none := by
  rw [OptionKind.omission?, hclause]
  rfl

theorem OptionKind.not_isSome_omission? (hclause : kind.clause? key = none) :
    ¬(kind.omission? fields key).isSome := by
  rw [omission?_of_clause hclause]
  nofun

theorem OptionKind.omittedAt_of_clause (hclause : kind.clause? key = none) :
    kind.omittedAt fields key
      = ((fields.lookup key).map (Json.omitted (kind.slot key))).getD [] := by
  rw [OptionKind.omittedAt, omission?_of_clause hclause]
  rfl

theorem Json.given?_eq_none : (Json.obj fields).given? key = none
    ↔ fields.lookup key = none ∨ fields.lookup key = some .null := by
  simp only [Json.given?, Json.get?]
  cases fields.lookup key with
  | none => simp
  | some value => cases value <;> simp

theorem Json.given?_eq_some {json : Json} : (Json.obj fields).given? key = some json
    ↔ fields.lookup key = some json ∧ json ≠ .null := by
  simp only [Json.given?, Json.get?]
  cases fields.lookup key with
  | none => simp
  | some value => cases value <;> simp <;> rintro rfl <;> simp

/-- Nothing is left out at an option that is absent or null. -/
theorem OptionKind.omittedAt_of_given (h : (Json.obj fields).given? key = none) :
    kind.omittedAt fields key = [] := by
  unfold OptionKind.omittedAt OptionKind.omission?
  rcases Json.given?_eq_none.1 h with hlookup | hlookup
  all_goals
    rw [hlookup]
    cases kind.clause? key <;> rfl

/-- Nothing is left out of a clause of the right shape but what is left out of its parts. -/
theorem OptionKind.omittedAt_of_fits {clause : Clause} {json : Json}
    (hclause : kind.clause? key = some clause) (hlookup : fields.lookup key = some json)
    (hfits : clause.fits json = true) :
    kind.omittedAt fields key = json.omitted (kind.slot key) := by
  simp [OptionKind.omittedAt, OptionKind.omission?, hclause, hlookup, hfits]

theorem OptionKind.omittedAt_of_misfit {clause : Clause} {json : Json}
    (hclause : kind.clause? key = some clause) (hlookup : fields.lookup key = some json)
    (hfits : clause.fits json = false) (hcross : clause = .matching → isCross fields = true)
    (hnil : json.omitted (kind.slot key) = []) :
    kind.omittedAt fields key = [⟨kind.owner, key, clause.expected⟩] := by
  simpa [OptionKind.omittedAt, OptionKind.omission?, hclause, hlookup, hfits, hnil] using hcross

/-- What is found under a key of two option objects, null being the same as nothing. -/
inductive Found? (drops : Bool) (n : Nat) (kind : OptionKind)
    (fields fields' : List (String × Json)) (key : String) : Option Json → Option Json → Prop
  | absent (hleft : kind.omittedAt fields key = []) (hright : kind.omittedAt fields' key = []) :
      Found? drops n kind fields fields' key none none
  | both {json json' : Json} (hleft : fields.lookup key = some json)
      (hright : fields'.lookup key = some json') (hnull : json ≠ .null)
      (h : json.AlikeBelow drops n (kind.slot key) json') :
      Found? drops n kind fields fields' key (some json) (some json')
  | dropped {json : Json} (hdrops : drops = true) (hleft : fields.lookup key = some json)
      (h : (kind.omission? fields key).isSome) (hright : kind.omittedAt fields' key = []) :
      Found? drops n kind fields fields' key (some json) none

/-- The one join is a cross join exactly if the other is. -/
theorem OptionsAlike.isCross_eq (h : OptionsAlike drops kind fields fields') :
    isCross fields' = isCross fields := by
  unfold isCross
  cases hleft : fields.lookup "type" with
  | none =>
      cases hright : fields'.lookup "type" with
      | none => rfl
      | some json' =>
          obtain ⟨-, rfl, -⟩ := h.right hleft hright
          rfl
  | some json =>
      cases hright : fields'.lookup "type" with
      | none =>
          rcases (h.left hleft hright).2 with ⟨rfl, -⟩ | ⟨-, homission⟩
          · rfl
          · cases homission
      | some json' =>
          have hplain : json.Alike drops .plain json' := h.both hleft hright
          rw [hplain.eq_of_plain]

/-- What is found on both sides is alike; what is found only on the first is left out. -/
theorem OptionsAlike.found? (h : OptionsAlike drops kind fields fields')
    (hsmall : ∀ {key json}, fields.lookup key = some json → sizeOf json < n) (key : String) :
    Found? drops n kind fields fields' key ((Json.obj fields).given? key)
      ((Json.obj fields').given? key) := by
  cases hleft : (Json.obj fields).given? key with
  | none =>
      cases hright : (Json.obj fields').given? key with
      | none =>
          exact .absent (OptionKind.omittedAt_of_given hleft) (OptionKind.omittedAt_of_given hright)
      | some json' =>
          obtain ⟨hlookup', hnull⟩ := Json.given?_eq_some.1 hright
          rcases Json.given?_eq_none.1 hleft with hlookup | hlookup
          · exact absurd (h.right hlookup hlookup').2.1 hnull
          · exact absurd ((h.both hlookup hlookup').eq_of_isScalar rfl) hnull
  | some json =>
      obtain ⟨hlookup, hnull⟩ := Json.given?_eq_some.1 hleft
      cases hright : (Json.obj fields').given? key with
      | none =>
          rcases Json.given?_eq_none.1 hright with hlookup' | hlookup'
          · rcases (h.left hlookup hlookup').2 with ⟨rfl, -⟩ | ⟨hdrops, homission⟩
            · exact absurd rfl hnull
            · exact .dropped hdrops hlookup homission (OptionKind.omittedAt_of_given hright)
          · exact absurd ((h.both hlookup hlookup').eq_of_isScalar_right rfl).symm hnull
      | some json' =>
          have hlookup' := (Json.given?_eq_some.1 hright).1
          exact .both hlookup hlookup' hnull ⟨hsmall hlookup, h.both hlookup hlookup'⟩

end Options

/-! ## Options of records -/

namespace Record.Alike

variable {α β : Type} {drops : Bool} {n : Nat} {kind : OptionKind}
  {fields fields' : List (String × Json)} {record record' : Record} {v v' w w' : List Omission}

theorem path_eq (h : Record.Alike drops n kind fields fields' record record') (key : String) :
    record'.path key = record.path key := by
  rw [Record.path, Record.path, h.owner_eq]

/-- What is done depending on whether an option is given and not null. -/
theorem whenGiven (h : Record.Alike drops n kind fields fields' record record') (key : String)
    {k l : Node → Reading α} {x y : Reading α}
    (habsent : kind.omittedAt fields key = [] → kind.omittedAt fields' key = [] → Agree w w' x y)
    (hboth : ∀ json json', fields.lookup key = some json → fields'.lookup key = some json' →
      json ≠ .null → json.AlikeBelow drops n (kind.slot key) json' →
        Agree w w' (k (Node.ofJson json)) (l (Node.ofJson json')))
    (hdropped : ∀ json, fields.lookup key = some json → (kind.omission? fields key).isSome →
      kind.omittedAt fields' key = [] → Agree w w' (k (Node.ofJson json)) y) :
    Agree w w'
      (match record.get? key with
        | some node => k node
        | none => x)
      (match record'.get? key with
        | some node => l node
        | none => y) := by
  rw [h.left.get?_eq, h.right.get?_eq]
  have hfound := h.options.found? h.small key
  generalize (Json.obj fields).given? key = found, (Json.obj fields').given? key = found' at hfound
  cases hfound with
  | absent hleft hright => exact habsent hleft hright
  | both hleft hright hnull halike => exact hboth _ _ hleft hright hnull halike
  | dropped _ hleft homission hright => exact hdropped _ hleft homission hright

/-- The same for an option that is never left out. -/
theorem whenPart (h : Record.Alike drops n kind fields fields' record record') (key : String)
    (hclause : kind.clause? key = none) {k l : Node → Reading α} {x y : Reading α}
    (habsent : Agree v v' x y)
    (hboth : ∀ json json', json.AlikeBelow drops n (kind.slot key) json' →
      Agree (json.omitted (kind.slot key) ++ v) (json'.omitted (kind.slot key) ++ v')
        (k (Node.ofJson json)) (l (Node.ofJson json'))) :
    Agree (kind.omittedAt fields key ++ v) (kind.omittedAt fields' key ++ v')
      (match record.get? key with
        | some node => k node
        | none => x)
      (match record'.get? key with
        | some node => l node
        | none => y) := by
  refine h.whenGiven key ?_ ?_ ?_
  · intro hleft hright
    rw [hleft, hright]
    exact habsent
  · intro json json' hleft hright _ halike
    rw [OptionKind.omittedAt_of_clause hclause, OptionKind.omittedAt_of_clause hclause, hleft,
      hright]
    exact hboth json json' halike
  · intro json _ homission
    exact absurd homission (OptionKind.not_isSome_omission? hclause)

/-- An option that has to be there. -/
theorem require (h : Record.Alike drops n kind fields fields' record record') (key : String)
    (hclause : kind.clause? key = none) {k l : Node → Reading α}
    (hboth : ∀ json json', json.AlikeBelow drops n (kind.slot key) json' →
      Agree (json.omitted (kind.slot key) ++ v) (json'.omitted (kind.slot key) ++ v')
        (k (Node.ofJson json)) (l (Node.ofJson json'))) :
    Agree (kind.omittedAt fields key ++ v) (kind.omittedAt fields' key ++ v')
      (record.require key >>= k) (record'.require key >>= l) := by
  have hbind (record : Record) (k : Node → Reading α) : record.require key >>= k
      = match record.get? key with
        | some node => k node
        | none => throw (.missing key record.owner) := by
    unfold Record.require
    cases record.get? key <;> rfl
  rw [hbind, hbind]
  exact h.whenPart key hclause (.throw _ _) hboth

/-- The same where nothing is read after the option. -/
theorem whenLast (h : Record.Alike drops n kind fields fields' record record') (key : String)
    (hclause : kind.clause? key = none) {k l : Node → Reading α} {x y : Reading α}
    (habsent : Agree [] [] x y)
    (hboth : ∀ json json', json.AlikeBelow drops n (kind.slot key) json' →
      Agree (json.omitted (kind.slot key)) (json'.omitted (kind.slot key)) (k (Node.ofJson json))
        (l (Node.ofJson json'))) :
    Agree (kind.omittedAt fields key) (kind.omittedAt fields' key)
      (match record.get? key with
        | some node => k node
        | none => x)
      (match record'.get? key with
        | some node => l node
        | none => y) := by
  rw [← List.append_nil (kind.omittedAt fields key), ← List.append_nil (kind.omittedAt fields' key)]
  refine h.whenPart key hclause habsent fun json json' hjson => ?_
  rw [List.append_nil, List.append_nil]
  exact hboth json json' hjson

/-- An option that may be absent. -/
theorem optional (h : Record.Alike drops n kind fields fields' record record') (key : String)
    (hclause : kind.clause? key = none) {read : Node → Reading α}
    (hread : ∀ json json', json.AlikeBelow drops n (kind.slot key) json' →
      Agree (json.omitted (kind.slot key)) (json'.omitted (kind.slot key))
        (read (Node.ofJson json)) (read (Node.ofJson json'))) :
    Agree (kind.omittedAt fields key) (kind.omittedAt fields' key) (record.optional key read)
      (record'.optional key read) :=
  h.whenLast key hclause (.pure none) fun json json' hjson => (hread json json' hjson).map some

/-! ### Clauses -/

/-- A clause is read on both sides if it has the right shape, and else left out on the first side
and left out or absent on the second. -/
theorem whenClause (h : Record.Alike drops n kind fields fields' record record') (key : String)
    (clause : Clause) (hclause : Clause.ofKey? key = some clause)
    (howner : record.owner = kind.owner)
    (hcross : ∀ json, fields.lookup key = some json → clause.fits json = false →
      clause = .matching → isCross fields = true)
    (hnil : ∀ json, clause.fits json = false → json.omitted (kind.slot key) = [])
    {k l : Node → Reading α} {a : α}
    (hfits : ∀ json json', json ≠ .null → clause.fits json = true →
      json.AlikeBelow drops n (kind.slot key) json' →
        Agree (json.omitted (kind.slot key)) (json'.omitted (kind.slot key))
          (k (Node.ofJson json)) (l (Node.ofJson json')))
    (hmisfit : ∀ json, clause.fits json = false →
      k (Node.ofJson json) = Reading.leaveOut record.owner key clause.expected a
        ∧ l (Node.ofJson json) = Reading.leaveOut record.owner key clause.expected a) :
    Agree (kind.omittedAt fields key) (kind.omittedAt fields' key)
      (match record.get? key with
        | some node => k node
        | none => pure a)
      (match record'.get? key with
        | some node => l node
        | none => pure a) := by
  -- A key that is given is a known one, so that its clause is one of this kind.
  have hkind : ∀ json, fields.lookup key = some json → kind.clause? key = some clause := by
    intro json hleft
    have hknown : key ∈ kind.keys := by
      by_contra hunknown
      cases hleft.symm.trans (h.known hunknown)
    simp [OptionKind.clause?, hclause, hknown]
  refine h.whenGiven key ?_ ?_ ?_
  · intro hleft hright
    rw [hleft, hright]
    exact .pure a
  · intro json json' hleft hright hnull halike
    have hfits_eq : clause.fits json' = clause.fits json := halike.alike.fits_eq clause
    cases hshape : clause.fits json with
    | true =>
        rw [OptionKind.omittedAt_of_fits (hkind json hleft) hleft hshape,
          OptionKind.omittedAt_of_fits (hkind json hleft) hright (hfits_eq.trans hshape)]
        exact hfits json json' hnull hshape halike
    | false =>
        have hshape' : clause.fits json' = false := hfits_eq.trans hshape
        rw [OptionKind.omittedAt_of_misfit (hkind json hleft) hleft hshape
            (hcross json hleft hshape) (hnil json hshape),
          OptionKind.omittedAt_of_misfit (hkind json hleft) hright hshape'
            (fun hmatching => h.options.isCross_eq.trans (hcross json hleft hshape hmatching))
            (hnil json' hshape'),
          (hmisfit json hshape).1, (hmisfit json' hshape').2, ← howner]
        exact .leaveOut _ _ _ _
  · intro json hleft homission hright
    have hshape : clause.fits json = false := by
      by_contra hshape
      rw [OptionKind.omission?, hkind json hleft, hleft] at homission
      simp [hshape] at homission
    rw [OptionKind.omittedAt_of_misfit (hkind json hleft) hleft hshape (hcross json hleft hshape)
        (hnil json hshape), hright, (hmisfit json hshape).1, ← howner]
    exact .leaveOut_pure _ _ _ _

/-! ### Options for which null counts -/

/-- An option for which null counts is given on both sides or on none. -/
theorem counted (h : Record.Alike drops n kind fields fields' record record') (key : String)
    (hclause : kind.clause? key = none) (hnull : kind.countsNull key = true) :
    fields.lookup key = none ∧ fields'.lookup key = none
      ∨ ∃ json json', fields.lookup key = some json ∧ fields'.lookup key = some json'
        ∧ json.AlikeBelow drops n (kind.slot key) json' := by
  cases hleft : fields.lookup key with
  | none =>
      cases hright : fields'.lookup key with
      | none => exact .inl ⟨rfl, rfl⟩
      | some json' =>
          have hcounts := (h.options.right hleft hright).2.2
          cases hnull.symm.trans hcounts
  | some json =>
      cases hright : fields'.lookup key with
      | none =>
          rcases (h.options.left hleft hright).2 with ⟨-, hcounts⟩ | ⟨-, homission⟩
          · cases hnull.symm.trans hcounts
          · exact absurd homission (OptionKind.not_isSome_omission? hclause)
      | some json' =>
          exact .inr ⟨json, json', rfl, rfl, h.small hleft, h.options.both hleft hright⟩

/-- What is done depending on whether an option is given, null included. -/
theorem whenCounted (h : Record.Alike drops n kind fields fields' record record') (key : String)
    (hclause : kind.clause? key = none) (hnull : kind.countsNull key = true)
    {k l : Node → Reading α} {x y : Reading α} (habsent : Agree v v' x y)
    (hboth : ∀ json json', json.AlikeBelow drops n (kind.slot key) json' →
      Agree (json.omitted (kind.slot key) ++ v) (json'.omitted (kind.slot key) ++ v')
        (k (Node.ofJson json)) (l (Node.ofJson json'))) :
    Agree (kind.omittedAt fields key ++ v) (kind.omittedAt fields' key ++ v')
      (match record.given? key with
        | some node => k node
        | none => x)
      (match record'.given? key with
        | some node => l node
        | none => y) := by
  rw [h.left.given?_eq, h.right.given?_eq, OptionKind.omittedAt_of_clause hclause,
    OptionKind.omittedAt_of_clause hclause]
  change Agree _ _
    (match (fields.lookup key).map Node.ofJson with
      | some node => k node
      | none => x)
    (match (fields'.lookup key).map Node.ofJson with
      | some node => l node
      | none => y)
  rcases h.counted key hclause hnull with ⟨hleft, hright⟩ | ⟨json, json', hleft, hright, hjson⟩
  · rw [hleft, hright]
    exact habsent
  · rw [hleft, hright]
    exact hboth json json' hjson

/-- An option that has to be there, null included. -/
theorem requireGiven (h : Record.Alike drops n kind fields fields' record record') (key : String)
    (hclause : kind.clause? key = none) (hnull : kind.countsNull key = true)
    {k l : Node → Reading α}
    (hboth : ∀ json json', json.AlikeBelow drops n (kind.slot key) json' →
      Agree (json.omitted (kind.slot key) ++ v) (json'.omitted (kind.slot key) ++ v')
        (k (Node.ofJson json)) (l (Node.ofJson json'))) :
    Agree (kind.omittedAt fields key ++ v) (kind.omittedAt fields' key ++ v')
      (record.requireGiven key >>= k) (record'.requireGiven key >>= l) := by
  have hbind (record : Record) (k : Node → Reading α) : record.requireGiven key >>= k
      = match record.given? key with
        | some node => k node
        | none => throw (.missing key record.owner) := by
    unfold Record.requireGiven
    cases record.given? key <;> rfl
  rw [hbind, hbind]
  exact h.whenCounted key hclause hnull (.throw _ _) hboth

/-! ### Plain options -/

theorem get?_eq (h : Record.Alike drops n kind fields fields' record record') (key : String)
    (hslot : kind.slot key = .plain) (hclause : kind.clause? key = none) :
    record'.get? key = record.get? key := by
  rw [h.left.get?_eq, h.right.get?_eq]
  have hfound := h.options.found? h.small key
  generalize (Json.obj fields).given? key = found, (Json.obj fields').given? key = found' at hfound
  cases hfound with
  | absent => rfl
  | both _ _ _ halike =>
      have hplain := halike.alike
      rw [hslot] at hplain
      rw [hplain.eq_of_plain]
  | dropped _ _ homission => exact absurd homission (OptionKind.not_isSome_omission? hclause)

theorem json?_eq (h : Record.Alike drops n kind fields fields' record record') (key : String)
    (hslot : kind.slot key = .plain) (hclause : kind.clause? key = none) :
    record'.json? key = record.json? key := by
  rw [Record.json?, Record.json?, h.get?_eq key hslot hclause]

/-- A plain option for which null counts. -/
theorem given?_eq (h : Record.Alike drops n kind fields fields' record record') (key : String)
    (hslot : kind.slot key = .plain) (hclause : kind.clause? key = none)
    (hnull : kind.countsNull key = true) : record'.given? key = record.given? key := by
  rw [h.left.given?_eq, h.right.given?_eq]
  change (fields'.lookup key).map Node.ofJson = (fields.lookup key).map Node.ofJson
  rcases h.counted key hclause hnull with ⟨hleft, hright⟩ | ⟨json, json', hleft, hright, hjson⟩
  · rw [hleft, hright]
  · have hplain := hjson.alike
    rw [hslot] at hplain
    rw [hleft, hright, hplain.eq_of_plain]

section Plain

variable (h : Record.Alike drops n kind fields fields' record record') (key : String)
  (hslot : kind.slot key = .plain) (hclause : kind.clause? key = none)

include h hslot hclause

theorem string? : Agree [] [] (record.string? key) (record'.string? key) := by
  rw [show record'.string? key = record.string? key by
    simp only [Record.string?, Record.optional, h.get?_eq key hslot hclause, h.path_eq]]
  exact Quiet.string? record key

theorem string : Agree [] [] (record.string key) (record'.string key) := by
  rw [show record'.string key = record.string key by
    simp only [Record.string, Record.string?, Record.optional, h.get?_eq key hslot hclause,
      h.path_eq, h.owner_eq]]
  exact Quiet.string record key

theorem strings : Agree [] [] (record.strings key) (record'.strings key) := by
  rw [show record'.strings key = record.strings key by
    simp only [Record.strings, h.json?_eq key hslot hclause, h.path_eq]]
  exact Quiet.strings record key

theorem flag : Agree [] [] (record.flag key) (record'.flag key) := by
  rw [show record'.flag key = record.flag key by
    simp only [Record.flag, h.json?_eq key hslot hclause, h.path_eq]]
  exact Quiet.flag record key

theorem count? : Agree [] [] (record.count? key) (record'.count? key) := by
  rw [show record'.count? key = record.count? key by
    simp only [Record.count?, h.json?_eq key hslot hclause, h.path_eq]]
  exact Quiet.count? record key

theorem named? (α : Type) [Named α] :
    Agree [] [] (record.named? α key) (record'.named? α key) := by
  rw [show record'.named? α key = record.named? α key by
    simp only [Record.named?, Record.optional, h.get?_eq key hslot hclause, h.path_eq]]
  exact Quiet.named? record key α

end Plain

/-! ### Settings -/

theorem agree_decoded (path : String) {x y : Except DecodeError α}
    (h : ∀ a, x = .ok a ↔ y = .ok a) :
    Agree [] [] (Reading.decoded path x) (Reading.decoded path y) := by
  cases x with
  | ok a =>
      rw [(h a).1 rfl]
      exact .pure a
  | error e =>
      cases y with
      | ok a => cases (h a).2 rfl
      | error e' => exact .invalid _ _ _ _

theorem settings? (h : Record.Alike drops n kind fields fields' record record') (key : String)
    (hslot : kind.slot key = .settings) (hclause : kind.clause? key = none) :
    Agree [] [] (record.settings? key) (record'.settings? key) := by
  unfold Record.settings? Record.optional
  rw [h.path_eq]
  refine h.whenGiven key (fun _ _ => .pure none) ?_ ?_
  · intro json json' _ _ _ halike
    rw [hslot] at halike
    simp only [Node.json_ofJson]
    exact (agree_decoded _ (halike.alike.decode_eq rfl)).map some
  · intro json _ homission
    exact absurd homission (OptionKind.not_isSome_omission? hclause)

end Record.Alike

/-! ## Records of option objects -/

section Records

variable {α : Type} {drops : Bool} {n : Nat} {kind : OptionKind}
  {fields fields' : List (String × Json)} {w w' : List Omission}

theorem Record.ofFields_eq_pure (owner : String) {known : List String}
    (h : ∀ key ∉ known, fields.lookup key = none) :
    Record.ofFields owner known (Json.foldFields Node.algebra fields)
      = pure ⟨owner, Json.foldFields Node.algebra fields⟩ := by
  have hknown : ∀ x ∈ Json.foldFields Node.algebra fields, x.1 ∈ known := by
    intro x hx
    by_contra hunknown
    have habsent := lookup_foldFields Node.algebra x.1 fields
    rw [h x.1 hunknown, Option.map_none, List.lookup_eq_none_iff] at habsent
    simpa using habsent x hx
  rw [Record.ofFields, List.find?_eq_none.2]
  intro x hx
  simpa using hknown x hx

theorem Record.fails_ofFields (owner : String) {known : List String} {key : String} {json : Json}
    (hkey : key ∉ known) (h : fields.lookup key = some json) :
    Fails (Record.ofFields owner known (Json.foldFields Node.algebra fields)) := by
  unfold Record.ofFields
  split
  · exact .throw _
  · next hfind =>
      have hmem : (key, Node.ofJson json) ∈ Json.foldFields Node.algebra fields := by
        rw [foldFields_algebra]
        exact List.mem_map.2 ⟨(key, json), mem_of_lookup h, rfl⟩
      have hknown := List.find?_eq_none.1 hfind _ hmem
      exact absurd (by simpa using hkey) hknown

/-- The records of alike options: both have an unknown key, or both are read on. -/
theorem OptionsAlike.ofFields (h : OptionsAlike drops kind fields fields')
    (hsmall : ∀ {key json}, fields.lookup key = some json → sizeOf json < n) (owner : String)
    {k l : Record → Reading α}
    (hk : ∀ record record', record.owner = owner →
      Record.Alike drops n kind fields fields' record record' → Agree w w' (k record) (l record')) :
    Agree w w' (Record.ofFields owner kind.keys (Json.foldFields Node.algebra fields) >>= k)
      (Record.ofFields owner kind.keys (Json.foldFields Node.algebra fields') >>= l) := by
  by_cases hknown : ∀ key ∉ kind.keys, fields.lookup key = none
  · have hknown' : ∀ key ∉ kind.keys, fields'.lookup key = none := by
      intro key hkey
      cases hright : fields'.lookup key with
      | none => rfl
      | some json' => exact absurd (h.right (hknown key hkey) hright).1 hkey
    rw [Record.ofFields_eq_pure owner hknown, Record.ofFields_eq_pure owner hknown', pure_bind,
      pure_bind]
    exact hk _ _ rfl ⟨rfl, ⟨fields, rfl, rfl⟩, ⟨fields', rfl, rfl⟩, h, hknown _, hsmall⟩
  · push Not at hknown
    obtain ⟨key, hkey, hgiven⟩ := hknown
    obtain ⟨json, hleft⟩ := Option.ne_none_iff_exists'.1 hgiven
    cases hright : fields'.lookup key with
    | none => exact absurd (h.left hleft hright).1 hkey
    | some json' =>
        exact .fails ((Record.fails_ofFields owner hkey hleft).bind k)
          ((Record.fails_ofFields owner hkey hright).bind l)

theorem sizeOf_lt_of_lookup {key : String} {json : Json} (h : fields.lookup key = some json) :
    sizeOf json < sizeOf (Json.obj fields) :=
  Json.sizeOf_lt_of_mem_parts (List.mem_map.2 ⟨(key, json), mem_of_lookup h, rfl⟩)

/-- The record of an option object, and what is read from it. -/
theorem Json.AlikeBelow.record {json json' : Json}
    (h : json.AlikeBelow drops n (.options kind) json') (owner : String) {k l : Record → Reading α}
    (hk : ∀ fields fields' record record', record.owner = owner →
      Record.Alike drops n kind fields fields' record record' →
        Agree ((kind.order fields).flatMap (kind.omittedAt fields))
          ((kind.order fields').flatMap (kind.omittedAt fields')) (k record) (l record')) :
    Agree (json.omitted (.options kind)) (json'.omitted (.options kind))
      (Record.ofNode owner kind.keys (Node.ofJson json) >>= k)
      (Record.ofNode owner kind.keys (Node.ofJson json') >>= l) := by
  obtain ⟨hsmall, halike⟩ := h
  cases json with
  | obj fields =>
      obtain ⟨fields', rfl, hoptions⟩ := halike.options_inv rfl rfl
      rw [Json.omitted_options rfl, Json.omitted_options rfl]
      refine hoptions.ofFields ?_ owner (hk fields fields')
      exact fun hlookup => Nat.lt_trans (sizeOf_lt_of_lookup hlookup) hsmall
  | arr items =>
      obtain ⟨items', rfl, -⟩ := halike.arr_inv
      exact .fails (Fails.bind (.invalid _ _) k) (Fails.bind (.invalid _ _) l)
  | _ =>
      rw [halike.eq_of_isScalar rfl]
      exact .fails (Fails.bind (.invalid _ _) k) (Fails.bind (.invalid _ _) l)

/-- An option that is an option object itself. -/
theorem Record.Alike.whenOptions {record record' : Record}
    (h : Record.Alike drops n kind fields fields' record record') (key : String) (part : OptionKind)
    (hslot : kind.slot key = .options part) (hclause : kind.clause? key = none) (owner : String)
    {a : α} {k l : Record → Reading α}
    (hk : ∀ fields fields' record record', Record.Alike drops n part fields fields' record record' →
      Agree ((part.order fields).flatMap (part.omittedAt fields))
        ((part.order fields').flatMap (part.omittedAt fields')) (k record) (l record')) :
    Agree (kind.omittedAt fields key) (kind.omittedAt fields' key)
      (match record.get? key with
        | some node => Record.ofNode owner part.keys node >>= k
        | none => pure a)
      (match record'.get? key with
        | some node => Record.ofNode owner part.keys node >>= l
        | none => pure a) := by
  refine h.whenLast key hclause (.pure a) fun json json' hjson => ?_
  rw [hslot] at hjson ⊢
  exact hjson.record owner fun fields fields' record record' _ => hk _ _ record record'

end Records

end QueryTree

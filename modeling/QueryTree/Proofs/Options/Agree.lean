import Mathlib.Data.List.Forall2
import QueryTree.Tree.Reading.Statement

/-!
# Readings that agree

Two readings agree if both fail, or both give the same value. What each of them leaves out is kept
beside them, so that it adds up along a sequence of steps.

* `Reading.Gives`, `Reading.Fails`: what a reading does, whatever was left out before it.
* `Reading.Agree`: two readings, each with what it leaves out.
* `Agree.bind`, `Agree.map`, `Agree.mapM`: readings made of readings that agree.
* `Quiet`: readings that leave nothing out; the plain options are read so.
-/

namespace QueryTree.Reading

variable {α β : Type} {v v' w w' : List Omission}

/-- A reading gives a value and leaves clauses out. -/
def Gives (omitted : List Omission) (a : α) (x : Reading α) : Prop :=
  ∀ s, x s = .ok (a, s ++ omitted)

/-- A reading ends in an error. -/
def Fails (x : Reading α) : Prop :=
  ∀ s, ∃ e, x s = .error e

/-- Both readings give the same value, the one leaving out `w` and the other `w'`, or both fail. -/
def Agree (w w' : List Omission) (x y : Reading α) : Prop :=
  (∃ a, Gives w a x ∧ Gives w' a y) ∨ Fails x ∧ Fails y

/-! ## Readings that give a value or fail -/

theorem Gives.pure (a : α) : Gives [] a (Pure.pure a) := by
  intro s
  rw [List.append_nil]
  rfl

theorem Gives.leaveOut (owner key expected : String) (a : α) :
    Gives [⟨owner, key, expected⟩] a (Reading.leaveOut owner key expected a) :=
  fun _ => rfl

theorem Gives.bind {x : Reading α} {a : α} {k : α → Reading β} {b : β} (hx : Gives w a x)
    (hk : Gives v b (k a)) : Gives (w ++ v) b (x >>= k) := by
  intro s
  change (x s >>= fun r => k r.1 r.2) = _
  rw [hx s, ← List.append_assoc]
  exact hk (s ++ w)

theorem Fails.throw (e : CompileError) : Fails (MonadExcept.throw e : Reading α) :=
  fun _ => ⟨e, rfl⟩

theorem Fails.invalid (field : String) (fault : Fault) :
    Fails (Reading.invalid field fault : Reading α) :=
  .throw _

theorem Fails.bind {x : Reading α} (hx : Fails x) (k : α → Reading β) : Fails (x >>= k) := by
  intro s
  obtain ⟨e, he⟩ := hx s
  change ∃ e, (x s >>= fun r => k r.1 r.2) = .error e
  rw [he]
  exact ⟨e, rfl⟩

/-- A reading fails if all that follows its first step does. -/
theorem Fails.after (x : Reading α) {k : α → Reading β} (hk : ∀ a, Fails (k a)) :
    Fails (x >>= k) := by
  intro s
  change ∃ e, (x s >>= fun r => k r.1 r.2) = .error e
  cases x s with
  | ok r => exact hk r.1 r.2
  | error e => exact ⟨e, rfl⟩

theorem Gives.bind_fails {x : Reading α} {a : α} {k : α → Reading β} (hx : Gives w a x)
    (hk : Fails (k a)) : Fails (x >>= k) := by
  intro s
  change ∃ e, (x s >>= fun r => k r.1 r.2) = .error e
  rw [hx s]
  exact hk (s ++ w)

/-! ## Readings that agree -/

namespace Agree

theorem pure (a : α) : Agree [] [] (Pure.pure a) (Pure.pure a) :=
  .inl ⟨a, .pure a, .pure a⟩

theorem fails {x y : Reading α} (hx : Fails x) (hy : Fails y) : Agree w w' x y :=
  .inr ⟨hx, hy⟩

theorem throw (e e' : CompileError) :
    Agree w w' (MonadExcept.throw e : Reading α) (MonadExcept.throw e') :=
  fails (.throw e) (.throw e')

theorem invalid (field field' : String) (fault fault' : Fault) :
    Agree w w' (Reading.invalid field fault : Reading α) (Reading.invalid field' fault') :=
  throw _ _

theorem leaveOut (owner key expected : String) (a : α) :
    Agree [⟨owner, key, expected⟩] [⟨owner, key, expected⟩]
      (Reading.leaveOut owner key expected a) (Reading.leaveOut owner key expected a) :=
  .inl ⟨a, .leaveOut owner key expected a, .leaveOut owner key expected a⟩

/-- A clause that is left out on the one side and absent on the other. -/
theorem leaveOut_pure (owner key expected : String) (a : α) :
    Agree [⟨owner, key, expected⟩] [] (Reading.leaveOut owner key expected a) (Pure.pure a) :=
  .inl ⟨a, .leaveOut owner key expected a, .pure a⟩

theorem bind {x y : Reading α} (hx : Agree w w' x y) {k l : α → Reading β}
    (hk : ∀ a, Agree v v' (k a) (l a)) : Agree (w ++ v) (w' ++ v') (x >>= k) (y >>= l) := by
  rcases hx with ⟨a, hx, hy⟩ | ⟨hx, hy⟩
  · rcases hk a with ⟨b, hb, hb'⟩ | ⟨hb, hb'⟩
    · exact .inl ⟨b, hx.bind hb, hy.bind hb'⟩
    · exact .inr ⟨hx.bind_fails hb, hy.bind_fails hb'⟩
  · exact .inr ⟨hx.bind k, hy.bind l⟩

/-- A last step that leaves nothing out. -/
theorem ending {x y : Reading α} (hx : Agree w w' x y) {k l : α → Reading β}
    (hk : ∀ a, Agree [] [] (k a) (l a)) : Agree w w' (x >>= k) (y >>= l) := by
  simpa using hx.bind hk

theorem map {x y : Reading α} (hx : Agree w w' x y) (f : α → β) :
    Agree w w' (f <$> x) (f <$> y) := by
  rw [← bind_pure_comp, ← bind_pure_comp]
  exact hx.ending fun a => pure (f a)

/-- What is left out at two groups of options, one after the other. -/
theorem append {ι : Type} {omitted omitted' : ι → List Omission} (keys keys' : List ι)
    {x y : Reading α}
    (h : Agree (keys.flatMap omitted ++ keys'.flatMap omitted)
      (keys.flatMap omitted' ++ keys'.flatMap omitted') x y) :
    Agree ((keys ++ keys').flatMap omitted) ((keys ++ keys').flatMap omitted') x y := by
  rwa [List.flatMap_append, List.flatMap_append]

/-- What is read from two lists, item by item. -/
theorem mapM {ι : Type} {R : ι → ι → Prop} {items items' : List ι}
    (hitems : List.Forall₂ R items items') {read : ι → Reading α} {omitted : ι → List Omission}
    (h : ∀ i i', R i i' → Agree (omitted i) (omitted i') (read i) (read i')) :
    Agree (items.flatMap omitted) (items'.flatMap omitted) (items.mapM read)
      (items'.mapM read) := by
  induction hitems with
  | nil => exact pure []
  | cons hi _ ih =>
      rw [List.mapM_cons, List.mapM_cons]
      exact (h _ _ hi).bind fun a => ih.ending fun as => pure (a :: as)

/-- The same for readings that leave nothing out. -/
theorem each {ι : Type} {R : ι → ι → Prop} {items items' : List ι}
    (hitems : List.Forall₂ R items items') {read : ι → Reading α}
    (h : ∀ i i', R i i' → Agree [] [] (read i) (read i')) :
    Agree [] [] (items.mapM read) (items'.mapM read) := by
  have hnil (items : List ι) : items.flatMap (fun _ => ([] : List Omission)) = [] := by simp
  simpa only [hnil] using mapM hitems h

end Agree

/-! ## Readings that leave nothing out -/

/-- A reading that leaves nothing out. -/
abbrev Quiet (x : Reading α) : Prop :=
  Agree [] [] x x

namespace Quiet

theorem mapM {ι : Type} (items : List ι) {read : ι → Reading α} (h : ∀ i, Quiet (read i)) :
    Quiet (items.mapM read) := by
  refine Agree.each (R := Eq) (List.forall₂_refl items) ?_
  rintro i _ rfl
  exact h i

theorem decoded (field : String) (result : Except DecodeError α) :
    Quiet (Reading.decoded field result) := by
  cases result with
  | ok a => exact .pure a
  | error e => exact .invalid _ _ _ _

variable (record : Record) (key : String)

theorem optional {read : Node → Reading α} (h : ∀ node, Quiet (read node)) :
    Quiet (record.optional key read) := by
  unfold Record.optional
  split
  · next node _ => exact (h node).map some
  · exact .pure none

theorem string? : Quiet (record.string? key) := by
  refine optional record key fun node => ?_
  split
  · exact .pure _
  · exact .invalid _ _ _ _

theorem string : Quiet (record.string key) := by
  refine (string? record key).bind fun text => ?_
  cases text with
  | some s => exact .pure s
  | none => exact .throw _ _

theorem strings : Quiet (record.strings key) := by
  unfold Record.strings
  split
  · refine mapM _ fun json => ?_
    split
    · exact .pure _
    · exact .invalid _ _ _ _
  · exact .pure _
  · exact .invalid _ _ _ _
  · exact .pure _

theorem flag : Quiet (record.flag key) := by
  unfold Record.flag
  split
  · exact .pure _
  · exact .invalid _ _ _ _
  · exact .pure _

theorem count? : Quiet (record.count? key) := by
  unfold Record.count?
  split
  · split
    · exact .pure _
    · exact .invalid _ _ _ _
  · split
    · split
      · exact .pure _
      · exact .invalid _ _ _ _
    · exact .invalid _ _ _ _
  · exact .invalid _ _ _ _
  · exact .pure _

theorem named? (α : Type) [Named α] : Quiet (record.named? α key) :=
  optional record key fun _ => decoded _ _

theorem checkColumn (position : String) : Quiet (checkColumn key position) := by
  unfold QueryTree.checkColumn
  split
  · exact .pure ()
  · exact .throw _ _

theorem readSharedColumn (json : Json) : Quiet (readSharedColumn json) := by
  cases json with
  | str name => exact (checkColumn name "join.using").bind fun _ => .pure name
  | _ => exact .invalid _ _ _ _

theorem readTrim : Quiet (readTrim record) := by
  unfold QueryTree.readTrim
  split
  · exact .pure _
  · split
    · exact .pure _
    · exact .invalid _ _ _ _
  · exact .pure _
  · exact .pure _
  · exact .invalid _ _ _ _

theorem readRounding : Quiet (readRounding record) := by
  unfold QueryTree.readRounding
  split
  · split
    · exact .pure _
    · exact .invalid _ _ _ _
  · split
    · exact .pure _
    · exact .invalid _ _ _ _
  · exact .invalid _ _ _ _
  · exact .pure _

theorem readInterval : Quiet (readInterval record key) := by
  unfold QueryTree.readInterval
  split
  · split
    · exact .pure _
    · exact .throw _ _
  · exact .pure _

end Quiet

end QueryTree.Reading

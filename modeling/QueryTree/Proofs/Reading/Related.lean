import QueryTree.Tree.Reading.Statement

/-!
# Related readings

Two readings are related if they end in the same error, or give related values and leave the same
clauses out.

* `Reading.Related`: related readings, for a relation of values.
* `Reading.Becomes`: the values of the one are those of the other under a function.
* `Related.bind`, `Related.bindEq`, `Related.bindTo`: readings made of related readings.
* `Related.mapM`: lists of readings.
-/

namespace QueryTree.Reading

variable {α β γ δ : Type} {R : α → β → Prop} {S : γ → δ → Prop}

/-- The results of two readings: the same error, or related values after the same omissions. -/
inductive Meets (R : α → β → Prop) :
    Except CompileError (α × List Omission) → Except CompileError (β × List Omission) → Prop
  | ok {a : α} {b : β} (s : List Omission) : R a b → Meets R (.ok (a, s)) (.ok (b, s))
  | error (e : CompileError) : Meets R (.error e) (.error e)

theorem Meets.symm {x : Except CompileError (α × List Omission)}
    {y : Except CompileError (β × List Omission)} (h : Meets R x y) :
    Meets (fun b a => R a b) y x := by
  cases h with
  | ok s hab => exact .ok s hab
  | error e => exact .error e

theorem Meets.trans {T : α → γ → Prop} {U : β → γ → Prop}
    {x : Except CompileError (α × List Omission)} {y : Except CompileError (β × List Omission)}
    {z : Except CompileError (γ × List Omission)} (hxy : Meets R x y) (hyz : Meets U y z)
    (h : ∀ a b c, R a b → U b c → T a c) : Meets T x z := by
  cases hxy with
  | ok s hab =>
      cases hyz with
      | ok _ hbc => exact .ok s (h _ _ _ hab hbc)
  | error e =>
      cases hyz
      exact .error e

theorem Meets.eq {x y : Except CompileError (α × List Omission)} (h : Meets Eq x y) : x = y := by
  cases h with
  | ok s hab => rw [hab]
  | error e => rfl

/-- Readings that give related results after the same omissions. -/
def Related (R : α → β → Prop) (x : Reading α) (y : Reading β) : Prop :=
  ∀ s, Meets R (x s) (y s)

/-- What the one reading gives becomes what the other gives. -/
abbrev Becomes (f : α → β) : Reading α → Reading β → Prop :=
  Related fun a b => b = f a

namespace Related

theorem pure {a : α} {b : β} (h : R a b) : Related R (Pure.pure a) (Pure.pure b) :=
  fun s => .ok s h

theorem throw (e : CompileError) : Related R (MonadExcept.throw e) (MonadExcept.throw e) :=
  fun _ => .error e

theorem invalid (field : String) (fault : Fault) :
    Related R (Reading.invalid field fault) (Reading.invalid field fault) :=
  throw _

theorem leaveOut (owner key expected : String) {a : α} {b : β} (h : R a b) :
    Related R (Reading.leaveOut owner key expected a) (Reading.leaveOut owner key expected b) :=
  fun _ => .ok _ h

theorem bind {x : Reading α} {y : Reading β} (hx : Related R x y) {k : α → Reading γ}
    {l : β → Reading δ} (hk : ∀ a b, R a b → Related S (k a) (l b)) :
    Related S (x >>= k) (y >>= l) := by
  intro s
  change Meets S (x s >>= fun r => k r.1 r.2) (y s >>= fun r => l r.1 r.2)
  have hs := hx s
  generalize x s = u, y s = v at hs
  cases hs with
  | ok s hab => exact hk _ _ hab s
  | error e => exact .error e

theorem refl {R : α → α → Prop} (hR : ∀ a, R a a) (x : Reading α) : Related R x x := by
  intro s
  cases x s with
  | ok r => exact .ok r.2 (hR r.1)
  | error e => exact .error e

/-- The first reading is the same. -/
theorem bindEq {x y : Reading α} (hx : y = x) {k : α → Reading γ} {l : α → Reading δ}
    (hk : ∀ a, Related S (k a) (l a)) : Related S (x >>= k) (y >>= l) := by
  subst hx
  refine (refl Eq.refl y).bind ?_
  rintro a _ rfl
  exact hk a

/-- What the first reading gives becomes something else. -/
theorem bindTo {f : α → β} {x : Reading α} {y : Reading β} (hx : Becomes f x y)
    {k : α → Reading γ} {l : β → Reading δ} (hk : ∀ a, Related S (k a) (l (f a))) :
    Related S (x >>= k) (y >>= l) := by
  refine hx.bind ?_
  rintro a _ rfl
  exact hk a

theorem map {x : Reading α} {y : Reading β} (hx : Related R x y) {f : α → γ} {g : β → δ}
    (h : ∀ a b, R a b → S (f a) (g b)) : Related S (f <$> x) (g <$> y) := by
  rw [← bind_pure_comp, ← bind_pure_comp]
  exact hx.bind fun a b hab => .pure (h a b hab)

/-- A function of what is read, before and after. -/
theorem mapTo {f : α → β} {x : Reading α} {y : Reading β} (hx : Becomes f x y) {g : α → γ}
    {h : β → δ} {f' : γ → δ} (hf : ∀ a, h (f a) = f' (g a)) :
    Becomes f' (g <$> x) (h <$> y) := by
  refine hx.map ?_
  rintro a _ rfl
  exact hf a

/-- The same function in another form. -/
theorem congr {f g : α → β} {x : Reading α} {y : Reading β} (h : Becomes f x y)
    (hfg : ∀ a, f a = g a) : Becomes g x y := by
  obtain rfl : f = g := funext hfg
  exact h

theorem mapM {ι : Type} (items : List ι) {read : ι → Reading α} {read' : ι → Reading β}
    {f : α → β} (h : ∀ i ∈ items, Becomes f (read i) (read' i)) :
    Becomes (List.map f) (items.mapM read) (items.mapM read') := by
  induction items with
  | nil => exact .pure rfl
  | cons i items ih =>
      rw [List.mapM_cons, List.mapM_cons]
      refine bindTo (h i List.mem_cons_self) fun a => ?_
      refine bindTo (ih fun j hj => h j (List.mem_cons_of_mem i hj)) fun as => ?_
      exact .pure rfl

end Related

end QueryTree.Reading

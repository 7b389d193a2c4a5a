import QueryTree.Tree.Reading.Node

/-!
# Values inside a value

* `Json.foldItems_eq_map`, `Json.foldFields_eq_map`: folds over items and fields.
* `foldItems_algebra`, `foldFields_algebra`: the nodes of items and fields.
* `Json.parts`: the values that a value is made of.
* `Json.Inside`: what holds for all values inside a value; `Json.inside_of_step` and
  `Json.of_parts` say that it is enough to pass from the parts to the whole.
-/

namespace QueryTree

/-! ## Folds -/

theorem Json.foldItems_eq_map {α : Type} (alg : Algebra α) (items : List Json) :
    foldItems alg items = items.map (fold alg) := by
  induction items with
  | nil => rfl
  | cons json items ih => rw [foldItems, ih, List.map_cons]

theorem Json.foldFields_eq_map {α : Type} (alg : Algebra α) (fields : List (String × Json)) :
    foldFields alg fields = fields.map fun x => (x.1, fold alg x.2) := by
  induction fields with
  | nil => rfl
  | cons field fields ih => rw [foldFields, ih, List.map_cons]

/-! ## Nodes -/

theorem Node.json_ofJson (json : Json) : (Node.ofJson json).json = json := by
  cases json <;> rfl

theorem foldItems_algebra (items : List Json) :
    Json.foldItems Node.algebra items = items.map Node.ofJson :=
  Json.foldItems_eq_map Node.algebra items

theorem foldFields_algebra (fields : List (String × Json)) :
    Json.foldFields Node.algebra fields = fields.map fun x => (x.1, Node.ofJson x.2) :=
  Json.foldFields_eq_map Node.algebra fields

theorem any_foldFields (name : String) (fields : List (String × Json)) :
    ((Json.foldFields Node.algebra fields).any fun (key, _) => key == name)
      = (fields.map Prod.fst).contains name := by
  induction fields with
  | nil => rfl
  | cons field fields ih =>
      rw [Json.foldFields, List.any_cons, ih, List.map_cons, List.contains_cons, Bool.beq_comm]

/-! ## Parts -/

/-- The values that a value is made of. -/
def Json.parts : Json → List Json
  | .arr items => items
  | .obj fields => fields.map Prod.snd
  | _ => []

/-- A property of a value and of all values inside it. -/
inductive Json.Inside (C : Json → Prop) : Json → Prop
  | intro {json : Json} : C json → (∀ part ∈ json.parts, Inside C part) → Inside C json

theorem Json.sizeOf_lt_of_mem_parts {part json : Json} (h : part ∈ json.parts) :
    sizeOf part < sizeOf json := by
  cases json with
  | arr items =>
      have hlt : sizeOf part < sizeOf items := List.sizeOf_lt_of_mem h
      simp only [Json.arr.sizeOf_spec]
      omega
  | obj fields =>
      obtain ⟨field, hmem, rfl⟩ := List.mem_map.1 h
      have hlt := List.sizeOf_lt_of_mem hmem
      obtain ⟨key, value⟩ := field
      simp only [Json.obj.sizeOf_spec, Prod.mk.sizeOf_spec] at hlt ⊢
      omega
  | _ => cases h

/-- What passes from the parts to the whole holds for all values inside a value. -/
theorem Json.inside_of_step {C : Json → Prop}
    (step : ∀ json : Json, (∀ part ∈ json.parts, part.Inside C) → C json) (json : Json) :
    json.Inside C := by
  have hparts : ∀ part ∈ json.parts, part.Inside C := by
    intro part hpart
    have hlt := sizeOf_lt_of_mem_parts hpart
    exact inside_of_step step part
  exact .intro (step json hparts) hparts
termination_by sizeOf json

/-- Induction over the values inside a value. -/
theorem Json.of_parts {C : Json → Prop}
    (step : ∀ json : Json, (∀ part ∈ json.parts, C part) → C json) (json : Json) : C json := by
  have hinside : json.Inside C := by
    refine inside_of_step (fun json hparts => step json fun part hpart => ?_) json
    obtain ⟨hpart, -⟩ := hparts part hpart
    exact hpart
  obtain ⟨hjson, -⟩ := hinside
  exact hjson

end QueryTree

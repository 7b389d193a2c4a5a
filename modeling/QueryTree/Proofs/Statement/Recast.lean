import QueryTree.Proofs.Cipher.Policy
import QueryTree.Proofs.Cipher.Reading
import QueryTree.Proofs.Cipher.Tree
import QueryTree.Proofs.Statement.Outcome

/-!
# Descriptions under two recastings

What is written for a description with its settings recast in two ways is related wherever the two
recastings are.

* `Config.recast`, `Json.recastStatement`: models and descriptions with other settings.
* `Config.meets_prepared`: the fragments under two recastings.
-/

namespace QueryTree

open Reading (Meets)

/-- A configuration with other settings of the model. -/
def Config.recast (config : Config) (p : Recasting) : Config :=
  { config with encryption := p.aroundOf config.encryption }

theorem Config.scope_recast (config : Config) (p : Recasting) :
    (config.recast p).scope = config.scope.recast p := by
  simp [Config.scope, Config.recast, Scope.outermost, Scope.recast, Layers.recast,
    Recasting.aroundOf]

/-- A whole description with other settings. -/
def Json.recastStatement (P : Policy) (json : Json) : Json :=
  json.recast P (.options none)

variable {P Q : Policy} {p q : Recasting} {R : Fragment → Fragment → Prop}

/-- Two recastings of one tree. -/
theorem meets_recast {α : Type} {x x' x'' : Reading α} {f g : α → α} (hf : Reading.Becomes f x x')
    (hg : Reading.Becomes g x x'') {k l : α → Fragment} (h : ∀ a, R (k (f a)) (l (g a))) :
    Meets R ((x' []).map fun (tree, omissions) => (k tree, omissions))
      ((x'' []).map fun (tree, omissions) => (l tree, omissions)) := by
  have hf := hf []
  have hg := hg []
  generalize x [] = u, x' [] = v, x'' [] = w at hf hg
  cases hf with
  | error e =>
      cases hg
      exact .error e
  | ok s hb =>
      cases hg with
      | ok _ hc =>
          subst hb hc
          exact .ok s (h _)

/-- **What is written for a description under two recastings is related.** -/
theorem Config.meets_prepared (hP : P.Realizes p) (hQ : Q.Realizes q) (config : Config)
    (h : p.Respected q config.dialect config.encryption R) (kind : StatementKind) (json : Json) :
    Meets R ((config.recast p).prepared kind (json.recastStatement P))
      ((config.recast q).prepared kind (json.recastStatement Q)) := by
  have hs : config.scope.Under config.dialect config.encryption := ⟨rfl, rfl⟩
  cases kind with
  | select =>
      refine meets_recast (becomes_readSelectStatement hP json)
        (becomes_readSelectStatement hQ json) fun query => ?_
      rw [Config.scope_recast, Config.scope_recast]
      exact query.related h hs .none
  | write =>
      refine meets_recast (k := fun write => write.fragment (config.recast p).scope)
        (l := fun write => write.fragment (config.recast q).scope) (becomes_readWrite hP json)
        (becomes_readWrite hQ json) fun write => ?_
      rw [Config.scope_recast, Config.scope_recast]
      exact write.related h hs
  | delete =>
      refine meets_recast
        (k := fun delete => delete.fragment config.safeMode (config.recast p).scope)
        (l := fun delete => delete.fragment config.safeMode (config.recast q).scope)
        (becomes_readDelete hP json) (becomes_readDelete hQ json) fun delete => ?_
      rw [Config.scope_recast, Config.scope_recast]
      exact delete.related h hs config.safeMode

/-- A configuration under settings that are kept is the configuration. -/
theorem Config.recast_keep (config : Config) : config.recast .keep = config := by
  rw [Config.recast, Recasting.aroundOf_keep]

theorem Config.recast_inactive (config : Config) : config.recast .inactive = config :=
  config.recast_keep

theorem Json.recastStatement_keep (json : Json) : json.recastStatement .keep = json :=
  json.recast_keep (.options none)

end QueryTree

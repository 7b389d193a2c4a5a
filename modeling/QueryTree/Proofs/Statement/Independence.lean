import QueryTree.Proofs.Binding.Shift
import QueryTree.Proofs.Emission.Tree

/-!
# Parts compile on their own

What was bound before a part of a statement has no bearing on how the part is compiled, apart from
the block mode in force and the numbers of its placeholders.

* `Subject`, `Part`: what conditions are about, and what can be compiled on its own.
* `Part.phrase_fragment`: each part is a phrase of the dialect of its scope.
* `Part.sql_after`: compiling a part after earlier values against compiling it after none.
-/

namespace QueryTree

/-- What the comparisons of a condition are about. -/
inductive Subject where
  | none
  | column (key : String)
  | expression (core : Core)

/-- What a comparison writes on its left side. -/
def Subject.fragment? (scope : Scope) : Subject → Option Fragment
  | .none => Option.none
  | .column key => some (Token.column scope key)
  | .expression core => some (core.fragment scope)

/-- The parts of statements, and whole statements, that can be compiled on their own. -/
inductive Part where
  | expression (place : Place) (e : Expr)
  /-- Entries that are joined, or grouped as the operand of a comparison is. -/
  | condition (subject : Subject) (junction : Junction) (grouped : Bool) (entries : Condition)
  | wrapper (w : Wrapper)
  /-- A wrapper with its alias. -/
  | item (w : Wrapper)
  | join (parent : String) (tree : Join)
  | select (tree : Query)
  | write (tree : Write)
  | delete (safeMode : Bool) (tree : Delete)

namespace Part

/-- The fragment of a part. -/
def fragment (scope : Scope) : Part → Fragment
  | .expression place e => e.fragment place scope
  | .condition subject junction grouped entries =>
    let parts := entryFragments (subject.fragment? scope) junction scope entries
    if grouped then junction.group parts else junction.chain parts
  | .wrapper w => w.fragment scope
  | .item w => aliased w.alias? (w.fragment scope)
  | .join parent tree => tree.fragment parent scope
  | .select tree => tree.fragment scope none
  | .write tree => tree.fragment scope
  | .delete safeMode tree => tree.fragment safeMode scope

theorem phrase_subject (scope : Scope) (subject : Subject) :
    ∀ f ∈ subject.fragment? scope, Phrase scope.dialect f := by
  cases subject with
  | none => exact phrase_of_mem_none
  | column key => exact phrase_of_mem_some (phrase_column rfl key)
  | expression core => exact phrase_of_mem_some (core.phrase_fragment rfl)

/-- Each part is a phrase of the dialect of its scope. -/
theorem phrase_fragment (scope : Scope) (part : Part) :
    Phrase scope.dialect (part.fragment scope) := by
  have hd : scope.dialect = scope.dialect := rfl
  cases part with
  | expression place e => exact e.phrase_fragment hd place
  | condition subject junction grouped entries =>
      have hparts := phrases_entryFragments hd junction (phrase_subject scope subject) entries
      simp only [fragment]
      split
      · exact phrase_group junction hparts
      · exact phrase_chain junction hparts
  | wrapper w => exact w.phrase_fragment hd
  | item w => exact phrase_aliased w.alias? (w.phrase_fragment hd)
  | join parent tree => exact tree.phrase_fragment hd parent
  | select tree => exact tree.phrase_fragment hd (by simp)
  | write tree => exact tree.phrase_fragment hd
  | delete safeMode tree => exact tree.phrase_fragment safeMode hd

/-- **A part compiles the same way whatever was bound before it.** Compiled after `earlier`, or
after nothing but under the same block mode, it fails with the same error, or else it succeeds:
under the same block mode afterwards, with the new values after the earlier ones, and with a text
that is the same up to the numbers of its placeholders, which are moved on by those in use. -/
theorem sql_after (part : Part) (scope : Scope) (earlier : Bindings) :
    (∃ e b b', (part.fragment scope).sql scope.dialect { mode := earlier.mode } = (.error e, b)
      ∧ (part.fragment scope).sql scope.dialect earlier = (.error e, b'))
    ∨ ∃ text text' b,
      (part.fragment scope).sql scope.dialect { mode := earlier.mode } = (.ok text, b)
        ∧ (part.fragment scope).sql scope.dialect earlier
          = (.ok text', ⟨earlier.index + b.index, earlier.values ++ b.values, b.mode⟩)
        ∧ renumber? scope.dialect earlier.index text = some text'
        ∧ (scope.dialect.isPositional = true → text' = text) := by
  have hphrase := phrase_fragment scope part
  have hafter := Fragment.run_after hphrase.plain { mode := earlier.mode } earlier
  have hearlier : ({ mode := earlier.mode } : Bindings).after earlier = earlier := by
    simp [Bindings.after]
  rw [hearlier] at hafter
  simp only [Fragment.sql]
  cases hrun : (part.fragment scope).run scope.dialect { mode := earlier.mode } with
  | mk r b =>
      rw [hrun] at hafter
      rw [hafter]
      cases r with
      | error e => exact .inl ⟨e, b, b.after earlier, rfl, rfl⟩
      | ok ts =>
          have htidy : Tidy scope.dialect ts := hphrase.tidy hrun
          exact .inr ⟨_, _, b, rfl, rfl, renumber?_render htidy _, fun hd => render_shift hd ts _⟩

end Part

end QueryTree

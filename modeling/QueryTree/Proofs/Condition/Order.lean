import QueryTree.Proofs.Binding.Content
import QueryTree.Proofs.Binding.Trace
import QueryTree.Proofs.Condition.Predicate

/-!
# The order of values in a condition

The values of a condition about a fragment are listed as they stand in the text, unless an operand
is out of order itself, or a value wrapper has to be equal to the fragment and both bind something:
the wrapper is bound first and written last.

* `Fragment.InOrder`: the placeholders of a fragment follow its values.
* `operandsOf`, `equatedOf`: what is written beside the fragment that a condition is about, and
  which of it has to be equal to the fragment.
* `Fragment.About`: what these say about errors and about the order.
* `Entry.about`: the conditions about a fragment.
* `inOrder_compared`: when a condition about a fragment in order is in order.
-/

namespace QueryTree

open Fragment (words spaced parens call operated commas)

/-! ## Fragments in order -/

namespace Fragment

/-- The fragment can be bound after `b`, and its placeholders follow its values. -/
def InOrder (dialect : Dialect) (f : Fragment) (b : Bindings) : Prop :=
  ∃ marks stored mode, Traces dialect f b.index b.mode marks stored mode ∧ placed marks = stored

variable {dialect : Dialect} {f : Fragment} {b b' : Bindings}

/-- Once a fragment can be bound, its order does not depend on what was bound before. -/
theorem inOrder_iff_of_run {ts : List Lexeme} (h : f.run dialect b = (.ok ts, b')) :
    f.InOrder dialect b ↔ f.aligned dialect = true := by
  obtain ⟨marks, stored, mode, htrace, -⟩ := Traces.of_run h
  constructor
  · rintro ⟨marks', stored', mode', htrace', hplaced⟩
    exact htrace'.placed_eq_stored_iff.1 hplaced
  · intro haligned
    exact ⟨marks, stored, mode, htrace, htrace.placed_eq_stored_iff.2 haligned⟩

theorem inOrder_iff (h : f.hurdles = []) (b : Bindings) :
    f.InOrder dialect b ↔ f.aligned dialect = true :=
  inOrder_iff_of_run (run_of_hurdles h dialect b)

end Fragment

/-! ## Operands -/

/-- The operands of a predicate. -/
def Predicate.operands (junction : Junction) (scope : Scope) : Predicate → List Fragment
  | .rows query => [query.fragment scope none]
  | .noQuery | .isNull | .isNotNull => []
  | .among _ items => exprFragments .value scope items
  | .nested entries => [junction.group (entryFragments none junction scope entries)]
  | .plain operand => [operand.fragment .value scope]

mutual

/-- What an entry writes beside what it is about. A column stands for itself. -/
def Entry.operands (junction : Junction) (scope : Scope) : Entry → List Fragment
  | .wrapper w => [w.fragment scope]
  | .all conditions | .any conditions => operandsOfAll junction scope conditions
  | .between low high => [low.fragment .value scope, high.fragment .value scope]
  | .compare comparator operand => (comparator.predicate operand).operands junction scope
  | .column key operand => [(Entry.column key operand).fragment none junction scope]

/-- The operands of entries. -/
def operandsOf (junction : Junction) (scope : Scope) : List Entry → List Fragment
  | [] => []
  | entry :: rest => entry.operands junction scope ++ operandsOf junction scope rest

/-- The operands of conditions. -/
def operandsOfAll (junction : Junction) (scope : Scope) : List (List Entry) → List Fragment
  | [] => []
  | entries :: rest => operandsOf junction scope entries ++ operandsOfAll junction scope rest

end

mutual

/-- The operands that have to be equal to what an entry is about: value wrappers without
comparisons of their own. -/
def Entry.equated (scope : Scope) : Entry → List Fragment
  | .wrapper w => if w.compare.isSome then [] else [w.fragment scope]
  | .all conditions | .any conditions => equatedOfAll scope conditions
  | .between _ _ | .compare _ _ | .column _ _ => []

/-- The operands of entries that have to be equal to what they are about. -/
def equatedOf (scope : Scope) : List Entry → List Fragment
  | [] => []
  | entry :: rest => entry.equated scope ++ equatedOf scope rest

/-- The operands of conditions that have to be equal to what they are about. -/
def equatedOfAll (scope : Scope) : List (List Entry) → List Fragment
  | [] => []
  | entries :: rest => equatedOf scope entries ++ equatedOfAll scope rest

end

/-! ## Fragments about another one -/

/-- A fragment is about another one: it has the errors of its operands, and is in order if they are
and nothing that is equated to a left side with values has values too. -/
structure Fragment.About (dialect : Dialect) (left : Fragment) (operands equated : List Fragment)
    (f : Fragment) : Prop where
  hurdles : ∀ g ∈ operands, g.hurdles ⊆ f.hurdles
  aligned : f.aligned dialect = true ↔ (∀ g ∈ operands, g.aligned dialect = true)
    ∧ (left.binds dialect = true → ∀ g ∈ equated, g.binds dialect = false)

namespace Fragment.About

variable {dialect : Dialect} {left f : Fragment} {gs hs gs' hs' : List Fragment}
  {junction : Junction} {fs : List Fragment}

theorem self (f : Fragment) : About dialect left [f] [] f :=
  ⟨by simp, by simp⟩

theorem nest_nil : About dialect left [] [] (junction.nest []) :=
  ⟨by simp, by simp [Junction.nest, Fragment.aligned]⟩

/-- Conditions are bound one after the other, as they stand in the text. -/
theorem nest_cons (hf : About dialect left gs hs f)
    (hfs : About dialect left gs' hs' (junction.nest fs)) :
    About dialect left (gs ++ gs') (hs ++ hs') (junction.nest (f :: fs)) := by
  have hhurdles : (junction.nest (f :: fs)).hurdles = f.hurdles ++ (junction.nest fs).hurdles := by
    obtain _ | ⟨g, _ | ⟨k, fs⟩⟩ := fs <;>
      simp [Junction.nest, Junction.chain, operated, Fragment.hurdles]
  have haligned : (junction.nest (f :: fs)).aligned dialect
      = (f.aligned dialect && (junction.nest fs).aligned dialect) := by
    obtain _ | ⟨g, _ | ⟨k, fs⟩⟩ := fs <;>
      simp [Junction.nest, Junction.chain, operated, Fragment.aligned]
  constructor
  · intro g hg
    rw [hhurdles]
    rcases List.mem_append.1 hg with hg | hg
    · exact List.subset_append_of_subset_left _ (hf.hurdles g hg)
    · exact List.subset_append_of_subset_right _ (hfs.hurdles g hg)
  · rw [haligned, Bool.and_eq_true, hf.aligned, hfs.aligned]
    simp only [List.mem_append, or_imp, forall_and]
    exact and_and_and_comm

theorem group (h : About dialect left gs hs (junction.nest fs)) :
    About dialect left gs hs (junction.group fs) := by
  cases fs with
  | nil =>
      refine ⟨fun g hg => ?_, h.aligned⟩
      rw [List.subset_nil.1 (h.hurdles g hg)]
      exact List.nil_subset _
  | cons f fs => exact h

end Fragment.About

/-! ## Conditions about a fragment -/

section

variable {dialect : Dialect} {left : Fragment}

/-- A value wrapper compared with what it stands under is bound out of order exactly if both
bind something. -/
theorem aligned_wrapperEntry (dialect : Dialect) (left f : Fragment) :
    (wrapperEntry (some left) false f).aligned dialect
      = (left.aligned dialect && f.aligned dialect
        && !(left.binds dialect && f.binds dialect)) := by
  have hentry : wrapperEntry (some left) false f
      = .crossed left (.append (Fragment.tokens [.space, .word "=", .space]) f) := rfl
  simp [hentry, Fragment.aligned, Fragment.binds, Fragment.tokens]

theorem about_wrapperEntry (hleft : left.aligned dialect = true) (f : Fragment) :
    Fragment.About dialect left [f] [f] (wrapperEntry (some left) false f) := by
  constructor
  · simp [wrapperEntry, Fragment.hurdles]
  · rw [aligned_wrapperEntry, hleft]
    cases left.binds dialect <;> simp

theorem aligned_wildcarded (ends : Bool × Bool) (f : Fragment) :
    (wildcarded dialect ends f).aligned dialect = f.aligned dialect := by
  obtain ⟨first, last⟩ := ends
  cases dialect <;> cases first <;> cases last <;>
    simp [wildcarded, Dialect.concatenate, Dialect.textOperand, operated, call, commas,
      Fragment.cast, spaced, Fragment.literal, Fragment.aligned]

theorem hurdles_wildcarded (ends : Bool × Bool) (f : Fragment) :
    (wildcarded dialect ends f).hurdles = f.hurdles := by
  obtain ⟨first, last⟩ := ends
  cases dialect <;> cases first <;> cases last <;>
    simp [wildcarded, Dialect.concatenate, Dialect.textOperand, operated, call, commas,
      Fragment.cast, spaced, Fragment.literal, Fragment.hurdles]

/-- A left side that is bound before what follows it. -/
theorem Fragment.About.spaced (hleft : left.aligned dialect = true) {gs rest : List Fragment}
    (hhurdles : ∀ g ∈ gs, g.hurdles ⊆ rest.flatMap Fragment.hurdles)
    (haligned : (∀ f ∈ rest, f.aligned dialect = true) ↔ ∀ g ∈ gs, g.aligned dialect = true) :
    About dialect left gs [] (spaced (left :: rest)) := by
  constructor
  · intro g hg
    rw [Fragment.spaced, Fragment.hurdles_join, List.flatMap_cons]
    exact List.subset_append_of_subset_right _ (hhurdles g hg)
  · simp [Fragment.spaced, hleft, haligned]

theorem about_inList (hleft : left.aligned dialect = true) (field : String)
    (comparator : Comparator) (items : List Fragment) :
    Fragment.About dialect left items [] (inList field comparator left items) := by
  cases items with
  | nil => exact ⟨by simp, by simp [inList, Fragment.aligned]⟩
  | cons item items =>
      refine .spaced hleft (fun g hg => ?_) (by simp [commas])
      have hmem : g.hurdles ⊆ (item :: items).flatMap Fragment.hurdles :=
        fun hurdle h => List.mem_flatMap.2 ⟨g, hg, h⟩
      simpa [commas] using hmem

theorem about_compareWith (hleft : left.aligned dialect = true) (comparator : Comparator)
    (f : Fragment) :
    Fragment.About dialect left [f] [] (compareWith dialect comparator left f) := by
  rw [compareWith]
  cases comparator.wildcards with
  | none => exact .spaced hleft (by simp) (by simp)
  | some ends =>
      exact .spaced hleft (by simp [hurdles_wildcarded]) (by simp [aligned_wildcarded])

/-- Every predicate writes its left side before its operands, and binds it before them. -/
theorem Predicate.about {scope : Scope} (hleft : left.aligned scope.dialect = true)
    (field : String) (comparator : Comparator) (junction : Junction) (predicate : Predicate) :
    Fragment.About scope.dialect left (predicate.operands junction scope) []
      (predicate.fragment field comparator left junction scope) := by
  cases predicate with
  | rows query =>
      exact ⟨by simp [operands, fragment, spaced], by simp [operands, fragment, spaced]⟩
  | noQuery => exact ⟨by simp [operands], by simp [operands, fragment, Fragment.aligned]⟩
  | isNull | isNotNull => exact .spaced hleft (by simp [operands]) (by simp [operands])
  | among listed items => exact about_inList hleft field listed _
  | nested entries => exact .spaced hleft (by simp [operands]) (by simp [operands])
  | plain operand => exact about_compareWith hleft comparator _

mutual

/-- **What an entry says about a fragment in order is in order exactly if its operands are, and no
operand is bound crosswise with the fragment.** -/
theorem Entry.about {scope : Scope} (hleft : left.aligned scope.dialect = true)
    (junction : Junction) :
    ∀ entry : Entry, Fragment.About scope.dialect left (entry.operands junction scope)
      (entry.equated scope) (entry.fragment (some left) junction scope)
  | .wrapper ⟨_, none, _⟩ => about_wrapperEntry hleft _
  | .wrapper ⟨_, some _, _⟩ => .self _
  | .all conditions => about_groups hleft junction .and conditions
  | .any conditions => about_groups hleft junction .or conditions
  | .between _ _ => .spaced hleft (by simp [Entry.operands]) (by simp [Entry.operands])
  | .compare comparator operand => by
      rw [Entry.fragment_compare_eq]
      exact (comparator.predicate operand).about hleft _ comparator junction
  | .column _ _ => .self _

theorem about_entries {scope : Scope} (hleft : left.aligned scope.dialect = true)
    (junction outer : Junction) :
    ∀ entries : List Entry, Fragment.About scope.dialect left (operandsOf junction scope entries)
      (equatedOf scope entries)
      (outer.nest (entryFragments (some left) junction scope entries))
  | [] => .nest_nil
  | entry :: rest =>
      .nest_cons (entry.about hleft junction) (about_entries hleft junction outer rest)

theorem about_groups {scope : Scope} (hleft : left.aligned scope.dialect = true)
    (junction outer : Junction) :
    ∀ conditions : List (List Entry), Fragment.About scope.dialect left
      (operandsOfAll junction scope conditions) (equatedOfAll scope conditions)
      (outer.nest (groupFragments (some left) junction scope conditions))
  | [] => .nest_nil
  | entries :: rest =>
      .nest_cons (about_entries hleft junction junction entries).group
        (about_groups hleft junction outer rest)

end

/-- **When a condition about a fragment in order is in order.** -/
theorem inOrder_compared {scope : Scope} (hleft : left.aligned scope.dialect = true)
    (junction : Junction) (entries : List Entry) (b : Bindings)
    (hhurdles : (junction.group (entryFragments (some left) junction scope entries)).hurdles = []) :
    (junction.group (entryFragments (some left) junction scope entries)).InOrder scope.dialect b
      ↔ (∀ f ∈ operandsOf junction scope entries, f.InOrder scope.dialect b)
        ∧ (left.binds scope.dialect = true →
          ∀ f ∈ equatedOf scope entries, f.binds scope.dialect = false) := by
  have habout := (about_entries hleft junction junction entries).group
  rw [Fragment.inOrder_iff hhurdles, habout.aligned]
  refine and_congr_left fun _ => forall₂_congr fun f hf => ?_
  have hf : f.hurdles = [] := List.subset_nil.1 (hhurdles ▸ habout.hurdles f hf)
  rw [Fragment.inOrder_iff hf]

end

end QueryTree

import QueryTree.Proofs.Nesting.Contour
import QueryTree.Proofs.Nesting.Steps

/-!
# Fragments without blanks

Fragments whose text is not blank where it must not be, by what they are put together from, and what
has to be there in a text without blanks.

* `Permit.joinable`, `Frames.joinable`: fragments that can stand beside others; what is built from
  them with mild lexemes around is one of them.
* `fills_chain`, `joinable_nest`, `joinable_clause`, `joinable_inList`, `joinable_between`:
  the places where something must not be blank.
* `Frames.within`: what a text without blanks is put together from.
* `operands_of_group`, `operands_of_clause`, `bound_of_between`, `list_of_chain`: what has to be
  there in these places.
-/

namespace QueryTree

open Fragment (word literal tokens join spaced commas operated words parens call Frames)

/-! ## Contours of fragments -/

namespace Fragment

@[simp] theorem contour_word (w : String) : (word w).contour = [.word w] := rfl

@[simp] theorem contour_append (f g : Fragment) : (f ++ g).contour = f.contour ++ g.contour := rfl

@[simp] theorem contour_parens (f : Fragment) :
    (parens f).contour = [.enclosed .parens f.contour] := rfl

theorem contour_tokens (ts : List Lexeme) : (tokens ts).contour = ts.flatMap Lexeme.contour := by
  induction ts with
  | nil => rfl
  | cons t ts ih => simp [tokens, contour, ih]

theorem contour_join (separator : List Lexeme) (fs : List Fragment) :
    (join separator fs).contour
      = (separator.flatMap Lexeme.contour).intercalate (fs.map contour) := by
  induction fs with
  | nil => rfl
  | cons f fs ih =>
      cases fs with
      | nil => simp [join, List.intercalate]
      | cons g fs => simp [join, contour_tokens, ih, List.intercalate]

theorem contour_chain (junction : Junction) (fs : List Fragment) :
    (junction.chain fs).contour = [Contour.word junction.keyword].intercalate (fs.map contour) :=
  contour_join _ fs

@[simp] theorem contour_spaced (fs : List Fragment) :
    (spaced fs).contour = fs.flatMap contour := by
  rw [spaced, contour_join]
  change ([] : List Contour).intercalate (fs.map contour) = _
  induction fs with
  | nil => rfl
  | cons f fs ih =>
      cases fs with
      | nil => simp [List.intercalate]
      | cons g fs =>
          rw [List.flatMap_cons, ← ih]
          simp [List.intercalate]

@[simp] theorem contour_words (ws : List String) : (words ws).contour = ws.map .word := by
  rw [words, contour_spaced, List.flatMap_map]
  exact List.map_eq_flatMap.symm

@[simp] theorem contour_clause (keywords : List String) (f : Fragment) :
    (clause keywords f).contour = keywords.map .word ++ f.contour := by
  simp [clause, contour, Lexeme.contour]

end Fragment

/-! ## Fragments that can stand beside others -/

variable {inside : Bool} {f g : Fragment} {fs gs : List Fragment}

/-- Fragments whose text is not blank where it must not be, and that can stand beside others. -/
def Permit.joinable : Permit :=
  fun inside f => f.halts = false → Joinable inside f.contour

theorem joinable_of_isMild (h : f.isMild inside = true) : Joinable inside f.contour := by
  have hatom : ∀ {inside : Bool}, Joinable inside [Contour.atom] :=
    fun {inside} => .single (by cases inside <;> rfl) (by cases inside <;> rfl) trivial
  induction f generalizing inside with
  | token t =>
      cases t with
      | space => exact .nil
      | comma =>
          cases inside with
          | true => exact .single rfl rfl trivial
          | false => cases h
      | word w =>
          obtain ⟨hpending, hstop⟩ := Bool.and_eq_true_iff.1 h
          have htrails : (Contour.word w).trails inside = true :=
            Bool.and_eq_true_iff.2 ⟨hpending, hstop⟩
          refine .single ?_ htrails trivial
          cases inside with
          | true => simpa [Contour.leads] using Contour.not_pending htrails (by decide)
          | false => simpa [Contour.leads] using Contour.isStop_of_trails htrails
      | _ => exact hatom
  | enclosed delimiters body ih => exact .enclosed delimiters (ih h).complete
  | append first second ihf ihs =>
      obtain ⟨hfirst, hsecond⟩ := Bool.and_eq_true_iff.1 h
      exact (ihf hfirst).append (ihs hsecond)
  | crossed left right ihl ihr =>
      obtain ⟨hleft, hright⟩ := Bool.and_eq_true_iff.1 h
      exact (ihl hleft).append (ihr hright)
  | led v body ih => exact hatom.append (ih h)
  | value | secret | path | outputName => exact hatom
  | empty | mode | fail => exact .nil

instance : Permit.Lenient Permit.joinable where
  permits h _ := joinable_of_isMild h
  widens h hf := (h hf).toInside
  charset charset _ := by
    have hname : Joinable true [Contour.word charset.name] := by
      refine joinable_of_isMild (f := word charset.name) (Fragment.isMild_word ?_)
      cases charset <;> decide
    have hstop : (Contour.word charset.name).isStop = false := by
      cases charset <;> decide
    refine ⟨?_, hname.chain.cons ?_, hname.last, trivial, hname.whole⟩
    · rintro x ⟨⟩
      decide
    · rintro y ⟨⟩
      exact Contour.beside_of_not_stop hstop trivial

/-- **What is put together from fragments that can stand beside others is one of them.** -/
theorem Fragment.Frames.joinable (h : Frames Permit.joinable inside f gs)
    (hgs : ∀ g ∈ gs, Permit.joinable false g) : Permit.joinable inside f := by
  induction h with
  | leaf h => exact h
  | @part inside f =>
      intro hf
      have hpart := hgs f List.mem_cons_self hf
      cases inside with
      | true => exact hpart.toInside
      | false => exact hpart
  | fail e gs => exact fun hf => by cases hf
  | enclosed delimiters h ih => exact fun hf => .enclosed delimiters (ih hgs hf).complete
  | append h h' ih ih' =>
      rw [List.forall_mem_append] at hgs
      intro hf
      obtain ⟨hfirst, hsecond⟩ := Bool.or_eq_false_iff.1 hf
      exact (ih hgs.1 hfirst).append (ih' hgs.2 hsecond)
  | crossed h h' ih ih' =>
      rw [List.forall_mem_append] at hgs
      intro hf
      obtain ⟨hleft, hright⟩ := Bool.or_eq_false_iff.1 hf
      exact (ih hgs.1 hleft).append (ih' hgs.2 hright)
  | led v h ih =>
      intro hf
      exact (joinable_of_isMild (f := .value v) rfl).append (ih hgs hf)

theorem joinable_append (hf : Permit.joinable inside f) (hg : Permit.joinable inside g) :
    Permit.joinable inside (f ++ g) :=
  (Frames.append (.leaf hf) (.leaf hg)).joinable (by simp)

theorem joinable_spaced (h : ∀ f ∈ fs, Permit.joinable inside f) :
    Permit.joinable inside (spaced fs) :=
  (FramesAll.none h).spaced.joinable (by simp)

theorem joinable_commas (h : ∀ f ∈ fs, Permit.joinable true f) : Permit.joinable true (commas fs) :=
  (FramesAll.none h).commas.joinable (by simp)

theorem joinable_parens (h : Permit.joinable true f) : Permit.joinable inside (parens f) :=
  (Frames.enclosed .parens (.leaf h)).joinable (by simp)

/-! ## Where something must not be blank -/

/-- A fragment that can stand beside others and writes something, so that it may stand where
something is asked for. -/
def Fragment.Fills (f : Fragment) : Prop :=
  f.halts = false → Joinable false f.contour ∧ f.contour ≠ []

theorem Fragment.Fills.joinable (h : f.Fills) : Permit.joinable false f :=
  fun hf => (h hf).1

theorem Junction.keyword_connective (junction : Junction) :
    (Contour.word junction.keyword).isOneOf ["AND", "OR"] = true := by
  cases junction <;> decide

theorem Junction.keyword_plain (junction : Junction) :
    junction.keyword ∉ listWords ∧ junction.keyword ≠ "IF" := by
  cases junction <;> decide

theorem halts_of_mem_join {separator : List Lexeme} (h : (join separator fs).halts = false) :
    ∀ f ∈ fs, f.halts = false := by
  rw [Fragment.halts_join, List.any_eq_false] at h
  simpa using h

/-- Operands joined by a connective. -/
theorem fills_chain (junction : Junction) (h : ∀ f ∈ fs, f.Fills) (hfs : fs ≠ []) :
    (junction.chain fs).Fills := by
  intro hf
  have hall : ∀ xs ∈ fs.map Fragment.contour, Joinable false xs ∧ xs ≠ [] := by
    intro xs hxs
    obtain ⟨f, hmem, rfl⟩ := List.mem_map.1 hxs
    exact h f hmem (halts_of_mem_join hf f hmem)
  obtain ⟨hjoined, hne⟩ := Joinable.intercalate junction.keyword_plain
    (fun xs hxs => (hall xs hxs).1) fun xs hxs => (hall xs hxs).2
  rw [Fragment.contour_chain]
  exact ⟨hjoined, hne (by simpa using hfs)⟩

/-- Several operands in parentheses, or a single one, which may be blank. -/
theorem joinable_nest (junction : Junction) (h : ∀ f ∈ fs, Permit.joinable false f)
    (hfills : 2 ≤ fs.length → ∀ f ∈ fs, f.Fills) : Permit.joinable false (junction.nest fs) := by
  match fs with
  | [] => exact fun _ => .nil
  | [f] => exact h f List.mem_cons_self
  | f :: g :: fs =>
      have hchain := fills_chain junction (hfills (by simp)) (List.cons_ne_nil _ _)
      exact joinable_parens fun hf => (hchain hf).1.toInside

theorem Fragment.halts_clause (keywords : List String) (f : Fragment) :
    (clause keywords f).halts = f.halts := by
  have hwords : (words keywords).halts = false := by
    rw [words, spaced, halts_join, List.any_map, List.any_eq_false]
    simp [word, halts]
  change (false || (spaced [words keywords, f]).halts) = _
  rw [spaced, halts_join]
  simp [hwords]

/-- A clause with a body. -/
theorem joinable_clause {w : String} (hw : w ∈ ["WHERE", "HAVING", "ON", "WHEN"]) (h : f.Fills) :
    Permit.joinable true (clause [w] f) := by
  have hplain : ∀ w ∈ ["WHERE", "HAVING", "ON", "WHEN"], (w ∉ listWords ∧ w ≠ "IF")
      ∧ (Contour.word w).leads true = true := by decide
  intro hf
  rw [Fragment.halts_clause] at hf
  obtain ⟨hbody, hne⟩ := h hf
  rw [Fragment.contour_clause]
  exact hbody.toInside.bodied (hplain w hw).1 (hplain w hw).2 hne hbody.not_stop

/-- A clause that may be without a body. -/
theorem joinable_looseClause (keywords : List String) (hw : (words keywords).isMild true = true)
    (h : Permit.joinable true f) : Permit.joinable true (clause keywords f) := by
  have hwords : Permit.joinable true (words keywords) := Permit.Lenient.permits hw
  exact joinable_append (Permit.Lenient.permits rfl) (joinable_spaced (by simp [hwords, h]))

/-- A clause that is left out if there is no condition. -/
theorem joinable_conditionClause {w : String} (hw : w ∈ ["WHERE", "HAVING", "ON", "WHEN"])
    (junction : Junction) (h : ∀ f ∈ fs, f.Fills) :
    Permit.joinable true (conditionClause w junction fs) := by
  unfold conditionClause
  split
  · exact fun _ => .nil
  · next hempty => exact joinable_clause hw (fills_chain junction h (by simpa using hempty))

/-- A word with a list in parentheses after it. -/
theorem joinable_listed {w : String} (hleads : (Contour.word w).leads inside = true)
    (hif : w ≠ "IF") (h : Permit.joinable true f) (hne : f.halts = false → f.contour ≠ []) :
    Permit.joinable inside (word w ++ parens f) :=
  fun hf => Joinable.listed hleads ⟨fun _ => hne hf, fun hw => absurd hw hif⟩ (h hf).complete

/-- What is in a list is blank if it is empty, or if it has a single item and that is blank. -/
theorem contour_commas_eq_nil :
    (commas fs).contour = [] ↔ fs = [] ∨ ∃ f, fs = [f] ∧ f.contour = [] := by
  match fs with
  | [] => simp [commas, join, Fragment.contour]
  | [f] => simp [commas, join]
  | f :: g :: fs => simp [commas, join, Fragment.contour_tokens, Lexeme.contour]

/-- A comparator with a list after it. -/
theorem joinable_inList (field : String) (comparator : Comparator) (hf : Permit.joinable false f)
    (h : ∀ g ∈ fs, Permit.joinable false g)
    (hne : (commas fs).halts = false → (commas fs).contour ≠ []) :
    Permit.joinable false (inList field comparator f fs) := by
  obtain ⟨vs, w, hwords, hvs, hleads, hif⟩ : ∃ vs w, comparator.words = vs ++ [w]
      ∧ (∀ v ∈ vs, isMildWord v = true) ∧ (Contour.word w).leads false = true ∧ w ≠ "IF" := by
    cases comparator <;>
      first | exact ⟨[], _, rfl, by decide⟩ | exact ⟨["NOT"], _, rfl, by decide⟩
  have hmild : Joinable false (words vs).contour := joinable_of_isMild (Fragment.isMild_words hvs)
  have hlist : Permit.joinable false (word w ++ parens (commas fs)) :=
    joinable_listed hleads hif (joinable_commas fun g hg hh => (h g hg hh).toInside) hne
  unfold inList
  split
  · exact fun hh => by cases hh
  · intro hh
    have hhalts := halts_of_mem_join hh
    have hall := (hf (hhalts f (by simp))).append
      (hmild.append (hlist (hhalts (parens (commas fs)) (by simp))))
    simpa [hwords] using hall

/-- Two bounds with a connective between them. -/
theorem joinable_between {low high : Fragment} (hf : Permit.joinable false f) (hlow : low.Fills)
    (hhigh : high.Fills) :
    Permit.joinable false (spaced [f, "BETWEEN", low, "AND", high]) := by
  intro hh
  have hhalts := halts_of_mem_join hh
  obtain ⟨hlow, hlow'⟩ := hlow (hhalts low (by simp))
  obtain ⟨hhigh, hhigh'⟩ := hhigh (hhalts high (by simp))
  have hbound := hlow.bodied (w := "BETWEEN") (by decide) (by decide) hlow'
    hlow.not_stop
  have hall := ((hf (hhalts f (by simp))).append hbound).connected (w := "AND") (by decide)
    (by simp) hhigh hhigh'
  simpa using hall

/-- Texts put together. -/
theorem joinable_concat (d : Dialect) (separator : Option String)
    (h : ∀ f ∈ fs, Permit.joinable false f)
    (hne : d ≠ .sqlite → separator = none → (commas fs).halts = false → (commas fs).contour ≠ []) :
    Permit.joinable inside (concatFragment d separator fs) := by
  have hparts : FramesAll Permit.joinable true fs fs := .parts fs
  have hcall : d ≠ .sqlite → separator = none → Permit.joinable inside (call "CONCAT" fs) := by
    refine fun hd hseparator => joinable_listed ?_ (by decide) ?_ (hne hd hseparator)
    · cases inside <;> decide
    · exact joinable_commas fun g hg hh => (h g hg hh).toInside
  have hseparated : ∀ f : Fragment, f.isMild true = true →
      Permit.joinable inside (call "CONCAT_WS" (f :: fs)) := fun f hf =>
    ((hparts.skip (Permit.Lenient.permits hf)).call (by decide)).joinable h
  cases d with
  | sqlite =>
      cases separator with
      | some separator =>
          have htext : Permit.joinable true (.text separator) := Permit.Lenient.permits rfl
          exact (Frames.enclosed .parens
            ((hparts.intersperse htext).operated (by decide))).joinable h
      | none => exact (Frames.enclosed .parens (hparts.operated (by decide))).joinable h
  | mysql =>
      cases separator with
      | some separator => exact hseparated _ rfl
      | none => exact hcall (by decide) rfl
  | postgresql =>
      cases separator with
      | some separator => exact hseparated _ (Fragment.isMild_cast (by decide) rfl)
      | none => exact hcall (by decide) rfl

/-- A text with wildcards around it. -/
theorem joinable_wildcarded (d : Dialect) {ends : Bool × Bool} (hends : (ends.1 || ends.2) = true)
    (h : Permit.joinable false f) : Permit.joinable false (wildcarded d ends f) := by
  have hwildcard : Permit.joinable false (literal "%") := Permit.Lenient.permits rfl
  have htext : Permit.joinable false (d.textOperand f) :=
    ((Frames.part f).textOperand d).joinable (by simpa using h)
  have hparts : ∀ g ∈ (if ends.1 then [literal "%"] else []) ++ [d.textOperand f]
      ++ (if ends.2 then [literal "%"] else []), Permit.joinable false g := by
    obtain ⟨opened, closed⟩ := ends
    cases opened <;> cases closed <;> simp [htext, hwildcard]
  have hseveral : (commas ((if ends.1 then [literal "%"] else []) ++ [d.textOperand f]
      ++ (if ends.2 then [literal "%"] else []))).contour ≠ [] := by
    rw [Ne, contour_commas_eq_nil]
    obtain ⟨opened, closed⟩ := ends
    cases opened <;> cases closed <;> simp_all
  cases d with
  | mysql =>
      refine joinable_listed (by decide) (by decide) ?_ fun _ => hseveral
      exact joinable_commas fun g hg hh => (hparts g hg hh).toInside
  | postgresql => exact ((FramesAll.none hparts).operated (by decide)).joinable (by simp)
  | sqlite => exact ((FramesAll.none hparts).operated (by decide)).joinable (by simp)

theorem Comparator.wildcards_ends {comparator : Comparator} {ends : Bool × Bool}
    (h : comparator.wildcards = some ends) : (ends.1 || ends.2) = true := by
  cases comparator <;> cases h <;> rfl

/-- A comparison by an operator. -/
theorem joinable_compareWith (d : Dialect) {comparator : Comparator}
    (hc : ∀ w ∈ comparator.words, isMildWord w = true) (hf : Permit.joinable false f)
    (hg : Permit.joinable false g) : Permit.joinable false (compareWith d comparator f g) := by
  have hwords : Permit.joinable false (words comparator.words) :=
    Permit.Lenient.permits (Fragment.isMild_words hc)
  refine joinable_spaced (List.forall_mem_cons.2
    ⟨hf, List.forall_mem_cons.2 ⟨hwords, List.forall_mem_singleton.2 ?_⟩⟩)
  split
  · next ends hends => exact joinable_wildcarded d (Comparator.wildcards_ends hends) hg
  · exact hg

theorem joinable_equals (hf : Permit.joinable false f) (hg : Permit.joinable false g) :
    Permit.joinable false (equals f g) := by
  have hword : Permit.joinable false (word "=") := Permit.Lenient.mild (by decide)
  exact joinable_spaced (by simp [hf, hword, hg])

/-- A choice by a condition. -/
theorem joinable_choice {check yes no : Fragment} (hcheck : check.Fills)
    (hyes : Permit.joinable false yes) (hno : Permit.joinable false no) :
    Permit.joinable inside (call "IF" [check, yes, no]) := by
  intro hh
  have hhalts : ∀ f ∈ [check, yes, no], f.halts = false := halts_of_mem_join hh
  obtain ⟨hfilled, hne⟩ := hcheck (hhalts check (by simp))
  have hbody : Permit.joinable true (commas [check, yes, no]) :=
    joinable_commas (by
      simpa using ⟨fun h => (hcheck h).1.toInside, fun h => (hyes h).toInside,
        fun h => (hno h).toInside⟩)
  refine Joinable.listed (by cases inside <;> decide) ⟨?_, fun _ => ?_⟩
    (hbody hh).complete
  · exact fun hlist => absurd hlist (by decide)
  · obtain ⟨x, xs, hxs⟩ := List.exists_cons_of_ne_nil hne
    refine ⟨x, ?_, hfilled.not_stop x (by simp [hxs])⟩
    simp [commas, join, hxs]

/-- A list of columns that are shared. -/
theorem joinable_using {columns : List String} (h : columns ≠ []) :
    Permit.joinable true (clause ["USING"] (parens (commas (columns.map Fragment.path)))) := by
  have hcolumns : Permit.joinable true (commas (columns.map Fragment.path)) := by
    refine joinable_commas fun f hf => ?_
    obtain ⟨column, -, rfl⟩ := List.mem_map.1 hf
    exact Permit.Lenient.permits rfl
  have hne : (commas (columns.map Fragment.path)).contour ≠ [] := by
    rw [Ne, contour_commas_eq_nil]
    rintro (hnil | ⟨f, hf, hcontour⟩)
    · exact h (List.map_eq_nil_iff.1 hnil)
    · obtain ⟨column, -, rfl⟩ := List.map_eq_singleton_iff.1 hf
      cases hcontour
  intro hh
  rw [Fragment.halts_clause] at hh
  rw [Fragment.contour_clause]
  exact joinable_listed (w := "USING") (by decide) (by decide) hcolumns
    (fun _ => hne) hh

/-- Columns that are set, after other words. -/
theorem joinable_set (fs : List Fragment) (hfs : ∀ g ∈ fs, Permit.joinable true g)
    (hatom : f.contour.head? = some .atom) (h : Permit.joinable true f) :
    Permit.joinable true (spaced (fs ++ [word "SET", f])) := by
  intro hh
  have hhalts := halts_of_mem_join hh
  have hwords : Permit.joinable true (spaced fs) := joinable_spaced hfs
  have hspaced : (spaced fs).halts = false := by
    rw [spaced, Fragment.halts_join, List.any_eq_false]
    exact fun g hg => by simp [hhalts g (List.mem_append_left _ hg)]
  have hset := (h (hhalts f (by simp))).bodied (w := "SET") (by decide) (by decide)
    (by rintro hnil; simp [hnil] at hatom) (by rw [hatom]; rintro x ⟨⟩; rfl)
  simpa using (hwords hspaced).append hset

/-- A clause of which a word follows the one that asks for something. -/
theorem joinable_onClause {w : String} {ws : List String} (hw : isMildWord w = true)
    (hws : (words ws).isMild true = true) (h : Permit.joinable true f) :
    Permit.joinable true (clause ("ON" :: w :: ws) f) := by
  have hmild : Joinable false [Contour.word w] :=
    joinable_of_isMild (f := word w) (Fragment.isMild_word hw)
  have hon : Joinable true [.word "ON", .word w] :=
    hmild.toInside.bodied (by decide) (by decide) (List.cons_ne_nil _ _)
      hmild.not_stop
  have hrest := joinable_of_isMild hws
  rw [Fragment.contour_words] at hrest
  intro hh
  rw [Fragment.halts_clause] at hh
  rw [Fragment.contour_clause]
  exact (hon.append hrest).append (h hh)

/-! ## What a text without blanks is put together from -/

/-- A fragment without errors that is part of a text without blanks. -/
structure Fragment.Within (f : Fragment) : Prop where
  halts : f.halts = false
  inner : Inner f.contour

/-- **The parts of what is part of a text without blanks are parts of it.** -/
theorem Fragment.Frames.within {ok : Permit} (h : Frames ok inside f gs) (hf : f.Within) :
    ∀ g ∈ gs, g.Within := by
  induction h with
  | leaf h => simp
  | part f => simpa using hf
  | fail e gs => cases hf.halts
  | enclosed delimiters h ih => exact ih ⟨hf.halts, hf.inner.enclosed.inner⟩
  | append h h' ih ih' =>
      obtain ⟨hfirst, hsecond⟩ := Bool.or_eq_false_iff.1 hf.halts
      exact List.forall_mem_append.2 ⟨ih ⟨hfirst, hf.inner.left⟩, ih' ⟨hsecond, hf.inner.right⟩⟩
  | crossed h h' ih ih' =>
      obtain ⟨hleft, hright⟩ := Bool.or_eq_false_iff.1 hf.halts
      exact List.forall_mem_append.2 ⟨ih ⟨hleft, hf.inner.left⟩, ih' ⟨hright, hf.inner.right⟩⟩
  | led v h ih => exact ih ⟨hf.halts, hf.inner.tail⟩

theorem contour_ne_nil_of_map (h : ∀ xs ∈ fs.map Fragment.contour, xs ≠ []) :
    ∀ f ∈ fs, f.contour ≠ [] :=
  fun _ hf => h _ (List.mem_map_of_mem hf)

/-- None of several operands is blank. -/
theorem operands_of_nest {junction : Junction} (h : Inner (junction.nest fs).contour)
    (hlength : 2 ≤ fs.length) : ∀ f ∈ fs, f.contour ≠ [] := by
  match fs, hlength with
  | f :: g :: fs, hlength =>
      have hclosed := h.enclosed.toClosed
      rw [Fragment.contour_chain] at hclosed
      exact contour_ne_nil_of_map
        (hclosed.operands junction.keyword_connective (by simp))

theorem operands_of_group {junction : Junction} (h : Inner (junction.group fs).contour)
    (hlength : 2 ≤ fs.length) : ∀ f ∈ fs, f.contour ≠ [] := by
  have hne : fs.isEmpty = false := by
    cases fs with
    | nil => cases hlength
    | cons => rfl
  rw [Junction.group, hne] at h
  exact operands_of_nest h hlength

variable {rest : List Contour}

/-- A clause has operands, and none of them is blank. -/
theorem operands_of_clause {w : String} (hw : (Contour.word w).isOneOf bodyWords = true)
    {junction : Junction} (h : Final ((clause [w] (junction.chain fs)).contour ++ rest))
    (hrest : Trailing rest) : fs ≠ [] ∧ ∀ f ∈ fs, f.contour ≠ [] := by
  rw [Fragment.contour_clause, Fragment.contour_chain] at h
  obtain ⟨hne, hall⟩ := Final.operands hw junction.keyword_connective h hrest
  exact ⟨by simpa using hne, contour_ne_nil_of_map hall⟩

theorem operands_of_conditionClause {w : String} (hw : (Contour.word w).isOneOf bodyWords = true)
    {junction : Junction} (h : Final ((conditionClause w junction fs).contour ++ rest))
    (hrest : Trailing rest) : ∀ f ∈ fs, f.contour ≠ [] := by
  unfold conditionClause at h
  split at h
  · next hempty => simp [List.isEmpty_iff.1 hempty]
  · exact (operands_of_clause hw h hrest).2

/-- A clause begins where what stood before has come to its end. -/
theorem trailing_clause {w : String} {ws : List String}
    (hw : (Contour.word w).isStop = true) (f : Fragment) (rest : List Contour) :
    Trailing ((clause (w :: ws) f).contour ++ rest) := by
  rw [Fragment.contour_clause]
  rintro x ⟨⟩
  exact hw

theorem trailing_conditionClause (w : String) (hw : (Contour.word w).isStop = true)
    (junction : Junction) (fs : List Fragment) (hrest : Trailing rest) :
    Trailing ((conditionClause w junction fs).contour ++ rest) := by
  unfold conditionClause
  split
  · exact hrest
  · exact trailing_clause hw _ rest

theorem trailing_listClause (w : String) (ws : List String) (hw : (Contour.word w).isStop = true)
    (fs : List Fragment) (hrest : Trailing rest) :
    Trailing ((listClause (w :: ws) fs).contour ++ rest) := by
  unfold listClause
  split
  · exact hrest
  · exact trailing_clause hw _ rest

/-- The first bound is not blank. -/
theorem bound_of_between {low high : Fragment}
    (h : Inner (spaced [f, "BETWEEN", low, "AND", high]).contour) : low.contour ≠ [] := by
  intro hnil
  have hinner : Inner (f.contour ++ (.word "BETWEEN" :: .word "AND" :: high.contour)) := by
    simpa [hnil] using h
  have hbeside := (List.isChain_cons_cons.1 hinner.right.chain).1
  have hoperand := (hbeside.operand (by decide)).2
  revert hoperand
  decide

/-- The list after a word is not blank. -/
theorem list_of_chain {w : String} (hw : w ∈ listWords) {xs : List Contour}
    (h : (.word w :: .enclosed .parens xs :: rest).IsChain Contour.Beside) : xs ≠ [] :=
  (List.isChain_cons_cons.1 h).1.list.1 hw

/-- The condition of a choice has operands, and none of them is blank. -/
theorem operands_of_choice {junction : Junction} {yes no : Fragment}
    (h : Inner (call "IF" [junction.chain fs, yes, no]).contour) :
    fs ≠ [] ∧ ∀ f ∈ fs, f.contour ≠ [] := by
  let rest : List Contour := .comma :: (yes.contour ++ .comma :: no.contour)
  have hbody : (commas [junction.chain fs, yes, no]).contour
      = (junction.chain fs).contour ++ rest := by
    simp [commas, join, Fragment.contour_tokens, Lexeme.contour, rest]
  have hcall : (call "IF" [junction.chain fs, yes, no]).contour
      = [.word "IF", .enclosed .parens ((junction.chain fs).contour ++ rest)] := by
    rw [← hbody]
    rfl
  rw [hcall] at h
  obtain ⟨-, hfirst⟩ := (List.isChain_cons_cons.1 h.chain).1.list
  obtain ⟨x, hx, hstop⟩ := hfirst rfl
  have hfinal := h.tail.enclosed.toFinal
  -- the condition stands as it would after a word that a body follows
  have hbodied : Final (.word "WHEN" :: ((junction.chain fs).contour ++ rest)) := by
    refine ⟨hfinal.chain.cons fun y hy => ?_, fun y hy => ?_⟩
    · obtain rfl := Option.mem_unique hx hy
      exact Contour.beside_of_not_stop hstop
        (Contour.listFilled_of_plain (by decide) x)
    · refine hfinal.last y ?_
      rwa [List.getLast?_cons_of_ne_nil (by simp [rest])] at hy
  rw [Fragment.contour_chain] at hbodied
  obtain ⟨hne, hall⟩ := hbodied.operands (by decide) junction.keyword_connective
    (by simp [Trailing, rest, Contour.isStop])
  exact ⟨by simpa using hne, contour_ne_nil_of_map hall⟩

end QueryTree

import QueryTree.Dialect.Quoting

/-!
# Reading quoted names

A quoted name is read from its opening quote on: two quotes stand for one, and a quote that stands
alone closes the name. A path is a sequence of such names with dots between them.

* `Text.intercalate_pathParts`, `Text.not_mem_of_mem_pathParts`: the parts of a path are its pieces
  between the dots.
* `scanPart?`, `scanParts?`: what is read at the start of a text, and what is left of it.
* `scanPart?_eq_some_iff`, `scanParts?_eq_some_iff`: they read what quoting writes and nothing else,
  and they stop where the name cannot go on.
* `quoteParts_inj`, `quotePart_inj`, `quotePath_inj`: what is quoted can be told from the text.
* `Dialect.scan_of_quoted`: names and paths that are quoted in a dialect are read back, whatever
  follows them.
-/

namespace QueryTree

/-! ## Parts of a path -/

namespace Text

theorem splitOn_ne_nil (sep : Char) (cs : List Char) : splitOn sep cs ≠ [] := by
  cases cs with
  | nil => simp [splitOn]
  | cons c cs =>
      rw [splitOn]
      split
      · simp
      · split <;> simp

/-- The parts with the separator between them are the text. -/
theorem intercalate_splitOn (sep : Char) (cs : List Char) :
    [sep].intercalate (splitOn sep cs) = cs := by
  induction cs with
  | nil => rfl
  | cons c cs ih =>
      rw [splitOn]
      cases hparts : splitOn sep cs with
      | nil => exact absurd hparts (splitOn_ne_nil sep cs)
      | cons part parts =>
          rw [hparts] at ih
          by_cases hc : c = sep
          · rw [if_pos hc, List.intercalate_cons_cons, ih, hc]
            rfl
          · rw [if_neg hc]
            cases parts with
            | nil => simpa using ih
            | cons next parts =>
                rw [List.intercalate_cons_cons] at ih ⊢
                rw [List.cons_append, List.cons_append, ih]

theorem not_mem_of_mem_splitOn {sep : Char} {cs part : List Char} (h : part ∈ splitOn sep cs) :
    sep ∉ part := by
  induction cs generalizing part with
  | nil =>
      obtain rfl : part = [] := by simpa [splitOn] using h
      simp
  | cons c cs ih =>
      rw [splitOn] at h
      by_cases hc : c = sep
      · rw [if_pos hc, List.mem_cons] at h
        rcases h with rfl | h
        · simp
        · exact ih h
      · rw [if_neg hc] at h
        cases hparts : splitOn sep cs with
        | nil => exact absurd hparts (splitOn_ne_nil sep cs)
        | cons first parts =>
            rw [hparts] at h ih
            rcases List.mem_cons.1 h with rfl | h
            · have hfirst : sep ∉ first := ih List.mem_cons_self
              simp [Ne.symm hc, hfirst]
            · exact ih (List.mem_cons_of_mem _ h)

theorem splitOn_eq_singleton_iff {sep : Char} {cs : List Char} :
    splitOn sep cs = [cs] ↔ sep ∉ cs := by
  constructor
  · intro h
    exact not_mem_of_mem_splitOn (h ▸ List.mem_singleton_self cs)
  · intro h
    induction cs with
    | nil => rfl
    | cons c cs ih =>
        rw [List.mem_cons, not_or] at h
        rw [splitOn, if_neg (Ne.symm h.1), ih h.2]

theorem toList_pathParts (path : String) :
    (pathParts path).map String.toList = splitOn '.' path.toList := by
  simp [pathParts, Function.comp_def]

theorem pathParts_ne_nil (path : String) : pathParts path ≠ [] := by
  simpa [pathParts] using splitOn_ne_nil '.' path.toList

theorem intercalate_pathParts (path : String) :
    String.intercalate "." (pathParts path) = path := by
  apply String.toList_injective
  rw [String.toList_intercalate, toList_pathParts]
  exact intercalate_splitOn '.' path.toList

theorem pathParts_inj {path path' : String} : pathParts path = pathParts path' ↔ path = path' := by
  refine ⟨fun h => ?_, fun h => by rw [h]⟩
  rw [← intercalate_pathParts path, h, intercalate_pathParts]

theorem not_mem_of_mem_pathParts {path part : String} (h : part ∈ pathParts path) :
    '.' ∉ part.toList := by
  have hmem : part.toList ∈ splitOn '.' path.toList := by
    rw [← toList_pathParts]
    exact List.mem_map_of_mem h
  exact not_mem_of_mem_splitOn hmem

theorem pathParts_eq_singleton_iff {n : String} : pathParts n = [n] ↔ '.' ∉ n.toList := by
  rw [← splitOn_eq_singleton_iff, ← toList_pathParts]
  constructor
  · intro h
    rw [h, List.map_singleton]
  · intro h
    refine (List.map_inj_right fun _ _ => String.toList_injective).1 ?_
    rw [h, List.map_singleton]

end Text

/-! ## One name -/

/-- Reads a name behind its opening quote, up to its closing quote. -/
def scanBody? (q : Char) : List Char → Option (List Char × List Char)
  | [] => none
  | [c] => if c = q then some ([], []) else none
  | c :: d :: cs =>
    if c = q then
      -- two quotes stand for one
      if d = q then (scanBody? q cs).map fun (body, rest) => (q :: body, rest)
      else some ([], d :: cs)
    else (scanBody? q (d :: cs)).map fun (body, rest) => (c :: body, rest)

/-- Reads a quoted name at the start of a text. -/
def scanPart? (q : Char) : List Char → Option (String × List Char)
  | [] => none
  | c :: cs =>
    if c = q then (scanBody? q cs).map fun (body, rest) => (String.ofList body, rest)
    else none

section Name

variable {q : Char} {cs body rest : List Char} {name : String}

theorem scanBody?_cons {c : Char} (hc : c ≠ q) :
    scanBody? q (c :: cs) = (scanBody? q cs).map fun (body, rest) => (c :: body, rest) := by
  cases cs with
  | nil => simp [scanBody?, hc]
  | cons d cs => rw [scanBody?, if_neg hc]

theorem scanBody?_quote (hrest : ¬ [q] <+: rest) : scanBody? q (q :: rest) = some ([], rest) := by
  cases rest with
  | nil => simp [scanBody?]
  | cons d cs =>
      have hd : d ≠ q := by
        rintro rfl
        exact hrest (by simp)
      rw [scanBody?, if_pos rfl, if_neg hd]

theorem scanBody?_doubled (hrest : ¬ [q] <+: rest) (body : List Char) :
    scanBody? q (body.flatMap (doubled q) ++ q :: rest) = some (body, rest) := by
  induction body with
  | nil => exact scanBody?_quote hrest
  | cons c body ih =>
      rw [List.flatMap_cons, doubled]
      by_cases hc : c = q
      · rw [if_pos hc, List.append_assoc, List.cons_append, List.cons_append, List.nil_append,
          scanBody?, if_pos rfl, if_pos rfl, ih, hc]
        rfl
      · rw [if_neg hc, List.append_assoc, List.singleton_append, scanBody?_cons hc, ih]
        rfl

/-- What is read is written with its quotes doubled, and the quote that closes it stands alone. -/
theorem eq_doubled_of_scanBody? (h : scanBody? q cs = some (body, rest)) :
    cs = body.flatMap (doubled q) ++ q :: rest ∧ ¬ [q] <+: rest := by
  fun_induction scanBody? q cs generalizing body with
  | case1 => cases h
  | case2 =>
      cases h
      simp
  | case3 => cases h
  | case4 cs ih =>
      -- two quotes
      obtain ⟨⟨body', rest'⟩, hscan, hread⟩ := Option.map_eq_some_iff.1 h
      cases hread
      obtain ⟨rfl, hrest⟩ := ih hscan
      exact ⟨by simp [doubled], hrest⟩
  | case5 d cs hd =>
      -- a quote that stands alone
      cases h
      exact ⟨rfl, by simp [Ne.symm hd]⟩
  | case6 c d cs hc ih =>
      obtain ⟨⟨body', rest'⟩, hscan, hread⟩ := Option.map_eq_some_iff.1 h
      cases hread
      obtain ⟨heq, hrest⟩ := ih hscan
      exact ⟨by simp [doubled, hc, heq], hrest⟩

/-- **A quoted name is what is read, as long as no further quote follows it.** -/
theorem scanPart?_eq_some_iff : scanPart? q cs = some (name, rest) ↔
    cs = (quotePart q name).toList ++ rest ∧ ¬ [q] <+: rest := by
  constructor
  · intro h
    cases cs with
    | nil => cases h
    | cons c cs =>
        rw [scanPart?] at h
        split at h
        · rename_i hc
          obtain ⟨⟨body, rest'⟩, hscan, hread⟩ := Option.map_eq_some_iff.1 h
          cases hread
          obtain ⟨rfl, hrest⟩ := eq_doubled_of_scanBody? hscan
          exact ⟨by simp [quotePart, hc], hrest⟩
        · cases h
  · rintro ⟨rfl, hrest⟩
    rw [quotePart, String.toList_ofList, List.cons_append, List.cons_append, List.append_assoc,
      List.singleton_append, scanPart?, if_pos rfl, scanBody?_doubled hrest]
    simp

/-- A name with a quote directly after it is read as the beginning of a longer one. -/
example : scanPart? '"' "\"a\"\"b\" = 1".toList = some ("a\"b", " = 1".toList) := by
  decide

theorem length_lt_of_scanPart? (h : scanPart? q cs = some (name, rest)) :
    rest.length < cs.length := by
  have hpos : 0 < (quotePart q name).toList.length := by simp [quotePart]
  rw [(scanPart?_eq_some_iff.1 h).1, List.length_append]
  omega

end Name

/-! ## Names with dots between them -/

/-- Reads quoted names with dots between them. A dot belongs to them if a quote follows it. -/
def scanParts? (q : Char) (cs : List Char) : Option (List String × List Char) :=
  match _hpart : scanPart? q cs with
  | none => none
  | some (part, rest) =>
    if ['.', q] <+: rest then
      (scanParts? q rest.tail).map fun (parts, rest) => (part :: parts, rest)
    else some ([part], rest)
termination_by cs.length
decreasing_by
  have hlt := length_lt_of_scanPart? _hpart
  rw [List.length_tail]
  omega

theorem quotePart_eq_quoteParts (q : Char) (name : String) :
    quotePart q name = quoteParts q [name] := by
  simp [quoteParts]

theorem quoteParts_cons_cons (q : Char) (part next : String) (parts : List String) :
    quoteParts q (part :: next :: parts)
      = quotePart q part ++ "." ++ quoteParts q (next :: parts) := by
  simp [quoteParts, String.intercalate_cons_cons]

/-- A name begins with its quote. -/
theorem quote_prefix_quoteParts (q : Char) (part : String) (parts : List String) :
    [q] <+: (quoteParts q (part :: parts)).toList := by
  cases parts with
  | nil => simp [quoteParts, quotePart]
  | cons next parts => simp [quoteParts_cons_cons, quotePart]

section Names

variable {q : Char} {cs rest : List Char} {parts : List String}

theorem scanParts?_of_scanPart? {part : String} (hpart : scanPart? q cs = some (part, rest)) :
    scanParts? q cs =
      if ['.', q] <+: rest then
        (scanParts? q rest.tail).map fun (parts, rest) => (part :: parts, rest)
      else some ([part], rest) := by
  rw [scanParts?]
  split
  · rename_i hnone
    cases hpart.symm.trans hnone
  · rename_i hsome
    cases hpart.symm.trans hsome
    rfl

theorem scanParts?_quoteParts (hq : q ≠ '.') (hne : parts ≠ []) (hrest : ¬ [q] <+: rest)
    (hdot : ¬ ['.', q] <+: rest) :
    scanParts? q ((quoteParts q parts).toList ++ rest) = some (parts, rest) := by
  induction parts with
  | nil => exact absurd rfl hne
  | cons part parts ih =>
      cases parts with
      | nil =>
          have hpart : scanPart? q ((quotePart q part).toList ++ rest) = some (part, rest) :=
            scanPart?_eq_some_iff.2 ⟨rfl, hrest⟩
          rw [← quotePart_eq_quoteParts, scanParts?_of_scanPart? hpart, if_neg hdot]
      | cons next parts =>
          -- the dot ends the first part, and the quote behind it begins the next one
          have hpart : scanPart? q ((quoteParts q (part :: next :: parts)).toList ++ rest)
              = some (part, '.' :: ((quoteParts q (next :: parts)).toList ++ rest)) :=
            scanPart?_eq_some_iff.2 ⟨by simp [quoteParts_cons_cons], by simp [hq]⟩
          have hnext : ['.', q] <+: '.' :: ((quoteParts q (next :: parts)).toList ++ rest) :=
            List.cons_prefix_cons.2 ⟨rfl, (quote_prefix_quoteParts q next parts).trans
              (List.prefix_append _ _)⟩
          rw [scanParts?_of_scanPart? hpart, if_pos hnext, List.tail_cons, ih (by simp)]
          rfl

theorem eq_quoteParts_of_scanParts? (h : scanParts? q cs = some (parts, rest)) :
    parts ≠ [] ∧ cs = (quoteParts q parts).toList ++ rest ∧ ¬ [q] <+: rest
      ∧ ¬ ['.', q] <+: rest := by
  fun_induction scanParts? q cs generalizing parts with
  | case1 => cases h
  | case2 cs part after hpart hdot ih =>
      obtain ⟨⟨parts', rest'⟩, hscan, hread⟩ := Option.map_eq_some_iff.1 h
      cases hread
      obtain ⟨hne, htail, hrest, hends⟩ := ih hscan
      refine ⟨by simp, ?_, hrest, hends⟩
      -- what was read behind the dot has a first part, so a dot is written in front of it
      obtain ⟨next, parts, rfl⟩ := List.exists_cons_of_ne_nil hne
      obtain ⟨more, rfl⟩ := hdot
      rw [(scanPart?_eq_some_iff.1 hpart).1, quoteParts_cons_cons]
      simpa using htail
  | case3 cs part after hpart hdot =>
      cases h
      obtain ⟨rfl, hrest⟩ := scanPart?_eq_some_iff.1 hpart
      exact ⟨by simp, by rw [quotePart_eq_quoteParts], hrest, hdot⟩

/-- **Quoted names with dots between them are what is read, as long as neither a quote nor a further
name follows them.** -/
theorem scanParts?_eq_some_iff (hq : q ≠ '.') : scanParts? q cs = some (parts, rest) ↔
    parts ≠ [] ∧ cs = (quoteParts q parts).toList ++ rest ∧ ¬ [q] <+: rest
      ∧ ¬ ['.', q] <+: rest := by
  refine ⟨eq_quoteParts_of_scanParts?, ?_⟩
  rintro ⟨hne, rfl, hrest, hdot⟩
  exact scanParts?_quoteParts hq hne hrest hdot

/-- Quoted names with dots between them tell what their parts are. -/
theorem quoteParts_inj (hq : q ≠ '.') {parts' : List String} (hne : parts ≠ [])
    (hne' : parts' ≠ []) : quoteParts q parts = quoteParts q parts' ↔ parts = parts' := by
  refine ⟨fun h => ?_, fun h => by rw [h]⟩
  have hscan : scanParts? q ((quoteParts q parts).toList ++ []) = some (parts, []) :=
    scanParts?_quoteParts hq hne (by simp) (by simp)
  rw [h, scanParts?_quoteParts hq hne' (by simp) (by simp)] at hscan
  simpa [eq_comm] using hscan

theorem quotePart_inj (hq : q ≠ '.') {name name' : String} :
    quotePart q name = quotePart q name' ↔ name = name' := by
  rw [quotePart_eq_quoteParts, quotePart_eq_quoteParts, quoteParts_inj hq (by simp) (by simp),
    List.singleton_inj]

theorem quotePath_inj (hq : q ≠ '.') {path path' : String} :
    quotePath q path = quotePath q path' ↔ path = path' := by
  rw [quotePath, quotePath,
    quoteParts_inj hq (Text.pathParts_ne_nil path) (Text.pathParts_ne_nil path'),
    Text.pathParts_inj]

/-- A name and a path are the same text only if the path is that name, with no dot to part it. -/
theorem quotePart_eq_quotePath_iff (hq : q ≠ '.') {name path : String} :
    quotePart q name = quotePath q path ↔ name = path ∧ '.' ∉ name.toList := by
  rw [quotePart_eq_quoteParts, quotePath,
    quoteParts_inj hq (by simp) (Text.pathParts_ne_nil path)]
  constructor
  · intro h
    obtain rfl : name = path := by
      rw [← Text.intercalate_pathParts path, ← h, String.intercalate_singleton]
    exact ⟨rfl, Text.pathParts_eq_singleton_iff.1 h.symm⟩
  · rintro ⟨rfl, hdot⟩
    exact (Text.pathParts_eq_singleton_iff.2 hdot).symm

end Names

/-! ## Quoting in a dialect -/

namespace Dialect

theorem quote_ne_dot (dialect : Dialect) : dialect.quote ≠ '.' := by
  cases dialect <;> decide

/-- **Quoted names and paths are read back, and the reading stops at their end.**

A name is read as one part, dots included, exactly if no further quote follows it. A path is read as
parts without dots, which make up the path with dots between them, exactly if neither a quote nor a
dot with a quote follows it. So the text of a name or of a path tells what was quoted, and the two
are the same text only for a name without dots. -/
theorem scan_of_quoted (dialect : Dialect) (name other rest : String) :
    (scanPart? dialect.quote (quotePart dialect.quote name ++ rest).toList
          = some (name, rest.toList)
        ↔ ¬ [dialect.quote] <+: rest.toList)
    ∧ ((∃ parts,
          scanParts? dialect.quote (quotePath dialect.quote name ++ rest).toList
            = some (parts, rest.toList)
          ∧ String.intercalate "." parts = name ∧ ∀ part ∈ parts, '.' ∉ part.toList)
        ↔ ¬ [dialect.quote] <+: rest.toList ∧ ¬ ['.', dialect.quote] <+: rest.toList)
    ∧ (quotePart dialect.quote name = quotePart dialect.quote other ↔ name = other)
    ∧ (quotePath dialect.quote name = quotePath dialect.quote other ↔ name = other)
    ∧ (quotePart dialect.quote name = quotePath dialect.quote other
        ↔ name = other ∧ '.' ∉ name.toList) := by
  have hq := dialect.quote_ne_dot
  refine ⟨?_, ⟨?_, ?_⟩, quotePart_inj hq, quotePath_inj hq, quotePart_eq_quotePath_iff hq⟩
  · rw [scanPart?_eq_some_iff, String.toList_append]
    exact and_iff_right rfl
  · rintro ⟨parts, hscan, -⟩
    exact ((scanParts?_eq_some_iff hq).1 hscan).2.2
  · rintro ⟨hrest, hdot⟩
    refine ⟨Text.pathParts name, ?_, Text.intercalate_pathParts name,
      fun part => Text.not_mem_of_mem_pathParts⟩
    rw [String.toList_append]
    exact scanParts?_quoteParts hq (Text.pathParts_ne_nil name) hrest hdot

end Dialect

end QueryTree

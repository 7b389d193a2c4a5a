import QueryTree.Proofs.Lexing.Atom

/-!
# The lexicon of a dialect

Everything that a statement may say in its own words: finite lists that depend on the dialect
alone.

* `Dialect.words`: keywords, operators, types, numerals.
* `Dialect.functions`: what may stand directly in front of a parenthesis.
* `Dialect.literals`: the texts between single quotes.
* `Atom.Admitted`: a unit of these lists, a placeholder of the dialect, or a quoted name.
* `Atom.only?`: the units that belong to a single dialect; `Atom.Admitted.dialect_eq` says that no
  other dialect admits them.
-/

namespace QueryTree

/-- Words of all dialects. -/
def commonWords : List String :=
  ["SELECT", "*", ".*", "FROM", "AS", "DISTINCT", "WHERE", "GROUP", "BY", "HAVING", "ORDER", "ASC",
    "DESC", "LIMIT", "OFFSET", "JOIN", "LEFT", "RIGHT", "CROSS", "FULL", "OUTER", "USING", "ON",
    "AND", "OR", "NOT", "=", "!=", "<", ">", "<=", ">=", "IN", "LIKE", "EXISTS", "BETWEEN", "IS",
    "NULL", "CASE", "WHEN", "THEN", "ELSE", "END", "/", "%", "+", "-", "CURRENT_DATE",
    "CURRENT_TIME", "CURRENT_TIMESTAMP", "INSERT", "INTO", "VALUES", "UPDATE", "SET", "DELETE"]

/-- Functions of all dialects. -/
def commonFunctions : List String :=
  ["CAST", "TRIM", "LTRIM", "RTRIM", "UPPER", "LOWER", "REPLACE", "POWER", "CEIL", "FLOOR", "ROUND",
    "SUM", "AVG", "COUNT", "MIN", "MAX", "PI"]

namespace Dialect

/-- Words of one dialect. -/
def ownWords : Dialect → List String
  | .mysql =>
    ["CHAR", "NCHAR", "DATE", "DATETIME", "TIME", "SIGNED", "UNSIGNED", "DECIMAL", "DOUBLE",
      "FLOAT", "BINARY", "JSON", "utf8mb4", "utf8", "latin1", "ascii", "utf16", "utf32", "binary",
      "INTERVAL", "MICROSECOND", "SECOND", "MINUTE", "HOUR", "DAY", "WEEK", "MONTH", "QUARTER",
      "YEAR", "LOCALTIME", "LOCALTIMESTAMP", "DUPLICATE", "KEY", "224", "256", "384", "512",
      "18446744073709551615"]
  | .postgresql =>
    ["CHAR", "NCHAR", "TEXT", "TEXT[]", "DATE", "TIMESTAMP", "TIME", "BIGINT", "INTEGER",
      "NUMERIC", "REAL", "DOUBLE", "PRECISION", "BYTEA", "JSONB", "BOOLEAN", "||", "@>", "#>",
      "INTERVAL", "LOCALTIME", "LOCALTIMESTAMP", "AT", "ZONE", "CONFLICT", "DO"]
  | .sqlite => ["TEXT", "INTEGER", "NUMERIC", "REAL", "BLOB", "||", "CONFLICT", "DO", "-1"]

/-- Keywords, operators, types and numerals. -/
def words (dialect : Dialect) : List String :=
  commonWords ++ dialect.ownWords

/-- Functions of one dialect. -/
def ownFunctions : Dialect → List String
  | .mysql =>
    ["NOW", "UTC_TIMESTAMP", "IF", "AES_ENCRYPT", "AES_DECRYPT", "UNHEX", "SHA2", "CONVERT",
      "CONCAT", "CONCAT_WS", "IFNULL", "SUBSTRING", "LPAD", "RPAD", "REVERSE", "JSON_OBJECT",
      "JSON_ARRAY", "JSON_ARRAYAGG", "JSON_EXTRACT", "JSON_CONTAINS", "STR_TO_DATE", "DATE_FORMAT",
      "DATE_ADD", "DATE_SUB"]
  | .postgresql =>
    ["NOW", "pgp_sym_encrypt", "pgp_sym_decrypt", "CONCAT", "CONCAT_WS", "COALESCE", "SUBSTR",
      "LPAD", "RPAD", "REVERSE", "json_build_object", "json_build_array", "json_agg",
      "TO_TIMESTAMP", "TO_CHAR"]
  | .sqlite =>
    ["DATETIME", "TIME", "STRFTIME", "COALESCE", "SUBSTR", "JSON_OBJECT", "JSON_ARRAY",
      "JSON_GROUP_ARRAY", "JSON_EXTRACT"]

/-- What may stand directly in front of a parenthesis. -/
def functions (dialect : Dialect) : List String :=
  commonFunctions ++ dialect.ownFunctions

/-- The texts between single quotes. -/
def literals : Dialect → List String
  | .mysql => ["%"]
  | .postgresql =>
    ["%", "UTC", "cipher-algo=aes128", "cipher-algo=aes192", "cipher-algo=aes256",
      "1 microsecond", "1 second", "1 minute", "1 hour", "1 day", "1 week", "1 month", "3 months",
      "1 year"]
  | .sqlite => ["%", "now", "localtime"]

theorem mem_words_of_common (dialect : Dialect) {w : String} (h : w ∈ commonWords) :
    w ∈ dialect.words :=
  List.mem_append_left _ h

theorem mem_functions_of_common (dialect : Dialect) {w : String} (h : w ∈ commonFunctions) :
    w ∈ dialect.functions :=
  List.mem_append_left _ h

/-! ## Spelling of the lists -/

/-- Whether a text is read as one word in every dialect. -/
def isWord (w : String) : Bool :=
  !w.toList.isEmpty
    && w.toList.all fun c => !([' ', ',', '(', ')', '\'', '?', '$', '"', '\x60'].contains c)

theorem isBare_of_isWord {w : String} (h : isWord w = true) (dialect : Dialect) :
    w.toList ≠ [] ∧ ∀ c ∈ w.toList, isBare dialect c = true := by
  simp only [isWord, Bool.and_eq_true, Bool.not_eq_true', List.isEmpty_eq_false_iff,
    List.all_eq_true] at h
  refine ⟨h.1, fun c hc => ?_⟩
  have hplain := h.2 c hc
  simp only [List.contains_eq_mem, List.mem_cons, List.not_mem_nil, or_false,
    decide_eq_false_iff_not, not_or] at hplain
  cases dialect <;> simp [isBare, Dialect.quote, hplain]

theorem isWord_common : ∀ w ∈ commonWords ++ commonFunctions, isWord w = true := by
  decide +kernel

theorem isWord_own {dialect : Dialect} :
    ∀ w ∈ dialect.ownWords ++ dialect.ownFunctions, isWord w = true := by
  cases dialect <;> decide +kernel

/-- Every word and every function is read as one word. -/
theorem isWord_of_mem {dialect : Dialect} {w : String}
    (h : w ∈ dialect.words ∨ w ∈ dialect.functions) : isWord w = true := by
  simp only [words, functions, List.mem_append] at h
  rcases h with (h | h) | (h | h)
  · exact isWord_common w (List.mem_append_left _ h)
  · exact isWord_own w (List.mem_append_left _ h)
  · exact isWord_common w (List.mem_append_right _ h)
  · exact isWord_own w (List.mem_append_right _ h)

theorem quote_not_mem_of_mem_literals {dialect : Dialect} :
    ∀ s ∈ dialect.literals, '\'' ∉ s.toList := by
  cases dialect <;> decide +kernel

end Dialect

/-! ## Admitted units -/

namespace Atom

/-- A unit of the lists of a dialect, a placeholder of it, or a quoted name. -/
def Admitted (dialect : Dialect) : Atom → Prop
  | .blank | .comma | .opening | .closing => True
  | .bare w => w ∈ dialect.words
  | .head w => w ∈ dialect.functions
  | .literal s => s ∈ dialect.literals
  | .name parts => ∃ s, quoteParts dialect.quote parts = quotePath dialect.quote s
      ∨ quoteParts dialect.quote parts = quotePart dialect.quote s
  | .question => dialect.isPositional = true
  | .doubleQuestion => dialect = .mysql
  | .numbered _ => dialect = .postgresql

/-- The dialect of units that belong to a single one. -/
def only? : Atom → Option Dialect
  | .head "IF" | .head "AES_ENCRYPT" | .head "AES_DECRYPT" | .head "CONVERT" | .doubleQuestion =>
    some .mysql
  | .head "pgp_sym_encrypt" | .head "pgp_sym_decrypt" | .bare "@>" | .bare "#>" | .numbered _ =>
    some .postgresql
  | .head "STRFTIME" | .head "DATETIME" | .head "JSON_GROUP_ARRAY" => some .sqlite
  | _ => none

/-- A unit that belongs to a single dialect is admitted by no other. -/
theorem Admitted.dialect_eq {dialect owner : Dialect} {a : Atom} (h : a.Admitted dialect)
    (ho : a.only? = some owner) : dialect = owner := by
  unfold only? at ho
  split at ho <;> simp only [Option.some.injEq, reduceCtorEq] at ho <;> subst ho <;>
    cases dialect <;> first | rfl | skip
  all_goals
    simp [Admitted, Dialect.functions, commonFunctions, Dialect.ownFunctions, Dialect.words,
      commonWords, Dialect.ownWords] at h

end Atom

end QueryTree

import QueryTree.Sql.Fragment

/-!
# Constants

Texts that stand for a value which the database computes.
-/

namespace QueryTree.Token

open Fragment (literal spaced parens call)

/-- Values that the database computes. -/
inductive Constant where
  | now
  | pi
  | currentDate
  | currentTime
  | currentTimestamp
  | localTime
  | localTimestamp
  | utcTimestamp
deriving DecidableEq, Repr

namespace Constant

/-- The constant with a given name. -/
def ofName? : String → Option Constant
  | "now" => some .now
  | "pi" => some .pi
  | "currentDate" => some .currentDate
  | "currentTime" => some .currentTime
  | "currentTimestamp" => some .currentTimestamp
  | "localTime" => some .localTime
  | "localTimestamp" => some .localTimestamp
  | "utcTimestamp" => some .utcTimestamp
  | _ => none

/-- The spelling of a constant. -/
def fragment (dialect : Dialect) : Constant → Fragment
  | .now =>
    match dialect with
    | .sqlite => call "DATETIME" [literal "now"]
    | .mysql | .postgresql => call "NOW" []
  | .pi => call "PI" []
  | .currentDate => "CURRENT_DATE"
  | .currentTime => "CURRENT_TIME"
  | .currentTimestamp => "CURRENT_TIMESTAMP"
  | .localTime =>
    match dialect with
    | .sqlite => call "TIME" [literal "now", literal "localtime"]
    | .mysql | .postgresql => "LOCALTIME"
  | .localTimestamp =>
    match dialect with
    | .sqlite => call "DATETIME" [literal "now", literal "localtime"]
    | .mysql | .postgresql => "LOCALTIMESTAMP"
  | .utcTimestamp =>
    match dialect with
    | .mysql => call "UTC_TIMESTAMP" []
    | .postgresql => parens (spaced [call "NOW" [], "AT", "TIME", "ZONE", literal "UTC"])
    | .sqlite => call "DATETIME" [literal "now"]

end Constant

end QueryTree.Token

import LedgerScript.Decimal.Integer

/-! What can be wrong with a value and where. Each fault has a code for programs and
a message for people. -/
namespace LedgerScript.Schema

inductive Step where
  | field (name : String)
  | item (index : Nat)
deriving DecidableEq, Repr

def Step.text : Step → String
  | .field name => name
  | .item i => Decimal.natText i

abbrev Path := List Step

def Path.text (p : Path) : String := ".".intercalate (p.map Step.text)

inductive Fault where
  | missing
  | notText
  | tooLong (limit : Nat)
  | noMatch (words : List String)
  | notOneOf (words : List String)
  | notList
  | tooFew (least actual : Nat)
  | notRecord (name : String)
  | notObject
  | notInteger
  | integerText
  | oversized
  | fractional
  | below (least : Int)
  | notFlag
  | flagText
  | notIdentifier
  | identifierText
  | notTimestamp
  | timestampText
  | timestampRange
  | refused (reason : String)
deriving DecidableEq, Repr

namespace Fault

def code : Fault → String
  | .missing => "missing"
  | .notText => "string_type"
  | .tooLong _ => "string_too_long"
  | .noMatch _ => "string_pattern_mismatch"
  | .notOneOf _ => "enum"
  | .notList => "list_type"
  | .tooFew .. => "too_short"
  | .notRecord _ => "model_type"
  | .notObject => "dict_type"
  | .notInteger => "int_type"
  | .integerText => "int_parsing"
  | .oversized => "int_parsing_size"
  | .fractional => "int_from_float"
  | .below _ => "greater_than_equal"
  | .notFlag => "bool_type"
  | .flagText => "bool_parsing"
  | .notIdentifier => "uuid_type"
  | .identifierText => "uuid_parsing"
  | .notTimestamp => "datetime_type"
  | .timestampText => "datetime_from_date_parsing"
  | .timestampRange => "datetime_parsing"
  | .refused _ => "value_error"

def quote (w : String) : String := "'" ++ w ++ "'"

/-- Words in quotes, a comma between them and the last after `or`. -/
def alternatives : List String → String
  | [] => ""
  | [w] => quote w
  | [v, w] => quote v ++ " or " ++ quote w
  | w :: ws => quote w ++ ", " ++ alternatives ws

/-- Malformed identifiers and timestamps have no wording of their own. -/
def message : Fault → Option String
  | .missing => some "Field required"
  | .notText => some "Input should be a valid string"
  | .tooLong limit =>
    some ("String should have at most " ++ Decimal.natText limit ++ " characters")
  | .noMatch words => some ("String should match pattern '^(" ++ "|".intercalate words ++ ")$'")
  | .notOneOf words => some ("Input should be " ++ alternatives words)
  | .notList => some "Input should be a valid list"
  | .tooFew least actual =>
    some ("List should have at least " ++ Decimal.natText least ++
      (if least = 1 then " item" else " items") ++ " after validation, not " ++
      Decimal.natText actual)
  | .notRecord name => some ("Input should be a valid dictionary or instance of " ++ name)
  | .notObject => some "Input should be a valid dictionary"
  | .notInteger => some "Input should be a valid integer"
  | .integerText =>
    some "Input should be a valid integer, unable to parse string as an integer"
  | .oversized => some "Unable to parse input string as an integer, exceeded maximum size"
  | .fractional =>
    some "Input should be a valid integer, got a number with a fractional part"
  | .below least => some ("Input should be greater than or equal to " ++ Decimal.intText least)
  | .notFlag => some "Input should be a valid boolean"
  | .flagText => some "Input should be a valid boolean, unable to interpret input"
  | .refused reason => some ("Value error, " ++ reason)
  | .notIdentifier | .identifierText | .notTimestamp | .timestampText | .timestampRange => none

end Fault

structure Issue where
  path : Path
  fault : Fault
deriving DecidableEq, Repr

def Issue.within (s : Step) (i : Issue) : Issue := { i with path := s :: i.path }

/-- One line: the path, or the given name for the whole value, and the message. -/
def Issue.line (whole : String) (i : Issue) : String :=
  (if i.path = [] then whole else i.path.text) ++ ": " ++ i.fault.message.getD ""

end LedgerScript.Schema

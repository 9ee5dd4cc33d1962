namespace TableAudit

/-- The kinds of problem that make a field of a model invalid. -/
inductive IssueKind
  | missing
  | frozen
  | boolType | boolParsing
  | intType | intParsing | intFromFloat
  | finiteNumber
  | floatType | floatParsing
  | stringType | stringUnicode
  | listType | tupleType | dictType
  | callableType
  | modelType (model : String)
  | atLeast (bound : String)
  | stated (text : String)
deriving DecidableEq, Repr

def IssueKind.tag : IssueKind → String
  | missing => "missing"
  | frozen => "frozen_instance"
  | boolType => "bool_type"
  | boolParsing => "bool_parsing"
  | intType => "int_type"
  | intParsing => "int_parsing"
  | intFromFloat => "int_from_float"
  | finiteNumber => "finite_number"
  | floatType => "float_type"
  | floatParsing => "float_parsing"
  | stringType => "string_type"
  | stringUnicode => "string_unicode"
  | listType => "list_type"
  | tupleType => "tuple_type"
  | dictType => "dict_type"
  | callableType => "callable_type"
  | modelType _ => "model_type"
  | atLeast _ => "greater_than_equal"
  | stated _ => "value_error"

def IssueKind.message : IssueKind → String
  | missing => "Field required"
  | frozen => "Instance is frozen"
  | boolType => "Input should be a valid boolean"
  | boolParsing => "Input should be a valid boolean, unable to interpret input"
  | intType => "Input should be a valid integer"
  | intParsing => "Input should be a valid integer, unable to parse string as an integer"
  | intFromFloat => "Input should be a valid integer, got a number with a fractional part"
  | finiteNumber => "Input should be a finite number"
  | floatType => "Input should be a valid number"
  | floatParsing => "Input should be a valid number, unable to parse string as a number"
  | stringType => "Input should be a valid string"
  | stringUnicode =>
    "Input should be a valid string, unable to parse raw data as a unicode string"
  | listType => "Input should be a valid list"
  | tupleType => "Input should be a valid tuple"
  | dictType => "Input should be a valid dictionary"
  | callableType => "Input should be callable"
  | modelType model => "Input should be a valid dictionary or instance of " ++ model
  | atLeast bound => "Input should be greater than or equal to " ++ bound
  | stated text => "Value error, " ++ text

/-- A problem with a part of a model, by its place in the model. -/
structure Issue where
  place : List String
  kind : IssueKind
deriving DecidableEq, Repr

end TableAudit

/-
Errors: why a query, a tree or a set of options was not accepted.

* **`Error`** — the causes, each with what is needed to name it;
* **`Error.message`** — the one place where errors are put into words.
-/
import FilterQuery.Expr.Basic
import FilterQuery.FieldType
import FilterQuery.Token.Basic

namespace FilterQuery

/-- Why something was not accepted.  Positions are byte offsets in the query. -/
inductive Error
  /-- Something that the call needs is missing or unusable. -/
  | invalidParameter (detail : String)
  /-- The query cannot be cut into tokens. -/
  | lexical (fault : Fault) (position : Nat) (query : String)
  /-- An opening parenthesis where none may stand, after an operand or half of one. -/
  | unexpectedOpening (position : Nat) (after : Option String) (query : String)
  /-- A closing parenthesis that closes nothing, or an empty group. -/
  | unexpectedClosing (position : Nat) (query : String)
  /-- A group is not closed. -/
  | unclosedGroup (query : String)
  /-- A column is not followed by a comparison. -/
  | missingCompareOp (column : String) (query : String)
  /-- A column and a comparison are not followed by a value. -/
  | missingValue (column : String) (op : CompareOp) (query : String)
  /-- Two operands stand side by side. -/
  | missingConnective (query : String)
  /-- A comparison where none may stand. -/
  | unexpectedToken (lexeme : Lexeme) (position : Nat) (query : String)
  /-- A word where no operand is due. -/
  | unexpectedOperand (text : String) (position : Nat) (query : String)
  /-- A connective without an operand before it. -/
  | unexpectedConnective (op : Connective) (position : Nat) (query : String)
  /-- A connective without an operand after it. -/
  | missingRightOperand (query : String)
  /-- A query without any operand. -/
  | missingExpression (query : String)
  /-- Groups or trees are nested too deeply. -/
  | tooDeep (limit : Nat) (subject : String)
  /-- A text is no comparison. -/
  | unknownCompareOp (text : String)
  /-- A comparison that the type of a field does not allow. -/
  | unsupportedCompareOp (op : CompareOp) (type : FieldType) (column : String)
  /-- A text is no connective. -/
  | unknownConnective (text : String)
  /-- A comparison without a column. -/
  | missingColumn (comparison : Comparison)
  /-- A comparison without a value. -/
  | unboundComparison (comparison : Comparison)
  /-- A column that no field of the schema stands for. -/
  | unknownColumn (column : String)
  /-- A value that is not of the type of its field. -/
  | invalidValue (value : String) (context : String) (source : DataError)
  /-- Two converters for one field. -/
  | duplicateConverter (field : String)
  /-- Two entries of a column map for one column. -/
  | duplicateMapping (column : String)
  /-- An error of the data itself. -/
  | data (source : DataError)
  /-- A failure that is not the caller's. -/
  | unexpectedFailure (detail : String)
deriving DecidableEq

namespace Error

/-- A natural number in a message. -/
def number (n : Nat) : String :=
  String.ofList (Nat.toDigits 10 n)

/-- The message of a lexical fault at a place. -/
def lexicalMessage (fault : Fault) (position : Nat) (query : String) : String :=
  let place := " at " ++ number position ++ " in: " ++ Text.quote query
  match fault with
  | .notEqual got => "Invalid \"!=\" token, got " ++ Text.quote got ++ place
  | .unclosed delimiter =>
    "Missing closing delimiter " ++ String.singleton delimiter ++ " for string" ++ place
  | .dangling => "Trailing backslash" ++ place
  | .number literal => "Invalid number " ++ Text.quote literal ++ place

/-- The message of an error. -/
def message : Error → String
  | invalidParameter detail => "Invalid parameter: " ++ detail
  | lexical fault position query => lexicalMessage fault position query
  | unexpectedOpening position after query =>
    "Unexpected opening paren at " ++ number position ++
      (match after with
        | some operand => " after " ++ operand
        | none => "") ++
      " in: " ++ Text.quote query
  | unexpectedClosing position query =>
    "Unexpected closing paren \")\" at " ++ number position ++
      " but no left side expression has been parsed in: " ++ Text.quote query
  | unclosedGroup query => "Missing closing paren in: " ++ Text.quote query
  | missingCompareOp column query =>
    "Missing comparison operator after " ++ Text.quote column ++ " in: " ++ Text.quote query
  | missingValue column op query =>
    "Missing comparison value in: " ++ column ++ op.symbol ++ " in " ++ Text.quote query
  | missingConnective query =>
    "Missing logical operator before right side expr in: " ++ Text.quote query
  | unexpectedToken lexeme position query =>
    "Unexpected token " ++ lexeme.render ++ " at " ++ number position ++ " in: " ++
      Text.quote query
  | unexpectedOperand text position query =>
    "Unexpected expression starting at " ++ Text.quote text ++ " (" ++ number position ++
      ") in: " ++ Text.quote query
  | unexpectedConnective op position query =>
    "Unexpected logical operator " ++ Text.quote op.word ++ " at " ++ number position ++
      " in: " ++ Text.quote query
  | missingRightOperand query =>
    "Logical operator without a right side expr in: " ++ Text.quote query
  | missingExpression query => "Missing expression in: " ++ Text.quote query
  | tooDeep limit subject =>
    "Expression nesting exceeds the maximum depth of " ++ number limit ++ " in: " ++
      Text.quote subject
  | unknownCompareOp text => "Invalid comparison operator " ++ Text.quote text
  | unsupportedCompareOp op type column =>
    "Invalid comparison operator " ++ Text.quote op.symbol ++ " for " ++ type.name ++
      " field " ++ Text.quote column
  | unknownConnective text => "Invalid logical operator " ++ Text.quote text
  | missingColumn comparison => "Missing column in: " ++ comparison.render
  | unboundComparison comparison => "Missing comparison value in: " ++ comparison.render
  | unknownColumn column => "Invalid column " ++ Text.quote column
  | invalidValue value context source =>
    "Invalid value " ++ Text.quote value ++ " in " ++ context ++ ": " ++ source.message
  | duplicateConverter field => "Duplicate converter for field " ++ Text.quote field
  | duplicateMapping column => "Duplicate column mapping for " ++ Text.quote column
  | data source => source.message
  | unexpectedFailure detail => "Internal error: " ++ detail

end Error

end FilterQuery

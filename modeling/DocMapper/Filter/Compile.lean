import DocMapper.Filter.Basic
import DocMapper.Text.Segments

set_option autoImplicit false

/-!
# Filters read from documents

`Filter.compile` reads a filter document. Its keys are `$and`, `$or` and `$nor` over lists of filter
documents, or dotted paths. The value at a path is compared for equality, unless it is a document
whose first key is an operator; then all of its keys are the conditions `$eq`, `$ne`, `$in`, `$nin`,
`$exists`, `$gt`, `$gte`, `$lt` and `$lte`. The first part in document order that is none of these
is the fault.
-/

namespace DocMapper.Filter

/-- Why a document is no filter. -/
inductive Fault where
  | topLevelOperator (operator : String)
  | emptyOperands (operator : String)
  | operandNotDocument (operator : String)
  | fieldOperator (operator : String)
  | operandNotArray (operator : String)
deriving DecidableEq

/-- What a fault says. -/
def Fault.message : Fault → String
  | topLevelOperator operator => "top-level operator '" ++ operator ++ "'"
  | emptyOperands operator => "'" ++ operator ++ "' expects a non-empty array"
  | operandNotDocument operator => "'" ++ operator ++ "' expects documents"
  | fieldOperator operator => "field operator '" ++ operator ++ "'"
  | operandNotArray operator => "'" ++ operator ++ "' expects an array"

/-- Whether a key is an operator. -/
def isOperator (key : String) : Bool := key.toList.head? = some '$'

/-- The names that a dotted path goes through. -/
def segments (path : String) : List String :=
  (Text.splitAt '.' path.toList).map String.ofList

/-- Whether a value counts as true under `$exists`. -/
def isTruthy : Value → Bool
  | .boolean b => b
  | .int32 n => n != 0
  | .int64 n => n != 0
  | .double x => !x.isZero
  | .null => false
  | _ => true

/-- The values of an operand that must be an array. -/
def operandArray (operator : String) : Value → Except Fault (List Value)
  | .array items => .ok items
  | _ => .error (.operandNotArray operator)

/-- The condition that an operator and its operand are. -/
def compileCondition (operator : String) (operand : Value) : Except Fault Condition :=
  match operator with
  | "$eq" => .ok (.equal operand)
  | "$ne" => .ok (.notEqual operand)
  | "$in" => (operandArray operator operand).map fun values => .oneOf (.ofList values)
  | "$nin" => (operandArray operator operand).map fun values => .noneOf (.ofList values)
  | "$exists" => .ok (.exists (isTruthy operand))
  | "$gt" => .ok (.ordered .gt false operand)
  | "$gte" => .ok (.ordered .gt true operand)
  | "$lt" => .ok (.ordered .lt false operand)
  | "$lte" => .ok (.ordered .lt true operand)
  | _ => .error (.fieldOperator operator)

/-- Whether the first key of a document is an operator. -/
def isOperatorDocument (doc : Document) : Bool :=
  match doc with
  | [] => false
  | (key, _) :: _ => isOperator key

/-- The conditions on the values at a path. -/
def compileConditions : Value → Except Fault (List Condition)
  | .document fields =>
      if isOperatorDocument fields then
        fields.mapM fun field => compileCondition field.1 field.2
      else .ok [.equal (.document fields)]
  | v => .ok [.equal v]

/-- The clause for a path. -/
def compileField (path : String) (v : Value) : Except Fault Filter :=
  (compileConditions v).map (.field (segments path))

mutual
/-- The clauses of a filter document in order. -/
def compileClauses : List (String × Value) → Except Fault (List Filter)
  | [] => .ok []
  | (key, v) :: rest =>
      match compileClause key v with
      | .error fault => .error fault
      | .ok clause => (compileClauses rest).map (clause :: ·)
/-- The clause of one key. -/
def compileClause (key : String) : Value → Except Fault Filter
  | .array (item :: items) =>
      if key = "$and" then (compileOperands key (item :: items)).map .all
      else if key = "$or" then (compileOperands key (item :: items)).map .any
      else if key = "$nor" then (compileOperands key (item :: items)).map .none
      else if isOperator key then .error (.topLevelOperator key)
      else compileField key (.array (item :: items))
  | v =>
      if key = "$and" ∨ key = "$or" ∨ key = "$nor" then .error (.emptyOperands key)
      else if isOperator key then .error (.topLevelOperator key)
      else compileField key v
/-- The filters of a list of filter documents. -/
def compileOperands (operator : String) : List Value → Except Fault (List Filter)
  | [] => .ok []
  | .document fields :: rest =>
      match compileClauses fields with
      | .error fault => .error fault
      | .ok clauses => (compileOperands operator rest).map (.all clauses :: ·)
  | _ :: _ => .error (.operandNotDocument operator)
end

/-- The filter that a document is. -/
def compile (doc : Document) : Except Fault Filter := (compileClauses doc).map .all

end DocMapper.Filter

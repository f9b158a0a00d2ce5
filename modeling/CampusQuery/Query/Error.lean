import CampusQuery.Query.Plan

/-!
# Query errors

A document that breaks a rule of the query language does so in one way, a
`Violation`; running a plan can break down in few ways, an `ExecutionFault`.
Callers see both as texts inside a `QueryError`.
-/

namespace CampusQuery.Query

/-- The parts of a query document that rules speak of. -/
inductive Part where
  | query
  | filters
  | filter
  | logic (op : LogicOp)
  | compare (op : CompareOp)
  | not
  | is
  | transformations
  | group
  | apply
  | applyRule
  | applyBody
  | options
  | columns
  | order
  | orderKeys
deriving DecidableEq, Repr

def Part.name : Part → String
  | .query => "Query"
  | .filters => "WHERE"
  | .filter => "Filter"
  | .logic op => op.key
  | .compare op => op.key
  | .not => "NOT"
  | .is => "IS"
  | .transformations => "TRANSFORMATIONS"
  | .group => "GROUP"
  | .apply => "APPLY"
  | .applyRule => "APPLY rule"
  | .applyBody => "APPLY body"
  | .options => "OPTIONS"
  | .columns => "COLUMNS"
  | .order => "ORDER"
  | .orderKeys => "ORDER keys"

/-- How a document breaks the rules. -/
inductive Violation where
  | notJson
  | notObject (part : Part)
  | notArray (part : Part)
  | emptyArray (part : Part)
  | keysNotTexts (part : Part)
  | entryCount (part : Part) (count : Nat)
  | wrongKeys (part : Part) (found : List String) (layouts : List (List String))
  | noDataset
  | secondDataset (bound other : String)
  | unknownDataset (id : String)
  | malformedKey (key : String)
  | unknownField (key : String) (kind : Kind) (field : String)
  | wrongFieldType (part : String) (key : String) (wanted : FieldType)
  | operandNotNumber (op : CompareOp)
  | operandNotText
  | innerWildcard (raw : String)
  | unknownFilter (key : String)
  | emptyApplyName
  | separatorInApplyName (name : String)
  | duplicateApply (name : String)
  | unknownToken (token : String)
  | targetNotText (token : ApplyToken)
  | duplicateColumn (name : String)
  | repeatedSource (name : String)
  | bareColumn (name : String)
  | unknownColumn (name : String)
  | orderKeyNotColumn (key : String)
  | orderShape
  | orderDirection
  | orderType
  | columnSet
deriving DecidableEq, Repr

namespace Violation

def typeName : FieldType → String
  | .numeric => "numeric"
  | .text => "string"

def message : Violation → String
  | .notJson => "Query is not valid JSON"
  | .notObject part => part.name ++ " must be an object"
  | .notArray part => part.name ++ " must be an array"
  | .emptyArray part => part.name ++ " must be a non-empty array"
  | .keysNotTexts part => part.name ++ " keys must be strings"
  | .entryCount part count =>
      part.name ++ " must have exactly one key, found " ++ toString count
  | .wrongKeys part found layouts =>
      part.name ++ " has keys [" ++ ", ".intercalate found ++ "], expected ["
        ++ " | ".intercalate (layouts.map fun layout => ", ".intercalate layout) ++ "]"
  | .noDataset => "Query does not reference any dataset"
  | .secondDataset bound other =>
      "Cannot query more than one dataset: '" ++ bound ++ "' and '" ++ other ++ "'"
  | .unknownDataset id => "Referenced dataset '" ++ id ++ "' not added yet"
  | .malformedKey key => "Invalid key '" ++ key ++ "'"
  | .unknownField key kind field =>
      "Invalid key '" ++ key ++ "': " ++ kind.name ++ " datasets have no field '" ++ field ++ "'"
  | .wrongFieldType part key wanted =>
      "Invalid key type in " ++ part ++ ": '" ++ key ++ "' is not a " ++ typeName wanted ++ " field"
  | .operandNotNumber op => "Invalid value type in " ++ op.key ++ ", should be number"
  | .operandNotText => "Invalid value type in IS, should be string"
  | .innerWildcard raw =>
      "Asterisks (*) can only be the first or last characters of input strings: '" ++ raw ++ "'"
  | .unknownFilter key => "Invalid filter key: " ++ key
  | .emptyApplyName => "APPLY key cannot be empty"
  | .separatorInApplyName name => "Cannot have underscore in APPLY key '" ++ name ++ "'"
  | .duplicateApply name => "Duplicate APPLY key '" ++ name ++ "'"
  | .unknownToken token => "Invalid APPLY token '" ++ token ++ "'"
  | .targetNotText token => "Invalid key type in " ++ token.name
  | .duplicateColumn name => "Duplicate COLUMNS key '" ++ name ++ "'"
  | .repeatedSource name => "COLUMNS key '" ++ name ++ "' repeats an earlier column"
  | .bareColumn name =>
      "Invalid key '" ++ name ++ "' in COLUMNS: bare keys require TRANSFORMATIONS"
  | .unknownColumn name =>
      "Invalid key '" ++ name ++ "' in COLUMNS: not a GROUP key or APPLY key"
  | .orderKeyNotColumn key => "ORDER key '" ++ key ++ "' must be in COLUMNS"
  | .orderShape => "ORDER must have exactly the keys dir and keys"
  | .orderDirection => "Invalid ORDER direction, must be UP or DOWN"
  | .orderType => "Invalid ORDER type"
  | .columnSet => "COLUMNS must contain exactly the GROUP keys and APPLY keys"

end Violation

/-- How running a plan breaks down. Plans made from documents never do. -/
inductive ExecutionFault where
  | wrongKind (id : String) (found expected : Kind)
  | noField (kind : Kind) (field : Field)
  | applyWithoutGroup (name : String)
  | unknownApply (name : String)
  | emptyGroup
  | emptyAggregate
  | emptyAverage
  | textAggregate
deriving DecidableEq, Repr

def ExecutionFault.message : ExecutionFault → String
  | .wrongKind id found expected =>
      "dataset '" ++ id ++ "' holds " ++ found.name ++ " records, query expects " ++ expected.name
  | .noField kind field => kind.name ++ " records have no field '" ++ field.bareName ++ "'"
  | .applyWithoutGroup name => "APPLY column '" ++ name ++ "' without GROUP"
  | .unknownApply name => "unknown APPLY column '" ++ name ++ "'"
  | .emptyGroup => "empty group"
  | .emptyAggregate => "aggregate over empty group"
  | .emptyAverage => "average over empty group"
  | .textAggregate => "numeric aggregate over a string field"

/-- Why a query has no answer. -/
inductive QueryError where
  | invalid (reason : String)
  | tooLarge (rows limit : Nat)
  | datasetNotFound (id : String)
  | execution (reason : String)
deriving DecidableEq, Repr

namespace QueryError

def message : QueryError → String
  | .invalid reason => "Invalid query: " ++ reason
  | .tooLarge rows limit =>
      "Result too large: " ++ toString rows ++ " rows exceeds the limit of " ++ toString limit
  | .datasetNotFound id => "Dataset not found: " ++ id
  | .execution reason => "Execution error: " ++ reason

/-- Whether the query itself is at fault; an unknown dataset counts. -/
def isValidation : QueryError → Bool
  | .invalid _ => true
  | .datasetNotFound _ => true
  | _ => false

/-- Whether the answer has too many rows. -/
def isTooLarge : QueryError → Bool
  | .tooLarge .. => true
  | _ => false

end QueryError

instance : Coe ExecutionFault QueryError := ⟨fun fault => .execution fault.message⟩

end CampusQuery.Query

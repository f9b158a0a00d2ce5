import CampusQuery.Query.Filter

/-!
# Query plans

What a query document asks for once every name in it has been resolved.
-/

namespace CampusQuery.Query

/-- Where the cells of a column come from. -/
inductive ColumnSource where
  | field (field : Field)
  | apply (name : String)
deriving DecidableEq, Repr

/-- An output column. -/
structure Column where
  name : String
  source : ColumnSource
deriving DecidableEq, Repr

/-- The direction of an order, shared by all its keys. -/
inductive Direction where
  | up
  | down
deriving DecidableEq, Repr

namespace Direction

def name : Direction → String
  | .up => "UP"
  | .down => "DOWN"

def ofName? (text : String) : Option Direction :=
  [Direction.up, .down].find? fun direction => direction.name = text

end Direction

/-- Column names to sort by, the first one first. -/
structure OrderSpec where
  keys : List String
  direction : Direction
deriving DecidableEq, Repr

/-- How the values of a field over a group become one number. -/
inductive ApplyToken where
  | max
  | min
  | avg
  | sum
  | count
deriving DecidableEq, Repr

namespace ApplyToken

def all : List ApplyToken := [.max, .min, .avg, .sum, .count]

def name : ApplyToken → String
  | .max => "MAX"
  | .min => "MIN"
  | .avg => "AVG"
  | .sum => "SUM"
  | .count => "COUNT"

def ofName? (text : String) : Option ApplyToken := all.find? fun token => token.name = text

/-- Counting takes any field; the other tokens need numbers. -/
def accepts (token : ApplyToken) (field : Field) : Bool := token = .count || field.isNumeric

end ApplyToken

/-- A named number computed for each group. -/
structure ApplyRule where
  name : String
  token : ApplyToken
  field : Field
deriving DecidableEq, Repr

/-- How records are grouped. Without group fields there are no groups. -/
structure Transform where
  group : List Field
  apply : List ApplyRule
deriving DecidableEq, Repr

namespace Transform

/-- The transformation that does nothing. -/
def none : Transform := ⟨[], []⟩

def isGrouped (transform : Transform) : Bool := !transform.group.isEmpty

end Transform

/-- A query with all names resolved. Without a filter every record counts. -/
structure Plan where
  datasetId : String
  kind : Kind
  filter : Option FilterTree
  columns : List Column
  order : Option OrderSpec
  transform : Transform
deriving DecidableEq, Repr

namespace Plan

def columnNames (plan : Plan) : List String := plan.columns.map Column.name

end Plan

end CampusQuery.Query

/-!
# Text patterns

A pattern is a text with at most one asterisk at each end, where an asterisk
stands for any text. Parsing settles which of five questions the pattern asks.
-/

namespace CampusQuery.Query

/-- What a pattern asks of a text. -/
inductive Pattern where
  | any
  | exact (text : String)
  | startsWith (text : String)
  | endsWith (text : String)
  | contains (text : String)
deriving DecidableEq, Repr

namespace Pattern

/-- The character that stands for any text. -/
def wildcard : Char := '*'

def splitLeading : List Char → Bool × List Char
  | [] => (false, [])
  | c :: rest => if c = wildcard then (true, rest) else (false, c :: rest)

def splitTrailing (text : List Char) : Bool × List Char :=
  let (found, rest) := splitLeading text.reverse
  (found, rest.reverse)

/-- Read a pattern; a wildcard anywhere but at the ends is refused. -/
def parse? (raw : String) : Option Pattern :=
  let (leading, rest) := splitLeading raw.toList
  let (trailing, inner) := splitTrailing rest
  if inner.contains wildcard then none
  else if inner.isEmpty && (leading || trailing) then some .any
  else
    let text := String.ofList inner
    match leading, trailing with
    | false, false => some (.exact text)
    | true, false => some (.endsWith text)
    | false, true => some (.startsWith text)
    | true, true => some (.contains text)

/-- Whether a text occurs somewhere in another. -/
def occursIn (text : List Char) : List Char → Bool
  | [] => text.isEmpty
  | c :: rest => text.isPrefixOf (c :: rest) || occursIn text rest

/-- Whether a text answers the pattern's question. -/
def accepts : Pattern → String → Bool
  | .any, _ => true
  | .exact text, value => value = text
  | .startsWith text, value => text.toList.isPrefixOf value.toList
  | .endsWith text, value => text.toList.isSuffixOf value.toList
  | .contains text, value => occursIn text.toList value.toList

end Pattern

end CampusQuery.Query

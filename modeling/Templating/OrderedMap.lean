namespace Templating

/-- Pairs of a key and its value, each key once, in the order in which keys were first inserted. -/
abbrev OrderedMap (α : Type) := List (String × α)

namespace OrderedMap
variable {α : Type}

/-- Sets the value of a key. A key that is there already keeps its place. -/
def set : OrderedMap α → String → α → OrderedMap α
  | [], key, value => [(key, value)]
  | (k, v) :: rest, key, value =>
    if k = key then (k, value) :: rest else (k, v) :: set rest key value

def keys (m : OrderedMap α) : List String := m.map Prod.fst

end OrderedMap

end Templating

/-!
# Declarations

A declaration gives a value to a property by name.  Name and value are text that is
not checked; a typed way to make them is `StyleSheet.Setting`.
-/

namespace StyleSheet

/-- A declaration: the name of a property and its written value. -/
structure Property where
  name : String
  value : String
  deriving DecidableEq

namespace Property

/-- The declaration as it is written in a block. -/
def text (p : Property) : String := p.name ++ ": " ++ p.value ++ ";"

end Property
end StyleSheet

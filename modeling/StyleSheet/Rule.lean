import StyleSheet.Property

/-!
# Rules

A rule as it is written down, in a sheet or in a manifest: the text of its selector and
its declarations.
-/

namespace StyleSheet

/-- A written rule. -/
structure Rule where
  selector : String
  properties : List Property
  deriving DecidableEq

end StyleSheet

import StyleSheet.Setting

/-!
# Collecting declarations

A builder collects declarations in the order in which they are set.  It only grows at
its end: `properties_set` is the whole of what a setting does to it, and
`properties_setAll` of what a run of settings does.
-/

namespace StyleSheet

/-- Declarations in the order in which they were set. -/
structure Builder where
  properties : List Property
  deriving DecidableEq

namespace Builder

/-- A builder without declarations. -/
def empty : Builder := ⟨[]⟩

/-- Sets one more property. -/
def set (b : Builder) (s : Setting) : Builder := ⟨b.properties ++ [s.property]⟩

/-- Sets several properties in turn. -/
def setAll (b : Builder) (settings : List Setting) : Builder := settings.foldl set b

def size (b : Builder) : Nat := b.properties.length

def isEmpty (b : Builder) : Bool := b.properties.isEmpty

/-- The declaration set last. -/
def last? (b : Builder) : Option Property := b.properties.getLast?

@[simp] theorem properties_empty : empty.properties = [] := rfl

@[simp] theorem properties_set (b : Builder) (s : Setting) :
    (b.set s).properties = b.properties ++ [s.property] := rfl

@[simp] theorem properties_setAll (b : Builder) (settings : List Setting) :
    (b.setAll settings).properties = b.properties ++ settings.map Setting.property := by
  unfold setAll
  induction settings generalizing b with
  | nil => simp
  | cons s rest ih => simp [ih]

@[simp] theorem size_set (b : Builder) (s : Setting) : (b.set s).size = b.size + 1 := by
  simp [size]

end Builder
end StyleSheet

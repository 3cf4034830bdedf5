import StyleSheet.Manifest
import StyleSheet.Proofs.Json.Reader

/-!
# The members of a manifest

The records of a manifest are read into states that say of each member whether it was there,
and with which value.  A member that was not there yet is set by the value it is read as, and
leaves the other one as it is; so one lemma for each component of the state covers the members
of all records, however they are spelled and in whichever order they come.
-/

namespace StyleSheet
namespace Manifest

open Json

variable {α β γ : Type} {key : String} {optional : Bool} {k w w' v : List Char}

/-- A member that is read into the first component. -/
theorem spellsMember_first {shape : Shape (Option α × Option β) γ} {read : Reader α} {a : α}
    (b : Option β)
    (hfield : shape.fields.find? (·.key == key) = some (firstField key optional read))
    (hkey : SpellsString k key.toList) (hw : IsSpaces w) (hw' : IsSpaces w')
    (hv : Spells read v a) :
    shape.SpellsMember (none, b) ('"' :: (k ++ (w ++ ':' :: (w' ++ v)))) (some a, b) :=
  Shape.spellsMember_of_spells hfield rfl (fun s r h => by simp only [firstField, h]) hkey hw
    hw' hv

/-- A member that is read into the second component. -/
theorem spellsMember_second {shape : Shape (Option α × Option β) γ} {read : Reader β} {b : β}
    (a : Option α)
    (hfield : shape.fields.find? (·.key == key) = some (secondField key optional read))
    (hkey : SpellsString k key.toList) (hw : IsSpaces w) (hw' : IsSpaces w')
    (hv : Spells read v b) :
    shape.SpellsMember (a, none) ('"' :: (k ++ (w ++ ':' :: (w' ++ v)))) (a, some b) :=
  Shape.spellsMember_of_spells hfield rfl (fun s r h => by simp only [secondField, h]) hkey hw
    hw' hv

/-- The member of a manifest. -/
theorem spellsMember_sheets {sheets : List ManifestSheet}
    (hkey : SpellsString k "sheets".toList) (hw : IsSpaces w) (hw' : IsSpaces w')
    (hv : Spells (list sheetShape.record) v sheets) :
    shape.SpellsMember none ('"' :: (k ++ (w ++ ':' :: (w' ++ v)))) (some sheets) :=
  Shape.spellsMember_of_spells rfl rfl (fun s r h => by simp only [h]) hkey hw hw' hv

end Manifest
end StyleSheet

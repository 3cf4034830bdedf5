import StyleSheet.Failure
import StyleSheet.FileSystem.Operations
import StyleSheet.Manifest

/-!
# Manifests in files

A manifest is read from a file, which must be text.
-/

namespace StyleSheet
namespace Manifest

/-- The manifest of a document. -/
def parse (document : String) : Except Failure Manifest :=
  match ofJson document with
  | .ok m => .ok m
  | .error e => .error (.manifest e)

/-- The manifest in a file. -/
def load (files : FileSystem) (p : Path) : Except Failure Manifest :=
  match files.readText p with
  | .error e => .error (.file e)
  | .ok document => parse document

end Manifest
end StyleSheet

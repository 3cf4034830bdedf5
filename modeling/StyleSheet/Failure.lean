import StyleSheet.FileSystem
import StyleSheet.Json.Error
import StyleSheet.Path.Output

/-!
# Failures

What can end the work on a list of sheets: a file operation that fails, a manifest that
cannot be read, or an output path that is not taken.
-/

namespace StyleSheet

/-- Why work on sheets ended. -/
inductive Failure where
  | file (fault : FileFault)
  | manifest (error : Json.Error)
  | outputPath (refused : RefusedPath)
  deriving DecidableEq

/-- What is reported about a failure. -/
def Failure.message : Failure → String
  | .file fault => "I/O error: " ++ fault.message
  | .manifest error => "manifest error: " ++ error.message
  | .outputPath refused => refused.message

end StyleSheet

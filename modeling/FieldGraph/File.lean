import FieldGraph.Error
import FieldGraph.Json.Reader

/-!
# Files

The content of a file is a row of bytes, or nothing if there is no such file. A document is read
from a file that holds its text.
-/
namespace FieldGraph

abbrev FileContent := Option ByteArray

def FileContent.text (path : String) : FileContent → Except GraphError String
  | none => .error (.file path .notFound)
  | some bytes =>
    match String.fromUTF8? bytes with
    | some text => .ok text
    | none => .error (.file path .notText)

theorem FileContent.text_toUTF8 (path text : String) :
    FileContent.text path (some text.toUTF8) = .ok text := by
  have hvalid : text.toUTF8.IsValidUTF8 := text.isValidUTF8
  have hread : String.fromUTF8? text.toUTF8 = some text := by
    rw [String.fromUTF8?, dif_pos hvalid]
    rfl
  simp only [FileContent.text, hread]

def loadDocument (path : String) (content : FileContent) : Except GraphError Json := do
  let text ← content.text path
  match Json.parse? text with
  | some document => return document
  | none => .error (.content (.notJson path))

end FieldGraph

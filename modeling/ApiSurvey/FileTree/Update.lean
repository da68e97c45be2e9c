import ApiSurvey.FileTree.Basic
import ApiSurvey.Keyed

/-! Changing file trees. -/
namespace ApiSurvey.FileTree

/-- The entries of a directory; a file has none. -/
def entriesOf : FileTree → List (String × FileTree)
  | .file _ => []
  | .directory entries => entries

/-- Puts something at the end of plain names. Directories that are missing on the way are made. -/
def insert (tree : FileTree) (names : List String) (new : FileTree) : FileTree :=
  match names with
  | [] => new
  | name :: names =>
      let entries := entriesOf tree
      let place := (child? entries name).getD empty
      .directory (Keyed.set entries name (insert place names new))

/-- Takes away what stands at the end of plain names. -/
def erase (tree : FileTree) : List String → FileTree
  | [] => tree
  | [name] => .directory ((entriesOf tree).filter fun (other, _) => other ≠ name)
  | name :: names =>
      match child? (entriesOf tree) name with
      | none => tree
      | some place => .directory (Keyed.set (entriesOf tree) name (erase place names))

/-- The files of the second tree that are not in the first one with the same content. -/
def changedFiles (before after : FileTree) : List (List String × List UInt8) :=
  after.files.filter fun (names, content) =>
    match before.get? names with
    | some (.file old) => old ≠ content
    | _ => true

end ApiSurvey.FileTree

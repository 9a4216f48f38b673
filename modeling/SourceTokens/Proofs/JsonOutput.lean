/-
# `SourceTokens.Proofs.JsonOutput` — the printed document is read back

What is printed of any files as a document is a JSON text and a newline, whatever
characters the names and the tokens hold (`Output.json_readsBack`).  It says the files,
each with its name and its tokens under the only two keys, and says nothing else: a
reader that keeps to the grammar finds the files that were printed.
-/
import SourceTokens.Output
import SourceTokens.Proofs.Json.Exact
import SourceTokens.Proofs.Json.Values
import SourceTokens.Proofs.Json.Written

namespace SourceTokens.Output

open SourceTokens.Json (Document)

/-- What is said of a file. -/
def fileDocument (f : FileTokens) : Document :=
  .object [("file", .string f.file), ("tokens", .array (f.tokens.map .string))]

/-- What is said of files. -/
def filesDocument (files : List FileTokens) : Document := .array (files.map fileDocument)

/-- The file that a document is about, if it has the two keys and no others. -/
def fileOf? : Document → Option FileTokens
  | .object [("file", .string file), ("tokens", .array ds)] =>
    (ds.mapM Document.string?).map fun tokens => ⟨file, tokens⟩
  | _ => none

/-- The files that a document is about. -/
def filesOf? : Document → Option (List FileTokens)
  | .array ds => ds.mapM fileOf?
  | _ => none

theorem mapM_map_eq_some {α β : Type} {f : β → Option α} (g : α → β)
    (h : ∀ a, f (g a) = some a) (as : List α) : (as.map g).mapM f = some as := by
  induction as with
  | nil => rfl
  | cons a as ih => simp [h, ih]

theorem fileOf?_fileDocument (f : FileTokens) : fileOf? (fileDocument f) = some f := by
  have htokens : (f.tokens.map Document.string).mapM Document.string? = some f.tokens :=
    mapM_map_eq_some Document.string (fun _ => rfl) f.tokens
  simp [fileDocument, fileOf?, htokens]

theorem filesOf?_filesDocument (files : List FileTokens) :
    filesOf? (filesDocument files) = some files :=
  mapM_map_eq_some fileDocument fileOf?_fileDocument files

theorem document_document (files : List FileTokens) :
    (document files).document = filesDocument files := by
  simp [document, Json.Value.document, Json.Value.documents_eq_map,
    Json.Value.fieldDocuments_eq_map, filesDocument, fileDocument, Function.comp_def]

/-- The text that is printed before the newline says the files. -/
theorem says_indented (files : List FileTokens) :
    Json.Says (filesDocument files) (document files).indented.toList := by
  rw [← document_document]
  exact Json.Value.says_write Json.Value.Layout.isBlank_indented 0 _

theorem writes_render (files : List FileTokens) :
    Json.Writes (filesDocument files) (render .json files).toList := by
  have hnewline : Json.Blank ['\n'] := by decide
  simpa [render] using Json.Writes.mk Json.blank_nil (says_indented files) hnewline

/-- What is printed of any files as a document is a JSON text without blanks around it,
and one newline.  Reading it gives the files back, each with its name and its tokens in
their order and with no other key, and there is nothing else that the text could say. -/
theorem json_readsBack (files : List FileTokens) :
    ∃ text : String, render .json files = text ++ "\n" ∧
      Json.Says (filesDocument files) text.toList ∧
      Document.read (render .json files) = .ok (filesDocument files) ∧
      (∀ d, Json.Writes d (render .json files).toList → d = filesDocument files) ∧
      filesOf? (filesDocument files) = some files := by
  have hwrites := writes_render files
  exact ⟨_, rfl, says_indented files, Document.read_eq_ok_iff.mpr hwrites,
    fun d hd => Document.eq_of_writes hd hwrites, filesOf?_filesDocument files⟩

end SourceTokens.Output

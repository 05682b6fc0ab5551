import Cloudx.Lib.Memo
import Cloudx.Python.Compact
import Cloudx.Python.Decode

/-! # What the client sends to the cloud import

`cloud_cli.py`: the bytes of an import source. A file or the standard input is sent as it is. A
directory becomes one JSON envelope of the texts of its files, in the order of their paths. -/

namespace Cloudx.Local.ImportSource

open Cloudx.Lib.Memo
open Cloudx.Python.Text Cloudx.Python.Value Cloudx.Python.Dump Cloudx.Python.Decode
open Cloudx.Python.Compact

/-- `MAX_IMPORT_BYTES` -/
def maxImportBytes : ℕ := 16 * 1024 * 1024

/-- `IMPORT_SUFFIXES` -/
def importSuffixes : List Str :=
  [[], lit ".json", lit ".jsonl", lit ".ndjson", lit ".txt", lit ".md", lit ".log", lit ".data"]

/-- `IGNORED_DIRECTORIES` -/
def ignoredDirectories : List Str :=
  [lit ".git", lit ".hg", lit ".svn", lit ".venv", lit "node_modules", lit "__pycache__"]

/-- What is below a directory: the components of its relative path, and its bytes if it is a regular
file and no symbolic link. -/
structure Entry where
  parts : List Str
  content : Option Bytes
deriving DecidableEq

/-- What a source names: the standard input, a regular file, a directory, or something else. -/
inductive Source where
  | stdin (raw : Bytes)
  | file (raw : Bytes)
  | directory (entries : List Entry)
  | other

/-- A file that is sent: its path and its bytes. -/
def importFile (py : Py) (e : Entry) : Option (List Str × Bytes) :=
  if e.parts.dropLast.any (· ∈ ignoredDirectories) then none
  else if py.casefold (suffixOf (e.parts.getLast?.getD [])) ∈ importSuffixes then
    e.content.map fun raw => (e.parts, raw)
  else none

/-- The files that are sent, in the order of their paths. -/
def importFiles (py : Py) (entries : List Entry) : List (List Str × Bytes) :=
  (entries.insertionSort fun a b => a.parts ≤ b.parts).filterMap (importFile py)

/-- `RuntimeError("import source exceeds 16 MiB")` -/
def tooLarge : PyError := .rejected "import source exceeds 16 MiB"

/-- `_read_file` -/
def readFile (raw : Bytes) : Except PyError Bytes :=
  if maxImportBytes < raw.length then .error tooLarge else .ok raw

/-- `_decode_import_text` -/
def decodeImportText (raw : Bytes) : Except PyError Str :=
  match decodeUtf8Sig raw with
  | some text => .ok text
  | none => match decodeUtf16 raw with
    | some text => .ok text
    | none => .error (.rejected "directory import files must be UTF-8 or UTF-16 text")

/-- A file of the envelope. -/
def fileItem (parts : List Str) (content : Str) : Json :=
  .obj [(lit "name", .str ([47].intercalate parts)), (lit "content", .str content)]

/-- The files of the envelope. -/
def envelopeItems : List (List Str × Bytes) → Except PyError (List Json)
  | [] => .ok []
  | (parts, bytes) :: rest => do
    let raw ← readFile bytes
    let content ← decodeImportText raw
    let more ← envelopeItems rest
    return fileItem parts content :: more

/-- The envelope of some files. -/
def envelope (files : List Json) : Json :=
  .obj [(lit "schema", .str (lit "cloudx.import-source.v1")), (lit "files", .arr files)]

/-- `import_source` -/
def importSource (py : Py) : Source → Except PyError Bytes
  | .stdin raw =>
    if maxImportBytes < raw.length then .error tooLarge
    else if raw = [] then .error (.rejected "import source is empty")
    else .ok raw
  | .file raw => readFile raw
  | .other => .error (.rejected "import source does not exist or is not a regular path")
  | .directory entries => do
    let files ← envelopeItems (importFiles py entries)
    if files = [] then .error (.rejected "directory contains no supported import files")
    else
      let raw := utf8 (write py (envelope files))
      if maxImportBytes < raw.length then
        .error (.rejected "directory import envelope exceeds 16 MiB")
      else return raw

variable {py : Py}

/-! ### The text of an envelope -/

/-- The files with their contents, as the envelope holds them. -/
theorem envelopeItems_ok : ∀ {files : List (List Str × Bytes)} {items : List Json},
    envelopeItems files = .ok items →
      List.Forall₂ (fun f item => ∃ content, decodeImportText f.2 = .ok content ∧
        item = fileItem f.1 content) files items
  | [], items, h => by
    rw [← Except.ok.inj h]
    exact .nil
  | (parts, bytes) :: rest, items, h => by
    obtain ⟨raw, hraw, h⟩ := except_bind_ok h
    obtain ⟨content, hcontent, h⟩ := except_bind_ok h
    obtain ⟨more, hmore, h⟩ := except_bind_ok h
    have hsame : bytes = raw := by
      unfold readFile at hraw
      split_ifs at hraw
      exact Except.ok.inj hraw
    rw [← Except.ok.inj h]
    exact .cons ⟨content, hsame ▸ hcontent, rfl⟩ (envelopeItems_ok hmore)

/-- Files that are small and can be decoded make an envelope. -/
theorem envelopeItems_of : ∀ {files : List (List Str × Bytes)},
    (∀ f ∈ files, f.2.length ≤ maxImportBytes) →
    (∀ f ∈ files, ∃ content, decodeImportText f.2 = .ok content) →
      ∃ items, envelopeItems files = .ok items
  | [], _, _ => ⟨[], rfl⟩
  | f :: rest, hsmall, htext => by
    obtain ⟨content, hcontent⟩ := htext f List.mem_cons_self
    obtain ⟨items, hitems⟩ := envelopeItems_of (fun g hg => hsmall g (List.mem_cons_of_mem f hg))
      fun g hg => htext g (List.mem_cons_of_mem f hg)
    have hread : readFile f.2 = .ok f.2 := if_neg (Nat.not_lt.mpr (hsmall f List.mem_cons_self))
    refine ⟨fileItem f.1 content :: items, ?_⟩
    rw [envelopeItems, hread]
    simp only [bind, Except.bind, hcontent, hitems]
    rfl

theorem printable_fileItem (parts : List Str) (content : Str) :
    Printable (write py (fileItem parts content)) := by
  have hname : Printable (lit "\x7b" ++ quote true (lit "name") ++ lit ":") := by decide
  have hcontent : Printable (lit "," ++ quote true (lit "content") ++ lit ":") := by decide
  have hend : Printable (lit "\x7d") := by decide
  have htext : write py (fileItem parts content) =
      lit "\x7b" ++ quote true (lit "name") ++ lit ":" ++ quote true ([47].intercalate parts) ++
        (lit "," ++ quote true (lit "content") ++ lit ":" ++ quote true content ++ lit "\x7d") := by
    simp [write, writeFields, fileItem, lit]
  rw [htext]
  exact (hname.append (printable_quote _)).append
    ((hcontent.append (printable_quote content)).append hend)

theorem printable_items : ∀ {items : List Json}, (∀ item ∈ items, Printable (write py item)) →
    Printable (writeItems py items)
  | [], _ => by unfold writeItems; decide
  | item :: rest, h =>
    (Printable.cons (by decide) (h item List.mem_cons_self)).append
      (printable_items fun v hv => h v (List.mem_cons_of_mem _ hv))

/-- The text of an envelope: its schema and the list of its files. -/
theorem write_envelope (items : List Json) : write py (envelope items) =
    lit "\x7b" ++ quote true (lit "schema") ++ lit ":" ++ quote true (lit "cloudx.import-source.v1") ++
      lit "," ++ quote true (lit "files") ++ lit ":" ++ (write py (.arr items) ++ lit "\x7d") := by
  simp [write, writeFields, envelope, lit]

/-- **An envelope is written in printable characters.** -/
theorem printable_envelope {items : List Json} (h : ∀ item ∈ items, Printable (write py item)) :
    Printable (write py (envelope items)) := by
  have hstart : Printable (lit "\x7b" ++ quote true (lit "schema") ++ lit ":" ++
    quote true (lit "cloudx.import-source.v1") ++ lit "," ++ quote true (lit "files") ++ lit ":") := by
    decide
  have hlist : Printable (write py (.arr items)) := by
    rcases items with _ | ⟨item, rest⟩
    · unfold write; decide
    · unfold write
      exact (Printable.cons (by decide) (h item List.mem_cons_self)).append
        (printable_items fun v hv => h v (List.mem_cons_of_mem _ hv))
  rw [write_envelope]
  exact hstart.append (hlist.append (by decide))

theorem length_le_items {v : Json} : ∀ {vs : List Json}, v ∈ vs →
    (write py v).length ≤ (writeItems py vs).length
  | u :: vs, h => by
    unfold writeItems
    rw [List.length_append, List.length_cons]
    rcases List.mem_cons.mp h with rfl | h
    · omega
    · have := length_le_items h
      omega

theorem length_le_quote (s : Str) : s.length ≤ (quote true s).length := by
  have hchars : ∀ t : Str, t.length ≤ (t.flatMap (escape true)).length := by
    intro t
    induction t with
    | nil => exact Nat.le_refl _
    | cons c t ih =>
      have hone : 1 ≤ (escape true c).length := by
        unfold escape
        split_ifs <;> simp [lit]
      rw [List.flatMap_cons, List.length_append, List.length_cons]
      omega
  have := hchars s
  unfold quote
  rw [List.length_append, List.length_cons]
  omega

/-- **A text is shorter than an envelope that holds it.** -/
theorem length_lt_envelope {items : List Json} {parts : List Str} {content : Str}
    (h : fileItem parts content ∈ items) : content.length < (write py (envelope items)).length := by
  have hitem : content.length ≤ (write py (fileItem parts content)).length := by
    have := length_le_quote content
    simp only [fileItem, write, writeFields, List.length_append, List.length_cons]
    omega
  have hlist : (write py (fileItem parts content)).length ≤ (write py (.arr items)).length := by
    rcases items with _ | ⟨item, rest⟩
    · exact absurd h (by simp)
    · have hwrite : write py (.arr (item :: rest)) = 91 :: write py item ++ writeItems py rest := by
        rw [write]
      rw [hwrite, List.length_append, List.length_cons]
      rcases List.mem_cons.mp h with rfl | h
      · omega
      · have : (write py (fileItem parts content)).length ≤ (writeItems py rest).length :=
          length_le_items h
        omega
  rw [write_envelope]
  simp only [List.length_append]
  have hbrace : (lit "\x7b").length = 1 := by decide
  omega

end Cloudx.Local.ImportSource

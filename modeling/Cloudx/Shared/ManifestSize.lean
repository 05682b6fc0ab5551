import Cloudx.Python.Dump

/-! # The size of a manifest

A manifest is a dict with a schema and a list of entries, and its file has the bytes of `json.dumps`
with an indentation of two. Each entry takes the bytes of its own text and six more, for the comma
and the line break before it, so the size of the file is a sum over the entries (`manifest_width`). -/

namespace Cloudx.Shared.ManifestSize

open Cloudx.Python.Text Cloudx.Python.Value Cloudx.Python.Dump

/-- The document of a manifest. -/
def manifestOf (schema : Str) (entries : List Json) : Dict :=
  [(lit "schema", .str schema), (lit "entries", .arr entries)]

/-- The bytes of a text. -/
def width (s : Str) : ℕ := (utf8 s).length

/-- The bytes of an entry in the list of entries. -/
def entryWidth (py : Py) (ascii : Bool) (entry : Json) : ℕ := width (dumpsAt py ascii 2 entry)

/-- The bytes of the list of entries. -/
def listWidth (py : Py) (ascii : Bool) (entries : List Json) : ℕ :=
  if entries = [] then 2 else (entries.map fun entry => entryWidth py ascii entry + 6).sum + 4

/-- The bytes of a manifest with these entries. -/
def manifestWidth (py : Py) (ascii : Bool) (schema : Str) (entries : List Json) : ℕ :=
  width (quote ascii schema) + 32 + listWidth py ascii entries

theorem width_append (s t : Str) : width (s ++ t) = width s + width t := by
  rw [width, utf8, List.flatMap_append, List.length_append]
  rfl

/-- Joined texts, with one more separator. -/
theorem width_intercalate (sep : Str) : ∀ items : List Str, items ≠ [] →
    width (sep.intercalate items) + width sep = (items.map fun s => width s + width sep).sum
  | [s], _ => by simp
  | s :: t :: items, _ => by
    have hrest := width_intercalate sep (t :: items) (by simp)
    rw [List.intercalate_cons_cons, width_append, width_append, List.map_cons, List.sum_cons,
      ← hrest]
    omega

/-- The list of entries, as the manifest has it. -/
theorem width_entries (py : Py) (ascii : Bool) (entries : List Json) :
    width (dumpsAt py ascii 1 (.arr entries)) = listWidth py ascii entries := by
  rw [dumpsAt, dumpsItems_eq_map, block, listWidth]
  by_cases hnil : entries = []
  · rw [if_pos (by rw [hnil]; rfl), if_pos hnil]
    rfl
  · rw [if_neg (by simpa using hnil), if_neg hnil]
    have hjoin := width_intercalate ([44] ++ newline 2)
      (entries.map (dumpsAt py ascii 2)) (by simpa using hnil)
    have hsep : width ([44] ++ newline 2) = 6 := by decide
    have hopen : width [91] + width (newline 2) = 6 := by decide
    have hclose : width (newline 1) + width [93] = 4 := by decide
    rw [List.map_map, hsep] at hjoin
    show width ([91] ++ (newline 2 ++ ([44] ++ newline 2).intercalate
      (entries.map (dumpsAt py ascii 2)) ++ newline 1) ++ [93]) = _
    rw [width_append, width_append, width_append, width_append]
    have hsum : (entries.map fun entry => entryWidth py ascii entry + 6) =
        entries.map ((fun s => width s + 6) ∘ dumpsAt py ascii 2) := rfl
    rw [hsum]
    omega

/-- **The size of a manifest file.** -/
theorem manifest_width (py : Py) (ascii : Bool) (schema : Str) (entries : List Json) :
    (jsonFile py ascii (manifestOf schema entries)).bytes.length =
      manifestWidth py ascii schema entries := by
  have hsorted : (dumpsFields py ascii 1 (manifestOf schema entries)).insertionSort
      (fun a b => a.1 ≤ b.1) = [(lit "entries", dumpsAt py ascii 1 (.arr entries)),
        (lit "schema", quote ascii schema)] := by
    have hle : ¬ lit "schema" ≤ lit "entries" := by decide
    simp [manifestOf, dumpsFields, dumpsAt, List.insertionSort, List.orderedInsert, hle]
  show width (dumpsAt py ascii 0 (.obj (manifestOf schema entries)) ++ [10]) = _
  rw [dumpsAt, hsorted]
  show width (([123] ++ (newline 1 ++ ([44] ++ newline 1).intercalate
    [quote ascii (lit "entries") ++ lit ": " ++ dumpsAt py ascii 1 (.arr entries),
      quote ascii (lit "schema") ++ lit ": " ++ quote ascii schema] ++ newline 0) ++ [125]) ++
        [10]) = _
  have hfixed : width [123] + width (newline 1) + width ([44] ++ newline 1) + width (newline 0) +
      width [125] + width [10] = 11 := by decide
  have hentries : width (quote ascii (lit "entries")) = 9 := by cases ascii <;> decide
  have hschema : width (quote ascii (lit "schema")) = 8 := by cases ascii <;> decide
  have hcolon : width (lit ": ") = 2 := by decide
  rw [List.intercalate_cons_cons, List.intercalate_singleton, manifestWidth, ← width_entries]
  simp only [width_append] at hfixed ⊢
  omega

end Cloudx.Shared.ManifestSize

import Cloudx.Lib.Store
import Cloudx.Python.Dump

/-! # The disk of the cloud host

Files and directories under absolute paths, as the credential code of the cloud host meets them: a
regular file can be readable or not, a symbolic link can lead somewhere or not, and everything else
is special. No directory is reached through a symbolic link, so a path with `..` in it is resolved by
its text alone, as long as the directory it leaves exists. -/

namespace Cloudx.Cloud.Disk

open Cloudx.Lib.Store
open Cloudx.Python.Text Cloudx.Python.Value Cloudx.Python.Dump

/-- An absolute path: its components from the root. -/
abbrev Path := List FileName

/-- What a path can name, apart from a directory. -/
inductive Node where
  | file (f : File)
  | locked (f : File)
  | symlink (alive : Bool)
  | special
deriving DecidableEq

/-- The files and directories, and the temporary of a manifest write while there is one. -/
structure World where
  nodes : Dir Path Node
  dirs : Finset Path
  temporary : Option File

/-- `stat.S_ISREG`: the file of a node, if it is a regular one. -/
def regular : Node → Option File
  | .file f => some f
  | .locked f => some f
  | _ => none

/-- The regular file at a path. -/
def fileAt (w : World) (p : Path) : Option File := (w.nodes.lookup p).bind regular

/-- `path.exists()`, which follows symbolic links. -/
def pathExists (w : World) (p : Path) : Bool :=
  p ∈ w.dirs || match w.nodes.lookup p with
    | some (.symlink alive) => alive
    | some _ => true
    | none => false

/-- `os.replace(source, target)` for a source that is not a directory and a target whose directory
exists. -/
def osReplace (source target : Path) (w : World) : Option World :=
  if target ∈ w.dirs then none
  else (w.nodes.lookup source).map fun node =>
    { w with nodes := (w.nodes.erase source).insert target node }

/-- The path that absolute path components lead to. -/
def resolve (w : World) : Path → List Str → Option Path
  | cur, [] => some cur
  | cur, part :: rest =>
    if part = lit ".." then if cur ∈ w.dirs then resolve w cur.dropLast rest else none
    else match FileName.ofStr? part with
      | none => none
      | some name => resolve w (cur ++ [name]) rest

/-- `path.as_posix()` of a relative path. -/
def posix (p : Path) : Str := [47].intercalate (p.map FileName.text)

/-! ### Plain paths -/

theorem resolve_plain (w : World) : ∀ (cur p : Path),
    resolve w cur (p.map FileName.text) = some (cur ++ p)
  | cur, [] => by simp [resolve]
  | cur, n :: p => by
    have hn : n.text ≠ lit ".." := n.valid.2.2.2.2
    rw [List.map_cons, resolve, if_neg hn, ofStr?_name]
    simp only
    rw [resolve_plain w (cur ++ [n]) p, List.append_assoc]
    rfl

theorem splitSlash_cons {s t : Str} (h : 47 ∉ s) :
    splitSlash (s ++ 47 :: t) = s :: splitSlash t := by
  induction s with
  | nil => rw [List.nil_append, splitSlash, if_pos rfl]
  | cons c s ih =>
    rw [List.mem_cons, not_or] at h
    rw [List.cons_append, splitSlash, if_neg (Ne.symm h.1), ih h.2]

/-- **The components of a path's text are its names.** -/
theorem pathParts_posix : ∀ {p : Path}, p ≠ [] → pathParts (posix p) = p.map FileName.text
  | [n], _ => by
    have : posix [n] = n.text := by simp [posix, List.intercalate]
    rw [this, pathParts_name]; rfl
  | n :: m :: p, _ => by
    obtain ⟨h1, h2, -, h3, -⟩ := n.valid
    have hcut : posix (n :: m :: p) = n.text ++ 47 :: posix (m :: p) := by
      simp [posix, List.intercalate]
    have ih := pathParts_posix (List.cons_ne_nil m p)
    unfold pathParts at ih ⊢
    rw [hcut, splitSlash_cons h2, List.filter_cons_of_pos (by simp [h1, h3]), ih]
    rfl

/-! ### Files -/

theorem fileAt_insert_self (w : World) (p : Path) (node : Node) :
    fileAt { w with nodes := w.nodes.insert p node } p = regular node := by
  simp [fileAt]

theorem fileAt_insert_ne (w : World) {p q : Path} (h : q ≠ p) (node : Node) :
    fileAt { w with nodes := w.nodes.insert p node } q = fileAt w q := by
  simp [fileAt, Finmap.lookup_insert_of_ne _ h]

theorem fileAt_replace (w : World) (source target : Path) (node : Node) (q : Path) :
    fileAt { w with nodes := (w.nodes.erase source).insert target node } q =
      if q = target then regular node else if q = source then none else fileAt w q := by
  unfold fileAt
  split_ifs with h1 h2
  · subst h1; simp
  · subst h2
    rw [Finmap.lookup_insert_of_ne _ h1, Finmap.lookup_erase]; rfl
  · rw [Finmap.lookup_insert_of_ne _ h1, Finmap.lookup_erase_ne h2]

theorem osReplace_file {w : World} {source target : Path} {f : File}
    (h : fileAt w source = some f) (ht : target ∉ w.dirs) :
    ∃ node, regular node = some f ∧ osReplace source target w =
      some { w with nodes := (w.nodes.erase source).insert target node } := by
  obtain ⟨node, hn, hr⟩ := Option.bind_eq_some_iff.mp h
  exact ⟨node, hr, by rw [osReplace, if_neg ht, hn]; rfl⟩

theorem fileAt_of_not_exists {w : World} {p : Path} (h : pathExists w p = false) :
    fileAt w p = none := by
  unfold pathExists at h
  unfold fileAt
  rw [Bool.or_eq_false_iff] at h
  rcases hl : w.nodes.lookup p with _ | node
  · rfl
  · rw [hl] at h
    cases node with
    | symlink alive => rfl
    | file f => exact absurd h.2 (by simp)
    | locked f => exact absurd h.2 (by simp)
    | special => exact absurd h.2 (by simp)

end Cloudx.Cloud.Disk

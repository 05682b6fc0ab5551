import Cloudx.Python.Value

/-! # Public documents

`public_metadata.py` refuses documents that name what belongs to Phi: a key of a fixed list, whatever
its case and its separators, or a text with such a name before `:` or `=`, or with a path into a home
directory. Two documents are exempt in two places. -/

namespace Cloudx.Cloud.PublicMetadata

open Cloudx.Python.Text Cloudx.Python.Value

/-- `_FORBIDDEN_KEYS` -/
def forbiddenKeys : List Str :=
  ["approval", "approvalid", "approvaldevice", "approvals", "artifact", "artifactid",
    "artifactmetadata", "artifacts", "content", "contextrequest", "contextrequests", "cwd", "device",
    "deviceid", "devices", "executionlease", "executionleaseid", "files", "lease", "leaseid",
    "leases", "localaction", "localactions", "localpath", "metadata", "origindevice",
    "origindeviceid", "path", "paths", "payload", "session", "sessionid", "sessions", "sourcepath",
    "targetdevice", "targetdeviceid", "targetpath", "task", "taskid", "tasks", "transfer",
    "transfercontent", "transferid", "transfers", "workspace", "workspacepath", "writerlease",
    "writerleaseid", "workingdirectory"].map lit

/-- The names of `_FORBIDDEN_ASSIGNMENT`, one for each way through its groups, in small letters. -/
def forbiddenNames : List Str :=
  ["approval", "approvalid", "approvaldevice", "artifact", "artifactid", "artifactmetadata",
    "contextrequest", "device", "deviceid", "executionlease", "executionleaseid", "lease", "leaseid",
    "localaction", "localpath", "origindevice", "origindeviceid", "session", "sessionid",
    "sourcepath", "targetdevice", "targetdeviceid", "targetpath", "task", "taskid", "transfer",
    "transferid", "transfercontent", "workspacepath", "writerlease", "writerleaseid"].map lit

/-! ### The patterns -/

/-- The small letter that `re.IGNORECASE` compares a character by. -/
def reLower (c : ℕ) : ℕ :=
  if 65 ≤ c ∧ c ≤ 90 then c + 32
  else if c = 0x130 ∨ c = 0x131 then 105
  else if c = 0x17F then 115
  else if c = 0x212A then 107
  else c

/-- The text starts with `name`, in small or capital letters. -/
def startsLike (name s : Str) : Bool := (s.take name.length).map reLower = name

/-- `\b` between two neighbours, for the word characters of the interpreter. -/
def boundary (isWord : ℕ → Bool) (before after : Option ℕ) : Bool :=
  (before.map isWord).getD false != (after.map isWord).getD false

/-- The word characters of ASCII. -/
def asciiWord (c : ℕ) : Bool :=
  (48 ≤ c && c ≤ 57) || (65 ≤ c && c ≤ 90) || (97 ≤ c && c ≤ 122) || c == 95

/-- `\s*[:=]` -/
def startsAssignment (s : Str) : Bool :=
  match s.dropWhile isSpace with
  | c :: _ => c = 58 || c = 61
  | [] => false

/-- `_FORBIDDEN_ASSIGNMENT` matches here, after the character `before`. -/
def assignmentAt (isWord : ℕ → Bool) (before : Option ℕ) (s : Str) : Bool :=
  forbiddenNames.any fun name => startsLike name s && boundary isWord before s.head? &&
    boundary isWord (s.take name.length).getLast? (s.drop name.length).head? &&
    startsAssignment (s.drop name.length)

/-- `_FORBIDDEN_ASSIGNMENT.search` -/
def forbiddenAssignment (isWord : ℕ → Bool) : Option ℕ → Str → Bool
  | _, [] => false
  | before, c :: s => assignmentAt isWord before (c :: s) || forbiddenAssignment isWord (some c) s

/-- `(?:file://)?(?:/Users/|/home/)` -/
def userPathAt (s : Str) : Bool :=
  [lit "/users/", lit "/home/", lit "file:///users/", lit "file:///home/"].any (startsLike · s)

/-- `_LOCAL_USER_PATH.search`: at the start, or after a blank, a quotation mark or `=`. -/
def localUserPath : Option ℕ → Str → Bool
  | _, [] => false
  | before, c :: s =>
    ((before.map fun b => isSpace b || b ∈ lit "\"'=").getD true && userPathAt (c :: s)) ||
      localUserPath (some c) s

/-! ### Documents -/

/-- `PublicMetadataRejected` -/
def prohibited : PyError := .rejected "public output contains prohibited Phi metadata"

variable (py : Py) (isWord : ℕ → Bool)

/-- `_normalized` -/
def normalized (key : Str) : Str :=
  (py.casefold key).filter fun c => (97 ≤ c && c ≤ 122) || (48 ≤ c && c ≤ 57)

/-- `_credential_policy` and `_release_manifest`, by the schema and the end of the identifier. -/
def hasSchema (schema id : Str) (document : Dict) : Bool :=
  get document (lit "schema") = .str schema ||
    endsWith (py.str (pyOrs [get document (lit "$id")])) id

/-- `_credential_policy` -/
def credentialPolicy : Dict → Bool :=
  hasSchema py (lit "cloudx.phi-cloud-consumer-credential.v1")
    (lit "cloudx.phi-cloud-consumer-credential.v1.schema.json")

/-- `_release_manifest` -/
def releaseManifest : Dict → Bool :=
  hasSchema py (lit "cloudx.release-manifest.v1") (lit "cloudx.release-manifest.v1.schema.json")

/-- `_allowed_negative_representation` -/
def allowedNegativeRepresentation (root : Dict) (path : List Str) (key : Str) (value : Json) : Bool :=
  if credentialPolicy py root = false ∨ key ∉ [lit "device", lit "task", lit "session"] then false
  else if path = [lit "representation"] then value = .bool false
  else if path = [lit "properties", lit "representation", lit "properties"] then
    value = .obj [(lit "const", .bool false)] || value = .obj [(lit "const", .int 0)] ||
      value = .obj [(lit "const", .float (.finite 0))]
  else false

/-- `_allowed_cloudx_release_artifacts` -/
def allowedReleaseArtifacts (root : Dict) (path : List Str) (key : Str) : Bool :=
  key = lit "artifacts" && releaseManifest py root && (path = [] || path = [lit "properties"])

mutual

/-- `_walk` -/
def walk (root : Dict) (path : List Str) : Json → Except PyError Unit
  | .obj fields => walkFields root path fields
  | .arr items => walkItems root path items
  | .str s =>
    if forbiddenAssignment isWord none s || localUserPath none s then .error prohibited else .ok ()
  | _ => .ok ()

/-- `_walk` on the items of a list. -/
def walkItems (root : Dict) (path : List Str) : List Json → Except PyError Unit
  | [] => .ok ()
  | v :: vs => do
    walk root path v
    walkItems root path vs

/-- `_walk` on the items of a dict. -/
def walkFields (root : Dict) (path : List Str) : List (Str × Json) → Except PyError Unit
  | [] => .ok ()
  | (rawKey, item) :: rest => do
    let key := normalized py rawKey
    if key ∈ forbiddenKeys ∧ allowedNegativeRepresentation py root path key item = false ∧
        allowedReleaseArtifacts py root path key = false then
      .error prohibited
    walk root (path ++ [key]) item
    walkFields root path rest

end

/-- `validate_public_document` -/
def validatePublicDocument : Json → Except PyError Dict
  | .obj document => do
    walk py isWord document [] (.obj document)
    return document
  | _ => .error (.rejected "public output must be an object")

/-! ### Texts without a match -/

variable {isWord}

/-- A match needs a name and then `:` or `=`. -/
theorem assignment_parts : ∀ {s : Str} {before : Option ℕ},
    forbiddenAssignment isWord before s = true → ∃ name ∈ forbiddenNames, ∃ front found rest,
      s = front ++ found ++ rest ∧ found.map reLower = name ∧ startsAssignment rest = true
  | c :: s, before, h => by
    rw [forbiddenAssignment, Bool.or_eq_true] at h
    rcases h with h | h
    · obtain ⟨name, hname, hmatch⟩ := List.any_eq_true.mp h
      simp only [Bool.and_eq_true] at hmatch
      refine ⟨name, hname, [], (c :: s).take name.length, (c :: s).drop name.length, ?_,
        of_decide_eq_true hmatch.1.1.1, hmatch.2⟩
      rw [List.nil_append, List.take_append_drop]
    · obtain ⟨name, hname, front, found, rest, hs, hfound, hrest⟩ := assignment_parts h
      exact ⟨name, hname, c :: front, found, rest, by rw [hs]; rfl, hfound, hrest⟩

theorem startsAssignment_mem {s : Str} (h : startsAssignment s = true) : 58 ∈ s ∨ 61 ∈ s := by
  unfold startsAssignment at h
  rcases hd : s.dropWhile isSpace with _ | ⟨c, t⟩
  · rw [hd] at h; cases h
  · rw [hd] at h
    have hc : c ∈ s := (List.dropWhile_suffix isSpace).subset (by rw [hd]; exact List.mem_cons_self)
    simp only [Bool.or_eq_true, decide_eq_true_eq] at h
    rcases h with rfl | rfl
    · exact .inl hc
    · exact .inr hc

/-- Every name has an `a` or an `e`. -/
theorem names_vowel : ∀ name ∈ forbiddenNames, 97 ∈ name ∨ 101 ∈ name := by decide

/-- A text that has neither assigns to no name. -/
theorem no_assignment_of_vowels {s : Str} (h : ∀ c ∈ s, reLower c ≠ 97 ∧ reLower c ≠ 101)
    (before : Option ℕ) : forbiddenAssignment isWord before s = false := by
  by_contra hmatch
  rw [Bool.not_eq_false] at hmatch
  obtain ⟨name, hname, front, found, rest, rfl, rfl, -⟩ := assignment_parts hmatch
  have hmem : ∀ {x}, x ∈ found.map reLower → ∃ c ∈ front ++ found ++ rest, reLower c = x := by
    intro x hx
    obtain ⟨c, hc, rfl⟩ := List.mem_map.mp hx
    exact ⟨c, by simp [hc], rfl⟩
  rcases names_vowel _ hname with hv | hv
  · obtain ⟨c, hc, he⟩ := hmem hv
    exact (h c hc).1 he
  · obtain ⟨c, hc, he⟩ := hmem hv
    exact (h c hc).2 he

/-- A text without `:` and `=` assigns nothing. -/
theorem no_assignment_of_chars {s : Str} (h : 58 ∉ s ∧ 61 ∉ s) (before : Option ℕ) :
    forbiddenAssignment isWord before s = false := by
  by_contra hmatch
  rw [Bool.not_eq_false] at hmatch
  obtain ⟨name, -, front, found, rest, rfl, -, hrest⟩ := assignment_parts hmatch
  rcases startsAssignment_mem hrest with hm | hm
  · exact h.1 (List.mem_append_right _ hm)
  · exact h.2 (List.mem_append_right _ hm)

/-- A text without `/` has no path. -/
theorem no_path : ∀ {s : Str}, 47 ∉ s → ∀ before, localUserPath before s = false
  | [], _, _ => rfl
  | c :: s, h, before => by
    have hat : userPathAt (c :: s) = false := by
      by_contra hmatch
      rw [Bool.not_eq_false] at hmatch
      obtain ⟨start, hstart, hlike⟩ := List.any_eq_true.mp hmatch
      have hslash : ∀ start ∈ [lit "/users/", lit "/home/", lit "file:///users/",
          lit "file:///home/"], 47 ∈ start := by decide
      have hmem := hslash start hstart
      rw [← of_decide_eq_true hlike] at hmem
      obtain ⟨d, hd, he⟩ := List.mem_map.mp hmem
      have hd47 : d = 47 := by
        unfold reLower at he
        split_ifs at he <;> omega
      rw [hd47] at hd
      exact h (List.mem_of_mem_take hd)
    rw [localUserPath, hat, Bool.and_false, Bool.false_or]
    exact no_path (fun hm => h (List.mem_cons_of_mem _ hm)) _

/-! ### Documents without a match -/

mutual

/-- No key of the value is forbidden, and none of its texts matches. -/
def Harmless (py : Py) (isWord : ℕ → Bool) : Json → Prop
  | .obj fields => HarmlessFields py isWord fields
  | .arr items => HarmlessItems py isWord items
  | .str s => forbiddenAssignment isWord none s = false ∧ localUserPath none s = false
  | _ => True

/-- The items of a list are harmless. -/
def HarmlessItems (py : Py) (isWord : ℕ → Bool) : List Json → Prop
  | [] => True
  | v :: vs => Harmless py isWord v ∧ HarmlessItems py isWord vs

/-- The fields of a dict are harmless. -/
def HarmlessFields (py : Py) (isWord : ℕ → Bool) : List (Str × Json) → Prop
  | [] => True
  | (k, v) :: kvs =>
    normalized py k ∉ forbiddenKeys ∧ Harmless py isWord v ∧ HarmlessFields py isWord kvs

end

variable {py}

mutual

/-- **A harmless value is public.** -/
theorem walk_harmless : ∀ {v : Json} {root : Dict} {path : List Str}, Harmless py isWord v →
    walk py isWord root path v = .ok ()
  | .null, _, _, _ | .bool _, _, _, _ | .int _, _, _, _ | .float _, _, _, _ => rfl
  | .str s, _, _, h => by
    rw [walk, h.1, h.2]
    rfl
  | .arr items, root, path, h => by
    rw [walk]
    exact walkItems_harmless h
  | .obj fields, root, path, h => by
    rw [walk]
    exact walkFields_harmless h

theorem walkItems_harmless : ∀ {items : List Json} {root : Dict} {path : List Str},
    HarmlessItems py isWord items → walkItems py isWord root path items = .ok ()
  | [], _, _, _ => rfl
  | v :: vs, root, path, h => by
    rw [walkItems, walk_harmless h.1]
    exact walkItems_harmless h.2

theorem walkFields_harmless : ∀ {fields : List (Str × Json)} {root : Dict} {path : List Str},
    HarmlessFields py isWord fields → walkFields py isWord root path fields = .ok ()
  | [], _, _, _ => rfl
  | (k, v) :: kvs, root, path, h => by
    rw [walkFields]
    dsimp only
    rw [if_neg fun hbad => h.1 hbad.1, walk_harmless h.2.1]
    exact walkFields_harmless h.2.2

end

theorem validatePublicDocument_harmless {document : Dict}
    (h : Harmless py isWord (.obj document)) :
    validatePublicDocument py isWord (.obj document) = .ok document := by
  rw [validatePublicDocument, walk_harmless h]
  rfl

end Cloudx.Cloud.PublicMetadata

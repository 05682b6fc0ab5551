import Cloudx.Cloud.PublicMetadata
import Cloudx.Python.Dump

/-! # The places of a public document

`validate_public_document` walks through a document; it accepts one exactly if every forbidden key is
exempt where it stands and no text matches a pattern (`walk_iff`). Of what it is to keep out, three things
pass: keys are not searched for the patterns, an array on the way to a key does not count, and a number
zero is taken for `False` (`public_iff`). -/

namespace Cloudx.Cloud.PublicPlaces

open Cloudx.Python.Text Cloudx.Python.Value Cloudx.Python.Dump Cloudx.Cloud.PublicMetadata

/-! ### Places -/

/-- One step into a document. -/
inductive Step where
  | key (name : Str)
  | item
deriving DecidableEq

/-- A key of an object, the way to the object, and the value. -/
structure Place where
  way : List Step
  key : Str
  value : Json
deriving DecidableEq

mutual

/-- The keys of a value that stands at the end of `way`, at any depth. -/
def places (way : List Step) : Json → List Place
  | .obj fields => placesFields way fields
  | .arr items => placesItems way items
  | _ => []

/-- The keys in the items of a list. -/
def placesItems (way : List Step) : List Json → List Place
  | [] => []
  | v :: vs => places (way ++ [.item]) v ++ placesItems way vs

/-- The keys of a dict and in its values. -/
def placesFields (way : List Step) : List (Str × Json) → List Place
  | [] => []
  | (key, v) :: rest => ⟨way, key, v⟩ :: (places (way ++ [.key key]) v ++ placesFields way rest)

end

mutual

/-- The texts of a value that are no keys, at any depth. -/
def texts : Json → List Str
  | .str s => [s]
  | .obj fields => textsFields fields
  | .arr items => textsItems items
  | _ => []

/-- The texts in the items of a list. -/
def textsItems : List Json → List Str
  | [] => []
  | v :: vs => texts v ++ textsItems vs

/-- The texts in the values of a dict. -/
def textsFields : List (Str × Json) → List Str
  | [] => []
  | (_, v) :: rest => texts v ++ textsFields rest

end

/-! ### What is to be kept out -/

section

variable (py : Py) (isWord : ℕ → Bool) (spell : Str → Str) (root : Dict)

/-- One of the two patterns matches. -/
def matched (s : Str) : Bool := forbiddenAssignment isWord none s || localUserPath none s

/-- The names of the keys on a way without array items. -/
def directWay : List Step → Option (List Str)
  | [] => some []
  | .key name :: way => (directWay way).map (spell name :: ·)
  | .item :: _ => none

/-- The names of the keys on a way, as `_walk` collects them. -/
def walkedWay : List Step → List Str
  | [] => []
  | .key name :: way => normalized py name :: walkedWay way
  | .item :: way => walkedWay way

/-- `{"const": False}` -/
def constFalse : Json := .obj [(lit "const", .bool false)]

/-- **The two exemptions.** A credential policy may say that it has no device, task or session, its schema
may say so too, and a release manifest may have artifacts. Names are compared as `spell` writes them. -/
def Exempt (p : Place) : Prop :=
  (credentialPolicy py root = true ∧ spell p.key ∈ [lit "device", lit "task", lit "session"] ∧
    (directWay spell p.way = some [lit "representation"] ∧ p.value = .bool false ∨
      directWay spell p.way = some [lit "properties", lit "representation", lit "properties"] ∧
        p.value = constFalse)) ∨
  (releaseManifest py root = true ∧ spell p.key = lit "artifacts" ∧
    (directWay spell p.way = some [] ∨ directWay spell p.way = some [lit "properties"]))

/-- **The document has no private metadata**: no key that is forbidden where it stands, and no text, a key
or a value, with a match. -/
structure Public : Prop where
  keys : ∀ p ∈ places [] (.obj root), normalized py p.key ∈ forbiddenKeys → Exempt py spell root p
  names : ∀ p ∈ places [] (.obj root), matched isWord p.key = false
  values : ∀ s ∈ texts (.obj root), matched isWord s = false

/-- The value is no object with `const` alone, or its `const` is `False`. -/
def properConst : Json → Bool
  | .obj [(key, c)] => key ≠ lit "const" || c = .bool false
  | _ => true

/-- A key stands where `_walk` takes it to stand: its names are spelled so, no array is on the way, and
where a value is compared with `False` it is no number. -/
def direct (p : Place) : Bool :=
  directWay spell p.way = some (walkedWay py p.way) && spell p.key = normalized py p.key &&
    (normalized py p.key = lit "artifacts" || properConst p.value)

/-- `_walk` exempts the key. -/
def allowed (p : Place) : Bool :=
  allowedNegativeRepresentation py root (walkedWay py p.way) (normalized py p.key) p.value ||
    allowedReleaseArtifacts py root (walkedWay py p.way) (normalized py p.key)

end

/-! ### The walk -/

variable {py : Py} {isWord : ℕ → Bool} {spell : Str → Str} {root : Dict}

theorem walkedWay_append : ∀ {way more : List Step},
    walkedWay py (way ++ more) = walkedWay py way ++ walkedWay py more
  | [], _ => rfl
  | .key name :: _, _ => congrArg (normalized py name :: ·) walkedWay_append
  | .item :: way, more => @walkedWay_append way more

/-- One step of the walk and the rest of it. -/
theorem ok_bind_iff {x : Except PyError Unit} {f : Unit → Except PyError Unit} :
    (x >>= f) = .ok () ↔ x = .ok () ∧ f () = .ok () := by
  rcases x with e | ⟨⟩
  · exact iff_of_false (by simp [bind, Except.bind]) (by simp)
  · exact ⟨fun h => ⟨rfl, h⟩, fun h => h.2⟩

mutual

/-- **What the walk accepts**: a value in which every forbidden key is exempt and no text matches. -/
theorem walk_iff : ∀ {v : Json} {way : List Step}, walk py isWord root (walkedWay py way) v = .ok () ↔
    (∀ p ∈ places way v, normalized py p.key ∈ forbiddenKeys → allowed py root p = true) ∧
      ∀ s ∈ texts v, matched isWord s = false
  | .null, _ | .bool _, _ | .int _, _ | .float _, _ => by simp [walk, places, texts]
  | .str s, way => by
    rw [walk]
    simp only [places, texts, List.mem_singleton, forall_eq, List.not_mem_nil, false_implies, implies_true,
      true_and, matched]
    split_ifs with h
    · exact iff_of_false (by simp) (by simp [h])
    · exact iff_of_true rfl (by simpa using h)
  | .arr items, way => by
    rw [walk, places, texts]
    exact walkItems_iff
  | .obj fields, way => by
    rw [walk, places, texts]
    exact walkFields_iff

theorem walkItems_iff : ∀ {items : List Json} {way : List Step},
    walkItems py isWord root (walkedWay py way) items = .ok () ↔
      (∀ p ∈ placesItems way items, normalized py p.key ∈ forbiddenKeys → allowed py root p = true) ∧
        ∀ s ∈ textsItems items, matched isWord s = false
  | [], _ => by simp [walkItems, placesItems, textsItems]
  | v :: vs, way => by
    have hway : walkedWay py (way ++ [.item]) = walkedWay py way := by
      rw [walkedWay_append, walkedWay, walkedWay, List.append_nil]
    rw [walkItems, ok_bind_iff, ← hway, walk_iff, hway, walkItems_iff, placesItems, textsItems]
    simp only [List.mem_append, or_imp, forall_and]
    tauto

theorem walkFields_iff : ∀ {fields : List (Str × Json)} {way : List Step},
    walkFields py isWord root (walkedWay py way) fields = .ok () ↔
      (∀ p ∈ placesFields way fields, normalized py p.key ∈ forbiddenKeys → allowed py root p = true) ∧
        ∀ s ∈ textsFields fields, matched isWord s = false
  | [], _ => by simp [walkFields, placesFields, textsFields]
  | (key, v) :: rest, way => by
    have hway : walkedWay py (way ++ [.key key]) = walkedWay py way ++ [normalized py key] := by
      rw [walkedWay_append, walkedWay, walkedWay]
    have hstep : (normalized py key ∈ forbiddenKeys ∧
        allowedNegativeRepresentation py root (walkedWay py way) (normalized py key) v = false ∧
        allowedReleaseArtifacts py root (walkedWay py way) (normalized py key) = false) ↔
          ¬ (normalized py key ∈ forbiddenKeys → allowed py root ⟨way, key, v⟩ = true) := by
      rw [allowed, Classical.not_imp, Bool.or_eq_true, not_or, Bool.not_eq_true, Bool.not_eq_true]
    rw [walkFields]
    dsimp only
    rw [placesFields, textsFields, ← hway]
    simp only [List.mem_cons, List.mem_append, or_imp, forall_and, forall_eq]
    split_ifs with hbad
    · refine iff_of_false (fun h => ?_) fun h => (hstep.mp hbad) h.1.1
      cases h
    · rw [ok_bind_iff, walk_iff, walkFields_iff]
      have hgood := not_not.mp (mt hstep.mpr hbad)
      tauto

end

theorem accepted_iff {v : Json} : validatePublicDocument py isWord v = .ok root ↔ v = .obj root ∧
    (∀ p ∈ places [] (.obj root), normalized py p.key ∈ forbiddenKeys → allowed py root p = true) ∧
      ∀ s ∈ texts (.obj root), matched isWord s = false := by
  rw [← walk_iff]
  rcases v with _ | _ | _ | _ | _ | _ | fields
  case obj =>
    rw [validatePublicDocument, walkedWay]
    constructor
    · intro h
      rcases hwalk : walk py isWord fields [] (.obj fields) with e | ⟨⟩
      · rw [hwalk] at h
        cases h
      · rw [hwalk] at h
        obtain rfl : fields = root := Except.ok.inj h
        exact ⟨rfl, hwalk⟩
    · rintro ⟨hfields, hwalk⟩
      obtain rfl := Json.obj.inj hfields
      rw [hwalk]
      rfl
  all_goals simp [validatePublicDocument]

/-! ### The exemptions -/

/-- The names that the exemptions are about. -/
def exemptNames : List Str :=
  [lit "device", lit "task", lit "session", lit "representation", lit "properties", lit "artifacts"]

/-- Names on a way that are spelled so are what `_walk` compares. -/
theorem walkedWay_of (hspell : ∀ k, spell k ∈ exemptNames → normalized py k = spell k) :
    ∀ {way : List Step} {names : List Str}, directWay spell way = some names → names ⊆ exemptNames →
      walkedWay py way = names
  | [], _, h, _ => Option.some.inj h
  | .key name :: way, names, h, hnames => by
    obtain ⟨rest, hrest, rfl⟩ := Option.map_eq_some_iff.mp h
    rw [walkedWay, hspell name (hnames List.mem_cons_self),
      walkedWay_of hspell hrest fun n hn => hnames (List.mem_cons_of_mem _ hn)]
  | .item :: _, _, h, _ => by cases h

theorem Exempt.direct (hspell : ∀ k, spell k ∈ exemptNames → normalized py k = spell k) {p : Place}
    (h : Exempt py spell root p) : direct py spell p = true := by
  have hway : ∀ {names : List Str}, directWay spell p.way = some names → names ⊆ exemptNames →
      directWay spell p.way = some (walkedWay py p.way) := by
    intro names hnames hsub
    rw [hnames, walkedWay_of hspell hnames hsub]
  unfold PublicPlaces.direct
  rw [Bool.and_eq_true, Bool.and_eq_true, Bool.or_eq_true, decide_eq_true_eq, decide_eq_true_eq,
    decide_eq_true_eq]
  rcases h with ⟨-, hkey, hplace⟩ | ⟨-, hkey, hplace⟩
  · have hname : spell p.key ∈ exemptNames := by
      simp only [List.mem_cons, List.not_mem_nil, or_false] at hkey
      simp only [exemptNames, List.mem_cons]
      tauto
    rcases hplace with ⟨hdirect, hvalue⟩ | ⟨hdirect, hvalue⟩
    · exact ⟨⟨hway hdirect (by decide), (hspell _ hname).symm⟩, .inr (by rw [hvalue]; rfl)⟩
    · exact ⟨⟨hway hdirect (by decide), (hspell _ hname).symm⟩, .inr (by rw [hvalue]; decide)⟩
  · have hname : normalized py p.key = spell p.key := hspell _ (by rw [hkey]; decide)
    refine ⟨⟨?_, hname.symm⟩, .inl (by rw [hname, hkey])⟩
    rcases hplace with hdirect | hdirect
    · exact hway hdirect (by decide)
    · exact hway hdirect (by decide)

/-- What the walk exempts where it takes it to stand is exempt. -/
theorem exempt_of_allowed {p : Place} (hallowed : allowed py root p = true)
    (hdirect : direct py spell p = true) : Exempt py spell root p := by
  unfold direct at hdirect
  rw [Bool.and_eq_true, Bool.and_eq_true, Bool.or_eq_true, decide_eq_true_eq, decide_eq_true_eq,
    decide_eq_true_eq] at hdirect
  obtain ⟨⟨hway, hkey⟩, hconst⟩ := hdirect
  rw [allowed, Bool.or_eq_true] at hallowed
  rw [Exempt, hway, hkey]
  rcases hallowed with hallowed | hallowed
  · unfold allowedNegativeRepresentation at hallowed
    split_ifs at hallowed with hpolicy hrepresentation hproperties
    · rw [not_or, Bool.not_eq_false, not_not] at hpolicy
      rw [decide_eq_true_eq] at hallowed
      exact .inl ⟨hpolicy.1, hpolicy.2, .inl ⟨by rw [hrepresentation], hallowed⟩⟩
    · rw [not_or, Bool.not_eq_false, not_not] at hpolicy
      have hnot : normalized py p.key ≠ lit "artifacts" := by
        have hnames : lit "artifacts" ∉ [lit "device", lit "task", lit "session"] := by decide
        exact fun h => hnames (h ▸ hpolicy.2)
      have hproper := hconst.resolve_left hnot
      refine .inl ⟨hpolicy.1, hpolicy.2, .inr ⟨by rw [hproperties], ?_⟩⟩
      simp only [Bool.or_eq_true, decide_eq_true_eq] at hallowed
      rcases hallowed with (hvalue | hvalue) | hvalue
      · exact hvalue
      · rw [hvalue] at hproper
        exact absurd hproper (by decide)
      · rw [hvalue] at hproper
        exact absurd hproper (by decide)
  · unfold allowedReleaseArtifacts at hallowed
    simp only [Bool.and_eq_true, Bool.or_eq_true, decide_eq_true_eq] at hallowed
    obtain ⟨⟨hname, hmanifest⟩, hplace⟩ := hallowed
    exact .inr ⟨hmanifest, hname, hplace.imp (fun h => by rw [h]) fun h => by rw [h]⟩

/-! ### What is public -/

theorem public_spelled (hspell : ∀ k, spell k ∈ exemptNames → normalized py k = spell k) {v : Json}
    (h : validatePublicDocument py isWord v = .ok root) : Public py isWord spell root ↔
      (∀ p ∈ places [] (.obj root), matched isWord p.key = false) ∧
        ∀ p ∈ places [] (.obj root), normalized py p.key ∈ forbiddenKeys → direct py spell p = true := by
  obtain ⟨-, hallowed, hvalues⟩ := accepted_iff.mp h
  refine ⟨fun hpublic => ⟨hpublic.names, fun p hp hkey => (hpublic.keys p hp hkey).direct hspell⟩, ?_⟩
  rintro ⟨hnames, hdirect⟩
  exact ⟨fun p hp hkey => exempt_of_allowed (hallowed p hp hkey) (hdirect p hp hkey), hnames, hvalues⟩

/-- A name of an exemption is its own. -/
theorem normalized_exempt (py : Py) : ∀ k ∈ exemptNames, normalized py k = k := by
  have hascii : ∀ k ∈ exemptNames, (∀ c ∈ k, c < 128) ∧
      (asciiLower k).filter (fun c => (97 ≤ c && c ≤ 122) || (48 ≤ c && c ≤ 57)) = k := by decide
  intro k hk
  rw [normalized, py.casefold_ascii k (hascii k hk).1]
  exact (hascii k hk).2

/-- **A document that is accepted has no private metadata exactly if** none of its keys matches a pattern,
and every key that the walk exempts stands where the walk takes it to stand. This is so whether the names
in the exemptions are compared as they are or without case and separators. -/
theorem public_iff {v : Json} (h : validatePublicDocument py isWord v = .ok root) :
    (Public py isWord id root ↔ (∀ p ∈ places [] (.obj root), matched isWord p.key = false) ∧
      ∀ p ∈ places [] (.obj root), normalized py p.key ∈ forbiddenKeys → direct py id p = true) ∧
    (Public py isWord (normalized py) root ↔
      (∀ p ∈ places [] (.obj root), matched isWord p.key = false) ∧
        ∀ p ∈ places [] (.obj root), normalized py p.key ∈ forbiddenKeys →
          direct py (normalized py) p = true) :=
  ⟨public_spelled (fun k hk => normalized_exempt py k hk) h, public_spelled (fun _ _ => rfl) h⟩

/-- An interpreter for documents of ASCII text. -/
def asciiPy : Py := tablePy [] [] []

/-- A credential policy without a device, a task and a session. -/
def policyDocument : Dict :=
  [(lit "schema", .str (lit "cloudx.phi-cloud-consumer-credential.v1")),
    (lit "representation", .obj [(lit "principal", .str (lit "phi_cloud_service")),
      (lit "device", .bool false), (lit "task", .bool false), (lit "session", .bool false)])]

/-- The policy has no private metadata. -/
theorem policy_public : Public asciiPy asciiWord id policyDocument :=
  (@public_iff _ _ _ (.obj policyDocument) (by decide +kernel)).1.mpr
    ⟨by decide +kernel, by decide +kernel⟩

/-- A document with a path as a key is accepted. -/
theorem path_key_accepted :
    validatePublicDocument asciiPy asciiWord (.obj [(lit "/Users/a/b", .null)]) =
      .ok [(lit "/Users/a/b", .null)] ∧
    ¬ Public asciiPy asciiWord id [(lit "/Users/a/b", .null)] := by
  refine ⟨by decide +kernel, fun h => ?_⟩
  have hmatched := h.names ⟨[], lit "/Users/a/b", .null⟩ (by decide)
  exact absurd hmatched (by decide +kernel)

end Cloudx.Cloud.PublicPlaces

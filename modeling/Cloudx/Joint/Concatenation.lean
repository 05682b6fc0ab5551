import Cloudx.Cloud.Importer
import Cloudx.Local.Importer
import Cloudx.Python.JsonText
import Cloudx.Python.Lines

/-! # Concatenated documents

A text of JSON objects, one after another with blanks between them or none, is no JSON document unless it
holds one object. Both importers then look for the next `{` and decode from there. The decoder returns
where the object ends, so that the next brace that is found is the first character of the next object,
whatever stands in the strings of the objects (`valuesFrom_objects`). -/

namespace Cloudx.Joint.Concatenation

open Cloudx.Python.Text Cloudx.Python.Value Cloudx.Python.JsonText Cloudx.Python.Lines
open Cloudx.Shared.Source Cloudx.Local.Import

/-! ### Objects and blanks -/

/-- The text is one that the decoder reads as an object: from its start wherever it stands, with the
offset of its end. As a document it is read alone, and anything but blanks after it is extra data. -/
structure ObjectText (dec : Decoder) (s : Str) (d : Dict) : Prop where
  braces : ∃ inner, s = 123 :: (inner ++ [125])
  raw : ∀ text start rest, text.drop start = s ++ rest →
    dec.rawDecode text start = .value (.obj d) (start + s.length)
  alone : dec.loads s = .value (.obj d)
  extra : ∀ rest, (∃ c ∈ rest, isWhite c = false) → dec.loads (s ++ rest) = .jsonError

/-- A text of characters that `str.strip` removes. -/
def Blank (s : Str) : Prop := ∀ c ∈ s, isSpace c = true

/-- An object in a text: how it is written, and the blanks after it. -/
structure Item where
  text : Str
  object : Dict
  gap : Str

/-- The text of objects. -/
def body (items : List Item) : Str := items.flatMap fun item => item.text ++ item.gap

/-- The items are objects and blanks. -/
def Objects (dec : Decoder) (items : List Item) : Prop :=
  ∀ item ∈ items, ObjectText dec item.text item.object ∧ Blank item.gap

theorem body_cons (item : Item) (items : List Item) :
    body (item :: items) = item.text ++ (item.gap ++ body items) := by
  rw [body, List.flatMap_cons, List.append_assoc]
  rfl

theorem body_append (a b : List Item) : body (a ++ b) = body a ++ body b := List.flatMap_append

/-! ### The loop -/

theorem findFrom_blank {text gap : Str} {index : ℕ} (hgap : Blank gap) (h : text.drop index = gap) :
    findFrom text 123 index = none := by
  have hnone : gap.findIdx? (· = 123) = none := by
    rw [List.findIdx?_eq_none_iff]
    intro c hc
    refine decide_eq_false fun hbrace => ?_
    have hspace := hgap c hc
    rw [hbrace] at hspace
    exact absurd hspace (by decide)
  rw [findFrom, h, hnone]
  rfl

/-- After blanks the next brace is the first character of the object. -/
theorem findFrom_object {text gap rest : Str} {index : ℕ} (hgap : Blank gap)
    (h : text.drop index = gap ++ 123 :: rest) :
    findFrom text 123 index = some (index + gap.length) := by
  have hfound : (gap ++ 123 :: rest).findIdx? (· = 123) = some gap.length := by
    rw [List.findIdx?_eq_some_iff_getElem]
    refine ⟨by simp, by simp, fun j hj => ?_⟩
    rw [List.getElem_append_left hj]
    intro hbrace
    have hspace := hgap _ (List.getElem_mem hj)
    rw [of_decide_eq_true hbrace] at hspace
    exact absurd hspace (by decide)
  rw [findFrom, h, hfound, Option.map_some, Nat.add_comm]

/-- **From the end of one object the loop reads the others, one in each round.** -/
theorem valuesFrom_objects {dec : Decoder} {invalid : ℕ → PyError} {text : Str} :
    ∀ {items : List Item} {gap : Str} {index fuel : ℕ}, Objects dec items → Blank gap →
      text.drop index = gap ++ body items → items.length < fuel →
      valuesFrom dec invalid text fuel index = .ok (items.map fun item => .obj item.object)
  | _, _, _, 0, _, _, _, hfuel => absurd hfuel (Nat.not_lt_zero _)
  | [], gap, index, fuel + 1, _, hgap, htext, _ => by
    rw [body, List.flatMap_nil, List.append_nil] at htext
    rw [valuesFrom, findFrom_blank hgap htext]
    rfl
  | item :: items, gap, index, fuel + 1, hitems, hgap, htext, hfuel => by
    obtain ⟨hobject, hnext⟩ := hitems item List.mem_cons_self
    obtain ⟨inner, hinner⟩ := hobject.braces
    have hstart : findFrom text 123 index = some (index + gap.length) := by
      refine @findFrom_object text gap (inner ++ [125] ++ (item.gap ++ body items)) index hgap ?_
      rw [htext, body_cons, hinner]
      rfl
    have hdrop : text.drop (index + gap.length) = item.text ++ (item.gap ++ body items) := by
      rw [← List.drop_drop, htext, List.drop_left, body_cons]
    have hrest : text.drop (index + gap.length + item.text.length) = item.gap ++ body items := by
      rw [← List.drop_drop, hdrop, List.drop_left]
    have ih := @valuesFrom_objects dec invalid text items item.gap
      (index + gap.length + item.text.length) fuel
      (fun i hi => hitems i (List.mem_cons_of_mem _ hi)) hnext hrest
      (Nat.lt_of_succ_lt_succ hfuel)
    rw [valuesFrom, hstart]
    simp only [hobject.raw _ _ _ hdrop, ih]
    rfl

/-! ### The text without the blanks around it -/

theorem strip_core {lead core trail : Str} {a b : ℕ} (hlead : Blank lead) (htrail : Blank trail)
    (ha : isSpace a = false) (hb : isSpace b = false) (hfirst : core.head? = some a)
    (hlast : core.getLast? = some b) : strip (lead ++ core ++ trail) = core := by
  obtain ⟨rest, rfl⟩ := List.head?_eq_some_iff.mp hfirst
  have hdrop : (lead ++ a :: rest).dropWhile isSpace = a :: rest := by
    rw [List.dropWhile_append_of_pos hlead, List.dropWhile_cons_of_neg (by simp [ha])]
  obtain ⟨front, hfront⟩ := List.getLast?_eq_some_iff.mp hlast
  rw [strip_append_blank htrail, strip, hdrop, hfront, List.reverse_append, List.reverse_singleton,
    List.singleton_append, List.dropWhile_cons_of_neg (by simp [hb])]
  simp

/-- The objects without the blanks after the last. -/
theorem strip_objects {dec : Decoder} {items : List Item} {last : Item} {lead : Str}
    (h : Objects dec (items ++ [last])) (hlead : Blank lead) :
    strip (lead ++ body (items ++ [last])) = body (items ++ [{ last with gap := [] }]) := by
  have hlast := h last (by simp)
  have hcore : body (items ++ [{ last with gap := [] }]) = body items ++ last.text := by
    rw [body_append]
    simp [body]
  have hbody : body (items ++ [last]) = body items ++ last.text ++ last.gap := by
    rw [body_append]
    simp [body]
  obtain ⟨inner, hinner⟩ := hlast.1.braces
  have hfirst : (body items ++ last.text).head? = some 123 := by
    rcases items with _ | ⟨item, items⟩
    · rw [hinner]
      rfl
    · obtain ⟨inner', hinner'⟩ := (h item (by simp)).1.braces
      rw [body_cons, hinner']
      rfl
  have hend : (body items ++ last.text).getLast? = some 125 := by
    have hshape : body items ++ last.text = (body items ++ 123 :: inner) ++ [125] := by
      rw [hinner]
      simp
    rw [hshape, List.getLast?_concat]
  rw [hcore, hbody, ← List.append_assoc]
  exact strip_core hlead hlast.2 (by decide) (by decide) hfirst hend

/-! ### Both importers -/

theorem length_le_body {dec : Decoder} : ∀ {items : List Item}, Objects dec items →
    items.length ≤ (body items).length
  | [], _ => Nat.le_refl 0
  | item :: items, h => by
    obtain ⟨inner, hinner⟩ := (h item List.mem_cons_self).1.braces
    have ih := length_le_body fun i hi => h i (List.mem_cons_of_mem _ hi)
    rw [body_cons, List.length_append, List.length_append, hinner]
    simp only [List.length_cons, List.length_append]
    omega

/-- More than one object is no document. -/
theorem loads_objects {dec : Decoder} {first second : Item} {items : List Item}
    (h : Objects dec (first :: second :: items)) :
    dec.loads (body (first :: second :: items)) = .jsonError := by
  obtain ⟨inner, hinner⟩ := (h second (by simp)).1.braces
  rw [body_cons]
  refine (h first List.mem_cons_self).1.extra _ ⟨123, ?_, by decide⟩
  rw [body_cons, hinner]
  simp

theorem mapM_accountOf : ∀ items : List Item,
    (items.map fun item => Json.obj item.object).mapM accountOf = some (items.map Item.object)
  | [] => rfl
  | item :: items => by
    rw [List.map_cons, List.mapM_cons, mapM_accountOf items]
    rfl

/-- **Concatenated objects are split without loss**, by the importer of the cloud and by the local
one. -/
theorem documents_concatenated {dec : Decoder} {lead : Str} {items : List Item} (hne : items ≠ [])
    (hlead : Blank lead) (h : Objects dec items) :
    Cloud.Importer.jsonDocuments dec (lead ++ body items) =
        .ok (items.map fun item => .obj item.object) ∧
      Local.Importer.jsonDocuments dec (lead ++ body items) = .ok (items.map Item.object) := by
  obtain ⟨front, last, rfl⟩ := (List.eq_nil_or_concat' items).resolve_left hne
  have hstrip := strip_objects h hlead
  -- the items without the blanks after the last
  obtain ⟨bare, hbare⟩ : ∃ bare, bare = front ++ [{ last with gap := [] }] := ⟨_, rfl⟩
  have hobjects : bare.map Item.object = (front ++ [last]).map Item.object := by
    rw [hbare, List.map_append, List.map_append]
    rfl
  have hvalues : bare.map (fun item => Json.obj item.object) =
      (front ++ [last]).map fun item => .obj item.object := by
    rw [hbare, List.map_append, List.map_append]
    rfl
  have hgood : Objects dec bare := by
    intro item hitem
    rw [hbare] at hitem
    rcases List.mem_append.mp hitem with hitem | hitem
    · exact h item (List.mem_append_left _ hitem)
    · rw [List.mem_singleton.mp hitem]
      exact ⟨(h last (by simp)).1, fun c hc => absurd hc (by simp)⟩
  rw [← hbare] at hstrip
  have hbare_ne : bare ≠ [] := by simp [hbare]
  obtain ⟨first, others, hcons⟩ := List.exists_cons_of_ne_nil hbare_ne
  obtain ⟨inner, hinner⟩ := (hgood first (by simp [hcons])).1.braces
  have hbody : body bare ≠ [] := by
    rw [hcons, body_cons, hinner]
    simp
  have hloop : ∀ {invalid : ℕ → PyError}, valuesFrom dec invalid (body bare)
      ((body bare).length + 1) 0 = .ok (bare.map fun item => .obj item.object) := by
    intro invalid
    have hlen := length_le_body hgood
    exact valuesFrom_objects hgood (fun c hc => absurd hc (List.not_mem_nil)) rfl (by omega)
  rcases others with _ | ⟨second, others⟩
  · -- one object is a document
    have hgap : first.gap = [] := by
      rw [hcons] at hbare
      rcases front with _ | ⟨item, front⟩
      · rw [(List.cons.inj hbare).1]
      · exact absurd (List.cons.inj hbare).2 (by simp)
    have halone : dec.loads (body bare) = .value (.obj first.object) := by
      have htext : body bare = first.text := by rw [hcons, body_cons, hgap]; simp [body]
      rw [htext, (hgood first (by simp [hcons])).1.alone]
    constructor
    · unfold Cloud.Importer.jsonDocuments
      simp only [hstrip, if_neg hbody, halone]
      rw [← hvalues, hcons]
      rfl
    · unfold Local.Importer.jsonDocuments
      simp only [hstrip, if_neg hbody, halone]
      rw [← hobjects, hcons]
      rfl
  · have hloads : dec.loads (body bare) = .jsonError := by
      rw [hcons] at hgood ⊢
      exact loads_objects hgood
    constructor
    · unfold Cloud.Importer.jsonDocuments
      simp only [hstrip, if_neg hbody, hloads]
      have hlen := length_le_body h
      have htotal : (lead ++ body (front ++ [last])).length =
          lead.length + (body (front ++ [last])).length := List.length_append
      exact valuesFrom_objects h hlead rfl (by omega)
    · have hbrace : ¬ 123 ∉ body bare := by
        rw [not_not, hcons, body_cons, hinner]
        exact List.mem_append_left _ List.mem_cons_self
      unfold Local.Importer.jsonDocuments
      simp only [hstrip, if_neg hbody, hloads, if_neg hbrace, hloop, bind, Except.bind,
        mapM_accountOf]
      rw [← hobjects, hcons]
      rfl

/-- A decoder that knows two objects. -/
def twoObjects (a b : Str × Dict) : Decoder where
  loads s :=
    if s = a.1 then .value (.obj a.2)
    else if s = b.1 then .value (.obj b.2)
    else .jsonError
  rawDecode text start :=
    if startsWith (text.drop start) a.1 then .value (.obj a.2) (start + a.1.length)
    else if startsWith (text.drop start) b.1 then .value (.obj b.2) (start + b.1.length)
    else .jsonError start

/-- An object with braces and a quotation mark in a string. -/
def bracedText : Str := lit "\x7b\"a\": \"\x7d\x7b \\\"\x7b\"\x7d"

/-- The object of that text. -/
def bracedObject : Dict := [(lit "a", .str (lit "\x7d\x7b \"\x7b"))]

/-- An object with no members. -/
def emptyText : Str := lit "\x7b \x7d"

theorem different_starts (a b : Str) : bracedText ++ a ≠ emptyText ++ b := by
  have hbraced : bracedText = 123 :: 34 :: bracedText.drop 2 := by decide
  have hempty : emptyText = [123, 32, 125] := by decide
  rw [hbraced, hempty]
  intro h
  exact absurd (List.cons.inj (List.cons.inj h).2).1 (by decide)

theorem braced_objects : Objects (twoObjects (bracedText, bracedObject) (emptyText, []))
    [⟨bracedText, bracedObject, []⟩, ⟨emptyText, [], lit " \n"⟩, ⟨bracedText, bracedObject, lit "\t"⟩] := by
  have hbraced : ObjectText (twoObjects (bracedText, bracedObject) (emptyText, [])) bracedText
      bracedObject := by
    refine ⟨⟨(bracedText.drop 1).dropLast, by decide⟩, fun text start rest h => ?_, by decide, ?_⟩
    · have hstart : startsWith (bracedText ++ rest) bracedText = true :=
        decide_eq_true (List.prefix_append _ _)
      simp only [twoObjects, h, if_pos hstart]
    · rintro rest ⟨c, hc, -⟩
      have hlong : bracedText ++ rest ≠ bracedText := fun h => by
        rw [List.append_cancel_left (h.trans (List.append_nil _).symm)] at hc
        cases hc
      have hother : bracedText ++ rest ≠ emptyText := fun h =>
        different_starts rest [] (h.trans (List.append_nil _).symm)
      simp only [twoObjects, if_neg hlong, if_neg hother]
  have hempty : ObjectText (twoObjects (bracedText, bracedObject) (emptyText, [])) emptyText [] := by
    refine ⟨⟨[32], by decide⟩, fun text start rest h => ?_, by decide, ?_⟩
    · have hstart : startsWith (emptyText ++ rest) emptyText = true :=
        decide_eq_true (List.prefix_append _ _)
      have hother : ¬ startsWith (emptyText ++ rest) bracedText = true := fun hs => by
        obtain ⟨more, hmore⟩ : bracedText <+: emptyText ++ rest := of_decide_eq_true hs
        exact different_starts more rest hmore
      simp only [twoObjects, h, if_neg hother, if_pos hstart]
    · rintro rest ⟨c, hc, -⟩
      have hlong : emptyText ++ rest ≠ emptyText := fun h => by
        rw [List.append_cancel_left (h.trans (List.append_nil _).symm)] at hc
        cases hc
      have hother : emptyText ++ rest ≠ bracedText := fun h =>
        different_starts [] rest ((List.append_nil _).trans h.symm)
      simp only [twoObjects, if_neg hlong, if_neg hother]
  have hnone : Blank [] := by
    show ∀ c ∈ ([] : Str), isSpace c = true
    decide
  have hbreak : Blank (lit " \n") := by
    show ∀ c ∈ lit " \n", isSpace c = true
    decide
  have htab : Blank (lit "\t") := by
    show ∀ c ∈ lit "\t", isSpace c = true
    decide
  intro item hitem
  simp only [List.mem_cons, List.not_mem_nil, or_false] at hitem
  rcases hitem with rfl | rfl | rfl
  · exact ⟨hbraced, hnone⟩
  · exact ⟨hempty, hbreak⟩
  · exact ⟨hbraced, htab⟩

theorem three_objects_split :
    Cloud.Importer.jsonDocuments (twoObjects (bracedText, bracedObject) (emptyText, []))
        (lit "\n" ++ body [⟨bracedText, bracedObject, []⟩, ⟨emptyText, [], lit " \n"⟩,
          ⟨bracedText, bracedObject, lit "\t"⟩]) =
        .ok [.obj bracedObject, .obj [], .obj bracedObject] ∧
      Local.Importer.jsonDocuments (twoObjects (bracedText, bracedObject) (emptyText, []))
        (lit "\n" ++ body [⟨bracedText, bracedObject, []⟩, ⟨emptyText, [], lit " \n"⟩,
          ⟨bracedText, bracedObject, lit "\t"⟩]) = .ok [bracedObject, [], bracedObject] :=
  documents_concatenated (by simp) (by
    show ∀ c ∈ lit "\n", isSpace c = true
    decide) braced_objects

end Cloudx.Joint.Concatenation

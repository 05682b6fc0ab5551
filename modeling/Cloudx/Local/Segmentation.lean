import Cloudx.Lib.Chunks
import Cloudx.Local.ResponseObserver
import Cloudx.Python.Dump

/-! # The diagnosis and the pieces of a response

The relay hands the observer a response in whatever pieces it arrives. The observer classifies what
there is after each of them, and an error document that is not complete yet is read as plain text. This
module says for which responses the last observation is the same however they are divided. -/

namespace Cloudx.Local.Segmentation

open Cloudx.Lib.Chunks
open Cloudx.Python.Text Cloudx.Python.Value
open Cloudx.Local.RootCause Cloudx.Local.ApiFailure Cloudx.Local.ResponseObserver

variable {r : Reader}

/-! ### Status lines in parts -/

/-- A byte of a status line up to its number. -/
def isHeadByte (b : UInt8) : Bool :=
  b ∈ ascii "HTTP/1." || isDigit b || isBlank b

/-- The bytes of a status line up to its number: shorter parts are no status line, and what follows
does not matter if it is no letter or digit. -/
structure Opening (head : Bytes) (code : ℤ) : Prop where
  bytes : ∀ b ∈ head, isHeadByte b = true
  long : ∀ t : Bytes, t.head?.any isWord = false → statusLine (head ++ t) = some code
  short : ∀ p, p <+: head → p ≠ head → statusLine p = none

theorem statusNumber_append {blanks : Bytes} (hne : blanks ≠ []) (hblanks : ∀ b ∈ blanks, isBlank b)
    {t : Bytes} (ht : t.head?.any isBlank = false) : statusNumber (blanks ++ t) = threeDigits t := by
  obtain ⟨blank, blanks', rfl⟩ := List.exists_cons_of_ne_nil hne
  have hhead : ((blank :: blanks') ++ t).head?.any isBlank = true := by
    simp [hblanks blank List.mem_cons_self]
  have hdrop : ((blank :: blanks') ++ t).dropWhile isBlank = t := by
    rw [List.dropWhile_append_of_pos hblanks]
    rcases t with _ | ⟨x, t⟩
    · rfl
    · rw [List.dropWhile_cons_of_neg (by simpa using ht)]
  unfold statusNumber
  rw [if_pos hhead, hdrop]

/-- A status line, taken apart. -/
theorem statusLine_parts {s : Bytes} {code : ℤ} (h : statusLine s = some code) :
    ∃ minor blanks a b c rest, s = ascii "HTTP/1." ++ minor :: (blanks ++ a :: b :: c :: rest) ∧
      (minor = 48 ∨ minor = 49) ∧ blanks ≠ [] ∧ (∀ x ∈ blanks, isBlank x = true) ∧
      isBlank a = false ∧ threeDigits (a :: b :: c :: rest) = some code := by
  unfold statusLine at h
  split at h
  · next minor tail hdrop =>
    split_ifs at h with hhttp
    have hs : s = ascii "HTTP/1." ++ minor :: tail := by
      rw [← hhttp.1, ← hdrop, List.take_append_drop]
    unfold statusNumber at h
    split_ifs at h with hblank
    have htail : tail = tail.takeWhile isBlank ++ tail.dropWhile isBlank :=
      List.takeWhile_append_dropWhile.symm
    have hne : tail.takeWhile isBlank ≠ [] := by
      rcases tail with _ | ⟨x, tail⟩
      · exact absurd hblank (by simp)
      · rw [List.takeWhile_cons_of_pos (by simpa using hblank)]
        simp
    rcases hdigits : tail.dropWhile isBlank with _ | ⟨a, _ | ⟨b, _ | ⟨c, rest⟩⟩⟩
    · exact absurd (hdigits ▸ h) (by simp [threeDigits])
    · exact absurd (hdigits ▸ h) (by simp [threeDigits])
    · exact absurd (hdigits ▸ h) (by simp [threeDigits])
    · have ha : isBlank a = false := by
        have := List.head?_dropWhile_not isBlank tail
        rw [hdigits] at this
        simpa using this
      refine ⟨minor, tail.takeWhile isBlank, a, b, c, rest, ?_, hhttp.2, hne,
        fun x hx => List.mem_takeWhile_imp hx, ha, hdigits ▸ h⟩
      rw [← hdigits, ← htail]
      exact hs
  · exact absurd h (by simp)

/-- Three digits are three digits whatever follows that is no letter or digit. -/
theorem threeDigits_rest {a b c : UInt8} {rest : Bytes} {code : ℤ}
    (h : threeDigits (a :: b :: c :: rest) = some code) :
    rest.head?.any isWord = false ∧ (∀ x ∈ [a, b, c], isDigit x = true) ∧
      ∀ t : Bytes, t.head?.any isWord = false → threeDigits (a :: b :: c :: t) = some code := by
  unfold threeDigits at h
  dsimp only at h
  split_ifs at h with hdigits
  obtain ⟨hlow, hhigh, hb, hc, hrest⟩ := hdigits
  refine ⟨by simpa using hrest, ?_, fun t ht => ?_⟩
  · have ha : isDigit a = true := by
      simp only [isDigit, Bool.and_eq_true, decide_eq_true_eq]
      exact ⟨UInt8.le_trans (by decide) hlow, UInt8.le_trans hhigh (by decide)⟩
    simp [ha, hb, hc]
  · unfold threeDigits
    exact (if_pos ⟨hlow, hhigh, hb, hc, by simpa using ht⟩).trans h

theorem threeDigits_short {t : Bytes} (h : t.length < 3) : threeDigits t = none := by
  rcases t with _ | ⟨a, _ | ⟨b, _ | ⟨c, rest⟩⟩⟩
  · rfl
  · rfl
  · rfl
  · simp only [List.length_cons] at h
    omega

/-- **A status line and its opening.** -/
theorem opening_of_statusLine {s : Bytes} {code : ℤ} (h : statusLine s = some code) :
    ∃ head rest, s = head ++ rest ∧ Opening head code ∧ rest.head?.any isWord = false := by
  obtain ⟨minor, blanks, a, b, c, rest, rfl, hminor, hne, hblanks, ha, hdigits⟩ :=
    statusLine_parts h
  obtain ⟨hrest, hthree, hlong⟩ := threeDigits_rest hdigits
  have hline : ∀ tail, statusLine (ascii "HTTP/1." ++ minor :: tail) = statusNumber tail := by
    intro tail
    have hdrop : (ascii "HTTP/1." ++ minor :: tail).drop 7 = minor :: tail := rfl
    have htake : (ascii "HTTP/1." ++ minor :: tail).take 7 = ascii "HTTP/1." := rfl
    unfold statusLine
    rw [hdrop, htake]
    exact if_pos ⟨rfl, hminor⟩
  refine ⟨ascii "HTTP/1." ++ minor :: (blanks ++ [a, b, c]), rest, by simp, ⟨?_, ?_, ?_⟩, hrest⟩
  · intro x hx
    rcases List.mem_append.mp hx with hx | hx
    · simp [isHeadByte, hx]
    · rcases List.mem_cons.mp hx with rfl | hx
      · rcases hminor with rfl | rfl <;> decide
      · rcases List.mem_append.mp hx with hx | hx
        · simp [isHeadByte, hblanks x hx]
        · simp [isHeadByte, hthree x hx]
  · intro t ht
    have happend : ascii "HTTP/1." ++ minor :: (blanks ++ [a, b, c]) ++ t =
        ascii "HTTP/1." ++ minor :: (blanks ++ a :: b :: c :: t) := by simp
    rw [happend, hline, statusNumber_append hne hblanks (by simpa using ha), hlong t ht]
  · rintro p ⟨u, hu⟩ hproper
    have hu' : u ≠ [] := fun hnil => hproper (by rw [← hu, hnil, List.append_nil])
    by_cases hlen : p.length ≤ 7
    · unfold statusLine
      rw [List.drop_of_length_le hlen]
    · -- the part ends among the blanks or the digits
      have hp : ascii "HTTP/1." ++ [minor] <+: p :=
        List.prefix_of_prefix_length_le ⟨blanks ++ [a, b, c], by simp⟩ ⟨u, hu⟩ (by
          have : (ascii "HTTP/1." ++ [minor]).length = 8 := rfl
          omega)
      obtain ⟨q, rfl⟩ := hp
      have hq : q ++ u = blanks ++ [a, b, c] := by
        have h' : (ascii "HTTP/1." ++ [minor]) ++ (q ++ u) =
            (ascii "HTTP/1." ++ [minor]) ++ (blanks ++ [a, b, c]) := by
          rw [← List.append_assoc, hu]
          simp
        exact List.append_cancel_left h'
      have hall : (blanks ++ [a, b, c]).dropWhile isBlank = [a, b, c] := by
        rw [List.dropWhile_append_of_pos hblanks, List.dropWhile_cons_of_neg (by simp [ha])]
      have hshort : (q.dropWhile isBlank).length < 3 := by
        rw [← hq, List.dropWhile_append] at hall
        by_cases hnil : (q.dropWhile isBlank).isEmpty = true
        · rw [List.isEmpty_iff.mp hnil]
          simp
        · rw [if_neg hnil] at hall
          have hcount := congrArg List.length hall
          have hpos := List.length_pos_iff.mpr hu'
          rw [List.length_append] at hcount
          simp only [List.length_cons, List.length_nil] at hcount
          omega
      have hsame : ascii "HTTP/1." ++ [minor] ++ q = ascii "HTTP/1." ++ minor :: q := by simp
      rw [hsame, hline]
      unfold statusNumber
      split_ifs
      · exact threeDigits_short hshort
      · rfl

/-! ### Markers in parts -/

theorem lower_append (x y : Bytes) : lower (x ++ y) = lower x ++ lower y := List.map_append

theorem lower_lower (x : Bytes) : lower (lower x) = lower x := by
  have hbyte : ∀ n : Fin 256, lowerByte (lowerByte (UInt8.ofNat n)) = lowerByte (UInt8.ofNat n) := by
    decide +kernel
  rw [lower, lower, List.map_map]
  refine List.map_congr_left fun b _ => ?_
  have := hbyte ⟨b.toNat, b.toNat_lt⟩
  simpa using this

theorem lastBytes_eq (n : ℕ) (x : Bytes) : lastBytes n x = lastN n x := rfl

theorem lower_lastBytes (n : ℕ) (x : Bytes) : lower (lastBytes n (lower x)) = lastBytes n (lower x) := by
  have hdrop : lower (lastBytes n (lower x)) = lastBytes n (lower (lower x)) := by
    simp only [lastBytes, lower, List.map_drop, List.length_map]
  rw [hdrop, lower_lower]

/-- No marker starts with a byte of a status line. -/
theorem marker_head {marker : Bytes} (h : marker ∈ errorMarkers) :
    ∃ b t, marker = b :: t ∧ ∀ x, isHeadByte x = true → lowerByte x ≠ b := by
  have hbytes : ∀ n : Fin 256, isHeadByte (UInt8.ofNat n) = true →
      lowerByte (UInt8.ofNat n) ∉ [34, 114, 117, 105, 97] := by decide +kernel
  have hfirst : ∀ m ∈ errorMarkers, ∃ b ∈ [34, 114, 117, 105, 97], m.head? = some b := by
    decide +kernel
  obtain ⟨b, hb, hhead⟩ := hfirst marker h
  obtain ⟨t, rfl⟩ : ∃ t, marker = b :: t := by
    rcases marker with _ | ⟨x, t⟩
    · exact absurd hhead (by simp)
    · obtain rfl := Option.some.inj hhead
      exact ⟨t, rfl⟩
  refine ⟨b, t, rfl, fun x hx heq => ?_⟩
  have := hbytes ⟨x.toNat, x.toNat_lt⟩ (by simpa using hx)
  simp only [UInt8.ofNat_toNat] at this
  exact this (heq ▸ hb)

/-- Bytes of a status line before it do not matter for the markers. -/
theorem hasMarker_append_head {q : Bytes} (hq : ∀ b ∈ q, isHeadByte b = true) (c : Bytes) :
    hasMarker (lower (q ++ c)) = hasMarker (lower c) := by
  induction q with
  | nil => rfl
  | cons x q ih =>
    rw [← ih fun b hb => hq b (List.mem_cons_of_mem _ hb)]
    have hiff : ∀ marker ∈ errorMarkers,
        decide (marker <:+: lower ((x :: q) ++ c)) = decide (marker <:+: lower (q ++ c)) := by
      intro marker hmarker
      obtain ⟨b, t, rfl, hb⟩ := marker_head hmarker
      have hcons : lower ((x :: q) ++ c) = lowerByte x :: lower (q ++ c) := rfl
      rw [hcons, decide_eq_decide, List.infix_cons_iff]
      refine ⟨fun h => h.resolve_left fun hpre => ?_, Or.inr⟩
      exact hb x (hq x List.mem_cons_self) (List.cons_prefix_cons.mp hpre).1.symm
    unfold hasMarker
    rw [Bool.eq_iff_iff, List.any_eq_true, List.any_eq_true]
    exact ⟨fun ⟨m, hm, h⟩ => ⟨m, hm, hiff m hm ▸ h⟩, fun ⟨m, hm, h⟩ => ⟨m, hm, (hiff m hm).symm ▸ h⟩⟩

theorem hasMarker_head {q : Bytes} (hq : ∀ b ∈ q, isHeadByte b = true) :
    hasMarker (lower q) = false := by
  have h := hasMarker_append_head hq []
  rw [List.append_nil] at h
  rw [h]
  decide

/-- **The window is wide enough**: a marker in all that was read is one in what was read before, or in
the window. -/
theorem hasMarker_window (x c : Bytes) :
    hasMarker (lower (x ++ c)) =
      (hasMarker (lower x) || hasMarker (lower (lastBytes 128 (lower x) ++ c))) := by
  have hlower : lower (lastBytes 128 (lower x) ++ c) = lastN 128 (lower x) ++ lower c := by
    rw [lower_append, lower_lastBytes, lastBytes_eq]
  have hlength : ∀ marker ∈ errorMarkers, marker.length ≤ 128 + 1 := by decide +kernel
  rw [hlower, lower_append]
  unfold hasMarker
  rw [Bool.eq_iff_iff, Bool.or_eq_true]
  simp only [List.any_eq_true, decide_eq_true_eq]
  constructor
  · rintro ⟨m, hm, h⟩
    rcases (infix_append_window (hlength m hm)).mp h with h | h
    · exact Or.inl ⟨m, hm, h⟩
    · exact Or.inr ⟨m, hm, h⟩
  · rintro (⟨m, hm, h⟩ | ⟨m, hm, h⟩)
    · exact ⟨m, hm, (infix_append_window (hlength m hm)).mpr (Or.inl h)⟩
    · exact ⟨m, hm, (infix_append_window (hlength m hm)).mpr (Or.inr h)⟩

/-- The window after another piece. -/
theorem window_append (x c : Bytes) :
    lastBytes 128 (lower (lastBytes 128 (lower x) ++ c)) = lastBytes 128 (lower (x ++ c)) := by
  rw [lower_append, lower_lastBytes, lower_append, lastBytes_eq, lastBytes_eq, lastBytes_eq]
  exact lastN_append 128 (lower x) (lower c)

/-! ### The observer in the middle of a response -/

/-- No part of the stream shows a status line after a line break. -/
def OneStatus (stream : Bytes) : Prop := ∀ part, part <+: stream → statusesFrom 0 part = []

/-- What the observer has taken in of a response whose opening is complete. -/
structure Known (code : ℤ) (now : ℚ) (part : Bytes) (o : Observer) : Prop where
  status : o.statusCode = some code
  offset : o.lastStatusOffset = 0
  time : o.responseObservedAt = some now
  seen : o.failureMarkerSeen = hasMarker (lower part)
  tail : ∃ q x, part = q ++ x ∧ (∀ b ∈ q, isHeadByte b = true) ∧ o.markerTail = lastBytes 128 (lower x)

/-- What it has taken in of one whose opening is not complete. -/
structure Unknown (o : Observer) : Prop where
  status : o.statusCode = none
  offset : o.lastStatusOffset = -1
  seen : o.failureMarkerSeen = false
  signature : o.lastSignature = none
  tail : ∃ x, (∀ b ∈ x, isHeadByte b = true) ∧ o.markerTail = lastBytes 128 (lower x)

/-- The observer has taken in this part of a response, and nothing before it. -/
structure Taken (code : ℤ) (now : ℚ) (part : Bytes) (o : Observer) : Prop where
  buffer : o.buffer = part
  total : o.totalBytes = part.length
  start : o.bufferStart = 0
  known : statusLine part ≠ none → Known code now part o
  unknown : statusLine part = none → Unknown o

theorem taken_new (code : ℤ) (now : ℚ) : Taken code now [] newObserver :=
  ⟨rfl, rfl, rfl, fun h => absurd rfl h, fun _ => ⟨rfl, rfl, rfl, rfl, [], by simp, rfl⟩⟩

/-- Extending the buffer within its bounds. -/
theorem extend_taken {code : ℤ} {now : ℚ} {part c : Bytes} {o : Observer}
    (h : Taken code now part o) (hlen : (part ++ c).length ≤ maxErrorBytes) :
    o.extend c = { o with
      buffer := part ++ c, totalBytes := (part ++ c).length, bufferStart := 0 } := by
  have hbuffer : lastBytes maxErrorBytes (o.buffer ++ c) = part ++ c := by
    rw [h.buffer, lastBytes_eq, lastN_of_le hlen]
  have htotal : o.totalBytes + c.length = (part ++ c).length := by
    rw [h.total, List.length_append]
  unfold Observer.extend
  rw [hbuffer, htotal]
  dsimp only
  rw [Nat.sub_self]

theorem statuses_part {stream part : Bytes} (hone : OneStatus stream) (hpart : part <+: stream) :
    statuses part = ((statusLine part).map fun code => (0, code)).toList := by
  rw [statuses, hone part hpart, List.append_nil]

/-- Once the opening is complete it stays so. -/
theorem statusLine_part {stream : Bytes} {code : ℤ} (hstatus : statusLine stream = some code)
    {part : Bytes} (hpart : part <+: stream) :
    (statusLine part = some code ∨ statusLine part = none ∧ ∀ b ∈ part, isHeadByte b = true) ∧
      ∀ more, more <+: stream → part <+: more → statusLine part ≠ none →
        statusLine more = some code := by
  obtain ⟨head, rest, rfl, hopening, hrest⟩ := opening_of_statusLine hstatus
  have hlong : ∀ p, p <+: head ++ rest → head <+: p → statusLine p = some code := by
    rintro p hp ⟨t, rfl⟩
    refine hopening.long t ?_
    obtain ⟨u, hu⟩ := hp
    rw [List.append_assoc] at hu
    rw [← List.append_cancel_left hu] at hrest
    rcases t with _ | ⟨x, t⟩
    · rfl
    · exact hrest
  have hcases : ∀ p, p <+: head ++ rest → head <+: p ∨ p <+: head ∧ p ≠ head := by
    intro p hp
    rcases List.prefix_or_prefix_of_prefix hp (List.prefix_append head rest) with h | h
    · by_cases heq : p = head
      · exact Or.inl (heq ▸ List.prefix_rfl)
      · exact Or.inr ⟨h, heq⟩
    · exact Or.inl h
  constructor
  · rcases hcases part hpart with h | ⟨h, hne⟩
    · exact Or.inl (hlong part hpart h)
    · exact Or.inr ⟨hopening.short part h hne, fun b hb => hopening.bytes b (h.subset hb)⟩
  · intro more hmore hle hknown
    rcases hcases part hpart with h | ⟨h, hne⟩
    · exact hlong more hmore (h.trans hle)
    · exact absurd (hopening.short part h hne) hknown

/-- What looking for markers leaves alone, and what it does. -/
theorem noteMarkers_fields (o : Observer) (c : Bytes) (now : ℚ) :
    (o.noteMarkers c now).buffer = o.buffer ∧ (o.noteMarkers c now).totalBytes = o.totalBytes ∧
      (o.noteMarkers c now).bufferStart = o.bufferStart ∧
      (o.noteMarkers c now).statusCode = o.statusCode ∧
      (o.noteMarkers c now).lastStatusOffset = o.lastStatusOffset ∧
      (o.noteMarkers c now).lastSignature = o.lastSignature ∧
      (o.noteMarkers c now).markerTail = lastBytes 128 (lower (o.markerTail ++ c)) ∧
      (o.noteMarkers c now).failureMarkerSeen =
        (o.failureMarkerSeen || hasMarker (lower (o.markerTail ++ c))) ∧
      (o.responseObservedAt = some now → (o.noteMarkers c now).responseObservedAt = some now) := by
  by_cases hmarker : hasMarker (lower (o.markerTail ++ c)) = true
  · simp only [Observer.noteMarkers, hmarker, if_true, Bool.or_true, true_and]
    intro h
    rw [h]
    rfl
  · simp [Observer.noteMarkers, hmarker]

/-- **Another piece of the response.** -/
theorem absorb_taken {stream : Bytes} {code : ℤ} {now : ℚ} (hstatus : statusLine stream = some code)
    (hone : OneStatus stream) (hlen : stream.length ≤ maxErrorBytes) {part c : Bytes} {o : Observer}
    (h : Taken code now part o) (hpart : part ++ c <+: stream) :
    Taken code now (part ++ c) (o.absorb c now) ∧
      (o.absorb c now).lastSignature = o.lastSignature := by
  have hbefore : part <+: stream := (List.prefix_append part c).trans hpart
  have hextend := extend_taken h (hpart.length_le.trans hlen)
  have hstatuses := statuses_part hone hpart
  obtain ⟨hknown, hstays⟩ := statusLine_part hstatus hbefore
  obtain ⟨hknown', -⟩ := statusLine_part hstatus hpart
  -- the observer after the status lines have been looked at
  have hmarkers : ∀ t : Observer, t.buffer = part ++ c → t.totalBytes = (part ++ c).length →
      t.bufferStart = 0 → ((o.extend c).noteStatus now) = t →
      (statusLine (part ++ c) ≠ none → Known code now (part ++ c) (t.noteMarkers c now)) →
      (statusLine (part ++ c) = none → Unknown (t.noteMarkers c now)) →
      t.lastSignature = o.lastSignature →
      Taken code now (part ++ c) (o.absorb c now) ∧
        (o.absorb c now).lastSignature = o.lastSignature := by
    intro t hbuffer htotal hstart ht hk hu hsignature
    obtain ⟨h1, h2, h3, -, -, h6, -⟩ := noteMarkers_fields t c now
    unfold Observer.absorb
    rw [ht]
    exact ⟨⟨h1.trans hbuffer, h2.trans htotal, h3.trans hstart, hk, hu⟩, h6.trans hsignature⟩
  rcases hknown' with hnow | ⟨hnow, hhead⟩
  · rw [hnow] at hstatuses
    by_cases hold : statusLine part = none
    · -- this piece completes the opening
      have hun := h.unknown hold
      refine hmarkers { o with
        buffer := part ++ c, totalBytes := (part ++ c).length, bufferStart := 0
        lastStatusOffset := 0, lastSignature := none, markerTail := []
        failureMarkerSeen := false, responseObservedAt := some now, statusCode := some code }
        rfl rfl rfl ?_ (fun _ => ?_) (fun hno => absurd (hnow.symm.trans hno) (by simp))
        hun.signature.symm
      · rw [hextend]
        unfold Observer.noteStatus
        rw [hstatuses]
        simp [hun.offset]
      · obtain ⟨-, -, -, h4, h5, -, h7, h8, h9⟩ := noteMarkers_fields { o with
          buffer := part ++ c, totalBytes := (part ++ c).length, bufferStart := 0
          lastStatusOffset := 0, lastSignature := none, markerTail := []
          failureMarkerSeen := false, responseObservedAt := some now, statusCode := some code } c now
        have hbytes : ∀ b ∈ part, isHeadByte b = true := by
          rcases hknown with hsome | ⟨-, hbytes⟩
          · exact absurd (hsome.symm.trans hold) (by simp)
          · exact hbytes
        refine ⟨h4, h5, h9 rfl, ?_, part, c, rfl, hbytes, h7⟩
        rw [h8, hasMarker_append_head hbytes]
        rfl
    · -- the opening was complete before
      have hk := h.known hold
      refine hmarkers { o with
        buffer := part ++ c, totalBytes := (part ++ c).length, bufferStart := 0
        statusCode := some code } rfl rfl rfl ?_ (fun _ => ?_)
        (fun hno => absurd (hnow.symm.trans hno) (by simp)) rfl
      · rw [hextend]
        unfold Observer.noteStatus
        rw [hstatuses]
        simp [hk.offset]
      · obtain ⟨-, -, -, h4, h5, -, h7, h8, h9⟩ := noteMarkers_fields { o with
          buffer := part ++ c, totalBytes := (part ++ c).length, bufferStart := 0
          statusCode := some code } c now
        obtain ⟨q, x, hsplit, hbytes, htail⟩ := hk.tail
        refine ⟨h4, h5.trans hk.offset, h9 hk.time, ?_, q, x ++ c, ?_, hbytes, ?_⟩
        · rw [h8]
          show (o.failureMarkerSeen || hasMarker (lower (o.markerTail ++ c))) = _
          rw [hk.seen, htail, hsplit, List.append_assoc, hasMarker_append_head hbytes,
            hasMarker_append_head hbytes, hasMarker_window x c]
        · rw [hsplit, List.append_assoc]
        · rw [h7]
          show lastBytes 128 (lower (o.markerTail ++ c)) = _
          rw [htail, window_append]
  · rw [hnow] at hstatuses
    have hold : statusLine part = none := by
      by_contra hsome
      exact absurd ((hstays (part ++ c) hpart (List.prefix_append part c) hsome).symm.trans hnow)
        (by simp)
    have hun := h.unknown hold
    refine hmarkers { o with
      buffer := part ++ c, totalBytes := (part ++ c).length, bufferStart := 0 } rfl rfl rfl ?_
      (fun hsome => absurd hnow hsome) (fun _ => ?_) rfl
    · rw [hextend]
      unfold Observer.noteStatus
      rw [hstatuses]
      rfl
    · obtain ⟨-, -, -, h4, h5, h6, h7, h8, -⟩ := noteMarkers_fields { o with
        buffer := part ++ c, totalBytes := (part ++ c).length, bufferStart := 0 } c now
      obtain ⟨x, hx, htail⟩ := hun.tail
      have hbytes : ∀ b ∈ x ++ c, isHeadByte b = true := by
        intro b hb
        rcases List.mem_append.mp hb with hb | hb
        · exact hx b hb
        · exact hhead b (List.mem_append_right _ hb)
      refine ⟨h4.trans hun.status, h5.trans hun.offset, ?_, h6.trans hun.signature, x ++ c, hbytes, ?_⟩
      · rw [h8]
        show (o.failureMarkerSeen || hasMarker (lower (o.markerTail ++ c))) = false
        have hnone := hasMarker_head hbytes
        rw [hasMarker_window, Bool.or_eq_false_iff] at hnone
        rw [hun.seen, htail, hnone.2]
        rfl
      · rw [h7]
        show lastBytes 128 (lower (o.markerTail ++ c)) = _
        rw [htail, window_append]

/-! ### Verdicts -/

/-- What there is of a response may hold a failure: the body of a failed one has begun, or a marker
has been seen. -/
def mayFail (code : ℤ) (part : Bytes) : Bool :=
  if 400 ≤ code then (afterLast [13, 10, 13, 10] part).any (0 < ·) else hasMarker (lower part)

/-- What a classification says: nothing if the cause is unknown, nor, before the end, if all it
knows is that the server failed. -/
def verdictOf (force : Bool) (failure : Observation) : Option Signature :=
  if failure.cause = causeUnknown ∨ failure.cause = causeUpstreamFailure ∧ force = false then none
  else some (signature failure)

/-- The verdict on a part of a response, as far as one is asked for. -/
def earlyVerdict (r : Reader) (code : ℤ) (now : ℚ) (part : Bytes) :
    Except PyError (Option Signature) :=
  if statusLine part = none ∨ mayFail code part = false then .ok none
  else (classify r (some code) part now).map (verdictOf false)

/-- The verdict on all of it. -/
def finalVerdict (r : Reader) (code : ℤ) (now : ℚ) (stream : Bytes) :
    Except PyError (Option Signature) :=
  (classify r (some code) stream now).map (verdictOf true)

theorem verdictOf_false {failure : Observation} {s : Signature}
    (h : verdictOf false failure = some s) : verdictOf true failure = some s := by
  unfold verdictOf at h ⊢
  split_ifs at h with hquiet
  rw [if_neg]
  · exact h
  · rintro (hunknown | ⟨-, hforce⟩)
    · exact hquiet (Or.inl hunknown)
    · exact absurd hforce (by simp)

theorem verdicts_consistent (r : Reader) (code : ℤ) (now : ℚ) :
    Consistent (earlyVerdict r code now) (finalVerdict r code now) := by
  intro stream
  unfold earlyVerdict finalVerdict
  split_ifs with hnone
  · exact ⟨fun e h => absurd h (by simp), fun v h => absurd h (by simp)⟩
  · rcases classify r (some code) stream now with e | failure
    · exact ⟨fun e' h => h, fun v h => absurd h (by simp [Except.map])⟩
    · refine ⟨fun e h => absurd h (by simp [Except.map]), fun v h => ?_⟩
      have hv : verdictOf false failure = some v := Except.ok.inj h
      exact congrArg Except.ok (verdictOf_false hv)

/-- **What an emission does**, once the time of the response is known. -/
theorem emit_spec (r : Reader) (o : Observer) (force : Bool) (now : ℚ)
    (htime : o.responseObservedAt = some now) :
    (∀ e, classify r o.statusCode o.buffer now = .error e → (o.emit r force now).2 = .error e) ∧
      ∀ failure, classify r o.statusCode o.buffer now = .ok failure → ∃ emitted,
        o.emit r force now =
          ({ o with lastSignature := (verdictOf force failure).or o.lastSignature }, .ok emitted) ∧
        (emitted.map signature).or o.lastSignature = (verdictOf force failure).or o.lastSignature ∧
        emitted = if verdictOf force failure = none ∨ verdictOf force failure = o.lastSignature then
          none else some failure := by
  have hgetD : o.responseObservedAt.getD now = now := by rw [htime]; rfl
  unfold Observer.emit
  dsimp only
  rw [hgetD]
  constructor
  · intro e h
    rw [h]
  · intro failure h
    rw [h]
    have hsame : { o with responseObservedAt := some now } = o := by rw [← htime]
    unfold verdictOf
    dsimp only
    rw [hsame]
    by_cases hunknown : failure.cause = causeUnknown
    · rw [if_pos hunknown, if_pos (Or.inl hunknown)]
      exact ⟨none, by simp, by simp, by simp⟩
    · rw [if_neg hunknown]
      by_cases hquiet : failure.cause = causeUpstreamFailure ∧ force = false
      · rw [if_pos hquiet, if_pos (Or.inr hquiet)]
        exact ⟨none, by simp, by simp, by simp⟩
      · rw [if_neg hquiet, if_neg (not_or.mpr ⟨hunknown, hquiet⟩)]
        by_cases hagain : some (signature failure) = o.lastSignature
        · rw [if_pos hagain]
          refine ⟨none, ?_, by simp [hagain], by simp [hagain]⟩
          rw [← hagain]
          simp [hagain]
        · rw [if_neg hagain]
          refine ⟨some failure, ?_, by simp, by simp [hagain]⟩
          simp [← htime]

/-! ### Whole responses -/

/-- The observations that go to the callback while a stream is fed in pieces and closed, the clock
standing still; the exception if there is one. -/
def observe (r : Reader) (now : ℚ) (o : Observer) : List Bytes → Except PyError (List Observation)
  | [] => (o.close r now).2.map Option.toList
  | c :: pieces =>
    match o.feed r c now with
    | (_, .error e) => .error e
    | (fed, .ok emitted) => (observe r now fed pieces).map (emitted.toList ++ ·)

/-- The last of them: cause, status, signal and reset time. -/
def lastSeen (r : Reader) (now : ℚ) (pieces : List Bytes) : Except PyError (Option Signature) :=
  (observe r now newObserver pieces).map fun seen => seen.getLast?.map signature

theorem mayContainFailure_known {code : ℤ} {now : ℚ} {part : Bytes} {o : Observer}
    (hbuffer : o.buffer = part) (h : Known code now part o) :
    o.mayContainFailure = mayFail code part := by
  unfold Observer.mayContainFailure mayFail
  rw [h.status, hbuffer, h.seen]
  simp

theorem mayContainFailure_unknown {o : Observer} (h : Unknown o) : o.mayContainFailure = false := by
  unfold Observer.mayContainFailure
  rw [h.status, h.seen]
  rfl

/-- A new last signature does not change what has been taken in. -/
theorem Taken.emitted {code : ℤ} {now : ℚ} {part : Bytes} {o : Observer} (h : Taken code now part o)
    (hknown : statusLine part ≠ none) (s : Option Signature) :
    Taken code now part { o with lastSignature := s } := by
  obtain ⟨hstatus, hoffset, htime, hseen, htail⟩ := h.known hknown
  exact ⟨h.buffer, h.total, h.start, fun _ => ⟨hstatus, hoffset, htime, hseen, htail⟩,
    fun hno => absurd hno hknown⟩

/-- **A piece fed to the observer** is a verdict on what there is. -/
theorem feed_spec {stream : Bytes} {code : ℤ} {now : ℚ} (hstatus : statusLine stream = some code)
    (hone : OneStatus stream) (hlen : stream.length ≤ maxErrorBytes) {part c : Bytes} {o : Observer}
    (h : Taken code now part o) (hpart : part ++ c <+: stream) (hc : c ≠ []) :
    (∀ e, earlyVerdict r code now (part ++ c) = .error e → (o.feed r c now).2 = .error e) ∧
      ∀ verdict, earlyVerdict r code now (part ++ c) = .ok verdict → ∃ fed emitted,
        o.feed r c now = (fed, .ok emitted) ∧ Taken code now (part ++ c) fed ∧
        fed.lastSignature = verdict.or o.lastSignature ∧
        (emitted.map signature).or o.lastSignature = verdict.or o.lastSignature := by
  obtain ⟨htaken, hsignature⟩ := absorb_taken hstatus hone hlen h hpart
  by_cases hmay : (o.absorb c now).mayContainFailure = true
  · have hfeed : o.feed r c now = (o.absorb c now).emit r false now := by
      rw [Observer.feed, if_neg hc]
      exact if_pos hmay
    have hknown : statusLine (part ++ c) ≠ none := by
      intro hnone
      exact absurd ((mayContainFailure_unknown (htaken.unknown hnone)).symm.trans hmay) (by simp)
    have hk := htaken.known hknown
    have hfail : mayFail code (part ++ c) = true :=
      (mayContainFailure_known htaken.buffer hk).symm.trans hmay
    have hearly : earlyVerdict r code now (part ++ c) =
        (classify r (some code) (part ++ c) now).map (verdictOf false) := by
      rw [earlyVerdict, if_neg]
      rintro (hnone | hno)
      · exact hknown hnone
      · exact absurd (hfail.symm.trans hno) (by simp)
    obtain ⟨herror, hok⟩ := emit_spec r (o.absorb c now) false now hk.time
    have hsame : classify r (o.absorb c now).statusCode (o.absorb c now).buffer now =
        classify r (some code) (part ++ c) now := by rw [hk.status, htaken.buffer]
    rw [hfeed, hearly]
    rcases hclassify : classify r (some code) (part ++ c) now with e | failure
    · refine ⟨fun e' he' => ?_, fun verdict h' => absurd h' (by simp [Except.map])⟩
      obtain rfl := Except.error.inj he'
      exact herror e (hsame.trans hclassify)
    · refine ⟨fun e' he' => absurd he' (by simp [Except.map]), fun verdict h' => ?_⟩
      obtain rfl : verdictOf false failure = verdict := Except.ok.inj h'
      obtain ⟨emitted, hemit, hlast, -⟩ := hok failure (hsame.trans hclassify)
      rw [hsignature] at hlast
      refine ⟨_, emitted, hemit, htaken.emitted hknown _, ?_, hlast⟩
      show (verdictOf false failure).or (o.absorb c now).lastSignature = _
      rw [hsignature]
  · have hfeed : o.feed r c now = (o.absorb c now, .ok none) := by
      rw [Observer.feed, if_neg hc]
      exact if_neg hmay
    have hearly : earlyVerdict r code now (part ++ c) = .ok none := by
      rw [earlyVerdict, if_pos]
      by_cases hnone : statusLine (part ++ c) = none
      · exact Or.inl hnone
      · refine Or.inr ?_
        rw [← mayContainFailure_known htaken.buffer (htaken.known hnone)]
        simpa using hmay
    rw [hfeed, hearly]
    refine ⟨fun e h' => absurd h' (by simp), fun verdict h' => ?_⟩
    obtain rfl := Except.ok.inj h'
    exact ⟨_, none, rfl, htaken, hsignature, rfl⟩

/-- **The last observation is the last verdict.** -/
theorem observe_eq {stream : Bytes} {code : ℤ} {now : ℚ} (hstatus : statusLine stream = some code)
    (hone : OneStatus stream) (hlen : stream.length ≤ maxErrorBytes) : ∀ (pieces : List Bytes)
    (part : Bytes) (o : Observer), Taken code now part o → part ++ pieces.flatten = stream →
    (∀ c ∈ pieces, c ≠ []) →
    (observe r now o pieces).map (fun seen => (seen.getLast?.map signature).or o.lastSignature) =
      lastVerdict (earlyVerdict r code now) (finalVerdict r code now) part o.lastSignature pieces
  | [], part, o, h, hread, _ => by
    obtain rfl : part = stream := by simpa using hread
    have hk := h.known (by rw [hstatus]; simp)
    obtain ⟨herror, hok⟩ := emit_spec r o true now hk.time
    rw [hk.status, h.buffer] at herror hok
    rw [observe, Observer.close, lastVerdict, finalVerdict]
    rcases hclassify : classify r (some code) part now with e | failure
    · rw [herror e hclassify]
      rfl
    · obtain ⟨emitted, hemit, hlast, -⟩ := hok failure hclassify
      rw [hemit]
      show Except.ok ((emitted.toList.getLast?.map signature).or o.lastSignature) =
        Except.ok ((verdictOf true failure).or o.lastSignature)
      rw [← hlast]
      rcases emitted with _ | failure' <;> rfl
  | c :: pieces, part, o, h, hread, hne => by
    have hread' : (part ++ c) ++ pieces.flatten = stream := by
      rw [← hread, List.flatten_cons, List.append_assoc]
    obtain ⟨herror, hok⟩ := @feed_spec r stream code now hstatus hone hlen part c o h ⟨_, hread'⟩
      (hne c List.mem_cons_self)
    rw [observe, lastVerdict]
    rcases hearly : earlyVerdict r code now (part ++ c) with e | verdict
    · have hfeed := herror e hearly
      rcases hfed : o.feed r c now with ⟨fed, result⟩
      rw [hfed] at hfeed
      obtain rfl : result = .error e := hfeed
      rfl
    · obtain ⟨fed, emitted, hfeed, htaken, hsignature, hlast⟩ := hok verdict hearly
      have ih := observe_eq hstatus hone hlen pieces (part ++ c) fed htaken hread'
        fun p hp => hne p (List.mem_cons_of_mem _ hp)
      rw [hfeed]
      dsimp only
      rw [← hsignature, ← ih]
      rcases observe r now fed pieces with e | seen
      · rfl
      · refine congrArg Except.ok ?_
        dsimp only
        rw [hsignature, ← hlast, List.getLast?_append, Option.map_or, Option.or_assoc]
        rcases emitted with _ | failure <;> rfl

theorem lastSeen_eq (r : Reader) (now : ℚ) {stream : Bytes} {code : ℤ}
    (hstatus : statusLine stream = some code) (hone : OneStatus stream)
    (hlen : stream.length ≤ maxErrorBytes) {pieces : List Bytes} (h : Division pieces stream) :
    lastSeen r now pieces =
      lastVerdict (earlyVerdict r code now) (finalVerdict r code now) [] none pieces := by
  rw [← show newObserver.lastSignature = none from rfl, ← @observe_eq r stream code now hstatus hone hlen
    pieces [] newObserver (taken_new code now) (by rw [List.nil_append, h.1]) h.2, lastSeen]
  congr 1
  funext seen
  exact (Option.or_none).symm

/-- The body of a refused request that says something else about a quota. -/
def noteBody : Str := lit "\x7b\"message\":\"x\",\"note\":\"quota exhausted\"\x7d"

/-- A reader of ASCII text that decodes that body. -/
def noteReader : Reader where
  py := Python.Dump.tablePy [] [] []
  decodeReplace raw := raw.map UInt8.toNat
  loads s := if s = noteBody then
      .value (.obj [(lit "message", .str (lit "x")), (lit "note", .str (lit "quota exhausted"))])
    else .jsonError
  timedelta _ := none

/-- A successful response without a body. -/
def okStream : Bytes := ascii "HTTP/1.1 200 OK\r\n\r\n"

end Cloudx.Local.Segmentation

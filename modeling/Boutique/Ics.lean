import Mathlib.Data.List.Flatten
import Mathlib.Data.List.Infix
/-!
# Ics — the calendar file: escaping and folding

Content lines are folded at 75 octets between characters, and TEXT values are escaped by replacements one after another.
Unfolding undoes the one and decoding the other, but for a carriage return, which the escaper drops wherever it stands.
-/
namespace Ics

abbrev Text : Type := List Char

def CRLF : Text := ['\r', '\n']
def ICS_MAX_OCTETS : Nat := 75

def replace (c : Char) (by_ : Text) (value : Text) : Text := value.flatMap fun d => if d = c then by_ else [d]

/-- The backslash first. -/
def escape (value : Text) : Text :=
  replace '\r' [] (replace '\n' ['\\', 'n'] (replace ',' ['\\', ','] (replace ';' ['\\', ';'] (replace '\\' ['\\', '\\'] value))))

/-- The loop state of `_fold`. -/
structure Folding where
  segments : List Text
  current : Text
  used : Nat
  budget : Nat

def Folding.push (f : Folding) (char : Char) : Folding :=
  let size := (String.utf8EncodeChar char).length
  if f.budget < f.used + size then ⟨f.segments ++ [f.current], [char], size, ICS_MAX_OCTETS - 1⟩
  else ⟨f.segments, f.current ++ [char], f.used + size, f.budget⟩

def segmentsOf (line : Text) : List Text :=
  let f := line.foldl Folding.push ⟨[], [], 0, ICS_MAX_OCTETS⟩
  f.segments ++ [f.current]

def fold (line : Text) : Text := (CRLF ++ [' ']).intercalate (segmentsOf line)

/-- The content lines of `build_ics`; an address that is empty is left out. -/
def contentLines (uid dtstamp dtstart dtend appointmentTypeName boutiqueName : Text) (address : Option Text) : List Text :=
  ["BEGIN:VCALENDAR".toList, "VERSION:2.0".toList, "PRODID:-//MODRYN//Boutique//HE".toList, "CALSCALE:GREGORIAN".toList,
    "METHOD:PUBLISH".toList, "BEGIN:VEVENT".toList, "UID:".toList ++ uid, "DTSTAMP:".toList ++ dtstamp,
    "DTSTART:".toList ++ dtstart, "DTEND:".toList ++ dtend,
    "SUMMARY:".toList ++ escape (appointmentTypeName ++ " — ".toList ++ boutiqueName)] ++
  (match address with
    | none => []
    | some value => if value = [] then [] else ["LOCATION:".toList ++ escape value]) ++
  ["STATUS:CONFIRMED".toList, "END:VEVENT".toList, "END:VCALENDAR".toList]

def fileOf (lines : List Text) : Text := CRLF.intercalate (lines.map fold) ++ CRLF

/-! ## What a reader does -/

def unfold : Text → Text
  | [] => []
  | [a] => [a]
  | [a, b] => [a, b]
  | a :: b :: c :: cs => if a = '\r' ∧ b = '\n' ∧ c = ' ' then unfold cs else a :: unfold (b :: c :: cs)

def linesOf {α : Type} [DecidableEq α] (cr lf : α) : List α → List (List α)
  | [] => [[]]
  | [a] => [[a]]
  | a :: b :: cs =>
    if a = cr ∧ b = lf then [] :: linesOf cr lf cs else (linesOf cr lf (b :: cs)).modifyHead (a :: ·)

def encode (value : Text) : List UInt8 := value.flatMap String.utf8EncodeChar

def physicalLines (value : Text) : List (List UInt8) := linesOf 13 10 (encode value)

/-- TEXT decoding, RFC 5545 §3.3.11; a bare separator or line break, and any other escape, is malformed. -/
def decode : Text → Option Text
  | [] => some []
  | [c] => if c = '\\' ∨ c = ';' ∨ c = ',' ∨ c = '\r' ∨ c = '\n' then none else some [c]
  | c :: d :: cs =>
    if c = '\\' then
      if d = 'n' ∨ d = 'N' then (decode cs).map ('\n' :: ·)
      else if d = '\\' ∨ d = ';' ∨ d = ',' then (decode cs).map (d :: ·)
      else none
    else if c = ';' ∨ c = ',' ∨ c = '\r' ∨ c = '\n' then none
    else (decode (d :: cs)).map (c :: ·)

/-! ## Line breaks -/

section Lines

variable {α : Type} [DecidableEq α] {cr lf : α}

theorem linesOf_ne_nil (xs : List α) : linesOf cr lf xs ≠ [] := by
  fun_induction linesOf cr lf xs with
  | case1 => nofun
  | case2 a => nofun
  | case3 a b cs h ih => nofun
  | case4 a b cs h ih =>
    cases hl : linesOf cr lf (b :: cs) with
    | nil => exact absurd hl ih
    | cons l ls => nofun

theorem linesOf_cons_of_ne {a : α} (h : a ≠ cr) (xs : List α) :
    linesOf cr lf (a :: xs) = (linesOf cr lf xs).modifyHead (a :: ·) := by
  cases xs with
  | nil => rfl
  | cons b cs => rw [linesOf, if_neg fun hab => h hab.1]

theorem linesOf_append {xs : List α} (h : cr ∉ xs) (ys : List α) :
    linesOf cr lf (xs ++ ys) = (linesOf cr lf ys).modifyHead (xs ++ ·) := by
  induction xs with
  | nil =>
    cases hl : linesOf cr lf ys with
    | nil => exact absurd hl (linesOf_ne_nil ys)
    | cons l ls => simp [hl]
  | cons x xs ih =>
    rw [List.mem_cons, not_or] at h
    rw [List.cons_append, linesOf_cons_of_ne (Ne.symm h.1), ih h.2]
    cases hl : linesOf cr lf ys with
    | nil => exact absurd hl (linesOf_ne_nil ys)
    | cons l ls => rfl

theorem linesOf_break (hne : cr ≠ lf) (xs ys : List α) :
    linesOf cr lf (xs ++ cr :: lf :: ys) = linesOf cr lf xs ++ linesOf cr lf ys := by
  fun_induction linesOf cr lf xs with
  | case1 => rw [List.nil_append, linesOf, if_pos ⟨rfl, rfl⟩]; rfl
  | case2 a =>
    rw [List.singleton_append, linesOf, if_neg fun h => hne h.2, linesOf, if_pos ⟨rfl, rfl⟩]
    rfl
  | case3 a b cs h ih => rw [List.cons_append, List.cons_append, linesOf, if_pos h, ih]; rfl
  | case4 a b cs h ih =>
    rw [List.cons_append, List.cons_append, linesOf, if_neg h, ← List.cons_append, ih]
    cases hl : linesOf cr lf (b :: cs) with
    | nil => exact absurd hl (linesOf_ne_nil _)
    | cons l ls => rfl

theorem sublist_of_mem_linesOf {xs l : List α} (h : l ∈ linesOf cr lf xs) : l.Sublist xs := by
  fun_induction linesOf cr lf xs generalizing l with
  | case1 => exact List.mem_singleton.1 h ▸ .slnil
  | case2 a => exact List.mem_singleton.1 h ▸ .refl _
  | case3 a b cs hab ih =>
    rcases List.mem_cons.1 h with rfl | h
    · exact List.nil_sublist _
    · exact ((ih h).cons b).cons a
  | case4 a b cs hab ih =>
    cases hl : linesOf cr lf (b :: cs) with
    | nil => exact absurd hl (linesOf_ne_nil _)
    | cons first rest =>
      rw [hl, List.modifyHead_cons] at h
      rcases List.mem_cons.1 h with rfl | h
      · exact (ih (hl ▸ List.mem_cons_self)).cons_cons a
      · exact (ih (hl ▸ List.mem_cons_of_mem _ h)).cons a

end Lines

/-! ## Octets -/

variable {c : Char} {line value : Text}

theorem octet_cases {b : UInt8} (h : b ∈ String.utf8EncodeChar c) :
    (c.val.toNat ≤ 127 ∧ b = UInt8.ofNat c.val.toNat) ∨ 128 ≤ b.toNat := by
  unfold String.utf8EncodeChar at h
  simp only at h
  split at h
  · exact .inl ⟨‹_›, List.mem_singleton.1 h⟩
  · refine .inr ?_
    have hbyte : ∀ n : Nat, 128 ≤ n → n < 256 → 128 ≤ (UInt8.ofNat n).toNat := by
      intro n hn hlt
      rw [UInt8.toNat_ofNat', Nat.mod_eq_of_lt hlt]
      exact hn
    split at h
    · simp only [List.mem_cons, List.not_mem_nil, or_false] at h
      rcases h with rfl | rfl <;> exact hbyte _ (by omega) (by omega)
    · split at h
      · simp only [List.mem_cons, List.not_mem_nil, or_false] at h
        rcases h with rfl | rfl | rfl <;> exact hbyte _ (by omega) (by omega)
      · simp only [List.mem_cons, List.not_mem_nil, or_false] at h
        rcases h with rfl | rfl | rfl | rfl <;> exact hbyte _ (by omega) (by omega)

theorem eq_of_octet {d : Char} (hd : d.val.toNat ≤ 127) (h : UInt8.ofNat d.val.toNat ∈ String.utf8EncodeChar c) :
    c = d := by
  have hd' : (UInt8.ofNat d.val.toNat).toNat = d.val.toNat := by
    rw [UInt8.toNat_ofNat', Nat.mod_eq_of_lt (by omega)]
  rcases octet_cases h with ⟨hc, heq⟩ | hlarge
  · have hc' : (UInt8.ofNat c.val.toNat).toNat = c.val.toNat := by
      rw [UInt8.toNat_ofNat', Nat.mod_eq_of_lt (by omega)]
    have hval : c.val.toNat = d.val.toNat := by rw [← hc', ← hd', heq]
    exact Char.ext (UInt32.toNat_inj.1 hval)
  · omega

theorem encode_cons (c : Char) (cs : Text) : encode (c :: cs) = String.utf8EncodeChar c ++ encode cs := List.flatMap_cons

theorem linesOf_encode (value : Text) : linesOf 13 10 (encode value) = (linesOf '\r' '\n' value).map encode := by
  have hcr : String.utf8EncodeChar '\r' = [13] := by decide
  have hlf : String.utf8EncodeChar '\n' = [10] := by decide
  -- a character other than a carriage return goes to the head of its line
  have hother : ∀ (a : Char) (cs : Text), a ≠ '\r' → linesOf 13 10 (encode cs) = (linesOf '\r' '\n' cs).map encode →
      linesOf 13 10 (encode (a :: cs)) = (linesOf '\r' '\n' (a :: cs)).map encode := by
    intro a cs ha ih
    have hno : (13 : UInt8) ∉ String.utf8EncodeChar a := fun h => ha (eq_of_octet (d := '\r') (by decide) h)
    rw [encode_cons, linesOf_append hno, ih, linesOf_cons_of_ne ha]
    cases linesOf '\r' '\n' cs with
    | nil => rfl
    | cons l ls => rfl
  fun_induction linesOf '\r' '\n' value with
  | case1 => rfl
  | case2 a =>
    by_cases ha : a = '\r'
    · subst ha
      rw [encode_cons, hcr]
      rfl
    · exact hother a [] ha rfl
  | case3 a b cs h ih =>
    obtain ⟨rfl, rfl⟩ := h
    rw [encode_cons, encode_cons, hcr, hlf]
    show linesOf 13 10 (13 :: 10 :: encode cs) = _
    rw [linesOf, if_pos ⟨rfl, rfl⟩, ih]
    rfl
  | case4 a b cs h ih =>
    by_cases ha : a = '\r'
    · subst ha
      have hb : b ≠ '\n' := fun hb => h ⟨rfl, hb⟩
      have hno : (10 : UInt8) ∉ String.utf8EncodeChar b := fun h => hb (eq_of_octet (d := '\n') (by decide) h)
      obtain ⟨x, xs, hx⟩ := List.exists_cons_of_ne_nil (String.utf8EncodeChar_ne_nil (c := b))
      have hx10 : x ≠ 10 := fun heq => hno (by rw [hx, heq]; exact List.mem_cons_self)
      have hbody : encode (b :: cs) = x :: (xs ++ encode cs) := by rw [encode_cons, hx]; rfl
      rw [encode_cons, hcr, List.singleton_append, hbody, linesOf, if_neg fun h => hx10 h.2, ← hbody, ih]
      cases linesOf '\r' '\n' (b :: cs) with
      | nil => rfl
      | cons l ls => simp [encode_cons, hcr]
    · have := hother a (b :: cs) ha ih
      rw [linesOf, if_neg h] at this
      exact this

/-! ## Folding -/

def octets (value : Text) : Nat := (encode value).length

theorem octets_append (a b : Text) : octets (a ++ b) = octets a + octets b := by
  simp [octets, encode]

theorem octets_singleton (c : Char) : octets [c] = (String.utf8EncodeChar c).length := by
  simp [octets, encode]

theorem octets_singleton_le (c : Char) : octets [c] ≤ 4 := by
  rw [octets_singleton, String.length_utf8EncodeChar]
  exact Char.utf8Size_le_four c

theorem octets_sublist {a b : Text} (h : a.Sublist b) : octets a ≤ octets b :=
  (h.flatMap String.utf8EncodeChar).length_le

/-- **What the folding has of a line so far.** -/
structure Folding.Sound (f : Folding) (line : Text) : Prop where
  joined : (f.segments ++ [f.current]).flatten = line
  used : f.used = octets f.current
  fits : f.used ≤ f.budget
  budget : f.budget = if f.segments = [] then 75 else 74
  first : ∀ segment ∈ f.segments, octets segment ≤ 75
  rest : ∀ segment ∈ f.segments.tail, octets segment ≤ 74

theorem Folding.Sound.push {f : Folding} (h : f.Sound line) (c : Char) : (f.push c).Sound (line ++ [c]) := by
  have hsize : (String.utf8EncodeChar c).length ≤ 4 := by
    rw [← octets_singleton]
    exact octets_singleton_le c
  have hjoined := h.joined
  have hfits := h.fits
  have hbudget : f.budget ≤ 75 := by
    rw [h.budget]
    split <;> omega
  unfold Folding.push
  simp only
  split
  · refine ⟨?_, (octets_singleton c).symm, by simp only [ICS_MAX_OCTETS]; omega, by simp [ICS_MAX_OCTETS], ?_, ?_⟩
    · rw [← hjoined]
      simp
    · intro segment hsegment
      rcases List.mem_append.1 hsegment with hold | hnew
      · exact h.first segment hold
      · rw [List.mem_singleton.1 hnew, ← h.used]
        omega
    · intro segment hsegment
      cases hs : f.segments with
      | nil => simp [hs] at hsegment
      | cons s ss =>
        simp only [hs, List.cons_append, List.tail_cons] at hsegment
        rcases List.mem_append.1 hsegment with hold | hnew
        · exact h.rest segment (by rw [hs]; exact hold)
        · have h74 : f.budget = 74 := by rw [h.budget, hs]; rfl
          rw [List.mem_singleton.1 hnew, ← h.used]
          omega
  · refine ⟨?_, ?_, by simp only; omega, h.budget, h.first, h.rest⟩
    · rw [← hjoined]
      simp
    · rw [octets_append, octets_singleton, h.used]

theorem foldl_push_sound (line : Text) (f : Folding) (done : Text) (h : f.Sound done) :
    (line.foldl Folding.push f).Sound (done ++ line) := by
  induction line generalizing f done with
  | nil => simpa using h
  | cons c line ih => simpa using ih _ _ (h.push c)

/-- **The segments of a line**: put together they are the line, and each fits with the space before it. -/
theorem segmentsOf_spec (line : Text) : (segmentsOf line).flatten = line ∧ segmentsOf line ≠ [] ∧
    (∀ segment ∈ segmentsOf line, octets segment ≤ 75) ∧ ∀ segment ∈ (segmentsOf line).tail, octets segment ≤ 74 := by
  have h := foldl_push_sound line ⟨[], [], 0, ICS_MAX_OCTETS⟩ [] ⟨rfl, rfl, by decide, rfl, nofun, nofun⟩
  rw [List.nil_append] at h
  unfold segmentsOf
  generalize line.foldl Folding.push _ = f at h
  have hbudget := h.budget
  have hfits := h.fits
  have hcurrent : octets f.current ≤ f.budget := h.used ▸ hfits
  refine ⟨h.joined, by simp, fun segment hsegment => ?_, fun segment hsegment => ?_⟩
  · rcases List.mem_append.1 hsegment with hold | hnew
    · exact h.first segment hold
    · rw [List.mem_singleton.1 hnew]
      split at hbudget <;> omega
  · cases hs : f.segments with
    | nil => simp [hs] at hsegment
    | cons s ss =>
      simp only [hs, List.cons_append, List.tail_cons] at hsegment
      rcases List.mem_append.1 hsegment with hold | hnew
      · exact h.rest segment (by rw [hs]; exact hold)
      · have h74 : f.budget = 74 := by rw [hbudget, hs]; rfl
        rw [List.mem_singleton.1 hnew]
        omega

def foldMark : Text := ['\r', '\n', ' ']

theorem unfold_mark (rest : Text) : unfold ('\r' :: '\n' :: ' ' :: rest) = unfold rest := by
  rw [unfold, if_pos ⟨rfl, rfl, rfl⟩]

theorem unfold_cons {a : Char} {rest : Text} (h : ¬foldMark <+: a :: rest) : unfold (a :: rest) = a :: unfold rest := by
  rcases rest with _ | ⟨b, _ | ⟨c, cs⟩⟩
  · rfl
  · rfl
  · rw [unfold, if_neg]
    rintro ⟨rfl, rfl, rfl⟩
    exact h ⟨cs, rfl⟩

theorem unfold_append {before : Text} (h : ¬foldMark <:+: before) (rest : Text) :
    unfold (before ++ foldMark ++ rest) = before ++ unfold rest := by
  induction before with
  | nil => exact unfold_mark rest
  | cons a before ih =>
    have hbefore : ¬foldMark <:+: before := fun hin => h (hin.trans (List.suffix_cons a before).isInfix)
    rw [List.cons_append, List.cons_append, unfold_cons, ih hbefore]
    · rfl
    · -- a mark that began at `a` would lie in what is before the mark, or overlap it
      rintro ⟨cs, hcs⟩
      rcases before with _ | ⟨b, _ | ⟨c, before'⟩⟩
      · simp [foldMark] at hcs
      · simp [foldMark] at hcs
      · simp only [foldMark, List.cons_append, List.nil_append, List.cons.injEq] at hcs
        obtain ⟨rfl, rfl, rfl, -⟩ := hcs
        exact h ⟨[], before', rfl⟩

theorem unfold_of_unmarked (h : ¬foldMark <:+: value) : unfold value = value := by
  induction value with
  | nil => rfl
  | cons a value ih =>
    rw [unfold_cons fun hp => h hp.isInfix, ih fun hin => h (hin.trans (List.suffix_cons a value).isInfix)]

theorem unfold_join {segments : List Text} (h : ∀ segment ∈ segments, ¬foldMark <:+: segment) :
    unfold (foldMark.intercalate segments) = segments.flatten := by
  induction segments with
  | nil => rfl
  | cons s segments ih =>
    have hrest : ∀ segment ∈ segments, ¬foldMark <:+: segment := fun x hx => h x (List.mem_cons_of_mem _ hx)
    cases segments with
    | nil => simpa using unfold_of_unmarked (h s List.mem_cons_self)
    | cons s' segments =>
      rw [List.intercalate_cons_cons, unfold_append (h s List.mem_cons_self), ih hrest]
      rfl

/-- **Unfolding undoes folding**, where no line break followed by a space is in the line already. -/
theorem unfold_fold (h : ¬foldMark <:+: line) : unfold (fold line) = line := by
  obtain ⟨hflat, -, -, -⟩ := segmentsOf_spec line
  show unfold (foldMark.intercalate (segmentsOf line)) = line
  rw [unfold_join, hflat]
  intro segment hsegment hin
  obtain ⟨before, after_, heq⟩ := List.append_of_mem hsegment
  refine h (hin.trans ⟨before.flatten, after_.flatten, ?_⟩)
  rw [← hflat, heq]
  simp

theorem octets_space (segment : Text) : octets (' ' :: segment) = octets segment + 1 := by
  rw [octets, encode_cons, List.length_append, Nat.add_comm]
  rfl

theorem octets_linesOf_join {segments : List Text} : ∀ {first : Text}, octets first ≤ 75 →
    (∀ segment ∈ segments, octets segment ≤ 74) →
    ∀ l ∈ linesOf '\r' '\n' (foldMark.intercalate (first :: segments)), octets l ≤ 75 := by
  induction segments with
  | nil =>
    intro first hfirst _ l hl
    rw [List.intercalate_singleton] at hl
    exact (octets_sublist (sublist_of_mem_linesOf hl)).trans hfirst
  | cons segment segments ih =>
    intro first hfirst hrest l hl
    have hsplit : foldMark.intercalate (first :: segment :: segments) =
        first ++ '\r' :: '\n' :: foldMark.intercalate ((' ' :: segment) :: segments) := by
      rw [List.intercalate_cons_cons, List.intercalate_cons_cons_left]
      simp [foldMark]
    rw [hsplit, linesOf_break (by decide), List.mem_append] at hl
    rcases hl with hl | hl
    · exact (octets_sublist (sublist_of_mem_linesOf hl)).trans hfirst
    · have hsegment := hrest segment List.mem_cons_self
      exact ih (by rw [octets_space]; omega) (fun s hs => hrest s (List.mem_cons_of_mem _ hs)) l hl

theorem physicalLines_fold {p : List UInt8} (h : p ∈ physicalLines (fold line)) :
    p.length ≤ ICS_MAX_OCTETS ∧ ∃ value, p = encode value := by
  unfold physicalLines at h
  rw [linesOf_encode, List.mem_map] at h
  obtain ⟨l, hl, rfl⟩ := h
  obtain ⟨-, hne, hfirst, hrest⟩ := segmentsOf_spec line
  obtain ⟨first, segments, hsegments⟩ := List.exists_cons_of_ne_nil hne
  have hl' : l ∈ linesOf '\r' '\n' (foldMark.intercalate (first :: segments)) := hsegments ▸ hl
  refine ⟨octets_linesOf_join (hfirst first ?_) (fun s hs => hrest s ?_) l hl', l, rfl⟩
  · rw [hsegments]
    exact List.mem_cons_self
  · rw [hsegments]
    exact hs

/-! ## Escaping -/

def escapeChar (c : Char) : Text :=
  if c = '\\' then ['\\', '\\'] else if c = ';' then ['\\', ';'] else if c = ',' then ['\\', ',']
  else if c = '\n' then ['\\', 'n'] else if c = '\r' then [] else [c]

theorem escape_eq (value : Text) : escape value = value.flatMap escapeChar := by
  unfold escape replace
  rw [List.flatMap_assoc, List.flatMap_assoc, List.flatMap_assoc, List.flatMap_assoc]
  refine congrArg (fun f => value.flatMap f) (funext fun c => ?_)
  by_cases hbackslash : c = '\\'
  · subst hbackslash
    rfl
  by_cases hsemicolon : c = ';'
  · subst hsemicolon
    rfl
  by_cases hcomma : c = ','
  · subst hcomma
    rfl
  by_cases hlf : c = '\n'
  · subst hlf
    rfl
  simp [escapeChar, hbackslash, hsemicolon, hcomma, hlf]

def withoutReturns (value : Text) : Text := value.filter fun c => c ≠ '\r'

def normalised : Text → Text
  | [] => []
  | [c] => [if c = '\r' then '\n' else c]
  | c :: d :: cs =>
    if c = '\r' then if d = '\n' then '\n' :: normalised cs else '\n' :: normalised (d :: cs)
    else c :: normalised (d :: cs)

theorem decode_plain {cs : Text} (h : ¬(c = '\\' ∨ c = ';' ∨ c = ',' ∨ c = '\r' ∨ c = '\n'))
    (hcs : decode cs = some value) : decode (c :: cs) = some (c :: value) := by
  cases cs with
  | nil =>
    cases hcs
    rw [decode, if_neg h]
  | cons d cs =>
    rw [not_or] at h
    rw [decode, if_neg h.1, if_neg h.2, hcs]
    rfl

theorem decode_escape (value : Text) : decode (escape value) = some (withoutReturns value) := by
  rw [escape_eq]
  induction value with
  | nil => rfl
  | cons c value ih =>
    rw [List.flatMap_cons]
    by_cases hbackslash : c = '\\'
    · subst hbackslash
      show decode ('\\' :: '\\' :: _) = _
      simp [decode, ih, withoutReturns]
    by_cases hsemicolon : c = ';'
    · subst hsemicolon
      show decode ('\\' :: ';' :: _) = _
      simp [decode, ih, withoutReturns]
    by_cases hcomma : c = ','
    · subst hcomma
      show decode ('\\' :: ',' :: _) = _
      simp [decode, ih, withoutReturns]
    by_cases hlf : c = '\n'
    · subst hlf
      show decode ('\\' :: 'n' :: _) = _
      simp [decode, ih, withoutReturns]
    by_cases hcr : c = '\r'
    · subst hcr
      show decode ([] ++ _) = _
      simp [ih, withoutReturns]
    have hchar : escapeChar c = [c] := by simp [escapeChar, hbackslash, hsemicolon, hcomma, hlf, hcr]
    have hkeep : withoutReturns (c :: value) = c :: withoutReturns value := by simp [withoutReturns, hcr]
    rw [hchar, hkeep, List.singleton_append]
    exact decode_plain (by simp [hbackslash, hsemicolon, hcomma, hlf, hcr]) ih

theorem escape_unbroken (value : Text) : '\r' ∉ escape value ∧ '\n' ∉ escape value := by
  rw [escape_eq]
  simp only [List.mem_flatMap, not_exists, not_and]
  refine ⟨fun c _ => ?_, fun c _ => ?_⟩
  all_goals
    unfold escapeChar
    repeat' split
    all_goals simp_all [eq_comm]

theorem withoutReturns_eq (h : ∀ before rest, value = before ++ '\r' :: rest → rest.head? = some '\n') :
    withoutReturns value = normalised value := by
  fun_induction normalised value with
  | case1 => rfl
  | case2 c =>
    have hc : c ≠ '\r' := by
      rintro rfl
      simpa using h [] [] rfl
    simp [withoutReturns, hc]
  | case3 cs ih =>
    have hrest : ∀ before rest, cs = before ++ '\r' :: rest → rest.head? = some '\n' := fun before rest heq =>
      h ('\r' :: '\n' :: before) rest (by rw [heq]; rfl)
    rw [← ih hrest]
    simp [withoutReturns]
  | case4 d cs hd ih =>
    have hhead := h [] (d :: cs) rfl
    exact absurd (Option.some.inj hhead) hd
  | case5 c d cs hc ih =>
    have hrest : ∀ before rest, d :: cs = before ++ '\r' :: rest → rest.head? = some '\n' := fun before rest heq =>
      h (c :: before) rest (by rw [heq]; rfl)
    rw [← ih hrest]
    simp [withoutReturns, hc]

/-! ## The file -/

theorem unfold_plain (h : '\r' ∉ value) (rest : Text) : unfold (value ++ rest) = value ++ unfold rest := by
  induction value with
  | nil => rfl
  | cons a value ih =>
    rw [List.mem_cons, not_or] at h
    rw [List.cons_append, unfold_cons, ih h.2]
    · rfl
    · rintro ⟨cs, hcs⟩
      simp only [foldMark, List.cons_append, List.cons.injEq] at hcs
      exact h.1 hcs.1

theorem unfold_fold_append (h : '\r' ∉ line) (rest : Text) : unfold (fold line ++ rest) = line ++ unfold rest := by
  have hjoin : ∀ segments : List Text, (∀ segment ∈ segments, '\r' ∉ segment) →
      unfold (foldMark.intercalate segments ++ rest) = segments.flatten ++ unfold rest := by
    intro segments
    induction segments with
    | nil => exact fun _ => rfl
    | cons s segments ih =>
      intro hsegments
      have hs := hsegments s List.mem_cons_self
      have hrest : ∀ segment ∈ segments, '\r' ∉ segment := fun x hx => hsegments x (List.mem_cons_of_mem _ hx)
      cases segments with
      | nil =>
        rw [List.intercalate_singleton, unfold_plain hs]
        simp
      | cons s' segments =>
        rw [List.intercalate_cons_cons, List.append_assoc, List.append_assoc, unfold_plain hs]
        show s ++ unfold ('\r' :: '\n' :: ' ' :: (foldMark.intercalate (s' :: segments) ++ rest)) = _
        rw [unfold_mark, ih hrest]
        simp
  obtain ⟨hflat, -, -, -⟩ := segmentsOf_spec line
  have h' := hjoin (segmentsOf line) fun segment hsegment hin =>
    h (hflat ▸ List.mem_flatten.2 ⟨segment, hsegment, hin⟩)
  rw [hflat] at h'
  exact h'

def PropertyLine (line : Text) : Prop := '\r' ∉ line ∧ ∃ c rest, line = c :: rest ∧ c ≠ ' '

theorem fold_head (h : PropertyLine line) : (fold line).head? ≠ some ' ' := by
  obtain ⟨-, c, rest, rfl, hc⟩ := h
  obtain ⟨hflat, hne, -, -⟩ := segmentsOf_spec (c :: rest)
  show (foldMark.intercalate (segmentsOf (c :: rest))).head? ≠ some ' '
  cases hs : segmentsOf (c :: rest) with
  | nil => exact absurd hs hne
  | cons first segments =>
    rw [hs] at hflat
    cases first with
    | cons x xs =>
      obtain rfl : x = c := (List.cons.inj hflat).1
      rw [List.intercalate_cons_cons_left, List.head?_cons]
      exact fun heq => hc (Option.some.inj heq)
    | nil =>
      cases segments with
      | nil => cases hflat
      | cons s' segments =>
        rw [List.intercalate_cons_cons]
        simp [foldMark]

theorem unfold_break {rest : Text} (h : rest.head? ≠ some ' ') :
    unfold ('\r' :: '\n' :: rest) = '\r' :: '\n' :: unfold rest := by
  have hfirst : ¬foldMark <+: '\r' :: '\n' :: rest := by
    rintro ⟨cs, hcs⟩
    simp only [foldMark, List.cons_append, List.cons.injEq, true_and] at hcs
    exact h (by rw [← hcs]; rfl)
  have hsecond : ¬foldMark <+: '\n' :: rest := by
    rintro ⟨cs, hcs⟩
    simp [foldMark] at hcs
  rw [unfold_cons hfirst, unfold_cons hsecond]

theorem linesOf_plain (h : '\r' ∉ line) : linesOf '\r' '\n' line = [line] := by
  have h' : linesOf '\r' '\n' (line ++ []) = (linesOf '\r' '\n' []).modifyHead (line ++ ·) := linesOf_append h []
  rw [List.append_nil] at h'
  rw [h']
  simp [linesOf]

theorem fileOf_cons (line line' : Text) (lines : List Text) :
    fileOf (line :: line' :: lines) = fold line ++ '\r' :: '\n' :: fileOf (line' :: lines) := by
  unfold fileOf
  rw [List.map_cons, List.map_cons, List.intercalate_cons_cons]
  simp [CRLF]

theorem fileOf_head {lines : List Text} (h : PropertyLine line) : (fileOf (line :: lines)).head? ≠ some ' ' := by
  have hhead := fold_head h
  have hfile : ∃ rest, fileOf (line :: lines) = fold line ++ '\r' :: rest := by
    cases lines with
    | nil => exact ⟨['\n'], by simp [fileOf, CRLF]⟩
    | cons line' lines => exact ⟨_, fileOf_cons line line' lines⟩
  obtain ⟨rest, hrest⟩ := hfile
  rw [hrest]
  cases hf : fold line with
  | nil => simp
  | cons x xs =>
    rw [hf] at hhead
    exact hhead

theorem linesOf_file {lines : List Text} (hne : lines ≠ []) (h : ∀ line ∈ lines, PropertyLine line) :
    linesOf '\r' '\n' (unfold (fileOf lines)) = lines ++ [[]] := by
  induction lines with
  | nil => exact absurd rfl hne
  | cons line lines ih =>
    have hline := h line List.mem_cons_self
    cases lines with
    | nil =>
      have hfile : fileOf [line] = fold line ++ CRLF := by simp [fileOf]
      rw [hfile, unfold_fold_append hline.1]
      show linesOf '\r' '\n' (line ++ '\r' :: '\n' :: []) = _
      rw [linesOf_break (by decide), linesOf_plain hline.1]
      rfl
    | cons line' lines =>
      have hrest : ∀ l ∈ line' :: lines, PropertyLine l := fun l hl => h l (List.mem_cons_of_mem _ hl)
      rw [fileOf_cons, unfold_fold_append hline.1, unfold_break (fileOf_head (hrest line' List.mem_cons_self)),
        linesOf_break (by decide), linesOf_plain hline.1, ih (List.cons_ne_nil _ _) hrest]
      rfl

theorem propertyLine_append (c : Char) (name : Text) (hc : c ≠ ' ') (hname : '\r' ∉ c :: name) (hvalue : '\r' ∉ value) :
    PropertyLine (c :: name ++ value) := by
  refine ⟨fun h => ?_, c, name ++ value, rfl, hc⟩
  rcases List.mem_append.1 h with h | h
  · exact hname h
  · exact hvalue h

/-- **No field adds a line**: whatever the names and the address are, each line of the file is a property line. -/
theorem contentLines_property {uid dtstamp dtstart dtend appointmentTypeName boutiqueName : Text} {address : Option Text}
    (huid : '\r' ∉ uid) (hstamp : '\r' ∉ dtstamp) (hstart : '\r' ∉ dtstart) (hend : '\r' ∉ dtend) :
    ∀ line ∈ contentLines uid dtstamp dtstart dtend appointmentTypeName boutiqueName address, PropertyLine line := by
  have hplain : ∀ (c : Char) (name : Text), c ≠ ' ' → '\r' ∉ c :: name → PropertyLine (c :: name) := fun c name hc hname =>
    ⟨hname, c, name, rfl, hc⟩
  have hsummary := (escape_unbroken (appointmentTypeName ++ " — ".toList ++ boutiqueName)).1
  intro line hline
  unfold contentLines at hline
  simp only [List.mem_append, List.mem_cons, List.not_mem_nil, or_false] at hline
  rcases hline with (hline | hline) | hline
  · rcases hline with rfl | rfl | rfl | rfl | rfl | rfl | rfl | rfl | rfl | rfl | rfl
    · exact hplain 'B' _ (by decide) (by decide)
    · exact hplain 'V' _ (by decide) (by decide)
    · exact hplain 'P' _ (by decide) (by decide)
    · exact hplain 'C' _ (by decide) (by decide)
    · exact hplain 'M' _ (by decide) (by decide)
    · exact hplain 'B' _ (by decide) (by decide)
    · exact propertyLine_append 'U' "ID:".toList (by decide) (by decide) huid
    · exact propertyLine_append 'D' "TSTAMP:".toList (by decide) (by decide) hstamp
    · exact propertyLine_append 'D' "TSTART:".toList (by decide) (by decide) hstart
    · exact propertyLine_append 'D' "TEND:".toList (by decide) (by decide) hend
    · exact propertyLine_append 'S' "UMMARY:".toList (by decide) (by decide) hsummary
  · cases address with
    | none => cases hline
    | some value =>
      simp only at hline
      split at hline
      · cases hline
      · rw [List.mem_singleton.1 hline]
        exact propertyLine_append 'L' "OCATION:".toList (by decide) (by decide) (escape_unbroken value).1
  · rcases hline with rfl | rfl | rfl
    · exact hplain 'S' _ (by decide) (by decide)
    · exact hplain 'E' _ (by decide) (by decide)
    · exact hplain 'E' _ (by decide) (by decide)

/-- **Folding and escaping lose nothing but carriage returns.** -/
theorem calendar_lossless :
    (∀ line : Text, ¬foldMark <:+: line → unfold (fold line) = line) ∧
    (∀ line : Text, ∀ p ∈ physicalLines (fold line), p.length ≤ 75 ∧ ∃ value, p = encode value) ∧
    (∀ value : Text, decode (escape value) = some (withoutReturns value) ∧
      ((∀ before rest, value = before ++ '\r' :: rest → rest.head? = some '\n') →
        decode (escape value) = some (normalised value))) ∧
    (∀ value value' : Text, escape value = escape value' → withoutReturns value = withoutReturns value') ∧
    (∀ value : Text, '\r' ∉ escape value ∧ '\n' ∉ escape value) ∧
    ∀ (uid dtstamp dtstart dtend appointmentTypeName boutiqueName : Text) (address : Option Text),
      '\r' ∉ uid → '\r' ∉ dtstamp → '\r' ∉ dtstart → '\r' ∉ dtend →
      let lines := contentLines uid dtstamp dtstart dtend appointmentTypeName boutiqueName address
      linesOf '\r' '\n' (unfold (fileOf lines)) = lines ++ [[]] := by
  refine ⟨fun _ => unfold_fold, fun _ _ => physicalLines_fold, fun value => ⟨decode_escape value, fun h => ?_⟩,
    fun value value' h => ?_, escape_unbroken, ?_⟩
  · rw [decode_escape, withoutReturns_eq h]
  · have hdecode := congrArg decode h
    rw [decode_escape, decode_escape] at hdecode
    exact Option.some.inj hdecode
  · intro uid dtstamp dtstart dtend appointmentTypeName boutiqueName address huid hstamp hstart hend
    exact linesOf_file (List.cons_ne_nil _ _) (contentLines_property huid hstamp hstart hend)

/-- **What is lost**: a line with a break and a space in it unfolds to less, and a carriage return alone is dropped, so that
two texts come out alike. -/
theorem returns_lost :
    unfold (fold ['a', '\r', '\n', ' ', 'b']) = ['a', 'b'] ∧ (¬∀ line : Text, unfold (fold line) = line) ∧
    escape ['a', '\r', 'b'] = escape ['a', 'b'] ∧ normalised ['a', '\r', 'b'] = ['a', '\n', 'b'] ∧
    ¬∀ value : Text, decode (escape value) = some (normalised value) := by
  refine ⟨by decide, fun h => ?_, by decide, by decide, fun h => ?_⟩
  · exact absurd (h ['a', '\r', '\n', ' ', 'b']) (by decide)
  · exact absurd (h ['a', '\r', 'b']) (by decide)

end Ics

import Mathlib.Data.List.Forall2
import Mathlib.Data.List.Infix
/-!
# Scrub — what a provider's error leaves in the log

A provider may quote the failing request, in whole or in part.  The error of a failed SMS is cut to its first two hundred
characters and then every whole copy of the wire body is replaced by what the log was given; a piece of the body, and a copy
the cut went through, stays as it is.
-/
namespace Boutique

abbrev Text : Type := List Char

/-- `str.replace` of a nonempty string, the next `skip` characters already consumed by a match. -/
def replaceFrom (old new : Text) : Nat → Text → Text
  | _, [] => []
  | skip + 1, _ :: cs => replaceFrom old new skip cs
  | 0, c :: cs => if old <+: c :: cs then new ++ replaceFrom old new (old.length - 1) cs else c :: replaceFrom old new 0 cs

/-- From the left, without overlaps; an empty string is found between any two characters. -/
def replace (text old new : Text) : Text :=
  if old = [] then new ++ text.flatMap fun c => c :: new else replaceFrom old new 0 text

def MAX_PROVIDER_ERROR_LENGTH : Nat := 200
def MAX_VALIDATION_ERROR_LENGTH : Nat := 200
def SECRET_MASK : Text := "[redacted]".toList
def OTP_CODE_LENGTH : Nat := 6
def MASK_CHAR : Char := '●'
def MASKED_TOKEN : Text := List.replicate 3 MASK_CHAR

def excDetail (typeName text : Text) : Text := typeName ++ ": ".toList ++ text

def otpSmsBody (code : Text) : Text := "קוד האימות שלך: ".toList ++ code

/-- What `message_log` stores of a body with a code in it. -/
def maskOtpBody (body code : Text) : Text := replace body code (List.replicate OTP_CODE_LENGTH MASK_CHAR)

/-- What it stores of a body with a manage or an offer link in it. -/
def maskManageLink (body token : Text) : Text := replace body token MASKED_TOKEN

namespace NotificationService

def scrub (typeName text body : Text) (logBody : Option Text) : Text :=
  let detail := (excDetail typeName text).take MAX_PROVIDER_ERROR_LENGTH
  match logBody with
  | none => detail
  | some log => if log ≠ body then replace detail body log else detail

end NotificationService

/-! ## Replacing -/

/-- **The text has the string at one place only.** -/
def OnlyAt (old text : Text) (n : Nat) : Prop := ∀ m, old <+: text.drop m → m = n

section Replace

variable {old new : Text}

theorem replaceFrom_cons (c : Char) (cs : Text) : replaceFrom old new 0 (c :: cs) =
    if old <+: c :: cs then new ++ replaceFrom old new (old.length - 1) cs else c :: replaceFrom old new 0 cs := rfl

theorem replaceFrom_skip : ∀ (a b : Text), replaceFrom old new a.length (a ++ b) = replaceFrom old new 0 b
  | [], b => by rw [List.nil_append, List.length_nil]
  | _ :: a, b => replaceFrom_skip a b

theorem replaceFrom_none : ∀ text : Text, (∀ m, m < text.length → ¬old <+: text.drop m) → replaceFrom old new 0 text = text
  | [], _ => rfl
  | c :: cs, h => by
    have h0 : ¬old <+: c :: cs := h 0 (Nat.succ_pos _)
    rw [replaceFrom_cons, if_neg h0, replaceFrom_none cs fun m hm => h (m + 1) (Nat.succ_lt_succ hm)]

theorem replaceFrom_prefix (b : Text) : ∀ a : Text, (∀ m, m < a.length → ¬old <+: (a ++ b).drop m) →
    replaceFrom old new 0 (a ++ b) = a ++ replaceFrom old new 0 b
  | [], _ => rfl
  | c :: cs, h => by
    have h0 : ¬old <+: c :: (cs ++ b) := h 0 (Nat.succ_pos _)
    rw [List.cons_append, replaceFrom_cons, if_neg h0, replaceFrom_prefix b cs fun m hm => h (m + 1) (Nat.succ_lt_succ hm), List.cons_append]

theorem replaceFrom_self (hold : old ≠ []) (b : Text) : replaceFrom old new 0 (old ++ b) = new ++ replaceFrom old new 0 b := by
  cases old with
  | nil => exact absurd rfl hold
  | cons c cs =>
    have hcopy : c :: cs <+: c :: (cs ++ b) := List.prefix_append (c :: cs) b
    rw [List.cons_append, replaceFrom_cons, if_pos hcopy, List.length_cons, Nat.add_sub_cancel, replaceFrom_skip]

theorem replace_once (hold : old ≠ []) {a b : Text} (h : OnlyAt old (a ++ old ++ b) a.length) :
    replace (a ++ old ++ b) old new = a ++ new ++ b := by
  have hb : ∀ m, m < b.length → ¬old <+: b.drop m := by
    intro m _ hm
    have hdrop : (a ++ old ++ b).drop (a.length + old.length + m) = b.drop m := by
      rw [← List.length_append, List.drop_append, List.drop_eq_nil_of_le (Nat.le_add_right _ _), Nat.add_sub_cancel_left,
        List.nil_append]
    have := h _ (hdrop ▸ hm)
    have hpos := List.length_pos_iff.2 hold
    omega
  have ha : ∀ m, m < a.length → ¬old <+: (a ++ (old ++ b)).drop m := by
    intro m hlt hm
    rw [← List.append_assoc] at hm
    exact absurd (h m hm) (Nat.ne_of_lt hlt)
  unfold replace
  rw [if_neg hold, List.append_assoc, replaceFrom_prefix _ a ha, replaceFrom_self hold, replaceFrom_none b hb,
    List.append_assoc]

end Replace

/-! ## What a provider says -/

/-- Words of its own, or a piece of the body it was sent. -/
inductive Part
  | words (text : Text)
  | quote (start length : Nat)

def Part.said (body : Text) : Part → Text
  | .words text => text
  | .quote start length => (body.drop start).take length

def said (parts : List Part) (body : Text) : Text := parts.flatMap (Part.said body)

/-- Where `str.replace` finds the string, the text's first character being the `n`-th. -/
def foundFrom (old : Text) : Nat → Nat → Text → List Nat
  | _, _, [] => []
  | skip + 1, n, _ :: cs => foundFrom old skip (n + 1) cs
  | 0, n, c :: cs =>
    if old <+: c :: cs then n :: foundFrom old (old.length - 1) (n + 1) cs else foundFrom old 0 (n + 1) cs

/-- **Two texts hide the difference of two strings**: whole copies stand at the same places, and beside them the texts are
the same. -/
structure Hides (old old' text text' : Text) : Prop where
  copies : foundFrom old 0 0 text = foundFrom old' 0 0 text'
  rest : ∀ p, p < text.length → (∀ m ∈ foundFrom old 0 0 text, p < m ∨ m + old.length ≤ p) → text[p]? = text'[p]?

instance (old old' text text' : Text) : Decidable (Hides old old' text text') :=
  decidable_of_iff (_ ∧ _) ⟨fun h => ⟨h.1, h.2⟩, fun h => ⟨h.copies, h.rest⟩⟩

def cutOf (typeName text : Text) : Text := (excDetail typeName text).take MAX_PROVIDER_ERROR_LENGTH

/-! ## Texts alike -/

section Alike

variable {s s' text text' : Text}

/-- The same character, or one of each secret. -/
def Alike (s s' : Text) (c c' : Char) : Prop := c = c' ∨ (c ∈ s ∧ c' ∈ s')

theorem alike_self (text : Text) : List.Forall₂ (Alike s s') text text := List.forall₂_same.2 fun _ _ => .inl rfl

theorem alike_secrets (h : s.length = s'.length) : List.Forall₂ (Alike s s') s s' :=
  List.forall₂_iff_get.2 ⟨h, fun _ _ _ => .inr ⟨List.get_mem .., List.get_mem ..⟩⟩

theorem alike_append {u u' v v' : Text} (hu : List.Forall₂ (Alike s s') u u') (hv : List.Forall₂ (Alike s s') v v') :
    List.Forall₂ (Alike s s') (u ++ v) (u' ++ v') := List.rel_append hu hv

theorem alike_said {body body' : Text} (h : List.Forall₂ (Alike s s') body body') :
    ∀ parts, List.Forall₂ (Alike s s') (said parts body) (said parts body')
  | [] => .nil
  | .words text :: parts => alike_append (alike_self text) (alike_said h parts)
  | .quote start length :: parts =>
    alike_append (List.forall₂_take length (List.forall₂_drop start h)) (alike_said h parts)

theorem alike_cut {typeName : Text} (h : List.Forall₂ (Alike s s') text text') :
    List.Forall₂ (Alike s s') (cutOf typeName text) (cutOf typeName text') :=
  List.forall₂_take _ (alike_append (alike_self _) h)

end Alike

/-! ## What a copy leaves -/

section Copies

variable {a b s s' old old' new text text' : Text} {k n : Nat}

theorem le_of_mem_foundFrom : ∀ {text : Text} {skip n m : Nat}, m ∈ foundFrom old skip n text → n ≤ m
  | [], _, _, _, h => absurd h List.not_mem_nil
  | _ :: cs, skip + 1, n, m, h => by
    have h : m ∈ foundFrom old skip (n + 1) cs := h
    exact Nat.le_of_succ_le (le_of_mem_foundFrom h)
  | c :: cs, 0, n, m, h => by
    rw [foundFrom] at h
    split at h
    · rcases List.mem_cons.1 h with rfl | h
      · exact Nat.le_refl _
      · exact Nat.le_of_succ_le (le_of_mem_foundFrom h)
    · exact Nat.le_of_succ_le (le_of_mem_foundFrom h)

theorem getElem?_of_prefix {u v : Text} (h : u <+: v) {i : Nat} (hi : i < u.length) : v[i]? = u[i]? := by
  obtain ⟨w, rfl⟩ := h
  exact List.getElem?_append_left hi

theorem replaceFrom_shared (hold : a <+: old) (hnew : a <+: new) (hne : old ≠ []) :
    ∀ (text : Text) {i : Nat}, i < a.length → (replaceFrom old new 0 text)[i]? = text[i]?
  | [], _, _ => rfl
  | c :: cs, i, hi => by
    by_cases hcopy : old <+: c :: cs
    · obtain ⟨rest, hrest⟩ := hcopy
      rw [← hrest, replaceFrom_self hne, List.getElem?_append_left (Nat.lt_of_lt_of_le hi hnew.length_le),
        List.getElem?_append_left (Nat.lt_of_lt_of_le hi hold.length_le), getElem?_of_prefix hnew hi,
        getElem?_of_prefix hold hi]
    · rw [replaceFrom_cons, if_neg hcopy]
      cases i with
      | zero => rfl
      | succ i => exact replaceFrom_shared hold hnew hne cs (Nat.lt_of_succ_lt hi)

theorem replaceFrom_after (hold : a <+: old) (hnew : a <+: new) (hne : old ≠ []) (hnot : ¬old <+: text) :
    (replaceFrom old new 0 text)[a.length]? = text[a.length]? := by
  cases text with
  | nil => rfl
  | cons c cs =>
    rw [replaceFrom_cons, if_neg hnot]
    cases hlen : a.length with
    | zero => rfl
    | succ i => exact replaceFrom_shared hold hnew hne cs (by omega)

/-- **A copy in one text only shows**: it begins the one with the mask, and nothing puts the mask there in the other. -/
theorem replaceFrom_ne {R : Char → Char → Prop} (hR : ∀ c ∈ s, ∀ c', R c c' → c' ≠ MASK_CHAR) (hs : s ≠ []) (hk : k ≠ 0)
    (h : List.Forall₂ R text text') (hcopy : a ++ s ++ b <+: text) (hold : a <+: old') (hne : old' ≠ [])
    (hnot : ¬old' <+: text') :
    replaceFrom (a ++ s ++ b) (a ++ List.replicate k MASK_CHAR ++ b) 0 text ≠
      replaceFrom old' (a ++ List.replicate k MASK_CHAR ++ b) 0 text' := by
  intro heq
  obtain ⟨first, s, rfl⟩ := List.exists_cons_of_ne_nil hs
  obtain ⟨k, rfl⟩ := Nat.exists_eq_succ_of_ne_zero hk
  obtain ⟨rest, rfl⟩ := hcopy
  have hmask : (replaceFrom (a ++ (first :: s) ++ b) (a ++ List.replicate (k + 1) MASK_CHAR ++ b) 0
      (a ++ (first :: s) ++ b ++ rest))[a.length]? = some MASK_CHAR := by
    rw [replaceFrom_self (by simp)]
    simp [List.replicate_succ]
  have hlead : a <+: a ++ List.replicate (k + 1) MASK_CHAR ++ b := by
    rw [List.append_assoc]
    exact List.prefix_append _ _
  have hsecret : (a ++ (first :: s) ++ b ++ rest)[a.length]? = some first := by simp
  rw [heq, replaceFrom_after hold hlead hne hnot] at hmask
  obtain ⟨hlt, hfirst⟩ := List.getElem?_eq_some_iff.1 hsecret
  obtain ⟨hlt', hmask⟩ := List.getElem?_eq_some_iff.1 hmask
  have hrelated := h.get hlt hlt'
  rw [List.get_eq_getElem, List.get_eq_getElem, hfirst, hmask] at hrelated
  exact hR first List.mem_cons_self _ hrelated rfl

end Copies

/-! ## Beside the copies -/

/-- **The same characters beside the copies**, from position `skip` on, the text's first character being the `n`-th. -/
def SameBeside (skip n : Nat) (copies : List Nat) (length : Nat) (text text' : Text) : Prop :=
  ∀ p, p < text.length → skip ≤ p → (∀ m ∈ copies, p + n < m ∨ m + length ≤ p + n) → text[p]? = text'[p]?

section SameBeside

variable {c c' : Char} {cs cs' : Text} {skip n length : Nat} {copies : List Nat}

theorem same_skip : SameBeside (skip + 1) n copies length (c :: cs) (c' :: cs') ↔ SameBeside skip (n + 1) copies length cs cs' := by
  constructor
  · intro h p hp hskip hbeside
    have := h (p + 1) (Nat.succ_lt_succ hp) (Nat.succ_le_succ hskip) fun m hm => by
      have := hbeside m hm
      omega
    simpa using this
  · rintro h (_ | p) hp hskip hbeside
    · exact absurd hskip (Nat.not_succ_le_zero skip)
    · have := h p (Nat.lt_of_succ_lt_succ hp) (Nat.le_of_succ_le_succ hskip) fun m hm => by
        have := hbeside m hm
        omega
      simpa using this

theorem same_copy (hlength : 0 < length) : SameBeside 0 n (n :: copies) length (c :: cs) (c' :: cs') ↔
    SameBeside (length - 1) (n + 1) copies length cs cs' := by
  have hshift : SameBeside (length - 1 + 1) n copies length (c :: cs) (c' :: cs') ↔ SameBeside (length - 1) (n + 1) copies length cs cs' :=
    same_skip
  rw [← hshift, Nat.sub_add_cancel hlength]
  constructor
  · intro h p hp hle hbeside
    refine h p hp (Nat.zero_le p) fun m hm => ?_
    rcases List.mem_cons.1 hm with rfl | hm
    · exact .inr (by omega)
    · exact hbeside m hm
  · intro h p hp _ hbeside
    refine h p hp ?_ fun m hm => hbeside m (List.mem_cons_of_mem _ hm)
    have := hbeside n List.mem_cons_self
    omega

theorem same_other (hcopies : ∀ m ∈ copies, n + 1 ≤ m) : SameBeside 0 n copies length (c :: cs) (c' :: cs') ↔
    c = c' ∧ SameBeside 0 (n + 1) copies length cs cs' := by
  constructor
  · intro h
    refine ⟨?_, same_skip.1 fun p hp _ hbeside => h p hp (Nat.zero_le p) hbeside⟩
    have := h 0 (Nat.succ_pos _) (Nat.zero_le 0) fun m hm => .inl (by have := hcopies m hm; omega)
    simpa using this
  · rintro ⟨rfl, h⟩ p hp _ hbeside
    cases p with
    | zero => rfl
    | succ p => exact same_skip.2 h (p + 1) hp (by omega) hbeside

end SameBeside

/-! ## Two bodies that differ in a secret -/

section Bodies

variable {a b s s' text text' : Text} {k : Nat}

def masked (a b : Text) (k : Nat) : Text := a ++ List.replicate k MASK_CHAR ++ b

theorem body_ne (hs : s ≠ []) : a ++ s ++ b ≠ [] := by simp [hs]

theorem masked_ne (hmark : MASK_CHAR ∉ s) (hk : k ≠ 0) : masked a b k ≠ a ++ s ++ b := by
  intro heq
  have hs := List.append_cancel_left (List.append_cancel_right heq)
  refine hmark (hs ▸ ?_)
  rw [List.mem_replicate]
  exact ⟨hk, rfl⟩

/-- **What is left of two texts that are alike is the same where they hide the difference, and nowhere else.**  The induction
is on the texts, character by character; a copy in one text only shows. -/
theorem replaceFrom_same_iff (hlen : s.length = s'.length) (hs : s ≠ []) (hk : k ≠ 0) (hmark : MASK_CHAR ∉ s)
    (hmark' : MASK_CHAR ∉ s') (h : List.Forall₂ (Alike s s') text text') : ∀ skip n,
    replaceFrom (a ++ s ++ b) (masked a b k) skip text = replaceFrom (a ++ s' ++ b) (masked a b k) skip text' ↔
      foundFrom (a ++ s ++ b) skip n text = foundFrom (a ++ s' ++ b) skip n text' ∧
      SameBeside skip n (foundFrom (a ++ s ++ b) skip n text) (a ++ s ++ b).length text text' := by
  have hs' : s' ≠ [] := List.ne_nil_of_length_pos (hlen ▸ List.length_pos_iff.2 hs)
  have hsame : (a ++ s' ++ b).length = (a ++ s ++ b).length := by simp [hlen]
  have hpos : 0 < (a ++ s ++ b).length := List.length_pos_iff.2 (body_ne hs)
  induction h with
  | nil => exact fun skip n => iff_of_true rfl ⟨rfl, fun p hp => absurd hp (Nat.not_lt_zero p)⟩
  | @cons c c' cs cs' hc hrest ih =>
    intro skip n
    cases skip with
    | succ skip => exact (ih skip (n + 1)).trans (and_congr Iff.rfl same_skip.symm)
    | zero =>
      have hlater : ∀ m ∈ foundFrom (a ++ s ++ b) 0 (n + 1) cs, n + 1 ≤ m := fun m => le_of_mem_foundFrom
      have hlead : ∀ u : Text, a <+: a ++ u ++ b := fun u => by
        rw [List.append_assoc]
        exact List.prefix_append _ _
      by_cases hcopy : a ++ s ++ b <+: c :: cs <;> by_cases hcopy' : a ++ s' ++ b <+: c' :: cs'
      · rw [replaceFrom_cons, replaceFrom_cons, if_pos hcopy, if_pos hcopy', hsame, List.append_cancel_left_eq,
          ih ((a ++ s ++ b).length - 1) (n + 1)]
        simp only [foundFrom, if_pos hcopy, if_pos hcopy', hsame, List.cons.injEq, true_and, same_copy hpos]
      · -- a copy in the first text only
        refine iff_of_false (replaceFrom_ne (R := Alike s s') (fun d hd d' hdd' => ?_) hs hk (.cons hc hrest) hcopy
          (hlead s') (body_ne hs') hcopy') fun hhides => ?_
        · rintro rfl
          rcases hdd' with rfl | ⟨-, hmem⟩
          · exact hmark hd
          · exact hmark' hmem
        · have hfound := hhides.1
          simp only [foundFrom, if_pos hcopy, if_neg hcopy'] at hfound
          have := le_of_mem_foundFrom (hfound ▸ List.mem_cons_self : n ∈ foundFrom (a ++ s' ++ b) 0 (n + 1) cs')
          omega
      · -- a copy in the second text only
        refine iff_of_false (fun heq => replaceFrom_ne (R := flip (Alike s s')) (fun d hd d' hdd' => ?_) hs' hk
          (List.Forall₂.flip (.cons hc hrest)) hcopy' (hlead s) (body_ne hs) hcopy heq.symm) fun hhides => ?_
        · rintro rfl
          rcases hdd' with rfl | ⟨hmem, -⟩
          · exact hmark' hd
          · exact hmark hmem
        · have hfound := hhides.1
          simp only [foundFrom, if_neg hcopy, if_pos hcopy'] at hfound
          have := le_of_mem_foundFrom (hfound.symm ▸ List.mem_cons_self : n ∈ foundFrom (a ++ s ++ b) 0 (n + 1) cs)
          omega
      · rw [replaceFrom_cons, replaceFrom_cons, if_neg hcopy, if_neg hcopy', List.cons.injEq, ih 0 (n + 1)]
        simp only [foundFrom, if_neg hcopy, if_neg hcopy', same_other hlater]
        exact and_left_comm

end Bodies

/-- **Two sends that differ in the secret leave the same error exactly where the provider's two texts hide the difference**:
in their first two hundred characters whole copies of the bodies stand at the same places, and beside them no character in
which the secrets differ. -/
theorem scrub_same_iff (typeName : Text) (parts : List Part) (a b s s' : Text) (k : Nat) (hlen : s.length = s'.length)
    (hs : s ≠ []) (hk : k ≠ 0) (hmark : MASK_CHAR ∉ s) (hmark' : MASK_CHAR ∉ s') :
    NotificationService.scrub typeName (said parts (a ++ s ++ b)) (a ++ s ++ b) (some (masked a b k)) =
        NotificationService.scrub typeName (said parts (a ++ s' ++ b)) (a ++ s' ++ b) (some (masked a b k)) ↔
      Hides (a ++ s ++ b) (a ++ s' ++ b) (cutOf typeName (said parts (a ++ s ++ b)))
        (cutOf typeName (said parts (a ++ s' ++ b))) := by
  have hs' : s' ≠ [] := List.ne_nil_of_length_pos (hlen ▸ List.length_pos_iff.2 hs)
  have hbodies : List.Forall₂ (Alike s s') (a ++ s ++ b) (a ++ s' ++ b) :=
    alike_append (alike_append (alike_self a) (alike_secrets hlen)) (alike_self b)
  have hcuts : List.Forall₂ (Alike s s') (cutOf typeName (said parts (a ++ s ++ b))) (cutOf typeName (said parts (a ++ s' ++ b))) :=
    alike_cut (alike_said hbodies parts)
  unfold NotificationService.scrub
  simp only [if_pos (masked_ne hmark hk), if_pos (masked_ne hmark' hk), replace, if_neg (body_ne hs), if_neg (body_ne hs')]
  refine (replaceFrom_same_iff hlen hs hk hmark hmark' hcuts 0 0).trans ?_
  constructor
  · exact fun h => ⟨h.1, fun p hp hbeside => h.2 p hp (Nat.zero_le p) hbeside⟩
  · exact fun h => ⟨h.copies, fun p hp _ hbeside => h.rest p hp hbeside⟩

/-! ## The logs -/

theorem maskManageLink_masked {a b token : Text} (ht : token ≠ []) (honly : OnlyAt token (a ++ token ++ b) a.length) :
    maskManageLink (a ++ token ++ b) token = masked a b 3 := replace_once ht honly

theorem onlyAt_end {a code : Text} (hc : code ≠ []) (happart : ∀ c ∈ code, c ∉ a) : OnlyAt code (a ++ code ++ []) a.length := by
  intro m hm
  rw [List.append_nil] at hm
  obtain ⟨first, rest, rfl⟩ := List.exists_cons_of_ne_nil hc
  have hlen := hm.length_le
  rw [List.length_drop, List.length_append] at hlen
  by_contra hne
  have hlt : m < a.length := by
    simp only [List.length_cons] at hlen
    omega
  have hfirst := getElem?_of_prefix hm (Nat.succ_pos rest.length)
  rw [List.getElem?_drop, Nat.add_zero, List.getElem?_append_left hlt] at hfirst
  exact happart first List.mem_cons_self (List.mem_of_getElem? hfirst)

/-- A code shares no character with the words before it: one mask for all codes. -/
theorem maskOtpBody_masked {code : Text} (hc : code ≠ []) (happart : ∀ c ∈ code, c ∉ otpSmsBody []) :
    maskOtpBody (otpSmsBody code) code = masked (otpSmsBody []) [] OTP_CODE_LENGTH := by
  have hbody : ∀ a : Text, (∀ c ∈ code, c ∉ a) → replace (a ++ code) code (List.replicate OTP_CODE_LENGTH MASK_CHAR) =
      masked a [] OTP_CODE_LENGTH := by
    intro a happart
    have honce : replace (a ++ code ++ []) code (List.replicate OTP_CODE_LENGTH MASK_CHAR) = masked a [] OTP_CODE_LENGTH :=
      replace_once hc (onlyAt_end hc happart)
    rwa [List.append_nil] at honce
  unfold otpSmsBody at happart ⊢
  rw [List.append_nil] at happart ⊢
  exact hbody _ happart

/-! ## The sibling -/

/-- Masked, then truncated. -/
def scrubProviderError (typeName text : Text) (secrets : List Text) : Text :=
  ((secrets.filter fun secret => secret ≠ []).foldl (fun detail secret => replace detail secret SECRET_MASK)
    (excDetail typeName text)).take MAX_VALIDATION_ERROR_LENGTH

def echoHead (typeName before : Text) : Text := typeName ++ ": ".toList ++ before

theorem excDetail_echo {typeName before body after_ : Text} :
    excDetail typeName (before ++ body ++ after_) = echoHead typeName before ++ body ++ after_ := by
  simp [excDetail, echoHead]

theorem scrubProviderError_masks (typeName before after_ secret : Text) (hs : secret ≠ [])
    (honly : OnlyAt secret (echoHead typeName before ++ secret ++ after_) (echoHead typeName before).length) :
    scrubProviderError typeName (before ++ secret ++ after_) [secret] =
      (echoHead typeName before ++ SECRET_MASK ++ after_).take MAX_VALIDATION_ERROR_LENGTH := by
  have hkept : ([secret].filter fun secret => secret ≠ []) = [secret] := by simp [hs]
  unfold scrubProviderError
  rw [hkept, List.foldl_cons, List.foldl_nil, excDetail_echo, replace_once hs honly]

/-! ## An echo at the cut -/

def longPreamble : Text := List.replicate 174 'x'

/-- **Two codes, two errors.** -/
theorem scrub_leaks : ¬∀ (typeName before after_ code code' : Text), code.length = code'.length →
    maskOtpBody (otpSmsBody code) code = maskOtpBody (otpSmsBody code') code' →
    NotificationService.scrub typeName (said [.words before, .quote 0 (otpSmsBody code).length, .words after_] (otpSmsBody code))
        (otpSmsBody code) (some (maskOtpBody (otpSmsBody code) code)) =
      NotificationService.scrub typeName (said [.words before, .quote 0 (otpSmsBody code').length, .words after_] (otpSmsBody code'))
        (otpSmsBody code') (some (maskOtpBody (otpSmsBody code') code')) := by
  intro h
  have := h "Error".toList longPreamble [] "123456".toList "654321".toList rfl (by decide)
  revert this
  decide +kernel

/-- The words before the code, a whole copy, and one the cut goes through left of the digits that differ. -/
def echoes : List Part := [.quote 0 16, .words " / ".toList, .quote 0 22, .words (List.replicate 133 'x'), .quote 0 22]

theorem scrub_same_iff_codes :
    NotificationService.scrub "Error".toList (said echoes (otpSmsBody [] ++ "123456".toList ++ []))
        (otpSmsBody [] ++ "123456".toList ++ []) (some (masked (otpSmsBody []) [] OTP_CODE_LENGTH)) =
      NotificationService.scrub "Error".toList (said echoes (otpSmsBody [] ++ "123789".toList ++ []))
        (otpSmsBody [] ++ "123789".toList ++ []) (some (masked (otpSmsBody []) [] OTP_CODE_LENGTH)) :=
  (scrub_same_iff "Error".toList echoes (otpSmsBody []) [] "123456".toList "123789".toList OTP_CODE_LENGTH (by decide)
    (by decide) (by decide) (by decide) (by decide)).2 (by decide +kernel)

end Boutique

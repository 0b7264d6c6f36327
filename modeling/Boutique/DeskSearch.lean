import Boutique.Like
import Boutique.Validation
import Mathlib.Data.String.Basic
/-!
# DeskSearch — the console's search over names and numbers

A number is stored as E.164 and typed any way a person types it; both are brought to digits by rules written separately.
A name is looked for as it is typed, its letters in either case.
-/
namespace Desk

open Boutique (isSpace stripChars normalizeIsraeliMobile inAllowedCharset)

structure Customer where
  id : Nat
  tenantId : Nat
  name : String
  phone : String
  deletedAt : Option Int
deriving DecidableEq

def marks : Like.Marks Char := ⟨'%', '_', '/', by decide, by decide, by decide⟩

/-- What lower-casing and the regular expressions' `\d` do, character by character. -/
structure Alphabet where
  lower : Char → Char
  decimal : Char → Bool
  folds : Like.Folds marks lower
  decimal_ascii : ∀ c : Char, c.toNat < 128 → decimal c = c.isDigit
  decimal_space : ∀ c, isSpace c = true → decimal c = false

variable (alphabet : Alphabet)

def icontains (value term : List Char) : Bool :=
  Like.like marks (value.map alphabet.lower) ((Like.containing marks term).map alphabet.lower) = some true

def phoneSearchTerm (term : List Char) : Option (List Char) :=
  match term.filter alphabet.decimal with
  | [] => none
  | '0' :: '5' :: rest => some ('9' :: '7' :: '2' :: '5' :: rest)
  | digits => some digits

def searchWhere (tenantId : Nat) (q : Option String) (row : Customer) : Bool :=
  let term := stripChars (q.getD "").toList
  row.tenantId = tenantId && row.deletedAt.isNone && (term.isEmpty ||
    icontains alphabet row.name.toList term ||
      (phoneSearchTerm alphabet term).any fun digits => icontains alphabet row.phone.toList digits)

structure Table (K : Type) where
  rows : List Customer
  ids : (rows.map Customer.id).Nodup
  key : String → K

variable {K : Type} [LinearOrder K]

def Table.before (table : Table K) (a b : Customer) : Prop :=
  table.key a.name < table.key b.name ∨ table.key a.name = table.key b.name ∧ a.id ≤ b.id

/-- What `search` may answer: a page of the matching rows, in any arrangement the order allows. -/
def Searched (table : Table K) (tenantId : Nat) (q : Option String) (offset limit : Nat) (page : List Customer) : Prop :=
  ∃ arranged : List Customer, arranged.Perm (table.rows.filter (searchWhere alphabet tenantId q)) ∧ arranged.Pairwise table.before ∧
    page = (arranged.drop offset).take limit

def countSearch (table : Table K) (tenantId : Nat) (q : Option String) : Nat :=
  (table.rows.filter (searchWhere alphabet tenantId q)).length

theorem icontains_iff (value term : List Char) :
    icontains alphabet value term = true ↔ term.map alphabet.lower <:+: value.map alphabet.lower := by
  simp only [icontains, decide_eq_true_eq, alphabet.folds.like_containing]

theorem icontains_of_infix {value term : List Char} (h : term <:+: value) : icontains alphabet value term = true :=
  (icontains_iff alphabet value term).2 (h.map alphabet.lower)

theorem stripChars_within (text : List Char) : stripChars text <:+: text := by
  unfold stripChars
  have htail : text.dropWhile isSpace <:+ text := List.dropWhile_suffix isSpace
  have hhead : ((text.dropWhile isSpace).reverse.dropWhile isSpace).reverse <+: text.dropWhile isSpace := by
    rw [← List.reverse_suffix, List.reverse_reverse]
    exact List.dropWhile_suffix isSpace
  exact hhead.isInfix.trans htail.isInfix

/-! ## The number -/

theorem filter_dropWhile {keep drop : Char → Bool} (h : ∀ c, drop c = true → keep c = false) (text : List Char) :
    (text.dropWhile drop).filter keep = text.filter keep := by
  induction text with
  | nil => rfl
  | cons c text ih =>
    cases hc : drop c with
    | true => simp [hc, h c hc, ih]
    | false => simp [hc]

theorem filter_stripChars {keep : Char → Bool} (h : ∀ c, isSpace c = true → keep c = false) (text : List Char) :
    (stripChars text).filter keep = text.filter keep := by
  unfold stripChars
  rw [List.filter_reverse, filter_dropWhile h, List.filter_reverse, List.reverse_reverse, filter_dropWhile h]

def nationalOf (digits : List Char) : List Char :=
  match digits with
  | '0' :: '5' :: rest => '9' :: '7' :: '2' :: '5' :: rest
  | _ => digits

theorem nationalOf_other {first second : Char} (h : ¬(first = '0' ∧ second = '5')) (rest : List Char) :
    nationalOf (first :: second :: rest) = first :: second :: rest := by
  unfold nationalOf
  split
  · rename_i heq
    injection heq with hfirst heq
    injection heq with hsecond _
    exact absurd ⟨hfirst, hsecond⟩ h
  · rfl

theorem normalize_ok {s phone : String} (h : normalizeIsraeliMobile s = .ok phone) :
    inAllowedCharset (stripChars s.toList) = true ∧
      phone.toList = '+' :: nationalOf ((stripChars s.toList).filter Char.isDigit) := by
  have hunfold : normalizeIsraeliMobile s =
      if inAllowedCharset (stripChars s.toList) ∧
          (nationalOf ((stripChars s.toList).filter Char.isDigit)).take 4 = ['9', '7', '2', '5'] ∧
          (nationalOf ((stripChars s.toList).filter Char.isDigit)).length = 12 then
        .ok (String.ofList ('+' :: nationalOf ((stripChars s.toList).filter Char.isDigit)))
      else .error (.domainValidation "Enter a valid Israeli mobile number.") := rfl
  rw [hunfold] at h
  split at h
  · rename_i haccepted
    injection h with h
    exact ⟨haccepted.1, by rw [← h, String.toList_ofList]⟩
  · cases h

theorem decimal_accepted {c : Char} {candidate : List Char} (haccepted : inAllowedCharset candidate = true)
    (hc : c ∈ candidate) : alphabet.decimal c = c.isDigit := by
  have hplain : ∀ c ∈ candidate, c = '+' ∨ c.isDigit = true ∨ c = ' ' ∨ c = '(' ∨ c = ')' ∨ c = '-' := by
    unfold inAllowedCharset at haccepted
    simp only [ne_eq, decide_eq_true_eq, List.all_eq_true] at haccepted
    intro d hd
    split at haccepted
    · obtain rfl | hd := List.mem_cons.1 hd
      · exact Or.inl rfl
      · exact Or.inr (haccepted.2 d hd)
    · exact Or.inr (haccepted.2 d hd)
  refine alphabet.decimal_ascii c ?_
  obtain rfl | hdigit | rfl | rfl | rfl | rfl := hplain c hc
  · decide
  · simp only [Char.isDigit, Bool.and_eq_true, decide_eq_true_eq, UInt32.le_iff_toNat_le] at hdigit
    exact Nat.lt_of_le_of_lt hdigit.2 (by decide)
  all_goals decide

theorem prefix_digits {s phone : String} (hspelling : normalizeIsraeliMobile s = .ok phone) {typed : List Char}
    (htyped : typed <+: s.toList) :
    typed.filter alphabet.decimal <+: (stripChars s.toList).filter Char.isDigit := by
  obtain ⟨haccepted, -⟩ := normalize_ok hspelling
  have hsame : s.toList.filter alphabet.decimal = (stripChars s.toList).filter Char.isDigit := by
    rw [← filter_stripChars alphabet.decimal_space]
    exact List.filter_congr fun c hc => decimal_accepted alphabet haccepted hc
  rw [← hsame]
  exact htyped.filter alphabet.decimal

/-- **Cut anywhere after its second digit, a number is looked for as a part of what is stored.** -/
theorem phoneSearchTerm_national {digits term : List Char} (hstarts : term.filter alphabet.decimal <+: digits)
    (hlong : 2 ≤ (term.filter alphabet.decimal).length) :
    ∃ part, phoneSearchTerm alphabet term = some part ∧ part <+: nationalOf digits := by
  unfold phoneSearchTerm
  generalize term.filter alphabet.decimal = typed at hstarts hlong
  obtain ⟨after, rfl⟩ := hstarts
  obtain _ | ⟨first, _ | ⟨second, typed⟩⟩ := typed
  · simp at hlong
  · simp at hlong
  · by_cases htrunk : first = '0' ∧ second = '5'
    · obtain ⟨rfl, rfl⟩ := htrunk
      exact ⟨_, rfl, after, rfl⟩
    · refine ⟨first :: second :: typed, ?_, after, ?_⟩
      · split
        · contradiction
        · rename_i heq
          injection heq with hfirst heq
          injection heq with hsecond _
          exact absurd ⟨hfirst, hsecond⟩ htrunk
        · rfl
      · simp only [List.cons_append, nationalOf_other htrunk]

theorem phone_found {s : String} {row : Customer} (hspelling : normalizeIsraeliMobile s = .ok row.phone)
    {typed : List Char} (htyped : typed <+: s.toList) (hlong : 2 ≤ (typed.filter alphabet.decimal).length) :
    (phoneSearchTerm alphabet (stripChars typed)).any (fun digits => icontains alphabet row.phone.toList digits) = true := by
  have hstarts := prefix_digits alphabet hspelling htyped
  rw [← filter_stripChars alphabet.decimal_space] at hstarts hlong
  obtain ⟨part, hpart, hwhole⟩ := phoneSearchTerm_national alphabet hstarts hlong
  rw [hpart, Option.any_some]
  refine icontains_of_infix alphabet ?_
  rw [(normalize_ok hspelling).2]
  exact hwhole.isInfix.trans (List.suffix_cons _ _).isInfix

theorem phoneSearchTerm_none {term : List Char} (h : ∀ c ∈ term, alphabet.decimal c = false) :
    phoneSearchTerm alphabet term = none := by
  have hnone : term.filter alphabet.decimal = [] := List.filter_eq_nil_iff.2 fun c hc => by simp [h c hc]
  simp [phoneSearchTerm, hnone]

/-! ## The name -/

theorem name_found {row : Customer} {part typed : List Char} (hpart : part <:+: row.name.toList)
    (htyped : typed.map alphabet.lower = part.map alphabet.lower) :
    icontains alphabet row.name.toList (stripChars typed) = true := by
  rw [icontains_iff]
  have hstrip := (stripChars_within typed).map alphabet.lower
  rw [htyped] at hstrip
  exact hstrip.trans (hpart.map alphabet.lower)

theorem searchWhere_letters {tenantId : Nat} {q : String} (h : ∀ c ∈ q.toList, alphabet.decimal c = false) (row : Customer) :
    searchWhere alphabet tenantId (some q) row = true ↔ row.tenantId = tenantId ∧ row.deletedAt = none ∧
      (stripChars q.toList).map alphabet.lower <:+: row.name.toList.map alphabet.lower := by
  have hnone : phoneSearchTerm alphabet (stripChars q.toList) = none :=
    phoneSearchTerm_none alphabet fun c hc => h c ((stripChars_within q.toList).subset hc)
  have hblank : (stripChars q.toList).isEmpty = true →
      (stripChars q.toList).map alphabet.lower <:+: row.name.toList.map alphabet.lower := by
    intro hempty
    rw [List.isEmpty_iff.1 hempty]
    exact List.nil_infix
  simp only [searchWhere, Option.getD_some, hnone, Option.any_none, Bool.or_false, Bool.and_eq_true, Bool.or_eq_true,
    icontains_iff, decide_eq_true_eq, Option.isNone_iff_eq_none, and_assoc]
  constructor
  · rintro ⟨htenant, hlive, hempty | hname⟩
    · exact ⟨htenant, hlive, hblank hempty⟩
    · exact ⟨htenant, hlive, hname⟩
  · rintro ⟨htenant, hlive, hname⟩
    exact ⟨htenant, hlive, Or.inr hname⟩

/-! ## The pages -/

theorem take_pages {β : Type} (rows : List β) (limit n : Nat) :
    (List.range n).flatMap (fun k => (rows.drop (k * limit)).take limit) = rows.take (n * limit) := by
  induction n with
  | zero => simp
  | succ n ih =>
    rw [List.range_succ, List.flatMap_append, ih, List.flatMap_singleton, Nat.succ_mul, List.take_add]

theorem Table.before_antisymm (table : Table K) {a b : Customer} (ha : a ∈ table.rows) (hb : b ∈ table.rows)
    (hab : table.before a b) (hba : table.before b a) : a = b := by
  have hid : a.id = b.id := by
    obtain hab | ⟨hname, hab⟩ := hab <;> obtain hba | ⟨hname', hba⟩ := hba
    · exact absurd hab hba.asymm
    · exact absurd hab (by rw [hname']; exact lt_irrefl _)
    · exact absurd hba (by rw [hname]; exact lt_irrefl _)
    · exact Nat.le_antisymm hab hba
  exact List.inj_on_of_nodup_map table.ids ha hb hid

theorem arranged_unique (table : Table K) {found arranged arranged' : List Customer} (hfound : found ⊆ table.rows)
    (hperm : arranged.Perm found) (hperm' : arranged'.Perm found) (hordered : arranged.Pairwise table.before)
    (hordered' : arranged'.Pairwise table.before) : arranged = arranged' :=
  (hperm.trans hperm'.symm).eq_of_pairwise (fun _ _ ha hb => table.before_antisymm (hfound (hperm.subset ha))
    (hfound (hperm'.subset hb))) hordered hordered'

theorem pages_found (table : Table K) (tenantId : Nat) (q : Option String) (limit : Nat) (pages : Nat → List Customer)
    (hpages : ∀ k, Searched alphabet table tenantId q (k * limit) limit (pages k)) (n : Nat)
    (hn : countSearch alphabet table tenantId q ≤ n * limit) :
    ((List.range n).flatMap pages).Perm (table.rows.filter (searchWhere alphabet tenantId q)) := by
  obtain ⟨arranged, hperm, hordered, -⟩ := hpages 0
  have hfound : table.rows.filter (searchWhere alphabet tenantId q) ⊆ table.rows := List.filter_sublist.subset
  have hpage : pages = fun k => (arranged.drop (k * limit)).take limit := by
    funext k
    obtain ⟨arranged', hperm', hordered', hk⟩ := hpages k
    rw [hk, arranged_unique table hfound hperm' hperm hordered' hordered]
  have hall : arranged.length ≤ n * limit := by rwa [hperm.length_eq]
  rw [hpage, take_pages, List.take_of_length_le hall]
  exact hperm

theorem searched_some (table : Table K) (tenantId : Nat) (q : Option String) (offset limit : Nat) :
    ∃ page, Searched alphabet table tenantId q offset limit page := by
  classical
  have htotal : ∀ a b : Customer, table.before a b ∨ table.before b a := by
    intro a b
    unfold Table.before
    obtain h | h | h := lt_trichotomy (table.key a.name) (table.key b.name)
    · exact Or.inl (Or.inl h)
    · obtain hid | hid := Nat.le_total a.id b.id
      · exact Or.inl (Or.inr ⟨h, hid⟩)
      · exact Or.inr (Or.inr ⟨h.symm, hid⟩)
    · exact Or.inr (Or.inl h)
  have htrans : ∀ a b c : Customer, table.before a b → table.before b c → table.before a c := by
    rintro a b c (hab | ⟨hab, hid⟩) (hbc | ⟨hbc, hid'⟩)
    · exact Or.inl (hab.trans hbc)
    · exact Or.inl (hbc ▸ hab)
    · exact Or.inl (hab ▸ hbc)
    · exact Or.inr ⟨hab.trans hbc, hid.trans hid'⟩
  have : Std.Total table.before := ⟨htotal⟩
  have : IsTrans Customer table.before := ⟨htrans⟩
  exact ⟨_, (table.rows.filter (searchWhere alphabet tenantId q)).insertionSort table.before, List.perm_insertionSort _ _,
    List.pairwise_insertionSort _ _, rfl⟩

/-! ## The search -/

/-- **The desk search finds her.**  By any prefix of any spelling of her number that carries two digits, by any part of her
name in either case; a term without digits finds the names that contain it, letter for letter and sign for sign; and
successive pages hold each row that is counted once. -/
theorem search_finds (table : Table K) (tenantId : Nat) :
    (∀ row : Customer, row.tenantId = tenantId → row.deletedAt = none →
      (∀ s s' typed : String, normalizeIsraeliMobile s = .ok row.phone → normalizeIsraeliMobile s' = .ok row.phone →
        typed.toList <+: s'.toList → 2 ≤ (typed.toList.filter alphabet.decimal).length →
          searchWhere alphabet tenantId (some typed) row = true) ∧
      (∀ part typed : String, part.toList <:+: row.name.toList →
        typed.toList.map alphabet.lower = part.toList.map alphabet.lower →
          searchWhere alphabet tenantId (some typed) row = true)) ∧
    (∀ q : String, (∀ c ∈ q.toList, alphabet.decimal c = false) → ∀ row : Customer,
      searchWhere alphabet tenantId (some q) row = true ↔ row.tenantId = tenantId ∧ row.deletedAt = none ∧
        (stripChars q.toList).map alphabet.lower <:+: row.name.toList.map alphabet.lower) ∧
    (∀ (q : Option String) (limit : Nat), 0 < limit → ∀ pages : Nat → List Customer,
      (∀ k, Searched alphabet table tenantId q (k * limit) limit (pages k)) →
        ∀ n, countSearch alphabet table tenantId q ≤ n * limit →
          ((List.range n).flatMap pages).Perm (table.rows.filter (searchWhere alphabet tenantId q)) ∧
            ((List.range n).flatMap pages).Nodup ∧
            ((List.range n).flatMap pages).length = countSearch alphabet table tenantId q) := by
  refine ⟨fun row htenant hlive => ⟨?_, ?_⟩, fun q hq row => searchWhere_letters alphabet hq row, ?_⟩
  · intro s s' typed _ hspelling htyped hlong
    have hleg := phone_found alphabet hspelling htyped hlong
    simp [searchWhere, htenant, hlive, hleg]
  · intro part typed hpart htyped
    have hleg := name_found alphabet hpart htyped
    simp [searchWhere, htenant, hlive, hleg]
  · intro q limit _ pages hpages n hn
    have hperm := pages_found alphabet table tenantId q limit pages hpages n hn
    have hnodup : (table.rows.filter (searchWhere alphabet tenantId q)).Nodup :=
      (List.Nodup.of_map _ table.ids).filter _
    exact ⟨hperm, hperm.nodup_iff.2 hnodup, hperm.length_eq⟩

theorem toLower_eq (c d : Char) (hd : d.toNat < 65 ∨ d.toNat = 95) : c.toLower = d ↔ c = d := by
  unfold Char.toLower
  split
  · rename_i hupper
    have hlow : 65 ≤ c.toNat := UInt32.le_iff_toNat_le.1 hupper.1
    have hhigh : c.toNat ≤ 90 := UInt32.le_iff_toNat_le.1 hupper.2
    constructor
    · rintro rfl
      have hcode : (c.val + ('a'.val - 'A'.val)).toNat = c.toNat + 32 := by
        rw [UInt32.toNat_add]
        exact Nat.mod_eq_of_lt (Nat.lt_of_le_of_lt (Nat.add_le_add_right hhigh _) (by decide))
      change (c.val + ('a'.val - 'A'.val)).toNat < 65 ∨ (c.val + ('a'.val - 'A'.val)).toNat = 95 at hd
      omega
    · rintro rfl
      omega
  · exact Iff.rfl

theorem toLower_folds : Like.Folds marks Char.toLower :=
  ⟨fun c => toLower_eq c '%' (by decide), fun c => toLower_eq c '_' (by decide), fun c => toLower_eq c '/' (by decide)⟩

theorem isDigit_space (c : Char) (h : isSpace c = true) : c.isDigit = false := by
  have hspace : isSpace c = true → ¬(48 ≤ c.toNat ∧ c.toNat ≤ 57) := by
    simp only [isSpace, decide_eq_true_eq]
    omega
  rw [Bool.eq_false_iff]
  intro hdigit
  simp only [Char.isDigit, Bool.and_eq_true, decide_eq_true_eq, UInt32.le_iff_toNat_le] at hdigit
  exact hspace h hdigit

def asciiAlphabet : Alphabet := ⟨Char.toLower, Char.isDigit, toLower_folds, fun _ _ => rfl, isDigit_space⟩

def dana : Customer := ⟨2, 1, "Dana_Levi", "+972501234567", none⟩
def otherDana : Customer := ⟨1, 1, "Dana_Levi", "+972521234567", none⟩

def twoDanas : Table String := ⟨[dana, otherDana], by decide, id⟩

theorem search_finds_dana :
    searchWhere asciiAlphabet 1 (some "(05") dana = true ∧ searchWhere asciiAlphabet 1 (some "A_l") dana = true ∧
      searchWhere asciiAlphabet 1 (some "%") dana = false ∧
      ((List.range 2).flatMap fun k => ([otherDana, dana].drop (k * 1)).take 1).length =
        countSearch asciiAlphabet twoDanas 1 (some " dana") := by
  obtain ⟨hfound, hletters, hpages⟩ := search_finds asciiAlphabet twoDanas 1
  obtain ⟨hnumber, hname⟩ := hfound dana rfl rfl
  have hsign : ∀ c ∈ "%".toList, asciiAlphabet.decimal c = false := by
    intro c hc
    rw [List.mem_singleton.1 hc]
    rfl
  have hpercent : searchWhere asciiAlphabet 1 (some "%") dana ≠ true := (hletters "%" hsign dana).not.2 (by decide)
  have hordered : [otherDana, dana].Pairwise twoDanas.before :=
    List.pairwise_pair.2 (Or.inr ⟨rfl, by decide⟩)
  refine ⟨hnumber "+972 50 1234567" "(050) 123-4567" "(05" (by decide) (by decide) (by decide) (by decide),
    hname "a_L" "A_l" (by decide) (by decide), Bool.eq_false_iff.2 hpercent,
    (hpages (some " dana") 1 (by decide) _ (fun k => ⟨[otherDana, dana], ?_, hordered, rfl⟩) 2 (by decide)).2.2⟩
  decide

end Desk

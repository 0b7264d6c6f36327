import Boutique.Cascade
import Boutique.TxnSolo
import Mathlib.Data.Nat.Count
import Mathlib.Data.Finset.Sort
/-!
# Resumed — the cascade's walk goes on where it stopped

A tick reads one page of the pairs past its cursor.  A full page moves the cursor to its last pair and a short one clears it,
so that the walk comes round: no pair that stands still is passed over for longer than one round and a page.
-/
namespace Waitlist

/-! ## Positions in an ordered list -/

/-- The position a walk has come to: what lies before it is passed, what lies behind it is not. -/
def Passed {K : Type} (keys : List K) (ahead : K → Bool) (i : Nat) : Prop :=
  i ≤ keys.length ∧ ∀ k (hk : k < keys.length), ahead keys[k] = true ↔ i ≤ k

theorem exists_passed {K : Type} {before : K → K → Prop} {keys : List K} {ahead : K → Bool} (hkeys : keys.Pairwise before)
    (hahead : ∀ p q, before p q → ahead p = true → ahead q = true) : ∃ i, Passed keys ahead i := by
  induction keys with
  | nil => exact ⟨0, Nat.le_refl _, fun k hk => absurd hk (Nat.not_lt_zero k)⟩
  | cons p keys ih =>
    obtain ⟨hp, hkeys⟩ := List.pairwise_cons.1 hkeys
    cases hfirst : ahead p with
    | true =>
      refine ⟨0, Nat.zero_le _, fun k hk => ?_⟩
      obtain _ | k := k
      · simpa using hfirst
      · have hk : k < keys.length := Nat.lt_of_succ_lt_succ hk
        simpa using hahead p _ (hp _ (List.getElem_mem hk)) hfirst
    | false =>
      obtain ⟨i, hi, hpassed⟩ := ih hkeys
      refine ⟨i + 1, Nat.succ_le_succ hi, fun k hk => ?_⟩
      obtain _ | k := k
      · simp [hfirst]
      · have hk : k < keys.length := Nat.lt_of_succ_lt_succ hk
        simpa using hpassed k hk

variable {i j : Nat} {S : Finset (Int × Nat)} {tick : Tick}

theorem Passed.filter {K : Type} {keys : List K} {ahead : K → Bool} (h : Passed keys ahead i) :
    keys.filter ahead = keys.drop i := by
  obtain ⟨-, hpassed⟩ := h
  have hbefore : (keys.take i).filter ahead = [] := by
    rw [List.filter_eq_nil_iff]
    intro p hp
    obtain ⟨k, hk, rfl⟩ := List.mem_iff_getElem.1 hp
    rw [List.length_take] at hk
    rw [List.getElem_take, hpassed k (by omega)]
    omega
  have hbehind : (keys.drop i).filter ahead = keys.drop i := by
    rw [List.filter_eq_self]
    intro p hp
    obtain ⟨k, hk, rfl⟩ := List.mem_iff_getElem.1 hp
    rw [List.length_drop] at hk
    rw [List.getElem_drop, hpassed (i + k) (by omega)]
    omega
  calc keys.filter ahead = (keys.take i ++ keys.drop i).filter ahead := by rw [List.take_append_drop]
    _ = keys.drop i := by rw [List.filter_append, hbefore, hbehind, List.nil_append]

/-! ## The round -/

/-- **How many pages it takes** from position `i` of `n` until the key at `j` is on one: the pages to it, or those to the end
and then those from the beginning. -/
def pagesTo (page n i j : Nat) : Nat := if i ≤ j then (j - i) / page + 1 else (n - i) / page + 1 + (j / page + 1)

def nextPosition (page n i : Nat) : Nat := if i + page ≤ n then i + page else 0

theorem pagesTo_pos (page n i j : Nat) : 0 < pagesTo page n i j := by
  unfold pagesTo
  split <;> exact Nat.succ_pos _

theorem pagesTo_next {page n : Nat} (hpage : 0 < page) (hi : i ≤ n) (hj : j < n) (hmissed : ¬(i ≤ j ∧ j < i + page)) :
    pagesTo page n (nextPosition page n i) j + 1 = pagesTo page n i j := by
  have hshift : ∀ x, page ≤ x → (x - page) / page + 1 = x / page := by
    intro x hx
    rw [Nat.div_eq_sub_div hpage hx]
  unfold pagesTo nextPosition
  by_cases hij : i ≤ j
  · have hfar : page ≤ j - i := by omega
    have hfull : i + page ≤ n := by omega
    have hstill : i + page ≤ j := by omega
    rw [if_pos hij, if_pos hfull, if_pos hstill, Nat.sub_add_eq, hshift _ hfar]
  · rw [if_neg hij]
    by_cases hfull : i + page ≤ n
    · have hpast : ¬i + page ≤ j := by omega
      have hrest : page ≤ n - i := by omega
      rw [if_pos hfull, if_neg hpast, Nat.sub_add_eq, hshift _ hrest]
      omega
    · have hlast : (n - i) / page = 0 := Nat.div_eq_of_lt (by omega)
      rw [if_neg hfull, if_pos (Nat.zero_le j), hlast, Nat.sub_zero]
      omega

theorem pagesTo_le {page n : Nat} (hpage : 0 < page) (hj : j < n) : pagesTo page n i j ≤ (n + page - 1) / page + 1 := by
  have hround : (n - 1) / page + 1 = (n + page - 1) / page := by
    rw [← Nat.add_div_right _ hpage]
    congr 1
    omega
  unfold pagesTo
  split
  · have hle : (j - i) / page ≤ (n - 1) / page := Nat.div_le_div_right (by omega)
    omega
  · have hsum : (n - i) / page + j / page ≤ (n - 1) / page := by
      calc (n - i) / page + j / page ≤ (n - i + j) / page := Nat.div_add_div_le_add_div
        _ ≤ (n - 1) / page := Nat.div_le_div_right (by omega)
    omega

/-! ## The walk of a tick -/

open Entries (waitingPairsIn after)

structure Tick where
  now : Int
  entries : List WaitlistEntry

variable (cfg : Config)

def Tick.walks (tick : Tick) : Bool := !inQuietHours cfg tick.now

def Tick.visit (tick : Tick) (cursor : Option (Int × Nat)) : List (Int × Nat) × Option (Int × Nat) :=
  if tick.walks cfg then
    let pairs := waitingPairsIn (cfg.zone.dateOf tick.now) cursor tick.entries
    (pairs, WaitlistCascade.nextCursor pairs)
  else ([], cursor)

def Tick.Open (tick : Tick) (pair : Int × Nat) : Prop :=
  cfg.zone.dateOf tick.now ≤ pair.1 ∧ (∃ w ∈ tick.entries, w.waiting = true ∧ w.pair = pair) ∧
    ∀ x ∈ tick.entries, x.offered = true → x.pair ≠ pair

def Earlier (p q : Int × Nat) : Prop := p.1 < q.1 ∨ (p.1 = q.1 ∧ p.2 ≤ q.2)

instance : DecidableRel Earlier := fun _ _ => inferInstanceAs (Decidable (_ ∨ _))

theorem earlier_antisymm {p q : Int × Nat} (hpq : Earlier p q) (hqp : Earlier q p) : p = q := by
  unfold Earlier at hpq hqp
  ext <;> omega

theorem earlier_total (p q : Int × Nat) : Earlier p q ∨ Earlier q p := by
  unfold Earlier
  omega

theorem earlier_trans (p q r : Int × Nat) (hpq : Earlier p q) (hqr : Earlier q r) : Earlier p r := by
  unfold Earlier at *
  omega

instance : Std.Total Earlier := ⟨earlier_total⟩

instance : IsTrans (Int × Nat) Earlier := ⟨earlier_trans⟩

noncomputable def inOrder (S : Finset (Int × Nat)) : List (Int × Nat) := S.toList.insertionSort Earlier

theorem mem_inOrder {p : Int × Nat} : p ∈ inOrder S ↔ p ∈ S := by simp [inOrder]

theorem length_inOrder (S : Finset (Int × Nat)) : (inOrder S).length = S.card := by simp [inOrder]

theorem inOrder_nodup (S : Finset (Int × Nat)) : (inOrder S).Nodup :=
  (List.perm_insertionSort Earlier _).nodup_iff.2 S.nodup_toList

theorem inOrder_pairwise (S : Finset (Int × Nat)) : (inOrder S).Pairwise Earlier := List.pairwise_insertionSort Earlier _

theorem after_earlier (cursor : Option (Int × Nat)) (p q : Int × Nat) (hpq : Earlier p q) (hp : after cursor p = true) :
    after cursor q = true := by
  cases cursor with
  | none => rfl
  | some c =>
    unfold Earlier at hpq
    simp only [after, Option.all_some, Bool.or_eq_true, Bool.and_eq_true, decide_eq_true_eq] at hp ⊢
    omega

/-- **The pairs a walk reads are those of the fixed set that lie past the cursor, one page of them.** -/
theorem waitingPairsIn_inOrder (hS : ∀ p, p ∈ S ↔ tick.Open cfg p) (cursor : Option (Int × Nat)) :
    waitingPairsIn (cfg.zone.dateOf tick.now) cursor tick.entries =
      ((inOrder S).filter (after cursor)).take ISSUE_BATCH_SIZE := by
  unfold waitingPairsIn
  congr 1
  refine List.Perm.eq_of_pairwise (fun p q _ _ => earlier_antisymm) (List.pairwise_insertionSort Earlier _)
    ((inOrder_pairwise S).filter _) ?_
  refine (List.perm_insertionSort _ _).trans ((List.perm_ext_iff_of_nodup (List.nodup_dedup _) ((inOrder_nodup S).filter _)).2 ?_)
  intro p
  simp only [List.mem_dedup, List.mem_map, List.mem_filter, mem_inOrder, hS, Tick.Open, Bool.decide_and, Bool.and_eq_true,
    decide_eq_true_eq, Bool.not_eq_true', List.any_eq_false]
  constructor
  · rintro ⟨w, ⟨hw, hday, hwaiting, hfree, hafter⟩, rfl⟩
    refine ⟨⟨hday, ⟨w, hw, hwaiting, rfl⟩, fun x hx ho heq => hfree x hx ⟨ho, heq⟩⟩, hafter⟩
  · rintro ⟨⟨hday, ⟨w, hw, hwaiting, rfl⟩, hfree⟩, hafter⟩
    exact ⟨w, ⟨hw, hday, hwaiting, fun x hx hox => hfree x hx hox.1 hox.2, hafter⟩, rfl⟩

/-! ## One tick -/

theorem after_some (c p : Int × Nat) : after (some c) p = true ↔ ¬Earlier p c := by
  unfold Earlier
  simp only [after, Option.all_some, Bool.or_eq_true, Bool.and_eq_true, decide_eq_true_eq]
  omega

theorem passed_some (S : Finset (Int × Nat)) (k : Nat) (hk : k < (inOrder S).length) :
    Passed (inOrder S) (after (some (inOrder S)[k])) (k + 1) := by
  refine ⟨hk, fun j hj => ?_⟩
  rw [after_some]
  have hordered := List.pairwise_iff_getElem.1 (inOrder_pairwise S)
  obtain hjk | rfl | hkj := Nat.lt_trichotomy j k
  · have hback := hordered j k hj hk hjk
    exact ⟨fun h => absurd hback h, fun h => absurd h (by omega)⟩
  · have hself : Earlier (inOrder S)[j] (inOrder S)[j] := Or.inr ⟨rfl, Nat.le_refl _⟩
    exact ⟨fun h => absurd hself h, fun h => absurd h (by omega)⟩
  · refine ⟨fun _ => hkj, fun _ hback => ?_⟩
    have heq := earlier_antisymm hback (hordered k j hk hj hkj)
    exact absurd ((inOrder_nodup S).getElem_inj_iff.1 heq) (by omega)

theorem passed_none (S : Finset (Int × Nat)) : Passed (inOrder S) (after none) 0 :=
  ⟨Nat.zero_le _, fun k _ => ⟨fun _ => Nat.zero_le k, fun _ => rfl⟩⟩

theorem exists_position (S : Finset (Int × Nat)) (cursor : Option (Int × Nat)) :
    ∃ i, Passed (inOrder S) (after cursor) i :=
  exists_passed (inOrder_pairwise S) (after_earlier cursor)

theorem visit_page (hS : ∀ p, p ∈ S ↔ tick.Open cfg p) (hwalks : tick.walks cfg = true) {cursor : Option (Int × Nat)}
    (hi : Passed (inOrder S) (after cursor) i) :
    (tick.visit cfg cursor).1 = ((inOrder S).drop i).take ISSUE_BATCH_SIZE ∧
      Passed (inOrder S) (after (tick.visit cfg cursor).2) (nextPosition ISSUE_BATCH_SIZE S.card i) := by
  have hpage : 0 < ISSUE_BATCH_SIZE := by decide
  have hpairs : waitingPairsIn (cfg.zone.dateOf tick.now) cursor tick.entries =
      ((inOrder S).drop i).take ISSUE_BATCH_SIZE := by
    rw [waitingPairsIn_inOrder cfg hS, hi.filter]
  have hlength : (((inOrder S).drop i).take ISSUE_BATCH_SIZE).length = min ISSUE_BATCH_SIZE (S.card - i) := by
    rw [List.length_take, List.length_drop, length_inOrder]
  unfold Tick.visit
  rw [if_pos hwalks, hpairs]
  refine ⟨rfl, ?_⟩
  dsimp only
  unfold WaitlistCascade.nextCursor nextPosition
  rw [hlength]
  by_cases hfull : i + ISSUE_BATCH_SIZE ≤ S.card
  · have hsaturated : min ISSUE_BATCH_SIZE (S.card - i) = ISSUE_BATCH_SIZE := Nat.min_eq_left (by omega)
    have hlast : i + ISSUE_BATCH_SIZE - 1 < (inOrder S).length := by
      rw [length_inOrder]
      omega
    have hcursor : (((inOrder S).drop i).take ISSUE_BATCH_SIZE).getLast? = some (inOrder S)[i + ISSUE_BATCH_SIZE - 1] := by
      rw [List.getLast?_eq_getElem?, hlength, hsaturated, List.getElem?_take_of_lt (by omega), List.getElem?_drop,
        ← Nat.add_sub_assoc hpage, List.getElem?_eq_getElem hlast]
    have hposition : i + ISSUE_BATCH_SIZE - 1 + 1 = i + ISSUE_BATCH_SIZE := by omega
    rw [hsaturated, if_neg (Nat.lt_irrefl _), hcursor, if_pos hfull]
    have hpassed := passed_some S _ hlast
    rwa [hposition] at hpassed
  · have hshort : min ISSUE_BATCH_SIZE (S.card - i) < ISSUE_BATCH_SIZE := by omega
    rw [if_pos hshort, if_neg hfull]
    exact passed_none S

theorem visit_quiet (hquiet : tick.walks cfg = false) (cursor : Option (Int × Nat)) :
    tick.visit cfg cursor = ([], cursor) := by
  unfold Tick.visit
  rw [hquiet]
  rfl

/-- **The code's walk is the visit**: it goes through exactly those pairs, and leaves that cursor. -/
theorem issue_visits {A : Ask → Input → Prop} {t : Txn.Tid} {now : Int} {x : Except Err Nat}
    {w w' : Txn.World schema outside} (hwalks : inQuietHours cfg now = false)
    (h : Txn.Solo A t (WaitlistCascade.issue cfg now) w x w') : ∃ i, A .issueCursor i ∧
      let visit := (⟨now, (⟨w.db.view t, w.db.next⟩ : Txn.Snapshot schema).all .entries⟩ : Tick).visit cfg i.cursor
      w'.out.cursors t = visit.2 ∧
      ∃ w1, w1.db = w.db.look t ∧ Txn.Solo A t (WaitlistCascade.offerEach cfg now visit.1 0) w1 x w' := by
  cases h with
  | @call _ _ i _ _ w1 _ _ hi he h =>
    cases he
    cases h with
    | call _ he h =>
      cases he
      cases h with
      | call _ he h =>
        cases he
        have hvisit : ∀ entries, (⟨now, entries⟩ : Tick).visit cfg i.cursor =
            (waitingPairsIn (cfg.zone.dateOf now) i.cursor entries,
              WaitlistCascade.nextCursor (waitingPairsIn (cfg.zone.dateOf now) i.cursor entries)) := fun entries =>
          if_pos (by rw [Tick.walks, hwalks, Bool.not_false])
        refine ⟨i, hi, ?_⟩
        rw [hvisit]
        refine ⟨?_, _, rfl, h⟩
        -- nothing on the way keeps another cursor
        refine h.stored (F := Among [.offer, .queue]) (Φ := fun s => s.cursors t = _) (fun q i n s hq hs => ?_)
          (within_offerEach (by decide) (by decide) cfg now _ _ false) (by simp [serve])
        cases q with
        | keepCursor => exact absurd (hq .keep rfl) (by decide)
        | _ => exact hs

/-! ## Tick after tick -/

def Walked (ticks : Nat → Tick) (cursors : Nat → Option (Int × Nat)) : Prop :=
  ∀ k, cursors (k + 1) = ((ticks k).visit cfg (cursors k)).2

def walksFrom (ticks : Nat → Tick) (a m : Nat) : Nat := Nat.count (fun k => (ticks (a + k)).walks cfg = true) m

theorem walksFrom_succ (ticks : Nat → Tick) (a m : Nat) :
    walksFrom cfg ticks a (m + 1) = (if (ticks a).walks cfg = true then 1 else 0) + walksFrom cfg ticks (a + 1) m := by
  unfold walksFrom
  rw [Nat.count_succ']
  simp only [Nat.add_zero, Nat.add_assoc, Nat.add_comm 1]
  omega

/-- **As many walks as there are pages to the pair bring it up.**  The induction is on the ticks; each walk that misses the
pair comes one page nearer. -/
theorem walked_reaches {ticks : Nat → Tick} {cursors : Nat → Option (Int × Nat)} (hwalked : Walked cfg ticks cursors)
    (hj : j < (inOrder S).length) (m : Nat) :
    ∀ (a i : Nat), (∀ k, k < m → ∀ p, p ∈ S ↔ (ticks (a + k)).Open cfg p) → Passed (inOrder S) (after (cursors a)) i →
      pagesTo ISSUE_BATCH_SIZE S.card i j ≤ walksFrom cfg ticks a m →
        ∃ k, k < m ∧ (inOrder S)[j] ∈ ((ticks (a + k)).visit cfg (cursors (a + k))).1 := by
  induction m with
  | zero =>
    intro a i _ _ hlong
    have hnone : walksFrom cfg ticks a 0 = 0 := Nat.count_zero _
    have hpos := pagesTo_pos ISSUE_BATCH_SIZE S.card i j
    omega
  | succ m ih =>
    intro a i hS hi hlong
    have hS' : ∀ k, k < m → ∀ p, p ∈ S ↔ (ticks (a + 1 + k)).Open cfg p := by
      intro k hk
      have h := hS (k + 1) (Nat.succ_lt_succ hk)
      rwa [← Nat.add_assoc, Nat.add_right_comm] at h
    have hlater : (∃ k, k < m ∧ (inOrder S)[j] ∈ ((ticks (a + 1 + k)).visit cfg (cursors (a + 1 + k))).1) →
        ∃ k, k < m + 1 ∧ (inOrder S)[j] ∈ ((ticks (a + k)).visit cfg (cursors (a + k))).1 := by
      rintro ⟨k, hk, hmem⟩
      refine ⟨k + 1, Nat.succ_lt_succ hk, ?_⟩
      rwa [← Nat.add_assoc, Nat.add_right_comm]
    rw [walksFrom_succ] at hlong
    cases hwalks : (ticks a).walks cfg with
    | false =>
      have hsame : cursors (a + 1) = cursors a := by rw [hwalked a, visit_quiet cfg hwalks]
      rw [hwalks] at hlong
      exact hlater (ih (a + 1) i hS' (hsame ▸ hi) (by simpa using hlong))
    | true =>
      have hnow : ∀ p, p ∈ S ↔ (ticks a).Open cfg p := hS 0 (Nat.succ_pos m)
      obtain ⟨hread, hnext⟩ := visit_page cfg hnow hwalks hi
      by_cases hpage : i ≤ j ∧ j < i + ISSUE_BATCH_SIZE
      · refine ⟨0, Nat.succ_pos m, ?_⟩
        rw [Nat.add_zero, hread]
        have hlt : j - i < (((inOrder S).drop i).take ISSUE_BATCH_SIZE).length := by
          rw [List.length_take, List.length_drop]
          omega
        have hkey : (((inOrder S).drop i).take ISSUE_BATCH_SIZE)[j - i] = (inOrder S)[j] := by
          rw [List.getElem_take, List.getElem_drop]
          congr 1
          omega
        exact hkey ▸ List.getElem_mem hlt
      · rw [hwalks, if_pos rfl] at hlong
        have hnearer := pagesTo_next (by decide : 0 < ISSUE_BATCH_SIZE) (length_inOrder S ▸ hi.1) (length_inOrder S ▸ hj) hpage
        rw [← hwalked a] at hnext
        exact hlater (ih (a + 1) _ hS' hnext (by omega))

/-- **No pair that stands still is passed over**: wherever the cursor starts, of as many walks as the pairs have pages and one
more, one examines it. -/
theorem no_pair_starves {ticks : Nat → Tick} {cursors : Nat → Option (Int × Nat)} (hwalked : Walked cfg ticks cursors)
    {S : Finset (Int × Nat)} (a m : Nat) (hfixed : ∀ k, k < m → ∀ p, p ∈ S ↔ (ticks (a + k)).Open cfg p)
    (hlong : (S.card + ISSUE_BATCH_SIZE - 1) / ISSUE_BATCH_SIZE + 1 ≤ walksFrom cfg ticks a m) {p : Int × Nat} (hp : p ∈ S) :
    ∃ k, k < m ∧ p ∈ ((ticks (a + k)).visit cfg (cursors (a + k))).1 := by
  obtain ⟨j, hj, rfl⟩ := List.mem_iff_getElem.1 (mem_inOrder.2 hp)
  obtain ⟨i, hi⟩ := exists_position S (cursors a)
  have hnear := pagesTo_le (by decide : 0 < ISSUE_BATCH_SIZE) (length_inOrder S ▸ hj) (i := i)
  exact walked_reaches cfg hwalked hj m a i hfixed hi (hnear.trans hlong)

def waitingEntry : WaitlistEntry := ⟨0, 0, none, 5, 1, "+972501234567", .waiting, none, none, none, none⟩
def offeredEntry : WaitlistEntry := ⟨1, 0, none, 5, 1, "+972521234567", .offered, some 0, some 10, some 9, some ⟨7⟩⟩

def gone : Nat → Option (Int × Nat)
  | 0 => some (9, 9)
  | _ + 1 => none

theorem no_pair_starves_alone :
    ∃ k, k < 2 ∧ (5, 1) ∈ ((⟨0, [waitingEntry]⟩ : Tick).visit twoHours (gone (0 + k))).1 := by
  have hwalked : Walked twoHours (fun _ => ⟨0, [waitingEntry]⟩) gone := by
    intro k
    obtain _ | k := k
    · decide
    · have hnone : ((⟨0, [waitingEntry]⟩ : Tick).visit twoHours none).2 = none := by decide
      exact hnone.symm
  refine no_pair_starves twoHours hwalked (S := {(5, 1)}) 0 2 (fun _ _ p => ?_) (by decide) (Finset.mem_singleton_self _)
  rw [Finset.mem_singleton]
  constructor
  · rintro rfl
    exact ⟨by decide, ⟨waitingEntry, List.mem_singleton_self _, by decide, rfl⟩, by decide⟩
  · rintro ⟨-, ⟨w, hw, -, hpair⟩, -⟩
    rw [← hpair, List.mem_singleton.1 hw]
    rfl

def quietDay : Config := ⟨utc, 7200 * Boutique.second, 1800 * Boutique.second, 0, 23⟩

/-- **A pair is not examined while an offer for it stands, nor any pair in the quiet hours**, whatever the cursor. -/
theorem offered_pair_unexamined :
    waitingEntry.waiting = true ∧ waitingEntry.pair = (5, 1) ∧
      (∀ cursor, (5, 1) ∉ ((⟨0, [waitingEntry, offeredEntry]⟩ : Tick).visit twoHours cursor).1) ∧
      (∀ cursor, (5, 1) ∉ ((⟨0, [waitingEntry]⟩ : Tick).visit quietDay cursor).1) := by
  refine ⟨by decide, rfl, fun cursor => ?_, fun cursor => ?_⟩
  · have hwalks : (⟨0, [waitingEntry, offeredEntry]⟩ : Tick).walks twoHours = true := by decide
    unfold Tick.visit
    rw [if_pos hwalks]
    intro hmem
    exact waitingPairs_free hmem (List.mem_cons_of_mem _ (List.mem_singleton_self offeredEntry)) (by decide) rfl
  · rw [visit_quiet quietDay (by decide)]
    exact List.not_mem_nil

end Waitlist

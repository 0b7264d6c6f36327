import Boutique.Binary64
import Mathlib.Data.List.AList
/-!
# RateLimit — the fixed-window limiter, its sweep, and what a caller gets through it

A key's window begins with the first event counted in it.  Buckets that ran out are swept away on other keys' calls, and
no answer tells: a bucket that ran out counts for nothing from then on, whether it is kept or not.  The clock answers doubles,
and how long a window has run is their rounded difference.
-/
namespace RateLimit

open Binary64 (Double sub round_mono sub_mono sub_nonpos sub_exact_or)

variable {κ : Type} [DecidableEq κ]

structure Bucket where
  windowStart : Double
  count : Nat

/-- `max_attempts` and `window_seconds`. -/
structure Config where
  maxAttempts : Nat
  window : Double

abbrev Buckets (κ : Type) : Type := AList fun _ : κ => Bucket

structure State (κ : Type) where
  buckets : Buckets κ
  sweepAt : Nat

def SWEEP_FLOOR : Nat := 1024

def State.fresh : State κ := ⟨∅, SWEEP_FLOOR⟩

variable (cfg : Config)

def current (entry : Option Bucket) (now : Double) : Bucket :=
  let bucket := entry.getD ⟨now, 0⟩
  if cfg.window.units ≤ sub now bucket.windowStart then ⟨now, 0⟩ else bucket

def currentCount (s : State κ) (key : κ) (now : Double) : Bucket := current cfg (s.buckets.lookup key) now

def isBlocked (s : State κ) (key : κ) (now : Double) : Bool := cfg.maxAttempts ≤ (currentCount cfg s key now).count

def keep (p : Bucket → Bool) (buckets : Buckets κ) : Buckets κ :=
  ⟨buckets.entries.filter fun e => p e.2, buckets.nodupKeys.sublist List.filter_sublist⟩

def sweep (buckets : Buckets κ) (now : Double) : State κ :=
  let kept := keep (fun bucket => sub now bucket.windowStart < cfg.window.units) buckets
  ⟨kept, max SWEEP_FLOOR (kept.entries.length * 2)⟩

def recordFailure (s : State κ) (key : κ) (now sweptAt : Double) : State κ :=
  let bucket := currentCount cfg s key now
  let buckets := s.buckets.insert key ⟨bucket.windowStart, bucket.count + 1⟩
  if s.sweepAt < buckets.entries.length then sweep cfg buckets sweptAt else ⟨buckets, s.sweepAt⟩

def reset (s : State κ) (key : κ) : State κ := ⟨s.buckets.erase key, s.sweepAt⟩

/-! ## Calls -/

inductive Call (κ : Type)
  | isBlocked (key : κ) (now : Double)
  | recordFailure (key : κ) (now sweptAt : Double)
  | reset (key : κ)

def InOrder : Double → List (Call κ) → Prop
  | _, [] => True
  | t, .isBlocked _ now :: calls => t ≤ now ∧ InOrder now calls
  | t, .recordFailure _ now sweptAt :: calls => t ≤ now ∧ now ≤ sweptAt ∧ InOrder sweptAt calls
  | t, .reset _ :: calls => InOrder t calls

instance InOrder.decidable : (t : Double) → (calls : List (Call κ)) → Decidable (InOrder t calls)
  | _, [] => .isTrue trivial
  | _, .isBlocked _ now :: calls => @instDecidableAnd _ _ _ (InOrder.decidable now calls)
  | _, .recordFailure _ _ sweptAt :: calls =>
    @instDecidableAnd _ _ _ (@instDecidableAnd _ _ _ (InOrder.decidable sweptAt calls))
  | t, .reset _ :: calls => InOrder.decidable t calls

def step (s : State κ) : Call κ → State κ
  | .isBlocked _ _ => s
  | .recordFailure key now sweptAt => recordFailure cfg s key now sweptAt
  | .reset key => reset s key

def answers (s : State κ) : List (Call κ) → List Bool
  | [] => []
  | .isBlocked key now :: calls => isBlocked cfg s key now :: answers s calls
  | .recordFailure key now sweptAt :: calls => answers (recordFailure cfg s key now sweptAt) calls
  | .reset key :: calls => answers (reset s key) calls

/-! ## The limiter that discards nothing -/

abbrev Hoard (κ : Type) : Type := κ → Option Bucket

namespace Hoard

def recordFailure (h : Hoard κ) (key : κ) (now : Double) : Hoard κ :=
  let bucket := current cfg (h key) now
  Function.update h key (some ⟨bucket.windowStart, bucket.count + 1⟩)

def answers (h : Hoard κ) : List (Call κ) → List Bool
  | [] => []
  | .isBlocked key now :: calls => decide (cfg.maxAttempts ≤ (current cfg (h key) now).count) :: answers h calls
  | .recordFailure key now _ :: calls => answers (recordFailure cfg h key now) calls
  | .reset key :: calls => answers (Function.update h key none) calls

end Hoard

variable {cfg}

/-! ## The same answers -/

def Agree (cfg : Config) (t : Double) (s : State κ) (h : Hoard κ) : Prop :=
  ∀ key now, t ≤ now → currentCount cfg s key now = current cfg (h key) now

variable {t t' now now' sweptAt : Double} {s : State κ} {h : Hoard κ} {key : κ} {calls : List (Call κ)}
  {entry : Option Bucket} {a : Int}

theorem Agree.later (ha : Agree cfg t s h) (hle : t ≤ t') : Agree cfg t' s h :=
  fun key now hnow => ha key now (hle.trans hnow)

theorem agree_fresh (t : Double) : Agree cfg t (State.fresh : State κ) fun _ => none := by
  intro key now _
  show current cfg ((∅ : Buckets κ).lookup key) now = _
  rw [AList.lookup_empty]

/-! ## What ran out stays out -/

theorem current_none (now : Double) : current cfg none now = ⟨now, 0⟩ := by simp [current]

theorem current_some (bucket : Bucket) (now : Double) :
    current cfg (some bucket) now = if cfg.window.units ≤ sub now bucket.windowStart then ⟨now, 0⟩ else bucket := rfl

theorem current_reset {key' : κ} :
    currentCount cfg (reset s key) key' now = if key' = key then ⟨now, 0⟩ else currentCount cfg s key' now := by
  unfold currentCount reset
  by_cases hkey : key' = key
  · rw [if_pos hkey, hkey, AList.lookup_erase, current_none]
  · rw [if_neg hkey, AList.lookup_erase_ne hkey]

theorem expired_mono {start : Double} (h : cfg.window.units ≤ sub now start) (hle : now ≤ now') :
    cfg.window.units ≤ sub now' start :=
  h.trans (sub_mono hle)

theorem lookup_keep {p : Bucket → Bool} {buckets : Buckets κ} :
    (keep p buckets).lookup key = (buckets.lookup key).filter p := by
  ext bucket
  rw [← Option.mem_def, ← Option.mem_def, AList.mem_lookup_iff, Option.mem_filter_iff, AList.mem_lookup_iff]
  exact List.mem_filter

/-- **The sweep is invisible**: from its instant on, every key comes to what it came to before. -/
theorem current_sweep {buckets : Buckets κ} (hle : sweptAt ≤ now) :
    currentCount cfg (sweep cfg buckets sweptAt) key now = current cfg (buckets.lookup key) now := by
  show current cfg ((keep _ buckets).lookup key) now = _
  rw [lookup_keep]
  cases hentry : buckets.lookup key with
  | none => rfl
  | some bucket =>
    by_cases hlive : sub sweptAt bucket.windowStart < cfg.window.units
    · rw [Option.filter_some_pos (by simpa using hlive)]
    · rw [Option.filter_some_neg (by simpa using hlive), current_none, current_some,
        if_pos (expired_mono (not_lt.1 hlive) hle)]

theorem current_recordFailure {key' : κ} (hle : sweptAt ≤ now') :
    currentCount cfg (recordFailure cfg s key now sweptAt) key' now' =
      if key' = key then current cfg (some ⟨(currentCount cfg s key now).windowStart, (currentCount cfg s key now).count + 1⟩) now'
      else currentCount cfg s key' now' := by
  have hinsert : ∀ bucket : Bucket, current cfg ((s.buckets.insert key bucket).lookup key') now' =
      if key' = key then current cfg (some bucket) now' else currentCount cfg s key' now' := by
    intro bucket
    by_cases hkey : key' = key
    · rw [if_pos hkey, hkey, AList.lookup_insert]
    · rw [if_neg hkey, AList.lookup_insert_ne hkey]
      rfl
  refine Eq.trans ?_ (hinsert _)
  simp only [recordFailure]
  split
  · exact current_sweep hle
  · rfl

/-! ## The sweep is invisible in a run -/

theorem Agree.record (ha : Agree cfg t s h) (hnow : t ≤ now) (hswept : now ≤ sweptAt) :
    Agree cfg sweptAt (recordFailure cfg s key now sweptAt) (h.recordFailure cfg key now) := by
  intro key' now' hle
  rw [current_recordFailure hle, ha key now hnow]
  unfold Hoard.recordFailure
  by_cases hkey : key' = key
  · rw [if_pos hkey, hkey, Function.update_self]
  · rw [if_neg hkey, Function.update_of_ne hkey]
    exact ha key' now' (hnow.trans (hswept.trans hle))

theorem Agree.reset (ha : Agree cfg t s h) : Agree cfg t (reset s key) (Function.update h key none) := by
  intro key' now hnow
  rw [current_reset]
  by_cases hkey : key' = key
  · rw [if_pos hkey, hkey, Function.update_self, current_none]
  · rw [if_neg hkey, Function.update_of_ne hkey]
    exact ha key' now hnow

theorem Agree.answers (ha : Agree cfg t s h) (horder : InOrder t calls) :
    answers cfg s calls = h.answers cfg calls := by
  induction calls generalizing t s h with
  | nil => rfl
  | cons call calls ih =>
    cases call with
    | isBlocked key now =>
      obtain ⟨hnow, hrest⟩ := horder
      simp only [RateLimit.answers, Hoard.answers, isBlocked, ha key now hnow]
      rw [ih (ha.later hnow) hrest]
    | recordFailure key now sweptAt =>
      obtain ⟨hnow, hswept, hrest⟩ := horder
      exact ih (ha.record hnow hswept) hrest
    | reset key => exact ih ha.reset horder

/-! ## A caller of one key -/

/-- What happens to a key: a caller's checks and records, and everybody else's calls. -/
inductive Move (κ : Type)
  | check (now : Double)
  | charge (now sweptAt : Double)
  | other (call : Call κ)

def Move.call (key : κ) : Move κ → Call κ
  | .check now => .isBlocked key now
  | .charge now sweptAt => .recordFailure key now sweptAt
  | .other call => call

variable (cfg) in
/-- **A caller that records after each check that let it through**; `owing`: it has been let through and not yet recorded. -/
def Records (key : κ) : State κ → Bool → List (Move κ) → Prop
  | _, _, [] => True
  | s, owing, .check now :: moves => owing = false ∧ Records key s (!isBlocked cfg s key now) moves
  | s, _, .charge now sweptAt :: moves => Records key (recordFailure cfg s key now sweptAt) false moves
  | s, owing, .other call :: moves => Records key (step cfg s call) owing moves

instance Records.decidable (cfg : Config) (key : κ) :
    (s : State κ) → (owing : Bool) → (moves : List (Move κ)) → Decidable (Records cfg key s owing moves)
  | _, _, [] => .isTrue trivial
  | s, _, .check now :: moves => @instDecidableAnd _ _ _ (Records.decidable cfg key s (!isBlocked cfg s key now) moves)
  | s, _, .charge now sweptAt :: moves => Records.decidable cfg key (recordFailure cfg s key now sweptAt) false moves
  | s, owing, .other call :: moves => Records.decidable cfg key (step cfg s call) owing moves

variable (cfg) in
def admissions (key : κ) : State κ → List (Move κ) → List Double
  | _, [] => []
  | s, .check now :: moves =>
    if isBlocked cfg s key now then admissions key s moves else now :: admissions key s moves
  | s, .charge now sweptAt :: moves => admissions key (recordFailure cfg s key now sweptAt) moves
  | s, .other call :: moves => admissions key (step cfg s call) moves

/-! ## One key's entry -/

def Bucket.counted (bucket : Bucket) : Bucket := ⟨bucket.windowStart, bucket.count + 1⟩

def Follows (cfg : Config) (key : κ) (t : Double) (s : State κ) (entry : Option Bucket) : Prop :=
  ∀ now, t ≤ now → currentCount cfg s key now = current cfg entry now

def Out (cfg : Config) (entry : Option Bucket) (now : Double) : Prop :=
  ∀ bucket, entry = some bucket → cfg.window.units ≤ sub now bucket.windowStart

theorem current_out (h : Out cfg entry now) : current cfg entry now = ⟨now, 0⟩ := by
  cases entry with
  | none => exact current_none now
  | some bucket => rw [current_some, if_pos (h bucket rfl)]

theorem current_in {bucket : Bucket} (h : sub now bucket.windowStart < cfg.window.units) :
    current cfg (some bucket) now = bucket := by
  rw [current_some, if_neg (not_le.2 h)]

theorem out_or_in (cfg : Config) (entry : Option Bucket) (now : Double) :
    Out cfg entry now ∨ ∃ bucket, entry = some bucket ∧ sub now bucket.windowStart < cfg.window.units := by
  cases entry with
  | none => exact .inl nofun
  | some bucket =>
    by_cases h : sub now bucket.windowStart < cfg.window.units
    · exact .inr ⟨bucket, rfl, h⟩
    · refine .inl fun b hb => ?_
      cases hb
      exact not_lt.1 h

theorem Out.later (h : Out cfg entry now) (hle : now ≤ now') :
    Out cfg entry now' := fun bucket hbucket => expired_mono (h bucket hbucket) hle

theorem step_entry {call : Call κ} (hf : Follows cfg key t s entry) (horder : InOrder t (call :: calls))
    (hreset : call ≠ .reset key) :
    ∃ t' entry', t ≤ t' ∧ InOrder t' calls ∧ Follows cfg key t' (step cfg s call) entry' ∧
      (entry' = entry ∨ ∃ r, t ≤ r ∧ r ≤ t' ∧ entry' = some (current cfg entry r).counted) := by
  cases call with
  | isBlocked key' now =>
    obtain ⟨hnow, hrest⟩ := horder
    exact ⟨now, entry, hnow, hrest, fun now' h => hf now' (hnow.trans h), .inl rfl⟩
  | recordFailure key' now sweptAt =>
    obtain ⟨hnow, hswept, hrest⟩ := horder
    by_cases hkey : key = key'
    · subst hkey
      refine ⟨sweptAt, _, hnow.trans hswept, hrest, fun now' h => ?_, .inr ⟨now, hnow, hswept, rfl⟩⟩
      rw [step, current_recordFailure h, if_pos rfl, hf now hnow]
      rfl
    · refine ⟨sweptAt, entry, hnow.trans hswept, hrest, fun now' h => ?_, .inl rfl⟩
      rw [step, current_recordFailure h, if_neg hkey]
      exact hf now' (hnow.trans (hswept.trans h))
  | reset key' =>
    have hkey : key ≠ key' := fun heq => hreset (heq ▸ rfl)
    refine ⟨t, entry, le_refl t, horder, fun now' h => ?_, .inl rfl⟩
    rw [step, current_reset, if_neg hkey]
    exact hf now' h

theorem charge_entry (sweptAt : Double) (hf : Follows cfg key t s entry) (hnow : t ≤ now) :
    Follows cfg key sweptAt (recordFailure cfg s key now sweptAt) (some (current cfg entry now).counted) := by
  intro now' h
  rw [current_recordFailure h, if_pos rfl, hf now hnow]
  rfl

/-! ## How often a caller is let through -/

def Unreset (key : κ) (moves : List (Move κ)) : Prop := ∀ move ∈ moves, move.call key ≠ .reset key

theorem isBlocked_eq (hf : Follows cfg key t s entry) (hnow : t ≤ now) :
    isBlocked cfg s key now = decide (cfg.maxAttempts ≤ (current cfg entry now).count) := by
  rw [isBlocked, hf now hnow]

theorem admissions_after {moves : List (Move κ)} :
    ∀ {t : Double} {s : State κ}, InOrder t (moves.map (Move.call key)) → ∀ now ∈ admissions cfg key s moves, t ≤ now := by
  induction moves with
  | nil => exact fun _ _ h => absurd h List.not_mem_nil
  | cons move moves ih =>
    intro t s horder now hnow
    cases move with
    | check now' =>
      obtain ⟨hle, hrest⟩ := horder
      simp only [admissions] at hnow
      split at hnow
      · exact hle.trans (ih hrest now hnow)
      · rcases List.mem_cons.1 hnow with rfl | hnow
        · exact hle
        · exact hle.trans (ih hrest now hnow)
    | charge now' sweptAt =>
      obtain ⟨hle, hswept, hrest⟩ := horder
      exact hle.trans (hswept.trans (ih hrest now hnow))
    | other call =>
      cases call with
      | isBlocked key' now' => exact horder.1.trans (ih horder.2 now hnow)
      | recordFailure key' now' sweptAt => exact horder.1.trans (horder.2.1.trans (ih horder.2.2 now hnow))
      | reset key' => exact ih horder now hnow

theorem none_later {U : Double → Bool} (hU : ∀ x y, x ≤ y → U y = true → U x = true) {moves : List (Move κ)}
    (horder : InOrder t (moves.map (Move.call key))) (ht : U t = false) :
    (admissions cfg key s moves).filter U = [] := by
  rw [List.filter_eq_nil_iff]
  intro now hnow hin
  rw [hU t now (admissions_after horder now hnow) hin] at ht
  cases ht

/-- **One window.**  While one window runs, with `c` events counted in it at least, the caller has `maxAttempts - c` left. -/
theorem window_bound {U : Double → Bool} (hU : ∀ x y, x ≤ y → U y = true → U x = true) {moves : List (Move κ)} :
    ∀ {t : Double} {s : State κ} {entry : Option Bucket} {c : Nat} {owing : Bool}, Follows cfg key t s entry →
      InOrder t (moves.map (Move.call key)) → Unreset key moves → Records cfg key s owing moves →
      (∀ now, t ≤ now → U now = true →
        ∃ bucket, entry = some bucket ∧ sub now bucket.windowStart < cfg.window.units ∧ c ≤ bucket.count) →
      c + owing.toNat ≤ cfg.maxAttempts →
      c + owing.toNat + ((admissions cfg key s moves).filter U).length ≤ cfg.maxAttempts := by
  induction moves with
  | nil => exact fun _ _ _ _ _ hc => by simpa [admissions] using hc
  | cons move moves ih =>
    intro t s entry c owing hf horder hreset hrecords hruns hc
    have hreset' : Unreset key moves := fun m hm => hreset m (List.mem_cons_of_mem _ hm)
    -- an event counted leaves the window running
    have hcounted : ∀ r t', t ≤ r → r ≤ t' → ∀ now, t' ≤ now → U now = true →
        ∃ bucket, some (current cfg entry r).counted = some bucket ∧ sub now bucket.windowStart < cfg.window.units ∧
          c + 1 ≤ bucket.count := by
      intro r t' hr hrt now hnow hin
      obtain ⟨bucket, rfl, hrun, hcount⟩ := hruns now (hr.trans (hrt.trans hnow)) hin
      have hrun' : sub r bucket.windowStart < cfg.window.units := lt_of_le_of_lt (sub_mono (hrt.trans hnow)) hrun
      rw [current_in hrun']
      exact ⟨_, rfl, hrun, Nat.succ_le_succ hcount⟩
    cases move with
    | check now =>
      obtain ⟨hnow, hrest⟩ := horder
      obtain ⟨rfl, hrecords⟩ := hrecords
      have hf' : Follows cfg key now s entry := fun now' h => hf now' (hnow.trans h)
      have hruns' : ∀ now', now ≤ now' → U now' = true →
          ∃ bucket, entry = some bucket ∧ sub now' bucket.windowStart < cfg.window.units ∧ c ≤ bucket.count :=
        fun now' h => hruns now' (hnow.trans h)
      have hanswer := isBlocked_eq hf hnow
      simp only [admissions]
      cases hblocked : isBlocked cfg s key now with
      | true =>
        rw [hblocked] at hrecords
        exact ih hf' hrest hreset' hrecords hruns' hc
      | false =>
        rw [hblocked] at hrecords hanswer
        by_cases hin : U now = true
        · obtain ⟨bucket, rfl, hrun, hcount⟩ := hruns now hnow hin
          rw [current_in hrun] at hanswer
          have hroom : bucket.count < cfg.maxAttempts := not_le.1 (of_decide_eq_false hanswer.symm)
          have hrest' := @ih _ _ _ _ true hf' hrest hreset' hrecords hruns' (Nat.lt_of_le_of_lt hcount hroom)
          simp only [Bool.false_eq_true, if_false, List.filter_cons, hin, if_true, List.length_cons, Bool.toNat_true,
            Bool.toNat_false] at hrest' ⊢
          omega
        · have hout : U now = false := by simpa using hin
          simp only [Bool.false_eq_true, if_false, List.filter_cons, hout, none_later hU hrest hout, List.length_nil]
          exact hc
    | charge now sweptAt =>
      obtain ⟨hnow, hswept, hrest⟩ := horder
      have hf' := charge_entry sweptAt hf hnow
      cases owing with
      | true =>
        have h := ih (c := c + 1) hf' hrest hreset' hrecords (hcounted now sweptAt hnow hswept) hc
        simpa [admissions] using h
      | false =>
        refine ih hf' hrest hreset' hrecords (fun now' h hin => ?_) hc
        obtain ⟨bucket, hbucket, hrun, hcount⟩ := hcounted now sweptAt hnow hswept now' h hin
        exact ⟨bucket, hbucket, hrun, Nat.le_of_succ_le hcount⟩
    | other call =>
      obtain ⟨t', entry', ht, hrest, hf', hentry⟩ := step_entry hf horder (hreset _ List.mem_cons_self)
      refine ih hf' hrest hreset' hrecords (fun now h hin => ?_) hc
      rcases hentry with rfl | ⟨r, hr, hrt, rfl⟩
      · exact hruns now (ht.trans h) hin
      · obtain ⟨bucket, hbucket, hrun, hcount⟩ := hcounted r t' hr hrt now h hin
        exact ⟨bucket, hbucket, hrun, Nat.le_of_succ_le hcount⟩

/-! ## The time of a window -/

def Dated (entry : Option Bucket) : Prop := ∀ bucket, entry = some bucket → 0 ≤ bucket.windowStart.units

theorem current_dated (h : Dated entry) (hnow : 0 ≤ now.units) : 0 ≤ (current cfg entry now).windowStart.units := by
  rcases out_or_in cfg entry now with hout | ⟨bucket, rfl, hrun⟩
  · rw [current_out hout]
    exact hnow
  · rw [current_in hrun]
    exact h bucket rfl

theorem counted_dated (h : Dated entry) (hnow : 0 ≤ now.units) : Dated (some (current cfg entry now).counted) := by
  rintro bucket hbucket
  cases hbucket
  exact current_dated h hnow

theorem step_dated {call : Call κ} (ht : 0 ≤ t.units) (horder : InOrder t (call :: calls))
    (h : ∀ key, Dated (s.buckets.lookup key)) (key : κ) : Dated ((step cfg s call).buckets.lookup key) := by
  have hinsert : ∀ (key' : κ) (now : Double), t ≤ now →
      Dated ((s.buckets.insert key' (currentCount cfg s key' now).counted).lookup key) := by
    intro key' now hnow
    have hnow : t.units ≤ now.units := hnow
    by_cases hkey : key = key'
    · rw [hkey, AList.lookup_insert]
      exact counted_dated (h key') (ht.trans hnow)
    · rw [AList.lookup_insert_ne hkey]
      exact h key
  cases call with
  | isBlocked key' now => exact h key
  | recordFailure key' now sweptAt =>
    simp only [step, recordFailure]
    split
    · intro bucket hbucket
      have hkept : (keep _ _).lookup key = some bucket := hbucket
      rw [lookup_keep] at hkept
      exact hinsert key' now horder.1 bucket (Option.filter_eq_some_iff.1 hkept).1
    · exact hinsert key' now horder.1
  | reset key' =>
    intro bucket hbucket
    by_cases hkey : key = key'
    · rw [hkey, step, reset, AList.lookup_erase] at hbucket
      cases hbucket
    · rw [step, reset, AList.lookup_erase_ne hkey] at hbucket
      exact h key bucket hbucket

/-- **One window seen since `a`**: `m` of the caller's records since then are counted in it. -/
structure OneWindow (cfg : Config) (a : Int) (t : Double) (entry : Option Bucket) (m : Nat) (owing : Bool) : Prop where
  nonneg : 0 ≤ t.units
  begun : a ≤ t.units
  dated : Dated entry
  some_ : 1 ≤ cfg.maxAttempts
  room : m ≤ cfg.maxAttempts
  next : owing = true → m + 1 ≤ cfg.maxAttempts ∨ Out cfg entry t
  counted : m = 0 ∨ ∃ bucket, entry = some bucket ∧ m ≤ bucket.count ∧
    Binary64.round (a - bucket.windowStart.units) < cfg.window.units

def upTo (cfg : Config) (a : Int) : Double → Bool := fun now => decide (now.units ≤ a + cfg.window.units)

theorem upTo_down : ∀ x y, x ≤ y → upTo cfg a y = true → upTo cfg a x = true := by
  intro x y hle hy
  have hle : x.units ≤ y.units := hle
  exact decide_eq_true (hle.trans (of_decide_eq_true hy))

/-- A window begun when an earlier one had run out. -/
structure Second (cfg : Config) (a : Int) (r : Double) : Prop where
  after_ : a < r.units
  far : ∃ start : Double, 0 ≤ start.units ∧ cfg.window.units ≤ sub r start

/-- **The rounding ends no window early**: were the difference rounded up to the window's length, the second window would
have begun before a first could have run out. -/
theorem Second.runs {r : Double} (hW : 0 < cfg.window.units) (h : Second cfg a r) (hin : upTo cfg a now = true) :
    sub now r < cfg.window.units := by
  have hnow : now.units ≤ a + cfg.window.units := of_decide_eq_true hin
  obtain ⟨hafter, start, hstart, hfar⟩ := h
  rcases le_total now r with hle | hle
  · exact lt_of_le_of_lt (sub_nonpos hle) hW
  · have hlate : start.units < r.units := by
      by_contra hnot
      have hnone := sub_nonpos (x := r) (y := start) (not_lt.1 hnot)
      omega
    rcases sub_exact_or (by omega : 0 ≤ r.units) hle with hexact | hbelow
    · rw [hexact]
      omega
    · have hshort : sub r start ≤ r.units :=
        (round_mono (by omega : r.units - start.units ≤ r.units)).trans_eq (Binary64.round_of_fits r.fits)
      omega

/-- **What an event counted makes of the one window**: it is counted there, or begins a second one. -/
theorem OneWindow.event {r : Double} {m : Nat} {owing : Bool} (hW : 0 < cfg.window.units)
    (h : OneWindow cfg a t entry m owing) (hr : t ≤ r) (hrt : r ≤ t') :
    (OneWindow cfg a t' (some (current cfg entry r).counted) m owing ∧
      OneWindow cfg a t' (some (current cfg entry r).counted) (m + owing.toNat) false) ∨
    (current cfg entry r = ⟨r, 0⟩ ∧ Second cfg a r) := by
  have hr' : t.units ≤ r.units := hr
  have hrt' : r.units ≤ t'.units := hrt
  have hnonneg := h.nonneg
  have hbegun := h.begun
  have ha : a ≤ t'.units := by omega
  have hdated : Dated (some (current cfg entry r).counted) := counted_dated h.dated (by omega)
  rcases out_or_in cfg entry r with hout | ⟨bucket, rfl, hrun⟩
  · rw [current_out hout] at hdated ⊢
    rcases h.counted with rfl | ⟨bucket, rfl, hcount, hbefore⟩
    · -- none of its records is counted yet, so this is still the first window
      have hstart : Binary64.round (a - r.units) < cfg.window.units :=
        lt_of_le_of_lt (round_mono (by omega : a - r.units ≤ 0)) hW
      have hone : 0 + owing.toNat ≤ 1 := by cases owing <;> decide
      refine .inl ⟨⟨by omega, ha, hdated, h.some_, h.room, fun _ => .inl h.some_, .inl rfl⟩, by omega, ha, hdated, h.some_,
        hone.trans h.some_, nofun, .inr ?_⟩
      exact ⟨_, rfl, hone, hstart⟩
    · refine .inr ⟨rfl, ?_, bucket.windowStart, h.dated bucket rfl, hout bucket rfl⟩
      by_contra hnot
      have hle := round_mono (by omega : r.units - bucket.windowStart.units ≤ a - bucket.windowStart.units)
      have hexpired : cfg.window.units ≤ Binary64.round (r.units - bucket.windowStart.units) := hout bucket rfl
      omega
  · rw [current_in hrun] at hdated ⊢
    have hbefore : Binary64.round (a - bucket.windowStart.units) < cfg.window.units :=
      lt_of_le_of_lt (round_mono (by omega : a - bucket.windowStart.units ≤ r.units - bucket.windowStart.units)) hrun
    have hcount : m ≤ bucket.count := by
      rcases h.counted with rfl | ⟨b, hb, hcount, -⟩
      · exact Nat.zero_le _
      · cases hb
        exact hcount
    have hroom : owing = true → m + 1 ≤ cfg.maxAttempts := fun howing =>
      (h.next howing).resolve_right fun hout => absurd (hout.later hr bucket rfl) (not_le.2 hrun)
    refine .inl ⟨⟨by omega, ha, hdated, h.some_, h.room, fun howing => .inl (hroom howing),
      .inr ⟨_, rfl, Nat.le_succ_of_le hcount, hbefore⟩⟩, by omega, ha, hdated, h.some_, ?_, nofun, .inr ⟨_, rfl, ?_, hbefore⟩⟩
    · cases owing with
      | true => exact hroom rfl
      | false => exact h.room
    · show m + owing.toNat ≤ bucket.count + 1
      have hone : owing.toNat ≤ 1 := by cases owing <;> decide
      omega

theorem OneWindow.again {m : Nat} {owing owing' : Bool} (h : OneWindow cfg a t entry m owing) (hle : t ≤ t')
    (hnext : owing' = true → m + 1 ≤ cfg.maxAttempts ∨ Out cfg entry t') : OneWindow cfg a t' entry m owing' :=
  have hle : t.units ≤ t'.units := hle
  ⟨h.nonneg.trans hle, h.begun.trans hle, h.dated, h.some_, h.room, hnext, h.counted⟩

/-- **Two windows.**  From the caller's first admission on, an interval one window long meets two windows at most. -/
theorem two_windows (hW : 0 < cfg.window.units) {moves : List (Move κ)} :
    ∀ {t : Double} {s : State κ} {entry : Option Bucket} {m : Nat} {owing : Bool}, Follows cfg key t s entry →
      InOrder t (moves.map (Move.call key)) → Unreset key moves → Records cfg key s owing moves →
      OneWindow cfg a t entry m owing →
      m + owing.toNat + ((admissions cfg key s moves).filter (upTo cfg a)).length ≤ 2 * cfg.maxAttempts := by
  induction moves with
  | nil =>
    intro t s entry m owing _ _ _ _ hone
    have hroom := hone.room
    have hsome := hone.some_
    have hle : owing.toNat ≤ 1 := by cases owing <;> decide
    simp only [admissions, List.filter_nil, List.length_nil]
    omega
  | cons move moves ih =>
    intro t s entry m owing hf horder hreset hrecords hone
    have hroom := hone.room
    have hsome := hone.some_
    have hreset' : Unreset key moves := fun m hm => hreset m (List.mem_cons_of_mem _ hm)
    cases move with
    | check now =>
      obtain ⟨hnow, hrest⟩ := horder
      obtain ⟨rfl, hrecords⟩ := hrecords
      have hf' : Follows cfg key now s entry := fun now' h => hf now' (hnow.trans h)
      have hanswer := isBlocked_eq hf hnow
      simp only [admissions]
      cases hblocked : isBlocked cfg s key now with
      | true =>
        rw [hblocked] at hrecords
        exact ih hf' hrest hreset' hrecords (hone.again hnow nofun)
      | false =>
        rw [hblocked] at hrecords hanswer
        by_cases hin : upTo cfg a now = true
        · have hnext : m + 1 ≤ cfg.maxAttempts ∨ Out cfg entry now := by
            rcases out_or_in cfg entry now with hout | ⟨bucket, rfl, hrun⟩
            · exact .inr hout
            · rw [current_in hrun] at hanswer
              have hlt : bucket.count < cfg.maxAttempts := not_le.1 (of_decide_eq_false hanswer.symm)
              rcases hone.counted with rfl | ⟨b, hb, hcount, -⟩
              · exact .inl hsome
              · cases hb
                exact .inl (Nat.lt_of_le_of_lt hcount hlt)
          have h := @ih _ _ _ _ true hf' hrest hreset' hrecords (hone.again hnow fun _ => hnext)
          simp only [Bool.false_eq_true, if_false, List.filter_cons, hin, if_true, List.length_cons, Bool.toNat_true,
            Bool.toNat_false] at h ⊢
          omega
        · have hout : upTo cfg a now = false := by simpa using hin
          simp only [Bool.false_eq_true, if_false, List.filter_cons, hout, none_later upTo_down hrest hout, List.length_nil,
            Bool.toNat_false]
          omega
    | charge now sweptAt =>
      obtain ⟨hnow, hswept, hrest⟩ := horder
      have hf' := charge_entry sweptAt hf hnow
      rcases hone.event hW hnow hswept with ⟨-, hone'⟩ | ⟨hcurrent, hafter⟩
      · simpa [admissions] using ih hf' hrest hreset' hrecords hone'
      · rw [hcurrent] at hf'
        have h := window_bound (c := owing.toNat) upTo_down hf' hrest hreset' hrecords (fun now' _ hin => ⟨_, rfl,
          hafter.runs hW hin, by cases owing <;> simp [Bucket.counted]⟩) (by cases owing <;> simp [hsome])
        simp only [admissions, Bool.toNat_false] at h ⊢
        omega
    | other call =>
      obtain ⟨t', entry', ht, hrest, hf', hentry⟩ := step_entry hf horder (hreset _ List.mem_cons_self)
      rcases hentry with rfl | ⟨r, hr, hrt, rfl⟩
      · exact ih hf' hrest hreset' hrecords
          (hone.again ht fun howing => (hone.next howing).imp id fun hout => hout.later ht)
      · rcases hone.event hW hr hrt with ⟨hone', -⟩ | ⟨hcurrent, hafter⟩
        · exact ih hf' hrest hreset' hrecords hone'
        · rw [hcurrent] at hf'
          have h := window_bound (c := 0) upTo_down hf' hrest hreset' hrecords (fun now' _ hin => ⟨_, rfl,
            hafter.runs hW hin, Nat.zero_le _⟩) (by cases owing <;> simp [hsome])
          simp only [admissions, Move.call] at h ⊢
          omega

def within (cfg : Config) (a : Int) : Double → Bool := fun now => decide (a ≤ now.units) && upTo cfg a now

theorem interval_bound (hW : 0 < cfg.window.units) {moves : List (Move κ)} :
    ∀ {t : Double} {s : State κ} {entry : Option Bucket} {owing : Bool}, 0 ≤ t.units → Dated entry → Follows cfg key t s entry →
      InOrder t (moves.map (Move.call key)) → Unreset key moves → Records cfg key s owing moves →
      ((admissions cfg key s moves).filter (within cfg a)).length ≤ 2 * cfg.maxAttempts := by
  induction moves with
  | nil => exact fun _ _ _ _ _ _ => Nat.zero_le _
  | cons move moves ih =>
    intro t s entry owing ht hdated hf horder hreset hrecords
    have hreset' : Unreset key moves := fun m hm => hreset m (List.mem_cons_of_mem _ hm)
    have hlater : ∀ {t' : Double}, t ≤ t' → 0 ≤ t'.units := fun {t'} hle => ht.trans (show t.units ≤ t'.units from hle)
    cases move with
    | check now =>
      obtain ⟨hnow, hrest⟩ := horder
      obtain ⟨rfl, hrecords⟩ := hrecords
      have hf' : Follows cfg key now s entry := fun now' h => hf now' (hnow.trans h)
      have hanswer := isBlocked_eq hf hnow
      simp only [admissions]
      cases hblocked : isBlocked cfg s key now with
      | true => exact ih (hlater hnow) hdated hf' hrest hreset' (by rwa [hblocked] at hrecords)
      | false =>
        rw [hblocked] at hrecords hanswer
        by_cases hin : within cfg a now = true
        · obtain ⟨ha, hup⟩ := Bool.and_eq_true_iff.1 hin
          have hsome : 1 ≤ cfg.maxAttempts := by
            have := not_le.1 (of_decide_eq_false hanswer.symm)
            omega
          -- the first admission of the interval
          have hone : OneWindow cfg a now entry 0 true :=
            ⟨hlater hnow, of_decide_eq_true ha, hdated, hsome, Nat.zero_le _, fun _ => .inl hsome, .inl rfl⟩
          have h := two_windows hW hf' hrest hreset' hrecords hone
          have hcongr : (admissions cfg key s moves).filter (within cfg a) =
              (admissions cfg key s moves).filter (upTo cfg a) := List.filter_congr fun x hx => by
            have hx : now.units ≤ x.units := admissions_after hrest x hx
            rw [within, decide_eq_true ((of_decide_eq_true ha).trans hx), Bool.true_and]
          simp only [Bool.false_eq_true, if_false, List.filter_cons, hin, if_true, List.length_cons, hcongr,
            Bool.not_false, Bool.toNat_true] at h ⊢
          omega
        · simp only [Bool.false_eq_true, if_false, List.filter_cons, hin]
          exact ih (hlater hnow) hdated hf' hrest hreset' hrecords
    | charge now sweptAt =>
      obtain ⟨hnow, hswept, hrest⟩ := horder
      exact ih (hlater (hnow.trans hswept)) (counted_dated hdated (hlater hnow)) (charge_entry _ hf hnow) hrest hreset' hrecords
    | other call =>
      obtain ⟨t', entry', ht', hrest, hf', hentry⟩ := step_entry hf horder (hreset _ List.mem_cons_self)
      refine ih (hlater ht') ?_ hf' hrest hreset' hrecords
      rcases hentry with rfl | ⟨r, hr, -, rfl⟩
      · exact hdated
      · exact counted_dated hdated (hlater hr)

/-! ## The limiter -/

def after (cfg : Config) (calls : List (Call κ)) : State κ := calls.foldl (step cfg) State.fresh

theorem inOrder_append (cfg : Config) {rest : List (Call κ)} : ∀ {t : Double} (s : State κ), InOrder t (calls ++ rest) →
    ∃ t', t ≤ t' ∧ InOrder t' rest ∧ (0 ≤ t.units → (∀ key, Dated (s.buckets.lookup key)) →
      ∀ key, Dated ((calls.foldl (step cfg) s).buckets.lookup key)) := by
  induction calls with
  | nil => exact fun s h => ⟨_, le_refl _, h, fun _ hs => hs⟩
  | cons call calls ih =>
    intro t s h
    have hnext : ∃ t1, t ≤ t1 ∧ InOrder t1 (calls ++ rest) := by
      cases call with
      | isBlocked key now => exact ⟨now, h.1, h.2⟩
      | recordFailure key now sweptAt => exact ⟨sweptAt, h.1.trans h.2.1, h.2.2⟩
      | reset key => exact ⟨t, le_refl t, h⟩
    obtain ⟨t1, ht1, hcalls⟩ := hnext
    obtain ⟨t', ht', hrest, hdated⟩ := ih (step cfg s call) hcalls
    have hle : t.units ≤ t1.units := ht1
    exact ⟨t', ht1.trans ht', hrest, fun ht hs => hdated (ht.trans hle) fun key => step_dated ht h hs key⟩

theorem admissions_none (h : cfg.maxAttempts = 0) (moves : List (Move κ)) :
    ∀ s : State κ, admissions cfg key s moves = [] := by
  induction moves with
  | nil => exact fun _ => rfl
  | cons move moves ih =>
    intro s
    cases move with
    | check now => simp [admissions, isBlocked, h, ih]
    | charge now sweptAt => exact ih _
    | other call => exact ih _

/-- **The sweep is invisible, and a caller that pays for what it is let through is bounded.**  The answers are those of a
limiter that discards nothing.  On a clock that is never negative, over any stretch of calls that does not reset the key, the
caller is let through at most twice `maxAttempts` times within one window's length; and on any clock a window lets it through
at most `maxAttempts - 1` times after the event that began it. -/
theorem limiter_bounds (cfg : Config) (t₀ : Double) :
    (∀ calls : List (Call κ), InOrder t₀ calls → answers cfg State.fresh calls = Hoard.answers cfg (fun _ => none) calls) ∧
    (0 ≤ t₀.units → ∀ (key : κ) (before : List (Call κ)) (moves : List (Move κ)),
      InOrder t₀ (before ++ moves.map (Move.call key)) → Unreset key moves → Records cfg key (after cfg before) false moves →
      (∀ a, ((admissions cfg key (after cfg before) moves).filter fun now =>
        a ≤ now.units ∧ now.units < a + cfg.window.units).length ≤ 2 * cfg.maxAttempts) ∧
      (0 < cfg.window.units → ∀ a, ((admissions cfg key (after cfg before) moves).filter fun now =>
        a ≤ now.units ∧ now.units ≤ a + cfg.window.units).length ≤ 2 * cfg.maxAttempts)) ∧
    ∀ (key : κ) (before : List (Call κ)) (start sweptAt : Double) (owing : Bool) (moves : List (Move κ)),
      InOrder t₀ (before ++ .recordFailure key start sweptAt :: moves.map (Move.call key)) →
      currentCount cfg (after cfg before) key start = ⟨start, 0⟩ → Unreset key moves →
      Records cfg key (recordFailure cfg (after cfg before) key start sweptAt) owing moves →
      ((admissions cfg key (recordFailure cfg (after cfg before) key start sweptAt) moves).filter fun now =>
        sub now start < cfg.window.units).length ≤ cfg.maxAttempts - 1 := by
  refine ⟨fun calls horder => (agree_fresh t₀).answers horder, fun ht0 key before moves horder hreset hrecords => ?_, ?_⟩
  · obtain ⟨t, ht, hrest, hdated⟩ := inOrder_append cfg State.fresh horder
    have ht : t₀.units ≤ t.units := ht
    have hf : Follows cfg key t (after cfg before) ((after cfg before).buckets.lookup key) := fun _ _ => rfl
    have hentry : Dated ((after cfg before).buckets.lookup key) := by
      refine hdated ht0 (fun key bucket hbucket => ?_) key
      rw [State.fresh, AList.lookup_empty] at hbucket
      cases hbucket
    have hclosed : 0 < cfg.window.units → ∀ a, ((admissions cfg key (after cfg before) moves).filter fun now =>
        a ≤ now.units ∧ now.units ≤ a + cfg.window.units).length ≤ 2 * cfg.maxAttempts := by
      intro hW a
      have hsame : (fun now : Double => decide (a ≤ now.units ∧ now.units ≤ a + cfg.window.units)) = within cfg a := by
        funext now
        simp [within, upTo]
      rw [hsame]
      exact interval_bound hW (ht0.trans ht) hentry hf hrest hreset hrecords
    refine ⟨fun a => ?_, hclosed⟩
    by_cases hW : 0 < cfg.window.units
    · refine le_trans (List.Sublist.length_le (List.monotone_filter_right _ fun now hin => ?_)) (hclosed hW a)
      obtain ⟨ha, hlt⟩ := of_decide_eq_true hin
      exact decide_eq_true ⟨ha, hlt.le⟩
    · rw [List.filter_eq_nil_iff.2 fun now _ hin => ?_]
      · exact Nat.zero_le _
      · obtain ⟨ha, hlt⟩ := of_decide_eq_true hin
        omega
  · intro key before start sweptAt owing moves horder hopens hreset hrecords
    obtain ⟨t, -, ⟨-, hswept, hrest⟩, -⟩ := inOrder_append cfg State.fresh horder
    by_cases hnone : cfg.maxAttempts = 0
    · rw [admissions_none hnone]
      exact Nat.zero_le _
    · have hf : Follows cfg key sweptAt (recordFailure cfg (after cfg before) key start sweptAt) (some ⟨start, 1⟩) := by
        intro now h
        rw [current_recordFailure h, if_pos rfl, hopens]
      have hdown : ∀ x y, x ≤ y → decide (sub y start < cfg.window.units) = true →
          decide (sub x start < cfg.window.units) = true :=
        fun x y hle hy => decide_eq_true (lt_of_le_of_lt (sub_mono hle) (of_decide_eq_true hy))
      have h := window_bound (c := 1 - owing.toNat) hdown hf hrest hreset hrecords
        (fun now _ hin => ⟨_, rfl, of_decide_eq_true hin, Nat.sub_le _ _⟩)
        (by cases owing <;> simp only [Bool.toNat_true, Bool.toNat_false] <;> omega)
      omega

/-! ## Seconds and their fractions -/

def minute : Config := ⟨1, .ofParts 60 1074 (by decide)⟩

def early : Double := .ofParts 5404319552844595 1020 (by decide)
def late : Double := .ofParts 8486470547826278 1027 (by decide)

/-- A little less than a minute apart, and a minute as the processor counts. -/
example : late.units - early.units < minute.window.units ∧ sub late early = minute.window.units := by decide +kernel

def twice : List (Move Nat) := [.check early, .charge early early, .check late, .charge late late]

theorem limiter_bounds_twice : ((admissions minute 7 (after minute []) twice).filter fun now =>
    early.units ≤ now.units ∧ now.units < early.units + minute.window.units).length ≤ 2 :=
  ((limiter_bounds minute early).2.1 (by decide +kernel) 7 [] twice (by decide +kernel) (by simp [Unreset, twice, Move.call])
    (by decide +kernel)).1 early.units

/-! ## A reset, and a clock below zero, let a caller through again -/

def pardoned : List (Move Nat) :=
  [.check early, .charge early early, .other (.reset 7), .check early, .charge early early, .other (.reset 7), .check early]

def pair : Config := ⟨2, .ofParts 60 1074 (by decide)⟩

/-- A minute before zero, two instants just before it, and one a minute later but for 2^-47 seconds. -/
def dawn : Double := .ofParts (-60) 1074 (by decide)
def before : Double := .ofParts (-4503599627370497) 974 (by decide)
def begun : Double := .ofParts (-4503599627370496) 974 (by decide)
def nearly : Double := .ofParts 8444249301319679 1027 (by decide)

/-- Once in the window begun at `dawn`, twice in the next, which is rounded up to a whole one, and twice in a third. -/
def hastened : List (Move Nat) :=
  [.charge dawn dawn, .check before, .charge before before, .check begun, .charge begun begun, .check begun,
    .charge begun begun, .check nearly, .charge nearly nearly, .check nearly]

/-- **More than twice the limit in one window's length**: where the key is reset in between, and where the clock's instants
straddle zero, so that a difference is rounded up to the window's length. -/
theorem reset_readmits :
    (¬∀ moves : List (Move Nat), InOrder early (moves.map (Move.call 7)) → Records minute 7 (after minute []) false moves →
      ∀ a, ((admissions minute 7 (after minute []) moves).filter fun now =>
        a ≤ now.units ∧ now.units < a + minute.window.units).length ≤ 2 * minute.maxAttempts) ∧
    ¬∀ moves : List (Move Nat), InOrder dawn (moves.map (Move.call 7)) → Unreset 7 moves →
      Records pair 7 (after pair []) false moves → ∀ a, ((admissions pair 7 (after pair []) moves).filter fun now =>
        a ≤ now.units ∧ now.units < a + pair.window.units).length ≤ 2 * pair.maxAttempts := by
  have hthree : ((admissions minute 7 (after minute []) pardoned).filter fun now =>
      early.units ≤ now.units ∧ now.units < early.units + minute.window.units).length = 3 := by decide +kernel
  have hfive : ((admissions pair 7 (after pair []) hastened).filter fun now =>
      before.units ≤ now.units ∧ now.units < before.units + pair.window.units).length = 5 := by decide +kernel
  refine ⟨fun h => ?_, fun h => ?_⟩
  · have hbound := h pardoned (by decide +kernel) (by decide +kernel) early.units
    rw [hthree] at hbound
    exact absurd hbound (by decide)
  · have hbound := h hastened (by decide +kernel) (by simp [Unreset, hastened, Move.call]) (by decide +kernel) before.units
    rw [hfive] at hbound
    exact absurd hbound (by decide)

end RateLimit

import Boutique.Discipline
import Boutique.Raises
/-!
# Rules — the program logic in the server's own statements

The rules of `TxnHistory` for `select`, `update`, `insert`, `advisoryLock`, the clock and the questions, each in front of
the rest of the program, and the rule of a whole `tenantSession`.
-/
namespace Boutique

open Txn Contract

variable {D : Cast schema} {C : Contract D service Err} {α β : Type} {t : Tid} {w : BWorld}
  {Q : Except Err β → BWorld → Prop}

variable {rows : Rows schema} {T : Table} {i : Nat} {r : Row T} {p : Prg α} {e : Err}

theorem set_other_table {T' : Table} (h : T' ≠ T) :
    rows.set T i r T' = rows T' := Rows.set_table h

theorem set_same_row : rows.set T i r T i = some r := Rows.set_same

theorem set_other_row {j : Nat} (h : j ≠ i) :
    rows.set T i r T j = rows T j := Rows.set_row h

def calm (q : Ask) : Bool := silent (.ask q)

theorem calm_mine {q : Ask} (h : calm q = true) (i : Input) (n : Nat) (o : Outside) :
    (Outside.serve t q i n o).2.mine t = o.mine t := by
  cases q with
  | sendSms | sendDue => cases h
  | _ => rfl

structure Reads (I : List (Commit schema) → Rows schema → List Minted → List Sent → Prop)
    (C : Contract D service Err) : Prop where
  inv : ∀ w : BWorld, C.Inv w ↔ I w.db.log w.db.committed w.out.minted w.out.outbox

theorem ensures_never {R : Except Err α → BWorld → Prop} (h : C.Ensures t p R w) (hn : Never e p) :
    C.Ensures t p (fun x w' => R x w' ∧ x ≠ .error e) w := by
  induction p generalizing w with
  | ret a => exact ⟨h, nofun⟩
  | raise e' => exact ⟨h, fun he => hn (Except.error.inj he)⟩
  | call o k ih =>
    intro w1 hr hi i r w2 he hA
    obtain ⟨ha, hi2, hk⟩ := h w1 hr hi i r w2 he hA
    exact ⟨ha, hi2, ih r hk (hn r)⟩

def claimTables : List Table := [.otpCodes, .waitlistEntries, .scheduledMessages, .customers, .bookings]

theorem ClaimWrites.touches {l : Bool} {o : Op schema service} (h : ClaimWrites l o) : Touches claimTables l o := by
  cases h <;> simp [Touches, claimTables]

section Rules

variable (hC : C.Historic calm)
include hC

variable {k : α → Prg β}

theorem ensures_select {q : Query} {f : Snapshot schema → α}
    (h : ∀ w1, C.Point t w w1 → w1.db.pending t = w.db.pending t →
      w1.db.seen t = w1.db.log.length → C.Ensures t (k (f ⟨w1.db.view t, w1.db.next⟩)) Q w1) :
    C.Ensures t (select q f >>= k) Q w := ensures_read hC h

theorem ensures_clock {k : Int → Prg β}
    (h : ∀ w1, C.Point t w w1 → w1.db.pending t = w.db.pending t → C.Ensures t (k w1.db.clock) Q w1) :
    C.Ensures t (clock >>= k) Q w := ensures_now hC h

theorem ensures_question {q : Ask} {k : q.Ans → Prg β} (hq : calm q = true)
    (h : ∀ w1 a, C.Point t w w1 → w1.db.pending t = w.db.pending t → C.Ensures t (k a) Q w1) :
    C.Ensures t (ask q >>= k) Q w := Contract.ensures_ask hC hq (fun i n o => calm_mine hq i n o) h

theorem ensures_advisoryLock {k : Unit → Prg β}
    (h : ∀ w1, C.Point t w w1 → w1.db.pending t = w.db.pending t → w1.db.advisory = some t → C.Ensures t (k ()) Q w1) :
    C.Ensures t (advisoryLock >>= k) Q w := ensures_lock hC h

theorem ensures_updateRow {j : Nat} {g : Change T} {k : Option (Row T) → Prg β}
    (hrefused : ∀ w1 v r, C.Point t w w1 → w1.db.pending t = w.db.pending t → w1.db.view t T j = some v →
      applyChange T g v = some r → w1.db.Refuses t T j r → Q (.error .integrity) w1)
    (hnone : ∀ w1, C.Point t w w1 → w1.db.pending t = w.db.pending t →
      (w1.db.view t T j).bind (applyChange T g) = none → C.Ensures t (k none) Q w1)
    (hsome : ∀ w1 w2 v r, C.Wrote t w w1 w2 T j r → w1.db.view t T j = some v → applyChange T g v = some r →
      C.Assume t (.sql (.update T j g)) w1 (.ok (some r)) w2 → C.Ensures t (k (some r)) Q w2) :
    C.Ensures t (update T j g >>= k) Q w := 
  ensures_update hC (fun w1 h hp _ hn => hnone w1 h hp hn) hrefused hsome

theorem ensures_insertRow {k : Row T → Prg β}
    (hrefused : ∀ w1, C.Point t w w1 → w1.db.pending t = w.db.pending t → Q (.error .integrity) w1)
    (hok : ∀ (w1 w2 : BWorld) n, C.Wrote t w w1 w2 T w1.db.next (stamp T w1.db.next n r) →
      C.Assume t (.sql (.insert T r)) w1 (.ok (stamp T w1.db.next n r)) w2 →
      C.Ensures t (k (stamp T w1.db.next n r)) Q w2) : C.Ensures t (insert T r >>= k) Q w :=
  Contract.ensures_insert hC hrefused hok

/-- **The rule of an UPDATE over several rows**: an assertion over the rows written so far, kept by each of its turns. -/
theorem ensures_updateEach {g : Change T} {J : List (Row T) → BWorld → Prop}
    (hskip : ∀ rs w w1, J rs w → C.Point t w w1 → w1.db.pending t = w.db.pending t → J rs w1)
    (hwrite : ∀ rs w w1 w2 i v r, J rs w → C.Wrote t w w1 w2 T i r → w1.db.view t T i = some v →
      applyChange T g v = some r → J (rs ++ [r]) w2) (ids : List Nat) (rs : List (Row T)) (hJ : J rs w) :
    C.Ensures t (updateEach T g ids) (fun x w' => ∀ rs', x = .ok rs' → J (rs ++ rs') w') w := by
  induction ids generalizing rs w with
  | nil =>
    intro rs' h
    cases h
    simpa using hJ
  | cons i is ih =>
    unfold updateEach
    refine ensures_updateRow hC (fun _ _ _ _ _ _ _ _ => by nofun) (fun w1 h1 hp1 _ => ?_) fun w1 w2 v r h2 hv hr _ => ?_
    · refine ensures_bind (ensures_mono (fun x w' hx => ?_) (ih rs (hskip rs w w1 hJ h1 hp1)))
      cases x with
      | error e => nofun
      | ok rs' =>
        intro rs'' h
        cases h
        exact hx rs' rfl
    · refine ensures_bind (ensures_mono (fun x w' hx => ?_) (ih (rs ++ [r]) (hwrite rs w w1 w2 i v r hJ h2 hv hr)))
      cases x with
      | error e => nofun
      | ok rs' =>
        intro rs'' h
        cases h
        have := hx rs' rfl
        simpa using this

omit hC in
theorem ensures_last {p : Prg β} (h : C.Ensures t (p >>= pure) Q w) : C.Ensures t p Q w := by
  rwa [Prog.bind_return] at h

omit hC in
theorem ensures_first {γ : Type} {p : Prg γ} {f : γ → Prg α} (h : C.Ensures t (p >>= fun a => f a >>= k) Q w) :
    C.Ensures t (p >>= f >>= k) Q w := by
  rwa [Prog.bind_bind]

omit hC in
theorem ensures_orRaise {x : Option α} (hnone : x = none → Q (.error e) w)
    (hsome : ∀ a, x = some a → C.Ensures t (k a) Q w) : C.Ensures t (orRaise x e >>= k) Q w := by
  cases x with
  | none => exact hnone rfl
  | some a => exact hsome a rfl

omit hC in
theorem ensures_raiseIf {c : Bool} {k : Unit → Prg β} (htrue : c = true → Q (.error e) w)
    (hfalse : c = false → C.Ensures t (k ()) Q w) : C.Ensures t (raiseIf c e >>= k) Q w := by
  cases c with
  | true => exact htrue rfl
  | false => exact hfalse rfl

omit hC in
theorem ensures_liftExcept {x : Except Err α} (herr : ∀ e, x = .error e → Q (.error e) w)
    (hok : ∀ a, x = .ok a → C.Ensures t (k a) Q w) : C.Ensures t (liftExcept x >>= k) Q w := by
  cases x with
  | error e => exact herr e rfl
  | ok a => exact hok a rfl

omit hC in
theorem ensures_scalarOneOrNone {xs : List α} {k : Option α → Prg β} (hmany : Q (.error .multipleResultsFound) w)
    (hnone : xs = [] → C.Ensures t (k none) Q w) (hsome : ∀ a, xs = [a] → C.Ensures t (k (some a)) Q w) :
    C.Ensures t (scalarOneOrNone xs >>= k) Q w := by
  match xs with
  | [] => exact hnone rfl
  | [a] => exact hsome a rfl
  | a :: b :: xs => exact hmany

omit hC in
theorem ensures_onIntegrity {h : Prg α} (hp : C.Ensures t p (fun x w' => match x with
      | .ok a => C.Ensures t (k a) Q w'
      | .error e => if e = .integrity then C.Ensures t (h >>= k) Q w' else Q (.error e) w') w) :
    C.Ensures t (onIntegrity p h >>= k) Q w := by
  refine ensures_bind (ensures_bind ?_)
  rw [Ensures, Prog.wp_attempt]
  refine ensures_mono (fun x w' hx => ?_) hp
  cases x with
  | ok a => exact hx
  | error e =>
    show C.Ensures t (if e = .integrity then h else throw e) _ w'
    split
    · rename_i he
      simp only [he, if_true] at hx
      rw [Ensures, Prog.wp_bind] at hx
      refine ensures_mono (fun y w'' hy => ?_) hx
      cases y <;> exact hy
    · rename_i he
      simp only [he, if_false] at hx
      exact hx

def Closes (C : Contract D service Err) (t : Tid) (k : α → Prg β) (Q : Except Err β → BWorld → Prop) :
    Except Err α → BWorld → Prop
  | .ok a, w => ∀ w₁, C.Point t w w₁ → w₁.db.pending t = w.db.pending t → w₁.db.holds t = w.db.holds t → w₁.db.seen t = w.db.seen t →
      C.Assume t (.sql .commit) w₁ () ⟨w₁.db.commit t, w₁.out⟩ → (w₁.db.commit t).Lawful D →
      C.Inv ⟨w₁.db.commit t, w₁.out⟩ ∧ C.Ensures t (k a) Q ⟨w₁.db.commit t, w₁.out⟩
  | .error e, w => ∀ w₁, C.Point t w w₁ → C.Inv ⟨w₁.db.release t, w₁.out⟩ → Q (.error e) ⟨w₁.db.release t, w₁.out⟩

theorem ensures_session {body : Int → Prg α} (hidle : w.db.Idle t)
    (h : ∀ w1 n, C.Point t w w1 → w1.db.Idle t → C.Ensures t (body n) (Closes C t k Q) w1) :
    C.Ensures t (tenantSession body >>= k) Q w := by
  refine ensures_bind ?_
  unfold tenantSession
  refine ensures_begin hC fun w1 n hp hpend => ?_
  have hidle1 : w1.db.Idle t := ⟨hpend.trans hidle.pending⟩
  change C.Ensures t ((body n).attempt >>= _) _ w1
  refine ensures_bind ?_
  rw [Ensures, Prog.wp_attempt]
  refine ensures_mono (fun x w2 hx => ?_) (h w1 n hp hidle1)
  cases x with
  | ok a =>
    refine ensures_commit fun w3 hev hL hI hA hL3 => ?_
    exact hx w3 (point_evolves hev hL hI) hev.db.pending hev.db.holds hev.db.seen hA hL3
  | error e =>
    refine ensures_abort hC fun w3 hev hL hI => ?_
    have hI2 : C.Inv w3 := hC.same ⟨w3.db.release t, w3.out⟩ w3 rfl rfl rfl hI
    exact hx w3 (point_evolves hev hL hI2) hI

omit hC in
theorem touches_inside (Ts : List Table) (l : Bool) (o : Op schema service) (ho : Writes false (Touches Ts) l o) :
    o.Inside ∧ (∀ q, o = .ask q → calm q = true ∧
      ∀ i n s, service.mine t (service.serve t q i n s).2 = service.mine t s) ∧
    (∀ T j g, o = .sql (.update T j g) → ¬T ∉ Ts) ∧ ∀ T r, o = .sql (.insert T r) → ¬T ∉ Ts := by
  rcases ho with ho | ⟨hf, -⟩ | ho
  · refine ⟨?_, fun q hq => ?_, fun T j g hq => ?_, fun T r hq => ?_⟩
    · cases o with
      | sql o => cases o <;> trivial
      | now | ask => trivial
    · subst hq
      exact ⟨ho, fun i n s => calm_mine ho i n s⟩
    · subst hq
      cases ho
    · subst hq
      cases ho
  · cases hf
  · refine ⟨?_, fun q hq => ?_, fun T j g hq => ?_, fun T r hq => ?_⟩
    · cases o with
      | sql o => cases o <;> trivial
      | now | ask => trivial
    · subst hq
      exact ho.elim
    · subst hq
      exact not_not.2 ho
    · subst hq
      exact not_not.2 ho

/-- **A stretch inside a transaction** that writes some tables leaves the thread's part of the others. -/
theorem ensures_spared (Ts : List Table) (hp : Within (Writes false (Touches Ts)) false p) (hL : w.db.Lawful D)
    (hI : C.Inv w)
    (herr : ∀ e w', C.Point t w w' → (∀ T, T ∉ Ts → w'.db.pending t T = w.db.pending t T) → Q (.error e) w')
    (hok : ∀ a w', C.Point t w w' → (∀ T, T ∉ Ts → w'.db.pending t T = w.db.pending t T) → C.Ensures t (k a) Q w') :
    C.Ensures t (p >>= k) Q w := by
  refine ensures_bind (ensures_mono (fun x w' hx => ?_) (ensures_untouched hC (touches_inside Ts) hp nofun hL hI))
  obtain ⟨hpoint, hpend, -⟩ := hx
  cases x with
  | ok a => exact hok a w' hpoint hpend
  | error e => exact herr e w' hpoint hpend

theorem ensures_stretch (Ts : List Table) (hp : Within (Writes false (Touches Ts)) false p) (hL : w.db.Lawful D)
    (hI : C.Inv w) (e : Err) (hn : Never e p) (herr : ∀ e' w', C.Point t w w' → e' ≠ e → Q (.error e') w')
    (hok : ∀ a w', C.Point t w w' → (∀ T, T ∉ Ts → w'.db.pending t T = w.db.pending t T) → C.Ensures t (k a) Q w') :
    C.Ensures t (p >>= k) Q w := by
  refine ensures_bind (ensures_mono (fun x w' hx => ?_)
    (ensures_never (ensures_untouched hC (touches_inside Ts) hp nofun hL hI) hn))
  obtain ⟨⟨hpoint, hpend, -⟩, hne⟩ := hx
  cases x with
  | ok a => exact hok a w' hpoint hpend
  | error e' => exact herr e' w' hpoint fun he => hne (he ▸ rfl)

theorem ensures_silent (hp : Steady (Writes false (Touches [])) false p) (hw : w.db.Idle t) (hL : w.db.Lawful D)
    (hI : C.Inv w) (herr : ∀ e w', C.Point t w w' → w'.db.Idle t → Q (.error e) w')
    (hok : ∀ a w', C.Point t w w' → w'.db.Idle t → C.Ensures t (k a) Q w') : C.Ensures t (p >>= k) Q w := by
  have hidle : ∀ w' : BWorld, (∀ T, T ∉ ([] : List Table) → w'.db.pending t T = w.db.pending t T) → w'.db.Idle t :=
    fun w' h => ⟨funext fun T => (h T List.not_mem_nil).trans (congrFun hw.pending T)⟩
  exact ensures_spared hC [] hp.within hL hI (fun e w' h hp => herr e w' h (hidle w' hp))
    fun a w' h hp => hok a w' h (hidle w' hp)

/-- **A transaction that writes some tables**: its commit must keep the invariant, and leaves the thread idle. -/
theorem ensures_touching (Ts : List Table) {body : Int → Prg α}
    (hp : ∀ n, Within (Writes false (Touches Ts)) false (body n)) (hw : w.db.Idle t)
    (hcommit : ∀ w', C.Point t w w' → (∀ T, T ∉ Ts → ∀ i, w'.db.pending t T i = none) → C.Inv ⟨w'.db.commit t, w'.out⟩)
    (herr : ∀ e w', w'.db.Idle t → Q (.error e) w')
    (hok : ∀ a w', w'.db.Lawful D → C.Inv w' → w'.db.Idle t → C.Ensures t (k a) Q w') :
    C.Ensures t (tenantSession body >>= k) Q w := by
  refine ensures_session hC hw fun w1 n h1 hidle1 => ?_
  refine ensures_mono (fun x w2 hx => ?_) (ensures_untouched hC (touches_inside Ts) (hp n) nofun h1.lawful h1.inv)
  obtain ⟨h2, hpend, -⟩ := hx
  cases x with
  | error e => exact fun w3 _ _ => herr e _ (Engine.idle_release _ _)
  | ok a =>
    intro w3 h3 hp3 _ _ _ hL3
    have hkept := hcommit w3 (h1.trans (h2.trans h3)) fun T hT i => by rw [hp3, hpend T hT, hidle1.pending]
    exact ⟨hkept, hok a ⟨w3.db.commit t, w3.out⟩ hL3 hkept (Engine.idle_commit _ _)⟩

/-! Each claim's transaction, as one rule. -/

omit hC in
theorem within_touches {P : Foot} {Ts : List Table} {l : Bool} (hP : ∀ l o, P l o → Touches Ts l o)
    (hp : Within (Writes false P) l p) : Within (Writes false (Touches Ts)) l p := hp.mono (writes_mono hP)

theorem ensures_createBooking (cfg : Config) (r : CreateRequest) {k : BookingClaim → Prg β} (hw : w.db.Idle t)
    (hL : w.db.Lawful D) (hI : C.Inv w)
    (hcommit : ∀ w', w'.db.Lawful D → C.Inv w' → (∀ T, T ∉ claimTables → ∀ i, w'.db.pending t T i = none) →
      C.Inv ⟨w'.db.commit t, w'.out⟩)
    (herr : ∀ e w', w'.db.Idle t → Q (.error e) w')
    (hok : ∀ c w', w'.db.Lawful D → C.Inv w' → w'.db.Idle t → C.Ensures t (k c) Q w') :
    C.Ensures t (BookingService.createBooking cfg r >>= k) Q w := by
  unfold BookingService.createBooking
  refine ensures_first (ensures_liftExcept (fun e _ => herr e w hw) fun _ _ => ?_)
  refine ensures_first (ensures_liftExcept (fun e _ => herr e w hw) fun phone _ => ?_)
  refine ensures_first (ensures_silent hC steady_clock hw hL hI (fun e w' _ h => herr e w' h) fun now w1 h1 hw1 => ?_)
  refine ensures_first (ensures_raiseIf (fun _ => herr _ _ hw1) fun _ => ?_)
  refine ensures_first (ensures_silent hC (steady_checkBudgets phone) hw1 h1.lawful h1.inv (fun e w' _ h => herr e w' h)
    fun _ w2 h2 hw2 => ?_)
  exact ensures_touching hC claimTables (fun n => within_touches (fun _ _ => ClaimWrites.touches)
    (within_createIn cfg r phone now n)) hw2 (fun w' h hp => hcommit w' h.lawful h.inv hp) herr hok

theorem ensures_claim (cfg : Config) (r : OfferClaimRequest) {k : BookingClaim → Prg β} (hw : w.db.Idle t)
    (hL : w.db.Lawful D) (hI : C.Inv w)
    (hcommit : ∀ w', w'.db.Lawful D → C.Inv w' → (∀ T, T ∉ claimTables → ∀ i, w'.db.pending t T i = none) →
      C.Inv ⟨w'.db.commit t, w'.out⟩)
    (herr : ∀ e w', w'.db.Idle t → Q (.error e) w')
    (hok : ∀ c w', w'.db.Lawful D → C.Inv w' → w'.db.Idle t → C.Ensures t (k c) Q w') :
    C.Ensures t (WaitlistOffer.claim cfg r >>= k) Q w := by
  unfold WaitlistOffer.claim
  refine ensures_first (ensures_liftExcept (fun e _ => herr e w hw) fun _ _ => ?_)
  refine ensures_first (ensures_silent hC steady_clock hw hL hI (fun e w' _ h => herr e w' h) fun now w1 _ hw1 => ?_)
  exact ensures_touching hC claimTables (fun n => within_touches (fun _ _ => ClaimWrites.touches)
    (within_claimIn cfg r now)) hw1 (fun w' h hp => hcommit w' h.lawful h.inv hp) herr hok

end Rules
end Boutique

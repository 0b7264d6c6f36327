import Boutique.Verbs
/-!
# Cascade — one standing offer for each day and appointment type

A tick reads which pairs hold no offer and then offers them one by one; nothing locks a pair in between.  A tick that is
the only one to offer a pair since its walk began leaves the pair with one offer, and no other request makes any.
-/
namespace Waitlist

open Txn Session Contract
open Boutique (Digest Slot)

variable {w w' : World schema outside} {t : Tid} {e e' : Engine schema}

/-! ## The contract -/

/-- **One standing offer a pair.** -/
def Single (rows : Rows schema) : Prop :=
  ∀ i j (v v' : WaitlistEntry), rows .entries i = some v → rows .entries j = some v' → v.offered = true →
    v'.offered = true → v.pair = v'.pair → i = j

def Offers (d : Commit schema) (p : Int × Nat) : Prop :=
  ∃ (j : Nat) (r : WaitlistEntry), d.writes .entries j = some r ∧ r.offered = true ∧ r.pair = p ∧
    ∀ v : WaitlistEntry, d.before .entries j = some v → v.offered = false

/-- **Nobody else has offered a pair that thread `t` is about to commit an offer of**, since its walk began. -/
def Unrivalled (t : Tid) (w : World schema outside) : Prop :=
  ∀ i (r : WaitlistEntry), w.db.pending t .entries i = some r → r.offered = true →
    ∀ k d, w.out.walks t ≤ k → w.db.log[k]? = some d → ¬Offers d r.pair

def Alone : (machine schema outside Err).Assumption := fun t o w _ _ =>
  match o with
  | .sql .commit => Unrivalled t w
  | _ => True

def sequential : Contract lasting.shared outside Err where
  Inv w := Single w.db.committed
  Assume := Alone
  crash_inv _ _ _ h := h
  tick_inv _ _ _ h := h

theorem sequential_historic : sequential.Historic fun _ => true :=
  ⟨fun _ _ _ hc _ h => by change Single _; rw [hc]; exact h, fun _ _ _ _ _ _ h => h⟩

def Meek (t : Tid) (e : Engine schema) : Prop :=
  ∀ i (r : WaitlistEntry), e.pending t .entries i = some r → r.offered = false

theorem Meek.congr (h : Meek t e) (hp : e'.pending t = e.pending t) : Meek t e' := by
  unfold Meek
  rw [hp]
  exact h

theorem Meek.single (h : Meek t e) (hS : Single e.committed) : Single (e.view t) := by
  have hrow : ∀ i (v : WaitlistEntry), e.view t .entries i = some v → v.offered = true →
      e.committed .entries i = some v := by
    intro i v hv ho
    cases hp : e.pending t .entries i with
    | none => rwa [Engine.view, Rows.over_none hp] at hv
    | some r =>
      rw [Engine.view_pending hp] at hv
      cases hv
      rw [h i v hp] at ho
      cases ho
  exact fun i j v v' hv hv' ho ho' hpair => hS i j v v' (hrow i v hv ho) (hrow j v' hv' ho') ho ho' hpair

/-! ## Requests that offer nothing -/

def modest : List Kind :=
  [.session, .enter .waiting, .cancel, .close, .claim, .touch, .remind, .book, .customer, .audit]

theorem apply_modest {g : EntryChange} {v r : WaitlistEntry} (h : EntryChange.apply v g = some r)
    (hg : ∀ n s x d, g ≠ .offer n s x d) : r.offered = false := by
  rcases g with _ | ⟨n, s, x, d⟩ | ⟨_ | _⟩ | _ <;> simp only [EntryChange.apply] at h
  · split at h <;> cases h
    simp [WaitlistEntry.offered]
  · exact absurd rfl (hg n s x d)
  all_goals
    split at h <;> cases h
    simp [WaitlistEntry.offered]

theorem modest_step {o : Op schema outside} {i : Input} {x : o.Res} (ho : Among modest o) (hq : Meek t w.db)
    (h : w.exec t o i = some (x, w')) : Meek t w'.db := by
  intro j r hr
  rcases World.exec_wrote h hr with hp | ⟨g, v, rfl, -, hg⟩ | ⟨r0, rfl, -, rfl⟩
  · exact hq j r hp
  · refine apply_modest hg fun n s y d hgeq => ?_
    subst hgeq
    have hkind := ho .offer rfl
    simp [modest] at hkind
  · have hkind := ho (.enter (WaitlistEntry.status r0)) rfl
    have hstatus : WaitlistEntry.status r0 = .waiting := by simpa [modest] using hkind
    simp [WaitlistEntry.offered, stamp, hstatus]

theorem modest_ensures {α : Type} {p : Prg α} (hp : Only (Among modest) p) (h : Meek t w.db) :
    sequential.Ensures t p (fun _ w' => Meek t w'.db) w := by
  refine ensures_mono (fun _ _ ⟨_, _, h⟩ => h) (ensures_of_footprint (fun _ w => Meek t w.db)
    (fun _ _ _ hev _ _ h => h.congr hev.db.pending) (fun l o w i r w' ho hL hI hq he hL' hA => ?_) (hp false) h)
  refine ⟨?_, modest_step ho hq he⟩
  by_cases hc : o = .sql .commit
  · subst hc
    cases he
    exact hq.single hI
  · exact sequential_historic.exec hc (fun _ _ => rfl) he hI

/-! ## The walk -/

theorem waitingPairs_nodup (fromDay : Int) (cursor : Option (Int × Nat)) (entries : List WaitlistEntry) :
    (Entries.waitingPairsIn fromDay cursor entries).Nodup :=
  ((List.perm_insertionSort _ _).nodup_iff.2 (List.nodup_dedup _)).sublist (List.take_sublist _ _)

theorem waitingPairs_free {fromDay : Int} {cursor : Option (Int × Nat)} {entries : List WaitlistEntry} {p : Int × Nat}
    (hp : p ∈ Entries.waitingPairsIn fromDay cursor entries) {x : WaitlistEntry} (hx : x ∈ entries)
    (ho : x.offered = true) : x.pair ≠ p := by
  have hmem := (List.mem_insertionSort _).1 (List.mem_of_mem_take hp)
  obtain ⟨w, hw, rfl⟩ := List.mem_map.1 (List.mem_dedup.1 hmem)
  obtain ⟨-, hw⟩ := List.mem_filter.1 hw
  simp only [Bool.decide_and, Bool.and_eq_true, decide_eq_true_eq, Bool.not_eq_true', List.any_eq_false] at hw
  intro heq
  have := hw.2.2.1 x hx
  simp [ho, heq] at this

/-- **The walk of a tick**: it read the pairs `P` at version `m`, free of offers it has not closed itself, and `rest` are
still to come. -/
structure Walking (t : Tid) (m : Nat) (P rest : List (Int × Nat)) (w : World schema outside) : Prop where
  walk : w.out.walks t ≤ m
  le : m ≤ w.db.log.length
  clean : ∀ j (v : WaitlistEntry), w.db.version m .entries j = some v → v.offered = true → v.pair ∈ P →
    ∃ r : WaitlistEntry, w.db.pending t .entries j = some r
  made : ∀ i (r : WaitlistEntry), w.db.pending t .entries i = some r → r.offered = true → r.pair ∈ P ∧ r.pair ∉ rest
  once : ∀ i j (r r' : WaitlistEntry), w.db.pending t .entries i = some r → w.db.pending t .entries j = some r' →
    r.offered = true → r'.offered = true → r.pair = r'.pair → i = j

section Walk

variable {m : Nat} {P rest : List (Int × Nat)} {p : Int × Nat}

theorem Walking.congr (h : Walking t m P rest w) (hwalk : w'.out.walks t = w.out.walks t)
    (hlen : w.db.log.length ≤ w'.db.log.length) (hversion : w'.db.version m = w.db.version m)
    (hpending : w'.db.pending t Table.entries = w.db.pending t Table.entries) : Walking t m P rest w' := by
  refine ⟨hwalk.trans_le h.walk, h.le.trans hlen, ?_, ?_, ?_⟩
  · rw [hversion, hpending]
    exact h.clean
  · rw [hpending]
    exact h.made
  · rw [hpending]
    exact h.once

theorem Walking.evolves (h : Walking t m P rest w) (hev : w.Evolves lasting.shared t w') : Walking t m P rest w' :=
  h.congr hev.mine hev.db.log_le (hev.db.version m h.le) (by rw [hev.db.pending])

theorem Walking.skip (h : Walking t m P (p :: rest) w) : Walking t m P rest w :=
  ⟨h.walk, h.le, h.clean, fun i r hr ho => ⟨(h.made i r hr ho).1, fun hmem => (h.made i r hr ho).2 (List.mem_cons_of_mem _ hmem)⟩,
    h.once⟩

theorem Walking.offer {i : Nat} {r : WaitlistEntry} (h : Walking t m P (p :: rest) w) (hpair : r.pair = p) (hmem : p ∈ P)
    (hnot : p ∉ rest) : Walking t m P rest ⟨w.db.write t Table.entries i r, w.out⟩ := by
  have hcases : ∀ j (x : WaitlistEntry), (w.db.write t Table.entries i r).pending t .entries j = some x →
      (j = i ∧ x = r) ∨ (j ≠ i ∧ w.db.pending t .entries j = some x) := by
    intro j x hx
    by_cases hj : j = i
    · subst hj
      rw [Engine.write_pending_self] at hx
      exact .inl ⟨rfl, (Option.some.inj hx).symm⟩
    · rw [Engine.write_pending_row fun hc => hj hc.2] at hx
      exact .inr ⟨hj, hx⟩
  have hfresh : ∀ j (x : WaitlistEntry), w.db.pending t .entries j = some x → x.offered = true → x.pair ≠ p :=
    fun j x hx ho heq => (h.made j x hx ho).2 (heq ▸ List.mem_cons_self)
  refine ⟨h.walk, h.le, fun j v hv ho hmem' => ?_, fun j x hx ho => ?_, fun j k x y hx hy ho ho' heq => ?_⟩
  · obtain ⟨x, hx⟩ := h.clean j v hv ho hmem'
    by_cases hj : j = i
    · subst hj
      exact ⟨r, Engine.write_pending_self⟩
    · exact ⟨x, (Engine.write_pending_row fun hc => hj hc.2).trans hx⟩
  · rcases hcases j x hx with ⟨rfl, rfl⟩ | ⟨-, hx⟩
    · exact ⟨hpair ▸ hmem, hpair ▸ hnot⟩
    · exact ⟨(h.made j x hx ho).1, fun hr => (h.made j x hx ho).2 (List.mem_cons_of_mem _ hr)⟩
  · rcases hcases j x hx with ⟨rfl, rfl⟩ | ⟨-, hj⟩ <;> rcases hcases k y hy with ⟨rfl, rfl⟩ | ⟨-, hk⟩
    · rfl
    · exact absurd (heq.symm.trans hpair) (hfresh k y hk ho')
    · exact absurd (heq.trans hpair) (hfresh j x hj ho)
    · exact h.once j k x y hj hk ho ho' heq

theorem Walking.single (h : Walking t m P rest w) (hL : w.db.Lawful lasting.shared) (hS : Single w.db.committed)
    (hA : Unrivalled t w) : Single (w.db.view t) := by
  have hrow : ∀ i (v : WaitlistEntry), w.db.view t .entries i = some v →
      w.db.pending t .entries i = some v ∨ (w.db.pending t .entries i = none ∧ w.db.committed .entries i = some v) := by
    intro i v hv
    cases hp : w.db.pending t .entries i with
    | none =>
      rw [Engine.view, Rows.over_none hp] at hv
      exact .inr ⟨rfl, hv⟩
    | some r =>
      rw [Engine.view_pending hp] at hv
      exact .inl hv
  -- an offer of its own pair that the tick did not make would be a rival's
  have hown : ∀ i j (r v : WaitlistEntry), w.db.pending t .entries i = some r → r.offered = true →
      w.db.pending t .entries j = none → w.db.committed .entries j = some v → v.offered = true → r.pair ≠ v.pair := by
    intro i j r v hr ho hnone hv ho' hpair
    obtain ⟨hmem, -⟩ := h.made i r hr ho
    by_cases hthen : (w.db.version m Table.entries j : Option WaitlistEntry).any fun x => x.offered && x.pair = r.pair
    · cases hx : (w.db.version m Table.entries j : Option WaitlistEntry) with
      | none =>
        rw [hx] at hthen
        cases hthen
      | some x =>
        rw [hx] at hthen
        simp only [Option.any_some, Bool.and_eq_true, decide_eq_true_eq] at hthen
        obtain ⟨y, hy⟩ := h.clean j x hx hthen.1 (hthen.2 ▸ hmem)
        rw [hnone] at hy
        cases hy
    · have hnow : (w.db.version w.db.log.length Table.entries j : Option WaitlistEntry).any
          fun x => x.offered && x.pair = r.pair := by
        rw [Engine.version_length, hv]
        simp [ho', hpair]
      obtain ⟨k, d, hmk, -, hd, hbefore, hafter⟩ := hL.version_crossing (T := Table.entries)
        (P := fun (x : Option WaitlistEntry) => x.any fun x => x.offered && x.pair = r.pair) h.le (Nat.le_refl _) hthen hnow
      refine hA i r hr ho k d (h.walk.trans hmk) hd ?_
      cases hw : (d.writes Table.entries j : Option WaitlistEntry) with
      | none =>
        rw [Commit.after, Rows.over_none hw] at hafter
        exact absurd hafter hbefore
      | some x =>
        rw [Commit.after, Rows.over_some hw] at hafter
        simp only [Option.any_some, Bool.and_eq_true, decide_eq_true_eq] at hafter
        refine ⟨j, x, hw, hafter.1, hafter.2, fun y hy => ?_⟩
        have hlasts := hL.entries d (List.mem_of_getElem? hd) Table.entries j
        rw [hy, Commit.after, Rows.over_some hw] at hlasts
        have hlasts : Lasts y x := hlasts
        by_contra hyo
        rw [Bool.not_eq_false] at hyo
        refine hbefore ?_
        rw [hy]
        simp [hyo, ← hlasts.pair, hafter.2]
  intro i j v v' hv hv' ho ho' hpair
  rcases hrow i v hv with hi | ⟨hi, hci⟩ <;> rcases hrow j v' hv' with hj | ⟨hj, hcj⟩
  · exact h.once i j v v' hi hj ho ho' hpair
  · exact absurd hpair (hown i j v v' hi ho hj hcj ho')
  · exact absurd hpair.symm (hown j i v' v hj ho' hi hci ho)
  · exact hS i j v v' hci hcj ho ho' hpair

end Walk

section Tick

variable {cfg : Config} {m : Nat} {P rest : List (Int × Nat)} {p : Int × Nat} {α : Type}
  {Q : Except Err α → World schema outside → Prop}

theorem apply_offer {n s x : Int} {d : Digest} {v r : WaitlistEntry} (h : EntryChange.apply v (.offer n s x d) = some r) :
    r.pair = v.pair := (lasts_apply h).pair

theorem daySlots_ensures {day now : Int} {i : Nat} {k : List Slot → Prg α} (h : Walking t m P rest w)
    (hi : InPair t i p w.db)
    (hk : ∀ slots w', Walking t m P rest w' → InPair t i p w'.db → sequential.Ensures t (k slots) Q w') :
    sequential.Ensures t (daySlots cfg day now >>= k) Q w := by
  have hC := sequential_historic
  refine ensures_first (Session.ensures_ask hC rfl fun w1 x n hev1 _ _ _ => ensures_first (Session.ensures_ask hC rfl
    fun w2 y n hev2 _ _ _ => ensures_first (Session.ensures_select hC fun w3 hev3 _ _ _ _ => ?_)))
  have h1 : Walking t m P rest ⟨w1.db, (serve t .listActiveRules x n w1.out).2⟩ :=
    (h.evolves hev1).congr rfl (Nat.le_refl _) rfl rfl
  have h2 : Walking t m P rest ⟨w2.db, (serve t (.listActiveExceptions day) y n w2.out).2⟩ :=
    (h1.evolves hev2).congr rfl (Nat.le_refl _) rfl rfl
  exact hk _ _ ((h2.evolves hev3).congr rfl (Nat.le_refl _) rfl rfl)
    (((hi.evolves hev1.db).evolves hev2.db).evolves hev3.db).look

theorem offerOne_ensures {now : Int} {k : Bool → Prg α} (h : Walking t m P (p :: rest) w) (hmem : p ∈ P) (hnot : p ∉ rest)
    (herr : ∀ e w', Q (.error e) w') (hk : ∀ made w', Walking t m P rest w' → sequential.Ensures t (k made) Q w') :
    sequential.Ensures t (WaitlistCascade.offerOne cfg now p >>= k) Q w := by
  have hC := sequential_historic
  refine ensures_first (Session.ensures_select hC fun w1 hev1 hL1 _ _ _ => ?_)
  have h1 : Walking t m P (p :: rest) ⟨w1.db.look t, w1.out⟩ := (h.evolves hev1).congr rfl (Nat.le_refl _) rfl rfl
  split
  · exact hk false _ h1.skip
  rename_i entry hentry
  have hsee : InPair t entry.id p (w1.db.look t) := by
    have hmin := List.mem_filter.1 (earliestBy_mem hentry)
    obtain ⟨j, -, hj⟩ := Snapshot.mem_all.1 hmin.1
    have hid : entry.id = j := (hL1.view_consistent t).id Table.entries j entry hj
    have hpair : entry.pair = p := by
      have := hmin.2
      simp at this
      exact this.2
    exact ⟨entry, by rw [hid]; exact hj, hpair⟩
  refine ensures_first (daySlots_ensures h1 hsee fun slots w2 h2 hsee2 => ensures_first (Session.ensures_select hC
    fun w3 hev3 _ _ _ _ => ?_))
  have h3 : Walking t m P (p :: rest) ⟨w3.db.look t, w3.out⟩ := (h2.evolves hev3).congr rfl (Nat.le_refl _) rfl rfl
  have hsee3 := (hsee2.evolves hev3.db).look
  split
  · exact hk false _ h3.skip
  refine ensures_first (Session.ensures_ask hC rfl fun w4 x n hev4 _ _ _ => ?_)
  have h4 : Walking t m P (p :: rest) ⟨w4.db, (serve t .mintManageToken x n w4.out).2⟩ :=
    (h3.evolves hev4).congr rfl (Nat.le_refl _) rfl rfl
  have hsee4 := hsee3.evolves hev4.db
  refine ensures_first (ensures_first (Session.ensures_update hC (fun w5 _ _ _ => herr _ w5)
    (fun w5 hev5 _ _ _ => hk false w5 (h4.evolves hev5).skip) fun w5 v r hev5 _ hv hr _ _ _ => ?_))
  obtain ⟨v', hv', hpair'⟩ := hsee4.evolves hev5.db
  rw [hv] at hv'
  cases hv'
  have h5 : Walking t m P rest ⟨w5.db.write t Table.entries entry.id r, w5.out⟩ :=
    (h4.evolves hev5).offer ((apply_offer hr).trans hpair') hmem hnot
  refine ensures_first (ensures_first (ensures_bind ?_))
  rw [Ensures, Prog.wp_attempt]
  refine ensures_last (Session.ensures_insert hC (fun w6 n hev6 _ _ => ?_) fun w6 hev6 _ _ _ => ?_)
  · exact hk false _ ((h5.evolves hev6).congr rfl (Nat.le_refl _) rfl rfl)
  · refine hk true _ ((h5.evolves hev6).congr rfl (Nat.le_refl _) rfl ?_)
    funext j
    exact Engine.write_pending_row fun hc => by cases hc.1

theorem offerEach_ensures {now : Int} {k : Nat → Prg α} (herr : ∀ e w', Q (.error e) w') :
    ∀ (rest : List (Int × Nat)) (offered : Nat) (w : World schema outside), Walking t m P rest w → rest ⊆ P → rest.Nodup →
      (∀ n w', Walking t m P [] w' → sequential.Ensures t (k n) Q w') →
      sequential.Ensures t (WaitlistCascade.offerEach cfg now rest offered >>= k) Q w
  | [], offered, w, h, _, _, hk => hk offered w h
  | p :: rest, offered, w, h, hsub, hnodup, hk => by
    obtain ⟨hnot, hrest⟩ := List.nodup_cons.1 hnodup
    exact ensures_first (offerOne_ensures h (hsub List.mem_cons_self) hnot herr fun made w' h' =>
      offerEach_ensures herr rest _ w' h' (fun _ hq => hsub (List.mem_cons_of_mem _ hq)) hrest hk)

theorem issue_ensures {now : Int} {k : Nat → Prg α} (h : Meek t w.db) (herr : ∀ e w', Q (.error e) w')
    (hk : ∀ n m P w', Walking t m P [] w' → sequential.Ensures t (k n) Q w') :
    sequential.Ensures t (WaitlistCascade.issue cfg now >>= k) Q w := by
  have hC := sequential_historic
  refine ensures_first (ensures_call fun w1 hev1 hL1 hI1 i x w2 he hL2 hA => ?_)
  cases he
  refine ⟨hI1, ?_⟩
  refine ensures_first (Session.ensures_select hC fun w3 hev3 hL3 _ _ _ => ?_)
  have hmeek : Meek t w3.db := (h.congr hev1.db.pending).congr hev3.db.pending
  have hwalk : w3.out.walks t ≤ w3.db.log.length := by
    have hmine : w3.out.walks t = w1.db.log.length := hev3.mine.trans (by simp [serve])
    rw [hmine]
    exact hev3.db.log_le
  -- the walk begins with what was read here; keeping the cursor touches none of it
  have hwalking : ∀ day cursor, Walking t w3.db.log.length
      (Entries.waitingPairsIn day cursor ((⟨w3.db.view t, w3.db.next⟩ : Snapshot schema).all .entries))
      (Entries.waitingPairsIn day cursor ((⟨w3.db.view t, w3.db.next⟩ : Snapshot schema).all .entries))
      { w3 with db := w3.db.look t } := by
    refine fun day cursor => ⟨hwalk, Nat.le_refl _, fun j v hv ho hmem => ?_, fun i r hr ho => ?_, fun i j r r' hr _ ho => ?_⟩
    · by_contra hnone
      have hpending : w3.db.pending t .entries j = none := by
        cases hp : w3.db.pending t .entries j with
        | none => rfl
        | some r => exact absurd ⟨r, hp⟩ hnone
      have hview : w3.db.view t .entries j = some v := by
        rw [Engine.view, Rows.over_none hpending]
        simpa using hv
      exact waitingPairs_free hmem (Snapshot.mem_all.2 ⟨j, hL3.view_lt hview, hview⟩) ho rfl
    · rw [hmeek i r hr] at ho
      cases ho
    · rw [hmeek i r hr] at ho
      cases ho
  refine ensures_first (ensures_call fun w4 hev4 hL4 hI4 _ _ w5 he _ _ => ?_)
  cases he
  exact ⟨hI4, offerEach_ensures herr _ _ _ (((hwalking _ _).evolves hev4).congr rfl (Nat.le_refl _) rfl rfl)
    (fun _ h => h) (waitingPairs_nodup _ _ _) fun n w' => hk n _ _ w'⟩

theorem tick_ensures (h : Meek t w.db) (herr : ∀ e w', Q (.error e) w') {k : CascadeResult → Prg α}
    (hk : ∀ r w', sequential.Ensures t (k r) Q w') : sequential.Ensures t (WaitlistCascade.run cfg >>= k) Q w := by
  have hC := sequential_historic
  refine ensures_first (Session.ensures_now hC fun w1 hev1 _ _ => Session.ensures_tenantSession hC fun w2 n hev2 _ _ => ?_)
  have hmeek : Meek t w2.db := (h.congr hev1.db.pending).congr hev2.db.pending
  refine ensures_bind (ensures_mono (fun x w3 h3 => ?_) (modest_ensures (within_expire (by decide) (by decide) _) (hmeek.congr rfl)))
  cases x with
  | error e => exact fun w4 _ _ => herr e _
  | ok closed =>
    show sequential.Ensures t (if _ then _ else _) _ _
    split
    · exact fun w4 hev4 hL4 hI4 _ _ => ⟨Meek.single (h3.congr hev4.db.pending) hI4, hk _ _⟩
    · refine issue_ensures h3 (fun e w4 w5 _ _ => herr e _) fun n m P w4 h4 w5 hev5 hL5 hI5 hA _ => ?_
      exact ⟨(h4.evolves hev5).single hL5 hI5 hA, hk _ _⟩

end Tick

/-! ## Whole runs -/

section Runs

variable {cfg : Config} {reqs : Tid → Request} {rows : Rows schema} {next : Nat} {clock : Int}
  {c : Conf (machine schema outside Err) Response}

def serving (cfg : Config) (reqs : Tid → Request) (rows : Rows schema) (next : Nat) (clock : Int) :
    Conf (machine schema outside Err) Response :=
  staged (V := outside) ⟨fun _ => 0, fun _ => none⟩ (fun t => (reqs t).code cfg) rows next clock

theorem serving_obeyed (h : Shelved rows next) : Cast.Obeyed lasting.shared (serving cfg reqs rows next clock) :=
  staged_obeyed h legal_lasting

theorem request_ensures (req : Request) (h : Meek t w.db) : sequential.Ensures t (req.code cfg) (fun _ _ => True) w := by
  cases req with
  | tick => exact tick_ensures h (fun _ _ => trivial) fun _ _ => trivial
  | join phone token day typeId =>
    exact ensures_mono (fun _ _ _ => trivial)
      (modest_ensures (within_join (by decide) (by decide) cfg phone token day typeId) h)
  | cancelEntry entryId actorId =>
    exact ensures_mono (fun _ _ _ => trivial)
      (modest_ensures (within_cancelEntry (by decide) (by decide) (by decide) (by decide) entryId actorId) h)
  | decline token =>
    exact ensures_mono (fun _ _ _ => trivial)
      (modest_ensures (within_decline (by decide) (by decide) (by decide) token) h)
  | claim token name termsVersion =>
    exact ensures_mono (fun _ _ _ => trivial) (modest_ensures (within_claim (by decide) (by decide) (by decide) (by decide)
      (by decide) (by decide) cfg token name termsVersion) h)
  | drain => exact ensures_mono (fun _ _ _ => trivial) (modest_ensures (within_drain (by decide) (by decide)) h)

/-- **One standing offer for each day and appointment type**, in every run in which no tick commits an offer of a pair that
somebody else has offered since the tick began to walk the pairs. -/
theorem one_offer (h : Shelved rows next) (hS : Single rows)
    (hr : Conf.Steps Alone (serving cfg reqs rows next clock) c) : Single c.state.db.committed := by
  have hI : sequential.Inv (serving cfg reqs rows next clock).state := hS
  have hsafe : ∀ t p, (serving cfg reqs rows next clock).threads t = some p →
      sequential.logic.Safe t p (fun _ _ => True) (serving cfg reqs rows next clock).state := by
    intro t p hp
    cases hp
    exact safe_of_ensures (request_ensures (reqs t) fun _ _ hr => by cases hr) fun _ _ _ _ _ _ _ => trivial
  exact (sequential.runs (Q := fun _ _ _ => True) (serving_obeyed h) hI hsafe hr).1.inv.2

end Runs

/-! ## Two workers -/

def twoWaiting : (T : Table) → List (Row T)
  | .entries => [(⟨0, 0, none, 1, 7, "0501111111", .waiting, none, none, none, none⟩ : WaitlistEntry),
      (⟨1, 1, none, 1, 7, "0502222222", .waiting, none, none, none, none⟩ : WaitlistEntry)]
  | _ => []

theorem twoWaiting_shelved : Shelved (listed (S := schema) twoWaiting) 2 :=
  shelved_of_stocked [.entries, .messages, .bookings, .customers, .auditLog] (fun T => by cases T <;> decide)
    (by decide)

theorem twoWaiting_single : Single (listed (S := schema) twoWaiting) := by
  intro i j v v' hv _ ho _ _
  have hm : v ∈ twoWaiting .entries := List.mem_of_find?_eq_some hv
  simp only [twoWaiting, List.mem_cons, List.not_mem_nil, or_false] at hm
  rcases hm with rfl | rfl <;> cases ho

def utc : Boutique.Zone where
  wallOf x := x
  instantOf x := x
  midnight_le x := Int.ediv_mul_le x Boutique.day_ne_zero
  lt_midnight x := Int.lt_ediv_add_one_mul_self x Boutique.day_pos

def twoHours : Config := ⟨utc, 7200 * Boutique.second, 1800 * Boutique.second, 0, 0⟩

def friday : Boutique.AvailabilityRule :=
  ⟨0, 0, none, 5, ⟨36000 * Boutique.second, by decide, by decide⟩, ⟨39600 * Boutique.second, by decide, by decide⟩, 1⟩

def calls (t : Tid) (n token : Nat) : List (Action (machine schema outside Err)) :=
  List.replicate n (.call t ⟨false, token, none, [friday], [], .delivered⟩)

def ticking : Conf (machine schema outside Err) Response :=
  serving twoHours (fun _ => .tick) (listed (S := schema) twoWaiting) 2 0

/-- **Two ticks, two offers**: one has read the pair as free when the other commits its offer. -/
theorem two_offers : ∃ c, ticking.Reaches c ∧ ∃ v v' : WaitlistEntry, c.state.db.committed .entries 0 = some v ∧
    c.state.db.committed .entries 1 = some v' ∧ v.offered = true ∧ v'.offered = true ∧ v.pair = v'.pair ∧
    v.offerExpiresAt.any (c.state.db.clock < ·) = true ∧ v'.offerExpiresAt.any (c.state.db.clock < ·) = true := by
  obtain ⟨c, hc, hP⟩ := Conf.reached_freely ticking
    (calls 1 5 101 ++ calls 0 15 100 ++ calls 1 10 101)
    (fun c => (c.state.db.committed Table.entries 0 : Option WaitlistEntry).any fun (v : WaitlistEntry) =>
      (c.state.db.committed Table.entries 1 : Option WaitlistEntry).any fun (v' : WaitlistEntry) =>
        decide (v.offered = true ∧ v'.offered = true ∧ v.pair = v'.pair ∧
          v.offerExpiresAt.any (c.state.db.clock < ·) = true ∧ v'.offerExpiresAt.any (c.state.db.clock < ·) = true))
    (by decide)
  obtain ⟨v, hv, hP⟩ := (Option.any_eq_true ..).1 hP
  obtain ⟨v', hv', hP⟩ := (Option.any_eq_true ..).1 hP
  exact ⟨c, hc, v, v', hv, hv', of_decide_eq_true hP⟩

def uninterrupted (t : Tid) (o : Op schema outside) (w : World schema outside) : Bool :=
  match o with
  | .sql .commit => (w.db.log.drop (w.out.walks t)).isEmpty
  | _ => true

theorem alone_of_uninterrupted {o : Op schema outside} {x : o.Res} (h : uninterrupted t o w = true) : Alone t o w x w' := by
  unfold Alone
  split
  · intro i r _ _ k d hk hd
    have hlen := List.isEmpty_iff_length_eq_zero.1 h
    have hlt := (List.getElem?_eq_some_iff.1 hd).1
    rw [List.length_drop] at hlen
    omega
  · trivial

theorem one_offer_ticking : ∃ c, Conf.Steps Alone ticking c ∧ c.state.db.log.length = 2 ∧ Single c.state.db.committed := by
  obtain ⟨c, hc, hP⟩ := Conf.reached_of_play (A := fun t o w _ _ => uninterrupted t o w = true) ticking
    (calls 0 15 100 ++ calls 1 7 101) (fun c => decide (c.state.db.log.length = 2)) (by decide)
  have hc' : Conf.Steps Alone ticking c := hc.mono fun _ _ _ _ _ h => alone_of_uninterrupted h
  exact ⟨c, hc', of_decide_eq_true hP, one_offer twoWaiting_shelved twoWaiting_single hc'⟩

end Waitlist

import Boutique.Between
import Boutique.Tended
/-!
# SizeMatrix — the sizes of a dress over whole runs

A replacement retires every size and writes its own list in one commit, under the dress's other lock.  So the sizes at any
version are one list that was sent whole, and nothing but the list itself can refuse it.
-/
namespace Catalog

open Txn Session Contract Ranked
open Boutique (normalizeSizeLabel)

variable {cfg : Config} {reqs : Tid → Request} {dressId k : Nat} {t : Tid} {f : Nat → Option DressVariant}
  {vs : List VariantInput} {rows : Rows schema}

/-! ## The list and its rows -/

def DressVariant.live (r : DressVariant) : Bool := r.deletedAt = none

def DressVariant.sent (r : DressVariant) : VariantInput := ⟨r.sizeLabel, r.quantity, r.sortOrder⟩

def Stocks (f : Nat → Option DressVariant) (l : List VariantInput) : Prop :=
  ∃ rows, Lists DressVariant.sortOrder DressVariant.id f DressVariant.live rows ∧ rows.map DressVariant.sent = l

/-- **A list as it is shown once saved**: by sort order, and anyhow where that is the same, for the ids that break the tie are
random. -/
structure Saved (vs l : List VariantInput) : Prop where
  whole : l.Perm vs
  ordered : l.Pairwise fun a b => a.sortOrder ≤ b.sortOrder

instance (vs l : List VariantInput) : Decidable (Saved vs l) := decidable_of_iff
  (l.Perm vs ∧ l.Pairwise fun a b => a.sortOrder ≤ b.sortOrder) ⟨fun ⟨hwhole, hordered⟩ => ⟨hwhole, hordered⟩, fun h => ⟨h.1, h.2⟩⟩

variable {l : List VariantInput} {i : Nat} {r : DressVariant} {now : Int}

theorem Stocks.unique {l' : List VariantInput} (h : Stocks f l) (h' : Stocks f l') : l = l' := by
  obtain ⟨rows, hrows, rfl⟩ := h
  obtain ⟨rows', hrows', rfl⟩ := h'
  rw [hrows.unique hrows']

def Written (cfg : Config) (f : Nat → Option DressVariant) (vs : List VariantInput) : Prop :=
  ∃ rows : List DressVariant, rows.Pairwise (fun a b => a.id < b.id) ∧ (∀ r, r ∈ rows ↔ ∃ i, f i = some r ∧ r.live = true) ∧
    (∀ r ∈ rows, r.sizeKey = cfg.sqlLower r.sizeLabel) ∧ rows.map DressVariant.sent = vs

theorem written_none (h : ∀ i r, f i = some r → r.live = false) : Written cfg f [] := by
  refine ⟨[], .nil, fun r => ⟨fun hr => (by cases hr), fun ⟨i, hi, hlive⟩ => ?_⟩, fun r hr => (by cases hr), rfl⟩
  rw [h i r hi] at hlive
  cases hlive

theorem Written.add (h : Written cfg f vs) (hf : Keyed DressVariant.id (Function.update f i (some r)))
    (hnew : ∀ j, i ≤ j → f j = none) (hlive : r.live = true) (hkey : r.sizeKey = cfg.sqlLower r.sizeLabel) :
    Written cfg (Function.update f i (some r)) (vs ++ [r.sent]) := by
  obtain ⟨rows, hordered, hmem, hkeys, rfl⟩ := h
  have hbelow : ∀ j a, f j = some a → j < i := by
    intro j a hj
    by_contra hle
    rw [hnew j (by omega)] at hj
    cases hj
  have hstill : ∀ j, j ≠ i → Function.update f i (some r) j = f j := fun j hj => Function.update_of_ne hj _ _
  refine ⟨rows ++ [r], ?_, fun u => ?_, fun u hu => ?_, by simp⟩
  · refine List.pairwise_append.2 ⟨hordered, List.pairwise_singleton _ _, fun a ha b hb => ?_⟩
    obtain rfl := List.mem_singleton.1 hb
    obtain ⟨j, hj, -⟩ := (hmem a).1 ha
    have hlt := hbelow j a hj
    rw [hf j a (by rw [hstill j (by omega), hj]), hf i b (Function.update_self ..)]
    exact hlt
  · rw [List.mem_append, List.mem_singleton, hmem]
    constructor
    · rintro (⟨j, hj, hu⟩ | rfl)
      · have hlt := hbelow j u hj
        exact ⟨j, by rw [hstill j (by omega), hj], hu⟩
      · exact ⟨i, Function.update_self .., hlive⟩
    · rintro ⟨j, hj, hu⟩
      by_cases hij : j = i
      · subst hij
        rw [Function.update_self] at hj
        exact .inr (Option.some.inj hj).symm
      · rw [hstill j hij] at hj
        exact .inl ⟨j, hj, hu⟩
  · rcases List.mem_append.1 hu with hu | hu
    · exact hkeys u hu
    · rw [List.mem_singleton.1 hu]
      exact hkey

theorem Written.key {u : DressVariant} (h : Written cfg f vs) (hu : f i = some u) (hlive : u.live = true) :
    ∃ v ∈ vs, u.sizeKey = cfg.sqlLower v.sizeLabel := by
  obtain ⟨rows, -, hmem, hkeys, rfl⟩ := h
  have hrow := (hmem u).2 ⟨i, hu, hlive⟩
  exact ⟨u.sent, List.mem_map_of_mem hrow, hkeys u hrow⟩

theorem Written.saved (h : Written cfg f vs) (hl : Stocks f l) : Saved vs l := by
  obtain ⟨rows, hordered, hmem, -, rfl⟩ := h
  obtain ⟨rows', hrows', rfl⟩ := hl
  have hnodup : rows.Nodup := hordered.imp fun hlt heq => absurd (heq ▸ hlt) (Nat.lt_irrefl _)
  have hperm : rows'.Perm rows := by
    rw [List.perm_ext_iff_of_nodup (List.Nodup.of_map _ hrows'.nodup) hnodup]
    intro r
    rw [hmem, hrows'.mem]
  refine ⟨hperm.map _, List.pairwise_map.2 (hrows'.ordered.imp fun h => h.rank_le)⟩

/-! ## The retirement -/

theorem retire_some {u : DressVariant} (h : (DressVariantChange.softDelete dressId now).apply u = some r) :
    u.dressId = dressId ∧ u.deletedAt = none ∧ r = { u with deletedAt := some now } := by
  simp only [DressVariantChange.apply] at h
  split at h
  · rename_i hof
    obtain ⟨hdress, hdeleted⟩ := of_decide_eq_true hof
    exact ⟨hdress, hdeleted, (Option.some.inj h).symm⟩
  · cases h

theorem once_retire (now : Int) : Once (S := schema) (T := Table.dressVariants) (.softDelete dressId now) := by
  intro u r h
  obtain ⟨-, -, rfl⟩ := retire_some h
  exact if_neg (by simp [DressVariant.of])

theorem retired_dead {ids : List Nat} (hdress : ∀ i u, f i = some u → u.dressId = dressId)
    (hids : ∀ i u, f i = some u → u.live = true → i ∈ ids)
    (hr : applyEach (S := schema) (T := Table.dressVariants) (.softDelete dressId now) f ids i = some r) :
    r.live = false := by
  rw [applyEach_row (once_retire now)] at hr
  have hi := hids i
  have hd := hdress i
  cases hu : f i with
  | none => simp [hu] at hr
  | some u =>
    rw [hu] at hi hd hr
    change (if i ∈ ids then ((DressVariantChange.softDelete dressId now).apply u).or (some u) else some u) = some r at hr
    by_cases hlive : u.live = true
    · have happly : (DressVariantChange.softDelete dressId now).apply u = some { u with deletedAt := some now } :=
        if_pos (decide_eq_true ⟨hd u rfl, of_decide_eq_true hlive⟩)
      rw [if_pos (hi u rfl hlive), happly] at hr
      cases hr
      rfl
    · have happly : (DressVariantChange.softDelete dressId now).apply u = none :=
        if_neg fun hof => hlive (decide_eq_true (of_decide_eq_true hof).2)
      have hsame : some u = some r := by simpa [happly] using hr
      cases hsame
      simpa using hlive

/-! ## What refuses a list -/

theorem forM_ok {α ε : Type} {g : α → Except ε Unit} {l : List α} : l.forM g = .ok () ↔ ∀ a ∈ l, g a = .ok () := by
  rw [List.forM_eq_forM]
  induction l with
  | nil => simp [pure, Except.pure]
  | cons a l ih =>
    rw [List.forM_cons, List.forall_mem_cons, ← ih]
    cases g a <;> simp [bind, Except.bind]

theorem quantity_of_valid (h : validateVariants vs = .ok ()) : ∀ v ∈ vs, 0 ≤ v.quantity ∧ v.quantity ≤ MAX_VARIANT_QUANTITY := by
  unfold validateVariants at h
  split at h
  · cases h
  intro v hv
  have hvalid := forM_ok.1 h v hv
  unfold validateVariant at hvalid
  by_contra hnot
  split at hvalid
  · cases hvalid
  split at hvalid
  · cases hvalid
  cases hvalid

theorem duplicate_of_rejected {e : Err} (h : rejectDuplicateSizes cfg vs = .error e) :
    e = .duplicateSize ∧ ¬(vs.map fun v => cfg.lower v.sizeLabel).Nodup := by
  have hgo : ∀ (vs : List VariantInput) (seen : List String), rejectDuplicateSizes.go cfg seen vs = .error e →
      e = .duplicateSize ∧ (¬(vs.map fun v => cfg.lower v.sizeLabel).Nodup ∨ ∃ v ∈ vs, cfg.lower v.sizeLabel ∈ seen) := by
    intro vs
    induction vs with
    | nil => exact fun _ h => (by cases h)
    | cons v vs ih =>
      intro seen h
      unfold rejectDuplicateSizes.go at h
      split at h
      · rename_i hseen
        cases h
        exact ⟨rfl, .inr ⟨v, List.mem_cons_self, hseen⟩⟩
      · obtain ⟨he, htwice⟩ := ih _ h
        refine ⟨he, ?_⟩
        rw [List.map_cons, List.nodup_cons, not_and_or, not_not]
        rcases htwice with htwice | ⟨u, hu, hmem⟩
        · exact .inl (.inr htwice)
        · rcases List.mem_cons.1 hmem with heq | hmem
          · exact .inl (.inl (heq ▸ List.mem_map_of_mem hu))
          · exact .inr ⟨u, List.mem_cons_of_mem _ hu, hmem⟩
  obtain ⟨he, htwice | ⟨v, -, hmem⟩⟩ := hgo vs [] h
  · exact ⟨he, htwice⟩
  · cases hmem

/-! ## The ledger -/

abbrev sizesOf (dressId : Nat) : Row .dressVariants → Bool := (LockKey.variants dressId).covers .dressVariants

def rack (dressId : Nat) (rows : Rows schema) : Nat → Option DressVariant :=
  part (S := schema) (T := Table.dressVariants) (sizesOf dressId) (rows .dressVariants)

theorem rack_some {v : DressVariant} :
    rack dressId rows i = some v ↔ rows .dressVariants i = some v ∧ v.dressId = dressId := by
  unfold rack
  rw [part_some]
  exact and_congr_right fun _ => decide_eq_true_iff

def normalized (variants : List VariantInput) : List VariantInput :=
  variants.map fun v => { v with sizeLabel := normalizeSizeLabel v.sizeLabel }

def sizesLedger (dressId : Nat) (reqs : Tid → Request) : Ledger schema where
  Holds _ _ d := rack dressId d.after = rack dressId d.before ∨ ∃ variants actorId,
    reqs d.by_ = .replaceVariants dressId variants actorId ∧ ∀ l, Stocks (rack dressId d.after) l → Saved (normalized variants) l
  stable _ _ _ _ _ _ _ h := h

variable {hE : ∀ t l (o : Op schema outside), Writes cfg (reqs t) l o → (guarding cfg.watched).Legal l o}

abbrev stocking (cfg : Config) (reqs : Tid → Request)
    (hE : ∀ t l (o : Op schema outside), Writes cfg (reqs t) l o → (guarding cfg.watched).Legal l o) (dressId : Nat) :
    Contract (staff cfg reqs (guarding cfg.watched) hE) outside Err :=
  tending cfg reqs hE (sizesLedger dressId reqs)

theorem sizes_stills : Stills (sizesLedger dressId reqs) (.variants dressId) .dressVariants t := by
  intro e h
  refine .inl ?_
  rw [Engine.entry_after]
  exact h

section Threads

variable {α β : Type} {Q : Except Err β → World schema outside → Prop} {w : World schema outside} {begun : Int}
  {c v : Nat → Option DressVariant}

theorem softDeleteAll_ensures {k : Nat → Prg β} (hcfg : cfg.watched = .variants dressId)
    (h : Held (.variants dressId) .dressVariants t begun c c w)
    (hk : ∀ n (v : Nat → Option DressVariant) w1, Held (.variants dressId) .dressVariants t begun c v w1 → w1.db.own t = w.db.own t →
      (∀ i r, v i = some r → r.live = false) → (stocking cfg reqs hE dressId).Ensures t (k n) Q w1) :
    (stocking cfg reqs hE dressId).Ensures t (Variants.softDeleteAll dressId now >>= k) Q w := by
  unfold Variants.softDeleteAll
  refine ensures_first (under_select tending_historic (covers_guards hcfg) h fun w1 h1 hL1 _ hown1 => ?_)
  have hids : ∀ i u, c i = some u → u.live = true →
      i ∈ matching ⟨w1.db.view t, w1.db.next⟩ .dressVariants (DressVariant.of dressId) := by
    intro i u hu hlive
    obtain ⟨hview, hdress⟩ := (Engine.Under.row (S := schema) (T := Table.dressVariants) h1).1 hu
    refine (mem_matching_iff fun j r hr => (hL1.view_consistent t).id .dressVariants j r hr).2 ⟨hL1.view_lt hview, u, hview, ?_⟩
    exact decide_eq_true ⟨of_decide_eq_true hdress, of_decide_eq_true hlive⟩
  generalize matching ⟨w1.db.view t, w1.db.next⟩ .dressVariants (DressVariant.of dressId) = ids at hids ⊢
  refine ensures_first (under_updateAll (S := schema) (T := Table.dressVariants) tending_historic (covers_guards hcfg)
    (fun u r hr => ?_) h1 (fun w2 v' i u r _ hL2 h2 hu hr hrefuses => ?_) fun rs w2 h2 hown2 =>
      hk rs.length _ w2 h2 (hown2.trans hown1) fun i r hr => retired_dead (fun j u hu => ?_) hids hr)
  · obtain ⟨hdress, -, rfl⟩ := retire_some hr
    exact ⟨decide_eq_true hdress, decide_eq_true hdress⟩
  · obtain ⟨-, -, rfl⟩ := retire_some hr
    refine absurd hrefuses (Engine.not_refuses ?_ fun u' => ?_)
    · exact (hL2.view_consistent t).check .dressVariants i u ((Engine.Under.row (S := schema) (T := Table.dressVariants) h2).1 hu).1
    · dsimp only
      simp [clash]
  · exact of_decide_eq_true ((Engine.Under.row (S := schema) (T := Table.dressVariants) h1).1 hu).2

theorem insertEach_ensures {k : Unit → Prg β} {own : List (Commit schema)} (hcfg : cfg.watched = .variants dressId) :
    ∀ (vs ws : List VariantInput) (v : Nat → Option DressVariant) (w : World schema outside),
    (∀ u ∈ vs, 0 ≤ u.quantity ∧ u.quantity ≤ MAX_VARIANT_QUANTITY) → Held (.variants dressId) .dressVariants t begun c v w →
    w.db.own t = own → Written cfg v ws →
    (∀ w', w'.db.own t = own → ¬((ws ++ vs).map fun u => cfg.sqlLower u.sizeLabel).Nodup → Q (.error .integrity) w') →
    (∀ v' w', Held (.variants dressId) .dressVariants t begun c v' w' → w'.db.own t = own → Written cfg v' (ws ++ vs) →
      (stocking cfg reqs hE dressId).Ensures t (k ()) Q w') →
    (stocking cfg reqs hE dressId).Ensures t (insertEach cfg dressId vs >>= k) Q w
  | [], ws, v, w, _, h, hown, hwritten, _, hk => hk v w h hown (by simpa using hwritten)
  | u :: vs, ws, v, w, hquantity, h, hown, hwritten, herr, hk => by
    obtain ⟨hhead, hrest⟩ := List.forall_mem_cons.1 hquantity
    unfold insertEach Variants.insert
    refine ensures_first (under_insert (S := schema) (T := Table.dressVariants) tending_historic (covers_guards hcfg)
      (fun i n => decide_eq_true rfl) h (fun w1 i hown1 h1 hrefuses => herr w1 (hown1.trans hown) fun hnodup => ?_)
      fun w1 i h1 hown1 hL1 hnew => ?_)
    · rcases Engine.Under.refuses (S := schema) (T := Table.dressVariants) h1
        (fun u' hclash => decide_eq_true (of_decide_eq_true hclash).2.2.1.symm) hrefuses with hcheck | ⟨j, u', -, hu', hclash⟩
      · have hpasses : rowCheck .dressVariants (⟨i, begun, none, dressId, u.sizeLabel, cfg.sqlLower u.sizeLabel, u.quantity, u.sortOrder⟩ :
            DressVariant) = true := decide_eq_true ⟨hhead.1, hhead.2.trans (by decide)⟩
        exact absurd (hpasses.symm.trans hcheck) (by decide)
      · obtain ⟨-, hlive, -, hkey⟩ := of_decide_eq_true hclash
        obtain ⟨u'', hmem, hsame⟩ := hwritten.key hu' (decide_eq_true hlive)
        rw [List.map_append, List.nodup_append] at hnodup
        exact hnodup.2.2 _ (List.mem_map_of_mem hmem) _ (List.mem_map_of_mem List.mem_cons_self) (hsame.symm.trans hkey.symm)
    · have hmore := hwritten.add (fun j a hj => Held.keyed h1 hL1 hj) hnew (decide_eq_true rfl) rfl
      refine insertEach_ensures hcfg vs (ws ++ [u]) _ w1 hrest h1 (hown1.trans hown) hmore (fun w' hw' hnodup => ?_)
        fun v' w' h' hw' hv' => ?_
      · exact herr w' hw' (by simpa using hnodup)
      · exact hk v' w' h' hw' (by simpa using hv')

def Repeats (cfg : Config) (vs : List VariantInput) : Prop :=
  ¬(vs.map fun v => cfg.lower v.sizeLabel).Nodup ∨ ¬(vs.map fun v => cfg.sqlLower v.sizeLabel).Nodup

def InPlace (dressId : Nat) (variants : List VariantInput) (d : Commit schema) : Prop :=
  ∀ l, Stocks (rack dressId d.after) l → Saved (normalized variants) l

variable {variants : List VariantInput}

theorem replaceIn_ensures {actorId : Nat} {k : Unit → Prg β} (hcfg : cfg.watched = .variants dressId)
    (hreq : reqs t = .replaceVariants dressId variants actorId)
    (hvalid : validateVariants (normalized variants) = .ok ()) (h : Bare .dressVariants t w) (hown : w.db.own t = [])
    (herr : ∀ e w', w'.db.own t = [] → (e = .catalogNotFound ∨ e = .integrity ∧ Repeats cfg (normalized variants)) → Q (.error e) w')
    (hok : ∀ d w', Bare .dressVariants t w' → w'.db.own t = [d] → InPlace dressId variants d →
      (stocking cfg reqs hE dressId).Ensures t (k ()) Q w') :
    (stocking cfg reqs hE dressId).Ensures t
      (tenantSession (fun txNow => replaceIn cfg dressId (normalized variants) actorId txNow) >>= k) Q w := by
  have herr : ∀ e w', (e = .catalogNotFound ∨ e = .integrity ∧ Repeats cfg (normalized variants)) → w'.db.own t = [] →
      Closes (stocking cfg reqs hE dressId) t k Q (.error e) w' := fun e w' he hw' w'' hev' _ =>
    herr e _ (hev'.db.since.own.trans hw') he
  refine held_session (T := .dressVariants) hcfg h fun txNow c w2 h2 hown2 => ?_
  have hown2 : w2.db.own t = [] := hown2.trans hown
  refine under_select tending_historic (covers_guards hcfg) h2 fun w3 h3 _ _ hown3 => ensures_raiseIf
    (fun _ => herr _ _ (.inl rfl) (hown3.trans hown2)) fun _ => ?_
  refine softDeleteAll_ensures hcfg h3 fun n v w4 h4 hown4 hgone => ?_
  refine insertEach_ensures hcfg (normalized variants) [] v w4 (quantity_of_valid hvalid) h4 (hown4.trans (hown3.trans hown2))
    (written_none hgone) (fun w' hw' hnodup => herr _ w' (.inr ⟨rfl, .inr hnodup⟩) hw') fun v' w5 h5 hown5 hwritten => ?_
  refine ensures_last (held_record (T := .dressVariants) hcfg nofun h5 fun w6 h6 hown6 => ?_)
  refine held_close hcfg h6 (fun e _ _ hsight _ => .inr ⟨variants, actorId, hreq, ?_⟩) fun w7 d hbare hown7 _ hafter =>
    hok d w7 hbare (by rw [hown7, hown6.trans hown5]; rfl) ?_
  · have hafter : rack dressId (e.entry t).after = v' := by
      rw [Engine.entry_after]
      exact hsight
    rw [hafter]
    exact fun _ => hwritten.saved
  · have hafter : rack dressId d.after = v' := hafter
    rw [InPlace, hafter]
    exact fun _ => hwritten.saved

/-- **How a replacement ends**: its list is in place, or it has committed nothing for a reason of its own. -/
inductive Ended (cfg : Config) (dressId : Nat) (variants : List VariantInput) (own : List (Commit schema)) : Except Err Response → Prop
  | replaced (response : Response) (d : Commit schema) (hd : d ∈ own) (h : InPlace dressId variants d) :
    Ended cfg dressId variants own (.ok response)
  | missing : Ended cfg dressId variants own (.error .catalogNotFound)
  | refused (e : Err) (hown : own = []) (h : validateVariants (normalized variants) = .error e) :
    Ended cfg dressId variants own (.error e)
  | repeats (hown : own = []) (h : Repeats cfg (normalized variants)) : Ended cfg dressId variants own (.error .duplicateSize)

theorem replaceVariants_ensures {actorId : Nat} (hcfg : cfg.watched = .variants dressId)
    (hreq : reqs t = .replaceVariants dressId variants actorId) (h : Bare .dressVariants t w)
    (hown : w.db.own t = []) :
    (stocking cfg reqs hE dressId).Ensures t (replaceVariants cfg dressId variants actorId)
      (fun x w' => Ended cfg dressId variants (w'.db.own t) x) w := by
  unfold replaceVariants
  refine ensures_liftExcept (fun e he => .refused e hown he) fun _ hvalid => ?_
  refine ensures_liftExcept (fun e he => ?_) fun _ _ => ?_
  · obtain ⟨rfl, hrepeats⟩ := duplicate_of_rejected he
    exact .repeats hown (.inl hrepeats)
  refine ensures_attempt (ensures_last (replaceIn_ensures hcfg hreq hvalid h hown (fun e w' hw' he => ?_)
    fun d w' hbare hw' hplaced => ?_))
  · rcases he with rfl | ⟨rfl, hrepeats⟩
    · exact .missing
    · exact .repeats hw' hrepeats
  · show (stocking cfg reqs hE dressId).Ensures t (detailView cfg dressId false) _ w'
    refine ensures_mono (fun x w'' hx => ?_) (ensures_ends (detailView_raises dressId false)
      (quiet_ensures (k := 0) sizes_stills nofun (served_detailView _ _).within hbare List.prefix_rfl))
    obtain ⟨hraises, -, hgrown⟩ := hx
    cases x with
    | ok response => exact .replaced response d (hgrown.subset (by rw [hw']; simp)) hplaced
    | error e =>
      rw [hraises e rfl]
      exact .missing

end Threads

/-! ## The run -/

def Tells (cfg : Config) (r : Request) (dressId : Nat) (t : Tid) (x : Except Err Response) (w : World schema outside) : Prop :=
  ∀ variants actorId, r = .replaceVariants dressId variants actorId → Ended cfg dressId variants (w.db.own t) x

theorem request_stocks {w : World schema outside} (hcfg : cfg.watched = .variants dressId) (h : Bare .dressVariants t w)
    (hown : w.db.own t = []) :
    (stocking cfg reqs hE dressId).logic.Safe t ((reqs t).code cfg) (Tells cfg (reqs t) dressId t) w := by
  by_cases htends : (reqs t).tends (.variants dressId) = true
  · cases hreq : reqs t with
    | replaceVariants d variants actorId =>
      rw [hreq] at htends
      obtain rfl := of_decide_eq_true htends
      refine safe_of_ensures (replaceVariants_ensures hcfg hreq h hown) fun x w1 w2 hx hev _ _ => ?_
      rintro vs actor ⟨⟩
      rw [show w2.db.own t = w1.db.own t from hev.db.since.own]
      exact hx
    | _ => rw [hreq] at htends; cases htends
  · refine untended_safe hcfg sizes_stills (Bool.eq_false_iff.2 htends) fun x w' variants actorId hreq => ?_
    rw [hreq] at htends
    exact absurd (decide_eq_true rfl) htends

/-- **The sizes of a dress at a version** of the tables. -/
def sizesAt (s : World schema outside) (dressId m : Nat) : List VariantInput :=
  (Variants.active ⟨s.db.version m, s.db.next⟩ dressId).map DressVariant.sent

variable {D : Cast schema} {s : World schema outside} {m next : Nat} {store : Store} {clock : Int}
  {c : Conf (machine schema outside Err) Response}

theorem stocks_sizesAt (hL : s.db.Lawful D) (hm : m ≤ s.db.log.length) :
    Stocks (rack dressId (s.db.version m)) (sizesAt s dressId m) := by
  have hkeyed : Keyed DressVariant.id (s.db.version m .dressVariants) := (hL.version_consistent m).id .dressVariants
  have hnone (i : Nat) (hi : s.db.next ≤ i) := hL.version_none_of_le hm .dressVariants hi
  refine ⟨_, (lists_ranked (p := DressVariant.of dressId) hkeyed hnone).of_mem fun v => ?_, rfl⟩
  refine exists_congr fun i => ?_
  rw [rack_some]
  simp only [DressVariant.live, DressVariant.of, decide_eq_true_eq]
  tauto

/-- **The size matrix is replaced whole.**  While a dress is neither archived nor restored, each commit of any run leaves its sizes
or makes them one list that was sent, whole and by its sort order; a replacement that returns has made one such commit.  One that
raises for another reason than a missing dress has committed nothing, and its own list does not pass or names a size twice. -/
theorem sizes_replaced_whole (h : Shelved rows next) (hcfg : cfg.watched = .variants dressId)
    (hreqs : ∀ t, (reqs t).cascades dressId = false) (hr : (serving cfg reqs store rows next clock).Reaches c) :
    (∀ m d, c.state.db.log[m]? = some d → sizesAt c.state dressId (m + 1) = sizesAt c.state dressId m ∨ ∃ variants actorId,
      reqs d.by_ = .replaceVariants dressId variants actorId ∧
      Saved (normalized variants) (sizesAt c.state dressId (m + 1))) ∧
    ∀ t variants actorId, reqs t = .replaceVariants dressId variants actorId →
      (∀ response, c.threads t = some (.ret response) → ∃ m d, c.state.db.log[m]? = some d ∧ d.by_ = t ∧
        Saved (normalized variants) (sizesAt c.state dressId (m + 1))) ∧
      ∀ e, c.threads t = some (.raise e) → e = .catalogNotFound ∨ c.state.db.own t = [] ∧
        (validateVariants (normalized variants) = .error e ∨ e = .duplicateSize ∧ Repeats cfg (normalized variants)) := by
  obtain ⟨D, hL, -, hledger, hends⟩ := tending_runs (T := .dressVariants) (P := sizesLedger dressId reqs)
    (Q := fun t => Tells cfg (reqs t) dressId t) h hcfg (fun t d hd => by cases hd; exact hreqs t)
    (fun hE t w hbare hown => request_stocks hcfg hbare hown) hr
  refine ⟨fun m d hm => ?_, fun t variants actorId hreq => ⟨fun response ht => ?_, fun e ht => ?_⟩⟩
  · obtain ⟨hlt, hbefore, hafter⟩ := hL.entry_spans hm
    have hnew : Stocks (rack dressId _) _ := stocks_sizesAt hL hlt
    rcases hledger m d hm with hstill | ⟨variants, actorId, hreq, hsaved⟩
    · rw [hbefore, hafter] at hstill
      rw [hstill] at hnew
      exact .inl (hnew.unique (stocks_sizesAt hL hlt.le))
    · rw [← hafter] at hnew
      exact .inr ⟨variants, actorId, hreq, hsaved _ hnew⟩
  · have hended := (hends t).1 response ht variants actorId hreq
    cases hended with
    | replaced _ d hd hplaced =>
      obtain ⟨m, hm, hby, hlt, -, hafter⟩ := hL.own_spans hd
      exact ⟨m, d, hm, hby, hplaced _ (hafter ▸ stocks_sizesAt hL hlt)⟩
  · have hended := (hends t).2 e ht variants actorId hreq
    cases hended with
    | missing => exact .inl rfl
    | refused _ hown hinvalid => exact .inr ⟨hown, .inl hinvalid⟩
    | repeats hown hrepeats => exact .inr ⟨hown, .inr ⟨rfl, hrepeats⟩⟩

def racked : (T : Table) → List (Row T)
  | .dresses => [(⟨0, 0, none, "lace", none, none, false, false, 0⟩ : Dress)]
  | .dressVariants => [(⟨1, 0, none, 0, "XS", "XS", 1, 0⟩ : DressVariant)]
  | _ => []

theorem racked_shelved : Shelved (listed (S := schema) racked) 2 :=
  shelved_of_stocked [.dresses, .dressVariants, .dressMedia, .dressReservations, .customers, .auditLog]
    (fun T => by cases T <;> decide) (by decide)

def sizesConfig : Config := ⟨.variants 0, 900, id, id⟩

/-- Two owners send a list each, and the others one that names a size twice. -/
def threeLists : Tid → Request
  | 0 => .replaceVariants 0 [⟨"M", 1, 1⟩, ⟨"S", 2, 0⟩] 0
  | 1 => .replaceVariants 0 [⟨"L", 3, 0⟩] 0
  | _ => .replaceVariants 0 [⟨"L", 3, 0⟩, ⟨"L ", 1, 0⟩] 0

theorem threeLists_cascades (t : Tid) : (threeLists t).cascades 0 = false := by
  unfold threeLists
  split <;> rfl

theorem sizes_replaced_whole_twice :
    ∃ c, (serving sizesConfig threeLists posted (listed (S := schema) racked) 2 0).Reaches c ∧
      (∃ m, Saved [⟨"M", 1, 1⟩, ⟨"S", 2, 0⟩] (sizesAt c.state 0 (m + 1))) ∧ (∃ m, Saved [⟨"L", 3, 0⟩] (sizesAt c.state 0 (m + 1))) ∧
      c.state.db.own 2 = [] := by
  obtain ⟨c, hc, hP⟩ := Conf.reached_freely (serving sizesConfig threeLists posted (listed (S := schema) racked) 2 0)
    (answered 1 1 ++ answered 0 9 ++ answered 1 16 ++ answered 0 8)
    (fun c => decide (c.returned 0 = true ∧ c.returned 1 = true ∧ c.failure 2 = some .duplicateSize)) (by decide)
  obtain ⟨hfirst, hsecond, htwice⟩ := of_decide_eq_true hP
  obtain ⟨response, hresponse⟩ := Conf.returned_iff.1 hfirst
  obtain ⟨response', hresponse'⟩ := Conf.returned_iff.1 hsecond
  obtain ⟨-, hends⟩ := sizes_replaced_whole racked_shelved rfl threeLists_cascades hc
  obtain ⟨m, -, -, -, hm⟩ := (hends 0 _ _ rfl).1 response hresponse
  obtain ⟨m', -, -, -, hm'⟩ := (hends 1 _ _ rfl).1 response' hresponse'
  refine ⟨c, hc, ⟨m, ?_⟩, ⟨m', ?_⟩, ?_⟩
  · exact hm
  · exact hm'
  rcases (hends 2 _ _ rfl).2 _ (Conf.failure_eq_some.1 htwice) with hmissing | ⟨hown, -⟩
  · cases hmissing
  · exact hown

end Catalog

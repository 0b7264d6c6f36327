import Boutique.Gallery
import Boutique.Tended
import Boutique.Vetted
/-!
# Showroom — the gallery of a dress over whole runs

Each commit of a run is one step of the gallery: of the request that made it, or none.  The requests that work on the photos hold
the dress's lock from before they read them until they commit, and the others leave them.
-/
namespace Catalog

open Txn Session Contract Ranked
open Staff (MediaFailure)

variable {cfg : Config} {reqs : Tid → Request} {dressId k n : Nat} {t : Tid} {a : Gallery} {e : Engine schema}
  {rows : Rows schema}

abbrev photosOf (dressId : Nat) : Row .dressMedia → Bool := (LockKey.media dressId).covers .dressMedia

def shelf (dressId : Nat) (rows : Rows schema) : Nat → Option DressMedia := 
  part (S := schema) (T := Table.dressMedia) (photosOf dressId) (rows .dressMedia)

variable {i : Nat}

theorem shelf_some {v : DressMedia} :
    shelf dressId rows i = some v ↔ rows .dressMedia i = some v ∧ v.dressId = dressId := by
  unfold shelf
  rw [part_some]
  exact and_congr_right fun _ => decide_eq_true_iff

/-- **The gallery that a SELECT sees.** -/
def galleryOf (s : Snapshot schema) (dressId : Nat) : Gallery :=
  ⟨(Media.gallery s dressId).map DressMedia.id, (ranked (fun _ => 0) DressMedia.id ((s.all .dressMedia).filter fun (r : DressMedia) =>
    r.of dressId ∧ r.status = .pending)).map DressMedia.id⟩

theorem shelf_keyed (h : Consistent rows) : Keyed DressMedia.id (shelf dressId rows) := by
  intro i v hv
  exact h.id .dressMedia i v (shelf_some.1 hv).1

theorem depicts_galleryOf (h : Consistent rows) (hn : ∀ i, n ≤ i → rows .dressMedia i = none) :
    Depicts (shelf dressId rows) (galleryOf ⟨rows, n⟩ dressId) := by
  have hkeyed : Keyed DressMedia.id (rows .dressMedia) := fun i v hv => h.id .dressMedia i v hv
  refine ⟨⟨_, (lists_ranked (p := fun (r : DressMedia) => r.of dressId ∧ r.ready) hkeyed hn).of_mem fun v => ?_, rfl⟩,
    _, (lists_ranked (p := fun (r : DressMedia) => r.of dressId ∧ r.status = .pending) hkeyed hn).of_mem fun v => ?_, rfl⟩
  · refine exists_congr fun i => ?_
    rw [shelf_some]
    simp only [DressMedia.up, DressMedia.ready, DressMedia.of, decide_eq_true_eq]
    tauto
  · refine exists_congr fun i => ?_
    rw [shelf_some]
    simp only [DressMedia.waits, DressMedia.of, decide_eq_true_eq]
    tauto

theorem countActive_eq {s : Snapshot schema} {staleBefore : Int} (h : Depicts (shelf dressId s.rows) a)
    (hkeyed : Keyed DressMedia.id (shelf dressId s.rows)) (hn : ∀ i, s.next ≤ i → shelf dressId s.rows i = none)
    (hyoung : ∀ i v, shelf dressId s.rows i = some v → v.waits = true → staleBefore ≤ v.createdAt) :
    (s.all .dressMedia).countP (fun (r : DressMedia) => r.of dressId ∧ (r.ready ∨ staleBefore ≤ r.createdAt)) = a.size := by
  obtain ⟨l, hl, hshown⟩ := h.shown
  obtain ⟨m, hm, hwaiting⟩ := h.waiting
  have hcount := hl.length_add hm (s := fun r => decide (r.deletedAt = none) && (r.ready || decide (staleBefore ≤ r.createdAt)))
    hkeyed hn (fun i v hv => ?_) fun i v _ hup => waits_of_up hup
  · rw [Gallery.size, ← hshown, ← hwaiting, List.length_map, List.length_map, ← hcount]
    have hrows : rowsOf (shelf dressId s.rows) s.next = (s.all .dressMedia).filter (photosOf dressId) := by
      unfold rowsOf shelf Snapshot.all
      rw [List.filter_filterMap]
      rfl
    rw [hrows, List.countP_filter]
    refine List.countP_congr fun r _ => ?_
    simp only [photosOf, LockKey.covers, DressMedia.of, Bool.and_eq_true, decide_eq_true_eq, Bool.or_eq_true]
    tauto
  · cases hd : v.deletedAt with
    | some at_ => simp [DressMedia.up, DressMedia.waits, hd]
    | none =>
      cases hs : v.status with
      | ready => simp [DressMedia.up, DressMedia.waits, DressMedia.ready, hd, hs]
      | pending =>
        have hage := hyoung i v hv (decide_eq_true ⟨hd, hs⟩)
        simp [DressMedia.up, DressMedia.waits, DressMedia.ready, hd, hs, hage]

/-! ## The ledger -/

def Added (dressId : Nat) (own : List (Commit schema)) (k : Nat) : Prop :=
  ∃ d ∈ own, shelf dressId d.before k = none ∧ shelf dressId d.after k ≠ none

def galleryLedger (dressId : Nat) (ttl : Int) (reqs : Tid → Request) : Ledger schema where
  Holds e m d := (Apart (shelf dressId d.before) → Apart (shelf dressId d.after)) ∧
    ∀ a, Depicts (shelf dressId d.before) a → ∃ a', Depicts (shelf dressId d.after) a' ∧
      Gallery.Step dressId ttl (madeAt (shelf dressId d.after)) (Added dressId ((e.log.take m).filter fun c => c.by_ = d.by_))
        (reqs d.by_) a a'
  stable e e' m d hm hlog _ h := by
    have htake : e'.log.take m = e.log.take m := by
      obtain ⟨rest, hrest⟩ := hlog
      rw [← hrest, List.take_append_of_le_length (List.getElem?_eq_some_iff.1 hm).1.le]
    rw [htake]
    exact h

variable {hE : ∀ t l (o : Op schema outside), Writes cfg (reqs t) l o → (guarding cfg.watched).Legal l o}

abbrev curating (cfg : Config) (reqs : Tid → Request)
    (hE : ∀ t l (o : Op schema outside), Writes cfg (reqs t) l o → (guarding cfg.watched).Legal l o) (dressId : Nat) :
    Contract (staff cfg reqs (guarding cfg.watched) hE) outside Err :=
  tending cfg reqs hE (galleryLedger dressId cfg.pendingTtl reqs)

theorem take_commit (t : Tid) : ((e.commit t).log.take e.log.length).filter (fun c => c.by_ = t) = e.own t := by
  rw [Engine.commit_log, List.take_left']
  · rfl
  · rfl

theorem gallery_stills {ttl : Int} : Stills (galleryLedger dressId ttl reqs) (.media dressId) .dressMedia t := by
  intro e h
  have h : shelf dressId (e.view t) = shelf dressId e.committed := h
  refine ⟨fun hapart => ?_, fun a ha => ⟨a, ?_, .skip _ _⟩⟩
  all_goals
    rw [Engine.entry_after, h]
    assumption

section Threads

variable {α β : Type} {Q : Except Err β → World schema outside → Prop} {w : World schema outside} {begun : Int}
  {c v : Nat → Option DressMedia}

/-! ## The transactions -/

/-- **With the lock**, in a transaction that began at `n`, `t` has found `c` of the dress's photos and made them `v`. -/
abbrev Curated (dressId : Nat) (t : Tid) (n : Int) (c v : Nat → Option DressMedia) (w : World schema outside) : Prop :=
  Held (.media dressId) .dressMedia t n c v w

theorem Curated.dress (h : Curated dressId t begun c v w) {u : DressMedia} (hu : v i = some u) : u.dressId = dressId :=
  of_decide_eq_true ((h.row (S := schema) (T := Table.dressMedia)).1 hu).2

theorem curated_update {g : DressMediaChange} {k : Option DressMedia → Prg β} (hcfg : cfg.watched = .media dressId)
    (hg : g.dress = dressId) (h : Curated dressId t begun c v w)
    (herr : ∀ w1, w1.db.own t = w.db.own t → Q (.error .integrity) w1)
    (hnone : ∀ w1, Curated dressId t begun c v w1 → w1.db.own t = w.db.own t → (v i).bind (fun u => g.apply u) = none →
      (curating cfg reqs hE dressId).Ensures t (k none) Q w1)
    (hsome : ∀ w1 u r, Curated dressId t begun c (Function.update v i (some r)) w1 → w1.db.own t = w.db.own t → v i = some u →
      g.apply u = some r → (curating cfg reqs hE dressId).Ensures t (k (some r)) Q w1) :
    (curating cfg reqs hE dressId).Ensures t (update .dressMedia i g >>= k) Q w := by
  refine under_update (S := schema) (T := Table.dressMedia) tending_historic (covers_guards hcfg) (fun u r hr => ?_) h
    (fun w1 _ _ hown _ _ _ _ _ => herr w1 hown) hnone hsome
  obtain ⟨hu, hr'⟩ := DressMediaChange.dress_eq hr
  exact ⟨decide_eq_true (hu.trans hg), decide_eq_true (hr'.trans hg)⟩

theorem curated_close {x : α} {k : α → Prg β} (hcfg : cfg.watched = .media dressId) (h : Curated dressId t begun c v w)
    (hstep : Keyed DressMedia.id c → (Apart c → Apart v) ∧ ∀ a, Depicts c a → ∃ a', Depicts v a' ∧
      Gallery.Step dressId cfg.pendingTtl (madeAt v) (Added dressId (w.db.own t)) (reqs t) a a')
    (hk : ∀ w1 d, Bare .dressMedia t w1 → w1.db.own t = w.db.own t ++ [d] → shelf dressId d.before = c →
      shelf dressId d.after = v → (curating cfg reqs hE dressId).Ensures t (k x) Q w1) :
    Closes (curating cfg reqs hE dressId) t k Q (.ok x) w := by
  refine held_close hcfg h (fun e hL hfound hsight hown => ?_) hk
  have hbefore : shelf dressId e.committed = c := hfound
  have hafter : shelf dressId (e.entry t).after = v := by
    rw [Engine.entry_after]
    exact hsight
  have hc : Keyed DressMedia.id c := hbefore ▸ shelf_keyed hL.rows
  refine ⟨?_, fun a ha => ?_⟩
  · show Apart (shelf dressId e.committed) → _
    rw [hbefore, hafter]
    exact (hstep hc).1
  · have ha : Depicts c a := by
      rw [← hbefore]
      exact ha
    obtain ⟨a', ha', hstep⟩ := (hstep hc).2 a ha
    refine ⟨a', by rw [hafter]; exact ha', ?_⟩
    rw [← hown, ← take_commit (e := e) t, ← hafter] at hstep
    exact hstep

variable {contentType : String} {byteSize : Int} {actorId mediaId : Nat}

theorem presignIn_ensures {k : List DressMedia × DressMedia → Prg β} (hcfg : cfg.watched = .media dressId)
    (hreq : reqs t = .presignMedia dressId contentType byteSize actorId) (h : Bare .dressMedia t w)
    (herr : ∀ e w', Bare .dressMedia t w' → Q (.error e) w')
    (hok : ∀ x w', Bare .dressMedia t w' → Added dressId (w'.db.own t) x.2.id →
      (curating cfg reqs hE dressId).Ensures t (k x) Q w') :
    (curating cfg reqs hE dressId).Ensures t
      (tenantSession (fun txNow => presignIn cfg dressId contentType byteSize actorId txNow) >>= k) Q w := by
  have hfail : ∀ e w', Closes (curating cfg reqs hE dressId) t k Q (.error e) w' := session_error herr
  refine held_session (T := .dressMedia) hcfg h fun txNow c w2 h2 _ => ?_
  refine under_select tending_historic (covers_guards hcfg) h2 fun w3 h3 _ _ _ => ensures_raiseIf (fun _ => hfail _ _) fun _ => ?_
  refine ensures_first (under_select tending_historic (covers_guards hcfg) h3 fun w4 h4 hL4 _ _ => ?_)
  have hids : ∀ i u, c i = some u → (DressMediaChange.sweep dressId (txNow - cfg.pendingTtl) txNow).apply u ≠ none →
      i ∈ matching ⟨w4.db.view t, w4.db.next⟩ .dressMedia (fun (r : DressMedia) =>
        r.of dressId ∧ r.status = .pending ∧ r.createdAt < txNow - cfg.pendingTtl) := by
    intro i u hu happly
    have hview := ((Engine.Under.row (S := schema) (T := Table.dressMedia) h4).1 hu).1
    refine (mem_matching_iff fun j r hr => (hL4.view_consistent t).id .dressMedia j r hr).2 ⟨hL4.view_lt hview, u, hview, ?_⟩
    simp only [DressMediaChange.apply] at happly
    by_contra hnot
    exact happly (if_neg fun hc => hnot (decide_eq_true hc))
  generalize matching ⟨w4.db.view t, w4.db.next⟩ .dressMedia (fun (r : DressMedia) =>
    r.of dressId ∧ r.status = .pending ∧ r.createdAt < txNow - cfg.pendingTtl) = ids at hids ⊢
  refine under_updateAll (S := schema) (T := Table.dressMedia) tending_historic (covers_guards hcfg) (fun u r hr => ?_) h4
    (fun w' _ _ _ _ _ _ _ _ _ _ => hfail _ w') fun swept w5 h5 _ => ?_
  · have hr : (DressMediaChange.sweep dressId (txNow - cfg.pendingTtl) txNow).apply u = some r := hr
    obtain ⟨hu, hr'⟩ := DressMediaChange.dress_eq hr
    exact ⟨decide_eq_true hu, decide_eq_true hr'⟩
  have h5 : Curated dressId t txNow c (sweptRows dressId (txNow - cfg.pendingTtl) txNow c ids) w5 := h5
  refine under_select tending_historic (covers_guards hcfg) h5 fun w6 h6 hL6 _ _ => ensures_raiseIf (fun _ => hfail _ _) fun hfull => ?_
  have hroom : ∀ a', Depicts (sweptRows dressId (txNow - cfg.pendingTtl) txNow c ids) a' → a'.size < MAX_MEDIA_PER_DRESS := by
    intro a' ha'
    have hsight : shelf dressId (w6.db.view t) = _ := h6.sight
    rw [← hsight] at ha'
    have hyoung : ∀ i u, shelf dressId (w6.db.view t) i = some u → u.waits = true → txNow - cfg.pendingTtl ≤ u.createdAt := by
      intro i u hu hwaits
      rw [hsight] at hu
      exact sweptRows_young hids hu hwaits (Curated.dress h6 hu)
    have hcount := countActive_eq (s := ⟨w6.db.view t, w6.db.next⟩) ha' (by rw [hsight]; exact fun _ _ hu => Held.keyed h6 hL6 hu)
      (fun i hi => by rw [hsight]; exact h6.none_of_le hL6 hi) hyoung
    rw [← hcount]
    simpa using hfull
  refine ensures_liftExcept (fun e _ => hfail e _) fun extension_ _ => ?_
  unfold Media.insertPending
  refine under_insert (S := schema) (T := Table.dressMedia) tending_historic (covers_guards hcfg) (fun i n => decide_eq_true rfl) h6
    (fun w' _ _ _ _ => hfail _ w') fun w7 i h7 _ _ hnew => ?_
  refine held_record (T := .dressMedia) hcfg (fun hT => by cases hT) h7 fun w8 h8 hown8 => ?_
  have hgone : c i = none := by
    cases hi : c i with
    | none => rfl
    | some u =>
      have hrow := hnew i (Nat.le_refl i)
      rw [sweptRows_some hids hi] at hrow
      cases hrow
  refine curated_close hcfg h8 (fun hc => ⟨fun hapart => (hapart.swept hids).beside (up_of_waits (decide_eq_true ⟨rfl, rfl⟩)),
    fun a ha => ?_⟩) fun w9 d hbare hown hbefore hafter => hok _ _ hbare ?_
  · obtain ⟨hswept, hnow⟩ := ha.sweptPresigned hc (fun j u hu => Curated.dress h2 hu)
      (v := ⟨i, txNow, none, dressId, ⟨dressId, i, extension_⟩, contentType, byteSize, .pending, 0⟩) hids (sweptRows_keyed hc hids)
      hnew hgone (decide_eq_true ⟨rfl, rfl⟩) rfl rfl
    refine ⟨_, hnow, ?_⟩
    rw [hreq]
    refine .presign a i contentType byteSize actorId ⟨fun hmem => ?_, fun hmem => ?_⟩ (hroom _ hswept)
    · obtain ⟨u, hu, -⟩ := (ha.mem_shown hc).1 hmem
      rw [hgone] at hu
      cases hu
    · obtain ⟨u, hu, -⟩ := (ha.mem_waiting hc).1 hmem
      rw [hgone] at hu
      cases hu
  · refine ⟨d, by rw [hown]; simp, ?_, ?_⟩
    · rw [hbefore]
      exact hgone
    · rw [hafter]
      show Function.update (sweptRows dressId (txNow - cfg.pendingTtl) txNow c ids) i _ i ≠ none
      rw [Function.update_self]
      simp

theorem curated_softDelete {now : Int} {k : Bool → Prg β} (hcfg : cfg.watched = .media dressId)
    (h : Curated dressId t begun c c w) (herr : ∀ w1, Q (.error .integrity) w1)
    (hk : ∀ deleted w1 v, Curated dressId t begun c v w1 → w1.db.own t = w.db.own t →
      (v = c ∨ ∃ u r, c mediaId = some u ∧ u.deletedAt = none ∧ v = Function.update c mediaId (some r) ∧ r.deletedAt ≠ none) →
      (curating cfg reqs hE dressId).Ensures t (k deleted) Q w1) :
    (curating cfg reqs hE dressId).Ensures t (Media.softDelete dressId mediaId now >>= k) Q w := by
  unfold Media.softDelete
  refine ensures_first (curated_update hcfg rfl h (fun w1 _ => herr w1) (fun w1 h1 hown _ => hk _ w1 c h1 hown (.inl rfl))
    fun w1 u r h1 hown hu hr => hk _ w1 _ h1 hown (.inr ⟨u, r, hu, (softDelete_some hr).1, rfl, (softDelete_some hr).2⟩))

theorem releasePending_ensures {k : Unit → Prg β} (hcfg : cfg.watched = .media dressId)
    (hreq : reqs t = .presignMedia dressId contentType byteSize actorId) (h : Bare .dressMedia t w)
    (hmine : Added dressId (w.db.own t) mediaId) (herr : ∀ e w', Bare .dressMedia t w' → Q (.error e) w')
    (hok : ∀ w', Bare .dressMedia t w' → (curating cfg reqs hE dressId).Ensures t (k ()) Q w') :
    (curating cfg reqs hE dressId).Ensures t (releasePending cfg dressId mediaId >>= k) Q w := by
  have hfail : ∀ e w', Closes (curating cfg reqs hE dressId) t k Q (.error e) w' := session_error herr
  refine held_session (T := .dressMedia) hcfg h fun txNow c w2 h2 hown2 => ?_
  refine curated_softDelete hcfg h2 (fun w' => hfail _ w') fun deleted w3 v h3 hown3 hv => ?_
  refine curated_close hcfg h3 (fun hc => ?_) fun w4 d hbare _ _ _ => hok w4 hbare
  rcases hv with rfl | ⟨u, r, -, -, rfl, hr⟩
  · exact ⟨id, fun a ha => ⟨a, ha, .skip _ _⟩⟩
  · refine ⟨fun hapart => hapart.beside (down_of_deleted hr).1, fun a ha => ⟨_, ha.without hc hr, ?_⟩⟩
    rw [hreq]
    refine .release a mediaId contentType byteSize actorId ?_
    rw [hown3, hown2]
    exact hmine

theorem promoteIn_ensures {k : Unit → Prg β} (hcfg : cfg.watched = .media dressId)
    (hreq : reqs t = .confirmMedia dressId mediaId actorId) (h : Bare .dressMedia t w)
    (herr : ∀ e w', Bare .dressMedia t w' → Q (.error e) w')
    (hok : ∀ w', Bare .dressMedia t w' → (curating cfg reqs hE dressId).Ensures t (k ()) Q w') :
    (curating cfg reqs hE dressId).Ensures t (tenantSession (fun _ => promoteIn cfg dressId mediaId actorId) >>= k) Q w := by
  have hfail : ∀ e w', Closes (curating cfg reqs hE dressId) t k Q (.error e) w' := session_error herr
  refine held_session (T := .dressMedia) hcfg h fun txNow c w2 h2 _ => ?_
  refine under_select tending_historic (covers_guards hcfg) h2 fun w3 h3 _ _ _ =>
    ensures_orRaise (fun _ => hfail _ _) fun row hrow => ?_
  have hstay : ∀ w', Curated dressId t txNow c c w' → Closes (curating cfg reqs hE dressId) t k Q (.ok ()) w' := fun w' h' =>
    curated_close hcfg h' (fun _ => ⟨id, fun a ha => ⟨a, ha, .skip _ _⟩⟩) fun w1 _ hbare _ _ _ => hok w1 hbare
  split
  · refine under_select tending_historic (covers_guards hcfg) h3 fun w4 h4 hL4 _ _ => ?_
    have hlast : ∀ i u, c i = some u → u.up = true → u.sortOrder < ((latestBy DressMedia.sortOrder
        ((Snapshot.all ⟨w4.db.view t, w4.db.next⟩ .dressMedia).filter fun (r : DressMedia) => r.of dressId ∧ r.ready)).map
        DressMedia.sortOrder).getD (-1) + 1 := by
      intro i u hu hup
      have hview := ((Engine.Under.row (S := schema) (T := Table.dressMedia) h4).1 hu).1
      have hmem : u ∈ (Snapshot.all ⟨w4.db.view t, w4.db.next⟩ .dressMedia).filter fun (r : DressMedia) =>
          r.of dressId ∧ r.ready := by
        obtain ⟨hlive, hready⟩ := of_decide_eq_true hup
        refine List.mem_filter.2 ⟨Snapshot.mem_all.2 ⟨i, hL4.view_lt hview, hview⟩, decide_eq_true ⟨?_, decide_eq_true hready⟩⟩
        exact DressMedia.of_iff.2 ⟨Curated.dress h4 hu, hlive⟩
      cases hlatest : latestBy DressMedia.sortOrder _ with
      | none =>
        rw [latestBy_none hlatest] at hmem
        cases hmem
      | some r =>
        have hle := latestBy_le hlatest hmem
        simp only [Option.map_some, Option.getD_some]
        omega
    unfold Media.promoteToReady
    refine ensures_first (curated_update hcfg rfl h4 (fun w' _ => hfail _ w') (fun w5 h5 _ _ => ?_) fun w5 u r h5 _ hu hr => ?_)
    · exact ensures_last (held_record (T := .dressMedia) hcfg nofun h5 fun w6 h6 _ => hstay w6 h6)
    refine ensures_last (held_record (T := .dressMedia) hcfg nofun h5 fun w6 h6 _ => ?_)
    obtain ⟨hwaits, rfl, hup⟩ := promote_some hr
    refine curated_close hcfg h6 (fun hc => ⟨fun hapart => hapart.concat hlast, fun a ha => ?_⟩)
      fun w7 _ hbare _ _ _ => hok w7 hbare
    refine ⟨_, ha.confirmed hc hu hwaits hup (hc mediaId u hu) hlast, ?_⟩
    rw [hreq]
    exact .confirm a mediaId actorId ((ha.mem_waiting hc).2 ⟨u, hu, hwaits⟩)
  · exact hstay w3 h3

theorem deleteMediaIn_ensures {k : MediaKey → Prg β} (hcfg : cfg.watched = .media dressId)
    (hreq : reqs t = .deleteMedia dressId mediaId actorId) (h : Bare .dressMedia t w)
    (herr : ∀ e w', Bare .dressMedia t w' → Q (.error e) w')
    (hok : ∀ key w', Bare .dressMedia t w' → (curating cfg reqs hE dressId).Ensures t (k key) Q w') :
    (curating cfg reqs hE dressId).Ensures t
      (tenantSession (fun txNow => deleteMediaIn cfg dressId mediaId actorId txNow) >>= k) Q w := by
  have hfail : ∀ e w', Closes (curating cfg reqs hE dressId) t k Q (.error e) w' := session_error herr
  refine held_session (T := .dressMedia) hcfg h fun txNow c w2 h2 _ => ?_
  refine under_select tending_historic (covers_guards hcfg) h2 fun w3 h3 _ _ _ => ensures_raiseIf (fun _ => hfail _ _) fun _ => ?_
  refine under_select tending_historic (covers_guards hcfg) h3 fun w4 h4 _ _ _ => ensures_orRaise (fun _ => hfail _ _) fun row _ => ?_
  refine curated_softDelete hcfg h4 (fun w' => hfail _ w') fun deleted w5 v h5 _ hv => ?_
  refine held_record (T := .dressMedia) hcfg nofun h5 fun w6 h6 _ => ?_
  refine curated_close hcfg h6 (fun hc => ?_) fun w7 _ hbare _ _ _ => hok _ w7 hbare
  rcases hv with rfl | ⟨u, r, hu, hlive, rfl, hr⟩
  · exact ⟨id, fun a ha => ⟨a, ha, .skip _ _⟩⟩
  · refine ⟨fun hapart => hapart.beside (down_of_deleted hr).1, fun a ha => ⟨_, ha.without hc hr, ?_⟩⟩
    rw [hreq]
    refine .delete a mediaId actorId ?_
    rcases up_or_waits hlive with hup | hwaits
    · exact .inl ((ha.mem_shown hc).2 ⟨u, hu, hup⟩)
    · exact .inr ((ha.mem_waiting hc).2 ⟨u, hu, hwaits⟩)

theorem setSortOrders_ensures {k : Unit → Prg β} {own : List (Commit schema)} (hcfg : cfg.watched = .media dressId)
    (herr : ∀ w1, w1.db.own t = own → Q (.error .integrity) w1) : ∀ (ids : List Nat) (position : Int)
    (v : Nat → Option DressMedia) (w : World schema outside), Curated dressId t begun c v w → w.db.own t = own →
    (∀ w1, Curated dressId t begun c (placedRows dressId position ids v) w1 → w1.db.own t = own →
      (curating cfg reqs hE dressId).Ensures t (k ()) Q w1) →
    (curating cfg reqs hE dressId).Ensures t (Media.setSortOrders dressId position ids >>= k) Q w
  | [], _, _, w, h, hown, hk => hk w h hown
  | i :: ids, position, v, w, h, hown, hk => by
    refine ensures_first (curated_update hcfg rfl h (fun w1 hw => herr w1 (hw.trans hown)) (fun w1 h1 hw hnone => ?_)
      fun w1 u r h1 hw hu hr => ?_)
    · refine setSortOrders_ensures hcfg herr ids (position + 1) v w1 h1 (hw.trans hown) fun w2 h2 => hk w2 ?_
      rw [placedRows, applyOne_none (S := schema) (T := Table.dressMedia) hnone]
      exact h2
    · refine setSortOrders_ensures hcfg herr ids (position + 1) _ w1 h1 (hw.trans hown) fun w2 h2 => hk w2 ?_
      rw [placedRows, applyOne_some (S := schema) (T := Table.dressMedia) (g := DressMediaChange.setSortOrder dressId position) hu hr]
      exact h2

/-! ## The reorder -/

theorem sorted_eq_iff {ids ids' : List Nat} : sorted ids = sorted ids' ↔ ids.Perm ids' := by
  have hperm (l : List Nat) : (sorted l).Perm l := List.perm_insertionSort _ _
  have hsorted (l : List Nat) : (sorted l).Pairwise (· ≤ ·) :=
    @List.pairwise_insertionSort _ (· ≤ ·) _ ⟨Nat.le_total⟩ ⟨fun _ _ _ => Nat.le_trans⟩ l
  constructor
  · intro h
    exact (hperm ids).symm.trans (h ▸ hperm ids')
  · intro h
    refine List.Perm.eq_of_pairwise (fun _ _ _ _ => Nat.le_antisymm) (hsorted ids) (hsorted ids') ?_
    exact (hperm ids).trans (h.trans (hperm ids').symm)

/-- **A commit that sets the list**: it was a permutation of what was shown, and is shown. -/
def Reorders (dressId : Nat) (mediaIds : List Nat) (d : Commit schema) : Prop :=
  ∀ a, Depicts (shelf dressId d.before) a → mediaIds.Perm a.shown ∧ Depicts (shelf dressId d.after) ⟨mediaIds, a.waiting⟩

def Disagrees (dressId : Nat) (mediaIds : List Nat) (e : Engine schema) : Prop :=
  ∃ m, m ≤ e.log.length ∧ ∀ a, Depicts (shelf dressId (e.version m)) a → ¬mediaIds.Perm a.shown

theorem reorderIn_ensures {mediaIds : List Nat} {k : Unit → Prg β} (hcfg : cfg.watched = .media dressId)
    (hreq : reqs t = .reorderMedia dressId mediaIds actorId) (h : Bare .dressMedia t w) (hown : w.db.own t = [])
    (herr : ∀ e w', w'.db.own t = [] → (e = .mediaOrderMismatch → Disagrees dressId mediaIds w'.db) → Q (.error e) w')
    (hok : ∀ d w', Bare .dressMedia t w' → w'.db.own t = [d] → Reorders dressId mediaIds d →
      (curating cfg reqs hE dressId).Ensures t (k ()) Q w') :
    (curating cfg reqs hE dressId).Ensures t (tenantSession (fun _ => reorderIn cfg dressId mediaIds actorId) >>= k) Q w := by
  have hfail : ∀ e w', e ≠ .mediaOrderMismatch → w'.db.own t = [] →
      Closes (curating cfg reqs hE dressId) t k Q (.error e) w' := fun e w' hne hw' w'' hev' _ =>
    herr e _ (hev'.db.since.own.trans hw') fun he => absurd he hne
  refine held_session (T := .dressMedia) hcfg h fun txNow c w2 h2 hown2 => ?_
  have hown2 : w2.db.own t = [] := hown2.trans hown
  refine under_select tending_historic (covers_guards hcfg) h2 fun w3 h3 _ _ hown3 => ensures_raiseIf
    (fun _ => hfail _ _ (by decide) (hown3.trans hown2)) fun _ => ?_
  refine under_select tending_historic (covers_guards hcfg) h3 fun w4 h4 hL4 _ hown4 => ?_
  have hown4 : w4.db.own t = [] := hown4.trans (hown3.trans hown2)
  have hgallery : Depicts c (galleryOf ⟨w4.db.view t, w4.db.next⟩ dressId) := by
    rw [← show shelf dressId (w4.db.view t) = c from h4.sight]
    refine depicts_galleryOf (hL4.view_consistent t) fun i hi => ?_
    cases hv : w4.db.view t .dressMedia i with
    | none => rfl
    | some r => exact absurd (hL4.view_lt hv) (by omega)
  have hshown : ∀ a, Depicts c a → a.shown = (Media.gallery ⟨w4.db.view t, w4.db.next⟩ dressId).map DressMedia.id := by
    intro a ha
    rw [ha.unique hgallery]
    rfl
  refine ensures_raiseIf (fun hne => ?_) fun heq => ?_
  · have hne : ¬mediaIds.Perm ((Media.gallery ⟨w4.db.view t, w4.db.next⟩ dressId).map DressMedia.id) := by
      rw [← sorted_eq_iff]
      simpa using hne
    intro w5 hev5 _
    refine herr _ _ (hev5.db.since.own.trans hown4) fun _ => ⟨w4.db.log.length, hev5.db.log_le, fun a ha => ?_⟩
    have hversion : (w5.db.release t).version w4.db.log.length = w4.db.committed := by
      rw [Engine.release_version, hev5.db.version _ (Nat.le_refl _), Engine.version_length]
    have ha : Depicts c a := by
      rw [hversion] at ha
      rw [show c = shelf dressId w4.db.committed from h4.found.symm]
      exact ha
    rw [hshown a ha]
    exact hne
  · have hperm : mediaIds.Perm ((Media.gallery ⟨w4.db.view t, w4.db.next⟩ dressId).map DressMedia.id) := by
      rw [← sorted_eq_iff]
      simpa using heq
    refine setSortOrders_ensures hcfg (fun w' hw' => hfail _ w' (by decide) hw') mediaIds 0 c w4 h4 hown4 fun w5 h5 hown5 => ?_
    refine ensures_last (held_record (T := .dressMedia) hcfg nofun h5 fun w6 h6 hown6 => ?_)
    have hset : Keyed DressMedia.id c → ∀ a, Depicts c a → mediaIds.Perm a.shown ∧
        Depicts (placedRows dressId 0 mediaIds c) ⟨mediaIds, a.waiting⟩ := by
      intro hc a ha
      have hsame : mediaIds.Perm a.shown := by
        rw [hshown a ha]
        exact hperm
      exact ⟨hsame, ha.reordered hc (fun i u hu => Curated.dress h4 hu) hsame⟩
    refine curated_close hcfg h6 (fun hc => ⟨fun _ => ?_, fun a ha => ?_⟩) fun w7 d hbare hown7 hbefore hafter => ?_
    · exact Apart.reordered hgallery hc (fun i u hu => Curated.dress h4 hu) hperm
    · obtain ⟨hsame, hnew⟩ := hset hc a ha
      refine ⟨_, hnew, ?_⟩
      rw [hreq]
      exact .reorder a mediaIds actorId hsame
    · refine hok d w7 hbare (by rw [hown7, hown6.trans hown5]; rfl) fun a ha => ?_
      rw [hbefore] at ha
      rw [hafter]
      exact hset (fun _ _ hu => Held.keyed h4 hL4 hu) a ha

/-! ## The requests -/

abbrev Anyhow {α : Type} : Except Err α → World schema outside → Prop := fun _ _ => True

theorem presignMedia_ensures (hcfg : cfg.watched = .media dressId)
    (hreq : reqs t = .presignMedia dressId contentType byteSize actorId) (h : Bare .dressMedia t w) :
    (curating cfg reqs hE dressId).Ensures t (presignMedia cfg dressId contentType byteSize actorId) Anyhow w := by
  refine quiet_bind (k := 0) gallery_stills nofun (served_question _).within h (fun _ _ _ _ => trivial) fun blocked w1 h1 _ => ?_
  refine ensures_raiseIf (fun _ => trivial) fun _ => ensures_liftExcept (fun _ _ => trivial) fun _ _ => ?_
  refine quiet_bind (k := 0) gallery_stills nofun (served_question _).within h1 (fun _ _ _ _ => trivial) fun configured w2 h2 _ => ?_
  refine ensures_raiseIf (fun _ => trivial) fun _ => ensures_attempt (ensures_last ?_)
  refine presignIn_ensures hcfg hreq h2 (fun e w3 h3 => ?_) fun x w3 h3 hmine => ?_
  · dsimp only
    split
    · exact quiet_bind (k := 0) gallery_stills nofun (served_question _).within h3 (fun _ _ _ _ => trivial) fun _ _ _ _ => trivial
    · trivial
  obtain ⟨swept, row⟩ := x
  refine quiet_bind (k := 0) gallery_stills nofun (served_question _).within h3 (fun _ _ _ _ => trivial) fun _ w4 h4 hown4 => ?_
  refine quiet_bind (k := 0) gallery_stills nofun (served_deleteEach _).within h4 (fun _ _ _ _ => trivial) fun _ w5 h5 hown5 => ?_
  refine quiet_bind (k := 0) gallery_stills nofun (served_question _).within h5 (fun _ _ _ _ => trivial) fun signed w6 h6 hown6 => ?_
  split
  · trivial
  · refine releasePending_ensures hcfg hreq h6 ?_ (fun _ _ _ => trivial) fun _ _ => trivial
    obtain ⟨d, hd, hadded⟩ := hmine
    exact ⟨d, hown6.subset (hown5.subset (hown4.subset hd)), hadded⟩

theorem confirmMedia_ensures (hcfg : cfg.watched = .media dressId)
    (hreq : reqs t = .confirmMedia dressId mediaId actorId) (h : Bare .dressMedia t w) :
    (curating cfg reqs hE dressId).Ensures t (confirmMedia cfg dressId mediaId actorId) Anyhow w := by
  have hdetail {w' : World schema outside} (h' : Bare .dressMedia t w') :
      (curating cfg reqs hE dressId).Ensures t (detailView cfg dressId false) Anyhow w' :=
    ensures_mono (fun _ _ _ => trivial) (quiet_ensures (k := 0) gallery_stills nofun (served_detailView _ _).within h' List.prefix_rfl)
  refine quiet_bind (k := 0) gallery_stills nofun (served_question _).within h (fun _ _ _ _ => trivial) fun configured w1 h1 _ => ?_
  refine ensures_raiseIf (fun _ => trivial) fun _ => ?_
  refine quiet_bind (k := 0) gallery_stills nofun (served_session fun n => Steady.within ?_).within h1
    (fun _ _ _ _ => trivial) fun row w2 h2 _ => ?_
  · exact (steady_byId _).bind fun dress => (steady_raiseIf _ _).bind fun _ => (steady_query _ _).bind fun found => steady_orRaise _ _
  split
  · exact hdetail h2
  · refine quiet_bind (k := 0) gallery_stills nofun (served_checkObject _ _).within h2 (fun _ _ _ _ => trivial) fun _ w3 h3 _ => ?_
    exact promoteIn_ensures hcfg hreq h3 (fun _ _ _ => trivial) fun w4 h4 => hdetail h4

theorem deleteMedia_ensures (hcfg : cfg.watched = .media dressId)
    (hreq : reqs t = .deleteMedia dressId mediaId actorId) (h : Bare .dressMedia t w) :
    (curating cfg reqs hE dressId).Ensures t (deleteMedia cfg dressId mediaId actorId) Anyhow w := by
  refine quiet_bind (k := 0) gallery_stills nofun (served_question _).within h (fun _ _ _ _ => trivial) fun configured w1 h1 _ => ?_
  refine ensures_raiseIf (fun _ => trivial) fun _ => ?_
  refine deleteMediaIn_ensures hcfg hreq h1 (fun _ _ _ => trivial) fun key w2 h2 => ?_
  refine quiet_bind (k := 0) gallery_stills nofun (served_bestEffortDelete _).within h2 (fun _ _ _ _ => trivial) fun _ w3 h3 _ => ?_
  exact ensures_mono (fun _ _ _ => trivial)
    (quiet_ensures (k := 0) gallery_stills nofun (served_detailView _ _).within h3 List.prefix_rfl)

def Reordered (r : Request) (dressId : Nat) (t : Tid) (x : Except Err Response) (w : World schema outside) : Prop :=
  ∀ mediaIds actorId, r = .reorderMedia dressId mediaIds actorId →
    (∀ response, x = .ok response → ∃ d ∈ w.db.own t, Reorders dressId mediaIds d) ∧
    (x = .error .mediaOrderMismatch → w.db.own t = [] ∧ Disagrees dressId mediaIds w.db)

theorem Reordered.evolves {D : Cast schema} {r : Request} {x : Except Err Response} {w' : World schema outside}
    (h : Reordered r dressId t x w) (hev : w.Evolves D t w') : Reordered r dressId t x w' := by
  intro mediaIds actorId hr
  obtain ⟨hok, hraise⟩ := h mediaIds actorId hr
  have hown : w'.db.own t = w.db.own t := hev.db.since.own
  rw [hown]
  refine ⟨hok, fun hx => ?_⟩
  obtain ⟨hnone, m, hm, hdisagrees⟩ := hraise hx
  refine ⟨hnone, m, Nat.le_trans hm hev.db.log_le, fun a ha => hdisagrees a ?_⟩
  rw [hev.db.version m hm] at ha
  exact ha

theorem reorderMedia_ensures {mediaIds : List Nat} (hcfg : cfg.watched = .media dressId)
    (hreq : reqs t = .reorderMedia dressId mediaIds actorId) (h : Bare .dressMedia t w) (hown : w.db.own t = []) :
    (curating cfg reqs hE dressId).Ensures t (reorderMedia cfg dressId mediaIds actorId)
      (Reordered (.reorderMedia dressId mediaIds actorId) dressId t) w := by
  refine reorderIn_ensures hcfg hreq h hown (fun e w' hown' hdisagrees => ?_) fun d w' h' hown' hreorders => ?_
  · rintro ids actor ⟨⟩
    exact ⟨fun response hx => (by cases hx), fun hx => ⟨hown', hdisagrees (by cases hx; rfl)⟩⟩
  · refine ensures_mono (fun x w'' hx => ?_) (ensures_ends (detailView_raises dressId false)
      (quiet_ensures (k := 0) gallery_stills nofun (served_detailView _ _).within h' List.prefix_rfl))
    rintro ids actor ⟨⟩
    obtain ⟨hraises, -, hgrown⟩ := hx
    refine ⟨fun response _ => ⟨d, hgrown.subset (by rw [hown']; simp), hreorders⟩, fun hx => ?_⟩
    cases hraises _ hx

end Threads

/-! ## The run -/

theorem request_safe {w : World schema outside} (hcfg : cfg.watched = .media dressId) (h : Bare .dressMedia t w)
    (hown : w.db.own t = []) :
    (curating cfg reqs hE dressId).logic.Safe t ((reqs t).code cfg) (Reordered (reqs t) dressId t) w := by
  by_cases htends : (reqs t).tends (.media dressId) = true
  · have hplain {p : Prg Response} (hnot : ∀ mediaIds actorId, reqs t ≠ .reorderMedia dressId mediaIds actorId)
        (hp : (curating cfg reqs hE dressId).Ensures t p Anyhow w) :
        (curating cfg reqs hE dressId).logic.Safe t p (Reordered (reqs t) dressId t) w :=
      safe_of_ensures hp fun _ _ _ _ _ _ _ mediaIds actorId hreq => absurd hreq (hnot mediaIds actorId)
    cases hreq : reqs t with
    | presignMedia =>
      rw [hreq] at htends hplain
      obtain rfl := of_decide_eq_true htends
      exact hplain (fun _ _ => nofun) (presignMedia_ensures hcfg hreq h)
    | confirmMedia =>
      rw [hreq] at htends hplain
      obtain rfl := of_decide_eq_true htends
      exact hplain (fun _ _ => nofun) (confirmMedia_ensures hcfg hreq h)
    | deleteMedia =>
      rw [hreq] at htends hplain
      obtain rfl := of_decide_eq_true htends
      exact hplain (fun _ _ => nofun) (deleteMedia_ensures hcfg hreq h)
    | reorderMedia =>
      rw [hreq] at htends
      obtain rfl := of_decide_eq_true htends
      exact safe_of_ensures (reorderMedia_ensures hcfg hreq h hown) fun _ _ _ hx hev _ _ => hx.evolves hev
    | _ => rw [hreq] at htends; cases htends
  · refine untended_safe hcfg gallery_stills (Bool.eq_false_iff.2 htends) fun x w' mediaIds actorId hreq => ?_
    rw [hreq] at htends
    exact absurd (decide_eq_true rfl) htends

/-- **The gallery of a dress at a version** of the tables. -/
def galleryAt (s : World schema outside) (dressId m : Nat) : Gallery := galleryOf ⟨s.db.version m, s.db.next⟩ dressId

variable {D : Cast schema} {s : World schema outside} {m : Nat} {store : Store} {next : Nat} {clock : Int}
  {c : Conf (machine schema outside Err) Response}

theorem depicts_galleryAt (hL : s.db.Lawful D) (hm : m ≤ s.db.log.length) :
    Depicts (shelf dressId (s.db.version m)) (galleryAt s dressId m) :=
  depicts_galleryOf (hL.version_consistent m) fun _ hi => hL.version_none_of_le hm .dressMedia hi

theorem shelved_galleryOf (h : Shelved rows next) : Depicts (shelf dressId rows) (galleryOf ⟨rows, next⟩ dressId) := by
  refine depicts_galleryOf h.consistent fun i hi => ?_
  cases hv : rows .dressMedia i with
  | none => rfl
  | some r =>
    have hlt := h.lt _ _ _ hv
    omega

theorem serving_sound (h : Shelved rows next) (hcfg : cfg.watched = .media dressId)
    (hreqs : ∀ t, (reqs t).cascades dressId = false) (hr : (serving cfg reqs store rows next clock).Reaches c) :
    ∃ D : Cast schema, c.state.db.Lawful D ∧ c.state.db.version 0 = rows ∧
      (∀ m d, c.state.db.log[m]? = some d → (galleryLedger dressId cfg.pendingTtl reqs).Holds c.state.db m d) ∧
      ∀ t, (∀ response, c.threads t = some (.ret response) → Reordered (reqs t) dressId t (.ok response) c.state) ∧
        ∀ x, c.threads t = some (.raise x) → Reordered (reqs t) dressId t (.error x) c.state := by
  refine tending_runs (T := .dressMedia) h hcfg (fun t d hd => ?_) (fun hE t w hbare hown => request_safe hcfg hbare hown) hr
  cases hd
  exact hreqs t

theorem steps_at (hL : c.state.db.Lawful D) {d : Commit schema} (hm : c.state.db.log[m]? = some d)
    (hholds : (galleryLedger dressId cfg.pendingTtl reqs).Holds c.state.db m d) :
    Gallery.Step dressId cfg.pendingTtl (madeAt (shelf dressId (c.state.db.version (m + 1))))
        (Added dressId ((c.state.db.log.take m).filter fun b => b.by_ = d.by_)) (reqs d.by_)
        (galleryAt c.state dressId m) (galleryAt c.state dressId (m + 1)) ∧
      (Apart (shelf dressId (c.state.db.version m)) → Apart (shelf dressId (c.state.db.version (m + 1)))) := by
  obtain ⟨hlt, hbefore, hafter⟩ := hL.entry_spans hm
  obtain ⟨hapart, hstep⟩ := hholds
  rw [hbefore, hafter] at hapart hstep
  obtain ⟨a, ha, hstep⟩ := hstep _ (depicts_galleryAt hL hlt.le)
  rw [ha.unique (depicts_galleryAt hL hlt)] at hstep
  exact ⟨hstep, hapart⟩

/-- **The gallery moves by the steps of its requests.**  While a dress is neither archived nor restored, each commit of any run is
one step of its gallery, of the request that made it, and a presign drops the uploads that are too old when it begins, and no
other: the list shown and the uploads under way never hold a photo twice nor go over the limit, and no two photos shown come to
have one position. -/
theorem gallery_steps (h : Shelved rows next) (hcfg : cfg.watched = .media dressId)
    (hreqs : ∀ t, (reqs t).cascades dressId = false) (hr : (serving cfg reqs store rows next clock).Reaches c) :
    galleryAt c.state dressId 0 = galleryOf ⟨rows, next⟩ dressId ∧
    (∀ m d, c.state.db.log[m]? = some d →
      Gallery.Step dressId cfg.pendingTtl (madeAt (shelf dressId (c.state.db.version (m + 1))))
        (Added dressId ((c.state.db.log.take m).filter fun b => b.by_ = d.by_)) (reqs d.by_)
        (galleryAt c.state dressId m) (galleryAt c.state dressId (m + 1))) ∧
    ((galleryOf ⟨rows, next⟩ dressId).size ≤ MAX_MEDIA_PER_DRESS →
      ∀ m, m ≤ c.state.db.log.length → (galleryAt c.state dressId m).Kempt) ∧
    (Apart (shelf dressId rows) → ∀ m, m ≤ c.state.db.log.length → Apart (shelf dressId (c.state.db.version m))) := by
  obtain ⟨D, hL, hstart, hledger, -⟩ := serving_sound h hcfg hreqs hr
  have hfirst : galleryAt c.state dressId 0 = galleryOf ⟨rows, next⟩ dressId := by
    have hdepicts : Depicts (shelf dressId (c.state.db.version 0)) (galleryAt c.state dressId 0) :=
      depicts_galleryAt hL (Nat.zero_le _)
    rw [hstart] at hdepicts
    exact hdepicts.unique (shelved_galleryOf h)
  refine ⟨hfirst, fun m d hm => (steps_at hL hm (hledger m d hm)).1, fun hsize m hm => ?_, fun hapart m hm => ?_⟩
  · induction m with
    | zero =>
      rw [hfirst]
      exact ⟨(shelved_galleryOf h).nodup (shelf_keyed h.consistent), hsize⟩
    | succ m ih =>
      have hentry : c.state.db.log[m]? = some c.state.db.log[m] := List.getElem?_eq_getElem hm
      exact (steps_at hL hentry (hledger m _ hentry)).1.kempt (ih (by omega))
  · induction m with
    | zero =>
      rw [hstart]
      exact hapart
    | succ m ih =>
      have hentry : c.state.db.log[m]? = some c.state.db.log[m] := List.getElem?_eq_getElem hm
      exact (steps_at hL hentry (hledger m _ hentry)).2 (ih (by omega))

def uploaded : (T : Table) → List (Row T)
  | .dresses => [(⟨0, 0, none, "lace", none, none, false, false, 0⟩ : Dress)]
  | .dressMedia => [(⟨1, 0, none, 0, ⟨0, 1, ".png"⟩, "image/png", 2048, .ready, 0⟩ : DressMedia),
    (⟨2, 99, none, 0, ⟨0, 2, ".png"⟩, "image/png", 2048, .pending, 0⟩ : DressMedia),
    (⟨3, 100, none, 0, ⟨0, 3, ".png"⟩, "image/png", 2048, .pending, 0⟩ : DressMedia)]
  | _ => []

theorem uploaded_shelved : Shelved (listed (S := schema) uploaded) 4 :=
  shelved_of_stocked [.dresses, .dressVariants, .dressMedia, .dressReservations, .customers, .auditLog]
    (fun T => by cases T <;> decide) (by decide)

/-- An owner presigns a photo more, and the others confirm the upload that she leaves. -/
def twoUploads : Tid → Request
  | 0 => .presignMedia 0 "image/png" 2048 0
  | _ => .confirmMedia 0 3 0

theorem twoUploads_cascades (t : Tid) : (twoUploads t).cascades 0 = false := by
  unfold twoUploads
  split <;> rfl

theorem gallery_steps_swept : ∃ c, (serving galleryConfig twoUploads posted (listed (S := schema) uploaded) 4 1000).Reaches c ∧
    galleryAt c.state 0 0 = ⟨[1], [2, 3]⟩ ∧ galleryAt c.state 0 1 = ⟨[1], [3, 4]⟩ ∧ galleryAt c.state 0 3 = ⟨[1, 3], [4]⟩ ∧
    (galleryAt c.state 0 3).Kempt := by
  obtain ⟨c, hc, hP⟩ := Conf.reached_freely (serving galleryConfig twoUploads posted (listed (S := schema) uploaded) 4 1000)
    (.call 0 ⟨false, none⟩ :: answered 0 10 ++ answered 1 14)
    (fun c => decide (galleryAt c.state 0 1 = ⟨[1], [3, 4]⟩ ∧ galleryAt c.state 0 3 = ⟨[1, 3], [4]⟩ ∧ 3 ≤ c.state.db.log.length))
    (by decide)
  obtain ⟨hswept, hgallery, hlength⟩ := of_decide_eq_true hP
  obtain ⟨hfirst, -, hkempt, -⟩ := gallery_steps uploaded_shelved rfl twoUploads_cascades hc
  exact ⟨c, hc, hfirst.trans (by decide), hswept, hgallery, hkempt (by decide) 3 hlength⟩

/-- **A reorder sets the whole list.**  One that returns has at one of its commits set what is shown to its list, which was a
permutation of it, and left the uploads; one refused for its list has committed nothing, and its list was not a permutation of
what some version showed. -/
theorem reorder_exact (h : Shelved rows next) (hcfg : cfg.watched = .media dressId)
    (hreqs : ∀ t, (reqs t).cascades dressId = false) (hr : (serving cfg reqs store rows next clock).Reaches c)
    {mediaIds : List Nat} {actorId : Nat} (hreq : reqs t = .reorderMedia dressId mediaIds actorId) :
    (∀ response, c.threads t = some (.ret response) → ∃ m d, c.state.db.log[m]? = some d ∧ d.by_ = t ∧
      mediaIds.Perm (galleryAt c.state dressId m).shown ∧
      galleryAt c.state dressId (m + 1) = ⟨mediaIds, (galleryAt c.state dressId m).waiting⟩) ∧
    (c.threads t = some (.raise .mediaOrderMismatch) → c.state.db.own t = [] ∧
      ∃ m, m ≤ c.state.db.log.length ∧ ¬mediaIds.Perm (galleryAt c.state dressId m).shown) := by
  obtain ⟨D, hL, -, -, hends⟩ := serving_sound h hcfg hreqs hr
  refine ⟨fun response ht => ?_, fun ht => ?_⟩
  · obtain ⟨d, hd, hreorders⟩ := ((hends t).1 response ht mediaIds actorId hreq).1 response rfl
    obtain ⟨m, hm, hby, hlt, hbefore, hafter⟩ := hL.own_spans hd
    unfold Reorders at hreorders
    rw [hbefore, hafter] at hreorders
    obtain ⟨hperm, hset⟩ := hreorders _ (depicts_galleryAt hL hlt.le)
    exact ⟨m, d, hm, hby, hperm, (depicts_galleryAt hL hlt).unique hset⟩
  · obtain ⟨hnone, m, hm, hdisagrees⟩ := ((hends t).2 _ ht mediaIds actorId hreq).2 rfl
    exact ⟨hnone, m, hm, hdisagrees _ (depicts_galleryAt hL hm)⟩

/-- One owner confirms the upload, one turns the photos round and one names the upload among them. -/
def threeOwners : Tid → Request
  | 0 => .confirmMedia 0 3 0
  | 1 => .reorderMedia 0 [2, 1] 0
  | _ => .reorderMedia 0 [3, 1, 2] 0

theorem threeOwners_cascades (t : Tid) : (threeOwners t).cascades 0 = false := by
  unfold threeOwners
  split <;> rfl

theorem reorder_exact_turned : ∃ c, (serving galleryConfig threeOwners posted (listed (S := schema) displayed) 4 0).Reaches c ∧
    (∃ m, galleryAt c.state 0 (m + 1) = ⟨[2, 1], (galleryAt c.state 0 m).waiting⟩) ∧ c.state.db.own 2 = [] := by
  obtain ⟨c, hc, hP⟩ := Conf.reached_freely
      (serving galleryConfig threeOwners posted (listed (S := schema) displayed) 4 0) (answered 1 20 ++ answered 2 5)
    (fun c => decide (c.returned 1 = true ∧ c.failure 2 = some .mediaOrderMismatch)) (by decide)
  obtain ⟨hreturned, hfailed⟩ := of_decide_eq_true hP
  obtain ⟨response, hresponse⟩ := Conf.returned_iff.1 hreturned
  obtain ⟨m, -, -, -, -, hset⟩ := (reorder_exact displayed_shelved rfl threeOwners_cascades hc rfl).1 response hresponse
  obtain ⟨hnone, -⟩ := (reorder_exact displayed_shelved rfl threeOwners_cascades hc (t := 2) rfl).2 (Conf.failure_eq_some.1 hfailed)
  exact ⟨c, hc, ⟨m, hset⟩, hnone⟩

end Catalog

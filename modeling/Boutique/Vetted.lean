import Boutique.Between
/-!
# Vetted — what makes a photo ready, and what a url is signed for

A photo becomes ready by a confirm of its own that has looked at the object, and a url for reading is signed only for what has
been ready.  The other requests make nothing ready, in whatever order they all run.
-/
namespace Catalog

open Txn Session Contract
open Staff (MediaFailure matchesMagicPrefix)

variable {cfg : Config} {reqs : Tid → Request} {r : Request} {t : Tid} {base : List MediaKey}

/-! ## Who makes a photo ready -/

def Request.Confirms (r : Request) (v : DressMedia) : Prop := ∃ actorId, r = .confirmMedia v.dressId v.id actorId

def ReadyBy (r : Request) : (T : Table) → Row T → Row T → Prop
  | .dressMedia, (v : DressMedia), (v' : DressMedia) =>
    v'.id = v.id ∧ v'.dressId = v.dressId ∧ (v'.status = v.status ∨ r.Confirms v)
  | _, _, _ => True

def Born (r : Request) : (T : Table) → Row T → Prop
  | .dressMedia, (v : DressMedia) => v.status = .pending ∧ ∀ dressId mediaId actorId, r ≠ .confirmMedia dressId mediaId actorId
  | _, _ => True

theorem ReadyBy.trans {T : Table} {u v w : Row T} (h : ReadyBy r T u v) (h' : ReadyBy r T v w) : ReadyBy r T u w := by
  cases T with
  | dressMedia =>
    obtain ⟨hid, hdress, hstatus⟩ := h
    obtain ⟨hid', hdress', hstatus'⟩ := h'
    refine ⟨hid'.trans hid, hdress'.trans hdress, ?_⟩
    rcases hstatus with hsame | hconfirms
    · rcases hstatus' with hsame' | ⟨actorId, hr⟩
      · exact .inl (hsame'.trans hsame)
      · exact .inr ⟨actorId, by rw [hr, hid, hdress]⟩
    · exact .inr hconfirms
  | dresses | dressVariants | dressReservations | customers | auditLog => trivial

/-- **The discipline of one request**: only a confirm makes a photo ready, and only its own. -/
def vetting (r : Request) : Discipline schema where
  Trans _ := ReadyBy r
  New _ := Born r
  refl _ T v := by
    cases T with
    | dressMedia => exact ⟨rfl, rfl, .inl rfl⟩
    | dresses | dressVariants | dressReservations | customers | auditLog => trivial
  trans _ _ _ _ _ h h' := h.trans h'
  weaken _ _ _ h := h
  new_trans _ T v v' h h' := by
    cases T with
    | dressMedia =>
      obtain ⟨hpending, hnot⟩ := h
      obtain ⟨-, -, hsame | ⟨actorId, hr⟩⟩ := h'
      · exact ⟨hsame.trans hpending, hnot⟩
      · exact absurd hr (hnot _ _ _)
    | dresses | dressVariants | dressReservations | customers | auditLog => trivial
  new_weaken _ _ h := h

theorem status_apply {g : DressMediaChange} {v v' : DressMedia} (h : g.apply v = some v')
    (hg : ∀ dressId sortOrder, g ≠ .promoteToReady dressId sortOrder) :
    v'.id = v.id ∧ v'.dressId = v.dressId ∧ v'.status = v.status := by
  cases g <;> simp only [DressMediaChange.apply] at h
  case promoteToReady dressId sortOrder => exact absurd rfl (hg dressId sortOrder)
  all_goals (split at h <;> cases h)
  all_goals exact ⟨rfl, rfl, rfl⟩

variable {o : Op schema outside} {key : MediaKey} {q : Ask}

theorem writes_vetting {l : Bool} (h : Writes cfg r l o) : (vetting r).Legal l o := by
  have hother : ∀ {i : Nat} {g : DressMediaChange}, (∀ dressId sortOrder, g ≠ .promoteToReady dressId sortOrder) →
      (vetting r).Legal l (.sql (.update .dressMedia i g) : Op schema outside) := by
    intro i g hg v v' _ hv
    obtain ⟨hid, hdress, hstatus⟩ := status_apply hv hg
    exact ⟨hid, hdress, .inl hstatus⟩
  cases h with
  | create | size | reserve | note => exact fun _ _ => trivial
  | flush | archive | restore | archiveSize | restoreSize | retire | free => exact fun _ _ _ _ => trivial
  | archivePhoto | restorePhoto | sweep | release | drop | place => exact hother nofun
  | pending => exact fun i n => ⟨by assumption, nofun⟩
  | promote _ dressId mediaId actorId sortOrder =>
    intro v v' hid hv
    have hpromoted : (DressMediaChange.promoteToReady dressId sortOrder).apply v = some v' := hv
    have hkept := DressMediaChange.kept hpromoted
    have hdress := (DressMediaChange.dress_eq hpromoted).1
    have hsame : v'.id = v.id := rowId_applyChange .dressMedia (.promoteToReady dressId sortOrder : DressMediaChange) v v' hv
    refine ⟨hsame, hkept.dressId, .inr ⟨actorId, ?_⟩⟩
    rw [show DressMedia.id v = mediaId from hid, show DressMedia.dressId v = dressId from hdress]

/-! ## The contract -/

/-- **The object of a photo was found right** by this thread: its type, and how it begins. -/
def Passed (looks : List Look) (t : Tid) (v : DressMedia) : Prop :=
  .head t v.storageKey v.contentType ∈ looks ∧
    ∃ start, .body t v.storageKey start ∈ looks ∧ matchesMagicPrefix v.contentType start = true

def Shown (e : Engine schema) (key : MediaKey) : Prop :=
  ∃ m, m ≤ e.log.length ∧ ∃ i, ∃ v : DressMedia, e.version m .dressMedia i = some v ∧ v.storageKey = key ∧ v.status = .ready

/-- **The record of a run**: who made a photo ready had found its object right, and what was signed had been ready. -/
structure Vetting (base : List MediaKey) (w : World schema outside) : Prop where
  promoted : ∀ d ∈ w.db.log, ∀ i, ∀ v r : DressMedia, d.before .dressMedia i = some v → d.after .dressMedia i = some r →
    v.status = .pending → r.status = .ready → Passed w.out.looks d.by_ r
  signed : ∀ key ∈ w.out.signed, key ∈ base ∨ Shown w.db key

variable {w w' : World schema outside} {e e' : Engine schema} {looks looks' : List Look} {v v' : DressMedia}

theorem Passed.mono (h : Passed looks t v) (hl : looks ⊆ looks') : Passed looks' t v := by
  obtain ⟨hhead, start, hbody, hprefix⟩ := h
  exact ⟨hl hhead, start, hl hbody, hprefix⟩

theorem Passed.kept (h : Passed looks t v) (hk : Kept v v') : Passed looks t v' := by
  unfold Passed
  rw [hk.storageKey, hk.contentType]
  exact h

theorem Shown.later (h : Shown e key) (hlog : e.log.length ≤ e'.log.length)
    (hversion : ∀ m, m ≤ e.log.length → e'.version m = e.version m) : Shown e' key := by
  obtain ⟨m, hm, i, v, hv, hshown⟩ := h
  exact ⟨m, Nat.le_trans hm hlog, i, v, by rw [hversion m hm]; exact hv, hshown⟩

theorem Shown.commit (h : Shown e key) : Shown (e.commit t) key := by
  refine h.later ?_ fun m hm => Engine.commit_version_le hm
  rw [Engine.commit_log, List.length_append]
  exact Nat.le_add_right _ _

theorem Vetting.same (h : Vetting base w) (hlog : w'.db.log = w.db.log) (hc : w'.db.committed = w.db.committed)
    (hlooks : w.out.looks ⊆ w'.out.looks) (hsigned : w'.out.signed = w.out.signed) : Vetting base w' := by
  refine ⟨fun d hd i v r hv hr hwas hnow => ?_, fun key hkey => ?_⟩
  · rw [hlog] at hd
    exact (h.promoted d hd i v r hv hr hwas hnow).mono hlooks
  · rw [hsigned] at hkey
    refine (h.signed key hkey).imp_right fun hshown => hshown.later (by rw [hlog]) fun m _ => ?_
    exact Engine.version_congr hlog hc m

def unsigning : Ask → Bool
  | .signedGetUrl .. => false
  | _ => true

theorem serve_looks (t : Tid) (q : Ask) (x : Input) (n : Nat) (s : Store) :
    s.looks ⊆ (serve t q x n s).2.looks ∧ ownLooks t s ⊆ ownLooks t (serve t q x n s).2 := by
  have hlooks : s.looks ⊆ (serve t q x n s).2.looks := by
    cases q with
    | presignedPost | deleteObject | signedGetUrl => cases hf : x.failure <;> simp [serve, hf]
    | postObject =>
      simp only [serve]
      split <;> exact fun _ h => h
    | headObject key => cases hf : x.failure <;> cases ho : s.objects key <;> simp [serve, hf, ho]
    | readPrefix key => cases hf : x.failure <;> cases ho : s.objects key <;> simp [serve, hf, ho]
    | isBlocked | recordFailure | isConfigured => exact fun _ h => h
  exact ⟨hlooks, fun l hl => List.mem_filter.2 ⟨hlooks (List.mem_filter.1 hl).1, (List.mem_filter.1 hl).2⟩⟩

theorem serve_signed (hq : unsigning q = true) (t : Tid) (x : Input) (n : Nat) (s : Store) :
    (serve t q x n s).2.signed = s.signed := by
  cases q with
  | presignedPost | deleteObject => cases hf : x.failure <;> simp [serve, hf]
  | postObject =>
    simp only [serve]
    split <;> rfl
  | headObject key => cases hf : x.failure <;> cases ho : s.objects key <;> simp [serve, hf, ho]
  | readPrefix key => cases hf : x.failure <;> cases ho : s.objects key <;> simp [serve, hf, ho]
  | signedGetUrl => cases hq
  | isBlocked | recordFailure | isConfigured => rfl

abbrev keepers (cfg : Config) (reqs : Tid → Request) : Cast schema := staff cfg reqs keeping fun _ _ _ => writes_keeping

abbrev inspecting (cfg : Config) (reqs : Tid → Request) (base : List MediaKey) : Contract (keepers cfg reqs) outside Err where
  Inv w := Vetting base w
  Assume _ _ _ _ _ := True
  crash_inv _ _ _ h := h.same rfl rfl (fun _ h => h) rfl
  tick_inv _ _ _ h := h.same rfl rfl (fun _ h => h) rfl

theorem inspecting_historic : (inspecting cfg reqs base).Historic unsigning :=
  ⟨fun _ _ hlog hc hout h => h.same hlog hc (by rw [hout]; exact fun _ h => h) (by rw [hout]),
    fun t q x n w hq h => h.same rfl rfl (serve_looks t q x n w.out).1 (serve_signed hq t x n w.out)⟩

/-! ## Commits -/

/-- A version of the photo was this, and the thread has found its object right. -/
def Cleared (reqs : Tid → Request) (t : Tid) (w : World schema outside) : Prop :=
  ∀ dressId mediaId actorId, reqs t = .confirmMedia dressId mediaId actorId →
    ∃ m, ∃ v : DressMedia, m ≤ w.db.log.length ∧ w.db.version m .dressMedia mediaId = some v ∧ Passed (ownLooks t w.out) t v

theorem ownLooks_subset (t : Tid) (s : Store) : ownLooks t s ⊆ s.looks := List.filter_subset_self _

theorem Cleared.later (h : Cleared reqs t w) (hlog : w.db.log.length ≤ w'.db.log.length)
    (hversion : ∀ m, m ≤ w.db.log.length → w'.db.version m = w.db.version m) (hlooks : ownLooks t w.out ⊆ ownLooks t w'.out) :
    Cleared reqs t w' := by
  intro dressId mediaId actorId hreq
  obtain ⟨m, v, hm, hv, hpassed⟩ := h dressId mediaId actorId hreq
  exact ⟨m, v, Nat.le_trans hm hlog, by rw [hversion m hm]; exact hv, hpassed.mono hlooks⟩

theorem Cleared.evolves {D : Cast schema} (h : Cleared reqs t w) (hev : w.Evolves D t w') : Cleared reqs t w' :=
  h.later hev.db.log_le hev.db.version (by rw [show ownLooks t w'.out = ownLooks t w.out from hev.mine]; exact fun _ h => h)

theorem Cleared.exec {x : o.Res} {i : Input} (h : Cleared reqs t w) (he : w.exec t o i = some (x, w')) :
    Cleared reqs t w' := by
  by_cases hcommit : o = .sql .commit
  · subst hcommit
    cases he
    refine h.later ?_ (fun m hm => Engine.commit_version_le hm) fun _ h => h
    simp
  · obtain ⟨hlog, hc⟩ := World.exec_log hcommit he
    refine h.later (by rw [hlog]) (fun m _ => Engine.version_congr hlog hc m) ?_
    cases o with
    | ask q =>
      cases he
      exact (serve_looks t q i _ w.out).2
    | now | sql =>
      rw [World.exec_out (by simp) he]
      exact fun _ h => h

section Threads

variable {α β : Type} {k : α → Prg β}

abbrev Whatever {α : Type} : Except Err α → World schema outside → Prop := fun _ _ => True

theorem Vetting.commit (hI : Vetting base w) (hnew : ∀ i, ∀ v r : DressMedia, w.db.committed .dressMedia i = some v →
    w.db.view t .dressMedia i = some r → v.status = .pending → r.status = .ready → Passed w.out.looks t r) :
    Vetting base ⟨w.db.commit t, w.out⟩ := by
  refine ⟨fun d hd i v r hv hr hwas hnow => ?_, fun key hkey => (hI.signed key hkey).imp_right Shown.commit⟩
  rcases List.mem_append.1 (show d ∈ w.db.log ++ [w.db.entry t] from hd) with hd | hd
  · exact hI.promoted d hd i v r hv hr hwas hnow
  · obtain rfl := List.mem_singleton.1 hd
    rw [Engine.entry_after] at hr
    exact hnew i v r hv hr hwas hnow

theorem cleared_commit (hL : w.db.Lawful (keepers cfg reqs)) (hI : Vetting base w) (h : Cleared reqs t w) :
    Vetting base ⟨w.db.commit t, w.out⟩ := by
  refine hI.commit fun i v r hv hr hwas hnow => ?_
  have hbecomes := hL.inflight t .dressMedia i
  rw [hv, hr] at hbecomes
  have hready : (vetting (reqs t)).Becomes (w.db.holds t) .dressMedia (some v) (some r) :=
    staff_becomes (fun _ => writes_vetting) hbecomes
  obtain ⟨-, -, hsame | ⟨actorId, hreq⟩⟩ : ReadyBy (reqs t) .dressMedia v r := hready
  · rw [hnow, hwas] at hsame
    cases hsame
  obtain ⟨m, v0, hm, hv0, hpassed⟩ := h _ _ _ hreq
  have hid : v.id = i := hL.rows.id .dressMedia i v hv
  rw [hid] at hv0
  have hlast := hL.version_becomes (Cast.plays_common _) hm (Nat.le_refl _) .dressMedia i
  rw [hv0, Engine.version_length, hv] at hlast
  have hkept : Kept v0 v := hlast
  have hkept' : Kept v r := Cast.becomes_common hbecomes
  exact ((hpassed.kept hkept).kept hkept').mono (ownLooks_subset _ _)

theorem idle_commit (hI : Vetting base w) (h : w.db.Idle t) : Vetting base ⟨w.db.commit t, w.out⟩ := by
  refine hI.commit fun i v r hv hr hwas hnow => ?_
  rw [h.view, hv] at hr
  cases hr
  rw [hwas] at hnow
  cases hnow

def Rested (reqs : Tid → Request) (t : Tid) (x : Except Err α) (w : World schema outside) : Prop :=
  ∀ a, x = .ok a → w.db.Idle t ∧ Cleared reqs t w

variable {body : Int → Prg α} {Q : Except Err β → World schema outside → Prop} {dressId : Nat}

theorem session_ends (hbody : ∀ n, Within (Body cfg r) false (body n)) (h : Cleared reqs t w) :
    (inspecting cfg reqs base).Ensures t (tenantSession body) (Rested reqs t) w := by
  refine ensures_last (ensures_tenantSession inspecting_historic fun w1 n hev _ _ => ?_)
  have h1 : Cleared reqs t ⟨{ w1.db with started := Function.update w1.db.started t n }, w1.out⟩ :=
    (h.evolves hev).later (Nat.le_refl _) (fun m _ => Engine.version_congr rfl rfl m) fun _ h => h
  refine ensures_mono (fun x w2 hx => ?_) (ensures_of_uses (fun _ w => Cleared reqs t w) (fun _ _ _ hev h => h.evolves hev)
    (fun l o w x y w' ho _ hI h he _ _ => ⟨?_, h.exec he⟩) ((hbody n).mono fun _ _ ho => ho.2) h1)
  · obtain ⟨-, -, hx⟩ := hx
    cases x with
    | error e => exact fun w3 _ _ => nofun
    | ok a =>
      intro w3 hev3 hL3 hI3 _ _
      have h3 : Cleared reqs t w3 := Cleared.evolves hx hev3
      refine ⟨cleared_commit hL3 hI3 h3, fun _ _ => ⟨Engine.idle_commit _ _, ?_⟩⟩
      have he : w3.exec t (.sql .commit) (⟨true, none⟩ : Input) = some ((), ⟨w3.db.commit t, w3.out⟩) := rfl
      exact h3.exec he
  · refine inspecting_historic.exec (fun hc => ?_) (fun q hq => ?_) he hI
    · subst hc
      cases ho
    · subst hq
      cases ho

theorem session_bind (hbody : ∀ n, Within (Body cfg r) false (body n)) (h : Cleared reqs t w)
    (hk : ∀ a w', w'.db.Idle t → (inspecting cfg reqs base).Ensures t (k a) Whatever w') :
    (inspecting cfg reqs base).Ensures t (tenantSession body >>= k) Whatever w := by
  refine ensures_bind (ensures_mono (fun x w' hx => ?_) (session_ends hbody h))
  cases x with
  | ok a => exact hk a w' (hx a rfl).1
  | error e => trivial

theorem ask_bind {k : Ans q → Prg β} (hq : unsigning q = true) (hidle : w.db.Idle t)
    (hk : ∀ x n (w' : World schema outside), w.db.Evolves (keepers cfg reqs) t w'.db → w'.db.Idle t →
      (∀ l, l ∈ ownLooks t w.out → l ∈ ownLooks t (serve t q x n w'.out).2) →
      (inspecting cfg reqs base).Ensures t (k (serve t q x n w'.out).1) Whatever ⟨w'.db, (serve t q x n w'.out).2⟩) :
    (inspecting cfg reqs base).Ensures t (ask q >>= k) Whatever w := by
  refine ensures_ask inspecting_historic hq fun w1 x n hev _ _ _ => hk x n w1 hev.db (hev.db.idle hidle) fun l hl => ?_
  refine (serve_looks t q x n w1.out).2 ?_
  rw [show ownLooks t w1.out = ownLooks t w.out from hev.mine]
  exact hl

theorem idle_select {q : Query} {f : Snapshot schema → α} (hidle : w.db.Idle t)
    (hk : ∀ w1 : World schema outside, w.db.Evolves (keepers cfg reqs) t w1.db → w1.db.Idle t →
      (inspecting cfg reqs base).Ensures t (k (f ⟨w1.db.view t, w1.db.next⟩)) Q ⟨w1.db.look t, w1.out⟩) :
    (inspecting cfg reqs base).Ensures t (select q f >>= k) Q w :=
  ensures_select inspecting_historic fun w1 hev _ _ _ _ => hk w1 hev.db (hev.db.idle hidle)

/-! ## The requests -/

theorem Vetting.sign (t : Tid) (contentType : String) (x : Input) (n : Nat) (h : Vetting base w)
    (hkey : Shown w.db key) : Vetting base ⟨w.db, (serve t (.signedGetUrl key contentType) x n w.out).2⟩ := by
  cases hf : x.failure with
  | some e =>
    simp only [serve, hf]
    exact h
  | none =>
    simp only [serve, hf]
    refine ⟨h.promoted, fun k hk => ?_⟩
    rcases List.mem_cons.1 hk with rfl | hk
    · exact .inr hkey
    · exact h.signed k hk

theorem signMedia_inspected {row : DressMedia} {k : MediaView → Prg β} (h : Shown w.db row.storageKey)
    (hk : ∀ view, ∀ w' : World schema outside, w.db.Evolves (keepers cfg reqs) t w'.db →
      (inspecting cfg reqs base).Ensures t (k view) Whatever w') :
    (inspecting cfg reqs base).Ensures t (signMedia row >>= k) Whatever w := by
  refine ensures_first (ensures_ask inspecting_historic rfl fun w1 x n hev _ _ _ => ?_)
  split
  · refine ensures_first (ensures_call fun w2 hev2 hL hI y r w3 he _ _ => ?_)
    cases he
    have hshown : Shown w2.db row.storageKey := (h.later hev.db.log_le hev.db.version).later hev2.db.log_le hev2.db.version
    exact ⟨hI.sign t _ y w2.db.log.length hshown, hk _ _ (hev.db.trans hev2.db)⟩
  · exact hk _ _ hev.db

theorem signEach_inspected : ∀ (rows : List DressMedia) (w : World schema outside), (∀ v ∈ rows, Shown w.db v.storageKey) →
    (inspecting cfg reqs base).Ensures t (signEach rows) Whatever w
  | [], _, _ => trivial
  | v :: rows, w, h => by
    refine signMedia_inspected (h v List.mem_cons_self) fun view w1 hev => ?_
    refine ensures_bind (ensures_mono (fun x _ _ => ?_) (signEach_inspected rows w1 fun u hu => ?_))
    · cases x <;> trivial
    · exact (h u (List.mem_cons_of_mem _ hu)).later hev.log_le hev.version

theorem shown_gallery (hidle : w.db.Idle t) :
    ∀ v ∈ Media.gallery ⟨w.db.view t, w.db.next⟩ dressId, Shown w.db v.storageKey := by
  intro v hv
  have hmem := (Ranked.ranked_perm _).mem_iff.1 hv
  obtain ⟨hall, hready⟩ := List.mem_filter.1 hmem
  obtain ⟨i, -, hrow⟩ := Snapshot.mem_all.1 hall
  have hrow : w.db.view t .dressMedia i = some v := hrow
  rw [hidle.view] at hrow
  refine ⟨w.db.log.length, Nat.le_refl _, i, v, by rw [Engine.version_length]; exact hrow, rfl, ?_⟩
  exact of_decide_eq_true (of_decide_eq_true hready).2

def ShownCovers (e : Engine schema) (covers : Nat → Option MediaCover) : Prop :=
  ∀ dressId cover, covers dressId = some cover → Shown e cover.row.storageKey

theorem shown_cover {cover : MediaCover} (hidle : w.db.Idle t)
    (h : Media.cover ⟨w.db.view t, w.db.next⟩ dressId = some cover) : Shown w.db cover.row.storageKey := by
  unfold Media.cover at h
  split at h
  · cases h
  · rename_i row rows hgallery
    cases h
    exact shown_gallery hidle row (by rw [hgallery]; exact List.mem_cons_self)

theorem viewEach_inspected {aggregates : Nat → Option VariantAggregate} {covers : Nat → Option MediaCover} :
    ∀ (rows : List Dress) (w : World schema outside), ShownCovers w.db covers →
    (inspecting cfg reqs base).Ensures t (viewEach aggregates covers rows) Whatever w
  | [], _, _ => trivial
  | row :: rows, w, h => by
    have hrest (w1 : World schema outside) (hev : w.db.Evolves (keepers cfg reqs) t w1.db) (shown : Option MediaView) :
        (inspecting cfg reqs base).Ensures t (do
          let configured ← ask .isConfigured
          let views ← viewEach aggregates covers rows
          return (⟨row, stockSummary ((aggregates row.id).getD emptyAggregate),
            ((covers row.id).map MediaCover.mediaCount).getD 0, shown, configured,
            MAX_MEDIA_PER_DRESS - ((covers row.id).map MediaCover.mediaCount).getD 0, [], []⟩ : DressView) :: views)
          Whatever w1 := by
      refine ensures_ask inspecting_historic rfl fun w2 x n hev2 _ _ _ => ?_
      refine ensures_bind (ensures_mono (fun y _ _ => ?_) (viewEach_inspected rows _ fun dressId cover hcover => ?_))
      · cases y <;> trivial
      · exact ((h dressId cover hcover).later hev.log_le hev.version).later hev2.db.log_le hev2.db.version
    unfold viewEach
    cases hcover : covers row.id with
    | none =>
      have hnone := hrest w (.refl _) none
      rw [hcover] at hnone
      exact hnone
    | some cover =>
      refine ensures_first (signMedia_inspected (h _ _ hcover) fun view w1 hev => ?_)
      have hsome := hrest w1 hev (some view)
      rw [hcover] at hsome
      exact hsome

theorem aggregates_inspected {dressIds : List Nat} {k : (Nat → Option VariantAggregate) → Prg β} (hidle : w.db.Idle t)
    (hk : ∀ aggregates, ∀ w' : World schema outside, w'.db.Idle t → (inspecting cfg reqs base).Ensures t (k aggregates) Q w') :
    (inspecting cfg reqs base).Ensures t (Variants.aggregateByDress dressIds >>= k) Q w := by
  cases dressIds with
  | nil => exact hk _ w hidle
  | cons dressId dressIds => exact idle_select hidle fun w1 _ hidle1 => hk _ _ ⟨hidle1.pending⟩

theorem covers_inspected {dressIds : List Nat} {k : (Nat → Option MediaCover) → Prg β} (hidle : w.db.Idle t)
    (hk : ∀ covers, ∀ w' : World schema outside, w'.db.Idle t → ShownCovers w'.db covers →
      (inspecting cfg reqs base).Ensures t (k covers) Q w') :
    (inspecting cfg reqs base).Ensures t (Media.coversByDress dressIds >>= k) Q w := by
  cases dressIds with
  | nil => exact hk _ w hidle nofun
  | cons dressId dressIds =>
    refine idle_select hidle fun w1 _ hidle1 => hk _ _ ⟨hidle1.pending⟩ fun d cover hcover => ?_
    split at hcover
    · have hshown : Shown w1.db cover.row.storageKey := shown_cover hidle1 hcover
      exact hshown
    · cases hcover

theorem listDresses_inspected {archived : Bool} {search : Option String} {offset limit : Int} (hidle : w.db.Idle t) :
    (inspecting cfg reqs base).Ensures t (listDresses cfg archived search offset limit) Whatever w := by
  unfold listDresses
  cases validateSearch search with
  | error e => trivial
  | ok _ =>
    refine ensures_tenantSession inspecting_historic fun w1 txNow hev _ _ => ?_
    refine idle_select ⟨(hev.db.idle hidle).pending⟩ fun w2 _ hidle2 => ?_
    refine idle_select ⟨hidle2.pending⟩ fun w3 _ hidle3 => ?_
    refine aggregates_inspected ⟨hidle3.pending⟩ fun aggregates w4 hidle4 => ?_
    refine covers_inspected hidle4 fun covers w5 hidle5 hcovers => ?_
    intro w6 hev6 _ hI6 _ _
    refine ⟨idle_commit hI6 (hev6.db.idle hidle5), ensures_bind (ensures_mono (fun x _ _ => ?_)
      (viewEach_inspected _ _ fun d cover hcover => ?_))⟩
    · cases x <;> trivial
    · have h6 : Shown w6.db cover.row.storageKey := (hcovers d cover hcover).later hev6.db.log_le hev6.db.version
      exact h6.commit

theorem detailView_inspected {includeArchived : Bool} (hidle : w.db.Idle t) :
    (inspecting cfg reqs base).Ensures t (detailView cfg dressId includeArchived) Whatever w := by
  refine ensures_tenantSession inspecting_historic fun w1 txNow hev hL _ => ?_
  have hidle1 : (Engine.Idle { w1.db with started := Function.update w1.db.started t txNow } t) := ⟨(hev.db.idle hidle).pending⟩
  have hrest (found : Option Dress) (w2 : World schema outside) (hidle2 : w2.db.Idle t) :
      (inspecting cfg reqs base).Ensures t (do
        let dress ← orRaise found .catalogNotFound
        let aggregates ← Variants.aggregateByDress [dressId]
        let variants ← Variants.listActive dressId
        let media ← Media.listReady dressId
        let activeMedia ← Media.countActive dressId (txNow - cfg.pendingTtl)
        return (⟨dress, variants, media, (aggregates dressId).getD emptyAggregate, activeMedia⟩ : DetailRows) : Prg DetailRows)
        (Closes (inspecting cfg reqs base) t (fun rows => signEach rows.media >>= fun media => do
          let configured ← ask .isConfigured
          return Response.view ⟨rows.dress, stockSummary rows.aggregate, media.length, media.head?, configured,
            MAX_MEDIA_PER_DRESS - rows.activeMedia, rows.variants, media⟩) Whatever) w2 := by
    refine ensures_orRaise (fun _ _ _ _ => trivial) fun dress _ => ?_
    refine idle_select hidle2 fun w3 _ hidle3 => idle_select ⟨hidle3.pending⟩ fun w4 _ hidle4 => ?_
    refine idle_select ⟨hidle4.pending⟩ fun w5 _ hidle5 => ?_
    have hshown : ∀ v ∈ Media.gallery ⟨w5.db.view t, w5.db.next⟩ dressId, Shown w5.db v.storageKey := shown_gallery hidle5
    refine idle_select ⟨hidle5.pending⟩ fun w6 hev6 hidle6 => ?_
    intro w7 hev7 _ hI7 _ _
    refine ⟨idle_commit hI7 (hev7.db.idle ⟨hidle6.pending⟩), ensures_bind (ensures_mono (fun x _ _ => ?_)
      (signEach_inspected _ _ fun v hv => ?_))⟩
    · cases x with
      | error e => trivial
      | ok media => exact ensures_ask inspecting_historic rfl fun _ _ _ _ _ _ _ => trivial
    · have h6 : Shown w6.db v.storageKey := (hshown v hv).later hev6.log_le hev6.version
      have h7 : Shown w7.db v.storageKey := h6.later hev7.db.log_le hev7.db.version
      exact h7.commit
  unfold loadDetail
  cases includeArchived with
  | true => exact idle_select hidle1 fun w2 _ hidle2 => hrest _ _ ⟨hidle2.pending⟩
  | false => exact idle_select hidle1 fun w2 _ hidle2 => hrest _ _ ⟨hidle2.pending⟩

theorem serve_head {x : Input} {n : Nat} {s : Store} {head : Staff.ObjectHead}
    (h : (serve t (.headObject key) x n s).1 = .ok (some head)) :
    .head t key head.contentType ∈ ownLooks t (serve t (.headObject key) x n s).2 := by
  cases hf : x.failure with
  | some e => simp [serve, hf] at h
  | none =>
    cases ho : s.objects key with
    | none => simp [serve, hf, ho] at h
    | some o =>
      simp only [serve, hf, ho] at h
      cases h
      simp [serve, hf, ho, ownLooks, Look.by_]

theorem serve_prefix {x : Input} {n length : Nat} {s : Store} {start : List UInt8}
    (h : (serve t (.readPrefix key length) x n s).1 = .ok start) :
    .body t key start ∈ ownLooks t (serve t (.readPrefix key length) x n s).2 := by
  cases hf : x.failure with
  | some e => simp [serve, hf] at h
  | none =>
    cases ho : s.objects key with
    | none => simp [serve, hf, ho] at h
    | some o =>
      simp only [serve, hf, ho] at h
      cases h
      simp [serve, hf, ho, ownLooks, Look.by_]

theorem reject_inspected {k : α → Prg β} (hidle : w.db.Idle t) :
    (inspecting cfg reqs base).Ensures t (rejectObject key >>= k) Whatever w := by
  refine ensures_first (ensures_first (ask_bind rfl hidle fun x n w1 _ _ _ => ?_))
  trivial

theorem checkObject_inspected {k : Unit → Prg β} (hidle : w.db.Idle t)
    (hk : ∀ w' : World schema outside, w.db.Evolves (keepers cfg reqs) t w'.db →
      w'.db.Idle t → Passed (ownLooks t w'.out) t v → (inspecting cfg reqs base).Ensures t (k ()) Whatever w') :
    (inspecting cfg reqs base).Ensures t (checkObject v.storageKey v.contentType >>= k) Whatever w := by
  refine ensures_first (ask_bind rfl hidle fun x n w1 hev1 hidle1 _ => ?_)
  cases hhead : (serve t (.headObject v.storageKey) x n w1.out).1 with
  | error failure => trivial
  | ok found =>
    cases found with
    | none => trivial
    | some head =>
      have hlook := serve_head hhead
      refine ensures_first (ensures_first (ensures_orRaise nofun fun head' hhead' => ?_))
      cases hhead'
      split
      · exact reject_inspected hidle1
      · rename_i htype
        rw [Decidable.not_not.1 htype] at hlook
        refine ensures_first (ask_bind rfl hidle1 fun y n' w2 hev2 hidle2 hkeep => ?_)
        cases hstart : (serve t (.readPrefix v.storageKey Staff.MAGIC_PREFIX_LENGTH) y n' w2.out).1 with
        | error failure => trivial
        | ok start =>
          change (inspecting cfg reqs base).Ensures t ((if !matchesMagicPrefix v.contentType start then
            rejectObject v.storageKey else return () : Prg Unit) >>= k) Whatever _
          split
          · exact reject_inspected hidle2
          · rename_i hmatch
            refine hk _ (hev1.trans hev2) hidle2 ⟨hkeep _ hlook, start, serve_prefix hstart, ?_⟩
            simpa using hmatch

theorem confirmMedia_inspected {mediaId actorId : Nat} (hreq : reqs t = .confirmMedia dressId mediaId actorId)
    (hidle : w.db.Idle t) :
    (inspecting cfg reqs base).Ensures t (confirmMedia cfg dressId mediaId actorId) Whatever w := by
  refine ask_bind rfl hidle fun _ _ w1 _ hidle1 _ => ensures_raiseIf (fun _ => trivial) fun _ => ?_
  refine ensures_tenantSession inspecting_historic fun w2 txNow hev2 _ _ => ?_
  refine idle_select ⟨(hev2.db.idle hidle1).pending⟩ fun w3 _ hidle3 => ensures_raiseIf (fun _ _ _ _ => trivial) fun _ => ?_
  refine idle_select ⟨hidle3.pending⟩ fun w4 _ hidle4 => ensures_last (ensures_orRaise (fun _ _ _ _ => trivial) fun row hrow => ?_)
  have hread : w4.db.version w4.db.log.length .dressMedia mediaId = some row := by
    rw [Engine.version_length, ← hidle4.view]
    exact (Option.filter_eq_some_iff.1 hrow).1
  intro w5 hev5 hL5 hI5 _ _
  refine ⟨idle_commit hI5 (hev5.db.idle ⟨hidle4.pending⟩), ?_⟩
  have hidle6 : (w5.db.commit t).Idle t := Engine.idle_commit _ _
  have hlog5 : w4.db.log.length ≤ w5.db.log.length := hev5.db.log_le
  have hversion5 : w5.db.version w4.db.log.length = w4.db.version w4.db.log.length := hev5.db.version _ (Nat.le_refl _)
  have hread6 : (w5.db.commit t).version w4.db.log.length .dressMedia mediaId = some row := by
    rw [Engine.commit_version_le hlog5, hversion5]
    exact hread
  have hlog6 : w4.db.log.length ≤ (w5.db.commit t).log.length := by
    show w4.db.log.length ≤ (w5.db.log ++ [w5.db.entry t]).length
    rw [List.length_append]
    omega
  dsimp only
  split
  · exact detailView_inspected hidle6
  · refine checkObject_inspected hidle6 fun w7 hev7 _ hpassed => session_bind (fun _ => within_promoteIn _ _ _) ?_
      fun _ w8 hidle8 => detailView_inspected hidle8
    intro dressId' mediaId' actorId' hreq'
    rw [hreq] at hreq'
    cases hreq'
    refine ⟨_, row, Nat.le_trans hlog6 hev7.log_le, ?_, hpassed⟩
    rw [hev7.version _ hlog6]
    exact hread6

def mute : Op schema outside → Bool
  | .ask q => unsigning q
  | _ => true

theorem mute_session (cfg : Config) (r : Request) (h : ∀ n, Within (Body cfg r) false (body n)) : Only (fun o => mute o = true) (tenantSession body : Prg α) := by
  refine only_tenantSession rfl rfl rfl fun n => only_of_within ((h n).mono fun _ o ho => ?_)
  cases o with
  | ask q => cases ho.2
  | now | sql => rfl

theorem mute_liftExcept (x : Except Err α) : Only (fun o => mute o = true) (liftExcept x) := by
  cases x <;> exact fun _ => trivial

theorem mute_ask (h : unsigning q = true) : Only (fun o => mute o = true) (ask q) := only_ask h

theorem mute_deleteEach : ∀ keys : List MediaKey, Only (fun o => mute o = true) (deleteEach keys)
  | [] => only_ret _
  | _ :: keys => only_bind (only_bind (mute_ask rfl) fun _ => only_ret _) fun _ => mute_deleteEach keys

theorem mute_ensures {p : Prg α} (hp : Only (fun o => mute o = true) p) (h : Cleared reqs t w) :
    (inspecting cfg reqs base).Ensures t p Whatever w := by
  refine ensures_mono (fun _ _ _ => trivial) (ensures_of_uses (fun _ w => Cleared reqs t w) (fun _ _ _ hev h => h.evolves hev)
    (fun l o w x y w' ho hL hI h he _ _ => ⟨?_, h.exec he⟩) (hp false) h)
  by_cases hcommit : o = .sql .commit
  · subst hcommit
    cases he
    exact cleared_commit hL hI h
  · refine inspecting_historic.exec hcommit (fun q hq => ?_) he hI
    subst hq
    exact ho

theorem mute_presignMedia (dressId : Nat) (contentType : String) (byteSize : Int) (actorId : Nat) :
    Only (fun o => mute o = true) (presignMedia cfg dressId contentType byteSize actorId) := by
  refine only_bind (mute_ask rfl) fun _ => only_bind (only_raiseIf _ _) fun _ => only_bind (mute_liftExcept _) fun _ =>
    only_bind (mute_ask rfl) fun _ => only_bind (only_raiseIf _ _) fun _ => only_bind
    (only_attempt (mute_session cfg _ fun _ => within_presignIn _ _ _ _ _)) fun result => ?_
  split
  · split
    · exact only_bind (mute_ask rfl) fun _ => only_raise _
    · exact only_raise _
  · refine only_bind (mute_ask rfl) fun _ => only_bind (mute_deleteEach _) fun _ => only_bind (mute_ask rfl) fun _ => ?_
    split
    · exact only_ret _
    · exact only_bind (mute_session cfg _ fun _ => within_release contentType byteSize actorId _) fun _ => only_raise _

theorem request_inspected (cfg : Config) (hidle : w.db.Idle t) :
    (inspecting cfg reqs base).Ensures t ((reqs t).code cfg) Whatever w := by
  have hcleared (hnot : ∀ dressId mediaId actorId, reqs t ≠ .confirmMedia dressId mediaId actorId) (w : World schema outside) :
      Cleared reqs t w := fun dressId mediaId actorId hreq => absurd hreq (hnot dressId mediaId actorId)
  have hview {dressId : Nat} {w : World schema outside} (hidle : w.db.Idle t) :
      (inspecting cfg reqs base).Ensures t (detailView cfg dressId false) Whatever w := detailView_inspected hidle
  cases hreq : reqs t with
  | listDresses archived search offset limit => exact listDresses_inspected hidle
  | createDress fields actorId =>
    refine mute_ensures ?_ (hcleared (by rw [hreq]; nofun) w)
    exact only_bind (mute_liftExcept _) fun _ => only_bind (mute_session cfg _ fun _ => within_createIn fields actorId) fun _ =>
      only_bind (mute_ask rfl) fun _ => only_ret _
  | updateDress dressId fields actorId =>
    show (inspecting cfg reqs base).Ensures t (liftExcept (validateDress fields) >>= _) Whatever w
    cases validateDress fields with
    | error e => trivial
    | ok _ =>
      exact session_bind (fun _ => within_updateFields _ _ _) (hcleared (by rw [hreq]; nofun) w) fun _ w1 hidle1 => hview hidle1
  | getDress dressId => exact detailView_inspected hidle
  | archiveDress dressId actorId =>
    refine mute_ensures (only_bind (mute_session cfg _ fun _ => within_archiveIn _ _ _) fun _ => only_ret _) ?_
    exact hcleared (by rw [hreq]; nofun) w
  | restoreDress dressId actorId =>
    exact session_bind (fun _ => within_restoreIn _ _) (hcleared (by rw [hreq]; nofun) w) fun _ w1 hidle1 => hview hidle1
  | replaceVariants dressId variants actorId =>
    show (inspecting cfg reqs base).Ensures t (liftExcept _ >>= fun _ => liftExcept _ >>= _) Whatever w
    cases validateVariants _ with
    | error e => trivial
    | ok _ =>
      cases rejectDuplicateSizes cfg _ with
      | error e => trivial
      | ok _ =>
        refine ensures_attempt (ensures_mono (fun x w1 hx => ?_)
          (session_ends (fun _ => within_replaceIn variants _ _ _ _) (hcleared (by rw [hreq]; nofun) w)))
        cases x with
        | ok a => exact hview (hx a rfl).1
        | error e => cases e <;> trivial
  | presignMedia dressId contentType byteSize actorId =>
    exact mute_ensures (mute_presignMedia _ _ _ _) (hcleared (by rw [hreq]; nofun) w)
  | confirmMedia dressId mediaId actorId => exact confirmMedia_inspected hreq hidle
  | deleteMedia dressId mediaId actorId =>
    refine ask_bind rfl hidle fun _ _ w1 _ _ _ => ensures_raiseIf (fun _ => trivial) fun _ => ?_
    refine session_bind (fun _ => within_deleteMediaIn _ _ _ _) (hcleared (by rw [hreq]; nofun) _) fun key w2 hidle2 => ?_
    exact ensures_first (ask_bind rfl hidle2 fun _ _ w3 _ hidle3 _ => hview hidle3)
  | reorderMedia dressId mediaIds actorId =>
    exact session_bind (fun _ => within_reorderIn _ _ _) (hcleared (by rw [hreq]; nofun) w) fun _ w1 hidle1 => hview hidle1
  | listReservations dressId =>
    exact mute_ensures (only_bind (mute_session cfg (.listReservations dressId) fun _ => within_listIn _) fun _ => only_ret _) (hcleared (by rw [hreq]; nofun) w)
  | createReservation dressId startsOn endsOn customerId notes actorId =>
    refine mute_ensures (only_bind (mute_liftExcept _) fun _ => ?_) (hcleared (by rw [hreq]; nofun) w)
    exact only_bind (mute_session cfg _ fun _ => within_reserveIn _ _ _ _ _ _) fun _ => only_ret _
  | deleteReservation dressId reservationId actorId =>
    exact mute_ensures (only_bind (mute_session cfg _ fun _ => within_freeIn _ _ _ _) fun _ => only_ret _) (hcleared (by rw [hreq]; nofun) w)
  | postMedia key contentType body =>
    exact mute_ensures (only_bind (mute_ask rfl) fun _ => only_ret _) (hcleared (by rw [hreq]; nofun) w)

end Threads

/-! ## Whole runs -/

section Runs

variable {store : Store} {rows : Rows schema} {next : Nat} {clock : Int} {c : Conf (machine schema outside Err) Response}

theorem inspecting_runs (h : Shelved rows next) (hr : (serving cfg reqs store rows next clock).Reaches c) :
    Vetting store.signed c.state ∧ c.state.db.Lawful (keepers cfg reqs) ∧
      c.state.db.version 0 = rows := by
  have hobeyed : Cast.Obeyed (keepers cfg reqs) (serving cfg reqs store rows next clock) :=
    serving_obeyed h
  have hI : (inspecting cfg reqs store.signed).Inv (serving cfg reqs store rows next clock).state :=
    ⟨fun d hd => (by cases hd), fun key hkey => .inl hkey⟩
  obtain ⟨hsound, hL⟩ := (inspecting cfg reqs store.signed).runs (Q := fun _ _ _ => True) hobeyed hI (fun t p hp => by
    cases hp
    exact safe_of_ensures (request_inspected cfg ⟨rfl⟩) fun _ _ _ _ _ _ _ => trivial) hr
  exact ⟨hsound.inv.2, hL, (hobeyed.history hr).2 0 (Nat.le_refl 0)⟩

theorem entry_vetting (hL : w.db.Lawful (keepers cfg reqs)) {d : Commit schema}
    (hd : d ∈ w.db.log) (i : Nat) :
    (vetting (reqs d.by_)).Becomes d.locked .dressMedia (d.before .dressMedia i) (d.after .dressMedia i) :=
  staff_becomes (fun _ => writes_vetting) (hL.entries d hd .dressMedia i)

/-- **A commit that makes photo `i` ready.** -/
def Turns (d : Commit schema) (i : Nat) : Prop :=
  ∃ v r : DressMedia, d.before .dressMedia i = some v ∧ v.status = .pending ∧ d.after .dressMedia i = some r ∧ r.status = .ready

/-- **Why photo `i`, as it is `v` at version `m`, is ready**: it was so in `rows`, or a commit before made it so, of a confirm of
its own that had found its object right. -/
def Vouched (reqs : Tid → Request) (rows : Rows schema) (w : World schema outside) (m i : Nat) (v : DressMedia) : Prop :=
  (∃ u : DressMedia, rows .dressMedia i = some u ∧ u.status = .ready ∧ Kept u v) ∨
    ∃ k d, k < m ∧ w.db.log[k]? = some d ∧ Turns d i ∧ (reqs d.by_).Confirms v ∧ Passed w.out.looks d.by_ v

theorem ready_vetted (hI : Vetting base w) (hL : w.db.Lawful (keepers cfg reqs)) {i : Nat} :
    ∀ (m : Nat) (v : DressMedia), m ≤ w.db.log.length → w.db.version m .dressMedia i = some v → v.status = .ready →
      Vouched reqs (w.db.version 0) w m i v := by
  intro m
  induction m with
  | zero => exact fun v _ hv hready => .inl ⟨v, hv, hready, rfl, rfl, rfl, rfl, rfl, id⟩
  | succ m ih =>
    intro v hm hv hready
    have hentry : w.db.log[m]? = some w.db.log[m] := List.getElem?_eq_getElem hm
    have hmem : w.db.log[m] ∈ w.db.log := List.getElem_mem hm
    have hbefore : w.db.version m = w.db.log[m].before := by
      unfold Engine.version
      rw [hentry]
    have hafter := hL.linked m _ hentry
    rw [hafter] at hv
    have hvetting := entry_vetting hL hmem i
    have hcommon := Cast.becomes_common (hL.entries _ hmem .dressMedia i)
    rw [hv] at hvetting hcommon
    cases hb : w.db.log[m].before .dressMedia i with
    | none =>
      rw [hb] at hvetting
      have hpending : v.status = .pending := hvetting.1
      rw [hready] at hpending
      cases hpending
    | some u =>
      rw [hb] at hvetting hcommon
      have hkept : Kept u v := hcommon
      obtain ⟨hid, hdress, hstatus⟩ : ReadyBy (reqs w.db.log[m].by_) .dressMedia u v := hvetting
      have hconfirms {r : Request} (h : r.Confirms u) : r.Confirms v := by
        obtain ⟨actorId, hr⟩ := h
        exact ⟨actorId, by rw [hr, hid, hdress]⟩
      cases hu : u.status with
      | ready =>
        rcases ih u (by omega) (by rw [hbefore]; exact hb) hu with ⟨u0, hu0, hready0, hkept0⟩ | ⟨k, d, hk, hd, hturns, hconfirm, hpassed⟩
        · exact .inl ⟨u0, hu0, hready0, RowKept.trans (T := .dressMedia) hkept0 hkept⟩
        · exact .inr ⟨k, d, by omega, hd, hturns, hconfirms hconfirm, hpassed.kept hkept⟩
      | pending =>
        refine .inr ⟨m, _, Nat.lt_succ_self m, hentry, ⟨u, v, hb, hu, hv, hready⟩, ?_, hI.promoted _ hmem i u v hb hv hu hready⟩
        rcases hstatus with hsame | hconfirm
        · rw [hready, hu] at hsame
          cases hsame
        · exact hconfirms hconfirm

/-- **A photo is what it was presigned as, and ready by a look at its object.**  In every run, whatever is archived, restored,
deleted or ordered beside: no photo changes its dress, key, type or size or is made pending again, a new one is pending, and one
that is ready was so at the start or was made ready by a commit of a confirm of its own, whose thread had been told by the storage
that the object is of the declared type and had read a beginning that fits it. -/
theorem photos_vetted (h : Shelved rows next) (hr : (serving cfg reqs store rows next clock).Reaches c) :
    (∀ m n, m ≤ n → n ≤ c.state.db.log.length → ∀ i, ∀ v : DressMedia, c.state.db.version m .dressMedia i = some v →
      ∃ v' : DressMedia, c.state.db.version n .dressMedia i = some v' ∧ Kept v v') ∧
    (∀ d ∈ c.state.db.log, ∀ i, ∀ v : DressMedia, d.before .dressMedia i = none → d.after .dressMedia i = some v →
      v.status = .pending) ∧
    ∀ m, m ≤ c.state.db.log.length → ∀ i, ∀ v : DressMedia, c.state.db.version m .dressMedia i = some v → v.status = .ready →
      Vouched reqs rows c.state m i v := by
  obtain ⟨hI, hL, hstart⟩ := inspecting_runs h hr
  refine ⟨fun m n hmn hn i v hv => ?_, fun d hd i v hb ha => ?_, fun m hm i v hv hready => ?_⟩
  · have hbecomes := hL.version_becomes (Cast.plays_common _) hmn hn .dressMedia i
    rw [hv] at hbecomes
    obtain ⟨v', hv', hkept⟩ := hbecomes.some_left
    exact ⟨v', hv', hkept⟩
  · have hvetting := entry_vetting hL hd i
    rw [hb, ha] at hvetting
    exact hvetting.1
  · have hready := ready_vetted hI hL m v hm hv hready
    rw [hstart] at hready
    exact hready

end Runs

theorem photos_vetted_confirmed : ∃ c,
    (serving galleryConfig (fun _ => .confirmMedia 0 3 0) posted (listed (S := schema) displayed) 4 0).Reaches c ∧
      ∃ v : DressMedia, c.state.db.version 2 .dressMedia 3 = some v ∧
        ∃ d ∈ c.state.db.log, Turns d 3 ∧ Passed c.state.out.looks d.by_ v := by
  obtain ⟨c, hc, hP⟩ := Conf.reached_freely
      (serving galleryConfig (fun _ => .confirmMedia 0 3 0) posted (listed (S := schema) displayed) 4 0) (answered 0 14)
    (fun c => decide ((c.state.db.version 2 .dressMedia 3).map DressMedia.status = some .ready ∧ 2 ≤ c.state.db.log.length))
    (by decide)
  obtain ⟨hstatus, hlength⟩ := of_decide_eq_true hP
  obtain ⟨v, hv, hready⟩ := Option.map_eq_some_iff.1 hstatus
  obtain ⟨-, -, hvetted⟩ := photos_vetted displayed_shelved hc
  rcases hvetted 2 hlength 3 v hv hready with ⟨u, hu, hwas, -⟩ | ⟨_, d, -, hd, hturns, -, hpassed⟩
  · have hpending : u = (⟨3, 0, none, 0, ⟨0, 3, ".png"⟩, "image/png", 8, .pending, 0⟩ : DressMedia) := (Option.some.inj hu).symm
    rw [hpending] at hwas
    cases hwas
  · exact ⟨c, hc, v, hv, d, List.mem_of_getElem? hd, hturns, hpassed⟩

section Runs

variable {store : Store} {rows : Rows schema} {next : Nat} {clock : Int} {c : Conf (machine schema outside Err) Response}

/-- **A url for reading is signed for what has been vetted only**, of the list and of the single dress: its key is that of a photo
which some version of the tables had ready, for it was so at the start or a confirm had found its object right and made it so. -/
theorem urls_vetted (h : Shelved rows next) (hr : (serving cfg reqs store rows next clock).Reaches c) :
    ∀ key ∈ c.state.out.signed, key ∈ store.signed ∨ ∃ m i, ∃ v : DressMedia, m ≤ c.state.db.log.length ∧
      c.state.db.version m .dressMedia i = some v ∧ v.storageKey = key ∧ v.status = .ready ∧ Vouched reqs rows c.state m i v := by
  obtain ⟨hI, hL, hstart⟩ := inspecting_runs h hr
  intro key hkey
  refine (hI.signed key hkey).imp_right fun hshown => ?_
  obtain ⟨m, hm, i, v, hv, hsame, hready⟩ := hshown
  have hvouched := ready_vetted hI hL m v hm hv hready
  rw [hstart] at hvouched
  exact ⟨m, i, v, hm, hv, hsame, hready, hvouched⟩

end Runs

def oneUpload : (T : Table) → List (Row T)
  | .dresses => [(⟨0, 0, none, "lace", none, none, false, false, 0⟩ : Dress)]
  | .dressMedia => [(⟨3, 0, none, 0, ⟨0, 3, ".png"⟩, "image/png", 8, .pending, 0⟩ : DressMedia)]
  | _ => []

theorem oneUpload_shelved : Shelved (listed (S := schema) oneUpload) 4 :=
  shelved_of_stocked [.dresses, .dressVariants, .dressMedia, .dressReservations, .customers, .auditLog]
    (fun T => by cases T <;> decide) (by decide)

def confirmAndList : Tid → Request
  | 0 => .confirmMedia 0 3 0
  | _ => .listDresses false (some "la") (-1) 0

def listedCover : Response :=
  .list [⟨⟨0, 0, none, "lace", none, none, false, false, 0⟩, ⟨0, 0, true⟩, 1,
    some ⟨⟨3, 0, none, 0, ⟨0, 3, ".png"⟩, "image/png", 8, .ready, 0⟩, true⟩, true, 11, [], []⟩] 1 0 1

/-- The list shows the cover that the confirm, itself not done yet, has committed. -/
theorem urls_vetted_listed : ∃ c,
    (serving galleryConfig confirmAndList posted (listed (S := schema) oneUpload) 4 0).Reaches c ∧
      c.threads 1 = some (.ret listedCover) ∧ ∃ i, ∃ v : DressMedia, v.storageKey = ⟨0, 3, ".png"⟩ ∧
        ∃ d ∈ c.state.db.log, Turns d i ∧ Passed c.state.out.looks d.by_ v := by
  obtain ⟨c, hc, hP⟩ := Conf.reached_freely
      (serving galleryConfig confirmAndList posted (listed (S := schema) oneUpload) 4 0) (answered 0 14 ++ answered 1 9)
    (fun c => decide (c.reply 1 = some listedCover ∧ (⟨0, 3, ".png"⟩ : MediaKey) ∈ c.state.out.signed))
    (by decide)
  obtain ⟨hreply, hsigned⟩ := of_decide_eq_true hP
  refine ⟨c, hc, Conf.reply_eq_some.1 hreply, ?_⟩
  rcases urls_vetted oneUpload_shelved hc _ hsigned with hkey | ⟨m, i, v, -, -, hkey, -, hvouched⟩
  · cases hkey
  rcases hvouched with ⟨u, hu, hready, -⟩ | ⟨_, d, -, hd, hturns, -, hpassed⟩
  · have hmem : u ∈ oneUpload .dressMedia := List.mem_of_find?_eq_some hu
    simp only [oneUpload, List.mem_singleton] at hmem
    subst hmem
    cases hready
  · exact ⟨i, v, hkey, d, List.mem_of_getElem? hd, hturns, hpassed⟩

end Catalog

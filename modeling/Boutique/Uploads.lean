import Boutique.LastOwner
import Boutique.Photos
/-!
# Uploads — a photo is uploaded past the server

Presign, upload, confirm: the row and the storage change in steps of their own.  What is shown has passed a look, and what
has been deleted is not shown, while a rejected confirm deletes nothing that another one has promoted.
-/
namespace Staff

open Txn Session Contract

variable {cfg : Config} {reqs : Tid → Request} {base i : Nat} {t : Tid} {w w' : World schema outside}
  {e e' : Engine schema} {key : PhotoKey} {type : String} {actor : StaffContext} {ks : List Kind} {l : Bool}

/-! ## The contract -/

structure Album (reqs : Tid → Request) (base : Nat) (w : World schema outside) : Prop where
  first : w.out.firstId = base
  sound : Sound base (w.db.version 0)
  recorded : Recorded reqs base w.out.looks w.db
  gone : ∀ key ∈ w.out.deleted, ∃ m, m ≤ w.db.log.length ∧ Gone base w.db m key

/-- **No upload is judged twice, and none is cleared by another's failure**: a rejected confirm deletes no key that a confirm
has promoted, and a presign that could not be signed clears its own key. -/
def Considerate (reqs : Tid → Request) (base : Nat) : (machine schema outside Err).Assumption := fun t o w _ _ =>
  match o with
  | .ask (.deleteObject key) => ∀ i actorId, reqs t = .confirmPhoto i actorId →
      (∃ d ∈ w.db.log, d.by_ = t ∧ ∃ k, Promotes d i k) ∨ ∀ d ∈ w.db.log, ¬Promotes d i key
  | .sql (.update .staffUsers i (.setPendingPhoto none none none)) => ∀ contentType byteSize actorId,
      reqs t = .presignPhoto i contentType byteSize actorId → ∀ v : StaffUser, w.db.committed .staffUsers i = some v →
        v.live = true → ∀ key, v.photoPendingKey = some key → key.photoId = base + t
  | _ => True

theorem Album.same (hlog : w'.db.log = w.db.log) (hc : w'.db.committed = w.db.committed)
    (hfirst : w'.out.firstId = w.out.firstId) (hlooks : w.out.looks ⊆ w'.out.looks)
    (hdeleted : ∀ key ∈ w'.out.deleted, key ∈ w.out.deleted ∨ ∃ m, m ≤ w.db.log.length ∧ Gone base w.db m key)
    (h : Album reqs base w) : Album reqs base w' := by
  have hv : w'.db.version = w.db.version := funext fun m => Engine.version_congr hlog hc m
  refine ⟨hfirst.trans h.first, by rw [hv]; exact h.sound, fun m d hd i r hr => ?_, fun key hkey => ?_⟩
  · rw [hlog] at hd
    refine (h.recorded m d hd i r hr).lasts hlooks ⟨[], by rw [hlog, List.append_nil]⟩ (fun n _ => by rw [hv]) ?_
    exact (List.getElem?_eq_some_iff.1 hd).1.le
  · have hgone : ∃ m, m ≤ w.db.log.length ∧ Gone base w.db m key := by
      rcases hdeleted key hkey with hold | hnew
      · exact h.gone key hold
      · exact hnew
    exact lasts_gone.congr hlog hc hgone

abbrev photographing (reqs : Tid → Request) (base : Nat) : Contract conduct.shared outside Err where
  Inv := Album reqs base
  Assume := Considerate reqs base
  crash_inv _ w _ h := h.same (w := w) rfl rfl rfl (fun _ hl => hl) fun _ hk => .inl hk
  tick_inv _ w _ h := h.same (w := w) rfl rfl rfl (fun _ hl => hl) fun _ hk => .inl hk

def harmless : Ask → Bool
  | .deleteObject _ => false
  | _ => true

theorem photographing_historic : (photographing reqs base).Historic harmless := by
  refine ⟨fun w w' hlog hc hout h => h.same hlog hc (by rw [hout]) (by rw [hout]; exact fun _ hl => hl)
    (by rw [hout]; exact fun _ hk => .inl hk), fun t q i n w hq h => ?_⟩
  have hkeep : ∀ s : Store, s.firstId = w.out.firstId → w.out.looks ⊆ s.looks → s.deleted = w.out.deleted →
      Album reqs base ⟨w.db, s⟩ := fun s hfirst hlooks hdeleted =>
    h.same (w := w) rfl rfl hfirst hlooks fun key hkey => .inl (hdeleted ▸ hkey)
  cases q with
  | deleteObject key => cases hq
  | presignedPost key contentType exactBytes =>
    cases hf : i.failure <;> simp only [serve, hf] <;> exact hkeep _ rfl (fun _ hl => hl) rfl
  | postObject key contentType body =>
    simp only [serve]
    split <;> exact hkeep _ rfl (fun _ hl => hl) rfl
  | headObject key =>
    cases hf : i.failure <;> cases ho : w.out.objects key <;> simp only [serve, hf, ho]
    all_goals first
      | exact hkeep _ rfl (fun _ hl => hl) rfl
      | exact hkeep _ rfl (fun _ hl => List.mem_cons_of_mem _ hl) rfl
  | readPrefix key length =>
    cases hf : i.failure <;> cases ho : w.out.objects key <;> simp only [serve, hf, ho]
    all_goals first
      | exact hkeep _ rfl (fun _ hl => hl) rfl
      | exact hkeep _ rfl (fun _ hl => List.mem_cons_of_mem _ hl) rfl
  | verifyPassword password hash =>
    simp only [serve]
    split
    · exact hkeep _ rfl (fun _ hl => List.mem_cons_of_mem _ hl) rfl
    · exact hkeep _ rfl (fun _ hl => hl) rfl
  | hashPassword | generateToken | isBlocked | recordFailure | isConfigured | uuid4 | assignmentOf =>
    exact hkeep _ rfl (fun _ hl => hl) rfl

def Fair (reqs : Tid → Request) (base : Nat) (t : Tid) (w : World schema outside) : Prop :=
  ∀ i (r : StaffUser), w.db.pending t .staffUsers i = some r →
    Fits reqs base w.out.looks w.db w.db.log.length t i (w.db.committed .staffUsers i) r

theorem album_commit (h : Album reqs base w) (hfair : Fair reqs base t w) :
    Album reqs base ⟨w.db.commit t, w.out⟩ := by
  have hprefix : w.db.log <+: (w.db.commit t).log := List.prefix_append _ _
  have hv : ∀ n, n ≤ w.db.log.length → (w.db.commit t).version n = w.db.version n := fun n hn => Engine.commit_version_le hn
  refine ⟨h.first, by rw [hv 0 (Nat.zero_le _)]; exact h.sound, fun m d hd i r hr => ?_, fun key hkey => ?_⟩
  · rcases Nat.lt_or_ge m w.db.log.length with hm | hm
    · rw [Engine.commit_log, List.getElem?_append_left hm] at hd
      exact (h.recorded m d hd i r hr).lasts (fun _ hl => hl) hprefix hv hm.le
    · have hlen := (List.getElem?_eq_some_iff.1 hd).1
      have hlast : m = w.db.log.length := by
        simp only [Engine.commit_log, List.length_append, List.length_singleton] at hlen
        omega
      subst hlast
      rw [Engine.commit_log, List.getElem?_concat_length] at hd
      cases hd
      exact (hfair i r hr).lasts (fun _ hl => hl) hprefix hv (Nat.le_refl _)
  · exact lasts_gone.commit (h.gone key hkey)

/-! ## Threads -/

/-- **What a thread knows stays so**, whatever the others do and whatever it does itself short of a commit or a look. -/
structure Steadfast (t : Tid) (Ψ : World schema outside → Prop) : Prop where
  evolves : ∀ w w', w.Evolves conduct.shared t w' → Ψ w → Ψ w'
  same : ∀ w w' : World schema outside, w'.db.log = w.db.log → w'.db.committed = w.db.committed →
    ownLooks t w'.out = ownLooks t w.out → Ψ w → Ψ w'

theorem steadfast_lasts {Φ : Engine schema → Prop} (h : Lasts Φ) : Steadfast t fun w => Φ w.db :=
  ⟨fun _ _ hev hΦ => h.evolves hev.db hΦ, fun _ _ hl hc _ hΦ => h.congr hl hc hΦ⟩

theorem steadfast_own : Steadfast t fun w => w.db.own t = [] :=
  ⟨fun _ _ hev h => hev.db.since.own.trans h, fun _ _ hl _ _ h => by rw [Engine.own, hl]; exact h⟩

theorem steadfast_looks {Φ : List Look → Prop} : Steadfast t fun w => Φ (ownLooks t w.out) :=
  ⟨fun w w' hev h => by rw [show ownLooks t w'.out = ownLooks t w.out from hev.mine]; exact h,
    fun _ _ _ _ hm h => by rw [hm]; exact h⟩

theorem Steadfast.and {Ψ Ψ' : World schema outside → Prop} (h : Steadfast t Ψ) (h' : Steadfast t Ψ') :
    Steadfast t fun w => Ψ w ∧ Ψ' w :=
  ⟨fun w w' hev hΨ => ⟨h.evolves w w' hev hΨ.1, h'.evolves w w' hev hΨ.2⟩,
    fun w w' hl hc hm hΨ => ⟨h.same w w' hl hc hm hΨ.1, h'.same w w' hl hc hm hΨ.2⟩⟩

theorem steadfast_gone (keys : List PhotoKey) :
    Steadfast t fun w => ∀ key ∈ keys, ∃ m, m ≤ w.db.log.length ∧ Gone base w.db m key :=
  ⟨fun _ _ hev h k hmem => lasts_gone.evolves hev.db (h k hmem), fun _ _ hl hc _ h k hmem => lasts_gone.congr hl hc (h k hmem)⟩

theorem serve_delete (t : Tid) (key : PhotoKey) (x : Input) (n : Nat) (s : Store) :
    (serve t (.deleteObject key) x n s).2.firstId = s.firstId ∧ (serve t (.deleteObject key) x n s).2.looks = s.looks ∧
      ∀ k ∈ (serve t (.deleteObject key) x n s).2.deleted, k ∈ s.deleted ∨ k = key := by
  cases hf : x.failure with
  | some failure =>
    exact ⟨by simp [serve, hf], by simp [serve, hf], fun k hk => .inl (by simpa [serve, hf] using hk)⟩
  | none =>
    exact ⟨by simp [serve, hf], by simp [serve, hf], fun k hk => by simpa [serve, hf, or_comm] using hk⟩

variable {W : Work StaffUser} {actorId m : Nat} {out : Store}

section Threads

variable {α β : Type} {Q : Except Err β → World schema outside → Prop} {Ψ : World schema outside → Prop}

theorem ask_bind {q : Ask} {k : Ans q → Prg β} (hΨ : Steadfast t Ψ) (hq : harmless q = true)
    (hlooks : ∀ i n s, ownLooks t (serve t q i n s).2 = ownLooks t s) (hidle : w.db.pending t = fun _ _ => none) (h : Ψ w)
    (hk : ∀ a w', w'.db.pending t = (fun _ _ => none) → Ψ w' → (photographing reqs base).Ensures t (k a) Q w') :
    (photographing reqs base).Ensures t (ask q >>= k) Q w := by
  refine ensures_ask photographing_historic hq fun w1 x n hev _ _ _ => hk _ _ ?_ ?_
  · show w1.db.pending t = _
    rw [hev.db.pending, hidle]
  · exact hΨ.same w1 _ rfl rfl (hlooks x n w1.out) (hΨ.evolves w w1 hev h)

theorem erase_bind {k : Except MediaFailure Unit → Prg β} (hΨ : Steadfast t Ψ) (hidle : w.db.pending t = fun _ _ => none)
    (h : Ψ w) (hgone : ∀ w1 r w2, w.Evolves conduct.shared t w1 → w1.db.Lawful conduct.shared → Album reqs base w1 →
      Considerate reqs base t (.ask (.deleteObject key)) w1 r w2 →
      ∃ m, m ≤ w1.db.log.length ∧ Gone base w1.db m key)
    (hk : ∀ a w', w'.db.pending t = (fun _ _ => none) → Ψ w' → (photographing reqs base).Ensures t (k a) Q w') :
    (photographing reqs base).Ensures t (ask (.deleteObject key) >>= k) Q w := by
  refine ensures_call fun w1 hev hL hI x r w2 he _ hA => ?_
  have hΨ1 := hΨ.evolves w w1 hev h
  have hgone := hgone w1 r w2 hev hL hI hA
  have hidle1 : w1.db.pending t = fun _ _ => none := by rw [hev.db.pending, hidle]
  cases he
  obtain ⟨hfirst, hlooks, hdeleted⟩ := serve_delete t key x w1.db.log.length w1.out
  refine ⟨hI.same (w := w1) rfl rfl hfirst (by rw [hlooks]; exact fun _ hl => hl) fun k hmem => ?_,
    hk _ _ hidle1 (hΨ.same w1 _ rfl rfl (by simp only [ownLooks, hlooks]) hΨ1)⟩
  rcases hdeleted k hmem with hold | rfl
  · exact .inl hold
  · exact .inr hgone

theorem erase_each {k : Unit → Prg β} (hΨ : Steadfast t Ψ) : ∀ (keys : List PhotoKey) (w : World schema outside),
    w.db.pending t = (fun _ _ => none) → Ψ w → (∀ key ∈ keys, ∃ m, m ≤ w.db.log.length ∧ Gone base w.db m key) →
    (∀ w', w'.db.pending t = (fun _ _ => none) → Ψ w' → (photographing reqs base).Ensures t (k ()) Q w') →
    (photographing reqs base).Ensures t (deleteEach keys >>= k) Q w
  | [], w, hidle, h, _, hk => hk w hidle h
  | key :: keys, w, hidle, h, hgone, hk => by
    refine ensures_first (erase_bind (hΨ.and (steadfast_gone keys)) hidle ⟨h, fun k hmem => hgone k (List.mem_cons_of_mem _ hmem)⟩
      (fun w1 r w2 hev _ _ _ => lasts_gone.evolves hev.db (hgone key (List.mem_cons_self ..)))
      fun _ w' hidle' h' => erase_each hΨ keys w' hidle' h'.1 h'.2 hk)

/-! ## Under the staff lock -/

def Seen (i : Nat) (target : StaffUser) (e : Engine schema) : Prop :=
  ∃ n, n ≤ e.log.length ∧ e.version n .staffUsers i = some target

theorem lasts_seen (i : Nat) (target : StaffUser) : Lasts (Seen i target) := by
  rintro e e' hl hv ⟨n, hn, hrow⟩
  exact ⟨n, Nat.le_trans hn hl.length_le, by rw [hv n hn]; exact hrow⟩

/-- **The row as it was read with the lock**: what is shown, and her account, still stand, and what was pending is pending or
cleared. -/
structure Viewing (t : Tid) (i : Nat) (target : StaffUser) (e : Engine schema) : Prop where
  idle : e.pending t = fun _ _ => none
  lock : e.advisory = some t
  live : target.live = true
  row : ∃ u : StaffUser, e.committed .staffUsers i = some u ∧ u.photoKey = target.photoKey ∧ u.deletedAt = target.deletedAt ∧
    (u.photoPendingKey = none ∨ u.photoPendingKey = target.photoPendingKey)
  saw : Seen i target e

variable {target : StaffUser}

theorem Viewing.evolves (h : Viewing t i target e) (hev : e.Evolves conduct.shared t e') : Viewing t i target e' := by
  obtain ⟨u, hu, hphoto, hdeleted, hpending⟩ := h.row
  have hrow := hev.rows .staffUsers i
  rw [hu, Engine.holds_iff.2 h.lock] at hrow
  obtain ⟨u', hu', hstays⟩ := hrow.some_left
  have hstays : Stays false u u' := hstays
  refine ⟨hev.pending.trans h.idle, hev.advisory.2 h.lock, h.live, ⟨u', hu', (hstays.photo rfl).1.trans hphoto,
    (hstays.account rfl).trans hdeleted, ?_⟩, (lasts_seen i target).evolves hev h.saw⟩
  rcases hstays.pending rfl with hnone | ⟨hsame, -⟩
  · exact .inl hnone
  · rw [hsame]
    exact hpending

theorem view_locked {k : Option StaffUser → Prg β} (hΨ : Steadfast t Ψ) (hidle : w.db.pending t = fun _ _ => none) (h : Ψ w)
    (hnone : ∀ w', w'.db.pending t = (fun _ _ => none) → Ψ w' → w'.db.Lawful conduct.shared → Album reqs base w' →
      (∀ r : StaffUser, w'.db.committed .staffUsers i = some r → r.live = false) →
      (photographing reqs base).Ensures t (k none) Q w')
    (hk : ∀ target w', Viewing t i target w'.db → Ψ w' → w'.db.Lawful conduct.shared → Album reqs base w' →
      (photographing reqs base).Ensures t (k (some target)) Q w') :
    (photographing reqs base).Ensures t (do
      staffLock
      let found ← StaffUsers.byId i
      k found) Q w := by
  refine ensures_locked photographing_historic fun w1 hev1 _ _ => ensures_call fun w2 hev2 hL2 hI2 x found w3 he hL3 _ => ?_
  have h2 : Ψ w2 := hΨ.evolves _ _ hev2 (hΨ.same w1 _ rfl rfl rfl (hΨ.evolves _ _ hev1 h))
  have hidle2 : w2.db.pending t = fun _ _ => none := by
    rw [hev2.db.pending]
    rw [hev1.db.pending, hidle]
  have hI3 := photographing_historic.exec (by simp) (by simp) he hI2
  cases he
  refine ⟨hI3, ?_⟩
  have h3 : Ψ ⟨w2.db.look t, w2.out⟩ := hΨ.same w2 _ rfl rfl rfl h2
  dsimp only
  rw [Engine.view_idle hidle2]
  cases hfound : Option.filter StaffUser.live (w2.db.committed Table.staffUsers i) with
  | none =>
    refine hnone ⟨w2.db.look t, w2.out⟩ hidle2 h3 hL3 hI3 fun r hr => ?_
    rw [show w2.db.committed Table.staffUsers i = some r from hr] at hfound
    simpa using hfound
  | some target =>
    obtain ⟨hread, hlive⟩ := Option.filter_eq_some_iff.1 hfound
    refine hk target ⟨w2.db.look t, w2.out⟩ ⟨hidle2, hev2.db.advisory.2 rfl, hlive, ⟨target, hread, rfl, rfl, .inr rfl⟩,
      w2.db.log.length, Nat.le_refl _, ?_⟩ h3 hL3 hI3
    rw [← Engine.version_length] at hread
    exact hread

theorem view_select {α : Type} {q : Query} {f : Snapshot schema → α} {k : α → Prg β} (hΨ : Steadfast t Ψ)
    (h : Viewing t i target w.db) (hknows : Ψ w)
    (hk : ∀ a w', Viewing t i target w'.db → Ψ w' → (photographing reqs base).Ensures t (k a) Q w') :
    (photographing reqs base).Ensures t (select q f >>= k) Q w := by
  refine ensures_select photographing_historic fun w1 hev _ _ _ _ => ?_
  have h1 := h.evolves hev.db
  exact hk _ _ ⟨h1.idle, h1.lock, h1.live, h1.row, h1.saw⟩ (hΨ.same w1 _ rfl rfl rfl (hΨ.evolves w w1 hev hknows))

theorem view_now {k : Int → Prg β} (hΨ : Steadfast t Ψ) (h : Viewing t i target w.db) (hknows : Ψ w)
    (hk : ∀ a w', Viewing t i target w'.db → Ψ w' → (photographing reqs base).Ensures t (k a) Q w') :
    (photographing reqs base).Ensures t (Session.now >>= k) Q w :=
  ensures_now photographing_historic fun w1 hev _ _ => hk _ w1 (h.evolves hev.db) (hΨ.evolves w w1 hev hknows)

/-! ## Commits -/

structure InHand (t : Tid) (W : Work StaffUser) (Ψ : World schema outside → Prop) (w : World schema outside) : Prop where
  work : w.db.AtWork t Table.staffUsers W
  knows : Ψ w

theorem InHand.evolves (hΨ : Steadfast t Ψ) (h : InHand t W Ψ w) (hev : w.Evolves conduct.shared t w') :
    InHand t W Ψ w' :=
  ⟨h.work.evolves hev.db, hΨ.evolves w w' hev h.knows⟩

theorem hand_idle (hidle : w.db.pending t = fun _ _ => none) (h : Ψ w) : InHand t none Ψ w :=
  ⟨Engine.atWork_none (by rw [hidle]), h⟩

theorem hand_record {k : Unit → Prg β} {entity : Nat} {action : AuditAction} (hΨ : Steadfast t Ψ) (h : InHand t W Ψ w)
    (herr : ∀ e w', Q (.error e) w')
    (hk : ∀ w', InHand t W Ψ w' → (photographing reqs base).Ensures t (k ()) Q w') :
    (photographing reqs base).Ensures t (record actorId entity action >>= k) Q w := by
  refine ensures_first (ensures_insert photographing_historic (fun _ _ _ _ _ => herr _ _) fun w1 hev hL hL' _ => ?_)
  have h1 := h.evolves hΨ hev
  exact hk ⟨inserted w1.db t Table.auditLog _, w1.out⟩ ⟨h1.work.insertBeside (by decide), hΨ.same w1 _ rfl rfl rfl h1.knows⟩

theorem hand_select {α : Type} {q : Query} {f : Snapshot schema → α} {k : α → Prg β} (hΨ : Steadfast t Ψ)
    (h : InHand t W Ψ w) (hk : ∀ a w', InHand t W Ψ w' → (photographing reqs base).Ensures t (k a) Q w') :
    (photographing reqs base).Ensures t (select q f >>= k) Q w := by
  refine ensures_select photographing_historic fun w1 hev _ _ _ _ => ?_
  have h1 := h.evolves hΨ hev
  exact hk _ _ ⟨h1.work.congr rfl rfl, hΨ.same w1 _ rfl rfl rfl h1.knows⟩

theorem view_update {g : StaffUserChange} {k : Option StaffUser → Prg β} (hΨ : Steadfast t Ψ) (h : Viewing t i target w.db)
    (hknows : Ψ w) (herr : ∀ e w', Q (.error e) w')
    (hnone : ∀ u w', StaffUser.live u = true → StaffUserChange.apply u g = none → InHand t none Ψ w' →
      (photographing reqs base).Ensures t (k none) Q w')
    (hsome : ∀ v r w', v.photoKey = target.photoKey →
      v.photoPendingKey = none ∨ v.photoPendingKey = target.photoPendingKey → StaffUserChange.apply v g = some r →
      InHand t (some (i, some v, r)) (fun w => Ψ w ∧ Seen i target w.db) w' →
      (photographing reqs base).Ensures t (k (some r)) Q w') :
    (photographing reqs base).Ensures t (update .staffUsers i g >>= k) Q w := by
  refine ensures_updateFirst photographing_historic (Engine.atWork_none (by rw [h.idle])) (fun _ _ => herr _ _)
    (fun w1 hev hL hI hn => ?_) fun w1 v r hev hL hv hr hA hwork => ?_
  · have h1 := h.evolves hev.db
    obtain ⟨u, hu, -, hdeleted, -⟩ := h1.row
    rw [hu] at hn
    refine hnone u w1 ?_ hn (hand_idle h1.idle (hΨ.evolves w w1 hev hknows))
    simpa [StaffUser.live, hdeleted] using h.live
  · have h1 := h.evolves hev.db
    obtain ⟨u, hu, hphoto, -, hpending⟩ := h1.row
    rw [hv] at hu
    cases hu
    refine hsome v r _ hphoto hpending hr ⟨hwork, hΨ.same w1 _ rfl rfl rfl (hΨ.evolves w w1 hev hknows), ?_⟩
    exact (lasts_seen i target).congr rfl rfl h1.saw

theorem hand_closes {a : α} {k : α → Prg β} (hΨ : Steadfast t Ψ) (h : InHand t W Ψ w)
    (hfits : ∀ w1 j v r, W = some (j, v, r) → Ψ w1 → Album reqs base w1 →
      Fits reqs base w1.out.looks w1.db w1.db.log.length t j v r)
    (hk : ∀ w1, InHand t W Ψ w1 → w1.db.Lawful conduct.shared → Album reqs base w1 →
      Album reqs base ⟨w1.db.commit t, w1.out⟩ →
      (photographing reqs base).Ensures t (k a) Q ⟨w1.db.commit t, w1.out⟩) :
    Closes (photographing reqs base) t k Q (.ok a) w := by
  intro w1 hev hL hI _ _
  have h1 := h.evolves hΨ hev
  have hfair : Fair reqs base t w1 := by
    intro j r hr
    obtain ⟨v, hW, hbefore⟩ := h1.work.entry (show (w1.db.entry t).writes .staffUsers j = some r from hr)
    rw [show w1.db.committed .staffUsers j = v from hbefore]
    exact hfits w1 j v r hW h1.knows hI
  have hI' := album_commit hI hfair
  exact ⟨hI', hk w1 h1 hL hI hI'⟩

theorem gone_of_commit {v r : StaffUser} (hL : e.Lawful conduct.shared) (hI : Album reqs base ⟨e.commit t, out⟩)
    (hwork : e.AtWork t Table.staffUsers (some (i, some v, r))) (hseen : Seen i target e)
    (hkey : target.photoKey = some key ∨ target.photoPendingKey = some key) (hshown : r.photoKey ≠ some key)
    (hpending : r.photoPendingKey ≠ some key) : ∃ m, m ≤ (e.commit t).log.length ∧ Gone base (e.commit t) m key := by
  obtain ⟨n, hn, hv⟩ := (lasts_seen i target).commit (t := t) hseen
  refine ⟨_, Nat.le_refl _, gone_of_row (hL.commit t) hI.recorded hI.sound hn hv hkey ?_ hshown hpending⟩
  rw [Engine.commit_committed]
  exact Engine.view_pending hwork.row

end Threads

/-! ## The verbs -/

theorem steadfast_true : Steadfast t fun _ => True := ⟨fun _ _ _ _ => trivial, fun _ _ _ _ _ _ => trivial⟩

abbrev Anyhow {β : Type} (_ : Except Err β) (_ : World schema outside) : Prop := True

section Verbs

variable {α β : Type} {Ψ : World schema outside → Prop} {target : StaffUser}

theorem closes_refused {a : Err} {k : α → Prg β} : Closes (photographing reqs base) t k Anyhow (.error a) w :=
  fun _ _ _ => trivial

theorem photo_session {body : Int → Prg α} {k : α → Prg β} (hΨ : Steadfast t Ψ)
    (hidle : w.db.pending t = fun _ _ => none) (h : Ψ w)
    (hbody : ∀ n w', w'.db.pending t = (fun _ _ => none) → Ψ w' →
      (photographing reqs base).Ensures t (body n) (Closes (photographing reqs base) t k Anyhow) w') :
    (photographing reqs base).Ensures t (tenantSession body >>= k) Anyhow w := by
  refine ensures_tenantSession photographing_historic fun w1 n hev _ _ => hbody n _ ?_ ?_
  · show w1.db.pending t = _
    rw [hev.db.pending, hidle]
  · exact hΨ.same w1 _ rfl rfl rfl (hΨ.evolves w w1 hev h)

theorem gone_of_cleared {v r : StaffUser} (hL : e.Lawful conduct.shared) (hI : Album reqs base ⟨e.commit t, out⟩)
    (hwork : e.AtWork t Table.staffUsers (some (i, some v, r))) (hseen : Seen i target e) (hshown : r.photoKey = none)
    (hpending : r.photoPendingKey = none) :
    ∀ key ∈ target.photoKey.toList ++ target.photoPendingKey.toList,
      ∃ m, m ≤ (e.commit t).log.length ∧ Gone base (e.commit t) m key := by
  intro key hkey
  refine gone_of_commit hL hI hwork hseen ?_ (by simp [hshown]) (by simp [hpending])
  simpa only [List.mem_append, Option.mem_toList, Option.mem_def] using hkey

theorem cleared_apply {v r : StaffUser} (hr : StaffUserChange.apply v .clearPhoto = some r) :
    r.photoKey = none ∧ r.photoPendingKey = none := by
  simp only [StaffUserChange.apply] at hr
  split at hr <;> cases hr
  exact ⟨rfl, rfl⟩

theorem deletePhoto_ensures (hreq : reqs t = .deletePhoto i actorId) (hidle : w.db.pending t = fun _ _ => none) :
    (photographing reqs base).Ensures t (deletePhoto i actorId) Anyhow w := by
  refine ask_bind steadfast_true rfl (fun _ _ _ => rfl) hidle trivial fun _ w1 hidle1 _ => ?_
  refine ensures_raiseIf (fun _ => trivial) fun _ => photo_session steadfast_true hidle1 trivial fun _ w2 hidle2 _ => ?_
  refine view_locked steadfast_true hidle2 trivial (fun _ _ _ _ _ _ => ?_) fun target w3 h3 _ _ _ => ?_
  · exact closes_refused
  refine ensures_first (view_update steadfast_true h3 trivial (fun _ _ => closes_refused) (fun _ _ _ _ _ => ?_)
    fun v r w4 hphoto _ hr h4 => ?_)
  · exact closes_refused
  have hΨ : Steadfast t fun w => True ∧ Seen i target w.db := steadfast_true.and (steadfast_lasts (lasts_seen i target))
  obtain ⟨hshown, hpending⟩ := cleared_apply hr
  refine ensures_first (hand_select hΨ h4 fun found w5 h5 => ?_)
  refine ensures_orRaise (fun _ => closes_refused) fun cleared _ => ?_
  refine hand_record hΨ h5 (fun _ _ => closes_refused) fun w6 h6 => ?_
  refine hand_closes hΨ h6 (fun w7 j v' r' hW _ _ => ?_) fun w7 h7 hL _ hI => ?_
  · cases hW
    exact ⟨(fun h => by cases h), fun _ _ => .inr hpending, fun _ _ => .deleted hreq hshown hpending⟩
  · exact erase_each steadfast_true _ _ Engine.commit_pending_self trivial
      (gone_of_cleared hL hI h7.work h7.knows.2 hshown hpending) fun _ _ _ => trivial

theorem view_guard {leaving : Bool} {row : StaffUser} {Q : Except Err β → World schema outside → Prop}
    {k : Unit → Prg β} (hΨ : Steadfast t Ψ) (h : Viewing t i target w.db) (hknows : Ψ w)
    (herr : ∀ e w', Q (.error e) w')
    (hk : ∀ w', Viewing t i target w'.db → Ψ w' → (photographing reqs base).Ensures t (k ()) Q w') :
    (photographing reqs base).Ensures t (guardLastOwner leaving row >>= k) Q w := by
  unfold guardLastOwner
  split
  · exact ensures_first (view_select hΨ h hknows fun owners w1 h1 hknows1 =>
      ensures_raiseIf (fun _ => herr _ _) fun _ => hk w1 h1 hknows1)
  · exact hk w h hknows

theorem left_apply {v r : StaffUser} {now lastDay : Int} (hr : StaffUserChange.apply v (.softDelete now lastDay) = some r) :
    r.photoKey = none ∧ r.photoPendingKey = none := by
  simp only [StaffUserChange.apply] at hr
  split at hr <;> cases hr
  exact ⟨rfl, rfl⟩

theorem deactivate_ensures {lastDay : Option Int} (hreq : reqs t = .deactivate i lastDay actor)
    (hidle : w.db.pending t = fun _ _ => none) :
    (photographing reqs base).Ensures t (deactivate cfg i lastDay actor) Anyhow w := by
  refine photo_session steadfast_true hidle trivial fun n w2 hidle2 _ => ?_
  refine view_locked steadfast_true hidle2 trivial (fun _ _ _ _ _ _ => ?_) fun target w3 h3 _ _ _ => ?_
  · exact closes_refused
  refine ensures_raiseIf (fun _ => closes_refused) fun _ => ?_
  refine view_guard steadfast_true h3 trivial (fun _ _ => closes_refused) fun w4 h4 _ => ?_
  refine view_now steadfast_true h4 trivial fun clock w5 h5 _ => ?_
  cases hday : resolveLastDay (cfg.zone.dateOf clock) lastDay target.startDate with
  | error e => exact closes_refused
  | ok leaving =>
    refine ensures_first (view_update steadfast_true h5 trivial (fun _ _ => closes_refused) (fun u _ hlive hnone _ => ?_)
      fun v r w6 _ _ hr h6 => ?_)
    · simp [StaffUserChange.apply, hlive] at hnone
    have hΨ : Steadfast t fun w => True ∧ Seen i target w.db := steadfast_true.and (steadfast_lasts (lasts_seen i target))
    obtain ⟨hshown, hpending⟩ := left_apply hr
    refine hand_record hΨ h6 (fun _ _ => closes_refused) fun w7 h7 => ?_
    refine hand_closes hΨ h7 (fun w8 j v' r' hW _ _ => ?_) fun w8 h8 hL _ hI => ?_
    · cases hW
      exact ⟨(fun h => by cases h), fun _ _ => .inr hpending, fun _ _ => .left hreq hshown hpending⟩
    · exact erase_each steadfast_true _ _ Engine.commit_pending_self trivial
        (gone_of_cleared hL hI h8.work h8.knows.2 hshown hpending) fun _ _ _ => trivial

theorem pending_apply {v r : StaffUser} {storageKey : Option PhotoKey} {contentType : Option String} {at_ : Option Int}
    (hr : StaffUserChange.apply v (.setPendingPhoto storageKey contentType at_) = some r) :
    r.photoKey = v.photoKey ∧ r.photoPendingKey = storageKey ∧ r.deletedAt = v.deletedAt ∧ v.live = true := by
  simp only [StaffUserChange.apply] at hr
  split at hr <;> cases hr
  rename_i hlive
  exact ⟨rfl, rfl, rfl, hlive⟩

variable {contentType : String} {n : Nat}

theorem unsign_ensures {byteSize : Int} {k : Bool → Prg β}
    (hreq : reqs t = .presignPhoto i contentType byteSize actorId) (hidle : w.db.pending t = fun _ _ => none)
    (hk : ∀ b w', (photographing reqs base).Ensures t (k b) Anyhow w') :
    (photographing reqs base).Ensures t ((tenantSession fun _ => StaffUsers.setPendingPhoto i none none none) >>= k)
      Anyhow w := by
  refine photo_session steadfast_true hidle trivial fun n w1 hidle1 _ => ?_
  refine ensures_updateFirst photographing_historic (Engine.atWork_none (by rw [hidle1])) (fun _ _ => closes_refused)
    (fun w2 hev _ _ _ => ?_) fun w2 v r hev _ hv hr hA hwork => ?_
  · have hidle2 : w2.db.pending t = fun _ _ => none := by rw [hev.db.pending, hidle1]
    exact hand_closes steadfast_true (hand_idle hidle2 trivial) (fun _ _ _ _ hW => by cases hW) fun _ _ _ _ _ => hk _ _
  · obtain ⟨hlive, hpending, hdeleted, hthere⟩ := pending_apply hr
    refine hand_closes (W := some (i, some v, r)) steadfast_true ⟨hwork, trivial⟩ (fun w3 j v' r' hW _ _ => ?_)
      fun _ _ _ _ _ => hk _ _
    cases hW
    exact ⟨(fun h => by cases h), (fun x hx => by cases hx; exact .inl hdeleted), fun x hx => by
      cases hx
      exact .unsigned hreq hlive hpending (hA _ _ _ hreq v hv hthere)⟩

theorem first_of_own {d : Commit schema} (hown : e.own t = []) (hd : e.log[m]? = some d) : d.by_ ≠ t := by
  intro hby
  have hmem : d ∈ e.own t := List.mem_filter.2 ⟨List.mem_of_getElem? hd, by simpa using hby⟩
  rw [hown] at hmem
  cases hmem

theorem built_key {photoId : Nat} {key : PhotoKey} (h : buildStaffPhotoKey i photoId contentType = .ok key) :
    key.staffUserId = i ∧ key.photoId = photoId := by
  unfold buildStaffPhotoKey at h
  split at h <;> cases h
  exact ⟨rfl, rfl⟩

theorem presigned_fresh {key : PhotoKey} (hI : Album reqs base w) (hL : w.db.Lawful conduct.shared)
    (hown : w.db.own t = []) (hdrawn : key.photoId = base + t) (hn : n ≤ w.db.log.length) {v : StaffUser}
    (hv : w.db.version n .staffUsers i = some v) : v.photoKey ≠ some key ∧ v.photoPendingKey ≠ some key := by
  have hnot : ¬Old base w.db n key := not_old hdrawn fun m d _ hd => first_of_own hown hd
  have hkeys := keys_sound hL hI.recorded hI.sound n hn i v key hv
  exact ⟨fun h => hnot (hkeys.1 (.inl h)).2, fun h => hnot (hkeys.1 (.inr h)).2⟩

theorem presignPhoto_ensures {byteSize : Int} (hreq : reqs t = .presignPhoto i contentType byteSize actorId)
    (hidle : w.db.pending t = fun _ _ => none) (hown : w.db.own t = []) :
    (photographing reqs base).Ensures t (presignPhoto i contentType byteSize actorId) Anyhow w := by
  refine ask_bind steadfast_own rfl (fun _ _ _ => rfl) hidle hown fun blocked w1 hidle1 hown1 => ?_
  refine ensures_raiseIf (fun _ => trivial) fun _ => ?_
  cases hvalid : validateStaffPhotoPresign contentType byteSize with
  | error e => trivial
  | ok u =>
  refine ask_bind steadfast_own rfl (fun _ _ _ => rfl) hidle1 hown1 fun configured w2 hidle2 hown2 => ?_
  refine ensures_raiseIf (fun _ => trivial) fun _ => ?_
  refine ensures_ask photographing_historic rfl fun w3 x n hev _ hI _ => ?_
  have hdrawn : (serve t .uuid4 x n w3.out).1 = base + t := by
    show w3.out.firstId + t = base + t
    rw [hI.first]
  have hidle3 : w3.db.pending t = fun _ _ => none := by rw [hev.db.pending, hidle2]
  have hown3 : w3.db.own t = [] := hev.db.since.own.trans hown2
  refine photo_session (w := ⟨w3.db, w3.out⟩) steadfast_own hidle3 hown3 fun _ w4 hidle4 hown4 => ?_
  refine view_locked steadfast_own hidle4 hown4 (fun _ _ _ _ _ _ => ?_) fun target w5 h5 hown5 _ _ => ?_
  · exact closes_refused
  cases hbuilt : buildStaffPhotoKey i (serve t .uuid4 x n w3.out).1 contentType with
  | error e => exact closes_refused
  | ok storageKey =>
  obtain ⟨hwhose, hid⟩ := built_key hbuilt
  rw [hdrawn] at hid
  refine view_now steadfast_own h5 hown5 fun at_ w6 h6 hown6 => ?_
  refine ensures_first (view_update steadfast_own h6 hown6 (fun _ _ => closes_refused) (fun u _ hlive hnone _ => ?_)
    fun v r w7 hphoto _ hr h7 => ?_)
  · simp [StaffUserChange.apply, hlive] at hnone
  have hΨ : Steadfast t fun w => w.db.own t = [] ∧ Seen i target w.db :=
    steadfast_own.and (steadfast_lasts (lasts_seen i target))
  obtain ⟨hlive, hpending, hdeleted, -⟩ := pending_apply hr
  refine hand_record hΨ h7 (fun _ _ => closes_refused) fun w8 h8 => ?_
  refine hand_closes hΨ h8 (fun w9 j v' r' hW hknows _ => ?_) fun w9 h9 hL hI hI' => ?_
  · cases hW
    refine ⟨(fun h => by cases h), (fun x hx => by cases hx; exact .inl hdeleted), fun x hx => ?_⟩
    cases hx
    exact .presigned hreq hlive hpending hwhose hid fun m d _ hd => first_of_own hknows.1 hd
  · refine ask_bind (steadfast_gone target.photoPendingKey.toList) rfl (fun _ _ _ => rfl) Engine.commit_pending_self
      (fun key hkey => ?_) fun _ w10 hidle10 hgone => erase_each steadfast_true _ _ hidle10 trivial hgone fun w' hidle' _ => ?_
    · have hwas : target.photoPendingKey = some key := by simpa using hkey
      obtain ⟨m, hm, hv⟩ := h9.knows.2
      refine gone_of_commit hL hI' h9.work h9.knows.2 (.inr hwas) ?_ ?_
      · rw [hlive, hphoto]
        exact (keys_sound hL hI.recorded hI.sound m hm i target key hv).2 hwas
      · rw [hpending, ← hwas]
        exact fun h => (presigned_fresh hI hL h9.knows.1 hid hm hv).2 h.symm
    · refine ask_bind steadfast_true rfl (fun y _ s => ?_) hidle' trivial fun signed w'' hidle'' _ => ?_
      · cases hf : y.failure <;> simp [serve, hf, ownLooks]
      cases signed with
      | ok u => trivial
      | error e => exact unsign_ensures hreq hidle'' fun _ _ => trivial

/-! ### The confirm -/

variable {actorId : Nat}

def Unpromoted (t : Tid) (i : Nat) (e : Engine schema) : Prop := ∀ d ∈ e.own t, ∀ key, ¬Promotes d i key

theorem steadfast_unpromoted : Steadfast t fun w => Unpromoted t i w.db := by
  refine ⟨fun w w' hev h d hd => h d ?_, fun w w' hl _ _ h d hd => h d ?_⟩
  · rwa [hev.db.since.own] at hd
  · rwa [Engine.own, hl] at hd

theorem unpromoted_commit (h : Unpromoted t i e) (hwork : e.AtWork t Table.staffUsers W)
    (hW : ∀ j v r, W = some (j, some v, r) → r.photoKey = v.photoKey) : Unpromoted t i (e.commit t) := by
  intro d hd key hpromotes
  rw [Engine.commit_own, List.mem_append, List.mem_singleton] at hd
  rcases hd with hd | rfl
  · exact h d hd key hpromotes
  · obtain ⟨v, r, hv, hr, -, hnot, hkey⟩ := hpromotes
    obtain ⟨v', hsome, hbefore⟩ := hwork.entry hr
    rw [hv] at hbefore
    subst hbefore
    rw [hW i v r hsome] at hkey
    exact hnot hkey

theorem steadfast_pended : Steadfast t fun w => Pended w.db w.db.log.length i key type := steadfast_lasts lasts_pended

theorem steadfast_spent : Steadfast t fun w => ∃ m, m ≤ w.db.log.length ∧ Spent base w.db m key :=
  steadfast_lasts lasts_spent

theorem own_looks (t : Tid) (out : Store) : ownLooks t out ⊆ out.looks := List.filter_subset_self _

theorem spent_of_pended (hL : e.Lawful conduct.shared) (hI : Album reqs base ⟨e, out⟩)
    (hpended : Pended e e.log.length i key type)
    (hnot : ∀ r : StaffUser, e.committed .staffUsers i = some r → r.live = true → r.photoPendingKey ≠ some key) :
    ∃ m, m ≤ e.log.length ∧ Spent base e m key := by
  obtain ⟨n, hn, v, hv, hlive, hkey, -⟩ := hpended
  refine ⟨_, Nat.le_refl _, spent_of_row hL hI.recorded hI.sound hn hv (.inr hkey) fun r hr hrkey => ?_⟩
  have hold := ((keys_sound hL hI.recorded hI.sound n hn i v key hv).1 (.inr hkey)).2
  have hthere : ∀ v' : StaffUser, e.version n .staffUsers i = some v' → v'.photoPendingKey = some key → v'.live = true := by
    intro v' hv' _
    rw [hv] at hv'
    cases hv'
    exact hlive
  exact hnot r hr (pending_live hL hI.recorded hn (Nat.le_refl _) hold hthere (by rwa [Engine.version_length]) hrkey) hrkey

theorem gone_of_spent (hL : e.Lawful conduct.shared) (hI : Album reqs base ⟨e, out⟩)
    (hpended : Pended e e.log.length i key type) (hspent : ∃ m, m ≤ e.log.length ∧ Spent base e m key)
    (hnone : ∀ d ∈ e.log, ¬Promotes d i key) : ∃ m, m ≤ e.log.length ∧ Gone base e m key := by
  obtain ⟨m, hm, hspent⟩ := hspent
  obtain ⟨n, hn, v, hv, -, hkey, -⟩ := hpended
  have hkeys := keys_sound hL hI.recorded hI.sound n hn i v key hv
  refine ⟨_, Nat.le_refl _, spent_later hL hI.recorded hspent hm (Nat.le_refl _), fun j x hx hxkey => ?_⟩
  have hji : j = i :=
    ((keys_sound hL hI.recorded hI.sound _ (Nat.le_refl _) j x key hx).1 (.inl hxkey)).1.symm.trans (hkeys.1 (.inr hkey)).1
  subst hji
  obtain ⟨k, d, -, hd, hpromotes⟩ := promoted_since hL hI.recorded hn (Nat.le_refl _) (fun v' hv' => by
    rw [hv] at hv'
    cases hv'
    exact hkeys.2 hkey) hx hxkey
  exact hnone d (List.mem_of_getElem? hd) hpromotes

theorem rejectPhoto_ensures {k : α → Prg β} (hreq : reqs t = .confirmPhoto i actorId)
    (hidle : w.db.pending t = fun _ _ => none) (hpended : Pended w.db w.db.log.length i key type)
    (hun : Unpromoted t i w.db) (hfailed : Failed (ownLooks t w.out) t key type) :
    (photographing reqs base).Ensures t (rejectPhoto i key >>= k) Anyhow w := by
  have hΨ : Steadfast t fun w => (Pended w.db w.db.log.length i key type ∧ Unpromoted t i w.db) ∧
      Failed (ownLooks t w.out) t key type := (steadfast_pended.and steadfast_unpromoted).and
    (steadfast_looks (Φ := fun looks => Failed looks t key type))
  have hrest : ∀ w', w'.db.pending t = (fun _ _ => none) → Pended w'.db w'.db.log.length i key type → Unpromoted t i w'.db →
      (∃ m, m ≤ w'.db.log.length ∧ Spent base w'.db m key) → (photographing reqs base).Ensures t
        (deleteEach [key] >>= fun _ => (.raise (.mediaMismatch "the uploaded file is not a valid image") : Prg α) >>= k)
        Anyhow w' := by
    intro w' hidle' hpended' hun' hspent'
    refine ensures_first (erase_bind ((steadfast_pended.and steadfast_unpromoted).and steadfast_spent) hidle'
      ⟨⟨hpended', hun'⟩, hspent'⟩ (fun w1 r w2 hev hL hI hA => ?_) fun _ _ _ _ => trivial)
    have hΨ1 := ((steadfast_pended.and steadfast_unpromoted).and steadfast_spent).evolves w' w1 hev ⟨⟨hpended', hun'⟩, hspent'⟩
    rcases hA i actorId hreq with ⟨d, hd, hby, other, hpromotes⟩ | hnone
    · exact absurd hpromotes (hΨ1.1.2 d (List.mem_filter.2 ⟨hd, by simpa using hby⟩) other)
    · exact gone_of_spent hL hI hΨ1.1.1 hΨ1.2 hnone
  refine ensures_first (photo_session hΨ hidle ⟨⟨hpended, hun⟩, hfailed⟩ fun _ w1 hidle1 h1 => ?_)
  have hnothing : ∀ w' : World schema outside, w'.db.pending t = (fun _ _ => none) →
      (Pended w'.db w'.db.log.length i key type ∧ Unpromoted t i w'.db) ∧
        (∃ m, m ≤ w'.db.log.length ∧ Spent base w'.db m key) →
      (photographing reqs base).Ensures t (pure () : Prg Unit) (Closes (photographing reqs base) t
        (fun _ => (do deleteEach [key]; .raise (.mediaMismatch "the uploaded file is not a valid image") : Prg α) >>= k) Anyhow)
        w' := by
    intro w' hidle' h'
    refine hand_closes ((steadfast_pended.and steadfast_unpromoted).and steadfast_spent) (hand_idle hidle' h')
      (fun _ _ _ _ hW => by cases hW) fun w2 h2 _ _ _ => ensures_first (hrest _ Engine.commit_pending_self ?_ ?_ ?_)
    · exact lasts_pended.commit h2.knows.1.1
    · exact unpromoted_commit h2.knows.1.2 h2.work fun _ _ _ hW => by cases hW
    · exact lasts_spent.commit h2.knows.2
  refine view_locked hΨ hidle1 h1 (fun w2 hidle2 h2 hL hI hgone => ?_) fun target w2 h2 hknows hL hI => ?_
  · refine hnothing w2 hidle2 ⟨h2.1, spent_of_pended hL hI h2.1.1 fun r hr hlive => ?_⟩
    rw [hgone r hr] at hlive
    cases hlive
  by_cases hsame : target.photoPendingKey = some key
  · rw [if_pos (by simpa using hsame)]
    refine ensures_first (view_update hΨ h2 hknows (fun _ _ => closes_refused) (fun u _ hlive hnone _ => ?_)
      fun v r w3 hphoto hwas hr h3 => ?_)
    · simp [StaffUserChange.apply, hlive] at hnone
    have hΨ' := hΨ.and (steadfast_lasts (lasts_seen i target))
    obtain ⟨hkept, hpending, hdeleted, -⟩ := pending_apply hr
    refine hand_closes hΨ' h3 (fun w4 j v' r' hW hknows4 _ => ?_) fun w4 h4 hL hI hI' => ensures_first
      (hrest _ Engine.commit_pending_self ?_ ?_ ?_)
    · cases hW
      refine ⟨(fun h => by cases h), (fun x hx => by cases hx; exact .inl hdeleted), fun x hx => ?_⟩
      cases hx
      exact .rejected hreq (by rw [← hsame]; exact hwas.symm) hkept hpending (hknows4.1.2.mono (own_looks t w4.out)) hknows4.1.1.1
    · exact lasts_pended.commit h4.knows.1.1.1
    · refine unpromoted_commit h4.knows.1.1.2 h4.work fun _ _ _ hW => ?_
      cases hW
      exact hkept
    · refine spent_of_pended (hL.commit t) hI' (lasts_pended.commit h4.knows.1.1.1) fun x hx _ => ?_
      rw [Engine.commit_committed, Engine.view_pending h4.work.row] at hx
      cases hx
      simp [hpending]
  · rw [if_neg (by simpa using hsame)]
    refine hnothing w2 h2.idle ⟨hknows.1, spent_of_pended hL hI hknows.1.1 fun r hr _ hkey => ?_⟩
    obtain ⟨u, hu, -, -, hpending⟩ := h2.row
    rw [hr] at hu
    cases hu
    rcases hpending with hnone | heq
    · rw [hnone] at hkey
      cases hkey
    · exact hsame (heq ▸ hkey)

theorem serve_head {x : Input} {s : Store} {head : ObjectHead}
    (h : (serve t (.headObject key) x n s).1 = .ok (some head)) :
    .head t key head.contentType ∈ ownLooks t (serve t (.headObject key) x n s).2 := by
  cases hf : x.failure with
  | some e => simp [serve, hf] at h
  | none =>
    cases ho : s.objects key with
    | none => simp [serve, hf, ho] at h
    | some o =>
      simp only [serve, hf, ho] at h
      cases h
      simp [serve, hf, ho, ownLooks, Look.by_]

theorem serve_prefix {x : Input} {length : Nat} {s : Store} {start : List UInt8}
    (h : (serve t (.readPrefix key length) x n s).1 = .ok start) :
    .body t key start ∈ ownLooks t (serve t (.readPrefix key length) x n s).2 ∧
      ownLooks t s ⊆ ownLooks t (serve t (.readPrefix key length) x n s).2 := by
  cases hf : x.failure with
  | some e => simp [serve, hf] at h
  | none =>
    cases ho : s.objects key with
    | none => simp [serve, hf, ho] at h
    | some o =>
      simp only [serve, hf, ho] at h
      cases h
      simp [serve, hf, ho, ownLooks, Look.by_]

theorem checkUpload_ensures {k : Unit → Prg β} (hreq : reqs t = .confirmPhoto i actorId)
    (hidle : w.db.pending t = fun _ _ => none) (hpended : Pended w.db w.db.log.length i key type)
    (hun : Unpromoted t i w.db)
    (hk : ∀ w', w'.db.pending t = (fun _ _ => none) → Pended w'.db w'.db.log.length i key type →
      Passed (ownLooks t w'.out) t key type → (photographing reqs base).Ensures t (k ()) Anyhow w') :
    (photographing reqs base).Ensures t (checkUpload i key type >>= k) Anyhow w := by
  have hΨ : Steadfast t fun w => Pended w.db w.db.log.length i key type ∧ Unpromoted t i w.db :=
    steadfast_pended.and steadfast_unpromoted
  refine ensures_first (ensures_ask photographing_historic rfl fun w1 x n hev _ _ _ => ?_)
  have h1 := hΨ.evolves w w1 hev ⟨hpended, hun⟩
  have hidle1 : w1.db.pending t = fun _ _ => none := by rw [hev.db.pending, hidle]
  cases hhead : (serve t (.headObject key) x n w1.out).1 with
  | error e => trivial
  | ok found =>
  cases found with
  | none => trivial
  | some head =>
  have hlook := serve_head hhead
  by_cases htype : head.contentType = type
  · subst htype
    show (photographing reqs base).Ensures t ((if head.contentType ≠ head.contentType then rejectPhoto i key else _) >>= k)
      _ _
    rw [if_neg (fun h => h rfl)]
    refine ensures_first (ensures_ask photographing_historic rfl fun w2 x2 n2 hev2 _ _ _ => ?_)
    have hseen : Steadfast t fun w => (Pended w.db w.db.log.length i key head.contentType ∧ Unpromoted t i w.db) ∧
        .head t key head.contentType ∈ ownLooks t w.out :=
      hΨ.and (steadfast_looks (Φ := fun looks => .head t key head.contentType ∈ looks))
    have h2 := hseen.evolves _ w2 hev2 ⟨h1, hlook⟩
    have hidle2 : w2.db.pending t = fun _ _ => none := by
      rw [hev2.db.pending]
      exact hidle1
    cases hbody : (serve t (.readPrefix key MAGIC_PREFIX_LENGTH) x2 n2 w2.out).1 with
    | error e => trivial
    | ok start =>
    obtain ⟨hlook2, hmore⟩ := serve_prefix hbody
    by_cases hmagic : matchesMagicPrefix head.contentType start = true
    · show (photographing reqs base).Ensures t
        ((if !matchesMagicPrefix head.contentType start then rejectPhoto i key else return ()) >>= k) _ _
      rw [if_neg (by simp [hmagic])]
      exact hk ⟨w2.db, _⟩ hidle2 h2.1.1 ⟨hmore h2.2, start, hlook2, hmagic⟩
    · show (photographing reqs base).Ensures t
        ((if !matchesMagicPrefix head.contentType start then rejectPhoto i key else return ()) >>= k) _ _
      rw [if_pos (by simp [hmagic])]
      exact rejectPhoto_ensures (w := ⟨w2.db, _⟩) hreq hidle2 h2.1.1 h2.1.2 (.inr ⟨start, hlook2, by simpa using hmagic⟩)
  · show (photographing reqs base).Ensures t ((if head.contentType ≠ type then rejectPhoto i key else _) >>= k) _ _
    rw [if_pos htype]
    exact rejectPhoto_ensures hreq hidle1 h1.1 h1.2 (.inl ⟨_, hlook, htype⟩)

theorem promoted_apply {v r : StaffUser} {at_ : Int} (hr : StaffUserChange.apply v (.promotePendingPhoto at_) = some r) :
    r.photoKey = v.photoPendingKey ∧ r.photoPendingKey = none ∧ r.deletedAt = v.deletedAt ∧ v.photoPendingKey ≠ none := by
  simp only [StaffUserChange.apply] at hr
  split at hr <;> cases hr
  rename_i hlive
  exact ⟨rfl, rfl, rfl, hlive.2⟩

theorem promote_ensures (hreq : reqs t = .confirmPhoto i actorId) (hidle : w.db.pending t = fun _ _ => none)
    (hpended : Pended w.db w.db.log.length i key type) (hpassed : Passed (ownLooks t w.out) t key type)
    {k : StaffUser → Prg β} (hk : ∀ row w', (photographing reqs base).Ensures t (k row) Anyhow w') :
    (photographing reqs base).Ensures t (do
      let moved ← tenantSession fun _ => promoteIn i actorId key
      deleteEach (moved.2.filter fun k => k ≠ key).toList
      k moved.1) Anyhow w := by
  have hΨ : Steadfast t fun w => Pended w.db w.db.log.length i key type ∧ Passed (ownLooks t w.out) t key type :=
    steadfast_pended.and (steadfast_looks (Φ := fun looks => Passed looks t key type))
  refine photo_session hΨ hidle ⟨hpended, hpassed⟩ fun _ w1 hidle1 h1 => ?_
  refine view_locked hΨ hidle1 h1 (fun _ _ _ _ _ _ => ?_) fun target w2 h2 hknows _ _ => ?_
  · exact closes_refused
  by_cases hsame : target.photoPendingKey = some key
  · show (photographing reqs base).Ensures t (if target.photoPendingKey ≠ some key then _ else _) _ _
    rw [if_neg (fun h => h hsame)]
    refine view_now hΨ h2 hknows fun at_ w3 h3 hknows3 => ?_
    refine ensures_first (view_update hΨ h3 hknows3 (fun _ _ => closes_refused) (fun u w4 _ _ h4 => ?_)
      fun v r w4 hphoto hwas hr h4 => ?_)
    · exact hand_closes hΨ h4 (fun _ _ _ _ hW => by cases hW) fun _ _ _ _ _ => hk _ _
    have hΨ' := hΨ.and (steadfast_lasts (lasts_seen i target))
    obtain ⟨hshown, hpending, hdeleted, hsome⟩ := promoted_apply hr
    have hkey : v.photoPendingKey = some key := by
      rcases hwas with hnone | heq
      · exact absurd hnone hsome
      · rw [heq, hsame]
    have hfits : ∀ (w1 : World schema outside) j x r', (some (i, some v, r) : Work StaffUser) = some (j, x, r') →
        ((Pended w1.db w1.db.log.length i key type ∧ Passed (ownLooks t w1.out) t key type) ∧ Seen i target w1.db) →
        Album reqs base w1 → Fits reqs base w1.out.looks w1.db w1.db.log.length t j x r' := by
      intro w1 j x r' hW hknows _
      cases hW
      refine ⟨(fun h => by cases h), (fun x hx => by cases hx; exact .inl hdeleted), fun x hx => ?_⟩
      cases hx
      exact .promoted hreq hkey (hshown.trans hkey) hpending (hknows.1.2.mono (own_looks t w1.out)) hknows.1.1
    refine hand_select hΨ' h4 fun found w5 h5 => ?_
    cases found with
    | none => exact hand_closes hΨ' h5 hfits fun _ _ _ _ _ => hk _ _
    | some row =>
      refine hand_record hΨ' h5 (fun _ _ => closes_refused) fun w6 h6 => ?_
      refine hand_closes hΨ' h6 hfits fun w7 h7 hL _ hI' => erase_each steadfast_true _ _ Engine.commit_pending_self
        trivial (fun old hold => ?_) fun w8 _ _ => hk _ w8
      obtain ⟨hlive, hne⟩ := Option.filter_eq_some_iff.1 (Option.mem_toList.1 hold)
      refine gone_of_commit hL hI' h7.work h7.knows.2 (.inl hlive) ?_ (by simp [hpending])
      rw [hshown, hkey]
      exact fun h => (of_decide_eq_true hne) (Option.some.inj h).symm
  · show (photographing reqs base).Ensures t (if target.photoPendingKey ≠ some key then _ else _) _ _
    rw [if_pos hsame]
    exact hand_closes hΨ (hand_idle h2.idle hknows) (fun _ _ _ _ hW => by cases hW) fun _ _ _ _ _ => hk _ _

theorem confirmPhoto_ensures (hreq : reqs t = .confirmPhoto i actorId) (hidle : w.db.pending t = fun _ _ => none)
    (hown : w.db.own t = []) :
    (photographing reqs base).Ensures t (confirmPhoto i actorId) Anyhow w := by
  refine ask_bind steadfast_own rfl (fun _ _ _ => rfl) hidle hown fun configured w1 hidle1 hown1 => ?_
  refine ensures_raiseIf (fun _ => trivial) fun _ => photo_session steadfast_own hidle1 hown1 fun _ w2 hidle2 hown2 => ?_
  refine ensures_select photographing_historic fun w3 hev hL hI _ _ => ?_
  have hidle3 : w3.db.pending t = fun _ _ => none := by rw [hev.db.pending, hidle2]
  have hun : Unpromoted t i (w3.db.look t) := by
    intro d hd
    rw [show (w3.db.look t).own t = w2.db.own t from hev.db.since.own, hown2] at hd
    cases hd
  refine ensures_last (ensures_orRaise (fun _ => closes_refused) fun target htarget => ?_)
  obtain ⟨hread, hlive⟩ := Option.filter_eq_some_iff.1 htarget
  change w3.db.view t .staffUsers i = some target at hread
  rw [Engine.view_idle hidle3, ← Engine.version_length] at hread
  have hseen : Seen i target (w3.db.look t) := ⟨_, Nat.le_refl _, hread⟩
  have hΨ : Steadfast t fun w => Unpromoted t i w.db ∧ Seen i target w.db :=
    steadfast_unpromoted.and (steadfast_lasts (lasts_seen i target))
  refine hand_closes hΨ (hand_idle hidle3 ⟨hun, hseen⟩) (fun _ _ _ _ hW => by cases hW) fun w4 h4 _ _ _ => ?_
  have hun4 := unpromoted_commit h4.knows.1 h4.work fun _ _ _ hW => by cases hW
  obtain ⟨n, hn, hv⟩ := (lasts_seen i target).commit (t := t) h4.knows.2
  cases hkey : target.photoPendingKey with
  | none => trivial
  | some key =>
    cases htype : target.photoPendingContentType with
    | none => trivial
    | some type =>
      have hpended : Pended (w4.db.commit t) (w4.db.commit t).log.length i key type := ⟨n, hn, target, hv, hlive, hkey, htype⟩
      refine checkUpload_ensures (w := ⟨w4.db.commit t, w4.out⟩) hreq Engine.commit_pending_self hpended hun4
        fun w5 hidle5 hpended5 hpassed5 => ?_
      have hpromote : (photographing reqs base).Ensures t _ Anyhow w5 := promote_ensures hreq hidle5 hpended5 hpassed5
        (k := fun row => (pure (Response.staff row) : Prg Response)) fun _ _ => trivial
      exact hpromote

/-! ### The rest -/

def SamePhoto (v r : StaffUser) : Prop :=
  r.photoKey = v.photoKey ∧ r.photoPendingKey = v.photoPendingKey ∧ r.deletedAt = v.deletedAt

def unposed : List Kind := [.hire, .edit, .breaks, .revoke, .raise, .accept, .close, .note, .breakNote, .acceptNote, .resolveNote]

theorem changing_unposed : Changing unposed SamePhoto := by
  refine ⟨fun g v r k hk hmem hr => ?_, fun a b c hab hbc =>
    ⟨hbc.1.trans hab.1, hbc.2.1.trans hab.2.1, hbc.2.2.trans hab.2.2⟩⟩
  cases g with
  | setPendingPhoto storageKey contentType at_ =>
    cases storageKey <;> cases contentType <;> cases at_ <;> cases hk <;> simp [unposed] at hmem
  | promotePendingPhoto | clearPhoto | softDelete =>
    cases hk
    simp [unposed] at hmem
  | flush moves =>
    cases hr
    exact ⟨rfl, rfl, rfl⟩
  | startBreak | endBreak | resetPassword =>
    simp only [StaffUserChange.apply] at hr
    split at hr <;> cases hr
    exact ⟨rfl, rfl, rfl⟩

theorem Trace.fits {I : Nat → Prop} {looks : List Look} {d : Commit schema} {r : StaffUser}
    (h : Trace ks I SamePhoto d) (hr : d.writes .staffUsers i = some r) :
    Fits reqs base looks e m t i (d.before .staffUsers i) r := by
  rcases h.staff i r hr with ⟨-, v, hv, hsame⟩ | ⟨-, hnone, q, hplain, hq⟩
  · rw [hv]
    refine ⟨(fun h => by cases h), (fun x hx => by cases hx; exact .inl hsame.2.2), fun x hx => ?_⟩
    cases hx
    exact .kept hsame.1 hsame.2.1
  · rw [hnone]
    refine ⟨fun _ => ?_, (fun x hx => by cases hx), fun x hx => by cases hx⟩
    rcases hq with rfl | hsame
    · exact hplain
    · simpa [StaffUser.unpictured, hsame.1, hsame.2.1] using hplain

theorem unposed_ensures {p : Prg β} (hp : Within (Among (.session :: unposed)) false p)
    (hidle : w.db.pending t = fun _ _ => none) : (photographing reqs base).Ensures t p Anyhow w := by
  refine ensures_mono (fun _ _ _ => trivial) (ensures_of_uses
    (fun _ w => Trace unposed (fun _ => True) SamePhoto (w.db.entry t)) (fun _ _ _ hev h => h.evolves hev.db)
    (fun l o w x r w' ho hL hI h he hL' hA => ?_) hp (trace_idle hidle))
  by_cases hcommit : o = .sql .commit
  · subst hcommit
    cases he
    exact ⟨album_commit hI fun j r hr => h.fits hr, trace_idle Engine.commit_pending_self⟩
  have hasks : ∀ q, o = .ask q → harmless q = true := by
    rintro q rfl
    cases q with
    | deleteObject key => exact absurd (ho .erase rfl).1 (by decide)
    | hashPassword | verifyPassword | generateToken | isBlocked | recordFailure | isConfigured | uuid4 | presignedPost | postObject
      | headObject | readPrefix | assignmentOf => rfl
  refine ⟨photographing_historic.exec hcommit hasks he hI, ?_⟩
  by_cases habort : o = .sql .abort
  · subst habort
    cases he
    exact trace_idle Engine.release_pending_self
  by_cases hbegin : o = .sql .begin
  · subst hbegin
    cases he
    exact h.mono (fun _ hk => hk) fun _ _ hP => hP
  exact h.step changing_unposed (by decide) (by decide) hL (ho.tail hbegin hcommit habort) (fun _ _ _ => trivial) he

theorem request_photographed (cfg : Config) (hidle : w.db.pending t = fun _ _ => none) (hown : w.db.own t = []) :
    (photographing reqs base).Ensures t ((reqs t).code cfg) Anyhow w := by
  have haside : (∀ k ∈ (reqs t).kinds, k ∈ Kind.session :: unposed) →
      (photographing reqs base).Ensures t ((reqs t).code cfg) Anyhow w := fun hkinds =>
    unposed_ensures ((within_request cfg (reqs t)).mono fun _ _ ho => ho.mono hkinds) hidle
  cases hreq : reqs t with
  | presignPhoto staffId contentType byteSize actorId => exact presignPhoto_ensures hreq hidle hown
  | confirmPhoto staffId actorId => exact confirmPhoto_ensures hreq hidle hown
  | deletePhoto staffId actorId => exact deletePhoto_ensures hreq hidle
  | deactivate staffId lastDay actor => exact deactivate_ensures hreq hidle
  | create | update | postPhoto | startBreak | endBreak | raiseSos | acceptSos | resolveSos | cancelSos =>
    rw [hreq] at haside
    exact haside (by simp [Request.kinds, unposed])

end Verbs

/-! ## Whole runs -/

section Runs

variable {out : Store} {rows : Rows schema} {next : Nat} {clock : Int} {c : Conf (machine schema outside Err) Response}

/-- **Why a pending key is not pending any more.** -/
inductive Cleared (reqs : Tid → Request) (base : Nat) (looks : List Look) (t : Tid) (i : Nat) (key : PhotoKey)
    (r : StaffUser) : Prop
  | confirmed {actorId : Nat} (request : reqs t = .confirmPhoto i actorId) (live : r.photoKey = some key)
  | rejected {type : String} {actorId : Nat} (request : reqs t = .confirmPhoto i actorId) (failed : Failed looks t key type)
  | unsigned {contentType : String} {byteSize : Int} {actorId : Nat}
      (request : reqs t = .presignPhoto i contentType byteSize actorId) (own : key.photoId = base + t)
  | superseded {contentType : String} {byteSize : Int} {actorId : Nat} {newer : PhotoKey}
      (request : reqs t = .presignPhoto i contentType byteSize actorId) (pending : r.photoPendingKey = some newer)
      (drawn : newer.photoId = base + t)
  | deleted {actorId : Nat} (request : reqs t = .deletePhoto i actorId)
  | left {lastDay : Option Int} {actor : StaffContext} (request : reqs t = .deactivate i lastDay actor)

theorem PhotoDeed.cleared {looks : List Look} {v r : StaffUser} (h : PhotoDeed reqs base looks e m t i v r)
    (hwas : v.photoPendingKey = some key) (hnot : r.photoPendingKey ≠ some key) :
    Cleared reqs base looks t i key r := by
  cases h with
  | kept live pending => exact absurd (pending.trans hwas) hnot
  | presigned request live pending whose drawn first => exact .superseded request pending drawn
  | unsigned request live pending own => exact .unsigned request (own key hwas)
  | promoted request was live pending passed pended =>
    rw [was] at hwas
    cases hwas
    exact .confirmed request live
  | rejected request was live pending failed pended =>
    rcases was with was | was <;> rw [was] at hwas <;> cases hwas
    exact .rejected request failed
  | deleted request live pending => exact .deleted request
  | left request live pending => exact .left request

theorem photographing_runs (h : Shelved rows next) (hsound : Sound out.firstId rows)
    (hdeleted : ∀ key ∈ out.deleted, key.photoId < out.firstId ∧ ∀ i (v : StaffUser), rows .staffUsers i = some v →
      v.photoKey ≠ some key ∧ v.photoPendingKey ≠ some key)
    (hr : Conf.Steps (Considerate reqs out.firstId) (serving cfg reqs out rows next clock) c) :
    Album reqs out.firstId c.state ∧ c.state.db.Lawful conduct.shared := by
  have hstart : (serving cfg reqs out rows next clock).state.db.version 0 = rows := by
    simp [Engine.version, serving, staged, atRest]
  have hI : Album reqs out.firstId (serving cfg reqs out rows next clock).state := by
    refine ⟨rfl, by rw [hstart]; exact hsound, (fun m d hd => ?_), fun key hkey => ⟨0, Nat.le_refl 0, ⟨.inl ?_, ?_⟩, ?_⟩⟩
    · simp [serving, staged, atRest] at hd
    · exact (hdeleted key hkey).1
    · rw [hstart]
      exact fun i v hv => ((hdeleted key hkey).2 i v hv).2
    · rw [hstart]
      exact fun i v hv => ((hdeleted key hkey).2 i v hv).1
  have hsafe : ∀ t p, (serving cfg reqs out rows next clock).threads t = some p →
      (photographing reqs out.firstId).logic.Safe t p Anyhow (serving cfg reqs out rows next clock).state := by
    intro t p hp
    cases hp
    exact safe_of_ensures (request_photographed cfg rfl rfl) fun _ _ _ _ _ _ _ => trivial
  obtain ⟨hsound', hL⟩ := (photographing reqs out.firstId).runs (serving_obeyed h) hI hsafe hr
  exact ⟨hsound'.inv.2, hL⟩

/-- **The two phases of an upload**: in every run in which no upload is judged twice and none is cleared by another's failed
signing, what is shown was shown from the start or was promoted by a confirm that has seen it pass; nothing that is shown has
been deleted; and a pending key is cleared by its own confirm, its own rejection or failed signing, a delete, or a newer
presign. -/
theorem uploads_safe (h : Shelved rows next) (hsound : Sound out.firstId rows)
    (hdeleted : ∀ key ∈ out.deleted, key.photoId < out.firstId ∧ ∀ i (v : StaffUser), rows .staffUsers i = some v →
      v.photoKey ≠ some key ∧ v.photoPendingKey ≠ some key)
    (hr : Conf.Steps (Considerate reqs out.firstId) (serving cfg reqs out rows next clock) c) :
    (∀ i (v : StaffUser) key, c.state.db.committed .staffUsers i = some v → v.photoKey = some key →
      (∃ u : StaffUser, rows .staffUsers i = some u ∧ u.photoKey = some key) ∨
        ∃ m d type actorId, c.state.db.log[m]? = some d ∧ Promotes d i key ∧ reqs d.by_ = .confirmPhoto i actorId ∧
          Passed c.state.out.looks d.by_ key type ∧ Pended c.state.db m i key type) ∧
    (∀ i (v : StaffUser) key, c.state.db.committed .staffUsers i = some v → v.photoKey = some key →
      key ∉ c.state.out.deleted) ∧
    ∀ d ∈ c.state.db.log, ∀ i (v r : StaffUser) key, d.before .staffUsers i = some v → d.writes .staffUsers i = some r →
      v.photoPendingKey = some key → r.photoPendingKey ≠ some key →
      Cleared reqs out.firstId c.state.out.looks d.by_ i key r := by
  obtain ⟨hI, hL⟩ := photographing_runs h hsound hdeleted hr
  have hstart : c.state.db.version 0 = rows := ((serving_obeyed h).history hr).2 0 (Nat.le_refl 0)
  refine ⟨fun i v key hv hkey => ?_, fun i v key hv hkey hmem => ?_, fun d hd i v r key hv hr hwas hnot => ?_⟩
  · by_cases hfirst : ∃ u : StaffUser, rows .staffUsers i = some u ∧ u.photoKey = some key
    · exact .inl hfirst
    refine .inr ?_
    rw [← Engine.version_length] at hv
    obtain ⟨m, d, -, hd, hpromotes⟩ := promoted_since hL hI.recorded (Nat.zero_le _) (Nat.le_refl _)
      (fun u hu hukey => hfirst ⟨u, by rw [← hstart]; exact hu, hukey⟩) hv hkey
    obtain ⟨u, r, hu, hr, hpending, hnot, hshown⟩ := hpromotes
    have hdeed := (hI.recorded m d hd i r hr).deed u hu
    cases hdeed with
    | promoted request was live pending passed pended =>
      rw [live] at hshown
      cases hshown
      exact ⟨m, d, _, _, hd, ⟨u, r, hu, hr, hpending, hnot, live⟩, request, passed, pended⟩
    | kept live | presigned _ live | unsigned _ live | rejected _ _ live => exact absurd (live ▸ hshown) hnot
    | deleted _ live | left _ live =>
      rw [live] at hshown
      cases hshown
  · obtain ⟨m, hm, hgone⟩ := hI.gone key hmem
    rw [← Engine.version_length] at hv
    exact (gone_later hL hI.recorded hgone hm (Nat.le_refl _)).2 i v hv hkey
  · obtain ⟨m, hm⟩ := List.mem_iff_getElem?.1 hd
    exact ((hI.recorded m d hm i r hr).deed v hv).cleared hwas hnot

end Runs

/-! ## One key, judged twice -/

theorem twoOwners_sound : Sound 1 (listed (S := schema) twoOwners) := by
  have hrow : ∀ i (v : StaffUser), listed (S := schema) twoOwners .staffUsers i = some v → v.photoKey = none ∧
      ∀ key, v.photoPendingKey = some key → i = 1 ∧ key = ⟨1, 0, ".png"⟩ := by
    intro i v hv
    have hmem : v ∈ twoOwners .staffUsers := List.mem_of_find?_eq_some hv
    have hid : StaffUser.id v = i := of_decide_eq_true (List.find?_some (p := fun r => decide (schema.id .staffUsers r = i)) hv)
    simp only [twoOwners, List.mem_cons, List.not_mem_nil, or_false] at hmem
    rcases hmem with rfl | rfl
    · exact ⟨rfl, fun key hkey => by cases hkey⟩
    · refine ⟨rfl, fun key hkey => ?_⟩
      cases hkey
      exact ⟨hid.symm, rfl⟩
  refine ⟨fun i v key hv hkey => ?_, fun i v key hv _ hshown => ?_⟩
  · rcases hkey with hkey | hkey
    · rw [(hrow i v hv).1] at hkey
      cases hkey
    · obtain ⟨rfl, rfl⟩ := (hrow i v hv).2 key hkey
      exact ⟨rfl, Nat.zero_lt_one⟩
  · rw [(hrow i v hv).1] at hshown
    cases hshown

def imageBody : List UInt8 := [0x89, 0x50, 0x4e, 0x47, 0x0d, 0x0a, 0x1a, 0x0a] ++ List.replicate 1016 0

def oneUpload : Store where
  objects key := if key = ⟨1, 0, ".png"⟩ then some ⟨"image/png", imageBody⟩ else none
  forms := [⟨⟨1, 0, ".png"⟩, "image/png", 1024⟩]
  deleted := []
  looks := []
  firstId := 1

def judgedTwice : Tid → Request
  | 2 => .postPhoto ⟨1, 0, ".png"⟩ "image/png" (List.replicate 1024 0)
  | _ => .confirmPhoto 1 0

def shownAndDeleted (c : Conf (machine schema outside Err) Response) : Option (Option PhotoKey) × List PhotoKey :=
  ((c.state.db.committed .staffUsers 1).map StaffUser.photoKey, c.state.out.deleted)

def unsignable (t : Tid) : List (Action (machine schema outside Err)) := [.call t ⟨true, "", some .storageUnavailable⟩]

def unblocked (t : Tid) : List (Action (machine schema outside Err)) := [.call t ⟨false, "", none⟩]

/-- **A photo that is shown is deleted** by the confirm that sees the other upload under its key; and a presign that cannot be
signed clears the key of a newer one. -/
theorem uploads_collide :
    (∃ c, (serving plainConfig judgedTwice oneUpload (listed (S := schema) twoOwners) 2 0).Reaches c ∧
      ∃ v : StaffUser, c.state.db.committed .staffUsers 1 = some v ∧ v.photoKey = some ⟨1, 0, ".png"⟩ ∧
        ⟨1, 0, ".png"⟩ ∈ c.state.out.deleted) ∧
    ∃ c, (serving plainConfig (fun _ => .presignPhoto 1 "image/png" 1024 0) oneUpload (listed (S := schema) twoOwners) 2 0).Reaches c ∧
      ∃ d ∈ c.state.db.log, d.by_ = 0 ∧ ∃ v r : StaffUser, d.before .staffUsers 1 = some v ∧ d.writes .staffUsers 1 = some r ∧
        v.photoPendingKey = some ⟨1, 2, ".png"⟩ ∧ r.photoPendingKey = none := by
  constructor
  · obtain ⟨c, hc, hP⟩ := Conf.reached_freely (serving plainConfig judgedTwice oneUpload (listed (S := schema) twoOwners) 2 0)
      (answered 0 6 ++ answered 2 1 ++ answered 1 6 ++ answered 0 8 ++ answered 1 5)
      (fun c => decide (shownAndDeleted c = (some (some ⟨1, 0, ".png"⟩), [⟨1, 0, ".png"⟩]))) (by decide +kernel)
    obtain ⟨hshown, hdeleted⟩ := Prod.mk.inj (of_decide_eq_true hP)
    obtain ⟨v, hv, hkey⟩ := Option.map_eq_some_iff.1 hshown
    exact ⟨c, hc, v, hv, hkey, by rw [hdeleted]; exact List.mem_singleton_self _⟩
  · obtain ⟨c, hc, hP⟩ := Conf.reached_freely
        (serving plainConfig (fun _ => .presignPhoto 1 "image/png" 1024 0) oneUpload (listed (S := schema) twoOwners) 2 0)
      (unblocked 0 ++ answered 0 11 ++ unblocked 1 ++ answered 1 12 ++ unsignable 0 ++ answered 0 3)
      (fun c => decide ((0, some (some ⟨1, 2, ".png"⟩), some none) ∈ pendingCommits c)) (by decide)
    obtain ⟨d, hd, heq⟩ := List.mem_map.1 (of_decide_eq_true hP)
    simp only [Prod.mk.injEq, Option.map_eq_some_iff] at heq
    obtain ⟨hby, ⟨v, hv, hvkey⟩, r, hr, hrkey⟩ := heq
    exact ⟨c, hc, d, hd, hby, v, r, hv, hr, hvkey, hrkey⟩

def considered (reqs : Tid → Request) (base : Nat) (t : Tid) (o : Op schema outside) (w : World schema outside) : Bool :=
  match o, reqs t with
  | .ask (.deleteObject key), .confirmPhoto i _ =>
    w.db.log.all fun d => (d.writes .staffUsers i).all fun (r : StaffUser) => r.photoKey ≠ some key
  | .sql (.update .staffUsers i (.setPendingPhoto none none none)), .presignPhoto .. =>
    (w.db.committed .staffUsers i).all fun (v : StaffUser) => v.photoPendingKey.all fun key => key.photoId = base + t
  | _, _ => true

theorem considerate_of_considered {o : Op schema outside} {x : o.Res} (h : considered reqs base t o w = true) :
    Considerate reqs base t o w x w' := by
  unfold Considerate
  split
  · intro i actorId hreq
    simp only [considered, hreq, List.all_eq_true, Option.all_eq_true, decide_eq_true_eq] at h
    refine .inr fun d hd => ?_
    rintro ⟨v, r, -, hr, -, -, hshown⟩
    exact h d hd r hr hshown
  · intro contentType byteSize actorId hreq v hv _ key hkey
    simp only [considered, hreq, Option.all_eq_true, decide_eq_true_eq] at h
    exact h v hv key hkey
  · trivial

/-- One upload is shown; a second is presigned and cannot be signed; a third is signed, posted and found to be no image. -/
def threeUploads : Tid → Request
  | 0 => .confirmPhoto 1 0
  | 3 => .postPhoto ⟨1, 3, ".png"⟩ "image/png" (List.replicate 1024 0)
  | 4 => .confirmPhoto 1 0
  | _ => .presignPhoto 1 "image/png" 1024 0

/-- The upload that passed is shown still, the one that did not is deleted, and each pending key went by its own request. -/
theorem uploads_safe_once : ∃ c,
    Conf.Steps (Considerate threeUploads 1)
      (serving plainConfig threeUploads oneUpload (listed (S := schema) twoOwners) 2 0) c ∧
    (∃ v : StaffUser, c.state.db.committed .staffUsers 1 = some v ∧ v.photoKey = some ⟨1, 0, ".png"⟩) ∧
    c.state.out.deleted = [⟨1, 3, ".png"⟩] ∧
    (0, some (some ⟨1, 0, ".png"⟩), some none) ∈ pendingCommits c ∧
    (1, some (some ⟨1, 2, ".png"⟩), some none) ∈ pendingCommits c ∧
    (4, some (some ⟨1, 3, ".png"⟩), some none) ∈ pendingCommits c ∧
    (∀ i (v : StaffUser) key, c.state.db.committed .staffUsers i = some v → v.photoKey = some key →
      key ∉ c.state.out.deleted) ∧
    ∀ d ∈ c.state.db.log, ∀ i (v r : StaffUser) key, d.before .staffUsers i = some v → d.writes .staffUsers i = some r →
      v.photoPendingKey = some key → r.photoPendingKey ≠ some key → Cleared threeUploads 1 c.state.out.looks d.by_ i key r := by
  obtain ⟨c, hc, hP⟩ := Conf.reached_of_play (A := fun t o w _ _ => considered threeUploads 1 t o w = true)
    (serving plainConfig threeUploads oneUpload (listed (S := schema) twoOwners) 2 0)
    (answered 0 14 ++ unblocked 1 ++ answered 1 10 ++ unsignable 1 ++ answered 1 3 ++ unblocked 2 ++ answered 2 11 ++
      answered 3 1 ++ answered 4 12)
    (fun c => decide (shownAndDeleted c = (some (some ⟨1, 0, ".png"⟩), [⟨1, 3, ".png"⟩])) &&
      [(0, some (some ⟨1, 0, ".png"⟩), some none), (1, some (some ⟨1, 2, ".png"⟩), some none),
        (4, some (some ⟨1, 3, ".png"⟩), some none)].all fun x => x ∈ pendingCommits c) (by decide +kernel)
  simp only [Bool.and_eq_true, decide_eq_true_eq, List.all_cons, List.all_nil, and_true] at hP
  obtain ⟨hshown, hfirst, hsecond, hthird⟩ := hP
  obtain ⟨hshown, hdeleted⟩ := Prod.mk.inj hshown
  obtain ⟨v, hv, hkey⟩ := Option.map_eq_some_iff.1 hshown
  have hc' : Conf.Steps (Considerate threeUploads 1)
      (serving plainConfig threeUploads oneUpload (listed (S := schema) twoOwners) 2 0) c :=
    hc.mono fun _ _ _ _ _ h => considerate_of_considered h
  have hnone : ∀ key ∈ oneUpload.deleted, key.photoId < oneUpload.firstId ∧ ∀ i (v : StaffUser),
      listed (S := schema) twoOwners .staffUsers i = some v → v.photoKey ≠ some key ∧ v.photoPendingKey ≠ some key :=
    fun key hkey => by cases hkey
  obtain ⟨-, hsafe, hcleared⟩ := uploads_safe twoOwners_shelved twoOwners_sound hnone hc'
  exact ⟨c, hc', ⟨v, hv, hkey⟩, hdeleted, hfirst, hsecond, hthird, hsafe, hcleared⟩

end Staff

import Boutique.Traces
/-!
# Photos — what becomes of the photos of the staff

A key is drawn once, is pending once, and comes back nowhere: so what is deleted after it has gone from a row is never
shown again.
-/
namespace Staff

open Txn Session Contract

variable {reqs : Tid → Request} {base m n i : Nat} {t : Tid} {e e' : Engine schema} {looks looks' : List Look}
  {key : PhotoKey} {type : String} {v r : StaffUser} {d : Commit schema}

/-! ## What a commit does to the photos of a row -/

/-- **The upload passed**: its declared type, and its first bytes. -/
def Passed (looks : List Look) (t : Tid) (key : PhotoKey) (type : String) : Prop :=
  .head t key type ∈ looks ∧ ∃ start, .body t key start ∈ looks ∧ matchesMagicPrefix type start = true

def Failed (looks : List Look) (t : Tid) (key : PhotoKey) (type : String) : Prop :=
  (∃ other, .head t key other ∈ looks ∧ other ≠ type) ∨
    ∃ start, .body t key start ∈ looks ∧ matchesMagicPrefix type start = false

/-- **The key was pending**, with its declared type and of a staffer at work, in one of the versions up to `m`. -/
def Pended (e : Engine schema) (m i : Nat) (key : PhotoKey) (type : String) : Prop :=
  ∃ n, n ≤ m ∧ ∃ v : StaffUser, e.version n .staffUsers i = some v ∧ v.live = true ∧ v.photoPendingKey = some key ∧
    v.photoPendingContentType = some type

/-- **What the commit of thread `t` at `m` does to the photos of staffer `i`.** -/
inductive PhotoDeed (reqs : Tid → Request) (base : Nat) (looks : List Look) (e : Engine schema) (m : Nat) (t : Tid) (i : Nat)
    (v r : StaffUser) : Prop
  | kept (live : r.photoKey = v.photoKey) (pending : r.photoPendingKey = v.photoPendingKey)
  | presigned {key : PhotoKey} {contentType : String} {byteSize : Int} {actorId : Nat}
      (request : reqs t = .presignPhoto i contentType byteSize actorId) (live : r.photoKey = v.photoKey)
      (pending : r.photoPendingKey = some key) (whose : key.staffUserId = i) (drawn : key.photoId = base + t)
      (first : ∀ n d, n < m → e.log[n]? = some d → d.by_ ≠ t)
  | unsigned {contentType : String} {byteSize : Int} {actorId : Nat}
      (request : reqs t = .presignPhoto i contentType byteSize actorId) (live : r.photoKey = v.photoKey)
      (pending : r.photoPendingKey = none) (own : ∀ key, v.photoPendingKey = some key → key.photoId = base + t)
  | promoted {key : PhotoKey} {type : String} {actorId : Nat} (request : reqs t = .confirmPhoto i actorId)
      (was : v.photoPendingKey = some key) (live : r.photoKey = some key) (pending : r.photoPendingKey = none)
      (passed : Passed looks t key type) (pended : Pended e m i key type)
  | rejected {key : PhotoKey} {type : String} {actorId : Nat} (request : reqs t = .confirmPhoto i actorId)
      (was : v.photoPendingKey = some key ∨ v.photoPendingKey = none) (live : r.photoKey = v.photoKey)
      (pending : r.photoPendingKey = none) (failed : Failed looks t key type) (pended : Pended e m i key type)
  | deleted {actorId : Nat} (request : reqs t = .deletePhoto i actorId) (live : r.photoKey = none)
      (pending : r.photoPendingKey = none)
  | left {lastDay : Option Int} {actor : StaffContext} (request : reqs t = .deactivate i lastDay actor)
      (live : r.photoKey = none) (pending : r.photoPendingKey = none)

/-- **What a commit of thread `t` at `m` may write over the row `x` of staffer `i`**: a new staffer has no photo, and who leaves
has none pending. -/
structure Fits (reqs : Tid → Request) (base : Nat) (looks : List Look) (e : Engine schema) (m : Nat) (t : Tid) (i : Nat)
    (x : Option StaffUser) (r : StaffUser) : Prop where
  new : x = none → r.unpictured = true
  leaves : ∀ v, x = some v → r.deletedAt = v.deletedAt ∨ r.photoPendingKey = none
  deed : ∀ v, x = some v → PhotoDeed reqs base looks e m t i v r

/-- **Every commit is accounted for.** -/
def Recorded (reqs : Tid → Request) (base : Nat) (looks : List Look) (e : Engine schema) : Prop :=
  ∀ m d, e.log[m]? = some d → ∀ i (r : StaffUser), d.writes .staffUsers i = some r →
    Fits reqs base looks e m d.by_ i (d.before .staffUsers i) r

theorem Passed.mono (hlooks : looks ⊆ looks') (h : Passed looks t key type) : Passed looks' t key type := by
  obtain ⟨hhead, start, hbody, hmagic⟩ := h
  exact ⟨hlooks hhead, start, hlooks hbody, hmagic⟩

theorem Failed.mono (hlooks : looks ⊆ looks') (h : Failed looks t key type) : Failed looks' t key type := by
  rcases h with ⟨other, hhead, hne⟩ | ⟨start, hbody, hmagic⟩
  · exact .inl ⟨other, hlooks hhead, hne⟩
  · exact .inr ⟨start, hlooks hbody, hmagic⟩

theorem Pended.lasts (hv : ∀ n, n ≤ e.log.length → e'.version n = e.version n) (hm : m ≤ e.log.length)
    (h : Pended e m i key type) : Pended e' m i key type := by
  obtain ⟨n, hn, v, hrow, hkey⟩ := h
  exact ⟨n, hn, v, by rw [hv n (Nat.le_trans hn hm)]; exact hrow, hkey⟩

theorem PhotoDeed.lasts (hlooks : looks ⊆ looks') (hlog : e.log <+: e'.log)
    (hv : ∀ n, n ≤ e.log.length → e'.version n = e.version n) (hm : m ≤ e.log.length)
    (h : PhotoDeed reqs base looks e m t i v r) : PhotoDeed reqs base looks' e' m t i v r := by
  cases h with
  | kept live pending => exact .kept live pending
  | presigned request live pending whose drawn first =>
    refine .presigned request live pending whose drawn fun n d hn hd => first n d hn ?_
    obtain ⟨l, hl⟩ := hlog
    rwa [← hl, List.getElem?_append_left (Nat.lt_of_lt_of_le hn hm)] at hd
  | unsigned request live pending own => exact .unsigned request live pending own
  | promoted request was live pending passed pended =>
    exact .promoted request was live pending (passed.mono hlooks) (pended.lasts hv hm)
  | rejected request was live pending failed pended =>
    exact .rejected request was live pending (failed.mono hlooks) (pended.lasts hv hm)
  | deleted request live pending => exact .deleted request live pending
  | left request live pending => exact .left request live pending

theorem Fits.lasts {x : Option StaffUser} (hlooks : looks ⊆ looks') (hlog : e.log <+: e'.log)
    (hv : ∀ n, n ≤ e.log.length → e'.version n = e.version n) (hm : m ≤ e.log.length)
    (h : Fits reqs base looks e m t i x r) : Fits reqs base looks' e' m t i x r :=
  ⟨h.new, h.leaves, fun v hx => (h.deed v hx).lasts hlooks hlog hv hm⟩

/-- **The shapes of a deed**: the photos stay; nothing is pending any more, and what was pending may be shown; or a new key
is pending. -/
theorem PhotoDeed.shape (h : PhotoDeed reqs base looks e m t i v r) :
    (r.photoKey = v.photoKey ∧ r.photoPendingKey = v.photoPendingKey) ∨
      (r.photoPendingKey = none ∧ (r.photoKey = v.photoKey ∨ r.photoKey = none ∨
        r.photoKey = v.photoPendingKey ∧ ∃ key, v.photoPendingKey = some key)) ∨
      r.photoKey = v.photoKey ∧ ∃ key, r.photoPendingKey = some key ∧ key.staffUserId = i ∧ key.photoId = base + t ∧
        ∀ n d, n < m → e.log[n]? = some d → d.by_ ≠ t := by
  cases h with
  | kept live pending => exact .inl ⟨live, pending⟩
  | presigned request live pending whose drawn first => exact .inr (.inr ⟨live, _, pending, whose, drawn, first⟩)
  | unsigned request live pending own => exact .inr (.inl ⟨pending, .inl live⟩)
  | promoted request was live pending passed pended =>
    exact .inr (.inl ⟨pending, .inr (.inr ⟨live.trans was.symm, _, was⟩)⟩)
  | rejected request was live pending failed pended => exact .inr (.inl ⟨pending, .inl live⟩)
  | deleted request live pending => exact .inr (.inl ⟨pending, .inr (.inl live)⟩)
  | left request live pending => exact .inr (.inl ⟨pending, .inr (.inl live)⟩)

/-! ## Keys come once -/

/-- **The key has been drawn** by one of the first `m` commits, or before them all. -/
def Old (base : Nat) (e : Engine schema) (m : Nat) (key : PhotoKey) : Prop :=
  key.photoId < base ∨ ∃ n d, n < m ∧ e.log[n]? = some d ∧ key.photoId = base + d.by_

/-- **Rows whose keys are in order**: each of its own staffer and drawn before, and none both shown and pending. -/
structure Sound (base : Nat) (rows : Rows schema) : Prop where
  keys : ∀ i (v : StaffUser) key, rows .staffUsers i = some v → v.photoKey = some key ∨ v.photoPendingKey = some key →
    key.staffUserId = i ∧ key.photoId < base
  apart : ∀ i (v : StaffUser) key, rows .staffUsers i = some v → v.photoPendingKey = some key → v.photoKey ≠ some key

theorem Old.mono (hmn : m ≤ n) (h : Old base e m key) : Old base e n key := by
  rcases h with hold | ⟨k, d, hk, hd, hkey⟩
  · exact .inl hold
  · exact .inr ⟨k, d, Nat.lt_of_lt_of_le hk hmn, hd, hkey⟩

theorem not_old (hdrawn : key.photoId = base + t) (hfirst : ∀ n d, n < m → e.log[n]? = some d → d.by_ ≠ t) :
    ¬Old base e m key := by
  rintro (hold | ⟨n, d, hn, hd, hkey⟩)
  · omega
  · exact hfirst n d hn hd (Nat.add_left_cancel (hkey.symm.trans hdrawn))

section History

variable (hL : e.Lawful conduct.shared) (hrec : Recorded reqs base looks e)
include hL hrec

theorem row_after (hd : e.log[m]? = some d) (hr : e.version (m + 1) .staffUsers i = some r) :
    e.version m .staffUsers i = some r ∨ r.unpictured = true ∨
      ∃ v : StaffUser, e.version m .staffUsers i = some v ∧ d.before .staffUsers i = some v ∧ d.writes .staffUsers i = some r ∧
        (r.deletedAt = v.deletedAt ∨ r.photoPendingKey = none) ∧ PhotoDeed reqs base looks e m d.by_ i v r := by
  have hbefore : e.version m = d.before := by simp [Engine.version, hd]
  rw [hL.linked m d hd] at hr
  cases hw : d.writes .staffUsers i with
  | none =>
    rw [Commit.after, Rows.over_none hw] at hr
    rw [hbefore]
    exact .inl hr
  | some x =>
    rw [Commit.after, Rows.over_some hw] at hr
    cases hr
    have hfits := hrec m d hd i r hw
    rw [hbefore]
    cases hv : d.before .staffUsers i with
    | none => exact .inr (.inl (hfits.new hv))
    | some v => exact .inr (.inr ⟨v, rfl, rfl, rfl, hfits.leaves v hv, hfits.deed v hv⟩)

/-- **Every key on a row is its staffer's, and drawn**; and none is both shown and pending. -/
theorem keys_sound (h0 : Sound base (e.version 0)) : ∀ m, m ≤ e.log.length → ∀ i (v : StaffUser) key,
    e.version m .staffUsers i = some v →
      (v.photoKey = some key ∨ v.photoPendingKey = some key → key.staffUserId = i ∧ Old base e m key) ∧
        (v.photoPendingKey = some key → v.photoKey ≠ some key) := by
  intro m
  induction m with
  | zero =>
    intro _ i v key hv
    exact ⟨fun hkey => ⟨(h0.keys i v key hv hkey).1, .inl (h0.keys i v key hv hkey).2⟩, h0.apart i v key hv⟩
  | succ m ih =>
    intro hm i r key hr
    have ih := ih (Nat.le_of_succ_le hm)
    obtain ⟨d, hd⟩ : ∃ d, e.log[m]? = some d := ⟨e.log[m], List.getElem?_eq_getElem hm⟩
    have hlater : ∀ v : StaffUser, e.version m .staffUsers i = some v → v.photoKey = some key ∨ v.photoPendingKey = some key →
        key.staffUserId = i ∧ Old base e (m + 1) key := fun v hv hkey =>
      ⟨((ih i v key hv).1 hkey).1, ((ih i v key hv).1 hkey).2.mono (Nat.le_succ m)⟩
    rcases row_after hL hrec hd hr with hr | hr | ⟨v, hv, -, -, -, hdeed⟩
    · exact ⟨hlater r hr, (ih i r key hr).2⟩
    · simp only [StaffUser.unpictured, Bool.and_eq_true, Option.isNone_iff_eq_none] at hr
      simp [hr]
    · rcases hdeed.shape with ⟨hlive, hpending⟩ | ⟨hpending, hlive⟩ | ⟨hlive, k, hpending, hwhose, hdrawn, hfirst⟩
      · rw [hlive, hpending]
        exact ⟨hlater v hv, (ih i v key hv).2⟩
      · rw [hpending]
        refine ⟨fun hkey => hlater v hv ?_, fun h => by cases h⟩
        rcases hlive with hlive | hlive | ⟨hlive, -⟩ <;> simp only [hlive, reduceCtorEq, or_false] at hkey
        · exact .inl hkey
        · exact .inr hkey
      · rw [hlive, hpending]
        refine ⟨fun hkey => ?_, fun hkey hshown => ?_⟩
        · rcases hkey with hkey | hkey
          · exact hlater v hv (.inl hkey)
          · cases hkey
            exact ⟨hwhose, .inr ⟨m, d, Nat.lt_succ_self m, hd, hdrawn⟩⟩
        · cases hkey
          exact not_old hdrawn hfirst ((ih i v key hv).1 (.inl hshown)).2

def Spent (base : Nat) (e : Engine schema) (m : Nat) (key : PhotoKey) : Prop :=
  Old base e m key ∧ ∀ i (v : StaffUser), e.version m .staffUsers i = some v → v.photoPendingKey ≠ some key

/-- **A key that has gone**: spent, and shown nowhere. -/
def Gone (base : Nat) (e : Engine schema) (m : Nat) (key : PhotoKey) : Prop :=
  Spent base e m key ∧ ∀ i (v : StaffUser), e.version m .staffUsers i = some v → v.photoKey ≠ some key

theorem spent_later (h : Spent base e m key) (hmn : m ≤ n) (hn : n ≤ e.log.length) : Spent base e n key := by
  induction hmn with
  | refl => exact h
  | @step n hmn ih =>
    obtain ⟨hold, hnot⟩ := ih (Nat.le_of_succ_le hn)
    refine ⟨hold.mono (Nat.le_succ n), fun i r hr hkey => ?_⟩
    obtain ⟨d, hd⟩ : ∃ d, e.log[n]? = some d := ⟨e.log[n], List.getElem?_eq_getElem hn⟩
    rcases row_after hL hrec hd hr with hr | hr | ⟨v, hv, -, -, -, hdeed⟩
    · exact hnot i r hr hkey
    · simp [StaffUser.unpictured, hkey] at hr
    · rcases hdeed.shape with ⟨-, hpending⟩ | ⟨hpending, -⟩ | ⟨-, k, hpending, -, hdrawn, hfirst⟩
      · exact hnot i v hv (hpending ▸ hkey)
      · rw [hpending] at hkey
        cases hkey
      · rw [hpending] at hkey
        cases hkey
        exact not_old hdrawn hfirst hold

theorem gone_later (h : Gone base e m key) (hmn : m ≤ n) (hn : n ≤ e.log.length) : Gone base e n key := by
  refine ⟨spent_later hL hrec h.1 hmn hn, ?_⟩
  induction hmn with
  | refl => exact h.2
  | @step n hmn ih =>
    have ih := ih (Nat.le_of_succ_le hn)
    have hspent := spent_later hL hrec h.1 hmn (Nat.le_of_succ_le hn)
    intro i r hr hkey
    obtain ⟨d, hd⟩ : ∃ d, e.log[n]? = some d := ⟨e.log[n], List.getElem?_eq_getElem hn⟩
    rcases row_after hL hrec hd hr with hr | hr | ⟨v, hv, -, -, -, hdeed⟩
    · exact ih i r hr hkey
    · simp [StaffUser.unpictured, hkey] at hr
    · rcases hdeed.shape with ⟨hlive, -⟩ | ⟨-, hlive | hlive | ⟨hlive, -⟩⟩ | ⟨hlive, -⟩
      · exact ih i v hv (hlive ▸ hkey)
      · exact ih i v hv (hlive ▸ hkey)
      · rw [hlive] at hkey
        cases hkey
      · exact hspent.2 i v hv (hlive ▸ hkey)
      · exact ih i v hv (hlive ▸ hkey)

def Promotes (d : Commit schema) (i : Nat) (key : PhotoKey) : Prop :=
  ∃ v r : StaffUser, d.before .staffUsers i = some v ∧ d.writes .staffUsers i = some r ∧ v.photoPendingKey = some key ∧
    v.photoKey ≠ some key ∧ r.photoKey = some key

theorem promoted_since (hmn : m ≤ n) (hn : n ≤ e.log.length)
    (hm : ∀ v : StaffUser, e.version m .staffUsers i = some v → v.photoKey ≠ some key)
    (hr : e.version n .staffUsers i = some r) (hkey : r.photoKey = some key) :
    ∃ k d, m ≤ k ∧ e.log[k]? = some d ∧ Promotes d i key := by
  induction hmn generalizing r with
  | refl => exact absurd hkey (hm r hr)
  | @step n hmn ih =>
    have hn' := Nat.le_of_succ_le hn
    obtain ⟨d, hd⟩ : ∃ d, e.log[n]? = some d := ⟨e.log[n], List.getElem?_eq_getElem hn⟩
    rcases row_after hL hrec hd hr with hr | hr | ⟨v, hv, hbefore, hwrites, -, hdeed⟩
    · exact ih hn' hr hkey
    · simp [StaffUser.unpictured, hkey] at hr
    · by_cases hshown : v.photoKey = some key
      · exact ih hn' hv hshown
      · rcases hdeed.shape with ⟨hlive, -⟩ | ⟨-, hlive | hlive | ⟨hlive, -⟩⟩ | ⟨hlive, -⟩
        · exact absurd (hlive ▸ hkey) hshown
        · exact absurd (hlive ▸ hkey) hshown
        · rw [hlive] at hkey
          cases hkey
        · exact ⟨n, d, hmn, hd, v, r, hbefore, hwrites, hlive ▸ hkey, hshown, hkey⟩
        · exact absurd (hlive ▸ hkey) hshown

theorem gone_of_row (h0 : Sound base (e.version 0)) (hm : m ≤ e.log.length) (hv : e.version m .staffUsers i = some v)
    (hkey : v.photoKey = some key ∨ v.photoPendingKey = some key) (hr : e.committed .staffUsers i = some r)
    (hshown : r.photoKey ≠ some key) (hpending : r.photoPendingKey ≠ some key) : Gone base e e.log.length key := by
  obtain ⟨hwhose, hold⟩ := (keys_sound hL hrec h0 m hm i v key hv).1 hkey
  have hrow : ∀ j (x : StaffUser), e.version e.log.length .staffUsers j = some x →
      x.photoKey = some key ∨ x.photoPendingKey = some key → x = r := by
    intro j x hx hxkey
    have hji : j = i := ((keys_sound hL hrec h0 _ (Nat.le_refl _) j x key hx).1 hxkey).1.symm.trans hwhose
    subst hji
    rw [Engine.version_length, hr] at hx
    exact (Option.some.inj hx).symm
  refine ⟨⟨hold.mono hm, fun j x hx hxkey => ?_⟩, fun j x hx hxkey => ?_⟩
  · exact hpending (hrow j x hx (.inr hxkey) ▸ hxkey)
  · exact hshown (hrow j x hx (.inl hxkey) ▸ hxkey)

theorem spent_of_row (h0 : Sound base (e.version 0)) (hm : m ≤ e.log.length) (hv : e.version m .staffUsers i = some v)
    (hkey : v.photoKey = some key ∨ v.photoPendingKey = some key)
    (hpending : ∀ r : StaffUser, e.committed .staffUsers i = some r → r.photoPendingKey ≠ some key) :
    Spent base e e.log.length key := by
  obtain ⟨hwhose, hold⟩ := (keys_sound hL hrec h0 m hm i v key hv).1 hkey
  refine ⟨hold.mono hm, fun j x hx hxkey => ?_⟩
  have hji : j = i := ((keys_sound hL hrec h0 _ (Nat.le_refl _) j x key hx).1 (.inr hxkey)).1.symm.trans hwhose
  subst hji
  rw [Engine.version_length] at hx
  exact hpending x hx hxkey

theorem pending_live (hmn : m ≤ n) (hn : n ≤ e.log.length) (hold : Old base e m key)
    (hm : ∀ v : StaffUser, e.version m .staffUsers i = some v → v.photoPendingKey = some key → v.live = true)
    (hr : e.version n .staffUsers i = some r) (hkey : r.photoPendingKey = some key) : r.live = true := by
  induction hmn generalizing r with
  | refl => exact hm r hr hkey
  | @step n hmn ih =>
    have hn' := Nat.le_of_succ_le hn
    obtain ⟨d, hd⟩ : ∃ d, e.log[n]? = some d := ⟨e.log[n], List.getElem?_eq_getElem hn⟩
    rcases row_after hL hrec hd hr with hr | hr | ⟨v, hv, -, -, hleaves, hdeed⟩
    · exact ih hn' hr hkey
    · simp [StaffUser.unpictured, hkey] at hr
    · rcases hleaves with hdeleted | hnone
      · rcases hdeed.shape with ⟨-, hpending⟩ | ⟨hpending, -⟩ | ⟨-, k, hpending, -, hdrawn, hfirst⟩
        · have hlive := ih hn' hv (hpending ▸ hkey)
          simpa [StaffUser.live, hdeleted] using hlive
        · rw [hpending] at hkey
          cases hkey
        · rw [hpending] at hkey
          cases hkey
          exact absurd (hold.mono hmn) (not_old hdrawn hfirst)
      · rw [hnone] at hkey
        cases hkey

end History

theorem Old.lasts (hlog : e.log <+: e'.log) (h : Old base e m key) : Old base e' m key := by
  rcases h with hold | ⟨n, d, hn, hd, hkey⟩
  · exact .inl hold
  · exact .inr ⟨n, d, hn, entry_stays hlog hd, hkey⟩

theorem lasts_spent : Lasts fun e : Engine schema => ∃ m, m ≤ e.log.length ∧ Spent base e m key := by
  rintro e e' hl hv ⟨m, hm, hold, hnot⟩
  exact ⟨m, Nat.le_trans hm hl.length_le, hold.lasts hl, by rw [hv m hm]; exact hnot⟩

theorem lasts_gone : Lasts fun e : Engine schema => ∃ m, m ≤ e.log.length ∧ Gone base e m key := by
  rintro e e' hl hv ⟨m, hm, ⟨hold, hnot⟩, hshown⟩
  exact ⟨m, Nat.le_trans hm hl.length_le, ⟨hold.lasts hl, by rw [hv m hm]; exact hnot⟩, by rw [hv m hm]; exact hshown⟩

theorem lasts_pended : Lasts fun e : Engine schema => Pended e e.log.length i key type := by
  rintro e e' hl hv ⟨n, hn, v, hrow, hkey⟩
  exact ⟨n, Nat.le_trans hn hl.length_le, v, by rw [hv n hn]; exact hrow, hkey⟩

end Staff

import Boutique.Sos
import Boutique.TxnLocked
/-!
# Conduct — what the verbs of the staff write

Each statement is of one kind, and each verb's statements are of a few.  The writes that can take a role, an account or a
live photo away are made with the staff lock; an alert only moves on.
-/
namespace Staff

open Txn Session

/-! ## Kinds of statement -/

inductive Kind
  | session | hire | edit | breaks | pending | unsign | promote | clear | leave | revoke | raise | accept | close | reopen
  | note | breakNote | acceptNote | resolveNote | forge | erase | reset
deriving DecidableEq

def Kind.locked : Kind → Bool
  | .edit | .pending | .promote | .clear | .leave | .reset => true
  | _ => false

def AuditAction.kind : AuditAction → Kind
  | .staffBreakEnded .. => .breakNote
  | .sosAccepted .. => .acceptNote
  | .sosResolved .. => .resolveNote
  | _ => .note

def StaffUser.unpictured (r : StaffUser) : Bool := r.photoKey.isNone && r.photoPendingKey.isNone

def StaffUser.kind (r : StaffUser) : Kind := if r.unpictured then .hire else .forge

def kind : Op schema outside → Option Kind
  | .sql .begin | .sql .commit | .sql .abort => some .session
  | .sql (.insert .staffUsers r) => some (StaffUser.kind r)
  | .sql (.update .staffUsers _ (.flush _)) => some .edit
  | .sql (.update .staffUsers _ (.startBreak _)) | .sql (.update .staffUsers _ .endBreak) => some .breaks
  | .sql (.update .staffUsers _ (.setPendingPhoto none none none)) => some .unsign
  | .sql (.update .staffUsers _ (.setPendingPhoto _ _ _)) => some .pending
  | .sql (.update .staffUsers _ (.promotePendingPhoto _)) => some .promote
  | .sql (.update .staffUsers _ .clearPhoto) => some .clear
  | .sql (.update .staffUsers _ (.softDelete _ _)) => some .leave
  | .sql (.update .staffUsers _ (.resetPassword _ _)) => some .reset
  | .sql (.insert .sessions _) | .sql (.update .sessions _ _) => some .revoke
  | .sql (.insert .sosAlerts _) => some .raise
  | .sql (.update .sosAlerts _ (.accept _ _)) => some .accept
  | .sql (.update .sosAlerts _ (.close .resolved)) | .sql (.update .sosAlerts _ (.close .cancelled)) => some .close
  | .sql (.update .sosAlerts _ (.close _)) => some .reopen
  | .sql (.insert .auditLog r) => some (AuditLog.action r).kind
  | .sql (.insert .notifications _) => some .note
  | .ask (.deleteObject _) => some .erase
  | _ => none

def Among (ks : List Kind) (l : Bool) (o : Op schema outside) : Prop :=
  ∀ k, kind o = some k → k ∈ ks ∧ (k.locked = true → l = true)

variable {ks : List Kind} {l : Bool}

variable {o : Op schema outside} {k : Kind} {g : StaffUserChange} {r r' : StaffUser}

theorem among_none (h : kind o = none) : Among ks l o := fun k hk => by rw [h] at hk; cases hk

theorem among_kind (h : kind o = some k) (hk : k ∈ ks) (hl : k.locked = false) : Among ks l o := by
  intro k' hk'
  rw [h] at hk'
  cases hk'
  refine ⟨hk, fun hlocked => ?_⟩
  rw [hl] at hlocked
  cases hlocked

theorem among_locked (h : kind o = some k) (hk : k ∈ ks) : Among ks true o := by
  intro k' hk'
  rw [h] at hk'
  cases hk'
  exact ⟨hk, fun _ => rfl⟩

theorem Among.mono {ks' : List Kind} (hks : ∀ k ∈ ks, k ∈ ks') (h : Among ks l o) : Among ks' l o :=
  fun k hk => ⟨hks k (h k hk).1, (h k hk).2⟩

theorem AuditAction.kind_ne_session (action : AuditAction) : action.kind ≠ .session := by
  cases action <;> exact fun h => by cases h

theorem StaffUser.kind_ne_session (r : StaffUser) : r.kind ≠ .session := by
  unfold StaffUser.kind
  split <;> exact fun h => by cases h

theorem kind_session (h : kind o = some .session) : o = .sql .begin ∨ o = .sql .commit ∨ o = .sql .abort := by
  unfold kind at h
  split at h
  case h_1 | h_2 | h_3 => simp
  all_goals first
    | exact absurd (Option.some.inj h) (AuditAction.kind_ne_session _)
    | exact absurd (Option.some.inj h) (StaffUser.kind_ne_session _)
    | cases h

theorem Among.not_session (h : Among ks l o) (hs : .session ∉ ks) : o ≠ .sql .commit ∧ o ≠ .sql .abort := by
  constructor <;> rintro rfl <;> exact hs (h .session rfl).1

theorem Among.inside (h : Among ks l o) (hs : .session ∉ ks) : o.Inside := by
  obtain ⟨hcommit, habort⟩ := h.not_session hs
  cases o with
  | sql o =>
    cases o with
    | commit => exact absurd rfl hcommit
    | abort => exact absurd rfl habort
    | begin | read | update | insert | lock => trivial
  | now | ask => trivial

theorem kind_update (T : Table) (i : Nat) (g : Change T) : ∃ k, kind (.sql (.update T i g)) = some k := by
  cases T with
  | staffUsers =>
    cases g with
    | setPendingPhoto storageKey contentType at_ =>
      cases storageKey <;> cases contentType <;> cases at_ <;> exact ⟨_, rfl⟩
    | flush | startBreak | endBreak | promotePendingPhoto | clearPhoto | softDelete | resetPassword => exact ⟨_, rfl⟩
  | sessions => exact ⟨_, rfl⟩
  | sosAlerts =>
    cases g with
    | accept actorId at_ => exact ⟨_, rfl⟩
    | close to_ => cases to_ <;> exact ⟨_, rfl⟩
  | auditLog | notifications => cases g

theorem kind_insert (T : Table) (r : Row T) : ∃ k, kind (.sql (.insert T r)) = some k := by
  cases T <;> exact ⟨_, rfl⟩

def Kind.touches : Kind → Table → Bool
  | .session, _ | .erase, _ => false
  | .hire, T | .edit, T | .breaks, T | .pending, T | .unsign, T | .promote, T | .clear, T | .leave, T | .forge, T | .reset, T =>
    T = .staffUsers
  | .revoke, T => T = .sessions
  | .raise, T | .accept, T | .close, T | .reopen, T => T = .sosAlerts
  | .note, T => T = .auditLog ∨ T = .notifications
  | .breakNote, T | .acceptNote, T | .resolveNote, T => T = .auditLog

theorem update_touches {T : Table} {i : Nat} {g : Change T} (h : kind (.sql (.update T i g)) = some k) :
    k.touches T = true := by
  cases T with
  | staffUsers =>
    cases g with
    | setPendingPhoto storageKey contentType at_ => cases storageKey <;> cases contentType <;> cases at_ <;> cases h <;> rfl
    | flush | startBreak | endBreak | promotePendingPhoto | clearPhoto | softDelete | resetPassword =>
      cases h
      rfl
  | sessions =>
    cases h
    rfl
  | sosAlerts =>
    cases g with
    | accept actorId at_ =>
      cases h
      rfl
    | close to_ => cases to_ <;> cases h <;> rfl
  | auditLog | notifications => cases g

theorem insert_touches {T : Table} {r : Row T} (h : kind (.sql (.insert T r)) = some k) : k.touches T = true := by
  cases T with
  | auditLog =>
    cases h
    cases AuditLog.action r <;> rfl
  | staffUsers =>
    cases h
    unfold StaffUser.kind
    split <;> rfl
  | sessions | sosAlerts | notifications =>
    cases h
    rfl

theorem Among.sparing (h : Among [.erase] l o) : Sparing (fun _ => True) o := by
  refine ⟨h.inside (by decide), ?_, ?_⟩
  · rintro T j g rfl
    obtain ⟨k, hk⟩ := kind_update T j g
    have hk' := List.mem_singleton.1 (h k hk).1
    subst hk'
    exact absurd (update_touches hk) (by simp [Kind.touches])
  · rintro T r rfl
    obtain ⟨k, hk⟩ := kind_insert T r
    have hk' := List.mem_singleton.1 (h k hk).1
    subst hk'
    exact absurd (insert_touches hk) (by simp [Kind.touches])

theorem Among.tail (h : Among (.session :: ks) l o) (hbegin : o ≠ .sql .begin) (hcommit : o ≠ .sql .commit)
    (habort : o ≠ .sql .abort) : Among ks l o := by
  intro k hk
  obtain ⟨hmem, hl⟩ := h k hk
  rcases List.mem_cons.1 hmem with rfl | hmem
  · rcases kind_session hk with heq | heq | heq
    · exact absurd heq hbegin
    · exact absurd heq hcommit
    · exact absurd heq habort
  · exact ⟨hmem, hl⟩

/-! ## The verbs, one by one -/

section Verbs

variable {α : Type}

theorem steady_query (q : Query) (f : Snapshot schema → α) : Steady (Among ks) l (select q f : Prg α) :=
  steady_select (among_none rfl) f

theorem steady_question (q : Ask) (hq : kind (.ask q) = none) : Steady (Among ks) l (ask q) :=
  steady_ask (among_none hq)

theorem steady_clock : Steady (Among ks) l (Session.now : Prg Int) := steady_now (among_none rfl)

theorem steady_liftExcept (x : Except Err α) : Steady (Among ks) l (liftExcept x) := by
  cases x <;> rfl

theorem steady_liftMedia (x : Except MediaFailure α) : Steady (Among ks) l (liftMedia x) := by
  cases x <;> rfl

theorem steady_session {body : Int → Prg α} (h : ∀ n, Within (Among ks) false (body n)) :
    Steady (Among (.session :: ks)) false (tenantSession body : Prg α) := by
  have hopen : ∀ {o : Op schema outside} l, kind o = some .session → Among (.session :: ks) l o := fun l ho =>
    among_kind ho (List.mem_cons_self ..) rfl
  exact steady_tenantSession (fun l => hopen l rfl) (fun l => hopen l rfl) (fun l => hopen l rfl) fun n =>
    (h n).mono fun _ _ ho => ho.mono fun k hk => List.mem_cons_of_mem _ hk

theorem within_staffLock {k : Unit → Prg α} (h : Within (Among ks) true (k ())) :
    Within (Among ks) l (staffLock >>= k) := within_lock (among_none rfl) h

theorem steady_record {action : AuditAction} (h : action.kind ∈ ks) (actorId entity : Nat) :
    Steady (Among ks) l (record actorId entity action) := by
  refine Steady.bind (steady_insert (among_kind rfl h ?_) _) fun _ => steady_ret _
  cases action <;> rfl

theorem steady_recordEach (actorId entity : Nat) :
    ∀ actions : List AuditAction, (∀ a ∈ actions, a.kind ∈ ks) → Steady (Among ks) l (recordEach actorId entity actions)
  | [], _ => steady_ret _
  | a :: actions, h => (steady_record (h a (List.mem_cons_self ..)) _ _).bind fun _ =>
      steady_recordEach actorId entity actions fun b hb => h b (List.mem_cons_of_mem a hb)

theorem steady_scalarOneOrNone (rows : List α) : Steady (Among ks) l (scalarOneOrNone rows) := by
  unfold scalarOneOrNone
  split <;> rfl

theorem steady_byEmail (email : String) : Steady (Among ks) l (StaffUsers.byEmail email) :=
  (steady_query _ _).bind fun _ => steady_scalarOneOrNone _

theorem kind_staffUpdate (g : StaffUserChange) (i : Nat) :
    kind (.sql (.update .staffUsers i g)) = kind (.sql (.update .staffUsers 0 g)) := by
  cases g with
  | setPendingPhoto storageKey contentType at_ => cases storageKey <;> cases contentType <;> cases at_ <;> rfl
  | flush | startBreak | endBreak | promotePendingPhoto | clearPhoto | softDelete | resetPassword => rfl

theorem steady_free (h : kind (.sql (.update .staffUsers 0 g)) = some k) (hk : k ∈ ks) (hl : k.locked = false)
    (i : Nat) : Steady (Among ks) l (update .staffUsers i g) :=
  steady_update (among_kind ((kind_staffUpdate g i).trans h) hk hl) _

theorem steady_locked (h : kind (.sql (.update .staffUsers 0 g)) = some k) (hk : k ∈ ks) (i : Nat) :
    Steady (Among ks) true (update .staffUsers i g) :=
  steady_update (among_locked ((kind_staffUpdate g i).trans h) hk) _

theorem steady_deleteEach (he : .erase ∈ ks) : ∀ keys : List PhotoKey, Steady (Among ks) l (deleteEach keys)
  | [] => steady_ret _
  | _ :: keys => (steady_ask (among_kind rfl he rfl)).bind fun _ => steady_deleteEach he keys

theorem steady_createIn (address displayName : String) (role : StaffRole) (hash : String) (stored : Option String)
    (startDate : Option Int) (eligible : Bool) (actor : StaffContext) :
    Steady (Among [.hire, .note]) l (createIn address displayName role hash stored startDate eligible actor) := by
  refine (steady_byEmail _).bind fun existing => (steady_raiseIf _ _).bind fun _ => ?_
  exact (steady_insert (among_kind (k := .hire) rfl (by decide) rfl) _).bind fun created =>
    (steady_record (by simp [AuditAction.kind]) _ _).bind fun _ => steady_ret _

theorem within_create (cfg : Config) (email displayName : String) (role : StaffRole) (password : String)
    (phone : Option String) (startDate : Option Int) (eligible : Bool) (actor : StaffContext) :
    Within (Among [.session, .hire, .note]) false
      (create cfg email displayName role password phone startDate eligible actor) := by
  refine Steady.then_ (steady_liftExcept _) fun stored => Steady.then_ (steady_question _ rfl) fun hash => ?_
  refine Steady.then_ (Steady.attempt (steady_session fun n => (steady_createIn _ _ _ _ _ _ _ _).within)) fun x => ?_
  cases x with
  | ok created => trivial
  | error e => cases e <;> trivial

theorem steady_guardLastOwner (leaving : Bool) (target : StaffUser) :
    Steady (Among ks) l (guardLastOwner leaving target) := by
  unfold guardLastOwner
  split
  · exact (steady_query _ _).bind fun _ => steady_raiseIf _ _
  · exact steady_ret _

theorem steady_checkCurrentPassword (target : StaffUser) (isSelf : Bool) (patch : StaffPatch) :
    Steady (Among ks) l (checkCurrentPassword target isSelf patch) := by
  unfold checkCurrentPassword
  split
  · cases patch.currentPassword with
    | none => exact steady_raise _
    | some current => exact (steady_question _ rfl).bind fun _ => steady_raiseIf _ _
  · exact steady_ret _

theorem movedActions_kind (target : StaffUser) (storedPhone : Option String) (moves : Moves) :
    ∀ a ∈ movedActions target storedPhone moves, a.kind = .note := by
  intro a ha
  simp only [movedActions, List.mem_append, List.mem_map] at ha
  obtain (((⟨_, -, rfl⟩ | ⟨_, -, rfl⟩) | ⟨_, -, rfl⟩) | ⟨_, -, rfl⟩) | ⟨_, -, rfl⟩ := ha <;> rfl

theorem steady_endSessions (hr : .revoke ∈ ks) (hn : .note ∈ ks) (staffId actorId : Nat) (isSelf : Bool)
    (actingTokenHash : Option String) (txNow : Int) :
    Steady (Among ks) l (endSessions staffId actorId isSelf actingTokenHash txNow) := by
  refine Steady.bind ?_ fun _ => steady_record hn _ _
  exact (steady_query _ _).bind fun ids =>
    (steady_updateEach (fun i => among_kind rfl hr rfl) _ ids).bind fun _ => steady_ret _

theorem steady_staffEdit (staffId : Nat) (moves : Moves) (he : .edit ∈ ks) :
    Steady (Among ks) true (StaffUsers.update staffId moves) := by
  refine (steady_query _ _).bind fun row => ?_
  cases row with
  | none => exact steady_ret _
  | some r =>
    dsimp only
    split
    · exact steady_ret _
    · exact (steady_locked rfl he _).bind fun _ => (steady_raiseIf _ _).bind fun _ =>
        steady_query _ _

theorem within_updateIn (staffId : Nat) (patch : StaffPatch) (stored hash acting : Option String) (actor : StaffContext)
    (txNow : Int) : Within (Among [.edit, .revoke, .note]) l
      (updateIn staffId patch stored hash acting actor txNow) := by
  refine within_staffLock (Steady.within ?_)
  refine (steady_query _ _).bind fun found => (steady_orRaise _ _).bind fun target => ?_
  refine (steady_raiseIf _ _).bind fun _ => (steady_guardLastOwner _ _).bind fun _ => ?_
  refine (steady_checkCurrentPassword _ _ _).bind fun _ => ?_
  dsimp only
  split
  · exact steady_ret _
  · refine (steady_staffEdit staffId _ (by decide)).bind fun updated => (steady_orRaise _ _).bind fun row => ?_
    refine (steady_recordEach _ _ _ fun a ha => by simp [movedActions_kind _ _ _ a ha]).bind fun _ => ?_
    split
    · exact (steady_endSessions (by decide) (by decide) _ _ _ _ _).bind fun _ => steady_ret _
    · exact steady_ret _

theorem within_updateStaff (staffId : Nat) (patch : StaffPatch) (acting : Option String) (actor : StaffContext) :
    Within (Among [.session, .edit, .revoke, .note]) false (updateStaff staffId patch acting actor) := by
  refine Steady.then_ (steady_liftExcept _) fun stored => Steady.then_ ?_ fun hash =>
    (steady_session fun n => within_updateIn _ _ _ _ _ _ _).within
  cases patch.password with
  | none => exact steady_ret _
  | some password => exact (steady_question _ rfl).bind fun _ => steady_ret _

theorem within_deactivateIn (cfg : Config) (staffId : Nat) (lastDay : Option Int) (actor : StaffContext) (txNow : Int) :
    Within (Among [.leave, .note]) l (deactivateIn cfg staffId lastDay actor txNow) := by
  refine within_staffLock (Steady.within ?_)
  refine (steady_query _ _).bind fun found => (steady_orRaise _ _).bind fun target => (steady_raiseIf _ _).bind fun _ => ?_
  refine (steady_guardLastOwner _ _).bind fun _ => steady_clock.bind fun clock => (steady_liftExcept _).bind fun leaving => ?_
  refine Steady.bind ((steady_locked rfl (by decide) _).bind fun _ => steady_ret _) fun _ => ?_
  exact (steady_record (by simp [AuditAction.kind]) _ _).bind fun _ => steady_ret _

theorem within_deactivate (cfg : Config) (staffId : Nat) (lastDay : Option Int) (actor : StaffContext) :
    Within (Among [.session, .leave, .note, .erase]) false (deactivate cfg staffId lastDay actor) :=
  Steady.then_ (steady_session fun n => (within_deactivateIn _ _ _ _ _).mono fun _ _ ho => ho.mono (by decide)) fun orphaned =>
    ((steady_deleteEach (by decide) _).bind fun _ => steady_ret _).within

theorem steady_unsign (h : .unsign ∈ ks) (staffId : Nat) :
    Steady (Among ks) l (StaffUsers.setPendingPhoto staffId none none none) :=
  (steady_free rfl h rfl _).bind fun _ => steady_ret _

theorem within_presignIn (staffId photoId : Nat) (contentType : String) (byteSize : Int) (actorId : Nat) :
    Within (Among [.pending, .note]) l (presignIn staffId photoId contentType byteSize actorId) := by
  refine within_staffLock (Steady.within ?_)
  refine (steady_query _ _).bind fun found => (steady_orRaise _ _).bind fun target => ?_
  refine (steady_liftExcept _).bind fun storageKey => steady_clock.bind fun at_ => ?_
  refine Steady.bind ((steady_locked rfl (by decide) _).bind fun _ => steady_ret _) fun _ => ?_
  exact (steady_record (by simp [AuditAction.kind]) _ _).bind fun _ => steady_ret _

theorem within_presignPhoto (staffId : Nat) (contentType : String) (byteSize : Int) (actorId : Nat) :
    Within (Among [.session, .pending, .unsign, .note, .erase]) false (presignPhoto staffId contentType byteSize actorId) := by
  refine Steady.then_ (steady_question _ rfl) fun blocked => Steady.then_ (steady_raiseIf _ _) fun _ => ?_
  refine Steady.then_ (steady_liftExcept _) fun _ => Steady.then_ (steady_question _ rfl) fun configured => ?_
  refine Steady.then_ (steady_raiseIf _ _) fun _ => Steady.then_ (steady_question _ rfl) fun photoId => ?_
  refine Steady.then_ (steady_session fun n => (within_presignIn _ _ _ _ _).mono fun _ _ ho => ho.mono (by decide))
    fun signedFor => Steady.then_ (steady_question _ rfl) fun _ => Steady.then_ (steady_deleteEach (by decide) _) fun _ => ?_
  refine Steady.then_ (steady_question _ rfl) fun signed => ?_
  cases signed with
  | ok _ => trivial
  | error e => exact Steady.then_ (steady_session fun n => (steady_unsign (by decide) _).within) fun _ => trivial

/-- **How a staffer's row goes on**: who has left has left; and without the lock no role, no account and no live photo
changes, and a pending one is kept or cleared. -/
structure Stays (l : Bool) (r r' : StaffUser) : Prop where
  left : r.deletedAt ≠ none → r'.deletedAt = r.deletedAt
  role : l = false → r'.role = r.role
  account : l = false → r'.deletedAt = r.deletedAt
  photo : l = false → r'.photoKey = r.photoKey ∧ r'.photoContentType = r.photoContentType
  pending : l = false → r'.photoPendingKey = none ∨
    r'.photoPendingKey = r.photoPendingKey ∧ r'.photoPendingContentType = r.photoPendingContentType

theorem within_rejectIn (hu : .unsign ∈ ks) (staffId : Nat) (key : PhotoKey) :
    Within (Among ks) l (rejectIn staffId key) := by
  refine within_staffLock (Steady.within ((steady_query _ _).bind fun current => ?_))
  split
  · exact (steady_unsign hu _).bind fun _ => steady_ret _
  · exact steady_ret _

theorem steady_rejectPhoto (hu : .unsign ∈ ks) (he : .erase ∈ ks) (staffId : Nat) (key : PhotoKey) :
    Steady (Among (.session :: ks)) false (rejectPhoto staffId key : Prg α) :=
  (steady_session fun _ => within_rejectIn hu _ _).bind fun _ =>
    (steady_deleteEach (List.mem_cons_of_mem _ he) _).bind fun _ => steady_raise _

theorem steady_checkUpload (hu : .unsign ∈ ks) (he : .erase ∈ ks) (staffId : Nat) (key : PhotoKey) (type : String) :
    Steady (Among (.session :: ks)) false (checkUpload staffId key type) := by
  refine (steady_question _ rfl).bind fun answer => (steady_liftMedia _).bind fun found => (steady_orRaise _ _).bind fun head => ?_
  split
  · exact steady_rejectPhoto hu he _ _
  · refine (steady_question _ rfl).bind fun answer => (steady_liftMedia _).bind fun start => ?_
    split
    · exact steady_rejectPhoto hu he _ _
    · exact steady_ret _

theorem within_promoteIn (staffId actorId : Nat) (key : PhotoKey) :
    Within (Among [.promote, .note]) l (promoteIn staffId actorId key) := by
  refine within_staffLock (Steady.within ?_)
  refine (steady_query _ _).bind fun found => (steady_orRaise _ _).bind fun current => ?_
  split
  · exact steady_ret _
  · refine steady_clock.bind fun at_ => Steady.bind ?_ fun promoted => ?_
    · refine (steady_locked rfl (by decide) _).bind fun wrote => ?_
      split
      · exact steady_ret _
      · exact steady_query _ _
    · cases promoted with
      | none => exact steady_ret _
      | some row => exact (steady_record (by simp [AuditAction.kind]) _ _).bind fun _ => steady_ret _

theorem within_confirmPhoto (staffId actorId : Nat) :
    Within (Among [.session, .unsign, .promote, .note, .erase]) false (confirmPhoto staffId actorId) := by
  refine Steady.then_ (steady_question _ rfl) fun configured => Steady.then_ (steady_raiseIf _ _) fun _ => ?_
  refine Steady.then_ (steady_session fun n =>
    ((steady_query _ _).bind fun found => steady_orRaise _ _).within) fun target => ?_
  split
  · refine Steady.then_ (steady_checkUpload (by decide) (by decide) _ _ _) fun _ => ?_
    exact Steady.then_ (steady_session fun n => (within_promoteIn _ _ _).mono fun _ _ ho => ho.mono (by decide)) fun _ =>
      ((steady_deleteEach (by decide) _).bind fun _ => steady_ret _).within
  · trivial

theorem within_deletePhotoIn (staffId actorId : Nat) :
    Within (Among [.clear, .note]) l (deletePhotoIn staffId actorId) := by
  refine within_staffLock (Steady.within ?_)
  refine (steady_query _ _).bind fun found => (steady_orRaise _ _).bind fun target => Steady.bind ?_ fun updated => ?_
  · refine (steady_locked rfl (by decide) _).bind fun wrote => ?_
    split
    · exact steady_ret _
    · exact steady_query _ _
  · exact (steady_orRaise _ _).bind fun cleared => (steady_record (by simp [AuditAction.kind]) _ _).bind fun _ => steady_ret _

theorem within_deletePhoto (staffId actorId : Nat) :
    Within (Among [.session, .clear, .note, .erase]) false (deletePhoto staffId actorId) := by
  refine Steady.then_ (steady_question _ rfl) fun configured => Steady.then_ (steady_raiseIf _ _) fun _ => ?_
  exact Steady.then_ (steady_session fun n => (within_deletePhotoIn _ _).mono fun _ _ ho => ho.mono (by decide)) fun _ =>
    ((steady_deleteEach (by decide) _).bind fun _ => steady_ret _).within

theorem within_postPhoto (key : PhotoKey) (contentType : String) (body : List UInt8) :
    Within (Among []) false (postPhoto key contentType body) :=
  ((steady_question _ rfl).bind fun _ => steady_ret _).within

/-- **How an alert goes on**: it does not open again, and once it is not open its owner stands. -/
structure Onward (a a' : SosAlert) : Prop where
  raisedBy : a'.raisedBy = a.raisedBy
  deletedAt : a'.deletedAt = a.deletedAt
  left : a.status ≠ .open_ → a'.status ≠ .open_
  owner : a.status ≠ .open_ → a'.acceptedBy = a.acceptedBy ∧ a'.acknowledgedAt = a.acknowledgedAt

theorem within_startBreak (staffId : Nat) (actor : StaffContext) :
    Within (Among [.session, .breaks, .note]) false (startBreak staffId actor) := by
  refine Steady.then_ (steady_raiseIf _ _) fun _ => Steady.then_ steady_clock fun at_ =>
    (steady_session fun n => Steady.within ?_).within
  refine Steady.bind ((steady_free rfl (by decide) rfl _).bind fun _ => (steady_query _ _).bind fun _ =>
    steady_ret _) ?_
  rintro ⟨wrote, row⟩
  refine (steady_orRaise _ _).bind fun row => ?_
  split
  · exact (steady_record (by simp [AuditAction.kind]) _ _).bind fun _ => steady_ret _
  · exact steady_ret _

theorem within_endBreak (staffId : Nat) (actor : StaffContext) :
    Within (Among [.session, .breaks, .breakNote]) false (endBreak staffId actor) := by
  refine Steady.then_ (steady_raiseIf _ _) fun _ => (steady_session fun n => Steady.within ?_).within
  refine (steady_query _ _).bind fun before => ?_
  refine Steady.bind ((steady_free rfl (by decide) rfl _).bind fun _ => (steady_query _ _).bind fun _ =>
    steady_ret _) ?_
  rintro ⟨wrote, row⟩
  refine (steady_orRaise _ _).bind fun row => ?_
  split
  · exact (steady_record (by simp [AuditAction.kind]) _ _).bind fun _ => steady_ret _
  · exact steady_ret _

theorem steady_sosView (alertId : Nat) : Steady (Among ks) l (sosView alertId) :=
  (steady_query _ _).bind fun _ => steady_orRaise _ _

theorem steady_sosAnswer (alertId : Nat) : Steady (Among ks) l (sosAnswer alertId) :=
  (steady_sosView _).bind fun _ => steady_ret _

theorem steady_nameOf (staffId : Option Nat) : Steady (Among ks) l (nameOf staffId) := by
  cases staffId with
  | none => exact steady_ret _
  | some i => exact (steady_query _ _).bind fun _ => steady_ret _

theorem steady_visibleAlert (alertId : Nat) (actor : StaffContext) : Steady (Among ks) l (visibleAlert alertId actor) :=
  (steady_query _ _).bind fun _ => (steady_orRaise _ _).bind fun _ => (steady_raiseIf _ _).bind fun _ => steady_ret _

theorem kind_alertUpdate (g : SosAlertChange) (i : Nat) :
    kind (.sql (.update .sosAlerts i g)) = kind (.sql (.update .sosAlerts 0 g)) := by
  cases g with
  | accept actorId at_ => rfl
  | close to_ => cases to_ <;> rfl

theorem steady_alert {g : SosAlertChange} (h : kind (.sql (.update .sosAlerts 0 g)) = some k) (hk : k ∈ ks)
    (hl : k.locked = false) (i : Nat) : Steady (Among ks) l (do
      let wrote ← update .sosAlerts i g
      let refreshed ← SosAlerts.byId i
      return (Option.isSome wrote, refreshed) : Prg (Bool × Option SosAlert)) := by
  refine Steady.bind (steady_update (among_kind ((kind_alertUpdate g i).trans h) hk hl) _) fun _ =>
    (steady_query _ _).bind fun _ => steady_ret _

theorem steady_ownAssignment (assignment : Option Nat) (actorId : Nat) :
    Steady (Among ks) l (ownAssignment assignment actorId) := by
  cases assignment with
  | none => exact steady_ret _
  | some i => exact (steady_question _ rfl).bind fun _ => steady_ret _

theorem steady_reachableTarget (target : Option Nat) (at_ : Int) : Steady (Among ks) l (reachableTarget target at_) := by
  cases target with
  | none => exact steady_ret _
  | some i =>
    refine (steady_query _ _).bind fun row => ?_
    cases row with
    | none => exact steady_ret _
    | some row => exact (steady_query _ _).bind fun _ => steady_ret _

theorem steady_notifyTarget (hn : .note ∈ ks) (target : Option Nat) (actorId alertId : Nat) :
    Steady (Among ks) l (notifyTarget target actorId alertId) := by
  cases target with
  | none => exact steady_ret _
  | some i => exact (steady_insert (among_kind rfl hn rfl) _).bind fun _ => steady_ret _

theorem within_raiseSos (target assignment : Option Nat) (note : Option String) (actor : StaffContext) :
    Within (Among [.session, .raise, .note]) false (raiseSos target assignment note actor) := by
  refine Steady.then_ (steady_liftExcept _) fun note => Steady.then_ (steady_raiseIf _ _) fun _ => ?_
  refine Steady.then_ steady_clock fun at_ => (steady_session fun n => Steady.within ?_).within
  refine (steady_ownAssignment _ _).bind fun assignmentId => (steady_reachableTarget _ _).bind fun targetId => ?_
  refine Steady.bind (steady_insert (among_kind rfl (by decide) rfl) _) fun alert => ?_
  refine (steady_record (by simp [AuditAction.kind]) _ _).bind fun _ => ?_
  exact (steady_notifyTarget (by decide) _ _ _).bind fun _ => (steady_sosView _).bind fun _ => steady_ret _

theorem within_acceptSos (alertId : Nat) (actor : StaffContext) :
    Within (Among [.session, .accept, .acceptNote]) false (acceptSos alertId actor) := by
  refine Steady.then_ steady_clock fun at_ => (steady_session fun n => Steady.within ?_).within
  refine (steady_visibleAlert _ _).bind fun row => (steady_raiseIf _ _).bind fun _ => ?_
  split
  · exact steady_sosAnswer _
  · refine Steady.bind (steady_alert rfl (by decide) rfl _) ?_
    rintro ⟨wrote, after⟩
    dsimp only
    split
    · exact (steady_record (by simp [AuditAction.kind]) _ _).bind fun _ => (steady_raiseIf _ _).bind fun _ =>
        steady_sosAnswer _
    · refine (steady_orRaise _ _).bind fun row => ?_
      unfold refuseAccept
      split
      · exact steady_raise _
      · exact steady_raise _
      · exact (steady_nameOf _).bind fun _ => steady_raise _
      · exact steady_raise _

theorem within_resolveSos (alertId : Nat) (actor : StaffContext) :
    Within (Among [.session, .close, .resolveNote]) false (resolveSos alertId actor) := by
  refine (steady_session fun n => Steady.within ?_).within
  refine (steady_visibleAlert _ _).bind fun row => (steady_raiseIf _ _).bind fun _ => ?_
  refine Steady.bind (steady_alert rfl (by decide) rfl _) ?_
  rintro ⟨wrote, after⟩
  dsimp only
  split
  · exact (steady_record (by simp [AuditAction.kind]) _ _).bind fun _ => steady_sosAnswer _
  · refine (steady_orRaise _ _).bind fun row => ?_
    unfold explainResolve
    split
    · exact steady_sosAnswer _
    · exact steady_raise _

theorem within_cancelSos (alertId : Nat) (actor : StaffContext) :
    Within (Among [.session, .close, .note]) false (cancelSos alertId actor) := by
  refine (steady_session fun n => Steady.within ?_).within
  refine (steady_visibleAlert _ _).bind fun row => (steady_raiseIf _ _).bind fun _ => ?_
  refine Steady.bind (steady_alert rfl (by decide) rfl _) ?_
  rintro ⟨wrote, after⟩
  dsimp only
  split
  · exact (steady_record (by simp [AuditAction.kind]) _ _).bind fun _ => steady_sosAnswer _
  · refine (steady_orRaise _ _).bind fun row => ?_
    unfold explainCancel
    split
    · exact (steady_nameOf _).bind fun _ => steady_raise _
    · exact steady_sosAnswer _
    · exact steady_sosAnswer _
    · exact steady_raise _

end Verbs

def Request.kinds : Request → List Kind
  | .create .. => [.session, .hire, .note]
  | .update .. => [.session, .edit, .revoke, .note]
  | .deactivate .. => [.session, .leave, .note, .erase]
  | .presignPhoto .. => [.session, .pending, .unsign, .note, .erase]
  | .confirmPhoto .. => [.session, .unsign, .promote, .note, .erase]
  | .deletePhoto .. => [.session, .clear, .note, .erase]
  | .postPhoto .. => []
  | .startBreak .. => [.session, .breaks, .note]
  | .endBreak .. => [.session, .breaks, .breakNote]
  | .raiseSos .. => [.session, .raise, .note]
  | .acceptSos .. => [.session, .accept, .acceptNote]
  | .resolveSos .. => [.session, .close, .resolveNote]
  | .cancelSos .. => [.session, .close, .note]

theorem within_request (cfg : Config) (request : Request) : Within (Among request.kinds) false (request.code cfg) := by
  cases request with
  | create email displayName role password phone startDate eligible actor => exact within_create _ _ _ _ _ _ _ _ _
  | update staffId patch acting actor => exact within_updateStaff _ _ _ _
  | deactivate staffId lastDay actor => exact within_deactivate _ _ _ _
  | presignPhoto staffId contentType byteSize actorId => exact within_presignPhoto _ _ _ _
  | confirmPhoto staffId actorId => exact within_confirmPhoto _ _
  | deletePhoto staffId actorId => exact within_deletePhoto _ _
  | postPhoto key contentType body => exact within_postPhoto _ _ _
  | startBreak staffId actor => exact within_startBreak _ _
  | endBreak staffId actor => exact within_endBreak _ _
  | raiseSos target assignment note actor => exact within_raiseSos _ _ _ _
  | acceptSos alertId actor => exact within_acceptSos _ _
  | resolveSos alertId actor => exact within_resolveSos _ _
  | cancelSos alertId actor => exact within_cancelSos _ _

/-! ## The discipline -/

def goesOn (l : Bool) : (T : Table) → Row T → Row T → Prop
  | .staffUsers, (r : StaffUser), (r' : StaffUser) => Stays l r r'
  | .sosAlerts, (a : SosAlert), (a' : SosAlert) => Onward a a'
  | _, _, _ => True

theorem Stays.trans {r'' : StaffUser} (h : Stays l r r') (h' : Stays l r' r'') : Stays l r r'' := by
  refine ⟨fun hr => ?_, fun hl => (h'.role hl).trans (h.role hl), fun hl => (h'.account hl).trans (h.account hl),
    fun hl => ?_, fun hl => ?_⟩
  · rw [h'.left (by rw [h.left hr]; exact hr), h.left hr]
  · exact ⟨(h'.photo hl).1.trans (h.photo hl).1, (h'.photo hl).2.trans (h.photo hl).2⟩
  · rcases h'.pending hl with hnone | ⟨hkey, htype⟩
    · exact .inl hnone
    · rw [hkey, htype]
      exact h.pending hl

theorem Onward.trans {a a' a'' : SosAlert} (h : Onward a a') (h' : Onward a' a'') : Onward a a'' := by
  refine ⟨h'.raisedBy.trans h.raisedBy, h'.deletedAt.trans h.deletedAt, fun ha => h'.left (h.left ha), fun ha => ?_⟩
  obtain ⟨howner, hat⟩ := h.owner ha
  obtain ⟨howner', hat'⟩ := h'.owner (h.left ha)
  exact ⟨howner'.trans howner, hat'.trans hat⟩

abbrev conduct : Discipline schema where
  Trans l T r r' := goesOn l T r r'
  New _ _ _ := True
  refl l T r := by
    cases T with
    | staffUsers => exact ⟨fun _ => rfl, fun _ => rfl, fun _ => rfl, fun _ => ⟨rfl, rfl⟩, fun _ => .inr ⟨rfl, rfl⟩⟩
    | sosAlerts => exact ⟨rfl, rfl, id, fun _ => ⟨rfl, rfl⟩⟩
    | sessions | auditLog | notifications => trivial
  trans l T a b c hab hbc := by
    cases T with
    | staffUsers => exact Stays.trans hab hbc
    | sosAlerts => exact Onward.trans hab hbc
    | sessions | auditLog | notifications => trivial
  weaken T r r' h := by
    cases T with
    | staffUsers =>
      have h : Stays false r r' := h
      exact ⟨h.left, (fun hl => by cases hl), (fun hl => by cases hl), (fun hl => by cases hl), fun hl => by cases hl⟩
    | sosAlerts => exact h
    | sessions | auditLog | notifications => trivial
  new_trans _ _ _ _ _ _ := trivial
  new_weaken _ _ _ := trivial

theorem stays_free (h : StaffUserChange.apply r g = some r') (hk : kind (.sql (.update .staffUsers 0 g)) = some k)
    (hl : k.locked = false) : Stays l r r' := by
  cases g with
  | startBreak at_ =>
    simp only [StaffUserChange.apply] at h
    split at h <;> cases h
    exact ⟨fun _ => rfl, fun _ => rfl, fun _ => rfl, fun _ => ⟨rfl, rfl⟩, fun _ => .inr ⟨rfl, rfl⟩⟩
  | endBreak =>
    simp only [StaffUserChange.apply] at h
    split at h <;> cases h
    exact ⟨fun _ => rfl, fun _ => rfl, fun _ => rfl, fun _ => ⟨rfl, rfl⟩, fun _ => .inr ⟨rfl, rfl⟩⟩
  | setPendingPhoto storageKey contentType at_ =>
    simp only [StaffUserChange.apply] at h
    split at h <;> cases h
    refine ⟨fun _ => rfl, fun _ => rfl, fun _ => rfl, fun _ => ⟨rfl, rfl⟩, fun _ => .inl ?_⟩
    cases storageKey <;> cases contentType <;> cases at_ <;> cases hk <;> cases hl
    rfl
  | flush | promotePendingPhoto | clearPhoto | softDelete | resetPassword =>
    cases hk
    cases hl

theorem stays_locked (h : StaffUserChange.apply r g = some r') : Stays true r r' := by
  refine ⟨fun hr => ?_, (fun hl => by cases hl), (fun hl => by cases hl), (fun hl => by cases hl), fun hl => by cases hl⟩
  cases g <;> simp only [StaffUserChange.apply] at h
  case flush =>
    cases h
    rfl
  case softDelete =>
    split at h <;> cases h
    rename_i hlive
    exact absurd (by simpa [StaffUser.live] using hlive) hr
  all_goals (split at h <;> cases h)
  all_goals rfl

theorem onward_apply {g : SosAlertChange} {a a' : SosAlert} (h : SosAlertChange.apply a g = some a')
    (hk : kind (.sql (.update .sosAlerts 0 g)) ≠ some .reopen) : Onward a a' := by
  cases g with
  | accept actorId at_ =>
    simp only [SosAlertChange.apply] at h
    split at h <;> cases h
    rename_i hopen
    exact ⟨rfl, rfl, fun hs => absurd hopen.1 hs, fun hs => absurd hopen.1 hs⟩
  | close to_ =>
    simp only [SosAlertChange.apply] at h
    split at h <;> cases h
    refine ⟨rfl, rfl, fun _ => ?_, fun _ => ⟨rfl, rfl⟩⟩
    rintro rfl
    exact hk rfl

def verbs : List Kind :=
  [.session, .hire, .edit, .breaks, .pending, .unsign, .promote, .clear, .leave, .revoke, .raise, .accept, .close, .note,
    .breakNote, .acceptNote, .resolveNote, .erase]

theorem legal_verbs (l : Bool) (o : Op schema outside) (h : Among verbs l o) : conduct.Legal l o := by
  cases o with
  | sql o =>
    cases o with
    | update T i g =>
      intro v r _ hr
      cases T with
      | staffUsers =>
        obtain ⟨k, hk⟩ := kind_update .staffUsers i g
        cases hl : k.locked with
        | false => exact stays_free hr ((kind_staffUpdate g i).symm.trans hk) hl
        | true =>
          have hheld : l = true := (h k hk).2 hl
          rw [hheld]
          exact stays_locked hr
      | sosAlerts =>
        refine onward_apply hr fun hk => ?_
        exact absurd (h _ ((kind_alertUpdate g i).trans hk)).1 (by decide)
      | sessions | auditLog | notifications => trivial
    | insert T r => exact fun _ _ => trivial
    | _ => trivial
  | now | ask => trivial

/-- **A stretch that writes nothing** keeps what is said of what its thread has in flight. -/
theorem reads_bind {α β : Type} {C : Contract conduct.shared outside Err} {t : Tid} {w : World schema outside}
    {Q : Except Err β → World schema outside → Prop} {p : Prg α} {k : α → Prg β} (hC : C.Historic fun _ => true)
    (Φ : Engine schema → Prop) (hevolve : ∀ e e', e.Evolves conduct.shared t e' → Φ e → Φ e')
    (hsame : ∀ e e', e'.log = e.log → e'.committed = e.committed → e'.pending t = e.pending t → Φ e → Φ e')
    (hp : Within (Among [.erase]) false p) (h : Φ w.db) (herr : ∀ e w', Φ w'.db → Q (.error e) w')
    (hk : ∀ a w', Φ w'.db → C.Ensures t (k a) Q w') : C.Ensures t (p >>= k) Q w := by
  refine Contract.ensures_bind (Contract.ensures_mono (fun x w' hx => ?_) (Contract.ensures_of_uses (fun _ w => Φ w.db)
    (fun _ _ _ hev h => hevolve _ _ hev.db h) (fun l o w i r w' ho hL hI h he hL' hA => ?_) hp h))
  · obtain ⟨-, -, hx⟩ := hx
    cases x with
    | ok a => exact hk a w' hx
    | error e => exact herr e w' hx
  · have hspares := ho.sparing
    have hlog := World.exec_log hspares.not_commit he
    exact ⟨hC.exec hspares.not_commit (fun _ _ => rfl) he hI,
      hsame _ _ hlog.1 hlog.2 (funext fun T => hspares.pending he trivial) h⟩

abbrev serving (cfg : Config) (reqs : Tid → Request) (out : Store) (rows : Rows schema) (next : Nat) (clock : Int) :
    Conf (machine schema outside Err) Response :=
  staged (V := outside) out (fun t => (reqs t).code cfg) rows next clock

theorem serving_obeyed {cfg : Config} {reqs : Tid → Request} {out : Store} {rows : Rows schema} {next : Nat} {clock : Int}
    (h : Shelved rows next) : Cast.Obeyed conduct.shared (serving cfg reqs out rows next clock) := by
  refine ⟨atRest_lawful h _, fun t p hp => ?_⟩
  cases hp
  refine ⟨false, (fun h => by cases h), uses_mono (fun l o ho => legal_verbs l o (ho.mono ?_)) (fun _ _ h => h)
    (within_request cfg (reqs t))⟩
  cases reqs t <;> simp [Request.kinds, verbs]

end Staff

import Boutique.Dresses
import Boutique.TxnGuard
import Boutique.TxnOutside
/-!
# Upkeep — what each request of the catalogue writes

The photos of a dress are written with its media lock and its sizes are replaced with the other; archiving and restoring write
both without.  What a photo was presigned as never changes, and a photo shown is not made pending again.
-/
namespace Catalog

open Txn Session
open Staff (MediaFailure)

variable {cfg : Config} {reqs : Tid → Request} {r : Request} {l : Bool} {o : Op schema outside} {dressId mediaId actorId : Nat}

/-! ## The writes -/

def plain : Op schema outside → Bool
  | .sql (.update ..) | .sql (.insert ..) => false
  | _ => true

/-- **What a request writes**, `l` saying whether it holds the lock that the run watches. -/
inductive Writes (cfg : Config) : Request → Bool → Op schema outside → Prop
  | create (l : Bool) (fields : DressFields) (actorId : Nat) (row : Dress) (h : row.deletedAt = none) :
    Writes cfg (.createDress fields actorId) l (.sql (.insert .dresses row))
  | flush (l : Bool) (dressId : Nat) (fields : DressFields) (actorId : Nat) :
    Writes cfg (.updateDress dressId fields actorId) l (.sql (.update .dresses dressId (.flush fields)))
  | archivePhoto (l : Bool) (dressId actorId i : Nat) (now : Int) :
    Writes cfg (.archiveDress dressId actorId) l (.sql (.update .dressMedia i (.softDelete dressId now)))
  | archiveSize (l : Bool) (dressId actorId i : Nat) (now : Int) :
    Writes cfg (.archiveDress dressId actorId) l (.sql (.update .dressVariants i (.softDelete dressId now)))
  | archive (l : Bool) (dressId actorId : Nat) (now : Int) :
    Writes cfg (.archiveDress dressId actorId) l (.sql (.update .dresses dressId (.softDelete now)))
  | restoreSize (l : Bool) (dressId actorId i : Nat) (archivedAt : Int) :
    Writes cfg (.restoreDress dressId actorId) l (.sql (.update .dressVariants i (.restoreArchivedWith dressId archivedAt)))
  | restorePhoto (l : Bool) (dressId actorId i : Nat) (archivedAt : Int) :
    Writes cfg (.restoreDress dressId actorId) l (.sql (.update .dressMedia i (.restoreArchivedWith dressId archivedAt)))
  | restore (l : Bool) (dressId actorId : Nat) :
    Writes cfg (.restoreDress dressId actorId) l (.sql (.update .dresses dressId .restore))
  | retire (l : Bool) (dressId : Nat) (variants : List VariantInput) (actorId i : Nat) (now : Int)
      (h : cfg.watched = .variants dressId → l = true) :
    Writes cfg (.replaceVariants dressId variants actorId) l (.sql (.update .dressVariants i (.softDelete dressId now)))
  | size (l : Bool) (dressId : Nat) (variants : List VariantInput) (actorId : Nat) (row : DressVariant)
      (h : cfg.watched = .variants dressId → l = true) (hrow : row.dressId = dressId) :
    Writes cfg (.replaceVariants dressId variants actorId) l (.sql (.insert .dressVariants row))
  | sweep (l : Bool) (dressId : Nat) (contentType : String) (byteSize : Int) (actorId i : Nat) (staleBefore now : Int)
      (h : cfg.watched = .media dressId → l = true) :
    Writes cfg (.presignMedia dressId contentType byteSize actorId) l (.sql (.update .dressMedia i (.sweep dressId staleBefore now)))
  | pending (l : Bool) (dressId : Nat) (contentType : String) (byteSize : Int) (actorId : Nat) (row : DressMedia)
      (h : cfg.watched = .media dressId → l = true) (hrow : row.dressId = dressId) (hstatus : row.status = .pending) :
    Writes cfg (.presignMedia dressId contentType byteSize actorId) l (.sql (.insert .dressMedia row))
  | release (l : Bool) (dressId : Nat) (contentType : String) (byteSize : Int) (actorId i : Nat) (now : Int)
      (h : cfg.watched = .media dressId → l = true) :
    Writes cfg (.presignMedia dressId contentType byteSize actorId) l (.sql (.update .dressMedia i (.softDelete dressId now)))
  | promote (l : Bool) (dressId mediaId actorId : Nat) (sortOrder : Int) (h : cfg.watched = .media dressId → l = true) :
    Writes cfg (.confirmMedia dressId mediaId actorId) l (.sql (.update .dressMedia mediaId (.promoteToReady dressId sortOrder)))
  | drop (l : Bool) (dressId mediaId actorId : Nat) (now : Int) (h : cfg.watched = .media dressId → l = true) :
    Writes cfg (.deleteMedia dressId mediaId actorId) l (.sql (.update .dressMedia mediaId (.softDelete dressId now)))
  | place (l : Bool) (dressId : Nat) (mediaIds : List Nat) (actorId i : Nat) (sortOrder : Int)
      (h : cfg.watched = .media dressId → l = true) :
    Writes cfg (.reorderMedia dressId mediaIds actorId) l (.sql (.update .dressMedia i (.setSortOrder dressId sortOrder)))
  | reserve (l : Bool) (dressId : Nat) (startsOn endsOn : Int) (customerId : Option Nat) (notes : Option String) (actorId : Nat)
      (row : DressReservation) (h : cfg.watched = .tenant → l = true) :
    Writes cfg (.createReservation dressId startsOn endsOn customerId notes actorId) l (.sql (.insert .dressReservations row))
  | free (l : Bool) (dressId reservationId actorId : Nat) (now : Int) :
    Writes cfg (.deleteReservation dressId reservationId actorId) l
      (.sql (.update .dressReservations reservationId (.softDelete dressId now)))
  | note (l : Bool) (r : Request) (row : AuditLog) : Writes cfg r l (.sql (.insert .auditLog row))

theorem Writes.locked (h : Writes cfg r false o) : Writes cfg r true o := by
  cases h <;> constructor <;> first | assumption | exact fun _ => rfl

def Acts (cfg : Config) (r : Request) (l : Bool) (o : Op schema outside) : Prop := plain o = true ∨ Writes cfg r l o

/-! ## The requests, one by one -/

variable {T : Table} {g : DressMediaChange} {v : DressMedia} {E : Discipline schema}
  {hE : ∀ t l (o : Op schema outside), Writes cfg (reqs t) l o → E.Legal l o}

section Requests

variable {α β : Type}

def Body (cfg : Config) (r : Request) (l : Bool) (o : Op schema outside) : Prop := Acts cfg r l o ∧ o.inner = true

/-- **What a request does**: it writes what it may, with the lock it needs, and asks outside between its transactions. -/
structure Served (cfg : Config) (r : Request) (p : Prg α) : Prop where
  steady : Steady (Acts cfg r) false p
  orderly : Orderly p

theorem Served.within {p : Prg α} (h : Served cfg r p) : Within (Acts cfg r) false p := h.steady.within

theorem served_ret (a : α) : Served cfg r (.ret a) := ⟨rfl, rfl⟩

theorem served_raise (e : Err) : Served cfg r (.raise e : Prg α) := ⟨rfl, rfl⟩

theorem Served.bind {p : Prg α} {f : α → Prg β} (h : Served cfg r p) (hf : ∀ a, Served cfg r (f a)) : Served cfg r (p >>= f) :=
  ⟨h.steady.bind fun a => (hf a).steady, orderly_bind h.orderly fun a => (hf a).orderly⟩

theorem Served.attempt {p : Prg α} (h : Served cfg r p) : Served cfg r (p.attempt : Prg (Except Err α)) :=
  ⟨h.steady.attempt, orderly_attempt h.orderly⟩

theorem served_raiseIf (c : Bool) (e : Err) : Served cfg r (raiseIf c e) := ⟨steady_raiseIf c e, orderly_raiseIf c e⟩

theorem served_orRaise (x : Option α) (e : Err) : Served cfg r (orRaise x e) := ⟨steady_orRaise x e, orderly_orRaise x e⟩

theorem served_question (q : Ask) : Served cfg r (ask q) := ⟨steady_ask (.inl rfl), orderly_ask (V := outside) q⟩

theorem served_liftExcept (x : Except Err α) : Served cfg r (liftExcept x) := by
  cases x <;> exact ⟨rfl, rfl⟩

theorem served_liftMedia (x : Except MediaFailure α) : Served cfg r (liftMedia x) := by
  cases x <;> exact ⟨rfl, rfl⟩

theorem served_session {body : Int → Prg α} (h : ∀ n, Within (Body cfg r) false (body n)) :
    Served cfg r (tenantSession body) :=
  ⟨steady_tenantSession (fun _ => .inl rfl) (fun _ => .inl rfl) (fun _ => .inl rfl) fun n => (h n).mono fun _ _ ho => ho.1,
    orderly_session fun n => (h n).mono fun _ _ ho => ho.2⟩

theorem steady_query (q : Query) (f : Snapshot schema → α) : Steady (Body cfg r) l (select q f : Prg α) := steady_select ⟨.inl rfl, rfl⟩ f

theorem steady_write {i : Nat} {g : Change T} (h : Writes cfg r l (.sql (.update T i g))) :
    Steady (Body cfg r) l (update T i g) := steady_update ⟨.inr h, rfl⟩ _

theorem steady_add {row : Row T} (h : Writes cfg r l (.sql (.insert T row))) :
    Steady (Body cfg r) l (insert T row) := steady_insert ⟨.inr h, rfl⟩ _

theorem steady_writeEach {g : Change T} (h : ∀ i, Writes cfg r l (.sql (.update T i g))) (ids : List Nat) :
    Steady (Body cfg r) l (updateEach T g ids) := steady_updateEach (fun i => ⟨.inr (h i), rfl⟩) _ ids

theorem steady_record (actorId entity : Nat) (action : AuditAction) : Steady (Body cfg r) l (record actorId entity action) :=
  (steady_add (.note _ _ _)).bind fun _ => steady_ret _

theorem steady_liftExcept (x : Except Err α) : Steady (Body cfg r) l (liftExcept x) := by
  cases x <;> rfl

theorem within_advisory {key : LockKey} {k : Unit → Prg α}
    (h : ∀ l', (cfg.watched = key → l' = true) → Within (Body cfg r) l' (k ())) :
    Within (Body cfg r) l (advisoryLock cfg key >>= k) := by
  unfold advisoryLock
  split
  · exact within_lock ⟨.inl rfl, rfl⟩ (h true fun _ => rfl)
  · rename_i hkey
    exact h l fun hk => absurd hk hkey

theorem steady_byId (dressId : Nat) : Steady (Body cfg r) l (Dresses.byId dressId) := steady_query _ _

theorem served_signMedia (row : DressMedia) : Served cfg r (signMedia row) := by
  unfold signMedia
  refine (served_question _).bind fun configured => ?_
  split
  · exact (served_question _).bind fun answer => served_ret _
  · exact served_ret _

theorem served_signEach : ∀ rows : List DressMedia, Served cfg r (signEach rows)
  | [] => served_ret _
  | row :: rows => (served_signMedia row).bind fun _ => (served_signEach rows).bind fun _ => served_ret _

theorem served_detailView (dressId : Nat) (includeArchived : Bool) :
    Served cfg r (detailView cfg dressId includeArchived) := by
  unfold detailView
  refine (served_session fun n => Steady.within ?_).bind fun rows => (served_signEach _).bind fun media =>
    (served_question _).bind fun configured => served_ret _
  unfold loadDetail
  have hrest (found : Option Dress) : Steady (Body cfg r) false (do
      let dress ← orRaise found .catalogNotFound
      let aggregates ← Variants.aggregateByDress [dressId]
      let variants ← Variants.listActive dressId
      let media ← Media.listReady dressId
      let activeMedia ← Media.countActive dressId (n - cfg.pendingTtl)
      return (⟨dress, variants, media, (aggregates dressId).getD emptyAggregate, activeMedia⟩ : DetailRows)) :=
    (steady_orRaise _ _).bind fun dress => (steady_query _ _).bind fun aggregate => (steady_query _ _).bind fun variants =>
      (steady_query _ _).bind fun media => (steady_query _ _).bind fun active => steady_ret _
  cases includeArchived with
  | true => exact (steady_query _ _).bind hrest
  | false => exact (steady_query _ _).bind hrest

theorem steady_aggregateByDress (dressIds : List Nat) : Steady (Body cfg r) l (Variants.aggregateByDress dressIds) := by
  cases dressIds with
  | nil => exact steady_ret _
  | cons dressId dressIds => exact steady_query _ _

theorem steady_coversByDress (dressIds : List Nat) : Steady (Body cfg r) l (Media.coversByDress dressIds) := by
  cases dressIds with
  | nil => exact steady_ret _
  | cons dressId dressIds => exact steady_query _ _

theorem served_signCover (cover : Option MediaCover) : Served cfg r (signCover cover) := by
  cases cover with
  | none => exact served_ret _
  | some cover => exact (served_signMedia cover.row).bind fun _ => served_ret _

theorem served_viewEach (aggregates : Nat → Option VariantAggregate) (covers : Nat → Option MediaCover) :
    ∀ rows : List Dress, Served cfg r (viewEach aggregates covers rows)
  | [] => served_ret _
  | _ :: rows => (served_signCover _).bind fun _ => (served_question _).bind fun _ =>
    (served_viewEach aggregates covers rows).bind fun _ => served_ret _

theorem served_listDresses (archived : Bool) (search : Option String) (offset limit : Int) :
    Served cfg r (listDresses cfg archived search offset limit) := by
  refine (served_liftExcept _).bind fun _ => (served_session fun n => Steady.within ?_).bind fun page =>
    (served_viewEach _ _ _).bind fun items => served_ret _
  exact (steady_query _ _).bind fun rows => (steady_query _ _).bind fun total => (steady_aggregateByDress _).bind fun aggregates =>
    (steady_coversByDress _).bind fun covers => steady_ret _

theorem served_bestEffortDelete (key : MediaKey) : Served cfg r (bestEffortDelete key) :=
  (served_question _).bind fun _ => served_ret _

theorem served_deleteEach : ∀ keys : List MediaKey, Served cfg r (deleteEach keys)
  | [] => served_ret _
  | key :: keys => (served_bestEffortDelete key).bind fun _ => served_deleteEach keys

theorem within_createIn (fields : DressFields) (actorId : Nat) :
    Within (Body cfg (.createDress fields actorId)) false (do
      let row ← insert .dresses (⟨0, 0, none, fields.name, fields.description, fields.priceAgorot, fields.priceVisible,
        fields.reserved, fields.sortOrder⟩ : Dress)
      record actorId (Dress.id row) (.dressCreated (Dress.name row) (Dress.priceVisible row))
      return row) :=
  ((steady_add (.create _ _ _ _ rfl)).bind fun _ => (steady_record _ _ _).bind fun _ => steady_ret _).within

theorem within_updateFields (dressId : Nat) (fields : DressFields) (actorId : Nat) :
    Within (Body cfg (.updateDress dressId fields actorId)) false (do
      let updated ← Dresses.updateFields dressId fields
      raiseIf updated.isNone .catalogNotFound
      record actorId dressId (.dressUpdated fields.name fields.priceVisible fields.reserved)) := by
  refine Steady.within (Steady.bind ?_ fun updated => (steady_raiseIf _ _).bind fun _ => steady_record _ _ _)
  refine (steady_query _ _).bind fun row => ?_
  split
  · exact steady_ret _
  · split
    · exact steady_query _ _
    · exact (steady_write (.flush _ _ _ _)).bind fun flushed => (steady_raiseIf _ _).bind fun _ => steady_query _ _

theorem within_archiveIn (dressId actorId : Nat) (txNow : Int) :
    Within (Body cfg (.archiveDress dressId actorId)) false (archiveIn dressId actorId txNow) := by
  refine Steady.within ((steady_byId _).bind fun found => (steady_orRaise _ _).bind fun dress => Steady.bind ?_ fun _ =>
    Steady.bind ?_ fun _ => Steady.bind ?_ fun _ => steady_record _ _ _)
  · exact (steady_query _ _).bind fun ids => (steady_writeEach (fun i => .archivePhoto _ _ _ i _) ids).bind fun _ => steady_ret _
  · exact (steady_query _ _).bind fun ids => (steady_writeEach (fun i => .archiveSize _ _ _ i _) ids).bind fun _ => steady_ret _
  · exact (steady_write (.archive _ _ _ _)).bind fun _ => steady_ret _

theorem within_restoreIn (dressId actorId : Nat) :
    Within (Body cfg (.restoreDress dressId actorId)) false (restoreIn dressId actorId) := by
  refine Steady.within ((steady_query _ _).bind fun found => (steady_orRaise _ _).bind fun dress =>
    (steady_orRaise _ _).bind fun archivedAt => Steady.bind ?_ fun _ => Steady.bind ?_ fun _ => Steady.bind ?_ fun _ =>
      steady_record _ _ _)
  · exact (steady_query _ _).bind fun ids => (steady_writeEach (fun i => .restoreSize _ _ _ i _) ids).bind fun _ => steady_ret _
  · exact (steady_query _ _).bind fun ids => (steady_writeEach (fun i => .restorePhoto _ _ _ i _) ids).bind fun _ => steady_ret _
  · exact (steady_write (.restore _ _ _)).bind fun _ => steady_ret _

theorem steady_insertEach {variants : List VariantInput} (h : cfg.watched = .variants dressId → l = true) :
    ∀ vs : List VariantInput, Steady (Body cfg (.replaceVariants dressId variants actorId)) l (insertEach cfg dressId vs)
  | [] => steady_ret _
  | _ :: vs => (steady_add (.size _ _ _ _ _ h rfl)).bind fun _ => steady_insertEach h vs

theorem within_replaceIn (variants : List VariantInput) (dressId : Nat) (normalized : List VariantInput) (actorId : Nat) (txNow : Int) :
    Within (Body cfg (.replaceVariants dressId variants actorId)) false (replaceIn cfg dressId normalized actorId txNow) := by
  refine within_advisory fun l' h => Steady.within ((steady_byId _).bind fun found => (steady_raiseIf _ _).bind fun _ =>
    Steady.bind ?_ fun _ => (steady_insertEach h _).bind fun _ => steady_record _ _ _)
  exact (steady_query _ _).bind fun ids => (steady_writeEach (fun i => .retire _ _ _ _ i _ h) ids).bind fun _ => steady_ret _

theorem within_presignIn (dressId : Nat) (contentType : String) (byteSize : Int) (actorId : Nat) (txNow : Int) :
    Within (Body cfg (.presignMedia dressId contentType byteSize actorId)) false
      (presignIn cfg dressId contentType byteSize actorId txNow) := by
  refine within_advisory fun l' h => Steady.within ((steady_byId _).bind fun found => (steady_raiseIf _ _).bind fun _ =>
    Steady.bind ?_ fun swept => (steady_query _ _).bind fun active => (steady_raiseIf _ _).bind fun _ =>
      (steady_liftExcept _).bind fun extension_ => (steady_add (.pending _ _ _ _ _ _ h rfl rfl)).bind fun row =>
        (steady_record _ _ _).bind fun _ => steady_ret _)
  exact (steady_query _ _).bind fun ids => steady_writeEach (fun i => .sweep _ _ _ _ _ i _ _ h) ids

theorem within_promoteIn (dressId mediaId actorId : Nat) :
    Within (Body cfg (.confirmMedia dressId mediaId actorId)) false (promoteIn cfg dressId mediaId actorId) := by
  refine within_advisory fun l' h => Steady.within
    ((steady_query _ _).bind fun found => (steady_orRaise _ _).bind fun row => ?_)
  split
  · exact (steady_query _ _).bind fun last => Steady.bind ((steady_write (.promote _ _ _ _ _ h)).bind fun _ => steady_ret _)
      fun _ => steady_record _ _ _
  · exact steady_ret _

theorem within_deleteMediaIn (dressId mediaId actorId : Nat) (txNow : Int) :
    Within (Body cfg (.deleteMedia dressId mediaId actorId)) false (deleteMediaIn cfg dressId mediaId actorId txNow) :=
  within_advisory fun _ h => Steady.within ((steady_byId _).bind fun _ => (steady_raiseIf _ _).bind fun _ =>
    (steady_query _ _).bind fun _ => (steady_orRaise _ _).bind fun _ =>
      Steady.bind ((steady_write (.drop _ _ _ _ _ h)).bind fun _ => steady_ret _) fun _ =>
        (steady_record _ _ _).bind fun _ => steady_ret _)

theorem steady_setSortOrders {mediaIds : List Nat} (h : cfg.watched = .media dressId → l = true) : ∀ (ids : List Nat) (position : Int),
    Steady (Body cfg (.reorderMedia dressId mediaIds actorId)) l (Media.setSortOrders dressId position ids)
  | [], _ => steady_ret _
  | i :: ids, position => (steady_write (.place _ _ _ _ i _ h)).bind fun _ => steady_setSortOrders h ids (position + 1)

theorem within_reorderIn (dressId : Nat) (mediaIds : List Nat) (actorId : Nat) :
    Within (Body cfg (.reorderMedia dressId mediaIds actorId)) false (reorderIn cfg dressId mediaIds actorId) :=
  within_advisory fun _ h => Steady.within ((steady_byId _).bind fun _ => (steady_raiseIf _ _).bind fun _ =>
    (steady_query _ _).bind fun _ => (steady_raiseIf _ _).bind fun _ => (steady_setSortOrders h _ _).bind fun _ =>
      steady_record _ _ _)

theorem steady_resolve (rows : List DressReservation) : Steady (Body cfg r) l (resolveCustomerNames rows) := by
  refine Steady.bind ?_ fun customers => steady_ret _
  unfold Customers.byIds
  split
  · exact steady_ret _
  · exact steady_query _ _

theorem within_listIn (dressId : Nat) : Within (Body cfg r) false (listIn dressId) :=
  Steady.within ((steady_byId _).bind fun _ => (steady_raiseIf _ _).bind fun _ => (steady_query _ _).bind fun rows =>
    steady_resolve rows)

theorem steady_checkCustomer (customerId : Option Nat) : Steady (Body cfg r) l (checkCustomer customerId) := by
  cases customerId with
  | none => exact steady_ret _
  | some customerId => exact (steady_query _ _).bind fun found => steady_raiseIf _ _

theorem within_reserveIn (dressId : Nat) (startsOn endsOn : Int) (customerId : Option Nat) (notes : Option String) (actorId : Nat) :
    Within (Body cfg (.createReservation dressId startsOn endsOn customerId notes actorId)) false
      (reserveIn cfg dressId startsOn endsOn customerId notes actorId) := by
  refine within_advisory fun l' h => Steady.within ((steady_byId _).bind fun dress => (steady_raiseIf _ _).bind fun _ =>
    (steady_checkCustomer _).bind fun _ => (steady_query _ _).bind fun conflicts => ?_)
  split
  · exact steady_raise _
  · exact (steady_add (.reserve _ _ _ _ _ _ _ _ h)).bind fun row => (steady_record _ _ _).bind fun _ =>
      (steady_resolve _).bind fun _ => steady_ret _

theorem within_freeIn (dressId reservationId actorId : Nat) (txNow : Int) :
    Within (Body cfg (.deleteReservation dressId reservationId actorId)) false (freeIn dressId reservationId actorId txNow) :=
  Steady.within ((steady_byId _).bind fun _ => (steady_raiseIf _ _).bind fun _ => Steady.bind
    ((steady_write (.free _ _ _ _ _)).bind fun _ => steady_ret _) fun _ => (steady_raiseIf _ _).bind fun _ =>
      steady_record _ _ _)

theorem within_release (contentType : String) (byteSize : Int) (actorId : Nat) (txNow : Int) :
    Within (Body cfg (.presignMedia dressId contentType byteSize actorId)) false
      (advisoryLock cfg (.media dressId) >>= fun _ => Media.softDelete dressId mediaId txNow >>= fun _ => (return () : Prg Unit)) :=
  within_advisory fun _ h => Steady.within
    (((steady_write (.release _ _ _ _ _ _ _ h)).bind fun _ => steady_ret _).bind fun _ => steady_ret _)

theorem served_presignMedia (dressId : Nat) (contentType : String) (byteSize : Int) (actorId : Nat) :
    Served cfg (.presignMedia dressId contentType byteSize actorId) (presignMedia cfg dressId contentType byteSize actorId) := by
  refine (served_question _).bind fun blocked => (served_raiseIf _ _).bind fun _ => (served_liftExcept _).bind fun _ =>
    (served_question _).bind fun configured => (served_raiseIf _ _).bind fun _ =>
      (served_session fun n => within_presignIn _ _ _ _ _).attempt.bind fun result => ?_
  split
  · split
    · exact (served_question _).bind fun _ => served_raise _
    · exact served_raise _
  · refine (served_question _).bind fun _ => (served_deleteEach _).bind fun _ => (served_question _).bind fun signed => ?_
    split
    · exact served_ret _
    · exact (served_session fun n => within_release _ _ _ _).bind fun _ => served_raise _

theorem served_checkObject (key : MediaKey) (declaredType : String) : Served cfg r (checkObject key declaredType) := by
  have hreject : Served cfg r (rejectObject key : Prg Unit) := (served_bestEffortDelete _).bind fun _ => served_raise _
  refine (served_question _).bind fun answer => (served_liftMedia _).bind fun found => (served_orRaise _ _).bind fun head => ?_
  split
  · exact hreject
  · refine (served_question _).bind fun answer => (served_liftMedia _).bind fun start => ?_
    split
    · exact hreject
    · exact served_ret _

theorem served_confirmMedia (dressId mediaId actorId : Nat) :
    Served cfg (.confirmMedia dressId mediaId actorId) (confirmMedia cfg dressId mediaId actorId) := by
  refine (served_question _).bind fun configured => (served_raiseIf _ _).bind fun _ => (served_session fun n => Steady.within ?_).bind
    fun row => ?_
  · exact (steady_byId _).bind fun dress => (steady_raiseIf _ _).bind fun _ => (steady_query _ _).bind fun found => steady_orRaise _ _
  split
  · exact served_detailView _ _
  · exact (served_checkObject _ _).bind fun _ => (served_session fun n => within_promoteIn _ _ _).bind fun _ => served_detailView _ _

theorem served_request (cfg : Config) (r : Request) : Served cfg r (r.code cfg) := by
  cases r with
  | listDresses archived search offset limit => exact served_listDresses archived search offset limit
  | createDress fields actorId =>
    exact (served_liftExcept _).bind fun _ => (served_session fun _ => within_createIn fields actorId).bind fun _ =>
      (served_question _).bind fun _ => served_ret _
  | updateDress dressId fields actorId =>
    exact (served_liftExcept _).bind fun _ => (served_session fun _ => within_updateFields _ _ _).bind fun _ => served_detailView _ _
  | getDress dressId => exact served_detailView dressId true
  | archiveDress dressId actorId => exact (served_session fun _ => within_archiveIn _ _ _).bind fun _ => served_ret _
  | restoreDress dressId actorId => exact (served_session fun _ => within_restoreIn _ _).bind fun _ => served_detailView _ _
  | replaceVariants dressId variants actorId =>
    refine (served_liftExcept _).bind fun _ => (served_liftExcept _).bind fun _ =>
      (served_session fun _ => within_replaceIn variants _ _ _ _).attempt.bind fun result => ?_
    split
    · exact served_detailView _ _
    · exact served_raise _
    · exact served_raise _
  | presignMedia dressId contentType byteSize actorId => exact served_presignMedia dressId contentType byteSize actorId
  | confirmMedia dressId mediaId actorId => exact served_confirmMedia dressId mediaId actorId
  | deleteMedia dressId mediaId actorId =>
    exact (served_question _).bind fun configured => (served_raiseIf _ _).bind fun _ => (served_session fun _ =>
      within_deleteMediaIn _ _ _ _).bind fun key => (served_bestEffortDelete _).bind fun _ => served_detailView _ _
  | reorderMedia dressId mediaIds actorId =>
    exact (served_session fun _ => within_reorderIn _ _ _).bind fun _ => served_detailView _ _
  | listReservations dressId => exact (served_session fun _ => within_listIn _).bind fun _ => served_ret _
  | createReservation dressId startsOn endsOn customerId notes actorId =>
    exact (served_liftExcept _).bind fun _ => (served_session fun _ => within_reserveIn _ _ _ _ _ _).bind fun _ => served_ret _
  | deleteReservation dressId reservationId actorId =>
    exact (served_session fun _ => within_freeIn _ _ _ _).bind fun _ => served_ret _
  | postMedia key contentType body => exact (served_question _).bind fun accepted => served_ret _

end Requests

/-! ## The casts -/

/-- **What may become of a photo**: it stays what it was presigned as, and is not made pending again. -/
structure Kept (r r' : DressMedia) : Prop where
  dressId : r'.dressId = r.dressId
  createdAt : r'.createdAt = r.createdAt
  storageKey : r'.storageKey = r.storageKey
  contentType : r'.contentType = r.contentType
  byteSize : r'.byteSize = r.byteSize
  ready : r.status = .ready → r'.status = .ready

theorem DressMediaChange.kept {v' : DressMedia} (h : g.apply v = some v') : Kept v v' := by
  cases g <;> simp only [DressMediaChange.apply] at h
  all_goals (split at h <;> cases h)
  all_goals exact ⟨rfl, rfl, rfl, rfl, rfl, fun hready => by first | exact hready | rfl⟩

def DressMediaChange.dress : DressMediaChange → Nat
  | .sweep dressId .. | .promoteToReady dressId _ | .setSortOrder dressId _ | .softDelete dressId _
  | .restoreArchivedWith dressId _ => dressId

theorem DressMedia.of_iff : v.of dressId = true ↔ v.dressId = dressId ∧ v.deletedAt = none := decide_eq_true_iff

theorem DressVariant.of_iff {v : DressVariant} : v.of dressId = true ↔ v.dressId = dressId ∧ v.deletedAt = none := decide_eq_true_iff

theorem DressMediaChange.dress_eq {v' : DressMedia} (h : g.apply v = some v') :
    v.dressId = g.dress ∧ v'.dressId = g.dress := by
  have hkept := DressMediaChange.kept h
  have hwas : v.dressId = g.dress := by
    cases g <;> simp only [DressMediaChange.apply] at h
    all_goals (split at h <;> cases h)
    case softDelete hc => exact (DressMedia.of_iff.1 hc).1
    case restoreArchivedWith hc => exact hc.1
    all_goals
      rename_i hc
      exact (DressMedia.of_iff.1 hc.1).1
  exact ⟨hwas, hkept.dressId.trans hwas⟩

def DressVariantChange.dress : DressVariantChange → Nat
  | .softDelete dressId _ | .restoreArchivedWith dressId _ => dressId

theorem DressVariantChange.dress_eq {g : DressVariantChange} {v v' : DressVariant} (h : g.apply v = some v') :
    v.dressId = g.dress ∧ v'.dressId = g.dress := by
  cases g <;> simp only [DressVariantChange.apply] at h
  all_goals (split at h <;> cases h)
  case softDelete hc => exact ⟨(DressVariant.of_iff.1 hc).1, (DressVariant.of_iff.1 hc).1⟩
  case restoreArchivedWith hc => exact ⟨hc.1, hc.1⟩

def LockKey.covers : LockKey → (T : Table) → Row T → Bool
  | .media dressId, .dressMedia, (r : DressMedia) => r.dressId = dressId
  | .variants dressId, .dressVariants, (r : DressVariant) => r.dressId = dressId
  | _, _, _ => false

/-- **What may become of a reservation**: it keeps its days, and does not come back. -/
structure Window (r r' : DressReservation) : Prop where
  dressId : r'.dressId = r.dressId
  startsOn : r'.startsOn = r.startsOn
  endsOn : r'.endsOn = r.endsOn
  live : r'.deletedAt = none → r.deletedAt = none

theorem DressReservationChange.window {g : DressReservationChange} {v v' : DressReservation} (h : g.apply v = some v') :
    Window v v' := by
  cases g
  simp only [DressReservationChange.apply] at h
  split at h <;> cases h
  exact ⟨rfl, rfl, rfl, fun hlive => by cases hlive⟩

def RowKept : (T : Table) → Row T → Row T → Prop
  | .dressMedia, (r : DressMedia), (r' : DressMedia) => Kept r r'
  | .dressVariants, (r : DressVariant), (r' : DressVariant) => r'.dressId = r.dressId
  | .dressReservations, (r : DressReservation), (r' : DressReservation) => Window r r'
  | _, _, _ => True

theorem RowKept.refl (T : Table) (v : Row T) : RowKept T v v := by
  cases T with
  | dressMedia => exact ⟨rfl, rfl, rfl, rfl, rfl, id⟩
  | dressVariants => exact rfl
  | dressReservations => exact ⟨rfl, rfl, rfl, id⟩
  | dresses | customers | auditLog => trivial

theorem RowKept.trans {u v w : Row T} (h : RowKept T u v) (h' : RowKept T v w) : RowKept T u w := by
  cases T with
  | dressMedia =>
    have h : Kept u v := h
    have h' : Kept v w := h'
    exact ⟨h'.dressId.trans h.dressId, h'.createdAt.trans h.createdAt, h'.storageKey.trans h.storageKey,
      h'.contentType.trans h.contentType, h'.byteSize.trans h.byteSize, fun hready => h'.ready (h.ready hready)⟩
  | dressVariants => exact Eq.trans h' h
  | dressReservations =>
    have h : Window u v := h
    have h' : Window v w := h'
    exact ⟨h'.dressId.trans h.dressId, h'.startsOn.trans h.startsOn, h'.endsOn.trans h.endsOn, fun hlive => h.live (h'.live hlive)⟩
  | dresses | customers | auditLog => trivial

theorem RowKept.covers {u v : Row T} (h : RowKept T u v) (key : LockKey) : key.covers T v = key.covers T u := by
  cases T with
  | dressMedia =>
    have h : Kept u v := h
    cases key with
    | media dressId => simp only [LockKey.covers, h.dressId]
    | variants | tenant => rfl
  | dressVariants =>
    have h : DressVariant.dressId v = DressVariant.dressId u := h
    cases key with
    | variants dressId => simp only [LockKey.covers, h]
    | media | tenant => rfl
  | dresses | dressReservations | customers | auditLog => cases key <;> rfl

def keeping : Discipline schema where
  Trans _ := RowKept
  New _ _ _ := True
  refl _ := RowKept.refl
  trans _ _ _ _ _ h h' := h.trans h'
  weaken _ _ _ h := h
  new_trans _ _ _ _ _ _ := trivial
  new_weaken _ _ _ := trivial

def guarding (key : LockKey) : Discipline schema where
  Trans l T r r' := RowKept T r r' ∧ (l = false → key.covers T r = true → r' = r)
  New l T r := l = false → key.covers T r = false
  refl _ T r := ⟨RowKept.refl T r, fun _ _ => rfl⟩
  trans _ T r r' r'' h h' := by
    refine ⟨h.1.trans h'.1, fun hl hr => ?_⟩
    rw [h'.2 hl (by rw [h.1.covers]; exact hr), h.2 hl hr]
  weaken _ _ _ h := ⟨h.1, nofun⟩
  new_trans _ T r r' h h' := fun hl => by
    rw [h'.1.covers]
    exact h hl
  new_weaken _ _ _ := nofun

theorem guarding_guards (key : LockKey) (T : Table) : (guarding key).Guards T (key.covers T) where
  same r r' h hp := by
    refine h.2 rfl ?_
    rcases hp with hp | hp
    · exact hp
    · rw [← h.1.covers]
      exact hp
  fresh r h := h rfl

theorem plain_legal (h : plain o = true) : E.Legal l o := by
  cases o with
  | sql o =>
    cases o with
    | update | insert => cases h
    | _ => trivial
  | now | ask => trivial

theorem rowKept_apply {g : Change T} {v v' : Row T} (h : applyChange T g v = some v') : RowKept T v v' := by
  cases T with
  | dressMedia => exact DressMediaChange.kept h
  | dressVariants =>
    have hdress := DressVariantChange.dress_eq h
    exact hdress.2.trans hdress.1.symm
  | dressReservations => exact DressReservationChange.window h
  | dresses => trivial
  | customers | auditLog => cases g

theorem writes_keeping (h : Writes cfg r l o) : keeping.Legal l o := by
  cases o with
  | sql o =>
    cases o with
    | update T i g => exact fun v v' _ hv => rowKept_apply hv
    | insert T row => exact fun _ _ => trivial
    | _ => trivial
  | now | ask => trivial

def LockKey.dress : LockKey → Option Nat
  | .media dressId | .variants dressId => some dressId
  | .tenant => none

def Request.cascades (dressId : Nat) : Request → Bool
  | .archiveDress d _ | .restoreDress d _ => d = dressId
  | _ => false

/-- **While a dress is neither archived nor restored**, its rows are written with their lock. -/
theorem writes_guarding (h : Writes cfg r l o) (hr : ∀ d ∈ cfg.watched.dress, r.cascades d = false) :
    (guarding cfg.watched).Legal l o := by
  have hphoto : ∀ {i : Nat} {g : DressMediaChange}, (cfg.watched = .media g.dress → l = true) →
      (guarding cfg.watched).Legal l (.sql (.update .dressMedia i g) : Op schema outside) := by
    intro i g hl v v' _ hv
    refine ⟨rowKept_apply hv, fun hfalse hcovers => ?_⟩
    have hdress := (DressMediaChange.dress_eq hv).1
    have hwatched : cfg.watched = .media g.dress := by
      cases hk : cfg.watched with
      | media dressId =>
        rw [hk] at hcovers
        rw [show DressMedia.dressId v = dressId from of_decide_eq_true hcovers] at hdress
        rw [hdress]
      | variants | tenant =>
        rw [hk] at hcovers
        cases hcovers
    rw [hl hwatched] at hfalse
    cases hfalse
  have hsize : ∀ {i : Nat} {g : DressVariantChange}, (cfg.watched = .variants g.dress → l = true) →
      (guarding cfg.watched).Legal l (.sql (.update .dressVariants i g) : Op schema outside) := by
    intro i g hl v v' _ hv
    refine ⟨rowKept_apply hv, fun hfalse hcovers => ?_⟩
    have hdress := (DressVariantChange.dress_eq hv).1
    have hwatched : cfg.watched = .variants g.dress := by
      cases hk : cfg.watched with
      | variants dressId =>
        rw [hk] at hcovers
        rw [show DressVariant.dressId v = dressId from of_decide_eq_true hcovers] at hdress
        rw [hdress]
      | media | tenant =>
        rw [hk] at hcovers
        cases hcovers
    rw [hl hwatched] at hfalse
    cases hfalse
  have hnever : ∀ {d : Nat}, (∀ d' ∈ cfg.watched.dress, decide (d = d') = false) →
      cfg.watched ≠ .media d ∧ cfg.watched ≠ .variants d := by
    intro d hd
    constructor <;> intro hk <;> exact of_decide_eq_false (hd d (by rw [hk]; rfl)) rfl
  cases h with
  | create | reserve | note => exact fun _ _ _ => by cases cfg.watched <;> rfl
  | free =>
    intro v v' _ hv
    refine ⟨DressReservationChange.window (g := .softDelete _ _) hv, fun _ hcovers => ?_⟩
    cases hk : cfg.watched <;> rw [hk] at hcovers <;> cases hcovers
  | flush | archive | restore =>
    intro v v' _ hv
    exact ⟨trivial, fun _ hcovers => by cases hk : cfg.watched <;> rw [hk] at hcovers <;> cases hcovers⟩
  | archivePhoto | restorePhoto => exact hphoto fun hk => absurd hk (hnever hr).1
  | archiveSize | restoreSize => exact hsize fun hk => absurd hk (hnever hr).2
  | retire _ _ _ _ _ _ hl => exact hsize hl
  | sweep _ _ _ _ _ _ _ _ hl | release _ _ _ _ _ _ _ hl | promote _ _ _ _ _ hl | drop _ _ _ _ _ hl | place _ _ _ _ _ _ hl =>
    exact hphoto hl
  | size _ dressId _ _ row hl hrow =>
    intro i n hfalse
    cases hk : cfg.watched with
    | media | tenant => rfl
    | variants d =>
      refine decide_eq_false fun hd => ?_
      have hd : row.dressId = d := hd
      rw [hl (by rw [hk, ← hd, hrow])] at hfalse
      cases hfalse
  | pending _ dressId _ _ _ row hl hrow =>
    intro i n hfalse
    cases hk : cfg.watched with
    | variants | tenant => rfl
    | media d =>
      refine decide_eq_false fun hd => ?_
      have hd : row.dressId = d := hd
      rw [hl (by rw [hk, ← hd, hrow])] at hfalse
      cases hfalse

def Request.tends : LockKey → Request → Bool
  | .media d, .presignMedia dressId .. | .media d, .confirmMedia dressId .. | .media d, .deleteMedia dressId ..
  | .media d, .reorderMedia dressId .. | .variants d, .replaceVariants dressId .. => d = dressId
  | .tenant, .createReservation .. => true
  | _, _ => false

theorem Writes.bare (h : Writes cfg r l o) (hr : r.tends cfg.watched = false) : Writes cfg r false o := by
  have hne : ∀ key, r.tends key = true → cfg.watched = key → false = true := by
    rintro key hkey rfl
    exact hr.symm.trans hkey
  cases h with
  | retire => exact .retire _ _ _ _ _ _ (hne _ (decide_eq_true rfl))
  | size _ _ _ _ _ _ hrow => exact .size _ _ _ _ _ (hne _ (decide_eq_true rfl)) hrow
  | sweep => exact .sweep _ _ _ _ _ _ _ _ (hne _ (decide_eq_true rfl))
  | pending _ _ _ _ _ _ _ hrow hstatus => exact .pending _ _ _ _ _ _ (hne _ (decide_eq_true rfl)) hrow hstatus
  | release => exact .release _ _ _ _ _ _ _ (hne _ (decide_eq_true rfl))
  | promote => exact .promote _ _ _ _ _ (hne _ (decide_eq_true rfl))
  | drop => exact .drop _ _ _ _ _ (hne _ (decide_eq_true rfl))
  | place => exact .place _ _ _ _ _ _ (hne _ (decide_eq_true rfl))
  | reserve => exact .reserve _ _ _ _ _ _ _ _ (hne _ rfl)
  | create _ _ _ _ h => exact .create _ _ _ _ h
  | flush | archivePhoto | archiveSize | archive | restoreSize | restorePhoto | restore | free | note => constructor

/-- **The cast of the catalogue**: each thread plays the part of its request. -/
def staff (cfg : Config) (reqs : Tid → Request) (E : Discipline schema)
    (hE : ∀ t l (o : Op schema outside), Writes cfg (reqs t) l o → E.Legal l o) : Cast schema where
  common := E
  role t := .ofWrites (Writes cfg (reqs t)) fun _ => Writes.locked
  sub t _ _ _ _ h := Discipline.ofWrites_trans (fun o => hE t _ o) h
  new_sub t _ _ _ h := Discipline.ofWrites_new (fun o => hE t _ o) h

theorem serving_obeyed {store : Store} {rows : Rows schema} {next : Nat} {clock : Int} (h : Shelved rows next) :
    Cast.Obeyed (staff cfg reqs E hE) (serving cfg reqs store rows next clock) := by
  refine ⟨atRest_lawful h _, fun t p hp => ⟨false, nofun, ?_⟩⟩
  cases hp
  refine (served_request cfg (reqs t)).within.mono fun l o ho => ?_
  rcases ho with ho | ho
  · exact plain_legal ho
  · have hlegal : (Discipline.ofWrites (Writes cfg (reqs t)) fun _ => Writes.locked).Legal l o := Discipline.legal_ofWrites ho
    exact hlegal

theorem staff_becomes {D : Discipline schema} {t : Tid} {l : Bool} {a b : Option (Row T)}
    (hD : ∀ o : Op schema outside, Writes cfg (reqs t) l o → D.Legal l o)
    (h : ((staff cfg reqs E hE).role t).Becomes l T a b) : D.Becomes l T a b := by
  cases a with
  | none =>
    cases b with
    | none => trivial
    | some v =>
      have hnew : (Discipline.ofWrites (Writes cfg (reqs t)) fun _ => Writes.locked).New l T v := h
      exact Discipline.ofWrites_new hD hnew
  | some u =>
    obtain ⟨v, rfl, htrans⟩ := h.some_left
    have hpart : (Discipline.ofWrites (Writes cfg (reqs t)) fun _ => Writes.locked).Trans l T u v := htrans
    exact Discipline.ofWrites_trans hD hpart

theorem part_still {hE : ∀ t l (o : Op schema outside), Writes cfg (reqs t) l o → (guarding cfg.watched).Legal l o} {t : Tid}
    {e : Engine schema} (he : e.Lawful (staff cfg reqs (guarding cfg.watched) hE)) (ht : (reqs t).tends cfg.watched = false)
    (T : Table) : part (cfg.watched.covers T) (e.view t T) = part (cfg.watched.covers T) (e.committed T) := by
  have hlegal : ∀ l (o : Op schema outside), Writes cfg (reqs t) l o → (guarding cfg.watched).bare.Legal l o := by
    intro l o ho
    have hbare := hE t false o (ho.bare ht)
    cases o with
    | sql o => cases o <;> exact hbare
    | now | ask => trivial
  exact (guarding_guards cfg.watched T).part fun i =>
    Discipline.becomes_bare (l := e.holds t) (staff_becomes (hlegal _) (he.inflight t T i))

end Catalog

import Boutique.Staff
/-!
# Catalog — the dresses of a boutique, their sizes and their photos

Archiving a dress deletes it and its children with one instant, and restoring looks that instant up again.  A photo is
pending from its presign until a confirm has looked at the object that the browser posted past the server.
-/
namespace Catalog

open Txn Session
open Staff (MediaFailure ObjectHead StoredObject acceptedExtension)

/-! ## The tables -/

structure Dress where
  id : Nat
  createdAt : Int
  deletedAt : Option Int
  name : String
  description : Option String
  priceAgorot : Option Int
  priceVisible : Bool
  reserved : Bool
  sortOrder : Int
deriving DecidableEq

/-- `sizeKey` is `lower(size_label)`, which the unique index is over. -/
structure DressVariant where
  id : Nat
  createdAt : Int
  deletedAt : Option Int
  dressId : Nat
  sizeLabel : String
  sizeKey : String
  quantity : Int
  sortOrder : Int
deriving DecidableEq

/-- The key of a photo, in its parts. -/
structure MediaKey where
  dressId : Nat
  mediaId : Nat
  extension_ : String
deriving DecidableEq

inductive DressMediaStatus
  | pending | ready
deriving DecidableEq

structure DressMedia where
  id : Nat
  createdAt : Int
  deletedAt : Option Int
  dressId : Nat
  storageKey : MediaKey
  contentType : String
  byteSize : Int
  status : DressMediaStatus
  sortOrder : Int
deriving DecidableEq

/-- What a reservation asks of a customer. -/
structure Customer where
  id : Nat
  createdAt : Int
  deletedAt : Option Int
  erasedAt : Option Int
  name : String
deriving DecidableEq

/-- A dress away from one day to another, both of them included. -/
structure DressReservation where
  id : Nat
  createdAt : Int
  deletedAt : Option Int
  dressId : Nat
  startsOn : Int
  endsOn : Int
  customerId : Option Nat
  notes : Option String
deriving DecidableEq

/-- What is recorded of the catalogue, with the details of each action. -/
inductive AuditAction
  | dressCreated (name : String) (priceVisible : Bool)
  | dressUpdated (name : String) (priceVisible reserved : Bool)
  | dressArchived (name : String)
  | dressRestored (name : String)
  | dressVariantsReplaced (sizes : List String) (totalQuantity : Int)
  | dressMediaPresigned (dressId : Nat) (storageKey : MediaKey) (contentType : String) (byteSize : Int)
  | dressMediaConfirmed (dressId : Nat) (sortOrder : Int)
  | dressMediaDeleted (dressId : Nat) (storageKey : MediaKey) (wasPending : Bool)
  | dressMediaReordered (mediaIds : List Nat)
  | dressReservationCreated (dressId : Nat) (startsOn endsOn : Int) (customerId : Option Nat)
  | dressReservationDeleted (dressId : Nat)
deriving DecidableEq

structure AuditLog where
  id : Nat
  createdAt : Int
  actorId : Nat
  entity : Nat
  action : AuditAction
deriving DecidableEq

inductive Table
  | dresses | dressVariants | dressMedia | dressReservations | customers | auditLog
deriving DecidableEq

abbrev Row : Table → Type
  | .dresses => Dress
  | .dressVariants => DressVariant
  | .dressMedia => DressMedia
  | .dressReservations => DressReservation
  | .customers => Customer
  | .auditLog => AuditLog

def rowId : (T : Table) → Row T → Nat
  | .dresses, (r : Dress) => r.id
  | .dressVariants, (r : DressVariant) => r.id
  | .dressMedia, (r : DressMedia) => r.id
  | .dressReservations, (r : DressReservation) => r.id
  | .customers, (r : Customer) => r.id
  | .auditLog, (r : AuditLog) => r.id

/-- The id of a photo is minted before its row is written, and its key embeds it. -/
def stamp : (T : Table) → Nat → Int → Row T → Row T
  | .dresses, i, n, (r : Dress) => { r with id := i, createdAt := n }
  | .dressVariants, i, n, (r : DressVariant) => { r with id := i, createdAt := n }
  | .dressMedia, i, n, (r : DressMedia) => { r with id := i, createdAt := n, storageKey := { r.storageKey with mediaId := i } }
  | .dressReservations, i, n, (r : DressReservation) => { r with id := i, createdAt := n }
  | .customers, i, n, (r : Customer) => { r with id := i, createdAt := n }
  | .auditLog, i, n, (r : AuditLog) => { r with id := i, createdAt := n }

/-- What an owner sends of a dress. -/
structure DressFields where
  name : String
  description : Option String
  priceAgorot : Option Int
  priceVisible : Bool
  reserved : Bool
  sortOrder : Int
deriving DecidableEq

def Dress.fields (r : Dress) : DressFields :=
  ⟨r.name, r.description, r.priceAgorot, r.priceVisible, r.reserved, r.sortOrder⟩

inductive DressChange
  | flush (fields : DressFields)
  | softDelete (now : Int)
  | restore

inductive DressVariantChange
  | softDelete (dressId : Nat) (now : Int)
  | restoreArchivedWith (dressId : Nat) (archivedAt : Int)

inductive DressMediaChange
  | sweep (dressId : Nat) (staleBefore now : Int)
  | promoteToReady (dressId : Nat) (sortOrder : Int)
  | setSortOrder (dressId : Nat) (sortOrder : Int)
  | softDelete (dressId : Nat) (now : Int)
  | restoreArchivedWith (dressId : Nat) (archivedAt : Int)

inductive DressReservationChange
  | softDelete (dressId : Nat) (now : Int)

abbrev Change : Table → Type
  | .dresses => DressChange
  | .dressVariants => DressVariantChange
  | .dressMedia => DressMediaChange
  | .dressReservations => DressReservationChange
  | .customers | .auditLog => Empty

def Dress.live (r : Dress) : Bool := r.deletedAt = none

def DressVariant.of (dressId : Nat) (r : DressVariant) : Bool := r.dressId = dressId ∧ r.deletedAt = none

def DressMedia.of (dressId : Nat) (r : DressMedia) : Bool := r.dressId = dressId ∧ r.deletedAt = none

def DressReservation.of (dressId : Nat) (r : DressReservation) : Bool := r.dressId = dressId ∧ r.deletedAt = none

def DressMedia.ready (r : DressMedia) : Bool := r.status = .ready

def DressChange.apply (r : Dress) : DressChange → Option Dress
  -- an ORM flush: by primary key, whatever has become of the row
  | .flush f => some { r with
      name := f.name
      description := f.description
      priceAgorot := f.priceAgorot
      priceVisible := f.priceVisible
      reserved := f.reserved
      sortOrder := f.sortOrder }
  | .softDelete now => if r.deletedAt = none then some { r with deletedAt := some now } else none
  | .restore => if r.deletedAt ≠ none then some { r with deletedAt := none } else none

def DressVariantChange.apply (r : DressVariant) : DressVariantChange → Option DressVariant
  | .softDelete dressId now => if r.of dressId then some { r with deletedAt := some now } else none
  | .restoreArchivedWith dressId archivedAt =>
    if r.dressId = dressId ∧ r.deletedAt = some archivedAt then some { r with deletedAt := none } else none

def DressMediaChange.apply (r : DressMedia) : DressMediaChange → Option DressMedia
  | .sweep dressId staleBefore now =>
    if r.of dressId ∧ r.status = .pending ∧ r.createdAt < staleBefore then some { r with deletedAt := some now } else none
  | .promoteToReady dressId sortOrder =>
    if r.of dressId ∧ r.status = .pending then some { r with status := .ready, sortOrder := sortOrder } else none
  | .setSortOrder dressId sortOrder =>
    if r.of dressId ∧ r.status = .ready then some { r with sortOrder := sortOrder } else none
  | .softDelete dressId now => if r.of dressId then some { r with deletedAt := some now } else none
  | .restoreArchivedWith dressId archivedAt =>
    if r.dressId = dressId ∧ r.deletedAt = some archivedAt then some { r with deletedAt := none } else none

def DressReservationChange.apply (r : DressReservation) : DressReservationChange → Option DressReservation
  | .softDelete dressId now => if r.of dressId then some { r with deletedAt := some now } else none

def applyChange : (T : Table) → Change T → Row T → Option (Row T)
  | .dresses, g, (r : Dress) => DressChange.apply r g
  | .dressVariants, g, (r : DressVariant) => DressVariantChange.apply r g
  | .dressMedia, g, (r : DressMedia) => DressMediaChange.apply r g
  | .dressReservations, g, (r : DressReservation) => DressReservationChange.apply r g

def DB_MAX_PRICE_AGOROT : Int := 1000000000
def DB_MAX_QUANTITY : Int := 10000
def DB_MAX_BYTE_SIZE : Int := 20971520
def DB_MAX_RESERVATION_SPAN_DAYS : Int := 3650

def rowCheck : (T : Table) → Row T → Bool
  | .dresses, (r : Dress) => r.priceAgorot.all fun price => 0 < price ∧ price ≤ DB_MAX_PRICE_AGOROT
  | .dressVariants, (r : DressVariant) => 0 ≤ r.quantity ∧ r.quantity ≤ DB_MAX_QUANTITY
  | .dressMedia, (r : DressMedia) =>
    (acceptedExtension r.contentType).isSome ∧ 0 < r.byteSize ∧ r.byteSize ≤ DB_MAX_BYTE_SIZE
  | .dressReservations, (r : DressReservation) => r.startsOn ≤ r.endsOn ∧ r.endsOn - r.startsOn ≤ DB_MAX_RESERVATION_SPAN_DAYS
  | .customers, _ | .auditLog, _ => true

/-- `idx_dress_variants_dress_size_unique`, of the live rows, and `idx_dress_media_storage_key_unique`, of all of them. -/
def clash : (T : Table) → Row T → Row T → Bool
  | .dressVariants, (r : DressVariant), (r' : DressVariant) =>
    r.deletedAt = none ∧ r'.deletedAt = none ∧ r.dressId = r'.dressId ∧ r.sizeKey = r'.sizeKey
  | .dressMedia, (r : DressMedia), (r' : DressMedia) => r.storageKey = r'.storageKey
  | _, _, _ => false

inductive Query
  | byId | byIdAnyState | loaded | refreshed | variantsToDelete | variantsArchivedWith | mediaToDelete | mediaArchivedWith
  | mediaById | stalePendings | countActive | listReady | maxReadySortOrder | listActive | aggregateByDress
  | customerById | overlapping | liveByDress | customersByIds | listPage | count | coversByDress
deriving DecidableEq

theorem rowId_applyChange (T : Table) (g : Change T) (r r' : Row T) (h : applyChange T g r = some r') :
    rowId T r' = rowId T r := by
  cases T <;> cases g <;> simp only [applyChange, DressChange.apply, DressVariantChange.apply, DressMediaChange.apply,
    DressReservationChange.apply] at h
  all_goals first | (split at h <;> cases h <;> rfl) | (cases h; rfl)

theorem clash_symm (T : Table) (r r' : Row T) : clash T r r' = clash T r' r := by
  rw [Bool.eq_iff_iff]
  cases T <;> simp only [clash, decide_eq_true_eq]
  · constructor <;> rintro ⟨h, h', hdress, hsize⟩ <;> exact ⟨h', h, hdress.symm, hsize.symm⟩
  · exact eq_comm

abbrev schema : Schema where
  Table := Table
  tables := inferInstance
  Row := Row
  id := rowId
  stamp := stamp
  Change := Change
  apply := applyChange
  Query := Query
  check := rowCheck
  clash := clash
  id_stamp := fun T _ _ _ => by cases T <;> rfl
  id_apply := rowId_applyChange
  clash_symm := clash_symm

/-! ## The world outside -/

/-- What the service asks: the presign limiter and the object storage.  `postObject` is the browser's. -/
inductive Ask
  | isBlocked
  | recordFailure
  | isConfigured
  | presignedPost (key : MediaKey) (contentType : String) (exactBytes : Int)
  | postObject (key : MediaKey) (contentType : String) (body : List UInt8)
  | headObject (key : MediaKey)
  | readPrefix (key : MediaKey) (length : Nat)
  | deleteObject (key : MediaKey)
  | signedGetUrl (key : MediaKey) (contentType : String)

abbrev Ans : Ask → Type
  | .isBlocked | .isConfigured | .postObject .. => Bool
  | .recordFailure => Unit
  | .presignedPost .. | .deleteObject _ | .signedGetUrl .. => Except MediaFailure Unit
  | .headObject _ => Except MediaFailure (Option ObjectHead)
  | .readPrefix _ _ => Except MediaFailure (List UInt8)

structure Input where
  yes : Bool
  failure : Option MediaFailure

/-- A form a browser may hold. -/
structure Form where
  key : MediaKey
  contentType : String
  exactBytes : Int
deriving DecidableEq

/-- What a thread has seen of an object. -/
inductive Look
  | head (t : Tid) (key : MediaKey) (contentType : String)
  | body (t : Tid) (key : MediaKey) (start : List UInt8)
deriving DecidableEq

def Look.by_ : Look → Tid
  | .head t _ _ | .body t _ _ => t

/-- **The object storage**: what is in it, the forms and the keys that have been signed, and what the service has looked at. -/
structure Store where
  objects : MediaKey → Option StoredObject
  forms : List Form
  signed : List MediaKey
  looks : List Look

def serve (t : Tid) : (q : Ask) → Input → Nat → Store → Ans q × Store
  | .isBlocked, i, _, s | .isConfigured, i, _, s => (i.yes, s)
  | .recordFailure, _, _, s => ((), s)
  | .presignedPost key contentType exactBytes, i, _, s =>
    match i.failure with
    | some e => (.error e, s)
    | none => (.ok (), { s with forms := ⟨key, contentType, exactBytes⟩ :: s.forms })
  -- a form is good for its key, its type and its size, until it expires
  | .postObject key contentType body, i, _, s =>
    if i.yes ∧ ⟨key, contentType, body.length⟩ ∈ s.forms then
      (true, { s with objects := Function.update s.objects key (some ⟨contentType, body⟩) })
    else (false, s)
  | .headObject key, i, _, s =>
    match i.failure, s.objects key with
    | some e, _ => (.error e, s)
    | none, none => (.ok none, s)
    | none, some o => (.ok (some ⟨o.contentType, o.body.length⟩), { s with looks := .head t key o.contentType :: s.looks })
  | .readPrefix key length, i, _, s =>
    match i.failure, s.objects key with
    | some e, _ => (.error e, s)
    | none, none => (.error .storageUnavailable, s)
    | none, some o => (.ok (o.body.take length), { s with looks := .body t key (o.body.take length) :: s.looks })
  | .deleteObject key, i, _, s =>
    match i.failure with
    | some e => (.error e, s)
    | none => (.ok (), { s with objects := Function.update s.objects key none })
  | .signedGetUrl key _, i, _, s =>
    match i.failure with
    | some e => (.error e, s)
    | none => (.ok (), { s with signed := key :: s.signed })

def ownLooks (t : Tid) (s : Store) : List Look := s.looks.filter fun l => l.by_ = t

theorem serve_ownLooks (t u : Tid) (q : Ask) (i : Input) (n : Nat) (s : Store) (hu : u ≠ t) :
    ownLooks u (serve t q i n s).2 = ownLooks u s := by
  have hother : ∀ l : Look, l.by_ = t → ownLooks u { s with looks := l :: s.looks } = ownLooks u s := by
    intro l hl
    unfold ownLooks
    rw [List.filter_cons_of_neg (by rw [hl]; simpa using Ne.symm hu)]
  cases q with
  | presignedPost | deleteObject | signedGetUrl => cases hf : i.failure <;> simp [serve, hf, ownLooks]
  | postObject =>
    simp only [serve]
    split <;> rfl
  | headObject key =>
    cases hf : i.failure <;> cases ho : s.objects key <;> simp only [serve, hf, ho]
    exact hother _ rfl
  | readPrefix key length =>
    cases hf : i.failure <;> cases ho : s.objects key <;> simp only [serve, hf, ho]
    exact hother _ rfl
  | isBlocked | recordFailure | isConfigured => rfl

abbrev outside : Service where
  Ask := Ask
  Ans := Ans
  Input := Input
  Store := Store
  Mine := List Look
  serve := serve
  mine := ownLooks
  serve_mine := serve_ownLooks

inductive Err
  | catalogValidation (message : String)
  | catalogNotFound
  | duplicateSize
  | mediaPresignThrottled
  | mediaLimitReached
  | mediaNotUploaded
  | mediaMismatch
  | mediaOrderMismatch
  | reservationOverlap (startsOn endsOn : Int)
  | media (failure : MediaFailure)
  | staleData
  | integrity
deriving DecidableEq

abbrev Prg (α : Type) : Type := Code schema outside Err α

abbrev ask (q : Ask) : Prg (Ans q) := Session.ask (V := outside) q

abbrev update (T : Table) (i : Nat) (g : Change T) : Prg (Option (Row T)) :=
  Session.update (S := schema) Err.integrity T i g

abbrev updateEach (T : Table) (g : Change T) (ids : List Nat) : Prg (List (Row T)) :=
  Session.updateEach (S := schema) Err.integrity T g ids

abbrev insert (T : Table) (r : Row T) : Prg (Row T) := Session.insert (S := schema) Err.integrity T r

def liftExcept {α : Type} : Except Err α → Prg α
  | .ok a => return a
  | .error e => .raise e

def liftMedia {α : Type} : Except MediaFailure α → Prg α
  | .ok a => return a
  | .error e => .raise (.media e)

/-- The advisory locks: a dress's photos, its sizes, and the claims of the boutique. -/
inductive LockKey
  | media (dressId : Nat)
  | variants (dressId : Nat)
  | tenant
deriving DecidableEq

/-- `watched` is the one lock that a run keeps account of: a request that takes another is not held up by it, which only adds
runs.  `pendingTtl` is `pending_ttl_seconds`, `lower` is Python's and `sqlLower` the one that the index is over. -/
structure Config where
  watched : LockKey
  pendingTtl : Int
  lower : String → String
  sqlLower : String → String

def advisoryLock (cfg : Config) (key : LockKey) : Prg Unit :=
  if cfg.watched = key then .call (.sql .lock) fun _ => .ret () else return ()

end Catalog

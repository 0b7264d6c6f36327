import Boutique.Catalog
import Boutique.Like
import Boutique.Ranked
/-!
# Dresses — the service of the catalogue

`CatalogService`: photo work runs under the dress's media lock and the replacement of its sizes under another; archiving and
restoring take neither.  No storage call is made inside a transaction.
-/
namespace Catalog

open Txn Session
open Staff (MediaFailure acceptedExtension matchesMagicPrefix MAGIC_PREFIX_LENGTH MIN_UPLOAD_BYTES)
open Boutique (normalizeSizeLabel strip)

/-! ## Validation -/

def MAX_DRESS_NAME_LENGTH : Nat := 200
def MAX_DRESS_DESCRIPTION_LENGTH : Nat := 4000
def MAX_PRICE_AGOROT : Int := 100000000
def MAX_VARIANTS_PER_DRESS : Nat := 60
def MAX_SIZE_LABEL_LENGTH : Nat := 32
def MAX_VARIANT_QUANTITY : Int := 1000
def MAX_MEDIA_PER_DRESS : Nat := 12
def MAX_UPLOAD_BYTES : Int := 10485760
def MAX_SORT_ORDER : Int := 1000000
def MAX_SEARCH_LENGTH : Nat := 100
def DRESS_LIST_MAX_LIMIT : Int := 100
def MAX_LIST_OFFSET : Int := 1000000

def MAX_RESERVATION_SPAN_DAYS : Int := 365
def MAX_RESERVATION_NOTES_LENGTH : Nat := 500

structure VariantInput where
  sizeLabel : String
  quantity : Int
  sortOrder : Int
deriving DecidableEq

def validateDress (f : DressFields) : Except Err Unit :=
  if strip f.name = "" then .error (.catalogValidation "name must not be blank")
  else if MAX_DRESS_NAME_LENGTH < f.name.toList.length then .error (.catalogValidation "name is too long")
  else if f.description.any fun description => MAX_DRESS_DESCRIPTION_LENGTH < description.toList.length then
    .error (.catalogValidation "description is too long")
  else if f.priceAgorot.any fun price => ¬(0 < price ∧ price ≤ MAX_PRICE_AGOROT) then
    .error (.catalogValidation "price_agorot is out of bounds")
  else if MAX_SORT_ORDER < f.sortOrder.natAbs then .error (.catalogValidation "sort_order is out of bounds")
  else .ok ()

def validateVariant (v : VariantInput) : Except Err Unit :=
  if strip v.sizeLabel = "" then .error (.catalogValidation "size_label must not be blank")
  else if MAX_SIZE_LABEL_LENGTH < v.sizeLabel.toList.length then .error (.catalogValidation "size_label is too long")
  else if ¬(0 ≤ v.quantity ∧ v.quantity ≤ MAX_VARIANT_QUANTITY) then
    .error (.catalogValidation "quantity must be between 0 and 1000")
  else if MAX_SORT_ORDER < v.sortOrder.natAbs then .error (.catalogValidation "sort_order is out of bounds")
  else .ok ()

def validateVariants (variants : List VariantInput) : Except Err Unit :=
  if MAX_VARIANTS_PER_DRESS < variants.length then .error (.catalogValidation "at most 60 sizes are allowed")
  else variants.forM validateVariant

def rejectDuplicateSizes (cfg : Config) (variants : List VariantInput) : Except Err Unit :=
  go [] variants
where
  go (seen : List String) : List VariantInput → Except Err Unit
    | [] => .ok ()
    | v :: vs => if cfg.lower v.sizeLabel ∈ seen then .error .duplicateSize else go (cfg.lower v.sizeLabel :: seen) vs

def contentTypeError : Err := .catalogValidation "content_type must be one of: image/jpeg, image/png, image/webp"

def validatePresign (contentType : String) (byteSize : Int) : Except Err Unit :=
  if acceptedExtension contentType = none then .error contentTypeError
  else if ¬(MIN_UPLOAD_BYTES ≤ byteSize ∧ byteSize ≤ MAX_UPLOAD_BYTES) then
    .error (.catalogValidation "byte_size must be between 1024 and 10485760")
  else .ok ()

def extensionOf (contentType : String) : Except Err String :=
  match acceptedExtension contentType with
  | none => .error contentTypeError
  | some extension_ => .ok extension_

def validateSearch (search : Option String) : Except Err Unit :=
  if search.any fun search => MAX_SEARCH_LENGTH < search.toList.length then .error (.catalogValidation "search is too long")
  else .ok ()

def validateReservation (startsOn endsOn : Int) (notes : Option String) : Except Err Unit :=
  if endsOn < startsOn then .error (.catalogValidation "ends_on must not be before starts_on")
  else if MAX_RESERVATION_SPAN_DAYS < endsOn - startsOn then
    .error (.catalogValidation "a reservation may not span more than 365 days")
  else if notes.any fun notes => MAX_RESERVATION_NOTES_LENGTH < notes.toList.length then
    .error (.catalogValidation "notes is too long")
  else .ok ()

/-! ## Repositories -/

def marks : Like.Marks Char := ⟨'%', '_', '\\', Char.ne_of_val_ne (by decide), by decide, by decide⟩

namespace Dresses

/-- `name ILIKE '%…%' ESCAPE '\'`, of the escaped text: both sides are lowered. -/
def named (cfg : Config) (search name : String) : Bool :=
  Like.like marks (cfg.sqlLower name).toList (cfg.sqlLower (String.ofList (Like.containing marks search.toList))).toList = some true

def scope (cfg : Config) (archived : Bool) (search : Option String) (r : Dress) : Bool :=
  r.deletedAt.isSome = archived ∧ search.all fun search => search = "" ∨ named cfg search r.name

def listedBefore (r r' : Dress) : Bool :=
  r.sortOrder < r'.sortOrder ∨ r.sortOrder = r'.sortOrder ∧
    (r'.createdAt < r.createdAt ∨ r.createdAt = r'.createdAt ∧ r.id ≤ r'.id)

def listPage (cfg : Config) (archived : Bool) (search : Option String) (offset limit : Int) : Prg (List Dress) :=
  select .listPage fun s => ((((s.all .dresses).filter (scope cfg archived search)).insertionSort fun r r' =>
    listedBefore r r').drop offset.toNat).take limit.toNat

def count (cfg : Config) (archived : Bool) (search : Option String) : Prg Nat :=
  select .count fun s => (s.all .dresses).countP (scope cfg archived search)

def byId (dressId : Nat) : Prg (Option Dress) := select .byId fun s => (s.rows .dresses dressId).filter Dress.live

def byIdAnyState (dressId : Nat) : Prg (Option Dress) := select .byIdAnyState fun s => s.rows .dresses dressId

def updateFields (dressId : Nat) (fields : DressFields) : Prg (Option Dress) := do
  let row ← select .loaded fun s => (s.rows .dresses dressId).filter Dress.live
  match row with
  | none => return none
  | some r =>
    if Dress.fields r = fields then select .refreshed fun s => s.rows .dresses dressId
    else do
      let flushed ← update .dresses dressId (.flush fields)
      raiseIf (Option.isNone flushed) .staleData
      select .refreshed fun s => s.rows .dresses dressId

def softDelete (dressId : Nat) (now : Int) : Prg Bool := do
  let wrote ← update .dresses dressId (.softDelete now)
  return Option.isSome wrote

def restore (dressId : Nat) : Prg Bool := do
  let wrote ← update .dresses dressId .restore
  return Option.isSome wrote

end Dresses

structure VariantAggregate where
  variantCount : Nat
  totalQuantity : Int
deriving DecidableEq

namespace Variants

def active (s : Snapshot schema) (dressId : Nat) : List DressVariant :=
  Ranked.ranked DressVariant.sortOrder DressVariant.id ((s.all .dressVariants).filter (DressVariant.of dressId))

def listActive (dressId : Nat) : Prg (List DressVariant) := select .listActive fun s => active s dressId

def aggregate (s : Snapshot schema) (dressId : Nat) : Option VariantAggregate :=
  match (s.all .dressVariants).filter (DressVariant.of dressId) with
  | [] => none
  | rows => some ⟨rows.length, (rows.map DressVariant.quantity).foldl (· + ·) 0⟩

def aggregateByDress : List Nat → Prg (Nat → Option VariantAggregate)
  | [] => return fun _ => none
  | dressIds => select .aggregateByDress fun s dressId => if dressId ∈ dressIds then aggregate s dressId else none

def softDeleteAll (dressId : Nat) (now : Int) : Prg Nat := do
  let ids ← select .variantsToDelete fun s => matching s .dressVariants (DressVariant.of dressId)
  let rows ← updateEach .dressVariants (.softDelete dressId now : DressVariantChange) ids
  return rows.length

def restoreArchivedWith (dressId : Nat) (archivedAt : Int) : Prg Nat := do
  let ids ← select .variantsArchivedWith fun s => matching s .dressVariants fun (r : DressVariant) =>
    r.dressId = dressId ∧ r.deletedAt = some archivedAt
  let rows ← updateEach .dressVariants (.restoreArchivedWith dressId archivedAt : DressVariantChange) ids
  return rows.length

def insert (cfg : Config) (dressId : Nat) (v : VariantInput) : Prg DressVariant :=
  Catalog.insert .dressVariants (⟨0, 0, none, dressId, v.sizeLabel, cfg.sqlLower v.sizeLabel, v.quantity, v.sortOrder⟩ : DressVariant)

end Variants

/-- The first photo of a dress, and how many there are. -/
structure MediaCover where
  row : DressMedia
  mediaCount : Nat
deriving DecidableEq

namespace Media

def byId (dressId mediaId : Nat) : Prg (Option DressMedia) :=
  select .mediaById fun s => (s.rows .dressMedia mediaId).filter (DressMedia.of dressId)

def gallery (s : Snapshot schema) (dressId : Nat) : List DressMedia :=
  Ranked.ranked DressMedia.sortOrder DressMedia.id ((s.all .dressMedia).filter fun (r : DressMedia) => r.of dressId ∧ r.ready)

def listReady (dressId : Nat) : Prg (List DressMedia) := select .listReady fun s => gallery s dressId

def cover (s : Snapshot schema) (dressId : Nat) : Option MediaCover :=
  match gallery s dressId with
  | [] => none
  | row :: rows => some ⟨row, rows.length + 1⟩

def coversByDress : List Nat → Prg (Nat → Option MediaCover)
  | [] => return fun _ => none
  | dressIds => select .coversByDress fun s dressId => if dressId ∈ dressIds then cover s dressId else none

def countActive (dressId : Nat) (staleBefore : Int) : Prg Nat :=
  select .countActive fun s => (s.all .dressMedia).countP fun (r : DressMedia) =>
    r.of dressId ∧ (r.ready ∨ staleBefore ≤ r.createdAt)

def maxReadySortOrder (dressId : Nat) : Prg Int :=
  select .maxReadySortOrder fun s => ((latestBy DressMedia.sortOrder
    ((s.all .dressMedia).filter fun (r : DressMedia) => r.of dressId ∧ r.ready)).map DressMedia.sortOrder).getD (-1)

def insertPending (dressId : Nat) (contentType extension_ : String) (byteSize : Int) : Prg DressMedia :=
  insert .dressMedia (⟨0, 0, none, dressId, ⟨dressId, 0, extension_⟩, contentType, byteSize, .pending, 0⟩ : DressMedia)

def sweepStalePendings (dressId : Nat) (staleBefore now : Int) : Prg (List DressMedia) := do
  let ids ← select .stalePendings fun s => matching s .dressMedia fun (r : DressMedia) =>
    r.of dressId ∧ r.status = .pending ∧ r.createdAt < staleBefore
  updateEach .dressMedia (.sweep dressId staleBefore now : DressMediaChange) ids

def promoteToReady (dressId mediaId : Nat) (sortOrder : Int) : Prg Bool := do
  let wrote ← update .dressMedia mediaId (.promoteToReady dressId sortOrder)
  return Option.isSome wrote

def setSortOrders (dressId : Nat) : Int → List Nat → Prg Unit
  | _, [] => return ()
  | position, mediaId :: mediaIds => do
    let _ ← update .dressMedia mediaId (.setSortOrder dressId position)
    setSortOrders dressId (position + 1) mediaIds

def softDelete (dressId mediaId : Nat) (now : Int) : Prg Bool := do
  let wrote ← update .dressMedia mediaId (.softDelete dressId now)
  return Option.isSome wrote

def softDeleteAll (dressId : Nat) (now : Int) : Prg Nat := do
  let ids ← select .mediaToDelete fun s => matching s .dressMedia (DressMedia.of dressId)
  let rows ← updateEach .dressMedia (.softDelete dressId now : DressMediaChange) ids
  return rows.length

def restoreArchivedWith (dressId : Nat) (archivedAt : Int) : Prg Nat := do
  let ids ← select .mediaArchivedWith fun s => matching s .dressMedia fun (r : DressMedia) =>
    r.dressId = dressId ∧ r.deletedAt = some archivedAt
  let rows ← updateEach .dressMedia (.restoreArchivedWith dressId archivedAt : DressMediaChange) ids
  return rows.length

end Media

namespace Reservations

def insert (dressId : Nat) (startsOn endsOn : Int) (customerId : Option Nat) (notes : Option String) : Prg DressReservation :=
  Catalog.insert .dressReservations (⟨0, 0, none, dressId, startsOn, endsOn, customerId, notes⟩ : DressReservation)

def overlapping (dressId : Nat) (startsOn endsOn : Int) : Prg (List DressReservation) :=
  select .overlapping fun s => Ranked.ranked DressReservation.startsOn DressReservation.id ((s.all .dressReservations).filter
    fun (r : DressReservation) => r.of dressId ∧ r.startsOn ≤ endsOn ∧ startsOn ≤ r.endsOn)

def liveByDress (dressId : Nat) : Prg (List DressReservation) :=
  select .liveByDress fun s => Ranked.ranked (fun (r : DressReservation) => -r.startsOn) DressReservation.id
    ((s.all .dressReservations).filter (DressReservation.of dressId))

def softDelete (dressId reservationId : Nat) (now : Int) : Prg Bool := do
  let wrote ← update .dressReservations reservationId (.softDelete dressId now)
  return Option.isSome wrote

end Reservations

namespace Customers

def byId (customerId : Nat) : Prg (Option Customer) :=
  select .customerById fun s => (s.rows .customers customerId).filter fun (r : Customer) => r.deletedAt = none

def byIds (ids : List Nat) : Prg (List Customer) :=
  if ids = [] then return []
  else select .customersByIds fun s => (s.all .customers).filter fun (r : Customer) => r.id ∈ ids ∧ r.deletedAt = none

end Customers

def record (actorId entity : Nat) (action : AuditAction) : Prg Unit := do
  let _ ← insert .auditLog (⟨0, 0, actorId, entity, action⟩ : AuditLog)
  return ()

/-! ## The answers -/

structure StockSummary where
  variantCount : Nat
  totalQuantity : Int
  outOfStock : Bool
deriving DecidableEq

def stockSummary (aggregate : VariantAggregate) : StockSummary :=
  ⟨aggregate.variantCount, aggregate.totalQuantity, aggregate.totalQuantity = 0⟩

def emptyAggregate : VariantAggregate := ⟨0, 0⟩

/-- A photo as it is shown; `url` says whether one was signed. -/
structure MediaView where
  row : DressMedia
  url : Bool
deriving DecidableEq

structure DressView where
  row : Dress
  summary : StockSummary
  mediaCount : Nat
  cover : Option MediaView
  uploadsEnabled : Bool
  slotsRemaining : Nat
  variants : List DressVariant
  media : List MediaView
deriving DecidableEq

structure ReservationView where
  row : DressReservation
  customerName : Option String
deriving DecidableEq

inductive Response
  | list (items : List DressView) (total : Nat) (offset limit : Int)
  | view (view : DressView)
  | archived
  | presigned (mediaId : Nat) (key : MediaKey) (contentType : String) (maxBytes : Int)
  | posted (accepted : Bool)
  | reserved (view : ReservationView)
  | reservations (views : List ReservationView)
  | released
deriving DecidableEq

/-! ## Views -/

/-- Signing degrades: no bucket, or a signature that fails, is a photo without a url. -/
def signMedia (row : DressMedia) : Prg MediaView := do
  let configured ← ask .isConfigured
  if configured then do
    let answer ← ask (.signedGetUrl (DressMedia.storageKey row) (DressMedia.contentType row))
    return ⟨row, match answer with
      | .ok _ => true
      | .error _ => false⟩
  else return ⟨row, false⟩

def signEach : List DressMedia → Prg (List MediaView)
  | [] => return []
  | row :: rows => do
    let view ← signMedia row
    let views ← signEach rows
    return view :: views

/-- Everything the detail view needs, read in one transaction. -/
structure DetailRows where
  dress : Dress
  variants : List DressVariant
  media : List DressMedia
  aggregate : VariantAggregate
  activeMedia : Nat

def loadDetail (cfg : Config) (dressId : Nat) (includeArchived : Bool) (txNow : Int) : Prg DetailRows := do
  let found ← if includeArchived then Dresses.byIdAnyState dressId else Dresses.byId dressId
  let dress ← orRaise found .catalogNotFound
  let aggregates ← Variants.aggregateByDress [dressId]
  let variants ← Variants.listActive dressId
  let media ← Media.listReady dressId
  let activeMedia ← Media.countActive dressId (txNow - cfg.pendingTtl)
  return ⟨dress, variants, media, (aggregates dressId).getD emptyAggregate, activeMedia⟩

def detailView (cfg : Config) (dressId : Nat) (includeArchived : Bool) : Prg Response := do
  let rows ← tenantSession fun txNow => loadDetail cfg dressId includeArchived txNow
  let media ← signEach rows.media
  let configured ← ask .isConfigured
  return .view ⟨rows.dress, stockSummary rows.aggregate, media.length, media.head?, configured,
    MAX_MEDIA_PER_DRESS - rows.activeMedia, rows.variants, media⟩

def getDress (cfg : Config) (dressId : Nat) : Prg Response := detailView cfg dressId true

/-! ## Dresses -/

/-- What a page of the list is made of, read in one transaction. -/
structure ListRows where
  rows : List Dress
  total : Nat
  aggregates : Nat → Option VariantAggregate
  covers : Nat → Option MediaCover

def listDressesIn (cfg : Config) (archived : Bool) (search : Option String) (offset limit : Int) : Prg ListRows := do
  let rows ← Dresses.listPage cfg archived search offset limit
  let total ← Dresses.count cfg archived search
  let aggregates ← Variants.aggregateByDress (rows.map Dress.id)
  let covers ← Media.coversByDress (rows.map Dress.id)
  return ⟨rows, total, aggregates, covers⟩

def signCover : Option MediaCover → Prg (Option MediaView)
  | none => return none
  | some cover => do
    let view ← signMedia cover.row
    return some view

def viewEach (aggregates : Nat → Option VariantAggregate) (covers : Nat → Option MediaCover) : List Dress → Prg (List DressView)
  | [] => return []
  | row :: rows => do
    let mediaCount := ((covers row.id).map MediaCover.mediaCount).getD 0
    let shown ← signCover (covers row.id)
    let configured ← ask .isConfigured
    let views ← viewEach aggregates covers rows
    return ⟨row, stockSummary ((aggregates row.id).getD emptyAggregate), mediaCount, shown, configured,
      MAX_MEDIA_PER_DRESS - mediaCount, [], []⟩ :: views

/-- **The list of the console**: one page, clamped; the covers are signed after its transaction. -/
def listDresses (cfg : Config) (archived : Bool) (search : Option String) (offset limit : Int) : Prg Response := do
  let offset := min (max offset 0) MAX_LIST_OFFSET
  let limit := min (max limit 1) DRESS_LIST_MAX_LIMIT
  liftExcept (validateSearch search)
  let page ← tenantSession fun _ => listDressesIn cfg archived search offset limit
  let items ← viewEach page.aggregates page.covers page.rows
  return .list items page.total offset limit

def createDress (fields : DressFields) (actorId : Nat) : Prg Response := do
  liftExcept (validateDress fields)
  let row ← tenantSession fun _ => do
    let row ← insert .dresses (⟨0, 0, none, fields.name, fields.description, fields.priceAgorot, fields.priceVisible,
      fields.reserved, fields.sortOrder⟩ : Dress)
    record actorId (Dress.id row) (.dressCreated (Dress.name row) (Dress.priceVisible row))
    return row
  let configured ← ask .isConfigured
  return .view ⟨row, stockSummary emptyAggregate, 0, none, configured, MAX_MEDIA_PER_DRESS, [], []⟩

def updateDress (cfg : Config) (dressId : Nat) (fields : DressFields) (actorId : Nat) : Prg Response := do
  liftExcept (validateDress fields)
  tenantSession fun _ => do
    let updated ← Dresses.updateFields dressId fields
    raiseIf updated.isNone .catalogNotFound
    record actorId dressId (.dressUpdated fields.name fields.priceVisible fields.reserved)
  detailView cfg dressId false

def archiveIn (dressId actorId : Nat) (txNow : Int) : Prg Unit := do
  let found ← Dresses.byId dressId
  let dress ← orRaise found .catalogNotFound
  let _ ← Media.softDeleteAll dressId txNow
  let _ ← Variants.softDeleteAll dressId txNow
  let _ ← Dresses.softDelete dressId txNow
  record actorId dressId (.dressArchived dress.name)

/-- **The archive**: the children first, and all with one instant. -/
def archiveDress (dressId actorId : Nat) : Prg Response := do
  tenantSession fun txNow => archiveIn dressId actorId txNow
  return .archived

def restoreIn (dressId actorId : Nat) : Prg Unit := do
  let found ← Dresses.byIdAnyState dressId
  let dress ← orRaise found .catalogNotFound
  let archivedAt ← orRaise dress.deletedAt .catalogNotFound
  let _ ← Variants.restoreArchivedWith dressId archivedAt
  let _ ← Media.restoreArchivedWith dressId archivedAt
  let _ ← Dresses.restore dressId
  record actorId dressId (.dressRestored dress.name)

/-- **The restore**: the children with the dress's own instant. -/
def restoreDress (cfg : Config) (dressId actorId : Nat) : Prg Response := do
  tenantSession fun _ => restoreIn dressId actorId
  detailView cfg dressId false

/-! ## Sizes -/

def insertEach (cfg : Config) (dressId : Nat) : List VariantInput → Prg Unit
  | [] => return ()
  | v :: vs => do
    let _ ← Variants.insert cfg dressId v
    insertEach cfg dressId vs

def replaceIn (cfg : Config) (dressId : Nat) (normalized : List VariantInput) (actorId : Nat) (txNow : Int) : Prg Unit := do
  advisoryLock cfg (.variants dressId)
  let found ← Dresses.byId dressId
  raiseIf found.isNone .catalogNotFound
  let _ ← Variants.softDeleteAll dressId txNow
  insertEach cfg dressId normalized
  record actorId dressId (.dressVariantsReplaced (normalized.map VariantInput.sizeLabel)
    ((normalized.map VariantInput.quantity).foldl (· + ·) 0))

/-- **The whole size matrix at once**: a rejected one leaves it untouched. -/
def replaceVariants (cfg : Config) (dressId : Nat) (variants : List VariantInput) (actorId : Nat) : Prg Response := do
  let normalized := variants.map fun v => { v with sizeLabel := normalizeSizeLabel v.sizeLabel }
  liftExcept (validateVariants normalized)
  liftExcept (rejectDuplicateSizes cfg normalized)
  let result ← ((tenantSession fun txNow => replaceIn cfg dressId normalized actorId txNow).attempt : Prg (Except Err Unit))
  match result with
  | .ok _ => detailView cfg dressId false
  | .error .integrity => .raise .duplicateSize
  | .error e => .raise e

/-! ## Photos -/

def bestEffortDelete (key : MediaKey) : Prg Unit := do
  let _ ← ask (.deleteObject key)
  return ()

def deleteEach : List MediaKey → Prg Unit
  | [] => return ()
  | key :: keys => do
    bestEffortDelete key
    deleteEach keys

/-- The sweep, the ceiling, and the pending row; and what was swept. -/
def presignIn (cfg : Config) (dressId : Nat) (contentType : String) (byteSize : Int) (actorId : Nat) (txNow : Int) :
    Prg (List DressMedia × DressMedia) := do
  advisoryLock cfg (.media dressId)
  let found ← Dresses.byId dressId
  raiseIf found.isNone .catalogNotFound
  let swept ← Media.sweepStalePendings dressId (txNow - cfg.pendingTtl) txNow
  let active ← Media.countActive dressId (txNow - cfg.pendingTtl)
  raiseIf (MAX_MEDIA_PER_DRESS ≤ active) .mediaLimitReached
  let extension_ ← liftExcept (extensionOf contentType)
  let row ← Media.insertPending dressId contentType extension_ byteSize
  record actorId row.id (.dressMediaPresigned dressId row.storageKey contentType byteSize)
  return (swept, row)

def releasePending (cfg : Config) (dressId mediaId : Nat) : Prg Unit :=
  tenantSession fun txNow => do
    advisoryLock cfg (.media dressId)
    let _ ← Media.softDelete dressId mediaId txNow
    return ()

/-- **The presign**: the pending row is committed first and the form signed after. -/
def presignMedia (cfg : Config) (dressId : Nat) (contentType : String) (byteSize : Int) (actorId : Nat) : Prg Response := do
  let blocked ← ask .isBlocked
  raiseIf blocked .mediaPresignThrottled
  liftExcept (validatePresign contentType byteSize)
  let configured ← ask .isConfigured
  raiseIf (!configured) (.media .notConfigured)
  let result ← ((tenantSession fun txNow => presignIn cfg dressId contentType byteSize actorId txNow).attempt :
    Prg (Except Err (List DressMedia × DressMedia)))
  match result with
  -- a refused presign spends budget too
  | .error e =>
    if e = .catalogNotFound ∨ e = .mediaLimitReached then do
      ask .recordFailure
      .raise e
    else .raise e
  | .ok (swept, row) => do
    ask .recordFailure
    deleteEach (swept.map DressMedia.storageKey)
    let signed ← ask (.presignedPost row.storageKey contentType byteSize)
    match signed with
    | .ok _ => return .presigned row.id row.storageKey contentType byteSize
    | .error failure => do
      releasePending cfg dressId row.id
      .raise (.media failure)

def rejectObject {α : Type} (key : MediaKey) : Prg α := do
  bestEffortDelete key
  .raise .mediaMismatch

def checkObject (key : MediaKey) (declaredType : String) : Prg Unit := do
  let answer ← ask (.headObject key)
  let found ← liftMedia answer
  let head ← orRaise found .mediaNotUploaded
  if head.contentType ≠ declaredType then rejectObject key
  else do
    let answer ← ask (.readPrefix key MAGIC_PREFIX_LENGTH)
    let start ← liftMedia answer
    if !matchesMagicPrefix declaredType start then rejectObject key else return ()

def promoteIn (cfg : Config) (dressId mediaId actorId : Nat) : Prg Unit := do
  advisoryLock cfg (.media dressId)
  let found ← Media.byId dressId mediaId
  let row ← orRaise found .catalogNotFound
  if row.status = .pending then do
    let last ← Media.maxReadySortOrder dressId
    let _ ← Media.promoteToReady dressId mediaId (last + 1)
    record actorId mediaId (.dressMediaConfirmed dressId (last + 1))
  else return ()

/-- **The confirm**: the object is looked at between two transactions. -/
def confirmMedia (cfg : Config) (dressId mediaId actorId : Nat) : Prg Response := do
  let configured ← ask .isConfigured
  raiseIf (!configured) (.media .notConfigured)
  let row ← tenantSession fun _ => do
    let dress ← Dresses.byId dressId
    raiseIf dress.isNone .catalogNotFound
    let found ← Media.byId dressId mediaId
    orRaise found .catalogNotFound
  if row.status = .ready then detailView cfg dressId false
  else do
    checkObject row.storageKey row.contentType
    tenantSession fun _ => promoteIn cfg dressId mediaId actorId
    detailView cfg dressId false

def deleteMediaIn (cfg : Config) (dressId mediaId actorId : Nat) (txNow : Int) : Prg MediaKey := do
  advisoryLock cfg (.media dressId)
  let dress ← Dresses.byId dressId
  raiseIf dress.isNone .catalogNotFound
  let found ← Media.byId dressId mediaId
  let row ← orRaise found .catalogNotFound
  let _ ← Media.softDelete dressId mediaId txNow
  record actorId mediaId (.dressMediaDeleted dressId row.storageKey (row.status = .pending))
  return row.storageKey

def deleteMedia (cfg : Config) (dressId mediaId actorId : Nat) : Prg Response := do
  let configured ← ask .isConfigured
  raiseIf (!configured) (.media .notConfigured)
  let key ← tenantSession fun txNow => deleteMediaIn cfg dressId mediaId actorId txNow
  bestEffortDelete key
  detailView cfg dressId false

def sorted (ids : List Nat) : List Nat := List.insertionSort (· ≤ ·) ids

def reorderIn (cfg : Config) (dressId : Nat) (mediaIds : List Nat) (actorId : Nat) : Prg Unit := do
  advisoryLock cfg (.media dressId)
  let dress ← Dresses.byId dressId
  raiseIf dress.isNone .catalogNotFound
  let current ← Media.listReady dressId
  raiseIf (sorted mediaIds ≠ sorted (current.map DressMedia.id)) .mediaOrderMismatch
  Media.setSortOrders dressId 0 mediaIds
  record actorId dressId (.dressMediaReordered mediaIds)

/-- **The reorder**: an exact permutation of what is shown, or a conflict. -/
def reorderMedia (cfg : Config) (dressId : Nat) (mediaIds : List Nat) (actorId : Nat) : Prg Response := do
  tenantSession fun _ => reorderIn cfg dressId mediaIds actorId
  detailView cfg dressId false

def postMedia (key : MediaKey) (contentType : String) (body : List UInt8) : Prg Response := do
  let accepted ← ask (.postObject key contentType body)
  return .posted accepted

/-! ## Reservations -/

def resolveCustomerNames (rows : List DressReservation) : Prg (List ReservationView) := do
  let customers ← Customers.byIds (rows.filterMap DressReservation.customerId)
  return rows.map fun row => ⟨row, row.customerId.bind fun customerId =>
    (customers.find? fun customer => customer.id = customerId).map Customer.name⟩

def listIn (dressId : Nat) : Prg (List ReservationView) := do
  let dress ← Dresses.byId dressId
  raiseIf dress.isNone .catalogNotFound
  let rows ← Reservations.liveByDress dressId
  resolveCustomerNames rows

def listReservations (dressId : Nat) : Prg Response := do
  let views ← tenantSession fun _ => listIn dressId
  return .reservations views

def checkCustomer : Option Nat → Prg Unit
  | none => return ()
  | some customerId => do
    let found ← Customers.byId customerId
    raiseIf (found.all fun customer => customer.erasedAt.isSome) .catalogNotFound

def reserveIn (cfg : Config) (dressId : Nat) (startsOn endsOn : Int) (customerId : Option Nat) (notes : Option String)
    (actorId : Nat) : Prg ReservationView := do
  advisoryLock cfg .tenant
  let dress ← Dresses.byId dressId
  raiseIf dress.isNone .catalogNotFound
  checkCustomer customerId
  let conflicts ← Reservations.overlapping dressId startsOn endsOn
  match conflicts with
  | conflict :: _ => .raise (.reservationOverlap conflict.startsOn conflict.endsOn)
  | [] => do
    let row ← Reservations.insert dressId startsOn endsOn customerId notes
    record actorId row.id (.dressReservationCreated dressId startsOn endsOn customerId)
    let views ← resolveCustomerNames [row]
    return views.headD ⟨row, none⟩

/-- **A reservation** is checked and written under the lock of the boutique's claims. -/
def createReservation (cfg : Config) (dressId : Nat) (startsOn endsOn : Int) (customerId : Option Nat) (notes : Option String)
    (actorId : Nat) : Prg Response := do
  liftExcept (validateReservation startsOn endsOn notes)
  let view ← tenantSession fun _ => reserveIn cfg dressId startsOn endsOn customerId notes actorId
  return .reserved view

def freeIn (dressId reservationId actorId : Nat) (txNow : Int) : Prg Unit := do
  let dress ← Dresses.byId dressId
  raiseIf dress.isNone .catalogNotFound
  let deleted ← Reservations.softDelete dressId reservationId txNow
  raiseIf (!deleted) .catalogNotFound
  record actorId reservationId (.dressReservationDeleted dressId)

def deleteReservation (dressId reservationId actorId : Nat) : Prg Response := do
  tenantSession fun txNow => freeIn dressId reservationId actorId txNow
  return .released

/-! ## Requests -/

/-- What the owner's console asks, and the browser's post to the storage. -/
inductive Request
  | listDresses (archived : Bool) (search : Option String) (offset limit : Int)
  | createDress (fields : DressFields) (actorId : Nat)
  | updateDress (dressId : Nat) (fields : DressFields) (actorId : Nat)
  | getDress (dressId : Nat)
  | archiveDress (dressId actorId : Nat)
  | restoreDress (dressId actorId : Nat)
  | replaceVariants (dressId : Nat) (variants : List VariantInput) (actorId : Nat)
  | presignMedia (dressId : Nat) (contentType : String) (byteSize : Int) (actorId : Nat)
  | confirmMedia (dressId mediaId actorId : Nat)
  | deleteMedia (dressId mediaId actorId : Nat)
  | reorderMedia (dressId : Nat) (mediaIds : List Nat) (actorId : Nat)
  | listReservations (dressId : Nat)
  | createReservation (dressId : Nat) (startsOn endsOn : Int) (customerId : Option Nat) (notes : Option String) (actorId : Nat)
  | deleteReservation (dressId reservationId actorId : Nat)
  | postMedia (key : MediaKey) (contentType : String) (body : List UInt8)

def Request.code (cfg : Config) : Request → Prg Response
  | .listDresses archived search offset limit => Catalog.listDresses cfg archived search offset limit
  | .createDress fields actorId => Catalog.createDress fields actorId
  | .updateDress dressId fields actorId => Catalog.updateDress cfg dressId fields actorId
  | .getDress dressId => Catalog.getDress cfg dressId
  | .archiveDress dressId actorId => Catalog.archiveDress dressId actorId
  | .restoreDress dressId actorId => Catalog.restoreDress cfg dressId actorId
  | .replaceVariants dressId variants actorId => Catalog.replaceVariants cfg dressId variants actorId
  | .presignMedia dressId contentType byteSize actorId => Catalog.presignMedia cfg dressId contentType byteSize actorId
  | .confirmMedia dressId mediaId actorId => Catalog.confirmMedia cfg dressId mediaId actorId
  | .deleteMedia dressId mediaId actorId => Catalog.deleteMedia cfg dressId mediaId actorId
  | .reorderMedia dressId mediaIds actorId => Catalog.reorderMedia cfg dressId mediaIds actorId
  | .listReservations dressId => Catalog.listReservations dressId
  | .createReservation dressId startsOn endsOn customerId notes actorId =>
    Catalog.createReservation cfg dressId startsOn endsOn customerId notes actorId
  | .deleteReservation dressId reservationId actorId => Catalog.deleteReservation dressId reservationId actorId
  | .postMedia key contentType body => Catalog.postMedia key contentType body

/-- **The catalogue about to be worked on**, one request for each thread. -/
def serving (cfg : Config) (reqs : Tid → Request) (store : Store) (rows : Rows schema) (next : Nat) (clock : Int) :
    Conf (machine schema outside Err) Response :=
  staged store (fun t => (reqs t).code cfg) rows next clock

end Catalog

import Boutique.Outcome
import Boutique.Validation
import Mathlib.Data.Rat.Defs
/-!
# LemonSqueezy — a signed body is read as a webhook

The body is any bytes, and its document any JSON as Python reads it: infinite and undefined numbers, integers of any size,
members of any kind.  What the reading raises is an invalid webhook where the `except` clause names it.
-/
namespace LemonSqueezy

open Outcome

abbrev Text : Type := List Nat

def text (s : String) : Text := s.toList.map Char.toNat

/-- A Python `float`. -/
inductive Float where
  | nan
  | infinite (negative : Bool)
  | finite (value : ℚ)
deriving DecidableEq

/-- What `json.loads` gives. -/
inductive Json where
  | null
  | bool (value : Bool)
  | int (value : Int)
  | float (value : Float)
  | str (value : Text)
  | list (items : List Json)
  | object (members : List (Text × Json))

abbrev Dict : Type := List (Text × Json)

inductive PyError where
  | valueError
  | typeError
  | keyError
  | overflowError
  | recursionError
deriving DecidableEq

/-- What `json.loads` fails with: bytes that are no document, or one nested too deeply. -/
inductive LoadsError where
  | valueError
  | recursionError
deriving DecidableEq

def LoadsError.raised : LoadsError → PyError
  | .valueError => .valueError
  | .recursionError => .recursionError

/-- The parts of the standard library that are used: `json.loads`, the `repr` of a float, a list or a dict (none where it is
nested too deeply), and the values of the decimal digits. -/
structure Python where
  loads : List UInt8 → Except LoadsError Json
  repr : Json → Option Text
  digit : Nat → Option Nat

def INT_MAX_STR_DIGITS : Nat := 4300

variable (py : Python)

def str : Json → Except PyError Text
  | .str value => .ok value
  | .null => .ok (text "None")
  | .bool value => .ok (text (if value then "True" else "False"))
  | .int value =>
    if INT_MAX_STR_DIGITS < (toString value.natAbs).length then .error .valueError else .ok (text (toString value))
  | value => match py.repr value with
    | some shown => .ok shown
    | none => .error .recursionError

def digits : Text → Option (List Nat)
  | [] => none
  | [c] => (py.digit c).map fun d => [d]
  | c :: 95 :: rest => do
    let d ← py.digit c
    return d :: (← digits rest)
  | c :: rest => do
    let d ← py.digit c
    return d :: (← digits rest)

/-- What `int` skips at the ends of a string: the separators of U+001C to U+001F are not of it, though `str.isspace` has them. -/
def isSpace (c : Nat) : Bool := Boutique.isSpace (Char.ofNat c) ∧ ¬(28 ≤ c ∧ c ≤ 31)

def intOfText (value : Text) : Option Int :=
  let trimmed := ((value.dropWhile isSpace).reverse.dropWhile isSpace).reverse
  let (negative, unsigned) := match trimmed with
    | 45 :: rest => (true, rest)
    | 43 :: rest => (false, rest)
    | _ => (false, trimmed)
  match digits py unsigned with
  | none => none
  | some read =>
    if INT_MAX_STR_DIGITS < read.length then none
    else
      let magnitude : Int := read.foldl (fun n d => n * 10 + d) 0
      some (if negative then -magnitude else magnitude)

def int : Json → Except PyError Int
  | .int value => .ok value
  | .bool value => .ok (if value then 1 else 0)
  | .float (.finite value) => .ok (value.num.tdiv value.den)
  | .float .nan => .error .valueError
  | .float (.infinite _) => .error .overflowError
  | .str value => match intOfText py value with
    | some n => .ok n
    | none => .error .valueError
  | _ => .error .typeError

/-- `mapping.get(name)`; of a key that is given twice the last stands. -/
def get (mapping : Dict) (name : String) : Option Json :=
  (mapping.reverse.find? fun member => member.1 = text name).map Prod.snd

def item (mapping : Dict) (name : String) : Except PyError Json :=
  match get mapping name with
  | some value => .ok value
  | none => .error .keyError

def mapping : Json → Except PyError Dict
  | .object members => .ok members
  | _ => .error .typeError

def truthy : Json → Bool
  | .null => false
  | .bool value => value
  | .int value => value ≠ 0
  | .float value => value ≠ .finite 0
  | .str value => value ≠ []
  | .list items => !items.isEmpty
  | .object members => !members.isEmpty

def REFERENCE_KEY : String := "reference"
def PAID_EVENT_NAME : String := "order_created"
def PAID_ORDER_STATUS : String := "paid"

structure WebhookEvent where
  providerSessionId : Text
  providerTransactionId : Text
  amountAgorot : Int
  paid : Bool
deriving DecidableEq

def isText (value : Option Json) (expected : String) : Bool :=
  match value with
  | some (.str found) => found = text expected
  | _ => false

def isPaid (eventName : Text) (attributes : Dict) : Bool :=
  if eventName ≠ text PAID_EVENT_NAME then false
  else if ((get attributes "refunded").map truthy).getD false then false
  else isText (get attributes "status") PAID_ORDER_STATUS

structure Opened where
  eventMeta : Dict
  data : Dict
  attributes : Dict
  custom : Dict

def opened (payload : Json) : Except PyError Opened := do
  let payload ← mapping payload
  let eventMeta ← item payload "meta"
  let data ← item payload "data"
  let eventMeta ← mapping eventMeta
  let data ← mapping data
  let attributes ← item data "attributes"
  let custom ← item eventMeta "custom_data"
  let attributes ← mapping attributes
  let custom ← mapping custom
  return ⟨eventMeta, data, attributes, custom⟩

def eventOf (o : Opened) : Except PyError WebhookEvent := do
  let providerSessionId ← (item o.custom REFERENCE_KEY) >>= str py
  let providerTransactionId ← (item o.data "id") >>= str py
  let amountAgorot ← (item o.attributes "total") >>= int py
  let eventName ← (item o.eventMeta "event_name") >>= str py
  return ⟨providerSessionId, providerTransactionId, amountAgorot, isPaid eventName o.attributes⟩

def tryParse (body : List UInt8) : Except PyError WebhookEvent := do
  let payload ← (py.loads body).mapError LoadsError.raised
  let o ← opened payload
  eventOf py o

def caught : PyError → Bool
  | .valueError | .typeError | .keyError => true
  | .overflowError | .recursionError => false

/-- What a call raises: `GatewayWebhookInvalidError`, or an exception nothing caught. -/
inductive Raised where
  | gatewayWebhookInvalid
  | uncaught (e : PyError)
deriving DecidableEq

def parse (body : List UInt8) : Except Raised WebhookEvent :=
  match tryParse py body with
  | .ok event => .ok event
  | .error e => if caught e then .error .gatewayWebhookInvalid else .error (.uncaught e)

abbrev HexDigest : Type := String → List UInt8 → String

def WEBHOOK_SECRET_FIELD : String := "webhook_secret"

def field (credentials : List (String × String)) (name : String) : String := (credentials.lookup name).getD ""

/-- The signature is that of the body under a secret that is not empty. -/
def Signed (hexdigest : HexDigest) (credentials : List (String × String)) (body : List UInt8) (signature : String) : Prop :=
  field credentials WEBHOOK_SECRET_FIELD ≠ "" ∧ hexdigest (field credentials WEBHOOK_SECRET_FIELD) body = signature

instance (hexdigest : HexDigest) (credentials : List (String × String)) (body : List UInt8) (signature : String) :
    Decidable (Signed hexdigest credentials body signature) :=
  inferInstanceAs (Decidable (_ ∧ _))

def verifyWebhook (hexdigest : HexDigest) (credentials : List (String × String)) (body : List UInt8) (signature : String) :
    Except Raised WebhookEvent :=
  if Signed hexdigest credentials body signature then parse py body else .error .gatewayWebhookInvalid

/-! ## The checkout -/

structure PaymentSession where
  providerSessionId : Text
  redirectUrl : Text
deriving DecidableEq

structure Response where
  statusCode : Nat
  document : Option Json

inductive GatewayError where
  | unavailable (message : String)
  | credentialsRejected (message : String)
deriving DecidableEq

def RATE_LIMITED : Nat := 429
def SERVER_ERROR_FLOOR : Nat := 500

def raiseForStatus (response : Response) : Except GatewayError Unit :=
  let message := "lemonsqueezy " ++ toString response.statusCode
  if 200 ≤ response.statusCode ∧ response.statusCode ≤ 299 then .ok ()
  else if response.statusCode = RATE_LIMITED ∨ SERVER_ERROR_FLOOR ≤ response.statusCode then .error (.unavailable message)
  else .error (.credentialsRejected message)

def dictOf : Option Json → Option Dict
  | some (.object members) => some members
  | _ => none

def resource (response : Response) : Option Dict := (dictOf response.document).bind fun payload => dictOf (get payload "data")

def stringMember (members : Dict) (name : String) : Option Text :=
  match get members name with
  | some (.str value) => if value = [] then none else some value
  | _ => none

def equals (n : Int) : Option Json → Bool
  | some (.int value) => value = n
  | some (.bool value) => (if value then 1 else 0) = n
  | some (.float value) => value = .finite n
  | _ => false

def isTrue : Option Json → Bool
  | some (.bool value) => value
  | _ => false

def custom (reference : Text) : Dict := [(text REFERENCE_KEY, .str reference)]

def trimmed (credentials : List (String × String)) (name : String) : Json :=
  .str (text (Boutique.strip (field credentials name)))

def checkout (credentials : List (String × String)) (amountAgorot : Int) (reference returnUrl expiresAt : Text) : Json :=
  .object [(text "data", .object [
    (text "type", .str (text "checkouts")),
    (text "attributes", .object [
      (text "test_mode", .bool true),
      (text "expires_at", .str expiresAt),
      (text "custom_price", .int amountAgorot),
      (text "checkout_data", .object [(text "custom", .object (custom reference))]),
      (text "checkout_options", .object [(text "embed", .bool false)]),
      (text "product_options", .object [(text "redirect_url", .str returnUrl)])]),
    (text "relationships", .object [
      (text "store", .object [(text "data", .object [(text "type", .str (text "stores")),
        (text "id", trimmed credentials "store_id")])]),
      (text "variant", .object [(text "data", .object [(text "type", .str (text "variants")),
        (text "id", trimmed credentials "variant_id")])])])])]

def otherReference (attributes : Dict) (reference : Text) : Bool :=
  match (dictOf (get attributes "checkout_data")).bind fun data => dictOf (get data "custom") with
  | none => false
  | some echoed => match get echoed REFERENCE_KEY with
    | some (.str found) => found ≠ reference
    | _ => true

def createSession (provider : Json → Response) (credentials : List (String × String)) (amountAgorot : Int)
    (reference returnUrl expiresAt : Text) : Except GatewayError PaymentSession := do
  let response := provider (checkout credentials amountAgorot reference returnUrl expiresAt)
  raiseForStatus response
  match (resource response).bind fun data => dictOf (get data "attributes") with
  | none => .error (.credentialsRejected "lemonsqueezy did not return a test-mode checkout")
  | some attributes =>
    if !isTrue (get attributes "test_mode") then
      .error (.credentialsRejected "lemonsqueezy did not return a test-mode checkout")
    else if !equals amountAgorot (get attributes "custom_price") then
      .error (.credentialsRejected "lemonsqueezy did not echo the requested checkout price")
    else if otherReference attributes reference then
      .error (.credentialsRejected "lemonsqueezy did not echo the checkout reference")
    else match (resource response).bind (stringMember · "id"), stringMember attributes "url" with
      | some _, some redirectUrl => .ok ⟨reference, redirectUrl⟩
      | _, _ => .error (.unavailable "lemonsqueezy checkout response is unreadable")

theorem createSession_reference {provider : Json → Response} {credentials : List (String × String)} {amountAgorot : Int}
    {reference returnUrl expiresAt : Text} {session : PaymentSession}
    (h : createSession provider credentials amountAgorot reference returnUrl expiresAt = .ok session) :
    session.providerSessionId = reference := by
  unfold createSession at h
  dsimp only [bind, Except.bind] at h
  repeat' split at h
  all_goals first | (injection h with h; rw [← h]) | cases h

/-! ## What is not caught -/

abbrev Uncaught {α : Type} (r : Except PyError α) : Prop := Fails (fun e => caught e = false) r

theorem item_ok {members : Dict} {name : String} {value : Json} : item members name = .ok value ↔ get members name = some value := by
  unfold item
  cases get members name <;> simp

theorem uncaught_item (members : Dict) (name : String) : ¬Uncaught (item members name) := by
  unfold item
  cases get members name with
  | none => simp [fails_error, caught]
  | some value => exact fails_ok value

theorem uncaught_mapping (value : Json) : ¬Uncaught (mapping value) := by
  cases value <;> simp [mapping, fails_error, fails_ok, caught]

theorem uncaught_opened (payload : Json) : ¬Uncaught (opened payload) := by
  simp [opened, fails_bind, uncaught_item, uncaught_mapping, pure, Except.pure, fails_ok]

theorem uncaught_str (value : Json) : Uncaught (str py value) ↔ str py value = .error .recursionError := by
  cases value with
  | null | bool | str => simp [str, fails_ok]
  | int n =>
    have hstr : str py (.int n) = if INT_MAX_STR_DIGITS < (toString n.natAbs).length then .error .valueError
        else .ok (text (toString n)) := rfl
    rw [hstr]
    split <;> simp [fails_ok, fails_error, caught]
  | float | list | object =>
    unfold str
    dsimp only
    split <;> simp [fails_ok, fails_error, caught]

theorem uncaught_int (value : Json) : Uncaught (int py value) ↔ ∃ negative, value = .float (.infinite negative) := by
  cases value with
  | float f => cases f <;> simp [int, fails_ok, fails_error, caught]
  | str t =>
    unfold int
    dsimp only
    split <;> simp [fails_ok, fails_error, caught]
  | null | bool | int | list | object => simp [int, fails_ok, fails_error, caught]

/-- **What no clause catches, of the arguments of an event**: a reference, an id or an event name nested too deeply to be
shown, or an infinite total, each where the arguments before it are read. -/
def EscapesFrom (o : Opened) : Prop :=
  ∃ reference, get o.custom REFERENCE_KEY = some reference ∧ (str py reference = .error .recursionError ∨
    (∃ shown, str py reference = .ok shown) ∧ ∃ id, get o.data "id" = some id ∧ (str py id = .error .recursionError ∨
      (∃ shown, str py id = .ok shown) ∧ ∃ total, get o.attributes "total" = some total ∧
        ((∃ negative, total = .float (.infinite negative)) ∨
          (∃ amount, int py total = .ok amount) ∧ ∃ name, get o.eventMeta "event_name" = some name ∧
            str py name = .error .recursionError)))

def Escapes (body : List UInt8) : Prop :=
  py.loads body = .error .recursionError ∨
    ∃ payload o, py.loads body = .ok payload ∧ opened payload = .ok o ∧ EscapesFrom py o

theorem uncaught_argument {α β : Type} {members : Dict} {name : String} {convert : Json → Except PyError α}
    {rest : α → Except PyError β} {P : Prop} (hrest : ∀ a, Uncaught (rest a) ↔ P) :
    Uncaught ((item members name >>= convert) >>= rest) ↔
      ∃ value, get members name = some value ∧ (Uncaught (convert value) ∨ (∃ a, convert value = .ok a) ∧ P) := by
  unfold Uncaught
  rw [bind_assoc, fails_bind]
  simp only [uncaught_item, false_or, item_ok, fails_bind, hrest, exists_and_right]

theorem uncaught_eventOf (o : Opened) : Uncaught (eventOf py o) ↔ EscapesFrom py o := by
  unfold eventOf EscapesFrom
  have hevent : ∀ event : WebhookEvent, Uncaught (pure event : Except PyError WebhookEvent) ↔ False :=
    fun event => iff_false_intro (fails_ok event)
  refine (uncaught_argument fun _ => uncaught_argument fun _ => uncaught_argument fun _ =>
    uncaught_argument fun _ => hevent _).trans ?_
  simp only [uncaught_str, uncaught_int, and_false, or_false]

theorem loads_ok {body : List UInt8} {payload : Json} :
    (py.loads body).mapError LoadsError.raised = .ok payload ↔ py.loads body = .ok payload := by
  cases py.loads body <;> simp [Except.mapError]

theorem uncaught_tryParse (body : List UInt8) : Uncaught (tryParse py body) ↔ Escapes py body := by
  have hloads : Uncaught ((py.loads body).mapError LoadsError.raised) ↔ py.loads body = .error .recursionError := by
    cases py.loads body with
    | ok payload => simp [Except.mapError, fails_ok]
    | error e => cases e <;> simp [Except.mapError, fails_error, LoadsError.raised, caught]
  unfold tryParse Escapes
  simp only [fails_bind, uncaught_opened, uncaught_eventOf, false_or, hloads, loads_ok, exists_and_left]

/-! ## The webhook -/

def Settled (r : Except Raised WebhookEvent) : Prop := (∃ event, r = .ok event) ∨ r = .error .gatewayWebhookInvalid

theorem settled_parse (body : List UInt8) : Settled (parse py body) ↔ ¬Uncaught (tryParse py body) := by
  unfold Settled parse Uncaught
  cases tryParse py body with
  | ok event => simp [fails_ok]
  | error e =>
    rw [fails_error]
    cases hcaught : caught e <;> simp [hcaught]

structure PaidBy (o : Opened) (event : WebhookEvent) : Prop where
  eventName : ∃ name, get o.eventMeta "event_name" = some name ∧ str py name = .ok (text PAID_EVENT_NAME)
  refunded : ∀ value, get o.attributes "refunded" = some value → truthy value = false
  status : get o.attributes "status" = some (.str (text PAID_ORDER_STATUS))
  session : ∀ provider credentials amountAgorot reference returnUrl expiresAt session,
    createSession provider credentials amountAgorot reference returnUrl expiresAt = .ok session →
      get o.custom REFERENCE_KEY = get (custom reference) REFERENCE_KEY →
        event.providerSessionId = session.providerSessionId ∧ event.providerSessionId = reference

theorem isText_iff (value : Option Json) (expected : String) : isText value expected = true ↔ value = some (.str (text expected)) := by
  unfold isText
  split
  · simp
  · rename_i hother
    constructor
    · simp
    · intro hvalue
      exact absurd hvalue (hother _)

theorem isPaid_iff (eventName : Text) (attributes : Dict) : isPaid eventName attributes = true ↔
    eventName = text PAID_EVENT_NAME ∧ (∀ value, get attributes "refunded" = some value → truthy value = false) ∧
      get attributes "status" = some (.str (text PAID_ORDER_STATUS)) := by
  unfold isPaid
  by_cases hname : eventName = text PAID_EVENT_NAME
  · cases hrefunded : get attributes "refunded" with
    | none => simp [hname, isText_iff]
    | some value => cases htruthy : truthy value <;> simp [hname, htruthy, isText_iff]
  · simp [hname]

theorem eventOf_ok {o : Opened} {event : WebhookEvent} (h : eventOf py o = .ok event) :
    (∃ reference, get o.custom REFERENCE_KEY = some reference ∧ str py reference = .ok event.providerSessionId) ∧
      ∃ name eventName, get o.eventMeta "event_name" = some name ∧ str py name = .ok eventName ∧
        event.paid = isPaid eventName o.attributes := by
  obtain ⟨providerSessionId, hsession, h⟩ := ok_of_bind h
  obtain ⟨providerTransactionId, -, h⟩ := ok_of_bind h
  obtain ⟨amountAgorot, -, h⟩ := ok_of_bind h
  obtain ⟨eventName, hname, h⟩ := ok_of_bind h
  obtain ⟨reference, hreference, hshown⟩ := ok_of_bind hsession
  obtain ⟨name, hget, hstr⟩ := ok_of_bind hname
  cases h
  exact ⟨⟨reference, item_ok.1 hreference, hshown⟩, name, eventName, item_ok.1 hget, hstr, rfl⟩

/-- **A paid event is read from a paid order**, and it names the session that was made for its reference. -/
theorem paidBy_of_eventOf {o : Opened} {event : WebhookEvent} (h : eventOf py o = .ok event) (hpaid : event.paid = true) :
    PaidBy py o event := by
  obtain ⟨⟨value, hvalue, hshown⟩, name, eventName, hname, hstr, hevent⟩ := eventOf_ok py h
  rw [hevent, isPaid_iff] at hpaid
  obtain ⟨hcreated, hrefunded, hstatus⟩ := hpaid
  refine ⟨⟨name, hname, hcreated ▸ hstr⟩, hrefunded, hstatus, ?_⟩
  intro provider credentials amountAgorot reference returnUrl expiresAt session hsession hecho
  have hcustom : get (custom reference) REFERENCE_KEY = some (.str reference) := by simp [get, custom]
  have hstring : value = .str reference := by
    rw [hvalue, hcustom] at hecho
    injection hecho
  have hid : event.providerSessionId = reference := by
    rw [hstring] at hshown
    injection hshown with hshown
    exact hshown.symm
  exact ⟨hid.trans (createSession_reference hsession).symm, hid⟩

def Meets (hexdigest : HexDigest) (credentials : List (String × String)) (body : List UInt8) (signature : String) : Prop :=
  Settled (verifyWebhook py hexdigest credentials body signature) ∧
    ∀ event, verifyWebhook py hexdigest credentials body signature = .ok event → event.paid = true →
      ∃ payload o, py.loads body = .ok payload ∧ opened payload = .ok o ∧ PaidBy py o event

/-- **A signed body is read, or refused as an invalid webhook, exactly when nothing in it escapes**; a paid event is always
read from a paid order. -/
theorem webhook_settles_iff {hexdigest : HexDigest} {credentials : List (String × String)} {body : List UInt8}
    {signature : String} (hsigned : Signed hexdigest credentials body signature) :
    Meets py hexdigest credentials body signature ↔ ¬Escapes py body := by
  have hverify : verifyWebhook py hexdigest credentials body signature = parse py body := if_pos hsigned
  unfold Meets
  rw [hverify, settled_parse, uncaught_tryParse, and_iff_left_iff_imp]
  intro _ event hevent hpaid
  unfold parse at hevent
  split at hevent
  · rename_i event' htry
    cases hevent
    obtain ⟨payload, hloads, hopen⟩ := ok_of_bind htry
    obtain ⟨o, hopened, hread⟩ := ok_of_bind hopen
    exact ⟨payload, o, (loads_ok py).1 hloads, hopened, paidBy_of_eventOf py hread hpaid⟩
  · split at hevent <;> cases hevent

/-! ## Two bodies -/

def credentials : List (String × String) := [("webhook_secret", "secret")]

def reads (body : List UInt8) (payload : Json) : Python where
  loads found := if found = body then .ok payload else .error .valueError
  repr _ := some []
  digit c := if 48 ≤ c ∧ c ≤ 57 then some (c - 48) else none

theorem loads_reads (body : List UInt8) (payload : Json) : (reads body payload).loads body = .ok payload := by
  simp only [reads, if_true]

def order (total : Json) : Json :=
  .object [(text "meta", .object [(text "event_name", .str (text "order_created")),
      (text "custom_data", .object [(text "reference", .str (text "r"))])]),
    (text "data", .object [(text "id", .str (text "1")),
      (text "attributes", .object [(text "status", .str (text "paid")), (text "total", total)])])]

def orderBytes (total : String) : List UInt8 :=
  (text ("\x7b\"meta\":\x7b\"event_name\":\"order_created\",\"custom_data\":\x7b\"reference\":\"r\"\x7d\x7d," ++
    "\"data\":\x7b\"id\":\"1\",\"attributes\":\x7b\"status\":\"paid\",\"total\":" ++ total ++ "\x7d\x7d\x7d")).map
      Nat.toUInt8

theorem webhook_settles_paid :
    Meets (reads (orderBytes "5000") (order (.int 5000))) (fun _ _ => "digest") credentials (orderBytes "5000") "digest" := by
  rw [webhook_settles_iff _ (by decide), ← uncaught_tryParse]
  have htry : tryParse (reads (orderBytes "5000") (order (.int 5000))) (orderBytes "5000") =
      .ok ⟨text "r", text "1", 5000, true⟩ := by
    unfold tryParse
    rw [loads_reads]
    rfl
  rw [htry]
  exact fails_ok _

/-- **An infinite total is an `OverflowError`, which nothing catches.** -/
theorem infinity_escapes :
    Signed (fun _ _ => "digest") credentials (orderBytes "Infinity") "digest" ∧
      ¬Meets (reads (orderBytes "Infinity") (order (.float (.infinite false)))) (fun _ _ => "digest") credentials
        (orderBytes "Infinity") "digest" := by
  have hsigned : Signed (fun _ _ => "digest") credentials (orderBytes "Infinity") "digest" := by decide
  have hraised : verifyWebhook (reads (orderBytes "Infinity") (order (.float (.infinite false)))) (fun _ _ => "digest")
      credentials (orderBytes "Infinity") "digest" = .error (.uncaught .overflowError) := by
    have htry : tryParse (reads (orderBytes "Infinity") (order (.float (.infinite false)))) (orderBytes "Infinity") =
        .error .overflowError := by
      unfold tryParse
      rw [loads_reads]
      rfl
    unfold verifyWebhook parse
    rw [if_pos hsigned, htry]
    rfl
  refine ⟨hsigned, ?_⟩
  rintro ⟨hsettled, -⟩
  rw [hraised] at hsettled
  obtain ⟨event, hevent⟩ | hinvalid := hsettled
  · cases hevent
  · cases hinvalid

end LemonSqueezy

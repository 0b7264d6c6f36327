import Boutique.Server
import Mathlib.Data.List.Sort
/-!
# Validation — what a request must look like before any statement runs

The booking form, the Israeli mobile number, the weekly rules and the exception dates, with the texts of their errors.
-/
namespace Boutique

def isSpace (c : Char) : Bool :=
  let n := c.toNat
  (9 ≤ n ∧ n ≤ 13) ∨ (28 ≤ n ∧ n ≤ 32) ∨ n = 133 ∨ n = 160 ∨ n = 5760 ∨ (8192 ≤ n ∧ n ≤ 8202) ∨ n = 8232 ∨ n = 8233 ∨
    n = 8239 ∨ n = 8287 ∨ n = 12288

def stripChars (cs : List Char) : List Char := ((cs.dropWhile isSpace).reverse.dropWhile isSpace).reverse

def strip (s : String) : String := String.ofList (stripChars s.toList)

def normalizeSizeLabel (label : String) : String :=
  String.ofList (List.intercalate [' '] ((label.toList.splitOnP isSpace).filter (· ≠ [])))

def MAX_CUSTOMER_NAME_LENGTH : Nat := 80
def MAX_BOOKING_NOTES_LENGTH : Nat := 500

def isControl (c : Char) : Bool := c.toNat ≤ 31 ∨ c.toNat = 127

def isControlExceptWs (c : Char) : Bool := isControl c ∧ c.toNat ≠ 9 ∧ c.toNat ≠ 10 ∧ c.toNat ≠ 13

def validateCustomerName (name : String) : Except Err Unit :=
  if stripChars name.toList = [] then .error (.bookingValidation "name must not be blank")
  else if MAX_CUSTOMER_NAME_LENGTH < name.toList.length then .error (.bookingValidation "name is too long")
  else if name.toList.any isControl then .error (.bookingValidation "name contains invalid characters")
  else .ok ()

def validateNotes (notes : Option String) : Except Err Unit :=
  match notes with
  | none => .ok ()
  | some text =>
    if MAX_BOOKING_NOTES_LENGTH < text.toList.length then .error (.bookingValidation "notes is too long")
    else if text.toList.any isControlExceptWs then .error (.bookingValidation "notes contains invalid characters")
    else .ok ()

def validateBookingRequest (name : String) (notes : Option String) (dressId : Option Nat) (dressSize : Option String) :
    Except Err Unit := do
  validateCustomerName name
  validateNotes notes
  if dressId.isSome ∧ dressSize.all (fun size => stripChars size.toList = []) then
    .error (.bookingValidation "dress_size is required when dress_id is given")
  else if dressId.isNone ∧ dressSize.isSome then .error (.bookingValidation "dress_size requires dress_id")
  else .ok ()

def inAllowedCharset (cs : List Char) : Bool :=
  let tail := match cs with
    | '+' :: rest => rest
    | _ => cs
  tail ≠ [] ∧ tail.all fun c => c.isDigit ∨ c = ' ' ∨ c = '(' ∨ c = ')' ∨ c = '-'

def normalizeIsraeliMobile (raw : String) : Except Err String :=
  let candidate := stripChars raw.toList
  let digits := candidate.filter Char.isDigit
  let national := match digits with
    | '0' :: '5' :: rest => '9' :: '7' :: '2' :: '5' :: rest
    | _ => digits
  if inAllowedCharset candidate ∧ national.take 4 = ['9', '7', '2', '5'] ∧ national.length = 12 then
    .ok (String.ofList ('+' :: national))
  else .error (.domainValidation "Enter a valid Israeli mobile number.")

def MAX_WEEKLY_RULES : Nat := 50
def MAX_RULE_CAPACITY : Nat := 1000
def MAX_EXCEPTION_NOTE_LENGTH : Nat := 500

structure WeeklyRuleInput where
  dayOfWeek : Int
  openTime : WallTime
  closeTime : WallTime
  capacity : Int

def validateWeeklyRule (rule : WeeklyRuleInput) : Except Err Unit :=
  if ¬(0 ≤ rule.dayOfWeek ∧ rule.dayOfWeek ≤ 6) then
    .error (.boutiqueValidation "day_of_week must be between 0 and 6")
  else if rule.closeTime.micros ≤ rule.openTime.micros then .error (.boutiqueValidation "close_time must be after open_time")
  else if ¬(0 < rule.capacity ∧ rule.capacity ≤ MAX_RULE_CAPACITY) then
    .error (.boutiqueValidation ("capacity must be between 1 and " ++ toString MAX_RULE_CAPACITY))
  else .ok ()

def apart : List WeeklyRuleInput → Bool
  | prev :: nxt :: rest => prev.closeTime.micros ≤ nxt.openTime.micros && apart (nxt :: rest)
  | _ => true

def ordered (rules : List WeeklyRuleInput) (dayOfWeek : Int) : List WeeklyRuleInput :=
  (rules.filter fun rule => rule.dayOfWeek = dayOfWeek).insertionSort fun r r' =>
    r.openTime.micros < r'.openTime.micros ∨ r.openTime = r'.openTime ∧ r.closeTime.micros ≤ r'.closeTime.micros

def validateWeeklyRules (rules : List WeeklyRuleInput) : Except Err Unit := do
  if MAX_WEEKLY_RULES < rules.length then
    throw (.boutiqueValidation ("at most " ++ toString MAX_WEEKLY_RULES ++ " weekly windows are allowed"))
  rules.forM validateWeeklyRule
  if !rules.all fun rule => apart (ordered rules rule.dayOfWeek) then
    throw (.boutiqueValidation "windows on the same day must not overlap")

def validateExceptionTimes (openTime closeTime : Option WallTime) : Except Err Unit :=
  match openTime, closeTime with
  | some o, some c => if c.micros ≤ o.micros then .error (.boutiqueValidation "close_time must be after open_time") else .ok ()
  | none, none => .ok ()
  | _, _ =>
    .error (.boutiqueValidation
      "open_time and close_time must both be set (special hours) or both be empty (closed all day)")

def validateExceptionNote (note : Option String) : Except Err Unit :=
  if note.any fun text => MAX_EXCEPTION_NOTE_LENGTH < text.toList.length then
    .error (.boutiqueValidation "note is too long")
  else .ok ()

end Boutique

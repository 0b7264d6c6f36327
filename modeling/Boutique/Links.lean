import Boutique.Stock
/-!
# Links — the payable page of a hold

A payment carries its page exactly while it is pending, a booking has one pending payment at most, and the session, the
provider and the amount of a payment are what they were when it was inserted.
-/
namespace Boutique

open Txn

/-- **A payment carries its page exactly while it can still be paid there.** -/
def Linked (p : Payment) : Prop := p.redirectUrl.isSome = true ↔ p.status = .pending

def RowLinked : (T : Table) → Row T → Prop
  | .payments, (p : Payment) => Linked p
  | _, _ => True

theorem PaymentChange.linked {g : PaymentChange} {p p' : Payment} (h : g.apply p = some p') (hp : Linked p) : Linked p' := by
  unfold Linked at hp ⊢
  cases g <;> simp only [PaymentChange.apply] at h <;> split at h <;> cases h
  case settle => simp
  case settleLate => simp
  case recordError => exact hp
  case expireHold => simp

theorem payments_of_insert {job : Job} {l : Bool} {p : Payment} (h : job.Writes l (Op.insert .payments p)) :
    ∃ b provider amount, (∃ session expires, p = Payments.hold b provider amount session expires ∧ l = true) ∨
      p = Payments.unavailable b provider amount := by
  have hopen : ∀ {b : Nat}, OpenWrites b l (Op.insert .payments p) → ∃ b provider amount,
      (∃ session expires, p = Payments.hold b provider amount session expires ∧ l = true) ∨
        p = Payments.unavailable b provider amount := by
    intro b h
    cases h with
    | hold provider amount s expires => exact ⟨b, provider, amount, .inl ⟨s, expires, rfl, rfl⟩⟩
    | unavailable l provider amount => exact ⟨b, provider, amount, .inr rfl⟩
  cases job with
  | postBookings | claimOffer =>
    cases h with
    | claim h => cases h
    | tail h =>
      cases h with
      | open_ b h => exact hopen h
      | send b h => cases h
  | delivery =>
    cases h with
    | settle h => cases h
    | effect h =>
      cases h with
      | reminder l b h => cases h
      | send l kind b h => cases h
  | reschedule =>
    cases h with
    | reminder l h => cases h
  | createBooking | claim => cases h
  | sweep => cases h
  | replaceWeeklyRules | addException | removeException => cases h
  | ownerConfirm | ownerNoShow | ownerComplete | ownerCancel | customerCancel | checkIn | undoCheckIn => cases h

theorem linked_legal {job : Job} {l : Bool} {o : Op schema service} (h : job.Writes l o) :
    (Discipline.keeping RowLinked).Legal l o := by
  cases o with
  | sql o =>
    cases o with
    | update T i g =>
      intro r r' _ hr hp
      cases T with
      | payments => exact PaymentChange.linked hr hp
      | _ => trivial
    | insert T r =>
      intro i n
      cases T with
      | payments =>
        obtain ⟨b, provider, amount, ⟨session, expires, rfl, -⟩ | rfl⟩ := payments_of_insert h
        · exact ⟨fun _ => rfl, fun _ => rfl⟩
        · exact ⟨nofun, nofun⟩
      | _ => trivial
    | _ => trivial
  | now | ask => trivial

/-! ## Opening a hold, alone -/

abbrev liveHoldRead (b : Nat) : Op schema service := .sql (.read (Query.livePendingForBooking b))

/-- **The read of `open_deposit` converges**: where it found a hold, that hold is the answer and no session is minted. -/
theorem openDeposit_converges {cfg : Config} {b : Nat} {amount holdSeconds : Int} {s : Snapshot schema} {p : Payment}
    {l : List (Sigma Op.Res)} {x : Except Err PaymentService.DepositHold}
    (h : (PaymentService.openDeposit cfg b amount holdSeconds).Trace l x) (hs : ⟨liveHoldRead b, s⟩ ∈ l)
    (hp : Payments.pendingFor s b = [p]) :
    x = .ok ⟨p, p.redirectUrl, false⟩ ∧ ∀ c ∈ l, ∀ i a e, c.1 ≠ .ask (.createSession i a e) := by
  unfold PaymentService.openDeposit PaymentService.requireProvider at h
  cases hprovider : cfg.provider with
  | none =>
    rw [hprovider] at h
    obtain ⟨rfl, -⟩ := Prog.trace_raise h
    cases hs
  | some provider =>
    rw [hprovider] at h
    cases hconfigured : cfg.gatewayConfigured with
    | false =>
      rw [hconfigured] at h
      obtain ⟨rfl, -⟩ := Prog.trace_raise h
      cases hs
    | true =>
      rw [hconfigured] at h
      obtain ⟨refused, l1, rfl, h1⟩ := Prog.trace_call h
      cases refused with
      | some e =>
        obtain ⟨rfl, -⟩ := Prog.trace_raise h1
        simp at hs
      | none =>
        obtain ⟨now, l2, rfl, h2⟩ := Prog.trace_call h1
        obtain ⟨txNow, l3, rfl, h3⟩ := Prog.trace_call h2
        obtain ⟨u, l4, rfl, h4⟩ := Prog.trace_call h3
        obtain ⟨s', l5, rfl, h5⟩ := Prog.trace_call h4
        simp only [List.mem_cons, Sigma.mk.injEq, reduceCtorEq, false_and, false_or] at hs
        -- what follows the read reads nothing more
        match hq : Payments.pendingFor s' b with
        | [] =>
          simp only [hq] at h5
          obtain ⟨answer, l6, rfl, h6⟩ := Prog.trace_call h5
          exfalso
          cases answer with
          | error e =>
            obtain ⟨u', l7, rfl, h7⟩ := Prog.trace_call h6
            obtain ⟨rfl, -⟩ := Prog.trace_raise h7
            simp_all
          | ok session =>
            obtain ⟨row, l7, rfl, h7⟩ := Prog.trace_call h6
            cases row with
            | error f =>
              obtain ⟨u', l8, rfl, h8⟩ := Prog.trace_call h7
              obtain ⟨rfl, -⟩ := Prog.trace_raise h8
              simp_all
            | ok row =>
              obtain ⟨u', l8, rfl, h8⟩ := Prog.trace_call h7
              obtain ⟨rfl, -⟩ := Prog.trace_ret h8
              simp_all
        | [q] =>
          simp only [hq] at h5
          obtain ⟨u', l6, rfl, h6⟩ := Prog.trace_call h5
          obtain ⟨rfl, rfl⟩ := Prog.trace_ret h6
          simp_all
        | q :: q' :: qs =>
          simp only [hq] at h5
          obtain ⟨u', l6, rfl, h6⟩ := Prog.trace_call h5
          obtain ⟨rfl, rfl⟩ := Prog.trace_raise h6
          simp_all

/-! ## Every version of a run -/

theorem pending_unique {rows : Rows schema} (h : Consistent rows) {i j : Nat} {p q : Payment}
    (hi : rows .payments i = some p) (hj : rows .payments j = some q) (hp : p.deletedAt = none ∧ p.status = .pending)
    (hq : q.deletedAt = none ∧ q.status = .pending) (hb : p.bookingId = q.bookingId) : i = j := by
  by_contra hij
  have hclash := h.apart .payments i j p q hi hj hij
  simp [rowClash, hp, hq, hb] at hclash

def Payment.terms (p : Payment) : Int × String × Option String := (p.amountAgorot, p.provider, p.providerSessionId)

/-- **The payable link.**  In every version of every run a booking has at most one pending payment, a payment carries its
page exactly while it is pending, and its amount, provider and session never change; and an `open_deposit` whose read
finds a pending payment answers with that row and its page, minting no session. -/
theorem payable_links {cfg : Config} {jobs : Tid → Job} {rows : Rows schema} {next : Nat} {now : Int}
    {c : Conf server Reply} (h : Tables rows next) (hlinked : ∀ i p, rows .payments i = some p → Linked p)
    (hr : (start cfg jobs rows next now).Reaches c) :
    (∀ m i j p q, c.state.db.version m .payments i = some p → c.state.db.version m .payments j = some q →
      Payment.deletedAt p = none ∧ Payment.status p = .pending → Payment.deletedAt q = none ∧ Payment.status q = .pending →
      p.bookingId = q.bookingId → i = j) ∧
    (∀ m i p, m ≤ c.state.db.log.length → c.state.db.version m .payments i = some p → Linked p) ∧
    (∀ m n i p, m ≤ n → n ≤ c.state.db.log.length → c.state.db.version m .payments i = some p →
      ∃ q, c.state.db.version n .payments i = some q ∧ Payment.terms q = Payment.terms p) ∧
    ∀ b amount holdSeconds s p l x, (PaymentService.openDeposit cfg b amount holdSeconds).Trace l x →
      ⟨liveHoldRead b, s⟩ ∈ l → Payments.pendingFor s b = [p] →
      x = .ok ⟨p, p.redirectUrl, false⟩ ∧ ∀ call ∈ l, ∀ i a e, call.1 ≠ .ask (.createSession i a e) := by
  obtain ⟨hL, h0⟩ := run_lawful h hr
  refine ⟨fun m i j p q hp hq => pending_unique (hL.version_consistent m) hp hq, fun m i p hm hp => ?_,
    fun m n i p hmn hn hp => ?_, fun b amount holdSeconds s p l x => openDeposit_converges⟩
  · refine hL.version_keeps (jobs_play fun job l o => linked_legal) (fun T i r hr0 => ?_) hm hp
    rw [h0] at hr0
    cases T with
    | payments => exact hlinked i r hr0
    | _ => trivial
  · have hrow := hL.version_becomes (Cast.plays_common _) hmn hn .payments i
    rw [hp] at hrow
    obtain ⟨q, hq, hpq⟩ := hrow.some_left
    have hbecomes : PaymentBecomes p q := hpq
    refine ⟨q, hq, ?_⟩
    unfold Payment.terms
    rw [hbecomes.amountAgorot, hbecomes.provider, hbecomes.providerSessionId]

/-- Dana's request leaves one payment, which can be paid at its page. -/
theorem payable_links_shop :
    ∃ c, (start shop (fun _ => .postBookings dana) (tableOf shelf) 5 0).Reaches c ∧
      (committedRows c .payments).map (fun (p : Payment) => (p.status, p.redirectUrl)) = [(.pending, some "url")] ∧
      ∀ m i p, m ≤ c.state.db.log.length → c.state.db.version m .payments i = some p → Linked p := by
  obtain ⟨c, hc, hdone⟩ := reaches_of_play (start shop (fun _ => .postBookings dana) (tableOf shelf) 5 0) (turns 0 fine 33)
    (fun c => decide ((committedRows c .payments).map (fun (p : Payment) => (p.status, p.redirectUrl)) =
      [(.pending, some "url")])) (by decide)
  refine ⟨c, hc, of_decide_eq_true hdone, (payable_links shelf_tables (fun i p hp => ?_) hc).2.1⟩
  cases hp

end Boutique

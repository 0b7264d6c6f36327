import Boutique.Erasure
/-!
# Renames — what an intake records of a customer's name

The intake reads the phone, and reads it again in the upsert that writes the name she typed: the audit row is decided at the
first read, the UPDATE at the second, and whoever commits between them is not looked at again.
-/
namespace Subjects

open Txn Session Contract

variable {settings : Retention.Settings} {reqs : Tid → Request} {rows : Rows schema} {next : Nat} {clock : Int}
  {c : Conf (machine schema outside Err) Reply} {t : Tid} {e e' : Engine schema} {L : Nat} {q : CreateTicketRequest}

/-! ## What is asked of a run -/

def Request.intake : Request → Option CreateTicketRequest
  | .createTicket q _ => some q
  | _ => none

def Customer.holds (v : Customer) (phone : String) : Bool := v.phone = phone ∧ v.live

/-- **The phone's customer bears another name** than the one typed. -/
def Misnamed (rows : Rows schema) (n : Nat) (q : CreateTicketRequest) : Prop :=
  ∃ i, i < n ∧ ∃ v : Customer, v ∈ rows Table.customers i ∧ v.holds q.phone.e164 = true ∧ v.name ≠ q.name

instance (rows : Rows schema) (n : Nat) (q : CreateTicketRequest) : Decidable (Misnamed rows n q) :=
  inferInstanceAs (Decidable (∃ i, i < n ∧ ∃ v : Customer, v ∈ rows Table.customers i ∧ _))

/-- **The customer who had the phone under the name typed** still has the phone. -/
def Remains (before rows : Rows schema) (n : Nat) (q : CreateTicketRequest) : Prop :=
  ∃ i, i < n ∧ (∃ v : Customer, v ∈ before Table.customers i ∧ v.holds q.phone.e164 = true ∧ v.name = q.name) ∧
    ∃ v : Customer, v ∈ rows Table.customers i ∧ v.holds q.phone.e164 = true

instance (before rows : Rows schema) (n : Nat) (q : CreateTicketRequest) : Decidable (Remains before rows n q) :=
  inferInstanceAs (Decidable (∃ i, i < n ∧ (∃ v : Customer, v ∈ before Table.customers i ∧ _) ∧
    ∃ v : Customer, v ∈ rows Table.customers i ∧ _))

def upsertReads : Op schema outside → Bool
  | .sql (.read .byPhone) => true
  | _ => false

def renamed : Op schema outside → Option Nat
  | .sql (.update .customers i (.rename _)) => some i
  | _ => none

/-- **No intake is forestalled**: whether the phone's customer bears another name is at the upsert's read what it was at the
intake's own, or she is the one it found under the name typed; and where the upsert writes the name, she bears another. -/
def Unforestalled (reqs : Tid → Request) : (machine schema outside Err).Assumption := fun t o w _ _ =>
  ∀ q ∈ (reqs t).intake,
    (upsertReads o = true → (Misnamed (w.db.version (w.db.seen t)) w.db.next q ↔ Misnamed w.db.committed w.db.next q) ∨
      Remains (w.db.version (w.db.seen t)) w.db.committed w.db.next q) ∧
    ∀ i ∈ renamed o, ∀ v : Customer, v ∈ w.db.view t Table.customers i → v.name ≠ q.name

instance (reqs : Tid → Request) (t : Tid) (o : Op schema outside) (w : World schema outside) (x : o.Res)
    (w' : World schema outside) : Decidable (Unforestalled reqs t o w x w') :=
  inferInstanceAs (Decidable (∀ q ∈ (reqs t).intake, _ ∧ ∀ i ∈ renamed o, _))

/-! ## What a commit records -/

def Audits (d : Commit schema) : Prop :=
  ∃ j, ∃ a : AuditLog, d.writes .auditLog j = some a ∧ a.action = .atelierCustomerRenamed

def Renames (d : Commit schema) (i : Nat) : Prop :=
  ∃ v r : Customer, d.before .customers i = some v ∧ d.writes .customers i = some r ∧ r.name ≠ v.name

/-- **The customer had the phone** in a version from `L` on, or the commit brought her in with it. -/
def Resolved (phone : String) (L : Nat) (e : Engine schema) (m : Nat) (d : Commit schema) (i : Nat) : Prop :=
  (∃ n, L ≤ n ∧ n ≤ m ∧ ∃ v : Customer, e.version n .customers i = some v ∧ v.holds phone = true) ∨
    (d.before .customers i = none ∧ ∃ r : Customer, d.writes .customers i = some r ∧ r.holds phone = true)

/-- **An intake's commit in order**: its audit says whether it renamed a customer, and its ticket is of whom the phone found. -/
structure Attested (q : CreateTicketRequest) (L : Nat) (e : Engine schema) (m : Nat) (d : Commit schema) : Prop where
  audit : Audits d ↔ ∃ i, Renames d i
  ticket : ∀ k (a : AlterationTicket), d.writes .tickets k = some a → Resolved q.phone.e164 L e m d a.customerId

abbrev attesting (t : Tid) (q : CreateTicketRequest) (L : Nat) : Ledger schema where
  Holds e m d := d.by_ = t → L ≤ m → Attested q L e m d
  stable e e' m d _ _ hv h hby hm := by
    obtain ⟨haudit, hticket⟩ := h hby hm
    refine ⟨haudit, fun k a ha => ?_⟩
    rcases hticket k a ha with ⟨n, hLn, hnm, v, hrow, hv'⟩ | hnew
    · exact .inl ⟨n, hLn, hnm, v, by rw [hv n (by omega)]; exact hrow, hv'⟩
    · exact .inr hnew

abbrev counter (reqs : Tid → Request) (t : Tid) (q : CreateTicketRequest) (L : Nat) :
    Contract (conduct true).shared outside Err :=
  (attesting t q L).contract _ (Unforestalled reqs)

theorem counter_historic : (counter reqs t q L).Historic fun _ => true := (attesting t q L).historic _

/-! ## Whom a phone finds -/

abbrev holder (phone : String) (s : Snapshot schema) : Option Customer :=
  (s.all Table.customers).find? fun (c : Customer) => c.phone = phone ∧ c.live

/-- **The phone's customer**: `x`, and nobody else. -/
structure Finds (rows : Rows schema) (phone : String) (x : Option Customer) : Prop where
  found : ∀ v, x = some v → rows .customers v.id = some v ∧ v.holds phone = true
  all : ∀ i (v : Customer), rows .customers i = some v → v.holds phone = true → x = some v

theorem finds_holder {rows : Rows schema} {n : Nat} {phone : String} (hrows : Consistent rows)
    (hn : ∀ i (v : Customer), rows .customers i = some v → i < n) : Finds rows phone (holder phone ⟨rows, n⟩) := by
  have hfound : ∀ v, holder phone ⟨rows, n⟩ = some v → rows .customers v.id = some v ∧ v.holds phone = true := by
    intro v h
    have hmem : v ∈ (⟨rows, n⟩ : Snapshot schema).all Table.customers := List.mem_of_find?_eq_some h
    obtain ⟨i, -, hv⟩ := Snapshot.mem_all.1 hmem
    have hid : v.id = i := hrows.id .customers i v hv
    subst hid
    refine ⟨hv, ?_⟩
    simpa [Customer.holds] using List.find?_some h
  refine ⟨hfound, fun i v hv hholds => ?_⟩
  cases hf : holder phone ⟨rows, n⟩ with
  | none =>
    have hnone := List.find?_eq_none.1 hf v (Snapshot.mem_all.2 ⟨i, hn i v hv, hv⟩)
    exact absurd hholds (by simpa [Customer.holds] using hnone)
  | some u =>
    obtain ⟨hu, hholds'⟩ := hfound u hf
    by_cases hj : i = u.id
    · subst hj
      exact hu.symm.trans hv
    · have hapart := hrows.apart .customers i u.id v u hv hu hj
      simp only [Customer.holds, decide_eq_true_eq] at hholds hholds'
      simp [clash, hholds.1, hholds.2, hholds'.1, hholds'.2] at hapart

def Customer.misnamed (v : Customer) (q : CreateTicketRequest) : Bool := v.name ≠ q.name

variable {x : Option Customer}

theorem Finds.misnamed {rows : Rows schema} {n : Nat} (h : Finds rows q.phone.e164 x)
    (hn : ∀ i (v : Customer), rows .customers i = some v → i < n) :
    Misnamed rows n q ↔ (x.any fun v => v.misnamed q) = true := by
  constructor
  · rintro ⟨i, -, v, hv, hholds, hname⟩
    rw [h.all i v hv hholds]
    simpa [Customer.misnamed] using hname
  · intro hx
    obtain ⟨v, rfl, hname⟩ := Option.any_eq_true .. |>.1 hx
    obtain ⟨hv, hholds⟩ := h.found v rfl
    exact ⟨v.id, hn v.id v hv, v, hv, hholds, by simpa [Customer.misnamed] using hname⟩

/-- The request has nothing in flight, and found `x` at its last SELECT. -/
structure Looked (q : CreateTicketRequest) (L : Nat) (x : Option Customer) (t : Tid) (e : Engine schema) : Prop where
  idle : e.pending t = fun _ _ => none
  past : L ≤ e.log.length
  seen : e.seen t ≤ e.log.length
  finds : Finds (e.version (e.seen t)) q.phone.e164 x

theorem Looked.evolves (h : Looked q L x t e) (hev : e.Evolves (conduct true).shared t e') : Looked q L x t e' := by
  refine ⟨by rw [hev.pending, h.idle], Nat.le_trans h.past hev.log_le, ?_, ?_⟩
  · rw [hev.seen]
    exact Nat.le_trans h.seen hev.log_le
  · rw [hev.seen, hev.version _ h.seen]
    exact h.finds

theorem looked_now {phone : String} (hL : e.Lawful (conduct true).shared) (hidle : e.pending t = fun _ _ => none) :
    Finds e.committed phone (holder phone ⟨e.view t, e.next⟩) := by
  rw [Engine.view_idle hidle]
  exact finds_holder hL.rows fun i v hv => hL.committed_lt .customers i v hv

theorem looked_look (hL : e.Lawful (conduct true).shared) (hidle : e.pending t = fun _ _ => none) (hpast : L ≤ e.log.length) :
    Looked q L (holder q.phone.e164 ⟨e.view t, e.next⟩) t (e.look t) := by
  have hseen : (e.look t).seen t = e.log.length := Engine.look_seen
  have hversion : (e.look t).version e.log.length = e.committed := Engine.version_length (e := e.look t)
  refine ⟨hidle, hpast, Nat.le_of_eq hseen, ?_⟩
  rw [hseen, hversion]
  exact looked_now hL hidle

/-! ## The intake -/

def NewName (W : Work Customer) : Prop := ∃ i v r, W = some (i, some v, r) ∧ Customer.name r ≠ Customer.name v

/-- **The intake, from its customer on**: what it has of the customers in flight (`W`), whether it has recorded a rename, and
whom its ticket is of. -/
structure AtIntake (q : CreateTicketRequest) (L : Nat) (W : Work Customer) (recorded : Bool) (i : Nat) (t : Tid)
    (e : Engine schema) : Prop where
  work : e.AtWork t Table.customers W
  past : L ≤ e.log.length
  audit : (∃ j, ∃ a : AuditLog, e.pending t .auditLog j = some a ∧ a.action = .atelierCustomerRenamed) ↔ recorded = true
  tickets : ∀ k (a : AlterationTicket), e.pending t .tickets k = some a → a.customerId = i
  who : Saw Table.customers i L (fun x => ∃ v : Customer, x = some v ∧ v.holds q.phone.e164 = true) e ∨
    ∃ r : Customer, W = some (i, none, r) ∧ r.holds q.phone.e164 = true

variable {W : Work Customer} {recorded : Bool} {i : Nat}

theorem AtIntake.evolves (h : AtIntake q L W recorded i t e) (hev : e.Evolves (conduct true).shared t e') :
    AtIntake q L W recorded i t e' := by
  refine ⟨h.work.evolves hev, Nat.le_trans h.past hev.log_le, ?_, ?_, h.who.imp (lasts_saw.evolves hev) id⟩
  · rw [hev.pending]
    exact h.audit
  · rw [hev.pending]
    exact h.tickets

theorem AtIntake.record {entity actorId : Option Nat} {action : AuditAction} (h : AtIntake q L W recorded i t e)
    (hL : e.Lawful (conduct true).shared) :
    AtIntake q L W (recorded || action = .atelierCustomerRenamed) i t
      (inserted e t Table.auditLog ⟨0, 0, actorId, entity, action⟩) := by
  refine ⟨h.work.insertBeside (by decide), h.past, ?_, fun k a ha => ?_, h.who.imp (lasts_saw.congr rfl rfl) id⟩
  · rw [Bool.or_eq_true, ← h.audit, decide_eq_true_eq]
    constructor
    · rintro ⟨j, a, ha, haction⟩
      rcases Engine.inserted_pending ha with heq | ha
      · cases heq
        exact .inr haction
      · exact .inl ⟨j, a, ha, haction⟩
    · rintro (⟨j, a, ha, haction⟩ | haction)
      · have hlt : j < e.next := hL.view_lt (Engine.view_pending ha)
        have hkept : (inserted e t Table.auditLog ⟨0, 0, actorId, entity, action⟩).pending t .auditLog j = some a := by
          rw [← ha]
          exact Engine.write_pending_row fun hc => Nat.ne_of_lt hlt hc.2
        exact ⟨j, a, hkept, haction⟩
      · exact ⟨e.next, _, Engine.write_pending_self, haction⟩
  · rcases Engine.inserted_pending ha with heq | ha
    · cases heq
    · exact h.tickets k a ha

theorem AtIntake.ticket {row : AlterationTicket} (h : AtIntake q L W recorded i t e) (hrow : row.customerId = i) :
    AtIntake q L W recorded i t (inserted e t Table.tickets row) := by
  refine ⟨h.work.insertBeside (by decide), h.past, ?_, fun k a ha => ?_, h.who.imp (lasts_saw.congr rfl rfl) id⟩
  · rw [← h.audit]
    have hsame : (inserted e t Table.tickets row).pending t .auditLog = e.pending t .auditLog :=
      Engine.write_beside (by decide)
    rw [hsame]
  · rcases Engine.inserted_pending ha with heq | ha
    · cases heq
      exact hrow
    · exact h.tickets k a ha

theorem AtIntake.attested (h : AtIntake q L W recorded i t e) (hnamed : recorded = true ↔ NewName W) :
    Attested q L (e.commit t) e.log.length (e.entry t) := by
  refine ⟨h.audit.trans (hnamed.trans ?_), fun k a ha => ?_⟩
  · constructor
    · rintro ⟨j, v, r, rfl, hname⟩
      exact ⟨j, v, r, h.work.found j _ r rfl, h.work.row, hname⟩
    · rintro ⟨j, v, r, hv, hr, hname⟩
      obtain ⟨u, hW, hu⟩ := h.work.entry hr
      rw [hv] at hu
      subst hu
      exact ⟨j, v, r, hW, hname⟩
  · rw [h.tickets k a ha]
    rcases h.who with ⟨n, hLn, hn, v, hv, hholds⟩ | ⟨r, hW, hholds⟩
    · exact .inl ⟨n, hLn, hn, v, by rw [Engine.commit_version_le hn]; exact hv, hholds⟩
    · subst hW
      exact .inr ⟨h.work.found i none r rfl, r, h.work.row, hholds⟩

section Programs

variable {β : Type} {Q : Except Err β → World schema outside → Prop} {w : World schema outside} {actorId : Nat}

theorem atIntake_begun (hidle : e.pending t = fun _ _ => none) (hwork : e'.AtWork t Table.customers W)
    (hpend : ∀ T, T ≠ Table.customers → e'.pending t T = e.pending t T) (hpast : L ≤ e'.log.length)
    (hwho : Saw Table.customers i L (fun x => ∃ v : Customer, x = some v ∧ v.holds q.phone.e164 = true) e' ∨
      ∃ r : Customer, W = some (i, none, r) ∧ r.holds q.phone.e164 = true) : AtIntake q L W false i t e' := by
  refine ⟨hwork, hpast, ⟨?_, fun h => by cases h⟩, fun k a ha => ?_, hwho⟩
  · rintro ⟨j, a, ha, -⟩
    rw [hpend .auditLog (by decide), hidle] at ha
    cases ha
  · rw [hpend .tickets (by decide), hidle] at ha
    cases ha

theorem Finds.saw {v : Customer} (h : Finds e.committed q.phone.e164 x) (hx : x = some v) (hpast : L ≤ e.log.length) :
    Saw Table.customers v.id L (fun x => ∃ v : Customer, x = some v ∧ v.holds q.phone.e164 = true) e := by
  obtain ⟨hv, hholds⟩ := h.found v hx
  exact saw_committed hpast ⟨v, hv, hholds⟩

/-- **What the two reads come to**: the upsert writes a name exactly where the intake has seen another one. -/
theorem Looked.agrees {row : Customer} (h : Looked q L x t e) (hL : e.Lawful (conduct true).shared)
    (hnow : Finds e.committed q.phone.e164 (some row))
    (hA : (Misnamed (e.version (e.seen t)) e.next q ↔ Misnamed e.committed e.next q) ∨
      Remains (e.version (e.seen t)) e.committed e.next q) :
    ((x.filter fun c => c.id = row.id).getD row).name ≠ q.name ↔ (x.any fun c => c.name ≠ q.name) = true := by
  have hthen : ∀ i (v : Customer), e.version (e.seen t) .customers i = some v → i < e.next :=
    fun i v hv => hL.version_lt h.seen hv
  rcases hA with hA | ⟨i, -, ⟨v, hv, hholds, hname⟩, u, hu, hholds'⟩
  · rw [h.finds.misnamed hthen, hnow.misnamed fun i v hv => hL.committed_lt .customers i v hv] at hA
    have hsame : (x.any fun c => c.name ≠ q.name) = true ↔ row.name ≠ q.name := by
      simpa [Customer.misnamed] using hA
    rw [hsame]
    cases x with
    | none => rfl
    | some v =>
      by_cases hid : v.id = row.id
      · simpa [Option.filter, hid] using hsame
      · simp [Option.filter, hid]
  · -- she is the one it first found, under the name typed
    have hid : v.id = i := (hL.version_consistent _).id .customers i v hv
    have hid' : u.id = i := hL.rows.id .customers i u hu
    have hx := h.finds.all i v hv hholds
    have hrow := hnow.all i u hu hholds'
    cases hrow
    subst hx
    simp [Option.filter, hid, hid', hname]

theorem Looked.nobody (h : Looked q L x t e) (hL : e.Lawful (conduct true).shared)
    (hnow : Finds e.committed q.phone.e164 none)
    (hA : (Misnamed (e.version (e.seen t)) e.next q ↔ Misnamed e.committed e.next q) ∨
      Remains (e.version (e.seen t)) e.committed e.next q) : (x.any fun c => c.name ≠ q.name) = false := by
  rcases hA with hA | ⟨i, -, -, u, hu, hholds⟩
  · rw [h.finds.misnamed fun i v hv => hL.version_lt h.seen hv, hnow.misnamed fun i v hv => hL.committed_lt .customers i v hv] at hA
    simpa [Customer.misnamed] using hA
  · cases hnow.all i u hu hholds

def Tried (q : CreateTicketRequest) (L : Nat) (x : Option Customer) (t : Tid) : Except Err Customer → World schema outside → Prop
  | .ok customer, w => ∃ W, AtIntake q L W false customer.id t w.db ∧ ((x.any fun c => c.name ≠ q.name) = true ↔ NewName W)
  | .error _, w => w.db.pending t = (fun _ _ => none) ∧ L ≤ w.db.log.length

theorem select_finds {query : Query} {k : Option Customer → Prg β} (hidle : w.db.pending t = fun _ _ => none)
    (hpast : L ≤ w.db.log.length)
    (hk : ∀ found w1, w.Evolves (conduct true).shared t w1 → w1.db.Lawful (conduct true).shared →
      Unforestalled reqs t (.sql (.read query)) w1 ⟨w1.db.view t, w1.db.next⟩ ⟨w1.db.look t, w1.out⟩ →
      Finds w1.db.committed q.phone.e164 found → Looked q L found t (w1.db.look t) →
      (counter reqs t q L).Ensures t (k found) Q ⟨w1.db.look t, w1.out⟩) :
    (counter reqs t q L).Ensures t (select query (holder q.phone.e164) >>= k) Q w := by
  refine ensures_select counter_historic fun w1 hev hL _ hA _ => ?_
  have hidle1 : w1.db.pending t = fun _ _ => none := hev.db.pending.trans hidle
  exact hk _ w1 hev hL hA (looked_now hL hidle1) (looked_look hL hidle1 (Nat.le_trans hpast hev.db.log_le))

theorem upsert_tried (hrequest : reqs t = .createTicket q actorId) (h : Looked q L x t w.db) :
    (counter reqs t q L).Ensures t (upsert x q.phone.e164 q.name) (Tried q L x t) w := by
  refine select_finds h.idle h.past fun found w1 hev hL hA hnow hlook => ?_
  replace h := h.evolves hev.db
  obtain ⟨hread, -⟩ := hA q (by rw [hrequest]; rfl)
  replace hread := hread rfl
  cases found with
  | none =>
    have hnobody := h.nobody hL hnow hread
    refine ensures_last (ensures_insert counter_historic (fun w2 n hev' _ _ => ?_) fun w2 hev' hL' _ _ => ?_)
    · exact ⟨(hev'.db.pending).trans h.idle, Nat.le_trans h.past hev'.db.log_le⟩
    · have hidle : w2.db.pending t = fun _ _ => none := hev'.db.pending.trans h.idle
      have hwork : w2.db.AtWork t Table.customers none := Engine.atWork_none (by rw [hidle])
      refine ⟨_, atIntake_begun hidle (hwork.insert hL') (fun T hT => ?_) (Nat.le_trans h.past hev'.db.log_le)
        (.inr ⟨_, rfl, ?_⟩), ?_⟩
      · exact Engine.write_beside hT
      · exact decide_eq_true ⟨rfl, rfl⟩
      · rw [hnobody]
        refine ⟨(fun hb => by cases hb), ?_⟩
        rintro ⟨i, v, r, hW, -⟩
        cases hW
  | some row =>
    have hagrees := h.agrees hL hnow hread
    have hsaw : Saw Table.customers row.id L (fun x => ∃ v : Customer, x = some v ∧ v.holds q.phone.e164 = true)
        (w1.db.look t) := hnow.saw rfl h.past
    dsimp only
    split
    · rename_i hname
      refine ensures_updateFirst counter_historic (Engine.atWork_none (by rw [hlook.idle])) (fun w2 hev' => ?_)
        (fun w2 hev' _ _ _ => ?_) fun w2 v r hev' hL' hv hr hA' hwork => ?_
      · exact ⟨hev'.db.pending.trans hlook.idle, Nat.le_trans hlook.past hev'.db.log_le⟩
      · exact ⟨hev'.db.pending.trans hlook.idle, Nat.le_trans hlook.past hev'.db.log_le⟩
      · have hsaw2 := lasts_saw.evolves hev'.db hsaw
        have hid : Customer.id v = row.id := hL'.rows.id .customers row.id v hv
        have hv' : w2.db.view t .customers row.id = some v := by
          rw [Engine.view_idle (hev'.db.pending.trans hlook.idle), hv]
        obtain ⟨-, hname'⟩ := hA' q (by rw [hrequest]; rfl)
        have hother : Customer.name v ≠ q.name := hname' row.id rfl v hv'
        cases hr
        change Tried q L x t (.ok { (v : Customer) with name := q.name }) _
        refine ⟨_, atIntake_begun (hev'.db.pending.trans hlook.idle) hwork (fun T hT => ?_)
          (Nat.le_trans hlook.past hev'.db.log_le) (.inl ?_), ?_⟩
        · exact Engine.write_beside hT
        · rw [hid]
          exact hsaw2
        · rw [← hagrees]
          exact ⟨fun _ => ⟨_, _, _, rfl, Ne.symm hother⟩, fun _ => hname⟩
    · rename_i hname
      refine ensures_select counter_historic fun w2 hev' hL' _ _ _ => ?_
      have hidle : w2.db.pending t = fun _ _ => none := hev'.db.pending.trans hlook.idle
      have hpast : L ≤ w2.db.log.length := Nat.le_trans hlook.past hev'.db.log_le
      refine ensures_last (ensures_orRaise (fun _ => ⟨hidle, hpast⟩) fun customer hcustomer => ?_)
      have hcommitted : w2.db.committed .customers row.id = some customer := by
        rw [← Engine.view_idle hidle]
        exact hcustomer
      have hid : customer.id = row.id := hL'.rows.id .customers row.id customer hcommitted
      have hsaw2 := lasts_saw.evolves hev'.db hsaw
      refine ⟨none, atIntake_begun hidle (Engine.atWork_none (by rw [Engine.look_pending, hidle])) (fun _ _ => rfl) hpast
        (.inl ?_), ?_⟩
      · rw [hid]
        exact hsaw2
      · rw [← hagrees]
        refine ⟨fun h => absurd h hname, ?_⟩
        rintro ⟨i, v, r, hW, -⟩
        cases hW

theorem resolveCustomer_intake {k : Customer × Bool → Prg β} (hrequest : reqs t = .createTicket q actorId)
    (hidle : w.db.pending t = fun _ _ => none) (hpast : L ≤ w.db.log.length) (herr : ∀ e w', Q (.error e) w')
    (hk : ∀ customer b W w', AtIntake q L W false customer.id t w'.db → (b = true ↔ NewName W) →
      (counter reqs t q L).Ensures t (k (customer, b)) Q w') :
    (counter reqs t q L).Ensures t (resolveCustomer q.phone.e164 q.name >>= k) Q w := by
  refine ensures_first (select_finds hidle hpast fun existing w1 hev hL _ _ hlook => ?_)
  refine ensures_first (ensures_attempt (ensures_mono (fun saved w2 htried => ?_) (upsert_tried hrequest hlook)))
  cases saved with
  | ok customer =>
    obtain ⟨W, hat, hb⟩ := htried
    exact hk customer _ W w2 hat hb
  | error e =>
    obtain ⟨hidle2, hpast2⟩ := htried
    by_cases he : e = .integrity
    · subst he
      -- the winner's row, as it is
      refine ensures_first (select_finds hidle2 hpast2 fun winner w3 hev' hL' _ hnow hlook' => ?_)
      refine ensures_first (ensures_orRaise (fun _ => herr _ _) fun customer hcustomer => ?_)
      have hsaw : Saw Table.customers customer.id L (fun x => ∃ v : Customer, x = some v ∧ v.holds q.phone.e164 = true)
          (w3.db.look t) := hnow.saw hcustomer (Nat.le_trans hpast2 hev'.db.log_le)
      refine hk customer false none _ (atIntake_begun hlook'.idle (Engine.atWork_none (by rw [hlook'.idle])) (fun _ _ => rfl)
        hlook'.past (.inl hsaw)) ⟨(fun hb => by cases hb), ?_⟩
      rintro ⟨i, v, r, hW, -⟩
      cases hW
    · cases e with
      | integrity => exact absurd rfl he
      | _ => exact herr _ _

variable {k : Unit → Prg β}

theorem record_intake {entity actor : Option Nat} {action : AuditAction} (h : AtIntake q L W recorded i t w.db)
    (herr : ∀ e w', Q (.error e) w')
    (hk : ∀ w', AtIntake q L W (recorded || action = .atelierCustomerRenamed) i t w'.db →
      (counter reqs t q L).Ensures t (k ()) Q w') :
    (counter reqs t q L).Ensures t (record actor entity action >>= k) Q w :=
  ensures_first (ensures_insert counter_historic (fun _ _ _ _ _ => herr _ _) fun _ hev hL _ _ =>
    hk _ ((h.evolves hev.db).record hL))

theorem recordRename_intake {b : Bool} {customerId : Nat} (h : AtIntake q L W false i t w.db)
    (herr : ∀ e w', Q (.error e) w')
    (hk : ∀ w', AtIntake q L W b i t w'.db → (counter reqs t q L).Ensures t (k ()) Q w') :
    (counter reqs t q L).Ensures t (recordRename b actorId customerId >>= k) Q w := by
  cases b with
  | true => exact record_intake h herr hk
  | false => exact hk w h

theorem passes_intake (hidle : w.db.pending t = fun _ _ => none) (hpast : L ≤ w.db.log.length)
    (herr : ∀ e w', Q (.error e) w') (hk : ∀ w', w'.db.pending t = (fun _ _ => none) → L ≤ w'.db.log.length →
      (counter reqs t q L).Ensures t (k ()) Q w') : (counter reqs t q L).Ensures t (passes >>= k) Q w := by
  refine ensures_first (ensures_ask counter_historic rfl fun w1 x n hev _ _ _ => ?_)
  cases (outside.serve t Ask.refusal x n w1.out).1 with
  | none => exact hk _ (hev.db.pending.trans hidle) (Nat.le_trans hpast hev.db.log_le)
  | some e => exact herr e _

theorem createTicket_attests (hrequest : reqs t = .createTicket q actorId) (hidle : w.db.pending t = fun _ _ => none)
    (hpast : L ≤ w.db.log.length) :
    (counter reqs t q L).Ensures t (createTicket q actorId) (fun _ _ => True) w := by
  refine passes_intake hidle hpast (fun _ _ => trivial) fun w1 hidle1 hpast1 => ?_
  refine ensures_last (ensures_tenantSession counter_historic fun w2 n hev _ _ => ?_)
  refine passes_intake (hev.db.pending.trans hidle1) (Nat.le_trans hpast1 hev.db.log_le) (fun _ _ _ _ _ => trivial)
    fun w3 hidle3 hpast3 => ?_
  refine resolveCustomer_intake hrequest hidle3 hpast3 (fun _ _ _ _ _ => trivial) fun customer b W w4 hat hnamed => ?_
  refine recordRename_intake hat (fun _ _ _ _ _ => trivial) fun w5 hat5 => ?_
  refine Session.ensures_now counter_historic fun w6 hev6 _ _ => ?_
  refine Session.ensures_insert counter_historic (fun _ _ _ _ _ _ _ _ => trivial) fun w7 hev7 _ _ _ => ?_
  refine record_intake (((hat5.evolves hev6.db).evolves hev7.db).ticket rfl) (fun _ _ _ _ _ => trivial) fun w8 hat8 => ?_
  intro w9 hev9 _ hI _ _
  refine ⟨Ledger.inv_commit hI fun _ _ => (hat8.evolves hev9.db).attested ?_, trivial⟩
  simpa using hnamed

end Programs

/-! ## Every run -/

/-- **Every rename at the counter is audited**: in every run in which no intake is forestalled, an intake's commit carries the
audit row of a rename exactly when it changed the name of a customer it found, and its ticket is of a customer who had the phone
at a moment between any state in which the intake had not begun and the commit, or whom the commit brought in with it. -/
theorem renames_audited (h : Shelved rows next) {actorId : Nat} (hrequest : reqs t = .createTicket q actorId)
    {c₀ : Conf (machine schema outside Err) Reply}
    (h₀ : Conf.Steps (fun u o w x w' => u ≠ t ∧ Unforestalled reqs u o w x w')
      (serving settings reqs rows next clock) c₀)
    (hr : Conf.Steps (Unforestalled reqs) c₀ c) {m : Nat} {d : Commit schema} (hd : c.state.db.log[m]? = some d)
    (hby : d.by_ = t) (hlater : c₀.state.db.log.length ≤ m) : Attested q c₀.state.db.log.length c.state.db m d := by
  have hob : Cast.Obeyed (conduct true).shared (serving settings reqs rows next clock) := serving_obeyed h fun _ _ => rfl
  obtain ⟨hidle, hcode⟩ := hob.unbegun ⟨rfl⟩ h₀
  have hsafe : ∀ u p, c₀.threads u = some p →
      (counter reqs t q c₀.state.db.log.length).logic.Safe u p (fun _ _ => True) c₀.state := by
    intro u p hp
    by_cases hu : u = t
    · subst hu
      cases hcode p hp
      change (counter reqs u q c₀.state.db.log.length).logic.Safe u ((reqs u).code settings) _ _
      rw [hrequest]
      exact safe_of_ensures (createTicket_attests hrequest hidle.pending (Nat.le_refl _)) fun _ _ _ _ _ _ _ => trivial
    · exact Ledger.safe_of_lawful (fun e _ _ hby => absurd hby hu) fun _ _ => trivial
  obtain ⟨hsound, -⟩ := (counter reqs t q c₀.state.db.log.length).runs (Q := fun _ _ _ => True) (hob.steps h₀).1
    (fun m d hm _ hL => absurd (List.getElem?_eq_some_iff.1 hm).1 (Nat.not_lt.2 hL)) hsafe hr
  exact hsound.inv.2 m d hd hby hlater

/-! ## A rename, recorded twice -/

def noaLevi : CreateTicketRequest := ⟨noasPhone, "Noa Levi", 100, 60, none⟩

def twoIntakes : Tid → Request := fun _ => .createTicket noaLevi 7

def auditsAlone (t : Tid) (e : Engine schema) : Prop :=
  ∃ d ∈ e.log, d.by_ = t ∧
    (∃ j, j < e.next ∧ ∃ a : AuditLog, a ∈ d.writes Table.auditLog j ∧ a.action = .atelierCustomerRenamed) ∧
    ∀ i, i < e.next → ∀ v : Customer, v ∈ d.before Table.customers i → ∀ r : Customer, r ∈ d.writes Table.customers i →
      r.name = v.name

instance (t : Tid) (e : Engine schema) : Decidable (auditsAlone t e) := by
  unfold auditsAlone
  infer_instance

/-- **The other intake commits the name first**: the second audits a rename, and writes the name that is there. -/
theorem rename_audited_twice : ∃ c, (serving Retention.shipped twoIntakes (listed (S := schema) onlyNoa) 1 10).Reaches c ∧
    ∃ d ∈ c.state.db.log, d.by_ = 0 ∧ Audits d ∧ ¬∃ i, Renames d i := by
  obtain ⟨c, hc, hP⟩ := Conf.reached_freely
      (serving Retention.shipped twoIntakes (listed (S := schema) onlyNoa) 1 10) (calls 0 4 ++ calls 1 11 ++ calls 0 7)
    (fun c => decide (auditsAlone 0 c.state.db)) (by decide)
  obtain ⟨d, hd, hby, ⟨j, -, a, ha, haction⟩, hsame⟩ := of_decide_eq_true hP
  have hL := ((serving_obeyed (S := true) onlyNoa_shelved fun _ _ => rfl).steps hc).1.lawful
  refine ⟨c, hc, d, hd, hby, ⟨j, a, ha, haction⟩, ?_⟩
  rintro ⟨i, v, r, hv, hr, hname⟩
  exact hname (hsame i (hL.written_lt hd hr) v hv r hr)

def renamesFirst (t : Tid) (e : Engine schema) : Bool :=
  e.log[0]?.any fun d => decide (d.by_ = t ∧ (d.before Table.customers 0).map Customer.name = some "Noa" ∧
    (d.writes Table.customers 0).map Customer.name = some "Noa Levi")

/-- Alone, the intake renames her and says so. -/
theorem rename_audited_once : ∃ c,
    Conf.Steps (Unforestalled twoIntakes) (serving Retention.shipped twoIntakes (listed (S := schema) onlyNoa) 1 10) c ∧
    ∃ d, c.state.db.log[0]? = some d ∧ Audits d ∧ ∃ i, Renames d i := by
  obtain ⟨c, hc, hP⟩ := Conf.reached_of_play (A := Unforestalled twoIntakes)
    (serving Retention.shipped twoIntakes (listed (S := schema) onlyNoa) 1 10) (calls 0 11)
    (fun c => renamesFirst 0 c.state.db) (by decide)
  unfold renamesFirst at hP
  cases hlog : c.state.db.log[0]? with
  | none =>
    rw [hlog] at hP
    cases hP
  | some d =>
    rw [hlog] at hP
    obtain ⟨hby, hbefore, hwrites⟩ := of_decide_eq_true hP
    obtain ⟨v, hv, hname⟩ := Option.map_eq_some_iff.1 hbefore
    obtain ⟨r, hr, hname'⟩ := Option.map_eq_some_iff.1 hwrites
    have hrenames : Renames d 0 := ⟨v, r, hv, hr, by rw [hname, hname']; decide⟩
    have hrequest : twoIntakes 0 = .createTicket noaLevi 7 := rfl
    have hattested := renames_audited onlyNoa_shelved hrequest .refl hc hlog hby (Nat.zero_le _)
    exact ⟨c, hc, d, hlog, hattested.audit.2 ⟨0, hrenames⟩, 0, hrenames⟩

end Subjects

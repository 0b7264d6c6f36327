import Boutique.Authority
/-!
# Succession — what a handover tells of whom it relieves

A handover keeps the holder it has read and moves the assignment as its UPDATE finds it.  What the trail says is so while
nobody else is handed the assignment in between; and a handover to the holder is told like any other.
-/
namespace Floor

open Txn Session Contract

variable {cfg : Config} {reqs : Tid → Request} {t : Tid} {e : Engine schema} {w w' : World schema outside}
  {rows : Rows schema} {next : Nat} {clock : Int} {c : Conf (machine schema outside Err) Response} {a n : Nat}
  {actor : StaffContext}

/-- **What a handover of `a` to `n` commits**: its audit row tells the holder of the row it was written over, and it
writes nothing where that is `n`. -/
structure Told (a n : Nat) (d : Commit schema) : Prop where
  audit : ∀ k (r : AuditLog), d.writes .auditLog k = some r → ∃ v : FittingRoomAssignment,
    d.before .assignments a = some v ∧ d.writes .assignments a = some { v with staffUserId := n } ∧
      r.action = .fittingRoomHandedOver a (some v.staffUserId) n
  idle : ∀ v : FittingRoomAssignment, d.before .assignments a = some v → v.staffUserId = n → d.writes = fun _ _ => none

abbrev told (reqs : Tid → Request) : Ledger schema where
  Holds _ _ d := ∀ a n actor, reqs d.by_ = .handover a n actor → Told a n d
  stable _ _ _ _ _ _ _ h := h

/-- **The capture still stands at the UPDATE**: it found the assignment, nobody has moved that since, and it is handed to
somebody else. -/
def Captured (e : Engine schema) (t : Tid) (a n : Nat) : Prop :=
  ∀ u : FittingRoomAssignment, e.committed .assignments a = some u → u.active = true →
    (∃ v : FittingRoomAssignment, e.version (e.seen t) .assignments a = some v ∧ v.deletedAt = none) ∧ Unmoved e t a ∧
      u.staffUserId ≠ n

/-- **No handover meets another one, and none is to the holder.** -/
def Unsurpassed : (machine schema outside Err).Assumption := fun t o w _ _ =>
  match o with
  | .sql (.update .assignments a (.handover n)) => Captured w.db t a n
  | _ => True

abbrev succession (reqs : Tid → Request) : Contract lasting.shared outside Err :=
  (told reqs).contract lasting.shared Unsurpassed

theorem succession_historic : (succession reqs).Historic fun _ => true := (told reqs).historic _

structure Moving (t : Tid) (a n : Nat) (v : FittingRoomAssignment) (e : Engine schema) : Prop where
  work : e.AtWork t Table.assignments (some (a, some v, { v with staffUserId := n }))
  other : v.staffUserId ≠ n
  audit : ∀ k (r : AuditLog), e.pending t .auditLog k = some r → r.action = .fittingRoomHandedOver a (some v.staffUserId) n

variable {v : FittingRoomAssignment}

theorem Moving.evolves {e' : Engine schema} (h : Moving t a n v e) (hev : e.Evolves lasting.shared t e') :
    Moving t a n v e' :=
  ⟨h.work.evolves hev, h.other, by rw [hev.pending]; exact h.audit⟩

theorem Moving.congr {e' : Engine schema} (h : Moving t a n v e) (hc : e'.committed = e.committed)
    (ha : e'.pending t .assignments = e.pending t .assignments) (hn : e'.pending t .auditLog = e.pending t .auditLog) :
    Moving t a n v e' :=
  ⟨h.work.congr hc ha, h.other, by rw [hn]; exact h.audit⟩

theorem Moving.told (h : Moving t a n v e) : Told a n (e.entry t) := by
  have hfound := h.work.found a _ _ rfl
  refine ⟨fun k r hr => ⟨v, hfound, h.work.row, h.audit k r hr⟩, fun u hu hn => ?_⟩
  have huv : u = v := Option.some.inj (hu.symm.trans hfound)
  exact absurd (huv ▸ hn) h.other

def Quieter (o : Op schema outside) : Prop := Sparing (fun T => T = Table.assignments ∨ T = Table.auditLog) o

section Stretches

variable {α β : Type} {v : FittingRoomAssignment} {Q : Except Err β → World schema outside → Prop}

theorem moving_bind {p : Prg α} {k : α → Prg β} (hp : Only Quieter p) (h : Moving t a n v w.db)
    (herr : ∀ e w', Q (.error e) w') (hk : ∀ x w', Moving t a n v w'.db → (succession reqs).Ensures t (k x) Q w') :
    (succession reqs).Ensures t (p >>= k) Q w :=
  ensures_sparing succession_historic (Moving t a n v) (fun _ _ hev _ h => h.evolves hev)
    (fun _ _ _ hc hpend h => h.congr hc (hpend _ (.inl rfl)) (hpend _ (.inr rfl))) hp h (fun e w' _ => herr e w') hk

theorem moving_record {k : Unit → Prg β} (h : Moving t a n v w.db) (herr : ∀ e w', Q (.error e) w')
    (hk : ∀ w', Moving t a n v w'.db → (succession reqs).Ensures t (k ()) Q w') :
    (succession reqs).Ensures t (record actor.id a (.fittingRoomHandedOver a (some v.staffUserId) n) >>= k) Q w := by
  refine ensures_first (ensures_insert succession_historic (fun w1 _ _ _ _ => herr _ _) fun w1 hev _ _ _ => ?_)
  have h1 := h.evolves hev.db
  refine hk ⟨_, w1.out⟩ ⟨h1.work.insertBeside (by decide), h.other, fun j r hr => ?_⟩
  rcases Engine.inserted_pending hr with heq | hr
  · cases heq
    rfl
  · exact h1.audit j r hr

theorem idly_bind {p : Prg α} {k : α → Prg β} (hp : Only Quieter p) (herr : ∀ e w', Q (.error e) w')
    (hk : ∀ x w', (succession reqs).Ensures t (k x) Q w') : (succession reqs).Ensures t (p >>= k) Q w :=
  ensures_sparing succession_historic (fun _ => True) (fun _ _ _ _ _ => trivial) (fun _ _ _ _ _ _ => trivial) hp trivial
    (fun e w' _ => herr e w') fun x w' _ => hk x w'

end Stretches

theorem quieter_reads {o : Op schema outside} (h : Among [] o) : Quieter o := by
  refine ⟨?_, ?_, ?_⟩
  · cases o with
    | sql o =>
      cases o with
      | commit | abort => exact absurd (h .session rfl) (by decide)
      | begin | read | update | insert | lock => trivial
    | now | ask => trivial
  · rintro T j g rfl (rfl | rfl)
    · exact absurd (h .assignment rfl) (by decide)
    · cases g
  · rintro T r rfl (rfl | rfl)
    · exact absurd (h .assignment rfl) (by decide)
    · exact absurd (h .note rfl) (by decide)

theorem reading {α : Type} {p : Prg α} (h : Only (Among []) p) : Only Quieter p :=
  fun l => (h l).mono fun _ _ ho => quieter_reads ho

theorem quieter_notify (staffId actorId : Nat) (k : StaffNotificationKind) (entityId : Nat) :
    Only Quieter (notifyOther staffId actorId k entityId) := by
  unfold notifyOther
  split
  · refine only_bind (only_insert ⟨trivial, fun T j g hc => (by cases hc), fun T r hc => ?_⟩ _) fun _ => only_ret _
    cases hc
    decide
  · exact only_ret _

theorem closes_failed {e : Err} : Closes (succession reqs) t pure anyhow (.error e) w := fun _ _ _ => trivial

theorem closes_moving {r : Response} (hreq : reqs t = .handover a n actor) (h : Moving t a n v w.db) :
    Closes (succession reqs) t pure anyhow (.ok r) w := by
  refine fun w1 hev _ hI _ _ => ⟨Ledger.inv_commit hI fun a' n' actor' hreq' => ?_, trivial⟩
  have hsame := hreq.symm.trans hreq'
  cases hsame
  exact (h.evolves hev.db).told

theorem handover_told (hreq : reqs t = .handover a n actor) (h : w.db.pending t = fun _ _ => none) :
    (succession reqs).Ensures t (handover a n actor) anyhow w := by
  refine ensures_last (ensures_tenantSession succession_historic fun w1 x hev1 _ _ =>
    ensures_select succession_historic fun w2 hev2 hL2 _ _ _ => ?_)
  have hidle : w2.db.pending t = fun _ _ => none := by
    rw [hev2.db.pending]
    rw [hev1.db.pending, h]
  refine ensures_unlessRefused (ensures_last (ensures_first (ensures_updateFirst succession_historic
    (Engine.atWork_none (by rw [Engine.look_pending, hidle])) (fun w3 _ => ?_) (fun w3 hev3 _ _ _ => ?_)
    fun w3 v x hev3 hL3 hv hx hA hwork => ?_)))
  · refine idly_bind (reading (within_ask _)) (fun _ _ => closes_failed) fun constraint w4 => ?_
    split
    · exact idly_bind (reading (within_heldRoomDetails _)) (fun _ _ => closes_failed) fun _ _ => closes_failed
    · exact closes_failed
  · exact ensures_raiseIf (fun _ => closes_failed) nofun
  have hx' : AssignmentChange.apply v (.handover n) = some x := hx
  simp only [AssignmentChange.apply] at hx'
  split at hx' <;> cases hx'
  rename_i hactive
  obtain ⟨⟨u, hu, hlive⟩, hunmoved, hother⟩ := hA v hv hactive
  have hseen : w3.db.seen t = w2.db.log.length := by rw [hev3.db.seen, Engine.look_seen]
  have hholder := holder_of_unmoved hL3 (by rw [hseen]; exact hev3.db.log_le) hu hv hunmoved
  have hread : (w2.db.view t .assignments a : Option FittingRoomAssignment) = some u := by
    have hversion : w3.db.version w2.db.log.length = w2.db.committed :=
      (hev3.db.version _ (Nat.le_refl _)).trans (Engine.version_length (e := w2.db.look t))
    rw [hseen, hversion] at hu
    rwa [Engine.view_idle hidle]
  have hbefore : (Option.filter (fun (y : FittingRoomAssignment) => decide (y.deletedAt = none))
      (w2.db.view t .assignments a)).map FittingRoomAssignment.staffUserId = some v.staffUserId := by
    rw [hread, Option.filter_some, if_pos (by simpa using hlive), Option.map_some, hholder]
  have hmoving : Moving t a n v (w3.db.write t Table.assignments a { v with staffUserId := n }) := by
    refine ⟨hwork, hother, fun k r hr => ?_⟩
    rw [Engine.write_pending_row (by simp), hev3.db.pending, Engine.look_pending, hidle] at hr
    cases hr
  refine ensures_select succession_historic fun w4 hev4 _ _ _ _ => ?_
  have h4 : Moving t a n v (w4.db.look t) := (hmoving.evolves hev4.db).congr rfl rfl rfl
  refine ensures_raiseIf (fun _ => closes_failed) fun _ => ensures_orRaise (fun _ => closes_failed) fun row _ => ?_
  have hcaptured : Option.map FittingRoomAssignment.staffUserId (Option.filter
      (fun (y : FittingRoomAssignment) => decide (y.deletedAt = none))
      ((⟨w2.db.view t, w2.db.next⟩ : Snapshot schema).rows Table.assignments a)) = some v.staffUserId := hbefore
  rw [hcaptured]
  exact moving_record h4 (fun _ _ => closes_failed) fun w5 h5 => moving_bind (quieter_notify _ _ _ _) h5
    (fun _ _ => closes_failed) fun _ w6 h6 => moving_bind (reading (within_roomRead _)) h6 (fun _ _ => closes_failed)
    fun room w7 h7 => closes_moving hreq h7

/-- **What every handover tells**, in every run where none meets another one and none is to the holder. -/
theorem handovers_told (h : Shelved rows next) (hr : Conf.Steps Unsurpassed (routing cfg reqs rows next clock) c) :
    ∀ d ∈ c.state.db.log, ∀ a n actor, reqs d.by_ = .handover a n actor → Told a n d := by
  have hsafe : ∀ t p, (routing cfg reqs rows next clock).threads t = some p →
      (succession reqs).logic.Safe t p (fun _ _ => True) (routing cfg reqs rows next clock).state := by
    intro t p hp
    cases hp
    by_cases hreq : ∃ a n actor, reqs t = .handover a n actor
    · obtain ⟨a, n, actor, hreq⟩ := hreq
      refine safe_of_ensures (Q := fun _ _ => True) ?_ fun _ _ _ _ _ _ _ => trivial
      dsimp only
      rw [hreq]
      exact ensures_raiseIf (fun _ => trivial) fun _ => handover_told hreq rfl
    · refine Ledger.safe_of_lawful (fun e _ _ a n actor hreq' => ?_) fun _ _ => trivial
      exact absurd ⟨a, n, actor, hreq'⟩ hreq
  obtain ⟨hsound, -⟩ := (succession reqs).runs (Q := fun _ _ _ => True) (routing_obeyed h)
    (by simp [Ledger.contract, routing, staged, atRest]) hsafe hr
  intro d hd
  obtain ⟨m, hm⟩ := List.mem_iff_getElem?.1 hd
  exact hsound.inv.2 m d hm

end Floor

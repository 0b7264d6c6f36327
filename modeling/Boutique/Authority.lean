import Boutique.Dispatches
import Boutique.TxnStretch
/-!
# Authority — who may free a room

A release is allowed by the row it has read, and its UPDATE takes the row it finds.  Between the two a handover may move
the assignment, so what a staffer without the elevated roles may free is her own room only while nobody is handed it.
-/
namespace Floor

open Txn Session Contract

/-! ## The routes -/

def elevated (actor : StaffContext) : Prg Unit := raiseIf (actor.role ∉ ELEVATED_ROLES) .notAuthorized

def Request.gate : Request → Prg Unit
  | .handover _ _ actor | .deleteRoom _ actor | .skip _ _ actor | .remove _ actor => elevated actor
  | _ => return ()

def Request.routed (cfg : Config) (req : Request) : Prg Response := do
  req.gate
  req.code cfg

def Request.bounded : Request → Option StaffContext
  | .release _ actor | .handover _ _ actor => if actor.role ∈ ELEVATED_ROLES then none else some actor
  | _ => none

variable {cfg : Config} {reqs : Tid → Request} {t : Tid} {e : Engine schema} {w w' : World schema outside}
  {rows : Rows schema} {next : Nat} {clock : Int} {c : Conf (machine schema outside Err) Response}

theorem within_routed (cfg : Config) (req : Request) : Only (Among verbs) (req.routed cfg) := by
  refine only_bind ?_ fun _ => within_request cfg req
  cases req with
  | handover | deleteRoom | skip | remove => exact only_raiseIf _ _
  | claim | takeNext | assign | release | updateRoom | call => exact only_ret _

def routing (cfg : Config) (reqs : Tid → Request) (rows : Rows schema) (next : Nat) (clock : Int) :
    Conf (machine schema outside Err) Response :=
  staged (V := outside) () (fun t => (reqs t).routed cfg) rows next clock

theorem routing_obeyed (h : Shelved rows next) : Cast.Obeyed lasting.shared (routing cfg reqs rows next clock) := by
  refine ⟨atRest_lawful h _, fun t p hp => ?_⟩
  cases hp
  exact ⟨false, nofun, uses_mono (fun l o ho => legal_verbs l o ho) (fun _ _ h => h) (within_routed cfg (reqs t) false)⟩

/-! ## A row read, and the row an UPDATE finds -/

/-- **No commit since thread `t` last read has moved assignment `a` to another holder.** -/
def Unmoved (e : Engine schema) (t : Tid) (a : Nat) : Prop :=
  ∀ n c, e.seen t ≤ n → e.log[n]? = some c → ∀ v x : FittingRoomAssignment, c.before .assignments a = some v →
    c.writes .assignments a = some x → x.staffUserId = v.staffUserId

theorem holder_of_unmoved (hL : e.Lawful lasting.shared) {a : Nat} {v u : FittingRoomAssignment}
    (hseen : e.seen t ≤ e.log.length) (hv : e.version (e.seen t) .assignments a = some v)
    (hu : e.committed .assignments a = some u) (h : Unmoved e t a) : u.staffUserId = v.staffUserId := by
  have huntouched : Engine.Untouched (S := schema) (T := Table.assignments) FittingRoomAssignment.staffUserId e (e.seen t) a := h
  exact hL.kept_since hseen hv hu huntouched

/-! ## The ledger -/

/-- **A rightful commit**: what a staffer without the elevated roles writes of the assignments, by a release or a
handover, was hers in the row it was written over. -/
def Rightful (reqs : Tid → Request) (d : Commit schema) : Prop :=
  ∀ actor, (reqs d.by_).bounded = some actor → ∀ a (x : FittingRoomAssignment), d.writes .assignments a = some x →
    ∃ v : FittingRoomAssignment, d.before .assignments a = some v ∧ v.staffUserId = actor.id

abbrev rightful (reqs : Tid → Request) : Ledger schema where
  Holds _ _ d := Rightful reqs d
  stable _ _ _ _ _ _ _ h := h

/-- **No release of hers meets a handover**: when it is about to write an active assignment, nobody has moved that since
it was read. -/
def Unrelieved (reqs : Tid → Request) : (machine schema outside Err).Assumption := fun t o w _ _ =>
  match o with
  | .sql (.update .assignments a _) => (reqs t).bounded.isSome →
    (∀ u : FittingRoomAssignment, w.db.committed .assignments a = some u → u.active = true) → Unmoved w.db t a
  | _ => True

abbrev authority (reqs : Tid → Request) : Contract lasting.shared outside Err :=
  (rightful reqs).contract lasting.shared (Unrelieved reqs)

theorem authority_historic : (authority reqs).Historic fun _ => true := (rightful reqs).historic _

def Hers (t : Tid) (actor : StaffContext) (e : Engine schema) : Prop :=
  ∃ W : Work FittingRoomAssignment, e.AtWork t Table.assignments W ∧
    ∀ a v x, W = some (a, v, x) → ∃ u : FittingRoomAssignment, v = some u ∧ u.staffUserId = actor.id

variable {actor : StaffContext} {o : Op schema outside}

theorem Hers.commit (h : Hers t actor e) (hreq : (reqs t).bounded = some actor) :
    Rightful reqs (e.entry t) := by
  intro actor' hreq' a x hw
  have hactor : actor = actor' := Option.some.inj (hreq.symm.trans hreq')
  subst hactor
  obtain ⟨W, hwork, hhers⟩ := h
  obtain ⟨v, hW, hbefore⟩ := hwork.entry hw
  obtain ⟨u, rfl, hu⟩ := hhers a v x hW
  exact ⟨u, hbefore, hu⟩

theorem sparing_among {ks : List Kind} (hs : .session ∉ ks) (ha : .assignment ∉ ks) (h : Among ks o) :
    Sparing (fun T => T = Table.assignments) o := by
  refine ⟨?_, ?_, ?_⟩
  · cases o with
    | sql o =>
      cases o with
      | commit | abort => exact absurd (h .session rfl) hs
      | begin | read | update | insert | lock => trivial
    | now | ask => trivial
  · rintro T j g rfl rfl
    exact ha (h .assignment rfl)
  · rintro T r rfl rfl
    exact ha (h .assignment rfl)

section Stretches

variable {α β : Type} {actor : StaffContext} {Q : Except Err β → World schema outside → Prop}

theorem hers_bind {p : Prg α} {k : α → Prg β} (hp : Only (Among [.ticket, .note]) p) (h : Hers t actor w.db)
    (herr : ∀ e w', Q (.error e) w') (hk : ∀ a w', Hers t actor w'.db → (authority reqs).Ensures t (k a) Q w') :
    (authority reqs).Ensures t (p >>= k) Q w := by
  refine ensures_sparing authority_historic (Hers t actor) (fun e e' hev _ h => ?_) (fun e e' _ hc hpend h => ?_)
    (fun l => (hp l).mono fun _ o ho => sparing_among (by decide) (by decide) ho) h (fun e w' _ => herr e w') hk
  · obtain ⟨W, hwork, hhers⟩ := h
    exact ⟨W, hwork.evolves hev, hhers⟩
  · obtain ⟨W, hwork, hhers⟩ := h
    exact ⟨W, hwork.congr hc (hpend _ rfl), hhers⟩

end Stretches

def anyhow (_ : Except Err Response) (_ : World schema outside) : Prop := True

theorem closes_hers (hreq : (reqs t).bounded = some actor) {x : Except Err Response}
    (h : ∀ r, x = .ok r → Hers t actor w.db) : Closes (authority reqs) t pure anyhow x w := by
  cases x with
  | error e => exact fun _ _ _ => trivial
  | ok r =>
    intro w1 hev hL hI _ _
    obtain ⟨W, hwork, hhers⟩ := h r rfl
    exact ⟨Ledger.inv_commit hI (Hers.commit ⟨W, hwork.evolves hev.db, hhers⟩ hreq), trivial⟩

theorem release_rightful {a : Nat} (hreq : (reqs t).bounded = some actor) (hrole : actor.role ∉ ELEVATED_ROLES)
    (h : w.db.pending t = fun _ _ => none) : (authority reqs).Ensures t (release a actor) anyhow w := by
  have hfail : ∀ e w', Closes (authority reqs) t pure anyhow (.error e) w' := fun e w' =>
    closes_hers hreq fun r hr => by cases hr
  refine ensures_now authority_historic fun w1 hev1 _ _ => ensures_last (ensures_tenantSession authority_historic
    fun w2 n hev2 _ _ => ensures_select authority_historic fun w3 hev3 hL3 _ _ _ =>
    ensures_orRaise (fun _ => hfail _ _) fun row hrow => ensures_raiseIf (fun _ => hfail _ _) fun hheld => ?_)
  have hidle : w3.db.pending t = fun _ _ => none := by
    rw [hev3.db.pending]
    rw [hev2.db.pending, hev1.db.pending, h]
  have hread : w3.db.committed .assignments a = some row := by
    have hview := (Option.filter_eq_some_iff.1 hrow).1
    change w3.db.view t .assignments a = some row at hview
    rwa [Engine.view_idle hidle] at hview
  have hmine : row.staffUserId = actor.id := by simpa [hrole] using hheld
  refine ensures_first (ensures_updateFirst authority_historic (Engine.atWork_none (by rw [Engine.look_pending, hidle]))
    (fun w4 _ => hfail _ _) (fun w4 hev4 _ _ _ => ?_) fun w4 v x hev4 hL4 hv hx hA hwork => ?_)
  · have hhers : Hers t actor w4.db := ⟨none, Engine.atWork_none (by
      rw [hev4.db.pending, Engine.look_pending, hidle]), fun a v x hW => by cases hW⟩
    refine ensures_first (hers_bind (within_select _ _) hhers hfail fun refreshed w5 h5 =>
      ensures_orRaise (fun _ => hfail _ _) fun row' _ => ?_)
    split
    · rename_i hwrote
      cases hwrote
    · exact hers_bind (within_roomRead _) h5 hfail fun room w6 h6 => closes_hers hreq fun _ _ => h6
  have hactive : v.active = true := (apply_release hx).1
  have hseen : w4.db.seen t = w3.db.log.length := by
    rw [hev4.db.seen, Engine.look_seen]
  have hholder : v.staffUserId = actor.id := by
    rw [← hmine]
    refine holder_of_unmoved hL4 (by rw [hseen]; exact hev4.db.log_le) ?_ hv (hA (by rw [hreq]; rfl) fun u hu => ?_)
    · have hversion : w4.db.version w3.db.log.length = w3.db.committed :=
        (hev4.db.version _ (Nat.le_refl _)).trans (Engine.version_length (e := w3.db.look t))
      rw [hseen, hversion]
      exact hread
    · rw [hv] at hu
      cases hu
      exact hactive
  have hhers : Hers t actor (w4.db.write t Table.assignments a x) := ⟨_, hwork, fun b v' x' hW => by
    cases hW
    exact ⟨v, rfl, hholder⟩⟩
  refine ensures_first (hers_bind (within_select _ _) hhers hfail fun refreshed w5 h5 =>
    ensures_orRaise (fun _ => hfail _ _) fun row' _ => ?_)
  split
  · refine hers_bind ?_ h5 hfail fun _ w6 h6 => hers_bind (within_record (by decide) _ _ _) h6 hfail fun _ w7 h7 =>
      hers_bind (within_roomRead _) h7 hfail fun room w8 h8 => closes_hers hreq fun _ _ => h8
    cases row'.queueTicketId with
    | none => exact only_ret _
    | some i => exact only_bind (only_bind (within_ticket (by decide) _ _) fun _ => only_ret _) fun _ => only_ret _
  · exact hers_bind (within_roomRead _) h5 hfail fun room w6 h6 => closes_hers hreq fun _ _ => h6

theorem routed_safe (t : Tid) : (authority reqs).logic.Safe t ((reqs t).routed cfg) (fun _ _ => True)
    ⟨atRest rows next clock, ()⟩ := by
  cases hreq : (reqs t).bounded with
  | none =>
    refine Ledger.safe_of_lawful (fun e _ _ actor hactor => ?_) fun _ _ => trivial
    have hnone : (reqs t).bounded = some actor := hactor
    rw [hreq] at hnone
    cases hnone
  | some actor =>
    refine safe_of_ensures (Q := fun _ _ => True) ?_ fun _ _ _ _ _ _ _ => trivial
    cases hr : reqs t with
    | release a actor' =>
      rw [hr] at hreq
      simp only [Request.bounded, Option.ite_none_left_eq_some, Option.some.injEq] at hreq
      obtain ⟨hrole, rfl⟩ := hreq
      exact release_rightful (by rw [hr]; simp [Request.bounded, hrole]) hrole rfl
    | handover a newStaffId actor' =>
      rw [hr] at hreq
      simp only [Request.bounded, Option.ite_none_left_eq_some, Option.some.injEq] at hreq
      exact ensures_raiseIf (fun _ => trivial) fun hfalse => absurd hreq.1 (by simpa using hfalse)
    | claim | takeNext | assign | updateRoom | deleteRoom | call | skip | remove =>
      rw [hr] at hreq
      cases hreq

/-- **Release and handover authority at the write**, in every run where no release of a staffer without the elevated roles
is overtaken by a handover: what such a staffer frees or moves was hers in the row it was written over. -/
theorem release_authority (h : Shelved rows next)
    (hr : Conf.Steps (Unrelieved reqs) (routing cfg reqs rows next clock) c) :
    ∀ d ∈ c.state.db.log, ∀ actor, (reqs d.by_).bounded = some actor → ∀ a (x : FittingRoomAssignment),
      d.writes .assignments a = some x →
      ∃ v : FittingRoomAssignment, d.before .assignments a = some v ∧ v.staffUserId = actor.id := by
  obtain ⟨hsound, -⟩ := (authority reqs).runs (Q := fun _ _ _ => True) (routing_obeyed h)
    (by simp [Ledger.contract, routing, staged, atRest]) (fun t p hp => by cases hp; exact routed_safe t) hr
  intro d hd
  obtain ⟨m, hm⟩ := List.mem_iff_getElem?.1 hd
  exact hsound.inv.2 m d hm

/-! ## A colleague relieved -/

def oneSeated : (T : Table) → List (Row T)
  | .rooms => [(⟨0, 0, none, "1", 0, true⟩ : FittingRoom)]
  | .assignments => [(⟨1, 0, none, 0, 10, none, none, none⟩ : FittingRoomAssignment)]
  | _ => []

theorem oneSeated_shelved : Shelved (listed (S := schema) oneSeated) 2 :=
  shelved_of_stocked [.rooms, .assignments, .tickets, .auditLog, .notifications] (fun T => by cases T <;> decide)
    (by decide)

def relief : Tid → Request
  | 0 => .release 1 ⟨10, .seamstress⟩
  | _ => .handover 1 11 ⟨20, .shiftManager⟩

def served (t : Tid) (n : Nat) : List (Action (machine schema outside Err)) :=
  List.replicate n (.call t ⟨none, some "Maya", false, none⟩)

def commits (a : Nat) (c : Conf (machine schema outside Err) Response) :
    List (Tid × Option FittingRoomAssignment × Option FittingRoomAssignment) :=
  c.state.db.log.map fun d => (d.by_, d.before .assignments a, d.writes .assignments a)

/-- **A release read before a handover and written after it frees the colleague's room.** -/
theorem colleague_freed : ∃ c, (routing ⟨utc⟩ relief (listed (S := schema) oneSeated) 2 0).Reaches c ∧
    ∃ d ∈ c.state.db.log, (relief d.by_).bounded = some ⟨10, .seamstress⟩ ∧
      d.before .assignments 1 = some (⟨1, 0, none, 0, 11, none, none, none⟩ : FittingRoomAssignment) ∧
      d.writes .assignments 1 = some (⟨1, 0, none, 0, 11, none, none, some 0⟩ : FittingRoomAssignment) := by
  obtain ⟨c, hc, hP⟩ := Conf.reached_freely
      (routing ⟨utc⟩ relief (listed (S := schema) oneSeated) 2 0) (served 0 3 ++ served 1 9 ++ served 0 5)
    (fun c => decide (commits 1 c = [
      (1, some ⟨1, 0, none, 0, 10, none, none, none⟩, some ⟨1, 0, none, 0, 11, none, none, none⟩),
      (0, some ⟨1, 0, none, 0, 11, none, none, none⟩, some ⟨1, 0, none, 0, 11, none, none, some 0⟩)])) (by decide)
  have hcommits := of_decide_eq_true hP
  have hmem : (0, some (⟨1, 0, none, 0, 11, none, none, none⟩ : FittingRoomAssignment),
      some (⟨1, 0, none, 0, 11, none, none, some 0⟩ : FittingRoomAssignment)) ∈ commits 1 c := by
    rw [hcommits]
    exact List.mem_cons_of_mem _ (List.mem_singleton_self _)
  obtain ⟨d, hd, heq⟩ := List.mem_map.1 hmem
  simp only [Prod.mk.injEq] at heq
  obtain ⟨hby, hbefore, hwrites⟩ := heq
  exact ⟨c, hc, d, hd, by rw [hby]; rfl, hbefore, hwrites⟩

theorem unrelieved_of_calm {r : o.Res} (h : w.db.log.isEmpty = true) : Unrelieved reqs t o w r w' := by
  unfold Unrelieved
  split
  · intro _ _ n c _ hc
    rw [List.isEmpty_iff.1 h] at hc
    cases hc
  · trivial

/-- Left alone, she frees her own room. -/
theorem release_authority_alone :
    ∃ c, Conf.Steps (Unrelieved relief) (routing ⟨utc⟩ relief (listed (S := schema) oneSeated) 2 0) c ∧
      commits 1 c = [(0, some ⟨1, 0, none, 0, 10, none, none, none⟩, some ⟨1, 0, none, 0, 10, none, none, some 0⟩)] ∧
      ∀ d ∈ c.state.db.log, ∀ actor, (relief d.by_).bounded = some actor → ∀ a (x : FittingRoomAssignment),
        d.writes .assignments a = some x →
        ∃ v : FittingRoomAssignment, d.before .assignments a = some v ∧ v.staffUserId = actor.id := by
  obtain ⟨c, hc, hP⟩ := Conf.reached_of_play (A := fun _ _ (w : World schema outside) _ _ => w.db.log.isEmpty = true)
    (routing ⟨utc⟩ relief (listed (S := schema) oneSeated) 2 0) (served 0 8)
    (fun c => decide (commits 1 c =
      [(0, some ⟨1, 0, none, 0, 10, none, none, none⟩, some ⟨1, 0, none, 0, 10, none, none, some 0⟩)])) (by decide)
  have hc' : Conf.Steps (Unrelieved relief) (routing ⟨utc⟩ relief (listed (S := schema) oneSeated) 2 0) c :=
    hc.mono fun _ _ _ _ _ h => unrelieved_of_calm h
  exact ⟨c, hc', of_decide_eq_true hP, release_authority oneSeated_shelved hc'⟩

end Floor

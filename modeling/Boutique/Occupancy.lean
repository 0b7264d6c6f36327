import Boutique.Seating
/-!
# Occupancy — what every verb of the floor commits

Each commit takes a step of the plan, and seats nobody in a room whose row it does not hold; so a deletion that has found
a locked room empty finds it empty when it commits.  A verb that fails leaves nothing.
-/
namespace Floor

open Txn Session Contract

variable {cfg : Config} {reqs : Tid → Request} {w w' : World schema outside} {t : Tid} {e e' : Engine schema}
  {R : Work FittingRoom} {A : Work FittingRoomAssignment} {K : Work QueueTicket}

def Request.dispatching : Request → Bool
  | .takeNext .. | .assign .. => true
  | _ => false

def Takes (d : Commit schema) (i : Nat) : Prop :=
  (planOf d.before).ticket i = some .waiting ∧ (planOf d.after).ticket i = some .inService

/-- **What a commit does**: a step of the plan, nobody seated in a room it does not hold, and no ticket taken but by a
dispatch. -/
structure Deed (reqs : Tid → Request) (d : Commit schema) : Prop where
  step : (planOf d.before).Step (planOf d.after)
  held : ∀ a s, (planOf d.after).seated a = some s →
    (planOf d.before).seated a = some s ∨ ∃ r : FittingRoom, d.writes .rooms s.room = some r
  taken : ∀ i, Takes d i → (reqs d.by_).dispatching = true

/-- **The floor of a database.** -/
structure Kept (reqs : Tid → Request) (e : Engine schema) : Prop where
  sound : (planOf e.committed).Sound
  deeds : ∀ d ∈ e.log, Deed reqs d

def seating (reqs : Tid → Request) : Contract lasting.shared outside Err where
  Inv w := Kept reqs w.db
  Assume _ _ _ _ _ := True
  crash_inv _ _ _ h := ⟨h.sound, h.deeds⟩
  tick_inv _ _ _ h := ⟨h.sound, h.deeds⟩

theorem seating_historic : (seating reqs).Historic fun _ => true :=
  ⟨fun _ _ hl hc _ h => ⟨by rw [hc]; exact h.sound, by rw [hl]; exact h.deeds⟩, fun _ _ _ _ _ _ h => h⟩

/-! ## What lasts while a thread works -/

def Empty (ρ : Nat) (e : Engine schema) : Prop := ∀ a s, (planOf e.committed).seated a = some s → s.room ≠ ρ

def Gone (i : Nat) (e : Engine schema) : Prop := (planOf e.committed).ticket i = none

variable {ρ i : Nat} {r : FittingRoom} {x : FittingRoomAssignment}

theorem Empty.evolves (h : Empty ρ e) (hheld : e.pending t .rooms ρ = some r) (hev : e.Evolves lasting.shared t e')
    (hL : e'.Lawful lasting.shared) (hkept : Kept reqs e') : Empty ρ e' := by
  intro a s hs hroom
  have hversion : e'.version e.log.length = e.committed :=
    (hev.version _ (Nat.le_refl _)).trans (Engine.version_length (e := e))
  obtain ⟨k, c, hk, -, hc, hnot, s', hs', hroom'⟩ := hL.version_crossing (T := Table.assignments) (i := a)
    (P := fun x => ∃ s : Seat, x.bind FittingRoomAssignment.seat = some s ∧ s.room = ρ) hev.log_le (Nat.le_refl _)
    (by rw [hversion]; rintro ⟨s, hs, hroom⟩; exact h a s hs hroom)
    (by rw [Engine.version_length]; exact ⟨s, hs, hroom⟩)
  rcases (hkept.deeds c (List.mem_of_getElem? hc)).held a s' hs' with hbefore | ⟨r', hr'⟩
  · exact hnot ⟨s', hbefore, hroom'⟩
  · rw [hroom', hev.apart k c hk hc Table.rooms ρ (by rw [hheld]; rfl)] at hr'
    cases hr'

theorem Gone.evolves (h : Gone i e) (hev : e.Evolves lasting.shared t e') : Gone i e' := by
  have hrow := hev.rows Table.tickets i
  simp only [Gone, planOf] at h ⊢
  cases hv : e.committed Table.tickets i with
  | none =>
    cases hr : e'.committed Table.tickets i with
    | none => rfl
    | some r =>
      rw [hv, hr] at hrow
      exact absurd rfl hrow
  | some v =>
    rw [hv] at hrow
    obtain ⟨r, hr, hlasts⟩ := hrow.some_left
    have hlive : QueueTicket.live r = QueueTicket.live v := hlasts
    rw [hv] at h
    simp only [Option.bind_some, QueueTicket.standing, ite_eq_right_iff, reduceCtorEq, imp_false] at h
    rw [hr]
    simp only [Option.bind_some, QueueTicket.standing, hlive, h]
    rfl

/-- **Where a verb stands**: thread `t` has committed nothing that writes, and has these rows in flight. -/
structure Standing (t : Tid) (R : Work FittingRoom) (A : Work FittingRoomAssignment) (K : Work QueueTicket)
    (e : Engine schema) : Prop where
  blank : ∀ d ∈ e.own t, d.writes = fun _ _ => none
  rooms : e.AtWork t Table.rooms R
  assignments : e.AtWork t Table.assignments A
  tickets : e.AtWork t Table.tickets K

theorem Standing.evolves (h : Standing t R A K e) (hev : e.Evolves lasting.shared t e') : Standing t R A K e' :=
  ⟨by rw [hev.since.own]; exact h.blank, h.rooms.evolves hev, h.assignments.evolves hev, h.tickets.evolves hev⟩

theorem Standing.congr (h : Standing t R A K e) (hl : e'.log = e.log) (hc : e'.committed = e.committed)
    (hr : e'.pending t Table.rooms = e.pending t Table.rooms)
    (ha : e'.pending t Table.assignments = e.pending t Table.assignments)
    (hk : e'.pending t Table.tickets = e.pending t Table.tickets) : Standing t R A K e' :=
  ⟨by rw [Engine.own, hl]; exact h.blank, h.rooms.congr hc hr, h.assignments.congr hc ha, h.tickets.congr hc hk⟩

theorem Standing.writeRoom (h : Standing t none A K e) :
    Standing t (some (i, e.committed Table.rooms i, r)) A K (e.write t Table.rooms i r) :=
  ⟨h.blank, h.rooms.write, h.assignments.beside nofun, h.tickets.beside nofun⟩

theorem Standing.writeRoomAgain {v : Option FittingRoom} {r' : FittingRoom} (h : Standing t (some (i, v, r')) A K e) :
    Standing t (some (i, v, r)) A K (e.write t Table.rooms i r) :=
  ⟨h.blank, h.rooms.rewrite, h.assignments.beside nofun, h.tickets.beside nofun⟩

theorem Standing.writeAssignment (h : Standing t R none K e) :
    Standing t R (some (i, e.committed Table.assignments i, x)) K (e.write t Table.assignments i x) :=
  ⟨h.blank, h.rooms.beside nofun, h.assignments.write, h.tickets.beside nofun⟩

theorem Standing.writeTicket {q : QueueTicket} (h : Standing t R A none e) :
    Standing t R A (some (i, e.committed Table.tickets i, q)) (e.write t Table.tickets i q) :=
  ⟨h.blank, h.rooms.beside nofun, h.assignments.beside nofun, h.tickets.write⟩

def planned (R : Work FittingRoom) (A : Work FittingRoomAssignment) (K : Work QueueTicket) (p : Plan) : Plan where
  closed := match R with
    | none => p.closed
    | some (ρ, _, r) => Function.update p.closed ρ (!r.live)
  seated := match A with
    | none => p.seated
    | some (a, _, x) => Function.update p.seated a x.seat
  ticket := match K with
    | none => p.ticket
    | some (i, _, q) => Function.update p.ticket i q.standing

theorem Standing.planned (h : Standing t R A K e) : planOf (e.view t) = planned R A K (planOf e.committed) := by
  simp only [planOf, Floor.planned, Plan.mk.injEq, h.rooms.view, h.assignments.view, h.tickets.view]
  refine ⟨?_, ?_, ?_⟩
  · rcases R with _ | ⟨ρ, v, r⟩
    · rfl
    · funext ρ'
      by_cases hρ : ρ' = ρ <;> simp [Work.overlay, hρ]
  · rcases A with _ | ⟨a, v, x⟩
    · rfl
    · funext a'
      by_cases ha : a' = a <;> simp [Work.overlay, ha]
  · rcases K with _ | ⟨i, v, q⟩
    · rfl
    · funext i'
      by_cases hi : i' = i <;> simp [Work.overlay, hi]

theorem Standing.commit (h : Standing t R A K e) (hkept : Kept reqs e)
    (hstep : (planOf e.committed).Step (Floor.planned R A K (planOf e.committed)))
    (hheld : ∀ a v (x : FittingRoomAssignment), A = some (a, v, x) → ∀ s, x.seat = some s →
      (planOf e.committed).seated a = some s ∨ ∃ v r, R = some (s.room, v, r))
    (htaken : (reqs t).dispatching = true ∨ ∀ i v (q : QueueTicket), K = some (i, v, q) → q.status ≠ .inService) :
    Kept reqs (e.commit t) := by
  have hplan := h.planned
  refine ⟨?_, fun d hd => ?_⟩
  · rw [Engine.commit_committed, hplan]
    exact hkept.sound.step hstep
  rw [Engine.commit_log, List.mem_append, List.mem_singleton] at hd
  rcases hd with hd | rfl
  · exact hkept.deeds d hd
  refine ⟨?_, fun a s hs => ?_, fun i ⟨hbefore, hafter⟩ => ?_⟩
  · rw [Engine.entry_after, hplan]
    exact hstep
  · rw [Engine.entry_after, hplan] at hs
    rcases A with _ | ⟨b, v, x⟩
    · exact .inl hs
    · by_cases hab : a = b
      · subst hab
        rcases hheld a v x rfl s (by simpa [Floor.planned] using hs) with hbefore | ⟨v', r, rfl⟩
        · exact .inl hbefore
        · exact .inr ⟨r, h.rooms.row⟩
      · refine .inl ?_
        rw [show (Floor.planned R (some (b, v, x)) K (planOf e.committed)).seated a = (planOf e.committed).seated a from
          Function.update_of_ne hab ..] at hs
        exact hs
  · have hwaits : (planOf e.committed).ticket i = some .waiting := hbefore
    rcases htaken with htrue | hnot
    · exact htrue
    · rw [Engine.entry_after, hplan] at hafter
      rcases K with _ | ⟨j, v, q⟩
      · have hserves : (planOf e.committed).ticket i = some .inService := hafter
        rw [hwaits] at hserves
        cases hserves
      · by_cases hij : i = j
        · subst hij
          have hq : q.standing = some .inService := by simpa [Floor.planned] using hafter
          unfold QueueTicket.standing at hq
          split at hq
          · exact absurd (Option.some.inj hq) (hnot i v q rfl)
          · cases hq
        · have hserves : (planOf e.committed).ticket i = some .inService := by simpa [Floor.planned, hij] using hafter
          rw [hwaits] at hserves
          cases hserves

theorem Standing.closed_same {u : FittingRoom} (h : Standing t (some (ρ, some u, r)) A K e) (hlive : r.live = u.live) :
    Function.update (planOf e.committed).closed ρ (!r.live) = (planOf e.committed).closed := by
  have hclosed : (planOf e.committed).closed ρ = !r.live := by simp [planOf, h.rooms.found ρ _ r rfl, hlive]
  rw [← hclosed, Function.update_eq_self]

theorem Standing.room_open {u : FittingRoom} (h : Standing t (some (ρ, some u, r)) A K e) (hlive : u.live = true) :
    (planOf e.committed).closed ρ = false := by
  simp [planOf, h.rooms.found ρ _ r rfl, hlive]

theorem Standing.seated {a : Nat} {v : Option FittingRoomAssignment} (h : Standing t R (some (a, v, x)) K e) :
    (planOf e.committed).seated a = v.bind FittingRoomAssignment.seat := by
  simp [planOf, h.assignments.found a v x rfl]

theorem Standing.ticket {v : Option QueueTicket} {q : QueueTicket} (h : Standing t R A (some (i, v, q)) e) :
    (planOf e.committed).ticket i = v.bind QueueTicket.standing := by
  simp [planOf, h.tickets.found i v q rfl]

theorem Standing.commit_idle (h : Standing t R none none e) (hkept : Kept reqs e)
    (hroom : ∀ ρ v r, R = some (ρ, v, r) → ∃ u : FittingRoom, v = some u ∧ r.live = u.live) :
    Kept reqs (e.commit t) := by
  refine h.commit hkept ?_ (fun a v x hA => by cases hA) (.inr fun i v q hK => by cases hK)
  have hsame : Floor.planned R none none (planOf e.committed) = planOf e.committed := by
    rcases R with _ | ⟨ρ, v, r⟩
    · rfl
    · obtain ⟨u, rfl, hlive⟩ := hroom ρ v r rfl
      simp only [Floor.planned, h.closed_same hlive]
  rw [hsame]
  exact .idle

/-! ## Stretches -/

def plain : List Kind := [.note]

theorem Standing.step {o : Op schema outside} {i : Input} {x : o.Res} (h : Standing t R A K w.db) (ho : Among plain o)
    (he : w.exec t o i = some (x, w')) : Standing t R A K w'.db := by
  have hin : o.Inside := by
    cases o with
    | now | ask => trivial
    | sql o =>
      cases o with
      | commit | abort => exact absurd (ho .session rfl) (by decide)
      | begin | read | update | insert | lock => trivial
  have hlog := World.exec_log (fun hc => by subst hc; exact hin) he
  have hkeeps : ∀ T : Table, (∀ j g, kind (.sql (.update T j g)) ≠ none ∧ kind (.sql (.update T j g)) ≠ some .note) →
      (∀ r, kind (.sql (.insert T r)) ≠ none ∧ kind (.sql (.insert T r)) ≠ some .note) →
      w'.db.pending t T = w.db.pending t T := by
    refine fun T hu hi => World.exec_pending hin (fun j g hc => ?_) (fun r hc => ?_) he
    · subst hc
      obtain ⟨k, hk⟩ := Option.ne_none_iff_exists'.1 (hu j g).1
      have hnote := ho k hk
      simp only [plain, List.mem_singleton] at hnote
      exact (hu j g).2 (hnote ▸ hk)
    · subst hc
      obtain ⟨k, hk⟩ := Option.ne_none_iff_exists'.1 (hi r).1
      have hnote := ho k hk
      simp only [plain, List.mem_singleton] at hnote
      exact (hi r).2 (hnote ▸ hk)
  exact h.congr hlog.1 hlog.2 (hkeeps .rooms (fun _ _ => by simp [kind]) fun _ => by simp [kind])
    (hkeeps .assignments (fun _ _ => by simp [kind]) fun _ => by simp [kind])
    (hkeeps .tickets (fun _ _ => by simp [kind]) fun _ => by simp [kind])

section Stretches

variable {α β : Type} {Q : Except Err β → World schema outside → Prop}

variable {p : Prg α}

/-- **A stretch that leaves the plan alone**, with what else is known of the committed rows. -/
theorem plain_also {k : α → Prg β} (Φ : Engine schema → Prop)
    (hevolve : ∀ e e', Standing t R A K e → e.Evolves lasting.shared t e' → e'.Lawful lasting.shared →
      Kept reqs e' → Φ e → Φ e') (hsame : ∀ e e' : Engine schema, e'.committed = e.committed → Φ e → Φ e')
    (hp : Only (Among plain) p) (h : Standing t R A K w.db) (hΦ : Φ w.db)
    (herr : ∀ e w', Standing t R A K w'.db → Q (.error e) w')
    (hk : ∀ a w', Standing t R A K w'.db → Φ w'.db → (seating reqs).Ensures t (k a) Q w') :
    (seating reqs).Ensures t (p >>= k) Q w := by
  refine ensures_bind (ensures_mono (fun x w' hx => ?_) (ensures_of_footprint
    (fun _ w => Standing t R A K w.db ∧ Φ w.db)
    (fun _ _ _ hev hL hI h => ⟨h.1.evolves hev.db, hevolve _ _ h.1 hev.db hL hI h.2⟩)
    (fun l o w i r w' ho hL hI hq he hL' hA => ?_) (hp false) ⟨h, hΦ⟩))
  · obtain ⟨-, -, hx⟩ := hx
    cases x with
    | ok a => exact hk a w' hx.1 hx.2
    | error e => exact herr e w' hx.1
  · have hcommit : o ≠ .sql .commit := by
      rintro rfl
      exact absurd (ho .session rfl) (by decide)
    exact ⟨seating_historic.exec hcommit (fun _ _ => rfl) he hI, hq.1.step ho he,
      hsame _ _ (World.exec_log hcommit he).2 hq.2⟩

theorem plain_bind {k : α → Prg β} (hp : Only (Among plain) p) (h : Standing t R A K w.db)
    (herr : ∀ e w', Standing t R A K w'.db → Q (.error e) w')
    (hk : ∀ a w', Standing t R A K w'.db → (seating reqs).Ensures t (k a) Q w') :
    (seating reqs).Ensures t (p >>= k) Q w :=
  plain_also (fun _ => True) (fun _ _ _ _ _ _ _ => trivial) (fun _ _ _ _ => trivial) hp h trivial herr
    fun a w' h' _ => hk a w' h'

theorem plain_last {p : Prg β} (hp : Only (Among plain) p) (h : Standing t R A K w.db)
    (hQ : ∀ x w', Standing t R A K w'.db → Q x w') : (seating reqs).Ensures t p Q w :=
  ensures_last (plain_bind hp h (fun _ w' h' => hQ _ w' h') fun _ w' h' => hQ _ w' h')

theorem ensures_unlessRefused {C : Contract lasting.shared outside Err} {k : Option α → Prg β}
    (h : C.Ensures t p (fun x w' =>
      match x with
      | .ok a => C.Ensures t (k (some a)) Q w'
      | .error .integrity => C.Ensures t (k none) Q w'
      | .error e => Q (.error e) w') w) : C.Ensures t (unlessRefused p >>= k) Q w := by
  refine ensures_first (ensures_bind ?_)
  rw [Ensures, Prog.wp_attempt]
  refine ensures_mono (fun x w' hx => ?_) h
  cases x with
  | ok a => exact hx
  | error e => cases e <;> exact hx

end Stretches

/-- Thread `t` has committed nothing that writes, and has nothing in flight. -/
structure Quiet (t : Tid) (e : Engine schema) : Prop where
  blank : ∀ d ∈ e.own t, d.writes = fun _ _ => none
  pending : e.pending t = fun _ _ => none

theorem Quiet.standing (h : Quiet t e) : Standing t none none none e :=
  ⟨h.blank, Engine.atWork_none (by rw [h.pending]), Engine.atWork_none (by rw [h.pending]),
    Engine.atWork_none (by rw [h.pending])⟩

theorem Quiet.evolves (h : Quiet t e) (hev : e.Evolves lasting.shared t e') : Quiet t e' :=
  ⟨by rw [hev.since.own]; exact h.blank, by rw [hev.pending]; exact h.pending⟩

theorem Standing.released (h : Standing t R A K e) : Quiet t (e.release t) :=
  ⟨by simpa using h.blank, Engine.release_pending_self⟩

theorem Standing.closes {α β : Type} {k : α → Prg β} {Q : Except Err β → World schema outside → Prop} {x : Err}
    (h : Standing t R A K w.db) (hQ : ∀ w', Quiet t w'.db → Q (.error x) w') :
    Closes (seating reqs) t k Q (.error x) w :=
  fun _ hev _ => hQ _ (h.evolves hev.db).released

end Floor

import Boutique.Carried
/-!
# AfterRelease — a dress carried into a fitting that is over

The dress routes look whether the fitting is still on and then write, and hold nothing in between.  A write is on a
fitting that is still on just when no release has committed since the look; one that slips in between is answered as if
it had not.
-/
namespace Fitting

open Txn Session Contract

variable {rounds : Nat} {reqs : Tid → Request} {w w' : World schema outside} {t : Tid} {e e' : Engine schema}

/-! ## The look -/

/-- **Thread `t` last looked when the fitting was on.** -/
structure Looked (t : Tid) (assignmentId : Nat) (e : Engine schema) : Prop where
  le : e.seen t ≤ e.log.length
  active : ∃ v : FittingRoomAssignment, e.version (e.seen t) .assignments assignmentId = some v ∧ v.active = true

variable {a b : Nat} {o : Op schema outside} {i : Input} {x : o.Res}

theorem Looked.evolves (h : Looked t a e) (hev : e.Evolves lasting.shared t e') : Looked t a e' := by
  refine ⟨by rw [hev.seen]; exact h.le.trans hev.log_le, ?_⟩
  rw [hev.seen, hev.version _ h.le]
  exact h.active

theorem Looked.congr (h : Looked t a e) (hl : e'.log = e.log) (hc : e'.committed = e.committed)
    (hs : e'.seen t = e.seen t) : Looked t a e' := by
  refine ⟨by rw [hs, hl]; exact h.le, ?_⟩
  rw [hs, Engine.version_congr hl hc]
  exact h.active

def Writes (e e' : Engine schema) (t : Tid) (r : FittingAssignmentDress) : Prop :=
  ∃ b, e'.pending t .bindings b = some r ∧ e.pending t .bindings b ≠ some r

def Heedful : Guarantee schema outside := fun _ w w' => ∀ t r, Writes w.db w'.db t r → Looked t r.assignmentId w.db

structure Bare (o : Op schema outside) : Prop where
  update : ∀ b g, o ≠ .sql (.update .bindings b g)
  insert : ∀ r, o ≠ .sql (.insert .bindings r)

theorem Bare.heedful (ho : Bare o) (he : w.exec t o i = some (x, w')) : Heedful t w w' := by
  rintro u r ⟨b, hr, hnot⟩
  by_cases hu : u = t
  · subst hu
    rcases World.exec_wrote he hr with hp | ⟨g, v, rfl, -, -⟩ | ⟨r0, rfl, -, -⟩
    · exact absurd hp hnot
    · exact absurd rfl (ho.update b g)
    · exact absurd rfl (ho.insert r0)
  · rw [World.exec_others hu he] at hr
    exact absurd hr hnot

inductive About (a : Nat) : Op schema outside → Prop
  | ask (q : Ask) : About a (.ask q)
  | insert (r : FittingAssignmentDress) (h : r.assignmentId = a) : About a (.sql (.insert .bindings r))
  | touch (b dressId : Nat) : About a (.sql (.update .bindings b (.touch a dressId)))
  | remove (b actorId : Nat) (at_ : Int) : About a (.sql (.update .bindings b (.remove a actorId at_)))

theorem About.heedful (ho : About a o) (h : Looked t a w.db) (he : w.exec t o i = some (x, w')) : Heedful t w w' := by
  rintro u r ⟨b, hr, hnot⟩
  by_cases hu : u = t
  · subst hu
    have hassignment : r.assignmentId = a := by
      rcases World.exec_wrote he hr with hp | ⟨g, v, rfl, -, hg⟩ | ⟨r0, rfl, -, rfl⟩
      · exact absurd hp hnot
      · cases ho with
        | touch b dressId =>
          have hg : BindingChange.apply v (.touch a dressId) = some r := hg
          simp only [BindingChange.apply] at hg
          split at hg
          · rename_i hc
            cases hg
            exact (names_iff.1 hc.2).1
          · cases hg
        | remove b actorId at_ =>
          have hg : BindingChange.apply v (.remove a actorId at_) = some r := hg
          simp only [BindingChange.apply] at hg
          split at hg
          · rename_i hc
            cases hg
            exact hc.1
          · cases hg
      · cases ho with
        | insert r h => exact h
    rw [hassignment]
    exact h
  · rw [World.exec_others hu he] at hr
    exact absurd hr hnot

theorem About.looked (ho : About a o) (h : Looked t a w.db) (he : w.exec t o i = some (x, w')) : Looked t a w'.db := by
  have hin : o.Inside := by cases ho <;> trivial
  have hread : ∀ q, o ≠ .sql (.read q) := by
    rintro q rfl
    cases ho
  have hlog := World.exec_log (fun hc => by subst hc; exact hin) he
  exact h.congr hlog.1 hlog.2 (World.exec_seen hin hread he)

/-! ## The requests -/

section Requests

variable {α : Type}

abbrev Heeding (t : Tid) (p : Prg α) (w : World schema outside) : Prop :=
  Watched lasting.shared Heedful t p (fun _ _ => True) w

theorem aside_heeding {p : Prg α} (hp : Only Aside p) : Heeding t p w :=
  Watched.quiet (fun _ => True) (fun _ _ _ _ _ ho _ _ he => ⟨Bare.heedful ⟨fun b g hc => ho.update _ b g hc rfl,
    fun r hc => ho.insert _ r hc rfl⟩ he, trivial⟩) (fun _ _ _ _ => trivial) (hp false) trivial

theorem session_heeding {body : Int → Prg α} (h : ∀ w1 n, w.Evolves lasting.shared t w1 →
      Heeding t (body n) ⟨{ w1.db with started := Function.update w1.db.started t n }, w1.out⟩) :
    Heeding t (tenantSession body) w :=
  Watched.tenantSession (fun o i x w1 w2 hu hi he => Bare.heedful ⟨fun b g hc => hu .bindings b g (by cases hc; rfl),
    fun r hc => hi .bindings r (by cases hc; rfl)⟩ he) h

theorem now_heeding {k : Int → Prg α} (h : ∀ w1 n, w.Evolves lasting.shared t w1 → Heeding t (k n) w1) :
    Heeding t (Session.now >>= k) w := by
  intro w1 hev _ i n w2 he
  have hbare : Heedful t w1 w2 := Bare.heedful (o := .now) ⟨fun _ _ hc => (by cases hc), fun _ hc => (by cases hc)⟩ he
  cases he
  exact ⟨hbare, h w1 _ hev⟩

theorem activeById_heeding {x : Err} {k : FittingRoomAssignment → Prg α} (hidle : w.db.Idle t)
    (hk : ∀ assignment w', Looked t a w'.db → Heeding t (k assignment) w') :
    Heeding t (Assignments.activeById a >>= fun found => orRaise found x >>= k) w := by
  intro w1 hev _ i s w2 he
  have hbare : Heedful t w1 w2 := Bare.heedful (o := .sql (.read .activeById))
    ⟨fun _ _ hc => (by cases hc), fun _ hc => (by cases hc)⟩ he
  cases he
  refine ⟨hbare, Watched.orRaise trivial fun assignment hfound => hk _ _ ⟨?_, assignment, ?_⟩⟩
  · exact (Engine.look_seen (e := w1.db) (t := t)).le
  · have hview : w1.db.view t = w1.db.committed := (hev.db.idle hidle).view
    obtain ⟨hrow, hactive⟩ := Option.filter_eq_some_iff.1 hfound
    refine ⟨?_, hactive⟩
    rw [Engine.look_seen]
    show w1.db.version w1.db.log.length .assignments a = some assignment
    rw [Engine.version_length, ← hview]
    exact hrow

theorem about_heeding {β : Type} {p : Prg β} {k : β → Prg α} (hp : Only (About a) p) (h : Looked t a w.db)
    (hk : ∀ b w', Looked t a w'.db → Heeding t (k b) w') : Heeding t (p >>= k) w := by
  refine Watched.bind (Watched.weaken (fun x w' hx => ?_) (Watched.quiet (fun w => Looked t a w.db)
    (fun o i x w1 w2 ho _ hΦ he => ⟨ho.heedful hΦ he, ho.looked hΦ he⟩) (fun _ _ hev h => h.evolves hev.db) (hp false) h))
  cases x with
  | ok b => exact hk b w' hx
  | error e => trivial

theorem about_add {dressId : Nat} {name : String} {size : Option String} :
    ∀ rounds, Only (About a) (DressBindings.add a dressId name size rounds)
  | 0 => only_raise _
  | rounds + 1 => by
    refine only_bind (only_attempt (only_insert (.insert _ rfl) _)) fun attempt => ?_
    cases attempt with
    | ok row => exact only_ret _
    | error e =>
      refine only_bind (only_ask (.ask _)) fun b => only_bind (only_update (.touch b dressId) _) fun touched => ?_
      cases touched with
      | some row => exact only_ret _
      | none => exact about_add rounds

theorem about_remove {actorId : Nat} {at_ : Int} : Only (About a) (DressBindings.remove a b actorId at_) :=
  only_bind (only_update (.remove b actorId at_) _) fun _ => only_ret _

theorem request_heeding (request : Request) (hidle : w.db.Idle t) : Heeding t (request.code rounds) w := by
  cases request with
  | addDress assignmentId dressId size =>
    refine session_heeding fun w1 n hev => activeById_heeding ⟨(hev.db.idle hidle).pending⟩ fun assignment w2 h2 =>
      about_heeding (only_ask (.ask _)) h2 fun dress w3 h3 => Watched.orRaise trivial fun name _ =>
      about_heeding (about_add _) h3 fun _ w4 _ => aside_heeding (aside_roomRead _)
  | removeDress assignmentId b actor =>
    refine now_heeding fun w0 at_ hev0 => session_heeding fun w1 n hev =>
      activeById_heeding ⟨(hev.db.idle (hev0.db.idle hidle)).pending⟩ fun assignment w2 h2 =>
      about_heeding about_remove h2 fun removed w3 _ => aside_heeding (only_bind (only_raiseIf _ _) fun _ =>
        aside_roomRead _)
  | release assignmentId actor =>
    exact now_heeding fun w0 at_ _ => session_heeding fun w1 n _ => aside_heeding (aside_releaseAt _ _ _)

end Requests

/-! ## Whole runs -/

def Open (e : Engine schema) (assignmentId : Nat) : Prop :=
  ∃ v : FittingRoomAssignment, e.committed .assignments assignmentId = some v ∧ v.releasedAt = none

/-- **No commit since thread `t` last looked has released the fitting.** -/
def StillOn (e : Engine schema) (t : Tid) (assignmentId : Nat) : Prop :=
  Engine.Untouched (S := schema) (T := .assignments) FittingRoomAssignment.releasedAt e (e.seen t) assignmentId

theorem Looked.open_iff (h : Looked t a e) (hL : e.Lawful lasting.shared) : Open e a ↔ StillOn e t a := by
  obtain ⟨v, hv, hactive⟩ := h.active
  have hrow := hL.version_becomes (Cast.plays_common _) h.le (Nat.le_refl _) Table.assignments a
  rw [hv, Engine.version_length] at hrow
  obtain ⟨u, hu, hbecomes⟩ := hrow.some_left
  have hon : v.releasedAt = none := by
    simp only [FittingRoomAssignment.active, decide_eq_true_eq] at hactive
    exact hactive.1
  constructor
  · rintro ⟨u', hu', hopen⟩ n d hn hd x r hx hr
    cases hu.symm.trans hu'
    -- a release instant, once written, is there still
    have hlater : ∀ m (y : FittingRoomAssignment), m ≤ e.log.length → e.version m Table.assignments a = some y →
        y.releasedAt = none := by
      intro m y hm hy
      have hlast := hL.version_becomes (Cast.plays_common _) hm (Nat.le_refl _) Table.assignments a
      rw [hy, Engine.version_length, hu] at hlast
      have hkept : y.releasedAt ≠ none → FittingRoomAssignment.releasedAt u = y.releasedAt := hlast
      by_contra hy'
      exact hy' ((hkept hy').symm.trans hopen)
    have hlt := (List.getElem?_eq_some_iff.1 hd).1
    have hbefore : e.version n = d.before := by simp [Engine.version, hd]
    rw [hlater n x hlt.le (by rw [hbefore]; exact hx), hlater (n + 1) r hlt (by
      rw [hL.linked n d hd, Commit.after, Rows.over_some hr])]
  · intro hstill
    refine ⟨u, hu, ?_⟩
    exact (hL.kept_since h.le hv hu hstill).trans hon

section Runs

variable {rows : Rows schema} {next : Nat} {clock : Int} {c c' : Conf (machine schema outside Err) RoomRead}

/-- **What every run keeps** of what the fittings were given. -/
structure Kept (reqs : Tid → Request) (rows : Rows schema) (c : Conf (machine schema outside Err) RoomRead) : Prop where
  one : ∀ m b b' a x (r r' : FittingAssignmentDress), c.state.db.version m .bindings b = some r →
    c.state.db.version m .bindings b' = some r' → r.live = true → r'.live = true → r.names a x = true →
    r'.names a x = true → b = b'
  deeds : ∀ d ∈ c.state.db.log, (reqs d.by_).Does d
  folds : held c.state.db.committed = c.state.db.log.foldl (fun had d => (reqs d.by_).deed d had) (held rows)
  answered : ∀ t room, c.threads t = some (.ret room) → ∃ d, c.state.db.own t = [d]
  refused : ∀ t x, c.threads t = some (.raise x) → c.state.db.own t = []
  stays : ∀ m n b (v : FittingAssignmentDress), m ≤ n → n ≤ c.state.db.log.length →
    c.state.db.version m .bindings b = some v →
    ∃ r : FittingAssignmentDress, c.state.db.version n .bindings b = some r ∧ v.Stays r
  taken : ∀ m n b (v r : FittingAssignmentDress), m ≤ n → n ≤ c.state.db.log.length →
    c.state.db.version m .bindings b = some v → c.state.db.version n .bindings b = some r → v.live = true →
    r.live = false → ∃ k d a, ∃ actor : StaffContext, m ≤ k ∧ k < n ∧ c.state.db.log[k]? = some d ∧
      reqs d.by_ = .removeDress a b actor ∧ Removes a b actor.id d
  once : ∀ t u a a' b (actor actor' : StaffContext) room room', reqs t = .removeDress a b actor →
    reqs u = .removeDress a' b actor' → c.threads t = some (.ret room) → c.threads u = some (.ret room') → t = u

theorem taken_out (hL : e.Lawful lasting.shared) (hdeeds : ∀ d ∈ e.log, (reqs d.by_).Does d) {m n : Nat}
    {v r : FittingAssignmentDress} (hmn : m ≤ n) (hn : n ≤ e.log.length) (hv : e.version m Table.bindings b = some v)
    (hr : e.version n Table.bindings b = some r) (hlive : v.live = true) (hgone : r.live = false) :
    ∃ k d a, ∃ actor : StaffContext, m ≤ k ∧ k < n ∧ e.log[k]? = some d ∧ reqs d.by_ = .removeDress a b actor ∧
      Removes a b actor.id d := by
  obtain ⟨k, d, hk, hkn, hd, hwas, q, hq, hqgone⟩ := hL.version_crossing (T := Table.bindings) (i := b)
    (P := fun x => ∃ q : FittingAssignmentDress, x = some q ∧ q.live = false) hmn hn
    (by
      rintro ⟨q, hq, hqgone⟩
      cases hv.symm.trans hq
      rw [hlive] at hqgone
      cases hqgone)
    ⟨r, hr, hgone⟩
  have hdoes := hdeeds d (List.mem_of_getElem? hd)
  have hwrote : d.writes Table.bindings b ≠ none := by
    intro hnone
    rw [Commit.after, Rows.over_none hnone] at hq
    exact hwas ⟨q, hq, hqgone⟩
  cases hreq : reqs d.by_ with
  | addDress assignmentId dressId size =>
    rw [hreq] at hdoes
    obtain ⟨b', x, hw, hxlive, -, -, hothers⟩ := hdoes
    by_cases hb : b = b'
    · subst hb
      rw [Commit.after, Rows.over_some hw] at hq
      cases hq
      rw [hxlive] at hqgone
      cases hqgone
    · exact absurd (hothers b hb) hwrote
  | removeDress assignmentId b' actor =>
    rw [hreq] at hdoes
    have hb : b = b' := by
      by_contra hb
      obtain ⟨-, -, -, -, -, -, hothers⟩ := hdoes
      exact hwrote (hothers b hb)
    subst hb
    exact ⟨k, d, assignmentId, actor, hk, hkn, hd, hreq, hdoes⟩
  | release assignmentId actor =>
    rw [hreq] at hdoes
    exact absurd (hdoes b) hwrote

theorem answered_once (hL : e.Lawful lasting.shared) (hdeeds : ∀ d ∈ e.log, (reqs d.by_).Does d) {t u : Tid}
    {a' : Nat} {actor actor' : StaffContext} {d d' : Commit schema} (ht : reqs t = .removeDress a b actor)
    (hu : reqs u = .removeDress a' b actor') (hd : e.own t = [d]) (hd' : e.own u = [d']) : t = u := by
  have hmine : ∀ {s : Tid} {x : Commit schema}, e.own s = [x] → x ∈ e.log ∧ x.by_ = s := by
    intro s x hx
    have hmem : x ∈ e.own s := by rw [hx]; exact List.mem_singleton_self x
    simpa [Engine.own] using hmem
  obtain ⟨hmem, hby⟩ := hmine hd
  obtain ⟨hmem', hby'⟩ := hmine hd'
  have hdoes := hdeeds d hmem
  have hdoes' := hdeeds d' hmem'
  rw [hby, ht] at hdoes
  rw [hby', hu] at hdoes'
  obtain ⟨m, hm⟩ := List.mem_iff_getElem?.1 hmem
  obtain ⟨n, hn⟩ := List.mem_iff_getElem?.1 hmem'
  have hlt := removed_once hL hm hn hdoes hdoes'
  have hgt := removed_once hL hn hm hdoes' hdoes
  have hmn : m = n := by omega
  subst hmn
  cases hm.symm.trans hn
  exact hby.symm.trans hby'

theorem kept_runs (h : Shelved rows next) (hr : Conf.Reaches (serving rounds reqs rows next clock) c) :
    Kept reqs rows c := by
  have hL := ((serving_obeyed h).steps hr).1.lawful
  obtain ⟨hdeeds, hanswered, hrefused⟩ := deeds_runs h hr
  refine ⟨fun m b b' a x r r' hr hr' => one_live (hL.version_consistent m) hr hr', hdeeds, held_folds h hr, hanswered,
    hrefused, fun m n b v hmn hn hv => ?_, fun m n b v r => taken_out hL hdeeds, fun t u a a' b actor actor' room room' ht hu
      hroom hroom' => ?_⟩
  · have hrow := hL.version_becomes (Cast.plays_common _) hmn hn Table.bindings b
    rw [hv] at hrow
    exact hrow.some_left
  · obtain ⟨d, hd⟩ := hanswered t room hroom
    obtain ⟨d', hd'⟩ := hanswered u room' hroom'
    exact answered_once hL hdeeds ht hu hd hd'

/-- **What a fitting was given**: in every state of every run, what the fittings hold is what the adds and the removals
that succeeded made of it in the order they committed, one live binding to a dress; a binding changes once, when it is
taken out, and one request is told so; and a step that writes a binding is on a fitting that is not over just when no
release of it has committed since the request looked. -/
theorem fittings_kept (h : Shelved rows next) (hr : Conf.Reaches (serving rounds reqs rows next clock) c) :
    Kept reqs rows c ∧ ∀ c' t r, Conf.Step (fun _ _ _ _ _ => True) c c' → Writes c.state.db c'.state.db t r →
      (Open c.state.db r.assignmentId ↔ StillOn c.state.db t r.assignmentId) := by
  refine ⟨kept_runs h hr, fun c' t r hstep hwrites => ?_⟩
  have hbegun : Cast.Vigilant lasting.shared Heedful (serving rounds reqs rows next clock) := by
    refine ⟨serving_obeyed h, fun t p hp => ?_⟩
    cases hp
    exact request_heeding (reqs t) ⟨rfl⟩
  have hvigilant := hbegun.steps hr
  refine Looked.open_iff ?_ hvigilant.obeyed.lawful
  obtain ⟨b, hwritten, hnot⟩ := hwrites
  rcases (hvigilant.step hstep).2 with ⟨u, hheedful⟩ | ⟨u, hcrash⟩ | ⟨d, htick⟩
  · exact hheedful t r ⟨b, hwritten, hnot⟩
  · rw [hcrash] at hwritten
    exact absurd (Engine.release_pending_some hwritten).2 hnot
  · rw [htick] at hwritten
    exact absurd hwritten hnot

end Runs

/-! ## A release between the look and the write -/

def oneFitting : (T : Table) → List (Row T)
  | .assignments => [(⟨0, 0, none, 7, 1, none, none⟩ : FittingRoomAssignment)]
  | .bindings | .tickets | .auditLog => []

theorem oneFitting_shelved : Shelved (listed (S := schema) oneFitting) 1 :=
  shelved_of_stocked [.assignments, .bindings, .tickets, .auditLog] (fun T => by cases T <;> decide) (by decide)

/-- A dress is carried in, the fitting is released, and the dress is taken out. -/
def carriedThenReleased : Tid → Request := fun t =>
  if t = 0 then .addDress 0 5 none else if t = 1 then .release 0 ⟨1, .seamstress⟩ else .removeDress 0 1 ⟨1, .seamstress⟩

def calls (t : Tid) (n : Nat) : List (Action (machine schema outside Err)) :=
  List.replicate n (.call t ⟨some "Ruby", 0⟩)

/-- An add looks, the release commits, and the add goes on to its insert and its answer. -/
theorem carried_after_release : ∃ c c' c'' b r,
    Conf.Reaches (serving 3 carriedThenReleased (listed (S := schema) oneFitting) 1 0) c ∧
    Conf.Step (fun _ _ _ _ _ => True) c c' ∧ Conf.Reaches c' c'' ∧ Writes c.state.db c'.state.db 0 r ∧
    ¬Open c.state.db r.assignmentId ∧ (∃ room, c''.threads 0 = some (.ret room)) ∧
    c''.state.db.committed .bindings b = some r ∧ r.live = true := by
  obtain ⟨c, c', c'', hc, hstep, hc'', hP⟩ := Conf.reached_of_turn (A := fun _ _ _ _ _ => True) (B := fun _ _ _ _ _ => True)
    (serving 3 carriedThenReleased (listed (S := schema) oneFitting) 1 0) (calls 0 3 ++ calls 1 9) (calls 0 3)
    (.call 0 ⟨some "Ruby", 0⟩)
    (fun c c' c'' => decide ((c.state.db.pending 0 .bindings 2 : Option FittingAssignmentDress) = none ∧
      (c'.state.db.pending 0 .bindings 2 : Option FittingAssignmentDress) = some ⟨2, 0, none, 0, 5, "Ruby", none, none⟩ ∧
      (c.state.db.committed .assignments 0 : Option FittingRoomAssignment).map (·.releasedAt) = some (some 0) ∧
      c''.returned 0 = true ∧
      (c''.state.db.committed .bindings 2 : Option FittingAssignmentDress) =
        some ⟨2, 0, none, 0, 5, "Ruby", none, none⟩)) (by decide)
  obtain ⟨hnone, hwritten, hreleased, hreturned, hlast⟩ := of_decide_eq_true hP
  refine ⟨c, c', c'', 2, _, hc, hstep, hc'', ⟨2, hwritten, fun h => ?_⟩, ?_, Conf.returned_iff.1 hreturned, hlast, rfl⟩
  · cases hnone.symm.trans h
  · rintro ⟨v, hv, hopen⟩
    rw [show (c.state.db.committed .assignments 0 : Option FittingRoomAssignment) = some v from hv, Option.map_some,
      hopen] at hreleased
    cases hreleased

/-- The three requests one after the other. -/
theorem fittings_kept_served : ∃ c, Conf.Reaches (serving 3 carriedThenReleased (listed (S := schema) oneFitting) 1 0) c ∧
    c.state.db.log.length = 3 ∧ Kept carriedThenReleased (listed (S := schema) oneFitting) c := by
  obtain ⟨c, hc, hP⟩ := Conf.reached_freely (serving 3 carriedThenReleased (listed (S := schema) oneFitting) 1 0)
    (calls 0 8 ++ calls 2 8 ++ calls 1 9) (fun c => decide (c.state.db.log.length = 3)) (by decide)
  exact ⟨c, hc, of_decide_eq_true hP, (fittings_kept oneFitting_shelved hc).1⟩

end Fitting

import Boutique.Errands
import Boutique.Stock
/-!
# Handover — what a drain hands to the provider

A drain holds the rows it claimed until its transaction ends, and marks what it sends in that same transaction.  So a row
goes out twice only where the transaction that sent it first was rolled back.
-/
namespace Boutique

open Txn Contract

/-- **The earlier of two hand-overs of a row was taken back**: another thread made it, which holds the row no more and has
committed nothing about it. -/
def TakenBack (w : BWorld) (h h' : Handed) : Prop :=
  h.messageId = h'.messageId → h.by_ ≠ h'.by_ ∧ w.db.pending h.by_ .scheduledMessages h.messageId = none ∧
    ∀ c ∈ w.db.log, c.by_ = h.by_ → c.writes .scheduledMessages h.messageId = none

structure Handover (errands : Tid → Errand) (w : BWorld) : Prop where
  drains : ∀ h ∈ w.out.handed, (errands h.by_).drains = true
  marked : ∀ h ∈ w.out.handed, ∀ c ∈ w.db.log, c.by_ = h.by_ → ∀ m : ScheduledMessage,
    c.writes .scheduledMessages h.messageId = some m → m.status ≠ .pending
  apart : w.out.handed.Pairwise (TakenBack w)

variable {errands : Tid → Errand} {A : server.Assumption} {t : Tid} {w w' : BWorld}

theorem mem_handedBy {o : Outside} {h : Handed} : h ∈ o.handedBy t ↔ h ∈ o.handed ∧ h.by_ = t := by
  simp [Outside.handedBy]

theorem Handover.congr (h : Handover errands w) (ho : w'.out.handed = w.out.handed) (hl : w'.db.log = w.db.log)
    (hp : ∀ h ∈ w.out.handed, w.db.pending h.by_ .scheduledMessages h.messageId = none →
      w'.db.pending h.by_ .scheduledMessages h.messageId = none) : Handover errands w' := by
  refine ⟨fun x hx => h.drains x (ho ▸ hx), fun x hx c hc => h.marked x (ho ▸ hx) c (hl ▸ hc), ?_⟩
  rw [ho]
  refine h.apart.imp_of_mem fun {x y} hx _ hxy hid => ?_
  obtain ⟨hby, hpend, hlog⟩ := hxy hid
  exact ⟨hby, hp x hx hpend, fun c hc => hlog c (hl ▸ hc)⟩

def hands : Op schema service → Bool
  | .ask (.sendDue ..) => true
  | _ => false

variable {o : Op schema service} {m v : ScheduledMessage}

theorem handed_same {i : Input} {x : o.Res} (ho : hands o = false) (he : w.exec t o i = some (x, w')) :
    w'.out.handed = w.out.handed := by
  cases o with
  | ask q =>
    cases he
    cases q with
    | sendDue => cases ho
    | _ => rfl
  | now => rw [World.exec_out (fun q hq => by cases hq) he]
  | sql o => rw [World.exec_out (fun q hq => by cases hq) he]

/-- **Any operation but a commit or a hand-over keeps it**, where a row handed over by the thread is written only while it
holds that row. -/
theorem Handover.exec (h : Handover errands w) {i : Input} {x : o.Res} (hc : o ≠ .sql .commit) (ho : hands o = false)
    (hown : ∀ y ∈ w.out.handedBy t, (w.db.pending t .scheduledMessages y.messageId).isSome)
    (he : w.exec t o i = some (x, w')) : Handover errands w' := by
  refine h.congr (handed_same ho he) (World.exec_log hc he).1 fun y hy hp => ?_
  by_cases hby : y.by_ = t
  · have hsome := hown y (mem_handedBy.2 ⟨hy, hby⟩)
    rw [hby] at hp
    rw [hp] at hsome
    cases hsome
  · rw [World.exec_others hby he]
    exact hp

theorem Handover.commit (h : Handover errands w) (hdone : ∀ y ∈ w.out.handedBy t, ∀ m : ScheduledMessage,
    w.db.pending t .scheduledMessages y.messageId = some m → m.status ≠ .pending) :
    Handover errands ⟨w.db.commit t, w.out⟩ := by
  have hlog : ∀ c ∈ (w.db.commit t).log, c ∈ w.db.log ∨ c = w.db.entry t := by
    intro c hc
    simpa using hc
  refine ⟨h.drains, fun y hy c hc hby m hm => ?_, h.apart.imp_of_mem fun {y z} hy _ hyz hid => ?_⟩
  · rcases hlog c hc with hc | rfl
    · exact h.marked y hy c hc hby m hm
    · exact hdone y (mem_handedBy.2 ⟨hy, hby.symm⟩) m hm
  · obtain ⟨hne, hpend, hnone⟩ := hyz hid
    refine ⟨hne, ?_, fun c hc hby => ?_⟩
    · dsimp only
      by_cases ht : y.by_ = t
      · rw [ht, Engine.commit_pending_self]
      · rw [(Engine.move_commit t w.db).pending _ ht]
        exact hpend
    · rcases hlog c hc with hc | rfl
      · exact hnone c hc hby
      · have ht : t = y.by_ := hby
        rw [ht]
        exact hpend

theorem marked_later (hL : w.db.Lawful Anyone) {c : Commit schema} {i : Nat} (hc : c ∈ w.db.log)
    (hm : c.writes .scheduledMessages i = some m) (hs : m.status ≠ .pending)
    (hv : w.db.committed .scheduledMessages i = some v) : v.status ≠ .pending := by
  obtain ⟨n, hn⟩ := List.mem_iff_getElem?.1 hc
  have hlt : n < w.db.log.length := (List.getElem?_eq_some_iff.1 hn).1
  have hafter : w.db.version (n + 1) .scheduledMessages i = some m := by
    rw [hL.linked n c hn]
    exact Rows.over_some hm
  have hrow := hL.version_becomes (Cast.plays_common _) hlt (Nat.le_refl _) .scheduledMessages i
  rw [hafter, Engine.version_length, hv] at hrow
  have hbecomes : MessageBecomes m v := hrow
  exact fun hp => hs (hbecomes.status hp)

/-- **A hand-over keeps it**: of a row the thread holds, has not handed over yet, and has committed nothing before. -/
theorem Handover.hand (h : Handover errands w) (hL : w.db.Lawful Anyone) (hdrain : (errands t).drains = true)
    {i : Nat} (hown : w.db.own t = []) (hfresh : ∀ y ∈ w.out.handedBy t, y.messageId ≠ i)
    (hm : w.db.pending t .scheduledMessages i = some m)
    (hv : ∃ v : ScheduledMessage, w.db.committed .scheduledMessages i = some v ∧ v.status = .pending) {new : Handed}
    (hnew : new.by_ = t ∧ new.messageId = i) :
    Handover errands ⟨w.db, { w.out with handed := w.out.handed ++ [new] }⟩ := by
  obtain ⟨rfl, rfl⟩ := hnew
  obtain ⟨v, hv, hpending⟩ := hv
  have hmem : ∀ y ∈ w.out.handed ++ [new], y ∈ w.out.handed ∨ y = new := fun y hy => by simpa using hy
  have hnone : ∀ c ∈ w.db.log, c.by_ ≠ new.by_ := by
    intro c hc hby
    have : c ∈ w.db.own new.by_ := List.mem_filter.2 ⟨hc, decide_eq_true hby⟩
    rw [hown] at this
    cases this
  refine ⟨fun y hy => ?_, fun y hy c hc hby m' hm' => ?_, ?_⟩
  · rcases hmem y hy with hy | rfl
    · exact h.drains y hy
    · exact hdrain
  · rcases hmem y hy with hy | rfl
    · exact h.marked y hy c hc hby m' hm'
    · exact absurd hby (hnone c hc)
  · refine List.pairwise_append.2 ⟨h.apart, List.pairwise_singleton _ _, fun y hy z hz hid => ?_⟩
    cases List.mem_singleton.1 hz
    have hne : y.by_ ≠ new.by_ := fun hby => hfresh y (mem_handedBy.2 ⟨hy, hby⟩) hid
    refine ⟨hne, ?_, fun c hc hby => ?_⟩
    · rw [hid]
      exact hL.pending_of_ne (hL.owner_of_pending hm) hne
    · cases hw : c.writes .scheduledMessages y.messageId with
      | none => rfl
      | some m' =>
        have hs := h.marked y hy c hc hby m' hw
        rw [hid] at hw
        exact absurd hpending (marked_later hL hc hw hs hv)

abbrev handover (errands : Tid → Errand) (A : server.Assumption) : Contract Anyone service Err where
  Inv := Handover errands
  Assume := A
  crash_inv t w _ h := h.congr rfl rfl fun y _ hp => by
    by_cases hby : y.by_ = t
    · rw [hby]
      show (w.db.release t).pending t .scheduledMessages y.messageId = none
      rw [Engine.release_pending_self]
    · show (w.db.release t).pending y.by_ .scheduledMessages y.messageId = none
      rw [Engine.release_pending_tid hby]
      exact hp
  tick_inv _ _ _ h := h.congr rfl rfl fun _ _ hp => hp

/-! ## The other errands -/

theorem handedBy_nil (h : Handover errands w) (hdrain : (errands t).drains = false) : w.out.handedBy t = [] := by
  refine List.eq_nil_iff_forall_not_mem.2 fun y hy => ?_
  obtain ⟨hm, hby⟩ := mem_handedBy.1 hy
  have := h.drains y hm
  rw [hby, hdrain] at this
  cases this

theorem safe_aside (hdrain : (errands t).drains = false) {ρ : Type} {p : Prg ρ} {s : Bool} {P : Foot}
    (hP : ∀ l o, P l o → hands o = false) (hp : Within (Writes s P) false p) :
    (handover errands A).logic.Safe t p (fun _ _ => True) w := by
  have hF : ∀ l (o : Op schema service), Writes s P l o → hands o = false := by
    intro l o ho
    rcases ho with ho | ⟨-, ho⟩ | ho
    · cases o with
      | ask q =>
        cases q with
        | sendDue => cases ho
        | _ => rfl
      | now | sql => rfl
    · cases o with
      | ask => cases ho
      | now | sql => rfl
    · exact hP l o ho
  refine safe_of_ensures (Q := fun _ _ => True) (ensures_mono (fun _ _ _ => trivial) (ensures_of_uses
    (fun _ _ => True) (fun _ _ _ _ _ => trivial) (fun l o w1 i r w2 ho hL hI _ he _ _ => ⟨?_, trivial⟩) hp trivial))
    fun _ _ _ _ _ _ _ => trivial
  have hnil := handedBy_nil hI hdrain
  by_cases hc : o = .sql .commit
  · subst hc
    cases he
    refine Handover.commit hI fun y hy => ?_
    rw [hnil] at hy
    cases hy
  · refine Handover.exec hI hc (hF l o ho) (fun y hy => ?_) he
    rw [hnil] at hy
    cases hy

section

variable {l : Bool} {o : Op schema service} {b : Nat} {event : WebhookEvent} {G : Int → Prop} {kind : MessageKind}

theorem ReminderWrites.keepsQuiet (h : ReminderWrites b l o) : hands o = false := by
  cases h <;> rfl

theorem SendWrites.keepsQuiet (h : SendWrites kind b l o) : hands o = false := by
  cases h <;> rfl

theorem ClaimWrites.keepsQuiet (h : ClaimWrites l o) : hands o = false := by
  cases h <;> rfl

theorem OpenWrites.keepsQuiet (h : OpenWrites b l o) : hands o = false := by
  cases h <;> rfl

theorem Job.keepsQuiet {job : Job} (h : job.Writes l o) : hands o = false := by
  cases job with
  | createBooking | claim => exact ClaimWrites.keepsQuiet h
  | postBookings | claimOffer =>
    cases h with
    | claim h => exact h.keepsQuiet
    | tail h =>
      cases h with
      | open_ b h => exact h.keepsQuiet
      | send b h => exact h.keepsQuiet
  | delivery =>
    cases h with
    | settle h => cases h <;> rfl
    | effect h =>
      cases h with
      | reminder l b h => exact h.keepsQuiet
      | send l kind b h => exact h.keepsQuiet
      | _ => rfl
  | reschedule =>
    cases h with
    | reminder l h => exact h.keepsQuiet
    | _ => rfl
  | sweep | replaceWeeklyRules | addException | removeException | ownerConfirm | ownerNoShow | ownerComplete | ownerCancel
  | customerCancel | checkIn | undoCheckIn => cases h <;> rfl

theorem RelinkWrites.keepsQuiet (h : RelinkWrites l o) : hands o = false := by
  cases h with
  | send l kind b h => exact h.keepsQuiet
  | _ => rfl

theorem ErrandWrites.keepsQuiet (h : ErrandWrites l o) : hands o = false := by
  cases h with
  | job j h => exact Job.keepsQuiet h
  | relink h => exact h.keepsQuiet

end

/-! ## The drain -/

/-- **A drain on its way**: nothing committed yet, every row of its batch held, those still to do (`todo`) pending and not
handed over, and what it did hand over marked, but for the row it is at (`busy`). -/
structure Ticking (t : Tid) (w : BWorld) (busy todo : List Nat) : Prop where
  own : w.db.own t = []
  held : ∀ i ∈ busy ++ todo, ∃ m v : ScheduledMessage, w.db.pending t .scheduledMessages i = some m ∧ m.status = .pending ∧
    m.deletedAt = none ∧ w.db.committed .scheduledMessages i = some v ∧ v.status = .pending
  left : ∀ y ∈ w.out.handedBy t, y.messageId ∉ todo
  done : ∀ y ∈ w.out.handedBy t, y.messageId ∉ busy → ∃ m : ScheduledMessage,
    w.db.pending t .scheduledMessages y.messageId = some m ∧ m.status ≠ .pending

section Drain

variable {busy todo : List Nat} {i : Nat}

theorem Ticking.congr (h : Ticking t w busy todo) (hown : w'.db.own t = w.db.own t)
    (hp : w'.db.pending t .scheduledMessages = w.db.pending t .scheduledMessages)
    (hc : ∀ i m, w.db.pending t .scheduledMessages i = some m →
      w'.db.committed .scheduledMessages i = w.db.committed .scheduledMessages i)
    (ho : w'.out.handedBy t = w.out.handedBy t) : Ticking t w' busy todo := by
  refine ⟨hown.trans h.own, fun i hi => ?_, fun y hy => h.left y (ho ▸ hy), fun y hy hb => ?_⟩
  · obtain ⟨m, v, hm, hrest⟩ := h.held i hi
    rw [hp, hc i m hm]
    exact ⟨m, v, hm, hrest⟩
  · rw [hp]
    exact h.done y (ho ▸ hy) hb

theorem Ticking.evolves (h : Ticking t w busy todo) (hev : w.Evolves Anyone t w') : Ticking t w' busy todo :=
  h.congr hev.db.since.own (by rw [hev.db.pending]) (fun i m hm => hev.db.owned .scheduledMessages i m hm)
    (Prod.mk.inj hev.mine).2

theorem Ticking.holds (h : Ticking t w busy todo) (hbusy : ∀ i ∈ busy, (w.db.pending t .scheduledMessages i).isSome) :
    ∀ y ∈ w.out.handedBy t, (w.db.pending t .scheduledMessages y.messageId).isSome := by
  intro y hy
  by_cases hb : y.messageId ∈ busy
  · exact hbusy _ hb
  · obtain ⟨m, hm, -⟩ := h.done y hy hb
    rw [hm]
    rfl

theorem Ticking.busy_held (h : Ticking t w busy todo) : ∀ i ∈ busy, (w.db.pending t .scheduledMessages i).isSome := by
  intro i hi
  obtain ⟨m, v, hm, -⟩ := h.held i (List.mem_append_left _ hi)
  rw [hm]
  rfl

theorem Ticking.take (h : Ticking t w [] (i :: todo)) : Ticking t w [i] todo :=
  ⟨h.own, fun j hj => h.held j hj, fun y hy hm => h.left y hy (List.mem_cons_of_mem _ hm),
    fun y hy _ => h.done y hy List.not_mem_nil⟩

def Nothing : Foot := fun _ _ => False

theorem ticking_stretch {α : Type} {p : Prg α} (hp : Within (Writes false Nothing) false p) (h : Ticking t w busy todo) :
    (handover errands A).Ensures t p (fun _ w' => Ticking t w' busy todo) w := by
  refine ensures_mono (fun x w' hx => ?_) (ensures_of_uses (fun _ w => Ticking t w busy todo)
    (fun l w1 w2 hev h1 => h1.evolves hev) (fun l o w1 j r w2 ho hL hI h1 he _ _ => ?_) hp h)
  · obtain ⟨-, -, hx⟩ := hx
    exact hx
  · have hs : silent o = true := by
      rcases ho with ho | ⟨hf, -⟩ | ho
      · exact ho
      · cases hf
      · exact ho.elim
    have hcommit : o ≠ .sql .commit := by
      rintro rfl
      cases hs
    have hhands : hands o = false := by
      cases o with
      | ask q =>
        cases q with
        | sendDue => cases hs
        | _ => rfl
      | now | sql => rfl
    have hinside : o.Inside := by
      cases o with
      | sql o => cases o <;> trivial
      | now | ask => trivial
    refine ⟨Handover.exec hI hcommit hhands (h1.holds h1.busy_held) he, h1.congr ?_ ?_ (fun _ _ _ => ?_) ?_⟩
    · unfold Engine.own
      rw [(World.exec_log hcommit he).1]
    · exact World.exec_pending hinside (fun j g hg => by subst hg; cases hs) (fun r hr => by subst hr; cases hs) he
    · rw [(World.exec_log hcommit he).2]
    · unfold Outside.handedBy
      rw [handed_same hhands he]

theorem Ticking.perm {todo' : List Nat} (h : Ticking t w busy todo) (hp : todo.Perm todo') : Ticking t w busy todo' := by
  refine ⟨h.own, fun j hj => h.held j ?_, fun y hy hm => h.left y hy (hp.mem_iff.2 hm), h.done⟩
  rcases List.mem_append.1 hj with hj | hj
  · exact List.mem_append_left _ hj
  · exact List.mem_append_right _ (hp.mem_iff.2 hj)

variable {α β : Type} {Q : Except Err β → BWorld → Prop}

theorem ticking_first {p : Prg α} {k : α → Prg β} (hp : Within (Writes false Nothing) false p) (h : Ticking t w busy todo)
    (herr : ∀ e w', Q (.error e) w')
    (hok : ∀ a w', Ticking t w' busy todo → (handover errands A).Ensures t (k a) Q w') :
    (handover errands A).Ensures t (p >>= k) Q w := by
  refine ensures_bind (ensures_mono (fun x w' hx => ?_) (ticking_stretch hp h))
  cases x with
  | ok a => exact hok a w' hx
  | error e => exact herr e w'

theorem ticking_update {g : ScheduledMessageChange} {k : Option ScheduledMessage → Prg β} (h : Ticking t w busy todo)
    (herr : ∀ e w', Q (.error e) w')
    (hnone : ∀ w1, Ticking t w1 busy todo → w1.db.pending t = w.db.pending t → w1.out.handedBy t = w.out.handedBy t →
      (w1.db.view t .scheduledMessages i).bind (applyChange .scheduledMessages g) = none →
      (handover errands A).Ensures t (k none) Q w1)
    (hsome : ∀ w1 (v r : ScheduledMessage), Ticking t w1 busy todo → w1.db.pending t = w.db.pending t →
      w1.out.handedBy t = w.out.handedBy t → w1.db.Lawful Anyone → w1.db.view t .scheduledMessages i = some v →
      ScheduledMessageChange.apply v g = some r → (handover errands A).Ensures t (k (some r)) Q ⟨w1.db.write t .scheduledMessages i r, w1.out⟩) :
    (handover errands A).Ensures t (update .scheduledMessages i g >>= k) Q w := by
  refine ensures_call fun w1 hev hL hI j x w2 he hL2 _ => ?_
  have h1 := h.evolves hev
  have hI2 : Handover errands w2 := Handover.exec hI (fun hc => by cases hc) rfl (h1.holds h1.busy_held) he
  have hmine : w1.out.handedBy t = w.out.handedBy t := (Prod.mk.inj hev.mine).2
  refine ⟨hI2, ?_⟩
  obtain ⟨⟨y, e'⟩, he', hx⟩ := Option.map_eq_some_iff.1 he
  cases hx
  rcases Engine.update_cases he' with ⟨hn, rfl, rfl⟩ | ⟨v, r, hv, hr, -, ⟨rfl, rfl, -⟩ | ⟨rfl, rfl, -⟩⟩
  · exact hnone w1 h1 hev.db.pending hmine hn
  · exact herr _ _
  · exact hsome w1 v r h1 hev.db.pending hmine hL hv hr

structure Claiming (t : Tid) (w : BWorld) (todo : List Nat) : Prop where
  ticking : Ticking t w [] todo
  fresh : w.out.handedBy t = []
  others : ∀ j, j ∉ todo → w.db.pending t .scheduledMessages j = none

theorem Claiming.congr (h : Claiming t w todo) (ht : Ticking t w' [] todo) (hp : w'.db.pending t = w.db.pending t)
    (ho : w'.out.handedBy t = w.out.handedBy t) : Claiming t w' todo :=
  ⟨ht, ho.trans h.fresh, fun j hj => by rw [hp]; exact h.others j hj⟩

theorem Claiming.claim (h : Claiming t w todo) (hi : i ∉ todo) (hv : w.db.view t .scheduledMessages i = some v)
    (hs : v.status = .pending ∧ v.deletedAt = none) :
    Claiming t ⟨w.db.write t .scheduledMessages i v, w.out⟩ (i :: todo) := by
  have hcommitted : w.db.committed .scheduledMessages i = some v := by
    rw [← hv]
    unfold Engine.view Rows.overlay
    rw [h.others i hi]
  have hrow : ∀ j, j ≠ i → (w.db.write t .scheduledMessages i v).pending t .scheduledMessages j =
      w.db.pending t .scheduledMessages j := fun j hj => Engine.write_pending_row fun hc => hj hc.2
  have hnone : ∀ y ∈ w.out.handedBy t, False := by
    intro y hy
    rw [h.fresh] at hy
    cases hy
  refine ⟨⟨h.ticking.own, fun j hj => ?_, fun y hy => (hnone y hy).elim, fun y hy => (hnone y hy).elim⟩, h.fresh,
    fun j hj => ?_⟩
  · by_cases hji : j = i
    · subst hji
      exact ⟨v, v, Engine.write_pending_self, hs.1, hs.2, hcommitted, hs.1⟩
    · obtain ⟨m, v', hm, hrest⟩ := h.ticking.held j ((List.mem_cons.1 hj).resolve_left hji)
      exact ⟨m, v', (hrow j hji).trans hm, hrest⟩
  · have hji : j ≠ i := fun he => hj (he ▸ List.mem_cons_self ..)
    exact (hrow j hji).trans (h.others j fun hm => hj (List.mem_cons_of_mem _ hm))

theorem Claiming.evolves (h : Claiming t w todo) (hev : w.Evolves Anyone t w') : Claiming t w' todo :=
  h.congr (h.ticking.evolves hev) hev.db.pending (Prod.mk.inj hev.mine).2

theorem due_of_claim {r : ScheduledMessage} {now : Int} (h : ScheduledMessageChange.apply v (.claimDue now) = some r) :
    r = v ∧ v.status = .pending ∧ v.deletedAt = none := by
  simp only [ScheduledMessageChange.apply] at h
  split at h
  · rename_i hc
    cases h
    exact ⟨rfl, hc.2.1, hc.1⟩
  · cases h

theorem lockDue_ensures (now : Int) : ∀ (is : List Nat) (limit : Nat) (todo : List Nat) (w : BWorld),
    (is ++ todo).Nodup → Claiming t w todo → (handover errands A).Ensures t (Scheduled.lockDue now is limit)
      (fun x w' => ∀ rows, x = .ok rows → (rows.map ScheduledMessage.id ++ todo).Nodup ∧
        Ticking t w' [] (rows.map ScheduledMessage.id ++ todo)) w
  | [], limit, todo, w, hnd, h => by
    intro rows hrows
    cases hrows
    exact ⟨hnd, h.ticking⟩
  | i :: is, 0, todo, w, hnd, h => by
    intro rows hrows
    cases hrows
    exact ⟨(List.nodup_append.1 hnd).2.1, h.ticking⟩
  | i :: is, limit + 1, todo, w, hnd, h => by
    obtain ⟨hi, hnd'⟩ := List.nodup_cons.1 hnd
    have hi' : i ∉ todo := fun hm => hi (List.mem_append_right _ hm)
    unfold Scheduled.lockDue
    refine ensures_call fun w1 hev hL hI j locked w2 he hL2 _ => ?_
    have h1 := h.evolves hev
    cases he
    refine ⟨hI.congr rfl rfl fun _ _ hp => hp, ?_⟩
    show (handover errands A).Ensures t (if j.locked then _ else _) _ _
    split
    · exact lockDue_ensures now is (limit + 1) todo _ hnd' h1
    · refine ticking_update h1.ticking (fun e w' rows hrows => by cases hrows) (fun w3 h3 hp ho _ => ?_)
        (fun w3 v r h3 hp ho hL3 hv hr => ?_)
      · exact lockDue_ensures now is (limit + 1) todo w3 hnd' (h1.congr h3 hp ho)
      · obtain ⟨rfl, hs⟩ := due_of_claim hr
        have hid : r.id = i := (hL3.view_consistent t).id .scheduledMessages i r hv
        refine ensures_bind (ensures_mono (fun x w' hx => ?_) (lockDue_ensures now is limit (i :: todo) _
          (List.perm_middle.nodup_iff.2 hnd) ((h1.congr h3 hp ho).claim hi' hv hs)))
        cases x with
        | error e => exact fun rows hrows => by cases hrows
        | ok rows =>
          intro rows' hrows
          cases hrows
          obtain ⟨hnodup, hticking⟩ := hx rows rfl
          rw [List.map_cons, hid]
          exact ⟨List.perm_middle.nodup_iff.1 hnodup, hticking.perm List.perm_middle⟩

def Turned (t : Tid) (w : BWorld) (i : Nat) (todo : List Nat) : Option ScheduledMessageStatus → Prop
  | none => Ticking t w [] (i :: todo)
  | some _ => Ticking t w [] todo

variable {row : ScheduledMessage}

theorem marked_ensures {status : ScheduledMessageStatus} (hrow : row.id = i) (hs : status ≠ .pending) (hi : i ∉ todo)
    (h : Ticking t w [i] todo) :
    (handover errands A).Ensures t (BookingComms.marked row status)
      (fun x w' => ∀ s, x = .ok s → Turned t w' i todo s) w := by
  unfold BookingComms.marked Scheduled.mark
  refine ticking_update h (fun e w' s hs => by cases hs) (fun w1 h1 _ _ hn => ?_) (fun w1 v r h1 _ _ _ hv hr => ?_)
  · obtain ⟨m, -, hm, hpending, hlive, -⟩ := h1.held i (List.mem_append_left _ (List.mem_singleton_self i))
    rw [hrow, Engine.view, Rows.over_some hm, Option.bind_some] at hn
    simp [applyChange, ScheduledMessageChange.apply, hpending, hlive] at hn
  · subst hrow
    intro s hs'
    cases hs'
    have hstatus : r.status = status := by
      simp only [ScheduledMessageChange.apply] at hr
      split at hr <;> cases hr
      rfl
    have hother : ∀ j, j ≠ row.id → (w1.db.write t .scheduledMessages row.id r).pending t .scheduledMessages j =
        w1.db.pending t .scheduledMessages j := fun j hj => Engine.write_pending_row fun hc => hj hc.2
    refine ⟨h1.own, fun j hj => ?_, h1.left, fun y hy _ => ?_⟩
    · have hji : j ≠ row.id := fun he => hi (he ▸ hj)
      obtain ⟨m, v', hm, hrest⟩ := h1.held j (List.mem_append_right _ hj)
      exact ⟨m, v', (hother j hji).trans hm, hrest⟩
    · by_cases hy' : y.messageId = row.id
      · rw [hy']
        exact ⟨r, Engine.write_pending_self, hstatus ▸ hs⟩
      · obtain ⟨m, hm, hne⟩ := h1.done y hy fun hb => hy' (List.mem_singleton.1 hb)
        exact ⟨m, (hother _ hy').trans hm, hne⟩

theorem Ticking.hand (h : Ticking t w [] (i :: todo)) (hi : i ∉ todo) {new : Handed} (hnew : new.by_ = t ∧ new.messageId = i) :
    Ticking t ⟨w.db, { w.out with handed := w.out.handed ++ [new] }⟩ [i] todo := by
  have hmem : ∀ y ∈ Outside.handedBy t { w.out with handed := w.out.handed ++ [new] }, y ∈ w.out.handedBy t ∨ y = new := by
    intro y hy
    obtain ⟨hm, hby⟩ := mem_handedBy.1 hy
    rcases List.mem_append.1 hm with hm | hm
    · exact .inl (mem_handedBy.2 ⟨hm, hby⟩)
    · exact .inr (List.mem_singleton.1 hm)
  refine ⟨h.own, h.held, fun y hy => ?_, fun y hy hb => ?_⟩
  · rcases hmem y hy with hy | rfl
    · exact fun hm => h.left y hy (List.mem_cons_of_mem _ hm)
    · rw [hnew.2]
      exact hi
  · rcases hmem y hy with hy | rfl
    · exact h.done y hy List.not_mem_nil
    · exact absurd (List.mem_singleton.2 hnew.2) hb

theorem sendDue_ensures (hdrain : (errands t).drains = true) (hrow : row.id = i) (hi : i ∉ todo) (phone : String)
    (kind : MessageKind) (token : Nat) (h : Ticking t w [] (i :: todo)) :
    (handover errands A).Ensures t (BookingComms.sendDue row phone kind token)
      (fun x w' => x ≠ .error .unexpected → Ticking t w' [i] todo) w := by
  unfold BookingComms.sendDue
  refine ensures_call fun w1 hev hL hI j x w2 he hL2 _ => ?_
  have h1 := h.evolves hev
  cases he
  refine ⟨hI.congr rfl rfl fun _ _ hp => hp, ?_⟩
  have h2 : Ticking t ⟨w1.db, w1.out⟩ [] (i :: todo) := h1
  refine ensures_raiseIf (fun _ _ => h2.take) fun _ => ensures_raiseIf (fun _ _ => h2.take) fun _ => ?_
  refine ensures_call fun w3 hev hL hI j x w4 he hL4 _ => ?_
  have h3 := h2.evolves hev
  cases he
  obtain ⟨m, v, hm, -, -, hv, hpending⟩ := h3.held i (List.mem_cons_self ..)
  have hnew : (⟨t, row.id, kind, row.bookingId, token, w3.db.log.length⟩ : Handed).by_ = t ∧ row.id = i := ⟨rfl, hrow⟩
  have hfresh : ∀ y ∈ w3.out.handedBy t, y.messageId ≠ i := fun y hy he => h3.left y hy (he ▸ List.mem_cons_self ..)
  have hboth : ∀ d : DueResult, Handover errands ⟨w3.db, { w3.out with handed := w3.out.handed ++
      if d.handed then [⟨t, row.id, kind, row.bookingId, token, w3.db.log.length⟩] else [] }⟩ ∧
      Ticking t ⟨w3.db, { w3.out with handed := w3.out.handed ++
        if d.handed then [⟨t, row.id, kind, row.bookingId, token, w3.db.log.length⟩] else [] }⟩ [i] todo := by
    intro d
    cases d.handed with
    | false => exact ⟨hI.congr (List.append_nil _) rfl fun _ _ hp => hp,
        h3.take.congr rfl rfl (fun _ _ _ => rfl) (by simp [Outside.handedBy])⟩
    | true => exact ⟨Handover.hand hI hL hdrain h3.own hfresh hm ⟨v, hv, hpending⟩ hnew, h3.hand hi hnew⟩
  obtain ⟨hI4, h4⟩ := hboth j.due
  refine ⟨hI4, ?_⟩
  have hdue : (service.serve t (.sendDue row.id phone kind row.bookingId token) j w3.db.log.length w3.out).1 = j.due := rfl
  rw [hdue]
  have hend : ∀ x : Except Err Unit, x ≠ .error .unexpected → Ticking t ⟨w3.db, (service.serve t
      (.sendDue row.id phone kind row.bookingId token) j w3.db.log.length w3.out).2⟩ [i] todo := fun _ _ => h4
  cases j.due with
  | fault => exact fun hne => absurd rfl hne
  | sent | refused | notConfigured => exact hend _

theorem sendOrFail_ensures (hdrain : (errands t).drains = true) (hrow : row.id = i) (hi : i ∉ todo)
    (phone : Option String) (kind : MessageKind) (h : Ticking t w [] (i :: todo)) :
    (handover errands A).Ensures t (BookingComms.sendOrFail row phone kind)
      (fun x w' => ∀ s, x = .ok s → Turned t w' i todo s) w := by
  unfold BookingComms.sendOrFail
  split
  · rename_i token phone _
    refine ensures_bind (ensures_bind ?_)
    rw [Ensures, Prog.wp_attempt]
    refine ensures_bind (ensures_mono (fun x w1 hx => ?_) (sendDue_ensures hdrain hrow hi phone kind token h))
    cases x with
    | ok u => exact marked_ensures hrow (by decide) hi (hx (fun h => by cases h))
    | error e =>
      show (handover errands A).Ensures t (if _ then _ else _) _ _
      split
      · rename_i he
        refine marked_ensures hrow (by decide) hi (hx fun hu => ?_)
        cases hu
        simp at he
      · exact fun s hs => by cases hs
  · exact marked_ensures hrow (by decide) hi h.take

theorem turned_none (h : Ticking t w [] (i :: todo)) :
    (handover errands A).Ensures t (pure none : Prg (Option ScheduledMessageStatus))
      (fun x w' => ∀ s, x = .ok s → Turned t w' i todo s) w := by
  intro s hs
  cases hs
  exact h

theorem drainReminder_ensures (hdrain : (errands t).drains = true) (hrow : row.id = i) (hi : i ∉ todo) (now : Int)
    (h : Ticking t w [] (i :: todo)) :
    (handover errands A).Ensures t (BookingComms.drainReminder row now)
      (fun x w' => ∀ s, x = .ok s → Turned t w' i todo s) w := by
  unfold BookingComms.drainReminder
  cases row.bookingId with
  | none => exact turned_none h
  | some b =>
    refine ticking_first (steady_select _ _).within h (fun e w' s hs => by cases hs) fun found w1 h1 => ?_
    cases found with
    | none => exact marked_ensures hrow (by decide) hi h1.take
    | some booking =>
      show (handover errands A).Ensures t (if _ then _ else _) _ _
      split
      · exact marked_ensures hrow (by decide) hi h1.take
      · refine ticking_first (steady_ask rfl).within h1 (fun e w' s hs => by cases hs) fun configured w2 h2 => ?_
        cases configured with
        | false => exact turned_none h2
        | true =>
          refine ticking_first (steady_select _ _).within h2 (fun e w' s hs => by cases hs) fun customer w3 h3 => ?_
          exact sendOrFail_ensures hdrain hrow hi _ _ h3

theorem drainOffer_ensures (hdrain : (errands t).drains = true) (hrow : row.id = i) (hi : i ∉ todo) (now : Int)
    (h : Ticking t w [] (i :: todo)) :
    (handover errands A).Ensures t (BookingComms.drainOffer row now)
      (fun x w' => ∀ s, x = .ok s → Turned t w' i todo s) w := by
  unfold BookingComms.drainOffer
  cases row.waitlistEntryId with
  | none => exact turned_none h
  | some b =>
    refine ticking_first (steady_select _ _).within h (fun e w' s hs => by cases hs) fun found w1 h1 => ?_
    cases found with
    | none => exact marked_ensures hrow (by decide) hi h1.take
    | some entry =>
      show (handover errands A).Ensures t (if _ then _ else _) _ _
      split
      · exact marked_ensures hrow (by decide) hi h1.take
      · refine ticking_first (steady_ask rfl).within h1 (fun e w' s hs => by cases hs) fun configured w2 h2 => ?_
        cases configured with
        | false => exact turned_none h2
        | true => exact sendOrFail_ensures hdrain hrow hi _ _ h2

/-- **The loop over the batch**: every row handed over is marked, whenever the loop returns. -/
theorem drainRows_ensures (hdrain : (errands t).drains = true) (now : Int) : ∀ (rows : List ScheduledMessage)
    (r : DrainResult) (w : BWorld), (rows.map ScheduledMessage.id).Nodup →
    Ticking t w [] (rows.map ScheduledMessage.id) → (handover errands A).Ensures t (BookingComms.drainRows now rows r)
      (fun x w' => ∀ r', x = .ok r' → ∃ todo, Ticking t w' [] todo) w
  | [], r, w, _, h => by
    intro r' hr
    exact ⟨[], h⟩
  | row :: rows, r, w, hnd, h => by
    obtain ⟨hi, hnd'⟩ := List.nodup_cons.1 hnd
    have hrow : (handover errands A).Ensures t (BookingComms.drainRow row now)
        (fun x w' => ∀ s, x = .ok s → Turned t w' row.id (rows.map ScheduledMessage.id) s) w := by
      unfold BookingComms.drainRow
      split
      · exact drainOffer_ensures hdrain rfl hi now h
      · exact drainReminder_ensures hdrain rfl hi now h
    unfold BookingComms.drainRows
    refine ensures_bind (ensures_mono (fun x w1 hx => ?_) hrow)
    cases x with
    | error e => exact fun r' hr => by cases hr
    | ok s =>
      have hturned := hx s rfl
      cases s with
      | none =>
        intro r' hr
        exact ⟨_, hturned⟩
      | some status => exact drainRows_ensures hdrain now rows _ w1 hnd' hturned

end Drain

theorem dueAt_nodup (now : Int) {s : Snapshot schema} (h : Consistent s.rows) : (Scheduled.dueAt now s).Nodup := by
  have hall : ((s.all .scheduledMessages).map ScheduledMessage.id).Nodup := by
    unfold Snapshot.all
    rw [List.map_filterMap]
    refine List.Nodup.filterMap (fun i j k hi hj => ?_) List.nodup_range
    obtain ⟨m, hm, hid⟩ := Option.map_eq_some_iff.1 hi
    obtain ⟨m', hm', hid'⟩ := Option.map_eq_some_iff.1 hj
    have h1 : m.id = i := h.id .scheduledMessages i m hm
    have h2 : m'.id = j := h.id .scheduledMessages j m' hm'
    rw [← h1, ← h2, hid, hid']
  unfold Scheduled.dueAt
  exact ((List.perm_insertionSort _ _).map _).nodup_iff.2 (hall.sublist (List.filter_sublist.map _))

theorem drainBody_ensures (hdrain : (errands t).drains = true) (now : Int) (limit : Nat) (h : Claiming t w []) :
    (handover errands A).Ensures t (Scheduled.claimDue now limit >>= fun rows => BookingComms.drainRows now rows .zero)
      (fun x w' => ∀ r, x = .ok r → ∃ todo, Ticking t w' [] todo) w := by
  unfold Scheduled.claimDue
  refine ensures_call fun w1 hev hL hI j due w2 he hL2 _ => ?_
  have h1 := h.evolves hev
  cases he
  refine ⟨hI.congr rfl rfl fun _ _ hp => hp, ?_⟩
  have h2 : Claiming t ⟨w1.db.look t, w1.out⟩ [] := h1.congr (h1.ticking.congr rfl rfl (fun _ _ _ => rfl) rfl) rfl rfl
  have hnd : (Scheduled.dueAt now ⟨w1.db.view t, w1.db.next⟩ ++ []).Nodup := by
    rw [List.append_nil]
    exact dueAt_nodup _ (hL.view_consistent t)
  refine ensures_bind (ensures_mono (fun x w3 hx => ?_) (lockDue_ensures now _ limit [] _ hnd h2))
  cases x with
  | error e => exact fun r hr => by cases hr
  | ok rows =>
    obtain ⟨hnodup, hticking⟩ := hx rows rfl
    rw [List.append_nil] at hnodup hticking
    exact drainRows_ensures hdrain now rows _ w3 hnodup hticking

/-- **A drain**: from the moment it starts, its one transaction commits nothing handed over and unmarked. -/
theorem drainDue_ensures (hdrain : (errands t).drains = true) (limit : Nat) (h : Claiming t w []) :
    (handover errands A).Ensures t (BookingComms.drainDue limit) (fun _ _ => True) w := by
  unfold BookingComms.drainDue
  refine ensures_call fun w1 hev hL hI j now w1' he hL' _ => ?_
  have h1 := h.evolves hev
  cases he
  refine ⟨hI, ?_⟩
  refine ensures_call fun w2 hev hL hI j start w2' he hL2 _ => ?_
  have h2 := h1.evolves hev
  cases he
  refine ⟨hI.congr rfl rfl fun _ _ hp => hp, ?_⟩
  have h2' : Claiming t ⟨{ w2.db with started := Function.update w2.db.started t w2.db.clock }, w2.out⟩ [] :=
    h2.congr (h2.ticking.congr rfl rfl (fun _ _ _ => rfl) rfl) rfl rfl
  change (handover errands A).Ensures t (Prog.attempt (Scheduled.claimDue w1.db.clock limit >>= fun rows =>
    BookingComms.drainRows w1.db.clock rows .zero) >>= _) (fun _ _ => True)
    ⟨{ w2.db with started := Function.update w2.db.started t w2.db.clock }, w2.out⟩
  refine ensures_bind ?_
  rw [Ensures, Prog.wp_attempt]
  refine ensures_mono (fun x w3 hx => ?_) (drainBody_ensures hdrain _ limit h2')
  cases x with
  | ok r =>
    obtain ⟨todo, h3⟩ := hx r rfl
    refine ensures_call fun w4 hev hL hI j u w4' he hL4 _ => ?_
    have h4 := h3.evolves hev
    cases he
    refine ⟨Handover.commit hI fun y hy m hm => ?_, trivial⟩
    obtain ⟨m', hm', hs⟩ := h4.done y hy List.not_mem_nil
    rw [hm'] at hm
    cases hm
    exact hs
  | error e =>
    refine ensures_call fun w4 hev hL hI j u w4' he hL4 _ => ?_
    cases he
    exact ⟨(handover errands A).crash_inv t w4 hL hI, trivial⟩

/-! ## Runs -/

section Runs

variable {cfg : Config} {rows : Rows schema} {next : Nat} {now : Int} {c : Conf server Reply}

theorem errand_safe (cfg : Config) (hown : w.db.own t = []) (hpend : w.db.pending t = fun _ _ => none)
    (hfresh : w.out.handedBy t = []) :
    (handover errands A).logic.Safe t ((errands t).code cfg) (fun _ _ => True) w := by
  cases hd : (errands t).drains with
  | false => exact safe_aside hd (fun _ _ h => ErrandWrites.keepsQuiet h) (steady_errand cfg hd).within
  | true =>
    obtain ⟨limit, he⟩ : ∃ limit, errands t = .drain limit := by
      cases he : errands t with
      | drain limit => exact ⟨limit, rfl⟩
      | _ =>
        rw [he] at hd
        cases hd
    have hstart : Claiming t w [] := by
      refine ⟨⟨hown, fun i hi => (List.not_mem_nil hi).elim, fun y _ => List.not_mem_nil, fun y hy => ?_⟩, hfresh,
        fun j _ => by rw [hpend]⟩
      rw [hfresh] at hy
      cases hy
    have hcode : (errands t).code cfg = BookingComms.drainDue limit >>= fun r => pure (.drained r) := by
      rw [he]
      rfl
    rw [hcode]
    refine safe_of_ensures (Q := fun _ _ => True) (ensures_bind (ensures_mono (fun x w' _ => ?_)
      (drainDue_ensures hd limit hstart))) fun _ _ _ _ _ _ _ => trivial
    cases x <;> trivial

/-- **A row is handed to the provider twice only where the first time was taken back.**  Whatever drains, errands and
crashes interleave: of two hand-overs of one scheduled row the earlier was made by another drain, which holds the row no
more and committed nothing about it — a later row of its batch raised, or the process died.  And a drain that committed
what it wrote about a row it handed over has marked that row, for good. -/
theorem handed_twice_taken_back (h : Tables rows next) (hr : (setOut cfg errands rows next now).Reaches c) :
    c.state.out.handed.Pairwise (TakenBack c.state) ∧
      ∀ y ∈ c.state.out.handed, ∀ e ∈ c.state.db.log, e.by_ = y.by_ → ∀ m : ScheduledMessage,
        e.writes .scheduledMessages y.messageId = some m → m.status ≠ .pending ∧
          ∀ v : ScheduledMessage, c.state.db.committed .scheduledMessages y.messageId = some v → v.status ≠ .pending := by
  have hI : Handover errands (setOut cfg errands rows next now).state :=
    ⟨fun y hy => (List.not_mem_nil hy).elim, fun y hy => (List.not_mem_nil hy).elim, List.Pairwise.nil⟩
  obtain ⟨hsound, hL⟩ := (handover errands fun _ _ _ _ _ => True).runs (Q := fun _ _ _ => True) (setOut_obeyed h) hI
    (fun t p hp => by cases hp; exact errand_safe cfg rfl rfl rfl) hr
  have hinv : Handover errands c.state := hsound.inv.2
  refine ⟨hinv.apart, fun y hy e he hby m hm => ?_⟩
  have hs := hinv.marked y hy e he hby m hm
  exact ⟨hs, fun v hv => marked_later hL he hm hs hv⟩

end Runs

/-! ## A later row of the batch -/

def dueShelf : (T : Table) → List (Row T)
  | .scheduledMessages =>
    [{ Scheduled.pending 6 .reminder 0 (some 7) with id := 9 }, { Scheduled.pending 8 .reminder 0 (some 7) with id := 10 }]
  | T => shelfWith [danaRow, ⟨7, 0, none, "+972501234568", "Noa", none⟩]
      [fitting, { fitting with id := 8, customerId := 7, seatIndex := 2 }] [] T

theorem dueShelf_tables : Tables (tableOf dueShelf) 11 := tables_of_stock (by decide)

def ticks : Tid → Errand := fun _ => .drain DRAIN_BATCH_SIZE

def thrownOut : List (Action server) :=
  turns 0 fine 17 ++ [.call 0 { fine with due := .fault false }] ++ turns 0 fine 1 ++ turns 1 fine 12

/-- **One reminder, two messages.** -/
theorem handed_twice : ¬∀ (cfg : Config) (errands : Tid → Errand) (rows : Rows schema) (next : Nat) (now : Int)
    (c : Conf server Reply), Tables rows next → (setOut cfg errands rows next now).Reaches c →
    c.state.out.handed.Pairwise fun y z => y.messageId ≠ z.messageId := by
  intro h
  obtain ⟨c, hc, htwice⟩ := reaches_of_play (setOut shop ticks (tableOf dueShelf) 11 0) thrownOut
    (fun c => decide (c.state.out.handed.map Handed.messageId = [9, 9])) (by decide +kernel)
  have hapart : (c.state.out.handed.map Handed.messageId).Pairwise (· ≠ ·) :=
    List.pairwise_map.2 (h shop ticks (tableOf dueShelf) 11 0 c dueShelf_tables hc)
  rw [of_decide_eq_true htwice] at hapart
  exact absurd hapart (by decide)

/-- The two messages are there, and the first was taken back. -/
theorem handed_twice_taken_back_shop : ∃ c, (setOut shop ticks (tableOf dueShelf) 11 0).Reaches c ∧
    c.state.out.handed.length = 2 ∧ c.state.out.handed.Pairwise (TakenBack c.state) := by
  obtain ⟨c, hc, htwo⟩ := reaches_of_play (setOut shop ticks (tableOf dueShelf) 11 0) thrownOut
    (fun c => decide (c.state.out.handed.length = 2)) (by decide +kernel)
  exact ⟨c, hc, of_decide_eq_true htwo, (handed_twice_taken_back dueShelf_tables hc).1⟩

end Boutique

import Boutique.Verbs
/-!
# Offers — a queued text and the offer it is about

The text about an offer is queued in the transaction that makes the offer, and a transaction that ends the offer cancels
it: between its two statements an entry is open, and held by the row lock no other transaction queues a text about it.
-/
namespace Waitlist

open Txn Session Contract

variable {w w' : World schema outside} {t : Tid} {e e' : Engine schema}

/-- A text about the offer of entry `i`, still to go out. -/
structure Queued (m : ScheduledMessage) (i : Nat) : Prop where
  pending : m.pending = true
  subject : m.subject = .entry i

/-- The entry is offered, and its hash is that of the text's token. -/
structure Backed (v : WaitlistEntry) (m : ScheduledMessage) : Prop where
  offered : v.offered = true
  token : ∃ token, m.manageToken = some token ∧ v.offerTokenHash = some (manageTokenHash token)

/-- **Every queued text is backed by its entry.** -/
def Linked (rows : Rows schema) : Prop :=
  ∀ k (m : ScheduledMessage) i, rows .messages k = some m → Queued m i →
    ∃ v : WaitlistEntry, rows .entries i = some v ∧ Backed v m

def Announced (c : Commit schema) : Prop :=
  ∀ k (m : ScheduledMessage) i, c.writes .messages k = some m → Queued m i →
    (∃ v : WaitlistEntry, c.writes .entries i = some v) ∨ c.before .messages k = some m

structure Texts (e : Engine schema) : Prop where
  linked : Linked e.committed
  announced : ∀ c ∈ e.log, Announced c

theorem Texts.congr (h : Texts e) (hc : e'.committed = e.committed) (hl : e'.log = e.log) : Texts e' :=
  ⟨by rw [hc]; exact h.linked, by rw [hl]; exact h.announced⟩

def texts : Contract lasting.shared outside Err where
  Inv w := Texts w.db
  Assume _ _ _ _ _ := True
  crash_inv _ _ _ h := ⟨h.linked, h.announced⟩
  tick_inv _ _ _ h := ⟨h.linked, h.announced⟩

theorem texts_historic : texts.Historic fun _ => true :=
  ⟨fun _ _ hl hc _ h => Texts.congr h hc hl, fun _ _ _ _ _ _ h => h⟩

/-! ## Inside a transaction -/

def Held (t : Tid) (i : Nat) (e : Engine schema) : Prop := ∃ v : WaitlistEntry, e.pending t .entries i = some v

variable {i : Nat} {m : ScheduledMessage} {o : Op schema outside}

theorem queued_before {k : Nat} (hL : e'.Lawful lasting.shared) (hev : e.Evolves lasting.shared t e')
    (hlog : ∀ c ∈ e'.log, Announced c) (hheld : Held t i e) (hm : e'.view t .messages k = some m) (hq : Queued m i) :
    e.view t .messages k = some m := by
  have hview : ∀ x : Engine schema, x.view t Table.messages k =
      (x.committed.overlay (x.pending t)) Table.messages k := fun _ => rfl
  rw [hview] at hm ⊢
  rw [hev.pending] at hm
  cases hp : e.pending t Table.messages k with
  | some r =>
    rw [Rows.over_some hp] at hm ⊢
    exact hm
  | none =>
    rw [Rows.over_none hp] at hm ⊢
    by_cases hbefore : ∃ x : ScheduledMessage, e.committed .messages k = some x ∧ Queued x i
    · obtain ⟨x, hx, -⟩ := hbefore
      have hrow := (hev.since.after).rows Table.messages k
      rw [hx, hm] at hrow
      have hkept : Kept x m := hrow
      rw [hx, hkept hq.pending]
    · have hstart : e'.version e.log.length = e.committed := by
        rw [hev.version _ (Nat.le_refl _), Engine.version_length]
      obtain ⟨n, c, hn, -, hc, hnot, x, hx, hxq⟩ := hL.version_crossing (T := Table.messages) (i := k)
        (P := fun y => ∃ x : ScheduledMessage, y = some x ∧ Queued x i) hev.log_le (Nat.le_refl _)
        (by rw [hstart]; exact hbefore) (by rw [Engine.version_length]; exact ⟨m, hm, hq⟩)
      cases hw : c.writes Table.messages k with
      | none =>
        rw [Commit.after, Rows.over_none hw] at hx
        exact absurd ⟨x, hx, hxq⟩ hnot
      | some y =>
        rw [Commit.after, Rows.over_some hw] at hx
        cases hx
        rcases hlog c (List.mem_of_getElem? hc) k x i hw hxq with ⟨v, hv⟩ | hsame
        · obtain ⟨u, hu⟩ := hheld
          have hapart := hev.apart n c hn hc Table.entries i (by rw [hu]; rfl)
          rw [hapart] at hv
          cases hv
        · exact absurd ⟨x, hsame, hxq⟩ hnot

/-- **What thread `t` keeps inside a transaction**: queued texts are backed, but for the entries `X` it has moved and not
yet dealt with. -/
structure Balanced (t : Tid) (X : List Nat) (e : Engine schema) : Prop where
  backed : ∀ k (m : ScheduledMessage) i, e.view t .messages k = some m → Queued m i → i ∉ X →
    ∃ v : WaitlistEntry, e.view t .entries i = some v ∧ Backed v m
  own : ∀ k (m : ScheduledMessage) i, e.pending t .messages k = some m → Queued m i →
    Held t i e ∨ e.committed .messages k = some m
  held : ∀ i ∈ X, Held t i e

section Balanced

variable {X Y : List Nat} {i k : Nat} {r : WaitlistEntry} {m : ScheduledMessage}

theorem Balanced.congr (h : Balanced t X e) (hentries : e'.pending t Table.entries = e.pending t Table.entries)
    (hmessages : e'.pending t Table.messages = e.pending t Table.messages) (hc : e'.committed = e.committed) :
    Balanced t X e' := by
  have hview : ∀ T : Table, e'.pending t T = e.pending t T → e'.view t T = e.view t T := by
    intro T hT
    funext j
    simp only [Engine.view, Rows.overlay, hT, hc]
  refine ⟨?_, ?_, ?_⟩
  · rw [hview _ hmessages, hview _ hentries]
    exact h.backed
  · unfold Held
    rw [hmessages, hentries, hc]
    exact h.own
  · unfold Held
    rw [hentries]
    exact h.held

theorem Balanced.perm (h : Balanced t X e) (hXY : ∀ j, j ∈ X ↔ j ∈ Y) : Balanced t Y e :=
  ⟨fun k m i hm hq hi => h.backed k m i hm hq fun hX => hi ((hXY i).1 hX), h.own, fun j hj => h.held j ((hXY j).2 hj)⟩

theorem Balanced.evolves (h : Balanced t X e) (hev : e.Evolves lasting.shared t e') (hL : e'.Lawful lasting.shared)
    (hI : Texts e') : Balanced t X e' := by
  have hheld : ∀ j, Held t j e → Held t j e' := by
    intro j hj
    unfold Held
    rw [hev.pending]
    exact hj
  refine ⟨fun k m i hm hq hi => ?_, fun k m i hp hq => ?_, fun j hj => hheld j (h.held j hj)⟩
  · by_cases hheldi : Held t i e
    · obtain ⟨v, hv, hb⟩ := h.backed k m i (queued_before hL hev hI.announced hheldi hm hq) hq hi
      obtain ⟨u, hu⟩ := hheldi
      rw [Engine.view_pending hu] at hv
      cases hv
      exact ⟨v, Engine.view_pending (by rw [hev.pending]; exact hu), hb⟩
    · have hfree : e'.pending t Table.entries i = none := by
        rw [hev.pending]
        cases hp : e.pending t Table.entries i with
        | none => rfl
        | some v => exact absurd ⟨v, hp⟩ hheldi
      have hcommitted : e'.committed .messages k = some m := by
        cases hp : e.pending t Table.messages k with
        | none => rwa [Engine.view, Rows.over_none (by rw [hev.pending]; exact hp)] at hm
        | some x =>
          rw [Engine.view_pending (by rw [hev.pending]; exact hp)] at hm
          cases hm
          rcases h.own k m i hp hq with hown | hown
          · exact absurd hown hheldi
          · rw [hev.owned _ k m hp]
            exact hown
      obtain ⟨v, hv, hb⟩ := hI.linked k m i hcommitted hq
      exact ⟨v, (Rows.over_none hfree).trans hv, hb⟩
  · rw [hev.pending] at hp
    exact (h.own k m i hp hq).imp (hheld i) fun hc => by rw [hev.owned _ k m hp]; exact hc

theorem balanced_idle (hI : Linked e.committed) (hp : e.pending t = fun _ _ => none) : Balanced t [] e := by
  refine ⟨fun k m i hm hq _ => ?_, fun k m i hk => ?_, nofun⟩
  · rw [Engine.view_idle hp] at hm ⊢
    exact hI k m i hm hq
  · rw [hp] at hk
    cases hk

theorem Balanced.commit (h : Balanced t [] e) (hI : Texts e) : Texts (e.commit t) := by
  refine ⟨fun k m i hm hq => h.backed k m i hm hq List.not_mem_nil, fun c hc => ?_⟩
  rcases List.mem_append.1 hc with hc | hc
  · exact hI.announced c hc
  · cases List.mem_singleton.1 hc
    exact h.own

theorem Balanced.move (h : Balanced t X e) : Balanced t (i :: X) (e.write t Table.entries i r) := by
  refine ⟨fun k m j hm hq hj => ?_, fun k m j hp hq => ?_, fun j hj => ?_⟩
  · rw [Engine.write_view_row fun hc => by cases hc.1] at hm
    have hne : j ≠ i := fun heq => hj (heq ▸ List.mem_cons_self)
    obtain ⟨v, hv, hb⟩ := h.backed k m j hm hq fun hX => hj (List.mem_cons_of_mem _ hX)
    exact ⟨v, (Engine.write_view_row fun hc => hne hc.2).trans hv, hb⟩
  · rw [Engine.write_pending_row fun hc => by cases hc.1] at hp
    refine (h.own k m j hp hq).imp_left fun ⟨v, hv⟩ => ?_
    by_cases hji : j = i
    · exact ⟨r, by rw [hji]; exact Engine.write_pending_self⟩
    · exact ⟨v, (Engine.write_pending_row fun hc => hji hc.2).trans hv⟩
  · by_cases hji : j = i
    · exact ⟨r, by rw [hji]; exact Engine.write_pending_self⟩
    · obtain ⟨v, hv⟩ := h.held j ((List.mem_cons.1 hj).resolve_left hji)
      exact ⟨v, (Engine.write_pending_row fun hc => hji hc.2).trans hv⟩

theorem Balanced.unspoken (h : Balanced t X e)
    (hfree : ∀ v : WaitlistEntry, e.view t .entries i = some v → v.offered = false) :
    Balanced t X (e.write t Table.entries i r) := by
  have hmove := h.move (i := i) (r := r)
  refine ⟨fun k m j hm hq hj => ?_, hmove.own, fun j hj => hmove.held j (List.mem_cons_of_mem _ hj)⟩
  by_cases hji : j = i
  · subst hji
    rw [Engine.write_view_row fun hc => by cases hc.1] at hm
    obtain ⟨v, hv, hb⟩ := h.backed k m j hm hq hj
    have := hfree v hv
    rw [hb.offered] at this
    cases this
  · exact hmove.backed k m j hm hq fun hc => (List.mem_cons.1 hc).elim hji hj

theorem Balanced.text (h : Balanced t X e)
    (hm : ∀ i, Queued m i → e.view t .messages k = some m ∨ ∃ v : WaitlistEntry, e.pending t .entries i = some v ∧ Backed v m) :
    Balanced t X (e.write t Table.messages k m) := by
  have hheld : ∀ j, Held t j e → Held t j (e.write t Table.messages k m) := fun j ⟨v, hv⟩ =>
    ⟨v, (Engine.write_pending_row fun hc => by cases hc.1).trans hv⟩
  have hentry : ∀ j, (e.write t Table.messages k m).view t Table.entries j = e.view t Table.entries j := fun j =>
    Engine.write_view_row fun hc => by cases hc.1
  refine ⟨fun l x j hx hq hj => ?_, fun l x j hx hq => ?_, fun j hj => hheld j (h.held j hj)⟩
  · rw [hentry]
    by_cases hl : l = k
    · subst hl
      rw [Engine.write_view_self] at hx
      cases hx
      rcases hm j hq with hsame | ⟨v, hv, hb⟩
      · exact h.backed l m j hsame hq hj
      · exact ⟨v, Engine.view_pending hv, hb⟩
    · rw [Engine.write_view_row fun hc => hl hc.2] at hx
      exact h.backed l x j hx hq hj
  · by_cases hl : l = k
    · subst hl
      rw [Engine.write_pending_self] at hx
      cases hx
      rcases hm j hq with hsame | ⟨v, hv, hb⟩
      · cases hp : e.pending t Table.messages l with
        | none =>
          rw [Engine.view, Rows.over_none hp] at hsame
          exact .inr hsame
        | some y =>
          rw [Engine.view_pending hp] at hsame
          cases hsame
          exact (h.own l m j hp hq).imp_left (hheld j)
      · exact .inl (hheld j ⟨v, hv⟩)
    · rw [Engine.write_pending_row fun hc => hl hc.2] at hx
      exact (h.own l x j hx hq).imp_left (hheld j)

end Balanced

/-! ## Stretches that move no entry -/

/-- The kinds of statement that neither move an entry nor queue a text about one. -/
def plain : List Kind := [.enter .waiting, .touch, .remind, .book, .customer, .audit, .keep]

theorem apply_text {g : MessageChange} {r : ScheduledMessage} (h : schema.apply Table.messages g m = some r)
    (hq : Queued r i) : r = m := kept_apply h hq.pending

variable {X : List Nat}

theorem Balanced.step {i : Input} {x : o.Res} (h : Balanced t X w.db) (hL : w.db.Lawful lasting.shared)
    (ho : Among (.session :: plain) o) (hin : o.Inside) (hexec : w.exec t o i = some (x, w')) : Balanced t X w'.db := by
  cases o with
  | now | ask =>
    cases hexec
    exact h
  | sql o =>
    obtain ⟨⟨y, e'⟩, he, hx⟩ := Option.map_eq_some_iff.1 hexec
    cases hx
    cases o with
    | begin | read =>
      cases he
      exact h.congr rfl rfl rfl
    | lock =>
      obtain ⟨-, rfl⟩ := Engine.lock_cases he
      exact h.congr rfl rfl rfl
    | commit | abort => exact hin.elim
    | update T j g =>
      rcases Engine.update_cases he with ⟨-, -, rfl⟩ | ⟨v, r, hv, hr, -, ⟨-, rfl, -⟩ | ⟨-, rfl, -⟩⟩
      · exact h
      · exact h
      · cases T with
        | entries => cases g <;> exact absurd (ho _ rfl) (by decide)
        | messages => exact h.text fun k hq => .inl (by rw [apply_text hr hq]; exact hv)
        | customers =>
          refine h.congr ?_ ?_ rfl <;> exact Engine.write_beside (by decide)
        | bookings | auditLog => cases g
    | insert T r =>
      rcases Engine.insert_cases he with ⟨-, rfl, -⟩ | ⟨-, rfl, -⟩
      · exact h.congr rfl rfl rfl
      · have h1 : Balanced t X ({ w.db with next := w.db.next + 1 } : Engine schema) := h.congr rfl rfl rfl
        cases T with
        | entries =>
          refine h1.unspoken fun v hv => absurd (hL.view_lt hv) (Nat.lt_irrefl _)
        | messages =>
          refine h1.text fun k hq => ?_
          have hsubject : ScheduledMessage.subject r = .entry k := hq.subject
          have hkind : kind (.sql (.insert .messages r) : Op schema outside) = some .queue := by simp [kind, hsubject]
          exact absurd (ho _ hkind) (by decide)
        | bookings | customers | auditLog =>
          refine h1.congr ?_ ?_ rfl <;> exact Engine.write_beside (by decide)

theorem inside_of_among (ho : Among plain o) : o.Inside := by
  cases o with
  | now | ask => trivial
  | sql o =>
    cases o with
    | commit | abort => exact absurd (ho .session rfl) (by decide)
    | begin | read | update | insert | lock => trivial

section Plain

variable {α β : Type} {Q : Except Err β → World schema outside → Prop}

theorem plain_ensures {p : Prg α} (hp : Only (Among plain) p) (h : Balanced t X w.db) :
    texts.Ensures t p (fun _ w' => Balanced t X w'.db) w := by
  refine ensures_mono (fun _ _ ⟨_, _, h⟩ => h) (ensures_of_footprint (fun _ w => Balanced t X w.db)
    (fun _ _ _ hev hL hI h => h.evolves hev.db hL hI) (fun l o w i r w' ho hL hI hq he hL' hA => ?_) (hp false) h)
  have hin := inside_of_among ho
  exact ⟨texts_historic.exec (fun hc => by subst hc; exact hin) (fun _ _ => rfl) he hI,
    hq.step hL (ho.mono (List.subset_cons_self _ _)) hin he⟩

theorem plain_bind {p : Prg α} {k : α → Prg β} (hp : Only (Among plain) p) (h : Balanced t X w.db)
    (herr : ∀ e w', Q (.error e) w') (hk : ∀ a w', Balanced t X w'.db → texts.Ensures t (k a) Q w') :
    texts.Ensures t (p >>= k) Q w := by
  refine ensures_bind (ensures_mono (fun x w' hx => ?_) (plain_ensures hp h))
  cases x with
  | ok a => exact hk a w' hx
  | error e => exact herr e w'

theorem Balanced.closes {k : α → Prg β} {a : α} (h : Balanced t [] w.db)
    (hk : ∀ w', Balanced t [] w'.db → texts.Ensures t (k a) Q w') : Closes texts t k Q (.ok a) w := by
  intro w1 hev hL hI _ _
  have hcommit : Texts (w1.db.commit t) := (h.evolves hev.db hL hI).commit hI
  exact ⟨hcommit, hk _ (balanced_idle hcommit.linked Engine.commit_pending_self)⟩

theorem session_ensures {body : Int → Prg α} {k : α → Prg β} (h : Balanced t [] w.db) (herr : ∀ e w', Q (.error e) w')
    (hk : ∀ a w', Balanced t [] w'.db → texts.Ensures t (k a) Q w')
    (hbody : ∀ n w', Balanced t [] w'.db → texts.Ensures t (body n) (fun x w'' => match x with
      | .ok _ => Balanced t [] w''.db
      | .error _ => True) w') : texts.Ensures t (tenantSession body >>= k) Q w := by
  refine Session.ensures_tenantSession texts_historic fun w1 n hev hL hI => ensures_mono (fun x w2 hx => ?_)
    (hbody n ⟨{ w1.db with started := Function.update w1.db.started t n }, w1.out⟩
      ((h.evolves hev.db hL hI).congr rfl rfl rfl))
  cases x with
  | ok a => exact Balanced.closes hx (hk a)
  | error e => exact fun w3 _ _ => herr e _

theorem cancelPending_ensures {k : Nat → Prg β} (h : Balanced t (i :: X) w.db) (herr : ∀ e w', Q (.error e) w')
    (hk : ∀ n w', Balanced t X w'.db → texts.Ensures t (k n) Q w') :
    texts.Ensures t (Scheduled.cancelPendingForEntry i >>= k) Q w := by
  have hC := texts_historic
  -- the texts still queued about the entry are among the keys left
  let Φ : List Nat → World schema outside → Prop := fun is w => Balanced t (i :: X) w.db ∧
    ∀ k (m : ScheduledMessage), w.db.view t .messages k = some m → Queued m i → k ∈ is
  refine ensures_first (Session.ensures_select hC fun w1 hev1 hL1 hI1 _ _ => ensures_first ?_)
  have h1 := h.evolves hev1.db hL1 hI1
  have hrule := Session.ensures_updateLeft (C := texts) (t := t) (Q := Q) (e := Err.integrity) (T := Table.messages)
    (g := MessageChange.cancelPendingForEntry i) (k := fun rows => k rows.length) hC Φ
    (fun is w w1 hev hL hI hΦ => ⟨hΦ.1.evolves hev.db hL hI, fun k m hm hq =>
      hΦ.2 k m (queued_before hL hev.db hI.announced (hΦ.1.held i List.mem_cons_self) hm hq) hq⟩)
    (fun j is w hΦ hL hnone => ⟨hΦ.1, fun k m hm hq => ?_⟩)
    (fun j is w v r hΦ hL hv hr => ⟨hΦ.1.text fun l hq => .inl (by rw [apply_text hr hq]; exact hv), fun k m hm hq => ?_⟩)
    (fun is w hΦ => herr _ w) (fun rs w hΦ => hk _ w ?_)
  · refine hrule _ _ [] ⟨h1.congr rfl rfl rfl, fun k m hm hq => ?_⟩
    have hid : m.id = k := (hL1.view_consistent t).id Table.messages k m hm
    have hmem : m ∈ (⟨w1.db.view t, w1.db.next⟩ : Snapshot schema).all Table.messages :=
      Snapshot.mem_all.2 ⟨k, hL1.view_lt hm, hm⟩
    refine List.mem_map.2 ⟨m, List.mem_filter.2 ⟨hmem, ?_⟩, hid⟩
    simp [hq.pending, hq.subject]
  · rcases List.mem_cons.1 (hΦ.2 k m hm hq) with rfl | hmem
    · rw [hm] at hnone
      simp [applyChange, MessageChange.apply, hq.pending, hq.subject] at hnone
    · exact hmem
  · by_cases hkj : k = j
    · subst hkj
      rw [Engine.write_view_self] at hm
      cases hm
      have hr' : MessageChange.apply v (.cancelPendingForEntry i) = some r := hr
      simp only [MessageChange.apply] at hr'
      split at hr'
      · cases hr'
        have := hq.pending
        simp [ScheduledMessage.pending] at this
      · cases hr'
    · rw [Engine.write_view_row fun hc => hkj hc.2] at hm
      exact (List.mem_cons.1 (hΦ.2 k m hm hq)).resolve_left hkj
  · refine ⟨fun k m j hm hq hj => ?_, hΦ.1.own, fun j hj => hΦ.1.held j (List.mem_cons_of_mem _ hj)⟩
    refine hΦ.1.backed k m j hm hq fun hmem => (List.mem_cons.1 hmem).elim (fun hji => ?_) hj
    subst hji
    exact absurd (hΦ.2 k m hm hq) List.not_mem_nil

theorem cancelEach_ensures {k : Unit → Prg β} (herr : ∀ e w', Q (.error e) w')
    (hk : ∀ w', Balanced t [] w'.db → texts.Ensures t (k ()) Q w') :
    ∀ (ids : List Nat) (w : World schema outside), Balanced t ids w.db →
      texts.Ensures t (WaitlistCascade.cancelEach ids >>= k) Q w
  | [], w, h => hk w h
  | _ :: ids, _, h => ensures_first (cancelPending_ensures h herr fun _ w' h' => cancelEach_ensures herr hk ids w' h')

/-! ## The statements that move an entry -/

theorem closeOffer_ensures {ids : List Nat} {status : Closing} {k : List Nat → Prg β} (h : Balanced t X w.db)
    (herr : ∀ e w', Q (.error e) w')
    (hk : ∀ closed w', Balanced t (X ++ closed) w'.db → texts.Ensures t (k closed) Q w') :
    texts.Ensures t (Entries.closeOffer ids status >>= k) Q w := by
  refine ensures_first (Session.ensures_updateRows (T := Table.entries) texts_historic
    (fun rows w => Balanced t (X ++ rows.map WaitlistEntry.id) w.db) (fun rows w w1 hev hL hI hΦ => hΦ.evolves hev.db hL hI)
    (fun rows w i v r hΦ hL hv hr => ?_) (fun _ _ _ => herr _ _) (by simpa using h) fun rows w1 hΦ => hk _ w1 hΦ)
  have hid : WaitlistEntry.id r = i := (schema.id_apply Table.entries _ v r hr).trans
    ((hL.view_consistent t).id Table.entries i v hv)
  refine (hΦ.move (i := i) (r := r)).perm fun j => ?_
  rw [List.map_append, List.map_singleton, hid]
  simp only [List.mem_cons, List.mem_append, List.not_mem_nil, or_false]
  exact ⟨fun h => h.elim (fun h => .inr (.inr h)) fun h => h.elim .inl fun h => .inr (.inl h),
    fun h => h.elim (fun h => .inr (.inl h)) fun h => h.elim (fun h => .inr (.inr h)) .inl⟩

theorem cancel_ensures {k : Option WaitlistEntry → Prg β} (h : Balanced t [] w.db) (herr : ∀ e w', Q (.error e) w')
    (hnone : ∀ w', Balanced t [] w'.db → texts.Ensures t (k none) Q w')
    (hsome : ∀ (r : WaitlistEntry) w', r.id = i → Balanced t [i] w'.db → texts.Ensures t (k (some r)) Q w') :
    texts.Ensures t (Entries.cancel i >>= k) Q w := by
  refine ensures_first (Session.ensures_update texts_historic (fun w1 _ _ _ => herr _ _)
    (fun w1 hev hL hI _ => hnone w1 (h.evolves hev.db hL hI)) fun w1 v r hev hL hv hr _ hL' hI => ?_)
  have h1 : Balanced t [i] (w1.db.write t Table.entries i r) :=
    (h.evolves hev.db hL (Texts.congr hI rfl rfl)).move
  have hid : WaitlistEntry.id r = i := hL'.own_id t Table.entries i r Engine.write_pending_self
  have hlive : WaitlistEntry.deletedAt r = none := by
    have hr' : EntryChange.apply v .cancel = some r := hr
    simp only [EntryChange.apply] at hr'
    split at hr'
    · rename_i hc
      cases hr'
      simp only [WaitlistEntry.active, Bool.decide_and, Bool.and_eq_true, decide_eq_true_eq] at hc
      exact hc.1
    · cases hr'
  refine Session.ensures_select texts_historic fun w2 hev2 hL2 hI2 _ _ => ?_
  have hview : w2.db.view t Table.entries (WaitlistEntry.id r) = some r := by
    rw [hid]
    refine Engine.view_pending ?_
    rw [hev2.db.pending]
    exact Engine.write_pending_self
  dsimp only
  rw [hview, Option.filter_some, if_pos (by simp [hlive])]
  exact hsome r _ hid ((h1.evolves hev2.db hL2 hI2).congr rfl rfl rfl)

variable {now : Int} {cfg : Config}

theorem apply_waiting {startsAt expiresAt : Int} {d : Boutique.Digest} {v r : WaitlistEntry}
    (h : EntryChange.apply v (.offer now startsAt expiresAt d) = some r) :
    v.offered = false ∧ r.offered = true ∧ r.offerTokenHash = some d := by
  simp only [EntryChange.apply] at h
  split at h
  · rename_i hc
    have hstatus := waiting_status hc
    cases h
    simp only [WaitlistEntry.waiting, Bool.decide_and, Bool.and_eq_true, decide_eq_true_eq] at hc
    exact ⟨by simp [WaitlistEntry.offered, hstatus], by simp [WaitlistEntry.offered, hc.1], rfl⟩
  · cases h

theorem offerOne_texts {p : Int × Nat} {k : Bool → Prg β} (h : Balanced t [] w.db) (herr : ∀ e w', Q (.error e) w')
    (hk : ∀ made w', Balanced t [] w'.db → texts.Ensures t (k made) Q w') :
    texts.Ensures t (WaitlistCascade.offerOne cfg now p >>= k) Q w := by
  refine ensures_first (plain_bind (only_select (among_read _) _) h herr fun oldest w1 h1 => ?_)
  split
  · exact hk false w1 h1
  rename_i entry
  refine ensures_first (plain_bind (within_daySlots _ _ _) h1 herr fun slots w2 h2 => ensures_first
    (plain_bind (only_select (among_read _) _) h2 herr fun held w3 h3 => ?_))
  split
  · exact hk false w3 h3
  refine ensures_first (plain_bind (within_ask _ rfl) h3 herr fun token w4 h4 => ensures_first (ensures_first
    (Session.ensures_update texts_historic (fun _ _ _ _ => herr _ _)
      (fun w5 hev hL hI _ => hk false w5 (h4.evolves hev.db hL hI)) fun w5 v r hev hL hv hr _ hL' hI => ?_)))
  obtain ⟨hwas, hoffered, hhash⟩ := apply_waiting hr
  have h5 : Balanced t [] (w5.db.write t Table.entries entry.id r) :=
    (h4.evolves hev.db hL (Texts.congr hI rfl rfl)).unspoken fun u hu => by
      rw [hv] at hu
      cases hu
      exact hwas
  refine ensures_first (ensures_first (ensures_bind ?_))
  rw [Ensures, Prog.wp_attempt]
  refine ensures_last (Session.ensures_insert texts_historic (fun w6 n hev6 hL6 hI6 => ?_) fun w6 hev6 hL6 _ hI6 => ?_)
  · exact hk false _ ((h5.evolves hev6.db hL6 hI6).congr rfl rfl rfl)
  · have h6 : Balanced t [] ({ w6.db with next := w6.db.next + 1 } : Engine schema) :=
      (h5.evolves hev6.db hL6 (Texts.congr hI6 rfl rfl)).congr rfl rfl rfl
    refine hk true _ (h6.text fun i hq => .inr ?_)
    have hsubject : Subject.entry entry.id = .entry i := hq.subject
    cases hsubject
    refine ⟨r, ?_, hoffered, token, rfl, hhash⟩
    rw [hev6.db.pending]
    exact Engine.write_pending_self

theorem offerEach_texts {k : Nat → Prg β} (herr : ∀ e w', Q (.error e) w')
    (hk : ∀ n w', Balanced t [] w'.db → texts.Ensures t (k n) Q w') :
    ∀ (pairs : List (Int × Nat)) (offered : Nat) (w : World schema outside), Balanced t [] w.db →
      texts.Ensures t (WaitlistCascade.offerEach cfg now pairs offered >>= k) Q w
  | [], offered, w, h => hk offered w h
  | _ :: pairs, _, _, h => ensures_first (offerOne_texts h herr fun _ w' h' =>
      offerEach_texts herr hk pairs _ w' h')

theorem claimEntry_texts {k : Unit → Prg β} (h : Balanced t [] w.db) (herr : ∀ e w', Q (.error e) w')
    (hk : ∀ w', Balanced t [i] w'.db → texts.Ensures t (k ()) Q w') :
    texts.Ensures t (WaitlistOfferService.claimEntry i now >>= k) Q w := by
  refine ensures_first (ensures_first (Session.ensures_update texts_historic (fun _ _ _ _ => herr _ _)
    (fun w1 hev hL hI _ => ?_) fun w1 v r hev hL hv hr _ hL' hI => ?_))
  · exact ensures_first (plain_bind (only_select (among_read _) _) (h.evolves hev.db hL hI) herr fun _ w2 _ => herr _ w2)
  · exact hk _ ((h.evolves hev.db hL (Texts.congr hI rfl rfl)).move)

/-! ## The requests -/

theorem expire_texts {k : CascadeResult → Prg β} (h : Balanced t [] w.db) (herr : ∀ e w', Q (.error e) w')
    (hk : ∀ r w', Balanced t [] w'.db → texts.Ensures t (k r) Q w') :
    texts.Ensures t (WaitlistCascade.expire now >>= k) Q w :=
  ensures_first (plain_bind (only_select (among_read _) _) h herr fun _ _ h1 => ensures_first
    (plain_bind (within_splitDue _ _) h1 herr fun _ _ h2 => ensures_first (closeOffer_ensures h2 herr
      fun _ _ h3 => ensures_first (closeOffer_ensures h3 herr fun _ _ h4 => ensures_first
        (cancelEach_ensures herr (fun w' h' => hk _ w' h') _ _ h4)))))

theorem tick_texts {k : CascadeResult → Prg β} (h : Balanced t [] w.db) (herr : ∀ e w', Q (.error e) w')
    (hk : ∀ r w', Balanced t [] w'.db → texts.Ensures t (k r) Q w') :
    texts.Ensures t (WaitlistCascade.run cfg >>= k) Q w := by
  refine ensures_first (plain_bind within_now h herr fun now w1 h1 => session_ensures h1 herr hk fun n w2 h2 => ?_)
  refine expire_texts h2 (fun _ _ => trivial) fun closed w3 h3 => ?_
  split
  · exact h3
  · refine ensures_first (plain_bind (within_ask _ rfl) h3 (fun _ _ => trivial) fun cursor w4 h4 => ensures_first
      (plain_bind (only_select (among_read _) _) h4 (fun _ _ => trivial) fun pairs w5 h5 => ensures_first
        (plain_bind (only_ask (among_kind rfl (by decide))) h5 (fun _ _ => trivial) fun _ w6 h6 => ?_)))
    refine offerEach_texts (fun _ _ => trivial) (fun made w7 h7 => ?_) pairs 0 w6 h6
    exact h7

theorem cancelEntry_texts {entryId actorId : Nat} {k : Response → Prg β} (h : Balanced t [] w.db)
    (herr : ∀ e w', Q (.error e) w') (hk : ∀ r w', Balanced t [] w'.db → texts.Ensures t (k r) Q w') :
    texts.Ensures t (WaitlistService.cancelEntry entryId actorId >>= k) Q w := by
  refine session_ensures h herr hk fun n w1 h1 => cancel_ensures h1 (fun _ _ => trivial) (fun w2 h2 => ?_)
    fun r w2 hid h2 => ?_
  · exact plain_bind (only_select (among_read _) _) h2 (fun _ _ => trivial) fun existing w3 h3 =>
      Session.ensures_orRaise (fun _ => trivial) fun _ _ => h3
  · subst hid
    exact cancelPending_ensures h2 (fun _ _ => trivial) fun _ w3 h3 =>
      plain_bind (only_insert (among_kind rfl (by decide)) _) h3 (fun _ _ => trivial) fun _ _ h4 => h4

theorem decline_texts {token : Nat} {k : Response → Prg β} (h : Balanced t [] w.db)
    (herr : ∀ e w', Q (.error e) w') (hk : ∀ r w', Balanced t [] w'.db → texts.Ensures t (k r) Q w') :
    texts.Ensures t (WaitlistOfferService.decline token >>= k) Q w := by
  refine ensures_first (plain_bind within_now h herr fun now w1 h1 => session_ensures h1 herr hk fun n w2 h2 =>
    plain_bind (within_resolve token) h2 (fun _ _ => trivial) fun entry w3 h3 =>
      cancel_ensures h3 (fun _ _ => trivial) (fun _ h4 => h4) fun r w4 _ h4 =>
        cancelPending_ensures h4 (fun _ _ => trivial) fun _ _ h5 => h5)

theorem claim_texts {token : Nat} {name : String} {termsVersion : Nat} {k : Response → Prg β} (h : Balanced t [] w.db)
    (herr : ∀ e w', Q (.error e) w') (hk : ∀ r w', Balanced t [] w'.db → texts.Ensures t (k r) Q w') :
    texts.Ensures t (WaitlistOfferService.claim cfg token name termsVersion >>= k) Q w := by
  unfold WaitlistOfferService.claim
  split
  · exact herr _ _
  refine ensures_first (plain_bind within_now h herr fun now w1 h1 => session_ensures h1 herr hk fun n w2 h2 => ?_)
  refine plain_bind (within_resolve token) h2 (fun _ _ => trivial) fun entry w3 h3 =>
    plain_bind (within_ask _ rfl) h3 (fun _ _ => trivial) fun terms w4 h4 =>
    Session.ensures_raiseIf (fun _ => trivial) fun _ => plain_bind (within_ask _ rfl) h4 (fun _ _ => trivial) fun listed w5 h5 =>
    Session.ensures_raiseIf (fun _ => trivial) fun _ => Session.ensures_orRaise (fun _ => trivial) fun startsAt _ =>
    claimEntry_texts h5 (fun _ _ => trivial) fun w6 h6 => cancelPending_ensures h6 (fun _ _ => trivial) fun _ w7 h7 => ?_
  exact plain_bind (within_ask _ rfl) h7 (fun _ _ => trivial) fun _ _ h8 =>
    plain_bind (within_upsert (by decide) _ _) h8 (fun _ _ => trivial) fun _ _ h9 =>
    plain_bind (within_ask _ rfl) h9 (fun _ _ => trivial) fun _ _ h =>
    plain_bind (within_claimSeat (by decide) (by decide) _ _ _ _ _ _ _ _) h (fun _ _ => trivial) fun _ _ h => h

theorem join_texts {phone verificationToken : String} {day : Int} {typeId : Nat} {k : Response → Prg β}
    (h : Balanced t [] w.db) (herr : ∀ e w', Q (.error e) w')
    (hk : ∀ r w', Balanced t [] w'.db → texts.Ensures t (k r) Q w') :
    texts.Ensures t (WaitlistService.join cfg phone verificationToken day typeId >>= k) Q w := by
  refine ensures_first (plain_bind within_now h herr fun now w1 h1 => ensures_first
    (Session.ensures_raiseIf (fun _ => herr _ _) fun _ => ensures_first (plain_bind (within_ask _ rfl) h1 herr fun _ w2 h2 =>
      ensures_first (Session.ensures_raiseIf (fun _ => herr _ _) fun _ => session_ensures h2 herr hk fun n w3 h3 => ?_))))
  refine ensures_mono (fun x w' hx => ?_) (plain_ensures (within_joinBody (by decide) phone verificationToken day typeId) h3)
  cases x with
  | ok a => exact hx
  | error e => trivial

theorem drain_texts {k : Response → Prg β} (h : Balanced t [] w.db) (herr : ∀ e w', Q (.error e) w')
    (hk : ∀ r w', Balanced t [] w'.db → texts.Ensures t (k r) Q w') :
    texts.Ensures t (BookingComms.drainDue >>= k) Q w := by
  refine ensures_first (plain_bind within_now h herr fun now w1 h1 => session_ensures h1 herr hk fun n w2 h2 =>
    ensures_mono (fun x w' hx => ?_) (plain_ensures (within_drainBody (by decide) now) h2))
  cases x with
  | ok a => exact hx
  | error e => trivial

theorem request_texts (req : Request) (h : Balanced t [] w.db) :
    texts.Ensures t (req.code cfg) (fun _ _ => True) w := by
  have herr : ∀ (e : Err) (w' : World schema outside), True := fun _ _ => trivial
  cases req with
  | tick => exact tick_texts h herr fun _ _ _ => trivial
  | join phone token day typeId => exact ensures_last (join_texts h herr fun _ _ _ => trivial)
  | cancelEntry entryId actorId => exact ensures_last (cancelEntry_texts h herr fun _ _ _ => trivial)
  | decline token => exact ensures_last (decline_texts h herr fun _ _ _ => trivial)
  | claim token name termsVersion => exact ensures_last (claim_texts h herr fun _ _ _ => trivial)
  | drain => exact ensures_last (drain_texts h herr fun _ _ _ => trivial)

end Plain

end Waitlist

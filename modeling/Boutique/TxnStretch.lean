import Boutique.TxnSession
/-!
# TxnStretch — what a thread has in flight, between two of its writes

A stretch of a transaction that spares some tables keeps whatever is said of the thread's rows of them; the rules of a
write and of a commit over a table say which row was found under the one written.
-/
namespace Txn

open Contract

variable {S : Schema} {V : Service} {ε α β : Type} {D : Cast S} {C : Contract D V ε} {calm : V.Ask → Bool} {t : Tid}
  {w w' : World S V} {Q : Except ε β → World S V → Prop}

/-- Operations inside a transaction that write none of the tables `K`. -/
structure Sparing (K : S.Table → Prop) (o : Op S V) : Prop where
  inside : o.Inside
  update : ∀ T j g, o = .sql (.update T j g) → ¬K T
  insert : ∀ T r, o = .sql (.insert T r) → ¬K T

variable {K : S.Table → Prop} {T : S.Table} {i : Nat} {p : Code S V ε α}

theorem Sparing.not_commit {o : Op S V} (h : Sparing K o) : o ≠ .sql .commit := by
  rintro rfl
  exact h.inside

theorem Sparing.pending {o : Op S V} {i : V.Input} {x : o.Res} (h : Sparing K o) (he : w.exec t o i = some (x, w'))
    {T : S.Table} (hT : K T) : w'.db.pending t T = w.db.pending t T :=
  World.exec_pending h.inside (fun j g hc => h.update T j g hc hT) (fun r hc => h.insert T r hc hT) he

namespace Engine

variable {e : Engine S} {T : S.Table} {W : Work (S.Row T)} {i : Nat} {r : S.Row T}

theorem AtWork.entry (h : e.AtWork t T W) (hw : (e.entry t).writes T i = some r) :
    ∃ v, W = some (i, v, r) ∧ (e.entry t).before T i = v := by
  have hw : e.pending t T i = some r := hw
  rw [h.pending] at hw
  rcases W with _ | ⟨j, v, q⟩
  · cases hw
  · by_cases hj : i = j
    · subst hj
      have hq : q = r := by simpa [Work.overlay] using hw
      subst hq
      exact ⟨v, rfl, h.found i v q rfl⟩
    · simp [Work.overlay, hj] at hw

theorem AtWork.insertBeside {T' : S.Table} {r : S.Row T'} (h : e.AtWork t T W) (hT : T ≠ T') :
    (Session.inserted e t T' r).AtWork t T W :=
  (h.congr rfl rfl : ({ e with next := e.next + 1 } : Engine S).AtWork t T W).beside hT

theorem AtWork.insert (h : e.AtWork t T none) (hL : e.Lawful D) {r : S.Row T} :
    (Session.inserted e t T r).AtWork t T (some (e.next, none, S.stamp T e.next (e.started t) r)) := by
  have hfresh : ({ e with next := e.next + 1 } : Engine S).committed T e.next = none :=
    hL.committed_none_of_le (Nat.le_refl _) T
  have hwrote := (h.congr rfl rfl : ({ e with next := e.next + 1 } : Engine S).AtWork t T none).write
    (i := e.next) (r := S.stamp T e.next (e.started t) r)
  rwa [hfresh] at hwrote

theorem inserted_pending {T' : S.Table} {r : S.Row T} {r' : S.Row T'}
    (h : (Session.inserted e t T r).pending t T' i = some r') :
    ⟨T', r'⟩ = (⟨T, S.stamp T e.next (e.started t) r⟩ : Σ T, S.Row T) ∨ e.pending t T' i = some r' := by
  rcases write_pending_cases h with ⟨-, heq, -⟩ | h
  · exact .inl heq
  · exact .inr h

/-- **No commit from version `m` on changes `f` of a row**, where it writes over one. -/
def Untouched {β : Type} (f : S.Row T → β) (e : Engine S) (m i : Nat) : Prop :=
  ∀ n c, m ≤ n → e.log[n]? = some c → ∀ v r, c.before T i = some v → c.writes T i = some r → f r = f v

theorem Lawful.kept_since {β : Type} {f : S.Row T → β} {m : Nat} {u v : S.Row T} (hL : e.Lawful D) (hm : m ≤ e.log.length)
    (hv : e.version m T i = some v) (hu : e.committed T i = some u) (h : Untouched f e m i) : f u = f v := by
  by_contra hne
  obtain ⟨k, c, hk, hlt, hc, hnot, x, hx, hmoved⟩ := hL.version_crossing (T := T) (i := i)
    (P := fun row => ∃ x, row = some x ∧ f x ≠ f v) hm (Nat.le_refl _)
    (by
      rintro ⟨x, hx, hmoved⟩
      rw [hv] at hx
      cases hx
      exact hmoved rfl)
    (by
      rw [Engine.version_length]
      exact ⟨u, hu, hne⟩)
  have hrow := hL.version_becomes (Cast.plays_common _) hk hlt.le T i
  rw [hv] at hrow
  obtain ⟨y, hy, -⟩ := hrow.some_left
  have hbefore : c.before T i = some y := by
    rw [← hy]
    simp [Engine.version, hc]
  have hsame : f y = f v := by
    by_contra hother
    exact hnot ⟨y, hbefore, hother⟩
  cases hw : c.writes T i with
  | none =>
    refine hnot ⟨x, ?_, hmoved⟩
    rw [← hx, Commit.after, Rows.over_none hw]
  | some z =>
    have hzx : z = x := by
      rw [Commit.after, Rows.over_some hw] at hx
      exact Option.some.inj hx
    subst hzx
    exact hmoved ((h k c hk hc y z hbefore hw).trans hsame)

theorem version_seen {e' : Engine S} (hidle : e.pending t = fun _ _ => none) (hev : (e.look t).Evolves D t e') :
    e'.version (e'.seen t) = e.view t := by
  have hseen : e'.seen t = e.log.length := by rw [hev.seen, look_seen]
  rw [hseen, view_idle hidle]
  exact (hev.version _ (Nat.le_refl _)).trans (version_length (e := e.look t))

/-- **A row read, and the row found later**: what nobody has changed in between is the same. -/
theorem Lawful.kept_read {β : Type} {f : S.Row T → β} {e' : Engine S} {u : S.Row T} (hL : e'.Lawful D)
    (hidle : e.pending t = fun _ _ => none) (hev : (e.look t).Evolves D t e') (hu : e'.committed T i = some u)
    (hthere : e'.version (e'.seen t) T i ≠ none) (h : Untouched f e' (e'.seen t) i) :
    ∃ v, e.view t T i = some v ∧ f v = f u := by
  obtain ⟨v, hv⟩ := Option.ne_none_iff_exists'.1 hthere
  have hkept := hL.kept_since (by rw [hev.seen, look_seen]; exact hev.log_le) hv hu h
  rw [version_seen hidle hev] at hv
  exact ⟨v, hv, hkept.symm⟩

end Engine

/-! ## What lasts -/

/-- **A statement about the log and its versions lasts**: the log only grows, and the versions it has are kept. -/
def Lasts (Ψ : Engine S → Prop) : Prop :=
  ∀ e e', e.log <+: e'.log → (∀ m, m ≤ e.log.length → e'.version m = e.version m) → Ψ e → Ψ e'

namespace Lasts

variable {Ψ : Engine S → Prop} {e e' : Engine S} (h : Lasts Ψ)
include h

theorem evolves (hev : e.Evolves D t e') (hΨ : Ψ e) : Ψ e' := by
  obtain ⟨l, hl, -⟩ := hev.log
  exact h e e' (hl ▸ List.prefix_append _ _) hev.version hΨ

theorem congr (hl : e'.log = e.log) (hc : e'.committed = e.committed) (hΨ : Ψ e) : Ψ e' :=
  h e e' (hl ▸ List.prefix_rfl) (fun m _ => Engine.version_congr hl hc m) hΨ

theorem commit (hΨ : Ψ e) : Ψ (e.commit t) :=
  h e _ (List.prefix_append _ _) (fun _ hm => Engine.commit_version_le hm) hΨ

end Lasts

theorem entry_stays {α : Type} {l l' : List α} {m : Nat} {c : α} (hl : l <+: l') (h : l[m]? = some c) : l'[m]? = some c := by
  obtain ⟨k, rfl⟩ := hl
  rw [List.getElem?_append_left (List.getElem?_eq_some_iff.1 h).1]
  exact h

theorem lasts_past (L : Nat) : Lasts fun e : Engine S => L ≤ e.log.length :=
  fun _ _ hl _ h => Nat.le_trans h hl.length_le

/-- **From version `L` on, a row was seen to be `P`.** -/
def Saw (T : S.Table) (i L : Nat) (P : Option (S.Row T) → Prop) (e : Engine S) : Prop :=
  ∃ m, L ≤ m ∧ m ≤ e.log.length ∧ P (e.version m T i)

theorem lasts_saw {L : Nat} {P : Option (S.Row T) → Prop} : Lasts (Saw T i L P) := by
  rintro e e' hl hv ⟨m, hLm, hm, hP⟩
  exact ⟨m, hLm, Nat.le_trans hm hl.length_le, by rwa [hv m hm]⟩

theorem saw_committed {L : Nat} {P : Option (S.Row T) → Prop} {e : Engine S} (hL : L ≤ e.log.length)
    (h : P (e.committed T i)) : Saw T i L P e :=
  ⟨e.log.length, hL, Nat.le_refl _, by rwa [Engine.version_length]⟩

/-! ## What a thread has itself committed -/

/-- **Each commit of thread `u`**, of those that made the versions after `m` and up to `n`, is a `P`. -/
def OwnCommits (P : Commit S → Prop) (u : Tid) (m n : Nat) (e : Engine S) : Prop :=
  ∀ k c, m ≤ k → k < n → e.log[k]? = some c → c.by_ = u → P c

section OwnCommits

variable {P : Commit S → Prop} {e e' : Engine S} {m n n' : Nat} {u : Tid}

theorem own_commits_none : OwnCommits P u n n e := fun _ _ hnk hkn _ _ => absurd hnk (Nat.not_le_of_lt hkn)

theorem OwnCommits.stays (h : OwnCommits P u m n e) (hl : e.log <+: e'.log) (hn : n ≤ e.log.length) : OwnCommits P u m n e' := by
  intro k c hmk hkn hc hu
  obtain ⟨l, hl⟩ := hl
  rw [← hl, List.getElem?_append_left (Nat.lt_of_lt_of_le hkn hn)] at hc
  exact h k c hmk hkn hc hu

theorem OwnCommits.append (h : OwnCommits P u m n e) (h' : OwnCommits P u n n' e) : OwnCommits P u m n' e := by
  intro k c hmk hkn hc hu
  rcases Nat.lt_or_ge k n with hlt | hge
  · exact h k c hmk hlt hc hu
  · exact h' k c hge hkn hc hu

theorem Engine.Evolves.own_commits (hev : e.Evolves D t e') : OwnCommits P t e.log.length e'.log.length e' := by
  intro k c hmk _ hc hu
  obtain ⟨l, hl, hothers⟩ := hev.log
  rw [hl, List.getElem?_append_right hmk] at hc
  exact absurd hu (hothers c (List.mem_of_getElem? hc)).1

theorem commit_own_commits (h : P (e.entry t)) : OwnCommits P t e.log.length (e.commit t).log.length (e.commit t) := by
  intro k c hmk hkn hc _
  have hk : k = e.log.length := by
    simp only [Engine.commit_log, List.length_append, List.length_singleton] at hkn
    omega
  subst hk
  rw [Engine.commit_log, List.getElem?_concat_length] at hc
  cases hc
  exact h

end OwnCommits

/-! ## What a program ends with -/

/-- **The program ends with an `R`**, whatever it is answered. -/
def Ends (R : Except ε α → Prop) : Code S V ε α → Prop
  | .ret a => R (.ok a)
  | .raise e => R (.error e)
  | .call _ k => ∀ x, Ends R (k x)

/-- **The program raises errors of `E` only.** -/
abbrev Raising (E : ε → Prop) (p : Code S V ε α) : Prop := Ends (fun x => ∀ e, x = .error e → E e) p

section Ends

variable {E : ε → Prop}

variable {R : Except ε α → Prop} {f : α → Code S V ε β}

theorem ends_mono {R' : Except ε α → Prop} (hR : ∀ x, R x → R' x) (h : Ends R p) : Ends R' p := by
  induction p with
  | ret a => exact hR _ h
  | raise e => exact hR _ h
  | call o k ih => exact fun x => ih x (h x)

theorem ends_bind {R' : Except ε β → Prop} (hp : Ends R p) (hf : ∀ a, R (.ok a) → Ends R' (f a))
    (he : ∀ e, R (.error e) → R' (.error e)) : Ends R' (p >>= f) := by
  induction p with
  | ret a => exact hf a hp
  | raise e => exact he e hp
  | call o k ih => exact fun x => ih x (hp x)

theorem ends_attempt {ε' : Type} {R : Except ε' (Except ε α) → Prop} (hp : Ends (fun x => R (.ok x)) p) :
    Ends R (p.attempt : Code S V ε' (Except ε α)) := by
  induction p with
  | ret a => exact hp
  | raise e => exact hp
  | call o k ih => exact fun x => ih x (hp x)

theorem ends_tenantSession {body : Int → Code S V ε α} (h : ∀ n, Ends R (body n)) :
    Ends R (Session.tenantSession body : Code S V ε α) := by
  refine fun n => ends_bind (R := fun x => ∃ y, x = .ok y ∧ R y) (ends_attempt (ends_mono (fun x hx => ⟨x, rfl, hx⟩) (h n)))
    (fun x hx => ?_) fun e he => ?_
  · obtain ⟨y, hy, hR⟩ := hx
    cases hy
    cases x with
    | ok a => exact fun _ => hR
    | error e => exact fun _ => hR
  · obtain ⟨y, hy, -⟩ := he
    cases hy

theorem raising_any (p : Code S V ε α) : Raising (fun _ => True) p := by
  induction p with
  | ret a => exact fun _ _ => trivial
  | raise e => exact fun _ _ => trivial
  | call o k ih => exact fun x => ih x

theorem raising_bind (hp : Raising E p) (hf : ∀ a, Raising E (f a)) : Raising E (p >>= f) :=
  ends_bind hp (fun a _ => hf a) fun e he e' h => by
    cases h
    exact he e rfl

theorem raising_raise {e : ε} (h : E e) : Raising E (.raise e : Code S V ε α) := fun e' he => by
  cases he
  exact h

theorem raising_ret (a : α) : Raising E (.ret a : Code S V ε α) := nofun

theorem raising_select (q : S.Query) (f : Snapshot S → α) : Raising E (Session.select q f : Code S V ε α) :=
  fun _ => raising_ret _

theorem raising_now : Raising E (Session.now : Code S V ε Int) := fun _ => raising_ret _

theorem raising_ask (q : V.Ask) : Raising E (Session.ask q : Code S V ε (V.Ans q)) := fun _ => raising_ret _

theorem raising_raiseIf {e : ε} (b : Bool) (h : E e) : Raising E (Session.raiseIf b e : Code S V ε Unit) := by
  cases b with
  | true => exact raising_raise h
  | false => exact raising_ret _

theorem raising_orRaise {e : ε} (x : Option α) (h : E e) : Raising E (Session.orRaise x e : Code S V ε α) := by
  cases x with
  | none => exact raising_raise h
  | some a => exact raising_ret _

theorem raising_update {e : ε} (h : E e) (T : S.Table) (i : Nat) (g : S.Change T) :
    Raising E (Session.update e T i g : Code S V ε (Option (S.Row T))) := by
  intro x
  cases x with
  | ok r => exact raising_ret _
  | error _ => exact raising_raise h

theorem raising_insert {e : ε} (h : E e) (T : S.Table) (r : S.Row T) :
    Raising E (Session.insert e T r : Code S V ε (S.Row T)) := by
  intro x
  cases x with
  | ok r => exact raising_ret _
  | error _ => exact raising_raise h

theorem ensures_ends {R : Except ε β → Prop} {p : Code S V ε β} (hp : Ends R p) (h : C.Ensures t p Q w) :
    C.Ensures t p (fun x w' => R x ∧ Q x w') w := by
  induction p generalizing w with
  | ret a => exact ⟨hp, h⟩
  | raise e => exact ⟨hp, h⟩
  | call o k ih =>
    intro w1 hr hi i r w2 he hA
    obtain ⟨hm, hI, hk⟩ := h w1 hr hi i r w2 he hA
    exact ⟨hm, hI, ih r (hp r) hk⟩

end Ends

namespace Session

variable (hC : C.Historic fun _ => true)
include hC

variable {k : α → Code S V ε β}

/-- **A stretch that spares the tables `K`** keeps what is said of the thread's rows of them. -/
theorem ensures_sparing {K : S.Table → Prop} (Φ : Engine S → Prop)
    (hevolve : ∀ e e', e.Evolves D t e' → e'.Lawful D → Φ e → Φ e')
    (hsame : ∀ e e', e'.log = e.log → e'.committed = e.committed → (∀ T, K T → e'.pending t T = e.pending t T) → Φ e → Φ e')
    (hp : Only (Sparing K) p) (h : Φ w.db) (herr : ∀ e w', Φ w'.db → Q (.error e) w')
    (hk : ∀ a w', Φ w'.db → C.Ensures t (k a) Q w') : C.Ensures t (p >>= k) Q w := by
  refine ensures_bind (ensures_mono (fun x w' hx => ?_) (ensures_of_footprint (fun _ w => Φ w.db)
    (fun _ _ _ hev hL _ h => hevolve _ _ hev.db hL h) (fun l o w i r w' ho hL hI hΦ he hL' hA => ?_) (hp false) h))
  · obtain ⟨-, -, hx⟩ := hx
    cases x with
    | ok a => exact hk a w' hx
    | error e => exact herr e w' hx
  · have hlog := World.exec_log ho.not_commit he
    exact ⟨hC.exec ho.not_commit (fun _ _ => rfl) he hI,
      hsame _ _ hlog.1 hlog.2 (fun T hT => ho.pending he hT) hΦ⟩

theorem ensures_still {W : Work (S.Row T)} {Ψ : Engine S → Prop} {E : ε → Prop} (hΨ : Lasts Ψ)
    (hp : Only (Sparing fun T' => T' = T) p) (hE : Raising E p) (hw : w.db.AtWork t T W) (h : Ψ w.db)
    (herr : ∀ e w', E e → w'.db.AtWork t T W → Ψ w'.db → Q (.error e) w')
    (hk : ∀ a w', w'.db.AtWork t T W → Ψ w'.db → C.Ensures t (k a) Q w') : C.Ensures t (p >>= k) Q w := by
  have hstretch : C.Ensures t p (fun _ w' => w'.db.AtWork t T W ∧ Ψ w'.db) w := by
    have hlast := ensures_sparing hC (K := fun T' => T' = T) (k := fun a => (pure a : Code S V ε α))
      (Q := fun _ w' => w'.db.AtWork t T W ∧ Ψ w'.db) (fun e => e.AtWork t T W ∧ Ψ e)
      (fun _ _ hev _ h => ⟨h.1.evolves hev, hΨ.evolves hev h.2⟩)
      (fun _ _ hl hc hpend h => ⟨h.1.congr hc (hpend T rfl), hΨ.congr hl hc h.2⟩) hp ⟨hw, h⟩ (fun _ _ h' => h')
      fun _ _ h' => h'
    exact ensures_last hlast
  refine ensures_bind (ensures_mono (fun x w' hx => ?_) (ensures_ends hE hstretch))
  cases x with
  | ok a => exact hk a w' hx.2.1 hx.2.2
  | error e => exact herr e w' (hx.1 e rfl) hx.2.1 hx.2.2

/-- **A program that never writes a table** keeps the thread's part of it empty, where such commits keep the
invariant. -/
theorem ensures_unwritten {p : Code S V ε β}
    (hcommit : ∀ w1 : World S V, w1.db.Lawful D → C.Inv w1 → w1.db.pending t T = (fun _ => none) →
      C.Assume t (.sql .commit) w1 () ⟨w1.db.commit t, w1.out⟩ → C.Inv ⟨w1.db.commit t, w1.out⟩)
    (hp : Only (Aloof T) p) (h : w.db.pending t T = fun _ => none) :
    C.Ensures t p (fun _ w' => w'.db.pending t T = fun _ => none) w := by
  refine ensures_mono (fun x w' hx => ?_) (ensures_of_footprint (fun _ w => w.db.pending t T = fun _ => none)
    (fun _ _ _ hev _ _ h => by rw [hev.db.pending]; exact h) (fun l o w i r w' ho hL hI hΦ he hL' hA => ?_) (hp false) h)
  · obtain ⟨-, -, hx⟩ := hx
    exact hx
  have hΦ' := aloof_exec ho hΦ he
  by_cases hc : o = .sql .commit
  · subst hc
    cases he
    exact ⟨hcommit w hL hI hΦ hA, hΦ'⟩
  · exact ⟨hC.exec hc (fun _ _ => rfl) he hI, hΦ'⟩

omit hC in
theorem ensures_updateFirst {calm : V.Ask → Bool} (hC : C.Historic calm) {e : ε} {g : S.Change T}
    {k : Option (S.Row T) → Code S V ε β} (h : w.db.AtWork t T none)
    (hrefused : ∀ w1, w.Evolves D t w1 → Q (.error e) w1)
    (hnone : ∀ w1, w.Evolves D t w1 → w1.db.Lawful D → C.Inv w1 →
      (w1.db.committed T i).bind (S.apply T g) = none → C.Ensures t (k none) Q w1)
    (hsome : ∀ w1 v r, w.Evolves D t w1 → w1.db.Lawful D → w1.db.committed T i = some v → S.apply T g v = some r →
      C.Assume t (.sql (.update T i g)) w1 (.ok (some r)) ⟨w1.db.write t T i r, w1.out⟩ →
      (w1.db.write t T i r).AtWork t T (some (i, some v, r)) →
      C.Ensures t (k (some r)) Q ⟨w1.db.write t T i r, w1.out⟩) : C.Ensures t (update e T i g >>= k) Q w := by
  have hview : ∀ w1 : World S V, w.Evolves D t w1 → w1.db.view t T i = w1.db.committed T i := fun w1 hev => by
    rw [(h.evolves hev.db).view]
    rfl
  refine ensures_update hC (fun w1 hev _ _ => hrefused w1 hev) (fun w1 hev hL hI hn => ?_)
    fun w1 v r hev hL hv hr hA _ _ => ?_
  · rw [hview w1 hev] at hn
    exact hnone w1 hev hL hI hn
  · rw [hview w1 hev] at hv
    have hwrote := (h.evolves hev.db).write (i := i) (r := r)
    rw [hv] at hwrote
    exact hsome w1 v r hev hL hv hr hA hwrote

end Session
end Txn

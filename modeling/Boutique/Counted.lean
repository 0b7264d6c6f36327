import Boutique.Founded
/-!
# Counted — a boutique that was founded is one

Commits are followed from the first version on: what names a boutique names one that is there, and a boutique that was not
there at first is absent or one, with its owner and its rows of the book.
-/
namespace Platform

open Txn

variable {cfg : Config} {reqs : Tid → Request} {rows : Rows schema} {next : Nat} {clock : Int}
  {c : Conf (machine schema outside Err) Reply} {d : Commit schema} {x : Nat} {G : Tid → Int → Prop}

/-! ## How many there are -/

/-- Nothing names a boutique that is not there, and only a spent invite names one. -/
structure Founded (rows : Rows schema) : Prop where
  staff : ∀ k (b : StaffUser), rows .staffUsers k = some b → ∃ j, ∃ a : Tenant, rows .tenants j = some a ∧ a.tenantId = b.tenantId
  book : ∀ k (r : PlatformAuditLog) y, rows .platformAuditLog k = some r → r.targetTenantId = some y →
    ∃ j, ∃ a : Tenant, rows .tenants j = some a ∧ a.tenantId = y
  invites : ∀ k (r : PlatformInvite) y, rows .platformInvites k = some r → r.redeemedTenantId = some y →
    r.redeemedAt ≠ none ∧ ∃ j, ∃ a : Tenant, rows .tenants j = some a ∧ a.tenantId = y

structure Absent (x : Nat) (rows : Rows schema) : Prop where
  tenants : rows.keys .tenants (fun (a : Tenant) => a.tenantId = x) = ∅
  staff : rows.keys .staffUsers (fun (b : StaffUser) => b.tenantId = x) = ∅
  book : rows.keys .platformAuditLog (fun (r : PlatformAuditLog) => r.targetTenantId = some x) = ∅
  invites : rows.keys .platformInvites (fun (r : PlatformInvite) => r.redeemedTenantId = some x) = ∅

/-- **One boutique has this id**, with one account, its owner's, and one row of the book; and it came from no invite, or from
one, with one row that says so. -/
structure One (x : Nat) (rows : Rows schema) : Prop where
  tenant : ∃ k, rows.keys .tenants (fun (a : Tenant) => a.tenantId = x) = {k}
  owner : ∃ k, rows.keys .staffUsers (fun (b : StaffUser) => b.tenantId = x) = {k} ∧
    rows.keys .staffUsers (fun (b : StaffUser) => b.tenantId = x ∧ b.role = .owner) = {k}
  provisioned : ∃ k, rows.keys .platformAuditLog (PlatformAuditLog.provisioned x) = {k}
  redeemed : (rows.keys .platformInvites (fun (r : PlatformInvite) => r.redeemedTenantId = some x) = ∅ ∧
      rows.keys .platformAuditLog (PlatformAuditLog.redeemed x) = ∅) ∨
    ((∃ i, rows.keys .platformInvites (fun (r : PlatformInvite) => r.redeemedTenantId = some x) = {i}) ∧
      ∃ k, rows.keys .platformAuditLog (PlatformAuditLog.redeemed x) = {k})

section Counting

theorem keys_unchanged {T : Table} {P : Row T → Prop} (hT : Grows T) (hfresh : Fresh d)
    (h : ∀ k r, d.writes T k = some r → ¬P r) : d.after.keys T P = d.before.keys T P := by
  refine Rows.keys_same fun k r hr => iff_of_false (h k r hr) ?_
  rintro ⟨v, hv, -⟩
  rw [hfresh T k hT (Option.isSome_of_eq_some hr)] at hv
  cases hv

theorem keys_one {T : Table} {P : Row T → Prop} {k : Nat} {r : Row T} (hT : Grows T) (hfresh : Fresh d)
    (hempty : d.before.keys T P = ∅) (hk : d.writes T k = some r) (hP : P r)
    (h : ∀ j v, d.writes T j = some v → j ≠ k → ¬P v) : d.after.keys T P = {k} := by
  have hinsert : d.after.keys T P = Insert.insert k (d.before.keys T P) := by
    refine Rows.keys_insert hk hP fun j v hv hj => iff_of_false (h j v hv hj) ?_
    rintro ⟨u, hu, -⟩
    rw [hfresh T j hT (Option.isSome_of_eq_some hv)] at hu
    cases hu
  rw [hinsert, hempty, insert_empty_eq]

theorem tenant_stays (hfresh : Fresh d) {j : Nat} {a : Tenant} (h : d.before .tenants j = some a) :
    d.after .tenants j = some a := by
  rw [Commit.after, Rows.over_none, h]
  by_contra hne
  have hnone := hfresh .tenants j (by decide) (Option.isSome_iff_ne_none.2 hne)
  rw [h] at hnone
  cases hnone

theorem Birth.there (h : Birth d x) : ∃ j, ∃ a : Tenant, d.after .tenants j = some a ∧ a.tenantId = x := by
  obtain ⟨k, a, hk, ha, -⟩ := h.tenant
  exact ⟨k, a, Rows.over_some hk, ha⟩

theorem Founded.after (h : Founded d.before) (hd : Deed G d) (hfresh : Fresh d) : Founded d.after := by
  have hstays : ∀ {y : Nat}, (∃ j, ∃ a : Tenant, d.before .tenants j = some a ∧ a.tenantId = y) →
      ∃ j, ∃ a : Tenant, d.after .tenants j = some a ∧ a.tenantId = y := by
    rintro y ⟨j, a, hj, ha⟩
    exact ⟨j, a, tenant_stays hfresh hj, ha⟩
  refine ⟨fun k b hb => ?_, fun k r y hr hy => ?_, fun k r y hr hy => ?_⟩
  · cases hw : d.writes .staffUsers k with
    | none =>
      rw [Commit.after, Rows.over_none hw] at hb
      exact hstays (h.staff k b hb)
    | some b' =>
      rw [Commit.after, Rows.over_some hw] at hb
      cases hb
      have hborn : ∀ {z : Nat}, Birth d z → ∃ j, ∃ a : Tenant, d.after .tenants j = some a ∧ a.tenantId = b.tenantId := by
        intro z hbirth
        obtain ⟨j, b'', hj, hb'', -, hrest⟩ := hbirth.owner
        have hkj : k = j := by
          by_contra hne
          rw [hrest k hne] at hw
          cases hw
        subst hkj
        rw [hj] at hw
        cases hw
        rw [hb'']
        exact hbirth.there
      cases hd with
      | aside tenants staff book invites =>
        rw [staff k] at hw
        cases hw
      | provisioned z birth invites book => exact hborn birth
      | redeemed z birth claims book => exact hborn birth
  · cases hw : d.writes .platformAuditLog k with
    | none =>
      rw [Commit.after, Rows.over_none hw] at hr
      exact hstays (h.book k r y hr hy)
    | some r' =>
      rw [Commit.after, Rows.over_some hw] at hr
      cases hr
      cases hd with
      | aside tenants staff book invites =>
        rw [book k r hw] at hy
        cases hy
      | provisioned z birth invites book =>
        obtain ⟨j, p, hj, hp, hrest⟩ := book
        have hkj : k = j := by
          by_contra hne
          rw [hrest k hne] at hw
          cases hw
        subst hkj
        rw [hj] at hw
        cases hw
        rw [hp.1] at hy
        cases hy
        exact birth.there
      | redeemed z birth claims book =>
        obtain ⟨j, j', p, p', -, hj, hp, hj', hp', hrest⟩ := book
        by_cases hkj : k = j
        · subst hkj
          rw [hj] at hw
          cases hw
          rw [hp.1] at hy
          cases hy
          exact birth.there
        · by_cases hkj' : k = j'
          · subst hkj'
            rw [hj'] at hw
            cases hw
            rw [hp'.1] at hy
            cases hy
            exact birth.there
          · rw [hrest k hkj hkj'] at hw
            cases hw
  · cases hw : d.writes .platformInvites k with
    | none =>
      rw [Commit.after, Rows.over_none hw] at hr
      exact (h.invites k r y hr hy).imp id hstays
    | some r' =>
      rw [Commit.after, Rows.over_some hw] at hr
      cases hr
      cases hd with
      | aside tenants staff book invites =>
        rcases invites k r hw with ⟨v, hv, hat, hto⟩ | ⟨-, -, hto⟩
        · rw [hto] at hy
          rw [hat]
          exact (h.invites k v y hv hy).imp id hstays
        · rw [hto] at hy
          cases hy
      | provisioned z birth invites book =>
        rw [invites k] at hw
        cases hw
      | redeemed z birth claims book =>
        obtain ⟨i, hclaims⟩ := claims
        obtain ⟨v, n, -, -, hv, -, -, -, hwrote⟩ := hclaims.row
        have hki : k = i := by
          by_contra hne
          rw [hclaims.only k hne] at hw
          cases hw
        subst hki
        rw [hwrote] at hw
        cases hw
        cases hy
        exact ⟨fun hn => (by cases hn), birth.there⟩

structure Still (x : Nat) (d : Commit schema) : Prop where
  tenants : ∀ k (a : Tenant), d.writes .tenants k = some a → a.tenantId ≠ x
  staff : ∀ k (b : StaffUser), d.writes .staffUsers k = some b → b.tenantId ≠ x
  book : ∀ k (r : PlatformAuditLog), d.writes .platformAuditLog k = some r → r.targetTenantId ≠ some x
  invites : d.after.keys .platformInvites (fun (r : PlatformInvite) => r.redeemedTenantId = some x) =
    d.before.keys .platformInvites fun (r : PlatformInvite) => r.redeemedTenantId = some x

theorem Birth.tenantId (h : Birth d x) {k : Nat} {a : Tenant} (hk : d.writes .tenants k = some a) : a.tenantId = x := by
  obtain ⟨j, a', hj, ha', hrest⟩ := h.tenant
  by_cases hkj : k = j
  · subst hkj
    rw [hj] at hk
    cases hk
    exact ha'
  · rw [hrest k hkj] at hk
    cases hk

theorem Birth.staffTenantId (h : Birth d x) {k : Nat} {b : StaffUser} (hk : d.writes .staffUsers k = some b) : b.tenantId = x := by
  obtain ⟨j, b', hj, hb', -, hrest⟩ := h.owner
  by_cases hkj : k = j
  · subst hkj
    rw [hj] at hk
    cases hk
    exact hb'
  · rw [hrest k hkj] at hk
    cases hk

theorem Birth.unique {y : Nat} (h : Birth d x) (h' : Birth d y) : y = x := by
  obtain ⟨k, a, hk, ha, -⟩ := h'.tenant
  exact ha.symm.trans (h.tenantId hk)

theorem Deed.still (hd : Deed G d) (h : Founded d.before) (hx : ¬Birth d x) : Still x d := by
  cases hd with
  | aside tenants staff book invites =>
    refine ⟨fun k a hk => ?_, fun k b hk => ?_, fun k r hk => ?_, Rows.keys_same fun k r' hr' => ?_⟩
    · rw [tenants k] at hk
      cases hk
    · rw [staff k] at hk
      cases hk
    · rw [book k r hk]
      exact fun hc => by cases hc
    · rcases invites k r' hr' with ⟨v, hv, -, hto⟩ | ⟨hv, -, hto⟩
      · constructor
        · exact fun hr => ⟨v, hv, hto.symm.trans hr⟩
        · rintro ⟨u, hu, hux⟩
          rw [hv] at hu
          cases hu
          exact hto.trans hux
      · refine iff_of_false (fun hr => ?_) ?_
        · rw [hto] at hr
          cases hr
        · rintro ⟨u, hu, -⟩
          rw [hv] at hu
          cases hu
  | provisioned y birth invites book =>
    have hne : y ≠ x := fun heq => hx (heq ▸ birth)
    obtain ⟨j, p, hj, hp, hrest⟩ := book
    refine ⟨fun k a hk => birth.tenantId hk ▸ hne, fun k b hk => birth.staffTenantId hk ▸ hne, fun k r hk => ?_,
      Rows.keys_same fun k r' hr' => ?_⟩
    · have hkj : k = j := by
        by_contra hne
        rw [hrest k hne] at hk
        cases hk
      subst hkj
      rw [hj] at hk
      cases hk
      rw [hp.1]
      exact fun heq => hne (Option.some.inj heq)
    · rw [invites k] at hr'
      cases hr'
  | redeemed y birth claims book =>
    have hne : y ≠ x := fun heq => hx (heq ▸ birth)
    obtain ⟨j, j', p, p', -, hj, hp, hj', hp', hrest⟩ := book
    obtain ⟨i, hclaims⟩ := claims
    refine ⟨fun k a hk => birth.tenantId hk ▸ hne, fun k b hk => birth.staffTenantId hk ▸ hne, fun k r hk => ?_,
      Rows.keys_same fun k r' hr' => ?_⟩
    · by_cases hkj : k = j
      · subst hkj
        rw [hj] at hk
        cases hk
        rw [hp.1]
        exact fun heq => hne (Option.some.inj heq)
      · by_cases hkj' : k = j'
        · subst hkj'
          rw [hj'] at hk
          cases hk
          rw [hp'.1]
          exact fun heq => hne (Option.some.inj heq)
        · rw [hrest k hkj hkj'] at hk
          cases hk
    · have hki : k = i := by
        by_contra hki
        rw [hclaims.only k hki] at hr'
        cases hr'
      subst hki
      obtain ⟨v, n, -, -, hv, hopen, -, -, hw⟩ := hclaims.row
      rw [hw] at hr'
      cases hr'
      -- an invite that is open names no boutique
      refine iff_of_false (fun heq => hne (Option.some.inj heq)) ?_
      rintro ⟨u, hu, hux⟩
      rw [hv] at hu
      cases hu
      exact (h.invites k v x hv hux).1 hopen

theorem Absent.after (h : Absent x d.before) (hs : Still x d) (hfresh : Fresh d) : Absent x d.after := by
  refine ⟨Eq.trans ?_ h.tenants, Eq.trans ?_ h.staff, Eq.trans ?_ h.book, hs.invites.trans h.invites⟩
  · exact keys_unchanged (by decide) hfresh hs.tenants
  · exact keys_unchanged (by decide) hfresh hs.staff
  · exact keys_unchanged (by decide) hfresh hs.book

theorem One.after (h : One x d.before) (hs : Still x d) (hfresh : Fresh d) : One x d.after := by
  have hprovisioned : ∀ k (r : PlatformAuditLog), d.writes .platformAuditLog k = some r → ¬r.provisioned x :=
    fun k r hk hr => hs.book k r hk hr.1
  have hredeemed : ∀ k (r : PlatformAuditLog), d.writes .platformAuditLog k = some r → ¬r.redeemed x :=
    fun k r hk hr => hs.book k r hk hr.1
  refine ⟨?_, ?_, ?_, ?_⟩
  · exact h.tenant.imp fun k hk => Eq.trans (keys_unchanged (by decide) hfresh hs.tenants) hk
  · exact h.owner.imp fun k hk => ⟨Eq.trans (keys_unchanged (by decide) hfresh hs.staff) hk.1,
      Eq.trans (keys_unchanged (by decide) hfresh fun j b hj hb => hs.staff j b hj hb.1) hk.2⟩
  · exact h.provisioned.imp fun k hk => Eq.trans (keys_unchanged (by decide) hfresh hprovisioned) hk
  · have hsame : d.after.keys .platformAuditLog (PlatformAuditLog.redeemed x) =
        d.before.keys .platformAuditLog (PlatformAuditLog.redeemed x) := keys_unchanged (by decide) hfresh hredeemed
    rw [hsame, hs.invites]
    exact h.redeemed

theorem Founded.absent (h : Founded rows) (hx : ∀ k (a : Tenant), rows .tenants k = some a → a.tenantId ≠ x) : Absent x rows := by
  refine ⟨Rows.keys_empty hx, Rows.keys_empty fun k b hk hb => ?_, Rows.keys_empty fun k r hk hr => ?_,
    Rows.keys_empty fun k r hk hr => ?_⟩
  · obtain ⟨j, a, hj, ha⟩ := h.staff k b hk
    exact hx j a hj (ha.trans hb)
  · obtain ⟨j, a, hj, ha⟩ := h.book k r x hk hr
    exact hx j a hj ha
  · obtain ⟨-, j, a, hj, ha⟩ := h.invites k r x hk hr
    exact hx j a hj ha

theorem Birth.one (hbirth : Birth d x) (h : Absent x d.before) (hd : Deed G d) (hfresh : Fresh d) : One x d.after := by
  obtain ⟨k, a, hk, ha, hrest⟩ := hbirth.tenant
  obtain ⟨l, b, hl, hb, hrole, hrest'⟩ := hbirth.owner
  have hbook : ∀ {P : PlatformAuditLog → Prop}, (∀ r, P r → r.targetTenantId = some x) →
      d.before.keys .platformAuditLog P = ∅ := fun hP => Rows.keys_empty fun j r hj hr => Rows.not_of_keys h.book hj (hP r hr)
  have hbookP := hbook (P := PlatformAuditLog.provisioned x) fun r hr => hr.1
  have hbookR := hbook (P := PlatformAuditLog.redeemed x) fun r hr => hr.1
  have hnever : ∀ {r : PlatformAuditLog}, r.provisioned x → ¬r.redeemed x := by
    rintro r ⟨-, slug, hr⟩ ⟨-, slug', email, hr'⟩
    rw [hr] at hr'
    cases hr'
  have hnever' : ∀ {r : PlatformAuditLog}, r.redeemed x → ¬r.provisioned x := fun hr hr' => hnever hr' hr
  refine ⟨⟨k, keys_one (by decide) hfresh h.tenants hk ha fun j v hj hjk => ?_⟩,
    ⟨l, keys_one (by decide) hfresh h.staff hl hb fun j v hj hjl => ?_, keys_one (by decide) hfresh
      (Rows.keys_empty fun j v hj hv => Rows.not_of_keys h.staff hj hv.1) hl ⟨hb, hrole⟩ fun j v hj hjl => ?_⟩, ?_, ?_⟩
  · rw [hrest j hjk] at hj
    cases hj
  · rw [hrest' j hjl] at hj
    cases hj
  · rw [hrest' j hjl] at hj
    cases hj
  · cases hd with
    | aside tenants staff book invites =>
      rw [tenants k] at hk
      cases hk
    | provisioned y birth invites book =>
      cases hbirth.unique birth
      obtain ⟨j, p, hj, hp, hnone⟩ := book
      refine ⟨j, keys_one (by decide) hfresh hbookP hj hp fun m v hm hmj => ?_⟩
      rw [hnone m hmj] at hm
      cases hm
    | redeemed y birth claims book =>
      cases hbirth.unique birth
      obtain ⟨j, j', p, p', -, hj, hp, hj', hp', hnone⟩ := book
      refine ⟨j, keys_one (by decide) hfresh hbookP hj hp fun m v hm hmj => ?_⟩
      by_cases hmj' : m = j'
      · subst hmj'
        rw [hj'] at hm
        cases hm
        exact hnever' hp'
      · rw [hnone m hmj hmj'] at hm
        cases hm
  · cases hd with
    | aside tenants staff book invites =>
      rw [tenants k] at hk
      cases hk
    | provisioned y birth invites book =>
      cases hbirth.unique birth
      obtain ⟨j, p, hj, hp, hnone⟩ := book
      refine .inl ⟨?_, ?_⟩
      · refine Eq.trans (Rows.keys_same fun i r hi => ?_) h.invites
        rw [invites i] at hi
        cases hi
      · refine Eq.trans (keys_unchanged (by decide) hfresh fun m v hm => ?_) hbookR
        by_cases hmj : m = j
        · subst hmj
          rw [hj] at hm
          cases hm
          exact hnever hp
        · rw [hnone m hmj] at hm
          cases hm
    | redeemed y birth claims book =>
      cases hbirth.unique birth
      obtain ⟨j, j', p, p', -, hj, hp, hj', hp', hnone⟩ := book
      obtain ⟨i, hclaims⟩ := claims
      obtain ⟨v, n, -, -, -, -, -, -, hw⟩ := hclaims.row
      refine .inr ⟨⟨i, ?_⟩, j', keys_one (by decide) hfresh hbookR hj' hp' fun m v' hm hmj' => ?_⟩
      · have hinsert : d.after.keys .platformInvites (fun (r : PlatformInvite) => r.redeemedTenantId = some x) =
            Insert.insert i (d.before.keys .platformInvites fun (r : PlatformInvite) => r.redeemedTenantId = some x) := by
          refine Rows.keys_insert hw rfl fun m v' hm hmi => ?_
          rw [hclaims.only m hmi] at hm
          cases hm
        rw [hinsert, h.invites, insert_empty_eq]
      · by_cases hmj : m = j
        · subst hmj
          rw [hj] at hm
          cases hm
          exact hnever hp
        · rw [hnone m hmj hmj'] at hm
          cases hm

theorem Birth.absent (hbirth : Birth d x) (hfresh : Fresh d) (hrows : Consistent d.after) : ¬One x d.before := by
  intro h
  obtain ⟨k, a, hk, ha, -⟩ := hbirth.tenant
  obtain ⟨j, hj⟩ := h.tenant
  have hmem : j ∈ d.before.keys .tenants fun (a : Tenant) => a.tenantId = x := hj ▸ rfl
  obtain ⟨b, hb, hbx⟩ := hmem
  have hne : j ≠ k := by
    rintro rfl
    have hnone := hfresh .tenants j (by decide) (Option.isSome_of_eq_some hk)
    rw [hnone] at hb
    cases hb
  have hapart := hrows.apart .tenants j k b a (tenant_stays hfresh hb) (Rows.over_some hk) hne
  exact of_decide_eq_false hapart (.inl (hbx.trans ha.symm))

/-- **What every version has**: what names a boutique names one that is there, and a boutique that was not there at first is
absent or one. -/
structure Counted (rows now : Rows schema) : Prop where
  founded : Founded now
  one : ∀ x, (∀ k (a : Tenant), rows .tenants k = some a → a.tenantId ≠ x) → Absent x now ∨ One x now

theorem Counted.after (h : Counted rows d.before) (hd : Deed G d) (hfresh : Fresh d) (hrows : Consistent d.after) :
    Counted rows d.after := by
  refine ⟨h.founded.after hd hfresh, fun x hx => ?_⟩
  by_cases hbirth : Birth d x
  · rcases h.one x hx with habsent | hone
    · exact .inr (hbirth.one habsent hd hfresh)
    · exact absurd hone (hbirth.absent hfresh hrows)
  · have hstill := hd.still h.founded hbirth
    exact (h.one x hx).imp (fun habsent => habsent.after hstill hfresh) fun hone => hone.after hstill hfresh

end Counting

def issued : PlatformInvite := ⟨0, 0, none, "code", "noa", "Noa", "noa@example.com", "ops", 100, none, none⟩

def plain : Config := ⟨id, id, 50⟩

def twice : Tid → Request := fun _ => .redeemInvite "code" "long enough"

end Platform

import Boutique.Atelier
/-!
# Stages — what a ticket's verbs write, and what they tell

`Deed` is one commit of one verb: the row it found, the row it wrote, and the audit row beside it, which tells what the
verb's load had read.  Every run keeps the ledger of deeds; what the load says of the row the UPDATE then found is what a
run's assumption supplies.
-/
namespace Atelier

open Txn Session Contract

/-! ## The order of the stages -/

def TicketStage.rank : TicketStage → Nat
  | .intake => 0
  | .inProgress => 1
  | .qc => 2
  | .ready => 3
  | .delivered => 4

variable {s : TicketStage} {r v : AlterationTicket}

theorem mem_laterColumns {target : TicketStage} : s ∈ laterColumns target ↔ target.rank < s.rank := by
  cases s <;> cases target <;> decide

@[simp] theorem stamp_setStamp (r : AlterationTicket) (s : TicketStage) (x : Option Int) : (r.setStamp s x).stamp s = x := by
  cases s <;> rfl

theorem stamp_setStamp_ne {s' : TicketStage} {x : Option Int} (h : s' ≠ s) :
    (r.setStamp s x).stamp s' = r.stamp s' := by
  cases s <;> cases s' <;> first | rfl | exact absurd rfl h

theorem stageOf_eq (r : AlterationTicket) : stageOf r =
    if r.deliveredAt.isSome then .delivered else if r.readyAt.isSome then .ready else if r.qcAt.isSome then .qc
    else if r.inProgressAt.isSome then .inProgress else .intake := by
  simp only [stageOf, TicketStage.all, List.foldl, AlterationTicket.stamp]
  by_cases hi : r.intakeAt.isSome <;> simp [hi]

theorem rank_le_stageOf (h : (r.stamp s).isSome) : s.rank ≤ (stageOf r).rank := by
  rw [stageOf_eq]
  cases s <;> simp only [AlterationTicket.stamp] at h <;> (repeat' split) <;> simp_all [TicketStage.rank]

theorem stamp_or_intake (r : AlterationTicket) : (r.stamp (stageOf r)).isSome ∨ stageOf r = .intake := by
  rw [stageOf_eq]
  repeat' split
  all_goals first | exact .inr rfl | exact .inl ‹_›

theorem stamp_stageOf (h : r.intakeAt.isSome) : (r.stamp (stageOf r)).isSome := by
  rcases stamp_or_intake r with hs | hs
  · exact hs
  · rw [hs]
    exact h

theorem rank_inj {s' : TicketStage} (h : s.rank = s'.rank) : s = s' := by
  revert h
  cases s <;> cases s' <;> simp [TicketStage.rank]

theorem stageOf_lt (hi : r.intakeAt.isSome) (h : clearedThrough r s = true) : (stageOf r).rank < s.rank := by
  simp only [clearedThrough, Bool.and_eq_true, List.all_eq_true, Option.isNone_iff_eq_none] at h
  have hstamp := stamp_stageOf hi
  by_contra hle
  rcases Nat.lt_or_eq_of_le (Nat.not_lt.1 hle) with hlt | heq
  · rw [h.2 _ (mem_laterColumns.2 hlt)] at hstamp
    cases hstamp
  · rw [← rank_inj heq, h.1] at hstamp
    cases hstamp

theorem stageOf_last (hs : (r.stamp s).isSome) (h : (laterColumns s).all (fun s => (r.stamp s).isNone) = true) :
    stageOf r = s := by
  by_contra hne
  have hlt : s.rank < (stageOf r).rank :=
    Nat.lt_of_le_of_ne (rank_le_stageOf hs) fun heq => hne (rank_inj heq).symm
  have hnone := List.all_eq_true.1 h _ (mem_laterColumns.2 hlt)
  rcases stamp_or_intake r with hsome | hintake
  · rw [Option.isNone_iff_eq_none.1 hnone] at hsome
    cases hsome
  · rw [hintake] at hlt
    simp [TicketStage.rank] at hlt

theorem later_setStamp {x : Option Int} :
    (laterColumns s).all (fun s' => ((r.setStamp s x).stamp s').isNone) =
      (laterColumns s).all fun s' => (r.stamp s').isNone := by
  apply Bool.eq_iff_iff.2
  simp only [List.all_eq_true]
  have hne : ∀ s' ∈ laterColumns s, s' ≠ s := by
    intro s' hs' heq
    have := mem_laterColumns.1 hs'
    rw [heq] at this
    omega
  constructor
  · intro h s' hs'
    rw [← stamp_setStamp_ne (hne s' hs')]
    exact h s' hs'
  · intro h s' hs'
    rw [stamp_setStamp_ne (hne s' hs')]
    exact h s' hs'

theorem advanceStage_stage {target : TicketStage} {at_ : Int} (hi : v.intakeAt.isSome)
    (h : TicketChange.apply v (.advanceStage target at_) = some r) :
    r = v.setStamp target (some at_) ∧ (stageOf v).rank < target.rank ∧ stageOf r = target := by
  simp only [TicketChange.apply] at h
  split at h
  · rename_i hc
    cases h
    refine ⟨rfl, stageOf_lt hi hc.2, stageOf_last (by simp) ?_⟩
    rw [later_setStamp]
    have hlater := hc.2
    simp only [clearedThrough, Bool.and_eq_true] at hlater
    exact hlater.2
  · cases h

theorem undoStage_stage {stage : TicketStage} (hs : stage ≠ .intake) (hi : v.intakeAt.isSome)
    (h : TicketChange.apply v (.undoStage stage) = some r) :
    r = v.setStamp stage none ∧ stageOf v = stage ∧ (stageOf r).rank < stage.rank := by
  simp only [TicketChange.apply] at h
  split at h
  · rename_i hc
    cases h
    refine ⟨rfl, stageOf_last hc.2.1 hc.2.2, stageOf_lt ?_ ?_⟩
    · have hintake := stamp_setStamp_ne (r := v) (x := none) (Ne.symm hs)
      simp only [AlterationTicket.stamp] at hintake
      rw [hintake]
      exact hi
    · simp only [clearedThrough, stamp_setStamp, Option.isNone_none, Bool.true_and]
      rw [later_setStamp]
      exact hc.2.2
  · cases h

end Atelier

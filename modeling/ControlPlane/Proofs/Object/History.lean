import ControlPlane.Proofs.Object.Condition

/-! # Verdicts in a row

A verdict is settled against the one that the status bears and written in its place.  However many
verdicts follow each other, and whatever the status said at first, the conditions of others keep their
order and the verdict written last stands behind them, once (`conditions_reviews`).

The time of a verdict tells since when the verdicts have been on its side.  `RunsSince` says which
verdict of a history began the run that the history ends with, or that the run goes back to the verdict
that was read at first; it fixes the time (`RunsSince.unique`), and each review keeps it up
(`RunsSince.goOn`, `RunsSince.turn`).  Together they describe every status that a history of
verdicts leads to (`reviews_recorded`). -/

namespace ControlPlane

open Time (Timestamp)

namespace Status

/-- A verdict is settled against the one that stands, and takes its place. -/
def review (s : Status) (v : Acceptance) : Status := s.setAccepted (v.settle s.accepted?)

/-- The status after some verdicts, the first in front. -/
def reviews (s : Status) (verdicts : List Acceptance) : Status := verdicts.foldl review s

@[simp] theorem reviews_nil (s : Status) : s.reviews [] = s := rfl

theorem reviews_concat (s : Status) (verdicts : List Acceptance) (v : Acceptance) :
    s.reviews (verdicts ++ [v]) = (s.reviews verdicts).review v := by
  simp [reviews]

/-! ### The list of conditions -/

theorem conditions_setAccepted (s : Status) (v : Acceptance) :
    (s.setAccepted v).conditions = s.others ++ [v.toCondition] := rfl

theorem others_reviews (s : Status) (verdicts : List Acceptance) :
    (s.reviews verdicts).others = s.others := by
  induction verdicts using List.reverseRecOn with
  | nil => rfl
  | append_singleton earlier v ih => rw [reviews_concat, review, others_setAccepted, ih]

/-- The conditions of others in their order, and behind them what was written last. -/
theorem conditions_reviews (s : Status) (earlier : List Acceptance) (v : Acceptance) :
    (s.reviews (earlier ++ [v])).conditions =
      s.others ++ [(v.settle (s.reviews earlier).accepted?).toCondition] := by
  rw [reviews_concat, review, conditions_setAccepted, others_reviews]

theorem accepted?_reviews (s : Status) (earlier : List Acceptance) (v : Acceptance) :
    (s.reviews (earlier ++ [v])).accepted? = some (v.settle (s.reviews earlier).accepted?) := by
  rw [reviews_concat, review, accepted?_setAccepted]

/-- None of the conditions of others is of the reconciler's type. -/
theorem filter_others (s : Status) :
    s.others.filter (fun c => c.type == Acceptance.conditionType) = [] := by
  rw [others, List.filter_filter, List.filter_eq_nil_iff]
  simp

end Status

/-! ### The run that a history ends with -/

namespace Acceptance

/-- A verdict keeps all but its time. -/
theorem settle_eq (v : Acceptance) (previous : Option Acceptance) :
    v.settle previous = { v with transitionTime := (v.settle previous).transitionTime } := by
  cases previous with
  | none => rfl
  | some p =>
      unfold settle
      dsimp only
      split <;> rfl

@[simp] theorem accepted_settle (v : Acceptance) (previous : Option Acceptance) :
    (v.settle previous).accepted = v.accepted := by
  rw [settle_eq]

theorem settle_of_same {v p : Acceptance} (h : p.accepted = v.accepted) :
    (v.settle (some p)).transitionTime = p.transitionTime := by
  rw [settle, if_pos h]

theorem settle_of_other {v : Acceptance} {previous : Option Acceptance}
    (h : ∀ p, previous = some p → p.accepted ≠ v.accepted) : v.settle previous = v := by
  cases previous with
  | none => rfl
  | some p => rw [settle, if_neg (h p rfl)]

end Acceptance

/-- The verdicts at the end of a history have been on one side since this time; `first` is the verdict
that stood before the history. -/
inductive RunsSince (first : Option Acceptance) : List Acceptance → Timestamp → Prop where
  /-- All of the history is on the side of the verdict before it. -/
  | fromStart {p : Acceptance} {verdicts : List Acceptance} (hfirst : first = some p)
      (hsome : verdicts ≠ []) (hside : ∀ v ∈ verdicts, v.accepted = p.accepted) :
      RunsSince first verdicts p.transitionTime
  /-- The run began with `v`: what stood right before it, if anything did, was on the other side. -/
  | fromTurn {before after : List Acceptance} {v : Acceptance}
      (hbefore : ∀ p, before.getLast?.or first = some p → p.accepted ≠ v.accepted)
      (hside : ∀ w ∈ after, w.accepted = v.accepted) :
      RunsSince first (before ++ v :: after) v.transitionTime

namespace RunsSince
variable {first : Option Acceptance} {verdicts : List Acceptance} {t t' : Timestamp}
  {v w : Acceptance}

/-- One more verdict on the side of the run. -/
theorem goOn (h : RunsSince first (verdicts ++ [w]) t) (hside : v.accepted = w.accepted) :
    RunsSince first (verdicts ++ [w] ++ [v]) t := by
  generalize hall : verdicts ++ [w] = all at h
  have hlast : all.getLast? = some w := by rw [← hall, List.getLast?_concat]
  cases h with
  | fromStart hfirst hsome hrun =>
      refine .fromStart hfirst (by simp) fun x hx => ?_
      rcases List.mem_append.mp hx with hx | hx
      · exact hrun x hx
      · rw [List.mem_singleton.mp hx, hside]
        exact hrun w (List.mem_of_getLast? hlast)
  | @fromTurn before after turn hbefore hrun =>
      rw [List.append_assoc, List.cons_append]
      refine .fromTurn hbefore fun x hx => ?_
      rcases List.mem_append.mp hx with hx | hx
      · exact hrun x hx
      · rw [List.mem_singleton.mp hx, hside]
        rw [List.getLast?_append_cons, List.getLast?_cons] at hlast
        cases hafter : after.getLast? with
        | none =>
            obtain rfl : turn = w := by simpa [hafter] using hlast
            rfl
        | some y =>
            obtain rfl : y = w := by simpa [hafter] using hlast
            exact hrun y (List.mem_of_getLast? hafter)

/-- A verdict that has none of its side right before it begins a run. -/
theorem turn (h : ∀ p, verdicts.getLast?.or first = some p → p.accepted ≠ v.accepted) :
    RunsSince first (verdicts ++ [v]) v.transitionTime :=
  .fromTurn h (by simp)

/-- A run that goes back to the start has no turn in it. -/
theorem no_turn {p : Acceptance} {before after : List Acceptance} (hfirst : first = some p)
    (hside : ∀ x ∈ before ++ v :: after, x.accepted = p.accepted)
    (hbefore : ∀ p, before.getLast?.or first = some p → p.accepted ≠ v.accepted) : False := by
  have hv : v.accepted = p.accepted := hside v (by simp)
  cases hlast : before.getLast? with
  | none => exact hbefore p (by rw [hlast, hfirst]; rfl) hv.symm
  | some x =>
      have hx : x.accepted = p.accepted :=
        hside x (List.mem_append_left _ (List.mem_of_getLast? hlast))
      exact hbefore x (by rw [hlast]; rfl) (hx.trans hv.symm)

/-- Of two turns one history cannot have the second inside the run that the first began. -/
theorem not_inside {middle after : List Acceptance}
    (hside : ∀ x ∈ middle ++ w :: after, x.accepted = v.accepted) {before : List Acceptance}
    (hbefore : ∀ p, (before ++ v :: middle).getLast?.or first = some p → p.accepted ≠ w.accepted) :
    False := by
  have hw : w.accepted = v.accepted := hside w (by simp)
  cases hlast : middle.getLast? with
  | none =>
      rw [List.getLast?_eq_none_iff.mp hlast] at hbefore
      exact hbefore v (by simp) hw.symm
  | some x =>
      have hx : x.accepted = v.accepted :=
        hside x (List.mem_append_left _ (List.mem_of_getLast? hlast))
      refine hbefore x ?_ (hx.trans hw.symm)
      rw [List.getLast?_append_cons, List.getLast?_cons, hlast]
      rfl

/-- A history has been on its side since one time only. -/
theorem unique (h : RunsSince first verdicts t) (h' : RunsSince first verdicts t') : t = t' := by
  cases h with
  | fromStart hfirst hsome hside =>
      cases h' with
      | fromStart hfirst' _ _ => rw [Option.some.inj (hfirst.symm.trans hfirst')]
      | fromTurn hbefore _ => exact (no_turn hfirst hside hbefore).elim
  | @fromTurn before after v hbefore hside =>
      generalize hall : before ++ v :: after = all at h'
      cases h' with
      | fromStart hfirst _ hside' => exact (no_turn hfirst (hall ▸ hside') hbefore).elim
      | @fromTurn before' after' w hbefore' hside' =>
          rcases List.append_eq_append_iff.mp hall with ⟨gap, hgap, hrest⟩ | ⟨gap, hgap, hrest⟩
          · cases gap with
            | nil => rw [(List.cons.inj hrest).1]
            | cons x middle =>
                obtain ⟨rfl, rfl⟩ := List.cons.inj hrest
                exact (not_inside hside (hgap ▸ hbefore')).elim
          · cases gap with
            | nil => rw [(List.cons.inj hrest).1]
            | cons x middle =>
                obtain ⟨rfl, rfl⟩ := List.cons.inj hrest
                exact (not_inside hside' (hgap ▸ hbefore)).elim

end RunsSince

namespace Status

/-! ### The time of the last verdict -/

/-- The verdict that is read after a history bears the time since when the history has been on its
side. -/
theorem runsSince_reviews (s : Status) (earlier : List Acceptance) (v : Acceptance) :
    RunsSince s.accepted? (earlier ++ [v])
      (v.settle (s.reviews earlier).accepted?).transitionTime := by
  induction earlier using List.reverseRecOn generalizing v with
  | nil =>
      rw [reviews_nil]
      cases hfirst : s.accepted? with
      | none => exact .turn fun p hp => by cases hp
      | some p =>
          by_cases hside : p.accepted = v.accepted
          · rw [Acceptance.settle_of_same hside]
            refine .fromStart rfl (by simp) fun x hx => ?_
            rw [List.mem_singleton.mp hx, hside]
          · have hother : ∀ q, some p = some q → q.accepted ≠ v.accepted := fun q hq =>
              Option.some.inj hq ▸ hside
            rw [Acceptance.settle_of_other hother]
            exact .turn hother
  | append_singleton rest w ih =>
      rw [accepted?_reviews]
      by_cases hside : w.accepted = v.accepted
      · rw [Acceptance.settle_of_same (by rw [Acceptance.accepted_settle, hside])]
        exact (ih w).goOn hside.symm
      · rw [Acceptance.settle_of_other fun p hp => by
          rw [← Option.some.inj hp, Acceptance.accepted_settle]
          exact hside]
        refine .turn fun p hp => ?_
        rw [List.getLast?_concat, Option.some_or] at hp
        rw [← Option.some.inj hp]
        exact hside

/-- Let verdicts of any kind be reviewed one after another, `v` being the last so far, in a status with
any conditions.  Behind the conditions of others, in the order that they had, there stands one verdict;
it is the one that was written last, and read back it is that in all its parts.  It says what `v`
says, and its time is that since when the verdicts have been on the side of `v`: the time of the
verdict that began the last unbroken run of this side or, when all of them are on the side of a verdict
that was there before, the time of this one. -/
theorem reviews_recorded (s : Status) (earlier : List Acceptance) (v : Acceptance) :
    ∃ written : Acceptance,
      written = v.settle (s.reviews earlier).accepted? ∧
      (s.reviews (earlier ++ [v])).conditions = s.others ++ [written.toCondition] ∧
      (s.reviews (earlier ++ [v])).conditions.filter
        (fun c => c.type == Acceptance.conditionType) = [written.toCondition] ∧
      (s.reviews (earlier ++ [v])).accepted? = some written ∧
      written = { v with transitionTime := written.transitionTime } ∧
      ∀ t, RunsSince s.accepted? (earlier ++ [v]) t ↔ t = written.transitionTime := by
  have hruns := runsSince_reviews s earlier v
  refine ⟨_, rfl, conditions_reviews s earlier v, ?_, accepted?_reviews s earlier v,
    v.settle_eq _, fun t => ⟨fun h => h.unique hruns, fun h => h ▸ hruns⟩⟩
  rw [conditions_reviews, List.filter_append, filter_others]
  rfl

/-- A verdict that cannot be read stands in front of one that can: the first counts, so the history
begins anew, and of both only what the history says is left. -/
example :
    (reviews ⟨[⟨"Accepted", .unknown, 1, ⟨1, 0⟩, "", ""⟩, ⟨"Ready", .holds, 1, ⟨2, 0⟩, "Synced", ""⟩,
        ⟨"Accepted", .holds, 1, ⟨3, 0⟩, "Accepted", ""⟩]⟩
      [.accept 1 ⟨4, 0⟩, .accept 2 ⟨5, 0⟩]).conditions =
      [⟨"Ready", .holds, 1, ⟨2, 0⟩, "Synced", ""⟩, ⟨"Accepted", .holds, 2, ⟨4, 0⟩, "Accepted", ""⟩] := by
  decide +kernel

end Status
end ControlPlane

import Handover.Proofs.Content
import Handover.Proofs.JobEnd

namespace Handover.Service

variable {δ : Type} {w₀ w : World δ} {ticket : Nat} {tenant : Uuid}
variable {kept : List (RecordType × Value)}

theorem keep_data {env : Environment δ} {c : Surroundings δ} (e : env.Within c) (w : World δ)
    (ticket : Nat) (tenant : Uuid) (type : RecordType) (record : Value) :
    ((keep env ticket tenant type record).outcome w).2.data = (c.writing.outcome w.data).2 := by
  rcases ahead : c.writing.outcome w.data with ⟨failure | _, data⟩
  · rw [keep, Act.outcome_bind_error (outcome_useStorage_error e.save ahead)]
  · rw [keep, Act.outcome_bind, outcome_useStorage_ok e.save ahead]
    rcases ((Storage.save tenant type record).outcome w.storage).1 with failure | _ <;> rfl

section OfStore

variable {plan : JobPlan} {now : Int} {allows : Bool} {bound : Nat} {s : Store}

theorem ports_replies {v : World Store} (h : v.data = s) {call : Call}
    {result : Except Failure call.Reply} (given : s.replies plan.catalogue now call = some result) :
    ((ports (.ofStore plan now allows bound) ticket tenant).perform call).outcome v =
      (result, v) ∧ call.record? = none := by
  subst h
  cases call with
  | keep type record => cases given
  | serve type =>
    cases given
    exact ⟨rfl, rfl⟩
  | ask q =>
    cases given
    exact ⟨rfl, rfl⟩
  | await owner entity timeout =>
    cases given
    exact ⟨rfl, rfl⟩
  | now =>
    cases given
    exact ⟨rfl, rfl⟩

theorem ports_keep_data {v : World Store} (h : v.data = s) {call : Call}
    (left : s.replies plan.catalogue now call = none) :
    (((ports (.ofStore plan now allows bound) ticket tenant).perform call).outcome v).2.data =
      s := by
  cases call with
  | keep type record =>
    exact (keep_data (Environment.ofStore_within plan now allows bound) v ticket tenant type
      record).trans h
  | _ => cases left

/-- A job on a store whose content can be written saves exactly the content and does not fail. -/
theorem content_saved {entitySize eventSize : Int} {timeout : Value} {tenant : Tenant}
    {skipped : List RecordType} {w : World Store} {env : Environment Store}
    (henv : env = .ofStore (.complete entitySize eventSize timeout) now allows bound)
    (entityPositive : 0 < entitySize) (eventPositive : 0 < eventSize)
    (enough : w.data.additions.length < bound) (sound : w.storage.Sound)
    (writable : ∀ row ∈ w.data.content tenant now skipped,
      ∃ line, Json.line row.1 row.2 = .ok line) :
    (content env tenant skipped).saved (ports env ticket tenant.id) (w.begun tenant.id) =
        w.data.content tenant now skipped ∧
      ∃ w₂, ((content env tenant skipped).run (ports env ticket tenant.id)).outcome
        (w.begun tenant.id) = (.ok (), w₂) := by
  have within : env.Within (.ofStore now) := henv ▸ Environment.ofStore_within _ now allows bound
  have answered : (content env tenant skipped).answered (w.data.replies .standard now) =
      Dialogue.keepAll (w.data.content tenant now skipped) := by
    subst henv
    exact Job.answered_exportTenant timeout tenant entityPositive eventPositive enough skipped
  have same : (((content env tenant skipped).answered (w.data.replies .standard now)).run
        (ports env ticket tenant.id)).outcome (w.begun tenant.id) =
          ((content env tenant skipped).run (ports env ticket tenant.id)).outcome
            (w.begun tenant.id) ∧
      ((content env tenant skipped).answered (w.data.replies .standard now)).saved
        (ports env ticket tenant.id) (w.begun tenant.id) =
          (content env tenant skipped).saved (ports env ticket tenant.id) (w.begun tenant.id) := by
    subst henv
    exact Dialogue.run_answered (I := fun v => v.data = w.data)
      (fun _ _ _ h given => ports_replies h given) (fun _ _ h left => ports_keep_data h left) _ rfl
  have kept : (Dialogue.keepAll (w.data.content tenant now skipped)).saved
        (ports env ticket tenant.id) (w.begun tenant.id) = w.data.content tenant now skipped ∧
      ∃ w₂, ((Dialogue.keepAll (w.data.content tenant now skipped)).run
        (ports env ticket tenant.id)).outcome (w.begun tenant.id) = (.ok (), w₂) ∧
          ∃ rows, w.Progress ticket tenant.id rows w₂ := by
    refine Dialogue.run_keepAll (I := fun v => ∃ rows, w.Progress ticket tenant.id rows v) ?_
      ⟨[], w.begun_progress sound.workspace ticket tenant.id⟩
    intro row hrow v ⟨rows, h⟩
    obtain ⟨line, hline⟩ := writable row hrow
    obtain ⟨v', hkeep, h', _⟩ := keep_accepted within h hline rfl
    exact ⟨v', hkeep, _, h'⟩
  rw [answered] at same
  obtain ⟨saved, w₂, run, _⟩ := kept
  exact ⟨same.2.symm.trans saved, w₂, same.1.symm.trans run⟩

end OfStore

end Handover.Service

import Handover.Proofs.JobEnd

namespace Handover

namespace Workspace

/-- The complete lines of a file of a tenant, those with a break at their end. -/
def completeLines (w : Workspace) (tenant : Uuid) (type : RecordType) : List String :=
  match w.lines tenant type with
  | .ok (some parts) => parts.dropLast
  | _ => []

variable {w : Workspace} {tenant : Uuid} {rows : List (RecordType × Value)}

/-- A closed file has the lines of its type and no part of another one; there is none without
lines. -/
theorem Holds.lines_eq (h : w.Sound) (hw : w.Holds tenant (.lines (Holding.written rows)))
    (shut : w.Shut tenant) (type : RecordType) :
    w.lines tenant type =
      if (Holding.linesOf (Holding.written rows) type).isEmpty then .error (.file .noEntry)
      else .ok (some (Holding.linesOf (Holding.written rows) type ++ [""])) := by
  have found := (hw.leadsTo_file type).find (plain_filePath h.plain tenant type)
  have free : w.opened.contains (tenant, type) = false := by
    simpa using shut type
  rw [hw.node?_file, Holding.textsOf] at found
  rw [lines, free]
  by_cases none : (Holding.linesOf (Holding.written rows) type).isEmpty
  · rw [if_pos none] at found ⊢
    rw [found]
    rfl
  · rw [if_neg none] at found ⊢
    rw [found, ← Holding.parts_textOf fun line hline => Holding.break_notMem_written hline]
    rfl

theorem Holds.completeLines_eq (h : w.Sound)
    (hw : w.Holds tenant (.lines (Holding.written rows))) (shut : w.Shut tenant)
    (type : RecordType) :
    w.completeLines tenant type = Holding.linesOf (Holding.written rows) type := by
  rw [completeLines, hw.lines_eq h shut]
  by_cases none : (Holding.linesOf (Holding.written rows) type).isEmpty
  · rw [if_pos none, List.isEmpty_iff.mp none]
  · rw [if_neg none]
    exact List.dropLast_concat

/-- While files are held for a tenant, there is no archive below its folder. -/
theorem Holds.no_archive {texts : RecordType → Option String}
    (hw : w.Holds tenant (.files texts)) (rest : Path) (members : Archive) :
    w.tree.node? (w.tenantPath tenant ++ rest) ≠ some (.archive members) := by
  rw [hw.nodes rest]
  match rest with
  | [] => simp [Holding.node?]
  | [folder] => simp [Holding.node?]
  | [folder, name] => simp [Holding.node?]
  | _ :: _ :: _ :: _ => simp [Holding.node?]

end Workspace

/-- Whether telemetry has not come in time, or its search says so. -/
def Telemetry.IsLate : Telemetry → Prop
  | ready _ => False
  | late => True
  | failed failure => failure.isTimeout = true

variable {δ δ' : Type}

/-- A world in which a job has failed after saving some records: its result says so and counts the
lines in its closed files, which are those of the records, and there is no archive. -/
structure World.Failed (ticket : Nat) (tenant : Uuid) (rows : List (RecordType × Value))
    (failure : Failure) (w : World δ) (ws : Workspace) : Prop where
  storage : w.storage = .here ws
  result : ∃ r, w.result? ticket = some r ∧ r.tenant = tenant ∧ r.status = .failed ∧
    r.error = some failure.trace ∧ ∀ type,
      r.count type = (rows.countP fun row => row.1 = type) ∧
      r.count type = (ws.completeLines tenant type).length
  files : ∀ type, ws.completeLines tenant type = Holding.linesOf (Holding.written rows) type ∧
    ws.lines tenant type =
      if (Holding.linesOf (Holding.written rows) type).isEmpty then .error (.file .noEntry)
      else .ok (some (Holding.linesOf (Holding.written rows) type ++ [""]))
  closed : ws.Shut tenant
  unpacked : ∀ rest members,
    ws.tree.node? (ws.tenantPath tenant ++ rest) ≠ some (.archive members)
  unavailable : Workspace.NamesFile ws.archiveName → (Workspace.fetch tenant).outcome ws =
    (.error (.archiveNotFound (.uuid tenant) (.str (ws.archiveText tenant))), ws)

namespace Service

/-- The exchanges of a job that runs in a world. -/
def exchangedBy (env : Environment δ) (ticket : Nat) (tenant : Tenant) (skipped : List RecordType)
    (w : World δ) : List Exchange :=
  (content env tenant skipped).exchanges (ports env ticket tenant.id)
    ((w.started ticket).begun tenant.id)

/-- The outcome of a job before its files are closed, and the world then. -/
def contentOutcome (env : Environment δ) (ticket : Nat) (tenant : Tenant)
    (skipped : List RecordType) (w : World δ) : Except Failure Unit × World δ :=
  ((content env tenant skipped).run (ports env ticket tenant.id)).outcome
    ((w.started ticket).begun tenant.id)

theorem savedBy_eq (env : Environment δ) (ticket : Nat) (tenant : Tenant)
    (skipped : List RecordType) (w : World δ) :
    savedBy env ticket tenant skipped w =
      (exchangedBy env ticket tenant skipped w).flatMap Exchange.kept :=
  Dialogue.saved_eq _ _

/-- How a job in other surroundings is interrupted: these answer alike up to a call, or up to the
packing of the files, and fail there. The records are those that the job in the first surroundings
has saved by then. -/
inductive Interruption (env : Environment δ) (env' : Environment δ') (packing : Act δ' Unit)
    (ticket ticket' : Nat) (tenant : Tenant) (skipped : List RecordType) (w : World δ)
    (v : World δ') : List (RecordType × Value) → Failure → Prop where
  | call {before rest : List Exchange} {c : Call} {answer : Except Failure c.Reply}
      {failure : Failure}
      (reached : exchangedBy env ticket tenant skipped w = before ++ ⟨c, answer⟩ :: rest)
      (alike : Exchange.Alike before.length (exchangedBy env ticket tenant skipped w)
        (exchangedBy env' ticket' tenant skipped v))
      (fails : ∀ answer', (exchangedBy env' ticket' tenant skipped v)[before.length]? =
        some ⟨c, answer'⟩ → answer' = .error failure) :
      Interruption env env' packing ticket ticket' tenant skipped w v
        (before.flatMap Exchange.kept) failure
  | packing {failure : Failure}
      (done : (contentOutcome env ticket tenant skipped w).1 = .ok ())
      (alike : Exchange.Alike (exchangedBy env ticket tenant skipped w).length
        (exchangedBy env ticket tenant skipped w) (exchangedBy env' ticket' tenant skipped v))
      (fails : (packing.outcome (contentOutcome env' ticket' tenant skipped v).2.data).1 =
        .error failure) :
      Interruption env env' packing ticket ticket' tenant skipped w v
        (savedBy env ticket tenant skipped w) failure

variable {env : Environment δ} {env' : Environment δ'} {c' : Surroundings δ'}
variable {ticket ticket' : Nat} {tenant : Tenant} {skipped : List RecordType}
variable {w : World δ} {v : World δ'} {rows : List (RecordType × Value)} {failure : Failure}

/-- What an interrupted job has done before its files are closed or packed. -/
theorem outcome_interrupted (e : env'.Within c')
    (same : content env' tenant skipped = content env tenant skipped)
    (h : Interruption env env' c'.packing ticket ticket' tenant skipped w v rows failure) :
    savedBy env' ticket' tenant skipped v = rows ∧ rows <+: savedBy env ticket tenant skipped w ∧
      ∃ v₂, (exportTenant env' ticket' tenant skipped).outcome (v.started ticket') =
          (.error failure, v₂) ∧
        ∃ data, v₂ =
          { (contentOutcome env' ticket' tenant skipped v).2.shut tenant.id with data } := by
  rw [savedBy_eq, savedBy_eq]
  have theirs : exchangedBy env' ticket' tenant skipped v =
      (content env tenant skipped).exchanges (ports env' ticket' tenant.id)
        ((v.started ticket').begun tenant.id) := by rw [exchangedBy, same]
  have ended : contentOutcome env' ticket' tenant skipped v =
      ((content env tenant skipped).run (ports env' ticket' tenant.id)).outcome
        ((v.started ticket').begun tenant.id) := by rw [contentOutcome, same]
  rcases run : contentOutcome env' ticket' tenant skipped v with ⟨result, v₁⟩
  cases h with
  | @call before rest c answer failure reached alike fails =>
    have exchanged : exchangedBy env' ticket' tenant skipped v = before ++ [⟨c, .error failure⟩] ∧
        (contentOutcome env' ticket' tenant skipped v).1 = .error failure := by
      rw [theirs] at alike fails ⊢
      rw [ended]
      exact Dialogue.run_interrupted _ reached alike fails
    rw [exchanged.1, reached, List.flatMap_append, List.flatMap_append]
    refine ⟨by simp [Exchange.kept, Call.kept], List.prefix_append _ _, ?_⟩
    have failed := exchanged.2
    rw [run] at failed
    cases failed
    exact ⟨_, outcome_exportTenant_failed e run, _, rfl⟩
  | packing done alike fails =>
    have exchanged : exchangedBy env' ticket' tenant skipped v =
          exchangedBy env ticket tenant skipped w ∧
        (contentOutcome env' ticket' tenant skipped v).1 = .ok () := by
      rw [theirs] at alike ⊢
      rw [← done, ended]
      exact Dialogue.run_alike _ alike
    rw [exchanged.1, savedBy_eq]
    refine ⟨rfl, List.prefix_rfl, ?_⟩
    have succeeded := exchanged.2
    rw [run] at succeeded fails
    cases succeeded
    rcases packing : c'.packing.outcome v₁.data with ⟨result, data⟩
    rw [packing] at fails
    cases fails
    have refused := outcome_pack_refused (w := v₁.shut tenant.id) e packing tenant.id
    exact ⟨_, (outcome_exportTenant_done e run).trans refused, data, rfl⟩

/-- A job that was interrupted leaves its failure in its result, and its files as they were. -/
theorem runExport_failed {v₂ : World δ'} {ws : Workspace} {moment : Instant}
    (queued : v.result? ticket' = some (.submitted tenant.id moment)) (here : v.storage = .here ws)
    (run : (exportTenant env' ticket' tenant skipped).outcome (v.started ticket') =
      (.error failure, v₂))
    (progress : (v.started ticket').Progress ticket' tenant.id rows v₂)
    (shut : v₂.storage.workspace.Shut tenant.id) :
    ∃ v' ws', (runExport env' ticket' tenant skipped).outcome v = (.ok (), v') ∧
      v'.Failed ticket' tenant.id rows failure ws' := by
  obtain ⟨v', ends, ended, storage⟩ := runExport_ends queued run progress.counted
  have sound := progress.workspace.sound
  have holds := progress.workspace.holds
  have complete := holds.completeLines_eq sound shut
  refine ⟨v', v₂.storage.workspace, ends, ?_, ?_, fun type => ⟨complete type, ?_⟩, shut,
    holds.no_archive, fun named => ?_⟩
  · obtain ⟨ws', hs, _⟩ := progress.files
    have local' : (v.started ticket').storage = .here ws := by
      rw [(started_eq queued).2]
      exact here
    rw [storage, hs, local']
    rfl
  · obtain ⟨r, found, owner, status, error, counts⟩ := ended.ended
    refine ⟨r, found, owner, status, error, fun type => ⟨counts type, ?_⟩⟩
    rw [counts, complete, Holding.length_linesOf_written progress.counted.writable]
  · exact holds.lines_eq sound shut type
  · exact Workspace.outcome_fetch_absent sound named holds fun members => by simp

/-- Waiting for telemetry that comes too late fails in a way of its own. -/
theorem perform_await_late (e : env'.Within c') {u : World δ'} {owner : Uuid} {entity : EntityId}
    {timeout : Value} {telemetry : Telemetry} {data : δ'}
    (answer : (c'.ask (.latest owner entity)).outcome u.data = (.ok telemetry, data))
    (late : telemetry.IsLate) :
    ((ports env' ticket' tenant.id).perform (.await owner entity timeout)).outcome u =
      (.error (.telemetryTimeout entity.toValue timeout), { u with data }) := by
  have asked : ((ports env' ticket' tenant.id).ask (.latest owner entity)).outcome u =
      (.ok telemetry, { u with data }) := by
    rw [show (ports env' ticket' tenant.id).ask (.latest owner entity) =
      World.onData (c'.ask (.latest owner entity)) from e.ask _, World.outcome_onData, answer]
  rw [JobPorts.perform, Act.outcome_bind_ok asked, Act.outcome_settle]
  cases telemetry with
  | ready rows => cases late
  | late => rfl
  | failed failure =>
    have timedOut : failure.isTimeout = true := late
    rw [Telemetry.awaited, if_pos timedOut]

end Service

end Handover

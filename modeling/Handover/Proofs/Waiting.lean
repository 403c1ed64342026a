import Handover.Proofs.Skipping

namespace Handover

namespace Dialogue

variable {σ α : Type} {ports : JobPorts σ} {c : Call} {s t t' : σ}

/-- Whether a dialogue that runs from a state performs a call, and in which state. -/
inductive Performs (ports : JobPorts σ) : Dialogue α → σ → Call → σ → Prop
  | here (c : Call) (next : c.Reply → Dialogue α) (s : σ) : Performs ports (call c next) s c s
  | there {c c' : Call} {next : c'.Reply → Dialogue α} {reply : c'.Reply} {s s' t : σ}
    (answer : (ports.perform c').outcome s = (.ok reply, s'))
    (further : Performs ports (next reply) s' c t) : Performs ports (call c' next) s c t

/-- A run ends with the failure of the call that it performs. -/
theorem Performs.outcome_run {d : Dialogue α} (h : Performs ports d s c t) {failure : Failure}
    (fails : (ports.perform c).outcome t = (.error failure, t')) :
    (d.run ports).outcome s = (.error failure, t') := by
  induction h with
  | here c next s => exact outcome_run_call_error fails
  | there answer _ ih =>
    rw [outcome_run_call_ok answer]
    exact ih fails

end Dialogue

variable {σ δ : Type}

/-- Saving one record after the other, up to the first one that is refused. -/
inductive SavesInTurn (ports : JobPorts σ) :
    List (RecordType × Value) → σ → Except Failure Unit × σ → Prop
  | all (s : σ) : SavesInTurn ports [] s (.ok (), s)
  | next {type : RecordType} {record : Value} {rows : List (RecordType × Value)} {s s' : σ}
    {ending : Except Failure Unit × σ} (saved : (ports.keep type record).outcome s = (.ok (), s'))
    (rest : SavesInTurn ports rows s' ending) : SavesInTurn ports ((type, record) :: rows) s ending
  | refused {type : RecordType} {record : Value} (rows : List (RecordType × Value)) {s s' : σ}
    {failure : Failure} (refusal : (ports.keep type record).outcome s = (.error failure, s')) :
    SavesInTurn ports ((type, record) :: rows) s (.error failure, s')

theorem forM_keep_savesInTurn (ports : JobPorts σ) (type : RecordType) (f : Value → Value)
    (rows : List Value) (s : σ) :
    SavesInTurn ports (rows.map fun row => (type, f row)) s
      (((rows.forM fun row => Dialogue.keep type (f row)).run ports).outcome s) := by
  induction rows generalizing s with
  | nil => exact .all s
  | cons row rest ih =>
    rcases run : (ports.keep type (f row)).outcome s with ⟨failure | _, s'⟩
    · have ended : ((((row :: rest).forM fun row => Dialogue.keep type (f row)) :
          Dialogue Unit).run ports).outcome s = (.error failure, s') :=
        Dialogue.outcome_run_call_error run
      rw [ended]
      exact .refused _ run
    · refine .next run ?_
      have went : ((((row :: rest).forM fun row => Dialogue.keep type (f row)) :
          Dialogue Unit).run ports).outcome s = _ := Dialogue.outcome_run_call_ok run
      rw [went]
      exact ih s'

/-- The record of a value of the telemetry of an entity. -/
def EntityId.latestRecord (entity : EntityId) (row : Value) : RecordType × Value :=
  (.latestTsKv, .record .latestTsKv [entity.toValue, row])

section Export

variable {ports : JobPorts σ} {timeout : Value} {tenant : Uuid} {entity : EntityId} {s s' : σ}
variable {telemetry : Telemetry} {failure : Failure}

theorem outcome_await
    (answer : (ports.ask (.latest tenant entity)).outcome s = (.ok telemetry, s')) :
    (ports.perform (.await tenant entity timeout)).outcome s =
      (telemetry.awaited entity timeout, s') := by
  rw [JobPorts.perform, Act.outcome_bind_ok answer, Act.outcome_settle]

theorem exportLatest_ready {rows : List Value}
    (answer : (ports.ask (.latest tenant entity)).outcome s = (.ok (.ready rows), s')) :
    SavesInTurn ports (rows.map entity.latestRecord) s'
      (((Job.exportLatest timeout tenant entity).run ports).outcome s) := by
  have run : ((Job.exportLatest timeout tenant entity).run ports).outcome s = _ :=
    Dialogue.outcome_run_call_ok (outcome_await answer)
  rw [run]
  exact forM_keep_savesInTurn ports .latestTsKv _ rows s'

theorem exportLatest_error
    (answer : (ports.ask (.latest tenant entity)).outcome s = (.ok telemetry, s'))
    (fails : telemetry.awaited entity timeout = .error failure) :
    ((Job.exportLatest timeout tenant entity).run ports).outcome s = (.error failure, s') ∧
      (Job.exportLatest timeout tenant entity).saved ports s = [] := by
  have await : (ports.perform (.await tenant entity timeout)).outcome s = _ := outcome_await answer
  rw [fails] at await
  exact ⟨Dialogue.outcome_run_call_error await, Dialogue.saved_call_error await⟩

end Export

namespace Failure

/-- What an export says when a search for telemetry has failed. -/
def awaited (failure : Failure) (entity : EntityId) (timeout : Value) : Failure :=
  if failure.isTimeout then .telemetryTimeout entity.toValue timeout else failure

/-- The kind of a failure can be read off its trace. -/
theorem kind_of_trace {f g : Failure} (same : f.trace = g.trace) (own : ':' ∉ f.kind.toList)
    (other : ':' ∉ g.kind.toList) : f.kind = g.kind := by
  have front : ∀ h : Failure, ':' ∉ h.kind.toList →
      (h.trace.toList.drop 8).takeWhile (· ≠ ':') = h.kind.toList := by
    intro h simple
    obtain ⟨rest, split, stops⟩ : ∃ rest : List Char,
        h.trace.toList.drop 8 = h.kind.toList ++ rest ∧ rest.takeWhile (· ≠ ':') = [] := by
      rw [trace]
      split
      · exact ⟨[], by simp, rfl⟩
      · exact ⟨": ".toList ++ h.message.toList, by simp, by simp⟩
    have each : ∀ c ∈ h.kind.toList, decide (c ≠ ':') = true := fun c hc =>
      decide_eq_true fun same => simple (same ▸ hc)
    rw [split, List.takeWhile_append_of_pos each, stops, List.append_nil]
  exact String.toList_injective (by rw [← front f own, same, front g other])

theorem trace_ne_of_isTimeout {failure : Failure} (h : failure.isTimeout = true)
    (entity timeout : Value) : (telemetryTimeout entity timeout).trace ≠ failure.trace := by
  cases failure with
  | reported kind args =>
    intro same
    have own : ':' ∉ (telemetryTimeout entity timeout).kind.toList := by
      rw [Failure.kind]
      decide
    exact kind.outside h (kind_of_trace same own kind.simple).symm
  | _ => cases h

theorem awaited_of_isTimeout {failure : Failure} (h : failure.isTimeout = true) (entity : EntityId)
    (timeout : Value) : failure.awaited entity timeout = .telemetryTimeout entity.toValue timeout :=
  if_pos h

theorem awaited_trace_iff (failure : Failure) (entity : EntityId) (timeout : Value) :
    (failure.awaited entity timeout).trace = failure.trace ↔ ¬failure.isTimeout := by
  by_cases timedOut : failure.isTimeout = true
  · rw [awaited, if_pos timedOut]
    exact iff_of_false (trace_ne_of_isTimeout timedOut _ _) (not_not_intro timedOut)
  · rw [awaited, if_neg timedOut]
    exact iff_of_true rfl timedOut

theorem awaited_eq_iff (failure : Failure) (entity : EntityId) (timeout : Value) :
    failure.awaited entity timeout = failure ↔ ¬failure.isTimeout := by
  constructor
  · exact fun same => (awaited_trace_iff failure entity timeout).mp (congrArg trace same)
  · exact fun kept => if_neg kept

end Failure

namespace Service

variable {env : Environment δ} {c : Surroundings δ} {ticket : Nat} {tenant : Tenant}
variable {skipped : List RecordType} {w u : World δ} {owner : Uuid} {entity : EntityId}
variable {timeout : Value} {telemetry : Telemetry} {failure : Failure} {data : δ}

/-- A job that waits in vain ends with the trace of what that fails with. -/
theorem runExport_awaiting (e : env.Within c) {moment : Instant}
    (queued : w.result? ticket = some (.submitted tenant.id moment)) (sound : w.storage.Sound)
    (performs : (content env tenant skipped).Performs (ports env ticket tenant.id)
      ((w.started ticket).begun tenant.id) (.await owner entity timeout) u)
    (answer : (c.ask (.latest owner entity)).outcome u.data = (.ok telemetry, data))
    (fails : telemetry.awaited entity timeout = .error failure) :
    ∃ w' r, (runExport env ticket tenant skipped).outcome w = (.ok (), w') ∧
      w'.result? ticket = some r ∧ r.status = .failed ∧ r.error = some failure.trace := by
  have asked : ((ports env ticket tenant.id).ask (.latest owner entity)).outcome u =
      (.ok telemetry, { u with data }) := by
    rw [show (ports env ticket tenant.id).ask (.latest owner entity) =
      World.onData (c.ask (.latest owner entity)) from e.ask _, World.outcome_onData, answer]
  have await : ((ports env ticket tenant.id).perform (.await owner entity timeout)).outcome u = _ :=
    outcome_await asked
  rw [fails] at await
  have run := performs.outcome_run await
  have started : (w.started ticket).storage.workspace.Sound := by
    rw [(started_eq queued).2]
    exact sound.workspace
  obtain ⟨w', ends, ended, _⟩ := runExport_ends queued (outcome_exportTenant_failed e run)
    (content_progress e started run).counted
  obtain ⟨r, found, _, status, error, _⟩ := ended.ended
  exact ⟨w', r, ends, found, status, error⟩

/-- An export of telemetry saves the rows that its search gives, in their order. If the search
fails, nothing is saved and its failure is raised, unless it is a timeout: then the export says that
the search was too late, as if it had not ended in time. A job keeps the trace of what is raised. -/
theorem latest_failure_kept_iff (entity : EntityId) (timeout : Value) :
    (∀ {σ : Type} (ports : JobPorts σ) (tenant : Uuid) (s s' : σ),
      let ending := ((Job.exportLatest timeout tenant entity).run ports).outcome s
      let saved := (Job.exportLatest timeout tenant entity).saved ports s
      let Answers (telemetry : Telemetry) : Prop :=
        (ports.ask (.latest tenant entity)).outcome s = (.ok telemetry, s')
      (∀ rows, Answers (.ready rows) →
        SavesInTurn ports (rows.map entity.latestRecord) s' ending) ∧
      (∀ failure, Answers (.failed failure) →
        saved = [] ∧ (ending = (.error failure, s') ↔ ¬failure.isTimeout) ∧
        (failure.isTimeout → ending = (.error (.telemetryTimeout entity.toValue timeout), s'))) ∧
      (Answers .late → saved = [] ∧
        ending = (.error (.telemetryTimeout entity.toValue timeout), s'))) ∧
    ∀ {δ : Type} (c : Surroundings δ) (plan : JobPlan) (allows : Bool) (bound ticket : Nat)
      (tenant : Tenant) (skipped : List RecordType) (w u : World δ) (moment : Instant)
      (owner : Uuid) (failure : Failure) (data : δ),
      let env := Environment.around c plan allows bound
      w.result? ticket = some (.submitted tenant.id moment) → w.storage.Sound →
      (content env tenant skipped).Performs (ports env ticket tenant.id)
        ((w.started ticket).begun tenant.id) (.await owner entity timeout) u →
      (c.ask (.latest owner entity)).outcome u.data = (.ok (.failed failure), data) →
      ∃ w' r, (runExport env ticket tenant skipped).outcome w = (.ok (), w') ∧
        w'.result? ticket = some r ∧ r.status = .failed ∧
        (r.error = some failure.trace ↔ ¬failure.isTimeout) ∧
        (failure.isTimeout →
          r.error = some (Failure.telemetryTimeout entity.toValue timeout).trace) := by
  constructor
  · intro σ ports tenant s s' ending saved Answers
    refine ⟨fun rows answer => exportLatest_ready answer, fun failure answer => ?_,
      fun answer => (exportLatest_error answer rfl).symm⟩
    have raised : ending = (.error (failure.awaited entity timeout), s') ∧ saved = [] :=
      exportLatest_error answer rfl
    refine ⟨raised.2, ?_, fun timedOut => ?_⟩
    · rw [raised.1]
      simp [failure.awaited_eq_iff]
    · rw [raised.1, Failure.awaited_of_isTimeout timedOut]
  · intro δ c plan allows bound ticket tenant skipped w u moment owner failure data env queued sound
      performs answer
    have e : env.Within c := Environment.around_within c plan allows bound
    obtain ⟨w', r, ends, found, status, error⟩ := runExport_awaiting e queued sound performs answer rfl
    have told : r.error = some (failure.awaited entity timeout).trace := error
    refine ⟨w', r, ends, found, status, ?_, fun timedOut => ?_⟩
    · rw [told, Option.some_inj, Failure.awaited_trace_iff]
    · rw [told, Failure.awaited_of_isTimeout timedOut]

/-- A search that fails for a reason of its own: the export raises that, a job keeps its trace. -/
theorem latest_failure_kept_iff_broken :
    let entity : EntityId := ⟨"DEVICE", ⟨9⟩⟩
    let device : Value := .record .entity [entity.toValue]
    let failure : Failure := .reported .runtime [.str "search failed"]
    let c : Surroundings Unit :=
      { ask := fun
          | .entities .. => pure ⟨[device], false, none, none⟩
          | .latest .. => pure (.failed failure)
          | _ => throw .endlessPages
        now := pure 0
        writing := pure ()
        packing := pure () }
    let skipped := RecordType.all.filter fun type => type ≠ .device ∧ type ≠ .latestTsKv
    let w : World Unit := ⟨(), [.submitted ⟨7⟩ ⟨0⟩], ⟨1, true, .idle, []⟩, 0, ⟨1, true, []⟩,
      .here (.new "data.tar"), ⟨1⟩, []⟩
    let env := Environment.around c ⟨.standard, 2, 1, .int 5, Related.all⟩ false 9
    (((Job.exportLatest (.int 5) ⟨7⟩ entity).run (ports env 0 ⟨7⟩)).outcome w).1 = .error failure ∧
      ∃ w' r, (runExport env 0 ⟨⟨7⟩, .str "acme"⟩ skipped).outcome w = (.ok (), w') ∧
        w'.result? 0 = some r ∧ r.status = .failed ∧
        r.error = some "<trace> RuntimeError: search failed" := by
  intro entity device failure c skipped w env
  let tenant : Tenant := ⟨⟨7⟩, .str "acme"⟩
  have e : env.Within c := Environment.around_within c _ false 9
  obtain ⟨line, hline⟩ := line_identified .device entity
  let v := (w.started 0).begun tenant.id
  have begun := (w.started 0).begun_progress (Workspace.new_sound _) 0 tenant.id
  obtain ⟨u, keeping, _⟩ := keep_accepted e begun hline rfl
  have performs : (content env tenant skipped).Performs (ports env 0 tenant.id) v
      (.await tenant.id entity (.int 5)) u := by
    have serving : ((ports env 0 tenant.id).perform (.serve .device)).outcome v = (.ok .device, v) :=
      rfl
    have reading : ((ports env 0 tenant.id).perform
        (.ask (.entities .device tenant.id (.first 2)))).outcome v =
          (.ok ⟨[device], false, none, none⟩, v) := rfl
    have kept : ((ports env 0 tenant.id).perform (.keep .device device)).outcome v = (.ok (), u) :=
      keeping
    refine .there serving (.there reading (.there kept ?_))
    exact .here _ _ _
  have main := latest_failure_kept_iff entity (.int 5)
  constructor
  · have raised := (main.1 (ports env 0 ⟨7⟩) ⟨7⟩ w w).2.1 failure rfl
    rw [raised.2.1.mpr (by decide)]
  · obtain ⟨w', r, ends, found, status, error, _⟩ := main.2 c ⟨.standard, 2, 1, .int 5, Related.all⟩
      false 9 0 tenant skipped w u ⟨0⟩ tenant.id failure u.data rfl
      (Storage.here_sound (by decide)) performs rfl
    refine ⟨w', r, ends, found, status, ?_⟩
    rw [error.mpr (by decide)]
    rfl

/-- A search that fails with a timeout of its own: its failure is lost. -/
theorem latest_failure_replaced :
    let entity : EntityId := ⟨"DEVICE", ⟨9⟩⟩
    let failure : Failure := .reported .timeout [.str "statement timeout"]
    let late : Failure := .telemetryTimeout entity.toValue (.int 5)
    let ports : JobPorts Unit :=
      { serve := pure
        ask := fun
          | .latest .. => pure (.failed failure)
          | _ => throw .endlessPages
        now := pure 0
        keep := fun _ _ => pure () }
    (ports.ask (.latest ⟨7⟩ entity)).outcome () = (.ok (.failed failure), ()) ∧
      ((Job.exportLatest (.int 5) ⟨7⟩ entity).run ports).outcome () = (.error late, ()) ∧
      late ≠ failure ∧ late.trace ≠ failure.trace := by
  intro entity failure late ports
  exact ⟨rfl, rfl, nofun, Failure.trace_ne_of_isTimeout rfl _ _⟩

end Service

end Handover

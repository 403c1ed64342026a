import Handover.Proofs.JobRun

namespace Handover

variable {δ : Type}

namespace World

variable {w w' : World δ} {ticket : Nat} {tenant : Uuid}

def begun (w : World δ) (tenant : Uuid) : World δ :=
  w.withWorkspace (w.storage.workspace.prepared tenant)

def shut (w : World δ) (tenant : Uuid) : World δ :=
  w.withWorkspace (w.storage.workspace.closed tenant)

def marked (w : World δ) (ticket : Nat) (r : JobResult) : World δ :=
  { w.setResult ticket r with clock := w.clock.tick }

def started (w : World δ) (ticket : Nat) : World δ :=
  ((Service.markResult ticket .running).outcome w).2

theorem begun_progress (h : w.storage.workspace.Sound) (ticket : Nat) (tenant : Uuid) :
    w.Progress ticket tenant [] (w.begun tenant) := by
  refine ⟨⟨rfl, rfl, rfl, rfl, ?_, by simp⟩, w.storage.workspace.prepared tenant, rfl,
    Workspace.prepared_changed h tenant⟩
  exact (List.modify_id ticket w.results).symm

theorem shut_closed (w : World δ) (tenant : Uuid) :
    (w.shut tenant).storage.workspace.Shut tenant := by
  rw [shut, withWorkspace, Storage.workspace_withWorkspace]
  exact Workspace.closed_shut _ tenant

end World

namespace Service

variable {env : Environment δ} {c : Surroundings δ}
variable {w w₂ : World δ} {ticket : Nat} {tenant : Tenant} {skipped : List RecordType}

/-- The records that a job saves when it runs in a world. -/
def savedBy (env : Environment δ) (ticket : Nat) (tenant : Tenant) (skipped : List RecordType)
    (w : World δ) : List (RecordType × Value) :=
  (content env tenant skipped).saved (ports env ticket tenant.id)
    ((w.started ticket).begun tenant.id)

theorem outcome_prepare (e : env.Within c) (w : World δ) (tenant : Uuid) :
    (useStorage env .prepare (Storage.prepare tenant)).outcome w =
      (.ok (), w.begun tenant) :=
  outcome_useStorage (e.others _ (by simp) (by simp)) (Storage.outcome_prepare w.storage tenant)

theorem outcome_close (e : env.Within c) (w : World δ) (tenant : Uuid) :
    (useStorage env .close (Storage.close tenant)).outcome w =
      (.ok (), w.shut tenant) :=
  outcome_useStorage (e.others _ (by simp) (by simp)) (Storage.outcome_close w.storage tenant)

theorem outcome_content_closed (e : env.Within c) {result : Except Failure Unit}
    (run : ((content env tenant skipped).run
      (ports env ticket tenant.id)).outcome (w.begun tenant.id) =
        (result, w₂)) :
    (((content env tenant skipped).run
      (ports env ticket tenant.id)).followedBy
        (useStorage env .close (Storage.close tenant.id))).outcome
          (w.begun tenant.id) = (result, w₂.shut tenant.id) := by
  have after : (((content env tenant skipped).run
      (ports env ticket tenant.id)).outcome (w.begun tenant.id)).2 =
        w₂ := by rw [run]
  have closing : (useStorage env .close
      (Storage.close tenant.id)).outcome _ = (.ok (), _) := outcome_close e w₂ tenant.id
  rw [← after] at closing
  rw [Act.outcome_followedBy closing, run]

theorem outcome_exportTenant_failed (e : env.Within c) {failure : Failure}
    (run : ((content env tenant skipped).run
      (ports env ticket tenant.id)).outcome (w.begun tenant.id) =
        (.error failure, w₂)) :
    (exportTenant env ticket tenant skipped).outcome w =
      (.error failure, w₂.shut tenant.id) := by
  rw [exportTenant, Act.outcome_bind_ok (outcome_prepare e w tenant.id),
    Act.outcome_bind_error (outcome_content_closed e run)]

theorem outcome_exportTenant_done (e : env.Within c)
    (run : ((content env tenant skipped).run
      (ports env ticket tenant.id)).outcome (w.begun tenant.id) =
        (.ok (), w₂)) :
    (exportTenant env ticket tenant skipped).outcome w =
      (useStorage env .pack (Storage.pack tenant.id)).outcome
        (w₂.shut tenant.id) := by
  rw [exportTenant, Act.outcome_bind_ok (outcome_prepare e w tenant.id),
    Act.outcome_bind_ok (outcome_content_closed e run)]

theorem content_progress (e : env.Within c) (h : w.storage.workspace.Sound)
    {result : Except Failure Unit}
    (run : ((content env tenant skipped).run
      (ports env ticket tenant.id)).outcome (w.begun tenant.id) =
        (result, w₂)) :
    w.Progress ticket tenant.id ((content env tenant skipped).saved
      (ports env ticket tenant.id) (w.begun tenant.id))
      (w₂.shut tenant.id) := by
  have := run_progress e (content env tenant skipped)
    (w.begun_progress h ticket tenant.id)
  rw [run, List.nil_append] at this
  exact this.closed

/-- Packing that is let happen leaves the archive of the lines of a job. -/
theorem outcome_pack (e : env.Within c) {w₀ : World δ} {kept : List (RecordType × Value)} {data : δ}
    (sound : w₀.storage.Sound) (h : w₀.Progress ticket tenant.id kept w)
    (packing : c.packing.outcome w.data = (.ok (), data)) :
    ∃ s, (useStorage env .pack (Storage.pack tenant.id)).outcome w =
        (.ok (), { w with data, storage := s }) ∧
      Storage.Spares tenant.id w₀.storage s ∧
      s.Keeps tenant.id (Holding.archiveOf (Holding.written kept)) := by
  obtain ⟨ws, hs, changed⟩ := h.files
  have spared := Storage.spares_withWorkspace sound changed
  rw [← hs] at spared
  obtain ⟨s, pack, spares, keeps⟩ := Storage.outcome_pack spared.sound h.workspace.holds
  refine ⟨s, ?_, spared.trans spares, keeps⟩
  rw [outcome_useStorage_ok e.pack packing, pack]

theorem outcome_pack_refused (e : env.Within c) {failure : Failure} {data : δ}
    (packing : c.packing.outcome w.data = (.error failure, data)) (tenant : Uuid) :
    (useStorage env .pack (Storage.pack tenant)).outcome w =
      (.error failure, { w with data }) :=
  outcome_useStorage_error e.pack packing

/-- The end of a job: either its archive is made from what it has saved, or its files stay as they
were at the failure, and are closed. -/
theorem exportTenant_ends (e : env.Within c) (h : w.storage.Sound) :
    ∃ result w₂, (exportTenant env ticket tenant skipped).outcome w =
        (result, w₂) ∧
      w.Counted ticket ((content env tenant skipped).saved
        (ports env ticket tenant.id) (w.begun tenant.id)) w₂ ∧
      Storage.Spares tenant.id w.storage w₂.storage ∧
      (result = .ok () → w₂.storage.Keeps tenant.id (Holding.archiveOf (Holding.written
        ((content env tenant skipped).saved
          (ports env ticket tenant.id) (w.begun tenant.id))))) := by
  rcases run : ((content env tenant skipped).run
    (ports env ticket tenant.id)).outcome (w.begun tenant.id) with
    ⟨result, w₁⟩
  have progress := content_progress e h.workspace run
  have spares : Storage.Spares tenant.id w.storage (w₁.shut tenant.id).storage := by
    obtain ⟨ws, hs, changed⟩ := progress.files
    rw [hs]
    exact Storage.spares_withWorkspace h changed
  rcases result with failure | _
  · exact ⟨_, _, outcome_exportTenant_failed e run, progress.counted, spares, by simp⟩
  · rcases packing : c.packing.outcome (w₁.shut tenant.id).data with ⟨failure | _, data⟩
    · have refused := outcome_pack_refused e packing tenant.id
      refine ⟨_, _, (outcome_exportTenant_done e run).trans refused, ?_, spares, by simp⟩
      exact (progress.withData data).counted
    · obtain ⟨s, pack, spares, keeps⟩ := outcome_pack e h progress packing
      refine ⟨_, _, (outcome_exportTenant_done e run).trans pack, ?_, spares, fun _ => keeps⟩
      have counted := progress.counted
      exact ⟨counted.registry, counted.time, counted.worker, counted.clock, counted.results,
        counted.writable⟩

theorem outcome_markResult {mark : Mark} {r r' : JobResult} (hr : w.result? ticket = some r)
    (accepted : mark.apply r w.clock.now = .ok r') :
    (markResult ticket mark).outcome w = (.ok (), w.marked ticket r') := by
  rw [markResult, Act.outcome_bind_ok (Act.outcome_get w)]
  dsimp only
  rw [hr]
  dsimp only
  rw [JobResult.mark, accepted]
  rfl

theorem started_eq {owner : Uuid} {moment : Instant}
    (hr : w.result? ticket = some (.submitted owner moment)) :
    (markResult ticket .running).outcome w = (.ok (), w.started ticket) ∧
      w.started ticket = w.marked ticket { JobResult.submitted owner moment with
        status := .running, startedAt := some w.clock.now } := by
  have accepted : Mark.running.apply (.submitted owner moment) w.clock.now =
      .ok { JobResult.submitted owner moment with
        status := .running, startedAt := some w.clock.now } := rfl
  have run := outcome_markResult hr accepted
  rw [World.started, run]
  exact ⟨rfl, rfl⟩

def endStatus : Except Failure Unit → JobStatus
  | .ok () => .succeeded
  | .error _ => .failed

def endError : Except Failure Unit → Option String
  | .ok () => none
  | .error failure => some failure.trace

theorem ofOutcome_accepted {r : JobResult} (h : r.status = .running) (result : Except Failure Unit)
    (now : Instant) : (Mark.ofOutcome result).apply r now = .ok { r with
      status := endStatus result, error := endError result, completedAt := some now } := by
  have running : r.isDone = false := JobResult.isDone_of h
  rcases result with failure | _
  · show r.finish .failed (some failure.trace) now = _
    rw [JobResult.finish, running]
    rfl
  · show r.finish .succeeded none now = _
    rw [JobResult.finish, running]
    rfl

end Service

/-- A world after a job has ended: its result tells how and counts the records that it has saved,
and its time starts anew if it is still registered. -/
structure World.Ended (w : World δ) (ticket : Nat) (tenant owner : Uuid)
    (rows : List (RecordType × Value)) (result : Except Failure Unit) (w' : World δ) : Prop where
  registry : w'.registry = (w.registry.touch w.time tenant ticket).2
  time : w'.time = w.time
  worker : w'.worker = w.worker
  size : w'.results.length = w.results.length
  others : ∀ other, other ≠ ticket → w'.result? other = w.result? other
  ended : ∃ r, w'.result? ticket = some r ∧ r.tenant = owner ∧
    r.status = Service.endStatus result ∧ r.error = Service.endError result ∧
    ∀ type, r.count type = rows.countP fun row => row.1 = type

namespace Service

theorem outcome_touch (w : World δ) (tenant : Uuid) (ticket : Nat) :
    (touch tenant ticket).outcome w =
      (.ok (), { w with registry := (w.registry.touch w.time tenant ticket).2 }) := by
  rw [touch, Act.outcome_discard]
  rfl

/-- A job that is run leaves no failure, whatever the outcome of its export. -/
theorem runExport_ends {env : Environment δ} {w w₂ : World δ} {ticket : Nat} {tenant : Tenant}
    {skipped : List RecordType} {owner : Uuid} {moment : Instant}
    {rows : List (RecordType × Value)} {result : Except Failure Unit}
    (hr : w.result? ticket = some (.submitted owner moment))
    (run : (exportTenant env ticket tenant skipped).outcome (w.started ticket) = (result, w₂))
    (counted : (w.started ticket).Counted ticket rows w₂) :
    ∃ w', (runExport env ticket tenant skipped).outcome w = (.ok (), w') ∧
      w.Ended ticket tenant.id owner rows result w' ∧ w'.storage = w₂.storage := by
  obtain ⟨marking, started⟩ := started_eq hr
  obtain ⟨hlt, _⟩ := List.getElem?_eq_some_iff.mp hr
  let r₁ : JobResult := { JobResult.submitted owner moment with
    status := .running, startedAt := some w.clock.now }
  have found : w₂.result? ticket = some (r₁.reported rows) := by
    rw [World.result?, counted.results, started]
    show ((w.results.set ticket r₁).modify ticket _)[ticket]? = _
    rw [List.getElem?_modify_eq, List.getElem?_set_self hlt]
    rfl
  have running : (r₁.reported rows).status = .running := (r₁.reported_fields rows).1
  let r₂ : JobResult := { r₁.reported rows with
    status := endStatus result, error := endError result, completedAt := some w₂.clock.now }
  have ending : (finishExport env ticket tenant skipped).outcome (w.started ticket) =
      (.ok (), w₂.marked ticket r₂) := by
    rw [finishExport, Act.outcome_bind_ok (Act.outcome_attempt _ _), run]
    exact outcome_markResult found (ofOutcome_accepted running result w₂.clock.now)
  have touching := outcome_touch (w₂.marked ticket r₂) tenant.id ticket
  refine ⟨{ w₂.marked ticket r₂ with registry := (w₂.registry.touch w₂.time tenant.id ticket).2 },
    ?_, ⟨?_, ?_, ?_, ?_, ?_, r₂, ?_, ?_, rfl, rfl, ?_⟩, rfl⟩
  · rw [runExport, Act.outcome_bind_ok marking]
    refine (Act.outcome_followedBy ?_).trans (congrArg (·, _) (congrArg Prod.fst ending))
    rw [ending]
    exact touching
  · rw [counted.registry, counted.time, started]
    rfl
  · exact counted.time.trans (by rw [started]; rfl)
  · exact counted.worker.trans (by rw [started]; rfl)
  · show (w₂.results.set ticket r₂).length = _
    rw [List.length_set, counted.results, List.length_modify, started]
    exact List.length_set
  · intro other hne
    show (w₂.results.set ticket r₂)[other]? = _
    rw [List.getElem?_set_ne (Ne.symm hne), counted.results,
      List.getElem?_modify_ne _ _ (Ne.symm hne), started]
    exact List.getElem?_set_ne (Ne.symm hne)
  · show (w₂.results.set ticket r₂)[ticket]? = _
    refine List.getElem?_set_self ?_
    rw [counted.results, List.length_modify, started]
    exact Nat.lt_of_lt_of_eq hlt List.length_set.symm
  · exact (r₁.reported_fields rows).2
  · intro type
    have := r₁.count_reported rows type
    rwa [show r₁.count type = 0 from rfl, Nat.zero_add] at this

end Service

end Handover

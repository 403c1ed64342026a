import Handover.Proofs.Lateness
import Handover.Proofs.Turns

namespace Handover

open Service

variable {δ : Type}

/-- A result of a tenant that runs and counts nothing yet. -/
structure JobResult.Begun (tenant : Uuid) (r : JobResult) : Prop where
  running : r.status = .running
  owner : r.tenant = tenant
  blank : r.stats = []

namespace World

/-- A world in which a job is on duty and has saved some records, which its result counts. -/
structure Engaged (w : World δ) (chronicle : Chronicle) (job : Running)
    (rows : List (RecordType × Value)) : Prop
    extends w.OnDuty chronicle job.ticket job.tenant.id where
  running : ∃ r : JobResult, w.result? job.ticket = some (r.reported rows) ∧
    r.Begun job.tenant.id
  writable : ∀ row ∈ rows, ∃ line, Json.line row.1 row.2 = .ok line

/-- Whether what is stored for a job is what the rest of the job needs. -/
def Furnished (w : World δ) (job : Running) (rows : List (RecordType × Value)) : Rest → Prop
  | .prepare _ => rows = []
  | .save _ | .pack =>
    w.storage.workspace.Holds job.tenant.id (.lines (Holding.written rows))
  | .finish (.ok ()) =>
    w.storage.Keeps job.tenant.id (Holding.archiveOf (Holding.written rows))
  | .finish (.error _) | .leave => True

variable {w w' : World δ} {chronicle : Chronicle} {job : Running}
variable {rows rows' : List (RecordType × Value)} {rest : Rest}

theorem OnDuty.furthered {ticket : Nat} {tenant : Uuid} {r : JobResult}
    (duty : w.OnDuty chronicle ticket tenant) (further : w.Furthers ticket tenant w')
    (result : w'.result? ticket = some r) (owner : r.tenant = tenant)
    (unfinished : r.isDone = false) : w'.OnDuty chronicle ticket tenant := by
  obtain ⟨newest, r', hv, hr', unfinished'⟩ := duty.registered
  refine ⟨?_, ⟨r, result, owner⟩, newest, ?_⟩
  · rw [further.worker, further.size]
    exact duty.order
  · by_cases hne : newest = ticket
    · subst hne
      exact ⟨r, (further.value tenant).trans hv, result, unfinished⟩
    · exact ⟨r', (further.value tenant).trans hv, (further.others newest hne).trans hr',
        unfinished'⟩

/-- The world after something that a job on duty does while its result is running. -/
theorem Consistent.engaged (h : w.Consistent chronicle)
    (duty : w.OnDuty chronicle job.ticket job.tenant.id)
    (further : w.Furthers job.ticket job.tenant.id w') {r : JobResult}
    (result : w'.result? job.ticket = some (r.reported rows)) (begun : r.Begun job.tenant.id)
    (writable : ∀ row ∈ rows, ∃ line, Json.line row.1 row.2 = .ok line) :
    w'.Consistent chronicle ∧ w'.Engaged chronicle job rows := by
  obtain ⟨status, tenant⟩ := r.reported_fields rows
  have running := status.trans begun.running
  have owner := tenant.trans begun.owner
  have order : (chronicle.map (·.1) ++ w.worker.waiting.filterMap Task.ticket? ++
      [w.results.length]).Pairwise (· < ·) := by
    rw [List.append_assoc]
    exact duty.order.sublist ((List.Sublist.refl _).append (List.sublist_cons_self _ _))
  refine ⟨h.furthered duty further (fun _ hm => hm) order result owner ?_ ?_,
    duty.furthered further result owner (JobResult.isDone_of running), ⟨r, result, begun⟩, writable⟩
  · exact fun failed => nomatch running.symm.trans failed
  · exact fun succeeded => nomatch running.symm.trans succeeded

/-- How far a job has come, told from the world as it would be with a result that counts nothing. -/
theorem Engaged.progress (h : w.Engaged chronicle job rows) (sound : w.storage.Sound)
    (holds : w.storage.workspace.Holds job.tenant.id (.lines (Holding.written rows))) :
    ∃ r : JobResult, r.Begun job.tenant.id ∧
      (w.setResult job.ticket r).Progress job.ticket job.tenant.id rows w := by
  obtain ⟨r, result, begun⟩ := h.running
  obtain ⟨hlt, _⟩ := List.getElem?_eq_some_iff.mp result
  refine ⟨r, begun, ⟨rfl, rfl, rfl, rfl, ?_, h.writable⟩, w.storage.workspace,
    w.storage.withWorkspace_workspace.symm, sound.workspace, .refl _ _, holds⟩
  show w.results = (w.results.set job.ticket r).modify job.ticket fun r => r.reported rows
  refine List.ext_getElem? fun other => ?_
  by_cases hne : other = job.ticket
  · subst hne
    rw [List.getElem?_modify_eq, List.getElem?_set_self hlt]
    exact result
  · rw [List.getElem?_modify_ne _ _ (Ne.symm hne), List.getElem?_set_ne (Ne.symm hne)]

/-- What a job has come to since then is the work of a job on duty. -/
theorem Progress.engaged {r : JobResult} (h : w.Consistent chronicle)
    (engaged : w.Engaged chronicle job rows)
    (begun : r.Begun job.tenant.id)
    (progress : (w.setResult job.ticket r).Progress job.ticket job.tenant.id rows' w') :
    w'.Consistent chronicle ∧ w'.Engaged chronicle job rows' := by
  obtain ⟨counted, ws, files, changed⟩ := progress
  obtain ⟨_, found, _⟩ := engaged.running
  obtain ⟨hlt, _⟩ := List.getElem?_eq_some_iff.mp found
  have further : w.Furthers job.ticket job.tenant.id w' := by
    refine ⟨?_, fun other => ?_, counted.worker, ?_, fun other hne => ?_, ?_⟩
    · rw [counted.registry]
      exact h.registry
    · rw [counted.registry]
      rfl
    · rw [counted.results, List.length_modify]
      exact List.length_set
    · rw [result?, counted.results, List.getElem?_modify_ne _ _ (Ne.symm hne)]
      exact List.getElem?_set_ne (Ne.symm hne)
    · rw [files]
      exact Storage.spares_withWorkspace h.storage changed
  have result : w'.result? job.ticket = some (r.reported rows') := by
    rw [result?, counted.results, List.getElem?_modify_eq]
    exact congrArg (Option.map _) (List.getElem?_set_self hlt)
  exact h.engaged engaged.toOnDuty further result begun counted.writable

/-- What the next thing that a job does leaves: a consistent world, and the job still furnished with
what it needs, unless it has only to leave. -/
def Goes (job : Running) (left : Rest × World δ) : Prop :=
  ∃ chronicle, left.2.Consistent chronicle ∧ (left.1 ≠ .leave → ∃ rows,
    left.2.Engaged chronicle job rows ∧ left.2.Furnished job rows left.1)

end World

namespace Service

variable {env : Environment δ} {c : Surroundings δ} {w w' : World δ} {chronicle : Chronicle}
variable {job : Running} {rows : List (RecordType × Value)}

theorem prepare_goes (e : env.Within c) (h : w.Consistent chronicle)
    (engaged : w.Engaged chronicle job []) (skipped : List RecordType) :
    World.Goes job ((Rest.prepare skipped).go env job w) := by
  have changed := Workspace.prepared_changed h.storage.workspace job.tenant.id
  obtain ⟨r, result, begun⟩ := engaged.running
  have further : w.Furthers job.ticket job.tenant.id (w.begun job.tenant.id) :=
    ⟨h.registry, fun _ => rfl, rfl, rfl, fun _ _ => rfl,
      Storage.spares_withWorkspace h.storage changed⟩
  obtain ⟨consistent, engaged'⟩ :=
    h.engaged engaged.toOnDuty further result begun engaged.writable
  rw [Rest.go, Rest.follow, outcome_prepare e w job.tenant.id]
  refine ⟨chronicle, consistent, fun _ => ⟨[], engaged', ?_⟩⟩
  show (w.storage.withWorkspace _).workspace.Holds _ _
  rw [Storage.workspace_withWorkspace]
  exact changed.holds

/-- A record that is saved is one more line in the files of the job. -/
theorem call_goes (e : env.Within c) (h : w.Consistent chronicle)
    (engaged : w.Engaged chronicle job rows)
    (holds : w.storage.workspace.Holds job.tenant.id (.lines (Holding.written rows)))
    (wanted : Call) (next : wanted.Reply → Dialogue Unit) :
    World.Goes job ((Rest.save (.call wanted next)).go env job w) := by
  obtain ⟨r, begun, progress⟩ := engaged.progress h.storage holds
  rcases run : ((ports env job.ticket job.tenant.id).perform wanted).outcome w with ⟨result, w'⟩
  have further := perform_progress e progress run
  obtain ⟨consistent, engaged'⟩ := World.Progress.engaged h engaged begun further
  rw [Rest.go, Rest.follow, run]
  refine ⟨chronicle, consistent, fun _ => ⟨_, engaged', ?_⟩⟩
  rcases result with failure | reply
  · exact further.workspace.holds
  · exact further.workspace.holds

theorem close_goes (e : env.Within c) (h : w.Consistent chronicle)
    (engaged : w.Engaged chronicle job rows)
    (holds : w.storage.workspace.Holds job.tenant.id (.lines (Holding.written rows)))
    (saved : Except Failure Unit) :
    World.Goes job (Rest.follow (useStorage env .close (Storage.close job.tenant.id))
      (Rest.closed saved) w) := by
  obtain ⟨r, begun, progress⟩ := engaged.progress h.storage holds
  have further := progress.closed
  obtain ⟨consistent, engaged'⟩ := World.Progress.engaged h engaged begun further
  rw [Rest.follow, outcome_close e w job.tenant.id]
  refine ⟨chronicle, consistent, fun _ => ⟨rows, engaged', ?_⟩⟩
  rcases saved with failure | _
  · trivial
  · exact further.workspace.holds

/-- What is packed is the archive of the records that the job has saved. -/
theorem pack_goes (e : env.Within c) (h : w.Consistent chronicle)
    (engaged : w.Engaged chronicle job rows)
    (holds : w.storage.workspace.Holds job.tenant.id (.lines (Holding.written rows))) :
    World.Goes job (Rest.pack.go env job w) := by
  obtain ⟨r, begun, progress⟩ := engaged.progress h.storage holds
  rcases packing : c.packing.outcome w.data with ⟨failure | _, data⟩
  · obtain ⟨consistent, engaged'⟩ :=
      World.Progress.engaged h engaged begun (progress.withData data)
    rw [Rest.go, Rest.follow, outcome_pack_refused e packing job.tenant.id]
    exact ⟨chronicle, consistent, fun _ => ⟨rows, engaged', trivial⟩⟩
  · have sound : (w.setResult job.ticket r).storage.Sound := h.storage
    obtain ⟨s, pack, spares, keeps⟩ := outcome_pack e sound progress packing
    have further : w.Furthers job.ticket job.tenant.id { w with data, storage := s } :=
      ⟨h.registry, fun _ => rfl, rfl, rfl, fun _ _ => rfl, spares⟩
    obtain ⟨r', result, begun'⟩ := engaged.running
    obtain ⟨consistent, engaged'⟩ :=
      h.engaged engaged.toOnDuty further result begun' engaged.writable
    rw [Rest.go, Rest.follow, pack]
    exact ⟨chronicle, consistent, fun _ => ⟨rows, engaged', keeps⟩⟩

/-- The result of a job ends as the job has ended, with the archive in its place if it succeeded. -/
theorem finish_goes (env : Environment δ) (h : w.Consistent chronicle)
    (engaged : w.Engaged chronicle job rows) {outcome : Except Failure Unit}
    (furnished : w.Furnished job rows (.finish outcome)) :
    World.Goes job ((Rest.finish outcome).go env job w) := by
  obtain ⟨r, result, begun⟩ := engaged.running
  obtain ⟨status, owner⟩ := r.reported_fields rows
  obtain ⟨hlt, _⟩ := List.getElem?_eq_some_iff.mp result
  let ended : JobResult := { r.reported rows with
    status := endStatus outcome, error := endError outcome, completedAt := some w.clock.now }
  have accepted : (Mark.ofOutcome outcome).apply (r.reported rows) w.clock.now = .ok ended :=
    ofOutcome_accepted (status.trans begun.running) outcome w.clock.now
  rw [Rest.go, Rest.follow, Act.outcome_followedBy_state, outcome_markResult result accepted,
    outcome_touch]
  refine ⟨chronicle ++ [(job.ticket, rows)], ?_, fun working => absurd rfl working⟩
  have further : w.Furthers job.ticket job.tenant.id { w.marked job.ticket ended with
      registry := (w.registry.touch w.time job.tenant.id job.ticket).2 } :=
    ⟨h.registry.touch _ _ _, fun other => Registry.touch_value? _ _ _ other _, rfl,
      List.length_set, fun other hne => List.getElem?_set_ne (Ne.symm hne), h.storage.spares _⟩
  refine h.ended engaged.toOnDuty further (List.getElem?_set_self hlt) (owner.trans begun.owner) rfl
    rfl (fun type => ?_) engaged.writable fun done => ?_
  · have nothing : r.count type = 0 := by rw [JobResult.count, begun.blank]; rfl
    exact (r.count_reported rows type).trans (by rw [nothing, Nat.zero_add])
  · subst done
    exact furnished

/-- Whatever a job does next, all belongs together, and the rest of the job finds what it needs. -/
theorem go_goes (e : env.Within c) (h : w.Consistent chronicle)
    (engaged : w.Engaged chronicle job rows) {rest : Rest} (furnished : w.Furnished job rows rest)
    (working : rest ≠ .leave) : World.Goes job (rest.go env job w) := by
  cases rest with
  | prepare skipped =>
    obtain rfl : rows = [] := furnished
    exact prepare_goes e h engaged skipped
  | save content =>
    cases content with
    | done a => exact close_goes e h engaged furnished (.ok ())
    | failed failure => exact close_goes e h engaged furnished (.error failure)
    | call wanted next => exact call_goes e h engaged furnished wanted next
  | pack => exact pack_goes e h engaged furnished
  | finish outcome => exact finish_goes env h engaged furnished
  | leave => exact absurd rfl working

end Service

namespace World

variable {w w' : World δ} {chronicle : Chronicle} {job : Running}
variable {rows : List (RecordType × Value)} {rest : Rest}

/-- A job finds what it needs where the archives and files of its tenant have stayed. -/
theorem Furnished.of_kept (h : w.Furnished job rows rest)
    (archives : ∀ members, w.storage.Keeps job.tenant.id members →
      w'.storage.Keeps job.tenant.id members)
    (files : ∀ held, w.storage.workspace.Holds job.tenant.id held →
      w'.storage.workspace.Holds job.tenant.id held) : w'.Furnished job rows rest := by
  cases rest with
  | prepare skipped => exact h
  | save content => exact files _ h
  | pack => exact files _ h
  | finish outcome =>
    cases outcome with
    | error failure => trivial
    | ok => exact archives _ h
  | leave => trivial

/-- A job on duty is not disturbed by something that makes nothing. -/
theorem Engaged.trims (h : w.Engaged chronicle job rows) (furnished : w.Furnished job rows rest)
    (trims : w.Trims w') : w'.Engaged chronicle job rows ∧ w'.Furnished job rows rest := by
  have result := result?_congr trims.results
  obtain ⟨r, found, owner⟩ := h.owned
  obtain ⟨newest, r', hv, hr', unfinished⟩ := h.registered
  have hv' := trims.retained job.tenant.id newest hv (not_evictable hr' unfinished)
  refine ⟨⟨⟨?_, ⟨r, (result _).trans found, owner⟩, newest, r', hv', (result newest).trans hr',
    unfinished⟩, ?_, h.writable⟩, furnished.of_kept (fun members => trims.kept _ newest members hv')
      fun held => trims.files _ newest held hv'⟩
  · rw [trims.worker, trims.results]
    exact h.order
  · rw [result]
    exact h.running

/-- A job on duty is not disturbed by an export that is entered, not even for the same tenant. -/
theorem Engaged.entered (h : w.Engaged chronicle job rows) (furnished : w.Furnished job rows rest)
    {tenant : Tenant} {skipped : List RecordType} {s : Storage} {worker : Worker Task}
    (submitted : w.worker.submit (.job w.results.length tenant skipped) = .ok worker)
    (spares : Storage.Spares tenant.id w.storage s)
    (untouched : (w.registry.value? tenant.id).any w.isEvictable = false → s = w.storage) :
    let v : World δ := { w.registered tenant.id with storage := s, worker }
    v.Engaged chronicle job rows ∧ v.Furnished job rows rest := by
  intro v
  obtain ⟨waiting, _⟩ := Worker.submit_ok submitted
  obtain ⟨r, found, owner⟩ := h.owned
  obtain ⟨newest, r', hv, hr', unfinished⟩ := h.registered
  obtain ⟨begun, running, fields⟩ := h.running
  have registered : ∃ newest r, v.registry.value? job.tenant.id = some newest ∧
      v.result? newest = some r ∧ r.isDone = false := by
    by_cases same : job.tenant.id = tenant.id
    · rw [same]
      exact ⟨w.results.length, _, Registry.value?_put_self .., result?_registered_new w _, rfl⟩
    · exact ⟨newest, r', (Registry.value?_put_of_ne _ _ _ same).trans hv,
        result?_registered_old hr', unfinished⟩
  -- What is stored for the tenant of the job stays: it is another tenant's that is cleaned up, or
  -- nothing is, since the job that is replaced is not finished.
  have same : job.tenant.id = tenant.id → s = w.storage := by
    intro same
    refine untouched ?_
    rw [← same, hv]
    exact not_evictable hr' unfinished
  have files : ∀ held, w.storage.workspace.Holds job.tenant.id held →
      s.workspace.Holds job.tenant.id held := by
    intro held holds
    by_cases hne : job.tenant.id = tenant.id
    · rwa [same hne]
    · exact spares.beside.holds hne holds
  have archives : ∀ members, w.storage.Keeps job.tenant.id members →
      s.Keeps job.tenant.id members := by
    intro members keeps
    by_cases hne : job.tenant.id = tenant.id
    · rwa [same hne]
    · exact spares.others _ hne members keeps
  have order : (chronicle.map (·.1) ++ job.ticket :: (v.worker.waiting.filterMap Task.ticket? ++
      [v.results.length])).Pairwise (· < ·) := by
    have before : (chronicle.map (·.1) ++ job.ticket :: w.worker.waiting.filterMap Task.ticket? ++
        [w.results.length]).Pairwise (· < ·) := by
      rw [List.append_assoc]
      exact h.order
    have next := pairwise_concat_succ before
    rw [List.append_assoc, List.append_assoc] at next
    show (_ ++ job.ticket :: (worker.waiting.filterMap Task.ticket? ++
      [(w.results ++ [_]).length])).Pairwise _
    rw [waiting, List.filterMap_append, List.length_append, List.append_assoc]
    exact next
  exact ⟨⟨⟨order, ⟨r, result?_registered_old found, owner⟩, registered⟩,
    ⟨begun, result?_registered_old running, fields⟩, h.writable⟩, furnished.of_kept archives files⟩

end World

/-- A service in which registry, queue and storage belong together, and the job under way finds
what it needs. -/
structure Bench.Consistent (s : Bench δ) (chronicle : Chronicle) : Prop where
  world : s.world.Consistent chronicle
  engaged : ∀ job rest, s.work = some (job, rest) → rest ≠ .leave → ∃ rows,
    s.world.Engaged chronicle job rows ∧ s.world.Furnished job rows rest

namespace Bench

variable {env : Environment δ} {c : Surroundings δ} {s : Bench δ} {w : World δ}
variable {chronicle : Chronicle}

theorem Consistent.idle (h : w.Consistent chronicle) : Consistent ⟨w, none⟩ chronicle :=
  ⟨h, fun _ _ working => nomatch working⟩

/-- A job that is started is on duty, and has saved nothing. -/
theorem start_consistent (env : Environment δ) (h : w.Consistent chronicle) :
    (proceed env ⟨w, none⟩).Consistent chronicle := by
  rw [proceed]
  dsimp only
  cases front : w.worker.waiting with
  | nil =>
    rw [Worker.start?_nil front]
    exact .idle h
  | cons task rest =>
    obtain ⟨place, start, left⟩ := Worker.start?_front front
    rw [start]
    cases task with
    | filler => exact .idle h
    | job ticket tenant skipped =>
      let v : World δ := { w with worker := w.worker.setPhase place .running }
      let job : Running := ⟨place, ticket, tenant⟩
      obtain ⟨⟨moment, waited⟩, _⟩ := h.queued ticket tenant skipped (front ▸ List.mem_cons_self)
      have queued : v.result? ticket = some (.submitted tenant.id moment) := waited
      have begun : v.Consistent chronicle :=
        h.dequeued rfl (w.worker.setPhase_waiting place (by simp))
      have duty : v.OnDuty chronicle job.ticket job.tenant.id :=
        h.onDuty front (left .running (by simp))
      have started := (started_eq queued).2
      have further : v.Furthers ticket tenant.id (v.started ticket) := by
        rw [started]
        exact ⟨h.registry, fun _ => rfl, rfl, List.length_set,
          fun other hne => List.getElem?_set_ne (Ne.symm hne), h.storage.spares _⟩
      have result : (v.started ticket).result? job.ticket = some (JobResult.reported
          { JobResult.submitted tenant.id moment with
            status := .running, startedAt := some v.clock.now } []) :=
        World.result?_started queued
      obtain ⟨consistent, engaged⟩ :=
        begun.engaged duty further result ⟨rfl, rfl, rfl⟩ (by simp)
      refine ⟨consistent, fun job' rest' working _ => ?_⟩
      cases working
      exact ⟨[], engaged, rfl⟩

theorem proceed_consistent (e : env.Within c) (h : s.Consistent chronicle) :
    ∃ chronicle', (s.proceed env).Consistent chronicle' := by
  obtain ⟨w, _ | ⟨job, rest⟩⟩ := s
  · exact ⟨chronicle, start_consistent env h.world⟩
  · by_cases leaving : rest = .leave
    · subst leaving
      exact ⟨chronicle, .idle (h.world.dequeued rfl (w.worker.setPhase_waiting job.place (by simp)))⟩
    · obtain ⟨rows, engaged, furnished⟩ := h.engaged job rest rfl leaving
      obtain ⟨chronicle', consistent, further⟩ := go_goes e h.world engaged furnished leaving
      rw [proceed_go env rest leaving]
      refine ⟨chronicle', consistent, fun job' rest' working working' => ?_⟩
      cases working
      exact further working'

/-- Requests leave the job under way alone. -/
theorem request_consistent (e : env.Within c) (finds : c.FindsTenants) (h : s.Consistent chronicle)
    {op : Operation} (hop : op ≠ .run) :
    Consistent { s with world := Service.after env s.world op } chronicle := by
  have consistent : (Service.after env s.world op).Consistent chronicle := by
    have stepped := step_consistent e finds h.world op
    rwa [step_of_ne_run hop] at stepped
  refine ⟨consistent, fun job rest working leaving => ?_⟩
  obtain ⟨rows, engaged, furnished⟩ := h.engaged job rest working leaving
  refine ⟨rows, ?_⟩
  by_cases unsubmitted : ∀ tenant skipped, op ≠ .submit tenant skipped
  · exact engaged.trims furnished (request_trims e h.world hop unsubmitted)
  · obtain ⟨id, skipped, rfl⟩ : ∃ id skipped, op = .submit id skipped := by simpa using unsubmitted
    obtain ⟨engaged', furnished'⟩ := engaged.trims furnished (approve_trims e h.world id)
    have approved := h.world.trims (approve_trims e h.world id)
    rw [Service.after, submit, Act.outcome_bind]
    rcases run : (approve env id).outcome s.world with ⟨failure | tenant, v⟩
    · rw [run] at engaged' furnished'
      exact ⟨engaged', furnished'⟩
    · rw [run] at engaged' furnished' approved
      obtain ⟨rfl, free⟩ := approve_ok e finds run
      obtain ⟨storage, worker, entered, submitted, spares, untouched⟩ :=
        outcome_enter e approved tenant skipped free
      dsimp only
      rw [Act.outcome_bind_ok entered]
      exact engaged'.entered furnished' submitted spares untouched

/-- Whether clean-ups that come late do no harm to an archive, nor to the job under way. -/
def Harmless (s : Bench δ) (count : Nat) : Prop :=
  s.world.Harmless (.tend count) ∧ ∀ work ∈ s.work, work.1.tenant.id ∉ s.world.due.take count

instance Harmless.decidable (s : Bench δ) (count : Nat) : Decidable (s.Harmless count) :=
  inferInstanceAs (Decidable (s.world.Harmless (.tend count) ∧
    ∀ work ∈ s.work, work.1.tenant.id ∉ s.world.due.take count))

/-- Harmless clean-ups leave the job under way alone. -/
theorem tend_consistent (e : env.Within c) (h : s.Consistent chronicle) {count : Nat}
    (harmless : s.Harmless count) :
    Consistent { s with world := onward env s.world (.tend count) } chronicle := by
  obtain ⟨spared, unconcerned⟩ := harmless
  refine ⟨Service.tend_consistent e h.world spared, fun job rest working leaving => ?_⟩
  obtain ⟨rows, engaged, furnished⟩ := h.engaged job rest working leaving
  obtain ⟨storage, run, _, kept⟩ := outcome_cleanUpAll
    (w := { s.world with due := s.world.due.drop count }) e (s.world.due.take count)
    h.world.storage
  have tended : (tend env count).outcome s.world = _ := run
  obtain ⟨archives, files⟩ := kept job.tenant.id (unconcerned _ working)
  rw [onward, tended]
  exact ⟨rows, ⟨⟨engaged.order, engaged.owned, engaged.registered⟩, engaged.running,
    engaged.writable⟩, furnished.of_kept archives files⟩

/-- At every turn all belongs together again. -/
theorem turn_consistent (e : env.Within c) (finds : c.FindsTenants) (h : s.Consistent chronicle)
    (turn : Turn) : ∃ chronicle', (s.turn env turn).Consistent chronicle' := by
  cases turn with
  | work => exact proceed_consistent e h
  | request op =>
    rw [Bench.turn]
    split
    next admitted =>
      by_cases hop : op = .run
      · subst hop
        obtain ⟨w, work⟩ := s
        obtain rfl : work = none := Option.isNone_iff_eq_none.mp admitted
        exact ⟨_, .idle (run_consistent e h.world)⟩
      · exact ⟨chronicle, request_consistent e finds h hop⟩
    next => exact ⟨chronicle, h⟩

end Bench

end Handover

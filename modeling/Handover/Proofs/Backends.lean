import Mathlib.Data.List.Forall2
import Handover.Proofs.Retrieval
import Handover.Proofs.Success

namespace Handover

open Act (Parallel)

variable {δ : Type}

/-- Whether two answers tell the same: they are equal, or both tell that the archive of a tenant is
not found, each where it has been looked for. -/
inductive Answer.Accords : Answer → Answer → Prop where
  | same (answer : Answer) : Accords answer answer
  | missing (tenant place place' : Value) :
    Accords (.downloaded (.error (.archiveNotFound tenant place)))
      (.downloaded (.error (.archiveNotFound tenant place')))

namespace Storage

/-- Two sound storages, whatever they are. -/
def BothSound (s s' : Storage) : Prop :=
  s.Sound ∧ s'.Sound

/-- A sound storage in which lines have been saved for a tenant. -/
structure Staged (tenant : Uuid) (saved : List (RecordType × String)) (s : Storage) : Prop where
  sound : s.Sound
  holds : s.workspace.Holds tenant (.lines saved)

/-- Two storages in which the same lines have been saved for a tenant. -/
def BothStaged (tenant : Uuid) (s s' : Storage) : Prop :=
  ∃ saved, Staged tenant saved s ∧ Staged tenant saved s'

variable {s s' : Storage} {tenant : Uuid} {saved : List (RecordType × String)}

theorem BothStaged.sound (h : BothStaged tenant s s') : BothSound s s' := by
  obtain ⟨_, own, other⟩ := h
  exact ⟨own.sound, other.sound⟩

theorem Staged.of_changed (h : s.Sound) {w : Workspace}
    (changed : Workspace.Changed tenant s.workspace w (.lines saved)) :
    Staged tenant saved (s.withWorkspace w) := by
  refine ⟨(spares_withWorkspace h changed).sound, ?_⟩
  rw [workspace_withWorkspace]
  exact changed.holds

theorem Sound.prepared (h : s.Sound) (tenant : Uuid) :
    Staged tenant [] (s.withWorkspace (s.workspace.prepared tenant)) :=
  .of_changed h (Workspace.prepared_changed h.workspace tenant)

theorem Staged.closed (h : Staged tenant saved s) :
    Staged tenant saved (s.withWorkspace (s.workspace.closed tenant)) :=
  .of_changed h.sound (Workspace.closed_changed h.sound.workspace h.holds)

theorem Staged.outcome_save (h : Staged tenant saved s) (type : RecordType) (record : Value) :
    ∃ s', (save tenant type record).outcome s = ((Json.line type record).map fun _ => (), s') ∧
      Staged tenant (saved ++ Holding.written [(type, record)]) s' := by
  obtain ⟨w, run, changed⟩ :=
    Workspace.outcome_save_changed h.sound.workspace h.holds type record
  exact ⟨_, outcome_staged run, .of_changed h.sound changed⟩

theorem save_staged (tenant : Uuid) (type : RecordType) (record : Value) :
    Parallel (BothStaged tenant) (save tenant type record) (save tenant type record) := by
  rintro s s' ⟨saved, own, other⟩
  obtain ⟨t, run, staged⟩ := own.outcome_save type record
  obtain ⟨t', run', staged'⟩ := other.outcome_save type record
  rw [run, run']
  exact ⟨rfl, _, staged, staged'⟩

theorem close_staged (tenant : Uuid) :
    Parallel (BothStaged tenant) (close tenant) (close tenant) := by
  rintro s s' ⟨saved, own, other⟩
  rw [outcome_close, outcome_close]
  exact ⟨rfl, saved, own.closed, other.closed⟩

/-- The same archive is fetched from two storages that keep it. -/
theorem outcome_fetch_both (h : BothSound s s') {members : Archive} (own : s.Keeps tenant members)
    (other : s'.Keeps tenant members) :
    ((fetch tenant).outcome s').1 = ((fetch tenant).outcome s).1 ∧
      BothSound ((fetch tenant).outcome s).2 ((fetch tenant).outcome s').2 := by
  obtain ⟨t, run, sound, _⟩ := outcome_fetch h.1 own
  obtain ⟨t', run', sound', _⟩ := outcome_fetch h.2 other
  rw [run, run']
  exact ⟨rfl, sound, sound'⟩

/-- Two sound storages that have the same in stock for some tenants. -/
structure SameStock (among : Uuid → Prop) (s s' : Storage) : Prop where
  sound : BothSound s s'
  stock : ∀ tenant, among tenant → ∃ stock, s.Stocks tenant stock ∧ s'.Stocks tenant stock

variable {among : Uuid → Prop}

theorem BothSound.sameStock (h : BothSound s s') : SameStock (fun _ => False) s s' :=
  ⟨h, fun _ => False.elim⟩

theorem cleanUp_sameStock (tenant : Uuid) :
    Parallel (SameStock among) (cleanUp tenant) (cleanUp tenant) := by
  rintro s s' ⟨⟨sound, sound'⟩, stock⟩
  have emptied := cleanUp_stocks sound tenant
  have emptied' := cleanUp_stocks sound' tenant
  obtain ⟨t, run, spares⟩ := outcome_cleanUp sound tenant
  obtain ⟨t', run', spares'⟩ := outcome_cleanUp sound' tenant
  rw [run] at emptied
  rw [run'] at emptied'
  rw [run, run']
  refine ⟨rfl, ⟨spares.sound, spares'.sound⟩, fun other hm => ?_⟩
  by_cases own : other = tenant
  · subst own
    exact ⟨none, emptied, emptied'⟩
  · obtain ⟨kept, hs, hs'⟩ := stock other hm
    exact ⟨kept, spares.stocks other own kept hs, spares'.stocks other own kept hs'⟩

theorem SameStock.fetch (h : SameStock among s s') (tenant : Uuid) :
    SameStock among ((fetch tenant).outcome s).2 ((fetch tenant).outcome s').2 := by
  obtain ⟨sound, kept⟩ := fetch_stocks h.sound.1 tenant
  obtain ⟨sound', kept'⟩ := fetch_stocks h.sound.2 tenant
  refine ⟨⟨sound, sound'⟩, fun other hm => ?_⟩
  obtain ⟨stock, hs, hs'⟩ := h.stock other hm
  exact ⟨stock, kept other stock hs, kept' other stock hs'⟩

/-- From two storages with the same in stock the same archive is fetched, or none. -/
theorem SameStock.fetched (h : SameStock among s s') (hm : among tenant) :
    Answer.Accords (.downloaded ((Storage.fetch tenant).outcome s).1)
      (.downloaded ((Storage.fetch tenant).outcome s').1) := by
  obtain ⟨_ | members, hs, hs'⟩ := h.stock tenant hm
  · obtain ⟨place, absent⟩ := fetch_none h.sound.1 hs
    obtain ⟨place', absent'⟩ := fetch_none h.sound.2 hs'
    rw [absent, absent']
    exact .missing _ _ _
  · obtain ⟨found, _⟩ := outcome_fetch_both h.sound (stocks_some_iff.mp hs) (stocks_some_iff.mp hs')
    rw [found]
    exact .same _

end Storage

namespace Service

open Storage (BothSound BothStaged SameStock)

variable {env : Environment δ} {c : Surroundings δ} {w v : World δ} {S : Storage → Storage → Prop}
variable {ticket : Nat} {tenant : Tenant} {skipped : List RecordType}

theorem cleanUp_alike (e : env.Within c) {tenant : Uuid}
    (cleans : Parallel S (Storage.cleanUp tenant) (Storage.cleanUp tenant)) :
    Parallel (World.Alike Eq S) (cleanUp env tenant) (cleanUp env tenant) := by
  refine useStorage_parallel ?_ cleans
  rw [e.others .cleanUp (by simp) (by simp)]
  exact .pure ()

theorem begun_alike (h : World.Alike Eq BothSound w v) (tenant : Uuid) :
    World.Alike Eq (BothStaged tenant) (w.begun tenant) (v.begun tenant) := by
  obtain ⟨_, storage, rfl, rfl, sound, sound'⟩ := h
  exact ⟨w.data, _, rfl, rfl, [], sound.prepared tenant, sound'.prepared tenant⟩

theorem exportTenant_alike (e : env.Within c) :
    Parallel (World.Alike Eq BothSound) (exportTenant env ticket tenant skipped)
      (exportTenant env ticket tenant skipped) := by
  intro w v h
  refine exportTenant_parallel e c.respects_eq (Storage.save_staged tenant.id) (fun _ => BothSound)
    (fun s s' both => ⟨[], both.1.prepared tenant.id, both.2.prepared tenant.id⟩)
    (Storage.close_staged tenant.id) (fun _ _ _ both => both.sound) (fun s s' both => ?_) h
  obtain ⟨saved, own, other⟩ := both
  obtain ⟨t, run, spares, _⟩ := Storage.outcome_pack own.sound own.holds
  obtain ⟨t', run', spares', _⟩ := Storage.outcome_pack other.sound other.holds
  rw [run, run']
  exact ⟨rfl, spares.sound, spares'.sound⟩

theorem savedBy_alike (e : env.Within c) (h : World.Alike Eq BothSound w v) :
    savedBy env ticket tenant skipped v = savedBy env ticket tenant skipped w := by
  have started : World.Alike Eq BothSound (w.started ticket) (v.started ticket) :=
    ((markResult_blind ticket .running).parallel w v h).2
  exact (content_parallel e c.respects_eq (Storage.save_staged tenant.id)
    (begun_alike started tenant.id)).2.2

/-- Requests, late clean-ups and a shutdown go alike where clean-ups and what is fetched do, and are
answered the same unless an archive is asked for. A run needs an export that goes alike. -/
theorem onward_alike (e : env.Within c)
    (cleans : ∀ tenant, Parallel S (Storage.cleanUp tenant) (Storage.cleanUp tenant))
    (fetches : ∀ tenant s s', S s s' →
      S ((Storage.fetch tenant).outcome s).2 ((Storage.fetch tenant).outcome s').2)
    {occasion : Occasion} (runs : occasion = .operation .run →
      Parallel (World.Alike Eq S) (runNext env) (runNext env)) (h : World.Alike Eq S w v) :
    ((∀ tenant, occasion ≠ .operation (.download tenant)) →
      answer env v occasion = answer env w occasion) ∧
      World.Alike Eq S (onward env w occasion) (onward env v occasion) := by
  have clean := fun tenant => cleanUp_alike e (cleans tenant)
  rcases occasion with op | count | _
  · cases op with
    | submit id skipped =>
      have asks : Parallel (World.Alike Eq S) (env.ask (.tenant id)) (env.ask (.tenant id)) := by
        rw [e.ask]
        exact onData_alike (c.respects_eq.ask (.tenant id))
      obtain ⟨answered, alike⟩ := submit_parallel clean skipped asks w v h
      exact ⟨fun _ => congrArg Answer.submitted answered, alike⟩
    | run =>
      obtain ⟨answered, alike⟩ := runs rfl w v h
      exact ⟨fun _ => congrArg Answer.ran answered, alike⟩
    | look tenant =>
      obtain ⟨answered, alike⟩ := getResult_parallel clean tenant w v h
      exact ⟨fun _ => congrArg Answer.looked answered, alike⟩
    | download tenant =>
      refine ⟨fun undownloaded => absurd rfl (undownloaded tenant), ?_⟩
      refine (download_related (fun _ _ => True) (fun _ => trivial)
        (getResult_parallel clean tenant) h fun r w' v' _ _ _ alike => ⟨trivial, ?_⟩).2
      obtain ⟨_, storage, rfl, rfl, related⟩ := alike
      rw [outcome_fetch e, outcome_fetch e]
      exact ⟨w'.data, _, rfl, rfl, fetches tenant _ _ related⟩
    | delete tenant =>
      obtain ⟨answered, alike⟩ := delete_parallel clean tenant w v h
      exact ⟨fun _ => congrArg Answer.deleted answered, alike⟩
    | purge =>
      obtain ⟨answered, alike⟩ := purge_parallel clean w v h
      exact ⟨fun _ => congrArg Answer.purged answered, alike⟩
    | advance seconds =>
      obtain ⟨data, storage, rfl, related⟩ := h
      exact ⟨fun _ => rfl, data, storage, rfl, related⟩
  · exact ⟨fun _ => rfl, (tend_parallel clean count w v h).2⟩
  · obtain ⟨answered, alike⟩ := shutdown_parallel clean w v h
    exact ⟨fun _ => congrArg Answer.shut answered, alike⟩

/-- Whatever happens goes alike on any two sound storages, but for the archives that are asked for. -/
theorem onward_bothSound (e : env.Within c) (h : World.Alike Eq BothSound w v)
    (occasion : Occasion) :
    ((∀ tenant, occasion ≠ .operation (.download tenant)) →
      answer env v occasion = answer env w occasion) ∧
      World.Alike Eq BothSound (onward env w occasion) (onward env v occasion) := by
  refine onward_alike e (fun tenant s s' both => ?_) (fun tenant s s' both => ?_)
    (fun _ => runNext_parallel fun _ _ _ => exportTenant_alike e) h
  · obtain ⟨answered, left⟩ := Storage.cleanUp_sameStock tenant s s' both.sameStock
    exact ⟨answered, left.sound⟩
  · exact (both.sameStock.fetch tenant).sound

/-- What happens other than a run keeps what two storages have in stock the same. -/
theorem onward_sameStock (e : env.Within c) {among : Uuid → Prop}
    (h : World.Alike Eq (SameStock among) w v) {occasion : Occasion}
    (idle : occasion ≠ .operation .run) :
    World.Alike Eq (SameStock among) (onward env w occasion) (onward env v occasion) :=
  (onward_alike e Storage.cleanUp_sameStock (fun tenant _ _ stock => stock.fetch tenant)
    (fun run => absurd run idle) h).2

/-- What makes a world coherent stays, whatever happens, until it is shut down; and nothing but a run
makes a result succeed. -/
theorem onward_coherent (e : env.Within c) (finds : c.FindsTenants) (sound : w.storage.Sound)
    (h : w.Coherent) {occasion : Occasion} (running : occasion ≠ .shutdown) :
    (onward env w occasion).Coherent ∧ (occasion ≠ .operation .run →
      ∀ tenant, (onward env w occasion).Succeeded tenant → w.Succeeded tenant) := by
  obtain ⟨storage, chronicle, consistent⟩ := h
  rcases occasion with op | count | _
  · have alike : World.Alike Eq BothSound w { w with storage } :=
      ⟨w.data, storage, rfl, rfl, sound, consistent.storage⟩
    obtain ⟨_, left, same, rfl, _⟩ := (onward_bothSound e alike (.operation op)).2
    have same : after env { w with storage } op = { after env w op with storage := left } := same
    have stepped : World.Consistent (after env { w with storage } op) _ :=
      step_consistent e finds consistent op
    refine ⟨⟨left, _, same ▸ stepped⟩, fun idle tenant succeeded => ?_⟩
    have unrun : op ≠ .run := fun run => idle (congrArg _ run)
    have before : World.Succeeded { w with storage } tenant := by
      refine request_succeeded e finds consistent unrun ?_
      rw [same]
      exact succeeded
    exact before
  · obtain ⟨s, run, _⟩ := outcome_cleanUpAll
      (w := { w with due := w.due.drop count }) e (w.due.take count) sound
    have tended : (tend env count).outcome w = _ := run
    rw [onward, tended]
    exact ⟨⟨storage, chronicle, consistent.registry, consistent.storage, consistent.isOpen,
      consistent.order, consistent.owned, consistent.queued, consistent.failed,
      consistent.stored⟩, fun _ tenant succeeded => succeeded⟩
  · exact absurd rfl running

/-- After the same job has been run on two storages, both have the same in stock for the tenants whose
result has succeeded, if they had before. -/
theorem job_stock (e : env.Within c) {storage : Storage} (both : BothSound w.storage storage)
    (stock : ∀ other, w.Succeeded other →
      ∃ stock, w.storage.Stocks other stock ∧ storage.Stocks other stock)
    (coherent : w.Coherent) {rest : List Task} {place : Nat}
    (front : w.worker.waiting = .job ticket tenant skipped :: rest)
    (start : w.worker.start? = some (place, .job ticket tenant skipped,
      w.worker.setPhase place .running))
    {other : Uuid} (own : (after env w .run).Succeeded other)
    (own' : (after env { w with storage } .run).Succeeded other) :
    ∃ stock, (after env w .run).storage.Stocks other stock ∧
      (after env { w with storage } .run).storage.Stocks other stock := by
  have rows : savedBy env ticket tenant skipped
      { w with storage, worker := w.worker.setPhase place .running } =
        savedBy env ticket tenant skipped { w with worker := w.worker.setPhase place .running } :=
    savedBy_alike e ⟨w.data, storage, rfl, rfl, both⟩
  have ran := run_succeeded e both.1 coherent front start own
  have ran' := run_succeeded (w := { w with storage }) e both.2 coherent front start own'
  rw [rows] at ran'
  rcases ran with ⟨apart, before, kept⟩ | ⟨same, keeps⟩
  · obtain ⟨_, _, kept'⟩ | ⟨same, _⟩ := ran'
    · obtain ⟨members, hs, hs'⟩ := stock other before
      exact ⟨members, kept members hs, kept' members hs'⟩
    · exact absurd same apart
  · obtain ⟨apart, _⟩ | ⟨_, keeps'⟩ := ran'
    · exact absurd same apart
    · exact ⟨_, Storage.stocks_some_iff.mpr keeps, Storage.stocks_some_iff.mpr keeps'⟩

/-- After a run two services have the same in stock for the tenants whose result has succeeded, if
they had before. -/
theorem run_stock (e : env.Within c) (h : World.Alike Eq (SameStock w.Succeeded) w v)
    (coherent : w.Coherent) {other : Uuid} (success : (after env w .run).Succeeded other) :
    ∃ stock, (after env w .run).storage.Stocks other stock ∧
      (after env v .run).storage.Stocks other stock := by
  obtain ⟨_, storage, rfl, rfl, both, stock⟩ := h
  let v : World δ := { w with storage }
  cases front : w.worker.waiting with
  | nil =>
    have idle : v.worker.waiting = [] := front
    rw [after, outcome_runNext_idle front] at success ⊢
    rw [after, outcome_runNext_idle idle]
    exact stock other success
  | cons task rest =>
    obtain ⟨place, start, _⟩ := Worker.start?_front front
    have start' : v.worker.start? = some (place, task, v.worker.setPhase place .running) := start
    cases task with
    | filler =>
      rw [after, outcome_runNext start rfl] at success ⊢
      rw [after, outcome_runNext start' rfl]
      exact stock other success
    | job ticket tenant skipped =>
      have alike : World.Alike Eq BothSound w v := ⟨w.data, storage, rfl, rfl, both⟩
      obtain ⟨_, left, same, _⟩ := (onward_bothSound e alike (.operation .run)).2
      have success' : (after env v .run).Succeeded other := by
        rw [show after env v .run = _ from same]
        exact success
      exact job_stock e both stock coherent front start success success'

/-- What two services have in common that differ in their storage: they have the same in stock for
the tenants whose result has succeeded, and what they register and queue belongs together, or they
have been shut down. -/
structure Matched (w v : World δ) : Prop where
  alike : World.Alike Eq (SameStock w.Succeeded) w v
  course : w.Coherent ∨ w.Retired w.storage []

theorem Matched.bothSound (h : Matched w v) : World.Alike Eq BothSound w v := by
  obtain ⟨data, storage, same, related, stock⟩ := h.alike
  exact ⟨data, storage, same, related, stock.sound⟩

/-- Two services come to the same if their storages are sound and have the same in stock. -/
theorem Matched.of_bothSound (alike : World.Alike Eq BothSound w v)
    (stock : ∀ tenant, w.Succeeded tenant →
      ∃ stock, w.storage.Stocks tenant stock ∧ v.storage.Stocks tenant stock)
    (course : w.Coherent ∨ w.Retired w.storage []) : Matched w v := by
  obtain ⟨data, storage, rfl, related, sound⟩ := alike
  exact ⟨⟨data, storage, rfl, related, sound, stock⟩, course⟩

theorem not_succeeded_of_retired {due : List Uuid} {s : Storage} (h : w.Retired s due)
    (tenant : Uuid) : ¬ w.Succeeded tenant := by
  rintro ⟨ticket, _, registered, _⟩
  rw [Registry.value?_of_not_held (Registry.held?_empty h.entries tenant)] at registered
  cases registered

theorem matched_onward (e : env.Within c) (finds : c.FindsTenants) (h : Matched w v)
    (occasion : Occasion) : Matched (onward env w occasion) (onward env v occasion) := by
  have alike := (onward_bothSound e h.bothSound occasion).2
  have retire : (onward env w occasion).Retired (onward env w occasion).storage [] →
      Matched (onward env w occasion) (onward env v occasion) := fun retired =>
    .of_bothSound alike (fun tenant success =>
      absurd success (not_succeeded_of_retired retired tenant)) (.inr retired)
  rcases h.course with coherent | retired
  · by_cases closing : occasion = .shutdown
    · subst closing
      exact retire (shutdown_retired e.apart w)
    have sound : w.storage.Sound := by
      obtain ⟨_, _, _, _, sound, _⟩ := h.bothSound
      exact sound
    obtain ⟨still, unrun⟩ := onward_coherent e finds sound coherent closing
    refine .of_bothSound alike (fun tenant success => ?_) (.inl still)
    by_cases run : occasion = .operation .run
    · subst run
      exact run_stock e h.alike coherent success
    · obtain ⟨_, storage, same, _, _, stock⟩ := onward_sameStock e h.alike run
      rw [same]
      exact stock tenant (unrun run tenant success)
  · have still := retired_onward e.apart retired occasion
    exact retire (still.storage ▸ still)

/-- The same archive is downloaded from two services that come to the same, or none. -/
theorem download_accords (e : env.Within c) (h : Matched w v) (tenant : Uuid) :
    Answer.Accords (.downloaded ((download env tenant).outcome w).1)
      (.downloaded ((download env tenant).outcome v).1) := by
  have clean : ∀ tenant, Parallel (World.Alike Eq (SameStock w.Succeeded)) (cleanUp env tenant)
      (cleanUp env tenant) := fun tenant => cleanUp_alike e (Storage.cleanUp_sameStock tenant)
  refine (download_related (fun answer other => Answer.Accords (.downloaded answer) (.downloaded other))
    (fun _ => .same _) (getResult_parallel clean tenant) h.alike ?_).1
  intro r w' v' run run' succeeded alike
  rcases h.course with ⟨_, _, coherent⟩ | retired
  · obtain ⟨_, _, _, _, ⟨sound, _⟩, _⟩ := h.alike
    have registry : w.registry.Sound := coherent.registry
    obtain ⟨⟨ticket, live, result⟩, _⟩ := getResult_ok e registry sound run
    have success : w.Succeeded tenant := ⟨ticket, r, Registry.peek_some live, result, succeeded⟩
    obtain ⟨_, storage, rfl, rfl, stock⟩ := alike
    dsimp only
    rw [outcome_fetch e, outcome_fetch e]
    exact ⟨stock.fetched success, w'.data, _, rfl, rfl, stock.fetch tenant⟩
  · cases (outcome_getResult_retired retired tenant).symm.trans run

/-- On every occasion two services that come to the same tell the same. -/
theorem answer_accords (e : env.Within c) (h : Matched w v) (occasion : Occasion) :
    Answer.Accords (answer env w occasion) (answer env v occasion) := by
  by_cases downloads : ∃ tenant, occasion = .operation (.download tenant)
  · obtain ⟨tenant, rfl⟩ := downloads
    exact download_accords e h tenant
  · have same := (onward_bothSound e h.bothSound occasion).1 fun tenant download =>
      downloads ⟨tenant, download⟩
    rw [same]
    exact .same _

/-- Two services that differ in their storage tell the same all their lives. -/
theorem matched_life (e : env.Within c) (finds : c.FindsTenants) (h : Matched w v)
    (occasions : List Occasion) :
    List.Forall₂ Answer.Accords (answers env occasions w) (answers env occasions v) ∧
      Matched (life env occasions w) (life env occasions v) := by
  induction occasions generalizing w v with
  | nil => exact ⟨.nil, h⟩
  | cons occasion rest ih =>
    obtain ⟨told, matched⟩ := ih (matched_onward e finds h occasion)
    exact ⟨.cons (answer_accords e h occasion) told, matched⟩

end Service

end Handover

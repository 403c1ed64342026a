import Handover.Proofs.Apart

namespace Handover

open Act

variable {δ : Type}

namespace World

/-- A world in which the service has not been used yet. -/
structure Unused (w : World δ) : Prop where
  results : w.results = []
  entries : w.registry.entries = []
  awake : w.registry.cleaner ≠ .stopped
  jobs : w.worker.jobs = []
  isOpen : w.worker.isOpen = true
  capacity : 0 < w.worker.capacity

/-- A world after something that makes no result and runs no job: results that are done may have
left the registry. -/
structure Sheds (w w' : World δ) : Prop where
  results : w'.results = w.results
  worker : w'.worker = w.worker
  faults : w'.storage.faults = w.storage.faults
  registry : w'.registry.Sound
  old : ∀ tenant ticket, w'.registry.value? tenant = some ticket →
    w.registry.value? tenant = some ticket
  retained : ∀ tenant ticket, w.registry.value? tenant = some ticket →
    w.isEvictable ticket = false → w'.registry.value? tenant = some ticket

variable {w w' w'' : World δ}

theorem Sheds.trans (h : w.Sheds w') (h' : w'.Sheds w'') : w.Sheds w'' where
  results := h'.results.trans h.results
  worker := h'.worker.trans h.worker
  faults := h'.faults.trans h.faults
  registry := h'.registry
  old tenant ticket hv := h.old tenant ticket (h'.old tenant ticket hv)
  retained tenant ticket hv stays := by
    refine h'.retained tenant ticket (h.retained tenant ticket hv stays) ?_
    rw [isEvictable, result?, h.results]
    exact stays

/-- What a registry drops is shed by the world around it. -/
theorem Sheds.of_drops {α : Type} {removal : Removal Uuid Nat α}
    (drops : removal.Drops w.registry w.isEvictable)
    (h : Beside { w with registry := removal.registry } w') : w.Sheds w' where
  results := h.results
  worker := h.worker
  faults := h.faults
  registry := by rw [h.registry]; exact drops.sound
  old := by rw [h.registry]; exact drops.old
  retained := by rw [h.registry]; exact drops.retained

theorem Sheds.of_same (registry : Registry Uuid Nat) (sound : registry.Sound)
    (same : ∀ tenant, registry.value? tenant = w.registry.value? tenant)
    (h : Beside { w with registry } w') : w.Sheds w' := by
  have drops : Removal.Drops (⟨.ok (), [], registry⟩ : Removal Uuid Nat Unit) w.registry
      w.isEvictable := Registry.keeps_drops sound same
  exact .of_drops drops h

end World

namespace Service

variable {env : Environment δ} {w : World δ}

theorem looked_sheds (sound : w.registry.Sound) {w' : World δ} {tenant : Uuid}
    (h : (w.looked tenant).Beside w') : w.Sheds w' :=
  .of_drops (Registry.get_drops sound) h

theorem peeked_sheds (sound : w.registry.Sound) {w' : World δ} {tenant : Uuid}
    (h : (w.peeked tenant).Beside w') : w.Sheds w' :=
  .of_same _ (sound.peek w.isEvictable w.time tenant)
    (Registry.peek_value? w.registry w.isEvictable w.time tenant) h

theorem look_sheds (e : env.Apart) (sound : w.registry.Sound) (tenant : Uuid) :
    w.Sheds ((getResult env tenant).outcome w).2 := by
  obtain ⟨answer, w', run, beside, _⟩ := outcome_getResult_apart e w tenant
  rw [run]
  exact looked_sheds sound beside

theorem delete_sheds (e : env.Apart) (sound : w.registry.Sound) (tenant : Uuid) :
    w.Sheds ((delete env tenant).outcome w).2 := by
  obtain ⟨answer, w', run, ⟨beside, _⟩ | ⟨beside, _, ticket, r, hlive, hr, done⟩⟩ :=
    outcome_delete_apart e w tenant
  · rw [run]
    exact looked_sheds sound beside
  · rw [run]
    have looked : w.Sheds (w.looked tenant) := looked_sheds sound (.refl _)
    have evictable : ∀ value, (w.looked tenant).registry.value? tenant = some value →
        (w.looked tenant).isEvictable value = true := by
      intro value hvalue
      have registered := Registry.peek_some hlive
      cases registered.symm.trans (looked.old tenant value hvalue)
      show w.isEvictable ticket = true
      rw [World.isEvictable, hr, Option.any_some, done]
    exact looked.trans (.of_drops (Registry.remove_drops looked.registry evictable) beside)

theorem purge_sheds (e : env.Apart) (sound : w.registry.Sound) :
    w.Sheds ((purge env).outcome w).2 := by
  obtain ⟨w', run, beside⟩ := outcome_purge_apart e w
  rw [run]
  exact .of_drops (Registry.purge_drops sound) beside

end Service

/-- A world in which the result with a number may have gone on, but not back from its end. -/
structure World.Rewrites (ticket : Nat) (w w' : World δ) : Prop where
  registry : w'.registry = w.registry
  time : w'.time = w.time
  worker : w'.worker = w.worker
  faults : w'.storage.faults = w.storage.faults
  size : w'.results.length = w.results.length
  others : ∀ other, other ≠ ticket → w'.result? other = w.result? other
  kept : ∀ r, w.result? ticket = some r → ∃ r', w'.result? ticket = some r' ∧
    r'.tenant = r.tenant ∧ (r.isDone = true → r'.isDone = true)

namespace World.Rewrites

variable {w w' : World δ} {ticket : Nat}

theorem of_amid (h : w.Amid ticket w') : w.Rewrites ticket w' := by
  obtain ⟨⟨rows, counted⟩, faults⟩ := h
  refine ⟨counted.registry, counted.time, counted.worker, faults, ?_, fun other hne => ?_,
    fun r hr => ⟨r.reported rows, ?_, (r.reported_fields rows).2, fun done => ?_⟩⟩
  · rw [counted.results, List.length_modify]
  · rw [World.result?, World.result?, counted.results, List.getElem?_modify_ne _ _ (Ne.symm hne)]
  · rw [World.result?, counted.results, List.getElem?_modify_eq]
    exact congrArg (Option.map _) hr
  · rw [JobResult.isDone, (r.reported_fields rows).1]
    exact done

theorem of_marked {r : JobResult} (hr : w.result? ticket = some r) {r' : JobResult}
    (tenant : r'.tenant = r.tenant) (done : r.isDone = true → r'.isDone = true)
    (clock : WallClock) : w.Rewrites ticket { w.setResult ticket r' with clock } := by
  obtain ⟨hlt, _⟩ := List.getElem?_eq_some_iff.mp hr
  refine ⟨rfl, rfl, rfl, rfl, List.length_set, fun other hne => ?_, fun r₀ hr₀ => ⟨r', ?_, ?_⟩⟩
  · exact List.getElem?_set_ne (Ne.symm hne)
  · exact List.getElem?_set_self hlt
  · cases hr.symm.trans hr₀
    exact ⟨tenant, done⟩

end World.Rewrites

/-- A mark is accepted by a result that is not done, and stays with its tenant. -/
theorem Mark.apply_ok {mark : Mark} {r r' : JobResult} {now : Instant}
    (h : mark.apply r now = .ok r') : r'.tenant = r.tenant ∧ r.isDone = false := by
  rw [mark.apply_eq] at h
  split at h
  next fits =>
    cases h
    exact ⟨mark.stamp_tenant r now, Mark.unfinished_of_fits fits⟩
  next => cases h

namespace Service

theorem markResult_some {w : World δ} {ticket : Nat} {r : JobResult}
    (hr : w.result? ticket = some r) (mark : Mark) :
    ((markResult ticket mark).outcome w).2 = { w.setResult ticket (r.mark mark w.clock).2.1 with
      clock := (r.mark mark w.clock).2.2 } := by
  rw [markResult, outcome_bind_ok (outcome_get w)]
  dsimp only
  rw [hr]
  rfl

theorem markResult_rewrites (w : World δ) (ticket : Nat) (mark : Mark) :
    w.Rewrites ticket ((markResult ticket mark).outcome w).2 := by
  cases hr : w.result? ticket with
  | none =>
    have same : ((markResult ticket mark).outcome w).2 = w := by
      rw [markResult, outcome_bind_ok (outcome_get w)]
      dsimp only
      rw [hr]
      rfl
    rw [same]
    refine ⟨rfl, rfl, rfl, rfl, rfl, fun _ _ => rfl, fun r h => ?_⟩
    rw [hr] at h
    cases h
  | some r =>
    rw [markResult_some hr]
    cases accepted : mark.apply r w.clock.now with
    | error failure =>
      rw [JobResult.mark, accepted]
      exact .of_marked hr rfl id w.clock
    | ok r' =>
      obtain ⟨tenant, unfinished⟩ := Mark.apply_ok accepted
      rw [JobResult.mark, accepted]
      refine .of_marked hr tenant (fun done => ?_) w.clock.tick
      rw [unfinished] at done
      cases done

end Service

namespace World

/-- A world in which registry and queue belong together. The jobs that wait have results that are
submitted, in the order of their tickets. -/
structure Orderly (w : World δ) : Prop where
  registry : w.registry.Sound
  disposes : w.storage.Disposes
  isOpen : w.worker.isOpen = true
  order : (w.worker.waiting.filterMap Task.ticket? ++ [w.results.length]).Pairwise (· < ·)
  exports : Task.filler ∉ w.worker.waiting
  owned : ∀ tenant ticket, w.registry.value? tenant = some ticket →
    ∃ r, w.result? ticket = some r ∧ r.tenant = tenant
  queued : ∀ ticket tenant skipped, .job ticket tenant skipped ∈ w.worker.waiting →
    ∃ moment, w.result? ticket = some (.submitted tenant.id moment)

/-- Whether nothing has been done yet for the jobs that wait. -/
def Fresh (w : World δ) : Prop :=
  ∀ task ∈ w.worker.waiting, ∃ ticket tenant skipped owner moment,
    task = .job ticket tenant skipped ∧ w.result? ticket = some (.submitted owner moment)

variable {w w' : World δ} {ticket : Nat}

theorem Orderly.fresh (h : w.Orderly) : w.Fresh := by
  intro task waits
  cases task with
  | filler => exact absurd waits h.exports
  | job ticket tenant skipped =>
    obtain ⟨moment, hr⟩ := h.queued ticket tenant skipped waits
    exact ⟨ticket, tenant, skipped, tenant.id, moment, rfl, hr⟩

theorem Unused.orderly (h : w.Unused) (disposes : w.storage.Disposes) : w.Orderly := by
  have none : ∀ tenant, w.registry.value? tenant = none := by
    intro tenant
    rw [Registry.value?, Registry.held?, h.entries]
    rfl
  have idle : w.worker.waiting = [] := by rw [Worker.waiting, h.jobs]; rfl
  refine ⟨⟨by rw [h.entries]; simp, h.awake⟩, disposes, h.isOpen, ?_, ?_, ?_, ?_⟩
  · rw [idle]
    simp
  · rw [idle]
    exact List.not_mem_nil
  · intro tenant ticket hv
    rw [none] at hv
    cases hv
  · intro ticket tenant skipped hm
    rw [idle] at hm
    cases hm

theorem Sheds.result? (h : w.Sheds w') (ticket : Nat) : w'.result? ticket = w.result? ticket :=
  World.result?_congr h.results ticket

theorem Sheds.isEvictable (h : w.Sheds w') : w'.isEvictable = w.isEvictable :=
  World.isEvictable_congr h.results

theorem Orderly.sheds (h : w.Orderly) (sheds : w.Sheds w') : w'.Orderly := by
  refine ⟨sheds.registry, ?_, ?_, ?_, ?_, ?_, ?_⟩
  · rw [Storage.Disposes, sheds.faults]
    exact h.disposes
  · exact (congrArg Worker.isOpen sheds.worker).trans h.isOpen
  · rw [sheds.worker, sheds.results]
    exact h.order
  · rw [sheds.worker]
    exact h.exports
  · intro tenant ticket hv
    rw [sheds.result?]
    exact h.owned tenant ticket (sheds.old tenant ticket hv)
  · intro ticket tenant skipped hm
    rw [sheds.worker] at hm
    rw [sheds.result?]
    exact h.queued ticket tenant skipped hm

theorem Orderly.beside (h : w.Orderly) (h' : w.Beside w') : w'.Orderly :=
  h.sheds (.of_same _ h.registry (fun _ => rfl) h')

/-- The world after a job has been registered and queued. -/
theorem Orderly.registered (h : w.Orderly) {tenant : Tenant} {skipped : List RecordType}
    {worker : Worker Task} (submitted :
      w.worker.submit (.job w.results.length tenant skipped) = .ok worker) :
    Orderly { w.registered tenant.id with worker } := by
  have value_self := Registry.value?_put_self w.registry w.time tenant.id w.results.length
  have value_other : ∀ other, other ≠ tenant.id →
      (w.registered tenant.id).registry.value? other = w.registry.value? other := fun other hne =>
    Registry.value?_put_of_ne w.registry w.time w.results.length hne
  obtain ⟨waiting, isOpen⟩ := Worker.submit_ok submitted
  have size : (w.registered tenant.id).results.length = w.results.length + 1 :=
    List.length_append
  refine ⟨h.registry.put w.time tenant.id w.results.length, h.disposes, isOpen.trans h.isOpen,
    ?_, ?_, ?_, ?_⟩
  · show (worker.waiting.filterMap Task.ticket? ++
      [(w.registered tenant.id).results.length]).Pairwise (· < ·)
    rw [waiting, List.filterMap_append, size]
    exact pairwise_concat_succ h.order
  · show Task.filler ∉ worker.waiting
    rw [waiting]
    simpa using h.exports
  · intro other ticket hv
    by_cases hne : other = tenant.id
    · subst hne
      cases value_self.symm.trans hv
      exact ⟨_, result?_registered_new w tenant.id, rfl⟩
    · obtain ⟨r, hr, howner⟩ := h.owned other ticket ((value_other other hne).symm.trans hv)
      exact ⟨r, result?_registered_old hr, howner⟩
  · intro ticket owner other hm
    have hm' : Task.job ticket owner other ∈
        w.worker.waiting ++ [.job w.results.length tenant skipped] := waiting ▸ hm
    rcases List.mem_append.mp hm' with hold | hnew
    · obtain ⟨moment, hr⟩ := h.queued ticket owner other hold
      exact ⟨moment, result?_registered_old hr⟩
    · cases List.mem_singleton.mp hnew
      exact ⟨_, result?_registered_new w tenant.id⟩

/-- The world after jobs have left the queue. -/
theorem Orderly.dequeued (h : w.Orderly) {worker : Worker Task}
    (isOpen : worker.isOpen = w.worker.isOpen)
    (fewer : worker.waiting.Sublist w.worker.waiting) : Orderly { w with worker } where
  registry := h.registry
  disposes := h.disposes
  isOpen := isOpen.trans h.isOpen
  order := h.order.sublist ((fewer.filterMap Task.ticket?).append (.refl _))
  exports hm := h.exports (fewer.subset hm)
  owned := h.owned
  queued ticket tenant skipped hm := h.queued ticket tenant skipped (fewer.subset hm)

/-- The jobs that wait behind another one have other tickets. -/
theorem Orderly.later (h : w.Orderly) {tenant : Tenant} {skipped : List RecordType}
    {rest : List Task} (front : w.worker.waiting = .job ticket tenant skipped :: rest) :
    ∀ number owner other, .job number owner other ∈ rest → number ≠ ticket := by
  intro number owner other hm
  have order := h.order
  rw [front] at order
  have := List.rel_of_pairwise_cons order
    (List.mem_append_left _ (List.mem_filterMap.mpr ⟨_, hm, rfl⟩))
  omega

/-- The world after the result of a job that no longer waits has gone on. -/
theorem Orderly.rewrites (h : w.Orderly) (rewrites : w.Rewrites ticket w')
    (apart : ∀ number owner other, .job number owner other ∈ w.worker.waiting → number ≠ ticket) :
    w'.Orderly := by
  refine ⟨?_, ?_, ?_, ?_, ?_, ?_, ?_⟩
  · rw [rewrites.registry]
    exact h.registry
  · rw [Storage.Disposes, rewrites.faults]
    exact h.disposes
  · exact (congrArg Worker.isOpen rewrites.worker).trans h.isOpen
  · rw [rewrites.worker, rewrites.size]
    exact h.order
  · rw [rewrites.worker]
    exact h.exports
  · intro tenant number hv
    rw [rewrites.registry] at hv
    obtain ⟨r, hr, howner⟩ := h.owned tenant number hv
    by_cases hne : number = ticket
    · subst hne
      obtain ⟨r', hr', howner', _⟩ := rewrites.kept r hr
      exact ⟨r', hr', howner'.trans howner⟩
    · exact ⟨r, (rewrites.others number hne).trans hr, howner⟩
  · intro number owner other hm
    rw [rewrites.worker] at hm
    rw [rewrites.others number (apart number owner other hm)]
    exact h.queued number owner other hm

/-- The world after a job has ended. -/
theorem Orderly.ended (h : w.Orderly) {tenant : Uuid} {rows : List (RecordType × Value)}
    {result : Except Failure Unit} {r : JobResult} (hr : w.result? ticket = some r)
    (unfinished : r.isDone = false)
    (apart : ∀ number owner other, .job number owner other ∈ w.worker.waiting → number ≠ ticket)
    (ended : Ended w ticket tenant r.tenant rows result w')
    (faults : w'.storage.faults = w.storage.faults) : w'.Orderly := by
  have rewrites : w.Rewrites ticket { w' with registry := w.registry } := by
    obtain ⟨r', hr', howner, _⟩ := ended.ended
    refine ⟨rfl, ended.time, ended.worker, faults, ended.size, ended.others, fun r₀ hr₀ => ?_⟩
    cases hr.symm.trans hr₀
    exact ⟨r', hr', howner, fun done => nomatch unfinished.symm.trans done⟩
  refine (h.rewrites rewrites apart).sheds
    (.of_same w'.registry ?_ (fun other => ?_) (.refl w'))
  · rw [ended.registry]
    exact h.registry.touch w.time tenant ticket
  · rw [ended.registry]
    exact Registry.touch_value? w.registry w.time tenant other ticket

/-- The world after the oldest job has run. -/
theorem Orderly.ran {tenant : Tenant} {skipped : List RecordType} {place : Nat}
    {rest : List Task} {rows : List (RecordType × Value)} {result : Except Failure Unit}
    (h : w.Orderly) (front : w.worker.waiting = .job ticket tenant skipped :: rest)
    (left : ∀ phase, phase ≠ .queued → (w.worker.setPhase place phase).waiting = rest)
    (ended : Ended { w with worker := w.worker.setPhase place .running } ticket tenant.id tenant.id
      rows result w')
    (faults : w'.storage.faults = w.storage.faults) :
    (w'.worker.setPhase place .finished).waiting = rest ∧
      Orderly { w' with worker := w'.worker.setPhase place .finished } := by
  obtain ⟨moment, waited⟩ := h.queued ticket tenant skipped (front ▸ List.mem_cons_self)
  have running : (w.worker.setPhase place .running).waiting = rest := left .running (by simp)
  have begun : Orderly { w with worker := w.worker.setPhase place .running } :=
    h.dequeued rfl (w.worker.setPhase_waiting place (by simp))
  have orderly : w'.Orderly := by
    refine begun.ended waited rfl (fun number owner other hm => ?_) ended faults
    exact h.later front number owner other (running ▸ hm)
  refine ⟨?_, orderly.dequeued rfl (w'.worker.setPhase_waiting place (by simp))⟩
  rw [show w'.worker = w.worker.setPhase place .running from ended.worker,
    Worker.setPhase_setPhase]
  exact left .finished (by simp)

/-- A result that is not finished is live. -/
theorem live?_of_unfinished {tenant : Uuid} (hv : w.registry.value? tenant = some ticket)
    (stays : w.isEvictable ticket = false) : Service.live? w tenant = some ticket := by
  obtain ⟨e, found, rfl⟩ := Option.map_eq_some_iff.mp hv
  rw [Service.live?, Registry.peek_live, found, Option.bind_some, Registry.isExpired, stays]
  rfl

end World

namespace Service

variable {env : Environment δ} {w : World δ}

/-- A request makes no result, or it registers one and queues its job. -/
theorem request_cases (e : env.Apart) (cleans : env.CleansUp) (finds : env.FindsTenants)
    (h : w.Orderly) {op : Operation} (hop : op ≠ .run) :
    w.Sheds (after env w op) ∨ ∃ tenant skipped worker, op = .submit tenant.id skipped ∧
      ((submit env tenant.id skipped).outcome w).1 = .ok tenant.id ∧
      verdict env w.worker tenant.id ((live? w tenant.id).bind w.result?) = .ok () ∧
      w.worker.submit (.job w.results.length tenant skipped) = .ok worker ∧
      World.Beside { (w.peeked tenant.id).registered tenant.id with worker } (after env w op) := by
  cases op with
  | run => exact absurd rfl hop
  | submit id skipped =>
    rcases outcome_submit_apart e cleans w h.disposes h.isOpen id skipped with
      ⟨failure, w', run, beside | beside⟩ |
      ⟨tenant, worker, w', run, allowed, ⟨v, found⟩, submitted, beside⟩
    · refine .inl ?_
      rw [after, run]
      exact .of_same _ h.registry (fun _ => rfl) beside
    · refine .inl ?_
      rw [after, run]
      exact peeked_sheds h.registry beside
    · obtain rfl : tenant.id = id := finds id w tenant v found
      refine .inr ⟨tenant, skipped, worker, rfl, ?_, allowed, submitted, ?_⟩
      · rw [run]
      · rw [after, run]
        exact beside
  | look tenant => exact .inl (look_sheds e h.registry tenant)
  | download tenant => exact .inl (looked_sheds h.registry (download_beside e w tenant))
  | delete tenant => exact .inl (delete_sheds e h.registry tenant)
  | purge => exact .inl (purge_sheds e h.registry)
  | advance seconds =>
    exact .inl ⟨rfl, rfl, rfl, h.registry, fun _ _ hv => hv, fun _ _ hv _ => hv⟩

theorem request_orderly (e : env.Apart) (cleans : env.CleansUp) (finds : env.FindsTenants)
    (h : w.Orderly) {op : Operation} (hop : op ≠ .run) : (after env w op).Orderly := by
  rcases request_cases e cleans finds h hop with
    sheds | ⟨tenant, skipped, worker, _, _, _, submitted, beside⟩
  · exact h.sheds sheds
  · have peeked : w.Sheds (w.peeked tenant.id) := peeked_sheds h.registry (.refl _)
    exact ((h.sheds peeked).registered submitted).beside beside

/-- A request leaves every result as it is. -/
theorem request_result (e : env.Apart) (cleans : env.CleansUp) (finds : env.FindsTenants)
    (h : w.Orderly) {op : Operation} (hop : op ≠ .run) {ticket : Nat} {r : JobResult}
    (hr : w.result? ticket = some r) : (after env w op).result? ticket = some r := by
  rcases request_cases e cleans finds h hop with
    sheds | ⟨tenant, skipped, worker, _, _, _, _, beside⟩
  · exact (sheds.result? ticket).trans hr
  · rw [World.result?, beside.results]
    exact World.result?_registered_old (w := w.peeked tenant.id) hr

/-- The oldest job that waits leaves the queue and is run to the end of its result. What is stored
afterwards is what its export leaves. -/
theorem runNext_front (e : env.Apart) (h : w.Orderly) {ticket : Nat} {tenant : Tenant}
    {skipped : List RecordType} {rest : List Task}
    (front : w.worker.waiting = .job ticket tenant skipped :: rest) :
    ∃ place rows result w', let v : World δ := { w with worker := w.worker.setPhase place .running }
      (∀ phase, phase ≠ .queued → (w.worker.setPhase place phase).waiting = rest) ∧
      v.Ended ticket tenant.id tenant.id rows result w' ∧ (v.started ticket).storage = w.storage ∧
      w'.storage = ((exportTenant env ticket tenant skipped).outcome (v.started ticket)).2.storage ∧
      w'.storage.faults = w.storage.faults ∧
      ((runNext env).outcome w).2 = { w' with worker := w'.worker.setPhase place .finished } := by
  obtain ⟨place, start, left⟩ := Worker.start?_front front
  obtain ⟨moment, waited⟩ := h.queued ticket tenant skipped (front ▸ List.mem_cons_self)
  let v : World δ := { w with worker := w.worker.setPhase place .running }
  have queued : v.result? ticket = some (.submitted tenant.id moment) := waited
  have begun : (v.started ticket).storage = w.storage := by
    rw [(started_eq queued).2]
    rfl
  obtain ⟨rows, w', ends, ended, files, faults⟩ := runExport_apart e queued skipped
  refine ⟨place, rows, _, w', left, ended, begun, files, begun ▸ faults, ?_⟩
  rw [outcome_runNext start ends]

end Service

end Handover

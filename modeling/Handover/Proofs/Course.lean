import Handover.Proofs.Operations

namespace Handover

variable {δ : Type}

/-- What can be done with a running service: an export is submitted, the next job is run, a result
is looked at, downloaded or deleted, expired results are purged, or time passes. -/
inductive Operation where
  | submit (tenant : Uuid) (skipped : List RecordType)
  | run
  | look (tenant : Uuid)
  | download (tenant : Uuid)
  | delete (tenant : Uuid)
  | purge
  | advance (seconds : Rat)
  deriving Repr

/-- The jobs that were run, each with the records that it has saved. -/
abbrev Chronicle :=
  List (Nat × List (RecordType × Value))

def Task.ticket? : Task → Option Nat
  | filler => none
  | job ticket .. => some ticket

namespace Service

def after (env : Environment δ) (w : World δ) : Operation → World δ
  | .submit tenant skipped => ((submit env tenant skipped).outcome w).2
  | .run => ((runNext env).outcome w).2
  | .look tenant => ((getResult env tenant).outcome w).2
  | .download tenant => ((download env tenant).outcome w).2
  | .delete tenant => ((delete env tenant).outcome w).2
  | .purge => ((purge env).outcome w).2
  | .advance seconds => ((advance seconds).outcome w).2

/-- What an operation adds to the chronicle. -/
def chronicled (env : Environment δ) (w : World δ) : Operation → Chronicle
  | .run =>
    match w.worker.start? with
    | some (_, .job ticket tenant skipped, worker) =>
      [(ticket, savedBy env ticket tenant skipped { w with worker })]
    | _ => []
  | _ => []

def step (env : Environment δ) (s : World δ × Chronicle) (op : Operation) : World δ × Chronicle :=
  (after env s.1 op, s.2 ++ chronicled env s.1 op)

/-- The world and the chronicle after some operations. -/
def course (env : Environment δ) (ops : List Operation) (w : World δ) : World δ × Chronicle :=
  ops.foldl (step env) (w, [])

end Service

namespace World

/-- A world in which the service has just been opened. -/
structure Opening (w : World δ) : Prop where
  results : w.results = []
  entries : w.registry.entries = []
  awake : w.registry.cleaner ≠ .stopped
  jobs : w.worker.jobs = []
  isOpen : w.worker.isOpen = true
  storage : w.storage.Sound

/-- The records of a job that has ended well, for which an archive is kept and counted. -/
def Stored (w : World δ) (chronicle : Chronicle) (tenant : Uuid) (ticket : Nat) (r : JobResult)
    (rows : List (RecordType × Value)) : Prop :=
  (ticket, rows) ∈ chronicle ∧
    w.storage.Keeps tenant (Holding.archiveOf (Holding.written rows)) ∧
    (∀ type, r.count type = rows.countP fun row => row.1 = type) ∧
    ∀ row ∈ rows, ∃ line, Json.line row.1 row.2 = .ok line

/-- A world in which registry, queue and storage belong together: jobs have run and wait in the
order of their tickets, a tenant with a waiting job has a result that is no older and is still
unfinished, and the archive of every registered result that succeeded is kept. -/
structure Consistent (w : World δ) (chronicle : Chronicle) : Prop where
  registry : w.registry.Sound
  storage : w.storage.Sound
  isOpen : w.worker.isOpen = true
  order : (chronicle.map (·.1) ++ w.worker.waiting.filterMap Task.ticket? ++
    [w.results.length]).Pairwise (· < ·)
  owned : ∀ tenant ticket, w.registry.value? tenant = some ticket →
    ∃ r, w.result? ticket = some r ∧ r.tenant = tenant
  queued : ∀ ticket tenant skipped, .job ticket tenant skipped ∈ w.worker.waiting →
    (∃ moment, w.result? ticket = some (.submitted tenant.id moment)) ∧
    ∃ newest moment, w.registry.value? tenant.id = some newest ∧ ticket ≤ newest ∧
      w.result? newest = some (.submitted tenant.id moment)
  failed : ∀ ticket r, w.result? ticket = some r → r.status = .failed →
    ∃ text, r.error = some text
  stored : ∀ tenant ticket r, w.registry.value? tenant = some ticket →
    w.result? ticket = some r → r.status = .succeeded →
    ∃ rows, w.Stored chronicle tenant ticket r rows

variable {w w' : World δ} {chronicle : Chronicle}

theorem Opening.consistent (h : w.Opening) : w.Consistent [] := by
  have none : ∀ tenant, w.registry.value? tenant = none := by
    intro tenant
    rw [Registry.value?, Registry.held?, h.entries]
    rfl
  have idle : w.worker.waiting = [] := by rw [Worker.waiting, h.jobs]; rfl
  refine ⟨⟨by rw [h.entries]; simp, h.awake⟩, h.storage, h.isOpen, ?_, ?_, ?_, ?_, ?_⟩
  · rw [idle]
    simp
  · intro tenant ticket hv
    rw [none] at hv
    cases hv
  · intro ticket tenant skipped hm
    rw [idle] at hm
    cases hm
  · intro ticket r hr
    rw [result?, h.results] at hr
    cases hr
  · intro tenant ticket r hv
    rw [none] at hv
    cases hv

theorem not_evictable {ticket : Nat} {r : JobResult} (hr : w.result? ticket = some r)
    (h : r.isDone = false) : w.isEvictable ticket = false := by
  rw [isEvictable, hr, Option.any_some, h]

theorem Consistent.trims (h : w.Consistent chronicle) (trims : w.Trims w') :
    w'.Consistent chronicle := by
  have result := result?_congr trims.results
  refine ⟨trims.registry, trims.storage, ?_, ?_, ?_, ?_, ?_, ?_⟩
  · rw [trims.worker]
    exact h.isOpen
  · rw [trims.worker, trims.results]
    exact h.order
  · intro tenant ticket hv
    rw [result]
    exact h.owned tenant ticket (trims.old tenant ticket hv)
  · intro ticket tenant skipped hm
    rw [trims.worker] at hm
    obtain ⟨hticket, newest, moment, hv, hle, hr⟩ := h.queued ticket tenant skipped hm
    rw [result]
    refine ⟨hticket, newest, moment, ?_, hle, (result newest).trans hr⟩
    exact trims.retained tenant.id newest hv (not_evictable hr rfl)
  · intro ticket r hr
    rw [result] at hr
    exact h.failed ticket r hr
  · intro tenant ticket r hv hr hs
    rw [result] at hr
    obtain ⟨rows, hm, hk, counts, writable⟩ :=
      h.stored tenant ticket r (trims.old tenant ticket hv) hr hs
    exact ⟨rows, hm, trims.kept tenant ticket _ hv hk, counts, writable⟩

end World

namespace Service

variable {env : Environment δ} {c : Surroundings δ} {w : World δ} {chronicle : Chronicle}
variable {tenant : Uuid}

/-- A live result of a consistent world is there. -/
theorem live_result (h : w.Consistent chronicle) {ticket : Nat}
    (hlive : live? w tenant = some ticket) : ∃ r, w.result? ticket = some r :=
  (h.owned tenant ticket (Registry.peek_some hlive)).imp fun _ hr => hr.1

theorem accessed (h : w.Consistent chronicle) (tenant : Uuid) :
    w.Trims { w with registry := w.registry.access tenant w.time } :=
  .ofRegistry h.storage (h.registry.access tenant w.time) fun other =>
    Registry.value?_access w.registry tenant other w.time

theorem getResult_trims (e : env.Within c) (h : w.Consistent chronicle) (tenant : Uuid) :
    w.Trims ((getResult env tenant).outcome w).2 := by
  cases hlive : live? w tenant with
  | none =>
    obtain ⟨w', run, trims⟩ := outcome_getResult_none e h.registry h.storage hlive
    rw [run]
    exact trims
  | some ticket =>
    obtain ⟨r, hr⟩ := live_result h hlive
    rw [outcome_getResult_some hlive hr]
    exact accessed h tenant

/-- What a download answers, by the live result of the tenant. -/
inductive Retrieved (w : World δ) (chronicle : Chronicle) (tenant : Uuid) :
    Except Failure Archive → Prop where
  | absent (none : live? w tenant = none) :
      Retrieved w chronicle tenant (.error (.resultNotFound (.uuid tenant)))
  | unfinished {ticket : Nat} {r : JobResult} (live : live? w tenant = some ticket)
      (result : w.result? ticket = some r) (unfinished : r.isDone = false) :
      Retrieved w chronicle tenant (.error (.notReady (.uuid tenant)))
  | failed {ticket : Nat} {r : JobResult} {text : String} (live : live? w tenant = some ticket)
      (result : w.result? ticket = some r) (failed : r.status = .failed)
      (error : r.error = some text) :
      Retrieved w chronicle tenant (.error (.exportFailed (.uuid tenant) (.str text)))
  | succeeded {ticket : Nat} {r : JobResult} {rows : List (RecordType × Value)}
      (live : live? w tenant = some ticket) (result : w.result? ticket = some r)
      (succeeded : r.status = .succeeded) (stored : w.Stored chronicle tenant ticket r rows) :
      Retrieved w chronicle tenant (.ok (Holding.archiveOf (Holding.written rows)))

/-- A download goes by the live result of the tenant, and loses nothing. -/
theorem download_retrieved (e : env.Within c) (h : w.Consistent chronicle) (tenant : Uuid) :
    Retrieved w chronicle tenant ((download env tenant).outcome w).1 ∧
      w.Trims ((download env tenant).outcome w).2 := by
  cases hlive : live? w tenant with
  | none =>
    obtain ⟨w', run, trims⟩ := outcome_getResult_none e h.registry h.storage hlive
    rw [download, Act.outcome_bind_error run]
    exact ⟨.absent hlive, trims⟩
  | some ticket =>
    obtain ⟨r, hr⟩ := live_result h hlive
    have registered := Registry.peek_some hlive
    have trims := accessed h tenant
    have unfinished : r.isDone = false → Retrieved w chronicle tenant
        ((download env tenant).outcome w).1 ∧ w.Trims ((download env tenant).outcome w).2 := by
      intro hopen
      rw [outcome_download_unfinished hlive hr hopen]
      exact ⟨.unfinished hlive hr hopen, trims⟩
    cases hstatus : r.status with
    | submitted => exact unfinished (JobResult.isDone_of hstatus)
    | running => exact unfinished (JobResult.isDone_of hstatus)
    | failed =>
      obtain ⟨text, herror⟩ := h.failed ticket r hr hstatus
      rw [outcome_download_failed hlive hr hstatus, herror]
      exact ⟨.failed hlive hr hstatus herror, trims⟩
    | succeeded =>
      obtain ⟨rows, stored⟩ := h.stored tenant ticket r registered hr hstatus
      obtain ⟨s, fetch, sound, same, files⟩ := Storage.outcome_fetch h.storage stored.2.1
      rw [outcome_download_succeeded e hlive hr hstatus, fetch]
      refine ⟨.succeeded hlive hr hstatus stored, rfl, rfl, trims.registry, sound, trims.old,
        trims.retained, fun other _ members _ hk => (same other members).mpr hk,
        fun other _ held _ hk => ?_⟩
      show s.workspace.Holds other held
      rw [files]
      exact hk

theorem delete_trims (e : env.Within c) (h : w.Consistent chronicle) (tenant : Uuid) :
    w.Trims ((delete env tenant).outcome w).2 := by
  cases hlive : live? w tenant with
  | none =>
    obtain ⟨w', run, trims⟩ := outcome_getResult_none e h.registry h.storage hlive
    rw [delete, Act.outcome_bind_error run]
    exact trims
  | some ticket =>
    obtain ⟨r, hr⟩ := live_result h hlive
    have trims := accessed h tenant
    rw [delete, Act.outcome_bind_ok (outcome_getResult_some hlive hr)]
    by_cases done : r.isDone
    · have evictable : ∀ value, (w.registry.access tenant w.time).value? tenant = some value →
          w.isEvictable value = true := by
        intro value hvalue
        rw [Registry.value?_access, Registry.peek_some hlive] at hvalue
        cases hvalue
        rw [World.isEvictable, hr, Option.any_some, done]
      obtain ⟨s, due, run, further⟩ := outcome_withRegistry e trims.storage
        (fun w => w.registry.remove tenant) (Registry.remove_drops trims.registry evictable)
      simp only [done]
      show w.Trims ((discard (withRegistry env fun w => w.registry.remove tenant)).outcome _).2
      rw [Act.outcome_discard, run]
      exact trims.trans further
    · simp only [done]
      exact trims

theorem purge_trims (e : env.Within c) (h : w.Consistent chronicle) :
    w.Trims ((purge env).outcome w).2 := by
  obtain ⟨s, due, run, trims⟩ := outcome_withRegistry (w := w) e h.storage
    (fun w => w.registry.purge w.isEvictable w.time) (Registry.purge_drops h.registry)
  rw [purge, run]
  exact trims

end Service

/-- Whether a source finds tenants under their own identifiers. -/
def Surroundings.FindsTenants (c : Surroundings δ) : Prop :=
  ∀ id data tenant data', (c.ask (.tenant id)).outcome data = (.ok (some tenant), data') →
    tenant.id = id

namespace World

variable {w : World δ} {chronicle : Chronicle}

theorem pairwise_concat_succ {tickets : List Nat} {n : Nat}
    (h : (tickets ++ [n]).Pairwise (· < ·)) : (tickets ++ [n] ++ [n + 1]).Pairwise (· < ·) := by
  refine List.pairwise_append.mpr ⟨h, by simp, fun a ha b hb => ?_⟩
  obtain rfl := List.mem_singleton.mp hb
  rcases List.mem_append.mp ha with ha | ha
  · have := (List.pairwise_append.mp h).2.2 a ha n (by simp)
    omega
  · obtain rfl := List.mem_singleton.mp ha
    omega

theorem result?_registered {tenant : Uuid} {ticket : Nat} {r : JobResult}
    (h : (w.registered tenant).result? ticket = some r) :
    w.result? ticket = some r ∨
      ticket = w.results.length ∧ r = .submitted tenant w.clock.now := by
  have hr : (w.results ++ [JobResult.submitted tenant w.clock.now])[ticket]? = some r := h
  rcases Nat.lt_trichotomy ticket w.results.length with hlt | heq | hgt
  · rw [List.getElem?_append_left hlt] at hr
    exact Or.inl hr
  · subst heq
    rw [List.getElem?_concat_length] at hr
    exact Or.inr ⟨rfl, (Option.some.inj hr).symm⟩
  · rw [List.getElem?_eq_none (by rw [List.length_append, List.length_singleton]; omega)] at hr
    cases hr

theorem result?_registered_old {tenant : Uuid} {ticket : Nat} {r : JobResult}
    (h : w.result? ticket = some r) : (w.registered tenant).result? ticket = some r := by
  obtain ⟨hlt, _⟩ := List.getElem?_eq_some_iff.mp h
  exact (List.getElem?_append_left hlt).trans h

theorem result?_registered_new (w : World δ) (tenant : Uuid) :
    (w.registered tenant).result? w.results.length = some (.submitted tenant w.clock.now) :=
  List.getElem?_concat_length

theorem isEvictable_registered (w : World δ) (tenant : Uuid) :
    (w.registered tenant).isEvictable = w.isEvictable := by
  funext ticket
  rcases Nat.lt_trichotomy ticket w.results.length with hlt | heq | hgt
  · have same : (w.registered tenant).result? ticket = w.result? ticket :=
      List.getElem?_append_left hlt
    rw [isEvictable, isEvictable, same]
  · subst heq
    have old : w.result? w.results.length = none := List.getElem?_eq_none (Nat.le_refl _)
    rw [isEvictable, isEvictable, result?_registered_new, old]
    rfl
  · have old : w.result? ticket = none := List.getElem?_eq_none (Nat.le_of_lt hgt)
    have new : (w.registered tenant).result? ticket = none := by
      refine List.getElem?_eq_none ?_
      rw [registered, List.length_append, List.length_singleton]
      omega
    rw [isEvictable, isEvictable, old, new]

/-- The world after a job has been registered and queued is consistent again. -/
theorem Consistent.registered (h : w.Consistent chronicle) {tenant : Tenant}
    {skipped : List RecordType} {s : Storage} {worker : Worker Task} (sound : s.Sound)
    (others : ∀ other, other ≠ tenant.id → ∀ members, w.storage.Keeps other members →
      s.Keeps other members)
    (submitted : w.worker.submit (.job w.results.length tenant skipped) = .ok worker) :
    Consistent { w.registered tenant.id with storage := s, worker } chronicle := by
  obtain ⟨waiting, isOpen⟩ := Worker.submit_ok submitted
  have value_self := Registry.value?_put_self w.registry w.time tenant.id w.results.length
  have value_other : ∀ other, other ≠ tenant.id →
      (w.registered tenant.id).registry.value? other = w.registry.value? other := fun other hne =>
    Registry.value?_put_of_ne w.registry w.time w.results.length hne
  have size : (w.registered tenant.id).results.length = w.results.length + 1 :=
    List.length_append
  refine ⟨h.registry.put w.time tenant.id w.results.length, sound, isOpen.trans h.isOpen, ?_, ?_,
    ?_, ?_, ?_⟩
  · show (chronicle.map (·.1) ++ worker.waiting.filterMap Task.ticket? ++
      [(w.registered tenant.id).results.length]).Pairwise (· < ·)
    rw [waiting, List.filterMap_append, size, ← List.append_assoc]
    exact pairwise_concat_succ h.order
  · intro other ticket hv
    by_cases hne : other = tenant.id
    · subst hne
      cases value_self.symm.trans hv
      exact ⟨_, result?_registered_new w tenant.id, rfl⟩
    · obtain ⟨r, hr, howner⟩ := h.owned other ticket ((value_other other hne).symm.trans hv)
      exact ⟨r, result?_registered_old hr, howner⟩
  · intro ticket other otherSkipped hm
    have hm' : Task.job ticket other otherSkipped ∈
        w.worker.waiting ++ [.job w.results.length tenant skipped] := waiting ▸ hm
    rcases List.mem_append.mp hm' with hold | hnew
    · obtain ⟨⟨moment, hticket⟩, newest, moment', hv, hle, hr⟩ :=
        h.queued ticket other otherSkipped hold
      refine ⟨⟨moment, result?_registered_old hticket⟩, ?_⟩
      by_cases hne : other.id = tenant.id
      · obtain ⟨hlt, _⟩ := List.getElem?_eq_some_iff.mp hticket
        rw [hne]
        exact ⟨w.results.length, w.clock.now, value_self, Nat.le_of_lt hlt,
          result?_registered_new w tenant.id⟩
      · exact ⟨newest, moment', (value_other other.id hne).trans hv, hle,
          result?_registered_old hr⟩
    · cases List.mem_singleton.mp hnew
      exact ⟨⟨_, result?_registered_new w tenant.id⟩, w.results.length, w.clock.now, value_self,
        Nat.le_refl _, result?_registered_new w tenant.id⟩
  · intro ticket r hr hfailed
    rcases result?_registered hr with hold | ⟨_, rfl⟩
    · exact h.failed ticket r hold hfailed
    · cases hfailed
  · intro other ticket r hv hr hsucceeded
    by_cases hne : other = tenant.id
    · subst hne
      cases value_self.symm.trans hv
      cases (result?_registered_new w tenant.id).symm.trans hr
      cases hsucceeded
    · have hv' := (value_other other hne).symm.trans hv
      rcases result?_registered hr with hold | ⟨_, rfl⟩
      · obtain ⟨rows, hrows, hkeeps, counts, writable⟩ :=
          h.stored other ticket r hv' hold hsucceeded
        exact ⟨rows, hrows, others other hne _ hkeeps, counts, writable⟩
      · cases hsucceeded

/-- The world after jobs have left the queue. -/
theorem Consistent.dequeued (h : w.Consistent chronicle) {worker : Worker Task}
    (isOpen : worker.isOpen = w.worker.isOpen)
    (fewer : worker.waiting.Sublist w.worker.waiting) :
    Consistent { w with worker } chronicle where
  registry := h.registry
  storage := h.storage
  isOpen := isOpen.trans h.isOpen
  order := h.order.sublist
    (((List.Sublist.refl _).append (fewer.filterMap Task.ticket?)).append (.refl _))
  owned := h.owned
  queued ticket tenant skipped hm := h.queued ticket tenant skipped (fewer.subset hm)
  failed := h.failed
  stored := h.stored

/-- Whether the job of a tenant is on duty: it has left the queue ahead of those that wait, and the
tenant has a registered result that is not finished. -/
structure OnDuty (w : World δ) (chronicle : Chronicle) (ticket : Nat) (tenant : Uuid) : Prop where
  order : (chronicle.map (·.1) ++ ticket :: (w.worker.waiting.filterMap Task.ticket? ++
    [w.results.length])).Pairwise (· < ·)
  owned : ∃ r, w.result? ticket = some r ∧ r.tenant = tenant
  registered : ∃ newest r, w.registry.value? tenant = some newest ∧ w.result? newest = some r ∧
    r.isDone = false

/-- A world after something that a job does: only its own result may have changed, and what is
stored for its tenant. -/
structure Furthers (w : World δ) (ticket : Nat) (tenant : Uuid) (w' : World δ) : Prop where
  registry : w'.registry.Sound
  value : ∀ other, w'.registry.value? other = w.registry.value? other
  worker : w'.worker = w.worker
  size : w'.results.length = w.results.length
  others : ∀ other, other ≠ ticket → w'.result? other = w.result? other
  spares : Storage.Spares tenant w.storage w'.storage

/-- The oldest job that waits is on duty when it has left the queue. -/
theorem Consistent.onDuty (h : w.Consistent chronicle) {ticket : Nat} {tenant : Tenant}
    {skipped : List RecordType} {rest : List Task} {worker : Worker Task}
    (front : w.worker.waiting = .job ticket tenant skipped :: rest)
    (left : worker.waiting = rest) :
    OnDuty { w with worker } chronicle ticket tenant.id := by
  obtain ⟨⟨moment, waited⟩, newest, moment', hv, _, hr⟩ :=
    h.queued ticket tenant skipped (front ▸ List.mem_cons_self)
  have order := h.order
  rw [front, List.append_assoc] at order
  refine ⟨?_, ⟨_, waited, rfl⟩, newest, _, hv, hr, rfl⟩
  show (_ ++ ticket :: (worker.waiting.filterMap Task.ticket? ++ [w.results.length])).Pairwise _
  rw [left]
  exact order

/-- The world after something that a job on duty does, if its result is as it should be. -/
theorem Consistent.furthered {chronicle' : Chronicle} {ticket : Nat} {tenant : Uuid}
    {r : JobResult} (h : w.Consistent chronicle) (duty : w.OnDuty chronicle ticket tenant)
    (further : w.Furthers ticket tenant w') (old : ∀ entry ∈ chronicle, entry ∈ chronicle')
    (order : (chronicle'.map (·.1) ++ w.worker.waiting.filterMap Task.ticket? ++
      [w.results.length]).Pairwise (· < ·))
    (result : w'.result? ticket = some r) (owner : r.tenant = tenant)
    (failed : r.status = .failed → ∃ text, r.error = some text)
    (stored : r.status = .succeeded → ∃ rows, w'.Stored chronicle' tenant ticket r rows) :
    w'.Consistent chronicle' := by
  obtain ⟨r₀, hr₀, howner₀⟩ := duty.owned
  obtain ⟨newest, r₁, hnewest, hr₁, unfinished⟩ := duty.registered
  -- The jobs that wait were submitted after the one on duty.
  have later : ∀ number, number ∈ w.worker.waiting.filterMap Task.ticket? → ticket < number :=
    fun number hm => List.rel_of_pairwise_cons (List.pairwise_append.mp duty.order).2.1
      (List.mem_append_left _ hm)
  refine ⟨further.registry, further.spares.sound, ?_, ?_, ?_, ?_, ?_, ?_⟩
  · rw [further.worker]
    exact h.isOpen
  · rw [further.worker, further.size]
    exact order
  · intro other number hv
    rw [further.value] at hv
    obtain ⟨r', hr', howner'⟩ := h.owned other number hv
    by_cases hne : number = ticket
    · subst hne
      cases hr₀.symm.trans hr'
      exact ⟨r, result, owner.trans (howner₀.symm.trans howner')⟩
    · exact ⟨r', (further.others number hne).trans hr', howner'⟩
  · intro number other skipped hm
    rw [further.worker] at hm
    have hlater := later number (List.mem_filterMap.mpr ⟨_, hm, rfl⟩)
    obtain ⟨⟨moment, hnumber⟩, last, moment', hv, hle, hr⟩ := h.queued number other skipped hm
    exact ⟨⟨moment, (further.others number (by omega)).trans hnumber⟩, last, moment',
      (further.value other.id).trans hv, hle, (further.others last (by omega)).trans hr⟩
  · intro number r' hr' hfailed
    by_cases hne : number = ticket
    · subst hne
      cases result.symm.trans hr'
      exact failed hfailed
    · exact h.failed number r' ((further.others number hne).symm.trans hr') hfailed
  · intro other number r' hv hr' hsucceeded
    rw [further.value] at hv
    by_cases hne : number = ticket
    · subst hne
      obtain ⟨r₂, hr₂, howner₂⟩ := h.owned other number hv
      cases hr₀.symm.trans hr₂
      cases result.symm.trans hr'
      obtain rfl : tenant = other := howner₀.symm.trans howner₂
      exact stored hsucceeded
    · have hr₂ := (further.others number hne).symm.trans hr'
      obtain ⟨rows, hrows, hkeeps, counts, writable⟩ := h.stored other number r' hv hr₂ hsucceeded
      refine ⟨rows, old _ hrows, further.spares.others other (fun he => ?_) _ hkeeps, counts,
        writable⟩
      subst he
      cases hnewest.symm.trans hv
      cases hr₁.symm.trans hr₂
      exact nomatch unfinished.symm.trans (JobResult.isDone_of hsucceeded)

/-- The world after a job on duty has ended, with its records in the chronicle. -/
theorem Consistent.ended {ticket : Nat} {tenant : Uuid} {r : JobResult}
    {rows : List (RecordType × Value)} {result : Except Failure Unit} (h : w.Consistent chronicle)
    (duty : w.OnDuty chronicle ticket tenant) (further : w.Furthers ticket tenant w')
    (hr : w'.result? ticket = some r) (owner : r.tenant = tenant)
    (status : r.status = Service.endStatus result) (error : r.error = Service.endError result)
    (counts : ∀ type, r.count type = rows.countP fun row => row.1 = type)
    (writable : ∀ row ∈ rows, ∃ line, Json.line row.1 row.2 = .ok line)
    (keeps : result = .ok () →
      w'.storage.Keeps tenant (Holding.archiveOf (Holding.written rows))) :
    w'.Consistent (chronicle ++ [(ticket, rows)]) := by
  have order := duty.order
  rw [List.append_cons, ← List.append_assoc] at order
  refine h.furthered duty further (fun _ hm => List.mem_append_left _ hm) ?_ hr owner ?_ ?_
  · rw [List.map_append]
    exact order
  · intro failed
    rw [status] at failed
    rcases result with failure | _
    · exact ⟨_, error⟩
    · cases failed
  · intro succeeded
    rw [status] at succeeded
    rcases result with failure | _
    · cases succeeded
    · exact ⟨rows, by simp, keeps rfl, counts, writable⟩

end World

namespace Service

variable {env : Environment δ} {c : Surroundings δ} {w : World δ} {chronicle : Chronicle}

theorem approve_trims (e : env.Within c) (h : w.Consistent chronicle) (id : Uuid) :
    w.Trims ((approve env id).outcome w).2 := by
  have unchanged := World.Trims.refl h.registry h.storage
  rcases asked : (c.ask (.tenant id)).outcome w.data with ⟨failure | found, data⟩
  · rw [outcome_approve_failed e asked]
    exact unchanged.withData data w.time
  · cases found with
    | none =>
      rw [outcome_approve_unknown e asked]
      exact unchanged.withData data w.time
    | some tenant =>
      rw [outcome_approve_known e asked]
      have peeked : w.Trims _ := .ofRegistry h.storage
        (h.registry.peek w.isEvictable w.time id) (Registry.peek_value? w.registry _ w.time id)
      exact peeked.withData data w.time

theorem verdict_ok {worker : Worker Task} {id : Uuid} {previous : Option JobResult}
    (h : verdict env worker id previous = .ok ()) : worker.isFull = false := by
  unfold verdict at h
  split at h
  next => cases h
  next =>
    split at h
    next => cases h
    next free => simpa using free

/-- A submission is approved for the tenant it names, when the queue is not full. -/
theorem approve_ok (e : env.Within c) (finds : c.FindsTenants) {id : Uuid} {tenant : Tenant}
    {w' : World δ} (h : (approve env id).outcome w = (.ok tenant, w')) :
    tenant.id = id ∧ w'.worker.isFull = false := by
  rcases asked : (c.ask (.tenant id)).outcome w.data with ⟨failure | found, data⟩
  · rw [outcome_approve_failed e asked] at h
    cases h
  · cases found with
    | none =>
      rw [outcome_approve_unknown e asked] at h
      cases h
    | some found =>
      rw [outcome_approve_known e asked] at h
      cases hverdict : verdict env w.worker id ((live? w id).bind w.result?) with
      | error failure =>
        rw [hverdict] at h
        cases h
      | ok =>
        rw [hverdict] at h
        cases h
        exact ⟨finds id w.data found data asked, verdict_ok hverdict⟩

/-- Cleaning up after a result that is replaced does not fail, and touches nothing if that result
was not finished. -/
theorem cleanReplaced_spares (e : env.Within c) {u : World δ} (h : u.storage.Sound)
    (w : World δ) (id : Uuid) (replaced : Option Nat) :
    ∃ s, (cleanReplaced env w id replaced).outcome u = (.ok (), { u with storage := s }) ∧
      Storage.Spares id u.storage s ∧ (replaced.any w.isEvictable = false → s = u.storage) := by
  unfold cleanReplaced
  split
  next done =>
    obtain ⟨s, run, spares⟩ := outcome_cleanUp e h id
    exact ⟨s, run, spares, fun unfinished => nomatch unfinished.symm.trans done⟩
  next => exact ⟨u.storage, rfl, h.spares id, fun _ => rfl⟩

/-- An export is entered when the queue is not full. -/
theorem outcome_enter (e : env.Within c) (h : w.Consistent chronicle) (tenant : Tenant)
    (skipped : List RecordType) (free : w.worker.isFull = false) :
    ∃ s worker, (enter env tenant.id tenant skipped).outcome w =
        (.ok (), { w.registered tenant.id with storage := s, worker }) ∧
      w.worker.submit (.job w.results.length tenant skipped) = .ok worker ∧
      Storage.Spares tenant.id w.storage s ∧
      ((w.registry.value? tenant.id).any w.isEvictable = false → s = w.storage) := by
  have sound : (w.registered tenant.id).storage.Sound := h.storage
  obtain ⟨s, cleaned, spares, untouched⟩ :=
    cleanReplaced_spares e sound w tenant.id (w.registry.value? tenant.id)
  obtain ⟨worker, submitted⟩ : ∃ worker,
      w.worker.submit (.job w.results.length tenant skipped) = .ok worker := by
    rw [Worker.submit, h.isOpen, free]
    exact ⟨_, rfl⟩
  have queued : ({ w.registered tenant.id with storage := s } : World δ).worker.submit
      (.job w.results.length tenant skipped) = .ok worker := submitted
  refine ⟨s, worker, ?_, submitted, spares, untouched⟩
  rw [outcome_enter_cleaned cleaned, outcome_handIn_ok queued]

theorem enter_consistent (e : env.Within c) (h : w.Consistent chronicle) (tenant : Tenant)
    (skipped : List RecordType) (free : w.worker.isFull = false) :
    ((enter env tenant.id tenant skipped).outcome w).2.Consistent chronicle := by
  obtain ⟨s, worker, run, submitted, spares, _⟩ := outcome_enter e h tenant skipped free
  rw [run]
  exact h.registered spares.sound spares.others submitted

theorem submit_consistent (e : env.Within c) (finds : c.FindsTenants)
    (h : w.Consistent chronicle) (id : Uuid) (skipped : List RecordType) :
    ((submit env id skipped).outcome w).2.Consistent chronicle := by
  have approved := h.trims (approve_trims e h id)
  rcases run : (approve env id).outcome w with ⟨failure | tenant, w'⟩
  · rw [submit, Act.outcome_bind_error run]
    rw [run] at approved
    exact approved
  · obtain ⟨rfl, free⟩ := approve_ok e finds run
    rw [run] at approved
    have entered := enter_consistent e approved tenant skipped free
    rw [submit, Act.outcome_bind_ok run, Act.outcome_bind]
    rcases hrun : (enter env tenant.id tenant skipped).outcome w' with ⟨failure | _, w''⟩ <;>
    · rw [hrun] at entered
      exact entered

/-- The world after a job has been run is consistent again, with the records of the job in the
chronicle. -/
theorem ran_consistent {tenant : Tenant} {skipped : List RecordType} {ticket place : Nat}
    {rest : List Task} {rows : List (RecordType × Value)} {result : Except Failure Unit}
    {w' : World δ} (h : w.Consistent chronicle)
    (front : w.worker.waiting = .job ticket tenant skipped :: rest)
    (left : (w.worker.setPhase place .running).waiting = rest)
    (ended : World.Ended { w with worker := w.worker.setPhase place .running } ticket tenant.id
      tenant.id rows result w')
    (spares : Storage.Spares tenant.id w.storage w'.storage)
    (writable : ∀ row ∈ rows, ∃ line, Json.line row.1 row.2 = .ok line)
    (keeps : result = .ok () →
      w'.storage.Keeps tenant.id (Holding.archiveOf (Holding.written rows))) :
    World.Consistent { w' with worker := w'.worker.setPhase place .finished }
      (chronicle ++ [(ticket, rows)]) := by
  let v : World δ := { w with worker := w.worker.setPhase place .running }
  have begun : v.Consistent chronicle :=
    h.dequeued rfl (w.worker.setPhase_waiting place (by simp))
  have duty : v.OnDuty chronicle ticket tenant.id := h.onDuty front left
  have further : v.Furthers ticket tenant.id w' := by
    refine ⟨?_, fun other => ?_, ended.worker, ended.size, ended.others, spares⟩
    · rw [ended.registry]
      exact h.registry.touch w.time tenant.id ticket
    · rw [ended.registry]
      exact Registry.touch_value? w.registry w.time tenant.id other ticket
  obtain ⟨r, hr, owner, status, error, counts⟩ := ended.ended
  have whole : w'.Consistent (chronicle ++ [(ticket, rows)]) :=
    begun.ended duty further hr owner status error counts writable keeps
  exact whole.dequeued rfl (w'.worker.setPhase_waiting place (by simp))

theorem outcome_runNext_idle (h : w.worker.waiting = []) :
    (runNext env).outcome w = (.ok none, w) := by
  rw [runNext, Act.outcome_bind_ok (Act.outcome_get w), Worker.start?_nil h]
  rfl

theorem outcome_runNext {place : Nat} {task : Task} {worker : Worker Task}
    (h : w.worker.start? = some (place, task, worker)) {result : Except Failure Unit}
    {w' : World δ} (run : (runTask env task).outcome { w with worker } = (result, w')) :
    (runNext env).outcome w =
      (.ok (some result), { w' with worker := w'.worker.setPhase place .finished }) := by
  rw [runNext, Act.outcome_bind_ok (Act.outcome_get w), h]
  have attempted := Act.outcome_attempt (runTask env task) { w with worker }
  rw [run] at attempted
  exact (Act.outcome_bind_ok (Act.outcome_set _ w)).trans (Act.outcome_bind_ok attempted)

/-- The job that is run next ends its result, leaves its archive if it succeeds, and spares what is
stored for others. -/
theorem runNext_job (e : env.Within c) (sound : w.storage.Sound) {ticket place : Nat}
    {tenant : Tenant} {skipped : List RecordType}
    (waited : ∃ moment, w.result? ticket = some (.submitted tenant.id moment))
    (start : w.worker.start? = some (place, .job ticket tenant skipped,
      w.worker.setPhase place .running)) :
    let v : World δ := { w with worker := w.worker.setPhase place .running }
    let rows := savedBy env ticket tenant skipped v
    ∃ result w', (runNext env).outcome w =
        (.ok (some (.ok ())), { w' with worker := w'.worker.setPhase place .finished }) ∧
      v.Ended ticket tenant.id tenant.id rows result w' ∧
      Storage.Spares tenant.id w.storage w'.storage ∧
      (∀ row ∈ rows, ∃ line, Json.line row.1 row.2 = .ok line) ∧
      (result = .ok () →
        w'.storage.Keeps tenant.id (Holding.archiveOf (Holding.written rows))) := by
  intro v rows
  obtain ⟨moment, waited⟩ := waited
  have queued : v.result? ticket = some (.submitted tenant.id moment) := waited
  obtain ⟨_, started⟩ := started_eq queued
  have storage : (v.started ticket).storage = w.storage := by
    rw [started]
    rfl
  obtain ⟨result, w₂, run, counted, spares, keeps⟩ : ∃ result w₂,
      (exportTenant env ticket tenant skipped).outcome _ = (result, w₂) ∧ _ :=
    exportTenant_ends e (storage ▸ sound)
  obtain ⟨w', ends, ended, files⟩ := runExport_ends queued run counted
  rw [storage] at spares
  rw [← files] at spares keeps
  exact ⟨result, w', outcome_runNext start ends, ended, spares, counted.writable, keeps⟩

theorem run_consistent (e : env.Within c) (h : w.Consistent chronicle) :
    ((runNext env).outcome w).2.Consistent (chronicle ++ chronicled env w .run) := by
  cases front : w.worker.waiting with
  | nil =>
    rw [outcome_runNext_idle front, chronicled, Worker.start?_nil front, List.append_nil]
    exact h
  | cons task rest =>
    obtain ⟨place, start, left⟩ := Worker.start?_front front
    rw [chronicled, start]
    cases task with
    | filler =>
      rw [outcome_runNext start rfl, List.append_nil]
      refine h.dequeued rfl ?_
      rw [Worker.setPhase_setPhase]
      exact w.worker.setPhase_waiting place (by simp)
    | job ticket tenant skipped =>
      have waited := (h.queued ticket tenant skipped (front ▸ List.mem_cons_self)).1
      obtain ⟨result, w', run, ended, spares, writable, keeps⟩ :=
        runNext_job e h.storage waited start
      rw [run]
      exact ran_consistent h front (left .running (by simp)) ended spares writable keeps

theorem step_of_ne_run {op : Operation} (h : op ≠ .run) :
    step env (w, chronicle) op = (after env w op, chronicle) := by
  cases op with
  | run => exact absurd rfl h
  | _ => exact Prod.ext rfl (List.append_nil chronicle)

/-- A request that is no submission makes nothing. -/
theorem request_trims (e : env.Within c) (h : w.Consistent chronicle) {op : Operation}
    (hop : op ≠ .run) (unsubmitted : ∀ tenant skipped, op ≠ .submit tenant skipped) :
    w.Trims (after env w op) := by
  cases op with
  | submit tenant skipped => exact absurd rfl (unsubmitted tenant skipped)
  | run => exact absurd rfl hop
  | look tenant => exact getResult_trims e h tenant
  | download tenant => exact (download_retrieved e h tenant).2
  | delete tenant => exact delete_trims e h tenant
  | purge => exact purge_trims e h
  | advance seconds =>
    exact (World.Trims.refl h.registry h.storage).withData w.data (w.time + seconds)

theorem step_consistent (e : env.Within c) (finds : c.FindsTenants)
    (h : w.Consistent chronicle) (op : Operation) :
    (step env (w, chronicle) op).1.Consistent (step env (w, chronicle) op).2 := by
  by_cases hop : op = .run
  · subst hop
    exact run_consistent e h
  · rw [step_of_ne_run hop]
    cases op with
    | submit id skipped => exact submit_consistent e finds h id skipped
    | run => exact absurd rfl hop
    | _ => exact h.trims (request_trims e h hop (by simp))

end Service

end Handover

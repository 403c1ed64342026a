import Mathlib.Algebra.Order.Ring.Unbundled.Rat
import Handover.Proofs.Refusal
import Handover.Proofs.Retrieval
import Handover.Proofs.Session

namespace Handover

open Act

variable {δ : Type}

/-- Whether no time is taken back by a move. -/
def Move.Forward : Move → Prop
  | .request (.advance seconds) => 0 ≤ seconds
  | _ => True

instance : DecidablePred Move.Forward
  | .request (.advance seconds) => inferInstanceAs (Decidable (0 ≤ seconds))
  | .request (.submit ..) | .request .run | .request (.look _) | .request (.download _)
  | .request (.delete _) | .request .purge | .start | .effort _ | .mark _ | .touch | .leave =>
    .isTrue trivial

namespace Session

/-- Whether a move takes the result of a tenant away: another export of the tenant is accepted, or
the result is deleted. -/
def takes (env : Environment δ) (tenant : Uuid) (s : Session δ) : Move → Bool
  | .request (.submit id skipped) =>
    id = tenant && ((Service.submit env id skipped).outcome s.world).1.isOk
  | .request (.delete id) => id = tenant && ((Service.delete env id).outcome s.world).1.isOk
  | _ => false

/-- Whether no move of some takes the result of a tenant away. -/
def Spares (env : Environment δ) (tenant : Uuid) : Session δ → List Move → Prop
  | _, [] => True
  | s, move :: rest => takes env tenant s move = false ∧ Spares env tenant (step env s move) rest

instance Spares.decidable (env : Environment δ) (tenant : Uuid) :
    (s : Session δ) → (moves : List Move) → Decidable (Spares env tenant s moves)
  | _, [] => .isTrue trivial
  | s, move :: rest =>
    have := Spares.decidable env tenant (step env s move) rest
    inferInstanceAs (Decidable (_ ∧ _))

/-- Whether a move asks for the result of a tenant and finds the one with a number. -/
def reads (env : Environment δ) (tenant : Uuid) (ticket : Nat) (s : Session δ) : Move → Bool
  | .request (.look id) | .request (.download id) =>
    id = tenant && ((Service.ticketOf env id).outcome s.world).1.toOption = some ticket
  | _ => false

/-- The time of the last move of some that reads a result, and an earlier time if none does. -/
def lastRead (env : Environment δ) (tenant : Uuid) (ticket : Nat) :
    Session δ → Rat → List Move → Rat
  | _, access, [] => access
  | s, access, move :: rest => lastRead env tenant ticket (step env s move)
      (if reads env tenant ticket s move then s.world.time else access) rest

end Session

namespace World

variable (w : World δ) (id : Uuid)

theorem looked_terms : (w.looked id).registry.timeToLive = w.registry.timeToLive :=
  (Registry.follow_terms (fun key => .resultNotFound (.uuid key)) w.registry
    ⟨w.time, w.isEvictable⟩ (.get id)).1

theorem peeked_terms : (w.peeked id).registry.timeToLive = w.registry.timeToLive :=
  (Registry.follow_terms (fun key => .resultNotFound (.uuid key)) w.registry
    ⟨w.time, w.isEvictable⟩ (.peek id)).1

theorem purged_terms : w.purged.registry.timeToLive = w.registry.timeToLive :=
  (Registry.follow_terms (fun key => .resultNotFound (.uuid key)) w.registry
    ⟨w.time, w.isEvictable⟩ .purge).1

theorem removed_terms : (w.removed id).registry.timeToLive = w.registry.timeToLive :=
  (Registry.follow_terms (fun key => .resultNotFound (.uuid key)) w.registry
    ⟨w.time, w.isEvictable⟩ (.remove id)).1

theorem registered_terms : (w.registered id).registry.timeToLive = w.registry.timeToLive :=
  (Registry.follow_terms (fun key => .resultNotFound (.uuid key)) w.registry
    ⟨w.time, w.isEvictable⟩ (.put id w.results.length)).1

theorem discarded_terms (number : Nat) :
    (w.registry.discard id number).2.timeToLive = w.registry.timeToLive :=
  (Registry.follow_terms (fun key => .resultNotFound (.uuid key)) w.registry
    ⟨w.time, w.isEvictable⟩ (.discard id number)).1

theorem touched_terms (number : Nat) :
    (w.registry.touch w.time id number).2.timeToLive = w.registry.timeToLive :=
  (Registry.follow_terms (fun key => .resultNotFound (.uuid key)) w.registry
    ⟨w.time, w.isEvictable⟩ (.touch id number)).1

end World

/-- A finished result of a tenant that was accessed at a time last. It is registered until it is
dropped, and it is not dropped before its time is over. -/
structure World.Retains (tenant : Uuid) (ticket : Nat) (r : JobResult) (access : Rat)
    (w : World δ) : Prop where
  found : w.result? ticket = some r
  done : r.isDone = true
  since : access ≤ w.time
  entry : w.registry.held? tenant = some ⟨tenant, ticket, access⟩ ∨
    w.registry.held? tenant = none ∧ w.registry.timeToLive ≤ w.time - access

namespace World.Retains

variable {w w' : World δ} {tenant : Uuid} {ticket : Nat} {r : JobResult} {access : Rat}

theorem isEvictable (h : w.Retains tenant ticket r access) : w.isEvictable ticket = true := by
  rw [World.isEvictable, h.found, Option.any_some, h.done]

theorem isExpired (h : w.Retains tenant ticket r access) :
    w.registry.isExpired w.isEvictable w.time ⟨tenant, ticket, access⟩ =
      !decide (w.time - access < w.registry.timeToLive) := by
  rw [Registry.isExpired, h.isEvictable, Bool.true_and, ← decide_not]
  simp only [Rat.not_lt]

/-- The result is live until its time is over. -/
theorem live (h : w.Retains tenant ticket r access) : Service.live? w tenant =
    if w.time - access < w.registry.timeToLive then some ticket else none := by
  rw [Service.live?, Registry.peek_live]
  rcases h.entry with held | ⟨held, past⟩
  · rw [held, Option.bind_some, h.isExpired]
    by_cases early : w.time - access < w.registry.timeToLive <;> simp [early]
  · rw [held, if_neg (Rat.not_lt.mpr past)]
    rfl

theorem of_held (h : w.Retains tenant ticket r access) (found : w'.result? ticket = some r)
    (later : w.time ≤ w'.time) (terms : w'.registry.timeToLive = w.registry.timeToLive)
    (held : w'.registry.held? tenant = w.registry.held? tenant) :
    w'.Retains tenant ticket r access := by
  refine ⟨found, h.done, Rat.le_trans h.since later, ?_⟩
  rw [held, terms]
  refine h.entry.imp_right fun ⟨gone, past⟩ => ⟨gone, ?_⟩
  grind

/-- What keeps the live entries only and may access them keeps the result while it is live. -/
theorem of_filtered {access' : Rat} {f : RegistryEntry Uuid Nat → RegistryEntry Uuid Nat}
    (h : w.Retains tenant ticket r access) (found : w'.result? ticket = some r)
    (time : w'.time = w.time) (terms : w'.registry.timeToLive = w.registry.timeToLive)
    (held : w'.registry.held? tenant = ((w.registry.held? tenant).filter
      fun e => !w.registry.isExpired w.isEvictable w.time e).map f)
    (accessed : f ⟨tenant, ticket, access⟩ = ⟨tenant, ticket, access'⟩)
    (since : access' ≤ w.time) :
    w'.Retains tenant ticket r
      (if Service.live? w tenant = some ticket then access' else access) := by
  have live := h.live
  have expired := h.isExpired
  by_cases early : w.time - access < w.registry.timeToLive
  · rw [if_pos early] at live
    rw [if_pos live]
    refine ⟨found, h.done, time ▸ since, .inl ?_⟩
    rcases h.entry with entry | ⟨_, past⟩
    · rw [decide_eq_true early] at expired
      rw [held, entry, Option.filter_some, expired, ← accessed]
      rfl
    · exact absurd early (Rat.not_lt.mpr past)
  · rw [if_neg early] at live
    rw [live, if_neg (by simp)]
    refine ⟨found, h.done, time ▸ h.since, .inr ⟨?_, ?_⟩⟩
    · rcases h.entry with entry | ⟨entry, _⟩
      · rw [decide_eq_false early] at expired
        rw [held, entry, Option.filter_some, expired]
        rfl
      · rw [held, entry]
        rfl
    · rw [time, terms]
      exact Rat.not_lt.mp early

theorem beside (h : w.Retains tenant ticket r access) (h' : w.Beside w') :
    w'.Retains tenant ticket r access := by
  refine h.of_held ?_ (h'.time ▸ Rat.le_refl) (by rw [h'.registry]) (by rw [h'.registry])
  rw [result?, h'.results]
  exact h.found

theorem looked (h : w.Retains tenant ticket r access) (id : Uuid) :
    (w.looked id).Retains tenant ticket r
      (if id = tenant ∧ Service.live? w id = some ticket then w.time else access) := by
  have held := Registry.held?_get w.registry w.isEvictable w.time id tenant
    (.resultNotFound (.uuid id))
  by_cases same : id = tenant
  · subst same
    rw [if_pos rfl] at held
    simp only [true_and]
    exact h.of_filtered h.found rfl (w.looked_terms id) held rfl Rat.le_refl
  · rw [if_neg (Ne.symm same)] at held
    rw [if_neg fun h => same h.1]
    exact h.of_held h.found Rat.le_refl (w.looked_terms id) held

theorem peeked (h : w.Retains tenant ticket r access) (id : Uuid) :
    (w.peeked id).Retains tenant ticket r access := by
  have held := Registry.held?_peek w.registry w.isEvictable w.time id tenant
  refine h.of_held h.found Rat.le_refl (w.peeked_terms id) (held.trans ?_)
  split
  next same =>
    rcases h.entry with entry | ⟨entry, _⟩
    · rw [← same, entry, Option.map_some, Registry.examined, if_pos h.isEvictable]
    · rw [← same, entry]
      rfl
  next => rfl

theorem purged (h : w.Retains tenant ticket r access) (keyed : w.registry.Keyed) :
    w.purged.Retains tenant ticket r access := by
  have kept : w.purged.Retains tenant ticket r
      (if Service.live? w tenant = some ticket then access else access) :=
    h.of_filtered h.found rfl w.purged_terms (keyed.held?_purge w.isEvictable w.time tenant)
      (if_pos h.isEvictable) h.since
  rwa [ite_self] at kept

theorem removed (h : w.Retains tenant ticket r access) {id : Uuid} (hne : id ≠ tenant) :
    (w.removed id).Retains tenant ticket r access :=
  h.of_held h.found Rat.le_refl (w.removed_terms id)
    ((Registry.held?_remove w.registry id tenant).trans (if_neg (Ne.symm hne)))

theorem registered (h : w.Retains tenant ticket r access) {id : Uuid} (hne : id ≠ tenant)
    (worker : Worker Task) :
    Retains tenant ticket r access { w.registered id with worker } :=
  h.of_held (result?_registered_old h.found) Rat.le_refl (w.registered_terms id)
    ((Registry.held?_put w.registry w.time id tenant w.results.length).trans
      (if_neg (Ne.symm hne)))

theorem works (h : w.Retains tenant ticket r access) (works : w.Works w') :
    w'.Retains tenant ticket r access :=
  h.of_held (works.ended ticket r h.found h.done) (works.time ▸ Rat.le_refl)
    (by rw [works.registry]) (by rw [works.registry])

/-- The time of another result starts anew. -/
theorem touched {number : Nat} (h : w.Retains tenant ticket r access) (id : Uuid)
    (hne : ticket ≠ number) : Retains tenant ticket r access
      { w with registry := (w.registry.touch w.time id number).2 } := by
  have held := Registry.held?_touch w.registry w.time id tenant number
  refine h.of_held h.found Rat.le_refl (w.touched_terms id number) (held.trans ?_)
  split
  next same =>
    rcases h.entry with entry | ⟨entry, _⟩
    · rw [← same, entry, Option.map_some, if_neg hne]
    · rw [← same, entry]
      rfl
  next => rfl

end World.Retains

namespace Service

variable {env : Environment δ} {w : World δ} {tenant : Uuid} {ticket : Nat} {r : JobResult}
variable {access : Rat}

theorem outcome_ticketOf_live (e : env.Apart) (w : World δ) (id : Uuid) :
    ((ticketOf env id).outcome w).1.toOption = live? w id := by
  obtain ⟨answer, w', run, _, hlive⟩ := outcome_ticketOf_apart e w id
  rw [run]
  exact hlive

theorem outcome_getResult_absent (e : env.Apart) (sound : w.registry.Sound)
    (h : live? w tenant = none) :
    ((getResult env tenant).outcome w).1 = .error (.resultNotFound (.uuid tenant)) := by
  obtain ⟨w', run, _⟩ := outcome_withRegistry_apart e
    (fun w => w.registry.get w.isEvictable w.time tenant (.resultNotFound (.uuid tenant))) w
  rw [Registry.get_none sound h] at run
  have ticketed : (ticketOf env tenant).outcome w = _ := run
  rw [getResult, outcome_bind_error ticketed]

theorem terms_upkeep (timeToLive : Rat) :
    World.Upkeep fun w : World δ => w.registry.timeToLive = timeToLive where
  aside h beside := beside.registry ▸ h
  looked id h := (World.looked_terms _ id).trans h
  peeked id h := (World.peeked_terms _ id).trans h
  removed id h := (World.removed_terms _ id).trans h
  purged h := (World.purged_terms _).trans h
  registered id h := (World.registered_terms _ id).trans h
  discarded id ticket h := (World.discarded_terms _ id ticket).trans h
  queued h _ := h
  later _ h := h

/-- A request changes nothing about how long results are kept. -/
theorem request_terms (e : env.Apart) {op : Operation} (hop : op ≠ .run) :
    (after env w op).registry.timeToLive = w.registry.timeToLive :=
  request_preserves e (terms_upkeep _) hop rfl

theorem submit_retains (e : env.Apart) (cleans : env.CleansUp) (o : w.Orderly)
    (h : w.Retains tenant ticket r access) (id : Uuid) (skipped : List RecordType)
    (spares : id = tenant → ((submit env id skipped).outcome w).1.isOk = false) :
    ((submit env id skipped).outcome w).2.Retains tenant ticket r access := by
  rcases outcome_submit_apart e cleans w o.disposes o.isOpen id skipped with
    ⟨failure, w', run, beside | beside⟩ | ⟨owner, worker, w', run, _, _, _, beside⟩
  · rw [run]
    exact h.beside beside
  · rw [run]
    exact (h.peeked id).beside beside
  · have hne : id ≠ tenant := by
      intro same
      have refused := spares same
      rw [run] at refused
      cases refused
    rw [run]
    exact ((h.peeked id).registered hne worker).beside beside

theorem delete_retains (e : env.Apart) (sound : w.registry.Sound)
    (h : w.Retains tenant ticket r access) (id : Uuid)
    (spares : id = tenant → ((delete env id).outcome w).1.isOk = false) :
    ((delete env id).outcome w).2.Retains tenant ticket r access := by
  have looked := h.looked id
  obtain ⟨answer, w', run, ⟨beside, unfinished⟩ | ⟨beside, answered, _⟩⟩ :=
    outcome_delete_apart e w id
  · have missed : ¬ (id = tenant ∧ live? w id = some ticket) := by
      rintro ⟨_, hlive⟩
      exact nomatch h.done.symm.trans (unfinished ticket r hlive h.found)
    rw [if_neg missed] at looked
    rw [run]
    exact looked.beside beside
  · have hne : id ≠ tenant := by
      intro same
      have refused := spares same
      have kept : (w.looked id).registry.Sound := (looked_sheds sound (.refl _)).registry
      obtain ⟨removed, ok⟩ := Registry.remove_answer kept id
      rw [run, answered, ok] at refused
      cases refused
    rw [if_neg fun found => hne found.1] at looked
    rw [run]
    exact (looked.removed hne).beside beside

end Service

namespace Session

open Service

variable {env : Environment δ} {s : Session δ} {tenant : Uuid} {ticket : Nat} {r : JobResult}
variable {access : Rat} {move : Move}

/-- A session in which a result is retained and its job is over. -/
structure Retains (tenant : Uuid) (ticket : Nat) (r : JobResult) (access : Rat)
    (s : Session δ) : Prop where
  world : s.world.Retains tenant ticket r access
  spent : ∀ job, s.duty = .marked job → job.ticket ≠ ticket

theorem reads_unasked (unasked : ∀ op, move = .request op → op = .run) :
    reads env tenant ticket s move = false := by
  cases move with
  | request op =>
    cases unasked op rfl
    rfl
  | _ => rfl

theorem Retains.request (e : env.Apart) (cleans : env.CleansUp) (o : s.Orderly)
    (h : s.Retains tenant ticket r access) {op : Operation} (hop : op ≠ .run)
    (spares : takes env tenant s (.request op) = false) (forward : (Move.request op).Forward) :
    (step env s (.request op)).Retains tenant ticket r
      (if reads env tenant ticket s (.request op) then s.world.time else access) := by
  rw [step_request hop]
  refine ⟨?_, h.spent⟩
  cases op with
  | run => exact absurd rfl hop
  | submit id skipped =>
    refine submit_retains e cleans o.world h.world id skipped fun same => ?_
    simpa [takes, same] using spares
  | look id =>
    obtain ⟨answer, w', run, beside, _⟩ := outcome_getResult_apart e s.world id
    have looked := (h.world.looked id).beside beside
    simpa only [reads, outcome_ticketOf_live e, Bool.and_eq_true, decide_eq_true_eq,
      Service.after, run] using looked
  | download id =>
    have looked := (h.world.looked id).beside (download_beside e s.world id)
    simpa only [reads, outcome_ticketOf_live e, Bool.and_eq_true, decide_eq_true_eq,
      Service.after] using looked
  | delete id =>
    refine delete_retains e o.world.registry h.world id fun same => ?_
    simpa [takes, same] using spares
  | purge =>
    obtain ⟨w', run, beside⟩ := outcome_purge_apart e s.world
    rw [Service.after, run]
    exact (h.world.purged o.world.registry.keyed).beside beside
  | advance seconds =>
    refine h.world.of_held h.world.found ?_ rfl rfl
    have : 0 ≤ seconds := forward
    show s.world.time ≤ s.world.time + seconds
    grind

/-- A job on duty exports a result that is not finished, so not a retained one. -/
theorem Retains.other (o : s.Orderly) (h : s.Retains tenant ticket r access) {job : Running}
    (duty : s.duty = .exporting job) : ticket ≠ job.ticket := by
  rintro rfl
  obtain ⟨r', hr', running, _⟩ := o.exporting duty
  cases h.world.found.symm.trans hr'
  exact nomatch h.world.done.symm.trans (JobResult.isDone_of running)

/-- Every move that spares the tenant keeps its finished result. -/
theorem Retains.step (e : env.Apart) (cleans : env.CleansUp) (o : s.Orderly)
    (h : s.Retains tenant ticket r access) (spares : takes env tenant s move = false)
    (forward : move.Forward) : (step env s move).Retains tenant ticket r
      (if reads env tenant ticket s move then s.world.time else access) := by
  rcases move.request_or with ⟨op, hop, rfl⟩ | unasked
  · exact h.request e cleans o hop spares forward
  · rw [reads_unasked unasked, if_neg Bool.false_ne_true]
    rcases o.work_cases e unasked with ⟨works, marked⟩ | ⟨job, duty, same⟩
    · refine ⟨h.world.works works, fun job duty => ?_⟩
      -- Only a job that exports gets marked, and its result is not done yet.
      rcases marked job duty with duty | duty
      · exact h.spent job duty
      · exact (h.other o duty).symm
    · rw [same]
      exact ⟨h.world.touched job.tenant.id (h.spent job duty).symm, nofun⟩

theorem Retains.after (e : env.Apart) (cleans : env.CleansUp) (finds : env.FindsTenants)
    (o : s.Orderly) (h : s.Retains tenant ticket r access) {moves : List Move}
    (spares : Spares env tenant s moves) (forward : ∀ move ∈ moves, move.Forward) :
    (after env s moves).Retains tenant ticket r (lastRead env tenant ticket s access moves) ∧
      access ≤ lastRead env tenant ticket s access moves := by
  induction moves generalizing s access with
  | nil => exact ⟨h, Rat.le_refl⟩
  | cons move rest ih =>
    obtain ⟨first, others⟩ := spares
    obtain ⟨retains, later⟩ := ih (o.step e cleans finds move)
      (h.step e cleans o first (forward move List.mem_cons_self)) others
      fun move hm => forward move (List.mem_cons_of_mem _ hm)
    refine ⟨retains, Rat.le_trans ?_ later⟩
    split
    next => exact h.world.since
    next => exact Rat.le_refl

/-- No move changes how long results are kept. -/
theorem step_terms (e : env.Apart) (o : s.Orderly) (move : Move) :
    (step env s move).world.registry.timeToLive = s.world.registry.timeToLive := by
  rcases move.request_or with ⟨op, hop, rfl⟩ | unasked
  · rw [step_request hop]
    exact request_terms e hop
  · rcases o.work_cases e unasked with ⟨works, _⟩ | ⟨job, _, same⟩
    · rw [works.registry]
    · rw [same]
      exact s.world.touched_terms job.tenant.id job.ticket

theorem after_terms (e : env.Apart) (cleans : env.CleansUp) (finds : env.FindsTenants)
    (o : s.Orderly) (moves : List Move) :
    (after env s moves).world.registry.timeToLive = s.world.registry.timeToLive := by
  have next : ∀ t : Session δ, t.Orderly →
      t.world.registry.timeToLive = s.world.registry.timeToLive → ∀ move,
      (step env t move).world.registry.timeToLive = s.world.registry.timeToLive :=
    fun t ho same move => (step_terms e ho move).trans same
  exact (o.invariant e cleans finds next rfl moves).2

/-- A move keeps what is registered for a tenant while it is not finished, unless another export of
the tenant is accepted. -/
theorem step_registered (e : env.Apart) (cleans : env.CleansUp) (finds : env.FindsTenants)
    (o : s.Orderly) (registered : s.world.registry.value? tenant = some ticket)
    (unfinished : s.world.isEvictable ticket = false) (spares : takes env tenant s move = false) :
    (step env s move).world.registry.value? tenant = some ticket := by
  rcases move.request_or with ⟨op, hop, rfl⟩ | unasked
  · rw [step_request hop]
    rcases request_cases e cleans finds o.world hop with
      sheds | ⟨owner, skipped, worker, rfl, accepted, _, _, beside⟩
    · exact sheds.retained tenant ticket registered unfinished
    · have hne : tenant ≠ owner.id := by
        rintro rfl
        rw [takes, accepted] at spares
        simp [Except.isOk, Except.toBool] at spares
      have peeked := peeked_sheds o.world.registry (.refl (s.world.peeked owner.id))
      show (Service.after env s.world _).registry.value? tenant = _
      rw [beside.registry]
      exact (Registry.value?_put_of_ne _ _ _ hne).trans
        (peeked.retained tenant ticket registered unfinished)
  · rcases o.work_cases e unasked with ⟨works, _⟩ | ⟨job, _, same⟩
    · rw [works.registry]
      exact registered
    · rw [same]
      exact (Registry.touch_value? ..).trans registered

/-- A result that is done stays as it is. -/
theorem step_done (e : env.Apart) (cleans : env.CleansUp) (finds : env.FindsTenants)
    (o : s.Orderly) (found : s.world.result? ticket = some r) (done : r.isDone = true)
    (move : Move) : (step env s move).world.result? ticket = some r := by
  rcases move.request_or with ⟨op, hop, rfl⟩ | unasked
  · rw [step_request hop]
    exact request_result e cleans finds o.world hop found
  · rcases o.work_cases e unasked with ⟨works, _⟩ | ⟨job, _, same⟩
    · exact works.ended ticket r found done
    · rw [same]
      exact found

theorem after_done (e : env.Apart) (cleans : env.CleansUp) (finds : env.FindsTenants)
    (o : s.Orderly) (found : s.world.result? ticket = some r) (done : r.isDone = true)
    (moves : List Move) : (after env s moves).world.result? ticket = some r := by
  have next : ∀ t : Session δ, t.Orderly → t.world.result? ticket = some r → ∀ move,
      (step env t move).world.result? ticket = some r :=
    fun t ho found move => step_done e cleans finds ho found done move
  exact (o.invariant e cleans finds next found moves).2

/-- What is registered for a tenant stays so as long as it is not finished, unless another export
of the tenant is accepted. -/
theorem after_registered (e : env.Apart) (cleans : env.CleansUp) (finds : env.FindsTenants)
    (o : s.Orderly) (registered : s.world.registry.value? tenant = some ticket)
    {moves : List Move} (spares : Spares env tenant s moves)
    (unfinished : (after env s moves).world.isEvictable ticket = false) :
    (after env s moves).world.registry.value? tenant = some ticket := by
  induction moves generalizing s with
  | nil => exact registered
  | cons move rest ih =>
    obtain ⟨first, others⟩ := spares
    refine ih (o.step e cleans finds move) ?_ others unfinished
    refine step_registered e cleans finds o registered ?_ first
    -- A result that is done stays so; one that is not done in the end never was.
    cases evictable : s.world.isEvictable ticket with
    | false => rfl
    | true =>
      obtain ⟨r, found, done⟩ := (Option.any_eq_true ..).mp evictable
      have ended := after_done e cleans finds o found done (move :: rest)
      rw [World.isEvictable, ended, Option.any_some, done] at unfinished
      cases unfinished

/-- When the job of a registered result ends, the time of the result starts. -/
theorem touch_retains (env : Environment δ) (o : s.Orderly)
    (registered : s.world.registry.value? tenant = some ticket) {job : Running}
    (duty : s.duty = .marked job) (same : job.ticket = ticket) :
    ∃ r, s.world.result? ticket = some r ∧ r.tenant = tenant ∧ r.isDone = true ∧
      (step env s .touch).Retains tenant ticket r s.world.time := by
  subst same
  obtain ⟨r, found, done, howner⟩ := o.marked duty
  obtain ⟨r', found', htenant⟩ := o.world.owned tenant job.ticket registered
  cases found.symm.trans found'
  obtain rfl : job.tenant.id = tenant := howner.symm.trans htenant
  obtain ⟨entry, held, hvalue⟩ := Option.map_eq_some_iff.mp registered
  have touched := Registry.held?_touch s.world.registry s.world.time job.tenant.id job.tenant.id
    job.ticket
  rw [if_pos rfl, held, Option.map_some, if_pos hvalue, Registry.accessed,
    Registry.held?_key held, hvalue] at touched
  refine ⟨r, found, htenant, done, ?_⟩
  rw [step_touch_marked duty]
  exact ⟨⟨found, done, Rat.le_refl, .inl touched⟩, nofun⟩

/-- A registered result is there until its job has ended, and then until its time is over. The time
starts when the job ends, however long it has waited and run, and anew whenever the result is
found. -/
theorem registered_result_retained (env : Environment δ) (e : env.Apart) (cleans : env.CleansUp)
    (finds : env.FindsTenants) (w₀ : World δ) (unused : w₀.Unused) (ws : Workspace)
    (files : w₀.storage = .here ws) (before : List Move) (tenant : Uuid) (ticket : Nat)
    (registered : (after env ⟨w₀, .idle⟩ before).world.registry.value? tenant = some ticket) :
    let s := after env ⟨w₀, .idle⟩ before
    (∀ moves, Spares env tenant s moves →
      let w := (after env s moves).world
      w.isEvictable ticket = false → ∃ r, w.result? ticket = some r ∧ r.tenant = tenant ∧
        ((getResult env tenant).outcome w).1 = .ok r) ∧
    ∀ job, s.duty = .marked job → job.ticket = ticket →
      ∃ r, s.world.result? ticket = some r ∧ r.tenant = tenant ∧ r.isDone = true ∧
        ∀ moves, (∀ move ∈ moves, move.Forward) → Spares env tenant (step env s .touch) moves →
          let w := (after env (step env s .touch) moves).world
          let start := s.world.time
          let latest := lastRead env tenant ticket (step env s .touch) start moves
          w.result? ticket = some r ∧ ((getResult env tenant).outcome w).1 =
            if w.time - max start latest < w₀.registry.timeToLive then .ok r
            else .error (.resultNotFound (.uuid tenant)) := by
  intro s
  have disposes : w₀.storage.Disposes := by
    rw [files]
    rfl
  have opening : Orderly ⟨w₀, .idle⟩ := .idle (unused.orderly disposes)
  have o : s.Orderly := opening.after e cleans finds before
  refine ⟨fun moves spares => ?_, fun job duty same => ?_⟩
  · intro w unfinished
    have kept := after_registered e cleans finds o registered spares unfinished
    obtain ⟨r, found, howner⟩ := (o.after e cleans finds moves).world.owned tenant ticket kept
    have live := World.live?_of_unfinished kept unfinished
    exact ⟨r, found, howner, by rw [outcome_getResult_some live found]⟩
  · obtain ⟨r, found, howner, done, retains⟩ := touch_retains env o registered duty same
    refine ⟨r, found, howner, done, fun moves forward spares => ?_⟩
    intro w start latest
    have o' := o.step e cleans finds .touch
    obtain ⟨⟨kept, _⟩, later⟩ := retains.after e cleans finds o' spares forward
    have terms : w.registry.timeToLive = w₀.registry.timeToLive := by
      rw [after_terms e cleans finds o' moves, step_terms e o .touch,
        after_terms e cleans finds opening before]
    have same : max start latest = latest := by grind
    have live := kept.live
    rw [terms] at live
    refine ⟨kept.found, ?_⟩
    rw [same]
    split
    next early =>
      rw [if_pos early] at live
      rw [outcome_getResult_some live kept.found]
    next past =>
      rw [if_neg past] at live
      exact outcome_getResult_absent e (o'.after e cleans finds moves).world.registry live

/-- Of two results that are kept for ten seconds one is read nine seconds after the end of its job,
which has waited for a hundred. It is there for less than ten seconds more. -/
theorem registered_result_retained_ten :
    let store : Store := ⟨[.tenant ⟨⟨7⟩, .str "acme"⟩, .tenant ⟨⟨8⟩, .str "umbra"⟩]⟩
    let w₀ : World Store := ⟨store, [], ⟨10, true, .idle, []⟩, 0, ⟨2, true, []⟩,
      .here (.new "data.tar"), ⟨0⟩, []⟩
    let env := Environment.around (.ofStore 0) ⟨.standard, 2, 1, .null, []⟩ true 9
    let skipped := RecordType.all.filter (· ≠ .tenant)
    let s := after env ⟨w₀, .idle⟩ [.request (.submit ⟨7⟩ skipped), .request (.advance 100), .start,
      .effort .prepare, .request (.look ⟨7⟩), .request (.submit ⟨8⟩ skipped), .effort .close,
      .request (.advance 100), .request .purge, .effort .pack, .mark (.ok ())]
    let moves : List Move := [.request (.advance 9), .leave, .request (.look ⟨7⟩),
      .request (.advance 9), .request .purge, .start, .request (.submit ⟨9⟩ skipped)]
    let w := (after env (step env s .touch) moves).world
    s.world.time = 200 ∧ w.time = 218 ∧
      ((getResult env ⟨7⟩).outcome w).1.toOption = s.world.result? 0 ∧
      ((getResult env ⟨7⟩).outcome (Service.after env w (.advance 1))).1 =
        .error (.resultNotFound (.uuid ⟨7⟩)) := by
  intro store w₀ env skipped s moves w
  have within : env.Within (.ofStore 0) := Environment.around_within ..
  have unused : w₀.Unused := ⟨rfl, rfl, by decide, rfl, rfl, by decide⟩
  have registered : s.world.registry.value? ⟨7⟩ = some 0 := by decide +kernel
  obtain ⟨_, ended⟩ := registered_result_retained env within.apart within.cleansUp
    (within.findsTenants (ofStore_findsTenants 0)) w₀ unused _ rfl _ ⟨7⟩ 0 registered
  obtain ⟨r, found, _, _, kept⟩ := ended ⟨0, 0, ⟨⟨7⟩, .str "acme"⟩⟩ rfl rfl
  obtain ⟨_, early⟩ := kept moves (by decide +kernel) (by decide +kernel)
  obtain ⟨_, late⟩ := kept (moves ++ [.request (.advance 1)]) (by decide +kernel)
    (by decide +kernel)
  rw [if_pos (by decide +kernel)] at early
  rw [if_neg (by decide +kernel)] at late
  refine ⟨by decide +kernel, by decide +kernel, ?_, late⟩
  rw [early, found]
  rfl

end Session

end Handover
